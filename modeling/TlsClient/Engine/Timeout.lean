import TlsClient.Engine.Builder

/-!
# The timeout of a client

`buildClientFromConfig` of `src/cffi_binding/main.go` has two fields for the timeout of a request, one in
milliseconds, which wins, and one in seconds.
-/

namespace TlsClient.Engine

open TlsClient.Ffi

/-- The timeout that the two fields stand for, in nanoseconds. -/
def selectTimeout (timeoutSeconds timeoutMilliseconds : ℤ) : ℤ :=
  if timeoutMilliseconds > 0 then millisecond * timeoutMilliseconds
  else if timeoutSeconds > 0 then second * timeoutSeconds
  else second * 30

/-- The timeout is positive. -/
theorem selectTimeout_pos (timeoutSeconds timeoutMilliseconds : ℤ) :
    0 < selectTimeout timeoutSeconds timeoutMilliseconds := by
  rw [selectTimeout, millisecond, second]
  split_ifs <;> omega

/-- No option after the one for the timeout changes it. -/
theorem timeout_clientOptions (env : Environment) (cfg : ClientFields) (catchPanics withDebug : Bool)
    (clientProfile : ClientProfile) (addr : Bytes) (config : HttpClientConfig) :
    ((clientOptions env cfg catchPanics withDebug clientProfile addr).foldl
        (fun config opt => opt config) config).timeout =
      selectTimeout cfg.timeoutSeconds cfg.timeoutMilliseconds := by
  unfold clientOptions
  repeat rw [List.foldl_append, foldl_optionIf_field HttpClientConfig.timeout]
  · rw [List.foldl_append, List.foldl_cons, List.foldl_nil]
    dsimp only
    repeat rw [List.foldl_append, foldl_optionIf_field HttpClientConfig.timeout]
    · rfl
    all_goals exact fun _ => rfl
  all_goals exact fun _ => rfl

/-- The timeout of a new client. -/
theorem timeout_buildClientFromConfig {env : Environment} {cfg : RequestConfig} {config : HttpClientConfig}
    (hbuild : buildClientFromConfig env cfg = .ok config) :
    config.timeout = selectTimeout cfg.timeoutSeconds cfg.timeoutMilliseconds := by
  obtain ⟨clientProfile, addr, heq⟩ := buildClientFromConfig_eq_ok hbuild
  rw [heq, timeout_clientOptions]

end TlsClient.Engine
