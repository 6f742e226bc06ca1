import TlsClient.Engine.PoolSound
import TlsClient.WebSocket.Handles

/-!
# The TCP fingerprint of a client

Embeds `MergeTcpFingerprint` and `applySocketOptions` of `src/tcp_fingerprint.go`, `GetTcpFingerprint` of
`src/profiles/profiles.go` with its tables, and the config that `WebsocketNew` of
`src/cffi_binding/main.go` asks the pool for. `buildFromConfig` merges the fingerprint of the profile with
the override of the config and sets it on every socket the client opens.

A caller leaves a field unset with 0, with -1 in the three fields where 0 has a meaning, or with an empty
text. `Respects` says that a client has the values the caller set and those of its profile elsewhere. The
config of `WebsocketNew` is zero also where 0 has a meaning.
-/

namespace TlsClient.Engine

open TlsClient.Ffi TlsClient.Python TlsClient.CacheKey Utf8

/-! ## The fingerprint of a profile -/

/-- `DefaultTcpFingerprints`. -/
def defaultTcpFingerprints : List (Bytes × TcpFingerprint) :=
  [(utf8 "Windows",
      { ttl := some 128, windowSize := some 64240, windowScale := some 8, mss := some 1460
        dontFragment := some false, tos := some 0, noDelay := some true, ipIDMode := utf8 "random" }),
    (utf8 "Linux",
      { ttl := some 64, windowSize := some 65535, windowScale := some 7, mss := some 1460
        dontFragment := some true, tos := some 0, noDelay := some true, ipIDMode := utf8 "random" }),
    (utf8 "macOS",
      { ttl := some 64, windowSize := some 65535, windowScale := some 6, mss := some 1460
        dontFragment := some true, tos := some 0, noDelay := some true, ipIDMode := utf8 "random" }),
    (utf8 "iOS",
      { ttl := some 64, windowSize := some 65535, windowScale := some 6, mss := some 1460
        dontFragment := some true, tos := some 0, noDelay := some true, ipIDMode := utf8 "random" }),
    (utf8 "Android",
      { ttl := some 64, windowSize := some 65535, windowScale := some 7, mss := some 1460
        dontFragment := some true, tos := some 0, noDelay := some true, ipIDMode := utf8 "random" })]

/-- `clientToPlatform`. -/
def clientToPlatform : List (Bytes × Bytes) :=
  [(utf8 "Chrome", utf8 "Windows"), (utf8 "Brave", utf8 "Windows"), (utf8 "Opera", utf8 "Windows"),
    (utf8 "Safari", utf8 "macOS"), (utf8 "Firefox", utf8 "Linux"), (utf8 "iOS", utf8 "iOS"),
    (utf8 "MMSIos", utf8 "iOS"), (utf8 "MeshIos", utf8 "iOS"), (utf8 "MeshIos2", utf8 "iOS"),
    (utf8 "ConfirmedIos", utf8 "iOS"), (utf8 "ZalandoIosCustom", utf8 "iOS"),
    (utf8 "NikeIosCustom", utf8 "iOS"), (utf8 "iPad", utf8 "iOS"), (utf8 "Android", utf8 "Android"),
    (utf8 "OkHttp", utf8 "Android"), (utf8 "MeshAndroid", utf8 "Android"),
    (utf8 "MeshAndroid2", utf8 "Android"), (utf8 "ConfirmedAndroid", utf8 "Android"),
    (utf8 "ZalandoAndroidCustom", utf8 "Android"), (utf8 "NikeAndroidCustom", utf8 "Android"),
    (utf8 "CloudflareCustom", utf8 "Windows")]

/-- `GetTcpFingerprint`; a map without the key gives the zero value. -/
def ClientProfile.getTcpFingerprint (c : ClientProfile) : Option TcpFingerprint :=
  match c.tcpFingerprint with
  | some fp => some fp
  | none =>
    match List.lookup c.clientHelloId.client clientToPlatform with
    | none => none
    | some platform => some ((List.lookup platform defaultTcpFingerprints).getD {})

/-- `MergeTcpFingerprint`. -/
def mergeTcpFingerprint (auto override : Option TcpFingerprint) : Option TcpFingerprint :=
  match auto, override with
  | none, none => none
  | some auto, none => some auto
  | none, some override => some override
  | some auto, some override =>
    some
      { ttl := if override.ttl.isSome then override.ttl else auto.ttl
        windowSize := if override.windowSize.isSome then override.windowSize else auto.windowSize
        windowScale := if override.windowScale.isSome then override.windowScale else auto.windowScale
        mss := if override.mss.isSome then override.mss else auto.mss
        dontFragment := if override.dontFragment.isSome then override.dontFragment else auto.dontFragment
        tos := if override.tos.isSome then override.tos else auto.tos
        noDelay := if override.noDelay.isSome then override.noDelay else auto.noDelay
        windowClamp := if override.windowClamp.isSome then override.windowClamp else auto.windowClamp
        ipIDMode := if override.ipIDMode ≠ [] then override.ipIDMode else auto.ipIDMode }

/-- The fingerprint `buildFromConfig` gives to `tcpControl`. -/
def HttpClientConfig.tcpFp (config : HttpClientConfig) : Option TcpFingerprint :=
  mergeTcpFingerprint config.clientProfile.getTcpFingerprint config.tcpFingerprintOverride

/-- A socket option with its value. -/
inductive SocketOption where
  | ttl (value : ℤ)
  | mss (value : ℤ)
  | windowSize (value : ℤ)
  | windowScale (value : ℤ)
  | windowClamp (value : ℤ)
  | tos (value : ℤ)
  | dontFragment (value : Bool)
  | noDelay (value : Bool)
deriving DecidableEq

/-- `applySocketOptions`: the options it sets, in its order. The IP-ID mode sets none. -/
def applySocketOptions (fp : TcpFingerprint) : List SocketOption :=
  (fp.ttl.map .ttl).toList ++ (fp.mss.map .mss).toList ++ (fp.windowSize.map .windowSize).toList ++
    (fp.windowScale.map .windowScale).toList ++ (fp.windowClamp.map .windowClamp).toList ++
    (fp.tos.map .tos).toList ++ (fp.dontFragment.map .dontFragment).toList ++
    (fp.noDelay.map .noDelay).toList

/-- `tcpControl`. -/
def tcpControl (fp : Option TcpFingerprint) : List SocketOption :=
  (fp.map applySocketOptions).getD []

/-! ## One fingerprint over another -/

/-- The fields of the first fingerprint, those of the second where the first has none. -/
def TcpFingerprint.orElse (fp below : TcpFingerprint) : TcpFingerprint :=
  { ttl := fp.ttl.or below.ttl
    windowSize := fp.windowSize.or below.windowSize
    windowScale := fp.windowScale.or below.windowScale
    mss := fp.mss.or below.mss
    dontFragment := fp.dontFragment.or below.dontFragment
    tos := fp.tos.or below.tos
    noDelay := fp.noDelay.or below.noDelay
    windowClamp := fp.windowClamp.or below.windowClamp
    ipIDMode := if fp.ipIDMode ≠ [] then fp.ipIDMode else below.ipIDMode }

@[simp] theorem TcpFingerprint.empty_orElse (below : TcpFingerprint) :
    TcpFingerprint.orElse {} below = below := rfl

@[simp] theorem TcpFingerprint.orElse_empty (fp : TcpFingerprint) : fp.orElse {} = fp := by
  have hmode : (if fp.ipIDMode ≠ [] then fp.ipIDMode else []) = fp.ipIDMode := by
    split_ifs with hmode
    · rfl
    · exact (not_not.mp hmode).symm
  simp only [TcpFingerprint.orElse, Option.or_none, hmode]

theorem ite_isSome_eq_or {α : Type} (fp below : Option α) :
    (if fp.isSome then fp else below) = fp.or below := by
  cases fp <;> rfl

/-- `MergeTcpFingerprint` puts the override over the fingerprint of the profile. No fingerprint at all
sets what the empty one sets. -/
theorem getD_mergeTcpFingerprint (auto override : Option TcpFingerprint) :
    (mergeTcpFingerprint auto override).getD {} = (override.getD {}).orElse (auto.getD {}) := by
  cases auto with
  | none =>
    cases override with
    | none => rfl
    | some override => exact (TcpFingerprint.orElse_empty override).symm
  | some auto =>
    cases override with
    | none => rfl
    | some override =>
      simp only [mergeTcpFingerprint, TcpFingerprint.orElse, ite_isSome_eq_or, Option.getD_some]

theorem tcpControl_getD (fp : Option TcpFingerprint) : tcpControl fp = applySocketOptions (fp.getD {}) := by
  cases fp <;> rfl

/-! ## The fingerprint of a built client -/

section Built

variable {env : Environment} {cfg : RequestConfig} {config : HttpClientConfig}

/-- The options after the first leave the profile alone. -/
theorem clientProfile_clientOptions (env : Environment) (cfg : ClientFields) (catchPanics withDebug : Bool)
    (clientProfile : ClientProfile) (addr : Bytes) (config : HttpClientConfig) :
    ((clientOptions env cfg catchPanics withDebug clientProfile addr).foldl
        (fun config opt => opt config) config).clientProfile = clientProfile := by
  unfold clientOptions
  repeat rw [List.foldl_append, foldl_optionIf_field HttpClientConfig.clientProfile]
  · rw [List.foldl_append, List.foldl_cons, List.foldl_nil]
    dsimp only
    repeat rw [List.foldl_append, foldl_optionIf_field HttpClientConfig.clientProfile]
    · rfl
    all_goals exact fun _ => rfl
  all_goals exact fun _ => rfl

/-- The options override the fingerprint exactly if the request has one. -/
theorem tcpFingerprintOverride_clientOptions (env : Environment) (cfg : ClientFields)
    (catchPanics withDebug : Bool) (clientProfile : ClientProfile) (addr : Bytes) (config : HttpClientConfig) :
    ((clientOptions env cfg catchPanics withDebug clientProfile addr).foldl
        (fun config opt => opt config) config).tcpFingerprintOverride =
      if hasTcpFingerprint cfg then some (tcpFingerprint cfg) else config.tcpFingerprintOverride := by
  unfold clientOptions
  repeat rw [List.foldl_append, foldl_optionIf_field HttpClientConfig.tcpFingerprintOverride]
  · rw [List.foldl_append, List.foldl_cons, List.foldl_nil]
    dsimp only
    -- the options from the local address back to the panic catching
    iterate 6 rw [List.foldl_append, foldl_optionIf_field HttpClientConfig.tcpFingerprintOverride]
    · rw [List.foldl_append]
      by_cases htcp : hasTcpFingerprint cfg
      · rw [if_pos htcp, optionIf_pos htcp]
        rfl
      · rw [if_neg htcp, optionIf_neg htcp, List.foldl_nil]
        repeat rw [List.foldl_append, foldl_optionIf_field HttpClientConfig.tcpFingerprintOverride]
        · rfl
        all_goals exact fun _ => rfl
    all_goals exact fun _ => rfl
  all_goals exact fun _ => rfl

/-- A request without a fingerprint asks for nothing. -/
theorem tcpFingerprint_of_not_has {cfg : ClientFields} (htcp : ¬ hasTcpFingerprint cfg) :
    tcpFingerprint cfg = {} := by
  simp only [hasTcpFingerprint, not_or, not_not, gt_iff_lt, ge_iff_le] at htcp
  obtain ⟨httl, hsize, hscale, hmss, hdf, htos, hdelay, hclamp, hmode⟩ := htcp
  simp only [tcpFingerprint, positive, triState, gt_iff_lt, ge_iff_le, if_neg httl, if_neg hsize,
    if_neg hscale, if_neg hmss, if_neg hdf, if_neg htos, if_neg hdelay, if_neg hclamp, hmode,
    Option.map_none]

/-- A client has the fingerprint of its config over that of its profile. -/
theorem getD_tcpFp {profile : ClientProfile} (hprofile : baseProfile env cfg.toClientFields = .ok profile)
    (hbuild : buildClientFromConfig env cfg = .ok config) :
    config.tcpFp.getD {} = (tcpFingerprint cfg.toClientFields).orElse
      ((overridePseudoHeaderOrder cfg.toClientFields profile).getTcpFingerprint.getD {}) := by
  rw [buildClientFromConfig, hprofile] at hbuild
  change (resolveLocalAddress env cfg.toClientFields >>= _) = _ at hbuild
  obtain ⟨addr, -, hbuild⟩ := Fallible.bind_eq_ok_iff.mp hbuild
  have hconfig := newHttpClient_eq_ok hbuild
  have hclient : config.clientProfile = overridePseudoHeaderOrder cfg.toClientFields profile := by
    rw [hconfig, clientProfile_clientOptions]
  have hoverride : config.tcpFingerprintOverride.getD {} = tcpFingerprint cfg.toClientFields := by
    rw [hconfig, tcpFingerprintOverride_clientOptions]
    split_ifs with htcp
    · rfl
    · exact (tcpFingerprint_of_not_has htcp).symm
  rw [HttpClientConfig.tcpFp, getD_mergeTcpFingerprint, hclient, hoverride]

end Built

/-! ## The entry points -/

/-- The config of `WebsocketNew`: all fields but two are zero. -/
def websocketRequestConfig (opts : WebSocket.WebsocketOptions) : RequestConfig :=
  let cfg := WebSocket.websocketClientConfig opts
  { clientIdentifier := utf8 cfg.clientIdentifier, forceHttp1 := cfg.forceHttp1 }

/-- The calls that get a client from the pool. -/
inductive EntryPoint where
  | executeRequest (opts : C.RequestOptions)
  | requestAsync (opts : C.RequestOptions)
  | websocketNew (opts : WebSocket.WebsocketOptions)

/-- The config `getOrCreateClientFromConfig` gets. -/
def EntryPoint.config : EntryPoint → RequestConfig
  | .executeRequest opts => requestConfigFromOptions opts
  | .requestAsync opts => requestConfigFromOptions opts
  | .websocketNew opts => websocketRequestConfig opts

/-- An integer that is not the one for "unset". -/
def setting (unset n : ℤ) : Option ℤ :=
  if n = unset then none else some n

/-- The TCP fields that the options set. -/
def tcpSettings (opts : C.RequestOptions) : TcpFingerprint :=
  { ttl := setting 0 opts.tcpTtl
    windowSize := setting 0 opts.tcpWindowSize
    windowScale := setting 0 opts.tcpWindowScale
    mss := setting 0 opts.tcpMss
    dontFragment := (setting (-1) opts.tcpDontFragment).map (· != 0)
    tos := setting (-1) opts.tcpTos
    noDelay := (setting (-1) opts.tcpNoDelay).map (· != 0)
    windowClamp := setting 0 opts.tcpWindowClamp
    ipIDMode := goString opts.tcpIpIdMode }

/-- The TCP fields the caller sets. `WebsocketOptions` has none. -/
def EntryPoint.settings : EntryPoint → TcpFingerprint
  | .executeRequest opts => tcpSettings opts
  | .requestAsync opts => tcpSettings opts
  | .websocketNew _ => {}

/-- The client has what the caller set, and what its profile has where the caller set nothing. -/
def EntryPoint.Respects (e : EntryPoint) (profile : ClientProfile) (config : HttpClientConfig) : Prop :=
  config.tcpFp.getD {} = e.settings.orElse (profile.getTcpFingerprint.getD {})

/-! ## When a client respects its caller and its profile -/

/-- A field of a request. Where it is unset, the profile has its own value still. A value below the least
one that the engine takes for set is that of the profile. -/
structure Kept {α : Type} (value : ℤ → α) (unset least n : ℤ) (own used : Option α) : Prop where
  of_unset : n = unset → used = own
  of_below : n ≠ unset → n < least → used = some (value n)

/-- A value that is read with another bound than it is written with is the same exactly if it is kept. -/
theorem or_eq_or_iff_kept {α : Type} (value : ℤ → α) {unset least : ℤ} (hunset : unset < least) (n : ℤ)
    (own used : Option α) :
    ((if n ≥ least then some n else none).map value).or used = ((setting unset n).map value).or own ↔
      Kept value unset least n own used := by
  rw [setting]
  by_cases hn : n = unset
  · have hbelow : ¬ n ≥ least := by omega
    rw [if_neg hbelow, if_pos hn]
    exact ⟨fun heq => ⟨fun _ => heq, fun hne => absurd hn hne⟩, fun hkept => hkept.of_unset hn⟩
  · rw [if_neg hn]
    by_cases hbelow : n ≥ least
    · rw [if_pos hbelow]
      exact ⟨fun _ => ⟨fun heq => absurd heq hn, fun _ hlt => absurd hlt (by omega)⟩, fun _ => rfl⟩
    · rw [if_neg hbelow]
      exact ⟨fun heq => ⟨fun heq => absurd heq hn, fun _ _ => heq⟩,
        fun hkept => hkept.of_below hn (by omega)⟩

/-- The same for a value that is set if it is positive. -/
theorem positive_or_iff_kept (n : ℤ) (own used : Option ℤ) :
    (positive n).or used = (setting 0 n).or own ↔ Kept id 0 1 n own used := by
  rw [← or_eq_or_iff_kept id (by decide), Option.map_id, id, id]
  rfl

/-- The same for a value that is unset at -1. -/
theorem triState_or_iff_kept (n : ℤ) (own used : Option ℤ) :
    (triState n).or used = (setting (-1) n).or own ↔ Kept id (-1) 0 n own used := by
  rw [← or_eq_or_iff_kept id (by decide), Option.map_id, id, id]
  rfl

/-- The same for a flag that is unset at -1. -/
theorem flag_or_iff_kept (n : ℤ) (own used : Option Bool) :
    ((triState n).map (· != 0)).or used = ((setting (-1) n).map (· != 0)).or own ↔
      Kept (· != 0) (-1) 0 n own used :=
  or_eq_or_iff_kept _ (by decide) n own used

/-- The fields of a request, with the fingerprint of the profile and the one the engine finds once the
pseudo-header orders are in it. -/
structure KeepsTcp (opts : C.RequestOptions) (own used : TcpFingerprint) : Prop where
  ttl : Kept id 0 1 opts.tcpTtl own.ttl used.ttl
  windowSize : Kept id 0 1 opts.tcpWindowSize own.windowSize used.windowSize
  windowScale : Kept id 0 1 opts.tcpWindowScale own.windowScale used.windowScale
  mss : Kept id 0 1 opts.tcpMss own.mss used.mss
  dontFragment : Kept (· != 0) (-1) 0 opts.tcpDontFragment own.dontFragment used.dontFragment
  tos : Kept id (-1) 0 opts.tcpTos own.tos used.tos
  noDelay : Kept (· != 0) (-1) 0 opts.tcpNoDelay own.noDelay used.noDelay
  windowClamp : Kept id 0 1 opts.tcpWindowClamp own.windowClamp used.windowClamp
  ipIDMode : goString opts.tcpIpIdMode = [] → used.ipIDMode = own.ipIDMode

/-- The profile has the three values that `WebsocketNew` asks for. -/
structure ZeroTcp (own : TcpFingerprint) : Prop where
  dontFragment : own.dontFragment = some false
  tos : own.tos = some 0
  noDelay : own.noDelay = some false

def EntryPoint.Keeps (profile : ClientProfile) (e : EntryPoint) : Prop :=
  let own := profile.getTcpFingerprint.getD {}
  let used := (overridePseudoHeaderOrder e.config.toClientFields profile).getTcpFingerprint.getD {}
  match e with
  | .executeRequest opts => KeepsTcp opts own used
  | .requestAsync opts => KeepsTcp opts own used
  | .websocketNew _ => ZeroTcp own

/-- An empty mode keeps what is there. -/
theorem mode_eq_mode_iff (mode own used : Bytes) :
    ((if mode ≠ [] then mode else used) = if mode ≠ [] then mode else own) ↔ (mode = [] → used = own) := by
  by_cases hmode : mode = []
  · rw [if_neg (not_not.mpr hmode), if_neg (not_not.mpr hmode)]
    exact ⟨fun heq _ => heq, fun heq => heq hmode⟩
  · rw [if_pos hmode, if_pos hmode]
    exact ⟨fun _ hnil => absurd hnil hmode, fun _ => rfl⟩

/-- A request's fingerprint over the one in use is what it asks for exactly if every value is kept. -/
theorem orElse_request_iff (opts : C.RequestOptions) (own used : TcpFingerprint) :
    (tcpFingerprint (requestConfigFromOptions opts).toClientFields).orElse used =
      (tcpSettings opts).orElse own ↔ KeepsTcp opts own used := by
  simp only [TcpFingerprint.orElse, TcpFingerprint.mk.injEq, tcpFingerprint, tcpSettings,
    requestConfigFromOptions, positive_or_iff_kept, triState_or_iff_kept, flag_or_iff_kept]
  have hmode := mode_eq_mode_iff (goString opts.tcpIpIdMode) own.ipIDMode used.ipIDMode
  constructor
  · rintro ⟨httl, hsize, hscale, hmss, hdf, htos, hdelay, hclamp, heq⟩
    exact ⟨httl, hsize, hscale, hmss, hdf, htos, hdelay, hclamp, hmode.mp heq⟩
  · rintro ⟨httl, hsize, hscale, hmss, hdf, htos, hdelay, hclamp, hempty⟩
    exact ⟨httl, hsize, hscale, hmss, hdf, htos, hdelay, hclamp, hmode.mpr hempty⟩

/-- What the zero values of a websocket's config ask for. -/
theorem tcpFingerprint_websocket (opts : WebSocket.WebsocketOptions) :
    tcpFingerprint (websocketRequestConfig opts).toClientFields =
      { dontFragment := some false, tos := some 0, noDelay := some false } := rfl

/-- A websocket's config overrides no pseudo-header order. -/
theorem overridePseudoHeaderOrder_websocket (opts : WebSocket.WebsocketOptions) (profile : ClientProfile) :
    overridePseudoHeaderOrder (websocketRequestConfig opts).toClientFields profile = profile := rfl

/-- A profile under a websocket's values is the profile exactly if it has these values. -/
theorem orElse_websocket_iff (own : TcpFingerprint) :
    TcpFingerprint.orElse { dontFragment := some false, tos := some 0, noDelay := some false } own = own ↔
      ZeroTcp own := by
  constructor
  · intro heq
    exact ⟨(congrArg TcpFingerprint.dontFragment heq).symm, (congrArg TcpFingerprint.tos heq).symm,
      (congrArg TcpFingerprint.noDelay heq).symm⟩
  · rintro ⟨hdf, htos, hdelay⟩
    cases own
    cases hdf
    cases htos
    cases hdelay
    rfl

/-- A request is respected exactly if the profile keeps its values. -/
theorem respects_request_iff {env : Environment} {opts : C.RequestOptions} {profile : ClientProfile}
    {config : HttpClientConfig}
    (hprofile : baseProfile env (requestConfigFromOptions opts).toClientFields = .ok profile)
    (hbuild : buildClientFromConfig env (requestConfigFromOptions opts) = .ok config) :
    config.tcpFp.getD {} = (tcpSettings opts).orElse (profile.getTcpFingerprint.getD {}) ↔
      (EntryPoint.executeRequest opts).Keeps profile := by
  rw [getD_tcpFp hprofile hbuild]
  exact orElse_request_iff opts _ _

/-- A websocket is respected exactly if the profile has its zero values. -/
theorem respects_websocketNew_iff {env : Environment} {opts : WebSocket.WebsocketOptions}
    {profile : ClientProfile} {config : HttpClientConfig}
    (hprofile : baseProfile env (websocketRequestConfig opts).toClientFields = .ok profile)
    (hbuild : buildClientFromConfig env (websocketRequestConfig opts) = .ok config) :
    (EntryPoint.websocketNew opts).Respects profile config ↔ ZeroTcp (profile.getTcpFingerprint.getD {}) := by
  rw [EntryPoint.Respects, getD_tcpFp hprofile hbuild, tcpFingerprint_websocket,
    overridePseudoHeaderOrder_websocket]
  exact orElse_websocket_iff _

/-! ## The profiles of the package -/

section NoExplicitFingerprint

/-! No profile of `src/profiles` sets its own TCP fingerprint; each has the one of its platform. -/

variable {env : Environment} {profile : ClientProfile} {config : HttpClientConfig}

/-- The pseudo-header order does not change the fingerprint. -/
theorem getTcpFingerprint_override (hnone : profile.tcpFingerprint = none) (cfg : ClientFields) :
    (overridePseudoHeaderOrder cfg profile).getTcpFingerprint = profile.getTcpFingerprint := by
  unfold overridePseudoHeaderOrder
  by_cases hoverride : cfg.pseudoHeaderOrder.length > 0 ∨ cfg.h3PseudoHeaderOrder.length > 0
  · rw [if_pos hoverride, ClientProfile.getTcpFingerprint, ClientProfile.getTcpFingerprint, hnone]
  · rw [if_neg hoverride]

/-- Each field is unset or has a value that the engine takes. -/
structure ValidTcp (opts : C.RequestOptions) : Prop where
  ttl : 0 ≤ opts.tcpTtl
  windowSize : 0 ≤ opts.tcpWindowSize
  windowScale : 0 ≤ opts.tcpWindowScale
  mss : 0 ≤ opts.tcpMss
  dontFragment : -1 ≤ opts.tcpDontFragment
  tos : -1 ≤ opts.tcpTos
  noDelay : -1 ≤ opts.tcpNoDelay
  windowClamp : 0 ≤ opts.tcpWindowClamp

/-- A value in the range of the setting is kept. -/
theorem Kept.of_le {α : Type} {value : ℤ → α} {unset least n : ℤ} {own : Option α}
    (hleast : least = unset + 1) (hn : unset ≤ n) : Kept value unset least n own own where
  of_unset _ := rfl
  of_below hne hlt := by omega

/-- A request with valid values sets what it asks for on every socket, and what the profile asks for
elsewhere. -/
theorem tcpControl_request (hnone : profile.tcpFingerprint = none) {opts : C.RequestOptions}
    (hvalid : ValidTcp opts)
    (hprofile : baseProfile env (requestConfigFromOptions opts).toClientFields = .ok profile)
    (hbuild : buildClientFromConfig env (requestConfigFromOptions opts) = .ok config) :
    tcpControl config.tcpFp =
      applySocketOptions ((tcpSettings opts).orElse (profile.getTcpFingerprint.getD {})) := by
  have hkeeps : (EntryPoint.executeRequest opts).Keeps profile := by
    rw [EntryPoint.Keeps, getTcpFingerprint_override hnone]
    exact
      { ttl := .of_le rfl hvalid.ttl
        windowSize := .of_le rfl hvalid.windowSize
        windowScale := .of_le rfl hvalid.windowScale
        mss := .of_le rfl hvalid.mss
        dontFragment := .of_le rfl hvalid.dontFragment
        tos := .of_le rfl hvalid.tos
        noDelay := .of_le rfl hvalid.noDelay
        windowClamp := .of_le rfl hvalid.windowClamp
        ipIDMode := fun _ => rfl }
  rw [tcpControl_getD, (respects_request_iff hprofile hbuild).mpr hkeeps]

/-- Every platform disables Nagle's algorithm. -/
theorem noDelay_of_lookup {platform : Bytes} {fp : TcpFingerprint}
    (hlookup : List.lookup platform defaultTcpFingerprints = some fp) : fp.noDelay = some true := by
  obtain ⟨l₁, l₂, htable, -⟩ := List.lookup_eq_some_iff.mp hlookup
  have hall : ∀ entry ∈ defaultTcpFingerprints, entry.2.noDelay = some true := by decide
  exact hall (platform, fp) (htable ▸ List.mem_append_right _ List.mem_cons_self)

/-- The fingerprint that a profile derives is not that of zero values. -/
theorem not_zeroTcp (hnone : profile.tcpFingerprint = none) :
    ¬ ZeroTcp (profile.getTcpFingerprint.getD {}) := by
  intro hzero
  have hdelay := hzero.noDelay
  rw [ClientProfile.getTcpFingerprint, hnone] at hdelay
  cases hclient : List.lookup profile.clientHelloId.client clientToPlatform with
  | none => simp [hclient] at hdelay
  | some platform =>
    cases hplatform : List.lookup platform defaultTcpFingerprints with
    | none => simp [hclient, hplatform] at hdelay
    | some fp => simp [hclient, hplatform, noDelay_of_lookup hplatform] at hdelay

/-- No WebSocket client has the fingerprint of its profile. -/
theorem websocketNew_not_respects (hnone : profile.tcpFingerprint = none) {opts : WebSocket.WebsocketOptions}
    (hprofile : baseProfile env (websocketRequestConfig opts).toClientFields = .ok profile)
    (hbuild : buildClientFromConfig env (websocketRequestConfig opts) = .ok config) :
    ¬ (EntryPoint.websocketNew opts).Respects profile config := by
  intro hrespects
  exact not_zeroTcp hnone ((respects_websocketNew_iff hprofile hbuild).mp hrespects)

end NoExplicitFingerprint

/-- A client respects its caller and its profile exactly when the request leaves out the negative values
that mean nothing, and never for a WebSocket unless the profile has the zero values already. -/
theorem respects_iff {env : Environment} {e : EntryPoint} {profile : ClientProfile}
    {config : HttpClientConfig} (hprofile : baseProfile env e.config.toClientFields = .ok profile)
    (hbuild : buildClientFromConfig env e.config = .ok config) :
    e.Respects profile config ↔ e.Keeps profile := by
  cases e with
  | executeRequest opts => exact respects_request_iff hprofile hbuild
  | requestAsync opts => exact respects_request_iff hprofile hbuild
  | websocketNew opts => exact respects_websocketNew_iff hprofile hbuild

/-- The options of a request without any setting. -/
def plainOptions : C.RequestOptions :=
  fillRequestOptions (resolvedSync {} {} "https://h/") { method := "GET", url := "https://h/" } []

theorem exists_plainClient :
    ∃ config, buildClientFromConfig exampleMoment.env (requestConfigFromOptions plainOptions) = .ok config :=
  ⟨_, rfl⟩

/-- So has a plain websocket. -/
theorem exists_websocketClient :
    ∃ config, buildClientFromConfig exampleMoment.env (websocketRequestConfig ⟨"chrome_146", true⟩) =
      .ok config :=
  ⟨_, rfl⟩

/-- The client of a plain request has the fingerprint of the default profile. -/
theorem plain_respects :
    ∃ config, buildClientFromConfig exampleMoment.env (requestConfigFromOptions plainOptions) = .ok config ∧
      (EntryPoint.executeRequest plainOptions).Respects exampleMoment.env.defaultClientProfile config := by
  obtain ⟨config, hbuild⟩ := exists_plainClient
  have hkept : ∀ {α : Type} (value : ℤ → α) (unset : ℤ) (own : Option α),
      Kept value unset (unset + 1) unset own own := fun _ _ _ => .of_le rfl le_rfl
  refine ⟨config, hbuild, (respects_iff rfl hbuild).mpr ?_⟩
  exact ⟨hkept _ _ _, hkept _ _ _, hkept _ _ _, hkept _ _ _, hkept _ _ _, hkept _ _ _, hkept _ _ _,
    hkept _ _ _, fun _ => rfl⟩

/-- A WebSocket client of the default profile does not have the profile's fingerprint. -/
theorem websocketNew_loses_fingerprint :
    ¬ ∀ (env : Environment) (e : EntryPoint) (profile : ClientProfile) (config : HttpClientConfig),
      baseProfile env e.config.toClientFields = .ok profile →
      buildClientFromConfig env e.config = .ok config → e.Respects profile config := by
  intro hrespects
  obtain ⟨config, hbuild⟩ := exists_websocketClient
  have h := hrespects exampleMoment.env (.websocketNew ⟨"chrome_146", true⟩)
    exampleMoment.env.defaultClientProfile config rfl hbuild
  exact websocketNew_not_respects rfl rfl hbuild h

/-! ## The settings of a Python session -/

/-- The integer an option holds, unless it is the one for "unset". -/
def intSetting (unset : ℤ) (option : Option PyInt) : Option ℤ :=
  (option.map PyInt.toInt).filter (· ≠ unset)

/-- The TCP options a request on a session sets, itself or through the defaults. -/
def pythonTcpSettings (d : RequestOptions) (o : Overrides) : TcpFingerprint :=
  { ttl := intSetting 0 (val o.tcpTtl d.tcpTtl)
    windowSize := intSetting 0 (val o.tcpWindowSize d.tcpWindowSize)
    windowScale := intSetting 0 (val o.tcpWindowScale d.tcpWindowScale)
    mss := intSetting 0 (val o.tcpMss d.tcpMss)
    dontFragment := (intSetting (-1) (val o.tcpDontFragment d.tcpDontFragment)).map (· != 0)
    tos := intSetting (-1) (val o.tcpTos d.tcpTos)
    noDelay := (intSetting (-1) (val o.tcpNoDelay d.tcpNoDelay)).map (· != 0)
    windowClamp := intSetting 0 (val o.tcpWindowClamp d.tcpWindowClamp)
    ipIDMode := utf8 ((val o.tcpIpIdMode d.tcpIpIdMode).getD "") }

/-- A setting of the session, read back from the struct. -/
theorem setting_getD (unset : ℤ) (option : Option PyInt) :
    setting unset ((option.map PyInt.toInt).getD unset) = intSetting unset option := by
  cases option with
  | none => exact if_pos rfl
  | some v =>
    rw [Option.map_some, Option.getD_some, intSetting, Option.map_some, Option.filter_some, setting]
    by_cases hv : v.toInt = unset <;> simp [hv]

/-- The struct sets the TCP fields that the session sets: the resolvers write 0, -1 and NULL for what is
unset. -/
theorem tcpSettings_of_session {lib : Library} {s : Session} {o : Overrides} {url : String} {r : Resolved}
    (habi : lib.abiVersion ≥ 3) (hmode : NulFree ((val o.tcpIpIdMode s.defaults.tcpIpIdMode).getD ""))
    (hok : s.executeRequest lib o url = .ok r) (args : RequestArgs) (cacheKeyHash : Bytes) :
    tcpSettings (fillRequestOptions r args cacheKeyHash) = pythonTcpSettings s.defaults o := by
  obtain ⟨-, hr⟩ := sync_eq_ok_iff.mp hok
  have hdegrade : degradeAbi3Fields lib (resolvedSync s.defaults o url) = resolvedSync s.defaults o url :=
    if_pos (.inl habi)
  rw [finish, hdegrade] at hr
  have hr : ∃ headers, r = { resolvedSync s.defaults o url with defaultHeaders := headers } := by
    rw [hr, pairDefaultHeaders]
    split_ifs
    · exact ⟨_, rfl⟩
    · exact ⟨_, rfl⟩
  obtain ⟨headers, rfl⟩ := hr
  have hcopied := (copied_stringIfTrue (val o.tcpIpIdMode s.defaults.tcpIpIdMode)).eq_iff.mpr hmode
  simp only [tcpSettings, pythonTcpSettings, fillRequestOptions, resolvedSync, valInt, valTristate,
    setting_getD, ← hcopied, strOrEmpty]

end TlsClient.Engine
