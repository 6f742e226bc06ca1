import TlsClient.CacheKey.Parity
import TlsClient.Engine.PoolSound
import TlsClient.Engine.Timeout
import TlsClient.Python.Doubles

/-!
# The timeout of a request

Embeds `_timeout_options` of `src/tls_client/requests_compat.py`. A timeout in whole seconds overrides the option
`timeout` of the native session, any other the option `timeout_milliseconds`, which wins in the engine. So a
timeout in whole seconds has no effect on a session with a default in milliseconds (`timeout_wins_iff`).
-/

namespace TlsClient.Compat

open TlsClient.Ffi TlsClient.Python TlsClient.Engine TlsClient.CacheKey

/-- The `timeout` of a request: `None`, a number, or a tuple or list. -/
inductive Timeout where
  | none
  | number (n : Number)
  | values (l : List (Option Number))

/-- `max(values)`. -/
def maxNumber (first : Number) (others : List Number) : Number :=
  others.foldl (fun m n => if m.value < n.value then n else m) first

/-- The keys that `_timeout_options` sets. -/
structure TimeoutOptions where
  timeout : Option ℤ := .none
  timeoutMilliseconds : Option ℤ := .none

/-- `_timeout_options` of a number. -/
def secondsOptions (n : Number) : Except PyError TimeoutOptions := do
  let seconds ← n.toFloat
  if seconds ≤ 0 then
    .error (.valueError "timeout must be greater than zero")
  -- `seconds.is_integer()`
  else if seconds.den = 1 then
    .ok { timeout := some seconds.num }
  else
    .ok { timeoutMilliseconds := some (max 1 ⌈Binary64.round (seconds * 1000)⌉) }

/-- `_timeout_options`. -/
def timeoutOptions (timeout : Timeout) : Except PyError TimeoutOptions :=
  match timeout with
  | .none => .ok {}
  | .number n => secondsOptions n
  | .values l =>
    if l.length ≠ 2 then
      .error (.valueError "timeout must be a number or a (connect, read) tuple")
    else
      match l.filterMap id with
      | [] => .ok {}
      | first :: others => secondsOptions (maxNumber first others)

/-- `options.update(_timeout_options(timeout))`. -/
def updateTimeout (o : Overrides) (options : TimeoutOptions) : Overrides :=
  { o with
    timeout := (options.timeout.map PyInt.int).or o.timeout
    timeoutMilliseconds := (options.timeoutMilliseconds.map PyInt.int).or o.timeoutMilliseconds }

/-- The timeout that a request asks for; of a pair, the longer one. -/
def Timeout.requested : Timeout → Option Number
  | .none => .none
  | .number n => some n
  | .values l =>
    match l.filterMap id with
    | [] => .none
    | first :: others => some (maxNumber first others)

/-- The timeout in nanoseconds, rounded up to a millisecond. -/
def nanosecondsOf (n : Number) : ℤ :=
  if n.value.den = 1 then second * n.value.num else millisecond * ⌈Binary64.round (n.value * 1000)⌉

/-- The client that is built for a request of `TLSClientAdapter.send` with a timeout and other options. -/
structure Served (env : Environment) (lib : Library) (sha256 : Bytes → Bytes) (s : Session) (timeout : Timeout)
    (o : Overrides) (url : String) (args : RequestArgs) (client : HttpClientConfig) : Prop where
  exists_options : ∃ options resolved opts, timeoutOptions timeout = .ok options ∧
    s.executeRequest lib (updateTimeout o options) url = .ok resolved ∧
    marshal lib sha256 resolved args = .ok opts ∧
    buildClientFromConfig env (requestConfigFromOptions opts) = .ok client

/-! ## The keys that are set -/

/-- A positive number of seconds is that of a positive integer. -/
theorem exists_toFloat_int {n : ℤ} {seconds : ℚ} (hok : (Number.int n).toFloat = .ok seconds) (hpos : 0 < seconds) :
    0 < n ∧ seconds = Binary64.round n := by
  have hseconds : seconds = Binary64.round n := toDouble_eq_ok hok
  refine ⟨?_, hseconds⟩
  by_contra hn
  have hnonpos : Binary64.round n ≤ 0 := Binary64.round_nonpos (Int.cast_nonpos.mpr (not_lt.mp hn))
  exact absurd hpos (not_lt.mpr (hseconds.trans_le hnonpos))

/-- Positive seconds are positive milliseconds. -/
theorem round_milliseconds_pos {x : Binary64} (hpos : 0 < x.val) : 0 < Binary64.round (x.val * 1000) := by
  have hmono := Binary64.round_mono hpos.le (le_mul_of_one_le_right hpos.le (by norm_num : (1 : ℚ) ≤ 1000))
  rw [x.round_val] at hmono
  exact hpos.trans_le hmono

/-- Whole seconds set `timeout`, and other ones `timeout_milliseconds`. -/
theorem secondsOptions_cases {n : Number} {options : TimeoutOptions} (hok : secondsOptions n = .ok options) :
    (∃ seconds : ℤ, 0 < seconds ∧ n.toFloat = .ok (seconds : ℚ) ∧ options = { timeout := some seconds }) ∨
      ∃ x : Binary64, n = .float x ∧ 0 < x.val ∧ x.val.den ≠ 1 ∧
        options = { timeoutMilliseconds := some ⌈Binary64.round (x.val * 1000)⌉ } := by
  rw [secondsOptions] at hok
  obtain ⟨seconds, hfloat, hok⟩ := Fallible.bind_eq_ok_iff.mp hok
  split_ifs at hok with hpos hint
  · obtain rfl := Except.ok.inj hok
    have heq : ((seconds.num : ℤ) : ℚ) = seconds := Rat.den_eq_one_iff seconds |>.mp hint
    refine .inl ⟨seconds.num, Rat.num_pos.mpr (not_le.mp hpos), ?_, rfl⟩
    rw [heq]
    exact hfloat
  · obtain rfl := Except.ok.inj hok
    have hpos := not_le.mp hpos
    cases n with
    | int n =>
      -- the double of an integer is one
      obtain ⟨hn, rfl⟩ := exists_toFloat_int hfloat hpos
      obtain ⟨m, hm⟩ := Binary64.exists_round_natCast n.toNat
      rw [← Int.cast_natCast, Int.toNat_of_nonneg hn.le] at hm
      rw [hm] at hint
      exact absurd (Rat.den_intCast m) hint
    | float x =>
      obtain rfl := Except.ok.inj hfloat
      refine .inr ⟨x, rfl, hpos, hint, ?_⟩
      rw [max_eq_right (Int.one_le_ceil_iff.mpr (round_milliseconds_pos hpos))]

/-- The options of a timeout are those of the number it asks for. -/
theorem secondsOptions_of_requested {timeout : Timeout} {options : TimeoutOptions} {n : Number}
    (hok : timeoutOptions timeout = .ok options) (hrequested : timeout.requested = some n) :
    secondsOptions n = .ok options := by
  cases timeout with
  | none => contradiction
  | number m =>
    obtain rfl := Option.some.inj hrequested
    exact hok
  | values l =>
    rw [timeoutOptions] at hok
    rw [Timeout.requested] at hrequested
    split_ifs at hok
    cases hvalues : l.filterMap id with
    | nil =>
      rw [hvalues] at hrequested
      contradiction
    | cons first others =>
      rw [hvalues] at hok hrequested
      obtain rfl := Option.some.inj hrequested
      exact hok

/-! ## The client -/

/-- The fields of the config are the resolved options, which fit into C integers. -/
theorem timeout_of_resolved {env : Environment} {lib : Library} {sha256 : Bytes → Bytes} {s : Session}
    {o : Overrides} {url : String} {args : RequestArgs} {resolved : Resolved} {opts : C.RequestOptions}
    {client : HttpClientConfig} (hresolve : s.executeRequest lib o url = .ok resolved)
    (hmarshal : marshal lib sha256 resolved args = .ok opts)
    (hbuild : buildClientFromConfig env (requestConfigFromOptions opts) = .ok client) :
    valInt o.timeout s.defaults.timeoutSeconds < 2 ^ 31 ∧
      client.timeout = selectTimeout (valInt o.timeout s.defaults.timeoutSeconds)
        (valInt o.timeoutMilliseconds s.defaults.timeoutMilliseconds) := by
  obtain ⟨-, hresolved⟩ := sync_eq_ok_iff.mp hresolve
  have hkept : resolved.timeoutSeconds = valInt o.timeout s.defaults.timeoutSeconds ∧
      resolved.timeoutMilliseconds = valInt o.timeoutMilliseconds s.defaults.timeoutMilliseconds := by
    rw [hresolved, finish, pairDefaultHeaders, degradeAbi3Fields]
    split_ifs <;> exact ⟨rfl, rfl⟩
  obtain ⟨hcheck, p, -, rfl⟩ := marshal_eq_ok_iff.mp hmarshal
  have hfits : resolved.fitsC = true := by
    rw [checkMarshal] at hcheck
    split_ifs at hcheck with _ hfits
    exact hfits
  -- `timeout_seconds` is the first of the fields written as a C int
  have hseconds : C.IntType.fits .int resolved.timeoutSeconds = true := by
    rw [Resolved.fitsC, List.all_eq_true] at hfits
    refine hfits (.int, resolved.timeoutSeconds) (List.mem_append_left _ ?_)
    exact List.mem_map_of_mem List.mem_cons_self
  rw [← hkept.1, ← hkept.2]
  refine ⟨?_, timeout_buildClientFromConfig hbuild⟩
  rw [C.IntType.fits, Bool.and_eq_true, decide_eq_true_eq, decide_eq_true_eq] at hseconds
  exact hseconds.2

/-- The client of a request has the timeout that the request asks for, exactly if that is no whole number of
seconds, or no timeout in milliseconds is given or the session's default, or it is the same timeout. -/
theorem timeout_wins_iff {env : Environment} {lib : Library} {sha256 : Bytes → Bytes} {s : Session}
    {timeout : Timeout} {o : Overrides} {url : String} {args : RequestArgs} {client : HttpClientConfig} {n : Number}
    (hserved : Served env lib sha256 s timeout o url args client) (hrequested : timeout.requested = some n) :
    client.timeout = nanosecondsOf n ↔
      n.value.den ≠ 1 ∨ valInt o.timeoutMilliseconds s.defaults.timeoutMilliseconds ≤ 0 ∨
        valInt o.timeoutMilliseconds s.defaults.timeoutMilliseconds = 1000 * n.value.num := by
  obtain ⟨options, resolved, opts, hoptions, hresolve, hmarshal, hbuild⟩ := hserved
  obtain ⟨hfits, htimeout⟩ := timeout_of_resolved hresolve hmarshal hbuild
  rw [htimeout]
  rcases secondsOptions_cases (secondsOptions_of_requested hoptions hrequested) with
    ⟨seconds, hpos, hfloat, rfl⟩ | ⟨x, rfl, hpos, hint, rfl⟩
  · have hvalue : n.value = seconds := by
      cases n with
      | int k =>
        -- an integer that fits is its own double
        obtain ⟨hk, hround⟩ := exists_toFloat_int hfloat (Int.cast_pos.mpr hpos)
        have hlt : k < 2 ^ 53 := by
          by_contra hge
          have hlarge : Binary64.round ((2 ^ 53 : ℕ) : ℚ) ≤ Binary64.round k := by
            refine Binary64.round_mono (Nat.cast_nonneg _) ?_
            exact_mod_cast not_lt.mp hge
          rw [Binary64.round_natCast le_rfl, ← hround] at hlarge
          have hcast : (2 ^ 53 : ℤ) ≤ seconds := by exact_mod_cast hlarge
          have hsmall : seconds < 2 ^ 31 := hfits
          omega
        exact (round_of_lt hk hlt).symm.trans hround.symm
      | float x => exact Except.ok.inj hfloat
    have hnanoseconds : nanosecondsOf n = second * seconds := by
      rw [nanosecondsOf, hvalue, if_pos (Rat.den_intCast seconds), Rat.num_intCast]
    have hden : ¬ n.value.den ≠ 1 := by
      rw [hvalue]
      exact not_not.mpr (Rat.den_intCast seconds)
    have hselected : selectTimeout (valInt (updateTimeout o { timeout := some seconds }).timeout
        s.defaults.timeoutSeconds) (valInt (updateTimeout o { timeout := some seconds }).timeoutMilliseconds
        s.defaults.timeoutMilliseconds) =
        selectTimeout seconds (valInt o.timeoutMilliseconds s.defaults.timeoutMilliseconds) := rfl
    rw [hselected, hnanoseconds, or_iff_right hden, hvalue, Rat.num_intCast, selectTimeout, millisecond, second]
    split_ifs <;> omega
  · have hms : 0 < ⌈Binary64.round (x.val * 1000)⌉ := Int.ceil_pos.mpr (round_milliseconds_pos hpos)
    have hselected : ∀ timeoutSeconds, selectTimeout timeoutSeconds ⌈Binary64.round (x.val * 1000)⌉ =
        nanosecondsOf (.float x) := by
      intro timeoutSeconds
      rw [selectTimeout, if_pos hms, nanosecondsOf]
      exact (if_neg hint).symm
    exact iff_of_true (hselected _) (.inl hint)

/-! ## A default in milliseconds -/

def chromeLibrary : Library := ⟨fun name => if name = "chrome_146" then some .empty else none, 3⟩

/-- A session with a default timeout in milliseconds. -/
def millisecondsSession (milliseconds : Option PyInt) : Session where
  defaults := { clientIdentifier := some "chrome_146", timeoutMilliseconds := milliseconds }

/-- A timeout of five seconds. -/
theorem timeoutOptions_five : timeoutOptions (.number (.int 5)) = .ok { timeout := some 5 } := by
  have hfive : toDouble 5 = .ok 5 := toDouble_of_lt (by norm_num) (by norm_num)
  rw [timeoutOptions, secondsOptions, Number.toFloat, hfive]
  rfl

/-- A request with a timeout of five seconds is served, whatever the session has. -/
theorem exists_served (milliseconds : Option PyInt)
    (hmilliseconds : milliseconds = none ∨ milliseconds = some (.int 500)) :
    ∃ client, Served exampleMoment.env chromeLibrary id (millisecondsSession milliseconds) (.number (.int 5)) {}
      "https://example.com" exampleArgs client := by
  rcases hmilliseconds with rfl | rfl
  · exact ⟨_, ⟨_, _, _, timeoutOptions_five, rfl, rfl, rfl⟩⟩
  · exact ⟨_, ⟨_, _, _, timeoutOptions_five, rfl, rfl, rfl⟩⟩

/-- A session that has no timeout in milliseconds gives the request its five seconds. -/
theorem timeout_wins_default :
    ∃ client, Served exampleMoment.env chromeLibrary id (millisecondsSession none) (.number (.int 5)) {}
      "https://example.com" exampleArgs client ∧ client.timeout = nanosecondsOf (.int 5) := by
  obtain ⟨client, hserved⟩ := exists_served none (.inl rfl)
  exact ⟨client, hserved, (timeout_wins_iff hserved rfl).mpr (.inr (.inl le_rfl))⟩

/-- Half a second as a default makes a request end before the five seconds it asks for. -/
theorem default_milliseconds_win :
    ¬ ∀ (env : Environment) (lib : Library) (sha256 : Bytes → Bytes) (s : Session) (timeout : Timeout)
      (o : Overrides) (url : String) (args : RequestArgs) (client : HttpClientConfig) (n : Number),
      Served env lib sha256 s timeout o url args client → timeout.requested = some n →
      client.timeout = nanosecondsOf n := by
  intro hwins
  obtain ⟨client, hserved⟩ := exists_served (some (.int 500)) (.inr rfl)
  have hrequested := hwins _ _ _ _ _ _ _ _ _ _ hserved rfl
  obtain ⟨options, resolved, opts, hoptions, hresolve, hmarshal, hbuild⟩ := hserved
  obtain rfl := Except.ok.inj (hoptions.symm.trans timeoutOptions_five)
  have hselected : client.timeout = 500000000 := (timeout_of_resolved hresolve hmarshal hbuild).2
  have hfive : nanosecondsOf (.int 5) = 5000000000 := rfl
  rw [hselected, hfive] at hrequested
  contradiction

end TlsClient.Compat
