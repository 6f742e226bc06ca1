import TlsClient.Python.Attributes

/-!
# The next request of a session

The options of a request without overrides, on each kind of session: what `_val`, `_normalize_int_fields`,
`_degrade_abi3_fields` and the pairing of the headers with the identifier make of the snapshot of the defaults
(`src/tls_client/_core.py`), and the header templates that the request looks for.

The dict of defaults is untyped, so these are the two resolvers once more, without overrides and by the name of
the option.
-/

namespace TlsClient.Python

/-! ## The options of the next request -/

/-- The options of which `_val` makes 0 or 1. -/
def flagKeys : List String :=
  ["follow_redirects", "force_http1", "with_random_tls_extension_order", "with_protocol_racing",
    "disable_keep_alives", "disable_compression", "disable_http3", "disable_ipv4", "disable_ipv6",
    "without_cookie_jar", "allow_empty_cookies", "with_default_bad_pin_handler", "catch_panics",
    "with_debug", "disable_session_tickets", "cookie_crumb", "h2_disable_priority_frames",
    "header_order_by_dest", "insecure_skip_verify"]

/-- `_INT_REQUEST_KEYS`. -/
def intRequestKeys : List String :=
  ["timeout_seconds", "timeout_milliseconds", "max_idle_connections", "max_idle_connections_per_host",
    "max_connections_per_host", "max_response_header_bytes", "write_buffer_size", "read_buffer_size",
    "idle_conn_timeout_seconds", "tcp_ttl", "tcp_window_size", "tcp_window_scale", "tcp_mss",
    "disable_session_tickets", "h2_max_data_frame_size", "preface_ping_idle_ms", "cookie_crumb",
    "extension_permute_mode", "extension_permute_prefix", "h2_disable_priority_frames",
    "header_order_by_dest", "tcp_dont_fragment", "tcp_tos", "tcp_no_delay", "tcp_window_clamp"]

/-- `_TRISTATE_REQUEST_KEYS`. -/
def tristateRequestKeys : List String :=
  ["tcp_dont_fragment", "tcp_tos", "tcp_no_delay"]

/-- `_normalize_int_fields`, on one option. -/
def normalizeInt (key : String) (v : Value) : Value :=
  if key ∈ intRequestKeys then
    match v with
    | .none => .int (if key ∈ tristateRequestKeys then -1 else 0)
    | .bool b => .int (if b then 1 else 0)
    | v => v
  else v

/-- An option after `_val` and `_normalize_int_fields`. -/
def normalizeOption (key : String) (v : Value) : Value :=
  normalizeInt key (if key ∈ flagKeys then asFlag v else v)

/-- `_ABI3_REQUEST_FIELDS`. -/
def abi3RequestFields : List (String × Value) :=
  [("extension_permute_mode", .int 0), ("extension_permute_prefix", .int 0),
    ("h2_disable_priority_frames", .int 0), ("header_order_by_dest", .int 0), ("header_order_dest", .str ""),
    ("tcp_dont_fragment", .int (-1)), ("tcp_tos", .int (-1)), ("tcp_no_delay", .int (-1)),
    ("tcp_window_clamp", .int 0), ("tcp_ip_id_mode", .str "")]

/-- `v not in (None, sentinel)`, where no `int` field is a `bool` any more. -/
def isRequested : Value → Value → Bool
  | _, .none => false
  | .int n, .int m => n ≠ m
  | .str s, .str t => s ≠ t
  | _, _ => true

/-- `_degrade_abi3_fields`. -/
def degradeOptions (lib : Library) (resolved : String → Value) : String → Value :=
  if lib.abiVersion < 3 ∧ (abi3RequestFields.any fun field => isRequested field.2 (resolved field.1)) then
    fun key => (abi3RequestFields.lookup key).getD (resolved key)
  else resolved

/-- The names of the templates in a preset, and the attributes in which `_apply_request_context` looks for them. -/
def templateKeys : List (String × String) :=
  [("header_order", "_fingerprint_header_order"), ("header_order_xhr", "_fingerprint_header_order_xhr")]

/-- The options that the adapter of a compatibility session may pass. -/
def adapterKeys : List String :=
  ["proxy", "timeout_seconds", "timeout_milliseconds", "follow_redirects", "insecure_skip_verify",
    "client_certificates"]

/-- What the adapter of a compatibility session passes with every request, from the session's own settings. -/
structure CompatSettings where
  items : PyDict String Value
  keys_subset : items.keys ⊆ adapterKeys

namespace SessionObject

/-- What a request without overrides passes nevertheless. An `AsyncSession` passes `proxy`, which is `None`. -/
def passed (o : SessionObject) (settings : CompatSettings) (key : String) : Option Value :=
  match o.kind with
  | .session => none
  | .asyncSession => if key = "proxy" then some .none else none
  | .compatSession =>
    match settings.items.get key with
    | some .none => none
    | v => v

/-- The options of a request as the resolvers make them, of the values that the request reads. -/
def resolveOptions (lib : Library) (o : SessionObject) (settings : CompatSettings)
    (snapshot : PyDict String Value) : String → Value :=
  degradeOptions lib fun key =>
    normalizeOption key ((o.passed settings key).getD ((snapshot.get key).getD .none))

/-- The identifier that the headers belong to: the async path asks the defaults, the sync path the snapshot. -/
def previousIdentifier (o : SessionObject) (snapshot : PyDict String Value) : Option String :=
  match o.kind with
  | .asyncSession => (o.native.defaults.get "client_identifier").bind Value.asStr
  | _ => (snapshot.get "client_identifier").bind Value.asStr

/-- An option of the next request without overrides; `proxy` as it is before the URL picks one. -/
def nextOption (lib : Library) (o : SessionObject) (settings : CompatSettings) (key : String) : Value :=
  let snapshot := (o.native.snapshotSelectedDefaults o.path).1
  let resolved := o.resolveOptions lib settings snapshot
  if key = "default_headers" ∧ o.native.headersCustomized = false ∧
      (resolved "client_identifier").asStr ≠ o.previousIdentifier snapshot then
    lib.tableHeaders (resolved "client_identifier")
  else resolved key

/-- An option of the next request, or a template that it finds. -/
def nextRead (lib : Library) (o : SessionObject) (settings : CompatSettings) (key : String) : Value :=
  match templateKeys.lookup key with
  | some attr => (o.native.attributes.get attr).getD .none
  | none => o.nextOption lib settings key

end SessionObject

/-! ## Normal forms -/

/-- A value in the form in which the request uses it: `None` is the neutral value of a field, and a template that
is empty is none. -/
def readAs (key : String) (v : Value) : Value :=
  match templateKeys.lookup key with
  | some _ => if v.truthy then v else .none
  | none =>
    match normalizeOption key v with
    | .none => (abi3RequestFields.lookup key).getD .none
    | v => v

/-- What is found is in the list. -/
theorem mem_of_lookup_eq_some {α : Type} {fields : List (String × α)} {key : String} {a : α}
    (hlookup : fields.lookup key = some a) : (key, a) ∈ fields := by
  obtain ⟨before, after, rfl, -⟩ := List.lookup_eq_some_iff.mp hlookup
  exact List.mem_append_right _ List.mem_cons_self

section Normal

variable {lib : Library} {key : String} {v sentinel : Value}

theorem asFlag_asFlag (v : Value) : asFlag (asFlag v) = asFlag v := by
  unfold asFlag
  cases v.truthy <;> rfl

/-- A normalized number is left as it is. -/
theorem normalizeInt_normalizeInt (key : String) (v : Value) :
    normalizeInt key (normalizeInt key v) = normalizeInt key v := by
  unfold normalizeInt
  by_cases hkey : key ∈ intRequestKeys
  · rw [if_pos hkey, if_pos hkey]
    cases v <;> rfl
  · rw [if_neg hkey, if_neg hkey]

theorem normalizeInt_asFlag (key : String) (v : Value) : normalizeInt key (asFlag v) = asFlag v := by
  unfold normalizeInt asFlag
  split_ifs <;> rfl

/-- So is a normalized option. -/
theorem normalizeOption_normalizeOption (key : String) (v : Value) :
    normalizeOption key (normalizeOption key v) = normalizeOption key v := by
  unfold normalizeOption
  by_cases hkey : key ∈ flagKeys
  · rw [if_pos hkey, if_pos hkey, normalizeInt_asFlag, normalizeInt_asFlag, asFlag_asFlag]
  · rw [if_neg hkey, if_neg hkey, normalizeInt_normalizeInt]

/-- How an option is read. -/
theorem readAs_of_option (hkey : templateKeys.lookup key = none) (v : Value) :
    readAs key v =
      match normalizeOption key v with
      | .none => (abi3RequestFields.lookup key).getD .none
      | v => v := by
  rw [readAs, hkey]

theorem readAs_normalizeOption (hkey : templateKeys.lookup key = none) (v : Value) :
    readAs key (normalizeOption key v) = readAs key v := by
  rw [readAs_of_option hkey, readAs_of_option hkey, normalizeOption_normalizeOption]

/-- A flag that is already made of the value reads the same. -/
theorem readAs_asFlag (hkey : templateKeys.lookup key = none) (hflag : key ∈ flagKeys) (v : Value) :
    readAs key (asFlag v) = readAs key v := by
  rw [readAs_of_option hkey, readAs_of_option hkey]
  unfold normalizeOption
  rw [if_pos hflag, if_pos hflag, asFlag_asFlag]

/-- The sentinels are normalized. -/
theorem normalizeOption_sentinel :
    ∀ field ∈ abi3RequestFields, normalizeOption field.1 field.2 = field.2 ∧ field.2 ≠ .none := by
  intro field hfield
  simp only [abi3RequestFields, List.mem_cons, List.not_mem_nil, or_false] at hfield
  rcases hfield with rfl | rfl | rfl | rfl | rfl | rfl | rfl | rfl | rfl | rfl <;>
    exact ⟨rfl, fun h => by cases h⟩

/-- What is not requested is `None` or the sentinel. -/
theorem eq_of_not_isRequested (hnot : isRequested sentinel v = false) : v = .none ∨ v = sentinel := by
  unfold isRequested at hnot
  split at hnot
  · exact .inl rfl
  · rw [not_not.mp (of_decide_eq_false hnot)]
    exact .inr rfl
  · rw [not_not.mp (of_decide_eq_false hnot)]
    exact .inr rfl
  · contradiction

/-- An option that the library drops reads as its neutral value, whether it is dropped or not. -/
theorem readAs_degradeOptions_of_old (hkey : templateKeys.lookup key = none)
    (hold : (abi3RequestFields.lookup key).filter (fun _ => lib.abiVersion < 3) = some sentinel)
    (f : String → Value) :
    readAs key (degradeOptions lib (fun key => normalizeOption key (f key)) key) = sentinel := by
  obtain ⟨hlookup, hversion⟩ := Option.filter_eq_some_iff.mp hold
  have hversion : lib.abiVersion < 3 := of_decide_eq_true hversion
  have hfield : (key, sentinel) ∈ abi3RequestFields := mem_of_lookup_eq_some hlookup
  obtain ⟨hsentinel, hne⟩ := normalizeOption_sentinel _ hfield
  -- an old library gets the sentinel whether the field is reset or left out
  have hread : ∀ v, v = .none ∨ v = sentinel → normalizeOption key v = v → readAs key v = sentinel := by
    rintro v (rfl | rfl) hnormal
    · rw [readAs_of_option hkey, hnormal, hlookup]
      rfl
    · rw [readAs_of_option hkey, hnormal]
      split
      · contradiction
      · rfl
  unfold degradeOptions
  split_ifs with hdrop
  · dsimp only
    rw [hlookup, Option.getD_some]
    exact hread sentinel (.inr rfl) hsentinel
  · have hnot : isRequested sentinel (normalizeOption key (f key)) = false := by
      by_contra hrequested
      rw [Bool.not_eq_false] at hrequested
      exact hdrop ⟨hversion, List.any_eq_true.mpr ⟨_, hfield, hrequested⟩⟩
    exact hread _ (eq_of_not_isRequested hnot) (normalizeOption_normalizeOption key _)

/-- An option that the library knows is kept. -/
theorem degradeOptions_of_kept
    (hkept : (abi3RequestFields.lookup key).filter (fun _ => lib.abiVersion < 3) = none)
    (resolved : String → Value) : degradeOptions lib resolved key = resolved key := by
  unfold degradeOptions
  split_ifs with hdrop
  · rw [Option.filter_eq_none_iff] at hkept
    dsimp only
    cases hlookup : abi3RequestFields.lookup key with
    | none => rfl
    | some sentinel => exact absurd (decide_eq_true hdrop.1) (hkept sentinel hlookup)
  · rfl

end Normal

/-! ## Reading an option -/

namespace SessionObject

open NativeSession

variable {lib : Library} {o o' : SessionObject}

/-- The adapter passes nothing for a key that is not its own. -/
theorem passed_eq_none (settings : CompatSettings) {key : String} (hkey : key ∉ adapterKeys) :
    o.passed settings key = none := by
  unfold passed
  split
  · rfl
  · refine if_neg ?_
    rintro rfl
    exact hkey (by decide)
  · rw [PyDict.get_eq_none_iff.mpr fun hmem => hkey (settings.keys_subset hmem)]

/-- The identifier is that of the snapshot. -/
theorem resolveOptions_identifier (settings : CompatSettings) (snapshot : PyDict String Value) :
    o.resolveOptions lib settings snapshot "client_identifier" =
      (snapshot.get "client_identifier").getD .none := by
  rw [resolveOptions, degradeOptions_of_kept rfl, passed_eq_none settings (by decide), Option.getD_none,
    normalizeOption, if_neg (by decide)]
  exact if_neg (by decide)

/-- The headers are paired with an identifier only if an old snapshot has another. -/
theorem nextOption_of_not_cached (hcached : o.native.cached o.path = none) (settings : CompatSettings)
    (key : String) :
    o.nextOption lib settings key = o.resolveOptions lib settings (selected o.native.defaults o.path) key := by
  have hsnapshot : (o.native.snapshotSelectedDefaults o.path).1 = selected o.native.defaults o.path := by
    rw [snapshotSelectedDefaults, hcached]
  have hget : (selected o.native.defaults o.path).get "client_identifier" =
      o.native.defaults.get "client_identifier" := by
    rw [selected, PyDict.get_tabulate, if_pos ((RequestPath.mem_keys _ _).mpr (by decide))]
  have hsame : ∀ v : Option Value, (v.getD .none).asStr = v.bind Value.asStr := by
    intro v
    cases v <;> rfl
  have hprevious : o.previousIdentifier (selected o.native.defaults o.path) =
      (o.native.defaults.get "client_identifier").bind Value.asStr := by
    unfold previousIdentifier
    rw [hget]
    split <;> rfl
  unfold nextOption
  dsimp only
  rw [hsnapshot, resolveOptions_identifier, hget, hprevious, hsame]
  exact if_neg fun hpair => hpair.2.2 rfl

/-- Every option but the headers is the resolved one. -/
theorem nextOption_of_ne (settings : CompatSettings) {key : String} (hkey : key ≠ "default_headers") :
    o.nextOption lib settings key =
      o.resolveOptions lib settings (o.native.snapshotSelectedDefaults o.path).1 key := by
  unfold nextOption
  exact if_neg fun hpair => hkey hpair.1

/-- What is passed depends on the kind of session only. -/
theorem passed_congr (hkind : o'.kind = o.kind) (settings : CompatSettings) (key : String) :
    o'.passed settings key = o.passed settings key := by
  unfold passed
  rw [hkind]

theorem path_congr (hkind : o'.kind = o.kind) : o'.path = o.path := by
  unfold path
  rw [hkind]

/-- With the same snapshot an option is read as before. -/
theorem nextOption_congr (hkind : o'.kind = o.kind)
    (hsnapshot : (o'.native.snapshotSelectedDefaults o.path).1 = (o.native.snapshotSelectedDefaults o.path).1)
    (hcustomized : o'.native.headersCustomized = o.native.headersCustomized)
    (hidentifier : o'.native.defaults.get "client_identifier" = o.native.defaults.get "client_identifier")
    (settings : CompatSettings) (key : String) :
    o'.nextOption lib settings key = o.nextOption lib settings key := by
  unfold nextOption resolveOptions previousIdentifier
  simp only [path_congr hkind, hsnapshot, hcustomized, hidentifier, hkind, passed_congr hkind]

end SessionObject

end TlsClient.Python
