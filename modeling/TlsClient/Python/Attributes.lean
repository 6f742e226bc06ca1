import TlsClient.Python.Dict
import TlsClient.Python.Options

/-!
# The attributes of a session

Embeds how `Session` and `AsyncSession` of `src/tls_client/_core.py` and the `Session` of
`src/tls_client/requests_compat.py` keep their settings: the dict `defaults`, the properties that write to it,
what an assignment to an attribute does on each of the three, and the snapshot of `defaults` that a request
reads.

An assignment goes by the name alone. A name without a property is stored on the object and read by nobody.
Values are immutable here, so the copies that the code makes of them are the values.
-/

namespace TlsClient.Python

/-! ## Values -/

/-- The values that the settings take. An `object` is any other, with its truth value. -/
inductive Value where
  | none
  | bool (b : Bool)
  | int (n : ℤ)
  | str (s : String)
  | bytes (b : Ffi.Bytes)
  | list (items : List Value)
  | tuple (items : List Value)
  | dict (items : List (String × Value))
  | object (id : ℕ) (truth : Bool)

/-- `bool(v)`. -/
def Value.truthy : Value → Bool
  | .none => false
  | .bool b => b
  | .int n => n ≠ 0
  | .str s => s ≠ ""
  | .bytes b => b ≠ []
  | .list items => !items.isEmpty
  | .tuple items => !items.isEmpty
  | .dict items => !items.isEmpty
  | .object _ truth => truth

def Value.asStr : Value → Option String
  | .str s => some s
  | _ => Option.none

def Value.asDict : Value → Option (PyDict String Value)
  | .dict items => some (PyDict.empty.setAll items)
  | _ => Option.none

/-- `1 if v else 0`. -/
def asFlag (v : Value) : Value :=
  .int (if v.truthy then 1 else 0)

/-- `0 if v else 1`. -/
def asNegatedFlag (v : Value) : Value :=
  .int (if v.truthy then 0 else 1)

/-- `v or ""`. -/
def orText (v : Value) : Value :=
  if v.truthy then v else .str ""

/-- `v if v is not None else w`. -/
def firstGiven (v w : Value) : Value :=
  match v with
  | .none => w
  | v => v

/-- `DEFAULT_HEADERS.get(v)`. -/
def Library.tableHeaders (lib : Library) (v : Value) : Value :=
  match v.asStr.bind lib.defaultHeadersTable with
  | some headers => .dict (headers.items.map fun item => (item.1, .str item.2))
  | none => .none

/-- `v in SUPPORTED_CLIENT_IDENTIFIERS`. -/
def Library.supports (lib : Library) (v : Value) : Bool :=
  (v.asStr.bind lib.defaultHeadersTable).isSome

/-- What is raised for an identifier that is not supported; of the values that the text shows, only strings and
`None` are kept. -/
def unsupportedIdentifier : Value → PyError
  | .none => .valueError "unsupported client_identifier %r" [none]
  | .str id => .valueError "unsupported client_identifier %r" [id]
  | .list _ => .typeError
  | .dict _ => .typeError
  | _ => .valueError "unsupported client_identifier %r"

/-! ## The state of a session -/

/-- The two request paths, each with its list of defaults. -/
inductive RequestPath where
  | sync
  | async
deriving DecidableEq

/-- `SYNC_REQUEST_DEFAULT_KEYS`. -/
def syncRequestDefaultKeys : List String :=
  ["proxy", "pseudo_header_order", "h3_pseudo_header_order", "default_headers", "connect_headers",
    "certificate_pinning_hosts", "client_certificates", "custom_tls_client", "client_identifier",
    "server_name_overwrite", "local_address", "insecure_skip_verify", "force_http1",
    "with_random_tls_extension_order", "with_protocol_racing", "max_idle_connections",
    "max_idle_connections_per_host", "max_connections_per_host", "max_response_header_bytes",
    "write_buffer_size", "read_buffer_size", "idle_conn_timeout_seconds", "disable_keep_alives",
    "disable_compression", "disable_http3", "disable_ipv4", "disable_ipv6", "follow_redirects",
    "without_cookie_jar", "allow_empty_cookies", "with_default_bad_pin_handler", "timeout_seconds",
    "timeout_milliseconds", "tcp_ttl", "tcp_window_size", "tcp_window_scale", "tcp_mss", "catch_panics",
    "with_debug", "request_host_override", "request_cookies", "disable_session_tickets", "tls_keylog_path",
    "root_ca_pem", "h2_max_data_frame_size", "preface_ping_idle_ms", "hpack_indexing_policy",
    "cookie_crumb", "extension_permute_mode", "extension_permute_prefix", "h2_disable_priority_frames",
    "header_order_by_dest", "header_order_dest", "tcp_dont_fragment", "tcp_tos", "tcp_no_delay",
    "tcp_window_clamp", "tcp_ip_id_mode"]

/-- `ASYNC_REQUEST_DEFAULT_KEYS`. -/
def asyncRequestDefaultKeys : List String :=
  ["proxy", "client_identifier", "server_name_overwrite", "local_address", "insecure_skip_verify",
    "force_http1", "with_random_tls_extension_order", "with_protocol_racing", "max_idle_connections",
    "max_idle_connections_per_host", "max_connections_per_host", "max_response_header_bytes",
    "write_buffer_size", "read_buffer_size", "idle_conn_timeout_seconds", "disable_keep_alives",
    "disable_compression", "disable_http3", "disable_ipv4", "disable_ipv6", "tcp_ttl", "tcp_window_size",
    "tcp_window_scale", "tcp_mss", "follow_redirects", "without_cookie_jar", "allow_empty_cookies",
    "with_default_bad_pin_handler", "timeout_seconds", "timeout_milliseconds", "pseudo_header_order",
    "h3_pseudo_header_order", "default_headers", "connect_headers", "certificate_pinning_hosts",
    "client_certificates", "custom_tls_client", "request_host_override", "request_cookies", "catch_panics",
    "with_debug", "disable_session_tickets", "tls_keylog_path", "root_ca_pem", "h2_max_data_frame_size",
    "preface_ping_idle_ms", "hpack_indexing_policy", "cookie_crumb", "extension_permute_mode",
    "extension_permute_prefix", "h2_disable_priority_frames", "header_order_by_dest", "header_order_dest",
    "tcp_dont_fragment", "tcp_tos", "tcp_no_delay", "tcp_window_clamp", "tcp_ip_id_mode"]

def RequestPath.keys : RequestPath → List String
  | .sync => syncRequestDefaultKeys
  | .async => asyncRequestDefaultKeys

theorem RequestPath.nodup_keys (path : RequestPath) : path.keys.Nodup := by
  cases path <;> decide +kernel

/-- Both paths read the same keys. -/
theorem RequestPath.mem_keys (path : RequestPath) (key : String) :
    key ∈ path.keys ↔ key ∈ syncRequestDefaultKeys := by
  cases path with
  | sync => exact Iff.rfl
  | async =>
    have hsub : asyncRequestDefaultKeys ⊆ syncRequestDefaultKeys := by decide +kernel
    have hsup : syncRequestDefaultKeys ⊆ asyncRequestDefaultKeys := by decide
    exact ⟨fun h => hsub h, fun h => hsup h⟩

/-- A `Session`. The other attributes are those that something outside of the class has set. -/
structure NativeSession where
  defaults : PyDict String Value
  defaultsVersion : ℕ := 0
  selectedSnapshotCache : PyDict RequestPath (ℕ × PyDict String Value) := .empty
  headersCustomized : Bool := false
  attributes : PyDict String Value := .empty

namespace NativeSession

/-! ## The snapshot -/

/-- The defaults that a request of the path reads. -/
def selected (defaults : PyDict String Value) (path : RequestPath) : PyDict String Value :=
  .tabulate path.keys path.nodup_keys defaults.get

/-- The cached snapshot of the path, if its version is the current one. -/
def cached (s : NativeSession) (path : RequestPath) : Option (PyDict String Value) :=
  ((s.selectedSnapshotCache.get path).filter fun entry => entry.1 = s.defaultsVersion).map Prod.snd

/-- `_snapshot_selected_defaults`. -/
def snapshotSelectedDefaults (s : NativeSession) (path : RequestPath) : PyDict String Value × NativeSession :=
  match s.cached path with
  | some snapshot => (snapshot, s)
  | none =>
    let snapshot := selected s.defaults path
    (snapshot, { s with
      selectedSnapshotCache := s.selectedSnapshotCache.set path (s.defaultsVersion, snapshot) })

/-! ## The properties -/

/-- `_set_default`. -/
def setDefault (s : NativeSession) (name : String) (value : Value) : NativeSession :=
  { s with
    defaults := s.defaults.set name value
    defaultsVersion := s.defaultsVersion + 1
    selectedSnapshotCache := .empty }

/-- `value != previous and not self._headers_customized`. -/
def Switches (s : NativeSession) (value : Value) : Prop :=
  value.asStr ≠ (s.defaults.get "client_identifier").bind Value.asStr ∧ s.headersCustomized = false

instance instDecidableSwitches (s : NativeSession) (value : Value) : Decidable (s.Switches value) :=
  inferInstanceAs (Decidable (_ ∧ _))

/-- The setter of `client_identifier`. -/
def setClientIdentifier (lib : Library) (s : NativeSession) (value : Value) : Except PyError NativeSession :=
  if lib.supports value then
    let s' := s.setDefault "client_identifier" value
    -- the headers follow the identifier until the caller sets them
    if s.Switches value then
      .ok { s' with defaults := s'.defaults.set "default_headers" (lib.tableHeaders value) }
    else .ok s'
  else .error (unsupportedIdentifier value)

end NativeSession

/-- What the setter of a property does with the value: the key of `defaults` it goes to, and how. -/
inductive Setter where
  | identifier
  | headers
  | raw (key : String)
  | flag (key : String)
  | negatedFlag (key : String)

/-- The properties of `Session`. -/
def properties : List (String × Setter) :=
  [("client_identifier", .identifier), ("force_http1", .flag "force_http1"),
    ("disable_http3", .flag "disable_http3"), ("with_protocol_racing", .flag "with_protocol_racing"),
    ("random_tls_extension_order", .flag "with_random_tls_extension_order"),
    ("timeout", .raw "timeout_seconds"), ("timeout_milliseconds", .raw "timeout_milliseconds"),
    ("follow_redirects", .flag "follow_redirects"), ("verify", .negatedFlag "insecure_skip_verify"),
    ("server_name_overwrite", .raw "server_name_overwrite"), ("proxy", .raw "proxy"),
    ("proxies", .raw "proxy"), ("local_address", .raw "local_address"),
    ("request_host_override", .raw "request_host_override"),
    ("pseudo_header_order", .raw "pseudo_header_order"),
    ("h3_pseudo_header_order", .raw "h3_pseudo_header_order"), ("default_headers", .headers),
    ("headers", .headers), ("connect_headers", .raw "connect_headers"),
    ("certificate_pinning_hosts", .raw "certificate_pinning_hosts"),
    ("with_default_bad_pin_handler", .flag "with_default_bad_pin_handler"),
    ("request_cookies", .raw "request_cookies"), ("cookies", .raw "request_cookies"),
    ("custom_tls_client", .raw "custom_tls_client"), ("client_certificates", .raw "client_certificates"),
    ("max_idle_connections", .raw "max_idle_connections"),
    ("max_idle_connections_per_host", .raw "max_idle_connections_per_host"),
    ("max_connections_per_host", .raw "max_connections_per_host"),
    ("disable_keep_alives", .flag "disable_keep_alives"),
    ("disable_compression", .flag "disable_compression"),
    ("idle_conn_timeout_seconds", .raw "idle_conn_timeout_seconds"),
    ("max_response_header_bytes", .raw "max_response_header_bytes"),
    ("write_buffer_size", .raw "write_buffer_size"), ("read_buffer_size", .raw "read_buffer_size"),
    ("disable_ipv4", .flag "disable_ipv4"), ("disable_ipv6", .flag "disable_ipv6"),
    ("tcp_ttl", .raw "tcp_ttl"), ("tcp_window_size", .raw "tcp_window_size"),
    ("tcp_window_scale", .raw "tcp_window_scale"), ("tcp_mss", .raw "tcp_mss"),
    ("allow_empty_cookies", .flag "allow_empty_cookies"),
    ("without_cookie_jar", .flag "without_cookie_jar"), ("catch_panics", .flag "catch_panics"),
    ("with_debug", .flag "with_debug"), ("auth", .raw "auth"), ("params", .raw "params"),
    ("cert", .raw "cert"), ("stream", .flag "stream")]

namespace NativeSession

def runSetter (lib : Library) (s : NativeSession) (setter : Setter) (value : Value) :
    Except PyError NativeSession :=
  match setter with
  | .identifier => s.setClientIdentifier lib value
  | .headers => .ok ({ s with headersCustomized := true }.setDefault "default_headers" value)
  | .raw key => .ok (s.setDefault key value)
  | .flag key => .ok (s.setDefault key (asFlag value))
  | .negatedFlag key => .ok (s.setDefault key (asNegatedFlag value))

/-- `setattr(session, name, value)`. The attribute `defaults` is declared a dict; what is no dict is not put in
its place. -/
def setAttr (lib : Library) (s : NativeSession) (name : String) (value : Value) :
    Except PyError NativeSession :=
  match properties.lookup name with
  | some setter => s.runSetter lib setter value
  | none =>
    if name = "defaults" then .ok { s with defaults := value.asDict.getD s.defaults }
    else .ok { s with attributes := s.attributes.set name value }

/-! ## The constructor -/

/-- The items of `self.defaults` that `__init__` makes of its keyword arguments. -/
def initialItems (lib : Library) (arguments : PyDict String Value) : List (String × Value) :=
  let given (name : String) (default : Value) : Value := (arguments.get name).getD default
  [("client_identifier", given "client_identifier" (.str "chrome_120")),
    ("timeout_seconds", given "timeout" (.int 30)),
    ("timeout_milliseconds", given "timeout_milliseconds" (.int 0)),
    ("follow_redirects", asFlag (given "follow_redirects" (.bool false))),
    ("insecure_skip_verify", asNegatedFlag (given "verify" (.bool true))),
    ("force_http1", asFlag (given "force_http1" (.bool false))),
    ("with_random_tls_extension_order", asFlag (given "random_tls_extension_order" (.bool true))),
    ("with_protocol_racing", asFlag (given "with_protocol_racing" (.bool false))),
    ("server_name_overwrite", given "server_name_overwrite" .none),
    ("request_host_override", given "request_host_override" .none),
    ("local_address", given "local_address" .none),
    ("proxy", firstGiven (given "proxies" .none) (given "proxy" .none)),
    ("pseudo_header_order", given "pseudo_header_order" .none),
    ("h3_pseudo_header_order", given "h3_pseudo_header_order" .none),
    ("auth", given "auth" .none),
    ("params", given "params" .none),
    ("cert", given "cert" .none),
    ("stream", asFlag (given "stream" (.bool false))),
    ("default_headers", firstGiven (given "default_headers" .none) <| firstGiven (given "headers" .none) <|
      lib.tableHeaders (given "client_identifier" (.str "chrome_120"))),
    ("connect_headers", given "connect_headers" .none),
    ("certificate_pinning_hosts", given "certificate_pinning_hosts" .none),
    ("with_default_bad_pin_handler", asFlag (given "with_default_bad_pin_handler" (.bool false))),
    ("request_cookies", firstGiven (given "request_cookies" .none) (given "cookies" .none)),
    ("custom_tls_client", given "custom_tls_client" .none),
    ("client_certificates", given "client_certificates" .none),
    ("max_idle_connections", given "max_idle_connections" (.int 0)),
    ("max_idle_connections_per_host", given "max_idle_connections_per_host" (.int 0)),
    ("max_connections_per_host", given "max_connections_per_host" (.int 0)),
    ("disable_keep_alives", asFlag (given "disable_keep_alives" (.bool false))),
    ("disable_compression", asFlag (given "disable_compression" (.bool false))),
    ("idle_conn_timeout_seconds", given "idle_conn_timeout_seconds" (.int 0)),
    ("max_response_header_bytes", given "max_response_header_bytes" (.int 0)),
    ("write_buffer_size", given "write_buffer_size" (.int 0)),
    ("read_buffer_size", given "read_buffer_size" (.int 0)),
    ("allow_empty_cookies", asFlag (given "allow_empty_cookies" (.bool false))),
    ("without_cookie_jar", asFlag (given "without_cookie_jar" (.bool false))),
    ("disable_http3", asFlag (given "disable_http3" (.bool false))),
    ("disable_ipv4", asFlag (given "disable_ipv4" (.bool false))),
    ("disable_ipv6", asFlag (given "disable_ipv6" (.bool false))),
    ("tcp_ttl", given "tcp_ttl" (.int 0)),
    ("tcp_window_size", given "tcp_window_size" (.int 0)),
    ("tcp_window_scale", given "tcp_window_scale" (.int 0)),
    ("tcp_mss", given "tcp_mss" (.int 0)),
    ("catch_panics", asFlag (given "catch_panics" (.bool true))),
    ("with_debug", asFlag (given "with_debug" (.bool false))),
    ("disable_session_tickets", asFlag (given "disable_session_tickets" (.bool false))),
    ("tls_keylog_path", given "tls_keylog_path" .none),
    ("root_ca_pem", given "root_ca_pem" .none),
    ("h2_max_data_frame_size", given "h2_max_data_frame_size" (.int 0)),
    ("preface_ping_idle_ms", given "preface_ping_idle_ms" (.int 0)),
    ("hpack_indexing_policy", given "hpack_indexing_policy" (.str "")),
    ("cookie_crumb", asFlag (given "cookie_crumb" (.bool false))),
    ("extension_permute_mode", given "extension_permute_mode" (.int 0)),
    ("extension_permute_prefix", given "extension_permute_prefix" (.int 0)),
    ("h2_disable_priority_frames", asFlag (given "h2_disable_priority_frames" (.bool false))),
    ("header_order_by_dest", asFlag (given "header_order_by_dest" (.bool false))),
    ("header_order_dest", orText (given "header_order_dest" .none)),
    ("tcp_dont_fragment", given "tcp_dont_fragment" (.int (-1))),
    ("tcp_tos", given "tcp_tos" (.int (-1))),
    ("tcp_no_delay", given "tcp_no_delay" (.int (-1))),
    ("tcp_window_clamp", given "tcp_window_clamp" (.int 0)),
    ("tcp_ip_id_mode", orText (given "tcp_ip_id_mode" (.str "")))]

/-- `Session.__init__`, before the preset. -/
def init (lib : Library) (arguments : PyDict String Value) : Except PyError NativeSession :=
  let identifier := (arguments.get "client_identifier").getD (.str "chrome_120")
  let isGiven (name : String) : Bool := !(((arguments.get name).getD .none) matches .none)
  if lib.supports identifier then
    .ok { defaults := PyDict.empty.setAll (initialItems lib arguments)
          headersCustomized := isGiven "default_headers" || isGiven "headers" }
  else .error (unsupportedIdentifier identifier)

end NativeSession

/-! ## The three kinds of session -/

inductive SessionKind where
  | session
  | asyncSession
  | compatSession
deriving DecidableEq

/-- `_REQUESTS_ATTRIBUTES`. -/
def requestsAttributes : List String :=
  ["adapters", "auth", "cert", "cookies", "headers", "hooks", "max_redirects", "params", "proxies", "stream",
    "trust_env", "verify"]

/-- `name.startswith("_")`. -/
def isPrivate (name : String) : Bool :=
  name.toList.head? = some '_'

/-- What a caller holds: a `Session`, or the `AsyncSession` or the compatibility session around one, with
attributes of its own. -/
structure SessionObject where
  kind : SessionKind
  native : NativeSession
  attributes : PyDict String Value := .empty

namespace SessionObject

def setOwn (o : SessionObject) (name : String) (value : Value) : SessionObject :=
  { o with attributes := o.attributes.set name value }

def withNative (o : SessionObject) (native : NativeSession) : SessionObject :=
  { o with native := native }

/-- `setattr(session, name, value)`, with the `__setattr__` of the kind. -/
def setAttr (lib : Library) (o : SessionObject) (name : String) (value : Value) : Except PyError SessionObject :=
  match o.kind with
  | .session => (o.native.setAttr lib name value).map o.withNative
  | .asyncSession =>
    if isPrivate name then .ok (o.setOwn name value)
    else (o.native.setAttr lib name value).map o.withNative
  | .compatSession =>
    if name ∉ requestsAttributes ∧ (properties.lookup name).isSome then
      (o.native.setAttr lib name value).map fun native =>
        if name = "timeout" then (o.withNative native).setOwn "_default_timeout" value
        else o.withNative native
    else .ok (o.setOwn name value)

/-- The dict that `session.defaults` is, where the compatibility session has one of its own. -/
def ownDefaults (o : SessionObject) : Option Value :=
  match o.kind with
  | .compatSession => o.attributes.get "defaults"
  | _ => none

/-- The keys of `session.defaults`, if it is a dict. -/
def exposedKeys (o : SessionObject) : List String :=
  match o.ownDefaults with
  | some own => (own.asDict.map PyDict.keys).getD []
  | none => o.native.defaults.keys

/-- `session.defaults[key] = value`. -/
def setItem (o : SessionObject) (key : String) (value : Value) : SessionObject :=
  match o.ownDefaults with
  | some (.dict items) => o.setOwn "defaults" (.dict (PyDict.setItems key value items))
  | some _ => o
  | none => o.withNative { o.native with defaults := o.native.defaults.set key value }

/-- The path on which the kind sends its requests. -/
def path (o : SessionObject) : RequestPath :=
  match o.kind with
  | .asyncSession => .async
  | _ => .sync

end SessionObject

end TlsClient.Python
