import TlsClient.Python.Values
import Mathlib.Data.String.Basic

/-!
# Resolving the options of a request

Embeds the option half of `Session.execute_request`, `AsyncSession.execute_request`,
`AsyncSession._execute_async` and both `stream_to_file` (`src/tls_client/_core.py`). Both resolvers take the session's defaults
and the overrides of one request, and produce the dict that is hashed and marshalled: `Resolved`. They
were written separately, and are embedded separately here.

An option that is missing and one that is `None` read the same in both, so each is an `Option`. The
table of default header blocks and the ABI version of the loaded library are parameters.
-/

namespace TlsClient.Python

open TlsClient.Ffi

/-- The options that go by the same name in the session defaults and in the request overrides. -/
structure CommonOptions where
  clientIdentifier : Option String := none
  proxy : Option ProxyConfig := none
  serverNameOverwrite : Option String := none
  requestHostOverride : Option String := none
  localAddress : Option String := none
  pseudoHeaderOrder : Option (List String) := none
  h3PseudoHeaderOrder : Option (List String) := none
  defaultHeaders : Option (PyDict String String) := none
  connectHeaders : Option (PyDict String String) := none
  certificatePinningHosts : Option (PyDict String (List String)) := none
  requestCookies : Option (PyDict String String) := none
  clientCertificates : Option (List ClientCertificate) := none
  customTlsClient : Option CustomTlsClient := none
  timeoutMilliseconds : Option PyInt := none
  followRedirects : Option Bool := none
  forceHttp1 : Option Bool := none
  withProtocolRacing : Option Bool := none
  maxIdleConnections : Option PyInt := none
  maxIdleConnectionsPerHost : Option PyInt := none
  maxConnectionsPerHost : Option PyInt := none
  maxResponseHeaderBytes : Option PyInt := none
  writeBufferSize : Option PyInt := none
  readBufferSize : Option PyInt := none
  idleConnTimeoutSeconds : Option PyInt := none
  disableKeepAlives : Option Bool := none
  disableCompression : Option Bool := none
  disableHttp3 : Option Bool := none
  disableIpv4 : Option Bool := none
  disableIpv6 : Option Bool := none
  withoutCookieJar : Option Bool := none
  allowEmptyCookies : Option Bool := none
  withDefaultBadPinHandler : Option Bool := none
  catchPanics : Option Bool := none
  withDebug : Option Bool := none
  disableSessionTickets : Option Bool := none
  tlsKeylogPath : Option String := none
  rootCaPem : Option Bytes := none
  h2MaxDataFrameSize : Option PyInt := none
  prefacePingIdleMs : Option PyInt := none
  hpackIndexingPolicy : Option String := none
  cookieCrumb : Option Bool := none
  tcpTtl : Option PyInt := none
  tcpWindowSize : Option PyInt := none
  tcpWindowScale : Option PyInt := none
  tcpMss : Option PyInt := none
  extensionPermuteMode : Option PyInt := none
  extensionPermutePrefix : Option PyInt := none
  h2DisablePriorityFrames : Option Bool := none
  headerOrderByDest : Option Bool := none
  headerOrderDest : Option String := none
  tcpDontFragment : Option PyInt := none
  tcpTos : Option PyInt := none
  tcpNoDelay : Option PyInt := none
  tcpWindowClamp : Option PyInt := none
  tcpIpIdMode : Option String := none

/-- `RequestOptions`: the keys of `session.defaults` that a request reads. -/
structure RequestOptions extends CommonOptions where
  timeoutSeconds : Option PyInt := none
  insecureSkipVerify : Option Bool := none
  withRandomTlsExtensionOrder : Option Bool := none

/-- The keyword arguments of `execute_request`. -/
structure Overrides extends CommonOptions where
  timeout : Option PyInt := none
  verify : Option Bool := none
  randomTlsExtensionOrder : Option Bool := none

/-- The resolved options of one request, after `_normalize_int_fields`: flags are 0 or 1 and the C int
fields are integers. -/
structure Resolved where
  clientIdentifier : Option String
  proxy : Option String
  serverNameOverwrite : Option String
  requestHostOverride : Option String
  localAddress : Option String
  pseudoHeaderOrder : Option (List String)
  h3PseudoHeaderOrder : Option (List String)
  defaultHeaders : Option (PyDict String String)
  connectHeaders : Option (PyDict String String)
  certificatePinningHosts : Option (PyDict String (List String))
  requestCookies : Option (PyDict String String)
  clientCertificates : Option (List ClientCertificate)
  customTlsClient : Option CustomTlsClient
  timeoutSeconds : ℤ
  timeoutMilliseconds : ℤ
  followRedirects : Bool
  insecureSkipVerify : Bool
  forceHttp1 : Bool
  withRandomTlsExtensionOrder : Bool
  withProtocolRacing : Bool
  maxIdleConnections : ℤ
  maxIdleConnectionsPerHost : ℤ
  maxConnectionsPerHost : ℤ
  maxResponseHeaderBytes : ℤ
  writeBufferSize : ℤ
  readBufferSize : ℤ
  idleConnTimeoutSeconds : ℤ
  disableKeepAlives : Bool
  disableCompression : Bool
  disableHttp3 : Bool
  disableIpv4 : Bool
  disableIpv6 : Bool
  withoutCookieJar : Bool
  allowEmptyCookies : Bool
  withDefaultBadPinHandler : Bool
  catchPanics : Bool
  withDebug : Bool
  disableSessionTickets : Bool
  tlsKeylogPath : Option String
  rootCaPem : Option Bytes
  h2MaxDataFrameSize : ℤ
  prefacePingIdleMs : ℤ
  hpackIndexingPolicy : Option String
  cookieCrumb : Bool
  tcpTtl : ℤ
  tcpWindowSize : ℤ
  tcpWindowScale : ℤ
  tcpMss : ℤ
  extensionPermuteMode : ℤ
  extensionPermutePrefix : ℤ
  h2DisablePriorityFrames : Bool
  headerOrderByDest : Bool
  headerOrderDest : Option String
  tcpDontFragment : ℤ
  tcpTos : ℤ
  tcpNoDelay : ℤ
  tcpWindowClamp : ℤ
  tcpIpIdMode : Option String
deriving DecidableEq

/-- A native session: its defaults, whether it is closed, and whether the user set its headers. -/
structure Session where
  defaults : RequestOptions
  closed : Bool := false
  headersCustomized : Bool := false

/-- What the resolvers read besides the session: `DEFAULT_HEADERS`, whose keys are the supported
identifiers, and the ABI version of the loaded library. -/
structure Library where
  defaultHeadersTable : String → Option (PyDict String String)
  abiVersion : ℕ

/-- `url.split(":", 1)[0].lower()`. -/
def urlScheme (url : String) : String :=
  String.ofList ((url.toList.takeWhile (· ≠ ':')).map Char.toLower)

/-- `a or b` on optional strings. -/
def orElse (a b : Option String) : Option String :=
  match a with
  | some s => if s = "" then b else some s
  | none => b

/-- `_resolve_proxy_url`. -/
def resolveProxyUrl (proxy : Option ProxyConfig) (url : String) : Option String :=
  match proxy with
  | none => none
  | some (.url p) => some p
  | some (.mapping proxies) =>
    let scheme := urlScheme url
    orElse (proxies.get scheme) <| orElse (proxies.get (scheme ++ "://")) <|
      orElse (proxies.get "all") <| orElse (proxies.get "all://") <|
        (proxies.items.map Prod.snd).head?

/-- `override if override is not None else defaults.get(name)`. -/
def val {α : Type} (override default : Option α) : Option α :=
  match override with
  | some v => some v
  | none => default

/-- `_val(name, override, True)`. -/
def valFlag (override default : Option Bool) : Bool :=
  (val override default).getD false

/-- `_val` followed by `_normalize_int_fields`: `None` is 0. -/
def valInt (override default : Option PyInt) : ℤ :=
  ((val override default).map PyInt.toInt).getD 0

/-- `_val` followed by `_normalize_int_fields` for the tri-state fields: `None` is -1. -/
def valTristate (override default : Option PyInt) : ℤ :=
  ((val override default).map PyInt.toInt).getD (-1)

/-- What `_require_abi2` raises. -/
def abi2Error : PyError :=
  .runtimeError
    ("disable_session_tickets / tls_keylog_path / root_ca_pem and the " ++
      "custom_tls_client 'trust_anchors_payload' field require a native " ++
      "tls-client library with ABI >= 2 — rebuild the shared libraries " ++
      "from current source (see UPSTREAM_SYNC.md).")

/-- `_require_abi2` under its guard on the resolved options. -/
def requireAbi2 (lib : Library) (r : Resolved) : Except PyError Unit :=
  if (r.disableSessionTickets ∨ (r.tlsKeylogPath.getD "") ≠ "" ∨ (r.rootCaPem.getD []) ≠ []) ∧
      lib.abiVersion < 2 then
    .error abi2Error
  else .ok ()

/-- Some ABI 3 field has a value other than `None` and its sentinel. -/
def requestsAbi3 (r : Resolved) : Bool :=
  r.extensionPermuteMode != 0 || r.extensionPermutePrefix != 0 || r.h2DisablePriorityFrames ||
    r.headerOrderByDest || r.headerOrderDest.getD "" != "" || r.tcpDontFragment != -1 ||
    r.tcpTos != -1 || r.tcpNoDelay != -1 || r.tcpWindowClamp != 0 || r.tcpIpIdMode.getD "" != ""

/-- `_degrade_abi3_fields`. -/
def degradeAbi3Fields (lib : Library) (r : Resolved) : Resolved :=
  if lib.abiVersion ≥ 3 ∨ !requestsAbi3 r then r
  else
    { r with
      extensionPermuteMode := 0
      extensionPermutePrefix := 0
      h2DisablePriorityFrames := false
      headerOrderByDest := false
      headerOrderDest := some ""
      tcpDontFragment := -1
      tcpTos := -1
      tcpNoDelay := -1
      tcpWindowClamp := 0
      tcpIpIdMode := some "" }

/-- The header block of an overridden identifier, unless the caller manages the headers. -/
def pairDefaultHeaders (lib : Library) (s : Session) (explicit : Option (PyDict String String))
    (r : Resolved) : Resolved :=
  if explicit.isNone ∧ !s.headersCustomized ∧
      r.clientIdentifier ≠ s.defaults.clientIdentifier then
    { r with defaultHeaders := r.clientIdentifier.bind lib.defaultHeadersTable }
  else r

/-- `client_identifier or session.client_identifier`, checked against the supported identifiers. -/
def selectIdentifier (lib : Library) (s : Session) (o : Overrides) : Except PyError Unit :=
  let selected := orElse o.clientIdentifier s.defaults.clientIdentifier
  if (selected.bind lib.defaultHeadersTable).isSome then .ok ()
  else .error (.valueError "unsupported client_identifier %r" [selected])

/-! ## The two resolvers -/

/-- The dict `Session.execute_request` builds, before the gates on the ABI version. -/
def resolvedSync (d : RequestOptions) (o : Overrides) (url : String) : Resolved :=
  -- `proxy if proxy is not None else defaults.get("proxy")`
  let effectiveProxy := resolveProxyUrl (val o.proxy d.proxy) url
  {
    clientIdentifier := val o.clientIdentifier d.clientIdentifier
    proxy := effectiveProxy
    serverNameOverwrite := val o.serverNameOverwrite d.serverNameOverwrite
    requestHostOverride := val o.requestHostOverride d.requestHostOverride
    localAddress := val o.localAddress d.localAddress
    pseudoHeaderOrder := val o.pseudoHeaderOrder d.pseudoHeaderOrder
    h3PseudoHeaderOrder := val o.h3PseudoHeaderOrder d.h3PseudoHeaderOrder
    defaultHeaders := val o.defaultHeaders d.defaultHeaders
    connectHeaders := val o.connectHeaders d.connectHeaders
    certificatePinningHosts := val o.certificatePinningHosts d.certificatePinningHosts
    requestCookies := val o.requestCookies d.requestCookies
    clientCertificates := val o.clientCertificates d.clientCertificates
    customTlsClient := val o.customTlsClient d.customTlsClient
    timeoutSeconds := valInt o.timeout d.timeoutSeconds
    timeoutMilliseconds := valInt o.timeoutMilliseconds d.timeoutMilliseconds
    followRedirects := valFlag o.followRedirects d.followRedirects
    insecureSkipVerify :=
      match o.verify with
      | some verify => !verify
      | none => valFlag none d.insecureSkipVerify
    forceHttp1 := valFlag o.forceHttp1 d.forceHttp1
    withRandomTlsExtensionOrder := valFlag o.randomTlsExtensionOrder d.withRandomTlsExtensionOrder
    withProtocolRacing := valFlag o.withProtocolRacing d.withProtocolRacing
    maxIdleConnections := valInt o.maxIdleConnections d.maxIdleConnections
    maxIdleConnectionsPerHost := valInt o.maxIdleConnectionsPerHost d.maxIdleConnectionsPerHost
    maxConnectionsPerHost := valInt o.maxConnectionsPerHost d.maxConnectionsPerHost
    maxResponseHeaderBytes := valInt o.maxResponseHeaderBytes d.maxResponseHeaderBytes
    writeBufferSize := valInt o.writeBufferSize d.writeBufferSize
    readBufferSize := valInt o.readBufferSize d.readBufferSize
    idleConnTimeoutSeconds := valInt o.idleConnTimeoutSeconds d.idleConnTimeoutSeconds
    disableKeepAlives := valFlag o.disableKeepAlives d.disableKeepAlives
    disableCompression := valFlag o.disableCompression d.disableCompression
    disableHttp3 := valFlag o.disableHttp3 d.disableHttp3
    disableIpv4 := valFlag o.disableIpv4 d.disableIpv4
    disableIpv6 := valFlag o.disableIpv6 d.disableIpv6
    withoutCookieJar := valFlag o.withoutCookieJar d.withoutCookieJar
    allowEmptyCookies := valFlag o.allowEmptyCookies d.allowEmptyCookies
    withDefaultBadPinHandler := valFlag o.withDefaultBadPinHandler d.withDefaultBadPinHandler
    catchPanics := valFlag o.catchPanics d.catchPanics
    withDebug := valFlag o.withDebug d.withDebug
    disableSessionTickets := valFlag o.disableSessionTickets d.disableSessionTickets
    tlsKeylogPath := val o.tlsKeylogPath d.tlsKeylogPath
    rootCaPem := val o.rootCaPem d.rootCaPem
    h2MaxDataFrameSize := valInt o.h2MaxDataFrameSize d.h2MaxDataFrameSize
    prefacePingIdleMs := valInt o.prefacePingIdleMs d.prefacePingIdleMs
    hpackIndexingPolicy := val o.hpackIndexingPolicy d.hpackIndexingPolicy
    cookieCrumb := valFlag o.cookieCrumb d.cookieCrumb
    tcpTtl := valInt o.tcpTtl d.tcpTtl
    tcpWindowSize := valInt o.tcpWindowSize d.tcpWindowSize
    tcpWindowScale := valInt o.tcpWindowScale d.tcpWindowScale
    tcpMss := valInt o.tcpMss d.tcpMss
    extensionPermuteMode := valInt o.extensionPermuteMode d.extensionPermuteMode
    extensionPermutePrefix := valInt o.extensionPermutePrefix d.extensionPermutePrefix
    h2DisablePriorityFrames := valFlag o.h2DisablePriorityFrames d.h2DisablePriorityFrames
    headerOrderByDest := valFlag o.headerOrderByDest d.headerOrderByDest
    headerOrderDest := val o.headerOrderDest d.headerOrderDest
    tcpDontFragment := valTristate o.tcpDontFragment d.tcpDontFragment
    tcpTos := valTristate o.tcpTos d.tcpTos
    tcpNoDelay := valTristate o.tcpNoDelay d.tcpNoDelay
    tcpWindowClamp := valInt o.tcpWindowClamp d.tcpWindowClamp
    tcpIpIdMode := val o.tcpIpIdMode d.tcpIpIdMode }

/-- The option half of `Session.execute_request`. -/
def Session.executeRequest (lib : Library) (s : Session) (o : Overrides) (url : String) :
    Except PyError Resolved := do
  selectIdentifier lib s o
  if s.closed then
    throw (.runtimeError "Session is closed")
  let resolved := resolvedSync s.defaults o url
  requireAbi2 lib resolved
  return pairDefaultHeaders lib s o.defaultHeaders (degradeAbi3Fields lib resolved)

/-- The dict `_execute_async` builds. `proxyGiven` says that `kwargs` has the key `"proxy"`, which
`kwargs.get("proxy", defaults.get("proxy"))` asks before it looks at the default. -/
def resolvedAsync (d kwargs : RequestOptions) (proxyGiven : Bool) (url : String) : Resolved :=
  let effectiveProxy := resolveProxyUrl (if proxyGiven then kwargs.proxy else d.proxy) url
  {
    clientIdentifier := val kwargs.clientIdentifier d.clientIdentifier
    proxy := effectiveProxy
    serverNameOverwrite := val kwargs.serverNameOverwrite d.serverNameOverwrite
    requestHostOverride := val kwargs.requestHostOverride d.requestHostOverride
    localAddress := val kwargs.localAddress d.localAddress
    pseudoHeaderOrder := val kwargs.pseudoHeaderOrder d.pseudoHeaderOrder
    h3PseudoHeaderOrder := val kwargs.h3PseudoHeaderOrder d.h3PseudoHeaderOrder
    defaultHeaders := val kwargs.defaultHeaders d.defaultHeaders
    connectHeaders := val kwargs.connectHeaders d.connectHeaders
    certificatePinningHosts := val kwargs.certificatePinningHosts d.certificatePinningHosts
    requestCookies := val kwargs.requestCookies d.requestCookies
    clientCertificates := val kwargs.clientCertificates d.clientCertificates
    customTlsClient := val kwargs.customTlsClient d.customTlsClient
    timeoutSeconds := valInt kwargs.timeoutSeconds d.timeoutSeconds
    timeoutMilliseconds := valInt kwargs.timeoutMilliseconds d.timeoutMilliseconds
    followRedirects := valFlag kwargs.followRedirects d.followRedirects
    insecureSkipVerify := valFlag kwargs.insecureSkipVerify d.insecureSkipVerify
    forceHttp1 := valFlag kwargs.forceHttp1 d.forceHttp1
    withRandomTlsExtensionOrder := valFlag kwargs.withRandomTlsExtensionOrder d.withRandomTlsExtensionOrder
    withProtocolRacing := valFlag kwargs.withProtocolRacing d.withProtocolRacing
    maxIdleConnections := valInt kwargs.maxIdleConnections d.maxIdleConnections
    maxIdleConnectionsPerHost := valInt kwargs.maxIdleConnectionsPerHost d.maxIdleConnectionsPerHost
    maxConnectionsPerHost := valInt kwargs.maxConnectionsPerHost d.maxConnectionsPerHost
    maxResponseHeaderBytes := valInt kwargs.maxResponseHeaderBytes d.maxResponseHeaderBytes
    writeBufferSize := valInt kwargs.writeBufferSize d.writeBufferSize
    readBufferSize := valInt kwargs.readBufferSize d.readBufferSize
    idleConnTimeoutSeconds := valInt kwargs.idleConnTimeoutSeconds d.idleConnTimeoutSeconds
    disableKeepAlives := valFlag kwargs.disableKeepAlives d.disableKeepAlives
    disableCompression := valFlag kwargs.disableCompression d.disableCompression
    disableHttp3 := valFlag kwargs.disableHttp3 d.disableHttp3
    disableIpv4 := valFlag kwargs.disableIpv4 d.disableIpv4
    disableIpv6 := valFlag kwargs.disableIpv6 d.disableIpv6
    withoutCookieJar := valFlag kwargs.withoutCookieJar d.withoutCookieJar
    allowEmptyCookies := valFlag kwargs.allowEmptyCookies d.allowEmptyCookies
    withDefaultBadPinHandler := valFlag kwargs.withDefaultBadPinHandler d.withDefaultBadPinHandler
    catchPanics := valFlag kwargs.catchPanics d.catchPanics
    withDebug := valFlag kwargs.withDebug d.withDebug
    disableSessionTickets := valFlag kwargs.disableSessionTickets d.disableSessionTickets
    tlsKeylogPath := val kwargs.tlsKeylogPath d.tlsKeylogPath
    rootCaPem := val kwargs.rootCaPem d.rootCaPem
    h2MaxDataFrameSize := valInt kwargs.h2MaxDataFrameSize d.h2MaxDataFrameSize
    prefacePingIdleMs := valInt kwargs.prefacePingIdleMs d.prefacePingIdleMs
    hpackIndexingPolicy := val kwargs.hpackIndexingPolicy d.hpackIndexingPolicy
    cookieCrumb := valFlag kwargs.cookieCrumb d.cookieCrumb
    tcpTtl := valInt kwargs.tcpTtl d.tcpTtl
    tcpWindowSize := valInt kwargs.tcpWindowSize d.tcpWindowSize
    tcpWindowScale := valInt kwargs.tcpWindowScale d.tcpWindowScale
    tcpMss := valInt kwargs.tcpMss d.tcpMss
    extensionPermuteMode := valInt kwargs.extensionPermuteMode d.extensionPermuteMode
    extensionPermutePrefix := valInt kwargs.extensionPermutePrefix d.extensionPermutePrefix
    h2DisablePriorityFrames := valFlag kwargs.h2DisablePriorityFrames d.h2DisablePriorityFrames
    headerOrderByDest := valFlag kwargs.headerOrderByDest d.headerOrderByDest
    headerOrderDest := val kwargs.headerOrderDest d.headerOrderDest
    tcpDontFragment := valTristate kwargs.tcpDontFragment d.tcpDontFragment
    tcpTos := valTristate kwargs.tcpTos d.tcpTos
    tcpNoDelay := valTristate kwargs.tcpNoDelay d.tcpNoDelay
    tcpWindowClamp := valInt kwargs.tcpWindowClamp d.tcpWindowClamp
    tcpIpIdMode := val kwargs.tcpIpIdMode d.tcpIpIdMode }

/-- The option half of `AsyncSession._execute_async`. -/
def AsyncSession.executeAsync (lib : Library) (s : Session) (kwargs : RequestOptions)
    (proxyGiven : Bool) (url : String) : Except PyError Resolved := do
  if s.closed then
    throw (.runtimeError "AsyncSession is closed")
  let resolved := resolvedAsync s.defaults kwargs proxyGiven url
  requireAbi2 lib resolved
  return pairDefaultHeaders lib s kwargs.defaultHeaders (degradeAbi3Fields lib resolved)

/-- The renaming in `AsyncSession.execute_request`: `timeout`, `verify` (inverted) and
`random_tls_extension_order` get the names of the defaults. -/
def Overrides.toKwargs (o : Overrides) : RequestOptions :=
  { o.toCommonOptions with
    timeoutSeconds := o.timeout
    insecureSkipVerify := o.verify.map fun verify => !verify
    withRandomTlsExtensionOrder := o.randomTlsExtensionOrder }

/-- The option half of `AsyncSession.execute_request`; it passes `proxy=proxy` also when that is
`None`. -/
def AsyncSession.executeRequest (lib : Library) (s : Session) (o : Overrides) (url : String) :
    Except PyError Resolved := do
  selectIdentifier lib s o
  AsyncSession.executeAsync lib s o.toKwargs true url

/-- The option half of `Session.stream_to_file`. -/
def Session.streamToFile (lib : Library) (s : Session) (o : Overrides) (url : String) :
    Except PyError Resolved :=
  s.executeRequest lib o url

/-- The keyword arguments of `AsyncSession.stream_to_file`, as `_execute_async` finds them: nothing renames
`timeout`, `verify` and `random_tls_extension_order`, and it does not ask for these. -/
def Overrides.asGiven (o : Overrides) : RequestOptions :=
  { o.toCommonOptions with }

/-- The option half of `AsyncSession.stream_to_file`. `proxyGiven` says that the caller wrote `proxy=`. -/
def AsyncSession.streamToFile (lib : Library) (s : Session) (o : Overrides) (proxyGiven : Bool)
    (url : String) : Except PyError Resolved :=
  AsyncSession.executeAsync lib s o.asGiven proxyGiven url

/-! ## The resolvers agree on everything but the proxy -/

section Agreement

variable {lib : Library} {s : Session} {o : Overrides} {url : String}

/-- The flag for `verify` is negated twice. -/
private theorem valFlag_toKwargs (verify default : Option Bool) :
    valFlag (verify.map fun v => !v) default =
      match verify with
      | some v => !v
      | none => valFlag none default := by
  cases verify <;> rfl

/-- The dicts differ at most in the proxy: the async one ignores the default. -/
theorem resolvedAsync_toKwargs (d : RequestOptions) (o : Overrides) (url : String) :
    resolvedAsync d o.toKwargs true url =
      { resolvedSync d o url with proxy := resolveProxyUrl o.proxy url } := by
  simp only [resolvedAsync, resolvedSync, Overrides.toKwargs, valFlag_toKwargs, if_true]

/-- The proxy does not matter for the degrading. -/
theorem degradeAbi3Fields_proxy (lib : Library) (r : Resolved) (proxy : Option String) :
    degradeAbi3Fields lib { r with proxy := proxy } =
      { degradeAbi3Fields lib r with proxy := proxy } := by
  unfold degradeAbi3Fields requestsAbi3
  split <;> rfl

/-- Nor does it matter for the headers. -/
theorem pairDefaultHeaders_proxy (lib : Library) (s : Session)
    (explicit : Option (PyDict String String)) (r : Resolved) (proxy : Option String) :
    pairDefaultHeaders lib s explicit { r with proxy := proxy } =
      { pairDefaultHeaders lib s explicit r with proxy := proxy } := by
  unfold pairDefaultHeaders
  split <;> rfl

/-- What both resolvers do to their dict after the gate on ABI 2. -/
def finish (lib : Library) (s : Session) (o : Overrides) (r : Resolved) : Resolved :=
  pairDefaultHeaders lib s o.defaultHeaders (degradeAbi3Fields lib r)

/-- The proxy goes through all further steps. -/
theorem finish_proxy (lib : Library) (s : Session) (o : Overrides) (r : Resolved)
    (proxy : Option String) : finish lib s o { r with proxy := proxy } = { finish lib s o r with proxy := proxy } := by
  rw [finish, degradeAbi3Fields_proxy, pairDefaultHeaders_proxy]
  rfl

/-- The gates before the dict is finished pass. -/
structure Accepted (lib : Library) (s : Session) (o : Overrides) (url : String) : Prop where
  identifier : selectIdentifier lib s o = .ok ()
  isOpen : s.closed = false
  abi2 : requireAbi2 lib (resolvedSync s.defaults o url) = .ok ()

/-- A computation behind three gates succeeds when all of them pass. -/
private theorem gated_eq_ok_iff {identifier abi2 : Except PyError Unit} {closed : Bool}
    {e : PyError} {x r : Resolved} :
    (do identifier
        if closed then
          throw e
        abi2
        return x) = .ok r ↔
      (identifier = .ok () ∧ closed = false ∧ abi2 = .ok ()) ∧ r = x := by
  cases identifier with
  | error _ => simp [bind, Except.bind]
  | ok _ =>
    cases closed with
    | true => simp [bind, Except.bind, throw, throwThe, MonadExceptOf.throw]
    | false =>
      cases abi2 with
      | error _ => simp [bind, Except.bind]
      | ok _ =>
        simp only [bind, Except.bind, pure, Except.pure, Bool.false_eq_true, if_false, true_and,
          and_self]
        exact ⟨fun hok => (Except.ok.inj hok).symm, fun heq => congrArg Except.ok heq.symm⟩

/-- When the sync resolver succeeds, and with what. -/
theorem sync_eq_ok_iff {r : Resolved} :
    s.executeRequest lib o url = .ok r ↔
      Accepted lib s o url ∧ r = finish lib s o (resolvedSync s.defaults o url) := by
  refine gated_eq_ok_iff.trans (and_congr_left fun _ => ?_)
  exact ⟨fun ⟨hid, hclosed, habi⟩ => ⟨hid, hclosed, habi⟩,
    fun haccepted => ⟨haccepted.identifier, haccepted.isOpen, haccepted.abi2⟩⟩

/-- The gate on ABI 2 does not look at the proxy, so both sides pass the same gates. -/
theorem async_eq_ok_iff {r : Resolved} :
    AsyncSession.executeRequest lib s o url = .ok r ↔
      Accepted lib s o url ∧
        r = finish lib s o
          { resolvedSync s.defaults o url with proxy := resolveProxyUrl o.proxy url } := by
  have hgate : requireAbi2 lib (resolvedAsync s.defaults o.toKwargs true url) =
      requireAbi2 lib (resolvedSync s.defaults o url) := by
    rw [resolvedAsync_toKwargs]
    rfl
  refine gated_eq_ok_iff.trans ?_
  rw [hgate, resolvedAsync_toKwargs]
  refine and_congr_left fun _ => ?_
  exact ⟨fun ⟨hid, hclosed, habi⟩ => ⟨hid, hclosed, habi⟩,
    fun haccepted => ⟨haccepted.identifier, haccepted.isOpen, haccepted.abi2⟩⟩

/-- The two APIs accept the same requests. -/
theorem sync_accepts_iff_async_accepts :
    (∃ r, s.executeRequest lib o url = .ok r) ↔
      ∃ r, AsyncSession.executeRequest lib s o url = .ok r := by
  simp only [sync_eq_ok_iff, async_eq_ok_iff, exists_and_left, exists_eq, and_true]

/-- Streaming to a file resolves the same options through both sessions, for a caller who uses none of the
names that get lost and passes no explicit `proxy=None`: there the default proxy counts. -/
theorem streamToFile_resolves_as_sync {rs ra : Resolved} {proxyGiven : Bool}
    (hs : s.streamToFile lib o url = .ok rs)
    (ha : AsyncSession.streamToFile lib s o proxyGiven url = .ok ra) (htimeout : o.timeout = none)
    (hverify : o.verify = none) (hrandom : o.randomTlsExtensionOrder = none)
    (hproxy : proxyGiven = o.proxy.isSome) : ra = rs := by
  obtain ⟨haccepted, rfl⟩ := sync_eq_ok_iff.mp hs
  have hchosen : (if proxyGiven then o.asGiven.proxy else s.defaults.proxy) = val o.proxy s.defaults.proxy := by
    rw [hproxy]
    show (if o.proxy.isSome then o.proxy else s.defaults.proxy) = _
    cases o.proxy <;> rfl
  have hresolved : resolvedAsync s.defaults o.asGiven proxyGiven url = resolvedSync s.defaults o url := by
    rw [resolvedAsync, resolvedSync, hchosen, htimeout, hverify, hrandom]
    rfl
  have hgate := haccepted.abi2
  simp only [AsyncSession.streamToFile, AsyncSession.executeAsync, hresolved, haccepted.isOpen, hgate, bind,
    Except.bind, Bool.false_eq_true, if_false] at ha
  exact (Except.ok.inj ha).symm

/-- Whatever `timeout`, `verify` and `random_tls_extension_order` the caller of the async `stream_to_file` gives,
the request is the same. -/
theorem streamToFile_loses (timeout : Option PyInt) (verify randomTlsExtensionOrder : Option Bool)
    (proxyGiven : Bool) :
    AsyncSession.streamToFile lib s { o with timeout, verify, randomTlsExtensionOrder } proxyGiven url =
      AsyncSession.streamToFile lib s o proxyGiven url := rfl

/-- The proxy an async request uses is the one its sync counterpart uses, unless the session has a
default that applies and the request gives none. -/
theorem resolveProxyUrl_val_eq_iff (override default : Option ProxyConfig) (url : String) :
    resolveProxyUrl (val override default) url = resolveProxyUrl override url ↔
      override.isSome ∨ resolveProxyUrl default url = none := by
  cases override with
  | some p => simp [val]
  | none => simp [val, resolveProxyUrl]

/-- A request accepted by both APIs resolves to the same options exactly when it gives a proxy itself
or no default proxy applies to its URL. -/
theorem async_resolves_as_sync_iff {rs ra : Resolved} (hs : s.executeRequest lib o url = .ok rs)
    (ha : AsyncSession.executeRequest lib s o url = .ok ra) :
    rs = ra ↔ o.proxy.isSome ∨ resolveProxyUrl s.defaults.proxy url = none := by
  obtain ⟨-, hrs⟩ := sync_eq_ok_iff.mp hs
  obtain ⟨-, hra⟩ := async_eq_ok_iff.mp ha
  have hproxy : rs.proxy = resolveProxyUrl (val o.proxy s.defaults.proxy) url := by
    have hfinish := congrArg Resolved.proxy
      (finish_proxy lib s o (resolvedSync s.defaults o url)
        (resolveProxyUrl (val o.proxy s.defaults.proxy) url))
    rw [hrs]
    exact hfinish
  rw [finish_proxy, ← hrs] at hra
  rw [← resolveProxyUrl_val_eq_iff, ← hproxy, hra]
  constructor
  · intro heq
    exact congrArg Resolved.proxy heq
  · intro heq
    rw [← heq]

end Agreement

/-- A library of ABI 3 that supports one identifier. -/
def oneIdentifier : Library :=
  ⟨fun identifier => if identifier = "chrome_120" then some .empty else none, 3⟩

/-- A session with a default proxy. -/
def proxiedSession : Session :=
  { defaults := { clientIdentifier := some "chrome_120", proxy := some (.url "http://proxy:8080") } }

/-- With an explicit proxy the two sides agree. -/
theorem async_resolves_as_sync_explicit :
    ∃ r, proxiedSession.executeRequest oneIdentifier { proxy := some (.url "http://other") } "http://h/"
        = .ok r ∧
      AsyncSession.executeRequest oneIdentifier proxiedSession
        { proxy := some (.url "http://other") } "http://h/" = .ok r := by
  have hs : proxiedSession.executeRequest oneIdentifier
      { proxy := some (.url "http://other") } "http://h/" = .ok _ :=
    sync_eq_ok_iff.mpr ⟨⟨rfl, rfl, rfl⟩, rfl⟩
  have ha : AsyncSession.executeRequest oneIdentifier proxiedSession
      { proxy := some (.url "http://other") } "http://h/" = .ok _ :=
    async_eq_ok_iff.mpr ⟨⟨rfl, rfl, rfl⟩, rfl⟩
  exact ⟨_, hs, ((async_resolves_as_sync_iff hs ha).mpr (.inl rfl)).symm ▸ ha⟩

/-- Without one the async request goes out directly, past the session's proxy. -/
theorem async_drops_default_proxy :
    ¬ ∀ rs ra, proxiedSession.executeRequest oneIdentifier {} "http://h/" = .ok rs →
      AsyncSession.executeRequest oneIdentifier proxiedSession {} "http://h/" = .ok ra → rs = ra := by
  intro hagree
  have heq := hagree _ _ (sync_eq_ok_iff.mpr ⟨⟨rfl, rfl, rfl⟩, rfl⟩)
    (async_eq_ok_iff.mpr ⟨⟨rfl, rfl, rfl⟩, rfl⟩)
  have hproxy := congrArg Resolved.proxy heq
  exact absurd hproxy (by decide)

end TlsClient.Python
