import TlsClient.CacheKey.Python
import TlsClient.Ffi.CStruct

/-!
# Marshalling the resolved options

Embeds the `_build_*` helpers of `src/tls_client/_core.py` and the assignments that fill
`RequestOptions` in `Session.execute_request`; `_execute_async` fills it alike. cffi refuses an integer
that does not fit its C type; the integers are collected (`cIntegers`) and checked at once, as it makes
no difference which of them is refused first.
-/

namespace TlsClient.Python

open TlsClient.Ffi Utf8

/-- `d.get(key, 0)`. -/
def getInt (v : Option PyInt) : ℤ :=
  (v.map PyInt.toInt).getD 0

/-- `1 if v else 0`. -/
def flag (b : Bool) : ℤ :=
  if b then 1 else 0

/-- `_c_string`. -/
def cString (value : Option String) : CharPtr :=
  value.map utf8

/-- A `_c_string` that is made only of a value that is true. -/
def cStringIfTrue (value : Option String) : CharPtr :=
  if value.getD "" = "" then none else cString value

/-- `_build_headers`. -/
def buildHeaders (headers : Option (PyDict String String)) : List C.HttpHeader :=
  ((headers.map PyDict.items).getD []).map fun (k, v) => ⟨some (utf8 k), some (utf8 v)⟩

/-- `_build_string_array`. -/
def buildStringArray (items : List String) : List CharPtr :=
  items.map fun s => some (utf8 s)

/-- `_build_pin_entries`. -/
def buildPinEntries (pins : Option (PyDict String (List String))) : List C.PinEntry :=
  ((pins.map PyDict.items).getD []).map fun (host, pinList) =>
    ⟨some (utf8 host), buildStringArray pinList⟩

/-- `_build_client_certificates`. -/
def buildClientCertificates (certs : Option (List ClientCertificate)) : List C.ClientCertificate :=
  (certs.getD []).map fun c => ⟨c.certPem.getD [], c.keyPem.getD []⟩

def PriorityParam.build (p : PriorityParam) : C.PriorityParam :=
  { streamDep := getInt p.streamDep, exclusive := flag p.exclusive, weight := getInt p.weight }

def buildSettings (settings : PyDict String PyInt) : List (CharPtr × ℤ) :=
  settings.items.map fun (k, v) => (some (utf8 k), v.toInt)

/-- `_build_custom_tls_client`. -/
def buildCustomTlsClient (cfg : Option CustomTlsClient) : Option C.CustomTlsClient :=
  match cfg with
  | none => none
  | some cfg =>
    if cfg.truthy then
      some
        { ja3String := cString cfg.ja3String.get
          connectionFlow := getInt cfg.connectionFlow
          recordSizeLimit := getInt cfg.recordSizeLimit
          streamId := getInt cfg.streamId
          h3PriorityParam := getInt cfg.h3PriorityParam
          h3SendGreaseFrames := flag cfg.h3SendGreaseFrames
          allowHttp := flag cfg.allowHttp
          h2SettingsOrder := buildStringArray cfg.h2SettingsOrder
          h3SettingsOrder := buildStringArray cfg.h3SettingsOrder
          h3PseudoHeaderOrder := buildStringArray cfg.h3PseudoHeaderOrder
          certCompressionAlgos := buildStringArray cfg.certCompressionAlgos
          keyShareCurves := buildStringArray cfg.keyShareCurves
          alpnProtocols := buildStringArray cfg.alpnProtocols
          alpsProtocols := buildStringArray cfg.alpsProtocols
          pseudoHeaderOrder := buildStringArray cfg.pseudoHeaderOrder
          supportedDelegatedCredentialsAlgorithms :=
            buildStringArray cfg.supportedDelegatedCredentialsAlgorithms
          supportedSignatureAlgorithms := buildStringArray cfg.supportedSignatureAlgorithms
          supportedVersions := buildStringArray cfg.supportedVersions
          h2Settings := buildSettings cfg.h2Settings
          h3Settings := buildSettings cfg.h3Settings
          echCandidatePayloads := cfg.echCandidatePayloads.map PyInt.toInt
          echCandidateCipherSuites := cfg.echCandidateCipherSuites.map fun suite =>
            ⟨cString suite.kdfId.get, cString suite.aeadId.get⟩
          priorityFrames := cfg.priorityFrames.map fun pf =>
            ⟨pf.priorityParam.build, getInt pf.streamID⟩
          headerPriority := (cfg.headerPriority.filter PriorityParam.truthy).map PriorityParam.build
          trustAnchorsPayload := cStringIfTrue cfg.trustAnchorsPayload }
    else none

/-! ## What cffi checks -/

def PriorityParam.cIntegers (p : PriorityParam) : List (C.IntType × ℤ) :=
  [(.unsignedInt, getInt p.streamDep), (.unsignedChar, getInt p.weight)]

/-- Everything `_build_custom_tls_client` assigns to a C integer, lengths included. -/
def CustomTlsClient.cIntegers (cfg : CustomTlsClient) : List (C.IntType × ℤ) :=
  [(.unsignedInt, getInt cfg.connectionFlow), (.unsignedShort, getInt cfg.recordSizeLimit),
    (.unsignedInt, getInt cfg.streamId), (.unsignedInt, getInt cfg.h3PriorityParam),
    (.int, cfg.h2SettingsOrder.length), (.int, cfg.h3SettingsOrder.length),
    (.int, cfg.h3PseudoHeaderOrder.length), (.int, cfg.certCompressionAlgos.length),
    (.int, cfg.keyShareCurves.length), (.int, cfg.alpnProtocols.length),
    (.int, cfg.alpsProtocols.length), (.int, cfg.pseudoHeaderOrder.length),
    (.int, cfg.supportedDelegatedCredentialsAlgorithms.length),
    (.int, cfg.supportedSignatureAlgorithms.length), (.int, cfg.supportedVersions.length),
    (.int, cfg.h2Settings.items.length), (.int, cfg.h3Settings.items.length),
    (.int, cfg.echCandidatePayloads.length), (.int, cfg.echCandidateCipherSuites.length),
    (.int, cfg.priorityFrames.length)] ++
  cfg.h2Settings.items.map (fun item => (.unsignedInt, item.2.toInt)) ++
  cfg.h3Settings.items.map (fun item => (.unsignedLongLong, item.2.toInt)) ++
  cfg.echCandidatePayloads.map (fun pld => (.unsignedShort, pld.toInt)) ++
  cfg.priorityFrames.flatMap (fun pf =>
    (.unsignedInt, getInt pf.streamID) :: pf.priorityParam.cIntegers) ++
  (cfg.headerPriority.map PriorityParam.cIntegers).getD []

/-- The integers assigned to `int` fields of `RequestOptions`, lengths included. -/
def Resolved.cIntegers (r : Resolved) : List (C.IntType × ℤ) :=
  ([r.timeoutSeconds, r.timeoutMilliseconds, r.maxIdleConnections, r.maxIdleConnectionsPerHost,
    r.maxConnectionsPerHost, r.maxResponseHeaderBytes, r.writeBufferSize, r.readBufferSize,
    r.idleConnTimeoutSeconds, r.h2MaxDataFrameSize, r.prefacePingIdleMs, r.tcpTtl, r.tcpWindowSize,
    r.tcpWindowScale, r.tcpMss, r.extensionPermuteMode, r.extensionPermutePrefix,
    r.tcpDontFragment, r.tcpTos, r.tcpNoDelay, r.tcpWindowClamp,
    (r.pseudoHeaderOrder.getD []).length, (r.h3PseudoHeaderOrder.getD []).length,
    (buildHeaders r.defaultHeaders).length, (buildHeaders r.connectHeaders).length,
    (buildPinEntries r.certificatePinningHosts).length, (buildHeaders r.requestCookies).length,
    (r.clientCertificates.getD []).length, (r.rootCaPem.getD []).length] ++
  (buildPinEntries r.certificatePinningHosts).map (fun entry => (entry.pins.length : ℤ)) ++
  (buildClientCertificates r.clientCertificates).flatMap (fun c =>
    [(c.certPem.length : ℤ), (c.keyPem.length : ℤ)])).map fun n => (.int, n)

/-- cffi takes every integer. -/
def Resolved.fitsC (r : Resolved) : Bool :=
  (r.cIntegers ++ (r.customTlsClient.map fun cfg =>
    if cfg.truthy then cfg.cIntegers else []).getD []).all fun field => field.1.fits field.2

/-- The arguments of a request that its options do not hold; the headers and their order are merged
with the session's default block. -/
structure RequestArgs where
  method : String
  url : String
  body : Option Bytes := none
  headers : Option (PyDict String String) := none
  headerOrder : Option (List String) := none

/-- `RequestOptions` as `Session.execute_request` fills it; `cacheKeyHash` is computed from the same
`resolved`. -/
def fillRequestOptions (r : Resolved) (args : RequestArgs) (cacheKeyHash : Bytes) : C.RequestOptions :=
  { method := some (utf8 args.method)
    url := some (utf8 args.url)
    body := args.body.getD []
    headers := buildHeaders args.headers
    headerOrder := buildStringArray (args.headerOrder.getD [])
    proxy := cString r.proxy
    clientIdentifier := cString r.clientIdentifier
    serverNameOverwrite := cString r.serverNameOverwrite
    requestHostOverride := cString r.requestHostOverride
    localAddress := cString r.localAddress
    pseudoHeaderOrder := buildStringArray (r.pseudoHeaderOrder.getD [])
    h3PseudoHeaderOrder := buildStringArray (r.h3PseudoHeaderOrder.getD [])
    defaultHeaders := buildHeaders r.defaultHeaders
    connectHeaders := buildHeaders r.connectHeaders
    certificatePinningHosts := buildPinEntries r.certificatePinningHosts
    withDefaultBadPinHandler := flag r.withDefaultBadPinHandler
    requestCookies := buildHeaders r.requestCookies
    clientCertificates := buildClientCertificates r.clientCertificates
    customTlsClient := buildCustomTlsClient r.customTlsClient
    cacheKeyHash := some cacheKeyHash
    disableSessionTickets := flag r.disableSessionTickets
    tlsKeylogPath := cStringIfTrue r.tlsKeylogPath
    rootCaPem := r.rootCaPem.getD []
    h2MaxDataFrameSize := r.h2MaxDataFrameSize
    prefacePingIdleMs := r.prefacePingIdleMs
    hpackIndexingPolicy := cStringIfTrue r.hpackIndexingPolicy
    cookieCrumb := flag r.cookieCrumb
    extensionPermuteMode := r.extensionPermuteMode
    extensionPermutePrefix := r.extensionPermutePrefix
    h2DisablePriorityFrames := flag r.h2DisablePriorityFrames
    headerOrderByDest := flag r.headerOrderByDest
    headerOrderDest := cStringIfTrue r.headerOrderDest
    tcpDontFragment := r.tcpDontFragment
    tcpTos := r.tcpTos
    tcpNoDelay := r.tcpNoDelay
    tcpWindowClamp := r.tcpWindowClamp
    tcpIpIdMode := cStringIfTrue r.tcpIpIdMode
    timeoutSeconds := r.timeoutSeconds
    timeoutMilliseconds := r.timeoutMilliseconds
    followRedirects := flag r.followRedirects
    insecureSkipVerify := flag r.insecureSkipVerify
    forceHttp1 := flag r.forceHttp1
    withRandomTlsExtensionOrder := flag r.withRandomTlsExtensionOrder
    withProtocolRacing := flag r.withProtocolRacing
    maxIdleConnections := r.maxIdleConnections
    maxIdleConnectionsPerHost := r.maxIdleConnectionsPerHost
    maxConnectionsPerHost := r.maxConnectionsPerHost
    disableKeepAlives := flag r.disableKeepAlives
    disableCompression := flag r.disableCompression
    idleConnTimeoutSeconds := r.idleConnTimeoutSeconds
    maxResponseHeaderBytes := r.maxResponseHeaderBytes
    writeBufferSize := r.writeBufferSize
    readBufferSize := r.readBufferSize
    allowEmptyCookies := flag r.allowEmptyCookies
    withoutCookieJar := flag r.withoutCookieJar
    disableHttp3 := flag r.disableHttp3
    disableIpv4 := flag r.disableIpv4
    disableIpv6 := flag r.disableIpv6
    tcpTtl := r.tcpTtl
    tcpWindowSize := r.tcpWindowSize
    tcpWindowScale := r.tcpWindowScale
    tcpMss := r.tcpMss
    catchPanics := flag r.catchPanics
    withDebug := flag r.withDebug }

/-- The options the marshalling refuses: integers out of range, and a trust anchors payload for a
library that cannot take one (`_require_abi2`). -/
def checkMarshal (lib : Library) (r : Resolved) : Except PyError Unit :=
  if (r.customTlsClient.any fun cfg => cfg.truthy && cfg.trustAnchorsPayload.getD "" != "") ∧
      lib.abiVersion < 2 then
    .error abi2Error
  else if r.fitsC then .ok ()
  else .error .overflowError

/-- From the resolved options to the struct the engine gets; the pre-computed cache key goes with it. -/
def marshal (lib : Library) (sha256 : Bytes → Bytes) (r : Resolved) (args : RequestArgs) :
    Except PyError C.RequestOptions := do
  checkMarshal lib r
  let cacheKeyHash ← computeCacheKeyHash sha256 r
  return fillRequestOptions r args cacheKeyHash

end TlsClient.Python
