import TlsClient.Ffi.CStruct
import TlsClient.Library.SortedMap
import TlsClient.Library.Utf8

/-!
# The engine's request config

Embeds `requestConfig`, `requestConfigFromOptions` and their helpers of `src/cffi_binding/main.go`. A Go
string is its bytes. A Go map is a `SortedMap`: it has no order of its own, and the code sorts the keys
wherever it walks one.

`ClientFields` are the fields that the cache key covers, `RequestConfig` adds the others. The deep copy
of the custom TLS client keeps of every C string what `C.GoString` reads of it, so its strings are Go
strings here. `clientCertPEMs` and `clientKeyPEMs`, which are filled in one loop, are one list of pairs.
-/

namespace TlsClient.Engine

open TlsClient.Ffi Utf8

/-- The deep copy of `C.CustomTlsClient`. -/
@[ext] structure CustomTLSClient where
  h2Settings : List (Bytes × ℤ) := []
  h2SettingsOrder : List Bytes := []
  h3Settings : List (Bytes × ℤ) := []
  h3SettingsOrder : List Bytes := []
  h3PseudoHeaderOrder : List Bytes := []
  headerPriority : Option C.PriorityParam := none
  certCompressionAlgos : List Bytes := []
  ja3String : Bytes := []
  keyShareCurves : List Bytes := []
  alpnProtocols : List Bytes := []
  alpsProtocols : List Bytes := []
  echCandidatePayloads : List ℤ := []
  /-- the pairs of `kdfId` and `aeadId` -/
  echCandidateCipherSuites : List (Bytes × Bytes) := []
  priorityFrames : List C.PriorityFrame := []
  pseudoHeaderOrder : List Bytes := []
  supportedDelegatedCredentialsAlgorithms : List Bytes := []
  supportedSignatureAlgorithms : List Bytes := []
  supportedVersions : List Bytes := []
  connectionFlow : ℤ := 0
  recordSizeLimit : ℤ := 0
  streamId : ℤ := 0
  h3PriorityParam : ℤ := 0
  h3SendGreaseFrames : ℤ := 0
  allowHttp : ℤ := 0
  trustAnchorsPayload : Bytes := []
deriving DecidableEq

/-- The fields of `requestConfig` that the cache key covers. -/
@[ext] structure ClientFields where
  clientIdentifier : Bytes := []
  proxy : Bytes := []
  serverNameOverwrite : Bytes := []
  localAddress : Bytes := []
  insecureSkipVerify : Bool := false
  forceHttp1 : Bool := false
  withRandomTLSExtOrder : Bool := false
  withProtocolRacing : Bool := false
  maxIdleConns : ℤ := 0
  maxIdleConnsPerHost : ℤ := 0
  maxConnsPerHost : ℤ := 0
  maxResponseHeaderBytes : ℤ := 0
  writeBufferSize : ℤ := 0
  readBufferSize : ℤ := 0
  idleConnTimeoutSeconds : ℤ := 0
  disableKeepAlives : Bool := false
  disableCompression : Bool := false
  disableHTTP3 : Bool := false
  disableIPv4 : Bool := false
  disableIPv6 : Bool := false
  followRedirects : Bool := false
  withoutCookieJar : Bool := false
  allowEmptyCookies : Bool := false
  withDefaultBadPinHandler : Bool := false
  timeoutSeconds : ℤ := 0
  timeoutMilliseconds : ℤ := 0
  tcpTTL : ℤ := 0
  tcpWindowSize : ℤ := 0
  tcpWindowScale : ℤ := 0
  tcpMSS : ℤ := 0
  disableSessionTickets : Bool := false
  tlsKeylogPath : Bytes := []
  rootCAPEM : Bytes := []
  h2MaxDataFrameSize : ℤ := 0
  prefacePingIdleMs : ℤ := 0
  hpackIndexingPol : Bytes := []
  extensionPermuteMode : ℤ := 0
  extensionPermutePrefix : ℤ := 0
  h2DisablePriorityFrames : Bool := false
  tcpDontFragment : ℤ := 0
  tcpTOS : ℤ := 0
  tcpNoDelay : ℤ := 0
  tcpWindowClamp : ℤ := 0
  tcpIPIDMode : Bytes := []
  pseudoHeaderOrder : List Bytes := []
  h3PseudoHeaderOrder : List Bytes := []
  defaultHeaders : SortedMap Bytes (List Bytes) := .empty
  connectHeaders : SortedMap Bytes (List Bytes) := .empty
  certificatePinningHosts : SortedMap Bytes (List Bytes) := .empty
  /-- the pairs of a certificate and its key -/
  clientCertPEMs : List (Bytes × Bytes) := []
  customTLSClient : Option CustomTLSClient := none
deriving DecidableEq

/-- `requestConfig`. -/
structure RequestConfig extends ClientFields where
  method : Bytes := []
  url : Bytes := []
  body : Bytes := []
  headers : SortedMap Bytes (List Bytes) := .empty
  headerOrder : List Bytes := []
  requestHostOverride : Bytes := []
  headerOrderByDest : Bool := false
  headerOrderDest : Bytes := []
  catchPanics : Bool := false
  withDebug : Bool := false
  requestCookies : List (Bytes × Bytes) := []
  cacheKeyHash : Bytes := []
deriving DecidableEq

/-- The client with its settings in the order of their keys: two arrays of the same entries are one map. -/
def CustomTLSClient.keyed (ctc : CustomTLSClient) : CustomTLSClient :=
  { ctc with
    h2Settings := SortedMap.sortByKey ctc.h2Settings
    h3Settings := SortedMap.sortByKey ctc.h3Settings }

/-- The values of the fields that the cache key covers. -/
def ClientFields.keyed (cfg : ClientFields) : ClientFields :=
  { cfg with customTLSClient := cfg.customTLSClient.map CustomTLSClient.keyed }

/-- `cStrSlice`; `cStrArrDup` keeps the same strings. -/
def cStrSlice (arr : List CharPtr) : List Bytes :=
  arr.map goString

/-- `cHeadersToHTTP`. -/
def cHeadersToHTTP (headers : List C.HttpHeader) : SortedMap Bytes (List Bytes) :=
  .pushAll (headers.map fun h => (goString h.key, goString h.value))

/-- `cPinsToMap`. -/
def cPinsToMap (entries : List C.PinEntry) : SortedMap Bytes (List Bytes) :=
  .setAll (entries.map fun e => (goString e.host, e.pins.map goString))

/-- `deepCopyCustomTLSClient`. -/
def deepCopyCustomTLSClient (src : C.CustomTlsClient) : CustomTLSClient :=
  { h2Settings := src.h2Settings.map fun (k, v) => (goString k, v)
    h2SettingsOrder := cStrSlice src.h2SettingsOrder
    h3Settings := src.h3Settings.map fun (k, v) => (goString k, v)
    h3SettingsOrder := cStrSlice src.h3SettingsOrder
    h3PseudoHeaderOrder := cStrSlice src.h3PseudoHeaderOrder
    headerPriority := src.headerPriority
    certCompressionAlgos := cStrSlice src.certCompressionAlgos
    ja3String := goString src.ja3String
    keyShareCurves := cStrSlice src.keyShareCurves
    alpnProtocols := cStrSlice src.alpnProtocols
    alpsProtocols := cStrSlice src.alpsProtocols
    echCandidatePayloads := src.echCandidatePayloads
    echCandidateCipherSuites := src.echCandidateCipherSuites.map fun suite =>
      (goString suite.kdfId, goString suite.aeadId)
    priorityFrames := src.priorityFrames
    pseudoHeaderOrder := cStrSlice src.pseudoHeaderOrder
    supportedDelegatedCredentialsAlgorithms := cStrSlice src.supportedDelegatedCredentialsAlgorithms
    supportedSignatureAlgorithms := cStrSlice src.supportedSignatureAlgorithms
    supportedVersions := cStrSlice src.supportedVersions
    connectionFlow := src.connectionFlow
    recordSizeLimit := src.recordSizeLimit
    streamId := src.streamId
    h3PriorityParam := src.h3PriorityParam
    h3SendGreaseFrames := src.h3SendGreaseFrames
    allowHttp := src.allowHttp
    trustAnchorsPayload := goString src.trustAnchorsPayload }

/-- `strings.Split(s, "; ")`; `part` holds the bytes of the current part, last one first. -/
def splitPairs (part : Bytes) : Bytes → List Bytes
  | [] => [part.reverse]
  | 59 :: 32 :: rest => part.reverse :: splitPairs [] rest
  | b :: rest => splitPairs (b :: part) rest

/-- The cookie crumble: a single `Cookie` header becomes one header a cookie. -/
def crumbleCookies (headers : SortedMap Bytes (List Bytes)) : SortedMap Bytes (List Bytes) :=
  match headers.lookup (utf8 "Cookie") with
  | some [cv] =>
    let pairs := splitPairs [] cv
    if pairs.length > 1 then headers.set (utf8 "Cookie") pairs else headers
  | _ => headers

/-- `requestConfigFromOptions`; the body is borrowed or copied, with the same bytes. -/
def requestConfigFromOptions (opts : C.RequestOptions) : RequestConfig :=
  { method := goString opts.method
    url := goString opts.url
    body := opts.body
    proxy := goString opts.proxy
    clientIdentifier := goString opts.clientIdentifier
    timeoutSeconds := opts.timeoutSeconds
    timeoutMilliseconds := opts.timeoutMilliseconds
    followRedirects := opts.followRedirects != 0
    insecureSkipVerify := opts.insecureSkipVerify != 0
    forceHttp1 := opts.forceHttp1 != 0
    withRandomTLSExtOrder := opts.withRandomTlsExtensionOrder != 0
    withProtocolRacing := opts.withProtocolRacing != 0
    serverNameOverwrite := goString opts.serverNameOverwrite
    requestHostOverride := goString opts.requestHostOverride
    localAddress := goString opts.localAddress
    maxIdleConns := opts.maxIdleConnections
    maxIdleConnsPerHost := opts.maxIdleConnectionsPerHost
    maxConnsPerHost := opts.maxConnectionsPerHost
    maxResponseHeaderBytes := opts.maxResponseHeaderBytes
    writeBufferSize := opts.writeBufferSize
    readBufferSize := opts.readBufferSize
    idleConnTimeoutSeconds := opts.idleConnTimeoutSeconds
    disableKeepAlives := opts.disableKeepAlives != 0
    disableCompression := opts.disableCompression != 0
    allowEmptyCookies := opts.allowEmptyCookies != 0
    disableHTTP3 := opts.disableHttp3 != 0
    disableIPv4 := opts.disableIpv4 != 0
    disableIPv6 := opts.disableIpv6 != 0
    tcpTTL := opts.tcpTtl
    tcpWindowSize := opts.tcpWindowSize
    tcpWindowScale := opts.tcpWindowScale
    tcpMSS := opts.tcpMss
    tcpDontFragment := opts.tcpDontFragment
    tcpTOS := opts.tcpTos
    tcpNoDelay := opts.tcpNoDelay
    tcpWindowClamp := opts.tcpWindowClamp
    tcpIPIDMode := goString opts.tcpIpIdMode
    extensionPermuteMode := opts.extensionPermuteMode
    extensionPermutePrefix := opts.extensionPermutePrefix
    headerOrderByDest := opts.headerOrderByDest != 0
    headerOrderDest := goString opts.headerOrderDest
    h2DisablePriorityFrames := opts.h2DisablePriorityFrames != 0
    withoutCookieJar := opts.withoutCookieJar != 0
    catchPanics := opts.catchPanics != 0
    withDebug := opts.withDebug != 0
    withDefaultBadPinHandler := opts.withDefaultBadPinHandler != 0
    headers :=
      let headers := cHeadersToHTTP opts.headers
      if opts.cookieCrumb ≠ 0 then crumbleCookies headers else headers
    headerOrder := cStrSlice opts.headerOrder
    pseudoHeaderOrder := cStrSlice opts.pseudoHeaderOrder
    h3PseudoHeaderOrder := cStrSlice opts.h3PseudoHeaderOrder
    defaultHeaders := cHeadersToHTTP opts.defaultHeaders
    connectHeaders := cHeadersToHTTP opts.connectHeaders
    certificatePinningHosts := cPinsToMap opts.certificatePinningHosts
    requestCookies := opts.requestCookies.map fun c => (goString c.key, goString c.value)
    clientCertPEMs := opts.clientCertificates.map fun c => (c.certPem, c.keyPem)
    customTLSClient := opts.customTlsClient.map deepCopyCustomTLSClient
    cacheKeyHash := goString opts.cacheKeyHash
    disableSessionTickets := opts.disableSessionTickets != 0
    tlsKeylogPath := goString opts.tlsKeylogPath
    rootCAPEM := opts.rootCaPem
    h2MaxDataFrameSize := opts.h2MaxDataFrameSize
    prefacePingIdleMs := opts.prefacePingIdleMs
    hpackIndexingPol := goString opts.hpackIndexingPolicy }

end TlsClient.Engine
