import TlsClient.Ffi.Values

/-!
# The C structs of a request

The structs of the preamble of `src/cffi_binding/main.go` that carry a request to the engine, with the
names of their fields in camel case. An array and its length field are one list, and the two arrays of
keys and values of a settings map are one list of pairs. Of the streaming fields none is here.
-/

namespace TlsClient.Ffi

/-- A `const char*`: null, or the buffer up to the NUL that closes it. -/
abbrev CharPtr := Option Bytes

/-- `C.GoString`: it stops at the first NUL. -/
def goString : CharPtr → Bytes
  | none => []
  | some buffer => buffer.takeWhile (· ≠ 0)

@[simp] theorem goString_none : goString none = [] := rfl

namespace C

structure HttpHeader where
  key : CharPtr
  value : CharPtr
deriving DecidableEq, Repr

structure PinEntry where
  host : CharPtr
  pins : List CharPtr
deriving DecidableEq, Repr

/-- The PEM buffers come with a length, so a NUL does not end them. -/
structure ClientCertificate where
  certPem : Bytes
  keyPem : Bytes
deriving DecidableEq, Repr

structure CandidateCipherSuite where
  kdfId : CharPtr
  aeadId : CharPtr
deriving DecidableEq, Repr

structure PriorityParam where
  streamDep : ℤ
  exclusive : ℤ
  weight : ℤ
deriving DecidableEq, Repr

structure PriorityFrame where
  priorityParam : PriorityParam
  streamID : ℤ
deriving DecidableEq, Repr

structure CustomTlsClient where
  h2Settings : List (CharPtr × ℤ)
  h2SettingsOrder : List CharPtr
  h3Settings : List (CharPtr × ℤ)
  h3SettingsOrder : List CharPtr
  h3PseudoHeaderOrder : List CharPtr
  headerPriority : Option PriorityParam
  certCompressionAlgos : List CharPtr
  ja3String : CharPtr
  keyShareCurves : List CharPtr
  alpnProtocols : List CharPtr
  alpsProtocols : List CharPtr
  echCandidatePayloads : List ℤ
  echCandidateCipherSuites : List CandidateCipherSuite
  priorityFrames : List PriorityFrame
  pseudoHeaderOrder : List CharPtr
  supportedDelegatedCredentialsAlgorithms : List CharPtr
  supportedSignatureAlgorithms : List CharPtr
  supportedVersions : List CharPtr
  connectionFlow : ℤ
  recordSizeLimit : ℤ
  streamId : ℤ
  h3PriorityParam : ℤ
  h3SendGreaseFrames : ℤ
  allowHttp : ℤ
  trustAnchorsPayload : CharPtr
deriving DecidableEq, Repr

structure RequestOptions where
  method : CharPtr
  url : CharPtr
  body : Bytes
  proxy : CharPtr
  clientIdentifier : CharPtr
  headers : List HttpHeader
  headerOrder : List CharPtr
  pseudoHeaderOrder : List CharPtr
  h3PseudoHeaderOrder : List CharPtr
  timeoutSeconds : ℤ
  timeoutMilliseconds : ℤ
  followRedirects : ℤ
  insecureSkipVerify : ℤ
  forceHttp1 : ℤ
  withRandomTlsExtensionOrder : ℤ
  withProtocolRacing : ℤ
  serverNameOverwrite : CharPtr
  requestHostOverride : CharPtr
  localAddress : CharPtr
  maxIdleConnections : ℤ
  maxIdleConnectionsPerHost : ℤ
  maxConnectionsPerHost : ℤ
  maxResponseHeaderBytes : ℤ
  writeBufferSize : ℤ
  readBufferSize : ℤ
  idleConnTimeoutSeconds : ℤ
  disableKeepAlives : ℤ
  disableCompression : ℤ
  allowEmptyCookies : ℤ
  disableHttp3 : ℤ
  disableIpv4 : ℤ
  disableIpv6 : ℤ
  tcpTtl : ℤ
  tcpWindowSize : ℤ
  tcpWindowScale : ℤ
  tcpMss : ℤ
  withoutCookieJar : ℤ
  catchPanics : ℤ
  withDebug : ℤ
  defaultHeaders : List HttpHeader
  connectHeaders : List HttpHeader
  certificatePinningHosts : List PinEntry
  withDefaultBadPinHandler : ℤ
  requestCookies : List HttpHeader
  clientCertificates : List ClientCertificate
  customTlsClient : Option CustomTlsClient
  cacheKeyHash : CharPtr
  disableSessionTickets : ℤ
  tlsKeylogPath : CharPtr
  rootCaPem : Bytes
  h2MaxDataFrameSize : ℤ
  prefacePingIdleMs : ℤ
  hpackIndexingPolicy : CharPtr
  cookieCrumb : ℤ
  extensionPermuteMode : ℤ
  extensionPermutePrefix : ℤ
  h2DisablePriorityFrames : ℤ
  headerOrderByDest : ℤ
  headerOrderDest : CharPtr
  tcpDontFragment : ℤ
  tcpTos : ℤ
  tcpNoDelay : ℤ
  tcpWindowClamp : ℤ
  tcpIpIdMode : CharPtr
deriving DecidableEq, Repr

/-- The C integer types of the fields. -/
inductive IntType where
  | int
  | unsignedInt
  | unsignedShort
  | unsignedChar
  | unsignedLongLong
deriving DecidableEq, Repr

/-- The values cffi stores without an `OverflowError`. -/
def IntType.fits : IntType → ℤ → Bool
  | .int, n => -2 ^ 31 ≤ n && n < 2 ^ 31
  | .unsignedInt, n => 0 ≤ n && n < 2 ^ 32
  | .unsignedShort, n => 0 ≤ n && n < 2 ^ 16
  | .unsignedChar, n => 0 ≤ n && n < 2 ^ 8
  | .unsignedLongLong, n => 0 ≤ n && n < 2 ^ 64

end C

end TlsClient.Ffi
