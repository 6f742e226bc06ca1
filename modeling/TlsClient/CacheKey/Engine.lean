import TlsClient.Engine.Config

/-!
# The engine's cache key

Embeds `buildCacheKeyFromConfig` of `src/cffi_binding/main.go` in format version 5: the bytes it writes
into SHA-256 (`buildCacheKeyPreimage`), part by part in the order of the source, and the hexadecimal text
of the sum. SHA-256 is a parameter.
-/

namespace TlsClient.CacheKey

open TlsClient.Ffi TlsClient.Engine Utf8

/-- `b2i`. -/
def b2i (b : Bool) : ℤ :=
  if b then 1 else 0

/-- `|rc:%x`, `|cc:%x`, `|ck:%x`: a tag with the sum of data that may be missing. -/
def hexSum (sha256 : Bytes → Bytes) (data : Bytes) : Bytes :=
  hexText (sha256 data)

/-- The first `Fprintf`: four strings and 26 numbers. -/
def mainPart (cfg : ClientFields) : Bytes :=
  List.intercalate (utf8 "|")
    [cfg.clientIdentifier, cfg.proxy, cfg.serverNameOverwrite, cfg.localAddress,
      itoa (b2i cfg.insecureSkipVerify), itoa (b2i cfg.forceHttp1),
      itoa (b2i cfg.withRandomTLSExtOrder), itoa (b2i cfg.withProtocolRacing),
      itoa cfg.maxIdleConns, itoa cfg.maxIdleConnsPerHost, itoa cfg.maxConnsPerHost,
      itoa cfg.maxResponseHeaderBytes, itoa cfg.writeBufferSize, itoa cfg.readBufferSize,
      itoa cfg.idleConnTimeoutSeconds, itoa (b2i cfg.disableKeepAlives),
      itoa (b2i cfg.disableCompression), itoa (b2i cfg.disableHTTP3), itoa (b2i cfg.disableIPv4),
      itoa (b2i cfg.disableIPv6), itoa (b2i cfg.followRedirects), itoa (b2i cfg.withoutCookieJar),
      itoa (b2i cfg.allowEmptyCookies), itoa (b2i cfg.withDefaultBadPinHandler),
      itoa cfg.timeoutSeconds, itoa cfg.timeoutMilliseconds,
      itoa cfg.tcpTTL, itoa cfg.tcpWindowSize, itoa cfg.tcpWindowScale, itoa cfg.tcpMSS]

/-- The additions of format version 3. -/
def abi2Part (sha256 : Bytes → Bytes) (cfg : ClientFields) : Bytes :=
  utf8 "|" ++ itoa (b2i cfg.disableSessionTickets) ++ utf8 "|" ++ cfg.tlsKeylogPath ++
    (utf8 "|rc:" ++ if cfg.rootCAPEM ≠ [] then hexSum sha256 cfg.rootCAPEM else [])

/-- The additions of format version 4: the HTTP/2 knobs. -/
def h2Part (cfg : ClientFields) : Bytes :=
  utf8 "|mdf=" ++ itoa cfg.h2MaxDataFrameSize ++ utf8 "|pp=" ++ itoa cfg.prefacePingIdleMs ++
    utf8 "|hip=" ++ cfg.hpackIndexingPol

/-- The additions of format version 5: extension order, PRIORITY frames and TCP. -/
def abi3Part (cfg : ClientFields) : Bytes :=
  utf8 "|epm=" ++ itoa cfg.extensionPermuteMode ++ utf8 "|epp=" ++ itoa cfg.extensionPermutePrefix ++
    utf8 "|hdpf=" ++ itoa (b2i cfg.h2DisablePriorityFrames) ++ utf8 "|df=" ++ itoa cfg.tcpDontFragment ++
    utf8 "|tos=" ++ itoa cfg.tcpTOS ++ utf8 "|nd=" ++ itoa cfg.tcpNoDelay ++
    utf8 "|wc=" ++ itoa cfg.tcpWindowClamp ++ utf8 "|ipid=" ++ cfg.tcpIPIDMode

/-- A pseudo-header order; `mark` is `:` or `#`. -/
def orderPart (mark : Bytes) (order : List Bytes) : Bytes :=
  if order ≠ [] then order.flatMap fun s => mark ++ s else mark ++ utf8 "<default>"

/-- The headers by sorted key; `tag` is `~dh:` or `~ch:`. -/
def headersPart (tag : Bytes) (headers : SortedMap Bytes (List Bytes)) : Bytes :=
  headers.entries.flatMap fun (k, values) =>
    values.flatMap fun v => tag ++ k ++ utf8 "=" ++ v

/-- The certificate pins by sorted host. -/
def pinsPart (hosts : SortedMap Bytes (List Bytes)) : Bytes :=
  hosts.entries.flatMap fun (host, pins) =>
    utf8 "^cp:" ++ host ++ utf8 "=" ++ pins.flatMap fun p => p ++ utf8 ","

/-- The client certificates; an empty PEM is left out. -/
def certsPart (sha256 : Bytes → Bytes) (certs : List (Bytes × Bytes)) : Bytes :=
  certs.flatMap fun (certPEM, keyPEM) =>
    (if certPEM ≠ [] then utf8 "|cc:" ++ hexSum sha256 certPEM else []) ++
      (if keyPEM ≠ [] then utf8 "|ck:" ++ hexSum sha256 keyPEM else [])

/-- `hashStringArray`. -/
def hashStringArray (arr : List Bytes) (tag : Bytes) : Bytes :=
  match arr with
  | [] => []
  | s :: rest => tag ++ s ++ rest.flatMap fun s => utf8 "," ++ s

/-- A settings map by sorted key; keys are distinct, so that `sort.Slice` need not be stable. -/
def settingsPart (tag : Bytes) (settings : List (Bytes × ℤ)) : Bytes :=
  (SortedMap.sortByKey settings).flatMap fun (k, v) => tag ++ k ++ utf8 "=" ++ itoa v

/-- The ECH cipher suites in the order of `kdfId`, then `aeadId`. -/
def sortSuites (suites : List (Bytes × Bytes)) : List (Bytes × Bytes) :=
  suites.insertionSort fun a b => a.1 < b.1 ∨ a.1 = b.1 ∧ a.2 ≤ b.2

def suitesPart (suites : List (Bytes × Bytes)) : Bytes :=
  (sortSuites suites).flatMap fun (kdfId, aeadId) => utf8 "|echcs:" ++ kdfId ++ utf8 "," ++ aeadId

/-- `%d,%d,%d` of a priority. -/
def priorityText (p : C.PriorityParam) : Bytes :=
  itoa p.streamDep ++ utf8 "," ++ itoa p.exclusive ++ utf8 "," ++ itoa p.weight

def framesPart (frames : List C.PriorityFrame) : Bytes :=
  frames.flatMap fun pf =>
    utf8 "|pf:" ++ itoa pf.streamID ++ utf8 "," ++ priorityText pf.priorityParam

def headerPriorityPart (hp : Option C.PriorityParam) : Bytes :=
  match hp with
  | some hp => utf8 "|hp:" ++ priorityText hp
  | none => []

/-- The fields of a custom TLS client. -/
def customFields (ctc : CustomTLSClient) : Bytes :=
  utf8 "|ja3=" ++ ctc.ja3String ++ utf8 "|cf=" ++ itoa ctc.connectionFlow ++
    utf8 "|rsl=" ++ itoa ctc.recordSizeLimit ++ utf8 "|sid=" ++ itoa ctc.streamId ++
    utf8 "|h3pp=" ++ itoa ctc.h3PriorityParam ++ utf8 "|h3sgf=" ++ itoa ctc.h3SendGreaseFrames ++
    utf8 "|ah=" ++ itoa ctc.allowHttp ++ utf8 "|ta=" ++ ctc.trustAnchorsPayload ++
    hashStringArray ctc.h2SettingsOrder (utf8 "|h2so=") ++
    hashStringArray ctc.h3SettingsOrder (utf8 "|h3so=") ++
    hashStringArray ctc.h3PseudoHeaderOrder (utf8 "|h3ph=") ++
    hashStringArray ctc.certCompressionAlgos (utf8 "|cca=") ++
    hashStringArray ctc.keyShareCurves (utf8 "|ksc=") ++
    hashStringArray ctc.alpnProtocols (utf8 "|alpn=") ++
    hashStringArray ctc.alpsProtocols (utf8 "|alps=") ++
    hashStringArray ctc.pseudoHeaderOrder (utf8 "|ph=") ++
    hashStringArray ctc.supportedDelegatedCredentialsAlgorithms (utf8 "|sdca=") ++
    hashStringArray ctc.supportedSignatureAlgorithms (utf8 "|ssa=") ++
    hashStringArray ctc.supportedVersions (utf8 "|sv=") ++
    settingsPart (utf8 "|h2s:") ctc.h2Settings ++ settingsPart (utf8 "|h3s:") ctc.h3Settings ++
    (ctc.echCandidatePayloads.flatMap fun pld => utf8 "|echp:" ++ itoa pld) ++
    suitesPart ctc.echCandidateCipherSuites ++ framesPart ctc.priorityFrames ++
    headerPriorityPart ctc.headerPriority

def customPart (ctc : Option CustomTLSClient) : Bytes :=
  match ctc with
  | some ctc => customFields ctc
  | none => []

/-- The bytes `buildCacheKeyFromConfig` hashes. -/
def buildCacheKeyPreimage (sha256 : Bytes → Bytes) (cfg : ClientFields) : Bytes :=
  mainPart cfg ++ abi2Part sha256 cfg ++ h2Part cfg ++ abi3Part cfg ++
    orderPart (utf8 ":") cfg.pseudoHeaderOrder ++ orderPart (utf8 "#") cfg.h3PseudoHeaderOrder ++
    headersPart (utf8 "~dh:") cfg.defaultHeaders ++ headersPart (utf8 "~ch:") cfg.connectHeaders ++
    pinsPart cfg.certificatePinningHosts ++ certsPart sha256 cfg.clientCertPEMs ++
    customPart cfg.customTLSClient

/-- `buildCacheKeyFromConfig`. -/
def buildCacheKeyFromConfig (sha256 : Bytes → Bytes) (cfg : RequestConfig) : Bytes :=
  hexText (sha256 (buildCacheKeyPreimage sha256 cfg.toClientFields))

end TlsClient.CacheKey
