import TlsClient.Python.Options
import TlsClient.Library.Utf8
import TlsClient.Library.SortedMap

/-!
# The cache key of the Python layer

Embeds `_compute_cache_key_hash` of `src/tls_client/_core.py` in format version 5: the bytes it feeds to
SHA-256, part by part in the order of the source. Of the custom TLS client it formats values as Python
prints them, so a `bool` comes out as `True` or `False` and a `None` as `None`.
-/

namespace TlsClient.Python

open TlsClient.Ffi Utf8

/-- `str(v)`. -/
def PyInt.str : PyInt → Bytes
  | .int n => itoa n
  | .bool b => utf8 (if b then "True" else "False")

/-- `f"{d.get(key, 0)}"`. -/
def strInt (v : Option PyInt) : Bytes :=
  (v.map PyInt.str).getD (utf8 "0")

/-- `f"{d.get(key, '')}"`. -/
def DictField.str : DictField String → Bytes
  | .missing => []
  | .none => utf8 "None"
  | .value s => utf8 s

/-- `v or ""`. -/
def strOrEmpty (v : Option String) : Bytes :=
  utf8 (v.getD "")

/-- A 0 or 1. -/
def strFlag (b : Bool) : Bytes :=
  itoa (if b then 1 else 0)

def Resolved.mainText (r : Resolved) : Bytes :=
  List.intercalate (utf8 "|")
    [strOrEmpty r.clientIdentifier, strOrEmpty r.proxy, strOrEmpty r.serverNameOverwrite,
      strOrEmpty r.localAddress, strFlag r.insecureSkipVerify, strFlag r.forceHttp1,
      strFlag r.withRandomTlsExtensionOrder, strFlag r.withProtocolRacing,
      itoa r.maxIdleConnections, itoa r.maxIdleConnectionsPerHost, itoa r.maxConnectionsPerHost,
      itoa r.maxResponseHeaderBytes, itoa r.writeBufferSize, itoa r.readBufferSize,
      itoa r.idleConnTimeoutSeconds, strFlag r.disableKeepAlives, strFlag r.disableCompression,
      strFlag r.disableHttp3, strFlag r.disableIpv4, strFlag r.disableIpv6, strFlag r.followRedirects,
      strFlag r.withoutCookieJar, strFlag r.allowEmptyCookies, strFlag r.withDefaultBadPinHandler,
      itoa r.timeoutSeconds, itoa r.timeoutMilliseconds,
      itoa r.tcpTtl, itoa r.tcpWindowSize, itoa r.tcpWindowScale, itoa r.tcpMss]

def Resolved.abi2Text (sha256 : Bytes → Bytes) (r : Resolved) : Bytes :=
  utf8 "|" ++ strFlag r.disableSessionTickets ++ utf8 "|" ++ strOrEmpty r.tlsKeylogPath ++
    (utf8 "|rc:" ++ if r.rootCaPem.getD [] ≠ [] then hexText (sha256 (r.rootCaPem.getD [])) else [])

def Resolved.h2Text (r : Resolved) : Bytes :=
  utf8 "|mdf=" ++ itoa r.h2MaxDataFrameSize ++ utf8 "|pp=" ++ itoa r.prefacePingIdleMs ++
    utf8 "|hip=" ++ strOrEmpty r.hpackIndexingPolicy

def Resolved.abi3Text (r : Resolved) : Bytes :=
  utf8 "|epm=" ++ itoa r.extensionPermuteMode ++ utf8 "|epp=" ++ itoa r.extensionPermutePrefix ++
    utf8 "|hdpf=" ++ strFlag r.h2DisablePriorityFrames ++ utf8 "|df=" ++ itoa r.tcpDontFragment ++
    utf8 "|tos=" ++ itoa r.tcpTos ++ utf8 "|nd=" ++ itoa r.tcpNoDelay ++
    utf8 "|wc=" ++ itoa r.tcpWindowClamp ++ utf8 "|ipid=" ++ strOrEmpty r.tcpIpIdMode

/-- A pseudo-header order; `mark` is `:` or `#`. -/
def orderText (mark : Bytes) (order : Option (List String)) : Bytes :=
  if order.getD [] ≠ [] then (order.getD []).flatMap fun s => mark ++ utf8 s
  else mark ++ utf8 "<default>"

/-- `sorted(d.items())`: the keys are distinct, so the values are never compared. -/
def sortedItems {ν : Type} (d : PyDict String ν) : List (String × ν) :=
  SortedMap.sortByKey d.items

/-- The headers by sorted key; `tag` is `~dh:` or `~ch:`. -/
def headersText (tag : Bytes) (headers : Option (PyDict String String)) : Bytes :=
  ((headers.map sortedItems).getD []).flatMap fun (k, v) => tag ++ utf8 k ++ utf8 "=" ++ utf8 v

def pinsText (pins : Option (PyDict String (List String))) : Bytes :=
  ((pins.map sortedItems).getD []).flatMap fun (host, pins) =>
    utf8 "^cp:" ++ utf8 host ++ utf8 "=" ++ pins.flatMap fun pin => utf8 pin ++ utf8 ","

/-- The client certificates; an empty PEM is hashed like any other. -/
def certsText (sha256 : Bytes → Bytes) (certs : Option (List ClientCertificate)) : Bytes :=
  (certs.getD []).flatMap fun cert =>
    utf8 "|cc:" ++ hexText (sha256 (cert.certPem.getD [])) ++
      (utf8 "|ck:" ++ hexText (sha256 (cert.keyPem.getD [])))

/-- One of the `str_arrays`. -/
def strArrayText (tag : Bytes) (arr : List String) : Bytes :=
  match arr with
  | [] => []
  | s :: rest => tag ++ utf8 s ++ rest.flatMap fun s => utf8 "," ++ utf8 s

def settingsText (tag : Bytes) (settings : PyDict String PyInt) : Bytes :=
  (sortedItems settings).flatMap fun (k, v) => tag ++ utf8 k ++ utf8 "=" ++ v.str

/-! ## Sorting the cipher suites

The key `(x.get("kdfId", ""), x.get("aeadId", ""))` may hold a `None`, which has no order: the tuples
compare by the first place where they differ, and a `None` there is a `TypeError`. A sort that puts two
such keys next to each other has compared them, and keys that cannot be compared with some others leave
no order that avoids it, so `sorted` raises exactly when two keys cannot be compared. -/

/-- `d.get(key, "")`, `none` for `None`. -/
def DictField.sortKey : DictField String → Option String
  | .missing => some ""
  | .none => Option.none
  | .value s => some s

/-- `a < b`, or `none` for the `TypeError`. -/
def strLess (a b : Option String) : Option Bool :=
  match a, b with
  | some a, some b => some (decide (a < b))
  | _, _ => none

/-- `not key(b) < key(a)`, or `none` for the `TypeError`. -/
def suiteLe (a b : CandidateCipherSuite) : Option Bool :=
  if a.kdfId.sortKey ≠ b.kdfId.sortKey then (strLess b.kdfId.sortKey a.kdfId.sortKey).map not
  else if a.aeadId.sortKey ≠ b.aeadId.sortKey then
    (strLess b.aeadId.sortKey a.aeadId.sortKey).map not
  else some true

/-- `sorted(ech_suites, key=…)`. -/
def sortedSuites (suites : List CandidateCipherSuite) : Except PyError (List CandidateCipherSuite) :=
  if ∀ a ∈ suites, ∀ b ∈ suites, suiteLe a b ≠ none then
    .ok (suites.insertionSort fun a b => suiteLe a b = some true)
  else .error .typeError

def suiteText (s : CandidateCipherSuite) : Bytes :=
  utf8 "|echcs:" ++ s.kdfId.str ++ utf8 "," ++ s.aeadId.str

/-- `{streamDep},{exclusive},{weight}`. -/
def PriorityParam.str (p : PriorityParam) : Bytes :=
  strInt p.streamDep ++ utf8 "," ++ strFlag p.exclusive ++ utf8 "," ++ strInt p.weight

def framesText (frames : List PriorityFrame) : Bytes :=
  frames.flatMap fun pf => utf8 "|pf:" ++ strInt pf.streamID ++ utf8 "," ++ pf.priorityParam.str

def headerPriorityText (hp : Option PriorityParam) : Bytes :=
  match hp with
  | some hp => if hp.truthy then utf8 "|hp:" ++ hp.str else []
  | none => []

/-- The custom TLS client, with its suites sorted. -/
def CustomTlsClient.text (ctc : CustomTlsClient) (suites : List CandidateCipherSuite) : Bytes :=
  utf8 "|ja3=" ++ ctc.ja3String.str ++ utf8 "|cf=" ++ strInt ctc.connectionFlow ++
    utf8 "|rsl=" ++ strInt ctc.recordSizeLimit ++ utf8 "|sid=" ++ strInt ctc.streamId ++
    utf8 "|h3pp=" ++ strInt ctc.h3PriorityParam ++ utf8 "|h3sgf=" ++ strFlag ctc.h3SendGreaseFrames ++
    utf8 "|ah=" ++ strFlag ctc.allowHttp ++ utf8 "|ta=" ++ strOrEmpty ctc.trustAnchorsPayload ++
    strArrayText (utf8 "|h2so=") ctc.h2SettingsOrder ++
    strArrayText (utf8 "|h3so=") ctc.h3SettingsOrder ++
    strArrayText (utf8 "|h3ph=") ctc.h3PseudoHeaderOrder ++
    strArrayText (utf8 "|cca=") ctc.certCompressionAlgos ++
    strArrayText (utf8 "|ksc=") ctc.keyShareCurves ++
    strArrayText (utf8 "|alpn=") ctc.alpnProtocols ++
    strArrayText (utf8 "|alps=") ctc.alpsProtocols ++
    strArrayText (utf8 "|ph=") ctc.pseudoHeaderOrder ++
    strArrayText (utf8 "|sdca=") ctc.supportedDelegatedCredentialsAlgorithms ++
    strArrayText (utf8 "|ssa=") ctc.supportedSignatureAlgorithms ++
    strArrayText (utf8 "|sv=") ctc.supportedVersions ++
    settingsText (utf8 "|h2s:") ctc.h2Settings ++ settingsText (utf8 "|h3s:") ctc.h3Settings ++
    (ctc.echCandidatePayloads.flatMap fun pld => utf8 "|echp:" ++ pld.str) ++
    suites.flatMap suiteText ++ framesText ctc.priorityFrames ++ headerPriorityText ctc.headerPriority

def customText (ctc : Option CustomTlsClient) : Except PyError Bytes :=
  match ctc with
  | none => .ok []
  | some ctc =>
    if ctc.truthy then (sortedSuites ctc.echCandidateCipherSuites).map ctc.text else .ok []

/-- The bytes `_compute_cache_key_hash` hashes. -/
def computeCacheKeyPreimage (sha256 : Bytes → Bytes) (r : Resolved) : Except PyError Bytes :=
  (customText r.customTlsClient).map fun custom =>
    r.mainText ++ r.abi2Text sha256 ++ r.h2Text ++ r.abi3Text ++
      orderText (utf8 ":") r.pseudoHeaderOrder ++ orderText (utf8 "#") r.h3PseudoHeaderOrder ++
      headersText (utf8 "~dh:") r.defaultHeaders ++ headersText (utf8 "~ch:") r.connectHeaders ++
      pinsText r.certificatePinningHosts ++ certsText sha256 r.clientCertificates ++ custom

/-- `_compute_cache_key_hash`. -/
def computeCacheKeyHash (sha256 : Bytes → Bytes) (r : Resolved) : Except PyError Bytes :=
  (computeCacheKeyPreimage sha256 r).map fun preimage => hexText (sha256 preimage)

end TlsClient.Python
