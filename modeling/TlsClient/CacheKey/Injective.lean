import Mathlib.Data.Bool.AllAny
import TlsClient.CacheKey.Engine
import TlsClient.Library.Tagged

/-!
# What the cache key tells apart

`buildCacheKeyFromConfig` writes values and tags one after the other and escapes nothing. The pre-image
is the text of a fixed schema of tagged fields (`preimage_eq_render`), so it determines the values as long
as none of them contains a tag that can come right after it: `Separable` spells that out for the fields of
a config, with the further separators inside a header, a pin set and a list. Two separable configs that
hash alike agree on every field the key covers (`keyed_eq_of_preimage_eq`).

Without it there are collisions: `exists_collision_of_bar` moves a `|` of a value to the end of a field.
-/

namespace TlsClient.CacheKey

open TlsClient.Ffi TlsClient.Engine Tagged Utf8

/-! ## The schema -/

def one (tag : String) : Tagged.Field UInt8 := ⟨utf8 tag, .one, 0⟩

def many (tag : String) : Tagged.Field UInt8 := ⟨utf8 tag, .many, 0⟩

def customSchema : List (Tagged.Field UInt8) :=
  ["|ja3=", "|cf=", "|rsl=", "|sid=", "|h3pp=", "|h3sgf=", "|ah=", "|ta=", "|h2so=", "|h3so=",
    "|h3ph=", "|cca=", "|ksc=", "|alpn=", "|alps=", "|ph=", "|sdca=", "|ssa=", "|sv=", "|h2s:",
    "|h3s:", "|echp:", "|echcs:", "|pf:", "|hp:"].map many

def certSchema : List (Tagged.Field UInt8) := many "|cc:" :: customSchema

def pinSchema : List (Tagged.Field UInt8) := many "^cp:" :: certSchema

def connectSchema : List (Tagged.Field UInt8) := many "~ch:" :: pinSchema

def headerSchema : List (Tagged.Field UInt8) := many "~dh:" :: connectSchema

/-- The first element of an order is always there, as `<default>` if need be. -/
def h3OrderSchema : List (Tagged.Field UInt8) := one "#" :: many "#" :: headerSchema

/-- Elements of the HTTP/2 order start with a colon of their own. -/
def orderSchema : List (Tagged.Field UInt8) :=
  ⟨utf8 ":", .one, 1⟩ :: ⟨utf8 ":", .many, 1⟩ :: h3OrderSchema

def knobSchema : List (Tagged.Field UInt8) :=
  one "|" :: one "|rc:" :: one "|mdf=" :: one "|pp=" :: one "|hip=" :: one "|epm=" :: one "|epp=" ::
    one "|hdpf=" :: one "|df=" :: one "|tos=" :: one "|nd=" :: one "|wc=" :: one "|ipid=" :: orderSchema

def schema : List (Tagged.Field UInt8) :=
  one "" :: one "|" :: one "|" :: one "|" :: (List.replicate 27 (one "|") ++ knobSchema)

theorem wellFormed_schema : WellFormed schema := by decide +kernel

/-! ## The bodies -/

/-- The numbers of the first `Fprintf`, and the one after them. -/
def numbers (cfg : ClientFields) : List ℤ :=
  [b2i cfg.insecureSkipVerify, b2i cfg.forceHttp1, b2i cfg.withRandomTLSExtOrder,
    b2i cfg.withProtocolRacing, cfg.maxIdleConns, cfg.maxIdleConnsPerHost, cfg.maxConnsPerHost,
    cfg.maxResponseHeaderBytes, cfg.writeBufferSize, cfg.readBufferSize, cfg.idleConnTimeoutSeconds,
    b2i cfg.disableKeepAlives, b2i cfg.disableCompression, b2i cfg.disableHTTP3,
    b2i cfg.disableIPv4, b2i cfg.disableIPv6, b2i cfg.followRedirects, b2i cfg.withoutCookieJar,
    b2i cfg.allowEmptyCookies, b2i cfg.withDefaultBadPinHandler, cfg.timeoutSeconds,
    cfg.timeoutMilliseconds, cfg.tcpTTL, cfg.tcpWindowSize, cfg.tcpWindowScale, cfg.tcpMSS,
    b2i cfg.disableSessionTickets]

def rootBody (sha256 : Bytes → Bytes) (pem : Bytes) : Bytes :=
  if pem ≠ [] then hexSum sha256 pem else []

def orderHead : List Bytes → Bytes
  | [] => utf8 "<default>"
  | s :: _ => s

def headerBody (item : Bytes × Bytes) : Bytes :=
  item.1 ++ utf8 "=" ++ item.2

def pinBody (entry : Bytes × List Bytes) : Bytes :=
  entry.1 ++ utf8 "=" ++ entry.2.flatMap fun p => p ++ utf8 ","

def certBody (sha256 : Bytes → Bytes) (cert : Bytes × Bytes) : Bytes :=
  hexSum sha256 cert.1 ++ utf8 "|ck:" ++ hexSum sha256 cert.2

def arrayBodies : List Bytes → List Bytes
  | [] => []
  | s :: rest => [s ++ rest.flatMap fun s => utf8 "," ++ s]

def settingBodies (settings : List (Bytes × ℤ)) : List Bytes :=
  (SortedMap.sortByKey settings).map fun item => item.1 ++ utf8 "=" ++ itoa item.2

def suiteBody (suite : Bytes × Bytes) : Bytes :=
  suite.1 ++ utf8 "," ++ suite.2

def frameBody (pf : C.PriorityFrame) : Bytes :=
  itoa pf.streamID ++ utf8 "," ++ priorityText pf.priorityParam

def customBodies (ctc : CustomTLSClient) : List (List Bytes) :=
  [[ctc.ja3String], [itoa ctc.connectionFlow], [itoa ctc.recordSizeLimit], [itoa ctc.streamId],
    [itoa ctc.h3PriorityParam], [itoa ctc.h3SendGreaseFrames], [itoa ctc.allowHttp],
    [ctc.trustAnchorsPayload], arrayBodies ctc.h2SettingsOrder, arrayBodies ctc.h3SettingsOrder,
    arrayBodies ctc.h3PseudoHeaderOrder, arrayBodies ctc.certCompressionAlgos,
    arrayBodies ctc.keyShareCurves, arrayBodies ctc.alpnProtocols, arrayBodies ctc.alpsProtocols,
    arrayBodies ctc.pseudoHeaderOrder, arrayBodies ctc.supportedDelegatedCredentialsAlgorithms,
    arrayBodies ctc.supportedSignatureAlgorithms, arrayBodies ctc.supportedVersions,
    settingBodies ctc.h2Settings, settingBodies ctc.h3Settings, ctc.echCandidatePayloads.map itoa,
    (sortSuites ctc.echCandidateCipherSuites).map suiteBody, ctc.priorityFrames.map frameBody,
    (ctc.headerPriority.map priorityText).toList]

/-- A config without a custom TLS client leaves the fields of the schema empty. -/
def customBodiesOf (ctc : Option CustomTLSClient) : List (List Bytes) :=
  match ctc with
  | some ctc => customBodies ctc
  | none => List.replicate 25 []

def listBodies (sha256 : Bytes → Bytes) (cfg : ClientFields) : List (List Bytes) :=
  [orderHead cfg.pseudoHeaderOrder] :: cfg.pseudoHeaderOrder.tail ::
    [orderHead cfg.h3PseudoHeaderOrder] :: cfg.h3PseudoHeaderOrder.tail ::
    cfg.defaultHeaders.flat.map headerBody :: cfg.connectHeaders.flat.map headerBody ::
    cfg.certificatePinningHosts.entries.map pinBody :: cfg.clientCertPEMs.map (certBody sha256) ::
    customBodiesOf cfg.customTLSClient

def knobBodies (sha256 : Bytes → Bytes) (cfg : ClientFields) : List (List Bytes) :=
  [cfg.tlsKeylogPath] :: [rootBody sha256 cfg.rootCAPEM] :: [itoa cfg.h2MaxDataFrameSize] ::
    [itoa cfg.prefacePingIdleMs] :: [cfg.hpackIndexingPol] :: [itoa cfg.extensionPermuteMode] ::
    [itoa cfg.extensionPermutePrefix] :: [itoa (b2i cfg.h2DisablePriorityFrames)] ::
    [itoa cfg.tcpDontFragment] :: [itoa cfg.tcpTOS] :: [itoa cfg.tcpNoDelay] ::
    [itoa cfg.tcpWindowClamp] :: [cfg.tcpIPIDMode] :: listBodies sha256 cfg

def bodies (sha256 : Bytes → Bytes) (cfg : ClientFields) : List (List Bytes) :=
  [cfg.clientIdentifier] :: [cfg.proxy] :: [cfg.serverNameOverwrite] :: [cfg.localAddress] ::
    ((numbers cfg).map (fun n => [itoa n]) ++ knobBodies sha256 cfg)

end TlsClient.CacheKey

namespace TlsClient.Engine

open TlsClient.Ffi TlsClient.CacheKey Tagged Utf8

/-- The bytes that separate the parts of one value. -/
def comma : UInt8 := 44

def equals : UInt8 := 61

/-- The lists of strings of the custom TLS client. -/
def CustomTLSClient.arrays (ctc : CustomTLSClient) : List (List Bytes) :=
  [ctc.h2SettingsOrder, ctc.h3SettingsOrder, ctc.h3PseudoHeaderOrder, ctc.certCompressionAlgos,
    ctc.keyShareCurves, ctc.alpnProtocols, ctc.alpsProtocols, ctc.pseudoHeaderOrder,
    ctc.supportedDelegatedCredentialsAlgorithms, ctc.supportedSignatureAlgorithms,
    ctc.supportedVersions]

/-- No value of the custom TLS client contains a tag that can follow it, and no list element or `kdfId` a
comma. -/
structure CustomTLSClient.Separable (ctc : CustomTLSClient) : Prop where
  values : Fits customSchema (customBodies ctc)
  lists : ∀ arr ∈ ctc.arrays, ∀ s ∈ arr, comma ∉ s
  suites : ∀ suite ∈ ctc.echCandidateCipherSuites, comma ∉ suite.1

/-- No value of the config contains a tag that can come right after it, or a further separator of its
part, and no value is one that the encoding leaves out or puts in for a missing one. -/
structure ClientFields.Separable (cfg : ClientFields) : Prop where
  clientIdentifier : Free [utf8 "|"] 0 cfg.clientIdentifier
  proxy : Free [utf8 "|"] 0 cfg.proxy
  serverNameOverwrite : Free [utf8 "|"] 0 cfg.serverNameOverwrite
  localAddress : Free [utf8 "|"] 0 cfg.localAddress
  tlsKeylogPath : Free [utf8 "|rc:"] 0 cfg.tlsKeylogPath
  hpackIndexingPol : Free [utf8 "|epm="] 0 cfg.hpackIndexingPol
  tcpIPIDMode : Free [utf8 ":"] 0 cfg.tcpIPIDMode
  /-- from the second byte on, as the first is a colon -/
  pseudoHeaderOrder : ∀ s ∈ cfg.pseudoHeaderOrder, Free [utf8 ":", utf8 "#"] 1 s
  pseudoHeaderOrder_ne : cfg.pseudoHeaderOrder ≠ [utf8 "<default>"]
  h3PseudoHeaderOrder : ∀ s ∈ cfg.h3PseudoHeaderOrder, Free (utf8 "#" :: first headerSchema) 0 s
  h3PseudoHeaderOrder_ne : cfg.h3PseudoHeaderOrder ≠ [utf8 "<default>"]
  defaultHeaders : ∀ item ∈ cfg.defaultHeaders.flat,
    equals ∉ item.1 ∧ Free (first headerSchema) 0 (headerBody item)
  defaultHeaders_ne : ∀ entry ∈ cfg.defaultHeaders.entries, entry.2 ≠ []
  connectHeaders : ∀ item ∈ cfg.connectHeaders.flat,
    equals ∉ item.1 ∧ Free (first connectSchema) 0 (headerBody item)
  connectHeaders_ne : ∀ entry ∈ cfg.connectHeaders.entries, entry.2 ≠ []
  certificatePinningHosts : ∀ entry ∈ cfg.certificatePinningHosts.entries,
    equals ∉ entry.1 ∧ (∀ p ∈ entry.2, comma ∉ p) ∧ Free (first pinSchema) 0 (pinBody entry)
  clientCertPEMs : ∀ cert ∈ cfg.clientCertPEMs, cert.1 ≠ [] ∧ cert.2 ≠ []
  customTLSClient : ∀ ctc ∈ cfg.customTLSClient, ctc.Separable

end TlsClient.Engine

namespace TlsClient.CacheKey

open TlsClient.Ffi TlsClient.Engine Tagged Utf8

/-! ## The pre-image is the text of the schema -/

/-- A field that repeats is its tag before each of its bodies. -/
theorem renderField_many (tag : String) (bs : List Bytes) :
    renderField (many tag) bs = bs.flatMap fun b => utf8 tag ++ b := rfl

/-- A string array is rendered as `hashStringArray` writes it. -/
theorem renderField_arrayBodies (tag : String) (arr : List Bytes) :
    renderField (many tag) (arrayBodies arr) = hashStringArray arr (utf8 tag) := by
  cases arr with
  | nil => rfl
  | cons s rest => simp [renderField_many, arrayBodies, hashStringArray]

/-- The header priority is rendered as the encoder writes it. -/
theorem renderField_headerPriority (hp : Option C.PriorityParam) :
    renderField (many "|hp:") (hp.map priorityText).toList = headerPriorityPart hp := by
  cases hp <;> simp [renderField_many, headerPriorityPart]

/-- The part of a custom client is a rendering of its bodies. -/
theorem customFields_eq_render (ctc : CustomTLSClient) :
    customFields ctc = render customSchema (customBodies ctc) := by
  unfold customFields customSchema customBodies
  simp only [render, List.map_cons, List.map_nil, renderField_arrayBodies, renderField_headerPriority]
  simp only [renderField_many, List.flatMap_cons, List.flatMap_nil, List.append_nil, List.append_assoc,
    settingsPart, settingBodies, suitesPart, suiteBody, framesPart, frameBody, List.flatMap_map]

/-- So is the part of an optional custom client. -/
theorem customPart_eq_render (ctc : Option CustomTLSClient) :
    customPart ctc = render customSchema (customBodiesOf ctc) := by
  cases ctc with
  | none => rfl
  | some ctc => exact customFields_eq_render ctc

/-- An order is written as its head and the rest, each behind the mark. -/
theorem orderPart_eq (mark : Bytes) (order : List Bytes) :
    orderPart mark order = mark ++ orderHead order ++ order.tail.flatMap fun s => mark ++ s := by
  cases order with
  | nil => simp [orderPart, orderHead]
  | cons s order => simp [orderPart, orderHead]

/-- Headers are written one line after another, each behind the tag. -/
theorem headersPart_eq_flatMap (tag : Bytes) (headers : SortedMap Bytes (List Bytes)) :
    headersPart tag headers = (headers.flat.map headerBody).flatMap fun b => tag ++ b := by
  simp [headersPart, SortedMap.flat, headerBody, List.flatMap_assoc, List.flatMap_map]

/-- Certificates that are not empty are written one after another, each behind the tag. -/
theorem certsPart_eq_flatMap (sha256 : Bytes → Bytes) {certs : List (Bytes × Bytes)}
    (hne : ∀ cert ∈ certs, cert.1 ≠ [] ∧ cert.2 ≠ []) :
    certsPart sha256 certs = (certs.map (certBody sha256)).flatMap fun b => utf8 "|cc:" ++ b := by
  rw [certsPart, List.flatMap_map]
  refine List.flatMap_congr fun cert hcert => ?_
  obtain ⟨h1, h2⟩ := hne cert hcert
  simp [h1, h2, certBody]

/-- A run of numbers, each behind a bar. -/
theorem render_numbers (ns : List ℤ) :
    render (List.replicate ns.length (one "|")) (ns.map fun n => [itoa n]) =
      ns.flatMap fun n => utf8 "|" ++ itoa n := by
  induction ns with
  | nil => rfl
  | cons n ns ih =>
    rw [List.length_cons, List.replicate_succ, List.map_cons, render, ih, List.flatMap_cons]
    simp [renderField, one]

/-- The first part together with the number after it. -/
theorem mainPart_append (cfg : ClientFields) :
    mainPart cfg ++ (utf8 "|" ++ itoa (b2i cfg.disableSessionTickets)) =
      cfg.clientIdentifier ++ utf8 "|" ++ cfg.proxy ++ utf8 "|" ++ cfg.serverNameOverwrite ++
        utf8 "|" ++ cfg.localAddress ++ (numbers cfg).flatMap fun n => utf8 "|" ++ itoa n := by
  unfold mainPart numbers
  simp only [List.intercalate, List.intersperse, List.flatten_cons, List.flatten_nil,
    List.flatMap_cons, List.flatMap_nil, List.append_nil, List.append_assoc]

/-- The parts of the lists are a rendering of their bodies. -/
theorem render_listBodies (sha256 : Bytes → Bytes) {cfg : ClientFields}
    (hcerts : ∀ cert ∈ cfg.clientCertPEMs, cert.1 ≠ [] ∧ cert.2 ≠ []) :
    render orderSchema (listBodies sha256 cfg) =
      orderPart (utf8 ":") cfg.pseudoHeaderOrder ++ orderPart (utf8 "#") cfg.h3PseudoHeaderOrder ++
        headersPart (utf8 "~dh:") cfg.defaultHeaders ++
        headersPart (utf8 "~ch:") cfg.connectHeaders ++ pinsPart cfg.certificatePinningHosts ++
        certsPart sha256 cfg.clientCertPEMs ++ customPart cfg.customTLSClient := by
  have hpins : pinsPart cfg.certificatePinningHosts =
      (cfg.certificatePinningHosts.entries.map pinBody).flatMap fun b => utf8 "^cp:" ++ b := by
    simp [pinsPart, pinBody, List.flatMap_map]
  rw [orderPart_eq, orderPart_eq, headersPart_eq_flatMap, headersPart_eq_flatMap, hpins,
    certsPart_eq_flatMap sha256 hcerts, customPart_eq_render]
  unfold orderSchema h3OrderSchema headerSchema connectSchema pinSchema certSchema listBodies
  simp only [render, renderField, one, many, List.flatMap_cons, List.flatMap_nil, List.append_nil,
    List.append_assoc]

/-- The bytes that are hashed are a rendering of the config's bodies. -/
theorem preimage_eq_render (sha256 : Bytes → Bytes) {cfg : ClientFields}
    (hcerts : ∀ cert ∈ cfg.clientCertPEMs, cert.1 ≠ [] ∧ cert.2 ≠ []) :
    buildCacheKeyPreimage sha256 cfg = render schema (bodies sha256 cfg) := by
  have hlists := render_listBodies sha256 hcerts
  have hnumbers : render (List.replicate 27 (one "|") ++ knobSchema)
      ((numbers cfg).map (fun n => [itoa n]) ++ knobBodies sha256 cfg) =
        ((numbers cfg).flatMap fun n => utf8 "|" ++ itoa n) ++
          render knobSchema (knobBodies sha256 cfg) := by
    rw [render_append (by simp [numbers]), ← render_numbers]
    rfl
  -- the pieces of the text in the order the source writes them
  have hmain := mainPart_append cfg
  have hpreimage : buildCacheKeyPreimage sha256 cfg =
      (mainPart cfg ++ (utf8 "|" ++ itoa (b2i cfg.disableSessionTickets))) ++
        (utf8 "|" ++ cfg.tlsKeylogPath ++ (utf8 "|rc:" ++ rootBody sha256 cfg.rootCAPEM) ++
          h2Part cfg ++ abi3Part cfg ++ render orderSchema (listBodies sha256 cfg)) := by
    rw [hlists]
    unfold buildCacheKeyPreimage abi2Part
    simp only [List.append_assoc]
    rfl
  -- the part behind the flags is one run of single fields
  have hknobs : render knobSchema (knobBodies sha256 cfg) =
      utf8 "|" ++ cfg.tlsKeylogPath ++ (utf8 "|rc:" ++ rootBody sha256 cfg.rootCAPEM) ++
        h2Part cfg ++ abi3Part cfg ++ render orderSchema (listBodies sha256 cfg) := by
    unfold h2Part abi3Part knobSchema knobBodies
    simp only [render, renderField, one, List.flatMap_cons, List.flatMap_nil, List.append_nil,
      List.append_assoc]
  rw [hpreimage, hmain, ← hknobs]
  unfold schema bodies
  simp only [render]
  rw [hnumbers]
  simp only [renderField, one, utf8_empty, List.nil_append, List.flatMap_cons, List.flatMap_nil,
    List.append_nil, List.append_assoc]

/-! ## Separable values fit the schema -/

/-- The letters with which the tags start. -/
def marks : List UInt8 := utf8 "|:#~^"

/-- A number holds no tag. -/
theorem free_itoa {tags : List Bytes} (htags : ∀ τ ∈ tags, ∃ d ∈ marks, d ∈ τ) (n : ℤ) :
    Free tags 0 (itoa n) := by
  refine free_of_notMem htags fun d hd hmem => ?_
  have hmarks : ∀ d ∈ marks, ¬ (48 ≤ d.toNat ∧ d.toNat ≤ 57) ∧ d ≠ 45 :=
    List.all_iff_forall_prop.mp (by decide)
  rcases isDigit_or_sign_of_mem_itoa hmem with hdigit | hsign
  · exact (hmarks d hd).1 hdigit
  · exact (hmarks d hd).2 hsign

/-- Hexadecimal text holds none of the marks. -/
theorem notMem_hexText {d : UInt8} (hd : d ∈ marks) (bs : Bytes) : d ∉ hexText bs := by
  have hmarks : ∀ d ∈ marks, ¬ (48 ≤ d.toNat ∧ d.toNat ≤ 57) ∧ ¬ (97 ≤ d.toNat ∧ d.toNat ≤ 102) :=
    List.all_iff_forall_prop.mp (by decide)
  intro hmem
  rcases hexDigit_of_mem_hexText hmem with hdigit | hletter
  · exact (hmarks d hd).1 hdigit
  · exact (hmarks d hd).2 hletter

/-- Neither does the digest of the root certificates. -/
theorem free_rootBody {tags : List Bytes} (htags : ∀ τ ∈ tags, ∃ d ∈ marks, d ∈ τ)
    (sha256 : Bytes → Bytes) (pem : Bytes) : Free tags 0 (rootBody sha256 pem) := by
  refine free_of_notMem htags fun d hd => ?_
  rw [rootBody]
  split_ifs
  · exact notMem_hexText hd _
  · simp

/-- The only bar in the text of a certificate starts `|ck:`. -/
theorem free_certBody (sha256 : Bytes → Bytes) (cert : Bytes × Bytes) :
    Free (utf8 "|cc:" :: first customSchema) 0 (certBody sha256 cert) := by
  have htags : ∀ τ ∈ utf8 "|cc:" :: first customSchema,
      τ.head? = some 124 ∧ 2 ≤ τ.tail.length ∧ τ.tail.take 2 ≠ [99, 107] := by decide +kernel
  have hbar : (124 : UInt8) ∈ marks := by decide
  refine ⟨Nat.zero_le _, fun τ hτ hin => ?_⟩
  obtain ⟨hhead, hlen, htake⟩ := htags τ hτ
  obtain ⟨t, rfl⟩ : ∃ t, τ = 124 :: t := by
    cases τ with
    | nil => simp at hhead
    | cons c t => exact ⟨t, by rw [Option.some.inj hhead]⟩
  obtain ⟨a, b, heq⟩ := hin
  have hbody : hexSum sha256 cert.1 ++ 124 :: (99 :: 107 :: 58 :: hexSum sha256 cert.2) =
      a ++ 124 :: (t ++ b) := by
    have hck : utf8 "|ck:" = [124, 99, 107, 58] := by decide
    simpa [certBody, hck] using heq.symm
  -- a hash is hexadecimal, so the only bar of the body is the one before `ck`
  have hrest : (124 : UInt8) ∉ 99 :: 107 :: 58 :: hexSum sha256 cert.2 := by
    simpa [hexSum] using notMem_hexText hbar (sha256 cert.2)
  obtain ⟨-, -, htail⟩ :=
    (List.append_cons_inj_of_notMem (notMem_hexText hbar (sha256 cert.1)) hrest).mp hbody
  refine htake ?_
  have htwo : t.take 2 = (t ++ b).take 2 := (List.take_append_of_le_length hlen).symm
  show t.take 2 = [99, 107]
  rw [htwo, ← htail]
  rfl

/-- Numbers fit their fields. -/
theorem fits_numbers {fields : List (Tagged.Field UInt8)} {bs : List (List Bytes)}
    (hfirst : first fields = [utf8 "|"]) (hrest : Fits fields bs) (ns : List ℤ) :
    Fits (List.replicate ns.length (one "|") ++ fields) (ns.map (fun n => [itoa n]) ++ bs) := by
  have hmark : ∀ τ ∈ [utf8 "|"], ∃ d ∈ marks, d ∈ τ := by decide
  have hbar : ∀ k, first (List.replicate k (one "|") ++ fields) = [utf8 "|"] := by
    intro k
    cases k with
    | zero => exact hfirst
    | succ k => rfl
  induction ns with
  | nil => exact hrest
  | cons n ns ih =>
    have hfree : Free (first (List.replicate ns.length (one "|") ++ fields)) 0 (itoa n) := by
      rw [hbar]
      exact free_itoa hmark n
    exact fits_one hfree ih

/-- The bodies of a separable custom client fit their fields. -/
theorem fits_customBodies {ctc : Option CustomTLSClient} (hsep : ∀ c ∈ ctc, c.Separable) :
    Fits customSchema (customBodiesOf ctc) := by
  cases ctc with
  | none => decide
  | some c => exact (hsep c rfl).values

/-- The elements of an order are free of what follows, also when the default stands for them. -/
theorem free_orderHead {tags : List Bytes} {skip : ℕ} {order : List Bytes}
    (hdefault : Free tags skip (utf8 "<default>")) (helems : ∀ s ∈ order, Free tags skip s) :
    Free tags skip (orderHead order) ∧ ∀ s ∈ order.tail, Free tags skip s := by
  refine ⟨?_, fun s hs => helems s (List.mem_of_mem_tail hs)⟩
  cases order with
  | nil => exact hdefault
  | cons s order => exact helems s List.mem_cons_self

/-- The bodies of the lists of a separable config fit their fields. -/
theorem fits_listBodies (sha256 : Bytes → Bytes) {cfg : ClientFields} (hsep : cfg.Separable) :
    Fits orderSchema (listBodies sha256 cfg) := by
  have horder := free_orderHead (by decide) hsep.pseudoHeaderOrder
  have hh3 := free_orderHead (by decide +kernel) hsep.h3PseudoHeaderOrder
  refine fits_one horder.1 <| fits_many horder.2 <| fits_one hh3.1 <| fits_many hh3.2 <|
    fits_many ?_ <| fits_many ?_ <| fits_many ?_ <| fits_many ?_ <|
      fits_customBodies hsep.customTLSClient
  · intro body hbody
    obtain ⟨item, hitem, rfl⟩ := List.mem_map.mp hbody
    exact (hsep.defaultHeaders item hitem).2
  · intro body hbody
    obtain ⟨item, hitem, rfl⟩ := List.mem_map.mp hbody
    exact (hsep.connectHeaders item hitem).2
  · intro body hbody
    obtain ⟨entry, hentry, rfl⟩ := List.mem_map.mp hbody
    exact (hsep.certificatePinningHosts entry hentry).2.2
  · intro body hbody
    obtain ⟨cert, -, rfl⟩ := List.mem_map.mp hbody
    exact free_certBody sha256 cert

/-- The bodies of a separable config fit the whole schema. -/
theorem fits_bodies (sha256 : Bytes → Bytes) {cfg : ClientFields} (hsep : cfg.Separable) :
    Fits schema (bodies sha256 cfg) := by
  refine fits_one hsep.clientIdentifier <| fits_one hsep.proxy <|
    fits_one hsep.serverNameOverwrite <| fits_one hsep.localAddress <|
      fits_numbers rfl ?_ (numbers cfg)
  refine fits_one hsep.tlsKeylogPath <| fits_one (free_rootBody (by decide) _ _) <|
    fits_one (free_itoa (by decide) _) <| fits_one (free_itoa (by decide) _) <|
    fits_one hsep.hpackIndexingPol <| fits_one (free_itoa (by decide) _) <|
    fits_one (free_itoa (by decide) _) <| fits_one (free_itoa (by decide) _) <|
    fits_one (free_itoa (by decide) _) <| fits_one (free_itoa (by decide) _) <|
    fits_one (free_itoa (by decide) _) <| fits_one (free_itoa (by decide) _) <|
    fits_one hsep.tcpIPIDMode <| fits_listBodies sha256 hsep

/-! ## Equal bodies are equal values -/

theorem b2i_inj {a b : Bool} (heq : b2i a = b2i b) : a = b := by
  revert heq
  cases a <;> cases b <;> decide

/-- An order is read back from its head and the rest, unless it is the one that the default is written as. -/
theorem order_inj {order order' : List Bytes} (hne : order ≠ [utf8 "<default>"])
    (hne' : order' ≠ [utf8 "<default>"]) (hhead : orderHead order = orderHead order')
    (htail : order.tail = order'.tail) : order = order' := by
  cases order with
  | nil =>
    cases order' with
    | nil => rfl
    | cons s order' =>
      have hdefault : s = utf8 "<default>" := hhead.symm
      have hnil : order' = [] := htail.symm
      exact absurd (by rw [hdefault, hnil]) hne'
  | cons s order =>
    cases order' with
    | nil =>
      have hdefault : s = utf8 "<default>" := hhead
      have hnil : order = [] := htail
      exact absurd (by rw [hdefault, hnil]) hne
    | cons s' order' => rw [show s = s' from hhead, show order = order' from htail]

/-- A header line is read back where its name has no equals sign. -/
theorem headerBody_inj {a b : Bytes × Bytes} (ha : equals ∉ a.1) (hb : equals ∉ b.1)
    (heq : headerBody a = headerBody b) : a = b := by
  have hsign : utf8 "=" = [equals] := by decide
  simp only [headerBody, hsign, List.append_assoc, List.singleton_append] at heq
  obtain ⟨h1, h2⟩ := split_first ha hb heq
  exact Prod.ext h1 h2

/-- A pinned host and its pins are read back where neither holds a delimiter. -/
theorem pinBody_inj {a b : Bytes × List Bytes} (ha : equals ∉ a.1) (hb : equals ∉ b.1)
    (hpa : ∀ p ∈ a.2, comma ∉ p) (hpb : ∀ p ∈ b.2, comma ∉ p) (heq : pinBody a = pinBody b) :
    a = b := by
  have hsign : utf8 "=" = [equals] := by decide
  have hcomma : utf8 "," = [comma] := by decide
  simp only [pinBody, hsign, hcomma, List.append_assoc, List.singleton_append] at heq
  obtain ⟨h1, h2⟩ := split_first ha hb heq
  exact Prod.ext h1 (flatMap_terminated_inj hpa hpb h2)

/-- Certificates of one body are the same. -/
theorem certBody_inj {sha256 : Bytes → Bytes} (hsha : Function.Injective sha256)
    {a b : Bytes × Bytes} (heq : certBody sha256 a = certBody sha256 b) : a = b := by
  have hbar : (124 : UInt8) ∈ marks := by decide
  have hck : utf8 "|ck:" = [124, 99, 107, 58] := by decide
  simp only [certBody, hck, List.append_assoc, List.cons_append, List.nil_append] at heq
  obtain ⟨h1, h2⟩ := split_first (notMem_hexText hbar _) (notMem_hexText hbar _) heq
  simp only [List.cons.injEq, true_and] at h2
  exact Prod.ext (hsha (hexText_injective h1)) (hsha (hexText_injective h2))

/-- Root certificates of one body are the same. -/
theorem rootBody_inj {sha256 : Bytes → Bytes} (hsha : Function.Injective sha256)
    (hne : ∀ b, sha256 b ≠ []) {a b : Bytes} (heq : rootBody sha256 a = rootBody sha256 b) : a = b := by
  have hsum : ∀ x, hexSum sha256 x ≠ [] := by
    intro x hnil
    have hlen := length_hexText (sha256 x)
    rw [show hexText (sha256 x) = [] from hnil, List.length_nil] at hlen
    exact hne x (List.length_eq_zero_iff.mp (by omega))
  rw [rootBody, rootBody] at heq
  split_ifs at heq with ha hb hb
  · exact hsha (hexText_injective heq)
  · exact absurd heq (hsum a)
  · exact absurd heq.symm (hsum b)
  · rw [not_not.mp ha, not_not.mp hb]

/-- A string array is read back where no string has a comma. -/
theorem arrayBodies_inj {arr arr' : List Bytes} (ha : ∀ s ∈ arr, comma ∉ s)
    (ha' : ∀ s ∈ arr', comma ∉ s) (heq : arrayBodies arr = arrayBodies arr') : arr = arr' := by
  have hcomma : utf8 "," = [comma] := by decide
  cases arr with
  | nil =>
    cases arr' with
    | nil => rfl
    | cons s' rest' => simp [arrayBodies] at heq
  | cons s rest =>
    cases arr' with
    | nil => simp [arrayBodies] at heq
    | cons s' rest' =>
      simp only [arrayBodies, hcomma, List.singleton_append, List.cons.injEq, and_true] at heq
      obtain ⟨hs, hrest⟩ := List.forall_mem_cons.mp ha
      obtain ⟨hs', hrest'⟩ := List.forall_mem_cons.mp ha'
      obtain ⟨h1, h2⟩ := separated_inj hs hs' hrest hrest' heq
      rw [h1, h2]

/-- A number has digits and a sign only. -/
theorem notMem_itoa {d : UInt8} (hd : ¬ (48 ≤ d.toNat ∧ d.toNat ≤ 57) ∧ d ≠ 45) (n : ℤ) :
    d ∉ itoa n := by
  intro hmem
  rcases isDigit_or_sign_of_mem_itoa hmem with hdigit | hsign
  · exact hd.1 hdigit
  · exact hd.2 hsign

/-- The value of a setting is what follows its last `=`. -/
theorem settingBodies_inj {settings settings' : List (Bytes × ℤ)}
    (heq : settingBodies settings = settingBodies settings') :
    SortedMap.sortByKey settings = SortedMap.sortByKey settings' := by
  refine List.map_injective_iff.mpr ?_ heq
  intro a b hab
  have hsign : utf8 "=" = [equals] := by decide
  simp only [hsign, List.append_assoc, List.singleton_append] at hab
  obtain ⟨h1, h2⟩ := split_last (notMem_itoa (by decide) _) (notMem_itoa (by decide) _) hab
  exact Prod.ext h1 (itoa_injective h2)

/-- An ECH suite is read back where no part has a comma. -/
theorem suiteBody_inj {a b : Bytes × Bytes} (ha : comma ∉ a.1) (hb : comma ∉ b.1)
    (heq : suiteBody a = suiteBody b) : a = b := by
  have hcomma : utf8 "," = [comma] := by decide
  simp only [suiteBody, hcomma, List.append_assoc, List.singleton_append] at heq
  obtain ⟨h1, h2⟩ := split_first ha hb heq
  exact Prod.ext h1 h2

/-- A priority is read back from its text. -/
theorem priorityText_inj {p q : C.PriorityParam} (heq : priorityText p = priorityText q) : p = q := by
  have hcomma : utf8 "," = [comma] := by decide
  have hitoa : ∀ n : ℤ, comma ∉ itoa n := notMem_itoa (by decide)
  simp only [priorityText, hcomma, List.append_assoc, List.singleton_append] at heq
  obtain ⟨h1, hrest⟩ := split_first (hitoa _) (hitoa _) heq
  obtain ⟨h2, h3⟩ := split_first (hitoa _) (hitoa _) hrest
  obtain ⟨d, e, w⟩ := p
  obtain ⟨d', e', w'⟩ := q
  rw [C.PriorityParam.mk.injEq]
  exact ⟨itoa_injective h1, itoa_injective h2, itoa_injective h3⟩

/-- A priority frame is read back from its text. -/
theorem frameBody_inj {a b : C.PriorityFrame} (heq : frameBody a = frameBody b) : a = b := by
  have hcomma : utf8 "," = [comma] := by decide
  have hitoa : ∀ n : ℤ, comma ∉ itoa n := notMem_itoa (by decide)
  simp only [frameBody, hcomma, List.append_assoc, List.singleton_append] at heq
  obtain ⟨h1, h2⟩ := split_first (hitoa _) (hitoa _) heq
  obtain ⟨p, n⟩ := a
  obtain ⟨p', n'⟩ := b
  rw [C.PriorityFrame.mk.injEq]
  exact ⟨priorityText_inj h2, itoa_injective h1⟩

/-- Lists with equal texts are equal, where the text determines the element. -/
theorem map_inj_on {α β : Type} {f : α → β} {xs ys : List α}
    (hf : ∀ x ∈ xs, ∀ y ∈ ys, f x = f y → x = y) (heq : xs.map f = ys.map f) : xs = ys := by
  induction xs generalizing ys with
  | nil =>
    cases ys with
    | nil => rfl
    | cons y ys => simp at heq
  | cons x xs ih =>
    cases ys with
    | nil => simp at heq
    | cons y ys =>
      obtain ⟨hhead, htail⟩ := List.cons.inj heq
      rw [hf x List.mem_cons_self y List.mem_cons_self hhead,
        ih (fun a ha b hb => hf a (List.mem_cons_of_mem _ ha) b (List.mem_cons_of_mem _ hb)) htail]

/-- So is a priority that may be missing. -/
theorem priorityBodies_inj {p q : Option C.PriorityParam}
    (heq : (p.map priorityText).toList = (q.map priorityText).toList) : p = q := by
  cases p with
  | none =>
    cases q with
    | none => rfl
    | some q => simp at heq
  | some p =>
    cases q with
    | none => simp at heq
    | some q =>
      have htext : priorityText p = priorityText q := by simpa using heq
      rw [priorityText_inj htext]

/-- Two clients do not list the same ECH cipher suites in different orders: the key sorts them. -/
def SameSuiteOrder (c d : ClientFields) : Prop :=
  ∀ s ∈ c.customTLSClient, ∀ t ∈ d.customTLSClient,
    s.echCandidateCipherSuites.Perm t.echCandidateCipherSuites →
      s.echCandidateCipherSuites = t.echCandidateCipherSuites

/-- Separable custom clients of the same bodies have the same keyed fields. -/
theorem customBodies_inj {s t : CustomTLSClient} (hs : s.Separable) (ht : t.Separable)
    (horder : s.echCandidateCipherSuites.Perm t.echCandidateCipherSuites →
      s.echCandidateCipherSuites = t.echCandidateCipherSuites)
    (heq : customBodies s = customBodies t) : s.keyed = t.keyed := by
  unfold customBodies at heq
  simp only [List.cons.injEq, and_true, itoa_inj] at heq
  obtain ⟨h1, h2, h3, h4, h5, h6, h7, h8, h9, h10, h11, h12, h13, h14, h15, h16, h17, h18, h19, h20,
    h21, h22, h23, h24, h25⟩ := heq
  -- what is written is the sorted list; `horder` recovers the order the suites came in
  have hsort : sortSuites s.echCandidateCipherSuites = sortSuites t.echCandidateCipherSuites := by
    have hperm : ∀ suites, (sortSuites suites).Perm suites := fun suites => List.perm_insertionSort _ _
    refine map_inj_on (f := suiteBody) (fun a ha b hb => ?_) h23
    exact suiteBody_inj (hs.suites a ((hperm _).mem_iff.mp ha)) (ht.suites b ((hperm _).mem_iff.mp hb))
  have hsuites := horder (((List.perm_insertionSort _ _).symm.trans (.of_eq hsort)).trans
    (List.perm_insertionSort _ _))
  -- the eleven list fields share one encoding, so they are compared together
  have harrays : s.arrays = t.arrays := by
    refine map_inj_on (f := arrayBodies) (fun a ha b hb => ?_) ?_
    · exact arrayBodies_inj (hs.lists a ha) (ht.lists b hb)
    · simp only [CustomTLSClient.arrays, List.map_cons, List.map_nil, List.cons.injEq, and_true]
      exact ⟨h9, h10, h11, h12, h13, h14, h15, h16, h17, h18, h19⟩
  simp only [CustomTLSClient.arrays, List.cons.injEq, and_true] at harrays
  obtain ⟨ha1, ha2, ha3, ha4, ha5, ha6, ha7, ha8, ha9, ha10, ha11⟩ := harrays
  exact CustomTLSClient.ext (settingBodies_inj h20) ha1 (settingBodies_inj h21) ha2 ha3
    (priorityBodies_inj h25) ha4 h1 ha5 ha6 ha7 (List.map_injective_iff.mpr itoa_injective h22)
    hsuites (List.map_injective_iff.mpr (fun _ _ => frameBody_inj) h24) ha8 ha9 ha10 ha11 h2 h3 h4 h5
    h6 h7 h8

/-- The same for custom clients that may be missing. -/
theorem customBodiesOf_inj {c d : ClientFields} (hc : ∀ s ∈ c.customTLSClient, s.Separable)
    (hd : ∀ t ∈ d.customTLSClient, t.Separable) (horder : SameSuiteOrder c d)
    (heq : customBodiesOf c.customTLSClient = customBodiesOf d.customTLSClient) :
    c.customTLSClient.map CustomTLSClient.keyed = d.customTLSClient.map CustomTLSClient.keyed := by
  -- a client always has a JA3 body, and no client has none
  have hhead : ∀ s : CustomTLSClient, customBodies s ≠ List.replicate 25 [] := by
    intro s hs
    simp [customBodies, List.replicate] at hs
  cases hs : c.customTLSClient with
  | none =>
    cases ht : d.customTLSClient with
    | none => rfl
    | some t =>
      rw [hs, ht] at heq
      exact absurd heq.symm (hhead t)
  | some s =>
    cases ht : d.customTLSClient with
    | none =>
      rw [hs, ht] at heq
      exact absurd heq (hhead s)
    | some t =>
      rw [hs, ht] at heq
      rw [Option.map_some, Option.map_some,
        customBodies_inj (hc s hs) (hd t ht) (horder s hs t ht) heq]

/-- All fields but the custom TLS client can be read off the bodies. -/
theorem fields_eq_of_bodies_eq {sha256 : Bytes → Bytes} (hsha : Function.Injective sha256)
    (hne : ∀ b, sha256 b ≠ []) {c d : ClientFields} (hc : c.Separable) (hd : d.Separable)
    (heq : bodies sha256 c = bodies sha256 d) :
    { c with customTLSClient := none } = { d with customTLSClient := none } ∧
      customBodiesOf c.customTLSClient = customBodiesOf d.customTLSClient := by
  unfold bodies at heq
  simp only [List.cons.injEq, and_true] at heq
  obtain ⟨hci, hpx, hsn, hla, hrest⟩ := heq
  obtain ⟨hns, hknobs⟩ := List.append_inj hrest (by simp [numbers])
  -- field by field in the order of the text: numbers, knobs, then the lists
  have hnumbers : numbers c = numbers d :=
    List.map_injective_iff.mpr (fun _ _ h => itoa_injective (List.cons.inj h).1) hns
  unfold numbers at hnumbers
  simp only [List.cons.injEq, and_true] at hnumbers
  obtain ⟨n1, n2, n3, n4, n5, n6, n7, n8, n9, n10, n11, n12, n13, n14, n15, n16, n17, n18, n19, n20,
    n21, n22, n23, n24, n25, n26, n27⟩ := hnumbers
  unfold knobBodies at hknobs
  simp only [List.cons.injEq, and_true, itoa_inj] at hknobs
  obtain ⟨k1, k2, k3, k4, k5, k6, k7, k8, k9, k10, k11, k12, k13, hlists⟩ := hknobs
  unfold listBodies at hlists
  simp only [List.cons.injEq, and_true] at hlists
  obtain ⟨l1, l2, l3, l4, l5, l6, l7, l8, hcustom⟩ := hlists
  -- from here on the collections, whose bodies repeat a tag once for each entry
  have hheaders : c.defaultHeaders = d.defaultHeaders :=
    SortedMap.ext_flat hc.defaultHeaders_ne hd.defaultHeaders_ne <| map_inj_on (fun a ha b hb =>
      headerBody_inj (hc.defaultHeaders a ha).1 (hd.defaultHeaders b hb).1) l5
  have hconnect : c.connectHeaders = d.connectHeaders :=
    SortedMap.ext_flat hc.connectHeaders_ne hd.connectHeaders_ne <| map_inj_on (fun a ha b hb =>
      headerBody_inj (hc.connectHeaders a ha).1 (hd.connectHeaders b hb).1) l6
  have hpins : c.certificatePinningHosts = d.certificatePinningHosts :=
    SortedMap.ext <| map_inj_on (fun a ha b hb =>
      pinBody_inj (hc.certificatePinningHosts a ha).1 (hd.certificatePinningHosts b hb).1
        (hc.certificatePinningHosts a ha).2.1 (hd.certificatePinningHosts b hb).2.1) l7
  have hcerts : c.clientCertPEMs = d.clientCertPEMs :=
    List.map_injective_iff.mpr (fun _ _ => certBody_inj hsha) l8
  refine ⟨ClientFields.ext hci hpx hsn hla (b2i_inj n1) (b2i_inj n2) (b2i_inj n3) (b2i_inj n4) n5 n6 n7
    n8 n9 n10 n11 (b2i_inj n12) (b2i_inj n13) (b2i_inj n14) (b2i_inj n15) (b2i_inj n16) (b2i_inj n17)
    (b2i_inj n18) (b2i_inj n19) (b2i_inj n20) n21 n22 n23 n24 n25 n26 (b2i_inj n27) k1
    (rootBody_inj hsha hne k2) k3 k4 k5 k6 k7 (b2i_inj k8) k9 k10 k11 k12 k13
    (order_inj hc.pseudoHeaderOrder_ne hd.pseudoHeaderOrder_ne l1 l2)
    (order_inj hc.h3PseudoHeaderOrder_ne hd.h3PseudoHeaderOrder_ne l3 l4) hheaders hconnect hpins
    hcerts rfl, hcustom⟩

/-- Separable configs of the same bodies have the same keyed fields. -/
theorem keyed_eq_of_bodies_eq {sha256 : Bytes → Bytes} (hsha : Function.Injective sha256)
    (hne : ∀ b, sha256 b ≠ []) {c d : ClientFields} (hc : c.Separable) (hd : d.Separable)
    (horder : SameSuiteOrder c d) (heq : bodies sha256 c = bodies sha256 d) : c.keyed = d.keyed := by
  obtain ⟨hfields, hcustom⟩ := fields_eq_of_bodies_eq hsha hne hc hd heq
  have hclient := customBodiesOf_inj hc.customTLSClient hd.customTLSClient horder hcustom
  show { ({ c with customTLSClient := none } : ClientFields) with
      customTLSClient := c.customTLSClient.map CustomTLSClient.keyed } = d.keyed
  rw [hfields, hclient]
  rfl

/-- Separable configs that hash the same bytes agree on every field that the key covers. -/
theorem keyed_eq_of_preimage_eq {sha256 : Bytes → Bytes} (hsha : Function.Injective sha256)
    (hne : ∀ b, sha256 b ≠ []) {c d : ClientFields} (hc : c.Separable) (hd : d.Separable)
    (horder : SameSuiteOrder c d)
    (heq : buildCacheKeyPreimage sha256 c = buildCacheKeyPreimage sha256 d) : c.keyed = d.keyed := by
  rw [preimage_eq_render sha256 hc.clientCertPEMs, preimage_eq_render sha256 hd.clientCertPEMs] at heq
  exact keyed_eq_of_bodies_eq hsha hne hc hd horder
    (render_injective wellFormed_schema (fits_bodies sha256 hc) (fits_bodies sha256 hd) heq)

/-- Without a word on the order of the ECH cipher suites, all other fields agree. -/
theorem fields_eq_of_preimage_eq {sha256 : Bytes → Bytes} (hsha : Function.Injective sha256)
    (hne : ∀ b, sha256 b ≠ []) {c d : ClientFields} (hc : c.Separable) (hd : d.Separable)
    (heq : buildCacheKeyPreimage sha256 c = buildCacheKeyPreimage sha256 d) :
    { c with customTLSClient := none } = { d with customTLSClient := none } := by
  rw [preimage_eq_render sha256 hc.clientCertPEMs, preimage_eq_render sha256 hd.clientCertPEMs] at heq
  exact (fields_eq_of_bodies_eq hsha hne hc hd
    (render_injective wellFormed_schema (fits_bodies sha256 hc) (fits_bodies sha256 hd) heq)).1

/-- Separable configs that differ in a field the key covers hash different bytes. -/
theorem preimage_ne_of_keyed_ne {sha256 : Bytes → Bytes} (hsha : Function.Injective sha256)
    (hne : ∀ b, sha256 b ≠ []) {c d : ClientFields} (hc : c.Separable) (hd : d.Separable)
    (horder : SameSuiteOrder c d) (hdiff : c.keyed ≠ d.keyed) :
    buildCacheKeyPreimage sha256 c ≠ buildCacheKeyPreimage sha256 d :=
  fun heq => hdiff (keyed_eq_of_preimage_eq hsha hne hc hd horder heq)

/-- A config with a pseudo-header order, a default header, a pin and the given proxy. -/
def proxyConfig (proxy : Bytes) : ClientFields :=
  { clientIdentifier := utf8 "chrome_146"
    proxy := proxy
    pseudoHeaderOrder := [utf8 ":method", utf8 ":path"]
    defaultHeaders := .pushAll [(utf8 "Accept", utf8 "text/html;q=0.9")]
    certificatePinningHosts := .setAll [(utf8 "a.com", [utf8 "cGlu"])] }

/-- A config without values is separable. -/
theorem separable_proxyConfig_nil : (proxyConfig []).Separable where
  clientIdentifier := by decide
  proxy := by decide
  serverNameOverwrite := by decide
  localAddress := by decide
  tlsKeylogPath := by decide
  hpackIndexingPol := by decide
  tcpIPIDMode := by decide
  pseudoHeaderOrder := by decide
  pseudoHeaderOrder_ne := by decide
  h3PseudoHeaderOrder := by simp [proxyConfig]
  h3PseudoHeaderOrder_ne := by decide
  defaultHeaders := by decide +kernel
  defaultHeaders_ne := by decide
  connectHeaders := by simp [proxyConfig, SortedMap.flat]
  connectHeaders_ne := by simp [proxyConfig]
  certificatePinningHosts := by decide +kernel
  clientCertPEMs := by simp [proxyConfig]
  customTLSClient := by simp [proxyConfig]

/-- A config with a proxy is separable where the proxy has no bar. -/
theorem separable_proxyConfig {proxy : Bytes} (hproxy : Free [utf8 "|"] 0 proxy) :
    (proxyConfig proxy).Separable :=
  { separable_proxyConfig_nil with proxy := hproxy }

/-- A proxy changes the bytes that are hashed. -/
theorem preimage_ne_of_keyed_ne_proxy :
    buildCacheKeyPreimage (fun b => 1 :: b) (proxyConfig (utf8 "http://p:8080")) ≠
      buildCacheKeyPreimage (fun b => 1 :: b) (proxyConfig []) :=
  preimage_ne_of_keyed_ne (fun _ _ h => (List.cons.inj h).2) (fun _ => List.cons_ne_nil _ _)
    (separable_proxyConfig (by decide)) (separable_proxyConfig (by decide))
    (by simp [SameSuiteOrder, proxyConfig]) (by decide)

/-! ## Collisions -/

/-- Only the first four fields of the text of the first part are read here. -/
theorem preimage_congr (sha256 : Bytes → Bytes) (cfg : ClientFields) {a b c d a' b' c' d' : Bytes}
    (heq : List.intercalate (utf8 "|") [a, b, c, d] = List.intercalate (utf8 "|") [a', b', c', d']) :
    buildCacheKeyPreimage sha256
        { cfg with clientIdentifier := a, proxy := b, serverNameOverwrite := c, localAddress := d } =
      buildCacheKeyPreimage sha256
        { cfg with clientIdentifier := a', proxy := b', serverNameOverwrite := c', localAddress := d' } := by
  have hmain : mainPart
        { cfg with clientIdentifier := a, proxy := b, serverNameOverwrite := c, localAddress := d } =
      mainPart
        { cfg with clientIdentifier := a', proxy := b', serverNameOverwrite := c', localAddress := d' } := by
    simp only [List.intercalate, List.intersperse, List.flatten_cons, List.flatten_nil,
      List.append_nil] at heq
    unfold mainPart
    simp only [List.intercalate, List.intersperse, List.flatten_cons]
    simp only [← List.append_assoc] at heq ⊢
    rw [heq]
  unfold buildCacheKeyPreimage
  rw [hmain]
  rfl

/-- Every config with a bar in one of the first four strings has a partner that hashes the same bytes:
the bar of the value and the one next to it change places. -/
theorem exists_collision_of_bar {cfg : ClientFields}
    (hbar : ∃ s ∈ [cfg.clientIdentifier, cfg.proxy, cfg.serverNameOverwrite, cfg.localAddress],
      (124 : UInt8) ∈ s) :
    ∃ d : ClientFields, d.keyed ≠ cfg.keyed ∧
      ∀ sha256, buildCacheKeyPreimage sha256 d = buildCacheKeyPreimage sha256 cfg := by
  have hsep : utf8 "|" = [124] := by decide
  have hne : ∀ s t : Bytes, s ≠ s ++ 124 :: t ∧ t ≠ s ++ 124 :: t := by
    intro s t
    constructor <;> intro h <;> have := congrArg List.length h <;>
      simp only [List.length_append, List.length_cons] at this <;> omega
  obtain ⟨v, hv, hmem⟩ := hbar
  obtain ⟨s, t, rfl⟩ := List.append_of_mem hmem
  simp only [List.mem_cons, List.not_mem_nil, or_false] at hv
  rcases hv with hci | hpx | hsn | hla
  · refine ⟨{ cfg with clientIdentifier := s, proxy := t ++ 124 :: cfg.proxy }, ?_, fun sha256 => ?_⟩
    · intro h
      exact (hne s t).1 ((congrArg ClientFields.clientIdentifier h).trans hci.symm)
    · refine (preimage_congr sha256 cfg ?_).trans rfl
      rw [← hci]
      simp [List.intercalate, hsep]
  · refine ⟨{ cfg with proxy := s, serverNameOverwrite := t ++ 124 :: cfg.serverNameOverwrite }, ?_,
      fun sha256 => ?_⟩
    · intro h
      exact (hne s t).1 ((congrArg ClientFields.proxy h).trans hpx.symm)
    · refine (preimage_congr sha256 cfg ?_).trans rfl
      rw [← hpx]
      simp [List.intercalate, hsep]
  · refine ⟨{ cfg with serverNameOverwrite := s, localAddress := t ++ 124 :: cfg.localAddress }, ?_,
      fun sha256 => ?_⟩
    · intro h
      exact (hne s t).1 ((congrArg ClientFields.serverNameOverwrite h).trans hsn.symm)
    · refine (preimage_congr sha256 cfg ?_).trans rfl
      rw [← hsn]
      simp [List.intercalate, hsep]
  -- a number comes after the local address, so its bar moves the other way
  · refine ⟨{ cfg with serverNameOverwrite := cfg.serverNameOverwrite ++ 124 :: s, localAddress := t },
      ?_, fun sha256 => ?_⟩
    · intro h
      exact (hne s t).2 ((congrArg ClientFields.localAddress h).trans hla.symm)
    · refine (preimage_congr sha256 cfg ?_).trans rfl
      rw [← hla]
      simp [List.intercalate, hsep]

/-- A proxy URL with a bar, against the same URL cut at the bar with the rest before the server name. -/
theorem bar_preimages_collide :
    ¬ ∀ (sha256 : Bytes → Bytes) (c d : ClientFields), c.keyed ≠ d.keyed →
      buildCacheKeyPreimage sha256 c ≠ buildCacheKeyPreimage sha256 d := by
  intro hinj
  refine hinj id
    { proxy := utf8 "http://a|b", serverNameOverwrite := utf8 "c" }
    { proxy := utf8 "http://a", serverNameOverwrite := utf8 "b|c" } (by decide) ?_
  exact preimage_congr id {} (by decide)

end TlsClient.CacheKey
