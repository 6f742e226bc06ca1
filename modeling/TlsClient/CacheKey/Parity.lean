import TlsClient.CacheKey.Engine
import TlsClient.CacheKey.Python
import TlsClient.Python.Marshal
import TlsClient.Library.LossyCopy
import Mathlib.Data.List.TakeWhile

/-!
# The two cache keys of one request

`_compute_cache_key_hash` formats the resolved options as they are; `buildCacheKeyFromConfig` formats what
the marshalling left of them. Every part of the marshalling keeps a value or shortens its text: a string
ends at its first NUL, a `bool` becomes a digit, a `None` becomes the null pointer, and an empty PEM is
skipped. So the two pre-images are compared part by part as a text and its lossy copy (`Copied`), and
`preimage_eq_iff` says that they are equal exactly when nothing was lost (`Resolved.Mirrored`).
-/

namespace TlsClient.Python

/-! ## What survives the marshalling -/

/-- The string is one C string. -/
def NulFree (s : String) : Prop := '\x00' ∉ s.toList

/-- The value is an `int`. -/
def PyInt.Plain : PyInt → Prop
  | .int _ => True
  | .bool _ => False

/-- The key is missing, or holds a C string. -/
structure DictField.Mirrored (f : DictField String) : Prop where
  notNone : f ≠ .none
  nulFree : NulFree (f.get.getD "")

structure PriorityParam.Mirrored (p : PriorityParam) : Prop where
  streamDep : ∀ n ∈ p.streamDep, n.Plain
  weight : ∀ n ∈ p.weight, n.Plain

structure PriorityFrame.Mirrored (pf : PriorityFrame) : Prop where
  streamID : ∀ n ∈ pf.streamID, n.Plain
  priorityParam : pf.priorityParam.Mirrored

structure CandidateCipherSuite.Mirrored (s : CandidateCipherSuite) : Prop where
  kdfId : s.kdfId.Mirrored
  aeadId : s.aeadId.Mirrored

/-- The settings have C strings for keys and no `bool` for a value. -/
def MirroredSettings (settings : PyDict String PyInt) : Prop :=
  ∀ item ∈ settings.items, NulFree item.1 ∧ item.2.Plain

/-- The custom TLS client holds no `None` string, no `bool` for an `int`, and only C strings. -/
structure CustomTlsClient.Mirrored (ctc : CustomTlsClient) : Prop where
  ja3String : ctc.ja3String.Mirrored
  connectionFlow : ∀ n ∈ ctc.connectionFlow, n.Plain
  recordSizeLimit : ∀ n ∈ ctc.recordSizeLimit, n.Plain
  streamId : ∀ n ∈ ctc.streamId, n.Plain
  h3PriorityParam : ∀ n ∈ ctc.h3PriorityParam, n.Plain
  trustAnchorsPayload : NulFree (ctc.trustAnchorsPayload.getD "")
  h2SettingsOrder : ∀ s ∈ ctc.h2SettingsOrder, NulFree s
  h3SettingsOrder : ∀ s ∈ ctc.h3SettingsOrder, NulFree s
  h3PseudoHeaderOrder : ∀ s ∈ ctc.h3PseudoHeaderOrder, NulFree s
  certCompressionAlgos : ∀ s ∈ ctc.certCompressionAlgos, NulFree s
  keyShareCurves : ∀ s ∈ ctc.keyShareCurves, NulFree s
  alpnProtocols : ∀ s ∈ ctc.alpnProtocols, NulFree s
  alpsProtocols : ∀ s ∈ ctc.alpsProtocols, NulFree s
  pseudoHeaderOrder : ∀ s ∈ ctc.pseudoHeaderOrder, NulFree s
  supportedDelegatedCredentialsAlgorithms :
    ∀ s ∈ ctc.supportedDelegatedCredentialsAlgorithms, NulFree s
  supportedSignatureAlgorithms : ∀ s ∈ ctc.supportedSignatureAlgorithms, NulFree s
  supportedVersions : ∀ s ∈ ctc.supportedVersions, NulFree s
  h2Settings : MirroredSettings ctc.h2Settings
  h3Settings : MirroredSettings ctc.h3Settings
  echCandidatePayloads : ∀ pld ∈ ctc.echCandidatePayloads, pld.Plain
  echCandidateCipherSuites : ∀ s ∈ ctc.echCandidateCipherSuites, s.Mirrored
  priorityFrames : ∀ pf ∈ ctc.priorityFrames, pf.Mirrored
  headerPriority : ∀ hp ∈ ctc.headerPriority, hp.truthy → hp.Mirrored

def MirroredHeaders (headers : Option (PyDict String String)) : Prop :=
  ∀ item ∈ (headers.map PyDict.items).getD [], NulFree item.1 ∧ NulFree item.2

def MirroredPins (pins : Option (PyDict String (List String))) : Prop :=
  ∀ item ∈ (pins.map PyDict.items).getD [], NulFree item.1 ∧ ∀ pin ∈ item.2, NulFree pin

/-- Of the options that are hashed, no string has a NUL and no PEM is empty, and the custom TLS client is
mirrored. -/
structure Resolved.Mirrored (r : Resolved) : Prop where
  clientIdentifier : NulFree (r.clientIdentifier.getD "")
  proxy : NulFree (r.proxy.getD "")
  serverNameOverwrite : NulFree (r.serverNameOverwrite.getD "")
  localAddress : NulFree (r.localAddress.getD "")
  tlsKeylogPath : NulFree (r.tlsKeylogPath.getD "")
  hpackIndexingPolicy : NulFree (r.hpackIndexingPolicy.getD "")
  tcpIpIdMode : NulFree (r.tcpIpIdMode.getD "")
  pseudoHeaderOrder : ∀ s ∈ r.pseudoHeaderOrder.getD [], NulFree s
  h3PseudoHeaderOrder : ∀ s ∈ r.h3PseudoHeaderOrder.getD [], NulFree s
  defaultHeaders : MirroredHeaders r.defaultHeaders
  connectHeaders : MirroredHeaders r.connectHeaders
  certificatePinningHosts : MirroredPins r.certificatePinningHosts
  clientCertificates :
    ∀ c ∈ r.clientCertificates.getD [], c.certPem.getD [] ≠ [] ∧ c.keyPem.getD [] ≠ []
  customTlsClient : ∀ ctc ∈ r.customTlsClient, ctc.truthy → ctc.Mirrored

end TlsClient.Python

namespace TlsClient.CacheKey

open TlsClient.Ffi TlsClient.Engine TlsClient.Python Utf8

/-! ## Strings and integers -/

theorem nulFree_empty : NulFree "" := by simp [NulFree]

/-- `C.GoString` cuts a string at its first NUL. -/
theorem copied_goString (s : String) : Copied (utf8 s) (goString (some (utf8 s))) (NulFree s) := by
  by_cases hnul : NulFree s
  · refine .inl ⟨(List.takeWhile_eq_self_iff.mpr ?_).symm, hnul⟩
    intro b hb
    have hzero : 0 ∉ utf8 s := mt zero_mem_utf8.mp hnul
    simpa using ne_of_mem_of_not_mem hb hzero
  · refine .inr ⟨lt_of_le_of_ne (List.takeWhile_sublist _).length_le fun hlen => ?_, hnul⟩
    have hzero : 0 ∈ utf8 s := zero_mem_utf8.mpr (not_not.mp hnul)
    have hall := (List.takeWhile_prefix _).eq_of_length hlen
    simpa using List.takeWhile_eq_self_iff.mp hall 0 hzero

theorem goString_of_nulFree {s : String} (hnul : NulFree s) : goString (some (utf8 s)) = utf8 s :=
  ((copied_goString s).eq_iff.mpr hnul).symm

/-- An optional string is copied if it has no NUL. -/
theorem copied_string (v : Option String) :
    Copied (strOrEmpty v) (goString (cString v)) (NulFree (v.getD "")) := by
  cases v with
  | none => exact .inl ⟨rfl, nulFree_empty⟩
  | some s => exact copied_goString s

/-- So is one that is handed over only if it is not empty. -/
theorem copied_stringIfTrue (v : Option String) :
    Copied (strOrEmpty v) (goString (cStringIfTrue v)) (NulFree (v.getD "")) := by
  rw [cStringIfTrue]
  split_ifs with hempty
  · rw [strOrEmpty, hempty]
    exact .inl ⟨rfl, nulFree_empty⟩
  · exact copied_string v

/-- An explicit `None` is printed and then not passed on. -/
theorem copied_dictField (f : DictField String) :
    Copied f.str (goString (cString f.get)) f.Mirrored := by
  cases f with
  | missing => exact .inl ⟨rfl, by simp, nulFree_empty⟩
  | none => exact .inr ⟨by decide, fun h => h.notNone rfl⟩
  | value s =>
    refine (copied_goString s).congr ⟨fun h => ⟨by simp, h⟩, fun h => h.nulFree⟩

/-- A number is copied if it is not a `bool`. -/
theorem copied_pyInt (v : PyInt) : Copied v.str (itoa v.toInt) v.Plain := by
  cases v with
  | int n => exact .inl ⟨rfl, trivial⟩
  | bool b =>
    refine .inr ⟨?_, id⟩
    cases b <;> decide

/-- So is an optional number. -/
theorem copied_int (v : Option PyInt) :
    Copied (strInt v) (itoa (getInt v)) (∀ n ∈ v, n.Plain) := by
  cases v with
  | none => exact .inl ⟨by decide, by simp⟩
  | some n => exact (copied_pyInt n).congr (by simp)

@[simp] theorem flag_bne_zero (b : Bool) : (flag b != 0) = b := by
  cases b <;> rfl

/-- A priority is copied if its numbers are. -/
theorem copied_priority (p : PriorityParam) : Copied p.str (priorityText p.build) p.Mirrored := by
  have h := ((copied_int p.streamDep).field (utf8 ",") (.refl (strFlag p.exclusive))).field
    (utf8 ",") (copied_int p.weight)
  exact h.congr ⟨fun ⟨⟨h1, _⟩, h2⟩ => ⟨h1, h2⟩, fun ⟨h1, h2⟩ => ⟨⟨h1, trivial⟩, h2⟩⟩

/-! ## Lists and maps -/

/-- Strings behind a mark are copied if none has a NUL. -/
theorem copied_strings (mark : Bytes) (arr : List String) :
    Copied (arr.flatMap fun s => mark ++ utf8 s)
      ((cStrSlice (buildStringArray arr)).flatMap fun s => mark ++ s) (∀ s ∈ arr, NulFree s) := by
  rw [cStrSlice, buildStringArray, List.map_map, List.flatMap_map]
  exact .flatMap fun s _ => (copied_goString s).append_left mark

/-- So is an order. -/
theorem copied_order (mark : Bytes) (order : Option (List String)) :
    Copied (orderText mark order) (orderPart mark (cStrSlice (buildStringArray (order.getD []))))
      (∀ s ∈ order.getD [], NulFree s) := by
  generalize horder : order.getD [] = arr
  rw [orderText, orderPart, horder]
  cases arr with
  | nil => exact .inl ⟨rfl, by simp⟩
  | cons s arr => exact copied_strings mark (s :: arr)

/-- So is a string array. -/
theorem copied_strArray (tag : Bytes) (arr : List String) :
    Copied (strArrayText tag arr) (hashStringArray (cStrSlice (buildStringArray arr)) tag)
      (∀ s ∈ arr, NulFree s) := by
  cases arr with
  | nil => exact .inl ⟨rfl, by simp⟩
  | cons s arr =>
    have h := ((copied_goString s).append_left tag).append (copied_strings (utf8 ",") arr)
    exact h.congr (by simp)

theorem headersPart_eq_flat (tag : Bytes) (headers : SortedMap Bytes (List Bytes)) :
    headersPart tag headers = headers.flat.flatMap fun item => tag ++ item.1 ++ utf8 "=" ++ item.2 := by
  simp [headersPart, SortedMap.flat, List.flatMap_assoc, List.flatMap_map]

/-- The keys of a dict stay distinct and in order when nothing is cut off. -/
theorem map_sortedItems {ν ω : Type} (d : PyDict String ν) (f : String × ν → Bytes × ω)
    (hf : ∀ item ∈ d.items, (f item).1 = utf8 item.1) :
    (sortedItems d).map f = SortedMap.sortByKey (d.items.map f) ∧
      ((d.items.map f).map Prod.fst).Nodup := by
  constructor
  · refine SortedMap.map_sortByKey f ?_
    intro a ha b hb
    rw [hf a ha, hf b hb, utf8_le_utf8]
  · have hkeys : (d.items.map f).map Prod.fst = (d.items.map Prod.fst).map utf8 := by
      rw [List.map_map, List.map_map]
      exact List.map_congr_left hf
    rw [hkeys]
    exact d.nodup.map utf8_injective

/-- Headers are copied under the conditions of `MirroredHeaders`. -/
theorem copied_headers (tag : Bytes) (headers : Option (PyDict String String)) :
    Copied (headersText tag headers) (headersPart tag (cHeadersToHTTP (buildHeaders headers)))
      (MirroredHeaders headers) := by
  rw [headersPart_eq_flat]
  cases headers with
  | none => exact .inl ⟨rfl, by simp [MirroredHeaders]⟩
  | some d =>
    set cut : String × String → Bytes × Bytes := fun item =>
      (goString (some (utf8 item.1)), goString (some (utf8 item.2))) with hcut
    have hbuilt : cHeadersToHTTP (buildHeaders (some d)) = .pushAll (d.items.map cut) := by
      simp [cHeadersToHTTP, buildHeaders, hcut, Function.comp_def]
    have hperm := SortedMap.flat_pushAll_perm (d.items.map cut)
    rw [hbuilt]
    -- names that a NUL cuts alike meet in one entry of Go's map, and no line is lost
    refine Copied.of_perm
      (g := fun item => tag ++ (cut item).1 ++ utf8 "=" ++ (cut item).2) ?_
      (SortedMap.sortByKey_perm d.items) ?_ ?_
    · intro item _
      exact ((copied_goString item.1).append_left tag).field (utf8 "=") (copied_goString item.2)
    · rw [Copied.length_flatMap_of_perm hperm, List.map_map]
      exact le_refl _
    -- without a NUL nothing is cut, and both sides sort the same items
    · intro hall
      have hkeep : ∀ item ∈ d.items, cut item = (utf8 item.1, utf8 item.2) := fun item hitem => by
        exact Prod.ext (goString_of_nulFree (hall item hitem).1)
          (goString_of_nulFree (hall item hitem).2)
      obtain ⟨hsort, hnodup⟩ := map_sortedItems d cut fun item hitem => by rw [hkeep item hitem]
      rw [SortedMap.flat_pushAll hnodup, ← hsort, List.flatMap_map]
      refine List.flatMap_congr fun item hitem => ?_
      rw [hkeep item ((SortedMap.sortByKey_perm d.items).mem_iff.mp hitem)]

/-- Pins are copied under the conditions of `MirroredPins`. -/
theorem copied_pins (pins : Option (PyDict String (List String))) :
    Copied (pinsText pins) (pinsPart (cPinsToMap (buildPinEntries pins))) (MirroredPins pins) := by
  cases pins with
  | none => exact .inl ⟨rfl, by simp [MirroredPins]⟩
  | some d =>
    set cut : String × List String → Bytes × List Bytes := fun item =>
      (goString (some (utf8 item.1)), cStrSlice (buildStringArray item.2)) with hcut
    have hbuilt : cPinsToMap (buildPinEntries (some d)) = .setAll (d.items.map cut) := by
      simp [cPinsToMap, buildPinEntries, cStrSlice, hcut, Function.comp_def]
    set text : Bytes × List Bytes → Bytes := fun entry =>
      utf8 "^cp:" ++ entry.1 ++ utf8 "=" ++ entry.2.flatMap fun p => p ++ utf8 "," with htext
    have hpart : pinsPart (cPinsToMap (buildPinEntries (some d))) =
        (SortedMap.setAll (d.items.map cut)).entries.flatMap text := by
      rw [hbuilt]
      rfl
    rw [hpart]
    refine Copied.of_perm (g := fun item => text (cut item)) ?_
      (SortedMap.sortByKey_perm d.items) ?_ ?_
    · intro item _
      refine ((copied_goString item.1).append_left (utf8 "^cp:")).field (utf8 "=") ?_
      show Copied _ ((cStrSlice (buildStringArray item.2)).flatMap fun p => p ++ utf8 ",") _
      rw [cStrSlice, buildStringArray, List.map_map, List.flatMap_map]
      exact .flatMap fun pin _ => (copied_goString pin).append_right (utf8 ",")
    -- of hosts that a NUL cuts alike the last one's pins stay, so Go never writes more
    · rw [List.length_flatMap]
      refine (SortedMap.sum_setAll_le (fun entry => (text entry).length) _).trans ?_
      rw [List.map_map]
      exact le_refl _
    -- with distinct hosts of NUL-free text the map holds exactly the mirror's items
    · intro hall
      have hkeep : ∀ item ∈ d.items, cut item = (utf8 item.1, item.2.map utf8) := fun item hitem => by
        refine Prod.ext (goString_of_nulFree (hall item hitem).1) ?_
        show cStrSlice (buildStringArray item.2) = item.2.map utf8
        rw [cStrSlice, buildStringArray, List.map_map]
        exact List.map_congr_left fun pin hpin => goString_of_nulFree ((hall item hitem).2 pin hpin)
      obtain ⟨hsort, hnodup⟩ := map_sortedItems d cut fun item hitem => by rw [hkeep item hitem]
      rw [SortedMap.entries_setAll hnodup, ← hsort, List.flatMap_map]
      refine List.flatMap_congr fun item hitem => ?_
      rw [hkeep item ((SortedMap.sortByKey_perm d.items).mem_iff.mp hitem), htext]
      simp [List.flatMap_map]

/-- Settings are copied under the conditions of `MirroredSettings`. -/
theorem copied_settings (tag : Bytes) (settings : PyDict String PyInt) :
    Copied (settingsText tag settings)
      (settingsPart tag ((buildSettings settings).map fun (k, v) => (goString k, v)))
      (MirroredSettings settings) := by
  set cut : String × PyInt → Bytes × ℤ := fun item =>
    (goString (some (utf8 item.1)), item.2.toInt) with hcut
  have hbuilt : (buildSettings settings).map (fun (k, v) => (goString k, v)) = settings.items.map cut := by
    simp [buildSettings, hcut, Function.comp_def]
  rw [hbuilt, settingsPart]
  refine Copied.of_perm (g := fun item => tag ++ (cut item).1 ++ utf8 "=" ++ itoa (cut item).2) ?_
    (SortedMap.sortByKey_perm settings.items) ?_ ?_
  · intro item _
    exact ((copied_goString item.1).append_left tag).field (utf8 "=") (copied_pyInt item.2)
  · rw [Copied.length_flatMap_of_perm (SortedMap.sortByKey_perm (settings.items.map cut)), List.map_map]
    exact le_refl _
  · intro hall
    have hkeep : ∀ item ∈ settings.items, (cut item).1 = utf8 item.1 := fun item hitem =>
      goString_of_nulFree (hall item hitem).1
    rw [← (map_sortedItems settings cut hkeep).1, List.flatMap_map]
    refine List.flatMap_congr fun item hitem => ?_
    have hmem := (SortedMap.sortByKey_perm settings.items).mem_iff.mp hitem
    show tag ++ utf8 item.1 ++ utf8 "=" ++ item.2.str = tag ++ (cut item).1 ++ utf8 "=" ++ itoa (cut item).2
    rw [hkeep item hmem, (copied_pyInt item.2).eq_iff.mpr (hall item hmem).2]

/-- Certificates are copied if neither half of any is empty. -/
theorem copied_certs (sha256 : Bytes → Bytes) (certs : Option (List ClientCertificate)) :
    Copied (certsText sha256 certs)
      (certsPart sha256 ((buildClientCertificates certs).map fun c => (c.certPem, c.keyPem)))
      (∀ c ∈ certs.getD [], c.certPem.getD [] ≠ [] ∧ c.keyPem.getD [] ≠ []) := by
  have hpem : ∀ (tag pem : Bytes), tag ≠ [] →
      Copied (tag ++ hexText (sha256 pem)) (if pem ≠ [] then tag ++ hexSum sha256 pem else [])
        (pem ≠ []) := by
    intro tag pem htag
    split_ifs with hne
    · exact .inl ⟨rfl, hne⟩
    · refine .inr ⟨?_, hne⟩
      rw [List.length_nil, List.length_append]
      have := List.length_pos_iff.mpr htag
      omega
  rw [certsText, certsPart, buildClientCertificates, List.map_map, List.flatMap_map]
  refine .flatMap fun c _ => ?_
  exact (hpem (utf8 "|cc:") _ (by decide)).append (hpem (utf8 "|ck:") _ (by decide))

/-! ## The custom TLS client -/

/-- The sorted suites are the suites in another order. -/
theorem sortedSuites_perm {suites sorted : List CandidateCipherSuite}
    (hsorted : sortedSuites suites = .ok sorted) : sorted.Perm suites := by
  rw [sortedSuites] at hsorted
  split_ifs at hsorted
  cases hsorted
  exact List.perm_insertionSort _ _

/-- A mirrored field is one text for both sides. -/
theorem sortKey_of_mirrored {f : DictField String} (hf : f.Mirrored) :
    f.sortKey = some (f.get.getD "") ∧ goString (cString f.get) = utf8 (f.get.getD "") ∧
      f.str = utf8 (f.get.getD "") := by
  cases f with
  | missing => exact ⟨rfl, rfl, rfl⟩
  | none => exact absurd rfl hf.notNone
  | value s => exact ⟨rfl, goString_of_nulFree hf.nulFree, rfl⟩

/-- Suites are copied if each of them is mirrored. -/
theorem copied_suites {suites sorted : List CandidateCipherSuite}
    (hsorted : sortedSuites suites = .ok sorted) :
    Copied (sorted.flatMap suiteText)
      (suitesPart (suites.map fun s => (goString (cString s.kdfId.get), goString (cString s.aeadId.get))))
      (∀ s ∈ suites, s.Mirrored) := by
  set cut : CandidateCipherSuite → Bytes × Bytes := fun s =>
    (goString (cString s.kdfId.get), goString (cString s.aeadId.get)) with hcut
  have hperm := sortedSuites_perm hsorted
  rw [suitesPart]
  refine Copied.of_perm
    (g := fun s => utf8 "|echcs:" ++ (cut s).1 ++ utf8 "," ++ (cut s).2) ?_ hperm ?_ ?_
  · intro s _
    have h := ((copied_dictField s.kdfId).append_left (utf8 "|echcs:")).field (utf8 ",")
      (copied_dictField s.aeadId)
    exact h.congr ⟨fun ⟨h1, h2⟩ => ⟨h1, h2⟩, fun ⟨h1, h2⟩ => ⟨h1, h2⟩⟩
  · have hperm' : (sortSuites (suites.map cut)).Perm (suites.map cut) := List.perm_insertionSort _ _
    rw [Copied.length_flatMap_of_perm hperm', List.map_map]
    exact le_refl _
  · intro hall
    -- Python compares the texts and Go their bytes, which is the same order for UTF-8
    have hle : ∀ a ∈ suites, ∀ b ∈ suites, suiteLe a b = some true ↔
        ((cut a).1 < (cut b).1 ∨ (cut a).1 = (cut b).1 ∧ (cut a).2 ≤ (cut b).2) := by
      intro a ha b hb
      obtain ⟨hka, hga, -⟩ := sortKey_of_mirrored (hall a ha).kdfId
      obtain ⟨hkb, hgb, -⟩ := sortKey_of_mirrored (hall b hb).kdfId
      obtain ⟨hka', hga', -⟩ := sortKey_of_mirrored (hall a ha).aeadId
      obtain ⟨hkb', hgb', -⟩ := sortKey_of_mirrored (hall b hb).aeadId
      rw [suiteLe, hka, hkb, hka', hkb', hcut]
      simp only [hga, hgb, hga', hgb', strLess, utf8_lt_utf8, utf8_inj, utf8_le_utf8]
      generalize a.kdfId.get.getD "" = s
      generalize b.kdfId.get.getD "" = t
      generalize a.aeadId.get.getD "" = u
      generalize b.aeadId.get.getD "" = v
      rcases lt_trichotomy s t with hst | rfl | hst
      · simp [hst, hst.ne, hst.not_gt]
      · by_cases huv : u = v
        · simp [huv]
        · simp only [ne_eq, not_true_eq_false, if_false, huv, not_false_eq_true, if_true, lt_irrefl,
            false_or, true_and, Option.map_some, Option.some.injEq, Bool.not_eq_true',
            decide_eq_false_iff_not, not_lt]
      · simp [hst, hst.ne', hst.not_gt]
    have hsort : sorted.map cut = sortSuites (suites.map cut) := by
      rw [sortedSuites] at hsorted
      split_ifs at hsorted
      cases hsorted
      exact List.map_insertionSort _ _ cut suites hle
    rw [← hsort, List.flatMap_map]
    refine List.flatMap_congr fun s hs => ?_
    have hmem := hperm.mem_iff.mp hs
    obtain ⟨-, hg, hstr⟩ := sortKey_of_mirrored (hall s hmem).kdfId
    obtain ⟨-, hg', hstr'⟩ := sortKey_of_mirrored (hall s hmem).aeadId
    show utf8 "|echcs:" ++ s.kdfId.str ++ utf8 "," ++ s.aeadId.str =
      utf8 "|echcs:" ++ goString (cString s.kdfId.get) ++ utf8 "," ++ goString (cString s.aeadId.get)
    rw [hstr, hstr', hg, hg']

/-- Priority frames are copied if each of them is mirrored. -/
theorem copied_frames (frames : List PriorityFrame) :
    Copied (TlsClient.Python.framesText frames)
      (framesPart (frames.map fun pf => ⟨pf.priorityParam.build, getInt pf.streamID⟩))
      (∀ pf ∈ frames, pf.Mirrored) := by
  rw [framesText, framesPart, List.flatMap_map]
  refine .flatMap fun pf _ => ?_
  have h := ((copied_int pf.streamID).append_left (utf8 "|pf:")).field (utf8 ",")
    (copied_priority pf.priorityParam)
  exact h.congr ⟨fun ⟨h1, h2⟩ => ⟨h1, h2⟩, fun ⟨h1, h2⟩ => ⟨h1, h2⟩⟩

/-- So is the header priority. -/
theorem copied_headerPriority (hp : Option PriorityParam) :
    Copied (headerPriorityText hp)
      (headerPriorityPart ((hp.filter PriorityParam.truthy).map PriorityParam.build))
      (∀ p ∈ hp, p.truthy → p.Mirrored) := by
  cases hp with
  | none => exact .inl ⟨rfl, by simp⟩
  | some p =>
    by_cases htruthy : p.truthy
    · rw [headerPriorityText, if_pos htruthy, Option.filter_some_pos htruthy]
      exact ((copied_priority p).append_left (utf8 "|hp:")).congr (by simp [htruthy])
    · rw [headerPriorityText, if_neg htruthy, Option.filter_some_neg (by simpa using htruthy)]
      exact .inl ⟨rfl, by simp [htruthy]⟩

/-- A custom client is copied if it is mirrored. -/
theorem copied_custom {ctc : CustomTlsClient} {c : C.CustomTlsClient}
    {suites : List CandidateCipherSuite} (hbuilt : buildCustomTlsClient (some ctc) = some c)
    (hsorted : sortedSuites ctc.echCandidateCipherSuites = .ok suites) :
    Copied (ctc.text suites) (customFields (deepCopyCustomTLSClient c)) ctc.Mirrored := by
  rw [buildCustomTlsClient] at hbuilt
  split_ifs at hbuilt
  cases hbuilt
  -- the parts in the order in which both sides write them
  have hscalars := ((((((((copied_dictField ctc.ja3String).append_left (utf8 "|ja3=")).field
    (utf8 "|cf=") (copied_int ctc.connectionFlow)).field
    (utf8 "|rsl=") (copied_int ctc.recordSizeLimit)).field
    (utf8 "|sid=") (copied_int ctc.streamId)).field
    (utf8 "|h3pp=") (copied_int ctc.h3PriorityParam)).field
    (utf8 "|h3sgf=") (.refl (strFlag ctc.h3SendGreaseFrames))).field
    (utf8 "|ah=") (.refl (strFlag ctc.allowHttp))).field
    (utf8 "|ta=") (copied_stringIfTrue ctc.trustAnchorsPayload)
  have harrays := ((((((((((hscalars.append
    (copied_strArray (utf8 "|h2so=") ctc.h2SettingsOrder)).append
    (copied_strArray (utf8 "|h3so=") ctc.h3SettingsOrder)).append
    (copied_strArray (utf8 "|h3ph=") ctc.h3PseudoHeaderOrder)).append
    (copied_strArray (utf8 "|cca=") ctc.certCompressionAlgos)).append
    (copied_strArray (utf8 "|ksc=") ctc.keyShareCurves)).append
    (copied_strArray (utf8 "|alpn=") ctc.alpnProtocols)).append
    (copied_strArray (utf8 "|alps=") ctc.alpsProtocols)).append
    (copied_strArray (utf8 "|ph=") ctc.pseudoHeaderOrder)).append
    (copied_strArray (utf8 "|sdca=") ctc.supportedDelegatedCredentialsAlgorithms)).append
    (copied_strArray (utf8 "|ssa=") ctc.supportedSignatureAlgorithms)).append
    (copied_strArray (utf8 "|sv=") ctc.supportedVersions)
  have hpayloads : Copied (ctc.echCandidatePayloads.flatMap fun pld => utf8 "|echp:" ++ pld.str)
      ((ctc.echCandidatePayloads.map PyInt.toInt).flatMap fun pld => utf8 "|echp:" ++ itoa pld)
      (∀ pld ∈ ctc.echCandidatePayloads, pld.Plain) := by
    rw [List.flatMap_map]
    exact .flatMap fun pld _ => (copied_pyInt pld).append_left _
  have hsuites : Copied (suites.flatMap suiteText)
      (suitesPart ((ctc.echCandidateCipherSuites.map fun s =>
          (⟨cString s.kdfId.get, cString s.aeadId.get⟩ : C.CandidateCipherSuite)).map fun s =>
        (goString s.kdfId, goString s.aeadId)))
      (∀ s ∈ ctc.echCandidateCipherSuites, s.Mirrored) := by
    rw [List.map_map]
    exact copied_suites hsorted
  have htail := (((((harrays.append
    (copied_settings (utf8 "|h2s:") ctc.h2Settings)).append
    (copied_settings (utf8 "|h3s:") ctc.h3Settings)).append hpayloads).append hsuites).append
    (copied_frames ctc.priorityFrames)).append (copied_headerPriority ctc.headerPriority)
  refine htail.congr ?_
  simp only [and_assoc, true_and]
  constructor
  · rintro ⟨h1, h2, h3, h4, h5, h6, h7, h8, h9, h10, h11, h12, h13, h14, h15, h16, h17, h18, h19, h20,
      h21, h22, h23⟩
    exact ⟨h1, h2, h3, h4, h5, h6, h7, h8, h9, h10, h11, h12, h13, h14, h15, h16, h17, h18, h19, h20,
      h21, h22, h23⟩
  · intro h
    exact ⟨h.ja3String, h.connectionFlow, h.recordSizeLimit, h.streamId, h.h3PriorityParam,
      h.trustAnchorsPayload, h.h2SettingsOrder, h.h3SettingsOrder, h.h3PseudoHeaderOrder,
      h.certCompressionAlgos, h.keyShareCurves, h.alpnProtocols, h.alpsProtocols, h.pseudoHeaderOrder,
      h.supportedDelegatedCredentialsAlgorithms, h.supportedSignatureAlgorithms, h.supportedVersions,
      h.h2Settings, h.h3Settings, h.echCandidatePayloads, h.echCandidateCipherSuites,
      h.priorityFrames, h.headerPriority⟩

/-- So is one that may be missing. -/
theorem copied_customText {cfg : Option CustomTlsClient} {text : Bytes}
    (htext : customText cfg = .ok text) :
    Copied text (customPart ((buildCustomTlsClient cfg).map deepCopyCustomTLSClient))
      (∀ ctc ∈ cfg, ctc.truthy → ctc.Mirrored) := by
  cases cfg with
  | none =>
    cases htext
    exact .inl ⟨rfl, by simp⟩
  | some ctc =>
    by_cases htruthy : ctc.truthy
    · rw [customText, if_pos htruthy] at htext
      cases hsorted : sortedSuites ctc.echCandidateCipherSuites with
      -- the suites do not sort, and no text is made
      | error e =>
        rw [hsorted] at htext
        exact absurd htext (by simp [Except.map])
      | ok suites =>
        rw [hsorted, Except.map, Except.ok.injEq] at htext
        subst htext
        obtain ⟨c, hbuilt⟩ : ∃ c, buildCustomTlsClient (some ctc) = some c := by
          rw [buildCustomTlsClient, if_pos htruthy]
          exact ⟨_, rfl⟩
        rw [hbuilt]
        exact (copied_custom hbuilt hsorted).congr (by simp [htruthy])
    -- an empty configuration is passed on as none at all
    · rw [customText, if_neg htruthy, Except.ok.injEq] at htext
      subst htext
      rw [buildCustomTlsClient, if_neg htruthy]
      exact .inl ⟨rfl, by simp [htruthy]⟩

/-! ## The pre-images -/

/-- The first part is copied if its strings have no NUL. -/
theorem copied_main (r : Resolved) (args : RequestArgs) (hash : Bytes) :
    Copied r.mainText (mainPart (requestConfigFromOptions (fillRequestOptions r args hash)).toClientFields)
      (NulFree (r.clientIdentifier.getD "") ∧ NulFree (r.proxy.getD "") ∧
        NulFree (r.serverNameOverwrite.getD "") ∧ NulFree (r.localAddress.getD "")) := by
  have hnumbers := Copied.refl (List.intercalate (utf8 "|")
    [strFlag r.insecureSkipVerify, strFlag r.forceHttp1,
      strFlag r.withRandomTlsExtensionOrder, strFlag r.withProtocolRacing,
      itoa r.maxIdleConnections, itoa r.maxIdleConnectionsPerHost, itoa r.maxConnectionsPerHost,
      itoa r.maxResponseHeaderBytes, itoa r.writeBufferSize, itoa r.readBufferSize,
      itoa r.idleConnTimeoutSeconds, strFlag r.disableKeepAlives, strFlag r.disableCompression,
      strFlag r.disableHttp3, strFlag r.disableIpv4, strFlag r.disableIpv6, strFlag r.followRedirects,
      strFlag r.withoutCookieJar, strFlag r.allowEmptyCookies, strFlag r.withDefaultBadPinHandler,
      itoa r.timeoutSeconds, itoa r.timeoutMilliseconds,
      itoa r.tcpTtl, itoa r.tcpWindowSize, itoa r.tcpWindowScale, itoa r.tcpMss])
  have h := (copied_string r.clientIdentifier).intercalate_cons (by simp) (by simp) <|
    (copied_string r.proxy).intercalate_cons (by simp) (by simp) <|
    (copied_string r.serverNameOverwrite).intercalate_cons (by simp) (by simp) <|
    (copied_string r.localAddress).intercalate_cons (by simp) (by simp) hnumbers
  simpa only [Resolved.mainText, mainPart, requestConfigFromOptions, fillRequestOptions,
    flag_bne_zero, b2i, strFlag, and_true] using h

/-- The pre-image of the engine is a lossy copy of that of the Python layer. -/
theorem copied_preimage (sha256 : Bytes → Bytes) (r : Resolved) (args : RequestArgs) (hash : Bytes)
    {p : Bytes} (hp : computeCacheKeyPreimage sha256 r = .ok p) :
    Copied p
      (buildCacheKeyPreimage sha256
        (requestConfigFromOptions (fillRequestOptions r args hash)).toClientFields)
      r.Mirrored := by
  rw [computeCacheKeyPreimage] at hp
  cases htext : customText r.customTlsClient with
  | error e =>
    rw [htext] at hp
    exact absurd hp (by simp [Except.map])
  | ok custom =>
    rw [htext, Except.map, Except.ok.injEq] at hp
    subst hp
    -- the groups of `buildCacheKeyPreimage`, each one copied by itself
    have habi2 := ((Copied.refl (utf8 "|" ++ strFlag r.disableSessionTickets)).field (utf8 "|")
      (copied_stringIfTrue r.tlsKeylogPath)).append_right
        (utf8 "|rc:" ++
          if r.rootCaPem.getD [] ≠ [] then hexText (sha256 (r.rootCaPem.getD [])) else [])
    have hh2 := (Copied.refl (utf8 "|mdf=" ++ itoa r.h2MaxDataFrameSize ++ utf8 "|pp=" ++
      itoa r.prefacePingIdleMs)).field (utf8 "|hip=") (copied_stringIfTrue r.hpackIndexingPolicy)
    have habi3 := (Copied.refl (utf8 "|epm=" ++ itoa r.extensionPermuteMode ++ utf8 "|epp=" ++
      itoa r.extensionPermutePrefix ++ utf8 "|hdpf=" ++ strFlag r.h2DisablePriorityFrames ++
      utf8 "|df=" ++ itoa r.tcpDontFragment ++ utf8 "|tos=" ++ itoa r.tcpTos ++ utf8 "|nd=" ++
      itoa r.tcpNoDelay ++ utf8 "|wc=" ++ itoa r.tcpWindowClamp)).field (utf8 "|ipid=")
        (copied_stringIfTrue r.tcpIpIdMode)
    have h := ((((((((((copied_main r args hash).append habi2).append hh2).append habi3).append
      (copied_order (utf8 ":") r.pseudoHeaderOrder)).append
      (copied_order (utf8 "#") r.h3PseudoHeaderOrder)).append
      (copied_headers (utf8 "~dh:") r.defaultHeaders)).append
      (copied_headers (utf8 "~ch:") r.connectHeaders)).append
      (copied_pins r.certificatePinningHosts)).append
      (copied_certs sha256 r.clientCertificates)).append (copied_customText htext)
    have htickets : (requestConfigFromOptions (fillRequestOptions r args hash)).disableSessionTickets =
        r.disableSessionTickets := flag_bne_zero _
    have hpriority : (requestConfigFromOptions (fillRequestOptions r args hash)).h2DisablePriorityFrames =
        r.h2DisablePriorityFrames := flag_bne_zero _
    rw [buildCacheKeyPreimage, abi2Part, h2Part, abi3Part, htickets, hpriority]
    refine h.congr ?_
    simp only [and_assoc, true_and]
    -- the conditions of the groups are the fields of `Mirrored`
    constructor
    · rintro ⟨h1, h2, h3, h4, h5, h6, h7, h8, h9, h10, h11, h12, h13, h14⟩
      exact ⟨h1, h2, h3, h4, h5, h6, h7, h8, h9, h10, h11, h12, h13, h14⟩
    · intro h
      exact ⟨h.clientIdentifier, h.proxy, h.serverNameOverwrite, h.localAddress, h.tlsKeylogPath,
        h.hpackIndexingPolicy, h.tcpIpIdMode, h.pseudoHeaderOrder, h.h3PseudoHeaderOrder,
        h.defaultHeaders, h.connectHeaders, h.certificatePinningHosts, h.clientCertificates,
        h.customTlsClient⟩

/-- The marshalling succeeds exactly if its checks do and the key has a text. -/
theorem marshal_eq_ok_iff {lib : Library} {sha256 : Bytes → Bytes} {r : Resolved} {args : RequestArgs}
    {opts : C.RequestOptions} :
    marshal lib sha256 r args = .ok opts ↔
      checkMarshal lib r = .ok () ∧ ∃ p, computeCacheKeyPreimage sha256 r = .ok p ∧
        opts = fillRequestOptions r args (hexText (sha256 p)) := by
  rw [marshal, computeCacheKeyHash]
  cases checkMarshal lib r with
  | error e => simp [bind, Except.bind]
  | ok =>
    cases computeCacheKeyPreimage sha256 r with
    | error e => simp [bind, Except.bind, Except.map]
    | ok p => simp [bind, Except.bind, Except.map, pure, Except.pure, eq_comm]

/-- For options that the Python layer accepts, both sides hash the same bytes exactly when the marshalling
loses nothing of what is hashed. -/
theorem preimage_eq_iff {lib : Library} {sha256 : Bytes → Bytes} {r : Resolved} {args : RequestArgs}
    {opts : C.RequestOptions} (hmarshal : marshal lib sha256 r args = .ok opts) :
    ∃ p, computeCacheKeyPreimage sha256 r = .ok p ∧
      (p = buildCacheKeyPreimage sha256 (requestConfigFromOptions opts).toClientFields ↔
        r.Mirrored) := by
  obtain ⟨-, p, hp, rfl⟩ := marshal_eq_ok_iff.mp hmarshal
  exact ⟨p, hp, (copied_preimage sha256 r args _ hp).eq_iff⟩

/-- The options of a request with the given client certificates, from the defaults of a session. -/
def certRequest (certs : List ClientCertificate) : Resolved :=
  resolvedSync { clientIdentifier := some "chrome_146", clientCertificates := some certs } {}
    "https://example.com"

def exampleLibrary : Library := ⟨fun _ => none, 3⟩

def exampleArgs : RequestArgs := { method := "GET", url := "https://example.com" }

/-- A request with certificates only is marshalled. -/
theorem marshal_certRequest (sha256 : Bytes → Bytes) (certs : List ClientCertificate)
    (hcheck : checkMarshal exampleLibrary (certRequest certs) = .ok ()) :
    ∃ opts, marshal exampleLibrary sha256 (certRequest certs) exampleArgs = .ok opts :=
  ⟨_, marshal_eq_ok_iff.mpr ⟨hcheck, _, rfl, rfl⟩⟩

/-- A certificate with both halves. -/
theorem preimage_eq_iff_certificate :
    ∃ opts, marshal exampleLibrary id (certRequest [⟨some [65], some [66]⟩]) exampleArgs = .ok opts ∧
      ∃ p, computeCacheKeyPreimage id (certRequest [⟨some [65], some [66]⟩]) = .ok p ∧
        (p = buildCacheKeyPreimage id (requestConfigFromOptions opts).toClientFields ↔
          (certRequest [⟨some [65], some [66]⟩]).Mirrored) := by
  obtain ⟨opts, hmarshal⟩ := marshal_certRequest id [⟨some [65], some [66]⟩] rfl
  exact ⟨opts, hmarshal, preimage_eq_iff hmarshal⟩

/-- A certificate without a key makes the two sides differ, whatever the hash. -/
theorem keyless_preimages_differ :
    ¬ ∀ (lib : Library) (sha256 : Bytes → Bytes) (r : Resolved) (args : RequestArgs)
      (opts : C.RequestOptions) (p : Bytes), marshal lib sha256 r args = .ok opts →
      computeCacheKeyPreimage sha256 r = .ok p →
      p = buildCacheKeyPreimage sha256 (requestConfigFromOptions opts).toClientFields := by
  intro hparity
  obtain ⟨opts, hmarshal⟩ := marshal_certRequest id [⟨some [65], none⟩] rfl
  obtain ⟨-, p, hp, rfl⟩ := marshal_eq_ok_iff.mp hmarshal
  have hmirrored := (copied_preimage id _ _ _ hp).eq_iff.mp (hparity _ _ _ _ _ _ hmarshal hp)
  exact (hmirrored.clientCertificates ⟨some [65], none⟩ List.mem_cons_self).2 rfl

end TlsClient.CacheKey
