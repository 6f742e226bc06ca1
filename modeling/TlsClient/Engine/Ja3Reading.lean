import TlsClient.Engine.Ja3

/-!
# What a spec says of its JA3 string

A string that `stringToSpec` accepts can be read off the spec again: its cipher suites, the ids of its extensions
and what its extensions for curves and point formats hold are the numbers written in the parts, one by one
(`stringToSpec_reads`). The texts of the numbers are not kept: `04865` is read as 4865, so a rendering gives the
parts without their leading zeros.

An extension is looked up by its id in a map. All that is ever assigned to a key is an extension with that id
(`id_of_write`), so the ids of the spec are the numbers, whatever the order of the assignments.
-/

namespace TlsClient.Engine.Ja3

open TlsClient.Ffi Utf8 Numerals

/-! ## Numbers and their texts -/

/-- The numbers written in a part. -/
def numbers (part : Bytes) : List ℕ := (items part).map value

/-- Numbers as a part of a JA3 string. -/
def render (ns : List ℕ) : Bytes := [45].intercalate (ns.map fun n : ℕ => itoa (n : ℤ))

/-- The part, with the leading zeros of its numbers left out. -/
def withoutLeadingZeros (part : Bytes) : Bytes := [45].intercalate ((items part).map stripZeros)

/-- The items are texts of numbers. -/
def Written (part : Bytes) : Prop := ∀ text ∈ items part, text ≠ [] ∧ Decimal text

/-- The object behind the pointer, of a GREASE extension. -/
def greaseObject : TLSExtension → Option ℕ
  | .grease object => some object
  | _ => none

/-- The spec holds the numbers of the parts, in their order. -/
structure Reads (utls : Utls) (ciphers extensions curves pointFormats : Bytes) (spec : ClientHelloSpec) : Prop where
  written : Written ciphers ∧ Written extensions ∧ Written curves ∧ Written pointFormats
  cipherSuites : spec.cipherSuites.map UInt16.toNat = numbers ciphers
  extensionIds : spec.extensions.map (fun e => (e.id utls).toNat) = numbers extensions
  grease : ∀ e ∈ spec.extensions, e.id utls = utls.greasePlaceholder → ∃ object, e = .grease object
  fresh : (spec.extensions.filterMap greaseObject).Nodup
  curves : ∀ e ∈ spec.extensions, e.id utls = utls.extension .supportedCurves →
    ∃ targetCurves, e = .supportedCurves targetCurves ∧ targetCurves.map UInt16.toNat = numbers curves
  pointFormats : ∀ e ∈ spec.extensions, e.id utls = utls.extension .supportedPoints →
    ∃ targetPointFormats, e = .supportedPoints targetPointFormats ∧
      targetPointFormats.map UInt8.toNat = numbers pointFormats

/-- The numbers of a part are written without leading zeros. -/
theorem render_numbers {part : Bytes} (h : Written part) : render (numbers part) = withoutLeadingZeros part := by
  rw [render, numbers, withoutLeadingZeros, List.map_map]
  congr 1
  exact List.map_congr_left fun text htext => itoa_value (h text htext).2 (h text htext).1

/-- A part whose numbers have no leading zeros is kept as it is. -/
theorem withoutLeadingZeros_eq {part : Bytes} (h : ∀ text ∈ items part, stripZeros text = text) :
    withoutLeadingZeros part = part := by
  have hmap : (items part).map stripZeros = items part := by
    conv_rhs => rw [← List.map_id (items part)]
    exact List.map_congr_left h
  rw [withoutLeadingZeros, hmap, items]
  split_ifs with hempty
  · obtain ⟨hone, hfirst⟩ := hempty
    obtain ⟨only, honly⟩ := List.length_eq_one_iff.mp hone
    have hjoin : [45].intercalate (splitHyphen part) = part := List.intercalate_splitOn 45
    rw [honly] at hfirst hjoin
    obtain rfl := Option.some.inj hfirst
    exact hjoin
  · exact List.intercalate_splitOn 45

/-! ## The items of a part -/

variable {utls : Utls} {bitSize : ℕ} {texts : List Bytes} {ns : List ℕ}

/-- The items that are converted are the texts of the results. -/
theorem parseItems_eq (h : parseItems bitSize texts = .ok ns) :
    ns = texts.map value ∧ (∀ text ∈ texts, text ≠ [] ∧ Decimal text) ∧ ∀ n ∈ ns, n < 2 ^ bitSize := by
  have hall := Fallible.forall₂_of_mapM h
  clear h
  induction hall with
  | nil => simp
  | cons hparse _ ih =>
    obtain ⟨hne, hdecimal, rfl, hlt⟩ := parseUint_decimal (Fallible.mapError_eq_ok_iff.mp hparse)
    obtain ⟨rfl, htexts, hlts⟩ := ih
    exact ⟨rfl, List.forall_mem_cons.mpr ⟨⟨hne, hdecimal⟩, htexts⟩, List.forall_mem_cons.mpr ⟨hlt, hlts⟩⟩

/-- Numbers of 16 bits are kept. -/
theorem map_toNat_ofNat16 (h : ∀ n ∈ ns, n < 2 ^ 16) : (ns.map UInt16.ofNat).map UInt16.toNat = ns := by
  rw [List.map_map]
  conv_rhs => rw [← List.map_id ns]
  refine List.map_congr_left fun n hn => ?_
  rw [Function.comp_apply, UInt16.toNat_ofNat', Nat.mod_eq_of_lt (h n hn), id]

/-- Numbers of 8 bits are kept. -/
theorem map_toNat_ofNat8 (h : ∀ n ∈ ns, n < 2 ^ 8) : (ns.map UInt8.ofNat).map UInt8.toNat = ns := by
  rw [List.map_map]
  conv_rhs => rw [← List.map_id ns]
  refine List.map_congr_left fun n hn => ?_
  rw [Function.comp_apply, UInt8.toNat_ofNat', Nat.mod_eq_of_lt (h n hn), id]

/-- A part that must not be empty has its items like one that may. -/
theorem items_of_ne_nil {part : Bytes} (h : ∀ text ∈ splitHyphen part, text ≠ []) : items part = splitHyphen part := by
  refine if_neg ?_
  rintro ⟨-, hfirst⟩
  exact h [] (List.mem_of_getElem? hfirst) rfl

/-! ## The map of the extensions -/

variable {options : MappedOptions} {targetCurves : List UInt16} {targetPointFormats : List UInt8}

/-- All writes to the map, in their order. -/
def writes (utls : Utls) (options : MappedOptions) (targetCurves : List UInt16) (targetPointFormats : List UInt8) :
    List (UInt16 × TLSExtension) :=
  getExtensionBaseMap utls ++ assignments utls options targetCurves targetPointFormats

/-- What is found was written. -/
theorem mem_of_lookupLast {l : List (UInt16 × TLSExtension)} {id : UInt16} {e : TLSExtension}
    (h : lookupLast l id = some e) : (id, e) ∈ l := by
  obtain ⟨l₁, l₂, hl, -⟩ := List.lookup_eq_some_iff.mp h
  rw [← List.mem_reverse, hl]
  exact List.mem_append_right _ List.mem_cons_self

/-- An extension is assigned to its own id. -/
theorem id_of_write {w : UInt16 × TLSExtension} (h : w ∈ writes utls options targetCurves targetPointFormats) :
    w.2.id utls = w.1 := by
  simp only [writes, getExtensionBaseMap, assignments, List.mem_append, List.mem_cons, List.not_mem_nil, or_false,
    List.mem_ite_nil_right] at h
  rcases h with h | h
  · rcases h with rfl | rfl | rfl | rfl | rfl | rfl | rfl | rfl | rfl | rfl | rfl | rfl <;> rfl
  · rcases h with (((rfl | ⟨-, rfl⟩) | h) | ⟨-, rfl⟩) | rfl
    · rfl
    · rfl
    · rcases h with rfl | rfl | rfl | rfl | rfl | rfl | rfl | rfl | rfl <;> rfl
    · rfl
    · rfl

/-! ## The loop over the extensions -/

/-- Under every key of the map is an extension with that id. -/
def Coherent (utls : Utls) (extMap : UInt16 → Option TLSExtension) : Prop :=
  ∀ id e, extMap id = some e → e.id utls = id

/-- What the map has under an id is an extension of that id. -/
theorem coherent_writes : Coherent utls (lookupLast (writes utls options targetCurves targetPointFormats)) :=
  fun _ _ h => id_of_write (mem_of_lookupLast h)

/-- What the loop has collected from the texts, with GREASE extensions numbered from `fresh` on. -/
structure Collected (utls : Utls) (extMap : UInt16 → Option TLSExtension) (fresh : ℕ) (texts : List Bytes)
    (exts : List TLSExtension) : Prop where
  ids : exts.map (fun e => (e.id utls).toNat) = texts.map value
  written : ∀ text ∈ texts, text ≠ [] ∧ Decimal text
  found : ∀ e ∈ exts, (∃ object, e = .grease object) ∨
    extMap (e.id utls) = some e ∧ e.id utls ≠ utls.greasePlaceholder
  numbered : ∀ object ∈ exts.filterMap greaseObject, fresh ≤ object
  nodup : (exts.filterMap greaseObject).Nodup

variable {extMap : UInt16 → Option TLSExtension} {fresh : ℕ} {exts : List TLSExtension} {text : Bytes}
  {e : TLSExtension}

/-- A round that makes a GREASE extension. -/
theorem Collected.cons_grease (h : Collected utls extMap (fresh + 1) texts exts) (htext : text ≠ [] ∧ Decimal text)
    (hvalue : utls.greasePlaceholder.toNat = value text) :
    Collected utls extMap fresh (text :: texts) (.grease fresh :: exts) where
  ids := by
    rw [List.map_cons, List.map_cons, h.ids, ← hvalue]
    rfl
  written := List.forall_mem_cons.mpr ⟨htext, h.written⟩
  found := List.forall_mem_cons.mpr ⟨.inl ⟨fresh, rfl⟩, h.found⟩
  numbered := by
    intro object hmem
    rcases List.mem_cons.mp hmem with rfl | hmem
    · exact Nat.le_refl _
    · exact Nat.le_of_succ_le (h.numbered object hmem)
  nodup := List.nodup_cons.mpr ⟨fun hmem => Nat.not_succ_le_self fresh (h.numbered fresh hmem), h.nodup⟩

/-- A round that finds an extension in the map. -/
theorem Collected.cons_found (h : Collected utls extMap fresh texts exts) (htext : text ≠ [] ∧ Decimal text)
    (hvalue : (e.id utls).toNat = value text) (hfound : extMap (e.id utls) = some e)
    (hgrease : e.id utls ≠ utls.greasePlaceholder) : Collected utls extMap fresh (text :: texts) (e :: exts) := by
  have hnone : greaseObject e = none := by
    cases e with
    | grease object => exact absurd rfl hgrease
    | _ => rfl
  have hobjects : (e :: exts).filterMap greaseObject = exts.filterMap greaseObject :=
    List.filterMap_cons_none hnone
  refine ⟨?_, List.forall_mem_cons.mpr ⟨htext, h.written⟩,
    List.forall_mem_cons.mpr ⟨.inr ⟨hfound, hgrease⟩, h.found⟩, hobjects ▸ h.numbered, hobjects ▸ h.nodup⟩
  rw [List.map_cons, List.map_cons, h.ids, ← hvalue]

/-- What the loop over the ids collects, if it ends. -/
theorem collected_of_ok (hmap : Coherent utls extMap) (h : collectExtensions utls extMap fresh texts = .ok exts) :
    Collected utls extMap fresh texts exts := by
  induction texts generalizing fresh exts with
  | nil =>
    obtain rfl := Except.ok.inj h
    exact ⟨rfl, by simp, by simp, by simp, .nil⟩
  | cons text texts ih =>
    rw [collectExtensions] at h
    obtain ⟨eId, heId, h⟩ := Fallible.bind_eq_ok_iff.mp h
    obtain ⟨hne, hdecimal, rfl, hlt⟩ := parseUint_decimal (Fallible.mapError_eq_ok_iff.mp heId)
    have hnat : (UInt16.ofNat (value text)).toNat = value text := by
      rw [UInt16.toNat_ofNat', Nat.mod_eq_of_lt hlt]
    -- a GREASE value makes a fresh object; any other number is looked up in the table
    by_cases hgrease : UInt16.ofNat (value text) = utls.greasePlaceholder
    · rw [if_pos hgrease] at h
      obtain ⟨rest, hrest, h⟩ := Fallible.bind_eq_ok_iff.mp h
      obtain rfl := Except.ok.inj h
      exact (ih hrest).cons_grease ⟨hne, hdecimal⟩ (hgrease ▸ hnat)
    · rw [if_neg hgrease] at h
      cases hlookup : extMap (UInt16.ofNat (value text)) with
      | none =>
        simp only [hlookup] at h
        split_ifs at h
      | some te =>
        simp only [hlookup] at h
        obtain ⟨rest, hrest, h⟩ := Fallible.bind_eq_ok_iff.mp h
        obtain rfl := Except.ok.inj h
        have hid := hmap _ te hlookup
        exact (ih hrest).cons_found ⟨hne, hdecimal⟩ (hid ▸ hnat) (hid ▸ hlookup) (hid ▸ hgrease)

/-! ## The spec -/

/-- Of the writes, only one is to the key of the curves, and only one to that of the point formats. -/
theorem writes_targets {id : UInt16} (h : (id, e) ∈ writes utls options targetCurves targetPointFormats) :
    (id = utls.extension .supportedCurves → e = .supportedCurves targetCurves) ∧
      (id = utls.extension .supportedPoints → e = .supportedPoints targetPointFormats) := by
  simp only [writes, getExtensionBaseMap, assignments, List.mem_append, List.mem_cons, List.not_mem_nil, or_false,
    List.mem_ite_nil_right, Prod.mk.injEq] at h
  constructor
  · rintro rfl
    simpa only [utls.extension_injective.eq_iff, utls.extension_ne_trustAnchors, reduceCtorEq, false_and, and_false,
      false_or, or_false, true_and] using h
  · rintro rfl
    simpa only [utls.extension_injective.eq_iff, utls.extension_ne_trustAnchors, reduceCtorEq, false_and, and_false,
      false_or, or_false, true_and] using h

/-- The parts are read. -/
theorem partsToSpec_reads {ciphers extensions curves pointFormats : Bytes} {spec : ClientHelloSpec}
    (h : partsToSpec utls options ciphers extensions curves pointFormats = .ok spec) :
    Reads utls ciphers extensions curves pointFormats spec := by
  rw [partsToSpec] at h
  obtain ⟨targetCurves, hcurves, h⟩ := Fallible.bind_eq_ok_iff.mp h
  obtain ⟨targetPointFormats, hpoints, h⟩ := Fallible.bind_eq_ok_iff.mp h
  obtain ⟨exts, hexts, h⟩ := Fallible.bind_eq_ok_iff.mp h
  obtain ⟨suites, hsuites, h⟩ := Fallible.bind_eq_ok_iff.mp h
  obtain rfl := Except.ok.inj h
  -- the four fields as they were read: written without another character, and in range
  obtain ⟨rfl, hcurvesWritten, hcurvesLt⟩ := parseItems_eq hcurves
  obtain ⟨rfl, hpointsWritten, hpointsLt⟩ := parseItems_eq hpoints
  obtain ⟨rfl, hsuitesWritten, hsuitesLt⟩ := parseItems_eq hsuites
  have hcollected := collected_of_ok coherent_writes hexts
  have hciphers := items_of_ne_nil fun text htext => (hsuitesWritten text htext).1
  have hextensions := items_of_ne_nil fun text htext => (hcollected.written text htext).1
  -- an extension of a known number came from the table, which no GREASE value is in
  have hfound : ∀ e ∈ exts, ∀ name, e.id utls = utls.extension name → (e.id utls, e) ∈
      writes utls options (((items curves).map value).map UInt16.ofNat)
        (((items pointFormats).map value).map UInt8.ofNat) := by
    intro e he name hid
    rcases hcollected.found e he with ⟨object, rfl⟩ | ⟨hlookup, -⟩
    · exact absurd hid.symm (utls.extension_ne_grease name)
    · exact mem_of_lookupLast hlookup
  constructor
  · exact ⟨fun text htext => hsuitesWritten text (hciphers ▸ htext),
      fun text htext => hcollected.written text (hextensions ▸ htext), hcurvesWritten, hpointsWritten⟩
  · rw [map_toNat_ofNat16 hsuitesLt, numbers, hciphers]
  · rw [hcollected.ids, numbers, hextensions]
  · intro e he hid
    exact (hcollected.found e he).resolve_right fun h => h.2 hid
  · exact hcollected.nodup
  · intro e he hid
    exact ⟨_, (writes_targets (hfound e he _ hid)).1 hid, map_toNat_ofNat16 hcurvesLt⟩
  · intro e he hid
    exact ⟨_, (writes_targets (hfound e he _ hid)).2 hid, map_toNat_ofNat8 hpointsLt⟩

/-- The spec written as JA3 parts gives the parts without the leading zeros of their numbers: its cipher suites,
the ids of its extensions, and what its extensions for curves and point formats hold, if it has them. -/
structure Rendered (utls : Utls) (ciphers extensions curves pointFormats : Bytes) (spec : ClientHelloSpec) :
    Prop where
  cipherSuites : render (spec.cipherSuites.map UInt16.toNat) = withoutLeadingZeros ciphers
  extensions : render (spec.extensions.map fun e => (e.id utls).toNat) = withoutLeadingZeros extensions
  curves : ∀ cs, .supportedCurves cs ∈ spec.extensions → render (cs.map UInt16.toNat) = withoutLeadingZeros curves
  pointFormats : ∀ ps, .supportedPoints ps ∈ spec.extensions →
    render (ps.map UInt8.toNat) = withoutLeadingZeros pointFormats

/-- What was read is rendered. -/
theorem Reads.rendered {ciphers extensions curves pointFormats : Bytes} {spec : ClientHelloSpec}
    (h : Reads utls ciphers extensions curves pointFormats spec) :
    Rendered utls ciphers extensions curves pointFormats spec := by
  obtain ⟨hciphers, hextensions, hcurves, hpoints⟩ := h.written
  constructor
  · rw [h.cipherSuites, render_numbers hciphers]
  · rw [h.extensionIds, render_numbers hextensions]
  · intro cs hcs
    obtain ⟨_, heq, hnumbers⟩ := h.curves _ hcs rfl
    obtain rfl := TLSExtension.supportedCurves.inj heq
    rw [hnumbers, render_numbers hcurves]
  · intro ps hps
    obtain ⟨_, heq, hnumbers⟩ := h.pointFormats _ hps rfl
    obtain rfl := TLSExtension.supportedPoints.inj heq
    rw [hnumbers, render_numbers hpoints]

/-- A string that is accepted has the numbers of the spec in its parts, and a rendering of the spec gives the
parts without their leading zeros, which are the parts themselves where no number has any. -/
theorem stringToSpec_reads {ja3 : Bytes} {spec : ClientHelloSpec}
    (h : stringToSpec utls ja3 options = .ok (.ok spec)) :
    ∃ ciphers extensions curves pointFormats, (splitComma ja3)[1]? = some ciphers ∧
      (splitComma ja3)[2]? = some extensions ∧ (splitComma ja3)[3]? = some curves ∧
      (splitComma ja3)[4]? = some pointFormats ∧ Reads utls ciphers extensions curves pointFormats spec ∧
      Rendered utls ciphers extensions curves pointFormats spec ∧
      ∀ part ∈ [ciphers, extensions, curves, pointFormats],
        (∀ text ∈ items part, stripZeros text = text) → withoutLeadingZeros part = part := by
  have hparts : 5 ≤ (splitComma ja3).length := stringToSpec_ok_iff.mp ⟨_, h⟩
  obtain ⟨ciphers, extensions, curves, pointFormats, h₁, h₂, h₃, h₄, hspec⟩ :=
    @stringToSpec_of_parts utls ja3 hparts options
  have hreads := partsToSpec_reads (Except.ok.inj (hspec.symm.trans h))
  exact ⟨ciphers, extensions, curves, pointFormats, h₁, h₂, h₃, h₄, hreads, hreads.rendered,
    fun _ _ => withoutLeadingZeros_eq⟩

def noOptions : MappedOptions where
  signatureAlgorithms := []
  delegatedCredentialsAlgorithms := []
  tlsVersions := []
  keyShares := []
  hpkeSymmetricCipherSuites := []
  candidatePayloads := []
  supportedProtocolsALPN := []
  supportedProtocolsALPS := []
  certCompressionAlgorithms := []
  recordSizeLimit := 0
  trustAnchors := []

/-- Two cipher suites, the curves between two GREASE extensions, and two curves. -/
theorem stringToSpec_reads_grease :
    ∃ spec, stringToSpec registered (utf8 "771,4865-4866,2570-10-2570,29-23,") noOptions = .ok (.ok spec) ∧
      Reads registered (utf8 "4865-4866") (utf8 "2570-10-2570") (utf8 "29-23") [] spec := by
  have hspec : stringToSpec registered (utf8 "771,4865-4866,2570-10-2570,29-23,") noOptions =
      .ok (.ok ⟨[4865, 4866], [.grease 0, .supportedCurves [29, 23], .grease 1]⟩) := by rfl
  obtain ⟨_, _, _, _, h₁, h₂, h₃, h₄, hreads, -⟩ := stringToSpec_reads hspec
  obtain rfl := Option.some.inj h₁
  obtain rfl := Option.some.inj h₂
  obtain rfl := Option.some.inj h₃
  obtain rfl := Option.some.inj h₄
  exact ⟨_, hspec, hreads⟩

/-- A leading zero is not rendered. -/
theorem leading_zero_lost :
    ¬∀ (utls : Utls) (ja3 : Bytes) (options : MappedOptions) (spec : ClientHelloSpec),
      stringToSpec utls ja3 options = .ok (.ok spec) →
      (splitComma ja3)[1]? = some (render (spec.cipherSuites.map UInt16.toNat)) := by
  intro hall
  have hspec : stringToSpec registered (utf8 "771,04865,0,,") noOptions = .ok (.ok ⟨[4865], [.sni]⟩) := by rfl
  have hkept := hall _ _ _ _ hspec
  revert hkept
  decide

end TlsClient.Engine.Ja3
