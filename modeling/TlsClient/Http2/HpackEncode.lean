import TlsClient.Http2.HpackDecode

/-!
# The HPACK encoder

Embeds `src/third_party/fhttp/http2/hpack/encode.go`. A field is written as the index of an equal field in the
tables, or as a literal whose name may be an index. A literal may also be entered into the dynamic table; the
hook of `SetIndexingDecision` and the field itself can forbid that. When the size of the dynamic table has been
changed, the next field is preceded by one or two updates for the decoder.
-/

open WireBytes (Bytes)
open QueueIndex Utf8

namespace TlsClient.Http2

def uint32Max : UInt32 := 0xffffffff

def initialHeaderTableSize : UInt32 := 4096

structure Encoder where
  indexingDecision : Option (HeaderField → Bool)
  dynTab : DynamicTable
  minSize : UInt32
  maxSizeLimit : UInt32
  tableSizeUpdate : Bool

/-- `IndexingChrome` -/
def indexingChrome (f : HeaderField) : Bool :=
  if f.name = utf8 "authorization" ∨ f.name = utf8 "cookie" ∨ f.name = utf8 "set-cookie" ∨
      f.name = utf8 "content-length" ∨ f.name = utf8 "age" then false
  else true

def encodeTypeByte (indexing sensitive : Bool) : UInt8 :=
  if sensitive then 0x10 else if indexing then 0x40 else 0

def appendIndexed (dst : Bytes) (i : ℕ) : Bytes :=
  let first := dst.length
  setFlag (appendVarInt dst 7 i) first 0x80

def appendNewName (dst : Bytes) (f : HeaderField) (indexing : Bool) : Bytes :=
  let dst := dst ++ [encodeTypeByte indexing f.sensitive]
  let dst := appendHpackString dst f.name
  appendHpackString dst f.value

def appendIndexedName (dst : Bytes) (f : HeaderField) (i : ℕ) (indexing : Bool) : Bytes :=
  let first := dst.length
  let n := if indexing then 6 else 4
  let dst := setFlag (appendVarInt dst n i) first (encodeTypeByte indexing f.sensitive)
  appendHpackString dst f.value

def appendTableSize (dst : Bytes) (v : UInt32) : Bytes :=
  let first := dst.length
  setFlag (appendVarInt dst 5 v.toNat) first 0x20

namespace Encoder

/-- `NewEncoder`, and `SetIndexingDecision` -/
def newEncoder (indexingDecision : Option (HeaderField → Bool)) : Encoder :=
  { indexingDecision
    dynTab := (DynamicTable.empty 0 0).setMaxSize initialHeaderTableSize
    minSize := uint32Max
    maxSizeLimit := initialHeaderTableSize
    tableSizeUpdate := false }

def searchTable (e : Encoder) (f : HeaderField) : ℕ × Bool :=
  let (i, nameValueMatch) := staticTable.search true f
  if nameValueMatch then (i, true)
  else
    let (j, nameValueMatch) := e.dynTab.table.search false f
    if nameValueMatch ∨ (i = 0 ∧ j ≠ 0) then (j + staticTable.ents.length, nameValueMatch) else (i, false)

def shouldIndex (e : Encoder) (f : HeaderField) : Bool :=
  match e.indexingDecision with
  | some decide => if decide f = false then false else !f.sensitive && f.size ≤ e.dynTab.maxSize
  | none => !f.sensitive && f.size ≤ e.dynTab.maxSize

def setMaxDynamicTableSize (e : Encoder) (v : UInt32) : Encoder :=
  let v := if v > e.maxSizeLimit then e.maxSizeLimit else v
  { e with
    minSize := if v < e.minSize then v else e.minSize
    tableSizeUpdate := true
    dynTab := e.dynTab.setMaxSize v }

/-- The part of `WriteField` before the search: the updates of the table size. -/
def flushSizeUpdate (e : Encoder) : Encoder × Bytes :=
  if e.tableSizeUpdate then
    let buf := if e.minSize < e.dynTab.maxSize then appendTableSize [] e.minSize else []
    ({ e with tableSizeUpdate := false, minSize := uint32Max }, appendTableSize buf e.dynTab.maxSize)
  else (e, [])

/-- The part of `WriteField` from the search on. -/
def appendField (e : Encoder) (buf : Bytes) (f : HeaderField) : Encoder × Bytes :=
  let (idx, nameValueMatch) := e.searchTable f
  if nameValueMatch then (e, appendIndexed buf idx)
  else
    let indexing := e.shouldIndex f
    let e := if indexing then { e with dynTab := e.dynTab.add f } else e
    if idx = 0 then (e, appendNewName buf f indexing) else (e, appendIndexedName buf f idx indexing)

def writeField (e : Encoder) (f : HeaderField) : Encoder × Bytes :=
  let (e, buf) := e.flushSizeUpdate
  e.appendField buf f

/-- A header block: the fields are written into one buffer. -/
def encodeBlock (e : Encoder) : List HeaderField → Encoder × Bytes
  | [] => (e, [])
  | f :: fs =>
    let (e, bytes) := e.writeField f
    let (e, rest) := e.encodeBlock fs
    (e, bytes ++ rest)

end Encoder

/-! ## What is written is read -/

section Representations

variable {σ : Type} {d : Decoder σ} {e : Encoder} {f g : HeaderField} {i n : ℕ} {b : UInt8} {p rest : Bytes}

/-- The bits of the first byte of a literal: how many belong to the index, and the flag above them. -/
def IndexType.prefixBits : IndexType → ℕ
  | .indexedTrue => 6
  | .indexedFalse => 4
  | .indexedNever => 4

def IndexType.flag : IndexType → UInt8
  | .indexedTrue => 0x40
  | .indexedFalse => 0
  | .indexedNever => 0x10

/-- How the encoder's literal of a field is read. -/
def literalType (indexing : Bool) (f : HeaderField) : IndexType :=
  if f.sensitive then .indexedNever else if indexing then .indexedTrue else .indexedFalse

/-- The type byte of a literal. -/
theorem literalType_flag (indexing : Bool) (f : HeaderField) :
    (literalType indexing f).flag = encodeTypeByte indexing f.sensitive := by
  rw [literalType, encodeTypeByte]
  split_ifs <;> rfl

/-- A literal says whether its field is sensitive. -/
theorem literalType_sensitive (indexing : Bool) (f : HeaderField) :
    (literalType indexing f).sensitive = f.sensitive := by
  rw [literalType]
  cases f.sensitive <;> cases indexing <;> rfl

/-- The prefix of a literal's index. -/
theorem literalType_prefixBits {indexing : Bool} (h : indexing = true → f.sensitive = false) :
    (literalType indexing f).prefixBits = if indexing then 6 else 4 := by
  rw [literalType]
  cases indexing with
  | true => rw [h rfl]; rfl
  | false => cases f.sensitive <;> rfl

/-- A literal says whether its field is indexed. -/
theorem literalType_indexed {indexing : Bool} (h : indexing = true → f.sensitive = false) :
    (literalType indexing f).indexed = indexing := by
  rw [literalType]
  cases indexing with
  | true => rw [h rfl]; rfl
  | false => cases f.sensitive <;> rfl

theorem parse_indexed (b : UInt8) (p : Bytes) :
    d.parseHeaderFieldRepr ((b ||| 0x80) :: p) = d.parseFieldIndexed ((b ||| 0x80) :: p) := by
  rw [Decoder.parseHeaderFieldRepr, if_pos (high_bit b)]

/-- The flag stands for a literal of its type. -/
theorem parse_literal (it : IndexType) (hb : b.toNat < 2 ^ it.prefixBits) (p : Bytes) :
    d.parseHeaderFieldRepr ((b ||| it.flag) :: p) = d.parseFieldLiteral it.prefixBits it ((b ||| it.flag) :: p) := by
  have hflags : ∀ it : IndexType, ∀ x < 2 ^ it.prefixBits, (UInt8.ofNat x ||| it.flag) &&& 128 = 0 ∧
      ((UInt8.ofNat x ||| it.flag) &&& 192 = 64 ↔ it = .indexedTrue) ∧
      ((UInt8.ofNat x ||| it.flag) &&& 240 = 0 ↔ it = .indexedFalse) ∧
      ((UInt8.ofNat x ||| it.flag) &&& 240 = 16 ↔ it = .indexedNever) := by
    intro it
    cases it <;> decide +kernel
  have hbyte := hflags it b.toNat hb
  rw [UInt8.ofNat_toNat] at hbyte
  obtain ⟨h128, h192, h0, h16⟩ := hbyte
  rw [Decoder.parseHeaderFieldRepr, if_neg (not_not.mpr h128)]
  cases it with
  | indexedTrue => rw [if_pos (h192.mpr rfl)]; rfl
  | indexedFalse => rw [if_neg (by rw [h192]; decide), if_pos (h0.mpr rfl)]; rfl
  | indexedNever => rw [if_neg (by rw [h192]; decide), if_neg (by rw [h0]; decide), if_pos (h16.mpr rfl)]; rfl

/-- The third bit stands for a table size update. -/
theorem parse_update (hb : b.toNat < 2 ^ 5) (p : Bytes) :
    d.parseHeaderFieldRepr ((b ||| 0x20) :: p) = d.parseDynamicTableSizeUpdate ((b ||| 0x20) :: p) := by
  have hflags : ∀ x < 2 ^ 5, (UInt8.ofNat x ||| 0x20) &&& 128 = 0 ∧ (UInt8.ofNat x ||| 0x20) &&& 192 ≠ 64 ∧
      (UInt8.ofNat x ||| 0x20) &&& 240 ≠ 0 ∧ (UInt8.ofNat x ||| 0x20) &&& 240 ≠ 16 ∧
      (UInt8.ofNat x ||| 0x20) &&& 224 = 32 := by
    decide +kernel
  have hbyte := hflags b.toNat hb
  rw [UInt8.ofNat_toNat] at hbyte
  obtain ⟨h128, h192, h0, h16, h224⟩ := hbyte
  rw [Decoder.parseHeaderFieldRepr, if_neg (not_not.mpr h128), if_neg h192, if_neg h0, if_neg h16, if_pos h224]

/-- The decoder after a field has been offered to its user. -/
def Decoder.offer (d : Decoder σ) (f : HeaderField) : Decoder σ :=
  if d.emitEnabled then { d with out := (d.emit d.out f).1, emitEnabled := (d.emit d.out f).2 } else d

/-- The strings of the field are short enough for the decoder. -/
def Short (d : Decoder σ) (f : HeaderField) : Prop :=
  WithinLimit d.maxStrLen f.name ∧ WithinLimit d.maxStrLen f.value

/-- A field within the string limit is offered. -/
theorem callEmit_of_short (h : Short d f) : d.callEmit f = .ok (d.offer f) := by
  have hlong : ¬ (d.maxStrLen ≠ 0 ∧ (f.name.length > d.maxStrLen ∨ f.value.length > d.maxStrLen)) := by
    rintro ⟨hne, hgt⟩
    obtain ⟨hn, hv⟩ := h
    rw [WithinLimit] at hn hv
    omega
  rw [Decoder.callEmit, if_neg hlong, Decoder.offer]
  split_ifs <;> rfl

/-- The record is a whole representation for the decoder, whatever follows it. It is not so long that a beginning
of it could be refused. -/
def Reads (d : Decoder σ) (record : Bytes) (d' : Decoder σ) : Prop :=
  (∀ more, d.parseNext (record ++ more) = .ok (d', more)) ∧
    (d.maxStrLen ≠ 0 → record.length ≤ 2 * d.maxStrLen + 17)

/-- A representation has bytes. -/
theorem Reads.ne_nil {record : Bytes} {d' : Decoder σ} (h : Reads d record d') : record ≠ [] := by
  have hstrict := (Decoder.strict_parseNext d).strict (h.1 [])
  rw [List.append_nil] at hstrict
  exact List.ne_nil_of_length_pos hstrict

/-- A round of the loop reads a representation. -/
theorem parseNext_of_repr {d' : Decoder σ} {buf : Bytes} (h : d.parseHeaderFieldRepr buf = .ok (d', rest)) :
    d.parseNext buf = .ok ({ d' with firstField := false }, rest) := by
  rw [Decoder.parseNext, h]
  rfl

/-- The index of a field. -/
theorem reads_indexed (hi : i < 2 ^ 14) (hat : d.fieldAt i = some g)
    (hshort : Short d { name := g.name, value := g.value, sensitive := false }) :
    ∃ record, (∀ dst, appendIndexed dst i = dst ++ record) ∧
      Reads d record { d.offer { name := g.name, value := g.value, sensitive := false } with firstField := false } := by
  obtain ⟨b, tail, happend, hb, hread⟩ := @readVarInt_append 7 i (by decide) (by omega)
  have hlen := @length_appendVarInt 1 i hi 7 []
  rw [happend, List.nil_append, List.length_nil, List.length_cons] at hlen
  refine ⟨(b ||| 0x80) :: tail, fun dst => ?_, fun more => parseNext_of_repr ?_, fun _ => ?_⟩
  · simp only [appendIndexed]
    rw [happend, setFlag_append]
  · rw [List.cons_append, parse_indexed, Decoder.parseFieldIndexed, hread 0x80 more rfl]
    simp only [bind, Except.bind, hat, callEmit_of_short hshort]
  · rw [List.length_cons]
    omega

/-- An update of the table size. -/
theorem reads_update (v : UInt32) (hfirst : d.firstField = true ∨ d.dynTab.size = 0)
    (hallowed : v.toNat ≤ d.dynTab.allowedMaxSize.toNat) :
    ∃ record, (∀ dst, appendTableSize dst v = dst ++ record) ∧
      Reads d record { d with dynTab := d.dynTab.setMaxSize v, firstField := false } := by
  have hv := v.toNat_lt
  obtain ⟨b, tail, happend, hb, hread⟩ := @readVarInt_append 5 v.toNat (by decide) (by omega)
  have hlen := @length_appendVarInt 4 v.toNat (by omega) 5 []
  rw [happend, List.nil_append, List.length_nil, List.length_cons] at hlen
  have hplace : ¬ (d.firstField = false ∧ d.dynTab.size > 0) := by
    rintro ⟨hfalse, hpos⟩
    rcases hfirst with h | h
    · rw [h] at hfalse
      cases hfalse
    · rw [h] at hpos
      exact absurd hpos (by decide)
  refine ⟨(b ||| 0x20) :: tail, fun dst => ?_, fun more => ?_, fun _ => ?_⟩
  · simp only [appendTableSize]
    rw [happend, setFlag_append]
  · refine @parseNext_of_repr _ d more { d with dynTab := d.dynTab.setMaxSize v } _ ?_
    rw [List.cons_append, parse_update hb, Decoder.parseDynamicTableSizeUpdate, if_neg hplace, hread 0x20 more rfl]
    simp only [bind, Except.bind, if_neg (Nat.not_lt.mpr hallowed), UInt32.ofNat_toNat]
  · rw [List.length_cons]
    omega

/-- The decoder after a literal: the field is in its table if it is an indexed one. -/
def Decoder.takeLiteral (d : Decoder σ) (indexing : Bool) (f : HeaderField) : Decoder σ :=
  (if indexing then { d with dynTab := d.dynTab.add f } else d).offer f

/-- A literal is offered and, if it says so, added to the table. -/
theorem acceptLiteral_eq {indexing : Bool} (hindexing : indexing = true → f.sensitive = false) (hshort : Short d f)
    {name value : Bytes} (hname : name.length ≤ f.name.length) (hvalue : value.length ≤ f.value.length)
    (hwanted : (d.emitEnabled || indexing) = true → name = f.name ∧ value = f.value) :
    d.acceptLiteral (literalType indexing f) name value = .ok (d.takeLiteral indexing f) := by
  have hindexed := literalType_indexed hindexing
  have hsensitive := literalType_sensitive indexing f
  simp only [Decoder.acceptLiteral, hindexed, hsensitive, Decoder.takeLiteral]
  by_cases hwant : (d.emitEnabled || indexing) = true
  · obtain ⟨rfl, rfl⟩ := hwanted hwant
    cases indexing with
    | false => exact callEmit_of_short hshort
    | true =>
      have hf : ({ name := f.name, value := f.value, sensitive := false } : HeaderField) = f := by
        rw [← hindexing rfl]
      simp only [if_true, hf]
      exact callEmit_of_short (d := { d with dynTab := d.dynTab.add f }) hshort
  · -- nobody wants the field
    rw [Bool.or_eq_true, not_or, Bool.not_eq_true, Bool.not_eq_true] at hwant
    have hskipped : Short d { name, value, sensitive := f.sensitive } := by
      obtain ⟨hn, hv⟩ := hshort
      simp only [Short, WithinLimit] at hn hv ⊢
      omega
    simp only [hwant.2, Bool.false_eq_true, if_false]
    rw [callEmit_of_short hskipped, Decoder.offer, Decoder.offer, hwant.1]
    rfl

/-- A literal is an index, a name and a value. -/
theorem parseFieldLiteral_of_strings {it : IndexType} {buf more name value : Bytes} {d' : Decoder σ} (p' : Bytes)
    (hidx : readVarInt n buf = .ok (i, p)) (hname : d.readName i (d.emitEnabled || it.indexed) p = .ok (name, p'))
    (hvalue : readString d.maxStrLen p' (d.emitEnabled || it.indexed) = .ok (value, more))
    (haccept : d.acceptLiteral it name value = .ok d') : d.parseFieldLiteral n it buf = .ok (d', more) := by
  simp only [Decoder.parseFieldLiteral, bind, Except.bind, hidx, hname, hvalue, haccept]

/-- A literal, with its name or the index of a field with that name. -/
theorem reads_literal {indexing : Bool} (hindexing : indexing = true → f.sensitive = false) (hshort : Short d f)
    (hi : i < 2 ^ 14) (hat : i ≠ 0 → ∃ g, d.fieldAt i = some g ∧ g.name = f.name)
    (hfits : f.name.length + f.value.length < 2 ^ 32) :
    ∃ record, (∀ dst, (if i = 0 then appendNewName dst f indexing else appendIndexedName dst f i indexing) =
        dst ++ record) ∧
      Reads d record { d.takeLiteral indexing f with firstField := false } := by
  have hbits := @literalType_prefixBits f indexing hindexing
  have hindexed := literalType_indexed hindexing
  have hprefix : 1 < (literalType indexing f).prefixBits ∧ (literalType indexing f).prefixBits < 8 := by
    cases literalType indexing f <;> decide
  have hflag : (literalType indexing f).flag.toNat % 2 ^ (literalType indexing f).prefixBits = 0 := by
    cases literalType indexing f <;> decide
  obtain ⟨nameTail, hnameAppend, hnameRead⟩ := @readString_append f.name d.maxStrLen (by omega) hshort.1
  obtain ⟨valueTail, hvalueAppend, hvalueRead⟩ := @readString_append f.value d.maxStrLen (by omega) hshort.2
  have hnameLen := @length_appendHpackString f.name (by omega) []
  have hvalueLen := @length_appendHpackString f.value (by omega) []
  rw [hnameAppend, List.nil_append, List.length_nil] at hnameLen
  rw [hvalueAppend, List.nil_append, List.length_nil] at hvalueLen
  obtain ⟨b, tail, happend, hb, hread⟩ := @readVarInt_append (literalType indexing f).prefixBits i hprefix.2 (by omega)
  have hlen := @length_appendVarInt 1 i hi (literalType indexing f).prefixBits []
  rw [happend, List.nil_append, List.length_nil, List.length_cons] at hlen
  have hlimit : d.maxStrLen ≠ 0 → f.name.length ≤ d.maxStrLen ∧ f.value.length ≤ d.maxStrLen := fun hne =>
    ⟨hshort.1.resolve_left hne, hshort.2.resolve_left hne⟩
  -- a string that is not wanted is read as the empty one
  have hskip : ∀ {want : Bool} {s : Bytes}, (if want then s else []).length ≤ s.length := by
    intro want s
    cases want <;> simp
  have hwanted : ∀ {s : Bytes}, (d.emitEnabled || indexing) = true →
      (if (d.emitEnabled || indexing) = true then s else []) = s := fun hwant => if_pos hwant
  by_cases hzero : i = 0
  · -- the byte of the type alone
    have hpow : 2 ^ 1 < 2 ^ (literalType indexing f).prefixBits := Nat.pow_lt_pow_right (by decide) hprefix.1
    have hbyte : [UInt8.ofNat 0] = b :: tail := by
      have hempty := happend []
      rwa [appendVarInt, hzero, Nat.one_shiftLeft, if_pos (by omega), List.nil_append] at hempty
    obtain ⟨rfl, rfl⟩ := List.cons.inj hbyte
    refine ⟨(UInt8.ofNat 0 ||| (literalType indexing f).flag) :: (nameTail ++ valueTail), fun dst => ?_,
      fun more => parseNext_of_repr ?_, fun hne => ?_⟩
    · have hor : UInt8.ofNat 0 ||| (literalType indexing f).flag = (literalType indexing f).flag := UInt8.zero_or
      rw [if_pos hzero, appendNewName, hnameAppend, hvalueAppend, hor, literalType_flag, List.append_assoc,
        List.append_assoc, List.singleton_append]
    · rw [List.cons_append, List.append_assoc, parse_literal _ hb]
      refine parseFieldLiteral_of_strings (valueTail ++ more) (hread _ _ hflag) ?_ ?_
        (acceptLiteral_eq hindexing hshort hskip hskip fun hwant => ⟨hwanted hwant, hwanted hwant⟩)
      · rw [Decoder.readName, if_neg (by omega), hindexed]
        exact hnameRead _ _
      · rw [hindexed]
        exact hvalueRead _ _
    · have hmax := hlimit hne
      simp only [List.length_cons, List.length_append]
      omega
  · obtain ⟨g, hg, hgname⟩ := hat hzero
    refine ⟨(b ||| (literalType indexing f).flag) :: (tail ++ valueTail), fun dst => ?_,
      fun more => parseNext_of_repr ?_, fun hne => ?_⟩
    · rw [if_neg hzero, appendIndexedName, ← hbits, happend, setFlag_append, hvalueAppend, literalType_flag]
      simp only [List.append_assoc, List.cons_append]
    · rw [List.cons_append, List.append_assoc, parse_literal _ hb]
      refine parseFieldLiteral_of_strings (valueTail ++ more) (hread _ _ hflag) ?_ ?_
        (acceptLiteral_eq hindexing hshort le_rfl hskip fun hwant => ⟨rfl, hwanted hwant⟩)
      · rw [Decoder.readName, if_pos (by omega), hg, ← hgname]
      · rw [hindexed]
        exact hvalueRead _ _
    · have hmax := hlimit hne
      simp only [List.length_cons, List.length_append]
      omega

end Representations

end TlsClient.Http2
