import TlsClient.Http2.HeaderTable
import TlsClient.Http2.HpackWire

/-!
# The HPACK decoder

Embeds `Decoder` of `src/third_party/fhttp/http2/hpack/hpack.go`. A header block is written to it in pieces. Of
every piece it takes off the complete representations of fields and saves what is left for the next piece. The
fields go to a function of the decoder's user, which may switch that off; the decoder then goes on to keep its
table up to date, but does not read the strings that the table does not need.

It does not matter how a header block is cut into pieces.
-/

open WireBytes (Bytes)
open Incremental

namespace TlsClient.Http2

/-- `emit` gets the user's state and says whether it is to be called for the next field: it may call
`SetEmitEnabled`. `saveBuf` stands beside the decoder, in the state of `write`. -/
structure Decoder (σ : Type) where
  dynTab : DynamicTable
  emit : σ → HeaderField → σ × Bool
  out : σ
  emitEnabled : Bool
  maxStrLen : ℕ
  firstField : Bool

inductive IndexType
  | indexedTrue
  | indexedFalse
  | indexedNever
  deriving DecidableEq, Repr

def IndexType.indexed (it : IndexType) : Bool := it = .indexedTrue

def IndexType.sensitive (it : IndexType) : Bool := it = .indexedNever

namespace Decoder

variable {σ : Type}

def newDecoder (maxDynamicTableSize : UInt32) (emit : σ → HeaderField → σ × Bool) (out : σ) : Decoder σ :=
  { dynTab := (DynamicTable.empty 0 maxDynamicTableSize).setMaxSize maxDynamicTableSize
    emit, out, emitEnabled := true, maxStrLen := 0, firstField := true }

def maxTableIndex (d : Decoder σ) : ℕ := d.dynTab.table.ents.length + staticTable.ents.length

/-- `at` -/
def fieldAt (d : Decoder σ) (i : ℕ) : Option HeaderField :=
  if i = 0 then none
  else if i ≤ staticTable.ents.length then staticTable.ents[i - 1]?
  else if i > d.maxTableIndex then none
  else d.dynTab.table.ents[d.dynTab.table.ents.length - (i - staticTable.ents.length)]?

def callEmit (d : Decoder σ) (hf : HeaderField) : Except HpackError (Decoder σ) :=
  if d.maxStrLen ≠ 0 ∧ (hf.name.length > d.maxStrLen ∨ hf.value.length > d.maxStrLen) then .error .stringLength
  else if d.emitEnabled then
    let (out, emitEnabled) := d.emit d.out hf
    .ok { d with out, emitEnabled }
  else .ok d

def parseFieldIndexed (d : Decoder σ) (buf : Bytes) : Except HpackError (Decoder σ × Bytes) := do
  let (idx, buf) ← readVarInt 7 buf
  match d.fieldAt idx with
  | none => .error (.invalidIndex idx)
  | some hf =>
    let d ← d.callEmit { name := hf.name, value := hf.value, sensitive := false }
    .ok (d, buf)

/-- The name of a literal: that of a field in the tables, or a string. -/
def readName (d : Decoder σ) (nameIdx : ℕ) (wantStr : Bool) (buf : Bytes) : Except HpackError (Bytes × Bytes) :=
  if nameIdx > 0 then
    match d.fieldAt nameIdx with
    | none => .error (.invalidIndex nameIdx)
    | some ihf => .ok (ihf.name, buf)
  else readString d.maxStrLen buf wantStr

/-- The part of `parseFieldLiteral` behind the strings. -/
def acceptLiteral (d : Decoder σ) (it : IndexType) (name value : Bytes) : Except HpackError (Decoder σ) :=
  let hf : HeaderField := { name, value, sensitive := false }
  let d := if it.indexed then { d with dynTab := d.dynTab.add hf } else d
  d.callEmit { hf with sensitive := it.sensitive }

def parseFieldLiteral (d : Decoder σ) (n : ℕ) (it : IndexType) (buf : Bytes) :
    Except HpackError (Decoder σ × Bytes) := do
  let (nameIdx, buf) ← readVarInt n buf
  let wantStr := d.emitEnabled || it.indexed
  let (name, buf) ← d.readName nameIdx wantStr buf
  let (value, buf) ← readString d.maxStrLen buf wantStr
  let d ← d.acceptLiteral it name value
  .ok (d, buf)

def parseDynamicTableSizeUpdate (d : Decoder σ) (buf : Bytes) : Except HpackError (Decoder σ × Bytes) :=
  if d.firstField = false ∧ d.dynTab.size > 0 then .error .updateNotFirst
  else do
    let (size, buf) ← readVarInt 5 buf
    if size > d.dynTab.allowedMaxSize.toNat then .error .updateTooLarge
    else .ok ({ d with dynTab := d.dynTab.setMaxSize (UInt32.ofNat size) }, buf)

def parseHeaderFieldRepr (d : Decoder σ) (buf : Bytes) : Except HpackError (Decoder σ × Bytes) :=
  match buf with
  | [] => .error .needMore
  | b :: _ =>
    if b &&& 128 ≠ 0 then d.parseFieldIndexed buf
    else if b &&& 192 = 64 then d.parseFieldLiteral 6 .indexedTrue buf
    else if b &&& 240 = 0 then d.parseFieldLiteral 4 .indexedFalse buf
    else if b &&& 240 = 16 then d.parseFieldLiteral 4 .indexedNever buf
    else if b &&& 224 = 32 then d.parseDynamicTableSizeUpdate buf
    else .error .invalidEncoding

/-- One round of the loop in `Write`: after a representation the next one is not the first. -/
def parseNext (d : Decoder σ) (buf : Bytes) : Except HpackError (Decoder σ × Bytes) := do
  let (d, buf) ← d.parseHeaderFieldRepr buf
  .ok ({ d with firstField := false }, buf)

/-- An incomplete representation is not saved when it is longer than any with short enough strings. -/
def tooLong (d : Decoder σ) (buf : Bytes) : Option HpackError :=
  if d.maxStrLen ≠ 0 ∧ buf.length > 2 * (d.maxStrLen + 8) then some .stringLength else none

/-! ## A representation is read from its own bytes -/

section Streaming

variable {d d' : Decoder σ} {buf rest : Bytes}

/-- An indexed field takes input and needs no more than its own bytes. -/
theorem strict_parseFieldIndexed (d : Decoder σ) : Strict HpackError.needMore d.parseFieldIndexed := by
  refine (strict_readVarInt 7).bind fun idx => ?_
  dsimp only
  cases d.fieldAt idx with
  | none => exact .throw _
  | some hf =>
    dsimp only
    cases d.callEmit { name := hf.name, value := hf.value, sensitive := false } with
    | error e => exact .throw _
    | ok d' => exact .pure _

/-- A name, indexed or literal, does not depend on what follows it. -/
theorem stable_readName (d : Decoder σ) (nameIdx : ℕ) (wantStr : Bool) :
    Stable HpackError.needMore (d.readName nameIdx wantStr) := by
  by_cases hpos : nameIdx > 0
  · unfold readName
    simp only [if_pos hpos]
    cases d.fieldAt nameIdx with
    | none => exact .throw _
    | some hf => exact .pure _
  · unfold readName
    simp only [if_neg hpos]
    exact stable_readString _ _

/-- A literal field takes input and does not depend on what follows it. -/
theorem strict_parseFieldLiteral (d : Decoder σ) (n : ℕ) (it : IndexType) :
    Strict HpackError.needMore (d.parseFieldLiteral n it) := by
  refine (strict_readVarInt n).bind fun nameIdx => (stable_readName d nameIdx _).bind fun name =>
    (stable_readString _ _).bind fun value => ?_
  dsimp only
  cases d.acceptLiteral it name value with
  | error e => exact .throw _
  | ok d' => exact .pure _

/-- Neither does a table size update. -/
theorem strict_parseDynamicTableSizeUpdate (d : Decoder σ) :
    Strict HpackError.needMore d.parseDynamicTableSizeUpdate := by
  by_cases hfirst : d.firstField = false ∧ d.dynTab.size > 0
  · unfold parseDynamicTableSizeUpdate
    simp only [if_pos hfirst]
    exact .throw _
  · unfold parseDynamicTableSizeUpdate
    simp only [if_neg hfirst]
    refine (strict_readVarInt 5).bind fun size => ?_
    by_cases hlarge : size > d.dynTab.allowedMaxSize.toNat
    · simp only [if_pos hlarge]
      exact .throw _
    · simp only [if_neg hlarge]
      exact .pure _

/-- Nor does any representation. -/
theorem strict_parseHeaderFieldRepr (d : Decoder σ) : Strict HpackError.needMore d.parseHeaderFieldRepr := by
  -- the first byte says how the representation is read
  have hkind : ∀ b : UInt8, ∃ f, Strict HpackError.needMore f ∧ (∀ p, d.parseHeaderFieldRepr (b :: p) = f (b :: p)) := by
    intro b
    simp only [parseHeaderFieldRepr]
    split_ifs
    · exact ⟨_, strict_parseFieldIndexed d, fun _ => rfl⟩
    · exact ⟨_, strict_parseFieldLiteral d _ _, fun _ => rfl⟩
    · exact ⟨_, strict_parseFieldLiteral d _ _, fun _ => rfl⟩
    · exact ⟨_, strict_parseFieldLiteral d _ _, fun _ => rfl⟩
    · exact ⟨_, strict_parseDynamicTableSizeUpdate d, fun _ => rfl⟩
    · exact ⟨_, .throw _, fun _ => rfl⟩
  refine ⟨⟨?_, ?_, ?_⟩, ?_⟩
  · intro p r a q h
    cases p with
    | nil => cases h
    | cons b p =>
      obtain ⟨f, hf, heq⟩ := hkind b
      rw [heq] at h
      rw [List.cons_append, heq]
      exact hf.ok_append q h
  · intro p e q h hne
    cases p with
    | nil => cases h; exact absurd rfl hne
    | cons b p =>
      obtain ⟨f, hf, heq⟩ := hkind b
      rw [heq] at h
      rw [List.cons_append, heq]
      exact hf.error_append q h hne
  · intro p r a h
    cases p with
    | nil => cases h
    | cons b p =>
      obtain ⟨f, hf, heq⟩ := hkind b
      rw [heq] at h
      exact hf.shorter h
  · intro p r a h
    cases p with
    | nil => cases h
    | cons b p =>
      obtain ⟨f, hf, heq⟩ := hkind b
      rw [heq] at h
      exact hf.strict h

theorem strict_parseNext (d : Decoder σ) : Strict HpackError.needMore d.parseNext :=
  (strict_parseHeaderFieldRepr d).bind fun _ => .pure _

end Streaming

def parser : Parser (Decoder σ) HpackError UInt8 where
  parse := parseNext
  needMore := .needMore
  strict := strict_parseNext

/-- `Write`. The state is the decoder and `saveBuf`. -/
def write (st : Decoder σ × Bytes) (p : Bytes) : Except HpackError (Decoder σ × Bytes) := feed parser tooLong st p

/-- `Close`, in the same state. -/
def close (st : Decoder σ × Bytes) : Except HpackError (Decoder σ) :=
  if st.2.length > 0 then .error .truncatedHeaders else .ok { st.1 with firstField := true }

/-- A whole header block, in pieces. -/
def decodeBlock (d : Decoder σ) (pieces : List Bytes) : Except HpackError (Decoder σ) := do
  let st ← pieces.foldlM write (d, [])
  close st

section Pieces

variable {d d' : Decoder σ} {buf rest : Bytes}

/-- The user's state and whether it wants the next field meet `Inv`, and `emit` keeps that. -/
structure UserInv (emit : σ → HeaderField → σ × Bool) (Inv : σ → Bool → Prop) (d : Decoder σ) : Prop where
  emit : d.emit = emit
  user : Inv d.out d.emitEnabled

variable {emit : σ → HeaderField → σ × Bool} {Inv : σ → Bool → Prop}

/-- Offering a field keeps what the user's function keeps. -/
theorem UserInv.callEmit {hf : HeaderField} (hemit : ∀ out hf, Inv out true → Inv (emit out hf).1 (emit out hf).2)
    (hd : UserInv emit Inv d) (h : d.callEmit hf = .ok d') : UserInv emit Inv d' := by
  rw [Decoder.callEmit] at h
  split_ifs at h with hlong henabled
  · obtain rfl := Except.ok.inj h
    have huser := hd.user
    rw [henabled] at huser
    have hnext : Inv (d.emit d.out hf).1 (d.emit d.out hf).2 := by
      rw [hd.emit]
      exact hemit d.out hf huser
    exact ⟨hd.emit, hnext⟩
  · obtain rfl := Except.ok.inj h
    exact hd

/-- So does one round of the loop. -/
theorem UserInv.parseNext (hemit : ∀ out hf, Inv out true → Inv (emit out hf).1 (emit out hf).2)
    (hd : UserInv emit Inv d) (h : d.parseNext buf = .ok (d', rest)) : UserInv emit Inv d' := by
  -- the three literal forms differ in the prefix and in what is added to the table
  have hliteral : ∀ {n it d' rest}, d.parseFieldLiteral n it buf = .ok (d', rest) → UserInv emit Inv d' := by
    intro n it d' rest h
    obtain ⟨_, -, h⟩ := Fallible.bind_eq_ok_iff.mp h
    obtain ⟨_, -, h⟩ := Fallible.bind_eq_ok_iff.mp h
    obtain ⟨_, -, h⟩ := Fallible.bind_eq_ok_iff.mp h
    obtain ⟨_, haccept, h⟩ := Fallible.bind_eq_ok_iff.mp h
    cases h
    refine UserInv.callEmit hemit ?_ haccept
    split
    · exact ⟨hd.emit, hd.user⟩
    · exact hd
  obtain ⟨⟨d₁, _⟩, hrepr, h⟩ := Fallible.bind_eq_ok_iff.mp h
  cases h
  suffices hrepr : UserInv emit Inv d₁ from ⟨hrepr.emit, hrepr.user⟩
  cases buf with
  | nil => cases hrepr
  | cons b p =>
    rw [parseHeaderFieldRepr] at hrepr
    split_ifs at hrepr
    · obtain ⟨⟨idx, _⟩, -, h⟩ := Fallible.bind_eq_ok_iff.mp hrepr
      simp only at h
      cases hfield : d.fieldAt idx with
      | none => rw [hfield] at h; cases h
      | some hf =>
        rw [hfield] at h
        obtain ⟨_, hcall, h⟩ := Fallible.bind_eq_ok_iff.mp h
        cases h
        exact hd.callEmit hemit hcall
    · exact hliteral hrepr
    · exact hliteral hrepr
    · exact hliteral hrepr
    -- a size update emits nothing
    · rw [parseDynamicTableSizeUpdate] at hrepr
      split_ifs at hrepr
      obtain ⟨_, -, h⟩ := Fallible.bind_eq_ok_iff.mp hrepr
      simp only at h
      split_ifs at h
      cases h
      exact ⟨hd.emit, hd.user⟩

/-- Writing keeps what the user's function keeps. -/
theorem UserInv.write {st st' : Decoder σ × Bytes} {p : Bytes}
    (hemit : ∀ out hf, Inv out true → Inv (emit out hf).1 (emit out hf).2) (hd : UserInv emit Inv st.1)
    (h : write st p = .ok st') : UserInv emit Inv st'.1 :=
  feed_invariant (fun hs hparse => hs.parseNext hemit hparse) hd h

/-- Offering a field does not change the string limit. -/
theorem callEmit_maxStrLen {hf : HeaderField} (h : d.callEmit hf = .ok d') : d'.maxStrLen = d.maxStrLen := by
  rw [callEmit] at h
  split_ifs at h <;> cases h <;> rfl

/-- Neither does a literal. -/
theorem acceptLiteral_maxStrLen {it : IndexType} {name value : Bytes} (h : d.acceptLiteral it name value = .ok d') :
    d'.maxStrLen = d.maxStrLen := by
  rw [acceptLiteral] at h
  rw [callEmit_maxStrLen h]
  split <;> rfl

/-- Nor does any representation. -/
theorem parseHeaderFieldRepr_maxStrLen (h : d.parseHeaderFieldRepr buf = .ok (d', rest)) :
    d'.maxStrLen = d.maxStrLen := by
  -- whatever its form, a literal ends in `acceptLiteral`
  have hliteral : ∀ {n it}, d.parseFieldLiteral n it buf = .ok (d', rest) → d'.maxStrLen = d.maxStrLen := by
    intro n it h
    obtain ⟨_, -, h⟩ := Fallible.bind_eq_ok_iff.mp h
    obtain ⟨_, -, h⟩ := Fallible.bind_eq_ok_iff.mp h
    obtain ⟨_, -, h⟩ := Fallible.bind_eq_ok_iff.mp h
    obtain ⟨_, haccept, h⟩ := Fallible.bind_eq_ok_iff.mp h
    cases h
    exact acceptLiteral_maxStrLen haccept
  cases buf with
  | nil => cases h
  | cons b p =>
    rw [parseHeaderFieldRepr] at h
    split_ifs at h
    · obtain ⟨⟨idx, _⟩, -, h⟩ := Fallible.bind_eq_ok_iff.mp h
      simp only at h
      cases hfield : d.fieldAt idx with
      | none => rw [hfield] at h; cases h
      | some hf =>
        rw [hfield] at h
        obtain ⟨_, hemit, h⟩ := Fallible.bind_eq_ok_iff.mp h
        cases h
        exact callEmit_maxStrLen hemit
    · exact hliteral h
    · exact hliteral h
    · exact hliteral h
    · rw [parseDynamicTableSizeUpdate] at h
      split_ifs at h
      obtain ⟨_, -, h⟩ := Fallible.bind_eq_ok_iff.mp h
      simp only at h
      split_ifs at h
      cases h
      rfl

/-- Without a string limit no input is too long. -/
theorem unlimited : Unlimited (parser (σ := σ)) tooLong fun d => d.maxStrLen = 0 where
  never {d buf} h := if_neg fun hlong => hlong.1 h
  step {d d' buf rest} h hparse := by
    obtain ⟨⟨d'', _⟩, hrepr, hnext⟩ := Fallible.bind_eq_ok_iff.mp hparse
    cases hnext
    exact (parseHeaderFieldRepr_maxStrLen hrepr).trans h

/-- A block in one piece is drained and closed. -/
theorem decodeBlock_single (d : Decoder σ) (whole : Bytes) :
    decodeBlock d [whole] = (drain parser tooLong d whole >>= fun st => close st) := by
  have hfeed : write (d, []) whole = drain parser tooLong d whole := feed_eq_drain (d, []) drain_nil whole
  rw [decodeBlock, List.foldlM_cons, hfeed]
  cases drain parser tooLong d whole <;> rfl

/-- It does not matter how a header block is cut: pieces that are taken give what the whole block gives, and
without a limit on the strings the pieces and the whole give the same result or error. -/
theorem decodeBlock_pieces (d : Decoder σ) (pieces : List Bytes) :
    (∀ d', decodeBlock d pieces = .ok d' → decodeBlock d [pieces.flatten] = .ok d') ∧
      (d.maxStrLen = 0 → decodeBlock d pieces = decodeBlock d [pieces.flatten]) := by
  constructor
  · intro d' h
    obtain ⟨st, hst, hclose⟩ := Fallible.bind_eq_ok_iff.mp h
    have hwhole : drain parser tooLong d pieces.flatten = .ok st := drain_of_foldlM_feed drain_nil hst
    rw [decodeBlock_single, hwhole]
    exact hclose
  · intro hlimit
    rw [decodeBlock_single]
    exact congrArg (· >>= fun st => close st) (feed_pieces_of_unlimited unlimited hlimit pieces)

end Pieces

end Decoder

end TlsClient.Http2
