import TlsClient.Http2.Framer
import TlsClient.Http2.HpackDecode

/-!
# Reading header blocks

Embeds `readMetaFrame` of `src/third_party/fhttp/http2/frame.go` and `ReadFrame` with `ReadMetaHeaders`: the
fragments of a HEADERS or PUSH_PROMISE frame and of the CONTINUATION frames behind it are decoded as they arrive.
The function that gets the fields stops taking them at the first invalid one and at the first that does not fit
into the list any more, and the rest of the block goes to the decoder's table only.

Whatever bytes the peer sends, a frame that is read has well-formed fields.
-/

open WireBytes Fallible Utf8

namespace TlsClient.Http2

/-- What the checks use of the package `httpguts`. -/
structure HttpGuts where
  validHeaderFieldValue : Bytes → Bool
  /-- `IsTokenRune`, of the bytes below 0x80. -/
  isTokenRune : UInt8 → Bool

/-- A rune that is no ASCII character is no token rune. -/
def HttpGuts.validWireHeaderFieldName (g : HttpGuts) (v : Bytes) : Bool :=
  v ≠ [] && v.all fun r => r < 0x80 && g.isTokenRune r && !(0x41 ≤ r && r ≤ 0x5a)

/-- `IsPseudo` -/
def HeaderField.isPseudo (hf : HeaderField) : Bool := hf.name.head? = some 0x3a

/-- The errors of fields. -/
inductive FieldError
  | headerFieldValue (value : Bytes)
  | headerFieldName (name : Bytes)
  | pseudoAfterRegular
  | pseudoHeader (name : Bytes)
  | duplicatePseudoHeader (name : Bytes)
  | mixPseudoHeaderTypes
  deriving DecidableEq

/-- `metaFrame`, with the other variables that the function for the fields has from `readMetaFrame`. -/
structure MetaFrame where
  fields : List HeaderField
  truncated : Bool
  remainSize : UInt32
  sawRegular : Bool
  invalid : Option FieldError

def MetaFrame.init (maxHeaderListSize : UInt32) : MetaFrame :=
  { fields := [], truncated := false, remainSize := maxHeaderListSize, sawRegular := false, invalid := none }

/-- The checks of a field. -/
def checkField (g : HttpGuts) (mf : MetaFrame) (hf : HeaderField) : MetaFrame :=
  let mf := if !g.validHeaderFieldValue hf.value then { mf with invalid := some (.headerFieldValue hf.value) } else mf
  if hf.isPseudo then
    if mf.sawRegular then { mf with invalid := some .pseudoAfterRegular } else mf
  else
    let mf := { mf with sawRegular := true }
    if !g.validWireHeaderFieldName hf.name then { mf with invalid := some (.headerFieldName hf.name) } else mf

/-- The function that `readMetaFrame` sets to get the fields. -/
def emitMeta (g : HttpGuts) (mf : MetaFrame) (hf : HeaderField) : MetaFrame × Bool :=
  let mf := checkField g mf hf
  if mf.invalid.isSome then (mf, false)
  else
    let size := hf.size
    if size > mf.remainSize then ({ mf with truncated := true }, false)
    else ({ mf with remainSize := mf.remainSize - size, fields := mf.fields ++ [hf] }, true)

/-- `pseudoFields` -/
def pseudoFields (fields : List HeaderField) : List HeaderField := fields.takeWhile HeaderField.isPseudo

def requestPseudoNames : List Bytes :=
  [utf8 ":method", utf8 ":path", utf8 ":scheme", utf8 ":authority", utf8 ":protocol"]

/-- The loop of `checkPseudos` over the pseudo fields, behind the fields `before`. -/
def checkPseudosLoop (before : List HeaderField) (isRequest isResponse : Bool) : List HeaderField → Option FieldError
  | [] => if isRequest && isResponse then some .mixPseudoHeaderTypes else none
  | hf :: pf =>
    if requestPseudoNames.contains hf.name then
      if before.any fun hf2 => hf.name = hf2.name then some (.duplicatePseudoHeader hf.name)
      else checkPseudosLoop (before ++ [hf]) true isResponse pf
    else if hf.name = utf8 ":status" then
      if before.any fun hf2 => hf.name = hf2.name then some (.duplicatePseudoHeader hf.name)
      else checkPseudosLoop (before ++ [hf]) isRequest true pf
    else some (.pseudoHeader hf.name)

def checkPseudos (fields : List HeaderField) : Option FieldError :=
  checkPseudosLoop [] false false (pseudoFields fields)

/-- A framer with `ReadMetaHeaders` and `MaxHeaderListSize`. The decoder has its `saveBuf` beside it. -/
structure MetaFramer where
  framer : Framer
  readMetaHeaders : Decoder MetaFrame × Bytes
  maxHeaderListSize : UInt32

/-- `maxHeaderListSize` -/
def MetaFramer.listSize (mr : MetaFramer) : UInt32 :=
  if mr.maxHeaderListSize = 0 then (16 : UInt32) <<< 20 else mr.maxHeaderListSize

inductive MetaResult
  | frame (f : Frame)
  | metaHeaders (fh : FrameHeader) (priority : PriorityParam) (fields : List HeaderField) (truncated : Bool)
  | metaPushPromise (fh : FrameHeader) (promiseID : UInt32) (fields : List HeaderField) (truncated : Bool)
  | streamError (streamID code : UInt32) (cause : Option FieldError)

/-- An error of the reader, or the panic of the type assertion in `readMetaFrame`. -/
inductive MetaError
  | read (e : ReadError)
  | notContinuation

/-- The loop of `readMetaFrame` from the fragment `frag` on, which is the last one if `headersEnded`. When the next
frame is the error of a stream, that is the result. -/
def readFragments (fr : Framer) (st : Decoder MetaFrame × Bytes) (frag : Bytes) (headersEnded : Bool) (r : Bytes) :
    Except MetaError (Framer × (Decoder MetaFrame × Bytes) × Bytes × Option (UInt32 × UInt32)) :=
  match Decoder.write st frag with
  | .error _ => .error (.read (.connection errCodeCompression none))
  | .ok st =>
    if headersEnded then .ok (fr, st, r, none)
    else
      match _h : readFrame fr r with
      | .error e => .error (.read e)
      | .ok (fr, r, .streamError streamID code) => .ok (fr, st, r, some (streamID, code))
      | .ok (fr, r, .frame (.continuation fh frag)) => readFragments fr st frag (fh.has flagEndHeaders) r
      | .ok (_, _, .frame _) => .error .notContinuation
termination_by r.length
decreasing_by
  have := readFrame_length _h
  omega

/-- The decoder as `readMetaFrame` sets it up. -/
def MetaFramer.hdec (g : HttpGuts) (mr : MetaFramer) : Decoder MetaFrame :=
  { mr.readMetaHeaders.1 with
    emit := emitMeta g, out := MetaFrame.init mr.listSize, emitEnabled := true, maxStrLen := mr.listSize.toNat }

/-- The part of `readMetaFrame` behind the loop. `make` makes the meta frame. -/
def finishMetaFrame (mr : MetaFramer) (fh : FrameHeader) (make : List HeaderField → Bool → MetaResult)
    (fr : Framer) (st : Decoder MetaFrame × Bytes) (r : Bytes) (streamError : Option (UInt32 × UInt32)) :
    Except MetaError (MetaFramer × Bytes × MetaResult) :=
  match streamError with
  | some (streamID, code) => .ok ({ mr with framer := fr, readMetaHeaders := st }, r, .streamError streamID code none)
  | none =>
    match Decoder.close st with
    | .error _ => .error (.read (.connection errCodeCompression none))
    | .ok hdec =>
      let mr := { mr with framer := fr, readMetaHeaders := (hdec, []) }
      match hdec.out.invalid with
      | some invalid => .ok (mr, r, .streamError fh.streamID errCodeProtocol (some invalid))
      | none =>
        match checkPseudos hdec.out.fields with
        | some err => .ok (mr, r, .streamError fh.streamID errCodeProtocol (some err))
        | none => .ok (mr, r, make hdec.out.fields hdec.out.truncated)

def readMetaFrame (g : HttpGuts) (mr : MetaFramer) (fh : FrameHeader) (frag : Bytes) (r : Bytes)
    (make : List HeaderField → Bool → MetaResult) : Except MetaError (MetaFramer × Bytes × MetaResult) := do
  let (fr, st, r, streamError) ←
    readFragments mr.framer (mr.hdec g, mr.readMetaHeaders.2) frag (fh.has flagEndHeaders) r
  finishMetaFrame mr fh make fr st r streamError

/-- `ReadFrame` -/
def MetaFramer.readFrame (g : HttpGuts) (mr : MetaFramer) (r : Bytes) :
    Except MetaError (MetaFramer × Bytes × MetaResult) :=
  match Http2.readFrame mr.framer r with
  | .error e => .error (.read e)
  | .ok (fr, r, .streamError streamID code) => .ok ({ mr with framer := fr }, r, .streamError streamID code none)
  | .ok (fr, r, .frame (.headers fh priority frag)) =>
    readMetaFrame g { mr with framer := fr } fh frag r (.metaHeaders fh priority)
  | .ok (fr, r, .frame (.pushPromise fh promiseID frag)) =>
    readMetaFrame g { mr with framer := fr } fh frag r (.metaPushPromise fh promiseID)
  | .ok (fr, r, .frame f) => .ok ({ mr with framer := fr }, r, .frame f)

/-! ## The fields that are taken -/

section Fields

variable {g : HttpGuts} {mf : MetaFrame} {hf : HeaderField} {limit : UInt32} {fields : List HeaderField}

/-- The field passes the checks where regular fields have been seen, or not. -/
def HttpGuts.Passes (g : HttpGuts) (sawRegular : Bool) (hf : HeaderField) : Prop :=
  g.validHeaderFieldValue hf.value = true ∧
    if hf.isPseudo then sawRegular = false else g.validWireHeaderFieldName hf.name = true

/-- What the check of one field changes, and when it finds nothing wrong. -/
theorem checkField_spec (h : mf.invalid = none) (hf : HeaderField) :
    ((checkField g mf hf).invalid = none ↔ g.Passes mf.sawRegular hf) ∧
      (checkField g mf hf).sawRegular = (mf.sawRegular || !hf.isPseudo) ∧
      (checkField g mf hf).fields = mf.fields ∧ (checkField g mf hf).remainSize = mf.remainSize ∧
      (checkField g mf hf).truncated = mf.truncated := by
  cases hvalue : g.validHeaderFieldValue hf.value <;> cases hpseudo : hf.isPseudo <;>
    cases hsaw : mf.sawRegular <;> cases hname : g.validWireHeaderFieldName hf.name <;>
    simp [checkField, HttpGuts.Passes, hvalue, hpseudo, hsaw, hname, h]

/-- What holds of the fields that have been taken, and of whether the next one is wanted. -/
structure Collected (g : HttpGuts) (limit : UInt32) (mf : MetaFrame) (enabled : Bool) : Prop where
  size : (mf.fields.map fun f => f.size.toNat).sum + mf.remainSize.toNat = limit.toNat
  values : ∀ f ∈ mf.fields, g.validHeaderFieldValue f.value = true
  regular : ∀ f ∈ mf.fields.dropWhile HeaderField.isPseudo,
    f.isPseudo = false ∧ g.validWireHeaderFieldName f.name = true
  wanted : enabled = true →
    mf.invalid = none ∧ (mf.sawRegular = false → ∀ f ∈ mf.fields, f.isPseudo = true)

/-- At first nothing is collected. -/
theorem collected_init (g : HttpGuts) (limit : UInt32) : Collected g limit (MetaFrame.init limit) true where
  size := Nat.zero_add _
  values := fun _ hf => by cases hf
  regular := fun _ hf => by cases hf
  wanted := fun _ => ⟨rfl, fun _ _ hf => by cases hf⟩

/-- What is dropped from the front does not depend on the end. -/
theorem mem_dropWhile_append {α : Type} {p : α → Bool} {l : List α} {a x : α} (h : x ∈ (l ++ [a]).dropWhile p) :
    x ∈ l.dropWhile p ∨ x = a := by
  rw [List.dropWhile_append] at h
  split_ifs at h
  · exact Or.inr (List.mem_singleton.mp ((List.dropWhile_suffix p).subset h))
  · exact (List.mem_append.mp h).imp id List.mem_singleton.mp

/-- One more field is collected. -/
theorem collected_emit (g : HttpGuts) (limit : UInt32) (mf : MetaFrame) (hf : HeaderField)
    (h : Collected g limit mf true) : Collected g limit (emitMeta g mf hf).1 (emitMeta g mf hf).2 := by
  obtain ⟨hvalid, hpseudo⟩ := h.wanted rfl
  obtain ⟨hpasses, hsaw, hfields, hremain, -⟩ := checkField_spec (g := g) hvalid hf
  -- a field that is refused leaves the collection as it was, and nothing more is wanted
  have hkept : ∀ mf' : MetaFrame, mf'.fields = mf.fields → mf'.remainSize = mf.remainSize →
      Collected g limit mf' false := by
    intro mf' hfields hremain
    refine ⟨?_, ?_, ?_, fun hfalse => Bool.noConfusion hfalse⟩
    · rw [hfields, hremain]
      exact h.size
    · rw [hfields]
      exact h.values
    · rw [hfields]
      exact h.regular
  simp only [emitMeta]
  split_ifs with hinvalid hlarge
  · exact hkept _ hfields hremain
  · exact hkept _ hfields hremain
  · have hnone : (checkField g mf hf).invalid = none := by
      rw [← Option.not_isSome_iff_eq_none]
      exact hinvalid
    obtain ⟨hvalue, hkind⟩ := hpasses.mp hnone
    rw [gt_iff_lt, hremain, UInt32.lt_iff_toNat_lt, not_lt] at hlarge
    refine ⟨?_, ?_, ?_, fun _ => ⟨hnone, fun hsaw' => ?_⟩⟩
    · have hsub : (mf.remainSize - hf.size).toNat = mf.remainSize.toNat - hf.size.toNat :=
        UInt32.toNat_sub_of_le _ _ (UInt32.le_iff_toNat_le.mpr hlarge)
      have hsize := h.size
      simp only [hfields, hremain, hsub, List.map_append, List.sum_append, List.map_cons, List.map_nil,
        List.sum_cons, List.sum_nil]
      omega
    · simp only [hfields]
      intro f hmem
      rcases List.mem_append.mp hmem with hold | hnew
      · exact h.values f hold
      · rwa [List.mem_singleton.mp hnew]
    · simp only [hfields]
      -- a pseudo field is only let through while all before it were pseudo fields
      intro f hmem
      cases his : hf.isPseudo with
      | true =>
        rw [his, if_pos rfl] at hkind
        have hall : ∀ f ∈ mf.fields ++ [hf], f.isPseudo = true := by
          intro f hmem
          rcases List.mem_append.mp hmem with hold | hnew
          · exact hpseudo hkind f hold
          · rwa [List.mem_singleton.mp hnew]
        rw [List.dropWhile_eq_nil_iff.mpr hall] at hmem
        cases hmem
      | false =>
        rw [his, if_neg Bool.false_ne_true] at hkind
        rcases mem_dropWhile_append hmem with hold | rfl
        · exact h.regular f hold
        · exact ⟨his, hkind⟩
    · simp only [hfields]
      rw [hsaw, Bool.or_eq_false_iff] at hsaw'
      intro f hmem
      rcases List.mem_append.mp hmem with hold | hnew
      · exact hpseudo hsaw'.1 f hold
      · rw [List.mem_singleton.mp hnew]
        exact (Bool.not_eq_false' _).mp hsaw'.2

/-- The fields of a header block as they should be: pseudo fields first, each known and at most once, none of a
request beside one of a response; names and values valid; the list not too large. -/
structure WellFormed (g : HttpGuts) (limit : UInt32) (fields : List HeaderField) : Prop where
  known : ∀ f ∈ pseudoFields fields, f.name ∈ requestPseudoNames ∨ f.name = utf8 ":status"
  once : ((pseudoFields fields).map HeaderField.name).Nodup
  unmixed : ¬((∃ f ∈ pseudoFields fields, f.name ∈ requestPseudoNames) ∧
    ∃ f ∈ pseudoFields fields, f.name = utf8 ":status")
  regular : ∀ f ∈ fields.dropWhile HeaderField.isPseudo,
    f.isPseudo = false ∧ g.validWireHeaderFieldName f.name = true
  values : ∀ f ∈ fields, g.validHeaderFieldValue f.value = true
  size : (fields.map fun f => f.size.toNat).sum ≤ limit.toNat

theorem status_not_request : utf8 ":status" ∉ requestPseudoNames := by
  decide

/-- When the loop over the pseudo-headers finds nothing wrong. -/
theorem checkPseudosLoop_eq_none_iff (before pf : List HeaderField) (isRequest isResponse : Bool) :
    checkPseudosLoop before isRequest isResponse pf = none ↔
      (∀ f ∈ pf, f.name ∈ requestPseudoNames ∨ f.name = utf8 ":status") ∧
        (pf.map HeaderField.name).Nodup ∧ (∀ f ∈ pf, ∀ f' ∈ before, f.name ≠ f'.name) ∧
          ¬((isRequest = true ∨ ∃ f ∈ pf, f.name ∈ requestPseudoNames) ∧
            (isResponse = true ∨ ∃ f ∈ pf, f.name = utf8 ":status")) := by
  induction pf generalizing before isRequest isResponse with
  | nil => cases isRequest <;> cases isResponse <;> simp [checkPseudosLoop]
  | cons hf pf ih =>
    -- the names seen so far are carried in `before`, so the later fields differ from this one too
    have hdistinct : (∀ f ∈ pf, ∀ f' ∈ before ++ [hf], f.name ≠ f'.name) ↔
        hf.name ∉ pf.map HeaderField.name ∧ ∀ f ∈ pf, ∀ f' ∈ before, f.name ≠ f'.name := by
      simp only [List.mem_append, List.mem_singleton, List.mem_map]
      grind
    have hany : (before.any fun hf2 => decide (hf.name = hf2.name)) = true ↔ ∃ f' ∈ before, hf.name = f'.name := by
      simp
    have hcontains : requestPseudoNames.contains hf.name = true ↔ hf.name ∈ requestPseudoNames := List.contains_iff_mem
    simp only [checkPseudosLoop, List.map_cons, List.nodup_cons, List.mem_cons, forall_eq_or_imp, exists_eq_or_imp]
    by_cases hrequest : hf.name ∈ requestPseudoNames
    · have hstatus : hf.name ≠ utf8 ":status" := fun h => status_not_request (h ▸ hrequest)
      rw [if_pos (hcontains.mpr hrequest)]
      by_cases hdup : ∃ f' ∈ before, hf.name = f'.name
      · rw [if_pos (hany.mpr hdup)]
        obtain ⟨f', hmem, heq⟩ := hdup
        exact iff_of_false (fun h => by cases h) fun h => h.2.2.1.1 f' hmem heq
      · rw [if_neg (mt hany.mp hdup), ih, hdistinct]
        push Not at hdup
        simp only [hrequest, hstatus, true_or, or_true, false_or, true_and]
        tauto
    · rw [if_neg (mt hcontains.mp hrequest)]
      by_cases hstatus : hf.name = utf8 ":status"
      · rw [if_pos hstatus]
        by_cases hdup : ∃ f' ∈ before, hf.name = f'.name
        · rw [if_pos (hany.mpr hdup)]
          obtain ⟨f', hmem, heq⟩ := hdup
          exact iff_of_false (fun h => by cases h) fun h => h.2.2.1.1 f' hmem heq
        · rw [if_neg (mt hany.mp hdup), ih, hdistinct]
          push Not at hdup
          simp only [hrequest, eq_true hstatus, true_or, or_true, false_or, true_and, and_true]
          tauto
      · rw [if_neg hstatus]
        exact iff_of_false (fun h => by cases h) fun h => h.1.1.elim hrequest hstatus

/-- When the check of the pseudo-headers finds nothing wrong. -/
theorem checkPseudos_eq_none_iff (fields : List HeaderField) : checkPseudos fields = none ↔
    (∀ f ∈ pseudoFields fields, f.name ∈ requestPseudoNames ∨ f.name = utf8 ":status") ∧
      ((pseudoFields fields).map HeaderField.name).Nodup ∧
        ¬((∃ f ∈ pseudoFields fields, f.name ∈ requestPseudoNames) ∧
          ∃ f ∈ pseudoFields fields, f.name = utf8 ":status") := by
  rw [checkPseudos, checkPseudosLoop_eq_none_iff]
  simp

end Fields

/-! ## What is read -/

section Reading

variable {g : HttpGuts} {fr fr' : Framer} {mr mr' : MetaFramer} {st st' : Decoder MetaFrame × Bytes}
  {frag r r' : Bytes} {ended : Bool} {err : Option (UInt32 × UInt32)} {limit : UInt32} {result : MetaResult}

/-- The fragments keep what the function for the fields keeps. -/
theorem readFragments_collected (hst : Decoder.UserInv (emitMeta g) (Collected g limit) st.1)
    (h : readFragments fr st frag ended r = .ok (fr', st', r', err)) :
    Decoder.UserInv (emitMeta g) (Collected g limit) st'.1 ∧ r'.length ≤ r.length := by
  -- a frame is read in each round, so what is left to read gets shorter
  induction hlen : r.length using Nat.strongRecOn generalizing fr st frag ended r with
  | ind n ih =>
    rw [readFragments] at h
    cases hwrite : Decoder.write st frag with
    | error e =>
      rw [hwrite] at h
      cases h
    | ok st₁ =>
      have hst₁ := hst.write (collected_emit g limit) hwrite
      rw [hwrite] at h
      simp only at h
      split_ifs at h with hended
      · cases h
        exact ⟨hst₁, hlen.le⟩
      · split at h
        · cases h
        · rename_i fr₁ r₁ streamID code hread
          have hless := readFrame_length hread
          cases h
          exact ⟨hst₁, by omega⟩
        · rename_i fr₁ r₁ fh frag₁ hread
          have hless := readFrame_length hread
          obtain ⟨hst', hle⟩ := ih r₁.length (by omega) hst₁ h rfl
          exact ⟨hst', by omega⟩
        · cases h

/-- Every frame behind the first one of a header block continues it. -/
theorem readFragments_ne_notContinuation (hopen : ended = false → fr.lastHeaderStream ≠ 0) :
    readFragments fr st frag ended r ≠ .error .notContinuation := by
  induction hlen : r.length using Nat.strongRecOn generalizing fr st frag ended r with
  | ind n ih =>
    rw [readFragments]
    cases Decoder.write st frag with
    | error e => exact fun h => by cases h
    | ok st₁ =>
      simp only
      cases ended with
      | true => exact fun h => by cases h
      | false =>
        rw [if_neg Bool.false_ne_true]
        split
        · exact fun h => by cases h
        · exact fun h => by cases h
        · rename_i fr₁ r₁ fh frag₁ hread
          have hless := readFrame_length hread
          obtain ⟨hof, -, hlast⟩ := readFrame_frame hread
          refine ih r₁.length (by omega) (fun hend => ?_) rfl
          rw [hlast, Frame.header, openStream, if_pos (Or.inr (Or.inr hof.2.1)), if_neg (by rw [hend]; decide)]
          exact hof.2.2
        -- any other frame here is the framer's own error, since the stream is open
        · rename_i fr₁ r₁ f hnot hread
          obtain ⟨fh, frag₁, rfl⟩ := eq_continuation_of_readFrame (hopen rfl) hread
          exact absurd rfl (hnot fh frag₁)

/-- The meta frame is made of well-formed fields. -/
def MetaResult.WellFormed (g : HttpGuts) (limit : UInt32) : MetaResult → Prop
  | .metaHeaders _ _ fields _ => Http2.WellFormed g limit fields
  | .metaPushPromise _ _ fields _ => Http2.WellFormed g limit fields
  | .frame _ | .streamError .. => True

/-- A header block that is complete is judged by all its fields. -/
theorem finishMetaFrame_spec {fh : FrameHeader} {make : List HeaderField → Bool → MetaResult}
    (hmake : ∀ fields truncated, Http2.WellFormed g mr.listSize fields →
      (make fields truncated).WellFormed g mr.listSize)
    (hst : Decoder.UserInv (emitMeta g) (Collected g mr.listSize) st.1)
    (h : finishMetaFrame mr fh make fr st r err = .ok (mr', r', result)) :
    result.WellFormed g mr.listSize ∧ mr'.maxHeaderListSize = mr.maxHeaderListSize ∧ r' = r := by
  cases err with
  | some e =>
    cases h
    exact ⟨trivial, rfl, rfl⟩
  | none =>
    simp only [finishMetaFrame] at h
    cases hclose : Decoder.close st with
    | error e =>
      rw [hclose] at h
      cases h
    | ok hdec =>
      -- closing the block checks that nothing is left over, and leaves the user's state
      have hout : hdec.out = st.1.out := by
        rw [Decoder.close] at hclose
        split_ifs at hclose
        obtain rfl := Except.ok.inj hclose
        rfl
      rw [hclose] at h
      simp only at h
      split at h
      · cases h
        exact ⟨trivial, rfl, rfl⟩
      · split at h
        · cases h
          exact ⟨trivial, rfl, rfl⟩
        · rename_i hpseudos
          cases h
          obtain ⟨hknown, honce, hunmixed⟩ := (checkPseudos_eq_none_iff _).mp hpseudos
          have huser := hst.user
          rw [← hout] at huser
          have hsize := huser.size
          exact ⟨hmake _ _ ⟨hknown, honce, hunmixed, huser.regular, huser.values, by omega⟩, rfl, rfl⟩

/-- So is one that is read frame by frame. -/
theorem readMetaFrame_spec {fh : FrameHeader} {make : List HeaderField → Bool → MetaResult}
    (hmake : ∀ fields truncated, Http2.WellFormed g mr.listSize fields →
      (make fields truncated).WellFormed g mr.listSize)
    (h : readMetaFrame g mr fh frag r make = .ok (mr', r', result)) :
    result.WellFormed g mr.listSize ∧ mr'.maxHeaderListSize = mr.maxHeaderListSize ∧ r'.length ≤ r.length := by
  obtain ⟨⟨fr₁, st₁, r₁, err⟩, hfragments, h⟩ := bind_eq_ok_iff.mp h
  have hinit : Decoder.UserInv (emitMeta g) (Collected g mr.listSize) (mr.hdec g) :=
    ⟨rfl, collected_init g mr.listSize⟩
  obtain ⟨hst₁, hle⟩ := readFragments_collected hinit hfragments
  obtain ⟨hformed, hsame, rfl⟩ := finishMetaFrame_spec hmake hst₁ h
  exact ⟨hformed, hsame, hle⟩

/-- One frame: what is read is well formed and takes something off what is left to read. -/
theorem MetaFramer.readFrame_spec (h : mr.readFrame g r = .ok (mr', r', result)) :
    result.WellFormed g mr.listSize ∧ mr'.maxHeaderListSize = mr.maxHeaderListSize ∧ r'.length < r.length := by
  rw [MetaFramer.readFrame] at h
  split at h
  · cases h
  · rename_i hread
    have hless := readFrame_length hread
    cases h
    exact ⟨trivial, rfl, by omega⟩
  · rename_i fr₁ r₁ fh priority frag hread
    have hless := readFrame_length hread
    obtain ⟨hformed, hsame, hle⟩ := @readMetaFrame_spec g { mr with framer := fr₁ } mr' frag r₁ r' result fh
      (.metaHeaders fh priority) (fun _ _ hformed => hformed) h
    exact ⟨hformed, hsame, by omega⟩
  · rename_i fr₁ r₁ fh promiseID frag hread
    have hless := readFrame_length hread
    obtain ⟨hformed, hsame, hle⟩ := @readMetaFrame_spec g { mr with framer := fr₁ } mr' frag r₁ r' result fh
      (.metaPushPromise fh promiseID) (fun _ _ hformed => hformed) h
    exact ⟨hformed, hsame, by omega⟩
  · rename_i hread
    have hless := readFrame_length hread
    cases h
    exact ⟨trivial, rfl, by omega⟩

/-- The end of a header block needs no continuation. -/
theorem finishMetaFrame_ne_notContinuation {fh : FrameHeader} {make : List HeaderField → Bool → MetaResult} :
    finishMetaFrame mr fh make fr st r err ≠ .error .notContinuation := by
  unfold finishMetaFrame
  split
  · exact fun h => by cases h
  · split
    · exact fun h => by cases h
    · simp only
      split
      · exact fun h => by cases h
      · split <;> exact fun h => by cases h

/-- Behind an open header block there are continuations only. -/
theorem readMetaFrame_ne_notContinuation {fh : FrameHeader} {make : List HeaderField → Bool → MetaResult}
    (hopen : fh.has flagEndHeaders = false → mr.framer.lastHeaderStream ≠ 0) :
    readMetaFrame g mr fh frag r make ≠ .error .notContinuation := by
  have hfragments := @readFragments_ne_notContinuation mr.framer (mr.hdec g, mr.readMetaHeaders.2) frag r _ hopen
  rw [readMetaFrame]
  cases hresult : readFragments mr.framer (mr.hdec g, mr.readMetaHeaders.2) frag (fh.has flagEndHeaders) r with
  | error e =>
    rw [hresult] at hfragments
    exact fun h => hfragments (congrArg Except.error (Except.error.inj h))
  | ok result => exact finishMetaFrame_ne_notContinuation

/-- `ReadFrame` does not panic. -/
theorem MetaFramer.readFrame_ne_notContinuation : mr.readFrame g r ≠ .error .notContinuation := by
  have hopens : ∀ {fr r fr' r' f}, Http2.readFrame fr r = .ok (fr', r', .frame f) →
      (f.header.type = frameHeaders ∨ f.header.type = framePushPromise ∨ f.header.type = frameContinuation) →
      f.header.streamID ≠ 0 → f.header.has flagEndHeaders = false → fr'.lastHeaderStream ≠ 0 := by
    intro fr r fr' r' f hread htype hid hend
    rw [(readFrame_frame hread).2.2, openStream, if_pos htype, if_neg (by rw [hend]; decide)]
    exact hid
  rw [MetaFramer.readFrame]
  split
  · exact fun h => by cases h
  · exact fun h => by cases h
  · rename_i hread
    have hof := (readFrame_frame hread).1
    exact readMetaFrame_ne_notContinuation (hopens hread (Or.inl hof.2.1) hof.2.2)
  · rename_i hread
    have hof := (readFrame_frame hread).1
    exact readMetaFrame_ne_notContinuation (hopens hread (Or.inr (Or.inl hof.2.1)) hof.2.2)
  · exact fun h => by cases h

/-- `ReadFrame` again and again, until the connection ends between two frames or with an error. -/
def MetaFramer.readFrames (g : HttpGuts) (mr : MetaFramer) (r : Bytes) : List MetaResult × Option MetaError :=
  if r = [] then ([], none)
  else
    match _h : mr.readFrame g r with
    | .error e => ([], some e)
    | .ok (mr, r, result) =>
      let (results, e) := mr.readFrames g r
      (result :: results, e)
termination_by r.length
decreasing_by exact (MetaFramer.readFrame_spec _h).2.2

theorem MetaFramer.readFrames_nil : mr.readFrames g [] = ([], none) := by
  rw [MetaFramer.readFrames, if_pos rfl]

/-- A frame, and those behind it. -/
theorem MetaFramer.readFrames_of_ok (h : mr.readFrame g r = .ok (mr', r', result)) :
    mr.readFrames g r = (result :: (mr'.readFrames g r').1, (mr'.readFrames g r').2) := by
  have hne : r ≠ [] := by
    rintro rfl
    exact absurd (MetaFramer.readFrame_spec h).2.2 (Nat.not_lt_zero _)
  rw [MetaFramer.readFrames, if_neg hne]
  split
  · rename_i h'
    cases h.symm.trans h'
  · rename_i h'
    cases h.symm.trans h'
    rfl

/-- Whatever the peer sends: no frame makes the reader panic, and every header block that it hands out has
well-formed fields. -/
theorem MetaFramer.readFrames_sound (g : HttpGuts) (mr : MetaFramer) (r : Bytes) :
    (mr.readFrames g r).2 ≠ some .notContinuation ∧
      ∀ result ∈ (mr.readFrames g r).1, result.WellFormed g mr.listSize := by
  induction hlen : r.length using Nat.strongRecOn generalizing mr r with
  | ind n ih =>
    rw [MetaFramer.readFrames]
    split_ifs with hnil
    · exact ⟨fun h => (by cases h), fun _ hmem => (by cases hmem)⟩
    · split
      · rename_i e hread
        refine ⟨fun h => ?_, fun _ hmem => (by cases hmem)⟩
        obtain rfl := Option.some.inj h
        exact MetaFramer.readFrame_ne_notContinuation hread
      · rename_i mr₁ r₁ result hread
        obtain ⟨hformed, hsame, hless⟩ := MetaFramer.readFrame_spec hread
        obtain ⟨hpanic, hall⟩ := ih r₁.length (hlen ▸ hless) mr₁ r₁ rfl
        refine ⟨hpanic, fun result' hmem => ?_⟩
        rcases List.mem_cons.mp hmem with rfl | hmem
        · exact hformed
        · have hlist : mr₁.listSize = mr.listSize := by rw [MetaFramer.listSize, MetaFramer.listSize, hsame]
          exact hlist ▸ hall result' hmem

end Reading

end TlsClient.Http2
