import TlsClient.Http2.HpackSync
import TlsClient.Http2.Opening
import TlsClient.Library.Chunks

/-!
# Header blocks on the wire

Embeds `writeHeaders` of `ClientConn` in `src/third_party/fhttp/http2/transport.go`: a header block is cut into one
HEADERS and as many CONTINUATION frames as it needs. The other end reads these frames back with `ReadMetaHeaders`
and its own decoder.

Over a whole connection, every header block arrives as the fields that were written, each field in its place, with
whatever frame size, however many blocks were found invalid before it, and with other frames between the blocks.
-/

open WireBytes Fallible QueueIndex Incremental Utf8

namespace TlsClient.Http2

/-- The priority of a HEADERS frame. -/
def Transport.headersPriority (t : Transport) : PriorityParam :=
  let priority := t.headerPriority.getD { exclusive := true, weight := 255, streamDep := 0 }
  if t.disablePriorityFrames then .zero else priority

/-- The loop of `writeHeaders`, where a frame is at least one byte. -/
def Transport.blockFrames (t : Transport) (streamID : UInt32) (endStream : Bool) (maxFrameSize : ℕ) (first : Bool)
    (hdrs : Bytes) : List Write :=
  if _h : hdrs.length > 0 ∧ maxFrameSize > 0 then
    let chunk := if hdrs.length > maxFrameSize then hdrs.take maxFrameSize else hdrs
    let rest := hdrs.drop chunk.length
    let endHeaders := rest.length = 0
    let write : Write :=
      if first then
        .headers { streamID, blockFragment := chunk, endStream, endHeaders, padLength := 0
                   priority := t.headersPriority }
      else .continuation streamID endHeaders chunk
    write :: t.blockFrames streamID endStream maxFrameSize false rest
  else []
termination_by hdrs.length
decreasing_by
  rw [List.length_drop]
  split
  · rw [List.length_take]
    omega
  · omega

/-- With a frame size of zero every chunk is empty, and the loop does not end. -/
def Transport.writeHeaders (t : Transport) (streamID : UInt32) (endStream : Bool) (maxFrameSize : ℕ) (hdrs : Bytes) :
    Option (List Write) :=
  if hdrs.length > 0 ∧ maxFrameSize = 0 then none
  else some (t.blockFrames streamID endStream maxFrameSize true hdrs)

/-! ## The frames of a block -/

section Frames

variable {t : Transport} {streamID : UInt32} {endStream first : Bool} {maxFrameSize : ℕ} {hdrs : Bytes}

/-- The frame of a chunk. -/
def Transport.blockFrame (t : Transport) (streamID : UInt32) (endStream first endHeaders : Bool) (chunk : Bytes) :
    Write :=
  if first then
    .headers { streamID, blockFragment := chunk, endStream, endHeaders, padLength := 0, priority := t.headersPriority }
  else .continuation streamID endHeaders chunk

theorem blockFrames_nil : t.blockFrames streamID endStream maxFrameSize first [] = [] := by
  rw [Transport.blockFrames, dif_neg (by simp)]

/-- A block is its first frame and the rest. -/
theorem blockFrames_of_ne_nil (hmax : 0 < maxFrameSize) (hhdrs : hdrs ≠ []) :
    t.blockFrames streamID endStream maxFrameSize first hdrs =
      t.blockFrame streamID endStream first (hdrs.drop maxFrameSize = []) (hdrs.take maxFrameSize) ::
        t.blockFrames streamID endStream maxFrameSize false (hdrs.drop maxFrameSize) := by
  have hpos := List.length_pos_of_ne_nil hhdrs
  have hchunk : (if hdrs.length > maxFrameSize then hdrs.take maxFrameSize else hdrs) = hdrs.take maxFrameSize := by
    split_ifs with hlong
    · rfl
    · exact (List.take_of_length_le (not_lt.mp hlong)).symm
  have hrest : hdrs.drop (hdrs.take maxFrameSize).length = hdrs.drop maxFrameSize := by
    rw [List.length_take]
    rcases Nat.le_total maxFrameSize hdrs.length with hle | hle
    · rw [Nat.min_eq_left hle]
    · rw [Nat.min_eq_right hle, List.drop_length, List.drop_eq_nil_of_le hle]
  rw [Transport.blockFrames, dif_pos ⟨hpos, hmax⟩]
  simp only [hchunk, hrest, Transport.blockFrame, List.length_eq_zero_iff]

/-- The continuations are within the frame size. -/
theorem continuations_fit (hmax : 0 < maxFrameSize) (hdrs : Bytes) :
    ∀ w ∈ t.blockFrames streamID endStream maxFrameSize false hdrs, w.payload.length ≤ maxFrameSize := by
  induction hdrs using Chunks.induction_on hmax with
  | nil =>
    rw [blockFrames_nil]
    exact fun _ hw => by cases hw
  | chunk hdrs hhdrs ih =>
    rw [blockFrames_of_ne_nil hmax hhdrs, List.forall_mem_cons]
    exact ⟨List.length_take_le _ _, ih⟩

/-- The priority stands before the first chunk. -/
theorem length_firstFrame (t : Transport) (streamID : UInt32) (endStream endHeaders : Bool) (chunk : Bytes) :
    (t.blockFrame streamID endStream true endHeaders chunk).payload.length =
      (if t.headersPriority.isZero then 0 else 5) + chunk.length := by
  rw [Transport.blockFrame, if_pos rfl, Write.payload, if_neg (not_not.mpr rfl), List.nil_append, List.length_append,
    List.length_append, List.length_replicate]
  cases t.headersPriority.isZero with
  | true => exact Nat.add_right_inj.mpr (Nat.add_zero _)
  | false => exact Nat.add_right_inj.mpr (Nat.add_zero _)

/-- No frame is longer than the peer allows exactly if no priority is sent or there is room for it: the five bytes
of the priority stand before a chunk that may fill the frame already. -/
theorem block_fits_iff (t : Transport) (streamID : UInt32) (endStream : Bool) (maxFrameSize : ℕ) (hdrs : Bytes)
    (hmax : 0 < maxFrameSize) (hhdrs : hdrs ≠ []) :
    (∀ w ∈ t.blockFrames streamID endStream maxFrameSize true hdrs, w.payload.length ≤ maxFrameSize) ↔
      t.headersPriority.isZero = true ∨ hdrs.length + 5 ≤ maxFrameSize := by
  have hrest : ∀ w ∈ t.blockFrames streamID endStream maxFrameSize false (hdrs.drop maxFrameSize),
      w.payload.length ≤ maxFrameSize := continuations_fit hmax _
  rw [blockFrames_of_ne_nil hmax hhdrs, List.forall_mem_cons, length_firstFrame, List.length_take]
  have hpos := List.length_pos_of_ne_nil hhdrs
  refine (and_iff_left hrest).trans ?_
  cases t.headersPriority.isZero with
  | true => simp
  | false => simp; omega

/-- Two bytes in frames of eight, and in frames of six. -/
theorem block_fits_iff_default :
    let t : Transport := {
      allowHTTP := false, initialStreamID := 0, connectionFlow := 0, headerPriority := none, priorities := []
      hpackIndexingPolicy := "", disablePriorityFrames := false, pushHandler := false, settings := none
      settingsOrder := [] }
    (∀ w ∈ t.blockFrames 1 true 8 true [0x82, 0x84], w.payload.length ≤ 8) ∧
      ¬∀ w ∈ t.blockFrames 1 true 6 true [0x82, 0x84], w.payload.length ≤ 6 := by
  intro t
  exact ⟨(block_fits_iff t 1 true 8 [0x82, 0x84] (by decide) (by decide)).mpr (by decide),
    mt (block_fits_iff t 1 true 6 [0x82, 0x84] (by decide) (by decide)).mp (by decide)⟩

end Frames

/-! ## The other end -/

section Reading

variable {t : Transport} {g : HttpGuts} {streamID : UInt32} {endStream : Bool} {maxFrameSize : ℕ} {hdrs rest : Bytes}

/-- A frame of a block is of its stream, and says whether it ends the block. -/
theorem blockFrame_header (t : Transport) (endStream : Bool) (hid : validStreamID streamID = true)
    (first endHeaders : Bool) (chunk : Bytes) :
    (t.blockFrame streamID endStream first endHeaders chunk).header.streamID = streamID ∧
      (t.blockFrame streamID endStream first endHeaders chunk).header.has flagEndHeaders = endHeaders := by
  refine ⟨?_, ?_⟩
  · cases first <;> exact (validStreamID_spec hid).2
  · cases first with
    | true =>
      have hflag := (headers_flags ((0 : UInt8) ≠ 0) (endStream = true) (endHeaders = true)
        ((!t.headersPriority.isZero) = true)).2.2.1
      rwa [Bool.decide_eq_true] at hflag
    | false =>
      change ((if endHeaders then flagEndHeaders else 0) &&& flagEndHeaders == flagEndHeaders) = endHeaders
      cases endHeaders <;> decide

/-- The first frame says whether the stream ends. -/
theorem firstFrame_endStream (t : Transport) (streamID : UInt32) (endStream endHeaders : Bool) (chunk : Bytes) :
    (t.blockFrame streamID endStream true endHeaders chunk).header.has flagEndStream = endStream := by
  have hflag := (headers_flags ((0 : UInt8) ≠ 0) (endStream = true) (endHeaders = true)
    ((!t.headersPriority.isZero) = true)).2.1
  rwa [Bool.decide_eq_true] at hflag

/-- A frame of a block leaves it open exactly if it does not end it. -/
theorem after_blockFrame (t : Transport) (endStream : Bool) (hid : validStreamID streamID = true)
    (first endHeaders : Bool) (chunk : Bytes) (fr : Framer) :
    (fr.after (t.blockFrame streamID endStream first endHeaders chunk).header).lastHeaderStream =
      if endHeaders then 0 else streamID := by
  obtain ⟨hsame, hflag⟩ := blockFrame_header t endStream hid first endHeaders chunk
  have htype : (t.blockFrame streamID endStream first endHeaders chunk).header.type = frameHeaders ∨
      (t.blockFrame streamID endStream first endHeaders chunk).header.type = framePushPromise ∨
      (t.blockFrame streamID endStream first endHeaders chunk).header.type = frameContinuation := by
    cases first
    · exact Or.inr (Or.inr rfl)
    · exact Or.inl rfl
  rw [Framer.after, openStream, if_pos htype, hsame, hflag]

/-- A fragment with a CONTINUATION behind it. -/
theorem readFragments_continuation {fr fr₁ : Framer} {st st₁ : Decoder MetaFrame × Bytes} {frag frag₁ r r₁ : Bytes}
    {fh : FrameHeader} (hwrite : Decoder.write st frag = .ok st₁)
    (hread : readFrame fr r = .ok (fr₁, r₁, .frame (.continuation fh frag₁))) :
    readFragments fr st frag false r = readFragments fr₁ st₁ frag₁ (fh.has flagEndHeaders) r₁ := by
  rw [readFragments, hwrite]
  simp only
  rw [if_neg Bool.false_ne_true]
  split
  · rename_i h
    cases hread.symm.trans h
  · rename_i h
    cases hread.symm.trans h
  · rename_i h
    cases hread.symm.trans h
    rfl
  · rename_i hnot h
    cases hread.symm.trans h
    exact absurd rfl (hnot fh frag₁)

/-- The fragments behind the first one are read from their frames. -/
theorem readFragments_wire (t : Transport) (endStream : Bool) (rest : Bytes)
    (hid : validStreamID streamID = true) (hmax : 0 < maxFrameSize) (hlarge : maxFrameSize < 2 ^ 24)
    {fr : Framer} {st st' : Decoder MetaFrame × Bytes} {chunk : Bytes} (hsize : maxFrameSize ≤ fr.maxReadSize)
    (hlast : fr.lastHeaderStream = if hdrs = [] then 0 else streamID)
    (hwrite : (chunk :: Chunks.chunks maxFrameSize hdrs).foldlM Decoder.write st = .ok st') :
    ∃ fr', readFragments fr st chunk (hdrs = [])
          (wire (t.blockFrames streamID endStream maxFrameSize false hdrs) ++ rest) = .ok (fr', st', rest, none) ∧
      fr'.lastHeaderStream = 0 ∧ fr'.maxReadSize = fr.maxReadSize := by
  induction hdrs using Chunks.induction_on hmax generalizing fr st chunk with
  | nil =>
    rw [Chunks.chunks_nil hmax, List.foldlM_cons] at hwrite
    obtain ⟨st₁, hst₁, hwrite⟩ := bind_eq_ok_iff.mp hwrite
    obtain rfl := Except.ok.inj hwrite
    refine ⟨fr, ?_, hlast, rfl⟩
    rw [blockFrames_nil, readFragments, hst₁]
    rfl
  | chunk hdrs hhdrs ih =>
    rw [Chunks.chunks_of_ne_nil hmax hhdrs, List.foldlM_cons] at hwrite
    obtain ⟨st₁, hst₁, hwrite⟩ := bind_eq_ok_iff.mp hwrite
    obtain ⟨hne, hsame⟩ := validStreamID_spec hid
    rw [if_neg hhdrs] at hlast
    -- the next frame
    have hchunk := List.length_take_le maxFrameSize hdrs
    obtain ⟨bytes, hbytes⟩ := Write.exists_bytes
      (w := t.blockFrame streamID endStream false (hdrs.drop maxFrameSize = []) (hdrs.take maxFrameSize)) hid
      (hchunk.trans_lt hlarge)
    obtain ⟨hstream, hflag⟩ := blockFrame_header t endStream hid false (hdrs.drop maxFrameSize = [])
      (hdrs.take maxFrameSize)
    have hfollow : MayFollow fr.lastHeaderStream
        (t.blockFrame streamID endStream false (hdrs.drop maxFrameSize = []) (hdrs.take maxFrameSize)).header := by
      rw [MayFollow, if_pos (hlast ▸ hne)]
      exact ⟨rfl, hstream.trans hlast.symm⟩
    have hread := readFrame_write_of_mayFollow hbytes trivial (hchunk.trans hsize) hfollow
      (wire (t.blockFrames streamID endStream maxFrameSize false (hdrs.drop maxFrameSize)) ++ rest)
    have hafter := after_blockFrame t endStream hid false (hdrs.drop maxFrameSize = []) (hdrs.take maxFrameSize) fr
    simp only [decide_eq_true_eq] at hafter
    obtain ⟨fr', hrest, hlast', hsize'⟩ := @ih (fr.after _) _ _ hsize hafter hwrite
    refine ⟨fr', ?_, hlast', hsize'⟩
    rw [blockFrames_of_ne_nil hmax hhdrs, wire_cons_of_ok hbytes, List.append_assoc, decide_eq_false hhdrs,
      readFragments_continuation hst₁ hread]
    change readFragments _ st₁ _ ((t.blockFrame streamID endStream false _ _).header.has flagEndHeaders) _ = _
    rw [hflag]
    exact hrest

/-- What the reader's user learns from a result. -/
inductive Seen
  | frame (f : Frame)
  | headers (streamID : UInt32) (endStream : Bool) (priority : PriorityParam) (fields : List HeaderField)
    (truncated : Bool)
  | pushPromise (streamID promiseID : UInt32) (fields : List HeaderField) (truncated : Bool)
  | streamError (streamID code : UInt32) (cause : Option FieldError)

def MetaResult.seen : MetaResult → Seen
  | .frame f => .frame f
  | .metaHeaders fh priority fields truncated =>
    .headers fh.streamID (fh.has flagEndStream) priority fields truncated
  | .metaPushPromise fh promiseID fields truncated => .pushPromise fh.streamID promiseID fields truncated
  | .streamError streamID code cause => .streamError streamID code cause

/-- What becomes of the fields that were collected: the error of their stream if they are not valid. -/
def MetaFrame.seen (mf : MetaFrame) (streamID : UInt32) (endStream : Bool) (priority : PriorityParam) : Seen :=
  match mf.invalid with
  | some invalid => .streamError streamID errCodeProtocol (some invalid)
  | none =>
    match checkPseudos mf.fields with
    | some err => .streamError streamID errCodeProtocol (some err)
    | none => .headers streamID endStream priority mf.fields mf.truncated

/-- What becomes of the fields of a block. -/
def headersSeen (g : HttpGuts) (limit streamID : UInt32) (endStream : Bool) (priority : PriorityParam)
    (fields : List HeaderField) : Seen :=
  (offerAll (emitMeta g) (MetaFrame.init limit, true) fields).1.seen streamID endStream priority

/-- More fields are collected. -/
theorem collected_offerAll {limit : UInt32} {user : MetaFrame × Bool} (h : Collected g limit user.1 user.2)
    (fields : List HeaderField) :
    Collected g limit (offerAll (emitMeta g) user fields).1 (offerAll (emitMeta g) user fields).2 := by
  induction fields generalizing user with
  | nil => exact h
  | cons f fields ih =>
    rw [offerAll, List.foldl_cons]
    obtain ⟨mf, enabled⟩ := user
    cases enabled with
    | false => exact @ih (mf, false) h
    | true => exact @ih (emitMeta g mf f) (collected_emit g limit mf f h)

/-- Fields that are well formed behind those that were taken before are taken. -/
theorem offerAll_of_wellFormed {mf : MetaFrame} {fields : List HeaderField} (hvalid : mf.invalid = none)
    (hsaw : mf.sawRegular = true → ∀ f ∈ fields, f.isPseudo = false)
    (hregular : ∀ f ∈ fields.dropWhile HeaderField.isPseudo,
      f.isPseudo = false ∧ g.validWireHeaderFieldName f.name = true)
    (hvalues : ∀ f ∈ fields, g.validHeaderFieldValue f.value = true)
    (hsize : (fields.map fun f => f.size.toNat).sum ≤ mf.remainSize.toNat) :
    ∃ mf', offerAll (emitMeta g) (mf, true) fields = (mf', true) ∧ mf'.invalid = none ∧
      mf'.fields = mf.fields ++ fields ∧ mf'.truncated = mf.truncated := by
  induction fields generalizing mf with
  | nil => exact ⟨mf, rfl, hvalid, (List.append_nil _).symm, rfl⟩
  | cons f fields ih =>
    obtain ⟨hpasses, hsaw', hfields, hremain, htruncated⟩ := checkField_spec (g := g) hvalid f
    rw [List.map_cons, List.sum_cons] at hsize
    -- the field passes, and behind a regular one there are no pseudo fields
    obtain ⟨hkind, hnext, hrest⟩ : (if f.isPseudo then mf.sawRegular = false else g.validWireHeaderFieldName f.name = true) ∧
        ((mf.sawRegular || !f.isPseudo) = true → ∀ f' ∈ fields, f'.isPseudo = false) ∧
          ∀ f' ∈ fields.dropWhile HeaderField.isPseudo, f'.isPseudo = false ∧ g.validWireHeaderFieldName f'.name = true := by
      cases hpseudo : f.isPseudo with
      | true =>
        rw [List.dropWhile_cons_of_pos hpseudo] at hregular
        rw [if_pos rfl, Bool.not_true, Bool.or_false]
        refine ⟨?_, fun hsaw' f' hf' => hsaw hsaw' f' (List.mem_cons_of_mem f hf'), hregular⟩
        refine Bool.not_eq_true _ ▸ fun htrue => ?_
        rw [hsaw htrue f List.mem_cons_self] at hpseudo
        cases hpseudo
      | false =>
        rw [List.dropWhile_cons_of_neg (by rw [hpseudo]; exact Bool.false_ne_true)] at hregular
        rw [if_neg Bool.false_ne_true]
        exact ⟨(hregular f List.mem_cons_self).2, fun _ f' hf' => (hregular f' (List.mem_cons_of_mem f hf')).1,
          fun f' hf' => hregular f' (List.mem_cons_of_mem f ((List.dropWhile_suffix _).subset hf'))⟩
    have hnone := hpasses.mpr ⟨hvalues f List.mem_cons_self, hkind⟩
    have hfits : ¬f.size > (checkField g mf f).remainSize := by
      rw [gt_iff_lt, hremain, UInt32.lt_iff_toNat_lt]
      omega
    have hemit : emitMeta g mf f = ({ checkField g mf f with
        remainSize := (checkField g mf f).remainSize - f.size, fields := (checkField g mf f).fields ++ [f] }, true) := by
      simp only [emitMeta, hnone, Option.isSome_none, Bool.false_eq_true, if_false, if_neg hfits]
    have hsub : (mf.remainSize - f.size).toNat = mf.remainSize.toNat - f.size.toNat :=
      UInt32.toNat_sub_of_le _ _ (UInt32.le_iff_toNat_le.mpr (by omega))
    obtain ⟨mf', htaken, hvalid', hall, hsame⟩ := @ih { checkField g mf f with
        remainSize := (checkField g mf f).remainSize - f.size, fields := (checkField g mf f).fields ++ [f] }
      hnone (fun h => hnext (hsaw' ▸ h)) hrest (fun f' hf' => hvalues f' (List.mem_cons_of_mem f hf'))
      (by simp only [hremain, hsub]; omega)
    refine ⟨mf', ?_, hvalid', ?_, hsame.trans htruncated⟩
    · rw [offerAll, List.foldl_cons, if_pos rfl, hemit]
      exact htaken
    · rw [hall, hfields, List.append_assoc, List.singleton_append]

/-- The fields of a block are handed on as they are exactly if they are well formed. -/
theorem headersSeen_eq_headers_iff (g : HttpGuts) (limit streamID : UInt32) (endStream : Bool)
    (priority : PriorityParam) (fields : List HeaderField) :
    headersSeen g limit streamID endStream priority fields = .headers streamID endStream priority fields false ↔
      WellFormed g limit fields := by
  rw [headersSeen]
  refine ⟨fun h => ?_, fun h => ?_⟩
  · have hcollected := @collected_offerAll g limit (MetaFrame.init limit, true) (collected_init g limit) fields
    generalize offerAll (emitMeta g) (MetaFrame.init limit, true) fields = user at h hcollected
    rw [MetaFrame.seen] at h
    -- a frame is passed on only when nothing was found invalid
    split at h
    · cases h
    · split at h
      · cases h
      · rename_i hpseudos
        obtain ⟨-, -, -, hfields, -⟩ := Seen.headers.inj h
        subst hfields
        obtain ⟨hknown, honce, hunmixed⟩ := (checkPseudos_eq_none_iff _).mp hpseudos
        have hsize := hcollected.size
        exact ⟨hknown, honce, hunmixed, hcollected.regular, hcollected.values, by omega⟩
  · obtain ⟨mf, hoffered, hvalid, hfields, htruncated⟩ := @offerAll_of_wellFormed g (MetaFrame.init limit) fields rfl
      (fun hsaw => by cases hsaw) h.regular h.values h.size
    rw [hoffered, MetaFrame.seen, hvalid]
    simp only
    rw [hfields, htruncated, show (MetaFrame.init limit).fields ++ fields = fields from rfl,
      (checkPseudos_eq_none_iff _).mpr ⟨h.known, h.once, h.unmixed⟩]
    rfl

end Reading

/-! ## A connection -/

section Connection

variable {t : Transport} {g : HttpGuts} {cc : ClientConn} {mr : MetaFramer}

/-- The case `SettingHeaderTableSize` of `processSettings`. -/
def ClientConn.setHeaderTableSize (cc : ClientConn) (v : UInt32) : ClientConn :=
  let effectiveTableSize := if v > initialHeaderTableSize then initialHeaderTableSize else v
  if effectiveTableSize ≠ cc.hencMaxTableSize then
    { cc with henc := cc.henc.setMaxDynamicTableSize effectiveTableSize, hencMaxTableSize := effectiveTableSize }
  else cc

/-- The peer's settings change the size of the table, a header block is sent, or another frame is. -/
inductive ClientStep
  | headerTableSize (v : UInt32)
  | headers (streamID : UInt32) (endStream : Bool) (maxFrameSize : ℕ) (fields : List HeaderField)
  | other (w : Write)

def ClientConn.after (cc : ClientConn) : ClientStep → ClientConn
  | .headerTableSize v => cc.setHeaderTableSize v
  | .headers _ _ _ fields => { cc with henc := (cc.henc.encodeBlock fields).1 }
  | .other _ => cc

def ClientConn.sends (t : Transport) (cc : ClientConn) : ClientStep → Option (List Write)
  | .headerTableSize _ => some []
  | .headers streamID endStream maxFrameSize fields =>
    t.writeHeaders streamID endStream maxFrameSize (cc.henc.encodeBlock fields).2
  | .other w => some [w]

/-- All frames that are sent. -/
def ClientConn.sendAll (t : Transport) (cc : ClientConn) : List ClientStep → Option (List Write)
  | [] => some []
  | step :: steps => do
    let ws ← cc.sends t step
    let ws' ← (cc.after step).sendAll t steps
    some (ws ++ ws')

/-- Every frame of the step is written, and the other end, whose list has this limit, takes the fields. -/
def StepSent (t : Transport) (limit : UInt32) (cc : ClientConn) : ClientStep → Prop
  | .headerTableSize _ => True
  | .headers streamID _ maxFrameSize fields =>
    validStreamID streamID = true ∧ (0 < maxFrameSize ∧ maxFrameSize + 5 < 2 ^ 24) ∧
      (t.headersPriority.isZero = false → validStreamIDOrZero t.headersPriority.streamDep = true) ∧
        (∀ f ∈ fields, f.Fits ∧ WithinLimit limit.toNat f.name ∧ WithinLimit limit.toNat f.value) ∧
          (fields ≠ [] → UpdatesTaken cc.henc)
  | .other w => w.Plain ∧ w.Readable ∧ ∃ bytes, w.bytes = .ok bytes

/-- What the other end learns from a step. -/
def stepSeen (t : Transport) (g : HttpGuts) (limit : UInt32) : ClientStep → List Seen
  | .headerTableSize _ => []
  | .headers streamID endStream _ fields =>
    if fields = [] then [] else [headersSeen g limit streamID endStream t.headersPriority fields]
  | .other w => [.frame w.frame]

/-- Between two steps the decoder of the other end is in step with the encoder, and nothing is open. -/
structure Facing (cc : ClientConn) (mr : MetaFramer) : Prop where
  linked : Linked cc.henc mr.readMetaHeaders.1
  first : mr.readMetaHeaders.1.firstField = true
  saved : mr.readMetaHeaders.2 = []
  closed : mr.framer.lastHeaderStream = 0
  size : 2 ^ 24 ≤ mr.framer.maxReadSize + 1

/-- A new table size keeps the ends together. -/
theorem Facing.setHeaderTableSize (h : Facing cc mr) (v : UInt32) : Facing (cc.setHeaderTableSize v) mr := by
  simp only [ClientConn.setHeaderTableSize]
  generalize (if v > initialHeaderTableSize then initialHeaderTableSize else v) = effectiveTableSize
  split_ifs
  · exact ⟨h.linked.resize _, h.first, h.saved, h.closed, h.size⟩
  · exact h

/-- A frame that is none of a header block. -/
theorem Facing.other (h : Facing cc mr) {w : Write} {bytes : Bytes} (hplain : w.Plain) (hreadable : w.Readable)
    (hbytes : w.bytes = .ok bytes) (rest : Bytes) :
    ∃ mr', mr.readFrame g (bytes ++ rest) = .ok (mr', rest, .frame w.frame) ∧ Facing cc mr' ∧
      mr'.listSize = mr.listSize := by
  obtain ⟨-, hlength, -⟩ := w.bytes_eq_ok hbytes
  obtain ⟨hfollow, hopen⟩ := hplain.follows
  have hsize := h.size
  have hread := @readFrame_write_of_mayFollow mr.framer bytes w hbytes hreadable (by omega) (h.closed ▸ hfollow) rest
  refine ⟨{ mr with framer := mr.framer.after w.header }, ?_, ⟨h.linked, h.first, h.saved, ?_, h.size⟩, rfl⟩
  · rw [MetaFramer.readFrame, hread]
    cases w with
    | headers | pushPromise | continuation => exact hplain.elim
    | _ => rfl
  · rw [Framer.after, h.closed, hopen]

/-- A block whose representations are all taken. -/
theorem readMetaFrame_ok {fh : FrameHeader} {frag r r' : Bytes} {fr : Framer} {d : Decoder MetaFrame}
    (hfragments : readFragments mr.framer (mr.hdec g, mr.readMetaHeaders.2) frag (fh.has flagEndHeaders) r =
      .ok (fr, (d, []), r', none)) (priority : PriorityParam) :
    ∃ result, readMetaFrame g mr fh frag r (.metaHeaders fh priority) =
        .ok ({ mr with framer := fr, readMetaHeaders := ({ d with firstField := true }, []) }, r', result) ∧
      result.seen = d.out.seen fh.streamID (fh.has flagEndStream) priority := by
  rw [readMetaFrame, hfragments]
  change ∃ result, finishMetaFrame mr fh _ fr (d, []) r' none = _ ∧ _
  simp only [finishMetaFrame, Decoder.close, MetaFrame.seen]
  rw [if_neg (by decide)]
  simp only
  cases d.out.invalid with
  | some invalid => exact ⟨_, rfl, rfl⟩
  | none =>
    simp only
    cases checkPseudos d.out.fields with
    | some err => exact ⟨_, rfl, rfl⟩
    | none => exact ⟨_, rfl, rfl⟩

/-- A header block. -/
theorem Facing.headers (h : Facing cc mr) {streamID : UInt32} {maxFrameSize : ℕ} {fields : List HeaderField}
    {endStream : Bool} (hsent : StepSent t mr.listSize cc (.headers streamID endStream maxFrameSize fields))
    (hne : fields ≠ []) (rest : Bytes) :
    ∃ mr' result,
      mr.readFrame g (wire (t.blockFrames streamID endStream maxFrameSize true (cc.henc.encodeBlock fields).2) ++ rest) =
          .ok (mr', rest, result) ∧
        result.seen = headersSeen g mr.listSize streamID endStream t.headersPriority fields ∧
          Facing (cc.after (.headers streamID endStream maxFrameSize fields)) mr' ∧ mr'.listSize = mr.listSize := by
  obtain ⟨hid, ⟨hmax, hlarge⟩, hdep, hfits, htaken⟩ := hsent
  have hlinked : Linked cc.henc (mr.hdec g) := h.linked.of_dynTab rfl
  obtain ⟨hbytes, d', hconsumes, hlinked', hoffered⟩ := hlinked.encodeBlock (fun _ => h.first) htaken hfits
  have hhdrs := hbytes hne
  generalize (cc.henc.encodeBlock fields).2 = hdrs at hconsumes hhdrs
  have hwrite := hconsumes.write (Chunks.flatten_chunks hmax hdrs)
  rw [Chunks.chunks_of_ne_nil hmax hhdrs] at hwrite
  have hstart : (mr.hdec g, mr.readMetaHeaders.2) = (mr.hdec g, []) := congrArg _ h.saved
  rw [← hstart] at hwrite
  have hsize := h.size
  have hchunk := List.length_take_le maxFrameSize hdrs
  have hsome : hdrs.take maxFrameSize ≠ [] := by
    refine List.ne_nil_of_length_pos ?_
    rw [List.length_take]
    exact lt_min hmax (List.length_pos_of_ne_nil hhdrs)
  -- the first frame
  obtain ⟨w, hw⟩ : ∃ w, w = t.blockFrame streamID endStream true (hdrs.drop maxFrameSize = [])
      (hdrs.take maxFrameSize) := ⟨_, rfl⟩
  have hpayload : w.payload.length ≤ maxFrameSize + 5 := by
    rw [hw, length_firstFrame]
    split_ifs <;> omega
  obtain ⟨bytes, hwritten⟩ := w.exists_bytes (hw ▸ ⟨hid, hdep⟩) (hpayload.trans_lt hlarge)
  have hfollow : MayFollow mr.framer.lastHeaderStream w.header := by
    rw [h.closed, hw]
    exact (by decide : frameHeaders ≠ frameContinuation)
  have hread := readFrame_write_of_mayFollow hwritten (hw ▸ hsome) (by omega) hfollow
    (wire (t.blockFrames streamID endStream maxFrameSize false (hdrs.drop maxFrameSize)) ++ rest)
  rw [show w.frame = .headers w.header t.headersPriority (hdrs.take maxFrameSize) from hw ▸ rfl] at hread
  -- the fragments
  have hroom : maxFrameSize ≤ (mr.framer.after w.header).maxReadSize := by
    change maxFrameSize ≤ mr.framer.maxReadSize
    omega
  obtain ⟨hstream, hflag⟩ := blockFrame_header t endStream hid true (hdrs.drop maxFrameSize = [])
    (hdrs.take maxFrameSize)
  have hafter := after_blockFrame t endStream hid true (hdrs.drop maxFrameSize = []) (hdrs.take maxFrameSize)
    mr.framer
  simp only [decide_eq_true_eq] at hafter
  rw [← hw] at hstream hflag hafter
  obtain ⟨fr', hfragments, hlast, hsame⟩ := readFragments_wire t endStream rest hid hmax (by omega) hroom hafter
    hwrite
  rw [← hflag] at hfragments
  obtain ⟨result, hmeta, hseen⟩ := @readMetaFrame_ok g { mr with framer := mr.framer.after w.header } _ _ _ _ _ _ hfragments
    t.headersPriority
  refine ⟨{ mr with framer := fr', readMetaHeaders := ({ d' with firstField := true }, []) }, result, ?_, ?_,
    ⟨hlinked'.of_dynTab rfl, rfl, rfl, hlast, ?_⟩, rfl⟩
  · rw [blockFrames_of_ne_nil hmax hhdrs, wire_cons_of_ok (hw ▸ hwritten), List.append_assoc, MetaFramer.readFrame,
      hread]
    exact hmeta
  · have hend : w.header.has flagEndStream = endStream := hw ▸ firstFrame_endStream t streamID endStream _ _
    have hout : d'.out = (offerAll (emitMeta g) (MetaFrame.init mr.listSize, true) fields).1 :=
      congrArg Prod.fst hoffered.user
    rw [hseen, headersSeen, ← hout, hstream, hend]
  · exact hsize.trans_eq (congrArg (· + 1) hsame.symm)

/-- Every frame of the step is handed to the writer. -/
theorem sends_of_sent {limit : UInt32} {step : ClientStep} (hsent : StepSent t limit cc step) :
    ∃ ws, cc.sends t step = some ws := by
  cases step with
  | headerTableSize v => exact ⟨_, rfl⟩
  | headers streamID endStream maxFrameSize fields => exact ⟨_, if_neg fun h => absurd h.2 hsent.2.1.1.ne'⟩
  | other w => exact ⟨_, rfl⟩

/-- One step: the other end reads what was sent, and then goes on. -/
theorem Facing.step (h : Facing cc mr) {step : ClientStep} (hsent : StepSent t mr.listSize cc step)
    {ws : List Write} (hws : cc.sends t step = some ws) (rest : Bytes) :
    ∃ mr', Facing (cc.after step) mr' ∧ mr'.listSize = mr.listSize ∧
      (mr.readFrames g (wire ws ++ rest)).2 = (mr'.readFrames g rest).2 ∧
        (mr.readFrames g (wire ws ++ rest)).1.map MetaResult.seen =
          stepSeen t g mr.listSize step ++ (mr'.readFrames g rest).1.map MetaResult.seen := by
  cases step with
  | headerTableSize v =>
    obtain rfl := Option.some.inj hws
    exact ⟨mr, h.setHeaderTableSize v, rfl, rfl, rfl⟩
  | headers streamID endStream maxFrameSize fields =>
    obtain rfl : t.blockFrames streamID endStream maxFrameSize true (cc.henc.encodeBlock fields).2 = ws :=
      -- frames of at least one byte, so the loop over the block ends
      Option.some.inj ((if_neg fun h => absurd h.2 hsent.2.1.1.ne').symm.trans hws)
    by_cases hnil : fields = []
    · subst hnil
      rw [stepSeen, if_pos rfl, Encoder.encodeBlock, blockFrames_nil]
      exact ⟨mr, h, rfl, rfl, rfl⟩
    · obtain ⟨mr', result, hread, hseen, hfacing, hlist⟩ := h.headers hsent hnil rest
      rw [MetaFramer.readFrames_of_ok hread, stepSeen, if_neg hnil, List.map_cons, hseen]
      exact ⟨mr', hfacing, hlist, rfl, rfl⟩
  | other w =>
    obtain rfl := Option.some.inj hws
    obtain ⟨hplain, hreadable, bytes, hbytes⟩ := hsent
    obtain ⟨mr', hread, hfacing, hlist⟩ := h.other hplain hreadable hbytes rest
    rw [wire_cons_of_ok hbytes, wire_nil, List.append_nil, MetaFramer.readFrames_of_ok hread]
    exact ⟨mr', hfacing, hlist, rfl, rfl⟩

/-- A run whose steps can be sent is sent. -/
theorem sendAll_of_sent {limit : UInt32} {steps : List ClientStep}
    (hsent : Run.Along ClientConn.after (StepSent t limit) cc steps) : ∃ ws, cc.sendAll t steps = some ws := by
  induction steps generalizing cc with
  | nil => exact ⟨[], rfl⟩
  | cons step steps ih =>
    obtain ⟨ws, hws⟩ := sends_of_sent hsent.1
    obtain ⟨ws', hws'⟩ := ih hsent.2
    exact ⟨ws ++ ws', by rw [ClientConn.sendAll, hws, hws']; rfl⟩

/-- What is sent in a run is seen. -/
theorem Facing.run (h : Facing cc mr) {steps : List ClientStep}
    (hsent : Run.Along ClientConn.after (StepSent t mr.listSize) cc steps) {ws : List Write}
    (hws : cc.sendAll t steps = some ws) :
    (mr.readFrames g (wire ws)).2 = none ∧
      (mr.readFrames g (wire ws)).1.map MetaResult.seen = steps.flatMap (stepSeen t g mr.listSize) := by
  induction steps generalizing cc mr ws with
  | nil =>
    obtain rfl := Option.some.inj hws
    rw [wire_nil, MetaFramer.readFrames_nil]
    exact ⟨rfl, rfl⟩
  | cons step steps ih =>
    obtain ⟨ws₁, hws₁, hws⟩ := Option.bind_eq_some_iff.mp hws
    obtain ⟨ws₂, hws₂, hws⟩ := Option.bind_eq_some_iff.mp hws
    obtain rfl := Option.some.inj hws
    obtain ⟨mr', hfacing, hlist, hend, hseen⟩ := h.step hsent.1 hws₁ (wire ws₂)
    obtain ⟨hend', hseen'⟩ := ih hfacing (hlist ▸ hsent.2) hws₂
    rw [wire_append, List.flatMap_cons, hend, hseen, hend', hseen', hlist]
    exact ⟨rfl, rfl⟩

/-- A reader whose decoder has the size that its end has announced. -/
def MetaFramer.fresh (maxDynamicTableSize maxHeaderListSize : UInt32) : MetaFramer :=
  { framer := newFramer
    readMetaHeaders := (Decoder.newDecoder maxDynamicTableSize (fun mf _ => (mf, true)) (MetaFrame.init 0), [])
    maxHeaderListSize }

/-- A fresh connection and a fresh reader. -/
theorem facing_fresh {opening : Bytes} (hconn : t.newClientConn = .ok (cc, opening))
    {maxDynamicTableSize : UInt32} (maxHeaderListSize : UInt32) (hsize : 4096 ≤ maxDynamicTableSize.toNat)
    (hroom : maxDynamicTableSize.toNat + 4096 < 2 ^ 32) :
    Facing cc (.fresh maxDynamicTableSize maxHeaderListSize) := by
  obtain ⟨-, hconn⟩ := ite_error_eq_ok_iff.mp hconn
  obtain ⟨-, hconn⟩ := ite_error_eq_ok_iff.mp hconn
  obtain ⟨rfl, -⟩ := Prod.mk.inj (Except.ok.inj hconn)
  have hready := @ready_fresh MetaFrame (if t.hpackIndexingPolicy = "chrome" then some indexingChrome else none)
    maxDynamicTableSize 0 (fun mf _ => (mf, true)) (MetaFrame.init 0) hsize hroom
  exact ⟨hready.linked.of_dynTab rfl, rfl, rfl, rfl, (by decide : 2 ^ 24 ≤ newFramer.maxReadSize + 1)⟩

/-- Frames that are no header block change nothing at the writer. -/
theorem exec_other (cc : ClientConn) (ws : List Write) :
    Run.exec ClientConn.after cc (ws.map ClientStep.other) = cc := by
  induction ws with
  | nil => rfl
  | cons w ws ih => exact ih

/-- Other frames in front. -/
theorem sendAll_other (cc : ClientConn) (ws : List Write) (steps : List ClientStep) :
    cc.sendAll t (ws.map ClientStep.other ++ steps) = (cc.sendAll t steps).map (ws ++ ·) := by
  induction ws with
  | nil => exact Option.map_id'.symm
  | cons w ws ih =>
    rw [List.map_cons, List.cons_append, ClientConn.sendAll]
    simp only [ClientConn.sends, ClientConn.after, ih]
    cases cc.sendAll t steps <;> rfl

/-- From the opening of a connection on: the other end reads the frames of the opening, every header block with the
fields that were written and every other frame, in the order in which they were sent. -/
theorem connection_delivers (t : Transport) (cc : ClientConn) (opening : Bytes)
    (hconn : t.newClientConn = .ok (cc, opening)) (hsettings : 6 * t.initialSettings.length < 2 ^ 24) (g : HttpGuts)
    (maxDynamicTableSize maxHeaderListSize : UInt32) (hsize : 4096 ≤ maxDynamicTableSize.toNat)
    (hroom : maxDynamicTableSize.toNat + 4096 < 2 ^ 32) (steps : List ClientStep)
    (hsent : Run.Along ClientConn.after
      (StepSent t (MetaFramer.fresh maxDynamicTableSize maxHeaderListSize).listSize) cc steps) :
    ∃ ws r, cc.sendAll t steps = some ws ∧ opening ++ wire ws = clientPreface ++ r ∧
      ((MetaFramer.fresh maxDynamicTableSize maxHeaderListSize).readFrames g r).2 = none ∧
        ((MetaFramer.fresh maxDynamicTableSize maxHeaderListSize).readFrames g r).1.map MetaResult.seen =
          t.opened.map (fun w => .frame w.frame) ++
            steps.flatMap (stepSeen t g (MetaFramer.fresh maxDynamicTableSize maxHeaderListSize).listSize) := by
  have hopened := opened_readable hconn hsettings
  have hfacing := facing_fresh hconn maxHeaderListSize hsize hroom
  obtain ⟨rfl, -⟩ := newClientConn_eq_ok hconn
  obtain ⟨ws, hws⟩ := sendAll_of_sent hsent
  -- the frames of the opening are steps like any other, taken before the client's own
  have halong : Run.Along ClientConn.after (StepSent t (MetaFramer.fresh maxDynamicTableSize maxHeaderListSize).listSize)
      cc (t.opened.map ClientStep.other ++ steps) := by
    refine Run.along_append.mpr ⟨Run.along_of_forall fun cc' step hstep => ?_, (exec_other cc _).symm ▸ hsent⟩
    obtain ⟨w, hw, rfl⟩ := List.mem_map.mp hstep
    obtain ⟨hbytes, hreadable, hplain⟩ := hopened w hw
    exact ⟨hplain, hreadable, hbytes⟩
  have hall : cc.sendAll t (t.opened.map ClientStep.other ++ steps) = some (t.opened ++ ws) := by
    rw [sendAll_other, hws]
    rfl
  obtain ⟨hend, hseen⟩ := hfacing.run (g := g) halong hall
  refine ⟨ws, wire t.opened ++ wire ws, hws, List.append_assoc _ _ _, ?_⟩
  rw [← wire_append, hend, hseen, List.flatMap_append, List.flatMap_map]
  exact ⟨rfl, congrArg (· ++ _) (List.flatMap_pure_eq_map _ _)⟩

/-- A request with a cookie, after the peer has turned the table off. -/
theorem connection_delivers_cookie :
    let t : Transport := {
      allowHTTP := false, initialStreamID := 0, connectionFlow := 0, headerPriority := none, priorities := []
      hpackIndexingPolicy := "chrome", disablePriorityFrames := true, pushHandler := false, settings := none
      settingsOrder := [] }
    let cookie : HeaderField := { name := utf8 "cookie", value := utf8 "a=1", sensitive := false }
    let g : HttpGuts := { validHeaderFieldValue := fun _ => true, isTokenRune := fun _ => true }
    ∃ cc opening ws r, t.newClientConn = .ok (cc, opening) ∧
      cc.sendAll t [.headerTableSize 0, .headers 1 true 1 [cookie]] = some ws ∧
        opening ++ wire ws = clientPreface ++ r ∧ ((MetaFramer.fresh 4096 0).readFrames g r).2 = none ∧
          ((MetaFramer.fresh 4096 0).readFrames g r).1.map MetaResult.seen =
            t.opened.map (fun w => .frame w.frame) ++ [headersSeen g ((16 : UInt32) <<< 20) 1 true .zero [cookie]] := by
  intro t cookie g
  obtain ⟨ws, r, hws, hwire, hend, hseen⟩ := connection_delivers t _ _ rfl (by decide) g 4096 0 (by decide) (by decide)
    [.headerTableSize 0, .headers 1 true 1 [cookie]] ⟨trivial, ⟨by decide, by decide, by decide, by
      intro f hf
      obtain rfl := List.mem_singleton.mp hf
      exact ⟨by unfold HeaderField.Fits; decide, Or.inr (by decide), Or.inr (by decide)⟩, fun _ => by decide⟩, trivial⟩
  exact ⟨_, _, ws, r, rfl, hws, hwire, hend, hseen⟩

end Connection

end TlsClient.Http2
