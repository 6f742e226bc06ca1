import TlsClient.Http2.Frame

/-!
# Reading frames

Embeds the reading side of `Framer` in `src/third_party/fhttp/http2/frame.go`: `ReadFrame` without
`ReadMetaHeaders`, and `checkFrameOrder`. `AllowIllegalReads` is never set. What is left to read is a list of
bytes: a read waits until it has them or the connection has ended.

The frames of a header block must follow each other. `Contiguous` says that of what is written, from one frame to
the next, and the reader takes exactly the contiguous ones.
-/

open WireBytes Fallible

namespace TlsClient.Http2

/-- Errors behind which no frame is read: `io.EOF`, `io.ErrUnexpectedEOF`, `ErrFrameTooLarge`, and
`ConnectionError` with the detail in `errDetail`. -/
inductive ReadError
  | eof
  | unexpectedEOF
  | frameTooLarge
  | connection (code : UInt32) (detail : Option String)
  deriving DecidableEq

/-- `lastFrame` is here the header of the last frame. -/
structure Framer where
  maxReadSize : ℕ
  lastHeaderStream : UInt32
  lastFrame : Option FrameHeader

def newFramer : Framer := { maxReadSize := maxFrameSize, lastHeaderStream := 0, lastFrame := none }

/-- `SetMaxReadFrameSize` -/
def Framer.setMaxReadFrameSize (fr : Framer) (v : ℕ) : Framer :=
  { fr with maxReadSize := if v > maxFrameSize then maxFrameSize else v }

/-- A frame, or the error of one stream: `terminalReadFrameError` says that reading goes on behind it. -/
inductive ReadResult
  | frame (f : Frame)
  | streamError (streamID code : UInt32)
  deriving DecidableEq

/-- `io.ReadFull` -/
def readFull (r : Bytes) (n : ℕ) : Except ReadError (Bytes × Bytes) :=
  if n ≤ r.length then .ok (r.take n, r.drop n)
  else if r.length = 0 then .error .eof
  else .error .unexpectedEOF

def readFrameHeader : Bytes → Except ReadError (FrameHeader × Bytes)
  | l₀ :: l₁ :: l₂ :: type :: flags :: s₀ :: s₁ :: s₂ :: s₃ :: r =>
    .ok ({ length := (l₀.toUInt32 <<< 16 ||| l₁.toUInt32 <<< 8 ||| l₂.toUInt32).toNat, type, flags,
           streamID := uint31 (uint32Of s₀ s₁ s₂ s₃) }, r)
  | [] => .error .eof
  | _ => .error .unexpectedEOF

def checkFrameOrder (fr : Framer) (f : Frame) : Except ReadError Framer :=
  let last := fr.lastFrame
  let fr := { fr with lastFrame := some f.header }
  let fh := f.header
  let next : Framer :=
    if fh.type = frameHeaders ∨ fh.type = framePushPromise ∨ fh.type = frameContinuation then
      if fh.has flagEndHeaders then { fr with lastHeaderStream := 0 } else { fr with lastHeaderStream := fh.streamID }
    else fr
  if fr.lastHeaderStream ≠ 0 then
    if fh.type ≠ frameContinuation then
      .error (.connection errCodeProtocol (some ("got " ++ frameTypeString fh.type ++ " for stream " ++
        toString fh.streamID.toNat ++ "; expected CONTINUATION following " ++
        frameTypeString ((last.map FrameHeader.type).getD 0) ++ " for stream " ++
        toString fr.lastHeaderStream.toNat)))
    else if fh.streamID ≠ fr.lastHeaderStream then
      .error (.connection errCodeProtocol (some ("got CONTINUATION for stream " ++ toString fh.streamID.toNat ++
        "; expected stream " ++ toString fr.lastHeaderStream.toNat)))
    else .ok next
  else if fh.type = frameContinuation then
    .error (.connection errCodeProtocol (some ("unexpected CONTINUATION for stream " ++
      toString fh.streamID.toNat)))
  else .ok next

/-- `ReadFrame`, as far as the frame itself goes. -/
def readFrame (fr : Framer) (r : Bytes) : Except ReadError (Framer × Bytes × ReadResult) := do
  let (fh, r) ← readFrameHeader r
  if fh.length > fr.maxReadSize then .error .frameTooLarge
  else
    let (payload, r) ← readFull r fh.length
    match typeFrameParser fh.type fh payload with
    | .ok f => do
      let fr ← checkFrameOrder fr f
      .ok (fr, r, .frame f)
    | .error (.conn code reason) => .error (.connection code (some reason))
    | .error (.connection code) => .error (.connection code none)
    | .error .unexpectedEOF => .error .unexpectedEOF
    | .error (.stream streamID code) => .ok (fr, r, .streamError streamID code)

/-! ## One frame -/

section OneFrame

variable {fr fr' : Framer} {r r' bytes rest : Bytes} {res : ReadResult} {f : Frame}

/-- A 24-bit number is read back from its bytes. -/
theorem toNat_uint24 {n : ℕ} (h : n < 2 ^ 24) :
    ((UInt8.ofNat (n >>> 16)).toUInt32 <<< 16 ||| (UInt8.ofNat (n >>> 8)).toUInt32 <<< 8 |||
      (UInt8.ofNat n).toUInt32).toNat = n := by
  have hword := toNat_uint32Of 0 (UInt8.ofNat (n >>> 16)) (UInt8.ofNat (n >>> 8)) (UInt8.ofNat n)
  have hzero : uint32Of 0 (UInt8.ofNat (n >>> 16)) (UInt8.ofNat (n >>> 8)) (UInt8.ofNat n) =
      (UInt8.ofNat (n >>> 16)).toUInt32 <<< 16 ||| (UInt8.ofNat (n >>> 8)).toUInt32 <<< 8 |||
        (UInt8.ofNat n).toUInt32 := by
    rw [uint32Of, show (0 : UInt8).toUInt32 <<< 24 = 0 from rfl, UInt32.zero_or]
  rw [hzero] at hword
  rw [hword, show (0 : UInt8).toNat = 0 from rfl]
  simp only [UInt8.toNat_ofNat', Nat.shiftRight_eq_div_pow]
  omega

/-- A frame header is read back. -/
theorem readFrameHeader_headerBytes (type flags : UInt8) {length : ℕ} (h : length < 2 ^ 24) (streamID : UInt32)
    (rest : Bytes) :
    readFrameHeader (headerBytes type flags length streamID ++ rest) =
      .ok ({ type, flags, length, streamID := uint31 streamID }, rest) := by
  simp only [headerBytes, uint32Bytes, List.cons_append, List.nil_append, readFrameHeader, toNat_uint24 h,
    uint32Of_uint32Bytes]

theorem readFull_append (payload rest : Bytes) : readFull (payload ++ rest) payload.length = .ok (payload, rest) := by
  rw [readFull, if_pos (by simp), List.take_left, List.drop_left]

/-- A frame takes its header off what is left to read, at least. -/
theorem readFrame_length (h : readFrame fr r = .ok (fr', r', res)) : r'.length + 9 ≤ r.length := by
  obtain ⟨⟨fh, r₁⟩, hheader, h⟩ := bind_eq_ok_iff.mp h
  obtain ⟨-, h⟩ := ite_error_eq_ok_iff.mp h
  obtain ⟨⟨payload, r₂⟩, hfull, h⟩ := bind_eq_ok_iff.mp h
  -- nine bytes are the header's, the payload is dropped, and the parser reads nothing more
  have h₁ : r.length = r₁.length + 9 := by
    unfold readFrameHeader at hheader
    split at hheader
    · obtain ⟨-, rfl⟩ := Prod.mk.inj (Except.ok.inj hheader)
      rfl
    all_goals cases hheader
  have h₂ : r₂.length ≤ r₁.length := by
    rw [readFull] at hfull
    split_ifs at hfull
    obtain ⟨-, rfl⟩ := Prod.mk.inj (Except.ok.inj hfull)
    rw [List.length_drop]
    exact Nat.sub_le _ _
  have h₃ : r' = r₂ := by
    simp only at h
    split at h
    · obtain ⟨_, -, h⟩ := bind_eq_ok_iff.mp h
      cases h
      rfl
    all_goals cases h
    rfl
  subst h₃
  omega

/-- The stream whose header block a frame leaves open, or 0. -/
def openStream (last : UInt32) (fh : FrameHeader) : UInt32 :=
  if fh.type = frameHeaders ∨ fh.type = framePushPromise ∨ fh.type = frameContinuation then
    if fh.has flagEndHeaders then 0 else fh.streamID
  else last

/-- The frame may follow where the header block of the stream `last` is open. -/
def MayFollow (last : UInt32) (fh : FrameHeader) : Prop :=
  if last ≠ 0 then fh.type = frameContinuation ∧ fh.streamID = last else fh.type ≠ frameContinuation

instance (last : UInt32) (fh : FrameHeader) : Decidable (MayFollow last fh) := by
  unfold MayFollow
  infer_instance

/-- The framer after a frame that may follow. -/
def Framer.after (fr : Framer) (fh : FrameHeader) : Framer :=
  { fr with lastFrame := some fh, lastHeaderStream := openStream fr.lastHeaderStream fh }

/-- A frame that may follow is accepted. -/
theorem checkFrameOrder_of_mayFollow (h : MayFollow fr.lastHeaderStream f.header) :
    checkFrameOrder fr f = .ok (fr.after f.header) := by
  have hnext : (if f.header.type = frameHeaders ∨ f.header.type = framePushPromise ∨
        f.header.type = frameContinuation then
      if f.header.has flagEndHeaders then { fr with lastFrame := some f.header, lastHeaderStream := 0 }
      else { fr with lastFrame := some f.header, lastHeaderStream := f.header.streamID }
    else { fr with lastFrame := some f.header }) = fr.after f.header := by
    rw [Framer.after, openStream]
    split_ifs <;> rfl
  rw [MayFollow] at h
  simp only [checkFrameOrder]
  split_ifs at h with hlast
  · rw [if_pos hlast, if_neg (not_not.mpr h.1), if_neg (not_not.mpr h.2), hnext]
  · rw [if_neg hlast, if_neg h, hnext]

/-- Any other is a connection error. -/
theorem checkFrameOrder_of_not_mayFollow (h : ¬MayFollow fr.lastHeaderStream f.header) :
    ∃ detail, checkFrameOrder fr f = .error (.connection errCodeProtocol (some detail)) := by
  rw [MayFollow] at h
  simp only [checkFrameOrder]
  split_ifs at h with hlast
  · rw [if_pos hlast]
    by_cases htype : f.header.type = frameContinuation
    · rw [if_neg (not_not.mpr htype), if_pos fun hid => h ⟨htype, hid⟩]
      exact ⟨_, rfl⟩
    · rw [if_pos htype]
      exact ⟨_, rfl⟩
  · rw [if_neg hlast, if_pos (not_not.mp h)]
    exact ⟨_, rfl⟩

/-- A frame that is read has the type it was parsed for, and was allowed to follow. -/
theorem readFrame_frame (h : readFrame fr r = .ok (fr', r', .frame f)) :
    f.IsOf f.header ∧ MayFollow fr.lastHeaderStream f.header ∧
      fr'.lastHeaderStream = openStream fr.lastHeaderStream f.header := by
  obtain ⟨⟨fh, r₁⟩, -, h⟩ := bind_eq_ok_iff.mp h
  obtain ⟨-, h⟩ := ite_error_eq_ok_iff.mp h
  obtain ⟨⟨payload, r₂⟩, -, h⟩ := bind_eq_ok_iff.mp h
  simp only at h
  split at h
  · rename_i f' hparse
    obtain ⟨fr₁, horder, h⟩ := bind_eq_ok_iff.mp h
    obtain ⟨rfl, hrest⟩ := Prod.mk.inj (Except.ok.inj h)
    obtain ⟨-, hframe⟩ := Prod.mk.inj hrest
    obtain rfl := ReadResult.frame.inj hframe
    have hof := isOf_of_parse hparse
    refine ⟨hof.header.symm ▸ hof, ?_⟩
    by_cases hfollow : MayFollow fr.lastHeaderStream f'.header
    · rw [checkFrameOrder_of_mayFollow hfollow] at horder
      obtain rfl := Except.ok.inj horder
      exact ⟨hfollow, rfl⟩
    · obtain ⟨detail, herr⟩ := checkFrameOrder_of_not_mayFollow hfollow
      cases herr.symm.trans horder
  all_goals cases h

/-- Where a header block is open, only a CONTINUATION is read. -/
theorem eq_continuation_of_readFrame (hopen : fr.lastHeaderStream ≠ 0)
    (h : readFrame fr r = .ok (fr', r', .frame f)) : ∃ fh frag, f = .continuation fh frag := by
  obtain ⟨hof, hfollow, -⟩ := readFrame_frame h
  rw [MayFollow, if_pos hopen] at hfollow
  have htype := hfollow.1
  cases f with
  | continuation fh frag => exact ⟨fh, frag, rfl⟩
  | unknown fh p => exact absurd hof.2 (by rw [show fh.type = _ from htype]; decide)
  | windowUpdate fh _ => exact absurd (htype.symm.trans hof.2) (by decide)
  | data fh _ | headers fh _ _ | priority fh _ | rstStream fh _ | settings fh _ | pushPromise fh _ _ | ping fh _
  | goAway fh _ _ _ => exact absurd (htype.symm.trans hof.2.1) (by decide)

/-- What a write puts on the wire is read as its frame, if it may follow. -/
theorem readFrame_write {w : Write} (hw : w.bytes = .ok bytes) (hreadable : w.Readable)
    (hsize : w.payload.length ≤ fr.maxReadSize) (rest : Bytes) :
    readFrame fr (bytes ++ rest) =
      (checkFrameOrder fr w.frame >>= fun fr => .ok (fr, rest, .frame w.frame)) := by
  obtain ⟨hlegal, hlength, rfl⟩ := w.bytes_eq_ok hw
  have hparse := Write.parse hlegal hreadable
  rw [readFrame, List.append_assoc, readFrameHeader_headerBytes _ _ hlength]
  simp only [bind, Except.bind]
  rw [if_neg (not_lt.mpr hsize), readFull_append]
  simp only
  rw [Write.header] at hparse
  rw [hparse]

/-- A frame that may follow is read back. -/
theorem readFrame_write_of_mayFollow {w : Write} (hw : w.bytes = .ok bytes) (hreadable : w.Readable)
    (hsize : w.payload.length ≤ fr.maxReadSize) (hfollow : MayFollow fr.lastHeaderStream w.header) (rest : Bytes) :
    readFrame fr (bytes ++ rest) = .ok (fr.after w.header, rest, .frame w.frame) := by
  rw [readFrame_write hw hreadable hsize, checkFrameOrder_of_mayFollow (w.header_frame ▸ hfollow), w.header_frame]
  rfl

end OneFrame

/-! ## A sequence of frames -/

section Sequence

variable {fr fr' : Framer} {r r' bytes rest : Bytes} {res : ReadResult} {f : Frame}

/-- The frames up to the end of the connection. It may end between two frames only. -/
def readFrames (fr : Framer) (r : Bytes) : Except ReadError (List ReadResult) :=
  if r = [] then .ok []
  else
    match _h : readFrame fr r with
    | .error e => .error e
    | .ok (fr, r, res) => do
      let results ← readFrames fr r
      .ok (res :: results)
termination_by r.length
decreasing_by
  have := readFrame_length _h
  omega

/-- A frame, and those behind it. -/
theorem readFrames_of_ok (h : readFrame fr r = .ok (fr', r', res)) :
    readFrames fr r = (readFrames fr' r' >>= fun results => .ok (res :: results)) := by
  have hne : r ≠ [] := by
    rintro rfl
    have := readFrame_length h
    simp at this
  rw [readFrames, if_neg hne]
  split
  · rename_i e h'
    cases h.symm.trans h'
  · rename_i fr₁ r₁ res₁ h'
    obtain ⟨rfl, hrest⟩ := Prod.mk.inj (Except.ok.inj (h.symm.trans h'))
    obtain ⟨rfl, rfl⟩ := Prod.mk.inj hrest
    rfl

/-- A frame that is refused ends the reading. -/
theorem readFrames_of_error {e : ReadError} (hne : r ≠ []) (h : readFrame fr r = .error e) :
    readFrames fr r = .error e := by
  rw [readFrames, if_neg hne]
  split
  · rename_i e' h'
    obtain rfl := Except.error.inj (h.symm.trans h')
    rfl
  · rename_i h'
    cases h.symm.trans h'

/-- Each write may follow the one before it; `last` is the stream whose header block is open before the first. -/
def Contiguous : UInt32 → List Write → Prop
  | _, [] => True
  | last, w :: ws => MayFollow last w.header ∧ Contiguous (openStream last w.header) ws

instance decidableContiguous : ∀ (last : UInt32) (ws : List Write), Decidable (Contiguous last ws)
  | _, [] => isTrue trivial
  | last, w :: ws =>
    haveI := decidableContiguous (openStream last w.header) ws
    inferInstanceAs (Decidable (_ ∧ _))

/-- The write is none of a header block. -/
def Write.Plain : Write → Prop
  | .headers _ | .pushPromise _ | .continuation .. => False
  | _ => True

/-- A plain frame has no header block. -/
theorem Write.Plain.type {w : Write} (h : w.Plain) :
    w.header.type ≠ frameHeaders ∧ w.header.type ≠ framePushPromise ∧ w.header.type ≠ frameContinuation := by
  change w.type ≠ frameHeaders ∧ w.type ≠ framePushPromise ∧ w.type ≠ frameContinuation
  cases w with
  | headers | pushPromise | continuation => exact h.elim
  | _ =>
    rw [Write.type]
    decide

/-- Outside of a header block a plain frame may follow, and opens none. -/
theorem Write.Plain.follows {w : Write} (h : w.Plain) : MayFollow 0 w.header ∧ openStream 0 w.header = 0 := by
  obtain ⟨hheaders, hpush, hcont⟩ := h.type
  exact ⟨hcont, if_neg fun htype => htype.elim hheaders fun htype => htype.elim hpush hcont⟩

/-- Plain frames are contiguous. -/
theorem contiguous_of_plain {ws : List Write} (h : ∀ w ∈ ws, w.Plain) : Contiguous 0 ws := by
  induction ws with
  | nil => trivial
  | cons w ws ih =>
    obtain ⟨hfollow, hopen⟩ := (h w List.mem_cons_self).follows
    refine ⟨hfollow, ?_⟩
    rw [hopen]
    exact ih fun w' hw' => h w' (List.mem_cons_of_mem w hw')

theorem bytes_ne_nil {w : Write} (hw : w.bytes = .ok bytes) : bytes ≠ [] := by
  obtain ⟨-, -, rfl⟩ := w.bytes_eq_ok hw
  exact List.cons_ne_nil _ _

/-- Frames are read back exactly if they are contiguous. -/
theorem readFrames_writes {ws : List Write} {wires : List Bytes} (hws : ws.mapM Write.bytes = .ok wires)
    (hreadable : ∀ w ∈ ws, w.Readable ∧ w.payload.length ≤ fr.maxReadSize) :
    (Contiguous fr.lastHeaderStream ws → readFrames fr wires.flatten = .ok (ws.map fun w => .frame w.frame)) ∧
      (¬Contiguous fr.lastHeaderStream ws →
        ∃ detail, readFrames fr wires.flatten = .error (.connection errCodeProtocol (some detail))) := by
  induction ws generalizing fr wires with
  | nil =>
    obtain rfl := Except.ok.inj hws
    refine ⟨fun _ => ?_, fun hno => absurd trivial hno⟩
    rw [readFrames]
    rfl
  | cons w ws ih =>
    rw [List.mapM_cons] at hws
    obtain ⟨bytes, hw, hws⟩ := bind_eq_ok_iff.mp hws
    obtain ⟨wires', hrest, hws⟩ := bind_eq_ok_iff.mp hws
    obtain rfl := Except.ok.inj hws
    obtain ⟨hread, hsize⟩ := hreadable w List.mem_cons_self
    rw [List.flatten_cons]
    -- the order is checked for each frame against what the one before it left open
    by_cases hfollow : MayFollow fr.lastHeaderStream w.header
    · rw [readFrames_of_ok (readFrame_write_of_mayFollow hw hread hsize hfollow _)]
      obtain ⟨hgood, hbad⟩ := @ih (fr.after w.header) wires' hrest
        fun w' hw' => hreadable w' (List.mem_cons_of_mem w hw')
      refine ⟨fun h => ?_, fun h => ?_⟩
      · rw [hgood h.2]
        rfl
      · obtain ⟨detail, herr⟩ := hbad fun h' => h ⟨hfollow, h'⟩
        refine ⟨detail, ?_⟩
        rw [herr]
        rfl
    · have hframe := readFrame_write hw hread hsize wires'.flatten
      obtain ⟨detail, herr⟩ := checkFrameOrder_of_not_mayFollow (w.header_frame ▸ hfollow)
      rw [herr] at hframe
      refine ⟨fun h => absurd h.1 hfollow, fun _ => ⟨detail, ?_⟩⟩
      exact readFrames_of_error (List.append_ne_nil_of_left_ne_nil (bytes_ne_nil hw) _) hframe

/-- What was written is not too large for a new framer. -/
theorem readFrames_newFramer {ws : List Write} {wires : List Bytes} (hws : ws.mapM Write.bytes = .ok wires)
    (hreadable : ∀ w ∈ ws, w.Readable) :
    (Contiguous 0 ws → readFrames newFramer wires.flatten = .ok (ws.map fun w => .frame w.frame)) ∧
      (¬Contiguous 0 ws →
        ∃ detail, readFrames newFramer wires.flatten = .error (.connection errCodeProtocol (some detail))) := by
  have hall : ∀ w ∈ ws, w.Readable ∧ w.payload.length ≤ newFramer.maxReadSize := by
    intro w hw
    obtain ⟨bytes, hbytes⟩ := exists_mapM_iff.mp ⟨wires, hws⟩ w hw
    obtain ⟨-, hlength, -⟩ := w.bytes_eq_ok hbytes
    exact ⟨hreadable w hw, Nat.le_pred_of_lt hlength⟩
  exact readFrames_writes hws hall

/-- What the `Write` methods put on the wire is read as the frames that were written, if the frames of every
header block follow each other, and is a protocol error if they do not. -/
theorem readFrames_eq_ok_iff (ws : List Write) (wires : List Bytes) (hws : ws.mapM Write.bytes = .ok wires)
    (hreadable : ∀ w ∈ ws, w.Readable) :
    (readFrames newFramer wires.flatten = .ok (ws.map fun w => .frame w.frame) ↔ Contiguous 0 ws) ∧
      (¬Contiguous 0 ws →
        ∃ detail, readFrames newFramer wires.flatten = .error (.connection errCodeProtocol (some detail))) := by
  obtain ⟨hgood, hbad⟩ := readFrames_newFramer hws hreadable
  refine ⟨⟨fun h => ?_, hgood⟩, hbad⟩
  by_contra hno
  obtain ⟨detail, herr⟩ := hbad hno
  cases herr.symm.trans h

/-- A header block in two frames. -/
theorem readFrames_eq_ok_iff_continued :
    let ws : List Write := [.windowUpdate 0 100, .headers { streamID := 1, blockFragment := [0x82], endStream := true
                                                            endHeaders := false, padLength := 0, priority := .zero },
      .continuation 1 true [0x84]]
    ∃ wires, ws.mapM Write.bytes = .ok wires ∧
      readFrames newFramer wires.flatten = .ok (ws.map fun w => .frame w.frame) := by
  intro ws
  have hreadable : ∀ w ∈ ws, w.Readable := by
    intro w hw
    rcases List.mem_cons.mp hw with rfl | hw
    · trivial
    · rcases List.mem_cons.mp hw with rfl | hw
      · exact List.cons_ne_nil _ _
      · obtain rfl := List.mem_singleton.mp hw
        trivial
  exact ⟨_, rfl, (readFrames_eq_ok_iff ws _ rfl hreadable).1.mpr (by decide)⟩

end Sequence

end TlsClient.Http2
