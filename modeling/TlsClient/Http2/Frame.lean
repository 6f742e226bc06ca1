import TlsClient.Library.BigEndian
import TlsClient.Library.Fallible

/-!
# HTTP/2 frames

Embeds the frame types of `src/third_party/fhttp/http2/frame.go`, what the `Write` methods of a `Framer` write and
what its parsers make of a payload. `AllowIllegalWrites` is never set, and a frame's `valid` bit only guards who
owns the buffers.

Each `Write` method is one constructor of `Write`. What it writes is read as `Write.frame`, if the write is
`Readable`: a header block fragment must not be empty, and SETTINGS must not open a window that is too large.
-/

open WireBytes Fallible

namespace TlsClient.Http2

def frameHeaderLen : ℕ := 9

/-- `maxFrameSize` of `frame.go` -/
def maxFrameSize : ℕ := 1 <<< 24 - 1

def frameData : UInt8 := 0x0
def frameHeaders : UInt8 := 0x1
def framePriority : UInt8 := 0x2
def frameRSTStream : UInt8 := 0x3
def frameSettings : UInt8 := 0x4
def framePushPromise : UInt8 := 0x5
def framePing : UInt8 := 0x6
def frameGoAway : UInt8 := 0x7
def frameWindowUpdate : UInt8 := 0x8
def frameContinuation : UInt8 := 0x9

/-- `FrameType.String` -/
def frameTypeString (t : UInt8) : String :=
  match t.toNat with
  | 0 => "DATA"
  | 1 => "HEADERS"
  | 2 => "PRIORITY"
  | 3 => "RST_STREAM"
  | 4 => "SETTINGS"
  | 5 => "PUSH_PROMISE"
  | 6 => "PING"
  | 7 => "GOAWAY"
  | 8 => "WINDOW_UPDATE"
  | 9 => "CONTINUATION"
  | n => "UNKNOWN_FRAME_TYPE_" ++ toString n

def flagEndStream : UInt8 := 0x1
def flagAck : UInt8 := 0x1
def flagEndHeaders : UInt8 := 0x4
def flagPadded : UInt8 := 0x8
def flagPriority : UInt8 := 0x20

def errCodeProtocol : UInt32 := 0x1
def errCodeFlowControl : UInt32 := 0x3
def errCodeFrameSize : UInt32 := 0x6
def errCodeCompression : UInt32 := 0x9

structure FrameHeader where
  type : UInt8
  flags : UInt8
  length : ℕ
  streamID : UInt32
  deriving DecidableEq

/-- `Flags.Has` -/
def FrameHeader.has (fh : FrameHeader) (v : UInt8) : Bool := fh.flags &&& v == v

structure PriorityParam where
  streamDep : UInt32
  exclusive : Bool
  weight : UInt8
  deriving DecidableEq

def PriorityParam.zero : PriorityParam := ⟨0, false, 0⟩

/-- `IsZero` -/
def PriorityParam.isZero (p : PriorityParam) : Bool := p == .zero

structure Setting where
  id : UInt16
  val : UInt32
  deriving DecidableEq

def settingHeaderTableSize : UInt16 := 0x1
def settingEnablePush : UInt16 := 0x2
def settingMaxConcurrentStreams : UInt16 := 0x3
def settingInitialWindowSize : UInt16 := 0x4
def settingMaxFrameSize : UInt16 := 0x5
def settingMaxHeaderListSize : UInt16 := 0x6

/-- The eight bytes of a PING. -/
abbrev PingData := { data : Bytes // data.length = 8 }

inductive Frame
  | data (fh : FrameHeader) (data : Bytes)
  | headers (fh : FrameHeader) (priority : PriorityParam) (headerFragBuf : Bytes)
  | priority (fh : FrameHeader) (param : PriorityParam)
  | rstStream (fh : FrameHeader) (errCode : UInt32)
  | settings (fh : FrameHeader) (p : Bytes)
  | pushPromise (fh : FrameHeader) (promiseID : UInt32) (headerFragBuf : Bytes)
  | ping (fh : FrameHeader) (data : PingData)
  | goAway (fh : FrameHeader) (lastStreamID errCode : UInt32) (debugData : Bytes)
  | windowUpdate (fh : FrameHeader) (increment : UInt32)
  | continuation (fh : FrameHeader) (headerFragBuf : Bytes)
  | unknown (fh : FrameHeader) (p : Bytes)
  deriving DecidableEq

/-- `Header` -/
def Frame.header : Frame → FrameHeader
  | .data fh _ | .headers fh _ _ | .priority fh _ | .rstStream fh _ | .settings fh _ | .pushPromise fh _ _
  | .ping fh _ | .goAway fh _ _ _ | .windowUpdate fh _ | .continuation fh _ | .unknown fh _ => fh

/-! ## Parsing -/

/-- What a parser refuses: `connError` with its reason, `ConnectionError`, `StreamError` and
`io.ErrUnexpectedEOF`. -/
inductive ParseError
  | conn (code : UInt32) (reason : String)
  | connection (code : UInt32)
  | stream (streamID code : UInt32)
  | unexpectedEOF
  deriving DecidableEq

def readByte : Bytes → Except ParseError (Bytes × UInt8)
  | [] => .error .unexpectedEOF
  | b :: p => .ok (p, b)

def readUint32 : Bytes → Except ParseError (Bytes × UInt32)
  | a :: b :: c :: d :: p => .ok (p, uint32Of a b c d)
  | _ => .error .unexpectedEOF

/-- The pad length at the front of a padded payload. -/
def readPadLength (fh : FrameHeader) (p : Bytes) : Except ParseError (Bytes × UInt8) :=
  if fh.has flagPadded then readByte p else .ok (p, 0)

def parseDataFrame (fh : FrameHeader) (payload : Bytes) : Except ParseError Frame :=
  if fh.streamID = 0 then .error (.conn errCodeProtocol "DATA frame with stream ID 0")
  else do
    let (payload, padSize) ← readPadLength fh payload
    if padSize.toNat > payload.length then .error (.conn errCodeProtocol "pad size larger than data payload")
    else .ok (.data fh (payload.take (payload.length - padSize.toNat)))

/-- The settings of a payload: `Setting(i)` for each `i` below `NumSettings()`. -/
def settingsOf : Bytes → List Setting
  | a :: b :: c :: d :: e :: f :: p =>
    ⟨UInt16.ofNat (a.toNat <<< 8 ||| b.toNat), uint32Of c d e f⟩ :: settingsOf p
  | _ => []

/-- `Value`: the first setting with the id. -/
def settingValue (p : Bytes) (id : UInt16) : Option UInt32 :=
  ((settingsOf p).find? fun s => s.id = id).map Setting.val

def parseSettingsFrame (fh : FrameHeader) (p : Bytes) : Except ParseError Frame :=
  if fh.has flagAck ∧ fh.length > 0 then .error (.connection errCodeFrameSize)
  else if fh.streamID ≠ 0 then .error (.connection errCodeProtocol)
  else if p.length % 6 ≠ 0 then .error (.connection errCodeFrameSize)
  else
    match settingValue p settingInitialWindowSize with
    | some v => if v.toNat > 1 <<< 31 - 1 then .error (.connection errCodeFlowControl) else .ok (.settings fh p)
    | none => .ok (.settings fh p)

def parsePingFrame (fh : FrameHeader) (payload : Bytes) : Except ParseError Frame :=
  if h : payload.length = 8 then
    if fh.streamID ≠ 0 then .error (.connection errCodeProtocol) else .ok (.ping fh ⟨payload, h⟩)
  else .error (.connection errCodeFrameSize)

def parseGoAwayFrame (fh : FrameHeader) (p : Bytes) : Except ParseError Frame :=
  if fh.streamID ≠ 0 then .error (.connection errCodeProtocol)
  else
    match p with
    | a :: b :: c :: d :: e :: f :: g :: h :: debugData =>
      .ok (.goAway fh (uint31 (uint32Of a b c d)) (uint32Of e f g h) debugData)
    | _ => .error (.connection errCodeFrameSize)

def parseUnknownFrame (fh : FrameHeader) (p : Bytes) : Except ParseError Frame := .ok (.unknown fh p)

def parseWindowUpdateFrame (fh : FrameHeader) (p : Bytes) : Except ParseError Frame :=
  match p with
  | [a, b, c, d] =>
    let inc := uint31 (uint32Of a b c d)
    if inc = 0 then
      if fh.streamID = 0 then .error (.connection errCodeProtocol)
      else .error (.stream fh.streamID errCodeProtocol)
    else .ok (.windowUpdate fh inc)
  | _ => .error (.connection errCodeFrameSize)

/-- The priority fields of a HEADERS payload. -/
def readPriority (fh : FrameHeader) (p : Bytes) : Except ParseError (Bytes × PriorityParam) :=
  if fh.has flagPriority then do
    let (p, v) ← readUint32 p
    let streamDep := uint31 v
    let (p, weight) ← readByte p
    .ok (p, { streamDep, exclusive := v ≠ streamDep, weight })
  else .ok (p, .zero)

def parseHeadersFrame (fh : FrameHeader) (p : Bytes) : Except ParseError Frame :=
  if fh.streamID = 0 then .error (.conn errCodeProtocol "HEADERS frame with stream ID 0")
  else do
    let (p, padLength) ← readPadLength fh p
    let (p, priority) ← readPriority fh p
    if p.length ≤ padLength.toNat then .error (.stream fh.streamID errCodeProtocol)
    else .ok (.headers fh priority (p.take (p.length - padLength.toNat)))

def parsePriorityFrame (fh : FrameHeader) (payload : Bytes) : Except ParseError Frame :=
  if fh.streamID = 0 then .error (.conn errCodeProtocol "PRIORITY frame with stream ID 0")
  else
    match payload with
    | [a, b, c, d, weight] =>
      let v := uint32Of a b c d
      let streamID := uint31 v
      .ok (.priority fh { streamDep := streamID, exclusive := streamID ≠ v, weight })
    | _ => .error (.conn errCodeFrameSize
        ("PRIORITY frame payload size was " ++ toString payload.length ++ "; want 5"))

def parseRSTStreamFrame (fh : FrameHeader) (p : Bytes) : Except ParseError Frame :=
  match p with
  | [a, b, c, d] =>
    if fh.streamID = 0 then .error (.connection errCodeProtocol) else .ok (.rstStream fh (uint32Of a b c d))
  | _ => .error (.connection errCodeFrameSize)

def parseContinuationFrame (fh : FrameHeader) (p : Bytes) : Except ParseError Frame :=
  if fh.streamID = 0 then .error (.conn errCodeProtocol "CONTINUATION frame with stream ID 0")
  else .ok (.continuation fh p)

def parsePushPromise (fh : FrameHeader) (p : Bytes) : Except ParseError Frame :=
  if fh.streamID = 0 then .error (.conn errCodeProtocol "PUSH_PROMISE frame with stream ID 0")
  else do
    let (p, padLength) ← readPadLength fh p
    let (p, promiseID) ← readUint32 p
    let promiseID := uint31 promiseID
    if padLength.toNat > p.length then .error (.connection errCodeProtocol)
    else .ok (.pushPromise fh promiseID (p.take (p.length - padLength.toNat)))

/-- `typeFrameParser`, applied -/
def typeFrameParser (t : UInt8) (fh : FrameHeader) (payload : Bytes) : Except ParseError Frame :=
  match t.toNat with
  | 0 => parseDataFrame fh payload
  | 1 => parseHeadersFrame fh payload
  | 2 => parsePriorityFrame fh payload
  | 3 => parseRSTStreamFrame fh payload
  | 4 => parseSettingsFrame fh payload
  | 5 => parsePushPromise fh payload
  | 6 => parsePingFrame fh payload
  | 7 => parseGoAwayFrame fh payload
  | 8 => parseWindowUpdateFrame fh payload
  | 9 => parseContinuationFrame fh payload
  | _ => parseUnknownFrame fh payload

/-- The type that a frame has been parsed for. -/
def Frame.IsOf : Frame → FrameHeader → Prop
  | .data fh _, fh' => fh = fh' ∧ fh.type = frameData ∧ fh.streamID ≠ 0
  | .headers fh _ _, fh' => fh = fh' ∧ fh.type = frameHeaders ∧ fh.streamID ≠ 0
  | .priority fh _, fh' => fh = fh' ∧ fh.type = framePriority ∧ fh.streamID ≠ 0
  | .rstStream fh _, fh' => fh = fh' ∧ fh.type = frameRSTStream ∧ fh.streamID ≠ 0
  | .settings fh _, fh' => fh = fh' ∧ fh.type = frameSettings ∧ fh.streamID = 0
  | .pushPromise fh _ _, fh' => fh = fh' ∧ fh.type = framePushPromise ∧ fh.streamID ≠ 0
  | .ping fh _, fh' => fh = fh' ∧ fh.type = framePing ∧ fh.streamID = 0
  | .goAway fh _ _ _, fh' => fh = fh' ∧ fh.type = frameGoAway ∧ fh.streamID = 0
  | .windowUpdate fh _, fh' => fh = fh' ∧ fh.type = frameWindowUpdate
  | .continuation fh _, fh' => fh = fh' ∧ fh.type = frameContinuation ∧ fh.streamID ≠ 0
  | .unknown fh _, fh' => fh = fh' ∧ 9 < fh.type.toNat

/-- A parsed frame has the header it was parsed with, and a stream where its type needs one. -/
theorem isOf_of_parse {fh : FrameHeader} {p : Bytes} {f : Frame} (h : typeFrameParser fh.type fh p = .ok f) :
    f.IsOf fh := by
  -- the parser is found by the number of the type, so its arm names the type
  have htype : ∀ t : UInt8, fh.type.toNat = t.toNat → fh.type = t := fun t ht => UInt8.toNat_inj.mp ht
  -- an arm for each type; the check of the stream is among its guards
  unfold typeFrameParser at h
  split at h
  · rename_i ht
    obtain ⟨hid, h⟩ := ite_error_eq_ok_iff.mp h
    obtain ⟨_, -, h⟩ := bind_eq_ok_iff.mp h
    obtain ⟨-, h⟩ := ite_error_eq_ok_iff.mp h
    obtain rfl := Except.ok.inj h
    exact ⟨rfl, htype _ ht, hid⟩
  · rename_i ht
    obtain ⟨hid, h⟩ := ite_error_eq_ok_iff.mp h
    obtain ⟨_, -, h⟩ := bind_eq_ok_iff.mp h
    obtain ⟨_, -, h⟩ := bind_eq_ok_iff.mp h
    obtain ⟨-, h⟩ := ite_error_eq_ok_iff.mp h
    obtain rfl := Except.ok.inj h
    exact ⟨rfl, htype _ ht, hid⟩
  · rename_i ht
    obtain ⟨hid, h⟩ := ite_error_eq_ok_iff.mp h
    split at h
    · obtain rfl := Except.ok.inj h
      exact ⟨rfl, htype _ ht, hid⟩
    · cases h
  · rename_i ht
    unfold parseRSTStreamFrame at h
    split at h
    · obtain ⟨hid, h⟩ := ite_error_eq_ok_iff.mp h
      obtain rfl := Except.ok.inj h
      exact ⟨rfl, htype _ ht, hid⟩
    · cases h
  · rename_i ht
    obtain ⟨-, h⟩ := ite_error_eq_ok_iff.mp h
    obtain ⟨hid, h⟩ := ite_error_eq_ok_iff.mp h
    obtain ⟨-, h⟩ := ite_error_eq_ok_iff.mp h
    have hf : f = .settings fh p := by
      split at h
      · obtain ⟨-, h⟩ := ite_error_eq_ok_iff.mp h
        exact (Except.ok.inj h).symm
      · exact (Except.ok.inj h).symm
    subst hf
    exact ⟨rfl, htype _ ht, not_not.mp hid⟩
  · rename_i ht
    obtain ⟨hid, h⟩ := ite_error_eq_ok_iff.mp h
    obtain ⟨_, -, h⟩ := bind_eq_ok_iff.mp h
    obtain ⟨_, -, h⟩ := bind_eq_ok_iff.mp h
    obtain ⟨-, h⟩ := ite_error_eq_ok_iff.mp h
    obtain rfl := Except.ok.inj h
    exact ⟨rfl, htype _ ht, hid⟩
  · rename_i ht
    unfold parsePingFrame at h
    split at h
    · obtain ⟨hid, h⟩ := ite_error_eq_ok_iff.mp h
      obtain rfl := Except.ok.inj h
      exact ⟨rfl, htype _ ht, not_not.mp hid⟩
    · cases h
  · rename_i ht
    obtain ⟨hid, h⟩ := ite_error_eq_ok_iff.mp h
    split at h
    · obtain rfl := Except.ok.inj h
      exact ⟨rfl, htype _ ht, not_not.mp hid⟩
    · cases h
  · rename_i ht
    unfold parseWindowUpdateFrame at h
    split at h
    · simp only at h
      split_ifs at h
      obtain rfl := Except.ok.inj h
      exact ⟨rfl, htype _ ht⟩
    · cases h
  · rename_i ht
    obtain ⟨hid, h⟩ := ite_error_eq_ok_iff.mp h
    obtain rfl := Except.ok.inj h
    exact ⟨rfl, htype _ ht, hid⟩
  · obtain rfl := Except.ok.inj h
    refine ⟨rfl, ?_⟩
    by_contra hle
    have hcases : ∀ n ≤ 9, n = 0 ∨ n = 1 ∨ n = 2 ∨ n = 3 ∨ n = 4 ∨ n = 5 ∨ n = 6 ∨ n = 7 ∨ n = 8 ∨ n = 9 := by
      omega
    have := hcases _ (not_lt.mp hle)
    tauto

theorem Frame.IsOf.header {f : Frame} {fh : FrameHeader} (h : f.IsOf fh) : f.header = fh := by
  cases f <;> exact h.1

/-! ## Writing -/

inductive WriteError
  | streamID
  | depStreamID
  | padLength
  | padBytes
  | frameTooLarge
  | windowIncrement
  deriving DecidableEq

/-- The texts of the errors. -/
def WriteError.text : WriteError → String
  | .streamID => "invalid stream ID"
  | .depStreamID => "invalid dependent stream ID"
  | .padLength => "pad length too large"
  | .padBytes => "padding bytes must all be zeros unless AllowIllegalWrites is enabled"
  | .frameTooLarge => "http2: frame too large"
  | .windowIncrement => "illegal window increment value"

def validStreamIDOrZero (streamID : UInt32) : Bool := streamID &&& 0x80000000 == 0

def validStreamID (streamID : UInt32) : Bool := streamID ≠ 0 && streamID &&& 0x80000000 == 0

/-- `startWrite`: the length is filled in by `endWrite`. -/
def startWrite (ftype flags : UInt8) (streamID : UInt32) : Bytes :=
  0 :: 0 :: 0 :: ftype :: flags :: uint32Bytes streamID

def endWrite (wbuf : Bytes) : Except WriteError Bytes :=
  let length := wbuf.length - frameHeaderLen
  if length ≥ 1 <<< 24 then .error .frameTooLarge
  else .ok (UInt8.ofNat (length >>> 16) :: UInt8.ofNat (length >>> 8) :: UInt8.ofNat length :: wbuf.drop 3)

/-- `WriteDataPadded`; `WriteData` has no padding. -/
def writeData (streamID : UInt32) (endStream : Bool) (data : Bytes) (pad : Option Bytes) :
    Except WriteError Bytes :=
  let padding := pad.getD []
  if !validStreamID streamID then .error .streamID
  else if padding.length > 255 then .error .padLength
  else if padding.any (· ≠ 0) then .error .padBytes
  else
    let flags := (if endStream then flagEndStream else 0) ||| (if pad.isSome then flagPadded else 0)
    let wbuf := startWrite frameData flags streamID
    let wbuf := if pad.isSome then wbuf ++ [UInt8.ofNat padding.length] else wbuf
    endWrite (wbuf ++ data ++ padding)

def writeSettings (settings : List Setting) : Except WriteError Bytes :=
  endWrite (settings.foldl (fun wbuf s => wbuf ++ uint16Bytes s.id.toNat ++ uint32Bytes s.val)
    (startWrite frameSettings 0 0))

def writeSettingsAck : Except WriteError Bytes := endWrite (startWrite frameSettings flagAck 0)

def writePing (ack : Bool) (data : PingData) : Except WriteError Bytes :=
  endWrite (startWrite framePing (if ack then flagAck else 0) 0 ++ data.1)

def writeGoAway (maxStreamID code : UInt32) (debugData : Bytes) : Except WriteError Bytes :=
  endWrite (startWrite frameGoAway 0 0 ++ uint32Bytes (uint31 maxStreamID) ++ uint32Bytes code ++ debugData)

def writeWindowUpdate (streamID incr : UInt32) : Except WriteError Bytes :=
  if incr.toNat < 1 ∨ incr.toNat > 2147483647 then .error .windowIncrement
  else endWrite (startWrite frameWindowUpdate 0 streamID ++ uint32Bytes incr)

structure HeadersFrameParam where
  streamID : UInt32
  blockFragment : Bytes
  endStream : Bool
  endHeaders : Bool
  padLength : UInt8
  priority : PriorityParam
  deriving DecidableEq

/-- The stream that another depends on, with the bit for an exclusive dependency. -/
def PriorityParam.word (p : PriorityParam) : UInt32 :=
  if p.exclusive then p.streamDep ||| 0x80000000 else p.streamDep

def writeHeaders (p : HeadersFrameParam) : Except WriteError Bytes :=
  if !validStreamID p.streamID then .error .streamID
  else
    let flags := (if p.padLength ≠ 0 then flagPadded else 0) ||| (if p.endStream then flagEndStream else 0) |||
      (if p.endHeaders then flagEndHeaders else 0) ||| (if !p.priority.isZero then flagPriority else 0)
    let wbuf := startWrite frameHeaders flags p.streamID
    let wbuf := if p.padLength ≠ 0 then wbuf ++ [p.padLength] else wbuf
    if !p.priority.isZero && !validStreamIDOrZero p.priority.streamDep then .error .depStreamID
    else
      let wbuf := if !p.priority.isZero then wbuf ++ (uint32Bytes p.priority.word ++ [p.priority.weight]) else wbuf
      endWrite (wbuf ++ p.blockFragment ++ List.replicate p.padLength.toNat 0)

def writePriority (streamID : UInt32) (p : PriorityParam) : Except WriteError Bytes :=
  if !validStreamID streamID then .error .streamID
  else if !validStreamIDOrZero p.streamDep then .error .depStreamID
  else endWrite (startWrite framePriority 0 streamID ++ uint32Bytes p.word ++ [p.weight])

def writeRSTStream (streamID code : UInt32) : Except WriteError Bytes :=
  if !validStreamID streamID then .error .streamID
  else endWrite (startWrite frameRSTStream 0 streamID ++ uint32Bytes code)

def writeContinuation (streamID : UInt32) (endHeaders : Bool) (headerBlockFragment : Bytes) :
    Except WriteError Bytes :=
  if !validStreamID streamID then .error .streamID
  else endWrite (startWrite frameContinuation (if endHeaders then flagEndHeaders else 0) streamID ++
    headerBlockFragment)

structure PushPromiseParam where
  streamID : UInt32
  promiseID : UInt32
  blockFragment : Bytes
  endHeaders : Bool
  padLength : UInt8
  deriving DecidableEq

def writePushPromise (p : PushPromiseParam) : Except WriteError Bytes :=
  if !validStreamID p.streamID then .error .streamID
  else
    let flags := (if p.padLength ≠ 0 then flagPadded else 0) ||| (if p.endHeaders then flagEndHeaders else 0)
    let wbuf := startWrite framePushPromise flags p.streamID
    let wbuf := if p.padLength ≠ 0 then wbuf ++ [p.padLength] else wbuf
    if !validStreamID p.promiseID then .error .streamID
    else endWrite (wbuf ++ uint32Bytes p.promiseID ++ p.blockFragment ++ List.replicate p.padLength.toNat 0)

/-- A call of one of the `Write` methods. -/
inductive Write
  | data (streamID : UInt32) (endStream : Bool) (data : Bytes) (pad : Option Bytes)
  | headers (p : HeadersFrameParam)
  | priority (streamID : UInt32) (p : PriorityParam)
  | rstStream (streamID code : UInt32)
  | settings (settings : List Setting)
  | settingsAck
  | pushPromise (p : PushPromiseParam)
  | ping (ack : Bool) (data : PingData)
  | goAway (maxStreamID code : UInt32) (debugData : Bytes)
  | windowUpdate (streamID incr : UInt32)
  | continuation (streamID : UInt32) (endHeaders : Bool) (headerBlockFragment : Bytes)
  deriving DecidableEq

def Write.bytes : Write → Except WriteError Bytes
  | .data streamID endStream octets pad => writeData streamID endStream octets pad
  | .headers p => writeHeaders p
  | .priority streamID p => writePriority streamID p
  | .rstStream streamID code => writeRSTStream streamID code
  | .settings values => writeSettings values
  | .settingsAck => writeSettingsAck
  | .pushPromise p => writePushPromise p
  | .ping ack octets => writePing ack octets
  | .goAway maxStreamID code debugData => writeGoAway maxStreamID code debugData
  | .windowUpdate streamID incr => writeWindowUpdate streamID incr
  | .continuation streamID endHeaders frag => writeContinuation streamID endHeaders frag

/-! ## What is written is parsed -/

section RoundTrip

def Write.type : Write → UInt8
  | .data .. => frameData
  | .headers .. => frameHeaders
  | .priority .. => framePriority
  | .rstStream .. => frameRSTStream
  | .settings .. | .settingsAck => frameSettings
  | .pushPromise .. => framePushPromise
  | .ping .. => framePing
  | .goAway .. => frameGoAway
  | .windowUpdate .. => frameWindowUpdate
  | .continuation .. => frameContinuation

def Write.flags : Write → UInt8
  | .data _ endStream _ pad => (if endStream then flagEndStream else 0) ||| (if pad.isSome then flagPadded else 0)
  | .headers p => (if p.padLength ≠ 0 then flagPadded else 0) ||| (if p.endStream then flagEndStream else 0) |||
      (if p.endHeaders then flagEndHeaders else 0) ||| (if !p.priority.isZero then flagPriority else 0)
  | .pushPromise p => (if p.padLength ≠ 0 then flagPadded else 0) ||| (if p.endHeaders then flagEndHeaders else 0)
  | .settingsAck => flagAck
  | .ping ack _ => if ack then flagAck else 0
  | .continuation _ endHeaders _ => if endHeaders then flagEndHeaders else 0
  | .priority .. | .rstStream .. | .settings .. | .goAway .. | .windowUpdate .. => 0

def Write.streamID : Write → UInt32
  | .data id .. | .priority id _ | .rstStream id _ | .windowUpdate id _ | .continuation id .. => id
  | .headers p => p.streamID
  | .pushPromise p => p.streamID
  | .settings .. | .settingsAck | .ping .. | .goAway .. => 0

def settingsBytes (settings : List Setting) : Bytes :=
  settings.flatMap fun s => uint16Bytes s.id.toNat ++ uint32Bytes s.val

def Write.payload : Write → Bytes
  | .data _ _ octets pad =>
    (if pad.isSome then [UInt8.ofNat (pad.getD []).length] else []) ++ (octets ++ pad.getD [])
  | .headers p => (if p.padLength ≠ 0 then [p.padLength] else []) ++
      ((if !p.priority.isZero then uint32Bytes p.priority.word ++ [p.priority.weight] else []) ++
        (p.blockFragment ++ List.replicate p.padLength.toNat 0))
  | .priority _ p => uint32Bytes p.word ++ [p.weight]
  | .rstStream _ code => uint32Bytes code
  | .settings values => settingsBytes values
  | .settingsAck => []
  | .pushPromise p => (if p.padLength ≠ 0 then [p.padLength] else []) ++
      (uint32Bytes p.promiseID ++ (p.blockFragment ++ List.replicate p.padLength.toNat 0))
  | .ping _ octets => octets.1
  | .goAway maxStreamID code debugData => uint32Bytes (uint31 maxStreamID) ++ (uint32Bytes code ++ debugData)
  | .windowUpdate _ incr => uint32Bytes incr
  | .continuation _ _ frag => frag

/-- What the `Write` methods ask of their arguments. -/
def Write.Legal : Write → Prop
  | .data streamID _ _ pad => validStreamID streamID = true ∧ (pad.getD []).length ≤ 255 ∧ ∀ b ∈ pad.getD [], b = 0
  | .headers p => validStreamID p.streamID = true ∧
      (p.priority.isZero = false → validStreamIDOrZero p.priority.streamDep = true)
  | .priority streamID p => validStreamID streamID = true ∧ validStreamIDOrZero p.streamDep = true
  | .rstStream streamID _ => validStreamID streamID = true
  | .pushPromise p => validStreamID p.streamID = true ∧ validStreamID p.promiseID = true
  | .windowUpdate _ incr => 1 ≤ incr.toNat ∧ incr.toNat ≤ 2147483647
  | .continuation streamID _ _ => validStreamID streamID = true
  | .settings _ | .settingsAck | .ping .. | .goAway .. => True

/-- The nine bytes before a payload. -/
def headerBytes (type flags : UInt8) (length : ℕ) (streamID : UInt32) : Bytes :=
  UInt8.ofNat (length >>> 16) :: UInt8.ofNat (length >>> 8) :: UInt8.ofNat length :: type :: flags ::
    uint32Bytes streamID

/-- A frame that is written has its length in its header. -/
theorem endWrite_startWrite {t flags : UInt8} {streamID : UInt32} {payload bytes : Bytes}
    (h : endWrite (startWrite t flags streamID ++ payload) = .ok bytes) :
    payload.length < 2 ^ 24 ∧ bytes = headerBytes t flags payload.length streamID ++ payload := by
  have hlength : (startWrite t flags streamID ++ payload).length - frameHeaderLen = payload.length := by
    rw [List.length_append]
    exact Nat.add_sub_cancel_left 9 payload.length
  simp only [endWrite, hlength] at h
  split_ifs at h with hlarge
  obtain rfl := Except.ok.inj h
  exact ⟨Nat.lt_of_not_le hlarge, rfl⟩

/-- A payload below 2^24 bytes can be written. -/
theorem endWrite_startWrite_of_lt (t flags : UInt8) (streamID : UInt32) {payload : Bytes}
    (h : payload.length < 2 ^ 24) : ∃ bytes, endWrite (startWrite t flags streamID ++ payload) = .ok bytes := by
  have hlength : (startWrite t flags streamID ++ payload).length - frameHeaderLen = payload.length := by
    rw [List.length_append]
    exact Nat.add_sub_cancel_left 9 payload.length
  simp only [endWrite, hlength]
  exact ⟨_, if_neg (Nat.not_le_of_lt h)⟩

/-- The settings are written one after another. -/
theorem foldl_settings (settings : List Setting) (wbuf : Bytes) :
    settings.foldl (fun wbuf s => wbuf ++ uint16Bytes s.id.toNat ++ uint32Bytes s.val) wbuf =
      wbuf ++ settingsBytes settings := by
  induction settings generalizing wbuf with
  | nil => exact (List.append_nil wbuf).symm
  | cons s settings ih =>
    rw [List.foldl_cons, ih, settingsBytes, settingsBytes, List.flatMap_cons]
    simp only [List.append_assoc]

/-- A field that is written or not. -/
theorem append_ite {α : Type} (c : Prop) [Decidable c] (wbuf field : List α) :
    (if c then wbuf ++ field else wbuf) = wbuf ++ if c then field else [] := by
  split_ifs
  · rfl
  · exact (List.append_nil wbuf).symm

/-- A flag that is not off is on. -/
theorem eq_true_of_not_not {b : Bool} (h : ¬(!b) = true) : b = true := by
  cases b with
  | true => rfl
  | false => exact absurd rfl h

/-- A write puts its header and its payload on the wire. -/
theorem Write.bytes_eq_ok {w : Write} {bytes : Bytes} (h : w.bytes = .ok bytes) :
    w.Legal ∧ w.payload.length < 2 ^ 24 ∧
      bytes = headerBytes w.type w.flags w.payload.length w.streamID ++ w.payload := by
  -- every method checks its arguments, then appends and lets `endWrite` check the length
  cases w with
  | data streamID endStream octets pad =>
    obtain ⟨hid, h⟩ := ite_error_eq_ok_iff.mp h
    obtain ⟨hlong, h⟩ := ite_error_eq_ok_iff.mp h
    obtain ⟨hzeros, h⟩ := ite_error_eq_ok_iff.mp h
    simp only [append_ite] at h
    rw [List.append_assoc, List.append_assoc] at h
    exact ⟨⟨eq_true_of_not_not hid, not_lt.mp hlong, by simpa using hzeros⟩, endWrite_startWrite h⟩
  | headers p =>
    obtain ⟨hid, h⟩ := ite_error_eq_ok_iff.mp h
    obtain ⟨hdep, h⟩ := ite_error_eq_ok_iff.mp h
    simp only [append_ite] at h
    simp only [List.append_assoc] at h
    refine ⟨⟨eq_true_of_not_not hid, fun hprio => ?_⟩, endWrite_startWrite h⟩
    simpa [hprio] using hdep
  | priority streamID p =>
    obtain ⟨hid, h⟩ := ite_error_eq_ok_iff.mp h
    obtain ⟨hdep, h⟩ := ite_error_eq_ok_iff.mp h
    rw [List.append_assoc] at h
    exact ⟨⟨eq_true_of_not_not hid, eq_true_of_not_not hdep⟩, endWrite_startWrite h⟩
  | rstStream streamID code =>
    obtain ⟨hid, h⟩ := ite_error_eq_ok_iff.mp h
    exact ⟨eq_true_of_not_not hid, endWrite_startWrite h⟩
  | settings values =>
    simp only [Write.bytes, writeSettings, foldl_settings] at h
    exact ⟨trivial, endWrite_startWrite h⟩
  | settingsAck =>
    rw [Write.bytes, writeSettingsAck, ← List.append_nil (startWrite _ _ _)] at h
    exact ⟨trivial, endWrite_startWrite h⟩
  | pushPromise p =>
    obtain ⟨hid, h⟩ := ite_error_eq_ok_iff.mp h
    obtain ⟨hpromise, h⟩ := ite_error_eq_ok_iff.mp h
    simp only [append_ite] at h
    simp only [List.append_assoc] at h
    exact ⟨⟨eq_true_of_not_not hid, eq_true_of_not_not hpromise⟩, endWrite_startWrite h⟩
  | ping ack octets => exact ⟨trivial, endWrite_startWrite h⟩
  | goAway maxStreamID code debugData =>
    rw [Write.bytes, writeGoAway, List.append_assoc, List.append_assoc] at h
    exact ⟨trivial, endWrite_startWrite h⟩
  | windowUpdate streamID incr =>
    obtain ⟨hincr, h⟩ := ite_error_eq_ok_iff.mp h
    exact ⟨by simp only [Write.Legal]; omega, endWrite_startWrite h⟩
  | continuation streamID endHeaders frag =>
    obtain ⟨hid, h⟩ := ite_error_eq_ok_iff.mp h
    exact ⟨eq_true_of_not_not hid, endWrite_startWrite h⟩

/-- Only what the `Write` methods ask for and the length decide whether a write is refused. -/
theorem Write.exists_bytes {w : Write} (hlegal : w.Legal) (hlength : w.payload.length < 2 ^ 24) :
    ∃ bytes, w.bytes = .ok bytes := by
  obtain ⟨bytes, h⟩ := endWrite_startWrite_of_lt w.type w.flags w.streamID hlength
  refine ⟨bytes, ?_⟩
  -- the guards of each method are what `Legal` says of it
  cases w with
  | data streamID endStream octets pad =>
    obtain ⟨hid, hlong, hzeros⟩ := hlegal
    refine ite_error_eq_ok_iff.mpr ⟨by rw [hid]; decide, ite_error_eq_ok_iff.mpr ⟨not_lt.mpr hlong,
      ite_error_eq_ok_iff.mpr ⟨by simpa using hzeros, ?_⟩⟩⟩
    simp only [append_ite]
    rwa [List.append_assoc, List.append_assoc]
  | headers p =>
    obtain ⟨hid, hdep⟩ := hlegal
    refine ite_error_eq_ok_iff.mpr ⟨by rw [hid]; decide, ite_error_eq_ok_iff.mpr ⟨?_, ?_⟩⟩
    · cases hzero : p.priority.isZero with
      | true => simp
      | false => simp [hdep hzero]
    · simp only [append_ite]
      simp only [List.append_assoc]
      exact h
  | priority streamID p =>
    obtain ⟨hid, hdep⟩ := hlegal
    refine ite_error_eq_ok_iff.mpr ⟨by rw [hid]; decide, ite_error_eq_ok_iff.mpr ⟨by rw [hdep]; decide, ?_⟩⟩
    rwa [List.append_assoc]
  | rstStream streamID code =>
    have hid : validStreamID streamID = true := hlegal
    exact ite_error_eq_ok_iff.mpr ⟨by rw [hid]; decide, h⟩
  | settings values =>
    simp only [Write.bytes, writeSettings, foldl_settings]
    exact h
  | settingsAck =>
    rw [Write.bytes, writeSettingsAck, ← List.append_nil (startWrite _ _ _)]
    exact h
  | pushPromise p =>
    obtain ⟨hid, hpromise⟩ := hlegal
    refine ite_error_eq_ok_iff.mpr ⟨by rw [hid]; decide, ite_error_eq_ok_iff.mpr ⟨by rw [hpromise]; decide, ?_⟩⟩
    simp only [append_ite]
    simp only [List.append_assoc]
    exact h
  | ping ack octets => exact h
  | goAway maxStreamID code debugData =>
    rw [Write.bytes, writeGoAway, List.append_assoc, List.append_assoc]
    exact h
  | windowUpdate streamID incr =>
    obtain ⟨hpos, hmax⟩ := hlegal
    exact ite_error_eq_ok_iff.mpr ⟨by omega, h⟩
  | continuation streamID endHeaders frag =>
    have hid : validStreamID streamID = true := hlegal
    exact ite_error_eq_ok_iff.mpr ⟨by rw [hid]; decide, h⟩

/-- The header of a write as it is read. The top bit of a stream id is not. -/
def Write.header (w : Write) : FrameHeader :=
  { type := w.type, flags := w.flags, length := w.payload.length, streamID := uint31 w.streamID }

/-- What a write is read as. -/
def Write.frame : Write → Frame
  | .data id endStream octets pad => .data (Write.data id endStream octets pad).header octets
  | .headers p => .headers (Write.headers p).header p.priority p.blockFragment
  | .priority id p => .priority (Write.priority id p).header p
  | .rstStream id code => .rstStream (Write.rstStream id code).header code
  | .settings values => .settings (Write.settings values).header (settingsBytes values)
  | .settingsAck => .settings Write.settingsAck.header []
  | .pushPromise p => .pushPromise (Write.pushPromise p).header p.promiseID p.blockFragment
  | .ping ack octets => .ping (Write.ping ack octets).header octets
  | .goAway id code debugData => .goAway (Write.goAway id code debugData).header (uint31 id) code debugData
  | .windowUpdate id incr => .windowUpdate (Write.windowUpdate id incr).header incr
  | .continuation id endHeaders frag => .continuation (Write.continuation id endHeaders frag).header frag

theorem Write.header_frame (w : Write) : w.frame.header = w.header := by
  cases w <;> rfl

/-- The write says nothing that the parsers refuse. -/
def Write.Readable : Write → Prop
  | .headers p => p.blockFragment ≠ []
  | .settings values => ∀ s, values.find? (fun s => s.id = settingInitialWindowSize) = some s → s.val.toNat < 2 ^ 31
  | _ => True

/-- Settings are read back from their bytes. -/
theorem settingsOf_settingsBytes (settings : List Setting) : settingsOf (settingsBytes settings) = settings := by
  induction settings with
  | nil => rfl
  | cons s settings ih =>
    have hid : UInt16.ofNat ((UInt8.ofNat (s.id.toNat >>> 8)).toNat <<< 8 ||| (UInt8.ofNat s.id.toNat).toNat) = s.id := by
      rw [uint16Bytes_combine s.id.toNat_lt, UInt16.ofNat_toNat]
    rw [settingsBytes, List.flatMap_cons]
    simp only [uint16Bytes, uint32Bytes, List.cons_append, List.nil_append, settingsOf, hid, uint32Of_uint32Bytes]
    exact congrArg _ ih

/-- Six bytes for each setting. -/
theorem length_settingsBytes (settings : List Setting) : (settingsBytes settings).length = 6 * settings.length := by
  induction settings with
  | nil => rfl
  | cons s settings ih =>
    rw [settingsBytes, List.flatMap_cons, List.length_append, List.length_append, length_uint16Bytes,
      length_uint32Bytes, List.length_cons]
    rw [settingsBytes] at ih
    omega

theorem uint31_of_valid {v : UInt32} (h : validStreamIDOrZero v = true) : uint31 v = v :=
  uint31_of_lt (and_high_eq_zero_iff.mp (eq_of_beq h))

theorem validStreamID_spec {v : UInt32} (h : validStreamID v = true) : v ≠ 0 ∧ uint31 v = v := by
  rw [validStreamID, Bool.and_eq_true] at h
  exact ⟨of_decide_eq_true h.1, uint31_of_valid h.2⟩

/-- A word with the bit for an exclusive dependency is taken apart. -/
theorem word_spec {p : PriorityParam} (h : validStreamIDOrZero p.streamDep = true) :
    uint31 p.word = p.streamDep ∧ (p.word ≠ p.streamDep ↔ p.exclusive = true) := by
  have hlt : p.streamDep.toNat < 2 ^ 31 := and_high_eq_zero_iff.mp (eq_of_beq h)
  rw [PriorityParam.word]
  cases p.exclusive with
  | false => exact ⟨uint31_of_lt hlt, iff_of_false (fun hne => hne rfl) Bool.false_ne_true⟩
  | true =>
    refine ⟨uint31_or_high hlt, iff_of_true (fun heq => ?_) rfl⟩
    have hnat := congrArg UInt32.toNat heq
    rw [if_pos rfl, toNat_or_high hlt] at hnat
    omega

/-- A priority is read back where the flag says that there is one. -/
theorem readPriority_append {fh : FrameHeader} {p : PriorityParam} (hflag : fh.has flagPriority = !p.isZero)
    (h : p.isZero = false → validStreamIDOrZero p.streamDep = true) (rest : Bytes) :
    readPriority fh ((if !p.isZero then uint32Bytes p.word ++ [p.weight] else []) ++ rest) = .ok (rest, p) := by
  cases hzero : p.isZero with
  | true =>
    rw [readPriority, hflag, hzero, eq_of_beq hzero]
    rfl
  | false =>
    obtain ⟨hdep, hexclusive⟩ := word_spec (h hzero)
    simp only [readPriority, hflag, hzero, Bool.not_false, if_true, uint32Bytes, List.cons_append, List.nil_append,
      readUint32, readByte, bind, Except.bind, uint32Of_uint32Bytes, hdep]
    congr 3
    exact Bool.eq_iff_iff.mpr (by rw [decide_eq_true_iff, hexclusive])

/-- The pad length is written if it is not zero. -/
theorem readPadLength_append {fh : FrameHeader} {b : UInt8} (h : fh.has flagPadded = decide (b ≠ 0)) (rest : Bytes) :
    readPadLength fh ((if b ≠ 0 then [b] else []) ++ rest) = .ok (rest, b) := by
  rw [readPadLength, h]
  by_cases hb : b = 0
  · simp [hb]
  · simp [hb, readByte]

/-- The padding is cut off. -/
theorem take_padding (data pad : Bytes) : (data ++ pad).take ((data ++ pad).length - pad.length) = data := by
  rw [List.length_append, Nat.add_sub_cancel, List.take_left]

/-- Each flag is read as it was set. -/
theorem headers_flags (a b c d : Prop) [Decidable a] [Decidable b] [Decidable c] [Decidable d] :
    let flags := (if a then flagPadded else 0) ||| (if b then flagEndStream else 0) |||
      (if c then flagEndHeaders else 0) ||| (if d then flagPriority else 0)
    (flags &&& flagPadded == flagPadded) = decide a ∧ (flags &&& flagEndStream == flagEndStream) = decide b ∧
      (flags &&& flagEndHeaders == flagEndHeaders) = decide c ∧
        (flags &&& flagPriority == flagPriority) = decide d := by
  by_cases ha : a <;> by_cases hb : b <;> by_cases hc : c <;> by_cases hd : d <;>
    simp only [ha, hb, hc, hd, if_true, if_false, decide_true, decide_false] <;> decide

/-- The flags of a data frame say whether it is padded. -/
theorem data_flags (a b : Bool) :
    (((if a then flagEndStream else 0) ||| (if b then flagPadded else 0)) &&& flagPadded == flagPadded) = b := by
  cases a <;> cases b <;> decide

/-- A data frame is read back. -/
theorem parse_data {fh : FrameHeader} (hid : fh.streamID ≠ 0) {pad : Option Bytes}
    (hflag : fh.has flagPadded = pad.isSome) (hpad : (pad.getD []).length ≤ 255) (octets : Bytes) :
    parseDataFrame fh ((if pad.isSome then [UInt8.ofNat (pad.getD []).length] else []) ++ (octets ++ pad.getD [])) =
      .ok (.data fh octets) := by
  rw [parseDataFrame, if_neg hid, readPadLength, hflag]
  cases pad with
  | none => simp [bind, Except.bind]
  | some pad =>
    have hlen : (UInt8.ofNat pad.length).toNat = pad.length := Nat.mod_eq_of_lt (Nat.lt_succ_of_le hpad)
    simp only [Option.isSome_some, if_true, Option.getD_some, List.cons_append, List.nil_append, readByte, bind,
      Except.bind, hlen]
    rw [if_neg (by simp), take_padding]

/-- A headers frame is read back. -/
theorem parse_headers {fh : FrameHeader} (hid : fh.streamID ≠ 0) {p : HeadersFrameParam}
    (hpadded : fh.has flagPadded = decide (p.padLength ≠ 0)) (hprio : fh.has flagPriority = !p.priority.isZero)
    (hdep : p.priority.isZero = false → validStreamIDOrZero p.priority.streamDep = true)
    (hfrag : p.blockFragment ≠ []) :
    parseHeadersFrame fh (Write.headers p).payload = .ok (.headers fh p.priority p.blockFragment) := by
  have htake := take_padding p.blockFragment (List.replicate p.padLength.toNat 0)
  have hlen := List.length_pos_of_ne_nil hfrag
  rw [List.length_replicate] at htake
  rw [parseHeadersFrame, if_neg hid, Write.payload, readPadLength_append hpadded]
  simp only [bind, Except.bind]
  rw [readPriority_append hprio hdep]
  simp only
  rw [if_neg (by rw [List.length_append, List.length_replicate]; omega), htake]

/-- A push promise is read back. -/
theorem parse_pushPromise {fh : FrameHeader} (hid : fh.streamID ≠ 0) {p : PushPromiseParam}
    (hpadded : fh.has flagPadded = decide (p.padLength ≠ 0)) (hpromise : uint31 p.promiseID = p.promiseID) :
    parsePushPromise fh (Write.pushPromise p).payload = .ok (.pushPromise fh p.promiseID p.blockFragment) := by
  have htake := take_padding p.blockFragment (List.replicate p.padLength.toNat 0)
  rw [List.length_replicate] at htake
  rw [parsePushPromise, if_neg hid, Write.payload, readPadLength_append hpadded]
  simp only [bind, Except.bind, uint32Bytes, List.cons_append, List.nil_append, readUint32, uint32Of_uint32Bytes,
    hpromise]
  rw [if_neg (by rw [List.length_append, List.length_replicate]; omega), htake]

/-- Settings are read back where the window is in range. -/
theorem parse_settings {fh : FrameHeader} (hack : fh.has flagAck = true → fh.length = 0) (hid : fh.streamID = 0)
    {values : List Setting}
    (hwindow : ∀ s, values.find? (fun s => s.id = settingInitialWindowSize) = some s → s.val.toNat < 2 ^ 31) :
    parseSettingsFrame fh (settingsBytes values) = .ok (.settings fh (settingsBytes values)) := by
  have hvalue : ∀ v, settingValue (settingsBytes values) settingInitialWindowSize = some v → v.toNat < 2 ^ 31 := by
    intro v hv
    rw [settingValue, settingsOf_settingsBytes, Option.map_eq_some_iff] at hv
    obtain ⟨s, hs, rfl⟩ := hv
    exact hwindow s hs
  rw [parseSettingsFrame, if_neg (fun h => absurd (hack h.1) (by omega)), if_neg (not_not.mpr hid),
    if_neg (by rw [length_settingsBytes]; omega)]
  cases hv : settingValue (settingsBytes values) settingInitialWindowSize with
  | none => rfl
  | some v =>
    have hlt := hvalue v hv
    exact if_neg (Nat.not_lt_of_le (Nat.le_pred_of_lt hlt))

/-- The parser of its type reads a write as its frame. -/
theorem Write.parse {w : Write} (hlegal : w.Legal) (hreadable : w.Readable) :
    typeFrameParser w.type w.header w.payload = .ok w.frame := by
  -- the guards of each parser pass by `Legal`, and `validStreamID` leaves nothing to mask
  cases w with
  | data streamID endStream octets pad =>
    obtain ⟨hid, hpad, -⟩ := hlegal
    obtain ⟨hne, hsame⟩ := validStreamID_spec hid
    have hflag : (Write.data streamID endStream octets pad).header.has flagPadded = pad.isSome :=
      data_flags endStream pad.isSome
    exact parse_data (fun h => hne (hsame.symm.trans h)) hflag hpad octets
  | headers p =>
    obtain ⟨hid, hdep⟩ := hlegal
    obtain ⟨hne, hsame⟩ := validStreamID_spec hid
    obtain ⟨hpadded, -, -, hprio⟩ := headers_flags (p.padLength ≠ 0) (p.endStream = true) (p.endHeaders = true)
      ((!p.priority.isZero) = true)
    refine parse_headers (fun h => hne (hsame.symm.trans h)) hpadded ?_ hdep hreadable
    rw [← Bool.decide_eq_true (b := !p.priority.isZero)]
    exact hprio
  | priority streamID p =>
    obtain ⟨hid, hdep⟩ := hlegal
    obtain ⟨hne, hsame⟩ := validStreamID_spec hid
    obtain ⟨hword, hexclusive⟩ := word_spec hdep
    change parsePriorityFrame (Write.priority streamID p).header (Write.priority streamID p).payload = _
    simp only [parsePriorityFrame, Write.payload, uint32Bytes, List.cons_append, List.nil_append, uint32Of_uint32Bytes,
      hword]
    refine (if_neg (fun h => hne (hsame.symm.trans h))).trans ?_
    rw [Write.frame]
    congr 3
    exact Bool.eq_iff_iff.mpr (by rw [decide_eq_true_iff, ← hexclusive, ne_comm])
  | rstStream streamID code =>
    obtain ⟨hne, hsame⟩ := validStreamID_spec hlegal
    change parseRSTStreamFrame (Write.rstStream streamID code).header (Write.rstStream streamID code).payload = _
    simp only [parseRSTStreamFrame, Write.payload, uint32Bytes, uint32Of_uint32Bytes]
    exact if_neg (fun h => hne (hsame.symm.trans h))
  | settings values =>
    have hack : (Write.settings values).header.has flagAck = false := by
      change ((0 : UInt8) &&& flagAck == flagAck) = false
      decide
    have hid : (Write.settings values).header.streamID = 0 := uint31_zero
    exact parse_settings (fun h => absurd (hack.symm.trans h) Bool.false_ne_true) hid hreadable
  | settingsAck => rfl
  | pushPromise p =>
    obtain ⟨hid, hpromise⟩ := hlegal
    obtain ⟨hne, hsame⟩ := validStreamID_spec hid
    refine parse_pushPromise (fun h => hne (hsame.symm.trans h)) ?_ (validStreamID_spec hpromise).2
    by_cases hpad : p.padLength = 0 <;> cases hend : p.endHeaders <;>
      simp [FrameHeader.has, Write.header, Write.flags, hpad, hend] <;> decide
  | ping ack octets =>
    have hid : (Write.ping ack octets).header.streamID = 0 := uint31_zero
    change parsePingFrame (Write.ping ack octets).header octets.1 = _
    rw [parsePingFrame, dif_pos octets.2]
    exact if_neg (not_not.mpr hid)
  | goAway maxStreamID code debugData =>
    change parseGoAwayFrame (Write.goAway maxStreamID code debugData).header
      (Write.goAway maxStreamID code debugData).payload = _
    have hid : uint31 (uint31 maxStreamID) = uint31 maxStreamID := by
      rw [uint31_eq_self_iff, toNat_uint31]
      exact Nat.mod_lt _ (by decide)
    simp only [parseGoAwayFrame, Write.payload, uint32Bytes, List.cons_append, List.nil_append, uint32Of_uint32Bytes,
      hid]
    exact if_neg (not_not.mpr uint31_zero)
  | windowUpdate streamID incr =>
    obtain ⟨hpos, hmax⟩ := hlegal
    have hincr : uint31 incr = incr := uint31_of_lt (Nat.lt_succ_of_le hmax)
    have hne : incr ≠ 0 := fun h => absurd (h ▸ hpos : 1 ≤ (0 : UInt32).toNat) (by decide)
    change parseWindowUpdateFrame (Write.windowUpdate streamID incr).header
      (Write.windowUpdate streamID incr).payload = _
    simp only [parseWindowUpdateFrame, Write.payload, uint32Bytes, uint32Of_uint32Bytes, hincr]
    exact if_neg hne
  | continuation streamID endHeaders frag =>
    obtain ⟨hne, hsame⟩ := validStreamID_spec hlegal
    exact if_neg (fun h => hne (hsame.symm.trans h))

end RoundTrip

end TlsClient.Http2
