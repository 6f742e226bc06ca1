import TlsClient.Http2.HpackEncode
import TlsClient.Http2.MetaHeaders

/-!
# The opening of a connection

Embeds `newClientConn` of `src/third_party/fhttp/http2/transport.go`, with the fields of a `Transport` that it
reads: the preface, the SETTINGS in the order of the profile, the WINDOW_UPDATE of the connection, and the
PRIORITY frames. The errors of the `Write` methods are dropped there: a frame that is refused is not sent, and the
opening goes on.

A server tells clients apart by these frames. `observe` is what it can read off the bytes.
-/

open WireBytes Fallible Utf8

namespace TlsClient.Http2

def initialWindowSize : UInt32 := 65535

def transportDefaultConnFlow : UInt32 := 15663105

def clientPreface : Bytes := utf8 "PRI * HTTP/2.0\r\n\r\nSM\r\n\r\n"

structure Priority where
  priorityParam : PriorityParam
  streamID : UInt32
  deriving DecidableEq

/-- `Settings` may be nil, and `PushHandler` is set or nil. -/
structure Transport where
  allowHTTP : Bool
  initialStreamID : UInt32
  connectionFlow : UInt32
  headerPriority : Option PriorityParam
  priorities : List Priority
  hpackIndexingPolicy : String
  disablePriorityFrames : Bool
  pushHandler : Bool
  settings : Option (UInt16 → Option UInt32)
  settingsOrder : List UInt16

/-- `t.Settings[id]` -/
def Transport.setting (t : Transport) (id : UInt16) : Option UInt32 := t.settings.bind fun m => m id

def Transport.maxHeaderListSize (t : Transport) : UInt32 :=
  let maxHeaderListSize := (t.setting settingMaxHeaderListSize).getD 0
  if maxHeaderListSize = 0 then (10 : UInt32) <<< 20
  else if maxHeaderListSize = 0xffffffff then 0
  else maxHeaderListSize

/-- What a call of `newClientConn` sets up of a `ClientConn`. `inflow` is set with int32 arithmetic. -/
structure ClientConn where
  streamFlow : UInt32
  connFlow : UInt32
  inflow : Int32
  fr : MetaFramer
  henc : Encoder
  hencMaxTableSize : UInt32
  nextStreamID : UInt32

inductive OpeningError
  | connFlow (v : UInt32)
  | streamFlow (v : UInt32)
  deriving DecidableEq

def OpeningError.text : OpeningError → String
  | .connFlow v => "http2: connection flow control window too large: " ++ toString v.toNat ++ " (max: 2147483647)"
  | .streamFlow v => "http2: stream flow control window too large: " ++ toString v.toNat ++ " (max: 2147483647)"

def Transport.streamFlow (t : Transport) : UInt32 :=
  match t.setting settingInitialWindowSize with
  | some v => if v ≠ 0 then v else initialWindowSize
  | none => initialWindowSize

def Transport.connFlow (t : Transport) : UInt32 :=
  if t.connectionFlow ≠ 0 then t.connectionFlow else transportDefaultConnFlow

def Transport.initialSettings (t : Transport) : List Setting :=
  match t.settings with
  | some m => t.settingsOrder.map fun settingId => { id := settingId, val := (m settingId).getD 0 }
  | none => [{ id := settingEnablePush, val := if t.pushHandler then 1 else 0 }]

/-- The calls of the `Write` methods. -/
def Transport.opening (t : Transport) : List Write :=
  .settings t.initialSettings ::
    ((if t.connFlow > 0 then [.windowUpdate 0 t.connFlow] else []) ++
      if t.disablePriorityFrames then []
      else t.priorities.map fun priority => .priority priority.streamID priority.priorityParam)

def Transport.nextStreamID (t : Transport) : UInt32 :=
  let nextStreamID : UInt32 := 1
  let nextStreamID := if t.allowHTTP then 3 else nextStreamID
  let nextStreamID := if t.initialStreamID ≠ 0 then t.initialStreamID else nextStreamID
  if t.disablePriorityFrames then nextStreamID
  else t.priorities.foldl (fun _ priority => priority.streamID + 2) nextStreamID

/-- What is on the wire when the errors of the `Write` methods are dropped. -/
def wire (ws : List Write) : Bytes := ws.flatMap fun w => (w.bytes.toOption).getD []

def Transport.newClientConn (t : Transport) : Except OpeningError (ClientConn × Bytes) :=
  if t.connFlow.toNat > 2147483647 then .error (.connFlow t.connFlow)
  else if t.streamFlow.toNat > 2147483647 then .error (.streamFlow t.streamFlow)
  else
    let headerTableSize := (t.setting settingHeaderTableSize).getD initialHeaderTableSize
    let hdec := Decoder.newDecoder headerTableSize (fun mf _ => (mf, true)) (MetaFrame.init 0)
    .ok ({ streamFlow := t.streamFlow
           connFlow := t.connFlow
           inflow := t.connFlow.toInt32 + initialWindowSize.toInt32
           fr := { framer := newFramer, readMetaHeaders := (hdec, []), maxHeaderListSize := t.maxHeaderListSize }
           henc := Encoder.newEncoder (if t.hpackIndexingPolicy = "chrome" then some indexingChrome else none)
           hencMaxTableSize := initialHeaderTableSize
           nextStreamID := t.nextStreamID },
      clientPreface ++ wire t.opening)

/-! ## What the server sees -/

/-- The frames that a server tells clients apart by. -/
structure Fingerprint where
  settings : List Setting
  windowUpdate : UInt32
  priorities : List Priority

/-- The PRIORITY frames, and nothing else. -/
def observePriorities : List ReadResult → Option (List Priority)
  | [] => some []
  | .frame (.priority fh param) :: results =>
    (observePriorities results).map fun priorities => { priorityParam := param, streamID := fh.streamID } :: priorities
  | _ => none

/-- What can be read off the bytes of an opening. -/
def observe (bytes : Bytes) : Option Fingerprint :=
  if clientPreface <+: bytes then
    match readFrames newFramer (bytes.drop clientPreface.length) with
    | .ok (.frame (.settings _ p) :: .frame (.windowUpdate fh increment) :: results) =>
      if fh.streamID = 0 then
        (observePriorities results).map fun priorities =>
          { settings := settingsOf p, windowUpdate := increment, priorities }
      else none
    | _ => none
  else none

/-- `WritePriority` does not refuse the frame. -/
def Priority.Valid (priority : Priority) : Prop :=
  validStreamID priority.streamID = true ∧ validStreamIDOrZero priority.priorityParam.streamDep = true

instance (p : Priority) : Decidable p.Valid := inferInstanceAs (Decidable (_ ∧ _))

section Observing

variable {t : Transport} {cc : ClientConn} {bytes : Bytes} {ws : List Write}

theorem wire_cons (w : Write) (ws : List Write) : wire (w :: ws) = (w.bytes.toOption).getD [] ++ wire ws := rfl

/-- The bytes of one more frame that can be written. -/
theorem wire_cons_of_ok {w : Write} (h : w.bytes = .ok bytes) (ws : List Write) :
    wire (w :: ws) = bytes ++ wire ws := by
  rw [wire_cons, h]
  rfl

/-- Writes that are not refused are on the wire one behind the other. -/
theorem wire_of_ok (h : ∀ w ∈ ws, ∃ bytes, w.bytes = .ok bytes) :
    ∃ wires, ws.mapM Write.bytes = .ok wires ∧ wire ws = wires.flatten := by
  obtain ⟨wires, hwires⟩ := exists_mapM_iff.mpr h
  have hall := forall₂_of_mapM hwires
  refine ⟨wires, hwires, ?_⟩
  clear hwires h
  induction hall with
  | nil => rfl
  | cons hw _ ih =>
    rw [wire_cons, hw, ih]
    rfl

theorem wire_nil : wire [] = [] := rfl

theorem wire_append (ws ws' : List Write) : wire (ws ++ ws') = wire ws ++ wire ws' := List.flatMap_append

/-- A priority can be written exactly if it is valid. -/
theorem writePriority_ok_iff (p : Priority) :
    (∃ bytes, (Write.priority p.streamID p.priorityParam).bytes = .ok bytes) ↔ p.Valid :=
  ⟨fun ⟨_, h⟩ => (Write.bytes_eq_ok h).1, fun h => Write.exists_bytes h (by
    rw [Write.payload, List.length_append, length_uint32Bytes, List.length_singleton]
    decide)⟩

theorem writeSettings_ok {settings : List Setting} (h : 6 * settings.length < 2 ^ 24) :
    ∃ bytes, (Write.settings settings).bytes = .ok bytes :=
  Write.exists_bytes trivial (by rwa [Write.payload, length_settingsBytes])

theorem writeWindowUpdate_ok {streamID incr : UInt32} (hpos : 0 < incr.toNat) (hmax : incr.toNat ≤ 2147483647) :
    ∃ bytes, (Write.windowUpdate streamID incr).bytes = .ok bytes :=
  Write.exists_bytes ⟨hpos, hmax⟩ (by rw [Write.payload, length_uint32Bytes]; decide)

/-- The frames of an opening that are not refused. -/
def Transport.opened (t : Transport) : List Write :=
  .settings t.initialSettings :: .windowUpdate 0 t.connFlow ::
    (if t.disablePriorityFrames then []
      else (t.priorities.filter fun p => decide p.Valid).map fun p => .priority p.streamID p.priorityParam)

/-- The increment is positive. -/
theorem connFlow_pos (t : Transport) : 0 < t.connFlow.toNat := by
  rw [Transport.connFlow]
  split_ifs with h
  · refine Nat.pos_of_ne_zero fun hzero => h (UInt32.toNat_inj.mp hzero)
  · decide

/-- The bytes of the opening are those of the frames that can be written. -/
theorem wire_opened (t : Transport) : wire t.opened = wire t.opening := by
  have hpos : t.connFlow > 0 := UInt32.lt_iff_toNat_lt.mpr (connFlow_pos t)
  rw [Transport.opened, Transport.opening, if_pos hpos, List.singleton_append, wire_cons, wire_cons, wire_cons, wire_cons]
  congr 2
  split_ifs with hdisabled
  · rfl
  · induction t.priorities with
    | nil => rfl
    | cons p ps ih =>
      rw [List.map_cons, wire_cons, ← ih, List.filter_cons]
      split_ifs with hvalid
      · rfl
      · cases hbytes : (Write.priority p.streamID p.priorityParam).bytes with
        | error e => rfl
        | ok bytes =>
          have hvalid' := (writePriority_ok_iff p).mp ⟨bytes, hbytes⟩
          exact absurd (decide_eq_true hvalid') hvalid

/-- `newClientConn` does not announce a window that is too large. -/
theorem initialSettings_readable (hflow : t.streamFlow.toNat ≤ 2147483647) :
    (Write.settings t.initialSettings).Readable := by
  intro s hs
  rw [Transport.initialSettings] at hs
  rw [Transport.streamFlow, Transport.setting] at hflow
  cases hsettings : t.settings with
  | none =>
    rw [hsettings] at hs
    cases hs
  | some m =>
    rw [hsettings] at hs hflow
    simp only [Option.bind_some] at hs hflow
    have hid := List.find?_some hs
    obtain ⟨settingId, -, rfl⟩ := List.mem_map.mp (List.mem_of_find?_eq_some hs)
    obtain rfl : settingId = settingInitialWindowSize := of_decide_eq_true hid
    cases hvalue : m settingInitialWindowSize with
    | none => exact Nat.two_pow_pos 31
    | some v =>
      rw [hvalue] at hflow
      simp only [Option.getD_some] at hflow ⊢
      split_ifs at hflow with hv
      · omega
      · rw [not_not.mp hv]
        exact Nat.two_pow_pos 31

/-- Valid priorities are observed. -/
theorem observePriorities_map {ps : List Priority} (h : ∀ p ∈ ps, p.Valid) :
    observePriorities (ps.map fun p => .frame (Write.priority p.streamID p.priorityParam).frame) = some ps := by
  induction ps with
  | nil => rfl
  | cons p ps ih =>
    have hid := (validStreamID_spec (h p List.mem_cons_self).1).2
    rw [List.map_cons, Write.frame, observePriorities, ih fun p' hp' => h p' (List.mem_cons_of_mem p hp')]
    simp only [Option.map_some, Write.header, Write.streamID, hid]

/-- A connection that is opened has sent the frames that are not refused. -/
theorem newClientConn_eq_ok (h : t.newClientConn = .ok (cc, bytes)) :
    bytes = clientPreface ++ wire t.opened ∧ cc.connFlow = t.connFlow ∧
      t.connFlow.toNat ≤ 2147483647 ∧ t.streamFlow.toNat ≤ 2147483647 := by
  obtain ⟨hconnFlow, h⟩ := ite_error_eq_ok_iff.mp h
  obtain ⟨hstreamFlow, h⟩ := ite_error_eq_ok_iff.mp h
  obtain ⟨rfl, rfl⟩ := Prod.mk.inj (Except.ok.inj h)
  exact ⟨by rw [wire_opened], rfl, not_lt.mp hconnFlow, not_lt.mp hstreamFlow⟩

/-- They are all read by themselves. -/
theorem opened_readable (hconn : t.newClientConn = .ok (cc, bytes)) (hsettings : 6 * t.initialSettings.length < 2 ^ 24) :
    ∀ w ∈ t.opened, (∃ bytes, w.bytes = .ok bytes) ∧ w.Readable ∧ w.Plain := by
  obtain ⟨-, -, hconnFlow, hstreamFlow⟩ := newClientConn_eq_ok hconn
  intro w hw
  rcases List.mem_cons.mp hw with rfl | hw
  · exact ⟨writeSettings_ok hsettings, initialSettings_readable hstreamFlow, trivial⟩
  · rcases List.mem_cons.mp hw with rfl | hw
    · exact ⟨writeWindowUpdate_ok (connFlow_pos t) hconnFlow, trivial, trivial⟩
    · split_ifs at hw
      · cases hw
      · obtain ⟨p, hp, rfl⟩ := List.mem_map.mp hw
        exact ⟨(writePriority_ok_iff p).mpr (of_decide_eq_true (List.mem_filter.mp hp).2), trivial, trivial⟩

/-- The server reads off the opening exactly the settings of the profile in their order, the window of the
connection, and the priorities that are valid. -/
theorem observe_newClientConn (t : Transport) (cc : ClientConn) (bytes : Bytes)
    (hconn : t.newClientConn = .ok (cc, bytes)) (hsettings : 6 * t.initialSettings.length < 2 ^ 24) :
    observe bytes = some {
      settings := t.initialSettings
      windowUpdate := cc.connFlow
      priorities := if t.disablePriorityFrames then [] else t.priorities.filter fun p => decide p.Valid } := by
  have hall := opened_readable hconn hsettings
  obtain ⟨rfl, hconnFlow, -⟩ := newClientConn_eq_ok hconn
  -- the three parts of the opening, the priorities as far as they are valid
  have hopened : t.opened = .settings t.initialSettings :: .windowUpdate 0 t.connFlow ::
      (if t.disablePriorityFrames then [] else t.priorities.filter fun p => decide p.Valid).map
        fun p => .priority p.streamID p.priorityParam := by
    rw [Transport.opened]
    split_ifs <;> rfl
  have hvalid : ∀ p ∈ (if t.disablePriorityFrames then [] else t.priorities.filter fun p => decide p.Valid), p.Valid := by
    intro p hp
    split_ifs at hp
    · cases hp
    · exact of_decide_eq_true (List.mem_filter.mp hp).2
  rw [hopened] at hall
  rw [hopened, hconnFlow]
  generalize (if t.disablePriorityFrames then [] else t.priorities.filter fun p => decide p.Valid) = ps at hvalid hall
  -- all three are readable, so the peer reads back the frames that were written
  obtain ⟨wires, hwires, hflat⟩ := wire_of_ok fun w hw => (hall w hw).1
  have hread := (readFrames_newFramer hwires fun w hw => (hall w hw).2.1).1
    (contiguous_of_plain fun w hw => (hall w hw).2.2)
  have hid : (Write.windowUpdate 0 t.connFlow).header.streamID = 0 := uint31_zero
  have hps := observePriorities_map hvalid
  rw [observe, if_pos (List.prefix_append _ _), List.drop_left, hflat, hread]
  simp only [List.map_cons, List.map_map, Function.comp_def, Write.frame] at hps ⊢
  rw [if_pos hid, hps, settingsOf_settingsBytes]
  rfl

/-- A transport with two settings and two priorities, the second of them not valid. -/
theorem observe_newClientConn_firefox :
    let t : Transport := {
      allowHTTP := false, initialStreamID := 0, connectionFlow := 12517377, headerPriority := none
      priorities := [{ priorityParam := { streamDep := 0, exclusive := false, weight := 200 }, streamID := 3 },
        { priorityParam := { streamDep := 0, exclusive := false, weight := 100 }, streamID := 0 }]
      hpackIndexingPolicy := "", disablePriorityFrames := false, pushHandler := false
      settings := some fun id => if id = settingInitialWindowSize then some 131072 else none
      settingsOrder := [settingHeaderTableSize, settingInitialWindowSize] }
    ∃ cc bytes, t.newClientConn = .ok (cc, bytes) ∧ observe bytes = some {
      settings := [{ id := settingHeaderTableSize, val := 0 }, { id := settingInitialWindowSize, val := 131072 }]
      windowUpdate := 12517377
      priorities := [{ priorityParam := { streamDep := 0, exclusive := false, weight := 200 }, streamID := 3 }] } := by
  intro t
  exact ⟨_, _, rfl, observe_newClientConn t _ _ rfl (by decide)⟩

end Observing

end TlsClient.Http2
