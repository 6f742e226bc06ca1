import TlsClient.Engine.Racer

/-!
# The bad pin handler

Embeds who calls the `BadPinHandlerFunc` of a client: `RoundTrip` of `src/roundtripper.go` where the dial of
`getTransport` fails, and `handleCachedProtocolError` of `src/racer.go`. Handshakes are made in other places
too: by a transport that opens another connection, and in the attempts of a race. HTTP/3 has no pins.

The handler should be called once for a request that fails after a handshake for it did not match, and not for
any other (`Notified`). `notified_iff` says for which requests of a run it is.
-/

namespace TlsClient.Engine.BadPin

open TlsClient.Ffi

/-- Where a handshake is made for a request: in `getTransport`, or in the `RoundTrip` of a transport. -/
inductive Place where
  | setup
  | transport
deriving DecidableEq

/-- A handshake that did not match the pins, of an attempt where the request is raced. -/
structure Mismatch where
  attempt : Option Racer.Attempt
  place : Place
deriving DecidableEq

/-- `RoundTrip`, alone or as a race. -/
inductive Sending where
  /-- `some true` where there is a response, `some false` where there is an error -/
  | direct (outcome : Option Bool)
  | raced (race : Racer.State)

structure Req where
  sending : Sending
  /-- the handshakes that did not match before `RoundTrip` returned -/
  mismatches : List Mismatch := []
  /-- the calls of the handler with this request -/
  calls : ℕ := 0

namespace Req

/-- `RoundTrip` is called; `cache` has the protocol cached for the host where the request is raced. -/
def start (cache : Option (Option Racer.Protocol)) : Req :=
  match cache with
  | some protocol => { sending := .raced (Racer.init [] protocol) }
  | none => { sending := .direct none }

def Answered (r : Req) : Prop :=
  match r.sending with
  | .direct outcome => outcome = some true
  | .raced race => ∃ attempt, race.stage = .returned attempt

def Failed (r : Req) : Prop :=
  match r.sending with
  | .direct outcome => outcome = some false
  | .raced race => ∃ err, race.stage = .failed err

/-- The handler is called for an error that is `ErrBadPinDetected`. -/
def badPinHandlerFunc (r : Req) : Req :=
  { r with calls := r.calls + 1 }

def mismatch (r : Req) (attempt : Option Racer.Attempt) (place : Place) : Req :=
  { r with mismatches := r.mismatches ++ [⟨attempt, place⟩] }

/-- A handshake for a request without a race does not match: `RoundTrip` looks at the error of
`getTransport`, and at that of the transport only for `errProtocolChanged`. -/
def failDirect (r : Req) (place : Place) : Req :=
  let r := { r.mismatch none place with sending := .direct (some false) }
  match place with
  | .setup => r.badPinHandlerFunc
  | .transport => r

/-- One for the attempt of a race: `tryUseCachedProtocol` has `handleCachedProtocolError` for the error of
`getOrCreateTransport`, and clears the cache for that of the transport; an attempt of the race reports both. -/
def failRaced (r : Req) (race : Racer.State) (attempt : Racer.Attempt) (place : Place) : Req :=
  let failed := { r with sending := .raced (Racer.step race (.fail attempt "bad ssl pin detected")) }
  if race.stage.Over then failed
  else
    match attempt, place with
    | .cached _, .setup => (failed.mismatch (some attempt) place).badPinHandlerFunc
    | _, _ => failed.mismatch (some attempt) place

end Req

/-- What happens to a request. -/
inductive Event where
  | answer
  /-- the request fails for another reason -/
  | fail
  /-- a step of the race, failures for other reasons included -/
  | race (act : Racer.Action)
  | mismatch (attempt : Racer.Attempt) (place : Place)

def Req.step (r : Req) (event : Event) : Req :=
  match r.sending, event with
  | .direct none, .answer => { r with sending := .direct (some true) }
  | .direct none, .fail => { r with sending := .direct (some false) }
  | .direct none, .mismatch _ place => r.failDirect place
  | .raced race, .race act => { r with sending := .raced (Racer.step race act) }
  | .raced race, .mismatch attempt place =>
    if race.running attempt ∧ attempt.protocol = .h2 then r.failRaced race attempt place else r
  | _, _ => r

inductive Action where
  | roundTrip (cache : Option (Option Racer.Protocol))
  | event (request : ℕ) (event : Event)

/-- The requests of a client. -/
def step (requests : List Req) : Action → List Req
  | .roundTrip cache => requests ++ [.start cache]
  | .event request event => requests.modify request fun r => r.step event

/-! ## Notification -/

/-- When it is over, the handler was called once if the request failed and a handshake did not match, and
else never. -/
def Notified (r : Req) : Prop :=
  (r.Failed → r.mismatches ≠ [] → r.calls = 1) ∧ (r.Failed → r.mismatches = [] → r.calls = 0) ∧
    (r.Answered → r.calls = 0)

/-- The handshake is that of a `getTransport` for a request without a race, or for the cached protocol. -/
def Mismatch.handled (m : Mismatch) : Bool :=
  match m.attempt, m.place with
  | some (.racing _), _ => false
  | _, .setup => true
  | _, .transport => false

/-- A request that fails after a mismatch had one in a handled place, and one that is answered had none there. -/
def InHandledPlace (r : Req) : Prop :=
  (r.Failed → r.mismatches ≠ [] → ∃ m ∈ r.mismatches, m.handled) ∧
    (r.Answered → ∀ m ∈ r.mismatches, m.handled = false)

/-- What holds of every request. -/
structure Inv (r : Req) : Prop where
  calls : r.calls = r.mismatches.countP Mismatch.handled
  once : r.mismatches.countP Mismatch.handled ≤ 1
  direct : r.sending = .direct none → r.mismatches = []
  trying : ∀ race, r.sending = .raced race → race.stage = .trying → r.mismatches = []
  race : ∀ race, r.sending = .raced race → Racer.Inv [] race

/-- A request that has not begun meets the invariant. -/
theorem inv_start (cache : Option (Option Racer.Protocol)) : Inv (Req.start cache) := by
  cases cache with
  | none => exact ⟨rfl, Nat.zero_le 1, fun _ => rfl, fun _ _ _ => rfl, fun race h => by contradiction⟩
  | some protocol =>
    refine ⟨rfl, Nat.zero_le 1, fun _ => rfl, fun _ _ _ => rfl, fun race h => ?_⟩
    obtain rfl := Sending.raced.inj h
    exact Racer.inv_init [] protocol

/-- A race that is past the cached protocol does not come back to it. -/
theorem trying_of_step {race : Racer.State} {act : Racer.Action} (hstage : (Racer.step race act).stage = .trying) :
    race.stage = .trying := by
  cases act with
  | read a n =>
    rw [Racer.step] at hstage
    split_ifs at hstage
    · exact hstage
    · exact hstage
  | respond a =>
    rw [Racer.step] at hstage
    -- the answer of the cached protocol returns
    split_ifs at hstage
    · cases a with
      | cached p => cases hstage
      | racing p => exact hstage
    · exact hstage
  | fail a err =>
    rw [Racer.step] at hstage
    -- and its error starts the race
    split_ifs at hstage
    · cases a with
      | cached p => cases hstage
      | racing p => exact hstage
    · exact hstage
  | receive =>
    rw [Racer.step, Racer.State.receive] at hstage
    split at hstage
    · next i lastErr result rest hwaiting hch =>
      split at hstage
      · cases hstage
      · dsimp only at hstage
        split_ifs at hstage
    · exact hstage
  | timeout =>
    rw [Racer.step, Racer.State.timeout] at hstage
    split at hstage
    · cases hstage
    · exact hstage

/-- A step of the race that is no mismatch. -/
theorem Inv.race_step {r : Req} (h : Inv r) {race : Racer.State} (hsending : r.sending = .raced race)
    (act : Racer.Action) : Inv { r with sending := .raced (Racer.step race act) } where
  calls := h.calls
  once := h.once
  direct hdirect := by contradiction
  trying race' hrace htrying := by
    obtain rfl := Sending.raced.inj hrace
    exact h.trying race hsending (trying_of_step htrying)
  race race' hrace := by
    obtain rfl := Sending.raced.inj hrace
    exact (h.race race hsending).step act

/-- A mismatch in a place that is not handled, where it is not the first thing that happens. -/
theorem Inv.mismatch {r : Req} (h : Inv r) {attempt : Option Racer.Attempt} {place : Place}
    (hhandled : (⟨attempt, place⟩ : Mismatch).handled = false) (hdirect : r.sending ≠ .direct none)
    (htrying : ∀ race, r.sending = .raced race → race.stage ≠ .trying) : Inv (r.mismatch attempt place) where
  calls := by
    change r.calls = (r.mismatches ++ [_]).countP _
    rw [h.calls, List.countP_append, List.countP_singleton, hhandled]
    rfl
  once := by
    change (r.mismatches ++ [_]).countP _ ≤ 1
    rw [List.countP_append, List.countP_singleton, hhandled]
    exact h.once
  direct hsending := absurd hsending hdirect
  trying race hsending hstage := absurd hstage (htrying race hsending)
  race := h.race

/-- A mismatch in a handled place is the first one. -/
theorem Inv.handled {r : Req} (h : Inv r) {attempt : Option Racer.Attempt} {place : Place}
    (hhandled : (⟨attempt, place⟩ : Mismatch).handled = true) (hfirst : r.mismatches = [])
    (hdirect : r.sending ≠ .direct none) (htrying : ∀ race, r.sending = .raced race → race.stage ≠ .trying) :
    Inv (r.mismatch attempt place).badPinHandlerFunc where
  calls := by
    change r.calls + 1 = (r.mismatches ++ [_]).countP _
    rw [h.calls, hfirst, List.nil_append, List.countP_singleton, hhandled]
    rfl
  once := by
    change (r.mismatches ++ [_]).countP _ ≤ 1
    rw [hfirst, List.nil_append, List.countP_singleton, hhandled]
    rfl
  direct hsending := absurd hsending hdirect
  trying race hsending hstage := absurd hstage (htrying race hsending)
  race := h.race

/-- `RoundTrip` returns, without a race. -/
theorem Inv.return {r : Req} (h : Inv r) (answered : Bool) : Inv { r with sending := .direct (some answered) } where
  calls := h.calls
  once := h.once
  direct hsending := by cases hsending
  trying race hsending := by cases hsending
  race race hsending := by cases hsending

/-- A failure without a race keeps the invariant. -/
theorem Inv.failDirect {r : Req} (h : Inv r) (hsending : r.sending = .direct none) (place : Place) :
    Inv (r.failDirect place) := by
  have hreturned := h.return false
  cases place with
  | setup => exact hreturned.handled rfl (h.direct hsending) (by simp) (by simp)
  | transport => exact hreturned.mismatch rfl (by simp) (by simp)

/-- A failure in a race keeps the invariant. -/
theorem Inv.failRaced {r : Req} (h : Inv r) {race : Racer.State} (hsending : r.sending = .raced race)
    {attempt : Racer.Attempt} (hrunning : race.running attempt = true) (place : Place) :
    Inv (r.failRaced race attempt place) := by
  have hfailed := h.race_step hsending (.fail attempt "bad ssl pin detected")
  have hstep : Racer.step race (.fail attempt "bad ssl pin detected") =
      race.fail "bad ssl pin detected" attempt := if_pos hrunning
  unfold Req.failRaced
  dsimp only
  split_ifs with hover
  · exact hfailed
  · -- the cached protocol is past either way
    have hpast : ∀ race', Sending.raced (Racer.step race (.fail attempt "bad ssl pin detected")) = .raced race' →
        race'.stage ≠ .trying := by
      intro race' hrace htrying
      obtain rfl := Sending.raced.inj hrace
      rw [hstep] at htrying
      cases attempt with
      | cached p => cases htrying
      | racing p => exact (h.race race hsending).not_trying hrunning htrying
    cases attempt with
    | cached p =>
      have hfirst := h.trying race hsending ((h.race race hsending).trying_of_cached hrunning)
      cases place with
      | setup =>
        have hhandled : (⟨some (.cached p), .setup⟩ : Mismatch).handled = true := rfl
        exact hfailed.handled hhandled hfirst (by simp) hpast
      | transport => exact hfailed.mismatch rfl (by simp) hpast
    | racing p => exact hfailed.mismatch (by cases place <;> rfl) (by simp) hpast

/-- Every event keeps the invariant. -/
theorem Inv.step {r : Req} (h : Inv r) (event : Event) : Inv (r.step event) := by
  unfold Req.step
  split
  · exact h.return true
  · exact h.return false
  · next hsending => exact h.failDirect hsending _
  · next race act hsending => exact h.race_step hsending act
  · next race attempt place hsending =>
    split_ifs with hrunning
    · exact h.failRaced hsending hrunning.1 place
    · exact h
  · exact h

/-- A step keeps it for every request of the client. -/
theorem forall_inv_step {requests : List Req} (h : ∀ r ∈ requests, Inv r) (act : Action) :
    ∀ r ∈ step requests act, Inv r := by
  cases act with
  | roundTrip cache =>
    intro r hr
    rcases List.mem_append.mp hr with hr | hr
    · exact h r hr
    · exact List.mem_singleton.mp hr ▸ inv_start cache
  | event k event =>
    intro r hr
    obtain ⟨j, hj, rfl⟩ := List.mem_iff_getElem.mp hr
    have hj' : j < requests.length := by simpa [step] using hj
    have hold := h requests[j] (List.getElem_mem hj')
    simp only [step, List.getElem_modify]
    split_ifs
    · exact hold.step event
    · exact hold

/-- The handler was called exactly if the pin failed where it is handled. -/
theorem Inv.notified {r : Req} (h : Inv r) : Notified r ↔ InHandledPlace r := by
  rw [Notified, h.calls, InHandledPlace]
  constructor
  · rintro ⟨hone, -, hzero⟩
    refine ⟨fun hfailed hne => ?_, fun hanswered => ?_⟩
    · exact List.countP_pos_iff.mp (by rw [hone hfailed hne]; exact Nat.one_pos)
    · simpa using List.countP_eq_zero.mp (hzero hanswered)
  · rintro ⟨hfailed, hanswered⟩
    refine ⟨fun h' hne => ?_, fun _ hnil => ?_, fun h' => ?_⟩
    · have hpos := List.countP_pos_iff.mpr (hfailed h' hne)
      exact Nat.le_antisymm h.once hpos
    · rw [hnil, List.countP_nil]
    · exact List.countP_eq_zero.mpr (by simpa using hanswered h')

/-- Over every run of a client, in any interleaving of its requests and their attempts: the handler is called as
it should for exactly the requests whose mismatches were in handled places. -/
theorem notified_iff (actions : List Action) :
    ∀ r ∈ Run.exec step [] actions, Notified r ↔ InHandledPlace r := by
  intro r hr
  have hinv : ∀ r ∈ Run.exec step [] actions, Inv r :=
    @Run.always_exec _ _ _ _ (fun requests => ∀ r ∈ requests, Inv r) (fun _ act h => forall_inv_step h act)
      (fun r hr => absurd hr List.not_mem_nil) actions
  exact (hinv r hr).notified

/-- The first dial of a request does not match. -/
theorem firstDial_notified :
    Notified ((Req.start none).step (.mismatch (.cached .h2) .setup)) := by
  have hiff := notified_iff [.roundTrip none, .event 0 (.mismatch (.cached .h2) .setup)] _ List.mem_cons_self
  refine hiff.mpr ⟨fun _ _ => ⟨⟨none, .setup⟩, List.mem_cons_self, rfl⟩, fun hanswered => ?_⟩
  cases hanswered

/-- A cached transport dials again, and the handler does not hear of the mismatch. -/
theorem reconnect_not_notified : ¬ ∀ (actions : List Action), ∀ r ∈ Run.exec step [] actions, Notified r := by
  intro hnotified
  have h := hnotified [.roundTrip none, .event 0 (.mismatch (.cached .h2) .transport)] _ List.mem_cons_self
  have hcalls : 0 = 1 := h.1 rfl (List.cons_ne_nil _ _)
  contradiction

end TlsClient.Engine.BadPin
