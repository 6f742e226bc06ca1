import TlsClient.Engine.Racer

/-!
# The borrowed body of a synchronous request

`ExecuteRequest` of `src/cffi_binding/main.go` gives the engine the memory of the caller's body, not a copy,
and the caller takes it back when the call returns. Embeds who holds the body until then: the `RoundTrip` of
each hop of `client.Do`, alone or in the race of `src/racer.go`, where an attempt may outlive the race.

An attempt reads the body while its `RoundTrip` runs, also from the start again: the transports retry with
a reader from `GetBody`. So nothing reads it after the call exactly if at the return no attempt that
has the body is running (`unused_iff`), which is so without racing.
-/

namespace TlsClient.Engine.Borrow

open TlsClient.Ffi

/-- A `RoundTrip` of the round tripper: of the transport alone, or the race with all its attempts. -/
inductive Sending where
  | direct (running : Bool)
  | raced (race : Racer.State)

/-- The attempts whose transport has not returned. -/
def Sending.running : Sending → Racer.Attempt → Bool
  | .direct running, _ => running
  | .raced race, attempt => race.running attempt

/-- `RoundTrip` has returned. -/
def Sending.Over : Sending → Prop
  | .direct running => running = false
  | .raced race => race.stage.Over

instance instDecidableSendingOver : DecidablePred Sending.Over
  | .direct running => inferInstanceAs (Decidable (running = false))
  | .raced race => Racer.instDecidableOver race.stage

/-- A request of the call: the first one or one after a redirect, which may be without a body. -/
structure Hop where
  sending : Sending
  body : Bytes

/-- `RoundTrip` starts; `cache` has the protocol cached for the host, or is `none` for a URL that is not
raced. The race has the body outside. -/
def Hop.start (racing : Bool) (body : Bytes) (cache : Option (Option Racer.Protocol)) : Hop :=
  match racing, cache with
  | true, some protocol => ⟨.raced (Racer.init [] protocol), body⟩
  | _, _ => ⟨.direct true, body⟩

/-- The transport of a hop that is not raced returns. -/
def Hop.finish (hop : Hop) : Hop :=
  match hop.sending with
  | .direct _ => { hop with sending := .direct false }
  | .raced _ => hop

/-- A step of the race of a hop. -/
def Hop.race (act : Racer.Action) (hop : Hop) : Hop :=
  match hop.sending with
  | .direct _ => hop
  | .raced race => { hop with sending := .raced (Racer.step race act) }

/-- A call of `ExecuteRequest`. -/
structure State where
  racing : Bool
  body : Bytes
  hops : List Hop
  returned : Bool := false
  /-- what was read of the body after the return -/
  late : Bytes := []

inductive Action where
  /-- an attempt of the `hop`th request reads `n` bytes of the body from `i` on -/
  | read (hop : ℕ) (attempt : Racer.Attempt) (i n : ℕ)
  | finish (hop : ℕ)
  | race (hop : ℕ) (act : Racer.Action)
  /-- `client.Do` follows a redirect, with the body or without it -/
  | redirect (includeBody : Bool) (cache : Option (Option Racer.Protocol))
  /-- `ExecuteRequest` returns -/
  | done

def init (racing : Bool) (body : Bytes) (cache : Option (Option Racer.Protocol)) : State :=
  { racing, body, hops := [.start racing body cache] }

/-- `client.Do` has the outcome of its last `RoundTrip`. -/
def State.Waits (s : State) : Prop :=
  s.returned = false ∧ ∀ hop ∈ s.hops, hop.sending.Over

instance instDecidableWaits (s : State) : Decidable s.Waits :=
  inferInstanceAs (Decidable (_ ∧ _))

def step (s : State) : Action → State
  | .read hop attempt i n =>
    match s.hops[hop]? with
    | some hop =>
      if hop.sending.running attempt ∧ s.returned then
        { s with late := s.late ++ (hop.body.drop i).take n }
      else s
    | none => s
  | .finish hop => { s with hops := s.hops.modify hop Hop.finish }
  | .race hop act => { s with hops := s.hops.modify hop (Hop.race act) }
  | .redirect includeBody cache =>
    if s.Waits then { s with hops := s.hops ++ [.start s.racing (if includeBody then s.body else []) cache] }
    else s
  | .done => if s.Waits then { s with returned := true } else s

/-! ## Who still has the body -/

/-- No attempt that runs has a body to read. -/
def Quiet (s : State) : Prop :=
  ∀ hop ∈ s.hops, hop.body ≠ [] → ∀ attempt, hop.sending.running attempt = false

/-- The condition: the call does not return before every attempt that has the body. -/
def Ok (s : State) : Action → Prop
  | .done => s.Waits → Quiet s
  | _ => True

/-- Nothing was read late, and after the return nothing can be. -/
structure Safe (s : State) : Prop where
  late : s.late = []
  quiet : s.returned = true → Quiet s

variable {s : State}

/-- A race in which nobody runs starts nobody. -/
theorem running_step {race : Racer.State} (hnone : ∀ attempt, race.running attempt = false) (act : Racer.Action)
    (attempt : Racer.Attempt) : (Racer.step race act).running attempt = false := by
  cases act with
  | read a n =>
    rw [Racer.step, if_neg (by simp [hnone a])]
    exact hnone attempt
  | respond a =>
    rw [Racer.step, if_neg (by simp [hnone a])]
    exact hnone attempt
  | fail a err =>
    rw [Racer.step, if_neg (by simp [hnone a])]
    exact hnone attempt
  | receive =>
    have hkept : race.receive.running = race.running := by
      rw [Racer.State.receive]
      repeat' split
      all_goals rfl
    exact (congrFun hkept attempt).trans (hnone attempt)
  | timeout =>
    have hkept : race.timeout.running = race.running := by
      rw [Racer.State.timeout]
      split <;> rfl
    exact (congrFun hkept attempt).trans (hnone attempt)

/-- What happens to one hop starts nobody either. -/
theorem Quiet.modify (hquiet : Quiet s) {f : Hop → Hop} (hbody : ∀ hop, (f hop).body = hop.body)
    (hrunning : ∀ hop : Hop, (∀ attempt, hop.sending.running attempt = false) →
      ∀ attempt, (f hop).sending.running attempt = false) (k : ℕ) :
    Quiet { s with hops := s.hops.modify k f } := by
  intro hop hmem hne
  obtain ⟨j, hj, rfl⟩ := List.mem_iff_getElem.mp hmem
  have hj' : j < s.hops.length := by simpa using hj
  have hold := hquiet s.hops[j] (List.getElem_mem hj')
  rw [List.getElem_modify] at hne ⊢
  split_ifs at hne ⊢ with hk
  · rw [hbody] at hne
    exact hrunning _ (hold hne)
  · exact hold hne

theorem Hop.body_finish (hop : Hop) : hop.finish.body = hop.body := by
  rw [finish]
  split <;> rfl

theorem Hop.body_race (act : Racer.Action) (hop : Hop) : (hop.race act).body = hop.body := by
  rw [Hop.race]
  split <;> rfl

/-- The end of a hop starts no attempt. -/
theorem Hop.running_finish (hop : Hop) (hnone : ∀ attempt, hop.sending.running attempt = false)
    (attempt : Racer.Attempt) : hop.finish.sending.running attempt = false := by
  rw [finish]
  split
  · rfl
  · exact hnone attempt

/-- Where no attempt runs, the race starts none. -/
theorem Hop.running_race (act : Racer.Action) (hop : Hop) (hnone : ∀ attempt, hop.sending.running attempt = false)
    (attempt : Racer.Attempt) : (hop.race act).sending.running attempt = false := by
  rw [Hop.race]
  split
  · exact hnone attempt
  · next race hsending =>
    rw [hsending] at hnone
    exact running_step hnone act attempt

/-! ## Runs -/

/-- After the return the call does not start anything. -/
theorem ok_of_returned (hreturned : s.returned = true) (act : Action) : Ok s act := by
  cases act with
  | done =>
    intro hwaits
    rw [hwaits.1] at hreturned
    contradiction
  | read hop attempt i n => trivial
  | finish hop => trivial
  | race hop act => trivial
  | redirect includeBody cache => trivial

/-- A step that is right keeps the call safe. -/
theorem Safe.step (h : Safe s) {act : Action} (hok : Ok s act) : Safe (Borrow.step s act) := by
  cases act with
  | read k attempt i n =>
    rw [Borrow.step]
    split
    · next hop hhop =>
      split_ifs with hlate
      · -- a running attempt has no body to read
        have hbody : hop.body = [] := by
          by_contra hne
          have hrunning := h.quiet hlate.2 hop (List.mem_of_getElem? hhop) hne attempt
          rw [hlate.1] at hrunning
          contradiction
        refine ⟨?_, h.quiet⟩
        change s.late ++ (hop.body.drop i).take n = []
        rw [hbody, h.late, List.drop_nil, List.take_nil, List.append_nil]
      · exact h
    · exact h
  | finish k =>
    exact ⟨h.late, fun hreturned => (h.quiet hreturned).modify Hop.body_finish Hop.running_finish k⟩
  | race k act =>
    exact ⟨h.late, fun hreturned => (h.quiet hreturned).modify (Hop.body_race act) (Hop.running_race act) k⟩
  | redirect includeBody cache =>
    rw [Borrow.step]
    by_cases hwaits : s.Waits
    · rw [if_pos hwaits]
      refine ⟨h.late, fun hreturned => ?_⟩
      have hopen : s.returned = true := hreturned
      -- there are redirects only before the return
      rw [hwaits.1] at hopen
      contradiction
    · rw [if_neg hwaits]
      exact h
  | done =>
    rw [Borrow.step]
    split_ifs with hwaits
    -- the return is the one step that needs its condition
    · exact ⟨h.late, fun _ => hok hwaits⟩
    · exact h

/-- A call that has returned stays so. -/
theorem returned_step (hreturned : s.returned = true) (act : Action) : (step s act).returned = true := by
  cases act with
  | read k attempt i n =>
    rw [step]
    split
    · split_ifs
      · exact hreturned
      · exact hreturned
    · exact hreturned
  | finish k => exact hreturned
  | race k act => exact hreturned
  | redirect includeBody cache =>
    rw [step]
    by_cases hwaits : s.Waits
    · rw [if_pos hwaits]
      exact hreturned
    · rw [if_neg hwaits]
      exact hreturned
  | done =>
    rw [step]
    split_ifs
    · rfl
    · exact hreturned

/-- A call that returned safely stays so, whatever the attempts still do. -/
theorem Safe.late_exec (h : Safe s) (hreturned : s.returned = true) (after : List Action) :
    (Run.exec Borrow.step s after).late = [] := by
  have hboth : Safe (Run.exec Borrow.step s after) ∧ (Run.exec Borrow.step s after).returned = true :=
    @Run.always_exec _ _ _ _ (fun s => Safe s ∧ s.returned = true)
      (fun _ act hs => ⟨hs.1.step (ok_of_returned hs.2 act), returned_step hs.2 act⟩) ⟨h, hreturned⟩ after
  exact hboth.1.late

theorem safe_init (racing : Bool) (body : Bytes) (cache : Option (Option Racer.Protocol)) :
    Safe (init racing body cache) :=
  ⟨rfl, fun h => absurd h Bool.false_ne_true⟩

/-- A return before an attempt that has the body lets that attempt read it. -/
theorem exists_late_of_not_ok {act : Action} (hok : ¬Ok s act) :
    (step s act).returned = true ∧ ∃ after, (Run.exec step (step s act) after).late ≠ [] := by
  cases act with
  | done =>
    obtain ⟨hwaits, hnot⟩ := Classical.not_imp.mp hok
    simp only [Quiet, not_forall] at hnot
    obtain ⟨hop, hmem, hbody, attempt, hrunning⟩ := hnot
    obtain ⟨k, hk⟩ := List.mem_iff_getElem?.mp hmem
    have hstep : step s .done = { s with returned := true } := if_pos hwaits
    rw [hstep]
    refine ⟨rfl, [.read k attempt 0 hop.body.length], ?_⟩
    have hread : step { s with returned := true } (.read k attempt 0 hop.body.length) =
        { s with returned := true, late := s.late ++ hop.body } := by
      rw [step]
      simp [hk, Bool.eq_true_of_not_eq_false hrunning]
    rw [Run.exec_cons, Run.exec_nil, hread]
    exact fun hnil => hbody (List.append_eq_nil_iff.mp hnil).2
  | read k attempt i n => exact absurd trivial hok
  | finish k => exact absurd trivial hok
  | race k act => exact absurd trivial hok
  | redirect includeBody cache => exact absurd trivial hok

/-- The body is never read after a return in the run, however it goes on, exactly if the run meets the
condition. -/
theorem unused_iff (racing : Bool) (body : Bytes) (cache : Option (Option Racer.Protocol)) (as : List Action) :
    (∀ before, before <+: as → (Run.exec step (init racing body cache) before).returned = true →
      ∀ after, (Run.exec step (init racing body cache) (before ++ after)).late = []) ↔
      Run.Along step Ok (init racing body cache) as := by
  constructor
  · intro hunused
    refine Run.along_of_forall_prefix fun before act hprefix => ?_
    by_contra hok
    obtain ⟨hreturned, after, hlate⟩ := exists_late_of_not_ok hok
    have hnever := hunused (before ++ [act]) hprefix (by rwa [Run.exec_append]) after
    rw [Run.exec_append, Run.exec_append] at hnever
    exact hlate hnever
  · intro hrun before hprefix hreturned after
    have hbefore : Run.Along step Ok (init racing body cache) before := Run.along_prefix_of hprefix hrun
    have hsafe : Safe (Run.exec step (init racing body cache) before) :=
      Run.invariant_exec (fun _ _ h hok => h.step hok) (safe_init racing body cache) hbefore
    rw [Run.exec_append]
    exact hsafe.late_exec hreturned after

/-! ## Without racing -/

/-- No hop is raced. -/
def Plain (s : State) : Prop :=
  s.racing = false ∧ ∀ hop ∈ s.hops, ∃ running, hop.sending = .direct running

/-- Without racing every step is right. -/
theorem Plain.ok (h : Plain s) (act : Action) : Ok s act := by
  cases act with
  | done =>
    intro hwaits hop hmem _ attempt
    obtain ⟨running, hsending⟩ := h.2 hop hmem
    have hover := hwaits.2 hop hmem
    rw [hsending] at hover ⊢
    exact hover
  | read k attempt i n => trivial
  | finish k => trivial
  | race k act => trivial
  | redirect includeBody cache => trivial

/-- A change of one hop keeps the call without races. -/
theorem Plain.modify (h : Plain s) {f : Hop → Hop}
    (hdirect : ∀ hop running, hop.sending = .direct running → ∃ running, (f hop).sending = .direct running)
    (k : ℕ) : Plain { s with hops := s.hops.modify k f } := by
  refine ⟨h.1, fun hop hmem => ?_⟩
  obtain ⟨j, hj, rfl⟩ := List.mem_iff_getElem.mp hmem
  have hj' : j < s.hops.length := by simpa using hj
  obtain ⟨running, hsending⟩ := h.2 s.hops[j] (List.getElem_mem hj')
  rw [List.getElem_modify]
  split_ifs
  · exact hdirect _ running hsending
  · exact ⟨running, hsending⟩

/-- Every step keeps the call without races. -/
theorem Plain.step (h : Plain s) (act : Action) : Plain (Borrow.step s act) := by
  cases act with
  | read k attempt i n =>
    rw [Borrow.step]
    split
    · split_ifs
      · exact h
      · exact h
    · exact h
  | finish k =>
    -- a send by itself ends; only the race hands the body to a second attempt
    refine h.modify (fun hop running hsending => ⟨false, ?_⟩) k
    rw [Hop.finish, hsending]
  | race k act =>
    refine h.modify (fun hop running hsending => ⟨running, ?_⟩) k
    rw [Hop.race, hsending]
    exact hsending
  | redirect includeBody cache =>
    rw [Borrow.step]
    by_cases hwaits : s.Waits
    · rw [if_pos hwaits]
      -- the new hop starts with a plain send of its own
      refine ⟨h.1, fun hop hmem => ?_⟩
      rcases List.mem_append.mp hmem with hmem | hmem
      · exact h.2 hop hmem
      · rw [List.mem_singleton.mp hmem, h.1]
        exact ⟨true, rfl⟩
    · rw [if_neg hwaits]
      exact h
  | done =>
    rw [Borrow.step]
    split_ifs
    · exact h
    · exact h

/-- A call without racing never leaves an attempt behind. -/
theorem late_eq_nil_of_plain (body : Bytes) (cache : Option (Option Racer.Protocol)) (as : List Action) :
    (Run.exec step (init false body cache) as).late = [] := by
  have hinit : Plain (init false body cache) := by
    refine ⟨rfl, fun hop hmem => ⟨true, ?_⟩⟩
    rw [List.mem_singleton.mp hmem]
    rfl
  have hboth : Plain (Run.exec step (init false body cache) as) ∧ Safe (Run.exec step (init false body cache) as) :=
    @Run.always_exec _ _ _ _ (fun s => Plain s ∧ Safe s)
      (fun _ act hs => ⟨hs.1.step act, hs.2.step (hs.1.ok act)⟩) ⟨hinit, safe_init false body cache⟩ as
  exact hboth.2.late

/-- HTTP/3 wins the race; the other attempt wakes up after the return and sends the body. -/
theorem loser_reads_late : ¬ ∀ (racing : Bool) (body : Bytes) (cache : Option (Option Racer.Protocol))
    (as : List Action), (Run.exec step (init racing body cache) as).late = [] := by
  intro hunused
  have h := hunused true [1] (some none)
    [.race 0 (.respond (.racing .h3)), .race 0 .receive, .done, .read 0 (.racing .h2) 0 1]
  exact absurd h (by decide)

end TlsClient.Engine.Borrow
