import TlsClient.Async.Registry

/-!
# The requests of one session

A request belongs to the `AsyncSession` that made it, and runs on the loop of its future. No actor changes this, so
in every state the requests of one session can be told apart from those of the others: `forget` leaves nothing of
them but their place. What an actor does to the others does not depend on what is forgotten (`forget_step`), and
the close of a session changes nothing else (`forget_closePop`, `forget_closeNotify`).
-/

namespace TlsClient.Async

namespace Req

/-- The loop and the session of a request. -/
def home (r : Req) : ℕ × ℕ := (r.loop, r.owner)

section Home

variable (r : Req) (loopClosed : Bool)

@[simp] theorem home_pop : r.pop.home = r.home := by
  rw [pop]
  split_ifs <;> rfl

@[simp] theorem home_callSoon (task : LoopTask) : (r.callSoon loopClosed task).home = r.home := by
  rw [callSoon]
  split_ifs <;> rfl

@[simp] theorem home_completeIfPending (state : FutureState) : (r.completeIfPending state).home = r.home := by
  rw [completeIfPending]
  split_ifs <;> rfl

@[simp] theorem home_resolveResponse (unpackRaises : Bool) : (r.resolveResponse unpackRaises).home = r.home := by
  rw [resolveResponse]
  split_ifs
  · rfl
  · cases r.raw <;> rfl
  · cases r.raw <;> rfl

/-- A step of the callback does not change where a request belongs. -/
theorem home_callbackStep : (r.callbackStep loopClosed).home = r.home := by
  rw [callbackStep]
  cases r.callback with
  | notCalled => rfl
  | entered => exact home_pop r
  | popped found =>
    cases found with
    -- the timer is cancelled through the loop, where a closed loop raises
    | false => rfl
    | true => exact home_callSoon r loopClosed .cancelTimer
  | timerCancelled found =>
    dsimp only
    split_ifs
    · rfl
    · rfl
    · exact home_callSoon r loopClosed .applyException
    · rfl
  | bound =>
    dsimp only
    split_ifs
    · rfl
    · exact home_callSoon r loopClosed .resolve
  | excepted releaseGc =>
    dsimp only
    split_ifs <;> rfl
  | returned => rfl

theorem home_goCallback (raw : RawResponse) : (r.goCallback raw).home = r.home := by
  rw [goCallback]
  split_ifs <;> rfl

/-- A request that timed out belongs where it did. -/
theorem home_zombieTimeout : (r.zombieTimeout loopClosed).home = r.home := by
  rw [zombieTimeout]
  dsimp only
  split_ifs
  · rw [home_callSoon, home_pop]
    rfl
  · rfl
  · rfl

/-- A request that its caller cancelled belongs where it did. -/
theorem home_userCancel : (r.userCancel loopClosed).home = r.home := by
  rw [userCancel]
  split_ifs
  · rfl
  · exact home_completeIfPending r .cancelled

/-- A request that was started belongs where it did. -/
theorem home_requestAsync (accepted : Bool) : (r.requestAsync accepted loopClosed).home = r.home := by
  rw [requestAsync]
  dsimp only
  split_ifs
  · rfl
  · rfl
  · rw [home_callSoon, home_pop]
    rfl
  · rfl

/-- A close that pops a request does not change where it belongs. -/
theorem home_closePop (session : ℕ) : (r.closePop session).home = r.home := by
  rw [closePop]
  split_ifs
  · exact home_pop r
  · rfl

/-- Nor does the notification of its close. -/
theorem home_closeNotify : (r.closeNotify loopClosed).home = r.home := by
  rw [closeNotify]
  dsimp only
  split_ifs
  · rw [home_callSoon]
    rfl
  · rw [home_callSoon, home_callSoon]
    rfl
  · rfl

/-- A task of the loop does not change where a request belongs. -/
theorem home_runTask (task : LoopTask) (unpackRaises : Bool) :
    (r.runTask task unpackRaises loopClosed).home = r.home := by
  rw [runTask]
  by_cases hidle : loopClosed = true ∨ task ∉ r.queued
  · rw [if_pos hidle]
  · rw [if_neg hidle]
    cases task with
    | cancelTimer =>
      dsimp only
      split_ifs <;> rfl
    | applyException => exact home_completeIfPending _ .exception
    | resolve => exact home_resolveResponse _ unpackRaises

theorem home_closeLoop (loop : ℕ) : (r.closeLoop loop).home = r.home := by
  rw [closeLoop]
  split_ifs <;> rfl

end Home

/-- What is left of a request of the session: its place. -/
def forget (session : ℕ) (r : Req) : Req :=
  if r.owner = session then { loop := r.loop, owner := r.owner } else r

variable {session : ℕ} {r : Req}

theorem forget_of_owner (howner : r.owner = session) : r.forget session = { loop := r.loop, owner := r.owner } :=
  if_pos howner

theorem forget_of_ne (howner : r.owner ≠ session) : r.forget session = r :=
  if_neg howner

@[simp] theorem home_forget : (r.forget session).home = r.home := by
  rw [forget]
  split_ifs <;> rfl

/-- Two requests of the session that belong together are one when they are forgotten. -/
theorem forget_eq_of_owner {r' : Req} (hhome : r'.home = r.home) (howner : r.owner = session) :
    r'.forget session = r.forget session := by
  obtain ⟨hloop, hsame⟩ := Prod.mk.inj hhome
  rw [forget_of_owner howner, forget_of_owner (hsame.trans howner), hloop, hsame]

/-- What is left does not depend on what is forgotten. -/
theorem forget_congr {f : Req → Req} (hf : ∀ r, (f r).home = r.home) :
    (f (r.forget session)).forget session = (f r).forget session := by
  by_cases howner : r.owner = session
  · have hhome : (f (r.forget session)).home = (f r).home := by rw [hf, hf, home_forget]
    exact forget_eq_of_owner hhome ((Prod.mk.inj (hf r)).2.trans howner)
  · rw [forget_of_ne howner]

end Req

namespace State

/-- The state without the requests of the session. -/
def forget (session : ℕ) (s : State) : State :=
  { s with reqs := s.reqs.map (Req.forget session) }

variable {session : ℕ} {s : State}

@[simp] theorem forget_forget : (s.forget session).forget session = s.forget session := by
  rw [forget, forget]
  congr 1
  rw [List.map_map]
  exact List.map_congr_left fun r _ => Req.forget_congr (f := fun r => r) fun _ => rfl

/-- More requests are forgotten one by one. -/
theorem forget_append (l : List Req) : forget session { s with reqs := s.reqs ++ l } =
    { s.forget session with reqs := (s.forget session).reqs ++ l.map (Req.forget session) } := by
  rw [forget, List.map_append]
  rfl

/-- A change of requests that keeps where they belong can be made before they are forgotten. -/
theorem forget_map {f : Req → Req} (hf : ∀ r, (f r).home = r.home) (loopClosed : ℕ → Bool) :
    forget session ⟨(s.forget session).reqs.map f, loopClosed⟩ = forget session ⟨s.reqs.map f, loopClosed⟩ := by
  rw [forget, forget, forget]
  congr 1
  rw [List.map_map, List.map_map, List.map_map]
  exact List.map_congr_left fun r _ => Req.forget_congr hf

/-- So can a change of one request. -/
theorem forget_onReq (n : ℕ) {f : Bool → Req → Req} (hf : ∀ b r, (f b r).home = r.home) :
    ((s.forget session).onReq n f).forget session = (s.onReq n f).forget session := by
  rw [forget, forget, forget, onReq, onReq]
  congr 1
  refine List.ext_getElem? fun i => ?_
  rw [List.getElem?_map, List.getElem?_map, List.getElem?_modify, List.getElem?_modify, List.getElem?_map]
  cases s.reqs[i]? with
  | none => rfl
  | some r =>
    refine congrArg some ?_
    dsimp only
    split_ifs
    · have hloop : (r.forget session).loop = r.loop := (Prod.mk.inj Req.home_forget).1
      rw [hloop]
      exact Req.forget_congr (hf _)
    · exact Req.forget_congr fun _ => rfl

/-- What an actor does to the requests of other sessions does not depend on those of the session. -/
theorem forget_step (a : Action) : ((s.forget session).step a).forget session = (s.step a).forget session := by
  cases a with
  | register loop owner =>
    by_cases hclosed : s.loopClosed loop
    · have hclosed' : (s.forget session).loopClosed loop := hclosed
      rw [step, step, if_pos hclosed, if_pos hclosed', forget_forget]
    · have hopen : ¬ (s.forget session).loopClosed loop := hclosed
      rw [step, step, if_neg hclosed, if_neg hopen, forget_append, forget_append, forget_forget]
  | requestAsync n accepted => exact forget_onReq n fun b r => r.home_requestAsync b accepted
  | goCallback n raw => exact forget_onReq n fun _ r => r.home_goCallback raw
  | callbackStep n => exact forget_onReq n fun b r => r.home_callbackStep b
  | zombieTimeout n => exact forget_onReq n fun b r => r.home_zombieTimeout b
  | userCancel n => exact forget_onReq n fun b r => r.home_userCancel b
  | closePop session' => exact forget_map (fun r => r.home_closePop session') s.loopClosed
  | closeNotify n => exact forget_onReq n fun b r => r.home_closeNotify b
  | runTask n task unpackRaises => exact forget_onReq n fun b r => r.home_runTask b task unpackRaises
  | closeLoop loop => exact forget_map (fun r => r.home_closeLoop loop) _
  | collect n => exact forget_onReq n fun _ _ => rfl

/-- The session that made a request is not forgotten. -/
theorem any_owner_forget (session n : ℕ) (s : State) (owner : ℕ) :
    (((s.forget session).reqs[n]?).any fun r => r.owner = owner) = (s.reqs[n]?).any fun r => r.owner = owner := by
  rw [forget, List.getElem?_map]
  cases s.reqs[n]? with
  | none => rfl
  | some r => rw [Option.map_some, Option.any_some, Option.any_some, (Prod.mk.inj Req.home_forget).2]

/-- The requests of other sessions are not forgotten. -/
theorem getElem?_forget_iff {n : ℕ} {r : Req} (howner : r.owner ≠ session) :
    (s.forget session).reqs[n]? = some r ↔ s.reqs[n]? = some r := by
  rw [forget, List.getElem?_map]
  cases s.reqs[n]? with
  | none => rfl
  | some r' =>
    rw [Option.map_some, Option.some_inj, Option.some_inj]
    by_cases howner' : r'.owner = session
    · constructor
      · rintro rfl
        exact absurd ((Prod.mk.inj Req.home_forget).2.trans howner') howner
      · rintro rfl
        exact absurd howner' howner
    · rw [Req.forget_of_ne howner']

/-- The close of the session does nothing to other requests. -/
theorem forget_closePop : (s.step (.closePop session)).forget session = s.forget session := by
  rw [step, forget, forget]
  congr 1
  rw [List.map_map]
  refine List.map_congr_left fun r _ => ?_
  rw [Function.comp_apply]
  by_cases howner : r.owner = session
  · exact Req.forget_eq_of_owner (r.home_closePop session) howner
  · rw [Req.closePop, if_neg fun h => howner h.2]

/-- The close of a request of the session is forgotten. -/
theorem forget_closeNotify {n : ℕ} (howner : (s.reqs[n]?).any fun r => r.owner = session) :
    (s.step (.closeNotify n)).forget session = s.forget session := by
  rw [step, onReq, forget, forget]
  congr 1
  refine List.ext_getElem? fun i => ?_
  rw [List.getElem?_map, List.getElem?_map, List.getElem?_modify]
  cases hget : s.reqs[i]? with
  | none => rfl
  | some r =>
    refine congrArg some ?_
    dsimp only
    split_ifs with hi
    · subst hi
      rw [hget, Option.any_some, decide_eq_true_eq] at howner
      exact Req.forget_eq_of_owner (r.home_closeNotify _) howner
    · rfl

end State

end TlsClient.Async
