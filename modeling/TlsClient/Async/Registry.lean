import TlsClient.Library.Run
import Mathlib.Logic.Function.Basic

/-!
# The registry of pending async requests

Embeds the async bridge of `src/tls_client/_core.py`: `_pending_requests` and the five actors that work
on it, which are the completion callback `_on_async_response` on a Go thread, the zombie timer
`_on_zombie_timeout`, cancellation by the user, `AsyncSession.close` with `_drop_pending_request`, and
the shutdown of the event loop.

A request is one record `Req`, and an actor's access to shared data is one action, so a run interleaves
the actors at every point where the interpreter may switch threads. Tasks handed to a loop with
`call_soon_threadsafe` wait in `queued` and run in any order; on a closed loop the call raises
`RuntimeError`. `removals`, `completions` and `frees` count what happened to the registry entry, to the
future and to the C memory of the response. `holders` is the number of owners that will still free it.
-/

namespace TlsClient.Async

/-- What the Go engine passes to the callback. -/
inductive RawResponse where
  | null
  | failed
  | response
deriving DecidableEq, Repr

/-- The state of an `asyncio.Future`. -/
inductive FutureState where
  | pending
  | result
  | exception
  | cancelled
deriving DecidableEq, Repr

def FutureState.done : FutureState → Bool
  | .pending => false
  | _ => true

/-- The defensive timer of a request. -/
inductive Timer where
  | armed
  | cancelled
  | fired
deriving DecidableEq, Repr

/-- The goroutine behind a request: not asked for yet, running, or past its one callback. -/
inductive Goroutine where
  | notStarted
  | running
  | done
deriving DecidableEq, Repr

/-- Work scheduled on the event loop for one request. -/
inductive LoopTask where
  /-- `timeout_handle.cancel` -/
  | cancelTimer
  /-- `_apply_future_state(future, True, exc)` -/
  | applyException
  /-- `_resolve_async_response(ffi, future, raw_gc)`; owns the `ffi.gc` wrapper -/
  | resolve
deriving DecidableEq, Repr

/-- How far `_on_async_response` has come. -/
inductive Callback where
  | notCalled
  /-- called with `raw_res`, about to pop the registry entry -/
  | entered
  /-- the entry is popped; `found` is `future is not None` -/
  | popped (found : Bool)
  /-- `_cancel_timeout_handle` has returned -/
  | timerCancelled (found : Bool)
  /-- `raw_gc = ffi.gc(raw_res, lib.FreeResponse)` is bound, scheduling is next -/
  | bound
  /-- in the `except BaseException` handler: `ffi.release(raw_gc)` is next if `releaseGc`, otherwise
  the `lib.FreeResponse(raw_res)` after it -/
  | excepted (releaseGc : Bool)
  | returned
deriving DecidableEq, Repr

/-- One request from `_next_request_id()` on, with the loop of its future and its `AsyncSession`. -/
structure Req where
  loop : ℕ
  owner : ℕ
  registered : Bool := true
  removals : ℕ := 0
  future : FutureState := .pending
  completions : ℕ := 0
  timer : Timer := .armed
  goroutine : Goroutine := .notStarted
  /-- popped by `AsyncSession.close` and still in its `to_cancel` list -/
  toCancel : Bool := false
  callback : Callback := .notCalled
  raw : RawResponse := .null
  queued : List LoopTask := []
  /-- wrappers kept alive by the traceback of an unpacking error -/
  lingering : ℕ := 0
  frees : ℕ := 0
deriving DecidableEq, Repr

namespace Req

/-! ## The actors, one request at a time -/

/-- `_pending_requests.pop(request_id, None)`. -/
def pop (r : Req) : Req :=
  if r.registered then { r with registered := false, removals := r.removals + 1 } else r

/-- `loop.call_soon_threadsafe(task)` under `except RuntimeError: pass`. -/
def callSoon (loopClosed : Bool) (task : LoopTask) (r : Req) : Req :=
  if loopClosed then r else { r with queued := r.queued ++ [task] }

/-- `future.set_result` and `future.set_exception`. -/
def complete (state : FutureState) (r : Req) : Req :=
  { r with future := state, completions := r.completions + 1 }

/-- `_apply_future_state(future, True, exc)` and `future.cancel()`: both leave a done future alone. -/
def completeIfPending (state : FutureState) (r : Req) : Req :=
  if r.future.done then r else r.complete state

/-- `lib.FreeResponse`. -/
def freeResponse (r : Req) : Req := { r with frees := r.frees + 1 }

/-- One step of `_on_async_response`. -/
def callbackStep (loopClosed : Bool) (r : Req) : Req :=
  match r.callback with
  | .notCalled => r
  | .entered => { r.pop with callback := .popped r.registered }
  | .popped found =>
    -- `_cancel_timeout_handle` does nothing without a future
    let r' := if found then r.callSoon loopClosed .cancelTimer else r
    { r' with callback := .timerCancelled found }
  | .timerCancelled found =>
    if !found || r.future.done then
      let r' := if r.raw ≠ .null then r.freeResponse else r
      { r' with callback := .returned }
    else if r.raw = .null then
      { r.callSoon loopClosed .applyException with callback := .returned }
    else
      { r with callback := .bound }
  | .bound =>
    -- on a closed loop `call_soon_threadsafe` raises into the handler
    if loopClosed then { r with callback := .excepted true }
    else { r.callSoon loopClosed .resolve with callback := .returned }
  | .excepted releaseGc =>
    if r.raw = .null then { r with callback := .returned }
    else if releaseGc then { r.freeResponse with callback := .excepted false }
    else { r.freeResponse with callback := .returned }
  | .returned => r

/-- The Go engine calls the callback, once per goroutine. -/
def goCallback (raw : RawResponse) (r : Req) : Req :=
  if r.goroutine = .running then { r with goroutine := .done, callback := .entered, raw := raw }
  else r

/-- `_on_zombie_timeout`, on the loop thread. -/
def zombieTimeout (loopClosed : Bool) (r : Req) : Req :=
  if r.timer = .armed ∧ !loopClosed then
    let r' := { r with timer := .fired }
    if r.registered then r'.pop.callSoon loopClosed .applyException else r'
  else r

/-- The user's cancellation of the task that awaits the future, on the loop thread. -/
def userCancel (loopClosed : Bool) (r : Req) : Req :=
  if loopClosed then r else r.completeIfPending .cancelled

/-- The call to `lib.RequestAsync`. If it raises or returns an error code the request is dropped by
`_drop_pending_request`, unless a close has popped it already. -/
def requestAsync (accepted loopClosed : Bool) (r : Req) : Req :=
  if r.goroutine ≠ .notStarted then r
  else if accepted then { r with goroutine := .running }
  else
    let r' := { r with goroutine := .done }
    if r.registered then r'.pop.callSoon loopClosed .cancelTimer else r'

/-- `AsyncSession.close` under `_pending_lock`: pop the session's entries into `to_cancel`. -/
def closePop (session : ℕ) (r : Req) : Req :=
  if r.registered ∧ r.owner = session then { r.pop with toCancel := true } else r

/-- `AsyncSession.close` after the lock: stop the timer, fail the future unless it is done. -/
def closeNotify (loopClosed : Bool) (r : Req) : Req :=
  if r.toCancel then
    let r' := ({ r with toCancel := false }).callSoon loopClosed .cancelTimer
    if r.future.done then r' else r'.callSoon loopClosed .applyException
  else r

/-- The body of `_resolve_async_response`. If unpacking raises, the exception set on the future holds
the frame and with it the wrapper; otherwise the wrapper is dropped and its destructor runs. -/
def resolveResponse (unpackRaises : Bool) (r : Req) : Req :=
  if r.future.done then r.freeResponse
  else
    match r.raw with
    | .failed => (r.complete .exception).freeResponse
    | _ =>
      if unpackRaises then { r.complete .exception with lingering := r.lingering + 1 }
      else (r.complete .result).freeResponse

/-- The event loop runs one queued task. -/
def runTask (task : LoopTask) (unpackRaises loopClosed : Bool) (r : Req) : Req :=
  if loopClosed ∨ task ∉ r.queued then r
  else
    let r' := { r with queued := r.queued.erase task }
    match task with
    | .cancelTimer => if r.timer = .armed then { r' with timer := .cancelled } else r'
    | .applyException => r'.completeIfPending .exception
    | .resolve => r'.resolveResponse unpackRaises

/-- `loop.close()` drops the queued tasks, and the destructors of their wrappers run. -/
def closeLoop (loop : ℕ) (r : Req) : Req :=
  if r.loop = loop then
    { r with queued := [], frees := r.frees + r.queued.count .resolve }
  else r

/-- The garbage collector drops an unpacking error and the wrappers it kept alive. -/
def collect (r : Req) : Req :=
  { r with lingering := 0, frees := r.frees + r.lingering }

end Req

/-! ## Runs -/

/-- All requests made so far, in order of their ids, and which event loops are closed. -/
structure State where
  reqs : List Req
  loopClosed : ℕ → Bool

def State.init : State := ⟨[], fun _ => false⟩

/-- One step of one actor; `n` is the position of the request. -/
inductive Action where
  | register (loop owner : ℕ)
  | requestAsync (n : ℕ) (accepted : Bool)
  | goCallback (n : ℕ) (raw : RawResponse)
  | callbackStep (n : ℕ)
  | zombieTimeout (n : ℕ)
  | userCancel (n : ℕ)
  | closePop (session : ℕ)
  | closeNotify (n : ℕ)
  | runTask (n : ℕ) (task : LoopTask) (unpackRaises : Bool)
  | closeLoop (loop : ℕ)
  | collect (n : ℕ)
deriving DecidableEq, Repr

/-- Apply `f` to request `n`, with the state of its event loop. -/
def State.onReq (s : State) (n : ℕ) (f : Bool → Req → Req) : State :=
  { s with reqs := s.reqs.modify n (fun r => f (s.loopClosed r.loop) r) }

def State.step (s : State) : Action → State
  | .register loop owner =>
    -- `_execute_async` runs on its loop, so the loop is open
    if s.loopClosed loop then s else { s with reqs := s.reqs ++ [{ loop, owner }] }
  | .requestAsync n accepted => s.onReq n (Req.requestAsync accepted)
  | .goCallback n raw => s.onReq n (fun _ => Req.goCallback raw)
  | .callbackStep n => s.onReq n Req.callbackStep
  | .zombieTimeout n => s.onReq n Req.zombieTimeout
  | .userCancel n => s.onReq n Req.userCancel
  | .closePop session => { s with reqs := s.reqs.map (Req.closePop session) }
  | .closeNotify n => s.onReq n Req.closeNotify
  | .runTask n task unpackRaises => s.onReq n (Req.runTask task unpackRaises)
  | .closeLoop loop =>
    { reqs := s.reqs.map (Req.closeLoop loop)
      loopClosed := Function.update s.loopClosed loop true }
  | .collect n => s.onReq n (fun _ => Req.collect)

/-! ## Ownership of the response -/

/-- The callback still has to free `raw_res` or pass it on. -/
def Callback.holdsRaw : Callback → Bool
  | .notCalled => false
  | .returned => false
  | _ => true

namespace Req

/-- A response with C memory was handed to the callback. -/
def handed (r : Req) : ℕ :=
  if r.callback ≠ .notCalled ∧ r.raw ≠ .null then 1 else 0

/-- The owners that will free the response: the running callback, queued wrappers and wrappers kept
alive by a traceback. -/
def holders (r : Req) : ℕ :=
  (if r.callback.holdsRaw ∧ r.raw ≠ .null then 1 else 0) + r.queued.count .resolve + r.lingering

/-- What the bookkeeping of one request promises. -/
structure Sound (r : Req) : Prop where
  /-- the entry is in the registry or was removed once, and the callback leaves it removed -/
  removedOnce : r.removals + r.registered.toNat = 1
  removedByCallback : r.callback = .returned → r.removals = 1
  completedOnce : r.completions ≤ 1
  /-- memory handed over is freed exactly once, counting the owner that still has to free it -/
  freedOnce : r.frees + r.holders = r.handed

/-- The run invariant of one request. -/
structure Inv (r : Req) : Prop where
  removed : r.removals + r.registered.toNat = 1
  unpopped : r.registered = true → r.callback = .notCalled ∨ r.callback = .entered
  completed : r.completions = r.future.done.toNat
  uncalled : r.goroutine ≠ .done → r.callback = .notCalled
  boundRaw : r.callback = .bound → r.raw ≠ .null
  unexcepted : ∀ releaseGc, r.callback ≠ .excepted releaseGc
  balance : r.frees + r.holders = r.handed

variable {r : Req}

/-- A registered request meets the invariant. -/
theorem inv_register (loop owner : ℕ) : Inv { loop, owner } where
  removed := rfl
  unpopped _ := .inl rfl
  completed := rfl
  uncalled _ := rfl
  boundRaw h := by simp at h
  unexcepted _ := by simp
  balance := rfl

/-- The invariant says that the request is sound. -/
theorem Inv.sound (hinv : r.Inv) : r.Sound where
  removedOnce := hinv.removed
  removedByCallback hret := by
    have hremoved := hinv.removed
    cases hreg : r.registered with
    | true =>
      have huncalled := hinv.unpopped hreg
      simp [hret] at huncalled
    | false => simpa [hreg] using hremoved
  completedOnce := by
    rw [hinv.completed]
    exact Bool.toNat_le _
  freedOnce := hinv.balance

/-- Once the callback has returned and no wrapper is left, the memory it was handed is free. -/
theorem Sound.freed (hsound : r.Sound) (hret : r.callback = .returned) (hraw : r.raw ≠ .null)
    (hqueue : .resolve ∉ r.queued) (hlinger : r.lingering = 0) : r.frees = 1 := by
  have hbalance := hsound.freedOnce
  simpa [holders, handed, hret, hraw, hlinger, Callback.holdsRaw,
    List.count_eq_zero_of_not_mem hqueue] using hbalance

/-! ## Each step keeps the invariant -/

/-- Taking it off the table keeps the invariant. -/
theorem Inv.pop (hinv : r.Inv) : r.pop.Inv := by
  unfold Req.pop
  split
  case isTrue hreg =>
    have hremoved := hinv.removed
    refine ⟨?_, ?_, hinv.completed, hinv.uncalled, hinv.boundRaw, hinv.unexcepted, hinv.balance⟩
    · simpa [hreg] using hremoved
    · simp
  case isFalse => exact hinv

@[simp] theorem pop_registered : r.pop.registered = false := by
  unfold Req.pop
  split <;> simp_all

/-- A scheduled task keeps the invariant, unless it is the resolution. -/
theorem Inv.callSoon {closed : Bool} {task : LoopTask} (hinv : r.Inv) (htask : task ≠ .resolve) :
    (r.callSoon closed task).Inv := by
  unfold Req.callSoon
  split
  case isTrue => exact hinv
  case isFalse =>
    refine ⟨hinv.removed, hinv.unpopped, hinv.completed, hinv.uncalled, hinv.boundRaw,
      hinv.unexcepted, ?_⟩
    have hbalance := hinv.balance
    simpa [holders, handed, List.count_append, List.count_singleton, htask] using hbalance

/-- Completing a pending future keeps the invariant. -/
theorem Inv.complete {state : FutureState} (hinv : r.Inv) (hpending : r.future.done = false)
    (hstate : state.done = true) : (r.complete state).Inv := by
  refine ⟨hinv.removed, hinv.unpopped, ?_, hinv.uncalled, hinv.boundRaw, hinv.unexcepted,
    hinv.balance⟩
  have hcompleted := hinv.completed
  simp only [hpending, Bool.toNat_false] at hcompleted
  simp [Req.complete, hcompleted, hstate]

/-- So does completing a future that may be done. -/
theorem Inv.completeIfPending {state : FutureState} (hinv : r.Inv) (hstate : state.done = true) :
    (r.completeIfPending state).Inv := by
  unfold Req.completeIfPending
  split
  case isTrue => exact hinv
  case isFalse hpending => exact hinv.complete (Bool.eq_false_iff.mpr hpending) hstate

/-- Moving the callback on from a point after the pop, with the memory still accounted for. -/
theorem Inv.moveCallback {phase : Callback} (hinv : r.Inv) (hcalled : r.callback ≠ .notCalled)
    (hunregistered : r.registered = false) (hphase : phase ≠ .notCalled)
    (hbound : phase = .bound → r.raw ≠ .null) (hexcepted : ∀ releaseGc, phase ≠ .excepted releaseGc)
    (hholds : phase.holdsRaw = r.callback.holdsRaw) : Inv { r with callback := phase } := by
  refine ⟨hinv.removed, ?_, hinv.completed, ?_, hbound, hexcepted, ?_⟩
  · simp [hunregistered]
  · intro hdone
    exact absurd (hinv.uncalled hdone) hcalled
  · have hbalance := hinv.balance
    simpa [holders, handed, hcalled, hphase, hholds] using hbalance

/-- Past the entry of its callback a request is not registered. -/
theorem Inv.unregistered (hinv : r.Inv) (hnot : r.callback ≠ .notCalled)
    (hentered : r.callback ≠ .entered) : r.registered = false := by
  by_contra hreg
  rcases hinv.unpopped (by simpa using hreg) with h | h
  · exact hnot h
  · exact hentered h

/-- Returning from the callback with the raw response passed on or freed. -/
theorem Inv.returnCallback {r' : Req} (hinv : r.Inv) (hunregistered : r.registered = false)
    (hcalled : r.callback ≠ .notCalled) (hremovals : r'.removals = r.removals)
    (hregistered : r'.registered = false) (hfuture : r'.future = r.future)
    (hcompletions : r'.completions = r.completions) (hgoroutine : r'.goroutine = r.goroutine)
    (hreturned : r'.callback = .returned) (hraw : r'.raw = r.raw)
    (hbalance : r'.frees + r'.holders = r.frees + r.holders) : r'.Inv := by
  have hdone : r.goroutine = .done := by
    by_contra hne
    exact hcalled (hinv.uncalled hne)
  refine ⟨?_, ?_, ?_, ?_, ?_, ?_, ?_⟩
  · rw [hremovals, hregistered, ← hunregistered]
    exact hinv.removed
  · simp [hregistered]
  · rw [hcompletions, hfuture]
    exact hinv.completed
  · simp [hgoroutine, hdone]
  · simp [hreturned]
  · simp [hreturned]
  · have hhanded : r'.handed = r.handed := by simp [handed, hreturned, hraw, hcalled]
    rw [hbalance, hhanded]
    exact hinv.balance

/-- Each step of the callback keeps the invariant, if the loop is open when it schedules. -/
theorem Inv.callbackStep {closed : Bool} (hinv : r.Inv)
    (hopen : r.callback = .bound → closed = false) : (r.callbackStep closed).Inv := by
  unfold Req.callbackStep
  cases hphase : r.callback with
  | notCalled => exact hinv
  | entered =>
    have hpop := hinv.pop
    have hcallback : r.pop.callback = .entered := by
      unfold Req.pop
      split <;> exact hphase
    exact hpop.moveCallback (by simp [hcallback]) pop_registered (by simp) (by simp) (by simp)
      (by simp [hcallback, Callback.holdsRaw])
  | popped found =>
    have hunregistered := hinv.unregistered (by simp [hphase]) (by simp [hphase])
    cases found with
    | false =>
      exact hinv.moveCallback (by simp [hphase]) hunregistered (by simp) (by simp) (by simp)
        (by simp [hphase, Callback.holdsRaw])
    | true =>
      have hsoon : (r.callSoon closed .cancelTimer).Inv := hinv.callSoon (by simp)
      have hcallback : (r.callSoon closed .cancelTimer).callback = .popped true := by
        unfold Req.callSoon
        split <;> exact hphase
      have hsoonRegistered : (r.callSoon closed .cancelTimer).registered = false := by
        unfold Req.callSoon
        split <;> exact hunregistered
      exact hsoon.moveCallback (by simp [hcallback]) hsoonRegistered (by simp) (by simp) (by simp)
        (by simp [hcallback, Callback.holdsRaw])
  | timerCancelled found =>
    have hunregistered := hinv.unregistered (by simp [hphase]) (by simp [hphase])
    have hcalled : r.callback ≠ .notCalled := by simp [hphase]
    dsimp only
    split
    case isTrue =>
      -- nobody waits for the response: it is freed here
      refine hinv.returnCallback hunregistered hcalled ?_ ?_ ?_ ?_ ?_ rfl ?_ ?_ <;>
        by_cases hraw : r.raw = .null <;>
        simp [hraw, freeResponse, hunregistered, holders, hphase, Callback.holdsRaw]
      omega
    case isFalse =>
      split
      case isTrue hraw =>
        refine hinv.returnCallback hunregistered hcalled ?_ ?_ ?_ ?_ ?_ rfl ?_ ?_ <;>
          cases closed <;>
          simp [hraw, Req.callSoon, hunregistered, holders]
      case isFalse hraw =>
        exact hinv.moveCallback hcalled hunregistered (by simp) (fun _ => hraw) (by simp)
          (by simp [hphase, Callback.holdsRaw])
  | bound =>
    have hunregistered := hinv.unregistered (by simp [hphase]) (by simp [hphase])
    have hraw := hinv.boundRaw hphase
    have hclosed := hopen hphase
    -- the wrapper moves from the callback to the queue
    refine hinv.returnCallback hunregistered (by simp [hphase]) ?_ ?_ ?_ ?_ ?_ ?_ ?_ ?_ <;>
      simp [hclosed, Req.callSoon, hunregistered, holders, hphase, hraw, Callback.holdsRaw,
        List.count_append]
    omega
  | excepted releaseGc => exact absurd hphase (hinv.unexcepted releaseGc)
  | returned => exact hinv

/-- The engine's call keeps the invariant. -/
theorem Inv.goCallback {raw : RawResponse} (hinv : r.Inv) : (r.goCallback raw).Inv := by
  unfold Req.goCallback
  split
  case isFalse => exact hinv
  case isTrue hrunning =>
    have huncalled := hinv.uncalled (by simp [hrunning])
    refine ⟨hinv.removed, fun _ => .inr rfl, hinv.completed, by simp, by simp, by simp, ?_⟩
    have hbalance := hinv.balance
    simp only [holders, handed, huncalled, Callback.holdsRaw] at hbalance ⊢
    simp at hbalance ⊢
    omega

/-- The timeout of a zombie keeps the invariant. -/
theorem Inv.zombieTimeout {closed : Bool} (hinv : r.Inv) : (r.zombieTimeout closed).Inv := by
  have hfired : Inv { r with timer := .fired } :=
    ⟨hinv.removed, hinv.unpopped, hinv.completed, hinv.uncalled, hinv.boundRaw, hinv.unexcepted,
      hinv.balance⟩
  unfold Req.zombieTimeout
  split
  case isFalse => exact hinv
  case isTrue =>
    split
    case isTrue => exact hfired.pop.callSoon (by simp)
    case isFalse => exact hfired

/-- A cancellation by the caller keeps the invariant. -/
theorem Inv.userCancel {closed : Bool} (hinv : r.Inv) : (r.userCancel closed).Inv := by
  unfold Req.userCancel
  split
  case isTrue => exact hinv
  case isFalse => exact hinv.completeIfPending rfl

/-- The start of the request keeps the invariant. -/
theorem Inv.requestAsync {accepted closed : Bool} (hinv : r.Inv) :
    (r.requestAsync accepted closed).Inv := by
  unfold Req.requestAsync
  split
  case isTrue => exact hinv
  case isFalse hstart =>
    have hnotStarted : r.goroutine = .notStarted := by simpa using hstart
    have huncalled := hinv.uncalled (by simp [hnotStarted])
    have hset : ∀ goroutine, Inv { r with goroutine := goroutine } := fun goroutine =>
      ⟨hinv.removed, hinv.unpopped, hinv.completed, fun _ => huncalled, hinv.boundRaw,
        hinv.unexcepted, hinv.balance⟩
    split
    case isTrue => exact hset .running
    case isFalse =>
      split
      case isTrue => exact (hset .done).pop.callSoon (by simp)
      case isFalse => exact hset .done

/-- A close that pops the request keeps the invariant. -/
theorem Inv.closePop {session : ℕ} (hinv : r.Inv) : (r.closePop session).Inv := by
  unfold Req.closePop
  split
  case isTrue =>
    have hpop := hinv.pop
    exact ⟨hpop.removed, hpop.unpopped, hpop.completed, hpop.uncalled, hpop.boundRaw,
      hpop.unexcepted, hpop.balance⟩
  case isFalse => exact hinv

/-- The notification of a close keeps the invariant. -/
theorem Inv.closeNotify {closed : Bool} (hinv : r.Inv) : (r.closeNotify closed).Inv := by
  unfold Req.closeNotify
  split
  case isFalse => exact hinv
  case isTrue =>
    have hnotified : Inv { r with toCancel := false } :=
      ⟨hinv.removed, hinv.unpopped, hinv.completed, hinv.uncalled, hinv.boundRaw,
        hinv.unexcepted, hinv.balance⟩
    have hcancel : (Req.callSoon closed .cancelTimer { r with toCancel := false }).Inv :=
      hnotified.callSoon (by simp)
    split
    case isTrue => exact hcancel
    case isFalse => exact hcancel.callSoon (by simp)

/-- Moving the response between the queue, the traceback and `FreeResponse` keeps the balance. -/
theorem balance_of_moved {r' : Req} (hbalance : r.frees + r.holders = r.handed)
    (hcallback : r'.callback = r.callback) (hraw : r'.raw = r.raw)
    (hmoved : r'.frees + r'.queued.count .resolve + r'.lingering
      = r.frees + r.queued.count .resolve + r.lingering) :
    r'.frees + r'.holders = r'.handed := by
  simp only [holders, handed, hcallback, hraw] at hbalance ⊢
  omega

/-- Taking a task off the queue that owns no wrapper keeps the invariant. -/
theorem Inv.dequeue {task : LoopTask} (hinv : r.Inv) (htask : task ≠ .resolve) :
    Inv { r with queued := r.queued.erase task } := by
  refine ⟨hinv.removed, hinv.unpopped, hinv.completed, hinv.uncalled, hinv.boundRaw,
    hinv.unexcepted, balance_of_moved hinv.balance rfl rfl ?_⟩
  simp [List.count_erase_of_ne (Ne.symm htask)]

/-- Resolving takes the wrapper off the queue and either frees the response or leaves the wrapper to
the error's traceback. -/
theorem Inv.resolveQueued {unpackRaises : Bool} (hinv : r.Inv) (hmem : .resolve ∈ r.queued) :
    (resolveResponse unpackRaises { r with queued := r.queued.erase .resolve }).Inv := by
  have hcount : 0 < r.queued.count .resolve := List.count_pos_iff.mpr hmem
  -- both ends of the task leave the sum of frees and owners as it was
  have hfreed : ∀ state completions, completions = state.done.toNat →
      Inv { r with
        queued := r.queued.erase .resolve
        frees := r.frees + 1
        future := state
        completions := completions } := by
    intro state completions hcompleted
    refine ⟨hinv.removed, hinv.unpopped, hcompleted, hinv.uncalled, hinv.boundRaw,
      hinv.unexcepted, balance_of_moved hinv.balance rfl rfl ?_⟩
    simp only [List.count_erase_self]
    omega
  have hcompletions := hinv.completed
  unfold resolveResponse
  split
  case isTrue => exact hfreed r.future r.completions hcompletions
  case isFalse hpending =>
    simp only [hpending, Bool.toNat_false] at hcompletions
    split
    case h_1 => exact hfreed .exception (r.completions + 1) (by simp [hcompletions, FutureState.done])
    case h_2 =>
      split
      case isTrue =>
        refine ⟨hinv.removed, hinv.unpopped, ?_, hinv.uncalled, hinv.boundRaw,
          hinv.unexcepted, balance_of_moved hinv.balance rfl rfl ?_⟩
        · simp [Req.complete, hcompletions, FutureState.done]
        · simp only [Req.complete, List.count_erase_self]
          omega
      case isFalse =>
        exact hfreed .result (r.completions + 1) (by simp [hcompletions, FutureState.done])

/-- Each task of the loop keeps the invariant. -/
theorem Inv.runTask {task : LoopTask} {unpackRaises closed : Bool} (hinv : r.Inv) :
    (r.runTask task unpackRaises closed).Inv := by
  unfold Req.runTask
  split
  case isTrue => exact hinv
  case isFalse hrun =>
    have hmem : task ∈ r.queued := by
      by_contra hnot
      exact hrun (.inr hnot)
    cases task with
    | cancelTimer =>
      have hdequeued : Inv { r with queued := r.queued.erase .cancelTimer } :=
        hinv.dequeue (by simp)
      dsimp only
      split
      case isTrue =>
        exact ⟨hdequeued.removed, hdequeued.unpopped, hdequeued.completed, hdequeued.uncalled,
          hdequeued.boundRaw, hdequeued.unexcepted, hdequeued.balance⟩
      case isFalse => exact hdequeued
    | applyException => exact (hinv.dequeue (by simp)).completeIfPending rfl
    | resolve => exact hinv.resolveQueued hmem

/-- The end of a loop keeps the invariant. -/
theorem Inv.closeLoop {loop : ℕ} (hinv : r.Inv) : (r.closeLoop loop).Inv := by
  unfold Req.closeLoop
  split
  case isTrue =>
    refine ⟨hinv.removed, hinv.unpopped, hinv.completed, hinv.uncalled, hinv.boundRaw,
      hinv.unexcepted, balance_of_moved hinv.balance rfl rfl ?_⟩
    simp
  case isFalse => exact hinv

/-- Collecting its wrappers keeps the invariant. -/
theorem Inv.collect (hinv : r.Inv) : r.collect.Inv := by
  refine ⟨hinv.removed, hinv.unpopped, hinv.completed, hinv.uncalled, hinv.boundRaw,
    hinv.unexcepted, balance_of_moved hinv.balance rfl rfl ?_⟩
  simp only [Req.collect]
  omega

end Req

/-! ## Runs of the registry -/

namespace State

/-- Every request is accounted for. -/
def Sound (s : State) : Prop := ∀ r ∈ s.reqs, r.Sound

def Inv (s : State) : Prop := ∀ r ∈ s.reqs, r.Inv

/-- The condition on one step: when the callback schedules the response, its event loop is open. -/
def StepOk (s : State) : Action → Prop
  | .callbackStep n => ∀ r, s.reqs[n]? = some r → r.callback = .bound → s.loopClosed r.loop = false
  | _ => True

instance (s : State) (a : Action) : Decidable (s.StepOk a) := by
  unfold StepOk
  split
  case h_1 n =>
    cases hget : s.reqs[n]? with
    | none => exact isTrue (by simp)
    | some r =>
      exact decidable_of_iff (r.callback = .bound → s.loopClosed r.loop = false) (by simp)
  case h_2 => infer_instance

variable {s : State}

/-- A step of one request keeps the invariant of all. -/
theorem Inv.onReq {n : ℕ} {f : Bool → Req → Req} (hinv : s.Inv)
    (hf : ∀ r, s.reqs[n]? = some r → r.Inv → (f (s.loopClosed r.loop) r).Inv) :
    (s.onReq n f).Inv := by
  intro r hr
  obtain ⟨i, hi⟩ := List.mem_iff_getElem?.mp hr
  rw [State.onReq, List.getElem?_modify] at hi
  obtain ⟨r₀, hget, rfl⟩ := Option.map_eq_some_iff.mp hi
  have hr₀ : r₀.Inv := hinv r₀ (List.mem_of_getElem? hget)
  split
  case isTrue heq =>
    subst heq
    exact hf r₀ hget hr₀
  case isFalse => exact hr₀

/-- So does a step of each of them. -/
theorem Inv.map {f : Req → Req} {loopClosed : ℕ → Bool} (hinv : s.Inv)
    (hf : ∀ r : Req, r.Inv → (f r).Inv) : Inv ⟨s.reqs.map f, loopClosed⟩ := by
  intro r hr
  obtain ⟨r₀, hr₀, rfl⟩ := List.mem_map.mp hr
  exact hf r₀ (hinv r₀ hr₀)

/-- One step of any actor keeps the invariant of every request. -/
theorem Inv.step (a : Action) (hinv : s.Inv) (hok : s.StepOk a) : (s.step a).Inv := by
  cases a with
  | register loop owner =>
    by_cases hclosed : s.loopClosed loop
    · simpa [State.step, hclosed] using hinv
    · simp only [State.step, hclosed]
      intro r hr
      rcases List.mem_append.mp hr with hold | hnew
      · exact hinv r hold
      · rw [List.mem_singleton.mp hnew]
        exact Req.inv_register loop owner
  | requestAsync n accepted => exact hinv.onReq fun _ _ hr => hr.requestAsync
  | goCallback n raw => exact hinv.onReq fun _ _ hr => hr.goCallback
  | callbackStep n => exact hinv.onReq fun r hget hr => hr.callbackStep (hok r hget)
  | zombieTimeout n => exact hinv.onReq fun _ _ hr => hr.zombieTimeout
  | userCancel n => exact hinv.onReq fun _ _ hr => hr.userCancel
  | closePop session => exact hinv.map fun _ hr => hr.closePop
  | closeNotify n => exact hinv.onReq fun _ _ hr => hr.closeNotify
  | runTask n task unpackRaises => exact hinv.onReq fun _ _ hr => hr.runTask
  | closeLoop loop => exact hinv.map fun _ hr => hr.closeLoop
  | collect n => exact hinv.onReq fun _ _ hr => hr.collect

end State

/-- In every run in which no callback schedules its response on a closed loop, each entry is removed
once, each future is completed at most once and each response is freed once. -/
theorem pending_requests_sound (actions : List Action)
    (hrun : Run.Along State.step State.StepOk State.init actions) :
    (Run.exec State.step State.init actions).Sound := by
  have hinit : State.init.Inv := fun r hr => by simp [State.init] at hr
  have hinv := Run.invariant_exec (fun _ a hinv hok => hinv.step a hok) hinit hrun
  exact fun r hr => (hinv r hr).sound

/-- One request that completes normally and one that is cancelled before its response arrives. -/
def completedAndCancelled : List Action :=
  [.register 0 0, .register 0 0, .requestAsync 0 true, .requestAsync 1 true,
    .goCallback 0 .response, .userCancel 1, .callbackStep 0, .goCallback 1 .response,
    .callbackStep 0, .callbackStep 1, .callbackStep 0, .callbackStep 1, .callbackStep 0,
    .callbackStep 1, .runTask 0 .resolve false, .closeLoop 0]

/-- One request completes, and another is cancelled. -/
theorem pending_requests_sound_completedAndCancelled :
    (Run.exec State.step State.init completedAndCancelled).reqs.map (fun r => (r.future, r.frees))
        = [(.result, 1), (.cancelled, 1)] ∧
      (Run.exec State.step State.init completedAndCancelled).Sound :=
  ⟨by decide, pending_requests_sound completedAndCancelled (by decide)⟩

/-- The loop is closed after the callback has bound the wrapper and before it schedules. -/
def closedBeforeSchedule : List Action :=
  [.register 0 0, .requestAsync 0 true, .goCallback 0 .response, .callbackStep 0, .callbackStep 0,
    .callbackStep 0, .closeLoop 0, .callbackStep 0, .callbackStep 0, .callbackStep 0]

/-- The handler releases the wrapper, which frees the response, and frees it again. -/
theorem closedBeforeSchedule_frees_twice :
    ¬ (Run.exec State.step State.init closedBeforeSchedule).Sound := by
  intro hsound
  have hfrees := (hsound _ (List.mem_of_getElem? (i := 0) rfl)).freedOnce
  exact absurd hfrees (by decide)

/-- Whatever the request, a callback that finds the loop closed when it schedules frees the response
twice. -/
theorem Req.Inv.frees_twice {r : Req} (hinv : r.Inv) (hbound : r.callback = .bound) :
    (((r.callbackStep true).callbackStep true).callbackStep true).frees = 2 := by
  have hraw := hinv.boundRaw hbound
  have hbalance := hinv.balance
  have hholds : r.frees = 0 := by
    simp only [holders, handed, hbound, Callback.holdsRaw] at hbalance
    simp only [hraw, ne_eq, not_false_eq_true, and_self, if_true, reduceCtorEq] at hbalance
    omega
  simp [Req.callbackStep, hbound, hraw, freeResponse, hholds]

end TlsClient.Async
