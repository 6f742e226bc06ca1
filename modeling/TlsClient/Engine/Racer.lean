import Mathlib.Algebra.Order.BigOperators.Group.Finset
import Mathlib.Data.Fintype.Defs
import Mathlib.Tactic.Ring
import TlsClient.Ffi.Values
import TlsClient.Library.Run

/-!
# Racing HTTP/3 and HTTP/2

Embeds `race` of `src/racer.go` for one request: the attempt with the protocol cached for the host, the two
goroutines of `startRace`, and `waitForRaceWinner`. All of them send one `*http.Request`, so they read one
body. The context of the race is not that of the request: neither its cancellation nor its deadline stops an
attempt, and no code closes a response that is left in `resultCh`.

`race_transparent_iff` says which runs give the caller a response to the whole body and leave no other
response behind.
-/

namespace TlsClient.Engine.Racer

open TlsClient.Ffi

/-- The protocols of the race, as they are cached for a host. -/
inductive Protocol where
  | h3
  | h2
deriving DecidableEq

/-- An attempt to send the request: with the cached protocol, or in the race. -/
inductive Attempt where
  | cached (protocol : Protocol)
  | racing (protocol : Protocol)
deriving DecidableEq

instance fintypeAttempt : Fintype Attempt where
  elems := {.cached .h3, .cached .h2, .racing .h3, .racing .h2}
  complete a := by rcases a with ⟨_ | _⟩ | ⟨_ | _⟩ <;> decide

def Attempt.protocol : Attempt → Protocol
  | .cached protocol => protocol
  | .racing protocol => protocol

/-- `racingResult`; without an error it has a response. -/
structure RacingResult where
  protocol : Protocol
  err : Option String
deriving DecidableEq

/-- Where the caller of `race` stands. -/
inductive Stage where
  /-- in `tryUseCachedProtocol` -/
  | trying
  /-- in the loop of `waitForRaceWinner`, with `i` results received -/
  | waiting (i : ℕ) (lastErr : Option String)
  /-- the response of the attempt has been returned -/
  | returned (attempt : Attempt)
  | failed (err : String)
deriving DecidableEq

structure State where
  /-- the protocol cached for the host -/
  protocolCache : Option Protocol
  stage : Stage
  /-- what `req.Body` still yields -/
  body : Bytes
  /-- what each attempt has read of the body and transmitted -/
  sent : Attempt → Bytes := fun _ => []
  running : Attempt → Bool
  /-- the attempts that have produced a response -/
  responded : Attempt → Bool := fun _ => false
  /-- the attempts whose response has been closed -/
  closed : Attempt → Bool := fun _ => false
  resultCh : List RacingResult := []

/-- What the transports do, and what the caller waits for. -/
inductive Action where
  /-- the transport of an attempt reads up to `n` bytes of the body -/
  | read (attempt : Attempt) (n : ℕ)
  /-- the transport, which has read the body to its end, gives a response -/
  | respond (attempt : Attempt)
  /-- the attempt fails, before or while its transport sends -/
  | fail (attempt : Attempt) (err : String)
  | receive
  /-- `<-ctx.Done()` -/
  | timeout

/-- The two goroutines of `startRace`. -/
def isRacing : Attempt → Bool
  | .cached _ => false
  | .racing _ => true

/-- The state in which `race` starts. -/
def init (body : Bytes) : Option Protocol → State
  | some protocol =>
    { protocolCache := some protocol, stage := .trying, body, running := fun a => a = .cached protocol }
  | none => { protocolCache := none, stage := .waiting 0 none, body, running := isRacing }

namespace State

/-- An attempt stops, and in the race sends its result. -/
def finish (s : State) (protocol : Protocol) (err : Option String) : State :=
  { s with
    running := Function.update s.running (.racing protocol) false
    resultCh := s.resultCh ++ [⟨protocol, err⟩] }

/-- The response of an attempt. -/
def respond (s : State) : Attempt → State
  | .cached protocol =>
    { s with
      running := fun _ => false
      responded := Function.update s.responded (.cached protocol) true
      stage := .returned (.cached protocol) }
  | .racing protocol =>
    { s.finish protocol none with responded := Function.update s.responded (.racing protocol) true }

/-- The failure of an attempt: the cached protocol is forgotten and the race starts. -/
def fail (s : State) (err : String) : Attempt → State
  | .cached _ => { s with protocolCache := none, stage := .waiting 0 none, running := isRacing }
  | .racing protocol => s.finish protocol (some err)

/-- A round of the loop of `waitForRaceWinner` that receives a result. -/
def receive (s : State) : State :=
  match s.stage, s.resultCh with
  | .waiting i _, result :: rest =>
    match result.err with
    | none =>
      { s with resultCh := rest, protocolCache := some result.protocol, stage := .returned (.racing result.protocol) }
    | some err =>
      { s with resultCh := rest, stage := if i = 0 then .waiting 1 (some err) else .failed err }
  | _, _ => s

/-- A round of the loop that ends with the context. -/
def timeout (s : State) : State :=
  match s.stage with
  | .waiting _ lastErr => { s with stage := .failed (lastErr.getD "context deadline exceeded") }
  | _ => s

end State

def step (s : State) : Action → State
  | .read a n =>
    if s.running a then
      { s with body := s.body.drop n, sent := Function.update s.sent a (s.sent a ++ s.body.take n) }
    else s
  | .respond a => if s.running a ∧ s.body = [] then s.respond a else s
  | .fail a err => if s.running a then s.fail err a else s
  | .receive => s.receive
  | .timeout => s.timeout

/-! ## Transparency -/

def Stage.Over : Stage → Prop
  | .returned _ => True
  | .failed _ => True
  | _ => False

instance instDecidableOver : DecidablePred Stage.Over
  | .trying => isFalse id
  | .waiting _ _ => isFalse id
  | .returned _ => isTrue trivial
  | .failed _ => isTrue trivial

/-- A returned response is to the whole body and its protocol is remembered, and when the race is over every
other response is closed. -/
structure Transparent (whole : Bytes) (s : State) : Prop where
  sent : ∀ a, s.stage = .returned a → s.sent a = whole
  remembered : ∀ a, s.stage = .returned a → s.protocolCache = some a.protocol
  closed : s.stage.Over → ∀ a, s.responded a → s.stage = .returned a ∨ s.closed a

/-- The condition: a response comes while the caller waits, is the first, and no other attempt has read of
the body; and the context does not end after a response. -/
def Ok (s : State) : Action → Prop
  | .respond a => s.running a → s.body = [] →
    (∀ b, b ≠ a → s.sent b = []) ∧ (∀ b, s.responded b = false) ∧ ¬s.stage.Over
  | .timeout => ∀ i lastErr, s.stage = .waiting i lastErr → ∀ b, s.responded b = false
  | _ => True

/-- The number of attempts of the race that are still running. -/
def State.live (s : State) : ℕ :=
  (s.running (.racing .h3)).toNat + (s.running (.racing .h2)).toNat

/-- What holds in every run on the body `whole`. -/
structure Inv (whole : Bytes) (s : State) : Prop where
  length : ∑ a, (s.sent a).length + s.body.length = whole.length
  alone : ∀ a, (∀ b, b ≠ a → s.sent b = []) → s.sent a ++ s.body = whole
  ended : ∀ a, s.responded a → s.running a = false ∧ s.body = []
  open_ : ∀ a, s.closed a = false
  trying : s.stage = .trying → (∃ p, s.protocolCache = some p ∧ ∀ a, s.running a → a = .cached p) ∧
    (∀ a, s.responded a = false) ∧ s.resultCh = []
  waiting : ∀ i lastErr, s.stage = .waiting i lastErr → i ≤ 1 ∧ i + s.resultCh.length + s.live = 2 ∧
    ∀ a, s.responded a → ⟨a.protocol, none⟩ ∈ s.resultCh ∧ isRacing a
  returned : ∀ a, s.stage = .returned a → s.responded a ∧ s.protocolCache = some a.protocol
  results : ∀ p, ⟨p, none⟩ ∈ s.resultCh → s.responded (.racing p)
  cached : s.stage ≠ .trying → ∀ p, s.running (.cached p) = false

variable {whole : Bytes} {s : State} {a : Attempt} {cache : Option Protocol} {as : List Action}

/-- A race that has not begun meets the invariant. -/
theorem inv_init (whole : Bytes) (cache : Option Protocol) : Inv whole (init whole cache) := by
  cases cache with
  -- with a protocol in the cache one attempt runs alone, otherwise both race
  | some protocol =>
    exact
      { length := by simp [init]
        alone := fun a _ => rfl
        ended := fun a ha => by contradiction
        open_ := fun a => rfl
        trying := fun _ => ⟨⟨protocol, rfl, fun a ha => of_decide_eq_true ha⟩, fun _ => rfl, rfl⟩
        waiting := fun i lastErr h => by contradiction
        returned := fun a h => by contradiction
        results := fun p h => by contradiction
        cached := fun h => absurd rfl h }
  | none =>
    exact
      { length := by simp [init]
        alone := fun a _ => rfl
        ended := fun a ha => by contradiction
        open_ := fun a => rfl
        trying := fun h => by contradiction
        waiting := fun i lastErr h => by
          obtain ⟨rfl, rfl⟩ := Stage.waiting.inj h
          exact ⟨Nat.zero_le 1, rfl, fun a ha => by contradiction⟩
        returned := fun a h => by contradiction
        results := fun p h => by contradiction
        cached := fun _ p => rfl }

/-! ### The steps -/

/-- One more chunk is counted once. -/
theorem sum_length_update (sent : Attempt → Bytes) (a : Attempt) (chunk : Bytes) :
    ∑ b, (Function.update sent a (sent a ++ chunk) b).length = ∑ b, (sent b).length + chunk.length := by
  have hrest : ∑ b ∈ Finset.univ.erase a, (Function.update sent a (sent a ++ chunk) b).length =
      ∑ b ∈ Finset.univ.erase a, (sent b).length :=
    Finset.sum_congr rfl fun b hb => by rw [Function.update_of_ne (Finset.ne_of_mem_erase hb)]
  rw [← Finset.add_sum_erase _ _ (Finset.mem_univ a), hrest, Function.update_self, List.length_append,
    ← Finset.add_sum_erase _ (fun b => (sent b).length) (Finset.mem_univ a)]
  ring

/-- A read of the body keeps the invariant. -/
theorem Inv.read (h : Inv whole s) (n : ℕ) : Inv whole (step s (.read a n)) := by
  rw [step]
  split_ifs
  · refine ⟨?_, fun c hc => ?_, fun b hb => ⟨(h.ended b hb).1, ?_⟩, h.open_, h.trying, h.waiting, h.returned,
      h.results, h.cached⟩
    · show ∑ b, (Function.update s.sent a _ b).length + (s.body.drop n).length = whole.length
      have hlength := h.length
      rw [sum_length_update, List.length_take, List.length_drop]
      omega
    · show Function.update s.sent a _ c ++ s.body.drop n = whole
      by_cases hca : c = a
      · subst hca
        have halone := h.alone c fun b hb => by
          have hb' : Function.update s.sent c _ b = [] := hc b hb
          rwa [Function.update_of_ne hb] at hb'
        rw [Function.update_self, List.append_assoc, List.take_append_drop, halone]
      · -- `c` alone has read, so the chunk is empty
        have hempty : Function.update s.sent a (s.sent a ++ s.body.take n) a = [] := hc a (Ne.symm hca)
        rw [Function.update_self, List.append_eq_nil_iff] at hempty
        have halone := h.alone c fun b hb => by
          have hb' : Function.update s.sent a _ b = [] := hc b hb
          by_cases hba : b = a
          · rw [hba, hempty.1]
          · rwa [Function.update_of_ne hba] at hb'
        have hdrop := List.take_append_drop n s.body
        rw [hempty.2, List.nil_append] at hdrop
        rw [Function.update_of_ne hca, hdrop, halone]
    · show s.body.drop n = []
      rw [(h.ended b hb).2, List.drop_nil]
  · exact h

/-- An attempt that ends is one less. -/
theorem State.live_finish {p : Protocol} {err : Option String} (hrunning : s.running (.racing p) = true) :
    (s.finish p err).live + 1 = s.live := by
  rw [State.live, State.live, State.finish]
  cases p with
  | h3 =>
    show (Function.update s.running (.racing .h3) false (.racing .h3)).toNat +
      (Function.update s.running (.racing .h3) false (.racing .h2)).toNat + 1 = _
    rw [Function.update_self, Function.update_of_ne (by decide), hrunning]
    simp [Nat.add_comm]
  | h2 =>
    show (Function.update s.running (.racing .h2) false (.racing .h3)).toNat +
      (Function.update s.running (.racing .h2) false (.racing .h2)).toNat + 1 = _
    rw [Function.update_self, Function.update_of_ne (by decide), hrunning]
    simp

/-- An attempt that is no longer live has put its result into the channel. -/
theorem Inv.count_finish (h : Inv whole s) {p : Protocol} (hrunning : s.running (.racing p) = true)
    (err : Option String) {i : ℕ} {lastErr : Option String} (hwaiting : s.stage = .waiting i lastErr) :
    i + (s.finish p err).resultCh.length + (s.finish p err).live = 2 := by
  obtain ⟨-, hcount, -⟩ := h.waiting i lastErr hwaiting
  have hlive : (s.finish p err).live + 1 = s.live := State.live_finish hrunning
  have hlength : (s.finish p err).resultCh.length = s.resultCh.length + 1 :=
    List.length_append
  omega

/-- A running attempt of the race runs while the caller does not try the cached protocol. -/
theorem Inv.not_trying (h : Inv whole s) {p : Protocol} (hrunning : s.running (.racing p) = true) :
    s.stage ≠ .trying := fun htrying => by
  obtain ⟨⟨q, -, honly⟩, -⟩ := h.trying htrying
  exact absurd (honly _ hrunning) (by simp)

/-- A cached protocol is tried before the race. -/
theorem Inv.trying_of_cached (h : Inv whole s) {p : Protocol} (hrunning : s.running (.cached p) = true) :
    s.stage = .trying := by
  by_contra hne
  rw [h.cached hne p] at hrunning
  contradiction

/-- The end of an attempt of the race, before its response is counted. -/
theorem Inv.ended_finish (h : Inv whole s) (p : Protocol) (err : Option String) (a : Attempt) (ha : s.responded a) :
    (s.finish p err).running a = false ∧ (s.finish p err).body = [] := by
  refine ⟨?_, (h.ended a ha).2⟩
  show Function.update s.running (.racing p) false a = false
  by_cases heq : a = .racing p
  · rw [heq, Function.update_self]
  · rw [Function.update_of_ne heq]
    exact (h.ended a ha).1

/-- After it, no cached attempt is running. -/
theorem Inv.cached_finish (h : Inv whole s) (p : Protocol) (hne : s.stage ≠ .trying) (q : Protocol) :
    Function.update s.running (.racing p) false (.cached q) = false := by
  rw [Function.update_of_ne (by simp)]
  exact h.cached hne q

/-- A response keeps the invariant. -/
theorem Inv.respond (h : Inv whole s) : Inv whole (step s (.respond a)) := by
  rw [step]
  split_ifs with hok
  · obtain ⟨hrunning, hbody⟩ := hok
    cases a with
    | cached p =>
      obtain ⟨⟨q, hcache, honly⟩, hnone, hch⟩ := h.trying (h.trying_of_cached hrunning)
      -- while the cached protocol is tried no other attempt runs, so its response ends the race
      obtain rfl : p = q := Attempt.cached.inj (honly _ hrunning)
      exact
        { h with
          ended := fun _ _ => ⟨rfl, hbody⟩
          trying := fun hstage => by contradiction
          waiting := fun i lastErr hstage => by contradiction
          returned := fun b hb => by
            obtain rfl : Attempt.cached p = b := Stage.returned.inj hb
            exact ⟨Function.update_self _ _ _, hcache⟩
          results := fun q hq => by
            have hq : ⟨q, none⟩ ∈ s.resultCh := hq
            simp [hch] at hq
          cached := fun _ _ => rfl }
    | racing p =>
      have hstage := h.not_trying hrunning
      have hold : ∀ b, b ≠ .racing p → Function.update s.responded (.racing p) true b → s.responded b :=
        fun b hne hb => by rwa [Function.update_of_ne hne] at hb
      exact
        { h with
          ended := fun b hb => by
            by_cases heq : b = .racing p
            · rw [heq]
              exact ⟨Function.update_self _ _ _, hbody⟩
            · exact h.ended_finish p none b (hold b heq hb)
          trying := fun htrying => absurd htrying hstage
          waiting := fun i lastErr hwaiting => by
            obtain ⟨hi, -, hresponded⟩ := h.waiting i lastErr hwaiting
            refine ⟨hi, h.count_finish hrunning none hwaiting, fun b hb => ?_⟩
            by_cases heq : b = .racing p
            · rw [heq]
              exact ⟨List.mem_append_right _ (List.mem_singleton_self _), rfl⟩
            · obtain ⟨hmem, hracing⟩ := hresponded b (hold b heq hb)
              exact ⟨List.mem_append_left _ hmem, hracing⟩
          returned := fun b hb => by
            obtain ⟨hresponded, hcache⟩ := h.returned b hb
            refine ⟨?_, hcache⟩
            show Function.update s.responded (.racing p) true b = true
            by_cases heq : b = .racing p
            · rw [heq, Function.update_self]
            · rwa [Function.update_of_ne heq]
          results := fun q hq => by
            show Function.update s.responded (.racing p) true (.racing q) = true
            by_cases heq : q = p
            · rw [heq, Function.update_self]
            · rw [Function.update_of_ne (by simpa using heq)]
              have hq : ⟨q, none⟩ ∈ s.resultCh ++ [⟨p, none⟩] := hq
              rcases List.mem_append.mp hq with hmem | hmem
              · exact h.results q hmem
              · exact absurd (RacingResult.mk.inj (List.mem_singleton.mp hmem)).1 heq
          cached := fun _ q => h.cached_finish p hstage q }
  · exact h

/-- A failure keeps the invariant. -/
theorem Inv.fail (h : Inv whole s) (err : String) : Inv whole (step s (.fail a err)) := by
  rw [step]
  split_ifs with hrunning
  · cases a with
    | cached p =>
      -- the cached attempt failed: nothing has raced yet, and both attempts start
      obtain ⟨⟨q, hcache, honly⟩, hnone, hch⟩ := h.trying (h.trying_of_cached hrunning)
      exact
        { h with
          ended := fun b hb => absurd ((hnone b).symm.trans hb) (by simp)
          trying := fun hstage => by contradiction
          waiting := fun i lastErr hstage => by
            obtain ⟨rfl, rfl⟩ := Stage.waiting.inj hstage
            refine ⟨Nat.zero_le 1, ?_, fun b hb => absurd ((hnone b).symm.trans hb) (by simp)⟩
            show 0 + s.resultCh.length + 2 = 2
            rw [hch]
            rfl
          returned := fun b hb => by contradiction
          results := fun q hq => by
            have hq : ⟨q, none⟩ ∈ s.resultCh := hq
            simp [hch] at hq
          cached := fun _ _ => rfl }
    | racing p =>
      have hstage := h.not_trying hrunning
      exact
        { h with
          ended := fun b hb => h.ended_finish p (some err) b hb
          trying := fun htrying => absurd htrying hstage
          waiting := fun i lastErr hwaiting => by
            -- the failure goes to the channel, where it takes the place of the attempt that ran
            obtain ⟨hi, -, hresponded⟩ := h.waiting i lastErr hwaiting
            refine ⟨hi, h.count_finish hrunning (some err) hwaiting, fun b hb => ?_⟩
            obtain ⟨hmem, hracing⟩ := hresponded b hb
            exact ⟨List.mem_append_left _ hmem, hracing⟩
          results := fun q hq => by
            have hq : ⟨q, none⟩ ∈ s.resultCh ++ [⟨p, some err⟩] := hq
            rcases List.mem_append.mp hq with hmem | hmem
            · exact h.results q hmem
            · exact absurd (RacingResult.mk.inj (List.mem_singleton.mp hmem)).2 (by simp)
          cached := fun _ q => h.cached_finish p hstage q }
  · exact h

/-- With two errors received no attempt has responded. -/
theorem Inv.none_responded (h : Inv whole s) {lastErr : Option String} {p : Protocol} {err : String}
    {rest : List RacingResult} (hstage : s.stage = .waiting 1 lastErr) (hch : s.resultCh = ⟨p, some err⟩ :: rest)
    (a : Attempt) : s.responded a = false := by
  obtain ⟨-, hcount, hresponded⟩ := h.waiting 1 lastErr hstage
  rw [hch, List.length_cons] at hcount
  have hrest : rest = [] := List.length_eq_zero_iff.mp (by omega)
  by_contra ha
  have hmem := (hresponded a (by simpa using ha)).1
  rw [hch, hrest, List.mem_singleton] at hmem
  exact absurd (RacingResult.mk.inj hmem).2 (by simp)

/-- Taking a result keeps the invariant. -/
theorem Inv.receive (h : Inv whole s) : Inv whole (step s .receive) := by
  rw [step, State.receive]
  split
  case h_2 => exact h
  case h_1 i lastErr result rest hstage hch =>
    obtain ⟨hi, hcount, hresponded⟩ := h.waiting i lastErr hstage
    have hsub : ∀ q, ⟨q, none⟩ ∈ rest → s.responded (.racing q) := fun q hq =>
      h.results q (by rw [hch]; exact List.mem_cons_of_mem _ hq)
    rw [hch, List.length_cons] at hcount
    obtain ⟨p, err⟩ := result
    -- a response ends the race, an error only if it is the second one
    cases err with
    | none =>
      exact
        { h with
          trying := fun hs => by contradiction
          waiting := fun i lastErr hs => by contradiction
          returned := fun b hb => by
            obtain rfl : Attempt.racing p = b := Stage.returned.inj hb
            exact ⟨h.results p (by rw [hch]; exact List.mem_cons_self), rfl⟩
          results := hsub
          cached := fun _ => h.cached (by rw [hstage]; simp) }
    | some err =>
      dsimp only
      split_ifs with hzero
      · exact
          { h with
            trying := fun hs => by contradiction
            waiting := fun j lastErr' hs => by
              obtain ⟨rfl, rfl⟩ := Stage.waiting.inj hs
              refine ⟨le_rfl, ?_, fun b hb => ?_⟩
              · show 1 + rest.length + s.live = 2
                omega
              · obtain ⟨hmem, hracing⟩ := hresponded b hb
                rw [hch, List.mem_cons] at hmem
                exact ⟨hmem.resolve_left fun heq => absurd (RacingResult.mk.inj heq).2 (by simp), hracing⟩
            returned := fun b hb => by contradiction
            results := hsub
            cached := fun _ => h.cached (by rw [hstage]; simp) }
      · exact
          { h with
            trying := fun hs => by contradiction
            waiting := fun j lastErr' hs => by contradiction
            returned := fun b hb => by contradiction
            results := hsub
            cached := fun _ => h.cached (by rw [hstage]; simp) }

/-- The timeout keeps the invariant. -/
theorem Inv.timeout (h : Inv whole s) : Inv whole (step s .timeout) := by
  rw [step, State.timeout]
  split
  case h_2 => exact h
  case h_1 i lastErr hstage =>
    exact
      { h with
        trying := fun hs => by contradiction
        waiting := fun j lastErr' hs => by contradiction
        returned := fun b hb => by contradiction
        cached := fun _ => h.cached (by rw [hstage]; simp) }

/-- Every step keeps the invariant. -/
theorem Inv.step (h : Inv whole s) (act : Action) : Inv whole (step s act) := by
  cases act with
  | read a n => exact h.read n
  | respond a => exact h.respond
  | fail a err => exact h.fail err
  | receive => exact h.receive
  | timeout => exact h.timeout

/-! ### Runs that meet the condition -/

/-- Who has responded has sent the whole body, is the only one, and is returned in the end. -/
def Good (whole : Bytes) (s : State) : Prop :=
  ∀ a, s.responded a → s.sent a = whole ∧ (∀ b, s.responded b → b = a) ∧ (s.stage.Over → s.stage = .returned a)

/-- A step that is right keeps the race transparent so far. -/
theorem Good.step (hgood : Good whole s) (h : Inv whole s) {act : Action} (hok : Ok s act) : Good whole (step s act) := by
  cases act with
  | read c n =>
    rw [Racer.step]
    split_ifs
    · intro a ha
      obtain ⟨hsent, hrest⟩ := hgood a ha
      refine ⟨?_, hrest⟩
      -- the body has been read to its end
      show Function.update s.sent c (s.sent c ++ s.body.take n) a = whole
      rw [(h.ended a ha).2, List.take_nil, List.append_nil, Function.update_eq_self]
      exact hsent
    · exact hgood
  | respond c =>
    rw [Racer.step]
    split_ifs with hready
    · obtain ⟨hothers, hnone, hover⟩ := hok hready.1 hready.2
      have hsent : s.sent c = whole := by
        have halone := h.alone c hothers
        rwa [hready.2, List.append_nil] at halone
      have honly : ∀ a, (s.respond c).responded a → a = c := fun a ha => by
        by_contra hne
        cases c with
        | cached p =>
          have ha : Function.update s.responded (.cached p) true a = true := ha
          rw [Function.update_of_ne hne, hnone a] at ha
          contradiction
        | racing p =>
          have ha : Function.update s.responded (.racing p) true a = true := ha
          rw [Function.update_of_ne hne, hnone a] at ha
          contradiction
      intro a ha
      obtain rfl := honly a ha
      refine ⟨?_, honly, fun hover' => ?_⟩
      · cases a with
        | cached p => exact hsent
        | racing p => exact hsent
      · cases a with
        | cached p => rfl
        | racing p => exact absurd hover' hover
    · exact hgood
  | fail c err =>
    rw [Racer.step]
    split_ifs with hrunning
    · cases c with
      | cached p =>
        obtain ⟨-, hnone, -⟩ := h.trying (h.trying_of_cached hrunning)
        exact fun a ha => absurd ((hnone a).symm.trans ha) (by simp)
      | racing p => exact hgood
    · exact hgood
  | receive =>
    rw [Racer.step, State.receive]
    split
    case h_2 => exact hgood
    case h_1 i lastErr result rest hstage hch =>
      obtain ⟨p, err⟩ := result
      cases err with
      | none =>
        have hresponded := h.results p (by rw [hch]; exact List.mem_cons_self)
        intro a ha
        obtain ⟨hsent, honly, -⟩ := hgood a ha
        refine ⟨hsent, honly, fun _ => ?_⟩
        rw [← honly _ hresponded]
      | some err =>
        dsimp only
        split_ifs with hzero
        · intro a ha
          obtain ⟨hsent, honly, -⟩ := hgood a ha
          exact ⟨hsent, honly, fun hover => hover.elim⟩
        · obtain rfl : i = 1 := by
            have hi := (h.waiting i lastErr hstage).1
            omega
          exact fun a ha => absurd ((h.none_responded hstage hch a).symm.trans ha) (by simp)
  | timeout =>
    rw [Racer.step, State.timeout]
    split
    case h_2 => exact hgood
    case h_1 i lastErr hstage =>
      exact fun a ha => absurd ((hok i lastErr hstage a).symm.trans ha) (by simp)

/-- A race that is transparent so far is transparent. -/
theorem Good.transparent (hgood : Good whole s) (h : Inv whole s) : Transparent whole s where
  sent a ha := (hgood a (h.returned a ha).1).1
  remembered a ha := (h.returned a ha).2
  closed hover a ha := .inl ((hgood a ha).2.2 hover)

/-! ### Runs that do not -/

/-- A response to a part of the body, beside another one, or that is not returned. -/
def Fault (s : State) : Prop :=
  ∃ a, s.responded a ∧ ((∃ b, b ≠ a ∧ s.sent b ≠ []) ∨ (∃ b, b ≠ a ∧ s.responded b) ∨
    s.stage.Over ∧ s.stage ≠ .returned a)

/-- A race that went wrong is not transparent when it is over. -/
theorem Fault.not_transparent (hfault : Fault s) (h : Inv whole s) (hover : s.stage.Over) :
    ¬Transparent whole s := by
  intro htrans
  obtain ⟨a, ha, ⟨b, hne, hsent⟩ | ⟨b, hne, hb⟩ | ⟨-, hstage⟩⟩ := hfault
  · rcases htrans.closed hover a ha with hstage | hclosed
    · -- the two have read more than the body
      have hlength := h.length
      rw [← Finset.add_sum_erase _ _ (Finset.mem_univ a), htrans.sent a hstage] at hlength
      have hle := Finset.single_le_sum (f := fun c => (s.sent c).length) (fun c _ => Nat.zero_le _)
        (Finset.mem_erase.mpr ⟨hne, Finset.mem_univ b⟩)
      have hpos := List.length_pos_iff.mpr hsent
      have hle : (s.sent b).length ≤ ∑ c ∈ Finset.univ.erase a, (s.sent c).length := hle
      omega
    · rw [h.open_ a] at hclosed
      contradiction
  · rcases htrans.closed hover a ha with hstage | hclosed
    · rcases htrans.closed hover b hb with hstage' | hclosed
      · rw [hstage] at hstage'
        exact hne (Stage.returned.inj hstage').symm
      · rw [h.open_ b] at hclosed
        contradiction
    · rw [h.open_ a] at hclosed
      contradiction
  · rcases htrans.closed hover a ha with hstage' | hclosed
    · exact hstage hstage'
    · rw [h.open_ a] at hclosed
      contradiction

/-- What a step cannot undo. -/
structure Later (s s' : State) : Prop where
  responded : ∀ a, s.responded a → s'.responded a
  sent : ∀ a, s.sent a ≠ [] → s'.sent a ≠ []
  ended : s.stage.Over → s'.stage = s.stage

theorem Later.refl (s : State) : Later s s := ⟨fun _ ha => ha, fun _ ha => ha, fun _ => rfl⟩

/-- A flag that is set stays set. -/
theorem update_true {f : Attempt → Bool} (c a : Attempt) (ha : f a = true) : Function.update f c true a = true := by
  by_cases hac : a = c
  · rw [hac, Function.update_self]
  · rwa [Function.update_of_ne hac]

/-- A step leads to a later state. -/
theorem Inv.later (h : Inv whole s) (act : Action) : Later s (Racer.step s act) := by
  -- while the cached attempt runs nothing has been returned
  have hover : ∀ {p}, s.running (.cached p) = true → ¬s.stage.Over := fun hrunning hover => by
    rw [h.trying_of_cached hrunning] at hover
    exact hover
  cases act with
  | read c n =>
    rw [Racer.step]
    split_ifs
    · refine ⟨fun _ ha => ha, fun a ha => ?_, fun _ => rfl⟩
      -- what has been sent is only added to
      show Function.update s.sent c (s.sent c ++ _) a ≠ []
      by_cases hac : a = c
      · rw [hac, Function.update_self]
        rw [hac] at ha
        exact fun hnil => ha (List.append_eq_nil_iff.mp hnil).1
      · rwa [Function.update_of_ne hac]
    · exact .refl s
  | respond c =>
    rw [Racer.step]
    split_ifs with hready
    · cases c with
      | cached p =>
        exact ⟨fun a ha => update_true (.cached p) a ha, fun _ ha => ha, fun ho => absurd ho (hover hready.1)⟩
      | racing p => exact ⟨fun a ha => update_true (.racing p) a ha, fun _ ha => ha, fun _ => rfl⟩
    · exact .refl s
  | fail c err =>
    rw [Racer.step]
    split_ifs with hrunning
    · cases c with
      | cached p => exact ⟨fun _ ha => ha, fun _ ha => ha, fun ho => absurd ho (hover hrunning)⟩
      | racing p => exact ⟨fun _ ha => ha, fun _ ha => ha, fun _ => rfl⟩
    · exact .refl s
  | receive =>
    rw [Racer.step, State.receive]
    split
    case h_2 => exact .refl s
    case h_1 i lastErr result rest hstage hch =>
      have hwaiting : ¬s.stage.Over := by rw [hstage]; exact id
      obtain ⟨p, err⟩ := result
      cases err with
      | none => exact ⟨fun _ ha => ha, fun _ ha => ha, fun ho => absurd ho hwaiting⟩
      | some err => exact ⟨fun _ ha => ha, fun _ ha => ha, fun ho => absurd ho hwaiting⟩
  | timeout =>
    rw [Racer.step, State.timeout]
    split
    case h_2 => exact .refl s
    case h_1 i lastErr hstage =>
      exact ⟨fun _ ha => ha, fun _ ha => ha, fun ho => by rw [hstage] at ho; exact ho.elim⟩

/-- A race that went wrong stays so. -/
theorem Fault.step (hfault : Fault s) (h : Inv whole s) (act : Action) : Fault (Racer.step s act) := by
  have hlater := h.later act
  obtain ⟨a, ha, ⟨b, hne, hsent⟩ | ⟨b, hne, hb⟩ | ⟨hover, hstage⟩⟩ := hfault
  · exact ⟨a, hlater.responded a ha, .inl ⟨b, hne, hlater.sent b hsent⟩⟩
  · exact ⟨a, hlater.responded a ha, .inr (.inl ⟨b, hne, hlater.responded b hb⟩)⟩
  · refine ⟨a, hlater.responded a ha, .inr (.inr ?_)⟩
    rw [hlater.ended hover]
    exact ⟨hover, hstage⟩

/-- A step outside of the condition leaves a fault. -/
theorem fault_of_not_ok (h : Inv whole s) {act : Action} (hok : ¬Ok s act) : Fault (Racer.step s act) := by
  have hlater := h.later act
  cases act with
  | read c n => exact absurd trivial hok
  | fail c err => exact absurd trivial hok
  | receive => exact absurd trivial hok
  | respond c =>
    have hready : s.running c = true ∧ s.body = [] := by
      by_contra hnot
      exact hok fun hrunning hbody => absurd ⟨hrunning, hbody⟩ hnot
    have hresponded : (Racer.step s (.respond c)).responded c := by
      rw [Racer.step, if_pos hready]
      cases c with
      | cached p => exact Function.update_self _ _ _
      | racing p => exact Function.update_self _ _ _
    have hfresh : s.responded c = false := by
      by_contra ha
      have hended := (h.ended c (by simpa using ha)).1
      rw [hready.1] at hended
      contradiction
    -- the three ways in which a response comes at the wrong time
    have hcases : (∃ b, b ≠ c ∧ s.sent b ≠ []) ∨ (∃ b, s.responded b = true) ∨ s.stage.Over := by
      by_contra hnone
      simp only [not_or, not_exists, not_and, not_not] at hnone
      exact hok fun _ _ => ⟨hnone.1, fun b => by simpa using hnone.2.1 b, hnone.2.2⟩
    refine ⟨c, hresponded, ?_⟩
    rcases hcases with ⟨b, hne, hsent⟩ | ⟨b, hb⟩ | hover
    · exact .inl ⟨b, hne, hlater.sent b hsent⟩
    · refine .inr (.inl ⟨b, fun heq => ?_, hlater.responded b hb⟩)
      rw [heq, hfresh] at hb
      contradiction
    · refine .inr (.inr ?_)
      rw [hlater.ended hover]
      refine ⟨hover, fun hstage => ?_⟩
      have hreturned := (h.returned c hstage).1
      rw [hfresh] at hreturned
      contradiction
  | timeout =>
    -- the race gives up although an attempt has responded
    obtain ⟨i, lastErr, hstage, a, ha⟩ : ∃ i lastErr, s.stage = .waiting i lastErr ∧ ∃ a, s.responded a = true := by
      by_contra hnone
      refine hok fun i lastErr hstage a => ?_
      by_contra ha
      exact hnone ⟨i, lastErr, hstage, a, by simpa using ha⟩
    have hstep : (Racer.step s .timeout).stage = .failed (lastErr.getD "context deadline exceeded") := by
      rw [Racer.step, State.timeout, hstage]
    refine ⟨a, hlater.responded a ha, .inr (.inr ?_)⟩
    rw [hstep]
    exact ⟨trivial, by simp⟩

/-- A run that meets the condition is transparent in every state; a run that has come to its end is
transparent only if it has met the condition. -/
theorem race_transparent_iff (whole : Bytes) (cache : Option Protocol) (as : List Action) :
    let s := Run.exec step (init whole cache) as
    (Run.Along step Ok (init whole cache) as → Transparent whole s) ∧
      (s.stage.Over → (Transparent whole s ↔ Run.Along step Ok (init whole cache) as)) := by
  intro s
  have hinit := inv_init whole cache
  have hinv : Inv whole s := Run.always_exec (fun _ act h => h.step act) hinit as
  have hgood : Run.Along step Ok (init whole cache) as → Transparent whole s := fun hrun => by
    have hnone : Good whole (init whole cache) := fun a ha => by
      cases cache with
      | none => contradiction
      | some p => contradiction
    have hboth := Run.invariant_exec (fun s act (h : Inv whole s ∧ Good whole s) hok =>
      ⟨h.1.step act, h.2.step h.1 hok⟩) ⟨hinit, hnone⟩ hrun
    exact hboth.2.transparent hboth.1
  refine ⟨hgood, fun hover => ⟨fun htrans => ?_, hgood⟩⟩
  exact Run.along_of_not_fault (fun _ act h => h.step act) (fun _ _ h hok => fault_of_not_ok h hok)
    (fun _ act h hfault => hfault.step h act) hinit fun hfault => hfault.not_transparent hinv hover htrans

/-- The two attempts share the body, or the slower one responds as well. -/
theorem race_not_transparent :
    ¬Transparent [1, 2] (Run.exec step (init [1, 2] none)
      [.read (.racing .h3) 1, .read (.racing .h2) 1, .respond (.racing .h3), .receive]) ∧
    ¬Transparent [1] (Run.exec step (init [1] (some .h2))
      [.read (.cached .h2) 1, .fail (.cached .h2) "connection reset", .respond (.racing .h3), .receive]) ∧
    ¬Transparent [] (Run.exec step (init [] none)
      [.respond (.racing .h3), .receive, .respond (.racing .h2)]) := by
  refine ⟨fun h => ?_, fun h => ?_, fun h => ?_⟩
  · have hsent := h.sent (.racing .h3) rfl
    exact absurd hsent (by decide)
  · have hsent := h.sent (.racing .h3) rfl
    exact absurd hsent (by decide)
  · rcases h.closed trivial (.racing .h2) rfl with hstage | hclosed
    · exact absurd (Stage.returned.inj hstage) (by decide)
    · contradiction

end TlsClient.Engine.Racer
