import TlsClient.Async.Owners
import TlsClient.Sessions.Continuity

/-!
# Closing a session

`close` of `Session` and `AsyncSession` ends with `lib.ClearClientPool()`, which takes the clients of all sessions out
of the pool, with their cookies. `TLSClientAdapter.close` of the compat sessions explains why it does not do that.

States are `Alike` if they agree on all but what a session may change by closing: whether it is closed, and its own
pending requests. A step does the same to both (`Alike.step`), and the close of the session leaves a state like the one
before it, unless it clears a pool that holds clients (`alike_close`). Hence `close_spares_others`, about whole runs.
-/

namespace TlsClient.Engine

open TlsClient.Ffi

/-- The pool without the count of its entries, by which nothing is decided. -/
def Pool.uncounted (pool : Pool ℕ) : Pool ℕ :=
  { pool with poolEntryCount := 0 }

/-- The access times do not depend on the counters. -/
theorem Pool.uncounted_touch (pool : Pool ℕ) (key : Bytes) (now : ℤ) :
    (pool.uncounted.touch key now).uncounted = (pool.touch key now).uncounted := by
  have hload : pool.uncounted.load key = pool.load key := rfl
  rw [touch, touch, hload]
  cases pool.load key with
  | none => rfl
  | some pe => rfl

/-- Neither does an eviction over the capacity. -/
theorem Pool.uncounted_evictLRUOverCapLocked (pool : Pool ℕ) (order : List Bytes) (protectedKey : Bytes) :
    (pool.uncounted.evictLRUOverCapLocked order protectedKey).uncounted =
      (pool.evictLRUOverCapLocked order protectedKey).uncounted := by
  have hrange : pool.uncounted.range order = pool.range order := rfl
  have hload : pool.uncounted.load protectedKey = pool.load protectedKey := rfl
  have hmax : pool.uncounted.poolMaxEntries = pool.poolMaxEntries := rfl
  rw [evictLRUOverCapLocked, evictLRUOverCapLocked, hrange, hload, hmax]
  dsimp only
  split_ifs <;> rfl

namespace Process

def uncounted (s : Process) : Process :=
  { s with pool := s.pool.uncounted }

variable {s : Process}

/-- Nor a new capacity. -/
theorem uncounted_setMaxEntries (order : List Bytes) (entries : ℤ) :
    (s.uncounted.setMaxEntries order entries).uncounted = (s.setMaxEntries order entries).uncounted :=
  congrArg (fun pool => (⟨pool, s.clients⟩ : Process)) (Pool.uncounted_evictLRUOverCapLocked
    { s.pool with poolMaxEntries := if entries < 0 then 1024 else entries } order [])

/-- The client that is found does not depend on the counters. -/
theorem uncounted_getOrCreate (sha256 : Bytes → Bytes) (m : Moment) (cfg : RequestConfig) :
    (getOrCreateClientFromConfig sha256 m cfg s.uncounted).1 = (getOrCreateClientFromConfig sha256 m cfg s).1 ∧
      (getOrCreateClientFromConfig sha256 m cfg s.uncounted).2.uncounted =
        (getOrCreateClientFromConfig sha256 m cfg s).2.uncounted := by
  have hat : s.uncounted.pool.clientAt (poolKey sha256 cfg) = s.pool.clientAt (poolKey sha256 cfg) := rfl
  rw [getOrCreateClientFromConfig, getOrCreateClientFromConfig, hat]
  cases s.pool.clientAt (poolKey sha256 cfg) with
  | some id => exact ⟨rfl, congrArg (fun pool => (⟨pool, s.clients⟩ : Process)) (Pool.uncounted_touch s.pool _ m.now)⟩
  | none =>
    cases newClient m.env cfg with
    | error err => exact ⟨rfl, rfl⟩
    | ok client =>
      refine ⟨rfl, congrArg (fun pool => (⟨pool, s.clients ++ [client]⟩ : Process)) ?_⟩
      exact (Pool.uncounted_evictLRUOverCapLocked _ m.order _).symm.trans
        (Pool.uncounted_evictLRUOverCapLocked (s.pool.store _ ⟨s.clients.length, m.now⟩) m.order _)

/-- Clearing an empty pool does nothing. -/
theorem uncounted_clear_of_empty (hempty : s.pool.clientPool = ∅) : s.clear.uncounted = s.uncounted := by
  rw [clear, uncounted, uncounted, Pool.clearClientPool, Pool.uncounted, Pool.uncounted, hempty]

end Process

end TlsClient.Engine

namespace TlsClient.Sessions

open TlsClient.Ffi TlsClient.Engine TlsClient.Python Utf8

/-- The session cannot make calls any more. -/
def marks (kind : ℕ → SessionKind) (k : ℕ) : Action → Bool
  | .closing who .mark => who = k ∧ kind who ≠ .compat
  | _ => false

/-- The close of the session takes the action, or has stopped it. -/
def ofClose (k : ℕ) (closed : Bool) : Action → Bool
  | .closing who _ => who = k
  | .call who _ => who = k ∧ closed
  | _ => false

/-- The run without the close of the session, and without the calls that the close has stopped. -/
def withoutClose (kind : ℕ → SessionKind) (k : ℕ) (closed : Bool) : List Action → List Action
  | [] => []
  | a :: as =>
    if ofClose k closed a then withoutClose kind k (closed || marks kind k a) as
    else a :: withoutClose kind k (closed || marks kind k a) as

/-- The condition on a step: the close of the session does not clear a pool that holds clients. -/
def Harmless (kind : ℕ → SessionKind) (k : ℕ) (s : State) : Action → Prop
  | .closing who .clear => who = k → kind k = .compat ∨ s.process.pool.clientPool = ∅
  | _ => True

/-- What a compat session does is harmless. -/
theorem harmless_of_compat {kind : ℕ → SessionKind} {k : ℕ} {s : State} {a : Action} (hkind : kind k = .compat) :
    Harmless kind k s a := by
  cases a with
  | closing who part =>
    cases part with
    | clear => exact fun _ => .inl hkind
    | _ => trivial
  | _ => trivial

/-- The states agree on all but what is the session's own: whether it is closed, and its pending requests. -/
structure Alike (k : ℕ) (s t : State) : Prop where
  process : s.process.uncounted = t.process.uncounted
  calls : s.calls = t.calls
  received : s.received = t.received
  closed : ∀ who, who ≠ k → s.closed who = t.closed who
  registry : s.registry.forget k = t.registry.forget k

section Close

variable {sha256 : Bytes → Bytes} {kind : ℕ → SessionKind} {k : ℕ} {s t u : State} {a : Action}

theorem Alike.refl (k : ℕ) (s : State) : Alike k s s :=
  ⟨rfl, rfl, rfl, fun _ _ => rfl, rfl⟩

theorem Alike.symm (hst : Alike k s t) : Alike k t s :=
  ⟨hst.process.symm, hst.calls.symm, hst.received.symm, fun who hne => (hst.closed who hne).symm, hst.registry.symm⟩

theorem Alike.trans (hst : Alike k s t) (htu : Alike k t u) : Alike k s u :=
  ⟨hst.process.trans htu.process, hst.calls.trans htu.calls, hst.received.trans htu.received,
    fun who hne => (hst.closed who hne).trans (htu.closed who hne), hst.registry.trans htu.registry⟩

/-- What is done to the pools alike leaves them alike. -/
theorem Alike.map_process {f : Process → Process} (hf : ∀ p, (f p.uncounted).uncounted = (f p).uncounted)
    (hst : Alike k s t) : Alike k { s with process := f s.process } { t with process := f t.process } :=
  have hmapped := congrArg (fun p => (f p).uncounted) hst.process
  { hst with process := (hf s.process).symm.trans (hmapped.trans (hf t.process)) }

/-- The registry does the same in both. -/
theorem Alike.registry_step (a : Async.Action) (hst : Alike k s t) :
    Alike k { s with registry := s.registry.step a } { t with registry := t.registry.step a } :=
  have hstepped := congrArg (fun r : Async.State => (r.step a).forget k) hst.registry
  { hst with registry := (Async.State.forget_step a).symm.trans (hstepped.trans (Async.State.forget_step a)) }

theorem Alike.clientOf (hst : Alike k s t) (who i : ℕ) : s.clientOf who i = t.clientOf who i := by
  rw [State.clientOf, State.clientOf, hst.calls]

/-- The cookies are the same in both. -/
theorem Alike.cookiesOf (hst : Alike k s t) : Sessions.cookiesOf s.process = Sessions.cookiesOf t.process := by
  have huncounted := congrArg Process.clients hst.process
  have hclients : s.process.clients = t.process.clients := huncounted
  funext id host
  rw [Sessions.cookiesOf, Sessions.cookiesOf, hclients]

/-- A call begins in both. -/
theorem Alike.call (hst : Alike k s t) {who : ℕ} (cfg : RequestConfig) (hclosed : s.closed who = t.closed who) :
    Alike k (s.call who cfg) (t.call who cfg) := by
  rw [State.call, State.call, hclosed, hst.calls]
  split_ifs
  · exact hst
  · exact { hst with calls := rfl }

/-- A call gets the same client in both. -/
theorem Alike.acquire (hst : Alike k s t) (who i : ℕ) (m : Moment) :
    Alike k (s.acquire sha256 who i m) (t.acquire sha256 who i m) := by
  rw [State.acquire, State.acquire, hst.calls]
  split
  case h_2 => exact hst
  case h_1 cfg sent _ =>
    obtain ⟨hresult, hprocess⟩ := Process.uncounted_getOrCreate (s := s.process) sha256 m cfg
    obtain ⟨hresult', hprocess'⟩ := Process.uncounted_getOrCreate (s := t.process) sha256 m cfg
    rw [hst.process] at hresult hprocess
    refine { hst with process := hprocess.symm.trans hprocess', calls := ?_ }
    dsimp only [State.updateCall]
    rw [hst.calls, ← hresult, hresult']

/-- A request is sent in both. -/
theorem Alike.transmit (hst : Alike k s t) (who i : ℕ) (host : Bytes) :
    Alike k (s.transmit who i host) (t.transmit who i host) := by
  rw [State.transmit, State.transmit, hst.clientOf, hst.cookiesOf]
  split
  case h_1 => exact { hst with calls := by rw [State.updateCall, State.updateCall, hst.calls] }
  case h_2 => exact hst

/-- A response arrives in both. -/
theorem Alike.respond (hst : Alike k s t) (who i : ℕ) (host : Bytes) (cookies : List Cookie) :
    Alike k (s.respond who i host cookies) (t.respond who i host cookies) := by
  rw [State.respond, State.respond, hst.clientOf, hst.received]
  split
  case h_1 id _ =>
    exact { hst.map_process (f := fun p => p.receive id host cookies) fun _ => rfl with received := rfl }
  case h_2 => exact hst

/-- A session is closed in both. -/
theorem Alike.close (hst : Alike k s t) (who : ℕ) (class' : SessionKind) (part : ClosePart) :
    Alike k (s.close who class' part) (t.close who class' part) := by
  cases part with
  | mark =>
    rw [State.close, State.close]
    split_ifs
    · exact hst
    -- marking touches one entry, and the session's own is not compared
    refine { hst with closed := fun other hne => ?_ }
    dsimp only
    by_cases hother : other = who
    · rw [hother, Function.update_self, Function.update_self]
    · rw [Function.update_of_ne hother, Function.update_of_ne hother, hst.closed other hne]
  | pop =>
    rw [State.close, State.close]
    split_ifs
    · exact hst.registry_step (.closePop who)
    · exact hst
  | notify n =>
    -- who owns a request is not among what a close forgets
    have howner : ((s.registry.reqs[n]?).any fun r => r.owner = who) =
        (t.registry.reqs[n]?).any fun r => r.owner = who := by
      rw [← Async.State.any_owner_forget k, hst.registry, Async.State.any_owner_forget]
    rw [State.close, State.close, howner]
    split_ifs
    · exact hst.registry_step (.closeNotify n)
    · exact hst
  | clear =>
    rw [State.close, State.close]
    split_ifs
    · exact hst
    · exact hst.map_process (f := Process.clear) fun _ => rfl

/-- A step that is no part of the session's close does the same to both states. -/
theorem Alike.step (hst : Alike k s t) (hs : ofClose k (s.closed k) a = false)
    (ht : ofClose k (t.closed k) a = false) : Alike k (step sha256 kind s a) (step sha256 kind t a) := by
  cases a with
  | call who cfg =>
    refine hst.call cfg ?_
    -- the call is the session's own only while the session is open in both states
    by_cases hwho : who = k
    · subst hwho
      have hopen : s.closed who = false := by simpa [ofClose] using hs
      have hopen' : t.closed who = false := by simpa [ofClose] using ht
      rw [hopen, hopen']
    · exact hst.closed who hwho
  | acquire who i m => exact hst.acquire who i m
  | transmit who i host => exact hst.transmit who i host
  | respond who i host cookies => exact hst.respond who i host cookies
  | closing who part => exact hst.close who (kind who) part
  | registry a =>
    rw [Sessions.step, Sessions.step]
    split_ifs
    · exact hst
    · exact hst.registry_step a
  | evictStale toDelete cutoff now =>
    exact hst.map_process (f := fun p => p.evictStale toDelete cutoff now) fun _ => rfl
  | clearPool => exact hst.map_process (f := Process.clear) fun _ => rfl
  | setMaxEntries order entries =>
    exact hst.map_process (f := fun p => p.setMaxEntries order entries) fun _ =>
      Process.uncounted_setMaxEntries order entries

variable (sha256) in
/-- The session's close, and the calls that it has stopped, change nothing but what is the session's own. -/
theorem alike_close (hclose : ofClose k (s.closed k) a = true) (hok : Harmless kind k s a) :
    Alike k s (step sha256 kind s a) := by
  cases a with
  | closing who part =>
    obtain rfl : who = k := by simpa [ofClose] using hclose
    cases part with
    -- each part touches only what `Alike` leaves out, or a pool that is empty
    | mark =>
      rw [step, State.close]
      split_ifs
      · exact .refl who s
      · exact ⟨rfl, rfl, rfl, fun other hne => (Function.update_of_ne hne _ _).symm, rfl⟩
    | pop =>
      rw [step, State.close]
      split_ifs
      · exact { Alike.refl who s with registry := Async.State.forget_closePop.symm }
      · exact .refl who s
    | notify n =>
      rw [step, State.close]
      split_ifs with hnotify
      · exact { Alike.refl who s with registry := (Async.State.forget_closeNotify hnotify.2).symm }
      · exact .refl who s
    | clear =>
      rw [step, State.close]
      split_ifs with hcompat
      · exact .refl who s
      · have hempty := (hok rfl).resolve_left hcompat
        exact { Alike.refl who s with process := (Process.uncounted_clear_of_empty hempty).symm }
  | call who cfg =>
    obtain ⟨rfl, hclosed⟩ : who = k ∧ s.closed k = true := by simpa [ofClose] using hclose
    rw [step, State.call, if_pos hclosed]
    exact .refl who s
  | _ => contradiction

variable (sha256 kind k s a) in
/-- A session is closed by the steps that mark it. -/
theorem closed_step : (step sha256 kind s a).closed k = (s.closed k || marks kind k a) := by
  cases a with
  | call who cfg =>
    rw [step, State.call]
    split_ifs <;> exact (Bool.or_false _).symm
  | acquire who i m =>
    rw [step, State.acquire]
    split <;> exact (Bool.or_false _).symm
  | transmit who i host =>
    rw [step, State.transmit]
    split <;> exact (Bool.or_false _).symm
  | respond who i host cookies =>
    rw [step, State.respond]
    split <;> exact (Bool.or_false _).symm
  | closing who part =>
    -- of the four parts only `mark` writes to `closed`
    cases part with
    | mark =>
      rw [step, State.close, marks]
      split_ifs with hcompat
      · simp [hcompat]
      by_cases hwho : who = k
      · subst hwho
        simp [hcompat]
      · simp [hwho, Function.update_of_ne (Ne.symm hwho)]
    | pop =>
      rw [step, State.close]
      split_ifs <;> exact (Bool.or_false _).symm
    | notify n =>
      rw [step, State.close]
      split_ifs <;> exact (Bool.or_false _).symm
    | clear =>
      rw [step, State.close]
      split_ifs <;> exact (Bool.or_false _).symm
  | registry a =>
    rw [step]
    split_ifs <;> exact (Bool.or_false _).symm
  | evictStale toDelete cutoff now => exact (Bool.or_false _).symm
  | clearPool => exact (Bool.or_false _).symm
  | setMaxEntries order entries => exact (Bool.or_false _).symm

variable (kind) in
/-- What is no part of the close, and not stopped by it, is that in the run without the close too. -/
theorem ofClose_false {closed : Bool} (hnot : ofClose k closed a = false) :
    ofClose k false a = false ∧ marks kind k a = false := by
  cases a with
  | closing who part =>
    have hwho : who ≠ k := by simpa [ofClose] using hnot
    cases part <;> simp [ofClose, marks, hwho]
  | call who cfg => exact ⟨by simp [ofClose], rfl⟩
  | _ => exact ⟨rfl, rfl⟩

/-- A run does the same with the session's close as without it. -/
theorem alike_exec {as : List Action} (hrun : Run.Along (step sha256 kind) (Harmless kind k) s as)
    (hst : Alike k s t) (ht : t.closed k = false) :
    Alike k (Run.exec (step sha256 kind) s as)
      (Run.exec (step sha256 kind) t (withoutClose kind k (s.closed k) as)) := by
  induction as generalizing s t with
  | nil => exact hst
  | cons a as ih =>
    obtain ⟨hok, hrest⟩ := Run.along_cons.mp hrun
    rw [withoutClose, ← closed_step sha256]
    split_ifs with hclose
    · exact ih hrest ((alike_close sha256 hclose hok).symm.trans hst) ht
    · have hnot := Bool.eq_false_iff.mpr hclose
      obtain ⟨hopen, hmarks⟩ := ofClose_false kind hnot
      refine ih hrest (hst.step hnot (ht ▸ hopen)) ?_
      rw [closed_step, ht, hmarks, Bool.or_false]

/-- The states agree on what the sessions other than `k` have: their calls, with the cookies sent and received, the
pool and the clients, which hold the cookies, and the pending requests. -/
structure Spared (k : ℕ) (s t : State) : Prop where
  calls : ∀ other, other ≠ k → s.calls other = t.calls other
  received : ∀ other, other ≠ k → s.received other = t.received other
  pooled : s.process.pool.clientPool = t.process.pool.clientPool
  clients : s.process.clients = t.process.clients
  pending : ∀ (n : ℕ) (r : Async.Req), r.owner ≠ k → (s.registry.reqs[n]? = some r ↔ t.registry.reqs[n]? = some r)

/-- A session that is alike in both is spared. -/
theorem Alike.spared (hst : Alike k s t) : Spared k s t := by
  have hpooled := congrArg (fun p : Process => p.pool.clientPool) hst.process
  have hclients := congrArg Process.clients hst.process
  refine ⟨fun other _ => congrFun hst.calls other, fun other _ => congrFun hst.received other, hpooled, hclients, ?_⟩
  intro n r howner
  rw [← Async.State.getElem?_forget_iff howner, hst.registry, Async.State.getElem?_forget_iff howner]

/-- Where a session does not clear a pool that holds clients, its close changes nothing for the others, and nothing
in the run depends on whether and when it closes, but for its own later calls. -/
theorem close_spares_others {as : List Action} (has : Run.Along (step sha256 kind) (Harmless kind k) {} as) :
    (∀ bs part, bs ++ [.closing k part] <+: as →
      Spared k (Run.exec (step sha256 kind) {} bs) (Run.exec (step sha256 kind) {} (bs ++ [.closing k part]))) ∧
    ∀ cs, Run.Along (step sha256 kind) (Harmless kind k) {} cs →
      withoutClose kind k false as = withoutClose kind k false cs →
      Spared k (Run.exec (step sha256 kind) {} as) (Run.exec (step sha256 kind) {} cs) := by
  refine ⟨fun bs part hpre => ?_, fun cs hcs hsame => ?_⟩
  · have hok := (Run.along_append.mp (Run.along_prefix_of hpre has)).2.1
    rw [Run.exec_append]
    have hclose : ofClose k ((Run.exec (step sha256 kind) {} bs).closed k) (.closing k part) = true := by
      simp [ofClose]
    exact (alike_close sha256 hclose hok).spared
  · have hasAlike := alike_exec has (Alike.refl k {}) rfl
    have hcsAlike := alike_exec hcs (Alike.refl k {}) rfl
    rw [hsame] at hasAlike
    exact (hasAlike.trans hcsAlike.symm).spared

end Close

/-- The actions of `Session.close`. -/
def closeActions (who : ℕ) : List Action :=
  [.closing who .mark, .closing who .clear]

section Loss

variable (sha256 : Bytes → Bytes) (kind : ℕ → SessionKind) {m : Moment} {cfg : RequestConfig} {client : Client}

/-- After the close of a native session, the next request of another one carries none of its cookies. -/
theorem exists_closed_loss {k who : ℕ} (hkind : kind k ≠ .compat) (hne : who ≠ k)
    (hnew : newClient m.env cfg = .ok client) (host : Bytes) (c : Cookie) :
    let s := Run.exec (step sha256 kind) {}
      (oneResponse who m cfg host c ++ closeActions k ++ [.call who cfg, .acquire who 1 m])
    s.clientOf who 1 = some 1 ∧ cookiesOf s.process 1 host = [] := by
  obtain ⟨process, hget, hclients, -, -⟩ := exists_first sha256 hnew
  have hclosed : Run.exec (step sha256 kind) {} (oneResponse who m cfg host c ++ closeActions k) =
      { calls := Function.update (fun _ => []) who [⟨cfg, .got 0, []⟩]
        process := (process.receive 0 host [c]).clear
        received := Function.update (fun _ => []) who [(host, [c])]
        closed := Function.update (fun _ => false) k true } := by
    rw [Run.exec_append, exec_oneResponse sha256 kind who hget]
    simp [closeActions, step, State.close, hkind]
  rw [Run.exec_append]
  generalize Run.exec (step sha256 kind) {} (oneResponse who m cfg host c ++ closeActions k) = s at hclosed ⊢
  have hopen : s.closed who = false := by
    rw [hclosed]
    exact Function.update_of_ne hne _ fun _ => false
  have hlength : s.process.clients.length = 1 := by
    rw [hclosed, Process.clear, Process.receive, List.length_modify, hclients, List.length_singleton]
  obtain ⟨-, hclient, hcookies⟩ := exec_call_acquire_unpooled sha256 kind (i := 1) hopen (by rw [hclosed]; simp)
    (by rw [hclosed]; rfl) hnew
  rw [hlength] at hclient hcookies
  exact ⟨hclient, hcookies host⟩

end Loss

/-- The close of a compat session does not disturb the requests of another session. -/
theorem close_spares_others_compat :
    ∃ cfg, configOf oneIdentifier id chromeSession {} CacheKey.exampleArgs = .ok cfg ∧
      let kind : ℕ → SessionKind := fun who => if who = 0 then .compat else .sync
      let before := oneResponse 1 exampleMoment cfg (utf8 "h") { name := utf8 "sid", value := utf8 "1" }
      let again : List Action := [.call 1 cfg, .acquire 1 1 exampleMoment, .transmit 1 1 (utf8 "h")]
      Spared 0 (Run.exec (step id kind) {} (before ++ closeActions 0 ++ again))
        (Run.exec (step id kind) {} (before ++ again)) := by
  have hbuilt : ∃ cfg, configOf oneIdentifier id chromeSession {} CacheKey.exampleArgs = .ok cfg := ⟨_, rfl⟩
  obtain ⟨cfg, hconfig⟩ := hbuilt
  refine ⟨cfg, hconfig, ?_⟩
  have hharmless : ∀ as, Run.Along (step id fun who => if who = 0 then .compat else .sync)
      (Harmless (fun who => if who = 0 then .compat else .sync) 0) {} as := fun as =>
    Run.along_of_forall fun s a _ => harmless_of_compat rfl
  exact (close_spares_others (hharmless _)).2 _ (hharmless _) rfl

/-- A session that closes loses the cookies of another one. -/
theorem close_loses_cookies :
    ¬ ∀ (sha256 : Bytes → Bytes) (kind : ℕ → SessionKind) (k : ℕ) (as cs : List Action),
      (∀ who cfg, .call who cfg ∈ as ++ cs →
        configOf oneIdentifier sha256 chromeSession {} CacheKey.exampleArgs = .ok cfg) →
      withoutClose kind k false as = withoutClose kind k false cs → ∀ other, other ≠ k →
      ((Run.exec (step sha256 kind) {} as).calls other).map Call.sent =
        ((Run.exec (step sha256 kind) {} cs).calls other).map Call.sent := by
  intro hspares
  have hbuilt : ∃ cfg config, configOf oneIdentifier id chromeSession {} CacheKey.exampleArgs = .ok cfg ∧
      buildClientFromConfig exampleMoment.env cfg = .ok config ∧ cfg.withoutCookieJar = false :=
    ⟨_, _, rfl, rfl, rfl⟩
  obtain ⟨cfg, config, hconfig, hbuild, hjar⟩ := hbuilt
  obtain ⟨client, hnew⟩ := exists_newClient_of_build hbuild
  let c : Cookie := { name := utf8 "sid", value := utf8 "1" }
  have hvalue : c.value ≠ [] := by decide
  let before := oneResponse 1 exampleMoment cfg (utf8 "h") c
  let again : List Action := [.call 1 cfg, .acquire 1 1 exampleMoment]
  -- without the close the second request carries the cookie
  obtain ⟨hrun, hlive, hclient⟩ := exists_continued id (fun _ => .sync) 1 hnew hjar (utf8 "h") hvalue le_rfl
  have hbefore := continued_exec (Run.along_prefix_of (List.prefix_append _ _) hrun)
  have hkept := hbefore.kept 0 (holds_of_clientOf hclient) (utf8 "h") c hlive
  obtain ⟨call, hcall, hlast⟩ := sent_exec_transmit id (fun _ => .sync) (utf8 "h") hclient
  -- with the close it carries none
  obtain ⟨hclient', hnone⟩ := exists_closed_loss id (fun _ => .sync) (k := 0) (by decide) Nat.one_ne_zero hnew
    (utf8 "h") c
  obtain ⟨call', hcall', hlast'⟩ := sent_exec_transmit id (fun _ => .sync) (utf8 "h") hclient'
  have hsame := hspares id (fun _ => .sync) 0 (before ++ closeActions 0 ++ again ++ [.transmit 1 1 (utf8 "h")])
    (before ++ again ++ [.transmit 1 1 (utf8 "h")]) ?_ rfl 1 Nat.one_ne_zero
  · have hsent := congrArg (fun l => l[1]?) hsame
    rw [List.getElem?_map, List.getElem?_map, hcall, hcall', Option.map_some, Option.map_some] at hsent
    rw [Option.some.inj hsent, hlast, hnone] at hlast'
    obtain ⟨-, hcookies⟩ := Prod.mk.inj (Option.some.inj hlast')
    rw [hcookies] at hkept
    exact absurd hkept List.not_mem_nil
  · intro who other hmem
    obtain ⟨-, rfl⟩ : who = 1 ∧ other = cfg := by
      simpa [before, again, oneResponse, closeActions] using hmem
    exact hconfig

end TlsClient.Sessions
