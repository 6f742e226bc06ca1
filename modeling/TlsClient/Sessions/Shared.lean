import TlsClient.Async.Registry
import TlsClient.Engine.CookieHistory
import TlsClient.Engine.PoolSound

/-!
# The sessions of a process

The sessions of a Python process share the client pool of the engine and the table of pending async requests.
Embeds what a request of `src/tls_client/_core.py` does to them, with `executeRequestFromConfig` of
`src/cffi_binding/main.go`, and the `close` of the three session classes.

A session makes calls, which are numbered session by session. `execute_request` looks at `_closed`, the engine
takes a client from the pool, sends the request with the cookies of the client's jar, once or along redirects, and
hands the cookies of each response to the jar. Each of these is an action of its own, and so is each part of a
`close`: a run interleaves the sessions at all of these points.

`process_step_cases` says what an action does to the pool and the clients, `mem_calls_step` what it does to a call.
-/

namespace TlsClient.Sessions

open TlsClient.Ffi TlsClient.Engine

/-- `Session` and `AsyncSession` of `_core.py`, and `Session` of `requests_compat.py`. -/
inductive SessionKind where
  | sync
  | async
  | compat
deriving DecidableEq

/-- What `getOrCreateClientFromConfig` has given a call: nothing yet, an error, or a client. -/
inductive Acquired where
  | pending
  | failed
  | got (id : ℕ)
deriving DecidableEq

def Acquired.ofResult : Except Bytes ℕ → Acquired
  | .ok id => .got id
  | .error _ => .failed

/-- A request that has reached the engine. -/
structure Call where
  cfg : RequestConfig
  client : Acquired := .pending
  /-- the hosts it was sent to, each with the cookies that the jar added -/
  sent : List (Bytes × List Cookie) := []

structure State where
  process : Process := {}
  calls : ℕ → List Call := fun _ => []
  /-- the cookies of the responses to a session, with the hosts that sent them -/
  received : ℕ → List CookieJar.SetCall := fun _ => []
  /-- `_closed` -/
  closed : ℕ → Bool := fun _ => false
  /-- `_pending_requests`, with the futures and the event loops -/
  registry : Async.State := .init

/-- The parts of `close`. -/
inductive ClosePart where
  /-- `_closed = True` -/
  | mark
  /-- the entries of the session leave `_pending_requests`, under the lock -/
  | pop
  /-- the future of a request whose entry was popped is failed -/
  | notify (n : ℕ)
  /-- `lib.ClearClientPool()` -/
  | clear

inductive Action where
  | call (who : ℕ) (cfg : RequestConfig)
  | acquire (who i : ℕ) (m : Moment)
  | transmit (who i : ℕ) (host : Bytes)
  | respond (who i : ℕ) (host : Bytes) (cookies : List Cookie)
  | closing (who : ℕ) (part : ClosePart)
  /-- the callback, the timers and the event loops work on the registry -/
  | registry (a : Async.Action)
  | evictStale (toDelete : List Bytes) (cutoff now : ℤ)
  /-- `clear_client_pool`, called for itself -/
  | clearPool
  | setMaxEntries (order : List Bytes) (entries : ℤ)

/-- The cookies that the jar of a client adds to a request, none without a jar. -/
def cookiesOf (process : Process) (id : ℕ) (host : Bytes) : List Cookie :=
  ((process.clients[id]?.bind Client.jar).map fun jar => jar.cookies host).getD []

namespace State

/-- The client of the `i`th call of a session. -/
def clientOf (s : State) (who i : ℕ) : Option ℕ :=
  match (s.calls who)[i]? with
  | some ⟨_, .got id, _⟩ => some id
  | _ => none

def updateCall (s : State) (who i : ℕ) (f : Call → Call) : State :=
  { s with calls := Function.update s.calls who ((s.calls who).modify i f) }

/-- `execute_request`, up to the engine. -/
def call (s : State) (who : ℕ) (cfg : RequestConfig) : State :=
  if s.closed who then s else { s with calls := Function.update s.calls who (s.calls who ++ [{ cfg := cfg }]) }

/-- `getOrCreateClientFromConfig` for a call. -/
def acquire (sha256 : Bytes → Bytes) (s : State) (who i : ℕ) (m : Moment) : State :=
  match (s.calls who)[i]? with
  | some ⟨cfg, .pending, _⟩ =>
    let result := getOrCreateClientFromConfig sha256 m cfg s.process
    { s.updateCall who i fun call => { call with client := .ofResult result.1 } with process := result.2 }
  | _ => s

/-- The client sends the request of a call to a host. -/
def transmit (s : State) (who i : ℕ) (host : Bytes) : State :=
  match s.clientOf who i with
  | some id => s.updateCall who i fun call => { call with sent := call.sent ++ [(host, cookiesOf s.process id host)] }
  | none => s

/-- The client gets a response to a call. -/
def respond (s : State) (who i : ℕ) (host : Bytes) (cookies : List Cookie) : State :=
  match s.clientOf who i with
  | some id =>
    { s with
      process := s.process.receive id host cookies
      received := Function.update s.received who (s.received who ++ [(host, cookies)]) }
  | none => s

/-- A part of `close`. The `close` of a compat session marks its adapters, and nobody asks them; only an async
session has pending requests. -/
def close (s : State) (who : ℕ) (kind : SessionKind) : ClosePart → State
  | .mark => if kind = .compat then s else { s with closed := Function.update s.closed who true }
  | .pop => if kind = .async then { s with registry := s.registry.step (.closePop who) } else s
  | .notify n =>
    if kind = .async ∧ (s.registry.reqs[n]?).any fun r => r.owner = who then
      { s with registry := s.registry.step (.closeNotify n) }
    else s
  | .clear => if kind = .compat then s else { s with process := s.process.clear }

end State

/-- Only `close` takes these actions on the registry. -/
def isClosing : Async.Action → Bool
  | .closePop _ => true
  | .closeNotify _ => true
  | _ => false

/-- A step of the process, whose sessions have the given classes. -/
def step (sha256 : Bytes → Bytes) (kind : ℕ → SessionKind) (s : State) : Action → State
  | .call who cfg => s.call who cfg
  | .acquire who i m => s.acquire sha256 who i m
  | .transmit who i host => s.transmit who i host
  | .respond who i host cookies => s.respond who i host cookies
  | .closing who part => s.close who (kind who) part
  | .registry a => if isClosing a then s else { s with registry := s.registry.step a }
  | .evictStale toDelete cutoff now => { s with process := s.process.evictStale toDelete cutoff now }
  | .clearPool => { s with process := s.process.clear }
  | .setMaxEntries order entries => { s with process := s.process.setMaxEntries order entries }

section Steps

variable {sha256 : Bytes → Bytes} {kind : ℕ → SessionKind} {s : State} {a : Action} {who i id : ℕ}

/-! ## The calls of a session -/

/-- The client of a call, once it has one. -/
theorem clientOf_eq_some_iff :
    s.clientOf who i = some id ↔ ∃ call, (s.calls who)[i]? = some call ∧ call.client = .got id := by
  rw [State.clientOf]
  cases (s.calls who)[i]? with
  | none => simp
  | some call =>
    obtain ⟨cfg, client, sent⟩ := call
    cases client <;> simp

theorem calls_updateCall_self {f : Call → Call} :
    (s.updateCall who i f).calls who = (s.calls who).modify i f :=
  Function.update_self _ _ _

theorem calls_updateCall_of_ne {f : Call → Call} {other : ℕ} (hne : other ≠ who) :
    (s.updateCall who i f).calls other = s.calls other :=
  Function.update_of_ne hne _ _

/-- A call afterwards is one from before, or the changed one. -/
theorem mem_calls_updateCall {f : Call → Call} {call : Call} (hmem : call ∈ (s.updateCall who i f).calls who) :
    call ∈ s.calls who ∨ ∃ old, (s.calls who)[i]? = some old ∧ call = f old := by
  rw [calls_updateCall_self] at hmem
  obtain ⟨n, hn⟩ := List.mem_iff_getElem?.mp hmem
  rw [List.getElem?_modify] at hn
  obtain ⟨old, hold, rfl⟩ := Option.map_eq_some_iff.mp hn
  split_ifs with hi
  · exact .inr ⟨old, hi ▸ hold, rfl⟩
  · exact .inl (List.mem_of_getElem? hold)

/-- A call after one changed. -/
theorem getElem?_calls_updateCall (s : State) (other n : ℕ) (f : Call → Call) (who i : ℕ) :
    ((s.updateCall other n f).calls who)[i]? =
      if who = other ∧ n = i then ((s.calls who)[i]?).map f else (s.calls who)[i]? := by
  by_cases hwho : who = other
  · subst hwho
    rw [calls_updateCall_self, List.getElem?_modify]
    cases (s.calls who)[i]? with
    | none => simp
    | some call =>
      by_cases hn : n = i
      · simp [hn]
      · simp [hn]
  · rw [calls_updateCall_of_ne hwho, if_neg fun h => hwho h.1]

theorem calls_close (s : State) (who : ℕ) (k : SessionKind) (part : ClosePart) :
    (s.close who k part).calls = s.calls := by
  cases part <;> rw [State.close] <;> split_ifs <;> rfl

/-- What a step can do to a call of a session. -/
inductive CallStep (sha256 : Bytes → Bytes) (s : State) (who : ℕ) : Action → Call → Prop
  | kept {a : Action} {call : Call} : call ∈ s.calls who → CallStep sha256 s who a call
  | made {cfg : RequestConfig} : CallStep sha256 s who (.call who cfg) { cfg := cfg }
  | acquired {i : ℕ} {m : Moment} {old : Call} : (s.calls who)[i]? = some old → old.client = .pending →
      CallStep sha256 s who (.acquire who i m)
        { old with client := .ofResult (getOrCreateClientFromConfig sha256 m old.cfg s.process).1 }
  | transmitted {i id : ℕ} {host : Bytes} {old : Call} : (s.calls who)[i]? = some old → old.client = .got id →
      CallStep sha256 s who (.transmit who i host)
        { old with sent := old.sent ++ [(host, cookiesOf s.process id host)] }

/-- A call after a step is one from before, or what the step made of it. -/
theorem mem_calls_step {call : Call} (hmem : call ∈ (step sha256 kind s a).calls who) :
    CallStep sha256 s who a call := by
  cases a with
  | call other cfg =>
    rw [step, State.call] at hmem
    split_ifs at hmem
    · exact .kept hmem
    dsimp only at hmem
    -- only the steps of the session's own calls change its list, and one call at a time
    by_cases hwho : who = other
    · subst hwho
      rw [Function.update_self] at hmem
      rcases List.mem_append.mp hmem with hold | hnew
      · exact .kept hold
      · obtain rfl := List.mem_singleton.mp hnew
        exact .made
    · rw [Function.update_of_ne hwho] at hmem
      exact .kept hmem
  | acquire other i m =>
    rw [step, State.acquire] at hmem
    split at hmem
    case h_2 => exact .kept hmem
    case h_1 cfg sent hold =>
      by_cases hwho : who = other
      · subst hwho
        rcases mem_calls_updateCall hmem with hkept | ⟨old, hget, rfl⟩
        · exact .kept hkept
        · obtain rfl := Option.some.inj (hold.symm.trans hget)
          exact .acquired hget rfl
      · exact .kept (calls_updateCall_of_ne hwho ▸ hmem)
  | transmit other i host =>
    rw [step, State.transmit] at hmem
    split at hmem
    case h_2 => exact .kept hmem
    case h_1 id hclient =>
      by_cases hwho : who = other
      · subst hwho
        obtain ⟨old, hget, hgot⟩ := clientOf_eq_some_iff.mp hclient
        rcases mem_calls_updateCall hmem with hkept | ⟨old', hget', rfl⟩
        · exact .kept hkept
        · obtain rfl := Option.some.inj (hget.symm.trans hget')
          exact .transmitted hget hgot
      · exact .kept (calls_updateCall_of_ne hwho ▸ hmem)
  | respond other i host cookies =>
    rw [step, State.respond] at hmem
    split at hmem
    · exact .kept hmem
    · exact .kept hmem
  | closing other part =>
    rw [step, calls_close] at hmem
    exact .kept hmem
  | registry a =>
    rw [step] at hmem
    split_ifs at hmem
    · exact .kept hmem
    · exact .kept hmem
  | evictStale toDelete cutoff now => exact .kept hmem
  | clearPool => exact .kept hmem
  | setMaxEntries order entries => exact .kept hmem

variable (sha256 kind a) in
/-- A call keeps its client. -/
theorem clientOf_step (hclient : s.clientOf who i = some id) : (step sha256 kind s a).clientOf who i = some id := by
  obtain ⟨call, hget, hgot⟩ := clientOf_eq_some_iff.mp hclient
  refine clientOf_eq_some_iff.mpr ?_
  cases a with
  | call other cfg =>
    rw [step, State.call]
    split_ifs
    · exact ⟨call, hget, hgot⟩
    refine ⟨call, ?_, hgot⟩
    dsimp only
    by_cases hwho : who = other
    · subst hwho
      rw [Function.update_self, List.getElem?_append_left (List.getElem?_eq_some_iff.mp hget).1]
      exact hget
    · rw [Function.update_of_ne hwho]
      exact hget
  | acquire other n m =>
    rw [step, State.acquire]
    split
    case h_2 => exact ⟨call, hget, hgot⟩
    case h_1 cfg sent hpending =>
      refine ⟨call, ?_, hgot⟩
      dsimp only
      rw [getElem?_calls_updateCall, if_neg ?_]
      · exact hget
      · -- a call that has a client does not get one
        rintro ⟨rfl, rfl⟩
        obtain rfl := Option.some.inj (hpending.symm.trans hget)
        contradiction
  | transmit other n host =>
    rw [step, State.transmit]
    split
    case h_2 => exact ⟨call, hget, hgot⟩
    case h_1 =>
      rw [getElem?_calls_updateCall, hget]
      split_ifs
      · exact ⟨_, rfl, hgot⟩
      · exact ⟨call, rfl, hgot⟩
  | respond other n host cookies =>
    rw [step, State.respond]
    split
    · exact ⟨call, hget, hgot⟩
    · exact ⟨call, hget, hgot⟩
  | closing other part =>
    rw [step, calls_close]
    exact ⟨call, hget, hgot⟩
  | registry a =>
    rw [step]
    split_ifs
    · exact ⟨call, hget, hgot⟩
    · exact ⟨call, hget, hgot⟩
  | evictStale toDelete cutoff now => exact ⟨call, hget, hgot⟩
  | clearPool => exact ⟨call, hget, hgot⟩
  | setMaxEntries order entries => exact ⟨call, hget, hgot⟩

/-- Only a response changes what a session has received. -/
theorem received_step (sha256 : Bytes → Bytes) (kind : ℕ → SessionKind) (s : State) (a : Action) :
    (step sha256 kind s a).received = s.received ∨
      ∃ other n host cookies id, a = .respond other n host cookies ∧ s.clientOf other n = some id ∧
        (step sha256 kind s a).received = Function.update s.received other (s.received other ++ [(host, cookies)]) := by
  -- `respond` is the one step that delivers
  cases a with
  | respond other n host cookies =>
    rw [step, State.respond]
    split
    case h_1 id hclient => exact .inr ⟨other, n, host, cookies, id, rfl, hclient, rfl⟩
    case h_2 => exact .inl rfl
  | call other cfg =>
    rw [step, State.call]
    split_ifs <;> exact .inl rfl
  | acquire other n m =>
    rw [step, State.acquire]
    split <;> exact .inl rfl
  | transmit other n host =>
    rw [step, State.transmit]
    split <;> exact .inl rfl
  | closing other part => cases part <;> rw [step, State.close] <;> split_ifs <;> exact .inl rfl
  | registry a =>
    rw [step]
    split_ifs <;> exact .inl rfl
  | evictStale toDelete cutoff now => exact .inl rfl
  | clearPool => exact .inl rfl
  | setMaxEntries order entries => exact .inl rfl

/-! ## The pool and the clients -/

/-- A cleared pool keeps its clients alive, and finds no others. -/
theorem process_clear (s : State) :
    s.process.clear.clients = s.process.clients ∧
      ∀ key id, s.process.clear.pool.clientAt key = some id → s.process.pool.clientAt key = some id :=
  ⟨rfl, fun key id hid => absurd ((Pool.clientAt_clearClientPool s.process.pool key).symm.trans hid)
    (Option.some_ne_none id).symm⟩

/-- Closing takes entries from the pool at most. -/
theorem process_close (s : State) (who : ℕ) (k : SessionKind) (part : ClosePart) :
    (s.close who k part).process.clients = s.process.clients ∧ ∀ key id,
      (s.close who k part).process.pool.clientAt key = some id → s.process.pool.clientAt key = some id := by
  cases part with
  | clear =>
    rw [State.close]
    split_ifs
    · exact ⟨rfl, fun _ _ h => h⟩
    · exact process_clear s
  | mark =>
    rw [State.close]
    split_ifs <;> exact ⟨rfl, fun _ _ h => h⟩
  | pop =>
    rw [State.close]
    split_ifs <;> exact ⟨rfl, fun _ _ h => h⟩
  | notify n =>
    rw [State.close]
    split_ifs <;> exact ⟨rfl, fun _ _ h => h⟩

/-- What a step can do to the pool and the clients. -/
theorem process_step_cases (sha256 : Bytes → Bytes) (kind : ℕ → SessionKind) (s : State) (a : Action) :
    (∃ who i m call, a = .acquire who i m ∧ (s.calls who)[i]? = some call ∧ call.client = .pending ∧
      (step sha256 kind s a).process = (getOrCreateClientFromConfig sha256 m call.cfg s.process).2) ∨
    (∃ who i host cookies id, a = .respond who i host cookies ∧ s.clientOf who i = some id ∧
      (step sha256 kind s a).process = s.process.receive id host cookies) ∨
    ((step sha256 kind s a).process.clients = s.process.clients ∧ ∀ key id,
      (step sha256 kind s a).process.pool.clientAt key = some id → s.process.pool.clientAt key = some id) := by
  -- the pool grows by `acquire` alone; every other step keeps or drops entries
  cases a with
  | call who cfg =>
    refine .inr (.inr ?_)
    rw [step, State.call]
    split_ifs
    · exact ⟨rfl, fun _ _ h => h⟩
    · exact ⟨rfl, fun _ _ h => h⟩
  | acquire who i m =>
    rw [step, State.acquire]
    split
    case h_1 cfg sent hcall => exact .inl ⟨who, i, m, _, rfl, hcall, rfl, rfl⟩
    case h_2 => exact .inr (.inr ⟨rfl, fun _ _ h => h⟩)
  | transmit who i host =>
    refine .inr (.inr ?_)
    rw [step, State.transmit]
    split
    · exact ⟨rfl, fun _ _ h => h⟩
    · exact ⟨rfl, fun _ _ h => h⟩
  | respond who i host cookies =>
    rw [step, State.respond]
    split
    case h_1 id hclient => exact .inr (.inl ⟨who, i, host, cookies, id, rfl, hclient, rfl⟩)
    case h_2 => exact .inr (.inr ⟨rfl, fun _ _ h => h⟩)
  | closing who part => exact .inr (.inr (process_close s who (kind who) part))
  | registry a =>
    refine .inr (.inr ?_)
    rw [step]
    split_ifs
    · exact ⟨rfl, fun _ _ h => h⟩
    · exact ⟨rfl, fun _ _ h => h⟩
  | evictStale toDelete cutoff now => exact .inr (.inr ⟨rfl, fun _ _ => Pool.clientAt_evictStaleEntries⟩)
  | clearPool => exact .inr (.inr (process_clear s))
  | setMaxEntries order entries =>
    exact .inr (.inr ⟨rfl, fun _ _ => Pool.clientAt_setPoolMaxEntries order entries⟩)

/-- A call that begins changes nothing of the process. -/
theorem process_call (cfg : RequestConfig) : (step sha256 kind s (.call who cfg)).process = s.process := by
  rw [step, State.call]
  split_ifs
  · rfl
  · rfl

/-- A call that gets its client changes the pool. -/
theorem process_acquire {m : Moment} {call : Call} (hget : (s.calls who)[i]? = some call)
    (hpending : call.client = .pending) : (step sha256 kind s (.acquire who i m)).process =
      (getOrCreateClientFromConfig sha256 m call.cfg s.process).2 := by
  obtain ⟨cfg, client, sent⟩ := call
  obtain rfl : client = .pending := hpending
  rw [step, State.acquire, hget]

/-- The pool holds clients that have been built. -/
def Valid (s : State) : Prop :=
  ∀ key id, s.process.pool.clientAt key = some id → id < s.process.clients.length

theorem valid_init : Valid {} := by
  intro key id hid
  simp [Pool.clientAt, Pool.load] at hid

/-- Every step keeps the state valid. -/
theorem valid_step (hs : Valid s) : Valid (step sha256 kind s a) := by
  intro key id hid
  rcases process_step_cases sha256 kind s a with ⟨who, i, m, call, -, -, -, hprocess⟩ |
      ⟨who, i, host, cookies, id', -, -, hprocess⟩ | ⟨hclients, hpool⟩
  · rw [hprocess] at hid ⊢
    rcases getOrCreate_cases sha256 m call.cfg s.process with ⟨id', -, heq⟩ | ⟨-, err, heq⟩ |
        ⟨-, client, pool, -, heq, -, hpool⟩
    · rw [heq] at hid ⊢
      rw [Pool.clientAt_touch] at hid
      exact hs key id hid
    · rw [heq] at hid ⊢
      exact hs key id hid
    · rw [heq] at hid ⊢
      dsimp only at hid ⊢
      rw [List.length_append, List.length_singleton]
      rcases hpool key id hid with ⟨-, rfl⟩ | hold
      · exact Nat.lt_succ_self _
      · exact Nat.lt_succ_of_lt (hs key id hold)
  · rw [hprocess] at hid ⊢
    rw [Process.receive, List.length_modify]
    exact hs key id hid
  · rw [hclients]
    exact hs key id (hpool key id hid)

variable (sha256 kind a) in
/-- A client stays as it is until it gets a response. -/
theorem client_step {client : Client} (hclient : s.process.clients[id]? = some client) :
    (step sha256 kind s a).process.clients[id]? = some client ∨
      ∃ who i host cookies, a = .respond who i host cookies ∧ s.clientOf who i = some id ∧
        (step sha256 kind s a).process.clients[id]? = some (client.receive host cookies) := by
  rcases process_step_cases sha256 kind s a with ⟨who, i, m, call, -, -, -, hprocess⟩ |
      ⟨who, i, host, cookies, id', ha, hof, hprocess⟩ | ⟨hclients, -⟩
  · refine .inl ?_
    rw [hprocess]
    rcases getOrCreate_cases sha256 m call.cfg s.process with ⟨id', -, heq⟩ | ⟨-, err, heq⟩ |
        ⟨-, new, pool, -, heq, -, -⟩
    · rw [heq]
      exact hclient
    · rw [heq]
      exact hclient
    · rw [heq, List.getElem?_append_left (List.getElem?_eq_some_iff.mp hclient).1]
      exact hclient
  · rw [hprocess, Process.getElem?_receive, hclient]
    split_ifs with hid
    · exact .inr ⟨who, i, host, cookies, ha, hid ▸ hof, rfl⟩
    · exact .inl rfl
  · rw [hclients]
    exact .inl hclient

variable (sha256 kind a) in
/-- What a client was built from does not change. -/
theorem source_step {client : Client} (hclient : s.process.clients[id]? = some client) :
    ∃ client', (step sha256 kind s a).process.clients[id]? = some client' ∧ client'.source = client.source := by
  rcases client_step sha256 kind a hclient with hsame | ⟨who, i, host, cookies, -, -, hreceived⟩
  · exact ⟨client, hsame, rfl⟩
  · exact ⟨_, hreceived, rfl⟩

/-- The config asks for a client without a jar or with one, and a client pooled under its key is such a client. -/
def FindsJar (sha256 : Bytes → Bytes) (s : State) (cfg : RequestConfig) (without : Bool) : Prop :=
  cfg.withoutCookieJar = without ∧ ∀ id client, s.process.pool.clientAt (poolKey sha256 cfg) = some id →
    s.process.clients[id]? = some client → client.source.withoutCookieJar = without

/-- A call that finds what it asks for gets such a client. -/
theorem exists_client_of_acquired {m : Moment} {cfg : RequestConfig} {without : Bool} (hs : Valid s)
    (hjar : FindsJar sha256 s cfg without)
    (hgot : Acquired.ofResult (getOrCreateClientFromConfig sha256 m cfg s.process).1 = .got id) :
    ∃ client, (getOrCreateClientFromConfig sha256 m cfg s.process).2.clients[id]? = some client ∧
      client.source.withoutCookieJar = without := by
  rcases getOrCreate_cases sha256 m cfg s.process with ⟨id', hat, heq⟩ | ⟨-, err, heq⟩ |
      ⟨-, client, pool, hnew, heq, -, -⟩
  · rw [heq] at hgot ⊢
    obtain rfl := Acquired.got.inj hgot
    have hclient := List.getElem?_eq_getElem (hs _ _ hat)
    exact ⟨_, hclient, hjar.2 _ _ hat hclient⟩
  · rw [heq] at hgot
    contradiction
  · rw [heq] at hgot ⊢
    obtain rfl := Acquired.got.inj hgot
    refine ⟨client, List.getElem?_concat_length, ?_⟩
    rw [newClient_eq_ok hnew]
    exact hjar.1

/-- Where every pooled client is filed under the key of its config, a call finds what it asks for. -/
theorem findsJar_of_filed {cfg : RequestConfig} (hsha : Function.Injective sha256) (hne : ∀ b, sha256 b ≠ [])
    (hfiled : Filed sha256 s.process) (hsep : cfg.toClientFields.Separable) (hhonest : cfg.Honest sha256) :
    FindsJar sha256 s cfg cfg.withoutCookieJar := by
  refine ⟨rfl, fun id client hat hclient => ?_⟩
  obtain ⟨source, hsource, hsource_sep, hkey⟩ := hfiled _ _ hat
  obtain rfl : client.source = source := by
    rw [hclient] at hsource
    exact Option.some.inj hsource
  have hpreimage := hsha (Utf8.hexText_injective (hkey.symm.trans hhonest))
  have hfields := CacheKey.fields_eq_of_preimage_eq hsha hne hsource_sep hsep hpreimage
  have hflag := congrArg (fun fields : ClientFields => fields.withoutCookieJar) hfields
  exact hflag

/-! ## A new client -/

/-- The last element is changed. -/
theorem modify_concat {α : Type} (l : List α) (x : α) (f : α → α) : (l ++ [x]).modify l.length f = l ++ [f x] := by
  induction l with
  | nil => rfl
  | cons y l ih => rw [List.cons_append, List.length_cons, List.modify_succ_cons, ih, List.cons_append]

/-- What a request of a call with a client does. -/
theorem step_transmit {host : Bytes} (hclient : s.clientOf who i = some id) :
    step sha256 kind s (.transmit who i host) =
      s.updateCall who i fun call => { call with sent := call.sent ++ [(host, cookiesOf s.process id host)] } := by
  rw [step, State.transmit, hclient]

variable (sha256 kind) in
/-- A request carries the cookies of its client's jar. -/
theorem sent_exec_transmit {as : List Action} (host : Bytes)
    (hclient : (Run.exec (step sha256 kind) s as).clientOf who i = some id) :
    ∃ call, ((Run.exec (step sha256 kind) s (as ++ [.transmit who i host])).calls who)[i]? = some call ∧
      call.sent.getLast? = some (host, cookiesOf (Run.exec (step sha256 kind) s as).process id host) := by
  obtain ⟨call, hget, -⟩ := clientOf_eq_some_iff.mp hclient
  rw [Run.exec_append, Run.exec_cons, Run.exec_nil, step_transmit hclient, getElem?_calls_updateCall, if_pos ⟨rfl, rfl⟩,
    hget]
  exact ⟨_, rfl, List.getLast?_concat⟩

/-- What a response to a call with a client does. -/
theorem step_respond {host : Bytes} {cookies : List Cookie} (hclient : s.clientOf who i = some id) :
    step sha256 kind s (.respond who i host cookies) =
      { s with
        process := s.process.receive id host cookies
        received := Function.update s.received who (s.received who ++ [(host, cookies)]) } := by
  rw [step, State.respond, hclient]

/-- A call of an open session that gets a client. -/
theorem exec_call_acquire {m : Moment} {cfg : RequestConfig} {process : Process} (hopen : s.closed who = false)
    (hi : (s.calls who).length = i)
    (hget : getOrCreateClientFromConfig sha256 m cfg s.process = (.ok id, process)) :
    Run.exec (step sha256 kind) s [.call who cfg, .acquire who i m] =
      { s with calls := Function.update s.calls who (s.calls who ++ [⟨cfg, .got id, []⟩]), process := process } := by
  subst hi
  simp [step, State.call, State.acquire, State.updateCall, hopen, hget, Acquired.ofResult, modify_concat]

/-- A new client has a new jar, unless it is to have none. -/
theorem jar_newClient {env : Environment} {cfg : RequestConfig} {client : Client} (hnew : newClient env cfg = .ok client)
    (hjar : cfg.withoutCookieJar = false) : client.jar = some (newCookieJar cfg.toClientFields) := by
  rw [newClient] at hnew
  split at hnew
  case h_2 => contradiction
  case h_1 config hbuild =>
    obtain rfl := Except.ok.inj hnew
    exact (cookieJar_buildClientFromConfig hbuild).trans (if_pos hjar)

theorem jar_receive (client : Client) (host : Bytes) (cookies : List Cookie) :
    (client.receive host cookies).jar = client.jar.map fun jar => jar.setCookies host cookies := rfl

/-- A client sends the cookies of its jar. -/
theorem cookiesOf_of_jar {process : Process} {client : Client} {jar : CookieJar}
    (hclient : process.clients[id]? = some client) (hjar : client.jar = some jar) (host : Bytes) :
    cookiesOf process id host = jar.cookies host := by
  rw [cookiesOf, hclient, Option.bind_some, hjar]
  rfl

/-- A new jar keeps a cookie that has a value. -/
theorem cookies_newCookieJar (fields : ClientFields) (host : Bytes) {c : Cookie} (hvalue : c.value ≠ [])
    (hage : 0 ≤ c.maxAge) : ((newCookieJar fields).setCookies host [c]).cookies host = [c] := by
  have hnonEmpty : (newCookieJar fields).nonEmpty [c] = [c] := by
    rw [CookieJar.nonEmpty]
    split_ifs
    · rfl
    · simp [hvalue]
  have hheld : ((newCookieJar fields).setCookies host [c]).held (CookieJar.buildCookieHostKey host) = [c] := by
    rw [CookieJar.held_setCookies, hnonEmpty]
    rfl
  rw [CookieJar.cookies, hheld]
  simp [hage]

end Steps

end TlsClient.Sessions
