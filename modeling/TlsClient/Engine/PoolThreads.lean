import TlsClient.Engine.Pool
import TlsClient.Library.OnceRegister
import TlsClient.Library.Run

/-!
# The pool under concurrent calls

`Engine.Pool` takes each operation on the pool as one step. Here a call is a thread, and its accesses to
`clientPool`, to the access times, to the counters and to `clientPoolMu` (`src/cffi_binding/main.go`) are
its steps, which those of other threads interleave with. A pool entry is a number into `entries`, as the
Go map holds pointers to entries: a lookup that found an entry may store its access time after the entry
has left the map. A counter that is changed next to the map under the lock is changed in the same step.

`log` lists what happened to the pool, oldest first.
-/

namespace TlsClient.Engine.PoolThreads

open TlsClient.Ffi

/-- `poolEntry`. -/
structure Entry where
  client : ℕ
  lastAccess : ℤ
deriving DecidableEq

/-- What a thread is asked to do. -/
inductive Job where
  | getOrCreate (key : Bytes)
  | evictStale
  | setMaxEntries (entries : ℤ)
  | setTTL (seconds : ℤ)
  | clear
deriving DecidableEq

/-- What a thread waits for the lock for. -/
inductive Errand where
  | getOrCreate (key : Bytes)
  | evictStale (cutoff : ℤ) (toDelete : List Bytes)
  | evictLRU
  | clear
deriving DecidableEq

/-- The data of one `evictLRUOverCapLocked`. -/
structure Sweep where
  protectedKey : Bytes
  maxEntries : ℤ
  /-- the candidates and the access times read from them -/
  seen : List (Bytes × ℤ) := []
  live : ℤ := 0
  victims : List Bytes := []
deriving DecidableEq

/-- The victims of a sweep: as many of the candidates, the least recently used ones, as the pool is over
its capacity. -/
def Sweep.choose (sweep : Sweep) : List Bytes :=
  let excess := min (sweep.seen.length + sweep.live - sweep.maxEntries) sweep.seen.length
  ((sweep.seen.insertionSort fun a b => a.2 ≤ b.2).take excess.toNat).map Prod.fst

/-- Where a thread stands; the access named comes next. -/
inductive Phase where
  | idle
  /-- the first `clientPool.Load` of a call -/
  | lookup (key : Bytes)
  /-- the store of the access time, after a lookup that found the entry -/
  | touch (entry : ℕ) (holdsLock : Bool)
  /-- the scan of `evictStaleEntries` -/
  | collect (cutoff : ℤ) (toDelete : List Bytes)
  | lock (errand : Errand)
  /-- the second `clientPool.Load` of a call -/
  | lookupLocked (key : Bytes)
  | build (key : Bytes)
  /-- `poolMaxEntries.Load`; `created` is the client this call has stored -/
  | loadMax (protectedKey : Bytes) (created : Option ℕ)
  | scan (sweep : Sweep) (rest : List Bytes) (created : Option ℕ)
  | evict (sweep : Sweep) (rest : List Bytes) (created : Option ℕ)
  /-- the re-check of the access time of the first key -/
  | recheck (cutoff : ℤ) (rest : List Bytes) (evicted : ℕ)
  /-- the deletion of the entry whose access time was read as `lastAccess` -/
  | expire (cutoff : ℤ) (key : Bytes) (entry : ℕ) (lastAccess : ℤ) (rest : List Bytes) (evicted : ℕ)
  | clear (rest : List Bytes)
  /-- `clientPoolMu.Unlock`; `swept` is what an eviction over the capacity has done -/
  | unlock (swept : Option Sweep) (result : Option ℕ)
  | returned (result : Option ℕ)
deriving DecidableEq

inductive Event where
  /-- a lookup of the call found the client -/
  | found (call : ℕ) (key : Bytes) (client : ℕ)
  /-- the call built the client and stored it -/
  | created (call : ℕ) (key : Bytes) (client : ℕ)
  | failed (call : ℕ) (key : Bytes)
  | evicted (key : Bytes)
  | expired (key : Bytes) (entry : ℕ) (lastAccess cutoff : ℤ)
  | cleared (key : Bytes)
deriving DecidableEq

structure State where
  clientPool : AList fun _ : Bytes => ℕ := ∅
  entries : List Entry := []
  /-- the number of clients built -/
  clients : ℕ := 0
  poolEntryCount : ℤ := 0
  poolMaxEntries : ℤ := 1024
  poolTTLNs : ℤ := 300 * 1000000000
  totalEvictions : ℤ := 0
  lastEvictionCount : ℤ := 0
  lastEvictionTime : ℤ := 0
  /-- the thread that holds `clientPoolMu` -/
  owner : Option ℕ := none
  /-- what each thread has been asked to do -/
  jobs : ℕ → Option Job := fun _ => none
  phases : ℕ → Phase := fun _ => .idle
  log : List Event := []

/-- What the surroundings decide in a step: the time, the key a scan visits, the order of a `Range`, and
whether a client can be built. -/
structure Choice where
  now : ℤ := 0
  visit : Option Bytes := none
  order : List Bytes := []
  builds : Bool := true

namespace State

def goto (s : State) (t : ℕ) (phase : Phase) : State :=
  { s with phases := Function.update s.phases t phase }

def record (s : State) (e : Event) : State :=
  { s with log := s.log ++ [e] }

/-- The entry under a key. -/
def load (s : State) (key : Bytes) : Option (ℕ × Entry) :=
  (s.clientPool.lookup key).bind fun e => (s.entries[e]?).map fun entry => (e, entry)

/-- The keys in the order in which a `Range` visits them. -/
def rangeKeys (s : State) (order : List Bytes) : List Bytes :=
  s.clientPool.keys.insertionSort fun a b => order.idxOf a ≤ order.idxOf b

/-- `pe.lastAccess.Store(now)`. -/
def touch (s : State) (entry : ℕ) (now : ℤ) : State :=
  { s with entries := s.entries.modify entry fun pe => { pe with lastAccess := now } }

/-- `clientPool.Delete(key)` and what is recorded with it. -/
def remove (s : State) (key : Bytes) (e : Event) : State :=
  { s.record e with
    clientPool := s.clientPool.erase key
    poolEntryCount := s.poolEntryCount - 1 }

/-- The start of a job on an idle thread. -/
def begin (s : State) (t : ℕ) (now : ℤ) : Job → State
  | .getOrCreate key => s.goto t (.lookup key)
  | .evictStale =>
    let ttl := if s.poolTTLNs ≤ 0 then 300 * 1000000000 else s.poolTTLNs
    s.goto t (.collect (now - ttl) [])
  | .setMaxEntries entries =>
    { s.goto t (.lock .evictLRU) with poolMaxEntries := if entries < 0 then 1024 else entries }
  | .setTTL seconds =>
    { s.goto t (.returned none) with
      poolTTLNs := (if seconds ≤ 0 then 300 else seconds) * 1000000000 }
  | .clear => s.goto t (.lock .clear)

/-- The first step with the lock. -/
def enter (s : State) (order : List Bytes) : Errand → Phase
  | .getOrCreate key => .lookupLocked key
  | .evictStale cutoff toDelete => .recheck cutoff toDelete 0
  | .evictLRU => .loadMax [] none
  | .clear => .clear (s.rangeKeys order)

/-- One step of a thread. -/
def advance (s : State) (t : ℕ) (c : Choice) : State :=
  match s.phases t with
  | .idle => s
  | .lookup key =>
    match s.load key with
    | some (e, entry) => (s.record (.found t key entry.client)).goto t (.touch e false)
    | none => s.goto t (.lock (.getOrCreate key))
  | .touch e holdsLock =>
    let result := (s.entries[e]?).map Entry.client
    (s.touch e c.now).goto t (if holdsLock then .unlock none result else .returned result)
  | .collect cutoff toDelete =>
    match c.visit with
    | none => s.goto t (.lock (.evictStale cutoff toDelete))
    | some key =>
      match s.load key with
      | some (_, entry) =>
        if entry.lastAccess < cutoff then s.goto t (.collect cutoff (toDelete ++ [key])) else s
      | none => s
  | .lock errand =>
    match s.owner with
    | some _ => s
    | none => { s.goto t (s.enter c.order errand) with owner := some t }
  | .lookupLocked key =>
    match s.load key with
    | some (e, entry) => (s.record (.found t key entry.client)).goto t (.touch e true)
    | none => s.goto t (.build key)
  | .build key =>
    if c.builds then
      -- the new entry is stored and counted; only then does the call look at the capacity
      { (s.record (.created t key s.clients)).goto t (.loadMax key (some s.clients)) with
        clientPool := s.clientPool.insert key s.entries.length
        entries := s.entries ++ [⟨s.clients, c.now⟩]
        clients := s.clients + 1
        poolEntryCount := s.poolEntryCount + 1 }
    else (s.record (.failed t key)).goto t (.unlock none none)
  | .loadMax protectedKey created =>
    if s.poolMaxEntries ≤ 0 then s.goto t (.unlock none created)
    else
      s.goto t (.scan { protectedKey, maxEntries := s.poolMaxEntries } (s.rangeKeys c.order) created)
  | .scan sweep (key :: rest) created =>
    if key = sweep.protectedKey then s.goto t (.scan { sweep with live := sweep.live + 1 } rest created)
    else
      match s.load key with
      | some (_, entry) =>
        s.goto t (.scan { sweep with seen := sweep.seen ++ [(key, entry.lastAccess)] } rest created)
      | none => s.goto t (.scan sweep rest created)
  | .scan sweep [] created =>
    let sweep := { sweep with victims := sweep.choose }
    { s.goto t (.evict sweep sweep.victims created) with
      poolEntryCount := sweep.seen.length + sweep.live }
  | .evict sweep (key :: rest) created =>
    (s.remove key (.evicted key)).goto t (.evict sweep rest created)
  | .evict sweep [] created =>
    { s.goto t (.unlock (some sweep) created) with
      totalEvictions := s.totalEvictions + sweep.victims.length }
  | .recheck cutoff (key :: rest) evicted =>
    match s.load key with
    | some (e, entry) =>
      if cutoff ≤ entry.lastAccess then s.goto t (.recheck cutoff rest evicted)
      else s.goto t (.expire cutoff key e entry.lastAccess rest evicted)
    | none => s.goto t (.recheck cutoff rest evicted)
  | .recheck _ [] evicted =>
    { s.goto t (.unlock none none) with
      totalEvictions := s.totalEvictions + evicted
      lastEvictionCount := evicted
      lastEvictionTime := c.now }
  | .expire cutoff key e lastAccess rest evicted =>
    (s.remove key (.expired key e lastAccess cutoff)).goto t (.recheck cutoff rest (evicted + 1))
  | .clear (key :: rest) =>
    -- the counter is stored once, after the loop
    { (s.record (.cleared key)).goto t (.clear rest) with clientPool := s.clientPool.erase key }
  | .clear [] => { s.goto t (.unlock none none) with poolEntryCount := 0 }
  | .unlock _ result => { s.goto t (.returned result) with owner := none }
  | .returned _ => s

end State

/-- A thread starts a job, or takes its next step. -/
inductive Action where
  | start (t : ℕ) (job : Job) (now : ℤ)
  | advance (t : ℕ) (c : Choice)

def step (s : State) : Action → State
  | .start t job now =>
    if s.phases t = .idle then { s.begin t now job with jobs := Function.update s.jobs t (some job) } else s
  | .advance t c => s.advance t c

end TlsClient.Engine.PoolThreads
