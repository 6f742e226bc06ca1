import TlsClient.Ffi.Values
import TlsClient.Library.SortedMap
import TlsClient.Library.Utf8
import Mathlib.Data.List.AList

/-!
# The client pool

Embeds the pool of `src/cffi_binding/main.go`: the map from cache keys to entries, the TTL and the
capacity eviction, and the clearing. Times are `UnixNano`. What a scan of the map collects comes in any
order, so the functions that scan take the order as an argument; sorting an arbitrary order stably gives
every result the unstable `sort.Slice` can give.

An entry leaves the pool by an eviction or a clearing only, and never changes its client
(`clientAt_evictLRUOverCapLocked`, `clientAt_evictStaleEntries`, `clientAt_touch`).
-/

namespace TlsClient.Engine

open TlsClient.Ffi

variable {Client : Type}

/-- `poolEntry`. -/
structure PoolEntry (Client : Type) where
  client : Client
  lastAccess : ℤ

structure Pool (Client : Type) where
  clientPool : AList fun _ : Bytes => PoolEntry Client := ∅
  poolMaxEntries : ℤ := 1024
  poolTTLNs : ℤ := 300 * 1000000000
  poolEntryCount : ℤ := 0
  totalEvictions : ℤ := 0
  lastEvictionCount : ℤ := 0
  lastEvictionTime : ℤ := 0

namespace Pool

/-- `clientPool.Load`. -/
def load (pool : Pool Client) (key : Bytes) : Option (PoolEntry Client) :=
  pool.clientPool.lookup key

/-- The client under a key. -/
def clientAt (pool : Pool Client) (key : Bytes) : Option Client :=
  (pool.load key).map PoolEntry.client

/-- `clientPool.Store` for a new entry. -/
def store (pool : Pool Client) (key : Bytes) (entry : PoolEntry Client) : Pool Client :=
  { pool with
    clientPool := pool.clientPool.insert key entry
    poolEntryCount := pool.poolEntryCount + 1 }

/-- `pe.lastAccess.Store(now)`. -/
def touch (pool : Pool Client) (key : Bytes) (now : ℤ) : Pool Client :=
  match pool.load key with
  | some pe => { pool with clientPool := pool.clientPool.insert key { pe with lastAccess := now } }
  | none => pool

/-- `clientPool.Delete` for each of the keys. -/
def deleteAll (pool : Pool Client) (keys : List Bytes) : Pool Client :=
  { pool with clientPool := keys.foldl (fun m key => m.erase key) pool.clientPool }

/-- The keys and access times that `clientPool.Range` visits. -/
def range (pool : Pool Client) (order : List Bytes) : List (Bytes × ℤ) :=
  (pool.clientPool.entries.map fun e => (e.1, e.2.lastAccess)).insertionSort fun a b =>
    order.idxOf a.1 ≤ order.idxOf b.1

/-- The second part of `evictStaleEntries`, under the lock: of the collected keys, those that are still
older than the cutoff go. -/
def evictStaleEntries (pool : Pool Client) (toDelete : List Bytes) (cutoff now : ℤ) : Pool Client :=
  let stale := toDelete.dedup.filter fun key => (pool.load key).any fun pe => pe.lastAccess < cutoff
  { pool.deleteAll stale with
    poolEntryCount := pool.poolEntryCount - stale.length
    totalEvictions := pool.totalEvictions + stale.length
    lastEvictionCount := stale.length
    lastEvictionTime := now }

/-- `evictLRUOverCapLocked`. -/
def evictLRUOverCapLocked (pool : Pool Client) (order : List Bytes) (protectedKey : Bytes) :
    Pool Client :=
  if pool.poolMaxEntries ≤ 0 then pool
  else
    let candidates := (pool.range order).filter fun c => c.1 ≠ protectedKey
    let live := (pool.load protectedKey).isSome.toInt
    let count := candidates.length + live
    let excess := count - pool.poolMaxEntries
    if excess ≤ 0 then { pool with poolEntryCount := count }
    else
      let excess := min excess candidates.length
      let victims := ((candidates.insertionSort fun a b => a.2 ≤ b.2).take excess.toNat).map Prod.fst
      { pool.deleteAll victims with
        poolEntryCount := count - excess
        totalEvictions := pool.totalEvictions + excess }

/-- `ClearClientPool`. -/
def clearClientPool (pool : Pool Client) : Pool Client :=
  { pool with clientPool := ∅, poolEntryCount := 0 }

/-- `SetPoolMaxEntries`. -/
def setPoolMaxEntries (pool : Pool Client) (order : List Bytes) (entries : ℤ) : Pool Client :=
  evictLRUOverCapLocked { pool with poolMaxEntries := if entries < 0 then 1024 else entries } order []

/-! ## What stays under a key -/

/-- What is found after several keys were erased. -/
theorem lookup_foldl_erase {m : AList fun _ : Bytes => PoolEntry Client} {keys : List Bytes} {key : Bytes} :
    (keys.foldl (fun m key => m.erase key) m).lookup key = if key ∈ keys then none else m.lookup key := by
  induction keys generalizing m with
  | nil => simp
  | cons k keys ih =>
    rw [List.foldl_cons, ih]
    by_cases hk : key = k
    · rw [hk, AList.lookup_erase, ite_self, if_pos List.mem_cons_self]
    · rw [AList.lookup_erase_ne hk]
      simp [hk]

/-- The clients after several keys were deleted. -/
theorem clientAt_deleteAll {pool : Pool Client} {keys : List Bytes} {key : Bytes} :
    (pool.deleteAll keys).clientAt key = if key ∈ keys then none else pool.clientAt key := by
  rw [clientAt, load, deleteAll, lookup_foldl_erase]
  split_ifs <;> rfl

@[simp] theorem clientAt_touch (pool : Pool Client) (k : Bytes) (now : ℤ) (key : Bytes) :
    (pool.touch k now).clientAt key = pool.clientAt key := by
  rw [touch]
  split
  case h_2 => rfl
  case h_1 pe hload =>
    by_cases hkey : key = k
    · rw [clientAt, load, hkey, AList.lookup_insert, clientAt, hload]
      rfl
    · rw [clientAt, load, AList.lookup_insert_ne hkey]
      rfl

/-- The clients after one was stored. -/
theorem clientAt_store (pool : Pool Client) (k : Bytes) (entry : PoolEntry Client) (key : Bytes) :
    (pool.store k entry).clientAt key = if key = k then some entry.client else pool.clientAt key := by
  split_ifs with hkey
  · rw [clientAt, load, store, hkey, AList.lookup_insert]
    rfl
  · rw [clientAt, load, store, AList.lookup_insert_ne hkey]
    rfl

/-- The TTL scan only removes entries. -/
theorem clientAt_evictStaleEntries {pool : Pool Client} {toDelete : List Bytes} {cutoff now : ℤ}
    {key : Bytes} {client : Client}
    (hclient : (pool.evictStaleEntries toDelete cutoff now).clientAt key = some client) :
    pool.clientAt key = some client := by
  have hdelete := clientAt_deleteAll.symm.trans hclient
  split_ifs at hdelete
  exact hdelete

/-- The capacity eviction only removes entries, and never the one just created. -/
theorem clientAt_evictLRUOverCapLocked (pool : Pool Client) (order : List Bytes) (protectedKey : Bytes) :
    ∃ victims : List Bytes, protectedKey ∉ victims ∧ ∀ key,
      (pool.evictLRUOverCapLocked order protectedKey).clientAt key =
        if key ∈ victims then none else pool.clientAt key := by
  by_cases hmax : pool.poolMaxEntries ≤ 0
  · refine ⟨[], List.not_mem_nil, fun key => ?_⟩
    rw [evictLRUOverCapLocked, if_pos hmax]
    rfl
  · rw [evictLRUOverCapLocked, if_neg hmax]
    dsimp only
    split_ifs
    · exact ⟨[], List.not_mem_nil, fun key => rfl⟩
    · refine ⟨_, fun hmem => ?_, fun key => clientAt_deleteAll⟩
      obtain ⟨c, hc, hkey⟩ := List.mem_map.mp hmem
      have hcandidate := (List.perm_insertionSort _ _).mem_iff.mp (List.mem_of_mem_take hc)
      simp [hkey] at hcandidate

/-- A new capacity brings no client. -/
theorem clientAt_setPoolMaxEntries {pool : Pool Client} (order : List Bytes) (entries : ℤ) {key : Bytes}
    {client : Client} (hclient : (pool.setPoolMaxEntries order entries).clientAt key = some client) :
    pool.clientAt key = some client := by
  obtain ⟨victims, -, hevict⟩ := clientAt_evictLRUOverCapLocked
    { pool with poolMaxEntries := if entries < 0 then 1024 else entries } order []
  rw [setPoolMaxEntries, hevict] at hclient
  by_cases hvictim : key ∈ victims
  · rw [if_pos hvictim] at hclient
    contradiction
  · rw [if_neg hvictim] at hclient
    exact hclient

@[simp] theorem clientAt_clearClientPool (pool : Pool Client) (key : Bytes) :
    pool.clearClientPool.clientAt key = none := rfl

end Pool

end TlsClient.Engine
