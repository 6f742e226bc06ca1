import TlsClient.Engine.PoolThreads

/-!
# The pool's counters and its bound

`clientPool`, `poolEntryCount` and `totalEvictions` change under the lock only, so an invariant about them
speaks of the thread that holds the lock: `Facts` says for each of its phases how far the counters are off.
With the lock free they are exact (`pool_accounting`). At the end of an eviction over the capacity the
facts of its sweep give the bound on the pool and which entries have stayed.
-/

namespace TlsClient.Engine.PoolThreads

open TlsClient.Ffi

/-- The event is a removal by an eviction. -/
def Event.isEviction : Event → Bool
  | .evicted _ => true
  | .expired _ _ _ _ => true
  | _ => false

/-- The key of the entry that the event removed. -/
def Event.removes : Event → Option Bytes
  | .evicted key => some key
  | .expired key _ _ _ => some key
  | .cleared key => some key
  | _ => none

def Event.isCreation : Event → Bool
  | .created _ _ _ => true
  | _ => false

/-- The phases of a thread that holds the lock. -/
def Phase.locked : Phase → Bool
  | .touch _ holdsLock => holdsLock
  | .lookupLocked _ | .build _ | .loadMax _ _ | .scan _ _ _ | .evict _ _ _ => true
  | .recheck _ _ _ | .expire _ _ _ _ _ _ | .clear _ | .unlock _ _ => true
  | _ => false

/-- What the lock protects. -/
structure Core where
  pool : AList fun _ : Bytes => ℕ
  count : ℤ
  total : ℤ
  evictions : ℕ

def State.core (s : State) : Core where
  pool := s.clientPool
  count := s.poolEntryCount
  total := s.totalEvictions
  evictions := s.log.countP Event.isEviction

/-- The counters are exact. -/
structure Core.Settled (k : Core) : Prop where
  count : k.count = k.pool.keys.length
  total : k.total = k.evictions

namespace Sweep

/-- The keys a sweep has read access times of. -/
def seenKeys (sweep : Sweep) : List Bytes := sweep.seen.map Prod.fst

/-- A sweep that still has the keys `rest` to visit. -/
structure Scanned (sweep : Sweep) (rest keys : List Bytes) : Prop where
  positive : 0 < sweep.maxEntries
  nodup : (sweep.seenKeys ++ rest).Nodup
  unprotected : sweep.protectedKey ∉ sweep.seenKeys
  live_nonneg : 0 ≤ sweep.live
  live_le : sweep.live ≤ 1
  live_rest : sweep.protectedKey ∈ rest → sweep.live = 0
  mem_keys : ∀ key, key ∈ keys ↔ key ∈ sweep.seenKeys ∨ key ∈ rest ∨ key = sweep.protectedKey ∧ 0 < sweep.live
  length : (keys.length : ℤ) = sweep.seen.length + rest.length + sweep.live

/-- A sweep that has chosen its victims and removed those in `done`. -/
structure Swept (sweep : Sweep) (done keys : List Bytes) : Prop where
  positive : 0 < sweep.maxEntries
  nodup : sweep.seenKeys.Nodup
  unprotected : sweep.protectedKey ∉ sweep.seenKeys
  live_le : sweep.live ≤ 1
  victims : sweep.victims = sweep.choose
  mem_keys : ∀ key, key ∈ keys ↔
    key ∈ sweep.seenKeys ∧ key ∉ done ∨ key = sweep.protectedKey ∧ 0 < sweep.live
  length : (keys.length : ℤ) + done.length = sweep.seen.length + sweep.live

end Sweep

/-- What holds of the core while a thread is in a phase with the lock. -/
def Facts (k : Core) : Phase → Prop
  | .touch _ true => k.Settled
  | .lookupLocked _ => k.Settled
  | .build key => k.Settled ∧ key ∉ k.pool.keys
  | .loadMax protectedKey created => k.Settled ∧ (created.isSome → protectedKey ∈ k.pool.keys)
  | .scan sweep rest created =>
    k.Settled ∧ (created.isSome → sweep.protectedKey ∈ k.pool.keys) ∧ sweep.Scanned rest k.pool.keys
  | .evict sweep rest created =>
    k.count = k.pool.keys.length ∧ k.total + sweep.victims.length = k.evictions + rest.length ∧
      (created.isSome → sweep.protectedKey ∈ k.pool.keys) ∧
      ∃ done, sweep.victims = done ++ rest ∧ sweep.Swept done k.pool.keys
  | .unlock swept result =>
    k.Settled ∧ ∀ sweep ∈ swept, (result.isSome → sweep.protectedKey ∈ k.pool.keys) ∧
      sweep.Swept sweep.victims k.pool.keys
  | .recheck _ _ evicted => k.count = k.pool.keys.length ∧ k.total + evicted = k.evictions
  | .expire _ key e _ _ evicted =>
    k.count = k.pool.keys.length ∧ k.total + evicted = k.evictions ∧ k.pool.lookup key = some e
  | .clear rest => k.total = k.evictions ∧ rest.Perm k.pool.keys
  | _ => True

/-- The invariant of the core. -/
structure Inv (s : State) : Prop where
  owner : ∀ t, (s.phases t).locked = true ↔ s.owner = some t
  settled : s.owner = none → s.core.Settled
  facts : ∀ t, Facts s.core (s.phases t)
  /-- a pooled entry is a number into `entries` -/
  stored : ∀ key e, s.clientPool.lookup key = some e → e < s.entries.length
  /-- an event of a creation or a removal stands for one entry -/
  balance : s.clientPool.keys.length + s.log.countP (fun e => e.removes.isSome) =
    s.log.countP Event.isCreation

variable {s s' : State} {t : ℕ} {p : Phase} {c : Choice}

/-! ## Erasing a key -/

section Erase

variable {κ β : Type} [DecidableEq κ] {m : AList fun _ : κ => β} {key : κ} {rest : List κ}

theorem length_keys_erase (hmem : key ∈ m.keys) : (m.erase key).keys.length + 1 = m.keys.length := by
  rw [AList.keys_erase, List.length_erase_of_mem hmem]
  exact Nat.succ_pred_eq_of_pos (List.length_pos_of_mem hmem)

theorem mem_keys_erase {k : κ} : k ∈ (m.erase key).keys ↔ k ≠ key ∧ k ∈ m.keys :=
  AList.mem_erase

/-- What is left of the keys when the first of them is erased. -/
theorem perm_keys_erase (hperm : (key :: rest).Perm m.keys) : rest.Perm (m.erase key).keys := by
  rw [AList.keys_erase]
  have herase := hperm.erase key
  rw [List.erase_cons_head] at herase
  exact herase

theorem keys_insert_of_notMem {b : β} (habsent : key ∉ m.keys) : (m.insert key b).keys = key :: m.keys := by
  rw [AList.keys_insert, List.erase_of_not_mem habsent]

end Erase

/-! ## How a step changes the invariant -/

/-- A phase without the lock asks for nothing. -/
theorem facts_of_not_locked {k : Core} (hp : p.locked = false) : Facts k p := by
  cases p with
  | touch e holdsLock =>
    cases holdsLock with
    | false => trivial
    | true => contradiction
  | idle => trivial
  | lookup key => trivial
  | collect cutoff toDelete => trivial
  | lock errand => trivial
  | returned result => trivial
  | _ => contradiction

/-- What a step must not change, or change together. -/
structure Frame (s s' : State) : Prop where
  stored : ∀ key e, s'.clientPool.lookup key = some e → e < s'.entries.length
  balance : s'.clientPool.keys.length + s'.log.countP (fun e => e.removes.isSome) =
    s'.log.countP Event.isCreation

/-- A step of a thread without the lock changes neither the core nor the owner. -/
theorem Inv.of_unlocked (hinv : Inv s) (hframe : Frame s s') (ht : (s.phases t).locked = false)
    (hp : p.locked = false) (hphases : s'.phases = Function.update s.phases t p)
    (howner : s'.owner = s.owner) (hcore : s'.core = s.core) : Inv s' where
  owner u := by
    rw [hphases, howner, ← hinv.owner u]
    by_cases hu : u = t
    · rw [hu, Function.update_self, hp, ht]
    · rw [Function.update_of_ne hu]
  settled := by
    rw [howner, hcore]
    exact hinv.settled
  facts u := by
    rw [hphases, hcore]
    by_cases hu : u = t
    · rw [hu, Function.update_self]
      exact facts_of_not_locked hp
    · rw [Function.update_of_ne hu]
      exact hinv.facts u
  stored := hframe.stored
  balance := hframe.balance

/-- Only one thread holds the lock. -/
theorem Inv.not_locked_of_ne (hinv : Inv s) (ht : (s.phases t).locked = true) {u : ℕ} (hu : u ≠ t) :
    (s.phases u).locked = false := by
  by_contra hlocked
  have howner := (hinv.owner u).mp (by simpa using hlocked)
  rw [(hinv.owner t).mp ht] at howner
  exact hu (Option.some.inj howner).symm

/-- A step of the thread that holds the lock, and keeps it. -/
theorem Inv.of_locked (hinv : Inv s) (hframe : Frame s s') (ht : (s.phases t).locked = true)
    (hp : p.locked = true) (hphases : s'.phases = Function.update s.phases t p)
    (howner : s'.owner = s.owner) (hfacts : Facts s'.core p) : Inv s' where
  owner u := by
    rw [hphases, howner, ← hinv.owner u]
    by_cases hu : u = t
    · rw [hu, Function.update_self, hp, ht]
    · rw [Function.update_of_ne hu]
  settled hnone := by
    rw [howner, (hinv.owner t).mp ht] at hnone
    contradiction
  facts u := by
    rw [hphases]
    by_cases hu : u = t
    · rw [hu, Function.update_self]
      exact hfacts
    · rw [Function.update_of_ne hu]
      exact facts_of_not_locked (hinv.not_locked_of_ne ht hu)
  stored := hframe.stored
  balance := hframe.balance

/-! ## The choice of the victims -/

namespace Sweep

variable {sweep : Sweep}

/-- The candidates in the order in which they are evicted. -/
def byAge (sweep : Sweep) : List (Bytes × ℤ) :=
  sweep.seen.insertionSort fun a b => a.2 ≤ b.2

def excess (sweep : Sweep) : ℤ :=
  min (sweep.seen.length + sweep.live - sweep.maxEntries) sweep.seen.length

theorem byAge_perm : sweep.byAge.Perm sweep.seen :=
  List.perm_insertionSort _ _

/-- They are in the order of their access times. -/
theorem pairwise_byAge : sweep.byAge.Pairwise fun a b => a.2 ≤ b.2 := by
  have : Std.Total fun a b : Bytes × ℤ => a.2 ≤ b.2 := ⟨fun a b => le_total a.2 b.2⟩
  have : IsTrans (Bytes × ℤ) fun a b => a.2 ≤ b.2 := ⟨fun _ _ _ => le_trans⟩
  exact List.pairwise_insertionSort _ _

/-- The victims are the oldest, as many as are too many. -/
theorem choose_eq : sweep.choose = (sweep.byAge.take sweep.excess.toNat).map Prod.fst := rfl

theorem mem_seenKeys_of_mem_choose {key : Bytes} (hkey : key ∈ sweep.choose) : key ∈ sweep.seenKeys := by
  obtain ⟨item, hitem, rfl⟩ := List.mem_map.mp hkey
  exact List.mem_map_of_mem (byAge_perm.mem_iff.mp (List.mem_of_mem_take hitem))

theorem nodup_choose (hnodup : sweep.seenKeys.Nodup) : sweep.choose.Nodup := by
  rw [choose_eq, List.map_take]
  exact ((byAge_perm.map Prod.fst).nodup_iff.mpr hnodup).sublist (List.take_sublist _ _)

/-- As many keys are chosen as are too many. -/
theorem length_choose : (sweep.choose.length : ℤ) = max sweep.excess 0 := by
  rw [choose_eq, List.length_map, List.length_take, byAge_perm.length_eq]
  have hle : sweep.excess ≤ sweep.seen.length := min_le_right _ _
  omega

/-- A candidate that stays has been used no earlier than one that goes. -/
theorem le_of_choose (hnodup : sweep.seenKeys.Nodup) {k k' : Bytes} {a a' : ℤ}
    (ha : (k, a) ∈ sweep.seen) (hk : k ∈ sweep.choose) (ha' : (k', a') ∈ sweep.seen)
    (hk' : k' ∉ sweep.choose) : a ≤ a' := by
  have hsorted := sweep.pairwise_byAge
  rw [← List.take_append_drop sweep.excess.toNat sweep.byAge, List.pairwise_append] at hsorted
  obtain ⟨item, hitem, hfst⟩ := List.mem_map.mp hk
  -- a key is seen once, so the victim is the item itself
  have hsame : item = (k, a) :=
    List.inj_on_of_nodup_map hnodup (byAge_perm.mem_iff.mp (List.mem_of_mem_take hitem)) ha hfst
  have hrest : (k', a') ∈ sweep.byAge.drop sweep.excess.toNat := by
    have hmem := byAge_perm.mem_iff.mpr ha'
    rw [← List.take_append_drop sweep.excess.toNat sweep.byAge, List.mem_append] at hmem
    exact hmem.resolve_left fun htake => hk' (List.mem_map_of_mem htake)
  subst hsame
  exact hsorted.2.2 _ hitem _ hrest

/-- A key that the sweep passes over because it is protected. -/
theorem Scanned.pass {rest keys : List Bytes} (h : sweep.Scanned (sweep.protectedKey :: rest) keys) :
    ({ sweep with live := sweep.live + 1 } : Sweep).Scanned rest keys where
  positive := h.positive
  nodup := h.nodup.sublist (List.Sublist.append_left (List.sublist_cons_self _ _) _)
  unprotected := h.unprotected
  live_nonneg := by
    have := h.live_nonneg
    show 0 ≤ sweep.live + 1
    omega
  live_le := by
    have := h.live_rest List.mem_cons_self
    show sweep.live + 1 ≤ 1
    omega
  live_rest hmem := by
    have hdisj := (List.nodup_append.mp h.nodup).2.1
    exact absurd hmem (List.nodup_cons.mp hdisj).1
  -- the protected key leaves the rest and is the one that `live` counts
  mem_keys key := by
    rw [h.mem_keys key, List.mem_cons]
    have := h.live_rest List.mem_cons_self
    show _ ↔ _ ∨ _ ∨ key = sweep.protectedKey ∧ 0 < sweep.live + 1
    constructor
    · rintro (hseen | (heq | hrest) | ⟨heq, hlive⟩)
      · exact .inl hseen
      · exact .inr (.inr ⟨heq, by omega⟩)
      · exact .inr (.inl hrest)
      · exact .inr (.inr ⟨heq, by omega⟩)
    · rintro (hseen | hrest | ⟨heq, -⟩)
      · exact .inl hseen
      · exact .inr (.inl (.inr hrest))
      · exact .inr (.inl (.inl heq))
  length := by
    rw [h.length, List.length_cons]
    show _ = (sweep.seen.length : ℤ) + rest.length + (sweep.live + 1)
    push_cast
    ring

/-- A key whose access time the sweep reads. -/
theorem Scanned.see {key : Bytes} {a : ℤ} {rest keys : List Bytes}
    (h : sweep.Scanned (key :: rest) keys) (hkey : key ≠ sweep.protectedKey) :
    ({ sweep with seen := sweep.seen ++ [(key, a)] } : Sweep).Scanned rest keys := by
  have hseen : ({ sweep with seen := sweep.seen ++ [(key, a)] } : Sweep).seenKeys =
      sweep.seenKeys ++ [key] := by
    rw [seenKeys, List.map_append]
    rfl
  refine ⟨h.positive, ?_, ?_, h.live_nonneg, h.live_le,
    fun hmem => h.live_rest (List.mem_cons_of_mem _ hmem), fun k => ?_, ?_⟩
  · rw [hseen, List.append_assoc]
    exact h.nodup
  · rw [hseen, List.mem_append, List.mem_singleton]
    exact fun hor => hor.elim h.unprotected fun heq => hkey heq.symm
  · rw [h.mem_keys k, hseen, List.mem_append, List.mem_singleton, List.mem_cons]
    tauto
  · rw [h.length, List.length_append, List.length_cons, List.length_singleton]
    push_cast
    ring

/-- The end of a scan. -/
theorem Scanned.choose {keys : List Bytes} (h : sweep.Scanned [] keys) :
    ({ sweep with victims := sweep.choose } : Sweep).Swept [] keys where
  positive := h.positive
  nodup := by
    have hnodup := h.nodup
    rw [List.append_nil] at hnodup
    exact hnodup
  unprotected := h.unprotected
  live_le := h.live_le
  victims := rfl
  mem_keys key := by
    rw [h.mem_keys key]
    simp [seenKeys]
  length := by
    rw [h.length]
    simp

/-- The removal of a victim. -/
theorem Swept.remove {key : Bytes} {done rest : List Bytes} {m : AList fun _ : Bytes => ℕ}
    (h : sweep.Swept done m.keys) (hsplit : sweep.victims = done ++ key :: rest) :
    key ∈ m.keys ∧ sweep.Swept (done ++ [key]) (m.erase key).keys := by
  have hvictims : sweep.victims.Nodup := by
    rw [h.victims]
    exact nodup_choose h.nodup
  have hkey : key ∈ sweep.seenKeys := by
    apply mem_seenKeys_of_mem_choose
    rw [← h.victims, hsplit]
    exact List.mem_append_right _ List.mem_cons_self
  -- the victims are distinct, so this one has not been removed yet
  have hdone : key ∉ done := by
    rw [hsplit] at hvictims
    exact fun hmem => (List.nodup_append.mp hvictims).2.2 key hmem key List.mem_cons_self rfl
  have hmem : key ∈ m.keys := (h.mem_keys key).mpr (.inl ⟨hkey, hdone⟩)
  refine ⟨hmem, h.positive, h.nodup, h.unprotected, h.live_le, h.victims, fun k => ?_, ?_⟩
  · rw [mem_keys_erase, h.mem_keys k, List.mem_append, List.mem_singleton]
    constructor
    · rintro ⟨hne, ⟨hseen, hk⟩ | hprotected⟩
      · exact .inl ⟨hseen, not_or.mpr ⟨hk, hne⟩⟩
      · exact .inr hprotected
    · rintro (⟨hseen, hk⟩ | ⟨rfl, hlive⟩)
      · exact ⟨(not_or.mp hk).2, .inl ⟨hseen, (not_or.mp hk).1⟩⟩
      · exact ⟨fun heq => h.unprotected (heq ▸ hkey), .inr ⟨rfl, hlive⟩⟩
  · have hlength := h.length
    have herase := length_keys_erase hmem
    rw [List.length_append, List.length_singleton]
    omega

/-- What a finished sweep leaves is within the capacity. -/
theorem Swept.length_le {keys : List Bytes} (h : sweep.Swept sweep.victims keys) :
    (keys.length : ℤ) ≤ max 1 sweep.maxEntries := by
  have hlength := h.length
  have hvictims : (sweep.victims.length : ℤ) = max sweep.excess 0 := by
    rw [h.victims]
    exact length_choose
  have hlive := h.live_le
  have hpositive := h.positive
  rw [excess] at hvictims
  omega

end Sweep

/-! ## The steps -/

/-- A key that is not found is not in the pool. -/
theorem Inv.load_eq_none (hinv : Inv s) {key : Bytes} (hload : s.load key = none) :
    key ∉ s.clientPool.keys := by
  intro hmem
  obtain ⟨e, he⟩ := Option.isSome_iff_exists.mp (AList.lookup_isSome.mpr (AList.mem_keys.mpr hmem))
  rw [State.load, he, Option.bind_some, List.getElem?_eq_getElem (hinv.stored key e he)] at hload
  contradiction

theorem State.rangeKeys_perm (s : State) (order : List Bytes) : (s.rangeKeys order).Perm s.clientPool.keys :=
  List.perm_insertionSort _ _

/-- A step that neither stores nor removes an entry. -/
theorem Inv.frame (hinv : Inv s) (hpool : s'.clientPool = s.clientPool)
    (hentries : s'.entries.length = s.entries.length)
    (hlog : s'.log = s.log ∨
      ∃ e : Event, e.removes = none ∧ e.isCreation = false ∧ s'.log = s.log ++ [e]) : Frame s s' where
  stored := by
    rw [hpool, hentries]
    exact hinv.stored
  balance := by
    rw [hpool]
    rcases hlog with hlog | ⟨e, hremoves, hcreation, hlog⟩
    · rw [hlog]
      exact hinv.balance
    · rw [hlog, List.countP_append, List.countP_append, List.countP_singleton, List.countP_singleton,
        hremoves, hcreation]
      exact hinv.balance

/-- The removal of a pooled entry. -/
theorem Inv.frame_remove (hinv : Inv s) {key : Bytes} {e : Event} (hmem : key ∈ s.clientPool.keys)
    (hremoves : e.removes = some key) (hcreation : e.isCreation = false)
    (hpool : s'.clientPool = s.clientPool.erase key) (hentries : s'.entries = s.entries)
    (hlog : s'.log = s.log ++ [e]) : Frame s s' where
  stored k n hn := by
    rw [hpool] at hn
    rw [hentries]
    by_cases hk : k = key
    · rw [hk, AList.lookup_erase] at hn
      contradiction
    · rw [AList.lookup_erase_ne hk] at hn
      exact hinv.stored k n hn
  balance := by
    have hbalance := hinv.balance
    have herase := length_keys_erase hmem
    rw [hpool, hlog, List.countP_append, List.countP_append, List.countP_singleton, List.countP_singleton,
      hremoves, hcreation, Option.isSome_some, if_pos rfl, if_neg (by decide)]
    omega

/-- A new call keeps the invariant. -/
theorem Inv.start (hinv : Inv s) {job : Job} {now : ℤ} : Inv (step s (.start t job now)) := by
  rw [step]
  split_ifs with hidle
  · have ht : (s.phases t).locked = false := by
      rw [hidle]
      rfl
    cases job with
    | getOrCreate key => exact hinv.of_unlocked (hinv.frame rfl rfl (.inl rfl)) ht rfl rfl rfl rfl
    | evictStale => exact hinv.of_unlocked (hinv.frame rfl rfl (.inl rfl)) ht rfl rfl rfl rfl
    | setMaxEntries entries => exact hinv.of_unlocked (hinv.frame rfl rfl (.inl rfl)) ht rfl rfl rfl rfl
    | setTTL seconds => exact hinv.of_unlocked (hinv.frame rfl rfl (.inl rfl)) ht rfl rfl rfl rfl
    | clear => exact hinv.of_unlocked (hinv.frame rfl rfl (.inl rfl)) ht rfl rfl rfl rfl
  · exact hinv

/-- An event that is no eviction changes none of the counters. -/
theorem core_record {e : Event} (he : e.isEviction = false) (p : Phase) :
    ((s.record e).goto t p).core = s.core := by
  rw [State.core, State.core]
  congr 1
  show (s.log ++ [e]).countP Event.isEviction = s.log.countP Event.isEviction
  rw [List.countP_append, List.countP_singleton, he]
  rfl

/-- A lookup keeps the invariant. -/
theorem Inv.advance_lookup (hinv : Inv s) {key : Bytes} (hphase : s.phases t = .lookup key) :
    Inv (s.advance t c) := by
  have ht : (s.phases t).locked = false := by
    rw [hphase]
    rfl
  rw [State.advance, hphase]
  dsimp only
  split
  · exact hinv.of_unlocked (hinv.frame rfl rfl (.inr ⟨_, rfl, rfl, rfl⟩)) ht rfl rfl rfl (core_record rfl _)
  · exact hinv.of_unlocked (hinv.frame rfl rfl (.inl rfl)) ht rfl rfl rfl rfl

/-- The write of an access time keeps the invariant. -/
theorem Inv.advance_touch (hinv : Inv s) {e : ℕ} {holdsLock : Bool}
    (hphase : s.phases t = .touch e holdsLock) : Inv (s.advance t c) := by
  have hframe : ∀ p, Frame s ((s.touch e c.now).goto t p) := fun p =>
    hinv.frame rfl (List.length_modify _ _ _) (.inl rfl)
  have hfacts := hinv.facts t
  rw [State.advance, hphase]
  rw [hphase] at hfacts
  dsimp only
  cases holdsLock with
  | false => exact hinv.of_unlocked (hframe _) (by rw [hphase]; rfl) rfl rfl rfl rfl
  | true =>
    refine hinv.of_locked (hframe _) (by rw [hphase]; rfl) rfl rfl rfl ⟨hfacts, ?_⟩
    intro sweep hsweep
    contradiction

/-- A round of the first scan keeps the invariant. -/
theorem Inv.advance_collect (hinv : Inv s) {cutoff : ℤ} {toDelete : List Bytes}
    (hphase : s.phases t = .collect cutoff toDelete) : Inv (s.advance t c) := by
  have ht : (s.phases t).locked = false := by
    rw [hphase]
    rfl
  rw [State.advance, hphase]
  dsimp only
  split
  · exact hinv.of_unlocked (hinv.frame rfl rfl (.inl rfl)) ht rfl rfl rfl rfl
  · split
    · split_ifs
      · exact hinv.of_unlocked (hinv.frame rfl rfl (.inl rfl)) ht rfl rfl rfl rfl
      · exact hinv
    · exact hinv

/-- The lock is taken while the counters are exact. -/
theorem Inv.advance_lock (hinv : Inv s) {errand : Errand} (hphase : s.phases t = .lock errand) :
    Inv (s.advance t c) := by
  rw [State.advance, hphase]
  dsimp only
  split
  · exact hinv
  case h_2 hnone =>
    have hsettled := hinv.settled hnone
    have hlocked : (s.enter c.order errand).locked = true := by cases errand <;> rfl
    refine ⟨fun u => ?_, fun hnone' => absurd hnone' (by simp), fun u => ?_, hinv.stored, hinv.balance⟩
    · show (Function.update s.phases t _ u).locked = true ↔ some t = some u
      -- the lock was free, so this thread is the only one that holds it now
      by_cases hu : u = t
      · rw [hu, Function.update_self, hlocked]
        exact ⟨fun _ => rfl, fun _ => rfl⟩
      · rw [Function.update_of_ne hu, hinv.owner u, hnone]
        exact ⟨fun h => absurd h (by simp), fun h => absurd (Option.some.inj h).symm hu⟩
    · show Facts s.core (Function.update s.phases t _ u)
      by_cases hu : u = t
      -- the facts the first locked phase of each errand needs are those of a settled pool
      · rw [hu, Function.update_self]
        cases errand with
        | getOrCreate key => exact hsettled
        | evictStale cutoff toDelete => exact ⟨hsettled.count, by simpa using hsettled.total⟩
        | evictLRU => exact ⟨hsettled, fun hcreated => absurd hcreated (by simp)⟩
        | clear => exact ⟨hsettled.total, s.rangeKeys_perm c.order⟩
      · rw [Function.update_of_ne hu]
        exact hinv.facts u

/-- The lookup under the lock keeps the invariant. -/
theorem Inv.advance_lookupLocked (hinv : Inv s) {key : Bytes} (hphase : s.phases t = .lookupLocked key) :
    Inv (s.advance t c) := by
  have ht : (s.phases t).locked = true := by
    rw [hphase]
    rfl
  have hfacts := hinv.facts t
  rw [State.advance, hphase]
  rw [hphase] at hfacts
  dsimp only
  split
  · refine hinv.of_locked (hinv.frame rfl rfl (.inr ⟨_, rfl, rfl, rfl⟩)) ht rfl rfl rfl ?_
    rw [core_record rfl]
    exact hfacts
  case h_2 hnone =>
    exact hinv.of_locked (hinv.frame rfl rfl (.inl rfl)) ht rfl rfl rfl ⟨hfacts, hinv.load_eq_none hnone⟩

/-- A new entry is counted with its storing. -/
theorem Inv.advance_build (hinv : Inv s) {key : Bytes} (hphase : s.phases t = .build key) :
    Inv (s.advance t c) := by
  have ht : (s.phases t).locked = true := by
    rw [hphase]
    rfl
  have hfacts := hinv.facts t
  rw [State.advance, hphase]
  rw [hphase] at hfacts
  obtain ⟨hsettled, habsent⟩ := hfacts
  dsimp only
  split_ifs
  · have hkeys : (s.clientPool.insert key s.entries.length).keys = key :: s.clientPool.keys :=
      keys_insert_of_notMem habsent
    refine hinv.of_locked ⟨fun k e he => ?_, ?_⟩ ht rfl rfl rfl ⟨⟨?_, ?_⟩, fun _ => ?_⟩
    · show e < (s.entries ++ [_]).length
      rw [List.length_append, List.length_singleton]
      by_cases hk : k = key
      · rw [hk, AList.lookup_insert] at he
        exact Nat.lt_succ_of_le (Option.some.inj he).ge
      · rw [AList.lookup_insert_ne hk] at he
        exact Nat.lt_succ_of_lt (hinv.stored k e he)
    -- one key more and one creation more
    · show (s.clientPool.insert key s.entries.length).keys.length + (s.log ++ [_]).countP _ =
        (s.log ++ [_]).countP _
      rw [hkeys, List.length_cons, List.countP_append, List.countP_append, List.countP_singleton,
        List.countP_singleton]
      have hbalance := hinv.balance
      show s.clientPool.keys.length + 1 + (s.log.countP (fun e => e.removes.isSome) + 0) =
        s.log.countP Event.isCreation + 1
      omega
    · have hcount : s.poolEntryCount = s.clientPool.keys.length := hsettled.count
      show s.poolEntryCount + 1 = ((s.clientPool.insert key s.entries.length).keys.length : ℤ)
      rw [hkeys, List.length_cons, hcount]
      rfl
    · show s.totalEvictions = ((s.log ++ [_]).countP Event.isEviction : ℤ)
      rw [List.countP_append, List.countP_singleton]
      exact hsettled.total
    · show key ∈ (s.clientPool.insert key s.entries.length).keys
      rw [hkeys]
      exact List.mem_cons_self
  · refine hinv.of_locked (hinv.frame rfl rfl (.inr ⟨_, rfl, rfl, rfl⟩)) ht rfl rfl rfl ?_
    rw [core_record rfl]
    exact ⟨hsettled, fun sweep hsweep => absurd hsweep (by simp)⟩

/-- The read of the capacity keeps the invariant. -/
theorem Inv.advance_loadMax (hinv : Inv s) {protectedKey : Bytes} {created : Option ℕ}
    (hphase : s.phases t = .loadMax protectedKey created) : Inv (s.advance t c) := by
  have ht : (s.phases t).locked = true := by
    rw [hphase]
    rfl
  have hfacts := hinv.facts t
  rw [State.advance, hphase]
  rw [hphase] at hfacts
  obtain ⟨hsettled, hcreated⟩ := hfacts
  dsimp only
  split_ifs with hmax
  · exact hinv.of_locked (hinv.frame rfl rfl (.inl rfl)) ht rfl rfl rfl
      ⟨hsettled, fun sweep hsweep => absurd hsweep (by simp)⟩
  · have hperm := s.rangeKeys_perm c.order
    refine hinv.of_locked (hinv.frame rfl rfl (.inl rfl)) ht rfl rfl rfl
      ⟨hsettled, hcreated, lt_of_not_ge hmax, ?_, List.not_mem_nil, le_rfl, zero_le_one, fun _ => rfl,
        fun key => ?_, ?_⟩
    · exact hperm.nodup_iff.mpr s.clientPool.keys_nodup
    · show key ∈ s.clientPool.keys ↔ key ∈ [] ∨ key ∈ s.rangeKeys c.order ∨ _ ∧ (0 : ℤ) < 0
      rw [hperm.mem_iff]
      simp
    · show (s.clientPool.keys.length : ℤ) = ([] : List (Bytes × ℤ)).length + (s.rangeKeys c.order).length + 0
      rw [hperm.length_eq]
      simp

/-- A round of the sweep's scan keeps the invariant. -/
theorem Inv.advance_scan (hinv : Inv s) {sweep : Sweep} {rest : List Bytes} {created : Option ℕ}
    (hphase : s.phases t = .scan sweep rest created) : Inv (s.advance t c) := by
  have ht : (s.phases t).locked = true := by
    rw [hphase]
    rfl
  have hfacts := hinv.facts t
  rw [State.advance, hphase]
  rw [hphase] at hfacts
  obtain ⟨hsettled, hcreated, hscanned⟩ := hfacts
  cases rest with
  | cons key rest =>
    dsimp only
    split_ifs with hkey
    · subst hkey
      exact hinv.of_locked (hinv.frame rfl rfl (.inl rfl)) ht rfl rfl rfl ⟨hsettled, hcreated, hscanned.pass⟩
    · split
      · exact hinv.of_locked (hinv.frame rfl rfl (.inl rfl)) ht rfl rfl rfl
          ⟨hsettled, hcreated, hscanned.see hkey⟩
      case h_2 hnone =>
        -- the scan visits keys of the pool only
        exact absurd ((hscanned.mem_keys key).mpr (.inr (.inl List.mem_cons_self)))
          (hinv.load_eq_none hnone)
  | nil =>
    have hlength := hscanned.length
    refine hinv.of_locked (hinv.frame rfl rfl (.inl rfl)) ht rfl rfl rfl
      ⟨?_, ?_, hcreated, [], rfl, hscanned.choose⟩
    · show (sweep.seen.length : ℤ) + sweep.live = s.clientPool.keys.length
      rw [show (s.clientPool.keys.length : ℤ) = _ from hlength]
      simp
    · exact congrArg (· + (sweep.choose.length : ℤ)) hsettled.total

/-- The eviction of one victim keeps the invariant. -/
theorem Inv.advance_evict (hinv : Inv s) {sweep : Sweep} {rest : List Bytes} {created : Option ℕ}
    (hphase : s.phases t = .evict sweep rest created) : Inv (s.advance t c) := by
  have ht : (s.phases t).locked = true := by
    rw [hphase]
    rfl
  have hfacts := hinv.facts t
  rw [State.advance, hphase]
  rw [hphase] at hfacts
  obtain ⟨hcount, htotal, hcreated, done, hsplit, hswept⟩ := hfacts
  cases rest with
  | cons key rest =>
    have hcount : s.poolEntryCount = s.clientPool.keys.length := hcount
    have htotal : s.totalEvictions + (sweep.victims.length : ℤ) =
      s.log.countP Event.isEviction + ((key :: rest).length : ℕ) := htotal
    obtain ⟨hmem, hswept'⟩ := hswept.remove hsplit
    refine hinv.of_locked (hinv.frame_remove hmem rfl rfl rfl rfl rfl) ht rfl rfl rfl
      ⟨?_, ?_, fun hsome => ?_, done ++ [key], by rw [hsplit]; simp, ?_⟩
    -- the counter goes down with each victim, the total goes up only at the end
    · have herase : (s.clientPool.erase key).keys.length + 1 = s.clientPool.keys.length :=
        length_keys_erase hmem
      show s.poolEntryCount - 1 = ((s.clientPool.erase key).keys.length : ℤ)
      omega
    · show s.totalEvictions + (sweep.victims.length : ℤ) = ((s.log ++ [_]).countP _ : ℕ) + rest.length
      rw [List.countP_append, htotal, List.length_cons]
      show _ = ((_ + 1 : ℕ) : ℤ) + _
      push_cast
      ring
    -- the new entry is protected, so it is no victim
    · refine (hswept'.mem_keys _).mpr (.inr ⟨rfl, ?_⟩)
      exact (((hswept.mem_keys _).mp (hcreated hsome)).resolve_left fun h => hswept.unprotected h.1).2
    · exact hswept'
  | nil =>
    rw [List.append_nil] at hsplit
    refine hinv.of_locked (hinv.frame rfl rfl (.inl rfl)) ht rfl rfl rfl ⟨⟨hcount, ?_⟩, ?_⟩
    · show s.totalEvictions + (sweep.victims.length : ℤ) = (s.log.countP Event.isEviction : ℤ)
      exact htotal.trans (add_zero _)
    · intro sweep' hsweep'
      obtain rfl : sweep = sweep' := Option.some.inj hsweep'
      refine ⟨hcreated, ?_⟩
      rw [hsplit]
      exact hswept

/-- The re-check of a collected key keeps the invariant. -/
theorem Inv.advance_recheck (hinv : Inv s) {cutoff : ℤ} {rest : List Bytes} {evicted : ℕ}
    (hphase : s.phases t = .recheck cutoff rest evicted) : Inv (s.advance t c) := by
  have ht : (s.phases t).locked = true := by
    rw [hphase]
    rfl
  have hfacts := hinv.facts t
  rw [State.advance, hphase]
  rw [hphase] at hfacts
  obtain ⟨hcount, htotal⟩ := hfacts
  cases rest with
  | cons key rest =>
    dsimp only
    split
    case h_1 e entry hload =>
      split_ifs
      · exact hinv.of_locked (hinv.frame rfl rfl (.inl rfl)) ht rfl rfl rfl ⟨hcount, htotal⟩
      -- the entry is old: the key is in the map, since that is where it was read from
      · refine hinv.of_locked (hinv.frame rfl rfl (.inl rfl)) ht rfl rfl rfl ⟨hcount, htotal, ?_⟩
        obtain ⟨n, hn, hentry⟩ := Option.bind_eq_some_iff.mp hload
        obtain ⟨_, -, hpair⟩ := Option.map_eq_some_iff.mp hentry
        rw [← (Prod.mk.inj hpair).1]
        exact hn
    case h_2 => exact hinv.of_locked (hinv.frame rfl rfl (.inl rfl)) ht rfl rfl rfl ⟨hcount, htotal⟩
  | nil =>
    exact hinv.of_locked (hinv.frame rfl rfl (.inl rfl)) ht rfl rfl rfl
      ⟨⟨hcount, htotal⟩, fun sweep hsweep => absurd hsweep (by simp)⟩

/-- The removal of an expired entry keeps the invariant. -/
theorem Inv.advance_expire (hinv : Inv s) {cutoff lastAccess : ℤ} {key : Bytes} {rest : List Bytes}
    {e evicted : ℕ} (hphase : s.phases t = .expire cutoff key e lastAccess rest evicted) :
    Inv (s.advance t c) := by
  have ht : (s.phases t).locked = true := by
    rw [hphase]
    rfl
  have hfacts := hinv.facts t
  rw [State.advance, hphase]
  rw [hphase] at hfacts
  obtain ⟨hcount, htotal, hat⟩ := hfacts
  have hmem : key ∈ s.clientPool.keys := AList.lookup_isSome.mp (Option.isSome_of_mem hat)
  refine hinv.of_locked (hinv.frame_remove hmem rfl rfl rfl rfl rfl) ht rfl rfl rfl ⟨?_, ?_⟩
  · have hcount : s.poolEntryCount = s.clientPool.keys.length := hcount
    have herase := length_keys_erase hmem
    show s.poolEntryCount - 1 = ((s.clientPool.erase key).keys.length : ℤ)
    omega
  · have htotal : s.totalEvictions + (evicted : ℤ) = s.log.countP Event.isEviction := htotal
    show s.totalEvictions + ((evicted + 1 : ℕ) : ℤ) = ((s.log ++ [_]).countP _ : ℕ)
    rw [List.countP_append]
    show _ = ((_ + 1 : ℕ) : ℤ)
    omega

/-- A round of the clearing keeps the invariant. -/
theorem Inv.advance_clear (hinv : Inv s) {rest : List Bytes} (hphase : s.phases t = .clear rest) :
    Inv (s.advance t c) := by
  have ht : (s.phases t).locked = true := by
    rw [hphase]
    rfl
  have hfacts := hinv.facts t
  rw [State.advance, hphase]
  rw [hphase] at hfacts
  obtain ⟨htotal, hperm⟩ := hfacts
  have hperm : rest.Perm s.clientPool.keys := hperm
  cases rest with
  | cons key rest =>
    have hmem : key ∈ s.clientPool.keys := hperm.mem_iff.mp List.mem_cons_self
    refine hinv.of_locked (hinv.frame_remove hmem rfl rfl rfl rfl rfl) ht rfl rfl rfl ⟨?_, ?_⟩
    · show s.totalEvictions = ((s.log ++ [_]).countP _ : ℕ)
      rw [List.countP_append, List.countP_singleton]
      exact htotal
    · exact perm_keys_erase hperm
  | nil =>
    refine hinv.of_locked (hinv.frame rfl rfl (.inl rfl)) ht rfl rfl rfl
      ⟨⟨?_, htotal⟩, fun sweep hsweep => absurd hsweep (by simp)⟩
    show (0 : ℤ) = s.clientPool.keys.length
    rw [← hperm.length_eq]
    rfl

/-- The lock is given back with exact counters. -/
theorem Inv.advance_unlock (hinv : Inv s) {swept : Option Sweep} {result : Option ℕ}
    (hphase : s.phases t = .unlock swept result) : Inv (s.advance t c) := by
  have ht : (s.phases t).locked = true := by
    rw [hphase]
    rfl
  have hfacts := hinv.facts t
  rw [State.advance, hphase]
  rw [hphase] at hfacts
  refine ⟨fun u => ?_, fun _ => hfacts.1, fun u => ?_, hinv.stored, hinv.balance⟩
  · show (Function.update s.phases t (.returned result) u).locked = true ↔ none = some u
    by_cases hu : u = t
    · rw [hu, Function.update_self]
      simp [Phase.locked]
    · rw [Function.update_of_ne hu, hinv.not_locked_of_ne ht hu]
      simp
  · show Facts s.core (Function.update s.phases t (.returned result) u)
    by_cases hu : u = t
    · rw [hu, Function.update_self]
      trivial
    · rw [Function.update_of_ne hu]
      exact hinv.facts u

/-- Every step keeps the invariant. -/
theorem Inv.step (hinv : Inv s) (a : Action) : Inv (step s a) := by
  cases a with
  | start t job now => exact hinv.start
  | advance t c =>
    show Inv (s.advance t c)
    cases hphase : s.phases t with
    | idle => rwa [State.advance, hphase]
    | lookup key => exact hinv.advance_lookup hphase
    | touch e holdsLock => exact hinv.advance_touch hphase
    | collect cutoff toDelete => exact hinv.advance_collect hphase
    | lock errand => exact hinv.advance_lock hphase
    | lookupLocked key => exact hinv.advance_lookupLocked hphase
    | build key => exact hinv.advance_build hphase
    | loadMax protectedKey created => exact hinv.advance_loadMax hphase
    | scan sweep rest created => exact hinv.advance_scan hphase
    | evict sweep rest created => exact hinv.advance_evict hphase
    | recheck cutoff rest evicted => exact hinv.advance_recheck hphase
    | expire cutoff key e lastAccess rest evicted => exact hinv.advance_expire hphase
    | clear rest => exact hinv.advance_clear hphase
    | unlock swept result => exact hinv.advance_unlock hphase
    | returned result => rwa [State.advance, hphase]

/-- The empty pool meets the invariant. -/
theorem inv_init : Inv {} where
  owner t := by simp [Phase.locked]
  settled _ := ⟨rfl, rfl⟩
  facts t := trivial
  stored key e he := by simp at he
  balance := rfl

theorem inv_exec (as : List Action) : Inv (Run.exec PoolThreads.step {} as) :=
  Run.always_exec (fun _ a hinv => hinv.step a) inv_init as

end TlsClient.Engine.PoolThreads
