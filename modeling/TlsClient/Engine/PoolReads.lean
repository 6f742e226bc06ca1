import TlsClient.Engine.PoolThreads

/-!
# What the threads have read

The capacity, the access times of a sweep and those the scanner looks at again are read in one step and
used in later ones. `Reads` ties what a thread carries to the steps of the run in which it was read: the
capacity and the access times of its sweep are those it has read, all of them and no others, and the
access time for which an entry expires is the one of its re-check. A thread has one job, so it reads the
capacity once and each access time of its sweep once.
-/

namespace TlsClient.Engine.PoolThreads

open TlsClient.Ffi

/-! ## The reading steps -/

/-- `t` loads the capacity for the sweep that protects `key`. -/
def ReadsCapacity (t : ℕ) (key : Bytes) (created : Option ℕ) (capacity : ℤ) (s : State) (a : Action) : Prop :=
  (∃ c, a = .advance t c) ∧ s.phases t = .loadMax key created ∧ s.poolMaxEntries = capacity

/-- The sweep of `t` loads the access time of the entry under `key`. -/
def ReadsAccess (t : ℕ) (key : Bytes) (lastAccess : ℤ) (s : State) (a : Action) : Prop :=
  (∃ c, a = .advance t c) ∧ ∃ sweep rest created, s.phases t = .scan sweep (key :: rest) created ∧
    key ≠ sweep.protectedKey ∧ ∃ e entry, s.load key = some (e, entry) ∧ entry.lastAccess = lastAccess

/-- The scanner `t` loads the access time of the entry under `key` again, with the lock held. -/
def Rechecks (t : ℕ) (cutoff : ℤ) (key : Bytes) (e : ℕ) (lastAccess : ℤ) (s : State) (a : Action) : Prop :=
  (∃ c, a = .advance t c) ∧ ∃ rest evicted, s.phases t = .recheck cutoff (key :: rest) evicted ∧
    ∃ entry, s.load key = some (e, entry) ∧ entry.lastAccess = lastAccess

/-- The next step of a thread in the phase reads a capacity, or an access time of a sweep. -/
def Phase.reads : Phase → Bool
  | .loadMax _ _ => true
  | .scan _ (_ :: _) _ => true
  | _ => false

/-- What a thread has read in a run. -/
structure Reading (as : List Action) (t : ℕ) (capacity : Option (Bytes × Option ℕ × ℤ))
    (seen : List (Bytes × ℤ)) : Prop where
  capacity : ∀ key created n, Run.At step {} as (ReadsCapacity t key created n) ↔ capacity = some (key, created, n)
  seen : ∀ key a, Run.At step {} as (ReadsAccess t key a) ↔ (key, a) ∈ seen

/-- What a thread in a phase has read. -/
def Reads (as : List Action) (t : ℕ) : Phase → Prop
  | .scan sweep _ created => Reading as t (some (sweep.protectedKey, created, sweep.maxEntries)) sweep.seen
  | .evict sweep _ created => Reading as t (some (sweep.protectedKey, created, sweep.maxEntries)) sweep.seen
  | .unlock (some sweep) result => Reading as t (some (sweep.protectedKey, result, sweep.maxEntries)) sweep.seen
  | .unlock none result => ∃ capacity, Reading as t capacity [] ∧ ∀ read ∈ capacity, read.2.1 = result ∧ read.2.2 ≤ 0
  | .expire cutoff key e lastAccess _ _ =>
    Reading as t none [] ∧ Run.At step {} as (Rechecks t cutoff key e lastAccess)
  | .returned _ => True
  | _ => Reading as t none []

/-- The invariant of the run so far. -/
structure Tracked (as : List Action) (s : State) : Prop where
  reads : ∀ t, Reads as t (s.phases t)
  /-- a call that has stored its client goes on to read the capacity -/
  created : ∀ t key client, .created t key client ∈ s.log → s.phases t = .loadMax key (some client) ∨
    ∃ capacity, Run.At step {} as (ReadsCapacity t key (some client) capacity)
  expired : ∀ key e lastAccess cutoff, .expired key e lastAccess cutoff ∈ s.log →
    ∃ t, Run.At step {} as (Rechecks t cutoff key e lastAccess)

variable {as : List Action} {s s' : State} {t u : ℕ} {p q : Phase} {c : Choice} {a : Action}

/-! ## What a step adds to the readings -/

/-- A step of another thread, or one that reads nothing. -/
theorem Reading.silent {capacity : Option (Bytes × Option ℕ × ℤ)} {seen : List (Bytes × ℤ)}
    (h : Reading as t capacity seen)
    (hsilent : ∀ c, a = .advance t c → ((Run.exec step {} as).phases t).reads = false) :
    Reading (as ++ [a]) t capacity seen where
  capacity key created n := by
    rw [Run.at_concat, h.capacity]
    refine or_iff_left fun ⟨⟨c, hc⟩, hphase, _⟩ => ?_
    have hreads := hsilent c hc
    rw [hphase] at hreads
    contradiction
  seen key lastAccess := by
    rw [Run.at_concat, h.seen]
    refine or_iff_left fun ⟨⟨c, hc⟩, sweep, rest, created, hphase, _⟩ => ?_
    have hreads := hsilent c hc
    rw [hphase] at hreads
    contradiction

/-- The step that loads the capacity. -/
theorem Reading.load (h : Reading as t none []) {key : Bytes} {created : Option ℕ}
    (hphase : (Run.exec step {} as).phases t = .loadMax key created) :
    Reading (as ++ [.advance t c]) t (some (key, created, (Run.exec step {} as).poolMaxEntries)) [] where
  capacity key' created' n := by
    rw [Run.at_concat, h.capacity, ReadsCapacity, hphase]
    simp only [reduceCtorEq, false_or, Option.some.injEq, Prod.mk.injEq, Phase.loadMax.injEq, Action.advance.injEq,
      true_and, exists_eq', and_assoc]
  seen key' lastAccess := by
    rw [Run.at_concat, h.seen, ReadsAccess, hphase]
    simp

/-- The step of a sweep that loads an access time. -/
theorem Reading.see {sweep : Sweep} {rest : List Bytes} {created : Option ℕ}
    {capacity : Option (Bytes × Option ℕ × ℤ)} (h : Reading as t capacity sweep.seen) {key : Bytes}
    (hphase : (Run.exec step {} as).phases t = .scan sweep (key :: rest) created)
    (hkey : key ≠ sweep.protectedKey) {e : ℕ} {entry : Entry}
    (hload : (Run.exec step {} as).load key = some (e, entry)) :
    Reading (as ++ [.advance t c]) t capacity (sweep.seen ++ [(key, entry.lastAccess)]) where
  capacity key' created' n := by
    rw [Run.at_concat, h.capacity, ReadsCapacity, hphase]
    simp
  seen key' lastAccess := by
    rw [Run.at_concat, h.seen, List.mem_append, List.mem_singleton, Prod.mk.injEq]
    refine or_congr_right ⟨?_, ?_⟩
    · rintro ⟨-, sweep', rest', created', hphase', -, e', entry', hload', rfl⟩
      obtain ⟨-, hkeys, -⟩ := Phase.scan.inj (hphase.symm.trans hphase')
      obtain ⟨rfl, -⟩ := List.cons.inj hkeys
      obtain ⟨-, rfl⟩ := Prod.mk.inj (Option.some.inj (hload.symm.trans hload'))
      exact ⟨rfl, rfl⟩
    · rintro ⟨rfl, rfl⟩
      exact ⟨⟨c, rfl⟩, sweep, rest, created, hphase, hkey, e, entry, hload, rfl⟩

/-- The step of a sweep that loads nothing. -/
theorem Reading.pass {sweep : Sweep} {rest : List Bytes} {created : Option ℕ}
    {capacity : Option (Bytes × Option ℕ × ℤ)} {seen : List (Bytes × ℤ)} (h : Reading as t capacity seen) {key : Bytes}
    (hphase : (Run.exec step {} as).phases t = .scan sweep (key :: rest) created)
    (hpass : key = sweep.protectedKey ∨ (Run.exec step {} as).load key = none) :
    Reading (as ++ [.advance t c]) t capacity seen where
  capacity key' created' n := by
    rw [Run.at_concat, h.capacity, ReadsCapacity, hphase]
    simp
  seen key' lastAccess := by
    rw [Run.at_concat, h.seen]
    refine or_iff_left ?_
    rintro ⟨-, sweep', rest', created', hphase', hkey', e, entry, hload, -⟩
    obtain ⟨rfl, hkeys, -⟩ := Phase.scan.inj (hphase.symm.trans hphase')
    obtain ⟨rfl, -⟩ := List.cons.inj hkeys
    rcases hpass with heq | hnone
    · exact hkey' heq
    · exact absurd (hnone.symm.trans hload) (by simp)

/-- A thread that has read nothing gives the lock back. -/
theorem Reading.unlock {result : Option ℕ} (h : Reading as t none []) : Reads as t (.unlock none result) :=
  ⟨none, h, fun _ hread => by contradiction⟩

/-- A thread that takes no step, or whose phase carries nothing, has read what it had read. -/
theorem Reads.silent (h : Reads as t p)
    (hsilent : ∀ c, a = .advance t c → ((Run.exec step {} as).phases t).reads = false) :
    Reads (as ++ [a]) t p := by
  cases p with
  | scan sweep rest created => exact Reading.silent h hsilent
  | evict sweep rest created => exact Reading.silent h hsilent
  | unlock swept result =>
    cases swept with
    | some sweep => exact Reading.silent h hsilent
    | none =>
      obtain ⟨capacity, hreading, hresult⟩ := h
      exact ⟨capacity, hreading.silent hsilent, hresult⟩
  | expire cutoff key e lastAccess rest evicted => exact ⟨h.1.silent hsilent, Run.at_concat.mpr (.inl h.2)⟩
  | returned result => trivial
  | _ => exact Reading.silent h hsilent

/-! ## The steps -/

/-- The start of a job changes the phase of its thread only. -/
theorem State.begin_phases (s : State) (t : ℕ) (now : ℤ) (job : Job) :
    ∃ p, (s.begin t now job).phases = Function.update s.phases t p ∧ (s.begin t now job).log = s.log ∧
      ∀ as, Reading as t none [] → Reads as t p := by
  cases job with
  | getOrCreate key => exact ⟨_, rfl, rfl, fun _ h => h⟩
  | evictStale => exact ⟨_, rfl, rfl, fun _ h => h⟩
  | setMaxEntries entries => exact ⟨_, rfl, rfl, fun _ h => h⟩
  | setTTL seconds => exact ⟨_, rfl, rfl, fun _ _ => trivial⟩
  | clear => exact ⟨_, rfl, rfl, fun _ h => h⟩

/-- A step of a thread to its next phase. -/
theorem Tracked.move (h : Tracked as s) (hs : Run.exec step {} as = s)
    (hphases : s'.phases = Function.update s.phases t p)
    (hlog : s'.log = s.log ∨ ∃ e : Event, s'.log = s.log ++ [e] ∧
      (∀ u key client, e = .created u key client → u = t ∧ p = .loadMax key (some client)) ∧
      ∀ key n lastAccess cutoff, e = .expired key n lastAccess cutoff →
        Run.At step {} as (Rechecks t cutoff key n lastAccess))
    (hp : Reads (as ++ [.advance t c]) t p) : Tracked (as ++ [.advance t c]) s' where
  reads u := by
    rw [hphases]
    by_cases hu : u = t
    · rw [hu, Function.update_self]
      exact hp
    · rw [Function.update_of_ne hu]
      exact (h.reads u).silent fun c' heq => absurd (Action.advance.inj heq).1.symm hu
  created u key client hmem := by
    have hold : .created u key client ∈ s.log → s'.phases u = .loadMax key (some client) ∨
        ∃ capacity, Run.At step {} (as ++ [.advance t c]) (ReadsCapacity u key (some client) capacity) := by
      intro hmem
      rcases h.created u key client hmem with hphase | ⟨capacity, hread⟩
      · rw [hphases]
        by_cases hu : u = t
        -- the thread takes the step that loads the capacity
        · subst hu
          refine .inr ⟨s.poolMaxEntries, Run.at_concat.mpr (.inr ?_)⟩
          rw [hs]
          exact ⟨⟨c, rfl⟩, hphase, rfl⟩
        · rw [Function.update_of_ne hu]
          exact .inl hphase
      · exact .inr ⟨capacity, Run.at_concat.mpr (.inl hread)⟩
    rcases hlog with hlog | ⟨e, hlog, hcreated, -⟩
    · exact hold (hlog ▸ hmem)
    · rw [hlog, List.mem_append, List.mem_singleton] at hmem
      rcases hmem with hmem | heq
      · exact hold hmem
      · obtain ⟨rfl, rfl⟩ := hcreated u key client heq.symm
        rw [hphases, Function.update_self]
        exact .inl rfl
  expired key n lastAccess cutoff hmem := by
    have hold : .expired key n lastAccess cutoff ∈ s.log →
        ∃ u, Run.At step {} (as ++ [.advance t c]) (Rechecks u cutoff key n lastAccess) := by
      intro hmem
      obtain ⟨u, hread⟩ := h.expired key n lastAccess cutoff hmem
      exact ⟨u, Run.at_concat.mpr (.inl hread)⟩
    rcases hlog with hlog | ⟨e, hlog, -, hexpired⟩
    · exact hold (hlog ▸ hmem)
    · rw [hlog, List.mem_append, List.mem_singleton] at hmem
      rcases hmem with hmem | heq
      · exact hold hmem
      · exact ⟨t, Run.at_concat.mpr (.inl (hexpired key n lastAccess cutoff heq.symm))⟩

/-- A step that is not enabled. -/
theorem Tracked.stay (h : Tracked as s) (hs : Run.exec step {} as = s)
    (ha : ∀ u c, a = .advance u c → (s.phases u).reads = false) : Tracked (as ++ [a]) s where
  reads u := (h.reads u).silent fun c hc => hs ▸ ha u c hc
  created u key client hmem := by
    refine (h.created u key client hmem).imp_right fun ⟨capacity, hread⟩ => ?_
    exact ⟨capacity, Run.at_concat.mpr (.inl hread)⟩
  expired key n lastAccess cutoff hmem := by
    obtain ⟨u, hread⟩ := h.expired key n lastAccess cutoff hmem
    exact ⟨u, Run.at_concat.mpr (.inl hread)⟩

/-- A step of a phase without reads keeps the reads tracked. -/
theorem Tracked.stay_of_silent (h : Tracked as s) (hs : Run.exec step {} as = s) (hphase : s.phases t = q)
    (hsilent : q.reads = false) : Tracked (as ++ [.advance t c]) s := by
  refine h.stay hs fun u c' hc => ?_
  obtain ⟨rfl, -⟩ := Action.advance.inj hc
  rw [hphase]
  exact hsilent

/-- So does a new call. -/
theorem Tracked.start (h : Tracked as s) (hs : Run.exec step {} as = s) {job : Job} {now : ℤ} :
    Tracked (as ++ [.start t job now]) (step s (.start t job now)) := by
  rw [step]
  split_ifs with hidle
  · obtain ⟨p, hphases, hlog, hp⟩ := s.begin_phases t now job
    have hstay := h.stay (a := .start t job now) hs fun u c hc => by contradiction
    refine ⟨fun u => ?_, fun u key client hmem => ?_, fun key n lastAccess cutoff hmem => ?_⟩
    · show Reads _ u ((s.begin t now job).phases u)
      rw [hphases]
      by_cases hu : u = t
      · rw [hu, Function.update_self]
        have hreads := hstay.reads t
        rw [hidle] at hreads
        exact hp _ hreads
      · rw [Function.update_of_ne hu]
        exact hstay.reads u
    · have hmem : .created u key client ∈ s.log := hlog ▸ hmem
      refine (hstay.created u key client hmem).imp_left fun hphase => ?_
      show (s.begin t now job).phases u = _
      rw [hphases, Function.update_of_ne, hphase]
      rintro rfl
      exact absurd (hidle.symm.trans hphase) (by simp)
    · exact hstay.expired key n lastAccess cutoff (hlog ▸ hmem)
  · exact h.stay hs fun u c hc => by contradiction

/-- A step that reads neither a capacity nor an access time of a sweep. -/
theorem Tracked.quiet (h : Tracked as s) (hs : Run.exec step {} as = s) (hphase : s.phases t = q)
    (hsilent : q.reads = false) (hphases : s'.phases = Function.update s.phases t p)
    (hlog : s'.log = s.log ∨ ∃ e : Event, s'.log = s.log ++ [e] ∧
      (∀ u key client, e = .created u key client → u = t ∧ p = .loadMax key (some client)) ∧
      ∀ key n lastAccess cutoff, e = .expired key n lastAccess cutoff →
        Run.At step {} as (Rechecks t cutoff key n lastAccess))
    (hp : ∀ bs, Reads bs t q → Reads bs t p) : Tracked (as ++ [.advance t c]) s' := by
  have hreads := h.reads t
  rw [hphase] at hreads
  refine h.move hs hphases hlog (hp _ (hreads.silent fun _ _ => ?_))
  rw [hs, hphase]
  exact hsilent

/-- A deletion under the key of the event. -/
theorem Tracked.removed (h : Tracked as s) (hs : Run.exec step {} as = s) (hphase : s.phases t = q)
    (hsilent : q.reads = false) {e : Event} (hphases : s'.phases = Function.update s.phases t p)
    (hlog : s'.log = s.log ++ [e])
    (hcreated : ∀ u key client, e ≠ .created u key client)
    (hexpired : ∀ key n lastAccess cutoff, e = .expired key n lastAccess cutoff →
      Run.At step {} as (Rechecks t cutoff key n lastAccess))
    (hp : ∀ bs, Reads bs t q → Reads bs t p) : Tracked (as ++ [.advance t c]) s' :=
  h.quiet hs hphase hsilent hphases
    (.inr ⟨e, hlog, fun u key client heq => absurd heq (hcreated u key client), hexpired⟩) hp

/-- The load of the capacity starts a sweep, or ends the call. -/
theorem Tracked.advance_loadMax (h : Tracked as s) (hs : Run.exec step {} as = s) {key : Bytes}
    {created : Option ℕ} (hphase : s.phases t = .loadMax key created) :
    Tracked (as ++ [.advance t c]) (s.advance t c) := by
  subst hs
  have hreads := h.reads t
  rw [hphase] at hreads
  have hload := Reading.load (c := c) hreads hphase
  rw [State.advance, hphase]
  dsimp only
  split_ifs with hmax
  · refine h.move rfl rfl (.inl rfl) ⟨_, hload, fun read hread => ?_⟩
    obtain rfl := Option.some.inj hread
    exact ⟨rfl, hmax⟩
  · exact h.move rfl rfl (.inl rfl) hload

/-- A round of the scan keeps the access times tracked. -/
theorem Tracked.advance_scan (h : Tracked as s) (hs : Run.exec step {} as = s) {sweep : Sweep}
    {rest : List Bytes} {created : Option ℕ} (hphase : s.phases t = .scan sweep rest created) :
    Tracked (as ++ [.advance t c]) (s.advance t c) := by
  subst hs
  have hreads := h.reads t
  rw [hphase] at hreads
  rw [State.advance, hphase]
  cases rest with
  | nil => exact h.quiet rfl hphase rfl rfl (.inl rfl) fun _ h => h
  | cons key rest =>
    dsimp only
    split_ifs with hkey
    · exact h.move rfl rfl (.inl rfl) (Reading.pass hreads hphase (.inl hkey))
    · split
      case h_1 e entry hload => exact h.move rfl rfl (.inl rfl) (Reading.see hreads hphase hkey hload)
      case h_2 hnone => exact h.move rfl rfl (.inl rfl) (Reading.pass hreads hphase (.inr hnone))

/-- An eviction keeps the reads of its sweep. -/
theorem Tracked.advance_evict (h : Tracked as s) (hs : Run.exec step {} as = s) {sweep : Sweep}
    {rest : List Bytes} {created : Option ℕ} (hphase : s.phases t = .evict sweep rest created) :
    Tracked (as ++ [.advance t c]) (s.advance t c) := by
  rw [State.advance, hphase]
  cases rest with
  | nil => exact h.quiet hs hphase rfl rfl (.inl rfl) fun _ h => h
  | cons key rest => exact h.removed hs hphase rfl rfl rfl (by simp) (by simp) fun _ h => h

/-- The access time that the scanner compares with the cutoff is the one it has loaded in this step. -/
theorem Tracked.advance_recheck (h : Tracked as s) (hs : Run.exec step {} as = s) {cutoff : ℤ}
    {rest : List Bytes} {evicted : ℕ} (hphase : s.phases t = .recheck cutoff rest evicted) :
    Tracked (as ++ [.advance t c]) (s.advance t c) := by
  rw [State.advance, hphase]
  cases rest with
  | nil => exact h.quiet hs hphase rfl rfl (.inl rfl) fun _ => Reading.unlock
  | cons key rest =>
    dsimp only
    split
    case h_1 e entry hload =>
      split_ifs with hfresh
      · exact h.quiet hs hphase rfl rfl (.inl rfl) fun _ h => h
      · have hstay := (h.stay_of_silent (c := c) hs hphase rfl).reads t
        rw [hphase] at hstay
        refine h.move hs rfl (.inl rfl) ⟨hstay, Run.at_concat.mpr (.inr ?_)⟩
        rw [hs]
        exact ⟨⟨c, rfl⟩, rest, evicted, hphase, entry, hload, rfl⟩
    case h_2 => exact h.quiet hs hphase rfl rfl (.inl rfl) fun _ h => h

/-- The removal of an expired entry reads nothing. -/
theorem Tracked.advance_expire (h : Tracked as s) (hs : Run.exec step {} as = s) {cutoff lastAccess : ℤ}
    {key : Bytes} {rest : List Bytes} {e evicted : ℕ}
    (hphase : s.phases t = .expire cutoff key e lastAccess rest evicted) :
    Tracked (as ++ [.advance t c]) (s.advance t c) := by
  have hreads := h.reads t
  rw [hphase] at hreads
  rw [State.advance, hphase]
  refine h.removed hs hphase rfl rfl rfl (by simp) (fun key' n a cutoff' heq => ?_) fun _ h => h.1
  obtain ⟨rfl, rfl, rfl, rfl⟩ := Event.expired.inj heq
  exact hreads.2

/-- A lookup keeps the reads tracked. -/
theorem Tracked.advance_lookup (h : Tracked as s) (hs : Run.exec step {} as = s) {key : Bytes}
    (hphase : s.phases t = .lookup key ∨ s.phases t = .lookupLocked key) :
    Tracked (as ++ [.advance t c]) (s.advance t c) := by
  rcases hphase with hphase | hphase
  all_goals
    rw [State.advance, hphase]
    dsimp only
    split
    · exact h.quiet hs hphase rfl rfl (.inr ⟨_, rfl, by simp, by simp⟩) fun _ h => h
    · exact h.quiet hs hphase rfl rfl (.inl rfl) fun _ h => h

/-- The write of an access time keeps the reads tracked. -/
theorem Tracked.advance_touch (h : Tracked as s) (hs : Run.exec step {} as = s) {e : ℕ} {holdsLock : Bool}
    (hphase : s.phases t = .touch e holdsLock) : Tracked (as ++ [.advance t c]) (s.advance t c) := by
  rw [State.advance, hphase]
  cases holdsLock with
  | false => exact h.quiet hs hphase rfl rfl (.inl rfl) fun _ _ => trivial
  | true => exact h.quiet hs hphase rfl rfl (.inl rfl) fun _ => Reading.unlock

/-- A round of the first scan keeps the reads tracked. -/
theorem Tracked.advance_collect (h : Tracked as s) (hs : Run.exec step {} as = s) {cutoff : ℤ}
    {toDelete : List Bytes} (hphase : s.phases t = .collect cutoff toDelete) :
    Tracked (as ++ [.advance t c]) (s.advance t c) := by
  have hstay := h.stay_of_silent (c := c) hs hphase rfl
  rw [State.advance, hphase]
  dsimp only
  split
  · exact h.quiet hs hphase rfl rfl (.inl rfl) fun _ h => h
  · split
    · split_ifs
      · exact h.quiet hs hphase rfl rfl (.inl rfl) fun _ h => h
      · exact hstay
    · exact hstay

/-- Taking the lock keeps the reads tracked. -/
theorem Tracked.advance_lock (h : Tracked as s) (hs : Run.exec step {} as = s) {errand : Errand}
    (hphase : s.phases t = .lock errand) : Tracked (as ++ [.advance t c]) (s.advance t c) := by
  rw [State.advance, hphase]
  dsimp only
  split
  · exact h.stay_of_silent hs hphase rfl
  · refine h.quiet hs hphase rfl rfl (.inl rfl) ?_
    cases errand <;> exact fun _ h => h

/-- The call that stores its client is about to read the capacity. -/
theorem Tracked.advance_build (h : Tracked as s) (hs : Run.exec step {} as = s) {key : Bytes}
    (hphase : s.phases t = .build key) : Tracked (as ++ [.advance t c]) (s.advance t c) := by
  rw [State.advance, hphase]
  dsimp only
  split_ifs
  · refine h.quiet hs hphase rfl rfl (.inr ⟨_, rfl, fun u k client heq => ?_, by simp⟩) fun _ h => h
    obtain ⟨rfl, rfl, rfl⟩ := Event.created.inj heq
    exact ⟨rfl, rfl⟩
  · exact h.quiet hs hphase rfl rfl (.inr ⟨_, rfl, by simp, by simp⟩) fun _ => Reading.unlock

/-- A round of the clearing keeps the reads tracked. -/
theorem Tracked.advance_clear (h : Tracked as s) (hs : Run.exec step {} as = s) {rest : List Bytes}
    (hphase : s.phases t = .clear rest) : Tracked (as ++ [.advance t c]) (s.advance t c) := by
  rw [State.advance, hphase]
  cases rest with
  | nil => exact h.quiet hs hphase rfl rfl (.inl rfl) fun _ => Reading.unlock
  | cons key rest => exact h.removed hs hphase rfl rfl rfl (by simp) (by simp) fun _ h => h

/-- Every step of a call keeps the reads tracked. -/
theorem Tracked.advance (h : Tracked as s) (hs : Run.exec step {} as = s) :
    Tracked (as ++ [.advance t c]) (s.advance t c) := by
  cases hphase : s.phases t with
  | idle =>
    rw [State.advance, hphase]
    exact h.stay_of_silent hs hphase rfl
  | lookup key => exact h.advance_lookup hs (.inl hphase)
  | touch e holdsLock => exact h.advance_touch hs hphase
  | collect cutoff toDelete => exact h.advance_collect hs hphase
  | lock errand => exact h.advance_lock hs hphase
  | lookupLocked key => exact h.advance_lookup hs (.inr hphase)
  | build key => exact h.advance_build hs hphase
  | loadMax key created => exact h.advance_loadMax hs hphase
  | scan sweep rest created => exact h.advance_scan hs hphase
  | evict sweep rest created => exact h.advance_evict hs hphase
  | recheck cutoff rest evicted => exact h.advance_recheck hs hphase
  | expire cutoff key e lastAccess rest evicted => exact h.advance_expire hs hphase
  | clear rest => exact h.advance_clear hs hphase
  | unlock swept result =>
    rw [State.advance, hphase]
    exact h.quiet hs hphase rfl rfl (.inl rfl) fun _ _ => trivial
  | returned result =>
    rw [State.advance, hphase]
    exact h.stay_of_silent hs hphase rfl

/-- Every step keeps the reads tracked. -/
theorem Tracked.step (h : Tracked as (Run.exec PoolThreads.step {} as)) (a : Action) :
    Tracked (as ++ [a]) (PoolThreads.step (Run.exec PoolThreads.step {} as) a) := by
  cases a with
  | start t job now => exact h.start rfl
  | advance t c => exact h.advance rfl

/-- The reads are tracked in every run. -/
theorem tracked_exec (as : List Action) : Tracked as (Run.exec step {} as) := by
  have hinit : Tracked [] {} := by
    refine ⟨fun t => ⟨fun _ _ _ => ?_, fun _ _ => ?_⟩, fun _ _ _ hmem => by contradiction,
      fun _ _ _ _ hmem => by contradiction⟩
    · simp [Run.not_at_nil]
    · simp [Run.not_at_nil]
  exact Run.history_exec hinit (fun as a h => h.step a) as

/-- A call that gives the lock back after it has read a positive capacity has swept with it. -/
theorem Tracked.swept_of_read (h : Tracked as s) {swept : Option Sweep} {result created : Option ℕ} {key : Bytes}
    {capacity : ℤ} (hphase : s.phases t = .unlock swept result)
    (hread : Run.At PoolThreads.step {} as (ReadsCapacity t key created capacity)) (hpos : 0 < capacity) :
    ∃ sweep, swept = some sweep ∧ sweep.protectedKey = key ∧ result = created ∧ sweep.maxEntries = capacity := by
  have hreads := h.reads t
  rw [hphase] at hreads
  cases swept with
  | some sweep =>
    obtain ⟨hkey, hresult, hcapacity⟩ : sweep.protectedKey = key ∧ result = created ∧ sweep.maxEntries = capacity := by
      simpa using (Reading.capacity hreads key created capacity).mp hread
    exact ⟨sweep, rfl, hkey, hresult, hcapacity⟩
  | none =>
    obtain ⟨read, hreading, hread'⟩ := hreads
    have hle := (hread' _ ((hreading.capacity key created capacity).mp hread)).2
    exact absurd hpos hle.not_gt

/-! ## The end of an eviction -/

/-- The action is a step of `t`. -/
def Action.advances (t : ℕ) : Action → Bool
  | .advance u _ => u = t
  | .start _ _ _ => false

/-- The thread needs at most `n` steps of its own to the end of its eviction. -/
def Phase.Within (created : Option ℕ) (n : ℕ) : Phase → Prop
  | .scan sweep rest c => c = created ∧ 2 * rest.length + sweep.seen.length + 2 ≤ n
  | .evict _ rest c => c = created ∧ rest.length + 1 ≤ n
  | .unlock _ result => result = created
  | _ => False

/-- The other threads leave the phase of a thread alone. -/
theorem advance_phases_of_ne (hu : t ≠ u) : (s.advance u c).phases t = s.phases t := by
  rw [State.advance]
  split
  all_goals
    repeat' split
    all_goals first | rfl | exact Function.update_of_ne hu _ _

/-- The steps of others leave a busy call where it is. -/
theorem step_phases_of_not_advances (ha : a.advances t = false) (hbusy : s.phases t ≠ .idle) :
    (step s a).phases t = s.phases t := by
  cases a with
  | start u job now =>
    rw [step]
    split_ifs with hidle
    · obtain ⟨p, hphases, -⟩ := s.begin_phases u now job
      show (s.begin u now job).phases t = s.phases t
      rw [hphases, Function.update_of_ne]
      rintro rfl
      exact hbusy hidle
    · rfl
  | advance u c => exact advance_phases_of_ne fun heq => by simp [Action.advances, heq] at ha

/-- A victim of a sweep was a candidate. -/
theorem Sweep.length_choose_le (sweep : Sweep) : sweep.choose.length ≤ sweep.seen.length := by
  rw [choose, List.length_map, List.length_take, (List.perm_insertionSort _ _).length_eq]
  exact min_le_right _ _

/-- What holds of a phase holds of the call that gets there. -/
theorem Phase.Within.update {phases : ℕ → Phase} {created : Option ℕ} {n : ℕ} (h : p.Within created n) :
    (Function.update phases t p t).Within created n := by
  rw [Function.update_self]
  exact h

/-- Each step of its own brings a thread closer to the end of its eviction. -/
theorem Phase.Within.advance {created : Option ℕ} {n : ℕ} (h : (s.phases t).Within created n)
    (hmore : ∀ swept, s.phases t ≠ .unlock swept created) :
    ∃ m, n = m + 1 ∧ ((s.advance t c).phases t).Within created m := by
  rw [State.advance]
  cases hphase : s.phases t with
  | scan sweep rest c =>
    rw [hphase] at h
    obtain ⟨rfl, hn⟩ := h
    refine ⟨n - 1, by omega, ?_⟩
    cases rest with
    | nil =>
      have hle := sweep.length_choose_le
      -- what is left after a scan: the victims, the end of the sweep and the unlock
      exact update ⟨rfl, by show sweep.choose.length + 1 ≤ n - 1; omega⟩
    | cons key rest =>
      rw [List.length_cons] at hn
      dsimp only
      split_ifs
      -- a key that is passed costs two of the rest and gives at most one to `seen`
      · exact update ⟨rfl, by show 2 * rest.length + sweep.seen.length + 2 ≤ n - 1; omega⟩
      · split
        · refine update ⟨rfl, ?_⟩
          rw [List.length_append, List.length_singleton]
          omega
        · exact update ⟨rfl, by omega⟩
  | evict sweep rest c =>
    rw [hphase] at h
    obtain ⟨rfl, hn⟩ := h
    refine ⟨n - 1, by omega, ?_⟩
    cases rest with
    | nil => exact update rfl
    | cons key rest =>
      rw [List.length_cons] at hn
      exact update ⟨rfl, by omega⟩
  | unlock swept result =>
    rw [hphase] at h
    obtain rfl : result = created := h
    exact absurd hphase (hmore swept)
  | _ =>
    rw [hphase] at h
    exact h.elim

/-- However the steps of the other threads come in between, an eviction ends when its thread has taken
enough steps. -/
theorem reaches_unlock {created : Option ℕ} {bs : List Action} {n : ℕ} (h : (s.phases t).Within created n)
    (hn : n ≤ bs.countP (Action.advances t)) :
    ∃ ds swept, ds <+: bs ∧ (Run.exec step s ds).phases t = .unlock swept created := by
  induction bs generalizing s n with
  | nil =>
    by_cases hend : ∃ swept, s.phases t = .unlock swept created
    · obtain ⟨swept, hend⟩ := hend
      exact ⟨[], swept, List.nil_prefix, hend⟩
    · obtain ⟨m, rfl, -⟩ := h.advance (c := {}) fun swept hphase => hend ⟨swept, hphase⟩
      exact absurd hn (Nat.not_succ_le_zero m)
  | cons b bs ih =>
    by_cases hend : ∃ swept, s.phases t = .unlock swept created
    · obtain ⟨swept, hend⟩ := hend
      exact ⟨[], swept, List.nil_prefix, hend⟩
    · -- the rest of the run ends it, after this step
      suffices hnext : ∃ m, ((step s b).phases t).Within created m ∧ m ≤ bs.countP (Action.advances t) by
        obtain ⟨m, hwithin, hm⟩ := hnext
        obtain ⟨ds, swept, hpre, hphase⟩ := ih hwithin hm
        exact ⟨b :: ds, swept, List.cons_prefix_cons.mpr ⟨rfl, hpre⟩, hphase⟩
      cases hb : b.advances t with
      | true =>
        cases b with
        | start u job now => contradiction
        | advance u c =>
          obtain rfl : u = t := by simpa [Action.advances] using hb
          obtain ⟨m, rfl, hwithin⟩ := h.advance (c := c) fun swept hphase => hend ⟨swept, hphase⟩
          rw [List.countP_cons_of_pos hb] at hn
          exact ⟨m, hwithin, Nat.le_of_succ_le_succ hn⟩
      | false =>
        rw [List.countP_cons_of_neg (by simp [hb])] at hn
        refine ⟨n, ?_, hn⟩
        rw [step_phases_of_not_advances hb]
        · exact h
        · intro hidle
          rw [hidle] at h
          exact h

/-- A call that comes to the load of the capacity gives the lock back, with what it has built. -/
theorem loadMax_reaches_unlock {key : Bytes} {created : Option ℕ} (hphase : s.phases t = .loadMax key created)
    (c : Choice) : ∃ n, ∀ bs : List Action, n ≤ bs.countP (Action.advances t) →
      ∃ ds swept, ds <+: bs ∧ (Run.exec step s (.advance t c :: ds)).phases t = .unlock swept created := by
  suffices hwithin : ∃ n, ((s.advance t c).phases t).Within created n by
    obtain ⟨n, hwithin⟩ := hwithin
    exact ⟨n, fun bs hn => reaches_unlock hwithin hn⟩
  rw [State.advance, hphase]
  dsimp only
  split_ifs
  · exact ⟨0, Phase.Within.update rfl⟩
  · exact ⟨_, Phase.Within.update ⟨rfl, le_rfl⟩⟩

end TlsClient.Engine.PoolThreads
