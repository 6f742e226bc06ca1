import TlsClient.Engine.PoolAccounting
import TlsClient.Engine.PoolReads

/-!
# What the calls get from the pool

The operations on one key form the history of a register that is written once: a call that finds the client
reads it, one that stores its client writes it, a failed build finds nothing, and a removal clears it. The
pool keeps these histories coherent (`Recorded`), so between two removals of a key its calls get one client
and build it once (`single_construction`). What a call returns is what it found or stored.
-/

namespace TlsClient.Engine.PoolThreads

open TlsClient.Ffi OnceRegister

/-- What an event does to the register of a key. -/
def Event.op (key : Bytes) : Event → Option (Op ℕ)
  | .found _ k client => if k = key then some (.read client) else none
  | .created _ k client => if k = key then some (.write client) else none
  | .failed _ k => if k = key then some .miss else none
  | .evicted k => if k = key then some .clear else none
  | .expired k _ _ _ => if k = key then some .clear else none
  | .cleared k => if k = key then some .clear else none

/-- The event is the call's deciding lookup or insertion, which gives it the client. -/
def Event.Decides (e : Event) (t : ℕ) (key : Bytes) (client : ℕ) : Prop :=
  e = .found t key client ∨ e = .created t key client

def Event.creates (key : Bytes) : Event → Bool
  | .created _ k _ => k = key
  | _ => false

/-- The operations on a key. -/
def history (log : List Event) (key : Bytes) : List (Op ℕ) :=
  log.filterMap (Event.op key)

/-- The client of an entry. -/
def clientOf (entries : List Entry) (e : ℕ) : Option ℕ :=
  (entries[e]?).map Entry.client

/-- The client under a key. -/
def heldIn (pool : AList fun _ : Bytes => ℕ) (entries : List Entry) (key : Bytes) : Option ℕ :=
  (pool.lookup key).bind (clientOf entries)

/-- The client that a thread in a phase has got. -/
def answer (entries : List Entry) : Phase → Option ℕ
  | .touch e _ => clientOf entries e
  | .loadMax _ created => created
  | .scan _ _ created => created
  | .evict _ _ created => created
  | .unlock _ result => result
  | .returned result => result
  | _ => none

/-- The call has got the client. -/
def Decided (s : State) (t : ℕ) (client : ℕ) : Prop :=
  ∃ key, s.jobs t = some (.getOrCreate key) ∧ ∃ e ∈ s.log, e.Decides t key client

/-- The call has stored the client under the key. -/
def Stored (s : State) (t : ℕ) (key : Bytes) (client : ℕ) : Prop :=
  s.jobs t = some (.getOrCreate key) ∧ .created t key client ∈ s.log

/-- What a thread in a phase knows. -/
def Knows (s : State) (t : ℕ) : Phase → Prop
  | .lookup key => s.jobs t = some (.getOrCreate key)
  | .lock (.getOrCreate key) => s.jobs t = some (.getOrCreate key)
  | .lookupLocked key => s.jobs t = some (.getOrCreate key)
  | .build key => s.jobs t = some (.getOrCreate key)
  | .touch e _ => ∃ client, clientOf s.entries e = some client ∧ Decided s t client
  | .loadMax key created => ∀ client ∈ created, Stored s t key client
  | .scan sweep _ created => ∀ client ∈ created, Stored s t sweep.protectedKey client
  | .evict sweep _ created => ∀ client ∈ created, Stored s t sweep.protectedKey client
  | .unlock (some sweep) result => ∀ client ∈ result, Stored s t sweep.protectedKey client
  | .unlock none result => ∀ client ∈ result, Decided s t client
  | .returned result => ∀ client ∈ result, Decided s t client
  | .expire cutoff _ _ lastAccess _ _ => lastAccess < cutoff
  | _ => True

/-- The invariant of the log. -/
structure Recorded (s : State) : Prop where
  coherent : ∀ key, Coherent none (history s.log key)
  value : ∀ key, OnceRegister.value none (history s.log key) = heldIn s.clientPool s.entries key
  knows : ∀ t, Knows s t (s.phases t)
  answers : ∀ t, ∀ e ∈ s.log, ∀ key client, e.Decides t key client →
    answer s.entries (s.phases t) = some client
  expired : ∀ key e lastAccess cutoff, .expired key e lastAccess cutoff ∈ s.log → lastAccess < cutoff

variable {s s' : State} {t : ℕ} {p q : Phase} {c : Choice}

/-! ## The client under a key -/

/-- What `Load` finds is the entry under the key. -/
theorem heldIn_of_load {key : Bytes} {e : ℕ} {entry : Entry} (hload : s.load key = some (e, entry)) :
    s.clientPool.lookup key = some e ∧ s.entries[e]? = some entry := by
  obtain ⟨n, hn, hentry⟩ := Option.bind_eq_some_iff.mp hload
  obtain ⟨entry', hentry', hpair⟩ := Option.map_eq_some_iff.mp hentry
  obtain ⟨rfl, rfl⟩ := Prod.mk.inj hpair
  exact ⟨hn, hentry'⟩

theorem heldIn_eq_none {pool : AList fun _ : Bytes => ℕ} {entries : List Entry} {key : Bytes}
    (habsent : key ∉ pool.keys) : heldIn pool entries key = none := by
  rw [heldIn, AList.lookup_eq_none.mpr habsent, Option.bind_none]

/-- An access time changes no client. -/
theorem client_modify (entries : List Entry) (e : ℕ) (now : ℤ) (i : ℕ) :
    clientOf (entries.modify e fun pe => { pe with lastAccess := now }) i = clientOf entries i := by
  rw [clientOf, clientOf, List.getElem?_modify]
  cases entries[i]? with
  | none => rfl
  | some entry => split_ifs <;> rfl

/-- A new entry is held under its key, and the others as before. -/
theorem heldIn_insert {pool : AList fun _ : Bytes => ℕ} {entries : List Entry} {entry : Entry}
    (hbound : ∀ key e, pool.lookup key = some e → e < entries.length) (key k : Bytes) :
    heldIn (pool.insert key entries.length) (entries ++ [entry]) k =
      if key = k then some entry.client else heldIn pool entries k := by
  split_ifs with hkey
  · rw [heldIn, ← hkey, AList.lookup_insert, Option.bind_some, clientOf, List.getElem?_concat_length,
      Option.map_some]
  · rw [heldIn, heldIn, AList.lookup_insert_ne (Ne.symm hkey)]
    cases hlookup : pool.lookup k with
    | none => rfl
    | some e =>
      rw [Option.bind_some, Option.bind_some, clientOf, clientOf,
        List.getElem?_append_left (hbound k e hlookup)]

/-- Without a key, the others are held as before. -/
theorem heldIn_erase (pool : AList fun _ : Bytes => ℕ) (entries : List Entry) (key k : Bytes) :
    heldIn (pool.erase key) entries k = if key = k then none else heldIn pool entries k := by
  split_ifs with hkey
  · rw [heldIn, ← hkey, AList.lookup_erase, Option.bind_none]
  · rw [heldIn, heldIn, AList.lookup_erase_ne (Ne.symm hkey)]

/-! ## How a step changes the invariant -/

/-- The history of a key, an event later. -/
theorem history_concat (log : List Event) (e : Event) (key : Bytes) :
    history (log ++ [e]) key = history log key ++ (e.op key).toList := by
  rw [history, List.filterMap_append]
  congr 1

/-- An event that fits its register. -/
theorem Recorded.event (h : Recorded s) {e : Event} {k : Bytes} {op : Op ℕ}
    (hop : ∀ key, e.op key = if k = key then some op else none)
    (hfits : op.Fits (heldIn s.clientPool s.entries k)) :
    (∀ key, Coherent none (history (s.log ++ [e]) key)) ∧
      ∀ key, OnceRegister.value none (history (s.log ++ [e]) key) =
        if k = key then op.after (heldIn s.clientPool s.entries k)
        else heldIn s.clientPool s.entries key := by
  have hhist : ∀ key, history (s.log ++ [e]) key =
      history s.log key ++ (if k = key then some op else none).toList := fun key => by
    rw [history_concat, hop]
  refine ⟨fun key => ?_, fun key => ?_⟩
  · rw [hhist, coherent_append, h.value]
    refine ⟨h.coherent key, ?_⟩
    split_ifs with hkey
    · subst hkey
      exact ⟨hfits, trivial⟩
    · trivial
  · rw [hhist, value_append, h.value]
    split_ifs with hkey
    · subst hkey
      rfl
    · rfl

/-- What a call knows stays true while its job, the log and the clients are kept. -/
theorem Knows.mono {u : ℕ} (h : Knows s u p) (hjobs : s'.jobs u = s.jobs u) (hlog : s.log ⊆ s'.log)
    (hclient : ∀ e client, clientOf s.entries e = some client → clientOf s'.entries e = some client) : Knows s' u p := by
  -- the log and the clients only grow, so what has been decided stays decided
  have hdecided : ∀ {client}, Decided s u client → Decided s' u client := fun ⟨key, hjob, e, hmem, hdecides⟩ =>
    ⟨key, hjobs.trans hjob, e, hlog hmem, hdecides⟩
  have hstored : ∀ {key client}, Stored s u key client → Stored s' u key client := fun ⟨hjob, hmem⟩ =>
    ⟨hjobs.trans hjob, hlog hmem⟩
  cases p with
  | lookup key => exact hjobs.trans h
  | lookupLocked key => exact hjobs.trans h
  | build key => exact hjobs.trans h
  | lock errand =>
    cases errand with
    | getOrCreate key => exact hjobs.trans h
    | _ => trivial
  | touch e holdsLock =>
    obtain ⟨client, hentry, hdec⟩ := h
    exact ⟨client, hclient e client hentry, hdecided hdec⟩
  | loadMax key created => exact fun client hc => hstored (h client hc)
  | scan sweep rest created => exact fun client hc => hstored (h client hc)
  | evict sweep rest created => exact fun client hc => hstored (h client hc)
  | unlock swept result =>
    cases swept with
    | none => exact fun client hc => hdecided (h client hc)
    | some sweep => exact fun client hc => hstored (h client hc)
  | returned result => exact fun client hc => hdecided (h client hc)
  | expire cutoff key e lastAccess rest evicted => exact h
  | _ => trivial

/-- The other threads know what they knew. -/
theorem Recorded.knows_update (h : Recorded s) (hphases : s'.phases = Function.update s.phases t p)
    (hjobs : ∀ u, u ≠ t → s'.jobs u = s.jobs u) (hlog : s.log ⊆ s'.log)
    (hclient : ∀ e client, clientOf s.entries e = some client → clientOf s'.entries e = some client)
    (hp : Knows s' t p) (u : ℕ) : Knows s' u (s'.phases u) := by
  rw [hphases]
  by_cases hu : u = t
  · rw [hu, Function.update_self]
    exact hp
  · rw [Function.update_of_ne hu]
    exact (h.knows u).mono (hjobs u hu) hlog hclient

/-- So does the client it will answer. -/
theorem answer_mono {entries entries' : List Entry}
    (hclient : ∀ e client, clientOf entries e = some client → clientOf entries' e = some client) {client : ℕ}
    (h : answer entries p = some client) : answer entries' p = some client := by
  cases p with
  | touch e holdsLock => exact hclient e client h
  | _ => exact h

/-- The threads have got what the log says they got. -/
theorem Recorded.answers_update (h : Recorded s) (hphases : s'.phases = Function.update s.phases t p)
    (hclient : ∀ e client, clientOf s.entries e = some client → clientOf s'.entries e = some client)
    (hanswer : ∀ client, answer s.entries (s.phases t) = some client → answer s'.entries p = some client)
    (u : ℕ) {e : Event} (hmem : e ∈ s.log) {key : Bytes} {client : ℕ} (hdecides : e.Decides u key client) :
    answer s'.entries (s'.phases u) = some client := by
  have hold := h.answers u e hmem key client hdecides
  rw [hphases]
  by_cases hu : u = t
  · rw [hu, Function.update_self]
    rw [hu] at hold
    exact hanswer client hold
  · rw [Function.update_of_ne hu]
    exact answer_mono hclient hold

/-- A step that records nothing and leaves the pool and its entries alone. -/
theorem Recorded.quiet (h : Recorded s) (hphase : s.phases t = q)
    (hphases : s'.phases = Function.update s.phases t p)
    (hjobs : ∀ u, u ≠ t → s'.jobs u = s.jobs u) (hlog : s'.log = s.log)
    (hpool : s'.clientPool = s.clientPool) (hclient : clientOf s'.entries = clientOf s.entries)
    (hanswer : answer s'.entries p = answer s.entries q) (hp : Knows s' t p) : Recorded s' where
  coherent key := by
    rw [hlog]
    exact h.coherent key
  value key := by
    rw [hlog, heldIn, hpool, hclient]
    exact h.value key
  knows := h.knows_update hphases hjobs (by rw [hlog]; exact List.Subset.refl _)
    (fun e client hc => by rw [hclient]; exact hc) hp
  answers u e hmem key client hdecides := by
    rw [hlog] at hmem
    refine h.answers_update hphases (fun e client hc => by rw [hclient]; exact hc) (fun client hc => ?_) u
      hmem hdecides
    rw [hanswer, ← hphase]
    exact hc
  expired := by
    rw [hlog]
    exact h.expired

/-- A thread moves on, and nothing else changes. -/
theorem Recorded.goto (h : Recorded s) (hphase : s.phases t = q) (hanswer : answer s.entries p = answer s.entries q)
    (hp : Knows (s.goto t p) t p) : Recorded (s.goto t p) :=
  h.quiet hphase rfl (fun _ _ => rfl) rfl rfl rfl hanswer hp

/-- A step that records an event, with the pool as the event leaves it. -/
theorem Recorded.recorded (h : Recorded s) {e : Event} {k : Bytes} {op : Op ℕ}
    (hop : ∀ key, e.op key = if k = key then some op else none)
    (hfits : op.Fits (heldIn s.clientPool s.entries k))
    (hphases : s'.phases = Function.update s.phases t p) (hjobs : s'.jobs = s.jobs)
    (hlog : s'.log = s.log ++ [e])
    (hheld : ∀ key, heldIn s'.clientPool s'.entries key =
      if k = key then op.after (heldIn s.clientPool s.entries k) else heldIn s.clientPool s.entries key)
    (hclient : ∀ e client, clientOf s.entries e = some client → clientOf s'.entries e = some client)
    (hexpired : ∀ key n lastAccess cutoff, e = .expired key n lastAccess cutoff → lastAccess < cutoff)
    (hanswer : ∀ client, answer s.entries (s.phases t) = some client → answer s'.entries p = some client)
    (hdecided : ∀ u key client, e.Decides u key client → u = t ∧ answer s'.entries p = some client)
    (hp : Knows s' t p) : Recorded s' where
  coherent := by
    rw [hlog]
    exact (h.event hop hfits).1
  value key := by
    rw [hlog, hheld]
    exact (h.event hop hfits).2 key
  knows := h.knows_update hphases (fun u _ => by rw [hjobs])
    (by rw [hlog]; exact List.subset_append_left _ _) hclient hp
  -- an answer stands for an event before this step or for the one of this step
  answers u e' hmem key client hdecides := by
    rw [hlog, List.mem_append, List.mem_singleton] at hmem
    rcases hmem with hmem | rfl
    · exact h.answers_update hphases hclient hanswer u hmem hdecides
    · obtain ⟨rfl, hgot⟩ := hdecided u key client hdecides
      rw [hphases, Function.update_self]
      exact hgot
  expired key n lastAccess cutoff hmem := by
    rw [hlog, List.mem_append, List.mem_singleton] at hmem
    exact hmem.elim (h.expired key n lastAccess cutoff) fun heq => hexpired _ _ _ _ heq.symm

/-- A lookup decides for its own call and client. -/
theorem Event.Decides.of_found {t' : ℕ} {k key : Bytes} {client client' : ℕ}
    (h : (Event.found t' k client').Decides t key client) : t = t' ∧ client = client' := by
  rcases h with h | h
  · obtain ⟨rfl, -, rfl⟩ := Event.found.inj h
    exact ⟨rfl, rfl⟩
  · contradiction

/-- A creation decides for its own call and client. -/
theorem Event.Decides.of_created {t' : ℕ} {k key : Bytes} {client client' : ℕ}
    (h : (Event.created t' k client').Decides t key client) : t = t' ∧ client = client' := by
  rcases h with h | h
  · contradiction
  · obtain ⟨rfl, -, rfl⟩ := Event.created.inj h
    exact ⟨rfl, rfl⟩

/-- A lookup that finds the client of the key. -/
theorem Recorded.found (h : Recorded s) {key : Bytes} {e : ℕ} {entry : Entry} (holdsLock : Bool)
    (hnone : answer s.entries (s.phases t) = none)
    (hjob : s.jobs t = some (.getOrCreate key)) (hload : s.load key = some (e, entry)) :
    Recorded ((s.record (.found t key entry.client)).goto t (.touch e holdsLock)) := by
  obtain ⟨hlookup, hentry⟩ := heldIn_of_load hload
  have hclient : clientOf s.entries e = some entry.client := by rw [clientOf, hentry, Option.map_some]
  have hheld : (Op.read entry.client).Fits (heldIn s.clientPool s.entries key) := by
    rw [heldIn, hlookup, Option.bind_some, hclient]
    rfl
  refine h.recorded (fun _ => rfl) hheld rfl rfl rfl (fun key' => ?_) (fun _ _ hc => hc)
    (fun _ _ _ _ heq => by contradiction) (fun _ hc => absurd (hnone.symm.trans hc) (by simp))
    (fun u k client hdecides => ?_) ⟨entry.client, hclient, key, hjob, _, ?_, .inl rfl⟩
  · -- a read leaves the register as it is
    split_ifs with hkey
    · rw [← hkey]
      rfl
    · rfl
  · obtain ⟨rfl, rfl⟩ := hdecides.of_found
    exact ⟨rfl, hclient⟩
  · exact List.mem_append_right _ (List.mem_singleton_self _)

/-- A removal. -/
theorem Recorded.removed (h : Recorded s) {e : Event} {k : Bytes} (hphase : s.phases t = q)
    (hop : ∀ key, e.op key = if k = key then some .clear else none)
    (hphases : s'.phases = Function.update s.phases t p) (hjobs : s'.jobs = s.jobs)
    (hlog : s'.log = s.log ++ [e]) (hpool : s'.clientPool = s.clientPool.erase k)
    (hentries : s'.entries = s.entries) (hremoves : e.removes = some k)
    (hexpired : ∀ key n lastAccess cutoff, e = .expired key n lastAccess cutoff → lastAccess < cutoff)
    (hanswer : answer s'.entries p = answer s.entries q) (hp : Knows s' t p) : Recorded s' := by
  refine h.recorded hop trivial hphases hjobs hlog (fun key => ?_) (fun e client hc => ?_) hexpired
    (fun client hc => ?_) (fun u key client hdecides => ?_) hp
  · rw [hpool, hentries, heldIn_erase]
    rfl
  · rw [hentries]
    exact hc
  · rw [hanswer, ← hphase]
    exact hc
  · rcases hdecides with rfl | rfl <;> contradiction

/-! ## The steps -/

/-- A new call keeps the records. -/
theorem Recorded.start (h : Recorded s) {job : Job} {now : ℤ} : Recorded (step s (.start t job now)) := by
  have hjobs : ∀ u, u ≠ t → Function.update s.jobs t (some job) u = s.jobs u := fun u hu =>
    Function.update_of_ne hu _ _
  rw [step]
  split_ifs with hidle
  · cases job with
    | getOrCreate key => exact h.quiet hidle rfl hjobs rfl rfl rfl rfl (Function.update_self _ _ _)
    | evictStale => exact h.quiet hidle rfl hjobs rfl rfl rfl rfl trivial
    | setMaxEntries entries => exact h.quiet hidle rfl hjobs rfl rfl rfl rfl trivial
    | setTTL seconds => exact h.quiet hidle rfl hjobs rfl rfl rfl rfl (fun _ hc => by contradiction)
    | clear => exact h.quiet hidle rfl hjobs rfl rfl rfl rfl trivial
  · exact h

/-- A lookup keeps the records, with the lock or without. -/
theorem Recorded.advance_lookup (h : Recorded s) {key : Bytes}
    (hphase : s.phases t = .lookup key ∨ s.phases t = .lookupLocked key) : Recorded (s.advance t c) := by
  have hjob : s.jobs t = some (.getOrCreate key) := by
    have hknows := h.knows t
    rcases hphase with hphase | hphase <;> rwa [hphase] at hknows
  rcases hphase with hphase | hphase
  all_goals
    rw [State.advance, hphase]
    dsimp only
    split
    case h_1 hload => exact h.found _ (by rw [hphase]; rfl) hjob hload
    case h_2 => exact h.goto hphase rfl hjob

/-- The call returns the client of the entry it has touched. -/
theorem Recorded.advance_touch (h : Recorded s) {e : ℕ} {holdsLock : Bool}
    (hphase : s.phases t = .touch e holdsLock) : Recorded (s.advance t c) := by
  have hknows := h.knows t
  rw [State.advance, hphase]
  rw [hphase] at hknows
  obtain ⟨client, hclient, hdecided⟩ := hknows
  have hresult : ∀ client' ∈ (s.entries[e]?).map Entry.client, Decided s t client' := fun client' hc => by
    obtain rfl : client = client' := Option.some.inj (hclient.symm.trans hc)
    exact hdecided
  refine h.quiet hphase rfl (fun _ _ => rfl) rfl rfl (funext (client_modify s.entries e c.now))
    ?_ ?_
  · cases holdsLock with
    | false => rfl
    | true => rfl
  · cases holdsLock with
    | false => exact hresult
    | true => exact hresult

/-- A round of the first scan keeps the records. -/
theorem Recorded.advance_collect (h : Recorded s) {cutoff : ℤ} {toDelete : List Bytes}
    (hphase : s.phases t = .collect cutoff toDelete) : Recorded (s.advance t c) := by
  rw [State.advance, hphase]
  dsimp only
  split
  · exact h.goto hphase rfl trivial
  · split
    · split_ifs
      · exact h.goto hphase rfl trivial
      · exact h
    · exact h

/-- Taking the lock keeps the records. -/
theorem Recorded.advance_lock (h : Recorded s) {errand : Errand} (hphase : s.phases t = .lock errand) :
    Recorded (s.advance t c) := by
  have hknows := h.knows t
  rw [State.advance, hphase]
  rw [hphase] at hknows
  dsimp only
  split
  · exact h
  · refine h.quiet hphase rfl (fun _ _ => rfl) rfl rfl rfl (by cases errand <;> rfl) ?_
    cases errand with
    | getOrCreate key => exact hknows
    | evictStale cutoff toDelete => trivial
    | evictLRU => exact fun _ hc => by contradiction
    | clear => trivial

/-- A build happens under a key that is not in the pool. -/
theorem Recorded.advance_build (h : Recorded s) (hinv : Inv s) {key : Bytes}
    (hphase : s.phases t = .build key) : Recorded (s.advance t c) := by
  have hjob : s.jobs t = some (.getOrCreate key) := by
    have hknows := h.knows t
    rwa [hphase] at hknows
  have hnone : answer s.entries (s.phases t) = none := by rw [hphase]; rfl
  -- nothing is pooled under the key here: the mutex is held since it was looked up
  have habsent : heldIn s.clientPool s.entries key = none := by
    have hfacts := hinv.facts t
    rw [hphase] at hfacts
    exact heldIn_eq_none hfacts.2
  rw [State.advance, hphase]
  dsimp only
  have hwrite : (Op.write s.clients).Fits (heldIn s.clientPool s.entries key) := habsent
  have hmiss : Op.miss.Fits (heldIn s.clientPool s.entries key) := habsent
  split_ifs
  -- built and stored; in the other case the builder's error, a miss in the log
  · refine h.recorded (fun _ => rfl) hwrite rfl rfl rfl (fun key' => ?_) (fun e client hc => ?_)
      (fun _ _ _ _ heq => by contradiction) (fun _ hc => absurd (hnone.symm.trans hc) (by simp))
      (fun u k client hdecides => ?_) fun client hc => ?_
    · exact heldIn_insert hinv.stored key key'
    · obtain ⟨entry, hentry, rfl⟩ := Option.map_eq_some_iff.mp hc
      show ((s.entries ++ [_])[e]?).map Entry.client = _
      rw [List.getElem?_append_left (List.getElem?_eq_some_iff.mp hentry).1, hentry, Option.map_some]
    · obtain ⟨rfl, rfl⟩ := hdecides.of_created
      exact ⟨rfl, rfl⟩
    · obtain rfl : s.clients = client := Option.some.inj hc
      exact ⟨hjob, List.mem_append_right _ (List.mem_singleton_self _)⟩
  · refine h.recorded (fun _ => rfl) hmiss rfl rfl rfl (fun key' => ?_) (fun _ _ hc => hc)
      (fun _ _ _ _ heq => by contradiction) (fun _ hc => absurd (hnone.symm.trans hc) (by simp))
      (fun u k client hdecides => ?_) (fun _ hc => by contradiction)
    · split_ifs with hkey
      · rw [← hkey]
        rfl
      · rfl
    · rcases hdecides with hfound | hcreated <;> contradiction

theorem Stored.decided {key : Bytes} {client : ℕ} (h : Stored s t key client) : Decided s t client :=
  ⟨key, h.1, _, h.2, .inr rfl⟩

/-- The steps of a sweep keep the records. -/
theorem Recorded.advance_evictLRU (h : Recorded s)
    (hphase : (∃ key created, s.phases t = .loadMax key created) ∨
      (∃ sweep rest created, s.phases t = .scan sweep rest created) ∨
      ∃ sweep rest created, s.phases t = .evict sweep rest created) : Recorded (s.advance t c) := by
  have hknows := h.knows t
  rw [State.advance]
  -- a scan writes nothing to the log, an eviction writes one removal
  rcases hphase with ⟨key, created, hphase⟩ | ⟨sweep, rest, created, hphase⟩ | ⟨sweep, rest, created, hphase⟩
  · rw [hphase] at hknows ⊢
    dsimp only
    split_ifs
    · exact h.goto hphase rfl fun client hc => (hknows client hc).decided
    · exact h.goto hphase rfl hknows
  · rw [hphase] at hknows ⊢
    cases rest with
    | nil => exact h.quiet hphase rfl (fun _ _ => rfl) rfl rfl rfl rfl hknows
    | cons key rest =>
      dsimp only
      split_ifs
      · exact h.goto hphase rfl hknows
      · split
        · exact h.goto hphase rfl hknows
        · exact h.goto hphase rfl hknows
  · rw [hphase] at hknows ⊢
    cases rest with
    | nil => exact h.quiet hphase rfl (fun _ _ => rfl) rfl rfl rfl rfl hknows
    | cons key rest =>
      refine h.removed hphase (fun _ => rfl) rfl rfl rfl rfl rfl rfl (fun _ _ _ _ heq => by contradiction) rfl ?_
      intro client hc
      exact ⟨(hknows client hc).1, List.mem_append_left _ (hknows client hc).2⟩

/-- An entry goes only after its access time was read as too old. -/
theorem Recorded.advance_recheck (h : Recorded s)
    (hphase : (∃ cutoff rest evicted, s.phases t = .recheck cutoff rest evicted) ∨
      ∃ cutoff key e lastAccess rest evicted, s.phases t = .expire cutoff key e lastAccess rest evicted) :
    Recorded (s.advance t c) := by
  have hknows := h.knows t
  rw [State.advance]
  rcases hphase with ⟨cutoff, rest, evicted, hphase⟩ | ⟨cutoff, key, e, lastAccess, rest, evicted, hphase⟩
  · rw [hphase]
    cases rest with
    | nil => exact h.quiet hphase rfl (fun _ _ => rfl) rfl rfl rfl rfl (fun _ hc => by contradiction)
    | cons key rest =>
      dsimp only
      split
      · split_ifs with hfresh
        · exact h.goto hphase rfl trivial
        · exact h.goto hphase rfl (lt_of_not_ge hfresh)
      · exact h.goto hphase rfl trivial
  · rw [hphase] at hknows ⊢
    refine h.removed hphase (fun _ => rfl) rfl rfl rfl rfl rfl rfl (fun _ _ _ _ heq => ?_) rfl trivial
    obtain ⟨-, -, rfl, rfl⟩ := Event.expired.inj heq
    exact hknows

/-- A round of the clearing keeps the records. -/
theorem Recorded.advance_clear (h : Recorded s) {rest : List Bytes} (hphase : s.phases t = .clear rest) :
    Recorded (s.advance t c) := by
  rw [State.advance, hphase]
  cases rest with
  | nil => exact h.quiet hphase rfl (fun _ _ => rfl) rfl rfl rfl rfl (fun _ hc => by contradiction)
  | cons key rest =>
    exact h.removed hphase (fun _ => rfl) rfl rfl rfl rfl rfl rfl (fun _ _ _ _ heq => by contradiction) rfl trivial

/-- Giving the lock back keeps the records. -/
theorem Recorded.advance_unlock (h : Recorded s) {swept : Option Sweep} {result : Option ℕ}
    (hphase : s.phases t = .unlock swept result) : Recorded (s.advance t c) := by
  have hknows := h.knows t
  rw [State.advance, hphase]
  rw [hphase] at hknows
  refine h.quiet hphase rfl (fun _ _ => rfl) rfl rfl rfl rfl fun client hc => ?_
  cases swept with
  | none => exact hknows client hc
  | some sweep => exact (hknows client hc).decided

/-- Every step keeps the records. -/
theorem Recorded.step (h : Recorded s) (hinv : Inv s) (a : Action) : Recorded (step s a) := by
  cases a with
  | start t job now => exact h.start
  | advance t c =>
    show Recorded (s.advance t c)
    cases hphase : s.phases t with
    | idle => rwa [State.advance, hphase]
    | lookup key => exact h.advance_lookup (.inl hphase)
    | touch e holdsLock => exact h.advance_touch hphase
    | collect cutoff toDelete => exact h.advance_collect hphase
    | lock errand => exact h.advance_lock hphase
    | lookupLocked key => exact h.advance_lookup (.inr hphase)
    | build key => exact h.advance_build hinv hphase
    | loadMax protectedKey created => exact h.advance_evictLRU (.inl ⟨_, _, hphase⟩)
    | scan sweep rest created => exact h.advance_evictLRU (.inr (.inl ⟨_, _, _, hphase⟩))
    | evict sweep rest created => exact h.advance_evictLRU (.inr (.inr ⟨_, _, _, hphase⟩))
    | recheck cutoff rest evicted => exact h.advance_recheck (.inl ⟨_, _, _, hphase⟩)
    | expire cutoff key e lastAccess rest evicted =>
      exact h.advance_recheck (.inr ⟨_, _, _, _, _, _, hphase⟩)
    | clear rest => exact h.advance_clear hphase
    | unlock swept result => exact h.advance_unlock hphase
    | returned result => rwa [State.advance, hphase]

/-- The records are right in every run. -/
theorem recorded_exec (as : List Action) : Recorded (Run.exec PoolThreads.step {} as) := by
  have hinit : Recorded {} := ⟨fun _ => trivial, fun _ => rfl, fun _ => trivial,
    fun _ _ hmem => by contradiction, fun _ _ _ _ hmem => by contradiction⟩
  have hstep : ∀ s a, Inv s ∧ Recorded s → Inv (PoolThreads.step s a) ∧ Recorded (PoolThreads.step s a) :=
    fun s a h => ⟨h.1.step a, h.2.step h.1 a⟩
  exact (Run.always_exec hstep ⟨inv_init, hinit⟩ as).2

/-! ## The results -/

section Swept

variable {sweep : Sweep} {keys : List Bytes}

/-- A key that is left was seen, unless it is the protected one. -/
theorem Sweep.Swept.mem_seenKeys (h : sweep.Swept sweep.victims keys) {key : Bytes} (hkey : key ∈ keys)
    (hne : key ≠ sweep.protectedKey) : key ∈ sweep.seenKeys :=
  ((h.mem_keys key).mp hkey).elim And.left fun hprotected => absurd hprotected.1 hne

/-- A sweep removes no more than it has to. -/
theorem Sweep.Swept.length_eq (h : sweep.Swept sweep.victims keys) (hvictims : sweep.victims ≠ []) :
    (keys.length : ℤ) = sweep.maxEntries := by
  have hlength := h.length
  have hchoose : (sweep.victims.length : ℤ) = max sweep.excess 0 := by
    rw [h.victims]
    exact length_choose
  have hpos := List.length_pos_iff.mpr hvictims
  have hlive := h.live_le
  have hpositive := h.positive
  rw [excess] at hchoose
  omega

/-- The entries that a sweep leaves have been used no earlier than those it removes. -/
theorem Sweep.Swept.newest_kept (h : sweep.Swept sweep.victims keys) {k k' : Bytes} {a a' : ℤ}
    (ha : (k, a) ∈ sweep.seen) (hk : k ∉ keys) (ha' : (k', a') ∈ sweep.seen) (hk' : k' ∈ keys) : a ≤ a' := by
  have hseen : k ∈ sweep.seenKeys := List.mem_map_of_mem ha
  have hseen' : k' ∈ sweep.seenKeys := List.mem_map_of_mem ha'
  have hgone : k ∈ sweep.choose := by
    by_contra hstays
    exact hk ((h.mem_keys k).mpr (.inl ⟨hseen, h.victims ▸ hstays⟩))
  have hstays : k' ∉ sweep.choose := by
    rcases (h.mem_keys k').mp hk' with hleft | hprotected
    · exact h.victims ▸ hleft.2
    · exact absurd (hprotected.1 ▸ hseen') h.unprotected
  exact le_of_choose h.nodup ha hgone ha' hstays

end Swept

/-- In every run: with the lock free the entry counter is the number of entries, and the eviction counter
is the number of evictions. A call that has stored its client reads the capacity and then, however the
steps of the other threads come in between, gives the lock back; if it has read a positive capacity, the
pool then holds at most `max 1 capacity` entries and the inserted key. A sweep has the capacity and the
access times that its thread has read, and the other entries it leaves are those with the greatest of them. -/
theorem pool_accounting (as : List Action) :
    let s := Run.exec PoolThreads.step {} as
    (s.owner = none → s.poolEntryCount = s.clientPool.keys.length ∧
      s.totalEvictions = s.log.countP Event.isEviction) ∧
    s.clientPool.keys.length + s.log.countP (fun e => e.removes.isSome) = s.log.countP Event.isCreation ∧
    (∀ t key client, .created t key client ∈ s.log → s.phases t = .loadMax key (some client) ∨
      ∃ capacity, Run.At PoolThreads.step {} as (ReadsCapacity t key (some client) capacity)) ∧
    (∀ t key created, s.phases t = .loadMax key created → ∀ c, ∃ n, ∀ bs : List Action,
      n ≤ bs.countP (Action.advances t) → ∃ ds swept, ds <+: bs ∧
        (Run.exec PoolThreads.step s (.advance t c :: ds)).phases t = .unlock swept created) ∧
    (∀ t key client capacity, Run.At PoolThreads.step {} as (ReadsCapacity t key (some client) capacity) →
      0 < capacity → ∀ swept result, s.phases t = .unlock swept result →
        (s.clientPool.keys.length : ℤ) ≤ max 1 capacity ∧ key ∈ s.clientPool.keys) ∧
    ∀ t sweep result, s.phases t = .unlock (some sweep) result →
      Run.At PoolThreads.step {} as (ReadsCapacity t sweep.protectedKey result sweep.maxEntries) ∧
      (∀ key a, (key, a) ∈ sweep.seen ↔ Run.At PoolThreads.step {} as (ReadsAccess t key a)) ∧
      0 < sweep.maxEntries ∧ (s.clientPool.keys.length : ℤ) ≤ max 1 sweep.maxEntries ∧
      (∀ client, result = some client →
        .created t sweep.protectedKey client ∈ s.log ∧ sweep.protectedKey ∈ s.clientPool.keys) ∧
      (∀ key ∈ s.clientPool.keys, key ≠ sweep.protectedKey → key ∈ sweep.seenKeys) ∧
      (sweep.victims ≠ [] → (s.clientPool.keys.length : ℤ) = sweep.maxEntries) ∧
      ∀ k a k' a', (k, a) ∈ sweep.seen → k ∉ s.clientPool.keys →
        (k', a') ∈ sweep.seen → k' ∈ s.clientPool.keys → a ≤ a' := by
  intro s
  have hinv : Inv s := inv_exec as
  have hrec : Recorded s := recorded_exec as
  have htracked : Tracked as s := tracked_exec as
  refine ⟨fun hfree => ⟨(hinv.settled hfree).count, (hinv.settled hfree).total⟩, hinv.balance, htracked.created,
    fun t key created hphase c => loadMax_reaches_unlock hphase c, ?_, ?_⟩
  -- the sweep after an insertion
  · intro t key client capacity hread hpos swept result hphase
    obtain ⟨sweep, rfl, rfl, rfl, rfl⟩ := htracked.swept_of_read hphase hread hpos
    have hfacts := hinv.facts t
    rw [hphase] at hfacts
    obtain ⟨hprotected, hswept⟩ := hfacts.2 sweep rfl
    exact ⟨hswept.length_le, hprotected rfl⟩
  · intro t sweep result hphase
    have hfacts := hinv.facts t
    have hknows := hrec.knows t
    have hreads := htracked.reads t
    rw [hphase] at hfacts hknows hreads
    obtain ⟨hprotected, hswept⟩ := hfacts.2 sweep rfl
    refine ⟨(Reading.capacity hreads _ _ _).mpr rfl, fun key a => (Reading.seen hreads key a).symm,
      hswept.positive, hswept.length_le, fun client hc => ⟨(hknows client hc).2, ?_⟩,
      fun key hkey hne => hswept.mem_seenKeys hkey hne, fun hvictims => hswept.length_eq hvictims,
      fun k a k' a' ha hk ha' hk' => hswept.newest_kept ha hk ha' hk'⟩
    exact hprotected (by rw [hc]; rfl)

-- with the capacity one, the second insertion evicts the first entry
example :
    let call (t : ℕ) (job : Job) (now : ℤ) : List Action :=
      .start t job now :: List.replicate 12 (.advance t { now })
    let s := Run.exec step {} (call 0 (.setMaxEntries 1) 0 ++ call 1 (.getOrCreate [1]) 1 ++
      call 2 (.getOrCreate [2]) 2)
    s.clientPool.keys = [[2]] ∧ s.poolEntryCount = 1 ∧ s.totalEvictions = 1 ∧
      s.phases 1 = .returned (some 0) ∧ s.phases 2 = .returned (some 1) ∧
      s.log = [.created 1 [1] 0, .created 2 [2] 1, .evicted [1]] := by
  decide

/-- A deciding event shows its client in the history of the key. -/
theorem Event.Decides.shows {e : Event} {key : Bytes} {client : ℕ} (h : e.Decides t key client) :
    ∃ op, e.op key = some op ∧ op.shows = some client := by
  rcases h with rfl | rfl
  · exact ⟨.read client, if_pos rfl, rfl⟩
  · exact ⟨.write client, if_pos rfl, rfl⟩

/-- What clears the history of a key removes it. -/
theorem Event.removes_of_op {e : Event} {key : Bytes} (h : e.op key = some .clear) : e.removes = some key := by
  cases e with
  | found t k client => simp [Event.op] at h
  | created t k client => simp [Event.op] at h
  | failed t k => simp [Event.op] at h
  | evicted k => simpa [Event.op, Event.removes] using h
  | expired k e lastAccess cutoff => simpa [Event.op, Event.removes] using h
  | cleared k => simpa [Event.op, Event.removes] using h

/-- What removes a key clears its history. -/
theorem Event.op_of_removes {e : Event} {key : Bytes} (h : e.removes = some key) : e.op key = some .clear := by
  cases e with
  | found t k client => contradiction
  | created t k client => contradiction
  | failed t k => contradiction
  | evicted k => exact if_pos (Option.some.inj h)
  | expired k e lastAccess cutoff => exact if_pos (Option.some.inj h)
  | cleared k => exact if_pos (Option.some.inj h)

/-- The writes in the history of a key are its creations. -/
theorem countP_history (log : List Event) (key : Bytes) :
    (history log key).countP Op.isWrite = log.countP (Event.creates key) := by
  rw [history, List.countP_filterMap]
  congr 1
  funext e
  cases e with
  | created t k client =>
    by_cases hk : k = key
    · simp [Event.op, Event.creates, Op.isWrite, hk]
    · simp [Event.op, Event.creates, hk]
  | found t k client => by_cases hk : k = key <;> simp [Event.op, Event.creates, Op.isWrite, hk]
  | failed t k => by_cases hk : k = key <;> simp [Event.op, Event.creates, Op.isWrite, hk]
  | evicted k => by_cases hk : k = key <;> simp [Event.op, Event.creates, Op.isWrite, hk]
  | expired k e lastAccess cutoff => by_cases hk : k = key <;> simp [Event.op, Event.creates, Op.isWrite, hk]
  | cleared k => by_cases hk : k = key <;> simp [Event.op, Event.creates, Op.isWrite, hk]

/-- The log starts empty, or with the key just removed. -/
def Emptied (log : List Event) (key : Bytes) : Prop :=
  log = [] ∨ ∃ init e, log = init ++ [e] ∧ e.removes = some key

/-- After a removal the history has no value. -/
theorem Emptied.value {log : List Event} {key : Bytes} (h : Emptied log key) :
    OnceRegister.value none (history log key) = none := by
  rcases h with rfl | ⟨init, e, rfl, hremoves⟩
  · rfl
  · rw [history_concat, Event.op_of_removes hremoves, value_append]
    rfl

/-- Between two removals of a key its register is written once, with what all its calls see. -/
theorem Recorded.once (h : Recorded s) {key : Bytes} {before between after : List Event}
    (hlog : s.log = before ++ between ++ after) (hempty : Emptied before key)
    (hquiet : ∀ e ∈ between, e.removes ≠ some key) {e : Event} (he : e ∈ between) {client : ℕ}
    (hdecides : e.Decides t key client) :
    (∀ e' ∈ between, ∀ t' client', e'.Decides t' key client' → client' = client) ∧
      between.countP (Event.creates key) = 1 := by
  have hcoh : Coherent none (history between key) := by
    have hall := h.coherent key
    rw [hlog, history, List.filterMap_append, List.filterMap_append] at hall
    have hmid := (coherent_append.mp (coherent_append.mp hall).1).2
    rwa [show OnceRegister.value none (before.filterMap (Event.op key)) = none from hempty.value] at hmid
  have hclears : ∀ op ∈ history between key, op ≠ .clear := fun op hop hclear => by
    obtain ⟨e', he', hop'⟩ := List.mem_filterMap.mp hop
    exact hquiet e' he' (Event.removes_of_op (hclear ▸ hop'))
  obtain ⟨op, hop, hshows⟩ := hdecides.shows
  obtain ⟨hall, hwrites⟩ := hcoh.written_once hclears (List.mem_filterMap.mpr ⟨e, he, hop⟩) hshows
  refine ⟨fun e' he' t' client' hdecides' => ?_, ?_⟩
  · obtain ⟨op', hop', hshows'⟩ := hdecides'.shows
    exact hall op' (List.mem_filterMap.mpr ⟨e', he', hop'⟩) client' hshows'
  · rw [← countP_history, List.countP_eq_length_filter, hwrites, List.length_singleton]

/-- In every run, the calls for a key that are decided between two consecutive removals of it return one
client, which is built once there; a call that returns a client has been decided with it; a failed build
leaves no entry; and the scanner removes an entry only with the access time that it has loaded from it at its
re-check, with the lock held, and that is older than the cutoff. -/
theorem single_construction (as : List Action) :
    let s := Run.exec PoolThreads.step {} as
    (∀ key before between after, s.log = before ++ between ++ after → Emptied before key →
      (∀ e ∈ between, e.removes ≠ some key) → ∀ e ∈ between, ∀ t client, e.Decides t key client →
        between.countP (Event.creates key) = 1 ∧
        ∀ e' ∈ between, ∀ t' client', e'.Decides t' key client' →
          client' = client ∧ ∀ result, s.phases t' = .returned result → result = some client) ∧
    (∀ t client, s.phases t = .returned (some client) →
      ∃ key, s.jobs t = some (.getOrCreate key) ∧ ∃ e ∈ s.log, e.Decides t key client) ∧
    (∀ t key c, s.phases t = .build key → c.builds = false →
      key ∉ (s.advance t c).clientPool.keys ∧ (s.advance t c).phases t = .unlock none none) ∧
    (∀ t cutoff key e lastAccess rest evicted, s.phases t = .expire cutoff key e lastAccess rest evicted →
      s.clientPool.lookup key = some e ∧ lastAccess < cutoff ∧
        Run.At PoolThreads.step {} as (Rechecks t cutoff key e lastAccess)) ∧
    ∀ key e lastAccess cutoff, .expired key e lastAccess cutoff ∈ s.log → lastAccess < cutoff ∧
      ∃ t, Run.At PoolThreads.step {} as (Rechecks t cutoff key e lastAccess) := by
  intro s
  have hinv : Inv s := inv_exec as
  have hrec : Recorded s := recorded_exec as
  have htracked : Tracked as s := tracked_exec as
  refine ⟨?_, ?_, ?_, ?_, fun key e lastAccess cutoff hmem =>
    ⟨hrec.expired key e lastAccess cutoff hmem, htracked.expired key e lastAccess cutoff hmem⟩⟩
  -- between two removals of the key
  · intro key before between after hlog hempty hquiet e he t client hdecides
    obtain ⟨hsame, honce⟩ := hrec.once hlog hempty hquiet he hdecides
    refine ⟨honce, fun e' he' t' client' hdecides' => ?_⟩
    have hclient := hsame e' he' t' client' hdecides'
    refine ⟨hclient, fun result hphase => ?_⟩
    have hmem : e' ∈ s.log := by
      rw [hlog]
      exact List.mem_append_left _ (List.mem_append_right _ he')
    have hanswer := hrec.answers t' e' hmem key client' hdecides'
    rw [hphase, hclient] at hanswer
    exact hanswer
  · intro t client hphase
    have hknows := hrec.knows t
    rw [hphase] at hknows
    exact hknows client rfl
  -- a build that fails is made with the lock held, so that the key is still absent
  · intro t key c hphase hfails
    have hfacts := hinv.facts t
    rw [hphase] at hfacts
    rw [State.advance, hphase]
    dsimp only
    rw [if_neg (by simp [hfails])]
    exact ⟨hfacts.2, Function.update_self _ _ _⟩
  · intro t cutoff key e lastAccess rest evicted hphase
    have hfacts := hinv.facts t
    have hknows := hrec.knows t
    have hreads := htracked.reads t
    rw [hphase] at hfacts hknows hreads
    exact ⟨hfacts.2.2, hknows, hreads.2⟩

end TlsClient.Engine.PoolThreads
