import Mathlib.Algebra.Order.Ring.Nat
import Mathlib.Data.List.Sort
import Mathlib.Data.List.Induction

/-!
# Maps as sorted lists

A finite map, represented by its entries in key order, so that equal maps are equal values and walking a
map in the order of its keys is reading its entries. `set` overwrites and `push` appends to the list
under a key.

A map built from items with distinct keys holds just those items (`entries_setAll`, `flat_pushAll`).
When keys repeat, `setAll` may lose items (`sum_setAll_le`) and `pushAll` groups them (`flat_pushAll_perm`).
-/

/-- The entries of a map in the order of the keys. -/
structure SortedMap (κ ν : Type*) [LinearOrder κ] where
  entries : List (κ × ν)
  sorted : entries.Pairwise fun a b => a.1 < b.1

namespace SortedMap

variable {κ ν : Type*} [LinearOrder κ]

@[ext] theorem ext {m n : SortedMap κ ν} (heq : m.entries = n.entries) : m = n := by
  cases m
  cases n
  cases heq
  rfl

instance [DecidableEq ν] : DecidableEq (SortedMap κ ν) := fun m n =>
  decidable_of_iff (m.entries = n.entries) ⟨ext, congrArg entries⟩

def empty : SortedMap κ ν := ⟨[], .nil⟩

@[simp] theorem entries_empty : (empty : SortedMap κ ν).entries = [] := rfl

/-- The value under `k`. -/
def lookup (m : SortedMap κ ν) (k : κ) : Option ν :=
  (m.entries.find? fun entry => entry.1 = k).map Prod.snd

/-- Items in the order of their keys, equal keys in the order given. -/
def sortByKey (items : List (κ × ν)) : List (κ × ν) :=
  items.insertionSort fun a b => a.1 ≤ b.1

theorem sortByKey_perm (items : List (κ × ν)) : (sortByKey items).Perm items :=
  List.perm_insertionSort _ _

/-- It puts them in the order of their keys. -/
theorem pairwise_sortByKey (items : List (κ × ν)) :
    (sortByKey items).Pairwise fun a b => a.1 ≤ b.1 := by
  have : Std.Total fun a b : κ × ν => a.1 ≤ b.1 := ⟨fun a b => le_total a.1 b.1⟩
  have : IsTrans (κ × ν) fun a b => a.1 ≤ b.1 := ⟨fun _ _ _ => le_trans⟩
  exact List.pairwise_insertionSort _ _

/-- Sorting commutes with a map that keeps the order of the keys. -/
theorem map_sortByKey {κ' ν' : Type*} [LinearOrder κ'] (f : κ × ν → κ' × ν')
    {items : List (κ × ν)} (hf : ∀ a ∈ items, ∀ b ∈ items, a.1 ≤ b.1 ↔ (f a).1 ≤ (f b).1) :
    (sortByKey items).map f = sortByKey (items.map f) :=
  List.map_insertionSort _ _ f items hf

/-- Items with distinct keys have one order. -/
theorem eq_sortByKey {items sorted : List (κ × ν)} (hnodup : (items.map Prod.fst).Nodup)
    (hperm : sorted.Perm items) (hsorted : sorted.Pairwise fun a b => a.1 ≤ b.1) :
    sorted = sortByKey items := by
  refine List.Perm.eq_of_pairwise ?_ hsorted (pairwise_sortByKey items)
    (hperm.trans (sortByKey_perm items).symm)
  intro a b ha hb hab hba
  exact List.inj_on_of_nodup_map hnodup (hperm.mem_iff.mp ha)
    ((sortByKey_perm items).mem_iff.mp hb) (le_antisymm hab hba)

/-- Sorting moves no item past another one under the same key. -/
theorem filter_sortByKey (k : κ) (items : List (κ × ν)) :
    (sortByKey items).filter (fun item => item.1 = k) = items.filter fun item => item.1 = k := by
  have hpairwise : (items.filter fun item => item.1 = k).Pairwise fun a b => a.1 ≤ b.1 := by
    refine List.pairwise_of_forall_mem_list fun a ha b hb => le_of_eq ?_
    simp only [List.mem_filter, decide_eq_true_eq] at ha hb
    rw [ha.2, hb.2]
  have : Std.Total fun a b : κ × ν => a.1 ≤ b.1 := ⟨fun a b => le_total a.1 b.1⟩
  have : IsTrans (κ × ν) fun a b => a.1 ≤ b.1 := ⟨fun _ _ _ => le_trans⟩
  have hsub := (List.sublist_insertionSort hpairwise List.filter_sublist).filter fun item => item.1 = k
  simp only [List.filter_filter, Bool.and_self] at hsub
  exact (hsub.eq_of_length ((sortByKey_perm items).filter _).length_eq.symm).symm

/-! ## Updates -/

/-- The entries with the value under `k` replaced by what `f` makes of it. -/
def alterEntries (k : κ) (f : Option ν → ν) : List (κ × ν) → List (κ × ν)
  | [] => [(k, f none)]
  | entry :: rest =>
    if k < entry.1 then (k, f none) :: entry :: rest
    else if k = entry.1 then (k, f (some entry.2)) :: rest
    else entry :: alterEntries k f rest

/-- An entry afterwards is that of the key, or was there. -/
theorem key_of_mem_alterEntries {k : κ} {f : Option ν → ν} {l : List (κ × ν)} {a : κ × ν}
    (ha : a ∈ alterEntries k f l) : a.1 = k ∨ a ∈ l := by
  induction l with
  | nil =>
    rw [alterEntries, List.mem_singleton] at ha
    exact .inl (congrArg Prod.fst ha)
  | cons entry rest ih =>
    rw [alterEntries] at ha
    split_ifs at ha
    · rcases List.mem_cons.mp ha with rfl | hmem
      · exact .inl rfl
      · exact .inr hmem
    · rcases List.mem_cons.mp ha with rfl | hmem
      · exact .inl rfl
      · exact .inr (List.mem_cons_of_mem _ hmem)
    · rcases List.mem_cons.mp ha with rfl | hmem
      · exact .inr List.mem_cons_self
      · exact (ih hmem).imp_right (List.mem_cons_of_mem _)

/-- The entries stay sorted. -/
theorem pairwise_alterEntries {k : κ} {f : Option ν → ν} {l : List (κ × ν)}
    (hl : l.Pairwise fun a b => a.1 < b.1) :
    (alterEntries k f l).Pairwise fun a b => a.1 < b.1 := by
  induction l with
  | nil => exact List.pairwise_singleton _ _
  | cons entry rest ih =>
    obtain ⟨hhead, hrest⟩ := List.pairwise_cons.mp hl
    rw [alterEntries]
    split_ifs with hlt heq
    · refine List.pairwise_cons.mpr ⟨?_, hl⟩
      intro a ha
      rcases List.mem_cons.mp ha with rfl | hmem
      · exact hlt
      · exact hlt.trans (hhead a hmem)
    · refine List.pairwise_cons.mpr ⟨?_, hrest⟩
      intro a ha
      exact heq ▸ hhead a ha
    · refine List.pairwise_cons.mpr ⟨?_, ih hrest⟩
      intro a ha
      rcases key_of_mem_alterEntries ha with hk | hmem
      · rw [hk]
        exact lt_of_le_of_ne (not_lt.mp hlt) (Ne.symm heq)
      · exact hhead a hmem

/-- The map with the value under `k` replaced by what `f` makes of it. -/
def alter (m : SortedMap κ ν) (k : κ) (f : Option ν → ν) : SortedMap κ ν :=
  ⟨alterEntries k f m.entries, pairwise_alterEntries m.sorted⟩

/-- `m[k] = v`. -/
def set (m : SortedMap κ ν) (k : κ) (v : ν) : SortedMap κ ν :=
  m.alter k fun _ => v

/-- `m[k] = append(m[k], v)`. -/
def push (m : SortedMap κ (List ν)) (k : κ) (v : ν) : SortedMap κ (List ν) :=
  m.alter k fun old => old.getD [] ++ [v]

/-- The entries whose keys satisfy `p`. -/
def filterKeys (m : SortedMap κ ν) (p : κ → Bool) : SortedMap κ ν :=
  ⟨m.entries.filter fun entry => p entry.1, m.sorted.filter _⟩

/-- `delete(m, k)` -/
def erase (m : SortedMap κ ν) (k : κ) : SortedMap κ ν := m.filterKeys (· ≠ k)

def setAll (items : List (κ × ν)) : SortedMap κ ν :=
  items.foldl (fun m item => m.set item.1 item.2) empty

def pushAll (items : List (κ × ν)) : SortedMap κ (List ν) :=
  items.foldl (fun m item => m.push item.1 item.2) empty

/-- The pairs of a key and one of its values. -/
def flat (m : SortedMap κ (List ν)) : List (κ × ν) :=
  m.entries.flatMap fun entry => entry.2.map fun v => (entry.1, v)

/-! ## Lookups -/

/-- What is found after the entry of a key was altered. -/
private theorem find_alterEntries {k k' : κ} {f : Option ν → ν} {l : List (κ × ν)}
    (hl : l.Pairwise fun a b => a.1 < b.1) :
    ((alterEntries k f l).find? fun entry => entry.1 = k').map Prod.snd =
      if k' = k then some (f ((l.find? fun entry => entry.1 = k).map Prod.snd))
      else (l.find? fun entry => entry.1 = k').map Prod.snd := by
  induction l with
  | nil => by_cases hk : k' = k <;> simp [alterEntries, hk, eq_comm]
  | cons entry rest ih =>
    obtain ⟨hhead, hrest⟩ := List.pairwise_cons.mp hl
    rw [alterEntries]
    split_ifs with hlt hk heq hk hk
    -- the key lies before the head, so it is new and nothing behind is it
    · have hnone : (entry :: rest).find? (fun e => e.1 = k) = none := by
        refine List.find?_eq_none.mpr fun e he => ?_
        rcases List.mem_cons.mp he with rfl | hmem
        · simpa using hlt.ne'
        · simpa using (hlt.trans (hhead e hmem)).ne'
      rw [hnone, hk]
      simp
    · rw [List.find?_cons_of_neg (by simpa using Ne.symm hk)]
    · simp [heq, hk]
    · simp [heq ▸ Ne.symm hk, Ne.symm hk]
    · have hne : ¬ entry.1 = k := fun h => heq h.symm
      have ih := ih hrest
      rw [if_pos hk] at ih
      rw [List.find?_cons_of_neg (by simpa [hk] using hne), ih, List.find?_cons_of_neg (by simpa using hne)]
    · by_cases hentry : entry.1 = k'
      · rw [List.find?_cons_of_pos (by simpa using hentry), List.find?_cons_of_pos (by simpa using hentry)]
      · have ih := ih hrest
        rw [if_neg hk] at ih
        rw [List.find?_cons_of_neg (by simpa using hentry), ih,
          List.find?_cons_of_neg (by simpa using hentry)]

theorem lookup_set (m : SortedMap κ ν) (k k' : κ) (v : ν) :
    (m.set k v).lookup k' = if k' = k then some v else m.lookup k' :=
  find_alterEntries m.sorted

theorem nodup_keys (m : SortedMap κ ν) : (m.entries.map Prod.fst).Nodup :=
  List.pairwise_map.mpr (m.sorted.imp ne_of_lt)

/-- What is found is an entry. -/
theorem lookup_eq_some_iff {m : SortedMap κ ν} {k : κ} {v : ν} :
    m.lookup k = some v ↔ (k, v) ∈ m.entries := by
  rw [lookup, Option.map_eq_some_iff]
  constructor
  · rintro ⟨⟨k', v'⟩, hfind, rfl⟩
    have hkey : k' = k := by simpa using List.find?_some hfind
    exact hkey ▸ List.mem_of_find?_eq_some hfind
  · intro hmem
    have hsome : (m.entries.find? fun entry => entry.1 = k).isSome :=
      List.find?_isSome.mpr ⟨(k, v), hmem, by simp⟩
    obtain ⟨entry, hfind⟩ := Option.isSome_iff_exists.mp hsome
    have hkey : entry.1 = k := by simpa using List.find?_some hfind
    exact ⟨entry, hfind, congrArg Prod.snd
      (List.inj_on_of_nodup_map m.nodup_keys (List.mem_of_find?_eq_some hfind) hmem hkey)⟩

/-- What is found among some of the keys. -/
theorem lookup_filterKeys (m : SortedMap κ ν) (p : κ → Bool) (k : κ) :
    (m.filterKeys p).lookup k = if p k then m.lookup k else none := by
  refine Option.ext fun v => ?_
  rw [lookup_eq_some_iff, filterKeys, List.mem_filter]
  split_ifs with hk
  · rw [lookup_eq_some_iff]
    exact and_iff_left hk
  · exact ⟨fun h => absurd h.2 hk, fun h => absurd h (by simp)⟩

theorem lookup_eq_none_of_empty {m : SortedMap κ ν} (hempty : m.entries = []) (k : κ) : m.lookup k = none := by
  rw [lookup, hempty]
  rfl

/-- A map in which something is found has entries. -/
theorem entries_ne_nil_of_lookup {m : SortedMap κ ν} {k : κ} {v : ν} (hlookup : m.lookup k = some v) :
    m.entries ≠ [] := by
  intro hempty
  rw [lookup_eq_none_of_empty hempty] at hlookup
  contradiction

/-- Maps are equal if the same is found in both. -/
theorem ext_lookup {m n : SortedMap κ ν} (heq : ∀ k, m.lookup k = n.lookup k) : m = n := by
  have hperm : m.entries.Perm n.entries := by
    refine (List.perm_ext_iff_of_nodup m.nodup_keys.of_map n.nodup_keys.of_map).mpr fun entry => ?_
    rw [← lookup_eq_some_iff, ← lookup_eq_some_iff, heq]
  refine ext (List.Perm.eq_of_pairwise ?_ m.sorted n.sorted hperm)
  intro a b _ _ hab hba
  exact absurd hba hab.asymm

/-- What is found after a key was erased. -/
theorem lookup_erase (m : SortedMap κ ν) (k k' : κ) :
    (m.erase k).lookup k' = if k' = k then none else m.lookup k' := by
  rw [erase, lookup_filterKeys]
  by_cases hk : k' = k <;> simp [hk]

/-- A key that is set and erased is erased. -/
theorem erase_set (m : SortedMap κ ν) (k : κ) (v : ν) : (m.set k v).erase k = m.erase k := by
  refine ext_lookup fun k' => ?_
  rw [lookup_erase, lookup_erase, lookup_set]
  split_ifs <;> rfl

/-- Maps that agree on some keys are equal among them. -/
theorem filterKeys_congr {m n : SortedMap κ ν} {p : κ → Bool} (heq : ∀ k, p k = true → m.lookup k = n.lookup k) :
    m.filterKeys p = n.filterKeys p := by
  refine ext_lookup fun k => ?_
  rw [lookup_filterKeys, lookup_filterKeys]
  split_ifs with hk
  · exact heq k hk
  · rfl

/-- The entries of a map are that of a key and those of the others. -/
theorem entries_perm (m : SortedMap κ ν) (k : κ) :
    m.entries.Perm ((m.lookup k).toList.map (Prod.mk k) ++ (m.erase k).entries) := by
  have hkey : (m.entries.filter fun entry => entry.1 = k).Perm ((m.lookup k).toList.map (Prod.mk k)) := by
    refine (List.perm_ext_iff_of_nodup (m.nodup_keys.of_map.filter _) ?_).mpr fun entry => ?_
    · cases m.lookup k with
      | none => exact List.nodup_nil
      | some v => exact List.nodup_singleton _
    · rw [List.mem_filter, List.mem_map]
      constructor
      · rintro ⟨hmem, hentry⟩
        obtain rfl : entry.1 = k := by simpa using hentry
        exact ⟨entry.2, Option.mem_toList.mpr (lookup_eq_some_iff.mpr hmem), rfl⟩
      · rintro ⟨v, hv, rfl⟩
        exact ⟨lookup_eq_some_iff.mp (Option.mem_toList.mp hv), by simp⟩
  have hothers : (m.erase k).entries = m.entries.filter fun entry => !decide (entry.1 = k) := by
    rw [erase, filterKeys]
    simp only [ne_eq, decide_not]
  rw [hothers]
  exact (List.filter_append_perm (fun entry => entry.1 = k) m.entries).symm.trans (hkey.append_right _)

/-- The last item under a key is the one that stays. -/
theorem lookup_setAll (items : List (κ × ν)) (k : κ) :
    (setAll items).lookup k = (items.filter fun item => item.1 = k).getLast?.map Prod.snd := by
  induction items using List.reverseRecOn with
  | nil => rfl
  | append_singleton items item ih =>
    rw [setAll, List.foldl_append, List.foldl_cons, List.foldl_nil, lookup_set, ← setAll, ih,
      List.filter_append]
    by_cases hk : k = item.1
    · simp [hk]
    · simp [hk, Ne.symm hk]

/-- Where no two keys resolve to the same one, the order of items under different keys does not matter. -/
theorem setAll_filterMap_sortByKey {κ' : Type*} [LinearOrder κ'] {resolve : κ → Option κ'}
    (hinj : ∀ k k' id, resolve k = some id → resolve k' = some id → k = k') (items : List (κ × ν)) :
    setAll ((sortByKey items).filterMap fun item => (resolve item.1).map fun id => (id, item.2)) =
      setAll (items.filterMap fun item => (resolve item.1).map fun id => (id, item.2)) := by
  refine ext_lookup fun id => ?_
  have hfilter : ∀ l : List (κ × ν),
      (l.filterMap fun item => (resolve item.1).map fun id => (id, item.2)).filter (fun e => e.1 = id) =
        (l.filter fun item => resolve item.1 = some id).map fun item => (id, item.2) := by
    intro l
    induction l with
    | nil => rfl
    | cons item l ih =>
      cases hitem : resolve item.1 with
      | none => simp [hitem, ih]
      | some id' => by_cases hid : id' = id <;> simp [hitem, hid, ih]
  rw [lookup_setAll, lookup_setAll, hfilter, hfilter]
  -- at most one name resolves to the key, and sorting keeps that name's items in order
  by_cases hname : ∃ name, resolve name = some id
  · obtain ⟨name, hname⟩ := hname
    have hkey : (fun item : κ × ν => decide (resolve item.1 = some id)) =
        fun item => decide (item.1 = name) := by
      funext item
      refine decide_eq_decide.mpr ⟨fun h => hinj _ _ id h hname, fun h => h ▸ hname⟩
    rw [hkey, filter_sortByKey]
  · have hnone : ∀ l : List (κ × ν), l.filter (fun item => resolve item.1 = some id) = [] := by
      intro l
      refine List.filter_eq_nil_iff.mpr fun item _ => ?_
      simpa using not_exists.mp hname item.1
    rw [hnone, hnone]

/-! ## What `setAll` keeps -/

/-- A new key is one more entry. -/
private theorem set_perm_of_notMem {k : κ} {v : ν} {l : List (κ × ν)}
    (hk : k ∉ l.map Prod.fst) : (alterEntries k (fun _ => v) l).Perm (l ++ [(k, v)]) := by
  induction l with
  | nil => exact .refl _
  | cons entry rest ih =>
    obtain ⟨hne, hrest⟩ : k ≠ entry.1 ∧ k ∉ rest.map Prod.fst := by simpa using hk
    rw [alterEntries, if_neg hne]
    split
    · exact (List.perm_append_singleton _ _).symm
    · exact (ih hrest).cons _

/-- So are several new keys. -/
private theorem foldl_set_perm (m : SortedMap κ ν) (items : List (κ × ν))
    (hnodup : ((m.entries ++ items).map Prod.fst).Nodup) :
    (items.foldl (fun m item => m.set item.1 item.2) m).entries.Perm (m.entries ++ items) := by
  induction items generalizing m with
  | nil => simp
  | cons item items ih =>
    rw [List.map_append, List.map_cons] at hnodup
    have hnew : item.1 ∉ m.entries.map Prod.fst := by
      intro hmem
      exact (List.nodup_append.mp hnodup).2.2 _ hmem _ List.mem_cons_self rfl
    have hset : (m.set item.1 item.2).entries.Perm (m.entries ++ [item]) := set_perm_of_notMem hnew
    have happend : ((m.set item.1 item.2).entries ++ items).Perm (m.entries ++ item :: items) := by
      simpa using hset.append_right items
    refine (ih (m.set item.1 item.2) ?_).trans happend
    rw [(happend.map Prod.fst).nodup_iff, List.map_append, List.map_cons]
    exact hnodup

/-- Distinct keys are all kept. -/
theorem entries_setAll {items : List (κ × ν)} (hnodup : (items.map Prod.fst).Nodup) :
    (setAll items).entries = sortByKey items := by
  refine eq_sortByKey hnodup ?_ ((setAll items).sorted.imp le_of_lt)
  simpa [setAll] using foldl_set_perm empty items (by simpa using hnodup)

/-- Overwriting loses and never adds. -/
theorem sum_setAll_le (size : κ × ν → ℕ) (items : List (κ × ν)) :
    ((setAll items).entries.map size).sum ≤ (items.map size).sum := by
  have hset : ∀ (k : κ) (v : ν) (l : List (κ × ν)),
      ((alterEntries k (fun _ => v) l).map size).sum ≤ (l.map size).sum + size (k, v) := by
    intro k v l
    induction l with
    | nil => simp [alterEntries]
    | cons entry rest ih =>
      rw [alterEntries]
      split_ifs <;> simp only [List.map_cons, List.sum_cons] at ih ⊢ <;> omega
  have hfold : ∀ m : SortedMap κ ν,
      ((items.foldl (fun m item => m.set item.1 item.2) m).entries.map size).sum ≤
        (m.entries.map size).sum + (items.map size).sum := by
    induction items with
    | nil => intro m; simp
    | cons item items ih =>
      intro m
      have h1 := ih (m.set item.1 item.2)
      have h2 : ((m.set item.1 item.2).entries.map size).sum ≤ (m.entries.map size).sum + size item :=
        hset item.1 item.2 m.entries
      simp only [List.foldl_cons, List.map_cons, List.sum_cons] at h1 ⊢
      omega
  simpa [setAll] using hfold empty

/-! ## What `pushAll` keeps -/

/-- One more value of a key is one more pair. -/
private theorem flat_alterEntries_perm (k : κ) (v : ν) (l : List (κ × List ν)) :
    ((alterEntries k (fun old => old.getD [] ++ [v]) l).flatMap
        fun entry => entry.2.map fun w => (entry.1, w)).Perm
      (l.flatMap (fun entry => entry.2.map fun w => (entry.1, w)) ++ [(k, v)]) := by
  induction l with
  | nil => simp [alterEntries]
  | cons entry rest ih =>
    rw [alterEntries]
    split_ifs with hlt heq
    · have hcomm := (List.perm_append_singleton (k, v)
        ((entry :: rest).flatMap fun entry => entry.2.map fun w => (entry.1, w))).symm
      simpa using hcomm
    · have hcomm := (@List.perm_append_comm _ [(k, v)]
        (rest.flatMap fun entry => entry.2.map fun w => (entry.1, w))).append_left
          (entry.2.map fun w => (entry.1, w))
      simpa [heq, List.append_assoc] using hcomm
    · simpa [List.append_assoc] using ih.append_left (entry.2.map fun w => (entry.1, w))

/-- Nothing is lost when values are appended. -/
theorem flat_pushAll_perm (items : List (κ × ν)) : (pushAll items).flat.Perm items := by
  have hfold : ∀ m : SortedMap κ (List ν),
      (items.foldl (fun m item => m.push item.1 item.2) m).flat.Perm (m.flat ++ items) := by
    induction items with
    | nil => intro m; simp
    | cons item items ih =>
      intro m
      have hpush : (m.push item.1 item.2).flat.Perm (m.flat ++ [item]) :=
        flat_alterEntries_perm item.1 item.2 m.entries
      refine (ih (m.push item.1 item.2)).trans ?_
      simpa using hpush.append_right items
  simpa [pushAll, flat] using hfold empty

/-- The pairs are in the order of their keys. -/
theorem pairwise_flat (m : SortedMap κ (List ν)) : m.flat.Pairwise fun a b => a.1 ≤ b.1 := by
  have hsorted := m.sorted
  rw [flat]
  generalize m.entries = l at hsorted ⊢
  induction l with
  | nil => exact .nil
  | cons entry rest ih =>
    obtain ⟨hhead, hrest⟩ := List.pairwise_cons.mp hsorted
    rw [List.flatMap_cons]
    refine List.pairwise_append.mpr ⟨?_, ih hrest, ?_⟩
    · exact List.pairwise_map.mpr (List.pairwise_of_forall fun _ _ => le_refl _)
    · intro a ha b hb
      obtain ⟨v, -, rfl⟩ := List.mem_map.mp ha
      obtain ⟨entry', hmem, hb'⟩ := List.mem_flatMap.mp hb
      obtain ⟨w, -, rfl⟩ := List.mem_map.mp hb'
      exact le_of_lt (hhead entry' hmem)

/-- A map without empty lists is its pairs. -/
theorem ext_flat {m n : SortedMap κ (List ν)} (hm : ∀ entry ∈ m.entries, entry.2 ≠ [])
    (hn : ∀ entry ∈ n.entries, entry.2 ≠ []) (hflat : m.flat = n.flat) : m = n := by
  have hpairs : ∀ (k : κ) (vs : List ν) (rest : List (κ × List ν)),
      (∀ entry ∈ rest, k < entry.1) →
      ((((k, vs) :: rest).flatMap fun entry => entry.2.map fun v => (entry.1, v)).filter
        fun item => item.1 = k) = vs.map fun v => (k, v) := by
    intro k vs rest hrest
    -- the keys behind are larger, so the filter leaves nothing of them
    have hnone : (rest.flatMap fun entry => entry.2.map fun v => (entry.1, v)).filter
        (fun item => item.1 = k) = [] := by
      refine List.filter_eq_nil_iff.mpr fun item hitem => ?_
      obtain ⟨entry, hentry, hv⟩ := List.mem_flatMap.mp hitem
      obtain ⟨v, -, rfl⟩ := List.mem_map.mp hv
      simpa using (hrest entry hentry).ne'
    rw [List.flatMap_cons, List.filter_append, hnone, List.append_nil]
    exact List.filter_eq_self.mpr fun item hitem => by
      obtain ⟨v, -, rfl⟩ := List.mem_map.mp hitem
      simp
  obtain ⟨l, hl⟩ := m
  obtain ⟨l', hl'⟩ := n
  refine ext ?_
  show l = l'
  simp only [flat] at hflat hm hn
  induction l generalizing l' with
  | nil =>
    cases l' with
    | nil => rfl
    | cons entry rest => simp [hn entry List.mem_cons_self] at hflat
  | cons entry rest ih =>
    cases l' with
    | nil => simp [hm entry List.mem_cons_self] at hflat
    | cons entry' rest' =>
      obtain ⟨k, vs⟩ := entry
      obtain ⟨k', vs'⟩ := entry'
      obtain ⟨hlt, hrest⟩ := List.pairwise_cons.mp hl
      obtain ⟨hlt', hrest'⟩ := List.pairwise_cons.mp hl'
      -- both lists of pairs begin with the first key, as no list of values is empty
      have hkey : k = k' := by
        obtain ⟨v, vt, hv⟩ := List.exists_cons_of_ne_nil (hm (k, vs) List.mem_cons_self)
        obtain ⟨v', vt', hv'⟩ := List.exists_cons_of_ne_nil (hn (k', vs') List.mem_cons_self)
        have hheads := congrArg List.head? hflat
        simp only at hv hv'
        simpa [hv, hv'] using (congrArg (Option.map Prod.fst) hheads)
      subst hkey
      have hvalues : vs = vs' := by
        have hfilter := congrArg (List.filter fun item : κ × ν => item.1 = k) hflat
        rw [hpairs k vs rest hlt, hpairs k vs' rest' hlt'] at hfilter
        exact List.map_injective_iff.mpr (fun a b hab => (Prod.mk.inj hab).2) hfilter
      subst hvalues
      rw [List.flatMap_cons, List.flatMap_cons, List.append_cancel_left_eq] at hflat
      rw [ih hrest (fun e he => hm e (List.mem_cons_of_mem _ he)) rest' hrest'
        (fun e he => hn e (List.mem_cons_of_mem _ he)) hflat]

/-- Distinct keys keep their value. -/
theorem flat_pushAll {items : List (κ × ν)} (hnodup : (items.map Prod.fst).Nodup) :
    (pushAll items).flat = sortByKey items :=
  eq_sortByKey hnodup (flat_pushAll_perm items) (pairwise_flat _)

end SortedMap
