import TlsClient.Library.KeyedList
import TlsClient.Python.Values

/-!
# Writing to a dict

The operations of `dict` that keep insertion order: assigning to a present key keeps its place, a new key
goes to the end. Each operation is described by what is in the dict after it and by its keys.
-/

namespace TlsClient.Python.PyDict

variable {κ ν : Type} [DecidableEq κ]

/-- `list(d)`. -/
def keys (d : PyDict κ ν) : List κ :=
  d.items.map Prod.fst

/-- The items of a dict after `d[k] = v`. -/
def setItems (k : κ) (v : ν) : List (κ × ν) → List (κ × ν)
  | [] => [(k, v)]
  | item :: items => if item.1 = k then (k, v) :: items else item :: setItems k v items

/-- The keys after one was set. -/
theorem mem_keys_setItems {k : κ} {v : ν} {items : List (κ × ν)} (key : κ) :
    key ∈ (setItems k v items).map Prod.fst ↔ key = k ∨ key ∈ items.map Prod.fst := by
  induction items with
  | nil => simp [setItems]
  | cons item items ih =>
    rw [setItems]
    split_ifs with hk
    · simp only [List.map_cons, List.mem_cons, hk]
      tauto
    · simp only [List.map_cons, List.mem_cons, ih]
      tauto

/-- Setting a key keeps the keys distinct. -/
theorem nodup_setItems {k : κ} {v : ν} {items : List (κ × ν)} (hnodup : (items.map Prod.fst).Nodup) :
    ((setItems k v items).map Prod.fst).Nodup := by
  induction items with
  | nil => simp [setItems]
  | cons item items ih =>
    rw [List.map_cons, List.nodup_cons] at hnodup
    rw [setItems]
    split_ifs with hk
    · exact List.nodup_cons.mpr ⟨hk ▸ hnodup.1, hnodup.2⟩
    · refine List.nodup_cons.mpr ⟨fun hmem => ?_, ih hnodup.2⟩
      rcases (mem_keys_setItems _).mp hmem with heq | hmem
      · exact hk heq
      · exact hnodup.1 hmem

/-- `d[k] = v`. -/
def set (d : PyDict κ ν) (k : κ) (v : ν) : PyDict κ ν :=
  ⟨setItems k v d.items, nodup_setItems d.nodup⟩

/-- `d.pop(k, None)`. -/
def pop (d : PyDict κ ν) (k : κ) : PyDict κ ν :=
  ⟨d.items.filter fun item => item.1 ≠ k, d.nodup.sublist (List.filter_sublist.map _)⟩

/-- `d.update(items)`, and what a comprehension builds from its items. -/
def setAll (d : PyDict κ ν) (items : List (κ × ν)) : PyDict κ ν :=
  items.foldl (fun d item => d.set item.1 item.2) d

/-- `d.update(e)`. -/
def update (d e : PyDict κ ν) : PyDict κ ν :=
  d.setAll e.items

/-! ## The keys -/

@[simp] theorem mem_keys_set (d : PyDict κ ν) (k : κ) (v : ν) (key : κ) :
    key ∈ (d.set k v).keys ↔ key = k ∨ key ∈ d.keys :=
  mem_keys_setItems key

/-- The keys of a dict after several were set. -/
theorem mem_keys_setAll (d : PyDict κ ν) (items : List (κ × ν)) (key : κ) :
    key ∈ (d.setAll items).keys ↔ key ∈ d.keys ∨ key ∈ items.map Prod.fst := by
  induction items generalizing d with
  | nil => simp [setAll]
  | cons item items ih =>
    have h := ih (d.set item.1 item.2)
    rw [mem_keys_set] at h
    rw [setAll, List.foldl_cons, ← setAll, h, List.map_cons, List.mem_cons]
    tauto

/-- A key that is there keeps its place. -/
theorem map_fst_setItems_of_mem {k : κ} (v : ν) {items : List (κ × ν)} (hk : k ∈ items.map Prod.fst) :
    (setItems k v items).map Prod.fst = items.map Prod.fst := by
  induction items with
  | nil => exact absurd hk List.not_mem_nil
  | cons item items ih =>
    rw [setItems]
    split_ifs with heq
    · rw [List.map_cons, List.map_cons, heq]
    · rw [List.map_cons, List.map_cons, ih ((List.mem_cons.mp hk).resolve_left (Ne.symm heq))]

/-- A new key goes to the end. -/
theorem setItems_of_not_mem {k : κ} (v : ν) {items : List (κ × ν)} (hk : k ∉ items.map Prod.fst) :
    setItems k v items = items ++ [(k, v)] := by
  induction items with
  | nil => rfl
  | cons item items ih =>
    rw [List.map_cons, List.mem_cons, not_or] at hk
    rw [setItems, if_neg (Ne.symm hk.1), ih hk.2, List.cons_append]

/-- Setting a key that is there keeps the order of the keys. -/
theorem keys_set_of_mem {d : PyDict κ ν} {k : κ} (hk : k ∈ d.keys) (v : ν) : (d.set k v).keys = d.keys :=
  map_fst_setItems_of_mem v hk

/-- A new key is the last one. -/
theorem keys_set_of_not_mem {d : PyDict κ ν} {k : κ} (hk : k ∉ d.keys) (v : ν) :
    (d.set k v).keys = d.keys ++ [k] := by
  have hitems := congrArg (List.map Prod.fst) (setItems_of_not_mem v hk)
  rw [List.map_append] at hitems
  exact hitems

@[simp] theorem mem_keys_pop (d : PyDict κ ν) (k key : κ) : key ∈ (d.pop k).keys ↔ key ∈ d.keys ∧ key ≠ k := by
  simp only [keys, pop, List.mem_map, List.mem_filter, decide_eq_true_eq]
  constructor
  · rintro ⟨item, ⟨hitem, hne⟩, rfl⟩
    exact ⟨⟨item, hitem, rfl⟩, hne⟩
  · rintro ⟨⟨item, hitem, rfl⟩, hne⟩
    exact ⟨item, ⟨hitem, hne⟩, rfl⟩

omit [DecidableEq κ] in
theorem nodup_keys (d : PyDict κ ν) : d.keys.Nodup := d.nodup

omit [DecidableEq κ] in
theorem mem_keys_of_mem {d : PyDict κ ν} {item : κ × ν} (hmem : item ∈ d.items) : item.1 ∈ d.keys :=
  List.mem_map_of_mem hmem

/-! ## The items -/

omit [DecidableEq κ] in
/-- A key has one value. -/
theorem eq_of_mem {d : PyDict κ ν} {k : κ} {v w : ν} (hv : (k, v) ∈ d.items) (hw : (k, w) ∈ d.items) :
    v = w :=
  congrArg Prod.snd (List.inj_on_of_nodup_map d.nodup hv hw rfl)

/-- The items after one was set. -/
theorem mem_setItems {k : κ} {v : ν} {items : List (κ × ν)} (hnodup : (items.map Prod.fst).Nodup)
    (item : κ × ν) : item ∈ setItems k v items ↔ item = (k, v) ∨ item ∈ items ∧ item.1 ≠ k := by
  induction items with
  | nil => simp [setItems]
  | cons first items ih =>
    rw [List.map_cons, List.nodup_cons] at hnodup
    rw [setItems]
    split_ifs with hk
    · -- the other items have other keys
      have hother : ∀ item ∈ items, item.1 ≠ k := by
        intro item hitem heq
        exact hnodup.1 (hk.trans heq.symm ▸ List.mem_map_of_mem hitem)
      simp only [List.mem_cons]
      constructor
      · rintro (heq | hmem)
        · exact .inl heq
        · exact .inr ⟨.inr hmem, hother item hmem⟩
      · rintro (heq | ⟨rfl | hmem, hne⟩)
        · exact .inl heq
        · exact absurd hk hne
        · exact .inr hmem
    · simp only [List.mem_cons, ih hnodup.2]
      constructor
      · rintro (rfl | heq | ⟨hmem, hne⟩)
        · exact .inr ⟨.inl rfl, hk⟩
        · exact .inl heq
        · exact .inr ⟨.inr hmem, hne⟩
      · rintro (heq | ⟨rfl | hmem, hne⟩)
        · exact .inr (.inl heq)
        · exact .inl rfl
        · exact .inr (.inr ⟨hmem, hne⟩)

theorem mem_set (d : PyDict κ ν) (k : κ) (v : ν) (item : κ × ν) :
    item ∈ (d.set k v).items ↔ item = (k, v) ∨ item ∈ d.items ∧ item.1 ≠ k :=
  mem_setItems d.nodup item

/-- What is in a dict after an update was written by it or was there under another key. -/
theorem mem_of_mem_setAll {d : PyDict κ ν} {items : List (κ × ν)} {item : κ × ν}
    (hmem : item ∈ (d.setAll items).items) :
    item ∈ items ∨ item ∈ d.items ∧ item.1 ∉ items.map Prod.fst := by
  induction items generalizing d with
  | nil => exact .inr ⟨hmem, List.not_mem_nil⟩
  | cons first items ih =>
    rcases ih (d := d.set first.1 first.2) hmem with hitem | ⟨hitem, hkey⟩
    · exact .inl (List.mem_cons_of_mem _ hitem)
    · rcases (mem_set d _ _ item).mp hitem with heq | ⟨hold, hne⟩
      · exact .inl (heq ▸ List.mem_cons_self)
      · refine .inr ⟨hold, ?_⟩
        rw [List.map_cons, List.mem_cons, not_or]
        exact ⟨hne, hkey⟩

/-- The items after an update: those of the other dict, and those whose keys it does not have. -/
theorem mem_update (d e : PyDict κ ν) (item : κ × ν) :
    item ∈ (d.update e).items ↔ item ∈ e.items ∨ item ∈ d.items ∧ item.1 ∉ e.keys := by
  refine ⟨mem_of_mem_setAll, ?_⟩
  have hkeys := mem_keys_setAll d e.items item.1
  rintro (hmem | ⟨hmem, hkey⟩)
  · -- the key is in the result, with a value that the update or the dict gives it
    obtain ⟨found, hfound, hkey⟩ := List.mem_map.mp (hkeys.mpr (.inr (List.mem_map_of_mem hmem)))
    rcases mem_of_mem_setAll hfound with hnew | ⟨-, hnot⟩
    · have heq : found = item := List.inj_on_of_nodup_map e.nodup hnew hmem hkey
      exact heq ▸ hfound
    · exact absurd (hkey ▸ List.mem_map_of_mem hmem) hnot
  · obtain ⟨found, hfound, hfkey⟩ := List.mem_map.mp (hkeys.mpr (.inl (List.mem_map_of_mem hmem)))
    rcases mem_of_mem_setAll hfound with hnew | ⟨hold, -⟩
    · exact absurd (hfkey ▸ List.mem_map_of_mem hnew) hkey
    · have heq : found = item := List.inj_on_of_nodup_map d.nodup hold hmem hfkey
      exact heq ▸ hfound

/-! ## Looking up -/

/-- What `get` gives is an item. -/
theorem get_eq_some_iff {d : PyDict κ ν} {k : κ} {v : ν} : d.get k = some v ↔ (k, v) ∈ d.items := by
  rw [get, Option.map_eq_some_iff]
  constructor
  · rintro ⟨item, hfind, rfl⟩
    have hk : item.1 = k := by simpa using List.find?_some hfind
    exact hk ▸ List.mem_of_find?_eq_some hfind
  · intro hmem
    cases hfind : d.items.find? fun item => item.1 = k with
    | none =>
      have hne := List.find?_eq_none.mp hfind (k, v) hmem
      simp at hne
    | some item =>
      have hk : item.1 = k := by simpa using List.find?_some hfind
      have hitem := List.mem_of_find?_eq_some hfind
      exact ⟨item, rfl, eq_of_mem (hk ▸ hitem) hmem⟩

/-- `get` gives nothing for a key that is not there. -/
theorem get_eq_none_iff {d : PyDict κ ν} {k : κ} : d.get k = none ↔ k ∉ d.keys := by
  rw [Option.eq_none_iff_forall_ne_some]
  constructor
  · intro hnone hmem
    obtain ⟨item, hitem, rfl⟩ := List.mem_map.mp hmem
    exact hnone item.2 (get_eq_some_iff.mpr hitem)
  · intro hnot v hv
    exact hnot (mem_keys_of_mem (get_eq_some_iff.mp hv))

/-- The value of any key after one was set. -/
theorem get_set (d : PyDict κ ν) (k : κ) (v : ν) (key : κ) :
    (d.set k v).get key = if key = k then some v else d.get key := by
  refine Option.ext fun w => ?_
  rw [get_eq_some_iff, mem_set]
  split_ifs with hkey
  · simp [hkey, eq_comm]
  · rw [get_eq_some_iff]
    constructor
    · rintro (heq | ⟨hmem, -⟩)
      · exact absurd (congrArg Prod.fst heq) hkey
      · exact hmem
    · exact fun hmem => .inr ⟨hmem, hkey⟩

@[simp] theorem get_set_self (d : PyDict κ ν) (k : κ) (v : ν) : (d.set k v).get k = some v := by
  rw [get_set, if_pos rfl]

theorem get_set_of_ne (d : PyDict κ ν) {k key : κ} (v : ν) (hne : key ≠ k) :
    (d.set k v).get key = d.get key := by
  rw [get_set, if_neg hne]

/-- The value of any key after one was removed. -/
theorem get_pop (d : PyDict κ ν) (k key : κ) : (d.pop k).get key = if key = k then none else d.get key := by
  refine Option.ext fun v => ?_
  have hmem : (key, v) ∈ (d.pop k).items ↔ (key, v) ∈ d.items ∧ key ≠ k := by simp [pop]
  rw [get_eq_some_iff, hmem]
  split_ifs with hkey
  · simp [hkey]
  · rw [get_eq_some_iff, and_iff_left hkey]

@[simp] theorem get_empty (k : κ) : (empty : PyDict κ ν).get k = none := rfl

/-- The value of a key after several were set: that of the last item for it, or the old one. -/
theorem get_setAll (d : PyDict κ ν) (items : List (κ × ν)) (k : κ) :
    (d.setAll items).get k = ((KeyedList.last Prod.fst k items).map Prod.snd).or (d.get k) := by
  induction items generalizing d with
  | nil => rfl
  | cons item items ih =>
    have hrest := ih (d.set item.1 item.2)
    rw [get_set] at hrest
    rw [KeyedList.last_cons, Option.map_or, Option.or_assoc]
    refine hrest.trans (congrArg _ ?_)
    by_cases hk : item.1 = k
    · rw [if_pos hk, if_pos hk.symm]
      rfl
    · rw [if_neg hk, if_neg (Ne.symm hk)]
      rfl

/-- The value of a key after an update. -/
theorem get_update (d e : PyDict κ ν) (k : κ) : (d.update e).get k = (e.get k).or (d.get k) := by
  refine Option.ext fun v => ?_
  rw [get_eq_some_iff, mem_update, Option.or_eq_some_iff, get_eq_some_iff, get_eq_none_iff,
    get_eq_some_iff]
  tauto

/-! ## Comprehensions -/

omit [DecidableEq κ] in
/-- The names that have a value, in their order. -/
theorem map_fst_filterMap_sublist (f : κ → Option ν) (names : List κ) :
    ((names.filterMap fun k => (f k).map fun v => (k, v)).map Prod.fst).Sublist names := by
  induction names with
  | nil => exact .slnil
  | cons k names ih =>
    cases hk : f k with
    | none =>
      rw [List.filterMap_cons_none (by rw [hk]; rfl)]
      exact ih.cons k
    | some v =>
      rw [List.filterMap_cons_some (by rw [hk]; rfl)]
      exact ih.cons_cons k

omit [DecidableEq κ] in
/-- `{k: f(k) for k in names}`, without the names that have no value. -/
def tabulate (names : List κ) (hnames : names.Nodup) (f : κ → Option ν) : PyDict κ ν :=
  ⟨names.filterMap fun k => (f k).map fun v => (k, v), hnames.sublist (map_fst_filterMap_sublist f names)⟩

omit [DecidableEq κ] in
/-- The items of a table: each name with its value, if it has one. -/
theorem mem_tabulate {names : List κ} (hnames : names.Nodup) (f : κ → Option ν) (item : κ × ν) :
    item ∈ (tabulate names hnames f).items ↔ item.1 ∈ names ∧ f item.1 = some item.2 := by
  simp only [tabulate, List.mem_filterMap, Option.map_eq_some_iff]
  constructor
  · rintro ⟨k, hk, v, hv, rfl⟩
    exact ⟨hk, hv⟩
  · rintro ⟨hk, hv⟩
    exact ⟨item.1, hk, item.2, hv, rfl⟩

/-- The value of a name of the table. -/
theorem get_tabulate {names : List κ} (hnames : names.Nodup) (f : κ → Option ν) (k : κ) :
    (tabulate names hnames f).get k = if k ∈ names then f k else none := by
  refine Option.ext fun v => ?_
  rw [get_eq_some_iff, mem_tabulate]
  split_ifs with hk
  · exact ⟨fun h => h.2, fun h => ⟨hk, h⟩⟩
  · exact ⟨fun h => absurd h.1 hk, fun h => absurd h (by simp)⟩

/-- Two tables of the same names are equal if their values are. -/
theorem tabulate_eq_iff {names : List κ} (hnames : names.Nodup) (f g : κ → Option ν) :
    tabulate names hnames f = tabulate names hnames g ↔ ∀ k ∈ names, f k = g k := by
  constructor
  · intro heq k hk
    have hget := congrArg (fun d => d.get k) heq
    simp only [get_tabulate, if_pos hk] at hget
    exact hget
  · intro h
    have hitems : (names.filterMap fun k => (f k).map fun v => (k, v)) =
        names.filterMap fun k => (g k).map fun v => (k, v) :=
      List.filterMap_congr fun k hk => by rw [h k hk]
    simp only [tabulate, hitems]

/-- An update leaves the names as they are exactly if it writes the values that they have. -/
theorem get_update_eq_iff (d e : PyDict κ ν) (names : List κ) :
    (∀ k ∈ names, (d.update e).get k = d.get k) ↔
      ∀ item ∈ e.items, item.1 ∈ names → d.get item.1 = some item.2 := by
  constructor
  · intro h item hitem hname
    rw [← h item.1 hname, get_update, get_eq_some_iff.mpr hitem]
    rfl
  · intro h k hk
    rw [get_update]
    cases hget : e.get k with
    | none => rfl
    | some v => exact (h (k, v) (get_eq_some_iff.mp hget) hk).symm

end TlsClient.Python.PyDict
