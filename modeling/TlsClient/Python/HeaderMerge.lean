import TlsClient.Python.HeaderTemplate

/-!
# Merging default headers and the headers of a request

What `_merge_default_headers` of `src/tls_client/_core.py` returns, name by name and whatever the case of the
names. The last value that the request gives takes the place of the first default of its name, so a name that the
default headers have once, or not at all, goes out once (`valuesOf_mergeHeaders`). A name that they have in two
spellings keeps the second one. Without default headers nothing is merged and no order is made.
-/

namespace TlsClient.Python

variable {lib : StrLib} {name : String}

/-! ## The values under a name -/

/-- The name of an item up to its case. -/
abbrev foldedName (lib : StrLib) (item : String × String) : String :=
  lib.casefold item.1

/-- The entries under a name, in their order and with their spellings. -/
def entriesOf (lib : StrLib) (name : String) (items : List (String × String)) : List (String × String) :=
  items.filter fun item => foldedName lib item = name

/-- The values under a name. -/
def valuesOf (lib : StrLib) (name : String) (items : List (String × String)) : List String :=
  (entriesOf lib name items).map Prod.snd

/-- The entries of a name with one more item. -/
theorem entriesOf_cons (item : String × String) (items : List (String × String)) :
    entriesOf lib name (item :: items) =
      if foldedName lib item = name then item :: entriesOf lib name items else entriesOf lib name items := by
  rw [entriesOf, List.filter_cons]
  by_cases h : foldedName lib item = name
  · rw [if_pos h, if_pos (decide_eq_true h), ← entriesOf]
  · rw [if_neg h, if_neg (by simpa using h), ← entriesOf]

/-- The values of a name with one more item. -/
theorem valuesOf_cons (item : String × String) (items : List (String × String)) :
    valuesOf lib name (item :: items) =
      if foldedName lib item = name then item.2 :: valuesOf lib name items else valuesOf lib name items := by
  rw [valuesOf, entriesOf_cons]
  split_ifs <;> rfl

theorem entriesOf_append (items others : List (String × String)) :
    entriesOf lib name (items ++ others) = entriesOf lib name items ++ entriesOf lib name others :=
  List.filter_append _ _

/-- The values of a name in two lists. -/
theorem valuesOf_append (items others : List (String × String)) :
    valuesOf lib name (items ++ others) = valuesOf lib name items ++ valuesOf lib name others := by
  rw [valuesOf, entriesOf_append, List.map_append]
  rfl

/-- The number of the values is the number of the spellings. -/
theorem length_valuesOf (headers : Headers) :
    (valuesOf lib name headers.items).length = (folded lib headers.keys).count name := by
  rw [valuesOf, entriesOf, List.length_map, folded, PyDict.keys, List.map_map, List.count, List.countP_map,
    List.countP_eq_length_filter]
  rfl

theorem valuesOf_eq_nil_iff {headers : Headers} :
    valuesOf lib name headers.items = [] ↔ name ∉ folded lib headers.keys := by
  rw [← List.length_eq_zero_iff, length_valuesOf, List.count_eq_zero]

/-- A name that is there once has the value that a lookup finds. -/
theorem valuesOf_eq_toList {headers : Headers} (h : (folded lib headers.keys).count name ≤ 1) :
    valuesOf lib name headers.items = ((KeyedList.get (foldedName lib) name headers.items).map Prod.snd).toList := by
  rw [← length_valuesOf] at h
  generalize headers.items = items at h ⊢
  induction items with
  | nil => rfl
  | cons item items ih =>
    rw [KeyedList.get_cons]
    rw [valuesOf_cons] at h ⊢
    split_ifs at h ⊢ with hitem
    · have hrest : valuesOf lib name items = [] :=
        List.eq_nil_of_length_eq_zero (Nat.le_zero.mp (Nat.le_of_succ_le_succ h))
      rw [hrest]
      rfl
    · exact ih h

/-! ## Assigning -/

/-- An assignment changes nothing under other names. -/
theorem entriesOf_setItems_of_ne {key value : String} (hne : lib.casefold key ≠ name)
    (items : List (String × String)) :
    entriesOf lib name (PyDict.setItems key value items) = entriesOf lib name items := by
  induction items with
  | nil => rw [PyDict.setItems, entriesOf_cons, if_neg hne]
  | cons item items ih =>
    rw [PyDict.setItems]
    split_ifs with hkey
    · have hitem : foldedName lib item ≠ name := fun h => hne (hkey ▸ h)
      rw [entriesOf_cons, if_neg hne, entriesOf_cons, if_neg hitem]
    · rw [entriesOf_cons, entriesOf_cons, ih]

/-- Another key does not change the values. -/
theorem valuesOf_setItems_of_ne {key value : String} (hne : lib.casefold key ≠ name)
    (items : List (String × String)) :
    valuesOf lib name (PyDict.setItems key value items) = valuesOf lib name items :=
  congrArg (List.map Prod.snd) (entriesOf_setItems_of_ne hne items)

/-- Before the first spelling of a name there are entries of other names only. -/
theorem exists_split_of_first {key : String} {items : List (String × String)}
    (hfirst : (items.map Prod.fst).find? (fun k => lib.casefold k = name) = some key) :
    ∃ before value after, items = before ++ (key, value) :: after ∧ key ∉ before.map Prod.fst ∧
      entriesOf lib name before = [] := by
  obtain ⟨hkey, front, rest, hkeys, hfront⟩ := List.find?_eq_some_iff_append.mp hfirst
  obtain ⟨before, tail, rfl, rfl, htail⟩ := List.map_eq_append_iff.mp hkeys
  obtain ⟨⟨_, value⟩, after, rfl, rfl, -⟩ := List.map_eq_cons_iff.mp htail
  have hother : ∀ item ∈ before, lib.casefold item.1 ≠ name := by
    intro item hitem
    simpa using hfront item.1 (List.mem_map_of_mem hitem)
  refine ⟨before, value, after, rfl, fun hmem => ?_, List.filter_eq_nil_iff.mpr fun item hitem => ?_⟩
  · obtain ⟨item, hitem, heq⟩ := List.mem_map.mp hmem
    exact hother item hitem (heq ▸ of_decide_eq_true hkey)
  · simpa using hother item hitem

/-- A key that is not in front is set behind. -/
theorem setItems_append {key value : String} {before : List (String × String)} (hkey : key ∉ before.map Prod.fst)
    (items : List (String × String)) :
    PyDict.setItems key value (before ++ items) = before ++ PyDict.setItems key value items := by
  induction before with
  | nil => rfl
  | cons item before ih =>
    obtain ⟨hne, hrest⟩ := not_or.mp (mt List.mem_cons.mpr hkey)
    rw [List.cons_append, PyDict.setItems, if_neg (Ne.symm hne), ih hrest, List.cons_append]

/-- An assignment to the first spelling of a name replaces the first value. -/
theorem valuesOf_setItems_first {key : String} {items : List (String × String)}
    (hfirst : (items.map Prod.fst).find? (fun k => lib.casefold k = name) = some key) (value : String) :
    valuesOf lib name (PyDict.setItems key value items) = value :: (valuesOf lib name items).tail := by
  have hkey : lib.casefold key = name := by simpa using List.find?_some hfirst
  obtain ⟨before, old, after, rfl, hnot, hbefore⟩ := exists_split_of_first hfirst
  have hnone : valuesOf lib name before = [] := congrArg (List.map Prod.snd) hbefore
  rw [setItems_append hnot, PyDict.setItems, if_pos rfl, valuesOf_append, valuesOf_append, hnone, valuesOf_cons,
    if_pos hkey, valuesOf_cons, if_pos hkey]
  rfl

/-- Without a key there are no values. -/
theorem valuesOf_of_foldedKey_none {headers : Headers} (h : foldedKey lib headers name = none) :
    valuesOf lib name headers.items = [] := by
  refine valuesOf_eq_nil_iff.mpr fun hmem => ?_
  obtain ⟨key, hkey, hfold⟩ := List.mem_map.mp hmem
  exact foldedKey_eq_none h key hkey hfold

/-- An assignment to a name that is not there adds its value. -/
theorem valuesOf_set_new {headers : Headers} {key : String} (hnone : foldedKey lib headers (lib.casefold key) = none)
    (value : String) : valuesOf lib (lib.casefold key) (headers.set key value).items = [value] := by
  have hnot : key ∉ headers.keys := fun hmem => foldedKey_eq_none hnone key hmem rfl
  have hitems : (headers.set key value).items = headers.items ++ [(key, value)] :=
    PyDict.setItems_of_not_mem value hnot
  rw [hitems, valuesOf_append, valuesOf_of_foldedKey_none hnone, valuesOf_cons, if_pos rfl]
  rfl

/-! ## The loops -/

/-- The loop of `folded.setdefault` finds the first spelling of each name. -/
theorem get_firstNames (names : List String) (name : String) :
    (firstNames lib names).get name = KeyedList.get lib.casefold name names := by
  have hloop : ∀ seen : Headers, (names.foldl (fun seen key =>
      if lib.casefold key ∈ seen.keys then seen else seen.set (lib.casefold key) key) seen).get name =
      (seen.get name).or (KeyedList.get lib.casefold name names) := by
    induction names with
    | nil => exact fun seen => (Option.or_none).symm
    | cons key names ih =>
      intro seen
      rw [List.foldl_cons, ih, KeyedList.get_cons]
      by_cases hname : lib.casefold key = name
      · rw [if_pos hname, hname]
        split_ifs with hseen
        · -- the name was there before
          obtain ⟨spelling, hspelling⟩ := Option.ne_none_iff_exists'.mp fun hnone =>
            PyDict.get_eq_none_iff.mp hnone hseen
          rw [hspelling, Option.some_or, Option.some_or]
        · rw [PyDict.get_set_self, PyDict.get_eq_none_iff.mpr hseen, Option.some_or, Option.none_or]
      · rw [if_neg hname]
        split_ifs
        · rfl
        · rw [PyDict.get_set_of_ne _ _ (Ne.symm hname)]
  rw [firstNames, hloop, PyDict.get_empty, Option.none_or]

/-- The values after one more takes the place of the first. -/
def overridden : Option String → List String → List String
  | none, values => values
  | some value, values => value :: values.tail

/-- Two overrides, one after the other. -/
theorem overridden_or (last first : Option String) (values : List String) :
    overridden (last.or first) values = overridden last (overridden first values) := by
  cases last with
  | some value =>
    cases first <;> rfl
  | none => rfl

/-- The name that is found after an assignment to a new one. -/
theorem foldedKey_set_new {headers : Headers} {key : String} (hnone : foldedKey lib headers (lib.casefold key) = none)
    (value name : String) :
    foldedKey lib (headers.set key value) name =
      if name = lib.casefold key then some key else foldedKey lib headers name := by
  have hnot : key ∉ headers.keys := fun hmem => foldedKey_eq_none hnone key hmem rfl
  have hone := @KeyedList.get_cons _ _ _ lib.casefold name key []
  rw [foldedKey, PyDict.keys_set_of_not_mem hnot, List.find?_append, ← foldedKey]
  rw [KeyedList.get] at hone
  rw [hone, KeyedList.get_nil]
  by_cases hname : name = lib.casefold key
  · rw [if_pos hname, hname, hnone, if_pos rfl, Option.none_or]
  · rw [if_neg hname, if_neg (Ne.symm hname), Option.or_none]

/-- The last value of the request takes the place of the first that there was. -/
theorem valuesOf_mergeHeaders {merged seen : Headers} (hseen : ∀ n, seen.get n = foldedKey lib merged n)
    (name : String) (items : List (String × String)) :
    valuesOf lib name (mergeHeaders lib merged seen items).items =
      overridden ((KeyedList.last (foldedName lib) name items).map Prod.snd) (valuesOf lib name merged.items) := by
  induction items generalizing merged seen with
  | nil => rfl
  | cons item items ih =>
    obtain ⟨key, value⟩ := item
    rw [KeyedList.last_cons, Option.map_or, overridden_or, mergeHeaders]
    -- the name is there under some spelling, which keeps its place and takes the value
    cases hget : seen.get (lib.casefold key) with
    | some existing =>
      have hfirst := (hseen _).symm.trans hget
      have hkeys := PyDict.keys_set_of_mem (foldedKey_eq_some hfirst).1 value
      dsimp only
      rw [ih fun n => (hseen n).trans (by rw [foldedKey, foldedKey, hkeys])]
      congr 1
      by_cases hname : lib.casefold key = name
      · subst hname
        rw [if_pos rfl]
        exact valuesOf_setItems_first hfirst value
      · rw [if_neg hname]
        exact valuesOf_setItems_of_ne ((foldedKey_eq_some hfirst).2.symm ▸ hname) _
    -- a new name goes to the end, and `seen` remembers it
    | none =>
      have hnone := (hseen _).symm.trans hget
      dsimp only
      rw [ih fun n => by rw [foldedKey_set_new hnone, PyDict.get_set, hseen]]
      congr 1
      by_cases hname : lib.casefold key = name
      · subst hname
        rw [if_pos rfl, valuesOf_of_foldedKey_none hnone]
        exact valuesOf_set_new hnone value
      · rw [if_neg hname]
        exact valuesOf_setItems_of_ne hname _

/-! ## The merged headers and their order -/

/-- The items of the headers, none where there are no headers. -/
def itemsOf (headers : Option Headers) : List (String × String) :=
  (headers.map PyDict.items).getD []

/-- One name after the merge. The map has the name once, with the last value of the request, or with the default
if the request has none. The order has it once if the map has it and the given order does not repeat it. -/
structure MergedAt (lib : StrLib) (defaults requested : List (String × String)) (given : List String)
    (merged : Headers) (order : List String) (name : String) : Prop where
  values : valuesOf lib name merged.items =
    (((KeyedList.last (foldedName lib) name requested).or (KeyedList.get (foldedName lib) name defaults)).map
      Prod.snd).toList
  listed : name ∈ folded lib merged.keys → (folded lib given).count name ≤ 1 → (folded lib order).count name = 1

/-- There is a map and an order, the order starts with the given one, and the names are merged. -/
def Merges (lib : StrLib) (defaultHeaders requestHeaders : Option Headers) (headerOrder : Option (List String))
    (names : String → Prop) : Prop :=
  ∃ merged order, mergeDefaultHeaders lib defaultHeaders requestHeaders headerOrder = (some merged, some order) ∧
    headerOrder.getD [] <+: order ∧
    ∀ name, names name →
      MergedAt lib (itemsOf defaultHeaders) (itemsOf requestHeaders) (headerOrder.getD []) merged order name

/-- An order with the names after it that it does not list. -/
def extendedOrder (lib : StrLib) (given : List String) (merged : Headers) : List String :=
  given ++ merged.keys.filter fun key => lib.casefold key ∉ folded lib given

/-- The order that is written. -/
theorem order_eq (given : List String) (merged : Headers) :
    (match given with
      | [] => merged.keys
      | order => order ++ merged.keys.filter fun key => lib.casefold key ∉ folded lib order) =
      extendedOrder lib given merged := by
  cases given with
  | nil => exact (List.filter_eq_self.mpr fun _ _ => decide_eq_true List.not_mem_nil).symm
  | cons first given => rfl

/-- A header stands once in the order. -/
theorem count_order {given : List String} {merged : Headers} (hmerged : (folded lib merged.keys).count name = 1)
    (hgiven : (folded lib given).count name ≤ 1) :
    (folded lib (extendedOrder lib given merged)).count name = 1 := by
  rw [extendedOrder, folded, List.map_append, List.count_append, ← folded, ← folded]
  by_cases hlisted : name ∈ folded lib given
  · have hrest : name ∉ folded lib (merged.keys.filter fun key => lib.casefold key ∉ folded lib given) := by
      intro hmem
      obtain ⟨key, hkey, rfl⟩ := List.mem_map.mp hmem
      exact of_decide_eq_true (List.mem_filter.mp hkey).2 hlisted
    have hpos := List.count_pos_iff.mpr hlisted
    rw [List.count_eq_zero.mpr hrest]
    omega
  · rw [List.count_eq_zero.mpr hlisted, Nat.zero_add, ← hmerged, folded, folded, folded, List.count_eq_countP,
      List.count_eq_countP, List.countP_map, List.countP_map, List.countP_filter]
    refine List.countP_congr fun key _ => ?_
    rw [Bool.and_eq_true, and_iff_left_iff_imp]
    intro hkey
    rw [Function.comp_apply, beq_iff_eq] at hkey
    exact decide_eq_true (hkey ▸ hlisted)

/-- The items of headers that are there. -/
theorem itemsOf_of_truthy {defaultHeaders : Option Headers} {defaults : Headers}
    (h : truthyHeaders defaultHeaders = some defaults) : itemsOf defaultHeaders = defaults.items := by
  obtain ⟨hsome, -⟩ := Option.filter_eq_some_iff.mp h
  rw [hsome]
  rfl

/-- `merged` of `_merge_default_headers`. -/
def mergedHeaders (lib : StrLib) (defaults : Headers) (requestHeaders : Option Headers) : Headers :=
  mergeHeaders lib defaults (firstNames lib defaults.keys) (itemsOf requestHeaders)

/-- What the merge makes of default headers that are there. -/
theorem mergeDefaultHeaders_eq {defaultHeaders : Option Headers} {defaults : Headers}
    (h : truthyHeaders defaultHeaders = some defaults) (requestHeaders : Option Headers)
    (headerOrder : Option (List String)) :
    mergeDefaultHeaders lib defaultHeaders requestHeaders headerOrder =
      (some (mergedHeaders lib defaults requestHeaders),
        some (extendedOrder lib (headerOrder.getD []) (mergedHeaders lib defaults requestHeaders))) := by
  rw [mergeDefaultHeaders, h, ← order_eq]
  rfl

/-- A name that the default headers have in one spelling at most is merged. -/
theorem mergedAt_of_count_le_one {defaults : Headers} (hname : (folded lib defaults.keys).count name ≤ 1)
    (requestHeaders : Option Headers) (given : List String) :
    MergedAt lib defaults.items (itemsOf requestHeaders) given (mergedHeaders lib defaults requestHeaders)
      (extendedOrder lib given (mergedHeaders lib defaults requestHeaders)) name := by
  have hvalues := @valuesOf_mergeHeaders lib defaults _ (get_firstNames defaults.keys) name (itemsOf requestHeaders)
  rw [← mergedHeaders, valuesOf_eq_toList hname] at hvalues
  have hone : valuesOf lib name (mergedHeaders lib defaults requestHeaders).items =
      (((KeyedList.last (foldedName lib) name (itemsOf requestHeaders)).or
        (KeyedList.get (foldedName lib) name defaults.items)).map Prod.snd).toList := by
    rw [hvalues]
    cases KeyedList.last (foldedName lib) name (itemsOf requestHeaders) with
    | none => rfl
    | some item => cases KeyedList.get (foldedName lib) name defaults.items <;> rfl
  refine ⟨hone, fun hmem hgiven => count_order ?_ hgiven⟩
  -- the map has the name, and no two values under it
  have hpos := List.count_pos_iff.mpr hmem
  have hmost : ∀ value : Option String, value.toList.length ≤ 1 := by
    intro value
    cases value <;> simp
  rw [← length_valuesOf, hone] at hpos ⊢
  exact Nat.le_antisymm (hmost _) hpos

/-- Without default headers nothing is done. With default headers, every name that they have in one spelling at
most is merged. -/
theorem mergeDefaultHeaders_merges (lib : StrLib) (defaultHeaders requestHeaders : Option Headers)
    (headerOrder : Option (List String)) :
    (truthyHeaders defaultHeaders = none →
      mergeDefaultHeaders lib defaultHeaders requestHeaders headerOrder = (requestHeaders, headerOrder)) ∧
    (truthyHeaders defaultHeaders ≠ none →
      Merges lib defaultHeaders requestHeaders headerOrder fun name =>
        (valuesOf lib name (itemsOf defaultHeaders)).length ≤ 1) := by
  refine ⟨fun hnone => mergeDefaultHeaders_of_none hnone _ _, fun hsome => ?_⟩
  obtain ⟨defaults, hdefaults⟩ := Option.ne_none_iff_exists'.mp hsome
  refine ⟨_, _, mergeDefaultHeaders_eq hdefaults requestHeaders headerOrder, List.prefix_append _ _, ?_⟩
  rw [itemsOf_of_truthy hdefaults]
  intro name hname
  rw [length_valuesOf] at hname
  exact mergedAt_of_count_le_one hname requestHeaders _

/-- The case of one name is folded. -/
def acceptStrLib : StrLib where
  casefold name := if name = "Accept" then "accept" else name
  lower := id
  hostname _ := none
  casefold_contextHeaders := by decide

/-- Without default headers there is no order; two spellings of a default both stay. -/
theorem not_merges :
    ¬Merges plainStrLib none (some (PyDict.empty.set "accept" "*/*")) none (fun _ => True) ∧
      ¬Merges acceptStrLib (some ((PyDict.empty.set "Accept" "*/*").set "accept" "text/html")) none none
        fun _ => True := by
  constructor
  · rintro ⟨merged, order, h, -⟩
    cases h
  · rintro ⟨merged, order, h, -, hnames⟩
    have hvalues := (hnames "accept" trivial).values
    obtain rfl := Option.some.inj (congrArg Prod.fst h)
    revert hvalues
    decide

end TlsClient.Python
