import TlsClient.Python.Inheritance

/-!
# Presets as objects

`resolve` of `src/tls_client/fingerprints/registry.py` as it runs: the registry refers to dicts, the dicts of presets
refer to further dicts, and what `resolve` writes it writes into objects. It allocates the result, and a new dict for
every merge of two, so the presets are as they were (`Resolving`). The loop over `based_on` is run with fuel; it needs
no more than one round for each preset and one to stop (`walk_eq`).

`Registry` is what the objects say. `resolve_eq` relates the two.
-/

namespace TlsClient.Python

/-! ## Objects -/

namespace PyDict

variable {κ ν μ : Type}

/-- The dict with each value replaced. -/
def mapValues (f : ν → μ) (d : PyDict κ ν) : PyDict κ μ where
  items := d.items.map fun item => (item.1, f item.2)
  nodup := by
    rw [List.map_map]
    exact d.nodup

theorem keys_mapValues (f : ν → μ) (d : PyDict κ ν) : (d.mapValues f).keys = d.keys := by
  rw [keys, mapValues, List.map_map]
  rfl

variable [DecidableEq κ]

theorem get_mapValues (f : ν → μ) (d : PyDict κ ν) (k : κ) : (d.mapValues f).get k = (d.get k).map f := by
  rw [get, get, mapValues, List.find?_map, Option.map_map, Option.map_map]
  rfl

/-- A value that is set is mapped like the others. -/
theorem mapValues_set (f : ν → μ) (d : PyDict κ ν) (k : κ) (v : ν) :
    (d.set k v).mapValues f = (d.mapValues f).set k (f v) := by
  have hitems : ∀ items : List (κ × ν), (setItems k v items).map (fun item => (item.1, f item.2)) =
      setItems k (f v) (items.map fun item => (item.1, f item.2)) := by
    intro items
    induction items with
    | nil => rfl
    | cons item items ih =>
      rw [setItems, List.map_cons, setItems]
      split_ifs
      · rfl
      · rw [List.map_cons, ih]
  simp only [mapValues, set, hitems]

/-- The items of a dict after several assignments. -/
theorem items_setAll (d : PyDict κ ν) (items : List (κ × ν)) :
    (d.setAll items).items = items.foldl (fun base item => setItems item.1 item.2 base) d.items := by
  induction items generalizing d with
  | nil => rfl
  | cons item items ih => exact ih (d.set item.1 item.2)

end PyDict

/-- A value under a key of a preset: a dict is referred to, everything else stands for itself. -/
inductive Cell where
  | plain (v : Value)
  | dict (address : ℕ)

/-- The dicts of presets, and the dicts that they have under their keys. -/
structure Objects where
  presets : List (PyDict String Cell)
  dicts : List (PyDict String Value)

namespace Objects

def preset (o : Objects) (address : ℕ) : PyDict String Cell := o.presets[address]?.getD .empty

def dict (o : Objects) (address : ℕ) : PyDict String Value := o.dicts[address]?.getD .empty

/-- What a value is, with the dict that it refers to. -/
def readCell (o : Objects) : Cell → Value
  | .plain v => v
  | .dict address => .dict (o.dict address).items

def read (o : Objects) (d : PyDict String Cell) : PyDict String Value := d.mapValues o.readCell

/-- `d[key] = value` on a preset. -/
def setItem (o : Objects) (address : ℕ) (key : String) (cell : Cell) : Objects :=
  { o with presets := o.presets.set address ((o.preset address).set key cell) }

/-- A value is what it is here, and refers to a dict that there is. -/
def Valid (o : Objects) : Cell → Prop
  | .plain v => ∀ items, v ≠ .dict items
  | .dict address => address < o.dicts.length

end Objects

/-- `str` values. -/
def Cell.asStr : Cell → Option String
  | .plain v => v.asStr
  | .dict _ => none

/-- `_PRESETS` and the objects it refers to. Each preset has its name, and that of its parent if it has one. -/
structure PresetTable where
  objects : Objects
  addresses : PyDict String ℕ
  address : ∀ item ∈ addresses.items, item.2 < objects.presets.length
  named : ∀ item ∈ addresses.items, (objects.preset item.2).get "name" = some (.plain (.str item.1))
  basedOn : ∀ item ∈ addresses.items, ∀ cell, (objects.preset item.2).get "based_on" = some cell →
    cell = .plain .none ∨ ∃ name, cell = .plain (.str name)
  valid : ∀ item ∈ addresses.items, ∀ entry ∈ (objects.preset item.2).items, objects.Valid entry.2

namespace PresetTable

/-! ## The code -/

/-- `current["name"]`. -/
def nameOf (t : PresetTable) (current : ℕ) : String :=
  (((t.objects.preset current).get "name").bind Cell.asStr).getD ""

/-- `_PRESETS.get(parent) if parent else None`. -/
def parentAddress (t : PresetTable) (current : ℕ) : Option ℕ :=
  ((((t.objects.preset current).get "based_on").bind Cell.asStr).filter (· ≠ "")).bind t.addresses.get

/-- The loop over `current`, with `seen` and `chain`; nothing where the fuel runs out. -/
def walk (t : PresetTable) : ℕ → Option ℕ → List String → List ℕ → Option (Except PyError (List ℕ))
  | 0, _, _, _ => none
  | _ + 1, none, _, chain => some (.ok chain)
  | fuel + 1, some current, seen, chain =>
    let marker := t.nameOf current
    if marker ∈ seen then some (.error (.valueError "based_on cycle at %r" [marker]))
    else t.walk fuel (t.parentAddress current) (marker :: seen) (chain ++ [current])

/-- A round of the loop over the items of a layer. -/
def mergeItem (resolved : ℕ) (o : Objects) (item : String × Cell) : Objects :=
  if item.1 = "based_on" then o
  else
    match (o.preset resolved).get item.1, item.2 with
    | some (.dict base), .dict value =>
      -- `merged = dict(resolved[key])`, `merged.update(value)` and `resolved[key] = merged`
      let merged := o.dicts.length
      let o := { o with dicts := o.dicts ++ [o.dict base] }
      let o := { o with dicts := o.dicts.set merged ((o.dict merged).update (o.dict value)) }
      o.setItem resolved item.1 (.dict merged)
    | _, cell => o.setItem resolved item.1 cell

/-- The loop over the items of a layer. -/
def mergePreset (resolved : ℕ) (o : Objects) (layer : ℕ) : Objects :=
  (o.preset layer).items.foldl (mergeItem resolved) o

/-- `resolved.setdefault(key, value)`. -/
def setDefault (resolved : ℕ) (o : Objects) (item : String × Value) : Objects :=
  if item.1 ∈ (o.preset resolved).keys then o else o.setItem resolved item.1 (.plain item.2)

/-- `resolve`: the objects afterwards, and the address of the result. -/
def resolve (t : PresetTable) (fuel : ℕ) (name : String) : Option (Objects × Except PyError ℕ) :=
  match t.addresses.get name with
  | none =>
    some (t.objects, .error (.valueError "unknown fingerprint preset %r; available: %s"
      [name, ", ".intercalate (t.addresses.keys.mergeSort fun a b => decide (a ≤ b))]))
  | some raw =>
    (t.walk fuel (some raw) [] []).map fun walked =>
      match walked with
      | .error e => (t.objects, .error e)
      | .ok chain =>
        let resolved := t.objects.presets.length
        let o := { t.objects with presets := t.objects.presets ++ [.empty] }
        let o := chain.reverse.foldl (mergePreset resolved) o
        let o := setDefault resolved o ("name", .str name)
        let o := setDefault resolved o ("browser", .str "chrome")
        let o := setDefault resolved o ("custom_tls_client", .none)
        (setDefault resolved o ("with_random_tls_extension_order", .bool true), .ok resolved)

/-! ## Reading the objects -/

/-- The preset at an address. -/
def layer (t : PresetTable) (item : String × ℕ) (h : item ∈ t.addresses.items) : Layer where
  name := item.1
  items := t.objects.read (t.objects.preset item.2)
  name_eq := by
    rw [Objects.read, PyDict.get_mapValues, t.named item h]
    rfl

/-- The registry that the objects make up. -/
def registry (t : PresetTable) : Registry where
  presets :=
    { items := t.addresses.items.attach.map fun item => (item.1.1, t.layer item.1 item.2)
      nodup := by
        have hkeys : (t.addresses.items.attach.map fun item => (item.1.1, t.layer item.1 item.2)).map Prod.fst =
            t.addresses.items.map Prod.fst := by
          conv_rhs => rw [← List.attach_map_subtype_val t.addresses.items, List.map_map]
          rw [List.map_map]
          rfl
        rw [hkeys]
        exact t.addresses.nodup }
  named := by
    intro item hitem
    obtain ⟨entry, -, rfl⟩ := List.mem_map.mp hitem
    rfl

end PresetTable

namespace Objects

variable {o o' o₀ : Objects} {d : PyDict String Cell} {cell : Cell} {key : String} {address resolved : ℕ}
  {items : PyDict String Value}

/-- Every object that was there is as it was. -/
structure Extends (o o' : Objects) : Prop where
  presets : o.presets <+: o'.presets
  dicts : o.dicts <+: o'.dicts

/-- An extension keeps the presets that there were. -/
theorem preset_of_extends (h : o.Extends o') (haddress : address < o.presets.length) :
    o'.preset address = o.preset address := by
  obtain ⟨rest, hrest⟩ := h.presets
  rw [preset, ← hrest, List.getElem?_append_left haddress, preset]

/-- An extension keeps the dicts that there were. -/
theorem dict_of_extends (h : o.dicts <+: o'.dicts) (haddress : address < o.dicts.length) :
    o'.dict address = o.dict address := by
  obtain ⟨rest, hrest⟩ := h
  rw [dict, ← hrest, List.getElem?_append_left haddress, dict]

theorem dict_concat (o : Objects) (new : PyDict String Value) :
    ({ o with dicts := o.dicts ++ [new] } : Objects).dict o.dicts.length = new := by
  rw [dict, List.getElem?_concat_length, Option.getD_some]

/-- A valid cell reads the same in an extension. -/
theorem readCell_of_extends (h : o.dicts <+: o'.dicts) (hvalid : o.Valid cell) :
    o'.readCell cell = o.readCell cell := by
  cases cell with
  | plain v => rfl
  | dict address => rw [readCell, dict_of_extends h hvalid, readCell]

/-- A valid cell is valid in an extension. -/
theorem valid_of_extends (h : o.dicts <+: o'.dicts) (hvalid : o.Valid cell) : o'.Valid cell := by
  cases cell with
  | plain v => exact hvalid
  | dict address => exact Nat.lt_of_lt_of_le hvalid h.length_le

/-- A preset of valid cells reads the same in an extension. -/
theorem read_of_extends (h : o.dicts <+: o'.dicts) (hvalid : ∀ entry ∈ d.items, o.Valid entry.2) :
    o'.read d = o.read d := by
  have hitems : d.items.map (fun item => (item.1, o'.readCell item.2)) =
      d.items.map fun item => (item.1, o.readCell item.2) :=
    List.map_congr_left fun entry hentry => by rw [readCell_of_extends h (hvalid entry hentry)]
  simp only [read, PyDict.mapValues, hitems]

/-- The result under way: it is the only new preset, says what it should, and what was there is as it was. -/
structure Resolving (o₀ o : Objects) (items : PyDict String Value) : Prop where
  presets : ∃ d, o.presets = o₀.presets ++ [d] ∧ o.read d = items ∧ ∀ entry ∈ d.items, o.Valid entry.2
  dicts : o₀.dicts <+: o.dicts

theorem preset_concat {presets : List (PyDict String Cell)} (h : o.presets = presets ++ [d]) :
    o.preset presets.length = d := by
  rw [preset, h, List.getElem?_concat_length, Option.getD_some]

/-- The result says what it should. -/
theorem Resolving.read_eq (h : Resolving o₀ o items) : o.read (o.preset o₀.presets.length) = items := by
  obtain ⟨d, hpresets, hread, -⟩ := h.presets
  rw [preset_concat hpresets, hread]

/-- The cells of the preset that is made are valid. -/
theorem Resolving.valid (h : Resolving o₀ o items) :
    ∀ entry ∈ (o.preset o₀.presets.length).items, o.Valid entry.2 := by
  obtain ⟨d, hpresets, -, hd⟩ := h.presets
  rw [preset_concat hpresets]
  exact hd

/-- An assignment to the result. -/
theorem Resolving.setItem (h : Resolving o₀ o items) (cell : Cell) (hvalid : o.Valid cell) (key : String) :
    Resolving o₀ (o.setItem o₀.presets.length key cell) (items.set key (o.readCell cell)) := by
  obtain ⟨⟨d, hpresets, rfl, hd⟩, hdicts⟩ := h
  have hpreset := preset_concat hpresets
  refine ⟨⟨d.set key cell, ?_, ?_, fun entry hentry => ?_⟩, hdicts⟩
  · rw [Objects.setItem, hpreset, hpresets, List.set_append_right _ _ (Nat.le_refl _), Nat.sub_self, List.set_cons_zero]
  · exact PyDict.mapValues_set _ _ _ _
  · rcases (PyDict.mem_set d _ _ entry).mp hentry with rfl | ⟨hentry, -⟩
    · exact hvalid
    · exact hd entry hentry

/-- A new dict changes nothing that is there. -/
theorem Resolving.alloc (h : Resolving o₀ o items) (new : PyDict String Value) :
    Resolving o₀ { o with dicts := o.dicts ++ [new] } items := by
  obtain ⟨⟨d, hpresets, rfl, hd⟩, hdicts⟩ := h
  have hextends : o.dicts <+: o.dicts ++ [new] := List.prefix_append _ _
  refine ⟨⟨d, hpresets, ?_, fun entry hentry => ?_⟩, hdicts.trans hextends⟩
  · exact @read_of_extends o { o with dicts := o.dicts ++ [new] } d hextends hd
  · exact @valid_of_extends o { o with dicts := o.dicts ++ [new] } _ hextends (hd entry hentry)

end Objects

namespace PresetTable

open Objects

variable {t : PresetTable} {o o₀ : Objects} {items : PyDict String Value}

/-- A value over one that is no dict replaces it. -/
theorem mergeValue_of_inherited {w : Value} (h : ∀ base, w ≠ .dict base) (v : Value) :
    Registry.mergeValue (some w) v = v := by
  unfold Registry.mergeValue
  split
  · rename_i base items heq
    exact absurd (Option.some.inj heq) (h base)
  · rfl

/-- A value that is no dict replaces what is below it. -/
theorem mergeValue_of_own {v : Value} (h : ∀ items, v ≠ .dict items) (inherited : Option Value) :
    Registry.mergeValue inherited v = v := by
  unfold Registry.mergeValue
  split
  · rename_i base items
    exact absurd rfl (h items)
  · rfl

/-- Two dicts are merged in a new one. -/
theorem resolving_mergeDicts (h : Resolving o₀ o items) {key : String} {base value : ℕ}
    (hbase : (o.preset o₀.presets.length).get key = some (.dict base)) (hvalue : value < o.dicts.length)
    (hkey : key ≠ "based_on") :
    Resolving o₀ (mergeItem o₀.presets.length o (key, .dict value))
      (items.set key (.dict ((o.dict base).update (o.dict value)).items)) := by
  have hsame : ({ o with dicts := o.dicts ++ [o.dict base] } : Objects).dict value = o.dict value :=
    dict_of_extends (List.prefix_append _ _) hvalue
  have halloc := h.alloc ((o.dict base).update (o.dict value))
  have hlast : o.dicts.length < (o.dicts ++ [(o.dict base).update (o.dict value)]).length := by
    rw [List.length_append]
    exact Nat.lt_succ_self _
  have hset := halloc.setItem (.dict o.dicts.length) hlast key
  rw [readCell, dict_concat] at hset
  rw [mergeItem, if_neg hkey, hbase]
  dsimp only
  rw [dict_concat, hsame, List.set_append_right _ _ (Nat.le_refl _), Nat.sub_self, List.set_cons_zero]
  exact hset

/-- A round of the loop is a round of `mergeLayer`, on the objects. -/
theorem resolving_mergeItem (h : Resolving o₀ o items) {key : String} {cell : Cell} (hvalid : o₀.Valid cell)
    (hkey : key ≠ "based_on") :
    Resolving o₀ (mergeItem o₀.presets.length o (key, cell))
      (items.set key (Registry.mergeValue (items.get key) (o₀.readCell cell))) := by
  have hget : items.get key = ((o.preset o₀.presets.length).get key).map o.readCell := by
    rw [← h.read_eq, Objects.read, PyDict.get_mapValues]
  have hvalid' := valid_of_extends h.dicts hvalid
  rw [← readCell_of_extends h.dicts hvalid, hget]
  -- where not both are dicts, the value is assigned as it is
  have hplain : ∀ inherited : Option Cell, (o.preset o₀.presets.length).get key = inherited →
      (∀ base value, ¬(inherited = some (.dict base) ∧ cell = .dict value)) →
      Registry.mergeValue (inherited.map o.readCell) (o.readCell cell) = o.readCell cell →
      Resolving o₀ (mergeItem o₀.presets.length o (key, cell))
        (items.set key (Registry.mergeValue (inherited.map o.readCell) (o.readCell cell))) := by
    intro inherited hinherited hnot hmerge
    have hitem : mergeItem o₀.presets.length o (key, cell) = o.setItem o₀.presets.length key cell := by
      rw [mergeItem, if_neg hkey, hinherited]
      dsimp only
      split
      · exact absurd ⟨rfl, rfl⟩ (hnot _ _)
      · rfl
    rw [hitem, hmerge]
    exact h.setItem cell hvalid' key
  cases hinherited : (o.preset o₀.presets.length).get key with
  | none => exact hplain _ hinherited nofun (by cases cell <;> rfl)
  | some inherited =>
    cases inherited with
    | plain w =>
      have hw : o.Valid (.plain w) := h.valid (key, .plain w) (PyDict.get_eq_some_iff.mp hinherited)
      exact hplain _ hinherited nofun (mergeValue_of_inherited hw _)
    | dict base =>
      cases cell with
      | plain v => exact hplain _ hinherited nofun (mergeValue_of_own hvalid _)
      | dict value =>
        have hmerge : Registry.mergeValue (some (.dict (o.dict base).items)) (.dict (o.dict value).items) =
            .dict ((o.dict base).update (o.dict value)).items := by
          rw [PyDict.update, PyDict.items_setAll]
          rfl
        rw [Option.map_some, readCell, readCell, hmerge]
        exact resolving_mergeDicts h hinherited hvalid' hkey

/-- The loop over the items of a layer. -/
theorem resolving_mergeItems (h : Resolving o₀ o items) (entries : List (String × Cell))
    (hvalid : ∀ entry ∈ entries, o₀.Valid entry.2) :
    Resolving o₀ (entries.foldl (mergeItem o₀.presets.length) o)
      (((entries.map fun entry => (entry.1, o₀.readCell entry.2)).filter fun item => item.1 ≠ "based_on").foldl
        (fun resolved item => resolved.set item.1 (Registry.mergeValue (resolved.get item.1) item.2)) items) := by
  induction entries generalizing o items with
  | nil => exact h
  | cons entry entries ih =>
    obtain ⟨key, cell⟩ := entry
    obtain ⟨hcell, hvalid⟩ := List.forall_mem_cons.mp hvalid
    rw [List.foldl_cons, List.map_cons]
    by_cases hkey : key = "based_on"
    · have hround : mergeItem o₀.presets.length o (key, cell) = o := if_pos hkey
      rw [List.filter_cons_of_neg (by simpa using hkey), hround]
      exact ih h hvalid
    · rw [List.filter_cons_of_pos (by simpa using hkey), List.foldl_cons]
      exact ih (resolving_mergeItem h hcell hkey) hvalid

/-- The preset that is made has the keys of the items. -/
theorem keys_preset_of_resolving (h : Resolving o₀ o items) : (o.preset o₀.presets.length).keys = items.keys := by
  rw [← h.read_eq, Objects.read, PyDict.keys_mapValues]

/-- A default goes to the preset that is made, as it goes to the items. -/
theorem resolving_setDefault (h : Resolving o₀ o items) {v : Value} (hv : ∀ entries, v ≠ .dict entries) (key : String) :
    Resolving o₀ (setDefault o₀.presets.length o (key, v)) (Registry.setDefaultItem items key v) := by
  rw [setDefault, Registry.setDefaultItem, keys_preset_of_resolving h]
  split_ifs
  · exact h
  · exact h.setItem (.plain v) hv key

/-! ## The registry -/

/-- The address and the preset are registered under one name. -/
structure Refers (t : PresetTable) (address : ℕ) (layer : Layer) : Prop where
  address : (layer.name, address) ∈ t.addresses.items
  registered : t.registry.presets.get layer.name = some layer

/-- The registry has the names of the table. -/
theorem keys_registry (t : PresetTable) : t.registry.presets.keys = t.addresses.keys := by
  rw [PyDict.keys, PyDict.keys, registry, List.map_map]
  conv_rhs => rw [← List.attach_map_subtype_val t.addresses.items, List.map_map]
  rfl

/-- A name without an address has no preset. -/
theorem get_registry_eq_none {name : String} (h : t.addresses.get name = none) :
    t.registry.presets.get name = none := by
  rw [PyDict.get_eq_none_iff, keys_registry, ← PyDict.get_eq_none_iff]
  exact h

/-- The address of a name refers to a preset of that name. -/
theorem refers_of_get {name : String} {address : ℕ} (h : t.addresses.get name = some address) :
    ∃ layer, layer.name = name ∧ t.Refers address layer := by
  have hmem := PyDict.get_eq_some_iff.mp h
  refine ⟨t.layer (name, address) hmem, rfl, hmem, PyDict.get_eq_some_iff.mpr ?_⟩
  exact List.mem_map.mpr ⟨⟨(name, address), hmem⟩, List.mem_attach _ _, rfl⟩

/-- The items of a preset are what its address reads. -/
theorem items_of_refers {address : ℕ} {layer : Layer} (h : t.Refers address layer) :
    layer.items = t.objects.read (t.objects.preset address) := by
  obtain ⟨layer', hname, h'⟩ := refers_of_get (PyDict.get_eq_some_iff.mpr h.address)
  have hlayer : t.registry.presets.get layer.name = some (t.layer (layer.name, address) h.address) := by
    refine PyDict.get_eq_some_iff.mpr (List.mem_map.mpr ⟨⟨(layer.name, address), h.address⟩, List.mem_attach _ _, rfl⟩)
  exact congrArg Layer.items (Option.some.inj (h.registered.symm.trans hlayer))

/-! ## The walk -/

theorem nameOf_of_refers {address : ℕ} {layer : Layer} (h : t.Refers address layer) : t.nameOf address = layer.name := by
  rw [nameOf, t.named _ h.address]
  rfl

theorem asStr_readCell (o : Objects) (cell : Cell) : (o.readCell cell).asStr = cell.asStr := by
  cases cell <;> rfl

/-- The parent is found under one name. -/
theorem refers_of_parent {address : ℕ} {layer : Layer} (h : t.Refers address layer) :
    t.parentAddress address = none ∧ t.registry.parentOf layer = none ∨
      ∃ above parent, t.parentAddress address = some above ∧ t.registry.parentOf layer = some parent ∧
        t.Refers above parent := by
  have hbase : layer.basedOn = (((t.objects.preset address).get "based_on").bind Cell.asStr).filter (· ≠ "") := by
    rw [Layer.basedOn, items_of_refers h, Objects.read, PyDict.get_mapValues, Option.bind_map]
    congr 2
    exact funext (asStr_readCell t.objects)
  rw [parentAddress, Registry.parentOf, ← hbase]
  cases layer.basedOn with
  | none => exact .inl ⟨rfl, rfl⟩
  | some base =>
    rw [Option.bind_some, Option.bind_some]
    cases hget : t.addresses.get base with
    | none => exact .inl ⟨rfl, get_registry_eq_none hget⟩
    | some above =>
      obtain ⟨parent, rfl, hparent⟩ := refers_of_get hget
      exact .inr ⟨above, parent, rfl, hparent.registered, hparent⟩

/-- More fuel changes nothing. -/
theorem walk_mono {fuel fuel' : ℕ} (hle : fuel ≤ fuel') {current : Option ℕ} {seen : List String} {chain : List ℕ}
    {walked : Except PyError (List ℕ)} (h : t.walk fuel current seen chain = some walked) :
    t.walk fuel' current seen chain = some walked := by
  induction fuel generalizing fuel' current seen chain with
  | zero => contradiction
  | succ fuel ih =>
    obtain ⟨fuel', rfl⟩ := Nat.exists_eq_succ_of_ne_zero (Nat.ne_of_gt (Nat.lt_of_lt_of_le fuel.succ_pos hle))
    cases current with
    | none => exact h
    | some current =>
      rw [walk] at h ⊢
      split_ifs at h ⊢
      · exact h
      · exact ih (Nat.le_of_succ_le_succ hle) h

/-- The walk finds the chain, with a round for each name that was not seen and one to stop. -/
theorem walk_eq {fuel : ℕ} {unseen : List String} (seen : List String) (hnodup : unseen.Nodup)
    (hseen : ∀ name ∈ t.addresses.keys, name ∈ unseen ↔ name ∉ seen) (hfuel : unseen.length < fuel) {address : ℕ}
    {layer : Layer} (h : t.Refers address layer) (chain : List ℕ) :
    match t.registry.chain unseen layer with
    | .ok layers => ∃ found, List.Forall₂ t.Refers found layers ∧
        t.walk fuel (some address) seen chain = some (.ok (chain ++ found))
    | .error e => t.walk fuel (some address) seen chain = some (.error e) := by
  induction fuel generalizing unseen seen address layer chain with
  | zero => exact absurd hfuel (Nat.not_lt_zero _)
  | succ fuel ih =>
    have hkey : layer.name ∈ t.addresses.keys := PyDict.mem_keys_of_mem h.address
    rw [walk, nameOf_of_refers h]
    -- a name seen before ends the walk with its error; any other is taken off the unseen ones
    by_cases hmem : layer.name ∈ unseen
    · have hpos := List.length_pos_of_mem hmem
      rw [if_neg ((hseen _ hkey).mp hmem)]
      rcases refers_of_parent h with ⟨haddress, hroot⟩ | ⟨above, parent, haddress, hparent, habove⟩
      · obtain ⟨fuel, rfl⟩ := Nat.exists_eq_succ_of_ne_zero (Nat.ne_of_gt (show 0 < fuel by omega))
        rw [Registry.chain_of_root hmem hroot, haddress]
        exact ⟨[address], .cons h .nil, rfl⟩
      · have hlength := List.length_erase_of_mem hmem
        have hrest := ih (layer.name :: seen) (hnodup.erase layer.name) ?_ (by omega) habove
          (chain ++ [address])
        · rw [Registry.chain_of_parent hmem hparent, haddress]
          cases hchain : t.registry.chain (unseen.erase layer.name) parent with
          | error e =>
            rw [hchain] at hrest
            exact hrest
          | ok layers =>
            rw [hchain] at hrest
            obtain ⟨found, hfound, hwalk⟩ := hrest
            refine ⟨address :: found, .cons h hfound, ?_⟩
            rw [hwalk, List.append_assoc, List.singleton_append]
        · intro name hname
          rw [hnodup.mem_erase_iff, hseen name hname, List.mem_cons, not_or]
    · rw [Registry.chain_of_not_mem hmem, if_pos (not_not.mp fun hnot => hmem ((hseen _ hkey).mpr hnot))]

/-! ## The whole of `resolve` -/

/-- While a preset is made, the objects from before are kept. -/
theorem extends_of_resolving (h : Resolving o₀ o items) : o₀.Extends o := by
  obtain ⟨d, hpresets, -⟩ := h.presets
  exact ⟨hpresets ▸ List.prefix_append _ _, h.dicts⟩

/-- One layer is merged into the preset that is made, as it is merged into the items. -/
theorem resolving_mergePreset (h : Resolving t.objects o items) {address : ℕ} {layer : Layer}
    (hlayer : t.Refers address layer) :
    Resolving t.objects (mergePreset t.objects.presets.length o address) (Registry.mergeLayer items layer) := by
  have hpreset := preset_of_extends (extends_of_resolving h) (t.address _ hlayer.address)
  rw [mergePreset, hpreset, Registry.mergeLayer, items_of_refers hlayer]
  exact resolving_mergeItems h _ (t.valid _ hlayer.address)

/-- All layers are merged, one after another. -/
theorem resolving_mergePresets (h : Resolving t.objects o items) {found : List ℕ} {layers : List Layer}
    (hfound : List.Forall₂ t.Refers found layers) :
    Resolving t.objects (found.foldl (mergePreset t.objects.presets.length) o)
      (layers.foldl Registry.mergeLayer items) := by
  induction hfound generalizing o items with
  | nil => exact h
  | cons hlayer _ ih => exact ih (resolving_mergePreset h hlayer)

theorem resolving_empty (o : Objects) : Resolving o { o with presets := o.presets ++ [.empty] } .empty :=
  ⟨⟨.empty, rfl, rfl, fun _ hentry => absurd hentry List.not_mem_nil⟩, List.prefix_refl _⟩

/-- `resolve` does on the objects what it does on the registry. -/
theorem resolve_eq (t : PresetTable) (name : String) {fuel : ℕ} (hfuel : t.addresses.keys.length < fuel) :
    match t.registry.resolve name with
    | .ok resolved => ∃ o, t.resolve fuel name = some (o, .ok t.objects.presets.length) ∧
        Resolving t.objects o resolved
    | .error e => t.resolve fuel name = some (t.objects, .error e) := by
  rw [resolve, Registry.resolve]
  cases hget : t.addresses.get name with
  | none =>
    rw [get_registry_eq_none hget]
    dsimp only
    rw [Registry.listPresets, keys_registry]
  | some raw =>
    obtain ⟨layer, rfl, hlayer⟩ := refers_of_get hget
    rw [hlayer.registered]
    dsimp only
    have hwalk := walk_eq [] t.registry.presets.nodup_keys (fun key hkey => ?_)
      (keys_registry t ▸ hfuel) hlayer []
    · cases hchain : t.registry.chain t.registry.presets.keys layer with
      | error e =>
        rw [hchain] at hwalk
        dsimp only at hwalk
        rw [hwalk]
        rfl
      | ok layers =>
        rw [hchain] at hwalk
        obtain ⟨found, hfound, hwalk⟩ := hwalk
        rw [hwalk]
        refine ⟨_, rfl, ?_⟩
        -- the layers are merged from the base up, then the four defaults are filled in
        have hmerged := resolving_mergePresets (resolving_empty t.objects) (List.forall₂_reverse_iff.mpr hfound)
        have hname := resolving_setDefault hmerged (v := .str layer.name) (by simp) "name"
        have hbrowser := resolving_setDefault hname (v := .str "chrome") (by simp) "browser"
        have hcustom := resolving_setDefault hbrowser (v := .none) (by simp) "custom_tls_client"
        exact resolving_setDefault hcustom (v := .bool true) (by simp) "with_random_tls_extension_order"
    · rw [keys_registry]
      exact iff_of_true hkey List.not_mem_nil

/-- What `resolve(name)` returns, read off its objects. -/
def resolved (t : PresetTable) (name : String) : Option (PyDict String Value) :=
  match t.resolve (t.addresses.keys.length + 1) name with
  | some (o, .ok address) => some (o.read (o.preset address))
  | _ => none

/-- What a name resolves to is what the registry of the table makes of it. -/
theorem resolved_eq (t : PresetTable) (name : String) : t.resolved name = (t.registry.resolve name).toOption := by
  have h := resolve_eq t name (Nat.lt_succ_self _)
  rw [resolved]
  cases hresolve : t.registry.resolve name with
  | error e =>
    rw [hresolve] at h
    dsimp only at h
    rw [h]
    rfl
  | ok items =>
    rw [hresolve] at h
    obtain ⟨o, heq, hresolving⟩ := h
    rw [heq]
    exact congrArg some hresolving.read_eq

/-- With more fuel the result is the same. -/
theorem resolve_mono {name : String} {fuel fuel' : ℕ} (hle : fuel ≤ fuel') {result : Objects × Except PyError ℕ}
    (h : t.resolve fuel name = some result) : t.resolve fuel' name = some result := by
  rw [resolve] at h ⊢
  cases hget : t.addresses.get name with
  | none =>
    rw [hget] at h
    exact h
  | some raw =>
    rw [hget] at h
    obtain ⟨walked, hwalk, hresult⟩ := Option.map_eq_some_iff.mp h
    exact Option.map_eq_some_iff.mpr ⟨walked, walk_mono hle hwalk, hresult⟩

/-- `resolve` ends, and leaves all objects as they are. It raises for unknown names and for chains that come back to a
preset, and returns the preset's own items over what it returns for the parent otherwise. -/
theorem resolve_preset (t : PresetTable) (name : String) :
    ∃ o result, (∀ fuel, t.addresses.keys.length < fuel → t.resolve fuel name = some (o, result)) ∧
      t.objects.Extends o ∧
      ((∃ e, result = .error e) ↔ t.registry.presets.get name = none ∨
        ∃ layer, t.registry.presets.get name = some layer ∧ t.registry.Revisits layer) ∧
      ∀ address, result = .ok address → ∃ layer base, t.registry.presets.get name = some layer ∧
        Registry.Inherits layer base (o.read (o.preset address)) ∧
        match t.registry.parentOf layer with
        | none => base = .empty
        | some parent => t.resolved parent.name = some base := by
  have hresolve := resolve_eq t name (Nat.lt_succ_self _)
  have herror := @Registry.resolve_error_iff t.registry name
  cases hregistry : t.registry.resolve name with
  | error e =>
    rw [hregistry] at hresolve herror
    refine ⟨t.objects, .error e, fun fuel hfuel => resolve_mono hfuel hresolve,
      ⟨List.prefix_refl _, List.prefix_refl _⟩, ?_, nofun⟩
    rw [← herror]
    exact iff_of_true ⟨e, rfl⟩ ⟨e, rfl⟩
  | ok items =>
    rw [hregistry] at hresolve herror
    obtain ⟨o, hresolve, hresolving⟩ := hresolve
    refine ⟨o, .ok t.objects.presets.length, fun fuel hfuel => resolve_mono hfuel hresolve,
      extends_of_resolving hresolving, ?_, fun address haddress => ?_⟩
    · rw [← herror]
      exact iff_of_false nofun nofun
    · obtain rfl := Except.ok.inj haddress
      have hnot := mt herror.mpr nofun
      cases hlayer : t.registry.presets.get name with
      | none => exact absurd (.inl hlayer) hnot
      | some layer =>
        obtain ⟨base, items', hitems, hinherits, hbase⟩ :=
          Registry.resolve_inherits hlayer fun hrevisits => hnot (.inr ⟨layer, hlayer, hrevisits⟩)
        obtain rfl := Except.ok.inj (hregistry.symm.trans hitems)
        refine ⟨layer, base, rfl, hresolving.read_eq ▸ hinherits, ?_⟩
        -- what is above the layer is its parent's own resolution
        cases hparent : t.registry.parentOf layer with
        | none =>
          rw [hparent] at hbase
          exact hbase
        | some parent =>
          rw [hparent] at hbase
          dsimp only at hbase ⊢
          rw [resolved_eq, hbase]
          rfl

/-- A preset with a header, and one that is based on it and has another. -/
def inheriting : PresetTable where
  objects :=
    { presets :=
        [(PyDict.empty.set "name" (.plain (.str "base"))).set "default_headers" (.dict 0),
          ((PyDict.empty.set "name" (.plain (.str "child"))).set "based_on" (.plain (.str "base"))).set
            "default_headers" (.dict 1)]
      dicts := [PyDict.empty.set "Accept" (.str "*/*"), PyDict.empty.set "Accept-Language" (.str "de-DE")] }
  addresses := (PyDict.empty.set "base" 0).set "child" 1
  address := by decide
  named := by
    rintro item (_ | ⟨_, _ | ⟨_, ⟨⟩⟩⟩) <;> rfl
  basedOn := by
    rintro item (_ | ⟨_, _ | ⟨_, ⟨⟩⟩⟩) cell hcell
    · contradiction
    · exact .inr ⟨"base", (Option.some.inj hcell).symm⟩
  valid := by
    rintro item (_ | ⟨_, _ | ⟨_, ⟨⟩⟩⟩) entry hentry
    · rcases hentry with _ | ⟨_, _ | ⟨_, ⟨⟩⟩⟩
      · exact nofun
      · exact Nat.zero_lt_two
    · rcases hentry with _ | ⟨_, _ | ⟨_, _ | ⟨_, ⟨⟩⟩⟩⟩
      · exact nofun
      · exact nofun
      · exact Nat.one_lt_two

example : (inheriting.resolved "child").bind (·.get "default_headers") =
    some (.dict [("Accept", .str "*/*"), ("Accept-Language", .str "de-DE")]) := by rfl

end PresetTable

end TlsClient.Python
