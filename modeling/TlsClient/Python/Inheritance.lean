import TlsClient.Python.Presets

/-!
# Inheritance of presets

`resolve` of `src/tls_client/fingerprints/registry.py` as inheritance: a preset resolves to its own items over what
its parent resolves to (`resolve_inherits`), and `resolve` raises exactly for unknown names and for presets that come
to themselves on the way up (`resolve_error_iff`). The code collects the chain first and merges it from its end; that
this is the same rests on `chain_mono`: the chain of a parent does not depend on what was seen before.
-/

namespace TlsClient.Python

namespace Registry

variable {r : Registry} {name : String} {layer parent : Layer} {layers : List Layer} {unseen : List String}

/-! ## Ancestors -/

/-- The preset that this one is based on, if it is registered. -/
def parentOf (r : Registry) (layer : Layer) : Option Layer :=
  layer.basedOn.bind r.presets.get

/-- The preset that one comes to after so many steps up. -/
def ancestor (r : Registry) (layer : Layer) : ℕ → Option Layer
  | 0 => some layer
  | n + 1 => (r.parentOf layer).bind fun parent => r.ancestor parent n

/-- The way up comes twice to presets of one name. -/
def Revisits (r : Registry) (layer : Layer) : Prop :=
  ∃ i j a b, i < j ∧ r.ancestor layer i = some a ∧ r.ancestor layer j = some b ∧ a.name = b.name

/-- The ancestors of a preset are those of its parent, one further. -/
theorem ancestor_succ_of_parent (h : r.parentOf layer = some parent) (n : ℕ) :
    r.ancestor layer (n + 1) = r.ancestor parent n := by
  rw [ancestor, h, Option.bind_some]

theorem ancestor_succ_of_root (h : r.parentOf layer = none) (n : ℕ) : r.ancestor layer (n + 1) = none := by
  rw [ancestor, h, Option.bind_none]

/-- What the parent comes back to, the preset does. -/
theorem revisits_of_parent (h : r.parentOf layer = some parent) (hparent : r.Revisits parent) : r.Revisits layer := by
  obtain ⟨i, j, a, b, hij, hi, hj, hname⟩ := hparent
  rw [← ancestor_succ_of_parent h] at hi hj
  exact ⟨i + 1, j + 1, a, b, Nat.succ_lt_succ hij, hi, hj, hname⟩

theorem get_name (h : r.presets.get name = some layer) : layer.name = name :=
  r.named _ (PyDict.get_eq_some_iff.mp h)

/-- Every preset on the way up is registered under its name. -/
theorem registered_of_parent (h : r.parentOf layer = some parent) : r.presets.get parent.name = some parent := by
  obtain ⟨base, -, hbase⟩ := Option.bind_eq_some_iff.mp h
  rw [get_name hbase]
  exact hbase

/-- An ancestor is found under its name. -/
theorem registered_of_ancestor (h : r.presets.get layer.name = some layer) {n : ℕ} {a : Layer}
    (ha : r.ancestor layer n = some a) : r.presets.get a.name = some a := by
  induction n generalizing layer with
  | zero =>
    obtain rfl := Option.some.inj ha
    exact h
  | succ n ih =>
    obtain ⟨parent, hparent, ha⟩ := Option.bind_eq_some_iff.mp ha
    exact ih (registered_of_parent hparent) ha

/-! ## The chain -/

/-- The chain of a preset without a parent. -/
theorem chain_of_root (hmem : layer.name ∈ unseen) (h : r.parentOf layer = none) :
    r.chain unseen layer = .ok [layer] := by
  rw [parentOf] at h
  rw [chain, if_pos hmem, h]

/-- The chain of a preset with a parent. -/
theorem chain_of_parent (hmem : layer.name ∈ unseen) (h : r.parentOf layer = some parent) :
    r.chain unseen layer = (r.chain (unseen.erase layer.name) parent).map (layer :: ·) := by
  rw [parentOf] at h
  rw [chain, if_pos hmem, h]
  dsimp only
  cases r.chain (unseen.erase layer.name) parent <;> rfl

/-- A preset that was seen before ends the chain with an error. -/
theorem chain_of_not_mem (h : layer.name ∉ unseen) :
    r.chain unseen layer = .error (.valueError "based_on cycle at %r" [layer.name]) := by
  rw [chain, if_neg h]

/-- What a chain is made of, step by step. -/
theorem chain_eq_ok (h : r.chain unseen layer = .ok layers) :
    layer.name ∈ unseen ∧
      (r.parentOf layer = none ∧ layers = [layer] ∨
        ∃ parent rest, r.parentOf layer = some parent ∧ r.chain (unseen.erase layer.name) parent = .ok rest ∧
          layers = layer :: rest) := by
  by_cases hmem : layer.name ∈ unseen
  · refine ⟨hmem, ?_⟩
    cases hparent : r.parentOf layer with
    | none =>
      rw [chain_of_root hmem hparent] at h
      exact .inl ⟨rfl, (Except.ok.inj h).symm⟩
    | some parent =>
      rw [chain_of_parent hmem hparent] at h
      cases hrest : r.chain (unseen.erase layer.name) parent with
      | error e =>
        rw [hrest] at h
        contradiction
      | ok rest =>
        rw [hrest] at h
        exact .inr ⟨parent, rest, rfl, hrest, (Except.ok.inj h).symm⟩
  · rw [chain_of_not_mem hmem] at h
    contradiction

/-- A chain that is found is found with more names unseen. -/
theorem chain_mono (hnodup : unseen.Nodup) {unseen' : List String} (hnodup' : unseen'.Nodup)
    (hsub : unseen ⊆ unseen') (h : r.chain unseen layer = .ok layers) : r.chain unseen' layer = .ok layers := by
  induction layers generalizing unseen unseen' layer with
  | nil => obtain ⟨-, ⟨-, heq⟩ | ⟨_, _, -, -, heq⟩⟩ := chain_eq_ok h <;> contradiction
  | cons first layers ih =>
    obtain ⟨hmem, ⟨hroot, heq⟩ | ⟨parent, rest, hparent, hrest, heq⟩⟩ := chain_eq_ok h
    · rw [chain_of_root (hsub hmem) hroot, heq]
    · obtain ⟨rfl, rfl⟩ := List.cons.inj heq
      have herase : unseen.erase first.name ⊆ unseen'.erase first.name := fun x hx =>
        (hnodup'.mem_erase_iff).mpr ⟨(hnodup.mem_erase_iff.mp hx).1, hsub (hnodup.mem_erase_iff.mp hx).2⟩
      rw [chain_of_parent (hsub hmem) hparent, ih (hnodup.erase _) (hnodup'.erase _) herase hrest]
      rfl

/-- The layers are the ancestors, which have names of their own. -/
theorem chain_layers (hnodup : unseen.Nodup) (h : r.chain unseen layer = .ok layers) :
    (∀ n, layers[n]? = r.ancestor layer n) ∧ (layers.map Layer.name).Nodup ∧ ∀ a ∈ layers, a.name ∈ unseen := by
  induction layers generalizing unseen layer with
  | nil => obtain ⟨-, ⟨-, heq⟩ | ⟨_, _, -, -, heq⟩⟩ := chain_eq_ok h <;> contradiction
  | cons first layers ih =>
    obtain ⟨hmem, ⟨hroot, heq⟩ | ⟨parent, rest, hparent, hrest, heq⟩⟩ := chain_eq_ok h
    · obtain ⟨rfl, rfl⟩ := List.cons.inj heq
      refine ⟨fun n => ?_, List.nodup_singleton _, fun a ha => ?_⟩
      · cases n with
        | zero => rfl
        | succ n => rw [ancestor_succ_of_root hroot, List.getElem?_cons_succ, List.getElem?_nil]
      · rw [List.mem_singleton.mp ha]
        exact hmem
    · obtain ⟨rfl, rfl⟩ := List.cons.inj heq
      obtain ⟨hget, hnames, hunseen⟩ := ih (hnodup.erase _) hrest
      refine ⟨fun n => ?_, List.nodup_cons.mpr ⟨fun hin => ?_, hnames⟩, fun a ha => ?_⟩
      · cases n with
        | zero => rfl
        | succ n => rw [ancestor_succ_of_parent hparent, List.getElem?_cons_succ, hget]
      · obtain ⟨a, ha, hname⟩ := List.mem_map.mp hin
        exact (hnodup.mem_erase_iff.mp (hunseen a ha)).1 hname
      · rcases List.mem_cons.mp ha with rfl | ha
        · exact hmem
        · exact List.mem_of_mem_erase (hunseen a ha)

/-- A chain that ends comes back to nothing. -/
theorem not_revisits_of_chain (hnodup : unseen.Nodup) (h : r.chain unseen layer = .ok layers) : ¬r.Revisits layer := by
  obtain ⟨hget, hnames, -⟩ := chain_layers hnodup h
  rintro ⟨i, j, a, b, hij, hi, hj, hname⟩
  rw [← hget] at hi hj
  have hi' : (layers.map Layer.name)[i]? = some a.name := by rw [List.getElem?_map, hi, Option.map_some]
  have hj' : (layers.map Layer.name)[j]? = some a.name := by rw [List.getElem?_map, hj, Option.map_some, hname]
  have hlt : i < (layers.map Layer.name).length := (List.getElem?_eq_some_iff.mp hi').1
  exact Nat.ne_of_lt hij ((List.getElem?_inj hlt hnames).mp (hi'.trans hj'.symm))

/-- A walk that stops has come to a name that was seen before, on the way or earlier. -/
theorem exists_seen_of_chain_error (hnodup : unseen.Nodup) {e : PyError} (h : r.chain unseen layer = .error e) :
    (∃ n a, r.ancestor layer n = some a ∧ a.name ∉ unseen) ∨ r.Revisits layer := by
  induction hlength : unseen.length generalizing unseen layer with
  | zero =>
    obtain rfl := List.eq_nil_of_length_eq_zero hlength
    exact .inl ⟨0, layer, rfl, List.not_mem_nil⟩
  | succ length ih =>
    by_cases hmem : layer.name ∈ unseen
    · cases hparent : r.parentOf layer with
      | none =>
        rw [chain_of_root hmem hparent] at h
        contradiction
      | some parent =>
        rw [chain_of_parent hmem hparent] at h
        have hrest : r.chain (unseen.erase layer.name) parent = .error e := by
          cases hrest : r.chain (unseen.erase layer.name) parent with
          | error e' =>
            rw [hrest] at h
            exact h
          | ok rest =>
            rw [hrest] at h
            contradiction
        have hshorter : (unseen.erase layer.name).length = length := by
          rw [List.length_erase_of_mem hmem, hlength, Nat.add_sub_cancel]
        rcases ih (hnodup.erase _) hrest hshorter with ⟨n, a, ha, hname⟩ | hrevisits
        · rw [← ancestor_succ_of_parent hparent] at ha
          by_cases heq : a.name = layer.name
          · -- back at the preset that the walk began with
            exact .inr ⟨0, n + 1, layer, a, Nat.succ_pos n, rfl, ha, heq.symm⟩
          · exact .inl ⟨n + 1, a, ha, fun hin => hname (hnodup.mem_erase_iff.mpr ⟨heq, hin⟩)⟩
        · exact .inr (revisits_of_parent hparent hrevisits)
    · exact .inl ⟨0, layer, rfl, hmem⟩

/-- From a registered preset the chain is found unless the way up comes back. -/
theorem chain_ok_iff (h : r.presets.get layer.name = some layer) :
    (∃ layers, r.chain r.presets.keys layer = .ok layers) ↔ ¬r.Revisits layer := by
  constructor
  · rintro ⟨layers, hlayers⟩
    exact not_revisits_of_chain r.presets.nodup_keys hlayers
  · intro hnot
    cases hchain : r.chain r.presets.keys layer with
    | ok layers => exact ⟨layers, rfl⟩
    | error e =>
      rcases exists_seen_of_chain_error r.presets.nodup_keys hchain with ⟨n, a, ha, hname⟩ | hrevisits
      · have hmem := PyDict.mem_keys_of_mem (PyDict.get_eq_some_iff.mp (registered_of_ancestor h ha))
        exact absurd hmem hname
      · exact absurd hrevisits hnot

/-- `resolve` raises for names that are not registered and for presets that come back to themselves. -/
theorem resolve_error_iff : (∃ e, r.resolve name = .error e) ↔
    r.presets.get name = none ∨ ∃ layer, r.presets.get name = some layer ∧ r.Revisits layer := by
  rw [resolve]
  cases hget : r.presets.get name with
  | none => exact iff_of_true ⟨_, rfl⟩ (.inl rfl)
  | some layer =>
    have hregistered : r.presets.get layer.name = some layer := (get_name hget).symm ▸ hget
    have hok := chain_ok_iff hregistered
    simp only [Option.some.injEq, reduceCtorEq, false_or, exists_eq_left']
    rw [← not_iff_not, ← hok]
    cases r.chain r.presets.keys layer with
    | ok layers => simp [Except.map]
    | error e => simp [Except.map]

/-! ## One level of inheritance -/

/-- A value over the one that it inherits: two dicts are merged key by key, everything else replaces, and a key that
is not given is inherited. -/
def Merged (inherited own result : Option Value) : Prop :=
  match inherited, own with
  | _, none => result = inherited
  | some (.dict base), some (.dict items) => ∃ merged, result = some (.dict merged) ∧
      ∀ k, KeyedList.get Prod.fst k merged = (KeyedList.last Prod.fst k items).or (KeyedList.get Prod.fst k base)
  | _, some v => result = some v

/-- What the preset has under a key, other than the name of its parent. -/
def ownItem (layer : Layer) (key : String) : Option Value :=
  if key = "based_on" then none else layer.items.get key

/-- What is filled in last. -/
def defaultItems (name : String) : List (String × Value) :=
  [("name", .str name), ("browser", .str "chrome"), ("custom_tls_client", .none),
    ("with_random_tls_extension_order", .bool true)]

/-- The preset's own items over inherited ones, with the defaults where there is neither. -/
def Inherits (layer : Layer) (base resolved : PyDict String Value) : Prop :=
  ∀ key, ∃ merged, Merged (base.get key) (ownItem layer key) merged ∧
    resolved.get key = merged.or ((defaultItems layer.name).lookup key)

/-- What is found after a key was set. -/
theorem get_setItems {k k' : String} {v : Value} {items : List (String × Value)} :
    KeyedList.get Prod.fst k' (PyDict.setItems k v items) =
      if k = k' then some (k, v) else KeyedList.get Prod.fst k' items := by
  induction items with
  | nil => rw [PyDict.setItems, KeyedList.get_cons]
  | cons item items ih =>
    rw [PyDict.setItems, KeyedList.get_cons]
    by_cases hitem : item.1 = k
    · rw [if_pos hitem, KeyedList.get_cons, hitem]
      split_ifs <;> rfl
    · rw [if_neg hitem, KeyedList.get_cons, ih]
      by_cases hk : k = k'
      · rw [if_pos hk, if_neg (hk ▸ hitem), if_pos hk]
      · rw [if_neg hk, if_neg hk]

/-- What is found after several keys were set. -/
theorem get_foldl_setItems (k : String) (base items : List (String × Value)) :
    KeyedList.get Prod.fst k (items.foldl (fun base item => PyDict.setItems item.1 item.2 base) base) =
      (KeyedList.last Prod.fst k items).or (KeyedList.get Prod.fst k base) := by
  induction items generalizing base with
  | nil => rfl
  | cons item items ih =>
    rw [List.foldl_cons, ih, KeyedList.last_cons, Option.or_assoc, get_setItems]
    split_ifs <;> rfl

/-- A value over an inherited one is merged with it. -/
theorem merged_mergeValue (inherited : Option Value) (v : Value) :
    Merged inherited (some v) (some (mergeValue inherited v)) := by
  unfold Merged
  split
  · contradiction
  · rename_i base items hown
    obtain rfl := Option.some.inj hown
    exact ⟨_, rfl, fun k => get_foldl_setItems k base items⟩
  · rename_i w hnot hown
    obtain rfl := Option.some.inj hown
    rw [mergeValue]
    intro base items hbase hitems
    exact hnot base items hbase hitems

/-- What a layer leaves under a key. -/
theorem get_mergeLayer (resolved : PyDict String Value) (layer : Layer) (key : String) :
    (mergeLayer resolved layer).get key =
      ((ownItem layer key).map (mergeValue (resolved.get key))).or (resolved.get key) := by
  -- over distinct keys the fold writes each of them once
  have hfold : ∀ (items : List (String × Value)) (resolved : PyDict String Value), (items.map Prod.fst).Nodup →
      (items.foldl (fun resolved item => resolved.set item.1 (mergeValue (resolved.get item.1) item.2)) resolved).get key =
        ((KeyedList.get Prod.fst key items).map fun item => mergeValue (resolved.get key) item.2).or
          (resolved.get key) := by
    intro items
    induction items with
    | nil => exact fun _ _ => rfl
    | cons item items ih =>
      intro resolved hnodup
      obtain ⟨hnot, hnodup⟩ := List.nodup_cons.mp hnodup
      rw [List.foldl_cons, ih _ hnodup, PyDict.get_set, KeyedList.get_cons]
      by_cases hkey : key = item.1
      · have hnone : KeyedList.get Prod.fst key items = none := by
          refine KeyedList.get_eq_none_iff.mpr fun other hother heq => hnot ?_
          rw [← hkey, ← heq]
          exact List.mem_map_of_mem hother
        rw [if_pos hkey, hnone, if_pos hkey.symm, hkey]
        rfl
      · rw [if_neg hkey, if_neg (Ne.symm hkey)]
  have hnodup : ((layer.items.items.filter fun item => item.1 ≠ "based_on").map Prod.fst).Nodup :=
    layer.items.nodup.sublist (List.filter_sublist.map _)
  -- `based_on` is the one key a layer does not hand on
  have hown : (KeyedList.get Prod.fst key (layer.items.items.filter fun item => item.1 ≠ "based_on")).map Prod.snd =
      ownItem layer key := by
    rw [ownItem, KeyedList.get, List.find?_filter]
    split_ifs with hkey
    · rw [List.find?_eq_none.mpr, Option.map_none]
      intro item _
      simp [hkey]
    · rw [PyDict.get]
      congr 2
      funext item
      by_cases hitem : item.1 = key
      · simp [hitem, hkey]
      · simp [hitem]
  rw [mergeLayer, hfold _ _ hnodup, ← hown, Option.map_map]
  rfl

/-- What is found after a default was set. -/
theorem get_setDefaultItem (d : PyDict String Value) (k : String) (v : Value) (key : String) :
    (setDefaultItem d k v).get key = (d.get key).or (if key = k then some v else none) := by
  rw [setDefaultItem]
  by_cases hmem : k ∈ d.keys
  · rw [if_pos hmem]
    split_ifs with hkey
    · obtain ⟨w, hw⟩ := Option.ne_none_iff_exists'.mp fun hnone => PyDict.get_eq_none_iff.mp hnone (hkey ▸ hmem)
      rw [hw, Option.some_or]
    · rw [Option.or_none]
  · rw [if_neg hmem, PyDict.get_set]
    split_ifs with hkey
    · rw [hkey, PyDict.get_eq_none_iff.mpr hmem, Option.none_or]
    · rw [Option.or_none]

/-- What a resolved preset has under a key. -/
theorem get_flatten (name : String) (layers : List Layer) (key : String) :
    (flatten name layers).get key =
      ((layers.reverse.foldl mergeLayer .empty).get key).or ((defaultItems name).lookup key) := by
  have hlookup : ∀ (k : String) (v : Value) (rest : List (String × Value)),
      ((k, v) :: rest).lookup key = (if key = k then some v else none).or (rest.lookup key) := by
    intro k v rest
    rw [List.lookup_cons]
    split_ifs with hkey
    · rw [hkey, beq_self_eq_true]
      rfl
    · rw [beq_eq_false_iff_ne.mpr hkey]
      rfl
  rw [flatten, get_setDefaultItem, get_setDefaultItem, get_setDefaultItem, get_setDefaultItem, defaultItems, hlookup,
    hlookup, hlookup, hlookup, List.lookup_nil, Option.or_none, Option.or_assoc, Option.or_assoc, Option.or_assoc]

/-- A default is replaced by whatever a preset has for its key. -/
theorem mergeValue_default {key : String} {d : Value} (h : (defaultItems name).lookup key = some d) (v : Value) :
    mergeValue (some d) v = v := by
  obtain ⟨before, after, hitems, -⟩ := List.lookup_eq_some_iff.mp h
  have hmem : (key, d) ∈ defaultItems name := by
    rw [hitems]
    exact List.mem_append_right _ List.mem_cons_self
  simp only [defaultItems, List.mem_cons, Prod.mk.injEq, List.not_mem_nil, or_false] at hmem
  rcases hmem with ⟨-, rfl⟩ | ⟨-, rfl⟩ | ⟨-, rfl⟩ | ⟨-, rfl⟩ <;> rfl

/-- The defaults depend on the name only in the key of the name. -/
theorem lookup_defaultItems_congr {key : String} (hkey : key ≠ "name") (a b : String) :
    (defaultItems a).lookup key = (defaultItems b).lookup key := by
  simp only [defaultItems, List.lookup_cons, beq_eq_false_iff_ne.mpr hkey]

theorem ownItem_name (layer : Layer) : ownItem layer "name" = some (.str layer.name) := by
  rw [ownItem, if_neg (by decide), layer.name_eq]

/-- The layers from the root down, one over the other. -/
theorem get_flatten_cons (name : String) (layer : Layer) (rest : List Layer) (key : String) :
    (flatten name (layer :: rest)).get key =
      (((ownItem layer key).map (mergeValue ((rest.reverse.foldl mergeLayer .empty).get key))).or
        ((rest.reverse.foldl mergeLayer .empty).get key)).or ((defaultItems name).lookup key) := by
  rw [get_flatten, List.reverse_cons, List.foldl_append, List.foldl_cons, List.foldl_nil, get_mergeLayer]

/-- The layers of the chain inherit from what the rest of the chain makes. -/
theorem inherits_flatten (layer parent : Layer) (rest : List Layer) :
    Inherits layer (flatten parent.name rest) (flatten layer.name (layer :: rest)) := by
  intro key
  rw [get_flatten_cons, get_flatten]
  generalize (rest.reverse.foldl mergeLayer .empty).get key = inherited
  cases hown : ownItem layer key with
  | some v =>
    refine ⟨_, merged_mergeValue _ v, ?_⟩
    -- a default of the parent makes no difference
    have hvalue : mergeValue inherited v = mergeValue (inherited.or ((defaultItems parent.name).lookup key)) v := by
      cases inherited with
      | some w => rfl
      | none =>
        rw [Option.none_or]
        cases hdefault : (defaultItems parent.name).lookup key with
        | none => rfl
        | some d =>
          rw [mergeValue_default hdefault]
          cases v <;> rfl
    rw [Option.map_some, Option.some_or, Option.some_or, hvalue, Option.some_or]
  | none =>
    refine ⟨_, rfl, ?_⟩
    have hkey : key ≠ "name" := by
      rintro rfl
      rw [ownItem_name] at hown
      contradiction
    rw [Option.map_none, Option.none_or, lookup_defaultItems_congr hkey parent.name layer.name, Option.or_assoc,
      Option.or_self]

/-- A preset without a parent inherits from nothing but the defaults. -/
theorem inherits_root (layer : Layer) : Inherits layer .empty (flatten layer.name [layer]) := by
  intro key
  rw [get_flatten_cons, List.reverse_nil, List.foldl_nil, PyDict.get_empty, Option.or_none]
  cases ownItem layer key with
  | some v => exact ⟨_, merged_mergeValue none v, rfl⟩
  | none => exact ⟨_, rfl, rfl⟩

/-- A registered preset whose chain does not come back resolves to its own items over what its parent resolves to. -/
theorem resolve_inherits (hlayer : r.presets.get name = some layer) (hnot : ¬r.Revisits layer) :
    ∃ base resolved, r.resolve name = .ok resolved ∧ Inherits layer base resolved ∧
      match r.parentOf layer with
      | none => base = .empty
      | some parent => r.resolve parent.name = .ok base := by
  obtain rfl := get_name hlayer
  obtain ⟨layers, hchain⟩ := (chain_ok_iff hlayer).mpr hnot
  have hresolve : ∀ {layer : Layer} {layers : List Layer}, r.presets.get layer.name = some layer →
      r.chain r.presets.keys layer = .ok layers → r.resolve layer.name = .ok (flatten layer.name layers) := by
    intro layer layers hget hchain
    rw [resolve, hget]
    dsimp only
    rw [hchain]
    rfl
  obtain ⟨-, ⟨hroot, rfl⟩ | ⟨parent, rest, hparent, hrest, rfl⟩⟩ := chain_eq_ok hchain
  · refine ⟨_, _, hresolve hlayer hchain, inherits_root layer, ?_⟩
    rw [hroot]
  · refine ⟨_, _, hresolve hlayer hchain, inherits_flatten layer parent rest, ?_⟩
    rw [hparent]
    have hnodup := r.presets.nodup_keys
    exact hresolve (registered_of_parent hparent)
      (chain_mono (hnodup.erase _) hnodup List.erase_subset hrest)

end Registry

end TlsClient.Python
