import TlsClient.Python.NextRequest
import TlsClient.Python.Snapshot

/-!
# What a preset reaches

After `apply` the next request should resolve each option of the preset to the preset's value, and find its two
header templates. `Complete` says so for one session and one resolved preset, on each kind of session.

`apply` writes the keys of its own list, and five settings by their properties where the value is true. The
switch for a random extension order goes to an attribute that is no property, the other options of a preset go
nowhere, and the templates stay on the object that `apply` was given, which a request does not ask unless it is
the `Session` itself. `Covers` says when all of this makes no difference.
-/

namespace TlsClient.Python

/-! ## Completeness -/

/-- What a preset may say about a request. -/
def optionKeys : List String :=
  syncRequestDefaultKeys ++ templateKeys.map Prod.fst

/-- The next request reads every option of the preset as the preset has it. -/
def Complete (lib : Library) (o : SessionObject) (settings : CompatSettings)
    (resolved : PyDict String Value) : Prop :=
  ∀ item ∈ resolved.items, item.1 ∈ optionKeys →
    readAs item.1 (o.nextRead lib settings item.1) = readAs item.1 item.2

namespace SessionObject

/-- The next request after `apply` takes a new snapshot: there was none, or a default is written by a setter. -/
def Fresh (o : SessionObject) (resolved : PyDict String Value) : Prop :=
  o.native.cached o.path = none ∨ SetsProperty resolved ∨
    o.kind ≠ .asyncSession ∧ (fingerprintWrites resolved o.exposedKeys).items ≠ []

/-- The default that the session has for a key that `apply` does not write; the headers follow the identifier of
the preset. -/
def ownDefault (lib : Library) (o : SessionObject) (resolved : PyDict String Value) (key : String) : Value :=
  match truthyItem resolved "client_identifier" with
  | some identifier =>
    if key = "default_headers" ∧ o.native.Switches identifier then lib.tableHeaders identifier
    else (o.native.defaults.get key).getD .none
  | none => (o.native.defaults.get key).getD .none

/-- The key is in the list of `apply`, or it is true and a property, or the session has the value as it is. -/
def Lands (lib : Library) (o : SessionObject) (resolved : PyDict String Value) (key : String) (value : Value) :
    Prop :=
  if key ∈ fpKeys ∧ key ∈ o.exposedKeys then True
  else match (propertyKeys.lookup key).filter fun _ => value.truthy with
    | some copy => ∃ copied, copy value = .ok copied ∧ readAs key copied = readAs key value
    | none => readAs key (o.ownDefault lib resolved key) = readAs key value

/-- The option gets through: a template, on the session itself; an option that the library drops, if its value is
the neutral one; an option that every request passes, if it has this value; any other, if it lands in the
defaults and a new snapshot is taken, or was read as this before. -/
def Takes (lib : Library) (o : SessionObject) (settings : CompatSettings) (resolved : PyDict String Value)
    (key : String) (value : Value) : Prop :=
  match templateKeys.lookup key with
  | some _ => o.kind = .session ∨ readAs key (o.nextRead lib settings key) = readAs key value
  | none =>
    match (abi3RequestFields.lookup key).filter fun _ => lib.abiVersion < 3 with
    | some sentinel => sentinel = readAs key value
    | none =>
      match o.passed settings key with
      | some v => readAs key v = readAs key value
      | none => (o.Fresh resolved → o.Lands lib resolved key value) ∧
          (¬o.Fresh resolved → readAs key (o.nextOption lib settings key) = readAs key value)

/-- Every option of the preset gets through. -/
def Covers (lib : Library) (o : SessionObject) (settings : CompatSettings)
    (resolved : PyDict String Value) : Prop :=
  ∀ item ∈ resolved.items, item.1 ∈ optionKeys → o.Takes lib settings resolved item.1 item.2

end SessionObject

/-! ## What the properties leave in the defaults -/

/-- An assignment to the one may change the default under the other. -/
def Touches (name key : String) : Prop :=
  name ∈ propertyKeys.map Prod.fst ∧ name = key ∨ name = "client_identifier" ∧ key = "default_headers"

instance instDecidableTouches (name key : String) : Decidable (Touches name key) :=
  inferInstanceAs (Decidable (_ ∨ _))

/-- The attributes that `apply` may assign, in its order. -/
def assignedNames : List String :=
  "with_random_tls_extension_order" :: propertyKeys.map Prod.fst

/-- The settings whose property only writes the default of their name. -/
def plainNames : List String :=
  ["pseudo_header_order", "h3_pseudo_header_order", "default_headers", "custom_tls_client"]

namespace NativeSession

variable {lib : Library} {s s' : NativeSession} {name key : String} {value : Value}

/-- A plain property writes its own key. -/
theorem defaults_of_setAttr_plain (hname : name ∈ plainNames) (h : s.setAttr lib name value = .ok s') :
    s'.defaults = s.defaults.set name value := by
  simp only [plainNames, List.mem_cons, List.not_mem_nil, or_false] at hname
  rcases hname with rfl | rfl | rfl | rfl <;> exact congrArg defaults (Except.ok.inj h).symm

/-- What the setter of `client_identifier` changes: its key, and the headers where it switches them. -/
theorem get_of_setClientIdentifier (h : s.setAttr lib "client_identifier" value = .ok s') (key : String) :
    s'.defaults.get key =
      if key = "default_headers" ∧ s.Switches value then some (lib.tableHeaders value)
      else if key = "client_identifier" then some value else s.defaults.get key := by
  replace h : s.setClientIdentifier lib value = .ok s' := h
  unfold setClientIdentifier at h
  dsimp only at h
  split_ifs at h with _ hswitch
  · rw [← Except.ok.inj h]
    by_cases hkey : key = "default_headers"
    · rw [if_pos ⟨hkey, hswitch⟩, hkey, PyDict.get_set_self]
    · rw [if_neg fun hand => hkey hand.1, PyDict.get_set_of_ne _ _ hkey]
      exact PyDict.get_set _ _ _ _
  · rw [← Except.ok.inj h, if_neg fun hand => hswitch hand.2]
    exact PyDict.get_set _ _ _ _

/-- A key that an assignment does not touch keeps its value. -/
theorem get_of_setAttr_of_not_touches (hname : name ∈ assignedNames) (h : s.setAttr lib name value = .ok s')
    (hnot : ¬Touches name key) : s'.defaults.get key = s.defaults.get key := by
  obtain ⟨hsame, hheaders⟩ := not_or.mp hnot
  rcases List.mem_cons.mp hname with rfl | hproperty
  · rw [(setAttr_untouched h (by decide) (by decide)).defaults]
  · have hne : name ≠ key := fun heq => hsame ⟨hproperty, heq⟩
    rcases List.mem_cons.mp hproperty with rfl | hplain
    · rw [get_of_setClientIdentifier h, if_neg fun hand => hheaders ⟨rfl, hand.1⟩, if_neg (Ne.symm hne)]
    · rw [defaults_of_setAttr_plain hplain h, PyDict.get_set_of_ne _ _ (Ne.symm hne)]

/-- A property has the value that was assigned. -/
theorem get_of_setAttr_self (hname : name ∈ propertyKeys.map Prod.fst) (h : s.setAttr lib name value = .ok s') :
    s'.defaults.get name = some value := by
  rcases List.mem_cons.mp hname with rfl | hplain
  · rw [get_of_setClientIdentifier h, if_neg fun hand => absurd hand.1 (by decide), if_pos rfl]
  · rw [defaults_of_setAttr_plain hplain h, PyDict.get_set_self]

end NativeSession

section Names

variable {resolved : PyDict String Value}

/-- The properties are assigned in the order of the list, each at most once. -/
theorem names_sublist (resolved : PyDict String Value) :
    ((propertyWrites resolved).map Prod.fst).Sublist assignedNames := by
  have hrandom : ((randomOrderWrites resolved).map Prod.fst).Sublist ["with_random_tls_extension_order"] := by
    unfold randomOrderWrites
    split
    · exact List.nil_sublist _
    · exact List.Sublist.refl _
  have hproperty : ((propertyKeys.filterMap fun key =>
      (truthyItem resolved key.1).map fun v => (key.1, key.2 v)).map Prod.fst).Sublist
        (propertyKeys.map Prod.fst) := by
    generalize propertyKeys = keys
    induction keys with
    | nil => exact List.Sublist.refl _
    | cons key keys ih =>
      cases hitem : truthyItem resolved key.1 with
      | none =>
        rw [List.filterMap_cons_none (by rw [hitem]; rfl)]
        exact ih.cons key.1
      | some v =>
        rw [List.filterMap_cons_some (by rw [hitem]; rfl)]
        exact ih.cons_cons key.1
  rw [propertyWrites, List.map_append]
  exact hrandom.append hproperty

theorem mem_assignedNames {write : String × Except PyError Value} (hwrite : write ∈ propertyWrites resolved) :
    write.1 ∈ assignedNames :=
  (names_sublist resolved).subset (List.mem_map_of_mem hwrite)

/-- No assignment touches what one before it has written. -/
theorem pairwise_not_touches (resolved : PyDict String Value) :
    (propertyWrites resolved).Pairwise fun a b => ¬Touches b.1 a.1 := by
  have hnames : assignedNames.Pairwise fun a b => ¬Touches b a := by decide
  exact List.pairwise_map.mp (hnames.sublist (names_sublist resolved))

/-- Before the identifier only the switch is assigned. -/
theorem pairwise_switch (resolved : PyDict String Value) :
    (propertyWrites resolved).Pairwise fun a b =>
      b.1 = "client_identifier" → a.1 = "with_random_tls_extension_order" := by
  have hnames : assignedNames.Pairwise fun a b =>
      b = "client_identifier" → a = "with_random_tls_extension_order" := by decide
  exact List.pairwise_map.mp (hnames.sublist (names_sublist resolved))

/-- The assignment of a setting that is true in the preset, with those before and after it. -/
theorem exists_propertyWrites_eq {key : String × (Value → Except PyError Value)} (hkey : key ∈ propertyKeys)
    {value : Value} (hvalue : truthyItem resolved key.1 = some value) :
    ∃ before after, propertyWrites resolved = before ++ (key.1, key.2 value) :: after ∧
      (∀ write ∈ after, ¬Touches write.1 key.1) ∧
      (key.1 = "client_identifier" → ∀ write ∈ before, write.1 = "with_random_tls_extension_order") := by
  have hmem : (key.1, key.2 value) ∈ propertyWrites resolved := by
    refine List.mem_append_right _ (List.mem_filterMap.mpr ⟨key, hkey, ?_⟩)
    rw [hvalue]
    rfl
  obtain ⟨before, after, heq⟩ := List.append_of_mem hmem
  refine ⟨before, after, heq, ?_, ?_⟩
  · have htouches := pairwise_not_touches resolved
    rw [heq] at htouches
    exact fun write hwrite => List.rel_of_pairwise_cons (List.pairwise_append.mp htouches).2.1 hwrite
  · intro hidentifier write hwrite
    have hswitch := pairwise_switch resolved
    rw [heq] at hswitch
    exact (List.pairwise_append.mp hswitch).2.2 write hwrite _ List.mem_cons_self hidentifier

end Names

namespace SessionObject

open NativeSession

variable {lib : Library} {o o' : SessionObject} {resolved : PyDict String Value}

/-- The properties of a preset are shared by all kinds of session. -/
theorem shared_of_property {name : String} (hname : name ∈ propertyKeys.map Prod.fst) : Shared name := by
  have hshared : ∀ name ∈ propertyKeys.map Prod.fst, Shared name := by
    unfold Shared
    decide
  exact hshared name hname

/-- The same for a session of any kind. -/
theorem get_of_setAttr_of_not_touches {name key : String} {value : Value} (hname : name ∈ assignedNames)
    (h : o.setAttr lib name value = .ok o') (hnot : ¬Touches name key) :
    o'.native.defaults.get key = o.native.defaults.get key := by
  rcases (setAttr_native h).2 with ⟨-, hsame⟩ | hnative
  · rw [hsame]
  · exact NativeSession.get_of_setAttr_of_not_touches hname hnative hnot

/-- A property that is assigned to a session of any kind is assigned to the session inside. -/
theorem setAttr_native_of_property {name : String} {value : Value} (hname : name ∈ propertyKeys.map Prod.fst)
    (h : o.setAttr lib name value = .ok o') : o.native.setAttr lib name value = .ok o'.native := by
  rcases (setAttr_native h).2 with ⟨hnot, -⟩ | hnative
  · exact absurd (shared_of_property hname) hnot
  · exact hnative

/-- Assignments that do not touch a default leave it. -/
theorem get_assignAll_of_not_touches {writes : List (String × Except PyError Value)} {key : String}
    (hnames : ∀ write ∈ writes, write.1 ∈ assignedNames) (hnot : ∀ write ∈ writes, ¬Touches write.1 key) :
    (o.assignAll lib writes).1.native.defaults.get key = o.native.defaults.get key :=
  @Fallible.run_related _ _ _ _
    (fun o o' : SessionObject => o'.native.defaults.get key = o.native.defaults.get key) o writes
    (fun _ => rfl) (fun _ _ _ h h' => h'.trans h) fun _ write hwrite _ hset => by
      obtain ⟨value, -, hset⟩ := Fallible.bind_eq_ok_iff.mp hset
      exact get_of_setAttr_of_not_touches (hnames write hwrite) hset (hnot write hwrite)

/-- The assignment of a setting that is true in the preset, in the session that it meets. -/
theorem exists_assigned {key : String × (Value → Except PyError Value)} (hkey : key ∈ propertyKeys) {value : Value}
    (hvalue : truthyItem resolved key.1 = some value)
    (hok : (o.assignAll lib (propertyWrites resolved)).2 = .ok ()) :
    ∃ (before after : List (String × Except PyError Value)) (o' : SessionObject) (copied : Value),
      propertyWrites resolved = before ++ (key.1, key.2 value) :: after ∧
      (∀ write ∈ after, ¬Touches write.1 key.1) ∧
      (key.1 = "client_identifier" → ∀ write ∈ before, write.1 = "with_random_tls_extension_order") ∧
      key.2 value = .ok copied ∧
      (o.assignAll lib before).1.native.setAttr lib key.1 copied = .ok o'.native ∧
      (o.assignAll lib (propertyWrites resolved)).1 = (o'.assignAll lib after).1 := by
  obtain ⟨before, after, heq, hafter, hbefore⟩ := exists_propertyWrites_eq hkey hvalue
  rw [heq] at hok
  obtain ⟨o', hset, hend⟩ := Fallible.exists_of_run_append_ok hok
  obtain ⟨copied, hcopied, hset⟩ := Fallible.bind_eq_ok_iff.mp hset
  refine ⟨before, after, o', copied, heq, hafter, hbefore, hcopied, ?_, heq ▸ hend⟩
  exact setAttr_native_of_property (List.mem_map_of_mem hkey) hset

/-- What is assigned later is in the list too. -/
theorem names_of_append {before after : List (String × Except PyError Value)}
    {write : String × Except PyError Value} (heq : propertyWrites resolved = before ++ write :: after) :
    ∀ write ∈ after, write.1 ∈ assignedNames := by
  intro write hwrite
  refine @mem_assignedNames resolved write ?_
  rw [heq]
  exact List.mem_append_right _ (List.mem_cons_of_mem _ hwrite)

/-- A property of the preset with a value that is not empty has that value, copied, after all assignments. -/
theorem get_assignAll_of_truthy {key : String × (Value → Except PyError Value)} (hkey : key ∈ propertyKeys)
    {value : Value} (hvalue : truthyItem resolved key.1 = some value)
    (hok : (o.assignAll lib (propertyWrites resolved)).2 = .ok ()) :
    ∃ copied, key.2 value = .ok copied ∧
      (o.assignAll lib (propertyWrites resolved)).1.native.defaults.get key.1 = some copied := by
  obtain ⟨before, after, o', copied, heq, hafter, -, hcopied, hset, hend⟩ := exists_assigned hkey hvalue hok
  refine ⟨copied, hcopied, ?_⟩
  rw [hend, get_assignAll_of_not_touches (names_of_append heq) hafter]
  exact get_of_setAttr_self (List.mem_map_of_mem hkey) hset

/-- What has the name of a setting is the assignment of it, so the preset has it. -/
theorem ne_of_truthyItem_eq_none {key : String} (hnone : truthyItem resolved key = none)
    {write : String × Except PyError Value} (hwrite : write ∈ propertyWrites resolved) :
    ¬(write.1 ∈ propertyKeys.map Prod.fst ∧ write.1 = key) := by
  rintro ⟨hproperty, rfl⟩
  rcases mem_propertyWrites hwrite with hrandom | ⟨key, -, hname, hsome⟩
  · rw [(of_mem_randomOrderWrites hrandom).1] at hproperty
    exact absurd hproperty (by decide)
  · rw [← hname, hnone] at hsome
    exact Bool.false_ne_true hsome

/-- The identifier of the preset is there: the headers follow it, if they do not come from the preset. -/
theorem get_headers_of_identifier {identifier : Value}
    (hidentifier : truthyItem resolved "client_identifier" = some identifier)
    (hheaders : truthyItem resolved "default_headers" = none)
    (hok : (o.assignAll lib (propertyWrites resolved)).2 = .ok ()) :
    (o.assignAll lib (propertyWrites resolved)).1.native.defaults.get "default_headers" =
      if o.native.Switches identifier then some (lib.tableHeaders identifier)
      else o.native.defaults.get "default_headers" := by
  have hkey : (("client_identifier", .ok) : String × (Value → Except PyError Value)) ∈ propertyKeys :=
    List.mem_cons_self
  obtain ⟨before, after, o', copied, heq, hafter, hbefore, hcopied, hset, hend⟩ :=
    exists_assigned hkey hidentifier hok
  obtain rfl := Except.ok.inj hcopied
  -- before it only the switch
  have hsame : o.native.Untouched (o.assignAll lib before).1.native := by
    refine assignAll_untouched o (fun write hwrite => ?_) fun write hwrite => ?_
    · rw [hbefore rfl write hwrite]
      decide
    · rw [hbefore rfl write hwrite]
      decide
  have hrest : ∀ write ∈ after, ¬Touches write.1 "default_headers" := by
    intro write hwrite htouches
    have hmem : write ∈ propertyWrites resolved := by
      rw [heq]
      exact List.mem_append_right _ (List.mem_cons_of_mem _ hwrite)
    rcases htouches with hown | ⟨hname, -⟩
    · exact ne_of_truthyItem_eq_none hheaders hmem hown
    · exact hafter write hwrite (.inl ⟨hname ▸ by decide, hname⟩)
  rw [hend, get_assignAll_of_not_touches (names_of_append heq) hrest, get_of_setClientIdentifier hset]
  have hswitches : (o.assignAll lib before).1.native.Switches identifier ↔ o.native.Switches identifier := by
    unfold Switches
    rw [hsame.defaults, hsame.customized]
  by_cases hswitch : o.native.Switches identifier
  · rw [if_pos ⟨rfl, hswitches.mpr hswitch⟩, if_pos hswitch]
  · rw [if_neg fun hand => hswitch (hswitches.mp hand.2), if_neg (by decide), if_neg hswitch, hsame.defaults]

/-- A default that the preset does not set by a property is that of the session, but for the headers of a new
identifier. -/
theorem get_assignAll_of_not_truthy {key : String}
    (hkey : key ∈ propertyKeys.map Prod.fst → truthyItem resolved key = none)
    (hok : (o.assignAll lib (propertyWrites resolved)).2 = .ok ()) :
    ((o.assignAll lib (propertyWrites resolved)).1.native.defaults.get key).getD .none =
      o.ownDefault lib resolved key := by
  have hown : ∀ write ∈ propertyWrites resolved,
      ¬(write.1 ∈ propertyKeys.map Prod.fst ∧ write.1 = key) := by
    rintro write hwrite ⟨hproperty, rfl⟩
    exact ne_of_truthyItem_eq_none (hkey hproperty) hwrite ⟨hproperty, rfl⟩
  unfold ownDefault
  -- only the identifier writes a key that is not its own: the default headers
  cases hidentifier : truthyItem resolved "client_identifier" with
  | none =>
    rw [get_assignAll_of_not_touches fun write hwrite => mem_assignedNames hwrite]
    rintro write hwrite (hsame | ⟨hname, -⟩)
    · exact hown write hwrite hsame
    · exact ne_of_truthyItem_eq_none hidentifier hwrite ⟨hname ▸ by decide, hname⟩
  | some identifier =>
    by_cases hheaders : key = "default_headers"
    · subst hheaders
      rw [get_headers_of_identifier hidentifier (hkey (by decide)) hok]
      dsimp only
      by_cases hswitch : o.native.Switches identifier
      · rw [if_pos hswitch, if_pos ⟨rfl, hswitch⟩]
        rfl
      · rw [if_neg hswitch, if_neg fun hand => hswitch hand.2]
    · dsimp only
      rw [if_neg fun hand => hheaders hand.1,
        get_assignAll_of_not_touches fun write hwrite => mem_assignedNames hwrite]
      rintro write hwrite (hsame | ⟨-, hname⟩)
      · exact hown write hwrite hsame
      · exact hheaders hname

/-! ## What the keys leave in the defaults -/

/-- An assignment does not change a dict of the object's own. -/
theorem setAttr_ownDefaults {name : String} {value : Value} (h : o.setAttr lib name value = .ok o')
    (hname : name ≠ "defaults") : o'.ownDefaults = o.ownDefaults := by
  have hown : ∀ (o : SessionObject) (name : String) (value : Value), name ≠ "defaults" →
      (o.setOwn name value).ownDefaults = o.ownDefaults := by
    intro o name value hne
    unfold ownDefaults setOwn
    dsimp only
    split
    · exact PyDict.get_set_of_ne _ _ hne.symm
    · rfl
  unfold setAttr at h
  split at h
  · obtain ⟨native, -, rfl⟩ := Fallible.map_eq_ok_iff.mp h
    rfl
  · split_ifs at h
    · rw [← Except.ok.inj h]
      exact hown o name value hname
    · obtain ⟨native, -, rfl⟩ := Fallible.map_eq_ok_iff.mp h
      rfl
  · split_ifs at h
    · obtain ⟨native, -, rfl⟩ := Fallible.map_eq_ok_iff.mp h
      exact hown (o.withNative native) _ value (by decide)
    · obtain ⟨native, -, rfl⟩ := Fallible.map_eq_ok_iff.mp h
      rfl
    · rw [← Except.ok.inj h]
      exact hown o name value hname

/-- Neither do all assignments of a preset. -/
theorem assignAll_ownDefaults (o : SessionObject) (resolved : PyDict String Value) :
    (o.assignAll lib (propertyWrites resolved)).1.ownDefaults = o.ownDefaults :=
  @Fallible.run_related _ _ _ _ (fun o o' : SessionObject => o'.ownDefaults = o.ownDefaults) o
    (propertyWrites resolved) (fun _ => rfl) (fun _ _ _ h h' => h'.trans h) fun _ write hwrite _ hset => by
      obtain ⟨value, -, hset⟩ := Fallible.bind_eq_ok_iff.mp hset
      exact setAttr_ownDefaults hset (propertyWrites_ne_defaults write hwrite)

/-- The properties do not change which keys are written. -/
theorem fingerprintWrites_assignAll (o : SessionObject) (resolved : PyDict String Value) :
    fingerprintWrites resolved (o.assignAll lib (propertyWrites resolved)).1.exposedKeys =
      fingerprintWrites resolved o.exposedKeys := by
  refine (PyDict.tabulate_eq_iff _ _ _).mpr fun key hkey => ?_
  have hnot : ∀ name ∈ assignedNames, ∀ key ∈ fpKeys, ¬Touches name key := by decide
  have hget : (o.assignAll lib (propertyWrites resolved)).1.native.defaults.get key = o.native.defaults.get key :=
    get_assignAll_of_not_touches (fun write hwrite => mem_assignedNames hwrite)
      fun write hwrite => hnot write.1 (mem_assignedNames hwrite) key hkey
  have hexposed : key ∈ (o.assignAll lib (propertyWrites resolved)).1.exposedKeys ↔ key ∈ o.exposedKeys := by
    unfold exposedKeys
    rw [assignAll_ownDefaults]
    cases o.ownDefaults with
    | some own => exact Iff.rfl
    | none => rw [← not_iff_not, ← PyDict.get_eq_none_iff, ← PyDict.get_eq_none_iff, hget]
  simp only [hexposed]

/-- What a preset writes for a key: its value, as a flag where it is one, if the key is shown. -/
theorem get_fingerprintWrites (resolved : PyDict String Value) (exposed : List String) (key : String) :
    (fingerprintWrites resolved exposed).get key =
      if key ∈ fpKeys ∧ key ∈ exposed then
        (resolved.get key).map fun v => if key ∈ boolKeys then asFlag v else v
      else none := by
  rw [fingerprintWrites, PyDict.get_tabulate, ite_and]

/-- A run of `_set_default` writes all its items. -/
theorem defaults_foldl_setDefault (items : List (String × Value)) (s : NativeSession) :
    (items.foldl (fun s item => s.setDefault item.1 item.2) s).defaults = s.defaults.setAll items := by
  induction items generalizing s with
  | nil => rfl
  | cons item items ih => exact ih (s.setDefault item.1 item.2)

/-- A key has the value that was written last, or its old one. -/
theorem get_writeDefaults (o : SessionObject) (writes : PyDict String Value) (key : String) :
    (o.writeDefaults writes).native.defaults.get key = (writes.get key).or (o.native.defaults.get key) := by
  rw [← PyDict.get_update]
  unfold writeDefaults
  split
  · rfl
  · rw [withNative, defaults_foldl_setDefault]
    rfl

/-! ## The templates -/

/-- The assignment of a property leaves the templates alone. -/
theorem attributes_of_setAttr {s s' : NativeSession} {name attr : String} {value : Value}
    (h : s.setAttr lib name value = .ok s') (hname : name ∈ assignedNames)
    (hattr : attr ∈ templateKeys.map Prod.snd) : s'.attributes.get attr = s.attributes.get attr := by
  rcases List.mem_cons.mp hname with rfl | hproperty
  · have hne : ∀ attr ∈ templateKeys.map Prod.snd, attr ≠ "with_random_tls_extension_order" := by decide
    rw [← Except.ok.inj h]
    exact PyDict.get_set_of_ne _ _ (hne attr hattr)
  · rcases List.mem_cons.mp hproperty with rfl | hplain
    · replace h : s.setClientIdentifier lib value = .ok s' := h
      unfold setClientIdentifier at h
      dsimp only at h
      split_ifs at h <;> rw [← Except.ok.inj h] <;> rfl
    · simp only [List.map_cons, List.map_nil, List.mem_cons, List.not_mem_nil, or_false] at hplain
      rcases hplain with rfl | rfl | rfl | rfl <;> rw [← Except.ok.inj h] <;> rfl

/-- All assignments of a preset leave the templates alone. -/
theorem attributes_assignAll {attr : String} (hattr : attr ∈ templateKeys.map Prod.snd) (o : SessionObject)
    (resolved : PyDict String Value) :
    (o.assignAll lib (propertyWrites resolved)).1.native.attributes.get attr = o.native.attributes.get attr :=
  @Fallible.run_related _ _ _ _
    (fun o o' : SessionObject => o'.native.attributes.get attr = o.native.attributes.get attr) o
    (propertyWrites resolved) (fun _ => rfl) (fun _ _ _ h h' => h'.trans h) fun _ write hwrite _ hset => by
      obtain ⟨value, -, hset⟩ := Fallible.bind_eq_ok_iff.mp hset
      rcases (setAttr_native hset).2 with ⟨-, hsame⟩ | hnative
      · rw [hsame]
      · exact attributes_of_setAttr hnative (mem_assignedNames hwrite) hattr

/-- The writes into `defaults` leave the attributes alone. -/
theorem attributes_writeDefaults (o : SessionObject) (writes : PyDict String Value) :
    (o.writeDefaults writes).native.attributes = o.native.attributes := by
  have hfold : ∀ (items : List (String × Value)) (s : NativeSession),
      (items.foldl (fun s item => s.setDefault item.1 item.2) s).attributes = s.attributes := by
    intro items
    induction items with
    | nil => exact fun _ => rfl
    | cons item items ih => exact fun s => ih (s.setDefault item.1 item.2)
  unfold writeDefaults
  split
  · rfl
  · exact hfold _ _

/-- The record of a wrapped session is kept outside the session inside. -/
theorem native_record (hkind : o.kind ≠ .session) (name : String) (resolved : PyDict String Value) :
    (o.record name resolved).native = o.native := by
  obtain ⟨kind, native, attributes⟩ := o
  cases kind with
  | session => exact absurd rfl hkind
  | asyncSession => rfl
  | compatSession => rfl

/-- A session has the template of the preset, or `None`. -/
theorem template_record (hkind : o.kind = .session) (name : String) (resolved : PyDict String Value)
    {key attr : String} (hattr : templateKeys.lookup key = some attr) :
    ((o.record name resolved).native.attributes.get attr).getD .none = (resolved.get key).getD .none := by
  obtain ⟨kind, native, attributes⟩ := o
  obtain rfl : kind = .session := hkind
  have hmem : (key, attr) ∈ templateKeys := mem_of_lookup_eq_some hattr
  simp only [templateKeys, List.mem_cons, List.not_mem_nil, or_false, Prod.mk.injEq] at hmem
  rcases hmem with ⟨rfl, rfl⟩ | ⟨rfl, rfl⟩
  · simp [record, setPrivate, withNative, PyDict.get_set]
  · simp [record, setPrivate, withNative, PyDict.get_set]

/-! ## The snapshot of the next request -/

/-- On an `AsyncSession` the writes leave the snapshots as they are. -/
theorem cached_writeDefaults_async (hkind : o.kind = .asyncSession) (writes : PyDict String Value)
    (path : RequestPath) : (o.writeDefaults writes).native.cached path = o.native.cached path := by
  rw [writeDefaults_async hkind]
  rfl

/-- No writes change nothing. -/
theorem writeDefaults_of_nil {writes : PyDict String Value} (hnil : writes.items = []) :
    (o.writeDefaults writes).native = o.native := by
  have hupdate : o.native.defaults.update writes = o.native.defaults := by
    rw [PyDict.update, hnil]
    rfl
  unfold writeDefaults
  split
  · rw [hupdate]
    rfl
  · rw [hnil]
    rfl

/-- Elsewhere a write empties the cache. -/
theorem writeDefaults_cleared (hkind : o.kind ≠ .asyncSession) {writes : PyDict String Value}
    (hwrites : writes.items ≠ []) : (o.writeDefaults writes).native.selectedSnapshotCache = .empty := by
  unfold writeDefaults
  split
  · exact absurd ‹_› hkind
  · obtain ⟨item, items, hitems⟩ := List.exists_cons_of_ne_nil hwrites
    rw [withNative, hitems, List.foldl_cons]
    exact (foldl_setDefault_announced items _).cleared rfl

/-! ## After `apply` -/

/-- The writes do not change the kind of the session. -/
theorem kind_writeDefaults (o : SessionObject) (writes : PyDict String Value) :
    (o.writeDefaults writes).kind = o.kind := by
  unfold writeDefaults
  split <;> rfl

/-- The record does not change the kind of the session. -/
theorem kind_record (o : SessionObject) (name : String) (resolved : PyDict String Value) :
    (o.record name resolved).kind = o.kind := by
  have hprivate : ∀ (o : SessionObject) (name : String) (value : Value), (o.setPrivate name value).kind = o.kind := by
    intro o name value
    unfold setPrivate
    split <;> rfl
  rw [record, hprivate, hprivate, hprivate]

/-- The three stages of `apply`. -/
theorem of_apply_eq_ok {r : Registry} {name : String} (happly : o.apply lib r name = (o', .ok resolved)) :
    (o.assignAll lib (propertyWrites resolved)).2 = .ok () ∧
      o' = ((o.assignAll lib (propertyWrites resolved)).1.writeDefaults
        (fingerprintWrites resolved o.exposedKeys)).record name resolved := by
  unfold apply at happly
  cases hresolve : r.resolve name with
  | error e =>
    rw [hresolve] at happly
    cases (Prod.mk.inj happly).2
  | ok flattened =>
    rw [hresolve] at happly
    dsimp only at happly
    obtain ⟨hstate, hresult⟩ := Prod.mk.inj happly
    obtain ⟨_, hok, rfl⟩ := Fallible.map_eq_ok_iff.mp hresult
    cases hassign : (o.assignAll lib (propertyWrites flattened)).2 with
    | error e =>
      rw [applyResolved_of_error name hassign] at hok
      contradiction
    | ok =>
      rw [applyResolved_of_ok name hassign, fingerprintWrites_assignAll] at hstate
      exact ⟨rfl, hstate.symm⟩

/-- A preset that is found and whose assignments succeed is applied in three parts. -/
theorem apply_eq_ok {r : Registry} {name : String} (hresolve : r.resolve name = .ok resolved)
    (hok : (o.assignAll lib (propertyWrites resolved)).2 = .ok ()) :
    o.apply lib r name =
      (((o.assignAll lib (propertyWrites resolved)).1.writeDefaults
        (fingerprintWrites resolved o.exposedKeys)).record name resolved, .ok resolved) := by
  rw [apply, hresolve]
  dsimp only
  rw [applyResolved_of_ok name hok, fingerprintWrites_assignAll]
  rfl

section Applied

variable {name : String}

/-- A request after `apply` takes a new snapshot. -/
theorem cached_of_fresh (hok : (o.assignAll lib (propertyWrites resolved)).2 = .ok ())
    (hfresh : o.Fresh resolved) :
    (((o.assignAll lib (propertyWrites resolved)).1.writeDefaults
      (fingerprintWrites resolved o.exposedKeys)).record name resolved).native.cached o.path = none := by
  rw [(record_untouched _ _ _).cached]
  have hkind := @assignAll_kind lib (propertyWrites resolved) o
  have hannounced : o.native.Announced (o.assignAll lib (propertyWrites resolved)).1.native :=
    assignAll_announced o propertyWrites_ne_defaults
  rcases hfresh with hnone | hsets | ⟨hsync, hwrites⟩
  · -- there was no snapshot to begin with
    by_cases hasync : o.kind = .asyncSession
    · rw [cached_writeDefaults_async (hkind.trans hasync)]
      rcases hannounced with hclear | hsame
      · exact cached_of_cleared hclear _
      · rw [hsame.cached, hnone]
    · rcases hannounced.trans (writeDefaults_announced (fun h => hasync (hkind.symm.trans h)) _)
        with hclear | hsame
      · exact cached_of_cleared hclear _
      · rw [hsame.cached, hnone]
  · -- a property has dropped it
    have hclear := assignAll_cleared hok propertyWrites_ne_defaults (exists_shared_of_setsProperty hsets)
    by_cases hasync : o.kind = .asyncSession
    · rw [cached_writeDefaults_async (hkind.trans hasync), cached_of_cleared hclear]
    · exact cached_of_cleared
        ((writeDefaults_announced (fun h => hasync (hkind.symm.trans h)) _).cleared hclear) _
  · exact cached_of_cleared (writeDefaults_cleared (fun h => hsync (hkind.symm.trans h)) hwrites) _

/-- Otherwise it reads what it would have read before. -/
theorem nextOption_of_not_fresh (hnot : ¬o.Fresh resolved) (settings : CompatSettings) (key : String) :
    (((o.assignAll lib (propertyWrites resolved)).1.writeDefaults
      (fingerprintWrites resolved o.exposedKeys)).record name resolved).nextOption lib settings key =
      o.nextOption lib settings key := by
  obtain ⟨hcached, hnot⟩ := not_or.mp hnot
  obtain ⟨hsets, hwrites⟩ := not_or.mp hnot
  have hsame : o.native.Untouched (o.assignAll lib (propertyWrites resolved)).1.native :=
    assignAll_untouched o propertyWrites_ne_defaults fun write hwrite => (propertyWrites_inert hsets hwrite).1
  have hkind := @assignAll_kind lib (propertyWrites resolved) o
  generalize (o.assignAll lib (propertyWrites resolved)).1 = o₁ at hsame hkind ⊢
  have hrecord := record_untouched (o₁.writeDefaults (fingerprintWrites resolved o.exposedKeys)) name resolved
  have hwritten : (∀ path, (o₁.writeDefaults (fingerprintWrites resolved o.exposedKeys)).native.cached path =
        o₁.native.cached path) ∧
      (o₁.writeDefaults (fingerprintWrites resolved o.exposedKeys)).native.headersCustomized =
        o₁.native.headersCustomized ∧
      (o₁.writeDefaults (fingerprintWrites resolved o.exposedKeys)).native.defaults.get "client_identifier" =
        o₁.native.defaults.get "client_identifier" := by
    by_cases hasync : o.kind = .asyncSession
    -- through an `AsyncSession` the keys go into the dict and the snapshot stays
    · refine ⟨cached_writeDefaults_async (hkind.trans hasync) _, ?_, ?_⟩
      · rw [writeDefaults_async (hkind.trans hasync)]
      · rw [get_writeDefaults, get_fingerprintWrites, if_neg fun hand => absurd hand.1 (by decide)]
        rfl
    -- on the other kinds a written key would have raised the version
    · have hnil : (fingerprintWrites resolved o.exposedKeys).items = [] := by
        by_contra hne
        exact hwrites ⟨hasync, hne⟩
      rw [writeDefaults_of_nil hnil]
      exact ⟨fun _ => rfl, rfl, rfl⟩
  obtain ⟨hcached₂, hcustomized₂, hidentifier₂⟩ := hwritten
  refine nextOption_congr ?_ ?_ ?_ ?_ settings key
  · rw [kind_record, kind_writeDefaults, hkind]
  · obtain ⟨snapshot, hsnapshot⟩ := Option.ne_none_iff_exists'.mp hcached
    unfold snapshotSelectedDefaults
    rw [hrecord.cached, hcached₂, hsame.cached, hsnapshot]
  · rw [hrecord.customized, hcustomized₂, hsame.customized]
  · rw [hrecord.defaults, hidentifier₂, hsame.defaults]

/-- The default under a key of the preset, after `apply`. -/
theorem readAs_default_iff_lands (hok : (o.assignAll lib (propertyWrites resolved)).2 = .ok ()) {key : String}
    (hoption : templateKeys.lookup key = none) {value : Value} (hvalue : resolved.get key = some value) :
    readAs key (((((o.assignAll lib (propertyWrites resolved)).1.writeDefaults
        (fingerprintWrites resolved o.exposedKeys)).record name resolved).native.defaults.get key).getD .none) =
      readAs key value ↔ o.Lands lib resolved key value := by
  rw [(record_untouched _ _ _).defaults, get_writeDefaults, get_fingerprintWrites]
  unfold Lands
  by_cases hlisted : key ∈ fpKeys ∧ key ∈ o.exposedKeys
  · -- the key is written as it is, or as a flag
    rw [if_pos hlisted, if_pos hlisted, hvalue]
    refine iff_of_true ?_ trivial
    have hflags : ∀ key ∈ boolKeys, key ∈ flagKeys := by decide
    simp only [Option.map_some, Option.some_or, Option.getD_some]
    split_ifs with hbool
    · exact readAs_asFlag hoption (hflags key hbool) value
    · rfl
  · rw [if_neg hlisted, if_neg hlisted, Option.none_or]
    cases hproperty : (propertyKeys.lookup key).filter fun _ => value.truthy with
    | some copy =>
      -- the property is set to a copy
      obtain ⟨hlookup, htrue⟩ := Option.filter_eq_some_iff.mp hproperty
      have hitem : truthyItem resolved key = some value := by
        rw [truthyItem, hvalue, Option.filter_some, if_pos htrue]
      obtain ⟨copied, hcopied, hget⟩ := get_assignAll_of_truthy (mem_of_lookup_eq_some hlookup) hitem hok
      replace hcopied : copy value = .ok copied := hcopied
      dsimp only at hget ⊢
      rw [hget, Option.getD_some]
      refine ⟨fun h => ⟨copied, hcopied, h⟩, ?_⟩
      rintro ⟨copied', hcopied', hread⟩
      rw [hcopied] at hcopied'
      rwa [Except.ok.inj hcopied']
    | none =>
      have hitem : key ∈ propertyKeys.map Prod.fst → truthyItem resolved key = none := by
        intro hmem
        obtain ⟨pair, hpair, rfl⟩ := List.mem_map.mp hmem
        obtain ⟨copy, hlookup⟩ := Option.isSome_iff_exists.mp
          (List.lookup_isSome_iff.mpr ⟨pair, hpair, beq_self_eq_true pair.1⟩)
        have hfalse := Option.filter_eq_none_iff.mp hproperty copy hlookup
        rw [truthyItem, hvalue, Option.filter_some, if_neg hfalse]
      rw [get_assignAll_of_not_truthy hitem hok]

/-- The next request reads the preset's value of an option exactly if the session takes it. -/
theorem readAs_nextRead_iff_takes (hok : (o.assignAll lib (propertyWrites resolved)).2 = .ok ())
    (settings : CompatSettings) {key : String} (hkey : key ∈ optionKeys) {value : Value}
    (hvalue : resolved.get key = some value) :
    readAs key ((((o.assignAll lib (propertyWrites resolved)).1.writeDefaults
        (fingerprintWrites resolved o.exposedKeys)).record name resolved).nextRead lib settings key) =
      readAs key value ↔ o.Takes lib settings resolved key value := by
  have hkind : (((o.assignAll lib (propertyWrites resolved)).1.writeDefaults
      (fingerprintWrites resolved o.exposedKeys)).record name resolved).kind = o.kind := by
    rw [kind_record, kind_writeDefaults, assignAll_kind]
  unfold Takes
  cases htemplate : templateKeys.lookup key with
  | some attr =>
    -- a template: recorded on the session itself, or elsewhere
    have hattr : attr ∈ templateKeys.map Prod.snd := List.mem_map_of_mem (mem_of_lookup_eq_some htemplate)
    unfold nextRead
    rw [htemplate]
    dsimp only
    by_cases hsession : o.kind = .session
    · have hsession' : ((o.assignAll lib (propertyWrites resolved)).1.writeDefaults
          (fingerprintWrites resolved o.exposedKeys)).kind = .session := by
        rw [kind_writeDefaults, assignAll_kind, hsession]
      rw [template_record hsession' name resolved htemplate, hvalue]
      exact iff_of_true rfl (.inl hsession)
    · have hsession' : ((o.assignAll lib (propertyWrites resolved)).1.writeDefaults
          (fingerprintWrites resolved o.exposedKeys)).kind ≠ .session := by
        rw [kind_writeDefaults, assignAll_kind]
        exact hsession
      rw [native_record hsession', attributes_writeDefaults, attributes_assignAll hattr]
      exact (or_iff_right hsession).symm
  | none =>
    have hsync : key ∈ syncRequestDefaultKeys := by
      refine (List.mem_append.mp hkey).resolve_right fun hmem => ?_
      obtain ⟨pair, hpair, rfl⟩ := List.mem_map.mp hmem
      have hsome := List.lookup_isSome_iff.mpr ⟨pair, hpair, beq_self_eq_true pair.1⟩
      rw [htemplate] at hsome
      exact Bool.false_ne_true hsome
    have hread : ∀ o : SessionObject, o.nextRead lib settings key = o.nextOption lib settings key := by
      intro o
      rw [nextRead, htemplate]
    rw [hread]
    cases hold : (abi3RequestFields.lookup key).filter fun _ => lib.abiVersion < 3 with
    | some sentinel =>
      -- the library drops the option
      have hne : key ≠ "default_headers" := by
        rintro rfl
        cases hold
      rw [nextOption_of_ne settings hne, resolveOptions, readAs_degradeOptions_of_old htemplate hold]
    | none =>
      cases hpassed : o.passed settings key with
      | some passed =>
        have hne : key ≠ "default_headers" := by
          rintro rfl
          rw [passed_eq_none settings (by decide)] at hpassed
          contradiction
        rw [nextOption_of_ne settings hne, resolveOptions, degradeOptions_of_kept hold, passed_congr hkind,
          hpassed, Option.getD_some, readAs_normalizeOption htemplate]
      | none =>
        by_cases hfresh : o.Fresh resolved
        · have hcached := @cached_of_fresh lib o resolved name hok hfresh
          rw [← path_congr hkind] at hcached
          rw [nextOption_of_not_cached hcached, resolveOptions, degradeOptions_of_kept hold, passed_congr hkind,
            hpassed, Option.getD_none, readAs_normalizeOption htemplate, selected, PyDict.get_tabulate,
            if_pos ((RequestPath.mem_keys _ _).mpr hsync), readAs_default_iff_lands hok htemplate hvalue]
          exact ⟨fun h => ⟨fun _ => h, fun hnot => absurd hfresh hnot⟩, fun h => h.1 hfresh⟩
        · rw [nextOption_of_not_fresh hfresh]
          exact ⟨fun h => ⟨fun hyes => absurd hyes hfresh, fun _ => h⟩, fun h => h.2 hfresh⟩

end Applied

end SessionObject

/-- After a preset is applied the next request has it complete exactly under `Covers`. -/
theorem complete_iff_covers (lib : Library) (r : Registry) (o o' : SessionObject) (name : String)
    (settings : CompatSettings) (resolved : PyDict String Value)
    (happly : o.apply lib r name = (o', .ok resolved)) :
    Complete lib o' settings resolved ↔ o.Covers lib settings resolved := by
  obtain ⟨hok, rfl⟩ := SessionObject.of_apply_eq_ok happly
  refine forall₂_congr fun item hitem => forall_congr' fun hkey => ?_
  exact SessionObject.readAs_nextRead_iff_takes hok settings hkey (PyDict.get_eq_some_iff.mpr hitem)

open SessionObject

def noSettings : CompatSettings := ⟨.empty, List.nil_subset _⟩

/-- A new session takes a preset of one TCP key that keeps the random extension order. -/
theorem tcpPreset_covered :
    (plainSession .session).Covers plainLibrary noSettings (Registry.flatten "tcp" [tcpPreset]) := by
  have hitems : (Registry.flatten "tcp" [tcpPreset]).items =
      [("name", .str "tcp"), ("tcp_ttl", .int 64), ("browser", .str "chrome"), ("custom_tls_client", .none),
        ("with_random_tls_extension_order", .bool true)] := rfl
  have hfresh : (plainSession .session).Fresh (Registry.flatten "tcp" [tcpPreset]) := .inl rfl
  intro item hitem hkey
  rw [hitems] at hitem
  simp only [List.mem_cons, List.not_mem_nil, or_false] at hitem
  rcases hitem with rfl | rfl | rfl | rfl | rfl
  · exact absurd hkey (by decide)
  · refine ⟨fun _ => ?_, fun hnot => absurd hfresh hnot⟩
    rw [Lands, if_pos (by decide)]
    trivial
  · exact absurd hkey (by decide)
  · exact ⟨fun _ => rfl, fun hnot => absurd hfresh hnot⟩
  · exact ⟨fun _ => rfl, fun hnot => absurd hfresh hnot⟩

/-- A preset with one TCP key takes effect on a plain session. -/
theorem tcpPreset_complete :
    Complete plainLibrary ((plainSession .session).apply plainLibrary (.single tcpPreset) "tcp").1 noSettings
      (Registry.flatten "tcp" [tcpPreset]) := by
  have hresolve : (Registry.single tcpPreset).resolve "tcp" = .ok (Registry.flatten "tcp" [tcpPreset]) :=
    Registry.resolve_single rfl
  have hok : ((plainSession .session).assignAll plainLibrary
      (propertyWrites (Registry.flatten "tcp" [tcpPreset]))).2 = .ok () := rfl
  have happly := apply_eq_ok hresolve hok
  rw [happly]
  exact (complete_iff_covers _ _ _ _ _ noSettings _ happly).mpr tcpPreset_covered

def firefoxPreset : Layer where
  name := "firefox_148_base"
  items := ((PyDict.empty.set "name" (.str "firefox_148_base")).set "client_identifier" (.str "firefox_148")).set
    "with_random_tls_extension_order" (.bool false)
  name_eq := rfl

/-- A preset with a fixed extension order leaves the random one of a new session. -/
theorem firefoxPreset_not_complete :
    ¬ ∀ (lib : Library) (r : Registry) (o o' : SessionObject) (name : String) (settings : CompatSettings)
      (resolved : PyDict String Value), o.apply lib r name = (o', .ok resolved) →
      Complete lib o' settings resolved := by
  intro hall
  have hok : ((plainSession .session).assignAll plainLibrary
      (propertyWrites (Registry.flatten "firefox_148_base" [firefoxPreset]))).2 = .ok () := rfl
  have hresolve : (Registry.single firefoxPreset).resolve "firefox_148_base" =
      .ok (Registry.flatten "firefox_148_base" [firefoxPreset]) := Registry.resolve_single rfl
  have happly := apply_eq_ok hresolve hok
  have hcomplete := hall plainLibrary (.single firefoxPreset) (plainSession .session) _ _ noSettings _ happly
  have hitem : (Registry.flatten "firefox_148_base" [firefoxPreset]).get "with_random_tls_extension_order" =
      some (.bool false) := rfl
  have hread := hcomplete _ (PyDict.get_eq_some_iff.mp hitem) (by decide)
  have htakes := (readAs_nextRead_iff_takes hok noSettings (by decide) hitem).mp hread
  have hlands : readAs "with_random_tls_extension_order" (.int 1) =
      readAs "with_random_tls_extension_order" (.bool false) := htakes.1 (.inl rfl)
  cases hlands

end TlsClient.Python
