import TlsClient.Python.Presets
import TlsClient.Library.Run

/-!
# The snapshot of the defaults

A request reads the defaults of its session from a snapshot that is kept until the version changes. In a run of
assignments, presets and requests on a session of any kind, every request reads the defaults as they are
exactly if no write is hidden: a write that does not raise the version is one that no kept snapshot would show.

`_set_default` always raises the version. The writes that do not are those into the dict `defaults` itself, or of
another dict in its place, and the keys that `apply` writes through an `AsyncSession`.
-/

namespace TlsClient.Python

namespace NativeSession

/-! ## Coherence -/

/-- A request reads the current defaults, on either path. -/
def Coherent (s : NativeSession) : Prop :=
  ∀ path, (s.snapshotSelectedDefaults path).1 = selected s.defaults path

/-- All but the other attributes is the same. -/
structure Untouched (s s' : NativeSession) : Prop where
  defaults : s'.defaults = s.defaults
  version : s'.defaultsVersion = s.defaultsVersion
  cache : s'.selectedSnapshotCache = s.selectedSnapshotCache
  customized : s'.headersCustomized = s.headersCustomized

/-- No snapshot is kept after the writes, or there are none. -/
def Announced (s s' : NativeSession) : Prop :=
  s'.selectedSnapshotCache = .empty ∨ s.Untouched s'

/-- The writes change nothing that a kept snapshot has. -/
def Agrees (s : NativeSession) (writes : PyDict String Value) : Prop :=
  ∀ path, (s.cached path).isSome → ∀ item ∈ writes.items, item.1 ∈ path.keys →
    s.defaults.get item.1 = some item.2

variable {s s' s'' : NativeSession} {lib : Library}

/-- Coherence, spelled out for each path that has a snapshot. -/
theorem coherent_iff :
    s.Coherent ↔ ∀ path snapshot, s.cached path = some snapshot → snapshot = selected s.defaults path := by
  unfold Coherent snapshotSelectedDefaults
  refine forall_congr' fun path => ?_
  cases s.cached path with
  | none => simp
  | some snapshot => simp

/-- An empty cache has no snapshot for any path. -/
theorem cached_of_cleared (hclear : s.selectedSnapshotCache = .empty) (path : RequestPath) :
    s.cached path = none := by
  rw [cached, hclear]
  rfl

/-- An empty cache is coherent. -/
theorem coherent_of_cleared (hclear : s.selectedSnapshotCache = .empty) : s.Coherent := by
  refine coherent_iff.mpr fun path snapshot hcached => ?_
  rw [cached_of_cleared hclear] at hcached
  contradiction

/-- Another dict of defaults is read at once exactly if the kept snapshots do not tell the difference. -/
theorem coherent_replace_iff (hcoh : s.Coherent) (d : PyDict String Value) :
    { s with defaults := d }.Coherent ↔
      ∀ path, (s.cached path).isSome → ∀ key ∈ path.keys, d.get key = s.defaults.get key := by
  rw [coherent_iff] at hcoh ⊢
  refine forall_congr' fun path => ?_
  have hcached : { s with defaults := d }.cached path = s.cached path := rfl
  rw [hcached]
  cases hc : s.cached path with
  | none => simp
  | some snapshot =>
    have hsnapshot := hcoh path snapshot hc
    rw [forall_prop_of_true Option.isSome_some, ← PyDict.tabulate_eq_iff path.nodup_keys]
    constructor
    · intro hall
      exact ((hall snapshot rfl).symm.trans hsnapshot)
    · rintro heq snapshot' hsome
      obtain rfl := Option.some.inj hsome
      exact hsnapshot.trans heq.symm

/-- A write past the properties keeps the cache coherent exactly if it agrees with what is cached. -/
theorem coherent_update_iff (hcoh : s.Coherent) (writes : PyDict String Value) :
    { s with defaults := s.defaults.update writes }.Coherent ↔ s.Agrees writes := by
  rw [coherent_replace_iff hcoh]
  exact forall₂_congr fun path _ => PyDict.get_update_eq_iff s.defaults writes path.keys

/-! ## Announced writes -/

theorem Untouched.refl (s : NativeSession) : s.Untouched s := ⟨rfl, rfl, rfl, rfl⟩

/-- Two changes that touch neither the defaults nor the cache make one that does not. -/
theorem Untouched.trans (h : s.Untouched s') (h' : s'.Untouched s'') : s.Untouched s'' := by
  obtain ⟨hd, hv, hc, hh⟩ := h
  obtain ⟨hd', hv', hc', hh'⟩ := h'
  exact ⟨hd'.trans hd, hv'.trans hv, hc'.trans hc, hh'.trans hh⟩

/-- The snapshots of an untouched session are the same. -/
theorem Untouched.cached (h : s.Untouched s') (path : RequestPath) : s'.cached path = s.cached path := by
  unfold NativeSession.cached
  rw [h.version, h.cache]

/-- The cache of an untouched session is coherent if it was. -/
theorem Untouched.coherent_iff (h : s.Untouched s') : s'.Coherent ↔ s.Coherent := by
  rw [NativeSession.coherent_iff, NativeSession.coherent_iff, h.defaults]
  simp only [h.cached]

/-- What agrees with a session agrees with it while it is untouched. -/
theorem Untouched.agrees_iff (h : s.Untouched s') (writes : PyDict String Value) :
    s'.Agrees writes ↔ s.Agrees writes := by
  unfold Agrees
  rw [h.defaults]
  simp only [h.cached]

theorem Announced.refl (s : NativeSession) : s.Announced s := .inr (Untouched.refl s)

/-- Two announced changes make one. -/
theorem Announced.trans (h : s.Announced s') (h' : s'.Announced s'') : s.Announced s'' := by
  rcases h' with hclear | hsame'
  · exact .inl hclear
  · rcases h with hclear | hsame
    · exact .inl (hsame'.cache.trans hclear)
    · exact .inr (hsame.trans hsame')

/-- An announced change does not fill an empty cache. -/
theorem Announced.cleared (h : s.Announced s') (hclear : s.selectedSnapshotCache = .empty) :
    s'.selectedSnapshotCache = .empty := by
  rcases h with hclear' | hsame
  · exact hclear'
  · exact hsame.cache.trans hclear

/-- An announced change keeps the cache coherent. -/
theorem Announced.coherent (h : s.Announced s') (hcoh : s.Coherent) : s'.Coherent := by
  rcases h with hclear | hsame
  · exact coherent_of_cleared hclear
  · exact hsame.coherent_iff.mpr hcoh

/-- Every setter that succeeds empties the cache. -/
theorem runSetter_cleared {setter : Setter} {value : Value} (h : s.runSetter lib setter value = .ok s') :
    s'.selectedSnapshotCache = .empty := by
  cases setter with
  | identifier =>
    unfold runSetter setClientIdentifier at h
    dsimp only at h
    split_ifs at h <;> cases h <;> rfl
  | headers => cases h; rfl
  | raw key => cases h; rfl
  | flag key => cases h; rfl
  | negatedFlag key => cases h; rfl

/-- The assignment of a property empties the cache. -/
theorem setAttr_cleared {name : String} {value : Value} (h : s.setAttr lib name value = .ok s')
    (hname : (properties.lookup name).isSome) : s'.selectedSnapshotCache = .empty := by
  obtain ⟨setter, hsetter⟩ := Option.isSome_iff_exists.mp hname
  unfold setAttr at h
  rw [hsetter] at h
  exact runSetter_cleared h

/-- The assignment of an attribute that is no property touches neither the defaults nor the cache. -/
theorem setAttr_untouched {name : String} {value : Value} (h : s.setAttr lib name value = .ok s')
    (hname : properties.lookup name = none) (hdefaults : name ≠ "defaults") : s.Untouched s' := by
  unfold setAttr at h
  rw [hname] at h
  dsimp only at h
  rw [if_neg hdefaults] at h
  cases h
  exact ⟨rfl, rfl, rfl, rfl⟩

/-- Only an assignment to `defaults` goes unannounced. -/
theorem setAttr_announced {name : String} {value : Value} (h : s.setAttr lib name value = .ok s')
    (hdefaults : name ≠ "defaults") : s.Announced s' := by
  cases hname : properties.lookup name with
  | some setter => exact .inl (setAttr_cleared h (by rw [hname]; rfl))
  | none => exact .inr (setAttr_untouched h hname hdefaults)

/-- The dict `defaults` is replaced as a whole, and the cache is not told. -/
theorem setAttr_defaults (s : NativeSession) (value : Value) :
    s.setAttr lib "defaults" value = .ok { s with defaults := value.asDict.getD s.defaults } := rfl

/-- A run of `_set_default` is announced. -/
theorem foldl_setDefault_announced (items : List (String × Value)) (s : NativeSession) :
    s.Announced (items.foldl (fun s item => s.setDefault item.1 item.2) s) := by
  induction items generalizing s with
  | nil => exact Announced.refl s
  | cons item items ih =>
    have hfirst : s.Announced (s.setDefault item.1 item.2) := .inl rfl
    exact hfirst.trans (ih _)

end NativeSession

namespace SessionObject

open NativeSession

variable {o o' : SessionObject} {lib : Library}

/-! ## The writes of a preset -/

/-- The settings that go to the session itself on every kind. -/
def Shared (name : String) : Prop :=
  (properties.lookup name).isSome ∧ isPrivate name = false ∧ name ∉ requestsAttributes

/-- An assignment goes to the session itself, or leaves it alone. -/
theorem setAttr_native {name : String} {value : Value} (h : o.setAttr lib name value = .ok o') :
    o'.kind = o.kind ∧
      (¬Shared name ∧ o'.native = o.native ∨ o.native.setAttr lib name value = .ok o'.native) := by
  unfold setAttr at h
  split at h
  · obtain ⟨native, hnative, rfl⟩ := Fallible.map_eq_ok_iff.mp h
    exact ⟨rfl, .inr hnative⟩
  · split_ifs at h with hprivate
    · cases h
      refine ⟨rfl, .inl ⟨fun hshared => ?_, rfl⟩⟩
      rw [hshared.2.1] at hprivate
      exact Bool.false_ne_true hprivate
    · obtain ⟨native, hnative, rfl⟩ := Fallible.map_eq_ok_iff.mp h
      exact ⟨rfl, .inr hnative⟩
  · split_ifs at h with hproperty
    · obtain ⟨native, hnative, rfl⟩ := Fallible.map_eq_ok_iff.mp h
      exact ⟨rfl, .inr hnative⟩
    · obtain ⟨native, hnative, rfl⟩ := Fallible.map_eq_ok_iff.mp h
      exact ⟨rfl, .inr hnative⟩
    · cases h
      exact ⟨rfl, .inl ⟨fun hshared => hproperty ⟨hshared.2.2, hshared.1⟩, rfl⟩⟩

/-- Whatever is assigned to a session object is announced, except `defaults`. -/
theorem setAttr_announced {name : String} {value : Value} (h : o.setAttr lib name value = .ok o')
    (hdefaults : name ≠ "defaults") : o.native.Announced o'.native := by
  rcases (setAttr_native h).2 with ⟨-, hsame⟩ | hnative
  · rw [hsame]
    exact Announced.refl _
  · exact NativeSession.setAttr_announced hnative hdefaults

/-- The assignment of an attribute that is no property leaves the session of any kind untouched. -/
theorem setAttr_untouched {name : String} {value : Value} (h : o.setAttr lib name value = .ok o')
    (hname : properties.lookup name = none) (hdefaults : name ≠ "defaults") :
    o.native.Untouched o'.native := by
  rcases (setAttr_native h).2 with ⟨-, hsame⟩ | hnative
  · rw [hsame]
    exact Untouched.refl _
  · exact NativeSession.setAttr_untouched hnative hname hdefaults

/-- The assignment of a shared property empties the cache of a session of any kind. -/
theorem setAttr_cleared {name : String} {value : Value} (h : o.setAttr lib name value = .ok o')
    (hname : Shared name) : o'.native.selectedSnapshotCache = .empty := by
  rcases (setAttr_native h).2 with ⟨hnot, -⟩ | hnative
  · exact absurd hname hnot
  · exact NativeSession.setAttr_cleared hnative hname.1

section AssignAll

variable {writes : List (String × Except PyError Value)}

/-- Assignments do not change the kind of the session. -/
theorem assignAll_kind (o : SessionObject) : (o.assignAll lib writes).1.kind = o.kind :=
  @Fallible.run_related _ _ _ _ (fun o o' : SessionObject => o'.kind = o.kind) o writes (fun _ => rfl)
    (fun _ _ _ h h' => h'.trans h) fun _ _ _ _ hset => by
      obtain ⟨value, -, hset⟩ := Fallible.bind_eq_ok_iff.mp hset
      exact (setAttr_native hset).1

/-- A list of assignments without `defaults` is announced. -/
theorem assignAll_announced (o : SessionObject) (hnames : ∀ write ∈ writes, write.1 ≠ "defaults") :
    o.native.Announced (o.assignAll lib writes).1.native :=
  @Fallible.run_related _ _ _ _ (fun o o' : SessionObject => o.native.Announced o'.native) o writes
    (fun _ => Announced.refl _) (fun _ _ _ h h' => h.trans h') fun _ write hwrite _ hset => by
      obtain ⟨value, -, hset⟩ := Fallible.bind_eq_ok_iff.mp hset
      exact setAttr_announced hset (hnames write hwrite)

/-- A list of assignments without properties leaves the session untouched. -/
theorem assignAll_untouched (o : SessionObject) (hnames : ∀ write ∈ writes, write.1 ≠ "defaults")
    (hinert : ∀ write ∈ writes, properties.lookup write.1 = none) :
    o.native.Untouched (o.assignAll lib writes).1.native :=
  @Fallible.run_related _ _ _ _ (fun o o' : SessionObject => o.native.Untouched o'.native) o writes
    (fun _ => Untouched.refl _) (fun _ _ _ h h' => h.trans h') fun _ write hwrite _ hset => by
      obtain ⟨value, -, hset⟩ := Fallible.bind_eq_ok_iff.mp hset
      exact setAttr_untouched hset (hinert write hwrite) (hnames write hwrite)

/-- A list of assignments with a shared property empties the cache, if all of them succeed. -/
theorem assignAll_cleared (hok : (o.assignAll lib writes).2 = .ok ())
    (hnames : ∀ write ∈ writes, write.1 ≠ "defaults") (hshared : ∃ write ∈ writes, Shared write.1) :
    (o.assignAll lib writes).1.native.selectedSnapshotCache = .empty := by
  obtain ⟨write, hwrite, hshared⟩ := hshared
  obtain ⟨o₁, o₂, hset, hrest⟩ :=
    @Fallible.exists_step_of_run_ok _ _ _ _ (fun o o' : SessionObject => o.native.Announced o'.native) o writes
      (fun _ => Announced.refl _) (fun _ _ _ h h' => h.trans h')
      (fun _ write hwrite _ hset => by
        obtain ⟨value, -, hset⟩ := Fallible.bind_eq_ok_iff.mp hset
        exact setAttr_announced hset (hnames write hwrite)) hok write hwrite
  obtain ⟨value, -, hset⟩ := Fallible.bind_eq_ok_iff.mp hset
  exact hrest.cleared (setAttr_cleared hset hshared)

end AssignAll

end SessionObject

/-- The preset sets one of the properties. -/
def SetsProperty (resolved : PyDict String Value) : Prop :=
  ∃ key ∈ propertyKeys, (truthyItem resolved key.1).isSome

section Writes

variable {resolved : PyDict String Value} {write : String × Except PyError Value}

/-- The write for the random order is that of one property, with a flag. -/
theorem of_mem_randomOrderWrites (hwrite : write ∈ randomOrderWrites resolved) :
    write.1 = "with_random_tls_extension_order" ∧ ∃ b, write.2 = .ok (.bool b) := by
  unfold randomOrderWrites at hwrite
  split at hwrite
  · exact absurd hwrite List.not_mem_nil
  · rw [List.mem_singleton.mp hwrite]
    exact ⟨rfl, _, rfl⟩

/-- A write of `apply` is the one for the random order, or that of a key with a value that is not empty. -/
theorem mem_propertyWrites (hwrite : write ∈ propertyWrites resolved) :
    write ∈ randomOrderWrites resolved ∨
      ∃ key ∈ propertyKeys, write.1 = key.1 ∧ (truthyItem resolved key.1).isSome := by
  refine (List.mem_append.mp hwrite).imp_right fun hwrite => ?_
  obtain ⟨key, hkey, hmap⟩ := List.mem_filterMap.mp hwrite
  obtain ⟨value, hvalue, rfl⟩ := Option.map_eq_some_iff.mp hmap
  exact ⟨key, hkey, rfl, by rw [hvalue]; rfl⟩

/-- `apply` never assigns `defaults`. -/
theorem propertyWrites_ne_defaults : ∀ write ∈ propertyWrites resolved, write.1 ≠ "defaults" := by
  intro write hwrite
  have hkeys : ∀ key ∈ propertyKeys, key.1 ≠ "defaults" := by decide
  rcases mem_propertyWrites hwrite with hwrite | ⟨key, hkey, hname, -⟩
  · rw [(of_mem_randomOrderWrites hwrite).1]
    decide
  · rw [hname]
    exact hkeys key hkey

/-- A preset that sets a property has a write of a shared one. -/
theorem exists_shared_of_setsProperty (hsets : SetsProperty resolved) :
    ∃ write ∈ propertyWrites resolved, SessionObject.Shared write.1 := by
  have hshared : ∀ key ∈ propertyKeys, SessionObject.Shared key.1 := by
    unfold SessionObject.Shared
    decide +kernel
  obtain ⟨key, hkey, hsome⟩ := hsets
  obtain ⟨value, hvalue⟩ := Option.isSome_iff_exists.mp hsome
  refine ⟨(key.1, key.2 value), List.mem_append_right _ (List.mem_filterMap.mpr ⟨key, hkey, ?_⟩), ?_⟩
  · rw [hvalue]
    rfl
  · exact hshared key hkey

/-- Without a property only the switch is set, and that is none. -/
theorem propertyWrites_inert (hsets : ¬SetsProperty resolved) (hwrite : write ∈ propertyWrites resolved) :
    properties.lookup write.1 = none ∧ ∃ b, write.2 = .ok (.bool b) := by
  rcases mem_propertyWrites hwrite with hwrite | ⟨key, hkey, -, hsome⟩
  · obtain ⟨hname, hvalue⟩ := of_mem_randomOrderWrites hwrite
    rw [hname]
    exact ⟨by decide, hvalue⟩
  · exact absurd ⟨key, hkey, hsome⟩ hsets

end Writes

namespace SessionObject

open NativeSession

variable {o : SessionObject} {lib : Library}

/-- The assignment of an attribute that is no property never fails. -/
theorem exists_setAttr (o : SessionObject) {name : String} (hname : properties.lookup name = none)
    (value : Value) : ∃ o', o.setAttr lib name value = .ok o' := by
  have hnative : ∃ s, o.native.setAttr lib name value = .ok s := by
    unfold NativeSession.setAttr
    rw [hname]
    dsimp only
    split_ifs <;> exact ⟨_, rfl⟩
  obtain ⟨s, hs⟩ := hnative
  unfold setAttr
  rw [hs]
  split
  · exact ⟨_, rfl⟩
  · split_ifs <;> exact ⟨_, rfl⟩
  · split_ifs <;> exact ⟨_, rfl⟩

/-- A private attribute leaves the session untouched. -/
theorem setPrivate_untouched (o : SessionObject) (name : String) (value : Value) :
    o.native.Untouched (o.setPrivate name value).native := by
  unfold setPrivate
  split
  · exact ⟨rfl, rfl, rfl, rfl⟩
  · exact Untouched.refl _

/-- A session that shows `_set_default` has its writes announced. -/
theorem writeDefaults_announced (hkind : o.kind ≠ .asyncSession) (writes : PyDict String Value) :
    o.native.Announced (o.writeDefaults writes).native := by
  unfold writeDefaults
  split
  · exact absurd ‹_› hkind
  · exact foldl_setDefault_announced writes.items o.native

/-- On an `AsyncSession` the keys go into the dict, and nothing else changes. -/
theorem writeDefaults_async (hkind : o.kind = .asyncSession) (writes : PyDict String Value) :
    (o.writeDefaults writes).native = { o.native with defaults := o.native.defaults.update writes } := by
  rw [writeDefaults, hkind]
  rfl

/-- An `AsyncSession` shows all keys of its defaults. -/
theorem exposedKeys_async (hkind : o.kind = .asyncSession) : o.exposedKeys = o.native.defaults.keys := by
  rw [exposedKeys, ownDefaults, hkind]

/-- The record of the preset leaves the session untouched. -/
theorem record_untouched (o : SessionObject) (name : String) (resolved : PyDict String Value) :
    o.native.Untouched (o.record name resolved).native :=
  ((setPrivate_untouched _ _ _).trans (setPrivate_untouched _ _ _)).trans (setPrivate_untouched _ _ _)

/-- After the properties went through, the keys are written and the templates recorded. -/
theorem applyResolved_of_ok (name : String) {resolved : PyDict String Value}
    (hok : (o.assignAll lib (propertyWrites resolved)).2 = .ok ()) :
    o.applyResolved lib name resolved =
      (((o.assignAll lib (propertyWrites resolved)).1.writeDefaults
        (fingerprintWrites resolved (o.assignAll lib (propertyWrites resolved)).1.exposedKeys)).record name resolved,
        .ok ()) := by
  unfold applyResolved
  generalize o.assignAll lib (propertyWrites resolved) = result at hok ⊢
  obtain ⟨o', result⟩ := result
  obtain rfl : result = .ok () := hok
  rfl

/-- Where an assignment raises, the preset ends there. -/
theorem applyResolved_of_error (name : String) {resolved : PyDict String Value} {e : PyError}
    (herror : (o.assignAll lib (propertyWrites resolved)).2 = .error e) :
    o.applyResolved lib name resolved = ((o.assignAll lib (propertyWrites resolved)).1, .error e) := by
  unfold applyResolved
  generalize o.assignAll lib (propertyWrites resolved) = result at herror ⊢
  obtain ⟨o', result⟩ := result
  obtain rfl : result = .error e := herror
  rfl

/-- A preset stays unseen only where it writes nothing but keys through an `AsyncSession`, and a kept snapshot
has other values for them. -/
theorem coherent_applyResolved_iff (hcoh : o.native.Coherent) (name : String) (resolved : PyDict String Value) :
    (o.applyResolved lib name resolved).1.native.Coherent ↔
      (o.kind = .asyncSession → ¬SetsProperty resolved →
        o.native.Agrees (fingerprintWrites resolved o.native.defaults.keys)) := by
  have hassign : o.native.Announced (o.assignAll lib (propertyWrites resolved)).1.native :=
    assignAll_announced o propertyWrites_ne_defaults
  have hkept := @assignAll_kind lib (propertyWrites resolved) o
  by_cases hhidden : o.kind = .asyncSession ∧ ¬SetsProperty resolved
  · -- only the dict is written to
    obtain ⟨hkind, hsets⟩ := hhidden
    have hinert := fun write hwrite => @propertyWrites_inert resolved write hsets hwrite
    have hok : (o.assignAll lib (propertyWrites resolved)).2 = .ok () := by
      refine Fallible.run_ok fun o write hwrite => ?_
      obtain ⟨hname, b, hvalue⟩ := hinert write hwrite
      rw [hvalue]
      exact exists_setAttr o hname (.bool b)
    have hsame : o.native.Untouched (o.assignAll lib (propertyWrites resolved)).1.native :=
      assignAll_untouched o propertyWrites_ne_defaults fun write hwrite => (hinert write hwrite).1
    rw [applyResolved_of_ok name hok, (record_untouched _ _ _).coherent_iff, exposedKeys_async (hkept.trans hkind),
      writeDefaults_async (hkept.trans hkind), coherent_update_iff (hsame.coherent_iff.mpr hcoh),
      hsame.agrees_iff, hsame.defaults]
    exact ⟨fun h _ _ => h, fun h => h hkind hsets⟩
  · refine iff_of_true ?_ fun hkind hsets => absurd ⟨hkind, hsets⟩ hhidden
    cases hresult : (o.assignAll lib (propertyWrites resolved)).2 with
    | error e =>
      rw [applyResolved_of_error name hresult]
      exact hassign.coherent hcoh
    | ok =>
      rw [applyResolved_of_ok name hresult, (record_untouched _ _ _).coherent_iff]
      by_cases hkind : o.kind = .asyncSession
      · -- the properties have dropped the snapshots before
        have hsets : SetsProperty resolved := by
          by_contra hsets
          exact hhidden ⟨hkind, hsets⟩
        rw [writeDefaults_async (hkept.trans hkind)]
        exact coherent_of_cleared
          (assignAll_cleared hresult propertyWrites_ne_defaults (exists_shared_of_setsProperty hsets))
      · have hkind' : (o.assignAll lib (propertyWrites resolved)).1.kind ≠ .asyncSession :=
          fun h => hkind (hkept.symm.trans h)
        exact (hassign.trans (writeDefaults_announced hkind' _)).coherent hcoh

/-! ## Runs -/

/-- A name that does not begin with `_`. -/
abbrev PublicName := { name : String // isPrivate name = false }

/-- What happens to a session: `session.name = value`, `session.defaults[key] = value`, `apply(session, name)`
with the presets registered at that time, and a request. -/
inductive Action where
  | assign (name : PublicName) (value : Value)
  | setItem (key : String) (value : Value)
  | apply (r : Registry) (name : String)
  | request (path : RequestPath)

def step (lib : Library) (o : SessionObject) : Action → SessionObject
  | .assign name value =>
    match o.setAttr lib name value with
    | .ok o => o
    | .error _ => o
  | .setItem key value => o.setItem key value
  | .apply r name => (o.apply lib r name).1
  | .request path => o.withNative (o.native.snapshotSelectedDefaults path).2

/-- The next request sees what the action writes. An assignment to `defaults`, a write into it and the keys of a
preset that comes through an `AsyncSession` without a property are seen if no snapshot is kept that has other
values. -/
def Visible (o : SessionObject) : Action → Prop
  | .assign name value => name.1 = "defaults" → o.kind ≠ .compatSession → ∀ d, value.asDict = some d →
      ∀ path, (o.native.cached path).isSome → ∀ key ∈ path.keys, d.get key = o.native.defaults.get key
  | .setItem key value => o.ownDefaults = none → o.native.Agrees (PyDict.empty.set key value)
  | .apply r name => o.kind = .asyncSession → ∀ resolved, r.resolve name = .ok resolved →
      ¬SetsProperty resolved → o.native.Agrees (fingerprintWrites resolved o.native.defaults.keys)
  | .request _ => True

/-- An assignment keeps the cache coherent exactly if it is visible. -/
theorem coherent_assign_iff (hcoh : o.native.Coherent) (name : PublicName) (value : Value) :
    (step lib o (.assign name value)).native.Coherent ↔ Visible o (.assign name value) := by
  unfold step Visible
  dsimp only
  by_cases hname : name.1 = "defaults"
  · by_cases hkind : o.kind = .compatSession
    · -- the compatibility session gets an attribute of its own
      have hset : o.setAttr lib name value = .ok (o.setOwn name value) := by
        rw [setAttr, hkind, hname]
        rfl
      rw [hset]
      exact iff_of_true hcoh fun _ hcompat => absurd hkind hcompat
    · have hset : o.setAttr lib name value =
          .ok (o.withNative { o.native with defaults := value.asDict.getD o.native.defaults }) := by
        rw [setAttr, hname, NativeSession.setAttr_defaults]
        split
        · rfl
        · rfl
        · exact absurd ‹_› hkind
      rw [hset]
      cases value.asDict with
      | none => exact iff_of_true hcoh fun _ _ d hd => by cases hd
      | some d =>
        refine (coherent_replace_iff hcoh d).trans ⟨fun h _ _ d' hd => ?_, fun h => h hname hkind d rfl⟩
        exact Option.some.inj hd ▸ h
  · refine iff_of_true ?_ fun h => absurd h hname
    cases hset : o.setAttr lib name value with
    | error e => exact hcoh
    | ok o' => exact (setAttr_announced hset hname).coherent hcoh

/-- An item written into `defaults` keeps the cache coherent exactly if it is visible. -/
theorem coherent_setItem_iff (hcoh : o.native.Coherent) (key : String) (value : Value) :
    (step lib o (.setItem key value)).native.Coherent ↔ Visible o (.setItem key value) := by
  unfold step Visible setItem
  dsimp only
  cases o.ownDefaults with
  | some own =>
    refine iff_of_true ?_ fun h => by cases h
    split <;> first | exact hcoh | contradiction
  | none => exact (coherent_update_iff hcoh (PyDict.empty.set key value)).trans ⟨fun h _ => h, fun h => h rfl⟩

/-- A preset keeps the cache coherent exactly if it is visible. -/
theorem coherent_apply_iff (hcoh : o.native.Coherent) (r : Registry) (name : String) :
    (step lib o (.apply r name)).native.Coherent ↔ Visible o (.apply r name) := by
  unfold step Visible apply
  dsimp only
  cases r.resolve name with
  | error e => exact iff_of_true hcoh fun _ resolved h => by cases h
  | ok resolved =>
    refine (coherent_applyResolved_iff hcoh name resolved).trans ⟨fun h hkind resolved' hres => ?_, fun h hkind => ?_⟩
    · obtain rfl := Except.ok.inj hres
      exact h hkind
    · exact h hkind resolved rfl

/-- Taking a snapshot keeps the cache coherent. -/
theorem coherent_snapshot {s : NativeSession} (hcoh : s.Coherent) (path : RequestPath) :
    (s.snapshotSelectedDefaults path).2.Coherent := by
  rw [NativeSession.coherent_iff]
  intro path' snapshot
  unfold snapshotSelectedDefaults
  cases hcached : s.cached path with
  | some kept => exact NativeSession.coherent_iff.mp hcoh path' snapshot
  | none =>
    dsimp only
    by_cases hpath : path' = path
    · -- the snapshot that was just taken
      intro hnew
      rw [NativeSession.cached, hpath, PyDict.get_set_self, Option.filter_some,
        if_pos (by exact decide_eq_true rfl)] at hnew
      rw [hpath]
      exact (Option.some.inj hnew).symm
    · intro hold
      rw [NativeSession.cached, PyDict.get_set_of_ne _ _ hpath] at hold
      exact NativeSession.coherent_iff.mp hcoh path' snapshot hold

/-- A step keeps the requests reading the current defaults exactly if it is visible. -/
theorem coherent_step_iff (lib : Library) (o : SessionObject) (a : Action) (hcoh : o.native.Coherent) :
    (step lib o a).native.Coherent ↔ Visible o a := by
  cases a with
  | assign name value => exact coherent_assign_iff hcoh name value
  | setItem key value => exact coherent_setItem_iff hcoh key value
  | apply r name => exact coherent_apply_iff hcoh r name
  | request path => exact iff_of_true (coherent_snapshot hcoh path) trivial

/-- A new session has an empty cache. -/
theorem init_cleared {arguments : PyDict String Value} {native : NativeSession}
    (hinit : NativeSession.init lib arguments = .ok native) : native.selectedSnapshotCache = .empty := by
  unfold NativeSession.init at hinit
  dsimp only at hinit
  split_ifs at hinit
  rw [← Except.ok.inj hinit]

/-- A new session is coherent, with a preset or without. -/
theorem coherent_init {r : Registry} {kind : SessionKind} {arguments : PyDict String Value}
    (hinit : init lib r kind arguments = .ok o) : o.native.Coherent := by
  obtain ⟨native, hnative, hinit⟩ := Fallible.bind_eq_ok_iff.mp hinit
  have hclear := init_cleared hnative
  split at hinit
  · rw [← Except.ok.inj hinit]
    exact coherent_of_cleared hclear
  · rename_i name hname
    obtain ⟨resolved, -, rfl⟩ := Fallible.map_eq_ok_iff.mp hinit
    exact (coherent_apply_iff (coherent_of_cleared hclear) r name).mpr fun hkind => by cases hkind
  · contradiction

/-- In every state of a run every request reads the current defaults, exactly if each action of it is visible. -/
theorem coherent_iff_visible (lib : Library) (r : Registry) (kind : SessionKind)
    (arguments : PyDict String Value) (o : SessionObject) (hinit : init lib r kind arguments = .ok o)
    (actions : List Action) :
    (∀ before, before <+: actions → (Run.exec (step lib) o before).native.Coherent) ↔
      Run.Along (step lib) Visible o actions :=
  Run.forall_prefix_iff_along (fun o a hcoh => coherent_step_iff lib o a hcoh) (coherent_init hinit)

/-! ## A session without arguments -/

/-- A library of ABI 3 that supports two identifiers. -/
def plainLibrary : Library where
  defaultHeadersTable id := if id ∈ ["chrome_120", "firefox_148"] then some .empty else none
  abiVersion := 3

def plainSession (kind : SessionKind) : SessionObject where
  kind := kind
  native := { defaults := PyDict.empty.setAll (NativeSession.initialItems plainLibrary .empty) }

theorem init_plain (kind : SessionKind) : init plainLibrary .empty kind .empty = .ok (plainSession kind) := rfl

/-- A property assigned through an `AsyncSession` is seen by the next request. -/
theorem assign_visible :
    (Run.exec (step plainLibrary) (plainSession .asyncSession)
      [.request .async, .assign ⟨"tcp_ttl", by decide⟩ (.int 64), .request .async]).native.Coherent :=
  (coherent_iff_visible plainLibrary .empty .asyncSession .empty _ (init_plain _)
    [.request .async, .assign ⟨"tcp_ttl", by decide⟩ (.int 64), .request .async]).mpr
    ⟨trivial, fun h => absurd h (by decide), trivial, trivial⟩ _ List.prefix_rfl

def tcpPreset : Layer where
  name := "tcp"
  items := (PyDict.empty.set "name" (.str "tcp")).set "tcp_ttl" (.int 64)
  name_eq := rfl

/-- After a request a preset of one TCP key, applied to an `AsyncSession`, is not seen. -/
theorem tcpPreset_not_seen :
    ¬ ∀ (lib : Library) (r : Registry) (kind : SessionKind) (arguments : PyDict String Value)
      (o : SessionObject), init lib r kind arguments = .ok o →
      ∀ actions, (Run.exec (step lib) o actions).native.Coherent := by
  intro hall
  have hrequest : (step plainLibrary (plainSession .asyncSession) (.request .async)).native.Coherent :=
    coherent_snapshot (coherent_init (init_plain _)) .async
  have hafter := hall plainLibrary .empty .asyncSession .empty _ (init_plain _)
    [.request .async, .apply (.single tcpPreset) "tcp"]
  have hvisible := (coherent_apply_iff hrequest (.single tcpPreset) "tcp").mp hafter
  have hagrees := hvisible rfl _ (Registry.resolve_single rfl) (by unfold SetsProperty; decide)
  have hvalue := hagrees .async rfl ("tcp_ttl", .int 64) ((PyDict.mem_tabulate _ _ _).mpr ⟨by decide, rfl⟩)
    (by decide)
  have hdefault : (plainSession .asyncSession).native.defaults.get "tcp_ttl" = some (.int 0) := rfl
  cases hdefault.symm.trans hvalue

end SessionObject

end TlsClient.Python
