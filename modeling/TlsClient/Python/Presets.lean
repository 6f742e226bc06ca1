import TlsClient.Python.Attributes
import TlsClient.Library.Fallible
import Mathlib.Data.List.Sort

/-!
# Fingerprint presets

Embeds `src/tls_client/fingerprints/registry.py`. `resolve` flattens a preset with the ones it is based on, and
`apply` writes the result to a session: five settings by their properties, the TCP and ABI 3 keys into
`defaults`, and the header templates as attributes of the object that it is given.

An `AsyncSession` does not show `_set_default`, so there the keys go into the dict itself.
-/

namespace TlsClient.Python

/-! ## The registry -/

/-- A registered preset. -/
structure Layer where
  name : String
  items : PyDict String Value
  name_eq : items.get "name" = some (.str name)

/-- `parent` of `layer.get("based_on")`, if it is not empty. -/
def Layer.basedOn (layer : Layer) : Option String :=
  ((layer.items.get "based_on").bind Value.asStr).filter (· ≠ "")

/-- `_PRESETS`: every preset is under its name. -/
structure Registry where
  presets : PyDict String Layer
  named : ∀ item ∈ presets.items, item.2.name = item.1

namespace Registry

def empty : Registry := ⟨.empty, fun _ hitem => absurd hitem List.not_mem_nil⟩

/-- A registry with one preset. -/
def single (preset : Layer) : Registry where
  presets := PyDict.empty.set preset.name preset
  named := by
    intro item hitem
    rcases (PyDict.mem_set _ _ _ item).mp hitem with rfl | ⟨hmem, -⟩
    · rfl
    · exact absurd hmem List.not_mem_nil

/-- `register`. -/
def register (r : Registry) (preset : Layer) (strict : Bool := false) : Except PyError Registry :=
  if strict ∧ preset.name ∈ r.presets.keys then
    .error (.valueError "preset %r already registered" [preset.name])
  else .ok
    { presets := r.presets.set preset.name preset
      named := by
        intro item hitem
        rcases (PyDict.mem_set r.presets _ _ item).mp hitem with rfl | ⟨hmem, -⟩
        · rfl
        · exact r.named item hmem }

/-- `list_presets`. -/
def listPresets (r : Registry) : List String :=
  r.presets.keys.mergeSort fun a b => decide (a ≤ b)

/-! ## Flattening -/

/-- The presets from one down to the last that it is based on; `unseen` has the names that are not in `seen`. -/
def chain (r : Registry) (unseen : List String) (current : Layer) : Except PyError (List Layer) :=
  if current.name ∈ unseen then
    match current.basedOn.bind r.presets.get with
    | some parent => do return current :: (← chain r (unseen.erase current.name) parent)
    | none => .ok [current]
  else .error (.valueError "based_on cycle at %r" [current.name])
termination_by unseen.length
decreasing_by
  rw [List.length_erase_of_mem ‹_›]
  exact Nat.sub_lt (List.length_pos_of_mem ‹_›) Nat.one_pos

/-- A value over the one of the layers below: dicts are merged, everything else replaces. -/
def mergeValue : Option Value → Value → Value
  | some (.dict base), .dict items =>
    .dict (items.foldl (fun base item => PyDict.setItems item.1 item.2 base) base)
  | _, value => value

def mergeLayer (resolved : PyDict String Value) (layer : Layer) : PyDict String Value :=
  (layer.items.items.filter fun item => item.1 ≠ "based_on").foldl
    (fun resolved item => resolved.set item.1 (mergeValue (resolved.get item.1) item.2)) resolved

/-- `d.setdefault(key, value)`. -/
def setDefaultItem (d : PyDict String Value) (key : String) (value : Value) : PyDict String Value :=
  if key ∈ d.keys then d else d.set key value

/-- What `resolve` makes of the layers, the last of them the one that has no other below. -/
def flatten (name : String) (layers : List Layer) : PyDict String Value :=
  let resolved := layers.reverse.foldl mergeLayer .empty
  let resolved := setDefaultItem resolved "name" (.str name)
  let resolved := setDefaultItem resolved "browser" (.str "chrome")
  let resolved := setDefaultItem resolved "custom_tls_client" .none
  setDefaultItem resolved "with_random_tls_extension_order" (.bool true)

/-- `resolve`. -/
def resolve (r : Registry) (name : String) : Except PyError (PyDict String Value) :=
  match r.presets.get name with
  | none =>
    .error (.valueError "unknown fingerprint preset %r; available: %s" [name, ", ".intercalate r.listPresets])
  | some raw => (r.chain r.presets.keys raw).map (flatten name)

theorem resolve_single {preset : Layer} (hbase : preset.basedOn = none) :
    (single preset).resolve preset.name = .ok (flatten preset.name [preset]) := by
  have hget : (single preset).presets.get preset.name = some preset := PyDict.get_set_self _ _ _
  have hchain : (single preset).chain (single preset).presets.keys preset = .ok [preset] := by
    rw [chain, if_pos (by simp [single]), hbase]
    rfl
  rw [resolve, hget]
  dsimp only
  rw [hchain]
  rfl

end Registry

/-! ## Applying -/

/-- `list(v)`. -/
def copyList : Value → Except PyError Value
  | .list items => .ok (.list items)
  | .tuple items => .ok (.list items)
  | .str s => .ok (.list (s.toList.map fun c => .str (String.singleton c)))
  | .bytes b => .ok (.list (b.map fun x => .int x.toNat))
  | .dict items => .ok (.list (items.map fun item => .str item.1))
  | _ => .error .typeError

/-- An element of the sequence that `dict(v)` takes for a key and its value. -/
def pairOf : Value → Option (String × Value)
  | .list [.str key, value] => some (key, value)
  | .tuple [.str key, value] => some (key, value)
  | .dict [(key, _), (value, _)] => some (key, .str value)
  | .str s =>
    match s.toList with
    | [key, value] => some (String.singleton key, .str (String.singleton value))
    | _ => none
  | _ => none

/-- `dict(v)`; what it raises is one error here. -/
def copyDict : Value → Except PyError Value
  | .dict items => .ok (.dict items)
  | .list items =>
    match items.mapM pairOf with
    | some pairs => .ok (.dict (PyDict.empty.setAll pairs).items)
    | none => .error .typeError
  | .tuple items =>
    match items.mapM pairOf with
    | some pairs => .ok (.dict (PyDict.empty.setAll pairs).items)
    | none => .error .typeError
  | _ => .error .typeError

/-- The keys that `apply` writes by a property if their value is true, each with the copy it makes. -/
def propertyKeys : List (String × (Value → Except PyError Value)) :=
  [("client_identifier", .ok), ("pseudo_header_order", copyList), ("h3_pseudo_header_order", copyList),
    ("default_headers", copyDict), ("custom_tls_client", copyDict)]

/-- The value of a key, if it is there and true. -/
def truthyItem (resolved : PyDict String Value) (key : String) : Option Value :=
  (resolved.get key).filter Value.truthy

/-- The switch goes to the attribute under its own name. -/
def randomOrderWrites (resolved : PyDict String Value) : List (String × Except PyError Value) :=
  match (resolved.get "with_random_tls_extension_order").getD .none with
  | .none => []
  | v => [("with_random_tls_extension_order", .ok (.bool v.truthy))]

/-- The attributes that `apply` sets first, in its order. -/
def propertyWrites (resolved : PyDict String Value) : List (String × Except PyError Value) :=
  randomOrderWrites resolved ++
    propertyKeys.filterMap fun key => (truthyItem resolved key.1).map fun v => (key.1, key.2 v)

/-- `_fp_keys`. -/
def fpKeys : List String :=
  ["tcp_ttl", "tcp_window_size", "tcp_window_scale", "tcp_mss", "extension_permute_mode",
    "extension_permute_prefix", "h2_disable_priority_frames", "header_order_by_dest", "header_order_dest",
    "tcp_dont_fragment", "tcp_tos", "tcp_no_delay", "tcp_window_clamp", "tcp_ip_id_mode"]

/-- `_bool_keys`. -/
def boolKeys : List String :=
  ["h2_disable_priority_frames", "header_order_by_dest"]

/-- The keys that are in the preset and in the defaults, with the values to write. -/
def fingerprintWrites (resolved : PyDict String Value) (exposed : List String) : PyDict String Value :=
  .tabulate fpKeys (by decide) fun key =>
    if key ∈ exposed then (resolved.get key).map fun v => if key ∈ boolKeys then asFlag v else v else none

namespace SessionObject

/-- Assignments one after the other, up to the first that raises. -/
def assignAll (lib : Library) (o : SessionObject) (writes : List (String × Except PyError Value)) :
    SessionObject × Except PyError Unit :=
  Fallible.run (fun o write => write.2.bind (o.setAttr lib write.1)) o writes

/-- The loop over `_fp_keys`. An `AsyncSession` raises `AttributeError` for `_set_default`; a compatibility
session hands out the one of its native session. -/
def writeDefaults (o : SessionObject) (writes : PyDict String Value) : SessionObject :=
  match o.kind with
  | .asyncSession => o.withNative { o.native with defaults := o.native.defaults.update writes }
  | _ => o.withNative (writes.items.foldl (fun s item => s.setDefault item.1 item.2) o.native)

/-- An assignment to a name that is no property and begins with `_`. -/
def setPrivate (o : SessionObject) (name : String) (value : Value) : SessionObject :=
  match o.kind with
  | .session => o.withNative { o.native with attributes := o.native.attributes.set name value }
  | _ => o.setOwn name value

/-- The last three assignments of `apply`. -/
def record (o : SessionObject) (name : String) (resolved : PyDict String Value) : SessionObject :=
  let o := o.setPrivate "_fingerprint_header_order" ((resolved.get "header_order").getD .none)
  let o := o.setPrivate "_fingerprint_header_order_xhr" ((resolved.get "header_order_xhr").getD .none)
  o.setPrivate "_fingerprint_preset" (.str name)

/-- `apply`, from the resolved preset on. -/
def applyResolved (lib : Library) (o : SessionObject) (name : String) (resolved : PyDict String Value) :
    SessionObject × Except PyError Unit :=
  match o.assignAll lib (propertyWrites resolved) with
  | (o, .error e) => (o, .error e)
  | (o, .ok ()) => ((o.writeDefaults (fingerprintWrites resolved o.exposedKeys)).record name resolved, .ok ())

/-- `apply`. -/
def apply (lib : Library) (r : Registry) (o : SessionObject) (name : String) :
    SessionObject × Except PyError (PyDict String Value) :=
  match r.resolve name with
  | .error e => (o, .error e)
  | .ok resolved =>
    let (o, result) := o.applyResolved lib name resolved
    (o, result.map fun _ => resolved)

/-- `Session.__init__`, and what `AsyncSession.__init__` makes of it: the preset is applied to the session
itself. -/
def init (lib : Library) (r : Registry) (kind : SessionKind) (arguments : PyDict String Value) :
    Except PyError SessionObject := do
  let native ← NativeSession.init lib arguments
  match (arguments.get "fingerprint").getD .none with
  | .none => return { kind := kind, native := native }
  | .str name =>
    let (applied, result) := apply lib r { kind := .session, native := native } name
    result.map fun _ => { kind := kind, native := applied.native }
  -- the text shows the value and the list of the presets
  | _ => .error (.valueError "unknown fingerprint preset %r; available: %s")

end SessionObject

end TlsClient.Python
