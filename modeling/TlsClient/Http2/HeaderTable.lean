import Mathlib.Data.UInt
import TlsClient.Library.QueueIndex
import TlsClient.Library.Run
import TlsClient.Library.Utf8
import TlsClient.Library.WireBytes

/-!
# The header tables of HPACK

Embeds `tables.go` and the dynamic table of `hpack.go` in `src/third_party/fhttp/http2/hpack`. A table is a
queue of header fields, the oldest one first. Two maps find the newest field with a name, or with a name and a
value, by an id that stays the same while older fields are evicted.

`searchDynamic_eq_scan` says that the maps find what going through the table from its newest field on finds,
after any run of additions and changes of the size.
-/

open WireBytes (Bytes)
open QueueIndex Utf8

namespace TlsClient.Http2

structure HeaderField where
  name : Bytes
  value : Bytes
  sensitive : Bool
  deriving DecidableEq, Repr

/-- `HeaderField.Size` -/
def HeaderField.size (f : HeaderField) : UInt32 := UInt32.ofNat (f.name.length + f.value.length + 32)

/-- `byName` and `byNameValue` have zero, which is no id, for the keys that are not in the map. -/
structure HeaderFieldTable where
  ents : List HeaderField
  evictCount : ℕ
  byName : Bytes → ℕ
  byNameValue : Bytes × Bytes → ℕ

/-- The key of `byNameValue` -/
def HeaderField.pair (f : HeaderField) : Bytes × Bytes := (f.name, f.value)

namespace HeaderFieldTable

def init : HeaderFieldTable := { ents := [], evictCount := 0, byName := fun _ => 0, byNameValue := fun _ => 0 }

def addEntry (t : HeaderFieldTable) (f : HeaderField) : HeaderFieldTable :=
  let id := t.ents.length + t.evictCount + 1
  { t with
    byName := Function.update t.byName f.name id
    byNameValue := Function.update t.byNameValue f.pair id
    ents := t.ents ++ [f] }

/-- The body of the loop in `evictOldest`, for the field with the id `id`. -/
def forgetEntry (t : HeaderFieldTable) (f : HeaderField) (id : ℕ) : HeaderFieldTable :=
  { t with
    byName := if t.byName f.name = id then Function.update t.byName f.name 0 else t.byName
    byNameValue := if t.byNameValue f.pair = id then Function.update t.byNameValue f.pair 0 else t.byNameValue }

def forgetEntries (t : HeaderFieldTable) (id : ℕ) : List HeaderField → HeaderFieldTable
  | [] => t
  | f :: fs => forgetEntries (t.forgetEntry f id) (id + 1) fs

/-- `evictOldest` panics before it changes anything. -/
def evictOldestPanics (t : HeaderFieldTable) (n : ℕ) : Prop := t.ents.length < n

/-- `evictOldest`, where it does not panic. -/
def evictOldest (t : HeaderFieldTable) (n : ℕ) : HeaderFieldTable :=
  let t' := t.forgetEntries (t.evictCount + 1) (t.ents.take n)
  { t' with ents := t.ents.drop n, evictCount := t.evictCount + n }

/-- `idToIndex` panics: the field with the id has been evicted. -/
def idToIndexPanics (t : HeaderFieldTable) (id : ℕ) : Prop := id ≤ t.evictCount

/-- `idToIndex`, where it does not panic. The static table counts from its first field on, a dynamic one from
its newest. -/
def idToIndex (t : HeaderFieldTable) (isStatic : Bool) (id : ℕ) : ℕ :=
  let k := id - t.evictCount - 1
  if isStatic then k + 1 else t.ents.length - k

def search (t : HeaderFieldTable) (isStatic : Bool) (f : HeaderField) : ℕ × Bool :=
  if f.sensitive = false ∧ t.byNameValue f.pair ≠ 0 then (t.idToIndex isStatic (t.byNameValue f.pair), true)
  else if t.byName f.name ≠ 0 then (t.idToIndex isStatic (t.byName f.name), false)
  else (0, false)

end HeaderFieldTable

/-! ## The static table -/

def staticField (name value : Bytes) : HeaderField := { name, value, sensitive := false }

def staticTableEntries : List HeaderField :=
  [staticField (utf8 ":authority") [], staticField (utf8 ":method") (utf8 "GET"),
    staticField (utf8 ":method") (utf8 "POST"), staticField (utf8 ":path") (utf8 "/"),
    staticField (utf8 ":path") (utf8 "/index.html"), staticField (utf8 ":scheme") (utf8 "http"),
    staticField (utf8 ":scheme") (utf8 "https"), staticField (utf8 ":status") (utf8 "200"),
    staticField (utf8 ":status") (utf8 "204"), staticField (utf8 ":status") (utf8 "206"),
    staticField (utf8 ":status") (utf8 "304"), staticField (utf8 ":status") (utf8 "400"),
    staticField (utf8 ":status") (utf8 "404"), staticField (utf8 ":status") (utf8 "500"),
    staticField (utf8 "accept-charset") [], staticField (utf8 "accept-encoding") (utf8 "gzip, deflate"),
    staticField (utf8 "accept-language") [], staticField (utf8 "accept-ranges") [],
    staticField (utf8 "accept") [], staticField (utf8 "access-control-allow-origin") [],
    staticField (utf8 "age") [], staticField (utf8 "allow") [], staticField (utf8 "authorization") [],
    staticField (utf8 "cache-control") [], staticField (utf8 "content-disposition") [],
    staticField (utf8 "content-encoding") [], staticField (utf8 "content-language") [],
    staticField (utf8 "content-length") [], staticField (utf8 "content-location") [],
    staticField (utf8 "content-range") [], staticField (utf8 "content-type") [],
    staticField (utf8 "cookie") [], staticField (utf8 "date") [], staticField (utf8 "etag") [],
    staticField (utf8 "expect") [], staticField (utf8 "expires") [], staticField (utf8 "from") [],
    staticField (utf8 "host") [], staticField (utf8 "if-match") [],
    staticField (utf8 "if-modified-since") [], staticField (utf8 "if-none-match") [],
    staticField (utf8 "if-range") [], staticField (utf8 "if-unmodified-since") [],
    staticField (utf8 "last-modified") [], staticField (utf8 "link") [], staticField (utf8 "location") [],
    staticField (utf8 "max-forwards") [], staticField (utf8 "proxy-authenticate") [],
    staticField (utf8 "proxy-authorization") [], staticField (utf8 "range") [],
    staticField (utf8 "referer") [], staticField (utf8 "refresh") [], staticField (utf8 "retry-after") [],
    staticField (utf8 "server") [], staticField (utf8 "set-cookie") [],
    staticField (utf8 "strict-transport-security") [], staticField (utf8 "transfer-encoding") [],
    staticField (utf8 "user-agent") [], staticField (utf8 "vary") [], staticField (utf8 "via") [],
    staticField (utf8 "www-authenticate") []]

/-- `newStaticTable` -/
def staticTable : HeaderFieldTable := staticTableEntries.foldl HeaderFieldTable.addEntry .init

/-! ## The dynamic table -/

structure DynamicTable where
  table : HeaderFieldTable
  size : UInt32
  maxSize : UInt32
  allowedMaxSize : UInt32

namespace DynamicTable

/-- The loop of `evict`: how many of the oldest fields go, and the size that is left. -/
def evictLoop (maxSize size : UInt32) : List HeaderField → ℕ × UInt32
  | [] => (0, size)
  | f :: fs =>
    if size > maxSize then
      let rest := evictLoop maxSize (size - f.size) fs
      (rest.1 + 1, rest.2)
    else (0, size)

def evict (dt : DynamicTable) : DynamicTable :=
  let evicted := evictLoop dt.maxSize dt.size dt.table.ents
  { dt with size := evicted.2, table := dt.table.evictOldest evicted.1 }

def setMaxSize (dt : DynamicTable) (v : UInt32) : DynamicTable := evict { dt with maxSize := v }

def add (dt : DynamicTable) (f : HeaderField) : DynamicTable :=
  evict { dt with table := dt.table.addEntry f, size := dt.size + f.size }

end DynamicTable

/-! ## The maps -/

section Maps

variable {t : HeaderFieldTable} {f : HeaderField}

/-- Both maps find the newest field. -/
structure Searchable (t : HeaderFieldTable) : Prop where
  byName : Indexed HeaderField.name t.byName t.evictCount t.ents
  byNameValue : Indexed HeaderField.pair t.byNameValue t.evictCount t.ents

theorem searchable_init : Searchable .init := ⟨indexed_nil, indexed_nil⟩

theorem Searchable.addEntry (h : Searchable t) (f : HeaderField) : Searchable (t.addEntry f) :=
  ⟨h.byName.push f, h.byNameValue.push f⟩

/-- Forgetting entries changes the two maps only. -/
theorem forgetEntries_eq (t : HeaderFieldTable) (id : ℕ) (fs : List HeaderField) : t.forgetEntries id fs =
    { t with
      byName := forget HeaderField.name t.byName id fs
      byNameValue := forget HeaderField.pair t.byNameValue id fs } := by
  induction fs generalizing t id with
  | nil => rfl
  | cons f fs ih => rw [HeaderFieldTable.forgetEntries, ih]; rfl

/-- An eviction keeps the table searchable. -/
theorem Searchable.evictOldest (h : Searchable t) {n : ℕ} (hn : n ≤ t.ents.length) :
    Searchable (t.evictOldest n) := by
  have hname := h.byName.drop n
  have hpair := h.byNameValue.drop n
  rw [List.length_take, Nat.min_eq_left hn] at hname hpair
  simp only [HeaderFieldTable.evictOldest, forgetEntries_eq]
  exact ⟨hname, hpair⟩

/-- So do several new entries. -/
theorem Searchable.foldl_addEntry (h : Searchable t) (fs : List HeaderField) :
    Searchable (fs.foldl HeaderFieldTable.addEntry t) := by
  induction fs generalizing t with
  | nil => exact h
  | cons f fs ih => exact ih (h.addEntry f)

/-- Several new entries stand at the end, and none has been evicted. -/
theorem foldl_addEntry_ents (t : HeaderFieldTable) (fs : List HeaderField) :
    (fs.foldl HeaderFieldTable.addEntry t).ents = t.ents ++ fs ∧
      (fs.foldl HeaderFieldTable.addEntry t).evictCount = t.evictCount := by
  induction fs generalizing t with
  | nil => exact ⟨(List.append_nil _).symm, rfl⟩
  | cons f fs ih =>
    obtain ⟨hents, hcount⟩ := ih (t.addEntry f)
    rw [List.foldl_cons, hents, hcount]
    exact ⟨List.append_assoc .., rfl⟩

theorem staticTable_ents : staticTable.ents = staticTableEntries := (foldl_addEntry_ents .init _).1

theorem searchable_staticTable : Searchable staticTable := searchable_init.foldl_addEntry _

/-- What going through the fields finds: the place of the first one with the name and the value, which a
sensitive field does not look for, or else of the first one with the name. -/
def scan (fs : List HeaderField) (f : HeaderField) : ℕ × Bool :=
  match f.sensitive, fs.findIdx? fun g => g.pair = f.pair with
  | false, some i => (i + 1, true)
  | _, _ =>
    match fs.findIdx? fun g => g.name = f.name with
    | some i => (i + 1, false)
    | none => (0, false)

/-- An id of the map stands at the first entry with its key, from the newest on. -/
theorem idToIndex_dynamic {κ : Type} [DecidableEq κ] {key : HeaderField → κ} {ids : κ → ℕ} {k : κ}
    (h : Indexed key ids t.evictCount t.ents) (hne : ids k ≠ 0) :
    t.ents.reverse.findIdx? (fun g => key g = k) = some (t.idToIndex false (ids k) - 1) ∧
      0 < t.idToIndex false (ids k) := by
  obtain ⟨hnewest, -, hplace⟩ := h.place hne
  have hle := newest_le key k t.ents
  have hindex : t.idToIndex false (ids k) = newest key k t.ents := by
    simp only [HeaderFieldTable.idToIndex, hplace, Bool.false_eq_true, if_false]
    omega
  rw [newest_eq_findIdx] at hindex hnewest
  cases hfind : t.ents.reverse.findIdx? fun g => key g = k with
  | none => rw [hfind] at hnewest; exact absurd rfl hnewest
  | some i =>
    rw [hfind, Option.map_some, Option.getD_some] at hindex
    exact ⟨by rw [hindex, Nat.add_sub_cancel], by omega⟩

/-- A key without an id has no entry. -/
theorem findIdx_eq_none {κ : Type} [DecidableEq κ] {key : HeaderField → κ} {ids : κ → ℕ} {k : κ}
    (h : Indexed key ids t.evictCount t.ents) (hzero : ids k = 0) :
    t.ents.reverse.findIdx? (fun g => key g = k) = none := by
  have hnewest := h.eq_zero_iff.mp hzero
  rw [newest_eq_findIdx] at hnewest
  cases hfind : t.ents.reverse.findIdx? fun g => key g = k with
  | none => rfl
  | some i => rw [hfind] at hnewest; cases hnewest

/-- Searching a dynamic table by its maps is going through it from the newest field on. -/
theorem Searchable.search_eq_scan (h : Searchable t) (f : HeaderField) :
    t.search false f = scan t.ents.reverse f := by
  rw [HeaderFieldTable.search, scan]
  by_cases hpair : t.byNameValue f.pair = 0
  · rw [if_neg fun hand => hand.2 hpair, findIdx_eq_none h.byNameValue hpair]
    by_cases hname : t.byName f.name = 0
    · rw [if_neg (not_not.mpr hname), findIdx_eq_none h.byName hname]
      cases f.sensitive <;> rfl
    · obtain ⟨hfind, hpos⟩ := idToIndex_dynamic h.byName hname
      rw [if_pos hname, hfind]
      cases f.sensitive <;> simp only [Nat.sub_add_cancel hpos]
  · obtain ⟨hfind, hpos⟩ := idToIndex_dynamic h.byNameValue hpair
    rw [hfind]
    cases f.sensitive with
    | false =>
      rw [if_pos ⟨rfl, hpair⟩]
      simp only [Nat.sub_add_cancel hpos]
    | true =>
      rw [if_neg fun hand => Bool.noConfusion hand.1]
      by_cases hname : t.byName f.name = 0
      · rw [if_neg (not_not.mpr hname), findIdx_eq_none h.byName hname]
      · obtain ⟨hfind, hpos⟩ := idToIndex_dynamic h.byName hname
        rw [if_pos hname, hfind]
        simp only [Nat.sub_add_cancel hpos]

end Maps

/-! ## Eviction -/

section Eviction

variable {dt : DynamicTable} {f : HeaderField} {fs : List HeaderField} {m k : ℕ}

def total (fs : List HeaderField) : ℕ := (fs.map fun f => f.size.toNat).sum

@[simp] theorem total_cons (f : HeaderField) (fs : List HeaderField) : total (f :: fs) = f.size.toNat + total fs :=
  List.sum_cons

@[simp] theorem total_append (fs gs : List HeaderField) : total (fs ++ gs) = total fs + total gs := by
  rw [total, List.map_append, List.sum_append]
  rfl

/-- The newest fields that fit into `m`. -/
def keep (m : ℕ) : List HeaderField → List HeaderField
  | [] => []
  | f :: fs => if m < total (f :: fs) then keep m fs else f :: fs

/-- What is kept is within the size. -/
theorem total_keep_le (m : ℕ) (fs : List HeaderField) : total (keep m fs) ≤ m := by
  induction fs with
  | nil => exact Nat.zero_le _
  | cons f fs ih =>
    rw [keep]
    split
    · exact ih
    · omega

/-- Nothing is dropped from a table that is within the size. -/
theorem keep_of_le (h : total fs ≤ m) : keep m fs = fs := by
  cases fs with
  | nil => rfl
  | cons f fs => rw [keep, if_neg (by omega)]

/-- The newest fields are kept. -/
theorem keep_suffix (m : ℕ) (fs : List HeaderField) : keep m fs <:+ fs := by
  induction fs with
  | nil => exact List.suffix_rfl
  | cons f fs ih =>
    rw [keep]
    split
    · exact ih.trans (List.suffix_cons f fs)
    · exact List.suffix_rfl

/-- Evicting for two sizes is evicting for the smaller one. -/
theorem keep_keep (m k : ℕ) (fs : List HeaderField) : keep m (keep k fs) = keep (min m k) fs := by
  induction fs with
  | nil => rfl
  | cons f fs ih =>
    by_cases hk : k < total (f :: fs)
    · rw [keep, if_pos hk, ih, keep, if_pos (by omega)]
    · rw [keep, if_neg hk]
      by_cases hm : m < total (f :: fs)
      · rw [keep, if_pos hm, keep, if_pos (by omega), show min m k = m by omega]
      · rw [keep, if_neg hm, keep, if_neg (by omega)]

/-- A field is added to what was kept as it is added to everything. -/
theorem keep_append_singleton (m : ℕ) (fs : List HeaderField) (f : HeaderField) :
    keep m (keep m fs ++ [f]) = keep m (fs ++ [f]) := by
  induction fs with
  | nil => rfl
  | cons g fs ih =>
    by_cases hlt : m < total (g :: fs)
    · have hmore : m < total (g :: (fs ++ [f])) := by
        rw [← List.cons_append, total_append]
        omega
      rw [keep, if_pos hlt, ih, List.cons_append, keep, if_pos hmore]
    · rw [keep, if_neg hlt]

/-- The loop drops the fields that are not kept, and counts the size of those that are. -/
theorem evictLoop_spec {maxSize size : UInt32} (h : size.toNat = total fs) :
    fs.drop (DynamicTable.evictLoop maxSize size fs).1 = keep maxSize.toNat fs ∧
      (DynamicTable.evictLoop maxSize size fs).2.toNat = total (keep maxSize.toNat fs) := by
  induction fs generalizing size with
  | nil => exact ⟨rfl, h⟩
  | cons f fs ih =>
    rw [DynamicTable.evictLoop, keep]
    by_cases hgt : size > maxSize
    · have hle : f.size ≤ size := by
        rw [UInt32.le_iff_toNat_le, h, total_cons]
        omega
      have hsub : (size - f.size).toNat = total fs := by
        rw [UInt32.toNat_sub_of_le _ _ hle, h, total_cons, Nat.add_sub_cancel_left]
      rw [if_pos hgt, if_pos (by rw [← h]; exact UInt32.lt_iff_toNat_lt.mp hgt)]
      exact ih hsub
    · rw [if_neg hgt, if_neg (by rw [← h]; exact fun hlt => hgt (UInt32.lt_iff_toNat_lt.mpr hlt))]
      exact ⟨rfl, h⟩

/-- The loop drops no more fields than there are. -/
theorem evictLoop_le_length (maxSize size : UInt32) (fs : List HeaderField) :
    (DynamicTable.evictLoop maxSize size fs).1 ≤ fs.length := by
  induction fs generalizing size with
  | nil => exact le_rfl
  | cons f fs ih =>
    rw [DynamicTable.evictLoop]
    split
    · exact Nat.succ_le_succ (ih _)
    · exact Nat.zero_le _

/-- Evicting brings no field into the table. -/
theorem mem_evict (h : f ∈ dt.evict.table.ents) : f ∈ dt.table.ents := List.mem_of_mem_drop h

/-- Nor does a new size. -/
theorem mem_setMaxSize {v : UInt32} (h : f ∈ (dt.setMaxSize v).table.ents) : f ∈ dt.table.ents :=
  @mem_evict { dt with maxSize := v } f h

/-- A new field is the only one that comes into the table. -/
theorem mem_add {g : HeaderField} (h : f ∈ (dt.add g).table.ents) : f ∈ dt.table.ents ∨ f = g := by
  have hmem : f ∈ dt.table.ents ++ [g] :=
    @mem_evict { dt with table := dt.table.addEntry g, size := dt.size + g.size } f h
  rwa [List.mem_append, List.mem_singleton] at hmem

/-- The table stays searchable when fields are evicted for its size. -/
theorem searchable_evict (h : Searchable dt.table) : Searchable dt.evict.table :=
  h.evictOldest (evictLoop_le_length _ _ _)

theorem searchable_setMaxSize (h : Searchable dt.table) (v : UInt32) : Searchable (dt.setMaxSize v).table :=
  searchable_evict h

theorem searchable_add (h : Searchable dt.table) (f : HeaderField) : Searchable (dt.add f).table :=
  searchable_evict (h.addEntry f)

/-- An eviction does not panic: the loop counts fields of the table. -/
theorem evict_no_panic (dt : DynamicTable) :
    ¬dt.table.evictOldestPanics (DynamicTable.evictLoop dt.maxSize dt.size dt.table.ents).1 :=
  Nat.not_lt.mpr (evictLoop_le_length _ _ _)

/-- A search does not panic: an id in one of the maps is that of a field in the table. -/
theorem Searchable.search_no_panic {t : HeaderFieldTable} (h : Searchable t) (f : HeaderField) :
    (t.byNameValue f.pair ≠ 0 → ¬t.idToIndexPanics (t.byNameValue f.pair)) ∧
      (t.byName f.name ≠ 0 → ¬t.idToIndexPanics (t.byName f.name)) :=
  ⟨fun hne => Nat.not_le.mpr (h.byNameValue.place hne).2.1, fun hne => Nat.not_le.mpr (h.byName.place hne).2.1⟩

inductive TableAction
  | add (f : HeaderField)
  | setMaxSize (v : UInt32)

def DynamicTable.act (dt : DynamicTable) : TableAction → DynamicTable
  | .add f => dt.add f
  | .setMaxSize v => dt.setMaxSize v

def DynamicTable.empty (maxSize allowedMaxSize : UInt32) : DynamicTable :=
  { table := .init, size := 0, maxSize, allowedMaxSize }

/-- It stays searchable whatever is done. -/
theorem searchable_act (h : Searchable dt.table) (action : TableAction) : Searchable (dt.act action).table := by
  cases action with
  | add f => exact searchable_add h f
  | setMaxSize v => exact searchable_setMaxSize h v

/-- The tables of a run are searchable, and so no search of theirs panics. -/
theorem searchable_exec (maxSize allowedMaxSize : UInt32) (actions : List TableAction) :
    Searchable (Run.exec DynamicTable.act (.empty maxSize allowedMaxSize) actions).table := by
  have hstep : ∀ (dt : DynamicTable) (action : TableAction), Searchable dt.table → Searchable (dt.act action).table :=
    fun _ action h => searchable_act h action
  exact Run.always_exec hstep searchable_init actions

/-- Whatever was added and evicted, the maps find what going through the table finds. -/
theorem searchDynamic_eq_scan (maxSize allowedMaxSize : UInt32) (actions : List TableAction) (f : HeaderField) :
    let t := (Run.exec DynamicTable.act (.empty maxSize allowedMaxSize) actions).table
    t.search false f = scan t.ents.reverse f := by
  intro t
  exact (searchable_exec maxSize allowedMaxSize actions).search_eq_scan f

/-- The table is searchable and its size is that of its fields, within the maximum. -/
structure DynamicTable.Sound (dt : DynamicTable) : Prop where
  searchable : Searchable dt.table
  size_eq : dt.size.toNat = total dt.table.ents
  size_le : dt.size.toNat ≤ dt.maxSize.toNat

/-- After the eviction the table has what is kept, and its size is right. -/
theorem sound_evict (hsearch : Searchable dt.table) (hsize : dt.size.toNat = total dt.table.ents) :
    dt.evict.Sound ∧ dt.evict.table.ents = keep dt.maxSize.toNat dt.table.ents := by
  obtain ⟨hents, hleft⟩ := @evictLoop_spec _ dt.maxSize _ hsize
  refine ⟨⟨searchable_evict hsearch, ?_, ?_⟩, hents⟩
  · exact hleft.trans (congrArg total hents.symm)
  · exact hleft.trans_le (total_keep_le _ _)

/-- Under a new size the table has what the size leaves of it. -/
theorem DynamicTable.Sound.setMaxSize (h : dt.Sound) (v : UInt32) :
    (dt.setMaxSize v).Sound ∧ (dt.setMaxSize v).table.ents = keep v.toNat dt.table.ents :=
  @sound_evict { dt with maxSize := v } h.searchable h.size_eq

/-- A field that does not make the size overflow is the newest one, and older ones go for it. -/
theorem DynamicTable.Sound.add (h : dt.Sound) (hfits : dt.maxSize.toNat + f.size.toNat < 2 ^ 32) :
    (dt.add f).Sound ∧ (dt.add f).table.ents = keep dt.maxSize.toNat (dt.table.ents ++ [f]) := by
  have hle := h.size_le
  refine @sound_evict { dt with table := dt.table.addEntry f, size := dt.size + f.size }
    (h.searchable.addEntry f) ?_
  have htotal : total (dt.table.addEntry f).ents = dt.size.toNat + f.size.toNat := by
    rw [HeaderFieldTable.addEntry, total_append, h.size_eq]
    rfl
  rw [htotal, UInt32.toNat_add, Nat.mod_eq_of_lt (by omega)]

theorem sound_empty (maxSize allowedMaxSize : UInt32) : (DynamicTable.empty maxSize allowedMaxSize).Sound :=
  ⟨searchable_init, rfl, Nat.zero_le _⟩

end Eviction

end TlsClient.Http2
