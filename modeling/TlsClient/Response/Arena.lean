import TlsClient.Library.StringArena
import TlsClient.Library.Utf8Reader
import TlsClient.Python.Dict
import TlsClient.Response.Body

/-!
# The arena of response strings

`packResponseArena` of `src/cffi_binding/main.go` with its layout, and the part of `_unpack_c_response` of
`src/tls_client/_core.py` that reads headers and cookies back. The strings lie one behind the other and fill the arena
in whatever orders the two passes see the map. The counts of the entries go through `C.int`, so `packed_unpacked` has a
bound on each of them.
-/

namespace TlsClient.Response.Arena

open TlsClient.Ffi TlsClient.Python StringArena

/-! ## Packing -/

/-- `C.HttpHeader`: two addresses, of which zero is NULL. -/
structure HttpHeader where
  key : ℕ
  value : ℕ
deriving DecidableEq

/-- The fields of `C.ResponseResult` that are set here. -/
structure ResponseResult where
  errMsg : Option String := none
  /-- the combined array -/
  responseHeaders : Option (List HttpHeader) := none
  responseHeadersLen : ℤ := 0
  /-- the index in the array of the entry that `cookies` points to -/
  cookies : Option ℕ := none
  cookiesLen : ℤ := 0
  respStrings : Option Block := none

/-- A block that has been allocated: it has the size that was asked for and is not at NULL. -/
structure Allocated (size : ℕ) extends Block where
  length_eq : bytes.length = size
  address_pos : 0 < address

/-- Whether there is memory, and where. -/
structure Allocator where
  calloc : ℕ → Bool
  malloc : (size : ℕ) → Option (Allocated size)

/-- `headerEntries` and `headerBytes`. -/
structure Sizes where
  headerEntries : ℕ := 0
  headerBytes : ℕ := 0

/-- The pass over the headers that counts. -/
def countHeaders (respHeaders : List (Bytes × List Bytes)) : Sizes :=
  respHeaders.foldl (fun sizes header => header.2.foldl (fun sizes val =>
    ⟨sizes.headerEntries + 1, sizes.headerBytes + (header.1.length + 1 + val.length + 1)⟩) sizes) {}

/-- What the filling pass changes. -/
structure Filling where
  arena : Block
  entrySlice : List HttpHeader
  offset : ℕ := 0
  entryIdx : ℕ := 0

namespace Filling

/-- A string is copied to the offset with its terminator; its address is returned. -/
def copyString (f : Filling) (s : Bytes) : Option (ℕ × Filling) := do
  let arena ← f.arena.write f.offset (s ++ [0])
  return (f.arena.address + f.offset, { f with arena := arena, offset := f.offset + (s.length + 1) })

/-- `entrySlice[i].key = dst` -/
def setKey (f : Filling) (i dst : ℕ) : Option Filling := do
  let entry ← f.entrySlice[i]?
  return { f with entrySlice := f.entrySlice.set i { entry with key := dst } }

/-- `entrySlice[i].value = dst` -/
def setValue (f : Filling) (i dst : ℕ) : Option Filling := do
  let entry ← f.entrySlice[i]?
  return { f with entrySlice := f.entrySlice.set i { entry with value := dst } }

/-- Key and value of an entry. -/
def fillEntry (f : Filling) (i : ℕ) (key val : Bytes) : Option Filling := do
  let (dst, f) ← f.copyString key
  let f ← f.setKey i dst
  let (dst, f) ← f.copyString val
  f.setValue i dst

/-- One header value. -/
def fillHeader (key : Bytes) (f : Filling) (val : Bytes) : Option Filling := do
  let f ← f.fillEntry f.entryIdx key val
  return { f with entryIdx := f.entryIdx + 1 }

def fillHeaders (f : Filling) (respHeaders : List (Bytes × List Bytes)) : Option Filling :=
  respHeaders.foldlM (fun f header => header.2.foldlM (fillHeader header.1) f) f

/-- The cookies from `i` on, behind the headers. -/
def fillCookies (headerEntries i : ℕ) (f : Filling) : List (Bytes × Bytes) → Option Filling
  | [] => some f
  | c :: respCookies => do
    let f ← f.fillEntry (headerEntries + i) c.1 c.2
    fillCookies headerEntries (i + 1) f respCookies

end Filling

/-- `packResponseArena` on a result that is all zero. The two passes over the headers see them in orders of their own;
`none` is a write outside of the arena or an index outside of the array. -/
def packResponseArena (memory : Allocator) (sizing filling : List (Bytes × List Bytes))
    (respCookies : List (Bytes × Bytes)) : Option ResponseResult :=
  let sizes := countHeaders sizing
  let cookieCount := respCookies.length
  let cookieBytes := (respCookies.map fun c => c.1.length + 1 + c.2.length + 1).sum
  let totalEntries := sizes.headerEntries + cookieCount
  let totalStrBytes := sizes.headerBytes + cookieBytes
  let finish (arena : Option Block) (entrySlice : List HttpHeader) : ResponseResult :=
    { responseHeaders := some entrySlice
      responseHeadersLen := cInt sizes.headerEntries
      cookies := if 0 < cookieCount then some sizes.headerEntries else none
      cookiesLen := if 0 < cookieCount then cInt cookieCount else 0
      respStrings := arena }
  let entrySlice := List.replicate totalEntries ⟨0, 0⟩
  if totalEntries = 0 then some {}
  else if !memory.calloc totalEntries then some { errMsg := some "failed to allocate response header array" }
  else if totalStrBytes = 0 then some (finish none entrySlice)
  else
    match memory.malloc totalStrBytes with
    | none => some { errMsg := some "failed to allocate response string arena" }
    | some arena => do
      let f ← Filling.fillHeaders { arena := arena.toBlock, entrySlice := entrySlice } filling
      let f ← f.fillCookies sizes.headerEntries 0 respCookies
      return finish (some f.arena) f.entrySlice

/-! ## Unpacking -/

/-- `ffi.string(p).decode("utf-8", errors="replace")`. -/
def text (arena : Block) (p : ℕ) : Option (List Char) := (arena.cString p).map (Utf8.reader.replace ['\uFFFD'])

/-- The loop over `len` entries from `start` on; `none` reads outside of the array or of the arena. -/
def unpackEntries {σ : Type} (put : σ → List Char → List Char → σ) (arena : Block) (entries : List HttpHeader)
    (start len : ℕ) (out : σ) : Option σ :=
  (List.range len).foldlM (fun out i => do
    let h ← entries[start + i]?
    if h.key ≠ 0 ∧ h.value ≠ 0 then
      let k ← text arena h.key
      let v ← text arena h.value
      return put out k v
    else return out) out

/-- `response_headers.setdefault(k, []).append(v)` -/
def appendValue (headers : PyDict (List Char) (List (List Char))) (k v : List Char) :
    PyDict (List Char) (List (List Char)) :=
  headers.set k ((headers.get k).getD [] ++ [v])

namespace ResponseResult

/-- The arena, which is empty where there is none. -/
def arena (res : ResponseResult) : Block := res.respStrings.getD ⟨0, []⟩

/-- `response_headers` of `_unpack_c_response`. -/
def unpackHeaders (res : ResponseResult) : Option (PyDict (List Char) (List (List Char))) :=
  match res.responseHeaders with
  | none => some .empty
  | some entries =>
    if 0 < res.responseHeadersLen then
      unpackEntries appendValue res.arena entries 0 res.responseHeadersLen.toNat .empty
    else some .empty

/-- `response_cookies` of `_unpack_c_response`. -/
def unpackCookies (res : ResponseResult) : Option (PyDict (List Char) (List Char)) :=
  match res.responseHeaders, res.cookies with
  | some entries, some start =>
    if 0 < res.cookiesLen then unpackEntries PyDict.set res.arena entries start res.cookiesLen.toNat .empty
    else some .empty
  | _, _ => some .empty

end ResponseResult

/-! ## The layout -/

/-- The header lines of a map. -/
def lines {α : Type} (respHeaders : List (α × List α)) : List (α × α) :=
  respHeaders.flatMap fun header => header.2.map fun val => (header.1, val)

/-- Keys and values. -/
def strings {α : Type} (entries : List (α × α)) : List α := entries.flatMap fun e => [e.1, e.2]

/-- Entries whose strings begin at an address. -/
def entriesAt (address : ℕ) : List (Bytes × Bytes) → List HttpHeader
  | [] => []
  | e :: entries =>
    ⟨address, address + (e.1.length + 1)⟩ ::
      entriesAt (address + (e.1.length + 1) + (e.2.length + 1)) entries

variable {f : Filling} {front rest : Bytes} {done todo more : List (Bytes × Bytes)} {e : Bytes × Bytes}
  {memory : Allocator}

theorem strings_append {α : Type} (entries more : List (α × α)) :
    strings (entries ++ more) = strings entries ++ strings more := List.flatMap_append

theorem strings_cons {α : Type} (e : α × α) (entries : List (α × α)) :
    strings (e :: entries) = e.1 :: e.2 :: strings entries := List.flatMap_cons

theorem terminated_strings_cons (e : Bytes × Bytes) (entries : List (Bytes × Bytes)) :
    terminated (strings (e :: entries)) = e.1 ++ [0] ++ (e.2 ++ [0]) ++ terminated (strings entries) := by
  rw [strings_cons, terminated_cons, terminated_cons, List.append_assoc (e.1 ++ [0])]

/-- The pointers of the entries are the addresses of their strings. -/
theorem addresses_strings (address : ℕ) (entries : List (Bytes × Bytes)) :
    (entriesAt address entries).flatMap (fun h => [h.key, h.value]) = addresses address (strings entries) := by
  induction entries generalizing address with
  | nil => rfl
  | cons e entries ih =>
    rw [entriesAt, List.flatMap_cons, ih, strings_cons, addresses, addresses]
    rfl

/-- More entries stand behind the strings of those before. -/
theorem entriesAt_append (address : ℕ) (entries more : List (Bytes × Bytes)) :
    entriesAt address (entries ++ more) =
      entriesAt address entries ++ entriesAt (address + (terminated (strings entries)).length) more := by
  induction entries generalizing address with
  | nil => rfl
  | cons e entries ih =>
    have hlength : (terminated (strings (e :: entries))).length =
        e.1.length + 1 + (e.2.length + 1) + (terminated (strings entries)).length := by
      rw [terminated_strings_cons]
      simp only [List.length_append, List.length_singleton]
    rw [List.cons_append, entriesAt, ih, entriesAt, hlength, List.cons_append]
    simp only [Nat.add_assoc]

/-- There is a pair of pointers for each entry. -/
theorem length_entriesAt (address : ℕ) (entries : List (Bytes × Bytes)) :
    (entriesAt address entries).length = entries.length := by
  induction entries generalizing address with
  | nil => rfl
  | cons e entries ih => rw [entriesAt, List.length_cons, ih, List.length_cons]

/-! ## Sizes -/

/-- The first pass counts the lines and their bytes. -/
theorem countHeaders_eq (respHeaders : List (Bytes × List Bytes)) :
    countHeaders respHeaders = ⟨(lines respHeaders).length, (terminated (strings (lines respHeaders))).length⟩ := by
  have hfold : ∀ (entries : List (Bytes × Bytes)) (sizes : Sizes),
      entries.foldl (fun sizes e => (⟨sizes.headerEntries + 1,
        sizes.headerBytes + (e.1.length + 1 + e.2.length + 1)⟩ : Sizes)) sizes =
        ⟨sizes.headerEntries + entries.length, sizes.headerBytes + (terminated (strings entries)).length⟩ := by
    intro entries
    induction entries with
    | nil => exact fun _ => rfl
    | cons e entries ih =>
      intro sizes
      have hlength := congrArg List.length (terminated_strings_cons e entries)
      simp only [List.length_append, List.length_singleton] at hlength
      rw [List.foldl_cons, ih, hlength, List.length_cons, Sizes.mk.injEq]
      dsimp only
      exact ⟨by omega, by omega⟩
  have hall := hfold (lines respHeaders) {}
  rw [lines, List.foldl_flatMap] at hall
  simp only [List.foldl_map] at hall
  rw [countHeaders, hall, Sizes.mk.injEq]
  exact ⟨Nat.zero_add _, Nat.zero_add _⟩

/-- The bytes that the cookies need. -/
theorem cookieBytes_eq (respCookies : List (Bytes × Bytes)) :
    (respCookies.map fun c => c.1.length + 1 + c.2.length + 1).sum = (terminated (strings respCookies)).length := by
  induction respCookies with
  | nil => rfl
  | cons c respCookies ih =>
    have hlength := congrArg List.length (terminated_strings_cons c respCookies)
    simp only [List.length_append, List.length_singleton] at hlength
    rw [List.map_cons, List.sum_cons, ih, hlength]
    omega

/-- The two passes see the same sizes. -/
theorem sizes_perm {sizing filling : List (Bytes × List Bytes)} (h : sizing.Perm filling) :
    (lines sizing).length = (lines filling).length ∧
      (terminated (strings (lines sizing))).length = (terminated (strings (lines filling))).length := by
  have hlines : (lines sizing).Perm (lines filling) := h.flatMap_right _
  refine ⟨hlines.length_eq, ?_⟩
  exact ((hlines.flatMap_right _).flatMap_right _).length_eq

/-! ## Filling -/

namespace Filling

/-- A string that fits is copied to the offset, with its NUL. -/
theorem copyString_eq (hbytes : f.arena.bytes = front ++ rest) (hoffset : f.offset = front.length) {s : Bytes}
    (hroom : s.length + 1 ≤ rest.length) :
    f.copyString s = some (f.arena.address + front.length,
      { f with
        arena := { f.arena with bytes := front ++ (s ++ [0]) ++ rest.drop (s.length + 1) }
        offset := front.length + (s.length + 1) }) := by
  have hlength : (s ++ [0]).length = s.length + 1 := by rw [List.length_append, List.length_singleton]
  rw [copyString, hoffset, write_append hbytes (by rw [hlength]; exact hroom), hlength]
  rfl

/-- An entry is written behind the strings that are there. -/
theorem fillEntry_eq (hbytes : f.arena.bytes = front ++ rest) (hoffset : f.offset = front.length)
    (hroom : e.1.length + 1 + (e.2.length + 1) ≤ rest.length) {before after : List HttpHeader} {h : HttpHeader}
    (hentries : f.entrySlice = before ++ h :: after) :
    f.fillEntry before.length e.1 e.2 = some
      { f with
        arena := { f.arena with
          bytes := front ++ (e.1 ++ [0] ++ (e.2 ++ [0])) ++ rest.drop (e.1.length + 1 + (e.2.length + 1)) }
        entrySlice := before ++ ⟨f.arena.address + front.length,
          f.arena.address + front.length + (e.1.length + 1)⟩ :: after
        offset := front.length + (e.1.length + 1 + (e.2.length + 1)) } := by
  -- the entry is at the place the fill has come to
  have hget : ∀ h : HttpHeader, (before ++ h :: after)[before.length]? = some h := fun h => by simp
  have hset : ∀ h h' : HttpHeader, (before ++ h :: after).set before.length h' = before ++ h' :: after := fun h h' => by
    simp
  have hlength : (front ++ (e.1 ++ [0])).length = front.length + (e.1.length + 1) := by
    rw [List.length_append, List.length_append, List.length_singleton]
  have hsecond : e.2.length + 1 ≤ (rest.drop (e.1.length + 1)).length := by
    rw [List.length_drop]
    omega
  rw [fillEntry, copyString_eq hbytes hoffset (by omega)]
  dsimp only [Option.bind_eq_bind, Option.bind_some]
  rw [setKey, hentries, hget]
  dsimp only [Option.bind_eq_bind, Option.bind_some, Option.pure_def]
  -- the value goes directly behind the terminated key
  rw [hset, copyString_eq (by rfl : _ = front ++ (e.1 ++ [0]) ++ _) hlength.symm hsecond]
  dsimp only [Option.bind_eq_bind, Option.bind_some]
  rw [setValue, hget]
  dsimp only [Option.bind_eq_bind, Option.bind_some, Option.pure_def]
  rw [hset, hlength, List.drop_drop, List.append_assoc front, Nat.add_assoc front.length, Nat.add_assoc f.arena.address]

/-- What is so while some entries are written and others are not. -/
structure Filled (address : ℕ) (done todo : List (Bytes × Bytes)) (f : Filling) : Prop where
  address_eq : f.arena.address = address
  bytes : ∃ rest : Bytes, f.arena.bytes = terminated (strings done) ++ rest ∧
    rest.length = (terminated (strings todo)).length
  offset_eq : f.offset = (terminated (strings done)).length
  entries : f.entrySlice = entriesAt address done ++ List.replicate todo.length ⟨0, 0⟩

variable {address : ℕ}

/-- One more entry is filled. -/
theorem fillEntry_filled (h : f.Filled address done (e :: todo)) :
    ∃ f', f.fillEntry done.length e.1 e.2 = some f' ∧ f'.Filled address (done ++ [e]) todo ∧
      f'.entryIdx = f.entryIdx := by
  obtain ⟨rest, hbytes, hlength⟩ := h.bytes
  have hdone : terminated (strings (done ++ [e])) =
      terminated (strings done) ++ (e.1 ++ [0] ++ (e.2 ++ [0])) := by
    rw [strings_append, terminated_append, terminated_strings_cons]
    exact congrArg _ (List.append_nil _)
  -- both strings and their two terminators
  have hmore : ∀ l, (terminated (strings (e :: l))).length =
      e.1.length + 1 + (e.2.length + 1) + (terminated (strings l)).length := by
    intro l
    rw [terminated_strings_cons]
    simp only [List.length_append, List.length_singleton]
  rw [hmore] at hlength
  have hentries : f.entrySlice = entriesAt address done ++ ⟨0, 0⟩ :: List.replicate todo.length ⟨0, 0⟩ := h.entries
  have hfill := fillEntry_eq (e := e) hbytes h.offset_eq (by omega) hentries
  rw [length_entriesAt] at hfill
  refine ⟨_, hfill, ⟨h.address_eq, ⟨rest.drop (e.1.length + 1 + (e.2.length + 1)), ?_, ?_⟩, ?_, ?_⟩, rfl⟩
  · rw [hdone]
  · rw [List.length_drop]
    omega
  · rw [hdone]
    simp only [List.length_append, List.length_singleton]
  · rw [entriesAt_append, entriesAt, entriesAt, List.append_assoc (entriesAt address done), h.address_eq]
    rfl

/-- The nested loop over the headers is one over their lines. -/
theorem fillHeaders_eq (f : Filling) (respHeaders : List (Bytes × List Bytes)) :
    f.fillHeaders respHeaders = (lines respHeaders).foldlM (fun f e => fillHeader e.1 f e.2) f := by
  rw [fillHeaders]
  induction respHeaders generalizing f with
  | nil => rfl
  | cons header respHeaders ih =>
    rw [lines, List.flatMap_cons, List.foldlM_append, List.foldlM_map, List.foldlM_cons]
    exact congrArg _ (funext ih)

/-- The entries of the headers are filled. -/
theorem foldlM_fillHeader (h : f.Filled address done (more ++ todo)) (hidx : f.entryIdx = done.length) :
    ∃ f', more.foldlM (fun f e => fillHeader e.1 f e.2) f = some f' ∧ f'.Filled address (done ++ more) todo := by
  induction more generalizing f done with
  | nil =>
    rw [List.append_nil]
    exact ⟨f, rfl, h⟩
  | cons e more ih =>
    obtain ⟨f', hfill, hfilled, hkept⟩ := fillEntry_filled h
    have hstep : fillHeader e.1 f e.2 = some { f' with entryIdx := f'.entryIdx + 1 } := by
      rw [fillHeader, hidx, hfill]
      rfl
    have hnext : f'.entryIdx + 1 = (done ++ [e]).length := by
      rw [hkept, hidx, List.length_append, List.length_singleton]
    obtain ⟨f'', hrun, hall⟩ := @ih { f' with entryIdx := f'.entryIdx + 1 } (done ++ [e])
      ⟨hfilled.address_eq, hfilled.bytes, hfilled.offset_eq, hfilled.entries⟩ hnext
    rw [List.append_assoc] at hall
    refine ⟨f'', ?_, hall⟩
    rw [List.foldlM_cons, hstep]
    exact hrun

/-- The entries of the cookies are filled behind them. -/
theorem fillCookies_filled {headerEntries i : ℕ} (h : f.Filled address done more)
    (hidx : headerEntries + i = done.length) :
    ∃ f', f.fillCookies headerEntries i more = some f' ∧ f'.Filled address (done ++ more) [] := by
  induction more generalizing f done i with
  | nil =>
    rw [List.append_nil]
    exact ⟨f, rfl, h⟩
  | cons e more ih =>
    obtain ⟨f', hfill, hfilled, -⟩ := fillEntry_filled h
    have hnext : headerEntries + (i + 1) = (done ++ [e]).length := by
      rw [List.length_append, List.length_singleton, ← hidx, Nat.add_assoc]
    obtain ⟨f'', hrun, hall⟩ := ih hfilled hnext
    rw [List.append_assoc] at hall
    refine ⟨f'', ?_, hall⟩
    rw [fillCookies, hidx, hfill]
    exact hrun

end Filling

/-- What packing returns: the strings are in the arena, in the order of the filling pass. -/
theorem packResponseArena_eq {sizing filling : List (Bytes × List Bytes)} (hperm : sizing.Perm filling)
    {cookies : List (Bytes × Bytes)} (hne : (lines filling).length + cookies.length ≠ 0)
    (hcalloc : memory.calloc ((lines filling).length + cookies.length) = true)
    (hmalloc : (memory.malloc (terminated (strings (lines filling ++ cookies))).length).isSome) :
    ∃ address, 0 < address ∧ packResponseArena memory sizing filling cookies = some
      { responseHeaders := some (entriesAt address (lines filling ++ cookies))
        responseHeadersLen := cInt (lines filling).length
        cookies := if 0 < cookies.length then some (lines filling).length else none
        cookiesLen := if 0 < cookies.length then cInt cookies.length else 0
        respStrings := some ⟨address, terminated (strings (lines filling ++ cookies))⟩ } := by
  obtain ⟨block, hblock⟩ := Option.isSome_iff_exists.mp hmalloc
  -- the two ranges over the map agree in what they count, whatever their orders
  obtain ⟨hcount, hbytes⟩ := sizes_perm hperm
  have hsize : (terminated (strings (lines filling))).length + (terminated (strings cookies)).length =
      (terminated (strings (lines filling ++ cookies))).length := by
    rw [strings_append, terminated_append, List.length_append]
  have hsome : (terminated (strings (lines filling ++ cookies))).length ≠ 0 := by
    obtain ⟨e, entries, heq⟩ := List.exists_cons_of_ne_nil fun hnil : lines filling ++ cookies = [] =>
      hne (by rw [← List.length_append, hnil, List.length_nil])
    rw [heq, terminated_strings_cons]
    simp
  have hempty : Filling.Filled block.address [] (lines filling ++ cookies)
      { arena := block.toBlock, entrySlice := List.replicate ((lines filling).length + cookies.length) ⟨0, 0⟩ } := by
    refine ⟨rfl, ⟨block.bytes, rfl, block.length_eq⟩, rfl, ?_⟩
    rw [List.length_append]
    rfl
  obtain ⟨f, hheaders, hfilled⟩ := Filling.foldlM_fillHeader hempty rfl
  obtain ⟨f', hcookies, hall⟩ := Filling.fillCookies_filled (i := 0) hfilled rfl
  -- nothing is left of the block when all entries are filled
  have harena : f'.arena = ⟨block.address, terminated (strings (lines filling ++ cookies))⟩ := by
    obtain ⟨rest, hrest, hlength⟩ := hall.bytes
    obtain rfl := List.eq_nil_of_length_eq_zero hlength
    rw [List.append_nil] at hrest
    rw [← hall.address_eq]
    exact congrArg (Block.mk f'.arena.address) hrest
  refine ⟨block.address, block.address_pos, ?_⟩
  rw [packResponseArena, countHeaders_eq, cookieBytes_eq, hcount, hbytes]
  dsimp only
  rw [hsize, hcalloc, hblock, if_neg hne, if_neg hsome, if_neg (by decide)]
  dsimp only
  rw [List.nil_append] at hcookies
  rw [Filling.fillHeaders_eq, hheaders]
  dsimp only [Option.bind_eq_bind, Option.bind_some]
  rw [hcookies]
  dsimp only [Option.bind_some]
  rw [harena, hall.entries, List.length_nil, List.replicate_zero, List.append_nil]
  rfl

/-! ## Reading entries -/

/-- The entry is that of two texts. -/
structure Reads (arena : Block) (h : HttpHeader) (p : List Char × List Char) : Prop where
  key_ne : h.key ≠ 0
  value_ne : h.value ≠ 0
  key : text arena h.key = some p.1
  value : text arena h.value = some p.2

variable {arena : Block} {entries : List HttpHeader} {texts : List (List Char × List Char)} {start : ℕ}

/-- The loop puts the texts one after the other. -/
theorem unpackEntries_eq {σ : Type} (put : σ → List Char → List Char → σ) (out : σ)
    (h : List.Forall₂ (Reads arena) (entries.drop start) texts) {len : ℕ} (hlen : len ≤ texts.length) :
    unpackEntries put arena entries start len out =
      some ((texts.take len).foldl (fun out p => put out p.1 p.2) out) := by
  induction len with
  | zero => rfl
  | succ len ih =>
    have hprev := ih (by omega)
    rw [unpackEntries] at hprev
    obtain ⟨hlength, hreads⟩ := List.forall₂_iff_get.mp h
    have hr := hreads len (by omega) (by omega)
    have hget : entries[start + len]? = some ((entries.drop start).get ⟨len, by omega⟩) := by
      rw [← List.getElem?_drop, List.getElem?_eq_getElem (by omega)]
      rfl
    have htake : texts.take (len + 1) = texts.take len ++ [texts.get ⟨len, by omega⟩] := by
      rw [List.take_add_one, List.getElem?_eq_getElem (by omega)]
      rfl
    rw [unpackEntries, List.range_succ, List.foldlM_append, hprev, htake, List.foldl_append]
    rw [Option.bind_eq_bind, Option.bind_some, List.foldlM_cons, hget]
    dsimp only [Option.bind_eq_bind, Option.bind_some]
    rw [if_pos ⟨hr.key_ne, hr.value_ne⟩, hr.key]
    dsimp only [Option.bind_some]
    rw [hr.value]
    rfl

/-! ## The round trip -/

/-- The string of a text in the engine. -/
def goString (t : List Char) : Bytes := Utf8.utf8 (String.ofList t)

def encode (entries : List (List Char × List Char)) : List (Bytes × Bytes) :=
  entries.map fun e => (goString e.1, goString e.2)

/-- The values of names that are distinct. -/
structure Header where
  entries : List (List Char × List (List Char))
  nodup : (entries.map Prod.fst).Nodup

namespace Header

/-- The values of a name. -/
def values (header : Header) (name : List Char) : List (List Char) :=
  ((KeyedList.get Prod.fst name header.entries).map Prod.snd).getD []

/-- A pass over the map, which sees it in an order of its own. -/
structure Range (header : Header) where
  order : List (List Char × List (List Char))
  perm : order.Perm header.entries

/-- What the pass sees in the engine. -/
def Range.engine {header : Header} (range : header.Range) : List (Bytes × List Bytes) :=
  range.order.map fun entry => (goString entry.1, entry.2.map goString)

/-- Python has the values of each name that has any. -/
def Recovered (header : Header) (res : ResponseResult) : Prop :=
  ∃ headers, res.unpackHeaders = some headers ∧
    ∀ name, headers.get name = if header.values name = [] then none else some (header.values name)

end Header

/-- Python has the last value of each name. -/
def CookiesRecovered (cookies : List (List Char × List Char)) (res : ResponseResult) : Prop :=
  ∃ found, res.unpackCookies = some found ∧
    ∀ name, found.get name = (KeyedList.last Prod.fst name cookies).map Prod.snd

/-- The addresses in the array. -/
def ResponseResult.addresses (res : ResponseResult) : List ℕ :=
  (res.responseHeaders.getD []).flatMap fun h => [h.key, h.value]

/-- There is memory for the array and for the arena, if any is needed. -/
def Allocator.Gives (memory : Allocator) (entries : List (Bytes × Bytes)) : Prop :=
  entries ≠ [] → memory.calloc entries.length = true ∧ (memory.malloc (terminated (strings entries)).length).isSome

/-- What a result is that holds headers and cookies. -/
structure Packed (headers cookies : List (List Char × List Char)) (res : ResponseResult) : Prop where
  errMsg : res.errMsg = none
  laid : Laid res.arena 0 res.addresses (strings (encode (headers ++ cookies)))
  address_pos : headers ++ cookies ≠ [] → 0 < res.arena.address
  headersLen : res.responseHeadersLen = cInt headers.length
  cookiesLen : res.cookiesLen = cInt cookies.length
  cookies_eq : cookies ≠ [] → res.cookies = some headers.length

variable {header : Header} {sizing filling : header.Range} {headers cookies : List (List Char × List Char)}
  {res : ResponseResult}

/-- The lines of the encoded headers are the encoded lines. -/
theorem lines_engine (range : header.Range) : lines range.engine = encode (lines range.order) := by
  simp only [lines, Header.Range.engine, encode, List.flatMap_map, List.map_flatMap, List.map_map]
  rfl

theorem encode_append (entries more : List (List Char × List Char)) :
    encode (entries ++ more) = encode entries ++ encode more := List.map_append

theorem cInt_zero : cInt 0 = 0 := rfl

/-- Packing lays the strings, whatever the two orders are. -/
theorem exists_packed (sizing filling : header.Range) (cookies : List (List Char × List Char))
    (hmemory : memory.Gives (encode (lines filling.order ++ cookies))) :
    ∃ res, packResponseArena memory sizing.engine filling.engine (encode cookies) = some res ∧
      Packed (lines filling.order) cookies res := by
  have hperm : sizing.engine.Perm filling.engine := (sizing.perm.trans filling.perm.symm).map _
  -- without a line and a cookie nothing is allocated
  by_cases hnone : lines filling.order ++ cookies = []
  · obtain ⟨hlines, rfl⟩ := List.append_eq_nil_iff.mp hnone
    have hcount := congrArg List.length (lines_engine filling)
    rw [hlines] at hcount
    refine ⟨{}, ?_, rfl, ?_, fun h => absurd hnone h, ?_, rfl, fun h => absurd rfl h⟩
    · rw [packResponseArena, countHeaders_eq, (sizes_perm hperm).1, hcount]
      rfl
    · rw [hlines]
      rfl
    · rw [hlines]
      rfl
  have hencoded : encode (lines filling.order ++ cookies) ≠ [] := mt List.map_eq_nil_iff.mp hnone
  obtain ⟨hcalloc, hmalloc⟩ := hmemory hencoded
  rw [encode_append, List.length_append, ← lines_engine] at hcalloc
  rw [encode_append, ← lines_engine] at hmalloc hencoded
  have hne : (lines filling.engine).length + (encode cookies).length ≠ 0 := by
    rw [← List.length_append]
    exact mt List.eq_nil_of_length_eq_zero hencoded
  obtain ⟨address, hpos, hpack⟩ := packResponseArena_eq hperm hne hcalloc hmalloc
  -- the counts are those of the text, since encoding is entry by entry
  have hheaders : (lines filling.engine).length = (lines filling.order).length := by
    rw [lines_engine, encode, List.length_map]
  have hcookies : (encode cookies).length = cookies.length := List.length_map _
  refine ⟨_, hpack, rfl, ?_, fun _ => hpos, ?_, ?_, fun h => ?_⟩
  · rw [encode_append, ← lines_engine, ResponseResult.addresses]
    dsimp only [Option.getD_some]
    rw [addresses_strings]
    exact @laid_addresses ⟨address, _⟩ [] _ rfl
  · rw [← hheaders]
  · dsimp only
    rw [hcookies]
    split_ifs with hsome
    · rfl
    · rw [Nat.eq_zero_of_not_pos hsome, cInt_zero]
  · dsimp only
    rw [hcookies, hheaders, if_pos (List.length_pos_iff.mpr h)]

/-- The strings of encoded entries are the encoded strings. -/
theorem strings_encode (texts : List (List Char × List Char)) :
    strings (encode texts) = (strings texts).map goString := by
  rw [strings, encode, List.flatMap_map, strings, List.map_flatMap]
  rfl

/-- What relates addresses to strings one by one relates entries to pairs of strings. -/
theorem forall₂_entries {R : ℕ → Bytes → Prop} {entries : List HttpHeader} {pairs : List (Bytes × Bytes)}
    (h : List.Forall₂ R (entries.flatMap fun h => [h.key, h.value]) (strings pairs)) :
    List.Forall₂ (fun h e => R h.key e.1 ∧ R h.value e.2) entries pairs := by
  induction entries generalizing pairs with
  | nil =>
    cases pairs with
    | nil => exact .nil
    | cons e pairs => cases h
  | cons entry entries ih =>
    cases pairs with
    | nil => cases h
    | cons e pairs =>
      rw [List.flatMap_cons, strings_cons] at h
      obtain ⟨hkey, h⟩ := List.forall₂_cons.mp h
      obtain ⟨hvalue, hrest⟩ := List.forall₂_cons.mp h
      exact .cons ⟨hkey, hvalue⟩ (ih hrest)

/-- A string in the arena is read as the text it encodes. -/
theorem text_of_cString {t : List Char} {p : ℕ} (hpos : 0 < arena.address) (h : arena.cString p = some (goString t)) :
    p ≠ 0 ∧ text arena p = some t := by
  refine ⟨?_, ?_⟩
  · have hle := Block.le_of_cString h
    omega
  · rw [text, h, Option.map_some, goString, Utf8.replace_utf8, String.toList_ofList]

/-- What is laid is read as the texts. -/
theorem reads_of_laid {entries : List HttpHeader} {texts : List (List Char × List Char)} {offset : ℕ}
    (hpos : texts ≠ [] → 0 < arena.address) (hnul : ∀ t ∈ strings texts, '\x00' ∉ t)
    (h : Laid arena offset (entries.flatMap fun h => [h.key, h.value]) (strings (encode texts))) :
    List.Forall₂ (Reads arena) entries texts := by
  have hzero : ∀ s ∈ strings (encode texts), 0 ∉ s := by
    intro s hs
    rw [strings_encode] at hs
    obtain ⟨t, ht, rfl⟩ := List.mem_map.mp hs
    rw [goString, Utf8.zero_mem_utf8, String.toList_ofList]
    exact hnul t ht
  have hreads := forall₂_entries (h.cString hzero)
  rw [encode, List.forall₂_map_right_iff] at hreads
  by_cases hnone : texts = []
  · rw [hnone] at hreads ⊢
    rw [List.forall₂_nil_right_iff.mp hreads]
    exact .nil
  · refine hreads.imp fun entry p hentry => ?_
    have hkey := text_of_cString (hpos hnone) hentry.1
    have hvalue := text_of_cString (hpos hnone) hentry.2
    exact ⟨hkey.1, hvalue.1, hkey.2, hvalue.2⟩

/-- The strings of the entries are those of the model without the layout. -/
theorem cStrings_packResponseArena {sizing filling : List (Bytes × List Bytes)} (hperm : sizing.Perm filling)
    {cookies : List (Bytes × Bytes)} (hne : (lines filling).length + cookies.length ≠ 0)
    (hzero : ∀ s ∈ strings (lines filling ++ cookies), 0 ∉ s)
    (hmemory : memory.Gives (lines filling ++ cookies)) {entries : List (Bytes × Bytes)}
    (hentries : entries = (Response.packResponseArena (fun _ => true) filling cookies {}).responseHeaders ++
      (Response.packResponseArena (fun _ => true) filling cookies {}).cookies) :
    ∃ res, packResponseArena memory sizing filling cookies = some res ∧
      List.Forall₂ (fun a s => res.arena.cString a = some s) res.addresses (strings entries) := by
  -- the list model packs the same entries in the same order
  have hsame : entries = lines filling ++ cookies := by
    have hnone : ¬(filling.flatMap fun h => h.2.map fun v => (h.1, v)).length + cookies.length = 0 := hne
    rw [hentries, Response.packResponseArena]
    dsimp only
    rw [if_neg hnone]
    simp only [Bool.not_true, Bool.false_eq_true, and_false, if_false]
    rfl
  have hnone : lines filling ++ cookies ≠ [] := by
    intro hnil
    exact hne (by rw [← List.length_append, hnil, List.length_nil])
  obtain ⟨hcalloc, hmalloc⟩ := hmemory hnone
  rw [List.length_append] at hcalloc
  obtain ⟨address, -, hpack⟩ := packResponseArena_eq hperm hne hcalloc hmalloc
  refine ⟨_, hpack, ?_⟩
  rw [hsame, ResponseResult.addresses]
  dsimp only [Option.getD_some]
  rw [addresses_strings]
  exact Laid.cString (@laid_addresses ⟨address, _⟩ [] _ rfl) hzero

/-- Every entry of a packed response is read as its texts. -/
theorem Packed.reads (h : Packed headers cookies res) (hnul : ∀ t ∈ strings (headers ++ cookies), '\x00' ∉ t) :
    List.Forall₂ (Reads res.arena) (res.responseHeaders.getD []) (headers ++ cookies) :=
  reads_of_laid h.address_pos hnul h.laid

/-- Without an array there is nothing. -/
theorem Packed.eq_nil (h : Packed headers cookies res) (hnul : ∀ t ∈ strings (headers ++ cookies), '\x00' ∉ t)
    (hnone : res.responseHeaders = none) : headers = [] ∧ cookies = [] := by
  have hreads := h.reads hnul
  rw [hnone] at hreads
  exact List.append_eq_nil_iff.mp (List.forall₂_nil_left_iff.mp hreads)

/-- The headers are unpacked line by line. -/
theorem Packed.unpackHeaders_eq (h : Packed headers cookies res)
    (hnul : ∀ t ∈ strings (headers ++ cookies), '\x00' ∉ t) (hcount : headers.length < 2 ^ 31) :
    res.unpackHeaders = some (headers.foldl (fun found p => appendValue found p.1 p.2) .empty) := by
  rw [ResponseResult.unpackHeaders, h.headersLen, cInt_of_lt hcount, Int.toNat_natCast]
  cases hentries : res.responseHeaders with
  | none =>
    rw [(h.eq_nil hnul hentries).1]
    rfl
  | some entries =>
    have hreads := h.reads hnul
    rw [hentries, Option.getD_some, ← List.drop_zero (l := entries)] at hreads
    have hlen : headers.length ≤ (headers ++ cookies).length := by
      rw [List.length_append]
      exact Nat.le_add_right _ _
    have hunpack := unpackEntries_eq appendValue .empty hreads hlen
    rw [List.take_left] at hunpack
    dsimp only
    rw [hunpack]
    split_ifs with hsome
    · rfl
    · rw [List.eq_nil_of_length_eq_zero (by omega : headers.length = 0)]
      rfl

/-- The cookies are unpacked one after another. -/
theorem Packed.unpackCookies_eq (h : Packed headers cookies res)
    (hnul : ∀ t ∈ strings (headers ++ cookies), '\x00' ∉ t) (hcount : cookies.length < 2 ^ 31) :
    res.unpackCookies = some (PyDict.empty.setAll cookies) := by
  by_cases hnone : cookies = []
  · rw [ResponseResult.unpackCookies, h.cookiesLen, hnone]
    split
    · rfl
    · rfl
  cases hentries : res.responseHeaders with
  | none => exact absurd (h.eq_nil hnul hentries).2 hnone
  | some entries =>
    have hreads := List.forall₂_drop headers.length (h.reads hnul)
    rw [hentries, Option.getD_some, List.drop_left] at hreads
    have hunpack := unpackEntries_eq PyDict.set .empty hreads le_rfl
    rw [List.take_length] at hunpack
    have hpos := List.length_pos_iff.mpr hnone
    rw [ResponseResult.unpackCookies, hentries, h.cookies_eq hnone, h.cookiesLen, cInt_of_lt hcount]
    dsimp only
    rw [if_pos (by omega), Int.toNat_natCast, hunpack]
    rfl

/-- Without a positive count nothing is read. -/
theorem Packed.unpackHeaders_of_le (h : Packed headers cookies res) (hcount : cInt headers.length ≤ 0) :
    res.unpackHeaders = some .empty := by
  rw [ResponseResult.unpackHeaders, h.headersLen]
  cases res.responseHeaders with
  | none => rfl
  | some entries => exact if_neg (by omega)

/-- With a count that is not positive no cookie is unpacked. -/
theorem Packed.unpackCookies_of_le (h : Packed headers cookies res) (hcount : cInt cookies.length ≤ 0) :
    res.unpackCookies = some .empty := by
  rw [ResponseResult.unpackCookies, h.cookiesLen]
  split
  · exact if_neg (by omega)
  · rfl

/-! ## The values of a name -/

/-- A name gets the values of its lines, in their order. -/
theorem get_foldl_appendValue (lines : List (List Char × List Char))
    (found : PyDict (List Char) (List (List Char))) (name : List Char) :
    (lines.foldl (fun found p => appendValue found p.1 p.2) found).get name =
      if (lines.filter fun p => p.1 = name) = [] then found.get name
      else some ((found.get name).getD [] ++ (lines.filter fun p => p.1 = name).map Prod.snd) := by
  induction lines generalizing found with
  | nil => rfl
  | cons p lines ih =>
    rw [List.foldl_cons, ih, appendValue, PyDict.get_set]
    by_cases hname : p.1 = name
    · rw [List.filter_cons_of_pos (by simpa using hname), if_pos hname.symm, if_neg (List.cons_ne_nil _ _), hname,
        List.map_cons, Option.getD_some, List.append_assoc, List.singleton_append]
      split_ifs with hrest
      · rw [hrest, List.map_nil]
      · rfl
    · rw [List.filter_cons_of_neg (by simpa using hname), if_neg (Ne.symm hname)]

/-- The lines of a name have its values. -/
theorem lines_filter (range : header.Range) (name : List Char) :
    ((lines range.order).filter fun p => p.1 = name).map Prod.snd = header.values name := by
  have hline : ∀ entries : List (List Char × List (List Char)),
      ((lines entries).filter fun p => p.1 = name).map Prod.snd =
        (entries.filter fun entry => entry.1 = name).flatMap Prod.snd := by
    intro entries
    induction entries with
    | nil => rfl
    | cons entry entries ih =>
      have hcons : lines (entry :: entries) = entry.2.map (fun val => (entry.1, val)) ++ lines entries :=
        List.flatMap_cons
      rw [hcons, List.filter_append, List.map_append, ih]
      -- the lines of one entry all have its name
      by_cases hname : entry.1 = name
      · have hall : (entry.2.map fun val => (entry.1, val)).filter (fun p => decide (p.1 = name)) =
            entry.2.map fun val => (entry.1, val) := by
          refine List.filter_eq_self.mpr fun p hp => ?_
          obtain ⟨val, -, rfl⟩ := List.mem_map.mp hp
          exact decide_eq_true hname
        rw [hall, List.filter_cons_of_pos (by simpa using hname), List.flatMap_cons, List.map_map]
        exact congrArg (· ++ _) (List.map_id' entry.2)
      · have hnone : (entry.2.map fun val => (entry.1, val)).filter (fun p => decide (p.1 = name)) = [] := by
          refine List.filter_eq_nil_iff.mpr fun p hp => ?_
          obtain ⟨val, -, rfl⟩ := List.mem_map.mp hp
          simpa using hname
        rw [hnone, List.filter_cons_of_neg (by simpa using hname)]
        rfl
  have hdistinct : KeyedList.Distinct Prod.fst range.order := (range.perm.map Prod.fst).nodup_iff.mpr header.nodup
  rw [hline, KeyedList.filter_eq_toList_get hdistinct, KeyedList.get_perm range.perm hdistinct, Header.values]
  cases KeyedList.get Prod.fst name header.entries with
  | none => rfl
  | some entry => exact List.append_nil _

/-- The order of the names does not change the number of lines. -/
theorem length_lines (range : header.Range) : (lines range.order).length = (lines header.entries).length :=
  (range.perm.flatMap_right _).length_eq

theorem mem_strings_lines (range : header.Range) (cookies : List (List Char × List Char)) (t : List Char) :
    t ∈ strings (lines range.order ++ cookies) ↔ t ∈ strings (lines header.entries ++ cookies) :=
  (((range.perm.flatMap_right _).append_right cookies).flatMap_right _).mem_iff

/-- The strings are laid in the arena and fill it, whatever the orders of the two passes are. Fewer than `2 ^ 31`
header lines, and fewer than `2 ^ 31` cookies, are recovered. -/
theorem packed_unpacked (sizing filling : header.Range) (cookies : List (List Char × List Char))
    (hnul : ∀ t ∈ strings (lines header.entries ++ cookies), '\x00' ∉ t)
    (hmemory : memory.Gives (encode (lines filling.order ++ cookies))) :
    ∃ res, packResponseArena memory sizing.engine filling.engine (encode cookies) = some res ∧ res.errMsg = none ∧
      Laid res.arena 0 res.addresses (strings (encode (lines filling.order ++ cookies))) ∧
      ((lines header.entries).length < 2 ^ 31 → header.Recovered res) ∧
      (cookies.length < 2 ^ 31 → CookiesRecovered cookies res) := by
  obtain ⟨res, hres, hpacked⟩ := exists_packed sizing filling cookies hmemory
  have hnul' : ∀ t ∈ strings (lines filling.order ++ cookies), '\x00' ∉ t := fun t ht =>
    hnul t ((mem_strings_lines filling cookies t).mp ht)
  refine ⟨res, hres, hpacked.errMsg, hpacked.laid, fun hcount => ?_, fun hcount => ?_⟩
  · rw [← length_lines filling] at hcount
    refine ⟨_, hpacked.unpackHeaders_eq hnul' hcount, fun name => ?_⟩
    have hvalues := lines_filter filling name
    rw [get_foldl_appendValue, hvalues, PyDict.get_empty, Option.getD_none, List.nil_append]
    refine if_congr ?_ rfl rfl
    rw [← hvalues, List.map_eq_nil_iff]
  · refine ⟨_, hpacked.unpackCookies_eq hnul' hcount, fun name => ?_⟩
    rw [PyDict.get_setAll, PyDict.get_empty, Option.or_none]

/-- Memory for everything. -/
def plenty : Allocator where
  calloc _ := true
  malloc size := some ⟨⟨1, List.replicate size 0⟩, List.length_replicate, Nat.one_pos⟩

/-- A machine with plenty of memory can allocate everything. -/
theorem plenty_gives (entries : List (Bytes × Bytes)) : plenty.Gives entries := fun _ => ⟨rfl, rfl⟩

/-- Two cookies of one name. -/
def setCookies : Header :=
  ⟨[("Set-Cookie".toList, ["a=1".toList, "a=2".toList]), ("Server".toList, ["é".toList])], by decide⟩

/-- The second pass sees the two names in the other order. -/
theorem packed_unpacked_setCookies :
    ∃ res, packResponseArena plenty (Header.Range.engine ⟨setCookies.entries, .refl _⟩)
        (Header.Range.engine (⟨setCookies.entries.reverse, List.reverse_perm _⟩ : setCookies.Range))
        (encode [("a".toList, "1".toList), ("a".toList, "2".toList)]) = some res ∧
      setCookies.Recovered res ∧ CookiesRecovered [("a".toList, "1".toList), ("a".toList, "2".toList)] res := by
  obtain ⟨res, hres, -, -, hheaders, hcookies⟩ :=
    packed_unpacked (⟨setCookies.entries, .refl _⟩ : setCookies.Range)
      ⟨setCookies.entries.reverse, List.reverse_perm _⟩ [("a".toList, "1".toList), ("a".toList, "2".toList)]
      (by decide) (plenty_gives _)
  exact ⟨res, hres, hheaders (by decide), hcookies (by decide)⟩

/-- One name with as many empty values. -/
def emptyValues (n : ℕ) : Header := ⟨[(['a'], List.replicate n [])], List.nodup_singleton _⟩

/-- With `2 ^ 31` lines, and as many cookies, nothing is recovered. -/
theorem not_unpacked :
    (¬∀ (header : Header) (sizing filling : header.Range) (cookies : List (List Char × List Char)) (memory : Allocator),
      (∀ t ∈ strings (lines header.entries ++ cookies), '\x00' ∉ t) →
        memory.Gives (encode (lines filling.order ++ cookies)) →
          ∃ res, packResponseArena memory sizing.engine filling.engine (encode cookies) = some res ∧
            header.Recovered res) ∧
      ¬∀ (header : Header) (sizing filling : header.Range) (cookies : List (List Char × List Char)) (memory : Allocator),
        (∀ t ∈ strings (lines header.entries ++ cookies), '\x00' ∉ t) →
          memory.Gives (encode (lines filling.order ++ cookies)) →
            ∃ res, packResponseArena memory sizing.engine filling.engine (encode cookies) = some res ∧
              CookiesRecovered cookies res := by
  generalize hn : 2 ^ 31 = n
  -- a count of 2^31 is negative as a C int
  have hcount : cInt n ≤ 0 := by
    rw [← hn]
    decide
  have hpos : n ≠ 0 := by omega
  have hlines : lines (emptyValues n).entries = List.replicate n (['a'], []) := by
    rw [emptyValues, lines, List.flatMap_singleton, List.map_replicate]
  have hnul : ∀ t ∈ strings (lines (emptyValues n).entries ++ List.replicate n (['a'], [])), '\x00' ∉ t := by
    rw [hlines, List.replicate_append_replicate, strings]
    intro t ht
    obtain ⟨p, hp, ht⟩ := List.mem_flatMap.mp ht
    rw [List.eq_of_mem_replicate hp] at ht
    rcases List.mem_pair.mp ht with rfl | rfl
    · decide
    · decide
  have range : (emptyValues n).Range := ⟨(emptyValues n).entries, .refl _⟩
  have hmemory : plenty.Gives (encode (lines range.order ++ List.replicate n (['a'], []))) := plenty_gives _
  obtain ⟨res, hres, hpacked⟩ := exists_packed range range (List.replicate n (['a'], [])) hmemory
  refine ⟨fun hall => ?_, fun hall => ?_⟩
  · obtain ⟨res', hres', found, hfound, hvalues⟩ := hall (emptyValues n) range range
      (List.replicate n (['a'], [])) plenty hnul hmemory
    obtain rfl := Option.some.inj (hres.symm.trans hres')
    have hnone := hpacked.unpackHeaders_of_le (by rw [length_lines, hlines, List.length_replicate]; exact hcount)
    obtain rfl := Option.some.inj (hfound.symm.trans hnone)
    have hvalue : (emptyValues n).values ['a'] = List.replicate n [] := rfl
    have hget := hvalues ['a']
    rw [hvalue, PyDict.get_empty, if_neg (mt (List.replicate_eq_nil_iff _).mp hpos)] at hget
    contradiction
  · obtain ⟨res', hres', found, hfound, hvalues⟩ := hall (emptyValues n) range range
      (List.replicate n (['a'], [])) plenty hnul hmemory
    obtain rfl := Option.some.inj (hres.symm.trans hres')
    have hnone := hpacked.unpackCookies_of_le (by rw [List.length_replicate]; exact hcount)
    obtain rfl := Option.some.inj (hfound.symm.trans hnone)
    have hget := hvalues ['a']
    rw [PyDict.get_empty, eq_comm, Option.map_eq_none_iff, KeyedList.last_eq_none_iff] at hget
    exact hget _ (List.mem_replicate.mpr ⟨hpos, rfl⟩) rfl

end TlsClient.Response.Arena
