import Mathlib.Data.List.Basic
import TlsClient.Library.WireBytes

/-!
# The buffer of a response body

Embeds `src/third_party/fhttp/http2/databuffer.go`. The bytes of a stream that have arrived and are not read yet
stand in chunks of five sizes, which come from pools and go back to them; what a chunk from a pool holds before it
is written is left from its last use.

`Sound` says where the bytes are. Then no operation panics, and the buffer is a queue of bytes: what is read, one
piece after another, and what is still there is what was written.
-/

open WireBytes

namespace TlsClient.Http2

def dataChunkSizeClasses : List ℕ := [1024, 2048, 4096, 8192, 16384]

/-- What the pools give, now and at each turn from now on: a chunk of the size of each. Two chunks of one pool may
hold different bytes. -/
structure DataChunkPools where
  get : ℕ → Fin 5 → Bytes
  length_get : ∀ turn i, (get turn i).length = dataChunkSizeClasses.get i

/-- The pools at the next turn. -/
def DataChunkPools.next (pools : DataChunkPools) : DataChunkPools where
  get turn := pools.get (turn + 1)
  length_get turn := pools.length_get (turn + 1)

/-- The first class that the size fits into, or the last one. -/
def dataChunkClass (size : ℤ) : Fin 5 :=
  ⟨dataChunkSizeClasses.dropLast.findIdx fun n => size ≤ n, Nat.lt_succ_of_le List.findIdx_le_length⟩

def getDataBufferChunk (pools : DataChunkPools) (size : ℤ) : Bytes := pools.get 0 (dataChunkClass size)

/-- A chunk of a length that is none of the classes is a panic. -/
def putDataBufferChunk (p : Bytes) : Option Unit := if p.length ∈ dataChunkSizeClasses then some () else none

structure DataBuffer where
  chunks : List Bytes
  r : ℕ
  w : ℕ
  size : ℤ
  /-- an `int64` -/
  expected : ℤ

namespace DataBuffer

/-- An empty buffer of a body of the length `expected`, if it is known. -/
def new (expected : ℤ) : DataBuffer := { chunks := [], r := 0, w := 0, size := 0, expected }

def len (b : DataBuffer) : ℤ := b.size

/-- `none` where an index is out of range. -/
def bytesFromFirstChunk (b : DataBuffer) : Option Bytes :=
  match b.chunks with
  | [] => none
  | [c] => if b.r ≤ b.w ∧ b.w ≤ c.length then some ((c.take b.w).drop b.r) else none
  | c :: _ => if b.r ≤ c.length then some (c.drop b.r) else none

/-- The loop of `Read` into the next `n` bytes of the caller. `none` is a panic, or a turn that changes nothing. -/
def readLoop (b : DataBuffer) (n : ℕ) : Option (DataBuffer × Bytes) :=
  if 0 < n ∧ b.size > 0 then do
    let readFrom ← b.bytesFromFirstChunk
    let out := readFrom.take n
    match _h : b.chunks with
    | [] => none
    | c :: cs =>
      -- the first chunk has been consumed
      if b.r + out.length = c.length then
        putDataBufferChunk c
        let (b, rest) ← readLoop { b with chunks := cs, r := 0, size := b.size - out.length } (n - out.length)
        some (b, out ++ rest)
      else if _hout : out = [] then none
      else
        let (b, rest) ← readLoop { b with r := b.r + out.length, size := b.size - out.length } (n - out.length)
        some (b, out ++ rest)
  else some (b, [])
termination_by n + b.chunks.length
decreasing_by
  · simp only [_h, List.length_cons]
    omega
  · have hpos : 0 < (readFrom.take n).length := List.length_pos_of_ne_nil _hout
    have hle : (readFrom.take n).length ≤ n := List.length_take_le n readFrom
    exact Nat.add_lt_add_right (Nat.sub_lt (hpos.trans_le hle) hpos) _

inductive ReadError
  | empty
  | panic
  deriving DecidableEq

/-- `Read` with a slice of `n` bytes. -/
def read (b : DataBuffer) (n : ℕ) : Except ReadError (DataBuffer × Bytes) :=
  if b.size = 0 then .error .empty
  else
    match b.readLoop n with
    | some result => .ok result
    | none => .error .panic

def lastChunkOrAlloc (b : DataBuffer) (pools : DataChunkPools) (want : ℤ) : DataBuffer :=
  match b.chunks.getLast? with
  | some last => if b.w < last.length then b else { b with chunks := b.chunks ++ [getDataBufferChunk pools want], w := 0 }
  | none => { b with chunks := b.chunks ++ [getDataBufferChunk pools want], w := 0 }

/-- `copy(chunk[b.w:], p)` for the last chunk, and what is left of `p`. The difference wraps around in 64 bits. -/
def copyToLast (b : DataBuffer) (p : Bytes) : DataBuffer × Bytes :=
  let last := b.chunks.getLastD []
  let n := min (last.length - b.w) p.length
  ({ b with
     chunks := b.chunks.dropLast ++ [last.take b.w ++ p.take n ++ last.drop (b.w + n)]
     w := b.w + n
     size := b.size + n
     expected := (b.expected - n).bmod (2 ^ 64) },
    p.drop n)

/-- `Write`. A turn that copies nothing would not end. -/
def write (b : DataBuffer) (pools : DataChunkPools) (p : Bytes) : Option DataBuffer :=
  if p = [] then some b
  else
    let want : ℤ := if b.expected > p.length then b.expected else p.length
    let next := (b.lastChunkOrAlloc pools want).copyToLast p
    if _h : next.2.length < p.length then write next.1 pools.next next.2 else none
termination_by p.length

/-! ## The bytes in the chunks -/

/-- The bytes of the chunks from the place `r` of the first one to the place `w` of the last one. -/
def bytesOf (r w : ℕ) : List Bytes → Bytes
  | [] => []
  | [c] => (c.take w).drop r
  | c :: cs => c.drop r ++ bytesOf 0 w cs

/-- What is still to be read. -/
def contents (b : DataBuffer) : Bytes := bytesOf b.r b.w b.chunks

/-- The chunks are of the classes, both places are in their chunks, and there is something left of the first chunk
to read or to write. -/
structure Sound (b : DataBuffer) : Prop where
  classes : ∀ c ∈ b.chunks, c.length ∈ dataChunkSizeClasses
  size : b.size = b.contents.length
  read : ∀ c ∈ b.chunks.head?, b.r < c.length
  written : ∀ c ∈ b.chunks.getLast?, b.w ≤ c.length
  order : b.chunks.length = 1 → b.r ≤ b.w
  empty : b.chunks = [] → b.r = 0

section Reading

variable {b : DataBuffer} {c : Bytes} {cs : List Bytes} {r w n : ℕ}

theorem bytesOf_cons (hcs : cs ≠ []) : bytesOf r w (c :: cs) = c.drop r ++ bytesOf 0 w cs := by
  obtain ⟨d, ds, rfl⟩ := List.exists_cons_of_ne_nil hcs
  rfl

/-- What can be read of the first chunk is at the front of the contents. -/
theorem Sound.bytesFromFirstChunk (h : b.Sound) (hsize : b.size > 0) :
    ∃ c cs readFrom, b.chunks = c :: cs ∧ b.bytesFromFirstChunk = some readFrom ∧ b.r + readFrom.length ≤ c.length ∧
      b.contents = readFrom ++ bytesOf 0 b.w cs ∧ (cs ≠ [] → b.r + readFrom.length = c.length) ∧
        (cs = [] → readFrom = (c.take b.w).drop b.r) := by
  obtain ⟨hclasses, hlen, hread, hwritten, horder, -⟩ := h
  rw [contents] at hlen
  cases hchunks : b.chunks with
  | nil =>
    rw [hchunks] at hlen
    rw [hlen] at hsize
    exact absurd hsize (lt_irrefl _)
  | cons c cs =>
    have hr : b.r < c.length := hread c (by rw [hchunks]; rfl)
    cases cs with
    -- one chunk: it is read up to `w`; with more than one the first is read to its end
    | nil =>
      have hw : b.w ≤ c.length := hwritten c (by rw [hchunks]; rfl)
      have hle : b.r ≤ b.w := horder (by rw [hchunks]; rfl)
      refine ⟨c, [], (c.take b.w).drop b.r, rfl, ?_, ?_, ?_, fun hne => absurd rfl hne, fun _ => rfl⟩
      · rw [DataBuffer.bytesFromFirstChunk, hchunks]
        exact if_pos ⟨hle, hw⟩
      · rw [List.length_drop, List.length_take]
        omega
      · rw [contents, hchunks]
        exact (List.append_nil _).symm
    | cons d ds =>
      refine ⟨c, d :: ds, c.drop b.r, rfl, ?_, ?_, ?_, fun _ => ?_, fun hnil => by cases hnil⟩
      · rw [DataBuffer.bytesFromFirstChunk, hchunks]
        exact if_pos hr.le
      · rw [List.length_drop]
        omega
      · rw [contents, hchunks]
        rfl
      · rw [List.length_drop]
        omega

/-- The bytes without some of the first chunk. -/
theorem bytesOf_drop {k : ℕ} (hk : r + k ≤ c.length) : bytesOf (r + k) w (c :: cs) = (bytesOf r w (c :: cs)).drop k := by
  cases cs with
  | nil => exact List.drop_drop.symm
  | cons d ds =>
    have hle : k ≤ (c.drop r).length := by
      rw [List.length_drop]
      omega
    rw [bytesOf_cons (List.cons_ne_nil d ds), bytesOf_cons (List.cons_ne_nil d ds), List.drop_append_of_le_length hle,
      List.drop_drop]

theorem pos_of_mem_classes (h : n ∈ dataChunkSizeClasses) : 0 < n := by
  have hall : ∀ m ∈ dataChunkSizeClasses, 0 < m := by decide
  exact hall n h

/-- The buffer without the first `k` of its bytes, which are `out`. -/
structure Consumed (b : DataBuffer) (out : Bytes) (next : DataBuffer) : Prop where
  sound : next.Sound
  prefix_eq : out = b.contents.take out.length
  contents_eq : next.contents = b.contents.drop out.length

/-- The first chunk has been consumed. -/
theorem Sound.advance (h : b.Sound) (hsize : b.size > 0) (hchunks : b.chunks = c :: cs) {readFrom : Bytes}
    (hread : b.bytesFromFirstChunk = some readFrom) (hend : b.r + (readFrom.take n).length = c.length) :
    b.Consumed (readFrom.take n) { b with chunks := cs, r := 0, size := b.size - (readFrom.take n).length } := by
  obtain ⟨c', cs', readFrom', hchunks', hread', hle, hcontents, -⟩ := h.bytesFromFirstChunk hsize
  obtain ⟨rfl, rfl⟩ := List.cons.inj (hchunks'.symm.trans hchunks)
  obtain rfl := Option.some.inj (hread'.symm.trans hread)
  obtain hall : readFrom'.take n = readFrom' := by
    refine List.take_of_length_le ?_
    rw [List.length_take] at hend
    omega
  rw [hall] at hend ⊢
  have hrest : b.contents.drop readFrom'.length = bytesOf 0 b.w cs' := by rw [hcontents, List.drop_left]
  refine ⟨⟨fun d hd => h.classes d (hchunks ▸ List.mem_cons_of_mem _ hd), ?_, fun d hd => ?_, fun d hd => ?_,
    fun _ => Nat.zero_le _, fun _ => rfl⟩, ?_, hrest.symm⟩
  · change b.size - readFrom'.length = (bytesOf 0 b.w cs').length
    rw [h.size, hcontents, List.length_append]
    omega
  · exact pos_of_mem_classes (h.classes d (hchunks ▸ List.mem_cons_of_mem _ (List.mem_of_mem_head? hd)))
  · refine h.written d ?_
    rw [hchunks, List.getLast?_cons]
    rw [Option.mem_def] at hd ⊢
    rw [hd]
    rfl
  · rw [hcontents, List.take_left]

/-- Some of the first chunk has been read. -/
theorem Sound.advanceIn (h : b.Sound) (hsize : b.size > 0) (hchunks : b.chunks = c :: cs) {readFrom : Bytes}
    (hread : b.bytesFromFirstChunk = some readFrom) (hend : b.r + (readFrom.take n).length ≠ c.length) :
    b.Consumed (readFrom.take n)
      { b with r := b.r + (readFrom.take n).length, size := b.size - (readFrom.take n).length } := by
  obtain ⟨c', cs', readFrom', hchunks', hread', hle, hcontents, -, hlast⟩ := h.bytesFromFirstChunk hsize
  obtain ⟨rfl, rfl⟩ := List.cons.inj (hchunks'.symm.trans hchunks)
  obtain rfl := Option.some.inj (hread'.symm.trans hread)
  have hmin := List.length_take_le' n readFrom'
  -- advancing `r` inside the chunk drops the same number of bytes from the contents
  have hdrop : bytesOf (b.r + (readFrom'.take n).length) b.w b.chunks = b.contents.drop (readFrom'.take n).length := by
    rw [contents, hchunks', bytesOf_drop (by omega)]
  have hcut : (b.contents.take (readFrom'.take n).length).length = (readFrom'.take n).length := by
    rw [hcontents, List.length_take, List.length_append]
    omega
  refine ⟨⟨h.classes, ?_, fun d hd => ?_, h.written, fun hone => ?_, fun hnil => ?_⟩, ?_, hdrop⟩
  · have hsplit := congrArg List.length (List.take_append_drop (readFrom'.take n).length b.contents)
    rw [List.length_append, hcut] at hsplit
    change b.size - (readFrom'.take n).length = (bytesOf _ _ _).length
    rw [hdrop, h.size]
    omega
  · rw [hchunks', List.head?_cons, Option.mem_some_iff] at hd
    subst hd
    change b.r + (readFrom'.take n).length < c'.length
    omega
  -- only where the first chunk is the last one does `w` bound what was read
  · have hnil : cs' = [] := by
      rw [hchunks', List.length_cons] at hone
      exact List.length_eq_zero_iff.mp (Nat.succ.inj hone)
    have hlen := congrArg List.length (hlast hnil)
    rw [List.length_drop, List.length_take] at hlen
    have horder := h.order hone
    change b.r + (readFrom'.take n).length ≤ b.w
    omega
  · cases hchunks'.symm.trans hnil
  · rw [hcontents, List.take_append_of_le_length hmin]
    exact (List.prefix_iff_eq_take.mp (List.take_prefix n readFrom'))

/-- The loop takes bytes off the front until there are enough or none left. -/
theorem Sound.readLoop (h : b.Sound) (n : ℕ) :
    ∃ b', b.readLoop n = some (b', b.contents.take n) ∧ b'.Sound ∧ b'.contents = b.contents.drop n := by
  induction hmeasure : n + b.chunks.length using Nat.strongRecOn generalizing b n with
  | ind m ih =>
    rw [DataBuffer.readLoop]
    split_ifs with hgo
    · obtain ⟨hn, hsize⟩ := hgo
      obtain ⟨c, cs, readFrom, hchunks, hread, hle, hcontents, hmore, -⟩ := h.bytesFromFirstChunk hsize
      -- whatever the next state, the rest of the loop finishes the job
      have hfinish : ∀ next : DataBuffer, b.Consumed (readFrom.take n) next →
          n - (readFrom.take n).length + next.chunks.length < m →
          ∃ b', ((next.readLoop (n - (readFrom.take n).length)).bind fun p => some (p.1, readFrom.take n ++ p.2)) =
              some (b', b.contents.take n) ∧ b'.Sound ∧ b'.contents = b.contents.drop n := by
        intro next hnext hless
        obtain ⟨b', hb', hsound, hdrop⟩ := ih _ hless hnext.sound _ rfl
        have hlen := List.length_take_le n readFrom
        refine ⟨b', ?_, hsound, ?_⟩
        · have hsplit := List.take_add (l := b.contents) (i := (readFrom.take n).length)
            (j := n - (readFrom.take n).length)
          rw [Nat.add_sub_cancel' hlen, ← hnext.prefix_eq] at hsplit
          rw [hb', hnext.contents_eq, Option.bind_some, hsplit]
        · rw [hdrop, hnext.contents_eq, List.drop_drop, Nat.add_sub_cancel' hlen]
      rw [hread]
      simp only [Option.bind_eq_bind, Option.bind_some]
      have hpos : 0 < (readFrom.take n).length := by
        have hsome : readFrom.length ≠ 0 := by
          intro hzero
          have hr := h.read c (by rw [hchunks]; rfl)
          have hsize' := h.size
          by_cases hcs : cs = []
          · rw [hcontents, hcs, List.length_append, hzero] at hsize'
            simp only [bytesOf, List.length_nil] at hsize'
            omega
          · have hend := hmore hcs
            omega
        rw [List.length_take]
        omega
      split
      · rename_i hnil
        cases hnil.symm.trans hchunks
      · rename_i c' cs' hchunks'
        obtain ⟨rfl, rfl⟩ := List.cons.inj (hchunks'.symm.trans hchunks)
        split_ifs with hend hout
        · have hput : putDataBufferChunk c' = some () := if_pos (h.classes c' (hchunks ▸ List.mem_cons_self))
          rw [hput, Option.bind_some]
          refine hfinish _ (h.advance hsize hchunks hread hend) ?_
          rw [hchunks, List.length_cons] at hmeasure
          simp only
          omega
        · rw [hout] at hpos
          exact absurd hpos (lt_irrefl 0)
        · refine hfinish _ (h.advanceIn hsize hchunks hread hend) ?_
          simp only
          omega
    · have hnone : n = 0 ∨ b.contents = [] := by
        rcases Nat.eq_zero_or_pos n with hn | hn
        · exact Or.inl hn
        · refine Or.inr (List.length_eq_zero_iff.mp ?_)
          have hsize := h.size
          have hle : ¬b.size > 0 := fun hsize => hgo ⟨hn, hsize⟩
          omega
      refine ⟨b, ?_, h, ?_⟩
      · rcases hnone with rfl | hnil
        · rw [List.take_zero]
        · rw [hnil, List.take_nil]
      · rcases hnone with rfl | hnil
        · rw [List.drop_zero]
        · rw [hnil, List.drop_nil]

end Reading

section Writing

variable {b : DataBuffer} {init : List Bytes} {last : Bytes} {r w : ℕ} (pools : DataChunkPools)

/-- The bytes of full chunks and the last one. -/
theorem bytesOf_concat (hr : ∀ c ∈ init.head?, r ≤ c.length) :
    bytesOf r w (init ++ [last]) = (init.flatten ++ last.take w).drop r := by
  induction init generalizing r with
  | nil => rfl
  | cons c init ih =>
    rw [List.cons_append, bytesOf_cons (List.append_ne_nil_of_right_ne_nil _ (List.cons_ne_nil _ _)),
      ih fun _ _ => Nat.zero_le _, List.drop_zero, List.flatten_cons, List.append_assoc,
      List.drop_append_of_le_length (hr c rfl)]

/-- A chunk from the pools is of one of the classes. -/
theorem length_getDataBufferChunk (size : ℤ) : (getDataBufferChunk pools size).length ∈ dataChunkSizeClasses := by
  rw [getDataBufferChunk, pools.length_get]
  exact List.get_mem _ _

/-- The last chunk of a sound buffer. -/
theorem Sound.split (h : b.Sound) (hchunks : b.chunks = init ++ [last]) :
    last.length ∈ dataChunkSizeClasses ∧ b.w ≤ last.length ∧ (∀ c ∈ init.head?, b.r ≤ c.length) ∧
      b.contents = (init.flatten ++ last.take b.w).drop b.r ∧ b.r ≤ (init.flatten ++ last.take b.w).length := by
  have hwritten : b.w ≤ last.length := h.written last (by rw [hchunks]; exact List.getLast?_concat ..)
  have hhead : ∀ c ∈ init.head?, b.r ≤ c.length := by
    intro c hc
    refine (h.read c ?_).le
    obtain ⟨tail, rfl⟩ : ∃ tail, init = c :: tail := by
      cases init with
      | nil => cases hc
      | cons d tail => exact ⟨tail, congrArg (· :: tail) (Option.some.inj hc)⟩
    rw [hchunks]
    rfl
  refine ⟨h.classes last (hchunks ▸ List.mem_append_right _ List.mem_cons_self), hwritten, hhead, ?_, ?_⟩
  · rw [contents, hchunks, bytesOf_concat hhead]
  · rw [List.length_append, List.length_take, Nat.min_eq_left hwritten]
    cases init with
    | nil => exact (h.order (by rw [hchunks]; rfl)).trans (Nat.le_add_left _ _)
    | cons c tail =>
      have hle := hhead c rfl
      rw [List.flatten_cons, List.length_append]
      omega

/-- A new chunk behind full ones. -/
theorem Sound.alloc (h : b.Sound) (hfull : b.contents = b.chunks.flatten.drop b.r) (want : ℤ) :
    ∃ init last, b.chunks ++ [getDataBufferChunk pools want] = init ++ [last] ∧ 0 < last.length ∧
      Sound { b with chunks := b.chunks ++ [getDataBufferChunk pools want], w := 0 } ∧
        contents { b with chunks := b.chunks ++ [getDataBufferChunk pools want], w := 0 } = b.contents := by
  have hclass := length_getDataBufferChunk pools want
  generalize getDataBufferChunk pools want = chunk at hclass
  have hpos := pos_of_mem_classes hclass
  -- the new chunk is empty and every chunk before it is full, so nothing is added
  have hcontents : bytesOf b.r 0 (b.chunks ++ [chunk]) = b.contents := by
    rw [bytesOf_concat fun c hc => (h.read c hc).le, List.take_zero, List.append_nil, hfull]
  refine ⟨b.chunks, chunk, rfl, hpos, ⟨fun c hc => ?_, ?_, fun c hc => ?_, fun c _ => Nat.zero_le _, fun hone => ?_,
    fun hnil => ?_⟩, hcontents⟩
  · rcases List.mem_append.mp hc with hold | hnew
    · exact h.classes c hold
    · rwa [List.mem_singleton.mp hnew]
  · exact h.size.trans (congrArg (fun l : Bytes => (l.length : ℤ)) hcontents.symm)
  · cases hchunks : b.chunks with
    | nil =>
      rw [hchunks, List.nil_append, List.head?_cons, Option.mem_some_iff] at hc
      subst hc
      change b.r < chunk.length
      rwa [h.empty hchunks]
    | cons d ds =>
      rw [hchunks, List.cons_append, List.head?_cons, Option.mem_some_iff] at hc
      exact hc ▸ h.read d (by rw [hchunks]; rfl)
  · rw [List.length_append, List.length_singleton] at hone
    exact (h.empty (List.length_eq_zero_iff.mp (by omega))).le
  · exact absurd hnil (List.append_ne_nil_of_right_ne_nil _ (List.cons_ne_nil _ _))

/-- A chunk with room at the end, and no other bytes. -/
theorem Sound.lastChunkOrAlloc (h : b.Sound) (want : ℤ) :
    ∃ init last, (b.lastChunkOrAlloc pools want).chunks = init ++ [last] ∧
      (b.lastChunkOrAlloc pools want).w < last.length ∧ (b.lastChunkOrAlloc pools want).Sound ∧
        (b.lastChunkOrAlloc pools want).contents = b.contents := by
  rw [DataBuffer.lastChunkOrAlloc]
  cases hlast : b.chunks.getLast? with
  | none =>
    have hnil := List.getLast?_eq_none_iff.mp hlast
    exact h.alloc pools (by rw [contents, hnil, List.flatten_nil, List.drop_nil]; rfl) want
  | some last =>
    obtain ⟨init, hinit⟩ := List.getLast?_eq_some_iff.mp hlast
    simp only
    split_ifs with hroom
    · exact ⟨init, last, hinit, hroom, h, rfl⟩
    · obtain ⟨-, hwritten, -, hcontents, -⟩ := h.split hinit
      have hall : last.take b.w = last := List.take_of_length_le (not_lt.mp hroom)
      refine h.alloc pools ?_ want
      rw [hcontents, hall, hinit, List.flatten_append, List.flatten_singleton]

/-- What is copied is behind the bytes that were there. -/
theorem Sound.copyToLast (h : b.Sound) (hchunks : b.chunks = init ++ [last]) (hroom : b.w < last.length) (p : Bytes) :
    ∃ n, (b.copyToLast p).2 = p.drop n ∧ (p ≠ [] → 0 < n) ∧ (b.copyToLast p).1.Sound ∧
      (b.copyToLast p).1.contents = b.contents ++ p.take n := by
  obtain ⟨hclass, hwritten, hhead, hcontents, hr⟩ := h.split hchunks
  obtain ⟨n, hmin⟩ : ∃ n, n = min (last.length - b.w) p.length := ⟨_, rfl⟩
  have hcopy : b.copyToLast p = ({ b with
      chunks := init ++ [last.take b.w ++ p.take n ++ last.drop (b.w + n)]
      w := b.w + n
      size := b.size + n
      expected := (b.expected - n).bmod (2 ^ 64) }, p.drop n) := by
    rw [DataBuffer.copyToLast, hchunks]
    simp only [List.getLastD_concat, List.dropLast_concat, ← hmin]
  rw [hcopy]
  have hn : n ≤ p.length := hmin ▸ Nat.min_le_right _ _
  have hfits : b.w + n ≤ last.length := by omega
  have hpos : p ≠ [] → 0 < n := by
    intro hp
    have := List.length_pos_of_ne_nil hp
    omega
  have hlen : (last.take b.w ++ p.take n).length = b.w + n := by
    rw [List.length_append, List.length_take, List.length_take]
    omega
  have hchunk : (last.take b.w ++ p.take n ++ last.drop (b.w + n)).length = last.length := by
    rw [List.length_append, hlen, List.length_drop]
    omega
  -- the copy ends where the last chunk was written to
  have hnew : bytesOf b.r (b.w + n) (init ++ [last.take b.w ++ p.take n ++ last.drop (b.w + n)]) =
      b.contents ++ p.take n := by
    rw [bytesOf_concat hhead, List.take_append_of_le_length hlen.ge, List.take_of_length_le hlen.le, hcontents,
      ← List.append_assoc, List.drop_append_of_le_length hr]
  refine ⟨n, rfl, hpos, ⟨fun c hc => ?_, ?_, fun c hc => ?_, fun c hc => ?_, fun hone => ?_, fun hnil => ?_⟩, hnew⟩
  · rcases List.mem_append.mp hc with hold | hnew
    · exact h.classes c (hchunks ▸ List.mem_append_left _ hold)
    · rwa [List.mem_singleton.mp hnew, hchunk]
  · have htake : (p.take n).length = n := List.length_take_of_le hn
    change b.size + n = (bytesOf _ _ _).length
    rw [hnew, List.length_append, htake, h.size]
    rfl
  -- the first chunk is the last one where nothing is before it
  · cases init with
    | nil =>
      rw [List.nil_append, List.head?_cons, Option.mem_some_iff] at hc
      subst hc
      rw [hchunk]
      exact h.read last (by rw [hchunks]; rfl)
    | cons d ds =>
      rw [List.cons_append, List.head?_cons, Option.mem_some_iff] at hc
      exact hc ▸ h.read d (by rw [hchunks]; rfl)
  · rw [List.getLast?_concat, Option.mem_some_iff] at hc
    subst hc
    rwa [hchunk]
  · rw [List.length_append, List.length_singleton] at hone
    have horder := h.order (by rw [hchunks, List.length_append, List.length_singleton]; exact hone)
    exact horder.trans (Nat.le_add_right _ _)
  · exact absurd hnil (List.append_ne_nil_of_right_ne_nil _ (List.cons_ne_nil _ _))

/-- What is written is behind the bytes that were there. -/
theorem Sound.write (h : b.Sound) (p : Bytes) :
    ∃ b', b.write pools p = some b' ∧ b'.Sound ∧ b'.contents = b.contents ++ p := by
  induction hlen : p.length using Nat.strongRecOn generalizing b p pools with
  | ind m ih =>
    rw [DataBuffer.write]
    by_cases hnil : p = []
    · rw [if_pos hnil]
      exact ⟨b, rfl, h, by rw [hnil, List.append_nil]⟩
    · rw [if_neg hnil]
      simp only
      generalize (if b.expected > p.length then b.expected else (p.length : ℤ)) = want
      obtain ⟨init, last, hchunks, hroom, hsound, hsame⟩ := h.lastChunkOrAlloc pools want
      obtain ⟨n, hleft, hpos, hsound', hcontents⟩ := hsound.copyToLast hchunks hroom p
      have hless : (p.drop n).length < p.length := by
        rw [List.length_drop]
        have := hpos hnil
        have := List.length_pos_of_ne_nil hnil
        omega
      rw [hleft, dif_pos hless]
      obtain ⟨b', hb', hsound'', hall⟩ := ih _ (hlen ▸ hless) pools.next hsound' (p.drop n) rfl
      exact ⟨b', hb', hsound'', by rw [hall, hcontents, hsame, List.append_assoc, List.take_append_drop]⟩

end Writing

/-! ## A buffer is a queue -/

inductive Op
  | write (pools : DataChunkPools) (p : Bytes)
  | read (n : ℕ)

/-- An operation, with the bytes that were read. `none` is a panic. -/
def step (b : DataBuffer) : Op → Option (DataBuffer × Bytes)
  | .write pools p => (b.write pools p).map fun b => (b, [])
  | .read n =>
    match b.read n with
    | .ok result => some result
    | .error .empty => some (b, [])
    | .error .panic => none

/-- The operations one after another, with what each of them read. -/
def run (b : DataBuffer) : List Op → Option (DataBuffer × List Bytes)
  | [] => some (b, [])
  | op :: ops => do
    let (b, out) ← b.step op
    let (b, outs) ← run b ops
    some (b, out :: outs)

/-- The operations on a queue of bytes. -/
def queueRun (q : Bytes) : List Op → Bytes × List Bytes
  | [] => (q, [])
  | .write _ p :: ops => ((queueRun (q ++ p) ops).1, [] :: (queueRun (q ++ p) ops).2)
  | .read n :: ops => ((queueRun (q.drop n) ops).1, q.take n :: (queueRun (q.drop n) ops).2)

/-- All bytes that are written. -/
def written : List Op → Bytes
  | [] => []
  | .write _ p :: ops => p ++ written ops
  | .read _ :: ops => written ops

section Queue

variable {b : DataBuffer}

/-- A new buffer is sound. -/
theorem sound_new (expected : ℤ) : (new expected).Sound where
  classes := fun _ hc => by cases hc
  size := rfl
  read := fun _ hc => by cases hc
  written := fun _ hc => by cases hc
  order := fun _ => le_rfl
  empty := fun _ => rfl

/-- A write goes behind what is there. -/
theorem Sound.step_write (h : b.Sound) (pools : DataChunkPools) (p : Bytes) :
    ∃ b', b.step (.write pools p) = some (b', []) ∧ b'.Sound ∧ b'.contents = b.contents ++ p := by
  obtain ⟨b', hb', hsound, hcontents⟩ := h.write pools p
  exact ⟨b', by rw [step, hb']; rfl, hsound, hcontents⟩

/-- A read takes from the front. -/
theorem Sound.step_read (h : b.Sound) (n : ℕ) :
    ∃ b', b.step (.read n) = some (b', b.contents.take n) ∧ b'.Sound ∧ b'.contents = b.contents.drop n := by
  have hsize := h.size
  by_cases hzero : b.size = 0
  · have hnil : b.contents = [] := List.length_eq_zero_iff.mp (by omega)
    refine ⟨b, ?_, h, by rw [hnil, List.drop_nil]⟩
    rw [step, DataBuffer.read, if_pos hzero, hnil, List.take_nil]
  · obtain ⟨b', hb', hsound, hcontents⟩ := h.readLoop n
    refine ⟨b', ?_, hsound, hcontents⟩
    rw [step, DataBuffer.read, if_neg hzero, hb']

/-- A run on a sound buffer is one on the queue of its contents. -/
theorem Sound.run (h : b.Sound) (ops : List Op) :
    ∃ b', b.run ops = some (b', (queueRun b.contents ops).2) ∧ b'.Sound ∧ b'.contents = (queueRun b.contents ops).1 := by
  induction ops generalizing b with
  | nil => exact ⟨b, rfl, h, rfl⟩
  | cons op ops ih =>
    cases op with
    | write pools p =>
      obtain ⟨mid, hmid, hsound, hcontents⟩ := h.step_write pools p
      obtain ⟨b', hb', hsound', hall⟩ := ih hsound
      rw [hcontents] at hb' hall
      exact ⟨b', by rw [DataBuffer.run, hmid]; simp only [Option.bind_eq_bind, Option.bind_some, hb']; rfl, hsound', hall⟩
    | read n =>
      obtain ⟨mid, hmid, hsound, hcontents⟩ := h.step_read n
      obtain ⟨b', hb', hsound', hall⟩ := ih hsound
      rw [hcontents] at hb' hall
      exact ⟨b', by rw [DataBuffer.run, hmid]; simp only [Option.bind_eq_bind, Option.bind_some, hb']; rfl, hsound', hall⟩

/-- A queue gives what was written, in order. -/
theorem queueRun_flatten (q : Bytes) (ops : List Op) :
    (queueRun q ops).2.flatten ++ (queueRun q ops).1 = q ++ written ops := by
  induction ops generalizing q with
  | nil => exact (List.append_nil q).symm
  | cons op ops ih =>
    cases op with
    | write pools p =>
      rw [queueRun, List.flatten_cons, List.nil_append, ih, written, List.append_assoc]
    | read n =>
      rw [queueRun, List.flatten_cons, List.append_assoc, ih, ← List.append_assoc, List.take_append_drop]
      rfl

/-- Whatever is written and read, in whatever order and sizes, and whatever the chunks from the pools held before:
no operation panics, every read gives the bytes of a queue, and nothing is lost, repeated or reordered. -/
theorem run_new_eq (expected : ℤ) (ops : List Op) :
    ∃ b, (new expected).run ops = some (b, (queueRun [] ops).2) ∧ b.len = (queueRun [] ops).1.length ∧
      (queueRun [] ops).2.flatten ++ b.contents = written ops := by
  obtain ⟨b, hb, hsound, hcontents⟩ := (sound_new expected).run ops
  refine ⟨b, hb, ?_, ?_⟩
  · rw [len, hsound.size, hcontents]
    rfl
  · rw [hcontents]
    exact queueRun_flatten [] ops

end Queue

end DataBuffer

end TlsClient.Http2
