import TlsClient.Library.Shuffle

/-!
# Slices of arrays on a heap

A slice is a stretch of an array, and slices may share an array, so writing through one can be seen through
another. The heap is the list of the arrays that have been made. `put` replaces what a slice shows and nothing
else; a write through a slice is stated as a `put`, which says at once what it writes and what it leaves alone.
-/

namespace Slices

open Shuffle

variable {α : Type*}

abbrev Heap (α : Type*) := List (List α)

/-- The elements of an array. -/
def array (h : Heap α) (n : ℕ) : List α := h[n]?.getD []

structure Slice where
  array : ℕ
  start : ℕ
  len : ℕ
deriving DecidableEq, Repr

/-- The slice lies within an array of the heap. -/
structure Slice.Valid (s : Slice) (h : Heap α) : Prop where
  array : s.array < h.length
  bound : s.start + s.len ≤ (Slices.array h s.array).length

/-- What a slice shows. -/
def read (h : Heap α) (s : Slice) : List α := ((array h s.array).drop s.start).take s.len

/-- A new array with these elements, and the slice of all of it. -/
def alloc (h : Heap α) (l : List α) : Heap α × Slice := (h ++ [l], ⟨h.length, 0, l.length⟩)

/-- `s[:n]` -/
def Slice.upTo (s : Slice) (n : ℕ) : Slice := { s with len := n }

/-- `s[i], s[j] = s[j], s[i]` -/
def swap (s : Slice) (h : Heap α) (i j : ℕ) : Heap α :=
  h.set s.array (swapAt (array h s.array) (s.start + i) (s.start + j))

/-- The heap in which the slice shows `l`. -/
def put (h : Heap α) (s : Slice) (l : List α) : Heap α :=
  h.set s.array ((array h s.array).take s.start ++ (l ++ (array h s.array).drop (s.start + s.len)))

variable {h : Heap α} {s t : Slice} {l l' : List α} {i j n : ℕ}

theorem array_set (hn : n < h.length) (l : List α) : array (h.set n l) n = l := by
  rw [array, List.getElem?_set_self hn, Option.getD_some]

theorem array_set_of_ne (hne : i ≠ n) (l : List α) : array (h.set n l) i = array h i := by
  rw [array, List.getElem?_set_ne (Ne.symm hne), array]

theorem set_array (hn : n < h.length) : h.set n (array h n) = h := by
  rw [array, List.getElem?_eq_getElem hn, Option.getD_some, List.set_getElem_self]

/-! ## What a slice shows -/

/-- A valid slice has as many elements as it says. -/
theorem length_read (hs : s.Valid h) : (read h s).length = s.len := by
  have hbound := hs.bound
  rw [read, List.length_take, List.length_drop]
  omega

theorem valid_upTo (hs : s.Valid h) (hn : n ≤ s.len) : (s.upTo n).Valid h := by
  exact ⟨hs.array, Nat.le_trans (Nat.add_le_add_left hn s.start) hs.bound⟩

theorem read_upTo (hn : n ≤ s.len) : read h (s.upTo n) = (read h s).take n := by
  rw [read, read, List.take_take, Nat.min_eq_left hn]
  rfl

/-- A new slice is valid. -/
theorem valid_alloc (h : Heap α) (l : List α) : (alloc h l).2.Valid (alloc h l).1 := by
  refine ⟨?_, ?_⟩
  · rw [alloc, List.length_append]
    exact Nat.lt_add_one _
  · simp [alloc, array]

theorem read_alloc (h : Heap α) (l : List α) : read (alloc h l).1 (alloc h l).2 = l := by
  simp [read, alloc, array]

/-- The slices that there are show the same after an allocation. -/
theorem read_alloc_of_valid (hs : s.Valid h) (l : List α) : read (alloc h l).1 s = read h s := by
  rw [read, read, alloc, array, array, List.getElem?_append_left hs.array]

/-! ## Writing through a slice -/

theorem put_read (hs : s.Valid h) : put h s (read h s) = h := by
  rw [put, read, ← List.drop_drop, List.take_append_drop, List.take_append_drop, set_array hs.array]

/-- What is written is read back. -/
theorem read_put (hs : s.Valid h) (hl : l.length = s.len) : read (put h s l) s = l := by
  have hbound := hs.bound
  have hstart : ((array h s.array).take s.start).length = s.start := by
    rw [List.length_take]
    omega
  rw [read, put, array_set hs.array, List.drop_left' hstart, List.take_left' hl]

/-- Slices of other arrays show the same. -/
theorem read_put_of_ne (hne : t.array ≠ s.array) (l : List α) : read (put h s l) t = read h t := by
  rw [read, put, array_set_of_ne hne, read]

/-- A longer slice from the same start shows what has been written and its own rest. -/
theorem read_put_upTo (hs : s.Valid h) (hn : n ≤ s.len) (hl : l.length = n) :
    read (put h (s.upTo n) l) s = l ++ (read h s).drop n := by
  have hbound := hs.bound
  have hstart : ((array h s.array).take s.start).length = s.start := by
    rw [List.length_take]
    omega
  have hput : put h (s.upTo n) l =
      h.set s.array ((array h s.array).take s.start ++ (l ++ (array h s.array).drop (s.start + n))) := rfl
  rw [read, hput, array_set hs.array, List.drop_left' hstart, read, List.take_append, hl, List.drop_take,
    List.drop_drop, List.take_of_length_le (by omega)]

/-- A swap in the first part. -/
theorem swapAt_append_left (hi : i < l.length) (hj : j < l.length) (l' : List α) :
    swapAt (l ++ l') i j = swapAt l i j ++ l' := by
  rw [swapAt_of_lt hi hj,
    swapAt_of_lt (List.length_append ▸ Nat.lt_add_right _ hi) (List.length_append ▸ Nat.lt_add_right _ hj),
    List.getElem_append_left hi, List.getElem_append_left hj, List.set_append_left _ _ hi,
    List.set_append_left _ _ (by rwa [List.length_set])]

/-- A swap in the second part. -/
theorem swapAt_append_right (l' : List α) (i j : ℕ) :
    swapAt (l' ++ l) (l'.length + i) (l'.length + j) = l' ++ swapAt l i j := by
  rw [swapAt, swapAt, List.getElem?_append_right (Nat.le_add_right _ _),
    List.getElem?_append_right (Nat.le_add_right _ _), Nat.add_sub_cancel_left, Nat.add_sub_cancel_left]
  cases l[i]? with
  | none => rfl
  | some a =>
    cases l[j]? with
    | none => rfl
    | some b =>
      show ((l' ++ l).set _ _).set _ _ = _
      rw [List.set_append_right _ _ (Nat.le_add_right _ _), List.set_append_right _ _ (Nat.le_add_right _ _),
        Nat.add_sub_cancel_left, Nat.add_sub_cancel_left]

/-- A swap through a slice swaps what it shows. -/
theorem swap_put (hs : s.Valid h) (hl : l.length = s.len) (hi : i < s.len) (hj : j < s.len) :
    swap s (put h s l) i j = put h s (swapAt l i j) := by
  have hbound := hs.bound
  have hstart : ((array h s.array).take s.start).length = s.start := by
    rw [List.length_take]
    omega
  have hwithin := swapAt_append_left (hl ▸ hi) (hl ▸ hj) ((array h s.array).drop (s.start + s.len))
  have hswap := @swapAt_append_right _ (l ++ (array h s.array).drop (s.start + s.len))
    ((array h s.array).take s.start) i j
  rw [hstart, hwithin] at hswap
  rw [swap, put, array_set hs.array, List.set_set, hswap, put]

end Slices
