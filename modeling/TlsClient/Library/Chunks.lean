import Mathlib.Data.List.Forall2
import TlsClient.Library.CharReader

/-!
# Chunks of one size

A sequence cut at the multiples of a size. A text can be read chunk by chunk if and only if it can be read and every
cut is between two characters. For a decoder of any other kind it is enough that at every cut it goes on as it starts
(`exists_texts_of_resumes`).
-/

namespace Chunks

variable {α : Type*} {size : ℕ} {l : List α}

/-- The parts from each multiple of the size to the next. -/
def chunks (size : ℕ) (l : List α) : List (List α) :=
  (List.range ((l.length + size - 1) / size)).map fun i => (l.drop (i * size)).take size

theorem chunks_nil (hsize : 0 < size) : chunks size ([] : List α) = [] := by
  have hnone : (0 + size - 1) / size = 0 := Nat.div_eq_of_lt (by omega)
  rw [chunks, List.length_nil, hnone, List.range_zero, List.map_nil]

/-- The first chunk, and those of the rest. -/
theorem chunks_of_ne_nil (hsize : 0 < size) (hl : l ≠ []) :
    chunks size l = l.take size :: chunks size (l.drop size) := by
  have hpos := List.length_pos_iff.mpr hl
  have hcount : (l.length + size - 1) / size = ((l.drop size).length + size - 1) / size + 1 := by
    rw [← Nat.add_div_right _ hsize, List.length_drop]
    by_cases hle : size ≤ l.length
    · congr 1
      omega
    · have hone : ∀ n, 0 < n → n ≤ size → (n + size - 1) / size = 1 := by
        intro n hn hle
        exact Nat.div_eq_of_lt_le (by omega) (by omega)
      have hadd : 0 + size - 1 + size = size + size - 1 := by omega
      have hzero : l.length - size = 0 := by omega
      rw [hzero, hadd, hone _ hpos (by omega), hone _ hsize (Nat.le_refl _)]
  rw [chunks, hcount, List.range_succ_eq_map, List.map_cons, Nat.zero_mul, List.drop_zero, List.map_map, chunks]
  congr 1
  refine List.map_congr_left fun i _ => ?_
  rw [Function.comp_apply, List.drop_drop, Nat.succ_mul, Nat.add_comm]

/-- Chunk after chunk, until nothing is left. -/
theorem induction_on {motive : List α → Prop} (hsize : 0 < size) (nil : motive [])
    (chunk : ∀ l, l ≠ [] → motive (l.drop size) → motive l) (l : List α) : motive l := by
  induction hlength : l.length using Nat.strongRecOn generalizing l with
  | _ n ih =>
    by_cases hl : l = []
    · exact hl ▸ nil
    · have hpos := List.length_pos_iff.mpr hl
      refine chunk l hl (ih _ ?_ _ rfl)
      rw [← hlength, List.length_drop]
      omega

/-- The chunks, joined, are the whole. -/
theorem flatten_chunks (hsize : 0 < size) (l : List α) : (chunks size l).flatten = l := by
  induction l using induction_on hsize with
  | nil =>
    rw [chunks_nil hsize]
    rfl
  | chunk l hl ih => rw [chunks_of_ne_nil hsize hl, List.flatten_cons, ih, List.take_append_drop]

/-- Only nothing has no chunks. -/
theorem chunks_eq_nil_iff (hsize : 0 < size) : chunks size l = [] ↔ l = [] := by
  refine ⟨fun h => ?_, fun h => h ▸ chunks_nil hsize⟩
  rw [← flatten_chunks hsize l, h]
  rfl

/-- All chunks but the last are full. -/
theorem length_of_mem_dropLast (hsize : 0 < size) {c : List α} (hc : c ∈ (chunks size l).dropLast) :
    c.length = size := by
  induction l using induction_on hsize with
  | nil =>
    rw [chunks_nil hsize] at hc
    contradiction
  | chunk l hl ih =>
    rw [chunks_of_ne_nil hsize hl] at hc
    by_cases hrest : l.drop size = []
    · rw [hrest, chunks_nil hsize] at hc
      contradiction
    · rw [List.dropLast_cons_of_ne_nil (mt (chunks_eq_nil_iff hsize).mp hrest)] at hc
      rcases List.mem_cons.mp hc with rfl | hc
      · have hlong := mt List.drop_eq_nil_iff.mpr hrest
        rw [List.length_take, Nat.min_eq_left (Nat.le_of_not_le hlong)]
      · exact ih hc

/-! ## Texts in chunks -/

open CharReader

variable {β γ : Type*} {r : CharReader β γ} {bytes : List β}

/-- Every cut is between two characters. -/
def Aligned (r : CharReader β γ) (size : ℕ) (bytes : List β) : Prop :=
  ∀ i, i * size < bytes.length → r.Cuts bytes (i * size)

/-- The first chunk can be left out. -/
theorem aligned_iff (htake : (r.strict (bytes.take size)).isSome) :
    Aligned r size bytes ↔ Aligned r size (bytes.drop size) := by
  by_cases hle : size ≤ bytes.length
  · have hlength : (bytes.take size).length = size := by rw [List.length_take, Nat.min_eq_left hle]
    have hcuts : ∀ i, r.Cuts bytes ((i + 1) * size) ↔ r.Cuts (bytes.drop size) (i * size) := by
      intro i
      have h : r.Cuts (bytes.take size ++ bytes.drop size) ((bytes.take size).length + i * size) ↔
          r.Cuts (bytes.drop size) (i * size) := cuts_append_iff htake
      rw [List.take_append_drop, hlength, Nat.add_comm, ← Nat.succ_mul] at h
      exact h
    constructor
    · intro h i hi
      rw [List.length_drop] at hi
      refine (hcuts i).mp (h _ ?_)
      rw [Nat.succ_mul]
      omega
    · intro h i hi
      cases i with
      | zero =>
        rw [Nat.zero_mul]
        exact cuts_zero bytes
      | succ i =>
        refine (hcuts i).mpr (h i ?_)
        rw [Nat.succ_mul] at hi
        rw [List.length_drop]
        omega
  · -- one chunk, and the only cut is its beginning
    have hnil : bytes.drop size = [] := List.drop_eq_nil_iff.mpr (Nat.le_of_not_le hle)
    refine iff_of_true (fun i hi => ?_) fun i hi => ?_
    · cases i with
      | zero =>
        rw [Nat.zero_mul]
        exact cuts_zero bytes
      | succ i =>
        rw [Nat.succ_mul] at hi
        omega
    · rw [hnil] at hi
      exact absurd hi (Nat.not_lt_zero _)

/-- A text can be read chunk by chunk if and only if it can be read, and no character is cut. -/
theorem isSome_strict_iff (hsize : 0 < size) (bytes : List β) :
    (∀ c ∈ chunks size bytes, (r.strict c).isSome) ↔ (r.strict bytes).isSome ∧ Aligned r size bytes := by
  induction bytes using induction_on hsize with
  | nil =>
    rw [chunks_nil hsize]
    refine iff_of_true (fun c hc => absurd hc List.not_mem_nil) ⟨rfl, fun i hi => ?_⟩
    exact absurd hi (Nat.not_lt_zero _)
  | chunk bytes hbytes ih =>
    rw [chunks_of_ne_nil hsize hbytes, List.forall_mem_cons, ih]
    have happend := @isSome_strict_append_iff _ _ r (bytes.take size) (bytes.drop size)
    rw [List.take_append_drop] at happend
    constructor
    · rintro ⟨htake, hdrop, haligned⟩
      exact ⟨(happend.mp ⟨htake, hdrop⟩).1, (aligned_iff htake).mpr haligned⟩
    · rintro ⟨hwhole, haligned⟩
      have hcuts : r.Cuts bytes (bytes.take size).length := by
        rw [List.length_take]
        by_cases hlt : size < bytes.length
        · have hfirst := haligned 1 (by rwa [Nat.one_mul])
          rwa [Nat.one_mul, ← Nat.min_eq_left (Nat.le_of_lt hlt)] at hfirst
        · have hend := cuts_append hwhole []
          rwa [List.append_nil, ← Nat.min_eq_right (Nat.le_of_not_lt hlt)] at hend
      obtain ⟨htake, hdrop⟩ := happend.mpr ⟨hwhole, hcuts⟩
      exact ⟨htake, hdrop, (aligned_iff htake).mp haligned⟩

/-- Readable parts have texts. -/
theorem exists_texts_iff {parts : List (List β)} :
    (∃ texts, List.Forall₂ (fun part t => r.strict part = some t) parts texts) ↔
      ∀ part ∈ parts, (r.strict part).isSome := by
  induction parts with
  | nil => exact iff_of_true ⟨[], .nil⟩ fun part hpart => absurd hpart List.not_mem_nil
  | cons part parts ih =>
    rw [List.forall_mem_cons, ← ih, Option.isSome_iff_exists]
    constructor
    · rintro ⟨_, ht⟩
      obtain ⟨t, texts, ht, htexts, -⟩ := List.forall₂_cons_left_iff.mp ht
      exact ⟨⟨t, ht⟩, texts, htexts⟩
    · rintro ⟨⟨t, ht⟩, texts, htexts⟩
      exact ⟨t :: texts, .cons ht htexts⟩

/-- The texts of readable parts, joined, are the text of the whole. -/
theorem strict_flatten {parts : List (List β)} {texts : List (List γ)}
    (h : List.Forall₂ (fun part t => r.strict part = some t) parts texts) :
    r.strict parts.flatten = some texts.flatten := by
  induction h with
  | nil => rfl
  | cons ht _ ih =>
    rw [List.flatten_cons, strict_append ht, ih, List.flatten_cons]
    rfl

/-! ## Decoders that go on after a cut -/

/-- At every cut the decoder goes on as it starts: what it makes of one more chunk is the text before the cut and
the text of that chunk by itself. -/
structure Resumes (decode : List β → Option (List γ)) (size : ℕ) (bytes : List β) : Prop where
  nil : decode [] = some []
  chunk : ∀ i, i * size < bytes.length →
    decode (bytes.take ((i + 1) * size)) =
      (decode (bytes.take (i * size))).bind fun before =>
        (decode ((bytes.drop (i * size)).take size)).map (before ++ ·)

variable {decode : List β → Option (List γ)} {t : List γ}

/-- The text up to a cut is that of the chunks before it. -/
theorem Resumes.texts_take (h : Resumes decode size bytes) {count : ℕ}
    (hcount : ∀ i < count, i * size < bytes.length) (ht : decode (bytes.take (count * size)) = some t) :
    ∃ texts, List.Forall₂ (fun part t => decode part = some t)
      ((List.range count).map fun i => (bytes.drop (i * size)).take size) texts ∧ texts.flatten = t := by
  induction count generalizing t with
  | zero =>
    rw [Nat.zero_mul, List.take_zero, h.nil] at ht
    exact ⟨[], .nil, Option.some.inj ht⟩
  | succ count ih =>
    rw [h.chunk count (hcount count (Nat.lt_succ_self _))] at ht
    obtain ⟨before, hbefore, hmap⟩ := Option.bind_eq_some_iff.mp ht
    obtain ⟨last, hlast, rfl⟩ := Option.map_eq_some_iff.mp hmap
    obtain ⟨texts, htexts, rfl⟩ := ih (fun i hi => hcount i (Nat.lt_succ_of_lt hi)) hbefore
    refine ⟨texts ++ [last], ?_, ?_⟩
    · rw [List.range_succ, List.map_append]
      exact List.rel_append htexts (.cons hlast .nil)
    · rw [List.flatten_append, List.flatten_singleton]

/-- A decoder that goes on at every cut as it starts can read the whole in chunks. -/
theorem exists_texts_of_resumes (hsize : 0 < size) (h : Resumes decode size bytes) (ht : decode bytes = some t) :
    ∃ texts, List.Forall₂ (fun part t => decode part = some t) (chunks size bytes) texts ∧ texts.flatten = t := by
  have hwhole : bytes.length ≤ (bytes.length + size - 1) / size * size := by
    have hdivision := Nat.div_add_mod (bytes.length + size - 1) size
    have hrest := Nat.mod_lt (bytes.length + size - 1) hsize
    rw [Nat.mul_comm] at hdivision
    omega
  refine h.texts_take (fun i hi => ?_) ?_
  · -- one more chunk begins inside
    have hle : (i + 1) * size ≤ bytes.length + size - 1 := (Nat.le_div_iff_mul_le hsize).mp hi
    rw [Nat.succ_mul] at hle
    omega
  · rwa [List.take_of_length_le hwhole]

end Chunks
