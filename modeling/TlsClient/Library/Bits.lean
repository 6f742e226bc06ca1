import Mathlib.Data.Nat.Bitwise
import Mathlib.Data.UInt
import Mathlib.Data.List.Basic

/-!
# Bit strings of numbers and of bytes

A code that is not aligned to bytes is read and written with shifts and masks of a number. `toBits w n` is what
such a number means: its `w` low bits, the highest one first. A shift to the right drops bits at the end, a
shift to the left appends zeros, and "or" with a number that fits into trailing zeros replaces them.
-/

namespace Bits

/-- The `w` low bits of `n`, the highest one first. -/
def toBits : ℕ → ℕ → List Bool
  | 0, _ => []
  | w + 1, n => n.testBit w :: toBits w n

/-- The bits of a byte slice. -/
def byteBits (bytes : List UInt8) : List Bool := bytes.flatMap fun b => toBits 8 b.toNat

section Numbers

variable {w k m n : ℕ}

@[simp] theorem toBits_zero_width (n : ℕ) : toBits 0 n = [] := rfl

@[simp] theorem length_toBits (w n : ℕ) : (toBits w n).length = w := by
  induction w with
  | zero => rfl
  | succ w ih => rw [toBits, List.length_cons, ih]

/-- The upper bits and the lower ones. -/
theorem toBits_add (k w n : ℕ) : toBits (k + w) n = toBits k (n >>> w) ++ toBits w n := by
  induction k with
  | zero => rw [Nat.zero_add, toBits, List.nil_append]
  | succ k ih =>
    rw [show k + 1 + w = (k + w) + 1 by omega, toBits, toBits, ih, Nat.testBit_shiftRight, Nat.add_comm w k]
    rfl

/-- Numbers with the same bits. -/
theorem toBits_congr (h : ∀ i < w, m.testBit i = n.testBit i) : toBits w m = toBits w n := by
  induction w with
  | zero => rfl
  | succ w ih => rw [toBits, toBits, h w (by omega), ih fun i hi => h i (by omega)]

/-- The bits above the width are not read. -/
@[simp] theorem toBits_mod (w n : ℕ) : toBits w (n % 2 ^ w) = toBits w n := by
  refine toBits_congr fun i hi => ?_
  rw [Nat.testBit_mod_two_pow, decide_eq_true hi, Bool.true_and]

/-- The lower bits do not depend on the upper ones. -/
theorem toBits_mod_of_le (h : w ≤ k) (n : ℕ) : toBits w (n % 2 ^ k) = toBits w n := by
  refine toBits_congr fun i hi => ?_
  rw [Nat.testBit_mod_two_pow, decide_eq_true (by omega), Bool.true_and]

/-- The bits of a number are known from the list. -/
theorem testBit_of_toBits_eq (h : toBits w m = toBits w n) : ∀ i < w, m.testBit i = n.testBit i := by
  induction w with
  | zero => intro i hi; omega
  | succ w ih =>
    intro i hi
    obtain ⟨hhead, htail⟩ := List.cons.inj h
    rcases Nat.lt_succ_iff_lt_or_eq.mp hi with hlt | rfl
    · exact ih htail i hlt
    · exact hhead

/-- A number is known from its bits. -/
theorem toBits_inj (hm : m < 2 ^ w) (hn : n < 2 ^ w) (h : toBits w m = toBits w n) : m = n := by
  refine Nat.eq_of_testBit_eq fun i => ?_
  by_cases hi : i < w
  · exact testBit_of_toBits_eq h i hi
  · have hle : 2 ^ w ≤ 2 ^ i := Nat.pow_le_pow_right (by omega) (by omega)
    rw [Nat.testBit_lt_two_pow (hm.trans_le hle), Nat.testBit_lt_two_pow (hn.trans_le hle)]

@[simp] theorem toBits_zero (w : ℕ) : toBits w 0 = List.replicate w false := by
  induction w with
  | zero => rfl
  | succ w ih => rw [toBits, ih, Nat.zero_testBit, List.replicate_succ]

/-- The bits of the largest number. -/
theorem toBits_ones (w : ℕ) : toBits w (2 ^ w - 1) = List.replicate w true := by
  have h : ∀ k ≤ w, toBits k (2 ^ w - 1) = List.replicate k true := by
    intro k
    induction k with
    | zero => exact fun _ => rfl
    | succ k ih =>
      intro hk
      rw [toBits, ih (by omega), Nat.testBit_two_pow_sub_one, decide_eq_true (by omega), List.replicate_succ]
  exact h w le_rfl

/-- The number whose `w` low bits are ones. -/
theorem toBits_eq_ones_iff : toBits w n = List.replicate w true ↔ n &&& (2 ^ w - 1) = 2 ^ w - 1 := by
  have hpos : 0 < 2 ^ w := Nat.two_pow_pos w
  rw [Nat.and_two_pow_sub_one_eq_mod]
  constructor
  · intro h
    refine toBits_inj (Nat.mod_lt _ hpos) (by omega) ?_
    rw [toBits_mod, toBits_ones, h]
  · intro h
    rw [← toBits_mod, h, toBits_ones]

/-- A shift to the left appends zeros. -/
theorem toBits_shiftLeft (w k n : ℕ) : toBits (w + k) (n <<< k) = toBits w n ++ List.replicate k false := by
  have hlow : toBits k (n <<< k) = List.replicate k false := by
    rw [← toBits_zero k]
    refine toBits_congr fun i hi => ?_
    rw [Nat.testBit_shiftLeft, decide_eq_false (by omega), Nat.zero_testBit, Bool.false_and]
  rw [toBits_add, Nat.shiftLeft_shiftRight, hlow]

/-- A number is appended to another one. -/
theorem toBits_shiftLeft_or (w k : ℕ) {m n : ℕ} (hn : n < 2 ^ k) :
    toBits (w + k) (m <<< k ||| n) = toBits w m ++ toBits k n := by
  rw [toBits_add]
  congr 1
  · rw [Nat.shiftRight_or_distrib, Nat.shiftLeft_shiftRight, Nat.shiftRight_eq_div_pow, Nat.div_eq_of_lt hn,
      Nat.or_zero]
  · refine toBits_congr fun i hi => ?_
    rw [Nat.testBit_or, Nat.testBit_shiftLeft, decide_eq_false (by omega), Bool.false_and, Bool.false_or]

/-- What fits into the trailing zeros replaces them. -/
theorem toBits_or_of_zeros {bits : List Bool} (hn : n < 2 ^ k)
    (hm : toBits (w + k) m = bits ++ List.replicate k false) : toBits (w + k) (m ||| n) = bits ++ toBits k n := by
  rw [toBits_add] at hm
  obtain ⟨hhigh, hlow⟩ := List.append_inj' hm (by rw [length_toBits, List.length_replicate])
  have hzero : ∀ i < k, m.testBit i = false := by
    intro i hi
    rw [← toBits_zero k] at hlow
    rw [testBit_of_toBits_eq hlow i hi, Nat.zero_testBit]
  rw [toBits_add, ← hhigh]
  congr 1
  · rw [Nat.shiftRight_or_distrib, Nat.shiftRight_eq_div_pow n, Nat.div_eq_of_lt hn, Nat.or_zero]
  · refine toBits_congr fun i hi => ?_
    rw [Nat.testBit_or, hzero i hi, Bool.false_or]

end Numbers

section ByteSlices

variable {xs ys : List UInt8} {b c : UInt8}

@[simp] theorem byteBits_nil : byteBits [] = [] := rfl

@[simp] theorem byteBits_cons (b : UInt8) (xs : List UInt8) : byteBits (b :: xs) = toBits 8 b.toNat ++ byteBits xs :=
  List.flatMap_cons

@[simp] theorem byteBits_append (xs ys : List UInt8) : byteBits (xs ++ ys) = byteBits xs ++ byteBits ys :=
  List.flatMap_append

@[simp] theorem length_byteBits (xs : List UInt8) : (byteBits xs).length = 8 * xs.length := by
  induction xs with
  | nil => rfl
  | cons b xs ih => rw [byteBits_cons, List.length_append, length_toBits, ih, List.length_cons]; omega

theorem toBits_ofNat {w : ℕ} (hw : w ≤ 8) (n : ℕ) : toBits w (UInt8.ofNat n).toNat = toBits w n := by
  rw [UInt8.toNat_ofNat', toBits_mod_of_le hw]

theorem byte_eq_of_toBits (h : toBits 8 b.toNat = toBits 8 c.toNat) : b = c :=
  UInt8.toNat_inj.mp (toBits_inj b.toNat_lt c.toNat_lt h)

/-- Bytes are known from their bits. -/
theorem byteBits_injective (h : byteBits xs = byteBits ys) : xs = ys := by
  induction xs generalizing ys with
  | nil =>
    have hlen := congrArg List.length h
    rw [length_byteBits, length_byteBits, List.length_nil] at hlen
    exact (List.eq_nil_of_length_eq_zero (by omega)).symm
  | cons b xs ih =>
    cases ys with
    | nil =>
      have hlen := congrArg List.length h
      rw [length_byteBits, length_byteBits, List.length_nil, List.length_cons] at hlen
      omega
    | cons c ys =>
      rw [byteBits_cons, byteBits_cons] at h
      obtain ⟨hhead, htail⟩ := List.append_inj h (by rw [length_toBits, length_toBits])
      rw [byte_eq_of_toBits hhead, ih htail]

/-- Every eight bits are the bits of a byte. -/
theorem exists_byte (bits : List Bool) (h : bits.length = 8) : ∃ b : UInt8, toBits 8 b.toNat = bits := by
  obtain ⟨n, hn⟩ : ∃ n, toBits 8 n = bits := by
    refine ⟨bits.foldl (fun n bit => n <<< 1 ||| bit.toNat) 0, ?_⟩
    suffices hfold : ∀ (rest : List Bool) (w n : ℕ), toBits (w + rest.length)
        (rest.foldl (fun n bit => n <<< 1 ||| bit.toNat) n) = toBits w n ++ rest by
      simpa only [h, Nat.zero_add, toBits_zero_width, List.nil_append] using hfold bits 0 0
    intro rest
    induction rest with
    | nil => intro w n; simp
    | cons bit rest ih =>
      intro w n
      have hbit : toBits 1 bit.toNat = [bit] := by cases bit <;> rfl
      rw [List.foldl_cons, List.length_cons, show w + (rest.length + 1) = (w + 1) + rest.length by omega, ih,
        toBits_shiftLeft_or w 1 (by cases bit <;> decide), hbit, List.append_assoc, List.singleton_append]
  exact ⟨UInt8.ofNat n, by rw [toBits_ofNat le_rfl, hn]⟩

/-- Every bit string whose length is a multiple of eight is one of bytes. -/
theorem exists_bytes (k : ℕ) (bits : List Bool) (h : bits.length = 8 * k) : ∃ bytes, byteBits bytes = bits := by
  induction k generalizing bits with
  | zero => exact ⟨[], (List.eq_nil_of_length_eq_zero h).symm⟩
  | succ k ih =>
    obtain ⟨b, hb⟩ := exists_byte (bits.take 8) (by rw [List.length_take]; omega)
    obtain ⟨bytes, hbytes⟩ := ih (bits.drop 8) (by rw [List.length_drop]; omega)
    exact ⟨b :: bytes, by rw [byteBits_cons, hb, hbytes, List.take_append_drop]⟩

end ByteSlices

end Bits
