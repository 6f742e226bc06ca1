import Mathlib.Data.Int.Log
import Mathlib.Data.Rat.Floor
import Mathlib.Tactic.Linarith
import Mathlib.Tactic.NormNum

/-!
# Rounding to doubles

The double nearest to a rational number, with ties to even: 53 significant bits, and exponents down to that
of the subnormal numbers. The exponent has no upper bound; `Overflows` says where a double would be infinite.

Rounding is monotone (`round_mono`) and keeps the natural numbers up to `2 ^ 53` (`round_natCast`), which bounds
the result of a computation from both sides.
-/

namespace Binary64

/-- The nearest integer, the even one if there are two. -/
def roundHalfEven (x : ℚ) : ℤ :=
  if x - ⌊x⌋ < 1 / 2 ∨ x - ⌊x⌋ = 1 / 2 ∧ Even ⌊x⌋ then ⌊x⌋ else ⌊x⌋ + 1

/-- The exponent of the last bit. -/
def exponent (x : ℚ) : ℤ := max (Int.log 2 |x| - 52) (-1074)

/-- The nearest double. -/
def round (x : ℚ) : ℚ := roundHalfEven (x / 2 ^ exponent x) * 2 ^ exponent x

/-- The nearest double is not finite. -/
def Overflows (x : ℚ) : Prop := 2 ^ 1024 ≤ |round x|

instance (x : ℚ) : Decidable (Overflows x) := inferInstanceAs (Decidable (_ ≤ _))

/-! ## The nearest integer -/

/-- Rounding does not go below the floor. -/
theorem floor_le_roundHalfEven (x : ℚ) : ⌊x⌋ ≤ roundHalfEven x := by
  rw [roundHalfEven]
  split_ifs
  · exact le_rfl
  · exact Int.le_add_one le_rfl

/-- Nor does it go above the next integer. -/
theorem roundHalfEven_le (x : ℚ) : roundHalfEven x ≤ ⌊x⌋ + 1 := by
  rw [roundHalfEven]
  split_ifs
  · exact Int.le_add_one le_rfl
  · exact le_rfl

@[simp] theorem roundHalfEven_intCast (n : ℤ) : roundHalfEven n = n := by
  rw [roundHalfEven, Int.floor_intCast, if_pos]
  exact .inl (by norm_num)

/-- Rounding to integers keeps the order. -/
theorem roundHalfEven_mono {x y : ℚ} (hxy : x ≤ y) : roundHalfEven x ≤ roundHalfEven y := by
  rcases (Int.floor_le_floor hxy).lt_or_eq with hlt | heq
  · exact (roundHalfEven_le x).trans ((Int.add_one_le_of_lt hlt).trans (floor_le_roundHalfEven y))
  · -- between two integers, rounding up happens from some point on
    rw [roundHalfEven, roundHalfEven, heq]
    have hfract : x - ⌊y⌋ ≤ y - ⌊y⌋ := by linarith
    split_ifs with hx hy hy
    · exact le_rfl
    · exact Int.le_add_one le_rfl
    · exfalso
      apply hx
      rcases hy with hy | ⟨hy, heven⟩
      · exact .inl (hfract.trans_lt hy)
      · rcases (hfract.trans_eq hy).lt_or_eq with hlt | hhalf
        · exact .inl hlt
        · exact .inr ⟨hhalf, heven⟩
    · exact le_rfl

/-! ## The nearest double -/

theorem two_zpow_pos (e : ℤ) : (0 : ℚ) < 2 ^ e := zpow_pos two_pos e

/-- A multiple of the last bit is kept. -/
theorem round_eq_self {x : ℚ} {m : ℤ} (hx : x = m * 2 ^ exponent x) : round x = x := by
  have hdiv : x / 2 ^ exponent x = m := (div_eq_iff (two_zpow_pos _).ne').mpr hx
  rw [round, hdiv, roundHalfEven_intCast, ← hx]

@[simp] theorem round_zero : round 0 = 0 := by
  refine round_eq_self (m := 0) ?_
  rw [Int.cast_zero, zero_mul]

/-- What is not negative is not rounded below zero. -/
theorem round_nonneg {x : ℚ} (hx : 0 ≤ x) : 0 ≤ round x := by
  have hdiv : 0 ≤ x / 2 ^ exponent x := div_nonneg hx (two_zpow_pos _).le
  have hfloor : 0 ≤ roundHalfEven (x / 2 ^ exponent x) :=
    (Int.floor_nonneg.mpr hdiv).trans (floor_le_roundHalfEven _)
  exact mul_nonneg (Int.cast_nonneg hfloor) (two_zpow_pos _).le

/-- What is not positive is not rounded above zero. -/
theorem round_nonpos {x : ℚ} (hx : x ≤ 0) : round x ≤ 0 := by
  have hdiv : x / 2 ^ exponent x ≤ 0 := div_nonpos_of_nonpos_of_nonneg hx (two_zpow_pos _).le
  have hint : roundHalfEven (x / 2 ^ exponent x) ≤ 0 := by
    have hmono := roundHalfEven_mono (hdiv.trans_eq Int.cast_zero.symm)
    rwa [roundHalfEven_intCast] at hmono
  exact mul_nonpos_of_nonpos_of_nonneg (Int.cast_nonpos.mpr hint) (two_zpow_pos _).le

theorem exponent_mono {x y : ℚ} (hx : 0 < x) (hxy : x ≤ y) : exponent x ≤ exponent y := by
  rw [exponent, exponent, abs_of_pos hx, abs_of_pos (hx.trans_le hxy)]
  exact max_le_max_right _ (Int.sub_le_sub_right (Int.log_mono_right hx hxy) 52)

/-- Numbers with different last bits have a power of two between them. -/
theorem round_le_round_of_exponent_lt {x y : ℚ} (hx : 0 < x) (hy : 0 < y) (hlt : exponent x < exponent y) :
    round x ≤ round y := by
  have hbot : -1074 ≤ exponent x := le_max_right _ _
  have hey : exponent y = Int.log 2 y - 52 := by
    rcases max_choice (Int.log 2 |y| - 52) (-1074) with hmax | hmax
    · rw [exponent, hmax, abs_of_pos hy]
    · have hmin : exponent y = -1074 := by rw [exponent, hmax]
      omega
  have hex : Int.log 2 x - 52 ≤ exponent x := by
    rw [exponent, abs_of_pos hx]
    exact le_max_left _ _
  have hlog : Int.log 2 x + 1 ≤ Int.log 2 y := by omega
  -- the power of two is a multiple of both last bits
  have hpow_x : ((2 : ℚ) ^ Int.log 2 y) / 2 ^ exponent x = ((2 ^ (Int.log 2 y - exponent x).toNat : ℤ) : ℚ) := by
    rw [← zpow_sub₀ two_ne_zero, Int.cast_pow, Int.cast_ofNat, ← zpow_natCast, Int.toNat_of_nonneg (by omega)]
  have hpow_y : ((2 : ℚ) ^ Int.log 2 y) / 2 ^ exponent y = ((2 ^ 52 : ℤ) : ℚ) := by
    rw [← zpow_sub₀ two_ne_zero, hey, sub_sub_cancel]
    norm_num
  have hlow : x ≤ 2 ^ Int.log 2 y :=
    (Int.lt_zpow_succ_log_self one_lt_two x).le.trans (zpow_le_zpow_right₀ one_le_two hlog)
  have hhigh : (2 : ℚ) ^ Int.log 2 y ≤ y := Int.zpow_log_le_self one_lt_two hy
  have hround_x : round x ≤ 2 ^ Int.log 2 y := by
    have hdiv := div_le_div_of_nonneg_right hlow (two_zpow_pos (exponent x)).le
    rw [hpow_x] at hdiv
    have hint := roundHalfEven_mono hdiv
    rw [roundHalfEven_intCast] at hint
    rw [round, ← le_div_iff₀ (two_zpow_pos _), hpow_x]
    exact Int.cast_le.mpr hint
  have hround_y : 2 ^ Int.log 2 y ≤ round y := by
    have hdiv := div_le_div_of_nonneg_right hhigh (two_zpow_pos (exponent y)).le
    rw [hpow_y] at hdiv
    have hint := roundHalfEven_mono hdiv
    rw [roundHalfEven_intCast] at hint
    rw [round, ← div_le_iff₀ (two_zpow_pos _), hpow_y]
    exact Int.cast_le.mpr hint
  exact hround_x.trans hround_y

/-- Rounding keeps the order. -/
theorem round_mono {x y : ℚ} (hx : 0 ≤ x) (hxy : x ≤ y) : round x ≤ round y := by
  rcases hx.eq_or_lt with rfl | hx
  · rw [round_zero]
    exact round_nonneg hxy
  rcases (exponent_mono hx hxy).lt_or_eq with hlt | heq
  · exact round_le_round_of_exponent_lt hx (hx.trans_le hxy) hlt
  · rw [round, round, heq]
    refine mul_le_mul_of_nonneg_right (Int.cast_le.mpr ?_) (two_zpow_pos _).le
    exact roundHalfEven_mono (div_le_div_of_nonneg_right hxy (two_zpow_pos _).le)

/-- The numbers up to `2 ^ 53` are doubles. -/
theorem round_natCast {n : ℕ} (hn : n ≤ 2 ^ 53) : round n = n := by
  have hexp : exponent n = max ((Nat.log 2 n : ℤ) - 52) (-1074) := by
    rw [exponent, abs_of_nonneg (Nat.cast_nonneg n), Int.log_natCast]
  rcases hn.lt_or_eq with hlt | rfl
  · have hlog : Nat.log 2 n < 53 := Nat.log_lt_of_lt_pow' (by norm_num) hlt
    have hle : exponent n ≤ 0 := by
      rw [hexp]
      omega
    refine round_eq_self (m := n * 2 ^ (-exponent n).toNat) ?_
    have hcast : ((2 ^ (-exponent n).toNat : ℤ) : ℚ) = 2 ^ (-exponent n) := by
      rw [Int.cast_pow, Int.cast_ofNat, ← zpow_natCast, Int.toNat_of_nonneg (by omega)]
    rw [Int.cast_mul, Int.cast_natCast, hcast, mul_assoc, ← zpow_add₀ two_ne_zero, neg_add_cancel, zpow_zero,
      mul_one]
  · have hone : exponent ((2 ^ 53 : ℕ) : ℚ) = 1 := by
      rw [hexp, Nat.log_pow one_lt_two]
      norm_num
    refine round_eq_self (m := 2 ^ 52) ?_
    rw [hone]
    norm_num

/-- Above `2 ^ 53`, doubles are integers. -/
theorem exists_round_natCast (n : ℕ) : ∃ m : ℤ, round n = m := by
  rcases le_or_gt n (2 ^ 53) with hle | hgt
  · exact ⟨n, round_natCast hle⟩
  · have hlog : 53 ≤ Nat.log 2 n := Nat.le_log_of_pow_le one_lt_two hgt.le
    have hexp : 0 ≤ exponent n := by
      rw [exponent, abs_of_nonneg (Nat.cast_nonneg n), Int.log_natCast]
      omega
    refine ⟨roundHalfEven (n / 2 ^ exponent n) * 2 ^ (exponent n).toNat, ?_⟩
    rw [round, Int.cast_mul, Int.cast_pow, Int.cast_ofNat, ← zpow_natCast, Int.toNat_of_nonneg hexp]

end Binary64

/-- A finite double. -/
structure Binary64 where
  val : ℚ
  round_val : Binary64.round val = val
