import TlsClient.Library.Binary64
import TlsClient.Python.Values

/-!
# Python's numbers

An `int` or a finite `float`. Arithmetic with a `float` rounds to the nearest double, and an `int` that is too
large for one raises `OverflowError`.
-/

namespace TlsClient.Python

/-- `float(n)`. -/
def toDouble (n : ℤ) : Except PyError ℚ :=
  if Binary64.Overflows n then .error .overflowError else .ok (Binary64.round n)

inductive Number where
  | int (n : ℤ)
  | float (x : Binary64)

def Number.value : Number → ℚ
  | .int n => n
  | .float x => x.val

/-- `float(x)`. -/
def Number.toFloat : Number → Except PyError ℚ
  | .int n => toDouble n
  | .float x => .ok x.val

theorem round_of_lt {n : ℤ} (hn : 0 < n) (hlt : n < 2 ^ 53) : Binary64.round n = n := by
  have hnat := Binary64.round_natCast (n := n.toNat) (by omega)
  rwa [← Int.cast_natCast, Int.toNat_of_nonneg hn.le] at hnat

/-- It is converted without loss. -/
theorem toDouble_of_lt {n : ℤ} (hn : 0 < n) (hlt : n < 2 ^ 53) : toDouble n = .ok n := by
  have hround := round_of_lt hn hlt
  have hfinite : ¬ Binary64.Overflows n := by
    rw [Binary64.Overflows, hround, abs_of_pos (Int.cast_pos.mpr hn), not_le]
    calc (n : ℚ) < ((2 ^ 53 : ℤ) : ℚ) := Int.cast_lt.mpr hlt
      _ = 2 ^ 53 := by norm_num
      _ ≤ 2 ^ 1024 := pow_le_pow_right₀ one_le_two (by norm_num)
  rw [toDouble, if_neg hfinite, hround]

/-- What is converted is rounded. -/
theorem toDouble_eq_ok {n : ℤ} {x : ℚ} (hok : toDouble n = .ok x) : x = Binary64.round n := by
  rw [toDouble] at hok
  split_ifs at hok
  exact (Except.ok.inj hok).symm

end TlsClient.Python
