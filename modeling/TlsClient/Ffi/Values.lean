import Mathlib.Data.UInt
import Mathlib.Data.BitVec

/-!
# Values at the C boundary

Go strings and C buffers are byte lists. A `C.int` made from a Go length keeps its low 32 bits and
reads them as a signed number.
-/

namespace TlsClient.Ffi

abbrev Bytes := List UInt8

/-- `C.int(n)` for a Go length `n`. -/
def cInt (n : ℕ) : ℤ := (BitVec.ofNat 32 n).toInt

theorem cInt_of_lt {n : ℕ} (hn : n < 2 ^ 31) : cInt n = n := by
  have hmod : n % 2 ^ 32 = n := Nat.mod_eq_of_lt (by omega)
  simp only [cInt, BitVec.toInt, BitVec.toNat_ofNat, hmod]
  split
  · rfl
  · omega

/-- A length of `2 ^ 31` or more is not what its `C.int` says. -/
theorem cInt_ne_of_le {n : ℕ} (hn : 2 ^ 31 ≤ n) : cInt n ≠ n := by
  have hlt := (BitVec.ofNat 32 n).toInt_lt
  simp only [cInt]
  omega

end TlsClient.Ffi
