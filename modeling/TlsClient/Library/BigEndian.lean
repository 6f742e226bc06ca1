import Mathlib.Data.Nat.Bitwise
import Mathlib.Data.UInt
import TlsClient.Library.WireBytes

/-!
# Words of four bytes

A word of 32 bits is written with its highest byte first. Wire formats often give the top bit of such a word to
a flag: `uint31` is the word without it.
-/

namespace WireBytes

/-- `byte(v>>24), byte(v>>16), byte(v>>8), byte(v)` -/
def uint32Bytes (v : UInt32) : Bytes := [(v >>> 24).toUInt8, (v >>> 16).toUInt8, (v >>> 8).toUInt8, v.toUInt8]

/-- `binary.BigEndian.Uint32` -/
def uint32Of (a b c d : UInt8) : UInt32 :=
  a.toUInt32 <<< 24 ||| b.toUInt32 <<< 16 ||| c.toUInt32 <<< 8 ||| d.toUInt32

/-- `v & (1<<31 - 1)` -/
def uint31 (v : UInt32) : UInt32 := v &&& 0x7fffffff

@[simp] theorem length_uint32Bytes (v : UInt32) : (uint32Bytes v).length = 4 := rfl

/-- Bytes beside each other add up. -/
theorem toNat_uint32Of (a b c d : UInt8) :
    (uint32Of a b c d).toNat = 2 ^ 24 * a.toNat + 2 ^ 16 * b.toNat + 2 ^ 8 * c.toNat + d.toNat := by
  have ha := a.toNat_lt
  have hb := b.toNat_lt
  have hc := c.toNat_lt
  have hd := d.toNat_lt
  have hshift : ∀ x k : ℕ, x < 2 ^ 8 → k ≤ 24 → x <<< k % 2 ^ 32 = x <<< k := by
    intro x k hx hk
    refine Nat.mod_eq_of_lt ?_
    calc x <<< k = x * 2 ^ k := Nat.shiftLeft_eq x k
      _ < 2 ^ 8 * 2 ^ k := Nat.mul_lt_mul_of_pos_right hx (Nat.two_pow_pos k)
      _ ≤ 2 ^ 8 * 2 ^ 24 := Nat.mul_le_mul_left _ (Nat.pow_le_pow_right (by decide) hk)
  have hparts : (uint32Of a b c d).toNat =
      a.toNat <<< 24 ||| b.toNat <<< 16 ||| c.toNat <<< 8 ||| d.toNat := by
    simp only [uint32Of, UInt32.toNat_or, UInt32.toNat_shiftLeft, UInt8.toNat_toUInt32]
    rw [show (24 : UInt32).toNat % 32 = 24 from rfl, show (16 : UInt32).toNat % 32 = 16 from rfl,
      show (8 : UInt32).toNat % 32 = 8 from rfl, hshift _ _ ha (by decide), hshift _ _ hb (by decide),
      hshift _ _ hc (by decide)]
  -- the parts do not overlap, so `or` is addition
  have hlow : c.toNat <<< 8 ||| d.toNat = c.toNat <<< 8 + d.toNat := (Nat.shiftLeft_add_eq_or_of_lt hd _).symm
  have hmid : b.toNat <<< 16 ||| (c.toNat <<< 8 + d.toNat) = b.toNat <<< 16 + (c.toNat <<< 8 + d.toNat) :=
    (Nat.shiftLeft_add_eq_or_of_lt (by rw [Nat.shiftLeft_eq]; omega) _).symm
  rw [hparts, Nat.or_assoc, Nat.or_assoc, hlow, hmid,
    ← Nat.shiftLeft_add_eq_or_of_lt (by simp only [Nat.shiftLeft_eq]; omega)]
  simp only [Nat.shiftLeft_eq]
  omega

/-- It is read back from them. -/
theorem uint32Of_uint32Bytes (v : UInt32) :
    uint32Of (v >>> 24).toUInt8 (v >>> 16).toUInt8 (v >>> 8).toUInt8 v.toUInt8 = v := by
  have hv := v.toNat_lt
  refine UInt32.toNat_inj.mp ?_
  rw [toNat_uint32Of]
  simp only [UInt32.toNat_toUInt8, UInt32.toNat_shiftRight, Nat.shiftRight_eq_div_pow,
    show (24 : UInt32).toNat % 32 = 24 from rfl, show (16 : UInt32).toNat % 32 = 16 from rfl,
    show (8 : UInt32).toNat % 32 = 8 from rfl]
  omega

theorem toNat_uint31 (v : UInt32) : (uint31 v).toNat = v.toNat % 2 ^ 31 := by
  rw [uint31, UInt32.toNat_and]
  exact Nat.and_two_pow_sub_one_eq_mod _ 31

theorem uint31_zero : uint31 0 = 0 := rfl

theorem uint31_eq_self_iff {v : UInt32} : uint31 v = v ↔ v.toNat < 2 ^ 31 := by
  rw [← UInt32.toNat_inj, toNat_uint31]
  omega

theorem uint31_of_lt {v : UInt32} (h : v.toNat < 2 ^ 31) : uint31 v = v := uint31_eq_self_iff.mpr h

/-- The top bit is set beside a word without it. -/
theorem toNat_or_high {v : UInt32} (h : v.toNat < 2 ^ 31) : (v ||| 0x80000000).toNat = 2 ^ 31 + v.toNat := by
  rw [UInt32.toNat_or, Nat.or_comm]
  exact (Nat.two_pow_add_eq_or_of_lt h 1).symm

/-- The highest bit does not matter. -/
theorem uint31_or_high {v : UInt32} (h : v.toNat < 2 ^ 31) : uint31 (v ||| 0x80000000) = v := by
  refine UInt32.toNat_inj.mp ?_
  rw [toNat_uint31, toNat_or_high h]
  omega

/-- The top bit is not set exactly in the words below `1<<31`. -/
theorem and_high_eq_zero_iff {v : UInt32} : v &&& 0x80000000 = 0 ↔ v.toNat < 2 ^ 31 := by
  have hv := v.toNat_lt
  have hand : (v &&& 0x80000000).toNat = v.toNat / 2 ^ 31 % 2 * 2 ^ 31 := by
    rw [UInt32.toNat_and, ← Nat.toNat_testBit]
    exact Nat.and_two_pow _ 31
  rw [← UInt32.toNat_inj, hand]
  simp only [show (0 : UInt32).toNat = 0 from rfl]
  omega

end WireBytes
