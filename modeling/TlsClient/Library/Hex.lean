import TlsClient.Library.Utf8

/-!
# Hexadecimal text read back

`decodeHex` takes two digits of either case a byte, and it reads back what `hexText` writes.
-/

namespace Utf8

/-- The value of a hexadecimal digit. -/
def hexValue (c : UInt8) : Option ℕ :=
  if 48 ≤ c.toNat ∧ c.toNat ≤ 57 then some (c.toNat - 48)
  else if 97 ≤ c.toNat ∧ c.toNat ≤ 102 then some (c.toNat - 87)
  else if 65 ≤ c.toNat ∧ c.toNat ≤ 70 then some (c.toNat - 55)
  else none

/-- The byte of two digits. -/
def hexByte (hi lo : UInt8) : Option UInt8 := do
  let hi ← hexValue hi
  let lo ← hexValue lo
  return UInt8.ofNat (16 * hi + lo)

/-- The bytes of a hexadecimal text. -/
def decodeHex : List UInt8 → Option (List UInt8)
  | [] => some []
  | [_] => none
  | hi :: lo :: rest => do
    let b ← hexByte hi lo
    let bs ← decodeHex rest
    return b :: bs

/-- A digit is read back. -/
theorem hexValue_hexDigit {n : ℕ} (hn : n < 16) : hexValue (hexDigit n) = some n := by
  rw [hexValue, toNat_hexDigit hn]
  by_cases hdigit : n < 10
  · rw [if_pos hdigit, if_pos ⟨by omega, by omega⟩]
    congr 1
    omega
  · rw [if_neg hdigit, if_neg (by omega), if_pos ⟨by omega, by omega⟩]
    congr 1
    omega

/-- A byte is read back. -/
theorem hexByte_hexDigit (b : UInt8) :
    hexByte (hexDigit (b.toNat / 16)) (hexDigit (b.toNat % 16)) = some b := by
  have hlt := b.toNat_lt
  rw [hexByte, hexValue_hexDigit (by omega), hexValue_hexDigit (by omega)]
  have hsum : 16 * (b.toNat / 16) + b.toNat % 16 = b.toNat := by omega
  show some (UInt8.ofNat (16 * (b.toNat / 16) + b.toNat % 16)) = some b
  rw [hsum, UInt8.ofNat_toNat]

theorem hexText_cons (b : UInt8) (bs : List UInt8) :
    hexText (b :: bs) = hexDigit (b.toNat / 16) :: hexDigit (b.toNat % 16) :: hexText bs := rfl

/-- The bytes are read back. -/
theorem decodeHex_hexText (bs : List UInt8) : decodeHex (hexText bs) = some bs := by
  induction bs with
  | nil => rfl
  | cons b bs ih =>
    rw [hexText_cons, decodeHex, hexByte_hexDigit, ih]
    rfl

end Utf8
