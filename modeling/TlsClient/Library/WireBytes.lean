import Mathlib.Data.UInt
import Mathlib.Data.List.Basic
import Mathlib.Data.List.DropRight
import Mathlib.Data.List.TakeWhile

/-!
# Bytes read and written by index

Code that walks over a byte slice with an index panics when the index is out of range. Each access here says
so: `Checked` is a value or that panic, and a function that never panics is shown to end with a value.

Reading is stated by what is left from the index on (`data.drop i`): a field at the front of it is what the
access at `i` gives, and what follows the field is left from the index behind it. Writing is stated the same
way: a buffer is what has been written and a tail, and a write that begins where the written part ends
extends it.
-/

namespace WireBytes

abbrev Bytes := List UInt8

/-- A space or a tab. -/
def isBlank (b : UInt8) : Bool := b = 32 || b = 9

/-- `textproto.TrimString` -/
def trimString (s : Bytes) : Bytes := (s.dropWhile isBlank).rdropWhile isBlank

/-- A byte that is no blank is not dropped with the blanks. -/
theorem mem_dropWhile_isBlank {b : UInt8} {s : Bytes} (hb : isBlank b = false) (hmem : b ∈ s) :
    b ∈ s.dropWhile isBlank := by
  rw [← List.takeWhile_append_dropWhile (p := isBlank) (l := s)] at hmem
  refine (List.mem_append.mp hmem).resolve_left fun htake => ?_
  rw [List.mem_takeWhile_imp htake] at hb
  contradiction

/-- What is no blank is not trimmed. -/
theorem mem_trimString {b : UInt8} {s : Bytes} (hb : isBlank b = false) (hmem : b ∈ s) : b ∈ trimString s := by
  rw [trimString, List.rdropWhile, List.mem_reverse]
  exact mem_dropWhile_isBlank hb (List.mem_reverse.mpr (mem_dropWhile_isBlank hb hmem))

/-- The run-time panic of an index that is out of range. -/
inductive OutOfRange
  | outOfRange
  deriving DecidableEq, Repr

abbrev Checked (α : Type) := Except OutOfRange α

/-- `data[i]` -/
def byteAt (data : Bytes) (i : ℕ) : Checked UInt8 :=
  match data[i]? with
  | some b => .ok b
  | none => .error .outOfRange

/-- `data[i:j]` -/
def slice (data : Bytes) (i j : ℕ) : Checked Bytes :=
  if i ≤ j ∧ j ≤ data.length then .ok ((data.drop i).take (j - i)) else .error .outOfRange

/-- `int(data[i])<<8 | int(data[i+1])` -/
def uint16At (data : Bytes) (i : ℕ) : Checked ℕ := do
  let hi ← byteAt data i
  let lo ← byteAt data (i + 1)
  return hi.toNat <<< 8 ||| lo.toNat

/-- The two bytes of `uint16(n)`, the higher one first. -/
def uint16Bytes (n : ℕ) : Bytes := [UInt8.ofNat (n >>> 8), UInt8.ofNat n]

@[simp] theorem length_uint16Bytes (n : ℕ) : (uint16Bytes n).length = 2 := rfl

/-- Two bytes as a number. -/
theorem shiftLeft_or_eq (hi lo : UInt8) : hi.toNat <<< 8 ||| lo.toNat = 256 * hi.toNat + lo.toNat := by
  have hlo : lo.toNat < 2 ^ 8 := lo.toNat_lt
  rw [← Nat.shiftLeft_add_eq_or_of_lt hlo, Nat.shiftLeft_eq]
  omega

/-- A 16-bit number is read back from its bytes. -/
theorem uint16Bytes_combine {n : ℕ} (hn : n < 65536) :
    (UInt8.ofNat (n >>> 8)).toNat <<< 8 ||| (UInt8.ofNat n).toNat = n := by
  rw [shiftLeft_or_eq]
  simp only [UInt8.toNat_ofNat', Nat.shiftRight_eq_div_pow]
  omega

/-- Two bytes are the field of the number that they are read as. -/
theorem uint16Bytes_of_combine (hi lo : UInt8) : uint16Bytes (hi.toNat <<< 8 ||| lo.toNat) = [hi, lo] := by
  have hhi := hi.toNat_lt
  have hlo := lo.toNat_lt
  rw [shiftLeft_or_eq, uint16Bytes]
  congr 1
  · apply UInt8.toNat_inj.mp
    simp only [UInt8.toNat_ofNat', Nat.shiftRight_eq_div_pow]
    omega
  · congr 1
    apply UInt8.toNat_inj.mp
    simp only [UInt8.toNat_ofNat']
    omega

/-- Two bytes make a 16-bit number. -/
theorem combine_lt (hi lo : UInt8) : hi.toNat <<< 8 ||| lo.toNat < 65536 := by
  have hhi := hi.toNat_lt
  have hlo := lo.toNat_lt
  rw [shiftLeft_or_eq]
  omega

/-! ## Reading -/

section Reading

variable {data field rest : Bytes} {i j n : ℕ} {b : UInt8}

theorem byteAt_of_lt (h : i < data.length) : byteAt data i = .ok data[i] := by
  rw [byteAt, List.getElem?_eq_getElem h]

/-- The byte at the front of the rest. -/
theorem byteAt_of_drop (h : data.drop i = b :: rest) : byteAt data i = .ok b := by
  have hi : data[i]? = some b := by
    rw [← Nat.add_zero i, ← List.getElem?_drop, h]
    rfl
  rw [byteAt, hi]

theorem slice_of_le (hij : i ≤ j) (hj : j ≤ data.length) : slice data i j = .ok ((data.drop i).take (j - i)) :=
  if_pos ⟨hij, hj⟩

/-- What is left behind a field. -/
theorem drop_of_drop (h : data.drop i = field ++ rest) : data.drop (i + field.length) = rest := by
  rw [← List.drop_drop, h, List.drop_left]

theorem drop_succ_of_drop (h : data.drop i = b :: rest) : data.drop (i + 1) = rest := by
  rw [← List.drop_drop, h]
  rfl

/-- An index with something left is within the data, and what is left says how far it is from the end. -/
theorem length_of_drop (h : data.drop i = field) (hne : field ≠ []) : data.length = i + field.length := by
  have hlen := congrArg List.length h
  have hpos := List.length_pos_of_ne_nil hne
  rw [List.length_drop] at hlen
  omega

/-- A field of the rest ends in range. -/
theorem length_le_of_drop (h : data.drop i = field ++ rest) (hi : i ≤ data.length) :
    i + field.length ≤ data.length := by
  have hlen := congrArg List.length h
  rw [List.length_drop, List.length_append] at hlen
  omega

theorem slice_of_drop (h : data.drop i = field ++ rest) (hi : i ≤ data.length) :
    slice data i (i + field.length) = .ok field := by
  rw [slice_of_le (Nat.le_add_right _ _) (length_le_of_drop h hi), h, Nat.add_sub_cancel_left, List.take_left]

/-- What stands at the front is the slice of its length. -/
theorem slice_append (field rest : Bytes) : slice (field ++ rest) 0 field.length = .ok field := by
  rw [slice_of_le (Nat.zero_le _) (by simp), List.drop_zero, Nat.sub_zero, List.take_left]

/-- A 16-bit number at the front of the rest. -/
theorem uint16At_of_drop (h : data.drop i = uint16Bytes n ++ rest) (hn : n < 65536) :
    uint16At data i = .ok n := by
  have hlo : byteAt data (i + 1) = .ok (UInt8.ofNat n) := byteAt_of_drop (drop_succ_of_drop h)
  simp only [uint16At, byteAt_of_drop h, hlo]
  exact congrArg Except.ok (uint16Bytes_combine hn)

theorem uint16At_uint16Bytes (hn : n < 65536) : uint16At (uint16Bytes n) 0 = .ok n :=
  uint16At_of_drop (List.append_nil _).symm hn

/-- A 16-bit number at an index in range. -/
theorem uint16At_of_lt (h : i + 1 < data.length) :
    uint16At data i = .ok (data[i].toNat <<< 8 ||| data[i + 1].toNat) := by
  simp only [uint16At, byteAt_of_lt h, byteAt_of_lt (Nat.lt_of_succ_lt h)]
  rfl

end Reading

/-! ## Writing -/

/-- `dst[i] = b` -/
def setByte (dst : Bytes) (i : ℕ) (b : UInt8) : Checked Bytes :=
  if i < dst.length then .ok (dst.set i b) else .error .outOfRange

/-- What `copy(dst, src)` leaves in `dst`. It writes as much as fits. -/
def copyInto (dst src : Bytes) : Bytes := src.take dst.length ++ dst.drop src.length

/-- `n := copy(dst[i:], src)` -/
def copyAt (dst : Bytes) (i : ℕ) (src : Bytes) : Checked (Bytes × ℕ) :=
  if i ≤ dst.length then
    .ok (dst.take i ++ copyInto (dst.drop i) src, min (dst.length - i) src.length)
  else
    .error .outOfRange

/-- `binary.BigEndian.PutUint16(dst[i:], uint16(n))` -/
def putUint16At (dst : Bytes) (i n : ℕ) : Checked Bytes := do
  let dst ← setByte dst i (UInt8.ofNat (n >>> 8))
  setByte dst (i + 1) (UInt8.ofNat n)

section Writing

variable {written src tail dst : Bytes} {i n : ℕ} {b c : UInt8}

@[simp] theorem length_copyInto (dst src : Bytes) : (copyInto dst src).length = dst.length := by
  simp only [copyInto, List.length_append, List.length_take, List.length_drop]
  omega

/-- A copy that fits is in front of what was there. -/
theorem copyInto_of_le (h : src.length ≤ dst.length) : copyInto dst src = src ++ dst.drop src.length := by
  rw [copyInto, List.take_of_length_le h]

variable (written) in
/-- The next byte is set behind those written. -/
theorem setByte_append (h : i = written.length) : setByte (written ++ c :: tail) i b = .ok (written ++ b :: tail) := by
  subst h
  rw [setByte, if_pos (by simp), List.set_append_right _ _ (Nat.le_refl _), Nat.sub_self]
  rfl

variable (written) in
/-- A field that fits is copied behind the bytes written. -/
theorem copyAt_append (h : i = written.length) (hfit : src.length ≤ tail.length) :
    copyAt (written ++ tail) i src = .ok (written ++ (src ++ tail.drop src.length), src.length) := by
  subst h
  rw [copyAt, if_pos (by simp), List.take_left, List.drop_left, copyInto_of_le hfit, List.length_append,
    Nat.add_sub_cancel_left, Nat.min_eq_right hfit]

variable (written) in
/-- A 16-bit number is put behind the bytes written. -/
theorem putUint16At_append {c' : UInt8} (h : i = written.length) :
    putUint16At (written ++ c :: c' :: tail) i n = .ok (written ++ (uint16Bytes n ++ tail)) := by
  have hsecond : written ++ UInt8.ofNat (n >>> 8) :: c' :: tail =
      (written ++ [UInt8.ofNat (n >>> 8)]) ++ c' :: tail := by
    rw [List.append_assoc]
    rfl
  simp only [putUint16At, setByte_append written h, bind, Except.bind]
  rw [hsecond, setByte_append _ (by rw [h, List.length_append]; rfl), List.append_assoc]
  rfl

end Writing

end WireBytes
