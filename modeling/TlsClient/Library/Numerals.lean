import Mathlib.Data.List.TakeWhile
import TlsClient.Library.Utf8

/-!
# Unsigned numbers read from text

`parseUint` reads the digits of a number and refuses what is not a digit or exceeds the size. Leading zeros are
digits like any other, so a number has many texts; `itoa` writes the one without them, which is the text read
with its leading zeros left out (`itoa_value`).
-/

namespace Numerals

open Utf8

inductive NumError
  | invalidSyntax
  | outOfRange
deriving DecidableEq, Repr

/-- The value of a digit, of bases up to 36. -/
def digitValue (c : UInt8) : Option ℕ :=
  if 48 ≤ c.toNat ∧ c.toNat ≤ 57 then some (c.toNat - 48)
  else if 97 ≤ c.toNat ∧ c.toNat ≤ 122 then some (c.toNat - 87)
  else if 65 ≤ c.toNat ∧ c.toNat ≤ 90 then some (c.toNat - 55)
  else none

/-- The loop over the digits, with the number so far. -/
def parseDigits (base maxVal : ℕ) : ℕ → List UInt8 → Except NumError ℕ
  | n, [] => .ok n
  | n, c :: rest =>
    match digitValue c with
    | none => .error .invalidSyntax
    | some d =>
      if base ≤ d then .error .invalidSyntax
      else if maxVal < base * n + d then .error .outOfRange
      else parseDigits base maxVal (base * n + d) rest

/-- `strconv.ParseUint`, for a base that is not 0. -/
def parseUint (s : List UInt8) (base bitSize : ℕ) : Except NumError ℕ :=
  if s = [] then .error .invalidSyntax else parseDigits base (2 ^ bitSize - 1) 0 s

/-- All bytes are decimal digits. -/
def Decimal (s : List UInt8) : Prop := ∀ c ∈ s, IsDigit c

/-- The number that decimal digits stand for. -/
def value (s : List UInt8) : ℕ :=
  s.foldl (fun n c => 10 * n + (c.toNat - 48)) 0

/-- The text without its leading zeros; a text of zeros alone keeps one. -/
def stripZeros (s : List UInt8) : List UInt8 :=
  match s.dropWhile (· = 48) with
  | [] => [48]
  | t => t

/-! ## Reading -/

variable {s : List UInt8} {c : UInt8} {base maxVal n m d : ℕ}

/-- A decimal digit and its value. -/
theorem isDigit_of_digitValue (hd : digitValue c = some d) (hlt : d < 10) : IsDigit c ∧ d = c.toNat - 48 := by
  rw [digitValue] at hd
  split_ifs at hd with hdigit hlower hupper
  · exact ⟨hdigit, (Option.some.inj hd).symm⟩
  · have hval := Option.some.inj hd
    omega
  · have hval := Option.some.inj hd
    omega

/-- What the loop accepts is decimal, and its result is the value. -/
theorem parseDigits_decimal (h : parseDigits 10 maxVal n s = .ok m) :
    Decimal s ∧ m = s.foldl (fun n c => 10 * n + (c.toNat - 48)) n ∧ (n ≤ maxVal → m ≤ maxVal) := by
  induction s generalizing n with
  | nil =>
    obtain rfl := Except.ok.inj h
    exact ⟨fun _ hc => (by cases hc), rfl, id⟩
  | cons c rest ih =>
    rw [parseDigits] at h
    split at h
    · contradiction
    · rename_i d hd
      split_ifs at h with hbase hmax
      obtain ⟨hdigit, rfl⟩ := isDigit_of_digitValue hd (not_le.mp hbase)
      obtain ⟨hrest, rfl, hle⟩ := ih h
      refine ⟨?_, rfl, fun _ => hle (not_lt.mp hmax)⟩
      intro b hb
      rcases List.mem_cons.mp hb with rfl | hmem
      · exact hdigit
      · exact hrest b hmem

/-- What is accepted is decimal, and it is read as the number that it stands for. -/
theorem parseUint_decimal {bitSize : ℕ} (h : parseUint s 10 bitSize = .ok n) :
    s ≠ [] ∧ Decimal s ∧ n = value s ∧ n < 2 ^ bitSize := by
  rw [parseUint] at h
  split_ifs at h with hempty
  obtain ⟨hdecimal, hvalue, hle⟩ := parseDigits_decimal h
  have hpos := Nat.two_pow_pos bitSize
  exact ⟨hempty, hdecimal, hvalue, by have := hle (Nat.zero_le _); omega⟩

/-! ## Writing what was read -/

theorem value_append (s : List UInt8) (c : UInt8) : value (s ++ [c]) = 10 * value s + (c.toNat - 48) := by
  rw [value, List.foldl_append]
  rfl

theorem itoa_digit (hd : d < 10) : itoa d = [UInt8.ofNat (48 + d)] := by
  interval_cases d <;> decide

theorem itoa_of_ten_le (h : 10 ≤ n) : itoa n = itoa (n / 10 : ℕ) ++ itoa (n % 10 : ℕ) := by
  show utf8 n.repr = utf8 (n / 10).repr ++ utf8 (n % 10).repr
  rw [Nat.repr_eq_repr_append_repr h, utf8_append]

/-- A digit is its own text. -/
theorem ofNat_digit (hc : IsDigit c) : UInt8.ofNat (48 + (c.toNat - 48)) = c := by
  obtain ⟨hlow, hhigh⟩ := hc
  rw [Nat.add_sub_cancel' hlow, UInt8.ofNat_toNat]

/-- Behind zeros only the last digit is kept. -/
theorem stripZeros_append_of_zeros (hs : ∀ b ∈ s, b = 48) (c : UInt8) : stripZeros (s ++ [c]) = [c] := by
  rw [stripZeros, List.dropWhile_append_of_pos fun b hb => decide_eq_true (hs b hb)]
  by_cases hc : c = 48
  · rw [hc]
    rfl
  · rw [List.dropWhile_cons_of_neg (by simpa using hc)]

/-- Behind another digit the last one is kept. -/
theorem stripZeros_append {b : UInt8} (hb : b ∈ s) (hne : b ≠ 48) (c : UInt8) :
    stripZeros (s ++ [c]) = stripZeros s ++ [c] := by
  have hrest : s.dropWhile (· = 48) ≠ [] := by
    intro hnil
    exact hne (by simpa using List.dropWhile_eq_nil_iff.mp hnil b hb)
  obtain ⟨first, rest, hdrop⟩ := List.exists_cons_of_ne_nil hrest
  rw [stripZeros, List.dropWhile_append, hdrop, stripZeros, hdrop]
  rfl

/-- The value is zero exactly if all digits are. -/
theorem value_eq_zero_iff (hs : Decimal s) : value s = 0 ↔ ∀ b ∈ s, b = 48 := by
  induction s using List.reverseRecOn with
  | nil => exact iff_of_true rfl fun _ hb => by cases hb
  | append_singleton s c ih =>
    have hdigit : IsDigit c := hs c (by simp)
    have hc : c.toNat - 48 = 0 ↔ c = 48 := by
      have hnat : c = 48 ↔ c.toNat = 48 := UInt8.toNat_inj.symm
      obtain ⟨hlow, -⟩ := hdigit
      rw [hnat]
      omega
    rw [value_append, Nat.add_eq_zero_iff, hc, Nat.mul_eq_zero, or_iff_right (by decide),
      ih fun b hb => hs b (List.mem_append_left _ hb)]
    simp only [List.mem_append, List.mem_singleton, or_imp, forall_and, forall_eq]

/-- The text of the number read is the text read without its leading zeros. -/
theorem itoa_value (hs : Decimal s) (hne : s ≠ []) : itoa (value s) = stripZeros s := by
  induction s using List.reverseRecOn with
  | nil => exact absurd rfl hne
  | append_singleton s c ih =>
    have hdigit : IsDigit c := hs c (by simp)
    have hs' : Decimal s := fun b hb => hs b (List.mem_append_left _ hb)
    have hlt : c.toNat - 48 < 10 := by
      obtain ⟨-, hhigh⟩ := hdigit
      omega
    rw [value_append]
    by_cases hzero : value s = 0
    · rw [hzero, Nat.mul_zero, Nat.zero_add, itoa_digit hlt, ofNat_digit hdigit,
        stripZeros_append_of_zeros ((value_eq_zero_iff hs').mp hzero)]
    · obtain ⟨b, hb, hb48⟩ : ∃ b ∈ s, b ≠ 48 := by
        by_contra hall
        push Not at hall
        exact hzero ((value_eq_zero_iff hs').mpr hall)
      have hquot : (10 * value s + (c.toNat - 48)) / 10 = value s := by omega
      have hrem : (10 * value s + (c.toNat - 48)) % 10 = c.toNat - 48 := by omega
      rw [itoa_of_ten_le (by omega), hquot, hrem, itoa_digit hlt, ofNat_digit hdigit,
        ih hs' (List.ne_nil_of_mem hb), stripZeros_append hb hb48]

end Numerals
