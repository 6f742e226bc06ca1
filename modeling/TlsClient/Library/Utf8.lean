import Mathlib.Data.String.Basic
import Mathlib.Data.List.Lex
import Mathlib.Data.Nat.Digits.Lemmas

/-!
# Text as bytes

The UTF-8 text of a string, its byte order and the texts of numbers and digests. Comparing two texts
byte by byte is comparing the strings code point by code point (`utf8_lt_utf8`), so a program that sorts
strings and one that sorts their bytes sort alike.

The texts of integers consist of digits and a sign and determine the integer; the hexadecimal text of a
byte string has two digits a byte and determines the bytes.
-/

instance linearOrderUInt8 : LinearOrder UInt8 :=
  LinearOrder.lift' UInt8.toNat fun _ _ heq => UInt8.toNat_inj.mp heq

namespace Utf8

/-- The bytes of a string in UTF-8. -/
def utf8 (s : String) : List UInt8 :=
  s.toList.flatMap String.utf8EncodeChar

@[simp] theorem utf8_empty : utf8 "" = [] := rfl

@[simp] theorem utf8_append (s t : String) : utf8 (s ++ t) = utf8 s ++ utf8 t := by
  simp [utf8]

/-! ## Byte order -/

/-- `s` comes before `t` at a place where they differ, so also with anything after them. -/
def Before (s t : List UInt8) : Prop :=
  ∃ (p s' t' : List UInt8) (a b : UInt8), s = p ++ a :: s' ∧ t = p ++ b :: t' ∧ a.toNat < b.toNat

/-- What is before stays before whatever follows. -/
theorem Before.append {s t : List UInt8} (hbefore : Before s t) (u v : List UInt8) :
    s ++ u < t ++ v := by
  obtain ⟨p, s', t', a, b, rfl, rfl, hlt⟩ := hbefore
  have hab : a < b := hlt
  induction p with
  | nil => exact List.Lex.rel hab
  | cons c p ih => exact List.Lex.cons ih

private theorem toNat_ofNat {n : ℕ} (hn : n < 256) : (UInt8.ofNat n).toNat = n := by
  simpa using Nat.mod_eq_of_lt hn

/-- A smaller code point has a smaller encoding, and not one that the larger continues. -/
theorem before_utf8EncodeChar {c d : Char} (hlt : c < d) :
    Before (String.utf8EncodeChar c) (String.utf8EncodeChar d) := by
  have hv : c.val.toNat < d.val.toNat := hlt
  have hd : d.val.toNat < 0x110000 := by
    have := d.valid
    simp only [UInt32.isValidChar, Nat.isValidChar] at this
    omega
  -- the first byte tells the length; with equal lengths the first byte that differs decides
  have first : ∀ {a b : ℕ} (s t : List UInt8), a < b → b < 256 →
      Before (UInt8.ofNat a :: s) (UInt8.ofNat b :: t) := by
    intro a b s t hab hb
    refine ⟨[], s, t, _, _, rfl, rfl, ?_⟩
    rw [toNat_ofNat hb, toNat_ofNat (by omega)]
    exact hab
  have next : ∀ {a b : ℕ} {s t : List UInt8}, a = b → Before s t →
      Before (UInt8.ofNat a :: s) (UInt8.ofNat b :: t) := by
    rintro a b s t rfl ⟨p, s', t', x, y, rfl, rfl, hxy⟩
    exact ⟨UInt8.ofNat a :: p, s', t', x, y, rfl, rfl, hxy⟩
  generalize hn : c.val.toNat = n at hv
  generalize hm : d.val.toNat = m at hv hd
  simp only [String.utf8EncodeChar, hn, hm]
  split_ifs <;> first
    | omega
    | exact first _ _ (by omega) (by omega)
    | skip
  · by_cases h1 : n / 64 = m / 64
    · exact next (by omega) (first _ _ (by omega) (by omega))
    · exact first _ _ (by omega) (by omega)
  · by_cases h1 : n / 4096 = m / 4096
    · refine next (by omega) ?_
      by_cases h2 : n / 64 = m / 64
      · exact next (by omega) (first _ _ (by omega) (by omega))
      · exact first _ _ (by omega) (by omega)
    · exact first _ _ (by omega) (by omega)
  · by_cases h1 : n / 262144 = m / 262144
    · refine next (by omega) ?_
      by_cases h2 : n / 4096 = m / 4096
      · refine next (by omega) ?_
        by_cases h3 : n / 64 = m / 64
        · exact next (by omega) (first _ _ (by omega) (by omega))
        · exact first _ _ (by omega) (by omega)
      · exact first _ _ (by omega) (by omega)
    · exact first _ _ (by omega) (by omega)

/-- The order of code points is that of their bytes. -/
private theorem flatMap_lt_of_lt {s t : List Char} (hlt : s < t) :
    s.flatMap String.utf8EncodeChar < t.flatMap String.utf8EncodeChar := by
  induction hlt with
  | @nil c t =>
    have hne : (c :: t).flatMap String.utf8EncodeChar ≠ [] := by
      simp [String.utf8EncodeChar_ne_nil]
    obtain ⟨b, bs, hbs⟩ := List.exists_cons_of_ne_nil hne
    rw [hbs]
    exact List.Lex.nil
  | @cons c s t _ ih =>
    rw [List.flatMap_cons, List.flatMap_cons]
    generalize String.utf8EncodeChar c = p
    induction p with
    | nil => exact ih
    | cons b p ihp => exact List.Lex.cons ihp
  | @rel c s d t hcd =>
    rw [List.flatMap_cons, List.flatMap_cons]
    exact (before_utf8EncodeChar hcd).append _ _

/-- Byte order is code point order. -/
@[simp] theorem utf8_lt_utf8 {s t : String} : utf8 s < utf8 t ↔ s < t := by
  have hmono : StrictMono utf8 := fun a b hab =>
    flatMap_lt_of_lt (String.lt_iff_toList_lt.mp hab)
  exact hmono.lt_iff_lt

theorem utf8_strictMono : StrictMono utf8 := fun _ _ hlt => utf8_lt_utf8.mpr hlt

theorem utf8_injective : Function.Injective utf8 := utf8_strictMono.injective

@[simp] theorem utf8_inj {s t : String} : utf8 s = utf8 t ↔ s = t := utf8_injective.eq_iff

@[simp] theorem utf8_le_utf8 {s t : String} : utf8 s ≤ utf8 t ↔ s ≤ t :=
  utf8_strictMono.le_iff_le

@[simp] theorem utf8_eq_nil {s : String} : utf8 s = [] ↔ s = "" := by
  rw [← utf8_empty, utf8_inj]

/-- The text has a byte of ASCII exactly where the string has its character. -/
theorem ofNat_mem_utf8 {m : ℕ} (hm : m < 128) {s : String} : UInt8.ofNat m ∈ utf8 s ↔ Char.ofNat m ∈ s.toList := by
  have hchar : ∀ c : Char, UInt8.ofNat m ∈ String.utf8EncodeChar c ↔ c = Char.ofNat m := by
    intro c
    have heq : ∀ {n : ℕ}, n < 256 → (UInt8.ofNat m = UInt8.ofNat n ↔ n = m) := by
      intro n hn
      rw [← UInt8.toNat_inj, toNat_ofNat hn, toNat_ofNat (by omega)]
      exact eq_comm
    have hc : c.val.toNat < 0x110000 := by
      have := c.valid
      simp only [UInt32.isValidChar, Nat.isValidChar] at this
      omega
    have hcode : c = Char.ofNat m ↔ c.val.toNat = m := by
      have hvalid : m.isValidChar := .inl (by omega)
      rw [Char.ext_iff, ← UInt32.toNat_inj, Char.ofNat, dif_pos hvalid]
      exact Eq.congr_right (UInt32.toNat_ofNatLT ..)
    rw [hcode]
    generalize hn : c.val.toNat = n at hc
    simp only [String.utf8EncodeChar, hn]
    -- below 128 a character is its own byte; the bytes of the longer forms are all above
    split_ifs <;> simp only [List.mem_cons, List.not_mem_nil, or_false]
    · rw [heq (by omega)]
    · rw [heq (by omega), heq (by omega)]
      omega
    · rw [heq (by omega), heq (by omega), heq (by omega)]
      omega
    · rw [heq (by omega), heq (by omega), heq (by omega), heq (by omega)]
      omega
  simp [utf8, List.mem_flatMap, hchar]

/-- The text has a zero byte exactly where the string has a NUL. -/
theorem zero_mem_utf8 {s : String} : 0 ∈ utf8 s ↔ '\x00' ∈ s.toList := ofNat_mem_utf8 (by decide)

/-! ## Numbers and digests -/

/-- The decimal text of an integer. -/
def itoa (n : ℤ) : List UInt8 :=
  utf8 (toString n)

/-- A decimal digit. -/
def IsDigit (b : UInt8) : Prop := 48 ≤ b.toNat ∧ b.toNat ≤ 57

/-- The byte of a digit is a digit. -/
private theorem isDigit_utf8EncodeChar {c : Char} (hc : c.isDigit) :
    ∀ b ∈ String.utf8EncodeChar c, IsDigit b := by
  obtain ⟨hlo, hhi⟩ : 48 ≤ c.val.toNat ∧ c.val.toNat ≤ 57 := by
    simp only [Char.isDigit, Bool.and_eq_true, decide_eq_true_eq] at hc
    exact ⟨hc.1, hc.2⟩
  have hone : String.utf8EncodeChar c = [UInt8.ofNat c.val.toNat] := by
    simp only [String.utf8EncodeChar]
    rw [if_pos (by omega)]
  intro b hb
  rw [hone, List.mem_singleton] at hb
  rw [IsDigit, hb, toNat_ofNat (by omega)]
  exact ⟨hlo, hhi⟩

/-- A decimal number has digits only. -/
private theorem isDigit_repr (n : ℕ) : ∀ b ∈ utf8 n.repr, IsDigit b := by
  intro b hb
  rw [utf8, Nat.toList_repr, List.mem_flatMap] at hb
  obtain ⟨c, hc, hbc⟩ := hb
  exact isDigit_utf8EncodeChar (Nat.isDigit_of_mem_toDigits (by omega) (by omega) hc) b hbc

/-- A number is known by its decimal text. -/
private theorem repr_inj {m n : ℕ} (heq : m.repr = n.repr) : m = n := by
  have hdigits : Nat.toDigits 10 m = Nat.toDigits 10 n := by
    rw [← Nat.toList_repr, heq, Nat.toList_repr]
  have hvalue := congrArg (fun ds => Nat.ofDigitChars 10 ds 0) hdigits
  simpa only [Nat.ofDigitChars_ten_toDigits] using hvalue

private theorem itoa_ofNat (n : ℕ) : itoa (Int.ofNat n) = utf8 n.repr := rfl

/-- A negative number has its sign in front. -/
private theorem itoa_negSucc (n : ℕ) : itoa (Int.negSucc n) = 45 :: utf8 (n + 1).repr := by
  have hsign : utf8 "-" = [45] := by decide
  have htext : itoa (Int.negSucc n) = utf8 ("-" ++ (n + 1).repr) := rfl
  rw [htext, utf8_append, hsign, List.singleton_append]

/-- The text of an integer is digits and perhaps a sign. -/
theorem isDigit_or_sign_of_mem_itoa {n : ℤ} {b : UInt8} (hb : b ∈ itoa n) : IsDigit b ∨ b = 45 := by
  cases n with
  | ofNat n =>
    rw [itoa_ofNat] at hb
    exact .inl (isDigit_repr n b hb)
  | negSucc n =>
    rw [itoa_negSucc, List.mem_cons] at hb
    exact hb.symm.imp_left (isDigit_repr _ b)

/-- An integer is known by its decimal text. -/
theorem itoa_injective : Function.Injective itoa := by
  -- a minus sign is no digit
  have hsign : ∀ m n : ℕ, utf8 m.repr ≠ 45 :: utf8 n.repr := by
    intro m n heq
    have hmem : (45 : UInt8) ∈ utf8 m.repr := by
      rw [heq]
      exact List.mem_cons_self
    exact absurd (isDigit_repr m _ hmem) (by unfold IsDigit; decide)
  intro m n heq
  cases m with
  | ofNat m =>
    cases n with
    | ofNat n =>
      rw [itoa_ofNat, itoa_ofNat, utf8_inj] at heq
      rw [repr_inj heq]
    | negSucc n =>
      rw [itoa_ofNat, itoa_negSucc] at heq
      exact absurd heq (hsign _ _)
  | negSucc m =>
    cases n with
    | ofNat n =>
      rw [itoa_ofNat, itoa_negSucc] at heq
      exact absurd heq.symm (hsign _ _)
    | negSucc n =>
      rw [itoa_negSucc, itoa_negSucc, List.cons.injEq, utf8_inj] at heq
      rw [Nat.succ.inj (repr_inj heq.2)]

@[simp] theorem itoa_inj {m n : ℤ} : itoa m = itoa n ↔ m = n := itoa_injective.eq_iff

/-- A lower-case hexadecimal digit. -/
def hexDigit (n : ℕ) : UInt8 :=
  UInt8.ofNat (if n < 10 then 48 + n else 87 + n)

/-- The hexadecimal text of a byte string. -/
def hexText (bs : List UInt8) : List UInt8 :=
  bs.flatMap fun b => [hexDigit (b.toNat / 16), hexDigit (b.toNat % 16)]

theorem toNat_hexDigit {n : ℕ} (hn : n < 16) :
    (hexDigit n).toNat = if n < 10 then 48 + n else 87 + n := by
  rw [hexDigit, toNat_ofNat (by split <;> omega)]

/-- A nibble is known by its digit. -/
theorem hexDigit_inj {m n : ℕ} (hm : m < 16) (hn : n < 16) (heq : hexDigit m = hexDigit n) :
    m = n := by
  have hnat := congrArg UInt8.toNat heq
  rw [toNat_hexDigit hm, toNat_hexDigit hn] at hnat
  split at hnat <;> split at hnat <;> omega

@[simp] theorem length_hexText (bs : List UInt8) : (hexText bs).length = 2 * bs.length := by
  induction bs with
  | nil => rfl
  | cons b bs ih =>
    simp only [hexText, List.flatMap_cons, List.length_append, List.length_cons, List.length_nil] at ih ⊢
    omega

/-- The hexadecimal text consists of digits and the letters from `a` to `f`. -/
theorem hexDigit_of_mem_hexText {bs : List UInt8} {b : UInt8} (hb : b ∈ hexText bs) :
    IsDigit b ∨ 97 ≤ b.toNat ∧ b.toNat ≤ 102 := by
  have hdigit : ∀ n < 16, IsDigit (hexDigit n) ∨ 97 ≤ (hexDigit n).toNat ∧ (hexDigit n).toNat ≤ 102 := by
    intro n hn
    rw [IsDigit, toNat_hexDigit hn]
    split <;> omega
  obtain ⟨c, -, hc⟩ := List.mem_flatMap.mp hb
  have hlt := c.toNat_lt
  rcases List.mem_cons.mp hc with rfl | hc
  · exact hdigit _ (by omega)
  · rw [List.mem_singleton.mp hc]
    exact hdigit _ (by omega)

/-- Bytes are known by their hexadecimal text. -/
theorem hexText_injective : Function.Injective hexText := by
  intro bs cs heq
  induction bs generalizing cs with
  | nil =>
    have hlen := congrArg List.length heq
    rw [length_hexText, length_hexText, List.length_nil] at hlen
    exact (List.length_eq_zero_iff.mp (by omega)).symm
  | cons b bs ih =>
    cases cs with
    | nil => simp [hexText] at heq
    | cons c cs =>
      simp only [hexText, List.flatMap_cons, List.cons_append, List.nil_append, List.cons.injEq] at heq
      obtain ⟨hhi, hlo, hrest⟩ := heq
      have hb := b.toNat_lt
      have hc := c.toNat_lt
      have h1 := hexDigit_inj (by omega) (by omega) hhi
      have h2 := hexDigit_inj (by omega) (by omega) hlo
      have hbc : b = c := UInt8.toNat_inj.mp (by omega)
      rw [hbc, ih hrest]

@[simp] theorem hexText_inj {bs cs : List UInt8} : hexText bs = hexText cs ↔ bs = cs :=
  hexText_injective.eq_iff

end Utf8
