import TlsClient.Library.CharReader
import TlsClient.Library.Utf8

/-!
# Reading UTF-8

UTF-8 as a reader of characters. A broken sequence is as long as it could still have become a character, so a decoder
that replaces it puts one mark for each longest beginning of a character. The bytes of a string are read as the string
(`strict_utf8`).
-/

namespace Utf8

open CharReader

/-- The ranges of the bytes after a first byte, if a character begins with it. -/
def following (b : ℕ) : Option (List (ℕ × ℕ)) :=
  if b < 0x80 then some []
  else if b < 0xC2 then none
  else if b < 0xE0 then some [(0x80, 0xBF)]
  -- neither overlong forms nor surrogates
  else if b < 0xF0 then some [(if b = 0xE0 then 0xA0 else 0x80, if b = 0xED then 0x9F else 0xBF), (0x80, 0xBF)]
  -- neither overlong forms nor code points above U+10FFFF
  else if b < 0xF5 then
    some [(if b = 0xF0 then 0x90 else 0x80, if b = 0xF4 then 0x8F else 0xBF), (0x80, 0xBF), (0x80, 0xBF)]
  else none

/-- The number of bytes in front that are in their ranges. -/
def matched : List (ℕ × ℕ) → List UInt8 → ℕ
  | range :: ranges, b :: rest =>
    if range.1 ≤ b.toNat ∧ b.toNat ≤ range.2 then matched ranges rest + 1 else 0
  | _, _ => 0

/-- The character of a first byte and those after it. -/
def assemble (b : UInt8) (more : List UInt8) : Char :=
  Char.ofNat (more.foldl (fun n b => n * 64 + b.toNat % 64)
    (if more = [] then b.toNat else b.toNat % 2 ^ (6 - more.length)))

/-- What UTF-8 has at the front. -/
def readPiece (b : UInt8) (rest : List UInt8) : Piece Char :=
  match following b.toNat with
  | none => .broken 0
  | some ranges =>
    if matched ranges rest = ranges.length then
      .text [assemble b (rest.take ranges.length)] ranges.length
    else .broken (matched ranges rest)

variable {ranges : List (ℕ × ℕ)} {b : UInt8} {rest tail : List UInt8}

/-- Bytes that match do so whatever follows. -/
theorem matched_of_all (h : matched ranges rest = ranges.length) (tail : List UInt8) :
    ranges.length ≤ rest.length ∧ matched ranges (rest.take ranges.length ++ tail) = ranges.length := by
  induction ranges generalizing rest with
  | nil => exact ⟨Nat.zero_le _, rfl⟩
  | cons range ranges ih =>
    cases rest with
    | nil => contradiction
    | cons b rest =>
      rw [matched] at h
      split_ifs at h with hb
      obtain ⟨hlength, hmatched⟩ := ih (Nat.succ.inj h)
      refine ⟨Nat.succ_le_succ hlength, ?_⟩
      rw [List.length_cons, List.take_succ_cons, List.cons_append, matched, if_pos hb, hmatched]

/-- UTF-8. -/
def reader : CharReader UInt8 Char where
  read := readPiece
  stable := by
    intro b rest t n h
    rw [readPiece] at h
    cases hfollowing : following b.toNat with
    | none =>
      rw [hfollowing] at h
      contradiction
    | some ranges =>
      rw [hfollowing] at h
      dsimp only at h
      split_ifs at h with hall
      obtain ⟨rfl, rfl⟩ := Piece.text.inj h
      refine ⟨(matched_of_all hall []).1, fun tail => ?_⟩
      have hlength := (matched_of_all hall tail).1
      have htake : (rest.take ranges.length ++ tail).take ranges.length = rest.take ranges.length := by
        rw [List.take_append_of_le_length (by rw [List.length_take]; omega), List.take_take, Nat.min_self]
      rw [readPiece, hfollowing]
      dsimp only
      rw [if_pos (matched_of_all hall tail).2, htake]

/-! ## The bytes of a string -/

private theorem toNat_ofNat8 {n : ℕ} (hn : n < 256) : (UInt8.ofNat n).toNat = n := by
  simpa using Nat.mod_eq_of_lt hn

/-- The bytes of a character are read as it. -/
private theorem readPiece_eq {c : Char} {more : List UInt8} (ranges : List (ℕ × ℕ))
    (hfollowing : following b.toNat = some ranges)
    (hmatched : matched ranges more = ranges.length) (hlength : more.length = ranges.length)
    (hchar : assemble b more = c) (tail : List UInt8) :
    reader.read b (more ++ tail) = .text [c] more.length := by
  have hall := (matched_of_all hmatched tail).2
  rw [← hlength, List.take_length, hlength] at hall
  have hread : reader.read b (more ++ tail) = readPiece b (more ++ tail) := rfl
  rw [hread, readPiece, hfollowing]
  dsimp only
  rw [if_pos hall, ← hlength, List.take_left, hchar]

/-- The bytes of a character are read as the character. -/
theorem read_utf8EncodeChar (c : Char) (tail : List UInt8) : ∃ b more, String.utf8EncodeChar c = b :: more ∧
    reader.read b (more ++ tail) = .text [c] more.length := by
  have hchar : Char.ofNat c.val.toNat = c := Char.ofNat_toNat c
  have hvalid : c.val.toNat < 0xD800 ∨ 0xDFFF < c.val.toNat ∧ c.val.toNat < 0x110000 := by
    have h := c.valid
    simp only [UInt32.isValidChar, Nat.isValidChar] at h
    omega
  generalize hn : c.val.toNat = n at hchar hvalid
  simp only [String.utf8EncodeChar, hn]
  -- one case for each length; the ranges of the second byte leave out overlong forms and surrogates
  split_ifs with h1 h2 h3
  · refine ⟨_, _, rfl, readPiece_eq [] ?_ rfl rfl ?_ tail⟩
    · rw [toNat_ofNat8 (by omega), following, if_pos (by omega)]
    · rw [assemble, if_pos rfl, List.foldl_nil, toNat_ofNat8 (by omega), hchar]
  · refine ⟨_, _, rfl, readPiece_eq [(0x80, 0xBF)] ?_ ?_ rfl ?_ tail⟩
    · rw [toNat_ofNat8 (by omega), following, if_neg (by omega), if_neg (by omega), if_pos (by omega)]
    · simp only [matched]
      rw [toNat_ofNat8 (by omega), if_pos (by omega)]
      rfl
    · rw [assemble, if_neg (List.cons_ne_nil _ _)]
      simp only [List.foldl_cons, List.foldl_nil, List.length_cons, List.length_nil]
      rw [toNat_ofNat8 (by omega), toNat_ofNat8 (by omega), ← hchar]
      congr 1
      omega
  · refine ⟨_, _, rfl, readPiece_eq [(if n / 4096 % 16 + 224 = 0xE0 then 0xA0 else 0x80,
      if n / 4096 % 16 + 224 = 0xED then 0x9F else 0xBF), (0x80, 0xBF)] ?_ ?_ rfl ?_ tail⟩
    · rw [toNat_ofNat8 (by omega), following, if_neg (by omega), if_neg (by omega), if_neg (by omega),
        if_pos (by omega)]
    · simp only [matched]
      rw [toNat_ofNat8 (by omega), toNat_ofNat8 (by omega), if_pos (by split_ifs <;> omega), if_pos (by omega)]
      rfl
    · rw [assemble, if_neg (List.cons_ne_nil _ _)]
      simp only [List.foldl_cons, List.foldl_nil, List.length_cons, List.length_nil]
      rw [toNat_ofNat8 (by omega), toNat_ofNat8 (by omega), toNat_ofNat8 (by omega), ← hchar]
      congr 1
      omega
  · refine ⟨_, _, rfl, readPiece_eq [(if n / 262144 % 8 + 240 = 0xF0 then 0x90 else 0x80,
      if n / 262144 % 8 + 240 = 0xF4 then 0x8F else 0xBF), (0x80, 0xBF), (0x80, 0xBF)] ?_ ?_ rfl ?_ tail⟩
    · rw [toNat_ofNat8 (by omega), following, if_neg (by omega), if_neg (by omega), if_neg (by omega),
        if_neg (by omega), if_pos (by omega)]
    · simp only [matched]
      rw [toNat_ofNat8 (by omega), toNat_ofNat8 (by omega), toNat_ofNat8 (by omega),
        if_pos (by split_ifs <;> omega), if_pos (by omega), if_pos (by omega)]
      rfl
    · rw [assemble, if_neg (List.cons_ne_nil _ _)]
      simp only [List.foldl_cons, List.foldl_nil, List.length_cons, List.length_nil]
      rw [toNat_ofNat8 (by omega), toNat_ofNat8 (by omega), toNat_ofNat8 (by omega), toNat_ofNat8 (by omega), ← hchar]
      congr 1
      omega

/-- The bytes of a string are read as the string, and what comes after them by itself. -/
theorem strict_utf8_append (s : String) (tail : List UInt8) :
    reader.strict (utf8 s ++ tail) = (reader.strict tail).map (s.toList ++ ·) := by
  rw [utf8]
  induction s.toList with
  | nil => exact (congrFun Option.map_id _).symm
  | cons c cs ih =>
    obtain ⟨b, more, hbytes, hread⟩ := read_utf8EncodeChar c (cs.flatMap String.utf8EncodeChar ++ tail)
    rw [List.flatMap_cons, List.append_assoc, hbytes, List.cons_append, strict_cons hread, List.drop_left, ih,
      Option.map_map]
    rfl

/-- A string is read back from its bytes. -/
theorem strict_utf8 (s : String) : reader.strict (utf8 s) = some s.toList := by
  have h := strict_utf8_append s []
  rw [List.append_nil, strict_nil, Option.map_some, List.append_nil] at h
  exact h

theorem replace_utf8 (mark : List Char) (s : String) : reader.replace mark (utf8 s) = s.toList :=
  replace_eq (strict_utf8 s)

end Utf8
