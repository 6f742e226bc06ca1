import TlsClient.Http2.HuffmanDecode
import TlsClient.Library.Incremental

/-!
# Integers and strings of a header block

Embeds `appendVarInt`, `appendHpackString`, `readVarInt` and `readString` of
`src/third_party/fhttp/http2/hpack`. An integer begins in the low bits of a byte whose high bits are a flag, and
goes on in groups of seven bits. A string is Huffman coded where that is shorter.
-/

open Bits
open WireBytes (Bytes)

namespace TlsClient.Http2

/-- The errors of the decoder. `needMore` is the internal one for a truncated buffer. -/
inductive HpackError
  | needMore
  | varintOverflow
  | stringLength
  | invalidHuffman
  | nilDereference
  | invalidIndex (i : ℕ)
  | updateNotFirst
  | updateTooLarge
  | invalidEncoding
  | truncatedHeaders
  deriving DecidableEq, Repr

def HpackError.ofHuffman : HuffmanError → HpackError
  | .invalidHuffman => .invalidHuffman
  | .stringLength => .stringLength
  | .nilDereference => .nilDereference

/-! ## Writing -/

/-- `for ; i >= 128; i >>= 7` and the last byte -/
def appendVarIntRest (dst : Bytes) (i : ℕ) : Bytes :=
  if 128 ≤ i then appendVarIntRest (dst ++ [UInt8.ofNat (0x80 ||| (i &&& 0x7f))]) (i >>> 7)
  else dst ++ [UInt8.ofNat i]
termination_by i
decreasing_by
  rw [Nat.shiftRight_eq_div_pow]
  omega

def appendVarInt (dst : Bytes) (n i : ℕ) : Bytes :=
  let k := 1 <<< n - 1
  if i < k then dst ++ [UInt8.ofNat i] else appendVarIntRest (dst ++ [UInt8.ofNat k]) (i - k)

/-- `dst[first] |= flag` -/
def setFlag (dst : Bytes) (first : ℕ) (flag : UInt8) : Bytes := dst.modify first (· ||| flag)

def appendHpackString (dst s : Bytes) : Bytes :=
  let huffmanLength := huffmanEncodeLength s
  if huffmanLength < s.length then
    let first := dst.length
    let dst := appendVarInt dst 7 huffmanLength
    let dst := appendHuffmanString dst s
    setFlag dst first 0x80
  else
    appendVarInt dst 7 s.length ++ s

/-! ## Reading -/

/-- The loop of `readVarInt`, for the bits from `m` on. -/
def readVarIntRest (i m : ℕ) : Bytes → Except HpackError (ℕ × Bytes)
  | [] => .error .needMore
  | b :: p =>
    let i := i + (b.toNat &&& 127) <<< m
    if b &&& 128 = 0 then .ok (i, p)
    else if m + 7 ≥ 63 then .error .varintOverflow
    else readVarIntRest i (m + 7) p

def readVarInt (n : ℕ) : Bytes → Except HpackError (ℕ × Bytes)
  | [] => .error .needMore
  | b :: p =>
    let i := if n < 8 then b.toNat &&& (1 <<< n - 1) else b.toNat
    if i < 1 <<< n - 1 then .ok (i, p) else readVarIntRest i 0 p

/-- The part of `readString` behind the length. -/
def readStringData (maxStrLen : ℕ) (isHuff : Bool) (strLen : ℕ) (p : Bytes) (wantStr : Bool) :
    Except HpackError (Bytes × Bytes) :=
  if maxStrLen ≠ 0 ∧ strLen > maxStrLen then .error .stringLength
  else if p.length < strLen then .error .needMore
  else if isHuff = false then .ok (if wantStr then p.take strLen else [], p.drop strLen)
  else if wantStr then
    match huffmanDecode maxStrLen (p.take strLen) with
    | .error e => .error (.ofHuffman e)
    | .ok s => .ok (s, p.drop strLen)
  else .ok ([], p.drop strLen)

def readString (maxStrLen : ℕ) (p : Bytes) (wantStr : Bool) : Except HpackError (Bytes × Bytes) :=
  match p with
  | [] => .error .needMore
  | b :: _ => do
    let isHuff := b &&& 128 != 0
    let (strLen, p) ← readVarInt 7 p
    readStringData maxStrLen isHuff strLen p wantStr

/-! ## An integer is read as it was written -/

section Integers

variable {dst p more : Bytes} {n i j m : ℕ} {b flag : UInt8}

/-- A byte of a number with more to come: its seven bits, and the flag. -/
theorem continued_byte (i : ℕ) :
    (UInt8.ofNat (0x80 ||| (i &&& 0x7f))).toNat &&& 127 = i % 128 ∧ UInt8.ofNat (0x80 ||| (i &&& 0x7f)) &&& 128 ≠ 0 := by
  have hall : ∀ x < 128, (UInt8.ofNat (0x80 ||| x)).toNat &&& 127 = x ∧ UInt8.ofNat (0x80 ||| x) &&& 128 ≠ 0 := by
    decide +kernel
  rw [show i &&& 0x7f = i % 128 from Nat.and_two_pow_sub_one_eq_mod i 7]
  exact hall _ (Nat.mod_lt _ (by decide))

theorem last_byte (hi : i < 128) : (UInt8.ofNat i).toNat &&& 127 = i ∧ UInt8.ofNat i &&& 128 = 0 := by
  have hall : ∀ x < 128, (UInt8.ofNat x).toNat &&& 127 = x ∧ UInt8.ofNat x &&& 128 = 0 := by decide +kernel
  exact hall i hi

/-- The groups of seven bits, with room for 63 bits. -/
theorem readVarIntRest_append (acc : ℕ) (hm : m < 63) (hj : j < 2 ^ (63 - m)) :
    ∃ tail, (∀ dst, appendVarIntRest dst j = dst ++ tail) ∧
      ∀ more, readVarIntRest acc m (tail ++ more) = .ok (acc + j <<< m, more) := by
  induction j using Nat.strongRecOn generalizing acc m with
  | ind j ih =>
    -- seven bits a byte; the bound on `j` leaves a shift below 63 for every byte
    by_cases hge : 128 ≤ j
    · obtain ⟨hlow, hflag⟩ := continued_byte j
      have hroom : m + 7 < 63 := by
        by_contra hfull
        have hpow : 2 ^ (63 - m) ≤ 2 ^ 7 := Nat.pow_le_pow_right (by decide) (by omega)
        omega
      have hshift : j >>> 7 = j / 128 := Nat.shiftRight_eq_div_pow j 7
      have hrest : j >>> 7 < 2 ^ (63 - (m + 7)) := by
        rw [hshift]
        refine Nat.div_lt_of_lt_mul ?_
        rwa [show 128 = 2 ^ 7 from rfl, ← Nat.pow_add, show 7 + (63 - (m + 7)) = 63 - m by omega]
      obtain ⟨tail, htail, hread⟩ := ih (j >>> 7) (by omega) (acc + (j % 128) <<< m) hroom hrest
      refine ⟨UInt8.ofNat (0x80 ||| (j &&& 0x7f)) :: tail, fun dst => ?_, fun more => ?_⟩
      · rw [appendVarIntRest, if_pos hge, htail, List.append_assoc]
        rfl
      · rw [List.cons_append, readVarIntRest]
        simp only [hlow, if_neg hflag, if_neg (by omega : ¬ m + 7 ≥ 63), hread]
        congr 2
        rw [hshift, Nat.shiftLeft_eq, Nat.shiftLeft_eq, Nat.shiftLeft_eq, Nat.pow_add, Nat.add_assoc,
          Nat.mul_comm _ (2 ^ 7), ← Nat.mul_assoc, ← Nat.add_mul]
        congr 2
        omega
    · obtain ⟨hlow, hflag⟩ := last_byte (Nat.lt_of_not_le hge)
      refine ⟨[UInt8.ofNat j], fun dst => ?_, fun more => ?_⟩
      · rw [appendVarIntRest, if_neg hge]
      · rw [List.singleton_append, readVarIntRest]
        simp only [hlow, if_pos hflag]

/-- The first byte leaves the high bits free for a flag, and with any flag there the integer is read back. -/
theorem readVarInt_append (hn : n < 8) (hi : i < 2 ^ 63) : ∃ b tail,
    (∀ dst, appendVarInt dst n i = dst ++ b :: tail) ∧ b.toNat < 2 ^ n ∧
      ∀ flag more, flag.toNat % 2 ^ n = 0 → readVarInt n ((b ||| flag) :: (tail ++ more)) = .ok (i, more) := by
  have hpow : 2 ^ n ≤ 2 ^ 7 := Nat.pow_le_pow_right (by decide) (by omega)
  have hpos := Nat.two_pow_pos n
  -- the flag lives above the prefix, so masking gives the number back
  have hlow : ∀ b flag : UInt8, b.toNat < 2 ^ n → flag.toNat % 2 ^ n = 0 →
      (b ||| flag).toNat &&& (2 ^ n - 1) = b.toNat := by
    intro b flag hb hflag
    rw [Nat.and_two_pow_sub_one_eq_mod, UInt8.toNat_or, Nat.or_mod_two_pow, hflag, Nat.or_zero, Nat.mod_eq_of_lt hb]
  have hsmall : ∀ x < 2 ^ n, (UInt8.ofNat x).toNat = x := by
    intro x hx
    rw [UInt8.toNat_ofNat']
    omega
  simp only [appendVarInt, readVarInt, Nat.one_shiftLeft, if_pos hn]
  -- a number below the prefix fits in it, a larger one continues behind the full prefix
  by_cases hlt : i < 2 ^ n - 1
  · have hi := hsmall i (by omega)
    refine ⟨UInt8.ofNat i, [], fun dst => by rw [if_pos hlt], by omega, fun flag more hflag => ?_⟩
    rw [hlow _ flag (by omega) hflag, hi, if_pos hlt]
    rfl
  · have hk := hsmall (2 ^ n - 1) (by omega)
    obtain ⟨tail, htail, hread⟩ := @readVarIntRest_append (i - (2 ^ n - 1)) 0 (2 ^ n - 1) (by decide)
      (Nat.lt_of_le_of_lt (Nat.sub_le i (2 ^ n - 1)) hi)
    refine ⟨UInt8.ofNat (2 ^ n - 1), tail, fun dst => ?_, by omega, fun flag more hflag => ?_⟩
    · rw [if_neg hlt, htail, List.append_assoc]
      rfl
    · rw [hlow _ flag (by omega) hflag, hk, if_neg (lt_irrefl _), hread, Nat.shiftLeft_zero,
        Nat.add_sub_cancel' (Nat.le_of_not_lt hlt)]

/-- A flag is set in the byte behind what was written. -/
theorem setFlag_append (dst : Bytes) (b : UInt8) (tail : Bytes) (flag : UInt8) :
    setFlag (dst ++ b :: tail) dst.length flag = dst ++ (b ||| flag) :: tail := by
  rw [setFlag, List.modify_eq_take_cons_drop (by simp)]
  simp

end Integers

/-! ## A string is read as it was written -/

section Strings

variable {s : Bytes} {maxStrLen : ℕ}

/-- An encoded string is appended. -/
theorem appendHuffmanString_eq (dst s : Bytes) : appendHuffmanString dst s = dst ++ appendHuffmanString [] s := by
  obtain ⟨pad, hpad, hbits⟩ := byteBits_appendHuffmanString dst s
  obtain ⟨pad', hpad', hbits'⟩ := byteBits_appendHuffmanString [] s
  rw [byteBits_nil, List.nil_append] at hbits'
  have hlen := congrArg List.length hbits
  have hlen' := congrArg List.length hbits'
  simp only [length_byteBits, List.length_append, List.length_replicate] at hlen hlen'
  obtain rfl : pad = pad' := by omega
  refine byteBits_injective ?_
  rw [hbits, byteBits_append, hbits', List.append_assoc]

/-- The highest bit is set. -/
theorem high_bit (b : UInt8) : (b ||| 0x80) &&& 128 ≠ 0 := by
  intro h
  have hbit := congrArg (fun x : UInt8 => x.toNat.testBit 7) h
  simp only [UInt8.toNat_and, UInt8.toNat_or, Nat.testBit_and, Nat.testBit_or] at hbit
  revert hbit
  cases b.toNat.testBit 7 <;> decide

/-- A byte below 128 does not have it. -/
theorem no_high_bit {b : UInt8} (hb : b.toNat < 2 ^ 7) : b &&& 128 = 0 := by
  have hall : ∀ x < 128, UInt8.ofNat x &&& 128 = 0 := fun x hx => (last_byte hx).2
  have hbyte := hall b.toNat hb
  rwa [UInt8.ofNat_toNat] at hbyte

/-- The string is skipped where it is not wanted. -/
theorem readString_append (hs : s.length < 2 ^ 63) (hlimit : WithinLimit maxStrLen s) :
    ∃ tail, (∀ dst, appendHpackString dst s = dst ++ tail) ∧
      ∀ want more, readString maxStrLen (tail ++ more) want = .ok (if want then s else [], more) := by
  have hshort : ∀ {k : ℕ}, k ≤ s.length → ¬ (maxStrLen ≠ 0 ∧ k > maxStrLen) := by
    intro k hk hlong
    rcases hlimit with h | h <;> omega
  simp only [appendHpackString]
  -- the shorter coding is chosen, and the top bit of the length says which
  by_cases hhuff : huffmanEncodeLength s < s.length
  · obtain ⟨b, tail, happend, hb, hread⟩ := @readVarInt_append 7 (huffmanEncodeLength s) (by decide) (by omega)
    have hlen := length_appendHuffmanString [] s
    rw [List.length_nil, Nat.zero_add] at hlen
    refine ⟨(b ||| 0x80) :: (tail ++ appendHuffmanString [] s), fun dst => ?_, fun want more => ?_⟩
    · rw [if_pos hhuff, appendHuffmanString_eq, happend, List.append_assoc, List.cons_append, setFlag_append]
    · have hdata : readStringData maxStrLen true (huffmanEncodeLength s) (appendHuffmanString [] s ++ more) want =
          .ok (if want then s else [], more) := by
        rw [readStringData, if_neg (hshort (Nat.le_of_lt hhuff)), if_neg (by rw [List.length_append]; omega),
          if_neg (by decide), ← hlen, List.take_left, List.drop_left,
          huffmanDecode_appendHuffmanString hlimit]
        cases want <;> rfl
      rw [List.cons_append, readString, List.append_assoc, hread 0x80 _ rfl, bne_iff_ne.mpr (high_bit b)]
      exact hdata
  · obtain ⟨b, tail, happend, hb, hread⟩ := @readVarInt_append 7 s.length (by decide) hs
    refine ⟨b :: (tail ++ s), fun dst => ?_, fun want more => ?_⟩
    · rw [if_neg hhuff, happend, List.append_assoc, List.cons_append]
    · have hdata : readStringData maxStrLen false s.length (s ++ more) want = .ok (if want then s else [], more) := by
        rw [readStringData, if_neg (hshort le_rfl), if_neg (by rw [List.length_append]; omega), if_pos rfl,
          List.take_left, List.drop_left]
      have hnoflag := hread 0 (s ++ more) rfl
      rw [UInt8.or_zero] at hnoflag
      rw [List.cons_append, readString, List.append_assoc, hnoflag, no_high_bit hb]
      exact hdata

end Strings

/-! ## What is read does not depend on what follows -/

section Streaming

open Incremental

/-- The rest of a number does not depend on what follows it. -/
theorem stable_readVarIntRest (i m : ℕ) : Stable HpackError.needMore (readVarIntRest i m) where
  ok_append := by
    intro p r a q h
    induction p generalizing i m with
    | nil => cases h
    | cons b p ih =>
      rw [readVarIntRest] at h
      rw [List.cons_append, readVarIntRest]
      split_ifs at h ⊢
      · cases h; rfl
      · exact ih _ _ h
  error_append := by
    intro p e q h hne
    induction p generalizing i m with
    | nil => cases h; exact absurd rfl hne
    | cons b p ih =>
      rw [readVarIntRest] at h
      rw [List.cons_append, readVarIntRest]
      split_ifs at h ⊢
      · exact h
      · exact ih _ _ h
  shorter := by
    intro p r a h
    induction p generalizing i m with
    | nil => cases h
    | cons b p ih =>
      rw [readVarIntRest] at h
      rw [List.length_cons]
      split_ifs at h
      · cases h; omega
      · exact (ih _ _ h).trans (Nat.le_succ _)

/-- An integer takes at least one byte. -/
theorem readVarInt_length_lt {n i : ℕ} {p r : Bytes} (h : readVarInt n p = .ok (i, r)) : r.length < p.length := by
  cases p with
  | nil => cases h
  | cons b p =>
    rw [readVarInt] at h
    rw [List.length_cons, Nat.lt_succ_iff]
    split_ifs at h
    · cases h; exact le_rfl
    · exact (stable_readVarIntRest _ 0).shorter h
    · cases h; exact le_rfl
    · exact (stable_readVarIntRest _ 0).shorter h

/-- A number takes input and does not depend on what follows it. -/
theorem strict_readVarInt (n : ℕ) : Strict HpackError.needMore (readVarInt n) where
  ok_append := by
    intro p r a q h
    cases p with
    | nil => cases h
    | cons b p =>
      rw [readVarInt] at h
      rw [List.cons_append, readVarInt]
      generalize (if n < 8 then b.toNat &&& (1 <<< n - 1) else b.toNat) = i at h ⊢
      split_ifs at h ⊢
      · cases h; rfl
      · exact (stable_readVarIntRest _ 0).ok_append q h
  error_append := by
    intro p e q h hne
    cases p with
    | nil => cases h; exact absurd rfl hne
    | cons b p =>
      rw [readVarInt] at h
      rw [List.cons_append, readVarInt]
      generalize (if n < 8 then b.toNat &&& (1 <<< n - 1) else b.toNat) = i at h ⊢
      split_ifs at h ⊢
      exact (stable_readVarIntRest _ 0).error_append q h hne
  shorter h := Nat.le_of_lt (readVarInt_length_lt h)
  strict := readVarInt_length_lt

/-- The data of a string do not depend on what follows them. -/
theorem stable_readStringData (maxStrLen : ℕ) (isHuff : Bool) (strLen : ℕ) (wantStr : Bool) :
    Stable HpackError.needMore fun p => readStringData maxStrLen isHuff strLen p wantStr := by
  by_cases hlong : maxStrLen ≠ 0 ∧ strLen > maxStrLen
  · simp only [readStringData, if_pos hlong]
    exact .throw _
  · simp only [readStringData, if_neg hlong]
    -- a buffer that is long enough is cut at `strLen`
    have hcut : ∀ {p : Bytes} (q : Bytes), ¬ p.length < strLen → ¬ (p ++ q).length < strLen ∧
        (p ++ q).take strLen = p.take strLen ∧ (p ++ q).drop strLen = p.drop strLen ++ q := by
      intro p q hle
      refine ⟨by rw [List.length_append]; omega, List.take_append_of_le_length (by omega),
        List.drop_append_of_le_length (by omega)⟩
    constructor
    · intro p r a q h
      by_cases hshort : p.length < strLen
      · rw [if_pos hshort] at h; cases h
      · obtain ⟨hlen, htake, hdrop⟩ := hcut q hshort
        rw [if_neg hshort] at h
        rw [if_neg hlen, htake, hdrop]
        cases isHuff with
        | false => cases h; rfl
        | true =>
          cases wantStr with
          | false => cases h; rfl
          | true =>
            simp only [Bool.true_eq_false, if_false, if_true] at h ⊢
            cases hdec : huffmanDecode maxStrLen (p.take strLen) with
            | error e => rw [hdec] at h; cases h
            | ok s => rw [hdec] at h; cases h; rfl
    · intro p e q h hne
      by_cases hshort : p.length < strLen
      · rw [if_pos hshort] at h; cases h; exact absurd rfl hne
      · obtain ⟨hlen, htake, hdrop⟩ := hcut q hshort
        rw [if_neg hshort] at h
        rw [if_neg hlen, htake, hdrop]
        cases isHuff with
        | false => cases h
        | true =>
          cases wantStr with
          | false => cases h
          | true =>
            simp only [Bool.true_eq_false, if_false, if_true] at h ⊢
            cases hdec : huffmanDecode maxStrLen (p.take strLen) with
            | error e => rw [hdec] at h; exact h
            | ok s => rw [hdec] at h; cases h
    · intro p r a h
      by_cases hshort : p.length < strLen
      · rw [if_pos hshort] at h; cases h
      · have hdrop : (p.drop strLen).length ≤ p.length := by rw [List.length_drop]; omega
        rw [if_neg hshort] at h
        cases isHuff with
        | false => cases h; exact hdrop
        | true =>
          cases wantStr with
          | false => cases h; exact hdrop
          | true =>
            simp only [Bool.true_eq_false, if_false, if_true] at h
            cases hdec : huffmanDecode maxStrLen (p.take strLen) with
            | error e => rw [hdec] at h; cases h
            | ok s => rw [hdec] at h; cases h; exact hdrop

/-- A string does not depend on what follows it. -/
theorem stable_readString (maxStrLen : ℕ) (wantStr : Bool) :
    Stable HpackError.needMore fun p => readString maxStrLen p wantStr := by
  have hbind : ∀ flag, Stable HpackError.needMore fun p =>
      readVarInt 7 p >>= fun x => readStringData maxStrLen flag x.1 x.2 wantStr :=
    fun flag => (strict_readVarInt 7).toStable.bind fun n => stable_readStringData maxStrLen flag n wantStr
  constructor
  · intro p r a q h
    cases p with
    | nil => cases h
    | cons b p => exact (hbind (b &&& 128 != 0)).ok_append q h
  · intro p e q h hne
    cases p with
    | nil => cases h; exact absurd rfl hne
    | cons b p => exact (hbind (b &&& 128 != 0)).error_append q h hne
  · intro p r a h
    cases p with
    | nil => cases h
    | cons b p => exact (hbind (b &&& 128 != 0)).shorter h

end Streaming

/-! ## How much is written -/

section Lengths

/-- How long the rest of a number can be. -/
theorem length_appendVarIntRest {k i : ℕ} (hi : i < 2 ^ (7 * (k + 1))) (dst : Bytes) :
    (appendVarIntRest dst i).length ≤ dst.length + (k + 1) := by
  induction k generalizing i dst with
  | zero =>
    rw [appendVarIntRest, if_neg (by omega), List.length_append, List.length_singleton]
  | succ k ih =>
    rw [appendVarIntRest]
    split
    · have hshift : i >>> 7 < 2 ^ (7 * (k + 1)) := by
        rw [Nat.shiftRight_eq_div_pow]
        refine Nat.div_lt_of_lt_mul ?_
        rwa [← Nat.pow_add, show 7 + 7 * (k + 1) = 7 * (k + 1 + 1) by omega]
      have hrest := ih hshift (dst ++ [UInt8.ofNat (0x80 ||| (i &&& 0x7f))])
      rw [List.length_append, List.length_singleton] at hrest
      omega
    · rw [List.length_append, List.length_singleton]
      omega

/-- How long a number can be. -/
theorem length_appendVarInt {k i : ℕ} (hi : i < 2 ^ (7 * (k + 1))) (n : ℕ) (dst : Bytes) :
    (appendVarInt dst n i).length ≤ dst.length + (k + 2) := by
  rw [appendVarInt]
  split
  · rw [List.length_append, List.length_singleton]
    omega
  · have hrest := length_appendVarIntRest (Nat.lt_of_le_of_lt (Nat.sub_le i (1 <<< n - 1)) hi)
      (dst ++ [UInt8.ofNat (1 <<< n - 1)])
    rw [List.length_append, List.length_singleton] at hrest
    omega

/-- How long a string can be. -/
theorem length_appendHpackString {s : Bytes} (hs : s.length < 2 ^ 35) (dst : Bytes) :
    (appendHpackString dst s).length ≤ dst.length + s.length + 6 := by
  rw [appendHpackString]
  simp only
  split
  · rename_i hhuff
    have hint := @length_appendVarInt 4 (huffmanEncodeLength s) (by omega) 7 dst
    rw [setFlag, List.length_modify, length_appendHuffmanString]
    omega
  · have hint := @length_appendVarInt 4 s.length hs 7 dst
    rw [List.length_append]
    omega

end Lengths

end TlsClient.Http2
