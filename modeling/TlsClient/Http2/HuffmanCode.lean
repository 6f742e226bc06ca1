import Mathlib.Data.List.Pairwise
import TlsClient.Library.PrefixCode
import TlsClient.Library.WireBytes

/-!
# The Huffman code of header strings

The strings of a header block are Huffman coded where that is shorter. The encoder writes the codes of the two
tables bit by bit into the last byte of the buffer and fills it up with ones. The tables are a prefix code: the
numbers of 30 bits that begin with the codes are intervals, and no two of them meet.
-/

open Bits
open WireBytes (Bytes)

namespace TlsClient.Http2

def huffmanCodes : List ℕ :=
  [0x1ff8, 0x7fffd8, 0xfffffe2, 0xfffffe3, 0xfffffe4, 0xfffffe5, 0xfffffe6, 0xfffffe7, 0xfffffe8, 0xffffea,
   0x3ffffffc, 0xfffffe9, 0xfffffea, 0x3ffffffd, 0xfffffeb, 0xfffffec, 0xfffffed, 0xfffffee, 0xfffffef,
   0xffffff0, 0xffffff1, 0xffffff2, 0x3ffffffe, 0xffffff3, 0xffffff4, 0xffffff5, 0xffffff6, 0xffffff7,
   0xffffff8, 0xffffff9, 0xffffffa, 0xffffffb, 0x14, 0x3f8, 0x3f9, 0xffa, 0x1ff9, 0x15, 0xf8, 0x7fa, 0x3fa,
   0x3fb, 0xf9, 0x7fb, 0xfa, 0x16, 0x17, 0x18, 0x0, 0x1, 0x2, 0x19, 0x1a, 0x1b, 0x1c, 0x1d, 0x1e, 0x1f, 0x5c,
   0xfb, 0x7ffc, 0x20, 0xffb, 0x3fc, 0x1ffa, 0x21, 0x5d, 0x5e, 0x5f, 0x60, 0x61, 0x62, 0x63, 0x64, 0x65, 0x66,
   0x67, 0x68, 0x69, 0x6a, 0x6b, 0x6c, 0x6d, 0x6e, 0x6f, 0x70, 0x71, 0x72, 0xfc, 0x73, 0xfd, 0x1ffb, 0x7fff0,
   0x1ffc, 0x3ffc, 0x22, 0x7ffd, 0x3, 0x23, 0x4, 0x24, 0x5, 0x25, 0x26, 0x27, 0x6, 0x74, 0x75, 0x28, 0x29, 0x2a,
   0x7, 0x2b, 0x76, 0x2c, 0x8, 0x9, 0x2d, 0x77, 0x78, 0x79, 0x7a, 0x7b, 0x7ffe, 0x7fc, 0x3ffd, 0x1ffd,
   0xffffffc, 0xfffe6, 0x3fffd2, 0xfffe7, 0xfffe8, 0x3fffd3, 0x3fffd4, 0x3fffd5, 0x7fffd9, 0x3fffd6, 0x7fffda,
   0x7fffdb, 0x7fffdc, 0x7fffdd, 0x7fffde, 0xffffeb, 0x7fffdf, 0xffffec, 0xffffed, 0x3fffd7, 0x7fffe0, 0xffffee,
   0x7fffe1, 0x7fffe2, 0x7fffe3, 0x7fffe4, 0x1fffdc, 0x3fffd8, 0x7fffe5, 0x3fffd9, 0x7fffe6, 0x7fffe7, 0xffffef,
   0x3fffda, 0x1fffdd, 0xfffe9, 0x3fffdb, 0x3fffdc, 0x7fffe8, 0x7fffe9, 0x1fffde, 0x7fffea, 0x3fffdd, 0x3fffde,
   0xfffff0, 0x1fffdf, 0x3fffdf, 0x7fffeb, 0x7fffec, 0x1fffe0, 0x1fffe1, 0x3fffe0, 0x1fffe2, 0x7fffed, 0x3fffe1,
   0x7fffee, 0x7fffef, 0xfffea, 0x3fffe2, 0x3fffe3, 0x3fffe4, 0x7ffff0, 0x3fffe5, 0x3fffe6, 0x7ffff1, 0x3ffffe0,
   0x3ffffe1, 0xfffeb, 0x7fff1, 0x3fffe7, 0x7ffff2, 0x3fffe8, 0x1ffffec, 0x3ffffe2, 0x3ffffe3, 0x3ffffe4,
   0x7ffffde, 0x7ffffdf, 0x3ffffe5, 0xfffff1, 0x1ffffed, 0x7fff2, 0x1fffe3, 0x3ffffe6, 0x7ffffe0, 0x7ffffe1,
   0x3ffffe7, 0x7ffffe2, 0xfffff2, 0x1fffe4, 0x1fffe5, 0x3ffffe8, 0x3ffffe9, 0xffffffd, 0x7ffffe3, 0x7ffffe4,
   0x7ffffe5, 0xfffec, 0xfffff3, 0xfffed, 0x1fffe6, 0x3fffe9, 0x1fffe7, 0x1fffe8, 0x7ffff3, 0x3fffea, 0x3fffeb,
   0x1ffffee, 0x1ffffef, 0xfffff4, 0xfffff5, 0x3ffffea, 0x7ffff4, 0x3ffffeb, 0x7ffffe6, 0x3ffffec, 0x3ffffed,
   0x7ffffe7, 0x7ffffe8, 0x7ffffe9, 0x7ffffea, 0x7ffffeb, 0xffffffe, 0x7ffffec, 0x7ffffed, 0x7ffffee, 0x7ffffef,
   0x7fffff0, 0x3ffffee]

def huffmanCodeLen : List ℕ :=
  [13, 23, 28, 28, 28, 28, 28, 28, 28, 24, 30, 28, 28, 30, 28, 28, 28, 28, 28, 28, 28, 28, 30, 28, 28, 28, 28,
   28, 28, 28, 28, 28, 6, 10, 10, 12, 13, 6, 8, 11, 10, 10, 8, 11, 8, 6, 6, 6, 5, 5, 5, 6, 6, 6, 6, 6, 6, 6, 7,
   8, 15, 6, 12, 10, 13, 6, 7, 7, 7, 7, 7, 7, 7, 7, 7, 7, 7, 7, 7, 7, 7, 7, 7, 7, 7, 7, 7, 7, 8, 7, 8, 13, 19,
   13, 14, 6, 15, 5, 6, 5, 6, 5, 6, 6, 6, 5, 7, 7, 6, 6, 6, 5, 6, 7, 6, 5, 5, 6, 7, 7, 7, 7, 7, 15, 11, 14, 13,
   28, 20, 22, 20, 20, 22, 22, 22, 23, 22, 23, 23, 23, 23, 23, 24, 23, 24, 24, 22, 23, 24, 23, 23, 23, 23, 21,
   22, 23, 22, 23, 23, 24, 22, 21, 20, 22, 22, 23, 23, 21, 23, 22, 22, 24, 21, 22, 23, 23, 21, 21, 22, 21, 23,
   22, 23, 23, 20, 22, 22, 22, 23, 22, 22, 23, 26, 26, 20, 19, 22, 23, 22, 25, 26, 26, 26, 27, 27, 26, 24, 25,
   19, 21, 26, 27, 27, 26, 27, 24, 21, 21, 26, 26, 28, 27, 27, 27, 20, 24, 20, 21, 22, 21, 21, 23, 22, 22, 25,
   25, 24, 24, 26, 23, 26, 27, 26, 26, 27, 27, 27, 27, 27, 28, 27, 27, 27, 27, 27, 26]

/-- `huffmanCodes[c]` -/
def huffmanCodeOf (c : UInt8) : ℕ := huffmanCodes.getD c.toNat 0

/-- `huffmanCodeLen[c]` -/
def huffmanCodeLenOf (c : UInt8) : ℕ := huffmanCodeLen.getD c.toNat 0

/-! ## The tables are a prefix code -/

section Tables

def huffmanTable : List (ℕ × ℕ) := huffmanCodes.zip huffmanCodeLen

/-- The numbers of 30 bits that begin with the code. -/
def span (x : ℕ × ℕ) : ℕ × ℕ := (x.1 <<< (30 - x.2), (x.1 + 1) <<< (30 - x.2))

/-- No two of the intervals meet. -/
def apart : List (ℕ × ℕ) → Bool
  | [] => true
  | x :: xs => (xs.all fun y => Nat.ble x.2 y.1 || Nat.ble y.2 x.1) && apart xs

/-- The check of neighbours, for all pairs. -/
theorem pairwise_of_apart {xs : List (ℕ × ℕ)} (h : apart xs = true) :
    xs.Pairwise fun x y => x.2 ≤ y.1 ∨ y.2 ≤ x.1 := by
  induction xs with
  | nil => exact List.Pairwise.nil
  | cons x xs ih =>
    rw [apart, Bool.and_eq_true, List.all_eq_true] at h
    refine List.Pairwise.cons (fun y hy => ?_) (ih h.2)
    have hor := h.1 y hy
    rwa [Bool.or_eq_true, Nat.ble_eq, Nat.ble_eq] at hor

theorem huffmanTable_length : huffmanTable.length = 256 := by decide +kernel

theorem huffmanTable_range : ∀ x ∈ huffmanTable, 0 < x.2 ∧ x.2 ≤ 30 ∧ x.1 < 2 ^ x.2 := by decide +kernel

theorem huffmanTable_apart : apart (huffmanTable.map span) = true := by decide +kernel

/-- An element of two lists side by side. -/
theorem zip_getElem_eq_getD {xs ys : List ℕ} {i : ℕ} (h : i < (xs.zip ys).length) :
    (xs.zip ys)[i] = (xs.getD i 0, ys.getD i 0) := by
  have hlen := h
  rw [List.length_zip] at hlen
  rw [List.getElem_zip, List.getD_eq_getElem _ _ (by omega), List.getD_eq_getElem _ _ (by omega)]

theorem huffmanTable_lt (c : UInt8) : c.toNat < huffmanTable.length := by
  rw [huffmanTable_length]
  exact c.toNat_lt

def huffmanEntry (c : UInt8) : ℕ × ℕ := (huffmanCodeOf c, huffmanCodeLenOf c)

theorem huffmanTable_getElem (c : UInt8) (_h : c.toNat < huffmanTable.length) :
    huffmanTable[c.toNat] = huffmanEntry c :=
  zip_getElem_eq_getD _

/-- The code of a byte has 1 to 30 bits. -/
theorem huffman_range (c : UInt8) :
    0 < huffmanCodeLenOf c ∧ huffmanCodeLenOf c ≤ 30 ∧ huffmanCodeOf c < 2 ^ huffmanCodeLenOf c := by
  have h := huffmanTable_range _ (List.getElem_mem (huffmanTable_lt c))
  rwa [huffmanTable_getElem] at h

/-- The numbers that begin with a code begin with every code at its front. -/
theorem span_of_prefix {x y : ℕ × ℕ} (hx : x.1 < 2 ^ x.2) (hylen : y.2 ≤ 30)
    (h : toBits x.2 x.1 <+: toBits y.2 y.1) (hy : y.1 < 2 ^ y.2) :
    (span x).1 ≤ (span y).1 ∧ (span y).1 < (span x).2 := by
  have hle : x.2 ≤ y.2 := by simpa only [length_toBits] using h.length_le
  obtain ⟨k, hk⟩ := Nat.exists_eq_add_of_le hle
  rw [hk, toBits_add] at h
  have heq := (List.prefix_of_prefix_length_le h (List.prefix_append _ _) (by simp)).eq_of_length (by simp)
  have hshift : y.1 / 2 ^ k = x.1 := by
    rw [← Nat.shiftRight_eq_div_pow]
    refine toBits_inj ?_ hx heq.symm
    rw [Nat.shiftRight_eq_div_pow]
    refine Nat.div_lt_of_lt_mul ?_
    rwa [← Nat.pow_add, Nat.add_comm k, ← hk]
  have hlow : x.1 * 2 ^ k ≤ y.1 := by
    rw [← hshift]
    exact Nat.div_mul_le_self _ _
  have hhigh : y.1 < (x.1 + 1) * 2 ^ k := by
    rw [← hshift]
    exact Nat.lt_mul_of_div_lt (Nat.lt_succ_self _) (Nat.two_pow_pos k)
  simp only [span, Nat.shiftLeft_eq]
  rw [show 30 - x.2 = k + (30 - y.2) by omega, Nat.pow_add, ← Nat.mul_assoc, ← Nat.mul_assoc]
  exact ⟨Nat.mul_le_mul_right _ hlow, Nat.mul_lt_mul_of_pos_right hhigh (Nat.two_pow_pos _)⟩

theorem span_lt (x : ℕ × ℕ) : (span x).1 < (span x).2 := by
  simp only [span, Nat.shiftLeft_eq]
  exact Nat.mul_lt_mul_of_pos_right (Nat.lt_succ_self _) (Nat.two_pow_pos _)

/-- Different bytes have different spans. -/
theorem span_apart {c d : UInt8} (h : c ≠ d) :
    (span (huffmanEntry c)).2 ≤ (span (huffmanEntry d)).1 ∨
      (span (huffmanEntry d)).2 ≤ (span (huffmanEntry c)).1 := by
  have hpairs := List.pairwise_iff_getElem.mp (List.pairwise_map.mp (pairwise_of_apart huffmanTable_apart))
  have hne : c.toNat ≠ d.toNat := fun heq => h (UInt8.toNat_inj.mp heq)
  have hc := huffmanTable_lt c
  have hd := huffmanTable_lt d
  rw [← huffmanTable_getElem c (huffmanTable_lt c), ← huffmanTable_getElem d (huffmanTable_lt d)]
  rcases Nat.lt_or_gt_of_ne hne with hlt | hgt
  · exact hpairs _ _ hc hd hlt
  · exact (hpairs _ _ hd hc hgt).symm

/-- The code that the two tables spell. -/
def huffman : PrefixCode UInt8 where
  code c := toBits (huffmanCodeLenOf c) (huffmanCodeOf c)
  ne_nil c := List.ne_nil_of_length_pos (by rw [length_toBits]; exact (huffman_range c).1)
  prefix_free c d h := by
    by_contra hne
    have hspan := span_of_prefix (x := huffmanEntry c) (y := huffmanEntry d) (huffman_range c).2.2
      (huffman_range d).2.1 h (huffman_range d).2.2
    have hd := span_lt (huffmanEntry d)
    have hapart := span_apart hne
    omega

theorem huffman_code (c : UInt8) : huffman.code c = toBits (huffmanCodeLenOf c) (huffmanCodeOf c) := rfl

theorem huffman_code_length (c : UInt8) : (huffman.code c).length = huffmanCodeLenOf c := length_toBits _ _

/-- A padding of at most seven ones does not begin a code. -/
theorem huffman_not_padding {pad : ℕ} (hpad : pad < 8) (c : UInt8) :
    ¬ huffman.code c <+: List.replicate pad true := by
  intro h
  have hones : ∀ x ∈ huffmanTable, x.2 ≤ 7 → x.1 ≠ 2 ^ x.2 - 1 := by decide +kernel
  have hle : huffmanCodeLenOf c ≤ pad := by
    simpa only [huffman_code_length, List.length_replicate] using h.length_le
  have heq := List.prefix_replicate_iff.mp h
  rw [huffman_code_length, huffman_code, ← toBits_ones] at heq
  have hc := hones _ (List.getElem_mem (huffmanTable_lt c))
  rw [huffmanTable_getElem] at hc
  have hpos := Nat.two_pow_pos (huffmanCodeLenOf c)
  exact hc (hle.trans (by omega)) (toBits_inj (huffman_range c).2.2 (Nat.sub_one_lt hpos.ne') heq.2)

end Tables

/-! ## The encoder -/

section Encoder

/-- `dst[len(dst)-1] |= t`, for a buffer that is not empty. -/
def orLast (dst : Bytes) (t : UInt8) : Bytes := dst.modify (dst.length - 1) (· ||| t)

def appendCodeBits (code : ℕ) (dst : Bytes) (rembits nbits : ℕ) : Bytes × ℕ :=
  if nbits < rembits then
    (orLast dst (UInt8.ofNat (code <<< (rembits - nbits))), rembits - nbits)
  else
    let dst := orLast dst (UInt8.ofNat (code >>> (nbits - rembits)))
    if nbits - rembits = 0 then (dst, 8) else appendCodeBits code (dst ++ [0]) 8 (nbits - rembits)
termination_by nbits + if rembits = 0 then 1 else 0
decreasing_by
  rw [if_neg not_false]
  split <;> omega

def appendByteToHuffmanCode (dst : Bytes) (rembits : ℕ) (c : UInt8) : Bytes × ℕ :=
  appendCodeBits (huffmanCodeOf c) dst rembits (huffmanCodeLenOf c)

def appendHuffmanByte (st : Bytes × ℕ) (c : UInt8) : Bytes × ℕ :=
  let dst := if st.2 = 8 then st.1 ++ [0] else st.1
  appendByteToHuffmanCode dst st.2 c

def appendHuffmanString (dst s : Bytes) : Bytes :=
  let st := s.foldl appendHuffmanByte (dst, 8)
  -- the symbol EOS is 30 ones
  if st.2 < 8 then orLast st.1 (UInt8.ofNat (0x3fffffff >>> (30 - st.2))) else st.1

def huffmanEncodeLength (s : Bytes) : ℕ := ((s.map huffmanCodeLenOf).sum + 7) / 8

/-- `bits` are written and `rembits` bits of the last byte are left. -/
def Open (dst : Bytes) (rembits : ℕ) (bits : List Bool) : Prop :=
  1 ≤ rembits ∧ rembits ≤ 8 ∧ byteBits dst = bits ++ List.replicate rembits false

/-- `bits` are written. With `rembits = 8` the last byte is full. -/
def Written (st : Bytes × ℕ) (bits : List Bool) : Prop :=
  st.2 = 8 ∧ byteBits st.1 = bits ∨ st.2 < 8 ∧ Open st.1 st.2 bits

variable {dst : Bytes} {rembits nbits code : ℕ} {bits : List Bool} {t : UInt8}

theorem orLast_concat (init : Bytes) (b t : UInt8) : orLast (init ++ [b]) t = init ++ [b ||| t] := by
  rw [orLast, List.length_append, List.length_singleton, Nat.add_sub_cancel, List.modify_eq_take_cons_drop (by simp)]
  simp

/-- The bits that go into the last byte. -/
theorem byteBits_orLast (h : Open dst rembits bits) (ht : t.toNat < 2 ^ rembits) :
    byteBits (orLast dst t) = bits ++ toBits rembits t.toNat := by
  obtain ⟨hpos, hle, hbits⟩ := h
  rcases List.eq_nil_or_concat dst with rfl | ⟨init, b, rfl⟩
  · have hlen := congrArg List.length hbits
    rw [byteBits_nil, List.length_nil, List.length_append, List.length_replicate] at hlen
    omega
  · rw [List.concat_eq_append] at hbits ⊢
    rw [orLast_concat]
    rw [byteBits_append, byteBits_cons, byteBits_nil, List.append_nil] at hbits
    rw [byteBits_append, byteBits_cons, byteBits_nil, List.append_nil, UInt8.toNat_or]
    obtain ⟨k, hk⟩ := Nat.exists_eq_add_of_le hle
    have hlen := congrArg List.length hbits
    rw [List.length_append, length_toBits, List.length_append, List.length_replicate] at hlen
    -- the last byte begins with the last bits written
    have hsplit : bits = byteBits init ++ (toBits 8 b.toNat).take k := by
      have htake := congrArg (List.take bits.length) hbits
      rw [List.take_left, List.take_append] at htake
      rw [← htake, List.take_of_length_le (by omega), show bits.length - (byteBits init).length = k by omega]
    have hb : toBits (k + rembits) b.toNat = (toBits 8 b.toNat).take k ++ List.replicate rembits false := by
      rw [hsplit, List.append_assoc] at hbits
      rw [Nat.add_comm k, ← hk]
      exact List.append_cancel_left hbits
    have hor := toBits_or_of_zeros ht hb
    rw [Nat.add_comm k, ← hk] at hor
    rw [hor, hsplit, List.append_assoc]

/-- A new byte is open for eight bits. -/
theorem Open.snoc_zero (h : byteBits dst = bits) : Open (dst ++ [0]) 8 bits := by
  refine ⟨by omega, le_rfl, ?_⟩
  rw [byteBits_append, h]
  rfl

/-- One code is written. Its high bits above `nbits` are cut off by the conversion to a byte once the buffer is
at a byte boundary; before that there are none. -/
theorem written_appendCodeBits (hopen : Open dst rembits bits) (hcode : code < 2 ^ nbits ∨ rembits = 8)
    (hnbits : 0 < nbits) : Written (appendCodeBits code dst rembits nbits) (bits ++ toBits nbits code) := by
  induction dst, rembits, nbits using appendCodeBits.induct code generalizing bits with
  | case1 dst rembits nbits hlt =>
    have hpos := hopen.1
    have hle := hopen.2.1
    rw [appendCodeBits, if_pos hlt]
    obtain ⟨k, rfl⟩ := Nat.exists_eq_add_of_lt hlt
    rw [show nbits + k + 1 - nbits = k + 1 by omega]
    -- the bits shifted into the open byte stay below its free part, so `or` adds them
    have ht : (UInt8.ofNat (code <<< (k + 1))).toNat < 2 ^ (nbits + k + 1) := by
      rcases hcode with hcode | h8
      · rw [UInt8.toNat_ofNat', Nat.shiftLeft_eq]
        refine (Nat.mod_le _ _).trans_lt ?_
        rw [show nbits + k + 1 = nbits + (k + 1) by omega, Nat.pow_add 2 nbits]
        exact Nat.mul_lt_mul_of_pos_right hcode (Nat.two_pow_pos _)
      · rw [h8]
        exact UInt8.toNat_lt _
    refine Or.inr ⟨by omega, by omega, by omega, ?_⟩
    rw [byteBits_orLast hopen ht, toBits_ofNat hle, show nbits + k + 1 = nbits + (k + 1) by omega,
      toBits_shiftLeft, List.append_assoc]
  | case2 dst rembits nbits hlt hzero =>
    have hpos := hopen.1
    have hle := hopen.2.1
    obtain rfl : nbits = rembits := by omega
    rw [appendCodeBits, if_neg hlt, if_pos hzero]
    have ht : (UInt8.ofNat (code >>> (nbits - nbits))).toNat < 2 ^ nbits := by
      rcases hcode with hcode | h8
      · rw [Nat.sub_self, Nat.shiftRight_zero, UInt8.toNat_ofNat']
        exact (Nat.mod_le _ _).trans_lt hcode
      · rw [h8]
        exact UInt8.toNat_lt _
    refine Or.inl ⟨rfl, ?_⟩
    rw [byteBits_orLast hopen ht, toBits_ofNat hle, Nat.sub_self, Nat.shiftRight_zero]
  | case3 dst rembits nbits hlt dst' hzero =>
    rename_i ih
    have hpos := hopen.1
    have hle := hopen.2.1
    rw [appendCodeBits, if_neg hlt, if_neg hzero]
    have hsum : rembits + (nbits - rembits) = nbits := by omega
    have ht : (UInt8.ofNat (code >>> (nbits - rembits))).toNat < 2 ^ rembits := by
      rcases hcode with hcode | h8
      · rw [UInt8.toNat_ofNat', Nat.shiftRight_eq_div_pow]
        refine (Nat.mod_le _ _).trans_lt (Nat.div_lt_of_lt_mul ?_)
        rwa [← Nat.pow_add, Nat.add_comm, hsum]
      · rw [h8]
        exact UInt8.toNat_lt _
    have hstep : byteBits dst' = bits ++ toBits rembits (code >>> (nbits - rembits)) := by
      rw [← toBits_ofNat hle]
      exact byteBits_orLast hopen ht
    -- the rest starts on a fresh byte, where the higher bits of the code fall off
    have hrest := ih (Open.snoc_zero hstep) (Or.inr rfl) (by omega)
    rwa [List.append_assoc, ← toBits_add, hsum] at hrest

/-- One more code is written. -/
theorem written_appendHuffmanByte {st : Bytes × ℕ} (h : Written st bits) (c : UInt8) :
    Written (appendHuffmanByte st c) (bits ++ huffman.code c) := by
  have hopen : Open (if st.2 = 8 then st.1 ++ [0] else st.1) st.2 bits := by
    rcases h with ⟨h8, hbits⟩ | ⟨hlt, hopen⟩
    · rw [if_pos h8, h8]
      exact Open.snoc_zero hbits
    · rwa [if_neg (by omega)]
  exact written_appendCodeBits hopen (Or.inl (huffman_range c).2.2) (huffman_range c).1

/-- The codes of a text are written. -/
theorem written_foldl {st : Bytes × ℕ} (h : Written st bits) (s : Bytes) :
    Written (s.foldl appendHuffmanByte st) (bits ++ huffman.encode s) := by
  induction s generalizing st bits with
  | nil => simpa using h
  | cons c s ih =>
    rw [List.foldl_cons, PrefixCode.encode_cons, ← List.append_assoc]
    exact ih (written_appendHuffmanByte h c)

/-- The bits of an encoded string: the codes, filled up to a whole byte with ones. -/
theorem byteBits_appendHuffmanString (dst s : Bytes) : ∃ pad < 8,
    byteBits (appendHuffmanString dst s) = byteBits dst ++ huffman.encode s ++ List.replicate pad true := by
  have hwritten : Written (s.foldl appendHuffmanByte (dst, 8)) (byteBits dst ++ huffman.encode s) :=
    written_foldl (Or.inl ⟨rfl, rfl⟩) s
  simp only [appendHuffmanString]
  generalize s.foldl appendHuffmanByte (dst, 8) = st at hwritten
  rcases hwritten with ⟨h8, hbits⟩ | ⟨hlt, hopen⟩
  · refine ⟨0, by omega, ?_⟩
    rw [if_neg (by omega), hbits, List.replicate_zero, List.append_nil]
  · refine ⟨st.2, hlt, ?_⟩
    rw [if_pos hlt]
    have hones : ∀ k < 8, UInt8.ofNat (0x3fffffff >>> (30 - k)) = UInt8.ofNat (2 ^ k - 1) := by decide
    have hpos := Nat.two_pow_pos st.2
    have ht : (UInt8.ofNat (2 ^ st.2 - 1)).toNat < 2 ^ st.2 := by
      rw [UInt8.toNat_ofNat']
      exact (Nat.mod_le _ _).trans_lt (by omega)
    rw [hones _ hlt, byteBits_orLast hopen ht, toBits_ofNat (by omega), toBits_ones]

/-- The bits of a text are those of its bytes. -/
theorem length_encode (s : Bytes) : (huffman.encode s).length = (s.map huffmanCodeLenOf).sum := by
  induction s with
  | nil => rfl
  | cons c s ih =>
    rw [PrefixCode.encode_cons, List.length_append, huffman_code_length, ih, List.map_cons, List.sum_cons]

/-- `HuffmanEncodeLength` is how much `AppendHuffmanString` appends. -/
theorem length_appendHuffmanString (dst s : Bytes) :
    (appendHuffmanString dst s).length = dst.length + huffmanEncodeLength s := by
  obtain ⟨pad, hpad, hbits⟩ := byteBits_appendHuffmanString dst s
  have hlen := congrArg List.length hbits
  simp only [length_byteBits, List.length_append, List.length_replicate, length_encode] at hlen
  rw [huffmanEncodeLength]
  omega

end Encoder

end TlsClient.Http2
