import Mathlib.Logic.Function.Basic
import TlsClient.Library.Fallible
import TlsClient.Http2.HuffmanCode

/-!
# Decoding Huffman-coded header strings

The decoder builds a trie with 256 children a node once and walks it a byte at a time, going back to the root
with the bits that the last code did not use. What is left at the end must be at most seven ones.

`huffmanDecode_eq_ok_iff` says that it is inverse to the encoder in both directions: the decoder accepts the
strings that the encoder writes and no others, so there is one spelling of every header string.
-/

open Bits ByteTrie
open WireBytes (Bytes)

namespace TlsClient.Http2

/-! ## The decoder's trie -/

section Trie

/-- `for i := start; i < start+end; i++ { cur.children[i] = node }` -/
def fillChildren (start count : ℕ) (node : Node UInt8) (cur : Children UInt8) : Children UInt8 :=
  (List.range' start count).foldl (fun cur i => Function.update cur (UInt8.ofNat i) (some node)) cur

/-- `none` is the run-time panic of a step below a leaf, which has no children. -/
def addDecoderNode (sym : UInt8) (code codeLen : ℕ) (pos : 0 < codeLen) (cur : Children UInt8) :
    Option (Children UInt8) :=
  if h : 8 < codeLen then
    let i := UInt8.ofNat (code >>> (codeLen - 8))
    match cur i with
    | none =>
      (addDecoderNode sym code (codeLen - 8) (Nat.sub_pos_of_lt h) noChildren).map fun next =>
        Function.update cur i (some (.internal next))
    | some (.internal next) =>
      (addDecoderNode sym code (codeLen - 8) (Nat.sub_pos_of_lt h) next).map fun next =>
        Function.update cur i (some (.internal next))
    | some (.leaf ..) => none
  else
    let shift := 8 - codeLen
    some (fillChildren (UInt8.ofNat (code <<< shift)).toNat (1 <<< shift) (.leaf codeLen pos sym) cur)
termination_by codeLen

/-- The symbols are the indices of the tables. -/
def huffmanSymbols : List UInt8 := (List.range 256).map UInt8.ofNat

def buildRootHuffmanNode : Option (Children UInt8) :=
  huffmanSymbols.foldlM
    (fun root c => addDecoderNode c (huffmanCodeOf c) (huffmanCodeLenOf c) (huffman_range c).1 root) noChildren

variable {sym : UInt8} {code codeLen : ℕ} {pos : 0 < codeLen} {cur : Children UInt8} {node : Node UInt8}

/-- The child of a byte after a range was filled. -/
theorem fillChildren_apply {start count : ℕ} (h : start + count ≤ 256) (b : UInt8) :
    fillChildren start count node cur b =
      if start ≤ b.toNat ∧ b.toNat < start + count then some node else cur b := by
  induction count generalizing start cur with
  | zero => rw [if_neg (by omega)]; rfl
  | succ count ih =>
    have hstep : fillChildren start (count + 1) node cur =
        fillChildren (start + 1) count node (Function.update cur (UInt8.ofNat start) (some node)) := by
      rw [fillChildren, List.range'_succ, List.foldl_cons]
      rfl
    have hstart : (UInt8.ofNat start).toNat = start := by
      rw [UInt8.toNat_ofNat']
      omega
    rw [hstep, ih (by omega)]
    by_cases hb : b = UInt8.ofNat start
    · rw [hb, hstart, if_neg (by omega), if_pos (by omega), Function.update_self]
    · have hne : b.toNat ≠ start := fun heq => hb (by rw [← heq, UInt8.ofNat_toNat])
      rw [Function.update_of_ne hb]
      exact if_congr (by omega) rfl rfl

/-- The bytes that the last bits of a code begin are a range. -/
theorem in_range_iff (hle : codeLen ≤ 8) (b : UInt8) :
    ((UInt8.ofNat (code <<< (8 - codeLen))).toNat ≤ b.toNat ∧
        b.toNat < (UInt8.ofNat (code <<< (8 - codeLen))).toNat + 1 <<< (8 - codeLen)) ↔
      toBits codeLen code <+: toBits 8 b.toNat := by
  obtain ⟨shift, hshift⟩ := Nat.exists_eq_add_of_le hle
  have hb := b.toNat_lt
  have hpow : 2 ^ codeLen * 2 ^ shift = 2 ^ 8 := by rw [← Nat.pow_add, ← hshift]
  have hpos := Nat.two_pow_pos shift
  rw [show 8 - codeLen = shift by omega, Nat.one_shiftLeft, Nat.shiftLeft_eq, UInt8.toNat_ofNat', ← hpow,
    Nat.mul_mod_mul_right]
  -- a byte is in the range when its high bits are the code
  have hrange : (code % 2 ^ codeLen * 2 ^ shift ≤ b.toNat ∧
      b.toNat < code % 2 ^ codeLen * 2 ^ shift + 2 ^ shift) ↔
      b.toNat / 2 ^ shift = code % 2 ^ codeLen := by
    rw [Nat.div_eq_iff hpos]
    omega
  rw [hrange, hshift, toBits_add, Nat.shiftRight_eq_div_pow]
  constructor
  · intro h
    rw [h, toBits_mod]
    exact List.prefix_append _ _
  · intro h
    have heq := (List.prefix_of_prefix_length_le h (List.prefix_append _ _) (by simp)).eq_of_length (by simp)
    refine toBits_inj (Nat.div_lt_of_lt_mul ?_) (Nat.mod_lt _ (Nat.two_pow_pos _)) (by rw [toBits_mod, heq])
    rw [Nat.mul_comm, hpow]
    exact hb

/-- A longer code is its first byte and the rest. -/
theorem prefix_cons_iff (hlt : 8 < codeLen) (path : Bytes) :
    toBits codeLen code <+: byteBits (UInt8.ofNat (code >>> (codeLen - 8)) :: path) ↔
      toBits (codeLen - 8) code <+: byteBits path := by
  conv_lhs => rw [show codeLen = 8 + (codeLen - 8) by omega]
  rw [toBits_add, byteBits_cons, show 8 + (codeLen - 8) - 8 = codeLen - 8 by omega, toBits_ofNat le_rfl,
    List.prefix_append_right_inj]

/-- The first byte of a longer code. -/
theorem eq_of_prefix_cons (hlt : 8 < codeLen) {b : UInt8} {path : Bytes}
    (h : toBits codeLen code <+: byteBits (b :: path)) : b = UInt8.ofNat (code >>> (codeLen - 8)) := by
  rw [show codeLen = 8 + (codeLen - 8) by omega, toBits_add, byteBits_cons] at h
  have hfirst := (List.prefix_append _ _).trans h
  have heq := (List.prefix_of_prefix_length_le hfirst (List.prefix_append _ _) (by simp)).eq_of_length (by simp)
  refine byte_eq_of_toBits ?_
  rw [toBits_ofNat le_rfl, ← heq]

/-- A step of the walk down: the children below the first byte are replaced. -/
theorem adds_update (hlt : 8 < codeLen) {next next' : Children UInt8}
    (hbelow : ∀ path, leafAt cur (UInt8.ofNat (code >>> (codeLen - 8)) :: path) = leafAt next path)
    (hadds : Adds (toBits (codeLen - 8) code) sym next next') :
    Adds (toBits codeLen code) sym cur
      (Function.update cur (UInt8.ofNat (code >>> (codeLen - 8))) (some (.internal next'))) := by
  intro path
  -- no code ends where no byte has been read
  cases path with
  | nil =>
    have hnot : ¬ toBits codeLen code <+: byteBits [] := by
      intro h
      have hle := h.length_le
      rw [length_toBits, byteBits_nil, List.length_nil] at hle
      omega
    rw [if_neg hnot, leafAt_nil, leafAt_nil]
  | cons b path =>
    by_cases hb : b = UInt8.ofNat (code >>> (codeLen - 8))
    · subst hb
      rw [leafAt_cons_internal (Function.update_self ..), hadds path, hbelow path]
      refine if_congr (prefix_cons_iff hlt path).symm ?_ rfl
      rw [length_toBits, length_toBits, List.length_cons]
      by_cases hlen : path.length = (codeLen - 8 + 7) / 8
      · rw [if_pos hlen, if_pos (by omega), show codeLen - 8 - 8 * (path.length - 1) =
          codeLen - 8 * (path.length + 1 - 1) by omega]
      · rw [if_neg hlen, if_neg (by omega)]
    · rw [if_neg fun h => hb (eq_of_prefix_cons hlt h)]
      exact leafAt_cons_congr (Function.update_of_ne hb _ _) path

/-- A code of at most a byte fills the bytes that begin with it. -/
theorem adds_fill (hle : codeLen ≤ 8) :
    Adds (toBits codeLen code) sym cur
      (fillChildren (UInt8.ofNat (code <<< (8 - codeLen))).toNat (1 <<< (8 - codeLen)) (.leaf codeLen pos sym)
        cur) := by
  -- the range of the filled bytes ends at 256 at the latest
  have hbound : (UInt8.ofNat (code <<< (8 - codeLen))).toNat + 1 <<< (8 - codeLen) ≤ 256 := by
    have hpow : 2 ^ codeLen * 2 ^ (8 - codeLen) = 2 ^ 8 := by rw [← Nat.pow_add, Nat.add_sub_cancel' hle]
    have hmod := Nat.mod_lt code (Nat.two_pow_pos codeLen)
    rw [Nat.one_shiftLeft, Nat.shiftLeft_eq, UInt8.toNat_ofNat', ← hpow, Nat.mul_mod_mul_right, ← Nat.succ_mul,
      show 256 = 2 ^ codeLen * 2 ^ (8 - codeLen) from hpow.symm]
    exact Nat.mul_le_mul_right _ hmod
  intro path
  cases path with
  | nil =>
    have hnot : ¬ toBits codeLen code <+: byteBits [] := by
      intro h
      have hlen := h.length_le
      rw [length_toBits, byteBits_nil, List.length_nil] at hlen
      omega
    rw [if_neg hnot, leafAt_nil, leafAt_nil]
  | cons b path =>
    have hiff : toBits codeLen code <+: byteBits (b :: path) ↔ toBits codeLen code <+: toBits 8 b.toNat := by
      rw [byteBits_cons]
      refine ⟨fun h => ?_, fun h => h.trans (List.prefix_append _ _)⟩
      exact List.prefix_of_prefix_length_le h (List.prefix_append _ _) (by simpa using hle)
    have happly := @fillChildren_apply cur (.leaf codeLen pos sym) _ _ hbound b
    by_cases hin : toBits codeLen code <+: toBits 8 b.toNat
    · rw [if_pos ((in_range_iff hle b).mpr hin)] at happly
      rw [if_pos (hiff.mpr hin), leafAt_cons_leaf happly, length_toBits, List.length_cons]
      -- a leaf ends the path: nothing is below it
      cases path with
      | nil => rw [if_pos rfl, if_pos (by rw [List.length_nil]; omega), List.length_nil]; rfl
      | cons c path => rw [if_neg (List.cons_ne_nil _ _), if_neg (by rw [List.length_cons]; omega)]
    · rw [if_neg fun h => hin ((in_range_iff hle b).mp h)] at happly
      rw [if_neg fun h => hin (hiff.mp h)]
      exact leafAt_cons_congr happly path

/-- Adding a symbol does what it should when no leaf is above its code. -/
theorem adds_addDecoderNode (sym : UInt8) (pos : 0 < codeLen) (cur : Children UInt8)
    (hfree : ∀ path, byteBits path <+: toBits codeLen code → leafAt cur path = none) :
    ∃ cur', addDecoderNode sym code codeLen pos cur = some cur' ∧ Adds (toBits codeLen code) sym cur cur' := by
  induction codeLen using Nat.strongRecOn generalizing cur with
  | ind codeLen ih =>
    by_cases hlt : 8 < codeLen
    · have hbelow : ∀ path, byteBits path <+: toBits (codeLen - 8) code →
          byteBits (UInt8.ofNat (code >>> (codeLen - 8)) :: path) <+: toBits codeLen code := by
        intro path h
        conv_rhs => rw [show codeLen = 8 + (codeLen - 8) by omega]
        rw [toBits_add, byteBits_cons, toBits_ofNat le_rfl]
        exact (List.prefix_append_right_inj _).mpr h
      rw [addDecoderNode, dif_pos hlt]
      -- the child is made, found, or a leaf, which `hfree` excludes
      rcases hchild : cur (UInt8.ofNat (code >>> (codeLen - 8))) with _ | ⟨next⟩ | _
      · obtain ⟨next', hnext, hadds⟩ := ih (codeLen - 8) (by omega) (Nat.sub_pos_of_lt hlt) noChildren
          fun path _ => leafAt_noChildren path
        refine ⟨_, by simp only [hchild, hnext, Option.map_some], adds_update hlt (fun path => ?_) hadds⟩
        rw [leafAt_cons_none hchild, leafAt_noChildren]
      · obtain ⟨next', hnext, hadds⟩ := ih (codeLen - 8) (by omega) (Nat.sub_pos_of_lt hlt) next
          fun path h => (leafAt_cons_internal hchild path).symm.trans (hfree _ (hbelow path h))
        exact ⟨_, by simp only [hchild, hnext, Option.map_some],
          adds_update hlt (leafAt_cons_internal hchild) hadds⟩
      · have hleaf := hfree _ (hbelow [] (List.nil_prefix))
        rw [leafAt_cons_leaf hchild, if_pos rfl] at hleaf
        cases hleaf
    · rw [addDecoderNode, dif_neg hlt]
      exact ⟨_, rfl, adds_fill (by omega)⟩

/-- More symbols can be added, and the tree holds them all. -/
theorem foldlM_addDecoderNode (syms more : List UInt8) (hnodup : (syms.reverse ++ more).Nodup)
    (h : Holds huffman cur syms) :
    ∃ root, more.foldlM (fun root c =>
        addDecoderNode c (huffmanCodeOf c) (huffmanCodeLenOf c) (huffman_range c).1 root) cur = some root ∧
      Holds huffman root (more.reverse ++ syms) := by
  induction more generalizing cur syms with
  | nil => exact ⟨cur, rfl, h⟩
  | cons c more ih =>
    have hc : c ∉ syms := by
      intro hmem
      exact (List.nodup_append.mp hnodup).2.2 c (List.mem_reverse.mpr hmem) c List.mem_cons_self rfl
    obtain ⟨cur', hcur, hadds⟩ := adds_addDecoderNode c (huffman_range c).1 cur
      fun path habove => h.no_leaf_above hc habove
    obtain ⟨root, hroot, hholds⟩ := ih (c :: syms)
      (by rwa [List.reverse_cons, List.append_assoc, List.singleton_append]) (h.add hc hadds)
    refine ⟨root, ?_, by rwa [List.reverse_cons, List.append_assoc, List.singleton_append]⟩
    rw [List.foldlM_cons, hcur]
    exact hroot

/-- No symbol is added twice. -/
theorem nodup_huffmanSymbols : huffmanSymbols.Nodup := by
  refine List.Nodup.map_on (fun i hi j hj h => ?_) List.nodup_range
  have hnat := congrArg UInt8.toNat h
  rwa [UInt8.toNat_ofNat', UInt8.toNat_ofNat', Nat.mod_eq_of_lt (List.mem_range.mp hi),
    Nat.mod_eq_of_lt (List.mem_range.mp hj)] at hnat

/-- The trie is built without a panic, and its leaves are the codes of the tables. -/
theorem holds_buildRootHuffmanNode :
    ∃ root, buildRootHuffmanNode = some root ∧ Holds huffman root huffmanSymbols.reverse := by
  obtain ⟨root, hroot, hholds⟩ := foldlM_addDecoderNode [] huffmanSymbols
    (by rw [List.reverse_nil, List.nil_append]; exact nodup_huffmanSymbols) (holds_noChildren huffman)
  rw [List.append_nil] at hholds
  exact ⟨root, hroot, hholds⟩

theorem mem_huffmanSymbols (c : UInt8) : c ∈ huffmanSymbols.reverse :=
  List.mem_reverse.mpr (List.mem_map.mpr ⟨c.toNat, List.mem_range.mpr c.toNat_lt, UInt8.ofNat_toNat⟩)

end Trie

/-! ## The decoder -/

section Decoder

inductive HuffmanError
  | invalidHuffman
  | stringLength
  /-- The trie could not be built: a run-time panic. -/
  | nilDereference
  deriving DecidableEq, Repr

/-- The decoder's variables. `n` is an inner node, given by its children. `cur` is the bit buffer and `cbits`
the number of its low bits that are not yet fed into `n`; of the other bits nothing is read. -/
structure HuffmanState where
  n : Children UInt8
  cur : ℕ
  cbits : ℕ
  sbits : ℕ
  buf : Bytes

/-- `buf.WriteByte(n.sym)` at a leaf, and back to the root -/
def HuffmanState.emit (root : Children UInt8) (st : HuffmanState) (codeLen : ℕ) (sym : UInt8) : HuffmanState :=
  { st with n := root, cbits := st.cbits - codeLen, sbits := st.cbits - codeLen, buf := st.buf ++ [sym] }

/-- `for cbits >= 8` -/
def feedByte (root : Children UInt8) (maxLen : ℕ) (st : HuffmanState) : Except HuffmanError HuffmanState :=
  if 8 ≤ st.cbits then
    match st.n (UInt8.ofNat (st.cur >>> (st.cbits - 8))) with
    | none => .error .invalidHuffman
    | some (.leaf codeLen _ sym) =>
      if maxLen ≠ 0 ∧ st.buf.length = maxLen then .error .stringLength
      else feedByte root maxLen (st.emit root codeLen sym)
    | some (.internal children) => feedByte root maxLen { st with n := children, cbits := st.cbits - 8 }
  else .ok st
termination_by st.cbits
decreasing_by
  · exact Nat.sub_lt (by omega) ‹0 < codeLen›
  · omega

/-- `for _, b := range v` -/
def feedBytes (root : Children UInt8) (maxLen : ℕ) (st : HuffmanState) : Bytes → Except HuffmanError HuffmanState
  | [] => .ok st
  | b :: v => do
    let st ← feedByte root maxLen
      { st with cur := st.cur <<< 8 ||| b.toNat, cbits := st.cbits + 8, sbits := st.sbits + 8 }
    feedBytes root maxLen st v

/-- `for cbits > 0`: the bits that are left are looked up as a byte that zeros fill up. -/
def feedRest (root : Children UInt8) (maxLen : ℕ) (st : HuffmanState) : Except HuffmanError HuffmanState :=
  if 0 < st.cbits then
    match st.n (UInt8.ofNat (st.cur <<< (8 - st.cbits))) with
    | none => .error .invalidHuffman
    | some (.internal _) => .ok st
    | some (.leaf codeLen _ sym) =>
      if codeLen > st.cbits then .ok st
      else if maxLen ≠ 0 ∧ st.buf.length = maxLen then .error .stringLength
      else feedRest root maxLen (st.emit root codeLen sym)
  else .ok st
termination_by st.cbits
decreasing_by exact Nat.sub_lt (by omega) ‹0 < codeLen›

/-- The checks behind the loops: what is left must be at most seven bits, all of them ones. -/
def checkPadding (st : HuffmanState) : Except HuffmanError Bytes :=
  let mask := 1 <<< st.cbits - 1
  if st.sbits > 7 then .error .invalidHuffman
  else if st.cur &&& mask ≠ mask then .error .invalidHuffman
  else .ok st.buf

/-- `huffmanDecode`, into an empty buffer. -/
def huffmanDecode (maxLen : ℕ) (v : Bytes) : Except HuffmanError Bytes :=
  match buildRootHuffmanNode with
  | none => .error .nilDereference
  | some root => do
    let st ← feedBytes root maxLen { n := root, cur := 0, cbits := 0, sbits := 0, buf := [] } v
    let st ← feedRest root maxLen st
    checkPadding st

/-! ### What has been read -/

variable {root : Children UInt8} {maxLen : ℕ} {st st' : HuffmanState} {bits more : List Bool} {path text : Bytes}
  {pad : ℕ}

/-- The bits that were fed are the codes of what is written, the path down to the node and the bits still in the
buffer. -/
structure Reading (root : Children UInt8) (st : HuffmanState) (bits : List Bool) (path : Bytes) : Prop where
  node : (Node.internal root).descend path = some (.internal st.n)
  read : bits = huffman.encode st.buf ++ (byteBits path ++ toBits st.cbits st.cur)
  sbits : st.sbits = 8 * path.length + st.cbits

/-- The bits are those of an encoded string that is short enough. -/
def WithinLimit (maxLen : ℕ) (s : Bytes) : Prop := maxLen = 0 ∨ s.length ≤ maxLen

/-- The next byte of the walk: its bits are those of the buffer, and then zeros. -/
def NextByte (st : HuffmanState) (b : UInt8) : Prop :=
  toBits 8 b.toNat <+: toBits st.cbits st.cur ++ List.replicate 8 false

/-- Eight bits or more give a whole byte. -/
theorem nextByte_full (h : 8 ≤ st.cbits) : NextByte st (UInt8.ofNat (st.cur >>> (st.cbits - 8))) := by
  rw [NextByte, toBits_ofNat le_rfl, show st.cbits = 8 + (st.cbits - 8) by omega, toBits_add,
    show 8 + (st.cbits - 8) - 8 = st.cbits - 8 by omega, List.append_assoc]
  exact List.prefix_append _ _

/-- Fewer bits are filled with zeros. -/
theorem toBits_rest (h : st.cbits < 8) : toBits 8 (UInt8.ofNat (st.cur <<< (8 - st.cbits))).toNat =
    toBits st.cbits st.cur ++ List.replicate (8 - st.cbits) false := by
  have happend := toBits_shiftLeft st.cbits (8 - st.cbits) st.cur
  rwa [show st.cbits + (8 - st.cbits) = 8 by omega, ← toBits_ofNat le_rfl] at happend

/-- Fewer than eight bits give the next byte, filled with zeros. -/
theorem nextByte_rest (h : st.cbits < 8) : NextByte st (UInt8.ofNat (st.cur <<< (8 - st.cbits))) := by
  rw [NextByte, toBits_rest h, List.prefix_append_right_inj]
  exact ⟨List.replicate st.cbits false, by rw [List.replicate_append_replicate]; congr 1; omega⟩

/-- A leaf is reached by the bits of one byte. -/
theorem leaf_codeLen_le (hholds : Holds huffman root huffmanSymbols.reverse) (h : Reading root st bits path)
    {b sym : UInt8} {codeLen : ℕ} {pos : 0 < codeLen} (hleaf : st.n b = some (.leaf codeLen pos sym)) : codeLen ≤ 8 := by
  obtain ⟨hfits, hcodeLen⟩ := hholds.fits_of_leaf ((descend_snoc h.node b).trans hleaf)
  have hle := hfits.length_le
  rw [List.length_append, List.length_singleton] at hcodeLen hle
  omega

/-- One more symbol is within the limit, where the limit is not reached. -/
theorem WithinLimit.snoc {buf : Bytes} (h : WithinLimit maxLen buf) (hmax : ¬ (maxLen ≠ 0 ∧ buf.length = maxLen))
    (sym : UInt8) : WithinLimit maxLen (buf ++ [sym]) := by
  rw [WithinLimit, List.length_append, List.length_singleton]
  rcases h with h | h <;> omega

/-- A leaf that needs no more bits than there are writes its symbol, and the bits are split behind its code. -/
theorem Reading.emit (hholds : Holds huffman root huffmanSymbols.reverse) (h : Reading root st bits path)
    {b sym : UInt8} {codeLen : ℕ} {pos : 0 < codeLen} (hb : NextByte st b)
    (hleaf : st.n b = some (.leaf codeLen pos sym)) (hle : codeLen ≤ st.cbits) :
    Reading root (st.emit root codeLen sym) bits [] := by
  have hdescend := (descend_snoc h.node b).trans hleaf
  obtain ⟨hfits, hcodeLen⟩ := hholds.fits_of_leaf hdescend
  rw [List.length_append, List.length_singleton, Nat.add_sub_cancel] at hcodeLen
  have hcode := hfits.1
  rw [byteBits_append, byteBits_cons, byteBits_nil, List.append_nil] at hcode
  -- the code is the path and the first `codeLen` bits of the buffer
  obtain ⟨last, hlast⟩ := List.prefix_of_prefix_length_le (List.prefix_append (byteBits path) _) hcode
    (by rw [length_byteBits]; omega)
  have hlastLen := congrArg List.length hlast
  rw [List.length_append, length_byteBits] at hlastLen
  rw [← hlast, List.prefix_append_right_inj] at hcode
  obtain ⟨k, hk⟩ := Nat.exists_eq_add_of_le hle
  have hsplit : toBits st.cbits st.cur = last ++ toBits k st.cur := by
    rw [hk, toBits_add]
    congr 1
    have hpre := hcode.trans hb
    rw [hk, toBits_add, List.append_assoc] at hpre
    exact ((List.prefix_of_prefix_length_le hpre (List.prefix_append _ _) (by rw [length_toBits]; omega)).eq_of_length
      (by rw [length_toBits]; omega)).symm
  refine ⟨rfl, ?_, by simp [HuffmanState.emit]⟩
  rw [h.read, hsplit]
  simp only [HuffmanState.emit, PrefixCode.encode_append, PrefixCode.encode_cons, PrefixCode.encode_nil,
    byteBits_nil, List.nil_append, List.append_nil, show st.cbits - codeLen = k by omega, ← hlast, List.append_assoc]

/-- A whole byte leads to an inner node. -/
theorem Reading.step (h : Reading root st bits path) (hcbits : 8 ≤ st.cbits) {children : Children UInt8}
    (hnode : st.n (UInt8.ofNat (st.cur >>> (st.cbits - 8))) = some (.internal children)) :
    Reading root { st with n := children, cbits := st.cbits - 8 } bits
      (path ++ [UInt8.ofNat (st.cur >>> (st.cbits - 8))]) := by
  refine ⟨(descend_snoc h.node _).trans hnode, ?_, ?_⟩
  · rw [h.read, byteBits_append, byteBits_cons, byteBits_nil, List.append_nil, toBits_ofNat le_rfl, List.append_assoc,
      ← toBits_add, show 8 + (st.cbits - 8) = st.cbits by omega]
  · rw [List.length_append, List.length_singleton, h.sbits]
    simp only
    omega

/-- One more byte of input. -/
theorem Reading.feed (h : Reading root st bits path) (b : UInt8) :
    Reading root { st with cur := st.cur <<< 8 ||| b.toNat, cbits := st.cbits + 8, sbits := st.sbits + 8 }
      (bits ++ toBits 8 b.toNat) path := by
  refine ⟨h.node, ?_, ?_⟩
  · simp only [toBits_shiftLeft_or st.cbits 8 b.toNat_lt, h.read, List.append_assoc]
  · simp only [h.sbits]
    omega

/-! ### Nothing but encoded strings is read -/

/-- After a byte that is accepted fewer than eight bits are left. -/
theorem feedByte_ok (hholds : Holds huffman root huffmanSymbols.reverse) (h : Reading root st bits path)
    (hlimit : WithinLimit maxLen st.buf) (hok : feedByte root maxLen st = .ok st') :
    ∃ path', Reading root st' bits path' ∧ st'.cbits < 8 ∧ WithinLimit maxLen st'.buf := by
  induction st using feedByte.induct root maxLen generalizing path with
  | case1 st hcbits hnode =>
    rw [feedByte, if_pos hcbits, hnode] at hok
    cases hok
  | case2 st hcbits codeLen pos sym hnode hmax =>
    rw [feedByte, if_pos hcbits, hnode] at hok
    simp only [if_pos hmax] at hok
    cases hok
  | case3 st hcbits codeLen pos sym hnode hmax ih =>
    rw [feedByte, if_pos hcbits, hnode] at hok
    simp only [if_neg hmax] at hok
    have hread := h.emit hholds (nextByte_full hcbits) hnode ((leaf_codeLen_le hholds h hnode).trans hcbits)
    exact ih hread (hlimit.snoc hmax sym) hok
  | case4 st hcbits children hnode ih =>
    rw [feedByte, if_pos hcbits, hnode] at hok
    exact ih (h.step hcbits hnode) hlimit hok
  | case5 st hcbits =>
    rw [feedByte, if_neg hcbits] at hok
    cases hok
    exact ⟨path, h, by omega, hlimit⟩

/-- After bytes that are accepted fewer than eight bits are left. -/
theorem feedBytes_ok (hholds : Holds huffman root huffmanSymbols.reverse) (h : Reading root st bits path)
    (hcbits : st.cbits < 8) (hlimit : WithinLimit maxLen st.buf) {v : Bytes}
    (hok : feedBytes root maxLen st v = .ok st') :
    ∃ path', Reading root st' (bits ++ byteBits v) path' ∧ st'.cbits < 8 ∧ WithinLimit maxLen st'.buf := by
  induction v generalizing st bits path with
  | nil =>
    cases hok
    exact ⟨path, by rwa [byteBits_nil, List.append_nil], hcbits, hlimit⟩
  | cons b v ih =>
    obtain ⟨mid, hmid, hrest⟩ := Fallible.bind_eq_ok_iff.mp hok
    obtain ⟨path', hread, hcbits', hlimit'⟩ := feedByte_ok hholds (h.feed b) hlimit hmid
    rw [byteBits_cons, ← List.append_assoc]
    exact ih hread hcbits' hlimit' hrest

/-- The loop for the rest stops where no code ends within the bits that are left. -/
def Stopped (st : HuffmanState) : Prop :=
  st.cbits = 0 ∨ ∀ codeLen pos sym,
    st.n (UInt8.ofNat (st.cur <<< (8 - st.cbits))) = some (.leaf codeLen pos sym) → st.cbits < codeLen

/-- At the end the decoder has stopped. -/
theorem feedRest_ok (hholds : Holds huffman root huffmanSymbols.reverse) (h : Reading root st bits path)
    (hcbits : st.cbits < 8) (hlimit : WithinLimit maxLen st.buf) (hok : feedRest root maxLen st = .ok st') :
    ∃ path', Reading root st' bits path' ∧ st'.cbits < 8 ∧ WithinLimit maxLen st'.buf ∧ Stopped st' := by
  induction st using feedRest.induct root maxLen generalizing path with
  | case1 st hpos hnode =>
    rw [feedRest, if_pos hpos, hnode] at hok
    cases hok
  -- the bits that are left end inside the tree or inside a code: nothing more is read
  | case2 st hpos children hnode =>
    rw [feedRest, if_pos hpos, hnode] at hok
    cases hok
    refine ⟨path, h, hcbits, hlimit, Or.inr fun codeLen pos sym hleaf => ?_⟩
    rw [hnode] at hleaf
    cases hleaf
  | case3 st hpos codeLen pos sym hnode hgt =>
    rw [feedRest, if_pos hpos, hnode] at hok
    simp only [if_pos hgt] at hok
    cases hok
    refine ⟨path, h, hcbits, hlimit, Or.inr fun codeLen' pos' sym' hleaf => ?_⟩
    rw [hnode] at hleaf
    cases hleaf
    exact hgt
  | case4 st hpos codeLen pos sym hnode hgt hmax =>
    rw [feedRest, if_pos hpos, hnode] at hok
    simp only [if_neg hgt, if_pos hmax] at hok
    cases hok
  | case5 st hpos codeLen pos sym hnode hgt hmax ih =>
    rw [feedRest, if_pos hpos, hnode] at hok
    simp only [if_neg hgt, if_neg hmax] at hok
    have hread := h.emit hholds (nextByte_rest hcbits) hnode (by omega)
    exact ih hread (by simp only [HuffmanState.emit]; omega) (hlimit.snoc hmax sym) hok
  | case6 st hzero =>
    rw [feedRest, if_neg hzero] at hok
    cases hok
    exact ⟨path, h, hcbits, hlimit, Or.inl (by omega)⟩

/-! ### Every encoded string is read -/

/-- The rest of an encoded string, seen from a state of the decoder. -/
theorem Reading.remaining (h : Reading root st bits path) (hbits : bits ++ more =
    huffman.encode text ++ List.replicate pad true) (hpad : pad < 8) :
    ∃ text', text = st.buf ++ text' ∧
      byteBits path ++ (toBits st.cbits st.cur ++ more) = huffman.encode text' ++ List.replicate pad true := by
  rw [h.read, List.append_assoc, List.append_assoc] at hbits
  exact huffman.encode_split (huffman_not_padding hpad) hbits

/-- Above an inner node no code ends. -/
theorem Reading.length_lt (hholds : Holds huffman root huffmanSymbols.reverse) (h : Reading root st bits path)
    {sym : UInt8} {rest : List Bool} (hcode : huffman.code sym <+: byteBits path ++ rest) :
    8 * path.length < (huffman.code sym).length := by
  by_contra hle
  -- the part of the path that the code fits has a leaf at its end
  let k := ((huffman.code sym).length + 7) / 8
  have hfits : Fits (huffman.code sym) (path.take k) := by
    have hlen : (path.take k).length = k := by rw [List.length_take]; omega
    refine ⟨?_, hlen⟩
    rw [← List.take_append_drop k path, byteBits_append, List.append_assoc] at hcode
    exact List.prefix_of_prefix_length_le hcode (List.prefix_append _ _) (by rw [length_byteBits]; omega)
  obtain ⟨pos, hleaf⟩ := hholds.leaf_of_fits (mem_huffmanSymbols sym) hfits
  have hnode := h.node
  rw [← List.take_append_drop k path, descend_append, hleaf, Option.bind_some] at hnode
  generalize path.drop k = below at hnode
  cases below with
  | nil =>
    rw [Node.descend] at hnode
    cases hnode
  | cons b below => cases hnode

/-- While a code is to be read, the walk has a next node, and a leaf where the code ends within the byte. -/
theorem Reading.next (hholds : Holds huffman root huffmanSymbols.reverse) (h : Reading root st bits path)
    {sym b : UInt8} {rest : List Bool} (hcode : huffman.code sym <+: byteBits path ++ (toBits 8 b.toNat ++ rest)) :
    (∃ pos, st.n b = some (.leaf ((huffman.code sym).length - 8 * path.length) pos sym)) ∨
      8 * (path.length + 1) < (huffman.code sym).length ∧ ∃ children, st.n b = some (.internal children) := by
  have hlt := h.length_lt hholds hcode
  have hlen : (path ++ [b]).length = path.length + 1 := by rw [List.length_append, List.length_singleton]
  have hpath : byteBits (path ++ [b]) = byteBits path ++ toBits 8 b.toNat := by
    rw [byteBits_append, byteBits_cons, byteBits_nil, List.append_nil]
  rw [← List.append_assoc, ← hpath] at hcode
  rw [← descend_snoc h.node b]
  by_cases hle : (huffman.code sym).length ≤ 8 * (path.length + 1)
  · have hfits : Fits (huffman.code sym) (path ++ [b]) :=
      ⟨List.prefix_of_prefix_length_le hcode (List.prefix_append _ _) (by rw [length_byteBits, hlen]; exact hle),
        by rw [hlen]; omega⟩
    obtain ⟨pos, hleaf⟩ := hholds.leaf_of_fits (mem_huffmanSymbols sym) hfits
    simp only [hlen, Nat.add_sub_cancel] at pos hleaf
    exact Or.inl ⟨pos, hleaf⟩
  · have hpre := List.prefix_of_prefix_length_le (List.prefix_append _ _) hcode (by rw [length_byteBits, hlen]; omega)
    exact Or.inr ⟨by omega, hholds.node_of_prefix (mem_huffmanSymbols sym) hpre (by rw [hlen]; omega)⟩

/-- With a whole byte in the buffer some code is still to be read. -/
theorem Reading.next_full (hholds : Holds huffman root huffmanSymbols.reverse) (h : Reading root st bits path)
    (hbits : bits ++ more = huffman.encode text ++ List.replicate pad true) (hpad : pad < 8) (hcbits : 8 ≤ st.cbits) :
    st.n (UInt8.ofNat (st.cur >>> (st.cbits - 8))) ≠ none := by
  obtain ⟨text', -, hrest⟩ := h.remaining hbits hpad
  cases text' with
  | nil =>
    have hlen := congrArg List.length hrest
    simp only [List.length_append, length_byteBits, length_toBits, PrefixCode.encode_nil, List.length_nil,
      List.length_replicate] at hlen
    omega
  | cons sym text' =>
    have hsplit := toBits_add 8 (st.cbits - 8) st.cur
    rw [show 8 + (st.cbits - 8) = st.cbits by omega, ← toBits_ofNat le_rfl] at hsplit
    rw [PrefixCode.encode_cons, List.append_assoc, hsplit, List.append_assoc] at hrest
    rcases h.next hholds ⟨_, hrest.symm⟩ with ⟨pos, hleaf⟩ | ⟨-, children, hnode⟩
    · rw [hleaf]; exact Option.some_ne_none _
    · rw [hnode]; exact Option.some_ne_none _

/-- A byte of an encoded text is refused only where the text is too long. -/
theorem feedByte_error {e : HuffmanError} (hholds : Holds huffman root huffmanSymbols.reverse)
    (h : Reading root st bits path) (hbits : bits ++ more = huffman.encode text ++ List.replicate pad true)
    (hpad : pad < 8) (herror : feedByte root maxLen st = .error e) : ¬ WithinLimit maxLen text := by
  induction st using feedByte.induct root maxLen generalizing path with
  | case1 st hcbits hnode => exact absurd hnode (h.next_full hholds hbits hpad hcbits)
  | case2 st hcbits codeLen pos sym hnode hmax =>
    have hread := h.emit hholds (nextByte_full hcbits) hnode ((leaf_codeLen_le hholds h hnode).trans hcbits)
    obtain ⟨text', htext, -⟩ := hread.remaining hbits hpad
    rw [WithinLimit, htext, HuffmanState.emit, List.length_append, List.length_append, List.length_singleton, hmax.2]
    omega
  | case3 st hcbits codeLen pos sym hnode hmax ih =>
    rw [feedByte, if_pos hcbits, hnode] at herror
    simp only [if_neg hmax] at herror
    have hread := h.emit hholds (nextByte_full hcbits) hnode ((leaf_codeLen_le hholds h hnode).trans hcbits)
    exact ih hread herror
  | case4 st hcbits children hnode ih =>
    rw [feedByte, if_pos hcbits, hnode] at herror
    exact ih (h.step hcbits hnode) herror
  | case5 st hcbits =>
    rw [feedByte, if_neg hcbits] at herror
    cases herror

/-- Bytes of an encoded text are refused only where the text is too long. -/
theorem feedBytes_error {e : HuffmanError} (hholds : Holds huffman root huffmanSymbols.reverse)
    (h : Reading root st bits path) (hcbits : st.cbits < 8) (hlimit : WithinLimit maxLen st.buf) {v : Bytes}
    (hbits : bits ++ byteBits v = huffman.encode text ++ List.replicate pad true) (hpad : pad < 8)
    (herror : feedBytes root maxLen st v = .error e) : ¬ WithinLimit maxLen text := by
  induction v generalizing st bits path with
  | nil => cases herror
  | cons b v ih =>
    rw [byteBits_cons, ← List.append_assoc] at hbits
    rw [feedBytes] at herror
    cases hmid : feedByte root maxLen
        { st with cur := st.cur <<< 8 ||| b.toNat, cbits := st.cbits + 8, sbits := st.sbits + 8 } with
    | error e => exact feedByte_error hholds (h.feed b) hbits hpad hmid
    | ok mid =>
      rw [hmid] at herror
      obtain ⟨path', hread, hcbits', hlimit'⟩ := feedByte_ok hholds (h.feed b) hlimit hmid
      exact ih hread hcbits' hlimit' hbits herror

/-- A symbol whose code begins the byte of `pad` ones and zeros, or is begun by it. -/
def paddingSymbol (pad : ℕ) : UInt8 := [0, 61, 69, 85, 119, 38, 88, 33].getD pad 0

/-- A padding, filled up with zeros, is the start of the code of a symbol. -/
theorem paddingSymbol_code : ∀ pad < 8, 0 < pad →
    (huffman.code (paddingSymbol pad) ++ List.replicate 8 false).take 8 =
      List.replicate pad true ++ List.replicate (8 - pad) false := by
  decide +kernel

/-- The bits at the end are an encoded string's: a code that ends within them, or the padding. -/
theorem Reading.rest_cases (hholds : Holds huffman root huffmanSymbols.reverse) (h : Reading root st bits path)
    (hbits : bits = huffman.encode text ++ List.replicate pad true) (hpad : pad < 8) (hcbits : st.cbits < 8) :
    (∃ codeLen pos sym, st.n (UInt8.ofNat (st.cur <<< (8 - st.cbits))) = some (.leaf codeLen pos sym) ∧
        codeLen ≤ st.cbits) ∨
      text = st.buf ∧ path = [] ∧ toBits st.cbits st.cur = List.replicate pad true := by
  obtain ⟨text', htext, hrest⟩ := h.remaining ((List.append_nil bits).trans hbits) hpad
  rw [List.append_nil] at hrest
  have hlen := congrArg List.length hrest
  rw [List.length_append, length_byteBits, length_toBits, List.length_append, List.length_replicate] at hlen
  cases text' with
  | nil =>
    rw [PrefixCode.encode_nil, List.length_nil] at hlen
    obtain rfl : path = [] := List.eq_nil_of_length_eq_zero (by omega)
    exact Or.inr ⟨by rw [htext, List.append_nil], rfl, hrest⟩
  | cons sym text' =>
    rw [PrefixCode.encode_cons, List.append_assoc] at hrest
    have hcode : huffman.code sym <+: byteBits path ++ toBits st.cbits st.cur := ⟨_, hrest.symm⟩
    have hle := hcode.length_le
    rw [List.length_append, length_byteBits, length_toBits] at hle
    have hbyte := hcode.trans (List.prefix_append _ (List.replicate (8 - st.cbits) false))
    rw [List.append_assoc, ← toBits_rest hcbits, ← List.append_nil (toBits 8 _)] at hbyte
    rcases h.next hholds hbyte with ⟨pos, hleaf⟩ | ⟨hgt, -⟩
    · exact Or.inl ⟨_, pos, sym, hleaf, by omega⟩
    · omega

/-- The padding is looked up as well, and the trie has a node there. -/
theorem Reading.next_rest (hholds : Holds huffman root huffmanSymbols.reverse) (h : Reading root st bits path)
    (hbits : bits = huffman.encode text ++ List.replicate pad true) (hpad : pad < 8) (hcbits : st.cbits < 8)
    (hpos : 0 < st.cbits) : st.n (UInt8.ofNat (st.cur <<< (8 - st.cbits))) ≠ none := by
  rcases h.rest_cases hholds hbits hpad hcbits with ⟨codeLen, pos, sym, hleaf, -⟩ | ⟨-, rfl, hones⟩
  · rw [hleaf]
    exact Option.some_ne_none _
  · have hlen := congrArg List.length hones
    rw [length_toBits, List.length_replicate] at hlen
    have hbyte := toBits_rest hcbits
    rw [hones, hlen, ← paddingSymbol_code pad hpad (by omega)] at hbyte
    have hcode : huffman.code (paddingSymbol pad) <+: byteBits [] ++
        (toBits 8 (UInt8.ofNat (st.cur <<< (8 - st.cbits))).toNat ++ (huffman.code (paddingSymbol pad)).drop 8) := by
      rw [hlen, hbyte, byteBits_nil, List.nil_append, List.take_append]
      conv_lhs => rw [← List.take_append_drop 8 (huffman.code (paddingSymbol pad))]
      rw [List.append_assoc, List.prefix_append_right_inj]
      by_cases hle : (huffman.code (paddingSymbol pad)).length ≤ 8
      · rw [List.drop_eq_nil_of_le hle]
        exact List.nil_prefix
      · rw [show 8 - (huffman.code (paddingSymbol pad)).length = 0 by omega, List.take_zero, List.nil_append]
    rcases h.next hholds hcode with ⟨pos, hleaf⟩ | ⟨-, children, hnode⟩
    · rw [hleaf]
      exact Option.some_ne_none _
    · rw [hnode]
      exact Option.some_ne_none _

/-- The end of an encoded text is refused only where the text is too long. -/
theorem feedRest_error {e : HuffmanError} (hholds : Holds huffman root huffmanSymbols.reverse)
    (h : Reading root st bits path) (hbits : bits = huffman.encode text ++ List.replicate pad true) (hpad : pad < 8)
    (hcbits : st.cbits < 8) (herror : feedRest root maxLen st = .error e) : ¬ WithinLimit maxLen text := by
  induction st using feedRest.induct root maxLen generalizing path with
  | case1 st hpos hnode => exact absurd hnode (h.next_rest hholds hbits hpad hcbits hpos)
  | case2 st hpos children hnode =>
    rw [feedRest, if_pos hpos, hnode] at herror
    cases herror
  | case3 st hpos codeLen pos sym hnode hgt =>
    rw [feedRest, if_pos hpos, hnode] at herror
    simp only [if_pos hgt] at herror
    cases herror
  -- one more symbol would pass the limit, and the text has at least that one more
  | case4 st hpos codeLen pos sym hnode hgt hmax =>
    have hread := h.emit hholds (nextByte_rest hcbits) hnode (by omega)
    obtain ⟨text', htext, -⟩ := hread.remaining ((List.append_nil bits).trans hbits) hpad
    rw [WithinLimit, htext, HuffmanState.emit, List.length_append, List.length_append, List.length_singleton, hmax.2]
    omega
  | case5 st hpos codeLen pos sym hnode hgt hmax ih =>
    rw [feedRest, if_pos hpos, hnode] at herror
    simp only [if_neg hgt, if_neg hmax] at herror
    exact ih (h.emit hholds (nextByte_rest hcbits) hnode (by omega))
      (by simp only [HuffmanState.emit]; omega) herror
  | case6 st hzero =>
    rw [feedRest, if_neg hzero] at herror
    cases herror

/-- Where the loop for the rest stops, an encoded string has been read but for its padding. -/
theorem Reading.finished (hholds : Holds huffman root huffmanSymbols.reverse) (h : Reading root st bits path)
    (hbits : bits = huffman.encode text ++ List.replicate pad true) (hpad : pad < 8) (hcbits : st.cbits < 8)
    (hstopped : Stopped st) : text = st.buf ∧ path = [] ∧ toBits st.cbits st.cur = List.replicate pad true := by
  refine (h.rest_cases hholds hbits hpad hcbits).resolve_left ?_
  rintro ⟨codeLen, pos, sym, hleaf, hle⟩
  rcases hstopped with hzero | hstopped
  · omega
  · exact absurd (hstopped codeLen pos sym hleaf) (by omega)

/-- The padding is accepted if it is shorter than a byte and all ones. -/
theorem checkPadding_eq_ok_iff {s : Bytes} : checkPadding st = .ok s ↔
    st.sbits ≤ 7 ∧ toBits st.cbits st.cur = List.replicate st.cbits true ∧ st.buf = s := by
  rw [checkPadding, Nat.one_shiftLeft, toBits_eq_ones_iff]
  by_cases hsbits : st.sbits > 7
  · simp only [if_pos hsbits, reduceCtorEq, false_iff]
    omega
  · by_cases hmask : st.cur &&& (2 ^ st.cbits - 1) = 2 ^ st.cbits - 1
    · simp only [if_neg hsbits, hmask, ne_eq, not_true_eq_false, if_false, Except.ok.injEq, true_and]
      exact ⟨fun h => ⟨by omega, h⟩, fun h => h.2⟩
    · simp only [if_neg hsbits, ne_eq, hmask, not_false_eq_true, if_true, reduceCtorEq, false_and, and_false]

theorem reading_init (root : Children UInt8) :
    Reading root { n := root, cur := 0, cbits := 0, sbits := 0, buf := [] } [] [] :=
  ⟨rfl, rfl, rfl⟩

/-- A text has one padding. -/
theorem padding_unique {v : Bytes} {k l : ℕ} {s : Bytes} {w : Bytes} (hk : k < 8) (hl : l < 8)
    (hv : byteBits v = huffman.encode s ++ List.replicate k true)
    (hw : byteBits w = huffman.encode s ++ List.replicate l true) : v = w := by
  have hvLen := congrArg List.length hv
  have hwLen := congrArg List.length hw
  rw [length_byteBits, List.length_append, List.length_replicate] at hvLen hwLen
  obtain rfl : k = l := by omega
  exact byteBits_injective (hv.trans hw.symm)

/-- What the decoder accepts is the encoding of what it returns. -/
theorem eq_appendHuffmanString {v s : Bytes} (hok : huffmanDecode maxLen v = .ok s) :
    v = appendHuffmanString [] s ∧ WithinLimit maxLen s := by
  obtain ⟨root, hroot, hholds⟩ := holds_buildRootHuffmanNode
  obtain ⟨pad, hpad, hencoded⟩ := byteBits_appendHuffmanString [] s
  rw [byteBits_nil, List.nil_append] at hencoded
  rw [huffmanDecode, hroot] at hok
  obtain ⟨mid, hmid, hok⟩ := Fallible.bind_eq_ok_iff.mp hok
  obtain ⟨st, hst, hok⟩ := Fallible.bind_eq_ok_iff.mp hok
  obtain ⟨path, hread, hcbits, hlimit⟩ := feedBytes_ok hholds (reading_init root) (Nat.succ_pos 7)
    (Or.inr (Nat.zero_le _)) hmid
  obtain ⟨path, hread, hcbits, hlimit, -⟩ := feedRest_ok hholds hread hcbits hlimit hst
  obtain ⟨hle, hones, rfl⟩ := checkPadding_eq_ok_iff.mp hok
  have hsbits := hread.sbits
  obtain rfl : path = [] := List.eq_nil_of_length_eq_zero (by omega)
  have hv := hread.read
  rw [List.nil_append, byteBits_nil, List.nil_append, hones] at hv
  exact ⟨padding_unique hcbits hpad hv hencoded, hlimit⟩

/-- What the encoder writes is decoded, if it is not too long. -/
theorem huffmanDecode_appendHuffmanString {s : Bytes} (hwithin : WithinLimit maxLen s) :
    huffmanDecode maxLen (appendHuffmanString [] s) = .ok s := by
  obtain ⟨root, hroot, hholds⟩ := holds_buildRootHuffmanNode
  obtain ⟨pad, hpad, hencoded⟩ := byteBits_appendHuffmanString [] s
  rw [byteBits_nil, List.nil_append] at hencoded
  have hlimit : WithinLimit maxLen [] := Or.inr (Nat.zero_le _)
  rw [huffmanDecode, hroot]
  cases hmid : feedBytes root maxLen { n := root, cur := 0, cbits := 0, sbits := 0, buf := [] }
      (appendHuffmanString [] s) with
  | error e =>
    exact absurd hwithin (feedBytes_error hholds (reading_init root) (Nat.succ_pos 7) hlimit
      (by rw [List.nil_append]; exact hencoded) hpad hmid)
  | ok mid =>
    obtain ⟨path, hread, hcbits, hlimit⟩ := feedBytes_ok hholds (reading_init root) (Nat.succ_pos 7) hlimit hmid
    rw [List.nil_append] at hread
    cases hst : feedRest root maxLen mid with
    | error e => exact absurd hwithin (feedRest_error hholds hread hencoded hpad hcbits hst)
    | ok st =>
      -- what is left when the reading stops is the padding, all ones and less than a byte
      obtain ⟨path, hread, hcbits, -, hstopped⟩ := feedRest_ok hholds hread hcbits hlimit hst
      obtain ⟨rfl, rfl, hones⟩ := hread.finished hholds hencoded hpad hcbits hstopped
      have hlen := congrArg List.length hones
      rw [length_toBits, List.length_replicate] at hlen
      have hsbits := hread.sbits
      rw [List.length_nil] at hsbits
      exact Fallible.bind_eq_ok_iff.mpr ⟨mid, hmid, Fallible.bind_eq_ok_iff.mpr
        ⟨st, hst, checkPadding_eq_ok_iff.mpr ⟨by omega, by rw [hones, hlen], rfl⟩⟩⟩

/-- The decoder accepts what the encoder writes and nothing else: it returns `s` for the one string that is the
encoding of `s`, unless `s` is longer than the limit. -/
theorem huffmanDecode_eq_ok_iff (maxLen : ℕ) (v s : Bytes) :
    huffmanDecode maxLen v = .ok s ↔ v = appendHuffmanString [] s ∧ (maxLen = 0 ∨ s.length ≤ maxLen) := by
  constructor
  · exact eq_appendHuffmanString
  · rintro ⟨rfl, hwithin⟩
    exact huffmanDecode_appendHuffmanString hwithin

end Decoder

end TlsClient.Http2
