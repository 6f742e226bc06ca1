import TlsClient.Library.Bits

/-!
# Prefix codes and tries of byte steps

A prefix code gives every symbol a bit string, none of them a prefix of another one. What is behind a common
encoded text can then be cut off: this is the unique reading of `encode`.

A decoder that reads whole bytes keeps the code in a trie with 256 children a node. A code that does not end at
a byte boundary has a leaf for every byte that its last bits begin. `Holds` says which leaves a trie has.
-/

open Bits

structure PrefixCode (α : Type) where
  code : α → List Bool
  ne_nil : ∀ a, code a ≠ []
  prefix_free : ∀ a b, code a <+: code b → a = b

namespace PrefixCode

variable {α : Type} (C : PrefixCode α)

def encode (text : List α) : List Bool := text.flatMap C.code

@[simp] theorem encode_nil : C.encode [] = [] := rfl

@[simp] theorem encode_cons (a : α) (text : List α) : C.encode (a :: text) = C.code a ++ C.encode text :=
  List.flatMap_cons

@[simp] theorem encode_append (s t : List α) : C.encode (s ++ t) = C.encode s ++ C.encode t := List.flatMap_append

/-- Two codes at the front of one bit string are of one symbol. -/
theorem eq_of_prefix {a b : α} {bits : List Bool} (ha : C.code a <+: bits) (hb : C.code b <+: bits) : a = b := by
  rcases List.prefix_or_prefix_of_prefix ha hb with h | h
  · exact C.prefix_free a b h
  · exact (C.prefix_free b a h).symm

/-- What has been read of an encoded text is its beginning, and the rest is still to be read. The tail must be
no place where a code begins. -/
theorem encode_split {tail : List Bool} (htail : ∀ a, ¬ C.code a <+: tail) {buf text : List α} {rest : List Bool}
    (h : C.encode buf ++ rest = C.encode text ++ tail) :
    ∃ text', text = buf ++ text' ∧ rest = C.encode text' ++ tail := by
  induction buf generalizing text with
  | nil => exact ⟨text, rfl, h⟩
  | cons a buf ih =>
    rw [encode_cons, List.append_assoc] at h
    cases text with
    | nil => exact absurd ⟨_, h⟩ (htail a)
    | cons b text =>
      rw [encode_cons, List.append_assoc] at h
      obtain rfl : a = b := C.eq_of_prefix ⟨_, h⟩ ⟨_, rfl⟩
      obtain ⟨text', htext, hrest⟩ := ih (List.append_cancel_left h)
      exact ⟨text', by rw [htext, List.cons_append], hrest⟩

end PrefixCode

namespace ByteTrie

/-- A node of a trie. Only a leaf has a symbol, with the number of its last byte's bits that belong to the code. -/
inductive Node (α : Type)
  | internal (children : UInt8 → Option (Node α))
  | leaf (codeLen : ℕ) (pos : 0 < codeLen) (sym : α)

abbrev Children (α : Type) := UInt8 → Option (Node α)

variable {α : Type}

def noChildren : Children α := fun _ => none

/-- The node at the end of a path. -/
def Node.descend : Node α → List UInt8 → Option (Node α)
  | n, [] => some n
  | .leaf .., _ :: _ => none
  | .internal children, b :: path =>
    match children b with
    | none => none
    | some n => n.descend path

/-- The leaf at the end of a path. -/
def leafAt (t : Children α) (path : List UInt8) : Option (ℕ × α) :=
  match (Node.internal t).descend path with
  | some (.leaf codeLen _ sym) => some (codeLen, sym)
  | _ => none

section Paths

variable {t : Children α} {b : UInt8} {path rest : List UInt8} {n : Node α}

/-- Two paths, one after the other. -/
theorem descend_append (n : Node α) (path rest : List UInt8) :
    n.descend (path ++ rest) = (n.descend path).bind (·.descend rest) := by
  induction path generalizing n with
  | nil => simp [Node.descend]
  | cons b path ih =>
    cases n with
    | leaf => rfl
    | internal children =>
      rw [List.cons_append, Node.descend, Node.descend]
      cases children b with
      | none => rfl
      | some n => exact ih n

/-- One more step from an inner node. -/
theorem descend_snoc {children : Children α} (h : n.descend path = some (.internal children)) (b : UInt8) :
    n.descend (path ++ [b]) = children b := by
  rw [descend_append, h, Option.bind_some, Node.descend]
  cases children b <;> rfl

/-- Above a node there are internal nodes only. -/
theorem internal_of_descend {m : Node α} (h : n.descend (path ++ rest) = some m) (hrest : rest ≠ []) :
    ∃ children, n.descend path = some (.internal children) := by
  rw [descend_append] at h
  obtain ⟨mid, hmid, hrestEq⟩ := Option.bind_eq_some_iff.mp h
  cases mid with
  | internal children => exact ⟨children, hmid⟩
  | leaf codeLen pos sym =>
    cases rest with
    | nil => exact absurd rfl hrest
    | cons b rest => cases hrestEq

@[simp] theorem leafAt_nil (t : Children α) : leafAt t [] = none := rfl

theorem leafAt_cons_none (h : t b = none) (path : List UInt8) : leafAt t (b :: path) = none := by
  rw [leafAt, Node.descend, h]

/-- Below an inner node. -/
theorem leafAt_cons_internal {children : Children α} (h : t b = some (.internal children)) (path : List UInt8) :
    leafAt t (b :: path) = leafAt children path := by
  rw [leafAt, Node.descend, h]
  rfl

/-- A leaf has nothing below it. -/
theorem leafAt_cons_leaf {codeLen : ℕ} {pos : 0 < codeLen} {sym : α} (h : t b = some (.leaf codeLen pos sym))
    (path : List UInt8) : leafAt t (b :: path) = if path = [] then some (codeLen, sym) else none := by
  rw [leafAt, Node.descend, h]
  cases path <;> rfl

/-- The leaves below a byte are those of its child. -/
theorem leafAt_cons_congr {u : Children α} (h : t b = u b) (path : List UInt8) :
    leafAt t (b :: path) = leafAt u (b :: path) := by
  rw [leafAt, leafAt, Node.descend, Node.descend, h]

/-- The leaf at the end of a path. -/
theorem leafAt_eq_some_iff {codeLen : ℕ} {sym : α} :
    leafAt t path = some (codeLen, sym) ↔
      ∃ pos, (Node.internal t).descend path = some (.leaf codeLen pos sym) := by
  rw [leafAt]
  constructor
  · intro h
    split at h
    · rename_i codeLen' pos sym' hdescend
      obtain ⟨rfl, rfl⟩ := Prod.mk.inj (Option.some.inj h)
      exact ⟨pos, hdescend⟩
    · cases h
  · rintro ⟨pos, h⟩
    rw [h]

@[simp] theorem leafAt_noChildren (path : List UInt8) : leafAt (noChildren : Children α) path = none := by
  cases path with
  | nil => rfl
  | cons b path => exact leafAt_cons_none rfl path

end Paths

/-- The path is as long as the bits need and begins with them. -/
def Fits (bits : List Bool) (path : List UInt8) : Prop :=
  bits <+: byteBits path ∧ path.length = (bits.length + 7) / 8

/-- The leaves of the trie are those of the symbols in `syms`, each at every path that its code fits. -/
def Holds (C : PrefixCode α) (t : Children α) (syms : List α) : Prop :=
  ∀ path codeLen a, leafAt t path = some (codeLen, a) ↔
    a ∈ syms ∧ Fits (C.code a) path ∧ codeLen = (C.code a).length - 8 * (path.length - 1)

section Holding

variable {C : PrefixCode α} {t : Children α} {syms : List α} {a : α} {path : List UInt8}

theorem Fits.length_le {bits : List Bool} (h : Fits bits path) : bits.length ≤ 8 * path.length := by
  rw [h.2]
  omega

theorem holds_noChildren (C : PrefixCode α) : Holds C noChildren [] := by
  intro path codeLen a
  simp

/-- What adding a symbol must do to the leaves. Nothing above the new code may be a leaf: there the walk down
would end. -/
def Adds (bits : List Bool) (a : α) (t t' : Children α) : Prop :=
  ∀ path, leafAt t' path =
    if bits <+: byteBits path then
      if path.length = (bits.length + 7) / 8 then some (bits.length - 8 * (path.length - 1), a) else none
    else leafAt t path

/-- Where the code of another symbol is, there is no leaf above it. -/
theorem Holds.no_leaf_above (h : Holds C t syms) (ha : a ∉ syms) (habove : byteBits path <+: C.code a) :
    leafAt t path = none := by
  rw [Option.eq_none_iff_forall_ne_some]
  rintro ⟨codeLen, b⟩ hleaf
  obtain ⟨hb, hfits, -⟩ := (h path codeLen b).mp hleaf
  obtain rfl := C.prefix_free b a (hfits.1.trans habove)
  exact ha hb

/-- A tree with one more symbol holds it. -/
theorem Holds.add {t' : Children α} (h : Holds C t syms) (ha : a ∉ syms) (hadds : Adds (C.code a) a t t') :
    Holds C t' (a :: syms) := by
  intro path codeLen b
  rw [hadds path]
  by_cases hpre : C.code a <+: byteBits path
  · rw [if_pos hpre]
    constructor
    · intro hleaf
      split at hleaf
      · rename_i hlen
        obtain ⟨rfl, rfl⟩ := Prod.mk.inj (Option.some.inj hleaf)
        exact ⟨List.mem_cons_self, ⟨hpre, hlen⟩, rfl⟩
      · cases hleaf
    · rintro ⟨-, hfits, hcodeLen⟩
      obtain rfl := C.eq_of_prefix hpre hfits.1
      rw [if_pos hfits.2, hcodeLen]
  · rw [if_neg hpre, h path codeLen b]
    constructor
    · exact fun ⟨hb, hfits⟩ => ⟨List.mem_cons_of_mem a hb, hfits⟩
    · rintro ⟨hb, hfits, hcodeLen⟩
      refine ⟨(List.mem_cons.mp hb).resolve_left ?_, hfits, hcodeLen⟩
      rintro rfl
      exact hpre hfits.1

/-- Below the code of a symbol there is a way on. -/
theorem Holds.node_of_prefix (h : Holds C t syms) (ha : a ∈ syms) (hpath : byteBits path <+: C.code a)
    (hlt : 8 * path.length < (C.code a).length) :
    ∃ children, (Node.internal t).descend path = some (.internal children) := by
  obtain ⟨rest, hrest⟩ := hpath
  have hlen := congrArg List.length hrest
  rw [List.length_append, length_byteBits] at hlen
  -- the code, filled up to whole bytes
  let pad := 8 * ((rest.length + 7) / 8) - rest.length
  obtain ⟨more, hmore⟩ := exists_bytes ((rest.length + 7) / 8) (rest ++ List.replicate pad false)
    (by rw [List.length_append, List.length_replicate]; omega)
  have hmoreLen := congrArg List.length hmore
  rw [length_byteBits, List.length_append, List.length_replicate] at hmoreLen
  have hfits : Fits (C.code a) (path ++ more) := by
    constructor
    · rw [byteBits_append, hmore, ← List.append_assoc, hrest]
      exact List.prefix_append _ _
    · rw [List.length_append]
      omega
  obtain ⟨pos, hleaf⟩ := leafAt_eq_some_iff.mp ((h _ _ a).mpr ⟨ha, hfits, rfl⟩)
  exact internal_of_descend hleaf (List.ne_nil_of_length_pos (by omega))

/-- A path that fits the code of a symbol leads to its leaf. -/
theorem Holds.leaf_of_fits (h : Holds C t syms) (ha : a ∈ syms) (hfits : Fits (C.code a) path) :
    ∃ pos, (Node.internal t).descend path = some (.leaf ((C.code a).length - 8 * (path.length - 1)) pos a) :=
  leafAt_eq_some_iff.mp ((h _ _ a).mpr ⟨ha, hfits, rfl⟩)

/-- A path to a leaf fits the code of its symbol. -/
theorem Holds.fits_of_leaf {codeLen : ℕ} {pos : 0 < codeLen} (h : Holds C t syms)
    (hleaf : (Node.internal t).descend path = some (.leaf codeLen pos a)) :
    Fits (C.code a) path ∧ codeLen = (C.code a).length - 8 * (path.length - 1) :=
  ((h path codeLen a).mp (leafAt_eq_some_iff.mpr ⟨pos, hleaf⟩)).2

end Holding

end ByteTrie
