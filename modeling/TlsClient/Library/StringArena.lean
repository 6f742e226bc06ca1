import Mathlib.Data.List.Forall2
import Mathlib.Data.List.TakeWhile
import Mathlib.Data.UInt

/-!
# Strings in one block of memory

A block that is filled with strings, each with a zero after it, one behind the other. Writing is checked against the
size of the block. `Laid` says that strings are in the block so from an offset on and end where it ends; what is laid
is read back from its addresses (`Laid.cString`).
-/

namespace StringArena

/-- A block of memory and its address. -/
structure Block where
  address : ℕ
  bytes : List UInt8
deriving DecidableEq

/-- Bytes written at an offset, if the block has room for them there. -/
def Block.write (b : Block) (offset : ℕ) (s : List UInt8) : Option Block :=
  if offset + s.length ≤ b.bytes.length then
    some { b with bytes := b.bytes.take offset ++ (s ++ b.bytes.drop (offset + s.length)) }
  else none

/-- The string at an address, if a zero ends it within the block. -/
def Block.cString (b : Block) (address : ℕ) : Option (List UInt8) :=
  let tail := b.bytes.drop (address - b.address)
  if b.address ≤ address ∧ 0 ∈ tail then some (tail.takeWhile (· ≠ 0)) else none

/-- Strings with their zeros. -/
def terminated (strings : List (List UInt8)) : List UInt8 := strings.flatMap (· ++ [0])

/-- The addresses of strings, of which the first is at `address`. -/
def addresses (address : ℕ) : List (List UInt8) → List ℕ
  | [] => []
  | s :: strings => address :: addresses (address + (s.length + 1)) strings

/-- The strings are at these addresses, from the offset to the end of the block one behind the other. -/
def Laid (b : Block) : ℕ → List ℕ → List (List UInt8) → Prop
  | offset, [], [] => offset = b.bytes.length
  | offset, a :: as, s :: strings =>
    a = b.address + offset ∧ (b.bytes.drop offset).take (s.length + 1) = s ++ [0] ∧
      Laid b (offset + (s.length + 1)) as strings
  | _, _, _ => False

variable {b : Block} {front rest s : List UInt8} {strings : List (List UInt8)} {as : List ℕ} {offset : ℕ}

theorem terminated_append (strings other : List (List UInt8)) :
    terminated (strings ++ other) = terminated strings ++ terminated other := List.flatMap_append

theorem terminated_cons (s : List UInt8) (strings : List (List UInt8)) :
    terminated (s :: strings) = s ++ [0] ++ terminated strings := List.flatMap_cons

/-- Writing behind what has been written. -/
theorem write_append (hbytes : b.bytes = front ++ rest) (hroom : s.length ≤ rest.length) :
    b.write front.length s = some { b with bytes := front ++ s ++ rest.drop s.length } := by
  have hlength : front.length + s.length ≤ b.bytes.length := by
    rw [hbytes, List.length_append]
    omega
  rw [Block.write, if_pos hlength, hbytes, List.take_left, List.drop_append, List.drop_of_length_le (Nat.le_add_right _ _),
    Nat.add_sub_cancel_left, List.nil_append, List.append_assoc]

/-- Strings that fill a block are laid in it. -/
theorem laid_addresses (hbytes : b.bytes = front ++ terminated strings) :
    Laid b front.length (addresses (b.address + front.length) strings) strings := by
  induction strings generalizing front with
  | nil =>
    rw [addresses, Laid, hbytes, List.length_append]
    rfl
  | cons s strings ih =>
    rw [terminated_cons, ← List.append_assoc] at hbytes
    have hlength : (front ++ (s ++ [0])).length = front.length + (s.length + 1) := by
      rw [List.length_append, List.length_append, List.length_singleton]
    have hrest := ih hbytes
    rw [hlength, ← Nat.add_assoc b.address] at hrest
    refine ⟨rfl, ?_, hrest⟩
    have hone : s.length + 1 = (s ++ [0]).length := by rw [List.length_append, List.length_singleton]
    rw [hbytes, List.append_assoc, List.drop_left, hone, List.take_left]

theorem Block.le_of_cString {a : ℕ} (h : b.cString a = some s) : b.address ≤ a := by
  rw [Block.cString] at h
  exact (Option.ite_none_right_eq_some.mp h).1.1

/-- A string is read up to its NUL. -/
theorem cString_of_take (hs : 0 ∉ s) (h : (b.bytes.drop offset).take (s.length + 1) = s ++ [0]) :
    b.cString (b.address + offset) = some s := by
  have hsplit : b.bytes.drop offset = s ++ 0 :: (b.bytes.drop offset).drop (s.length + 1) := by
    conv_lhs => rw [← List.take_append_drop (s.length + 1) (b.bytes.drop offset), h]
    rw [List.append_assoc, List.singleton_append]
  have hzero : 0 ∈ b.bytes.drop offset := hsplit ▸ List.mem_append_right _ List.mem_cons_self
  have hall : ∀ c ∈ s, decide (c ≠ 0) = true := fun c hc => decide_eq_true fun heq => hs (heq ▸ hc)
  rw [Block.cString, Nat.add_sub_cancel_left]
  rw [if_pos ⟨Nat.le_add_right _ _, hzero⟩, hsplit, List.takeWhile_append_of_pos hall,
    List.takeWhile_cons_of_neg (by decide), List.append_nil]

/-- What is laid is read back. -/
theorem Laid.cString (h : Laid b offset as strings) (hzero : ∀ s ∈ strings, 0 ∉ s) :
    List.Forall₂ (fun a s => b.cString a = some s) as strings := by
  induction strings generalizing offset as with
  | nil =>
    cases as with
    | nil => exact .nil
    | cons a as => exact absurd h id
  | cons s strings ih =>
    cases as with
    | nil => exact absurd h id
    | cons a as =>
      obtain ⟨rfl, htake, hrest⟩ := h
      exact .cons (cString_of_take (hzero s List.mem_cons_self) htake)
        (ih hrest fun t ht => hzero t (List.mem_cons_of_mem _ ht))

end StringArena
