import Mathlib.Logic.Function.Basic
import Mathlib.Data.BitVec

/-!
# Handle tables

A table that hands out numbered handles to opaque objects: a counter of `w` bits, incremented before
each use, and a map from handles to objects. `Fresh` is the invariant that makes the numbering sound:
no stored handle is ahead of the counter, so while the counter has not wrapped the next handle is not
in use and storing under it loses nothing.
-/

/-- A counter and the objects stored under the handles it produced. -/
structure HandleTable (w : ℕ) (α : Type*) where
  seq : BitVec w
  load : BitVec w → Option α

namespace HandleTable

variable {w : ℕ} {α : Type*} {t : HandleTable w α} {a : α} {h k : BitVec w}

/-- The table before the first handle. -/
def empty : HandleTable w α := ⟨0, fun _ => none⟩

/-- The handle the next object gets. -/
def next (t : HandleTable w α) : BitVec w := t.seq + 1

/-- Advance the counter and store `a` under its new value. -/
def issue (t : HandleTable w α) (a : α) : HandleTable w α :=
  ⟨t.next, Function.update t.load t.next (some a)⟩

/-- Remove what is stored under `h`, if anything is. -/
def delete (t : HandleTable w α) (h : BitVec w) : HandleTable w α :=
  ⟨t.seq, Function.update t.load h none⟩

@[simp] theorem load_empty : (empty : HandleTable w α).load h = none := rfl

@[simp] theorem load_issue_self : (t.issue a).load t.next = some a := by simp [issue]

theorem load_issue_ne (hne : h ≠ t.next) : (t.issue a).load h = t.load h := by
  simp [issue, Function.update_of_ne hne]

@[simp] theorem load_delete_self : (t.delete h).load h = none := by simp [delete]

theorem load_delete_ne (hne : k ≠ h) : (t.delete h).load k = t.load k := by
  simp [delete, Function.update_of_ne hne]

/-- What is there after a deletion was there before. -/
theorem load_of_load_delete (hload : (t.delete h).load k = some a) : t.load k = some a := by
  by_cases hkh : k = h
  · subst hkh
    simp at hload
  · rwa [load_delete_ne hkh] at hload

/-- Deleting an absent handle changes nothing. -/
theorem delete_of_none (habsent : t.load h = none) : t.delete h = t := by
  rw [delete, ← habsent, Function.update_eq_self]

/-- No stored handle is ahead of the counter. -/
def Fresh (t : HandleTable w α) : Prop :=
  ∀ h a, t.load h = some a → h.toNat ≤ t.seq.toNat

theorem fresh_empty : (empty : HandleTable w α).Fresh := by
  intro h a hload
  simp at hload

/-- The next handle, before the counter wraps around. -/
theorem toNat_next (hroom : t.seq.toNat + 1 < 2 ^ w) : t.next.toNat = t.seq.toNat + 1 := by
  have hone : 1 < 2 ^ w := by omega
  simp [next, BitVec.toNat_add, Nat.mod_eq_of_lt hone, Nat.mod_eq_of_lt hroom]

/-- While the counter has room the next handle is not in use. -/
theorem Fresh.load_next (hfresh : t.Fresh) (hroom : t.seq.toNat + 1 < 2 ^ w) :
    t.load t.next = none := by
  by_contra hsome
  obtain ⟨a, ha⟩ := Option.ne_none_iff_exists'.mp hsome
  have hle := hfresh t.next a ha
  rw [toNat_next hroom] at hle
  omega

/-- Before the counter wraps around the next handle is fresh again. -/
theorem Fresh.issue (hfresh : t.Fresh) (hroom : t.seq.toNat + 1 < 2 ^ w) :
    (t.issue a).Fresh := by
  intro h b hload
  change h.toNat ≤ t.next.toNat
  rw [toNat_next hroom]
  by_cases hnext : h = t.next
  · rw [hnext, toNat_next hroom]
  · rw [load_issue_ne hnext] at hload
    have hle := hfresh h b hload
    omega

theorem Fresh.delete (hfresh : t.Fresh) : (t.delete h).Fresh := by
  intro k b hload
  exact hfresh k b (load_of_load_delete hload)

end HandleTable
