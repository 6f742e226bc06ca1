import Mathlib.Data.List.Induction
import Mathlib.Data.Nat.Init
import Mathlib.Logic.Function.Basic

/-!
# A queue that is searched by key

Entries are appended to a queue and dropped from its front. Each has an id, one more than that of the entry
before it, which no later entry gets again. A map from keys to ids finds the newest entry with a key without
going through the queue: `Indexed` says that it finds what `newest`, which does go through it, finds.
Appending sets one key and dropping clears the keys whose newest entry goes.
-/

namespace QueueIndex

variable {α κ : Type*} [DecidableEq κ] (key : α → κ)

/-- The place of the newest entry with the key, counted from the end of the queue and from one. Without such an
entry it is zero. -/
def newest (k : κ) : List α → ℕ
  | [] => 0
  | a :: ents => if newest k ents ≠ 0 then newest k ents else if key a = k then ents.length + 1 else 0

/-- The map has for each key the id of the newest entry, or zero. The first entry's id is `dropped + 1`. -/
def Indexed (ids : κ → ℕ) (dropped : ℕ) (ents : List α) : Prop :=
  ∀ k, ids k = if newest key k ents = 0 then 0 else dropped + ents.length + 1 - newest key k ents

/-- The map after the entries at the front are dropped, the first of them with the id `id`. -/
def forget (ids : κ → ℕ) (id : ℕ) : List α → κ → ℕ
  | [] => ids
  | a :: ents => forget (if ids (key a) = id then Function.update ids (key a) 0 else ids) (id + 1) ents

variable {key} {ids : κ → ℕ} {dropped : ℕ} {ents : List α} {k : κ}

/-- An older element does not matter behind a newer one. -/
theorem newest_cons_of_tail (a : α) (h : newest key k ents ≠ 0) : newest key k (a :: ents) = newest key k ents := by
  rw [newest, if_pos h]

/-- The oldest element, if no newer one has the key. -/
theorem newest_cons_of_key {a : α} (h : newest key k ents = 0) (hk : key a = k) :
    newest key k (a :: ents) = ents.length + 1 := by
  rw [newest, if_neg (not_not.mpr h), if_pos hk]

/-- An element of another key does not matter. -/
theorem newest_cons_of_ne {a : α} (hk : key a ≠ k) : newest key k (a :: ents) = newest key k ents := by
  rw [newest, if_neg hk]
  split_ifs with h
  · rfl
  · exact (not_not.mp h).symm

/-- The place is in the queue. -/
theorem newest_le (key : α → κ) (k : κ) (ents : List α) : newest key k ents ≤ ents.length := by
  induction ents with
  | nil => exact Nat.le_refl 0
  | cons a ents ih =>
    rw [newest, List.length_cons]
    split_ifs <;> omega

/-- The place after one more element. -/
theorem newest_concat (k : κ) (ents : List α) (a : α) : newest key k (ents ++ [a]) =
    if key a = k then 1 else if newest key k ents = 0 then 0 else newest key k ents + 1 := by
  induction ents with
  | nil => simp [newest]
  | cons b ents ih =>
    rw [List.cons_append, newest, ih, newest, List.length_append, List.length_singleton]
    split_ifs <;> omega

/-- `newest` goes through the queue from its end. -/
theorem newest_eq_findIdx (k : κ) (ents : List α) :
    newest key k ents = ((ents.reverse.findIdx? fun a => key a = k).map (· + 1)).getD 0 := by
  induction ents using List.reverseRecOn with
  | nil => rfl
  | append_singleton ents a ih =>
    rw [newest_concat, ih, List.reverse_append, List.reverse_singleton, List.singleton_append, List.findIdx?_cons]
    by_cases hk : key a = k
    · rw [if_pos hk, decide_eq_true hk]
      rfl
    · rw [if_neg hk, decide_eq_false hk]
      cases ents.reverse.findIdx? fun a => key a = k <;> rfl

/-- The entry that is found has the key. -/
theorem getElem_newest (h : newest key k ents ≠ 0) :
    ∃ a, ents[ents.length - newest key k ents]? = some a ∧ key a = k := by
  induction ents with
  | nil => exact absurd rfl h
  | cons b ents ih =>
    by_cases htail : newest key k ents = 0
    · by_cases hkey : key b = k
      · refine ⟨b, ?_, hkey⟩
        rw [newest_cons_of_key htail hkey, List.length_cons, Nat.sub_self, List.getElem?_cons_zero]
      · exact absurd ((newest_cons_of_ne hkey).trans htail) h
    · obtain ⟨a, ha, hk⟩ := ih htail
      have hle := newest_le key k ents
      refine ⟨a, ?_, hk⟩
      rw [newest_cons_of_tail b htail, List.length_cons,
        show ents.length + 1 - newest key k ents = (ents.length - newest key k ents) + 1 by omega,
        List.getElem?_cons_succ, ha]

/-- The map after one more element. -/
theorem Indexed.push (h : Indexed key ids dropped ents) (a : α) :
    Indexed key (Function.update ids (key a) (ents.length + dropped + 1)) dropped (ents ++ [a]) := by
  intro k
  rw [newest_concat, List.length_append, List.length_singleton]
  have hle := newest_le key k ents
  by_cases hk : key a = k
  · subst hk
    rw [Function.update_self, if_pos rfl, if_neg Nat.one_ne_zero]
    omega
  · rw [Function.update_of_ne (Ne.symm hk), h k, if_neg hk]
    by_cases hzero : newest key k ents = 0
    · rw [if_pos hzero, if_pos hzero, if_pos rfl]
    · rw [if_neg hzero, if_neg hzero, if_neg (Nat.succ_ne_zero _)]
      omega

/-- The map after the oldest element was dropped. -/
theorem Indexed.drop_one {a : α} (h : Indexed key ids dropped (a :: ents)) :
    Indexed key (if ids (key a) = dropped + 1 then Function.update ids (key a) 0 else ids) (dropped + 1) ents := by
  intro k
  have hk := h k
  have ha := h (key a)
  rw [List.length_cons] at hk ha
  by_cases heq : key a = k
  · subst heq
    have hle := newest_le key (key a) ents
    by_cases hzero : newest key (key a) ents = 0
    · -- the dropped entry was the newest one
      rw [newest_cons_of_key hzero rfl, if_neg (Nat.succ_ne_zero _)] at ha
      rw [if_pos (by omega), Function.update_self, if_pos hzero]
    · rw [newest_cons_of_tail a hzero, if_neg hzero] at ha
      rw [if_neg (by omega), ha, if_neg hzero]
      omega
  · have hids : (if ids (key a) = dropped + 1 then Function.update ids (key a) 0 else ids) k = ids k := by
      split
      · exact Function.update_of_ne (Ne.symm heq) _ _
      · rfl
    rw [hids, hk, newest_cons_of_ne heq]
    split_ifs <;> omega

/-- The map after several were dropped. -/
theorem Indexed.drop (h : Indexed key ids dropped ents) (n : ℕ) :
    Indexed key (forget key ids (dropped + 1) (ents.take n)) (dropped + (ents.take n).length) (ents.drop n) := by
  induction n generalizing ids dropped ents with
  | zero => simpa [forget] using h
  | succ n ih =>
    cases ents with
    | nil => simpa [forget] using h
    | cons a ents =>
      rw [List.take_succ_cons, forget, List.drop_succ_cons, List.length_cons]
      have htail := ih h.drop_one
      rwa [show dropped + ((ents.take n).length + 1) = dropped + 1 + (ents.take n).length by omega]

theorem indexed_nil : Indexed key (fun _ => 0) dropped ([] : List α) := fun _ => rfl

/-- The id in the map tells the place. -/
theorem Indexed.place (h : Indexed key ids dropped ents) (hne : ids k ≠ 0) :
    newest key k ents ≠ 0 ∧ dropped < ids k ∧ ids k - dropped - 1 = ents.length - newest key k ents := by
  have hk := h k
  have hle := newest_le key k ents
  split_ifs at hk with hzero
  · exact absurd hk hne
  · exact ⟨hzero, by omega, by omega⟩

/-- A key without an id has no element. -/
theorem Indexed.eq_zero_iff (h : Indexed key ids dropped ents) : ids k = 0 ↔ newest key k ents = 0 := by
  have hle := newest_le key k ents
  rw [h k]
  split_ifs <;> omega

end QueueIndex
