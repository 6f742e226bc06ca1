import Mathlib.Data.List.Basic
import Mathlib.Data.List.Forall2
import Mathlib.Order.Basic

/-!
# Shuffles by random swaps

The shuffle that walks down from the last index and swaps it with an index drawn from those up to it. What a
swap does is a parameter, and so is what the swaps act on. The draws are a function, so a result about all of
them is one about every outcome of the random source.

Whatever each swap keeps the shuffle keeps (`shuffle_induction`), and where two kinds of swaps keep a relation,
so do their shuffles (`shuffle_rel`). Every single swap is an outcome of the shuffle (`shuffle_onlyAt`), and so is
the list as it was (`shuffle_none`).

A permutation that leaves the elements of a kind where they are brings no other element of the kind to any place
(`getElem?_of_fixed`), and it keeps the first elements if none of them can change places with another
(`take_eq_of_fixed`).
-/

namespace Shuffle

variable {α σ τ : Type*}

/-- For every index, one that is not above it. -/
abbrev Draws := (i : ℕ) → Fin (i + 1)

/-- `for i := n; i > 0; i-- { swap(i, draw(i)) }` -/
def rounds (swap : σ → ℕ → ℕ → σ) (draw : Draws) : ℕ → σ → σ
  | 0, s => s
  | i + 1, s => rounds swap draw i (swap s (i + 1) (draw (i + 1)))

/-- The shuffle of `n` elements. -/
def shuffle (swap : σ → ℕ → ℕ → σ) (draw : Draws) (n : ℕ) (s : σ) : σ :=
  rounds swap draw (n - 1) s

/-- Two elements of a list change places. -/
def swapAt (l : List α) (i j : ℕ) : List α :=
  match l[i]?, l[j]? with
  | some a, some b => (l.set i b).set j a
  | _, _ => l

variable {swap : σ → ℕ → ℕ → σ} {swap' : τ → ℕ → ℕ → τ} {draw : Draws} {n : ℕ} {s : σ} {t : τ}

/-! ## Rules -/

/-- Rounds keep what each swap keeps, of two states. -/
theorem rounds_rel {R : σ → τ → Prop}
    (hswap : ∀ s t i j, j ≤ i → i ≤ n → R s t → R (swap s i j) (swap' t i j)) (h : R s t) :
    R (rounds swap draw n s) (rounds swap' draw n t) := by
  induction n generalizing s t with
  | zero => exact h
  | succ n ih =>
    refine ih (fun s t i j hj hi hR => hswap s t i j hj (Nat.le_succ_of_le hi) hR) ?_
    exact hswap s t (n + 1) (draw (n + 1)) (Nat.lt_succ_iff.mp (draw (n + 1)).isLt) (Nat.le_refl _) h

/-- A shuffle keeps what each swap keeps, of two states. -/
theorem shuffle_rel {R : σ → τ → Prop}
    (hswap : ∀ s t i j, j ≤ i → i < n → R s t → R (swap s i j) (swap' t i j)) (h : R s t) :
    R (shuffle swap draw n s) (shuffle swap' draw n t) := by
  cases n with
  | zero => exact h
  | succ n => exact rounds_rel (fun s t i j hj hi hR => hswap s t i j hj (Nat.lt_succ_of_le hi) hR) h

theorem shuffle_induction {P : σ → Prop} (hswap : ∀ s i j, j ≤ i → i < n → P s → P (swap s i j)) (h : P s) :
    P (shuffle swap draw n s) :=
  @shuffle_rel σ σ swap swap draw n s s (fun s _ => P s) (fun s _ i j hj hi hP => hswap s i j hj hi hP) h

/-! ## Swaps in a list -/

section SwapAt

variable {l : List α} {i j k : ℕ}

theorem swapAt_of_lt (hi : i < l.length) (hj : j < l.length) : swapAt l i j = (l.set i l[j]).set j l[i] := by
  rw [swapAt, List.getElem?_eq_getElem hi, List.getElem?_eq_getElem hj]

/-- A swap keeps the elements. -/
theorem perm_swapAt (l : List α) (i j : ℕ) : (swapAt l i j).Perm l := by
  by_cases h : i < l.length ∧ j < l.length
  · rw [swapAt_of_lt h.1 h.2]
    exact List.set_set_perm h.1 h.2
  · rw [swapAt]
    split
    · rename_i a b ha hb
      exact absurd ⟨(List.getElem?_eq_some_iff.mp ha).1, (List.getElem?_eq_some_iff.mp hb).1⟩ h
    · exact .refl l

@[simp] theorem length_swapAt (l : List α) (i j : ℕ) : (swapAt l i j).length = l.length :=
  (perm_swapAt l i j).length_eq

/-- The elements after a swap. -/
theorem getElem?_swapAt (hi : i < l.length) (hj : j < l.length) (k : ℕ) :
    (swapAt l i j)[k]? = if k = j then l[i]? else if k = i then l[j]? else l[k]? := by
  rw [swapAt_of_lt hi hj, List.getElem?_set, List.getElem?_set, List.length_set]
  by_cases hkj : k = j
  · rw [if_pos hkj.symm, if_pos hj, if_pos hkj, List.getElem?_eq_getElem hi]
  · rw [if_neg (Ne.symm hkj), if_neg hkj]
    by_cases hki : k = i
    · rw [if_pos hki.symm, if_pos hi, if_pos hki, List.getElem?_eq_getElem hj]
    · rw [if_neg (Ne.symm hki), if_neg hki]

/-- An element that is swapped with itself stays. -/
theorem swapAt_self (l : List α) (i : ℕ) : swapAt l i i = l := by
  rw [swapAt]
  cases hi : l[i]? with
  | none => rfl
  | some a =>
    obtain ⟨hlt, rfl⟩ := List.getElem?_eq_some_iff.mp hi
    show (l.set i l[i]).set i l[i] = l
    rw [List.set_getElem_self, List.set_getElem_self]

end SwapAt

/-! ## One swap -/

/-- The draws by which one index is swapped with a lower one, and every other with itself. -/
def onlyAt (p q : ℕ) : Draws := fun i =>
  if i = q then ⟨min p i, Nat.lt_succ_of_le (Nat.min_le_right p i)⟩ else Fin.last i

/-- Draws for one swap make that swap. -/
theorem rounds_onlyAt (hself : ∀ s i, swap s i i = s) {p q : ℕ} (hp : p ≤ q) (n : ℕ) (s : σ) :
    rounds swap (onlyAt p q) n s = if 0 < q ∧ q ≤ n then swap s q p else s := by
  induction n generalizing s with
  | zero => rw [rounds, if_neg (by omega)]
  | succ n ih =>
    rw [rounds, ih, onlyAt]
    by_cases hq : n + 1 = q
    · rw [if_pos hq, if_neg (by omega), if_pos (by omega)]
      subst hq
      exact congrArg (swap s (n + 1)) (Nat.min_eq_left hp)
    · rw [if_neg hq, Fin.val_last, hself]
      by_cases hle : 0 < q ∧ q ≤ n
      · rw [if_pos hle, if_pos (by omega)]
      · rw [if_neg hle, if_neg (by omega)]

/-- Every swap of two indices is an outcome. -/
theorem shuffle_onlyAt (hself : ∀ s i, swap s i i = s) {p q : ℕ} (hpq : p < q) (hq : q < n) (s : σ) :
    shuffle swap (onlyAt p q) n s = swap s q p := by
  rw [shuffle, rounds_onlyAt hself (Nat.le_of_lt hpq), if_pos (by omega)]

/-- Where every index is drawn for itself, nothing moves. -/
theorem shuffle_none (hself : ∀ s i, swap s i i = s) (s : σ) : shuffle swap (onlyAt 0 0) n s = s := by
  rw [shuffle, rounds_onlyAt hself (Nat.le_refl 0), if_neg (by omega)]

/-! ## Elements that stay -/

section Fixed

variable {p : α → Bool} {l l' : List α}

/-- Elements that stay are counted in both. -/
theorem countP_le_of_fixed (h : List.Forall₂ (fun a b => p a = true → b = a) l l') :
    l.countP p ≤ l'.countP p := by
  induction h with
  | nil => exact Nat.le_refl _
  | @cons a b l l' hab _ ih =>
    rw [List.countP_cons, List.countP_cons]
    by_cases ha : p a = true
    · rw [hab ha]
      omega
    · rw [if_neg ha]
      omega

/-- If there are no more of them, those in the second list stood there before. -/
theorem forall₂_of_fixed (h : List.Forall₂ (fun a b => p a = true → b = a) l l')
    (hcount : l'.countP p ≤ l.countP p) : List.Forall₂ (fun a b => p b = true → b = a) l l' := by
  induction h with
  | nil => exact .nil
  | @cons a b l l' hab htail ih =>
    have hle := countP_le_of_fixed htail
    rw [List.countP_cons, List.countP_cons] at hcount
    by_cases ha : p a = true
    · rw [hab ha] at hcount ⊢
      exact .cons (fun _ => rfl) (ih (by omega))
    · rw [if_neg ha] at hcount
      -- one more of the kind on the right could not be made up for
      have hb : ¬p b = true := fun hb => by
        rw [if_pos hb] at hcount
        omega
      exact .cons (fun h => absurd h hb) (ih (by omega))

/-- Where the elements of a kind stay, no other place gets one. -/
theorem getElem?_of_fixed (hperm : l'.Perm l) (hfixed : ∀ (k : ℕ) (e : α), l[k]? = some e → p e = true → l'[k]? = some e)
    {k : ℕ} {e : α} (hk : l'[k]? = some e) (hp : p e = true) : l[k]? = some e := by
  have hlength := hperm.length_eq
  have hsame : List.Forall₂ (fun a b => p a = true → b = a) l l' := by
    refine List.forall₂_iff_get.mpr ⟨hlength.symm, fun i hi hi' ha => ?_⟩
    have hget := hfixed i _ (List.getElem?_eq_getElem hi) ha
    exact List.getElem_eq_iff hi' |>.mpr hget
  have hback := List.forall₂_iff_get.mp (forall₂_of_fixed hsame (Nat.le_of_eq (hperm.countP_eq p)))
  obtain ⟨hlt, rfl⟩ := List.getElem?_eq_some_iff.mp hk
  have hlt' : k < l.length := by omega
  rw [List.getElem?_eq_getElem hlt']
  exact congrArg some (hback.2 k hlt' hlt hp).symm

/-- The first elements stay if each of them is fixed or can only change places with an equal one. -/
theorem take_eq_of_fixed {n : ℕ} (hperm : l'.Perm l)
    (hfixed : ∀ (k : ℕ) (e : α), l[k]? = some e → p e = true → l'[k]? = some e)
    (halike : ∀ a ∈ l.take n, ∀ b ∈ l, p a = false → p b = false → a = b) : l'.take n = l.take n := by
  refine List.ext_getElem? fun k => ?_
  by_cases hk : k < n
  · rw [List.getElem?_take_of_lt hk, List.getElem?_take_of_lt hk]
    cases ha : l[k]? with
    | none =>
      rw [List.getElem?_eq_none_iff, hperm.length_eq]
      exact List.getElem?_eq_none_iff.mp ha
    | some a =>
      cases hpa : p a with
      | true => exact hfixed k a ha hpa
      | false =>
        obtain ⟨hlt, -⟩ := List.getElem?_eq_some_iff.mp ha
        obtain ⟨b, hb⟩ : ∃ b, l'[k]? = some b := ⟨_, List.getElem?_eq_getElem (hperm.length_eq.symm ▸ hlt)⟩
        have hbl : b ∈ l := hperm.mem_iff.mp (List.mem_of_getElem? hb)
        -- a fixed element of the new list was at the same place of the old one
        have hpb : p b = false := by
          by_contra hfixedb
          have hback := getElem?_of_fixed hperm hfixed hb (Bool.not_eq_false _ ▸ hfixedb)
          obtain rfl : a = b := Option.some.inj (ha.symm.trans hback)
          exact hfixedb hpa
        have ham : a ∈ l.take n := List.mem_of_getElem? ((List.getElem?_take_of_lt hk).trans ha)
        rw [hb, halike a ham b hbl hpa hpb]
  · rw [List.getElem?_take, List.getElem?_take, if_neg hk, if_neg hk]

end Fixed

end Shuffle
