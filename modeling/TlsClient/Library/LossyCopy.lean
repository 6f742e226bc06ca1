import Mathlib.Algebra.Order.BigOperators.Group.List
import Mathlib.Algebra.Order.Ring.Nat

/-!
# Two texts of one value, one of them through a lossy copy

`Copied p g c` compares the text `p` of a value with the text `g` of its copy: they are equal and `c`
says that the copy lost nothing, or `g` is the shorter one and `c` fails. As the copy only ever shortens,
the comparison composes: texts put together from parts are equal exactly when all parts are
(`Copied.append`, `Copied.flatMap`), also where the copy has the parts in another order or drops some
(`Copied.of_perm`).
-/

/-- The texts agree, and `c` holds, or `g` is shorter, and `c` fails. -/
def Copied {β : Type*} (p g : List β) (c : Prop) : Prop :=
  (p = g ∧ c) ∨ (g.length < p.length ∧ ¬ c)

namespace Copied

variable {α β : Type*} {p g p' g' : List β} {c c' : Prop}

/-- What the comparison is for. -/
theorem eq_iff (h : Copied p g c) : p = g ↔ c := by
  rcases h with ⟨heq, hc⟩ | ⟨hlt, hc⟩
  · exact iff_of_true heq hc
  · refine iff_of_false ?_ hc
    rintro rfl
    exact lt_irrefl _ hlt

/-- A copy is not longer. -/
theorem length_le (h : Copied p g c) : g.length ≤ p.length := by
  rcases h with ⟨rfl, -⟩ | ⟨hlt, -⟩
  · exact le_refl _
  · exact hlt.le

theorem refl (p : List β) : Copied p p True := .inl ⟨rfl, trivial⟩

theorem of_eq (heq : p = g) : Copied p g True := .inl ⟨heq, trivial⟩

theorem congr (h : Copied p g c) (hcc : c ↔ c') : Copied p g c' :=
  h.imp (.imp_right hcc.mp) (.imp_right fun hc hc' => hc (hcc.mpr hc'))

/-- Two copies, one after the other. -/
theorem append (h : Copied p g c) (h' : Copied p' g' c') :
    Copied (p ++ p') (g ++ g') (c ∧ c') := by
  have hle := h.length_le
  have hle' := h'.length_le
  rcases h with ⟨rfl, hc⟩ | ⟨hlt, hc⟩
  · rcases h' with ⟨rfl, hc'⟩ | ⟨hlt', hc'⟩
    · exact .inl ⟨rfl, hc, hc'⟩
    · refine .inr ⟨?_, fun h => hc' h.2⟩
      rw [List.length_append, List.length_append]
      omega
  · refine .inr ⟨?_, fun h => hc h.1⟩
    rw [List.length_append, List.length_append]
    omega

/-- The same text on both sides loses nothing. -/
theorem append_left (s : List β) (h : Copied p g c) : Copied (s ++ p) (s ++ g) c :=
  ((refl s).append h).congr (by simp)

theorem append_right (h : Copied p g c) (s : List β) : Copied (p ++ s) (g ++ s) c :=
  (h.append (refl s)).congr (by simp)

/-- A further part behind a tag. -/
theorem field (h : Copied p g c) (tag : List β) (h' : Copied p' g' c') :
    Copied (p ++ tag ++ p') (g ++ tag ++ g') (c ∧ c') :=
  (h.append_right tag).append h'

/-- Lists of texts with a separator. -/
theorem intercalate_cons {sep : List β} {ps gs : List (List β)} (h : Copied p g c)
    (hps : ps ≠ []) (hgs : gs ≠ [])
    (hrest : Copied (List.intercalate sep ps) (List.intercalate sep gs) c') :
    Copied (List.intercalate sep (p :: ps)) (List.intercalate sep (g :: gs)) (c ∧ c') := by
  have hcons : ∀ {t : List β} {ts : List (List β)}, ts ≠ [] →
      List.intercalate sep (t :: ts) = t ++ (sep ++ List.intercalate sep ts) := by
    intro t ts hts
    obtain ⟨u, us, rfl⟩ := List.exists_cons_of_ne_nil hts
    simp [List.intercalate]
  rw [hcons hps, hcons hgs]
  exact h.append (hrest.append_left sep)

/-- Copies, one after another. -/
theorem flatMap {xs : List α} {f g : α → List β} {c : α → Prop}
    (hpart : ∀ x ∈ xs, Copied (f x) (g x) (c x)) :
    Copied (xs.flatMap f) (xs.flatMap g) (∀ x ∈ xs, c x) := by
  induction xs with
  | nil => exact .inl ⟨rfl, by simp⟩
  | cons x xs ih =>
    have hhead := hpart x List.mem_cons_self
    have htail := ih fun y hy => hpart y (List.mem_cons_of_mem _ hy)
    rw [List.flatMap_cons, List.flatMap_cons]
    exact (hhead.append htail).congr (by simp)

/-- The order does not change the length. -/
theorem length_flatMap_of_perm {xs ys : List α} {f : α → List β} (hperm : ys.Perm xs) :
    (ys.flatMap f).length = (xs.map fun x => (f x).length).sum := by
  rw [List.length_flatMap]
  exact (hperm.map _).sum_eq

/-- The copy may also reorder the parts and drop some, if it keeps them as they are when nothing is
lost. -/
theorem of_perm {xs ys : List α} {f g : α → List β} {c : α → Prop}
    (hpart : ∀ x ∈ xs, Copied (f x) (g x) (c x)) (hperm : ys.Perm xs)
    (hg : g'.length ≤ (xs.map fun x => (g x).length).sum)
    (heq : (∀ x ∈ xs, c x) → ys.flatMap f = g') : Copied (ys.flatMap f) g' (∀ x ∈ xs, c x) := by
  by_cases hc : ∀ x ∈ xs, c x
  · exact .inl ⟨heq hc, hc⟩
  · refine .inr ⟨?_, hc⟩
    obtain ⟨x, hx, hcx⟩ : ∃ x ∈ xs, ¬ c x := by simpa using hc
    have hlt : (g x).length < (f x).length := by
      rcases hpart x hx with ⟨-, hcx'⟩ | ⟨hlt, -⟩
      · exact absurd hcx' hcx
      · exact hlt
    have hsum : (xs.map fun x => (g x).length).sum < (xs.map fun x => (f x).length).sum :=
      List.sum_lt_sum _ _ (fun y hy => (hpart y hy).length_le) ⟨x, hx, hlt⟩
    rw [length_flatMap_of_perm hperm]
    omega

end Copied
