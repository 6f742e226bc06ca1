import Mathlib.Data.List.Infix

/-!
# Up to a separator

`breakOn` cuts a list where a separator first occurs. A separator whose first element does not occur in it again is
found right behind a list that it does not occur in (`breakOn_append`).
-/

namespace Separator

variable {α : Type*}

/-- What is before and after the first occurrence of a separator. -/
def breakOn [DecidableEq α] (sep : List α) : List α → Option (List α × List α)
  | [] => if sep = [] then some ([], []) else none
  | a :: s =>
    if sep <+: a :: s then some ([], (a :: s).drop sep.length)
    else (breakOn sep s).map fun p => (a :: p.1, p.2)

variable {c : α} {sep x y front back rest : List α}

/-- A list that occurs on neither side of an element that it does not have does not occur around it. -/
theorem not_infix_append_cons (hc : c ∉ sep) (hx : ¬sep <:+: x) (hy : ¬sep <:+: y) : ¬sep <:+: x ++ c :: y := by
  rintro ⟨front, back, h⟩
  rcases List.append_eq_append_iff.mp h with ⟨more, hmore, -⟩ | ⟨more, hmore, hback⟩
  · exact hx ⟨front, more, hmore.symm⟩
  cases more with
  | nil =>
    rw [List.append_nil] at hmore
    exact hx ⟨front, [], by rw [List.append_nil, hmore]⟩
  | cons d more =>
    obtain ⟨rfl, rfl⟩ := List.cons.inj hback
    rcases List.append_eq_append_iff.mp hmore with ⟨tail, -, htail⟩ | ⟨tail, -, htail⟩
    · exact hc (htail ▸ List.mem_append_right _ List.mem_cons_self)
    · cases tail with
      | nil =>
        have hsep : c :: more = sep := htail
        exact hc (hsep ▸ List.mem_cons_self)
      | cons e tail =>
        obtain ⟨-, rfl⟩ := List.cons.inj htail
        exact hy ⟨tail, back, rfl⟩

theorem not_infix_cons (hc : c ∉ sep) (hy : ¬sep <:+: y) : ¬sep <:+: c :: y :=
  not_infix_append_cons hc (x := []) (fun h => hy (List.eq_nil_of_infix_nil h ▸ List.nil_infix)) hy

/-- A list does not begin where its first element is not. -/
theorem not_infix_append_of_not_mem (hc : c ∉ x) (hy : ¬c :: sep <:+: y) : ¬c :: sep <:+: x ++ y := by
  induction x with
  | nil => exact hy
  | cons d x ih =>
    rw [List.mem_cons, not_or] at hc
    intro h
    rcases List.infix_cons_iff.mp h with h | h
    · exact hc.1 (List.cons_prefix_cons.mp h).1
    · exact ih hc.2 h

/-- What is in front of an element comes before it. -/
theorem exists_append_of_not_mem (hc : c ∉ front) (h : front ++ rest = x ++ c :: y) :
    ∃ more, x = front ++ more ∧ rest = more ++ c :: y := by
  rcases List.append_eq_append_iff.mp h with ⟨more, hx, hrest⟩ | ⟨more, hfront, hrest⟩
  · exact ⟨more, hx, hrest⟩
  · cases more with
    | nil =>
      rw [List.append_nil] at hfront
      exact ⟨[], by rw [List.append_nil, hfront], hrest.symm⟩
    | cons d more =>
      obtain ⟨rfl, -⟩ := List.cons.inj hrest
      exact absurd (hfront ▸ List.mem_append_right _ List.mem_cons_self) hc

/-- The text in front of the first separator. -/
theorem breakOn_append [DecidableEq α] (hc : c ∉ sep) (hx : ¬c :: sep <:+: x) (rest : List α) :
    breakOn (c :: sep) (x ++ (c :: sep ++ rest)) = some (x, rest) := by
  induction x with
  | nil =>
    have hfirst : c :: sep <+: c :: (sep ++ rest) := List.prefix_append (c :: sep) rest
    rw [List.nil_append, List.cons_append, breakOn, if_pos hfirst, ← List.cons_append, List.drop_left]
  | cons a x ih =>
    have hnot : ¬c :: sep <+: a :: x ++ (c :: sep ++ rest) := by
      intro hfirst
      rcases List.prefix_or_prefix_of_prefix hfirst (List.prefix_append (a :: x) _) with hshort | ⟨tail, htail⟩
      · exact hx hshort.isInfix
      -- the separator begins in the list and ends behind it, so its first element is in it twice
      · rw [← htail] at hfirst
        have hrest := (List.prefix_append_right_inj _).mp hfirst
        cases tail with
        | nil =>
          rw [List.append_nil] at htail
          exact hx (htail ▸ List.infix_refl _)
        | cons d tail =>
          obtain ⟨rfl, rfl⟩ := List.cons.inj htail
          have hd : d ∈ x ++ d :: tail := List.mem_append_right _ List.mem_cons_self
          rw [List.append_assoc, List.cons_append] at hrest
          obtain ⟨rfl, -⟩ := List.cons_prefix_cons.mp hrest
          exact hc hd
    rw [List.cons_append] at hnot ⊢
    rw [breakOn, if_neg hnot, ih fun h => hx (List.infix_cons h)]
    rfl

end Separator
