import Mathlib.Data.Nat.Init
import Mathlib.Logic.Relation

/-!
# Loops with an early exit

A loop takes a step again and again until the step gives a result, as `while True` with `return` and `raise`
in its body does. That it ends is part of its definition: each round that goes on makes the state smaller.
`Reaches` are the states in which a round begins. What holds of a loop is shown at its last round, with an
invariant of the rounds before it (`exists_last_of_invariant`), or from the last round back (`run_induction`).
-/

namespace WhileLoop

variable {σ β : Type*}

/-- The step ends the loop with a result, or leaves a state to go on from, a smaller one. -/
structure Loop (σ β : Type*) where
  step : σ → β ⊕ σ
  size : σ → ℕ
  decreases : ∀ s s', step s = .inr s' → size s' < size s

/-- The result of the loop. -/
def Loop.run (loop : Loop σ β) (s : σ) : β :=
  match _h : loop.step s with
  | .inl b => b
  | .inr s' => loop.run s'
termination_by loop.size s
decreasing_by exact loop.decreases s s' _h

variable {loop : Loop σ β} {s s' : σ} {b : β}

/-- The loop ends. -/
theorem run_of_done (h : loop.step s = .inl b) : loop.run s = b := by
  rw [Loop.run]
  split
  · rename_i b' h'
    exact Sum.inl.inj (h'.symm.trans h)
  · rename_i s' h'
    rw [h] at h'
    contradiction

/-- The loop goes on. -/
theorem run_of_next (h : loop.step s = .inr s') : loop.run s = loop.run s' := by
  rw [Loop.run]
  split
  · rename_i b h'
    rw [h] at h'
    contradiction
  · rename_i s'' h'
    rw [Sum.inr.inj (h'.symm.trans h)]

variable (loop) in
/-- A round begins in the second state some time after one has begun in the first. -/
def Reaches : σ → σ → Prop :=
  Relation.ReflTransGen fun s s' => loop.step s = .inr s'

/-- The result is that of any state it gets to. -/
theorem run_of_reaches (h : Reaches loop s s') : loop.run s = loop.run s' := by
  induction h with
  | refl => rfl
  | tail _ hstep ih => exact ih.trans (run_of_next hstep)

/-- An invariant that each round keeps holds whenever a round begins. -/
theorem invariant_of_reaches {Inv : σ → Prop} (hstep : ∀ s s', Inv s → loop.step s = .inr s' → Inv s')
    (hinit : Inv s) (h : Reaches loop s s') : Inv s' := by
  induction h with
  | refl => exact hinit
  | tail _ hnext ih => exact hstep _ _ ih hnext

/-- What holds of a last round, and of a round if it holds of the next one, holds of the loop. -/
theorem run_induction {P : σ → β → Prop} (hdone : ∀ s b, loop.step s = .inl b → P s b)
    (hnext : ∀ s s' b, loop.step s = .inr s' → P s' b → P s b) (s : σ) : P s (loop.run s) := by
  induction hsize : loop.size s using Nat.strong_induction_on generalizing s with
  | _ n ih =>
    cases h : loop.step s with
    | inl b =>
      rw [run_of_done h]
      exact hdone s b h
    | inr s' =>
      rw [run_of_next h]
      exact hnext s s' _ h (ih _ (hsize ▸ loop.decreases s s' h) s' rfl)

/-- There is a last round, which gives the result. -/
theorem exists_last_round (loop : Loop σ β) (s : σ) :
    ∃ last, Reaches loop s last ∧ loop.step last = .inl (loop.run s) := by
  refine @run_induction σ β loop (fun s b => ∃ last, Reaches loop s last ∧ loop.step last = .inl b) ?_ ?_ s
  · exact fun s b h => ⟨s, .refl, h⟩
  · rintro s s' b h ⟨last, hreaches, hend⟩
    exact ⟨last, .head h hreaches, hend⟩

/-- The last state has what each round keeps. -/
theorem exists_last_of_invariant {Inv : σ → Prop} (hstep : ∀ s s', Inv s → loop.step s = .inr s' → Inv s')
    (hinit : Inv s) : ∃ last, Inv last ∧ loop.step last = .inl (loop.run s) := by
  obtain ⟨last, hreaches, hlast⟩ := exists_last_round loop s
  exact ⟨last, invariant_of_reaches hstep hinit hreaches, hlast⟩

end WhileLoop
