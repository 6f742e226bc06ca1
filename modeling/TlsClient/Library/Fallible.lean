import Mathlib.Data.List.Forall2

/-!
# Fallible steps

A computation of `Except` that has a result has one in each of its parts. `run` takes steps that may fail one
after the other and stops at the first that does, in the state that the steps before it have left: unlike a
fold in `Except` it keeps that state. What relates the states of each step relates those of the run.
-/

universe u

namespace Fallible

section Except

variable {ε : Type*} {α β : Type u} {x : Except ε α} {b : β}

/-- Two steps succeed exactly if both do. -/
theorem bind_eq_ok_iff {f : α → Except ε β} : x >>= f = .ok b ↔ ∃ a, x = .ok a ∧ f a = .ok b := by
  cases x with
  | error err =>
    refine iff_of_false (fun h => by cases h) ?_
    rintro ⟨_, ⟨⟩, _⟩
  | ok a =>
    refine ⟨fun h => ⟨a, rfl, h⟩, ?_⟩
    rintro ⟨_, ⟨⟩, h⟩
    exact h

/-- A mapped result. -/
theorem map_eq_ok_iff {f : α → β} : x.map f = .ok b ↔ ∃ a, x = .ok a ∧ f a = b := by
  cases x with
  | error err =>
    refine iff_of_false (fun h => by cases h) ?_
    rintro ⟨_, ⟨⟩, _⟩
  | ok a =>
    refine ⟨fun h => ⟨a, rfl, Except.ok.inj h⟩, ?_⟩
    rintro ⟨_, ⟨⟩, rfl⟩
    rfl

/-- A mapped error does not change the result. -/
theorem mapError_eq_ok_iff {δ : Type*} {f : ε → δ} {a : α} {x : Except ε α} : x.mapError f = .ok a ↔ x = .ok a := by
  cases x with
  | error err => exact iff_of_false (fun h => by cases h) fun h => by cases h
  | ok b => exact ⟨fun h => congrArg _ (Except.ok.inj h), fun h => congrArg _ (Except.ok.inj h)⟩

/-- Behind a check there is a result only if the check is passed. -/
theorem ite_error_eq_ok_iff {c : Prop} [Decidable c] {e : ε} {x : Except ε α} {a : α} :
    (if c then .error e else x) = .ok a ↔ ¬c ∧ x = .ok a := by
  by_cases h : c
  · rw [if_pos h]
    exact iff_of_false (fun h' => by cases h') fun h' => h'.1 h
  · rw [if_neg h]
    exact ⟨fun h' => ⟨h, h'⟩, And.right⟩

/-- Results one by one are results of the whole list. -/
theorem forall₂_of_mapM {f : α → Except ε β} {l : List α} {out : List β} (h : l.mapM f = .ok out) :
    List.Forall₂ (fun a b => f a = .ok b) l out := by
  induction l generalizing out with
  | nil =>
    obtain rfl := Except.ok.inj h
    exact .nil
  | cons a l ih =>
    rw [List.mapM_cons] at h
    obtain ⟨b, hb, h⟩ := bind_eq_ok_iff.mp h
    obtain ⟨bs, hbs, h⟩ := bind_eq_ok_iff.mp h
    obtain rfl := Except.ok.inj h
    exact .cons hb (ih hbs)

/-- A list has results exactly if each of its elements has one. -/
theorem exists_mapM_iff {f : α → Except ε β} {l : List α} :
    (∃ out, l.mapM f = .ok out) ↔ ∀ a ∈ l, ∃ b, f a = .ok b := by
  induction l with
  | nil => exact iff_of_true ⟨[], rfl⟩ fun _ ha => by cases ha
  | cons a l ih =>
    rw [List.forall_mem_cons, ← ih, List.mapM_cons]
    constructor
    · rintro ⟨out, h⟩
      obtain ⟨b, hb, h⟩ := bind_eq_ok_iff.mp h
      obtain ⟨bs, hbs, -⟩ := bind_eq_ok_iff.mp h
      exact ⟨⟨b, hb⟩, bs, hbs⟩
    · rintro ⟨⟨b, hb⟩, bs, hbs⟩
      exact ⟨b :: bs, bind_eq_ok_iff.mpr ⟨b, hb, bind_eq_ok_iff.mpr ⟨bs, hbs, rfl⟩⟩⟩

end Except

variable {σ α ε : Type*} (step : σ → α → Except ε σ)

/-- The state in which the steps end, and the failure of the last of them. -/
def run (s : σ) : List α → σ × Except ε Unit
  | [] => (s, .ok ())
  | a :: as =>
    match step s a with
    | .ok s' => run s' as
    | .error e => (s, .error e)

variable {step} {R : σ → σ → Prop} {s : σ} {as : List α}

/-- Where no step fails, the run does not. -/
theorem run_ok (hstep : ∀ s, ∀ a ∈ as, ∃ s', step s a = .ok s') : (run step s as).2 = .ok () := by
  induction as generalizing s with
  | nil => rfl
  | cons a as ih =>
    obtain ⟨s', hs⟩ := hstep s a List.mem_cons_self
    rw [run, hs]
    exact ih fun s b hb => hstep s b (List.mem_cons_of_mem _ hb)

/-- A run without a failure goes through each of its steps. -/
theorem exists_of_run_append_ok {bs : List α} {a : α} (hok : (run step s (as ++ a :: bs)).2 = .ok ()) :
    ∃ s', step (run step s as).1 a = .ok s' ∧ (run step s (as ++ a :: bs)).1 = (run step s' bs).1 := by
  induction as generalizing s with
  | nil =>
    rw [List.nil_append, run] at hok ⊢
    split at hok
    · rename_i s' hs
      exact ⟨s', hs, rfl⟩
    · contradiction
  | cons b as ih =>
    rw [List.cons_append, run] at hok ⊢
    rw [run]
    split at hok
    · exact ih hok
    · contradiction

/-- A reflexive and transitive relation that each step keeps relates the ends of a run. -/
theorem run_related (hrefl : ∀ s, R s s) (htrans : ∀ s s' s'', R s s' → R s' s'' → R s s'')
    (hstep : ∀ s, ∀ a ∈ as, ∀ s', step s a = .ok s' → R s s') : R s (run step s as).1 := by
  induction as generalizing s with
  | nil => exact hrefl s
  | cons a as ih =>
    rw [run]
    split
    · rename_i s' hs
      have hrest := @ih s' fun s b hb => hstep s b (List.mem_cons_of_mem _ hb)
      exact htrans s s' _ (hstep s a List.mem_cons_self s' hs) hrest
    · exact hrefl s

/-- In a run without a failure each step has been taken, and the relation leads from it to the end. -/
theorem exists_step_of_run_ok (hrefl : ∀ s, R s s) (htrans : ∀ s s' s'', R s s' → R s' s'' → R s s'')
    (hstep : ∀ s, ∀ a ∈ as, ∀ s', step s a = .ok s' → R s s') (hok : (run step s as).2 = .ok ()) {a : α}
    (ha : a ∈ as) : ∃ s₁ s₂, step s₁ a = .ok s₂ ∧ R s₂ (run step s as).1 := by
  induction as generalizing s with
  | nil => exact absurd ha List.not_mem_nil
  | cons b as ih =>
    rw [run] at hok ⊢
    split at hok
    · rename_i s' hs
      have hrest : ∀ s, ∀ a ∈ as, ∀ s', step s a = .ok s' → R s s' :=
        fun s b hb => hstep s b (List.mem_cons_of_mem _ hb)
      rcases List.mem_cons.mp ha with rfl | ha
      · exact ⟨s, s', hs, run_related hrefl htrans hrest⟩
      · exact ih hrest hok ha
    · contradiction

end Fallible
