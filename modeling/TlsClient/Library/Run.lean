import Mathlib.Data.List.Induction
import Mathlib.Order.Basic

/-!
# Runs of a state machine

A machine is a total step function `step : σ → α → σ`: the action carries every choice the environment
makes, and an action that is not enabled leaves the state alone. `exec` folds it over a list of actions
and `Along` says that every action of the run meets a condition in the state in which it is taken.

Every safety result is an instance of `invariant_exec`: an invariant that each conditioned step keeps
holds in the state reached, hence, prefix by prefix, in every state of the run. `exec_iff_along` turns this
round for a property that is never regained: it holds in the end of the conditioned runs only. Where the
property is asked for in every state of the run, `forall_prefix_iff_along` does.

`At` says that a run has come through a step of some kind, and `history_exec` is the rule for an invariant
that speaks of the run so far besides the state.
-/

namespace Run

variable {σ τ α β : Type*}

/-- The state after the actions `as`, from `s`. -/
def exec (step : σ → α → σ) (s : σ) (as : List α) : σ :=
  as.foldl step s

/-- Every action of the run meets `ok` in the state in which it is taken. -/
def Along (step : σ → α → σ) (ok : σ → α → Prop) : σ → List α → Prop
  | _, [] => True
  | s, a :: as => ok s a ∧ Along step ok (step s a) as

variable {step : σ → α → σ} {ok ok' : σ → α → Prop} {s : σ} {a : α} {as bs : List α}

@[simp] theorem exec_nil : exec step s [] = s := rfl

@[simp] theorem exec_cons : exec step s (a :: as) = exec step (step s a) as := rfl

theorem exec_append : exec step s (as ++ bs) = exec step (exec step s as) bs :=
  List.foldl_append

@[simp] theorem along_nil : Along step ok s [] := trivial

@[simp] theorem along_cons :
    Along step ok s (a :: as) ↔ ok s a ∧ Along step ok (step s a) as := Iff.rfl

/-- A run behind a run. -/
theorem along_append :
    Along step ok s (as ++ bs) ↔ Along step ok s as ∧ Along step ok (exec step s as) bs := by
  induction as generalizing s with
  | nil => simp
  | cons a as ih => simp only [List.cons_append, along_cons, ih, exec_cons, and_assoc]

/-- What holds of every step holds along every run. -/
theorem along_of_forall (h : ∀ s, ∀ a ∈ as, ok s a) : Along step ok s as := by
  induction as generalizing s with
  | nil => trivial
  | cons a as ih => exact ⟨h s a List.mem_cons_self, ih fun s' b hb => h s' b (List.mem_cons_of_mem _ hb)⟩

/-- A prefix of a conditioned run is a conditioned run. -/
theorem along_prefix_of (hpre : as <+: bs) (hrun : Along step ok s bs) : Along step ok s as := by
  obtain ⟨cs, rfl⟩ := hpre
  exact (along_append.mp hrun).1

/-- A run is conditioned if each of its actions meets the condition after those before it. -/
theorem along_of_forall_prefix (h : ∀ bs b, bs ++ [b] <+: as → ok (exec step s bs) b) : Along step ok s as := by
  induction as generalizing s with
  | nil => trivial
  | cons a as ih =>
    refine ⟨h [] a (List.prefix_append [a] as), ih fun bs b hpre => ?_⟩
    exact h (a :: bs) b (List.cons_prefix_cons.mpr ⟨rfl, hpre⟩)

instance decidableAlong [∀ s a, Decidable (ok s a)] :
    ∀ (s : σ) (as : List α), Decidable (Along step ok s as)
  | _, [] => isTrue trivial
  | s, a :: as =>
    haveI : Decidable (Along step ok (step s a) as) := decidableAlong (step s a) as
    inferInstanceAs (Decidable (ok s a ∧ Along step ok (step s a) as))

/-- An invariant kept by every conditioned step holds in the state a conditioned run reaches. -/
theorem invariant_exec {Inv : σ → Prop}
    (hstep : ∀ s a, Inv s → ok s a → Inv (step s a))
    (hinit : Inv s) (hrun : Along step ok s as) : Inv (exec step s as) := by
  induction as generalizing s with
  | nil => exact hinit
  | cons a as ih =>
    obtain ⟨ha, has⟩ := along_cons.mp hrun
    exact ih (hstep s a hinit ha) has

/-- A run whose actions all keep an invariant that implies the condition meets the condition. -/
theorem along_of_invariant {Inv : σ → Prop} (hok : ∀ s, ∀ a ∈ as, Inv s → ok s a)
    (hstep : ∀ s, ∀ a ∈ as, Inv s → Inv (step s a)) (hinit : Inv s) : Along step ok s as := by
  induction as generalizing s with
  | nil => trivial
  | cons a as ih =>
    have hnext := hstep s a List.mem_cons_self hinit
    refine ⟨hok s a List.mem_cons_self hinit, ih ?_ ?_ hnext⟩
    · exact fun s' b hb => hok s' b (List.mem_cons_of_mem _ hb)
    · exact fun s' b hb => hstep s' b (List.mem_cons_of_mem _ hb)

/-- An invariant kept by every step holds in the state a run reaches. -/
theorem always_exec {Inv : σ → Prop} (hstep : ∀ s a, Inv s → Inv (step s a)) (hinit : Inv s) (as : List α) :
    Inv (exec step s as) :=
  invariant_exec (fun s' a hinv (_ : (fun _ _ => True) s' a) => hstep s' a hinv) hinit
    (along_of_forall fun _ _ _ => trivial)

/-- Some action of the run is taken in a state with which it meets `P`. -/
def At (step : σ → α → σ) (s : σ) (as : List α) (P : σ → α → Prop) : Prop :=
  ∃ before a after, as = before ++ a :: after ∧ P (exec step s before) a

theorem not_at_nil {P : σ → α → Prop} : ¬At step s [] P := by
  rintro ⟨before, a, after, hsplit, -⟩
  exact absurd hsplit.symm (List.append_ne_nil_of_right_ne_nil _ (List.cons_ne_nil _ _))

/-- The last action of a run meets `P`, or an earlier one does. -/
theorem at_concat {P : σ → α → Prop} : At step s (as ++ [a]) P ↔ At step s as P ∨ P (exec step s as) a := by
  constructor
  · rintro ⟨before, b, after, hsplit, hP⟩
    rcases List.eq_nil_or_concat after with rfl | ⟨after, last, rfl⟩
    · obtain ⟨rfl, hlast⟩ := List.append_inj' hsplit rfl
      obtain rfl := List.singleton_inj.mp hlast
      exact .inr hP
    · rw [List.concat_eq_append, ← List.cons_append, ← List.append_assoc] at hsplit
      exact .inl ⟨before, b, after, (List.append_inj' hsplit rfl).1, hP⟩
  · rintro (⟨before, b, after, rfl, hP⟩ | hP)
    · exact ⟨before, b, after ++ [a], by rw [List.append_assoc, List.cons_append], hP⟩
    · exact ⟨as, a, [], rfl, hP⟩

/-- An invariant of the actions taken and the state they lead to holds of every run. -/
theorem history_exec {Inv : List α → σ → Prop} (hinit : Inv [] s)
    (hstep : ∀ as a, Inv as (exec step s as) → Inv (as ++ [a]) (step (exec step s as) a)) (as : List α) :
    Inv as (exec step s as) := by
  induction as using List.reverseRecOn with
  | nil => exact hinit
  | append_singleton as a ih =>
    rw [exec_append, exec_cons, exec_nil]
    exact hstep as a ih

/-- A fault that a step outside of the condition leaves, and that no step repairs, shows in the end. -/
theorem along_of_not_fault {Inv Fault : σ → Prop} (hstep : ∀ s a, Inv s → Inv (step s a))
    (hfault : ∀ s a, Inv s → ¬ok s a → Fault (step s a)) (hkept : ∀ s a, Inv s → Fault s → Fault (step s a))
    (hinit : Inv s) (hend : ¬Fault (exec step s as)) : Along step ok s as := by
  have hstays : ∀ (bs : List α) (s : σ), Inv s → Fault s → Fault (exec step s bs) := by
    intro bs
    induction bs with
    | nil => exact fun _ _ hs => hs
    | cons b bs ih => exact fun s hinv hs => ih (step s b) (hstep s b hinv) (hkept s b hinv hs)
  induction as generalizing s with
  | nil => trivial
  | cons a as ih =>
    refine ⟨?_, ih (hstep s a hinit) hend⟩
    by_contra hok
    exact hend (hstays as _ (hstep s a hinit) (hfault s a hinit hok))

/-- A property that a step keeps within the condition and loses outside of it, and that never comes back, holds
in the end exactly of the conditioned runs. -/
theorem exec_iff_along {Inv Good : σ → Prop} (hstep : ∀ s a, Inv s → Inv (step s a))
    (hgood : ∀ s a, Inv s → Good s → (Good (step s a) ↔ ok s a))
    (hlost : ∀ s a, Inv s → ¬Good s → ¬Good (step s a)) (hinit : Inv s) (hstart : Good s) :
    Good (exec step s as) ↔ Along step ok s as := by
  constructor
  · intro hend
    have hback : ∀ (bs : List α) (s : σ), Inv s → Good (exec step s bs) → Good s := by
      intro bs
      induction bs with
      | nil => exact fun _ _ hs => hs
      | cons b bs ih =>
        exact fun s hinv hend => not_imp_not.mp (hlost s b hinv) (ih (step s b) (hstep s b hinv) hend)
    induction as generalizing s with
    | nil => trivial
    | cons a as ih =>
      have hnext := hback as (step s a) (hstep s a hinit) hend
      exact ⟨(hgood s a hinit hstart).mp hnext, ih (hstep s a hinit) hnext hend⟩
  · intro hrun
    have hboth : Inv (exec step s as) ∧ Good (exec step s as) :=
      @invariant_exec _ _ _ _ _ _ (fun s => Inv s ∧ Good s)
        (fun s a h hok => ⟨hstep s a h.1, (hgood s a h.1 h.2).mpr hok⟩) ⟨hinit, hstart⟩ hrun
    exact hboth.2

/-- A property that each step keeps within the condition and loses outside of it holds in every state of a run
exactly if the run is conditioned. -/
theorem forall_prefix_iff_along {Good : σ → Prop} (hstep : ∀ s a, Good s → (Good (step s a) ↔ ok s a))
    (hstart : Good s) : (∀ bs, bs <+: as → Good (exec step s bs)) ↔ Along step ok s as := by
  constructor
  · intro hall
    refine along_of_forall_prefix fun bs b hpre => ?_
    have hbefore := hall bs ((List.prefix_append bs [b]).trans hpre)
    have hafter := hall (bs ++ [b]) hpre
    rw [exec_append] at hafter
    exact (hstep _ b hbefore).mp hafter
  · intro hrun bs hpre
    exact invariant_exec (fun s a hgood hok => (hstep s a hgood).mpr hok) hstart (along_prefix_of hpre hrun)

end Run
