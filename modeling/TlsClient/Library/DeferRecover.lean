import Mathlib.Tactic.TypeStar

/-!
# Functions with deferred calls and recovery

A function body that works on a state `σ`, returns a `ρ` and panics with an `ε`. Its code goes on to the
next statement, has executed a `return`, or is panicking. Both of the latter carry the result slot of the
function: a `return` sets it, a panic leaves it, and before any `return` it holds the zero value. A deferred
call runs on the way out of the statements that follow its registration.

A recovered panic ends the function with what the slot holds. A handler that cannot write the slot thus
makes a function that has not come to its `return` give the zero value (`call_recovering_default`), and one
that has come there give what it was about to return (`call_recovering_slot`).
-/

namespace DeferRecover

/-- How code of a function with a result of type `ρ` goes on. -/
inductive Flow (ε ρ α : Type) where
  | next (a : α)
  | returned (r : ρ)
  | panicking (e : ε) (slot : ρ)

/-- Code of a function with a result of type `ρ`. -/
def Code (σ ε ρ α : Type) := σ → Flow ε ρ α × σ

namespace Code

variable {σ ε ρ ρ' α β : Type}

instance instMonad : Monad (Code σ ε ρ) where
  pure a := fun s => (.next a, s)
  bind code k := fun s =>
    match code s with
    | (.next a, s') => k a s'
    | (.returned r, s') => (.returned r, s')
    | (.panicking e slot, s') => (.panicking e slot, s')

/-- `return r`. -/
def ret (r : ρ) : Code σ ε ρ α := fun s => (.returned r, s)

/-- A statement that changes the state. -/
def modify (f : σ → σ) : Code σ ε ρ Unit := fun s => (.next (), f s)

/-- An expression that reads the state. -/
def read (f : σ → α) : Code σ ε ρ α := fun s => (.next (f s), s)

/-- `panic(e)` before a `return`. -/
def raise [Inhabited ρ] (e : ε) : Code σ ε ρ α := fun s => (.panicking e default, s)

/-- The call of a function from the code of another. -/
def call [Inhabited ρ] [Inhabited ρ'] (code : Code σ ε ρ α) : Code σ ε ρ' ρ := fun s =>
  match code s with
  | (.next _, s') => (.next default, s')
  | (.returned r, s') => (.next r, s')
  | (.panicking e _, s') => (.panicking e default, s')

/-- `defer d()`, and the statements after it. -/
def deferring [Inhabited ρ] (d : Code σ ε Unit Unit) (rest : Code σ ε ρ α) : Code σ ε ρ α := fun s =>
  match rest s with
  | (flow, s') =>
    match d s' with
    | (.panicking e _, s'') =>
      match flow with
      | .next _ => (.panicking e default, s'')
      | .returned r => (.panicking e r, s'')
      | .panicking _ slot => (.panicking e slot, s'')
    | (_, s'') => (flow, s'')

/-- A deferred function that recovers a panic and handles it, in a function with a named result: the
handler reads the slot and gives its new value. -/
def recoveringNamed (handler : ε → ρ → Code σ ε ρ ρ) (rest : Code σ ε ρ α) : Code σ ε ρ α := fun s =>
  match rest s with
  | (.panicking e slot, s') =>
    match handler e slot s' with
    | (.next r, s'') => (.returned r, s'')
    | (.returned r, s'') => (.returned r, s'')
    | (.panicking e' slot', s'') => (.panicking e' slot', s'')
  | (flow, s') => (flow, s')

/-- The same in a function whose result has no name. -/
def recovering (handler : ε → Code σ ε ρ Unit) (rest : Code σ ε ρ α) : Code σ ε ρ α :=
  recoveringNamed (fun e slot => do handler e; return slot) rest

variable {code : Code σ ε ρ α} {k : α → Code σ ε ρ β} {s s' s'' : σ} {a : α} {r : ρ} {e : ε}

@[simp] theorem pure_apply : (pure a : Code σ ε ρ α) s = (.next a, s) := rfl

@[simp] theorem ret_apply : (ret r : Code σ ε ρ α) s = (.returned r, s) := rfl

@[simp] theorem modify_apply (f : σ → σ) : (modify f : Code σ ε ρ Unit) s = (.next (), f s) := rfl

@[simp] theorem read_apply (f : σ → α) : (read f : Code σ ε ρ α) s = (.next (f s), s) := rfl

@[simp] theorem raise_apply [Inhabited ρ] : (raise e : Code σ ε ρ α) s = (.panicking e default, s) := rfl

/-- Only code that comes to its end goes on. -/
theorem bind_apply (code : Code σ ε ρ α) (k : α → Code σ ε ρ β) (s : σ) :
    (code >>= k) s =
      match code s with
      | (.next a, s') => k a s'
      | (.returned r, s') => (.returned r, s')
      | (.panicking e slot, s') => (.panicking e slot, s') := rfl

theorem bind_next (h : code s = (.next a, s')) : (code >>= k) s = k a s' := by
  rw [bind_apply, h]

theorem bind_returned (h : code s = (.returned r, s')) : (code >>= k) s = (.returned r, s') := by
  rw [bind_apply, h]

theorem bind_panicking (h : code s = (.panicking e r, s')) : (code >>= k) s = (.panicking e r, s') := by
  rw [bind_apply, h]

/-- A function that returns does not come to its handler. -/
theorem recoveringNamed_returned {named : ε → ρ → Code σ ε ρ ρ} (h : code s = (.returned r, s')) :
    recoveringNamed named code s = (.returned r, s') := by
  rw [recoveringNamed, h]

/-- Without a panic the deferred function recovers nothing. -/
theorem recoveringNamed_next {f : ε → ρ → Code σ ε ρ ρ} (h : code s = (.next a, s')) :
    recoveringNamed f code s = (.next a, s') := by
  rw [recoveringNamed, h]

/-- A panic is recovered, and the function returns its named result. -/
theorem recoveringNamed_panicking {named : ε → ρ → Code σ ε ρ ρ} {r' : ρ} (h : code s = (.panicking e r, s'))
    (hnamed : named e r s' = (.next r', s'')) : recoveringNamed named code s = (.returned r', s'') := by
  rw [recoveringNamed, h]
  dsimp only
  rw [hnamed]

/-- The panic of a handler is that of the function. -/
theorem recovering_panicking {f : ε → Code σ ε ρ Unit} {e' : ε} {r' : ρ}
    (h : code s = (.panicking e r, s')) (hhandler : f e s' = (.panicking e' r', s'')) :
    recovering f code s = (.panicking e' r', s'') := by
  rw [recovering, recoveringNamed, h]
  dsimp only
  rw [bind_panicking hhandler]

section Call

variable [Inhabited ρ] [Inhabited ρ'] {handler : ε → Code σ ε ρ Unit}

theorem call_returned (h : code s = (.returned r, s')) :
    (call code : Code σ ε ρ' ρ) s = (.next r, s') := by
  rw [call, h]

theorem call_panicking (h : code s = (.panicking e r, s')) :
    (call code : Code σ ε ρ' ρ) s = (.panicking e default, s') := by
  rw [call, h]

/-- Deferred calls that end normally leave the flow as it is. -/
theorem deferring_next {d : Code σ ε Unit Unit} {flow : Flow ε ρ α} (h : code s = (flow, s'))
    (hd : d s' = (.next (), s'')) : deferring d code s = (flow, s'') := by
  rw [deferring, h]
  dsimp only
  rw [hd]

/-- The panic of a deferred call replaces a `return`; the slot is set already. -/
theorem deferring_returned {d : Code σ ε Unit Unit} {u : Unit} (h : code s = (.returned r, s'))
    (hd : d s' = (.panicking e u, s'')) : deferring d code s = (.panicking e r, s'') := by
  rw [deferring, h]
  dsimp only
  rw [hd]

/-- The panic of a deferred call replaces an earlier one. -/
theorem deferring_panicking {d : Code σ ε Unit Unit} {u : Unit} {e' : ε} (h : code s = (.panicking e' r, s'))
    (hd : d s' = (.panicking e u, s'')) : deferring d code s = (.panicking e r, s'') := by
  rw [deferring, h]
  dsimp only
  rw [hd]

/-- The panic of a deferred call is that of the function. -/
theorem deferring_panics {d : Code σ ε Unit Unit} {flow : Flow ε ρ α} {u : Unit} (h : code s = (flow, s'))
    (hd : d s' = (.panicking e u, s'')) : ∃ slot, deferring d code s = (.panicking e slot, s'') := by
  rw [deferring, h]
  dsimp only
  rw [hd]
  cases flow with
  | next a => exact ⟨_, rfl⟩
  | returned r => exact ⟨_, rfl⟩
  | panicking e' slot => exact ⟨_, rfl⟩

/-- A panic that a handler without the slot recovers after a `return` gives what was returned. -/
theorem call_recovering_slot (h : code s = (.panicking e r, s')) (hhandler : handler e s' = (.next (), s'')) :
    (call (recovering handler code) : Code σ ε ρ' ρ) s = (.next r, s'') := by
  apply call_returned
  exact recoveringNamed_panicking h (by rw [bind_next hhandler, pure_apply])

/-- A panic that a handler without the slot recovers before any `return` gives the zero value. -/
theorem call_recovering_default (h : code s = (.panicking e default, s'))
    (hhandler : handler e s' = (.next (), s'')) :
    (call (recovering handler code) : Code σ ε ρ' ρ) s = (.next default, s'') :=
  call_recovering_slot h hhandler

theorem call_recovering_returned (h : code s = (.returned r, s')) :
    (call (recovering handler code) : Code σ ε ρ' ρ) s = (.next r, s') :=
  call_returned (recoveringNamed_returned h)

end Call

end Code

end DeferRecover
