import Mathlib.Data.List.Infix
import Mathlib.Logic.Basic

/-!
# Histories of a register that is written once

A register is empty or holds a value. Its history lists the operations on it, oldest first: a write fills
the empty register, `clear` empties it, a read sees a value and a miss sees that there is none. In a
coherent history every operation fits the value that the operations before it leave.

Between two clearings such a register is written at most once, and whatever is read or written there is one
value (`Coherent.written_once`).
-/

namespace OnceRegister

variable {γ : Type*}

/-- An operation on the register. -/
inductive Op (γ : Type*) where
  | write (v : γ)
  | read (v : γ)
  | miss
  | clear

/-- The value an operation reads or writes. -/
def Op.shows : Op γ → Option γ
  | .write v => some v
  | .read v => some v
  | _ => none

def Op.isWrite : Op γ → Bool
  | .write _ => true
  | _ => false

/-- What an operation leaves in the register. -/
def Op.after (held : Option γ) : Op γ → Option γ
  | .write v => some v
  | .clear => none
  | _ => held

/-- The operation can happen while the register holds `held`. -/
def Op.Fits (held : Option γ) : Op γ → Prop
  | .write _ => held = none
  | .read v => held = some v
  | .miss => held = none
  | .clear => True

/-- What the operations leave in a register that holds `held`. -/
def value (held : Option γ) (ops : List (Op γ)) : Option γ :=
  ops.foldl Op.after held

/-- Every operation fits what the operations before it leave. -/
def Coherent : Option γ → List (Op γ) → Prop
  | _, [] => True
  | held, op :: ops => op.Fits held ∧ Coherent (op.after held) ops

variable {held : Option γ} {op : Op γ} {ops ops' : List (Op γ)} {v w : γ}

@[simp] theorem value_nil : value held [] = held := rfl

@[simp] theorem value_cons : value held (op :: ops) = value (op.after held) ops := rfl

theorem value_append : value held (ops ++ ops') = value (value held ops) ops' :=
  List.foldl_append

@[simp] theorem coherent_nil : Coherent held [] := trivial

@[simp] theorem coherent_cons :
    Coherent held (op :: ops) ↔ op.Fits held ∧ Coherent (op.after held) ops := Iff.rfl

/-- Operations behind operations. -/
theorem coherent_append :
    Coherent held (ops ++ ops') ↔ Coherent held ops ∧ Coherent (value held ops) ops' := by
  induction ops generalizing held with
  | nil => simp
  | cons op ops ih => simp only [List.cons_append, coherent_cons, ih, value_cons, and_assoc]

/-- Without a clearing, a register that holds a value keeps it and is not written. -/
theorem Coherent.kept (hcoh : Coherent (some v) ops) (hquiet : ∀ op ∈ ops, op ≠ .clear) :
    (∀ op ∈ ops, ∀ w, op.shows = some w → w = v) ∧ ops.filter Op.isWrite = [] := by
  induction ops with
  | nil => simp
  | cons op ops ih =>
    obtain ⟨hfits, hrest⟩ := coherent_cons.mp hcoh
    have hquiet' : ∀ op' ∈ ops, op' ≠ .clear := fun op' hmem => hquiet op' (List.mem_cons_of_mem _ hmem)
    cases op with
    | write u => exact absurd hfits (by simp [Op.Fits])
    | miss => exact absurd hfits (by simp [Op.Fits])
    | clear => exact absurd rfl (hquiet _ List.mem_cons_self)
    | read u =>
      obtain rfl : v = u := Option.some.inj hfits
      obtain ⟨hshows, hwrites⟩ := ih hrest hquiet'
      refine ⟨fun op' hmem w hw => ?_, hwrites⟩
      rcases List.mem_cons.mp hmem with rfl | hmem
      · exact (Option.some.inj hw).symm
      · exact hshows op' hmem w hw

/-- Without a clearing, an empty register that shows a value somewhere has been written with it, once. -/
theorem Coherent.written_once (hcoh : Coherent none ops) (hquiet : ∀ op ∈ ops, op ≠ .clear)
    (hop : op ∈ ops) (hshows : op.shows = some v) :
    (∀ op' ∈ ops, ∀ w, op'.shows = some w → w = v) ∧ ops.filter Op.isWrite = [.write v] := by
  induction ops with
  | nil => simp at hop
  | cons op' ops ih =>
    obtain ⟨hfits, hrest⟩ := coherent_cons.mp hcoh
    have hquiet' : ∀ op ∈ ops, op ≠ .clear := fun op hmem => hquiet op (List.mem_cons_of_mem _ hmem)
    cases op' with
    | read u => exact absurd hfits (by simp [Op.Fits])
    | clear => exact absurd rfl (hquiet _ List.mem_cons_self)
    | miss =>
      -- the miss shows nothing, so the value is shown later
      rcases List.mem_cons.mp hop with rfl | hmem
      · simp [Op.shows] at hshows
      · obtain ⟨hall, hwrites⟩ := ih hrest hquiet' hmem
        refine ⟨fun op₁ hmem₁ w hw => ?_, hwrites⟩
        rcases List.mem_cons.mp hmem₁ with rfl | hmem₁
        · simp [Op.shows] at hw
        · exact hall op₁ hmem₁ w hw
    | write u =>
      -- from the write on the register holds its value
      obtain ⟨hall, hwrites⟩ := Coherent.kept hrest hquiet'
      have huv : u = v := by
        rcases List.mem_cons.mp hop with rfl | hmem
        · exact Option.some.inj hshows
        · exact (hall op hmem v hshows).symm
      subst huv
      refine ⟨fun op₁ hmem₁ w hw => ?_, ?_⟩
      · rcases List.mem_cons.mp hmem₁ with rfl | hmem₁
        · exact (Option.some.inj hw).symm
        · exact hall op₁ hmem₁ w hw
      · rw [List.filter_cons_of_pos rfl, hwrites]

end OnceRegister
