import Mathlib.Data.List.Basic

/-!
# Reading texts character by character

A reader takes one character from the front of a sequence of bytes, or a broken sequence where there is none. Reading
from end to end fails at the first broken sequence (`strict`) or puts a mark in its place (`replace`).

What was read as a character is read so whatever comes after it. So a sequence can be cut between two characters and
its parts read one by one, and nowhere else (`isSome_strict_iff`).
-/

namespace CharReader

variable {β γ : Type*}

/-- What is at the front, with the number of its bytes after the first. -/
inductive Piece (γ : Type*) where
  | text (t : List γ) (more : ℕ)
  | broken (more : ℕ)
deriving DecidableEq, Repr

end CharReader

open CharReader in
/-- Reads the piece that begins with a byte and may go on in those after it. -/
structure CharReader (β γ : Type*) where
  read : β → List β → Piece γ
  /-- a character is read by its own bytes -/
  stable : ∀ {b rest t n}, read b rest = .text t n →
    n ≤ rest.length ∧ ∀ tail, read b (rest.take n ++ tail) = .text t n

namespace CharReader

variable {r : CharReader β γ} {mark : List γ} {skip i j : ℕ} {b : β} {bytes rest front back : List β} {t s : List γ}

/-- The text of the bytes after the next `skip`, if all of it is characters. -/
def strictFrom (r : CharReader β γ) : ℕ → List β → Option (List γ)
  | _, [] => some []
  | skip + 1, _ :: rest => r.strictFrom skip rest
  | 0, b :: rest =>
    match r.read b rest with
    | .text t more => (r.strictFrom more rest).map (t ++ ·)
    | .broken _ => none

/-- The text of the bytes after the next `skip`, with marks for what is broken. -/
def replaceFrom (r : CharReader β γ) (mark : List γ) : ℕ → List β → List γ
  | _, [] => []
  | skip + 1, _ :: rest => r.replaceFrom mark skip rest
  | 0, b :: rest =>
    match r.read b rest with
    | .text t more => t ++ r.replaceFrom mark more rest
    | .broken more => mark ++ r.replaceFrom mark more rest

def strict (r : CharReader β γ) (bytes : List β) : Option (List γ) := r.strictFrom 0 bytes

def replace (r : CharReader β γ) (mark : List γ) (bytes : List β) : List γ := r.replaceFrom mark 0 bytes

/-- The place `i` is between two characters; the first `skip` bytes end the one before. -/
def cutsFrom (r : CharReader β γ) : ℕ → List β → ℕ → Bool
  | skip, _, 0 => skip = 0
  | _, [], _ + 1 => false
  | skip + 1, _ :: rest, i + 1 => r.cutsFrom skip rest i
  | 0, b :: rest, i + 1 =>
    match r.read b rest with
    | .text _ more => r.cutsFrom more rest i
    | .broken _ => false

/-- No character has bytes on both sides of the place `i`. -/
def Cuts (r : CharReader β γ) (bytes : List β) (i : ℕ) : Prop := r.cutsFrom 0 bytes i

instance : Decidable (r.Cuts bytes i) := inferInstanceAs (Decidable (_ = _))

/-! ## One character -/

/-- Skipped bytes are dropped. -/
theorem strictFrom_eq (skip : ℕ) (bytes : List β) : r.strictFrom skip bytes = r.strict (bytes.drop skip) := by
  induction skip generalizing bytes with
  | zero => rfl
  | succ skip ih =>
    cases bytes with
    | nil => rfl
    | cons b rest => exact ih rest

/-- Skipped bytes are dropped. -/
theorem replaceFrom_eq (skip : ℕ) (bytes : List β) :
    r.replaceFrom mark skip bytes = r.replace mark (bytes.drop skip) := by
  induction skip generalizing bytes with
  | zero => rfl
  | succ skip ih =>
    cases bytes with
    | nil => rfl
    | cons b rest => exact ih rest

/-- A cut behind skipped bytes. -/
theorem cutsFrom_add (skip : ℕ) (bytes : List β) (hskip : skip ≤ bytes.length) (i : ℕ) :
    r.cutsFrom skip bytes (skip + i) = r.cutsFrom 0 (bytes.drop skip) i := by
  induction skip generalizing bytes with
  | zero => rw [Nat.zero_add, List.drop_zero]
  | succ skip ih =>
    cases bytes with
    | nil => exact absurd hskip (Nat.not_succ_le_zero skip)
    | cons b rest =>
      rw [Nat.succ_add, cutsFrom]
      exact ih rest (Nat.le_of_succ_le_succ hskip)

/-- There is no cut inside a character. -/
theorem cutsFrom_of_lt (h : i < skip) (bytes : List β) : r.cutsFrom skip bytes i = false := by
  induction i generalizing skip bytes with
  | zero =>
    rw [cutsFrom]
    exact decide_eq_false (Nat.ne_of_gt h)
  | succ i ih =>
    cases bytes with
    | nil => rw [cutsFrom]
    | cons b rest =>
      obtain ⟨skip, rfl⟩ := Nat.exists_eq_succ_of_ne_zero (Nat.ne_of_gt (Nat.lt_of_le_of_lt (Nat.zero_le _) h))
      exact ih (Nat.lt_of_succ_lt_succ h) rest

@[simp] theorem strict_nil : r.strict [] = some [] := rfl

@[simp] theorem replace_nil : r.replace mark [] = [] := rfl

/-- The beginning is a cut. -/
theorem cuts_zero (bytes : List β) : r.Cuts bytes 0 := by
  unfold Cuts
  rw [cutsFrom]
  rfl

/-- A character, and what follows. -/
theorem strict_cons {more : ℕ} (h : r.read b rest = .text t more) :
    r.strict (b :: rest) = (r.strict (rest.drop more)).map (t ++ ·) := by
  rw [strict, strictFrom, h]
  dsimp only
  rw [strictFrom_eq]

theorem strict_cons_of_broken {more : ℕ} (h : r.read b rest = .broken more) : r.strict (b :: rest) = none := by
  rw [strict, strictFrom, h]

/-- A character, and what follows. -/
theorem replace_cons {more : ℕ} (h : r.read b rest = .text t more) :
    r.replace mark (b :: rest) = t ++ r.replace mark (rest.drop more) := by
  rw [replace, replaceFrom, h]
  dsimp only
  rw [replaceFrom_eq]

/-- A place after the first character is between two characters if it is so in the rest. -/
theorem cuts_cons {more : ℕ} (h : r.read b rest = .text t more) :
    r.Cuts (b :: rest) (i + 1) ↔ ∃ j, i = more + j ∧ r.Cuts (rest.drop more) j := by
  rw [Cuts, cutsFrom, h]
  dsimp only
  by_cases hle : more ≤ i
  · obtain ⟨j, rfl⟩ := Nat.exists_eq_add_of_le hle
    rw [cutsFrom_add more rest (r.stable h).1]
    refine ⟨fun hcuts => ⟨j, rfl, hcuts⟩, ?_⟩
    rintro ⟨k, hk, hcuts⟩
    rw [Nat.add_left_cancel hk]
    exact hcuts
  · rw [cutsFrom_of_lt (Nat.lt_of_not_le hle)]
    refine iff_of_false Bool.false_ne_true ?_
    rintro ⟨j, rfl, -⟩
    exact hle (Nat.le_add_right more j)

/-! ## Parts -/

/-- Reading a character off the front: the rest is shorter. -/
theorem induction_on {motive : List β → Prop} (nil : motive [])
    (text : ∀ b rest t more, r.read b rest = .text t more → motive (rest.drop more) → motive (b :: rest))
    (broken : ∀ b rest more, r.read b rest = .broken more → motive (b :: rest)) (bytes : List β) : motive bytes := by
  induction hlength : bytes.length using Nat.strongRecOn generalizing bytes with
  | _ n ih =>
    cases bytes with
    | nil => exact nil
    | cons b rest =>
      cases hread : r.read b rest with
      | text t more =>
        refine text b rest t more hread (ih _ ?_ _ rfl)
        rw [← hlength, List.length_drop, List.length_cons]
        omega
      | broken more => exact broken b rest more hread

/-- The first character of a part is the first of the whole. -/
theorem read_append {more : ℕ} (h : r.read b rest = .text t more) (back : List β) :
    r.read b (rest ++ back) = .text t more ∧ (rest ++ back).drop more = rest.drop more ++ back := by
  obtain ⟨hlength, htail⟩ := r.stable h
  refine ⟨?_, List.drop_append_of_le_length hlength⟩
  have hread := htail (rest.drop more ++ back)
  rw [← List.append_assoc, List.take_append_drop] at hread
  exact hread

/-- After characters, the rest is read as if it stood alone. -/
theorem strict_append (h : r.strict front = some t) (back : List β) :
    r.strict (front ++ back) = (r.strict back).map (t ++ ·) := by
  induction front using r.induction_on generalizing t with
  | nil =>
    obtain rfl := Option.some.inj h
    rw [List.nil_append]
    exact (congrFun Option.map_id _).symm
  | text b rest s more hread ih =>
    rw [strict_cons hread] at h
    obtain ⟨u, hu, rfl⟩ := Option.map_eq_some_iff.mp h
    obtain ⟨hwhole, hdrop⟩ := read_append hread back
    rw [List.cons_append, strict_cons hwhole, hdrop, ih hu, Option.map_map]
    simp only [Function.comp_def, List.append_assoc]
  | broken b rest more hread =>
    rw [strict_cons_of_broken hread] at h
    contradiction

/-- What can be read stays in front. -/
theorem replace_append (h : r.strict front = some t) (back : List β) :
    r.replace mark (front ++ back) = t ++ r.replace mark back := by
  induction front using r.induction_on generalizing t with
  | nil =>
    obtain rfl := Option.some.inj h
    rfl
  | text b rest s more hread ih =>
    rw [strict_cons hread] at h
    obtain ⟨u, hu, rfl⟩ := Option.map_eq_some_iff.mp h
    obtain ⟨hwhole, hdrop⟩ := read_append hread back
    rw [List.cons_append, replace_cons hwhole, hdrop, ih hu, List.append_assoc]
  | broken b rest more hread =>
    rw [strict_cons_of_broken hread] at h
    contradiction

/-- Where nothing is broken there are no marks. -/
theorem replace_eq (h : r.strict bytes = some t) : r.replace mark bytes = t := by
  have hwhole : r.replace mark (bytes ++ []) = t ++ r.replace mark [] := replace_append h []
  rw [List.append_nil, replace_nil, List.append_nil] at hwhole
  exact hwhole

/-- The end of a readable part is between two characters of the whole. -/
theorem cuts_append (h : (r.strict front).isSome) (back : List β) : r.Cuts (front ++ back) front.length := by
  induction front using r.induction_on with
  | nil => exact cuts_zero back
  | text b rest s more hread ih =>
    rw [strict_cons hread, Option.isSome_map] at h
    obtain ⟨hwhole, hdrop⟩ := read_append hread back
    refine (cuts_cons hwhole).mpr ⟨(rest.drop more).length, ?_, hdrop ▸ ih h⟩
    rw [List.length_drop, Nat.add_sub_cancel' (r.stable hread).1]
  | broken b rest more hread =>
    rw [strict_cons_of_broken hread] at h
    contradiction

/-- A readable sequence can be cut between two of its characters. -/
theorem isSome_strict_take (h : (r.strict bytes).isSome) (hcuts : r.Cuts bytes i) :
    (r.strict (bytes.take i)).isSome := by
  induction bytes using r.induction_on generalizing i with
  | nil =>
    rw [List.take_nil]
    exact h
  | text b rest s more hread ih =>
    cases i with
    | zero => rfl
    | succ i =>
      obtain ⟨j, rfl, hrest⟩ := (cuts_cons hread).mp hcuts
      obtain ⟨hlength, htail⟩ := r.stable hread
      rw [strict_cons hread, Option.isSome_map] at h
      have hfirst := htail ((rest.drop more).take j)
      have htake : (b :: rest).take (more + j + 1) = b :: (rest.take more ++ (rest.drop more).take j) := by
        rw [List.take_succ_cons, List.take_add]
      have hdrop : (rest.take more ++ (rest.drop more).take j).drop more = (rest.drop more).take j := by
        rw [List.drop_append, List.drop_take_self, List.length_take, Nat.min_eq_left hlength, Nat.sub_self]
        rfl
      rw [htake, strict_cons hfirst, hdrop, Option.isSome_map]
      exact ih h hrest
  | broken b rest more hread =>
    rw [strict_cons_of_broken hread] at h
    contradiction

/-- Both parts are readable if and only if the whole is, and it is cut between two characters. -/
theorem isSome_strict_append_iff :
    (r.strict front).isSome ∧ (r.strict back).isSome ↔
      (r.strict (front ++ back)).isSome ∧ r.Cuts (front ++ back) front.length := by
  constructor
  · rintro ⟨hfront, hback⟩
    refine ⟨?_, cuts_append hfront back⟩
    obtain ⟨t, ht⟩ := Option.isSome_iff_exists.mp hfront
    rw [strict_append ht, Option.isSome_map]
    exact hback
  · rintro ⟨hwhole, hcuts⟩
    have hfront := isSome_strict_take hwhole hcuts
    rw [List.take_left] at hfront
    obtain ⟨t, ht⟩ := Option.isSome_iff_exists.mp hfront
    rw [strict_append ht, Option.isSome_map] at hwhole
    exact ⟨hfront, hwhole⟩

/-- After a readable part, the places between characters are those of the rest. -/
theorem cuts_append_iff (h : (r.strict front).isSome) :
    r.Cuts (front ++ back) (front.length + i) ↔ r.Cuts back i := by
  induction front using r.induction_on with
  | nil => rw [List.nil_append, List.length_nil, Nat.zero_add]
  | text b rest s more hread ih =>
    rw [strict_cons hread, Option.isSome_map] at h
    obtain ⟨hwhole, hdrop⟩ := read_append hread back
    have hlength := (r.stable hread).1
    have hsplit : (b :: rest).length + i = (more + ((rest.drop more).length + i)) + 1 := by
      rw [List.length_cons, List.length_drop]
      omega
    rw [hsplit, List.cons_append, cuts_cons hwhole, hdrop, ← ih h]
    refine ⟨?_, fun hcuts => ⟨_, rfl, hcuts⟩⟩
    rintro ⟨j, hj, hcuts⟩
    rw [Nat.add_left_cancel hj]
    exact hcuts
  | broken b rest more hread =>
    rw [strict_cons_of_broken hread] at h
    contradiction

end CharReader
