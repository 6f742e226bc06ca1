import Mathlib.Data.List.Nodup
import Mathlib.Data.List.Induction

/-!
# Lists with keys

A list whose elements have keys, read as a store: `get` finds the element of a key. Two ways of writing
elements into a store keep the keys distinct: `overwrite` prefers the new elements and `supplement` those
that are there. `last` is the element that a key is left with when the elements are written one by one.
-/

namespace KeyedList

variable {α κ : Type*} [DecidableEq κ] (f : α → κ)

/-- The keys are distinct. -/
def Distinct (l : List α) : Prop := (l.map f).Nodup

/-- The element of a key. -/
def get (k : κ) (l : List α) : Option α := l.find? fun a => f a = k

/-- The last element of a key. -/
def last (k : κ) (l : List α) : Option α := get f k l.reverse

/-- The elements whose key the other list does not have. -/
def without (other l : List α) : List α :=
  l.filter fun a => ¬ other.any fun b => f a = f b

/-- New elements take the place of those with their keys. -/
def overwrite (old new : List α) : List α := without f new old ++ new

/-- New elements are added where their key is missing. -/
def supplement (old new : List α) : List α := old ++ without f old new

variable {f} {k : κ} {a : α} {l old new other : List α}

/-! ## Finding the element of a key -/

omit [DecidableEq κ] in
@[simp] theorem distinct_nil : Distinct f [] := List.nodup_nil

@[simp] theorem get_nil : get f k [] = none := rfl

@[simp] theorem last_nil : last f k [] = none := rfl

theorem key_of_get (hget : get f k l = some a) : f a = k := by
  simpa using List.find?_some hget

/-- Nothing is found exactly if nothing has the key. -/
theorem get_eq_none_iff : get f k l = none ↔ ∀ a ∈ l, f a ≠ k := by
  simp [get]

/-- Among distinct keys, what is found is the element with the key. -/
theorem get_eq_some_iff (hl : Distinct f l) : get f k l = some a ↔ a ∈ l ∧ f a = k := by
  constructor
  · exact fun hget => ⟨List.mem_of_find?_eq_some hget, key_of_get hget⟩
  · rintro ⟨hmem, hk⟩
    cases hget : get f k l with
    | none => exact absurd hk (get_eq_none_iff.mp hget a hmem)
    | some b =>
      have hb : f b = f a := (key_of_get hget).trans hk.symm
      rw [List.inj_on_of_nodup_map hl (List.mem_of_find?_eq_some hget) hmem hb]

/-- Among distinct keys there is at most one element with the key. -/
theorem filter_eq_toList_get (hl : Distinct f l) : l.filter (fun a => f a = k) = (get f k l).toList := by
  induction l with
  | nil => rfl
  | cons a l ih =>
    rw [Distinct, List.map_cons, List.nodup_cons] at hl
    by_cases hk : f a = k
    · have hrest : l.filter (fun b => f b = k) = [] := by
        refine List.filter_eq_nil_iff.mpr fun b hb heq => hl.1 ?_
        exact List.mem_map.mpr ⟨b, hb, (of_decide_eq_true heq).trans hk.symm⟩
      rw [List.filter_cons_of_pos (by simpa using hk), hrest, get, List.find?_cons_of_pos (by simpa using hk)]
      rfl
    · rw [List.filter_cons_of_neg (by simpa using hk), ih hl.2, get, get, List.find?_cons_of_neg (by simpa using hk)]

/-- Among distinct keys the order does not matter. -/
theorem get_perm {l' : List α} (hperm : l.Perm l') (hl : Distinct f l) : get f k l = get f k l' := by
  have hl' : Distinct f l' := (hperm.map f).nodup_iff.mp hl
  refine Option.ext fun a => ?_
  rw [get_eq_some_iff hl, get_eq_some_iff hl', hperm.mem_iff]

theorem get_append (l₁ l₂ : List α) : get f k (l₁ ++ l₂) = (get f k l₁).or (get f k l₂) :=
  List.find?_append

theorem last_append (l₁ l₂ : List α) : last f k (l₁ ++ l₂) = (last f k l₂).or (last f k l₁) := by
  rw [last, List.reverse_append, get_append, last, last]

/-- The first element goes first. -/
theorem get_cons (a : α) (l : List α) : get f k (a :: l) = if f a = k then some a else get f k l := by
  rw [get, List.find?_cons]
  by_cases h : f a = k
  · rw [if_pos h, decide_eq_true h]
  · rw [if_neg h, decide_eq_false h, get]

/-- From behind, the first element goes last. -/
theorem last_cons (a : α) (l : List α) :
    last f k (a :: l) = (last f k l).or (if f a = k then some a else none) := by
  have h := last_append (f := f) (k := k) [a] l
  rw [List.singleton_append] at h
  rw [h, last, last, List.reverse_singleton, get_cons, get_nil]

/-- What is found in a mapped list is mapped. -/
theorem last_map {β : Type*} (g : β → α) (l : List β) :
    last f k (l.map g) = (last (fun b => f (g b)) k l).map g := by
  rw [last, last, get, get, ← List.map_reverse, List.find?_map]
  rfl

theorem key_of_last (hlast : last f k l = some a) : f a = k :=
  key_of_get hlast

theorem mem_of_last (hlast : last f k l = some a) : a ∈ l :=
  List.mem_reverse.mp (List.mem_of_find?_eq_some hlast)

/-- Nothing is found from behind exactly if nothing has the key. -/
theorem last_eq_none_iff : last f k l = none ↔ ∀ a ∈ l, f a ≠ k := by
  simp [last, get_eq_none_iff]

/-- The last element of its key has none after it. -/
theorem last_eq_some_iff : last f k l = some a ↔
    f a = k ∧ ∃ l₁ l₂, l = l₁ ++ a :: l₂ ∧ ∀ b ∈ l₂, f b ≠ k := by
  induction l using List.reverseRecOn with
  | nil => simp
  | append_singleton l b ih =>
    by_cases hb : f b = k
    · have hlast : last f k [b] = some b := by simp [last, get, hb]
      rw [last_append, hlast, Option.some_or, Option.some_inj]
      constructor
      · rintro rfl
        exact ⟨hb, l, [], rfl, by simp⟩
      · rintro ⟨-, l₁, l₂, heq, hl₂⟩
        -- nothing may stand after `a`, so it is the last element
        rcases List.eq_nil_or_concat l₂ with rfl | ⟨l₂, c, rfl⟩
        · exact (List.append_inj' heq rfl).2 |> List.singleton_inj.mp
        · rw [List.concat_eq_append, ← List.cons_append, ← List.append_assoc] at heq
          obtain rfl := List.singleton_inj.mp (List.append_inj' heq rfl).2
          exact absurd hb (hl₂ b (by simp))
    · have hlast : last f k [b] = none := by simp [last, get, hb]
      rw [last_append, hlast, Option.none_or, ih]
      refine and_congr_right fun ha => ⟨?_, ?_⟩
      · rintro ⟨l₁, l₂, rfl, hl₂⟩
        refine ⟨l₁, l₂ ++ [b], by simp, fun c hc => ?_⟩
        rcases List.mem_append.mp hc with hc | hc
        · exact hl₂ c hc
        · exact List.mem_singleton.mp hc ▸ hb
      · rintro ⟨l₁, l₂, heq, hl₂⟩
        rcases List.eq_nil_or_concat l₂ with rfl | ⟨l₂, c, rfl⟩
        · obtain rfl := List.singleton_inj.mp (List.append_inj' heq rfl).2
          exact absurd ha hb
        · rw [List.concat_eq_append, ← List.cons_append, ← List.append_assoc] at heq
          exact ⟨l₁, l₂, (List.append_inj' heq rfl).1, fun d hd => hl₂ d (by simp [hd])⟩

/-- The last element of its key stays that if it stays at all. -/
theorem last_filter {p : α → Bool} (hlast : last f k l = some a) (ha : p a = true) : last f k (l.filter p) = some a := by
  obtain ⟨hk, l₁, l₂, rfl, hl₂⟩ := last_eq_some_iff.mp hlast
  refine last_eq_some_iff.mpr ⟨hk, l₁.filter p, l₂.filter p, ?_, fun b hb => hl₂ b (List.mem_filter.mp hb).1⟩
  rw [List.filter_append, List.filter_cons_of_pos ha]

/-! ## Writing -/

/-- The elements whose keys the other list does not have. -/
theorem mem_without : a ∈ without f other l ↔ a ∈ l ∧ ∀ b ∈ other, f b ≠ f a := by
  rw [without, List.mem_filter]
  simp only [List.any_eq_true, decide_eq_true_eq, not_exists, not_and]
  exact and_congr_right fun _ => forall₂_congr fun b _ => not_congr eq_comm

theorem distinct_without (hl : Distinct f l) : Distinct f (without f other l) :=
  (List.filter_sublist.map f).nodup hl

/-- An element is left if the other list has none of its key. -/
theorem get_without : get f k (without f other l) = if get f k other = none then get f k l else none := by
  split_ifs with hother
  · rw [get, get, without, List.find?_filter]
    refine congrArg (fun p => l.find? p) (funext fun a => ?_)
    by_cases ha : f a = k
    · have hnone := get_eq_none_iff.mp hother
      simpa [ha] using fun b hb => (hnone b hb).symm
    · simp [ha]
  · obtain ⟨b, hb⟩ := Option.ne_none_iff_exists'.mp hother
    rw [get_eq_none_iff]
    intro a ha heq
    exact (mem_without.mp ha).2 b (List.mem_of_find?_eq_some hb) ((key_of_get hb).trans heq.symm)

/-- Distinct keys stay distinct under an overwrite. -/
theorem distinct_overwrite (hold : Distinct f old) (hnew : Distinct f new) : Distinct f (overwrite f old new) := by
  rw [Distinct, overwrite, List.map_append, List.nodup_append']
  refine ⟨distinct_without hold, hnew, ?_⟩
  intro key hkold hknew
  obtain ⟨a, ha, rfl⟩ := List.mem_map.mp hkold
  obtain ⟨b, hb, hkey⟩ := List.mem_map.mp hknew
  exact (mem_without.mp ha).2 b hb hkey

/-- Distinct keys stay distinct under a supplement. -/
theorem distinct_supplement (hold : Distinct f old) (hnew : Distinct f new) : Distinct f (supplement f old new) := by
  rw [Distinct, supplement, List.map_append, List.nodup_append']
  refine ⟨hold, distinct_without hnew, ?_⟩
  intro key hkold hknew
  obtain ⟨a, ha, hkey⟩ := List.mem_map.mp hkold
  obtain ⟨b, hb, rfl⟩ := List.mem_map.mp hknew
  exact (mem_without.mp hb).2 a ha hkey

/-- The new element goes first. -/
theorem get_overwrite (old new : List α) : get f k (overwrite f old new) = (get f k new).or (get f k old) := by
  rw [overwrite, get_append, get_without]
  cases get f k new with
  | none => rw [if_pos rfl, Option.or_none, Option.none_or]
  | some b => rw [if_neg (Option.some_ne_none b), Option.none_or, Option.some_or]

/-- The old element goes first. -/
theorem get_supplement (old new : List α) : get f k (supplement f old new) = (get f k old).or (get f k new) := by
  rw [supplement, get_append, get_without]
  cases get f k old with
  | none => rw [if_pos rfl]
  | some b => rw [Option.some_or, Option.some_or]

end KeyedList
