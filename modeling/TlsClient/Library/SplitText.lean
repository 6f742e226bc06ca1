import Mathlib.Data.String.Basic
import Mathlib.Data.List.Basic

/-!
# Texts split at a character

`String.splitOn` with a separator of one character splits the list of the characters, and joining texts that do not
have the character can be undone.
-/

namespace SplitText

open String

variable {c : Char}

theorem get_singleton (c : Char) : Pos.Raw.get (singleton c) 0 = c := by
  have h := get_of_valid [] [c]
  simpa using h

theorem next_singleton (c : Char) : Pos.Raw.next (singleton c) 0 = ⟨c.utf8Size⟩ := by
  have h := next_of_valid [] c []
  simpa using h

/-- The search for a text of one character is that for the character. -/
theorem splitOnAux_singleton (s : String) (b i : Pos.Raw) (r : List String) :
    splitOnAux s (singleton c) b i 0 r = splitAux s (· == c) b i r := by
  induction b, i, r using splitAux.induct s (· == c) with
  | case1 b i r hend =>
    rw [splitOnAux, splitAux, if_pos hend, dif_pos hend]
  | case2 b i r hend _ hp i' ih =>
    -- the separator ends with the character that it begins with
    have hget : i.get s = c := by simpa using hp
    have hat : (Pos.Raw.next (singleton c) 0).atEnd (singleton c) = true := by
      rw [next_singleton]
      simp [Pos.Raw.atEnd]
    have hback : (i.next s).unoffsetBy (Pos.Raw.next (singleton c) 0) = i := by
      rw [next_singleton]
      simp [Pos.Raw.next, Pos.Raw.unoffsetBy, hget]
    rw [splitOnAux, splitAux, if_neg hend, dif_neg hend]
    dsimp only
    rw [hget, get_singleton, if_pos (beq_self_eq_true c), if_pos hat, if_pos (beq_self_eq_true c), hback]
    exact ih
  | case3 b i r hend _ hp ih =>
    have hback : i.unoffsetBy 0 = i := by simp [Pos.Raw.unoffsetBy]
    rw [splitOnAux, splitAux, if_neg hend, dif_neg hend]
    dsimp only
    rw [get_singleton, if_neg hp, if_neg hp, hback]
    exact ih

/-- A text is split at a character as its list is. -/
theorem splitOn_singleton (s : String) (c : Char) :
    s.splitOn (singleton c) = (s.toList.splitOn c).map ofList := by
  have hne : (singleton c == "") = false := by simp
  rw [splitOn, hne, if_neg Bool.false_ne_true, splitOnAux_singleton]
  exact splitToList_of_valid s (· == c)

/-- Lists of texts without the character are equal if they are when joined. -/
theorem intercalate_inj {l l' : List (List Char)} (hne : l ≠ []) (hne' : l' ≠ []) (hl : ∀ s ∈ l, c ∉ s)
    (hl' : ∀ s ∈ l', c ∉ s) :
    (singleton c).intercalate (l.map ofList) = (singleton c).intercalate (l'.map ofList) ↔ l = l' := by
  refine ⟨fun h => ?_, fun h => h ▸ rfl⟩
  have hjoined := congrArg toList h
  have hcancel : toList ∘ ofList = id := funext fun s => toList_ofList
  rw [toList_intercalate, toList_intercalate, toList_singleton, List.map_map, List.map_map, hcancel, List.map_id,
    List.map_id] at hjoined
  rw [← List.splitOn_intercalate c hl hne, ← List.splitOn_intercalate c hl' hne', hjoined]

end SplitText
