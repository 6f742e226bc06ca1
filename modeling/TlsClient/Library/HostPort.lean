import TlsClient.Library.WireBytes

/-!
# Host and port

`Hostname` and `Port` of a `url.URL`, by its `Host`, and `JoinHostPort` and `SplitHostPort` of Go's `net`. A
host that holds a colon stands in brackets before its port. `Hostname` takes the brackets off and
`JoinHostPort` puts them on, also around a host that has its own.
-/

namespace HostPort

open WireBytes

def colon : UInt8 := 0x3a

def bracketOpen : UInt8 := 0x5b

def bracketClose : UInt8 := 0x5d

def isDigit (b : UInt8) : Bool := 0x30 ≤ b && b ≤ 0x39

/-- What stands before and after the last `c`. -/
def splitLast (c : UInt8) : Bytes → Option (Bytes × Bytes)
  | [] => none
  | b :: s =>
    match splitLast c s with
    | some (before, after) => some (b :: before, after)
    | none => if b = c then some ([], s) else none

/-- What stands before and after the first `c`. -/
def splitFirst (c : UInt8) : Bytes → Option (Bytes × Bytes)
  | [] => none
  | b :: s => if b = c then some ([], s) else (splitFirst c s).map fun (before, after) => (b :: before, after)

/-- The first half of `splitHostPort`: digits behind the last colon are the port. -/
def splitPort (hostPort : Bytes) : Bytes × Bytes :=
  match splitLast colon hostPort with
  | some (before, after) => if after.all isDigit then (before, after) else (hostPort, [])
  | none => (hostPort, [])

/-- The second half: brackets around a host go. -/
def unbracket (host : Bytes) : Bytes :=
  if host.head? = some bracketOpen ∧ host.getLast? = some bracketClose then host.tail.dropLast else host

/-- `splitHostPort` of `net/url`. -/
def splitHostPort (hostPort : Bytes) : Bytes × Bytes :=
  (unbracket (splitPort hostPort).1, (splitPort hostPort).2)

/-- `URL.Hostname`, by `URL.Host`. -/
def hostname (host : Bytes) : Bytes := (splitHostPort host).1

/-- `URL.Port`, by `URL.Host`. -/
def port (host : Bytes) : Bytes := (splitHostPort host).2

/-- `net.JoinHostPort` -/
def joinHostPort (host port : Bytes) : Bytes :=
  if colon ∈ host then bracketOpen :: (host ++ bracketClose :: colon :: port) else host ++ colon :: port

/-- `net.SplitHostPort` -/
def netSplitHostPort (hostport : Bytes) : Except String (Bytes × Bytes) :=
  match splitLast colon hostport with
  | none => .error "missing port in address"
  | some (front, port) =>
    if hostport.head? = some bracketOpen then
      match splitFirst bracketClose hostport with
      | none => .error "missing ']' in address"
      | some (before, after) =>
        if after = [] then .error "missing port in address"
        else if before.length + 1 ≠ front.length then
          if after.head? = some colon then .error "too many colons in address"
          else .error "missing port in address"
        else if bracketOpen ∈ hostport.tail then .error "unexpected '[' in address"
        else if bracketClose ∈ after then .error "unexpected ']' in address"
        else .ok (before.tail, port)
    else if colon ∈ front then .error "too many colons in address"
    else if bracketOpen ∈ hostport then .error "unexpected '[' in address"
    else if bracketClose ∈ hostport then .error "unexpected ']' in address"
    else .ok (front, port)

/-! ## The pieces of a host with a port -/

variable {c : UInt8} {s before after host digits : Bytes}

/-- Without the byte there is no split. -/
theorem splitLast_of_not_mem (h : c ∉ s) : splitLast c s = none := by
  induction s with
  | nil => rfl
  | cons b s ih =>
    rw [List.mem_cons, not_or] at h
    rw [splitLast, ih h.2]
    exact if_neg (Ne.symm h.1)

/-- The last such byte splits. -/
theorem splitLast_append (h : c ∉ after) : splitLast c (before ++ c :: after) = some (before, after) := by
  induction before with
  | nil =>
    rw [List.nil_append, splitLast, splitLast_of_not_mem h]
    exact if_pos rfl
  | cons b before ih =>
    rw [List.cons_append, splitLast, ih]

theorem not_isDigit_colon : isDigit colon = false := by decide

/-- Digits have no colon. -/
theorem colon_not_mem_of_digits (h : digits.all isDigit = true) : colon ∉ digits := fun hmem => by
  have hcolon := List.all_eq_true.mp h colon hmem
  rw [not_isDigit_colon] at hcolon
  contradiction

/-- The two sides of the last such byte. -/
theorem eq_of_splitLast (h : splitLast c s = some (before, after)) : s = before ++ c :: after := by
  induction s generalizing before with
  | nil => cases h
  | cons b s ih =>
    rw [splitLast] at h
    split at h
    · rename_i front back hs
      cases h
      rw [ih hs]
      rfl
    · split at h
      · rename_i hb
        cases h
        rw [hb]
        rfl
      · cases h

theorem not_isDigit_bracketClose : isDigit bracketClose = false := by decide

/-- There is no split exactly without the byte. -/
theorem splitFirst_eq_none_iff : splitFirst c s = none ↔ c ∉ s := by
  induction s with
  | nil => exact iff_of_true rfl List.not_mem_nil
  | cons b s ih =>
    rw [splitFirst, List.mem_cons, not_or]
    by_cases hb : b = c
    · rw [if_pos hb]
      exact iff_of_false (Option.some_ne_none _) fun h => h.1 hb.symm
    · rw [if_neg hb, Option.map_eq_none_iff, ih]
      exact (and_iff_right (Ne.symm hb)).symm

/-- The two sides of the first such byte. -/
theorem splitFirst_eq_some_iff : splitFirst c s = some (before, after) ↔ s = before ++ c :: after ∧ c ∉ before := by
  induction s generalizing before with
  | nil =>
    refine iff_of_false (Option.some_ne_none _).symm fun h => ?_
    exact List.append_ne_nil_of_right_ne_nil before (List.cons_ne_nil c after) h.1.symm
  | cons b s ih =>
    rw [splitFirst]
    split_ifs with hb
    · subst hb
      constructor
      · rintro ⟨⟩
        exact ⟨rfl, List.not_mem_nil⟩
      · rintro ⟨heq, hnot⟩
        -- a separator in front of `c` would have been found first
        cases before with
        | nil => rw [(List.cons.inj heq).2]
        | cons first before => exact absurd (List.mem_cons.mpr (.inl (List.cons.inj heq).1)) hnot
    · rw [Option.map_eq_some_iff]
      constructor
      · rintro ⟨⟨front, back⟩, hsplit, heq⟩
        cases heq
        obtain ⟨rfl, hnot⟩ := ih.mp hsplit
        refine ⟨rfl, fun hmem => ?_⟩
        rcases List.mem_cons.mp hmem with hc | hmem
        · exact hb hc.symm
        · exact hnot hmem
      · rintro ⟨heq, hnot⟩
        cases before with
        | nil => exact absurd (List.cons.inj heq).1 hb
        | cons first front =>
          obtain ⟨rfl, rfl⟩ := List.cons.inj heq
          exact ⟨(front, after), ih.mpr ⟨rfl, fun hmem => hnot (List.mem_cons_of_mem _ hmem)⟩, rfl⟩

/-- What is appended goes to the second side. -/
theorem splitFirst_append {t : Bytes} (h : splitFirst c s = some (before, after)) :
    splitFirst c (s ++ t) = some (before, after ++ t) := by
  obtain ⟨rfl, hnot⟩ := splitFirst_eq_some_iff.mp h
  exact splitFirst_eq_some_iff.mpr ⟨List.append_assoc _ _ _, hnot⟩

/-- The last such byte is in the second part, if there is one. -/
theorem splitLast_append_of_some {t : Bytes} (h : splitLast c t = some (before, after)) :
    splitLast c (s ++ t) = some (s ++ before, after) := by
  induction s with
  | nil => exact h
  | cons b s ih =>
    rw [List.cons_append, splitLast, ih]
    rfl

/-- Otherwise it is in the first part. -/
theorem splitLast_append_of_none {t : Bytes} (h : splitLast c t = none) :
    splitLast c (s ++ t) = (splitLast c s).map fun split => (split.1, split.2 ++ t) := by
  induction s with
  | nil => exact h
  | cons b s ih =>
    rw [List.cons_append, splitLast, ih, splitLast]
    cases splitLast c s with
    | some split => rfl
    | none =>
      dsimp only [Option.map_none]
      split_ifs <;> rfl

/-- A port stands behind the last byte that is no digit. -/
theorem splitPort_append {t : Bytes} {b : UInt8} (hdigit : isDigit b = false) (hcolon : b ≠ colon) :
    (splitPort (s ++ b :: t)).1 = s ++ b :: (splitPort t).1 := by
  rw [splitPort, splitPort]
  cases hsplit : splitLast colon t with
  | some split =>
    obtain ⟨before, after⟩ := split
    have hcons : splitLast colon (b :: t) = some (b :: before, after) := by rw [splitLast, hsplit]
    rw [splitLast_append_of_some hcons]
    dsimp only
    split_ifs <;> rfl
  | none =>
    have htail : splitLast colon (b :: t) = none := by
      rw [splitLast, hsplit]
      exact if_neg hcolon
    rw [splitLast_append_of_none htail]
    cases splitLast colon s with
    | none => rfl
    | some split =>
      have hnot : (split.2 ++ b :: t).all isDigit = false := by
        rw [List.all_append, List.all_cons, hdigit, Bool.false_and, Bool.and_false]
      dsimp only [Option.map_some]
      rw [hnot]
      rfl

/-- What stands before the port is the beginning of the text. -/
theorem splitPort_isPrefix : (splitPort s).1 <+: s := by
  rw [splitPort]
  cases hsplit : splitLast colon s with
  | none => exact List.prefix_refl s
  | some split =>
    dsimp only
    split_ifs
    · exact ⟨_, (eq_of_splitLast hsplit).symm⟩
    · exact List.prefix_refl s

/-- Digits behind the last colon are a port, also none at all. -/
theorem splitPort_port (h : digits.all isDigit = true) : splitPort (host ++ colon :: digits) = (host, digits) := by
  rw [splitPort, splitLast_append (colon_not_mem_of_digits h)]
  exact if_pos h

/-- A host without a colon has no port. -/
theorem splitPort_name (h : colon ∉ host) : splitPort host = (host, []) := by
  rw [splitPort, splitLast_of_not_mem h]

/-- A literal in brackets has no port: what stands behind its last colon ends with the bracket. -/
theorem splitPort_bracketed :
    splitPort (bracketOpen :: (s ++ [bracketClose])) = (bracketOpen :: (s ++ [bracketClose]), []) := by
  rw [splitPort]
  cases hsplit : splitLast colon (bracketOpen :: (s ++ [bracketClose])) with
  | none => rfl
  | some split =>
    obtain ⟨before, after⟩ := split
    have heq := eq_of_splitLast hsplit
    have hlast : after.getLast? = some bracketClose ∨ after = [] := by
      rcases List.eq_nil_or_concat after with rfl | ⟨front, b, rfl⟩
      · exact .inr rfl
      · have hend := congrArg List.getLast? heq
        rw [List.concat_eq_append, ← List.cons_append, ← List.cons_append, ← List.append_assoc,
          List.getLast?_concat, List.getLast?_concat] at hend
        exact .inl (by rw [List.concat_eq_append, List.getLast?_concat, Option.some.inj hend])
    rcases hlast with hlast | rfl
    · have hnot : after.all isDigit ≠ true := fun hall => by
        have hdigit := List.all_eq_true.mp hall bracketClose (List.mem_of_getLast? hlast)
        rw [not_isDigit_bracketClose] at hdigit
        contradiction
      exact if_neg hnot
    · have hend := congrArg List.getLast? heq
      rw [← List.cons_append, List.getLast?_concat, List.getLast?_concat] at hend
      exact absurd (Option.some.inj hend) (by decide)

/-- A host without a bracket is left as it is. -/
theorem unbracket_of_not_mem (h : bracketOpen ∉ host) : unbracket host = host := by
  rw [unbracket, if_neg]
  rintro ⟨hhead, -⟩
  exact h (List.mem_of_mem_head? hhead)

/-- The brackets are taken off. -/
theorem unbracket_bracketed : unbracket (bracketOpen :: (s ++ [bracketClose])) = s := by
  have hlast : (bracketOpen :: (s ++ [bracketClose])).getLast? = some bracketClose := by
    rw [← List.cons_append, List.getLast?_concat]
  rw [unbracket, if_pos ⟨rfl, hlast⟩]
  exact List.dropLast_concat

end HostPort
