import Mathlib.Data.List.Infix

/-!
# Domain names

A domain name is the list of its labels, which are split off a text at its dots. A list of public suffixes says below
which names anybody can register a domain; the default rule makes every last label one. The registrable domain of a
name is its longest public suffix and the label before it. A name that is a public suffix itself has none.
-/

namespace DomainName

variable {α : Type*}

/-! ## Labels -/

section Labels

variable [BEq α] [LawfulBEq α] {dot : α} {name label before after : List α}

/-- A label has no dot. -/
theorem not_mem_of_mem_splitOn (hlabel : label ∈ name.splitOn dot) : dot ∉ label := by
  induction name generalizing label with
  | nil =>
    rw [List.splitOn_nil, List.mem_singleton] at hlabel
    rw [hlabel]
    exact List.not_mem_nil
  | cons b name ih =>
    rw [List.splitOn_cons_eq_if_modifyHead] at hlabel
    split_ifs at hlabel with hb
    · rcases List.mem_cons.mp hlabel with rfl | hmem
      · exact List.not_mem_nil
      · exact ih hmem
    · obtain ⟨first, rest, hsplit⟩ := List.exists_cons_of_ne_nil (List.splitOn_ne_nil dot name)
      rw [hsplit, List.modifyHead_cons] at hlabel
      rcases List.mem_cons.mp hlabel with rfl | hmem
      · intro hdot
        rcases List.mem_cons.mp hdot with rfl | hfirst
        · exact hb (beq_self_eq_true _)
        · exact ih (hsplit ▸ List.mem_cons_self) hfirst
      · exact ih (hsplit ▸ List.mem_cons_of_mem _ hmem)

/-- Two labels with a dot between them are split again. -/
theorem splitOn_pair (hbefore : dot ∉ before) (hafter : dot ∉ after) :
    (before ++ dot :: after).splitOn dot = [before, after] := by
  rw [List.splitOn_append_cons_self_of_not_mem hbefore, List.splitOn_eq_singleton hafter]

end Labels

/-! ## Public suffixes -/

/-- A list of public suffixes. -/
structure PublicSuffixes (α : Type*) where
  holds : List α → Prop
  last : ∀ label, holds [label]

variable {suffixes : PublicSuffixes α} {labels d d' : List α} {x y : α}

/-- `d` is the registrable domain of the name. -/
def Registrable (suffixes : PublicSuffixes α) (labels d : List α) : Prop :=
  ∃ label s, d = label :: s ∧ d <:+ labels ∧ suffixes.holds s ∧
    ∀ t, t <:+ labels → suffixes.holds t → t.length ≤ s.length

theorem eq_of_suffix_of_length {s t : List α} (hs : s <:+ labels) (ht : t <:+ labels) (h : s.length = t.length) :
    s = t :=
  (List.suffix_of_suffix_length_le hs ht h.le).eq_of_length h

/-- A name has one registrable domain. -/
theorem Registrable.unique (h : Registrable suffixes labels d) (h' : Registrable suffixes labels d') : d = d' := by
  obtain ⟨label, s, rfl, hd, hs, hlongest⟩ := h
  obtain ⟨label', s', rfl, hd', hs', hlongest'⟩ := h'
  have hsuffix : s <:+ labels := (List.suffix_cons label s).trans hd
  have hsuffix' : s' <:+ labels := (List.suffix_cons label' s').trans hd'
  refine eq_of_suffix_of_length hd hd' ?_
  have hle := hlongest' s hsuffix hs
  have hge := hlongest s' hsuffix' hs'
  rw [List.length_cons, List.length_cons]
  omega

/-- Of a name of up to three labels, the last two are the registrable domain, if it has one and they are no public
suffix. -/
theorem Registrable.eq_pair (h : Registrable suffixes labels d) (hpair : [x, y] <:+ labels)
    (hlength : labels.length ≤ 3) (hnot : ¬suffixes.holds [x, y]) : d = [x, y] := by
  obtain ⟨label, s, rfl, hd, hs, hlongest⟩ := h
  have hone : 1 ≤ s.length := hlongest [y] ((List.suffix_cons x [y]).trans hpair) (suffixes.last y)
  have hthree : s.length + 1 ≤ 3 := hd.length_le.trans hlength
  have htwo : s.length ≠ 2 := fun htwo => by
    rw [eq_of_suffix_of_length ((List.suffix_cons label s).trans hd) hpair htwo] at hs
    exact hnot hs
  refine eq_of_suffix_of_length hd hpair ?_
  rw [List.length_cons, List.length_cons, List.length_singleton]
  omega

/-- A name of two labels that are a public suffix has no registrable domain. -/
theorem not_registrable_pair (h : suffixes.holds [x, y]) : ¬Registrable suffixes [x, y] d := by
  rintro ⟨label, s, rfl, hd, -, hlongest⟩
  have hlength : s.length + 1 ≤ 2 := hd.length_le
  have hlong : 2 ≤ s.length := hlongest [x, y] (List.suffix_refl _) h
  omega

end DomainName
