import Mathlib.Data.List.Infix

/-!
# Unique decoding of tagged concatenations

A text is built from a fixed sequence of fields. Each field has a tag and some bodies, and contributes
its tag and a body for every body, with nothing escaped and nothing else in between. A field of count
`one` has exactly one body; a field of count `many` may have any number, also none.

`render_injective` is when such a text determines the bodies: no body contains a tag that can come right
after it, and the tags that can follow one another in one place are told apart by their first letters
(`WellFormed`, which is decidable and depends on the tags only). The first `skip` letters of a body are
exempt, for fields whose bodies start with a letter of a tag.
-/

namespace Tagged

variable {β : Type*}

/-- How many bodies a field has. -/
inductive Count where
  | one
  | many
deriving DecidableEq, Repr

/-- A field of the text. -/
structure Field (β : Type*) where
  tag : List β
  count : Count
  skip : ℕ := 0

/-- The tags with which the text of the fields can start. -/
def first : List (Field β) → List (List β)
  | [] => []
  | f :: fields =>
    match f.count with
    | .one => [f.tag]
    | .many => f.tag :: first fields

/-- The tags that can come after a body of `f`, when `fields` are still to come. -/
def follow (f : Field β) (fields : List (Field β)) : List (List β) :=
  match f.count with
  | .one => first fields
  | .many => f.tag :: first fields

/-- The text of one field. -/
def renderField (f : Field β) (bodies : List (List β)) : List β :=
  bodies.flatMap fun body => f.tag ++ body

/-- The text of all fields. -/
def render : List (Field β) → List (List (List β)) → List β
  | f :: fields, bodies :: rest => renderField f bodies ++ render fields rest
  | _, _ => []

/-- No tag continues with a letter that starts a tag, so two tags never overlap. -/
def Separators (tags : List (List β)) : Prop :=
  ∀ τ ∈ tags, τ ≠ [] ∧ ∀ σ ∈ tags, ∀ d ∈ σ.head?, d ∉ τ.tail

/-- The tags tell at every place which field goes on. -/
def WellFormed : List (Field β) → Prop
  | [] => True
  | f :: fields =>
    Separators (follow f fields) ∧
      (f.count = .many → ∀ τ ∈ first fields, ¬ f.tag <+: τ ∧ ¬ τ <+: f.tag) ∧ WellFormed fields

/-- A body that contains none of the tags, apart from its first `skip` letters. -/
def Free (tags : List (List β)) (skip : ℕ) (body : List β) : Prop :=
  skip ≤ body.length ∧ ∀ τ ∈ tags, ¬ τ <:+: body.drop skip

/-- Bodies that fit their fields: the right number of them, and free of the tags that follow. -/
def Fits : List (Field β) → List (List (List β)) → Prop
  | [], [] => True
  | f :: fields, bodies :: rest =>
    (f.count = .one → bodies.length = 1) ∧
      (∀ body ∈ bodies, Free (follow f fields) f.skip body) ∧ Fits fields rest
  | _, _ => False

section Decidable

variable [DecidableEq β]

instance (tags : List (List β)) : Decidable (Separators tags) :=
  inferInstanceAs (Decidable (∀ τ ∈ tags, τ ≠ [] ∧ ∀ σ ∈ tags, ∀ d ∈ σ.head?, d ∉ τ.tail))

instance decidableWellFormed : ∀ fields : List (Field β), Decidable (WellFormed fields)
  | [] => isTrue trivial
  | f :: fields =>
    haveI : Decidable (WellFormed fields) := decidableWellFormed fields
    inferInstanceAs (Decidable (Separators (follow f fields) ∧
      (f.count = .many → ∀ τ ∈ first fields, ¬ f.tag <+: τ ∧ ¬ τ <+: f.tag) ∧ WellFormed fields))

instance (tags : List (List β)) (skip : ℕ) (body : List β) : Decidable (Free tags skip body) :=
  inferInstanceAs (Decidable (skip ≤ body.length ∧ ∀ τ ∈ tags, ¬ τ <:+: body.drop skip))

instance decidableFits : ∀ (fields : List (Field β)) (bodies : List (List (List β))),
    Decidable (Fits fields bodies)
  | [], [] => isTrue trivial
  | f :: fields, bodies :: rest =>
    haveI : Decidable (Fits fields rest) := decidableFits fields rest
    inferInstanceAs (Decidable ((f.count = .one → bodies.length = 1) ∧
      (∀ body ∈ bodies, Free (follow f fields) f.skip body) ∧ Fits fields rest))
  | [], _ :: _ => isFalse fun h => h
  | _ :: _, [] => isFalse fun h => h

end Decidable

/-- The text ends here or goes on with one of the tags. -/
def Starts (tags : List (List β)) (t : List β) : Prop :=
  t = [] ∨ ∃ τ ∈ tags, τ <+: t

variable {tags : List (List β)} {f : Field β} {fields : List (Field β)} {s s' t t' : List β}
  {skip : ℕ}

/-- What starts with one of the tags starts with one of more tags. -/
theorem Starts.mono {tags' : List (List β)} (hstarts : Starts tags t) (hsub : tags ⊆ tags') :
    Starts tags' t := by
  rcases hstarts with hnil | ⟨τ, hτ, hpre⟩
  · exact .inl hnil
  · exact .inr ⟨τ, hsub hτ, hpre⟩

/-- A longer body would contain the tag that comes after the shorter one. -/
private theorem length_le_of_append_eq (hsep : Separators tags) (hs : Free tags skip s)
    (hs' : Free tags skip s') (ht : Starts tags t) (ht' : Starts tags t')
    (heq : s ++ t = s' ++ t') : s'.length ≤ s.length := by
  by_contra hlong
  obtain ⟨u, rfl, rfl⟩ : ∃ u, s' = s ++ u ∧ t = u ++ t' := by
    rcases List.append_eq_append_iff.mp heq with ⟨u, h1, h2⟩ | ⟨u, h1, h2⟩
    · exact ⟨u, h1, h2⟩
    · rw [h1, List.length_append] at hlong
      omega
  have hu : u ≠ [] := by
    rintro rfl
    simp at hlong
  rcases ht with hnil | ⟨τ, hτ, hpre⟩
  · exact hu (List.append_eq_nil_iff.mp hnil).1
  have hinside : ¬ τ <+: u := fun hin => by
    refine hs'.2 τ hτ ?_
    rw [List.drop_append_of_le_length hs.1]
    exact hin.isInfix.trans (List.suffix_append _ _).isInfix
  rcases List.prefix_or_prefix_of_prefix hpre (List.prefix_append u t') with hin | hover
  · exact hinside hin
  -- otherwise the tag starts inside the longer body and runs into the tag after it
  obtain ⟨v, rfl⟩ := hover
  have hv : v <+: t' := (List.prefix_append_right_inj u).mp hpre
  cases v with
  | nil => exact hinside (by simp)
  | cons d w =>
    have hd : d ∈ (u ++ d :: w).tail := by
      obtain ⟨c, u', rfl⟩ := List.exists_cons_of_ne_nil hu
      simp
    rcases ht' with rfl | ⟨σ, hσ, hpre'⟩
    · simp at hv
    · have hhead : d ∈ σ.head? := by
        obtain ⟨c, σ', rfl⟩ := List.exists_cons_of_ne_nil (hsep σ hσ).1
        obtain ⟨x, rfl⟩ := hv
        have hcd : c = d := (List.cons_prefix_cons.mp hpre').1
        simp [hcd]
      exact (hsep _ hτ).2 σ hσ d hhead hd

/-- A body free of the tags that can follow it ends where the first of them starts. -/
theorem append_inj_of_free (hsep : Separators tags) (hs : Free tags skip s)
    (hs' : Free tags skip s') (ht : Starts tags t) (ht' : Starts tags t')
    (heq : s ++ t = s' ++ t') : s = s' ∧ t = t' := by
  refine List.append_inj heq (le_antisymm ?_ ?_)
  · exact length_le_of_append_eq hsep hs' hs ht' ht heq.symm
  · exact length_le_of_append_eq hsep hs hs' ht ht' heq

/-- A field starts with its tag, or with what follows. -/
theorem starts_renderField (hmany : f.count = .many) (bodies : List (List β))
    (ht : Starts (first fields) t) : Starts (follow f fields) (renderField f bodies ++ t) := by
  have hfollow : follow f fields = f.tag :: first fields := by simp [follow, hmany]
  rw [hfollow]
  cases bodies with
  | nil => exact ht.mono (List.subset_cons_self _ _)
  | cons body rest =>
    refine .inr ⟨f.tag, List.mem_cons_self, ?_⟩
    simp [renderField]

/-- The text of the fields starts with one of their tags. -/
theorem starts_render {bodies : List (List (List β))} (hfits : Fits fields bodies) :
    Starts (first fields) (render fields bodies) := by
  induction fields generalizing bodies with
  | nil => exact .inl (by simp [render])
  | cons f fields ih =>
    cases bodies with
    | nil => exact absurd hfits id
    | cons b rest =>
      obtain ⟨hone, -, hrest⟩ := hfits
      cases hcount : f.count with
      | many =>
        have hstarts := starts_renderField hcount b (ih hrest)
        simpa [first, follow, hcount, render] using hstarts
      | one =>
        obtain ⟨body, rfl⟩ := List.length_eq_one_iff.mp (hone hcount)
        refine .inr ⟨f.tag, by simp [first, hcount], ?_⟩
        simp [render, renderField]

/-- The text of one repeated field, and where it ends, determine its bodies. -/
private theorem renderField_many_inj (hmany : f.count = .many)
    (hsep : Separators (follow f fields))
    (hcomp : ∀ τ ∈ first fields, ¬ f.tag <+: τ ∧ ¬ τ <+: f.tag) {b c : List (List β)}
    (hb : ∀ body ∈ b, Free (follow f fields) f.skip body)
    (hc : ∀ body ∈ c, Free (follow f fields) f.skip body)
    (ht : Starts (first fields) t) (ht' : Starts (first fields) t')
    (heq : renderField f b ++ t = renderField f c ++ t') : b = c ∧ t = t' := by
  have htag : f.tag ≠ [] := (hsep f.tag (by simp [follow, hmany])).1
  -- a further body cannot stand where the other text has ended
  have hend : ∀ {body : List β} {rest : List (List β)} {u u' : List β},
      Starts (first fields) u → u ≠ renderField f (body :: rest) ++ u' := by
    rintro body rest u u' hu rfl
    have hpre : f.tag <+: renderField f (body :: rest) ++ u' := by simp [renderField]
    rcases hu with hnil | ⟨τ, hτ, hpre'⟩
    · simp [renderField, htag] at hnil
    · rcases List.prefix_or_prefix_of_prefix hpre hpre' with h | h
      · exact (hcomp τ hτ).1 h
      · exact (hcomp τ hτ).2 h
  induction b generalizing c with
  | nil =>
    cases c with
    | nil => exact ⟨rfl, by simpa [renderField] using heq⟩
    | cons y ys => exact absurd heq (hend ht)
  | cons x xs ih =>
    cases c with
    | nil => exact absurd heq.symm (hend ht')
    | cons y ys =>
      have hcancel : x ++ (renderField f xs ++ t) = y ++ (renderField f ys ++ t') := by
        simpa [renderField, List.append_assoc] using heq
      obtain ⟨rfl, hrest⟩ := append_inj_of_free hsep (hb x List.mem_cons_self)
        (hc y List.mem_cons_self) (starts_renderField hmany xs ht)
        (starts_renderField hmany ys ht') hcancel
      obtain ⟨rfl, htt⟩ := ih (fun z hz => hb z (List.mem_cons_of_mem _ hz))
        (fun z hz => hc z (List.mem_cons_of_mem _ hz)) hrest
      exact ⟨rfl, htt⟩

/-- Texts of well-formed fields determine the bodies that fit them. -/
theorem render_injective {bs cs : List (List (List β))} (hwf : WellFormed fields)
    (hbs : Fits fields bs) (hcs : Fits fields cs) (heq : render fields bs = render fields cs) :
    bs = cs := by
  induction fields generalizing bs cs with
  | nil =>
    cases bs with
    | nil =>
      cases cs with
      | nil => rfl
      | cons c cs => exact absurd hcs id
    | cons b bs => exact absurd hbs id
  | cons f fields ih =>
    obtain ⟨hsep, hcomp, hwf'⟩ := hwf
    cases bs with
    | nil => exact absurd hbs id
    | cons b bs =>
      cases cs with
      | nil => exact absurd hcs id
      | cons c cs =>
        obtain ⟨honeb, hfreeb, hfitb⟩ := hbs
        obtain ⟨honec, hfreec, hfitc⟩ := hcs
        have hstartb := starts_render hfitb
        have hstartc := starts_render hfitc
        simp only [render] at heq
        -- the bodies of the first field are found by its tag, which none of them contains
        obtain ⟨rfl, hrest⟩ : b = c ∧ render fields bs = render fields cs := by
          cases hcount : f.count with
          | many =>
            exact renderField_many_inj hcount hsep (hcomp hcount) hfreeb hfreec hstartb hstartc heq
          | one =>
            obtain ⟨x, rfl⟩ := List.length_eq_one_iff.mp (honeb hcount)
            obtain ⟨y, rfl⟩ := List.length_eq_one_iff.mp (honec hcount)
            have hfollow : follow f fields = first fields := by simp [follow, hcount]
            rw [hfollow] at hsep hfreeb hfreec
            have hcancel : x ++ render fields bs = y ++ render fields cs := by
              simpa [renderField, List.append_assoc] using heq
            obtain ⟨rfl, hrest⟩ := append_inj_of_free hsep (hfreeb x List.mem_cons_self)
              (hfreec y List.mem_cons_self) hstartb hstartc hcancel
            exact ⟨rfl, hrest⟩
        rw [ih hwf' hfitb hfitc hrest]

/-- Fields behind fields. -/
theorem render_append {gs : List (Field β)} {bs cs : List (List (List β))}
    (hlen : fields.length = bs.length) :
    render (fields ++ gs) (bs ++ cs) = render fields bs ++ render gs cs := by
  induction fields generalizing bs with
  | nil =>
    rw [List.length_eq_zero_iff.mp hlen.symm]
    simp [render]
  | cons f fields ih =>
    cases bs with
    | nil => simp at hlen
    | cons b bs => simp [render, ih (by simpa using hlen), List.append_assoc]

/-! ## Fitting one field -/

/-- A single field in front. -/
theorem fits_one {tag : List β} {body : List β} {bs : List (List (List β))}
    (hfree : Free (first fields) skip body) (hrest : Fits fields bs) :
    Fits (⟨tag, .one, skip⟩ :: fields) ([body] :: bs) :=
  ⟨fun _ => rfl, fun b hb => by rwa [List.mem_singleton.mp hb], hrest⟩

/-- A repeated field in front. -/
theorem fits_many {tag : List β} {b : List (List β)} {bs : List (List (List β))}
    (hfree : ∀ body ∈ b, Free (tag :: first fields) skip body) (hrest : Fits fields bs) :
    Fits (⟨tag, .many, skip⟩ :: fields) (b :: bs) :=
  ⟨fun h => Count.noConfusion h, hfree, hrest⟩

/-- A body without any of some letters is free of the tags that have such a letter. -/
theorem free_of_notMem {marks : List β} (htags : ∀ τ ∈ tags, ∃ d ∈ marks, d ∈ τ)
    (hs : ∀ d ∈ marks, d ∉ s) : Free tags 0 s := by
  refine ⟨Nat.zero_le _, fun τ hτ hin => ?_⟩
  obtain ⟨d, hd, hmem⟩ := htags τ hτ
  exact hs d hd (hin.subset hmem)

/-! ## One-letter separators -/

section Separator

variable {d : β} {x y : List β}

/-- A letter that neither text has before it separates them at its first place. -/
theorem split_first (hx : d ∉ x) (hy : d ∉ y) (heq : x ++ d :: s = y ++ d :: t) : x = y ∧ s = t := by
  induction x generalizing y with
  | nil =>
    cases y with
    | nil => exact ⟨rfl, (List.cons.inj heq).2⟩
    | cons c y =>
      have hc : d = c := (List.cons.inj heq).1
      exact absurd (hc ▸ List.mem_cons_self) hy
  | cons c x ih =>
    cases y with
    | nil =>
      have hc : c = d := (List.cons.inj heq).1
      exact absurd (hc ▸ List.mem_cons_self) hx
    | cons c' y =>
      obtain ⟨hcc, hrest⟩ := List.cons.inj heq
      obtain ⟨hxy, hst⟩ := ih (fun h => hx (List.mem_cons_of_mem _ h))
        (fun h => hy (List.mem_cons_of_mem _ h)) hrest
      exact ⟨by rw [hcc, hxy], hst⟩

/-- A letter that neither text has after it separates them at its last place. -/
theorem split_last (hs : d ∉ s) (ht : d ∉ t) (heq : x ++ d :: s = y ++ d :: t) : x = y ∧ s = t := by
  have hrev := congrArg List.reverse heq
  simp only [List.reverse_append, List.reverse_cons, List.append_assoc, List.singleton_append] at hrev
  obtain ⟨h1, h2⟩ := split_first (by simpa using hs) (by simpa using ht) hrev
  exact ⟨List.reverse_injective h2, List.reverse_injective h1⟩

/-- Texts that each end with a letter none of them has determine the list of them. -/
theorem flatMap_terminated_inj {xs ys : List (List β)} (hxs : ∀ x ∈ xs, d ∉ x) (hys : ∀ y ∈ ys, d ∉ y)
    (heq : (xs.flatMap fun x => x ++ [d]) = ys.flatMap fun y => y ++ [d]) : xs = ys := by
  induction xs generalizing ys with
  | nil =>
    cases ys with
    | nil => rfl
    | cons y ys => simp at heq
  | cons x xs ih =>
    cases ys with
    | nil => simp at heq
    | cons y ys =>
      simp only [List.flatMap_cons, List.append_assoc, List.singleton_append] at heq
      obtain ⟨hxy, hrest⟩ := split_first (hxs x List.mem_cons_self) (hys y List.mem_cons_self) heq
      rw [hxy, ih (fun z hz => hxs z (List.mem_cons_of_mem _ hz))
        (fun z hz => hys z (List.mem_cons_of_mem _ hz)) hrest]

/-- So do texts with the letter between them, when there is at least one. -/
theorem separated_inj {xs ys : List (List β)} (hx : d ∉ x) (hy : d ∉ y) (hxs : ∀ x ∈ xs, d ∉ x)
    (hys : ∀ y ∈ ys, d ∉ y)
    (heq : (x ++ xs.flatMap fun x => d :: x) = y ++ ys.flatMap fun y => d :: y) :
    x = y ∧ xs = ys := by
  have hshift : ∀ (z : List β) (zs : List (List β)),
      (z ++ zs.flatMap fun z => d :: z) ++ [d] = (z :: zs).flatMap fun z => z ++ [d] := by
    intro z zs
    induction zs generalizing z with
    | nil => simp
    | cons w zs ih =>
      rw [List.flatMap_cons (x := z), ← ih w]
      simp
  have hterm : ((x :: xs).flatMap fun x => x ++ [d]) = (y :: ys).flatMap fun y => y ++ [d] := by
    rw [← hshift, ← hshift, heq]
  have hcons := flatMap_terminated_inj (List.forall_mem_cons.mpr ⟨hx, hxs⟩)
    (List.forall_mem_cons.mpr ⟨hy, hys⟩) hterm
  exact List.cons.inj hcons

end Separator

end Tagged
