import Mathlib.Data.List.Basic
import Mathlib.Data.List.Infix
import TlsClient.Library.Fallible

/-!
# Parsing a stream that arrives in pieces

A stream is a sequence of records. The parser takes a record off the front of what has arrived, or says that it
needs more, and what it could not yet use is saved for the next piece. `feed_pieces` says that the cuts do not
matter: the pieces leave the state that the whole stream leaves, if no beginning of the stream is refused for
having grown too long without a complete record. `feed_pieces_of_unlimited` needs no condition where nothing is
ever too long; then an error is the same as well.
-/

namespace Incremental

variable {σ ε β : Type} [DecidableEq ε]

/-- A reader of what is at the front of the buffer: it decides on that alone, and its error for a buffer that
ends too early is `needMore`. -/
structure Stable {α : Type} (needMore : ε) (f : List β → Except ε (α × List β)) : Prop where
  ok_append : ∀ {p r : List β} {a : α} (q : List β), f p = .ok (a, r) → f (p ++ q) = .ok (a, r ++ q)
  error_append : ∀ {p : List β} {e : ε} (q : List β), f p = .error e → e ≠ needMore → f (p ++ q) = .error e
  shorter : ∀ {p r : List β} {a : α}, f p = .ok (a, r) → r.length ≤ p.length

omit [DecidableEq ε] in
/-- One reader behind the other. -/
theorem Stable.bind {α γ : Type} {needMore : ε} {f : List β → Except ε (α × List β)}
    {k : α × List β → Except ε (γ × List β)} (hf : Stable needMore f) (hk : ∀ a, Stable needMore fun r => k (a, r)) :
    Stable needMore fun p => f p >>= k where
  ok_append := by
    intro p r c q h
    -- what the first parser has read stays read when more follows
    cases hp : f p with
    | error e => rw [hp] at h; cases h
    | ok x =>
      obtain ⟨a, r'⟩ := x
      rw [hp] at h
      simp only [hf.ok_append q hp]
      exact (hk a).ok_append q h
  error_append := by
    intro p e q h hne
    cases hp : f p with
    | error e' =>
      rw [hp] at h
      obtain rfl := Except.error.inj h
      simp only [hf.error_append q hp hne]
      rfl
    | ok x =>
      obtain ⟨a, r'⟩ := x
      rw [hp] at h
      simp only [hf.ok_append q hp]
      exact (hk a).error_append q h hne
  shorter := by
    intro p r c h
    cases hp : f p with
    | error e => rw [hp] at h; cases h
    | ok x =>
      obtain ⟨a, r'⟩ := x
      rw [hp] at h
      exact ((hk a).shorter h).trans (hf.shorter hp)

omit [DecidableEq ε] in
/-- A result without input. -/
theorem Stable.pure {α : Type} {needMore : ε} (a : α) :
    Stable needMore fun p : List β => (.ok (a, p) : Except ε (α × List β)) where
  ok_append := by rintro p r b q ⟨⟩; rfl
  error_append := by rintro p e q ⟨⟩
  shorter := by rintro p r b ⟨⟩; exact Nat.le_refl _

omit [DecidableEq ε] in
/-- An error without input. -/
theorem Stable.throw {α : Type} {needMore : ε} (e : ε) :
    Stable needMore fun _ : List β => (.error e : Except ε (α × List β)) where
  ok_append := by rintro p r b q ⟨⟩
  error_append := by rintro p e' q ⟨⟩ -; rfl
  shorter := by rintro p r b ⟨⟩

/-- A reader that takes something off the buffer. -/
structure Strict {α : Type} (needMore : ε) (f : List β → Except ε (α × List β)) : Prop extends
    Stable needMore f where
  strict : ∀ {p r : List β} {a : α}, f p = .ok (a, r) → r.length < p.length

omit [DecidableEq ε] in
/-- A parser behind a strict one. -/
theorem Strict.bind {α γ : Type} {needMore : ε} {f : List β → Except ε (α × List β)}
    {k : α × List β → Except ε (γ × List β)} (hf : Strict needMore f) (hk : ∀ a, Stable needMore fun r => k (a, r)) :
    Strict needMore fun p => f p >>= k where
  toStable := hf.toStable.bind hk
  strict := by
    intro p r c h
    cases hp : f p with
    | error e => rw [hp] at h; cases h
    | ok x =>
      obtain ⟨a, r'⟩ := x
      rw [hp] at h
      exact ((hk a).shorter h).trans_lt (hf.strict hp)

omit [DecidableEq ε] in
/-- An error is strict. -/
theorem Strict.throw {α : Type} {needMore : ε} (e : ε) :
    Strict needMore fun _ : List β => (.error e : Except ε (α × List β)) where
  toStable := .throw e
  strict := by rintro p r b ⟨⟩

/-- A parser of records: each takes something, and what has been decided of it stays decided when more
arrives. -/
structure Parser (σ ε β : Type) where
  parse : σ → List β → Except ε (σ × List β)
  needMore : ε
  strict : ∀ s, Strict needMore (parse s)

variable (P : Parser σ ε β) (tooLong : σ → List β → Option ε)

/-- The records of the buffer are taken off one after another. The rest is an incomplete record, unless it is
too long for that. -/
def drain (s : σ) (buf : List β) : Except ε (σ × List β) :=
  if buf = [] then .ok (s, [])
  else
    match _h : P.parse s buf with
    | .ok (s', rest) => drain s' rest
    | .error e =>
      if e = P.needMore then
        match tooLong s buf with
        | some e => .error e
        | none => .ok (s, buf)
      else .error e
termination_by buf.length
decreasing_by exact (P.strict s).strict _h

/-- A piece arrives. -/
def feed (st : σ × List β) (piece : List β) : Except ε (σ × List β) :=
  if piece = [] then .ok st else drain P tooLong st.1 (st.2 ++ piece)

variable {P tooLong} {s s' : σ} {buf rest saved : List β} {st : σ × List β} {e : ε}

@[simp] theorem drain_nil : drain P tooLong s [] = .ok (s, []) := by
  rw [drain, if_pos rfl]

omit [DecidableEq ε] in
theorem ne_nil_of_parse_ok (h : P.parse s buf = .ok (s', rest)) : buf ≠ [] := by
  rintro rfl
  exact absurd ((P.strict s).strict h) (Nat.not_lt_zero _)

/-- An item, and those behind it. -/
theorem drain_of_ok (h : P.parse s buf = .ok (s', rest)) : drain P tooLong s buf = drain P tooLong s' rest := by
  rw [drain, if_neg (ne_nil_of_parse_ok h)]
  split
  · rename_i s'' rest' h'
    obtain ⟨rfl, rfl⟩ := Prod.mk.inj (Except.ok.inj (h'.symm.trans h))
    rfl
  · rename_i e h'
    cases h'.symm.trans h

/-- An error ends the parsing, unless more input is needed. -/
theorem drain_of_error (hbuf : buf ≠ []) (h : P.parse s buf = .error e) : drain P tooLong s buf =
    if e = P.needMore then (match tooLong s buf with | some e => .error e | none => .ok (s, buf)) else .error e := by
  rw [drain, if_neg hbuf]
  split
  · rename_i s'' rest' h'
    cases h'.symm.trans h
  · rename_i e' h'
    obtain rfl := Except.error.inj (h'.symm.trans h)
    rfl

/-- More arrives behind what has been drained. -/
theorem drain_append (h : drain P tooLong s buf = .ok st) (more : List β) :
    drain P tooLong s (buf ++ more) = drain P tooLong st.1 (st.2 ++ more) := by
  induction hlen : buf.length using Nat.strongRecOn generalizing s buf with
  | ind n ih =>
    by_cases hbuf : buf = []
    · subst hbuf
      rw [drain_nil] at h
      obtain rfl := Except.ok.inj h
      rfl
    · cases hparse : P.parse s buf with
      | ok result =>
        obtain ⟨s', rest⟩ := result
        rw [drain_of_ok hparse] at h
        -- a record that was complete is the same with more behind it
        rw [drain_of_ok ((P.strict s).ok_append more hparse)]
        exact ih rest.length (hlen ▸ (P.strict s).strict hparse) h rfl
      -- the last record is incomplete; with more behind it the loop takes it up again
      | error e =>
        rw [drain_of_error hbuf hparse] at h
        split_ifs at h with he
        cases hlong : tooLong s buf with
        | some e =>
          rw [hlong] at h
          cases h
        | none =>
          rw [hlong] at h
          obtain rfl := Except.ok.inj h
          rfl

/-- What every record keeps is kept. -/
theorem drain_invariant {Inv : σ → Prop}
    (hstep : ∀ {s s' : σ} {buf rest : List β}, Inv s → P.parse s buf = .ok (s', rest) → Inv s') (hs : Inv s)
    (h : drain P tooLong s buf = .ok st) : Inv st.1 := by
  induction hlen : buf.length using Nat.strongRecOn generalizing s buf with
  | ind n ih =>
    by_cases hbuf : buf = []
    · subst hbuf
      rw [drain_nil] at h
      obtain rfl := Except.ok.inj h
      exact hs
    · cases hparse : P.parse s buf with
      | ok result =>
        obtain ⟨s', rest⟩ := result
        rw [drain_of_ok hparse] at h
        exact ih rest.length (hlen ▸ (P.strict s).strict hparse) (hstep hs hparse) h rfl
      | error e =>
        rw [drain_of_error hbuf hparse] at h
        split_ifs at h with he
        cases hlong : tooLong s buf with
        | some e =>
          rw [hlong] at h
          cases h
        | none =>
          rw [hlong] at h
          obtain rfl := Except.ok.inj h
          exact hs

/-- A piece keeps what each item keeps. -/
theorem feed_invariant {Inv : σ → Prop} {st' : σ × List β} {piece : List β}
    (hstep : ∀ {s s' : σ} {buf rest : List β}, Inv s → P.parse s buf = .ok (s', rest) → Inv s') (hs : Inv st.1)
    (h : feed P tooLong st piece = .ok st') : Inv st'.1 := by
  rw [feed] at h
  split_ifs at h
  · obtain rfl := Except.ok.inj h
    exact hs
  · exact drain_invariant hstep hs h

/-- In the states of `Inv` nothing is too long, and the parser stays in them. -/
structure Unlimited (P : Parser σ ε β) (tooLong : σ → List β → Option ε) (Inv : σ → Prop) : Prop where
  never : ∀ {s : σ} {buf : List β}, Inv s → tooLong s buf = none
  step : ∀ {s s' : σ} {buf rest : List β}, Inv s → P.parse s buf = .ok (s', rest) → Inv s'

variable {Inv : σ → Prop}

/-- Where nothing is too long, an error is not mended by what arrives behind it. -/
theorem drain_append_error (hunlimited : Unlimited P tooLong Inv) (hs : Inv s)
    (h : drain P tooLong s buf = .error e) (more : List β) : drain P tooLong s (buf ++ more) = .error e := by
  induction hlen : buf.length using Nat.strongRecOn generalizing s buf with
  | ind n ih =>
    have hbuf : buf ≠ [] := by
      rintro rfl
      rw [drain_nil] at h
      cases h
    cases hparse : P.parse s buf with
    | ok result =>
      obtain ⟨s', rest⟩ := result
      rw [drain_of_ok hparse] at h
      rw [drain_of_ok ((P.strict s).ok_append more hparse)]
      exact ih rest.length (hlen ▸ (P.strict s).strict hparse) (hunlimited.step hs hparse) h rfl
    | error e' =>
      rw [drain_of_error hbuf hparse] at h
      by_cases he : e' = P.needMore
      · rw [if_pos he, hunlimited.never hs] at h
        cases h
      · rw [if_neg he] at h
        obtain rfl := Except.error.inj h
        have hne : buf ++ more ≠ [] := List.append_ne_nil_of_left_ne_nil hbuf more
        rw [drain_of_error hne ((P.strict s).error_append more hparse he), if_neg he]

/-- No beginning of the buffer is refused. -/
def Accepted (P : Parser σ ε β) (tooLong : σ → List β → Option ε) (s : σ) (buf : List β) : Prop :=
  ∀ p, p <+: buf → ∃ st, drain P tooLong s p = .ok st

/-- A piece is parsed like the end of the whole. -/
theorem feed_eq_drain (st : σ × List β) {whole : List β} (h : drain P tooLong s whole = .ok st) (piece : List β) :
    feed P tooLong st piece = drain P tooLong s (whole ++ piece) := by
  rw [feed]
  split_ifs with hpiece
  · rw [hpiece, List.append_nil, h]
  · exact (drain_append h piece).symm

/-- All pieces are parsed like the whole. -/
theorem foldlM_feed {whole : List β} {pieces : List (List β)} (h : drain P tooLong s whole = .ok st)
    (haccepted : Accepted P tooLong s (whole ++ pieces.flatten)) :
    pieces.foldlM (feed P tooLong) st = drain P tooLong s (whole ++ pieces.flatten) := by
  induction pieces generalizing st whole with
  | nil =>
    rw [List.flatten_nil, List.append_nil, h]
    rfl
  | cons piece pieces ih =>
    rw [List.flatten_cons, ← List.append_assoc] at haccepted ⊢
    obtain ⟨st', hst⟩ := haccepted (whole ++ piece) (List.prefix_append _ _)
    rw [List.foldlM_cons, feed_eq_drain st h, hst]
    exact ih hst haccepted

/-- The cuts between the pieces do not matter. -/
theorem feed_pieces {pieces : List (List β)} (haccepted : Accepted P tooLong s pieces.flatten) :
    pieces.foldlM (feed P tooLong) (s, []) = drain P tooLong s pieces.flatten :=
  foldlM_feed drain_nil haccepted

/-- Where nothing is too long, the cuts do not matter to an error either. -/
theorem feed_pieces_of_unlimited (hunlimited : Unlimited P tooLong Inv) (hs : Inv s) (pieces : List (List β)) :
    pieces.foldlM (feed P tooLong) (s, []) = drain P tooLong s pieces.flatten := by
  suffices hall : ∀ (pieces : List (List β)) (whole : List β) (st : σ × List β), drain P tooLong s whole = .ok st →
      pieces.foldlM (feed P tooLong) st = drain P tooLong s (whole ++ pieces.flatten) from hall pieces [] _ drain_nil
  intro pieces
  induction pieces with
  | nil =>
    intro whole st h
    rw [List.flatten_nil, List.append_nil, h]
    rfl
  | cons piece pieces ih =>
    intro whole st h
    rw [List.flatten_cons, ← List.append_assoc, List.foldlM_cons, feed_eq_drain st h]
    cases hst : drain P tooLong s (whole ++ piece) with
    | ok st' => exact ih _ st' hst
    | error e =>
      rw [drain_append_error hunlimited hs hst]
      rfl

/-- Pieces that are all taken leave what the whole stream leaves. -/
theorem drain_of_foldlM_feed {whole : List β} {pieces : List (List β)} {last : σ × List β}
    (h : drain P tooLong s whole = .ok st) (hfeed : pieces.foldlM (feed P tooLong) st = .ok last) :
    drain P tooLong s (whole ++ pieces.flatten) = .ok last := by
  induction pieces generalizing st whole with
  | nil =>
    cases hfeed
    rw [List.flatten_nil, List.append_nil, h]
  | cons piece pieces ih =>
    rw [List.foldlM_cons, feed_eq_drain st h] at hfeed
    obtain ⟨st', hst, hrest⟩ := Fallible.bind_eq_ok_iff.mp hfeed
    rw [List.flatten_cons, ← List.append_assoc]
    exact ih hst hrest

/-- A complete record and what is accepted behind it is accepted, if no beginning of the record is too long. -/
theorem Accepted.record {record : List β} (hrecord : P.parse s record = .ok (s', []))
    (hshort : ∀ p, p <+: record → p ≠ record → tooLong s p = none) (h : Accepted P tooLong s' buf) :
    Accepted P tooLong s (record ++ buf) := by
  intro p hp
  rcases List.prefix_or_prefix_of_prefix hp (List.prefix_append record buf) with hle | hge
  · by_cases heq : p = record
    · rw [heq, drain_of_ok hrecord, drain_nil]
      exact ⟨_, rfl⟩
    · obtain ⟨q, hq⟩ := hle
      have hqne : q ≠ [] := by
        rintro rfl
        exact heq (by rw [← hq, List.append_nil])
      -- an incomplete record needs more: what is decided of it would be decided of the record
      by_cases hpne : p = []
      · rw [hpne, drain_nil]
        exact ⟨_, rfl⟩
      · cases hparse : P.parse s p with
        | ok result =>
          obtain ⟨s'', rest⟩ := result
          have hmore := (P.strict s).ok_append q hparse
          rw [hq, hrecord] at hmore
          obtain ⟨-, hnil⟩ := Prod.mk.inj (Except.ok.inj hmore)
          exact absurd (List.append_eq_nil_iff.mp hnil.symm).2 hqne
        | error e =>
          by_cases he : e = P.needMore
          · rw [drain_of_error hpne hparse, if_pos he, hshort p ⟨q, hq⟩ heq]
            exact ⟨_, rfl⟩
          · have hmore := (P.strict s).error_append q hparse he
            rw [hq, hrecord] at hmore
            cases hmore
  · obtain ⟨q, rfl⟩ := hge
    rw [List.prefix_append_right_inj] at hp
    rw [drain_of_ok ((P.strict s).ok_append q hrecord), List.nil_append]
    exact h q hp

/-- No input is accepted. -/
theorem accepted_nil : Accepted P tooLong s [] := by
  intro p hp
  rw [List.prefix_nil.mp hp, drain_nil]
  exact ⟨_, rfl⟩

end Incremental
