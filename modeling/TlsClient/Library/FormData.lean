import TlsClient.Library.Separator
import TlsClient.Library.Utf8
import Mathlib.Data.List.TakeWhile

/-!
# Reading form data

The format `multipart/form-data` of RFC 7578, as its parts are read: delimiter lines as in RFC 2046, the header lines of
a part up to an empty line, and in `Content-Disposition` the parameters with quoted strings, in which a backslash quotes
and lines do not end. Header fields but `Content-Disposition` are ignored.

`parsePart_filename_iff` says which names and which other header lines are read as they were written, and
`parseParts_behind_iff` that parts without the delimiter in them are read one by one.
-/

namespace FormData

open Separator

/-! ## Lines -/

/-- Lines up to the first that is empty, and what is after it; `line` is what has been read of the current line. -/
def readHeader : List UInt8 → List UInt8 → Option (List (List UInt8) × List UInt8)
  | line, 13 :: 10 :: s =>
    if line = [] then some ([], s) else (readHeader [] s).map fun p => (line :: p.1, p.2)
  | line, c :: s => readHeader (line ++ [c]) s
  | _, [] => none

/-- The lines of a text; `line` is what has been read of the current line. -/
def splitLines : List UInt8 → List UInt8 → List (List UInt8)
  | line, 13 :: 10 :: s => line :: splitLines [] s
  | line, c :: s => splitLines (line ++ [c]) s
  | line, [] => [line]

/-! ## Parameters -/

/-- The text of ASCII. -/
def ascii (s : String) : List UInt8 := s.toList.map fun c => UInt8.ofNat c.toNat

/-- A blank or a tab. -/
def isBlank (b : UInt8) : Bool := b = 32 || b = 9

/-- The characters of a token: all that can be seen but the special ones. -/
def isToken (b : UInt8) : Bool := 33 ≤ b && b ≤ 126 && b ∉ ascii "()<>@,;:\\\"/[]?="

def lowerByte (b : UInt8) : UInt8 := if 65 ≤ b ∧ b ≤ 90 then b + 32 else b

/-- A line break or half of one. -/
def isBreak (b : UInt8) : Bool := b = 13 || b = 10

/-- A quoted string after its first quote, and what is after its last one. -/
def unquote : List UInt8 → Option (List UInt8 × List UInt8)
  | [] => none
  | 34 :: s => some ([], s)
  | [92] => none
  | 92 :: c :: s => if isBreak c then none else (unquote s).map fun p => (c :: p.1, p.2)
  | c :: s => if isBreak c then none else (unquote s).map fun p => (c :: p.1, p.2)

/-- Parameters with their names in lower case, as many as `n` at most. -/
def params : ℕ → List UInt8 → Option (List (List UInt8 × List UInt8))
  | 0, _ => none
  | n + 1, s =>
    match s.dropWhile isBlank with
    | 59 :: s =>
      let s := s.dropWhile isBlank
      let name := (s.takeWhile isToken).map lowerByte
      match s.dropWhile isToken with
      | 61 :: s =>
        if s.head? = some 34 then do
          let (value, s) ← unquote (s.drop 1)
          let rest ← params n s
          return (name, value) :: rest
        else do
          let rest ← params n (s.dropWhile isToken)
          return (name, s.takeWhile isToken) :: rest
      | _ => none
    | [] => some []
    | _ => none

/-! ## Parts -/

/-- A part, as far as a form is concerned. -/
structure Part where
  name : List UInt8
  filename : Option (List UInt8)
  content : List UInt8
deriving DecidableEq, Repr

/-- The line is that of a `Content-Disposition`. -/
def isDisposition (line : List UInt8) : Bool :=
  (line.takeWhile (· ≠ 58)).map lowerByte = ascii "content-disposition"

/-- The parameters of a `Content-Disposition`, which must be `form-data`. -/
def disposition (line : List UInt8) : Option (List (List UInt8 × List UInt8)) :=
  let value := ((line.dropWhile (· ≠ 58)).drop 1).dropWhile isBlank
  if (value.takeWhile isToken).map lowerByte = ascii "form-data" then params line.length (value.dropWhile isToken)
  else none

def parsePart (raw : List UInt8) : Option Part := do
  let (lines, content) ← readHeader [] raw
  let line ← lines.find? isDisposition
  let parameters ← disposition line
  let name ← parameters.lookup (ascii "name")
  return ⟨name, parameters.lookup (ascii "filename"), content⟩

/-- The delimiter of parts, with the line break that belongs to it. -/
def delimiter (boundary : List UInt8) : List UInt8 := 13 :: 10 :: 45 :: 45 :: boundary

/-- The parts behind a delimiter, as many as `n` at most. -/
def parseParts (boundary : List UInt8) : ℕ → List UInt8 → Option (List Part)
  | 0, _ => none
  | n + 1, s =>
    if [45, 45] <+: s then some []
    else
      match s.dropWhile isBlank with
      | 13 :: 10 :: s => do
        let (raw, s) ← breakOn (delimiter boundary) s
        let part ← parsePart raw
        let parts ← parseParts boundary n s
        return part :: parts
      | _ => none

/-- The boundary that a content type names. -/
def boundaryOf (contentType : List UInt8) : Option (List UInt8) :=
  if (contentType.takeWhile (· ≠ 59)).map lowerByte = ascii "multipart/form-data" then
    (params contentType.length (contentType.dropWhile (· ≠ 59))).bind fun parameters =>
      parameters.lookup (ascii "boundary")
  else none

/-- The parts of a body with its content type. -/
def parse (contentType body : List UInt8) : Option (List Part) := do
  let boundary ← boundaryOf contentType
  let (_, s) ← breakOn (delimiter boundary) (13 :: 10 :: body)
  parseParts boundary (body.length + 1) s

/-! ## Reading lines -/

variable {line t s n v r content boundary : List UInt8} {lines : List (List UInt8)}

/-- One more byte of a header line. -/
theorem readHeader_cons {c : UInt8} (h : ∀ rest, c = 13 → s = 10 :: rest → False) :
    readHeader line (c :: s) = readHeader (line ++ [c]) s := by
  rw [readHeader]
  rintro rest rfl rfl
  exact h rest rfl rfl

/-- Text without line breaks goes to the current line. -/
theorem readHeader_text (ht : 13 ∉ t) (line s : List UInt8) : readHeader line (t ++ s) = readHeader (line ++ t) s := by
  induction t generalizing line with
  | nil => rw [List.append_nil, List.nil_append]
  | cons c t ih =>
    rw [List.mem_cons, not_or] at ht
    rw [List.cons_append, readHeader_cons fun _ hc _ => ht.1 hc.symm, ih ht.2, List.append_assoc,
      List.singleton_append]

theorem readHeader_break (hline : line ≠ []) :
    readHeader line (13 :: 10 :: s) = (readHeader [] s).map fun p => (line :: p.1, p.2) := by
  rw [readHeader, if_neg hline]

theorem readHeader_empty (s : List UInt8) : readHeader [] (13 :: 10 :: s) = some ([], s) := by
  rw [readHeader, if_pos rfl]

/-- The next byte begins no line break, whatever comes after the text. -/
theorem no_break_append {c : UInt8} (h : ∀ rest, c = 13 → t = 10 :: rest → False) (s : List UInt8) :
    ∀ rest, c = 13 → t ++ 13 :: s = 10 :: rest → False := by
  intro rest hc ht
  cases t with
  | nil =>
    obtain ⟨hne, -⟩ := List.cons.inj ht
    contradiction
  | cons d t =>
    obtain ⟨rfl, -⟩ := List.cons.inj ht
    exact h t hc rfl

/-- Lines of which none is empty are read. -/
theorem readHeader_append (h : [] ∉ splitLines line t) (s : List UInt8) :
    readHeader line (t ++ 13 :: 10 :: s) =
      (readHeader [] s).map fun p => (splitLines line t ++ p.1, p.2) := by
  fun_induction splitLines line t with
  | case1 line t ih =>
    rw [List.mem_cons, not_or] at h
    rw [List.cons_append, List.cons_append, readHeader_break (Ne.symm h.1), ih h.2, Option.map_map]
    rfl
  | case2 line c t hc ih =>
    rw [List.cons_append, readHeader_cons (no_break_append hc _), ih h]
  | case3 line =>
    rw [List.mem_singleton] at h
    rw [List.nil_append, readHeader_break (Ne.symm h)]
    rfl

/-- An empty line among them ends the header, and they are content from there on. -/
theorem length_le_of_readHeader (h : [] ∈ splitLines line t)
    (hread : readHeader line (t ++ 13 :: 10 :: s) = some (lines, content)) : s.length ≤ content.length := by
  fun_induction splitLines line t generalizing lines with
  | case1 line t ih =>
    rw [List.cons_append, List.cons_append] at hread
    by_cases hline : line = []
    · rw [hline, readHeader_empty] at hread
      obtain ⟨-, rfl⟩ := Prod.mk.inj (Option.some.inj hread)
      rw [List.length_append, List.length_cons, List.length_cons]
      omega
    · rw [readHeader_break hline] at hread
      obtain ⟨p, hp, hcontent⟩ := Option.map_eq_some_iff.mp hread
      obtain ⟨-, rfl⟩ := Prod.mk.inj hcontent
      exact ih ((List.mem_cons.mp h).resolve_left (Ne.symm hline)) hp
  | case2 line c t hc ih =>
    rw [List.cons_append, readHeader_cons (no_break_append hc _)] at hread
    exact ih h hread
  | case3 line =>
    rw [List.mem_singleton] at h
    rw [← h, List.nil_append, readHeader_empty] at hread
    obtain ⟨-, rfl⟩ := Prod.mk.inj (Option.some.inj hread)
    exact le_rfl

/-- The first line of a header. -/
theorem readHeader_first (hline : line ≠ []) (hread : readHeader line s = some (lines, content)) :
    ∃ l rest more, s = l ++ 13 :: 10 :: rest ∧ lines = (line ++ l) :: more := by
  fun_induction readHeader line s generalizing lines with
  | case1 s => exact absurd rfl hline
  | case2 line s hne ih =>
    obtain ⟨p, -, hp⟩ := Option.map_eq_some_iff.mp hread
    obtain ⟨rfl, -⟩ := Prod.mk.inj hp
    exact ⟨[], s, p.1, rfl, by rw [List.append_nil]⟩
  | case3 line c s hc ih =>
    obtain ⟨l, rest, more, rfl, rfl⟩ := ih (by simp) hread
    exact ⟨c :: l, rest, more, rfl, by rw [List.append_assoc, List.singleton_append]⟩
  | case4 line => contradiction

/-! ## Quoted strings -/

/-- The text needs no quoting. -/
def Plain (s : List UInt8) : Prop := ∀ c ∈ s, c ≠ 34 ∧ c ≠ 92 ∧ isBreak c = false

/-- A byte that needs no escape. -/
theorem unquote_cons {c : UInt8} (hquote : c ≠ 34) (hslash : c ≠ 92) :
    unquote (c :: s) = if isBreak c then none else (unquote s).map fun p => (c :: p.1, p.2) := by
  rw [unquote]
  · exact hquote
  · rintro rfl
    exact fun _ => absurd rfl hslash
  · rintro d rest rfl
    exact absurd rfl hslash

/-- A plain text up to its closing quote. -/
theorem unquote_plain (hn : Plain n) (s : List UInt8) : unquote (n ++ 34 :: s) = some (n, s) := by
  induction n with
  | nil => rfl
  | cons c n ih =>
    obtain ⟨hquote, hslash, hbreak⟩ := hn c List.mem_cons_self
    rw [List.cons_append, unquote_cons hquote hslash, hbreak, ih fun d hd => hn d (List.mem_cons_of_mem _ hd)]
    rfl

theorem unquote_slash (c : UInt8) (s : List UInt8) :
    unquote (92 :: c :: s) = if isBreak c then none else (unquote s).map fun p => (c :: p.1, p.2) := by
  rw [unquote]

/-- What is read has no line breaks. -/
theorem isBreak_of_unquote (h : unquote s = some (v, r)) : ∀ c ∈ v, isBreak c = false := by
  have hcons : ∀ {c : UInt8} {p : Option (List UInt8 × List UInt8)} {v : List UInt8},
      (∀ v, p = some (v, r) → ∀ d ∈ v, isBreak d = false) → ¬isBreak c = true →
        (p.map fun p => (c :: p.1, p.2)) = some (v, r) → ∀ d ∈ v, isBreak d = false := by
    intro c p v ih hc hp
    obtain ⟨q, hq, heq⟩ := Option.map_eq_some_iff.mp hp
    obtain ⟨rfl, rfl⟩ := Prod.mk.inj heq
    exact List.forall_mem_cons.mpr ⟨Bool.eq_false_iff.mpr hc, ih q.1 hq⟩
  fun_induction unquote s generalizing v with
  | case1 => contradiction
  | case2 s =>
    obtain ⟨rfl, -⟩ := Prod.mk.inj (Option.some.inj h)
    exact fun c hc => absurd hc List.not_mem_nil
  | case3 => contradiction
  | case4 => contradiction
  | case5 c s hc ih => exact hcons (fun v hv => ih hv) hc h
  | case6 => contradiction
  | case7 c s _ _ _ hc ih => exact hcons (fun v hv => ih hv) hc h

/-- A text that is read as itself has no quotes and no backslashes: each backslash that quotes another one leaves one
more to account for. -/
theorem unquote_replicate {k : ℕ} (h : unquote (n ++ 34 :: s) = some (List.replicate k 92 ++ n, r)) :
    k = 0 ∧ ∀ c ∈ n, c ≠ 34 ∧ c ≠ 92 := by
  -- a backslash that is kept would be one more in front of a shorter name, against the induction
  induction hlength : n.length using Nat.strong_induction_on generalizing n k with
  | _ length ih =>
    subst hlength
    cases n with
    | nil =>
      obtain ⟨hnil, -⟩ := Prod.mk.inj (Option.some.inj h)
      rw [List.append_nil, eq_comm, List.replicate_eq_nil_iff] at hnil
      exact ⟨hnil, fun c hc => absurd hc List.not_mem_nil⟩
    | cons c n =>
      by_cases hquote : c = 34
      · subst hquote
        obtain ⟨hnil, -⟩ := Prod.mk.inj (Option.some.inj h)
        simp at hnil
      by_cases hslash : c = 92
      · subst hslash
        -- a run of one character may be begun at either end
        have hreplicate : ∀ l : List UInt8, List.replicate k 92 ++ 92 :: l = 92 :: (List.replicate k 92 ++ l) := by
          intro l
          rw [← List.cons_append, ← List.replicate_succ, List.replicate_succ', List.append_assoc,
            List.singleton_append]
        cases n with
        | nil =>
          rw [List.singleton_append, unquote_slash, if_neg (by decide), hreplicate] at h
          obtain ⟨p, -, hp⟩ := Option.map_eq_some_iff.mp h
          obtain ⟨hfirst, -⟩ := List.cons.inj (Prod.mk.inj hp).1
          contradiction
        | cons d n =>
          rw [List.cons_append, List.cons_append, unquote_slash, hreplicate] at h
          split_ifs at h
          obtain ⟨p, hread, hp⟩ := Option.map_eq_some_iff.mp h
          obtain ⟨hfirst, hrest⟩ := List.cons.inj (Prod.mk.inj hp).1
          obtain rfl := hfirst
          have hmore : p = (List.replicate (k + 1) 92 ++ n, r) := by
            refine Prod.ext ?_ (Prod.mk.inj hp).2
            rw [hrest, hreplicate]
            rfl
          rw [hmore] at hread
          have hnone := (ih n.length (by simp only [List.length_cons]; omega) hread rfl).1
          contradiction
      · rw [List.cons_append, unquote_cons hquote hslash] at h
        split_ifs at h
        obtain ⟨p, hread, hp⟩ := Option.map_eq_some_iff.mp h
        cases k with
        | succ k =>
          obtain ⟨hfirst, -⟩ := List.cons.inj (Prod.mk.inj hp).1
          exact absurd hfirst hslash
        | zero =>
          have hmore : p = (List.replicate 0 92 ++ n, r) :=
            Prod.ext (List.cons.inj (Prod.mk.inj hp).1).2 (Prod.mk.inj hp).2
          rw [hmore] at hread
          have hnone := (ih n.length (Nat.lt_succ_self _) hread rfl).2
          exact ⟨rfl, List.forall_mem_cons.mpr ⟨⟨hquote, hslash⟩, hnone⟩⟩

/-- A text between quotes is read as itself if and only if it needs no quoting. -/
theorem plain_of_unquote (h : unquote (n ++ 34 :: s) = some (n, r)) : Plain n ∧ r = s := by
  have hplain : Plain n := fun c hc =>
    have hnone := (unquote_replicate (k := 0) h).2 c hc
    ⟨hnone.1, hnone.2, isBreak_of_unquote h c hc⟩
  rw [unquote_plain hplain] at h
  exact ⟨hplain, (Prod.mk.inj (Option.some.inj h)).2.symm⟩

/-! ## Written parts -/

/-- `Content-Disposition: form-data; name="`. -/
def namePrefix : List UInt8 := ascii "Content-Disposition: form-data; name=\""

/-- `; filename="`. -/
def filenamePrefix : List UInt8 := ascii "; filename=\""

theorem params_nil (n : ℕ) : params (n + 1) [] = some [] := rfl

/-- A line that begins like a disposition is one. -/
theorem disposition_namePrefix (l : List UInt8) :
    isDisposition (namePrefix ++ l) = true ∧
      disposition (namePrefix ++ l) = params (namePrefix.length + l.length) (ascii "; name=\"" ++ l) := by
  constructor
  · rfl
  · rw [← List.length_append]
    rfl

/-- A parameter with a quoted value. -/
theorem params_quoted (k : ℕ) (name l : List UInt8) (hname : name = ascii "name" ∨ name = ascii "filename") :
    params (k + 1) (ascii "; " ++ (name ++ ascii "=\"") ++ l) = do
      let (value, s) ← unquote l
      let rest ← params k s
      return (name, value) :: rest := by
  rcases hname with rfl | rfl
  · rfl
  · rfl

/-- What a part is parsed to. -/
theorem parsePart_eq_some_iff {raw : List UInt8} {part : Part} :
    parsePart raw = some part ↔ ∃ lines line parameters, readHeader [] raw = some (lines, part.content) ∧
      lines.find? isDisposition = some line ∧ disposition line = some parameters ∧
      parameters.lookup (ascii "name") = some part.name ∧ parameters.lookup (ascii "filename") = part.filename := by
  rw [parsePart]
  simp only [Option.bind_eq_bind, Option.bind_eq_some_iff, Option.pure_def, Option.some.injEq]
  constructor
  · rintro ⟨⟨lines, content⟩, hread, line, hline, parameters, hparameters, name, hname, rfl⟩
    exact ⟨lines, line, parameters, hread, hline, hparameters, hname, rfl⟩
  · rintro ⟨lines, line, parameters, hread, hline, hparameters, hname, hfilename⟩
    exact ⟨(lines, part.content), hread, line, hline, parameters, hparameters, part.name, hname, by rw [hfilename]⟩

/-- A part is that of its first line, if this is one. -/
theorem parsePart_namePrefix_iff {x : List UInt8} {part : Part} :
    parsePart (namePrefix ++ x) = some part ↔ ∃ l rest more tail parameters, x = l ++ 13 :: 10 :: rest ∧
      readHeader [] (namePrefix ++ x) = some ((namePrefix ++ l) :: more, part.content) ∧
      unquote l = some (part.name, tail) ∧ params (37 + l.length) tail = some parameters ∧
      parameters.lookup (ascii "filename") = part.filename := by
  have hlength : ∀ l : List UInt8, namePrefix.length + l.length = 37 + l.length + 1 := by
    intro l
    have h : namePrefix.length = 38 := rfl
    omega
  have hparams : ∀ l : List UInt8, disposition (namePrefix ++ l) = do
      let (value, s) ← unquote l
      let rest ← params (37 + l.length) s
      return (ascii "name", value) :: rest := by
    intro l
    rw [(disposition_namePrefix l).2, hlength]
    exact params_quoted _ _ l (.inl rfl)
  have hlookup : ∀ (value : List UInt8) (rest : List (List UInt8 × List UInt8)),
      ((ascii "name", value) :: rest).lookup (ascii "name") = some value ∧
        ((ascii "name", value) :: rest).lookup (ascii "filename") = rest.lookup (ascii "filename") :=
    fun value rest => ⟨rfl, rfl⟩
  rw [parsePart_eq_some_iff]
  constructor
  -- the first line of the header is the disposition, so `find` stops there
  · rintro ⟨lines, line, parameters, hread, hline, hparameters, hname, hfilename⟩
    have hfirst := hread
    rw [readHeader_text (by decide), List.nil_append] at hfirst
    obtain ⟨l, rest, more, rfl, rfl⟩ := readHeader_first (by decide) hfirst
    rw [List.find?_cons_of_pos (disposition_namePrefix l).1] at hline
    obtain rfl := Option.some.inj hline
    rw [hparams] at hparameters
    simp only [Option.bind_eq_bind, Option.bind_eq_some_iff, Option.pure_def, Option.some.injEq] at hparameters
    obtain ⟨⟨value, tail⟩, hvalue, others, hothers, rfl⟩ := hparameters
    rw [(hlookup value others).1] at hname
    rw [(hlookup value others).2] at hfilename
    obtain rfl := Option.some.inj hname
    exact ⟨l, rest, more, tail, others, rfl, hread, hvalue, hothers, hfilename⟩
  · rintro ⟨l, rest, more, tail, others, rfl, hread, hvalue, hothers, hfilename⟩
    refine ⟨_, namePrefix ++ l, (ascii "name", part.name) :: others, hread,
      List.find?_cons_of_pos (disposition_namePrefix l).1, ?_, (hlookup _ _).1, (hlookup _ _).2.trans hfilename⟩
    rw [hparams, hvalue]
    dsimp only [Option.bind_eq_bind, Option.bind_some]
    rw [hothers]
    rfl

/-- A plain text has no carriage return. -/
theorem Plain.not_mem (h : Plain n) : 13 ∉ n ++ [34] := by
  refine mt List.mem_append.mp (not_or.mpr ⟨fun hmem => ?_, by decide⟩)
  have hbreak := (h 13 hmem).2.2
  contradiction

/-- What is read as the text before a quote is that text. -/
theorem plain_of_unquote_line {l rest : List UInt8} (h : n ++ 34 :: s = l ++ 13 :: rest)
    (hread : unquote l = some (n, r)) : Plain n ∧ s = r ++ 13 :: rest := by
  have hbreak : 13 ∉ n ++ [34] := by
    refine mt List.mem_append.mp (not_or.mpr ⟨fun hmem => ?_, by decide⟩)
    have hnone := isBreak_of_unquote hread 13 hmem
    contradiction
  have hcons : n ++ 34 :: s = n ++ [34] ++ s := by rw [List.append_assoc, List.singleton_append]
  rw [hcons] at h
  obtain ⟨more, rfl, hrest⟩ := exists_append_of_not_mem hbreak h
  rw [List.append_assoc, List.singleton_append] at hread
  obtain ⟨hplain, rfl⟩ := plain_of_unquote hread
  exact ⟨hplain, hrest⟩

/-- The first header line of a part. -/
theorem readHeader_line {l : List UInt8} (hl : 13 ∉ l) (s : List UInt8) :
    readHeader [] (namePrefix ++ (l ++ 13 :: 10 :: s)) =
      (readHeader [] s).map fun p => ((namePrefix ++ l) :: p.1, p.2) := by
  have hnone : 13 ∉ namePrefix ++ l := mt List.mem_append.mp (not_or.mpr ⟨by decide, hl⟩)
  have hne : namePrefix ++ l ≠ [] := List.append_ne_nil_of_left_ne_nil (by decide) _
  rw [← List.append_assoc, readHeader_text hnone, List.nil_append, readHeader_break hne]

/-- A part with a name and content is read as such if and only if the name needs no quoting. -/
theorem parsePart_name_iff {n content c : List UInt8} :
    parsePart (namePrefix ++ (n ++ 34 :: 13 :: 10 :: 13 :: 10 :: content)) = some ⟨n, none, c⟩ ↔
      Plain n ∧ content = c := by
  have hparse : Plain n →
      parsePart (namePrefix ++ (n ++ 34 :: 13 :: 10 :: 13 :: 10 :: content)) = some ⟨n, none, content⟩ := by
    intro hplain
    have hread := readHeader_line hplain.not_mem (13 :: 10 :: content)
    rw [readHeader_empty, Option.map_some, List.append_assoc, List.singleton_append] at hread
    refine parsePart_namePrefix_iff.mpr ⟨n ++ [34], 13 :: 10 :: content, [], [], [], ?_, hread,
      unquote_plain hplain [], ?_, rfl⟩
    · rw [List.append_assoc, List.singleton_append]
    · rw [List.length_append, ← Nat.add_assoc]
      exact params_nil _
  constructor
  · intro h
    obtain ⟨l, rest, more, tail, parameters, hx, -, hname, -, -⟩ := parsePart_namePrefix_iff.mp h
    have hplain := (plain_of_unquote_line hx hname).1
    exact ⟨hplain, congrArg Part.content (Option.some.inj ((hparse hplain).symm.trans h))⟩
  · rintro ⟨hplain, rfl⟩
    exact hparse hplain

/-- A part with a name, a filename, other header lines and content is read as such if and only if neither name needs
quoting and none of the lines is empty. -/
theorem parsePart_filename_iff (n f headers content : List UInt8) :
    parsePart (namePrefix ++ (n ++ 34 :: (filenamePrefix ++
      (f ++ 34 :: 13 :: 10 :: (headers ++ 13 :: 10 :: 13 :: 10 :: content))))) = some ⟨n, some f, content⟩ ↔
      Plain n ∧ Plain f ∧ [] ∉ splitLines [] headers := by
  have hfilename : ∀ (k : ℕ) (l : List UInt8), params (k + 1) (filenamePrefix ++ l) = do
      let (value, s) ← unquote l
      let rest ← params k s
      return (ascii "filename", value) :: rest := fun k l => params_quoted k _ l (.inr rfl)
  -- the first line, where neither name has a line break
  have hline : Plain n → Plain f → n ++ 34 :: (filenamePrefix ++
        (f ++ 34 :: 13 :: 10 :: (headers ++ 13 :: 10 :: 13 :: 10 :: content))) =
      (n ++ [34] ++ (filenamePrefix ++ (f ++ [34]))) ++ 13 :: 10 :: (headers ++ 13 :: 10 :: 13 :: 10 :: content) ∧
        13 ∉ n ++ [34] ++ (filenamePrefix ++ (f ++ [34])) := by
    intro hn hf
    refine ⟨by simp only [List.append_assoc, List.cons_append, List.nil_append],
      mt List.mem_append.mp (not_or.mpr ⟨hn.not_mem, ?_⟩)⟩
    exact mt List.mem_append.mp (not_or.mpr ⟨by decide, hf.not_mem⟩)
  rw [parsePart_namePrefix_iff]
  constructor
  · rintro ⟨l, rest, more, tail, parameters, hx, hread, hname, hparameters, hlookup⟩
    obtain ⟨hn, hrest⟩ := plain_of_unquote_line hx hname
    obtain ⟨tail, rfl, hmore⟩ := exists_append_of_not_mem (by decide) hrest
    obtain ⟨k, hk⟩ : ∃ k, 37 + l.length = k + 1 := ⟨36 + l.length, by omega⟩
    rw [hk, hfilename] at hparameters
    simp only [Option.bind_eq_bind, Option.bind_eq_some_iff, Option.pure_def, Option.some.injEq] at hparameters
    obtain ⟨⟨value, tail'⟩, hvalue, others, -, rfl⟩ := hparameters
    obtain rfl : value = f := Option.some.inj hlookup
    have hf := (plain_of_unquote_line hmore hvalue).1
    obtain ⟨heq, hbreak⟩ := hline hn hf
    rw [heq, readHeader_line hbreak] at hread
    obtain ⟨⟨others, rest'⟩, hp, hcontent⟩ := Option.map_eq_some_iff.mp hread
    refine ⟨hn, hf, fun hempty => ?_⟩
    have hle := length_le_of_readHeader hempty hp
    have hrest' : rest' = content := (Prod.mk.inj hcontent).2
    rw [hrest'] at hle
    simp only [List.length_cons] at hle
    omega
  · rintro ⟨hn, hf, hempty⟩
    obtain ⟨heq, hbreak⟩ := hline hn hf
    rw [heq, readHeader_line hbreak, readHeader_append hempty, readHeader_empty]
    obtain ⟨k, hk⟩ : ∃ k, 37 + (n ++ [34] ++ (filenamePrefix ++ (f ++ [34]))).length = k + 2 := ⟨_, by
      rw [List.length_append, ← Nat.add_assoc]
      exact rfl⟩
    refine ⟨_, _, _, filenamePrefix ++ (f ++ [34]), [(ascii "filename", f)], rfl, rfl, ?_, ?_, rfl⟩
    · rw [List.append_assoc, List.singleton_append]
      exact unquote_plain hn _
    · rw [hk, hfilename, unquote_plain hf]
      rfl

/-! ## Written bodies -/

/-- Parts between their delimiters. -/
def written (boundary : List UInt8) (raws : List (List UInt8)) : List UInt8 :=
  (raws.flatMap fun raw => 45 :: 45 :: boundary ++ 13 :: 10 :: (raw ++ [13, 10])) ++
    (45 :: 45 :: boundary ++ [45, 45, 13, 10])

/-- What is behind the first delimiter. -/
def behind (boundary : List UInt8) : List (List UInt8) → List UInt8
  | [] => [45, 45, 13, 10]
  | raw :: raws => 13 :: 10 :: (raw ++ (delimiter boundary ++ behind boundary raws))

/-- The body begins with a delimiter. -/
theorem written_eq (boundary : List UInt8) (raws : List (List UInt8)) :
    13 :: 10 :: written boundary raws = delimiter boundary ++ behind boundary raws := by
  induction raws with
  | nil => rfl
  | cons raw raws ih =>
    have hcons : written boundary (raw :: raws) =
        45 :: 45 :: boundary ++ 13 :: 10 :: (raw ++ 13 :: 10 :: written boundary raws) := by
      simp only [written, List.flatMap_cons, List.append_assoc, List.cons_append, List.nil_append]
    rw [hcons, ih]
    rfl

/-- The body is at least as long as the number of its parts. -/
theorem length_le_written (boundary : List UInt8) (raws : List (List UInt8)) :
    raws.length ≤ (written boundary raws).length := by
  induction raws with
  | nil => exact Nat.zero_le _
  | cons raw raws ih =>
    simp only [written, List.flatMap_cons, List.length_append, List.length_cons] at ih ⊢
    omega

variable {raws : List (List UInt8)} {parts : List Part}

/-- Parts that do not have the delimiter in them are read one by one. -/
theorem parseParts_behind_iff (hboundary : 13 ∉ boundary) (hraws : ∀ raw ∈ raws, ¬delimiter boundary <:+: raw) {k : ℕ}
    (hk : raws.length < k) :
    parseParts boundary k (behind boundary raws) = some parts ↔
      List.Forall₂ (fun raw part => parsePart raw = some part) raws parts := by
  induction raws generalizing k parts with
  | nil =>
    obtain ⟨k, rfl⟩ := Nat.exists_eq_add_of_lt hk
    rw [List.forall₂_nil_left_iff, parseParts, behind, if_pos (by decide), Option.some.injEq, eq_comm]
  | cons raw raws ih =>
    obtain ⟨k, rfl⟩ : ∃ j, k = j + 1 := ⟨k - 1, by omega⟩
    -- the delimiter begins with a CR, which the boundary does not have, so it is found where it is
    have hcr : 13 ∉ 10 :: 45 :: 45 :: boundary := by
      simp only [List.mem_cons, not_or]
      exact ⟨by decide, by decide, by decide, hboundary⟩
    have hbreak : breakOn (delimiter boundary) (raw ++ (delimiter boundary ++ behind boundary raws)) =
        some (raw, behind boundary raws) := breakOn_append hcr (hraws raw List.mem_cons_self) _
    have hstep : parseParts boundary (k + 1) (behind boundary (raw :: raws)) = do
        let (raw, s) ← breakOn (delimiter boundary) (raw ++ (delimiter boundary ++ behind boundary raws))
        let part ← parsePart raw
        let parts ← parseParts boundary k s
        return part :: parts := rfl
    rw [hstep, hbreak]
    simp only [Option.bind_eq_bind, Option.bind_some, Option.bind_eq_some_iff, Option.pure_def, Option.some.injEq]
    have hmore : ∀ parts, parseParts boundary k (behind boundary raws) = some parts ↔
        List.Forall₂ (fun raw part => parsePart raw = some part) raws parts := fun parts =>
      ih (fun raw hraw => hraws raw (List.mem_cons_of_mem _ hraw)) (Nat.lt_of_succ_lt_succ hk)
    constructor
    · rintro ⟨part, hpart, rest, hrest, rfl⟩
      exact .cons hpart ((hmore rest).mp hrest)
    · intro hall
      obtain ⟨part, rest, hpart, hrest, rfl⟩ := List.forall₂_cons_left_iff.mp hall
      exact ⟨part, hpart, rest, (hmore rest).mpr hrest, rfl⟩

/-- The boundary is read from the content type. -/
theorem boundaryOf_eq (hne : boundary ≠ []) (htoken : ∀ c ∈ boundary, isToken c = true) :
    boundaryOf (ascii "multipart/form-data; boundary=" ++ boundary) = some boundary := by
  obtain ⟨c, rest, rfl⟩ := List.exists_cons_of_ne_nil hne
  -- a token is no quoted string, so the value is taken as it stands
  have hquote : c ≠ 34 := by
    rintro rfl
    have hnone := htoken 34 List.mem_cons_self
    contradiction
  have hparams : ∀ k, params (k + 1) (ascii "; boundary=" ++ c :: rest) = do
      let more ← params k ((c :: rest).dropWhile isToken)
      return (ascii "boundary", (c :: rest).takeWhile isToken) :: more := by
    intro k
    have hstep : params (k + 1) (ascii "; boundary=" ++ c :: rest) =
        if (c :: rest).head? = some 34 then do
          let (value, s) ← unquote rest
          let more ← params k s
          return (ascii "boundary", value) :: more
        else do
          let more ← params k ((c :: rest).dropWhile isToken)
          return (ascii "boundary", (c :: rest).takeWhile isToken) :: more := rfl
    exact hstep.trans (if_neg fun heq => hquote (Option.some.inj heq))
  have htype : ((ascii "multipart/form-data; boundary=" ++ c :: rest).takeWhile (· ≠ 59)).map lowerByte =
      ascii "multipart/form-data" := rfl
  have hrest : (ascii "multipart/form-data; boundary=" ++ c :: rest).dropWhile (· ≠ 59) =
      ascii "; boundary=" ++ c :: rest := rfl
  obtain ⟨k, hk⟩ : ∃ k, (ascii "multipart/form-data; boundary=" ++ c :: rest).length = k + 2 :=
    ⟨_, rfl⟩
  have hnone : (c :: rest).dropWhile isToken = [] := List.dropWhile_eq_nil_iff.mpr htoken
  rw [boundaryOf, if_pos htype, hrest, hk, hparams, hnone, params_nil, List.takeWhile_eq_self_iff.mpr htoken]
  rfl

end FormData
