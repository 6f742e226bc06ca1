import Mathlib.Data.List.TakeWhile
import Mathlib.Data.String.Basic

/-!
# URLs in parts

How `urllib.parse` takes a URL apart and puts the parts together again, as of Python 3.13. What may be in an authority
is a parameter. The parts of a URL with another query are the parts of what `urlunsplit` makes of them
(`splitParts_urlunsplit`).
-/

namespace UrlSplit

/-- `SplitResult`. -/
structure SplitResult where
  scheme : List Char
  netloc : List Char
  path : List Char
  query : List Char
  fragment : List Char
deriving DecidableEq, Repr

/-! ## Taking apart -/

/-- The characters that are removed wherever they are. -/
def removed (c : Char) : Bool := c = '\t' || c = '\r' || c = '\n'

/-- Without control characters and blanks in front, and without tabs and line breaks. -/
def clean (url : List Char) : List Char :=
  (url.dropWhile fun c => c.toNat ≤ 32).filter fun c => !removed c

/-- `scheme_chars`. -/
def isSchemeChar (c : Char) : Bool := c.isAlphanum || c = '+' || c = '-' || c = '.'

/-- The parts before and after the first separator. -/
def partition (sep : Char) (s : List Char) : List Char × List Char :=
  (s.takeWhile (· ≠ sep), (s.dropWhile (· ≠ sep)).drop 1)

/-- A name in front of the first colon is the scheme. -/
def splitScheme (url : List Char) : List Char × List Char :=
  let name := url.takeWhile (· ≠ ':')
  if ':' ∈ url ∧ name.head?.any Char.isAlpha ∧ name.all isSchemeChar then
    (name.map Char.toLower, url.drop (name.length + 1))
  else ([], url)

/-- The characters of an authority. -/
def isNetlocChar (c : Char) : Bool := c ≠ '/' && c ≠ '?' && c ≠ '#'

/-- What is between `//` and the next delimiter is the authority. -/
def splitNetloc (url : List Char) : List Char × List Char :=
  if url.take 2 = ['/', '/'] then ((url.drop 2).takeWhile isNetlocChar, (url.drop 2).dropWhile isNetlocChar)
  else ([], url)

def splitParts (url : List Char) : SplitResult :=
  let scheme := splitScheme url
  let netloc := splitNetloc scheme.2
  let fragment := partition '#' netloc.2
  let query := partition '?' fragment.1
  ⟨scheme.1, netloc.1, query.1, query.2, fragment.2⟩

/-- `urlsplit`, which raises where the authority cannot be one. -/
def urlsplit {ε : Type} (checkNetloc : List Char → Except ε Unit) (url : List Char) : Except ε SplitResult := do
  let parts := splitParts (clean url)
  checkNetloc parts.netloc
  return parts

/-! ## Putting together -/

/-- `uses_netloc`. -/
def usesNetloc : List String :=
  ["", "ftp", "http", "gopher", "nntp", "telnet", "imap", "wais", "file", "mms", "https", "shttp", "snews", "prospero",
    "rtsp", "rtsps", "rtspu", "rsync", "svn", "svn+ssh", "sftp", "nfs", "git", "git+ssh", "ws", "wss", "itms-services"]

/-- The authority and the path of a URL. -/
def hierarchy (scheme netloc path : List Char) : List Char :=
  if netloc ≠ [] then
    '/' :: '/' :: netloc ++ if path ≠ [] ∧ path.take 1 ≠ ['/'] then '/' :: path else path
  else if path.take 2 = ['/', '/'] then '/' :: '/' :: path
  else if scheme ≠ [] ∧ String.ofList scheme ∈ usesNetloc ∧ (path = [] ∨ path.take 1 = ['/']) then '/' :: '/' :: path
  else path

/-- What is before the query. -/
def beforeQuery (scheme netloc path : List Char) : List Char :=
  if scheme ≠ [] then scheme ++ ':' :: hierarchy scheme netloc path else hierarchy scheme netloc path

/-- `urlunsplit`. -/
def urlunsplit (parts : SplitResult) : List Char :=
  beforeQuery parts.scheme parts.netloc parts.path ++ ((if parts.query ≠ [] then '?' :: parts.query else []) ++
    if parts.fragment ≠ [] then '#' :: parts.fragment else [])

/-! ## Cleaning -/

variable {url front back name netloc path query fragment : List Char} {c : Char}

/-- There is nothing to clean. -/
structure Clean (url : List Char) : Prop where
  kept : ∀ c ∈ url, removed c = false
  head : ∀ c, url.head? = some c → 32 < c.toNat

/-- A printable character is not removed. -/
theorem removed_eq_false (h : 32 < c.toNat) : removed c = false := by
  have hne : ∀ d : Char, d.toNat ≤ 32 → c ≠ d := by
    rintro d hd rfl
    omega
  simp [removed, hne '\t' (by decide), hne '\r' (by decide), hne '\n' (by decide)]

/-- A clean text is left as it is. -/
theorem Clean.eq (h : Clean url) : clean url = url := by
  have hdrop : url.dropWhile (fun c => c.toNat ≤ 32) = url := by
    cases url with
    | nil => rfl
    | cons c rest =>
      have hc := h.head c rfl
      exact List.dropWhile_cons_of_neg (by simpa using hc)
  rw [clean, hdrop]
  refine List.filter_eq_self.mpr fun c hc => ?_
  rw [h.kept c hc]
  rfl

/-- A cleaned text is clean. -/
theorem clean_clean (url : List Char) : Clean (clean url) := by
  refine ⟨fun c hc => ?_, fun c hc => ?_⟩
  · have hkept := (List.mem_filter.mp hc).2
    simpa using hkept
  · rw [clean] at hc
    cases hdrop : url.dropWhile (fun c => c.toNat ≤ 32) with
    | nil =>
      rw [hdrop] at hc
      contradiction
    | cons d rest =>
      -- the first character that is left is none that is removed
      have hd : 32 < d.toNat := by
        have hnot := List.head?_dropWhile_not (fun c : Char => c.toNat ≤ 32) url
        rw [hdrop] at hnot
        simpa using hnot
      rw [hdrop, List.filter_cons_of_pos (by simp [removed_eq_false hd])] at hc
      obtain rfl := Option.some.inj hc
      exact hd

/-- Cleaning a text is cleaning its front, where that is not all blank or the rest does not begin with blanks. -/
theorem clean_append (h : (∃ c ∈ front, 32 < c.toNat) ∨ ∀ c, back.head? = some c → 32 < c.toNat) :
    clean (front ++ back) = clean front ++ back.filter fun c => !removed c := by
  induction front with
  | nil =>
    -- only the blanks at the very front are dropped, so something must stop them
    have hback := h.resolve_left fun ⟨c, hc, _⟩ => List.not_mem_nil hc
    have hdrop : back.dropWhile (fun c => c.toNat ≤ 32) = back := by
      cases back with
      | nil => rfl
      | cons c rest =>
        have hc := hback c rfl
        exact List.dropWhile_cons_of_neg (by simpa using hc)
    rw [List.nil_append, clean, hdrop]
    rfl
  | cons d front ih =>
    by_cases hd : d.toNat ≤ 32
    · have hrest : (∃ c ∈ front, 32 < c.toNat) ∨ ∀ c, back.head? = some c → 32 < c.toNat := by
        refine h.imp_left ?_
        rintro ⟨c, hc, hlt⟩
        rcases List.mem_cons.mp hc with rfl | hc
        · omega
        · exact ⟨c, hc, hlt⟩
      have hstep : ∀ l, clean (d :: l) = clean l := by
        intro l
        rw [clean, List.dropWhile_cons_of_pos (by simpa using hd), clean]
      rw [List.cons_append, hstep, hstep, ih hrest]
    · have hstep : ∀ l, clean (d :: l) = (d :: l).filter fun c => !removed c := by
        intro l
        rw [clean, List.dropWhile_cons_of_neg (by simpa using hd)]
      rw [List.cons_append, hstep, hstep, ← List.filter_append, List.cons_append]

/-! ## What comes before the query -/

/-- Neither a query nor a fragment. -/
def Plain (s : List Char) : Prop := ∀ c ∈ s, c ≠ '?' ∧ c ≠ '#'

/-- A query or a fragment, or the end. -/
def Tail (s : List Char) : Prop := ∀ c, s.head? = some c → c = '?' ∨ c = '#'

/-- The query and the fragment of a tail. -/
def splitTail (s : List Char) : List Char × List Char :=
  ((partition '#' s).1.drop 1, (partition '#' s).2)

/-- A text is a part without query and fragment, and the rest. -/
theorem exists_plain_tail (url : List Char) : ∃ front back, url = front ++ back ∧ Plain front ∧ Tail back := by
  refine ⟨url.takeWhile fun c => decide (c ≠ '?' ∧ c ≠ '#'), url.dropWhile fun c => decide (c ≠ '?' ∧ c ≠ '#'),
    List.takeWhile_append_dropWhile.symm, fun c hc => ?_, fun c hc => ?_⟩
  · have hall := List.mem_takeWhile_imp hc
    exact of_decide_eq_true hall
  have hnot := List.head?_dropWhile_not (fun c : Char => decide (c ≠ '?' ∧ c ≠ '#')) url
  rw [hc] at hnot
  by_contra hother
  exact absurd (decide_eq_true (not_or.mp hother)) (by simpa using hnot)

/-- A part without the separator stands before it. -/
theorem partition_of_not_mem (h : c ∉ front) (back : List Char) :
    partition c (front ++ back) = (front ++ (partition c back).1, (partition c back).2) := by
  have hall : ∀ d ∈ front, decide (d ≠ c) = true := fun d hd => decide_eq_true fun heq => h (heq ▸ hd)
  rw [partition, List.takeWhile_append_of_pos hall, List.dropWhile_append_of_pos hall, partition]

theorem partition_cons (c : Char) (s : List Char) : partition c (c :: s) = ([], s) := by
  rw [partition, List.takeWhile_cons_of_neg (by simp), List.dropWhile_cons_of_neg (by simp)]
  rfl

theorem Plain.not_mem (h : Plain front) : '?' ∉ front ∧ '#' ∉ front :=
  ⟨fun hmem => (h _ hmem).1 rfl, fun hmem => (h _ hmem).2 rfl⟩

/-- What comes after a plain text is not part of its scheme. -/
theorem splitScheme_append (hfront : Plain front) (hback : Tail back) :
    splitScheme (front ++ back) = ((splitScheme front).1, (splitScheme front).2 ++ back) := by
  by_cases hcolon : ':' ∈ front
  · obtain ⟨before, after, rfl, hbefore⟩ := List.eq_append_cons_of_mem hcolon
    have hall : ∀ d ∈ before, decide (d ≠ ':') = true := fun d hd => decide_eq_true fun heq => hbefore (heq ▸ hd)
    have htake : ∀ l, (before ++ ':' :: l).takeWhile (· ≠ ':') = before := by
      intro l
      rw [List.takeWhile_append_of_pos hall, List.takeWhile_cons_of_neg (by simp), List.append_nil]
    have hdrop : ∀ l, (before ++ ':' :: l).drop (before.length + 1) = l := by
      intro l
      rw [List.drop_append, List.drop_of_length_le (Nat.le_succ _), Nat.add_sub_cancel_left]
      rfl
    have hmem : ∀ l, ':' ∈ before ++ ':' :: l := fun l => List.mem_append_right _ List.mem_cons_self
    simp only [splitScheme, List.append_assoc, List.cons_append, htake, hdrop, hmem, true_and]
    split_ifs
    · rfl
    · rw [List.append_assoc, List.cons_append]
  · have hnone : splitScheme front = ([], front) := if_neg fun h => hcolon h.1
    rw [hnone]
    refine if_neg fun h => ?_
    -- the colon comes after a delimiter
    have hall : ∀ d ∈ front, decide (d ≠ ':') = true := fun d hd => decide_eq_true fun heq => hcolon (heq ▸ hd)
    cases back with
    | nil =>
      rw [List.append_nil] at h
      exact hcolon h.1
    | cons d rest =>
      have hd := hback d rfl
      have hne : decide (d ≠ ':') = true := by
        rcases hd with rfl | rfl
        · decide
        · decide
      have hscheme := h.2.2
      rw [List.takeWhile_append_of_pos hall, List.takeWhile_cons_of_pos (p := fun c => decide (c ≠ ':')) hne,
        List.all_append, List.all_cons, Bool.and_eq_true, Bool.and_eq_true] at hscheme
      have hchar := hscheme.2.1
      rcases hd with rfl | rfl
      · contradiction
      · contradiction

/-- Whether the text begins with two slashes is decided in the plain part. -/
theorem take_two_append (hback : Tail back) : (front ++ back).take 2 = ['/', '/'] ↔ front.take 2 = ['/', '/'] := by
  have hslash : ∀ l, back ≠ '/' :: l := by
    rintro l rfl
    exact (hback '/' rfl).elim (by decide) (by decide)
  match front with
  | a :: b :: front => rfl
  | [a] =>
    refine iff_of_false (fun h => ?_) (by simp)
    cases back with
    | nil => simp at h
    | cons d rest =>
      obtain ⟨-, rfl⟩ : a = '/' ∧ d = '/' := by simpa using h
      exact hslash rest rfl
  | [] =>
    refine iff_of_false (fun h => ?_) (by simp)
    cases back with
    | nil => simp at h
    | cons d rest =>
      obtain ⟨rfl, -⟩ : d = '/' ∧ rest.take 1 = ['/'] := by simpa using h
      exact hslash rest rfl

/-- An authority ends where a tail begins, if not before. -/
theorem netloc_append (hback : ∀ c, back.head? = some c → isNetlocChar c = false) (front : List Char) :
    (front ++ back).takeWhile isNetlocChar = front.takeWhile isNetlocChar ∧
      (front ++ back).dropWhile isNetlocChar = front.dropWhile isNetlocChar ++ back := by
  induction front with
  | nil =>
    cases back with
    | nil => exact ⟨rfl, rfl⟩
    | cons d rest =>
      have hd := hback d rfl
      exact ⟨List.takeWhile_cons_of_neg (by simp [hd]), List.dropWhile_cons_of_neg (by simp [hd])⟩
  | cons c front ih =>
    rw [List.cons_append, List.takeWhile_cons, List.takeWhile_cons, List.dropWhile_cons, List.dropWhile_cons]
    split_ifs
    · exact ⟨congrArg _ ih.1, ih.2⟩
    · exact ⟨rfl, rfl⟩

/-- The network location is in the plain part. -/
theorem splitNetloc_append (hback : Tail back) :
    splitNetloc (front ++ back) = ((splitNetloc front).1, (splitNetloc front).2 ++ back) := by
  rw [splitNetloc, splitNetloc]
  simp only [take_two_append hback]
  split_ifs with hslashes
  · have hlength : 2 ≤ front.length := by
      have h := congrArg List.length hslashes
      rw [List.length_take, List.length_cons, List.length_singleton] at h
      omega
    have hends : ∀ c, back.head? = some c → isNetlocChar c = false := by
      intro c hc
      rcases hback c hc with rfl | rfl
      · decide
      · decide
    rw [List.drop_append_of_le_length hlength, (netloc_append hends _).1, (netloc_append hends _).2]
  · rfl

/-- Behind the network location is the end of the text. -/
theorem splitNetloc_suffix (url : List Char) : (splitNetloc url).2 <:+ url := by
  rw [splitNetloc]
  split_ifs
  · exact (List.dropWhile_suffix _).trans (List.drop_suffix _ _)
  · exact List.suffix_refl _

/-- Behind the scheme is the end of the text. -/
theorem splitScheme_suffix (url : List Char) : (splitScheme url).2 <:+ url := by
  simp only [splitScheme]
  split_ifs
  · exact List.drop_suffix _ _
  · exact List.suffix_refl _

/-- What is left of a plain text without its scheme and its authority is the path. -/
theorem plain_path (hfront : Plain front) : Plain (splitNetloc (splitScheme front).2).2 := fun c hc =>
  hfront c (((splitNetloc_suffix _).trans (splitScheme_suffix front)).subset hc)

/-- The parts of a text are those of what is before its query, with the query and the fragment. -/
theorem splitParts_append (hfront : Plain front) (hback : Tail back) :
    splitParts (front ++ back) =
      ⟨(splitScheme front).1, (splitNetloc (splitScheme front).2).1, (splitNetloc (splitScheme front).2).2,
        (splitTail back).1, (splitTail back).2⟩ := by
  have hpath := (plain_path hfront).not_mem
  have hquery : partition '?' (partition '#' back).1 = ([], (partition '#' back).1.drop 1) := by
    cases back with
    | nil => rfl
    | cons d rest =>
      rcases hback d rfl with rfl | rfl
      · have hcut : (partition '#' ('?' :: rest)).1 = '?' :: (partition '#' rest).1 :=
          congrArg Prod.fst (partition_of_not_mem (by decide : '#' ∉ ['?']) rest)
        rw [hcut, partition_cons]
        rfl
      · rw [partition_cons]
        rfl
  rw [splitParts, splitScheme_append hfront hback, splitNetloc_append hback]
  dsimp only
  rw [partition_of_not_mem hpath.2, partition_of_not_mem hpath.1, hquery, List.append_nil]
  rfl

/-! ## Parts that are put together -/

/-- A scheme character in lower case is one, and stays as it is. -/
theorem toLower_spec (hc : isSchemeChar c) : isSchemeChar c.toLower ∧ c.toLower.toLower = c.toLower ∧
    (c.isAlpha → c.toLower.isAlpha) := by
  have hascii : ∀ n < 128, isSchemeChar (Char.ofNat n) → isSchemeChar (Char.ofNat n).toLower ∧
      (Char.ofNat n).toLower.toLower = (Char.ofNat n).toLower ∧
      ((Char.ofNat n).isAlpha → (Char.ofNat n).toLower.isAlpha) := by decide
  have hlt : c.toNat < 128 := by
    simp only [isSchemeChar, Bool.or_eq_true, decide_eq_true_eq] at hc
    rcases hc with ((hc | rfl) | rfl) | rfl
    · have hranges : c.isAlphanum = ((decide (65 ≤ c.val ∧ c.val ≤ 90) ||
          decide (97 ≤ c.val) && decide (c.val ≤ 122)) || decide (48 ≤ c.val) && decide (c.val ≤ 57)) := rfl
      simp only [hranges, Bool.or_eq_true, Bool.and_eq_true, decide_eq_true_eq, UInt32.le_iff_toNat_le] at hc
      have hval : c.toNat = c.val.toNat := rfl
      rw [hval]
      rcases hc with (⟨-, hc⟩ | ⟨-, hc⟩) | ⟨-, hc⟩
      · exact Nat.lt_of_le_of_lt hc (by decide)
      · exact Nat.lt_of_le_of_lt hc (by decide)
      · exact Nat.lt_of_le_of_lt hc (by decide)
    · decide
    · decide
    · decide
  have h := hascii c.toNat hlt
  rw [Char.ofNat_toNat] at h
  exact h hc

/-- A scheme, or none. -/
structure Scheme (name : List Char) : Prop where
  head : name ≠ [] → name.head?.any Char.isAlpha
  chars : ∀ c ∈ name, isSchemeChar c
  lower : name.map Char.toLower = name

/-- What is split off is a scheme. -/
theorem scheme_splitScheme (url : List Char) : Scheme (splitScheme url).1 := by
  simp only [splitScheme]
  split_ifs with h
  · obtain ⟨-, hhead, hall⟩ := h
    have hchars := List.all_eq_true.mp hall
    refine ⟨fun _ => ?_, fun c hc => ?_, ?_⟩
    · cases hname : url.takeWhile (· ≠ ':') with
      | nil =>
        rw [hname] at hhead
        contradiction
      | cons d rest =>
        rw [hname] at hhead hchars
        exact (toLower_spec (hchars d List.mem_cons_self)).2.2 hhead
    · obtain ⟨d, hd, rfl⟩ := List.mem_map.mp hc
      exact (toLower_spec (hchars d hd)).1
    · rw [List.map_map]
      exact List.map_congr_left fun d hd => (toLower_spec (hchars d hd)).2.1
  · exact ⟨fun hne => absurd rfl hne, fun c hc => absurd hc List.not_mem_nil, rfl⟩

/-- A scheme before a colon is split off. -/
theorem splitScheme_cons (hname : Scheme name) (hne : name ≠ []) (rest : List Char) :
    splitScheme (name ++ ':' :: rest) = (name, rest) := by
  have hall : ∀ d ∈ name, decide (d ≠ ':') = true := by
    intro d hd
    refine decide_eq_true ?_
    rintro rfl
    exact absurd (hname.chars _ hd) (by decide)
  have htake : (name ++ ':' :: rest).takeWhile (· ≠ ':') = name := by
    rw [List.takeWhile_append_of_pos hall, List.takeWhile_cons_of_neg (by simp), List.append_nil]
  have hdrop : (name ++ ':' :: rest).drop (name.length + 1) = rest := by
    rw [List.drop_append, List.drop_of_length_le (Nat.le_succ _), Nat.add_sub_cancel_left]
    rfl
  simp only [splitScheme, htake, hdrop]
  rw [if_pos ⟨List.mem_append_right _ List.mem_cons_self, hname.head hne, List.all_eq_true.mpr hname.chars⟩,
    hname.lower]

/-- Nothing that begins with a slash has a scheme. -/
theorem splitScheme_slash (rest : List Char) : splitScheme ('/' :: rest) = ([], '/' :: rest) := by
  refine if_neg fun h => ?_
  have hhead := h.2.1
  rw [List.takeWhile_cons_of_pos (by decide)] at hhead
  contradiction

/-- An authority and a path that were split are so again. -/
theorem splitNetloc_slashes (hnetloc : ∀ c ∈ netloc, isNetlocChar c) (hpath : path = [] ∨ path.take 1 = ['/']) :
    splitNetloc ('/' :: '/' :: netloc ++ path) = (netloc, path) := by
  have hends : ∀ c, path.head? = some c → isNetlocChar c = false := by
    intro c hc
    cases path with
    | nil => contradiction
    | cons d rest =>
      obtain rfl : d = '/' := by simpa using hpath
      obtain rfl := Option.some.inj hc
      decide
  have hall := netloc_append hends netloc
  rw [List.takeWhile_eq_self_iff.mpr hnetloc, List.dropWhile_eq_nil_iff.mpr hnetloc] at hall
  exact (if_pos rfl).trans (Prod.ext hall.1 hall.2)

/-- The parts that can be before a query. -/
structure Hierarchy (scheme netloc path : List Char) : Prop where
  name : Scheme scheme
  plain : Plain path
  chars : ∀ c ∈ netloc, isNetlocChar c
  /-- after an authority, the path is empty or begins with a slash -/
  rooted : netloc ≠ [] → path = [] ∨ path.take 1 = ['/']
  /-- without scheme and authority, the path begins with no scheme -/
  bare : scheme = [] → netloc = [] → splitScheme path = ([], path)

/-- Without a scheme the text is left as it is. -/
theorem splitScheme_of_nil (h : (splitScheme url).1 = []) : splitScheme url = ([], url) := by
  simp only [splitScheme] at h ⊢
  split_ifs at h ⊢ with hname
  · rw [List.map_eq_nil_iff.mp h] at hname
    exact absurd hname.2.1 Bool.false_ne_true
  · rfl

/-- A rooted path has no scheme. -/
theorem splitScheme_rooted (h : path = [] ∨ path.take 1 = ['/']) : splitScheme path = ([], path) := by
  cases path with
  | nil => rfl
  | cons c rest =>
    obtain rfl : c = '/' := by simpa using h
    exact splitScheme_slash rest

/-- The path after slashes. -/
theorem rooted_splitNetloc (hurl : Plain url) (hslashes : url.take 2 = ['/', '/']) :
    (splitNetloc url).2 = [] ∨ (splitNetloc url).2.take 1 = ['/'] := by
  have hplain : Plain (splitNetloc url).2 := fun c hc => hurl c ((splitNetloc_suffix url).subset hc)
  have hdrop : (splitNetloc url).2 = (url.drop 2).dropWhile isNetlocChar := by rw [splitNetloc, if_pos hslashes]
  cases hpath : (splitNetloc url).2 with
  | nil => exact .inl rfl
  | cons c rest =>
    have hnot := List.head?_dropWhile_not isNetlocChar (url.drop 2)
    rw [← hdrop, hpath] at hnot
    obtain ⟨hquery, hfragment⟩ := hplain c (hpath ▸ List.mem_cons_self)
    have hslash : c = '/' := by
      by_contra hne
      simp [isNetlocChar, hne, hquery, hfragment] at hnot
    rw [hslash]
    exact .inr rfl

/-- The parts of a plain text make a hierarchy. -/
theorem hierarchy_splitParts (hfront : Plain front) :
    Hierarchy (splitScheme front).1 (splitNetloc (splitScheme front).2).1 (splitNetloc (splitScheme front).2).2 := by
  have hplain : Plain (splitScheme front).2 := fun c hc => hfront c ((splitScheme_suffix front).subset hc)
  refine ⟨scheme_splitScheme front, plain_path hfront, fun c hc => ?_, fun hne => ?_, fun hscheme hnetloc => ?_⟩
  · rw [splitNetloc] at hc
    split_ifs at hc
    · exact List.mem_takeWhile_imp hc
    · contradiction
  · by_cases hslashes : (splitScheme front).2.take 2 = ['/', '/']
    · exact rooted_splitNetloc hplain hslashes
    · rw [splitNetloc, if_neg hslashes] at hne
      exact absurd rfl hne
  · by_cases hslashes : (splitScheme front).2.take 2 = ['/', '/']
    · exact splitScheme_rooted (rooted_splitNetloc hplain hslashes)
    · have hall : (splitNetloc (splitScheme front).2).2 = front := by
        rw [splitNetloc, if_neg hslashes, splitScheme_of_nil hscheme]
      rw [hall]
      exact splitScheme_of_nil hscheme

/-- The authority and the path are found again. -/
theorem splitNetloc_hierarchy (h : Hierarchy scheme netloc path) :
    splitNetloc (hierarchy scheme netloc path) = (netloc, path) := by
  rw [hierarchy]
  split_ifs with hnetloc hbare hslashes hroot
  · exact absurd (h.rooted hnetloc) (not_or.mpr hbare)
  · exact splitNetloc_slashes h.chars (h.rooted hnetloc)
  all_goals rw [ne_eq, not_not] at hnetloc
  all_goals have hnone : ∀ c ∈ ([] : List Char), isNetlocChar c := fun c hc => absurd hc List.not_mem_nil
  · rw [hnetloc]
    have hone := congrArg (List.take 1) hslashes
    rw [List.take_take] at hone
    exact splitNetloc_slashes hnone (.inr hone)
  · rw [hnetloc]
    exact splitNetloc_slashes hnone hroot.2.2
  · rw [hnetloc]
    exact if_neg hslashes

/-- So is the scheme. -/
theorem splitScheme_beforeQuery (h : Hierarchy scheme netloc path) :
    splitScheme (beforeQuery scheme netloc path) = (scheme, hierarchy scheme netloc path) := by
  rw [beforeQuery]
  split_ifs with hscheme
  · exact splitScheme_cons h.name hscheme _
  · rw [ne_eq, not_not] at hscheme
    rw [hierarchy]
    split_ifs with hnetloc hbare hslashes hroot
    · exact absurd (h.rooted hnetloc) (not_or.mpr hbare)
    · rw [hscheme]
      exact splitScheme_slash _
    · rw [hscheme]
      exact splitScheme_slash _
    · exact absurd hscheme hroot.1
    · rw [hscheme]
      exact h.bare hscheme (not_not.mp hnetloc)

/-- The characters of a hierarchical part. -/
theorem mem_hierarchy {c : Char} (h : c ∈ hierarchy scheme netloc path) : c = '/' ∨ c ∈ netloc ∨ c ∈ path := by
  have hslashes : ∀ l : List Char, c ∈ '/' :: '/' :: l → c = '/' ∨ c ∈ l := by
    intro l hc
    rcases List.mem_cons.mp hc with hc | hc
    · exact .inl hc
    · exact List.mem_cons.mp hc
  rw [hierarchy] at h
  split_ifs at h
  · rcases List.mem_append.mp h with h | h
    · exact (hslashes _ h).imp_right .inl
    · exact (List.mem_cons.mp h).imp_right .inr
  · rcases List.mem_append.mp h with h | h
    · exact (hslashes _ h).imp_right .inl
    · exact .inr (.inr h)
  · exact (hslashes _ h).imp_right .inr
  · exact (hslashes _ h).imp_right .inr
  · exact .inr (.inr h)

/-- The characters before the query. -/
theorem mem_beforeQuery {c : Char} (h : c ∈ beforeQuery scheme netloc path) :
    c ∈ scheme ∨ c = ':' ∨ c = '/' ∨ c ∈ netloc ∨ c ∈ path := by
  rw [beforeQuery] at h
  split_ifs at h
  · rcases List.mem_append.mp h with h | h
    · exact .inl h
    · exact .inr ((List.mem_cons.mp h).imp_right mem_hierarchy)
  · exact .inr (.inr (mem_hierarchy h))

/-- A hierarchy is plain. -/
theorem plain_beforeQuery (h : Hierarchy scheme netloc path) : Plain (beforeQuery scheme netloc path) := by
  intro c hc
  have hne : ∀ d : Char, d ≠ '?' → d ≠ '#' → c = d → c ≠ '?' ∧ c ≠ '#' := fun d hq hf heq => heq ▸ ⟨hq, hf⟩
  rcases mem_beforeQuery hc with hc | hc | hc | hc | hc
  · have hchar := h.name.chars c hc
    refine ⟨?_, ?_⟩
    · rintro rfl
      exact absurd hchar (by decide)
    · rintro rfl
      exact absurd hchar (by decide)
  · exact hne ':' (by decide) (by decide) hc
  · exact hne '/' (by decide) (by decide) hc
  · have hchar := h.chars c hc
    simp only [isNetlocChar, Bool.and_eq_true, decide_eq_true_eq] at hchar
    exact ⟨hchar.1.2, hchar.2⟩
  · exact h.plain c hc

/-- A query and a fragment are found again. -/
theorem splitTail_eq (hquery : '#' ∉ query) (fragment : List Char) :
    Tail ((if query ≠ [] then '?' :: query else []) ++ if fragment ≠ [] then '#' :: fragment else []) ∧
      splitTail ((if query ≠ [] then '?' :: query else []) ++ if fragment ≠ [] then '#' :: fragment else []) =
        (query, fragment) := by
  have hfragment : partition '#' (if fragment ≠ [] then '#' :: fragment else []) = ([], fragment) := by
    split_ifs with h
    · exact partition_cons _ _
    · rw [not_not.mp h]
      rfl
  -- the query ends at the first `#`, and it has none of its own
  have hnone : '#' ∉ if query ≠ [] then '?' :: query else [] := by
    split_ifs
    · exact mt List.mem_cons.mp (not_or.mpr ⟨by decide, hquery⟩)
    · exact List.not_mem_nil
  constructor
  · intro c hc
    by_cases hempty : query = []
    · rw [if_neg (not_not.mpr hempty), List.nil_append] at hc
      split_ifs at hc
      · exact .inr (Option.some.inj hc).symm
      · contradiction
    · rw [if_pos hempty] at hc
      exact .inl (Option.some.inj hc).symm
  · rw [splitTail, partition_of_not_mem hnone, hfragment, List.append_nil]
    split_ifs with h
    · rfl
    · rw [not_not.mp h]
      rfl

/-- The parts of a hierarchy are read back from the text they are joined to. -/
theorem splitParts_urlunsplit {parts : SplitResult} (h : Hierarchy parts.scheme parts.netloc parts.path)
    (hquery : '#' ∉ parts.query) : splitParts (urlunsplit parts) = parts := by
  obtain ⟨htail, hsplit⟩ := splitTail_eq hquery parts.fragment
  rw [urlunsplit, splitParts_append (plain_beforeQuery h) htail, hsplit, splitScheme_beforeQuery h]
  dsimp only
  rw [splitNetloc_hierarchy h]

/-! ## URLs -/

/-- The parts of a clean text. -/
structure CleanParts (parts : SplitResult) : Prop where
  netloc : ∀ c ∈ parts.netloc, removed c = false
  path : ∀ c ∈ parts.path, removed c = false
  query : ∀ c ∈ parts.query, removed c = false
  fragment : ∀ c ∈ parts.fragment, removed c = false
  /-- the text that is made of them does not begin with a blank -/
  head : parts.scheme = [] → parts.netloc = [] → ∀ c, parts.path.head? = some c → 32 < c.toNat

/-- The parts of a partition have the characters of the text. -/
theorem mem_of_mem_partition {sep c : Char} {s : List Char} (h : c ∈ (partition sep s).1 ∨ c ∈ (partition sep s).2) :
    c ∈ s := by
  rcases h with h | h
  · exact (List.takeWhile_prefix _).subset h
  · exact (List.dropWhile_suffix _).subset (List.mem_of_mem_drop h)

/-- The parts of a clean text are clean. -/
theorem cleanParts_splitParts (hurl : Clean url) : CleanParts (splitParts url) := by
  have hnetloc : ∀ c ∈ (splitNetloc (splitScheme url).2).2, removed c = false := fun c hc =>
    hurl.kept c (((splitNetloc_suffix _).trans (splitScheme_suffix url)).subset hc)
  have hbefore : ∀ c ∈ (partition '#' (splitNetloc (splitScheme url).2).2).1, removed c = false := fun c hc =>
    hnetloc c (mem_of_mem_partition (.inl hc))
  refine ⟨fun c hc => ?_, fun c hc => hbefore c (mem_of_mem_partition (.inl hc)),
    fun c hc => hbefore c (mem_of_mem_partition (.inr hc)), fun c hc => hnetloc c (mem_of_mem_partition (.inr hc)), ?_⟩
  · refine hurl.kept c ((splitScheme_suffix url).subset ?_)
    rw [splitParts, splitNetloc] at hc
    dsimp only at hc
    split_ifs at hc
    · exact List.mem_of_mem_drop ((List.takeWhile_prefix _).subset hc)
    · contradiction
  -- without scheme and authority the path begins where the URL did
  · obtain ⟨front, back, rfl, hfront, hback⟩ := exists_plain_tail url
    have hplain : Plain (splitScheme front).2 := fun c hc => hfront c ((splitScheme_suffix front).subset hc)
    rw [splitParts_append hfront hback]
    intro hscheme _ c hc
    by_cases hslashes : (splitScheme front).2.take 2 = ['/', '/']
    · rcases rooted_splitNetloc hplain hslashes with hnil | hslash
      · dsimp only at hc
        rw [hnil] at hc
        contradiction
      · obtain ⟨rest, hrest⟩ := List.head?_eq_some_iff.mp hc
        dsimp only at hrest
        rw [hrest] at hslash
        obtain rfl : c = '/' := by simpa using hslash
        decide
    · have hall : (splitNetloc (splitScheme front).2).2 = front := by
        rw [splitNetloc, if_neg hslashes, splitScheme_of_nil hscheme]
      dsimp only at hc
      rw [hall] at hc
      refine hurl.head c ?_
      rw [List.head?_append, hc, Option.some_or]

/-- A URL begins with its scheme, with a slash or with its path. -/
theorem head_beforeQuery {c : Char} (h : (beforeQuery scheme netloc path).head? = some c) :
    c ∈ scheme ∨ c = '/' ∨ scheme = [] ∧ netloc = [] ∧ path.head? = some c := by
  rw [beforeQuery] at h
  split_ifs at h with hscheme
  · obtain ⟨d, rest, rfl⟩ := List.exists_cons_of_ne_nil hscheme
    obtain rfl := Option.some.inj h
    exact .inl List.mem_cons_self
  · rw [hierarchy] at h
    split_ifs at h with hnetloc
    · exact .inr (.inl (Option.some.inj h).symm)
    · exact .inr (.inl (Option.some.inj h).symm)
    · exact .inr (.inl (Option.some.inj h).symm)
    · exact .inr (.inl (Option.some.inj h).symm)
    · exact .inr (.inr ⟨not_not.mp hscheme, not_not.mp hnetloc, h⟩)

/-- Scheme characters are printable. -/
theorem lt_of_isSchemeChar {c : Char} (h : isSchemeChar c) : 32 < c.toNat := by
  have hnone : ∀ n ≤ 32, isSchemeChar (Char.ofNat n) = false := by decide
  by_contra hle
  have hc := hnone c.toNat (Nat.le_of_not_lt hle)
  rw [Char.ofNat_toNat, h] at hc
  contradiction

/-- The text that is made of clean parts is clean. -/
theorem clean_urlunsplit {parts : SplitResult} (h : Hierarchy parts.scheme parts.netloc parts.path)
    (hquery : '#' ∉ parts.query) (hclean : CleanParts parts) : Clean (urlunsplit parts) := by
  -- each part is put behind a mark that is never removed
  have hone : ∀ (d : Char) (p : Prop) [Decidable p] (l : List Char) (c : Char), removed d = false →
      (∀ c ∈ l, removed c = false) → c ∈ (if p then d :: l else []) → removed c = false := by
    intro d p _ l c hd hl hc
    split_ifs at hc
    · rcases List.mem_cons.mp hc with rfl | hc
      · exact hd
      · exact hl c hc
    · contradiction
  constructor
  · intro c hc
    rcases List.mem_append.mp hc with hc | hc
    · rcases mem_beforeQuery hc with hc | rfl | rfl | hc | hc
      · exact removed_eq_false (lt_of_isSchemeChar (h.name.chars c hc))
      · decide
      · decide
      · exact hclean.netloc c hc
      · exact hclean.path c hc
    · rcases List.mem_append.mp hc with hc | hc
      · exact hone '?' _ _ c (by decide) hclean.query hc
      · exact hone '#' _ _ c (by decide) hclean.fragment hc
  -- the first character comes from the first part that is not empty
  · intro c hc
    have htail := (splitTail_eq hquery parts.fragment).1 c
    rw [urlunsplit, List.head?_append, Option.or_eq_some_iff] at hc
    rcases hc with hc | ⟨-, hc⟩
    · rcases head_beforeQuery hc with hc | rfl | ⟨hscheme, hnetloc, hc⟩
      · exact lt_of_isSchemeChar (h.name.chars c hc)
      · decide
      · exact hclean.head hscheme hnetloc c hc
    · rcases htail hc with rfl | rfl
      · decide
      · decide

/-- The parts of a URL with another query are the parts of what is made of them. -/
theorem urlsplit_urlunsplit {ε : Type} {checkNetloc : List Char → Except ε Unit} {parts : SplitResult}
    (h : urlsplit checkNetloc url = .ok parts) (hquery : ∀ c ∈ query, removed c = false ∧ c ≠ '#') :
    urlsplit checkNetloc (urlunsplit { parts with query := query }) = .ok { parts with query := query } := by
  have hfragment : '#' ∉ query := fun hmem => (hquery '#' hmem).2 rfl
  rw [urlsplit] at h ⊢
  cases hcheck : checkNetloc (splitParts (clean url)).netloc with
  | error err =>
    rw [hcheck] at h
    contradiction
  | ok _ =>
    rw [hcheck] at h
    obtain rfl := Except.ok.inj h
    have hparts : Hierarchy (splitParts (clean url)).scheme (splitParts (clean url)).netloc
        (splitParts (clean url)).path := by
      obtain ⟨front, back, hsplit, hfront, hback⟩ := exists_plain_tail (clean url)
      rw [hsplit, splitParts_append hfront hback]
      exact hierarchy_splitParts hfront
    have hold := cleanParts_splitParts (clean_clean url)
    have hnew : CleanParts { splitParts (clean url) with query := query } :=
      ⟨hold.netloc, hold.path, fun c hc => (hquery c hc).1, hold.fragment, hold.head⟩
    have hclean := @clean_urlunsplit { splitParts (clean url) with query := query } hparts hfragment hnew
    have hsplit := @splitParts_urlunsplit { splitParts (clean url) with query := query } hparts hfragment
    rw [hclean.eq, hsplit, hcheck]
    rfl

end UrlSplit
