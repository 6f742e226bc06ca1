import Mathlib.Data.List.TakeWhile
import TlsClient.Library.HostPort

/-!
# Reading ahead

A buffered reader over a connection, as Go's `bufio.Reader`: it makes a read when what it has buffered is not enough,
and keeps what the read gives beyond. The connection is the list of what its reads give, any cut of a byte stream. A
line that is longer than the buffer comes in parts that the caller puts together, which makes no other reads.

`Steps` says of a computation what it has consumed, which reads it has made for it, and that it has made none that it
did not need. `Steps.buffered_eq_nil_iff` is what follows for somebody who goes on with the connection under the
reader: what has been read ahead is nothing exactly if a read ends where the consumed part does.
-/

namespace BufferedReader

open WireBytes HostPort

/-- What is buffered, and what the next reads give. -/
structure Reader where
  buffered : Bytes
  reads : List Bytes

/-- All that is still to be read. -/
def Reader.stream (r : Reader) : Bytes := r.buffered ++ r.reads.flatten

def lf : UInt8 := 10

def cr : UInt8 := 13

/-- A line without the carriage return at its end. -/
def chomp (line : Bytes) : Bytes := if line.getLast? = some cr then line.dropLast else line

/-- `ReadLine`. Where the reads end, what is left is a line. -/
def readLineFrom (buffered : Bytes) (reads : List Bytes) : Option (Bytes × Reader) :=
  match splitFirst lf buffered with
  | some (before, after) => some (chomp before, ⟨after, reads⟩)
  | none =>
    match reads with
    | p :: rest => readLineFrom (buffered ++ p) rest
    | [] => if buffered = [] then none else some (buffered, ⟨[], []⟩)

def readLine (r : Reader) : Option (Bytes × Reader) := readLineFrom r.buffered r.reads

/-- `ReadByte` and `UnreadByte` until there is no blank: how many there were. -/
def skipSpaceFrom (buffered : Bytes) (reads : List Bytes) : ℕ × Reader :=
  match buffered.dropWhile isBlank, reads with
  | [], p :: rest => ((skipSpaceFrom p rest).1 + buffered.length, (skipSpaceFrom p rest).2)
  | left, reads => (buffered.length - left.length, ⟨left, reads⟩)

def skipSpace (r : Reader) : ℕ × Reader := skipSpaceFrom r.buffered r.reads

/-- `Peek(1)` -/
def peekFrom (buffered : Bytes) (reads : List Bytes) : Reader :=
  match buffered, reads with
  | [], p :: rest => peekFrom p rest
  | buffered, reads => ⟨buffered, reads⟩

def peek (r : Reader) : Reader := peekFrom r.buffered r.reads

/-! ## What has been consumed and what has been read -/

/-- From `r` to `r'`, `c` has been consumed, and each read was made while fewer than `d` bytes were there. -/
structure Steps (r r' : Reader) (c : Bytes) (d : ℕ) : Prop where
  made : ∃ k, r'.reads = r.reads.drop k ∧ r.buffered ++ (r.reads.take k).flatten = c ++ r'.buffered ∧
    ∀ j < k, (r.buffered ++ (r.reads.take j).flatten).length < d

section Steps

variable {r r' r'' : Reader} {c c' p buffered : Bytes} {reads : List Bytes} {d d' : ℕ}

theorem Steps.refl (r : Reader) (d : ℕ) : Steps r r [] d :=
  ⟨0, rfl, by simp, fun j hj => absurd hj (Nat.not_lt_zero j)⟩

theorem Steps.mono (h : Steps r r' c d) (hd : d ≤ d') : Steps r r' c d' := by
  obtain ⟨k, hreads, hbuffered, hneeded⟩ := h.made
  exact ⟨k, hreads, hbuffered, fun j hj => (hneeded j hj).trans_le hd⟩

/-- Part of what is buffered is consumed without a read. -/
theorem Steps.of_buffered (after : Bytes) : Steps ⟨c ++ after, reads⟩ ⟨after, reads⟩ c d :=
  ⟨0, rfl, by simp, fun j hj => absurd hj (Nat.not_lt_zero j)⟩

/-- A read that is needed comes first. -/
theorem Steps.read (hneeded : buffered.length < d) (h : Steps ⟨buffered ++ p, reads⟩ r' c d) :
    Steps ⟨buffered, p :: reads⟩ r' c d := by
  obtain ⟨k, hreads, hbuffered, hrest⟩ := h.made
  refine ⟨k + 1, hreads, ?_, fun j hj => ?_⟩
  · rw [List.take_succ_cons, List.flatten_cons, ← hbuffered, List.append_assoc]
  · cases j with
    | zero => simpa using hneeded
    | succ j =>
      have hj := hrest j (by omega)
      rw [List.take_succ_cons, List.flatten_cons, ← List.append_assoc]
      exact hj

/-- Steps one after another. -/
theorem Steps.trans (h : Steps r r' c d) (h' : Steps r' r'' c' d') :
    Steps r r'' (c ++ c') (max d (c.length + d')) := by
  obtain ⟨k, hreads, hbuffered, hneeded⟩ := h.made
  obtain ⟨k', hreads', hbuffered', hneeded'⟩ := h'.made
  have htake : ∀ j, r.buffered ++ (r.reads.take (k + j)).flatten = c ++ (r'.buffered ++ (r'.reads.take j).flatten) := by
    intro j
    rw [List.take_add, List.flatten_append, ← List.append_assoc, hbuffered, hreads, List.append_assoc]
  refine ⟨k + k', ?_, ?_, fun j hj => ?_⟩
  · rw [hreads', hreads, List.drop_drop]
  · rw [htake, hbuffered', List.append_assoc]
  · by_cases hlt : j < k
    · exact (hneeded j hlt).trans_le (le_max_left _ _)
    · obtain ⟨i, rfl⟩ := Nat.exists_eq_add_of_le (not_lt.mp hlt)
      have hi := hneeded' i (by omega)
      rw [htake, List.length_append]
      exact (Nat.add_lt_add_left hi _).trans_le (le_max_right _ _)

/-- Computations that look at most at the byte behind what they consume. -/
theorem Steps.trans_lookahead (h : Steps r r' c (c.length + 1)) (h' : Steps r' r'' c' (c'.length + 1)) :
    Steps r r'' (c ++ c') ((c ++ c').length + 1) := by
  refine (h.trans h').mono ?_
  rw [List.length_append]
  omega

/-- That byte is consumed by what comes next. -/
theorem Steps.trans_of_ne_nil (h : Steps r r' c (c.length + 1)) (h' : Steps r' r'' c' c'.length) (hne : c' ≠ []) :
    Steps r r'' (c ++ c') (c ++ c').length := by
  have hpos := List.length_pos_iff.mpr hne
  refine (h.trans h').mono ?_
  rw [List.length_append]
  omega

/-- What steps take is at the front of the stream. -/
theorem Steps.stream_eq (h : Steps r r' c d) : r.stream = c ++ r'.stream := by
  obtain ⟨k, hreads, hbuffered, -⟩ := h.made
  rw [Reader.stream, Reader.stream, ← List.take_append_drop k r.reads, List.flatten_append, ← List.append_assoc,
    hbuffered, ← hreads, List.append_assoc]

/-- Steps that take something shorten the stream. -/
theorem Steps.length_lt (h : Steps r r' c d) (hne : c ≠ []) : r'.stream.length < r.stream.length := by
  have hpos := List.length_pos_iff.mpr hne
  rw [h.stream_eq, List.length_append]
  omega

/-- Nothing is read ahead exactly if a read ends where the consumed part ends. -/
theorem Steps.buffered_eq_nil_iff (h : Steps ⟨[], reads⟩ r' c c.length) :
    r'.buffered = [] ↔ ∃ k, (reads.take k).flatten = c := by
  obtain ⟨k, hreads, hbuffered, hneeded⟩ := h.made
  simp only [List.nil_append] at hreads hbuffered hneeded
  constructor
  · intro hnil
    rw [hnil, List.append_nil] at hbuffered
    exact ⟨k, hbuffered⟩
  · rintro ⟨j, hj⟩
    by_cases hlt : j < k
    · have hshort := hneeded j hlt
      rw [hj] at hshort
      exact absurd hshort (lt_irrefl _)
    · have hinit : (reads.take k).flatten <+: (reads.take j).flatten := by
        rw [← List.take_append_drop k (reads.take j), List.flatten_append, List.take_take,
          min_eq_left (not_lt.mp hlt)]
        exact List.prefix_append _ _
      have hlength := hinit.length_le
      rw [hbuffered, hj, List.length_append] at hlength
      exact List.length_eq_zero_iff.mp (by omega)

end Steps

/-! ## Lines -/

/-- The bytes of a line with its end. -/
def EndsLine (c line : Bytes) : Prop := ∃ body, lf ∉ body ∧ c = body ++ [lf] ∧ line = chomp body

/-- `ReadLine` of a stream that is all there. -/
def lineOf (stream : Bytes) : Option (Bytes × Bytes) :=
  match splitFirst lf stream with
  | some (before, after) => some (chomp before, after)
  | none => if stream = [] then none else some (stream, [])

section Lines

variable {r r' : Reader} {c line buffered : Bytes} {reads : List Bytes}

theorem EndsLine.ne_nil (h : EndsLine c line) : c ≠ [] := by
  obtain ⟨body, -, rfl, -⟩ := h
  exact List.append_ne_nil_of_right_ne_nil _ (List.cons_ne_nil _ _)

/-- A line that ends does not end in bytes without an end. -/
theorem EndsLine.length_lt (h : EndsLine c line) (hbuffered : lf ∉ buffered) {s t : Bytes}
    (heq : buffered ++ s = c ++ t) : buffered.length < c.length := by
  obtain ⟨body, -, rfl, -⟩ := h
  by_contra hle
  have hinit : body ++ [lf] <+: buffered :=
    List.prefix_of_prefix_length_le ⟨t, heq.symm⟩ (List.prefix_append buffered s) (not_lt.mp hle)
  exact hbuffered (hinit.subset (List.mem_append_right _ (List.mem_singleton_self _)))

/-- A line that is buffered is consumed without a read. -/
theorem steps_of_split {before after : Bytes} (hsplit : splitFirst lf buffered = some (before, after)) :
    ∃ c, EndsLine c (chomp before) ∧ Steps ⟨buffered, reads⟩ ⟨after, reads⟩ c c.length := by
  obtain ⟨rfl, hnot⟩ := splitFirst_eq_some_iff.mp hsplit
  refine ⟨before ++ [lf], ⟨before, hnot, rfl, rfl⟩, ?_⟩
  rw [List.append_cons]
  exact .of_buffered after

/-- `ReadLine` reads no further than the end of its line. Without an end, it reads all there is. -/
theorem readLineFrom_steps (h : readLineFrom buffered reads = some (line, r')) :
    (∃ c, EndsLine c line ∧ Steps ⟨buffered, reads⟩ r' c c.length) ∨
      line ≠ [] ∧ lf ∉ line ∧ r' = ⟨[], []⟩ ∧ Steps ⟨buffered, reads⟩ r' line (line.length + 1) := by
  induction reads generalizing buffered with
  | nil =>
    rw [readLineFrom] at h
    -- a line that has ended in the buffer, or what is left when nothing more comes
    split at h
    · rename_i before after hsplit
      cases h
      exact .inl (steps_of_split hsplit)
    · rename_i hsplit
      split_ifs at h with hnil
      cases h
      have hsteps : Steps ⟨line ++ [], []⟩ ⟨[], []⟩ line (line.length + 1) := .of_buffered []
      rw [List.append_nil] at hsteps
      exact .inr ⟨hnil, splitFirst_eq_none_iff.mp hsplit, rfl, hsteps⟩
  | cons p rest ih =>
    rw [readLineFrom] at h
    split at h
    · rename_i before after hsplit
      cases h
      exact .inl (steps_of_split hsplit)
    · rename_i hsplit
      -- no end yet: the next read is appended and the search goes on
      rcases ih h with ⟨c, hc, hsteps⟩ | ⟨hne, hlf, rfl, hsteps⟩
      · have hstream := hsteps.stream_eq
        rw [Reader.stream, List.append_assoc] at hstream
        exact .inl ⟨c, hc, .read (hc.length_lt (splitFirst_eq_none_iff.mp hsplit) hstream) hsteps⟩
      · refine .inr ⟨hne, hlf, rfl, .read ?_ hsteps⟩
        have hlength := congrArg List.length hsteps.stream_eq
        simp only [Reader.stream, List.flatten_nil, List.append_nil, List.length_append] at hlength
        omega

/-- A line depends on the stream alone. -/
theorem readLineFrom_stream (buffered : Bytes) (reads : List Bytes) :
    (readLineFrom buffered reads).map (Prod.map id Reader.stream) = lineOf (buffered ++ reads.flatten) := by
  induction reads generalizing buffered with
  | nil =>
    rw [readLineFrom, lineOf, List.flatten_nil, List.append_nil]
    cases splitFirst lf buffered with
    | some split => exact congrArg some (Prod.ext rfl (List.append_nil _))
    | none =>
      dsimp only
      split_ifs <;> rfl
  | cons p rest ih =>
    rw [readLineFrom]
    cases hsplit : splitFirst lf buffered with
    | some split =>
      rw [lineOf, splitFirst_append hsplit]
      rfl
    | none =>
      rw [List.flatten_cons, ← List.append_assoc]
      exact ih (buffered ++ p)

theorem readLine_stream (r : Reader) : (readLine r).map (Prod.map id Reader.stream) = lineOf r.stream :=
  readLineFrom_stream r.buffered r.reads

/-- A line does not depend on how the stream has come. -/
theorem readLine_congr {r₁ r₂ r₁' : Reader} (h : readLine r₁ = some (line, r₁')) (hstream : r₁.stream = r₂.stream) :
    ∃ r₂', readLine r₂ = some (line, r₂') ∧ r₁'.stream = r₂'.stream := by
  have hline := readLine_stream r₂
  rw [← hstream, ← readLine_stream, h, Option.map_some] at hline
  obtain ⟨⟨line', r₂'⟩, hread, heq⟩ := Option.map_eq_some_iff.mp hline
  have hname : line' = line := congrArg Prod.fst heq
  exact ⟨r₂', by rw [hread, hname], (congrArg Prod.snd heq).symm⟩

/-- There is no line only at the end of the stream. -/
theorem readLine_eq_none_iff : readLine r = none ↔ r.stream = [] := by
  rw [← Option.map_eq_none_iff (f := Prod.map id Reader.stream), readLine_stream, lineOf]
  cases hsplit : splitFirst lf r.stream with
  | some split =>
    refine iff_of_false (Option.some_ne_none _) fun hnil => ?_
    rw [hnil] at hsplit
    cases hsplit
  | none =>
    by_cases hnil : r.stream = []
    · exact iff_of_true (if_pos hnil) hnil
    · exact iff_of_false (fun h => Option.some_ne_none _ ((if_neg hnil).symm.trans h)) hnil

/-- A line shortens the stream. -/
theorem readLine_length_lt (h : readLine r = some (line, r')) : r'.stream.length < r.stream.length := by
  rcases readLineFrom_steps h with ⟨c, hc, hsteps⟩ | ⟨hne, -, -, hsteps⟩
  · exact hsteps.length_lt hc.ne_nil
  · exact hsteps.length_lt hne

end Lines

/-! ## Blanks -/

section Blanks

variable {r r' : Reader} {c buffered : Bytes} {reads : List Bytes} {n : ℕ}

/-- A look ahead takes nothing. -/
theorem peekFrom_steps (buffered : Bytes) (reads : List Bytes) :
    Steps ⟨buffered, reads⟩ (peekFrom buffered reads) [] 1 := by
  induction reads generalizing buffered with
  | nil =>
    cases buffered <;> exact .refl _ _
  | cons p rest ih =>
    cases buffered with
    | nil => exact .read Nat.one_pos (ih p)
    | cons b buffered => exact .refl _ _

theorem stream_peek (r : Reader) : (peek r).stream = r.stream :=
  (peekFrom_steps r.buffered r.reads).stream_eq.symm

/-- Blanks that end in the buffer. -/
theorem skipSpaceFrom_of_left (h : buffered.dropWhile isBlank ≠ [] ∨ reads = []) :
    skipSpaceFrom buffered reads =
      ((buffered.takeWhile isBlank).length, ⟨buffered.dropWhile isBlank, reads⟩) := by
  have hlength := congrArg List.length (List.takeWhile_append_dropWhile (p := isBlank) (l := buffered))
  rw [List.length_append] at hlength
  have hcount : buffered.length - (buffered.dropWhile isBlank).length = (buffered.takeWhile isBlank).length := by
    omega
  unfold skipSpaceFrom
  split
  · rename_i _ _ hnil
    exact absurd hnil (h.resolve_right (List.cons_ne_nil _ _))
  · rw [hcount]

/-- Blanks that go on in the next read. -/
theorem skipSpaceFrom_of_blank (h : buffered.dropWhile isBlank = []) (p : Bytes) :
    skipSpaceFrom buffered (p :: reads) =
      ((skipSpaceFrom p reads).1 + buffered.length, (skipSpaceFrom p reads).2) := by
  rw [skipSpaceFrom.eq_def, h]

/-- Blanks are skipped, and at most the byte behind them is looked at. -/
theorem skipSpaceFrom_steps (buffered : Bytes) (reads : List Bytes) :
    ∃ c, c.length = (skipSpaceFrom buffered reads).1 ∧ (∀ b ∈ c, isBlank b = true) ∧
      Steps ⟨buffered, reads⟩ (skipSpaceFrom buffered reads).2 c (c.length + 1) := by
  -- the count stops where something other than a blank is buffered, or where nothing comes
  have hleft : ∀ {buffered reads}, (buffered.dropWhile isBlank ≠ [] ∨ reads = []) →
      ∃ c, c.length = (skipSpaceFrom buffered reads).1 ∧ (∀ b ∈ c, isBlank b = true) ∧
        Steps ⟨buffered, reads⟩ (skipSpaceFrom buffered reads).2 c (c.length + 1) := by
    intro buffered reads h
    rw [skipSpaceFrom_of_left h]
    refine ⟨buffered.takeWhile isBlank, rfl, fun b hb => List.mem_takeWhile_imp hb, ?_⟩
    have hsteps : Steps ⟨buffered.takeWhile isBlank ++ buffered.dropWhile isBlank, reads⟩
        ⟨buffered.dropWhile isBlank, reads⟩ (buffered.takeWhile isBlank) ((buffered.takeWhile isBlank).length + 1) :=
      .of_buffered _
    rwa [List.takeWhile_append_dropWhile] at hsteps
  induction reads generalizing buffered with
  | nil => exact hleft (.inr rfl)
  | cons p rest ih =>
    by_cases hblank : buffered.dropWhile isBlank = []
    · obtain ⟨c, hlength, hc, hsteps⟩ := ih p
      rw [skipSpaceFrom_of_blank hblank]
      refine ⟨buffered ++ c, ?_, fun b hb => ?_, ?_⟩
      · rw [List.length_append, hlength, add_comm]
      · rcases List.mem_append.mp hb with hmem | hmem
        · exact List.dropWhile_eq_nil_iff.mp hblank b hmem
        · exact hc b hmem
      · refine .read (by rw [List.length_append]; omega) ?_
        have hstart : Steps ⟨buffered ++ p, rest⟩ ⟨p, rest⟩ buffered 0 := .of_buffered p
        exact (hstart.trans hsteps).mono (by rw [List.length_append]; omega)
    · exact hleft (.inl hblank)

/-- The blanks at the front of the stream are skipped. -/
theorem skipSpaceFrom_stream (buffered : Bytes) (reads : List Bytes) :
    (skipSpaceFrom buffered reads).1 = ((buffered ++ reads.flatten).takeWhile isBlank).length ∧
      (skipSpaceFrom buffered reads).2.stream = (buffered ++ reads.flatten).dropWhile isBlank := by
  induction reads generalizing buffered with
  | nil =>
    rw [skipSpaceFrom_of_left (.inr rfl), List.flatten_nil, List.append_nil]
    exact ⟨rfl, List.append_nil _⟩
  | cons p rest ih =>
    by_cases hblank : buffered.dropWhile isBlank = []
    · have hall := List.dropWhile_eq_nil_iff.mp hblank
      rw [skipSpaceFrom_of_blank hblank, List.flatten_cons, List.takeWhile_append_of_pos hall,
        List.dropWhile_append_of_pos hall, List.length_append, add_comm]
      exact ⟨congrArg _ (ih p).1, (ih p).2⟩
    · have hne : ¬(buffered.dropWhile isBlank).isEmpty = true := fun hempty => hblank (List.isEmpty_iff.mp hempty)
      have htake : ¬(buffered.takeWhile isBlank).length = buffered.length := by
        intro hlength
        have hsum := congrArg List.length (List.takeWhile_append_dropWhile (p := isBlank) (l := buffered))
        rw [List.length_append, hlength] at hsum
        exact hblank (List.length_eq_zero_iff.mp (by omega))
      rw [skipSpaceFrom_of_left (.inl hblank), List.takeWhile_append, List.dropWhile_append, if_neg htake,
        if_neg hne]
      exact ⟨rfl, rfl⟩

/-- What is seen is the front of the stream. -/
theorem head?_peekFrom (buffered : Bytes) (reads : List Bytes) :
    (peekFrom buffered reads).buffered.head? = (buffered ++ reads.flatten).head? := by
  induction reads generalizing buffered with
  | nil => cases buffered <;> rfl
  | cons p rest ih =>
    cases buffered with
    | nil => exact ih p
    | cons b buffered => rfl

/-- The blanks at the front of the stream are skipped. -/
theorem skipSpace_stream (r : Reader) :
    (skipSpace r).1 = (r.stream.takeWhile isBlank).length ∧ (skipSpace r).2.stream = r.stream.dropWhile isBlank :=
  skipSpaceFrom_stream r.buffered r.reads

theorem skipSpace_length_le (r : Reader) : (skipSpace r).2.stream.length ≤ r.stream.length := by
  rw [(skipSpace_stream r).2]
  exact List.length_dropWhile_le _ _

end Blanks

end BufferedReader
