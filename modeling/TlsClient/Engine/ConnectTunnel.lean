import TlsClient.Engine.HeaderOrder
import TlsClient.Library.BufferedReader

/-!
# The tunnel of a CONNECT over HTTP/1.1

`connectHttp1` of `src/connect.go` reads the response of the proxy through a `bufio.Reader` over the raw connection,
with `ReadResponse` of `src/third_party/fhttp/response.go`, and returns the raw connection. What the reader has read
ahead stays with the reader. `tunnel_transparent_iff` says when that is nothing: when a read of the connection ends
where the head of the response does. Errors come without the text that they quote.

`splitHead` says where the head ends, by the bytes alone: at the first empty line.
-/

namespace TlsClient.Engine.ConnectTunnel

open TlsClient.Ffi Utf8 HostPort BufferedReader
open WireBytes (isBlank trimString)

/-- Why there is no tunnel. -/
inductive ConnectError
  | connection (err : String)
  | malformed (err : String)
  | status (status : Bytes)
deriving DecidableEq

/-- A response without its body. -/
structure Response where
  proto : Bytes
  status : Bytes
  statusCode : ℤ
  header : Header

/-- How the connection and its deadlines fail: the error of a read is that of the read after the last one. What
`readTransfer` says of the header is a function; it reads no byte of the body. -/
structure Machine where
  setDeadline : Except String Unit
  write : Except String Unit
  readError : String
  readTransfer : Response → Except String Unit

/-! ## Lines and fields -/

/-- `readLineSlice` of `net/textproto` -/
def readLineSlice (m : Machine) (r : Reader) : Except ConnectError (Bytes × Reader) :=
  match readLine r with
  | some read => .ok read
  | none => .error (.connection m.readError)

/-- The buffer shows already that the next line does not go on with this one. -/
def seesNextLine (buffered : Bytes) : Bool :=
  match buffered with
  | a :: b :: _ => (65 ≤ a && a ≤ 90) || (97 ≤ a && a ≤ 122) || a = lf || (a = cr && b = lf)
  | _ => false

/-- The loop of `readContinuedLineSlice`: a line that begins with a blank goes on with the line before. -/
def continuation (line : Bytes) (r : Reader) : Bytes × Reader :=
  if (skipSpace r).1 > 0 then
    match h : readLine (skipSpace r).2 with
    | none => (line ++ [32], (skipSpace r).2)
    | some (next, r') => continuation (line ++ [32] ++ trimString next) r'
  else (line, (skipSpace r).2)
termination_by r.stream.length
decreasing_by exact (readLine_length_lt h).trans_le (skipSpace_length_le r)

/-- `readContinuedLineSlice`, with `mustHaveFieldNameColon` -/
def readContinuedLineSlice (m : Machine) (r : Reader) : Except ConnectError (Bytes × Reader) :=
  match readLineSlice m r with
  | .error err => .error err
  | .ok (line, r') =>
    if line = [] then .ok (line, r')
    else if 58 ∉ line then .error (.malformed "malformed MIME header: missing colon")
    else if seesNextLine r'.buffered then .ok (trimString line, r')
    else .ok (continuation (trimString line) r')

def validHeaderFieldByte (b : UInt8) : Bool :=
  (65 ≤ b && b ≤ 90) || (97 ≤ b && b ≤ 122) || (48 ≤ b && b ≤ 57) || (utf8 "!#$%&\x27*+-.^_\x60|~").contains b

def validHeaderValueByte (b : UInt8) : Bool := b = 9 || (32 ≤ b && b ≠ 127)

/-- The loop of `canonicalMIMEHeaderKey`; `upper` says that a letter is a capital one. -/
def canonicalFrom (upper : Bool) : Bytes → Bytes
  | [] => []
  | b :: key =>
    let c := if upper && 97 ≤ b && b ≤ 122 then b - 32 else if !upper && 65 ≤ b && b ≤ 90 then b + 32 else b
    c :: canonicalFrom (c = 45) key

/-- `canonicalMIMEHeaderKey`. A key with a space is taken as it is. -/
def canonicalMIMEHeaderKey (key : Bytes) : Option Bytes :=
  if key = [] then none
  else if !key.all fun b => validHeaderFieldByte b || b = 32 then none
  else if key.contains 32 then some key
  else some (canonicalFrom true key)

/-- A line of the header. -/
def parseField (kv : Bytes) : Except ConnectError (Bytes × Bytes) :=
  match splitFirst 58 kv with
  | none => .error (.malformed "malformed MIME header line: ")
  | some (k, v) =>
    match canonicalMIMEHeaderKey k with
    | none => .error (.malformed "malformed MIME header line: ")
    | some key =>
      if v.all validHeaderValueByte then .ok (key, v.dropWhile isBlank)
      else .error (.malformed "malformed MIME header line: ")

/-! ## The response -/

/-- `readContinuedLineSlice` leaves less of the stream than there was. -/
theorem readLineSlice_length_lt {m : Machine} {r r' : Reader} {line : Bytes}
    (h : readLineSlice m r = .ok (line, r')) : r'.stream.length < r.stream.length := by
  rw [readLineSlice] at h
  split at h
  · rename_i read hread
    cases h
    exact readLine_length_lt hread
  · cases h

/-- The continuation lines are read off the stream. -/
theorem continuation_length_le (line : Bytes) (r : Reader) :
    (continuation line r).2.stream.length ≤ r.stream.length := by
  fun_induction continuation line r with
  | case1 line r hblank h => exact skipSpace_length_le r
  | case2 line r hblank next r' h ih => exact ih.trans ((readLine_length_lt h).le.trans (skipSpace_length_le r))
  | case3 line r hblank => exact skipSpace_length_le r

/-- A logical line takes something off the stream. -/
theorem readContinuedLineSlice_length_lt {m : Machine} {r r' : Reader} {kv : Bytes}
    (h : readContinuedLineSlice m r = .ok (kv, r')) : r'.stream.length < r.stream.length := by
  rw [readContinuedLineSlice] at h
  split at h
  · cases h
  · rename_i line r₁ hline
    have hlt := readLineSlice_length_lt hline
    split_ifs at h
    · cases h
      exact hlt
    · cases h
      exact hlt
    · have hle := continuation_length_le (trimString line) r₁
      rw [Except.ok.inj h] at hle
      exact hle.trans_lt hlt

/-- The loop of `readMIMEHeader`. -/
def readFields (m : Machine) (header : Header) (r : Reader) : Except ConnectError (Header × Reader) :=
  match _ : readContinuedLineSlice m r with
  | .error err => .error err
  | .ok (kv, r') =>
    if kv = [] then .ok (header, r')
    else
      match parseField kv with
      | .error err => .error err
      | .ok (key, value) => readFields m (header.push key value) r'
termination_by r.stream.length
decreasing_by exact readContinuedLineSlice_length_lt ‹_›

/-- `ReadMIMEHeader`. It looks at the first byte before it reads a line. -/
def readMIMEHeader (m : Machine) (r : Reader) : Except ConnectError (Header × Reader) :=
  if (peek r).buffered.head?.any isBlank then
    match readLineSlice m (peek r) with
    | .error err => .error err
    | .ok _ => .error (.malformed "malformed MIME header initial line: ")
  else readFields m .empty (peek r)

/-- `strconv.Atoi`, without the limit of an `int`. -/
def atoi (s : Bytes) : Option ℤ :=
  let digits := if s.head? = some 43 ∨ s.head? = some 45 then s.tail else s
  if digits ≠ [] ∧ digits.all isDigit then
    let n : ℕ := digits.foldl (fun n b => 10 * n + (b.toNat - 48)) 0
    some (if s.head? = some 45 then -n else n)
  else none

/-- `ParseHTTPVersion`, as to whether it is one. -/
def isHTTPVersion (vers : Bytes) : Bool :=
  let isNumber (s : Bytes) : Bool := (atoi s).any fun n => 0 ≤ n && n ≤ 1000000
  (utf8 "HTTP/").isPrefixOf vers &&
    match splitFirst 46 vers with
    | some (before, after) => isNumber (before.drop 5) && isNumber after
    | none => false

/-- The first line of a response. -/
def parseStatusLine (line : Bytes) : Except ConnectError Response :=
  match splitFirst 32 line with
  | none => .error (.malformed "malformed HTTP response")
  | some (proto, rest) =>
    let status := rest.dropWhile (· = 32)
    let statusCode := ((splitFirst 32 status).map Prod.fst).getD status
    if statusCode.length ≠ 3 then .error (.malformed "malformed HTTP status code")
    else
      match atoi statusCode with
      | none => .error (.malformed "malformed HTTP status code")
      | some code =>
        if code < 0 then .error (.malformed "malformed HTTP status code")
        else if isHTTPVersion proto then .ok ⟨proto, status, code, .empty⟩
        else .error (.malformed "malformed HTTP version")

/-- `fixPragmaCacheControl` -/
def fixPragmaCacheControl (header : Header) : Header :=
  if ((header.lookup (utf8 "Pragma")).bind List.head?) = some (utf8 "no-cache") ∧
      header.lookup (utf8 "Cache-Control") = none then
    header.set (utf8 "Cache-Control") [utf8 "no-cache"]
  else header

def unexpectedEOF (err : ConnectError) : ConnectError :=
  if err = .connection "EOF" then .connection "unexpected EOF" else err

/-- `ReadResponse` -/
def readResponse (m : Machine) (r : Reader) : Except ConnectError (Response × Reader) :=
  match readLineSlice m r with
  | .error err => .error (unexpectedEOF err)
  | .ok (line, r₁) =>
    match parseStatusLine line with
    | .error err => .error err
    | .ok resp =>
      match readMIMEHeader m r₁ with
      | .error err => .error (unexpectedEOF err)
      | .ok (header, r₂) =>
        let resp := { resp with header := fixPragmaCacheControl header }
        match m.readTransfer resp with
        | .error err => .error (.malformed err)
        | .ok () => .ok (resp, r₂)

/-- `connectHttp1`: the raw connection, as what its reads will give. Where it fails, the connection is closed. -/
def connectHttp1 (m : Machine) (reads : List Bytes) : Except ConnectError (List Bytes) :=
  match m.setDeadline with
  | .error err => .error (.connection err)
  | .ok () =>
    match m.write with
    | .error err => .error (.connection err)
    | .ok () =>
      match readResponse m ⟨[], reads⟩ with
      | .error err => .error err
      | .ok (resp, r) =>
        if resp.statusCode ≠ 200 then .error (.status resp.status)
        -- the reader is dropped here, with what it has buffered
        else .ok r.reads

/-! ## Where the head ends -/

/-- What stands before and behind the end of the head; `line` is what the current line has so far. -/
def splitHead (line : Bytes) : Bytes → Option (Bytes × Bytes)
  | [] => none
  | b :: s =>
    if b = lf then
      if chomp line = [] then some ([lf], s) else (splitHead [] s).map (Prod.map (List.cons b) id)
    else (splitHead (line ++ [b]) s).map (Prod.map (List.cons b) id)

section Head

variable {m : Machine} {r r' r'' : Reader} {c c' line body s : Bytes}

/-- Two prefixes of a head make one. -/
theorem map_prepend_map (o : Option (Bytes × Bytes)) :
    (o.map (Prod.map (c' ++ ·) id)).map (Prod.map (c ++ ·) id) = o.map (Prod.map (c ++ c' ++ ·) id) := by
  cases o with
  | none => rfl
  | some split => exact congrArg some (Prod.ext (List.append_assoc c c' split.1).symm rfl)

/-- A line ends the head if it is empty. -/
theorem splitHead_line (hbody : lf ∉ body) (line s : Bytes) :
    splitHead line (body ++ lf :: s) =
      if chomp (line ++ body) = [] then some (body ++ [lf], s)
      else (splitHead [] s).map (Prod.map (body ++ [lf] ++ ·) id) := by
  induction body generalizing line with
  | nil =>
    rw [List.nil_append, splitHead, if_pos rfl, List.append_nil]
    split_ifs <;> rfl
  | cons b body ih =>
    have hb : b ≠ lf := fun hb => hbody (hb ▸ List.mem_cons_self)
    rw [List.cons_append, splitHead, if_neg hb, ih (fun hmem => hbody (List.mem_cons_of_mem _ hmem)),
      List.append_assoc, List.singleton_append]
    split_ifs
    · rfl
    · exact map_prepend_map (c := [b]) _

/-- Without a line feed there is no head. -/
theorem splitHead_of_not_mem (hs : lf ∉ s) (line : Bytes) : splitHead line s = none := by
  induction s generalizing line with
  | nil => rfl
  | cons b s ih =>
    rw [List.mem_cons, not_or] at hs
    rw [splitHead, if_neg (Ne.symm hs.1), ih hs.2]
    rfl

/-- A line that begins with a blank is not empty without its end. -/
theorem chomp_ne_nil {b : UInt8} (hb : isBlank b = true) (rest : Bytes) : chomp (b :: rest) ≠ [] := by
  rw [chomp]
  split_ifs with hlast
  · cases rest with
    | nil =>
      rw [List.getLast?_singleton, Option.some_inj] at hlast
      rw [hlast] at hb
      exact absurd hb (by decide)
    | cons b' rest => exact List.cons_ne_nil _ _
  · exact List.cons_ne_nil _ _

/-- Whole lines of the head have been read, and at most the byte behind them has been looked at. -/
structure Lines (r r' : Reader) (c : Bytes) : Prop where
  steps : Steps r r' c (c.length + 1)
  head : splitHead [] r.stream = (splitHead [] r'.stream).map (Prod.map (c ++ ·) id)

/-- The head has been read to its end, and no read has been made after it. -/
structure Head (r r' : Reader) (c : Bytes) : Prop where
  steps : Steps r r' c c.length
  ne_nil : c ≠ []
  head : splitHead [] r.stream = some (c, r'.stream)

/-- Looking ahead takes nothing off the stream. -/
theorem Lines.of_looked (h : Steps r r' [] 1) : Lines r r' [] := by
  refine ⟨h, ?_⟩
  rw [h.stream_eq, List.nil_append]
  cases splitHead [] r'.stream <;> rfl

theorem Lines.trans (h : Lines r r' c) (h' : Lines r' r'' c') : Lines r r'' (c ++ c') := by
  refine ⟨h.steps.trans_lookahead h'.steps, ?_⟩
  rw [h.head, h'.head, map_prepend_map]

/-- A head is its first lines and the rest. -/
theorem Lines.trans_head (h : Lines r r' c) (h' : Head r' r'' c') : Head r r'' (c ++ c') := by
  refine ⟨h.steps.trans_of_ne_nil h'.steps h'.ne_nil, List.append_ne_nil_of_right_ne_nil _ h'.ne_nil, ?_⟩
  rw [h.head, h'.head]
  rfl

/-- A line that is not empty is one of the head, an empty line its end. -/
theorem readLineSlice_lines (h : readLineSlice m r = .ok (line, r')) :
    (line ≠ [] → ∃ c, Lines r r' c) ∧ (line = [] → ∃ c, Head r r' c) := by
  have hread : readLine r = some (line, r') := by
    rw [readLineSlice] at h
    split at h
    · rename_i hread
      cases h
      exact hread
    · cases h
  rcases readLineFrom_steps hread with ⟨c, hc, hsteps⟩ | ⟨hne, hlf, rfl, hsteps⟩
  · obtain ⟨body, hbody, rfl, rfl⟩ := hc
    have hhead := splitHead_line hbody [] r'.stream
    rw [List.append_cons, ← hsteps.stream_eq, List.nil_append] at hhead
    refine ⟨fun hne => ⟨_, hsteps.mono (Nat.le_succ _), ?_⟩, fun hnil => ⟨_, hsteps, ?_, ?_⟩⟩
    · rw [if_neg hne] at hhead
      exact hhead
    · exact List.append_ne_nil_of_right_ne_nil _ (List.cons_ne_nil _ _)
    · rw [if_pos hnil] at hhead
      exact hhead
  · refine ⟨fun _ => ⟨line, hsteps, ?_⟩, fun hnil => absurd hnil hne⟩
    rw [hsteps.stream_eq]
    exact splitHead_of_not_mem (by simpa [Reader.stream] using hlf) []

/-- What ends without an empty line has no head. -/
theorem lines_of_not_mem (hsteps : Steps r r' c (c.length + 1)) (hc : lf ∉ c) (hend : r'.stream = []) :
    Lines r r' c := by
  refine ⟨hsteps, ?_⟩
  rw [hsteps.stream_eq, hend, List.append_nil]
  exact splitHead_of_not_mem hc []

/-- A line that goes on with the one before is one of the head. -/
theorem skipSpace_readLine_lines {line : Bytes} (hblank : (skipSpace r).1 > 0)
    (h : readLine (skipSpace r).2 = some (line, r')) : ∃ c, Lines r r' c := by
  obtain ⟨c, hlength, hc, hsteps⟩ := skipSpaceFrom_steps r.buffered r.reads
  obtain ⟨b, blanks, rfl⟩ := List.exists_cons_of_length_pos (hlength.trans_gt hblank)
  have hlf : lf ∉ b :: blanks := fun hmem => absurd (hc lf hmem) (by decide)
  rcases readLineFrom_steps h with ⟨c, hends, hline⟩ | ⟨-, hnot, rfl, hline⟩
  · obtain ⟨body, hbody, rfl, -⟩ := hends
    have hall := hsteps.trans_lookahead (hline.mono (Nat.le_succ _))
    have hnot : lf ∉ b :: blanks ++ body := fun hmem => (List.mem_append.mp hmem).elim hlf hbody
    have hhead := splitHead_line hnot [] r'.stream
    rw [List.nil_append, List.cons_append, if_neg (chomp_ne_nil (hc b List.mem_cons_self) _), ← List.cons_append,
      List.append_cons, List.append_assoc _ body, ← hall.stream_eq] at hhead
    exact ⟨_, hall, hhead⟩
  · exact ⟨_, lines_of_not_mem (hsteps.trans_lookahead hline)
      (fun hmem => (List.mem_append.mp hmem).elim hlf hnot) rfl⟩

/-- The continuation lines are whole lines. -/
theorem continuation_lines (line : Bytes) (r : Reader) : ∃ c, Lines r (continuation line r).2 c := by
  fun_induction continuation line r with
  | case1 line r hblank h =>
    obtain ⟨c, -, hc, hsteps⟩ := skipSpaceFrom_steps r.buffered r.reads
    exact ⟨c, lines_of_not_mem hsteps (fun hmem => absurd (hc lf hmem) (by decide)) (readLine_eq_none_iff.mp h)⟩
  | case2 line r hblank next r' h ih =>
    obtain ⟨c, hlines⟩ := skipSpace_readLine_lines hblank h
    obtain ⟨c', hrest⟩ := ih
    exact ⟨_, hlines.trans hrest⟩
  | case3 line r hblank =>
    obtain ⟨c, hlength, -, hsteps⟩ := skipSpaceFrom_steps r.buffered r.reads
    obtain rfl : c = [] := List.length_eq_zero_iff.mp (hlength.trans (Nat.eq_zero_of_not_pos hblank))
    exact ⟨[], .of_looked hsteps⟩

/-- A line that is not empty stays so with its continuation. -/
theorem continuation_ne_nil (hline : line ≠ []) (r : Reader) : (continuation line r).1 ≠ [] := by
  fun_induction continuation line r with
  | case1 => exact List.append_ne_nil_of_right_ne_nil _ (List.cons_ne_nil _ _)
  | case2 line r hblank next r' h ih =>
    exact ih (List.append_ne_nil_of_left_ne_nil (List.append_ne_nil_of_left_ne_nil hline _) _)
  | case3 => exact hline

/-- A line with a colon is not trimmed to nothing. -/
theorem trimString_ne_nil (hcolon : 58 ∈ line) : trimString line ≠ [] :=
  List.ne_nil_of_mem (WireBytes.mem_trimString (by decide) hcolon)

/-- A field is some lines of the head, no field its end. -/
theorem readContinuedLineSlice_lines {kv : Bytes} (h : readContinuedLineSlice m r = .ok (kv, r')) :
    (kv ≠ [] → ∃ c, Lines r r' c) ∧ (kv = [] → ∃ c, Head r r' c) := by
  rw [readContinuedLineSlice] at h
  split at h
  · cases h
  · rename_i line r₁ hline
    obtain ⟨hlines, hhead⟩ := readLineSlice_lines hline
    split_ifs at h with hnil hcolon hnext
    · cases h
      exact ⟨hlines, hhead⟩
    · cases h
      exact ⟨fun _ => hlines hnil, fun hempty => absurd hempty (trimString_ne_nil hcolon)⟩
    · obtain ⟨c, hfirst⟩ := hlines hnil
      obtain ⟨c', hrest⟩ := continuation_lines (trimString line) r₁
      have hne := continuation_ne_nil (trimString_ne_nil hcolon) r₁
      rw [Except.ok.inj h] at hrest hne
      exact ⟨fun _ => ⟨_, hfirst.trans hrest⟩, fun hempty => absurd hempty hne⟩

/-- The fields are read to the end of a head. -/
theorem readFields_head {header header' : Header} (h : readFields m header r = .ok (header', r')) :
    ∃ c, Head r r' c := by
  fun_induction readFields m header r with
  | case1 => cases h
  | case2 header r r₁ hread =>
    cases h
    exact (readContinuedLineSlice_lines hread).2 rfl
  | case3 => cases h
  | case4 header r kv r₁ hread hne key value hfield ih =>
    obtain ⟨c, hlines⟩ := (readContinuedLineSlice_lines hread).1 hne
    obtain ⟨c', hhead⟩ := ih h
    exact ⟨_, hlines.trans_head hhead⟩

theorem parseStatusLine_ne_nil {resp : Response} (h : parseStatusLine line = .ok resp) : line ≠ [] := by
  rintro rfl
  cases h

/-- A response that is accepted has been read to the end of its head, without a read that it did not need. -/
theorem readResponse_head {resp : Response} (h : readResponse m r = .ok (resp, r')) : ∃ c, Head r r' c := by
  rw [readResponse] at h
  split at h
  · cases h
  · rename_i line r₁ hline
    split at h
    · cases h
    · rename_i first hfirst
      obtain ⟨c, hlines⟩ := (readLineSlice_lines hline).1 (parseStatusLine_ne_nil hfirst)
      split at h
      · cases h
      · rename_i header r₂ hheader
        dsimp only at h
        split at h
        · cases h
        · cases h
          rw [readMIMEHeader] at hheader
          split_ifs at hheader with hblank
          · split at hheader <;> cases hheader
          · obtain ⟨c', hhead⟩ := readFields_head hheader
            have hpeek : Lines r₁ (peek r₁) [] := .of_looked (peekFrom_steps r₁.buffered r₁.reads)
            exact ⟨_, hlines.trans_head (hpeek.trans_head hhead)⟩

end Head

/-! ## The same stream in other reads -/

section Streams

variable {m : Machine} {r₁ r₂ r₁' : Reader} {line : Bytes}

/-- A line depends on the stream alone, and not on the reads in which it comes. -/
theorem readLineSlice_congr (h : readLineSlice m r₁ = .ok (line, r₁')) (hstream : r₁.stream = r₂.stream) :
    ∃ r₂', readLineSlice m r₂ = .ok (line, r₂') ∧ r₁'.stream = r₂'.stream := by
  rw [readLineSlice] at h
  split at h
  · rename_i hread
    cases h
    obtain ⟨r₂', hread', heq⟩ := readLine_congr hread hstream
    exact ⟨r₂', by rw [readLineSlice, hread'], heq⟩
  · cases h

/-- A line without a blank behind it is not continued. -/
theorem continuation_of_not_blank {r : Reader} (hblank : ¬(skipSpace r).1 > 0) :
    continuation line r = (line, (skipSpace r).2) := by
  rw [continuation, if_neg hblank]

/-- A blank at the end of the stream continues the line with a space. -/
theorem continuation_of_none {r : Reader} (hblank : (skipSpace r).1 > 0) (h : readLine (skipSpace r).2 = none) :
    continuation line r = (line ++ [32], (skipSpace r).2) := by
  rw [continuation, if_pos hblank]
  split
  · rfl
  · rename_i hread
    rw [h] at hread
    cases hread

/-- A line with a blank in front continues the line before. -/
theorem continuation_of_some {r r' : Reader} {next : Bytes} (hblank : (skipSpace r).1 > 0)
    (h : readLine (skipSpace r).2 = some (next, r')) :
    continuation line r = continuation (line ++ [32] ++ trimString next) r' := by
  rw [continuation, if_pos hblank]
  split
  · rename_i hread
    rw [h] at hread
    cases hread
  · rename_i hread
    rw [h] at hread
    cases hread
    rfl

/-- The continuation depends on the stream alone. -/
theorem continuation_congr (line : Bytes) (hstream : r₁.stream = r₂.stream) :
    (continuation line r₁).1 = (continuation line r₂).1 ∧
      (continuation line r₁).2.stream = (continuation line r₂).2.stream := by
  -- how the stream is cut into buffer and reads is invisible to `skipSpace`
  have hskip : ∀ {r₁ r₂ : Reader}, r₁.stream = r₂.stream →
      (skipSpace r₁).1 = (skipSpace r₂).1 ∧ (skipSpace r₁).2.stream = (skipSpace r₂).2.stream := by
    intro r₁ r₂ hstream
    rw [(skipSpace_stream r₁).1, (skipSpace_stream r₁).2, hstream, ← (skipSpace_stream r₂).1,
      ← (skipSpace_stream r₂).2]
    exact ⟨rfl, rfl⟩
  -- the induction is on the first reader; the second one follows it step for step
  fun_induction continuation line r₁ generalizing r₂ with
  | case1 line r hblank h =>
    obtain ⟨hcount, hleft⟩ := hskip hstream
    have h' : readLine (skipSpace r₂).2 = none := by
      rw [readLine_eq_none_iff, ← hleft]
      exact readLine_eq_none_iff.mp h
    rw [continuation_of_none (hcount ▸ hblank) h']
    exact ⟨rfl, hleft⟩
  | case2 line r hblank next r' h ih =>
    obtain ⟨hcount, hleft⟩ := hskip hstream
    obtain ⟨r₂', h', hrest⟩ := readLine_congr h hleft
    rw [continuation_of_some (hcount ▸ hblank) h']
    exact ih hrest
  | case3 line r hblank =>
    obtain ⟨hcount, hleft⟩ := hskip hstream
    rw [continuation_of_not_blank (hcount ▸ hblank)]
    exact ⟨rfl, hleft⟩

/-- A line that is seen does not begin with a blank. -/
theorem not_isBlank_of_sees {a : UInt8} {rest : Bytes} (h : seesNextLine (a :: rest) = true) : isBlank a = false := by
  by_contra hblank
  have ha : a = 32 ∨ a = 9 := by simpa [isBlank, or_iff_not_imp_left] using hblank
  cases rest with
  | nil => cases h
  | cons b rest =>
    rcases ha with rfl | rfl <;> cases h

/-- The short cut through the buffer changes nothing. -/
theorem continuation_of_sees {r : Reader} (h : seesNextLine r.buffered = true) (line : Bytes) :
    (continuation line r).1 = line ∧ (continuation line r).2.stream = r.stream := by
  obtain ⟨buffered, reads⟩ := r
  cases buffered with
  | nil => cases h
  | cons a rest =>
    have ha : ¬isBlank a = true := by rw [not_isBlank_of_sees h]; exact Bool.false_ne_true
    have hstream : (Reader.mk (a :: rest) reads).stream = a :: (rest ++ reads.flatten) := rfl
    obtain ⟨hcount, hleft⟩ := skipSpace_stream ⟨a :: rest, reads⟩
    rw [hstream, List.takeWhile_cons_of_neg ha] at hcount
    rw [hstream, List.dropWhile_cons_of_neg ha] at hleft
    rw [continuation_of_not_blank (by rw [hcount]; exact lt_irrefl 0)]
    exact ⟨rfl, hleft⟩

/-- A logical line depends on the stream alone. -/
theorem readContinuedLineSlice_congr {kv : Bytes} (h : readContinuedLineSlice m r₁ = .ok (kv, r₁'))
    (hstream : r₁.stream = r₂.stream) :
    ∃ r₂', readContinuedLineSlice m r₂ = .ok (kv, r₂') ∧ r₁'.stream = r₂'.stream := by
  rw [readContinuedLineSlice] at h
  split at h
  · cases h
  · rename_i line r hline
    obtain ⟨r', hline', heq⟩ := readLineSlice_congr hline hstream
    rw [readContinuedLineSlice, hline']
    dsimp only
    by_cases hnil : line = []
    · rw [if_pos hnil] at h ⊢
      cases h
      exact ⟨r', rfl, heq⟩
    rw [if_neg hnil] at h ⊢
    by_cases hcolon : 58 ∉ line
    · rw [if_pos hcolon] at h
      cases h
    rw [if_neg hcolon] at h ⊢
    -- with or without the short cut, the field is that of the loop
    have hloop : ∀ {r}, ∃ r', (if seesNextLine r.buffered then Except.ok (trimString line, r)
        else Except.ok (continuation (trimString line) r) : Except ConnectError (Bytes × Reader)) =
          .ok ((continuation (trimString line) r).1, r') ∧
        r'.stream = (continuation (trimString line) r).2.stream := by
      intro r
      by_cases hsees : seesNextLine r.buffered = true
      · obtain ⟨hfield, hrest⟩ := continuation_of_sees hsees (trimString line)
        exact ⟨r, by rw [if_pos hsees, hfield], hrest.symm⟩
      · exact ⟨_, by rw [if_neg hsees], rfl⟩
    obtain ⟨s, hs, hsame⟩ := hloop (r := r)
    obtain ⟨s', hs', hsame'⟩ := hloop (r := r')
    obtain ⟨hfield, hrest⟩ := continuation_congr (trimString line) heq
    rw [hs] at h
    cases h
    exact ⟨s', by rw [hs', hfield], by rw [hsame, hsame', hrest]⟩

/-- An empty line ends the fields. -/
theorem readFields_of_nil {header : Header} {r r' : Reader} (h : readContinuedLineSlice m r = .ok ([], r')) :
    readFields m header r = .ok (header, r') := by
  rw [readFields]
  split
  · rename_i hread
    rw [h] at hread
    cases hread
  · rename_i hread
    rw [h] at hread
    cases hread
    rfl

/-- A field, and those behind it. -/
theorem readFields_of_field {header : Header} {r r' : Reader} {kv key value : Bytes}
    (h : readContinuedLineSlice m r = .ok (kv, r')) (hne : kv ≠ []) (hfield : parseField kv = .ok (key, value)) :
    readFields m header r = readFields m (header.push key value) r' := by
  rw [readFields]
  split
  · rename_i hread
    rw [h] at hread
    cases hread
  · rename_i hread
    rw [h] at hread
    cases hread
    rw [if_neg hne, hfield]

/-- The fields depend on the stream alone. -/
theorem readFields_congr {header header' : Header} (h : readFields m header r₁ = .ok (header', r₁'))
    (hstream : r₁.stream = r₂.stream) : ∃ r₂', readFields m header r₂ = .ok (header', r₂') := by
  fun_induction readFields m header r₁ generalizing r₂ with
  | case1 => cases h
  | case2 header r r' hread =>
    cases h
    obtain ⟨r₂', hread', -⟩ := readContinuedLineSlice_congr hread hstream
    exact ⟨r₂', readFields_of_nil hread'⟩
  | case3 => cases h
  | case4 header r kv r' hread hne key value hfield ih =>
    obtain ⟨r₂', hread', heq⟩ := readContinuedLineSlice_congr hread hstream
    rw [readFields_of_field hread' hne hfield]
    exact ih h heq

/-- The response depends on the stream alone. -/
theorem readResponse_congr {resp : Response} (h : readResponse m r₁ = .ok (resp, r₁'))
    (hstream : r₁.stream = r₂.stream) : ∃ r₂', readResponse m r₂ = .ok (resp, r₂') := by
  rw [readResponse] at h
  -- only the branches that return a response are left: the line parses, then the header
  split at h
  · cases h
  · rename_i line r hline
    obtain ⟨r', hline', heq⟩ := readLineSlice_congr hline hstream
    rw [readResponse, hline']
    dsimp only
    split at h
    · cases h
    · split at h
      · cases h
      · rename_i header s hheader
        rw [readMIMEHeader] at hheader
        split_ifs at hheader with hblank
        · split at hheader <;> cases hheader
        · have hpeek : (peek r').buffered.head? = (peek r).buffered.head? := by
            rw [peek, peek, head?_peekFrom, head?_peekFrom]
            exact congrArg List.head? heq.symm
          have hpeeked : (peek r).stream = (peek r').stream := by rw [stream_peek, stream_peek, heq]
          obtain ⟨s', hheader'⟩ := readFields_congr hheader hpeeked
          rw [readMIMEHeader, hpeek, if_neg hblank, hheader']
          dsimp only at h ⊢
          split at h
          · cases h
          · cases h
            exact ⟨s', rfl⟩

/-- Whether there is a tunnel depends on the stream alone, and not on the reads in which it comes. -/
theorem exists_tunnel_of_flatten {reads reads' conn : List WireBytes.Bytes} (h : connectHttp1 m reads = .ok conn)
    (hflatten : reads.flatten = reads'.flatten) : ∃ conn', connectHttp1 m reads' = .ok conn' := by
  rw [connectHttp1] at h ⊢
  split at h
  · cases h
  · split at h
    · cases h
    · split at h
      · cases h
      · rename_i resp r hresponse
        have hstream : (Reader.mk [] reads).stream = (Reader.mk [] reads').stream := hflatten
        obtain ⟨r', hresponse'⟩ := readResponse_congr hresponse hstream
        rw [hresponse']
        dsimp only
        split_ifs at h with hstatus
        exact ⟨_, if_neg hstatus⟩

end Streams

/-! ## The tunnel -/

/-- What is read from the connection that is returned is what follows the head, exactly if a read ends where the
head does. -/
theorem tunnel_transparent_iff {m : Machine} {reads conn : List Bytes} (h : connectHttp1 m reads = .ok conn) :
    ∃ head payload, splitHead [] reads.flatten = some (head, payload) ∧
      (conn.flatten = payload ↔ ∃ k, (reads.take k).flatten = head) := by
  rw [connectHttp1] at h
  split at h
  · cases h
  · split at h
    · cases h
    · split at h
      · cases h
      · rename_i resp r hresponse
        split_ifs at h
        cases h
        obtain ⟨c, hhead⟩ := readResponse_head hresponse
        refine ⟨c, r.stream, hhead.head, ?_⟩
        rw [← hhead.steps.buffered_eq_nil_iff, Reader.stream]
        exact List.self_eq_append_left

/-- A machine on which nothing fails. -/
def exampleMachine : Machine := ⟨.ok (), .ok (), "EOF", fun _ => .ok ()⟩

def exampleHead : Bytes := utf8 "HTTP/1.1 200 Connection established\x0d\n\x0d\n"

/-- The server speaks first, and its bytes come in a packet of their own. -/
theorem tunnel_greeting :
    connectHttp1 exampleMachine [exampleHead, utf8 "220 ready"] = .ok [utf8 "220 ready"] ∧
      ∃ head payload, splitHead [] [exampleHead, utf8 "220 ready"].flatten = some (head, payload) ∧
        ([utf8 "220 ready"].flatten = payload ↔ ∃ k, ([exampleHead, utf8 "220 ready"].take k).flatten = head) :=
  have h : connectHttp1 exampleMachine [exampleHead, utf8 "220 ready"] = .ok [utf8 "220 ready"] := by decide +kernel
  ⟨h, tunnel_transparent_iff h⟩

/-- Where they come with the head, they are lost. -/
theorem tunnel_loses_greeting :
    connectHttp1 exampleMachine [exampleHead ++ utf8 "220 ready"] = .ok [] ∧
      splitHead [] [exampleHead ++ utf8 "220 ready"].flatten = some (exampleHead, utf8 "220 ready") ∧
      ([] : List Bytes).flatten ≠ utf8 "220 ready" := by
  decide +kernel

end TlsClient.Engine.ConnectTunnel
