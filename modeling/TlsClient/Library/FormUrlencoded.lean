import TlsClient.Library.Utf8Reader

/-!
# Pairs of texts as the query of a URL

The encoding `application/x-www-form-urlencoded` of pairs, and how such a text is read. What is written is read back
(`parseQsl_urlencode`), also after other fields that end with a separator (`parseQsl_append`).
-/

namespace FormUrlencoded

open Utf8 CharReader

/-! ## Writing -/

/-- An upper-case hexadecimal digit. -/
def upperHexDigit (n : ℕ) : Char := Char.ofNat (if n < 10 then 48 + n else 55 + n)

/-- Letters, digits and the four characters that are written as they are. -/
def unreserved (n : ℕ) : Bool :=
  (48 ≤ n && n ≤ 57) || (65 ≤ n && n ≤ 90) || (97 ≤ n && n ≤ 122) || n = 95 || n = 46 || n = 45 || n = 126

def quoteByte (b : UInt8) : List Char :=
  if unreserved b.toNat then [Char.ofNat b.toNat]
  else if b = 32 then ['+']
  else ['%', upperHexDigit (b.toNat / 16), upperHexDigit (b.toNat % 16)]

/-- `quote_plus` of a text. -/
def quotePlus (s : List Char) : List Char := (utf8 (String.ofList s)).flatMap quoteByte

/-- `urlencode` of pairs of texts. -/
def urlencode (pairs : List (List Char × List Char)) : List Char :=
  ['&'].intercalate (pairs.map fun pair => quotePlus pair.1 ++ '=' :: quotePlus pair.2)

/-! ## Reading -/

/-- The value of a hexadecimal digit. -/
def hexDigitValue (c : Char) : Option ℕ :=
  let n := c.toNat
  if 48 ≤ n ∧ n ≤ 57 then some (n - 48)
  else if 65 ≤ n ∧ n ≤ 70 then some (n - 55)
  else if 97 ≤ n ∧ n ≤ 102 then some (n - 87)
  else none

/-- A character of ASCII as its byte, any other as it is. -/
def asByte (c : Char) : UInt8 ⊕ Char := if c.toNat < 128 then .inl (UInt8.ofNat c.toNat) else .inr c

/-- The bytes that characters of ASCII and escapes stand for, between other characters. -/
def unquoteBytes : List Char → List (UInt8 ⊕ Char)
  | '%' :: a :: b :: rest =>
    match hexDigitValue a, hexDigitValue b with
    | some m, some n => .inl (UInt8.ofNat (16 * m + n)) :: unquoteBytes rest
    | _, _ => asByte '%' :: unquoteBytes (a :: b :: rest)
  | c :: rest => asByte c :: unquoteBytes rest
  | [] => []

/-- The text of bytes between other characters; what is not UTF-8 is replaced. -/
def decodeRuns : List UInt8 → List (UInt8 ⊕ Char) → List Char
  | run, [] => reader.replace ['\uFFFD'] run
  | run, .inl b :: rest => decodeRuns (run ++ [b]) rest
  | run, .inr c :: rest => reader.replace ['\uFFFD'] run ++ c :: decodeRuns [] rest

/-- `unquote` of a text. -/
def unquote (s : List Char) : List Char := decodeRuns [] (unquoteBytes s)

/-- `unquote` of a text in which `+` stands for a blank. -/
def unquotePlus (s : List Char) : List Char := unquote (s.map fun c => if c = '+' then ' ' else c)

/-- A field: a name, and a value after the first `=`. -/
def parseField (field : List Char) : Option (List Char × List Char) :=
  if field = [] then none
  else some (unquotePlus (field.takeWhile (· ≠ '=')), unquotePlus ((field.dropWhile (· ≠ '=')).drop 1))

/-- `parse_qsl` with blank values kept. -/
def parseQsl (query : List Char) : List (List Char × List Char) := (query.splitOn '&').filterMap parseField

/-! ## Texts that were written -/

variable {c : Char} {s query rest : List Char} {pair : List Char × List Char} {pairs : List (List Char × List Char)}

/-- The characters of a written text. -/
def Written (c : Char) : Prop := unreserved c.toNat ∨ c = '+' ∨ c = '%'

instance : Decidable (Written c) := inferInstanceAs (Decidable (_ ∨ _))

/-- The code of a character of one byte. -/
theorem toNat_ofNat_of_lt {n : ℕ} (hn : n < 256) : (Char.ofNat n).toNat = n := by
  have hvalid : n.isValidChar := .inl (by omega)
  rw [Char.ofNat, dif_pos hvalid]
  exact UInt32.toNat_ofNatLT ..

/-- A hexadecimal digit is written as it is, and read back. -/
theorem upperHexDigit_spec : ∀ n < 16, Written (upperHexDigit n) ∧ hexDigitValue (upperHexDigit n) = some n := by
  decide

/-- A quoted text has only characters that are written as they are. -/
theorem written_of_mem_quotePlus (h : c ∈ quotePlus s) : Written c := by
  obtain ⟨b, -, hc⟩ := List.mem_flatMap.mp h
  have hb := b.toNat_lt
  rw [quoteByte] at hc
  split_ifs at hc with hsafe hblank
  · rw [List.mem_singleton.mp hc, Written, toNat_ofNat_of_lt hb]
    exact .inl hsafe
  · rw [List.mem_singleton.mp hc]
    exact .inr (.inl rfl)
  · rcases List.mem_cons.mp hc with rfl | hc
    · exact .inr (.inr rfl)
    rcases List.mem_cons.mp hc with rfl | hc
    · exact (upperHexDigit_spec _ (by omega)).1
    · rw [List.mem_singleton.mp hc]
      exact (upperHexDigit_spec _ (by omega)).1

theorem not_mem_quotePlus (h : ¬Written c) : c ∉ quotePlus s := mt written_of_mem_quotePlus h

/-- The fields of a written text. -/
def field (pair : List Char × List Char) : List Char := quotePlus pair.1 ++ '=' :: quotePlus pair.2

/-- The characters of a field. -/
theorem mem_field (h : c ∈ field pair) : Written c ∨ c = '=' := by
  rcases List.mem_append.mp h with h | h
  · exact .inl (written_of_mem_quotePlus h)
  rcases List.mem_cons.mp h with h | h
  · exact .inr h
  · exact .inl (written_of_mem_quotePlus h)

/-- The text of one more pair. -/
theorem urlencode_cons (pair : List Char × List Char) (pairs : List (List Char × List Char)) :
    urlencode (pair :: pairs) = field pair ++ if pairs = [] then [] else '&' :: urlencode pairs := by
  cases pairs with
  | nil => simp [urlencode, field]
  | cons next pairs => simp [urlencode, field, List.intercalate]

/-- The characters of a whole text. -/
theorem mem_urlencode (h : c ∈ urlencode pairs) : Written c ∨ c = '=' ∨ c = '&' := by
  induction pairs with
  | nil => contradiction
  | cons pair pairs ih =>
    rw [urlencode_cons] at h
    rcases List.mem_append.mp h with h | h
    · exact (mem_field h).imp_right .inl
    · split_ifs at h with hpairs
      · contradiction
      · rcases List.mem_cons.mp h with h | h
        · exact .inr (.inr h)
        · exact ih h

/-- The text is empty exactly if there is no pair. -/
theorem urlencode_eq_nil_iff : urlencode pairs = [] ↔ pairs = [] := by
  cases pairs with
  | nil => exact iff_of_true rfl rfl
  | cons pair pairs =>
    refine iff_of_false (fun h => ?_) (List.cons_ne_nil _ _)
    rw [urlencode_cons, field] at h
    simp at h

/-! ## Reading what was written -/

/-- A run of bytes is decoded as a whole. -/
theorem decodeRuns_bytes (run bytes : List UInt8) :
    decodeRuns run (bytes.map .inl) = reader.replace ['\uFFFD'] (run ++ bytes) := by
  induction bytes generalizing run with
  | nil => rw [List.map_nil, decodeRuns, List.append_nil]
  | cons b bytes ih => rw [List.map_cons, decodeRuns, ih, List.append_assoc, List.singleton_append]

/-- A character that is no escape. -/
theorem unquoteBytes_cons (hc : c ≠ '%') : unquoteBytes (c :: rest) = asByte c :: unquoteBytes rest := by
  rw [unquoteBytes]
  rintro a b rest rfl
  exact absurd rfl hc

theorem asByte_ofNat {b : UInt8} (hb : b.toNat < 128) : asByte (Char.ofNat b.toNat) = .inl b := by
  rw [asByte, toNat_ofNat_of_lt b.toNat_lt, if_pos hb, UInt8.ofNat_toNat]

/-- A written byte is read as the byte. -/
theorem unquoteBytes_quoteByte (b : UInt8) (rest : List Char) :
    unquoteBytes ((quoteByte b).map (fun c => if c = '+' then ' ' else c) ++ rest) =
      .inl b :: unquoteBytes rest := by
  have hb := b.toNat_lt
  rw [quoteByte]
  split_ifs with hsafe hblank
  -- an unreserved byte is written as it is, a blank as `+`, any other as two digits
  · have hascii : b.toNat < 128 := by
      simp only [unreserved, Bool.or_eq_true, Bool.and_eq_true, decide_eq_true_eq] at hsafe
      omega
    have hne : ∀ c : Char, unreserved c.toNat = false → Char.ofNat b.toNat ≠ c := by
      rintro c hc rfl
      rw [toNat_ofNat_of_lt hb, hsafe] at hc
      contradiction
    rw [List.map_singleton, if_neg (hne '+' (by decide)), List.singleton_append,
      unquoteBytes_cons (hne '%' (by decide)), asByte_ofNat hascii]
  · rw [hblank]
    rfl
  · have hhigh := upperHexDigit_spec (b.toNat / 16) (by omega)
    have hlow := upperHexDigit_spec (b.toNat % 16) (by omega)
    have hplus : ∀ n < 16, upperHexDigit n ≠ '+' := by decide
    have hpercent : '%' ≠ '+' := by decide
    have hvalue : 16 * (b.toNat / 16) + b.toNat % 16 = b.toNat := Nat.div_add_mod _ _
    rw [List.map_cons, List.map_cons, List.map_singleton, if_neg hpercent, if_neg (hplus _ (by omega)),
      if_neg (hplus _ (by omega)), List.cons_append, List.cons_append, List.singleton_append, unquoteBytes, hhigh.2,
      hlow.2]
    dsimp only
    rw [hvalue, UInt8.ofNat_toNat]

/-- A quoted text is read back. -/
theorem unquotePlus_quotePlus (s : List Char) : unquotePlus (quotePlus s) = s := by
  have hbytes : ∀ bytes : List UInt8,
      unquoteBytes ((bytes.flatMap quoteByte).map fun c => if c = '+' then ' ' else c) = bytes.map .inl := by
    intro bytes
    induction bytes with
    | nil => rfl
    | cons b bytes ih => rw [List.flatMap_cons, List.map_append, unquoteBytes_quoteByte, ih, List.map_cons]
  rw [unquotePlus, unquote, quotePlus, hbytes, decodeRuns_bytes, List.nil_append, replace_utf8, String.toList_ofList]

/-- A field is read back. -/
theorem parseField_field (pair : List Char × List Char) : parseField (field pair) = some pair := by
  have hname : ∀ c ∈ quotePlus pair.1, decide (c ≠ '=') = true := by
    intro c hc
    refine decide_eq_true ?_
    rintro rfl
    exact not_mem_quotePlus (by decide) hc
  have htake : (field pair).takeWhile (· ≠ '=') = quotePlus pair.1 := by
    rw [field, List.takeWhile_append_of_pos hname, List.takeWhile_cons_of_neg (by decide), List.append_nil]
  have hdrop : (field pair).dropWhile (· ≠ '=') = '=' :: quotePlus pair.2 := by
    rw [field, List.dropWhile_append_of_pos hname, List.dropWhile_cons_of_neg (by decide)]
  have hne : field pair ≠ [] := List.append_ne_nil_of_right_ne_nil _ (List.cons_ne_nil _ _)
  rw [parseField, if_neg hne, htake, hdrop, List.drop_one, List.tail_cons, unquotePlus_quotePlus,
    unquotePlus_quotePlus]

theorem parseQsl_nil : parseQsl [] = [] := rfl

/-- Two queries with a separator between them. -/
theorem parseQsl_append (query other : List Char) :
    parseQsl (query ++ '&' :: other) = parseQsl query ++ parseQsl other := by
  rw [parseQsl, List.splitOn_append_cons_self, List.filterMap_append, parseQsl, parseQsl]

/-- The pairs are read back. -/
theorem parseQsl_urlencode (pairs : List (List Char × List Char)) : parseQsl (urlencode pairs) = pairs := by
  have hsep : ∀ pair, '&' ∉ field pair := fun pair h => (mem_field h).elim (by decide) (by decide)
  have hone : ∀ pair, parseQsl (field pair) = [pair] := by
    intro pair
    rw [parseQsl, List.splitOn_eq_singleton (hsep pair), List.filterMap_cons_some (parseField_field pair)]
    rfl
  induction pairs with
  | nil => rfl
  | cons pair pairs ih =>
    rw [urlencode_cons]
    split_ifs with hpairs
    · rw [List.append_nil, hone, hpairs]
    · rw [parseQsl_append, hone, ih, List.singleton_append]

/-- Text after a field that is not closed goes into that field. -/
theorem length_parseQsl_append {other : List Char} (hquery : query ≠ []) (hlast : query.getLast? ≠ some '&')
    (hother : '&' ∉ other) : (parseQsl (query ++ other)).length = (parseQsl query).length := by
  have hone : ∀ field : List Char, field ≠ [] → '&' ∉ field → (parseQsl field).length = 1 := by
    intro field hne hsep
    rw [parseQsl, List.splitOn_eq_singleton hsep]
    simp [parseField, hne]
  by_cases hsep : '&' ∈ query
  · obtain ⟨last, before, hreverse, hfresh⟩ := List.eq_append_cons_of_mem (List.mem_reverse.mpr hsep)
    have hquery : query = before.reverse ++ '&' :: last.reverse := by
      rw [← List.reverse_reverse query, hreverse]
      simp
    have hne : last.reverse ≠ [] := by
      intro hnil
      rw [hquery, hnil] at hlast
      exact hlast (List.getLast?_concat ..)
    have hfield : '&' ∉ last.reverse := mt List.mem_reverse.mp hfresh
    rw [hquery, List.append_assoc, List.cons_append, parseQsl_append, parseQsl_append, List.length_append,
      List.length_append, hone _ hne hfield,
      hone _ (List.append_ne_nil_of_left_ne_nil hne _) (mt List.mem_append.mp (not_or.mpr ⟨hfield, hother⟩))]
  · rw [hone _ hquery hsep,
      hone _ (List.append_ne_nil_of_left_ne_nil hquery _) (mt List.mem_append.mp (not_or.mpr ⟨hsep, hother⟩))]

/-- So pairs that are written there are not all read back. -/
theorem parseQsl_append_urlencode_ne (hquery : query ≠ []) (hlast : query.getLast? ≠ some '&') (hpairs : pairs ≠ []) :
    parseQsl (query ++ urlencode pairs) ≠ parseQsl query ++ pairs := by
  obtain ⟨pair, pairs, rfl⟩ := List.exists_cons_of_ne_nil hpairs
  have hsep : '&' ∉ field pair := fun h => (mem_field h).elim (by decide) (by decide)
  have hfirst := length_parseQsl_append hquery hlast hsep
  intro h
  have hlength := congrArg List.length h
  rw [urlencode_cons, ← List.append_assoc] at hlength
  split_ifs at hlength with hnil
  · rw [List.append_nil, hfirst, hnil, List.length_append, List.length_singleton] at hlength
    omega
  · rw [parseQsl_append, parseQsl_urlencode, List.length_append, hfirst, List.length_append, List.length_cons] at hlength
    omega

end FormUrlencoded
