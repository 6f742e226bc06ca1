import TlsClient.Library.Fallible
import TlsClient.Library.FormData
import TlsClient.Python.Dict

/-!
# Multipart bodies

`_multipart` and `_body_bytes` of `src/tls_client/requests_compat.py`, with the boundaries of
`src/tls_client/_multipart_boundary.py`. Names are written between quotes as they are, so a name with a quote, a
backslash or a line break is not read back; nor is a value of bytes, of which the text of its literal is written.
`multipart_roundTrips_iff` says when a body is read back.
-/

namespace TlsClient.Compat.Multipart

open TlsClient.Ffi TlsClient.Python Utf8 FormData Separator

/-! ## Boundaries -/

/-- `_BLINK_ENCODING_MAP`, in which `A` and `B` are twice. -/
def blinkEncodingMap : List Char :=
  ((List.range 26).map fun n => Char.ofNat (0x41 + n)) ++ ((List.range 26).map fun n => Char.ofNat (0x61 + n)) ++
    ((List.range 10).map fun n => Char.ofNat (0x30 + n)) ++ ['A', 'B']

/-- `blink_boundary` of 128 random bits. -/
def blinkBoundary (randomness : ℕ) : String :=
  "----WebKitFormBoundary" ++
    String.ofList ((List.range 16).map fun i => blinkEncodingMap.getD ((randomness >>> (6 * i)) % 64) 'A')

/-- `gecko_boundary` of three random numbers. -/
def geckoBoundary (parts : ℕ × ℕ × ℕ) : String :=
  "---------------------------" ++ toString (parts.1 : ℤ) ++ toString (parts.2.1 : ℤ) ++ toString (parts.2.2 : ℤ)

/-- What `secrets.randbits` gives. -/
structure Random where
  bits128 : ℕ
  bits32 : ℕ × ℕ × ℕ

/-- `boundary`. -/
def boundary (random : Random) (browser : String) : String :=
  if browser = "firefox" then geckoBoundary random.bits32 else blinkBoundary random.bits128

/-! ## Values -/

/-- A byte in a literal of bytes. -/
def escapeByte (quote b : UInt8) : Bytes :=
  if b = quote ∨ b = 92 then [92, b]
  else if b = 9 then ascii "\\t"
  else if b = 10 then ascii "\\n"
  else if b = 13 then ascii "\\r"
  else if b < 32 ∨ 127 ≤ b then ascii "\\x" ++ [hexDigit (b.toNat / 16), hexDigit (b.toNat % 16)]
  else [b]

/-- The literal of bytes, which `str` makes of them. -/
def bytesLiteral (content : Bytes) : Bytes :=
  let quote : UInt8 := if 39 ∈ content ∧ 34 ∉ content then 34 else 39
  98 :: quote :: (content.flatMap (escapeByte quote) ++ [quote])

/-- A value of a field. -/
inductive FieldItem where
  | text (s : String)
  | bytes (content : Bytes)

/-- `str(item)`, encoded. -/
def FieldItem.encoded : FieldItem → Bytes
  | text s => utf8 s
  | bytes content => bytesLiteral content

/-- The value itself. -/
def FieldItem.content : FieldItem → Bytes
  | text s => utf8 s
  | bytes content => content

/-- One value, or a list or tuple of values. -/
inductive FieldValue where
  | item (item : FieldItem)
  | list (items : List FieldItem)

/-- `values`. -/
def FieldValue.values : FieldValue → List FieldItem
  | item i => [i]
  | list items => items

/-- A `str`, or something that `bytes` takes. -/
inductive Chunk where
  | str (s : String)
  | bytes (content : Bytes)

def Chunk.encoded : Chunk → Bytes
  | str s => utf8 s
  | bytes content => content

/-- What a body can be made of. -/
inductive BodyValue where
  | none
  | bytes (content : Bytes)
  | bytearray (content : Bytes)
  | str (s : String)
  /-- an object with `read`, and what that returns -/
  | file (read : Chunk)
  | chunks (chunks : List Chunk)

/-- `_body_bytes`. -/
def bodyBytes : BodyValue → Option Bytes
  | .none => none
  | .bytes content => some content
  | .bytearray content => some content
  | .str s => some (utf8 s)
  | .file read => some read.encoded
  | .chunks chunks => some (chunks.flatMap Chunk.encoded)

/-- The variables of a file. -/
structure FileEntry where
  filename : String
  contentType : String := "application/octet-stream"
  extraHeaders : PyDict String String := .empty
  content : BodyValue

/-- A content, or a tuple of two, three or four. -/
inductive FileValue where
  | single (content : BodyValue)
  | pair (filename : String) (content : BodyValue)
  | triple (filename : String) (content : BodyValue) (contentType : String)
  | quadruple (filename : String) (content : BodyValue) (contentType : String) (extraHeaders : PyDict String String)

/-- The variables of the file of this name. -/
def FileValue.entry (name : String) : FileValue → FileEntry
  | .single content => { filename := name, content := content }
  | .pair filename content => { filename := filename, content := content }
  | .triple filename content contentType => { filename := filename, content := content, contentType := contentType }
  | .quadruple filename content contentType extraHeaders => ⟨filename, contentType, extraHeaders, content⟩

/-! ## The body -/

/-- The chunks of one value of a field. -/
def fieldChunks (boundary name : String) (item : FieldItem) : List (Option Bytes) :=
  [some (utf8 ("--" ++ boundary ++ "\r\n")),
    some (utf8 ("Content-Disposition: form-data; name=\"" ++ name ++ "\"\r\n\r\n")),
    some item.encoded,
    some (utf8 "\r\n")]

/-- The chunks of a file. -/
def fileChunks (boundary name : String) (value : FileValue) : List (Option Bytes) :=
  let entry := value.entry name
  [some (utf8 ("--" ++ boundary ++ "\r\n")),
    some (utf8 ("Content-Disposition: form-data; name=\"" ++ name ++ "\"; filename=\"" ++ entry.filename ++ "\"\r\n")),
    some (utf8 ("Content-Type: " ++ entry.contentType ++ "\r\n"))] ++
  (entry.extraHeaders.items.map fun header => some (utf8 (header.1 ++ ": " ++ header.2 ++ "\r\n"))) ++
  [some (utf8 "\r\n"), bodyBytes entry.content, some (utf8 "\r\n")]

/-- The `TypeError` of `b"".join`, at the first chunk that is `None`. -/
structure JoinError where
  item : ℕ

/-- `b"".join(chunks)` -/
def joinChunks (chunks : List (Option Bytes)) : Except JoinError Bytes :=
  match chunks.findIdx? Option.isNone with
  | some i => .error ⟨i⟩
  | none => .ok (chunks.flatMap fun chunk => chunk.getD [])

/-- `_multipart`: the body and its content type. -/
def multipart (random : Random) (data : List (String × FieldValue)) (files : List (String × FileValue))
    (browser : String) : Except JoinError (Bytes × String) := do
  let boundary := boundary random browser
  let chunks := (data.flatMap fun field => field.2.values.flatMap (fieldChunks boundary field.1)) ++
    (files.flatMap fun file => fileChunks boundary file.1 file.2) ++
    [some (utf8 ("--" ++ boundary ++ "--\r\n"))]
  let body ← joinChunks chunks
  return (body, "multipart/form-data; boundary=" ++ boundary)

/-! ## What is read back -/

/-- What makes one part. -/
inductive Entry where
  | field (name : String) (item : FieldItem)
  | file (name : String) (value : FileValue)

/-- What is given, part by part. -/
def entries (data : List (String × FieldValue)) (files : List (String × FileValue)) : List Entry :=
  (data.flatMap fun field => field.2.values.map (Entry.field field.1)) ++ files.map fun file => .file file.1 file.2

/-- The header lines of a file behind the first one. -/
def headerLines (entry : FileEntry) : Bytes :=
  utf8 ("Content-Type: " ++ entry.contentType) ++
    entry.extraHeaders.items.flatMap fun header => 13 :: 10 :: utf8 (header.1 ++ ": " ++ header.2)

/-- There is nothing in a name that would have to be quoted. -/
def PlainName (name : String) : Prop := ∀ c ∈ ['"', '\\', '\r', '\n'], c ∉ name.toList

instance (name : String) : Decidable (PlainName name) := List.decidableBAll _ _

namespace Entry

/-- The part that it is to be read as. -/
def part : Entry → Part
  | field name item => ⟨utf8 name, none, item.content⟩
  | file name value =>
    ⟨utf8 name, some (utf8 (value.entry name).filename), (bodyBytes (value.entry name).content).getD []⟩

/-- The boundary is in none of the texts and contents. -/
def Without (boundary : Bytes) : Entry → Prop
  | field name item => ¬boundary <:+: utf8 name ∧ ¬boundary <:+: item.content
  | file name value =>
    ¬boundary <:+: utf8 name ∧ ¬boundary <:+: utf8 (value.entry name).filename ∧
      ¬boundary <:+: utf8 (value.entry name).contentType ∧
      (∀ header ∈ (value.entry name).extraHeaders.items, ¬boundary <:+: utf8 header.1 ∧ ¬boundary <:+: utf8 header.2) ∧
      ∀ content ∈ bodyBytes (value.entry name).content, ¬boundary <:+: content

instance (boundary : Bytes) : (e : Entry) → Decidable (e.Without boundary)
  | field _ _ => inferInstanceAs (Decidable (_ ∧ _))
  | file _ _ => inferInstanceAs (Decidable (_ ∧ _ ∧ _ ∧ _ ∧ _))

/-- A field is a text under a plain name. A file has content, plain names and no empty line among its headers. -/
def Readable : Entry → Prop
  | field name item => PlainName name ∧ ∃ s, item = .text s
  | file name value =>
    PlainName name ∧ PlainName (value.entry name).filename ∧ (bodyBytes (value.entry name).content).isSome ∧
      [] ∉ splitLines [] (headerLines (value.entry name))

instance : (e : Entry) → Decidable e.Readable
  | field _ (.text s) => decidable_of_iff' _ (and_iff_left ⟨s, rfl⟩)
  | field _ (.bytes _) => isFalse fun ⟨_, _, h⟩ => by cases h
  | file _ _ => inferInstanceAs (Decidable (_ ∧ _ ∧ _ ∧ _))

end Entry

/-- The body is made, and read with its content type it gives the parts that were given. -/
def RoundTrips (random : Random) (data : List (String × FieldValue)) (files : List (String × FileValue))
    (browser : String) : Prop :=
  ∃ body contentType, multipart random data files browser = .ok (body, contentType) ∧
    parse (utf8 contentType) body = some ((entries data files).map Entry.part)

/-! ## Boundaries that can be generated -/

/-- A boundary: it begins with dashes, and the rest are letters, digits and dashes. -/
structure IsBoundary (b : Bytes) : Prop where
  dashes : [45, 45] <+: b
  chars : ∀ c ∈ b, isToken c = true ∧ c ≠ 39 ∧ isBreak c = false

namespace IsBoundary

variable {b : Bytes}

/-- A boundary has neither other bytes than those of a token, nor an apostrophe. -/
theorem not_mem (hb : IsBoundary b) {c : UInt8} (hc : isToken c = false ∨ c = 39) : c ∉ b := by
  intro hmem
  obtain ⟨htoken, hquote, -⟩ := hb.chars c hmem
  rcases hc with hc | hc
  · rw [hc] at htoken
    contradiction
  · exact hquote hc

theorem ne_nil (hb : IsBoundary b) : b ≠ [] := by
  rintro rfl
  exact absurd (List.prefix_nil.mp hb.dashes) (by decide)

/-- It is not in a text without two dashes. -/
theorem not_infix_of_dashes (hb : IsBoundary b) {s : Bytes} (hs : ¬[45, 45] <:+: s) : ¬b <:+: s := fun h =>
  hs (hb.dashes.isInfix.trans h)

end IsBoundary

/-- Bytes of letters, digits and dashes. -/
def isPlainByte (c : UInt8) : Bool :=
  c = 45 || (48 ≤ c && c ≤ 57) || (65 ≤ c && c ≤ 90) || (97 ≤ c && c ≤ 122)

/-- Letters and digits can stand in a boundary, and they break no line. -/
theorem isPlainByte_spec (c : UInt8) (hc : isPlainByte c = true) : isToken c = true ∧ c ≠ 39 ∧ isBreak c = false := by
  have hall : ∀ n < 256, isPlainByte (UInt8.ofNat n) = true →
      isToken (UInt8.ofNat n) = true ∧ UInt8.ofNat n ≠ 39 ∧ isBreak (UInt8.ofNat n) = false := by decide +kernel
  have h := hall c.toNat c.toNat_lt
  rw [UInt8.ofNat_toNat] at h
  exact h hc

/-- A decimal number has such bytes only. -/
theorem isPlainByte_toString (n : ℕ) : ∀ c ∈ utf8 (toString (n : ℤ)), isPlainByte c = true := by
  intro c hc
  have hdigit : ∀ m, 48 ≤ m → m ≤ 57 → isPlainByte (UInt8.ofNat m) = true := by
    intro m hlow hhigh
    interval_cases m <;> decide
  rcases isDigit_or_sign_of_mem_itoa hc with ⟨hlow, hhigh⟩ | rfl
  · have h := hdigit c.toNat hlow hhigh
    rwa [UInt8.ofNat_toNat] at h
  · decide

/-- Two dashes and then plain bytes are a boundary. -/
theorem IsBoundary.of_dashes {s : Bytes} (hs : ∀ c ∈ s, isPlainByte c = true) : IsBoundary (45 :: 45 :: s) where
  dashes := List.prefix_append [45, 45] s
  chars := by
    intro c hc
    refine isPlainByte_spec c ?_
    rcases List.mem_cons.mp hc with rfl | hc
    · decide
    rcases List.mem_cons.mp hc with rfl | hc
    · decide
    · exact hs c hc

/-- The Firefox boundary is one. -/
theorem isBoundary_geckoBoundary (parts : ℕ × ℕ × ℕ) : IsBoundary (utf8 (geckoBoundary parts)) := by
  have hdashes : utf8 "---------------------------" = 45 :: 45 :: List.replicate 25 45 := by decide +kernel
  have happend : ∀ s t u v : String, utf8 (s ++ t ++ u ++ v) = utf8 s ++ utf8 t ++ utf8 u ++ utf8 v := by
    simp only [utf8_append, implies_true]
  have hparts : utf8 (geckoBoundary parts) = utf8 "---------------------------" ++ utf8 (toString (parts.1 : ℤ)) ++
      utf8 (toString (parts.2.1 : ℤ)) ++ utf8 (toString (parts.2.2 : ℤ)) := happend _ _ _ _
  rw [hparts, hdashes]
  simp only [List.cons_append]
  refine IsBoundary.of_dashes fun c hc => ?_
  simp only [List.mem_append] at hc
  rcases hc with ((hc | hc) | hc) | hc
  · rw [List.eq_of_mem_replicate hc]
    decide
  · exact isPlainByte_toString _ c hc
  · exact isPlainByte_toString _ c hc
  · exact isPlainByte_toString _ c hc

/-- The Chrome boundary is one. -/
theorem isBoundary_blinkBoundary (randomness : ℕ) : IsBoundary (utf8 (blinkBoundary randomness)) := by
  have hfixed : utf8 "----WebKitFormBoundary" = 45 :: 45 :: ascii "--WebKitFormBoundary" := by decide +kernel
  have hplain : (ascii "--WebKitFormBoundary").all isPlainByte = true := by decide +kernel
  have hmap : ∀ n < 64, (String.utf8EncodeChar (blinkEncodingMap.getD n 'A')).all isPlainByte = true := by
    decide +kernel
  have hparts : utf8 (blinkBoundary randomness) = utf8 "----WebKitFormBoundary" ++ utf8 (String.ofList
      ((List.range 16).map fun i => blinkEncodingMap.getD ((randomness >>> (6 * i)) % 64) 'A')) := utf8_append _ _
  rw [hparts, hfixed, List.cons_append, List.cons_append]
  refine IsBoundary.of_dashes fun c hc => ?_
  rcases List.mem_append.mp hc with hc | hc
  · exact List.all_eq_true.mp hplain c hc
  · rw [utf8, String.toList_ofList, List.flatMap_map] at hc
    obtain ⟨i, -, hc⟩ := List.mem_flatMap.mp hc
    exact List.all_eq_true.mp (hmap _ (Nat.mod_lt _ (by decide))) c hc

/-- Whatever is drawn, the boundary is one. -/
theorem isBoundary_boundary (random : Random) (browser : String) : IsBoundary (utf8 (boundary random browser)) := by
  rw [boundary]
  split_ifs
  · exact isBoundary_geckoBoundary random.bits32
  · exact isBoundary_blinkBoundary random.bits128

/-! ## Literals of bytes -/

/-- The literal of bytes is longer than the bytes. -/
theorem length_lt_bytesLiteral (content : Bytes) : content.length < (bytesLiteral content).length := by
  have hone : ∀ quote b, 1 ≤ (escapeByte quote b).length := by
    intro quote b
    rw [escapeByte]
    split_ifs <;> simp [ascii]
  have hall : ∀ quote, content.length ≤ (content.flatMap (escapeByte quote)).length := by
    intro quote
    induction content with
    | nil => exact Nat.zero_le _
    | cons b content ih =>
      have hb := hone quote b
      rw [List.flatMap_cons, List.length_append, List.length_cons]
      omega
  have h := hall (if 39 ∈ content ∧ 34 ∉ content then 34 else 39)
  rw [bytesLiteral]
  simp only [List.length_cons, List.length_append]
  omega

/-- The first byte of an escape is a backslash, and no other is a dash. -/
theorem escapeByte_spec (quote b : UInt8) (hquote : quote = 34 ∨ quote = 39) :
    escapeByte quote b = [b] ∨ ∃ rest, escapeByte quote b = 92 :: rest ∧ 45 ∉ rest := by
  have hhex : ∀ n < 16, hexDigit n ≠ 45 := by decide
  have hlow := hhex (b.toNat / 16) (by have := b.toNat_lt; omega)
  have hhigh := hhex (b.toNat % 16) (Nat.mod_lt _ (by decide))
  rw [escapeByte]
  split_ifs with hself
  · refine .inr ⟨[b], rfl, ?_⟩
    rw [List.mem_singleton]
    rintro rfl
    rcases hself with rfl | h
    · revert hquote
      decide
    · contradiction
  · exact .inr ⟨ascii "t", rfl, by decide⟩
  · exact .inr ⟨ascii "n", rfl, by decide⟩
  · exact .inr ⟨ascii "r", rfl, by decide⟩
  · refine .inr ⟨ascii "x" ++ [hexDigit (b.toNat / 16), hexDigit (b.toNat % 16)], rfl, ?_⟩
    simp only [List.mem_append, List.mem_cons, List.not_mem_nil, or_false, not_or]
    exact ⟨by decide, Ne.symm hlow, Ne.symm hhigh⟩
  · exact .inl rfl

/-- A boundary that begins where a byte is written is one of the bytes. -/
theorem prefix_of_prefix_escaped {b content : Bytes} {quote : UInt8} (hquote : quote = 34 ∨ quote = 39)
    (hslash : 92 ∉ b) (hnot : quote ∉ b) (h : b <+: content.flatMap (escapeByte quote) ++ [quote]) : b <+: content := by
  induction content generalizing b with
  | nil =>
    cases b with
    | nil => exact List.nil_prefix
    | cons c b =>
      obtain ⟨rfl, -⟩ := List.cons_prefix_cons.mp h
      exact absurd List.mem_cons_self hnot
  | cons d content ih =>
    cases b with
    | nil => exact List.nil_prefix
    | cons c b =>
      rw [List.flatMap_cons, List.append_assoc] at h
      rw [List.mem_cons, not_or] at hslash hnot
      rcases escapeByte_spec quote d hquote with hself | ⟨rest, hrest, -⟩
      · rw [hself, List.singleton_append] at h
        obtain ⟨hfirst, htail⟩ := List.cons_prefix_cons.mp h
        exact List.cons_prefix_cons.mpr ⟨hfirst, ih hslash.2 hnot.2 htail⟩
      · rw [hrest, List.cons_append] at h
        exact absurd (List.cons_prefix_cons.mp h).1.symm hslash.1

theorem IsBoundary.exists_cons {b : Bytes} (hb : IsBoundary b) : ∃ tail, b = 45 :: tail := by
  obtain ⟨rest, rfl⟩ := hb.dashes
  exact ⟨45 :: rest, rfl⟩

/-- A boundary that is not in the bytes is not in what is between their quotes. -/
theorem not_infix_escaped {b content : Bytes} (hb : IsBoundary b) (hcontent : ¬b <:+: content) {quote : UInt8}
    (hquote : quote = 34 ∨ quote = 39) (hnot : quote ∉ b) : ¬b <:+: content.flatMap (escapeByte quote) ++ [quote] := by
  have hslash : 92 ∉ b := hb.not_mem (.inl (by decide))
  obtain ⟨tail, htail⟩ := hb.exists_cons
  induction content with
  | nil =>
    have hnil : ¬b <:+: [] := fun h => hb.ne_nil (List.eq_nil_of_infix_nil h)
    exact not_infix_cons hnot hnil
  | cons d content ih =>
    have hrest := ih fun h => hcontent (List.infix_cons h)
    rw [List.flatMap_cons, List.append_assoc]
    rcases escapeByte_spec quote d hquote with hself | ⟨rest, hfirst, hnone⟩
    · rw [hself, List.singleton_append]
      intro h
      rcases List.infix_cons_iff.mp h with h | h
      · have hescaped : b <+: (d :: content).flatMap (escapeByte quote) ++ [quote] := by
          rw [List.flatMap_cons, List.append_assoc, hself, List.singleton_append]
          exact h
        exact hcontent (prefix_of_prefix_escaped hquote hslash hnot hescaped).isInfix
      · exact hrest h
    -- the boundary begins with a dash, so it does not begin inside of an escape
    · have hdash : 45 ∉ 92 :: rest := mt List.mem_cons.mp (not_or.mpr ⟨by decide, hnone⟩)
      rw [hfirst, htail]
      exact not_infix_append_of_not_mem hdash (htail ▸ hrest)

/-- A boundary that is not in the bytes is not in their literal. -/
theorem not_infix_bytesLiteral {b content : Bytes} (hb : IsBoundary b) (hcontent : ¬b <:+: content) :
    ¬b <:+: bytesLiteral content := by
  rw [bytesLiteral]
  generalize hq : (if 39 ∈ content ∧ 34 ∉ content then (34 : UInt8) else 39) = quote
  have hquote : quote = 34 ∨ quote = 39 := by
    rw [← hq]
    split_ifs
    · exact .inl rfl
    · exact .inr rfl
  have hnot : quote ∉ b := by
    rcases hquote with rfl | rfl
    · exact hb.not_mem (.inl (by decide))
    · exact hb.not_mem (.inr rfl)
  have hquoted := not_infix_cons hnot (not_infix_escaped hb hcontent hquote hnot)
  obtain ⟨tail, htail⟩ := hb.exists_cons
  rw [htail] at hquoted ⊢
  have hdash : (45 : UInt8) ∉ [(98 : UInt8)] := by decide
  exact not_infix_append_of_not_mem hdash hquoted

/-! ## What is written -/

theorem utf8_append₃ (s t u : String) : utf8 (s ++ t ++ u) = utf8 s ++ (utf8 t ++ utf8 u) := by
  rw [utf8_append, utf8_append, List.append_assoc]

/-- Five strings, joined. -/
theorem utf8_append₅ (s t u v w : String) :
    utf8 (s ++ t ++ u ++ v ++ w) = utf8 s ++ (utf8 t ++ (utf8 u ++ (utf8 v ++ utf8 w))) := by
  rw [utf8_append, utf8_append, utf8_append₃]
  simp only [List.append_assoc]

namespace Entry

/-- The chunks of a part. -/
def chunks (boundary : String) : Entry → List (Option Bytes)
  | field name item => fieldChunks boundary name item
  | file name value => fileChunks boundary name value

def HasContent : Entry → Prop
  | field _ _ => True
  | file name value => (bodyBytes (value.entry name).content).isSome

/-- What is between the delimiters of a part. -/
def raw : Entry → Bytes
  | field name item => namePrefix ++ (utf8 name ++ 34 :: 13 :: 10 :: 13 :: 10 :: item.encoded)
  | file name value =>
    let entry := value.entry name
    namePrefix ++ (utf8 name ++ 34 :: (filenamePrefix ++ (utf8 entry.filename ++ 34 :: 13 :: 10 ::
      (headerLines entry ++ 13 :: 10 :: 13 :: 10 :: (bodyBytes entry.content).getD []))))

theorem utf8_delimiter (boundary : String) : utf8 ("--" ++ boundary ++ "\r\n") = 45 :: 45 :: utf8 boundary ++ [13, 10] :=
  utf8_append₃ _ _ _

theorem utf8_close (boundary : String) :
    utf8 ("--" ++ boundary ++ "--\r\n") = 45 :: 45 :: utf8 boundary ++ [45, 45, 13, 10] := utf8_append₃ _ _ _

/-- The other header lines with the line break behind them. -/
theorem headerLines_append (entry : FileEntry) :
    utf8 ("Content-Type: " ++ entry.contentType ++ "\r\n") ++
        (entry.extraHeaders.items.flatMap fun header => utf8 (header.1 ++ ": " ++ header.2 ++ "\r\n")) =
      headerLines entry ++ [13, 10] := by
  have hbreak : ∀ s : String, utf8 (s ++ "\r\n") = utf8 s ++ [13, 10] := fun s => utf8_append s _
  have hmove : ∀ headers : List (String × String),
      13 :: 10 :: (headers.flatMap fun header => utf8 (header.1 ++ ": " ++ header.2 ++ "\r\n")) =
        (headers.flatMap fun header => 13 :: 10 :: utf8 (header.1 ++ ": " ++ header.2)) ++ [13, 10] := by
    intro headers
    induction headers with
    | nil => rfl
    | cons header headers ih =>
      rw [List.flatMap_cons, List.flatMap_cons, List.append_assoc, ← ih, hbreak, List.append_assoc]
      rfl
  rw [headerLines, hbreak, List.append_assoc, List.append_assoc, ← hmove]
  rfl

/-- The bytes of an entry: its delimiter and its part. -/
theorem flatMap_chunks (boundary : String) (e : Entry) :
    ((e.chunks boundary).flatMap fun chunk => chunk.getD []) =
      45 :: 45 :: utf8 boundary ++ 13 :: 10 :: (e.raw ++ [13, 10]) := by
  have hname : utf8 "Content-Disposition: form-data; name=\"" = namePrefix := by decide +kernel
  have hfilename : utf8 "\"; filename=\"" = 34 :: filenamePrefix := by decide +kernel
  cases e with
  | field name item =>
    have hfirst : utf8 ("Content-Disposition: form-data; name=\"" ++ name ++ "\"\r\n\r\n") =
        namePrefix ++ (utf8 name ++ [34, 13, 10, 13, 10]) := (utf8_append₃ _ _ _).trans (congrArg (· ++ _) hname)
    simp only [chunks, fieldChunks, List.flatMap_cons, List.flatMap_nil, Option.getD_some, utf8_delimiter, hfirst, raw,
      List.append_assoc, List.cons_append, List.nil_append, List.append_nil]
    rfl
  | file name value =>
    have hfirst : ∀ filename : String,
        utf8 ("Content-Disposition: form-data; name=\"" ++ name ++ "\"; filename=\"" ++ filename ++ "\"\r\n") =
          namePrefix ++ (utf8 name ++ 34 :: (filenamePrefix ++ (utf8 filename ++ [34, 13, 10]))) := by
      intro filename
      rw [utf8_append₅, hname, hfilename]
      rfl
    -- the header lines of a file are the part's own, the type first and the extra ones behind
    have hlines := headerLines_append (value.entry name)
    have hmap : ∀ headers : List (String × String),
        ((headers.map fun header => some (utf8 (header.1 ++ ": " ++ header.2 ++ "\r\n"))).flatMap
          fun chunk => chunk.getD []) = headers.flatMap fun header => utf8 (header.1 ++ ": " ++ header.2 ++ "\r\n") :=
      fun headers => List.flatMap_map _ _ headers
    have hbreak : utf8 "\r\n" = [13, 10] := rfl
    have hraw : (file name value).raw ++ [13, 10] = namePrefix ++ (utf8 name ++ 34 :: (filenamePrefix ++
        (utf8 (value.entry name).filename ++ 34 :: 13 :: 10 :: ((headerLines (value.entry name) ++ [13, 10]) ++
          13 :: 10 :: ((bodyBytes (value.entry name).content).getD [] ++ [13, 10]))))) := by
      simp only [raw, List.append_assoc, List.cons_append, List.nil_append]
    rw [hraw, ← hlines]
    simp only [chunks, fileChunks, List.flatMap_append, List.flatMap_cons, List.flatMap_nil, Option.getD_some, hmap,
      utf8_delimiter, hfirst, hbreak, List.append_assoc, List.cons_append, List.nil_append, List.append_nil]

/-- An entry can be written if it has content. -/
theorem isSome_chunks_iff (boundary : String) (e : Entry) :
    (∀ chunk ∈ e.chunks boundary, chunk.isSome) ↔ e.HasContent := by
  cases e with
  | field name item =>
    refine iff_of_true (fun chunk hchunk => ?_) trivial
    simp only [chunks, fieldChunks, List.mem_cons, List.not_mem_nil, or_false] at hchunk
    rcases hchunk with rfl | rfl | rfl | rfl <;> rfl
  | file name value =>
    simp only [chunks, fileChunks, HasContent, List.forall_mem_append, List.forall_mem_cons, List.forall_mem_map,
      Option.isSome_some, List.not_mem_nil, false_implies, implies_true, true_and, and_true]

end Entry

/-- `b"".join` fails if and only if a chunk is `None`. -/
theorem joinChunks_eq_ok_iff {chunks : List (Option Bytes)} {body : Bytes} :
    joinChunks chunks = .ok body ↔
      (∀ chunk ∈ chunks, chunk.isSome) ∧ (chunks.flatMap fun chunk => chunk.getD []) = body := by
  rw [joinChunks]
  cases hfind : chunks.findIdx? Option.isNone with
  | some i =>
    refine ⟨nofun, fun ⟨hall, _⟩ => ?_⟩
    obtain ⟨hi, hnone, -⟩ := List.findIdx?_eq_some_iff_getElem.mp hfind
    have hsome := hall _ (List.getElem_mem hi)
    rw [Option.isNone_iff_eq_none.mp hnone] at hsome
    contradiction
  | none =>
    have hall : ∀ chunk ∈ chunks, chunk.isSome := by
      intro chunk hchunk
      rw [← Option.not_isNone, List.findIdx?_eq_none_iff.mp hfind chunk hchunk]
      rfl
    exact ⟨fun h => ⟨hall, Except.ok.inj h⟩, fun h => congrArg Except.ok h.2⟩

/-- The loops over data and files are one over the entries. -/
theorem flatMap_entries (boundary : String) (data : List (String × FieldValue)) (files : List (String × FileValue)) :
    (data.flatMap fun field => field.2.values.flatMap (fieldChunks boundary field.1)) ++
        (files.flatMap fun file => fileChunks boundary file.1 file.2) =
      (entries data files).flatMap (Entry.chunks boundary) := by
  rw [entries, List.flatMap_append, List.flatMap_assoc, List.flatMap_map]
  simp only [List.flatMap_map]
  rfl

/-- The body is made if and only if each file has content, and it is the parts between their delimiters. -/
theorem multipart_eq_ok_iff {random : Random} {data : List (String × FieldValue)} {files : List (String × FileValue)}
    {browser : String} {body : Bytes} {contentType : String} :
    multipart random data files browser = .ok (body, contentType) ↔
      (∀ e ∈ entries data files, e.HasContent) ∧
        written (utf8 (boundary random browser)) ((entries data files).map Entry.raw) = body ∧
        "multipart/form-data; boundary=" ++ boundary random browser = contentType := by
  have hwritten : ((((entries data files).flatMap (Entry.chunks (boundary random browser))) ++
      [some (utf8 ("--" ++ boundary random browser ++ "--\r\n"))]).flatMap fun chunk => chunk.getD []) =
        written (utf8 (boundary random browser)) ((entries data files).map Entry.raw) := by
    rw [List.flatMap_append, List.flatMap_assoc, written, List.flatMap_map]
    simp only [Entry.flatMap_chunks, List.flatMap_cons, List.flatMap_nil, Option.getD_some, Entry.utf8_close,
      List.append_nil]
  have hall : (∀ chunk ∈ ((entries data files).flatMap (Entry.chunks (boundary random browser))) ++
      [some (utf8 ("--" ++ boundary random browser ++ "--\r\n"))], chunk.isSome) ↔
        ∀ e ∈ entries data files, e.HasContent := by
    simp only [List.forall_mem_append, List.forall_mem_singleton, Option.isSome_some, and_true, List.forall_mem_flatMap,
      Entry.isSome_chunks_iff]
  have hmultipart : multipart random data files browser = (joinChunks ((entries data files).flatMap
      (Entry.chunks (boundary random browser)) ++ [some (utf8 ("--" ++ boundary random browser ++ "--\r\n"))]) >>=
        fun body => .ok (body, "multipart/form-data; boundary=" ++ boundary random browser)) := by
    rw [multipart, flatMap_entries]
    rfl
  -- `multipart` fails exactly where a chunk is missing, and it joins the chunks otherwise
  rw [hmultipart, Fallible.bind_eq_ok_iff, ← hall, ← hwritten, ← and_assoc, ← joinChunks_eq_ok_iff]
  constructor
  · rintro ⟨made, hmade, heq⟩
    obtain ⟨rfl, rfl⟩ := Prod.mk.inj (Except.ok.inj heq)
    exact ⟨hmade, rfl⟩
  · rintro ⟨hmade, rfl⟩
    exact ⟨body, hmade, rfl⟩

/-! ## What is read -/

/-- A name is plain if its bytes are. -/
theorem plain_utf8_iff {s : String} : Plain (utf8 s) ↔ PlainName s := by
  have hquote : (34 : UInt8) ∈ utf8 s ↔ '"' ∈ s.toList := @ofNat_mem_utf8 34 (by decide) s
  have hslash : (92 : UInt8) ∈ utf8 s ↔ '\\' ∈ s.toList := @ofNat_mem_utf8 92 (by decide) s
  have hcr : (13 : UInt8) ∈ utf8 s ↔ '\r' ∈ s.toList := @ofNat_mem_utf8 13 (by decide) s
  have hlf : (10 : UInt8) ∈ utf8 s ↔ '\n' ∈ s.toList := @ofNat_mem_utf8 10 (by decide) s
  simp only [PlainName, List.forall_mem_cons, List.not_mem_nil, false_implies, implies_true, and_true, ← hquote,
    ← hslash, ← hcr, ← hlf]
  constructor
  · intro h
    refine ⟨fun hc => (h _ hc).1 rfl, fun hc => (h _ hc).2.1 rfl, fun hc => ?_, fun hc => ?_⟩
    · exact absurd (h _ hc).2.2 (by decide)
    · exact absurd (h _ hc).2.2 (by decide)
  · rintro ⟨hquote, hslash, hcr, hlf⟩ c hc
    refine ⟨fun h => hquote (h ▸ hc), fun h => hslash (h ▸ hc), ?_⟩
    rw [isBreak, Bool.or_eq_false_iff, decide_eq_false_iff_not, decide_eq_false_iff_not]
    exact ⟨fun h => hcr (h ▸ hc), fun h => hlf (h ▸ hc)⟩

/-- A field is written as it is only if it is text. -/
theorem encoded_eq_content_iff {item : FieldItem} : item.encoded = item.content ↔ ∃ s, item = .text s := by
  cases item with
  | text s => exact iff_of_true rfl ⟨s, rfl⟩
  | bytes content =>
    refine iff_of_false (fun h => ?_) fun ⟨_, h⟩ => by cases h
    have hlength := length_lt_bytesLiteral content
    exact absurd (congrArg List.length h) (Nat.ne_of_gt hlength)

/-- A boundary that is not in the headers is not in their lines. -/
theorem not_infix_headerLines {b : Bytes} (hb : IsBoundary b) {entry : FileEntry}
    (htype : ¬b <:+: utf8 entry.contentType)
    (hheaders : ∀ header ∈ entry.extraHeaders.items, ¬b <:+: utf8 header.1 ∧ ¬b <:+: utf8 header.2) :
    ¬b <:+: headerLines entry := by
  have hspace : 32 ∉ b := hb.not_mem (.inl (by decide))
  have hcolon : 58 ∉ b := hb.not_mem (.inl (by decide))
  have hcr : 13 ∉ b := hb.not_mem (.inl (by decide))
  have hlf : 10 ∉ b := hb.not_mem (.inl (by decide))
  have hfirst : ¬b <:+: utf8 ("Content-Type: " ++ entry.contentType) := by
    have heq : utf8 ("Content-Type: " ++ entry.contentType) = utf8 "Content-Type:" ++ 32 :: utf8 entry.contentType :=
      utf8_append _ _
    rw [heq]
    exact not_infix_append_cons hspace (hb.not_infix_of_dashes (by decide +kernel)) htype
  -- a boundary holds no CR, LF, colon or space, so it would lie inside one name or value
  have hmore : ∀ (x : Bytes) (headers : List (String × String)), ¬b <:+: x →
      (∀ header ∈ headers, ¬b <:+: utf8 header.1 ∧ ¬b <:+: utf8 header.2) →
        ¬b <:+: x ++ headers.flatMap fun header => 13 :: 10 :: utf8 (header.1 ++ ": " ++ header.2) := by
    intro x headers
    induction headers generalizing x with
    | nil =>
      intro hx _
      rwa [List.flatMap_nil, List.append_nil]
    | cons header headers ih =>
      intro hx hall
      obtain ⟨⟨hname, hvalue⟩, hrest⟩ := List.forall_mem_cons.mp hall
      have heq : utf8 (header.1 ++ ": " ++ header.2) = utf8 header.1 ++ 58 :: 32 :: utf8 header.2 :=
        utf8_append₃ _ _ _
      rw [List.flatMap_cons, ← List.append_assoc, heq]
      refine ih _ (not_infix_append_cons hcr hx (not_infix_cons hlf ?_)) hrest
      exact not_infix_append_cons hcolon hname (not_infix_cons hspace hvalue)
  exact hmore _ _ hfirst hheaders

namespace Entry

/-- A boundary that is not in the entry is not in its part. -/
theorem not_infix_raw {b : Bytes} (hb : IsBoundary b) {e : Entry} (h : e.Without b) : ¬b <:+: e.raw := by
  have hquote : 34 ∉ b := hb.not_mem (.inl (by decide))
  have hcr : 13 ∉ b := hb.not_mem (.inl (by decide))
  have hlf : 10 ∉ b := hb.not_mem (.inl (by decide))
  -- the fixed texts around the names contain no boundary, which begins with dashes
  have hbreak : ∀ {s : Bytes}, ¬b <:+: s → ¬b <:+: 13 :: 10 :: s := fun hs =>
    not_infix_cons hcr (not_infix_cons hlf hs)
  have hname : ∀ {s : Bytes}, ¬b <:+: s → ¬b <:+: namePrefix ++ s := by
    intro s hs
    have hfixed : namePrefix = ascii "Content-Disposition: form-data; name=" ++ [34] := by decide +kernel
    rw [hfixed, List.append_assoc, List.singleton_append]
    exact not_infix_append_cons hquote (hb.not_infix_of_dashes (by decide +kernel)) hs
  cases e with
  | field name item =>
    obtain ⟨hn, hitem⟩ := h
    refine hname (not_infix_append_cons hquote hn (hbreak (hbreak ?_)))
    cases item with
    | text s => exact hitem
    | bytes content => exact not_infix_bytesLiteral hb hitem
  | file name value =>
    obtain ⟨hn, hf, htype, hheaders, hcontent⟩ := h
    have hfilename : ∀ {s : Bytes}, ¬b <:+: s → ¬b <:+: filenamePrefix ++ s := by
      intro s hs
      have hfixed : filenamePrefix = ascii "; filename=" ++ [34] := by decide +kernel
      rw [hfixed, List.append_assoc, List.singleton_append]
      exact not_infix_append_cons hquote (hb.not_infix_of_dashes (by decide +kernel)) hs
    have hbody : ¬b <:+: (bodyBytes (value.entry name).content).getD [] := by
      cases hsome : bodyBytes (value.entry name).content with
      | none => exact fun hnil => hb.ne_nil (List.eq_nil_of_infix_nil hnil)
      | some content => exact hcontent content hsome
    refine hname (not_infix_append_cons hquote hn (hfilename (not_infix_append_cons hquote hf (hbreak ?_))))
    exact not_infix_append_cons hcr (not_infix_headerLines hb htype hheaders) (not_infix_cons hlf (hbreak hbody))

/-- A part is made and read as given if and only if it is readable. -/
theorem parsePart_raw_iff {e : Entry} : e.HasContent ∧ parsePart e.raw = some e.part ↔ e.Readable := by
  cases e with
  | field name item =>
    rw [HasContent, true_and, raw, part, parsePart_name_iff, plain_utf8_iff, encoded_eq_content_iff, Readable]
  | file name value =>
    rw [HasContent, raw, part, parsePart_filename_iff, plain_utf8_iff, plain_utf8_iff, Readable]
    tauto

end Entry

/-- The content type names the boundary. -/
theorem boundaryOf_contentType (random : Random) (browser : String) :
    boundaryOf (utf8 ("multipart/form-data; boundary=" ++ boundary random browser)) =
      some (utf8 (boundary random browser)) := by
  have hb := isBoundary_boundary random browser
  have heq : utf8 "multipart/form-data; boundary=" = ascii "multipart/form-data; boundary=" := by decide +kernel
  have happend := utf8_append "multipart/form-data; boundary=" (boundary random browser)
  rw [happend, heq]
  exact boundaryOf_eq hb.ne_nil fun c hc => (hb.chars c hc).1

/-- A body whose parts do not have the boundary in them is read part by part. -/
theorem parse_written_iff {random : Random} {browser : String} {es : List Entry}
    (h : ∀ e ∈ es, e.Without (utf8 (boundary random browser))) {parts : List Part} :
    parse (utf8 ("multipart/form-data; boundary=" ++ boundary random browser))
        (written (utf8 (boundary random browser)) (es.map Entry.raw)) = some parts ↔
      List.Forall₂ (fun raw part => parsePart raw = some part) (es.map Entry.raw) parts := by
  have hb := isBoundary_boundary random browser
  have hcr : 13 ∉ utf8 (boundary random browser) := hb.not_mem (.inl (by decide))
  have hnone : ∀ raw ∈ es.map Entry.raw, ¬delimiter (utf8 (boundary random browser)) <:+: raw := by
    intro raw hraw hdelimiter
    obtain ⟨e, he, rfl⟩ := List.mem_map.mp hraw
    exact Entry.not_infix_raw hb (h e he) ((List.suffix_append [13, 10, 45, 45] _).isInfix.trans hdelimiter)
  have hfirst : ∀ s, breakOn (delimiter (utf8 (boundary random browser)))
      (delimiter (utf8 (boundary random browser)) ++ s) = some ([], s) := by
    intro s
    have hcons : 13 ∉ 10 :: 45 :: 45 :: utf8 (boundary random browser) := by
      simp only [List.mem_cons, not_or]
      exact ⟨by decide, by decide, by decide, hcr⟩
    exact breakOn_append hcons (fun hnil => absurd (List.eq_nil_of_infix_nil hnil) (List.cons_ne_nil _ _)) s
  rw [parse, boundaryOf_contentType]
  simp only [Option.bind_eq_bind, Option.bind_some, written_eq, hfirst]
  exact parseParts_behind_iff hcr hnone (Nat.lt_succ_of_le (length_le_written _ _))

/-- Where nothing that is given has the boundary in it, the body is read back as what was given if and only if each
part is readable: names without quotes, backslashes and line breaks, values that are texts, and files with content and
no empty line among their headers. -/
theorem multipart_roundTrips_iff (random : Random) (data : List (String × FieldValue))
    (files : List (String × FileValue)) (browser : String)
    (h : ∀ e ∈ entries data files, e.Without (utf8 (boundary random browser))) :
    RoundTrips random data files browser ↔ ∀ e ∈ entries data files, e.Readable := by
  have hparts : List.Forall₂ (fun raw part => parsePart raw = some part) ((entries data files).map Entry.raw)
      ((entries data files).map Entry.part) ↔ ∀ e ∈ entries data files, parsePart e.raw = some e.part := by
    rw [List.forall₂_map_left_iff, List.forall₂_map_right_iff, List.forall₂_same]
  have hreadable : (∀ e ∈ entries data files, e.Readable) ↔
      (∀ e ∈ entries data files, e.HasContent) ∧ ∀ e ∈ entries data files, parsePart e.raw = some e.part := by
    simp only [← Entry.parsePart_raw_iff, ← forall₂_and]
  rw [hreadable, ← hparts, ← parse_written_iff h]
  constructor
  · rintro ⟨body, contentType, hmade, hread⟩
    obtain ⟨hcontent, rfl, rfl⟩ := multipart_eq_ok_iff.mp hmade
    exact ⟨hcontent, hread⟩
  · rintro ⟨hcontent, hread⟩
    exact ⟨_, _, multipart_eq_ok_iff.mpr ⟨hcontent, rfl, rfl⟩, hread⟩

/-- A field of two texts, one of them empty, and a file with a header of its own. -/
theorem multipart_roundTrips_iff_upload :
    RoundTrips ⟨0, 0, 0, 0⟩ [("tag", .list [.text "a", .text ""])]
      [("doc", .quadruple "a.txt" (.str "x\r\n--") "text/plain" (.set .empty "X-Id" "1"))] "chrome" :=
  (multipart_roundTrips_iff _ _ _ _ (by decide +kernel)).mpr (by decide +kernel)

/-- The byte `x` is read back as the text `b'x'`. -/
theorem not_multipart_roundTrips :
    ¬∀ random data files browser, (∀ e ∈ entries data files, e.Without (utf8 (boundary random browser))) →
      RoundTrips random data files browser := by
  intro h
  obtain ⟨body, contentType, hmade, hread⟩ :=
    h ⟨0, 0, 0, 0⟩ [("a", .item (.bytes [120]))] [] "chrome" (by decide +kernel)
  obtain ⟨-, rfl, rfl⟩ := multipart_eq_ok_iff.mp hmade
  revert hread
  decide +kernel

end TlsClient.Compat.Multipart
