import TlsClient.Compat.Adapter
import TlsClient.Library.Chunks
import TlsClient.Library.Utf8Reader

/-!
# The content of a response in chunks

`text` and `iter_content` of the `Response` of `src/tls_client/requests_compat.py`. The chunks are the content, cut at
the multiples of their size. `text` decodes the content as a whole, replaces what it cannot decode and falls back to
UTF-8; `iter_content` decodes each chunk by itself and does none of this. `iterContent_covers_iff` says for which
contents and encodings the two agree.
-/

namespace TlsClient.Compat

open Ffi Chunks CharReader

/-! ## Decoding -/

/-- The argument `errors` of `bytes.decode`. -/
inductive Errors
  | strict
  | replace
deriving DecidableEq

/-- What decodes an encoding. -/
inductive Codec
  /-- one character after the other, such as `utf-8`, `latin-1` or `gbk` -/
  | characters (reader : CharReader UInt8 Char)
  /-- with a state or a mark in front, such as `utf-16` or `iso2022_jp`; nothing is a `UnicodeError` -/
  | other (decode : Errors → Bytes → Option Text)

def Codec.decode : Codec → Errors → Bytes → Option Text
  | .characters reader, .strict, bytes => reader.strict bytes
  | .characters reader, .replace, bytes => some (reader.replace ['\uFFFD'] bytes)
  | .other decode, errors, bytes => decode errors bytes

/-- The registry of codecs, by the names of encodings. -/
structure Codecs where
  lookup : Text → Option Codec
  lookup_utf8 : lookup "utf-8".toList = some (.characters Utf8.reader)

/-- What `text` and `iter_content` raise. -/
inductive ContentError
  | lookupError (encoding : Text)
  | unicodeError
  | typeError (message : Text)
deriving DecidableEq

/-- `bytes.decode(encoding, errors)`. -/
def Codecs.decode (codecs : Codecs) (bytes : Bytes) (encoding : Text) (errors : Errors) : Except ContentError Text :=
  match codecs.lookup encoding with
  | none => .error (.lookupError encoding)
  | some codec =>
    match codec.decode errors bytes with
    | none => .error .unicodeError
    | some text => .ok text

namespace Response

/-- `self.encoding or "utf-8"`. -/
def encodingOrUtf8 (response : Response) : Text := textOr (response.encoding.getD []) "utf-8".toList

/-- `text`. -/
def text (codecs : Codecs) (response : Response) : Except ContentError Text :=
  if response.content = [] then .ok []
  else
    match codecs.decode response.content response.encodingOrUtf8 .replace with
    | .error (.lookupError _) => codecs.decode response.content "utf-8".toList .replace
    | result => result

/-- What `iter_content` yields. -/
inductive Chunk
  | bytes (b : Bytes)
  | str (t : Text)
deriving DecidableEq

/-- What a generator has yielded when it ends or raises. -/
structure Generated where
  yielded : List Chunk
  raised : Option ContentError
deriving DecidableEq

/-- A generator that yields these one by one, up to the first that raises. -/
def generate : List (Except ContentError Chunk) → Generated
  | [] => ⟨[], none⟩
  | .ok chunk :: rest => ⟨chunk :: (generate rest).yielded, (generate rest).raised⟩
  | .error err :: _ => ⟨[], some err⟩

/-- `iter_content`. -/
def iterContent (codecs : Codecs) (response : Response) (chunkSize : ℤ) (decodeUnicode : Bool) : Generated :=
  if chunkSize ≤ 0 then ⟨[], some (.typeError "chunk_size must be a positive integer".toList)⟩
  else generate ((chunks chunkSize.toNat response.content).map fun chunk =>
    if decodeUnicode then (codecs.decode chunk response.encodingOrUtf8 .strict).map .str else .ok (.bytes chunk))

end Response

/-! ## What the chunks must be -/

/-- The bytes can be read in chunks. In an encoding of one character after the other they are readable as a whole, and
no character is cut; in any other the chunks have texts that together are that of the whole. -/
def Codec.Readable (chunkSize : ℕ) (bytes : Bytes) : Codec → Prop
  | .characters reader => (reader.strict bytes).isSome ∧ Aligned reader chunkSize bytes
  | .other decode => ∃ texts : List Text,
    List.Forall₂ (fun part t => decode .strict part = some t) (chunks chunkSize bytes) texts ∧
      decode .replace bytes = some texts.flatten

namespace Response

/-- The chunks are the content, all but the last are full, and decoded they are the text. -/
structure Covers (codecs : Codecs) (response : Response) (chunkSize : ℕ) : Prop where
  content : ∃ parts : List Bytes, response.iterContent codecs chunkSize false = ⟨parts.map .bytes, none⟩ ∧
    parts.flatten = response.content ∧ ∀ part ∈ parts.dropLast, part.length = chunkSize
  text : ∃ texts : List Text, response.iterContent codecs chunkSize true = ⟨texts.map .str, none⟩ ∧
    response.text codecs = .ok texts.flatten

/-! ## The generator -/

variable {codecs : Codecs} {response : Response} {chunkSize : ℕ}

/-- A generator of which nothing raises. -/
theorem generate_map_ok {α : Type} (f : α → Chunk) (l : List α) :
    generate (l.map fun a => .ok (f a)) = ⟨l.map f, none⟩ := by
  induction l with
  | nil => rfl
  | cons a l ih =>
    rw [List.map_cons, generate, ih]
    rfl

/-- A generator of texts ends if and only if none of them raises. -/
theorem generate_str_iff {items : List (Except ContentError Text)} {texts : List Text} :
    generate (items.map fun item => item.map .str) = ⟨texts.map .str, none⟩ ↔
      List.Forall₂ (fun item t => item = .ok t) items texts := by
  induction items generalizing texts with
  | nil =>
    rw [List.forall₂_nil_left_iff, List.map_nil, generate, Generated.mk.injEq, and_iff_left rfl, eq_comm,
      List.map_eq_nil_iff]
  | cons item items ih =>
    rw [List.map_cons]
    cases item with
    | error err =>
      refine iff_of_false (fun h => ?_) fun h => ?_
      · have hraised := congrArg Generated.raised h
        contradiction
      · cases h with
        | cons heq _ => contradiction
    | ok t =>
      -- one more text is yielded before the generator is asked again
      have hstep : generate ((Except.ok t : Except ContentError Text).map .str ::
          items.map fun item => item.map .str) = ⟨.str t :: (generate (items.map fun item => item.map .str)).yielded,
            (generate (items.map fun item => item.map .str)).raised⟩ := rfl
      rw [hstep]
      cases texts with
      | nil =>
        refine iff_of_false (fun h => ?_) fun h => ?_
        · have hyielded := congrArg Generated.yielded h
          contradiction
        · cases h
      | cons u texts =>
        rw [List.forall₂_cons, ← ih, List.map_cons, Generated.mk.injEq, List.cons.injEq, Chunk.str.injEq,
          Except.ok.injEq, and_assoc]
        exact and_congr_right fun _ => Generated.mk.injEq .. ▸ Iff.rfl

/-- As bytes, the chunks are yielded. -/
theorem iterContent_bytes (hsize : 0 < chunkSize) :
    response.iterContent codecs chunkSize false = ⟨(chunks chunkSize response.content).map .bytes, none⟩ := by
  rw [iterContent, if_neg (by omega), Int.toNat_natCast]
  exact generate_map_ok _ _

/-- As texts, what the chunks decode to is yielded. -/
theorem iterContent_str_iff (hsize : 0 < chunkSize) {texts : List Text} :
    response.iterContent codecs chunkSize true = ⟨texts.map .str, none⟩ ↔
      List.Forall₂ (fun part t => codecs.decode part response.encodingOrUtf8 .strict = .ok t)
        (chunks chunkSize response.content) texts := by
  rw [iterContent, if_neg (by omega), Int.toNat_natCast]
  refine Iff.trans ?_ (List.forall₂_map_left_iff (f := fun part => codecs.decode part response.encodingOrUtf8 .strict)
    (R := fun item t => item = .ok t))
  rw [← generate_str_iff, List.map_map]
  rfl

/-! ## When they are that -/

/-- A known encoding decodes with its codec. -/
theorem decode_eq_ok_iff {codec : Codec} {encoding : Text} (hlookup : codecs.lookup encoding = some codec)
    {errors : Errors} {bytes : Bytes} {t : Text} :
    codecs.decode bytes encoding errors = .ok t ↔ codec.decode errors bytes = some t := by
  rw [Codecs.decode, hlookup]
  dsimp only
  cases codec.decode errors bytes with
  | none => exact iff_of_false nofun nofun
  | some text => rw [Except.ok.injEq, Option.some.injEq]

/-- The text is what the codec makes of the content, replacing what it cannot read. -/
theorem text_eq_ok_iff {codec : Codec} (hcontent : response.content ≠ [])
    (hlookup : codecs.lookup response.encodingOrUtf8 = some codec) {t : Text} :
    response.text codecs = .ok t ↔ codec.decode .replace response.content = some t := by
  rw [text, if_neg hcontent, ← decode_eq_ok_iff hlookup, Codecs.decode, hlookup]
  dsimp only
  cases codec.decode .replace response.content <;> rfl

/-- The texts of the chunks exist and are together what the codec makes of the whole. -/
theorem readable_iff (hsize : 0 < chunkSize) {codec : Codec} {bytes : Bytes} :
    codec.Readable chunkSize bytes ↔ ∃ texts : List Text,
      List.Forall₂ (fun part t => codec.decode .strict part = some t) (chunks chunkSize bytes) texts ∧
        codec.decode .replace bytes = some texts.flatten := by
  cases codec with
  | other decode => rfl
  | characters reader =>
    rw [Codec.Readable, ← isSome_strict_iff hsize]
    constructor
    · intro hparts
      obtain ⟨texts, htexts⟩ := exists_texts_iff.mpr hparts
      refine ⟨texts, htexts, ?_⟩
      have hwhole := strict_flatten htexts
      rw [flatten_chunks hsize] at hwhole
      exact congrArg some (replace_eq hwhole)
    · rintro ⟨texts, htexts, -⟩ part hpart
      exact exists_texts_iff.mp ⟨texts, htexts⟩ part hpart

/-- Any other encoding can be read in chunks where its decoder, at every cut, goes on as it starts. -/
theorem readable_of_resumes (hsize : 0 < chunkSize) {decode : Errors → Bytes → Option Text} {bytes : Bytes} {t : Text}
    (hresumes : Resumes (decode .strict) chunkSize bytes) (hstrict : decode .strict bytes = some t)
    (hreplace : decode .replace bytes = some t) : (Codec.other decode).Readable chunkSize bytes := by
  obtain ⟨texts, htexts, hflatten⟩ := exists_texts_of_resumes hsize hresumes hstrict
  exact ⟨texts, htexts, hflatten ▸ hreplace⟩

/-- When the chunks cover the content and its text. -/
theorem covers_iff (codecs : Codecs) (response : Response) (hsize : 0 < chunkSize) :
    response.Covers codecs chunkSize ↔ response.content = [] ∨
      ∃ codec, codecs.lookup response.encodingOrUtf8 = some codec ∧ codec.Readable chunkSize response.content := by
  have hcontent : ∃ parts : List Bytes, response.iterContent codecs chunkSize false = ⟨parts.map .bytes, none⟩ ∧
      parts.flatten = response.content ∧ ∀ part ∈ parts.dropLast, part.length = chunkSize :=
    ⟨_, iterContent_bytes hsize, flatten_chunks hsize _, fun part hpart => length_of_mem_dropLast hsize hpart⟩
  by_cases hempty : response.content = []
  · refine iff_of_true ⟨hcontent, [], (iterContent_str_iff hsize).mpr ?_, ?_⟩ (.inl hempty)
    · rw [hempty, chunks_nil hsize]
      exact .nil
    · rw [text, if_pos hempty]
      rfl
  have hfirst : chunks chunkSize response.content ≠ [] := mt (chunks_eq_nil_iff hsize).mp hempty
  rw [or_iff_right hempty]
  constructor
  · rintro ⟨-, texts, htexts, htext⟩
    have hparts := (iterContent_str_iff hsize).mp htexts
    cases hlookup : codecs.lookup response.encodingOrUtf8 with
    | none =>
      -- the first chunk raises
      obtain ⟨part, parts, heq⟩ := List.exists_cons_of_ne_nil hfirst
      rw [heq] at hparts
      obtain ⟨t, _, ht, -⟩ := List.forall₂_cons_left_iff.mp hparts
      rw [Codecs.decode, hlookup] at ht
      contradiction
    | some codec =>
      refine ⟨codec, rfl, (readable_iff hsize).mpr ⟨texts, ?_, (text_eq_ok_iff hempty hlookup).mp htext⟩⟩
      exact hparts.imp fun part t ht => (decode_eq_ok_iff hlookup).mp ht
  · rintro ⟨codec, hlookup, hreadable⟩
    obtain ⟨texts, hparts, hwhole⟩ := (readable_iff hsize).mp hreadable
    refine ⟨hcontent, texts, (iterContent_str_iff hsize).mpr ?_, (text_eq_ok_iff hempty hlookup).mpr hwhole⟩
    exact hparts.imp fun part t ht => (decode_eq_ok_iff hlookup).mpr ht

/-- The chunks cover the content and its text if and only if there is none, or its encoding is known and it can be read
in chunks. For an encoding with a state it is enough that the content is valid in it and that at every cut the decoder
goes on as it starts. -/
theorem iterContent_covers_iff (codecs : Codecs) (response : Response) {chunkSize : ℕ} (hsize : 0 < chunkSize) :
    (response.Covers codecs chunkSize ↔ response.content = [] ∨
      ∃ codec, codecs.lookup response.encodingOrUtf8 = some codec ∧ codec.Readable chunkSize response.content) ∧
    ∀ (decode : Errors → Bytes → Option Text) (t : Text),
      codecs.lookup response.encodingOrUtf8 = some (.other decode) →
      Resumes (decode .strict) chunkSize response.content →
      decode .strict response.content = some t → decode .replace response.content = some t →
      response.Covers codecs chunkSize := by
  have hiff := covers_iff codecs response hsize
  refine ⟨hiff, fun decode t hlookup hresumes hstrict hreplace => hiff.mpr (.inr ⟨_, hlookup, ?_⟩)⟩
  exact readable_of_resumes hsize hresumes hstrict hreplace

/-- Only UTF-8 is known. -/
def utf8Codecs : Codecs where
  lookup encoding := if encoding = "utf-8".toList then some (.characters Utf8.reader) else none
  lookup_utf8 := rfl

/-- A response without a charset. -/
def ofContent (content : Bytes) : Response where
  statusCode := 200
  headers := .empty
  content := content
  url := "https://example.com/".toList
  reason := "OK".toList
  encoding := none
  cookies := .empty
  usedProtocol := none
  request := { method := "GET".toList, url := "https://example.com/".toList }

/-- In chunks of two bytes, a letter of two bytes is kept whole. -/
theorem iterContent_covers_iff_two :
    0 < 2 ∧ (ofContent [0xC3, 0xA9, 0x61]).Covers utf8Codecs 2 := by
  refine ⟨by decide, (iterContent_covers_iff utf8Codecs (ofContent [0xC3, 0xA9, 0x61]) (by decide)).1.mpr ?_⟩
  refine .inr ⟨_, rfl, by decide, fun i hi => ?_⟩
  have hi : i * 2 < 3 := hi
  obtain rfl | rfl : i = 0 ∨ i = 1 := by omega
  · decide
  · decide

/-- In chunks of one byte, it raises. -/
theorem not_covers :
    (ofContent [0xC3, 0xA9]).iterContent utf8Codecs 1 true = ⟨[], some .unicodeError⟩ ∧
      (ofContent [0xC3, 0xA9]).text utf8Codecs = .ok ['é'] ∧
      ¬∀ (codecs : Codecs) (response : Response) (chunkSize : ℕ), 0 < chunkSize →
        response.Covers codecs chunkSize := by
  have hraises : (ofContent [0xC3, 0xA9]).iterContent utf8Codecs 1 true = ⟨[], some .unicodeError⟩ := by decide
  refine ⟨hraises, by decide, fun hall => ?_⟩
  obtain ⟨texts, htexts, -⟩ := (hall utf8Codecs (ofContent [0xC3, 0xA9]) 1 Nat.one_pos).text
  have hraised := congrArg Generated.raised (htexts.symm.trans hraises)
  contradiction

end Response

end TlsClient.Compat
