import TlsClient.Ffi.Values

/-!
# Reading the response body

Embeds what `executeRequestFromConfig` (`src/cffi_binding/main.go`) does with a response, with
`readBodyToCHeap`, `readAllPooled` and `readBodyStreamToFileFromConfig`, the content decoding of
`src/third_party/fhttp/transport.go`, and the part of `_unpack_c_response` (`src/tls_client/_core.py`)
that copies the body into Python.

The decoding readers are parameters: `gzip`, `br`, `zstd`, `zlib` and `flate` say what each of them
yields on a body. `readBodyToCHeap` asks for exactly `ContentLength` bytes, which counts the body as it
was sent, from a reader that yields the body decoded. `deliveredBody_iff` says when that comes out right.
-/

namespace TlsClient.Response

open TlsClient.Ffi

/-- What an `io.Reader` yields until it stops: its bytes, and the error it stops with (`none` is
`io.EOF`). -/
structure Stream where
  data : Bytes
  error : Option String
deriving DecidableEq, Repr

/-- A body that reads to its end. -/
def Stream.complete (data : Bytes) : Stream := ⟨data, none⟩

/-- The decoding readers the transport is built on. -/
structure Codecs where
  gzip : Stream → Stream
  br : Stream → Stream
  zstd : Stream → Stream
  zlib : Stream → Stream
  flate : Stream → Stream

/-- `identifyDeflate`: the two header bytes are read first and put back only if the first is `0x78`. -/
def identifyDeflate (c : Codecs) (body : Stream) : Stream :=
  match body.data with
  | b0 :: b1 :: rest =>
    if b0 = 0x78 ∧ (b1 = 0x9C ∨ b1 = 0x01 ∨ b1 = 0x5E ∨ b1 = 0xDA) then
      c.zlib (.complete body.data)
    else if b0 = 0x78 then c.flate (.complete body.data)
    else ⟨rest, body.error⟩
  | _ => ⟨[], body.error⟩

/-- `DecompressBodyByType`. -/
def decompressBodyByType (c : Codecs) (body : Stream) (contentEncoding : String) : Stream :=
  match contentEncoding with
  | "gzip" => c.gzip body
  | "br" => c.br body
  | "deflate" => identifyDeflate c body
  | "zstd" => c.zstd body
  | _ => body

/-- The fields of `*http.Response` that are read. -/
structure HttpResponse where
  statusCode : ℤ
  header : List (Bytes × List Bytes)
  /-- `Header.Get("Content-Encoding")` -/
  contentEncoding : String
  contentLength : ℤ
  uncompressed : Bool
  body : Stream
  cookies : List (Bytes × Bytes)
  requestUrl : Option Bytes
  proto : Bytes

/-- The fields of `requestConfig` that decide how the body is read. -/
structure ReadConfig where
  disableCompression : Bool
  streamOutputPath : Bytes
  streamOutputEOFSymbol : Bytes

/-- `C.ResponseResult`; `body` is the C block, `none` for NULL. -/
structure ResponseResult where
  errMsg : Option String := none
  statusCode : ℤ := 0
  body : Option Bytes := none
  bodyLen : ℤ := 0
  targetUrl : Option Bytes := none
  usedProtocol : Option Bytes := none
  responseHeaders : List (Bytes × Bytes) := []
  cookies : List (Bytes × Bytes) := []
deriving DecidableEq, Repr

/-- `io.ReadFull` into a buffer of `n > 0` bytes. -/
def readFull (body : Stream) (n : ℕ) : Except String Bytes :=
  if n ≤ body.data.length then .ok (body.data.take n)
  else
    match body.error with
    | some err => .error err
    | none => .error (if body.data.isEmpty then "EOF" else "unexpected EOF")

/-- `readAllPooled`: `bytes.Buffer.ReadFrom` until `io.EOF`. -/
def readAllPooled (body : Stream) : Except String Bytes :=
  match body.error with
  | some err => .error err
  | none => .ok body.data

/-- The cap of the direct path, 128 MB. -/
def maxDirectBody : ℤ := 128 * 1024 * 1024

/-- `readBodyToCHeap`; `.ok none` tells the caller to fall back to `readAllPooled`. -/
def readBodyToCHeap (malloc : ℕ → Bool) (body : Stream) (contentLength : ℤ) :
    Except String (Option Bytes) :=
  if contentLength ≤ 0 ∨ contentLength > maxDirectBody then .ok none
  else if !malloc contentLength.toNat then .ok none
  else
    match readFull body contentLength.toNat with
    | .error err => .error err
    | .ok cBody => .ok (some cBody)

/-- What the file system answers to a streamed request. -/
structure StreamFile where
  openError : Option String
  writeError : Option String

/-- `readBodyStreamToFileFromConfig`: the blocks are written as they are read, so a read error leaves
the file with what came before it. -/
def readBodyStreamToFileFromConfig (file : StreamFile) (body : Stream) : Except String Bytes :=
  match file.openError with
  | some err => .error ("stream: cannot open output file: " ++ err)
  | none =>
    match file.writeError, body.data with
    | some err, _ :: _ => .error ("stream: write error: " ++ err)
    | _, _ =>
      match body.error with
      | some err => .error ("stream: read error: " ++ err)
      | none => .ok []

/-- `packResponseArena`, without the layout of the arena. -/
def packResponseArena (malloc : ℕ → Bool) (header : List (Bytes × List Bytes))
    (cookies : List (Bytes × Bytes)) (result : ResponseResult) : ResponseResult :=
  let entries := header.flatMap fun h => h.2.map fun v => (h.1, v)
  let total := entries.length + cookies.length
  let strBytes := ((entries ++ cookies).map fun e => e.1.length + 1 + e.2.length + 1).sum
  if total = 0 then result
  else if !malloc (total * 16) then
    { result with errMsg := some "failed to allocate response header array" }
  else if 0 < strBytes ∧ !malloc strBytes then
    { result with errMsg := some "failed to allocate response string arena" }
  else { result with responseHeaders := entries, cookies := cookies }

/-- The reader the body is taken from, after the decoding `executeRequestFromConfig` adds. -/
def responseReader (c : Codecs) (cfg : ReadConfig) (resp : HttpResponse) : Stream :=
  if !cfg.disableCompression ∧ !resp.uncompressed then
    decompressBodyByType c resp.body resp.contentEncoding
  else resp.body

/-- The body half of `executeRequestFromConfig`: the block and length for the result, or the error. -/
def readResponseBody (malloc : ℕ → Bool) (file : StreamFile) (cfg : ReadConfig) (body : Stream)
    (contentLength : ℤ) : Except String (Option Bytes × ℤ) :=
  let slow (respBody : Except String Bytes) : Except String (Option Bytes × ℤ) :=
    match respBody with
    | .error err => .error ("failed to read response body: " ++ err)
    | .ok bytes =>
      if bytes.isEmpty then .ok (none, cInt bytes.length)
      else if !malloc bytes.length then .error "failed to allocate memory for response body"
      else .ok (some bytes, cInt bytes.length)
  if cfg.streamOutputPath ≠ [] then slow (readBodyStreamToFileFromConfig file body)
  else
    match readBodyToCHeap malloc body contentLength with
    | .ok (some cBody) => .ok (some cBody, cInt contentLength.toNat)
    | .error err => .error ("failed to read response body: " ++ err)
    | .ok none => slow (readAllPooled body)

/-- How the part of `executeRequestFromConfig` before the response ends. -/
inductive Exchange where
  | clientError (msg : String)
  | requestError (msg : String)
  | doError (msg : String)
  | response (resp : HttpResponse)

/-- `executeRequestFromConfig`, from the outcome of the exchange on. -/
def executeRequestFromConfig (c : Codecs) (malloc : ℕ → Bool) (file : StreamFile)
    (cfg : ReadConfig) (exchange : Exchange) : ResponseResult :=
  match exchange with
  | .clientError msg => { errMsg := some ("failed to obtain client: " ++ msg) }
  | .requestError msg => { errMsg := some ("failed to create request: " ++ msg) }
  | .doError msg => { errMsg := some ("request failed: " ++ msg) }
  | .response resp =>
    match readResponseBody malloc file cfg (responseReader c cfg resp) resp.contentLength with
    | .error err => { errMsg := some err }
    | .ok (body, bodyLen) =>
      packResponseArena malloc resp.header resp.cookies
        { statusCode := resp.statusCode
          body := body
          bodyLen := bodyLen
          targetUrl := resp.requestUrl
          usedProtocol := some resp.proto }

/-- The body `_unpack_c_response` copies: `ffi.buffer(raw_res.body, blen)[:]` or `b""`. -/
def unpackBody (raw : ResponseResult) : Bytes :=
  match raw.body with
  | none => []
  | some block => if 0 < raw.bodyLen then block.take raw.bodyLen.toNat else []

/-! ## What the transport delivers -/

/-- The content codings of HTTP, with the header value of each. -/
inductive Coding where
  | identity
  | gzip
  | deflate
  | br
  | zstd
deriving DecidableEq, Repr

def Coding.token : Coding → String
  | .identity => ""
  | .gzip => "gzip"
  | .deflate => "deflate"
  | .br => "br"
  | .zstd => "zstd"

/-- The reader a body of this coding is made for; `deflate` names the zlib format. -/
def Codecs.reader (c : Codecs) : Coding → Stream → Stream
  | .identity => id
  | .gzip => c.gzip
  | .deflate => c.zlib
  | .br => c.br
  | .zstd => c.zstd

/-- A complete response on the wire: the coded body, and whether it answers a request that gets no
body (HEAD). A `Content-Length` is the length of the coded body, which HEAD leaves out. -/
structure WireResponse where
  statusCode : ℤ
  header : List (Bytes × List Bytes)
  cookies : List (Bytes × Bytes)
  requestUrl : Option Bytes
  proto : Bytes
  head : Bool
  coding : Coding
  encoded : Bytes
  contentLength : Option ℕ
  head_empty : head = true → encoded = []
  length_eq : head = false → ∀ n, contentLength = some n → n = encoded.length

/-- What the transport hands over. If it decompresses the body itself it marks the response and forgets
the length. -/
def WireResponse.deliver (c : Codecs) (decompresses : Bool) (w : WireResponse) : HttpResponse where
  statusCode := w.statusCode
  header := w.header
  contentEncoding := if decompresses then "" else w.coding.token
  contentLength := if decompresses then -1 else (w.contentLength.map Int.ofNat).getD (-1)
  uncompressed := decompresses
  body :=
    if decompresses then decompressBodyByType c (.complete w.encoded) w.coding.token
    else .complete w.encoded
  cookies := w.cookies
  requestUrl := w.requestUrl
  proto := w.proto

/-- `d` is the body the caller is due: nothing if there is none, the coded bytes as they are if the
caller turned decompression off and the transport left them alone, otherwise the decoded body. -/
def WireResponse.Due (c : Codecs) (cfg : ReadConfig) (decompresses : Bool) (w : WireResponse)
    (d : Bytes) : Prop :=
  if w.encoded = [] then d = []
  else if cfg.disableCompression ∧ !decompresses then d = w.encoded
  else c.reader w.coding (.complete w.encoded) = .complete d

instance (c : Codecs) (cfg : ReadConfig) (decompresses : Bool) (w : WireResponse) (d : Bytes) :
    Decidable (w.Due c cfg decompresses d) := by
  unfold WireResponse.Due
  infer_instance

/-- What is used of the decoding readers: an empty body reads as empty, and a zlib stream starts with
the header RFC 1950 prescribes (method 8, check bits, no preset dictionary). -/
structure Codecs.Lawful (c : Codecs) : Prop where
  gzip_nil : c.gzip (.complete []) = .complete []
  br_nil : c.br (.complete []) = .complete []
  zstd_nil : c.zstd (.complete []) = .complete []
  zlib_header : ∀ e d, c.zlib (.complete e) = .complete d →
    ∃ b0 b1 rest, e = b0 :: b1 :: rest ∧ b0.toNat % 16 = 8 ∧
      (b0.toNat * 256 + b1.toNat) % 31 = 0 ∧ b1.toNat / 32 % 2 = 0

/-- The direct path: the transport left the body alone and announced `n` bytes within the cap. -/
def WireResponse.directLength (decompresses : Bool) (w : WireResponse) : Option ℕ :=
  if decompresses then none
  else w.contentLength.filter (fun n => 0 < n ∧ n ≤ 128 * 1024 * 1024)

/-- A body to be decoded that is a zlib stream for another window than 32 KB: its first byte is not
`0x78`, so `identifyDeflate` takes it for undeclared data and drops the header. -/
def WireResponse.UnknownWindow (cfg : ReadConfig) (decompresses : Bool) (w : WireResponse) : Prop :=
  w.coding = .deflate ∧ ¬ (cfg.disableCompression ∧ !decompresses) ∧ w.encoded ≠ [] ∧
    w.encoded.head? ≠ some 0x78

instance (cfg : ReadConfig) (decompresses : Bool) (w : WireResponse) :
    Decidable (w.UnknownWindow cfg decompresses) := by
  unfold WireResponse.UnknownWindow
  infer_instance

/-- What Python sees of a body whose length went through `C.int`. -/
def cutToInt (bytes : Bytes) : Bytes := bytes.take (cInt bytes.length).toNat

/-- The length a body of `length` bytes must have: that announced on the direct path, below 2 GiB off
it. -/
def LengthOk (direct : Option ℕ) (length : ℕ) : Prop :=
  match direct with
  | some n => length = n
  | none => length < 2 ^ 31

instance (direct : Option ℕ) (length : ℕ) : Decidable (LengthOk direct length) :=
  match direct with
  | some n => inferInstanceAs (Decidable (length = n))
  | none => inferInstanceAs (Decidable (length < 2 ^ 31))

/-- When the body comes out right: on the direct path the decoded body has the length of the coded
one, elsewhere it is shorter than 2 GiB. A zlib stream for another window loses its header and is not
decoded, which is right only if the rest of it happens to read as the body. -/
def WireResponse.BodyOk (cfg : ReadConfig) (decompresses : Bool) (w : WireResponse) (d : Bytes) :
    Prop :=
  if w.UnknownWindow cfg decompresses then
    w.directLength decompresses = none ∧ cutToInt (w.encoded.drop 2) = d
  else LengthOk (w.directLength decompresses) d.length

instance (cfg : ReadConfig) (decompresses : Bool) (w : WireResponse) (d : Bytes) :
    Decidable (w.BodyOk cfg decompresses d) := by
  unfold WireResponse.BodyOk
  infer_instance

/-! ## The reader -/

section Reader

variable {c : Codecs} {cfg : ReadConfig} {decompresses : Bool} {w : WireResponse} {d : Bytes}

/-- With a zlib header in front, the first byte `0x78` leaves four second bytes. -/
private theorem flg_of_cmf {b1 : UInt8} (hcheck : (0x78 * 256 + b1.toNat) % 31 = 0)
    (hdict : b1.toNat / 32 % 2 = 0) : b1 = 0x9C ∨ b1 = 0x01 ∨ b1 = 0x5E ∨ b1 = 0xDA := by
  have hcases : ∀ x < 256, (0x78 * 256 + x) % 31 = 0 → x / 32 % 2 = 0 →
      x = 0x9C ∨ x = 0x01 ∨ x = 0x5E ∨ x = 0xDA := by decide +kernel
  rcases hcases b1.toNat b1.toNat_lt hcheck hdict with h | h | h | h
  · exact .inl (UInt8.toNat_inj.mp h)
  · exact .inr (.inl (UInt8.toNat_inj.mp h))
  · exact .inr (.inr (.inl (UInt8.toNat_inj.mp h)))
  · exact .inr (.inr (.inr (UInt8.toNat_inj.mp h)))

/-- An empty body is decoded to an empty one. -/
theorem decompressBodyByType_nil (hc : c.Lawful) (coding : Coding) :
    decompressBodyByType c (.complete []) coding.token = .complete [] := by
  cases coding with
  | identity => rfl
  | gzip => exact hc.gzip_nil
  | deflate => rfl
  | br => exact hc.br_nil
  | zstd => exact hc.zstd_nil

/-- A non-empty body is decoded by the reader of its coding, unless it is a zlib stream whose header
`identifyDeflate` does not know. -/
theorem decompressBodyByType_of_reader (hc : c.Lawful) {coding : Coding} {e : Bytes}
    (hreader : c.reader coding (.complete e) = .complete d)
    (hknown : coding = .deflate → e.head? = some 0x78) :
    decompressBodyByType c (.complete e) coding.token = .complete d := by
  cases coding with
  | identity => exact hreader
  | gzip => exact hreader
  | br => exact hreader
  | zstd => exact hreader
  | deflate =>
    obtain ⟨b0, b1, rest, rfl, -, hcheck, hdict⟩ := hc.zlib_header e d hreader
    obtain rfl : b0 = 0x78 := by simpa using hknown rfl
    have hflg := flg_of_cmf hcheck hdict
    change identifyDeflate c (.complete (0x78 :: b1 :: rest)) = .complete d
    simp only [identifyDeflate, Stream.complete, true_and, if_pos hflg]
    exact hreader

/-- `identifyDeflate` on a zlib stream for another window: the header is gone and nothing is decoded. -/
theorem identifyDeflate_of_unknown (hc : c.Lawful) {e : Bytes}
    (hzlib : c.zlib (.complete e) = .complete d) (hhead : e.head? ≠ some 0x78) :
    identifyDeflate c (.complete e) = .complete (e.drop 2) := by
  obtain ⟨b0, b1, rest, rfl, -, -, -⟩ := hc.zlib_header e d hzlib
  have hb0 : b0 ≠ 0x78 := by simpa using hhead
  simp [identifyDeflate, Stream.complete, hb0]

/-- What the reader of a delivered response gives. -/
private theorem responseReader_deliver :
    responseReader c cfg (w.deliver c decompresses) =
      if cfg.disableCompression ∧ !decompresses then .complete w.encoded
      else decompressBodyByType c (.complete w.encoded) w.coding.token := by
  cases decompresses <;> cases hcomp : cfg.disableCompression <;>
    simp [responseReader, WireResponse.deliver, hcomp]

/-- The reader yields the body that is due. -/
theorem responseReader_of_known (hc : c.Lawful) (hdue : w.Due c cfg decompresses d)
    (hknown : ¬ w.UnknownWindow cfg decompresses) :
    responseReader c cfg (w.deliver c decompresses) = .complete d := by
  rw [responseReader_deliver]
  unfold WireResponse.Due at hdue
  by_cases hempty : w.encoded = []
  · rw [if_pos hempty] at hdue
    rw [hdue, hempty, decompressBodyByType_nil hc, ite_self]
  · rw [if_neg hempty] at hdue
    split at hdue
    case isTrue hraw => rw [if_pos hraw, hdue]
    case isFalse hraw =>
      rw [if_neg hraw]
      refine decompressBodyByType_of_reader hc hdue fun hdeflate => ?_
      by_contra hhead
      exact hknown ⟨hdeflate, hraw, hempty, hhead⟩

/-- The reader yields the zlib stream without its header. -/
theorem responseReader_of_unknown (hc : c.Lawful) (hdue : w.Due c cfg decompresses d)
    (hunknown : w.UnknownWindow cfg decompresses) :
    responseReader c cfg (w.deliver c decompresses) = .complete (w.encoded.drop 2) ∧
      2 ≤ w.encoded.length := by
  obtain ⟨hdeflate, hraw, hempty, hhead⟩ := hunknown
  have hzlib : c.zlib (.complete w.encoded) = .complete d := by
    unfold WireResponse.Due at hdue
    rwa [if_neg hempty, if_neg hraw, hdeflate] at hdue
  rw [responseReader_deliver, if_neg hraw, hdeflate]
  refine ⟨identifyDeflate_of_unknown hc hzlib hhead, ?_⟩
  obtain ⟨b0, b1, rest, he, -⟩ := hc.zlib_header _ _ hzlib
  simp [he]

end Reader

/-! ## The two paths -/

section Paths

variable {malloc : ℕ → Bool} {file : StreamFile} {cfg : ReadConfig}

/-- What Python gets from a block and a length, or nothing if the request failed. -/
def pythonBody (read : Except String (Option Bytes × ℤ)) : Option Bytes :=
  match read with
  | .error _ => none
  | .ok (body, bodyLen) => some (unpackBody { body, bodyLen })

/-- The direct path hands over exactly `n` bytes, and fails if the reader has fewer. -/
theorem readResponseBody_direct (hmalloc : ∀ n, malloc n = true) (hpath : cfg.streamOutputPath = [])
    (data : Bytes) {n : ℕ} (hpos : 0 < n) (hcap : n ≤ 128 * 1024 * 1024) :
    pythonBody (readResponseBody malloc file cfg (.complete data) n) =
      if n ≤ data.length then some (data.take n) else none := by
  have hcint : cInt n = n := cInt_of_lt (by omega)
  have hrange : ¬ ((n : ℤ) ≤ 0 ∨ (n : ℤ) > maxDirectBody) := by
    simp only [maxDirectBody]
    omega
  simp only [readResponseBody, hpath, readBodyToCHeap, if_neg hrange, hmalloc, Bool.not_true,
    Bool.false_eq_true, if_false, ne_eq, not_true_eq_false, Int.toNat_natCast]
  by_cases hn : n ≤ data.length
  · simp [readFull, Stream.complete, hn, pythonBody, unpackBody, hcint, hpos]
  · simp [readFull, Stream.complete, hn, pythonBody]

/-- The pooled path hands over what the reader yields, as far as `C.int` can say its length. -/
theorem readResponseBody_pooled (hmalloc : ∀ n, malloc n = true) (hpath : cfg.streamOutputPath = [])
    (data : Bytes) {contentLength : ℤ}
    (hrange : contentLength ≤ 0 ∨ contentLength > maxDirectBody) :
    pythonBody (readResponseBody malloc file cfg (.complete data) contentLength) =
      some (cutToInt data) := by
  simp only [readResponseBody, hpath, readBodyToCHeap, if_pos hrange, readAllPooled,
    Stream.complete, hmalloc, ne_eq, not_true_eq_false, if_false]
  cases data with
  | nil => simp [pythonBody, unpackBody, cutToInt]
  | cons b rest =>
    simp only [List.isEmpty_cons, Bool.false_eq_true, if_false, Bool.not_true, pythonBody,
      unpackBody, cutToInt, Option.some.injEq]
    split
    case isTrue => rfl
    case isFalse hneg => rw [Int.toNat_of_nonpos (not_lt.mp hneg), List.take_zero]

/-- On one reader the two paths agree exactly when the announced length is that of what is read. -/
theorem direct_eq_pooled_iff (hmalloc : ∀ n, malloc n = true) (hpath : cfg.streamOutputPath = [])
    (data : Bytes) {n : ℕ} (hpos : 0 < n) (hcap : n ≤ 128 * 1024 * 1024)
    (hdata : data.length < 2 ^ 31) :
    pythonBody (readResponseBody malloc file cfg (.complete data) n)
        = pythonBody (readResponseBody malloc file cfg (.complete data) (-1))
      ↔ data.length = n := by
  rw [readResponseBody_direct hmalloc hpath data hpos hcap,
    readResponseBody_pooled hmalloc hpath data (.inl (by omega)), cutToInt, cInt_of_lt hdata]
  simp only [Int.toNat_natCast, List.take_length]
  by_cases hn : n ≤ data.length
  · rw [if_pos hn, Option.some.injEq, List.take_eq_self_iff]
    omega
  · rw [if_neg hn]
    simp
    omega

/-- A body is kept in an `int` exactly below 2^31 bytes. -/
theorem cutToInt_eq_self_iff (d : Bytes) : cutToInt d = d ↔ d.length < 2 ^ 31 := by
  constructor
  · intro hcut
    by_contra hlong
    have hne := cInt_ne_of_le (n := d.length) (by omega)
    have hlen : d.length ≤ (cInt d.length).toNat := List.take_eq_self_iff d |>.mp hcut
    have hlt := (BitVec.ofNat 32 d.length).toInt_lt
    simp only [cInt] at hlen hne
    omega
  · intro hshort
    simp [cutToInt, cInt_of_lt hshort]

end Paths

/-! ## Body integrity -/

section Integrity

variable {c : Codecs} {malloc : ℕ → Bool} {file : StreamFile} {cfg : ReadConfig}
  {decompresses : Bool} {w : WireResponse} {d : Bytes}

/-- Packing the headers leaves the body alone, and does not fail while there is memory. -/
theorem packResponseArena_spec (hmalloc : ∀ n, malloc n = true)
    (header : List (Bytes × List Bytes)) (cookies : List (Bytes × Bytes)) (r : ResponseResult) :
    (packResponseArena malloc header cookies r).errMsg = r.errMsg ∧
      unpackBody (packResponseArena malloc header cookies r) = unpackBody r := by
  simp only [packResponseArena, hmalloc]
  split
  · exact ⟨rfl, rfl⟩
  · simp [unpackBody]

/-- The body that Python unpacks. -/
private theorem executeRequest_pythonBody (hmalloc : ∀ n, malloc n = true) (resp : HttpResponse) :
    (executeRequestFromConfig c malloc file cfg (.response resp)).errMsg = none ∧
        unpackBody (executeRequestFromConfig c malloc file cfg (.response resp)) = d
      ↔ pythonBody (readResponseBody malloc file cfg (responseReader c cfg resp) resp.contentLength)
          = some d := by
  unfold executeRequestFromConfig
  dsimp only
  generalize readResponseBody malloc file cfg (responseReader c cfg resp) resp.contentLength = read
  cases read with
  | error err => simp [pythonBody]
  | ok read =>
    obtain ⟨body, bodyLen⟩ := read
    dsimp only
    obtain ⟨herr, hbody⟩ := packResponseArena_spec hmalloc resp.header resp.cookies
      { statusCode := resp.statusCode, body := body, bodyLen := bodyLen
        targetUrl := resp.requestUrl, usedProtocol := some resp.proto }
    rw [herr, hbody]
    simp [pythonBody, unpackBody]

/-- The length the transport reports puts the response on the direct path or off it. -/
private theorem deliver_contentLength (c : Codecs) (decompresses : Bool) (w : WireResponse) :
    match w.directLength decompresses with
    | some n => (w.deliver c decompresses).contentLength = n ∧ 0 < n ∧ n ≤ 128 * 1024 * 1024
    | none => (w.deliver c decompresses).contentLength ≤ 0 ∨
        (w.deliver c decompresses).contentLength > maxDirectBody := by
  unfold WireResponse.directLength WireResponse.deliver
  cases decompresses with
  | true => simp
  | false =>
    cases hlen : w.contentLength with
    | none => simp
    | some n =>
      by_cases hn : 0 < n ∧ n ≤ 128 * 1024 * 1024
      · simp [Option.filter, hn]
      · simp only [Option.filter, hn, decide_false, Bool.false_eq_true, if_false, maxDirectBody,
          Option.map_some, Option.getD_some, Int.ofNat_eq_natCast]
        omega

/-- Off the direct path the whole of what the reader yields is handed over, on it exactly the
announced number of bytes. -/
private theorem pythonBody_deliver (hmalloc : ∀ n, malloc n = true)
    (hpath : cfg.streamOutputPath = []) {data : Bytes}
    (hreader : responseReader c cfg (w.deliver c decompresses) = .complete data) :
    pythonBody (readResponseBody malloc file cfg (responseReader c cfg (w.deliver c decompresses))
        (w.deliver c decompresses).contentLength) =
      match w.directLength decompresses with
      | some n => if n ≤ data.length then some (data.take n) else none
      | none => some (cutToInt data) := by
  have hlen := deliver_contentLength c decompresses w
  rw [hreader]
  cases hdirect : w.directLength decompresses with
  | some n =>
    simp only [hdirect] at hlen
    obtain ⟨hn, hpos, hcap⟩ := hlen
    rw [hn, readResponseBody_direct hmalloc hpath data hpos hcap]
  | none =>
    simp only [hdirect] at hlen
    rw [readResponseBody_pooled hmalloc hpath data hlen]

/-- The direct path of a zlib stream for another window asks for two bytes more than there are. -/
private theorem directLength_of_unknown (hunknown : w.UnknownWindow cfg decompresses) {n : ℕ}
    (hdirect : w.directLength decompresses = some n) : n = w.encoded.length := by
  unfold WireResponse.directLength at hdirect
  split at hdirect
  case isTrue => simp at hdirect
  case isFalse =>
    have hlen : w.contentLength = some n := (Option.filter_eq_some_iff.mp hdirect).1
    have hhead : w.head = false := by
      by_contra hhead
      exact hunknown.2.2.1 (w.head_empty (by simpa using hhead))
    exact w.length_eq hhead n hlen

/-- A complete response is handed to Python as the body that is due exactly under `BodyOk`. -/
theorem deliveredBody_iff (hc : c.Lawful) (hmalloc : ∀ n, malloc n = true)
    (hpath : cfg.streamOutputPath = []) (hdue : w.Due c cfg decompresses d) :
    (executeRequestFromConfig c malloc file cfg (.response (w.deliver c decompresses))).errMsg = none ∧
        unpackBody
          (executeRequestFromConfig c malloc file cfg (.response (w.deliver c decompresses))) = d
      ↔ w.BodyOk cfg decompresses d := by
  rw [executeRequest_pythonBody hmalloc]
  unfold WireResponse.BodyOk
  split
  case isTrue hunknown =>
    obtain ⟨hreader, htwo⟩ := responseReader_of_unknown hc hdue hunknown
    rw [pythonBody_deliver hmalloc hpath hreader]
    cases hdirect : w.directLength decompresses with
    | some n =>
      have hn := directLength_of_unknown hunknown hdirect
      -- the two bytes that were looked at are gone, so the announced length is never reached
      have hshort : ¬ n ≤ (w.encoded.drop 2).length := by
        rw [List.length_drop]
        omega
      simp only
      rw [if_neg hshort]
      simp
    | none => simp
  case isFalse hknown =>
    rw [pythonBody_deliver hmalloc hpath (responseReader_of_known hc hdue hknown)]
    cases w.directLength decompresses with
    | some n =>
      simp only [LengthOk]
      by_cases hn : n ≤ d.length
      · rw [if_pos hn, Option.some.injEq, List.take_eq_self_iff]
        omega
      · rw [if_neg hn]
        simp
        omega
    | none => simp only [Option.some.injEq, cutToInt_eq_self_iff, LengthOk]

end Integrity

/-- Forty times the letter `a`, and its gzip file. -/
def letters : Bytes := List.replicate 40 97

def lettersGzip : Bytes :=
  [31, 139, 8, 0, 0, 0, 0, 0, 2, 3, 75, 76, 36, 14, 0, 0, 37, 138, 91, 201, 40, 0, 0, 0]

/-- Readers that know this one gzip file. -/
def lettersCodecs : Codecs where
  gzip s := if s.data = lettersGzip then .complete letters else s
  br := id
  zstd := id
  zlib _ := ⟨[], some "zlib: invalid header"⟩
  flate _ := ⟨[], some "flate: corrupt input"⟩

/-- The example codecs do what is asked of them. -/
theorem lettersCodecs_lawful : lettersCodecs.Lawful where
  gzip_nil := by decide
  br_nil := rfl
  zstd_nil := rfl
  zlib_header e d hzlib := by simp [lettersCodecs, Stream.complete] at hzlib

/-- A `200 OK` carrying the gzip file, with or without a `Content-Length`. -/
def gzipResponse (contentLength : Option ℕ) (hlen : ∀ n, contentLength = some n → n = 24) :
    WireResponse where
  statusCode := 200
  header := []
  cookies := []
  requestUrl := none
  proto := []
  head := false
  coding := .gzip
  encoded := lettersGzip
  contentLength := contentLength
  head_empty := by simp
  length_eq _ := hlen

def plainConfig : ReadConfig := ⟨false, [], []⟩

/-- Without a `Content-Length` the gzip file is decoded in full. -/
theorem deliveredBody_iff_chunked :
    (executeRequestFromConfig lettersCodecs (fun _ => true) ⟨none, none⟩ plainConfig
        (.response ((gzipResponse none (by simp)).deliver lettersCodecs false))).errMsg = none ∧
      unpackBody (executeRequestFromConfig lettersCodecs (fun _ => true) ⟨none, none⟩ plainConfig
        (.response ((gzipResponse none (by simp)).deliver lettersCodecs false))) = letters :=
  (deliveredBody_iff lettersCodecs_lawful (fun _ => rfl) rfl (by decide)).mpr (by decide)

/-- With `Content-Length: 24` the same file is cut to its first 24 decoded bytes and reported as a
success. -/
theorem gzipResponse_truncated :
    ¬ ((executeRequestFromConfig lettersCodecs (fun _ => true) ⟨none, none⟩ plainConfig
          (.response ((gzipResponse (some 24) (by simp)).deliver lettersCodecs false))).errMsg = none ∧
        unpackBody (executeRequestFromConfig lettersCodecs (fun _ => true) ⟨none, none⟩ plainConfig
          (.response ((gzipResponse (some 24) (by simp)).deliver lettersCodecs false))) = letters) := by
  decide

end TlsClient.Response
