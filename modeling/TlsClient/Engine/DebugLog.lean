import TlsClient.Engine.HeaderOrder
import TlsClient.Library.Fallible
import TlsClient.Response.Body

/-!
# The debug log of a client

Embeds `do` of `src/client.go`, which logs the bodies of the request and of the response where the client
was made with `debug`, and of `src/third_party/fhttp/httputil/dump.go` what its dump of a response reads.

To log a body `do` has to read it, and puts back what it read. That is the same body (`Agrees`) exactly if
nothing went wrong on the way and the charset reader, which is there for the log, left it alone.
-/

namespace TlsClient.Engine

open TlsClient.Ffi TlsClient.Response Utf8

/-- `http.Request`; `http.NoBody` is a body of no bytes. -/
structure ClientRequest where
  method : Bytes
  header : Header
  contentLength : ℤ
  body : Option Stream

/-- `http.Response` with its request's method and what closing its body gives. -/
structure ClientResponse extends HttpResponse where
  requestMethod : Bytes
  transferEncoding : List Bytes
  closeError : Option String

/-- What `do` calls for its log. -/
structure DebugLib where
  /-- `errors.Is(err, io.EOF)` -/
  isEOF : String → Bool
  /-- The error of `httputil.DumpRequestOut`. -/
  dumpRequestOut : ClientRequest → Option String
  /-- `charset.NewReader` -/
  newReader : Stream → Bytes → Except String Stream

/-! ## The log -/

/-- `io.ReadAll`. -/
def readAll (body : Stream) : Except String Bytes :=
  match body.error with
  | some err => .error err
  | none => .ok body.data

/-- What `debug` does before the request: it goes on with a copy of the body. -/
def logRequest (lib : DebugLib) (req : ClientRequest) : Except String ClientRequest := do
  let body ← req.body.mapM readAll
  let req := { req with body := body.map .complete }
  match lib.dumpRequestOut req with
  | some err => .error err
  | none => .ok req

/-- `DumpResponse`, with the body if a length is announced: it drains the body, and writing the response
fails if that has another length. The dump itself is only counted. -/
def dumpResponse (resp : ClientResponse) : Except String ClientResponse :=
  if resp.contentLength > 0 then
    match readAll resp.body, resp.closeError with
    | .error err, _ => .error err
    | .ok _, some err => .error err
    | .ok body, none =>
      if resp.requestMethod ≠ utf8 "HEAD" ∧ resp.transferEncoding.head? ≠ some (utf8 "chunked") ∧
          resp.contentLength ≠ body.length then
        .error s!"http: ContentLength={resp.contentLength} with Body length {body.length}"
      else .ok { resp with body := .complete body }
  else .ok resp

/-- `resp.Header.Get("Content-Type")`. -/
def contentType (resp : ClientResponse) : Bytes :=
  ((List.lookup (utf8 "Content-Type") resp.header).bind List.head?).getD []

/-- The body for the log: nothing where the first byte is missing, or else what the charset reader makes of it. -/
def previewBody (lib : DebugLib) (resp : ClientResponse) : Except String Bytes :=
  match resp.body.data, resp.body.error with
  | [], some err => if lib.isEOF err then .ok [] else .error err
  | [], none => .ok []
  | _ :: _, _ => do readAll (← lib.newReader resp.body (contentType resp))

/-- What `debug` does after the request: the response gets the body that was logged. -/
def logResponse (lib : DebugLib) (resp : ClientResponse) : Except String ClientResponse := do
  let resp ← dumpResponse resp
  let body ← previewBody lib resp
  return { resp with body := .complete body }

/-! ## The request -/

/-- The request that is sent, if it comes to that, and what comes back. -/
structure Outcome where
  sent : Option ClientRequest
  result : Except String ClientResponse

/-- The request with the default headers if it has none, and with its order lowered. -/
def loweredRequest (go : ToLower) (defaultHeaders : Header) (req : ClientRequest) : ClientRequest :=
  let header := if req.header.entries.length = 0 then defaultHeaders else req.header
  { req with header := header.set headerOrderKey (((header.lookup headerOrderKey).getD []).map go.toLower) }

/-- `do`; `clientDo` is `c.Client.Do`. -/
def doRequest (lib : DebugLib) (go : ToLower) (defaultHeaders : Header)
    (clientDo : ClientRequest → Except String ClientResponse) (debug : Bool) (req : ClientRequest) : Outcome :=
  let req := loweredRequest go defaultHeaders req
  match if debug then logRequest lib req else .ok req with
  | .error err => ⟨none, .error err⟩
  | .ok req =>
    ⟨some req, do
      let resp ← clientDo req
      if debug then logResponse lib resp else return resp⟩

/-! ## When the log goes unnoticed -/

/-- Both are responses with the same status, headers and bytes, or both are errors. -/
def SameResult : Except String ClientResponse → Except String ClientResponse → Prop
  | .ok resp, .ok resp' => resp.statusCode = resp'.statusCode ∧ resp.header = resp'.header ∧
      resp.body.data = resp'.body.data
  | .error _, .error _ => True
  | _, _ => False

/-- The same body is sent, and the same comes back. -/
def Agrees (o o' : Outcome) : Prop :=
  o.sent.map ClientRequest.body = o'.sent.map ClientRequest.body ∧ SameResult o.result o'.result

/-- What `DumpResponse` asks of a response: one with a length reads and closes well, and has that length. -/
def Dumps (resp : ClientResponse) : Prop :=
  resp.contentLength > 0 → resp.body.error = none ∧ resp.closeError = none ∧
    (resp.requestMethod = utf8 "HEAD" ∨ resp.transferEncoding.head? = some (utf8 "chunked") ∨
      resp.contentLength = resp.body.data.length)

/-- It can be dumped, and the charset reader reads it to its end and does not change it. -/
def Survives (lib : DebugLib) (resp : ClientResponse) : Prop :=
  Dumps resp ∧
    if resp.body.data = [] then ∀ err, resp.body.error = some err → lib.isEOF err = true
    else lib.newReader resp.body (contentType resp) = .ok (.complete resp.body.data)

/-- The body of the request reads to its end, the request can be dumped, and a response survives the log. -/
def Unnoticed (lib : DebugLib) (clientDo : ClientRequest → Except String ClientResponse)
    (req : ClientRequest) : Prop :=
  (∀ body, req.body = some body → body.error = none) ∧ lib.dumpRequestOut req = none ∧
    ∀ resp, clientDo req = .ok resp → Survives lib resp

variable {lib : DebugLib}

/-- What can be read is a complete body. -/
theorem readAll_eq_ok_iff {body : Stream} {bytes : Bytes} :
    readAll body = .ok bytes ↔ body = .complete bytes := by
  obtain ⟨data, error⟩ := body
  cases error <;> simp [readAll, Stream.complete]

/-- The request goes on as it is, or not at all. -/
theorem logRequest_eq_ok_iff {req req' : ClientRequest} :
    logRequest lib req = .ok req' ↔
      (∀ body, req.body = some body → body.error = none) ∧ lib.dumpRequestOut req = none ∧ req' = req := by
  have hdump : ∀ r : ClientRequest, (match lib.dumpRequestOut r with
      | some err => (.error err : Except String ClientRequest)
      | none => .ok r) = .ok req' ↔ lib.dumpRequestOut r = none ∧ req' = r := by
    intro r
    cases lib.dumpRequestOut r with
    | some err => simp
    | none => simp [eq_comm]
  obtain ⟨method, header, contentLength, body⟩ := req
  cases body with
  | none =>
    refine (hdump _).trans ⟨fun h => ⟨by simp, h⟩, And.right⟩
  | some body =>
    obtain ⟨data, error⟩ := body
    cases error with
    | none =>
      refine (hdump _).trans ⟨fun h => ⟨?_, h⟩, And.right⟩
      rintro _ ⟨⟩
      rfl
    | some err =>
      refine iff_of_false (fun h => by cases h) fun h => ?_
      exact absurd (h.1 _ rfl) (by simp)

/-- The dump leaves the response as it was. -/
theorem dumpResponse_eq_ok_iff {resp resp' : ClientResponse} :
    dumpResponse resp = .ok resp' ↔ Dumps resp ∧ resp' = resp := by
  obtain ⟨⟨_, _, _, contentLength, _, ⟨data, error⟩, _, _, _⟩, method, encoding, closeError⟩ := resp
  rw [dumpResponse, Dumps]
  split_ifs with hlength
  · cases error with
    | some err => simp [readAll, hlength]
    | none =>
      cases closeError with
      | some err => simp [readAll, hlength]
      | none =>
        simp only [readAll, Stream.complete]
        -- the transfer writer compares the length it has read with the one announced
        split_ifs with hmismatch
        · refine iff_of_false (fun h => by cases h) ?_
          rintro ⟨hdumps, -⟩
          have hlen := (hdumps hlength).2.2
          tauto
        · rw [Except.ok.injEq, eq_comm]
          refine ⟨fun heq => ⟨fun _ => ⟨trivial, trivial, ?_⟩, heq⟩, And.right⟩
          tauto
  · simp [hlength, eq_comm]

/-- The log has the bytes of the body if the charset reader gives these. -/
theorem previewBody_eq_ok_iff {resp : ClientResponse} :
    previewBody lib resp = .ok resp.body.data ↔
      if resp.body.data = [] then ∀ err, resp.body.error = some err → lib.isEOF err = true
      else lib.newReader resp.body (contentType resp) = .ok (.complete resp.body.data) := by
  rw [previewBody]
  split
  · next err hdata herror =>
    rw [if_pos hdata, herror, hdata]
    simp
  · next hdata herror =>
    rw [if_pos hdata, herror, hdata]
    simp
  · next first rest hdata =>
    rw [if_neg (by simp [hdata]), Fallible.bind_eq_ok_iff]
    constructor
    · rintro ⟨reader, hreader, hread⟩
      rw [hreader, readAll_eq_ok_iff.mp hread]
    · exact fun hreader => ⟨_, hreader, readAll_eq_ok_iff.mpr rfl⟩

/-- When a response is logged, and what is left of it. -/
theorem logResponse_eq_ok_iff {resp resp' : ClientResponse} :
    logResponse lib resp = .ok resp' ↔
      ∃ body, Dumps resp ∧ previewBody lib resp = .ok body ∧ { resp with body := .complete body } = resp' := by
  rw [logResponse]
  simp only [Fallible.bind_eq_ok_iff, dumpResponse_eq_ok_iff]
  constructor
  · rintro ⟨_, ⟨hdumps, rfl⟩, body, hpreview, hresp⟩
    exact ⟨body, hdumps, hpreview, Except.ok.inj hresp⟩
  · rintro ⟨body, hdumps, hpreview, rfl⟩
    exact ⟨resp, ⟨hdumps, rfl⟩, body, hpreview, rfl⟩

/-- What comes back from the log is the same response if it survives, and else another body or an error. -/
theorem sameResult_logResponse_iff {resp : ClientResponse} :
    SameResult (logResponse lib resp) (.ok resp) ↔ Survives lib resp := by
  rw [Survives, ← previewBody_eq_ok_iff]
  cases hlog : logResponse lib resp with
  | error err =>
    refine iff_of_false id ?_
    rintro ⟨hdumps, hpreview⟩
    rw [logResponse_eq_ok_iff.mpr ⟨_, hdumps, hpreview, rfl⟩] at hlog
    cases hlog
  | ok resp' =>
    obtain ⟨body, hdumps, hpreview, rfl⟩ := logResponse_eq_ok_iff.mp hlog
    rw [hpreview, Except.ok.injEq]
    exact ⟨fun h => ⟨hdumps, h.2.2⟩, fun h => ⟨rfl, rfl, h.2⟩⟩

/-- The debug log goes unnoticed exactly if nothing goes wrong on the way and the response survives it. -/
theorem agrees_iff_unnoticed (lib : DebugLib) (go : ToLower) (defaultHeaders : Header)
    (clientDo : ClientRequest → Except String ClientResponse) (req : ClientRequest) :
    Agrees (doRequest lib go defaultHeaders clientDo true req)
        (doRequest lib go defaultHeaders clientDo false req) ↔
      Unnoticed lib clientDo (loweredRequest go defaultHeaders req) := by
  generalize hlowered : loweredRequest go defaultHeaders req = lowered
  simp only [doRequest, hlowered, if_true, if_false, Bool.false_eq_true]
  cases hlog : logRequest lib lowered with
  | error err =>
    refine iff_of_false (fun h => by cases h.1) ?_
    -- without the log the request is sent, so an error of the log is a difference
    rintro ⟨hbody, hdump, -⟩
    rw [logRequest_eq_ok_iff.mpr ⟨hbody, hdump, rfl⟩] at hlog
    cases hlog
  | ok req' =>
    obtain ⟨hbody, hdump, rfl⟩ := logRequest_eq_ok_iff.mp hlog
    rw [Agrees, Unnoticed]
    dsimp only
    cases clientDo req' with
    | error err =>
      refine iff_of_true ⟨rfl, trivial⟩ ⟨hbody, hdump, ?_⟩
      rintro _ ⟨⟩
    | ok resp =>
      constructor
      · rintro ⟨-, hsame⟩
        refine ⟨hbody, hdump, ?_⟩
        rintro _ ⟨⟩
        exact sameResult_logResponse_iff.mp hsame
      · rintro ⟨-, -, hsurvives⟩
        exact ⟨rfl, sameResult_logResponse_iff.mpr (hsurvives resp rfl)⟩

/-- A charset reader that knows Latin-1: a byte above ASCII becomes two. -/
def latin1 : DebugLib where
  isEOF err := err == "EOF"
  dumpRequestOut _ := none
  newReader body _ :=
    .ok ⟨body.data.flatMap fun b => if b < 128 then [b] else [192 + b / 64, 128 + b % 64], body.error⟩

/-- The letter é in Latin-1, in a body of announced length. -/
def latin1Response : ClientResponse where
  statusCode := 200
  header := [(utf8 "Content-Type", [utf8 "text/plain; charset=iso-8859-1"])]
  contentEncoding := ""
  contentLength := 1
  uncompressed := false
  body := .complete [0xE9]
  cookies := []
  requestUrl := none
  proto := utf8 "HTTP/1.1"
  requestMethod := utf8 "GET"
  transferEncoding := []
  closeError := none

/-- With the debug log the body comes back in UTF-8. -/
theorem debugLog_transcodes : ¬ ∀ (lib : DebugLib) (go : ToLower) (defaultHeaders : Header)
    (clientDo : ClientRequest → Except String ClientResponse) (req : ClientRequest),
    Agrees (doRequest lib go defaultHeaders clientDo true req)
      (doRequest lib go defaultHeaders clientDo false req) := by
  intro hagrees
  have h := hagrees latin1 plainToLower .empty (fun _ => .ok latin1Response) ⟨utf8 "GET", .empty, 0, none⟩
  have hbody : [0xC3, 0xA9] = latin1Response.body.data := h.2.2.2
  exact absurd hbody (by decide)

end TlsClient.Engine
