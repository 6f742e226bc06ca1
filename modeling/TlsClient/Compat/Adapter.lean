import TlsClient.Compat.Cookies
import TlsClient.Library.KeyedList
import TlsClient.Library.Fallible

/-!
# The adapter of a Requests-style session

Embeds what `TLSClientAdapter.send` of `src/tls_client/requests_compat.py` makes of the response of the native
session, with `CaseInsensitiveDict` of `src/tls_client/structures.py`. By then the request has been made. Two
steps can still raise: `urlsplit` of the response's URL, and the lookup of a cookie that the engine has parsed,
if the jar has several cookies of the name (`returns_iff`).
-/

namespace TlsClient.Compat

open TlsClient.Ffi TlsClient.Python

/-- `urlsplit(url)`, with the netloc in one piece. -/
structure SplitResult where
  scheme : Text
  netloc : Text
  path : Text
deriving DecidableEq

/-- What the session uses of the standard library. -/
structure WebLib extends Stdlib where
  /-- `str.isspace` -/
  isSpace : Char → Bool
  /-- ASCII letters have ASCII lower case -/
  lower_ascii : ∀ s : Text, (∀ c ∈ s, c.toNat < 128) → lower s = s.map Char.toLower
  /-- `urlsplit`, which raises `ValueError` -/
  urlsplit : Text → Except PyError SplitResult
  /-- `urljoin`, which raises `ValueError` -/
  urljoin : Text → Text → Except PyError Text
  /-- `http.client.responses` -/
  reasonPhrases : ℕ → Text

/-- An ASCII text in lower case. -/
theorem WebLib.lower_of_all (lib : WebLib) {s : Text} (hs : s.all (·.toNat < 128)) :
    lib.lower s = s.map Char.toLower := by
  refine lib.lower_ascii s fun c hc => ?_
  exact of_decide_eq_true (List.all_eq_true.mp hs c hc)

/-- `s.strip(chars)`. -/
def strip (isChar : Char → Bool) (s : Text) : Text :=
  ((s.dropWhile isChar).reverse.dropWhile isChar).reverse

/-- The part after the last `@`, or all. -/
def afterUserinfo (netloc : Text) : Text :=
  (netloc.reverse.takeWhile (· ≠ '@')).reverse

/-- The parts before and after the first separator. -/
def partition (sep : Char) (s : Text) : Text × Text :=
  (s.takeWhile (· ≠ sep), (s.dropWhile (· ≠ sep)).drop 1)

/-- `_hostinfo` of `urllib.parse`: host and port, empty where they are missing. -/
def hostinfo (netloc : Text) : Text × Text :=
  let info := afterUserinfo netloc
  if '[' ∈ info then
    let bracketed := partition ']' (partition '[' info).2
    (bracketed.1, (partition ':' bracketed.2).2)
  else partition ':' info

/-- `hostname`; the zone of an IPv6 address keeps its case. -/
def SplitResult.hostname (lib : Stdlib) (parsed : SplitResult) : Option Text :=
  let host := (hostinfo parsed.netloc).1
  if host = [] then none
  else some (lib.lower (host.takeWhile (· ≠ '%')) ++ host.dropWhile (· ≠ '%'))

/-- The parts that the cookies need. -/
def SplitResult.toSplitUrl (lib : Stdlib) (parsed : SplitResult) : SplitUrl :=
  ⟨parsed.hostname lib, parsed.path⟩

/-! ## Headers -/

/-- `CaseInsensitiveDict._store`: the names in lower case, with the names as they were given. -/
abbrev CaseInsensitiveDict := PyDict Text (Text × Text)

namespace CaseInsensitiveDict

def setItem (lib : Stdlib) (d : CaseInsensitiveDict) (key value : Text) : CaseInsensitiveDict :=
  PyDict.set d (lib.lower key) (key, value)

def getItem (lib : Stdlib) (d : CaseInsensitiveDict) (key : Text) : Option Text :=
  (PyDict.get d (lib.lower key)).map Prod.snd

/-- `d.pop(key, None)`. -/
def popItem (lib : Stdlib) (d : CaseInsensitiveDict) (key : Text) : CaseInsensitiveDict :=
  PyDict.pop d (lib.lower key)

theorem getItem_setItem_of_ne {lib : Stdlib} (d : CaseInsensitiveDict) {k key : Text} (value : Text)
    (hne : lib.lower key ≠ lib.lower k) : getItem lib (setItem lib d k value) key = getItem lib d key := by
  rw [getItem, setItem, PyDict.get_set_of_ne _ _ hne, getItem]

/-- A header after one was removed. -/
theorem getItem_popItem {lib : Stdlib} (d : CaseInsensitiveDict) (k key : Text) :
    getItem lib (popItem lib d k) key = if lib.lower key = lib.lower k then none else getItem lib d key := by
  rw [getItem, popItem, PyDict.get_pop, getItem]
  split_ifs
  · rfl
  · rfl

end CaseInsensitiveDict

/-- A value of `PreparedRequest`; its hooks are left out. -/
structure PreparedRequest where
  method : Text
  url : Text
  body : Option Bytes := none
  headers : CaseInsensitiveDict := .empty
  cookies : RequestsCookieJar := .empty

/-- `Response`; `raw`, `elapsed` and `connection` are left out. -/
structure Response where
  statusCode : ℕ
  headers : CaseInsensitiveDict
  content : Bytes
  url : Text
  reason : Text
  encoding : Option Text
  cookies : RequestsCookieJar
  usedProtocol : Option Text
  request : PreparedRequest
  /-- `_next` -/
  next : Option PreparedRequest := none

/-- What `execute_request` of the native session returns. -/
structure EngineResponse where
  statusCode : ℕ
  headers : PyDict Text (List Text)
  content : Bytes
  url : Option Text
  cookies : PyDict Text Text
  reason : Text
  usedProtocol : Option Text

/-- What `Session.send` raises. -/
inductive SendError where
  | valueError (err : PyError)
  | keyError (key : Text)
  | cookieConflict (err : CookieConflictError)
  | tooManyRedirects (maxRedirects : ℤ)
  | invalidSchema (url : Text)
  /-- one of `_transport_error` -/
  | transport (message : Text)
deriving DecidableEq

/-! ## `TLSClientAdapter.send` -/

/-- `_encoding_from_headers`. -/
def encodingFromHeaders (lib : WebLib) (headers : CaseInsensitiveDict) : Option Text :=
  let contentType := (headers.getItem lib.toStdlib "content-type".toList).getD []
  let charsets := (contentType.splitOn ';').tail.filterMap fun item =>
    if '=' ∈ item ∧ lib.lower (strip lib.isSpace (partition '=' item).1) = "charset".toList then
      some (strip (fun c => c ∈ [' ', '"', '\'']) (partition '=' item).2)
    else none
  match charsets with
  | charset :: _ => some charset
  | [] => if "application/json".toList <:+: lib.lower contentType then some "utf-8".toList else none

/-- `response.headers`: the values of a name in one line. -/
def joinedHeaders (lib : WebLib) (headers : PyDict Text (List Text)) : CaseInsensitiveDict :=
  headers.items.foldl
    (fun d item => d.setItem lib.toStdlib item.1 ([',', ' '].intercalate item.2)) .empty

/-- `native.url or request.url`. -/
def EngineResponse.finalUrl (native : EngineResponse) (request : PreparedRequest) : Text :=
  textOr (native.url.getD []) request.url

/-- What the cookies of a response are made of. -/
def EngineResponse.toNative (native : EngineResponse) (lib : WebLib) (parsed : SplitResult) : NativeResponse :=
  ⟨parsed.toSplitUrl lib.toStdlib, native.statusCode, native.headers, native.cookies⟩

/-- `TLSClientAdapter.send` after `execute_request`. -/
def adapterResponse (lib : WebLib) (request : PreparedRequest) (native : EngineResponse) :
    Except SendError Response := do
  let headers := joinedHeaders lib native.headers
  let url := native.finalUrl request
  let parsed ← (lib.urlsplit url).mapError (.valueError ·)
  let cookies ← (responseCookies lib.toStdlib (native.toNative lib parsed)).mapError .cookieConflict
  return {
    statusCode := native.statusCode
    headers := headers
    content := native.content
    url := url
    reason := textOr native.reason (lib.reasonPhrases native.statusCode)
    encoding := encodingFromHeaders lib headers
    cookies := cookies
    usedProtocol := native.usedProtocol
    request := request }

/-! ## Whether it returns -/

/-- The value that the `Set-Cookie` lines of a response leave under a key: that of the last one with the key. -/
def lineValue (lib : WebLib) (native : EngineResponse) (parsed : SplitResult) (key : CookieKey) : Option Text :=
  (KeyedList.last (morselKey lib.toStdlib ((parsed.toSplitUrl lib.toStdlib).host lib.toStdlib)) key
    (parsedCookies lib.toStdlib native.headers)).map fun cookie => cookie.2.value

/-- The `Set-Cookie` lines leave different values for a name, under different domains or paths. -/
def Ambiguous (lib : WebLib) (native : EngineResponse) (parsed : SplitResult) (name : Text) : Prop :=
  ∃ key other value value', key.name = name ∧ other.name = name ∧
    lineValue lib native parsed key = some value ∧ lineValue lib native parsed other = some value' ∧ value ≠ value'

/-- The cookie of a key is that of its last line. -/
theorem get_extractCookies (lib : WebLib) (native : EngineResponse) (parsed : SplitResult) (key : CookieKey) :
    PyDict.get (extractCookies lib.toStdlib native.headers (parsed.toSplitUrl lib.toStdlib)) key =
      lineValue lib native parsed key := by
  rw [extractCookies_eq, PyDict.get_setAll, PyDict.get_empty, Option.or_none, KeyedList.last_map, Option.map_map]
  rfl

/-- Two cookies of a name conflict exactly if the name is ambiguous. -/
theorem conflicts_extractCookies_iff {lib : WebLib} {native : EngineResponse} {parsed : SplitResult} {name : Text} :
    Conflicts (extractCookies lib.toStdlib native.headers (parsed.toSplitUrl lib.toStdlib)) name ↔
      Ambiguous lib native parsed name := by
  have hmem : ∀ item : CookieKey × Text,
      item ∈ (extractCookies lib.toStdlib native.headers (parsed.toSplitUrl lib.toStdlib)).items ↔
        lineValue lib native parsed item.1 = some item.2 := by
    intro item
    rw [← get_extractCookies, PyDict.get_eq_some_iff]
  constructor
  · rintro ⟨item, hitem, other, hother, hname, hname', hne⟩
    exact ⟨item.1, other.1, item.2, other.2, hname, hname', (hmem item).mp hitem, (hmem other).mp hother, hne⟩
  · rintro ⟨key, other, value, value', hname, hname', hvalue, hvalue', hne⟩
    exact ⟨(key, value), (hmem _).mpr hvalue, (other, value'), (hmem _).mpr hvalue', hname, hname', hne⟩

/-- What `send` returns is made of the split URL and of the cookies. -/
theorem exists_of_adapterResponse_ok {lib : WebLib} {request : PreparedRequest} {native : EngineResponse}
    {response : Response} (hok : adapterResponse lib request native = .ok response) :
    ∃ parsed, lib.urlsplit (native.finalUrl request) = .ok parsed ∧
      responseCookies lib.toStdlib (native.toNative lib parsed) = .ok response.cookies ∧
      response.headers = joinedHeaders lib native.headers ∧ response.statusCode = native.statusCode := by
  simp only [adapterResponse, Fallible.bind_eq_ok_iff, Fallible.mapError_eq_ok_iff, pure, Except.pure,
    Except.ok.injEq] at hok
  obtain ⟨parsed, hparsed, cookies, hcookies, rfl⟩ := hok
  exact ⟨parsed, hparsed, hcookies, rfl, rfl⟩

/-- These are the steps that can raise. -/
theorem of_adapterResponse_error {lib : WebLib} {request : PreparedRequest} {native : EngineResponse}
    {err : SendError} (herror : adapterResponse lib request native = .error err) :
    (∃ err, lib.urlsplit (native.finalUrl request) = .error err) ∨
      ∃ parsed, lib.urlsplit (native.finalUrl request) = .ok parsed ∧
        ∃ err, responseCookies lib.toStdlib (native.toNative lib parsed) = .error err := by
  rw [adapterResponse] at herror
  cases hparsed : lib.urlsplit (native.finalUrl request) with
  | error err => exact .inl ⟨err, rfl⟩
  | ok parsed =>
    refine .inr ⟨parsed, rfl, ?_⟩
    rw [hparsed] at herror
    cases hcookies : responseCookies lib.toStdlib (native.toNative lib parsed) with
    | error err => exact ⟨err, rfl⟩
    | ok cookies =>
      simp only [Except.mapError, bind, Except.bind, hcookies, pure, Except.pure] at herror
      contradiction

/-- What the cookies of a response satisfy. -/
theorem exists_adapterResponse_iff {lib : WebLib} {request : PreparedRequest} {native : EngineResponse}
    {P : RequestsCookieJar → Prop} :
    (∃ response, adapterResponse lib request native = .ok response ∧ P response.cookies) ↔
      ∃ parsed, lib.urlsplit (native.finalUrl request) = .ok parsed ∧
        ∃ cookies, responseCookies lib.toStdlib (native.toNative lib parsed) = .ok cookies ∧ P cookies := by
  constructor
  · rintro ⟨response, hok, hP⟩
    obtain ⟨parsed, hparsed, hcookies, -, -⟩ := exists_of_adapterResponse_ok hok
    exact ⟨parsed, hparsed, response.cookies, hcookies, hP⟩
  · rintro ⟨parsed, hparsed, cookies, hcookies, hP⟩
    cases hresponse : adapterResponse lib request native with
    | error err =>
      rcases of_adapterResponse_error hresponse with ⟨err, herror⟩ | ⟨parsed', hparsed', err, herror⟩
      · rw [hparsed] at herror
        contradiction
      · rw [hparsed, Except.ok.injEq] at hparsed'
        rw [← hparsed', hcookies] at herror
        contradiction
    | ok response =>
      obtain ⟨parsed', hparsed', hcookies', -, -⟩ := exists_of_adapterResponse_ok hresponse
      rw [hparsed, Except.ok.injEq] at hparsed'
      rw [← hparsed', hcookies, Except.ok.injEq] at hcookies'
      exact ⟨response, rfl, hcookies' ▸ hP⟩

/-- The engine's cookies can be added if none of them has an ambiguous name. -/
theorem responseCookies_ok_iff {lib : WebLib} {native : EngineResponse} {parsed : SplitResult} :
    (∃ cookies, responseCookies lib.toStdlib (native.toNative lib parsed) = .ok cookies) ↔
      ∀ name ∈ native.cookies.keys, ¬ Ambiguous lib native parsed name := by
  have hok : (∃ cookies, responseCookies lib.toStdlib (native.toNative lib parsed) = .ok cookies) ↔
      ¬ ∃ err, responseCookies lib.toStdlib (native.toNative lib parsed) = .error err := by
    cases responseCookies lib.toStdlib (native.toNative lib parsed) with
    | error err => simp
    | ok cookies => simp
  have hconflicts : ∀ name, Conflicts (extractCookies lib.toStdlib (native.toNative lib parsed).headers
      (native.toNative lib parsed).url) name ↔ Ambiguous lib native parsed name :=
    fun name => conflicts_extractCookies_iff
  rw [hok, responseCookies_error_iff]
  push Not
  exact forall₂_congr fun name _ => not_congr (hconflicts name)

/-- A response that the engine delivers is returned exactly if its URL can be split and none of the engine's
cookies has a name for which the `Set-Cookie` lines leave different values. -/
theorem returns_iff (lib : WebLib) (request : PreparedRequest) (native : EngineResponse) :
    (∃ response, adapterResponse lib request native = .ok response) ↔
      ∃ parsed, lib.urlsplit (native.finalUrl request) = .ok parsed ∧
        ∀ name ∈ native.cookies.keys, ¬ Ambiguous lib native parsed name := by
  have hreturns := @exists_adapterResponse_iff lib request native fun _ => True
  simp only [and_true] at hreturns
  rw [hreturns]
  exact exists_congr fun parsed => and_congr_right fun _ => responseCookies_ok_iff

/-! ## A name under two paths -/

/-- `SimpleCookie.load` of a line with one cookie and without quotes. -/
def loadOne (line : Text) : Option (PyDict Text Morsel) :=
  let parts := (line.splitOn ';').map (strip (· = ' '))
  let valueOf (name : String) : Text :=
    ((parts.tail.find? fun part => (partition '=' part).1.map Char.toLower = name.toList).map
      fun part => (partition '=' part).2).getD []
  parts.head?.map fun pair =>
    PyDict.set .empty (partition '=' pair).1
      { value := (partition '=' pair).2, domain := valueOf "domain", path := valueOf "path" }

/-- URLs with a scheme and a netloc, without query and fragment. -/
def splitPlain (url : Text) : SplitResult :=
  let rest := url.drop ((url.takeWhile (· ≠ ':')).length + 3)
  ⟨(url.takeWhile (· ≠ ':')).map Char.toLower, rest.takeWhile (· ≠ '/'), rest.dropWhile (· ≠ '/')⟩

/-- ASCII, lines with one cookie and plain URLs. -/
def plainWeb : WebLib where
  toStdlib := { asciiStdlib with load := loadOne }
  isSpace c := c = ' '
  lower_ascii _ _ := rfl
  urlsplit url := .ok (splitPlain url)
  urljoin base location :=
    .ok (if ['/'] <+: location then
      (splitPlain base).scheme ++ "://".toList ++ (splitPlain base).netloc ++ location
    else location)
  reasonPhrases _ := []

/-- A login that sets its cookie for two paths. -/
def twoPathsResponse : EngineResponse where
  statusCode := 200
  headers := PyDict.set .empty "Set-Cookie".toList ["sid=1; Path=/".toList, "sid=2; Path=/app".toList]
  content := []
  url := none
  cookies := PyDict.set .empty "sid".toList ['2']
  reason := "OK".toList
  usedProtocol := none

/-- The response is lost: `CookieConflictError`. -/
theorem two_paths_raise :
    ¬ ∀ (lib : WebLib) (request : PreparedRequest) (native : EngineResponse),
      ∃ response, adapterResponse lib request native = .ok response := by
  intro hreturns
  obtain ⟨response, hresponse⟩ :=
    hreturns plainWeb { method := "GET".toList, url := "https://example.com/login".toList } twoPathsResponse
  have hraised : adapterResponse plainWeb
      { method := "GET".toList, url := "https://example.com/login".toList } twoPathsResponse =
        .error (.cookieConflict ⟨"sid".toList⟩) := by
    rfl
  rw [hraised] at hresponse
  contradiction

end TlsClient.Compat
