import TlsClient.Python.Dict
import Mathlib.Data.List.Infix

/-!
# The cookies of a Requests-style session

Embeds `src/tls_client/cookies.py`, the cookie half of `TLSClientAdapter.send` and the loop of
`Session.send` of `src/tls_client/requests_compat.py`. A text is its characters and a URL is its
`urlsplit`; `SimpleCookie.load` is a parameter, about which nothing is assumed.

A response from a host may set cookies for that host and for the hosts that match a `Domain` attribute
which the host itself matches. `Confined` says that the cookies a response adds are sent nowhere else. The
jar takes every `Domain` attribute as it is, and a cookie that only the engine parsed gets no domain at
all, with which it is sent to every host.
-/

namespace TlsClient.Compat

open TlsClient.Python

abbrev Text := List Char

/-- `Morsel`: its value with two of its attributes, empty where they are missing. -/
structure Morsel where
  value : Text
  domain : Text := []
  path : Text := []
deriving DecidableEq

/-- What the jar uses of the standard library. -/
structure Stdlib where
  /-- `str.lower` -/
  lower : Text → Text
  /-- the characters that are no capitals -/
  isLower : Char → Bool
  lower_eq_self_iff : ∀ s, lower s = s ↔ ∀ c ∈ s, isLower c
  lower_lower : ∀ s, lower (lower s) = lower s
  isLower_dot : isLower '.'
  isLower_x : isLower 'x'
  /-- the items of a `SimpleCookie` after `load`, nothing where that raises -/
  load : Text → Option (PyDict Text Morsel)

/-- `urlsplit(url)`. -/
structure SplitUrl where
  hostname : Option Text
  path : Text
deriving DecidableEq

structure CookieKey where
  domain : Text
  path : Text
  name : Text
deriving DecidableEq

/-- `RequestsCookieJar._cookies`. -/
abbrev RequestsCookieJar := PyDict CookieKey Text

/-- `CookieConflictError`. -/
structure CookieConflictError where
  name : Text
deriving DecidableEq

/-- `s or default`. -/
def textOr (s default : Text) : Text :=
  if s = [] then default else s

/-- `(parsed.hostname or "").lower()`. -/
def SplitUrl.host (lib : Stdlib) (parsed : SplitUrl) : Text :=
  lib.lower (parsed.hostname.getD [])

namespace RequestsCookieJar

/-- The key `set` makes. -/
def key (lib : Stdlib) (name domain path : Text) : CookieKey :=
  ⟨lib.lower domain, textOr path ['/'], name⟩

/-- `set`; no value removes the cookie. -/
def set (lib : Stdlib) (jar : RequestsCookieJar) (name : Text) (value : Option Text)
    (domain path : Text := []) : RequestsCookieJar :=
  match value with
  | none => jar.pop (key lib name domain path)
  | some value => PyDict.set jar (key lib name domain path) value

/-- The values of the cookies of a name. -/
def values (jar : RequestsCookieJar) (name : Text) : List Text :=
  (jar.items.filter fun item => item.1.name = name).map Prod.snd

/-- `get`. -/
def get (jar : RequestsCookieJar) (name : Text) : Except CookieConflictError (Option Text) :=
  match jar.values name with
  | [] => .ok none
  | value :: others => if others.any (· ≠ value) then .error ⟨name⟩ else .ok (some value)

end RequestsCookieJar

/-- `domain.lstrip(".")`. -/
def bareDomain (domain : Text) : Text :=
  domain.dropWhile (· = '.')

/-- `host` is `domain` or lies below it. -/
def DomainMatches (host domain : Text) : Prop :=
  host = domain ∨ '.' :: domain <:+ host

instance (host domain : Text) : Decidable (DomainMatches host domain) :=
  inferInstanceAs (Decidable (_ ∨ _))

/-- The two tests of `cookie_header`. -/
def CookieKey.SentTo (key : CookieKey) (host path : Text) : Prop :=
  (key.domain ≠ [] → DomainMatches host (bareDomain key.domain)) ∧ key.path <+: path

instance (key : CookieKey) (host path : Text) : Decidable (key.SentTo host path) :=
  inferInstanceAs (Decidable (_ ∧ _))

/-- The cookies that `cookie_header` takes. -/
def sentCookies (lib : Stdlib) (jar : RequestsCookieJar) (parsed : SplitUrl) : List (CookieKey × Text) :=
  jar.items.filter fun item => item.1.SentTo (parsed.host lib) (textOr parsed.path ['/'])

/-- `cookie_header`. -/
def cookieHeader (lib : Stdlib) (jar : RequestsCookieJar) (parsed : SplitUrl) : Text :=
  [';', ' '].intercalate ((sentCookies lib jar parsed).map fun item => item.1.name ++ '=' :: item.2)

/-! ## A response -/

/-- What the native session returns. -/
structure NativeResponse where
  url : SplitUrl
  statusCode : ℕ
  headers : PyDict Text (List Text)
  /-- the cookies the engine parsed -/
  cookies : PyDict Text Text

/-- The values under the first name that is `Set-Cookie`. -/
def setCookieValues (lib : Stdlib) (headers : PyDict Text (List Text)) : List Text :=
  ((headers.items.find? fun item => lib.lower item.1 = "set-cookie".toList).map Prod.snd).getD []

/-- The names and morsels of the values that can be parsed. -/
def parsedCookies (lib : Stdlib) (headers : PyDict Text (List Text)) : List (Text × Morsel) :=
  (setCookieValues lib headers).flatMap fun value => ((lib.load value).map PyDict.items).getD []

/-- The key under which `extract_cookies` stores a morsel. -/
def morselKey (lib : Stdlib) (host : Text) (cookie : Text × Morsel) : CookieKey :=
  RequestsCookieJar.key lib cookie.1 (textOr cookie.2.domain host) (textOr cookie.2.path ['/'])

/-- `extract_cookies`. -/
def extractCookies (lib : Stdlib) (headers : PyDict Text (List Text)) (parsed : SplitUrl) :
    RequestsCookieJar :=
  (parsedCookies lib headers).foldl
    (fun jar cookie => RequestsCookieJar.set lib jar cookie.1 (some cookie.2.value)
      (textOr cookie.2.domain (parsed.host lib)) (textOr cookie.2.path ['/']))
    PyDict.empty

/-- The loop of `TLSClientAdapter.send` over the cookies that the engine parsed. -/
def addEngineCookies (lib : Stdlib) (jar : RequestsCookieJar) :
    List (Text × Text) → Except CookieConflictError RequestsCookieJar
  | [] => .ok jar
  | (name, value) :: rest =>
    match RequestsCookieJar.get jar name with
    | .error err => .error err
    | .ok (some _) => addEngineCookies lib jar rest
    | .ok none => addEngineCookies lib (RequestsCookieJar.set lib jar name (some value)) rest

/-- `response.cookies` of `TLSClientAdapter.send`. -/
def responseCookies (lib : Stdlib) (native : NativeResponse) :
    Except CookieConflictError RequestsCookieJar :=
  addEngineCookies lib (extractCookies lib native.headers native.url) native.cookies.items

/-! ## A session -/

/-- `Response.is_redirect`. -/
def NativeResponse.isRedirect (lib : Stdlib) (native : NativeResponse) : Bool :=
  (native.headers.items.any fun item => lib.lower item.1 = "location".toList) &&
    [301, 302, 303, 307, 308].contains native.statusCode

/-- How `Session.send` ends. -/
inductive SendResult where
  | returned
  | tooManyRedirects
  | cookieConflict
  /-- the engine raised -/
  | raised
deriving DecidableEq

/-- The loop of `Session.send`, with the responses the engine returns; `history` counts the redirects so
far. -/
def sendLoop (lib : Stdlib) (allowRedirects : Bool) (maxRedirects : ℕ) :
    ℕ → RequestsCookieJar → List NativeResponse → SendResult × RequestsCookieJar
  | _, jar, [] => (.raised, jar)
  | history, jar, native :: rest =>
    match responseCookies lib native with
    | .error _ => (.cookieConflict, jar)
    | .ok cookies =>
      if !native.isRedirect lib || !allowRedirects then (.returned, jar.update cookies)
      else if history + 1 > maxRedirects then (.tooManyRedirects, jar.update cookies)
      else sendLoop lib allowRedirects maxRedirects (history + 1) (jar.update cookies) rest

/-! ## What a response may do -/

/-- A `Domain` attribute of the response that its host matches gives the cookie its domain. -/
def Grants (lib : Stdlib) (native : NativeResponse) (key : CookieKey) : Prop :=
  ∃ cookie ∈ parsedCookies lib native.headers,
    cookie.2.domain ≠ [] ∧ morselKey lib (native.url.host lib) cookie = key ∧
      bareDomain key.domain ≠ [] ∧ DomainMatches (native.url.host lib) (bareDomain key.domain)

/-- The response may set the cookie for a host. With `below` it may also set it for the hosts below its
own without naming a domain. -/
def Permitted (lib : Stdlib) (below : Bool) (native : NativeResponse) (key : CookieKey) (host : Text) :
    Prop :=
  host = native.url.host lib ∨ below = true ∧ DomainMatches host (native.url.host lib) ∨
    Grants lib native key ∧ DomainMatches host (bareDomain key.domain)

/-- The cookies that the response adds are sent to hosts it may set them for only, from any jar that has
them, and so are those that they take the place of. -/
def Confined (lib : Stdlib) (below : Bool) (jar : RequestsCookieJar) (native : NativeResponse) : Prop :=
  ∀ cookies, responseCookies lib native = .ok cookies →
    (∀ item ∈ cookies.items, ∀ later : RequestsCookieJar, item ∈ later.items → ∀ parsed,
      item ∈ sentCookies lib later parsed → Permitted lib below native item.1 (parsed.host lib)) ∧
    ∀ item ∈ jar.items, item.1 ∈ cookies.keys → ∀ parsed,
      item ∈ sentCookies lib jar parsed → Permitted lib below native item.1 (parsed.host lib)

/-! ## The jar of a response -/

section ResponseCookies

variable {lib : Stdlib}

theorem mem_values {jar : RequestsCookieJar} {name value : Text} :
    value ∈ RequestsCookieJar.values jar name ↔ ∃ item ∈ jar.items, item.1.name = name ∧ item.2 = value := by
  simp only [RequestsCookieJar.values, List.mem_map, List.mem_filter, decide_eq_true_eq, and_assoc]

/-- Two cookies of the name have different values. -/
def Conflicts (jar : RequestsCookieJar) (name : Text) : Prop :=
  ∃ item ∈ jar.items, ∃ other ∈ jar.items,
    item.1.name = name ∧ other.1.name = name ∧ item.2 ≠ other.2

/-- `get` raises, finds a value, or finds no cookie of the name. -/
theorem get_cases (jar : RequestsCookieJar) (name : Text) :
    Conflicts jar name ∧ RequestsCookieJar.get jar name = .error ⟨name⟩ ∨
      (∃ value, RequestsCookieJar.get jar name = .ok (some value)) ∧ ¬ Conflicts jar name ∧
        (∃ item ∈ jar.items, item.1.name = name) ∨
      RequestsCookieJar.get jar name = .ok none ∧ ¬ Conflicts jar name ∧
        ∀ item ∈ jar.items, item.1.name ≠ name := by
  have hvalues : ∀ item ∈ jar.items, item.1.name = name → item.2 ∈ RequestsCookieJar.values jar name :=
    fun item hitem hname => mem_values.mpr ⟨item, hitem, hname, rfl⟩
  rw [RequestsCookieJar.get]
  cases hfound : RequestsCookieJar.values jar name with
  | nil =>
    have hnone : ∀ item ∈ jar.items, item.1.name ≠ name := by
      intro item hitem hname
      have hmem := hvalues item hitem hname
      rw [hfound] at hmem
      exact absurd hmem List.not_mem_nil
    refine .inr (.inr ⟨rfl, ?_, hnone⟩)
    rintro ⟨item, hitem, -, -, hname, -⟩
    exact hnone item hitem hname
  | cons value others =>
    obtain ⟨first, hfirst, hname, hvalue⟩ := mem_values.mp (hfound ▸ List.mem_cons_self)
    -- one value that differs from the first is what makes `get` raise
    by_cases hany : others.any (· ≠ value)
    · refine .inl ⟨?_, if_pos hany⟩
      obtain ⟨other, hother, hne⟩ := List.any_eq_true.mp hany
      obtain ⟨item, hitem, hiname, rfl⟩ := mem_values.mp (hfound ▸ List.mem_cons_of_mem _ hother)
      exact ⟨item, hitem, first, hfirst, hiname, hname, hvalue ▸ of_decide_eq_true hne⟩
    · refine .inr (.inl ⟨⟨value, if_neg hany⟩, ?_, first, hfirst, hname⟩)
      have hall : ∀ item ∈ jar.items, item.1.name = name → item.2 = value := by
        intro item hitem hiname
        have hmem := hvalues item hitem hiname
        rw [hfound, List.mem_cons] at hmem
        rcases hmem with heq | hmem
        · exact heq
        · by_contra hne
          exact hany (List.any_eq_true.mpr ⟨item.2, hmem, decide_eq_true hne⟩)
      rintro ⟨item, hitem, other, hother, hiname, honame, hne⟩
      exact hne ((hall item hitem hiname).trans (hall other hother honame).symm)

/-- The cookies of a response are set one after another. -/
theorem extractCookies_eq (lib : Stdlib) (headers : PyDict Text (List Text)) (parsed : SplitUrl) :
    extractCookies lib headers parsed =
      PyDict.empty.setAll ((parsedCookies lib headers).map fun cookie =>
        (morselKey lib (parsed.host lib) cookie, cookie.2.value)) := by
  rw [extractCookies, PyDict.setAll, List.foldl_map]
  rfl

/-- The keys of the jar are those of the parsed cookies. -/
theorem mem_keys_extractCookies {headers : PyDict Text (List Text)} {parsed : SplitUrl} (key : CookieKey) :
    key ∈ (extractCookies lib headers parsed).keys ↔
      ∃ cookie ∈ parsedCookies lib headers, morselKey lib (parsed.host lib) cookie = key := by
  rw [extractCookies_eq, PyDict.mem_keys_setAll, List.map_map, List.mem_map]
  simp [PyDict.keys, PyDict.empty]

/-- A name is extracted exactly if it was parsed. -/
theorem exists_mem_extractCookies {headers : PyDict Text (List Text)} {parsed : SplitUrl} (name : Text) :
    (∃ item ∈ (extractCookies lib headers parsed).items, item.1.name = name) ↔
      ∃ cookie ∈ parsedCookies lib headers, cookie.1 = name := by
  constructor
  · rintro ⟨item, hitem, rfl⟩
    obtain ⟨cookie, hcookie, hkey⟩ := (mem_keys_extractCookies item.1).mp (PyDict.mem_keys_of_mem hitem)
    exact ⟨cookie, hcookie, hkey ▸ rfl⟩
  · rintro ⟨cookie, hcookie, rfl⟩
    obtain ⟨item, hitem, hkey⟩ := List.mem_map.mp ((mem_keys_extractCookies _).mpr ⟨cookie, hcookie, rfl⟩)
    exact ⟨item, hitem, hkey ▸ rfl⟩

/-- The key of a cookie that only the engine parsed. -/
def engineKey (lib : Stdlib) (name : Text) : CookieKey :=
  RequestsCookieJar.key lib name [] []

/-- A cookie that only the engine parsed has no domain. -/
theorem engineKey_domain (name : Text) : (engineKey lib name).domain = [] :=
  (lib.lower_eq_self_iff []).mpr fun _ hc => absurd hc List.not_mem_nil

/-- A new cookie of the engine's is one more. -/
theorem mem_set_engineKey {jar : RequestsCookieJar} {name value : Text}
    (hnone : ∀ item ∈ jar.items, item.1.name ≠ name) (item : CookieKey × Text) :
    item ∈ (RequestsCookieJar.set lib jar name (some value)).items ↔
      item = (engineKey lib name, value) ∨ item ∈ jar.items := by
  refine (PyDict.mem_set jar _ value item).trans (or_congr_right ⟨And.left, fun hmem => ⟨hmem, ?_⟩⟩)
  intro heq
  exact hnone item hmem (congrArg CookieKey.name heq)

/-- The engine's cookies raise exactly when a name of theirs stands for two values. -/
theorem addEngineCookies_error_iff {jar : RequestsCookieJar} {cookies : List (Text × Text)}
    (hnodup : (cookies.map Prod.fst).Nodup) :
    (∃ err, addEngineCookies lib jar cookies = .error err) ↔ ∃ cookie ∈ cookies, Conflicts jar cookie.1 := by
  induction cookies generalizing jar with
  | nil => simp [addEngineCookies]
  | cons cookie rest ih =>
    obtain ⟨name, value⟩ := cookie
    rw [List.map_cons, List.nodup_cons] at hnodup
    rw [addEngineCookies, List.exists_mem_cons_iff]
    rcases get_cases jar name with ⟨hconflict, hget⟩ | ⟨⟨found, hget⟩, hconflict, -⟩ | ⟨hget, hconflict, hnone⟩
    · rw [hget]
      exact ⟨fun _ => .inl hconflict, fun _ => ⟨_, rfl⟩⟩
    · rw [hget]
      exact (ih hnodup.2).trans ⟨.inr, fun h => h.resolve_left hconflict⟩
    · rw [hget]
      -- the new cookie has a name that the other ones do not have
      have hsame : ∀ cookie ∈ rest,
          Conflicts (RequestsCookieJar.set lib jar name (some value)) cookie.1 ↔ Conflicts jar cookie.1 := by
        intro cookie hcookie
        have hne : name ≠ cookie.1 := fun heq =>
          hnodup.1 (List.mem_map.mpr ⟨cookie, hcookie, heq.symm⟩)
        have hmem : ∀ item : CookieKey × Text, item.1.name = cookie.1 →
            (item ∈ (RequestsCookieJar.set lib jar name (some value)).items ↔ item ∈ jar.items) := by
          intro item hname
          rw [mem_set_engineKey hnone]
          refine ⟨fun h => h.resolve_left fun heq => hne ?_, .inr⟩
          exact (congrArg (fun item => item.1.name) heq).symm.trans hname
        constructor
        · rintro ⟨item, hitem, other, hother, hiname, honame, hvalues⟩
          exact ⟨item, (hmem item hiname).mp hitem, other, (hmem other honame).mp hother, hiname, honame,
            hvalues⟩
        · rintro ⟨item, hitem, other, hother, hiname, honame, hvalues⟩
          exact ⟨item, (hmem item hiname).mpr hitem, other, (hmem other honame).mpr hother, hiname, honame,
            hvalues⟩
      rw [ih hnodup.2]
      constructor
      · rintro ⟨cookie, hcookie, h⟩
        exact .inr ⟨cookie, hcookie, (hsame cookie hcookie).mp h⟩
      · rintro (h | ⟨cookie, hcookie, h⟩)
        · exact absurd h hconflict
        · exact ⟨cookie, hcookie, (hsame cookie hcookie).mpr h⟩

/-- They add a cookie without a domain for each name that the jar does not have. -/
theorem mem_addEngineCookies {jar jar' : RequestsCookieJar} {cookies : List (Text × Text)}
    (hnodup : (cookies.map Prod.fst).Nodup) (hok : addEngineCookies lib jar cookies = .ok jar')
    (item : CookieKey × Text) :
    item ∈ jar'.items ↔ item ∈ jar.items ∨ ∃ cookie ∈ cookies,
      item = (engineKey lib cookie.1, cookie.2) ∧ ∀ old ∈ jar.items, old.1.name ≠ cookie.1 := by
  induction cookies generalizing jar with
  | nil =>
    rw [addEngineCookies, Except.ok.injEq] at hok
    simp [hok]
  | cons cookie rest ih =>
    obtain ⟨name, value⟩ := cookie
    rw [List.map_cons, List.nodup_cons] at hnodup
    rw [addEngineCookies] at hok
    rw [List.exists_mem_cons_iff]
    rcases get_cases jar name with ⟨-, hget⟩ | ⟨⟨found, hget⟩, -, old, hold, hname⟩ | ⟨hget, -, hnone⟩
    · rw [hget] at hok
      contradiction
    · rw [hget] at hok
      rw [ih hnodup.2 hok]
      -- the jar has the name, so this cookie is not added
      refine or_congr_right ⟨.inr, fun h => h.resolve_left ?_⟩
      rintro ⟨-, hnone⟩
      exact hnone old hold hname
    · rw [hget] at hok
      rw [ih hnodup.2 hok, mem_set_engineKey hnone]
      have hnew : ∀ cookie ∈ rest,
          (∀ old ∈ (RequestsCookieJar.set lib jar name (some value)).items, old.1.name ≠ cookie.1) ↔
            ∀ old ∈ jar.items, old.1.name ≠ cookie.1 := by
        intro cookie hcookie
        -- the cookie that was added has another name, as the engine's cookies have distinct names
        have hne : name ≠ cookie.1 := fun heq =>
          hnodup.1 (List.mem_map.mpr ⟨cookie, hcookie, heq.symm⟩)
        constructor
        · exact fun h old hold => h old ((mem_set_engineKey hnone old).mpr (.inr hold))
        · intro h old hold
          rcases (mem_set_engineKey hnone old).mp hold with rfl | hold
          · exact hne
          · exact h old hold
      constructor
      · rintro ((rfl | hitem) | ⟨cookie, hcookie, rfl, h⟩)
        · exact .inr (.inl ⟨rfl, hnone⟩)
        · exact .inl hitem
        · exact .inr (.inr ⟨cookie, hcookie, rfl, (hnew cookie hcookie).mp h⟩)
      · rintro (hitem | ⟨rfl, -⟩ | ⟨cookie, hcookie, rfl, h⟩)
        · exact .inl (.inr hitem)
        · exact .inl (.inl rfl)
        · exact .inr ⟨cookie, hcookie, rfl, (hnew cookie hcookie).mpr h⟩

/-- The engine's cookies make it raise exactly if one of their names stands for two values. -/
theorem responseCookies_error_iff {native : NativeResponse} :
    (∃ err, responseCookies lib native = .error err) ↔
      ∃ name ∈ native.cookies.keys, Conflicts (extractCookies lib native.headers native.url) name := by
  rw [responseCookies, addEngineCookies_error_iff native.cookies.nodup]
  simp only [PyDict.keys, List.mem_map, exists_exists_and_eq_and]

/-- The keys of the response's jar: those of the parsed cookies, and the domainless ones of the names that only the
engine parsed. -/
theorem mem_keys_responseCookies {native : NativeResponse} {cookies : RequestsCookieJar}
    (hok : responseCookies lib native = .ok cookies) (key : CookieKey) :
    key ∈ cookies.keys ↔
      (∃ cookie ∈ parsedCookies lib native.headers, morselKey lib (native.url.host lib) cookie = key) ∨
      ∃ name ∈ native.cookies.keys, engineKey lib name = key ∧
        ∀ cookie ∈ parsedCookies lib native.headers, cookie.1 ≠ name := by
  have hmem := mem_addEngineCookies native.cookies.nodup hok
  -- the engine's cookies are added for names no `Set-Cookie` line has
  have hnone : ∀ name, (∀ old ∈ (extractCookies lib native.headers native.url).items, old.1.name ≠ name) ↔
      ∀ cookie ∈ parsedCookies lib native.headers, cookie.1 ≠ name := by
    intro name
    have hexists := not_congr (@exists_mem_extractCookies lib native.headers native.url name)
    push Not at hexists
    exact hexists
  rw [← mem_keys_extractCookies]
  constructor
  · intro hkey
    obtain ⟨item, hitem, rfl⟩ := List.mem_map.mp hkey
    rcases (hmem item).mp hitem with hitem | ⟨cookie, hcookie, rfl, hnew⟩
    · exact .inl (PyDict.mem_keys_of_mem hitem)
    · exact .inr ⟨cookie.1, List.mem_map_of_mem hcookie, rfl, (hnone cookie.1).mp hnew⟩
  · rintro (hkey | ⟨name, hname, rfl, hnew⟩)
    · obtain ⟨item, hitem, rfl⟩ := List.mem_map.mp hkey
      exact PyDict.mem_keys_of_mem ((hmem item).mpr (.inl hitem))
    · obtain ⟨cookie, hcookie, rfl⟩ := List.mem_map.mp hname
      have hadded := (hmem (engineKey lib cookie.1, cookie.2)).mpr
        (.inr ⟨cookie, hcookie, rfl, (hnone cookie.1).mpr hnew⟩)
      exact PyDict.mem_keys_of_mem hadded

end ResponseCookies

/-! ## Where a cookie is sent -/

section Sent

variable {lib : Stdlib}

/-- A host matches the parents of its domain. -/
theorem DomainMatches.trans {host domain parent : Text} (hhost : DomainMatches host domain)
    (hdomain : DomainMatches domain parent) : DomainMatches host parent := by
  rcases hhost with rfl | hhost
  · exact hdomain
  · rcases hdomain with rfl | hdomain
    · exact .inr hhost
    · exact .inr (hdomain.trans ((List.suffix_cons '.' domain).trans hhost))

/-- The end of a text in lower case is in lower case. -/
theorem lower_of_suffix {s t : Text} (hs : lib.lower s = s) (hsuffix : t <:+ s) : lib.lower t = t :=
  (lib.lower_eq_self_iff t).mpr fun c hc => (lib.lower_eq_self_iff s).mp hs c (hsuffix.subset hc)

/-- A text in lower case with one more such character. -/
theorem lower_cons {c : Char} {s : Text} (hc : lib.isLower c) (hs : lib.lower s = s) :
    lib.lower (c :: s) = c :: s := by
  refine (lib.lower_eq_self_iff _).mpr fun d hd => ?_
  rcases List.mem_cons.mp hd with rfl | hd
  · exact hc
  · exact (lib.lower_eq_self_iff s).mp hs d hd

theorem lower_host (parsed : SplitUrl) : lib.lower (parsed.host lib) = parsed.host lib :=
  lib.lower_lower _

/-- A host in lower case is the host of a URL, whatever its path is. -/
theorem host_mk {host : Text} (hhost : lib.lower host = host) (path : Text) :
    SplitUrl.host lib ⟨some host, path⟩ = host := hhost

/-- The key may stay in a jar: its domain is one the response may name. With `below` it may be the domain
of the response's host, or lie below it. -/
def KeyOk (lib : Stdlib) (below : Bool) (native : NativeResponse) (key : CookieKey) : Prop :=
  Grants lib native key ∨
    below = true ∧ key.domain ≠ [] ∧ DomainMatches (bareDomain key.domain) (native.url.host lib)

/-- A cookie is sent to the hosts that the response may set it for only, exactly when its key may stay. -/
theorem forall_sentTo_iff {below : Bool} {native : NativeResponse} {key : CookieKey}
    (hdomain : lib.lower key.domain = key.domain) (hpath : key.path ≠ []) :
    (∀ parsed : SplitUrl, key.SentTo (parsed.host lib) (textOr parsed.path ['/']) →
      Permitted lib below native key (parsed.host lib)) ↔ KeyOk lib below native key := by
  have hbare : lib.lower (bareDomain key.domain) = bareDomain key.domain :=
    lower_of_suffix hdomain (List.dropWhile_suffix _)
  have hsent : ∀ host, lib.lower host = host →
      (key.domain ≠ [] → DomainMatches host (bareDomain key.domain)) →
      (∀ parsed : SplitUrl, key.SentTo (parsed.host lib) (textOr parsed.path ['/']) →
        Permitted lib below native key (parsed.host lib)) → Permitted lib below native key host := by
    intro host hhost hmatches hall
    have h := hall ⟨some host, key.path⟩
    rw [host_mk hhost, textOr, if_neg hpath] at h
    exact h ⟨hmatches, List.prefix_rfl⟩
  constructor
  · intro hall
    by_contra hnot
    rw [KeyOk, not_or] at hnot
    obtain ⟨hgrants, hnot⟩ := hnot
    -- without a grant, only the host of the response and those below it are left
    have hown : ∀ host, Permitted lib below native key host → host = native.url.host lib ∨
        below = true ∧ DomainMatches host (native.url.host lib) := by
      rintro host (heq | hbelow | ⟨h, -⟩)
      · exact .inl heq
      · exact .inr hbelow
      · exact absurd h hgrants
    by_cases hempty : key.domain = []
    · -- a cookie without a domain is sent to every host
      have hx := hown _ (hsent ('x' :: native.url.host lib) (lower_cons lib.isLower_x (lower_host _))
        (fun hne => absurd hempty hne) hall)
      have hne : 'x' :: native.url.host lib ≠ native.url.host lib := List.cons_ne_self _ _
      rcases hx with heq | ⟨-, heq | hsuffix⟩
      · exact hne heq
      · exact hne heq
      · have heq := hsuffix.eq_of_length rfl
        exact absurd (List.cons.inj heq).1 (by decide)
    · cases below with
      | true =>
        rcases hown _ (hsent _ hbare (fun _ => .inl rfl) hall) with heq | ⟨-, hmatches⟩
        · exact hnot ⟨rfl, hempty, .inl heq⟩
        · exact hnot ⟨rfl, hempty, hmatches⟩
      | false =>
        -- two hosts below the domain are not both the host of the response
        have hdot : lib.lower ('.' :: bareDomain key.domain) = '.' :: bareDomain key.domain :=
          lower_cons lib.isLower_dot hbare
        have hx := lower_cons lib.isLower_x hdot
        have hone := hown _ (hsent _ hx (fun _ => .inr (List.suffix_cons _ _)) hall)
        have htwo := hown _ (hsent _ (lower_cons lib.isLower_x hx)
          (fun _ => .inr ((List.suffix_cons _ _).trans (List.suffix_cons _ _))) hall)
        have heq : 'x' :: 'x' :: '.' :: bareDomain key.domain = 'x' :: '.' :: bareDomain key.domain := by
          rcases hone with hone | ⟨hfalse, -⟩
          · rcases htwo with htwo | ⟨hfalse, -⟩
            · exact htwo.trans hone.symm
            · contradiction
          · contradiction
        exact List.cons_ne_self _ _ heq
  · rintro (hgrants | ⟨hbelow, hne, hmatches⟩) parsed ⟨hdom, -⟩
    · have hne : key.domain ≠ [] := by
        rintro hempty
        obtain ⟨-, -, -, -, hbarene, -⟩ := hgrants
        rw [hempty] at hbarene
        exact hbarene rfl
      exact .inr (.inr ⟨hgrants, hdom hne⟩)
    · exact .inr (.inl ⟨hbelow, (hdom hne).trans hmatches⟩)

/-- A cookie without a domain may never stay. -/
theorem not_keyOk_engineKey {below : Bool} {native : NativeResponse} (name : Text) :
    ¬ KeyOk lib below native (engineKey lib name) := by
  rintro (⟨-, -, -, -, hbare, -⟩ | ⟨-, hne, -⟩)
  · rw [engineKey_domain] at hbare
    exact hbare rfl
  · exact hne (engineKey_domain name)

end Sent

/-! ## Confinement -/

section Confinement

variable {lib : Stdlib}

/-- A text with a default that is not empty is not empty. -/
theorem textOr_ne_nil (s : Text) {default : Text} (hdefault : default ≠ []) : textOr s default ≠ [] := by
  rw [textOr]
  split_ifs with hs
  · exact hdefault
  · exact hs

/-- The cookies that are sent are those of the jar that go to the URL. -/
theorem sentTo_of_mem_sentCookies {jar : RequestsCookieJar} {parsed : SplitUrl} {item : CookieKey × Text} :
    item ∈ sentCookies lib jar parsed ↔
      item ∈ jar.items ∧ item.1.SentTo (parsed.host lib) (textOr parsed.path ['/']) := by
  rw [sentCookies, List.mem_filter, decide_eq_true_eq]

/-- The cookies of a response are confined as soon as their keys may stay. -/
theorem confined_iff_keyOk {below : Bool} {jar : RequestsCookieJar} {native : NativeResponse} :
    Confined lib below jar native ↔
      ∀ cookies, responseCookies lib native = .ok cookies → ∀ key ∈ cookies.keys,
        KeyOk lib below native key := by
  -- the keys made from a response are lower-cased and have a path
  have hkey : ∀ cookies, responseCookies lib native = .ok cookies → ∀ key ∈ cookies.keys,
      lib.lower key.domain = key.domain ∧ key.path ≠ [] := by
    intro cookies hok key hkey
    rcases (mem_keys_responseCookies hok key).mp hkey with ⟨cookie, -, rfl⟩ | ⟨name, -, rfl, -⟩
    · exact ⟨lib.lower_lower _, textOr_ne_nil _ (List.cons_ne_nil _ _)⟩
    · have hpath : textOr [] ['/'] ≠ [] := textOr_ne_nil [] (List.cons_ne_nil _ _)
      exact ⟨lib.lower_lower _, hpath⟩
  constructor
  · intro hconfined cookies hok key hmem
    refine (forall_sentTo_iff (hkey cookies hok key hmem).1 (hkey cookies hok key hmem).2).mp ?_
    intro parsed hsent
    obtain ⟨item, hitem, rfl⟩ := List.mem_map.mp hmem
    exact (hconfined cookies hok).1 item hitem cookies hitem parsed
      (sentTo_of_mem_sentCookies.mpr ⟨hitem, hsent⟩)
  · intro hall cookies hok
    have hpermitted : ∀ key ∈ cookies.keys, ∀ parsed : SplitUrl,
        key.SentTo (parsed.host lib) (textOr parsed.path ['/']) →
          Permitted lib below native key (parsed.host lib) := fun key hmem =>
      (forall_sentTo_iff (hkey cookies hok key hmem).1 (hkey cookies hok key hmem).2).mpr
        (hall cookies hok key hmem)
    refine ⟨fun item hitem later _ parsed hsent => ?_, fun item _ hmem parsed hsent => ?_⟩
    · exact hpermitted item.1 (PyDict.mem_keys_of_mem hitem) parsed (sentTo_of_mem_sentCookies.mp hsent).2
    · exact hpermitted item.1 hmem parsed (sentTo_of_mem_sentCookies.mp hsent).2

/-- What a response must keep to: the engine's cookies make `get` raise, or all cookies may stay and
`SimpleCookie` parsed every name that the engine did. -/
def Clean (lib : Stdlib) (below : Bool) (native : NativeResponse) : Prop :=
  (∃ name ∈ native.cookies.keys, Conflicts (extractCookies lib native.headers native.url) name) ∨
    (∀ cookie ∈ parsedCookies lib native.headers,
      KeyOk lib below native (morselKey lib (native.url.host lib) cookie)) ∧
    ∀ name ∈ native.cookies.keys, ∃ cookie ∈ parsedCookies lib native.headers, cookie.1 = name

/-- The keys of a response may all stay exactly if it is clean. -/
theorem keyOk_iff_clean {below : Bool} {native : NativeResponse} :
    (∀ cookies, responseCookies lib native = .ok cookies → ∀ key ∈ cookies.keys,
      KeyOk lib below native key) ↔ Clean lib below native := by
  rw [Clean, ← responseCookies_error_iff]
  cases hresponse : responseCookies lib native with
  -- the merge raises and the response adds nothing
  | error err =>
    refine ⟨fun _ => .inl ⟨err, rfl⟩, fun _ cookies hok => ?_⟩
    contradiction
  | ok cookies =>
    have hkeys := mem_keys_responseCookies hresponse
    constructor
    · intro hall
      have hok := hall cookies rfl
      refine .inr ⟨fun cookie hcookie => ?_, fun name hname => ?_⟩
      · exact hok _ ((hkeys _).mpr (.inl ⟨cookie, hcookie, rfl⟩))
      -- a name that only the engine parsed is added without a domain, which no host may do
      · by_contra hnone
        push Not at hnone
        exact not_keyOk_engineKey name (hok _ ((hkeys _).mpr (.inr ⟨name, hname, rfl, hnone⟩)))
    · rintro (⟨err, herr⟩ | ⟨hparsed, hnames⟩) found hfound key hkey
      · contradiction
      · obtain rfl := Except.ok.inj hfound
        rcases (hkeys key).mp hkey with ⟨cookie, hcookie, rfl⟩ | ⟨name, hname, -, hnone⟩
        · exact hparsed cookie hcookie
        · obtain ⟨cookie, hcookie, heq⟩ := hnames name hname
          exact absurd heq (hnone cookie hcookie)

/-- A cookie that `Session.send` leaves in the jar was there before, or one of the responses added it. -/
theorem mem_sendLoop {allowRedirects : Bool} {maxRedirects history : ℕ} {jar : RequestsCookieJar}
    {responses : List NativeResponse} {item : CookieKey × Text}
    (hitem : item ∈ (sendLoop lib allowRedirects maxRedirects history jar responses).2.items) :
    item ∈ jar.items ∨ ∃ native ∈ responses, ∃ cookies,
      responseCookies lib native = .ok cookies ∧ item ∈ cookies.items := by
  induction responses generalizing history jar with
  | nil => exact .inl hitem
  | cons native rest ih =>
    rw [sendLoop] at hitem
    cases hresponse : responseCookies lib native with
    | error err =>
      rw [hresponse] at hitem
      exact .inl hitem
    | ok cookies =>
      rw [hresponse] at hitem
      -- every branch that goes on has updated the jar with this response first
      have hupdate : item ∈ (jar.update cookies).items →
          item ∈ jar.items ∨ ∃ native' ∈ native :: rest, ∃ cookies,
            responseCookies lib native' = .ok cookies ∧ item ∈ cookies.items := by
        intro hitem
        rcases (PyDict.mem_update jar cookies item).mp hitem with hnew | ⟨hold, -⟩
        · exact .inr ⟨native, List.mem_cons_self, cookies, hresponse, hnew⟩
        · exact .inl hold
      dsimp only at hitem
      split_ifs at hitem
      · exact hupdate hitem
      · exact hupdate hitem
      · rcases ih hitem with hitem | ⟨native', hnative, found⟩
        · exact hupdate hitem
        · exact .inr ⟨native', List.mem_cons_of_mem _ hnative, found⟩

/-- While the responses keep to their domains, a session sends no host a cookie that it did not have before
and that no response was allowed to set for the host. -/
theorem permitted_of_mem_sendLoop {below allowRedirects : Bool} {maxRedirects history : ℕ}
    {jar : RequestsCookieJar} {responses : List NativeResponse}
    (hclean : ∀ native ∈ responses, Clean lib below native) {item : CookieKey × Text} {parsed : SplitUrl}
    (hsent : item ∈ sentCookies lib (sendLoop lib allowRedirects maxRedirects history jar responses).2 parsed)
    (hnew : item ∉ jar.items) :
    ∃ native ∈ responses, Permitted lib below native item.1 (parsed.host lib) := by
  obtain ⟨hitem, -⟩ := sentTo_of_mem_sentCookies.mp hsent
  obtain ⟨native, hnative, cookies, hok, hadded⟩ := (mem_sendLoop hitem).resolve_left hnew
  have hconfined : Confined lib below jar native :=
    confined_iff_keyOk.mpr (keyOk_iff_clean.mpr (hclean native hnative))
  exact ⟨native, hnative, (hconfined cookies hok).1 item hadded _ hitem parsed hsent⟩

end Confinement

/-! ## A foreign domain -/

instance {lib : Stdlib} {native : NativeResponse} {key : CookieKey} : Decidable (Grants lib native key) :=
  inferInstanceAs (Decidable (∃ cookie ∈ _, _))

instance {lib : Stdlib} {below : Bool} {native : NativeResponse} {key : CookieKey} :
    Decidable (KeyOk lib below native key) :=
  inferInstanceAs (Decidable (_ ∨ _))

/-- A character in lower case is left as it is. -/
theorem toLower_toLower (c : Char) : c.toLower.toLower = c.toLower := by
  by_cases hupper : c.val ≥ 'A'.val ∧ c.val ≤ 'Z'.val
  · have hlower : c.toLower = ⟨c.val + ('a'.val - 'A'.val), _⟩ := dif_pos hupper
    have hval : c.toLower.val = c.val + ('a'.val - 'A'.val) := congrArg Char.val hlower
    have hnot : ¬ (c.toLower.val ≥ 'A'.val ∧ c.toLower.val ≤ 'Z'.val) := by
      rw [hval]
      simp only [UInt32.le_iff_toNat_le, ge_iff_le] at hupper ⊢
      simp only [Char.reduceVal, UInt32.reduceToNat, UInt32.reduceSub, UInt32.toNat_add] at hupper ⊢
      omega
    exact dif_neg hnot
  · have heq : c.toLower = c := dif_neg hupper
    rw [heq, heq]

/-- ASCII, and one value of `Set-Cookie`. -/
def asciiStdlib : Stdlib where
  lower := List.map Char.toLower
  isLower c := c.toLower = c
  lower_eq_self_iff s := by
    induction s with
    | nil => simp
    | cons c s ih => simp [ih]
  lower_lower s := by
    rw [List.map_map]
    refine List.map_congr_left fun c _ => ?_
    exact toLower_toLower c
  isLower_dot := by decide
  isLower_x := by decide
  load value :=
    if value = "sid=1; Domain=bank.test".toList then
      some (PyDict.empty.set "sid".toList { value := ['1'], domain := "bank.test".toList })
    else none

end TlsClient.Compat
