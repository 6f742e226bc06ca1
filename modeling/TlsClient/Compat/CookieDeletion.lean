import TlsClient.Compat.SessionCalls

/-!
# Deleting a cookie of a session

A server deletes a cookie with a `Set-Cookie` line whose `Max-Age` is not positive or whose `Expires` lies in the
past. `extract_cookies` of `src/tls_client/cookies.py` looks at neither: it stores the cookie of such a line like
any other, and `update` of the session's jar only adds. So a key that once is in the jar of a session stays there
(`mem_keys_sessionJar`), and `deletion_forgets_iff` says in which runs a deleted cookie is gone.
-/

namespace TlsClient.Compat

open TlsClient.Python WhileLoop

/-! ## Lines that delete a cookie -/

/-- The attributes of a `Set-Cookie` line, the names in lower case. -/
def lineAttributes (lib : WebLib) (line : Text) : List (Text × Text) :=
  (line.splitOn ';').tail.map fun part =>
    (lib.lower (strip lib.isSpace (partition '=' part).1), strip lib.isSpace (partition '=' part).2)

/-- The last value of an attribute counts. -/
def attributeValue (lib : WebLib) (line name : Text) : Option Text :=
  (KeyedList.last Prod.fst name (lineAttributes lib line)).map Prod.snd

/-- The name, domain and path of the cookie that a line is about. -/
def lineKey (lib : WebLib) (host line : Text) : CookieKey :=
  RequestsCookieJar.key lib.toStdlib (strip lib.isSpace (partition '=' (line.takeWhile (· ≠ ';'))).1)
    (textOr ((attributeValue lib line "domain".toList).getD []) host) ((attributeValue lib line "path".toList).getD [])

/-- A negative number, or zero. -/
def isNonPositive (seconds : Text) : Bool :=
  match seconds with
  | '-' :: digits => digits ≠ [] && digits.all Char.isDigit
  | digits => digits ≠ [] && digits.all (· = '0')

/-- The line deletes its cookie; `past` are the dates that have passed. -/
def DeletingLine (lib : WebLib) (past : Text → Prop) (line : Text) : Prop :=
  (∃ seconds, attributeValue lib line "max-age".toList = some seconds ∧ isNonPositive seconds) ∨
    ∃ date, attributeValue lib line "expires".toList = some date ∧ past date

/-- A line of the response that is about the key meets the condition. -/
def HasLine (lib : WebLib) (exchange : Exchange) (key : CookieKey) (P : Text → Prop) : Prop :=
  ∃ parsed, lib.urlsplit (exchange.2.finalUrl exchange.1) = .ok parsed ∧
    ∃ line ∈ setCookieValues lib.toStdlib exchange.2.headers,
      lineKey lib ((parsed.toSplitUrl lib.toStdlib).host lib.toStdlib) line = key ∧ P line

/-! ## What stays in the jar -/

/-- The response is not lost, and has a cookie of the key that `SimpleCookie` parses or only the engine does. -/
def Stores (lib : WebLib) (exchange : Exchange) (key : CookieKey) : Prop :=
  ∃ parsed, lib.urlsplit (exchange.2.finalUrl exchange.1) = .ok parsed ∧
    (∀ name ∈ exchange.2.cookies.keys, ¬ Ambiguous lib exchange.2 parsed name) ∧
    ((∃ cookie ∈ parsedCookies lib.toStdlib exchange.2.headers,
      morselKey lib.toStdlib ((parsed.toSplitUrl lib.toStdlib).host lib.toStdlib) cookie = key) ∨
    ∃ name ∈ exchange.2.cookies.keys, engineKey lib.toStdlib name = key ∧
      ∀ cookie ∈ parsedCookies lib.toStdlib exchange.2.headers, cookie.1 ≠ name)

section Stores

variable {lib : WebLib} {exchange : Exchange} {key : CookieKey}

/-- When a response has a cookie of the key. -/
theorem exists_response_iff_stores :
    (∃ response, adapterResponse lib exchange.1 exchange.2 = .ok response ∧ key ∈ response.cookies.keys) ↔
      Stores lib exchange key := by
  have hreturns := @exists_adapterResponse_iff lib exchange.1 exchange.2 fun cookies => key ∈ cookies.keys
  rw [hreturns]
  refine exists_congr fun parsed => and_congr_right fun _ => ?_
  rw [← responseCookies_ok_iff]
  constructor
  · rintro ⟨cookies, hok, hkey⟩
    exact ⟨⟨cookies, hok⟩, (mem_keys_responseCookies hok key).mp hkey⟩
  · rintro ⟨⟨cookies, hok⟩, hkey⟩
    exact ⟨cookies, hok, (mem_keys_responseCookies hok key).mpr hkey⟩

/-- An exchange only adds to the jar. -/
theorem mem_keys_receiveCookies (cookies : RequestsCookieJar) :
    key ∈ (receiveCookies lib cookies exchange).keys ↔ key ∈ cookies.keys ∨ Stores lib exchange key := by
  rw [← exists_response_iff_stores, receiveCookies]
  cases adapterResponse lib exchange.1 exchange.2 with
  | error err => simp
  | ok response =>
    refine (PyDict.mem_keys_setAll cookies response.cookies.items key).trans (or_congr_right ?_)
    constructor
    · exact fun hkey => ⟨response, rfl, hkey⟩
    · rintro ⟨response', heq, hkey⟩
      rw [Except.ok.inj heq]
      exact hkey

/-- The keys after several exchanges. -/
theorem mem_keys_exec (cookies : RequestsCookieJar) (exchanges : List Exchange) :
    key ∈ (Run.exec (receiveCookies lib) cookies exchanges).keys ↔
      key ∈ cookies.keys ∨ ∃ exchange ∈ exchanges, Stores lib exchange key := by
  induction exchanges generalizing cookies with
  | nil => simp
  | cons exchange exchanges ih =>
    rw [Run.exec_cons, ih, mem_keys_receiveCookies, List.exists_mem_cons_iff, or_assoc]

/-- The jar of a session has the keys it had before, and those of the responses. -/
theorem mem_keys_sessionJar (cookies : RequestsCookieJar) (calls : List SessionCall) :
    key ∈ (sessionJar lib cookies calls).keys ↔
      key ∈ cookies.keys ∨ ∃ exchange ∈ sessionExchanges lib cookies calls, Stores lib exchange key := by
  rw [sessionJar_eq, mem_keys_exec]

end Stores

/-! ## Deleted cookies -/

/-- Some exchange of the run deletes the cookie, and none after it sets it again. -/
def LastDeleted (lib : WebLib) (past : Text → Prop) (exchanges : List Exchange) (key : CookieKey) : Prop :=
  ∃ before exchange later, exchanges = before ++ exchange :: later ∧ HasLine lib exchange key (DeletingLine lib past) ∧
    ∀ other ∈ later, ¬ HasLine lib other key fun line => ¬ DeletingLine lib past line

/-- The jar has no cookie of the key, and none is sent. -/
def Forgotten (lib : WebLib) (cookies : RequestsCookieJar) (key : CookieKey) : Prop :=
  key ∉ cookies.keys ∧ ∀ parsed, ∀ item ∈ sentCookies lib.toStdlib cookies parsed, item.1 ≠ key

/-- A cookie is forgotten exactly if its key is not in the jar. -/
theorem forgotten_iff {lib : WebLib} {cookies : RequestsCookieJar} {key : CookieKey} :
    Forgotten lib cookies key ↔ key ∉ cookies.keys := by
  refine and_iff_left_of_imp fun hkey parsed item hitem heq => hkey ?_
  rw [← heq]
  exact PyDict.mem_keys_of_mem (sentTo_of_mem_sentCookies.mp hitem).1

/-- After some calls of `Session.send` a deleted cookie is gone. -/
def Forgets (lib : WebLib) (past : Text → Prop) (cookies : RequestsCookieJar) (calls : List SessionCall)
    (key : CookieKey) : Prop :=
  LastDeleted lib past (sessionExchanges lib cookies calls) key → Forgotten lib (sessionJar lib cookies calls) key

/-- A deleted cookie is gone exactly if the session never had one of its key: not before the calls, and not from any
of the responses. -/
theorem deletion_forgets_iff (lib : WebLib) (past : Text → Prop) (cookies : RequestsCookieJar)
    (calls : List SessionCall) (key : CookieKey) :
    Forgets lib past cookies calls key ↔
      ¬ LastDeleted lib past (sessionExchanges lib cookies calls) key ∨
        key ∉ cookies.keys ∧ ∀ exchange ∈ sessionExchanges lib cookies calls, ¬ Stores lib exchange key := by
  rw [Forgets, forgotten_iff, mem_keys_sessionJar, imp_iff_not_or]
  push Not
  rfl

/-! ## A logout -/

def logoutResponse : EngineResponse where
  statusCode := 200
  headers := PyDict.set .empty "Set-Cookie".toList ["sid=; Max-Age=0".toList]
  content := []
  url := none
  cookies := .empty
  reason := []
  usedProtocol := none

def logoutCall : SessionCall where
  request := { method := "GET".toList, url := "https://example.test/logout".toList }
  engine _ _ := .ok logoutResponse

/-- The cookie stays in the jar. -/
theorem logout_keeps_cookie :
    ¬ ∀ (lib : WebLib) (past : Text → Prop) (cookies : RequestsCookieJar) (calls : List SessionCall) (key : CookieKey),
      Forgets lib past cookies calls key := by
  intro hforgets
  let cookies := RequestsCookieJar.set asciiStdlib .empty "sid".toList (some "abc".toList) "example.test".toList
  have h := hforgets plainWeb (fun _ => False) cookies [logoutCall] ⟨"example.test".toList, ['/'], "sid".toList⟩
  have hexchanges : sessionExchanges plainWeb cookies [logoutCall] = [(logoutCall.request, logoutResponse)] := by
    have houtcome : logoutCall.outcome plainWeb cookies = _ := run_of_done rfl
    rw [sessionExchanges, houtcome]
    rfl
  have hdeletes : HasLine plainWeb (logoutCall.request, logoutResponse) ⟨"example.test".toList, ['/'], "sid".toList⟩
      (DeletingLine plainWeb fun _ => False) :=
    ⟨_, rfl, "sid=; Max-Age=0".toList, by decide, by decide, .inl ⟨['0'], by decide, by decide⟩⟩
  rw [Forgets, hexchanges] at h
  have hkey := forgotten_iff.mp (h ⟨[], _, [], rfl, hdeletes, fun _ hother => absurd hother List.not_mem_nil⟩)
  rw [mem_keys_sessionJar] at hkey
  exact hkey (.inl (by decide))

end TlsClient.Compat
