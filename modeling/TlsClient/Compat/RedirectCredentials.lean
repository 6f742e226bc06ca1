import TlsClient.Compat.Redirects

/-!
# The credentials of a redirected request

`_redirect_request` of `src/tls_client/requests_compat.py` drops the `Authorization` header when the netloc of the
URL changes. Along a chain of redirects the header is thus kept while all netlocs are equal, and never comes back.
Equal netlocs have the same host and explicit port, but not the same origin: nothing is dropped when only the
scheme changes. `credentials_stay_iff` says which chains keep the credentials on the origin of the first request.
-/

namespace TlsClient.Compat

open TlsClient.Python WhileLoop

/-! ## Origins -/

/-- `port`, and the default of the scheme where the URL has none. -/
def SplitResult.effectivePort (parsed : SplitResult) : Option ℕ :=
  let port := (hostinfo parsed.netloc).2
  if port ≠ [] then
    if port.all Char.isDigit then some (port.foldl (fun n c => 10 * n + (c.toNat - 48)) 0) else none
  else if parsed.scheme = "https".toList then some 443
  else if parsed.scheme = "http".toList then some 80
  else none

structure Origin where
  scheme : Text
  host : Option Text
  port : Option ℕ
deriving DecidableEq

def SplitResult.origin (lib : Stdlib) (parsed : SplitResult) : Origin :=
  ⟨parsed.scheme, parsed.hostname lib, parsed.effectivePort⟩

/-- The origin of a URL, if it can be split. -/
def originOf (lib : WebLib) (url : Text) : Option Origin :=
  (lib.urlsplit url).toOption.map (SplitResult.origin lib.toStdlib)

/-- Among URLs of one netloc the origin is the scheme. -/
theorem origin_eq_iff {lib : Stdlib} {before after : SplitResult} (hnetloc : before.netloc = after.netloc) :
    after.origin lib = before.origin lib ↔ before.scheme = after.scheme := by
  constructor
  · exact fun h => (congrArg Origin.scheme h).symm
  · intro hscheme
    rw [SplitResult.origin, SplitResult.origin, SplitResult.hostname, SplitResult.hostname,
      SplitResult.effectivePort, SplitResult.effectivePort, hnetloc, hscheme]

/-! ## The header -/

/-- The `Authorization` header. -/
def PreparedRequest.authorization (lib : Stdlib) (request : PreparedRequest) : Option Text :=
  request.headers.getItem lib "Authorization".toList

/-- ASCII names with different lower case are different headers. -/
theorem lower_ne {lib : WebLib} {a b : Text} (ha : a.all (·.toNat < 128)) (hb : b.all (·.toNat < 128))
    (hne : a.map Char.toLower ≠ b.map Char.toLower) : lib.lower a ≠ lib.lower b := by
  rw [lib.lower_of_all ha, lib.lower_of_all hb]
  exact hne

/-- A redirect to another host takes off the credentials. -/
theorem getItem_redirectHeaders (lib : WebLib) (becomesGet otherNetloc : Bool) (headers : CaseInsensitiveDict) :
    (redirectHeaders lib.toStdlib becomesGet otherNetloc headers).getItem lib.toStdlib "Authorization".toList =
      if otherNetloc then none else headers.getItem lib.toStdlib "Authorization".toList := by
  have hlength : lib.lower "Authorization".toList ≠ lib.lower "Content-Length".toList :=
    lower_ne (by decide) (by decide) (by decide)
  have htype : lib.lower "Authorization".toList ≠ lib.lower "Content-Type".toList :=
    lower_ne (by decide) (by decide) (by decide)
  have hcookie : lib.lower "Authorization".toList ≠ lib.lower "Cookie".toList :=
    lower_ne (by decide) (by decide) (by decide)
  have hget : CaseInsensitiveDict.getItem lib.toStdlib
      (if becomesGet then
          (headers.popItem lib.toStdlib "Content-Length".toList).popItem lib.toStdlib "Content-Type".toList
        else headers) "Authorization".toList = headers.getItem lib.toStdlib "Authorization".toList := by
    split_ifs
    · rw [CaseInsensitiveDict.getItem_popItem, if_neg htype, CaseInsensitiveDict.getItem_popItem, if_neg hlength]
    · rfl
  rw [redirectHeaders, CaseInsensitiveDict.getItem_popItem, if_neg hcookie]
  cases otherNetloc with
  | true => rw [if_pos rfl, if_pos rfl, CaseInsensitiveDict.getItem_popItem, if_pos rfl]
  | false => rw [if_neg Bool.false_ne_true, if_neg Bool.false_ne_true, hget]

/-- Cookies do not change the credentials. -/
theorem authorization_prepareCookies (lib : WebLib) (request : PreparedRequest) (cookies : RequestsCookieJar)
    (parsed : SplitUrl) :
    (request.prepareCookies lib.toStdlib cookies parsed).authorization lib.toStdlib =
      request.authorization lib.toStdlib := by
  have hcookie : lib.lower "Authorization".toList ≠ lib.lower "Cookie".toList :=
    lower_ne (by decide) (by decide) (by decide)
  rw [PreparedRequest.prepareCookies, PreparedRequest.authorization, PreparedRequest.authorization]
  dsimp only
  split_ifs
  · rfl
  · exact CaseInsensitiveDict.getItem_setItem_of_ne _ _ hcookie

/-- The next request has the credentials of the one before it if the netloc stays. -/
theorem authorization_redirected (lib : WebLib) (request : PreparedRequest) (cookies : RequestsCookieJar)
    (statusCode : ℕ) (url : Text) (before after : SplitResult) :
    (request.redirected lib cookies statusCode url before after).authorization lib.toStdlib =
      if before.netloc ≠ after.netloc then none else request.authorization lib.toStdlib := by
  rw [PreparedRequest.redirected, authorization_prepareCookies, PreparedRequest.authorization,
    getItem_redirectHeaders]
  by_cases hnetloc : before.netloc ≠ after.netloc
  · rw [if_pos hnetloc, if_pos (by exact decide_eq_true hnetloc)]
  · rw [if_neg hnetloc, if_neg (by simpa using hnetloc), PreparedRequest.authorization]

/-! ## A chain of redirects -/

/-- Each request after the first one is made from the request before it and from the response to that. -/
structure Chained (lib : WebLib) (request : PreparedRequest) (requests : List PreparedRequest)
    (responses : List Response) : Prop where
  head : ∀ first, requests[0]? = some first → first = request
  link : ∀ k next, requests[k + 1]? = some next → ∃ current response cookies, requests[k]? = some current ∧
    responses[k]? = some response ∧ redirectRequest lib cookies current response = .ok next

section Chained

variable {lib : WebLib} {session : RequestsSession} {allowRedirects : Bool} {request : PreparedRequest}
  {requests requests' : List PreparedRequest} {responses responses' : List Response}

/-- The first requests of a chain are one. -/
theorem Chained.mono (hchained : Chained lib request requests responses) (hrequests : requests' <+: requests)
    (hresponses : responses <+: responses') : Chained lib request requests' responses' := by
  obtain ⟨more, rfl⟩ := hrequests
  obtain ⟨more', rfl⟩ := hresponses
  have hkept : ∀ (k : ℕ) next, requests'[k]? = some next → (requests' ++ more)[k]? = some next := by
    intro k next hnext
    rw [List.getElem?_append_left (List.getElem?_eq_some_iff.mp hnext).1, hnext]
  refine ⟨fun first hfirst => hchained.head first (hkept 0 first hfirst), fun k next hnext => ?_⟩
  obtain ⟨current, response, cookies, hcurrent, hresponse, hredirect⟩ :=
    hchained.link k next (hkept (k + 1) next hnext)
  have hk : k < requests'.length := k.lt_succ_self.trans (List.getElem?_eq_some_iff.mp hnext).1
  refine ⟨current, response, cookies, ?_, ?_, hredirect⟩
  · rw [← List.getElem?_append_left hk, hcurrent]
  · rw [List.getElem?_append_left (List.getElem?_eq_some_iff.mp hresponse).1, hresponse]

/-- One more response makes one more request. -/
theorem Chained.concat {current next : PreparedRequest} {response : Response} {cookies : RequestsCookieJar}
    (hchained : Chained lib request (requests ++ [current]) responses) (hlength : requests.length = responses.length)
    (hnext : redirectRequest lib cookies current response = .ok next) :
    Chained lib request (requests ++ [current] ++ [next]) (responses ++ [response]) := by
  refine ⟨fun first hfirst => hchained.head first ?_, fun k next' hnext' => ?_⟩
  · rw [List.getElem?_append_left (by simp)] at hfirst
    exact hfirst
  · rcases Nat.lt_trichotomy k requests.length with hk | rfl | hk
    -- the links before stay
    · rw [List.getElem?_append_left (by simpa using hk)] at hnext'
      obtain ⟨current', response', cookies', hcurrent, hresponse, hredirect⟩ := hchained.link k next' hnext'
      refine ⟨current', response', cookies', ?_, ?_, hredirect⟩
      · rw [List.getElem?_append_left (by simp; omega), hcurrent]
      · rw [List.getElem?_append_left (by omega), hresponse]
    · have heq : next = next' := by simpa using hnext'
      subst heq
      exact ⟨current, response, cookies, by simp, by simp [hlength], hnext⟩
    · have hbound := (List.getElem?_eq_some_iff.mp hnext').1
      simp only [List.length_append, List.length_singleton] at hbound
      omega

/-- When a round begins, the requests sent so far and the current one form a chain. -/
def Linked (lib : WebLib) (request : PreparedRequest) (s : SendState) : Prop :=
  s.sent.length = s.received.length ∧ Chained lib request (s.sent ++ [s.current]) s.received

/-- A redirect is a link of the chain. -/
theorem linked_step (s s' : SendState) (hlinked : Linked lib request s)
    (hstep : (session.loop lib allowRedirects).step s = .inr s') : Linked lib request s' := by
  obtain ⟨hlength, hchained⟩ := hlinked
  obtain ⟨response, next, -, -, -, hnext, -, rfl⟩ := RequestsSession.round_eq_inr hstep
  refine ⟨?_, hchained.concat hlength hnext⟩
  rw [SendState.sent_remember, SendState.sent_receive, SendState.received_remember, SendState.received_receive,
    List.length_append, List.length_append, hlength, List.length_singleton, List.length_singleton]

/-- The requests that a call of `send` makes form a chain. -/
theorem chained_send (lib : WebLib) (session : RequestsSession) (allowRedirects : Bool) (cookies : RequestsCookieJar)
    (request : PreparedRequest) :
    Chained lib request (session.send lib cookies request allowRedirects).sent
      (session.send lib cookies request allowRedirects).received := by
  have hinit : Linked lib request { cookies := cookies, current := request } :=
    ⟨rfl, fun first hfirst => (Option.some.inj hfirst).symm, fun k next hnext => by simp at hnext⟩
  obtain ⟨last, ⟨-, hchained⟩, hround⟩ := exists_last_of_invariant (@linked_step lib session allowRedirects request) hinit
  rcases RequestsSession.round_eq_inl hround with hlast | ⟨-, -, -, -, hlast⟩ | ⟨response, history, -, hlast⟩
  · exact hchained.mono (congrArg SendState.sent hlast ▸ List.prefix_append _ _)
      (congrArg SendState.received hlast ▸ List.prefix_rfl)
  · exact hchained.mono (congrArg SendState.sent hlast ▸ List.prefix_rfl)
      (congrArg SendState.received hlast ▸ List.prefix_rfl)
  · exact hchained.mono (congrArg SendState.sent hlast ▸ List.prefix_rfl)
      (congrArg SendState.received hlast ▸ List.prefix_append _ _)

end Chained

/-! ## The credentials along a chain -/

/-- The request has the credentials of the first one. -/
def Carries (lib : Stdlib) (first request : PreparedRequest) : Prop :=
  ∃ value, first.authorization lib = some value ∧ request.authorization lib = some value

/-- A request with the credentials of the first one is on its origin, and so are all before it, with the
credentials. -/
def CredentialsStay (lib : WebLib) (first : PreparedRequest) (sent : List PreparedRequest) : Prop :=
  ∀ (k : ℕ) request, sent[k]? = some request → Carries lib.toStdlib first request →
    ∀ j ≤ k, ∀ request', sent[j]? = some request' →
      originOf lib request'.url = originOf lib first.url ∧ Carries lib.toStdlib first request'

/-- If the redirect leads to the same netloc, then with the same scheme. -/
def KeepsScheme (lib : WebLib) (request : PreparedRequest) (response : Response) : Prop :=
  ∀ url before after, redirectTarget lib response = .ok url → lib.urlsplit request.url = .ok before →
    lib.urlsplit url = .ok after → before.netloc = after.netloc → before.scheme = after.scheme

/-- That holds for each redirect that was followed from a request with the credentials of the first one. -/
def HopsKeepScheme (lib : WebLib) (first : PreparedRequest) (sent : List PreparedRequest) (received : List Response) :
    Prop :=
  ∀ (k : ℕ) request response, k + 1 < sent.length → sent[k]? = some request → received[k]? = some response →
    Carries lib.toStdlib first request → KeepsScheme lib request response

section Credentials

variable {lib : WebLib} {first request next : PreparedRequest} {response : Response} {cookies : RequestsCookieJar}
  {sent : List PreparedRequest} {received : List Response}

/-- When a redirect to the same host keeps the scheme. -/
theorem keepsScheme_iff {url : Text} {before after : SplitResult} (htarget : redirectTarget lib response = .ok url)
    (hbefore : lib.urlsplit request.url = .ok before) (hafter : lib.urlsplit url = .ok after) :
    KeepsScheme lib request response ↔ (before.netloc = after.netloc → before.scheme = after.scheme) := by
  constructor
  · exact fun hkeeps => hkeeps url before after htarget hbefore hafter
  · intro hscheme url' before' after' htarget' hbefore' hafter'
    rw [htarget, Except.ok.injEq] at htarget'
    subst htarget'
    rw [hbefore, Except.ok.injEq] at hbefore'
    rw [hafter, Except.ok.injEq] at hafter'
    rw [← hbefore', ← hafter']
    exact hscheme

/-- The credentials stay while the netloc does, and then the origin is kept with the scheme. -/
theorem carries_redirectRequest (hnext : redirectRequest lib cookies request response = .ok next) :
    (Carries lib.toStdlib first next → Carries lib.toStdlib first request ∧
      (originOf lib next.url = originOf lib request.url ↔ KeepsScheme lib request response)) ∧
    (Carries lib.toStdlib first request → ¬ Carries lib.toStdlib first next → KeepsScheme lib request response) := by
  obtain ⟨url, before, after, htarget, hbefore, hafter, rfl⟩ := redirectRequest_eq_ok_iff.mp hnext
  have hurl : (request.redirected lib cookies response.statusCode url before after).url = url := rfl
  have horigin : originOf lib url = originOf lib request.url ↔
      after.origin lib.toStdlib = before.origin lib.toStdlib := by
    rw [originOf, originOf, hbefore, hafter]
    exact Option.some_inj
  rw [Carries, Carries, authorization_redirected, hurl, horigin, keepsScheme_iff htarget hbefore hafter]
  by_cases hnetloc : before.netloc = after.netloc
  · rw [if_neg (not_not.mpr hnetloc)]
    refine ⟨fun hcarries => ⟨hcarries, ?_⟩, fun hcarries hnot => absurd hcarries hnot⟩
    rw [origin_eq_iff hnetloc]
    exact ⟨fun hscheme _ => hscheme, fun hscheme => hscheme hnetloc⟩
  · rw [if_pos hnetloc]
    refine ⟨?_, fun _ _ hsame => absurd hsame hnetloc⟩
    rintro ⟨value, -, hnone⟩
    contradiction

/-- While no redirect changes the scheme alone, the credentials stay on the origin of the first request. -/
theorem Chained.credentialsStay (hchained : Chained lib first sent received)
    (hkeeps : HopsKeepScheme lib first sent received) : CredentialsStay lib first sent := by
  intro k
  induction k with
  | zero =>
    intro request hrequest hcarries j hj request' hrequest'
    obtain rfl := Nat.le_zero.mp hj
    obtain rfl := hchained.head request' hrequest'
    obtain rfl := hchained.head request hrequest
    exact ⟨rfl, hcarries⟩
  | succ k ih =>
    intro next hnext hcarries j hj request' hrequest'
    obtain ⟨request, response, cookies, hrequest, hresponse, hredirect⟩ := hchained.link k next hnext
    obtain ⟨hbefore, horigin⟩ := (carries_redirectRequest hredirect).1 hcarries
    rcases Nat.le_succ_iff.mp hj with hj | rfl
    · exact ih request hrequest hbefore j hj request' hrequest'
    -- the last request has the origin of the one before it
    · obtain rfl := Option.some.inj (hnext.symm.trans hrequest')
      have hlength := (List.getElem?_eq_some_iff.mp hnext).1
      have hlast := horigin.mpr (hkeeps k request response hlength hrequest hresponse hbefore)
      exact ⟨hlast.trans (ih request hrequest hbefore k le_rfl request hrequest).1, hcarries⟩

/-- A redirect that changes the scheme alone takes the credentials to another origin. -/
theorem Chained.hopsKeepScheme (hchained : Chained lib first sent received) (hstay : CredentialsStay lib first sent) :
    HopsKeepScheme lib first sent received := by
  intro k request response hk hrequest hresponse hcarries
  obtain ⟨request', response', cookies, hrequest', hresponse', hredirect⟩ :=
    hchained.link k _ (List.getElem?_eq_getElem hk)
  obtain rfl := Option.some.inj (hrequest.symm.trans hrequest')
  obtain rfl := Option.some.inj (hresponse.symm.trans hresponse')
  by_cases hnext : Carries lib.toStdlib first sent[k + 1]
  · obtain ⟨-, horigin⟩ := (carries_redirectRequest hredirect).1 hnext
    have hall := hstay (k + 1) _ (List.getElem?_eq_getElem hk) hnext
    have hbefore := (hall k k.le_succ request hrequest).1
    have hafter := (hall (k + 1) le_rfl _ (List.getElem?_eq_getElem hk)).1
    exact horigin.mp (hafter.trans hbefore.symm)
  -- the netloc has changed as well
  · exact (carries_redirectRequest hredirect).2 hcarries hnext

end Credentials

/-- In a call of `send` the credentials of the request stay on its origin exactly if no redirect of a request that
still has them changes the scheme and keeps the netloc. -/
theorem credentials_stay_iff (lib : WebLib) (session : RequestsSession) (allowRedirects : Bool)
    (cookies : RequestsCookieJar) (request : PreparedRequest) :
    CredentialsStay lib request (session.send lib cookies request allowRedirects).sent ↔
      HopsKeepScheme lib request (session.send lib cookies request allowRedirects).sent
        (session.send lib cookies request allowRedirects).received := by
  have hchained := chained_send lib session allowRedirects cookies request
  exact ⟨hchained.hopsKeepScheme, hchained.credentialsStay⟩

/-! ## A redirect from https to http -/

def secretRequest (scheme : String) : PreparedRequest where
  method := "GET".toList
  url := scheme.toList ++ "://example.test/account".toList
  headers := CaseInsensitiveDict.setItem asciiStdlib .empty "Authorization".toList "Bearer token".toList

/-- The https URL redirects to the http URL. -/
def downgradeResponses (n : ℕ) : Response where
  statusCode := if n = 0 then 302 else 200
  headers := CaseInsensitiveDict.setItem asciiStdlib .empty "Location".toList (secretRequest "http").url
  content := []
  url := (secretRequest "https").url
  reason := []
  encoding := none
  cookies := .empty
  usedProtocol := none
  request := secretRequest "https"

/-- The token is sent over http. -/
theorem token_sent_over_http :
    ¬ ∀ (lib : WebLib) (session : RequestsSession) (allowRedirects : Bool) (cookies : RequestsCookieJar)
        (request : PreparedRequest),
      CredentialsStay lib request (session.send lib cookies request allowRedirects).sent := by
  intro hstay
  have h := hstay plainWeb (httpSession (fun n _ => .ok (downgradeResponses n)) 30) true .empty (secretRequest "https")
  have hsent : ((httpSession (fun n _ => .ok (downgradeResponses n)) 30).send plainWeb .empty
      (secretRequest "https")).sent = [secretRequest "https", secretRequest "http"] := by
    have hsend : (httpSession (fun n _ => .ok (downgradeResponses n)) 30).send plainWeb .empty
        (secretRequest "https") = _ := (run_of_next rfl).trans (run_of_done rfl)
    rw [hsend]
    rfl
  rw [hsent] at h
  have hcarries : Carries asciiStdlib (secretRequest "https") (secretRequest "http") := ⟨_, rfl, rfl⟩
  have horigin := (h 1 _ rfl hcarries 1 le_rfl _ rfl).1
  exact absurd horigin (by decide)

end TlsClient.Compat
