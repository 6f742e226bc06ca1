import TlsClient.Compat.Adapter
import TlsClient.Library.WhileLoop

/-!
# Following redirects

Embeds `send`, `_redirect_request` and `get_adapter` of the `Session` of `src/tls_client/requests_compat.py`, with
`is_redirect` of its `Response` and `prepare_cookies` of its `PreparedRequest`. What an adapter answers to its
`n`th call is arbitrary, and so is what the hooks of a request make of a response. The state of the loop also
lists the requests that were sent and the responses to them.

`redirects_bounded` bounds the loop and says what it returns.
-/

namespace TlsClient.Compat

open TlsClient.Python WhileLoop

/-! ## A redirect -/

/-- `is_redirect`. -/
def Response.isRedirect (lib : WebLib) (response : Response) : Bool :=
  (response.headers.getItem lib.toStdlib "location".toList).isSome &&
    [301, 302, 303, 307, 308].contains response.statusCode

/-- `urljoin(response.url, response.headers["location"])`. -/
def redirectTarget (lib : WebLib) (response : Response) : Except SendError Text :=
  match response.headers.getItem lib.toStdlib "location".toList with
  | none => .error (.keyError "location".toList)
  | some location => (lib.urljoin response.url location).mapError (.valueError ·)

/-- The redirects after which the method is `GET`. -/
def BecomesGet (statusCode : ℕ) (method : Text) : Prop :=
  statusCode = 303 ∨ (statusCode = 302 ∧ method ≠ "HEAD".toList) ∨ (statusCode = 301 ∧ method = "POST".toList)

instance (statusCode : ℕ) (method : Text) : Decidable (BecomesGet statusCode method) :=
  inferInstanceAs (Decidable (_ ∨ _))

/-- The headers that go with a request to the new URL, all but `Cookie`. -/
def redirectHeaders (lib : Stdlib) (becomesGet otherNetloc : Bool) (headers : CaseInsensitiveDict) :
    CaseInsensitiveDict :=
  let headers := if becomesGet then
      (headers.popItem lib "Content-Length".toList).popItem lib "Content-Type".toList
    else headers
  let headers := if otherNetloc then headers.popItem lib "Authorization".toList else headers
  headers.popItem lib "Cookie".toList

/-- `prepare_cookies`. -/
def PreparedRequest.prepareCookies (lib : Stdlib) (request : PreparedRequest) (cookies : RequestsCookieJar)
    (parsed : SplitUrl) : PreparedRequest :=
  let value := cookieHeader lib cookies parsed
  { request with
    cookies := cookies
    headers := if value = [] then request.headers else request.headers.setItem lib "Cookie".toList value }

/-- The request to the new URL. -/
def PreparedRequest.redirected (lib : WebLib) (request : PreparedRequest) (cookies : RequestsCookieJar)
    (statusCode : ℕ) (url : Text) (before after : SplitResult) : PreparedRequest :=
  let becomesGet := BecomesGet statusCode request.method
  let prepared : PreparedRequest :=
    { method := if becomesGet then "GET".toList else request.method
      url := url
      body := if becomesGet then none else request.body
      headers := redirectHeaders lib.toStdlib becomesGet (before.netloc ≠ after.netloc) request.headers }
  prepared.prepareCookies lib.toStdlib cookies (after.toSplitUrl lib.toStdlib)

/-- `_redirect_request`. -/
def redirectRequest (lib : WebLib) (cookies : RequestsCookieJar) (request : PreparedRequest) (response : Response) :
    Except SendError PreparedRequest := do
  let url ← redirectTarget lib response
  let before ← (lib.urlsplit request.url).mapError (.valueError ·)
  let after ← (lib.urlsplit url).mapError (.valueError ·)
  return request.redirected lib cookies response.statusCode url before after

/-- What the next request is made of, if it can be made. -/
theorem redirectRequest_eq_ok_iff {lib : WebLib} {cookies : RequestsCookieJar} {request next : PreparedRequest}
    {response : Response} :
    redirectRequest lib cookies request response = .ok next ↔
      ∃ url before after, redirectTarget lib response = .ok url ∧ lib.urlsplit request.url = .ok before ∧
        lib.urlsplit url = .ok after ∧
        request.redirected lib cookies response.statusCode url before after = next := by
  simp only [redirectRequest, Fallible.bind_eq_ok_iff, Fallible.mapError_eq_ok_iff, pure, Except.pure,
    Except.ok.injEq, exists_and_left]

/-! ## The loop of `send` -/

/-- The `send` of an adapter, by the calls before it. -/
abbrev AdapterSend := ℕ → PreparedRequest → Except SendError Response

/-- What `send` uses of a `Session` besides its jar. -/
structure RequestsSession where
  /-- `adapters`, with their prefixes -/
  adapters : List (Text × AdapterSend)
  maxRedirects : ℤ
  /-- `dispatch_hook` with the hooks of a request -/
  dispatchHook : PreparedRequest → Response → Response

/-- Where a round of the loop begins. -/
structure SendState where
  cookies : RequestsCookieJar
  current : PreparedRequest
  history : List Response := []
  /-- the requests that adapters got so far -/
  sent : List PreparedRequest := []
  /-- their responses, as the hooks left them -/
  received : List Response := []

/-- The response that `send` returns has the `history` of the state. -/
structure SendOutcome extends SendState where
  result : Except SendError Response

namespace RequestsSession

/-- `get_adapter`. -/
def getAdapter (lib : Stdlib) (session : RequestsSession) (url : Text) : Except SendError AdapterSend :=
  match session.adapters.find? fun item => lib.lower item.1 <+: lib.lower url with
  | some item => .ok item.2
  | none => .error (.invalidSchema url)

end RequestsSession

/-- The adapter has the request. -/
def SendState.send (s : SendState) : SendState :=
  { s with sent := s.sent ++ [s.current] }

/-- `self.cookies.update(response.cookies)`. -/
def SendState.receive (s : SendState) (response : Response) : SendState :=
  { s with received := s.received ++ [response], cookies := s.cookies.update response.cookies }

/-- `response._next = next_request` and `history.append(response)`. -/
def SendState.remember (s : SendState) (response : Response) (next : PreparedRequest) : SendState :=
  { s with history := s.history ++ [{ response with next := some next }] }

section SendState

variable (s : SendState) (response : Response) (next : PreparedRequest)

@[simp] theorem SendState.sent_receive : (s.send.receive response).sent = s.sent ++ [s.current] := rfl

@[simp] theorem SendState.received_receive : (s.send.receive response).received = s.received ++ [response] := rfl

@[simp] theorem SendState.current_receive : (s.send.receive response).current = s.current := rfl

@[simp] theorem SendState.history_receive : (s.send.receive response).history = s.history := rfl

@[simp] theorem SendState.cookies_receive :
    (s.send.receive response).cookies = s.cookies.update response.cookies := rfl

@[simp] theorem SendState.sent_remember : (s.remember response next).sent = s.sent := rfl

@[simp] theorem SendState.received_remember : (s.remember response next).received = s.received := rfl

@[simp] theorem SendState.history_remember :
    (s.remember response next).history = s.history ++ [{ response with next := some next }] := rfl

@[simp] theorem SendState.length_remember :
    (s.remember response next).history.length = s.history.length + 1 :=
  List.length_append

end SendState

namespace RequestsSession

/-- A round after the adapter has answered. -/
def follow (lib : WebLib) (session : RequestsSession) (allowRedirects : Bool) (s : SendState) (response : Response) :
    SendOutcome ⊕ SendState :=
  if response.isRedirect lib then
    match redirectRequest lib s.cookies s.current response with
    | .error err => .inl ⟨s, .error err⟩
    | .ok next =>
      if allowRedirects then
        let s := s.remember response next
        if s.history.length > session.maxRedirects then .inl ⟨s, .error (.tooManyRedirects session.maxRedirects)⟩
        else .inr { s with current := next }
      else .inl ⟨s, .ok { response with next := some next }⟩
  else .inl ⟨s, .ok response⟩

/-- The body of the loop. -/
def round (lib : WebLib) (session : RequestsSession) (allowRedirects : Bool) (s : SendState) :
    SendOutcome ⊕ SendState :=
  match session.getAdapter lib.toStdlib s.current.url with
  | .error err => .inl ⟨s, .error err⟩
  | .ok adapter =>
    match adapter s.sent.length s.current with
    | .error err => .inl ⟨s.send, .error err⟩
    | .ok answer =>
      let response := session.dispatchHook s.current answer
      follow lib session allowRedirects (s.send.receive response) response

/-! ## What a round does -/

variable {lib : WebLib} {session : RequestsSession} {allowRedirects : Bool} {s s' : SendState} {outcome : SendOutcome}

/-- The loop ends with nothing new but the history, or goes on after a redirect, with fewer than `max_redirects` of
them before. -/
theorem follow_cases (lib : WebLib) (session : RequestsSession) (allowRedirects : Bool) (s : SendState)
    (response : Response) :
    (∃ history result,
      follow lib session allowRedirects s response = .inl ⟨{ s with history := history }, result⟩) ∨
    (response.isRedirect lib ∧ allowRedirects = true ∧
      ∃ next, redirectRequest lib s.cookies s.current response = .ok next ∧
        (s.history.length + 1 : ℤ) ≤ session.maxRedirects ∧
        follow lib session allowRedirects s response = .inr { s.remember response next with current := next }) := by
  rw [follow]
  by_cases hredirect : response.isRedirect lib
  · rw [if_pos hredirect]
    cases hnext : redirectRequest lib s.cookies s.current response with
    | error err => exact .inl ⟨s.history, _, rfl⟩
    | ok next =>
      dsimp only
      split_ifs with hallow hlimit
      · exact .inl ⟨_, _, rfl⟩
      · refine .inr ⟨hredirect, hallow, next, rfl, ?_, rfl⟩
        rw [SendState.length_remember] at hlimit
        omega
      · exact .inl ⟨s.history, _, rfl⟩
  · rw [if_neg hredirect]
    exact .inl ⟨s.history, _, rfl⟩

/-- When a redirect is followed, and with what. -/
theorem follow_eq_inr {response : Response} (h : follow lib session allowRedirects s response = .inr s') :
    response.isRedirect lib ∧ allowRedirects = true ∧
      ∃ next, redirectRequest lib s.cookies s.current response = .ok next ∧
        (s.history.length + 1 : ℤ) ≤ session.maxRedirects ∧
        s' = { s.remember response next with current := next } := by
  rcases follow_cases lib session allowRedirects s response with
    ⟨history, result, hend⟩ | ⟨hredirect, hallow, next, hnext, hlimit, hgo⟩
  · rw [hend] at h
    contradiction
  · exact ⟨hredirect, hallow, next, hnext, hlimit, Sum.inr.inj (h.symm.trans hgo)⟩

/-- What happens after a redirect whose next request can be made. -/
theorem follow_of_redirect {response : Response} {next : PreparedRequest} (hredirect : response.isRedirect lib)
    (hnext : redirectRequest lib s.cookies s.current response = .ok next) :
    follow lib session true s response =
      if (s.history.length + 1 : ℤ) > session.maxRedirects then
        .inl ⟨s.remember response next, .error (.tooManyRedirects session.maxRedirects)⟩
      else .inr { s.remember response next with current := next } := by
  rw [follow, if_pos hredirect, hnext]
  dsimp only
  rw [if_pos rfl, SendState.length_remember, Nat.cast_add, Nat.cast_one]

/-- What the loop returns has nothing new but the history. -/
theorem follow_eq_inl {response : Response} (h : follow lib session allowRedirects s response = .inl outcome) :
    ∃ history, outcome.toSendState = { s with history := history } := by
  rcases follow_cases lib session allowRedirects s response with ⟨history, result, hend⟩ | ⟨-, -, next, -, -, hgo⟩
  · obtain rfl := Sum.inl.inj (h.symm.trans hend)
    exact ⟨history, rfl⟩
  · rw [hgo] at h
    contradiction

/-- The response to the request of the round, as the hooks leave it. -/
def Answers (lib : Stdlib) (session : RequestsSession) (s : SendState) (response : Response) : Prop :=
  ∃ adapter answer, session.getAdapter lib s.current.url = .ok adapter ∧
    adapter s.sent.length s.current = .ok answer ∧ session.dispatchHook s.current answer = response

/-- A round finds no adapter, gets no response, or follows the response. -/
theorem round_cases (lib : WebLib) (session : RequestsSession) (allowRedirects : Bool) (s : SendState) :
    (∃ err, round lib session allowRedirects s = .inl ⟨s, .error err⟩) ∨
      (∃ adapter err, session.getAdapter lib.toStdlib s.current.url = .ok adapter ∧
        adapter s.sent.length s.current = .error err ∧
        round lib session allowRedirects s = .inl ⟨s.send, .error err⟩) ∨
      ∃ response, session.Answers lib.toStdlib s response ∧
        round lib session allowRedirects s = follow lib session allowRedirects (s.send.receive response) response := by
  rw [round]
  cases hadapter : session.getAdapter lib.toStdlib s.current.url with
  | error err => exact .inl ⟨err, rfl⟩
  | ok adapter =>
    dsimp only
    cases hanswer : adapter s.sent.length s.current with
    | error err => exact .inr (.inl ⟨adapter, err, rfl, hanswer, rfl⟩)
    | ok answer => exact .inr (.inr ⟨_, ⟨adapter, answer, hadapter, hanswer, rfl⟩, rfl⟩)

/-- A round that goes on has got a redirect. -/
theorem round_eq_inr (h : round lib session allowRedirects s = .inr s') :
    ∃ response next, session.Answers lib.toStdlib s response ∧ response.isRedirect lib ∧ allowRedirects = true ∧
      redirectRequest lib (s.cookies.update response.cookies) s.current response = .ok next ∧
      (s.history.length + 1 : ℤ) ≤ session.maxRedirects ∧
      s' = { (s.send.receive response).remember response next with current := next } := by
  rcases round_cases lib session allowRedirects s with
    ⟨err, hround⟩ | ⟨adapter, err, -, -, hround⟩ | ⟨response, hanswers, hround⟩
  · rw [hround] at h
    contradiction
  · rw [hround] at h
    contradiction
  · obtain ⟨hredirect, hallow, next, hnext, hlimit, rfl⟩ := follow_eq_inr (hround ▸ h)
    exact ⟨response, next, hanswers, hredirect, hallow, hnext, hlimit, rfl⟩

/-- The last round leaves the state, or has sent one more request, perhaps with a response. -/
theorem round_eq_inl (h : round lib session allowRedirects s = .inl outcome) :
    outcome.toSendState = s ∨
      (∃ adapter err, session.getAdapter lib.toStdlib s.current.url = .ok adapter ∧
        adapter s.sent.length s.current = .error err ∧ outcome.toSendState = s.send) ∨
      ∃ response history, session.Answers lib.toStdlib s response ∧
        outcome.toSendState = { s.send.receive response with history := history } := by
  rcases round_cases lib session allowRedirects s with
    ⟨err, hround⟩ | ⟨adapter, err, hadapter, herror, hround⟩ | ⟨response, hanswers, hround⟩
  · obtain rfl := Sum.inl.inj (hround.symm.trans h)
    exact .inl rfl
  · obtain rfl := Sum.inl.inj (hround.symm.trans h)
    exact .inr (.inl ⟨adapter, err, hadapter, herror, rfl⟩)
  · obtain ⟨history, hstate⟩ := follow_eq_inl (hround ▸ h)
    exact .inr (.inr ⟨response, history, hanswers, hstate⟩)

/-- The loop of `send`. -/
def loop (lib : WebLib) (session : RequestsSession) (allowRedirects : Bool) : Loop SendState SendOutcome where
  step := round lib session allowRedirects
  size s := (session.maxRedirects + 1 - s.history.length).toNat
  decreases s s' h := by
    obtain ⟨response, next, -, -, -, -, hlimit, rfl⟩ := round_eq_inr h
    rw [SendState.length_remember, SendState.history_receive]
    omega

/-- `send`. -/
def send (lib : WebLib) (session : RequestsSession) (cookies : RequestsCookieJar) (request : PreparedRequest)
    (allowRedirects : Bool := true) : SendOutcome :=
  (session.loop lib allowRedirects).run { cookies := cookies, current := request }

end RequestsSession

/-! ## A bounded chain -/

/-- `url` is an http or https URL. -/
structure IsHttpUrl (lib : WebLib) (url : Text) : Prop where
  splits : ∃ parsed, lib.urlsplit url = .ok parsed
  scheme : lib.lower "http://".toList <+: lib.lower url ∨ lib.lower "https://".toList <+: lib.lower url

/-- The adapters for http and https URLs answer with the responses, one after the other, hooks leave them as they
are, and each redirect among them leads to an http or https URL. -/
structure Scripted (lib : WebLib) (session : RequestsSession) (responses : ℕ → Response) : Prop where
  answers : ∀ url, IsHttpUrl lib url → ∃ adapter, session.getAdapter lib.toStdlib url = .ok adapter ∧
    ∀ n request, adapter n request = .ok (responses n)
  unhooked : ∀ request response, session.dispatchHook request response = response
  resolves : ∀ n, (responses n).isRedirect lib → ∃ url, redirectTarget lib (responses n) = .ok url ∧ IsHttpUrl lib url

/-- The state after `n` redirects: all responses are in the history, each with the request sent after it. -/
structure Followed (lib : WebLib) (responses : ℕ → Response) (n : ℕ) (s : SendState) : Prop where
  sent : s.sent.length = n
  length : s.history.length = n
  url : IsHttpUrl lib s.current.url
  history : ∀ k < n, ∃ next, (s.sent ++ [s.current])[k + 1]? = some next ∧
    s.history[k]? = some { responses k with next := some next }

/-- The response is returned, with the redirects before it as its history. -/
structure ReturnsFirst (responses : ℕ → Response) (n : ℕ) (outcome : SendOutcome) : Prop where
  result : outcome.result = .ok (responses n)
  length : outcome.history.length = n
  history : ∀ k < n, ∃ next, outcome.sent[k + 1]? = some next ∧
    outcome.history[k]? = some { responses k with next := some next }

section Bounded

open RequestsSession

variable {lib : WebLib} {session : RequestsSession} {responses : ℕ → Response} {allowRedirects : Bool} {n : ℕ}
  {s : SendState}

/-- In a round the next response is followed. -/
theorem Scripted.round_eq (hscript : Scripted lib session responses) (hs : Followed lib responses n s) :
    session.round lib allowRedirects s = session.follow lib allowRedirects (s.send.receive (responses n)) (responses n) := by
  obtain ⟨adapter, hadapter, hanswers⟩ := hscript.answers s.current.url hs.url
  rw [RequestsSession.round, hadapter]
  dsimp only
  rw [hanswers, hs.sent]
  dsimp only
  rw [hscript.unhooked]

/-- The next request can be made after a redirect. -/
theorem Scripted.exists_next (hscript : Scripted lib session responses) (cookies : RequestsCookieJar)
    {request : PreparedRequest} (hurl : IsHttpUrl lib request.url) (hredirect : (responses n).isRedirect lib) :
    ∃ next, redirectRequest lib cookies request (responses n) = .ok next ∧ IsHttpUrl lib next.url := by
  obtain ⟨url, htarget, hhttp⟩ := hscript.resolves n hredirect
  obtain ⟨before, hbefore⟩ := hurl.splits
  obtain ⟨after, hafter⟩ := hhttp.splits
  exact ⟨_, redirectRequest_eq_ok_iff.mpr ⟨url, before, after, htarget, hbefore, hafter, rfl⟩, hhttp⟩

/-- A redirect within the bound is followed. -/
theorem Scripted.exists_followed_succ (hscript : Scripted lib session responses) (hs : Followed lib responses n s)
    (hredirect : (responses n).isRedirect lib) (hbound : (n + 1 : ℤ) ≤ session.maxRedirects) :
    ∃ s', session.round lib true s = .inr s' ∧ Followed lib responses (n + 1) s' := by
  obtain ⟨next, hnext, hurl⟩ := hscript.exists_next (s.cookies.update (responses n).cookies) hs.url hredirect
  have hlimit : ¬ ((s.send.receive (responses n)).history.length + 1 : ℤ) > session.maxRedirects := by
    rw [SendState.history_receive, hs.length]
    omega
  refine ⟨{ (s.send.receive (responses n)).remember (responses n) next with current := next }, ?_, ?_, ?_, hurl, ?_⟩
  · rw [hscript.round_eq hs, follow_of_redirect hredirect hnext, if_neg hlimit]
  · rw [SendState.sent_remember, SendState.sent_receive, List.length_append, hs.sent, List.length_singleton]
  · rw [SendState.length_remember, SendState.history_receive, hs.length]
  · intro k hk
    rw [SendState.sent_remember, SendState.sent_receive, SendState.history_remember, SendState.history_receive]
    rcases Nat.lt_succ_iff_lt_or_eq.mp hk with hlt | rfl
    -- the earlier responses have been followed before
    · obtain ⟨next', hsent, hresponse⟩ := hs.history k hlt
      refine ⟨next', ?_, ?_⟩
      · rw [List.getElem?_append_left (by simp [hs.sent, hlt])]
        exact hsent
      · rw [List.getElem?_append_left (by rw [hs.length]; exact hlt)]
        exact hresponse
    · refine ⟨next, ?_, ?_⟩
      · rw [List.getElem?_append_right (by simp [hs.sent])]
        simp [hs.sent]
      · rw [List.getElem?_append_right (by rw [hs.length]), hs.length]
        simp

/-- A redirect beyond the bound raises. -/
theorem Scripted.exists_tooManyRedirects (hscript : Scripted lib session responses) (hs : Followed lib responses n s)
    (hredirect : (responses n).isRedirect lib) (hbound : session.maxRedirects < (n + 1 : ℤ)) :
    ∃ outcome, session.round lib true s = .inl outcome ∧ outcome.sent.length = n + 1 ∧
      outcome.result = .error (.tooManyRedirects session.maxRedirects) := by
  obtain ⟨next, hnext, -⟩ := hscript.exists_next (s.cookies.update (responses n).cookies) hs.url hredirect
  have hlimit : ((s.send.receive (responses n)).history.length + 1 : ℤ) > session.maxRedirects := by
    rw [SendState.history_receive, hs.length]
    omega
  refine ⟨⟨(s.send.receive (responses n)).remember (responses n) next, .error (.tooManyRedirects session.maxRedirects)⟩,
    ?_, ?_, rfl⟩
  · rw [hscript.round_eq hs, follow_of_redirect hredirect hnext, if_pos hlimit]
  · rw [SendState.sent_remember, SendState.sent_receive, List.length_append, hs.sent, List.length_singleton]

/-- A response that is no redirect ends the loop. -/
theorem Scripted.round_of_last (hscript : Scripted lib session responses) (hs : Followed lib responses n s)
    (hlast : ¬ (responses n).isRedirect lib) :
    session.round lib allowRedirects s = .inl ⟨s.send.receive (responses n), .ok (responses n)⟩ := by
  rw [hscript.round_eq hs, follow, if_neg hlast]

/-- The first round sends one request. -/
theorem Scripted.exists_round_of_disallowed (hscript : Scripted lib session responses)
    (hs : Followed lib responses n s) :
    ∃ outcome, session.round lib false s = .inl outcome ∧ outcome.sent.length = n + 1 := by
  have hlength : (s.send.receive (responses n)).sent.length = n + 1 := by
    rw [SendState.sent_receive, List.length_append, hs.sent, List.length_singleton]
  by_cases hredirect : (responses n).isRedirect lib
  · obtain ⟨next, hnext, -⟩ := hscript.exists_next (s.cookies.update (responses n).cookies) hs.url hredirect
    refine ⟨⟨s.send.receive (responses n), .ok { responses n with next := some next }⟩, ?_, hlength⟩
    rw [hscript.round_eq hs, follow, if_pos hredirect, SendState.cookies_receive, SendState.current_receive, hnext]
    rfl
  · exact ⟨_, hscript.round_of_last hs hredirect, hlength⟩

/-- The first redirects within the bound are all followed. -/
theorem Scripted.exists_reaches (hscript : Scripted lib session responses) (hs : Followed lib responses 0 s)
    (hbound : (n : ℤ) ≤ session.maxRedirects) (hredirects : ∀ k < n, (responses k).isRedirect lib) :
    ∃ s', Reaches (session.loop lib true) s s' ∧ Followed lib responses n s' := by
  induction n with
  | zero => exact ⟨s, .refl, hs⟩
  | succ n ih =>
    rw [Nat.cast_add, Nat.cast_one] at hbound
    obtain ⟨s', hreaches, hs'⟩ := ih (by omega) fun k hk => hredirects k (Nat.lt_succ_of_lt hk)
    obtain ⟨s'', hround, hs''⟩ := hscript.exists_followed_succ hs' (hredirects n n.lt_succ_self) hbound
    exact ⟨s'', hreaches.tail hround, hs''⟩

variable {cookies : RequestsCookieJar} {request : PreparedRequest}

/-- At first no redirect was followed. -/
theorem followed_zero (cookies : RequestsCookieJar) (hurl : IsHttpUrl lib request.url) :
    Followed lib responses 0 { cookies := cookies, current := request } where
  sent := rfl
  length := rfl
  url := hurl
  history _ hk := absurd hk (Nat.not_lt_zero _)

/-- The outcome of a loop that has followed the redirects before its last round. -/
theorem send_of_reaches {outcome : SendOutcome}
    (hreaches : Reaches (session.loop lib allowRedirects) { cookies := cookies, current := request } s)
    (hround : session.round lib allowRedirects s = .inl outcome) :
    session.send lib cookies request allowRedirects = outcome :=
  (run_of_reaches hreaches).trans (run_of_done hround)

/-- The first response that is no redirect is returned. -/
theorem Scripted.returnsFirst (hscript : Scripted lib session responses) (hurl : IsHttpUrl lib request.url)
    (hbound : (n : ℤ) ≤ session.maxRedirects) (hredirects : ∀ k < n, (responses k).isRedirect lib)
    (hlast : ¬ (responses n).isRedirect lib) :
    (session.send lib cookies request).sent.length = n + 1 ∧
      ReturnsFirst responses n (session.send lib cookies request) := by
  obtain ⟨s, hreaches, hs⟩ := hscript.exists_reaches (followed_zero cookies hurl) hbound hredirects
  rw [send_of_reaches hreaches (hscript.round_of_last hs hlast)]
  refine ⟨?_, rfl, hs.length, fun k hk => ?_⟩
  · rw [SendState.sent_receive, List.length_append, hs.sent, List.length_singleton]
  · exact hs.history k hk

/-- If there is none within the bound, the loop raises. -/
theorem Scripted.tooManyRedirects (hscript : Scripted lib session responses) (hurl : IsHttpUrl lib request.url)
    (hmax : session.maxRedirects = n) (hredirects : ∀ k ≤ n, (responses k).isRedirect lib) :
    (session.send lib cookies request).sent.length = n + 1 ∧
      (session.send lib cookies request).result = .error (.tooManyRedirects n) := by
  obtain ⟨s, hreaches, hs⟩ := hscript.exists_reaches (followed_zero cookies hurl) hmax.ge
    fun k hk => hredirects k hk.le
  obtain ⟨outcome, hround, hsent, hresult⟩ :=
    hscript.exists_tooManyRedirects hs (hredirects n le_rfl) (by omega)
  rw [send_of_reaches hreaches hround]
  exact ⟨hsent, hmax ▸ hresult⟩

/-- `send` makes at most `max_redirects + 1` requests. It raises if they all end in a redirect, and otherwise
returns the first response that is none. Without redirects it makes one request. -/
theorem redirects_bounded (hscript : Scripted lib session responses) (cookies : RequestsCookieJar)
    (hurl : IsHttpUrl lib request.url) (hmax : session.maxRedirects = n) :
    (session.send lib cookies request).sent.length ≤ n + 1 ∧
      ((session.send lib cookies request).result = .error (.tooManyRedirects n) ↔
        ∀ k ≤ n, (responses k).isRedirect lib) ∧
      (∀ m ≤ n, (∀ k < m, (responses k).isRedirect lib) → ¬ (responses m).isRedirect lib →
        ReturnsFirst responses m (session.send lib cookies request)) ∧
      (session.send lib cookies request false).sent.length = 1 := by
  have hfirst : ∀ m ≤ n, (∀ k < m, (responses k).isRedirect lib) → ¬ (responses m).isRedirect lib →
      (session.send lib cookies request).sent.length = m + 1 ∧
        ReturnsFirst responses m (session.send lib cookies request) := by
    intro m hm hredirects hlast
    exact hscript.returnsFirst hurl (by omega) hredirects hlast
  have hdisallowed : (session.send lib cookies request false).sent.length = 1 := by
    obtain ⟨outcome, hround, hsent⟩ := hscript.exists_round_of_disallowed (followed_zero cookies hurl)
    rw [send_of_reaches .refl hround]
    exact hsent
  by_cases hall : ∀ k ≤ n, (responses k).isRedirect lib
  · have hraises : (session.send lib cookies request).sent.length = n + 1 ∧
        (session.send lib cookies request).result = .error (.tooManyRedirects n) :=
      hscript.tooManyRedirects hurl hmax hall
    obtain ⟨hsent, hresult⟩ := hraises
    refine ⟨hsent.le, iff_of_true hresult hall, fun m hm _ hlast => ?_, hdisallowed⟩
    exact absurd (hall m hm) hlast
  -- the first response that is no redirect comes within the bound
  · push Not at hall
    have hexists : ∃ m, m ≤ n ∧ ¬ (responses m).isRedirect lib := hall
    obtain ⟨hm, hlast⟩ := Nat.find_spec hexists
    have hredirects : ∀ k < Nat.find hexists, (responses k).isRedirect lib := by
      intro k hk
      have hnot := Nat.find_min hexists hk
      by_contra hredirect
      exact hnot ⟨(hk.trans_le hm).le, hredirect⟩
    obtain ⟨hsent, hreturns⟩ := hfirst _ hm hredirects hlast
    refine ⟨by omega, iff_of_false ?_ ?_, fun m hm hredirects hlast => (hfirst m hm hredirects hlast).2, hdisallowed⟩
    · rw [hreturns.result]
      exact fun h => by cases h
    · exact fun hall => hlast (hall _ hm)

end Bounded

/-! ## A session as it is made -/

/-- A session with the adapters that its constructor mounts, and without hooks. -/
def httpSession (adapter : AdapterSend) (maxRedirects : ℤ) : RequestsSession where
  adapters := [("https://".toList, adapter), ("http://".toList, adapter)]
  maxRedirects := maxRedirects
  dispatchHook _ response := response

/-- An HTTP URL has the adapter of the session. -/
theorem getAdapter_httpSession {lib : WebLib} {url : Text} (hurl : IsHttpUrl lib url) (adapter : AdapterSend)
    (maxRedirects : ℤ) : (httpSession adapter maxRedirects).getAdapter lib.toStdlib url = .ok adapter := by
  have hscheme := hurl.scheme
  rw [RequestsSession.getAdapter, httpSession]
  generalize "https://".toList = https at hscheme ⊢
  generalize "http://".toList = http at hscheme ⊢
  by_cases hhttps : lib.lower https <+: lib.lower url
  · simp [hhttps]
  · simp [hhttps, hscheme.resolve_right hhttps]

/-- There is no other adapter. -/
theorem eq_of_getAdapter_httpSession {lib : Stdlib} {url : Text} {adapter found : AdapterSend} {maxRedirects : ℤ}
    (hfound : (httpSession adapter maxRedirects).getAdapter lib url = .ok found) : found = adapter := by
  rw [RequestsSession.getAdapter, httpSession] at hfound
  dsimp only at hfound
  split at hfound
  · rename_i item hitem
    have hmem := List.mem_of_find?_eq_some hitem
    rw [← Except.ok.inj hfound]
    rcases List.mem_pair.mp hmem with rfl | rfl
    · rfl
    · rfl
  · contradiction

/-- What the session answers is what the adapter sends back. -/
theorem of_answers_httpSession {lib : Stdlib} {adapter : AdapterSend} {maxRedirects : ℤ} {s : SendState}
    {response : Response} (hanswers : (httpSession adapter maxRedirects).Answers lib s response) :
    adapter s.sent.length s.current = .ok response := by
  obtain ⟨found, answer, hfound, hanswer, rfl⟩ := hanswers
  rw [← eq_of_getAdapter_httpSession hfound]
  exact hanswer

def startRequest : PreparedRequest := { method := "GET".toList, url := "https://example.test/start".toList }

/-- `/start` redirects to `/done`. -/
def startResponses (n : ℕ) : Response where
  statusCode := if n = 0 then 302 else 200
  headers := CaseInsensitiveDict.setItem asciiStdlib .empty "Location".toList "/done".toList
  content := []
  url := startRequest.url
  reason := []
  encoding := none
  cookies := .empty
  usedProtocol := none
  request := startRequest

/-- Only the first response redirects. -/
theorem isRedirect_startResponses (n : ℕ) : (startResponses n).isRedirect plainWeb ↔ n = 0 := by
  constructor
  · intro hredirect
    by_contra hn
    have hstatus : (startResponses n).statusCode = 200 := if_neg hn
    rw [Response.isRedirect, hstatus, Bool.and_eq_true] at hredirect
    exact absurd hredirect.2 (by decide)
  · rintro rfl
    decide

/-- The session follows the script. -/
theorem scripted_startResponses (maxRedirects : ℤ) :
    Scripted plainWeb (httpSession (fun n _ => .ok (startResponses n)) maxRedirects) startResponses where
  answers url hurl := ⟨_, getAdapter_httpSession hurl _ _, fun _ _ => rfl⟩
  unhooked _ _ := rfl
  resolves n hredirect := by
    obtain rfl := (isRedirect_startResponses n).mp hredirect
    exact ⟨"https://example.test/done".toList, rfl, ⟨_, rfl⟩, .inr (by decide)⟩

/-- One redirect is followed. -/
theorem done_returned :
    ReturnsFirst startResponses 1
      ((httpSession (fun n _ => .ok (startResponses n)) 1).send plainWeb .empty startRequest) := by
  have hurl : IsHttpUrl plainWeb startRequest.url := ⟨⟨_, rfl⟩, .inr (by decide)⟩
  obtain ⟨-, -, hfirst, -⟩ := redirects_bounded (n := 1) (scripted_startResponses 1) .empty hurl rfl
  refine hfirst 1 le_rfl (fun k hk => ?_) ?_
  · exact (isRedirect_startResponses k).mpr (by omega)
  · exact fun hredirect => absurd ((isRedirect_startResponses 1).mp hredirect) (by decide)

end TlsClient.Compat
