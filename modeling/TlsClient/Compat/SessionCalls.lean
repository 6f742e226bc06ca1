import TlsClient.Compat.Redirects
import TlsClient.Library.Run

/-!
# The calls of a session

A run of a session of `src/tls_client/requests_compat.py` is a list of calls of `send`, each with what the engine
returns in it. What they leave in the jar is what the responses make of it, one after the other (`sessionJar_eq`).
For the jar alone `sendLoop` is enough (`cookies_outcome_eq_sendLoop`), so what keeps cookies to their domains there
does so in a call (`permitted_of_outcome`).
-/

namespace TlsClient.Compat

open TlsClient.Python WhileLoop

/-- A request, and what the engine returned for it. -/
abbrev Exchange := PreparedRequest × EngineResponse

/-- `execute_request` of the native session, by the calls before it. -/
abbrev ExecuteRequest := ℕ → PreparedRequest → Except SendError EngineResponse

/-- `TLSClientAdapter.send`. -/
def tlsClientAdapter (lib : WebLib) (engine : ExecuteRequest) : AdapterSend :=
  fun n request => do
    let native ← engine n request
    adapterResponse lib request native

/-- A call of `Session.send`. -/
structure SessionCall where
  request : PreparedRequest
  allowRedirects : Bool := true
  maxRedirects : ℤ := 30
  engine : ExecuteRequest

/-- How it ends. -/
def SessionCall.outcome (lib : WebLib) (cookies : RequestsCookieJar) (call : SessionCall) : SendOutcome :=
  (httpSession (tlsClientAdapter lib call.engine) call.maxRedirects).send lib cookies call.request call.allowRedirects

/-- The requests that the engine returned something for; `start` calls of it were before. -/
def exchangesOf (engine : ExecuteRequest) (sent : List PreparedRequest) (start : ℕ := 0) : List Exchange :=
  (sent.zipIdx start).filterMap fun item => (engine item.2 item.1).toOption.map fun native => (item.1, native)

/-- The jar of a session after some calls. -/
def sessionJar (lib : WebLib) (cookies : RequestsCookieJar) (calls : List SessionCall) : RequestsCookieJar :=
  calls.foldl (fun cookies call => (call.outcome lib cookies).cookies) cookies

/-- What the engine returned in some calls. -/
def sessionExchanges (lib : WebLib) (cookies : RequestsCookieJar) : List SessionCall → List Exchange
  | [] => []
  | call :: calls => exchangesOf call.engine (call.outcome lib cookies).sent ++
      sessionExchanges lib (call.outcome lib cookies).cookies calls

/-- What an exchange makes of the jar. -/
def receiveCookies (lib : WebLib) (cookies : RequestsCookieJar) (exchange : Exchange) : RequestsCookieJar :=
  match adapterResponse lib exchange.1 exchange.2 with
  | .ok response => cookies.update response.cookies
  | .error _ => cookies

/-! ## The jar -/

section Calls

variable {lib : WebLib} {engine : ExecuteRequest} {sent : List PreparedRequest} {request : PreparedRequest}

/-- The exchanges with one more request. -/
theorem exchangesOf_concat : exchangesOf engine (sent ++ [request]) =
    exchangesOf engine sent ++ ((engine sent.length request).toOption.map fun native => (request, native)).toList := by
  rw [exchangesOf, List.zipIdx_append, List.filterMap_append, exchangesOf, Nat.zero_add]
  cases hengine : engine sent.length request with
  | error err => simp [List.filterMap, Except.toOption, hengine]
  | ok native => simp [List.filterMap, Except.toOption, hengine]

/-- The exchange that a call of the adapter is. -/
theorem exec_exchangesOf_concat (cookies : RequestsCookieJar) :
    Run.exec (receiveCookies lib) cookies (exchangesOf engine (sent ++ [request])) =
      match tlsClientAdapter lib engine sent.length request with
      | .ok response => (Run.exec (receiveCookies lib) cookies (exchangesOf engine sent)).update response.cookies
      | .error _ => Run.exec (receiveCookies lib) cookies (exchangesOf engine sent) := by
  rw [exchangesOf_concat, Run.exec_append, tlsClientAdapter]
  cases engine sent.length request with
  | error err => rfl
  | ok native => rfl

/-- When a round begins, the jar is what the exchanges so far have made of it. -/
def Tracked (lib : WebLib) (engine : ExecuteRequest) (cookies : RequestsCookieJar) (s : SendState) : Prop :=
  s.cookies = Run.exec (receiveCookies lib) cookies (exchangesOf engine s.sent)

variable {maxRedirects : ℤ} {allowRedirects : Bool} {cookies : RequestsCookieJar}

/-- A response is tracked. -/
theorem tracked_receive {s : SendState} {response : Response} (htracked : Tracked lib engine cookies s)
    (hanswers : (httpSession (tlsClientAdapter lib engine) maxRedirects).Answers lib.toStdlib s response) :
    Tracked lib engine cookies (s.send.receive response) := by
  rw [Tracked, SendState.sent_receive, exec_exchangesOf_concat, of_answers_httpSession hanswers,
    SendState.cookies_receive, htracked]

/-- A round of the loop is tracked. -/
theorem tracked_step (s s' : SendState) (htracked : Tracked lib engine cookies s)
    (hstep : ((httpSession (tlsClientAdapter lib engine) maxRedirects).loop lib allowRedirects).step s = .inr s') :
    Tracked lib engine cookies s' := by
  obtain ⟨response, next, hanswers, -, -, -, -, rfl⟩ := RequestsSession.round_eq_inr hstep
  exact tracked_receive htracked hanswers

end Calls

/-- A call leaves what its exchanges make of the jar. -/
theorem cookies_outcome (lib : WebLib) (cookies : RequestsCookieJar) (call : SessionCall) :
    (call.outcome lib cookies).cookies =
      Run.exec (receiveCookies lib) cookies (exchangesOf call.engine (call.outcome lib cookies).sent) := by
  have hinit : Tracked lib call.engine cookies { cookies := cookies, current := call.request } := rfl
  obtain ⟨last, htracked, hround⟩ := exists_last_of_invariant
    (@tracked_step lib call.engine call.maxRedirects call.allowRedirects cookies) hinit
  have hend : Tracked lib call.engine cookies (call.outcome lib cookies).toSendState := by
    rw [SessionCall.outcome, RequestsSession.send]
    rcases RequestsSession.round_eq_inl hround with hlast | ⟨adapter, err, hadapter, herror, hlast⟩ |
      ⟨response, history, hanswers, hlast⟩
    · rw [hlast]
      exact htracked
    -- the engine or the adapter has raised, and the jar stays
    · obtain rfl := eq_of_getAdapter_httpSession hadapter
      rw [hlast, Tracked, SendState.send, exec_exchangesOf_concat, herror]
      exact htracked
    · rw [hlast]
      exact tracked_receive htracked hanswers
  exact hend

/-- The jar of a session is what all exchanges of its calls have made of it. -/
theorem sessionJar_eq (lib : WebLib) (cookies : RequestsCookieJar) (calls : List SessionCall) :
    sessionJar lib cookies calls = Run.exec (receiveCookies lib) cookies (sessionExchanges lib cookies calls) := by
  induction calls generalizing cookies with
  | nil => rfl
  | cons call calls ih =>
    rw [sessionExchanges, Run.exec_append, ← cookies_outcome, ← ih]
    rfl

/-! ## The loop over the cookies -/

/-- What the responses whose URL can be split are to `sendLoop`. -/
def nativesOf (lib : WebLib) (exchanges : List Exchange) : List NativeResponse :=
  exchanges.filterMap fun exchange =>
    (lib.urlsplit (exchange.2.finalUrl exchange.1)).toOption.map (exchange.2.toNative lib)

section SendLoop

variable {lib : WebLib} {request : PreparedRequest} {native : EngineResponse} {response : Response}

/-- A name among the joined headers is among the headers. -/
theorem exists_of_getItem_joinedHeaders {headers : PyDict Text (List Text)} {key value : Text}
    (hget : (joinedHeaders lib headers).getItem lib.toStdlib key = some value) :
    ∃ item ∈ headers.items, lib.lower item.1 = lib.lower key := by
  have hfold : ∀ (items : List (Text × List Text)) (d : CaseInsensitiveDict),
      (∀ item ∈ items, lib.lower item.1 ≠ lib.lower key) →
        (items.foldl (fun d item => d.setItem lib.toStdlib item.1 ([',', ' '].intercalate item.2)) d).getItem
          lib.toStdlib key = d.getItem lib.toStdlib key := by
    intro items
    induction items with
    | nil => exact fun d _ => rfl
    | cons item items ih =>
      intro d hne
      rw [List.foldl_cons, ih _ fun other hother => hne other (List.mem_cons_of_mem _ hother)]
      exact CaseInsensitiveDict.getItem_setItem_of_ne d _ (hne item List.mem_cons_self).symm
  by_contra hnone
  push Not at hnone
  have hempty : CaseInsensitiveDict.getItem lib.toStdlib .empty key = none := rfl
  rw [joinedHeaders, hfold headers.items .empty hnone, hempty] at hget
  contradiction

/-- What `send` follows is a redirect for `sendLoop` too. -/
theorem isRedirect_of_adapterResponse {parsed : SplitResult} (hok : adapterResponse lib request native = .ok response)
    (hredirect : response.isRedirect lib) : (native.toNative lib parsed).isRedirect lib.toStdlib = true := by
  obtain ⟨-, -, -, hheaders, hstatus⟩ := exists_of_adapterResponse_ok hok
  rw [Response.isRedirect, hheaders, hstatus, Bool.and_eq_true, Option.isSome_iff_exists] at hredirect
  obtain ⟨⟨value, hlocation⟩, hstatus⟩ := hredirect
  obtain ⟨item, hitem, hname⟩ := exists_of_getItem_joinedHeaders hlocation
  have hlower : lib.lower "location".toList = "location".toList := lib.lower_of_all (by decide)
  rw [NativeResponse.isRedirect, Bool.and_eq_true, List.any_eq_true]
  exact ⟨⟨item, hitem, decide_eq_true (hname.trans hlower)⟩, hstatus⟩

variable {allowRedirects : Bool} {maxRedirects history : ℕ} {jar cookies : RequestsCookieJar}
  {first : NativeResponse} {rest : List NativeResponse}

/-- Whatever `sendLoop` does after its last response, the cookies of that are in the jar. -/
theorem sendLoop_singleton (hok : responseCookies lib.toStdlib first = .ok cookies) :
    (sendLoop lib.toStdlib allowRedirects maxRedirects history jar [first]).2 = jar.update cookies := by
  rw [sendLoop, hok]
  dsimp only
  split_ifs
  · rfl
  · rfl
  · rfl

/-- The loop over given responses follows a redirect. -/
theorem sendLoop_redirect (hok : responseCookies lib.toStdlib first = .ok cookies)
    (hredirect : first.isRedirect lib.toStdlib = true) (hlimit : history + 1 ≤ maxRedirects) :
    sendLoop lib.toStdlib true maxRedirects history jar (first :: rest) =
      sendLoop lib.toStdlib true maxRedirects (history + 1) (jar.update cookies) rest := by
  rw [sendLoop, hok]
  dsimp only
  rw [hredirect, if_neg (by decide), if_neg (by omega)]

end SendLoop

section Simulation

variable {lib : WebLib} {engine : ExecuteRequest} {request : PreparedRequest} {more : List PreparedRequest}
  {start : ℕ}

/-- The exchanges of the first request and the rest. -/
theorem exchangesOf_cons : exchangesOf engine (request :: more) start =
    ((engine start request).toOption.map fun native => (request, native)).toList ++
      exchangesOf engine more (start + 1) := by
  rw [exchangesOf, List.zipIdx_cons, exchangesOf]
  cases hengine : engine start request with
  | error err => simp [Except.toOption, hengine]
  | ok native => simp [Except.toOption, hengine]

/-- A response is the next one for `sendLoop`. -/
theorem nativesOf_of_ok (more : List PreparedRequest) {response : Response}
    (hok : tlsClientAdapter lib engine start request = .ok response) :
    ∃ native parsed, adapterResponse lib request native = .ok response ∧
      responseCookies lib.toStdlib (native.toNative lib parsed) = .ok response.cookies ∧
      nativesOf lib (exchangesOf engine (request :: more) start) =
        native.toNative lib parsed :: nativesOf lib (exchangesOf engine more (start + 1)) := by
  obtain ⟨native, hengine, hadapter⟩ := Fallible.bind_eq_ok_iff.mp hok
  obtain ⟨parsed, hparsed, hcookies, -, -⟩ := exists_of_adapterResponse_ok hadapter
  refine ⟨native, parsed, hadapter, hcookies, ?_⟩
  rw [exchangesOf_cons, hengine]
  simp [nativesOf, Except.toOption, hparsed]

/-- Without a response `sendLoop` leaves the jar. -/
theorem sendLoop_of_error {err : SendError} (herror : tlsClientAdapter lib engine start request = .error err)
    (allowRedirects : Bool) (maxRedirects history : ℕ) (jar : RequestsCookieJar) :
    (sendLoop lib.toStdlib allowRedirects maxRedirects history jar
      (nativesOf lib (exchangesOf engine [request] start))).2 = jar := by
  rw [tlsClientAdapter] at herror
  cases hengine : engine start request with
  | error err =>
    have hexchanges : exchangesOf engine [request] start = [] := by
      rw [exchangesOf_cons, hengine]
      rfl
    rw [hexchanges]
    rfl
  | ok native =>
    have hexchanges : exchangesOf engine [request] start = [(request, native)] := by
      rw [exchangesOf_cons, hengine]
      rfl
    rw [hengine] at herror
    rw [hexchanges]
    -- the response fails before the loop sees it, or in the loop's first step
    rcases of_adapterResponse_error herror with ⟨err, hparsed⟩ | ⟨parsed, hparsed, err, hcookies⟩
    · have hnatives : nativesOf lib [(request, native)] = [] := by simp [nativesOf, Except.toOption, hparsed]
      rw [hnatives]
      rfl
    · have hnatives : nativesOf lib [(request, native)] = [native.toNative lib parsed] := by
        simp [nativesOf, Except.toOption, hparsed]
      rw [hnatives, sendLoop, hcookies]

/-- From the state of a round on, `send` makes of the jar what `sendLoop` makes of it with the responses to come. -/
def Simulated (lib : WebLib) (engine : ExecuteRequest) (allowRedirects : Bool) (maxRedirects : ℕ) (s : SendState)
    (outcome : SendOutcome) : Prop :=
  ∃ more, outcome.sent = s.sent ++ more ∧ outcome.cookies =
    (sendLoop lib.toStdlib allowRedirects maxRedirects s.history.length s.cookies
      (nativesOf lib (exchangesOf engine more s.sent.length))).2

variable {allowRedirects : Bool} {maxRedirects : ℕ}

/-- A round that ends is simulated. -/
theorem simulated_done (s : SendState) (outcome : SendOutcome)
    (hround : ((httpSession (tlsClientAdapter lib engine) maxRedirects).loop lib allowRedirects).step s = .inl outcome) :
    Simulated lib engine allowRedirects maxRedirects s outcome := by
  rcases RequestsSession.round_eq_inl hround with hlast | ⟨adapter, err, hadapter, herror, hlast⟩ |
    ⟨response, history, hanswers, hlast⟩
  · refine ⟨[], ?_, ?_⟩
    · rw [hlast, List.append_nil]
    · rw [hlast]
      rfl
  -- the request was sent and has no response
  · obtain rfl := eq_of_getAdapter_httpSession hadapter
    refine ⟨[s.current], ?_, ?_⟩
    · rw [hlast]
      rfl
    · rw [hlast, sendLoop_of_error herror]
      rfl
  -- the cookies of the last response are in the jar, however the loop ends
  · obtain ⟨native, parsed, -, hcookies, hnatives⟩ := nativesOf_of_ok [] (of_answers_httpSession hanswers)
    refine ⟨[s.current], ?_, ?_⟩
    · rw [hlast]
      rfl
    · rw [hlast, hnatives]
      exact (sendLoop_singleton hcookies).symm

/-- A round before a simulated end is simulated. -/
theorem simulated_next (s s' : SendState) (outcome : SendOutcome)
    (hround : ((httpSession (tlsClientAdapter lib engine) maxRedirects).loop lib allowRedirects).step s = .inr s')
    (hsimulated : Simulated lib engine allowRedirects maxRedirects s' outcome) :
    Simulated lib engine allowRedirects maxRedirects s outcome := by
  obtain ⟨response, next, hanswers, hredirect, rfl, -, hlimit, rfl⟩ := RequestsSession.round_eq_inr hround
  obtain ⟨more, hsent, hcookies⟩ := hsimulated
  obtain ⟨native, parsed, hok, hresponse, hnatives⟩ := nativesOf_of_ok more (of_answers_httpSession hanswers)
  have hbound : s.history.length + 1 ≤ maxRedirects := by
    have hmax : (httpSession (tlsClientAdapter lib engine) maxRedirects).maxRedirects = maxRedirects := rfl
    rw [hmax] at hlimit
    omega
  refine ⟨s.current :: more, ?_, ?_⟩
  · rw [hsent, SendState.sent_remember, SendState.sent_receive, List.append_assoc, List.singleton_append]
  · rw [hcookies, SendState.length_remember, SendState.history_receive, SendState.sent_remember,
      SendState.sent_receive, List.length_append, List.length_singleton, hnatives,
      sendLoop_redirect hresponse (isRedirect_of_adapterResponse hok hredirect) hbound]
    rfl

end Simulation

/-- `sendLoop` with the responses of a call leaves the jar that the call does. -/
theorem cookies_outcome_eq_sendLoop (lib : WebLib) (cookies : RequestsCookieJar) (call : SessionCall) {n : ℕ}
    (hmax : call.maxRedirects = n) :
    (call.outcome lib cookies).cookies = (sendLoop lib.toStdlib call.allowRedirects n 0 cookies
      (nativesOf lib (exchangesOf call.engine (call.outcome lib cookies).sent))).2 := by
  have hsimulated : Simulated lib call.engine call.allowRedirects n { cookies := cookies, current := call.request }
      (call.outcome lib cookies) := by
    rw [SessionCall.outcome, hmax]
    exact run_induction simulated_done simulated_next _
  obtain ⟨more, hsent, hcookies⟩ := hsimulated
  rw [List.nil_append] at hsent
  rw [hsent]
  exact hcookies

/-- While the responses of a call keep to their domains, the session sends no host a cookie that it did not have
before the call and that no response was allowed to set for the host. -/
theorem permitted_of_outcome {lib : WebLib} {cookies : RequestsCookieJar} {call : SessionCall} {n : ℕ} {below : Bool}
    (hmax : call.maxRedirects = n)
    (hclean : ∀ native ∈ nativesOf lib (exchangesOf call.engine (call.outcome lib cookies).sent),
      Clean lib.toStdlib below native) {item : CookieKey × Text} {parsed : SplitUrl}
    (hsent : item ∈ sentCookies lib.toStdlib (call.outcome lib cookies).cookies parsed) (hnew : item ∉ cookies.items) :
    ∃ native ∈ nativesOf lib (exchangesOf call.engine (call.outcome lib cookies).sent),
      Permitted lib.toStdlib below native item.1 (parsed.host lib.toStdlib) := by
  rw [cookies_outcome_eq_sendLoop lib cookies call hmax] at hsent
  exact permitted_of_mem_sendLoop hclean hsent hnew

end TlsClient.Compat
