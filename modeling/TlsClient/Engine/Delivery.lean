import TlsClient.Library.DeferRecover
import TlsClient.Response.Body

/-!
# Delivering the result of a request

Embeds `executeRequestFromConfig`, `ExecuteRequest` and `RequestAsync` (`src/cffi_binding/main.go`) with
their deferred calls. The operations on the way of a request are named as points; `Env` says what each of
them does, and whether it panics. `C.malloc` of a `ResponseResult` always succeeds, as cgo's does.

`executeRequestFromConfig` recovers and records the panic in its `result`, but its own result has no name,
so a panic before the `return` makes it return NULL. `delivery_iff` says for both exported forms when the
caller gets the one result of its request all the same.
-/

namespace TlsClient.Engine.Delivery

open TlsClient.Ffi TlsClient.Response DeferRecover Code

/-- Where the processing of a request may panic. -/
inductive Point where
  /-- the struct literal of `requestConfigFromOptions` -/
  | readOptions
  /-- the deep copies after it -/
  | copyOptions
  | obtainClient
  | newRequest
  | setHeaders
  | addCookies
  | doRequest
  | decompress
  | readBody
  | copyStrings
  | packArena
  | closeBody
  | freeCustomTLSClient
  | callback
deriving DecidableEq

/-- The fields of `requestConfig` that are read here. -/
structure RequestConfig where
  /-- a custom TLS client has been copied to the C heap -/
  customTLSClient : Bool
  read : ReadConfig

/-- What the operations on the way of a request do. -/
structure Env where
  panicsAt : Point → Option String
  codecs : Codecs
  malloc : ℕ → Bool
  file : StreamFile
  /-- `getOrCreateClientFromConfig` -/
  client : Except String Unit
  /-- `http.NewRequest` -/
  request : Except String Unit
  /-- `client.Do` -/
  response : Except String HttpResponse

/-- The C heap as far as the request uses it, and what the caller sees. -/
structure Process where
  /-- the `ResponseResult`s allocated for the request; `none` has been freed -/
  results : List (Option ResponseResult) := []
  /-- the texts of the panics that have been recovered -/
  recovered : List String := []
  /-- what the callback has been invoked with -/
  delivered : List (Option ℕ) := []
  /-- the argument of the goroutine that has been started -/
  dispatched : Option (Option RequestConfig) := none

variable {ρ α : Type}

def newResult : Code Process String ρ ℕ := do
  let result ← Code.read fun s => s.results.length
  modify fun s => { s with results := s.results ++ [some {}] }
  return result

def update (result : ℕ) (f : ResponseResult → ResponseResult) : Code Process String ρ Unit :=
  modify fun s => { s with results := s.results.modify result (Option.map f) }

/-- What a `recover` has stopped. -/
def note (text : String) : Code Process String ρ Unit :=
  modify fun s => { s with recovered := s.recovered ++ [text] }

def newErrorResponse (message : String) : Code Process String ρ ℕ := do
  let result ← newResult
  update result fun r => { r with errMsg := some message }
  return result

/-- `result.err_msg = C.CString(text); result.status_code = 0`. -/
def setPanic (result : ℕ) (text : String) : Code Process String ρ Unit :=
  update result fun r => { r with errMsg := some text, statusCode := 0 }

def Env.point (env : Env) (p : Point) [Inhabited ρ] : Code Process String ρ Unit :=
  match env.panicsAt p with
  | some msg => raise msg
  | none => pure ()

/-- `if err != nil { result.err_msg = …; return result }`. -/
def orReturn (result : ℕ) (text : String) : Except String α → Code Process String (Option ℕ) α
  | .ok a => pure a
  | .error err => do
    update result fun r => { r with errMsg := some (text ++ err) }
    ret (some result)

/-- What `executeRequestFromConfig` does with its response, up to the `return`. -/
def readResponse (env : Env) (cfg : RequestConfig) (result : ℕ) (resp : HttpResponse) :
    Code Process String (Option ℕ) Unit := do
  env.point .decompress
  env.point .readBody
  let (body, bodyLen) ← orReturn result ""
    (readResponseBody env.malloc env.file cfg.read (responseReader env.codecs cfg.read resp) resp.contentLength)
  update result fun r => { r with body := body, bodyLen := bodyLen, statusCode := resp.statusCode }
  env.point .copyStrings
  update result fun r => { r with targetUrl := resp.requestUrl, usedProtocol := some resp.proto }
  env.point .packArena
  update result (packResponseArena env.malloc resp.header resp.cookies)
  ret (some result)

/-- The statements of `executeRequestFromConfig` after the registration of its handler. -/
def fillResult (env : Env) (cfg : Option RequestConfig) (result : ℕ) :
    Code Process String (Option ℕ) Unit := do
  match cfg with
  | none => raise "runtime error: invalid memory address or nil pointer dereference"
  | some cfg =>
    env.point .obtainClient
    orReturn result "failed to obtain client: " env.client
    env.point .newRequest
    orReturn result "failed to create request: " env.request
    env.point .setHeaders
    env.point .addCookies
    env.point .doRequest
    let resp ← orReturn result "request failed: " env.response
    deferring (env.point .closeBody) (readResponse env cfg result resp)

/-- The handler of `executeRequestFromConfig`. -/
def recordPanic (result : ℕ) (r : String) : Code Process String (Option ℕ) Unit := do
  note ("go panic: " ++ r)
  setPanic result ("go panic: " ++ r)

/-- `executeRequestFromConfig`. -/
def executeRequestFromConfig (env : Env) (cfg : Option RequestConfig) :
    Code Process String (Option ℕ) Unit := do
  let result ← newResult
  recovering (recordPanic result) (fillResult env cfg result)

/-- `requestConfigFromOptions`: its handler frees the copies and panics again. -/
def requestConfigFromOptions (env : Env) (opts : RequestConfig) :
    Code Process String (Option RequestConfig) Unit := do
  env.point .readOptions
  recovering (fun r => raise r) do
    env.point .copyOptions
    ret (some opts)

/-- The handler of `ExecuteRequest`, with its named result. -/
def recoverResult (r : String) (result : Option ℕ) : Code Process String (Option ℕ) (Option ℕ) := do
  note ("go panic: " ++ r)
  match result with
  | none => return some (← newErrorResponse ("go panic: " ++ r))
  | some result =>
    setPanic result ("go panic: " ++ r)
    return some result

/-- `ExecuteRequest`. -/
def executeRequest (env : Env) (opts : Option RequestConfig) : Code Process String (Option ℕ) Unit :=
  recoveringNamed recoverResult do
    match opts with
    | none => ret (some (← newErrorResponse "RequestOptions pointer is nil"))
    | some opts =>
      let cfg ← call (requestConfigFromOptions env opts)
      match cfg with
      | none => ret (some (← newErrorResponse "failed to copy RequestOptions"))
      | some cfg =>
        if cfg.customTLSClient then
          deferring (env.point .freeCustomTLSClient) do
            ret (← call (executeRequestFromConfig env (some cfg)))
        else ret (← call (executeRequestFromConfig env (some cfg)))

/-- `C.invoke_async_callback`. -/
def invokeAsyncCallback (env : Env) [Inhabited ρ] (result : ℕ) : Code Process String ρ Unit := do
  modify fun s => { s with delivered := s.delivered ++ [some result] }
  env.point .callback

/-- The handlers of `RequestAsync`: an error result goes to the callback. -/
def deliverPanic (env : Env) [Inhabited ρ] (text : String) : Code Process String ρ Unit := do
  note text
  let result ← newErrorResponse text
  invokeAsyncCallback env result

/-- `RequestAsync`. -/
def requestAsync (env : Env) (opts : Option RequestConfig) (cb : Bool) : Code Process String ℤ Unit :=
  match opts, cb with
  | some opts, true =>
    recovering (fun r => deliverPanic env ("go panic in RequestAsync: " ++ r)) do
      let cfg ← call (requestConfigFromOptions env opts)
      modify fun s => { s with dispatched := some cfg }
      ret 0
  | _, _ => ret (-1)

/-- The goroutine that `RequestAsync` starts. -/
def goroutine (env : Env) (cfg : Option RequestConfig) : Code Process String Unit Unit :=
  deferring (if cfg.any (·.customTLSClient) then env.point .freeCustomTLSClient else pure ()) <|
    recovering (fun r => deliverPanic env ("go panic in async goroutine: " ++ r)) do
      let result ← call (executeRequestFromConfig env cfg)
      match result with
      | none => invokeAsyncCallback env (← newErrorResponse "async request: internal allocation failure")
      | some result => invokeAsyncCallback env result

/-- How a request has ended for its caller. -/
structure Outcome where
  /-- the panic that nothing has recovered -/
  crash : Option String
  /-- the results that have reached the caller -/
  got : List (Option ℕ)
  process : Process

/-- A request through `ExecuteRequest`. -/
def runSync (env : Env) (opts : Option RequestConfig) : Outcome :=
  match executeRequest env opts {} with
  | (.next _, s) => ⟨none, [none], s⟩
  | (.returned r, s) => ⟨none, [r], s⟩
  | (.panicking e _, s) => ⟨some e, [], s⟩

/-- A request through `RequestAsync`, with the goroutine it starts. -/
def runAsync (env : Env) (opts : Option RequestConfig) (cb : Bool) : Outcome :=
  match requestAsync env opts cb {} with
  | (.panicking e _, s) => ⟨some e, s.delivered, s⟩
  | (_, s) =>
    match s.dispatched with
    | none => ⟨none, s.delivered, s⟩
    | some cfg =>
      match goroutine env cfg s with
      | (.panicking e _, s') => ⟨some e, s'.delivered, s'⟩
      | (_, s') => ⟨none, s'.delivered, s'⟩

/-- One result has reached the caller, no other is left allocated, and it carries the text of each panic
that has been recovered. -/
def Outcome.Delivered (o : Outcome) : Prop :=
  o.crash = none ∧ ∃ result r, o.got = [some result] ∧ o.process.results[result]? = some (some r) ∧
    (∀ other r', o.process.results[other]? = some (some r') → other = result) ∧
    ∀ text ∈ o.process.recovered, r.errMsg = some text

/-! ## When the result is delivered -/

/-- The points that `executeRequestFromConfig` comes to before its `return`. -/
def Env.reached (env : Env) (cfg : RequestConfig) : List Point :=
  .obtainClient :: match env.client with
  | .error _ => []
  | .ok () => .newRequest :: match env.request with
    | .error _ => []
    | .ok () => .setHeaders :: .addCookies :: .doRequest :: match env.response with
      | .error _ => []
      | .ok resp =>
        .decompress :: .readBody ::
          match readResponseBody env.malloc env.file cfg.read (responseReader env.codecs cfg.read resp)
            resp.contentLength with
          | .error _ => []
          | .ok _ => [.copyStrings, .packArena]

/-- The panic of the deferred `resp.Body.Close()`, which only a response registers. -/
def Env.closePanic (env : Env) : Option String :=
  match env.client, env.request, env.response with
  | .ok (), .ok (), .ok _ => env.panicsAt .closeBody
  | _, _, _ => none

/-- The options are copied without a panic. -/
def Env.Copied (env : Env) : Prop :=
  env.panicsAt .readOptions = none ∧ env.panicsAt .copyOptions = none

/-- Nothing panics in `executeRequestFromConfig` before its `return`. -/
def Env.Filled (env : Env) (cfg : RequestConfig) : Prop :=
  ∀ p ∈ env.reached cfg, env.panicsAt p = none

/-- The condition for `ExecuteRequest`. -/
def Env.SyncOk (env : Env) (cfg : RequestConfig) : Prop :=
  env.Copied → env.Filled cfg ∧ ∀ msg msg', env.closePanic = some msg → cfg.customTLSClient = true →
    env.panicsAt .freeCustomTLSClient = some msg' → msg = msg'

/-- The condition for `RequestAsync`. -/
def Env.AsyncOk (env : Env) (cfg : RequestConfig) : Prop :=
  env.panicsAt .callback = none ∧
    (env.Copied → env.Filled cfg ∧ (cfg.customTLSClient = true → env.panicsAt .freeCustomTLSClient = none))

variable {env : Env} {cfg : RequestConfig} {s s' : Process} {pts : List Point} {close : Option String}

/-- The process with one more result. -/
def Process.alloc (s : Process) (r : ResponseResult) : Process :=
  { s with results := s.results ++ [some r] }

def Process.noted (s : Process) (text : String) : Process :=
  { s with recovered := s.recovered ++ [text] }

theorem newResult_apply : (newResult : Code Process String ρ ℕ) s = (.next s.results.length, s.alloc {}) := rfl

theorem note_apply (text : String) : (note text : Code Process String ρ Unit) s = (.next (), s.noted text) := rfl

/-- What is written into the newest result. -/
theorem update_alloc (f : ResponseResult → ResponseResult) (r : ResponseResult) :
    (update s.results.length f : Code Process String ρ Unit) (s.alloc r) = (.next (), s.alloc (f r)) := by
  have hmodify : (s.results ++ [some r]).modify s.results.length (Option.map f) = s.results ++ [some (f r)] := by
    rw [List.modify_eq_take_cons_drop (by simp)]
    simp
  rw [update, modify_apply, Process.alloc, Process.alloc, hmodify]

theorem newErrorResponse_apply (message : String) : (newErrorResponse message : Code Process String ρ ℕ) s =
    (.next s.results.length, s.alloc { errMsg := some message }) := by
  rw [newErrorResponse, bind_next newResult_apply, bind_next (update_alloc _ _), pure_apply]

/-- A point that does not panic does nothing. -/
theorem point_none [Inhabited ρ] {p : Point} (h : env.panicsAt p = none) :
    (env.point p : Code Process String ρ Unit) s = (.next (), s) := by
  rw [Env.point, h]
  rfl

/-- A point that panics. -/
theorem point_some [Inhabited ρ] {p : Point} {msg : String} (h : env.panicsAt p = some msg) :
    (env.point p : Code Process String ρ Unit) s = (.panicking msg default, s) := by
  rw [Env.point, h]
  rfl

/-! ### The statements of `executeRequestFromConfig` -/

/-- How code that comes to the points `pts`, and has a deferred `Close` that panics with `close`, ends. -/
def Ends (env : Env) (close : Option String) (pts : List Point) (result : ℕ)
    (flow : Flow String (Option ℕ) Unit) : Prop :=
  (∀ p ∈ pts, env.panicsAt p = none) ∧
      (close = none ∧ flow = .returned (some result) ∨ ∃ msg, close = some msg ∧ flow = .panicking msg (some result)) ∨
    (∃ p ∈ pts, env.panicsAt p ≠ none) ∧ ∃ msg, flow = .panicking msg none

/-- Code that only changes the result it has been given. -/
def Runs (env : Env) (s : Process) (close : Option String) (pts : List Point)
    (code : Code Process String (Option ℕ) Unit) : Prop :=
  ∀ r, ∃ flow r', code (s.alloc r) = (flow, s.alloc r') ∧ Ends env close pts s.results.length flow

variable {code : Code Process String (Option ℕ) Unit}

theorem Runs.ret : Runs env s none [] (ret (some s.results.length)) := fun r =>
  ⟨_, r, rfl, .inl ⟨by simp, .inl ⟨rfl, rfl⟩⟩⟩

/-- Writing into the result runs through the points of what follows. -/
theorem Runs.update (h : Runs env s close pts code) (f : ResponseResult → ResponseResult) :
    Runs env s close pts (do update s.results.length f; code) := fun r => by
  rw [bind_next (update_alloc f r)]
  exact h (f r)

/-- One point, and those of what follows. -/
theorem Runs.point (h : Runs env s close pts code) (p : Point) :
    Runs env s close (p :: pts) (do env.point p; code) := fun r => by
  cases hp : env.panicsAt p with
  | some msg =>
    rw [bind_panicking (point_some hp)]
    exact ⟨_, r, rfl, .inr ⟨⟨p, List.mem_cons_self, by simp [hp]⟩, msg, rfl⟩⟩
  | none =>
    rw [bind_next (point_none hp)]
    obtain ⟨flow, r', hcode, hends⟩ := h r
    refine ⟨flow, r', hcode, ?_⟩
    rcases hends with ⟨hpts, hflow⟩ | ⟨⟨q, hq, hpanics⟩, hflow⟩
    · exact .inl ⟨List.forall_mem_cons.mpr ⟨hp, hpts⟩, hflow⟩
    · exact .inr ⟨⟨q, List.mem_cons_of_mem _ hq, hpanics⟩, hflow⟩

theorem Runs.orReturn_ok {a : α} {k : α → Code Process String (Option ℕ) Unit} (text : String)
    (h : Runs env s close pts (k a)) : Runs env s close pts (orReturn s.results.length text (.ok a) >>= k) :=
  fun r => h r

/-- A step that fails returns its error in the result. -/
theorem orReturn_error (text err : String) (r : ResponseResult) :
    (orReturn s.results.length text (.error err) : Code Process String (Option ℕ) α) (s.alloc r) =
      (.returned (some s.results.length), s.alloc { r with errMsg := some (text ++ err) }) := by
  rw [orReturn, bind_next (update_alloc _ _), ret_apply]

/-- A step that fails runs through no more points. -/
theorem Runs.orReturn_error {k : α → Code Process String (Option ℕ) Unit} (text err : String) :
    Runs env s none [] (orReturn s.results.length text (.error err) >>= k) := fun r => by
  rw [bind_returned (Delivery.orReturn_error text err r)]
  exact ⟨_, _, rfl, .inl ⟨by simp, .inl ⟨rfl, rfl⟩⟩⟩

/-- A panic of the deferred `Close` comes after the result slot has been set, or replaces a panic. -/
theorem Runs.deferring (h : Runs env s none pts code) :
    Runs env s (env.panicsAt .closeBody) pts (deferring (env.point .closeBody) code) := fun r => by
  obtain ⟨flow, r', hcode, hends⟩ := h r
  cases hclose : env.panicsAt .closeBody with
  | none =>
    rw [deferring_next hcode (point_none hclose)]
    exact ⟨flow, r', rfl, hends⟩
  | some msg =>
    rcases hends with ⟨hpts, ⟨-, rfl⟩ | ⟨msg', hnone, -⟩⟩ | ⟨hpanics, msg', rfl⟩
    · rw [deferring_returned hcode (point_some hclose)]
      exact ⟨_, r', rfl, .inl ⟨hpts, .inr ⟨msg, rfl, rfl⟩⟩⟩
    · contradiction
    · rw [deferring_panicking hcode (point_some hclose)]
      exact ⟨_, r', rfl, .inr ⟨hpanics, msg, rfl⟩⟩

/-- `fillResult` runs through the points that its config reaches. -/
theorem runs_fillResult : Runs env s env.closePanic (env.reached cfg) (fillResult env (some cfg) s.results.length) := by
  rw [fillResult, Env.reached, Env.closePanic]
  refine .point ?_ _
  cases hclient : env.client with
  | error err => exact .orReturn_error _ _
  | ok client =>
    refine .orReturn_ok _ (.point ?_ _)
    cases hrequest : env.request with
    | error err => exact .orReturn_error _ _
    | ok request =>
      refine .orReturn_ok _ (.point (.point (.point ?_ _) _) _)
      cases hresponse : env.response with
      | error err => exact .orReturn_error _ _
      | ok resp =>
        refine .orReturn_ok _ (.deferring (.point (.point ?_ _) _))
        cases readResponseBody env.malloc env.file cfg.read (responseReader env.codecs cfg.read resp)
          resp.contentLength with
        | error err => exact .orReturn_error _ _
        | ok read => exact .orReturn_ok _ (.update (.point (.update (.point (.update .ret _) _) _) _) _)

/-- What `executeRequestFromConfig` gives its caller, and what it leaves. -/
inductive Executed (env : Env) (cfg : RequestConfig) (s : Process) : Option ℕ → Process → Prop where
  | returned (r : ResponseResult) (hfilled : env.Filled cfg) (hclose : env.closePanic = none) :
    Executed env cfg s (some s.results.length) (s.alloc r)
  /-- the deferred `Close` has panicked -/
  | recovered (r : ResponseResult) (msg : String) (hfilled : env.Filled cfg) (hclose : env.closePanic = some msg)
    (herr : r.errMsg = some ("go panic: " ++ msg)) :
    Executed env cfg s (some s.results.length) ((s.alloc r).noted ("go panic: " ++ msg))
  /-- NULL is returned and the result stays allocated -/
  | lost (r : ResponseResult) (msg : String) (hfilled : ¬env.Filled cfg) :
    Executed env cfg s none ((s.alloc r).noted ("go panic: " ++ msg))

/-- A panic is recorded in the result and in the log. -/
theorem recordPanic_apply (msg : String) (r : ResponseResult) : recordPanic s.results.length msg (s.alloc r) =
    (.next (), (s.alloc { r with errMsg := some ("go panic: " ++ msg), statusCode := 0 }).noted
      ("go panic: " ++ msg)) := by
  rw [recordPanic, bind_next (note_apply _)]
  exact update_alloc (s := s.noted _) _ r

/-- The call makes a result and fills it, and recovers from what panics on the way. -/
theorem call_executeRequestFromConfig [Inhabited ρ] (cfg : Option RequestConfig) (s : Process) :
    (call (executeRequestFromConfig env cfg) : Code Process String ρ (Option ℕ)) s =
      (call (recovering (recordPanic s.results.length) (fillResult env cfg s.results.length)) :
        Code Process String ρ (Option ℕ)) (s.alloc {}) := rfl

/-- The call always returns, with what `Executed` says. -/
theorem executeRequestFromConfig_spec [Inhabited ρ] (env : Env) (cfg : RequestConfig) (s : Process) :
    ∃ result s', (call (executeRequestFromConfig env (some cfg)) : Code Process String ρ (Option ℕ)) s =
      (.next result, s') ∧ Executed env cfg s result s' := by
  obtain ⟨flow, r, hfill, hends⟩ := @runs_fillResult env cfg s {}
  rw [call_executeRequestFromConfig]
  rcases hends with ⟨hpts, ⟨hclose, rfl⟩ | ⟨msg, hclose, rfl⟩⟩ | ⟨⟨p, hp, hpanics⟩, msg, rfl⟩
  · exact ⟨_, _, call_recovering_returned hfill, .returned r hpts hclose⟩
  · exact ⟨_, _, call_recovering_slot hfill (recordPanic_apply msg r), .recovered _ msg hpts hclose rfl⟩
  · exact ⟨_, _, call_recovering_default hfill (recordPanic_apply msg r), .lost _ msg fun hfilled => hpanics (hfilled p hp)⟩

/-- Options that can be copied give their config. -/
theorem requestConfigFromOptions_copied [Inhabited ρ] (h : env.Copied) :
    (call (requestConfigFromOptions env cfg) : Code Process String ρ (Option RequestConfig)) s =
      (.next (some cfg), s) := by
  apply call_returned
  rw [requestConfigFromOptions, bind_next (point_none h.1)]
  apply recoveringNamed_returned
  rw [bind_next (point_none h.2), ret_apply]

/-- Options that cannot be copied panic, with the same text in every state. -/
theorem requestConfigFromOptions_panics [Inhabited ρ] (cfg : RequestConfig) (h : ¬env.Copied) :
    ∃ msg, ∀ s, (call (requestConfigFromOptions env cfg) : Code Process String ρ (Option RequestConfig)) s =
      (.panicking msg default, s) := by
  cases hread : env.panicsAt .readOptions with
  | some msg =>
    refine ⟨msg, fun s => call_panicking (r := none) ?_⟩
    rw [requestConfigFromOptions, bind_panicking (point_some hread)]
    rfl
  | none =>
    cases hcopy : env.panicsAt .copyOptions with
    | none => exact absurd ⟨hread, hcopy⟩ h
    | some msg =>
      refine ⟨msg, fun s => call_panicking (r := none) ?_⟩
      rw [requestConfigFromOptions, bind_next (point_none hread), recovering, recoveringNamed,
        bind_panicking (point_some hcopy)]
      rfl

/-! ### Outcomes -/

/-- The only result has reached the caller. -/
theorem delivered_iff_of_alloc {r : ResponseResult} {p : Process} (hresults : p.results = [some r]) :
    (⟨none, [some 0], p⟩ : Outcome).Delivered ↔ ∀ text ∈ p.recovered, r.errMsg = some text := by
  constructor
  · rintro ⟨-, result, r', hgot, hresult, -, htexts⟩
    obtain rfl : 0 = result := by simpa using hgot
    have hresult : p.results[0]? = some (some r') := hresult
    rw [hresults] at hresult
    obtain rfl : r = r' := by simpa using hresult
    exact htexts
  · intro htexts
    refine ⟨rfl, 0, r, rfl, by rw [hresults]; rfl, fun other r' hother => ?_, htexts⟩
    have hother : p.results[other]? = some (some r') := hother
    rw [hresults, List.getElem?_singleton] at hother
    by_contra hne
    rw [if_neg hne] at hother
    contradiction

/-- A result that stays allocated while another one is delivered. -/
theorem not_delivered_of_lost {o : Outcome} {r : ResponseResult} (hlost : o.process.results[0]? = some (some r))
    (hgot : ∀ result, o.got = [some result] → result ≠ 0) : ¬o.Delivered := by
  rintro ⟨-, result, -, hres, -, honly, -⟩
  exact hgot result hres (honly 0 r hlost).symm

/-! ### `ExecuteRequest` -/

/-- The recovery of `ExecuteRequest` without a result makes a new one. -/
theorem recoverResult_none (msg : String) :
    recoverResult msg none s = (.next (some s.results.length),
      (s.noted ("go panic: " ++ msg)).alloc { errMsg := some ("go panic: " ++ msg) }) := by
  rw [recoverResult, bind_next (note_apply _), bind_next (newErrorResponse_apply _), pure_apply]
  rfl

/-- The recovery of `ExecuteRequest` with a result writes into it. -/
theorem recoverResult_some (msg : String) (r : ResponseResult) :
    recoverResult msg (some s.results.length) (s.alloc r) = (.next (some s.results.length),
      (s.noted ("go panic: " ++ msg)).alloc
        { r with errMsg := some ("go panic: " ++ msg), statusCode := 0 }) := by
  rw [recoverResult, bind_next (note_apply _)]
  exact bind_next (update_alloc (s := s.noted _) _ r)

/-- A sync call that returns hands over exactly its result. -/
theorem runSync_returned {result : Option ℕ} (h : executeRequest env (some cfg) {} = (.returned result, s)) :
    runSync env (some cfg) = ⟨none, [result], s⟩ := by
  rw [runSync, h]

/-- Where the options cannot be copied, the sync call delivers the panic. -/
theorem runSync_of_not_copied (h : ¬env.Copied) : (runSync env (some cfg)).Delivered := by
  obtain ⟨msg, hpanics⟩ := requestConfigFromOptions_panics (ρ := Option ℕ) cfg h
  have hrun : executeRequest env (some cfg) {} = _ :=
    recoveringNamed_panicking (bind_panicking (hpanics {})) (recoverResult_none msg)
  rw [runSync_returned hrun]
  exact (delivered_iff_of_alloc rfl).mpr fun text htext => by
    rw [List.mem_singleton.mp htext]

/-- `ExecuteRequest` gives what `executeRequestFromConfig` gives, unless the release of the custom TLS
client panics; its handler writes the named result. -/
theorem executeRequest_copied (h : env.Copied) {result : Option ℕ}
    (hcall : (call (executeRequestFromConfig env (some cfg)) : Code Process String (Option ℕ) (Option ℕ)) {} =
      (.next result, s)) :
    ((cfg.customTLSClient = true → env.panicsAt .freeCustomTLSClient = none) ∧
      executeRequest env (some cfg) {} = (.returned result, s)) ∨
    ∃ msg, cfg.customTLSClient = true ∧ env.panicsAt .freeCustomTLSClient = some msg ∧
      ∀ result' s', recoverResult msg result s = (.next result', s') →
        executeRequest env (some cfg) {} = (.returned result', s') := by
  have hret : (do ret (← call (executeRequestFromConfig env (some cfg))) : Code Process String (Option ℕ) Unit) {} =
      (.returned result, s) := by rw [bind_next hcall, ret_apply]
  cases hcustom : cfg.customTLSClient with
  | false =>
    refine .inl ⟨fun htrue => by contradiction, ?_⟩
    apply recoveringNamed_returned
    refine (bind_next (requestConfigFromOptions_copied h)).trans ?_
    dsimp only
    rw [if_neg (by rw [hcustom]; simp)]
    exact hret
  -- the deferred `freeCustomTLSClient` runs after the result is already named
  | true =>
    cases hfree : env.panicsAt .freeCustomTLSClient with
    | none =>
      refine .inl ⟨fun _ => rfl, ?_⟩
      apply recoveringNamed_returned
      refine (bind_next (requestConfigFromOptions_copied h)).trans ?_
      dsimp only
      rw [if_pos hcustom]
      exact deferring_next hret (point_none hfree)
    | some msg =>
      refine .inr ⟨msg, rfl, rfl, fun result' s' hrecover => ?_⟩
      refine recoveringNamed_panicking (e := msg) (r := result) ?_ hrecover
      refine (bind_next (requestConfigFromOptions_copied h)).trans ?_
      dsimp only
      rw [if_pos hcustom]
      exact deferring_returned hret (point_some hfree)

theorem panic_text_inj {msg msg' : String} : some ("go panic: " ++ msg) = some ("go panic: " ++ msg') ↔ msg = msg' := by
  rw [Option.some_inj, String.append_right_inj]

/-- Where the options are copied, the sync call delivers exactly under its condition. -/
theorem runSync_of_copied (h : env.Copied) : (runSync env (some cfg)).Delivered ↔ env.SyncOk cfg := by
  obtain ⟨result, s, hcall, hexec⟩ := executeRequestFromConfig_spec (ρ := Option ℕ) env cfg {}
  have hok : env.SyncOk cfg ↔ env.Filled cfg ∧ ∀ msg msg', env.closePanic = some msg →
      cfg.customTLSClient = true → env.panicsAt .freeCustomTLSClient = some msg' → msg = msg' :=
    ⟨fun hsync => hsync h, fun hall _ => hall⟩
  rw [hok]
  rcases executeRequest_copied h hcall with ⟨hfree, hrun⟩ | ⟨msg', hcustom, hfree, hrun⟩
  · rw [runSync_returned hrun]
    cases hexec with
    | returned r hfilled hclose =>
      refine (delivered_iff_of_alloc (r := r) rfl).trans ?_
      refine ⟨fun _ => ⟨hfilled, fun msg msg' hmsg => ?_⟩, fun _ text htext => absurd htext (by simp [Process.alloc])⟩
      rw [hclose] at hmsg
      contradiction
    | recovered r msg hfilled hclose herr =>
      refine (delivered_iff_of_alloc (r := r) rfl).trans ?_
      refine ⟨fun _ => ⟨hfilled, fun m m' _ hcustom hm' => ?_⟩, fun _ text htext => ?_⟩
      · rw [hfree hcustom] at hm'
        contradiction
      · rw [herr, List.mem_singleton.mp htext]
    | lost r msg hfilled =>
      refine iff_of_false (not_delivered_of_lost rfl fun result hgot => ?_) fun hall => hfilled hall.1
      simp at hgot
  · cases hexec with
    | returned r hfilled hclose =>
      rw [runSync_returned (hrun _ _ (recoverResult_some msg' r))]
      refine (delivered_iff_of_alloc rfl).trans ?_
      refine ⟨fun _ => ⟨hfilled, fun m m' hm => ?_⟩, fun _ text htext => ?_⟩
      · rw [hclose] at hm
        contradiction
      · rw [List.mem_singleton.mp htext]
    | recovered r msg hfilled hclose herr =>
      -- two panics are recovered and only one text is left
      rw [runSync_returned (hrun _ _ (recoverResult_some (s := Process.noted {} ("go panic: " ++ msg)) msg' r))]
      refine (delivered_iff_of_alloc rfl).trans ?_
      constructor
      · intro htexts
        have hsame := htexts ("go panic: " ++ msg) (by simp [Process.alloc, Process.noted])
        refine ⟨hfilled, fun m m' hm _ hm' => ?_⟩
        rw [hclose] at hm
        rw [hfree] at hm'
        rw [← Option.some.inj hm, ← Option.some.inj hm']
        exact (panic_text_inj.mp hsame).symm
      · intro hall text htext
        obtain rfl : msg = msg' := hall.2 msg msg' hclose hcustom hfree
        have htext : text = "go panic: " ++ msg := by simpa [Process.alloc, Process.noted] using htext
        rw [htext]
    | lost r msg hfilled =>
      rw [runSync_returned (hrun _ _ (recoverResult_none msg'))]
      refine iff_of_false (not_delivered_of_lost (r := r) rfl fun result hgot => ?_) fun hall => hfilled hall.1
      have hgot : 1 = result := by simpa [Process.alloc, Process.noted] using hgot
      omega

/-- The sync call delivers exactly under its condition. -/
theorem runSync_delivered_iff (env : Env) (cfg : RequestConfig) :
    (runSync env (some cfg)).Delivered ↔ env.SyncOk cfg := by
  by_cases h : env.Copied
  · exact runSync_of_copied h
  · exact iff_of_true (runSync_of_not_copied h) fun hcopied => absurd hcopied h

/-! ### `RequestAsync` -/

def Process.invoked (s : Process) (result : ℕ) : Process :=
  { s with delivered := s.delivered ++ [some result] }

/-- A callback that does not panic has been invoked once. -/
theorem invokeAsyncCallback_none [Inhabited ρ] (h : env.panicsAt .callback = none) (result : ℕ) :
    (invokeAsyncCallback env result : Code Process String ρ Unit) s = (.next (), s.invoked result) :=
  (bind_next (modify_apply _)).trans (point_none h)

/-- A callback that panics has been invoked all the same. -/
theorem invokeAsyncCallback_some [Inhabited ρ] {msg : String} (h : env.panicsAt .callback = some msg) (result : ℕ) :
    (invokeAsyncCallback env result : Code Process String ρ Unit) s = (.panicking msg default, s.invoked result) :=
  (bind_next (modify_apply _)).trans (point_some h)

/-- The process after an error result has gone to the callback. -/
def Process.errored (s : Process) (text : String) : Process :=
  ((s.noted text).alloc { errMsg := some text }).invoked s.results.length

/-- A panic is delivered through the callback. -/
theorem deliverPanic_none [Inhabited ρ] (h : env.panicsAt .callback = none) (text : String) :
    (deliverPanic env text : Code Process String ρ Unit) s = (.next (), s.errored text) := by
  rw [deliverPanic, bind_next (note_apply _), bind_next (newErrorResponse_apply _), invokeAsyncCallback_none h]
  rfl

/-- A panic whose callback panics. -/
theorem deliverPanic_some [Inhabited ρ] {msg : String} (h : env.panicsAt .callback = some msg) (text : String) :
    (deliverPanic env text : Code Process String ρ Unit) s = (.panicking msg default, s.errored text) := by
  rw [deliverPanic, bind_next (note_apply _), bind_next (newErrorResponse_apply _), invokeAsyncCallback_some h]
  rfl

/-- Where the options panic, the async call delivers exactly if the callback does not panic. -/
theorem runAsync_of_panics {msg : String} (hpanics : ∀ s,
    (call (requestConfigFromOptions env cfg) : Code Process String ℤ (Option RequestConfig)) s =
      (.panicking msg default, s)) :
    (runAsync env (some cfg) true).Delivered ↔ env.panicsAt .callback = none := by
  have hbody := bind_panicking (k := fun cfg => do
    modify fun s : Process => { s with dispatched := some cfg }
    (ret 0 : Code Process String ℤ Unit)) (hpanics {})
  cases hcallback : env.panicsAt .callback with
  | none =>
    have hrun : requestAsync env (some cfg) true {} = _ :=
      recoveringNamed_panicking hbody (bind_next (deliverPanic_none hcallback _))
    rw [runAsync, hrun]
    exact iff_of_true ((delivered_iff_of_alloc rfl).mpr fun text htext => by
      rw [List.mem_singleton.mp htext]) rfl
  | some msg' =>
    have hrun : requestAsync env (some cfg) true {} = _ :=
      recovering_panicking hbody (deliverPanic_some hcallback _)
    rw [runAsync, hrun]
    exact iff_of_false (fun hdelivered => by simpa using hdelivered.1) (by simp)

/-- The release of the custom TLS client in the goroutine. -/
theorem freeing_spec (env : Env) (cfg : RequestConfig) (s : Process) :
    ((cfg.customTLSClient = true → env.panicsAt .freeCustomTLSClient = none) ∧
      (if (some cfg).any (·.customTLSClient) then env.point .freeCustomTLSClient else pure () :
        Code Process String Unit Unit) s = (.next (), s)) ∨
    ∃ msg, ¬(cfg.customTLSClient = true → env.panicsAt .freeCustomTLSClient = none) ∧
      (if (some cfg).any (·.customTLSClient) then env.point .freeCustomTLSClient else pure () :
        Code Process String Unit Unit) s = (.panicking msg default, s) := by
  rw [Option.any_some]
  cases hcustom : cfg.customTLSClient with
  | false => exact .inl ⟨fun htrue => by contradiction, rfl⟩
  | true =>
    cases hfree : env.panicsAt .freeCustomTLSClient with
    | none => exact .inl ⟨fun _ => rfl, point_none hfree⟩
    | some msg => exact .inr ⟨msg, fun hnone => by simpa using hnone rfl, point_some hfree⟩

/-- The process of the goroutine when it has invoked the callback with what it has got. -/
def Process.answered (s : Process) : Option ℕ → Process
  | none => (s.alloc { errMsg := some "async request: internal allocation failure" }).invoked s.results.length
  | some result => s.invoked result

/-- The body of the goroutine ends as the callback does. -/
theorem answering_apply {result : Option ℕ} {flow : Flow String Unit Unit}
    (hcall : (call (executeRequestFromConfig env (some cfg)) : Code Process String Unit (Option ℕ)) s =
      (.next result, s'))
    (hinvoke : ∀ {s : Process} (n : ℕ),
      (invokeAsyncCallback env n : Code Process String Unit Unit) s = (flow, s.invoked n)) :
    (do
      let result ← call (executeRequestFromConfig env (some cfg))
      match result with
      | none => invokeAsyncCallback env (← newErrorResponse "async request: internal allocation failure")
      | some result => invokeAsyncCallback env result : Code Process String Unit Unit) s =
        (flow, s'.answered result) := by
  refine (bind_next hcall).trans ?_
  cases result with
  | none => exact (bind_next (newErrorResponse_apply _)).trans (hinvoke _)
  | some result => exact hinvoke _

/-- The goroutine with a callback that does not panic: it answers, unless freeing the custom client panics. -/
theorem goroutine_none {result : Option ℕ}
    (hcall : (call (executeRequestFromConfig env (some cfg)) : Code Process String Unit (Option ℕ)) s =
      (.next result, s')) (hcallback : env.panicsAt .callback = none) :
    ((cfg.customTLSClient = true → env.panicsAt .freeCustomTLSClient = none) ∧
      goroutine env (some cfg) s = (.next (), s'.answered result)) ∨
    ∃ msg slot, ¬(cfg.customTLSClient = true → env.panicsAt .freeCustomTLSClient = none) ∧
      goroutine env (some cfg) s = (.panicking msg slot, s'.answered result) := by
  have hbody := answering_apply hcall (invokeAsyncCallback_none hcallback)
  have hinner := recoveringNamed_next (f := fun e slot => do
    deliverPanic env ("go panic in async goroutine: " ++ e); return slot) hbody
  rcases freeing_spec env cfg (s'.answered result) with ⟨hfree, hd⟩ | ⟨msg, hfree, hd⟩
  · exact .inl ⟨hfree, deferring_next hinner hd⟩
  · obtain ⟨slot, hpanics⟩ := deferring_panics hinner hd
    exact .inr ⟨msg, slot, hfree, hpanics⟩

/-- A callback that panics is invoked once more, and its second panic is not recovered. -/
theorem goroutine_some {result : Option ℕ} {msg : String}
    (hcall : (call (executeRequestFromConfig env (some cfg)) : Code Process String Unit (Option ℕ)) s =
      (.next result, s')) (hcallback : env.panicsAt .callback = some msg) :
    ∃ msg' slot s'', goroutine env (some cfg) s = (.panicking msg' slot, s'') := by
  have hbody := answering_apply hcall (invokeAsyncCallback_some hcallback)
  have hinner := recovering_panicking (f := fun r => deliverPanic env ("go panic in async goroutine: " ++ r))
    hbody (deliverPanic_some hcallback _)
  rcases freeing_spec env cfg ((s'.answered result).errored ("go panic in async goroutine: " ++ msg)) with
    ⟨-, hd⟩ | ⟨msg', -, hd⟩
  · exact ⟨msg, _, _, deferring_next hinner hd⟩
  · obtain ⟨slot, hpanics⟩ := deferring_panics hinner hd
    exact ⟨msg', slot, _, hpanics⟩

/-- The process when the goroutine starts. -/
def Process.started (cfg : RequestConfig) : Process := { dispatched := some (some cfg) }

/-- `RequestAsync` starts its goroutine and returns zero. -/
theorem requestAsync_copied (h : env.Copied) :
    requestAsync env (some cfg) true {} = (.returned 0, Process.started cfg) := by
  apply recoveringNamed_returned
  exact (bind_next (requestConfigFromOptions_copied h)).trans (bind_next (modify_apply _))

/-- Where the options are copied, the async call delivers exactly under its condition. -/
theorem runAsync_of_copied (h : env.Copied) : (runAsync env (some cfg) true).Delivered ↔ env.AsyncOk cfg := by
  obtain ⟨result, s, hcall, hexec⟩ := executeRequestFromConfig_spec (ρ := Unit) env cfg (Process.started cfg)
  have hok : env.AsyncOk cfg ↔ env.panicsAt .callback = none ∧ env.Filled cfg ∧
      (cfg.customTLSClient = true → env.panicsAt .freeCustomTLSClient = none) :=
    ⟨fun hasync => ⟨hasync.1, hasync.2 h⟩, fun hall => ⟨hall.1, fun _ => hall.2⟩⟩
  -- a panic that leaves the goroutine ends the process, so nothing is delivered
  have hcrash : ∀ {msg slot s'}, goroutine env (some cfg) (Process.started cfg) = (.panicking msg slot, s') →
      ¬(runAsync env (some cfg) true).Delivered := fun hpanics hdelivered => by
    rw [runAsync, requestAsync_copied h] at hdelivered
    dsimp only [Process.started] at hdelivered hpanics
    rw [hpanics] at hdelivered
    simpa using hdelivered.1
  rw [hok]
  cases hcallback : env.panicsAt .callback with
  | some msg =>
    obtain ⟨msg', slot, s'', hpanics⟩ := goroutine_some hcall hcallback
    exact iff_of_false (hcrash hpanics) fun hall => by simpa using hall.1
  | none =>
    rcases goroutine_none hcall hcallback with ⟨hfree, hrun⟩ | ⟨msg, slot, hfree, hpanics⟩
    · have hrun : runAsync env (some cfg) true = ⟨none, (s.answered result).delivered, s.answered result⟩ := by
        rw [runAsync, requestAsync_copied h]
        dsimp only [Process.started] at hrun ⊢
        rw [hrun]
      rw [hrun]
      cases hexec with
      -- the three ends of `ExecuteRequest`: its result, the result with the panic's text, nothing
      | returned r hfilled hclose =>
        refine iff_of_true ((delivered_iff_of_alloc (r := r) rfl).mpr fun text htext => ?_) ⟨rfl, hfilled, hfree⟩
        exact absurd htext (by simp [Process.answered, Process.invoked, Process.alloc, Process.started])
      | recovered r msg hfilled hclose herr =>
        refine iff_of_true ((delivered_iff_of_alloc (r := r) rfl).mpr fun text htext => ?_) ⟨rfl, hfilled, hfree⟩
        rw [herr, List.mem_singleton.mp htext]
      | lost r msg hfilled =>
        refine iff_of_false (not_delivered_of_lost (r := r) rfl fun result hgot => ?_) fun hall => hfilled hall.2.1
        have hgot : 1 = result := by
          simpa [Process.answered, Process.invoked, Process.alloc, Process.noted, Process.started] using hgot
        omega
    · exact iff_of_false (hcrash hpanics) fun hall => hfree hall.2.2

/-- The async call delivers exactly under its condition. -/
theorem runAsync_delivered_iff (env : Env) (cfg : RequestConfig) :
    (runAsync env (some cfg) true).Delivered ↔ env.AsyncOk cfg := by
  by_cases h : env.Copied
  · exact runAsync_of_copied h
  · obtain ⟨msg, hpanics⟩ := requestConfigFromOptions_panics (ρ := ℤ) cfg h
    rw [runAsync_of_panics hpanics]
    exact ⟨fun hcallback => ⟨hcallback, fun hcopied => absurd hcopied h⟩, And.left⟩

/-- The caller gets the one result of a request, with the texts of the panics recovered, exactly if nothing
panics in `executeRequestFromConfig` before its `return`; two panics after it are not both kept by
`ExecuteRequest`, and `RequestAsync` survives neither of its callback nor of its last deferred call. -/
theorem delivery_iff (env : Env) (cfg : RequestConfig) :
    ((runSync env (some cfg)).Delivered ↔ env.SyncOk cfg) ∧
      ((runAsync env (some cfg) true).Delivered ↔ env.AsyncOk cfg) :=
  ⟨runSync_delivered_iff env cfg, runAsync_delivered_iff env cfg⟩

/-- A request whose `client.Do` panics. -/
def panickingDo : Env where
  panicsAt p := if p = .doRequest then some "boom" else none
  codecs := ⟨id, id, id, id, id⟩
  malloc _ := true
  file := ⟨none, none⟩
  client := .ok ()
  request := .ok ()
  response := .error "unreachable"

/-- `ExecuteRequest` returns NULL, the callback gets another text, and the result is lost in both forms. -/
theorem delivery_lost :
    let cfg : RequestConfig := ⟨false, ⟨false, [], []⟩⟩
    ((runSync panickingDo (some cfg)).got = [none] ∧ ¬(runSync panickingDo (some cfg)).Delivered) ∧
      (runAsync panickingDo (some cfg) true).process.results =
        [some { errMsg := some "go panic: boom" },
          some { errMsg := some "async request: internal allocation failure" }] ∧
      (runAsync panickingDo (some cfg) true).got = [some 1] ∧
      ¬(runAsync panickingDo (some cfg) true).Delivered := by
  refine ⟨⟨rfl, ?_⟩, rfl, rfl, ?_⟩
  · rintro ⟨-, result, r, hgot, -⟩
    have hgot : [none] = [some result] := hgot
    simp at hgot
  · rintro ⟨-, result, r, hgot, -, honly, -⟩
    have hgot : [some 1] = [some result] := hgot
    have hzero : 0 = result := honly 0 { errMsg := some "go panic: boom" } rfl
    simp [← hzero] at hgot

/-! ### The content of the result -/

/-- How the exchange of a request ends. -/
def Env.exchange (env : Env) : Exchange :=
  match env.client, env.request, env.response with
  | .error msg, _, _ => .clientError msg
  | .ok (), .error msg, _ => .requestError msg
  | .ok (), .ok (), .error msg => .doError msg
  | .ok (), .ok (), .ok resp => .response resp

/-- Without panics a response is read as `Response.executeRequestFromConfig` reads it. -/
theorem readResponse_content (h : ∀ p, env.panicsAt p = none) (resp : HttpResponse) :
    readResponse env cfg s.results.length resp (s.alloc {}) = (.returned (some s.results.length),
      s.alloc (Response.executeRequestFromConfig env.codecs env.malloc env.file cfg.read (.response resp))) := by
  rw [readResponse, bind_next (point_none (h _)), bind_next (point_none (h _)), Response.executeRequestFromConfig]
  cases readResponseBody env.malloc env.file cfg.read (responseReader env.codecs cfg.read resp)
    resp.contentLength with
  | error err =>
    refine (bind_returned (orReturn_error "" err _)).trans ?_
    rw [String.empty_append]
  | ok read =>
    refine (bind_next (a := read) rfl).trans ((bind_next (update_alloc _ _)).trans ?_)
    rw [bind_next (point_none (h _)), bind_next (update_alloc _ _), bind_next (point_none (h _)),
      bind_next (update_alloc _ _), ret_apply]

/-- Without panics the result that is returned is the one that `Response.executeRequestFromConfig` gives. -/
theorem executeRequestFromConfig_content [Inhabited ρ] (h : ∀ p, env.panicsAt p = none) (s : Process) :
    (call (executeRequestFromConfig env (some cfg)) : Code Process String ρ (Option ℕ)) s =
      (.next (some s.results.length),
        s.alloc (Response.executeRequestFromConfig env.codecs env.malloc env.file cfg.read env.exchange)) := by
  have hfill : fillResult env (some cfg) s.results.length (s.alloc {}) = (.returned (some s.results.length),
      s.alloc (Response.executeRequestFromConfig env.codecs env.malloc env.file cfg.read env.exchange)) := by
    rw [fillResult, bind_next (point_none (h _)), Env.exchange]
    cases env.client with
    | error err => exact bind_returned (orReturn_error _ _ _)
    | ok client =>
      refine (bind_next (a := client) rfl).trans ((bind_next (point_none (h _))).trans ?_)
      cases env.request with
      | error err => exact bind_returned (orReturn_error _ _ _)
      | ok request =>
        refine (bind_next (a := request) rfl).trans ?_
        rw [bind_next (point_none (h _)), bind_next (point_none (h _)), bind_next (point_none (h _))]
        cases env.response with
        | error err => exact bind_returned (orReturn_error _ _ _)
        | ok resp =>
          refine (bind_next (a := resp) rfl).trans ?_
          exact deferring_next (readResponse_content h resp) (point_none (h _))
  rw [call_executeRequestFromConfig]
  exact call_recovering_returned hfill

end TlsClient.Engine.Delivery
