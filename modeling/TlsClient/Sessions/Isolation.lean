import TlsClient.Compat.Timeouts
import TlsClient.Engine.CookieCrumb
import TlsClient.Sessions.Shared

/-!
# The cookies of a compat session

A `Session` of `src/tls_client/requests_compat.py` keeps its cookies itself and writes them into the headers of its
requests, so its native session is meant to have no jar: `options.setdefault("without_cookie_jar", True)`. But the
option is a parameter of `Session` that is always there, and false. The engine's jar belongs to a client of the pool,
and sessions with equal options have one client: what the one receives, the other sends (`exists_leak`).

Without a jar the `Cookie` header of a request is what its session has put into it (`cookies_isolated`).
-/

namespace TlsClient.Sessions

open TlsClient.Ffi TlsClient.Engine TlsClient.Python Utf8

/-! ## The Cookie header -/

/-- The `Cookie` header with which a request goes out, if the jar adds the given cookies. -/
def cookieHeader (go : ToLower) (write : Cookie → Bytes) (cfg : RequestConfig) (added : List Cookie) :
    Option (List Bytes) :=
  let own := cfg.requestCookies.map fun (name, value) => { name := name, value := value }
  ((own ++ added).foldl (addCookie write) (doHeader go cfg)).lookup (utf8 "Cookie")

/-- A cookie that the jar adds shows in the header. -/
theorem cookieHeader_singleton_ne {go : ToLower} {write : Cookie → Bytes} (cfg : RequestConfig) {c : Cookie}
    (hwrite : write c ≠ []) : cookieHeader go write cfg [c] ≠ cookieHeader go write cfg [] := by
  rw [cookieHeader, cookieHeader, List.append_nil, List.foldl_append, List.foldl_cons, List.foldl_nil]
  dsimp only
  generalize List.foldl (addCookie write) (doHeader go cfg) _ = header
  rw [addCookie, SortedMap.lookup_set, if_pos rfl]
  cases header.lookup (utf8 "Cookie") with
  | none => exact Option.some_ne_none _
  | some values =>
    intro heq
    cases values with
    | nil => exact absurd (Option.some.inj heq) (List.cons_ne_nil _ _)
    | cons value values =>
      have hvalue := (List.cons.inj (Option.some.inj heq)).1
      rw [Option.bind_some, List.head?_cons, Option.getD_some] at hvalue
      split_ifs at hvalue with hnil
      · exact hwrite (hvalue.trans hnil)
      · have hlength := congrArg List.length hvalue
        have hpos := List.length_pos_iff.mpr hwrite
        rw [List.length_append, List.length_append] at hlength
        omega

/-! ## The native session -/

/-- The native session that a compat `Session` makes for itself. -/
def compatNative (options : RequestOptions) (withoutCookieJar : Bool := false) : Python.Session :=
  let options := { options with withoutCookieJar := some withoutCookieJar }
  -- `options.setdefault("without_cookie_jar", True)`
  { defaults := { options with withoutCookieJar := options.withoutCookieJar.or (some true) } }

/-- The config with which a request of a native session reaches the engine. -/
def configOf (lib : Library) (sha256 : Bytes → Bytes) (native : Python.Session) (o : Overrides) (args : RequestArgs) :
    Except PyError RequestConfig := do
  let resolved ← native.executeRequest lib o args.url
  let opts ← marshal lib sha256 resolved args
  return requestConfigFromOptions opts

/-- The engine keeps no cookies for a compat session that asks for that itself, for all its requests or for one. -/
theorem withoutCookieJar_configOf {lib : Library} {sha256 : Bytes → Bytes} {options : RequestOptions}
    {withoutCookieJar : Bool} {o : Overrides} {args : RequestArgs} {cfg : RequestConfig}
    (hok : configOf lib sha256 (compatNative options withoutCookieJar) o args = .ok cfg) :
    cfg.withoutCookieJar = o.withoutCookieJar.getD withoutCookieJar := by
  obtain ⟨resolved, hresolve, hok⟩ := Fallible.bind_eq_ok_iff.mp hok
  obtain ⟨opts, hmarshal, hok⟩ := Fallible.bind_eq_ok_iff.mp hok
  obtain rfl := Except.ok.inj hok
  obtain ⟨-, hresolved⟩ := sync_eq_ok_iff.mp hresolve
  have hkept : resolved.withoutCookieJar = valFlag o.withoutCookieJar (some withoutCookieJar) := by
    rw [hresolved, finish, pairDefaultHeaders, degradeAbi3Fields]
    split_ifs <;> rfl
  obtain ⟨-, p, -, rfl⟩ := CacheKey.marshal_eq_ok_iff.mp hmarshal
  have hflag : (requestConfigFromOptions (fillRequestOptions resolved args (hexText (sha256 p)))).withoutCookieJar =
      resolved.withoutCookieJar := by
    cases hw : resolved.withoutCookieJar <;> simp [requestConfigFromOptions, fillRequestOptions, flag, hw]
  rw [hflag, hkept, valFlag]
  cases o.withoutCookieJar <;> rfl

/-! ## A session without a jar -/

/-- The condition on a step: a session's call gets a client without a jar. -/
def Jarless (sha256 : Bytes → Bytes) (who : ℕ) (s : State) : Action → Prop
  | .acquire other i _ => other = who → ∀ call, (s.calls who)[i]? = some call → FindsJar sha256 s call.cfg true
  | _ => True

/-- No jar has added a cookie to a request of the session, and none will. -/
structure Own (who : ℕ) (s : State) : Prop where
  valid : Valid s
  sent : ∀ call ∈ s.calls who, ∀ entry ∈ call.sent, entry.2 = []
  client : ∀ call ∈ s.calls who, ∀ id, call.client = .got id →
    ∃ client, s.process.clients[id]? = some client ∧ client.source.withoutCookieJar = true

section Isolation

variable {sha256 : Bytes → Bytes} {kind : ℕ → SessionKind} {who : ℕ} {s : State} {a : Action}

/-- A client without a jar sends no cookies. -/
theorem cookiesOf_of_jarless {id : ℕ} {client : Client} (hclient : s.process.clients[id]? = some client)
    (hjar : client.source.withoutCookieJar = true) (host : Bytes) : cookiesOf s.process id host = [] := by
  have hnone : client.jar = none := by
    have hoptions := client.jar_options
    rw [hjar, if_neg (by decide)] at hoptions
    exact Option.map_eq_none_iff.mp hoptions
  rw [cookiesOf, hclient, Option.bind_some, hnone]
  rfl

/-- A step without a jar keeps the session to its own cookies. -/
theorem own_step (hs : Own who s) (hok : Jarless sha256 who s a) : Own who (step sha256 kind s a) := by
  have hstays : ∀ (id : ℕ) (client : Client), s.process.clients[id]? = some client → client.source.withoutCookieJar = true →
      ∃ client, (step sha256 kind s a).process.clients[id]? = some client ∧
        client.source.withoutCookieJar = true := by
    intro id client hclient hjar
    obtain ⟨client', hclient', hsource⟩ := source_step sha256 kind a hclient
    exact ⟨client', hclient', hsource ▸ hjar⟩
  -- a call of the session is an old one, a new one, or an old one that went on
  refine ⟨valid_step hs.valid, fun call hmem => ?_, fun call hmem id hgot => ?_⟩
  · cases mem_calls_step hmem with
    | kept hold => exact hs.sent call hold
    | made => exact fun entry hentry => absurd hentry List.not_mem_nil
    | acquired hget hpending => exact fun entry hentry => hs.sent _ (List.mem_of_getElem? hget) entry hentry
    | transmitted hget hclient =>
      intro entry hentry
      rcases List.mem_append.mp hentry with hold | hnew
      · exact hs.sent _ (List.mem_of_getElem? hget) entry hold
      · obtain rfl := List.mem_singleton.mp hnew
        obtain ⟨client, hbuilt, hjar⟩ := hs.client _ (List.mem_of_getElem? hget) _ hclient
        exact cookiesOf_of_jarless hbuilt hjar _
  · cases mem_calls_step hmem with
    | kept hold =>
      obtain ⟨client, hclient, hjar⟩ := hs.client call hold id hgot
      exact hstays id client hclient hjar
    | made => contradiction
    | acquired hget hpending =>
      obtain ⟨client, hbuilt, hjar⟩ := exists_client_of_acquired hs.valid (hok rfl _ hget) hgot
      rw [process_acquire hget hpending]
      exact ⟨client, hbuilt, hjar⟩
    | transmitted hget hclient =>
      obtain ⟨client, hbuilt, hjar⟩ := hs.client _ (List.mem_of_getElem? hget) id hgot
      exact hstays id client hbuilt hjar

/-- In a run of such steps it keeps to them. -/
theorem own_exec {as : List Action} (hrun : Run.Along (step sha256 kind) (Jarless sha256 who) {} as) :
    Own who (Run.exec (step sha256 kind) {} as) := by
  have hinit : Own who {} := by
    refine ⟨valid_init, fun call hmem => ?_, fun call hmem => ?_⟩
    · exact absurd hmem List.not_mem_nil
    · exact absurd hmem List.not_mem_nil
  exact Run.invariant_exec (fun _ _ => own_step) hinit hrun

/-- In runs in which the session's calls get clients without a jar, the `Cookie` header of a request depends on what
the session asked the engine for, and not on what other sessions did. -/
theorem cookies_isolated {as bs : List Action} (has : Run.Along (step sha256 kind) (Jarless sha256 who) {} as)
    (hbs : Run.Along (step sha256 kind) (Jarless sha256 who) {} bs) {x y : Call}
    (hx : x ∈ (Run.exec (step sha256 kind) {} as).calls who) (hy : y ∈ (Run.exec (step sha256 kind) {} bs).calls who)
    (hcfg : x.cfg = y.cfg) (go : ToLower) (write : Cookie → Bytes) :
    ∀ u ∈ x.sent, ∀ v ∈ y.sent, cookieHeader go write x.cfg u.2 = cookieHeader go write y.cfg v.2 := by
  intro u hu v hv
  rw [(own_exec has).sent x hx u hu, (own_exec hbs).sent y hy v hv, hcfg]

/-- No client has a jar, and no call asks for one. -/
structure AllJarless (s : State) : Prop where
  clients : ∀ client ∈ s.process.clients, client.source.withoutCookieJar = true
  calls : ∀ who, ∀ call ∈ s.calls who, call.cfg.withoutCookieJar = true

/-- Calls without a jar make no client with one. -/
theorem AllJarless.step (hs : AllJarless s) (ha : ∀ who cfg, a = .call who cfg → cfg.withoutCookieJar = true) :
    AllJarless (step sha256 kind s a) := by
  refine ⟨fun client hmem => ?_, fun who call hmem => ?_⟩
  -- clients are made by `acquire` alone; a response changes cookies, never the configuration
  · rcases process_step_cases sha256 kind s a with ⟨who, i, m, call, -, hget, -, hprocess⟩ |
        ⟨who, i, host, cookies, id, -, -, hprocess⟩ | ⟨hclients, -⟩
    · rw [hprocess] at hmem
      rcases getOrCreate_cases sha256 m call.cfg s.process with ⟨id', -, heq⟩ | ⟨-, err, heq⟩ |
          ⟨-, new, pool, hnew, heq, -, -⟩
      · rw [heq] at hmem
        exact hs.clients client hmem
      · rw [heq] at hmem
        exact hs.clients client hmem
      · rw [heq] at hmem
        rcases List.mem_append.mp hmem with hold | hnew'
        · exact hs.clients client hold
        · obtain rfl := List.mem_singleton.mp hnew'
          rw [newClient_eq_ok hnew]
          exact hs.calls who call (List.mem_of_getElem? hget)
    · rw [hprocess] at hmem
      obtain ⟨n, hn⟩ := List.mem_iff_getElem?.mp hmem
      rw [Process.getElem?_receive] at hn
      split_ifs at hn
      · obtain ⟨old, hold, rfl⟩ := Option.map_eq_some_iff.mp hn
        exact hs.clients old (List.mem_of_getElem? hold)
      · exact hs.clients client (List.mem_of_getElem? hn)
    · rw [hclients] at hmem
      exact hs.clients client hmem
  · cases mem_calls_step hmem with
    | kept hold => exact hs.calls who call hold
    | made => exact ha who _ rfl
    | @acquired i m old hget hpending => exact hs.calls who old (List.mem_of_getElem? hget)
    | @transmitted i id host old hget hclient => exact hs.calls who old (List.mem_of_getElem? hget)

/-- Where all sessions ask for clients without a jar, they get them. -/
theorem along_jarless {as : List Action}
    (hcalls : ∀ other cfg, .call other cfg ∈ as → cfg.withoutCookieJar = true) :
    Run.Along (step sha256 kind) (Jarless sha256 who) {} as := by
  have hinit : AllJarless {} :=
    ⟨fun _ hmem => absurd hmem List.not_mem_nil, fun _ _ hmem => absurd hmem List.not_mem_nil⟩
  refine Run.along_of_invariant (fun s a _ (hs : AllJarless s) => ?_) (fun s a ha hs => ?_) hinit
  · cases a with
    | acquire other i m =>
      intro _ call hget
      exact ⟨hs.calls who call (List.mem_of_getElem? hget), fun id client _ hclient =>
        hs.clients client (List.mem_of_getElem? hclient)⟩
    | _ => trivial
  · exact hs.step fun other cfg heq => hcalls other cfg (heq ▸ ha)

end Isolation

/-! ## A session with a jar -/

/-- A session's only request, sent to a host. -/
def oneRequest (who : ℕ) (m : Moment) (cfg : RequestConfig) (host : Bytes) : List Action :=
  [.call who cfg, .acquire who 0 m, .transmit who 0 host]

/-- A session's only request, whose response has a cookie. -/
def oneResponse (who : ℕ) (m : Moment) (cfg : RequestConfig) (host : Bytes) (c : Cookie) : List Action :=
  [.call who cfg, .acquire who 0 m, .respond who 0 host [c]]

section Leak

variable (sha256 : Bytes → Bytes) (kind : ℕ → SessionKind) {who other : ℕ} {s : State} {m : Moment}
  {cfg : RequestConfig} {client : Client} {id : ℕ} {process : Process}

/-- What a session has after one request. -/
theorem calls_oneRequest (hopen : s.closed who = false) (hcalls : s.calls who = [])
    (hget : getOrCreateClientFromConfig sha256 m cfg s.process = (.ok id, process)) (host : Bytes) :
    (Run.exec (step sha256 kind) s (oneRequest who m cfg host)).calls who =
      [⟨cfg, .got id, [(host, cookiesOf process id host)]⟩] := by
  have hsplit : oneRequest who m cfg host = [.call who cfg, .acquire who 0 m] ++ [.transmit who 0 host] := rfl
  rw [hsplit, Run.exec_append, exec_call_acquire hopen (by rw [hcalls]; rfl) hget, Run.exec_cons, Run.exec_nil,
    step_transmit (clientOf_eq_some_iff.mpr ⟨⟨cfg, .got id, []⟩, by simp [hcalls], rfl⟩), calls_updateCall_self]
  simp [hcalls]

/-- The first client of a process is pooled under its own key, and under no other one. -/
theorem exists_first (hnew : newClient m.env cfg = .ok client) :
    ∃ process, getOrCreateClientFromConfig sha256 m cfg {} = (.ok 0, process) ∧ process.clients = [client] ∧
      process.pool.clientAt (poolKey sha256 cfg) = some 0 ∧
      ∀ cfg', poolKey sha256 cfg' ≠ poolKey sha256 cfg → process.pool.clientAt (poolKey sha256 cfg') = none := by
  have hempty : ∀ key id, ({} : Process).pool.clientAt key ≠ some id := fun _ _ hat => by
    simp [Pool.clientAt, Pool.load] at hat
  obtain ⟨hresult, hclients, hat⟩ := getOrCreate_of_new sha256 {} rfl hnew
  refine ⟨_, Prod.ext hresult rfl, hclients, hat, fun cfg' hkey => ?_⟩
  rcases getOrCreate_cases sha256 m cfg {} with ⟨id, hpooled, -⟩ | ⟨-, err, heq⟩ | ⟨-, new, pool, -, heq, -, hpool⟩
  · exact absurd hpooled (hempty _ _)
  · rw [heq]
    rfl
  · rw [heq]
    refine Option.eq_none_iff_forall_ne_some.mpr fun id hid => ?_
    rcases hpool _ id hid with ⟨hsame, -⟩ | hold
    · exact hkey hsame
    · exact hempty _ _ hold

/-- What there is after one response. -/
theorem exec_oneResponse (who : ℕ) (hget : getOrCreateClientFromConfig sha256 m cfg {} = (.ok 0, process))
    (host : Bytes) (c : Cookie) : Run.exec (step sha256 kind) {} (oneResponse who m cfg host c) =
      { calls := Function.update (fun _ => []) who [⟨cfg, .got 0, []⟩]
        process := process.receive 0 host [c]
        received := Function.update (fun _ => []) who [(host, [c])] } := by
  have hsplit : oneResponse who m cfg host c = [.call who cfg, .acquire who 0 m] ++ [.respond who 0 host [c]] := rfl
  rw [hsplit, Run.exec_append, exec_call_acquire (s := {}) (i := 0) rfl rfl hget, Run.exec_cons, Run.exec_nil,
    step_respond (clientOf_eq_some_iff.mpr ⟨⟨cfg, .got 0, []⟩, by simp, rfl⟩)]
  rfl

/-- A session that makes its only request after another one with the same options gets the client of that. -/
theorem calls_after_oneResponse (hother : other ≠ who)
    (hnew : newClient m.env cfg = .ok client) (host : Bytes) (c : Cookie) :
    ∃ process, process.clients = [client] ∧
      (Run.exec (step sha256 kind) {} (oneRequest who m cfg host)).calls who =
        [⟨cfg, .got 0, [(host, cookiesOf process 0 host)]⟩] ∧
      (Run.exec (step sha256 kind) {} (oneResponse other m cfg host c ++ oneRequest who m cfg host)).calls who =
        [⟨cfg, .got 0, [(host, cookiesOf (process.receive 0 host [c]) 0 host)]⟩] := by
  obtain ⟨process, hget, hclients, hat, -⟩ := exists_first sha256 hnew
  refine ⟨process, hclients, calls_oneRequest sha256 kind rfl rfl hget host, ?_⟩
  have hpooled := getOrCreate_of_pooled m cfg (s := process.receive 0 host [c]) hat
  rw [Run.exec_append, exec_oneResponse sha256 kind other hget, calls_oneRequest sha256 kind rfl ?_ hpooled]
  · rfl
  · exact Function.update_of_ne hother.symm _ fun _ => []

/-- What another session with the same options receives, a session whose client has a jar sends. -/
theorem exists_leak (hother : other ≠ who) (hnew : newClient m.env cfg = .ok client)
    (hjar : cfg.withoutCookieJar = false) (host : Bytes) {c : Cookie} (hvalue : c.value ≠ []) (hage : 0 ≤ c.maxAge) :
    (Run.exec (step sha256 kind) {} (oneRequest who m cfg host)).calls who = [⟨cfg, .got 0, [(host, [])]⟩] ∧
      (Run.exec (step sha256 kind) {} (oneResponse other m cfg host c ++ oneRequest who m cfg host)).calls who =
        [⟨cfg, .got 0, [(host, [c])]⟩] := by
  obtain ⟨process, hclients, halone, hafter⟩ := calls_after_oneResponse sha256 kind hother hnew host c
  have hnewJar := jar_newClient hnew hjar
  have hclient : process.clients[0]? = some client := by rw [hclients]; rfl
  have hreceived : (process.receive 0 host [c]).clients[0]? = some (client.receive host [c]) := by
    rw [Process.getElem?_receive, if_pos rfl, hclient]
    rfl
  have hjarReceived : (client.receive host [c]).jar = some ((newCookieJar cfg.toClientFields).setCookies host [c]) := by
    rw [jar_receive, hnewJar]
    rfl
  constructor
  · rw [halone, cookiesOf_of_jar hclient hnewJar]
    rfl
  · rw [hafter, cookiesOf_of_jar hreceived hjarReceived, cookies_newCookieJar _ _ hvalue hage]

end Leak

/-- The native session of `Session(client_identifier="chrome_120", without_cookie_jar=...)`. -/
def chromeNative (withoutCookieJar : Bool) : Python.Session :=
  compatNative { clientIdentifier := some "chrome_120" } withoutCookieJar

/-- A Chrome session has a client, with a jar or without. -/
theorem exists_chromeClient (withoutCookieJar : Bool) :
    ∃ cfg client, configOf oneIdentifier id (chromeNative withoutCookieJar) {} CacheKey.exampleArgs = .ok cfg ∧
      newClient exampleMoment.env cfg = .ok client := by
  have hbuilt : ∃ cfg config, configOf oneIdentifier id (chromeNative withoutCookieJar) {} CacheKey.exampleArgs = .ok cfg ∧
      buildClientFromConfig exampleMoment.env cfg = .ok config := by
    cases withoutCookieJar with
    | true => exact ⟨_, _, rfl, rfl⟩
    | false => exact ⟨_, _, rfl, rfl⟩
  obtain ⟨cfg, config, hconfig, hbuild⟩ := hbuilt
  obtain ⟨client, hnew⟩ := exists_newClient_of_build hbuild
  exact ⟨cfg, client, hconfig, hnew⟩

/-- Two sessions that turn the jar off: what the one receives, the other does not send. -/
theorem cookies_isolated_chrome :
    ∃ cfg x y, configOf oneIdentifier id (chromeNative true) {} CacheKey.exampleArgs = .ok cfg ∧
      x ∈ (Run.exec (step id fun _ => .compat) {} (oneRequest 1 exampleMoment cfg (utf8 "h"))).calls 1 ∧
      y ∈ (Run.exec (step id fun _ => .compat) {} (oneResponse 0 exampleMoment cfg (utf8 "h")
        { name := utf8 "sid", value := utf8 "1" } ++ oneRequest 1 exampleMoment cfg (utf8 "h"))).calls 1 ∧
      ∀ u ∈ x.sent, ∀ v ∈ y.sent, cookieHeader plainToLower Cookie.name x.cfg u.2 =
        cookieHeader plainToLower Cookie.name y.cfg v.2 := by
  obtain ⟨cfg, client, hconfig, hnew⟩ := exists_chromeClient true
  have hjar : cfg.withoutCookieJar = true := withoutCookieJar_configOf hconfig
  obtain ⟨process, -, halone, hafter⟩ := calls_after_oneResponse id (fun _ => .compat) Nat.zero_ne_one hnew (utf8 "h")
    { name := utf8 "sid", value := utf8 "1" }
  have hx := List.mem_of_mem_head? (congrArg List.head? halone)
  have hy := List.mem_of_mem_head? (congrArg List.head? hafter)
  refine ⟨cfg, _, _, hconfig, hx, hy, cookies_isolated (along_jarless ?_) (along_jarless ?_) hx hy rfl _ _⟩
  · intro who cfg' hmem
    obtain ⟨-, rfl⟩ : who = 1 ∧ cfg' = cfg := by simpa [oneRequest] using hmem
    exact hjar
  · intro who cfg' hmem
    obtain ⟨-, rfl⟩ : (who = 0 ∨ who = 1) ∧ cfg' = cfg := by
      simpa [oneRequest, oneResponse, ← or_and_right] using hmem
    exact hjar

/-- By default a session sends the cookies that another one has received. -/
theorem default_sessions_leak :
    ¬ ∀ (sha256 : Bytes → Bytes) (as bs : List Action) (x y : Call) (go : ToLower) (write : Cookie → Bytes),
      (∀ who cfg, .call who cfg ∈ as ++ bs →
        configOf oneIdentifier sha256 (chromeNative false) {} CacheKey.exampleArgs = .ok cfg) →
      x ∈ (Run.exec (step sha256 fun _ => .compat) {} as).calls 1 →
      y ∈ (Run.exec (step sha256 fun _ => .compat) {} bs).calls 1 → x.cfg = y.cfg →
      ∀ u ∈ x.sent, ∀ v ∈ y.sent, cookieHeader go write x.cfg u.2 = cookieHeader go write y.cfg v.2 := by
  intro hisolated
  obtain ⟨cfg, client, hconfig, hnew⟩ := exists_chromeClient false
  have hjar : cfg.withoutCookieJar = false := withoutCookieJar_configOf hconfig
  let c : Cookie := { name := utf8 "sid", value := utf8 "1" }
  have hvalue : c.value ≠ [] := by decide
  obtain ⟨halone, hafter⟩ := exists_leak id (fun _ => .compat) Nat.zero_ne_one hnew hjar (utf8 "h") hvalue le_rfl
  have hx := List.mem_of_mem_head? (congrArg List.head? halone)
  have hy := List.mem_of_mem_head? (congrArg List.head? hafter)
  have hsame := hisolated id _ _ _ _ plainToLower Cookie.name ?_ hx hy rfl _ (List.mem_singleton_self _) _
    (List.mem_singleton_self _)
  · exact cookieHeader_singleton_ne cfg (by decide) hsame.symm
  · intro who cfg' hmem
    obtain ⟨-, rfl⟩ : (who = 1 ∨ who = 0 ∨ who = 1) ∧ cfg' = cfg := by
      simpa [oneRequest, oneResponse, ← or_and_right] using hmem
    exact hconfig

end TlsClient.Sessions
