import TlsClient.Sessions.Isolation

/-!
# The cookies of a native session

The jar of a native session belongs to a client of the pool, which `src/cffi_binding/main.go` finds by the options of
a request. A session loses its cookies therefore when a request overrides any option that the key covers, and when
its client leaves the pool: an evicted client loses its jar, not "only idle connections". It also shares the jar
with every session that has the same options.

`cookies_continue` is about the runs in which a session keeps its client, and its cookies in there.
-/

namespace TlsClient.Sessions

open TlsClient.Ffi TlsClient.Engine TlsClient.Python Utf8

/-- The cookies that a session has received from a host. -/
def receivedFrom (s : State) (who : ℕ) (host : Bytes) : List Cookie :=
  (((s.received who).filter fun response => response.1 = host).map Prod.snd).flatten

/-- The cookie is the last one of its name that the session has received from the host, and no deletion. -/
def Live (s : State) (who : ℕ) (host : Bytes) (c : Cookie) : Prop :=
  KeyedList.last Cookie.name c.name (receivedFrom s who host) = some c ∧ 0 ≤ c.maxAge

/-- A call of the session has got the client. -/
def Holds (s : State) (who id : ℕ) : Prop :=
  ∃ call ∈ s.calls who, call.client = .got id

/-- The cookie has a value, or the client's jar takes empty ones. -/
def Accepted (s : State) (id : ℕ) (c : Cookie) : Prop :=
  c.value ≠ [] ∨ ∀ client, s.process.clients[id]? = some client → client.source.allowEmptyCookies = true

/-- The condition on a step. A call of the session gets a client with a jar, and the client of its earlier calls. A
response on that client names no live cookie of the session that is for another host with the same host key, or that
another session has not set; and the cookies that it sets for the session are accepted. -/
def Continues (sha256 : Bytes → Bytes) (who : ℕ) (s : State) : Action → Prop
  | .acquire other i _ => other = who → ∀ call, (s.calls who)[i]? = some call → call.client = .pending →
      FindsJar sha256 s call.cfg false ∧
        ∀ id, Holds s who id → s.process.pool.clientAt (poolKey sha256 call.cfg) = some id
  | .respond other i host cookies => ∀ id, s.clientOf other i = some id → Holds s who id →
      (∀ host' c, Live s who host' c → CookieJar.buildCookieHostKey host = CookieJar.buildCookieHostKey host' →
        (other = who → host' ≠ host) → ∀ d ∈ cookies, d.name ≠ c.name) ∧
      (other = who → ∀ c, KeyedList.last Cookie.name c.name cookies = some c → 0 ≤ c.maxAge → Accepted s id c)
  | _ => True

/-- All calls of the session have one client, whose jar has the live cookies. -/
structure Continued (who : ℕ) (s : State) : Prop where
  valid : Valid s
  one : ∀ id id', Holds s who id → Holds s who id' → id = id'
  silent : s.received who ≠ [] → ∃ id, Holds s who id
  client : ∀ id, Holds s who id →
    ∃ client, s.process.clients[id]? = some client ∧ client.source.withoutCookieJar = false
  kept : ∀ id, Holds s who id → ∀ host c, Live s who host c → c ∈ cookiesOf s.process id host

section Jar

variable {client : Client} {host host' : Bytes} {cookies : List Cookie} {c : Cookie}

/-- A client that is built with a jar has one, with the options of `buildClientFromConfig`. -/
theorem exists_jar (hsource : client.source.withoutCookieJar = false) :
    ∃ jar, client.jar = some jar ∧ jar.config = { allowEmptyCookies := client.source.allowEmptyCookies } := by
  have hoptions := client.jar_options
  rw [if_pos hsource] at hoptions
  exact Option.map_eq_some_iff.mp hoptions

/-- A cookie that is set is in the jar then. -/
theorem mem_cookies_of_last {jar : CookieJar} (hskip : jar.config.skipExisting = false)
    (hlast : KeyedList.last Cookie.name c.name cookies = some c) (hage : 0 ≤ c.maxAge)
    (haccepted : c.value ≠ [] ∨ jar.config.allowEmptyCookies = true) :
    c ∈ (jar.setCookies host cookies).cookies host := by
  refine (CookieJar.mem_cookies_setCookies hskip).mpr ⟨.inl ?_, hage⟩
  have hlast' : KeyedList.last Cookie.name c.name (jar.nonEmpty cookies) = some c := by
    rw [CookieJar.nonEmpty]
    split_ifs with hempty
    · exact hlast
    · exact KeyedList.last_filter hlast (by simpa [hempty] using haccepted)
  exact CookieJar.mem_unique.mpr (KeyedList.last_eq_some_iff.mp hlast').2

end Jar

section Step

variable {sha256 : Bytes → Bytes} {kind : ℕ → SessionKind} {who : ℕ} {s : State} {a : Action} {id : ℕ} {host : Bytes}
  {c : Cookie}

theorem holds_of_clientOf {i : ℕ} (hclient : s.clientOf who i = some id) : Holds s who id := by
  obtain ⟨call, hget, hgot⟩ := clientOf_eq_some_iff.mp hclient
  exact ⟨call, List.mem_of_getElem? hget, hgot⟩

/-- A client that is held stays so. -/
theorem Holds.step (hholds : Holds s who id) : Holds (step sha256 kind s a) who id := by
  obtain ⟨call, hmem, hgot⟩ := hholds
  obtain ⟨i, hget⟩ := List.mem_iff_getElem?.mp hmem
  exact holds_of_clientOf (clientOf_step sha256 kind a (clientOf_eq_some_iff.mpr ⟨call, hget, hgot⟩))

/-- A session's call has its client from before the step, or gets it in the step. -/
theorem holds_step_cases (hholds : Holds (step sha256 kind s a) who id) : Holds s who id ∨
    ∃ i m call, a = .acquire who i m ∧ (s.calls who)[i]? = some call ∧ call.client = .pending ∧
      Acquired.ofResult (getOrCreateClientFromConfig sha256 m call.cfg s.process).1 = .got id := by
  obtain ⟨call, hmem, hgot⟩ := hholds
  cases mem_calls_step hmem with
  | kept hold => exact .inl ⟨call, hold, hgot⟩
  | made => contradiction
  | acquired hget hpending => exact .inr ⟨_, _, _, rfl, hget, hpending, hgot⟩
  | transmitted hget hclient => exact .inl ⟨_, List.mem_of_getElem? hget, hgot⟩

/-- A cookie stays in the jar of a client that gets no other cookie of its name for the host. -/
theorem mem_cookiesOf_step {client : Client} (hclient : s.process.clients[id]? = some client)
    (hsource : client.source.withoutCookieJar = false) (hmem : c ∈ cookiesOf s.process id host)
    (hsilent : ∀ other i host' cookies, a = .respond other i host' cookies → s.clientOf other i = some id →
      CookieJar.buildCookieHostKey host' = CookieJar.buildCookieHostKey host → ∀ d ∈ cookies, d.name ≠ c.name) :
    c ∈ cookiesOf (step sha256 kind s a).process id host := by
  obtain ⟨jar, hjar, hconfig⟩ := exists_jar hsource
  rw [cookiesOf_of_jar hclient hjar] at hmem
  rcases client_step sha256 kind a hclient with hsame | ⟨other, i, host', cookies, ha, hof, hreceived⟩
  · rw [cookiesOf_of_jar hsame hjar]
    exact hmem
  · have hjar' : (client.receive host' cookies).jar = some (jar.setCookies host' cookies) := by
      rw [jar_receive, hjar, Option.map_some]
    rw [cookiesOf_of_jar hreceived hjar']
    exact CookieJar.mem_cookies_of_silent (by rw [hconfig]) hmem (hsilent other i host' cookies ha hof)

/-- A cookie that a response sets is in the jar of the client afterwards, if the jar takes it. -/
theorem mem_cookiesOf_receive {client : Client} {cookies : List Cookie}
    (hclient : s.process.clients[id]? = some client) (hsource : client.source.withoutCookieJar = false)
    (hlast : KeyedList.last Cookie.name c.name cookies = some c) (hage : 0 ≤ c.maxAge) (haccepted : Accepted s id c) :
    c ∈ cookiesOf (s.process.receive id host cookies) id host := by
  obtain ⟨jar, hjar, hconfig⟩ := exists_jar hsource
  have hreceived : (s.process.receive id host cookies).clients[id]? = some (client.receive host cookies) := by
    rw [Process.getElem?_receive, if_pos rfl, hclient, Option.map_some]
  have hjar' : (client.receive host cookies).jar = some (jar.setCookies host cookies) := by
    rw [jar_receive, hjar, Option.map_some]
  rw [cookiesOf_of_jar hreceived hjar']
  refine mem_cookies_of_last (by rw [hconfig]) hlast hage ?_
  rcases haccepted with hvalue | hempty
  · exact .inl hvalue
  · exact .inr (by rw [hconfig, hempty client hclient])

/-- What a response makes of the live cookies of its session. -/
theorem live_respond {i : ℕ} {host' : Bytes} {cookies : List Cookie} (hclient : s.clientOf who i = some id)
    (hlive : Live (step sha256 kind s (.respond who i host' cookies)) who host c) :
    (host' = host ∧ KeyedList.last Cookie.name c.name cookies = some c) ∨
      Live s who host c ∧ (host' = host → ∀ d ∈ cookies, d.name ≠ c.name) := by
  obtain ⟨hlast, hage⟩ := hlive
  rw [step_respond hclient, receivedFrom] at hlast
  dsimp only at hlast
  rw [Function.update_self, List.filter_append, List.map_append, List.flatten_append] at hlast
  by_cases hhost : host' = host
  · simp only [hhost, List.filter_cons_of_pos, decide_true, List.filter_nil, List.map_cons, List.map_nil,
      List.flatten_cons, List.flatten_nil, List.append_nil] at hlast
    rw [KeyedList.last_append] at hlast
    cases hnew : KeyedList.last Cookie.name c.name cookies with
    | some d =>
      rw [hnew, Option.some_or] at hlast
      obtain rfl := Option.some.inj hlast
      exact .inl ⟨hhost, rfl⟩
    | none =>
      rw [hnew, Option.none_or] at hlast
      exact .inr ⟨⟨hlast, hage⟩, fun _ => KeyedList.last_eq_none_iff.mp hnew⟩
  · simp only [hhost, List.filter_cons, decide_false, List.filter_nil, List.map_nil, List.flatten_nil,
      List.append_nil, Bool.false_eq_true, if_false] at hlast
    exact .inr ⟨⟨hlast, hage⟩, fun heq => absurd heq hhost⟩

/-- Another action leaves the live cookies as they are. -/
theorem live_of_received (heq : (step sha256 kind s a).received who = s.received who)
    (hlive : Live (step sha256 kind s a) who host c) : Live s who host c := by
  rw [Live, receivedFrom, heq] at hlive
  exact hlive

/-- A session that has a live cookie has a client. -/
theorem Continued.exists_holds (hs : Continued who s) (hlive : Live s who host c) : ∃ id, Holds s who id := by
  refine hs.silent fun hnil => ?_
  have hlast := hlive.1
  rw [receivedFrom, hnil] at hlast
  exact absurd hlast (Option.some_ne_none c).symm

/-- A call that gets a client gets that of the earlier calls. -/
theorem eq_of_acquired {i old : ℕ} {m : Moment} {call : Call} (hok : Continues sha256 who s (.acquire who i m))
    (hget : (s.calls who)[i]? = some call) (hpending : call.client = .pending)
    (hgot : Acquired.ofResult (getOrCreateClientFromConfig sha256 m call.cfg s.process).1 = .got id)
    (hold : Holds s who old) : id = old := by
  have hat := (hok rfl call hget hpending).2 old hold
  rw [getOrCreate_of_pooled m call.cfg hat] at hgot
  exact (Acquired.got.inj hgot).symm

/-- A step that continues the session brings no other client. -/
theorem Continued.eq_of_holds (hs : Continued who s) (hok : Continues sha256 who s a) {old : ℕ}
    (hid : Holds (step sha256 kind s a) who id) (hold : Holds s who old) : id = old := by
  rcases holds_step_cases hid with hbefore | ⟨i, m, call, rfl, hget, hpending, hgot⟩
  · exact hs.one id old hbefore hold
  · exact eq_of_acquired hok hget hpending hgot hold

/-- After it the session has one client. -/
theorem Continued.one_step (hs : Continued who s) (hok : Continues sha256 who s a) {id' : ℕ}
    (hid : Holds (step sha256 kind s a) who id) (hid' : Holds (step sha256 kind s a) who id') : id = id' := by
  rcases holds_step_cases hid' with hold | ⟨i, m, call, rfl, hget, hpending, hgot⟩
  · exact hs.eq_of_holds hok hid hold
  · rcases holds_step_cases hid with hold | ⟨i', m', call', heq, hget', hpending', hgot'⟩
    · exact (hs.eq_of_holds hok hid' hold).symm
    · -- both are the client that this step takes from the pool
      obtain ⟨-, rfl, rfl⟩ := Action.acquire.inj heq
      obtain rfl := Option.some.inj (hget.symm.trans hget')
      exact Acquired.got.inj (hgot'.symm.trans hgot)

/-- A session that has received something has a client. -/
theorem Continued.silent_step (hs : Continued who s) (hne : (step sha256 kind s a).received who ≠ []) :
    ∃ id, Holds (step sha256 kind s a) who id := by
  rcases received_step sha256 kind s a with hsame | ⟨other, n, host, cookies, id, rfl, hof, hreceived⟩
  · rw [hsame] at hne
    obtain ⟨id, hid⟩ := hs.silent hne
    exact ⟨id, hid.step⟩
  · by_cases hwho : who = other
    · subst hwho
      exact ⟨id, (holds_of_clientOf hof).step⟩
    · rw [hreceived, Function.update_of_ne hwho] at hne
      obtain ⟨id, hid⟩ := hs.silent hne
      exact ⟨id, hid.step⟩

/-- The client has a cookie jar. -/
theorem Continued.client_step (hs : Continued who s) (hok : Continues sha256 who s a)
    (hid : Holds (step sha256 kind s a) who id) : ∃ client,
      (step sha256 kind s a).process.clients[id]? = some client ∧ client.source.withoutCookieJar = false := by
  rcases holds_step_cases hid with hold | ⟨i, m, call, rfl, hget, hpending, hgot⟩
  · obtain ⟨client, hbuilt, hjar⟩ := hs.client id hold
    obtain ⟨client', hclient', hsource⟩ := source_step sha256 kind a hbuilt
    exact ⟨client', hclient', hsource ▸ hjar⟩
  · rw [process_acquire hget hpending]
    exact exists_client_of_acquired hs.valid (hok rfl call hget hpending).1 hgot

/-- A cookie that was live before is in the jar of the session's client, and stays there. -/
theorem Continued.mem_of_live (hs : Continued who s) (hok : Continues sha256 who s a)
    (hid : Holds (step sha256 kind s a) who id) (hlive : Live s who host c)
    (hsilent : ∀ other i host' cookies, a = .respond other i host' cookies → s.clientOf other i = some id →
      CookieJar.buildCookieHostKey host' = CookieJar.buildCookieHostKey host → ∀ d ∈ cookies, d.name ≠ c.name) :
    c ∈ cookiesOf (step sha256 kind s a).process id host := by
  obtain ⟨old, hold⟩ := hs.exists_holds hlive
  obtain rfl := hs.eq_of_holds hok hid hold
  obtain ⟨client, hbuilt, hjar⟩ := hs.client id hold
  exact mem_cookiesOf_step hbuilt hjar (hs.kept id hold host c hlive) hsilent

/-- The client sends the cookies that are live. -/
theorem Continued.kept_step (hs : Continued who s) (hok : Continues sha256 who s a)
    (hid : Holds (step sha256 kind s a) who id) (hlive : Live (step sha256 kind s a) who host c) :
    c ∈ cookiesOf (step sha256 kind s a).process id host := by
  rcases received_step sha256 kind s a with hsame | ⟨other, n, host', cookies, id', rfl, hof, hreceived⟩
  · refine hs.mem_of_live hok hid (live_of_received (congrFun hsame who) hlive) fun other i host' cookies ha hof => ?_
    subst ha
    rw [step_respond hof] at hsame
    exact absurd (congrFun hsame other) (by simp)
  · have hold := (holds_step_cases hid).resolve_right (by rintro ⟨_, _, _, heq, -⟩; contradiction)
    by_cases hwho : who = other
    · -- a response to the session itself sets the cookie, or does not name it
      subst hwho
      obtain rfl := hs.one id id' hold (holds_of_clientOf hof)
      obtain ⟨hsilent, haccepts⟩ := hok id hof hold
      rcases live_respond hof hlive with ⟨rfl, hnew⟩ | ⟨hbefore, hnone⟩
      · obtain ⟨client, hbuilt, hjar⟩ := hs.client id hold
        rw [step_respond hof]
        exact mem_cookiesOf_receive hbuilt hjar hnew hlive.2 (haccepts rfl c hnew hlive.2)
      · refine hs.mem_of_live hok hid hbefore fun other' i host'' cookies' heq _ hkey => ?_
        obtain ⟨rfl, rfl, rfl, rfl⟩ := Action.respond.inj heq
        by_cases hhost : host' = host
        · exact hnone hhost
        · exact hsilent host c hbefore hkey fun _ => Ne.symm hhost
    · have hbefore := live_of_received (by rw [hreceived, Function.update_of_ne hwho]) hlive
      refine hs.mem_of_live hok hid hbefore fun other' i host'' cookies' heq hof' hkey => ?_
      obtain ⟨rfl, rfl, rfl, rfl⟩ := Action.respond.inj heq
      exact (hok id hof' hold).1 host c hbefore hkey fun heq => absurd heq.symm hwho

/-- A step that continues the session keeps its cookies. -/
theorem continued_step (hs : Continued who s) (hok : Continues sha256 who s a) :
    Continued who (step sha256 kind s a) where
  valid := valid_step hs.valid
  one _ _ hid hid' := hs.one_step hok hid hid'
  silent hne := hs.silent_step hne
  client _ hid := hs.client_step hok hid
  kept _ hid _ _ hlive := hs.kept_step hok hid hlive

/-- In a run of such steps the session is continued. -/
theorem continued_exec {as : List Action} (hrun : Run.Along (step sha256 kind) (Continues sha256 who) {} as) :
    Continued who (Run.exec (step sha256 kind) {} as) := by
  have hnone : ∀ id, ¬ Holds {} who id := fun _ ⟨_, hmem, _⟩ => absurd hmem List.not_mem_nil
  have hinit : Continued who {} :=
    ⟨valid_init, fun id _ hid => absurd hid (hnone id), fun hne => absurd rfl hne, fun id hid => absurd hid (hnone id),
      fun id hid => absurd hid (hnone id)⟩
  exact Run.invariant_exec (fun _ _ => continued_step) hinit hrun

/-- In runs in which a session keeps its client, and its cookies in there, a request carries all cookies that the
session has received from its host and that have not been deleted. -/
theorem cookies_continue {as bs : List Action} {i : ℕ}
    (hrun : Run.Along (step sha256 kind) (Continues sha256 who) {} as) (hpre : bs ++ [.transmit who i host] <+: as)
    (hclient : (Run.exec (step sha256 kind) {} bs).clientOf who i = some id) :
    ∃ call cookies, ((Run.exec (step sha256 kind) {} (bs ++ [.transmit who i host])).calls who)[i]? = some call ∧
      call.sent.getLast? = some (host, cookies) ∧
      ∀ c, Live (Run.exec (step sha256 kind) {} bs) who host c → c ∈ cookies := by
  have hbefore := continued_exec (Run.along_prefix_of ((List.prefix_append bs _).trans hpre) hrun)
  obtain ⟨call, hcall, hlast⟩ := sent_exec_transmit sha256 kind host hclient
  exact ⟨call, _, hcall, hlast, hbefore.kept id (holds_of_clientOf hclient) host⟩

end Step

/-! ## A session that changes an option -/

section Override

variable (sha256 : Bytes → Bytes) (kind : ℕ → SessionKind) {who : ℕ} {m : Moment} {cfg cfg' : RequestConfig}
  {client client' : Client} {c : Cookie}

/-- A cookie of the only response is live. -/
theorem live_oneResponse {s : State} {host : Bytes} (hreceived : s.received who = [(host, [c])])
    (hage : 0 ≤ c.maxAge) : Live s who host c := by
  refine ⟨?_, hage⟩
  rw [receivedFrom, hreceived]
  simp [KeyedList.last, KeyedList.get]

/-- A call whose key is not in the pool gets a new client, with no cookies. -/
theorem exec_call_acquire_unpooled {s : State} {i : ℕ} (hopen : s.closed who = false) (hi : (s.calls who).length = i)
    (hnone : s.process.pool.clientAt (poolKey sha256 cfg) = none) (hnew : newClient m.env cfg = .ok client) :
    let t := Run.exec (step sha256 kind) s [.call who cfg, .acquire who i m]
    t.received = s.received ∧ t.clientOf who i = some s.process.clients.length ∧
      ∀ host, cookiesOf t.process s.process.clients.length host = [] := by
  intro t
  obtain ⟨hresult, hclients, -⟩ := getOrCreate_of_new sha256 s.process hnone hnew
  have ht : t = _ := exec_call_acquire hopen hi (Prod.ext hresult rfl)
  refine ⟨by rw [ht], ?_, fun host => ?_⟩
  · rw [clientOf_eq_some_iff, ht]
    exact ⟨⟨cfg, .got s.process.clients.length, []⟩, by simp [← hi], rfl⟩
  · have hclient : t.process.clients[s.process.clients.length]? = some client := by
      rw [ht]
      dsimp only
      rw [hclients, List.getElem?_concat_length]
    cases hjar : cfg.withoutCookieJar with
    | false =>
      rw [cookiesOf_of_jar hclient (jar_newClient hnew hjar)]
      rfl
    | true =>
      refine cookiesOf_of_jarless hclient ?_ host
      rw [newClient_eq_ok hnew, hjar]

/-- A request with another key carries none of the cookies of its session. -/
theorem exists_loss (hnew : newClient m.env cfg = .ok client) (hnew' : newClient m.env cfg' = .ok client')
    (hkey : poolKey sha256 cfg' ≠ poolKey sha256 cfg) (host : Bytes) (hage : 0 ≤ c.maxAge) :
    let s := Run.exec (step sha256 kind) {} (oneResponse who m cfg host c ++ [.call who cfg', .acquire who 1 m])
    Live s who host c ∧ s.clientOf who 1 = some 1 ∧ cookiesOf s.process 1 host = [] := by
  obtain ⟨process, hget, hclients, -, hothers⟩ := exists_first sha256 hnew
  have hfirst := exec_oneResponse sha256 kind who hget host c
  rw [Run.exec_append]
  generalize Run.exec (step sha256 kind) {} (oneResponse who m cfg host c) = s at hfirst ⊢
  have hopen : s.closed who = false := by rw [hfirst]
  have hlength : s.process.clients.length = 1 := by
    rw [hfirst, Process.receive, List.length_modify, hclients, List.length_singleton]
  obtain ⟨hreceived, hclient, hcookies⟩ := exec_call_acquire_unpooled sha256 kind (i := 1) hopen (by rw [hfirst]; simp)
    (by rw [hfirst]; exact hothers cfg' hkey) hnew'
  rw [hlength] at hclient hcookies
  refine ⟨live_oneResponse ?_ hage, hclient, hcookies host⟩
  rw [hreceived, hfirst]
  exact Function.update_self who _ fun _ => []

/-- A request with the same key gets the client of the first one. -/
theorem exists_continued (who : ℕ) (hnew : newClient m.env cfg = .ok client)
    (hjar : cfg.withoutCookieJar = false) (host : Bytes) (hvalue : c.value ≠ []) (hage : 0 ≤ c.maxAge) :
    let as := oneResponse who m cfg host c ++ [.call who cfg, .acquire who 1 m]
    Run.Along (step sha256 kind) (Continues sha256 who) {} (as ++ [.transmit who 1 host]) ∧
      Live (Run.exec (step sha256 kind) {} as) who host c ∧
      (Run.exec (step sha256 kind) {} as).clientOf who 1 = some 0 := by
  intro as
  obtain ⟨process, hget, hclients, hat, -⟩ := exists_first sha256 hnew
  have hpooled := getOrCreate_of_pooled m cfg (s := process.receive 0 host [c]) hat
  have hexec : Run.exec (step sha256 kind) {} as = _ :=
    Run.exec_append.trans (congrArg (Run.exec (step sha256 kind) · _) (exec_oneResponse sha256 kind who hget host c))
  rw [exec_call_acquire (by rfl) (by simp) hpooled] at hexec
  have hacquired : step sha256 kind (step sha256 kind {} (.call who cfg)) (.acquire who 0 m) =
      { calls := Function.update (fun _ => []) who [⟨cfg, .got 0, []⟩], process } :=
    exec_call_acquire (s := {}) (i := 0) rfl rfl hget
  refine ⟨Run.along_append.mpr ⟨Run.along_append.mpr ⟨⟨trivial, ?_, ?_, trivial⟩, ?_⟩, trivial, trivial⟩, ?_, ?_⟩
  · -- the pool is empty
    rintro - call hcall -
    obtain rfl : ({ cfg := cfg } : Call) = call := by simpa [step, State.call] using hcall
    refine ⟨⟨hjar, fun id client' hid => ?_⟩, fun id hholds => ?_⟩
    · exact absurd hid (by simp [step, State.call, Pool.clientAt, Pool.load])
    · obtain ⟨call', hmem, hgot⟩ := hholds
      obtain rfl : call' = { cfg := cfg } := by simpa [step, State.call] using hmem
      contradiction
  · -- nothing is live yet
    rw [hacquired]
    refine fun id _ _ => ⟨fun host' c' hlive => ?_, fun _ c' hlast _ => .inl ?_⟩
    · exact absurd hlive.1 (Option.some_ne_none c').symm
    · obtain ⟨l₁, l₂, heq, -⟩ := (KeyedList.last_eq_some_iff.mp hlast).2
      have hmem : c' ∈ [c] := heq ▸ List.mem_append_right l₁ List.mem_cons_self
      obtain rfl := List.mem_singleton.mp hmem
      exact hvalue
  · -- the session finds its client again
    rw [exec_oneResponse sha256 kind who hget]
    refine ⟨trivial, ?_, trivial⟩
    rintro - call hcall -
    obtain rfl : ({ cfg := cfg } : Call) = call := by simpa [step, State.call] using hcall
    rw [FindsJar, process_call]
    refine ⟨⟨hjar, fun id client' hid hclient' => ?_⟩, fun id hholds => ?_⟩
    · obtain rfl := Option.some.inj (hat.symm.trans hid)
      have hsource := congrArg (Option.map Client.source) hclient'
      rw [Process.source_receive, hclients] at hsource
      rw [← Option.some.inj hsource, newClient_eq_ok hnew, hjar]
    · obtain ⟨call', hmem, hgot⟩ := hholds
      obtain rfl | rfl : call' = ⟨cfg, .got 0, []⟩ ∨ call' = { cfg := cfg } := by
        simpa [step, State.call] using hmem
      · obtain rfl := Acquired.got.inj hgot
        exact hat
      · contradiction
  · refine live_oneResponse ?_ hage
    rw [hexec]
    exact Function.update_self who _ fun _ => []
  · rw [clientOf_eq_some_iff, hexec]
    exact ⟨⟨cfg, .got 0, []⟩, by simp, rfl⟩

end Override

/-- `Session(client_identifier="chrome_120")` -/
def chromeSession : Python.Session :=
  { defaults := { clientIdentifier := some "chrome_120" } }

/-- The second request of a session carries the cookie that its first one has received. -/
theorem cookies_continue_chrome :
    ∃ cfg call cookies, configOf oneIdentifier id chromeSession {} CacheKey.exampleArgs = .ok cfg ∧
      ((Run.exec (step id fun _ => .sync) {} (oneResponse 0 exampleMoment cfg (utf8 "h")
        { name := utf8 "sid", value := utf8 "1" } ++ [.call 0 cfg, .acquire 0 1 exampleMoment] ++
          [.transmit 0 1 (utf8 "h")])).calls 0)[1]? = some call ∧
      call.sent.getLast? = some (utf8 "h", cookies) ∧ { name := utf8 "sid", value := utf8 "1" } ∈ cookies := by
  have hbuilt : ∃ cfg config, configOf oneIdentifier id chromeSession {} CacheKey.exampleArgs = .ok cfg ∧
      buildClientFromConfig exampleMoment.env cfg = .ok config ∧ cfg.withoutCookieJar = false :=
    ⟨_, _, rfl, rfl, rfl⟩
  obtain ⟨cfg, config, hconfig, hbuild, hjar⟩ := hbuilt
  obtain ⟨client, hnew⟩ := exists_newClient_of_build hbuild
  let c : Cookie := { name := utf8 "sid", value := utf8 "1" }
  have hvalue : c.value ≠ [] := by decide
  obtain ⟨hrun, hlive, hclient⟩ := exists_continued id (fun _ => .sync) 0 hnew hjar (utf8 "h") hvalue le_rfl
  obtain ⟨call, cookies, hcall, hlast, hsent⟩ := cookies_continue hrun (List.prefix_refl _) hclient
  exact ⟨cfg, call, cookies, hconfig, hcall, hlast, hsent c hlive⟩

/-- A request with a timeout of its own loses the cookies of its session. -/
theorem timeout_loses_cookies :
    ¬ ∀ (sha256 : Bytes → Bytes) (as : List Action) (i : ℕ) (host : Bytes) (c : Cookie),
      (∀ who cfg, .call who cfg ∈ as → cfg.withoutCookieJar = false ∧
        ∃ timeout, configOf oneIdentifier sha256 chromeSession { timeout } CacheKey.exampleArgs = .ok cfg) →
      ((Run.exec (step sha256 fun _ => .sync) {} as).clientOf 0 i).isSome →
      Live (Run.exec (step sha256 fun _ => .sync) {} as) 0 host c →
      ∃ call cookies,
        ((Run.exec (step sha256 fun _ => .sync) {} (as ++ [.transmit 0 i host])).calls 0)[i]? = some call ∧
          call.sent.getLast? = some (host, cookies) ∧ c ∈ cookies := by
  intro hcontinues
  -- two calls that differ in the timeout alone are filed under different keys
  have hbuilt : ∃ cfg cfg' config config', configOf oneIdentifier id chromeSession {} CacheKey.exampleArgs = .ok cfg ∧
      configOf oneIdentifier id chromeSession { timeout := some (.int 5) } CacheKey.exampleArgs = .ok cfg' ∧
      buildClientFromConfig exampleMoment.env cfg = .ok config ∧
      buildClientFromConfig exampleMoment.env cfg' = .ok config' ∧
      cfg.withoutCookieJar = false ∧ cfg'.withoutCookieJar = false ∧ poolKey id cfg' ≠ poolKey id cfg :=
    ⟨_, _, _, _, rfl, rfl, rfl, rfl, rfl, rfl, by decide +kernel⟩
  obtain ⟨cfg, cfg', config, config', hconfig, hconfig', hbuild, hbuild', hjar, hjar', hkey⟩ := hbuilt
  obtain ⟨client, hnew⟩ := exists_newClient_of_build hbuild
  obtain ⟨client', hnew'⟩ := exists_newClient_of_build hbuild'
  let c : Cookie := { name := utf8 "sid", value := utf8 "1" }
  obtain ⟨hlive, hclient, hnone⟩ := exists_loss id (fun _ => .sync) hnew hnew' hkey (utf8 "h") (c := c) le_rfl
  have hsent := hcontinues id _ 1 (utf8 "h") c ?_ (Option.isSome_iff_exists.mpr ⟨1, hclient⟩) hlive
  · obtain ⟨call, cookies, hcall, hlast, hmem⟩ := hsent
    obtain ⟨call', hcall', hlast'⟩ := sent_exec_transmit id (fun _ => .sync) (utf8 "h") hclient
    obtain rfl := Option.some.inj (hcall'.symm.trans hcall)
    obtain ⟨-, rfl⟩ := Prod.mk.inj (Option.some.inj (hlast'.symm.trans hlast))
    rw [hnone] at hmem
    exact absurd hmem List.not_mem_nil
  · intro who other hmem
    obtain ⟨-, rfl⟩ | ⟨-, rfl⟩ : who = 0 ∧ other = cfg ∨ who = 0 ∧ other = cfg' := by
      simpa [oneResponse] using hmem
    · exact ⟨hjar, _, hconfig⟩
    · exact ⟨hjar', _, hconfig'⟩

end TlsClient.Sessions
