import TlsClient.Engine.RoundTrip

/-!
# What one step of a round tripper does

`Effect` lists the steps that change anything, with what has been found out before: the invariants of the round
tripper are proved by cases on it and never look into `step` again. `effect_step` says that every step is one of
them.
-/

namespace TlsClient.Engine.RoundTrip

open TlsClient.Ffi Utf8

variable {F D : Type} {env : Environment} {rt : RoundTripper F D}

/-- What a step leads to. -/
inductive Effect (s : State env rt) : Action → State env rt → Prop where
  | stays {a : Action} : Effect s a s
  | waits {i : ℕ} {c : Call} (hthread : s.threads i = .idle)
    (hway : c.way = .direct ∨ c.request.scheme = .https) :
    Effect s (.roundTrip i c.request) (s.goto i (.waiting c))
  | races {i : ℕ} {req : Request} (hthread : s.threads i = .idle) (hscheme : req.scheme = .https) :
    Effect s (.roundTrip i req) (s.setRace i { request := req })
  | selects {i : ℕ} {call : Call} {t : Transport env rt} (hthread : s.threads i = .waiting call)
    (hfree : s.cachedTransportsLck = none) (hcached : s.cachedTransports call.key = some t) :
    Effect s (.acquire i) (s.select i call t)
  | buildsHTTP3 {i : ℕ} {call : Call} {t : Transport env rt} (hthread : s.threads i = .waiting call)
    (hfree : s.cachedTransportsLck = none) (hcached : s.cachedTransports call.key = none)
    (hkey : call.key = (call.addr, .h3)) (hbuild : s.buildTransport .http3 call.addr = .ok t) :
    Effect s (.acquire i) ((s.cache (call.addr, .h3) t).select i call t)
  | buildsPlain {i : ℕ} {call : Call} (hthread : s.threads i = .waiting call)
    (hfree : s.cachedTransportsLck = none) (hcached : s.cachedTransports call.key = none)
    (hkey : call.key = (call.addr, .h2)) (hscheme : call.request.scheme = .http) :
    Effect s (.acquire i)
      ((s.cache (call.addr, .h2) (s.plainTransport call.addr)).select i call (s.plainTransport call.addr))
  | locks {i : ℕ} {call : Call} (hthread : s.threads i = .waiting call) (hfree : s.cachedTransportsLck = none)
    (hcached : s.cachedTransports call.key = none) (hkey : call.key = (call.addr, .h2))
    (hscheme : call.request.scheme = .https) :
    Effect s (.acquire i) { s.goto i (.setup call) with cachedTransportsLck := some i }
  | acquireFails {i : ℕ} {call : Call} (hthread : s.threads i = .waiting call)
    (hfree : s.cachedTransportsLck = none) : Effect s (.acquire i) (s.failCall i call)
  | panics {i : ℕ} {call : Call} {lck : Option ℕ} (hthread : s.threads i = .setup call) (hmutex : s.mutex = none)
    (hlck : lck = s.cachedTransportsLck ∨ lck = none) :
    Effect s (.setup i) { (s.takeStash call.addr).goto i (.panicked call) with cachedTransportsLck := lck }
  | setupDials {i : ℕ} {call : Call} (hthread : s.threads i = .setup call) (hmutex : s.mutex = none) :
    Effect s (.setup i) { s.goto i (.setupDialing call) with mutex := some i }
  | setupFails {i : ℕ} {call : Call} {outcome : DialOutcome} {r : List (Route F D)}
    (hthread : s.threads i = .setupDialing call)
    (hroutes : r = s.opened ∨ r = s.opened ++ [.dialer rt.dialer]) :
    Effect s (.setupDone i outcome) ({ s.unlock with opened := r }.failCall i call)
  | installs {i : ℕ} {call : Call} {protocol : Bytes} {t : Transport env rt}
    (hthread : s.threads i = .setupDialing call)
    (hbuild : s.buildTransport (kindForProtocol protocol) call.addr = .ok t) :
    Effect s (.setupDone i (.negotiated protocol))
      ((s.unlock.dialOut (.dialer rt.dialer)).install i call t protocol)
  | dials {i j : ℕ} {call : Call} {t : Transport env rt} (hthread : s.threads i = .running call t)
    (hidle : s.threads j = .idle) (hdials : t.DialsTLS call.request) :
    Effect s (.dial i j) (s.goto j (.dialWaiting t (call.request.canonicalAddr env t.kind)))
  | takes {j : ℕ} {t : Transport env rt} {addr : Addr} {c : Conn} (hthread : s.threads j = .dialWaiting t addr)
    (hmutex : s.mutex = none) (hstash : s.cachedConnections addr = some c) :
    Effect s (.dialStart j) (((s.takeStash addr).hand t c).goto j .idle)
  | dialStarts {j : ℕ} {t : Transport env rt} {addr : Addr} (hthread : s.threads j = .dialWaiting t addr)
    (hmutex : s.mutex = none) : Effect s (.dialStart j) { s.goto j (.dialing t addr) with mutex := some j }
  | dialFails {j : ℕ} {t : Transport env rt} {addr : Addr} {outcome : DialOutcome} {waiters : List ℕ}
    {r : List (Route F D)} (hthread : s.threads j = .dialing t addr)
    (hroutes : r = s.opened ∨ r = s.opened ++ [.dialer rt.dialer]) :
    Effect s (.dialDone j outcome waiters) { s.goto j .idle with mutex := none, opened := r }
  | hands {j : ℕ} {t : Transport env rt} {addr : Addr} {protocol : Bytes} {waiters : List ℕ}
    (hthread : s.threads j = .dialing t addr) (hkind : s.cachedKinds addr = some (kindForProtocol protocol)) :
    Effect s (.dialDone j (.negotiated protocol) waiters)
      ({ (s.goto j .idle).dialOut (.dialer rt.dialer) with mutex := none }.hand t (rt.tlsConn addr protocol))
  | refuses {j : ℕ} {t : Transport env rt} {addr : Addr} {protocol : Bytes} {waiters : List ℕ}
    (hthread : s.threads j = .dialing t addr) (hkind : s.cachedKinds addr ≠ some (kindForProtocol protocol)) :
    Effect s (.dialDone j (.negotiated protocol) waiters)
      ({ (s.goto j .idle).dialOut (.dialer rt.dialer) with mutex := none }.refuse
        ⟨t, addr, s.cachedKinds addr, kindForProtocol protocol⟩ waiters)
  | dialsTCP {i : ℕ} {call : Call} {t : Transport env rt} (hthread : s.threads i = .running call t)
    (hdials : t.DialsTCP call.request) : Effect s (.dialTCP i) (s.dialTCP t call.request)
  | dialsQUIC {i : ℕ} {call : Call} {t : Transport env rt} {connects : Bool}
    (hthread : s.threads i = .running call t) (hdials : t.DialsQUIC call.request) :
    Effect s (.dialQUIC i connects) (s.dialQUIC t call.request connects)
  | responds {i : ℕ} {call : Call} {t : Transport env rt} {c : Conn} (hthread : s.threads i = .running call t)
    (hhanded : (t, c) ∈ s.handed) (hserves : t.Serves call.request c) (hway : ∀ r p, call.way ≠ .attempt r p) :
    Effect s (.respond i c) ((s.goto i .idle).answer ⟨call.request, c⟩)
  | reports {i r : ℕ} {call : Call} {t : Transport env rt} {c : Conn} {protocol : Protocol}
    (hthread : s.threads i = .running call t) (hhanded : (t, c) ∈ s.handed)
    (hserves : t.Serves call.request c) (hway : call.way = .attempt r protocol) :
    Effect s (.respond i c) ((s.goto i .idle).deliver r (protocol, some ⟨call.request, c⟩))
  | fails {i : ℕ} {call : Call} {t : Transport env rt} (hthread : s.threads i = .running call t) :
    Effect s (.fail i) (s.failCall i call)
  | drops {i : ℕ} {call : Call} {t : Transport env rt} (hthread : s.threads i = .changed call t)
    (hfree : s.cachedTransportsLck = none) (hcached : s.cachedTransports (call.addr, .h2) = some t) :
    Effect s (.drop i)
      { s.goto i (.dropping call t) with
        cachedTransports := Function.update s.cachedTransports (call.addr, .h2) none }
  | leaves {i : ℕ} {call : Call} {t : Transport env rt} (hthread : s.threads i = .changed call t)
    (hfree : s.cachedTransportsLck = none) (hcached : s.cachedTransports (call.addr, .h2) ≠ some t) :
    Effect s (.drop i) (s.goto i (.dropping call t))
  | dropsKind {i : ℕ} {call : Call} {t : Transport env rt} (hthread : s.threads i = .dropping call t) :
    Effect s (.dropKind i) (s.dropKind i call)
  | attemptsHTTP2 {r j : ℕ} {race : Race} (hthread : s.threads r = .race race) (hidle : s.threads j = .idle) :
    Effect s (.attempt r j .h2)
      ((s.setRace r { race with pending := race.pending.erase .h2 }).goto j
        (.waiting ⟨race.request, .attempt r .h2⟩))
  | attemptsHTTP3 {r j : ℕ} {race : Race} {t : Transport env rt} (hthread : s.threads r = .race race)
    (hidle : s.threads j = .idle) (hbuild : s.buildTransport .http3 race.request.getDialTLSAddr = .ok t) :
    Effect s (.attempt r j .h3)
      { (s.setRace r { race with pending := race.pending.erase .h3 }).select j ⟨race.request, .attempt r .h3⟩ t with
        transports := s.transports + 1 }
  | attemptFails {r j : ℕ} {race : Race} (hthread : s.threads r = .race race) :
    Effect s (.attempt r j .h3)
      ((s.setRace r { race with pending := race.pending.erase .h3 }).deliver r (.h3, none))
  | receivesError {r : ℕ} {race : Race} {protocol : Protocol} {rest : List (Protocol × Option Response)}
    (hthread : s.threads r = .race race) (hdecided : race.decided = false)
    (hresults : race.resultCh = (protocol, none) :: rest) :
    Effect s (.receive r) (s.setRace r { race with resultCh := rest })
  | receivesHTTP2 {r : ℕ} {race : Race} {response : Response} {rest : List (Protocol × Option Response)}
    (hthread : s.threads r = .race race) (hdecided : race.decided = false)
    (hresults : race.resultCh = (.h2, some response) :: rest) :
    Effect s (.receive r)
      { (s.setRace r { race with resultCh := rest, decided := true }).answer response with
        protocolCache := Function.update s.protocolCache race.request.getDialTLSAddr (some .h2) }
  | receivesHTTP3 {r : ℕ} {race : Race} {response : Response} {rest : List (Protocol × Option Response)}
    (hthread : s.threads r = .race race) (hdecided : race.decided = false)
    (hresults : race.resultCh = (.h3, some response) :: rest) :
    Effect s (.receive r)
      { s.setRace r { race with resultCh := rest, decided := true, winner := some response } with
        protocolCache := Function.update s.protocolCache race.request.getDialTLSAddr (some .h3) }
  | returnsWinner {r : ℕ} {race : Race} {response : Response} (hthread : s.threads r = .race race)
    (hfree : s.cachedTransportsLck = none) (hwinner : race.winner = some response) :
    Effect s (.cacheWinner r) ((s.setRace r { race with winner := none }).answer response)
  | cachesWinner {r : ℕ} {race : Race} {response : Response} {t : Transport env rt}
    (hthread : s.threads r = .race race) (hfree : s.cachedTransportsLck = none)
    (hwinner : race.winner = some response)
    (hbuild : s.buildTransport .http3 race.request.getDialTLSAddr = .ok t) :
    Effect s (.cacheWinner r)
      (((s.setRace r { race with winner := none }).answer response).cache (race.request.getDialTLSAddr, .h3) t)
  | timesOut {r : ℕ} {race : Race} (hthread : s.threads r = .race race) :
    Effect s (.timeout r) (s.setRace r { race with decided := true })

variable {s : State env rt}

/-! ## The steps are these -/

/-- The key of a call is its address with its kind. -/
theorem Call.key_eq (call : Call) : call.key = (call.addr, call.key.2) := by
  rw [Call.key]
  split <;> rfl

/-- A request that begins. -/
theorem effect_roundTrip {i : ℕ} {req : Request} (hthread : s.threads i = .idle) :
    Effect s (.roundTrip i req) (s.roundTrip i req) := by
  rw [State.roundTrip]
  split_ifs with hraced
  · obtain ⟨-, -, -, hscheme⟩ := hraced
    cases s.protocolCache req.getDialTLSAddr with
    | some protocol => exact .waits (c := ⟨req, .cached protocol⟩) hthread (.inr hscheme)
    | none => exact .races hthread hscheme
  · exact .waits (c := ⟨req, .direct⟩) hthread (.inl rfl)

/-- A request that takes the lock of the transports. -/
theorem effect_acquire {i : ℕ} {call : Call} (hthread : s.threads i = .waiting call)
    (hfree : s.cachedTransportsLck = none) : Effect s (.acquire i) (s.acquire i call) := by
  rw [State.acquire]
  cases hcached : s.cachedTransports call.key with
  | some t => exact .selects hthread hfree hcached
  | none =>
    have hkey := call.key_eq
    cases hprotocol : call.key.2 with
    | h3 =>
      rw [hprotocol] at hkey
      rw [hkey]
      dsimp only
      cases hbuild : s.buildTransport .http3 call.addr with
      | error err => exact .acquireFails hthread hfree
      | ok t => exact .buildsHTTP3 hthread hfree hcached hkey hbuild
    | h2 =>
      rw [hprotocol] at hkey
      rw [hkey]
      dsimp only
      cases hscheme : call.request.scheme with
      | http => exact .buildsPlain hthread hfree hcached hkey hscheme
      | https => exact .locks hthread hfree hcached hkey hscheme
      | other scheme => exact .acquireFails hthread hfree

/-- A request that takes the lock of its setup. -/
theorem effect_setup {i : ℕ} {call : Call} (hthread : s.threads i = .setup call) (hmutex : s.mutex = none) :
    Effect s (.setup i) (s.setup i call) := by
  rw [State.setup]
  split
  · dsimp only
    split
    · exact .panics hthread hmutex (.inr rfl)
    · exact .panics hthread hmutex (.inl rfl)
  · exact .setupDials hthread hmutex

/-- The dial of a setup ends. -/
theorem effect_setupDone {i : ℕ} {call : Call} (hthread : s.threads i = .setupDialing call)
    (outcome : DialOutcome) : Effect s (.setupDone i outcome) (s.setupDone i call outcome) := by
  cases outcome with
  | dialError => exact .setupFails (r := s.opened) hthread (.inl rfl)
  | handshakeError => exact .setupFails hthread (.inr rfl)
  | pinError => exact .setupFails hthread (.inr rfl)
  | negotiated protocol =>
    rw [State.setupDone]
    cases hbuild : s.buildTransport (kindForProtocol protocol) call.addr with
    | error err => exact .setupFails hthread (.inr rfl)
    | ok t => exact .installs hthread hbuild

/-- A dial of a transport takes its lock. -/
theorem effect_dialStart {j : ℕ} {t : Transport env rt} {addr : Addr}
    (hthread : s.threads j = .dialWaiting t addr) (hmutex : s.mutex = none) :
    Effect s (.dialStart j) (s.dialStart j t addr) := by
  rw [State.dialStart]
  cases hstash : s.cachedConnections addr with
  | some c => exact .takes hthread hmutex hstash
  | none => exact .dialStarts hthread hmutex

/-- A dial of a transport ends. -/
theorem effect_dialDone {j : ℕ} {t : Transport env rt} {addr : Addr} (hthread : s.threads j = .dialing t addr)
    (outcome : DialOutcome) (waiters : List ℕ) :
    Effect s (.dialDone j outcome waiters) (s.dialDone j t addr waiters outcome) := by
  cases outcome with
  | dialError => exact .dialFails (r := s.opened) hthread (.inl rfl)
  | handshakeError => exact .dialFails hthread (.inr rfl)
  | pinError => exact .dialFails hthread (.inr rfl)
  | negotiated protocol =>
    rw [State.dialDone, State.checkKind]
    split_ifs with hkind
    · exact .hands hthread hkind
    · exact .refuses hthread hkind

/-- A response comes over a connection that serves the request. -/
theorem effect_respond {i : ℕ} {call : Call} {t : Transport env rt} {c : Conn}
    (hthread : s.threads i = .running call t) (hhanded : (t, c) ∈ s.handed) (hserves : t.Serves call.request c) :
    Effect s (.respond i c) (s.respond i call c) := by
  rw [State.respond]
  split
  · next r protocol hway => exact .reports hthread hhanded hserves hway
  · next hway => exact .responds hthread hhanded hserves hway

/-- A request whose protocol has changed drops the transport. -/
theorem effect_drop {i : ℕ} {call : Call} {t : Transport env rt} (hthread : s.threads i = .changed call t)
    (hfree : s.cachedTransportsLck = none) : Effect s (.drop i) (s.drop i call t) := by
  rw [State.drop]
  split_ifs with hcached
  · exact .drops hthread hfree hcached
  · exact .leaves hthread hfree hcached

@[simp] theorem buildTransport_setRace (r : ℕ) (race : Race) (kind : TransportKind) (addr : Addr) :
    (s.setRace r race).buildTransport kind addr = s.buildTransport kind addr := rfl

@[simp] theorem buildTransport_answer (response : Response) (kind : TransportKind) (addr : Addr) :
    (s.answer response).buildTransport kind addr = s.buildTransport kind addr := rfl

/-- A race starts an attempt. -/
theorem effect_attempt {r j : ℕ} {race : Race} (hthread : s.threads r = .race race) (hidle : s.threads j = .idle)
    (protocol : Protocol) : Effect s (.attempt r j protocol) (s.attempt r j race protocol) := by
  cases protocol with
  | h2 => exact .attemptsHTTP2 hthread hidle
  | h3 =>
    rw [State.attempt]
    dsimp only [buildTransport_setRace]
    cases hbuild : s.buildTransport .http3 race.request.getDialTLSAddr with
    | error err => exact .attemptFails hthread
    | ok t => exact .attemptsHTTP3 hthread hidle hbuild

/-- A race takes the next result. -/
theorem effect_receive {r : ℕ} {race : Race} (hthread : s.threads r = .race race) (hdecided : race.decided = false) :
    Effect s (.receive r) (s.receive r race) := by
  rw [State.receive]
  split
  · exact .stays
  · next protocol rest hresults => exact .receivesError hthread hdecided hresults
  · next response rest hresults => exact .receivesHTTP2 hthread hdecided hresults
  · next response rest hresults => exact .receivesHTTP3 hthread hdecided hresults

/-- A race records the protocol of its winner. -/
theorem effect_cacheWinner {r : ℕ} {race : Race} {response : Response} (hthread : s.threads r = .race race)
    (hfree : s.cachedTransportsLck = none) (hwinner : race.winner = some response) :
    Effect s (.cacheWinner r) (s.cacheWinner r race response) := by
  rw [State.cacheWinner]
  dsimp only [buildTransport_answer, buildTransport_setRace]
  cases hbuild : s.buildTransport .http3 race.request.getDialTLSAddr with
  | error err => exact .returnsWinner hthread hfree hwinner
  | ok t => exact .cachesWinner hthread hfree hwinner hbuild

/-- Every step has one of the effects. -/
theorem effect_step (s : State env rt) (a : Action) : Effect s a (step s a) := by
  -- an action on a thread that is not at that point changes nothing, and each function has its own lemma above
  cases a with
  | roundTrip i req =>
    rw [step]
    split
    · next hthread => exact effect_roundTrip hthread
    · exact .stays
  | acquire i =>
    rw [step]
    split
    · next call hthread hfree => exact effect_acquire hthread hfree
    · exact .stays
  | setup i =>
    rw [step]
    split
    · next call hthread hmutex => exact effect_setup hthread hmutex
    · exact .stays
  | setupDone i outcome =>
    rw [step]
    split
    · next call hthread => exact effect_setupDone hthread outcome
    · exact .stays
  | dial i j =>
    rw [step]
    split
    · next call t hthread hidle =>
      split_ifs with hdials
      · exact .dials hthread hidle hdials
      · exact .stays
    · exact .stays
  | dialStart j =>
    rw [step]
    split
    · next t addr hthread hmutex => exact effect_dialStart hthread hmutex
    · exact .stays
  | dialDone j outcome waiters =>
    rw [step]
    split
    · next t addr hthread => exact effect_dialDone hthread outcome waiters
    · exact .stays
  | dialTCP i =>
    rw [step]
    split
    · next call t hthread =>
      split_ifs with hdials
      · exact .dialsTCP hthread hdials
      · exact .stays
    · exact .stays
  | dialQUIC i connects =>
    rw [step]
    split
    · next call t hthread =>
      split_ifs with hdials
      · exact .dialsQUIC hthread hdials
      · exact .stays
    · exact .stays
  | respond i c =>
    rw [step]
    split
    · next call t hthread =>
      split_ifs with henabled
      · exact effect_respond hthread henabled.1 henabled.2
      · exact .stays
    · exact .stays
  | fail i =>
    rw [step]
    split
    · next call t hthread => exact .fails hthread
    · exact .stays
  | drop i =>
    rw [step]
    split
    · next call t hthread hfree => exact effect_drop hthread hfree
    · exact .stays
  | dropKind i =>
    rw [step]
    split
    · next call t hthread => exact .dropsKind hthread
    · exact .stays
  | attempt r j protocol =>
    rw [step]
    split
    · next race hthread hidle =>
      split_ifs with hpending
      · exact effect_attempt hthread hidle protocol
      · exact .stays
    · exact .stays
  | receive r =>
    rw [step]
    split
    · next race hthread =>
      split_ifs with hdecided
      · exact .stays
      · exact effect_receive hthread (Bool.eq_false_of_not_eq_true hdecided)
    · exact .stays
  | cacheWinner r =>
    rw [step]
    split
    · next race hthread hfree =>
      split
      · next response hwinner => exact effect_cacheWinner hthread hfree hwinner
      · exact .stays
    · exact .stays
  | timeout r =>
    rw [step]
    split
    · next race hthread => exact .timesOut hthread
    · exact .stays

/-! ## What a call that fails leaves alone -/

/-- Delivering a result changes threads only. -/
theorem deliver_eq (s : State env rt) (r : ℕ) (result : Protocol × Option Response) :
    s.deliver r result = { s with threads := (s.deliver r result).threads } := by
  rw [State.deliver]
  split <;> rfl

/-- A failed call changes threads only. -/
theorem failCall_eq (s : State env rt) (i : ℕ) (call : Call) :
    s.failCall i call =
      { s with
        threads := (s.failCall i call).threads
        protocolCache := (s.failCall i call).protocolCache } := by
  rw [State.failCall]
  split
  · rfl
  · rfl
  · rw [deliver_eq]
    rfl

@[simp] theorem opened_deliver (s : State env rt) (r : ℕ) (result : Protocol × Option Response) :
    (s.deliver r result).opened = s.opened := by
  rw [deliver_eq]

@[simp] theorem returned_deliver (s : State env rt) (r : ℕ) (result : Protocol × Option Response) :
    (s.deliver r result).returned = s.returned := by
  rw [deliver_eq]

@[simp] theorem returned_failCall (s : State env rt) (i : ℕ) (call : Call) :
    (s.failCall i call).returned = s.returned := by
  rw [failCall_eq]

@[simp] theorem selected_deliver (s : State env rt) (r : ℕ) (result : Protocol × Option Response) :
    (s.deliver r result).selected = s.selected := by
  rw [deliver_eq]

@[simp] theorem selected_failCall (s : State env rt) (i : ℕ) (call : Call) :
    (s.failCall i call).selected = s.selected := by
  rw [failCall_eq]

@[simp] theorem opened_failCall (s : State env rt) (i : ℕ) (call : Call) :
    (s.failCall i call).opened = s.opened := by
  rw [failCall_eq]

/-- The thread holds no lock and drops no transport. -/
def Thread.Neutral : Thread env rt → Prop
  | .setup _ => False
  | .setupDialing _ => False
  | .dropping _ _ => False
  | _ => True

@[simp] theorem threads_goto_self (s : State env rt) (i : ℕ) (thread : Thread env rt) :
    (s.goto i thread).threads i = thread :=
  Function.update_self ..

theorem threads_goto_of_ne (s : State env rt) {i j : ℕ} (thread : Thread env rt) (hj : j ≠ i) :
    (s.goto i thread).threads j = s.threads j :=
  Function.update_of_ne hj ..

/-- Delivering a result leaves a thread alone, or takes it from one neutral place to another. -/
theorem threads_deliver (s : State env rt) (r : ℕ) (result : Protocol × Option Response) (j : ℕ) :
    (s.deliver r result).threads j = s.threads j ∨
      ((s.deliver r result).threads j).Neutral ∧ (s.threads j).Neutral := by
  rw [State.deliver]
  split
  · next race hthread =>
    by_cases hj : j = r
    · rw [hj, State.setRace, threads_goto_self, hthread]
      exact .inr ⟨trivial, trivial⟩
    · exact .inl (threads_goto_of_ne s _ hj)
  · exact .inl rfl

/-- A call that fails ends on its thread. -/
theorem neutral_failCall (s : State env rt) (i : ℕ) (call : Call) : ((s.failCall i call).threads i).Neutral := by
  rw [State.failCall]
  split
  · rw [threads_goto_self]
    trivial
  · rw [State.setRace]
    dsimp only
    rw [threads_goto_self]
    trivial
  · next r protocol hway =>
    rcases threads_deliver (s.goto i .idle) r (protocol, none) i with hsame | ⟨hneutral, -⟩
    · rw [hsame, threads_goto_self]
      trivial
    · exact hneutral

/-- Of the other threads at most a race hears of a call that fails. -/
theorem threads_failCall (s : State env rt) (call : Call) {i j : ℕ} (hj : j ≠ i) :
    (s.failCall i call).threads j = s.threads j ∨
      ((s.failCall i call).threads j).Neutral ∧ (s.threads j).Neutral := by
  rw [State.failCall]
  split
  · exact .inl (threads_goto_of_ne s _ hj)
  · exact .inl (threads_goto_of_ne s _ hj)
  · next r protocol hway =>
    have hdeliver := threads_deliver (s.goto i .idle) r (protocol, none) j
    rwa [threads_goto_of_ne s _ hj] at hdeliver

/-- Of the threads only those that wait for the dial hear that it is refused. -/
theorem threads_refuse (s : State env rt) (refusal : Refusal env rt) (waiters : List ℕ) (i : ℕ) :
    (s.refuse refusal waiters).threads i = s.threads i ∨
      ∃ call, s.threads i = .running call refusal.transport ∧ refusal.transport.DialsTLS call.request ∧
        call.request.canonicalAddr env refusal.transport.kind = refusal.addr ∧
        (s.refuse refusal waiters).threads i = .changed call refusal.transport := by
  rw [State.refuse]
  dsimp only
  split
  · next call t hthread =>
    split_ifs with hwaits
    · obtain ⟨-, rfl, hdials, haddr⟩ := hwaits
      exact .inr ⟨call, hthread, hdials, haddr, rfl⟩
    · exact .inl hthread.symm
  · exact .inl rfl

end TlsClient.Engine.RoundTrip
