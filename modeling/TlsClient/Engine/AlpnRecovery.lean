import TlsClient.Engine.SchemeCache

/-!
# Recovery from a change of protocol

Requests to one address, one after another, without racing: the runs of the round tripper in which one thread
sends them, while dials of the transports may go on in the background. A server that negotiates another
protocol than before costs a request, which fails with `errProtocolChanged` and drops the transport, and the
next request builds one that fits (`recovers`).

The round tripper keeps what belongs to an address under the name in the URL, and the transports dial the
ASCII form of that name. Where the two differ, no connection that a transport dials is found to fit, and the
connection stashed for the first one stays behind.
-/

namespace TlsClient.Engine.RoundTrip

open TlsClient.Ffi Utf8

variable {F D : Type} {env : Environment} {rt : RoundTripper F D} {s s' : State env rt} {addr : Addr}

/-- Requests are not raced. -/
def RoundTripper.Unraced (rt : RoundTripper F D) : Prop :=
  ¬ (rt.racer ∧ ¬ rt.forceHttp1 ∧ ¬ rt.disableHttp3)

/-- Only the first thread sends requests, by https to the address, and no TLS connection negotiates HTTP/3. -/
def Sequential (addr : Addr) : Action → Prop
  | .roundTrip i req => i = 0 ∧ req.scheme = .https ∧ req.getDialTLSAddr = addr
  | .setupDone _ (.negotiated protocol) => kindForProtocol protocol ≠ .http3
  | .dialDone _ (.negotiated protocol) _ => kindForProtocol protocol ≠ .http3
  | _ => True

/-- The condition: the transports dial the address under which the request is kept. -/
def DialsItsAddr (env : Environment) : Action → Prop
  | .roundTrip _ req => ∀ kind, kind ≠ .http3 → req.canonicalAddr env kind = req.getDialTLSAddr
  | _ => True

/-! ## What recovery is -/

/-- Nothing is kept for the address. -/
structure Clear (addr : Addr) (s : State env rt) : Prop where
  transport : s.cachedTransports (addr, .h2) = none
  kind : s.cachedKinds addr = none
  stash : s.cachedConnections addr = none

/-- The transport is the one cached for the address, with its kind. -/
structure Cached (addr : Addr) (s : State env rt) (t : Transport env rt) : Prop where
  transport : s.cachedTransports (addr, .h2) = some t
  kind : s.cachedKinds addr = some t.kind

/-- A request fails with `errProtocolChanged` only over a connection of another kind than its transport, which
is the cached one and has been through with its first connection. Then nothing is kept for the address, and
the next request builds a transport of the kind that is negotiated for it. -/
structure Recovers (addr : Addr) (s : State env rt) : Prop where
  refused : ∀ a call t, s.threads 0 = .running call t → (step s a).threads 0 = .changed call t →
    Cached addr s t ∧ s.cachedConnections addr = none ∧
      ∃ j protocol waiters, a = .dialDone j (.negotiated protocol) waiters ∧ kindForProtocol protocol ≠ t.kind
  dropped : ∀ call t, s.threads 0 = .changed call t →
    (step s (.drop 0)).threads 0 = .dropping call t ∧ (step s (.drop 0)).cachedTransports (addr, .h2) = none
  forgotten : ∀ call t, s.threads 0 = .dropping call t →
    (step s (.dropKind 0)).threads 0 = .idle ∧ Clear addr (step s (.dropKind 0))
  /-- between two requests a transport is kept with its kind, or nothing is -/
  settled : s.threads 0 = .idle → Clear addr s ∨ ∃ t, Cached addr s t
  locks : ∀ call, s.threads 0 = .waiting call → s.cachedTransports (addr, .h2) = none →
    (step s (.acquire 0)).threads 0 = .setup call
  dials : ∀ call, s.threads 0 = .setup call → s.mutex = none → (step s (.setup 0)).threads 0 = .setupDialing call
  builds : ∀ call protocol, s.threads 0 = .setupDialing call → kindForProtocol protocol ≠ .http3 →
    ∃ t, (step s (.setupDone 0 (.negotiated protocol))).threads 0 = .running call t ∧
      Cached addr (step s (.setupDone 0 (.negotiated protocol))) t ∧ t.kind = kindForProtocol protocol ∧
      (step s (.setupDone 0 (.negotiated protocol))).cachedConnections addr = some (rt.tlsConn addr protocol)

/-! ## The invariant -/

/-- Every transport but that of HTTP/3 can be built. -/
theorem buildTransport_of_ne {kind : TransportKind} (hkind : kind ≠ .http3) :
    ∃ t, s.buildTransport kind addr = .ok t :=
  ⟨_, dif_neg hkind⟩

/-- A request of the run. -/
structure Serial (env : Environment) (addr : Addr) (call : Call) : Prop where
  way : call.way = .direct
  scheme : call.request.scheme = .https
  kept : call.addr = addr
  dialled : ∀ kind, kind ≠ .http3 → call.request.canonicalAddr env kind = addr

theorem Serial.key_eq {call : Call} (h : Serial env addr call) : call.key = (addr, .h2) := by
  rw [Call.key, h.way, h.kept]

/-- The transport is the https transport cached for the address. -/
structure Fits (addr : Addr) (s : State env rt) (t : Transport env rt) : Prop extends Cached addr s t where
  secure : t.secure = true
  tcp : t.kind ≠ .http3

/-- Nothing is kept for the address, or a transport that fits. -/
def Settled (addr : Addr) (s : State env rt) : Prop :=
  Clear addr s ∨ ∃ t, Fits addr s t

/-- Where the thread of the requests stands. -/
def Stands (addr : Addr) (s : State env rt) : Thread env rt → Prop
  | .idle => s.cachedTransportsLck = none ∧ Settled addr s
  | .waiting call => Serial env addr call ∧ s.cachedTransportsLck = none ∧ Settled addr s
  | .setup call => Serial env addr call ∧ Clear addr s
  | .setupDialing call => Serial env addr call ∧ Clear addr s ∧ s.mutex = some 0
  | .running call t => Serial env addr call ∧ s.cachedTransportsLck = none ∧ Fits addr s t
  | .changed call t => Serial env addr call ∧ s.cachedTransportsLck = none ∧ Fits addr s t ∧
      s.cachedConnections addr = none
  | .dropping call _ => Serial env addr call ∧ s.cachedTransportsLck = none ∧
      s.cachedTransports (addr, .h2) = none ∧ s.cachedConnections addr = none
  | _ => False

/-- The other threads only dial. -/
def Thread.Background : Thread env rt → Prop
  | .idle => True
  | .dialWaiting _ _ => True
  | .dialing _ _ => True
  | _ => False

structure Steady (addr : Addr) (s : State env rt) : Prop where
  requests : Stands addr s (s.threads 0)
  background : ∀ i, i ≠ 0 → (s.threads i).Background
  /-- a dial that has found no connection holds the mutex -/
  dialing : ∀ i t a, s.threads i = .dialing t a → s.mutex = some i ∧ s.cachedConnections a = none

/-- What is settled stays so while its caches are kept. -/
theorem Settled.keep (h : Settled addr s)
    (hcached : s'.cachedTransports (addr, .h2) = s.cachedTransports (addr, .h2))
    (hkinds : s'.cachedKinds addr = s.cachedKinds addr)
    (hstash : s.cachedConnections addr = none → s'.cachedConnections addr = none) : Settled addr s' := by
  rcases h with h | ⟨t, h⟩
  · exact .inl ⟨hcached.trans h.transport, hkinds.trans h.kind, hstash h.stash⟩
  · exact .inr ⟨t, ⟨hcached.trans h.transport, hkinds.trans h.kind⟩, h.secure, h.tcp⟩

/-- A step beside the requests leaves them where they are. -/
theorem Stands.keep {thread : Thread env rt} (h : Stands addr s thread)
    (hcached : s'.cachedTransports (addr, .h2) = s.cachedTransports (addr, .h2))
    (hkinds : s'.cachedKinds addr = s.cachedKinds addr)
    (hstash : s.cachedConnections addr = none → s'.cachedConnections addr = none)
    (hlock : s'.cachedTransportsLck = s.cachedTransportsLck)
    (hmutex : s.mutex = some 0 → s'.mutex = some 0) : Stands addr s' thread := by
  cases thread with
  | idle => exact ⟨hlock.trans h.1, h.2.keep hcached hkinds hstash⟩
  | waiting call => exact ⟨h.1, hlock.trans h.2.1, h.2.2.keep hcached hkinds hstash⟩
  | setup call => exact ⟨h.1, hcached.trans h.2.transport, hkinds.trans h.2.kind, hstash h.2.stash⟩
  | setupDialing call =>
    obtain ⟨hserial, hclear, hheld⟩ := h
    exact ⟨hserial, ⟨hcached.trans hclear.transport, hkinds.trans hclear.kind, hstash hclear.stash⟩, hmutex hheld⟩
  | running call t =>
    obtain ⟨hserial, hfree, hfits⟩ := h
    exact ⟨hserial, hlock.trans hfree, ⟨hcached.trans hfits.transport, hkinds.trans hfits.kind⟩, hfits.secure,
      hfits.tcp⟩
  | changed call t =>
    obtain ⟨hserial, hfree, hfits, hnone⟩ := h
    exact ⟨hserial, hlock.trans hfree, ⟨⟨hcached.trans hfits.transport, hkinds.trans hfits.kind⟩, hfits.secure,
      hfits.tcp⟩, hstash hnone⟩
  | dropping call t =>
    obtain ⟨hserial, hfree, hnone, hstashed⟩ := h
    exact ⟨hserial, hlock.trans hfree, hcached.trans hnone, hstash hstashed⟩
  | dialWaiting t a => exact h
  | dialing t a => exact h
  | race race => exact h
  | panicked call => exact h

namespace Steady

/-- A thread that is not where the request's own may stand is another one. -/
theorem background_of_ne_zero (h : Steady addr s) {i : ℕ} {thread : Thread env rt} (hthread : s.threads i = thread)
    (hnot : ¬ Stands addr s thread) : i ≠ 0 := by
  rintro rfl
  exact hnot (hthread ▸ h.requests)

/-- A thread that does not dial is that of the requests. -/
theorem eq_zero (h : Steady addr s) {i : ℕ} {thread : Thread env rt} (hthread : s.threads i = thread)
    (hnot : ¬ thread.Background) : i = 0 := by
  by_contra hi
  exact hnot (hthread ▸ h.background i hi)

/-- A thread that is not in the background is the request's own. -/
theorem stands (h : Steady addr s) {i : ℕ} {thread : Thread env rt} (hthread : s.threads i = thread)
    (hnot : ¬ thread.Background) : i = 0 ∧ Stands addr s thread := by
  obtain rfl := h.eq_zero hthread hnot
  exact ⟨rfl, hthread ▸ h.requests⟩

theorem not_race (h : Steady addr s) {r : ℕ} {race : Race} (hthread : s.threads r = .race race) : False :=
  (h.stands hthread id).2

/-- A step that touches nothing of it. -/
theorem beside (h : Steady addr s) (hthreads : s'.threads = s.threads)
    (hcached : s'.cachedTransports = s.cachedTransports) (hkinds : s'.cachedKinds = s.cachedKinds)
    (hlock : s'.cachedTransportsLck = s.cachedTransportsLck)
    (hstash : s'.cachedConnections = s.cachedConnections) (hmutex : s'.mutex = s.mutex) : Steady addr s' where
  requests := by
    rw [hthreads]
    exact h.requests.keep (congrFun hcached _) (congrFun hkinds _) (fun hnone => (congrFun hstash _).trans hnone)
      hlock fun hheld => hmutex.trans hheld
  background := hthreads ▸ h.background
  dialing := by
    rw [hthreads, hmutex, hstash]
    exact h.dialing

/-- A step of the requests. -/
theorem request (h : Steady addr s) {thread : Thread env rt}
    (hthreads : s'.threads = Function.update s.threads 0 thread) (hstands : Stands addr s' thread)
    (hdialing : ∀ i, i ≠ 0 → s.mutex = some i → s'.mutex = some i ∧
      ∀ a, s.cachedConnections a = none → s'.cachedConnections a = none) : Steady addr s' where
  requests := by
    rw [hthreads, Function.update_self]
    exact hstands
  background i hi := by
    rw [hthreads, Function.update_of_ne hi]
    exact h.background i hi
  dialing i t a hthread := by
    by_cases hi : i = 0
    · rw [hthreads, hi, Function.update_self] at hthread
      rw [hthread] at hstands
      exact hstands.elim
    · rw [hthreads, Function.update_of_ne hi] at hthread
      obtain ⟨hheld, hnone⟩ := h.dialing i t a hthread
      obtain ⟨hkept, hstash⟩ := hdialing i hi hheld
      exact ⟨hkept, hstash a hnone⟩

/-- A step of a dial. -/
theorem dial (h : Steady addr s) {j : ℕ} {thread : Thread env rt} (hj : j ≠ 0)
    (hthreads : s'.threads = Function.update s.threads j thread) (hbackground : thread.Background)
    (hcached : s'.cachedTransports = s.cachedTransports) (hkinds : s'.cachedKinds = s.cachedKinds)
    (hlock : s'.cachedTransportsLck = s.cachedTransportsLck)
    (hstash : ∀ a, s.cachedConnections a = none → s'.cachedConnections a = none)
    (hmutex : s.mutex = some 0 → s'.mutex = some 0)
    (hself : ∀ t a, thread = .dialing t a → s'.mutex = some j ∧ s'.cachedConnections a = none)
    (hothers : ∀ i, i ≠ j → s.mutex = some i → s'.mutex = some i) : Steady addr s' where
  requests := by
    rw [hthreads, Function.update_of_ne hj.symm]
    exact h.requests.keep (congrFun hcached _) (congrFun hkinds _) (hstash addr) hlock hmutex
  background i hi := by
    rw [hthreads, Function.update_apply]
    split_ifs
    · exact hbackground
    · exact h.background i hi
  dialing i t a hthread := by
    rw [hthreads, Function.update_apply] at hthread
    split_ifs at hthread with hij
    · rw [hij]
      exact hself t a hthread
    · obtain ⟨hheld, hnone⟩ := h.dialing i t a hthread
      exact ⟨hothers i hij hheld, hstash a hnone⟩

/-- A request that fails leaves what is kept. -/
theorem failCall (h : Steady addr s) {call : Call} (hserial : Serial env addr call)
    (hfree : s.cachedTransportsLck = none) (hsettled : Settled addr s) : Steady addr (s.failCall 0 call) := by
  rw [State.failCall, hserial.way]
  have hstands : Stands addr (s.goto 0 .idle) .idle := ⟨hfree, hsettled.keep rfl rfl id⟩
  have hrequest : Steady addr (s.goto 0 .idle) := h.request rfl hstands fun i _ hheld => ⟨hheld, fun _ hnone => hnone⟩
  exact hrequest

/-- A dial that is refused reaches the request, if that waits for it. -/
theorem refuse (h : Steady addr s) {refusal : Refusal env rt} (hnone : s.cachedConnections refusal.addr = none)
    (waiters : List ℕ) : Steady addr (s.refuse refusal waiters) where
  requests := by
    have hrequests : Stands addr (s.refuse refusal waiters) (s.threads 0) := h.requests.keep rfl rfl id rfl id
    rcases threads_refuse s refusal waiters 0 with hsame | ⟨call, hrunning, -, haddr, hchanged⟩
    · rw [hsame]
      exact hrequests
    · rw [hrunning] at hrequests
      obtain ⟨hserial, hfree, hfits⟩ := hrequests
      rw [hchanged]
      refine ⟨hserial, hfree, hfits, ?_⟩
      rw [hserial.dialled _ hfits.tcp] at haddr
      exact haddr ▸ hnone
  background i hi := by
    have hbackground := h.background i hi
    rcases threads_refuse s refusal waiters i with hsame | ⟨call, hrunning, -, -, -⟩
    · rw [hsame]
      exact hbackground
    · rw [hrunning] at hbackground
      exact hbackground.elim
  dialing i t a hthread := by
    rcases threads_refuse s refusal waiters i with hsame | ⟨call, -, -, -, hchanged⟩
    · exact h.dialing i t a (hsame ▸ hthread)
    · rw [hchanged] at hthread
      contradiction

/-! ### The steps -/

/-- A request that begins keeps it steady. -/
theorem roundTrip (h : Steady addr s) (hunraced : rt.Unraced) {i : ℕ} {req : Request}
    (hseq : Sequential addr (.roundTrip i req)) (hdials : DialsItsAddr env (.roundTrip i req)) :
    Steady addr (step s (.roundTrip i req)) := by
  obtain ⟨rfl, hscheme, haddr⟩ := hseq
  rw [step]
  split
  · next hthread =>
    have hrequests := h.requests
    rw [hthread] at hrequests
    rw [State.roundTrip, if_neg fun hraced => hunraced ⟨hraced.1, hraced.2.1, hraced.2.2.1⟩]
    have hserial : Serial env addr ⟨req, .direct⟩ :=
      ⟨rfl, hscheme, haddr, fun kind hkind => (hdials kind hkind).trans haddr⟩
    exact h.request rfl ⟨hserial, hrequests.1, hrequests.2.keep rfl rfl id⟩
      fun i _ hheld => ⟨hheld, fun _ hnone => hnone⟩
  · exact h

/-- A setup that goes on keeps it steady. -/
theorem setup (h : Steady addr s) (i : ℕ) : Steady addr (step s (.setup i)) := by
  rw [step]
  split
  · next call hthread hmutex =>
    obtain ⟨rfl, hserial, hclear⟩ := h.stands hthread id
    -- no connection is left behind, so `getTransport` does not panic
    rw [State.setup, hserial.kept, hclear.stash]
    refine h.request rfl ⟨hserial, ⟨hclear.transport, hclear.kind, hclear.stash⟩, rfl⟩ fun i _ hheld => ?_
    rw [hmutex] at hheld
    contradiction
  · exact h

/-- A dial that begins keeps it steady. -/
theorem dialStart (h : Steady addr s) (j : ℕ) : Steady addr (step s (.dialStart j)) := by
  rw [step]
  split
  · next t a hthread hmutex =>
    have hj : j ≠ 0 := h.background_of_ne_zero hthread id
    have hfree : ∀ {i}, s.mutex = some i → False := fun hheld => by
      rw [hmutex] at hheld
      contradiction
    rw [State.dialStart]
    cases hstash : s.cachedConnections a with
    | some c =>
      refine h.dial hj rfl trivial rfl rfl rfl (fun b hnone => ?_) (fun hheld => (hfree hheld).elim)
        (fun _ _ hdialing => by contradiction) fun _ _ hheld => (hfree hheld).elim
      change Function.update s.cachedConnections a none b = none
      rw [Function.update_apply]
      split_ifs
      · rfl
      · exact hnone
    | none =>
      refine h.dial hj rfl trivial rfl rfl rfl (fun _ hnone => hnone) (fun hheld => (hfree hheld).elim)
        (fun t' a' hdialing => ?_) fun _ _ hheld => (hfree hheld).elim
      obtain ⟨rfl, rfl⟩ := Thread.dialing.inj hdialing
      exact ⟨rfl, hstash⟩
  · exact h

/-- A dial is over, and its thread has given the mutex back. -/
theorem dialOver (h : Steady addr s) {j : ℕ} {t : Transport env rt} {a : Addr} (hthread : s.threads j = .dialing t a)
    (hthreads : s'.threads = Function.update s.threads j .idle)
    (hcached : s'.cachedTransports = s.cachedTransports) (hkinds : s'.cachedKinds = s.cachedKinds)
    (hlock : s'.cachedTransportsLck = s.cachedTransportsLck)
    (hstash : s'.cachedConnections = s.cachedConnections) : Steady addr s' := by
  have hj : j ≠ 0 := h.background_of_ne_zero hthread id
  have hheld := (h.dialing j t a hthread).1
  have honly : ∀ {i}, s.mutex = some i → i = j := fun hi => Option.some.inj (hi.symm.trans hheld)
  exact h.dial hj hthreads trivial hcached hkinds hlock (fun b hnone => (congrFun hstash b).trans hnone)
    (fun hzero => absurd (honly hzero).symm hj) (fun _ _ hdialing => by contradiction)
    fun i hi hother => absurd (honly hother) hi

/-- Every step of a serial run keeps it steady. -/
theorem step (h : Steady addr s) (hunraced : rt.Unraced) {a : Action} (hseq : Sequential addr a)
    (hdials : DialsItsAddr env a) : Steady addr (RoundTrip.step s a) := by
  -- these three are done apart, where the step is read off the state and not off its effect
  by_cases hspecial : (∃ i req, a = .roundTrip i req) ∨ (∃ i, a = .setup i) ∨ ∃ j, a = .dialStart j
  · rcases hspecial with ⟨i, req, rfl⟩ | ⟨i, rfl⟩ | ⟨j, rfl⟩
    · exact h.roundTrip hunraced hseq hdials
    · exact h.setup i
    · exact h.dialStart j
  have hsame : ∀ i, i ≠ 0 → s.mutex = some i → s.mutex = some i ∧
      ∀ a, s.cachedConnections a = none → s.cachedConnections a = none :=
    fun i _ hheld => ⟨hheld, fun _ hnone => hnone⟩
  have heffect := effect_step s a
  generalize RoundTrip.step s a = s' at heffect
  cases heffect with
  | stays => exact h
  | waits => exact absurd (.inl ⟨_, _, rfl⟩) hspecial
  | races => exact absurd (.inl ⟨_, _, rfl⟩) hspecial
  | @selects i call t hthread hfree hcached =>
    obtain ⟨rfl, hserial, -, hsettled⟩ := h.stands hthread id
    rw [hserial.key_eq] at hcached
    -- what is cached for the address is the transport that the last request has left
    have hfits : Fits addr s t := by
      rcases hsettled with hclear | ⟨t', hfits⟩
      · rw [hclear.transport] at hcached
        contradiction
      · rw [hfits.transport] at hcached
        exact Option.some.inj hcached ▸ hfits
    exact h.request rfl ⟨hserial, hfree, ⟨hfits.transport, hfits.kind⟩, hfits.secure, hfits.tcp⟩ hsame
  | @buildsHTTP3 i call t hthread hfree hcached hkey hbuild =>
    obtain ⟨-, hserial, -⟩ := h.stands hthread id
    rw [hserial.key_eq] at hkey
    -- without racing nothing asks for HTTP/3
    have hprotocol : Protocol.h2 = .h3 := congrArg Prod.snd hkey
    contradiction
  | @buildsPlain i call hthread hfree hcached hkey hscheme =>
    obtain ⟨-, hserial, -⟩ := h.stands hthread id
    rw [hserial.scheme] at hscheme
    contradiction
  | @locks i call hthread hfree hcached hkey hscheme =>
    obtain ⟨rfl, hserial, -, hsettled⟩ := h.stands hthread id
    rw [hserial.key_eq] at hcached
    -- nothing is cached, so the last request has left no kind and no connection either
    have hclear : Clear addr s := by
      rcases hsettled with hclear | ⟨t, hfits⟩
      · exact hclear
      · rw [hfits.transport] at hcached
        contradiction
    exact h.request rfl ⟨hserial, hclear.transport, hclear.kind, hclear.stash⟩ hsame
  | @acquireFails i call hthread hfree =>
    obtain ⟨rfl, hserial, -, hsettled⟩ := h.stands hthread id
    exact h.failCall hserial hfree hsettled
  | panics => exact absurd (.inr (.inl ⟨_, rfl⟩)) hspecial
  | setupDials => exact absurd (.inr (.inl ⟨_, rfl⟩)) hspecial
  | @setupFails i call outcome r hthread hroutes =>
    obtain ⟨rfl, hserial, hclear, hheld⟩ := h.stands hthread id
    have hstands : Stands addr ({ s.unlock with opened := r }.goto 0 .idle) .idle :=
      ⟨rfl, .inl ⟨hclear.transport, hclear.kind, hclear.stash⟩⟩
    rw [State.failCall, hserial.way]
    refine h.request rfl hstands fun i hi hother => ?_
    exact absurd (Option.some.inj (hother.symm.trans hheld)) hi
  | @installs i call protocol t hthread hbuild =>
    obtain ⟨rfl, hserial, hclear, hheld⟩ := h.stands hthread id
    obtain ⟨hkind, hsecure, -⟩ := buildTransport_ok hbuild
    -- the transport and its kind are of the connection that was negotiated; the lock was held by the request
    refine h.request rfl ⟨hserial, rfl, ⟨?_, ?_⟩, hsecure, hkind ▸ hseq⟩ fun i hi hother => ?_
    · exact hserial.kept ▸ Function.update_self ..
    · rw [hkind, ← hserial.kept]
      exact Function.update_self ..
    · exact absurd (Option.some.inj (hother.symm.trans hheld)) hi
  | @dials i j call t hthread hidle hdials =>
    have hj : j ≠ 0 := by
      rintro rfl
      obtain ⟨rfl, -⟩ := h.stands hthread id
      rw [hidle] at hthread
      contradiction
    exact h.dial hj rfl trivial rfl rfl rfl (fun _ hnone => hnone) id (fun _ _ hdialing => by contradiction)
      fun _ _ hheld => hheld
  | takes => exact absurd (.inr (.inr ⟨_, rfl⟩)) hspecial
  | dialStarts => exact absurd (.inr (.inr ⟨_, rfl⟩)) hspecial
  | dialFails hthread hroutes => exact h.dialOver hthread rfl rfl rfl rfl rfl
  | hands hthread hkind => exact h.dialOver hthread rfl rfl rfl rfl rfl
  | @refuses j t a protocol waiters hthread hkind =>
    have hnone := (h.dialing j t a hthread).2
    apply Steady.refuse
    · exact h.dialOver hthread rfl rfl rfl rfl rfl
    · exact hnone
  | @dialsTCP i call t hthread hdials =>
    exact h.beside rfl rfl rfl rfl rfl rfl
  | @dialsQUIC i call t connects hthread hdials =>
    rw [State.dialQUIC]
    split_ifs
    · exact h.beside rfl rfl rfl rfl rfl rfl
    · exact h.beside rfl rfl rfl rfl rfl rfl
  | @responds i call t c hthread hhanded hserves hway =>
    obtain ⟨rfl, hserial, hfree, hfits⟩ := h.stands hthread id
    exact h.request rfl ⟨hfree, .inr ⟨t, ⟨hfits.transport, hfits.kind⟩, hfits.secure, hfits.tcp⟩⟩ hsame
  | @reports i r call t c protocol hthread hhanded hserves hway =>
    obtain ⟨-, hserial, -⟩ := h.stands hthread id
    rw [hserial.way] at hway
    contradiction
  | @fails i call t hthread =>
    obtain ⟨rfl, hserial, hfree, hfits⟩ := h.stands hthread id
    exact h.failCall hserial hfree (.inr ⟨t, hfits⟩)
  | @drops i call t hthread hfree hcached =>
    obtain ⟨rfl, hserial, -, hfits, hnone⟩ := h.stands hthread id
    refine h.request rfl ⟨hserial, hfree, ?_, hnone⟩ hsame
    exact hserial.kept ▸ Function.update_self ..
  | @leaves i call t hthread hfree hcached =>
    obtain ⟨rfl, hserial, -, hfits, -⟩ := h.stands hthread id
    -- the transport of the request is still cached, as no other request has run
    exact absurd (hserial.kept ▸ hfits.transport) hcached
  | @dropsKind i call t hthread =>
    obtain ⟨rfl, hserial, hfree, hnone, hstash⟩ := h.stands hthread id
    rw [State.dropKind, State.failCall, hserial.way]
    refine h.request rfl ⟨hfree, .inl ⟨hnone, ?_, hstash⟩⟩ hsame
    exact hserial.kept ▸ Function.update_self ..
  | attemptsHTTP2 hthread hidle => exact (h.not_race hthread).elim
  | attemptsHTTP3 hthread hidle hbuild => exact (h.not_race hthread).elim
  | attemptFails hthread => exact (h.not_race hthread).elim
  | receivesError hthread hdecided hresults => exact (h.not_race hthread).elim
  | receivesHTTP2 hthread hdecided hresults => exact (h.not_race hthread).elim
  | receivesHTTP3 hthread hdecided hresults => exact (h.not_race hthread).elim
  | returnsWinner hthread hfree hwinner => exact (h.not_race hthread).elim
  | cachesWinner hthread hfree hwinner hbuild => exact (h.not_race hthread).elim
  | timesOut hthread => exact (h.not_race hthread).elim

end Steady

/-- At the start it is steady. -/
theorem steady_init (addr : Addr) : Steady addr ({} : State env rt) where
  requests := ⟨rfl, .inl ⟨rfl, rfl, rfl⟩⟩
  background _ _ := trivial
  dialing _ _ _ hthread := by contradiction

/-! ## Recovery -/

/-- A step that gives one thread another stand does not make the request of the first one fail so. -/
theorem not_changed {i : ℕ} {thread : Thread env rt} {call : Call} {t : Transport env rt}
    (hrunning : s.threads 0 = .running call t) (hthreads : s'.threads = Function.update s.threads i thread)
    (hthread : ∀ call t, thread ≠ .changed call t) : s'.threads 0 ≠ .changed call t := by
  rw [hthreads, Function.update_apply]
  split_ifs
  · exact hthread call t
  · rw [hrunning]
    exact fun heq => by contradiction

/-- Only a refused dial makes a request fail with `errProtocolChanged`. -/
theorem refused_of_changed (h : Steady addr s) {a : Action} {call : Call} {t : Transport env rt}
    (hrunning : s.threads 0 = .running call t) (hchanged : (step s a).threads 0 = .changed call t) :
    ∃ j protocol waiters, a = .dialDone j (.negotiated protocol) waiters ∧
      s.threads j = .dialing t addr ∧ s.cachedKinds addr ≠ some (kindForProtocol protocol) := by
  have hrequests := h.requests
  rw [hrunning] at hrequests
  obtain ⟨hserial, hfree, hfits⟩ := hrequests
  -- the thread of the requests is not anywhere else
  have hzero : ∀ {i thread}, s.threads i = thread → ¬ thread.Background → thread = .running call t := by
    intro i thread hthread hnot
    obtain rfl := h.eq_zero hthread hnot
    exact hthread.symm.trans hrunning
  have heffect := effect_step s a
  generalize step s a = s' at heffect hchanged
  cases heffect with
  | stays =>
    rw [hrunning] at hchanged
    contradiction
  | waits hthread => exact absurd hchanged (not_changed hrunning rfl (by simp))
  | races hthread => exact absurd hchanged (not_changed hrunning rfl (by simp))
  | selects hthread => exact absurd (hzero hthread id) (by simp)
  | buildsHTTP3 hthread => exact absurd (hzero hthread id) (by simp)
  | buildsPlain hthread => exact absurd (hzero hthread id) (by simp)
  | locks hthread => exact absurd (hzero hthread id) (by simp)
  | acquireFails hthread => exact absurd (hzero hthread id) (by simp)
  | panics hthread => exact absurd (hzero hthread id) (by simp)
  | setupDials hthread => exact absurd (hzero hthread id) (by simp)
  | setupFails hthread => exact absurd (hzero hthread id) (by simp)
  | installs hthread => exact absurd (hzero hthread id) (by simp)
  | dials hthread => exact absurd hchanged (not_changed hrunning rfl (by simp))
  | takes hthread => exact absurd hchanged (not_changed hrunning rfl (by simp))
  | dialStarts hthread => exact absurd hchanged (not_changed hrunning rfl (by simp))
  | dialFails hthread => exact absurd hchanged (not_changed hrunning rfl (by simp))
  | hands hthread => exact absurd hchanged (not_changed hrunning rfl (by simp))
  | @refuses j t' a protocol waiters hthread hkind =>
    have hj : j ≠ 0 := h.background_of_ne_zero hthread id
    rcases threads_refuse { (s.goto j .idle).dialOut (.dialer rt.dialer) with mutex := none }
      ⟨t', a, s.cachedKinds a, kindForProtocol protocol⟩ waiters 0 with hsame | ⟨call', hold, -, haddr, hnew⟩
    · rw [hsame] at hchanged
      exact absurd hchanged (not_changed hrunning rfl (by simp))
    · rw [hnew] at hchanged
      obtain ⟨rfl, rfl⟩ := Thread.changed.inj hchanged
      obtain rfl : a = addr := haddr.symm.trans (hserial.dialled _ hfits.tcp)
      exact ⟨j, protocol, waiters, rfl, hthread, hkind⟩
  | dialsTCP hthread =>
    rw [State.dialTCP] at hchanged
    exact absurd (hrunning.symm.trans hchanged) (by simp)
  | dialsQUIC hthread =>
    rw [State.dialQUIC] at hchanged
    split_ifs at hchanged <;> exact absurd (hrunning.symm.trans hchanged) (by simp)
  | responds hthread => exact absurd hchanged (not_changed hrunning rfl (by simp))
  | @reports i r call' t' c protocol hthread hhanded hserves hway =>
    obtain ⟨rfl, -⟩ := Thread.running.inj (hzero hthread id)
    rw [hserial.way] at hway
    contradiction
  | @fails i call' t' hthread =>
    obtain ⟨rfl, -⟩ := Thread.running.inj (hzero hthread id)
    rw [State.failCall, hserial.way] at hchanged
    exact absurd hchanged (not_changed hrunning rfl (by simp))
  | drops hthread => exact absurd (hzero hthread id) (by simp)
  | leaves hthread => exact absurd (hzero hthread id) (by simp)
  | dropsKind hthread => exact absurd (hzero hthread id) (by simp)
  | attemptsHTTP2 hthread => exact absurd (hzero hthread id) (by simp)
  | attemptsHTTP3 hthread => exact absurd (hzero hthread id) (by simp)
  | attemptFails hthread => exact absurd (hzero hthread id) (by simp)
  | receivesError hthread => exact absurd (hzero hthread id) (by simp)
  | receivesHTTP2 hthread => exact absurd (hzero hthread id) (by simp)
  | receivesHTTP3 hthread => exact absurd (hzero hthread id) (by simp)
  | returnsWinner hthread => exact absurd (hzero hthread id) (by simp)
  | cachesWinner hthread => exact absurd (hzero hthread id) (by simp)
  | timesOut hthread => exact absurd (hzero hthread id) (by simp)

/-- What a setup leaves: a running request, its transport and its kind. -/
theorem install_spec (s : State env rt) (call : Call) (t : Transport env rt) (protocol : Bytes) :
    (s.install 0 call t protocol).threads 0 = .running call t ∧
      (s.install 0 call t protocol).cachedTransports (call.addr, .h2) = some t ∧
      (s.install 0 call t protocol).cachedKinds call.addr = some (kindForProtocol protocol) ∧
      (s.install 0 call t protocol).cachedConnections call.addr = some (rt.tlsConn call.addr protocol) := by
  simp [State.install, State.cache, State.select, State.goto]

/-- From a steady state the next request recovers. -/
theorem recovers_of_steady (h : Steady addr s) : Recovers addr s where
  refused a call t hrunning hchanged := by
    obtain ⟨j, protocol, waiters, haction, hdialing, hkind⟩ := refused_of_changed h hrunning hchanged
    have hrequests := h.requests
    rw [hrunning] at hrequests
    obtain ⟨-, -, hfits⟩ := hrequests
    refine ⟨hfits.toCached, (h.dialing j t addr hdialing).2, j, protocol, waiters, haction, fun heq => hkind ?_⟩
    rw [hfits.kind, heq]
  dropped call t hthread := by
    have hrequests := h.requests
    rw [hthread] at hrequests
    obtain ⟨hserial, hfree, hfits, -⟩ := hrequests
    -- the mutex is free, so the transport that was refused is dropped at once
    rw [step, hthread, hfree]
    dsimp only
    rw [State.drop, hserial.kept, if_pos hfits.transport]
    exact ⟨threads_goto_self s 0 (.dropping call t), Function.update_self (addr, Protocol.h2) none s.cachedTransports⟩
  forgotten call t hthread := by
    have hrequests := h.requests
    rw [hthread] at hrequests
    obtain ⟨hserial, hfree, hnone, hstash⟩ := hrequests
    rw [step, hthread]
    dsimp only
    rw [State.dropKind, State.failCall, hserial.way, hserial.kept]
    have hkind : Function.update s.cachedKinds addr none addr = none := Function.update_self addr none s.cachedKinds
    exact ⟨threads_goto_self _ 0 .idle, hnone, hkind, hstash⟩
  settled hthread := by
    have hrequests := h.requests
    rw [hthread] at hrequests
    obtain ⟨-, hclear | hfits⟩ := hrequests
    · exact Or.inl hclear
    · obtain ⟨t, hfits⟩ := hfits
      exact Or.inr ⟨t, hfits.toCached⟩
  locks call hthread hnone := by
    have hrequests := h.requests
    rw [hthread] at hrequests
    obtain ⟨hserial, hfree, -⟩ := hrequests
    rw [step, hthread, hfree]
    dsimp only
    rw [State.acquire, hserial.key_eq, hnone, hserial.scheme]
    exact threads_goto_self s 0 (.setup call)
  dials call hthread hmutex := by
    have hrequests := h.requests
    rw [hthread] at hrequests
    obtain ⟨hserial, hclear⟩ := hrequests
    rw [step, hthread, hmutex]
    dsimp only
    rw [State.setup, hserial.kept, hclear.stash]
    exact threads_goto_self s 0 (.setupDialing call)
  builds call protocol hthread hkind := by
    have hrequests := h.requests
    rw [hthread] at hrequests
    obtain ⟨hserial, -⟩ := hrequests
    -- the kind is one the round tripper builds, so the setup cannot fail here
    obtain ⟨t, hbuild⟩ : ∃ t, s.buildTransport (kindForProtocol protocol) call.addr = .ok t :=
      buildTransport_of_ne hkind
    obtain ⟨htkind, -⟩ := buildTransport_ok hbuild
    have hstep : step s (.setupDone 0 (.negotiated protocol)) =
        (s.unlock.dialOut (.dialer rt.dialer)).install 0 call t protocol := by
      rw [step, hthread]
      dsimp only
      rw [State.setupDone, hbuild]
    obtain ⟨hrunning, hcached, hkinds, hstash⟩ := install_spec (s.unlock.dialOut (.dialer rt.dialer)) call t protocol
    rw [hstep, ← hserial.kept]
    exact ⟨t, hrunning, ⟨hcached, htkind ▸ hkinds⟩, htkind, hstash⟩

/-- In every run of requests one after another, in any interleaving with the dials of the transports, every
change of protocol is recovered from. -/
theorem recovers (rt : RoundTripper F D) (hunraced : rt.Unraced) (addr : Addr) (actions : List Action)
    (hseq : ∀ a ∈ actions, Sequential addr a) (hdials : ∀ a ∈ actions, DialsItsAddr env a) :
    Recovers addr (Run.exec step ({} : State env rt) actions) := by
  have hsteady : Steady addr (Run.exec step ({} : State env rt) actions) := by
    have hrun : Run.Along step (fun _ a => Sequential addr a ∧ DialsItsAddr env a) ({} : State env rt) actions :=
      Run.along_of_forall fun _ a ha => ⟨hseq a ha, hdials a ha⟩
    exact Run.invariant_exec (fun _ _ h hok => h.step hunraced hok.1 hok.2) (steady_init addr) hrun
  exact recovers_of_steady hsteady

/-- A request, and its transport dials twice; the second time the server negotiates the other protocol. -/
def exampleChange (req : Request) (first second : Bytes) : List Action :=
  [.roundTrip 0 req, .acquire 0, .setup 0, .setupDone 0 (.negotiated first), .dial 0 1, .dialStart 1,
    .dial 0 1, .dialStart 1, .dialDone 1 (.negotiated second) [0], .drop 0, .dropKind 0]

/-- The example is a serial run. -/
theorem sequential_exampleChange {req : Request} {first second : Bytes} (hscheme : req.scheme = .https)
    (hfirst : kindForProtocol first ≠ .http3) (hsecond : kindForProtocol second ≠ .http3) :
    ∀ a ∈ exampleChange req first second, Sequential req.getDialTLSAddr a := by
  intro a ha
  simp only [exampleChange, List.mem_cons, List.not_mem_nil, or_false] at ha
  rcases ha with rfl | rfl | rfl | rfl | rfl | rfl | rfl | rfl | rfl | rfl | rfl
  · exact ⟨rfl, hscheme, rfl⟩
  · trivial
  · trivial
  · exact hfirst
  · trivial
  · trivial
  · trivial
  · trivial
  · exact hsecond
  · trivial
  · trivial

/-- A server that goes from HTTP/2 to HTTP/1.1. -/
theorem recovers_change :
    Recovers (exampleRequest .https).getDialTLSAddr
      (Run.exec step ({} : State exampleEnv (newRoundTripper (Proxy.exampleClient none)))
        (exampleChange (exampleRequest .https) (utf8 "h2") (utf8 "http/1.1"))) := by
  refine recovers _ ?_ _ _ (sequential_exampleChange rfl (by decide) (by decide)) ?_
  · intro hraced
    exact absurd hraced.1 (by decide)
  · intro a ha
    cases a with
    | roundTrip i req =>
      simp only [exampleChange, List.mem_cons, Action.roundTrip.injEq, reduceCtorEq, List.not_mem_nil,
        or_false] at ha
      obtain ⟨-, rfl⟩ := ha
      exact fun kind _ => rfl
    | _ => trivial

/-- Surroundings in which the one host name that is not ASCII has another form. -/
def idnEnv : Environment :=
  { exampleEnv with idnaASCII := fun _ hostname => if hostname = utf8 "ü" then utf8 "xn--tda" else hostname }

def idnRequest : Request := ⟨.https, utf8 "ü", []⟩

/-- The server negotiates `h2` twice, and the request fails all the same. -/
theorem idn_refused : ¬ ∀ (env : Environment) (rt : RoundTripper Unit Unit) (addr : Addr) (actions : List Action),
    rt.Unraced → (∀ a ∈ actions, Sequential addr a) →
      Recovers addr (Run.exec step ({} : State env rt) actions) := by
  intro hrecovers
  let rt : RoundTripper Unit Unit := newRoundTripper (Proxy.exampleClient none)
  let actions : List Action := (exampleChange idnRequest (utf8 "h2") (utf8 "h2")).take 8
  have hunraced : rt.Unraced := fun hraced => absurd hraced.1 (by decide)
  have hseq : ∀ a ∈ actions, Sequential idnRequest.getDialTLSAddr a := fun a ha =>
    sequential_exampleChange rfl (by decide) (by decide) a (List.mem_of_mem_take ha)
  have h := hrecovers idnEnv rt idnRequest.getDialTLSAddr actions hunraced hseq
  obtain ⟨-, -, j, protocol, waiters, haction, hkind⟩ :=
    h.refused (.dialDone 1 (.negotiated (utf8 "h2")) [0]) _ _ rfl rfl
  cases haction
  exact hkind rfl

end TlsClient.Engine.RoundTrip
