import TlsClient.Engine.RoundTripSteps
import TlsClient.Library.Run

/-!
# The transport cache and the schemes

A transport is cached under the host and the port of its request, with 443 for a missing port whatever the
scheme, and a later request takes it as it finds it. As long as the transport found was built for a request of
the same scheme, or is an HTTP/1 transport found by a plain http request, the transports speak the schemes of
their requests, and `errProtocolChanged` reaches no request before the server of the address has negotiated
another protocol than the recorded one (`schemes_kept_iff`).

The invariant `Fitting` goes from one state to a later one (`Later`): kinds are recorded for the transports that
dial, and are forgotten at addresses whose server has changed its protocol only.
-/

namespace TlsClient.Engine.RoundTrip

open TlsClient.Ffi Utf8

variable {F D : Type} {env : Environment} {rt : RoundTripper F D} {s s' : State env rt}

/-- The transport can speak the scheme of the request: plain http takes an HTTP/1 transport, and https one that
was built for https, by a TLS handshake or for QUIC. -/
def Transport.Speaks (t : Transport env rt) (req : Request) : Prop :=
  (req.scheme = .http → t.kind = .http1) ∧ (req.scheme = .https → t.secure = true)

/-- A TLS dial to the address has negotiated another protocol than the recorded one. -/
def Changed (s : State env rt) (addr : Addr) : Prop :=
  ∃ refusal ∈ s.refused, refusal.addr = addr ∧ refusal.recorded ≠ none

/-- The host name is dialled as it stands. -/
def Ascii (env : Environment) (host : Bytes) : Prop :=
  ∀ kind, env.idnaASCII kind host = host

/-- What the cache promises: each request is sent over a transport that speaks its scheme, and one that gets
`errProtocolChanged` gets it where the server has changed its protocol. -/
structure SchemeSafe (s : State env rt) : Prop where
  speaks : ∀ req t, (req, t) ∈ s.selected → t.Speaks req
  changed : ∀ i call t, s.threads i = .changed call t → Ascii env call.addr.host → Changed s call.addr

/-- The condition: a transport that a request finds in the cache was built for a request of its scheme, or the
request is a plain http one and the transport an HTTP/1 transport. -/
def SameScheme (s : State env rt) (a : Action) : Prop :=
  ∀ i call t, a = .acquire i → s.threads i = .waiting call → s.cachedTransportsLck = none →
    s.cachedTransports call.key = some t →
    (call.request.scheme = .http → t.secure = false ∨ t.kind = .http1) ∧
      (call.request.scheme = .https → t.secure = true)

/-! ## The invariant -/

/-- A kind is recorded for a transport that dials by TLS, unless its server has changed the protocol. -/
def Recorded (s : State env rt) (t : Transport env rt) : Prop :=
  t.secure = true → t.kind ≠ .http3 → Ascii env t.addr.host → s.cachedKinds t.addr = none → Changed s t.addr

/-- Only https requests race. -/
def Call.Fits (call : Call) : Prop :=
  call.way = .direct ∨ call.request.scheme = .https

/-- Under the key of HTTP/3 a call uses a cached protocol. -/
theorem Call.Fits.https_of_key {call : Call} (h : call.Fits) (hkey : call.key = (call.addr, .h3)) :
    call.request.scheme = .https := by
  refine h.resolve_left fun hdirect => ?_
  rw [Call.key, hdirect] at hkey
  simp at hkey

/-- What holds of a dial by TLS. -/
structure DialFits (s : State env rt) (t : Transport env rt) (addr : Addr) : Prop where
  secure : t.secure = true
  kind : t.kind ≠ .http3
  addr : addr = ⟨env.idnaASCII t.kind t.addr.host, t.addr.port⟩
  recorded : Recorded s t

/-- What holds where a thread stands. -/
def ThreadFits (s : State env rt) : Thread env rt → Prop
  | .waiting call => call.Fits
  | .setup call => call.Fits ∧ call.request.scheme = .https
  | .setupDialing call => call.Fits ∧ call.request.scheme = .https
  | .running call t => call.Fits ∧ t.Speaks call.request ∧ t.addr = call.addr ∧ Recorded s t
  | .changed call _ => call.Fits ∧ (Ascii env call.addr.host → Changed s call.addr)
  | .dropping call _ => call.Fits ∧ (Ascii env call.addr.host → Changed s call.addr)
  | .dialWaiting t addr => DialFits s t addr
  | .dialing t addr => DialFits s t addr
  | .race race => race.request.scheme = .https
  | .idle => True
  | .panicked _ => True

/-- The invariant of the runs that meet the condition. -/
structure Fitting (s : State env rt) : Prop where
  cached : ∀ addr p t, s.cachedTransports (addr, p) = some t → t.addr = addr ∧ Recorded s t
  threads : ∀ i, ThreadFits s (s.threads i)
  selected : ∀ req t, (req, t) ∈ s.selected → t.Speaks req

/-- What a later state has kept. -/
structure Later (s s' : State env rt) : Prop where
  refused : ∀ refusal ∈ s.refused, refusal ∈ s'.refused
  kinds : ∀ addr, Ascii env addr.host → s'.cachedKinds addr = none → s.cachedKinds addr = none ∨ Changed s' addr

theorem Changed.later {addr : Addr} (h : Changed s addr) (hlater : Later s s') : Changed s' addr := by
  obtain ⟨refusal, hmem, hrefusal⟩ := h
  exact ⟨refusal, hlater.refused refusal hmem, hrefusal⟩

/-- A kind stays recorded, or its server has changed the protocol. -/
theorem Recorded.later {t : Transport env rt} (h : Recorded s t) (hlater : Later s s') : Recorded s' t := by
  intro hsecure hkind hascii hnone
  rcases hlater.kinds t.addr hascii hnone with hnone | hchanged
  · exact (h hsecure hkind hascii hnone).later hlater
  · exact hchanged

theorem DialFits.later {t : Transport env rt} {addr : Addr} (h : DialFits s t addr) (hlater : Later s s') :
    DialFits s' t addr :=
  ⟨h.secure, h.kind, h.addr, h.recorded.later hlater⟩

/-- A thread that fits still fits later. -/
theorem ThreadFits.later {thread : Thread env rt} (h : ThreadFits s thread) (hlater : Later s s') :
    ThreadFits s' thread := by
  cases thread with
  | waiting call => exact h
  | setup call => exact h
  | setupDialing call => exact h
  | running call t => exact ⟨h.1, h.2.1, h.2.2.1, h.2.2.2.later hlater⟩
  | changed call t => exact ⟨h.1, fun hascii => (h.2 hascii).later hlater⟩
  | dropping call t => exact ⟨h.1, fun hascii => (h.2 hascii).later hlater⟩
  | dialWaiting t addr => exact DialFits.later h hlater
  | dialing t addr => exact DialFits.later h hlater
  | race race => exact h
  | idle => trivial
  | panicked call => trivial

theorem later_of_eq (hrefused : s'.refused = s.refused) (hkinds : s'.cachedKinds = s.cachedKinds) : Later s s' :=
  ⟨fun _ hmem => hrefused ▸ hmem, fun _ _ hnone => .inl (hkinds ▸ hnone)⟩

/-- HTTP/3 transports never dial by TLS over TCP, and the transports for plain http are not recorded. -/
theorem recorded_of_kind {t : Transport env rt} (h : t.kind = .http3) : Recorded s t :=
  fun _ hkind => absurd h hkind

/-- A transport that is built has the kind and the address that were asked for, and speaks TLS. -/
theorem buildTransport_ok {kind : TransportKind} {addr : Addr} {t : Transport env rt}
    (h : s.buildTransport kind addr = .ok t) : t.kind = kind ∧ t.secure = true ∧ t.addr = addr := by
  rw [State.buildTransport] at h
  split_ifs at h
  · split at h
    · contradiction
    · obtain rfl := Except.ok.inj h
      exact ⟨rfl, rfl, rfl⟩
  · obtain rfl := Except.ok.inj h
    exact ⟨rfl, rfl, rfl⟩

/-- What is found after a transport was cached. -/
theorem cached_cache {key key' : Addr × Protocol} {t t' : Transport env rt}
    (h : Function.update s.cachedTransports key (some t) key' = some t') :
    s.cachedTransports key' = some t' ∨ key' = key ∧ t' = t := by
  rw [Function.update_apply] at h
  split_ifs at h with hkey
  · exact .inr ⟨hkey, (Option.some.inj h).symm⟩
  · exact .inl h

/-- What is found after a transport was dropped. -/
theorem cached_erase {key key' : Addr × Protocol} {t : Transport env rt}
    (h : Function.update s.cachedTransports key none key' = some t) : s.cachedTransports key' = some t := by
  rw [Function.update_apply] at h
  split_ifs at h
  exact h

/-- A setup records the kind of its own address. -/
theorem cachedKinds_install (i : ℕ) (call : Call) (t : Transport env rt) (protocol : Bytes) (addr : Addr) :
    (s.install i call t protocol).cachedKinds addr =
      if addr = call.addr then some (kindForProtocol protocol) else s.cachedKinds addr :=
  Function.update_apply ..

/-- The address dialled for an https request is the one of its call, in the form in which it is dialled. -/
theorem canonicalAddr_https {req : Request} {kind : TransportKind} (hscheme : req.scheme = .https) :
    req.canonicalAddr env kind = ⟨env.idnaASCII kind req.getDialTLSAddr.host, req.getDialTLSAddr.port⟩ := by
  rw [Request.canonicalAddr, Request.getDialTLSAddr, hscheme]
  simp

/-- A transport that speaks the scheme dials by TLS for https only. -/
theorem https_of_dialsTLS {t : Transport env rt} {req : Request} (hspeaks : t.Speaks req) (hdials : t.DialsTLS req) :
    req.scheme = .https := by
  rcases hdials.2 with hscheme | ⟨hscheme, hkind, -⟩
  · exact hscheme
  · rw [hspeaks.1 hscheme] at hkind
    contradiction

namespace Fitting

theorem thread (h : Fitting s) {i : ℕ} {thread : Thread env rt} (hthread : s.threads i = thread) :
    ThreadFits s thread :=
  hthread ▸ h.threads i

/-- A step that changes one thread and the cached transports, and forgets no refusal and no kind. -/
theorem store (h : Fitting s) {i : ℕ} {thread : Thread env rt} (hlater : Later s s')
    (hcached : ∀ addr p t, s'.cachedTransports (addr, p) = some t →
      s.cachedTransports (addr, p) = some t ∨ t.addr = addr ∧ Recorded s' t)
    (hselected : s'.selected = s.selected) (hthreads : s'.threads = Function.update s.threads i thread)
    (hfits : ThreadFits s' thread) : Fitting s' where
  cached addr p t ht := by
    rcases hcached addr p t ht with ht | hnew
    · exact ⟨(h.cached addr p t ht).1, (h.cached addr p t ht).2.later hlater⟩
    · exact hnew
  threads := by
    rw [hthreads]
    exact (Function.forall_update_iff _ fun _ => ThreadFits s').mpr ⟨hfits, fun j _ => (h.threads j).later hlater⟩
  selected := by
    rw [hselected]
    exact h.selected

/-- A step that changes one thread, and forgets no refusal and no kind. -/
theorem move (h : Fitting s) {i : ℕ} {thread : Thread env rt} (hlater : Later s s')
    (hcached : s'.cachedTransports = s.cachedTransports) (hselected : s'.selected = s.selected)
    (hthreads : s'.threads = Function.update s.threads i thread) (hfits : ThreadFits s' thread) : Fitting s' :=
  h.store hlater (fun _ _ _ ht => .inl (hcached ▸ ht)) hselected hthreads hfits

/-- A step that changes no thread. -/
theorem keep (h : Fitting s) (hlater : Later s s') (hcached : s'.cachedTransports = s.cachedTransports)
    (hselected : s'.selected = s.selected) (hthreads : s'.threads = s.threads) : Fitting s' := by
  refine ⟨fun addr p t ht => ?_, fun i => ?_, hselected ▸ h.selected⟩
  · rw [hcached] at ht
    exact ⟨(h.cached addr p t ht).1, (h.cached addr p t ht).2.later hlater⟩
  · rw [hthreads]
    exact (h.threads i).later hlater

/-- A step that caches a transport, or not, and sends the request of a call over it. -/
theorem send (h : Fitting s) {i : ℕ} {call : Call} {t : Transport env rt} (hlater : Later s s')
    (hcached : ∀ addr p t', s'.cachedTransports (addr, p) = some t' →
      s.cachedTransports (addr, p) = some t' ∨ addr = call.addr ∧ t' = t)
    (hselected : s'.selected = s.selected ++ [(call.request, t)])
    (hthreads : s'.threads = Function.update s.threads i (.running call t))
    (hcall : call.Fits) (hspeaks : t.Speaks call.request) (haddr : t.addr = call.addr) (hrecorded : Recorded s' t) :
    Fitting s' where
  cached addr p t' ht' := by
    rcases hcached addr p t' ht' with ht' | ⟨rfl, rfl⟩
    · exact ⟨(h.cached addr p t' ht').1, (h.cached addr p t' ht').2.later hlater⟩
    · exact ⟨haddr, hrecorded⟩
  threads := by
    rw [hthreads]
    exact (Function.forall_update_iff _ fun _ => ThreadFits s').mpr
      ⟨⟨hcall, hspeaks, haddr, hrecorded⟩, fun j _ => (h.threads j).later hlater⟩
  selected := by
    rw [hselected]
    intro req t' hmem
    rcases List.mem_append.mp hmem with hmem | hmem
    · exact h.selected req t' hmem
    · obtain ⟨rfl, rfl⟩ := Prod.mk.inj (List.mem_singleton.mp hmem)
      exact hspeaks

/-- Delivering a result keeps everything fitting. -/
theorem deliver (h : Fitting s) (r : ℕ) (result : Protocol × Option Response) : Fitting (s.deliver r result) := by
  rw [State.deliver]
  split
  · next race hthread =>
    have hrace : race.request.scheme = .https := h.thread hthread
    exact h.move (later_of_eq rfl rfl) rfl rfl rfl hrace
  · exact h

/-- A failed call keeps everything fitting. -/
theorem failCall (h : Fitting s) (i : ℕ) {call : Call} (hcall : call.Fits) : Fitting (s.failCall i call) := by
  rw [State.failCall]
  split
  · exact h.move (later_of_eq rfl rfl) rfl rfl rfl trivial
  · next protocol hway =>
    rcases hcall with hdirect | hscheme
    · rw [hdirect] at hway
      contradiction
    · exact h.move (later_of_eq rfl rfl) rfl rfl rfl hscheme
  · apply Fitting.deliver
    exact h.move (later_of_eq rfl rfl) rfl rfl rfl trivial

/-- `errProtocolChanged` reaches requests whose server has changed its protocol. -/
theorem refuse (h : Fitting s) {t : Transport env rt} {addr : Addr} (hdial : DialFits s t addr)
    (negotiated : TransportKind) (waiters : List ℕ) :
    Fitting (s.refuse ⟨t, addr, s.cachedKinds addr, negotiated⟩ waiters) := by
  have hlater : Later s (s.refuse ⟨t, addr, s.cachedKinds addr, negotiated⟩ waiters) :=
    ⟨fun _ hmem => List.mem_append_left _ hmem, fun _ _ hnone => .inl hnone⟩
  refine ⟨fun addr' p t' ht' => ?_, fun i => ?_, h.selected⟩
  · exact ⟨(h.cached addr' p t' ht').1, (h.cached addr' p t' ht').2.later hlater⟩
  · have hfits := (h.threads i).later hlater
    rcases threads_refuse s _ waiters i with hsame | ⟨call, hrunning, hdials, haddr, hchanged⟩
    · rw [hsame]
      exact hfits
    · rw [hrunning] at hfits
      obtain ⟨hcall, hspeaks, hcallAddr, -⟩ := hfits
      rw [hchanged]
      dsimp only at hdials haddr hspeaks hcallAddr
      refine ⟨hcall, fun hascii => ?_⟩
      -- the dial was to the address of the call itself
      have hsame : addr = call.addr := by
        rw [← haddr, canonicalAddr_https (https_of_dialsTLS hspeaks hdials), ← Call.addr, hascii]
      by_cases hnone : s.cachedKinds addr = none
      · have hrecorded := hdial.recorded hdial.secure hdial.kind (hcallAddr ▸ hascii)
        rw [hcallAddr, ← hsame] at hrecorded
        exact hsame ▸ (hrecorded hnone).later hlater
      · exact ⟨_, List.mem_append_right _ List.mem_cons_self, hsame, hnone⟩

end Fitting

theorem fitting_init : Fitting ({} : State env rt) :=
  ⟨fun _ _ _ => nofun, fun _ => trivial, fun _ _ hmem => absurd hmem List.not_mem_nil⟩

/-- A step that takes a transport of its own scheme keeps everything fitting. -/
theorem Fitting.step (h : Fitting s) {a : Action} (hok : SameScheme s a) : Fitting (step s a) := by
  have heffect := effect_step s a
  generalize RoundTrip.step s a = s' at heffect
  cases heffect with
  | stays => exact h
  | waits hthread hway => exact h.move (later_of_eq rfl rfl) rfl rfl rfl hway
  | races hthread hscheme => exact h.move (later_of_eq rfl rfl) rfl rfl rfl hscheme
  | @selects i call t hthread hfree hcached =>
    -- the one step where the condition is used: the cached transport has to speak the scheme of the request
    have hspeaks := hok i call t rfl hthread hfree hcached
    rw [call.key_eq] at hcached
    obtain ⟨haddr, hrecorded⟩ := h.cached _ _ t hcached
    refine h.send (later_of_eq rfl rfl) (fun _ _ _ ht => .inl ht) rfl rfl (h.thread hthread) ?_ haddr
      (hrecorded.later (later_of_eq rfl rfl))
    exact ⟨fun hscheme => (hspeaks.1 hscheme).elim t.plain id, hspeaks.2⟩
  | @buildsHTTP3 i call t hthread hfree hcached hkey hbuild =>
    obtain ⟨hkind, hsecure, haddr⟩ := buildTransport_ok hbuild
    have hcall : call.Fits := h.thread hthread
    have hscheme := hcall.https_of_key hkey
    refine h.send (later_of_eq rfl rfl) (fun addr p t' ht' => ?_) rfl rfl hcall ?_ haddr (recorded_of_kind hkind)
    · exact (cached_cache ht').imp id fun hnew => ⟨(Prod.mk.inj hnew.1).1, hnew.2⟩
    · exact ⟨fun hhttp => by simp [hscheme] at hhttp, fun _ => hsecure⟩
  | @buildsPlain i call hthread hfree hcached hkey hscheme =>
    refine h.send (later_of_eq rfl rfl) (fun addr p t' ht' => ?_) rfl rfl (h.thread hthread) ?_ rfl ?_
    · exact (cached_cache ht').imp id fun hnew => ⟨(Prod.mk.inj hnew.1).1, hnew.2⟩
    · exact ⟨fun _ => rfl, fun hhttps => by simp [hscheme] at hhttps⟩
    · -- a transport for plain http needs no kind
      intro hsecure
      contradiction
  | locks hthread hfree hcached hkey hscheme =>
    exact h.move (later_of_eq rfl rfl) rfl rfl rfl ⟨h.thread hthread, hscheme⟩
  | acquireFails hthread hfree => exact h.failCall _ (h.thread hthread)
  | panics hthread hmutex hlck => exact h.move (later_of_eq rfl rfl) rfl rfl rfl trivial
  | setupDials hthread hmutex =>
    have hcall := h.thread hthread
    exact h.move (later_of_eq rfl rfl) rfl rfl rfl hcall
  | setupFails hthread hroutes =>
    apply Fitting.failCall
    · exact h.keep (later_of_eq rfl rfl) rfl rfl rfl
    · exact (h.thread hthread).1
  | @installs i call protocol t hthread hbuild =>
    obtain ⟨hkind, hsecure, haddr⟩ := buildTransport_ok hbuild
    obtain ⟨hcall, hscheme⟩ := h.thread hthread
    have hlater : Later s ((s.unlock.dialOut (.dialer rt.dialer)).install i call t protocol) := by
      refine ⟨fun _ hmem => hmem, fun addr _ hnone => .inl ?_⟩
      rw [cachedKinds_install] at hnone
      split_ifs at hnone
      exact hnone
    -- the kind is recorded together with the transport, so that nothing is left to record for it
    refine h.send hlater (fun addr p t' ht' => ?_) rfl rfl hcall ?_ haddr fun _ _ _ hnone => ?_
    · exact (cached_cache ht').imp id fun hnew => ⟨(Prod.mk.inj hnew.1).1, hnew.2⟩
    · exact ⟨fun hhttp => by simp [hscheme] at hhttp, fun _ => hsecure⟩
    · rw [cachedKinds_install, if_pos haddr] at hnone
      contradiction
  | @dials i j call t hthread hidle hdials =>
    obtain ⟨-, hspeaks, haddr, hrecorded⟩ := h.thread hthread
    have hscheme := https_of_dialsTLS hspeaks hdials
    refine h.move (later_of_eq rfl rfl) rfl rfl rfl ⟨hspeaks.2 hscheme, hdials.1, ?_, hrecorded⟩
    rw [canonicalAddr_https hscheme, haddr, Call.addr]
  | takes hthread hmutex hstash => exact h.move (later_of_eq rfl rfl) rfl rfl rfl trivial
  | dialStarts hthread hmutex =>
    have hdial := h.thread hthread
    exact h.move (later_of_eq rfl rfl) rfl rfl rfl (DialFits.later hdial (later_of_eq rfl rfl))
  | dialFails hthread hroutes => exact h.move (later_of_eq rfl rfl) rfl rfl rfl trivial
  | hands hthread hkind => exact h.move (later_of_eq rfl rfl) rfl rfl rfl trivial
  | @refuses j t addr protocol waiters hthread hkind =>
    have hdial : DialFits s t addr := h.thread hthread
    apply Fitting.refuse
    · exact h.move (later_of_eq rfl rfl) rfl rfl rfl trivial
    · exact hdial.later (later_of_eq rfl rfl)
  | dialsTCP hthread hdials => exact h.keep (later_of_eq rfl rfl) rfl rfl rfl
  | dialsQUIC hthread hdials =>
    rw [State.dialQUIC]
    split_ifs
    · exact h.keep (later_of_eq rfl rfl) rfl rfl rfl
    · exact h.keep (later_of_eq rfl rfl) rfl rfl rfl
  | responds hthread hhanded hserves hway => exact h.move (later_of_eq rfl rfl) rfl rfl rfl trivial
  | reports hthread hhanded hserves hway =>
    apply Fitting.deliver
    exact h.move (later_of_eq rfl rfl) rfl rfl rfl trivial
  | fails hthread => exact h.failCall _ (h.thread hthread).1
  | @drops i call t hthread hfree hcached =>
    have hchanged := h.thread hthread
    exact h.store (later_of_eq rfl rfl) (fun _ _ _ ht => .inl (cached_erase ht)) rfl rfl hchanged
  | leaves hthread hfree hcached =>
    have hchanged := h.thread hthread
    exact h.move (later_of_eq rfl rfl) rfl rfl rfl hchanged
  | @dropsKind i call t hthread =>
    obtain ⟨hcall, hchanged⟩ := h.thread hthread
    apply Fitting.failCall _ _ hcall
    refine h.keep ⟨fun _ hmem => hmem, fun addr hascii hnone => ?_⟩ rfl rfl rfl
    dsimp only at hnone
    rw [Function.update_apply] at hnone
    split_ifs at hnone with hsame
    · exact .inr (hsame ▸ hchanged (hsame ▸ hascii))
    · exact .inl hnone
  | @attemptsHTTP2 r j race hthread hidle =>
    have hrace : race.request.scheme = .https := h.thread hthread
    -- the race gives up the attempt before the attempt has a thread
    have hmoved : Fitting (s.setRace r { race with pending := race.pending.erase .h2 }) :=
      h.move (later_of_eq rfl rfl) rfl rfl rfl hrace
    exact hmoved.move (later_of_eq rfl rfl) rfl rfl rfl (.inr hrace)
  | @attemptsHTTP3 r j race t hthread hidle hbuild =>
    have hrace : race.request.scheme = .https := h.thread hthread
    obtain ⟨hkind, hsecure, haddr⟩ := buildTransport_ok hbuild
    have hmoved : Fitting (s.setRace r { race with pending := race.pending.erase .h3 }) :=
      h.move (later_of_eq rfl rfl) rfl rfl rfl hrace
    refine hmoved.send (later_of_eq rfl rfl) (fun _ _ _ ht => .inl ht) rfl rfl (.inr hrace) ?_ haddr
      (recorded_of_kind hkind)
    exact ⟨fun hhttp => by simp [hrace] at hhttp, fun _ => hsecure⟩
  | attemptFails hthread =>
    have hrace := h.thread hthread
    apply Fitting.deliver
    exact h.move (later_of_eq rfl rfl) rfl rfl rfl hrace
  | receivesError hthread hdecided hresults =>
    have hrace := h.thread hthread
    exact h.move (later_of_eq rfl rfl) rfl rfl rfl hrace
  | receivesHTTP2 hthread hdecided hresults =>
    have hrace := h.thread hthread
    exact h.move (later_of_eq rfl rfl) rfl rfl rfl hrace
  | receivesHTTP3 hthread hdecided hresults =>
    have hrace := h.thread hthread
    exact h.move (later_of_eq rfl rfl) rfl rfl rfl hrace
  | returnsWinner hthread hfree hwinner =>
    have hrace := h.thread hthread
    exact h.move (later_of_eq rfl rfl) rfl rfl rfl hrace
  | @cachesWinner r race response t hthread hfree hwinner hbuild =>
    have hrace := h.thread hthread
    obtain ⟨hkind, -, haddr⟩ := buildTransport_ok hbuild
    refine h.store (later_of_eq rfl rfl) (fun addr p t' ht' => ?_) rfl rfl hrace
    rcases cached_cache ht' with ht' | ⟨hkey, rfl⟩
    · exact .inl ht'
    · exact .inr ⟨haddr.trans (Prod.mk.inj hkey).1.symm, recorded_of_kind hkind⟩
  | timesOut hthread =>
    have hrace := h.thread hthread
    exact h.move (later_of_eq rfl rfl) rfl rfl rfl hrace

/-- A selection is not forgotten. -/
theorem selected_mono (s : State env rt) (a : Action) : ∀ p ∈ s.selected, p ∈ (step s a).selected := by
  intro p hmem
  have heffect := effect_step s a
  generalize step s a = s' at heffect
  cases heffect with
  | selects hthread hfree hcached => exact List.mem_append_left _ hmem
  | buildsHTTP3 hthread hfree hcached hkey hbuild => exact List.mem_append_left _ hmem
  | buildsPlain hthread hfree hcached hkey hscheme => exact List.mem_append_left _ hmem
  | installs hthread hbuild => exact List.mem_append_left _ hmem
  | attemptsHTTP3 hthread hidle hbuild => exact List.mem_append_left _ hmem
  | dialsQUIC hthread hdials =>
    rw [State.dialQUIC]
    split_ifs <;> exact hmem
  | acquireFails hthread hfree => rwa [selected_failCall]
  | setupFails hthread hroutes => rwa [selected_failCall]
  | fails hthread => rwa [selected_failCall]
  | dropsKind hthread => rwa [State.dropKind, selected_failCall]
  | reports hthread hhanded hserves hway => rwa [selected_deliver]
  | attemptFails hthread => rwa [selected_deliver]
  | _ => exact hmem

/-- A request has been sent over a transport that cannot speak its scheme. -/
def Missent (s : State env rt) : Prop :=
  ∃ req t, (req, t) ∈ s.selected ∧ ¬t.Speaks req

/-- A step that takes a transport of the other scheme sends a request amiss. -/
theorem missent_of_not_sameScheme {a : Action} (h : ¬SameScheme s a) : Missent (step s a) := by
  rw [SameScheme] at h
  push Not at h
  obtain ⟨i, call, t, rfl, hthread, hfree, hcached, hnot⟩ := h
  refine ⟨call.request, t, ?_, fun hspeaks => ?_⟩
  · rw [step, hthread, hfree]
    dsimp only
    rw [State.acquire, hcached]
    exact List.mem_append_right _ List.mem_cons_self
  · obtain ⟨hhttps, hsecure⟩ := hnot fun hhttp => .inr (hspeaks.1 hhttp)
    exact hsecure (hspeaks.2 hhttps)

/-- The cache keeps its promise in every state of a run exactly if the requests find transports of their scheme. -/
theorem safe_iff_along (rt : RoundTripper F D) (actions : List Action) :
    (∀ before, before <+: actions → SchemeSafe (Run.exec step ({} : State env rt) before)) ↔
      Run.Along step SameScheme ({} : State env rt) actions := by
  constructor
  · intro hsafe
    refine @Run.along_of_not_fault _ _ _ _ _ _ (fun _ => True) Missent (fun _ _ _ => trivial)
      (fun _ _ _ => missent_of_not_sameScheme) ?_ trivial ?_
    · rintro s a - ⟨req, t, hmem, hnot⟩
      exact ⟨req, t, selected_mono s a _ hmem, hnot⟩
    · rintro ⟨req, t, hmem, hnot⟩
      exact hnot ((hsafe actions List.prefix_rfl).speaks req t hmem)
  · intro hrun before hprefix
    have hfitting : Fitting (Run.exec step ({} : State env rt) before) :=
      Run.invariant_exec (fun _ _ h hok => h.step hok) fitting_init (Run.along_prefix_of hprefix hrun)
    exact ⟨hfitting.selected, fun i call t hthread => (hfitting.thread hthread).2⟩

/-! ## Runs in which every address has one scheme

The simplest runs that meet the condition: no host and port get requests of both schemes. The transports cached
for an address were then all built for its scheme.
-/

/-- The request of the thread is of the scheme of its address. -/
def ThreadOf (scheme : Addr → Scheme) : Thread env rt → Prop
  | .waiting call => call.request.scheme = scheme call.addr
  | .setup call => call.request.scheme = scheme call.addr
  | .setupDialing call => call.request.scheme = scheme call.addr
  | .running call _ => call.request.scheme = scheme call.addr
  | .changed call _ => call.request.scheme = scheme call.addr
  | .dropping call _ => call.request.scheme = scheme call.addr
  | .race race => race.request.scheme = scheme race.request.getDialTLSAddr
  | .dialWaiting _ _ => True
  | .dialing _ _ => True
  | .idle => True
  | .panicked _ => True

/-- The invariant of these runs, beside `Fitting`. -/
structure OneScheme (scheme : Addr → Scheme) (s : State env rt) : Prop where
  cached : ∀ addr p t, s.cachedTransports (addr, p) = some t → (t.secure = true ↔ scheme addr = .https)
  threads : ∀ i, ThreadOf scheme (s.threads i)

variable {scheme : Addr → Scheme}

namespace OneScheme

theorem thread (h : OneScheme scheme s) {i : ℕ} {thread : Thread env rt} (hthread : s.threads i = thread) :
    ThreadOf scheme thread :=
  hthread ▸ h.threads i

/-- What changes neither transports nor threads keeps to one scheme. -/
theorem keep (h : OneScheme scheme s) (hcached : s'.cachedTransports = s.cachedTransports)
    (hthreads : s'.threads = s.threads) : OneScheme scheme s' :=
  ⟨hcached ▸ h.cached, hthreads ▸ h.threads⟩

/-- What caches a transport of the scheme and moves one thread keeps to one scheme. -/
theorem store (h : OneScheme scheme s) {i : ℕ} {thread : Thread env rt}
    (hcached : ∀ addr p t, s'.cachedTransports (addr, p) = some t →
      s.cachedTransports (addr, p) = some t ∨ (t.secure = true ↔ scheme addr = .https))
    (hthreads : s'.threads = Function.update s.threads i thread) (hof : ThreadOf scheme thread) :
    OneScheme scheme s' where
  cached addr p t ht := (hcached addr p t ht).elim (h.cached addr p t) id
  threads := by
    rw [hthreads]
    exact (Function.forall_update_iff _ fun _ => ThreadOf scheme).mpr ⟨hof, fun j _ => h.threads j⟩

/-- What moves one thread keeps to one scheme. -/
theorem move (h : OneScheme scheme s) {i : ℕ} {thread : Thread env rt}
    (hcached : s'.cachedTransports = s.cachedTransports)
    (hthreads : s'.threads = Function.update s.threads i thread) (hof : ThreadOf scheme thread) :
    OneScheme scheme s' :=
  h.store (fun _ _ _ ht => .inl (hcached ▸ ht)) hthreads hof

/-- A transport of the scheme of its address is put in the cache. -/
theorem build (h : OneScheme scheme s) {i : ℕ} {thread : Thread env rt} {addr : Addr} {p : Protocol}
    {t : Transport env rt} (hcached : s'.cachedTransports = Function.update s.cachedTransports (addr, p) (some t))
    (hsecure : t.secure = true ↔ scheme addr = .https)
    (hthreads : s'.threads = Function.update s.threads i thread) (hof : ThreadOf scheme thread) :
    OneScheme scheme s' := by
  refine h.store (fun addr' p' t' ht' => ?_) hthreads hof
  rw [hcached] at ht'
  rcases cached_cache ht' with ht' | ⟨hnew, rfl⟩
  · exact .inl ht'
  · obtain ⟨rfl, -⟩ := Prod.mk.inj hnew
    exact .inr hsecure

/-- Delivering a result keeps to one scheme. -/
theorem deliver (h : OneScheme scheme s) (r : ℕ) (result : Protocol × Option Response) :
    OneScheme scheme (s.deliver r result) := by
  rw [State.deliver]
  split
  · next race hthread =>
    have hrace : race.request.scheme = scheme race.request.getDialTLSAddr := h.thread hthread
    exact h.move rfl rfl hrace
  · exact h

/-- A failed call keeps to one scheme. -/
theorem failCall (h : OneScheme scheme s) (i : ℕ) {call : Call} (hcall : call.request.scheme = scheme call.addr) :
    OneScheme scheme (s.failCall i call) := by
  rw [State.failCall]
  split
  · exact h.move rfl rfl trivial
  · exact h.move rfl rfl hcall
  · apply OneScheme.deliver
    exact h.move rfl rfl trivial

/-- A refusal keeps to one scheme. -/
theorem refuse (h : OneScheme scheme s) (refusal : Refusal env rt) (waiters : List ℕ) :
    OneScheme scheme (s.refuse refusal waiters) where
  cached := h.cached
  threads := by
    intro i
    have hof := h.threads i
    rcases threads_refuse s refusal waiters i with hsame | ⟨call, hrunning, -, -, hchanged⟩
    · rw [hsame]
      exact hof
    · rw [hrunning] at hof
      rw [hchanged]
      exact hof

/-- The step keeps the schemes apart; `Fitting` says that what races is https. -/
theorem step (h : OneScheme scheme s) (hfitting : Fitting s) {a : Action}
    (hrequest : ∀ i req, a = .roundTrip i req → req.scheme = scheme req.getDialTLSAddr) :
    OneScheme scheme (step s a) := by
  have heffect := effect_step s a
  generalize RoundTrip.step s a = s' at heffect
  cases heffect with
  | stays => exact h
  | @waits i c hthread hway => exact h.move rfl rfl (hrequest i c.request rfl)
  | @races i req hthread hscheme => exact h.move rfl rfl (hrequest i req rfl)
  | selects hthread hfree hcached =>
    have hcall := h.thread hthread
    exact h.move rfl rfl hcall
  | @buildsHTTP3 i call t hthread hfree hcached hkey hbuild =>
    have hcall : call.request.scheme = scheme call.addr := h.thread hthread
    obtain ⟨-, hsecure, -⟩ := buildTransport_ok hbuild
    have hfits : call.Fits := hfitting.thread hthread
    -- only https requests ask for HTTP/3, so the transport is of the scheme of its address
    have hscheme := hfits.https_of_key hkey
    exact h.build rfl (iff_of_true hsecure (hcall.symm.trans hscheme)) rfl hcall
  | @buildsPlain i call hthread hfree hcached hkey hscheme =>
    have hcall : call.request.scheme = scheme call.addr := h.thread hthread
    refine h.build rfl (iff_of_false Bool.false_ne_true ?_) rfl hcall
    rw [← hcall, hscheme]
    exact Scheme.noConfusion
  | locks hthread hfree hcached hkey hscheme =>
    have hcall := h.thread hthread
    exact h.move rfl rfl hcall
  | acquireFails hthread hfree => exact h.failCall _ (h.thread hthread)
  | panics hthread hmutex hlck => exact h.move rfl rfl trivial
  | setupDials hthread hmutex =>
    have hcall := h.thread hthread
    exact h.move rfl rfl hcall
  | setupFails hthread hroutes =>
    apply OneScheme.failCall _ _ (h.thread hthread)
    exact h.keep rfl rfl
  | @installs i call protocol t hthread hbuild =>
    have hcall : call.request.scheme = scheme call.addr := h.thread hthread
    obtain ⟨-, hsecure, -⟩ := buildTransport_ok hbuild
    have hscheme : call.request.scheme = .https := (hfitting.thread hthread).2
    exact h.build rfl (iff_of_true hsecure (hcall.symm.trans hscheme)) rfl hcall
  | dials hthread hidle hdials => exact h.move rfl rfl trivial
  | takes hthread hmutex hstash => exact h.move rfl rfl trivial
  | dialStarts hthread hmutex => exact h.move rfl rfl trivial
  | dialFails hthread hroutes => exact h.move rfl rfl trivial
  | hands hthread hkind => exact h.move rfl rfl trivial
  | refuses hthread hkind =>
    apply OneScheme.refuse
    exact h.move rfl rfl trivial
  | dialsTCP hthread hdials => exact h.keep rfl rfl
  | dialsQUIC hthread hdials =>
    rw [State.dialQUIC]
    split_ifs
    · exact h.keep rfl rfl
    · exact h.keep rfl rfl
  | responds hthread hhanded hserves hway => exact h.move rfl rfl trivial
  | reports hthread hhanded hserves hway =>
    apply OneScheme.deliver
    exact h.move rfl rfl trivial
  | fails hthread => exact h.failCall _ (h.thread hthread)
  | drops hthread hfree hcached =>
    have hcall := h.thread hthread
    exact h.store (fun _ _ _ ht => .inl (cached_erase ht)) rfl hcall
  | leaves hthread hfree hcached =>
    have hcall := h.thread hthread
    exact h.move rfl rfl hcall
  | dropsKind hthread =>
    apply OneScheme.failCall _ _ (h.thread hthread)
    exact h.keep rfl rfl
  | @attemptsHTTP2 r j race hthread hidle =>
    have hrace := h.thread hthread
    have hmoved : OneScheme scheme (s.setRace r { race with pending := race.pending.erase .h2 }) :=
      h.move rfl rfl hrace
    exact hmoved.move rfl rfl hrace
  | @attemptsHTTP3 r j race t hthread hidle hbuild =>
    have hrace := h.thread hthread
    have hmoved : OneScheme scheme (s.setRace r { race with pending := race.pending.erase .h3 }) :=
      h.move rfl rfl hrace
    exact hmoved.move rfl rfl hrace
  | attemptFails hthread =>
    have hrace := h.thread hthread
    apply OneScheme.deliver
    exact h.move rfl rfl hrace
  | receivesError hthread hdecided hresults =>
    have hrace := h.thread hthread
    exact h.move rfl rfl hrace
  | receivesHTTP2 hthread hdecided hresults =>
    have hrace := h.thread hthread
    exact h.move rfl rfl hrace
  | receivesHTTP3 hthread hdecided hresults =>
    have hrace := h.thread hthread
    exact h.move rfl rfl hrace
  | returnsWinner hthread hfree hwinner =>
    have hrace := h.thread hthread
    exact h.move rfl rfl hrace
  | @cachesWinner r race response t hthread hfree hwinner hbuild =>
    have hrace : race.request.scheme = scheme race.request.getDialTLSAddr := h.thread hthread
    obtain ⟨-, hsecure, -⟩ := buildTransport_ok hbuild
    have hscheme : race.request.scheme = .https := hfitting.thread hthread
    exact h.build rfl (iff_of_true hsecure (hrace.symm.trans hscheme)) rfl hrace
  | timesOut hthread =>
    have hrace := h.thread hthread
    exact h.move rfl rfl hrace

/-- Where each address has one scheme, every step finds a transport of it. -/
theorem sameScheme (h : OneScheme scheme s) (a : Action) : SameScheme s a := by
  intro i call t _ hthread _ hcached
  rw [call.key_eq] at hcached
  have hcall : call.request.scheme = scheme call.addr := h.thread hthread
  have hsecure := h.cached _ _ t hcached
  constructor
  · intro hhttp
    refine .inl (Bool.eq_false_of_not_eq_true fun htrue => ?_)
    have hhttps := hcall.trans (hsecure.mp htrue)
    rw [hhttp] at hhttps
    contradiction
  · exact fun hhttps => hsecure.mpr (hcall.symm.trans hhttps)

end OneScheme

/-- Runs in which no address gets requests of two schemes meet the condition. -/
theorem along_of_one_scheme (rt : RoundTripper F D) (scheme : Addr → Scheme) (actions : List Action)
    (hactions : ∀ i req, .roundTrip i req ∈ actions → req.scheme = scheme req.getDialTLSAddr) :
    Run.Along step SameScheme ({} : State env rt) actions := by
  have hinit : OneScheme scheme ({} : State env rt) := by
    refine ⟨fun _ _ _ hcached => ?_, fun _ => trivial⟩
    contradiction
  refine @Run.along_of_invariant _ _ _ _ _ _ (fun s => Fitting s ∧ OneScheme scheme s) ?_ ?_ ⟨fitting_init, hinit⟩
  · exact fun s a _ h => h.2.sameScheme a
  · rintro s a hmem ⟨hfitting, hone⟩
    exact ⟨hfitting.step (hone.sameScheme a), hone.step hfitting fun i req ha => hactions i req (ha ▸ hmem)⟩

/-- Over every run of a round tripper, in any interleaving of its requests: the transports speak the schemes of
their requests, and `errProtocolChanged` means that the server has changed its protocol, exactly if the requests
find transports of their scheme in the cache. So it is wherever no host and port get requests of both schemes. -/
theorem schemes_kept_iff (rt : RoundTripper F D) (actions : List Action) :
    ((∀ before, before <+: actions → SchemeSafe (Run.exec step ({} : State env rt) before)) ↔
      Run.Along step SameScheme ({} : State env rt) actions) ∧
    ∀ scheme : Addr → Scheme, (∀ i req, .roundTrip i req ∈ actions → req.scheme = scheme req.getDialTLSAddr) →
      ∀ before, before <+: actions → SchemeSafe (Run.exec step ({} : State env rt) before) :=
  ⟨safe_iff_along rt actions, fun scheme hactions =>
    (safe_iff_along rt actions).mpr (along_of_one_scheme rt scheme actions hactions)⟩

/-- A plain http request, and then an https request to the same host: it takes the transport of the first one,
and its TLS dial finds no kind. -/
def exampleMixed : List Action :=
  [.roundTrip 0 (exampleRequest .http), .acquire 0, .fail 0,
    .roundTrip 0 (exampleRequest .https), .acquire 0, .dial 0 1, .dialStart 1,
    .dialDone 1 (.negotiated (utf8 "h2")) [0]]

/-- The https request gets `errProtocolChanged`, though the server has not changed its protocol. -/
theorem scheme_mixed :
    let s := Run.exec step ({} : State exampleEnv (newRoundTripper (Proxy.exampleClient none))) exampleMixed
    ¬SchemeSafe s ∧ s.refused.map (fun refusal => (refusal.recorded, refusal.negotiated)) = [(none, .http2)] := by
  refine ⟨fun hsafe => ?_, rfl⟩
  obtain ⟨refusal, hmem, -, hrecorded⟩ := hsafe.changed 0 _ _ rfl fun _ => rfl
  obtain rfl := List.mem_singleton.mp hmem
  exact hrecorded rfl

end TlsClient.Engine.RoundTrip
