import TlsClient.Engine.RoundTripSteps
import TlsClient.Library.Run

/-!
# The connections that are pinned

`dialTLSWithSetup` lets `Pin` see every TLS connection before it stashes it or hands it to a transport, so the
connections that requests go over are vetted (`Vets`). `Pin` looks at the name that the connection is verified
for, and it is never called for QUIC. The responses that are returned are therefore pinned for the host of their
requests exactly if they did not come over HTTP/3, nor over plain http, and that name is the host
(`pins_cover_iff`).
-/

namespace TlsClient.Engine.RoundTrip

open TlsClient.Ffi Utf8
open Proxy (HttpClient)

variable {F D : Type} {env : Environment} {rt : RoundTripper F D} {s s' : State env rt}

/-- The response came over a TLS connection whose certificates `Pin` has accepted for the host. -/
def Response.Pinned (res : Response) : Prop :=
  (res.conn.network = .tls ∨ res.conn.network = .quic) ∧ res.conn.passed = some res.request.hostname

/-- Where the pins reach: no HTTP/3, no plain http, and the connection verified for the host. -/
structure Covered (rt : RoundTripper F D) (res : Response) : Prop where
  quic : res.conn.network ≠ .quic
  tcp : res.conn.network ≠ .tcp
  name : rt.pinHost res.conn.addr = res.request.hostname

/-- A step in which `RoundTrip` returns a response. -/
inductive Returns (s : State env rt) : Action → Response → Prop where
  | answered {i : ℕ} {call : Call} {t : Transport env rt} {c : Conn} (hthread : s.threads i = .running call t)
    (hhanded : (t, c) ∈ s.handed) (hserves : t.Serves call.request c) (hway : ∀ r p, call.way ≠ .attempt r p) :
    Returns s (.respond i c) ⟨call.request, c⟩
  | won {r : ℕ} {race : Race} {res : Response} {rest : List (Protocol × Option Response)}
    (hthread : s.threads r = .race race) (hdecided : race.decided = false)
    (hresults : race.resultCh = (.h2, some res) :: rest) : Returns s (.receive r) res
  | cached {r : ℕ} {race : Race} {res : Response} (hthread : s.threads r = .race race)
    (hfree : s.cachedTransportsLck = none) (hwinner : race.winner = some res) : Returns s (.cacheWinner r) res

/-- The condition: the response that a step returns is one that the pins reach. -/
def Covering (s : State env rt) (a : Action) : Prop :=
  ∀ res, Returns s a res → Covered rt res

/-! ## What `Pin` has seen -/

/-- `Pin` has accepted the connection for its name if it is a TLS connection, and has not seen it otherwise. -/
def Vetted (rt : RoundTripper F D) (c : Conn) : Prop :=
  c.passed = if c.network = .tls then some (rt.pinHost c.addr) else none

/-- The responses that a race has got came over vetted connections. -/
def ThreadVets : Thread env rt → Prop
  | .race race =>
    (∀ protocol res, (protocol, some res) ∈ race.resultCh → Vetted rt res.conn) ∧
      ∀ res, race.winner = some res → Vetted rt res.conn
  | _ => True

/-- The connections in use are vetted. -/
structure Vets (s : State env rt) : Prop where
  stash : ∀ addr c, s.cachedConnections addr = some c → Vetted rt c
  handed : ∀ t c, (t, c) ∈ s.handed → Vetted rt c
  threads : ∀ i, ThreadVets (s.threads i)

/-- A response over a vetted connection is pinned exactly if it is covered. -/
theorem Vetted.pinned_iff {res : Response} (h : Vetted rt res.conn) : res.Pinned ↔ Covered rt res := by
  rw [Vetted] at h
  rw [Response.Pinned, h]
  cases hnetwork : res.conn.network with
  | tls =>
    rw [if_pos rfl, Option.some_inj]
    exact ⟨fun hp => ⟨by simp [hnetwork], by simp [hnetwork], hp.2⟩, fun hc => ⟨.inl rfl, hc.name⟩⟩
  | tcp => exact iff_of_false (by simp) fun hc => hc.tcp hnetwork
  | quic => exact iff_of_false (by simp) fun hc => hc.quic hnetwork

/-- A TLS connection of the round tripper is vetted. -/
theorem vetted_tlsConn (addr : Addr) (protocol : Bytes) : Vetted rt (rt.tlsConn addr protocol) := rfl

namespace Vets

/-- It depends on the stash, the handed connections and the threads only. -/
theorem congr (h : Vets s) (hstash : s'.cachedConnections = s.cachedConnections) (hhanded : s'.handed = s.handed)
    (hthreads : s'.threads = s.threads) : Vets s' :=
  ⟨hstash ▸ h.stash, hhanded ▸ h.handed, hthreads ▸ h.threads⟩

/-- One thread moves. -/
theorem move (h : Vets s) {i : ℕ} {thread : Thread env rt} (hstash : s'.cachedConnections = s.cachedConnections)
    (hhanded : s'.handed = s.handed) (hthreads : s'.threads = Function.update s.threads i thread)
    (hthread : ThreadVets thread) : Vets s' := by
  refine ⟨hstash ▸ h.stash, hhanded ▸ h.handed, ?_⟩
  rw [hthreads]
  exact (Function.forall_update_iff _ fun _ => ThreadVets).mpr ⟨hthread, fun j _ => h.threads j⟩

theorem goto (h : Vets s) (i : ℕ) {t : Thread env rt} (hthread : ThreadVets t) : Vets (s.goto i t) :=
  h.move rfl rfl rfl hthread

/-- A connection is taken from the stash. -/
theorem takeStash (h : Vets s) (addr : Addr) : Vets (s.takeStash addr) where
  stash := by
    intro addr' c hc
    rw [State.takeStash] at hc
    dsimp only at hc
    rw [Function.update_apply] at hc
    split_ifs at hc
    exact h.stash addr' c hc
  handed := h.handed
  threads := h.threads

/-- A vetted connection is handed out. -/
theorem hand (h : Vets s) (t : Transport env rt) {c : Conn} (hc : Vetted rt c) : Vets (s.hand t c) where
  stash := h.stash
  handed := by
    intro t' c' hmem
    rcases List.mem_append.mp hmem with hmem | hmem
    · exact h.handed t' c' hmem
    · obtain ⟨rfl, rfl⟩ := Prod.mk.inj (List.mem_singleton.mp hmem)
      exact hc
  threads := h.threads

/-- The results of a race came over vetted connections. -/
theorem race (h : Vets s) {r : ℕ} {race : Race} (hthread : s.threads r = .race race) :
    (∀ protocol res, (protocol, some res) ∈ race.resultCh → Vetted rt res.conn) ∧
      ∀ res, race.winner = some res → Vetted rt res.conn := by
  have hvets := h.threads r
  rwa [hthread] at hvets

/-- A result is delivered. -/
theorem deliver (h : Vets s) (r : ℕ) {result : Protocol × Option Response}
    (hresult : ∀ res, result.2 = some res → Vetted rt res.conn) : Vets (s.deliver r result) := by
  rw [State.deliver]
  split
  · next race hthread =>
    obtain ⟨hresults, hwinner⟩ := h.race hthread
    refine h.goto r ⟨fun protocol res hmem => ?_, hwinner⟩
    rcases List.mem_append.mp hmem with hmem | hmem
    · exact hresults protocol res hmem
    · exact hresult res (congrArg Prod.snd (List.mem_singleton.mp hmem)).symm
  · exact h

/-- A call fails. -/
theorem failCall (h : Vets s) (i : ℕ) (call : Call) : Vets (s.failCall i call) := by
  rw [State.failCall]
  split
  · exact h.move rfl rfl rfl trivial
  · refine h.move rfl rfl rfl ⟨fun _ _ hmem => absurd hmem List.not_mem_nil, fun res hwinner => ?_⟩
    contradiction
  · apply Vets.deliver
    · exact h.move rfl rfl rfl trivial
    · intro res hresult
      contradiction

/-- `errProtocolChanged` reaches threads that no race waits in. -/
theorem refuse (h : Vets s) (refusal : Refusal env rt) (waiters : List ℕ) : Vets (s.refuse refusal waiters) where
  stash := h.stash
  handed := h.handed
  threads := by
    intro i
    rcases threads_refuse s refusal waiters i with hsame | ⟨call, -, -, -, hchanged⟩
    · rw [hsame]
      exact h.threads i
    · rw [hchanged]
      trivial

end Vets

theorem vets_init : Vets ({} : State env rt) :=
  ⟨fun _ _ => nofun, fun _ _ hmem => absurd hmem List.not_mem_nil, fun _ => trivial⟩

/-- Every step keeps all connections vetted. -/
theorem Vets.step (h : Vets s) (a : Action) : Vets (step s a) := by
  have heffect := effect_step s a
  generalize RoundTrip.step s a = s' at heffect
  cases heffect with
  | stays => exact h
  | waits hthread hway => exact h.move rfl rfl rfl trivial
  | races hthread hscheme => exact h.move rfl rfl rfl ⟨fun _ _ hmem => absurd hmem List.not_mem_nil, nofun⟩
  | selects hthread hfree hcached => exact h.move rfl rfl rfl trivial
  | buildsHTTP3 hthread hfree hcached hkey hbuild => exact h.move rfl rfl rfl trivial
  | buildsPlain hthread hfree hcached hkey hscheme => exact h.move rfl rfl rfl trivial
  | locks hthread hfree hcached hkey hscheme => exact h.move rfl rfl rfl trivial
  | acquireFails hthread hfree => exact h.failCall ..
  | panics hthread hmutex hlck => exact (h.takeStash _).move rfl rfl rfl trivial
  | setupDials hthread hmutex => exact h.move rfl rfl rfl trivial
  | setupFails hthread hroutes =>
    apply Vets.failCall
    exact h.congr rfl rfl rfl
  | @installs i call protocol t hthread hbuild =>
    refine ⟨?_, h.handed, (h.goto i (t := .running call t) trivial).threads⟩
    intro addr c hc
    rw [State.install] at hc
    dsimp only at hc
    rw [Function.update_apply] at hc
    -- the connection that is put aside has passed the check of its handshake
    split_ifs at hc
    · obtain rfl := Option.some.inj hc
      exact vetted_tlsConn call.addr protocol
    · exact h.stash addr c hc
  | dials hthread hidle hdials => exact h.move rfl rfl rfl trivial
  | takes hthread hmutex hstash => exact ((h.takeStash _).hand _ (h.stash _ _ hstash)).move rfl rfl rfl trivial
  | dialStarts hthread hmutex => exact h.move rfl rfl rfl trivial
  | dialFails hthread hroutes => exact h.move rfl rfl rfl trivial
  | hands hthread hkind =>
    apply Vets.hand _ _ (vetted_tlsConn ..)
    exact h.move rfl rfl rfl trivial
  | refuses hthread hkind =>
    apply Vets.refuse
    exact h.move rfl rfl rfl trivial
  | dialsTCP hthread hdials =>
    apply Vets.hand
    · exact h.congr rfl rfl rfl
    · rfl
  | dialsQUIC hthread hdials =>
    rw [State.dialQUIC]
    split_ifs
    · apply Vets.hand
      · exact h.congr rfl rfl rfl
      · rfl
    · exact h.congr rfl rfl rfl
  | responds hthread hhanded hserves hway => exact h.move rfl rfl rfl trivial
  | reports hthread hhanded hserves hway =>
    apply Vets.deliver
    · exact h.move rfl rfl rfl trivial
    · rintro res ⟨rfl⟩
      exact h.handed _ _ hhanded
  | fails hthread => exact h.failCall ..
  | drops hthread hfree hcached => exact h.move rfl rfl rfl trivial
  | leaves hthread hfree hcached => exact h.move rfl rfl rfl trivial
  | dropsKind hthread =>
    apply Vets.failCall
    exact h.congr rfl rfl rfl
  | attemptsHTTP2 hthread hidle =>
    have hrace := h.race hthread
    apply Vets.goto
    · exact h.move rfl rfl rfl hrace
    · trivial
  | @attemptsHTTP3 r j race t hthread hidle hbuild =>
    have hrace := h.race hthread
    exact (h.goto r (t := .race { race with pending := race.pending.erase .h3 }) hrace).move rfl rfl rfl trivial
  | attemptFails hthread =>
    have hrace := h.race hthread
    apply Vets.deliver
    · exact h.move rfl rfl rfl hrace
    · nofun
  | receivesError hthread hdecided hresults =>
    obtain ⟨hall, hwinner⟩ := h.race hthread
    exact h.move rfl rfl rfl ⟨fun p res hmem => hall p res (hresults ▸ List.mem_cons_of_mem _ hmem), hwinner⟩
  | receivesHTTP2 hthread hdecided hresults =>
    obtain ⟨hall, hwinner⟩ := h.race hthread
    exact h.move rfl rfl rfl ⟨fun p res hmem => hall p res (hresults ▸ List.mem_cons_of_mem _ hmem), hwinner⟩
  | @receivesHTTP3 r race response rest hthread hdecided hresults =>
    obtain ⟨hall, -⟩ := h.race hthread
    refine h.move rfl rfl rfl ⟨fun p res hmem => hall p res (hresults ▸ List.mem_cons_of_mem _ hmem), ?_⟩
    -- the response of the winner was in the channel, where it was vetted when it was put there
    rintro res ⟨rfl⟩
    exact hall .h3 response (hresults ▸ List.mem_cons_self)
  | returnsWinner hthread hfree hwinner =>
    exact h.move rfl rfl rfl ⟨(h.race hthread).1, nofun⟩
  | cachesWinner hthread hfree hwinner hbuild =>
    exact h.move rfl rfl rfl ⟨(h.race hthread).1, nofun⟩
  | timesOut hthread =>
    have hrace := h.race hthread
    exact h.move rfl rfl rfl hrace

/-! ## The responses returned -/

/-- A step that returns a response. -/
theorem returned_of_returns {a : Action} {res : Response} (h : Returns s a res) :
    (step s a).returned = s.returned ++ [res] := by
  cases h with
  | answered hthread hhanded hserves hway =>
    rw [step, hthread]
    dsimp only
    rw [if_pos ⟨hhanded, hserves⟩, State.respond]
    split
    · next r protocol hattempt => exact absurd hattempt (hway r protocol)
    · rfl
  | won hthread hdecided hresults =>
    rw [step, hthread]
    dsimp only
    rw [if_neg (Bool.eq_false_iff.mp hdecided), State.receive, hresults]
    rfl
  | cached hthread hfree hwinner =>
    rw [step, hthread, hfree]
    dsimp only
    rw [hwinner]
    dsimp only
    rw [State.cacheWinner]
    split <;> rfl

/-- A step returns a response or none. -/
theorem returns_or_same (s : State env rt) (a : Action) :
    (step s a).returned = s.returned ∨ ∃ res, Returns s a res := by
  have heffect := effect_step s a
  generalize step s a = s' at heffect
  cases heffect with
  | responds hthread hhanded hserves hway => exact .inr ⟨_, .answered hthread hhanded hserves hway⟩
  | receivesHTTP2 hthread hdecided hresults => exact .inr ⟨_, .won hthread hdecided hresults⟩
  | returnsWinner hthread hfree hwinner => exact .inr ⟨_, .cached hthread hfree hwinner⟩
  | cachesWinner hthread hfree hwinner hbuild => exact .inr ⟨_, .cached hthread hfree hwinner⟩
  | dialsQUIC hthread hdials =>
    rw [State.dialQUIC]
    split_ifs <;> exact .inl rfl
  | acquireFails hthread hfree => exact .inl (returned_failCall ..)
  | setupFails hthread hroutes => exact .inl (returned_failCall ..)
  | fails hthread => exact .inl (returned_failCall ..)
  | dropsKind hthread => exact .inl (returned_failCall ..)
  | reports hthread hhanded hserves hway => exact .inl (returned_deliver ..)
  | attemptFails hthread => exact .inl (returned_deliver ..)
  | _ => exact .inl rfl

/-- What a step returns came over a vetted connection. -/
theorem Vets.returns (h : Vets s) {a : Action} {res : Response} (hreturns : Returns s a res) :
    Vetted rt res.conn := by
  cases hreturns with
  | answered hthread hhanded hserves hway => exact h.handed _ _ hhanded
  | won hthread hdecided hresults => exact (h.race hthread).1 _ _ (hresults ▸ List.mem_cons_self)
  | cached hthread hfree hwinner => exact (h.race hthread).2 _ hwinner

/-- All responses so far were pinned. -/
def AllPinned (s : State env rt) : Prop :=
  ∀ res ∈ s.returned, res.Pinned

/-- Over every run of a round tripper the responses returned are pinned for the hosts of their requests exactly
if each came neither over HTTP/3 nor over plain http, on a connection that was verified for the host. -/
theorem pins_cover_iff (rt : RoundTripper F D) (actions : List Action) :
    AllPinned (Run.exec step ({} : State env rt) actions) ↔
      Run.Along step Covering ({} : State env rt) actions := by
  refine @Run.exec_iff_along _ _ _ _ _ _ Vets AllPinned (fun _ a h => h.step a) ?_ ?_ vets_init
    fun _ hmem => absurd hmem List.not_mem_nil
  · intro s a hvets hpinned
    rcases returns_or_same s a with hsame | ⟨res, hreturns⟩
    · refine iff_of_true (by rwa [AllPinned, hsame]) fun res hreturns => ?_
      -- a response that is returned is appended
      have happend := returned_of_returns hreturns
      rw [hsame] at happend
      exact absurd happend (by simp)
    · have hreturned := returned_of_returns hreturns
      have hpin := (hvets.returns hreturns).pinned_iff
      constructor
      · intro hall res' hreturns'
        have hsame := hreturned.symm.trans (returned_of_returns hreturns')
        obtain rfl := List.singleton_inj.mp (List.append_cancel_left hsame)
        exact hpin.mp (hall res (by simp [hreturned]))
      · intro hcovering res' hmem
        rw [hreturned, List.mem_append, List.mem_singleton] at hmem
        rcases hmem with hmem | rfl
        · exact hpinned res' hmem
        · exact hpin.mpr (hcovering res' hreturns)
  · -- no response is forgotten
    intro s a _ hnot hall
    rcases returns_or_same s a with hsame | ⟨res, hreturns⟩
    · exact hnot (by rwa [AllPinned, hsame] at hall)
    · refine hnot fun res' hmem => hall res' ?_
      rw [returned_of_returns hreturns]
      exact List.mem_append_left _ hmem

/-- The name of a connection is the host of its request if the client overwrites no name and the host name is in
the form in which it is dialled. -/
theorem pinHost_canonicalAddr {req : Request} {kind : TransportKind} (hname : rt.serverNameOverwrite = [])
    (hascii : env.idnaASCII kind req.hostname = req.hostname) :
    rt.pinHost (req.canonicalAddr env kind) = req.hostname := by
  rw [RoundTripper.pinHost, if_neg (not_not_intro hname)]
  exact hascii

/-- A client that races, with a pin for the host of the example requests. -/
def examplePinned : HttpClient Unit Unit :=
  let client := exampleRacing none
  { client with config.certificatePins := .set .empty (utf8 "h") [utf8 "pin"] }

/-- The config of the client is accepted, and the response of the HTTP/3 attempt of a race is returned without
a look at its certificates. -/
theorem pins_bypassed :
    Proxy.newHttpClient exampleEnv.toProxyEnvironment examplePinned.config none = .ok examplePinned ∧
      let s := Run.exec step ({} : State exampleEnv (newRoundTripper examplePinned)) exampleRace
      ¬AllPinned s ∧ s.returned.map (fun res => (res.request.hostname, res.conn.passed)) = [(utf8 "h", none)] := by
  refine ⟨rfl, fun hall => ?_, rfl⟩
  exact absurd (hall _ List.mem_cons_self).2 nofun

end TlsClient.Engine.RoundTrip
