import TlsClient.Engine.RoundTripSteps
import TlsClient.Library.Run

/-!
# The way out of the connections

A client may be told to go out through a proxy, through a dialer of its factory or through a dial context. Every
TCP connection of its round tripper does (`through_dialer`). A QUIC connection goes through the proxy where the
client has the URL of one; the factory and the dial context never reach `buildHTTP3Transport`, so without a URL
it is opened from the local address (`egress_kept_iff`).
-/

namespace TlsClient.Engine.RoundTrip

open TlsClient.Ffi Utf8
open Proxy (Dialer HttpClient ClientConfig Uses buildDialer)

variable {F D : Type} {env : Environment} {rt : RoundTripper F D} {s : State env rt} {a : Action}

/-- The client has been told how to go out. -/
def Egress (config : ClientConfig F D) : Prop :=
  config.proxyUrl ≠ [] ∨ config.proxyDialerFactory.isSome ∨ config.dialContext.isSome

/-- The connection goes out as the client has been told. -/
def Through (config : ClientConfig F D) : Route F D → Prop
  | .dialer (.connect proxyUrl) => proxyUrl = config.proxyUrl ∧ proxyUrl ≠ []
  | .dialer (.factory f _) => config.proxyDialerFactory = some f
  | .dialer (.custom dialContext) => config.dialContext = some dialContext
  | .dialer .direct => False
  | .quic (some proxyUrl) => proxyUrl = config.proxyUrl ∧ proxyUrl ≠ []
  | .quic none => False

/-- The step opens a QUIC connection. -/
def OpensQUIC (s : State env rt) (a : Action) : Prop :=
  ∃ i connects call t, a = .dialQUIC i connects ∧ s.threads i = .running call t ∧ t.DialsQUIC call.request

/-- The condition: QUIC connections are opened by clients with a proxy URL only. -/
def Tunnelled (s : State env rt) (a : Action) : Prop :=
  OpensQUIC s a → rt.proxyURL ≠ []

/-! ## The dialers -/

/-- An HTTP/3 transport dials through the proxy, if there is one. -/
theorem dial_buildHTTP3Transport {dial : Option Bytes} (h : buildHTTP3Transport env rt = .ok dial) :
    dial = if rt.proxyURL ≠ [] then some rt.proxyURL else none := by
  rw [buildHTTP3Transport] at h
  split_ifs at h ⊢ with hurl
  · cases hparse : env.parse rt.proxyURL with
    | error err =>
      rw [hparse] at h
      contradiction
    | ok url =>
      rw [hparse] at h
      dsimp only at h
      split_ifs at h with hscheme
      · contradiction
      -- the header limit is the last thing that can fail
      · cases herror : rt.transportOptions.bind fun options => env.int64ToIntError options.maxResponseHeaderBytes with
        | some err =>
          rw [herror] at h
          contradiction
        | none =>
          rw [herror] at h
          exact (Except.ok.inj h).symm
  · cases herror : rt.transportOptions.bind fun options => env.int64ToIntError options.maxResponseHeaderBytes with
    | some err =>
      rw [herror] at h
      contradiction
    | none =>
      rw [herror] at h
      exact (Except.ok.inj h).symm

/-- A dialer that is built goes through its proxy. -/
theorem newConnectDialer_ok {penv : Proxy.Environment} {proxyUrl : Bytes} {dialer : Dialer F D}
    (h : Proxy.newConnectDialer penv proxyUrl = .ok dialer) : dialer = .connect proxyUrl := by
  rw [Proxy.newConnectDialer] at h
  cases hparse : penv.parse proxyUrl with
  | error err =>
    rw [hparse] at h
    contradiction
  | ok url =>
    rw [hparse] at h
    dsimp only at h
    split_ifs at h with h₁ h₂ h₃ h₄ h₅
    -- the schemes in the source's order; a SOCKS dialer is checked when it is built
    · exact (Except.ok.inj h).symm
    · cases hsocks : penv.socks4Error url with
      | some err =>
        rw [hsocks] at h
        contradiction
      | none =>
        rw [hsocks] at h
        exact (Except.ok.inj h).symm
    · cases hsocks : penv.socks5Error url with
      | some err =>
        rw [hsocks] at h
        contradiction
      | none =>
        rw [hsocks] at h
        exact (Except.ok.inj h).symm

/-- The dialer of a client goes out as the client has been told. -/
theorem through_buildDialer {penv : Proxy.Environment} {config : ClientConfig F D} {dialer : Dialer F D}
    (hegress : Egress config) (h : buildDialer penv config none = .ok dialer) : Through config (.dialer dialer) := by
  rw [buildDialer] at h
  -- the dial context stands before the factory, and the factory before the proxy
  cases hfactory : config.proxyDialerFactory with
  | some f =>
    rw [hfactory, if_neg (by simp)] at h
    cases hcontext : config.dialContext with
    | some dialContext =>
      rw [hcontext] at h
      obtain rfl := Except.ok.inj h
      exact hcontext
    | none =>
      rw [hcontext] at h
      obtain rfl := Except.ok.inj h
      exact hfactory
  | none =>
    cases hcontext : config.dialContext with
    | some dialContext =>
      rw [hfactory, hcontext] at h
      split_ifs at h with hurl
      · cases hconnect : (Proxy.newConnectDialer penv config.proxyUrl : Except Bytes (Dialer F D)) with
        | error err =>
          rw [hconnect] at h
          contradiction
        | ok first =>
          rw [hconnect] at h
          obtain rfl := Except.ok.inj h
          exact hcontext
      · obtain rfl := Except.ok.inj h
        exact hcontext
    | none =>
      have hurl : config.proxyUrl ≠ [] := by
        rcases hegress with hurl | hsome | hsome
        · exact hurl
        · rw [hfactory] at hsome
          contradiction
        · rw [hcontext] at hsome
          contradiction
      rw [hfactory, hcontext, if_pos ⟨hurl, rfl⟩] at h
      cases hconnect : (Proxy.newConnectDialer penv config.proxyUrl : Except Bytes (Dialer F D)) with
      | error err =>
        rw [hconnect] at h
        contradiction
      | ok first =>
        rw [hconnect] at h
        obtain rfl := Except.ok.inj h
        obtain rfl := newConnectDialer_ok hconnect
        exact ⟨rfl, hurl⟩

/-- The TCP connections of a client go out as the client has been told. -/
theorem through_dialer {penv : Proxy.Environment} {client : HttpClient F D} (hegress : Egress client.config)
    (huses : Uses penv client client.getProxy) : Through client.config (.dialer (newRoundTripper client).dialer) := by
  obtain ⟨hbuild, htransport⟩ := huses
  have hdialer : (newRoundTripper client).dialer = client.dialer := congrArg Proxy.Transport.dialer htransport
  rw [hdialer]
  exact through_buildDialer hegress hbuild

/-- A QUIC connection goes through the proxy exactly if it is dialled there. -/
theorem through_quic {config : ClientConfig F D} {dial : Option Bytes} (hurl : rt.proxyURL = config.proxyUrl)
    (h : buildHTTP3Transport env rt = .ok dial) : Through config (.quic dial) ↔ rt.proxyURL ≠ [] := by
  rw [dial_buildHTTP3Transport h]
  split_ifs with hne
  · exact ⟨fun _ => hne, fun _ => ⟨hurl, hne⟩⟩
  · exact ⟨fun h => h.elim, fun h => absurd h hne⟩

/-! ## The connections of a run -/

/-- A step that opens a QUIC connection. -/
theorem opened_of_opensQUIC (hquic : OpensQUIC s a) :
    ∃ dial, buildHTTP3Transport env rt = .ok dial ∧ (step s a).opened = s.opened ++ [.quic dial] := by
  obtain ⟨i, connects, call, t, rfl, hthread, hdials⟩ := hquic
  refine ⟨t.dial, t.built hdials.1, ?_⟩
  rw [step, hthread]
  dsimp only
  rw [if_pos hdials, State.dialQUIC]
  split_ifs <;> rfl

/-- Another step opens no connection, or one by the dialer. -/
theorem opened_of_not_opensQUIC (hquic : ¬OpensQUIC s a) :
    (step s a).opened = s.opened ∨ (step s a).opened = s.opened ++ [.dialer rt.dialer] := by
  have heffect := effect_step s a
  generalize step s a = s' at heffect
  cases heffect with
  | setupFails hthread hroutes =>
    rw [opened_failCall]
    exact hroutes
  | dialFails hthread hroutes => exact hroutes
  | installs hthread hbuild => exact .inr rfl
  | hands hthread hkind => exact .inr rfl
  | refuses hthread hkind => exact .inr rfl
  | dialsTCP hthread hdials => exact .inr rfl
  | dialsQUIC hthread hdials => exact absurd ⟨_, _, _, _, rfl, hthread, hdials⟩ hquic
  | acquireFails hthread hfree => exact .inl (opened_failCall ..)
  | fails hthread => exact .inl (opened_failCall ..)
  | dropsKind hthread => exact .inl (opened_failCall ..)
  | reports hthread hhanded hserves hway => exact .inl (opened_deliver ..)
  | attemptFails hthread => exact .inl (opened_deliver ..)
  | _ => exact .inl rfl

/-- All connections went out as the client has been told. -/
def Sealed (config : ClientConfig F D) (s : State env rt) : Prop :=
  ∀ route ∈ s.opened, Through config route

/-- One more connection. -/
theorem sealed_of_opened {config : ClientConfig F D} {s' : State env rt} {route : Route F D}
    (h : s'.opened = s.opened ++ [route]) : Sealed config s' ↔ Sealed config s ∧ Through config route := by
  rw [Sealed, Sealed, h]
  simp only [List.mem_append, List.mem_singleton, or_imp, forall_and, forall_eq]

/-- From a client that `NewHttpClient` has accepted, after any calls of `SetProxy` that leave it told how to go
out, over every run of its round tripper: all connections go out as the client has been told exactly if QUIC
connections are opened with a proxy URL only. -/
theorem egress_kept_iff {factoryError : Option Bytes} {config : ClientConfig F D} {first : HttpClient F D}
    (hnew : Proxy.newHttpClient env.toProxyEnvironment config factoryError = .ok first) (calls : List Proxy.Call)
    (actions : List Action) :
    let client := Run.exec (Proxy.step env.toProxyEnvironment) first calls
    let start : State env (newRoundTripper client) := {}
    Egress client.config →
      (Sealed client.config (Run.exec step start actions) ↔ Run.Along step Tunnelled start actions) := by
  intro client start hegress
  have huses : Uses env.toProxyEnvironment client client.getProxy :=
    @Run.always_exec _ _ _ _ (fun client => Uses env.toProxyEnvironment client client.getProxy)
      (fun _ call huses => huses.step call) (Proxy.sound_newHttpClient hnew).uses calls
  have hurl : (newRoundTripper client).proxyURL = client.config.proxyUrl :=
    congrArg Proxy.Transport.proxyURL huses.2
  have htcp := through_dialer hegress huses
  refine @Run.exec_iff_along _ _ _ _ _ _ (fun _ => True) _ (fun _ _ _ => trivial) ?_ ?_ trivial
    fun _ hmem => absurd hmem List.not_mem_nil
  · intro s a _ hsealed
    by_cases hquic : OpensQUIC s a
    · obtain ⟨dial, hbuild, hopened⟩ := opened_of_opensQUIC hquic
      rw [sealed_of_opened hopened, through_quic hurl hbuild]
      exact ⟨fun h _ => h.2, fun hok => ⟨hsealed, hok hquic⟩⟩
    · refine iff_of_true ?_ fun h => absurd h hquic
      rcases opened_of_not_opensQUIC hquic with hopened | hopened
      · rwa [Sealed, hopened]
      · exact (sealed_of_opened hopened).mpr ⟨hsealed, htcp⟩
  · -- no connection is forgotten
    intro s a _ hnot hsealed
    by_cases hquic : OpensQUIC s a
    · obtain ⟨dial, -, hopened⟩ := opened_of_opensQUIC hquic
      exact hnot ((sealed_of_opened hopened).mp hsealed).1
    · rcases opened_of_not_opensQUIC hquic with hopened | hopened
      · exact hnot (by rwa [Sealed, hopened] at hsealed)
      · exact hnot ((sealed_of_opened hopened).mp hsealed).1

/-- A client with an HTTP proxy opens its connections by the proxy. -/
theorem egress_kept_http :
    let client := Run.exec (Proxy.step exampleEnv.toProxyEnvironment) (Proxy.exampleClient none)
      [{ proxyUrl := utf8 "http://p" }]
    let start : State exampleEnv (newRoundTripper client) := {}
    Sealed client.config
      (Run.exec step start [.roundTrip 0 (exampleRequest .http), .acquire 0, .dialTCP 0, .fail 0]) := by
  intro client start
  have hnew : Proxy.newHttpClient exampleEnv.toProxyEnvironment (Proxy.exampleClient none).config none =
      .ok (Proxy.exampleClient none) := Proxy.newHttpClient_example none
  have hurl : (newRoundTripper client).proxyURL ≠ [] := by decide
  refine (egress_kept_iff hnew [{ proxyUrl := utf8 "http://p" }] _ (.inl (by decide))).mpr ?_
  exact Run.along_of_forall fun _ _ _ _ => hurl

/-- The HTTP/3 attempt of a race ignores the dial context of the client, and its response is the one returned. -/
theorem egress_bypassed :
    Proxy.newHttpClient exampleEnv.toProxyEnvironment (exampleRacing (some ())).config none =
        .ok (exampleRacing (some ())) ∧
      Egress (exampleRacing (some ())).config ∧
      let s := Run.exec step ({} : State exampleEnv (newRoundTripper (exampleRacing (some ())))) exampleRace
      ¬Sealed (exampleRacing (some ())).config s ∧ s.opened = [.quic none] ∧ s.returned.length = 1 := by
  refine ⟨rfl, .inr (.inr rfl), fun hsealed => ?_, rfl, rfl⟩
  exact hsealed (.quic none) List.mem_cons_self

end TlsClient.Engine.RoundTrip
