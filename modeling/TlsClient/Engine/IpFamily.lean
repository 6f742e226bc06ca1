import TlsClient.Engine.RoundTrip

/-!
# The address family of a dial

Embeds how a client with IPv4 or IPv6 disabled chooses the network of a dial: `dialTLSWithSetup`, `dial` and
`dialTLSForWebsocket` of `src/roundtripper.go`, `GetDialer` and `GetTLSDialer` of `src/client.go` and
`NewWebsocket` of `src/websocket.go`. Each has its own copy of the choice. The runs are those of
`Engine.RoundTrip`, with WebSocket connections between their steps, and `dialled` lists the networks that the
dialer of the client is asked for. QUIC goes without the dialer.
-/

namespace TlsClient.Engine.IpFamily

open TlsClient.Ffi Utf8 RoundTrip
open Proxy (HttpClient ClientConfig)

variable {F D : Type}

/-- What the transports of `net/http` and `http2` pass to their dial functions. -/
def tcp : Bytes := utf8 "tcp"

/-- The dialer of the WebSocket library, by the network that it passes to `NetDialContext` and to
`NetDialTLSContext`: its connections are TCP connections. -/
structure WebsocketDialer where
  network : Bytes
  network_eq : network = tcp

/-- The network of `dialTLSWithSetup`. -/
def dialTLSWithSetup (config : ClientConfig F D) (network : Bytes) : Bytes :=
  let network := if network = tcp ∧ config.disableIPV6 then utf8 "tcp4" else network
  if network = tcp ∧ config.disableIPV4 then utf8 "tcp6" else network

/-- The network of `dial`. -/
def dial (config : ClientConfig F D) (network : Bytes) : Bytes :=
  if network = tcp ∧ config.disableIPV6 then utf8 "tcp4" else network

/-- The network of `dialTLSForWebsocket`. -/
def dialTLSForWebsocket (config : ClientConfig F D) (network : Bytes) : Bytes :=
  let network := if network = tcp ∧ config.disableIPV6 then utf8 "tcp4" else network
  if network = tcp ∧ config.disableIPV4 then utf8 "tcp6" else network

/-- A client with its transport and the networks that its dialer was asked for. -/
structure State (env : RoundTrip.Environment) (client : HttpClient F D) where
  roundTripper : RoundTrip.State env (newRoundTripper client) := {}
  dialled : List Bytes := []

inductive Action where
  | roundTripper (a : RoundTrip.Action)
  /-- `Connect` opens a connection for a wss or a ws URL -/
  | websocket (secure : Bool)

variable {env : RoundTrip.Environment} {client : HttpClient F D}

/-- The network that a step of the round tripper asks the dialer for, if it dials. -/
def dials (config : ClientConfig F D) {rt : RoundTripper F D} (s : RoundTrip.State env rt) :
    RoundTrip.Action → Option Bytes
  | .setupDone i _ =>
    match s.threads i with
    | .setupDialing _ => some (dialTLSWithSetup config tcp)
    | _ => none
  | .dialDone j _ _ =>
    match s.threads j with
    | .dialing _ _ => some (dialTLSWithSetup config tcp)
    | _ => none
  | .dialTCP i =>
    match s.threads i with
    | .running call t => if t.DialsTCP call.request then some (dial config tcp) else none
    | _ => none
  | _ => none

/-- The network of a WebSocket connection: `GetTLSDialer` is `dialTLSForWebsocket`, `GetDialer` the dialer itself. -/
def websocketDials (config : ClientConfig F D) (ws : WebsocketDialer) (secure : Bool) : Bytes :=
  if secure then dialTLSForWebsocket config ws.network else ws.network

def step (ws : WebsocketDialer) (s : State env client) : Action → State env client
  | .roundTripper a =>
    ⟨RoundTrip.step s.roundTripper a, s.dialled ++ (dials client.config s.roundTripper a).toList⟩
  | .websocket secure => { s with dialled := s.dialled ++ [websocketDials client.config ws secure] }

/-! ## The restriction -/

/-- The network that a client with a family disabled is restricted to. -/
def Within (config : ClientConfig F D) (network : Bytes) : Prop :=
  (config.disableIPV6 = true → network = utf8 "tcp4") ∧ (config.disableIPV4 = true → network = utf8 "tcp6")

/-- Every dial so far has kept to the restriction. -/
def Restricted (s : State env client) : Prop := ∀ network ∈ s.dialled, Within client.config network

/-- The step opens a plain http connection. -/
def DialsPlain (s : State env client) : Action → Prop
  | .roundTripper (.dialTCP i) => ∃ call t, s.roundTripper.threads i = .running call t ∧ t.DialsTCP call.request
  | _ => False

/-- The condition: no plain http connection while IPv4 is disabled, and no connection to a ws URL while a family
is. -/
def Ok (s : State env client) (a : Action) : Prop :=
  (DialsPlain s a → client.config.disableIPV4 = false) ∧
    (a = .websocket false → client.config.disableIPV4 = false ∧ client.config.disableIPV6 = false)

variable {config : ClientConfig F D} {ws : WebsocketDialer} {s : State env client} {a : Action} {network : Bytes}

/-- At most one family is disabled. -/
def OneFamily (config : ClientConfig F D) : Prop := ¬(config.disableIPV4 ∧ config.disableIPV6)

/-- The TLS dials ask for the family that is left. -/
theorem within_dialTLSWithSetup (hone : OneFamily config) : Within config (dialTLSWithSetup config tcp) := by
  rw [OneFamily] at hone
  rw [Within, dialTLSWithSetup]
  cases h₆ : config.disableIPV6 with
  | true =>
    have h₄ : config.disableIPV4 = false := Bool.eq_false_iff.mpr fun h₄ => hone ⟨h₄, h₆⟩
    rw [h₄]
    exact ⟨fun _ => by decide, nofun⟩
  | false =>
    refine ⟨nofun, fun h₄ => ?_⟩
    rw [h₄]
    decide

theorem websocketDials_secure : websocketDials config ws true = dialTLSWithSetup config tcp := by
  rw [websocketDials, if_pos rfl, ws.network_eq]
  rfl

/-- A plain http dial knows IPv6 disabled but not IPv4. -/
theorem within_dial_iff (hone : OneFamily config) : Within config (dial config tcp) ↔ config.disableIPV4 = false := by
  rw [OneFamily] at hone
  rw [Within, dial]
  cases h₄ : config.disableIPV4 with
  | true =>
    have h₆ : config.disableIPV6 = false := Bool.eq_false_iff.mpr fun h₆ => hone ⟨h₄, h₆⟩
    rw [h₆]
    exact iff_of_false (fun h => absurd (h.2 rfl) (by decide)) (by decide)
  | false =>
    refine iff_of_true ⟨fun h₆ => ?_, fun h => absurd h (by decide)⟩ rfl
    rw [h₆]
    decide

/-- A dial for a ws URL knows neither. -/
theorem within_websocketDials_iff :
    Within config (websocketDials config ws false) ↔ config.disableIPV4 = false ∧ config.disableIPV6 = false := by
  have hnetwork : websocketDials config ws false = tcp := ws.network_eq
  rw [Within, hnetwork]
  have h₄ : tcp ≠ utf8 "tcp4" := by decide
  have h₆ : tcp ≠ utf8 "tcp6" := by decide
  simp only [h₄, h₆, imp_false, Bool.not_eq_true]
  exact and_comm

/-! ## The runs -/

/-- One more step of dials. -/
theorem restricted_append (dialled : List Bytes) (h : (step ws s a).dialled = s.dialled ++ dialled) :
    Restricted (step ws s a) ↔ Restricted s ∧ ∀ network ∈ dialled, Within client.config network := by
  rw [Restricted, Restricted, h]
  exact List.forall_mem_append

/-- What a step of the round tripper dials is within the restriction, unless it is a plain http dial. -/
theorem within_dials_iff (hone : OneFamily client.config) (a : RoundTrip.Action) :
    (∀ network ∈ (dials client.config s.roundTripper a).toList, Within client.config network) ↔
      (DialsPlain s (.roundTripper a) → client.config.disableIPV4 = false) := by
  cases a with
  | setupDone i outcome =>
    refine iff_of_true ?_ fun h => h.elim
    rw [dials]
    split
    · simpa using within_dialTLSWithSetup hone
    · simp
  | dialDone j outcome waiters =>
    refine iff_of_true ?_ fun h => h.elim
    rw [dials]
    split
    · simpa using within_dialTLSWithSetup hone
    · simp
  -- the plain dial has no branch for a disabled IPv4
  | dialTCP i =>
    rw [dials, DialsPlain]
    cases hthread : s.roundTripper.threads i with
    | running call t =>
      by_cases hplain : t.DialsTCP call.request
      · simp only [hplain, if_true, Option.toList_some, List.mem_singleton, forall_eq, within_dial_iff hone]
        exact ⟨fun h _ => h, fun h => h ⟨call, t, rfl, hplain⟩⟩
      · simp only [hplain, if_false]
        refine iff_of_true (by simp) ?_
        rintro ⟨call', t', hrunning, hplain'⟩
        cases hrunning
        exact absurd hplain' hplain
    | _ => exact iff_of_true (by simp) fun ⟨_, _, hrunning, _⟩ => by cases hrunning
  | _ => exact iff_of_true (by simp [dials]) fun h => h.elim

/-- A step keeps the dials within the restriction exactly if it meets the condition. -/
theorem restricted_step_iff (hone : OneFamily client.config) (hs : Restricted s) :
    Restricted (step ws s a) ↔ Ok s a := by
  cases a with
  | roundTripper a =>
    rw [restricted_append (dials client.config s.roundTripper a).toList rfl, within_dials_iff hone, Ok]
    exact ⟨fun h => ⟨h.2, nofun⟩, fun h => ⟨hs, h.1⟩⟩
  | websocket secure =>
    rw [restricted_append [websocketDials client.config ws secure] rfl, Ok]
    simp only [List.mem_singleton, forall_eq]
    cases secure with
    | true =>
      rw [websocketDials_secure]
      exact ⟨fun _ => ⟨fun h => h.elim, nofun⟩, fun _ => ⟨hs, within_dialTLSWithSetup hone⟩⟩
    | false =>
      rw [within_websocketDials_iff]
      exact ⟨fun h => ⟨fun h => h.elim, fun _ => h.2⟩, fun h => ⟨hs, h.2 rfl⟩⟩

/-- What has been dialled outside of the restriction stays dialled. -/
theorem restricted_of_step (h : Restricted (step ws s a)) : Restricted s := by
  cases a with
  | roundTripper a => exact ((restricted_append _ rfl).mp h).1
  | websocket secure => exact ((restricted_append _ rfl).mp h).1

/-- `SetProxy` leaves the families alone. -/
theorem oneFamily_step {penv : Proxy.Environment} {client : HttpClient F D} (call : Proxy.Call)
    (hone : OneFamily client.config) : OneFamily (Proxy.step penv client call).config := by
  rw [Proxy.step]
  have hends := Proxy.setProxy_ends penv client call
  generalize Proxy.setProxy penv client call = result at hends ⊢
  cases hends <;> exact hone

/-- From a client that `NewHttpClient` has accepted, after any calls of `SetProxy`, over every run of its round
tripper and its WebSocket connections: every dial asks for the family that is left exactly if no plain http
connection is dialled while IPv4 is disabled and no connection to a ws URL while a family is. -/
theorem restricted_iff (env : RoundTrip.Environment) (ws : WebsocketDialer) {factoryError : Option Bytes}
    {config : ClientConfig F D} {first : HttpClient F D}
    (hnew : Proxy.newHttpClient env.toProxyEnvironment config factoryError = .ok first) (calls : List Proxy.Call)
    (actions : List Action) :
    let client := Run.exec (Proxy.step env.toProxyEnvironment) first calls
    let start : State env client := {}
    Restricted (Run.exec (step ws) start actions) ↔ Run.Along (step ws) Ok start actions := by
  intro client start
  have hvalid := (Proxy.sound_newHttpClient hnew).valid
  have hfirst : OneFamily first.config := (Proxy.validateConfig_ok_iff.mp hvalid).2.2.1
  have hone : OneFamily client.config :=
    @Run.always_exec _ _ _ _ (fun client : HttpClient F D => OneFamily client.config)
      (fun _ call h => oneFamily_step call h) hfirst calls
  refine @Run.exec_iff_along _ _ _ _ _ _ (fun _ => True) _ (fun _ _ _ => trivial)
    (fun s a _ hs => restricted_step_iff hone hs) (fun s a _ hs h => hs (restricted_of_step h)) trivial ?_
  exact fun network hmem => absurd hmem List.not_mem_nil

/-- A client with a family disabled. -/
def exampleClient (disableIPV4 disableIPV6 : Bool) : HttpClient Unit Unit :=
  let client := Proxy.exampleClient none
  { client with config.disableIPV4 := disableIPV4, config.disableIPV6 := disableIPV6 }

/-- The dial of a plain http request. -/
def examplePlain : List Action :=
  [.roundTripper (.roundTrip 0 (exampleRequest .http)), .roundTripper (.acquire 0), .roundTripper (.dialTCP 0)]

/-- With IPv6 disabled a plain http dial is restricted. -/
theorem restricted_plain :
    let start : State exampleEnv (Run.exec (Proxy.step exampleEnv.toProxyEnvironment) (exampleClient false true) []) := {}
    Restricted (Run.exec (step ⟨tcp, rfl⟩) start examplePlain) := by
  intro start
  have hnew : Proxy.newHttpClient exampleEnv.toProxyEnvironment (exampleClient false true).config none =
      .ok (exampleClient false true) := rfl
  refine (restricted_iff exampleEnv ⟨tcp, rfl⟩ hnew [] examplePlain).mpr ?_
  refine Run.along_of_forall fun s a ha => ⟨fun _ => rfl, ?_⟩
  rintro rfl
  simp [examplePlain] at ha

/-- With IPv4 disabled plain http is dialled over either family, and with IPv6 disabled so is a ws URL. -/
theorem not_restricted :
    (Proxy.newHttpClient exampleEnv.toProxyEnvironment (exampleClient true false).config none =
        .ok (exampleClient true false) ∧
      let s := Run.exec (step ⟨tcp, rfl⟩) ({} : State exampleEnv (exampleClient true false)) examplePlain
      s.dialled = [utf8 "tcp"] ∧ ¬Restricted s) ∧
    Proxy.newHttpClient exampleEnv.toProxyEnvironment (exampleClient false true).config none =
        .ok (exampleClient false true) ∧
      let s := Run.exec (step ⟨tcp, rfl⟩) ({} : State exampleEnv (exampleClient false true)) [.websocket false]
      s.dialled = [utf8 "tcp"] ∧ ¬Restricted s := by
  refine ⟨⟨rfl, rfl, fun h => ?_⟩, rfl, rfl, fun h => ?_⟩
  · exact absurd ((h tcp List.mem_cons_self).2 rfl) (by decide)
  · exact absurd ((h tcp List.mem_cons_self).1 rfl) (by decide)

end TlsClient.Engine.IpFamily
