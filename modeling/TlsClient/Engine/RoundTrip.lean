import TlsClient.Engine.Proxy
import Mathlib.Logic.Function.Basic

/-!
# The round tripper

Embeds `src/roundtripper.go`, `src/racer.go` and `buildHTTP3Transport` of `src/roundtripper_http3.go` as far as
they decide which transport a request gets, which connections are opened for it and how, and on which of them
the response arrives. Requests run as threads whose critical sections, under `cachedTransportsLck`, the mutex of
the round tripper and the mutex of the kinds, interleave. A setup dial writes the transport, its kind and the
stashed connection in one step: it holds the first two of these locks, and no other thread that could see the
three apart runs without them.

The transports themselves are those of `net/http`, `http2` and `http3`: a transport dials through its hook when
and as often as it likes, keeps the connections, and answers a request over one that fits it. `handed` and the
fields after it list what happened, oldest first.
-/

namespace TlsClient.Engine.RoundTrip

open TlsClient.Ffi Utf8
open Proxy (Dialer HttpClient)

/-- The scheme of a URL, in lower case. -/
inductive Scheme where
  | http
  | https
  | other (scheme : Bytes)
deriving DecidableEq

/-- What `net.JoinHostPort` joins. -/
structure Addr where
  host : Bytes
  port : Bytes
deriving DecidableEq

structure Request where
  scheme : Scheme
  hostname : Bytes
  port : Bytes
deriving DecidableEq

inductive TransportKind where
  | http1
  | http2
  | http3
deriving DecidableEq

/-- The protocols of a race. -/
inductive Protocol where
  | h2
  | h3
deriving DecidableEq

def kindForProtocol (protocol : Bytes) : TransportKind :=
  if protocol = utf8 "h2" then .http2 else if protocol = utf8 "h3" then .http3 else .http1

/-- The surroundings of a round tripper. -/
structure Environment extends toProxyEnvironment : Proxy.Environment where
  /-- the host name that a transport of the kind dials -/
  idnaASCII : TransportKind → Bytes → Bytes
  /-- the error of `Int64ToInt` -/
  int64ToIntError : ℤ → Option Bytes

/-- The fields of `roundTripper` that requests read and never write. -/
structure RoundTripper (F D : Type) where
  dialer : Dialer F D
  proxyURL : Bytes
  serverNameOverwrite : Bytes
  transportOptions : Option TransportOptions
  allowHTTP : Bool
  forceHttp1 : Bool
  disableHttp3 : Bool
  /-- whether there is a `racer` -/
  racer : Bool

variable {F D : Type}

/-- `newRoundTripperWithPermute` for a client. -/
def newRoundTripper (client : HttpClient F D) : RoundTripper F D :=
  { dialer := client.transport.dialer
    proxyURL := client.transport.proxyURL
    serverNameOverwrite := client.config.serverNameOverwrite
    transportOptions := client.config.transportOptions
    allowHTTP := client.config.clientProfile.allowHTTP
    forceHttp1 := client.config.forceHttp1
    disableHttp3 := client.config.disableHttp3
    racer := client.config.enableProtocolRacing }

/-- `getDialTLSAddr`. -/
def Request.getDialTLSAddr (req : Request) : Addr :=
  ⟨req.hostname, if req.port ≠ [] then req.port else utf8 "443"⟩

/-- The address that a transport of the kind dials for a request: `canonicalAddr`, `authorityAddr`. -/
def Request.canonicalAddr (env : Environment) (kind : TransportKind) (req : Request) : Addr :=
  ⟨env.idnaASCII kind req.hostname,
    if req.port ≠ [] then req.port else if req.scheme = .http then utf8 "80" else utf8 "443"⟩

/-- `buildHTTP3Transport`: the proxy of the `Dial` of the transport, none where it stays nil. -/
def buildHTTP3Transport (env : Environment) (rt : RoundTripper F D) : Except Bytes (Option Bytes) := do
  let dial ←
    if rt.proxyURL ≠ [] then
      match env.parse rt.proxyURL with
      | .error err => .error (utf8 "can not use proxy for HTTP/3: invalid proxy url: " ++ err)
      | .ok url =>
        if url.scheme ≠ utf8 "socks5" ∧ url.scheme ≠ utf8 "socks5h" then
          .error (utf8 "can not use proxy for HTTP/3: proxy scheme " ++ env.quote url.scheme ++
            utf8 " only supports TCP and can not tunnel QUIC/UDP traffic. " ++
            utf8 "Use a socks5:// proxy or disable HTTP/3")
        else .ok (some rt.proxyURL)
    else .ok none
  match rt.transportOptions.bind fun options => env.int64ToIntError options.maxResponseHeaderBytes with
  | some err => .error (utf8 "error converting MaxResponseHeaderBytes to int: " ++ err)
  | none => .ok dial

/-- A transport that a round tripper has built. -/
@[ext] structure Transport (env : Environment) (rt : RoundTripper F D) where
  id : ℕ
  kind : TransportKind
  /-- whether it was built for an https request -/
  secure : Bool
  /-- the address it was built for -/
  addr : Addr
  /-- the `Dial` of an HTTP/3 transport -/
  dial : Option Bytes
  plain : secure = false → kind = .http1
  built : kind = .http3 → buildHTTP3Transport env rt = .ok dial

instance decidableEqTransport {env : Environment} {rt : RoundTripper F D} : DecidableEq (Transport env rt) :=
  fun _ _ => decidable_of_iff' _ Transport.ext_iff

inductive Network where
  | tcp
  | tls
  | quic
deriving DecidableEq

structure Conn where
  network : Network
  addr : Addr
  /-- the protocol negotiated, empty where none is -/
  protocol : Bytes
  /-- the host for which `Pin` has accepted the certificates of the peer -/
  passed : Option Bytes
deriving DecidableEq

/-- The way out of a connection. -/
inductive Route (F D : Type) where
  | dialer (dialer : Dialer F D)
  /-- the `Dial` of an `http3.Transport` -/
  | quic (dial : Option Bytes)
deriving DecidableEq

structure Response where
  request : Request
  conn : Conn
deriving DecidableEq

/-- Who waits for the response. -/
inductive Way where
  /-- `RoundTrip` without a race -/
  | direct
  /-- `tryUseCachedProtocol` -/
  | cached (protocol : Protocol)
  /-- `attemptHTTP3` and `attemptHTTP2`, for the race of a thread -/
  | attempt (race : ℕ) (protocol : Protocol)
deriving DecidableEq

structure Call where
  request : Request
  way : Way
deriving DecidableEq

/-- The address of a call; a transport is dropped under it. -/
def Call.addr (call : Call) : Addr := call.request.getDialTLSAddr

/-- `getTransportKey`: the key under which the transport of a call is cached. -/
def Call.key (call : Call) : Addr × Protocol :=
  match call.way with
  | .cached .h3 => (call.addr, .h3)
  | _ => (call.addr, .h2)

/-- `startRace`. -/
structure Race where
  request : Request
  /-- the goroutines that have not begun -/
  pending : List Protocol := [.h3, .h2]
  resultCh : List (Protocol × Option Response) := []
  /-- the response of HTTP/3 whose transport is to be cached first -/
  winner : Option Response := none
  /-- no more results are read -/
  decided : Bool := false

/-- Where a thread stands. -/
inductive Thread (env : Environment) (rt : RoundTripper F D) where
  | idle
  /-- before `cachedTransportsLck.Lock` -/
  | waiting (call : Call)
  /-- in `getTransport`, before the mutex of the round tripper -/
  | setup (call : Call)
  | setupDialing (call : Call)
  /-- in the `RoundTrip` of the transport -/
  | running (call : Call) (t : Transport env rt)
  /-- the transport has returned `errProtocolChanged` -/
  | changed (call : Call) (t : Transport env rt)
  /-- between the two sections of `dropCachedTransport` -/
  | dropping (call : Call) (t : Transport env rt)
  /-- a `dialTLS` of the transport, before the mutex of the round tripper -/
  | dialWaiting (t : Transport env rt) (addr : Addr)
  | dialing (t : Transport env rt) (addr : Addr)
  | race (race : Race)
  | panicked (call : Call)

/-- A `dialTLS` that has ended with `errProtocolChanged`. -/
structure Refusal (env : Environment) (rt : RoundTripper F D) where
  transport : Transport env rt
  addr : Addr
  recorded : Option TransportKind
  negotiated : TransportKind

structure State (env : Environment) (rt : RoundTripper F D) where
  cachedTransports : Addr × Protocol → Option (Transport env rt) := fun _ => none
  cachedKinds : Addr → Option TransportKind := fun _ => none
  cachedConnections : Addr → Option Conn := fun _ => none
  /-- the thread that holds `cachedTransportsLck` -/
  cachedTransportsLck : Option ℕ := none
  /-- the thread that holds the mutex of the round tripper -/
  mutex : Option ℕ := none
  protocolCache : Addr → Option Protocol := fun _ => none
  /-- the number of transports built -/
  transports : ℕ := 0
  threads : ℕ → Thread env rt := fun _ => .idle
  /-- the connections that transports were given, or have dialled themselves -/
  handed : List (Transport env rt × Conn) := []
  /-- the transports that requests were sent over -/
  selected : List (Request × Transport env rt) := []
  refused : List (Refusal env rt) := []
  /-- how each connection was opened -/
  opened : List (Route F D) := []
  returned : List Response := []

/-- How a dial ends. -/
inductive DialOutcome where
  | dialError
  | handshakeError
  | pinError
  | negotiated (protocol : Bytes)
deriving DecidableEq

variable {env : Environment} {rt : RoundTripper F D}

/-- The name that a TLS connection is verified and pinned for. -/
def RoundTripper.pinHost (rt : RoundTripper F D) (addr : Addr) : Bytes :=
  if rt.serverNameOverwrite ≠ [] then rt.serverNameOverwrite else addr.host

/-- The connection of a `dialTLSWithSetup`. -/
def RoundTripper.tlsConn (rt : RoundTripper F D) (addr : Addr) (protocol : Bytes) : Conn :=
  { network := .tls, addr, protocol, passed := some (rt.pinHost addr) }

/-- A request that the transport serves by TLS connections. -/
def Transport.DialsTLS (t : Transport env rt) (req : Request) : Prop :=
  t.kind ≠ .http3 ∧ (req.scheme = .https ∨ req.scheme = .http ∧ t.kind = .http2 ∧ rt.allowHTTP)
deriving Decidable

/-- A request that the transport serves by TCP connections. -/
def Transport.DialsTCP (t : Transport env rt) (req : Request) : Prop :=
  t.kind = .http1 ∧ req.scheme = .http
deriving Decidable

/-- A request that the transport serves by QUIC connections. -/
def Transport.DialsQUIC (t : Transport env rt) (req : Request) : Prop :=
  t.kind = .http3 ∧ req.scheme = .https
deriving Decidable

/-- The connection fits the request. -/
def Transport.Serves (t : Transport env rt) (req : Request) (c : Conn) : Prop :=
  c.addr = req.canonicalAddr env t.kind ∧
    (t.DialsTLS req ∧ c.network = .tls ∨ t.DialsTCP req ∧ c.network = .tcp ∨ t.DialsQUIC req ∧ c.network = .quic)
deriving Decidable

namespace State

/-- The transport that `getTransport` builds for plain http. -/
def plainTransport (s : State env rt) (addr : Addr) : Transport env rt :=
  { id := s.transports, kind := .http1, secure := false, addr, dial := none
    plain := fun _ => rfl, built := nofun }

/-- A transport of the kind, for https. -/
def buildTransport (s : State env rt) (kind : TransportKind) (addr : Addr) : Except Bytes (Transport env rt) :=
  if hkind : kind = .http3 then
    match hbuild : buildHTTP3Transport env rt with
    | .error err => .error err
    | .ok dial =>
      .ok { id := s.transports, kind, secure := true, addr, dial, plain := nofun, built := fun _ => hbuild }
  else
    .ok { id := s.transports, kind, secure := true, addr, dial := none, plain := nofun
          built := fun h => absurd h hkind }

def goto (s : State env rt) (i : ℕ) (thread : Thread env rt) : State env rt :=
  { s with threads := Function.update s.threads i thread }

/-- A transport has been built and is cached. -/
def cache (s : State env rt) (key : Addr × Protocol) (t : Transport env rt) : State env rt :=
  { s with
    cachedTransports := Function.update s.cachedTransports key (some t)
    transports := s.transports + 1 }

/-- The request of a call is sent over the transport. -/
def select (s : State env rt) (i : ℕ) (call : Call) (t : Transport env rt) : State env rt :=
  { s.goto i (.running call t) with selected := s.selected ++ [(call.request, t)] }

/-- A connection is opened on the route. -/
def dialOut (s : State env rt) (route : Route F D) : State env rt :=
  { s with opened := s.opened ++ [route] }

/-- A transport has a connection. -/
def hand (s : State env rt) (t : Transport env rt) (c : Conn) : State env rt :=
  { s with handed := s.handed ++ [(t, c)] }

/-- The stashed connection of an address is taken. -/
def takeStash (s : State env rt) (addr : Addr) : State env rt :=
  { s with cachedConnections := Function.update s.cachedConnections addr none }

/-- The end of `dialTLSSetup` and of the section of its caller. -/
def unlock (s : State env rt) : State env rt :=
  { s with mutex := none, cachedTransportsLck := none }

/-- `RoundTrip` returns the response. -/
def answer (s : State env rt) (response : Response) : State env rt :=
  { s with returned := s.returned ++ [response] }

/-- The race of a thread goes on as `race`. -/
def setRace (s : State env rt) (r : ℕ) (race : Race) : State env rt :=
  s.goto r (.race race)

/-- A result for the race of a thread. -/
def deliver (s : State env rt) (r : ℕ) (result : Protocol × Option Response) : State env rt :=
  match s.threads r with
  | .race race => s.setRace r { race with resultCh := race.resultCh ++ [result] }
  | _ => s

/-- A call fails: `RoundTrip` returns, a cached protocol is forgotten and the race begins, or an attempt
reports to its race. -/
def failCall (s : State env rt) (i : ℕ) (call : Call) : State env rt :=
  match call.way with
  | .direct => s.goto i .idle
  | .cached _ =>
    { s.setRace i { request := call.request } with
      protocolCache := Function.update s.protocolCache call.addr none }
  | .attempt r protocol => (s.goto i .idle).deliver r (protocol, none)

/-- The start of `RoundTrip`. -/
def roundTrip (s : State env rt) (i : ℕ) (req : Request) : State env rt :=
  if rt.racer ∧ ¬rt.forceHttp1 ∧ ¬rt.disableHttp3 ∧ req.scheme = .https then
    match s.protocolCache req.getDialTLSAddr with
    | some protocol => s.goto i (.waiting ⟨req, .cached protocol⟩)
    | none => s.setRace i { request := req }
  else s.goto i (.waiting ⟨req, .direct⟩)

/-- The section of `RoundTrip`, `attemptHTTP2` and `getOrCreateTransport` under `cachedTransportsLck`, up to
the dial of `getTransport`. -/
def acquire (s : State env rt) (i : ℕ) (call : Call) : State env rt :=
  match s.cachedTransports call.key with
  | some t => s.select i call t
  | none =>
    match call.key.2 with
    | .h3 =>
      match s.buildTransport .http3 call.addr with
      | .error _ => s.failCall i call
      | .ok t => (s.cache call.key t).select i call t
    | .h2 =>
      match call.request.scheme with
      | .http => (s.cache call.key (s.plainTransport call.addr)).select i call (s.plainTransport call.addr)
      | .https => { s.goto i (.setup call) with cachedTransportsLck := some i }
      | .other _ => s.failCall i call

/-- The stash lookup of `dialTLSSetup`. With what it finds `getTransport` panics. In `attemptHTTP2`, where nothing
recovers, the process ends then: such a run of the code goes no further, whatever other threads could do here. -/
def setup (s : State env rt) (i : ℕ) (call : Call) : State env rt :=
  match s.cachedConnections call.addr with
  | some _ =>
    let s := s.takeStash call.addr
    match call.way with
    | .cached _ => { s.goto i (.panicked call) with cachedTransportsLck := none } -- the `Unlock` is deferred
    | _ => s.goto i (.panicked call) -- nothing unlocks `cachedTransportsLck`
  | none => { s.goto i (.setupDialing call) with mutex := some i }

/-- A setup dial caches its transport and stashes its connection. -/
def install (s : State env rt) (i : ℕ) (call : Call) (t : Transport env rt) (protocol : Bytes) : State env rt :=
  { (s.cache (call.addr, .h2) t).select i call t with
    cachedKinds := Function.update s.cachedKinds call.addr (some (kindForProtocol protocol))
    cachedConnections := Function.update s.cachedConnections call.addr (some (rt.tlsConn call.addr protocol)) }

/-- The end of `dialTLSSetup`. -/
def setupDone (s : State env rt) (i : ℕ) (call : Call) : DialOutcome → State env rt
  | .dialError => s.unlock.failCall i call
  | .handshakeError => (s.unlock.dialOut (.dialer rt.dialer)).failCall i call
  | .pinError => (s.unlock.dialOut (.dialer rt.dialer)).failCall i call
  | .negotiated protocol =>
    match s.buildTransport (kindForProtocol protocol) call.addr with
    | .error _ => (s.unlock.dialOut (.dialer rt.dialer)).failCall i call
    | .ok t => (s.unlock.dialOut (.dialer rt.dialer)).install i call t protocol

/-- The stash lookup of `dialTLS`. -/
def dialStart (s : State env rt) (j : ℕ) (t : Transport env rt) (addr : Addr) : State env rt :=
  match s.cachedConnections addr with
  | some c => ((s.takeStash addr).hand t c).goto j .idle
  | none => { s.goto j (.dialing t addr) with mutex := some j }

/-- `errProtocolChanged` reaches those of the requests `waiters` that wait for the dial. -/
def refuse (s : State env rt) (refusal : Refusal env rt) (waiters : List ℕ) : State env rt :=
  { s with
    refused := s.refused ++ [refusal]
    threads := fun i => match s.threads i with
      | .running call t =>
        if i ∈ waiters ∧ t = refusal.transport ∧ t.DialsTLS call.request ∧
            call.request.canonicalAddr env t.kind = refusal.addr
        then .changed call t else .running call t
      | thread => thread }

/-- The check of the kind in `dialTLS`. -/
def checkKind (s : State env rt) (t : Transport env rt) (addr : Addr) (protocol : Bytes) (waiters : List ℕ) :
    State env rt :=
  if s.cachedKinds addr = some (kindForProtocol protocol) then s.hand t (rt.tlsConn addr protocol)
  else s.refuse ⟨t, addr, s.cachedKinds addr, kindForProtocol protocol⟩ waiters

/-- The end of `dialTLS`. -/
def dialDone (s : State env rt) (j : ℕ) (t : Transport env rt) (addr : Addr) (waiters : List ℕ) :
    DialOutcome → State env rt
  | .dialError => { s.goto j .idle with mutex := none }
  | .handshakeError => { (s.goto j .idle).dialOut (.dialer rt.dialer) with mutex := none }
  | .pinError => { (s.goto j .idle).dialOut (.dialer rt.dialer) with mutex := none }
  | .negotiated protocol =>
    { (s.goto j .idle).dialOut (.dialer rt.dialer) with mutex := none }.checkKind t addr protocol waiters

/-- `dial`, by an HTTP/1 transport. -/
def dialTCP (s : State env rt) (t : Transport env rt) (req : Request) : State env rt :=
  (s.dialOut (.dialer rt.dialer)).hand t ⟨.tcp, req.canonicalAddr env t.kind, [], none⟩

/-- A dial of an HTTP/3 transport. -/
def dialQUIC (s : State env rt) (t : Transport env rt) (req : Request) (connects : Bool) : State env rt :=
  if connects then
    (s.dialOut (.quic t.dial)).hand t ⟨.quic, req.canonicalAddr env t.kind, utf8 "h3", none⟩
  else s.dialOut (.quic t.dial)

/-- A response over the connection. -/
def respond (s : State env rt) (i : ℕ) (call : Call) (c : Conn) : State env rt :=
  match call.way with
  | .attempt r protocol => (s.goto i .idle).deliver r (protocol, some ⟨call.request, c⟩)
  | _ => (s.goto i .idle).answer ⟨call.request, c⟩

/-- The section of `dropCachedTransport` under `cachedTransportsLck`. -/
def drop (s : State env rt) (i : ℕ) (call : Call) (t : Transport env rt) : State env rt :=
  if s.cachedTransports (call.addr, .h2) = some t then
    { s.goto i (.dropping call t) with
      cachedTransports := Function.update s.cachedTransports (call.addr, .h2) none }
  else s.goto i (.dropping call t)

/-- The section of `dropCachedTransport` under the mutex of the kinds. -/
def dropKind (s : State env rt) (i : ℕ) (call : Call) : State env rt :=
  { s with cachedKinds := Function.update s.cachedKinds call.addr none }.failCall i call

/-- An attempt of a race begins, on the thread `j`. -/
def attempt (s : State env rt) (r j : ℕ) (race : Race) (protocol : Protocol) : State env rt :=
  let s := s.setRace r { race with pending := race.pending.erase protocol }
  match protocol with
  | .h2 => s.goto j (.waiting ⟨race.request, .attempt r .h2⟩)
  | .h3 =>
    match s.buildTransport .http3 race.request.getDialTLSAddr with
    | .error _ => s.deliver r (.h3, none)
    | .ok t => { s.select j ⟨race.request, .attempt r .h3⟩ t with transports := s.transports + 1 }

/-- `waitForRaceWinner` reads a result. -/
def receive (s : State env rt) (r : ℕ) (race : Race) : State env rt :=
  match race.resultCh with
  | [] => s
  | (_, none) :: rest => s.setRace r { race with resultCh := rest }
  | (.h2, some response) :: rest =>
    { (s.setRace r { race with resultCh := rest, decided := true }).answer response with
      protocolCache := Function.update s.protocolCache race.request.getDialTLSAddr (some .h2) }
  | (.h3, some response) :: rest =>
    { s.setRace r { race with resultCh := rest, decided := true, winner := some response } with
      protocolCache := Function.update s.protocolCache race.request.getDialTLSAddr (some .h3) }

/-- The section of `cacheWinningProtocol` under `cachedTransportsLck`; the race returns. -/
def cacheWinner (s : State env rt) (r : ℕ) (race : Race) (response : Response) : State env rt :=
  let s := (s.setRace r { race with winner := none }).answer response
  match s.buildTransport .http3 race.request.getDialTLSAddr with
  | .error _ => s
  | .ok t => s.cache (race.request.getDialTLSAddr, .h3) t

end State

/-- What happens next, with what the surroundings decide of it. -/
inductive Action where
  | roundTrip (i : ℕ) (req : Request)
  | acquire (i : ℕ)
  | setup (i : ℕ)
  | setupDone (i : ℕ) (outcome : DialOutcome)
  /-- the transport of the request of thread `i` dials by TLS, on thread `j` -/
  | dial (i j : ℕ)
  | dialStart (j : ℕ)
  | dialDone (j : ℕ) (outcome : DialOutcome) (waiters : List ℕ)
  | dialTCP (i : ℕ)
  | dialQUIC (i : ℕ) (connects : Bool)
  | respond (i : ℕ) (c : Conn)
  /-- the transport fails by another error than `errProtocolChanged` -/
  | fail (i : ℕ)
  | drop (i : ℕ)
  | dropKind (i : ℕ)
  | attempt (r j : ℕ) (protocol : Protocol)
  | receive (r : ℕ)
  | cacheWinner (r : ℕ)
  /-- the ten seconds of a race are over -/
  | timeout (r : ℕ)

/-- One step; an action that is not enabled changes nothing. -/
def step (s : State env rt) : Action → State env rt
  | .roundTrip i req =>
    match s.threads i with
    | .idle => s.roundTrip i req
    | _ => s
  | .acquire i =>
    match s.threads i, s.cachedTransportsLck with
    | .waiting call, none => s.acquire i call
    | _, _ => s
  | .setup i =>
    match s.threads i, s.mutex with
    | .setup call, none => s.setup i call
    | _, _ => s
  | .setupDone i outcome =>
    match s.threads i with
    | .setupDialing call => s.setupDone i call outcome
    | _ => s
  | .dial i j =>
    match s.threads i, s.threads j with
    | .running call t, .idle =>
      if t.DialsTLS call.request then s.goto j (.dialWaiting t (call.request.canonicalAddr env t.kind)) else s
    | _, _ => s
  | .dialStart j =>
    match s.threads j, s.mutex with
    | .dialWaiting t addr, none => s.dialStart j t addr
    | _, _ => s
  | .dialDone j outcome waiters =>
    match s.threads j with
    | .dialing t addr => s.dialDone j t addr waiters outcome
    | _ => s
  | .dialTCP i =>
    match s.threads i with
    | .running call t => if t.DialsTCP call.request then s.dialTCP t call.request else s
    | _ => s
  | .dialQUIC i connects =>
    match s.threads i with
    | .running call t => if t.DialsQUIC call.request then s.dialQUIC t call.request connects else s
    | _ => s
  | .respond i c =>
    match s.threads i with
    | .running call t => if (t, c) ∈ s.handed ∧ t.Serves call.request c then s.respond i call c else s
    | _ => s
  | .fail i =>
    match s.threads i with
    | .running call _ => s.failCall i call
    | _ => s
  | .drop i =>
    match s.threads i, s.cachedTransportsLck with
    | .changed call t, none => s.drop i call t
    | _, _ => s
  | .dropKind i =>
    match s.threads i with
    | .dropping call _ => s.dropKind i call
    | _ => s
  | .attempt r j protocol =>
    match s.threads r, s.threads j with
    | .race race, .idle => if protocol ∈ race.pending then s.attempt r j race protocol else s
    | _, _ => s
  | .receive r =>
    match s.threads r with
    | .race race => if race.decided then s else s.receive r race
    | _ => s
  | .cacheWinner r =>
    match s.threads r, s.cachedTransportsLck with
    | .race race, none =>
      match race.winner with
      | some response => s.cacheWinner r race response
      | none => s
    | _, _ => s
  | .timeout r =>
    match s.threads r with
    | .race race => s.setRace r { race with decided := true }
    | _ => s

/-! ## Surroundings for runs -/

def exampleEnv : Environment :=
  { Proxy.exampleEnv with
    idnaASCII := fun _ hostname => hostname
    int64ToIntError := fun _ => none }

def exampleRequest (scheme : Scheme) : Request := ⟨scheme, utf8 "h", []⟩

/-- A client of a config that races, with a dial context if asked for. -/
def exampleRacing (dialContext : Option Unit) : HttpClient Unit Unit :=
  let client := Proxy.exampleClient dialContext
  { client with config.enableProtocolRacing := true }

/-- A request that HTTP/3 answers first. -/
def exampleRace : List Action :=
  [.roundTrip 0 (exampleRequest .https), .attempt 0 1 .h3, .dialQUIC 1 true,
    .respond 1 ⟨.quic, ⟨utf8 "h", utf8 "443"⟩, utf8 "h3", none⟩, .receive 0, .cacheWinner 0]

end TlsClient.Engine.RoundTrip
