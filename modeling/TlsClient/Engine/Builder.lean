import TlsClient.Engine.Config
import TlsClient.Engine.CookieJar
import TlsClient.Library.Fallible

/-!
# Building a client

Embeds `buildClientFromConfig` and `buildCustomProfileFromC` of `src/cffi_binding/main.go`, with
`NewHttpClient` and the options of `src/client.go` and `src/client_options.go` that they use. A duration
is its nanoseconds. A spec factory is the arguments it was made from, a certificate pool, a certificate
and a log file are what they were read from; `Environment` says which of them can be made.

A client depends on the fields of the config that the cache key covers, and on two more
(`buildClientFromConfig_congr`).
-/

namespace TlsClient.Engine

open TlsClient.Ffi Utf8

/-! ## Profiles -/

/-- `http2.PriorityParam`. -/
structure Http2PriorityParam where
  streamDep : ℤ
  exclusive : Bool
  weight : ℤ
deriving DecidableEq

/-- The arguments of `GetSpecFactoryFromJa3String`. -/
structure Ja3Spec where
  ja3String : Bytes
  supportedSignatureAlgorithms : List Bytes
  supportedDelegatedCredentialsAlgorithms : List Bytes
  supportedVersions : List Bytes
  keyShareCurves : List Bytes
  supportedProtocolsALPN : List Bytes
  supportedProtocolsALPS : List Bytes
  echCandidateCipherSuites : List (Bytes × Bytes)
  candidatePayloads : List ℤ
  certCompressionAlgorithms : List Bytes
  recordSizeLimit : ℤ
  trustAnchorsPayload : Bytes
deriving DecidableEq

/-- `tls.ClientHelloID`. -/
structure ClientHelloID where
  client : Bytes
  version : Bytes
  specFactory : Option Ja3Spec := none
deriving DecidableEq

/-- `profiles.TcpFingerprint`. -/
structure TcpFingerprint where
  ttl : Option ℤ := none
  windowSize : Option ℤ := none
  windowScale : Option ℤ := none
  mss : Option ℤ := none
  dontFragment : Option Bool := none
  tos : Option ℤ := none
  noDelay : Option Bool := none
  windowClamp : Option ℤ := none
  ipIDMode : Bytes := []
deriving DecidableEq

/-- `profiles.ClientProfile`. -/
structure ClientProfile where
  clientHelloId : ClientHelloID
  settings : SortedMap ℕ ℤ := .empty
  settingsOrder : List ℕ := []
  pseudoHeaderOrder : List Bytes := []
  connectionFlow : ℤ := 0
  priorities : List (ℤ × Http2PriorityParam) := []
  headerPriority : Option Http2PriorityParam := none
  streamID : ℤ := 0
  allowHTTP : Bool := false
  http3Settings : SortedMap ℕ ℤ := .empty
  http3SettingsOrder : List ℕ := []
  http3PriorityParam : ℤ := 0
  http3PseudoHeaderOrder : List Bytes := []
  http3SendGreaseFrames : Bool := false
  tcpFingerprint : Option TcpFingerprint := none
deriving DecidableEq

/-- `H2SettingsMap`. -/
def h2SettingsMap : List (Bytes × ℕ) :=
  [(utf8 "HEADER_TABLE_SIZE", 1), (utf8 "ENABLE_PUSH", 2), (utf8 "MAX_CONCURRENT_STREAMS", 3),
    (utf8 "INITIAL_WINDOW_SIZE", 4), (utf8 "MAX_FRAME_SIZE", 5), (utf8 "MAX_HEADER_LIST_SIZE", 6),
    (utf8 "UNKNOWN_SETTING_7", 7), (utf8 "UNKNOWN_SETTING_8", 8), (utf8 "UNKNOWN_SETTING_9", 9)]

/-- `H3SettingsMap`. -/
def h3SettingsMap : List (Bytes × ℕ) :=
  [(utf8 "QPACK_MAX_TABLE_CAPACITY", 1), (utf8 "MAX_FIELD_SECTION_SIZE", 6),
    (utf8 "QPACK_BLOCKED_STREAMS", 7), (utf8 "H3_DATAGRAM", 51)]

/-- The settings whose names the table knows, by their ids. -/
def resolveSettings (table : List (Bytes × ℕ)) (settings : List (Bytes × ℤ)) : SortedMap ℕ ℤ :=
  .setAll (settings.filterMap fun setting =>
    (List.lookup setting.1 table).map fun id => (id, setting.2))

def resolveOrder (table : List (Bytes × ℕ)) (order : List Bytes) : List ℕ :=
  order.filterMap fun k => List.lookup k table

def priorityParam (p : C.PriorityParam) : Http2PriorityParam :=
  { streamDep := p.streamDep, exclusive := p.exclusive != 0, weight := p.weight }

/-- The call of `GetSpecFactoryFromJa3String` in `buildCustomProfileFromC`. -/
def ja3Spec (ctc : CustomTLSClient) : Ja3Spec :=
  { ja3String := ctc.ja3String
    supportedSignatureAlgorithms := ctc.supportedSignatureAlgorithms
    supportedDelegatedCredentialsAlgorithms := ctc.supportedDelegatedCredentialsAlgorithms
    supportedVersions := ctc.supportedVersions
    keyShareCurves := ctc.keyShareCurves
    supportedProtocolsALPN := ctc.alpnProtocols
    supportedProtocolsALPS := ctc.alpsProtocols
    echCandidateCipherSuites := ctc.echCandidateCipherSuites
    candidatePayloads := ctc.echCandidatePayloads
    certCompressionAlgorithms := ctc.certCompressionAlgos
    recordSizeLimit := ctc.recordSizeLimit
    trustAnchorsPayload := ctc.trustAnchorsPayload }

/-! ## Configs -/

/-- `TransportOptions`. -/
structure TransportOptions where
  keyLogWriter : Option Bytes := none
  idleConnTimeout : Option ℤ := none
  rootCAs : Option Bytes := none
  certificates : List (Bytes × Bytes) := []
  maxIdleConns : ℤ
  maxIdleConnsPerHost : ℤ
  maxConnsPerHost : ℤ
  maxResponseHeaderBytes : ℤ
  writeBufferSize : ℤ
  readBufferSize : ℤ
  disableKeepAlives : Bool
  disableCompression : Bool
  h2MaxDataFrameSize : ℤ
  h2PrefacePingIdleMs : ℤ
  h2HPACKIndexingPolicy : Bytes
  h2DisablePriorityFrames : Bool
deriving DecidableEq

/-- `httpClientConfig`. -/
structure HttpClientConfig where
  cookieJar : Option CookieJar := none
  certificatePins : SortedMap Bytes (List Bytes) := .empty
  defaultHeaders : SortedMap Bytes (List Bytes) := .empty
  connectHeaders : SortedMap Bytes (List Bytes) := .empty
  /-- whether `DefaultBadPinHandler` is installed -/
  badPinHandler : Bool := false
  transportOptions : Option TransportOptions := none
  localAddr : Option Bytes := none
  proxyUrl : Bytes := []
  serverNameOverwrite : Bytes := []
  clientProfile : ClientProfile
  timeout : ℤ
  catchPanics : Bool := false
  debug : Bool := false
  followRedirects : Bool := true
  insecureSkipVerify : Bool := false
  withRandomTlsExtensionOrder : Bool := false
  extensionPermuteMode : ℤ := 0
  extensionPermutePrefix : ℤ := 0
  forceHttp1 : Bool := false
  disableHttp3 : Bool := false
  disableSessionTickets : Bool := false
  enableProtocolRacing : Bool := false
  disableIPV6 : Bool := false
  disableIPV4 : Bool := false
  tcpFingerprintOverride : Option TcpFingerprint := none
deriving DecidableEq

/-- What the code outside of this file makes of names, addresses, PEM blocks and paths. -/
structure Environment where
  /-- `profiles.MappedTLSClients` -/
  mappedTLSClients : Bytes → Option ClientProfile
  /-- `profiles.DefaultClientProfile` -/
  defaultClientProfile : ClientProfile
  /-- the error of `GetSpecFactoryFromJa3String` -/
  ja3Error : Ja3Spec → Option Bytes
  /-- `net.ResolveTCPAddr("", addr)` -/
  resolveTCPAddr : Bytes → Except Bytes Bytes
  /-- whether `os.OpenFile` opens the key log -/
  opensKeylog : Bytes → Bool
  /-- whether `AppendCertsFromPEM` finds a certificate -/
  hasCerts : Bytes → Bool
  /-- whether `tls.X509KeyPair` accepts the certificate and the key -/
  acceptsKeyPair : Bytes × Bytes → Bool
  /-- the scheme `url.Parse` finds, empty where it fails -/
  extractProxyScheme : Bytes → Bytes
  /-- the error of `buildFromConfig`, which sets up the dialer and the transport -/
  transportError : HttpClientConfig → Option Bytes
  /-- `%q` -/
  quote : Bytes → Bytes

/-! ## The profile -/

/-- `buildCustomProfileFromC`. -/
def buildCustomProfileFromC (env : Environment) (ctc : CustomTLSClient) : Except Bytes ClientProfile :=
  match env.ja3Error (ja3Spec ctc) with
  | some err => .error (utf8 "JA3 spec factory: " ++ err)
  | none =>
    .ok
      { clientHelloId :=
          { client := utf8 "Custom", version := utf8 "1", specFactory := some (ja3Spec ctc) }
        settings := resolveSettings h2SettingsMap ctc.h2Settings
        settingsOrder := resolveOrder h2SettingsMap ctc.h2SettingsOrder
        pseudoHeaderOrder := ctc.pseudoHeaderOrder
        connectionFlow := ctc.connectionFlow
        priorities := ctc.priorityFrames.map fun f => (f.streamID, priorityParam f.priorityParam)
        headerPriority := ctc.headerPriority.map priorityParam
        streamID := ctc.streamId
        allowHTTP := ctc.allowHttp != 0
        http3Settings := resolveSettings h3SettingsMap ctc.h3Settings
        http3SettingsOrder := resolveOrder h3SettingsMap ctc.h3SettingsOrder
        http3PriorityParam := ctc.h3PriorityParam
        http3PseudoHeaderOrder := ctc.h3PseudoHeaderOrder
        http3SendGreaseFrames := ctc.h3SendGreaseFrames != 0 }

/-- The profile of the custom TLS client, or the one the identifier maps to. -/
def baseProfile (env : Environment) (cfg : ClientFields) : Except Bytes ClientProfile :=
  match cfg.customTLSClient with
  | some ctc =>
    (buildCustomProfileFromC env ctc).mapError (utf8 "failed to build custom TLS profile: " ++ ·)
  | none => .ok ((env.mappedTLSClients cfg.clientIdentifier).getD env.defaultClientProfile)

/-- The profile with the pseudo-header orders of the config, where it gives one. `NewClientProfile` sets
no TCP fingerprint. -/
def overridePseudoHeaderOrder (cfg : ClientFields) (clientProfile : ClientProfile) : ClientProfile :=
  if cfg.pseudoHeaderOrder.length > 0 ∨ cfg.h3PseudoHeaderOrder.length > 0 then
    { clientProfile with
      pseudoHeaderOrder :=
        if cfg.pseudoHeaderOrder.length > 0 then cfg.pseudoHeaderOrder
        else clientProfile.pseudoHeaderOrder
      http3PseudoHeaderOrder :=
        if cfg.h3PseudoHeaderOrder.length > 0 then cfg.h3PseudoHeaderOrder
        else if cfg.pseudoHeaderOrder.length > 0 then cfg.pseudoHeaderOrder
        else clientProfile.http3PseudoHeaderOrder
      tcpFingerprint := none }
  else clientProfile

/-! ## The options -/

abbrev HttpClientOption := HttpClientConfig → HttpClientConfig

def second : ℤ := 1000000000

def millisecond : ℤ := 1000000

/-- The option, where the condition holds. -/
def optionIf (p : Prop) [Decidable p] (option : HttpClientOption) : List HttpClientOption :=
  if p then [option] else []

def timeoutOption (cfg : ClientFields) : HttpClientOption := fun config =>
  { config with
    timeout :=
      if cfg.timeoutMilliseconds > 0 then millisecond * cfg.timeoutMilliseconds
      else if cfg.timeoutSeconds > 0 then second * cfg.timeoutSeconds
      else second * 30 }

/-- `WithExtensionPermuteMode`, where mode 0 stands for `PermuteChrome`. -/
def extensionPermuteOption (cfg : ClientFields) : HttpClientOption := fun config =>
  let mode := if cfg.extensionPermuteMode = 0 then 1 else cfg.extensionPermuteMode
  { config with
    extensionPermuteMode := mode
    extensionPermutePrefix := cfg.extensionPermutePrefix
    withRandomTlsExtensionOrder := mode != 0 }

def positive (n : ℤ) : Option ℤ :=
  if n > 0 then some n else none

/-- -1 stands for "unset". -/
def triState (n : ℤ) : Option ℤ :=
  if n ≥ 0 then some n else none

/-- A TCP field is set. -/
def hasTcpFingerprint (cfg : ClientFields) : Prop :=
  cfg.tcpTTL > 0 ∨ cfg.tcpWindowSize > 0 ∨ cfg.tcpWindowScale > 0 ∨ cfg.tcpMSS > 0 ∨
    cfg.tcpDontFragment ≥ 0 ∨ cfg.tcpTOS ≥ 0 ∨ cfg.tcpNoDelay ≥ 0 ∨ cfg.tcpWindowClamp > 0 ∨
    cfg.tcpIPIDMode ≠ []

instance (cfg : ClientFields) : Decidable (hasTcpFingerprint cfg) := by
  unfold hasTcpFingerprint
  infer_instance

def tcpFingerprint (cfg : ClientFields) : TcpFingerprint :=
  { ttl := positive cfg.tcpTTL
    windowSize := positive cfg.tcpWindowSize
    windowScale := positive cfg.tcpWindowScale
    mss := positive cfg.tcpMSS
    dontFragment := (triState cfg.tcpDontFragment).map (· != 0)
    tos := triState cfg.tcpTOS
    noDelay := (triState cfg.tcpNoDelay).map (· != 0)
    windowClamp := positive cfg.tcpWindowClamp
    ipIDMode := cfg.tcpIPIDMode }

/-- `cClientCerts`. -/
def cClientCerts (env : Environment) (certs : List (Bytes × Bytes)) : List (Bytes × Bytes) :=
  certs.filter env.acceptsKeyPair

def transportOptions (env : Environment) (cfg : ClientFields) : TransportOptions :=
  { maxIdleConns := cfg.maxIdleConns
    maxIdleConnsPerHost := cfg.maxIdleConnsPerHost
    maxConnsPerHost := cfg.maxConnsPerHost
    maxResponseHeaderBytes := cfg.maxResponseHeaderBytes
    writeBufferSize := cfg.writeBufferSize
    readBufferSize := cfg.readBufferSize
    disableKeepAlives := cfg.disableKeepAlives
    disableCompression := cfg.disableCompression
    certificates := cClientCerts env cfg.clientCertPEMs
    keyLogWriter :=
      if cfg.tlsKeylogPath ≠ [] ∧ env.opensKeylog cfg.tlsKeylogPath then some cfg.tlsKeylogPath else none
    rootCAs := if cfg.rootCAPEM.length > 0 ∧ env.hasCerts cfg.rootCAPEM then some cfg.rootCAPEM else none
    h2MaxDataFrameSize := cfg.h2MaxDataFrameSize
    h2PrefacePingIdleMs := cfg.prefacePingIdleMs
    h2HPACKIndexingPolicy := cfg.hpackIndexingPol
    h2DisablePriorityFrames := cfg.h2DisablePriorityFrames
    idleConnTimeout :=
      some (if cfg.idleConnTimeoutSeconds > 0 then cfg.idleConnTimeoutSeconds * second else 30 * second) }

/-- `NewCookieJar` with the options of the config. -/
def newCookieJar (cfg : ClientFields) : CookieJar :=
  { config := { allowEmptyCookies := cfg.allowEmptyCookies } }

/-- The options of `buildClientFromConfig`, in the order in which it appends them; `addr` is the resolved
local address. -/
def clientOptions (env : Environment) (cfg : ClientFields) (catchPanics withDebug : Bool)
    (clientProfile : ClientProfile) (addr : Bytes) : List HttpClientOption :=
  [fun config => { config with clientProfile := clientProfile }, timeoutOption cfg] ++
    optionIf (cfg.followRedirects = false) (fun config => { config with followRedirects := false }) ++
    optionIf cfg.insecureSkipVerify (fun config => { config with insecureSkipVerify := true }) ++
    optionIf cfg.forceHttp1 (fun config => { config with forceHttp1 := true }) ++
    optionIf (cfg.withRandomTLSExtOrder ∨ cfg.extensionPermuteMode ≠ 0) (extensionPermuteOption cfg) ++
    optionIf cfg.disableHTTP3 (fun config => { config with disableHttp3 := true }) ++
    optionIf cfg.withProtocolRacing (fun config => { config with enableProtocolRacing := true }) ++
    optionIf cfg.disableIPv6 (fun config => { config with disableIPV6 := true }) ++
    optionIf cfg.disableIPv4 (fun config => { config with disableIPV4 := true }) ++
    optionIf (hasTcpFingerprint cfg)
      (fun config => { config with tcpFingerprintOverride := some (tcpFingerprint cfg) }) ++
    optionIf catchPanics (fun config => { config with catchPanics := true }) ++
    optionIf cfg.disableSessionTickets (fun config => { config with disableSessionTickets := true }) ++
    optionIf withDebug (fun config => { config with debug := true }) ++
    optionIf (cfg.serverNameOverwrite ≠ [])
      (fun config => { config with serverNameOverwrite := cfg.serverNameOverwrite }) ++
    optionIf (cfg.proxy ≠ []) (fun config => { config with proxyUrl := cfg.proxy }) ++
    optionIf (cfg.localAddress ≠ []) (fun config => { config with localAddr := some addr }) ++
    [fun config => { config with transportOptions := some (transportOptions env cfg) }] ++
    optionIf (cfg.withoutCookieJar = false)
      (fun config => { config with cookieJar := some (newCookieJar cfg) }) ++
    optionIf (cfg.defaultHeaders.entries.length > 0)
      (fun config => { config with defaultHeaders := cfg.defaultHeaders }) ++
    optionIf (cfg.connectHeaders.entries.length > 0)
      (fun config => { config with connectHeaders := cfg.connectHeaders }) ++
    optionIf (cfg.certificatePinningHosts.entries.length > 0)
      (fun config =>
        { config with
          certificatePins := cfg.certificatePinningHosts
          badPinHandler := cfg.withDefaultBadPinHandler })

/-! ## `NewHttpClient` -/

/-- `validateProxyConfig`. -/
def validateProxyConfig (env : Environment) (config : HttpClientConfig) : Except Bytes Unit :=
  if config.proxyUrl = [] ∨ config.enableProtocolRacing = false then .ok ()
  else
    let proxyScheme := env.extractProxyScheme config.proxyUrl
    if proxyScheme = utf8 "socks5" ∨ proxyScheme = utf8 "socks5h" then .ok ()
    else
      .error (utf8 "invalid config: protocol racing requires a SOCKS5 proxy for HTTP/3 support. " ++
        utf8 "Non-SOCKS5 proxies (scheme " ++ env.quote proxyScheme ++
        utf8 ") only support TCP and cannot tunnel QUIC/UDP traffic, " ++
        utf8 "which would cause HTTP/3 connections to bypass the proxy. " ++
        utf8 "Use a socks5:// proxy, disable protocol racing, or disable HTTP/3")

/-- `validateConfig`; no option here sets a dialer. -/
def validateConfig (env : Environment) (config : HttpClientConfig) : Except Bytes Unit :=
  if config.enableProtocolRacing ∧ config.disableHttp3 then
    .error (utf8 "invalid config: HTTP/3 racing cannot be enabled when HTTP/3 is disabled")
  else if config.enableProtocolRacing ∧ config.forceHttp1 then
    .error (utf8 "invalid config: HTTP/3 racing cannot be enabled when HTTP/1 is forced")
  else if config.disableIPV4 ∧ config.disableIPV6 then
    .error (utf8 "invalid config: cannot disable both IPv4 and IPv6")
  else if config.certificatePins.entries.length > 0 ∧ config.insecureSkipVerify then
    .error (utf8 "invalid config: certificate pinning cannot be used with insecure skip verify")
  else validateProxyConfig env config

/-- `NewHttpClient`. -/
def newHttpClient (env : Environment) (options : List HttpClientOption) : Except Bytes HttpClientConfig :=
  let config := options.foldl (fun config opt => opt config)
    { clientProfile := env.defaultClientProfile, timeout := second * 30 }
  match validateConfig env config with
  | .error err => .error err
  | .ok () =>
    match env.transportError config with
    | some err => .error err
    | none => .ok config

def resolveLocalAddress (env : Environment) (cfg : ClientFields) : Except Bytes Bytes :=
  if cfg.localAddress ≠ [] then
    (env.resolveTCPAddr cfg.localAddress).mapError fun err =>
      utf8 "failed to resolve local address " ++ env.quote cfg.localAddress ++ utf8 ": " ++ err
  else .ok []

/-- `buildClientFromConfig`. -/
def buildClientFromConfig (env : Environment) (cfg : RequestConfig) : Except Bytes HttpClientConfig := do
  let clientProfile ← baseProfile env cfg.toClientFields
  let addr ← resolveLocalAddress env cfg.toClientFields
  newHttpClient env
    (clientOptions env cfg.toClientFields cfg.catchPanics cfg.withDebug
      (overridePseudoHeaderOrder cfg.toClientFields clientProfile) addr)

/-! ## What a client depends on -/

/-- An id belongs to one name. -/
theorem lookup_inj {table : List (Bytes × ℕ)} (hnodup : (table.map Prod.snd).Nodup) (k k' : Bytes) (id : ℕ)
    (hk : List.lookup k table = some id) (hk' : List.lookup k' table = some id) : k = k' := by
  have hmem : ∀ k, List.lookup k table = some id → (k, id) ∈ table := by
    intro k hk
    obtain ⟨l₁, l₂, rfl, -⟩ := List.lookup_eq_some_iff.mp hk
    exact List.mem_append_right _ List.mem_cons_self
  exact congrArg Prod.fst (List.inj_on_of_nodup_map hnodup (hmem k hk) (hmem k' hk') rfl)

/-- The order of the settings does not matter. -/
theorem resolveSettings_sortByKey {table : List (Bytes × ℕ)} (hnodup : (table.map Prod.snd).Nodup)
    (settings : List (Bytes × ℤ)) :
    resolveSettings table (SortedMap.sortByKey settings) = resolveSettings table settings :=
  SortedMap.setAll_filterMap_sortByKey (lookup_inj hnodup) settings

/-- The order of the settings in the arrays does not matter. -/
theorem buildCustomProfileFromC_keyed (env : Environment) (ctc : CustomTLSClient) :
    buildCustomProfileFromC env ctc.keyed = buildCustomProfileFromC env ctc := by
  have hspec : ja3Spec ctc.keyed = ja3Spec ctc := rfl
  have h2 : resolveSettings h2SettingsMap ctc.keyed.h2Settings =
      resolveSettings h2SettingsMap ctc.h2Settings := resolveSettings_sortByKey (by decide) _
  have h3 : resolveSettings h3SettingsMap ctc.keyed.h3Settings =
      resolveSettings h3SettingsMap ctc.h3Settings := resolveSettings_sortByKey (by decide) _
  rw [buildCustomProfileFromC, buildCustomProfileFromC, hspec, h2, h3]
  rfl

/-- The profile depends on the keyed fields only. -/
theorem baseProfile_keyed (env : Environment) (cfg : ClientFields) :
    baseProfile env cfg.keyed = baseProfile env cfg := by
  rw [baseProfile, baseProfile]
  cases hctc : cfg.customTLSClient with
  | none => simp only [ClientFields.keyed, hctc, Option.map_none]
  | some ctc => simp only [ClientFields.keyed, hctc, Option.map_some, buildCustomProfileFromC_keyed]

/-- The same client is built from two configs that agree on the keyed fields, the panic catching and the
debug output. -/
theorem buildClientFromConfig_congr (env : Environment) {c d : RequestConfig}
    (hkeyed : c.toClientFields.keyed = d.toClientFields.keyed) (hpanics : c.catchPanics = d.catchPanics)
    (hdebug : c.withDebug = d.withDebug) :
    buildClientFromConfig env c = buildClientFromConfig env d := by
  have hbase : baseProfile env c.toClientFields = baseProfile env d.toClientFields := by
    rw [← baseProfile_keyed, hkeyed, baseProfile_keyed]
  -- the other parts do not read the custom TLS client, the only field that `keyed` touches
  have haddr : resolveLocalAddress env c.toClientFields = resolveLocalAddress env d.toClientFields := by
    have h := congrArg (resolveLocalAddress env) hkeyed
    exact h
  have horder : overridePseudoHeaderOrder c.toClientFields =
      overridePseudoHeaderOrder d.toClientFields := by
    have h := congrArg overridePseudoHeaderOrder hkeyed
    exact h
  have hoptions : clientOptions env c.toClientFields = clientOptions env d.toClientFields := by
    have h := congrArg (clientOptions env) hkeyed
    exact h
  rw [buildClientFromConfig, buildClientFromConfig, hbase, haddr, horder, hoptions, hpanics, hdebug]

/-! ## The jar of a new client -/

theorem optionIf_pos {p : Prop} [Decidable p] {option : HttpClientOption} (hp : p) :
    optionIf p option = [option] := if_pos hp

theorem optionIf_neg {p : Prop} [Decidable p] {option : HttpClientOption} (hp : ¬ p) :
    optionIf p option = [] := if_neg hp

/-- The option is there exactly if its condition holds. -/
theorem mem_optionIf {p : Prop} [Decidable p] {option o : HttpClientOption} :
    o ∈ optionIf p option ↔ p ∧ o = option := by
  rw [optionIf]
  split_ifs with hp <;> simp [hp]

/-- Options that leave a field alone leave it alone together. -/
theorem foldl_options_field {β : Type*} (field : HttpClientConfig → β) {options : List HttpClientOption}
    (hoptions : ∀ o ∈ options, ∀ config, field (o config) = field config) (config : HttpClientConfig) :
    field (options.foldl (fun config opt => opt config) config) = field config := by
  induction options generalizing config with
  | nil => rfl
  | cons o options ih =>
    rw [List.foldl_cons, ih fun o ho => hoptions o (List.mem_cons_of_mem _ ho)]
    exact hoptions o List.mem_cons_self config

/-- A field that the option does not set is kept. -/
theorem foldl_optionIf_field {β : Type*} (field : HttpClientConfig → β) {p : Prop} [Decidable p]
    {option : HttpClientOption} (hoption : ∀ config, field (option config) = field config)
    (config : HttpClientConfig) :
    field ((optionIf p option).foldl (fun config opt => opt config) config) = field config := by
  refine foldl_options_field field (fun o ho => ?_) config
  rw [(mem_optionIf.mp ho).2]
  exact hoption

/-- The options set the cookie jar. -/
theorem cookieJar_clientOptions (env : Environment) (cfg : ClientFields) (catchPanics withDebug : Bool)
    (clientProfile : ClientProfile) (addr : Bytes) (config : HttpClientConfig) :
    ((clientOptions env cfg catchPanics withDebug clientProfile addr).foldl
        (fun config opt => opt config) config).cookieJar =
      if cfg.withoutCookieJar = false then some (newCookieJar cfg) else config.cookieJar := by
  unfold clientOptions
  -- none of the options sets a jar except the one for it
  rw [List.foldl_append, foldl_optionIf_field HttpClientConfig.cookieJar, List.foldl_append,
    foldl_optionIf_field HttpClientConfig.cookieJar, List.foldl_append,
    foldl_optionIf_field HttpClientConfig.cookieJar, List.foldl_append]
  · by_cases hjar : cfg.withoutCookieJar = false
    · rw [if_pos hjar, optionIf_pos hjar]
      rfl
    · rw [if_neg hjar, optionIf_neg hjar, List.foldl_nil, List.foldl_append, List.foldl_cons,
        List.foldl_nil]
      dsimp only
      repeat rw [List.foldl_append, foldl_optionIf_field HttpClientConfig.cookieJar]
      · rfl
      all_goals exact fun _ => rfl
  all_goals exact fun _ => rfl

/-- A client that is built has all its options. -/
theorem newHttpClient_eq_ok {env : Environment} {options : List HttpClientOption}
    {config : HttpClientConfig} (hnew : newHttpClient env options = .ok config) :
    config = options.foldl (fun config opt => opt config)
      { clientProfile := env.defaultClientProfile, timeout := second * 30 } := by
  rw [newHttpClient] at hnew
  split at hnew
  · contradiction
  · split at hnew
    · contradiction
    · exact (Except.ok.inj hnew).symm

/-- What a client that is built has. -/
theorem buildClientFromConfig_eq_ok {env : Environment} {cfg : RequestConfig} {config : HttpClientConfig}
    (hbuild : buildClientFromConfig env cfg = .ok config) :
    ∃ clientProfile addr,
      config = (clientOptions env cfg.toClientFields cfg.catchPanics cfg.withDebug
          (overridePseudoHeaderOrder cfg.toClientFields clientProfile) addr).foldl
        (fun config opt => opt config) { clientProfile := env.defaultClientProfile, timeout := second * 30 } := by
  rw [buildClientFromConfig] at hbuild
  obtain ⟨clientProfile, -, hbuild⟩ := Fallible.bind_eq_ok_iff.mp hbuild
  obtain ⟨addr, -, hbuild⟩ := Fallible.bind_eq_ok_iff.mp hbuild
  exact ⟨clientProfile, addr, newHttpClient_eq_ok hbuild⟩

/-- A new client has an empty jar of its own, unless the config turns the jar off. -/
theorem cookieJar_buildClientFromConfig {env : Environment} {cfg : RequestConfig}
    {config : HttpClientConfig} (hbuild : buildClientFromConfig env cfg = .ok config) :
    config.cookieJar =
      if cfg.withoutCookieJar = false then some (newCookieJar cfg.toClientFields) else none := by
  obtain ⟨clientProfile, addr, heq⟩ := buildClientFromConfig_eq_ok hbuild
  rw [heq, cookieJar_clientOptions]

end TlsClient.Engine
