import TlsClient.CacheKey.Injective
import TlsClient.CacheKey.Parity
import TlsClient.Engine.Clients

/-!
# The pool hands out the right client

A pooled client is found by a key, and the key covers the fields of `ClientFields`. Over every run of
requests, evictions, clearings and changes of the capacity, the client that a request gets was built from
a config with the same values of these fields (`pool_sound`). The key does not cover `catchPanics` and
`withDebug`, which the builder reads too: a request gets a client with another setting of them whenever
one is pooled under its key.
-/

namespace TlsClient.Engine

open TlsClient.Ffi TlsClient.CacheKey TlsClient.Python Utf8

/-- What happens to the pool. -/
inductive Action where
  | getOrCreate (m : Moment) (cfg : RequestConfig)
  | receive (id : ℕ) (host : Bytes) (cookies : List Cookie)
  | evictStale (toDelete : List Bytes) (cutoff now : ℤ)
  | clear
  | setMaxEntries (order : List Bytes) (entries : ℤ)

def step (sha256 : Bytes → Bytes) (s : Process) : Action → Process
  | .getOrCreate m cfg => (getOrCreateClientFromConfig sha256 m cfg s).2
  | .receive id host cookies => s.receive id host cookies
  | .evictStale toDelete cutoff now => s.evictStale toDelete cutoff now
  | .clear => s.clear
  | .setMaxEntries order entries => s.setMaxEntries order entries

/-- The key that the config brings along is missing or its own. -/
def RequestConfig.Honest (sha256 : Bytes → Bytes) (cfg : RequestConfig) : Prop :=
  poolKey sha256 cfg = buildCacheKeyFromConfig sha256 cfg

/-- The values that `buildClientFromConfig` reads agree. -/
structure RequestConfig.Agrees (c d : RequestConfig) : Prop where
  keyed : c.toClientFields.keyed = d.toClientFields.keyed
  catchPanics : c.catchPanics = d.catchPanics
  withDebug : c.withDebug = d.withDebug

/-- A client pooled under the key of the config differs from the config in nothing that the key leaves out:
the two fields it does not cover, and the order of the ECH cipher suites. -/
def UnkeyedAgree (sha256 : Bytes → Bytes) (s : Process) (cfg : RequestConfig) : Prop :=
  ∀ id client, s.pool.clientAt (poolKey sha256 cfg) = some id → s.clients[id]? = some client →
    client.source.catchPanics = cfg.catchPanics ∧ client.source.withDebug = cfg.withDebug ∧
      SameSuiteOrder client.source.toClientFields cfg.toClientFields

/-- The condition on a step: a request has a separable config and its own key, and no pooled client differs
from it in what the key leaves out. -/
def StepOk (sha256 : Bytes → Bytes) (s : Process) : Action → Prop
  | .getOrCreate _ cfg =>
    cfg.toClientFields.Separable ∧ cfg.Honest sha256 ∧ UnkeyedAgree sha256 s cfg
  | _ => True

/-- Every pooled client is filed under the key of the config it was built from. -/
def Filed (sha256 : Bytes → Bytes) (s : Process) : Prop :=
  ∀ key id, s.pool.clientAt key = some id → ∃ source, s.clients[id]?.map Client.source = some source ∧
    source.toClientFields.Separable ∧ key = buildCacheKeyFromConfig sha256 source

/-- A pool with fewer clients is as well filed. -/
theorem filed_of_sub {sha256 : Bytes → Bytes} {s t : Process} (hs : Filed sha256 s)
    (hpool : ∀ key id, t.pool.clientAt key = some id → s.pool.clientAt key = some id)
    (hsource : ∀ id : ℕ, t.clients[id]?.map Client.source = s.clients[id]?.map Client.source) :
    Filed sha256 t := by
  intro key id hid
  rw [hsource]
  exact hs key id (hpool key id hid)

/-- A request under the condition keeps the pool filed. -/
theorem filed_getOrCreate {sha256 : Bytes → Bytes} {s : Process} {m : Moment} {cfg : RequestConfig}
    (hs : Filed sha256 s) (hsep : cfg.toClientFields.Separable) (hhonest : cfg.Honest sha256) :
    Filed sha256 (getOrCreateClientFromConfig sha256 m cfg s).2 := by
  rcases getOrCreate_cases sha256 m cfg s with ⟨id, -, heq⟩ | ⟨-, err, heq⟩ |
      ⟨-, client, pool, hnew, heq, -, hpool⟩
  · rw [heq]
    exact filed_of_sub hs (fun key id hid => by rwa [Pool.clientAt_touch] at hid) fun _ => rfl
  · rw [heq]
    exact hs
  · rw [heq]
    intro key id hid
    rcases hpool key id hid with ⟨rfl, rfl⟩ | hold
    · refine ⟨cfg, ?_, hsep, hhonest⟩
      rw [List.getElem?_concat_length, Option.map_some, newClient_eq_ok hnew]
    · obtain ⟨source, hsource, hrest⟩ := hs key id hold
      refine ⟨source, ?_, hrest⟩
      obtain ⟨client', hclient, rfl⟩ := Option.map_eq_some_iff.mp hsource
      rw [List.getElem?_append_left (List.getElem?_eq_some_iff.mp hclient).1, hclient, Option.map_some]

/-- So does every step. -/
theorem filed_step {sha256 : Bytes → Bytes} {s : Process} {a : Action} (hs : Filed sha256 s)
    (hok : StepOk sha256 s a) : Filed sha256 (step sha256 s a) := by
  cases a with
  | getOrCreate m cfg => exact filed_getOrCreate hs hok.1 hok.2.1
  | receive id host cookies => exact filed_of_sub hs (fun _ _ h => h) fun _ => Process.source_receive
  | evictStale toDelete cutoff now =>
    exact filed_of_sub hs (fun _ _ => Pool.clientAt_evictStaleEntries) fun _ => rfl
  | clear => exact filed_of_sub hs (fun _ _ h => by simp [step, Process.clear] at h) fun _ => rfl
  | setMaxEntries order entries =>
    exact filed_of_sub hs (fun _ _ => Pool.clientAt_setPoolMaxEntries order entries) fun _ => rfl

/-- In a run of such steps the pool is filed. -/
theorem filed_exec {sha256 : Bytes → Bytes} {as : List Action}
    (hrun : Run.Along (step sha256) (StepOk sha256) {} as) :
    Filed sha256 (Run.exec (step sha256) {} as) := by
  refine Run.invariant_exec (fun _ _ => filed_step) ?_ hrun
  intro key id hid
  simp [Pool.clientAt, Pool.load] at hid

/-- Separable configs with one key agree on the keyed fields. -/
theorem keyed_eq_of_key_eq {sha256 : Bytes → Bytes} (hsha : Function.Injective sha256)
    (hne : ∀ b, sha256 b ≠ []) {c d : RequestConfig} (hc : c.toClientFields.Separable)
    (hd : d.toClientFields.Separable) (horder : SameSuiteOrder c.toClientFields d.toClientFields)
    (hkey : buildCacheKeyFromConfig sha256 c = buildCacheKeyFromConfig sha256 d) :
    c.toClientFields.keyed = d.toClientFields.keyed :=
  keyed_eq_of_preimage_eq hsha hne hc hd horder (hsha (hexText_injective hkey))

/-- In every run whose steps meet the condition, the client that a request gets was built from a config
that agrees with the one of the request, so it is the client that would be built for the request. -/
theorem pool_sound {sha256 : Bytes → Bytes} (hsha : Function.Injective sha256) (hne : ∀ b, sha256 b ≠ [])
    {as : List Action} {m : Moment} {cfg : RequestConfig} {id : ℕ}
    (hrun : Run.Along (step sha256) (StepOk sha256) {} (as ++ [.getOrCreate m cfg]))
    (hget : (getOrCreateClientFromConfig sha256 m cfg (Run.exec (step sha256) {} as)).1 = .ok id) :
    ∃ client, (Run.exec (step sha256) {} (as ++ [.getOrCreate m cfg])).clients[id]? = some client ∧
      client.source.Agrees cfg ∧
      ∀ env, buildClientFromConfig env client.source = buildClientFromConfig env cfg := by
  obtain ⟨hrun, ⟨hsep, hhonest, hunkeyed⟩, -⟩ := Run.along_append.mp hrun
  have hfiled := filed_exec hrun
  rw [Run.exec_append, Run.exec_cons, Run.exec_nil, step]
  generalize Run.exec (step sha256) {} as = s at hfiled hunkeyed hget
  suffices hagrees : ∃ client, (getOrCreateClientFromConfig sha256 m cfg s).2.clients[id]? = some client ∧
      client.source.Agrees cfg by
    obtain ⟨client, hclient, hagrees⟩ := hagrees
    exact ⟨client, hclient, hagrees, fun env =>
      buildClientFromConfig_congr env hagrees.keyed hagrees.catchPanics hagrees.withDebug⟩
  -- a client from the pool was filed under an equal key; a new one is this request's own
  rcases getOrCreate_cases sha256 m cfg s with ⟨id', hat, heq⟩ | ⟨-, err, heq⟩ |
      ⟨-, client, pool, hnew, heq, -, -⟩
  · rw [heq] at hget ⊢
    obtain rfl := Except.ok.inj hget
    obtain ⟨source, hsource, hsource_sep, hkey⟩ := hfiled _ _ hat
    obtain ⟨client, hclient, rfl⟩ := Option.map_eq_some_iff.mp hsource
    obtain ⟨hpanics, hdebug, horder⟩ := hunkeyed id' client hat hclient
    exact ⟨client, hclient,
      keyed_eq_of_key_eq hsha hne hsource_sep hsep horder (hkey.symm.trans hhonest), hpanics, hdebug⟩
  · rw [heq] at hget
    contradiction
  · rw [heq] at hget ⊢
    obtain rfl := Except.ok.inj hget
    refine ⟨client, List.getElem?_concat_length, ?_⟩
    rw [newClient_eq_ok hnew]
    exact ⟨rfl, rfl, rfl⟩

/-- Hexadecimal text has no NUL. -/
theorem goString_hexText (bs : Bytes) : goString (some (hexText bs)) = hexText bs := by
  rw [goString, List.takeWhile_eq_self_iff]
  intro b hb
  rcases hexDigit_of_mem_hexText hb with hdigit | hletter
  · rw [IsDigit] at hdigit
    exact decide_eq_true fun hzero => by simp [hzero] at hdigit
  · exact decide_eq_true fun hzero => by simp [hzero] at hletter

/-- The key that the Python layer sends along is the engine's own wherever both hash the same bytes. -/
theorem honest_of_mirrored {lib : Library} {sha256 : Bytes → Bytes} {r : Resolved} {args : RequestArgs}
    {opts : C.RequestOptions} (hmarshal : marshal lib sha256 r args = .ok opts) (hmirrored : r.Mirrored) :
    (requestConfigFromOptions opts).Honest sha256 := by
  obtain ⟨-, p, hp, rfl⟩ := marshal_eq_ok_iff.mp hmarshal
  have hhash : (requestConfigFromOptions
      (fillRequestOptions r args (hexText (sha256 p)))).cacheKeyHash = hexText (sha256 p) :=
    goString_hexText _
  rw [RequestConfig.Honest, poolKey]
  split_ifs
  · rfl
  · rw [hhash, buildCacheKeyFromConfig, ← (copied_preimage sha256 r args _ hp).eq_iff.mpr hmirrored]

/-! ## A pooled client with another setting -/

/-- Everything can be built. -/
def exampleMoment : Moment where
  env :=
    { mappedTLSClients := fun _ => none
      defaultClientProfile := { clientHelloId := { client := utf8 "Chrome", version := utf8 "146" } }
      ja3Error := fun _ => none
      resolveTCPAddr := .ok
      opensKeylog := fun _ => true
      hasCerts := fun _ => true
      acceptsKeyPair := fun _ => true
      extractProxyScheme := fun _ => utf8 "http"
      transportError := fun _ => none
      quote := id }

def debugConfig (withDebug : Bool) : RequestConfig :=
  { toClientFields := proxyConfig [], withDebug := withDebug }

/-- A config with debugging has a client. -/
theorem exists_debugClient (withDebug : Bool) :
    ∃ client, newClient exampleMoment.env (debugConfig withDebug) = .ok client := by
  cases withDebug
  · exact exists_newClient_of_build rfl
  · exact exists_newClient_of_build rfl

/-- Turning debug output off again has no effect while the pool holds the client of the first request. -/
theorem debug_client_reused :
    ¬ ∀ sha256 : Bytes → Bytes, Function.Injective sha256 → ∀ (as : List Action) (m : Moment)
      (cfg : RequestConfig) (id : ℕ),
      (∀ m' c, Action.getOrCreate m' c ∈ as ++ [.getOrCreate m cfg] →
        c.toClientFields.Separable ∧ c.Honest sha256) →
      (getOrCreateClientFromConfig sha256 m cfg (Run.exec (step sha256) {} as)).1 = .ok id →
      ∃ client, (Run.exec (step sha256) {} (as ++ [.getOrCreate m cfg])).clients[id]? = some client ∧
        client.source.Agrees cfg := by
  intro hsound
  -- a request with the debug flag makes the client that the one without it then gets
  obtain ⟨client, hnew⟩ := exists_debugClient true
  obtain ⟨-, hclients, hat⟩ := getOrCreate_of_new (List.cons 1) {} rfl hnew
  have hget := getOrCreate_of_pooled exampleMoment (debugConfig false) hat
  obtain ⟨client', hclient', hagrees⟩ := hsound (List.cons 1) (fun _ _ h => (List.cons.inj h).2)
    [.getOrCreate exampleMoment (debugConfig true)] exampleMoment (debugConfig false) 0 (by
      intro m' c hmem
      have hc : m' = exampleMoment ∧ (c = debugConfig true ∨ c = debugConfig false) := by
        simpa [and_or_left] using hmem
      rcases hc.2 with rfl | rfl
      · exact ⟨separable_proxyConfig_nil, rfl⟩
      · exact ⟨separable_proxyConfig_nil, rfl⟩) (congrArg Prod.fst hget)
  rw [List.singleton_append, Run.exec_cons, Run.exec_cons, Run.exec_nil, step, step, hget, hclients]
    at hclient'
  obtain rfl : client = client' := by simpa using hclient'
  have hdebug := hagrees.withDebug
  rw [newClient_eq_ok hnew] at hdebug
  exact absurd hdebug (by decide)

/-- The same request twice. -/
theorem pool_sound_twice :
    ∃ client, (Run.exec (step (List.cons 1)) {}
        ([.getOrCreate exampleMoment (debugConfig true)] ++
          [.getOrCreate exampleMoment (debugConfig true)])).clients[0]? = some client ∧
      client.source.Agrees (debugConfig true) ∧
      ∀ env, buildClientFromConfig env client.source = buildClientFromConfig env (debugConfig true) := by
  obtain ⟨client, hnew⟩ := exists_debugClient true
  obtain ⟨-, hclients, hat⟩ := getOrCreate_of_new (List.cons 1) {} rfl hnew
  refine pool_sound (fun _ _ h => (List.cons.inj h).2) (fun _ => List.cons_ne_nil _ _) ?_
    (congrArg Prod.fst (getOrCreate_of_pooled _ _ hat))
  refine ⟨⟨separable_proxyConfig_nil, rfl, fun id client hid => ?_⟩,
    ⟨separable_proxyConfig_nil, rfl, fun id client' _ hclient' => ?_⟩, trivial⟩
  · simp [Pool.clientAt, Pool.load] at hid
  · rw [step, hclients] at hclient'
    have hmem := List.mem_of_getElem? hclient'
    obtain rfl : client' = client := by simpa using hmem
    rw [newClient_eq_ok hnew]
    exact ⟨rfl, rfl, by simp [SameSuiteOrder, debugConfig, proxyConfig]⟩

end TlsClient.Engine
