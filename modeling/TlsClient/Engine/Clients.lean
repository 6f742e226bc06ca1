import TlsClient.CacheKey.Engine
import TlsClient.Engine.Builder
import TlsClient.Engine.Pool
import TlsClient.Library.Run

/-!
# The clients of the process

The pool maps keys to clients, and a request that has got its client keeps it when the pool drops it. The
clients live in a list therefore, the pool holds their places in it, and a client keeps the config it was
built from. `getOrCreateClientFromConfig` of `src/cffi_binding/main.go` is one step: a call that finds its
client in the unlocked lookup is ordered at that lookup, every other call holds the lock.

`getOrCreate_cases` says all that a call can do.
-/

namespace TlsClient.Engine

open TlsClient.Ffi TlsClient.CacheKey

/-- A client that `buildClientFromConfig` has built. -/
structure Client where
  /-- the config it was built from -/
  source : RequestConfig
  config : HttpClientConfig
  built : ∃ env, buildClientFromConfig env source = .ok config
  /-- `http.Client.Jar`, as the responses so far have left it -/
  jar : Option CookieJar
  jar_options : jar.map CookieJar.config =
    if source.withoutCookieJar = false then some { allowEmptyCookies := source.allowEmptyCookies } else none

/-- The call of `buildClientFromConfig`. -/
def newClient (env : Environment) (cfg : RequestConfig) : Except Bytes Client :=
  match hbuild : buildClientFromConfig env cfg with
  | .ok config =>
    .ok
      { source := cfg
        config
        built := ⟨env, hbuild⟩
        jar := config.cookieJar
        jar_options := by
          rw [cookieJar_buildClientFromConfig hbuild]
          split_ifs <;> rfl }
  | .error err => .error err

/-- The response of a request on the client: the transport hands its cookies to the jar. -/
def Client.receive (client : Client) (host : Bytes) (cookies : List Cookie) : Client :=
  { client with
    jar := client.jar.map fun jar => jar.setCookies host cookies
    jar_options := by
      rw [← client.jar_options, Option.map_map]
      rfl }

/-- A client remembers its config. -/
theorem newClient_eq_ok {env : Environment} {cfg : RequestConfig} {client : Client}
    (hnew : newClient env cfg = .ok client) : client.source = cfg := by
  rw [newClient] at hnew
  split at hnew
  case h_1 => exact congrArg Client.source (Except.ok.inj hnew).symm
  case h_2 => contradiction

/-- What can be built has a client. -/
theorem exists_newClient_of_build {env : Environment} {cfg : RequestConfig} {config : HttpClientConfig}
    (hbuild : buildClientFromConfig env cfg = .ok config) : ∃ client, newClient env cfg = .ok client := by
  rw [newClient]
  split
  case h_1 => exact ⟨_, rfl⟩
  case h_2 err herr => exact absurd (herr.symm.trans hbuild) (by simp)

/-- The pool and all clients built so far. -/
structure Process where
  pool : Pool ℕ := {}
  clients : List Client := []

/-- The key of `getOrCreateClientFromConfig`. -/
def poolKey (sha256 : Bytes → Bytes) (cfg : RequestConfig) : Bytes :=
  if cfg.cacheKeyHash = [] then buildCacheKeyFromConfig sha256 cfg else cfg.cacheKeyHash

/-- What the surroundings give a call: what can be built, the time, and the order of a scan. -/
structure Moment where
  env : Environment
  now : ℤ := 0
  order : List Bytes := []

/-- `getOrCreateClientFromConfig`. -/
def getOrCreateClientFromConfig (sha256 : Bytes → Bytes) (m : Moment) (cfg : RequestConfig) (s : Process) :
    Except Bytes ℕ × Process :=
  let key := poolKey sha256 cfg
  match s.pool.clientAt key with
  | some id => (.ok id, { s with pool := s.pool.touch key m.now })
  | none =>
    match newClient m.env cfg with
    | .error err => (.error err, s)
    | .ok client =>
      let id := s.clients.length
      (.ok id,
        { pool := (s.pool.store key ⟨id, m.now⟩).evictLRUOverCapLocked m.order key
          clients := s.clients ++ [client] })

/-- A call hands out the pooled client, fails with its builder, or builds and stores a client. -/
theorem getOrCreate_cases (sha256 : Bytes → Bytes) (m : Moment) (cfg : RequestConfig) (s : Process) :
    (∃ id, s.pool.clientAt (poolKey sha256 cfg) = some id ∧
      getOrCreateClientFromConfig sha256 m cfg s =
        (.ok id, { s with pool := s.pool.touch (poolKey sha256 cfg) m.now })) ∨
    (s.pool.clientAt (poolKey sha256 cfg) = none ∧
      ∃ err, getOrCreateClientFromConfig sha256 m cfg s = (.error err, s)) ∨
    (s.pool.clientAt (poolKey sha256 cfg) = none ∧
      ∃ client pool, newClient m.env cfg = .ok client ∧
        getOrCreateClientFromConfig sha256 m cfg s =
          (.ok s.clients.length, { pool, clients := s.clients ++ [client] }) ∧
        pool.clientAt (poolKey sha256 cfg) = some s.clients.length ∧
        ∀ key id, pool.clientAt key = some id →
          key = poolKey sha256 cfg ∧ id = s.clients.length ∨ s.pool.clientAt key = some id) := by
  rw [getOrCreateClientFromConfig]
  cases hclient : s.pool.clientAt (poolKey sha256 cfg) with
  | some id => exact .inl ⟨id, rfl, rfl⟩
  | none =>
    cases hnew : newClient m.env cfg with
    | error err => exact .inr (.inl ⟨rfl, err, rfl⟩)
    | ok client =>
      -- the new entry is stored before the eviction, whose victims never include its key
      obtain ⟨victims, hself, hevict⟩ :=
        (s.pool.store (poolKey sha256 cfg) ⟨s.clients.length, m.now⟩).clientAt_evictLRUOverCapLocked
          m.order (poolKey sha256 cfg)
      refine .inr (.inr ⟨rfl, client, _, rfl, rfl, ?_, fun key id hid => ?_⟩)
      · rw [hevict, if_neg hself, Pool.clientAt_store, if_pos rfl]
      · rw [hevict, Pool.clientAt_store] at hid
        split_ifs at hid with hvictim hkey
        · exact .inl ⟨hkey, (Option.some.inj hid).symm⟩
        · exact .inr hid

/-- A client that is pooled is found. -/
theorem getOrCreate_of_pooled {sha256 : Bytes → Bytes} (m : Moment) (cfg : RequestConfig) {s : Process}
    {id : ℕ} (hat : s.pool.clientAt (poolKey sha256 cfg) = some id) :
    getOrCreateClientFromConfig sha256 m cfg s =
      (.ok id, { s with pool := s.pool.touch (poolKey sha256 cfg) m.now }) := by
  rw [getOrCreateClientFromConfig, hat]

/-- Otherwise a new one is made. -/
theorem getOrCreate_of_new (sha256 : Bytes → Bytes) (s : Process) {m : Moment} {cfg : RequestConfig}
    {client : Client} (hnone : s.pool.clientAt (poolKey sha256 cfg) = none)
    (hnew : newClient m.env cfg = .ok client) :
    (getOrCreateClientFromConfig sha256 m cfg s).1 = .ok s.clients.length ∧
      (getOrCreateClientFromConfig sha256 m cfg s).2.clients = s.clients ++ [client] ∧
      (getOrCreateClientFromConfig sha256 m cfg s).2.pool.clientAt (poolKey sha256 cfg) =
        some s.clients.length := by
  rcases getOrCreate_cases sha256 m cfg s with ⟨id, hat, -⟩ | ⟨-, err, heq⟩ |
      ⟨-, client', pool, hnew', heq, hat, -⟩
  · rw [hnone] at hat
    contradiction
  · rw [getOrCreateClientFromConfig, hnone, hnew] at heq
    exact absurd (congrArg Prod.fst heq) (by simp)
  · rw [hnew] at hnew'
    obtain rfl := Except.ok.inj hnew'
    rw [heq]
    exact ⟨rfl, rfl, hat⟩

namespace Process

/-- The response of a request on the client with the given number. -/
def receive (s : Process) (id : ℕ) (host : Bytes) (cookies : List Cookie) : Process :=
  { s with clients := s.clients.modify id fun client => client.receive host cookies }

def evictStale (s : Process) (toDelete : List Bytes) (cutoff now : ℤ) : Process :=
  { s with pool := s.pool.evictStaleEntries toDelete cutoff now }

def clear (s : Process) : Process :=
  { s with pool := s.pool.clearClientPool }

def setMaxEntries (s : Process) (order : List Bytes) (entries : ℤ) : Process :=
  { s with pool := s.pool.setPoolMaxEntries order entries }

/-- A response changes nothing but its client. -/
theorem getElem?_receive (s : Process) (id : ℕ) (host : Bytes) (cookies : List Cookie) (i : ℕ) :
    (s.receive id host cookies).clients[i]? =
      if id = i then (s.clients[i]?).map fun client => client.receive host cookies
      else s.clients[i]? := by
  rw [receive, List.getElem?_modify]
  split_ifs
  · rfl
  · exact Option.map_id'

/-- Cookies change no client's config. -/
theorem source_receive {s : Process} {id i : ℕ} {host : Bytes} {cookies : List Cookie} :
    (s.receive id host cookies).clients[i]?.map Client.source = s.clients[i]?.map Client.source := by
  rw [getElem?_receive]
  split_ifs
  · rw [Option.map_map]
    rfl
  · rfl

end Process

end TlsClient.Engine
