import TlsClient.Python.Dict
import TlsClient.Python.Options

/-!
# The proxy of a request

Embeds the proxies of `Session.merge_environment_settings` (`src/tls_client/requests_compat.py`); the merged
mapping goes to `_resolve_proxy_url`. That takes the entry for the scheme of the URL or the one for `all`, and
without them the first entry there is, whatever it is for: the proxy of another scheme, or the `no` that
`getproxies` makes of `no_proxy`.
-/

namespace TlsClient.Compat

open TlsClient.Python

/-- A mapping from schemes to proxies. -/
abbrev Proxies := PyDict String String

/-- `merged_proxies.setdefault(key, value)`. -/
def Proxies.setDefault (proxies : Proxies) (key value : String) : Proxies :=
  match PyDict.get proxies key with
  | some _ => proxies
  | none => PyDict.set proxies key value

/-- The proxies of the session, and those of the environment if it is trusted; `environment` is what `getproxies`
returns. -/
def sessionProxies (trustEnv : Bool) (environment session : Proxies) : Proxies :=
  if trustEnv then environment.items.foldl (fun merged item => Proxies.setDefault merged item.1 item.2) session
  else session

/-- `merged_proxies`. -/
def mergedProxies (trustEnv : Bool) (environment session : Proxies) (call : Option Proxies) : Proxies :=
  let merged := sessionProxies trustEnv environment session
  match call with
  | some proxies => if proxies.items = [] then merged else PyDict.update merged proxies
  | none => merged

/-- The value that the merged mapping should have: that of the call, of the session or of the environment. -/
def storedProxy (trustEnv : Bool) (environment session : Proxies) (call : Option Proxies) (key : String) :
    Option String :=
  ((call.bind fun proxies => PyDict.get proxies key).or (PyDict.get session key)).or
    (if trustEnv then PyDict.get environment key else none)

/-- The first key of the merged mapping. -/
def firstKey (trustEnv : Bool) (environment session : Proxies) (call : Option Proxies) : Option String :=
  (session.keys.head?.or (if trustEnv then environment.keys.head? else none)).or
    (call.bind fun proxies => proxies.keys.head?)

/-- The keys of the entries for the URL: its scheme and `all`. -/
def entryKeys (url : String) : List String :=
  [urlScheme url, urlScheme url ++ "://", "all", "all://"]

/-- An empty text is no proxy. -/
def nonEmptyText (value : Option String) : Option String :=
  value.filter (· ≠ "")

/-- The request gets the entry for its scheme, or the one for `all`, or else no proxy. -/
def Routed (trustEnv : Bool) (environment session : Proxies) (call : Option Proxies) (url : String) : Prop :=
  nonEmptyText (resolveProxyUrl (some (.mapping (mergedProxies trustEnv environment session call))) url) =
    (entryKeys url).findSome? fun key => nonEmptyText (storedProxy trustEnv environment session call key)

/-! ## The merged mapping -/

/-- The proxy of a key after a default was set. -/
theorem get_setDefault (proxies : Proxies) (k value key : String) :
    PyDict.get (proxies.setDefault k value) key = (PyDict.get proxies key).or (if key = k then some value else none) := by
  rw [Proxies.setDefault]
  cases hget : PyDict.get proxies k with
  | some old =>
    split_ifs with hkey
    · rw [hkey, hget, Option.some_or]
    · rw [Option.or_none]
  | none =>
    dsimp only
    rw [PyDict.get_set]
    split_ifs with hkey
    · rw [hkey, hget, Option.none_or]
    · rw [Option.or_none]

/-- A list with an element has a first one. -/
theorem head?_or_of_mem {l : List String} {k : String} (hk : k ∈ l) (other : Option String) :
    l.head?.or other = l.head? := by
  obtain ⟨first, rest, rfl⟩ := List.exists_cons_of_ne_nil (List.ne_nil_of_mem hk)
  rw [List.head?_cons, Option.some_or]

/-- The first key after one was set. -/
theorem head?_keys_set (proxies : Proxies) (k value : String) :
    (PyDict.set proxies k value).keys.head? = proxies.keys.head?.or (some k) := by
  by_cases hk : k ∈ proxies.keys
  · rw [PyDict.keys_set_of_mem hk]
    rw [head?_or_of_mem hk]
  · rw [PyDict.keys_set_of_not_mem hk, List.head?_append, List.head?_cons]

/-- The first key after a default was set. -/
theorem head?_keys_setDefault (proxies : Proxies) (k value : String) :
    (proxies.setDefault k value).keys.head? = proxies.keys.head?.or (some k) := by
  rw [Proxies.setDefault]
  cases hget : PyDict.get proxies k with
  | some old =>
    have hk : k ∈ proxies.keys := PyDict.mem_keys_of_mem (PyDict.get_eq_some_iff.mp hget)
    rw [head?_or_of_mem hk]
  | none => exact head?_keys_set proxies k value

/-- The proxy of a key after several defaults were set. -/
theorem get_foldl_setDefault (items : List (String × String)) (proxies : Proxies) (key : String) :
    PyDict.get (items.foldl (fun merged item => Proxies.setDefault merged item.1 item.2) proxies) key =
      (PyDict.get proxies key).or ((items.find? fun item => item.1 = key).map Prod.snd) := by
  induction items generalizing proxies with
  | nil => exact Option.or_none.symm
  | cons item items ih =>
    rw [List.foldl_cons, ih, get_setDefault, Option.or_assoc, List.find?_cons]
    by_cases hkey : item.1 = key
    · rw [if_pos hkey.symm, Option.some_or]
      simp [hkey]
    · rw [if_neg (Ne.symm hkey), Option.none_or]
      simp [hkey]

/-- The first key after several defaults were set. -/
theorem head?_keys_foldl_setDefault (items : List (String × String)) (proxies : Proxies) :
    (items.foldl (fun merged item => Proxies.setDefault merged item.1 item.2) proxies).keys.head? =
      proxies.keys.head?.or (items.map Prod.fst).head? := by
  induction items generalizing proxies with
  | nil => exact Option.or_none.symm
  | cons item items ih =>
    rw [List.foldl_cons, ih, head?_keys_setDefault, Option.or_assoc, Option.some_or, List.map_cons,
      List.head?_cons]

/-- The first key after several were set. -/
theorem head?_keys_setAll (items : List (String × String)) (proxies : Proxies) :
    (PyDict.setAll proxies items).keys.head? = proxies.keys.head?.or (items.map Prod.fst).head? := by
  induction items generalizing proxies with
  | nil => exact Option.or_none.symm
  | cons item items ih =>
    have hrest := ih (PyDict.set proxies item.1 item.2)
    rw [head?_keys_set, Option.or_assoc, Option.some_or] at hrest
    rw [List.map_cons, List.head?_cons]
    exact hrest

/-- The session's proxy for a key, or that of the environment. -/
theorem get_sessionProxies (trustEnv : Bool) (environment session : Proxies) (key : String) :
    PyDict.get (sessionProxies trustEnv environment session) key =
      (PyDict.get session key).or (if trustEnv then PyDict.get environment key else none) := by
  cases trustEnv with
  | true => exact get_foldl_setDefault environment.items session key
  | false => exact Option.or_none.symm

/-- The first key of the session's proxies. -/
theorem head?_sessionProxies (trustEnv : Bool) (environment session : Proxies) :
    (sessionProxies trustEnv environment session).keys.head? =
      session.keys.head?.or (if trustEnv then environment.keys.head? else none) := by
  cases trustEnv with
  | true => exact head?_keys_foldl_setDefault environment.items session
  | false => exact Option.or_none.symm

/-- The call's entry comes first, then the session's, then the environment's. -/
theorem get_mergedProxies (trustEnv : Bool) (environment session : Proxies) (call : Option Proxies) (key : String) :
    PyDict.get (mergedProxies trustEnv environment session call) key =
      storedProxy trustEnv environment session call key := by
  unfold mergedProxies storedProxy
  cases call with
  | none => rw [Option.bind_none, Option.none_or, ← get_sessionProxies]
  | some proxies =>
    rw [Option.bind_some, Option.or_assoc, ← get_sessionProxies]
    dsimp only
    split_ifs with hempty
    · have hnone : PyDict.get proxies key = none := by rw [PyDict.get, hempty]; rfl
      rw [hnone, Option.none_or]
    · rw [PyDict.get_update]

/-- The first key of all proxies. -/
theorem head?_mergedProxies (trustEnv : Bool) (environment session : Proxies) (call : Option Proxies) :
    (mergedProxies trustEnv environment session call).keys.head? = firstKey trustEnv environment session call := by
  unfold mergedProxies firstKey
  cases call with
  | none => rw [Option.bind_none, Option.or_none, ← head?_sessionProxies]
  | some proxies =>
    rw [Option.bind_some, ← head?_sessionProxies]
    dsimp only
    split_ifs with hempty
    · have hnone : proxies.keys.head? = none := by rw [PyDict.keys, hempty]; rfl
      rw [hnone, Option.or_none]
    · exact head?_keys_setAll proxies.items _

/-! ## The entry that is taken -/

/-- The first text that is not empty. -/
theorem nonEmptyText_orElse (a b : Option String) :
    nonEmptyText (orElse a b) = (nonEmptyText a).or (nonEmptyText b) := by
  cases a with
  | none => rfl
  | some s =>
    rw [orElse]
    split_ifs with hs
    · simp [nonEmptyText, Option.filter_some, hs]
    · simp [nonEmptyText, Option.filter_some, hs]

/-- The value of the first key, whatever it is for. -/
theorem head?_values (proxies : Proxies) :
    (proxies.items.map Prod.snd).head? = proxies.keys.head?.bind fun key => PyDict.get proxies key := by
  rw [PyDict.keys]
  cases hitems : proxies.items with
  | nil => rfl
  | cons item items =>
    have hget : PyDict.get proxies item.1 = some item.2 :=
      PyDict.get_eq_some_iff.mpr (hitems ▸ List.mem_cons_self)
    exact hget.symm

/-- The proxy for a URL: that of its keys, or that of the first key. -/
theorem nonEmptyText_resolveProxyUrl (proxies : Proxies) (url : String) :
    nonEmptyText (resolveProxyUrl (some (.mapping proxies)) url) =
      ((entryKeys url).findSome? fun key => nonEmptyText (PyDict.get proxies key)).or
        (nonEmptyText (proxies.keys.head?.bind fun key => PyDict.get proxies key)) := by
  rw [resolveProxyUrl]
  simp only [nonEmptyText_orElse, ← head?_values, entryKeys, List.findSome?_cons, List.findSome?_nil]
  cases nonEmptyText (PyDict.get proxies (urlScheme url)) with
  | some _ => rfl
  | none =>
    cases nonEmptyText (PyDict.get proxies (urlScheme url ++ "://")) with
    | some _ => rfl
    | none =>
      cases nonEmptyText (PyDict.get proxies "all") with
      | some _ => rfl
      | none => cases nonEmptyText (PyDict.get proxies "all://") <;> rfl

/-- A request is routed right exactly if there is an entry for it, or nothing under the first key of the merged
mapping. -/
theorem routed_iff (trustEnv : Bool) (environment session : Proxies) (call : Option Proxies) (url : String) :
    Routed trustEnv environment session call url ↔
      (∃ key ∈ entryKeys url, nonEmptyText (storedProxy trustEnv environment session call key) ≠ none) ∨
        ∀ key, firstKey trustEnv environment session call = some key →
          nonEmptyText (storedProxy trustEnv environment session call key) = none := by
  have hstored : (fun key => PyDict.get (mergedProxies trustEnv environment session call) key) =
      storedProxy trustEnv environment session call :=
    funext (get_mergedProxies trustEnv environment session call)
  have hfound : (∃ key ∈ entryKeys url, nonEmptyText (storedProxy trustEnv environment session call key) ≠ none) ↔
      (entryKeys url).findSome? (fun key => nonEmptyText (storedProxy trustEnv environment session call key)) ≠
        none := by
    rw [Ne, List.findSome?_eq_none_iff]
    push Not
    rfl
  rw [Routed, nonEmptyText_resolveProxyUrl, head?_mergedProxies, hfound]
  simp only [get_mergedProxies]
  cases (entryKeys url).findSome? fun key =>
      nonEmptyText (storedProxy trustEnv environment session call key) with
  | some value => simp
  | none =>
    rw [Option.none_or]
    cases firstKey trustEnv environment session call with
    | none => simp [nonEmptyText]
    | some key => simp

/-- With `no_proxy` set and no proxy at all, the list of hosts is the proxy. -/
theorem no_proxy_misrouted :
    ¬ ∀ (trustEnv : Bool) (environment session : Proxies) (call : Option Proxies) (url : String),
      Routed trustEnv environment session call url := by
  intro hrouted
  have h := hrouted true (PyDict.set .empty "no" "localhost") .empty none "https://example.com/"
  exact absurd h (by unfold Routed; decide +kernel)

end TlsClient.Compat
