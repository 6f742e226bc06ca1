import TlsClient.Engine.Config
import TlsClient.Python.HeaderTemplate
import TlsClient.Python.Marshal

/-!
# The order of the headers on the wire

Embeds `src/header_order.go`, and of `src/cffi_binding/main.go` and `src/client.go` what decides the order of
a request's headers: `executeRequestFromConfig` writes it into the header under a key of its own, `do` lowers it.

With `header_order_by_dest` the order should be the one of the request's destination (`TakesEffect`). An
order in the config wins over that, and the Python side writes one for every session that has default headers.
The destination of a config is the configured one; nobody reads `Sec-Fetch-Dest`.
-/

namespace TlsClient.Engine

open TlsClient.Ffi TlsClient.Python Utf8

/-! ## The tables -/

def subresourceOrder : List Bytes :=
  [utf8 "sec-ch-ua", utf8 "sec-ch-ua-mobile", utf8 "sec-ch-ua-platform", utf8 "user-agent", utf8 "accept",
    utf8 "sec-fetch-site", utf8 "sec-fetch-mode", utf8 "sec-fetch-dest", utf8 "referer",
    utf8 "accept-encoding", utf8 "accept-language", utf8 "priority", utf8 "cookie"]

/-- The order of `"iframe"` and of `"frame"`. -/
def frameOrder : List Bytes :=
  [utf8 "sec-ch-ua", utf8 "sec-ch-ua-mobile", utf8 "sec-ch-ua-platform", utf8 "upgrade-insecure-requests",
    utf8 "user-agent", utf8 "accept", utf8 "sec-fetch-site", utf8 "sec-fetch-mode", utf8 "sec-fetch-dest",
    utf8 "referer", utf8 "accept-encoding", utf8 "accept-language"]

def chromeHeaderOrderByDest : List (Bytes × List Bytes) :=
  [(utf8 "document",
      [utf8 "sec-ch-ua", utf8 "sec-ch-ua-mobile", utf8 "sec-ch-ua-platform",
        utf8 "upgrade-insecure-requests", utf8 "user-agent", utf8 "accept", utf8 "sec-fetch-site",
        utf8 "sec-fetch-mode", utf8 "sec-fetch-user", utf8 "sec-fetch-dest", utf8 "accept-encoding",
        utf8 "accept-language", utf8 "priority", utf8 "cookie"]),
    (utf8 "empty",
      [utf8 "sec-ch-ua", utf8 "sec-ch-ua-mobile", utf8 "sec-ch-ua-platform", utf8 "user-agent",
        utf8 "accept", utf8 "sec-fetch-site", utf8 "sec-fetch-mode", utf8 "sec-fetch-dest",
        utf8 "referer", utf8 "accept-encoding", utf8 "accept-language", utf8 "priority", utf8 "cookie"]),
    (utf8 "script", subresourceOrder), (utf8 "style", subresourceOrder), (utf8 "image", subresourceOrder),
    (utf8 "font", subresourceOrder), (utf8 "audio", subresourceOrder), (utf8 "video", subresourceOrder),
    (utf8 "track", subresourceOrder), (utf8 "iframe", frameOrder), (utf8 "frame", frameOrder),
    (utf8 "worker", subresourceOrder), (utf8 "manifest", subresourceOrder),
    (utf8 "websocket",
      [utf8 "user-agent", utf8 "accept-language", utf8 "cache-control", utf8 "connection", utf8 "upgrade",
        utf8 "origin", utf8 "sec-websocket-key", utf8 "sec-websocket-version",
        utf8 "sec-websocket-extensions", utf8 "accept-encoding"]),
    (utf8 "prefetch", subresourceOrder), (utf8 "xslt", subresourceOrder), (utf8 "embed", subresourceOrder),
    (utf8 "object", subresourceOrder),
    (utf8 "report",
      [utf8 "sec-ch-ua", utf8 "sec-ch-ua-mobile", utf8 "sec-ch-ua-platform", utf8 "user-agent",
        utf8 "content-type", utf8 "accept", utf8 "sec-fetch-site", utf8 "sec-fetch-mode",
        utf8 "sec-fetch-dest", utf8 "accept-encoding", utf8 "accept-language"])]

def firefoxSubresource : List Bytes :=
  [utf8 "host", utf8 "user-agent", utf8 "accept", utf8 "accept-language", utf8 "accept-encoding",
    utf8 "sec-fetch-dest", utf8 "sec-fetch-mode", utf8 "sec-fetch-site", utf8 "referer", utf8 "te",
    utf8 "cookie"]

def firefoxHeaderOrderByDest : List (Bytes × List Bytes) :=
  [(utf8 "document",
      [utf8 "host", utf8 "user-agent", utf8 "accept", utf8 "accept-language", utf8 "accept-encoding",
        utf8 "upgrade-insecure-requests", utf8 "sec-fetch-dest", utf8 "sec-fetch-mode",
        utf8 "sec-fetch-site", utf8 "sec-fetch-user", utf8 "te", utf8 "cookie"]),
    (utf8 "empty",
      [utf8 "host", utf8 "user-agent", utf8 "accept", utf8 "accept-language", utf8 "accept-encoding",
        utf8 "sec-fetch-dest", utf8 "sec-fetch-mode", utf8 "sec-fetch-site", utf8 "referer", utf8 "te",
        utf8 "cookie"]),
    (utf8 "script", firefoxSubresource), (utf8 "style", firefoxSubresource),
    (utf8 "image", firefoxSubresource), (utf8 "font", firefoxSubresource),
    (utf8 "audio", firefoxSubresource), (utf8 "video", firefoxSubresource),
    (utf8 "iframe", firefoxSubresource), (utf8 "worker", firefoxSubresource),
    (utf8 "track", firefoxSubresource), (utf8 "embed", firefoxSubresource),
    (utf8 "object", firefoxSubresource), (utf8 "report", firefoxSubresource),
    (utf8 "prefetch", firefoxSubresource), (utf8 "manifest", firefoxSubresource)]

def safariSubresource : List Bytes :=
  [utf8 "accept", utf8 "sec-fetch-site", utf8 "user-agent", utf8 "accept-language", utf8 "accept-encoding",
    utf8 "referer", utf8 "sec-fetch-mode", utf8 "sec-fetch-dest", utf8 "cookie"]

def safariHeaderOrderByDest : List (Bytes × List Bytes) :=
  [(utf8 "document",
      [utf8 "accept", utf8 "sec-fetch-site", utf8 "sec-fetch-mode", utf8 "sec-fetch-dest",
        utf8 "user-agent", utf8 "accept-language", utf8 "accept-encoding", utf8 "referer", utf8 "cookie"]),
    (utf8 "empty",
      [utf8 "accept", utf8 "sec-fetch-site", utf8 "user-agent", utf8 "accept-language",
        utf8 "accept-encoding", utf8 "referer", utf8 "sec-fetch-mode", utf8 "sec-fetch-dest",
        utf8 "cookie"]),
    (utf8 "script", safariSubresource), (utf8 "style", safariSubresource),
    (utf8 "image", safariSubresource), (utf8 "font", safariSubresource),
    (utf8 "audio", safariSubresource), (utf8 "video", safariSubresource),
    (utf8 "iframe", safariSubresource), (utf8 "worker", safariSubresource),
    (utf8 "track", safariSubresource)]

/-- `headerOrderTable`. -/
def headerOrderTable (browser : Bytes) : Option (List (Bytes × List Bytes)) :=
  if browser = utf8 "chrome" ∨ browser = utf8 "brave" ∨ browser = utf8 "opera" then
    some chromeHeaderOrderByDest
  else if browser = utf8 "firefox" then some firefoxHeaderOrderByDest
  else if browser = utf8 "safari" then some safariHeaderOrderByDest
  else none

/-- `HeaderOrderForDest`; no order is the empty one. -/
def headerOrderForDest (browser dest : Bytes) : List Bytes :=
  match headerOrderTable browser with
  | none => []
  | some table =>
    match List.lookup dest table with
    | some order => order
    | none => (List.lookup (utf8 "document") table).getD []

/-! ## The header of a request -/

/-- `http.Header`. -/
abbrev Header := SortedMap Bytes (List Bytes)

/-- `http.HeaderOrderKey`. -/
def headerOrderKey : Bytes := utf8 "Header-Order:"

/-- `strings.ToLower`, which leaves lower-case ASCII alone. -/
structure ToLower where
  toLower : Bytes → Bytes
  toLower_of_ascii : ∀ s : Bytes, (∀ b ∈ s, b < 128 ∧ ¬ (65 ≤ b ∧ b ≤ 90)) → toLower s = s

/-- `browserFamilyForIdentifier`. -/
def browserFamilyForIdentifier (go : ToLower) (identifier : Bytes) : Bytes :=
  let lower := go.toLower identifier
  if utf8 "chrome" <+: lower ∨ utf8 "cloudscraper" <+: lower then utf8 "chrome"
  else if utf8 "brave" <+: lower then utf8 "chrome"
  else if utf8 "opera" <+: lower then utf8 "chrome"
  else if utf8 "firefox" <+: lower then utf8 "firefox"
  else if utf8 "safari" <+: lower then utf8 "safari"
  else []

/-- `ApplyHeaderOrderForDest`. -/
def applyHeaderOrderForDest (hdr : Header) (browser dest : Bytes) : Header :=
  let order := headerOrderForDest browser dest
  if order.length = 0 then hdr else hdr.set headerOrderKey order

def asciiLower (b : UInt8) : UInt8 :=
  if 65 ≤ b ∧ b ≤ 90 then b + 32 else b

/-- The header `executeRequestFromConfig` gives the request: without a length, and with an order. -/
def orderedHeader (go : ToLower) (cfg : RequestConfig) : Header :=
  if cfg.headers.entries.length > 0 then
    let headers := cfg.headers.filterKeys fun key => key.map asciiLower ≠ utf8 "content-length"
    let headers :=
      if cfg.headerOrderByDest then
        applyHeaderOrderForDest headers (browserFamilyForIdentifier go cfg.clientIdentifier)
          cfg.headerOrderDest
      else headers
    if cfg.headerOrder.length > 0 then headers.set headerOrderKey cfg.headerOrder else headers
  else .empty

/-- The header with which `do` goes on: that of the client where the request has none and no cookies. -/
def doHeader (go : ToLower) (cfg : RequestConfig) : Header :=
  if (orderedHeader go cfg).entries.length = 0 ∧ cfg.requestCookies = [] then cfg.defaultHeaders
  else orderedHeader go cfg

/-- The order under the key, as `do` lowers it. The client has the default headers of the config. -/
def wireOrder (go : ToLower) (cfg : RequestConfig) : List Bytes :=
  (((doHeader go cfg).lookup headerOrderKey).getD []).map go.toLower

/-! ## What the order is -/

section WireOrder

variable {go : ToLower} {cfg : RequestConfig}

/-- The table of a browser is one of the three. -/
theorem mem_tables_of_headerOrderTable {browser : Bytes} {table : List (Bytes × List Bytes)}
    (htable : headerOrderTable browser = some table) :
    table ∈ [chromeHeaderOrderByDest, firefoxHeaderOrderByDest, safariHeaderOrderByDest] := by
  rw [headerOrderTable] at htable
  split_ifs at htable <;> cases htable <;> simp

/-- The tables are in lower-case ASCII. -/
theorem toLower_of_mem_headerOrderForDest {browser dest name : Bytes}
    (hname : name ∈ headerOrderForDest browser dest) : go.toLower name = name := by
  have hall : ([chromeHeaderOrderByDest, firefoxHeaderOrderByDest, safariHeaderOrderByDest].all fun table =>
      table.all fun entry => entry.2.all fun name => name.all fun b => b < 128 ∧ ¬ (65 ≤ b ∧ b ≤ 90)) = true := by
    decide +kernel
  simp only [List.all_eq_true, decide_eq_true_eq] at hall
  refine go.toLower_of_ascii name ?_
  rw [headerOrderForDest] at hname
  -- a browser without a table has no order; a destination without one has that of "document"
  cases htable : headerOrderTable browser with
  | none =>
    rw [htable] at hname
    exact absurd hname List.not_mem_nil
  | some table =>
    have hmem := mem_tables_of_headerOrderTable htable
    have hentry : ∀ key order, List.lookup key table = some order → name ∈ order →
        ∀ b ∈ name, b < 128 ∧ ¬ (65 ≤ b ∧ b ≤ 90) := by
      intro key order hlookup hname
      obtain ⟨l₁, l₂, heq, -⟩ := List.lookup_eq_some_iff.mp hlookup
      exact hall table hmem (key, order) (heq ▸ List.mem_append_right _ List.mem_cons_self) name hname
    rw [htable] at hname
    dsimp only at hname
    cases hdest : List.lookup dest table with
    | some order =>
      rw [hdest] at hname
      exact hentry dest order hdest hname
    | none =>
      rw [hdest] at hname
      cases hdocument : List.lookup (utf8 "document") table with
      | some order =>
        rw [hdocument] at hname
        exact hentry _ order hdocument hname
      | none =>
        rw [hdocument] at hname
        exact absurd hname List.not_mem_nil

/-- The orders are in lower case already. -/
theorem map_toLower_headerOrderForDest (browser dest : Bytes) :
    (headerOrderForDest browser dest).map go.toLower = headerOrderForDest browser dest := by
  conv_rhs => rw [← List.map_id (headerOrderForDest browser dest)]
  exact List.map_congr_left fun name hname => toLower_of_mem_headerOrderForDest hname

/-- A browser has an order for every destination or for none. -/
theorem headerOrderForDest_eq_nil_iff (browser dest : Bytes) :
    headerOrderForDest browser dest = [] ↔ headerOrderTable browser = none := by
  have hall : ∀ table ∈ [chromeHeaderOrderByDest, firefoxHeaderOrderByDest, safariHeaderOrderByDest],
      (∀ entry ∈ table, entry.2 ≠ []) ∧ (List.lookup (utf8 "document") table).getD [] ≠ [] := by
    decide +kernel
  rw [headerOrderForDest]
  cases htable : headerOrderTable browser with
  | none => exact ⟨fun _ => rfl, fun _ => rfl⟩
  | some table =>
    obtain ⟨hentries, hdocument⟩ := hall table (mem_tables_of_headerOrderTable htable)
    refine ⟨fun hempty => ?_, fun hnone => absurd hnone (by simp)⟩
    dsimp only at hempty
    cases hdest : List.lookup dest table with
    | none =>
      rw [hdest] at hempty
      exact absurd hempty hdocument
    | some order =>
      rw [hdest] at hempty
      obtain ⟨l₁, l₂, heq, -⟩ := List.lookup_eq_some_iff.mp hdest
      exact absurd hempty (hentries (dest, order) (heq ▸ List.mem_append_right _ List.mem_cons_self))

/-- The order of one destination, or else an own one, is that of another: both are empty or none is. -/
theorem map_toLower_order_iff (browser dest dest' : Bytes) (own : List Bytes) :
    (if headerOrderForDest browser dest ≠ [] then headerOrderForDest browser dest else own).map go.toLower =
        headerOrderForDest browser dest' ↔
      headerOrderForDest browser dest = headerOrderForDest browser dest' ∧
        (headerOrderForDest browser dest' = [] → own = []) := by
  have hboth := (headerOrderForDest_eq_nil_iff browser dest).trans
    (headerOrderForDest_eq_nil_iff browser dest').symm
  by_cases hnil : headerOrderForDest browser dest = []
  · rw [if_neg (not_not.mpr hnil), hnil, hboth.mp hnil]
    simp [List.map_eq_nil_iff]
  · rw [if_pos hnil, map_toLower_headerOrderForDest]
    exact ⟨fun heq => ⟨heq, fun hempty => absurd (heq.trans hempty) hnil⟩, And.left⟩

/-- An order of the config wins over that of the destination, which wins over a header under the key. -/
theorem lookup_orderedHeader (hheaders : cfg.headers.entries ≠ []) (hdest : cfg.headerOrderByDest = true) :
    ((orderedHeader go cfg).lookup headerOrderKey).getD [] =
      if cfg.headerOrder ≠ [] then cfg.headerOrder
      else
        let order := headerOrderForDest (browserFamilyForIdentifier go cfg.clientIdentifier) cfg.headerOrderDest
        if order ≠ [] then order else (cfg.headers.lookup headerOrderKey).getD [] := by
  rw [orderedHeader, if_pos (List.length_pos_iff.mpr hheaders), hdest]
  dsimp only
  rw [if_pos rfl]
  by_cases horder : cfg.headerOrder = []
  · have hlength : ¬ cfg.headerOrder.length > 0 := by simp [horder]
    rw [if_neg hlength, if_neg (not_not.mpr horder), applyHeaderOrderForDest]
    have hkept : (cfg.headers.filterKeys fun key => key.map asciiLower ≠ utf8 "content-length").lookup
        headerOrderKey = cfg.headers.lookup headerOrderKey := by
      rw [SortedMap.lookup_filterKeys, if_pos (by decide)]
    by_cases hempty : headerOrderForDest (browserFamilyForIdentifier go cfg.clientIdentifier)
        cfg.headerOrderDest = []
    · rw [if_pos (by simp [hempty]), if_neg (not_not.mpr hempty), hkept]
    · rw [if_neg (by simpa using hempty), if_pos hempty, SortedMap.lookup_set, if_pos rfl, Option.getD_some]
  · rw [if_pos (List.length_pos_iff.mpr horder), if_pos horder, SortedMap.lookup_set, if_pos rfl,
      Option.getD_some]

/-- Headers with an order are not empty. -/
theorem orderedHeader_ne_nil (hheaders : cfg.headers.entries ≠ []) (horder : cfg.headerOrder ≠ []) :
    (orderedHeader go cfg).entries ≠ [] := by
  rw [orderedHeader, if_pos (List.length_pos_iff.mpr hheaders)]
  dsimp only
  rw [if_pos (List.length_pos_iff.mpr horder)]
  refine SortedMap.entries_ne_nil_of_lookup (k := headerOrderKey) (v := cfg.headerOrder) ?_
  rw [SortedMap.lookup_set, if_pos rfl]

/-- The header that goes on has the same order, unless the default headers have one. -/
theorem lookup_doHeader (hdefault : (cfg.defaultHeaders.lookup headerOrderKey).getD [] = [] ∨
    (orderedHeader go cfg).entries ≠ []) :
    ((doHeader go cfg).lookup headerOrderKey).getD [] =
      ((orderedHeader go cfg).lookup headerOrderKey).getD [] := by
  rw [doHeader]
  split_ifs with hempty
  · have hnil := List.length_eq_zero_iff.mp hempty.1
    rw [SortedMap.lookup_eq_none_of_empty hnil]
    exact hdefault.resolve_right fun hne => hne hnil
  · rfl

end WireOrder

/-! ## From the Python side -/

section Python

variable (lib : StrLib) (go : ToLower)

/-- The struct of a request without an order of its own. -/
def preparedOptions (templates : HeaderTemplates) (r : Resolved) (args : RequestArgs)
    (context : Option RequestContext) (cacheKeyHash : Bytes) : C.RequestOptions :=
  let prepared := prepareHeaders lib templates r.defaultHeaders args.headers none context r.clientIdentifier
  fillRequestOptions r { args with headers := prepared.1, headerOrder := prepared.2 } cacheKeyHash

/-- The order that the Python side writes: the names of the headers where there are default headers, or the
template for the context. -/
def pythonOrder (templates : HeaderTemplates) (r : Resolved) (args : RequestArgs)
    (context : Option RequestContext) : List String :=
  match truthyHeaders r.defaultHeaders with
  | some defaults => mergedNames lib defaults args.headers
  | none => (context.bind templates.forContext).getD []

/-- The order that the Python side writes. -/
theorem prepareHeaders_order (templates : HeaderTemplates) (r : Resolved) (args : RequestArgs)
    (context : Option RequestContext) :
    (prepareHeaders lib templates r.defaultHeaders args.headers none context r.clientIdentifier).2.getD [] =
      pythonOrder lib templates r args context := by
  unfold prepareHeaders
  rw [pythonOrder]
  cases hdefaults : truthyHeaders r.defaultHeaders with
  | none =>
    rw [mergeDefaultHeaders_of_none hdefaults]
    cases context <;> rfl
  | some defaults =>
    obtain ⟨merged, hmerged, hkeys⟩ := @mergeDefaultHeaders_of_some lib _ _ hdefaults args.headers
    rw [hmerged]
    cases context <;> exact hkeys

/-- With default headers it always writes one. -/
theorem pythonOrder_ne_nil (templates : HeaderTemplates) {r : Resolved} {defaults : Headers}
    (hdefaults : truthyHeaders r.defaultHeaders = some defaults) (args : RequestArgs)
    (context : Option RequestContext) : pythonOrder lib templates r args context ≠ [] := by
  have hitems : (!defaults.items.isEmpty) = true := (Option.filter_eq_some_iff.mp hdefaults).2
  have hne : defaults.keys ≠ [] := by simpa [PyDict.keys] using hitems
  rw [pythonOrder, hdefaults]
  exact fun hnil => hne (List.append_eq_nil_iff.mp hnil).1

/-- The request has no headers at all exactly if nothing gives it some. -/
theorem namesOf_prepareHeaders_eq_nil_iff (templates : HeaderTemplates) (r : Resolved) (args : RequestArgs)
    (context : Option RequestContext) :
    namesOf (prepareHeaders lib templates r.defaultHeaders args.headers none context r.clientIdentifier).1 =
        [] ↔
      truthyHeaders r.defaultHeaders = none ∧ namesOf args.headers = [] ∧ context = none := by
  unfold prepareHeaders
  cases context with
  | some ctx =>
    -- the context sets a name in any case
    have hmode : "sec-fetch-mode" ∈ contextNames ctx := List.mem_append_left _ (by simp)
    obtain ⟨key, hkey, -⟩ := @exists_mem_applyContext lib
      (mergeDefaultHeaders lib r.defaultHeaders args.headers none).1 _
      (identifierBrowser lib r.clientIdentifier) (folded lib (namesOf args.headers)) _ hmode
    refine ⟨fun hempty => ?_, fun h => absurd h.2.2 (by simp)⟩
    exact absurd hkey (List.eq_nil_iff_forall_not_mem.mp hempty key)
  | none =>
    cases hdefaults : truthyHeaders r.defaultHeaders with
    | none =>
      rw [mergeDefaultHeaders_of_none hdefaults]
      simp
    | some defaults =>
      obtain ⟨merged, hmerged, hkeys⟩ := @mergeDefaultHeaders_of_some lib _ _ hdefaults args.headers
      have hitems : (!defaults.items.isEmpty) = true := (Option.filter_eq_some_iff.mp hdefaults).2
      have hne : defaults.keys ≠ [] := by simpa [PyDict.keys] using hitems
      rw [hmerged]
      refine ⟨fun hempty => ?_, fun h => absurd h.1 (by simp)⟩
      have hnil : merged.keys = [] := hempty
      rw [hkeys, mergedNames, List.append_eq_nil_iff] at hnil
      exact absurd hnil.1 hne

/-- The value of the request's `Sec-Fetch-Dest`. -/
def secFetchDest (headers : Option Headers) : String :=
  (headers.bind fun headers => (foldedKey lib headers "sec-fetch-dest").bind headers.get).getD ""

/-- The configured destination, or else that of the headers. -/
def requestDest (r : Resolved) (headers : Option Headers) : Bytes :=
  if r.headerOrderDest.getD "" ≠ "" then utf8 (r.headerOrderDest.getD "") else utf8 (secFetchDest lib headers)

/-- The order on the wire is the one of the request's destination. -/
def TakesEffect (templates : HeaderTemplates) (r : Resolved) (args : RequestArgs)
    (context : Option RequestContext) (cacheKeyHash : Bytes) : Prop :=
  let prepared := prepareHeaders lib templates r.defaultHeaders args.headers none context r.clientIdentifier
  let cfg := requestConfigFromOptions (preparedOptions lib templates r args context cacheKeyHash)
  wireOrder go cfg =
    headerOrderForDest (browserFamilyForIdentifier go cfg.clientIdentifier) (requestDest lib r prepared.1)

/-- An order of the Python side is the one of the destination. Without one, a request with headers needs a
destination with the order of the configured one, and without headers, a browser that has no order. -/
def Effective (templates : HeaderTemplates) (r : Resolved) (args : RequestArgs)
    (context : Option RequestContext) : Prop :=
  let prepared := prepareHeaders lib templates r.defaultHeaders args.headers none context r.clientIdentifier
  let family := browserFamilyForIdentifier go (goString (cString r.clientIdentifier))
  let order := headerOrderForDest family (requestDest lib r prepared.1)
  if pythonOrder lib templates r args context ≠ [] then
    (pythonOrder lib templates r args context).map (fun name => go.toLower (goString (some (utf8 name)))) = order
  else if truthyHeaders r.defaultHeaders = none ∧ namesOf args.headers = [] ∧ context = none then order = []
  else
    headerOrderForDest family (goString (cStringIfTrue r.headerOrderDest)) = order ∧
      (order = [] → ((cHeadersToHTTP (buildHeaders prepared.1)).lookup headerOrderKey).getD [] = [])

instance instDecidableTakesEffect (templates : HeaderTemplates) (r : Resolved) (args : RequestArgs)
    (context : Option RequestContext) (cacheKeyHash : Bytes) :
    Decidable (TakesEffect lib go templates r args context cacheKeyHash) :=
  inferInstanceAs (Decidable (_ = _))

variable {lib go}

/-- Only no headers arrive as none. -/
theorem entries_cHeadersToHTTP_eq_nil_iff (headers : List C.HttpHeader) :
    (cHeadersToHTTP headers).entries = [] ↔ headers = [] := by
  constructor
  · intro hempty
    have hperm := SortedMap.flat_pushAll_perm (headers.map fun h => (goString h.key, goString h.value))
    have hflat : (cHeadersToHTTP headers).flat = [] := by rw [SortedMap.flat, hempty, List.flatMap_nil]
    exact List.map_eq_nil_iff.mp (List.nil_perm.mp (hflat ▸ hperm))
  · rintro rfl
    rfl

/-- The crumbs of no headers are none. -/
theorem entries_crumbleCookies_eq_nil_iff (headers : Header) :
    (crumbleCookies headers).entries = [] ↔ headers.entries = [] := by
  rw [crumbleCookies]
  split
  · next cv hcookie =>
    dsimp only
    split_ifs with hpairs
    · have hset : (headers.set (utf8 "Cookie") (splitPairs [] cv)).lookup (utf8 "Cookie") =
          some (splitPairs [] cv) := by rw [SortedMap.lookup_set, if_pos rfl]
      exact iff_of_false (SortedMap.entries_ne_nil_of_lookup hset) (SortedMap.entries_ne_nil_of_lookup hcookie)
    · rfl
  · rfl

/-- The crumbs do not change the order. -/
theorem lookup_crumbleCookies (headers : Header) :
    (crumbleCookies headers).lookup headerOrderKey = headers.lookup headerOrderKey := by
  rw [crumbleCookies]
  split
  · dsimp only
    split_ifs with hpairs
    · rw [SortedMap.lookup_set, if_neg (by decide)]
    · rfl
  · rfl

/-- Whether it crumbles the cookies or not, a config has the same order and as many headers. -/
theorem maybe_crumbleCookies (crumb : Bool) (headers : Header) :
    let maybe := if flag crumb ≠ 0 then crumbleCookies headers else headers
    (maybe.entries = [] ↔ headers.entries = []) ∧
      maybe.lookup headerOrderKey = headers.lookup headerOrderKey := by
  dsimp only
  split_ifs with hcrumb
  · exact ⟨entries_crumbleCookies_eq_nil_iff headers, lookup_crumbleCookies headers⟩
  · exact ⟨Iff.rfl, rfl⟩

/-- Only no headers are handed over as none. -/
theorem buildHeaders_eq_nil_iff (headers : Option Headers) : buildHeaders headers = [] ↔ namesOf headers = [] := by
  rw [buildHeaders, List.map_eq_nil_iff]
  cases headers with
  | none => exact iff_of_true rfl rfl
  | some headers => exact List.map_eq_nil_iff.symm

/-- What the config of a prepared request is. -/
theorem config_preparedOptions (templates : HeaderTemplates) (r : Resolved) (args : RequestArgs)
    (context : Option RequestContext) (cacheKeyHash : Bytes) :
    let prepared := prepareHeaders lib templates r.defaultHeaders args.headers none context r.clientIdentifier
    let cfg := requestConfigFromOptions (preparedOptions lib templates r args context cacheKeyHash)
    (cfg.headers.entries = [] ↔ namesOf prepared.1 = []) ∧
      cfg.headers.lookup headerOrderKey = (cHeadersToHTTP (buildHeaders prepared.1)).lookup headerOrderKey ∧
      cfg.headerOrder = (pythonOrder lib templates r args context).map fun name => goString (some (utf8 name)) := by
  dsimp only
  have hcrumb := maybe_crumbleCookies r.cookieCrumb
    (cHeadersToHTTP (buildHeaders
      (prepareHeaders lib templates r.defaultHeaders args.headers none context r.clientIdentifier).1))
  refine ⟨?_, hcrumb.2, ?_⟩
  · rw [← buildHeaders_eq_nil_iff, ← entries_cHeadersToHTTP_eq_nil_iff]
    exact hcrumb.1
  · rw [← prepareHeaders_order lib templates r args context]
    simp only [requestConfigFromOptions, preparedOptions, fillRequestOptions, cStrSlice, buildStringArray,
      List.map_map]
    rfl

/-- Default headers of the session never become those of the client's `do`: with them, the request has some. -/
theorem defaultHeaders_or_orderedHeader (templates : HeaderTemplates) (r : Resolved) (args : RequestArgs)
    (context : Option RequestContext) (cacheKeyHash : Bytes) :
    let cfg := requestConfigFromOptions (preparedOptions lib templates r args context cacheKeyHash)
    (cfg.defaultHeaders.lookup headerOrderKey).getD [] = [] ∨ (orderedHeader go cfg).entries ≠ [] := by
  dsimp only
  obtain ⟨hempty, -, horder⟩ := @config_preparedOptions lib templates r args context cacheKeyHash
  cases hdefaults : truthyHeaders r.defaultHeaders with
  | none =>
    refine .inl ?_
    have hnil : buildHeaders r.defaultHeaders = [] := by
      rw [buildHeaders_eq_nil_iff]
      cases hheaders : r.defaultHeaders with
      | none => rfl
      | some defaults => simpa [truthyHeaders, hheaders, namesOf, PyDict.keys] using hdefaults
    have hentries := (entries_cHeadersToHTTP_eq_nil_iff _).mpr hnil
    exact congrArg (fun order : Option (List Bytes) => order.getD [])
      (SortedMap.lookup_eq_none_of_empty hentries headerOrderKey)
  | some defaults =>
    -- default headers give the request an order of its own, even where no header is left
    refine .inr ?_
    have hnames : namesOf (prepareHeaders lib templates r.defaultHeaders args.headers none context
        r.clientIdentifier).1 ≠ [] := by
      intro hnil
      have hnone := ((namesOf_prepareHeaders_eq_nil_iff lib templates r args context).mp hnil).1
      exact absurd hnone (by simp [hdefaults])
    have hne := pythonOrder_ne_nil lib templates hdefaults args context
    exact orderedHeader_ne_nil (fun hnil => hnames (hempty.mp hnil))
      (by rw [horder]; exact fun hnil => hne (List.map_eq_nil_iff.mp hnil))

/-- With the order of the destination turned on, it is the order on the wire exactly under `Effective`. -/
theorem takesEffect_iff_effective (lib : StrLib) (go : ToLower) (templates : HeaderTemplates) {r : Resolved}
    (hdest : r.headerOrderByDest = true) (args : RequestArgs) (context : Option RequestContext)
    (cacheKeyHash : Bytes) :
    TakesEffect lib go templates r args context cacheKeyHash ↔ Effective lib go templates r args context := by
  obtain ⟨hempty, hlookup, horder⟩ := @config_preparedOptions lib templates r args context cacheKeyHash
  have hnames := namesOf_prepareHeaders_eq_nil_iff lib templates r args context
  have hdefaults := @defaultHeaders_or_orderedHeader lib go templates r args context cacheKeyHash
  have hbyDest : (requestConfigFromOptions (preparedOptions lib templates r args context
      cacheKeyHash)).headerOrderByDest = true := by
    change (flag r.headerOrderByDest != 0) = true
    rw [hdest]
    rfl
  rw [TakesEffect, Effective]
  dsimp only at hempty hlookup horder hdefaults ⊢
  rw [wireOrder, lookup_doHeader hdefaults]
  -- the config has headers unless nothing gives the request some
  have hheaders : ¬ (truthyHeaders r.defaultHeaders = none ∧ namesOf args.headers = [] ∧ context = none) →
      (requestConfigFromOptions (preparedOptions lib templates r args context cacheKeyHash)).headers.entries ≠
        [] := fun hsome hnil => hsome (hnames.mp (hempty.mp hnil))
  split_ifs with hpython hnone
  · have hsome : ¬ (truthyHeaders r.defaultHeaders = none ∧ namesOf args.headers = [] ∧ context = none) := by
      rintro ⟨hnone, -, rfl⟩
      exact hpython (by rw [pythonOrder, hnone]; rfl)
    have hne : (requestConfigFromOptions (preparedOptions lib templates r args context
        cacheKeyHash)).headerOrder ≠ [] := by
      rw [horder]
      exact fun hnil => hpython (List.map_eq_nil_iff.mp hnil)
    rw [lookup_orderedHeader (hheaders hsome) hbyDest, if_pos hne, horder, List.map_map]
    exact Iff.rfl
  · have hnil := hempty.mpr (hnames.mpr hnone)
    rw [orderedHeader, if_neg (by simp [hnil])]
    exact eq_comm
  · have hnoOrder : (requestConfigFromOptions (preparedOptions lib templates r args context
        cacheKeyHash)).headerOrder = [] := by
      rw [horder, not_not.mp hpython]
      rfl
    rw [lookup_orderedHeader (hheaders hnone) hbyDest, if_neg (not_not.mpr hnoOrder), hlookup]
    exact map_toLower_order_iff _ _ _ _

/-- The texts of these examples are lower-case ASCII. -/
def plainToLower : ToLower where
  toLower s := s
  toLower_of_ascii _ _ := rfl

/-- A Chrome session without default headers that orders by destination. -/
def byDestination (dest : Option String) : Resolved :=
  resolvedSync { clientIdentifier := some "chrome_146", headerOrderByDest := true, headerOrderDest := dest } {}
    "https://example.com/"

/-- The headers of a request for a script. -/
def scriptArgs : RequestArgs where
  method := "GET"
  url := "https://example.com/app.js"
  headers := some (PyDict.empty.set "sec-fetch-dest" "script")

/-- A script with a destination of its own. -/
theorem script_takesEffect : (byDestination (some "script")).headerOrderByDest = true ∧
    TakesEffect plainStrLib plainToLower {} (byDestination (some "script")) scriptArgs none [] := by
  refine ⟨rfl, (takesEffect_iff_effective plainStrLib plainToLower {} rfl scriptArgs none []).mpr ?_⟩
  rw [Effective]
  decide +kernel

/-- The destination of the request's own `sec-fetch-dest` is not looked at. -/
theorem secFetchDest_not_effective : ¬ ∀ (lib : StrLib) (go : ToLower) (templates : HeaderTemplates) (r : Resolved),
    r.headerOrderByDest = true → ∀ (args : RequestArgs) (context : Option RequestContext) (cacheKeyHash : Bytes),
      TakesEffect lib go templates r args context cacheKeyHash := by
  intro htakes
  have h := htakes plainStrLib plainToLower {} (byDestination none) rfl scriptArgs none []
  exact absurd h (by decide +kernel)

end Python

end TlsClient.Engine
