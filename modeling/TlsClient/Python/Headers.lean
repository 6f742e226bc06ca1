import TlsClient.Python.Dict
import Mathlib.Data.List.Basic

/-!
# The headers of a request

Embeds `_merge_default_headers`, `_apply_request_context` and `_identifier_browser` of
`src/tls_client/_core.py` with `apply_context` of `src/tls_client/context.py`. The session's default
headers come first, then what the request adds, then the headers that belong to the request's context.

Where the session has default headers, the order is made of them and of the request's headers, before the
context adds its own, and a template of the session is not asked. Where it has none, the order is the
template, whatever the headers are.
-/

namespace TlsClient.Python

/-! ## Names -/

/-- The names that a context may set or remove. -/
def contextHeaders : List String :=
  ["sec-fetch-mode", "sec-fetch-dest", "sec-fetch-site", "sec-fetch-user", "accept",
    "upgrade-insecure-requests", "priority"]

/-- What is used of `str` and of `urllib.parse`. -/
structure StrLib where
  casefold : String → String
  lower : String → String
  /-- `urlsplit(url).hostname` -/
  hostname : String → Option String
  casefold_contextHeaders : ∀ name ∈ contextHeaders, casefold name = name

variable (lib : StrLib)

/-- The names up to their case. -/
def folded (names : List String) : List String :=
  names.map lib.casefold

/-! ## The default headers -/

abbrev Headers := PyDict String String

/-- `not default_headers` fails: the headers are there and not empty. -/
def truthyHeaders (headers : Option Headers) : Option Headers :=
  headers.filter fun headers => !headers.items.isEmpty

/-- The loop over the request's headers; `seen` is `folded`, the name of each casefolded name. -/
def mergeHeaders (merged seen : Headers) : List (String × String) → Headers
  | [] => merged
  | (key, value) :: rest =>
    match seen.get (lib.casefold key) with
    | some existing => mergeHeaders (merged.set existing value) seen rest
    | none => mergeHeaders (merged.set key value) (seen.set (lib.casefold key) key) rest

/-- The loop of `folded.setdefault`. -/
def firstNames (names : List String) : Headers :=
  names.foldl
    (fun seen name => if lib.casefold name ∈ seen.keys then seen else seen.set (lib.casefold name) name)
    PyDict.empty

/-- `_merge_default_headers`. -/
def mergeDefaultHeaders (defaultHeaders requestHeaders : Option Headers)
    (headerOrder : Option (List String)) : Option Headers × Option (List String) :=
  match truthyHeaders defaultHeaders with
  | none => (requestHeaders, headerOrder)
  | some defaults =>
    let merged :=
      mergeHeaders lib defaults (firstNames lib defaults.keys) ((requestHeaders.map PyDict.items).getD [])
    let order :=
      match headerOrder.getD [] with
      | [] => merged.keys
      | order => order ++ merged.keys.filter fun key => lib.casefold key ∉ folded lib order
    (some merged, some order)

/-! ## The context -/

/-- `RequestContext`. -/
structure RequestContext where
  mode : String := "navigate"
  dest : String := "document"
  site : Option String := none
  userTriggered : Bool := false
  referrer : Option String := none
  targetUrl : Option String := none
  urgency : Option ℤ := none
  incremental : Bool := false
deriving DecidableEq

/-- `_DEFAULT_URGENCY`. -/
def defaultUrgency : List (String × ℤ) :=
  [("audio", 3), ("document", 0), ("embed", 0), ("empty", 1), ("font", 1), ("iframe", 0), ("image", 2),
    ("manifest", 2), ("object", 0), ("script", 1), ("style", 0), ("track", 3), ("video", 3), ("worker", 4)]

/-- `_DEFAULT_INCREMENTAL`. -/
def defaultIncremental : List String :=
  ["audio", "document", "embed", "empty", "iframe", "image", "object", "track", "video", "worker"]

/-- `_registrable_domain`. -/
def registrableDomain (host : String) : String :=
  let labels := (lib.lower host).splitOn "."
  ".".intercalate (if labels.length ≤ 2 then labels else labels.drop (labels.length - 2))

/-- `compute_fetch_site`. -/
def computeFetchSite (targetUrl : String) (referrer : Option String) : String :=
  if referrer.getD "" = "" then "none"
  else
    let tHost := lib.lower ((lib.hostname targetUrl).getD "")
    let rHost := lib.lower ((lib.hostname (referrer.getD "")).getD "")
    if tHost = "" ∨ rHost = "" then "none"
    else if tHost = rHost then "same-origin"
    else if registrableDomain lib tHost = registrableDomain lib rHost then "same-site"
    else "cross-site"

/-- `priority_header`. -/
def priorityHeader (ctx : RequestContext) : Option String :=
  let urgency := ctx.urgency.getD ((List.lookup ctx.dest defaultUrgency).getD 3)
  let incremental :=
    if ctx.incremental = false ∧ ctx.urgency = none then defaultIncremental.contains ctx.dest
    else ctx.incremental
  if urgency = 3 then if incremental then some "i" else none
  else if incremental then some ("u=" ++ toString urgency ++ ", i")
  else some ("u=" ++ toString urgency)

/-- `_accept_for`. -/
def acceptFor (ctx : RequestContext) (browser : String) : String :=
  if ctx.dest = "document" then
    if browser = "firefox" then
      "text/html,application/xhtml+xml,application/xml;q=0.9," ++
        "image/avif,image/webp,image/png,image/svg+xml,*/*;q=0.8"
    else if browser = "safari" then "text/html,application/xhtml+xml,application/xml;q=0.9,*/*;q=0.8"
    else
      "text/html,application/xhtml+xml,application/xml;q=0.9," ++
        "image/avif,image/webp,image/apng,*/*;q=0.8," ++ "application/signed-exchange;v=b3;q=0.7"
  else if ctx.dest = "image" then "image/avif,image/webp,image/apng,image/svg+xml,image/*,*/*;q=0.8"
  else if ctx.dest = "style" then "text/css,*/*;q=0.1"
  else if ctx.dest = "script" then
    "application/javascript, application/*-javascript+module, text/javascript, */*;q=0.5"
  else "*/*"

/-- A call of `_override` or of `_remove`. -/
inductive Edit where
  | override (name value : String)
  | remove (name : String)
deriving DecidableEq

/-- `_folded_key`. -/
def foldedKey (headers : Headers) (name : String) : Option String :=
  headers.keys.find? fun key => lib.casefold key = name

/-- The edit, unless the caller set the header it finds. -/
def applyEdit (user : List String) (headers : Headers) : Edit → Headers
  | .override name value =>
    match foldedKey lib headers name with
    | some existing => if lib.casefold existing ∉ user then headers.set existing value else headers
    | none => headers.set name value
  | .remove name =>
    match foldedKey lib headers name with
    | some existing => if lib.casefold existing ∉ user then headers.pop existing else headers
    | none => headers

/-- The edits of `apply_context` in its order. -/
def contextEdits (ctx : RequestContext) (browser : String) : List Edit :=
  let site := ctx.site.getD (computeFetchSite lib (ctx.targetUrl.getD "") ctx.referrer)
  [.override "sec-fetch-mode" ctx.mode, .override "sec-fetch-dest" ctx.dest,
    .override "sec-fetch-site" site] ++
  (if ctx.mode = "navigate" ∧ ctx.userTriggered then [.override "sec-fetch-user" "?1"]
    else [.remove "sec-fetch-user"]) ++
  [.override "accept" (acceptFor ctx browser)] ++
  (if ctx.mode = "navigate" then [.override "upgrade-insecure-requests" "1"]
    else [.remove "upgrade-insecure-requests"]) ++
  ((priorityHeader ctx).map fun value => .override "priority" value).toList

/-- `apply_context`. -/
def applyContext (headers : Option Headers) (ctx : RequestContext) (browser : String)
    (userKeys : List String) : Headers :=
  (contextEdits lib ctx browser).foldl (applyEdit lib userKeys) (headers.getD .empty)

/-- `_identifier_browser`. -/
def identifierBrowser (identifier : Option String) : String :=
  let lower := lib.lower (identifier.getD "")
  if ["chrome", "cloudscraper", "brave", "opera"].any fun family => family.isPrefixOf lower then "chrome"
  else if "firefox".isPrefixOf lower then "firefox"
  else if "safari".isPrefixOf lower then "safari"
  else ""

/-- The attributes `_fingerprint_header_order` and `_fingerprint_header_order_xhr`. -/
structure HeaderTemplates where
  navigation : Option (List String) := none
  xhr : Option (List String) := none
deriving DecidableEq

/-- The template for the context, if it is not empty. -/
def HeaderTemplates.forContext (templates : HeaderTemplates) (ctx : RequestContext) : Option (List String) :=
  (if ctx.dest ∈ ["document", "iframe"] then templates.navigation else templates.xhr).filter (· ≠ [])

/-- `_apply_request_context`, on the templates of the session. -/
def applyRequestContext (templates : HeaderTemplates) (headers : Option Headers)
    (headerOrder : Option (List String)) (ctx : RequestContext) (identifier : Option String)
    (userHeaders : Option Headers) : Option Headers × Option (List String) :=
  let userKeys := folded lib ((userHeaders.map PyDict.keys).getD [])
  let merged := applyContext lib headers ctx (identifierBrowser lib identifier) userKeys
  (some merged, match headerOrder with
    | some order => some order
    | none => templates.forContext ctx)

/-- The headers and their order as both request paths prepare them. -/
def prepareHeaders (templates : HeaderTemplates) (defaultHeaders requestHeaders : Option Headers)
    (headerOrder : Option (List String)) (context : Option RequestContext) (identifier : Option String) :
    Option Headers × Option (List String) :=
  let merged := mergeDefaultHeaders lib defaultHeaders requestHeaders headerOrder
  match context with
  | none => merged
  | some ctx => applyRequestContext lib templates merged.1 merged.2 ctx identifier requestHeaders

/-! ## The names of the merged headers -/

section Merge

variable {lib}

theorem mem_folded_of_mem {name : String} {names : List String} (hname : name ∈ names) :
    lib.casefold name ∈ folded lib names :=
  List.mem_map_of_mem hname

/-- The names whose case is not seen yet, each case once. -/
def newNames (lib : StrLib) : List String → List String → List String
  | _, [] => []
  | seen, name :: names =>
    if lib.casefold name ∈ seen then newNames lib seen names
    else name :: newNames lib (seen ++ [lib.casefold name]) names

/-- With the new names, all names are there. -/
theorem mem_folded_newNames (seen names : List String) (x : String) :
    x ∈ seen ++ folded lib (newNames lib seen names) ↔ x ∈ seen ++ folded lib names := by
  induction names generalizing seen with
  | nil => rfl
  | cons name names ih =>
    rw [newNames]
    split_ifs with hseen
    · rw [ih]
      simp only [folded, List.map_cons, List.mem_append, List.mem_cons]
      constructor
      · rintro (h | h)
        · exact .inl h
        · exact .inr (.inr h)
      · rintro (h | rfl | h)
        · exact .inl h
        · exact .inl hseen
        · exact .inr h
    · have h := ih (seen ++ [lib.casefold name])
      simp only [folded, List.map_cons, List.append_assoc, List.singleton_append] at h ⊢
      exact h

/-- No folded name comes twice. -/
theorem nodup_folded_newNames {seen : List String} (hseen : seen.Nodup) (names : List String) :
    (seen ++ folded lib (newNames lib seen names)).Nodup := by
  induction names generalizing seen with
  | nil => simpa [newNames, folded] using hseen
  | cons name names ih =>
    rw [newNames]
    split_ifs with hmem
    · exact ih hseen
    · have h := @ih (seen ++ [lib.casefold name]) <| by
        rw [List.nodup_append]
        refine ⟨hseen, List.nodup_singleton _, fun x hx y hy heq => hmem ?_⟩
        rw [List.mem_singleton] at hy
        exact hy ▸ heq ▸ hx
      simpa only [folded, List.map_cons, List.append_assoc, List.singleton_append] using h

/-- The loop keeps the names of the defaults and adds those that the request brings. -/
theorem keys_mergeHeaders {merged seen : Headers} (hseen : ∀ x, x ∈ seen.keys ↔ x ∈ folded lib merged.keys)
    (hvalues : ∀ item ∈ seen.items, item.2 ∈ merged.keys) (items : List (String × String)) :
    (mergeHeaders lib merged seen items).keys =
      merged.keys ++ newNames lib (folded lib merged.keys) (items.map Prod.fst) := by
  induction items generalizing merged seen with
  | nil => exact (List.append_nil _).symm
  | cons item items ih =>
    obtain ⟨key, value⟩ := item
    rw [mergeHeaders, List.map_cons, newNames]
    cases hget : seen.get (lib.casefold key) with
    | some existing =>
      -- a header whose name is there up to case keeps the spelling of the default
      have hitem := PyDict.get_eq_some_iff.mp hget
      have hmem : lib.casefold key ∈ folded lib merged.keys := (hseen _).mp (PyDict.mem_keys_of_mem hitem)
      have hkeys := PyDict.keys_set_of_mem (hvalues _ hitem) value
      rw [if_pos hmem, ← hkeys]
      exact ih (by rwa [hkeys]) (by rwa [hkeys])
    | none =>
      have hnot : lib.casefold key ∉ folded lib merged.keys := fun hmem =>
        PyDict.get_eq_none_iff.mp hget ((hseen _).mpr hmem)
      have hkey : key ∉ merged.keys := fun hmem => hnot (mem_folded_of_mem hmem)
      have hkeys := PyDict.keys_set_of_not_mem hkey value
      have hfolded : folded lib (merged.keys ++ [key]) = folded lib merged.keys ++ [lib.casefold key] :=
        List.map_append
      have h := @ih (merged.set key value) (seen.set (lib.casefold key) key) ?_ ?_
      · rw [if_neg hnot, h, hkeys, hfolded, List.append_assoc, List.singleton_append]
      · intro x
        rw [PyDict.mem_keys_set, hkeys, hfolded, hseen, List.mem_append, List.mem_singleton]
        exact or_comm
      · intro item hitem
        rw [hkeys, List.mem_append, List.mem_singleton]
        rcases (PyDict.mem_set seen _ _ item).mp hitem with rfl | ⟨hitem, -⟩
        · exact .inr rfl
        · exact .inl (hvalues item hitem)

/-- The first spelling of each name. -/
theorem firstNames_spec (names : List String) :
    (∀ x, x ∈ (firstNames lib names).keys ↔ x ∈ folded lib names) ∧
      ∀ item ∈ (firstNames lib names).items, item.2 ∈ names := by
  -- what the loop has seen of the names so far
  have hloop : ∀ (rest done : List String) (seen : Headers),
      (∀ x, x ∈ seen.keys ↔ x ∈ folded lib done) → (∀ item ∈ seen.items, item.2 ∈ done) →
      let seen' := rest.foldl (fun seen name =>
        if lib.casefold name ∈ seen.keys then seen else seen.set (lib.casefold name) name) seen
      (∀ x, x ∈ seen'.keys ↔ x ∈ folded lib (done ++ rest)) ∧ ∀ item ∈ seen'.items, item.2 ∈ done ++ rest := by
    intro rest
    induction rest with
    | nil =>
      intro done seen hkeys hvalues
      rw [List.append_nil]
      exact ⟨hkeys, hvalues⟩
    | cons name rest ih =>
      intro done seen hkeys hvalues
      have hfolded : folded lib (done ++ [name]) = folded lib done ++ [lib.casefold name] := List.map_append
      rw [List.foldl_cons, List.append_cons]
      apply ih (done ++ [name])
      · intro x
        rw [hfolded, List.mem_append, List.mem_singleton]
        split_ifs with hseen
        · rw [hkeys]
          exact ⟨.inl, fun h => h.elim id fun heq => heq ▸ (hkeys _).mp hseen⟩
        · rw [PyDict.mem_keys_set, hkeys]
          exact or_comm
      · intro item hitem
        rw [List.mem_append, List.mem_singleton]
        split_ifs at hitem with hseen
        · exact .inl (hvalues item hitem)
        · rcases (PyDict.mem_set seen _ _ item).mp hitem with rfl | ⟨hitem, -⟩
          · exact .inr rfl
          · exact .inl (hvalues item hitem)
  have h := hloop names [] PyDict.empty (fun x => Iff.rfl) (fun item hitem => absurd hitem List.not_mem_nil)
  exact h

/-- The names of the request's headers, none where it gives no headers. -/
def namesOf (headers : Option Headers) : List String :=
  (headers.map PyDict.keys).getD []

/-- The names of the defaults and of the headers that the request adds to them. -/
def mergedNames (lib : StrLib) (defaults : Headers) (requestHeaders : Option Headers) : List String :=
  defaults.keys ++ newNames lib (folded lib defaults.keys) (namesOf requestHeaders)

/-- Without default headers nothing is merged, and there is no order. -/
theorem mergeDefaultHeaders_of_none {defaultHeaders : Option Headers}
    (hnone : truthyHeaders defaultHeaders = none) (requestHeaders : Option Headers)
    (headerOrder : Option (List String)) :
    mergeDefaultHeaders lib defaultHeaders requestHeaders headerOrder = (requestHeaders, headerOrder) := by
  rw [mergeDefaultHeaders, hnone]

/-- With default headers the order is the names of the merged headers. -/
theorem mergeDefaultHeaders_of_some {defaultHeaders : Option Headers} {defaults : Headers}
    (hsome : truthyHeaders defaultHeaders = some defaults) (requestHeaders : Option Headers) :
    ∃ merged : Headers, mergeDefaultHeaders lib defaultHeaders requestHeaders none = (some merged, some merged.keys) ∧
      merged.keys = mergedNames lib defaults requestHeaders := by
  obtain ⟨hseen, hvalues⟩ := @firstNames_spec lib defaults.keys
  have hkeys := keys_mergeHeaders hseen hvalues ((requestHeaders.map PyDict.items).getD [])
  have hnames : ((requestHeaders.map PyDict.items).getD []).map Prod.fst = namesOf requestHeaders := by
    cases requestHeaders <;> rfl
  rw [hnames] at hkeys
  refine ⟨mergeHeaders lib defaults (firstNames lib defaults.keys)
    ((requestHeaders.map PyDict.items).getD []), ?_, hkeys⟩
  rw [mergeDefaultHeaders, hsome]
  rfl

end Merge

/-! ## What the context does to the headers -/

section Context

variable {lib}

/-- The name that an edit sets. -/
def Edit.overrides : Edit → Option String
  | .override name _ => some name
  | .remove _ => none

/-- The name that an edit removes. -/
def Edit.removes : Edit → Option String
  | .override _ _ => none
  | .remove name => some name

/-- The key that is found is one of the headers, and it is the name. -/
theorem foldedKey_eq_some {headers : Headers} {name key : String} (hkey : foldedKey lib headers name = some key) :
    key ∈ headers.keys ∧ lib.casefold key = name :=
  ⟨List.mem_of_find?_eq_some hkey, by simpa using List.find?_some hkey⟩

theorem foldedKey_eq_none {headers : Headers} {name : String} (hnone : foldedKey lib headers name = none) :
    ∀ key ∈ headers.keys, lib.casefold key ≠ name := fun key hkey heq =>
  List.find?_eq_none.mp hnone key hkey (decide_eq_true heq)

variable {user : List String}

/-- An override keeps all names and adds its own. -/
theorem applyEdit_override (headers : Headers) {name : String} (hname : lib.casefold name = name)
    (value : String) :
    (∀ key, key ∈ (applyEdit lib user headers (.override name value)).keys ↔
      key ∈ headers.keys ∨ key = name ∧ ∀ other ∈ headers.keys, lib.casefold other ≠ name) ∧
    ∃ key ∈ (applyEdit lib user headers (.override name value)).keys, lib.casefold key = name := by
  rw [applyEdit]
  cases hkey : foldedKey lib headers name with
  | none =>
    have hnone := foldedKey_eq_none hkey
    refine ⟨fun key => ?_, name, (PyDict.mem_keys_set headers name value name).mpr (.inl rfl), hname⟩
    rw [PyDict.mem_keys_set]
    exact ⟨fun h => h.elim (fun heq => .inr ⟨heq, hnone⟩) .inl, fun h => h.elim .inr fun h => .inl h.1⟩
  | some existing =>
    obtain ⟨hmem, hfold⟩ := foldedKey_eq_some hkey
    have hsame : ∀ key, (key ∈ headers.keys ∨
        key = name ∧ ∀ other ∈ headers.keys, lib.casefold other ≠ name) ↔ key ∈ headers.keys :=
      fun key => ⟨fun h => h.elim id fun h => absurd hfold (h.2 existing hmem), .inl⟩
    simp only [hsame]
    split_ifs
    · exact ⟨fun key => Iff.rfl, existing, hmem, hfold⟩
    · rw [PyDict.keys_set_of_mem hmem]
      exact ⟨fun key => Iff.rfl, existing, hmem, hfold⟩

/-- A removal takes away one name at most, of its own and not of the caller's. -/
theorem applyEdit_remove (headers : Headers) (name : String) :
    (applyEdit lib user headers (.remove name)).keys = headers.keys ∨
      ∃ gone ∈ headers.keys, lib.casefold gone = name ∧ name ∉ user ∧
        ∀ key, key ∈ (applyEdit lib user headers (.remove name)).keys ↔ key ∈ headers.keys ∧ key ≠ gone := by
  rw [applyEdit]
  cases hkey : foldedKey lib headers name with
  | none => exact .inl rfl
  | some existing =>
    obtain ⟨hmem, hfold⟩ := foldedKey_eq_some hkey
    dsimp only
    split_ifs with huser
    · exact .inl rfl
    · exact .inr ⟨existing, hmem, hfold, hfold ▸ huser, PyDict.mem_keys_pop headers existing⟩

/-- The headers after a list of edits. -/
def applyEdits (lib : StrLib) (user : List String) (headers : Headers) (edits : List Edit) : Headers :=
  edits.foldl (applyEdit lib user) headers

/-- The names that the edits set are casefolded. -/
def FoldedNames (lib : StrLib) (edits : List Edit) : Prop :=
  ∀ edit ∈ edits, ∀ name, edit.overrides = some name → lib.casefold name = name

/-- A key afterwards was there, or is that of an edit. -/
theorem mem_of_mem_applyEdits {headers : Headers} {edits : List Edit} (hfolded : FoldedNames lib edits)
    {key : String} (hkey : key ∈ (applyEdits lib user headers edits).keys) :
    key ∈ headers.keys ∨ ∃ edit ∈ edits, edit.overrides = some key := by
  induction edits generalizing headers with
  | nil => exact .inl hkey
  | cons edit edits ih =>
    have hrest : FoldedNames lib edits := fun e he => hfolded e (List.mem_cons_of_mem _ he)
    rcases ih hrest hkey with hkey | ⟨e, he, hname⟩
    · cases edit with
      | override name value =>
        have hname := hfolded _ List.mem_cons_self name rfl
        rcases ((applyEdit_override headers hname value).1 key).mp hkey with hkey | ⟨rfl, -⟩
        · exact .inl hkey
        · exact .inr ⟨_, List.mem_cons_self, rfl⟩
      | remove name =>
        rcases @applyEdit_remove lib user headers name with heq | ⟨gone, -, -, -, hkeys⟩
        · exact .inl (heq ▸ hkey)
        · exact .inl ((hkeys key).mp hkey).1
    · exact .inr ⟨e, List.mem_cons_of_mem _ he, hname⟩

/-- A name that no edit removes, or that the caller set, stays. -/
theorem mem_applyEdits {headers : Headers} {edits : List Edit} (hfolded : FoldedNames lib edits) {key : String}
    (hkey : key ∈ headers.keys)
    (hkept : lib.casefold key ∈ user ∨ ∀ edit ∈ edits, edit.removes ≠ some (lib.casefold key)) :
    key ∈ (applyEdits lib user headers edits).keys := by
  induction edits generalizing headers with
  | nil => exact hkey
  | cons edit edits ih =>
    refine ih (fun e he => hfolded e (List.mem_cons_of_mem _ he)) ?_
      (hkept.imp_right fun h e he => h e (List.mem_cons_of_mem _ he))
    cases edit with
    | override name value =>
      have hname := hfolded _ List.mem_cons_self name rfl
      exact ((applyEdit_override headers hname value).1 key).mpr (.inl hkey)
    | remove name =>
      rcases @applyEdit_remove lib user headers name with heq | ⟨gone, -, hgone, huser, hkeys⟩
      · exact heq ▸ hkey
      · refine (hkeys key).mpr ⟨hkey, ?_⟩
        rintro rfl
        rcases hkept with hmem | hnot
        · exact huser (hgone ▸ hmem)
        · exact hnot _ List.mem_cons_self (congrArg some hgone.symm)

/-- A name that an edit sets and none removes is there. -/
theorem exists_mem_applyEdits {headers : Headers} {edits : List Edit} (hfolded : FoldedNames lib edits)
    {edit : Edit} (hedit : edit ∈ edits) {name : String} (hname : edit.overrides = some name)
    (hnot : ∀ e ∈ edits, e.removes ≠ some name) :
    ∃ key ∈ (applyEdits lib user headers edits).keys, lib.casefold key = name := by
  induction edits generalizing headers with
  | nil => exact absurd hedit List.not_mem_nil
  | cons first edits ih =>
    have hrest : FoldedNames lib edits := fun e he => hfolded e (List.mem_cons_of_mem _ he)
    have hnotRest : ∀ e ∈ edits, e.removes ≠ some name := fun e he => hnot e (List.mem_cons_of_mem _ he)
    rcases List.mem_cons.mp hedit with rfl | hedit
    · cases edit with
      | override name' value =>
        obtain rfl : name' = name := Option.some.inj hname
        obtain ⟨key, hkey, hfold⟩ :=
          (@applyEdit_override lib user headers _ (hfolded _ List.mem_cons_self name' rfl) value).2
        exact ⟨key, mem_applyEdits hrest hkey (.inr (hfold.symm ▸ hnotRest)), hfold⟩
      | remove name' => contradiction
    · exact ih hrest hedit hnotRest

/-- Of two names with one case, one stays where each name is removed once at most. -/
theorem exists_mem_applyEdits_of_two {headers : Headers} {edits : List Edit} (hfolded : FoldedNames lib edits)
    (honce : (edits.filterMap Edit.removes).Nodup) {key other : String} (hkey : key ∈ headers.keys)
    (hother : other ∈ headers.keys) (hne : key ≠ other) (heq : lib.casefold key = lib.casefold other) :
    ∃ found ∈ (applyEdits lib user headers edits).keys, lib.casefold found = lib.casefold key := by
  induction edits generalizing headers with
  | nil => exact ⟨key, hkey, rfl⟩
  | cons edit edits ih =>
    have hrest : FoldedNames lib edits := fun e he => hfolded e (List.mem_cons_of_mem _ he)
    cases edit with
    | override name value =>
      have hname := hfolded _ List.mem_cons_self name rfl
      have hmem := fun k hk => ((@applyEdit_override lib user headers _ hname value).1 k).mpr (.inl hk)
      exact ih hrest honce (hmem key hkey) (hmem other hother)
    | remove name =>
      have honce : (name :: edits.filterMap Edit.removes).Nodup := honce
      rw [List.nodup_cons] at honce
      rcases @applyEdit_remove lib user headers name with hkeys | ⟨gone, -, hgone, -, hkeys⟩
      · exact ih hrest honce.2 (hkeys ▸ hkey) (hkeys ▸ hother)
      · by_cases hname : lib.casefold key = name
        · -- the one that is left is removed by no later edit
          have hlater : ∀ e ∈ edits, e.removes ≠ some name := fun e he heq =>
            honce.1 (List.mem_filterMap.mpr ⟨e, he, heq⟩)
          by_cases hk : key = gone
          · have hleft := (hkeys other).mpr ⟨hother, fun h => hne (hk.trans h.symm)⟩
            exact ⟨other, mem_applyEdits hrest hleft (.inr (heq ▸ hname ▸ hlater)), heq.symm⟩
          · have hleft := (hkeys key).mpr ⟨hkey, hk⟩
            exact ⟨key, mem_applyEdits hrest hleft (.inr (hname ▸ hlater)), rfl⟩
        · have hleft : ∀ k ∈ headers.keys, lib.casefold k = lib.casefold key → k ∈
              (applyEdit lib user headers (.remove name)).keys := by
            intro k hk hfold
            refine (hkeys k).mpr ⟨hk, ?_⟩
            rintro rfl
            exact hname (hfold.symm.trans hgone)
          exact ih hrest honce.2 (hleft key hkey rfl) (hleft other hother heq.symm)

/-- The names that the context sets. -/
def contextNames (ctx : RequestContext) : List String :=
  ["sec-fetch-mode", "sec-fetch-dest", "sec-fetch-site"] ++
    (if ctx.mode = "navigate" ∧ ctx.userTriggered then ["sec-fetch-user"] else []) ++ ["accept"] ++
    (if ctx.mode = "navigate" then ["upgrade-insecure-requests"] else []) ++
    (if (priorityHeader ctx).isSome then ["priority"] else [])

/-- The names that the context removes. -/
def removedNames (ctx : RequestContext) : List String :=
  (if ctx.mode = "navigate" ∧ ctx.userTriggered then [] else ["sec-fetch-user"]) ++
    (if ctx.mode = "navigate" then [] else ["upgrade-insecure-requests"])

/-- The names that a context sets, and those that it removes. -/
theorem contextEdits_names (ctx : RequestContext) (browser : String) :
    (contextEdits lib ctx browser).filterMap Edit.overrides = contextNames ctx ∧
      (contextEdits lib ctx browser).filterMap Edit.removes = removedNames ctx := by
  unfold contextEdits contextNames removedNames
  cases hpriority : priorityHeader ctx with
  | none =>
    rw [Option.isSome_none, if_neg Bool.false_ne_true]
    split_ifs <;> exact ⟨rfl, rfl⟩
  | some value =>
    rw [Option.isSome_some, if_pos rfl]
    split_ifs <;> exact ⟨rfl, rfl⟩

theorem contextNames_subset (ctx : RequestContext) : contextNames ctx ⊆ contextHeaders := by
  unfold contextNames
  split_ifs <;> decide

theorem removedNames_nodup (ctx : RequestContext) : (removedNames ctx).Nodup := by
  unfold removedNames
  split_ifs <;> decide

theorem not_mem_removedNames (ctx : RequestContext) : ∀ name ∈ contextNames ctx, name ∉ removedNames ctx := by
  unfold contextNames removedNames
  split_ifs <;> decide

theorem casefold_contextNames {ctx : RequestContext} {name : String} (hname : name ∈ contextNames ctx) :
    lib.casefold name = name :=
  lib.casefold_contextHeaders name (contextNames_subset ctx hname)

/-- The edits of a context have folded names. -/
theorem foldedNames_contextEdits (ctx : RequestContext) (browser : String) :
    FoldedNames lib (contextEdits lib ctx browser) := by
  intro edit hedit name hname
  have hmem : name ∈ (contextEdits lib ctx browser).filterMap Edit.overrides :=
    List.mem_filterMap.mpr ⟨edit, hedit, hname⟩
  rw [(contextEdits_names ctx browser).1] at hmem
  exact casefold_contextNames hmem

end Context

end TlsClient.Python
