import TlsClient.Python.Headers
import Mathlib.Data.List.Count
import Mathlib.Data.List.Perm.Subperm

/-!
# The header template of a fingerprint preset

`apply` of `src/tls_client/fingerprints/registry.py` leaves two header orders of the preset on the object it
is given. A request with a context, and without an order of its own, should go out in the one for its context.

`Honours` says that it does: the names of the template first, and each name of the request's headers once.
That is so only if the session has no default headers and the template is on the session itself, or if
the default headers bring the order of the template with them.
-/

namespace TlsClient.Python

variable {lib : StrLib}

/-- The templates on a session, and those on the `AsyncSession` or the compatibility session around it, where
`apply` got that one. Requests are prepared by the session itself. -/
structure FingerprintedSession where
  native : HeaderTemplates
  wrapper : Option HeaderTemplates := none

/-- The templates of the preset that was applied. -/
def FingerprintedSession.recorded (s : FingerprintedSession) : HeaderTemplates :=
  s.wrapper.getD s.native

/-- The names begin with the template and go on with others. -/
def Extends (lib : StrLib) (template names : List String) : Prop :=
  ∃ rest, names = template ++ rest ∧ ∀ name ∈ rest, lib.casefold name ∉ folded lib template

/-- The order is there, extends the template and has the name of each header once. -/
def Honours (lib : StrLib) (template : List String) (prepared : Option Headers × Option (List String)) : Prop :=
  ∃ names, prepared.2 = some names ∧ Extends lib template names ∧
    ∀ headers, prepared.1 = some headers → ∀ key ∈ headers.keys,
      (folded lib names).count (lib.casefold key) = 1

/-- Without default headers the session itself has the template, and that has every name. With default headers
the template is made of the first of their names, and they and the request have every name of the context. -/
def Allows (lib : StrLib) (s : FingerprintedSession) (template : List String) (ctx : RequestContext)
    (defaultHeaders requestHeaders : Option Headers) : Prop :=
  match truthyHeaders defaultHeaders with
  | none => ∃ names, s.native.forContext ctx = some names ∧ Extends lib template names ∧
      ∀ name ∈ namesOf requestHeaders ++ contextNames ctx, (folded lib names).count (lib.casefold name) = 1
  | some defaults => (folded lib defaults.keys).Nodup ∧
      template <+: mergedNames lib defaults requestHeaders ∧
      ∀ name ∈ contextNames ctx, name ∈ folded lib (defaults.keys ++ namesOf requestHeaders)

/-! ## The names after the context -/

section Context

variable {headers : Option Headers} {ctx : RequestContext} {browser : String} {user : List String}

/-- A key afterwards was there, or is one of the context's. -/
theorem mem_of_mem_applyContext {key : String} (hkey : key ∈ (applyContext lib headers ctx browser user).keys) :
    key ∈ namesOf headers ∨ key ∈ contextNames ctx := by
  rcases mem_of_mem_applyEdits (foldedNames_contextEdits ctx browser) hkey with hkey | ⟨edit, hedit, hname⟩
  · refine .inl ?_
    cases headers with
    | none => exact absurd hkey List.not_mem_nil
    | some headers => exact hkey
  · refine .inr ?_
    rw [← (@contextEdits_names lib ctx browser).1]
    exact List.mem_filterMap.mpr ⟨edit, hedit, hname⟩

/-- Every name of the context has a key. -/
theorem exists_mem_applyContext {name : String} (hname : name ∈ contextNames ctx) :
    ∃ key ∈ (applyContext lib headers ctx browser user).keys, lib.casefold key = name := by
  have hnames := @contextEdits_names lib ctx browser
  have hmem := hname
  rw [← hnames.1] at hmem
  obtain ⟨edit, hedit, hoverrides⟩ := List.mem_filterMap.mp hmem
  refine exists_mem_applyEdits (foldedNames_contextEdits ctx browser) hedit hoverrides ?_
  intro other hother hremoves
  refine not_mem_removedNames ctx name hname ?_
  rw [← hnames.2]
  exact List.mem_filterMap.mpr ⟨other, hother, hremoves⟩

/-- What the caller set stays. -/
theorem mem_applyContext_of_user {headers : Headers} {key : String} (hkey : key ∈ headers.keys)
    (huser : lib.casefold key ∈ user) : key ∈ (applyContext lib (some headers) ctx browser user).keys :=
  mem_applyEdits (foldedNames_contextEdits ctx browser) hkey (.inl huser)

/-- Of two spellings of a name one is left. -/
theorem exists_mem_applyContext_of_two {headers : Headers} {key other : String} (hkey : key ∈ headers.keys)
    (hother : other ∈ headers.keys) (hne : key ≠ other) (heq : lib.casefold key = lib.casefold other) :
    ∃ found ∈ (applyContext lib (some headers) ctx browser user).keys,
      lib.casefold found = lib.casefold key := by
  refine exists_mem_applyEdits_of_two (foldedNames_contextEdits ctx browser) ?_ hkey hother hne heq
  rw [(contextEdits_names ctx browser).2]
  exact removedNames_nodup ctx

end Context

/-! ## Counting names -/

/-- Two spellings of a name count twice. -/
theorem two_le_count_of_two {names : List String} {x y : String} (hx : x ∈ names)
    (hy : y ∈ names) (hne : x ≠ y) (heq : lib.casefold x = lib.casefold y) :
    2 ≤ (folded lib names).count (lib.casefold x) := by
  have hsubset : [x, y] ⊆ names.filter fun name => lib.casefold name = lib.casefold x := by
    intro name hname
    rw [List.mem_filter, decide_eq_true_eq]
    rcases List.mem_cons.mp hname with rfl | hname
    · exact ⟨hx, rfl⟩
    · rw [List.mem_singleton] at hname
      exact hname ▸ ⟨hy, heq.symm⟩
  have hpair : [x, y].Nodup := by simpa using hne
  have hlength := (List.subperm_of_subset hpair hsubset).length_le
  rw [folded, List.count, List.countP_map, List.countP_eq_length_filter]
  exact hlength

theorem folded_append (names others : List String) :
    folded lib (names ++ others) = folded lib names ++ folded lib others := List.map_append

/-- Without repeated names, an order extends a template exactly if it begins with it. -/
theorem extends_iff_isPrefix {template names : List String} (hnodup : (folded lib names).Nodup) :
    Extends lib template names ↔ template <+: names := by
  constructor
  · rintro ⟨rest, rfl, -⟩
    exact List.prefix_append _ _
  · rintro ⟨rest, rfl⟩
    refine ⟨rest, rfl, fun name hname hmem => ?_⟩
    rw [folded_append, List.nodup_append] at hnodup
    exact hnodup.2.2 _ hmem _ (mem_folded_of_mem hname) rfl

/-- The merge brings no name twice that the defaults have once. -/
theorem nodup_folded_mergedNames (defaults : Headers) (requestHeaders : Option Headers) :
    (folded lib (mergedNames lib defaults requestHeaders)).Nodup ↔ (folded lib defaults.keys).Nodup := by
  rw [mergedNames, folded_append]
  exact ⟨fun h => (List.nodup_append.mp h).1, fun h => nodup_folded_newNames h _⟩

/-- The names of the merge. -/
theorem mem_folded_mergedNames (defaults : Headers) (requestHeaders : Option Headers) (x : String) :
    x ∈ folded lib (mergedNames lib defaults requestHeaders) ↔
      x ∈ folded lib (defaults.keys ++ namesOf requestHeaders) := by
  rw [mergedNames, folded_append, folded_append]
  exact mem_folded_newNames _ _ x

/-! ## When a template is honoured -/

/-- Each header has its name once in an order that is made of the names of the headers before the context,
exactly if these differ in more than case and have the names of the context. -/
theorem forall_count_iff {merged : Headers} {ctx : RequestContext} {browser : String} {user : List String} :
    (∀ key ∈ (applyContext lib (some merged) ctx browser user).keys,
      (folded lib merged.keys).count (lib.casefold key) = 1) ↔
      (folded lib merged.keys).Nodup ∧ ∀ name ∈ contextNames ctx, name ∈ folded lib merged.keys := by
  constructor
  · intro hall
    refine ⟨?_, fun name hname => ?_⟩
    · refine (List.nodup_map_iff_inj_on merged.nodup_keys).mpr fun x hx y hy heq => ?_
      by_contra hne
      obtain ⟨found, hfound, hfold⟩ :=
        @exists_mem_applyContext_of_two lib ctx browser user _ _ _ hx hy hne heq
      have htwo := two_le_count_of_two hx hy hne heq
      rw [← hfold, hall found hfound] at htwo
      omega
    · obtain ⟨key, hkey, rfl⟩ := @exists_mem_applyContext lib (some merged) _ browser user _ hname
      exact List.count_pos_iff.mp (by rw [hall key hkey]; decide)
  · rintro ⟨hnodup, hcontext⟩ key hkey
    refine List.count_eq_one_of_mem hnodup ?_
    rcases mem_of_mem_applyContext hkey with hkey | hkey
    · exact mem_folded_of_mem hkey
    · rw [casefold_contextNames hkey]
      exact hcontext key hkey

/-- With the caller's headers alone, all of them stay. -/
theorem forall_count_of_request_iff {requestHeaders : Option Headers} {names : List String} {ctx : RequestContext}
    {browser : String} :
    (∀ key ∈ (applyContext lib requestHeaders ctx browser (folded lib (namesOf requestHeaders))).keys,
      (folded lib names).count (lib.casefold key) = 1) ↔
      ∀ name ∈ namesOf requestHeaders ++ contextNames ctx,
        (folded lib names).count (lib.casefold name) = 1 := by
  constructor
  · intro hall name hname
    rcases List.mem_append.mp hname with hname | hname
    · cases requestHeaders with
      | none => exact absurd hname List.not_mem_nil
      | some headers => exact hall name (mem_applyContext_of_user hname (mem_folded_of_mem hname))
    · obtain ⟨key, hkey, hfold⟩ := @exists_mem_applyContext lib requestHeaders _ browser
        (folded lib (namesOf requestHeaders)) _ hname
      rw [casefold_contextNames hname, ← hfold]
      exact hall key hkey
  · intro hall key hkey
    exact hall key (List.mem_append.mpr (mem_of_mem_applyContext hkey))

/-- A request in a context goes out in the order of the template exactly under `Allows`. -/
theorem honours_iff_allows (lib : StrLib) (s : FingerprintedSession) (ctx : RequestContext)
    (template : List String) (defaultHeaders requestHeaders : Option Headers) (identifier : Option String) :
    Honours lib template (prepareHeaders lib s.native defaultHeaders requestHeaders none (some ctx) identifier) ↔
      Allows lib s template ctx defaultHeaders requestHeaders := by
  rw [prepareHeaders, Allows]
  cases hdefaults : truthyHeaders defaultHeaders with
  | none =>
    rw [mergeDefaultHeaders_of_none hdefaults]
    -- the order is the template of the session
    constructor
    · rintro ⟨names, horder, hextends, hall⟩
      exact ⟨names, horder, hextends, forall_count_of_request_iff.mp (hall _ rfl)⟩
    · rintro ⟨names, horder, hextends, hall⟩
      refine ⟨names, horder, hextends, fun headers hheaders => ?_⟩
      obtain rfl := Option.some.inj hheaders
      exact forall_count_of_request_iff.mpr hall
  | some defaults =>
    obtain ⟨merged, hmerged, hkeys⟩ := @mergeDefaultHeaders_of_some lib _ _ hdefaults requestHeaders
    rw [hmerged]
    dsimp only
    rw [← nodup_folded_mergedNames defaults requestHeaders]
    simp only [← mem_folded_mergedNames, ← hkeys]
    -- the order is the names of the merged headers
    constructor
    · rintro ⟨names, horder, hextends, hall⟩
      obtain rfl := Option.some.inj horder
      obtain ⟨hnodup, hcontext⟩ := forall_count_iff.mp (hall _ rfl)
      exact ⟨hnodup, (extends_iff_isPrefix hnodup).mp hextends, hcontext⟩
    · rintro ⟨hnodup, hprefix, hcontext⟩
      refine ⟨merged.keys, rfl, (extends_iff_isPrefix hnodup).mpr hprefix, fun headers hheaders => ?_⟩
      obtain rfl := Option.some.inj hheaders
      exact forall_count_iff.mpr ⟨hnodup, hcontext⟩

/-- No text has capitals or hosts. -/
def plainStrLib : StrLib where
  casefold := id
  lower := id
  hostname _ := none
  casefold_contextHeaders _ _ := rfl

/-- The default headers of the session suppress the template of its preset. -/
theorem template_suppressed :
    ¬ ∀ (lib : StrLib) (s : FingerprintedSession) (ctx : RequestContext) (template : List String)
      (defaultHeaders requestHeaders : Option Headers) (identifier : Option String),
      s.recorded.forContext ctx = some template →
      Honours lib template
        (prepareHeaders lib s.native defaultHeaders requestHeaders none (some ctx) identifier) := by
  intro hhonours
  have h := hhonours plainStrLib ⟨{ navigation := some ["accept", "user-agent"] }, none⟩ {}
    ["accept", "user-agent"] (some (PyDict.empty.set "user-agent" "Mozilla/5.0")) none (some "chrome_120") rfl
  obtain ⟨names, horder, ⟨rest, hnames, -⟩, -⟩ := h
  have hfirst : names.head? = some "accept" := congrArg List.head? hnames
  obtain rfl := Option.some.inj horder
  exact absurd hfirst (by decide)

end TlsClient.Python
