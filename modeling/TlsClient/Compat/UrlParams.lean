import TlsClient.Python.UrlParams

/-!
# Parameters of a Requests-style request

`_merge_url_params` of `src/tls_client/requests_compat.py`, which takes the URL apart and puts it together again. It
always appends the pairs to the query (`appends_mergeUrlParams`); `appends_both_iff` says when the function of the same
name in `src/tls_client/_core.py` does too.
-/

namespace TlsClient.Compat

open FormUrlencoded

variable {ε : Type} {checkNetloc : List Char → Except ε Unit} {url : List Char} {parts : UrlSplit.SplitResult}
  {params : List (List Char × List Char)}

/-- `"&".join(filter(None, (old_query, query)))`. -/
def joinQuery (oldQuery query : List Char) : List Char := ['&'].intercalate ([oldQuery, query].filter (· ≠ []))

/-- `_merge_url_params`. -/
def mergeUrlParams (checkNetloc : List Char → Except ε Unit) (url : List Char)
    (params : List (List Char × List Char)) : Except ε (List Char) :=
  if params = [] then .ok url
  else do
    let query := urlencode params
    let parts ← UrlSplit.urlsplit checkNetloc url
    let query := joinQuery parts.query query
    return UrlSplit.urlunsplit { parts with query := query }

/-- The parameters behind the old query. -/
theorem joinQuery_eq (oldQuery : List Char) {query : List Char} (hquery : query ≠ []) :
    joinQuery oldQuery query = if oldQuery = [] then query else oldQuery ++ '&' :: query := by
  rw [joinQuery]
  split_ifs with hold
  · simp [hold, hquery]
  · simp [hold, hquery, List.intercalate]

/-- The query of a URL that is split has no character that splitting removes or that ends a query. -/
theorem query_of_urlsplit (h : UrlSplit.urlsplit checkNetloc url = .ok parts) :
    ∀ c ∈ parts.query, UrlSplit.removed c = false ∧ c ≠ '#' := by
  rw [UrlSplit.urlsplit] at h
  cases hcheck : checkNetloc (UrlSplit.splitParts (UrlSplit.clean url)).netloc with
  | error err =>
    rw [hcheck] at h
    contradiction
  | ok _ =>
    rw [hcheck] at h
    obtain rfl := Except.ok.inj h
    intro c hc
    refine ⟨(UrlSplit.cleanParts_splitParts (UrlSplit.clean_clean url)).query c hc, ?_⟩
    have hbefore := UrlSplit.mem_of_mem_partition (.inr hc)
    have hne := List.mem_takeWhile_imp hbefore
    exact of_decide_eq_true hne

/-- The pairs are appended to the query. -/
theorem appends_mergeUrlParams (params : List (List Char × List Char))
    (h : UrlSplit.urlsplit checkNetloc url = .ok parts) :
    ∃ merged, mergeUrlParams checkNetloc url params = .ok merged ∧ Python.Appends checkNetloc parts params merged := by
  rw [mergeUrlParams]
  split_ifs with hparams
  · refine ⟨url, rfl, parts.query, h, ?_⟩
    rw [hparams, List.append_nil]
  have hquery : urlencode params ≠ [] := mt urlencode_eq_nil_iff.mp hparams
  rw [h]
  refine ⟨_, rfl, joinQuery parts.query (urlencode params), UrlSplit.urlsplit_urlunsplit h fun c hc => ?_, ?_⟩
  -- `urlencode` writes no `#` and nothing that `urlsplit` removes
  · have hnew : ∀ c ∈ urlencode params, UrlSplit.removed c = false ∧ c ≠ '#' := by
      intro c hc
      have hkept : c ∈ Python.kept (urlencode params) := by rwa [Python.kept_urlencode]
      refine ⟨by simpa using (List.mem_filter.mp hkept).2, ?_⟩
      rintro rfl
      exact Python.hash_not_mem_urlencode hc
    rw [joinQuery_eq _ hquery] at hc
    split_ifs at hc
    · exact hnew c hc
    · rcases List.mem_append.mp hc with hc | hc
      · exact query_of_urlsplit h c hc
      rcases List.mem_cons.mp hc with rfl | hc
      · decide
      · exact hnew c hc
  · rw [joinQuery_eq _ hquery]
    -- an old query is joined with `&`, and `parse_qsl` reads the two sides one after the other
    split_ifs with hold
    · rw [hold, parseQsl_urlencode]
      rfl
    · rw [parseQsl_append, parseQsl_urlencode]

/-- Both functions append the pairs to the query if and only if there are none, there was no query, or the URL without
its fragment does not end with a question mark. -/
theorem appends_both_iff (params : List (List Char × List Char))
    (h : UrlSplit.urlsplit checkNetloc url = .ok parts) :
    (Python.Appends checkNetloc parts params (Python.mergeUrlParams url params) ∧
        ∃ merged, mergeUrlParams checkNetloc url params = .ok merged ∧
          Python.Appends checkNetloc parts params merged) ↔
      params = [] ∨ parts.query = [] ∨ (url.takeWhile (· ≠ '#')).getLast? ≠ some '?' := by
  rw [and_iff_left (appends_mergeUrlParams params h)]
  exact Python.mergeUrlParams_appends_iff h

/-- Any authority. -/
def anyNetloc (_ : List Char) : Except Unit Unit := .ok ()

/-- A query, a fragment with a question mark, and a blank to escape. -/
theorem appends_both_iff_fragment :
    UrlSplit.urlsplit anyNetloc "http://h/p?a=1#f?".toList =
        .ok ⟨"http".toList, "h".toList, "/p".toList, "a=1".toList, "f?".toList⟩ ∧
      Python.Appends anyNetloc ⟨"http".toList, "h".toList, "/p".toList, "a=1".toList, "f?".toList⟩
        [("b".toList, " ".toList)] (Python.mergeUrlParams "http://h/p?a=1#f?".toList [("b".toList, " ".toList)]) := by
  have hurl : UrlSplit.urlsplit anyNetloc "http://h/p?a=1#f?".toList =
      .ok ⟨"http".toList, "h".toList, "/p".toList, "a=1".toList, "f?".toList⟩ := by decide +kernel
  exact ⟨hurl, ((appends_both_iff _ hurl).mpr (.inr (.inr (by decide)))).1⟩

/-- A value that ends with a question mark takes the first pair. -/
theorem not_appends :
    UrlSplit.urlsplit anyNetloc "http://h/?q=what?".toList =
        .ok ⟨"http".toList, "h".toList, "/".toList, "q=what?".toList, []⟩ ∧
      Python.mergeUrlParams "http://h/?q=what?".toList [("b".toList, "2".toList)] =
        "http://h/?q=what?b=2".toList ∧
      mergeUrlParams anyNetloc "http://h/?q=what?".toList [("b".toList, "2".toList)] =
        .ok "http://h/?q=what?&b=2".toList ∧
      parseQsl "q=what?b=2".toList = [("q".toList, "what?b=2".toList)] ∧
      parseQsl "q=what?&b=2".toList = [("q".toList, "what?".toList), ("b".toList, "2".toList)] ∧
      ¬∀ (checkNetloc : List Char → Except Unit Unit) (url : List Char) (parts : UrlSplit.SplitResult)
        (params : List (List Char × List Char)), UrlSplit.urlsplit checkNetloc url = .ok parts →
          Python.Appends checkNetloc parts params (Python.mergeUrlParams url params) := by
  have hurl : UrlSplit.urlsplit anyNetloc "http://h/?q=what?".toList =
      .ok ⟨"http".toList, "h".toList, "/".toList, "q=what?".toList, []⟩ := by decide +kernel
  refine ⟨hurl, by decide +kernel, by decide +kernel, by decide +kernel, by decide +kernel, fun hall => ?_⟩
  obtain ⟨query, hquery, hpairs⟩ := hall _ _ _ [("b".toList, "2".toList)] hurl
  have hmerged : UrlSplit.urlsplit anyNetloc
      (Python.mergeUrlParams "http://h/?q=what?".toList [("b".toList, "2".toList)]) =
      .ok ⟨"http".toList, "h".toList, "/".toList, "q=what?b=2".toList, []⟩ := by decide +kernel
  obtain rfl : "q=what?b=2".toList = query :=
    congrArg UrlSplit.SplitResult.query (Except.ok.inj (hmerged.symm.trans hquery))
  revert hpairs
  decide +kernel

end TlsClient.Compat
