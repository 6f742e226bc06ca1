import TlsClient.Library.FormUrlencoded
import TlsClient.Library.UrlSplit

/-!
# Parameters in the query of a URL

`_merge_url_params` of `src/tls_client/_core.py`, which works on the text of the URL. It takes a question mark at the
end of the URL for the beginning of an empty query, also where it is the end of one (`mergeUrlParams_appends_iff`).
-/

namespace TlsClient.Python

open UrlSplit FormUrlencoded

/-- `merged` of `_merge_url_params`. -/
def appendQuery (base query : List Char) : List Char :=
  if '?' ∉ base then base ++ '?' :: query
  else if base.getLast? = some '?' ∨ base.getLast? = some '&' then base ++ query
  else base ++ '&' :: query

/-- `_merge_url_params`. -/
def mergeUrlParams (url : List Char) (params : List (List Char × List Char)) : List Char :=
  let query := urlencode params
  if query = [] then url
  else
    let merged := appendQuery (partition '#' url).1 query
    if '#' ∈ url then merged ++ '#' :: (partition '#' url).2 else merged

variable {ε : Type} {checkNetloc : List Char → Except ε Unit} {url front back query rest : List Char}
  {parts : SplitResult} {params : List (List Char × List Char)}

/-- A URL that has the given parts but for its query, where the pairs are after those that there were. -/
def Appends (checkNetloc : List Char → Except ε Unit) (parts : SplitResult) (params : List (List Char × List Char))
    (merged : List Char) : Prop :=
  ∃ query, urlsplit checkNetloc merged = .ok { parts with query := query } ∧
    parseQsl query = parseQsl parts.query ++ params

/-! ## URLs with the same front -/

/-- What cleaning leaves after the front of a URL. -/
def kept (s : List Char) : List Char := s.filter fun c => !removed c

theorem kept_append (s t : List Char) : kept (s ++ t) = kept s ++ kept t := List.filter_append _ _

theorem kept_cons {c : Char} (hc : removed c = false) (s : List Char) : kept (c :: s) = c :: kept s :=
  List.filter_cons_of_pos (by simp [hc])

/-- Encoded parameters are kept as they are. -/
theorem kept_urlencode (params : List (List Char × List Char)) : kept (urlencode params) = urlencode params := by
  refine List.filter_eq_self.mpr fun c hc => ?_
  have hremoved : removed c = false := by
    by_contra hne
    simp only [removed, Bool.or_eq_false_iff, decide_eq_false_iff_not, not_and_or, not_not] at hne
    have hnone : ∀ d, ¬(Written d ∨ d = '=' ∨ d = '&') → c ≠ d := by
      rintro d hd rfl
      exact hd (mem_urlencode hc)
    rcases hne with (hne | hne) | hne
    · exact hnone '\t' (by decide) hne
    · exact hnone '\r' (by decide) hne
    · exact hnone '\n' (by decide) hne
  rw [hremoved]
  rfl

/-- Encoded parameters have no hash. -/
theorem hash_not_mem_urlencode : '#' ∉ urlencode params := by
  intro h
  have hnone := mem_urlencode h
  revert hnone
  decide

/-- The parts of a URL, as those of its front and what is after it. -/
theorem splitParts_clean (hfront : Plain front) (hback : Tail back) :
    splitParts (clean (front ++ back)) =
      ⟨(splitScheme (clean front)).1, (splitNetloc (splitScheme (clean front)).2).1,
        (splitNetloc (splitScheme (clean front)).2).2, (splitTail (kept back)).1, (splitTail (kept back)).2⟩ := by
  have hhead : ∀ c, back.head? = some c → 32 < c.toNat := by
    intro c hc
    rcases hback c hc with rfl | rfl
    · decide
    · decide
  have hplain : Plain (clean front) := fun c hc =>
    hfront c ((List.dropWhile_suffix _).subset (List.mem_filter.mp hc).1)
  have htail : Tail (kept back) := by
    cases back with
    | nil => exact hback
    | cons d back =>
      rw [kept_cons (removed_eq_false (hhead d rfl))]
      exact hback
  rw [clean_append (.inr hhead)]
  exact splitParts_append hplain htail

/-- What is after the front of a URL: a query, and a fragment. -/
theorem splitTail_kept (hquery : '#' ∉ query) (hrest : ∀ c, rest.head? = some c → c = '#') :
    splitTail (kept (query ++ rest)) = ((kept query).drop 1, (splitTail (kept rest)).2) := by
  have hnone : '#' ∉ kept query := fun h => hquery (List.mem_filter.mp h).1
  have hempty : (partition '#' (kept rest)).1 = [] := by
    cases rest with
    | nil => rfl
    | cons d rest =>
      obtain rfl := hrest d rfl
      rw [kept_cons (by decide), partition_cons]
  rw [kept_append, splitTail, partition_of_not_mem hnone, hempty, List.append_nil, splitTail]

/-- URLs with the same front and the same fragment have the same parts but for the query. -/
theorem urlsplit_other (hfront : Plain front) {query' : List Char} (hquery : '#' ∉ query) (hquery' : '#' ∉ query')
    (htail : Tail (query ++ rest)) (htail' : Tail (query' ++ rest)) (hrest : ∀ c, rest.head? = some c → c = '#')
    (h : urlsplit checkNetloc (front ++ (query ++ rest)) = .ok parts) :
    parts.query = (kept query).drop 1 ∧ urlsplit checkNetloc (front ++ (query' ++ rest)) =
      .ok { parts with query := (kept query').drop 1 } := by
  rw [urlsplit, splitParts_clean hfront htail, splitTail_kept hquery hrest] at h
  rw [urlsplit, splitParts_clean hfront htail', splitTail_kept hquery' hrest]
  cases hcheck : checkNetloc (splitNetloc (splitScheme (clean front)).2).1 with
  | error err =>
    rw [hcheck] at h
    contradiction
  | ok _ =>
    rw [hcheck] at h
    obtain rfl := Except.ok.inj h
    exact ⟨rfl, rfl⟩

/-- The fragment stays at the end. -/
theorem mergeUrlParams_append (hfront : '#' ∉ front) (hrest : ∀ c, rest.head? = some c → c = '#') (hparams : params ≠ []) :
    mergeUrlParams (front ++ rest) params = appendQuery front (urlencode params) ++ rest := by
  have hquery : urlencode params ≠ [] := mt urlencode_eq_nil_iff.mp hparams
  rw [mergeUrlParams, partition_of_not_mem hfront]
  dsimp only
  rw [if_neg hquery]
  cases rest with
  | nil =>
    rw [if_neg (by rwa [List.append_nil])]
    simp [partition]
  | cons d rest =>
    obtain rfl := hrest d rfl
    rw [if_pos (List.mem_append_right _ List.mem_cons_self), partition_cons, List.append_nil]

/-- When the parameters stand behind the query. -/
theorem appends_iff {merged : List Char} (h : urlsplit checkNetloc merged = .ok { parts with query := query }) :
    Appends checkNetloc parts params merged ↔ parseQsl query = parseQsl parts.query ++ params := by
  refine ⟨?_, fun hquery => ⟨query, h, hquery⟩⟩
  rintro ⟨other, hother, hquery⟩
  obtain rfl : query = other := congrArg SplitResult.query (Except.ok.inj (h.symm.trans hother))
  exact hquery

/-- A URL that has no query gets one. -/
theorem appends_new (hfront : Plain front) (hrest : ∀ c, rest.head? = some c → c = '#')
    (h : urlsplit checkNetloc (front ++ ([] ++ rest)) = .ok parts) (params : List (List Char × List Char)) :
    parts.query = [] ∧ Appends checkNetloc parts params (appendQuery front (urlencode params) ++ rest) := by
  have htail : Tail ([] ++ rest) := fun c hc => .inr (hrest c hc)
  have htail' : Tail ('?' :: urlencode params ++ rest) := fun c hc => .inl (Option.some.inj hc).symm
  have hhash : '#' ∉ '?' :: urlencode params :=
    mt List.mem_cons.mp (not_or.mpr ⟨by decide, hash_not_mem_urlencode⟩)
  obtain ⟨hempty, hmerged⟩ := urlsplit_other hfront List.not_mem_nil hhash htail htail' hrest h
  refine ⟨hempty, ?_⟩
  rw [appendQuery, if_pos hfront.not_mem.1, List.append_assoc, appends_iff hmerged, hempty,
    kept_cons (by decide), kept_urlencode]
  exact parseQsl_urlencode params

/-- A query ends with what was appended to it. -/
theorem appends_old (hfront : Plain front) (hquery : '#' ∉ query) (hrest : ∀ c, rest.head? = some c → c = '#')
    (h : urlsplit checkNetloc (front ++ ('?' :: query ++ rest)) = .ok parts) (params : List (List Char × List Char))
    {more : List Char} (hmore : '#' ∉ more) :
    parts.query = kept query ∧ (Appends checkNetloc parts params (front ++ '?' :: query ++ more ++ rest) ↔
      parseQsl (kept query ++ kept more) = parseQsl (kept query) ++ params) := by
  have htail : ∀ l, Tail ('?' :: query ++ l) := fun l c hc => .inl (Option.some.inj hc).symm
  have hhash : '#' ∉ '?' :: query := mt List.mem_cons.mp (not_or.mpr ⟨by decide, hquery⟩)
  have hhash' : '#' ∉ '?' :: query ++ more := mt List.mem_append.mp (not_or.mpr ⟨hhash, hmore⟩)
  have htail' : Tail (('?' :: query ++ more) ++ rest) := List.append_assoc .. ▸ htail _
  obtain ⟨hold, hmerged⟩ := urlsplit_other hfront hhash hhash' (htail rest) htail' hrest h
  rw [kept_cons (by decide)] at hold
  refine ⟨hold, ?_⟩
  rw [List.append_assoc front, List.append_assoc front, appends_iff hmerged, hold, List.cons_append,
    kept_cons (by decide), kept_append]
  rfl

/-- The last character is kept if it is not removed. -/
theorem getLast?_kept {c : Char} (hc : removed c = false) (h : query.getLast? = some c) :
    (kept query).getLast? = some c := by
  obtain ⟨before, rfl⟩ := List.getLast?_eq_some_iff.mp h
  rw [kept_append, kept_cons hc]
  exact List.getLast?_concat ..

/-- Where a query ends with a question mark, the pairs are appended if and only if that is its beginning. -/
theorem appends_marked (hquery : ('?' :: query).getLast? = some '?') (hparams : params ≠ []) :
    parseQsl (kept query ++ urlencode params) = parseQsl (kept query) ++ params ↔ kept query = [] := by
  constructor
  · intro h
    by_contra hne
    have hlast : query.getLast? = some '?' := by
      obtain ⟨c, rest, rfl⟩ := List.exists_cons_of_ne_nil fun hnil : query = [] => hne (congrArg kept hnil)
      exact List.getLast?_cons_cons .. ▸ hquery
    have hmark : (kept query).getLast? ≠ some '&' := by
      rw [getLast?_kept (by decide) hlast]
      decide
    exact parseQsl_append_urlencode_ne hne hmark hparams h
  · intro hnil
    rw [hnil, List.nil_append, parseQsl_urlencode]
    rfl

/-- After a separator they are. -/
theorem appends_separated (params : List (List Char × List Char)) (hlast : query.getLast? = some '&') :
    parseQsl (kept query ++ urlencode params) = parseQsl (kept query) ++ params := by
  obtain ⟨before, hbefore⟩ := List.getLast?_eq_some_iff.mp (getLast?_kept (by decide) hlast)
  rw [hbefore, List.append_assoc, List.singleton_append, parseQsl_append, parseQsl_append, parseQsl_urlencode,
    parseQsl_nil, List.append_nil]

/-- A URL is what is before its query, the query with its question mark, and the fragment with its hash. -/
theorem exists_query_rest (url : List Char) :
    ∃ front query rest, url = front ++ (query ++ rest) ∧ Plain front ∧ '#' ∉ query ∧
      (∀ c, query.head? = some c → c = '?') ∧ (∀ c, rest.head? = some c → c = '#') ∧
        url.takeWhile (· ≠ '#') = front ++ query := by
  obtain ⟨front, back, rfl, hfront, hback⟩ := exists_plain_tail url
  have hall : ∀ d ∈ front, decide (d ≠ '#') = true := fun d hd => decide_eq_true (hfront d hd).2
  have hhash : '#' ∉ back.takeWhile (· ≠ '#') := fun hmem => by simpa using List.mem_takeWhile_imp hmem
  have hrest : ∀ c, (back.dropWhile (· ≠ '#')).head? = some c → c = '#' := by
    intro c hc
    have hnot := List.head?_dropWhile_not (fun c : Char => decide (c ≠ '#')) back
    rw [hc] at hnot
    simpa using hnot
  refine ⟨front, back.takeWhile (· ≠ '#'), back.dropWhile (· ≠ '#'), ?_, hfront, hhash, ?_, hrest,
    List.takeWhile_append_of_pos hall⟩
  · rw [List.takeWhile_append_dropWhile]
  · intro c hc
    have hmem : c ∈ back.takeWhile (· ≠ '#') := List.mem_of_head? hc
    have hfirst : back.head? = some c := by
      rw [← List.takeWhile_append_dropWhile (p := (· ≠ '#')) (l := back), List.head?_append, hc]
      rfl
    exact (hback c hfirst).resolve_right fun heq => hhash (heq ▸ hmem)

/-- The pairs are appended if and only if there are none, there was no query, or the URL without its fragment does not
end with a question mark. -/
theorem mergeUrlParams_appends_iff (h : urlsplit checkNetloc url = .ok parts) :
    Appends checkNetloc parts params (mergeUrlParams url params) ↔
      params = [] ∨ parts.query = [] ∨ (url.takeWhile (· ≠ '#')).getLast? ≠ some '?' := by
  by_cases hparams : params = []
  · refine iff_of_true ⟨parts.query, ?_, ?_⟩ (.inl hparams)
    · rw [hparams]
      exact h
    · rw [hparams, List.append_nil]
  rw [or_iff_right hparams]
  obtain ⟨front, query, rest, rfl, hfront, hhash, hback, hrest, hbefore⟩ := exists_query_rest url
  rw [hbefore]
  cases query with
  | nil =>
    obtain ⟨hempty, happends⟩ := appends_new hfront hrest h params
    rw [List.nil_append, mergeUrlParams_append hfront.not_mem.2 hrest hparams]
    exact iff_of_true happends (.inl hempty)
  | cons d query =>
    obtain rfl : d = '?' := hback d rfl
    have hmark : '?' ∈ front ++ '?' :: query := List.mem_append_right _ List.mem_cons_self
    have hbase : '#' ∉ front ++ '?' :: query := mt List.mem_append.mp (not_or.mpr ⟨hfront.not_mem.2, hhash⟩)
    have hlast : (front ++ '?' :: query).getLast? = ('?' :: query).getLast? := by
      rw [List.getLast?_append_of_ne_nil _ (List.cons_ne_nil _ _)]
    have hquery : '#' ∉ query := fun hmem => hhash (List.mem_cons_of_mem _ hmem)
    have happends := fun more (hmore : '#' ∉ more) => appends_old hfront hquery hrest h params hmore
    rw [← List.append_assoc, mergeUrlParams_append hbase hrest hparams, appendQuery, if_neg (not_not.mpr hmark), hlast]
    by_cases hquestion : ('?' :: query).getLast? = some '?'
    · -- a question mark at the end, which is the one before the query or one in the query
      obtain ⟨hold, hiff⟩ := happends (urlencode params) hash_not_mem_urlencode
      rw [if_pos (.inl hquestion), hiff, kept_urlencode, hold,
        appends_marked hquestion hparams]
      exact (or_iff_left (not_not.mpr hquestion)).symm
    refine iff_of_true ?_ (.inr hquestion)
    by_cases hsep : ('?' :: query).getLast? = some '&'
    · obtain ⟨-, hiff⟩ := happends (urlencode params) hash_not_mem_urlencode
      have hnext : query.getLast? = some '&' := by
        cases query with
        | nil => exact absurd hsep (by decide)
        | cons c query => exact List.getLast?_cons_cons .. ▸ hsep
      rw [if_pos (.inr hsep), hiff, kept_urlencode]
      exact appends_separated params hnext
    · have hmore : '#' ∉ '&' :: urlencode params :=
        mt List.mem_cons.mp (not_or.mpr ⟨by decide, hash_not_mem_urlencode⟩)
      rw [if_neg (not_or.mpr ⟨hquestion, hsep⟩), (happends _ hmore).2, kept_cons (by decide), kept_urlencode,
        parseQsl_append, parseQsl_urlencode]

end TlsClient.Python
