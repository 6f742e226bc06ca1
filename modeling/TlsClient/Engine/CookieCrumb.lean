import TlsClient.Engine.CookieJar
import TlsClient.Engine.HeaderOrder
import TlsClient.Library.WireBytes

/-!
# Crumbled cookies

With `cookie_crumb`, `requestConfigFromOptions` of `src/cffi_binding/main.go` makes a value of its own of each pair
of the `Cookie` header: "Chromium splits the Cookie header into one field per cookie-pair on the wire". The cookies
of the request and of the jar are added by `AddCookie`, which reads the first value of the header and puts the text
with the new pair in the place of all values. So a further cookie loses every pair but the first
(`losesNothing_iff`).
-/

namespace TlsClient.Engine

open TlsClient.Ffi TlsClient.Python Utf8
open WireBytes (isBlank trimString)

/-- `AddCookie`; `write` is the text that it makes of a cookie. -/
def addCookie (write : Cookie → Bytes) (header : Header) (c : Cookie) : Header :=
  -- `Header.Get`
  let value := ((header.lookup (utf8 "Cookie")).bind List.head?).getD []
  header.set (utf8 "Cookie") [if value = [] then write c else value ++ utf8 "; " ++ write c]

/-- The cookies of a config. -/
def ownCookies (cfg : RequestConfig) : List Cookie :=
  cfg.requestCookies.map fun (name, value) => { name := name, value := value }

/-- The header with which a request goes out, if the jar has the given cookies for it. -/
def sentHeader (go : ToLower) (write : Cookie → Bytes) (cfg : RequestConfig) (jar : List Cookie) : Header :=
  (ownCookies cfg ++ jar).foldl (addCookie write) (doHeader go cfg)

/-! ## The pairs of a header -/

/-- The pairs of a value of a `Cookie` header, as `readCookies` takes it apart. -/
def cookiePairs (value : Bytes) : List Bytes := ((value.splitOn 59).map trimString).filter fun part => part ≠ []

/-- `cookie` in any letter case. -/
def isCookieName (key : Bytes) : Bool := key.map asciiLower = utf8 "cookie"

/-- The pairs of all cookie headers. -/
def pairsOf (header : Header) : Multiset Bytes :=
  ((header.filterKeys isCookieName).entries.flatMap fun entry => entry.2.flatMap cookiePairs : List Bytes)

/-- The values of the canonical `Cookie` header. -/
def cookieValues (header : Header) : List Bytes := (header.lookup (utf8 "Cookie")).getD []

/-- The pairs that `AddCookie` does not read. -/
def unread (header : Header) : Multiset Bytes := ((cookieValues header).tail.flatMap cookiePairs : List Bytes)

section Values

variable {v w : Bytes}

@[simp] theorem cookiePairs_nil : cookiePairs [] = [] := rfl

/-- A space in front is trimmed. -/
theorem map_trimString_modifyHead (parts : List Bytes) :
    (parts.modifyHead (List.cons 32)).map trimString = parts.map trimString := by
  cases parts with
  | nil => rfl
  | cons part parts => rfl

/-- The pairs of a text to which more is added as `AddCookie` adds it. -/
theorem cookiePairs_append (v w : Bytes) : cookiePairs (v ++ 59 :: 32 :: w) = cookiePairs v ++ cookiePairs w := by
  have hsplit : (v ++ 59 :: 32 :: w).splitOn 59 = v.splitOn 59 ++ (w.splitOn 59).modifyHead (List.cons 32) := by
    rw [List.splitOn_append_cons_self, List.splitOn_cons_eq_if_modifyHead, if_neg (by decide)]
  rw [cookiePairs, hsplit, List.map_append, map_trimString_modifyHead, List.filter_append, cookiePairs, cookiePairs]

/-- The parts of a text have its pairs. -/
theorem flatMap_splitPairs (part v : Bytes) :
    (splitPairs part v).flatMap cookiePairs = cookiePairs (part.reverse ++ v) := by
  fun_induction splitPairs part v with
  | case1 part => rw [List.flatMap_singleton, List.append_nil]
  | case2 part rest ih => rw [List.flatMap_cons, ih, cookiePairs_append, List.reverse_nil, List.nil_append]
  | case3 part b rest hsep ih => rw [ih, List.reverse_cons, List.append_assoc, List.singleton_append]

end Values

/-! ## What a step leaves of the pairs -/

section Steps

variable {go : ToLower} {write : Cookie → Bytes} {cfg : RequestConfig} {header header' : Header} {c : Cookie}
  {added : List Cookie}

theorem isCookieName_cookie : isCookieName (utf8 "Cookie") = true := by decide

theorem pairsOf_congr (heq : ∀ key, isCookieName key = true → header.lookup key = header'.lookup key) :
    pairsOf header = pairsOf header' := by
  rw [pairsOf, pairsOf, SortedMap.filterKeys_congr heq]

/-- The pairs are those of the canonical header and those of the others. -/
theorem pairsOf_eq (header : Header) :
    pairsOf header =
      ((cookieValues header).flatMap cookiePairs : List Bytes) +
        pairsOf (header.erase (utf8 "Cookie")) := by
  have hperm := (header.filterKeys isCookieName).entries_perm (utf8 "Cookie")
  have hlookup : (header.filterKeys isCookieName).lookup (utf8 "Cookie") = header.lookup (utf8 "Cookie") := by
    rw [SortedMap.lookup_filterKeys, if_pos isCookieName_cookie]
  have hothers : (header.filterKeys isCookieName).erase (utf8 "Cookie") =
      (header.erase (utf8 "Cookie")).filterKeys isCookieName := by
    refine SortedMap.ext_lookup fun key => ?_
    simp only [SortedMap.lookup_filterKeys, SortedMap.lookup_erase]
    split_ifs <;> rfl
  rw [hlookup, hothers] at hperm
  have hpairs := Multiset.coe_eq_coe.mpr (hperm.flatMap_right fun entry => entry.2.flatMap cookiePairs)
  rw [List.flatMap_append, ← Multiset.coe_add] at hpairs
  rw [pairsOf, hpairs, pairsOf, cookieValues]
  cases header.lookup (utf8 "Cookie") with
  | none => rfl
  | some values => rw [Option.toList_some, List.map_singleton, List.flatMap_singleton, Option.getD_some]

/-- The pairs after the header was set. -/
theorem pairsOf_set (header : Header) (values : List Bytes) :
    pairsOf (header.set (utf8 "Cookie") values) =
      (values.flatMap cookiePairs : List Bytes) + pairsOf (header.erase (utf8 "Cookie")) := by
  rw [pairsOf_eq, SortedMap.erase_set, cookieValues, SortedMap.lookup_set, if_pos rfl, Option.getD_some]

/-- The crumble keeps the pairs. -/
theorem pairsOf_crumbleCookies (header : Header) : pairsOf (crumbleCookies header) = pairsOf header := by
  rw [crumbleCookies]
  split
  · rename_i cv hcookie
    dsimp only
    split_ifs
    · rw [pairsOf_set, pairsOf_eq header, cookieValues, hcookie, Option.getD_some, flatMap_splitPairs,
        List.flatMap_singleton, List.reverse_nil, List.nil_append]
    · rfl
  · rfl

/-- A cookie comes to the pairs of the first value, and those of the others are lost. -/
theorem pairsOf_addCookie (write : Cookie → Bytes) (header : Header) (c : Cookie) :
    pairsOf (addCookie write header c) + unread header = pairsOf header + (cookiePairs (write c) : List Bytes) := by
  have hvalue : ((header.lookup (utf8 "Cookie")).bind List.head?).getD [] = (cookieValues header).head?.getD [] := by
    rw [cookieValues]
    cases header.lookup (utf8 "Cookie") <;> rfl
  have hfirst : cookiePairs (if (cookieValues header).head?.getD [] = [] then write c
        else (cookieValues header).head?.getD [] ++ utf8 "; " ++ write c) =
      cookiePairs ((cookieValues header).head?.getD []) ++ cookiePairs (write c) := by
    split_ifs with hnil
    · rw [hnil]
      rfl
    · rw [List.append_assoc]
      exact cookiePairs_append _ _
  have hvalues : ((cookieValues header).flatMap cookiePairs : List Bytes) =
      cookiePairs ((cookieValues header).head?.getD []) ++ (cookieValues header).tail.flatMap cookiePairs := by
    cases cookieValues header <;> rfl
  rw [addCookie, hvalue, pairsOf_set, List.flatMap_singleton, hfirst, pairsOf_eq header, hvalues, unread,
    ← Multiset.coe_add, ← Multiset.coe_add]
  ac_rfl

/-- A cookie that is added leaves nothing unread. -/
theorem unread_addCookie (write : Cookie → Bytes) (header : Header) (c : Cookie) :
    unread (addCookie write header c) = 0 := by
  rw [unread, cookieValues, addCookie, SortedMap.lookup_set, if_pos rfl]
  rfl

/-- No cookie loses a pair where `AddCookie` reads all. -/
theorem pairsOf_addCookies_of_unread (hunread : unread header = 0) :
    pairsOf (added.foldl (addCookie write) header) =
      pairsOf header + (added.flatMap fun c => cookiePairs (write c) : List Bytes) := by
  induction added generalizing header with
  | nil => exact (add_zero _).symm
  | cons c added ih =>
    have hstep := pairsOf_addCookie write header c
    rw [hunread, add_zero] at hstep
    rw [List.foldl_cons, ih (unread_addCookie write header c), hstep, List.flatMap_cons, ← Multiset.coe_add, add_assoc]

/-- Any cookies lose what the first of them loses. -/
theorem pairsOf_addCookies (hadded : added ≠ []) :
    pairsOf (added.foldl (addCookie write) header) + unread header =
      pairsOf header + (added.flatMap fun c => cookiePairs (write c) : List Bytes) := by
  obtain ⟨c, rest, rfl⟩ := List.exists_cons_of_ne_nil hadded
  rw [List.foldl_cons, pairsOf_addCookies_of_unread (unread_addCookie write header c), List.flatMap_cons,
    ← Multiset.coe_add, add_right_comm, pairsOf_addCookie, add_assoc]

/-- The order does not change the cookie headers. -/
theorem lookup_orderedHeader_cookie {key : Bytes} (hkey : isCookieName key = true) :
    (orderedHeader go cfg).lookup key = cfg.headers.lookup key := by
  have horder : key ≠ headerOrderKey := by
    rintro rfl
    exact absurd hkey (by decide)
  have hlength : key.map asciiLower ≠ utf8 "content-length" := by
    rw [of_decide_eq_true hkey]
    decide
  have hfilter : (cfg.headers.filterKeys fun key => key.map asciiLower ≠ utf8 "content-length").lookup key =
      cfg.headers.lookup key := by
    rw [SortedMap.lookup_filterKeys, if_pos (by simpa using hlength)]
  -- the order set for a destination is under its own key
  have hdest : ∀ header : Header, ∀ browser dest, (applyHeaderOrderForDest header browser dest).lookup key =
      header.lookup key := by
    intro header browser dest
    rw [applyHeaderOrderForDest]
    split_ifs
    · rfl
    · rw [SortedMap.lookup_set, if_neg horder]
  rw [orderedHeader]
  dsimp only
  split_ifs with hnil
  · rw [SortedMap.lookup_set, if_neg horder, hdest, hfilter]
  · rw [SortedMap.lookup_set, if_neg horder, hfilter]
  · rw [hdest, hfilter]
  · exact hfilter
  · have hempty : cfg.headers.entries = [] := List.length_eq_zero_iff.mp (by omega)
    rw [SortedMap.lookup_eq_none_of_empty hempty]
    rfl

/-- The request has a cookie header, of any letter case. -/
def HasCookie (header : Header) : Prop :=
  ∃ key, isCookieName key = true ∧ (header.lookup key).isSome

/-- The header of a request that has a cookie header, as `do` goes on with it. -/
theorem lookup_doHeader_cookie (hcookie : HasCookie cfg.headers) {key : Bytes} (hkey : isCookieName key = true) :
    (doHeader go cfg).lookup key = cfg.headers.lookup key := by
  obtain ⟨cookie, hname, hsome⟩ := hcookie
  obtain ⟨values, hvalues⟩ := Option.isSome_iff_exists.mp hsome
  have hne : (orderedHeader go cfg).entries ≠ [] :=
    SortedMap.entries_ne_nil_of_lookup ((lookup_orderedHeader_cookie hname).trans hvalues)
  rw [doHeader, if_neg fun h => hne (List.length_eq_zero_iff.mp h.1), lookup_orderedHeader_cookie hkey]

/-- The pairs that a request has on the wire. -/
theorem pairsOf_sentHeader (go : ToLower) (write : Cookie → Bytes) (hcookie : HasCookie cfg.headers)
    (jar : List Cookie) :
    let added := ownCookies cfg ++ jar
    (added = [] → pairsOf (sentHeader go write cfg jar) = pairsOf cfg.headers) ∧
      (added ≠ [] → pairsOf (sentHeader go write cfg jar) + unread cfg.headers =
        pairsOf cfg.headers + (added.flatMap fun c => cookiePairs (write c) : List Bytes)) := by
  have hpairs : pairsOf (doHeader go cfg) = pairsOf cfg.headers :=
    pairsOf_congr fun _ hkey => lookup_doHeader_cookie hcookie hkey
  have hunread : unread (doHeader go cfg) = unread cfg.headers := by
    rw [unread, unread, cookieValues, cookieValues, lookup_doHeader_cookie hcookie isCookieName_cookie]
  refine ⟨fun hnil => ?_, fun hadded => ?_⟩
  · rw [sentHeader, hnil, List.foldl_nil, hpairs]
  · rw [sentHeader, ← hunread, pairsOf_addCookies hadded, hpairs]

end Steps

/-! ## What the crumble loses -/

/-- With or without the crumble, a request has the pairs of its header, those of its cookies and those of the jar. -/
def LosesNothing (go : ToLower) (write : Cookie → Bytes) (opts : C.RequestOptions) (crumb : ℤ) (jar : List Cookie) :
    Prop :=
  let on := requestConfigFromOptions { opts with cookieCrumb := crumb }
  let off := requestConfigFromOptions { opts with cookieCrumb := 0 }
  pairsOf (sentHeader go write on jar) = pairsOf (sentHeader go write off jar) ∧
    pairsOf (sentHeader go write off jar) =
      pairsOf (cHeadersToHTTP opts.headers) +
        ((ownCookies off ++ jar).flatMap fun c => cookiePairs (write c) : List Bytes)

/-- A single value has no pair behind a semicolon and a blank; of several, only the first has pairs. -/
def KeepsAll : List Bytes → Prop
  | [v] => ∀ v₁ v₂, v = v₁ ++ utf8 "; " ++ v₂ → cookiePairs v₂ = []
  | values => ∀ v ∈ values.tail, cookiePairs v = []

section Crumble

variable {header : Header} {values : List Bytes} {part v v₁ v₂ : Bytes}

/-- The first part stands before the first separator. -/
theorem splitPairs_cases (part v : Bytes) :
    splitPairs part v = [part.reverse ++ v] ∨
      ∃ v₁ v₂, v = v₁ ++ 59 :: 32 :: v₂ ∧ splitPairs part v = (part.reverse ++ v₁) :: splitPairs [] v₂ := by
  fun_induction splitPairs part v with
  | case1 part => exact .inl (by rw [List.append_nil])
  | case2 part rest ih => exact .inr ⟨[], rest, rfl, by rw [List.append_nil]⟩
  | case3 part b rest hsep ih =>
    rw [List.reverse_cons, List.append_assoc] at ih
    rcases ih with hone | ⟨v₁, v₂, rfl, hsplit⟩
    · exact .inl hone
    · rw [List.append_assoc] at hsplit
      exact .inr ⟨b :: v₁, v₂, rfl, hsplit⟩

/-- What is behind the first cut has no pairs. -/
theorem cookiePairs_behind (heq : v = v₁ ++ 59 :: 32 :: v₂)
    (htail : (splitPairs part v).tail.flatMap cookiePairs = []) : cookiePairs v₂ = [] := by
  fun_induction splitPairs part v generalizing v₁ with
  | case1 part => exact absurd heq.symm (List.append_ne_nil_of_right_ne_nil _ (List.cons_ne_nil _ _))
  | case2 part rest ih =>
    rw [List.tail_cons, flatMap_splitPairs, List.reverse_nil, List.nil_append] at htail
    match v₁, heq with
    | [], heq =>
      obtain ⟨-, -, rfl⟩ := List.cons_eq_cons.mp heq |>.imp_right List.cons_eq_cons.mp
      exact htail
    | [_], heq => exact absurd (List.cons.inj (List.cons.inj heq).2).1 (by decide)
    | _ :: _ :: v₁, heq =>
      have hrest := (List.cons.inj (List.cons.inj heq).2).2
      rw [hrest, List.append_eq, cookiePairs_append] at htail
      exact (List.append_eq_nil_iff.mp htail).2
  | case3 part b rest hsep ih =>
    match v₁, heq with
    | [], heq =>
      obtain ⟨rfl, rfl⟩ := List.cons.inj heq
      exact absurd rfl (hsep v₂ rfl)
    | _ :: v₁, heq => exact ih (List.cons.inj heq).2 htail

/-- The parts behind the first have no pairs exactly if none stands behind a separator. -/
theorem tail_splitPairs_iff : (splitPairs [] v).tail.flatMap cookiePairs = [] ↔ KeepsAll [v] := by
  constructor
  · intro htail v₁ v₂ heq
    exact cookiePairs_behind (heq.trans (List.append_assoc _ _ _)) htail
  · intro hkeeps
    rcases splitPairs_cases [] v with hone | ⟨v₁, v₂, heq, hsplit⟩
    · rw [hone]
      rfl
    · rw [hsplit, List.tail_cons, flatMap_splitPairs]
      exact hkeeps v₁ v₂ (heq.trans (List.append_assoc v₁ (utf8 "; ") v₂).symm)

/-- The crumbs leave nothing unread exactly if they keep all values. -/
theorem unread_crumbleCookies_iff : unread (crumbleCookies header) = 0 ↔ KeepsAll (cookieValues header) := by
  rw [unread, Multiset.coe_eq_zero]
  cases hcookie : header.lookup (utf8 "Cookie") with
  | none =>
    have hvalues : cookieValues header = [] := by rw [cookieValues, hcookie, Option.getD_none]
    have hcrumble : crumbleCookies header = header := by rw [crumbleCookies, hcookie]
    rw [hcrumble, hvalues]
    exact iff_of_true rfl fun v hv => absurd hv List.not_mem_nil
  | some values =>
    have hvalues : cookieValues header = values := by rw [cookieValues, hcookie, Option.getD_some]
    -- `crumbleCookies` splits a single value and leaves several ones alone
    rcases values with _ | ⟨cv, _ | ⟨second, rest⟩⟩
    · have hcrumble : crumbleCookies header = header := by rw [crumbleCookies, hcookie]
      rw [hcrumble, hvalues]
      exact iff_of_true rfl fun v hv => absurd hv List.not_mem_nil
    · have hcrumble : (cookieValues (crumbleCookies header)).tail = (splitPairs [] cv).tail := by
        rw [crumbleCookies, hcookie]
        dsimp only
        split_ifs with hlength
        · rw [cookieValues, SortedMap.lookup_set, if_pos rfl, Option.getD_some]
        · rw [hvalues, List.tail_cons]
          have htail : (splitPairs [] cv).tail.length = 0 := by
            rw [List.length_tail]
            omega
          exact (List.length_eq_zero_iff.mp htail).symm
      rw [hcrumble, hvalues]
      exact tail_splitPairs_iff
    · have hcrumble : crumbleCookies header = header := by rw [crumbleCookies, hcookie]
      rw [hcrumble, hvalues, List.flatMap_eq_nil_iff]
      rfl

/-- Where all values are kept, nothing was unread before. -/
theorem unread_of_keepsAll (hkeeps : KeepsAll (cookieValues header)) : unread header = 0 := by
  rw [unread, Multiset.coe_eq_zero, List.flatMap_eq_nil_iff]
  rcases hvalues : cookieValues header with _ | ⟨cv, _ | ⟨second, rest⟩⟩
  · exact fun v hv => absurd hv List.not_mem_nil
  · exact fun v hv => absurd hv List.not_mem_nil
  · exact fun v hv => (hvalues ▸ hkeeps) v hv

/-- The crumbs keep the header. -/
theorem HasCookie.crumbleCookies (hcookie : HasCookie header) : HasCookie (crumbleCookies header) := by
  obtain ⟨key, hkey, hsome⟩ := hcookie
  refine ⟨key, hkey, ?_⟩
  rw [Engine.crumbleCookies]
  split
  · dsimp only
    split_ifs
    · rw [SortedMap.lookup_set]
      split_ifs
      · rfl
      · exact hsome
    · exact hsome
  · exact hsome

end Crumble

/-- The crumble loses nothing exactly if no cookie is added, or the `Cookie` header keeps all of its pairs. -/
theorem losesNothing_iff (go : ToLower) (write : Cookie → Bytes) (opts : C.RequestOptions) {crumb : ℤ}
    (jar : List Cookie) (hcrumb : crumb ≠ 0) (hcookie : HasCookie (cHeadersToHTTP opts.headers)) :
    LosesNothing go write opts crumb jar ↔
      opts.requestCookies = [] ∧ jar = [] ∨ KeepsAll (cookieValues (cHeadersToHTTP opts.headers)) := by
  have hon : (requestConfigFromOptions { opts with cookieCrumb := crumb }).headers =
      crumbleCookies (cHeadersToHTTP opts.headers) := if_pos hcrumb
  have hoff : (requestConfigFromOptions { opts with cookieCrumb := 0 }).headers = cHeadersToHTTP opts.headers := rfl
  obtain ⟨honNone, honSome⟩ := pairsOf_sentHeader go write (hon ▸ hcookie.crumbleCookies) jar
  obtain ⟨hoffNone, hoffSome⟩ := pairsOf_sentHeader go write (hoff ▸ hcookie) jar
  rw [hon, pairsOf_crumbleCookies] at honNone honSome
  rw [hoff] at hoffNone hoffSome
  rw [LosesNothing]
  -- adding a cookie reads the first value back and drops the others
  by_cases hadded : opts.requestCookies = [] ∧ jar = []
  · have hnil : ownCookies (requestConfigFromOptions { opts with cookieCrumb := 0 }) ++ jar = [] := by
      rw [hadded.2, List.append_nil, ownCookies, List.map_eq_nil_iff]
      exact List.map_eq_nil_iff.mpr hadded.1
    refine iff_of_true ⟨(honNone hnil).trans (hoffNone hnil).symm, ?_⟩ (.inl hadded)
    rw [hoffNone hnil, hnil]
    exact (add_zero _).symm
  · have hne : ownCookies (requestConfigFromOptions { opts with cookieCrumb := 0 }) ++ jar ≠ [] := by
      intro hnil
      obtain ⟨hown, hjar⟩ := List.append_eq_nil_iff.mp hnil
      exact hadded ⟨List.map_eq_nil_iff.mp (List.map_eq_nil_iff.mp hown), hjar⟩
    rw [or_iff_right hadded, ← unread_crumbleCookies_iff]
    have hlossOn := honSome hne
    have hlossOff := hoffSome hne
    constructor
    · rintro ⟨hsame, hall⟩
      rw [hsame, hall] at hlossOn
      exact add_eq_left.mp hlossOn
    · intro hunread
      rw [unread_of_keepsAll (unread_crumbleCookies_iff.mp hunread), add_zero] at hlossOff
      rw [hunread, add_zero] at hlossOn
      exact ⟨hlossOn.trans hlossOff.symm, hlossOff⟩

/-- A request of a session with a cookie of its own, and a header with two pairs under the given name. -/
def twoPairsOptions (headerName : String) : C.RequestOptions :=
  fillRequestOptions (resolvedSync { requestCookies := some (PyDict.empty.set "c" "3") } {} "https://h/")
    { method := "GET", url := "https://h/", headers := some (PyDict.empty.set headerName "a=1; b=2") } []

/-- The text of a cookie whose name and value need no change. -/
def writePlain (c : Cookie) : Bytes := c.name ++ utf8 "=" ++ c.value

/-- A `cookie` header in lower case is not crumbled, and nothing is added to it. -/
theorem losesNothing_lowerCase : LosesNothing plainToLower writePlain (twoPairsOptions "cookie") 1 [] := by
  have hvalues : cookieValues (cHeadersToHTTP (twoPairsOptions "cookie").headers) = [] := by decide +kernel
  refine (losesNothing_iff plainToLower writePlain (twoPairsOptions "cookie") [] one_ne_zero
    ⟨utf8 "cookie", by decide, by decide +kernel⟩).mpr (.inr ?_)
  rw [hvalues]
  exact nofun

/-- With the crumble, the cookie of the session takes the place of the second pair. -/
theorem crumble_loses_pair :
    HasCookie (cHeadersToHTTP (twoPairsOptions "Cookie").headers) ∧
      pairsOf (sentHeader plainToLower writePlain
        (requestConfigFromOptions { twoPairsOptions "Cookie" with cookieCrumb := 1 }) []) =
          {utf8 "a=1", utf8 "c=3"} ∧
      ¬LosesNothing plainToLower writePlain (twoPairsOptions "Cookie") 1 [] := by
  refine ⟨⟨utf8 "Cookie", by decide, by decide +kernel⟩, by decide +kernel, fun hlosesNothing => ?_⟩
  exact absurd hlosesNothing.1 (by decide +kernel)

end TlsClient.Engine
