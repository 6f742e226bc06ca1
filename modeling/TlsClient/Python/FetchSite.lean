import TlsClient.Compat.RedirectCredentials
import TlsClient.Library.DomainName
import TlsClient.Library.SplitText
import TlsClient.Python.Headers

/-!
# `Sec-Fetch-Site`

`compute_fetch_site` of `src/tls_client/context.py` on the parts of two URLs. It compares their hosts and, where they
differ, the last two labels of these in place of the registrable domain; it looks at neither scheme nor port. So
hosts with a registrable domain in common are the same site, and names under a public suffix of two labels are too
(`computeFetchSite_eq`).
-/

namespace TlsClient.Python

open Compat DomainName

/-- What the context of a request uses of `str` and of `urllib.parse`: `hostname` is that of `urlsplit`, where this
does not raise. -/
structure ContextLib extends StrLib where
  web : WebLib
  lower_eq : ∀ s, lower s = String.ofList (web.lower s.toList)
  hostname_eq : ∀ url parsed, web.urlsplit url.toList = .ok parsed →
    hostname url = (parsed.hostname web.toStdlib).map String.ofList

variable {lib : ContextLib} {url target referrer : String} {parsed t r : SplitResult}

/-- `compute_fetch_site`, which raises what `urlsplit` raises. -/
def ContextLib.computeFetchSite (lib : ContextLib) (targetUrl : String) (referrer : Option String) :
    Except PyError String :=
  if referrer.getD "" = "" then .ok "none"
  else do
    let _ ← lib.web.urlsplit targetUrl.toList
    let _ ← lib.web.urlsplit (referrer.getD "").toList
    return Python.computeFetchSite lib.toStrLib targetUrl referrer

/-! ## Hosts -/

/-- The host up to its case, empty where there is none. -/
def ContextLib.hostOf (lib : ContextLib) (parsed : SplitResult) : Text :=
  lib.web.lower ((parsed.hostname lib.web.toStdlib).getD [])

def ContextLib.labelsOf (lib : ContextLib) (parsed : SplitResult) : List Text :=
  (lib.hostOf parsed).splitOn '.'

/-- The labels that the heuristic compares: the last two, or all if there are fewer. -/
def lastTwo (labels : List Text) : List Text :=
  labels.drop (labels.length - 2)

/-- The parts of an absolute `http` or `https` URL. -/
structure ContextLib.Absolute (lib : ContextLib) (url : String) (parsed : SplitResult) : Prop where
  nonempty : url ≠ ""
  split : lib.web.urlsplit url.toList = .ok parsed
  scheme : parsed.scheme = "http".toList ∨ parsed.scheme = "https".toList
  host : lib.hostOf parsed ≠ []
  port : parsed.effectivePort ≠ none

/-- The host is an IP address. -/
def IsAddress (host : Text) : Prop :=
  ':' ∈ host ∨ (host.splitOn '.').length = 4 ∧ ∀ label ∈ host.splitOn '.', label ≠ [] ∧ ∀ c ∈ label, c.isDigit

/-- The host name of a URL, in lower case. -/
theorem lower_hostname (h : lib.web.urlsplit url.toList = .ok parsed) :
    lib.lower ((lib.hostname url).getD "") = String.ofList (lib.hostOf parsed) := by
  rw [lib.lower_eq, lib.hostname_eq url parsed h, ContextLib.hostOf]
  cases parsed.hostname lib.web.toStdlib with
  | none => rfl
  | some host => rw [Option.map_some, Option.getD_some, Option.getD_some, String.toList_ofList]

/-- The registrable domain is made of the last two labels. -/
theorem registrableDomain_hostOf (lib : ContextLib) (parsed : SplitResult) :
    registrableDomain lib.toStrLib (String.ofList (lib.hostOf parsed)) =
      (String.singleton '.').intercalate ((lastTwo (lib.labelsOf parsed)).map String.ofList) := by
  have hdot : "." = String.singleton '.' := by decide
  have hlower : lib.lower (String.ofList (lib.hostOf parsed)) = String.ofList (lib.hostOf parsed) := by
    rw [lib.lower_eq, String.toList_ofList, ContextLib.hostOf, lib.web.lower_lower]
  rw [registrableDomain, hlower, hdot, SplitText.splitOn_singleton, String.toList_ofList, ← ContextLib.labelsOf,
    List.length_map, lastTwo, List.map_drop]
  split_ifs with hshort
  · rw [Nat.sub_eq_zero_of_le hshort, List.drop_zero]
  · rfl

/-- There are last labels. -/
theorem lastTwo_ne_nil {labels : List Text} (h : labels ≠ []) : lastTwo labels ≠ [] := by
  have hpos := List.length_pos_iff.mpr h
  rw [lastTwo, Ne, List.drop_eq_nil_iff]
  omega

theorem dot_not_mem_lastTwo {host : Text} : ∀ label ∈ lastTwo (host.splitOn '.'), '.' ∉ label :=
  fun _ hlabel => not_mem_of_mem_splitOn (List.mem_of_mem_drop hlabel)

/-- The heuristic compares the last two labels. -/
theorem registrableDomain_eq_iff :
    registrableDomain lib.toStrLib (String.ofList (lib.hostOf t)) =
      registrableDomain lib.toStrLib (String.ofList (lib.hostOf r)) ↔
      lastTwo (lib.labelsOf t) = lastTwo (lib.labelsOf r) := by
  rw [registrableDomain_hostOf, registrableDomain_hostOf]
  exact SplitText.intercalate_inj (lastTwo_ne_nil (List.splitOn_ne_nil _ _))
    (lastTwo_ne_nil (List.splitOn_ne_nil _ _)) dot_not_mem_lastTwo dot_not_mem_lastTwo

/-! ## The site of two URLs -/

/-- The site by hosts and labels. -/
def ContextLib.siteOf (lib : ContextLib) (t r : SplitResult) : String :=
  if lib.hostOf t = lib.hostOf r then "same-origin"
  else if lastTwo (lib.labelsOf t) = lastTwo (lib.labelsOf r) then "same-site" else "cross-site"

/-- When two URLs are of the same origin. -/
theorem siteOf_eq_sameOrigin_iff : lib.siteOf t r = "same-origin" ↔ lib.hostOf t = lib.hostOf r := by
  have hsite : "same-site" ≠ "same-origin" := by decide
  have hcross : "cross-site" ≠ "same-origin" := by decide
  rw [ContextLib.siteOf]
  split_ifs with hhosts
  · exact iff_of_true rfl hhosts
  · exact iff_of_false hsite hhosts
  · exact iff_of_false hcross hhosts

/-- When they are of the same site. -/
theorem siteOf_eq_sameSite_iff : lib.siteOf t r = "same-site" ↔
    lib.hostOf t ≠ lib.hostOf r ∧ lastTwo (lib.labelsOf t) = lastTwo (lib.labelsOf r) := by
  have horigin : "same-origin" ≠ "same-site" := by decide
  have hcross : "cross-site" ≠ "same-site" := by decide
  rw [ContextLib.siteOf]
  split_ifs with hhosts htwo
  · exact iff_of_false horigin fun h => h.1 hhosts
  · exact iff_of_true rfl ⟨hhosts, htwo⟩
  · exact iff_of_false hcross fun h => htwo h.2

/-- The site of two absolute URLs. -/
theorem computeFetchSite_eq (ht : lib.Absolute target t) (hr : lib.Absolute referrer r) :
    lib.computeFetchSite target (some referrer) = .ok (lib.siteOf t r) := by
  have hempty : ∀ a : Text, a ≠ [] → String.ofList a ≠ "" := fun a ha h => ha (String.ofList_inj.mp h)
  rw [ContextLib.computeFetchSite, Option.getD_some, if_neg hr.nonempty, ht.split, hr.split]
  show Except.ok (Python.computeFetchSite lib.toStrLib target (some referrer)) = _
  rw [Python.computeFetchSite, Option.getD_some, if_neg hr.nonempty]
  dsimp only
  rw [lower_hostname ht.split, lower_hostname hr.split, if_neg (not_or.mpr ⟨hempty _ ht.host, hempty _ hr.host⟩)]
  simp only [String.ofList_inj, registrableDomain_eq_iff]
  rfl

/-- Of a name with a registrable domain, the last two labels are those of the domain. -/
theorem lastTwo_of_registrable {suffixes : PublicSuffixes Text} {labels d : List Text}
    (h : Registrable suffixes labels d) : lastTwo labels = lastTwo d := by
  obtain ⟨label, s, rfl, hd, -, hlongest⟩ := h
  obtain ⟨front, rfl⟩ := hd
  have hone : 1 ≤ s.length := by
    obtain ⟨last, hlast⟩ : ∃ last, [last] <:+ front ++ label :: s := by
      refine ⟨(label :: s).getLast (List.cons_ne_nil _ _), front ++ (label :: s).dropLast, ?_⟩
      rw [List.append_assoc, List.dropLast_append_getLast]
    exact hlongest _ hlast (suffixes.last last)
  rw [lastTwo, lastTwo, List.length_append, List.length_cons, Nat.add_sub_assoc (by omega), List.drop_append,
    List.drop_of_length_le (by omega), List.nil_append, Nat.add_sub_cancel_left]

/-- What the site of two URLs says of their parts. Where a host has no registrable domain, or one of the URLs is not
of the scheme of the other, only what `same-origin` and `same-site` imply is said. -/
structure Classified (lib : ContextLib) (t r : SplitResult) (site : String) : Prop where
  one_of : site = "same-origin" ∨ site = "same-site" ∨ site = "cross-site"
  origin : t.origin lib.web.toStdlib = r.origin lib.web.toStdlib → site = "same-origin"
  hosts : site = "same-origin" → lib.hostOf t = lib.hostOf r
  labels : site = "same-site" → lib.hostOf t ≠ lib.hostOf r ∧ lastTwo (lib.labelsOf t) = lastTwo (lib.labelsOf r)
  names : t.scheme = r.scheme → ¬IsAddress (lib.hostOf t) → ¬IsAddress (lib.hostOf r) →
    lib.hostOf t ≠ lib.hostOf r → lastTwo (lib.labelsOf t) = lastTwo (lib.labelsOf r) → site = "same-site"
  shared : t.scheme = r.scheme → ¬IsAddress (lib.hostOf t) → ¬IsAddress (lib.hostOf r) →
    lib.hostOf t ≠ lib.hostOf r → ∀ (suffixes : PublicSuffixes Text) (d : List Text),
      Registrable suffixes (lib.labelsOf t) d → Registrable suffixes (lib.labelsOf r) d → site = "same-site"
  pairs : site = "same-site" → ∀ (suffixes : PublicSuffixes Text) (d d' : List Text),
    Registrable suffixes (lib.labelsOf t) d → Registrable suffixes (lib.labelsOf r) d' →
      d.length = 2 → d'.length = 2 → d = d'

/-- The site of a request from one URL to another. -/
theorem computeFetchSite_classified (ht : lib.Absolute target t) (hr : lib.Absolute referrer r) :
    ∃ site, lib.computeFetchSite target (some referrer) = .ok site ∧ Classified lib t r site := by
  refine ⟨_, computeFetchSite_eq ht hr, ?_⟩
  constructor
  · rw [ContextLib.siteOf]
    split_ifs
    · exact .inl rfl
    · exact .inr (.inl rfl)
    · exact .inr (.inr rfl)
  · intro horigin
    have hhost : t.hostname lib.web.toStdlib = r.hostname lib.web.toStdlib := congrArg Origin.host horigin
    rw [siteOf_eq_sameOrigin_iff, ContextLib.hostOf, ContextLib.hostOf, hhost]
  · exact siteOf_eq_sameOrigin_iff.mp
  · exact siteOf_eq_sameSite_iff.mp
  · exact fun _ _ _ hne htwo => siteOf_eq_sameSite_iff.mpr ⟨hne, htwo⟩
  · intro _ _ _ hne suffixes d hd hd'
    exact siteOf_eq_sameSite_iff.mpr ⟨hne, (lastTwo_of_registrable hd).trans (lastTwo_of_registrable hd').symm⟩
  · intro h suffixes d d' hd hd' hlength hlength'
    have htwo := (siteOf_eq_sameSite_iff.mp h).2
    rw [lastTwo_of_registrable hd, lastTwo_of_registrable hd', lastTwo, lastTwo, hlength, hlength'] at htwo
    exact htwo

/-! ## Names under a longer public suffix -/

/-- ASCII and plain URLs. -/
def plainContext : ContextLib where
  casefold s := String.ofList (s.toList.map Char.toLower)
  lower s := String.ofList (s.toList.map Char.toLower)
  hostname url := ((splitPlain url.toList).hostname plainWeb.toStdlib).map String.ofList
  casefold_contextHeaders := by decide
  web := plainWeb
  lower_eq _ := rfl
  hostname_eq url parsed h := by rw [← Except.ok.inj h]

/-- One site of two hosts below `a.com`. -/
theorem computeFetchSite_classified_sub :
    ∃ t r site, plainContext.Absolute "https://x.a.com/x" t ∧ plainContext.Absolute "https://y.a.com/" r ∧
      plainContext.computeFetchSite "https://x.a.com/x" (some "https://y.a.com/") = .ok site ∧
      Classified plainContext t r site := by
  have ht : plainContext.Absolute "https://x.a.com/x" (splitPlain "https://x.a.com/x".toList) :=
    ⟨by decide, rfl, .inr (by decide), by decide, by decide⟩
  have hr : plainContext.Absolute "https://y.a.com/" (splitPlain "https://y.a.com/".toList) :=
    ⟨by decide, rfl, .inr (by decide), by decide, by decide⟩
  obtain ⟨site, hsite, hclassified⟩ := computeFetchSite_classified ht hr
  exact ⟨_, _, site, ht, hr, hsite, hclassified⟩

/-- What browsers send, with the registrable domains of a list of public suffixes. -/
structure Browserlike (lib : ContextLib) (suffixes : PublicSuffixes Text) (t r : SplitResult) (site : String) :
    Prop where
  sameOrigin : site = "same-origin" ↔ t.origin lib.web.toStdlib = r.origin lib.web.toStdlib
  sameSite : site = "same-site" → t.scheme = r.scheme ∧
    ∃ d, Registrable suffixes (lib.labelsOf t) d ∧ Registrable suffixes (lib.labelsOf r) d

/-- Anybody can register a name under `co.uk`. -/
def coUk : PublicSuffixes Text where
  holds s := s.length = 1 ∨ s = ["co".toList, "uk".toList]
  last _ := .inl rfl

/-- Two names under `co.uk` are taken for one site. -/
theorem not_browserlike :
    ¬∀ (lib : ContextLib) (suffixes : PublicSuffixes Text) (target referrer : String) (t r : SplitResult),
      lib.Absolute target t → lib.Absolute referrer r →
      ∃ site, lib.computeFetchSite target (some referrer) = .ok site ∧ Browserlike lib suffixes t r site := by
  intro hall
  have ht : plainContext.Absolute "https://a.co.uk/" (splitPlain "https://a.co.uk/".toList) :=
    ⟨by decide, rfl, .inr (by decide), by decide, by decide⟩
  have hr : plainContext.Absolute "https://b.co.uk/" (splitPlain "https://b.co.uk/".toList) :=
    ⟨by decide, rfl, .inr (by decide), by decide, by decide⟩
  obtain ⟨site, hsite, hbrowser⟩ := hall _ coUk _ _ _ _ ht hr
  have hsame : plainContext.siteOf (splitPlain "https://a.co.uk/".toList) (splitPlain "https://b.co.uk/".toList) =
      "same-site" := by decide
  rw [computeFetchSite_eq ht hr, hsame] at hsite
  obtain ⟨-, d, hd, hd'⟩ := hbrowser.sameSite (Except.ok.inj hsite).symm
  -- the registrable domains are the names themselves
  have hlabels : plainContext.labelsOf (splitPlain "https://a.co.uk/".toList) =
      ["a".toList, "co".toList, "uk".toList] := by decide
  have hlabels' : plainContext.labelsOf (splitPlain "https://b.co.uk/".toList) =
      ["b".toList, "co".toList, "uk".toList] := by decide
  rw [hlabels] at hd
  rw [hlabels'] at hd'
  have hthree : ∀ first : Text, Registrable coUk [first, "co".toList, "uk".toList] [first, "co".toList, "uk".toList] := by
    intro first
    refine ⟨first, _, rfl, List.suffix_refl _, .inr rfl, fun s _ hs => ?_⟩
    rcases hs with hs | rfl
    · rw [hs]
      decide
    · exact Nat.le_refl _
  have heq := ((hthree _).unique hd).trans (hd'.unique (hthree _))
  revert heq
  decide

end TlsClient.Python
