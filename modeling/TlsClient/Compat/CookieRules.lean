import TlsClient.Compat.Cookies

/-!
# The cookies of a request, by RFC 6265

`cookie_header` of `src/tls_client/cookies.py` takes the cookies whose domain the host of the URL is or lies below,
and whose path the path of the URL starts with. RFC 6265 takes fewer: a cookie that was set without a `Domain`
attribute goes to its own host only, nothing lies below an IP address, and a path ends at a slash.
`selects_iff_within` says for which jars and URLs both take the same.
-/

namespace TlsClient.Compat

open TlsClient.Python

/-- A part of an IPv4 address. -/
def isOctet (s : Text) : Bool :=
  s ≠ [] && s.length ≤ 3 && s.all Char.isDigit && s.foldl (fun n c => 10 * n + (c.toNat - 48)) 0 ≤ 255

/-- The host of a URL is an IP address; `hostname` has no brackets. -/
def isIpAddress (host : Text) : Bool :=
  host.contains ':' ||
    match host.splitOn '.' with
    | [a, b, c, d] => isOctet a && isOctet b && isOctet c && isOctet d
    | _ => false

/-- The host domain-matches the domain. -/
def DomainMatch (host domain : Text) : Prop :=
  host = domain ∨ '.' :: domain <:+ host ∧ isIpAddress host = false

/-- The path path-matches the path of a cookie. -/
def PathMatch (path cookiePath : Text) : Prop :=
  path = cookiePath ∨ cookiePath <+: path ∧ (['/'] <:+ cookiePath ∨ cookiePath ++ ['/'] <+: path)

/-- The cookie belongs into the header; `hostOnly` are the cookies that were set without a `Domain` attribute. -/
def Selected (hostOnly : CookieKey → Prop) (key : CookieKey) (host path : Text) : Prop :=
  (hostOnly key ∧ host = key.domain ∨ ¬ hostOnly key ∧ DomainMatch host (bareDomain key.domain)) ∧
    PathMatch path key.path

/-- `cookie_header` takes just the cookies with a domain that belong into the header, in the order of the jar. -/
def Selects (lib : Stdlib) (hostOnly : CookieKey → Prop) (jar : RequestsCookieJar) (parsed : SplitUrl) : Prop :=
  (sentCookies lib jar parsed).Sublist jar.items ∧ (sentCookies lib jar parsed).Nodup ∧
    ∀ item ∈ jar.items, item.1.domain ≠ [] →
      (item ∈ sentCookies lib jar parsed ↔
        Selected hostOnly item.1 (parsed.host lib) (textOr parsed.path ['/']))

/-- What the two tests of `cookie_header` leave out: the host is the cookie's own where the cookie was set
without a `Domain` attribute, and where it is an IP address, and the path goes on at a slash. -/
structure Within (hostOnly : CookieKey → Prop) (key : CookieKey) (host path : Text) : Prop where
  own : hostOnly key → host = key.domain
  ipAddress : ¬ hostOnly key → isIpAddress host = true → host = bareDomain key.domain
  boundary : path = key.path ∨ ['/'] <:+ key.path ∨ key.path ++ ['/'] <+: path

/-! ## The tests of `cookie_header` -/

/-- A domain matches itself, with or without leading dots. -/
theorem domainMatches_bareDomain (domain : Text) : DomainMatches domain (bareDomain domain) := by
  induction domain with
  | nil => exact .inl rfl
  | cons c rest ih =>
    by_cases hc : c = '.'
    · subst hc
      have hbare : bareDomain ('.' :: rest) = bareDomain rest := List.dropWhile_cons_of_pos rfl
      rw [hbare]
      rcases ih with heq | hsuffix
      · exact .inr (heq ▸ List.suffix_rfl)
      · exact .inr (hsuffix.trans (List.suffix_cons _ _))
    · have hbare : bareDomain (c :: rest) = c :: rest := List.dropWhile_cons_of_neg (by simpa using hc)
      exact .inl hbare.symm

/-- A path that matches begins with that of the cookie. -/
theorem PathMatch.isPrefix {path cookiePath : Text} (hmatch : PathMatch path cookiePath) : cookiePath <+: path := by
  rcases hmatch with rfl | ⟨hstart, -⟩
  · exact List.prefix_rfl
  · exact hstart

/-- A host that matches by the rules matches here. -/
theorem DomainMatch.domainMatches {host domain : Text} (hmatch : DomainMatch host domain) :
    DomainMatches host domain := by
  rcases hmatch with heq | ⟨hsuffix, -⟩
  · exact .inl heq
  · exact .inr hsuffix

/-- What belongs into the header passes the tests. -/
theorem Selected.sentTo {hostOnly : CookieKey → Prop} {key : CookieKey} {host path : Text}
    (hselected : Selected hostOnly key host path) : key.SentTo host path := by
  obtain ⟨hdomain, hpath⟩ := hselected
  refine ⟨fun _ => ?_, hpath.isPrefix⟩
  rcases hdomain with ⟨-, rfl⟩ | ⟨-, hmatch⟩
  · exact domainMatches_bareDomain key.domain
  · exact hmatch.domainMatches

/-- What passes the tests belongs into the header if it keeps within what they leave out. -/
theorem selected_iff_within {hostOnly : CookieKey → Prop} {key : CookieKey} {host path : Text}
    (hdomain : key.domain ≠ []) (hsent : key.SentTo host path) :
    Selected hostOnly key host path ↔ Within hostOnly key host path := by
  obtain ⟨hmatches, hstart⟩ := hsent
  constructor
  · rintro ⟨hselected, hpath⟩
    refine ⟨fun honly => ?_, fun honly hip => ?_, ?_⟩
    · rcases hselected with ⟨-, heq⟩ | ⟨hnot, -⟩
      · exact heq
      · exact absurd honly hnot
    · rcases hselected with ⟨honly', -⟩ | ⟨-, heq | ⟨-, hnotip⟩⟩
      · exact absurd honly' honly
      · exact heq
      · rw [hip] at hnotip
        contradiction
    · rcases hpath with heq | ⟨-, hboundary⟩
      · exact .inl heq
      · exact .inr hboundary
  -- the code's own branches: host-only first, then the suffix, an IP only whole
  · rintro ⟨honly, hip, hboundary⟩
    refine ⟨?_, ?_⟩
    · by_cases hkey : hostOnly key
      · exact .inl ⟨hkey, honly hkey⟩
      · refine .inr ⟨hkey, ?_⟩
        rcases hmatches hdomain with heq | hsuffix
        · exact .inl heq
        · cases hipHost : isIpAddress host with
          | true => exact .inl (hip hkey hipHost)
          | false => exact .inr ⟨hsuffix, hipHost⟩
    · rcases hboundary with heq | hboundary
      · exact .inl heq
      · exact .inr ⟨hstart, hboundary⟩

/-! ## The header -/

/-- `cookie_header` follows the rules for a jar and a URL exactly if every cookie with a domain that passes its
tests keeps within what they leave out. -/
theorem selects_iff_within (lib : Stdlib) (hostOnly : CookieKey → Prop) (jar : RequestsCookieJar)
    (parsed : SplitUrl) :
    Selects lib hostOnly jar parsed ↔
      ∀ item ∈ jar.items, item.1.domain ≠ [] → item.1.SentTo (parsed.host lib) (textOr parsed.path ['/']) →
        Within hostOnly item.1 (parsed.host lib) (textOr parsed.path ['/']) := by
  have hsublist : (sentCookies lib jar parsed).Sublist jar.items := List.filter_sublist
  have hnodup : (sentCookies lib jar parsed).Nodup := hsublist.nodup (List.Nodup.of_map _ jar.nodup)
  have hmem : ∀ item ∈ jar.items, item ∈ sentCookies lib jar parsed ↔
      item.1.SentTo (parsed.host lib) (textOr parsed.path ['/']) := by
    intro item hitem
    rw [sentTo_of_mem_sentCookies, and_iff_right hitem]
  constructor
  · rintro ⟨-, -, hselects⟩ item hitem hdomain hsent
    refine (selected_iff_within hdomain hsent).mp ?_
    exact (hselects item hitem hdomain).mp ((hmem item hitem).mpr hsent)
  · intro hwithin
    refine ⟨hsublist, hnodup, fun item hitem hdomain => ?_⟩
    rw [hmem item hitem]
    constructor
    · exact fun hsent => (selected_iff_within hdomain hsent).mpr (hwithin item hitem hdomain hsent)
    · exact Selected.sentTo

/-- The cookie of a response without a `Domain` attribute is stored under its host. -/
theorem domain_morselKey {lib : Stdlib} {parsed : SplitUrl} {cookie : Text × Morsel} (hdomain : cookie.2.domain = []) :
    (morselKey lib (parsed.host lib) cookie).domain = parsed.host lib := by
  rw [morselKey, RequestsCookieJar.key, textOr, if_pos hdomain]
  exact lower_host parsed

/-- So it passes the tests for every host below. -/
theorem sentTo_below {lib : Stdlib} {parsed : SplitUrl} {cookie : Text × Morsel} {path : Text}
    (hdomain : cookie.2.domain = []) (hpath : (morselKey lib (parsed.host lib) cookie).path <+: path) (label : Text) :
    (morselKey lib (parsed.host lib) cookie).SentTo (label ++ '.' :: parsed.host lib) path := by
  refine ⟨fun _ => .inr ?_, hpath⟩
  rw [domain_morselKey hdomain]
  have hbelow : '.' :: parsed.host lib <:+ label ++ '.' :: parsed.host lib := List.suffix_append _ _
  rcases domainMatches_bareDomain (parsed.host lib) with heq | hsuffix
  · rw [← heq]
    exact hbelow
  · exact hsuffix.trans ((List.suffix_cons _ _).trans hbelow)

/-- `/foobar` gets the cookie for `/foo`. -/
theorem foobar_gets_foo :
    ¬ ∀ (lib : Stdlib) (hostOnly : CookieKey → Prop) (jar : RequestsCookieJar) (parsed : SplitUrl),
      Selects lib hostOnly jar parsed := by
  intro hselects
  obtain ⟨-, -, h⟩ := hselects asciiStdlib (fun _ => False)
    (RequestsCookieJar.set asciiStdlib .empty "sid".toList (some ['1']) "example.com".toList "/foo".toList)
    ⟨some "example.com".toList, "/foobar".toList⟩
  have hselected := (h _ List.mem_cons_self (by decide)).mp (by decide)
  have hpath : ¬ PathMatch "/foobar".toList "/foo".toList := by
    unfold PathMatch
    decide
  exact hpath hselected.2

end TlsClient.Compat
