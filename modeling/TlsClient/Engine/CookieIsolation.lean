import TlsClient.Engine.CookieHistory
import TlsClient.Library.DomainName
import TlsClient.Library.HostPort

/-!
# The cookies of one host at another

RFC 6265, and the `cookiejar.Jar` that the jar of `src/jar.go` wraps, send a cookie back by its `Domain`, `Path` and
`Secure` attributes. The jar reads none of them: it answers by `buildCookieHostKey`, which is the last two labels of
a host of two or three labels and the whole host of any other (`buildCookieHostKey_eq_iff`).

`cookies_set_for` says from which hosts the cookies of a URL come, and what this means for registrable domains. The
labels are those of `URL.Host`, so that a port belongs to the last one.
-/

namespace TlsClient.Engine.CookieJar

open TlsClient.Ffi Utf8 DomainName

/-- A `url.URL`, as far as a cookie jar reads it. -/
structure RequestUrl where
  scheme : Bytes
  host : Bytes
  path : Bytes
deriving DecidableEq

def dot : UInt8 := 46

def slash : UInt8 := 47

/-- The calls of `SetCookies`, as the jar reads their URLs. -/
def byHost (calls : List (RequestUrl × List Cookie)) : List SetCall :=
  calls.map fun call => (call.1.host, call.2)

/-- Each cookie of `Cookies(u)` was passed for a URL in the relation. -/
def SetFor (config : CookieJarConfig) (calls : List (RequestUrl × List Cookie)) (u : RequestUrl)
    (R : RequestUrl → Cookie → Prop) : Prop :=
  ∀ c ∈ (afterCalls config (byHost calls)).cookies u.host, ∃ call ∈ calls, c ∈ call.2 ∧ R call.1 c

/-! ## What the wrapped jar asks of a cookie -/

/-- `hasDotSuffix` of the wrapped jar. -/
def hasDotSuffix (s domain : Bytes) : Prop := dot :: domain <:+ s

/-- The `Domain` attribute as `domainAndType` reads it. -/
def entryDomain (c : Cookie) : Bytes := if c.domain.head? = some dot then c.domain.tail else c.domain

/-- `domainMatch` -/
def DomainMatch (host domain : Bytes) : Prop := host = domain ∨ hasDotSuffix host domain

/-- `defaultPath` -/
def defaultPath (path : Bytes) : Bytes :=
  if path.head? ≠ some slash then [slash]
  else
    match HostPort.splitLast slash path with
    | some (before, _) => if before = [] then [slash] else before
    | none => [slash]

/-- The path of the entry that `newEntry` makes. -/
def entryPath (v : RequestUrl) (c : Cookie) : Bytes :=
  if c.path.head? = some slash then c.path else defaultPath v.path

/-- `pathMatch` -/
def PathMatch (requestPath path : Bytes) : Prop :=
  requestPath = path ∨ path <+: requestPath ∧ (path.getLast? = some slash ∨ requestPath[path.length]? = some slash)

instance (requestPath path : Bytes) : Decidable (PathMatch requestPath path) :=
  inferInstanceAs (Decidable (_ ∨ _ ∧ _))

/-- The hosts of both URLs are one, or both match the `Domain` attribute. -/
def HostAllowed (u v : RequestUrl) (c : Cookie) : Prop :=
  HostPort.hostname v.host = HostPort.hostname u.host ∨
    c.domain ≠ [] ∧ DomainMatch (HostPort.hostname v.host) (entryDomain c) ∧
      DomainMatch (HostPort.hostname u.host) (entryDomain c)

/-- `Cookies` of the wrapped jar reads an empty path as the root. -/
def PathAllowed (u v : RequestUrl) (c : Cookie) : Prop :=
  PathMatch (if u.path = [] then [slash] else u.path) (entryPath v c)

def SecureAllowed (u : RequestUrl) (c : Cookie) : Prop := c.secure = true → u.scheme = utf8 "https"

/-- The labels of a host without its port. -/
def labels (host : Bytes) : List Bytes := (HostPort.splitPort host).1.splitOn dot

/-- The hosts have the same registrable domain, if they have one. -/
def SameRegistrable (suffixes : PublicSuffixes Bytes) (h u : Bytes) : Prop :=
  ∀ d d', Registrable suffixes (labels h) d → Registrable suffixes (labels u) d' → d = d'

/-- What the wrapped jar would see to: each cookie was set for a URL of its domain, and path and scheme are right. -/
def Isolated (suffixes : PublicSuffixes Bytes) (config : CookieJarConfig) (calls : List (RequestUrl × List Cookie))
    (u : RequestUrl) : Prop :=
  SetFor config calls u fun v c =>
    HostAllowed u v c ∧ PathAllowed u v c ∧ SecureAllowed u c ∧ SameRegistrable suffixes v.host u.host

/-! ## Host keys -/

/-- A host of two or three labels, with these as the last two. -/
def LastTwo (host domain tld : Bytes) : Prop :=
  host.splitOn dot = [domain, tld] ∨ ∃ sub, host.splitOn dot = [sub, domain, tld]

/-- The hosts are one, or have two or three labels each, of which the last two are the same. -/
def SharesKey (h u : Bytes) : Prop :=
  h = u ∨ ∃ domain tld, LastTwo h domain tld ∧ LastTwo u domain tld

/-- The hosts have three labels, of which the last two are a public suffix. -/
def UnderSuffix (suffixes : PublicSuffixes Bytes) (h u : Bytes) : Prop :=
  (labels h).length = 3 ∧ (labels u).length = 3 ∧ suffixes.holds (labels h).tail ∧ (labels h).tail = (labels u).tail

section Keys

variable {h u domain tld domain' tld' : Bytes}

/-- The key of a host with two or three labels. -/
theorem LastTwo.key_eq (hlast : LastTwo h domain tld) : buildCookieHostKey h = domain ++ dot :: tld := by
  rw [buildCookieHostKey]
  rcases hlast with hsplit | ⟨sub, hsplit⟩
  · rw [show h.splitOn 46 = _ from hsplit]
    exact List.append_assoc _ _ _
  · rw [show h.splitOn 46 = _ from hsplit]
    exact List.append_assoc _ _ _

/-- Any other host is its own key. -/
theorem key_eq_self (hnot : ∀ domain tld, ¬LastTwo h domain tld) : buildCookieHostKey h = h := by
  rw [buildCookieHostKey]
  split
  · rename_i sub domain tld hsplit
    exact absurd (.inr ⟨sub, hsplit⟩) (hnot domain tld)
  · rename_i domain tld hsplit
    exact absurd (.inl hsplit) (hnot domain tld)
  · rfl

/-- Labels have no dot. -/
theorem LastTwo.dot_not_mem (hlast : LastTwo h domain tld) : dot ∉ domain ∧ dot ∉ tld := by
  have hmem : domain ∈ h.splitOn dot ∧ tld ∈ h.splitOn dot := by
    rcases hlast with hsplit | ⟨sub, hsplit⟩
    · rw [hsplit]
      simp
    · rw [hsplit]
      simp
  exact ⟨not_mem_of_mem_splitOn hmem.1, not_mem_of_mem_splitOn hmem.2⟩

/-- A key of two labels has these two, so that no other host than one of two or three labels has it. -/
theorem LastTwo.splitOn_key (hlast : LastTwo h domain tld) : (buildCookieHostKey h).splitOn dot = [domain, tld] := by
  rw [hlast.key_eq]
  exact splitOn_pair hlast.dot_not_mem.1 hlast.dot_not_mem.2

/-- A host has a key of two labels, or is its own. -/
theorem lastTwo_or_key_eq (h : Bytes) : (∃ domain tld, LastTwo h domain tld) ∨ buildCookieHostKey h = h := by
  by_cases hex : ∃ domain tld, LastTwo h domain tld
  · exact .inl hex
  · push Not at hex
    exact .inr (key_eq_self hex)

/-- Two hosts share a host key if they are one, or agree in the last two of two or three labels. -/
theorem buildCookieHostKey_eq_iff : buildCookieHostKey h = buildCookieHostKey u ↔ SharesKey h u := by
  constructor
  · intro hkey
    rcases lastTwo_or_key_eq h with ⟨domain, tld, hlast⟩ | hself
    · rcases lastTwo_or_key_eq u with ⟨domain', tld', hlast'⟩ | hself'
      · have hsplit := hlast.splitOn_key
        rw [hkey, hlast'.splitOn_key, List.cons_eq_cons, List.cons_eq_cons] at hsplit
        obtain ⟨rfl, rfl, -⟩ := hsplit
        exact .inr ⟨_, _, hlast, hlast'⟩
      · have hsplit := hlast.splitOn_key
        rw [hkey, hself'] at hsplit
        exact .inr ⟨domain, tld, hlast, .inl hsplit⟩
    · rcases lastTwo_or_key_eq u with ⟨domain', tld', hlast'⟩ | hself'
      · have hsplit := hlast'.splitOn_key
        rw [← hkey, hself] at hsplit
        exact .inr ⟨domain', tld', .inl hsplit, hlast'⟩
      · rw [hself, hself'] at hkey
        exact .inl hkey
  · rintro (rfl | ⟨domain, tld, hlast, hlast'⟩)
    · rfl
    · rw [hlast.key_eq, hlast'.key_eq]

/-! ## Registrable domains -/

/-- The last label of the host stands before the port. -/
theorem LastTwo.labels_eq (hlast : LastTwo h domain tld) :
    ∃ front : List Bytes, front.length ≤ 1 ∧ labels h = front ++ [domain, (HostPort.splitPort tld).1] := by
  have hdot := hlast.dot_not_mem
  have htld : dot ∉ (HostPort.splitPort tld).1 := fun hmem => hdot.2 (HostPort.splitPort_isPrefix.subset hmem)
  have hjoin : [dot].intercalate (h.splitOn dot) = h := List.intercalate_splitOn dot
  rcases hlast with hsplit | ⟨sub, hsplit⟩
  · refine ⟨[], zero_le_one, ?_⟩
    have hhost : h = domain ++ dot :: tld := by
      rw [← hjoin, hsplit]
      simp [List.intercalate]
    rw [labels, hhost, HostPort.splitPort_append (by decide) (by decide), splitOn_pair hdot.1 htld]
    rfl
  · refine ⟨[sub], le_rfl, ?_⟩
    have hsub : dot ∉ sub := not_mem_of_mem_splitOn (hsplit ▸ List.mem_cons_self)
    have hhost : h = (sub ++ dot :: domain) ++ dot :: tld := by
      rw [← hjoin, hsplit]
      simp [List.intercalate]
    rw [labels, hhost, HostPort.splitPort_append (by decide) (by decide), List.append_assoc, List.cons_append,
      List.splitOn_append_cons_self_of_not_mem hsub, splitOn_pair hdot.1 htld]
    rfl

/-- Hosts that share a key have the same registrable domain, unless both are a label below a public suffix. -/
theorem SharesKey.registrable (suffixes : PublicSuffixes Bytes) (hshares : SharesKey h u) :
    SameRegistrable suffixes h u ∨ UnderSuffix suffixes h u := by
  rcases hshares with rfl | ⟨domain, tld, hlast, hlast'⟩
  · exact .inl fun d d' hd hd' => hd.unique hd'
  obtain ⟨front, hfront, hlabels⟩ := hlast.labels_eq
  obtain ⟨front', hfront', hlabels'⟩ := hlast'.labels_eq
  rw [SameRegistrable, UnderSuffix, hlabels, hlabels']
  by_cases hpublic : suffixes.holds [domain, (HostPort.splitPort tld).1]
  · match front, front' with
    | [], _ => exact .inl fun d d' hd _ => absurd hd (not_registrable_pair hpublic)
    | [_], [] => exact .inl fun d d' _ hd' => absurd hd' (not_registrable_pair hpublic)
    | [_], [_] => exact .inr ⟨rfl, rfl, hpublic, rfl⟩
  · refine .inl fun d d' hd hd' => ?_
    rw [hd.eq_pair (List.suffix_append _ _) (by simpa using hfront) hpublic,
      hd'.eq_pair (List.suffix_append _ _) (by simpa using hfront') hpublic]

end Keys

/-! ## Where the cookies come from -/

/-- A cookie that is kept was written. -/
theorem mem_of_kept {config : CookieJarConfig} {n : Bytes} {writes : List (List Cookie)} {c : Cookie}
    (hkept : kept config n writes = some c) : ∃ cs ∈ writes, c ∈ cs := by
  rw [kept] at hkept
  split_ifs at hkept
  · obtain ⟨cs, hcs, hlast⟩ := List.mem_filterMap.mp (List.mem_of_mem_head? hkept)
    exact ⟨cs, hcs, KeyedList.mem_of_last hlast⟩
  · exact List.mem_flatten.mp (KeyedList.mem_of_last hkept)

/-- A cookie that was passed came with a call for the key. -/
theorem mem_passed {config : CookieJarConfig} {key : Bytes} {calls : List SetCall} {cs : List Cookie} {c : Cookie}
    (hcs : cs ∈ passed config key calls) (hc : c ∈ cs) :
    ∃ call ∈ calls, buildCookieHostKey call.1 = key ∧ c ∈ call.2 := by
  obtain ⟨call, hcall, rfl⟩ := List.mem_map.mp hcs
  obtain ⟨hmem, hkey⟩ := List.mem_filter.mp hcall
  refine ⟨call, hmem, by simpa using hkey, ?_⟩
  rw [accepted, nonEmpty] at hc
  split_ifs at hc
  · exact hc
  · exact (List.mem_filter.mp hc).1

/-- A cookie comes from a call for a host that shares the host key. -/
theorem setFor_sharesKey (config : CookieJarConfig) (calls : List (RequestUrl × List Cookie)) (u : RequestUrl) :
    SetFor config calls u fun v _ => SharesKey v.host u.host := by
  intro c hc
  obtain ⟨cs, hcs, hmem⟩ := mem_of_kept (mem_cookies_afterCalls.mp hc).1
  obtain ⟨call, hcall, hkey, hmem⟩ := mem_passed hcs hmem
  obtain ⟨sent, hsent, rfl⟩ := List.mem_map.mp hcall
  exact ⟨sent, hsent, hmem, buildCookieHostKey_eq_iff.mp hkey⟩

/-- A cookie goes to every host that shares the key, whatever its attributes are. -/
theorem mem_cookies_of_sharesKey {config : CookieJarConfig} {v u : RequestUrl} {c : Cookie} (hvalue : c.value ≠ [])
    (hage : 0 ≤ c.maxAge) (hshares : SharesKey v.host u.host) :
    c ∈ (afterCalls config (byHost [(v, [c])])).cookies u.host := by
  have haccepted : accepted config [c] = [c] := by
    rw [accepted, nonEmpty]
    split_ifs
    · rfl
    · exact List.filter_eq_self.mpr (by simpa using hvalue)
  have hlast : KeyedList.last Cookie.name c.name [c] = some c :=
    KeyedList.last_eq_some_iff.mpr ⟨rfl, [], [], rfl, by simp⟩
  refine mem_cookies_afterCalls.mpr ⟨?_, hage⟩
  rw [byHost, List.map_singleton, passed_singleton, if_pos (buildCookieHostKey_eq_iff.mpr hshares), haccepted, kept]
  split_ifs
  · rw [List.filterMap_cons_some hlast]
    rfl
  · exact hlast

/-- A cookie comes from a call for its own host, or for one that agrees with it in the last two of two or three
labels. Both have the same registrable domain, unless both are a label below a public suffix of two labels. The
attributes are not asked: to every host that shares the key of the host it was set for, a cookie goes. -/
theorem cookies_set_for (suffixes : PublicSuffixes Bytes) (config : CookieJarConfig)
    (calls : List (RequestUrl × List Cookie)) (u : RequestUrl) :
    (SetFor config calls u fun v _ => SharesKey v.host u.host ∧
      (SameRegistrable suffixes v.host u.host ∨ UnderSuffix suffixes v.host u.host)) ∧
    ∀ (v : RequestUrl) (c : Cookie), c.value ≠ [] → 0 ≤ c.maxAge → SharesKey v.host u.host →
      c ∈ (afterCalls config (byHost [(v, [c])])).cookies u.host := by
  refine ⟨fun c hc => ?_, fun v c hvalue hage hshares => mem_cookies_of_sharesKey hvalue hage hshares⟩
  obtain ⟨call, hcall, hmem, hshares⟩ := setFor_sharesKey config calls u c hc
  exact ⟨call, hcall, hmem, hshares, hshares.registrable suffixes⟩

/-- A cookie of another URL that is returned breaks what is said of all of them. -/
theorem not_setFor {v u : RequestUrl} {c : Cookie} {R : RequestUrl → Cookie → Prop} (hvalue : c.value ≠ [])
    (hage : 0 ≤ c.maxAge) (hshares : SharesKey v.host u.host) (hnot : ¬R v c) : ¬SetFor {} [(v, [c])] u R := by
  intro hset
  obtain ⟨call, hcall, -, hR⟩ := hset c (mem_cookies_of_sharesKey hvalue hage hshares)
  rw [List.mem_singleton.mp hcall] at hR
  exact hnot hR

/-- The public suffixes are `co.uk` and every last label. -/
def exampleSuffixes : PublicSuffixes Bytes where
  holds labels := labels.length = 1 ∨ labels = [utf8 "co", utf8 "uk"]
  last _ := .inl rfl

/-- A name below `co.uk` is registrable. -/
theorem registrable_below_coUk (label : Bytes) :
    Registrable exampleSuffixes [label, utf8 "co", utf8 "uk"] [label, utf8 "co", utf8 "uk"] := by
  refine ⟨label, _, rfl, List.suffix_refl _, .inr rfl, fun t _ ht => ?_⟩
  rcases ht with hone | rfl
  · rw [hone]
    decide
  · exact le_rfl

/-- A cookie of one host goes to a sibling host, that of one path to another, a secure one over http, and that of
one registrable domain below `co.uk` to another. -/
theorem not_isolated :
    (¬∀ (suffixes : PublicSuffixes Bytes) (config : CookieJarConfig) (calls : List (RequestUrl × List Cookie))
        (u : RequestUrl), Isolated suffixes config calls u) ∧
      ¬SetFor {} [(⟨utf8 "https", utf8 "a.example.com", utf8 "/"⟩, [{ name := utf8 "sid", value := utf8 "1" }])]
        ⟨utf8 "https", utf8 "b.example.com", utf8 "/"⟩
        (HostAllowed ⟨utf8 "https", utf8 "b.example.com", utf8 "/"⟩) ∧
      ¬SetFor {} [(⟨utf8 "https", utf8 "example.com", utf8 "/private"⟩,
          [{ name := utf8 "sid", value := utf8 "1", path := utf8 "/private" }])]
        ⟨utf8 "https", utf8 "example.com", utf8 "/"⟩ (PathAllowed ⟨utf8 "https", utf8 "example.com", utf8 "/"⟩) ∧
      ¬SetFor {} [(⟨utf8 "https", utf8 "example.com", utf8 "/"⟩,
          [{ name := utf8 "sid", value := utf8 "1", secure := true }])]
        ⟨utf8 "http", utf8 "example.com", utf8 "/"⟩
        (fun _ => SecureAllowed ⟨utf8 "http", utf8 "example.com", utf8 "/"⟩) ∧
      ¬SetFor {} [(⟨utf8 "https", utf8 "a.co.uk", utf8 "/"⟩, [{ name := utf8 "sid", value := utf8 "1" }])]
        ⟨utf8 "https", utf8 "b.co.uk", utf8 "/"⟩
        (fun v _ => SameRegistrable exampleSuffixes v.host (utf8 "b.co.uk")) := by
  have hsecure : ¬SetFor {} [(⟨utf8 "https", utf8 "example.com", utf8 "/"⟩,
      [{ name := utf8 "sid", value := utf8 "1", secure := true }])] ⟨utf8 "http", utf8 "example.com", utf8 "/"⟩
      (fun _ => SecureAllowed ⟨utf8 "http", utf8 "example.com", utf8 "/"⟩) :=
    not_setFor (by decide) (by decide) (.inl rfl) fun hsecure => absurd (hsecure rfl) (by decide)
  refine ⟨fun hall => hsecure fun c hc => ?_, not_setFor (by decide) (by decide) ?_ ?_,
    not_setFor (by decide) (by decide) (.inl rfl) ?_, hsecure, not_setFor (by decide) (by decide) ?_ ?_⟩
  · obtain ⟨call, hcall, hmem, -, -, hallowed, -⟩ := hall exampleSuffixes _ _ _ c hc
    exact ⟨call, hcall, hmem, hallowed⟩
  · exact .inr ⟨utf8 "example", utf8 "com", .inr ⟨utf8 "a", by decide +kernel⟩, .inr ⟨utf8 "b", by decide +kernel⟩⟩
  · rintro (hhost | ⟨hdomain, -⟩)
    · exact absurd hhost (by decide +kernel)
    · exact hdomain rfl
  · exact (by decide +kernel : ¬PathMatch (utf8 "/") (utf8 "/private"))
  · exact .inr ⟨utf8 "co", utf8 "uk", .inr ⟨utf8 "a", by decide +kernel⟩, .inr ⟨utf8 "b", by decide +kernel⟩⟩
  · intro hsame
    -- both hosts are registrable by themselves, since `co.uk` is a public suffix
    have hlabels : labels (utf8 "a.co.uk") = [utf8 "a", utf8 "co", utf8 "uk"] := by decide +kernel
    have hlabels' : labels (utf8 "b.co.uk") = [utf8 "b", utf8 "co", utf8 "uk"] := by decide +kernel
    have heq := hsame _ _ (hlabels ▸ registrable_below_coUk _) (hlabels' ▸ registrable_below_coUk _)
    exact absurd heq (by decide)

end TlsClient.Engine.CookieJar
