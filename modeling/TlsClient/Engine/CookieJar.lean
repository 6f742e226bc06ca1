import TlsClient.Ffi.Values
import TlsClient.Library.SortedMap
import TlsClient.Library.Utf8

/-!
# The cookie jar of a client

Embeds `src/jar.go`. The jar keeps a list of cookies under each host key and answers from these lists
alone; the wrapped `cookiejar.Jar` is only ever written, so it is left out.

`mem_cookies_setCookies` says what one `SetCookies` leaves in the jar, from which a cookie stays until
its name comes again under the same key (`mem_cookies_of_silent`).
-/

namespace TlsClient.Engine

open TlsClient.Ffi Utf8

/-- `http.Cookie`, as far as the jar and `AddCookie` read it, and with the attributes that say where it goes,
which neither reads. -/
structure Cookie where
  name : Bytes
  value : Bytes
  quoted : Bool := false
  maxAge : ℤ := 0
  domain : Bytes := []
  path : Bytes := []
  secure : Bool := false
deriving DecidableEq

/-- `cookieJarConfig`. -/
structure CookieJarConfig where
  skipExisting : Bool := false
  allowEmptyCookies : Bool := false
deriving DecidableEq

/-- `cookieJar`. -/
structure CookieJar where
  config : CookieJarConfig := {}
  allCookies : SortedMap Bytes (List Cookie) := .empty
deriving DecidableEq

namespace CookieJar

/-- `buildCookieHostKey`. -/
def buildCookieHostKey (host : Bytes) : Bytes :=
  match host.splitOn 46 with
  | [_, domain, tld] => domain ++ utf8 "." ++ tld
  | [domain, tld] => domain ++ utf8 "." ++ tld
  | _ => host

/-- `nonEmpty`. -/
def nonEmpty (jar : CookieJar) (cookies : List Cookie) : List Cookie :=
  if jar.config.allowEmptyCookies then cookies else cookies.filter fun c => c.value ≠ []

/-- The loop of `unique`, over the cookies from the last to the first. -/
def uniqueFrom (kept : List Cookie) : List Cookie → List Cookie
  | [] => kept
  | c :: rest =>
    if kept.any fun k => k.name = c.name then uniqueFrom kept rest else uniqueFrom (kept ++ [c]) rest

/-- `unique`. -/
def unique (cookies : List Cookie) : List Cookie :=
  uniqueFrom [] cookies.reverse

/-- `jar.allCookies[hostKey]`. -/
def held (jar : CookieJar) (hostKey : Bytes) : List Cookie :=
  (jar.allCookies.lookup hostKey).getD []

/-- `SetCookies`. -/
def setCookies (jar : CookieJar) (host : Bytes) (cookies : List Cookie) : CookieJar :=
  let uniqueCookies := unique (jar.nonEmpty cookies)
  let hostKey := buildCookieHostKey host
  let existingCookies := jar.held hostKey
  let newCookies :=
    if ¬ jar.config.skipExisting then
      (existingCookies.filter fun e => ¬ uniqueCookies.any fun c => e.name = c.name) ++ uniqueCookies
    else
      existingCookies ++ uniqueCookies.filter fun c => ¬ existingCookies.any fun e => c.name = e.name
  { jar with allCookies := jar.allCookies.set hostKey newCookies }

/-- `Cookies`. -/
def cookies (jar : CookieJar) (host : Bytes) : List Cookie :=
  (jar.held (buildCookieHostKey host)).filter fun c => ¬ c.maxAge < 0

@[simp] theorem config_setCookies (jar : CookieJar) (host : Bytes) (cs : List Cookie) :
    (jar.setCookies host cs).config = jar.config := rfl

@[simp] theorem held_empty (config : CookieJarConfig) (key : Bytes) :
    (CookieJar.mk config .empty).held key = [] := rfl

/-! ## What `unique` keeps -/

/-- What the loop keeps: what it had, and the first cookie of each other name. -/
theorem mem_uniqueFrom {kept l : List Cookie} {c : Cookie} :
    c ∈ uniqueFrom kept l ↔ c ∈ kept ∨
      (∀ k ∈ kept, k.name ≠ c.name) ∧ ∃ l₁ l₂, l = l₁ ++ c :: l₂ ∧ ∀ d ∈ l₁, d.name ≠ c.name := by
  induction l generalizing kept with
  | nil => simp [uniqueFrom]
  | cons d rest ih =>
    rw [uniqueFrom]
    split_ifs with hseen <;> rw [ih]
    · obtain ⟨k, hk, hname⟩ : ∃ k ∈ kept, k.name = d.name := by simpa using hseen
    -- a cookie whose name is kept already is passed over, so it can stand in front of `c` or not
      refine or_congr_right (and_congr_right fun hnew => ⟨?_, ?_⟩)
      · rintro ⟨l₁, l₂, rfl, hl₁⟩
        refine ⟨d :: l₁, l₂, rfl, fun e he => ?_⟩
        rcases List.mem_cons.mp he with rfl | hmem
        · exact hname ▸ hnew k hk
        · exact hl₁ e hmem
      · rintro ⟨l₁, l₂, heq, hl₁⟩
        cases l₁ with
        | nil =>
          obtain ⟨rfl, -⟩ := List.cons.inj heq
          exact absurd hname (hnew k hk)
        | cons e l₁ =>
          obtain ⟨rfl, rfl⟩ := List.cons.inj heq
          exact ⟨l₁, l₂, rfl, fun e he => hl₁ e (List.mem_cons_of_mem _ he)⟩
    · have hfresh : ∀ k ∈ kept, k.name ≠ d.name := by simpa using hseen
      constructor
      · rintro (hmem | ⟨hnew, l₁, l₂, rfl, hl₁⟩)
        · rcases List.mem_append.mp hmem with hkept | hd
          · exact .inl hkept
          · obtain rfl := List.mem_singleton.mp hd
            exact .inr ⟨hfresh, [], rest, rfl, by simp⟩
        · refine .inr ⟨fun k hk => hnew k (List.mem_append_left _ hk), d :: l₁, l₂, rfl, fun e he => ?_⟩
          rcases List.mem_cons.mp he with rfl | hmem
          · exact hnew e (List.mem_append_right _ List.mem_cons_self)
          · exact hl₁ e hmem
      · rintro (hkept | ⟨hnew, l₁, l₂, heq, hl₁⟩)
        · exact .inl (List.mem_append_left _ hkept)
        · cases l₁ with
          | nil =>
            obtain ⟨rfl, rfl⟩ := List.cons.inj heq
            exact .inl (List.mem_append_right _ List.mem_cons_self)
          | cons e l₁ =>
            obtain ⟨rfl, rfl⟩ := List.cons.inj heq
            refine .inr ⟨fun k hk => ?_, l₁, l₂, rfl, fun e he => hl₁ e (List.mem_cons_of_mem _ he)⟩
            rcases List.mem_append.mp hk with hkept | hd
            · exact hnew k hkept
            · obtain rfl := List.mem_singleton.mp hd
              exact hl₁ k List.mem_cons_self

/-- `unique` keeps the last cookie of each name. -/
theorem mem_unique {cs : List Cookie} {c : Cookie} :
    c ∈ unique cs ↔ ∃ l₁ l₂, cs = l₁ ++ c :: l₂ ∧ ∀ d ∈ l₂, d.name ≠ c.name := by
  rw [unique, mem_uniqueFrom]
  constructor
  · rintro (hnil | ⟨-, l₁, l₂, heq, hl₁⟩)
    · simp at hnil
    · refine ⟨l₂.reverse, l₁.reverse, ?_, fun d hd => hl₁ d (List.mem_reverse.mp hd)⟩
      rw [← List.reverse_reverse cs, heq]
      simp
  · rintro ⟨l₁, l₂, rfl, hl₂⟩
    exact .inr ⟨by simp, l₂.reverse, l₁.reverse, by simp, fun d hd => hl₂ d (List.mem_reverse.mp hd)⟩

/-- No name is lost. -/
theorem name_mem_unique {cs : List Cookie} {n : Bytes} :
    (∃ c ∈ unique cs, c.name = n) ↔ ∃ c ∈ cs, c.name = n := by
  constructor
  · rintro ⟨c, hc, rfl⟩
    obtain ⟨l₁, l₂, rfl, -⟩ := mem_unique.mp hc
    exact ⟨c, by simp, rfl⟩
  · intro hex
    induction cs using List.reverseRecOn with
    | nil => simp at hex
    | append_singleton l d ih =>
      by_cases hd : d.name = n
      · exact ⟨d, mem_unique.mpr ⟨l, [], rfl, by simp⟩, hd⟩
      · obtain ⟨c, hc, rfl⟩ := hex
        have hcl : c ∈ l := by
          rcases List.mem_append.mp hc with hmem | hmem
          · exact hmem
          · exact absurd (congrArg Cookie.name (List.mem_singleton.mp hmem).symm) hd
        obtain ⟨c', hc', hname⟩ := ih ⟨c, hcl, rfl⟩
        obtain ⟨l₁, l₂, rfl, hl₂⟩ := mem_unique.mp hc'
        refine ⟨c', mem_unique.mpr ⟨l₁, l₂ ++ [d], by simp, fun e he => ?_⟩, hname⟩
        rcases List.mem_append.mp he with hmem | hmem
        · exact hl₂ e hmem
        · rw [List.mem_singleton.mp hmem, hname]
          exact hd

/-! ## What `SetCookies` leaves in the jar -/

theorem held_setCookies_of_ne {jar : CookieJar} {host key : Bytes} {cs : List Cookie}
    (hne : key ≠ buildCookieHostKey host) : (jar.setCookies host cs).held key = jar.held key := by
  rw [held, setCookies, SortedMap.lookup_set, if_neg hne, ← held]

/-- Without `skipExisting`, the cookies of a call replace the cookies of their names. -/
theorem mem_held_setCookies {jar : CookieJar} {host : Bytes} {cs : List Cookie} {c : Cookie}
    (hskip : jar.config.skipExisting = false) :
    c ∈ (jar.setCookies host cs).held (buildCookieHostKey host) ↔
      c ∈ unique (jar.nonEmpty cs) ∨
        c ∈ jar.held (buildCookieHostKey host) ∧ ∀ d ∈ jar.nonEmpty cs, d.name ≠ c.name := by
  have hnames : (∀ d ∈ unique (jar.nonEmpty cs), c.name ≠ d.name) ↔
      ∀ d ∈ jar.nonEmpty cs, d.name ≠ c.name := by
    have hiff := not_congr (@name_mem_unique (jar.nonEmpty cs) c.name)
    push Not at hiff
    exact ⟨fun h => hiff.mp fun d hd => (h d hd).symm, fun h d hd => (hiff.mpr h d hd).symm⟩
  rw [held, setCookies, SortedMap.lookup_set, if_pos rfl, Option.getD_some, hskip]
  simp only [Bool.false_eq_true, not_false_eq_true, if_true, List.mem_append, List.mem_filter,
    List.any_eq_true, decide_eq_true_eq, not_exists, not_and]
  rw [hnames, or_comm]

/-- What is returned after a call. -/
theorem mem_cookies_setCookies {jar : CookieJar} {host : Bytes} {cs : List Cookie} {c : Cookie}
    (hskip : jar.config.skipExisting = false) :
    c ∈ (jar.setCookies host cs).cookies host ↔
      (c ∈ unique (jar.nonEmpty cs) ∨
        c ∈ jar.held (buildCookieHostKey host) ∧ ∀ d ∈ jar.nonEmpty cs, d.name ≠ c.name) ∧
        0 ≤ c.maxAge := by
  rw [cookies, List.mem_filter, mem_held_setCookies hskip]
  simp

/-- A cookie stays in the jar while no response for its host key names it. -/
theorem mem_cookies_of_silent {jar : CookieJar} {host host' : Bytes} {cs : List Cookie} {c : Cookie}
    (hskip : jar.config.skipExisting = false) (hc : c ∈ jar.cookies host)
    (hsilent : buildCookieHostKey host' = buildCookieHostKey host → ∀ d ∈ cs, d.name ≠ c.name) :
    c ∈ (jar.setCookies host' cs).cookies host := by
  obtain ⟨hheld, hage⟩ := List.mem_filter.mp hc
  refine List.mem_filter.mpr ⟨?_, hage⟩
  by_cases hkey : buildCookieHostKey host' = buildCookieHostKey host
  · rw [← hkey] at hheld ⊢
    refine (mem_held_setCookies hskip).mpr (.inr ⟨hheld, fun d hd => hsilent hkey d ?_⟩)
    rw [nonEmpty] at hd
    split_ifs at hd
    · exact hd
    · exact (List.mem_filter.mp hd).1
  · rw [held_setCookies_of_ne (Ne.symm hkey)]
    exact hheld

end CookieJar

end TlsClient.Engine
