import TlsClient.Engine.CookieJar
import TlsClient.Library.KeyedList
import TlsClient.Library.Run

/-!
# The cookie jar over its calls

What the jar of `src/jar.go` holds after any calls of `SetCookies`: under each host key one cookie for each
name, the last one passed or, with `skipExisting`, the last one of the first call that has the name
(`jar_contents`).

A cookie with a negative `MaxAge` deletes the cookie of its name: "we misuse the max age here for \"deletion\"
reasons". The jar filters it out if its value is empty, and with `skipExisting` it is skipped like any other.
`deletion_iff_clears` says after which calls a deletion is honoured.
-/

namespace TlsClient.Engine.CookieJar

open TlsClient.Ffi Utf8

/-- A call of `SetCookies`: the host of the URL, and the cookies. -/
abbrev SetCall := Bytes × List Cookie

/-- The jar that `NewCookieJar` makes, after the calls. -/
def afterCalls (config : CookieJarConfig) (calls : List SetCall) : CookieJar :=
  Run.exec (fun jar call => jar.setCookies call.1 call.2) { config } calls

/-- The cookies of a call that are not empty, or all if the jar allows empty ones. -/
def accepted (config : CookieJarConfig) (cs : List Cookie) : List Cookie :=
  nonEmpty { config } cs

/-- The cookies of the calls for a host key, call by call. -/
def passed (config : CookieJarConfig) (key : Bytes) (calls : List SetCall) : List (List Cookie) :=
  (calls.filter fun call => buildCookieHostKey call.1 = key).map fun call => accepted config call.2

/-- The cookie that the jar should hold for a name. -/
def kept (config : CookieJarConfig) (n : Bytes) (writes : List (List Cookie)) : Option Cookie :=
  if config.skipExisting then (writes.filterMap (KeyedList.last Cookie.name n)).head?
  else KeyedList.last Cookie.name n writes.flatten

/-! ## One call -/

/-- Among unique cookies no name comes twice. -/
theorem distinct_uniqueFrom {seen l : List Cookie} (hseen : KeyedList.Distinct Cookie.name seen) :
    KeyedList.Distinct Cookie.name (uniqueFrom seen l) := by
  induction l generalizing seen with
  | nil => exact hseen
  | cons c rest ih =>
    rw [uniqueFrom]
    split_ifs with hany
    · exact ih hseen
    · refine ih ?_
      have hnew : c.name ∉ seen.map Cookie.name := by simpa using hany
      rw [KeyedList.Distinct, List.map_append, List.map_singleton, ← List.concat_eq_append]
      exact List.Nodup.concat hnew hseen

theorem distinct_unique (cs : List Cookie) : KeyedList.Distinct Cookie.name (unique cs) :=
  distinct_uniqueFrom KeyedList.distinct_nil

/-- Of the cookies of one name the last is kept. -/
theorem get_unique (n : Bytes) (cs : List Cookie) :
    KeyedList.get Cookie.name n (unique cs) = KeyedList.last Cookie.name n cs := by
  refine Option.ext fun c => ?_
  rw [KeyedList.get_eq_some_iff (distinct_unique cs), KeyedList.last_eq_some_iff, mem_unique, and_comm]
  refine and_congr_right ?_
  rintro rfl
  exact Iff.rfl

/-- What the jar holds for the host after a call. -/
theorem held_setCookies (jar : CookieJar) (host : Bytes) (cs : List Cookie) :
    (jar.setCookies host cs).held (buildCookieHostKey host) =
      if jar.config.skipExisting then
        KeyedList.supplement Cookie.name (jar.held (buildCookieHostKey host)) (unique (jar.nonEmpty cs))
      else
        KeyedList.overwrite Cookie.name (jar.held (buildCookieHostKey host)) (unique (jar.nonEmpty cs)) := by
  rw [held, setCookies, SortedMap.lookup_set, if_pos rfl, Option.getD_some]
  cases jar.config.skipExisting <;> rfl

/-- The names that are held stay distinct. -/
theorem distinct_held_setCookies {jar : CookieJar} (hjar : ∀ key, KeyedList.Distinct Cookie.name (jar.held key))
    (host : Bytes) (cs : List Cookie) (key : Bytes) :
    KeyedList.Distinct Cookie.name ((jar.setCookies host cs).held key) := by
  by_cases hkey : key = buildCookieHostKey host
  · rw [hkey, held_setCookies]
    split_ifs
    · exact KeyedList.distinct_supplement (hjar _) (distinct_unique _)
    · exact KeyedList.distinct_overwrite (hjar _) (distinct_unique _)
  · rw [held_setCookies_of_ne hkey]
    exact hjar key

/-- A call puts the last cookie of a name first or, with `skipExisting`, second. -/
theorem get_held_setCookies (jar : CookieJar) (host : Bytes) (cs : List Cookie) (n : Bytes) :
    KeyedList.get Cookie.name n ((jar.setCookies host cs).held (buildCookieHostKey host)) =
      if jar.config.skipExisting then
        (KeyedList.get Cookie.name n (jar.held (buildCookieHostKey host))).or
          (KeyedList.last Cookie.name n (jar.nonEmpty cs))
      else
        (KeyedList.last Cookie.name n (jar.nonEmpty cs)).or
          (KeyedList.get Cookie.name n (jar.held (buildCookieHostKey host))) := by
  rw [held_setCookies]
  split_ifs
  · rw [KeyedList.get_supplement, get_unique]
  · rw [KeyedList.get_overwrite, get_unique]

/-! ## Any calls -/

@[simp] theorem passed_nil (config : CookieJarConfig) (key : Bytes) : passed config key [] = [] := rfl

theorem passed_append (config : CookieJarConfig) (key : Bytes) (calls calls' : List SetCall) :
    passed config key (calls ++ calls') = passed config key calls ++ passed config key calls' := by
  rw [passed, List.filter_append, List.map_append, passed, passed]

/-- What was passed in one call. -/
theorem passed_singleton (config : CookieJarConfig) (key : Bytes) (call : SetCall) :
    passed config key [call] = if buildCookieHostKey call.1 = key then [accepted config call.2] else [] := by
  rw [passed]
  split_ifs with hkey <;> simp [hkey]

/-- The jar after one more call. -/
theorem afterCalls_append_singleton (config : CookieJarConfig) (calls : List SetCall) (call : SetCall) :
    afterCalls config (calls ++ [call]) = (afterCalls config calls).setCookies call.1 call.2 := by
  rw [afterCalls, Run.exec_append]
  rfl

/-- Calls do not change the configuration. -/
theorem config_afterCalls (config : CookieJarConfig) (calls : List SetCall) :
    (afterCalls config calls).config = config := by
  have hstep : ∀ (jar : CookieJar) (call : SetCall), jar.config = config →
      (jar.setCookies call.1 call.2).config = config := fun _ _ hconfig => hconfig
  exact Run.always_exec hstep rfl calls

/-- The names that are held are distinct after every history. -/
theorem distinct_held (config : CookieJarConfig) (calls : List SetCall) (key : Bytes) :
    KeyedList.Distinct Cookie.name ((afterCalls config calls).held key) := by
  have hstep : ∀ (jar : CookieJar) (call : SetCall), (∀ key, KeyedList.Distinct Cookie.name (jar.held key)) →
      ∀ key, KeyedList.Distinct Cookie.name ((jar.setCookies call.1 call.2).held key) :=
    fun _ call hjar => distinct_held_setCookies hjar call.1 call.2
  exact Run.always_exec hstep (fun _ => KeyedList.distinct_nil) calls key

/-- Which cookie is kept after one more write. -/
theorem kept_concat (config : CookieJarConfig) (n : Bytes) (writes : List (List Cookie)) (cs : List Cookie) :
    kept config n (writes ++ [cs]) =
      if config.skipExisting then (kept config n writes).or (KeyedList.last Cookie.name n cs)
      else (KeyedList.last Cookie.name n cs).or (kept config n writes) := by
  rw [kept, kept]
  split_ifs
  · rw [List.filterMap_append, List.head?_append]
    cases hlast : KeyedList.last Cookie.name n cs with
    | none => rw [List.filterMap_cons_none hlast]; rfl
    | some c => rw [List.filterMap_cons_some hlast]; rfl
  · rw [List.flatten_append, List.flatten_singleton, KeyedList.last_append]

/-- What the jar holds for a name is what it should hold. -/
theorem get_held (config : CookieJarConfig) (calls : List SetCall) (key n : Bytes) :
    KeyedList.get Cookie.name n ((afterCalls config calls).held key) = kept config n (passed config key calls) := by
  induction calls using List.reverseRecOn with
  | nil => rw [passed_nil, kept]; split_ifs <;> rfl
  | append_singleton calls call ih =>
    rw [afterCalls_append_singleton, passed_append, passed_singleton]
    split_ifs with hkey
    · subst hkey
      have hconfig := config_afterCalls config calls
      have haccepted : nonEmpty (afterCalls config calls) call.2 = accepted config call.2 := by
        rw [nonEmpty, hconfig, accepted, nonEmpty]
      rw [get_held_setCookies, hconfig, haccepted, ih, kept_concat]
    · rw [held_setCookies_of_ne (Ne.symm hkey), ih, List.append_nil]

/-- After any calls, the jar holds under each host key at most one cookie of each name, the last one passed or,
with `skipExisting`, the last one of the first call that has the name; `Cookies` gives those that are not
deleted. -/
theorem jar_contents (config : CookieJarConfig) (calls : List SetCall) (key : Bytes) :
    (((afterCalls config calls).held key).map Cookie.name).Nodup ∧
      (∀ n c, c ∈ (afterCalls config calls).held key ∧ c.name = n ↔
        kept config n (passed config key calls) = some c) ∧
      ∀ host, (afterCalls config calls).cookies host =
        ((afterCalls config calls).held (buildCookieHostKey host)).filter fun c => 0 ≤ c.maxAge := by
  refine ⟨distinct_held config calls key, fun n c => ?_, fun host => ?_⟩
  · rw [← get_held, KeyedList.get_eq_some_iff (distinct_held config calls key)]
  · rw [cookies]
    simp

/-! ## Deletion -/

/-- The call has a cookie that deletes the name. -/
def Deletes (n : Bytes) (cs : List Cookie) : Prop :=
  ∃ c ∈ cs, c.name = n ∧ c.maxAge < 0

/-- The call sets the name: the last accepted cookie of the name is no deletion. -/
def Sets (config : CookieJarConfig) (n : Bytes) (cs : List Cookie) (c : Cookie) : Prop :=
  KeyedList.last Cookie.name n (accepted config cs) = some c ∧ 0 ≤ c.maxAge

/-- One of the calls deletes the name for the host key, and no call after it sets the name. -/
def Deleted (config : CookieJarConfig) (calls : List SetCall) (host n : Bytes) : Prop :=
  ∃ before between u cs, calls = before ++ (u, cs) :: between ∧ buildCookieHostKey u = buildCookieHostKey host ∧
    Deletes n cs ∧ ∀ call ∈ between, buildCookieHostKey call.1 = buildCookieHostKey host →
      ∀ c, ¬ Sets config n call.2 c

/-- `Cookies` has no cookie of the name, and a later call that sets the name brings the new one. -/
def Gone (config : CookieJarConfig) (calls : List SetCall) (host n : Bytes) : Prop :=
  (∀ c ∈ (afterCalls config calls).cookies host, c.name ≠ n) ∧
    ∀ u cs c, buildCookieHostKey u = buildCookieHostKey host → ¬ Deletes n cs → Sets config n cs c →
      c ∈ (afterCalls config (calls ++ [(u, cs)])).cookies host

/-- The last accepted cookie of the name is a deletion, if there is one; with `skipExisting` no cookie of the
name has been accepted. -/
def Clears (config : CookieJarConfig) (writes : List (List Cookie)) (n : Bytes) : Prop :=
  if config.skipExisting then ∀ cs ∈ writes, ∀ c ∈ cs, c.name ≠ n
  else ∀ c, KeyedList.last Cookie.name n writes.flatten = some c → c.maxAge < 0

/-- The cookies that are returned: those that are kept and not deleted. -/
theorem mem_cookies_afterCalls {config : CookieJarConfig} {calls : List SetCall} {host : Bytes} {c : Cookie} :
    c ∈ (afterCalls config calls).cookies host ↔
      kept config c.name (passed config (buildCookieHostKey host) calls) = some c ∧ 0 ≤ c.maxAge := by
  rw [cookies, List.mem_filter, ← get_held, KeyedList.get_eq_some_iff (distinct_held config calls _)]
  simp

/-- `Cookies` has no cookie of a name if the jar holds a deletion, or none. -/
theorem forall_cookies_ne_iff {config : CookieJarConfig} {calls : List SetCall} {host n : Bytes} :
    (∀ c ∈ (afterCalls config calls).cookies host, c.name ≠ n) ↔
      ∀ c, kept config n (passed config (buildCookieHostKey host) calls) = some c → c.maxAge < 0 := by
  constructor
  · intro hnone c hkept
    by_contra hage
    have hname : c.name = n := by
      rw [← get_held] at hkept
      exact KeyedList.key_of_get hkept
    exact hnone c (mem_cookies_afterCalls.mpr ⟨hname.symm ▸ hkept, not_lt.mp hage⟩) hname
  · rintro hkept c hc rfl
    obtain ⟨hc, hage⟩ := mem_cookies_afterCalls.mp hc
    exact absurd (hkept c hc) (not_lt.mpr hage)

/-- No write has the name. -/
theorem filterMap_last_eq_nil_iff {n : Bytes} {writes : List (List Cookie)} :
    (writes.filterMap (KeyedList.last Cookie.name n)).head? = none ↔ ∀ cs ∈ writes, ∀ c ∈ cs, c.name ≠ n := by
  rw [List.head?_eq_none_iff, List.filterMap_eq_nil_iff]
  exact forall₂_congr fun cs _ => KeyedList.last_eq_none_iff

/-- The cookie that `Sets` has found has the name. -/
theorem Sets.name_eq {config : CookieJarConfig} {n : Bytes} {cs : List Cookie} {c : Cookie}
    (hsets : Sets config n cs c) : c.name = n :=
  KeyedList.key_of_last hsets.1

/-- What a call that sets the name leaves. -/
theorem kept_of_sets {config : CookieJarConfig} {calls : List SetCall} {u host n : Bytes} {cs : List Cookie}
    {c : Cookie} (hkey : buildCookieHostKey u = buildCookieHostKey host) (hsets : Sets config n cs c) :
    kept config n (passed config (buildCookieHostKey host) (calls ++ [(u, cs)])) =
      if config.skipExisting then (kept config n (passed config (buildCookieHostKey host) calls)).or (some c)
      else some c := by
  rw [passed_append, passed_singleton, if_pos hkey, kept_concat, hsets.1]
  split_ifs
  · rfl
  · rw [Option.some_or]

/-- A cookie is gone exactly if the writes clear it. -/
theorem gone_iff {config : CookieJarConfig} {calls : List SetCall} {host n : Bytes} :
    Gone config calls host n ↔ Clears config (passed config (buildCookieHostKey host) calls) n := by
  rw [Gone, forall_cookies_ne_iff, Clears]
  split_ifs with hskip
  · rw [← filterMap_last_eq_nil_iff]
    have hkept : kept config n (passed config (buildCookieHostKey host) calls) =
        ((passed config (buildCookieHostKey host) calls).filterMap (KeyedList.last Cookie.name n)).head? :=
      if_pos hskip
    rw [← hkept]
    constructor
    · rintro ⟨hexpired, hlater⟩
      -- a later call with a new cookie shows whether the name is still taken
      let c : Cookie := { name := n, value := [0] }
      have hsets : Sets config n [c] c := by
        refine ⟨?_, le_rfl⟩
        have haccepted : accepted config [c] = [c] := by
          rw [accepted, nonEmpty]
          split_ifs <;> rfl
        rw [haccepted]
        exact KeyedList.last_eq_some_iff.mpr ⟨rfl, [], [], rfl, by simp⟩
      have hnot : ¬ Deletes n [c] := by
        rintro ⟨d, hd, -, hage⟩
        obtain rfl := List.mem_singleton.mp hd
        exact absurd hage (lt_irrefl 0)
      have hmem := (mem_cookies_afterCalls.mp (hlater host [c] c rfl hnot hsets)).1
      rw [show c.name = n from rfl, kept_of_sets rfl hsets, if_pos hskip] at hmem
      by_contra hne
      obtain ⟨d, hd⟩ := Option.ne_none_iff_exists'.mp hne
      rw [hd, Option.some_or, Option.some_inj] at hmem
      exact absurd (hexpired d hd) (by rw [hmem]; exact lt_irrefl 0)
    · intro hnone
      refine ⟨fun c hc => absurd (hnone.symm.trans hc) (Option.some_ne_none c).symm, ?_⟩
      intro u cs c hkey _ hsets
      rw [mem_cookies_afterCalls, hsets.name_eq, kept_of_sets hkey hsets, if_pos hskip, hnone]
      exact ⟨rfl, hsets.2⟩
  · have hkept : kept config n (passed config (buildCookieHostKey host) calls) =
        KeyedList.last Cookie.name n (passed config (buildCookieHostKey host) calls).flatten := if_neg hskip
    rw [hkept]
    refine and_iff_left_of_imp fun _ u cs c hkey _ hsets => ?_
    rw [mem_cookies_afterCalls, hsets.name_eq, kept_of_sets hkey hsets, if_neg hskip]
    exact ⟨rfl, hsets.2⟩

/-- A deletion is honoured exactly if the last accepted cookie of its name is a deletion, or if there is none;
with `skipExisting`, only if no cookie of the name has been accepted at all. -/
theorem deletion_iff_clears (config : CookieJarConfig) (calls : List SetCall) (host n : Bytes) :
    (Deleted config calls host n → Gone config calls host n) ↔
      (Deleted config calls host n → Clears config (passed config (buildCookieHostKey host) calls) n) :=
  imp_congr_right fun _ => gone_iff

/-- The usual deletion of a cookie, with an empty value: the cookie stays. -/
theorem empty_deletion_ignored :
    ¬ ∀ (config : CookieJarConfig) (calls : List SetCall) (host n : Bytes),
      Deleted config calls host n → Gone config calls host n := by
  intro hgone
  have h := hgone {} [(utf8 "testhost.de", [{ name := utf8 "test1", value := utf8 "test1" }]),
    (utf8 "testhost.de", [{ name := utf8 "test1", value := [], maxAge := -1 }])] (utf8 "testhost.de")
    (utf8 "test1") ⟨[_], [], _, _, rfl, rfl, ⟨_, List.mem_singleton_self _, rfl, by decide⟩, by simp⟩
  refine h.1 { name := utf8 "test1", value := utf8 "test1" } ?_ rfl
  decide +kernel

end TlsClient.Engine.CookieJar
