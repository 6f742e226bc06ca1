import TlsClient.Python.FetchSite
import TlsClient.Python.HeaderMerge

/-!
# The headers of a context

What `apply_context` of `src/tls_client/context.py` leaves of each header that the context owns. Every edit touches the
first spelling of its name only, and a `Priority` that the context does not have is not removed. `coherent_iff` says
for which headers this makes no difference.
-/

namespace TlsClient.Python

/-! ## One edit -/

section Edits

variable {lib : StrLib} {user : List String} {headers : Headers} {name : String} {edit : Edit}

def Edit.target : Edit → String
  | .override name _ => name
  | .remove name => name

/-- The value that the edit leaves under its name. -/
def Edit.value : Edit → Option String
  | .override _ value => some value
  | .remove _ => none

/-- There is no key exactly if there is no entry. -/
theorem foldedKey_eq_none_iff : foldedKey lib headers name = none ↔ entriesOf lib name headers.items = [] := by
  rw [foldedKey, PyDict.keys, List.find?_map, Option.map_eq_none_iff, entriesOf, List.find?_eq_none,
    List.filter_eq_nil_iff]
  rfl

/-- An edit changes nothing under other names. -/
theorem entriesOf_applyEdit_of_ne (hfold : lib.casefold edit.target = edit.target) (hne : name ≠ edit.target) :
    entriesOf lib name (applyEdit lib user headers edit).items = entriesOf lib name headers.items := by
  cases edit with
  | override target value =>
    rw [applyEdit]
    cases hkey : foldedKey lib headers target with
    | none => exact entriesOf_setItems_of_ne (hfold.trans_ne (Ne.symm hne)) _
    | some existing =>
      dsimp only
      -- the spelling that is there is overwritten, unless the caller gave it
      split_ifs
      · rfl
      · exact entriesOf_setItems_of_ne ((foldedKey_eq_some hkey).2.trans_ne (Ne.symm hne)) _
  | remove target =>
    rw [applyEdit]
    cases hkey : foldedKey lib headers target with
    | none => rfl
    | some existing =>
      dsimp only
      split_ifs
      · rfl
      · rw [entriesOf, PyDict.pop]
        dsimp only
        -- an entry of another name is not the one that is popped
        rw [List.filter_filter]
        refine List.filter_congr fun item _ => ?_
        rw [Bool.and_eq_left_iff_imp]
        intro hitem
        refine decide_eq_true fun heq => hne ?_
        exact (of_decide_eq_true hitem).symm.trans ((congrArg lib.casefold heq).trans (foldedKey_eq_some hkey).2)

/-- A removal takes the first spelling away. -/
theorem entriesOf_filter_first {key : String} {items : List (String × String)} (hnodup : (items.map Prod.fst).Nodup)
    (hfirst : (items.map Prod.fst).find? (fun k => lib.casefold k = name) = some key) :
    entriesOf lib name (items.filter fun item => item.1 ≠ key) = (entriesOf lib name items).tail := by
  have hkey : lib.casefold key = name := by simpa using List.find?_some hfirst
  obtain ⟨before, value, after, rfl, hnot, hbefore⟩ := exists_split_of_first hfirst
  rw [List.map_append, List.map_cons] at hnodup
  have hother : ∀ item ∈ before ++ after, decide (item.1 ≠ key) = true := by
    have hkeys : key ∉ (before ++ after).map Prod.fst := by
      rw [List.map_append]
      exact (List.nodup_cons.mp (List.nodup_middle.mp hnodup)).1
    exact fun item hitem => decide_eq_true fun heq => hkeys (heq ▸ List.mem_map_of_mem hitem)
  have hrest : (before ++ (key, value) :: after).filter (fun item => item.1 ≠ key) = before ++ after := by
    rw [List.filter_append, List.filter_cons_of_neg (by simp), ← List.filter_append]
    exact List.filter_eq_self.mpr hother
  rw [hrest, entriesOf_append, entriesOf_append, hbefore, entriesOf_cons, if_pos hkey]
  rfl

/-- The value of the edit takes the place of the first, where the caller did not set the name. -/
theorem valuesOf_applyEdit (hfold : lib.casefold edit.target = edit.target) (huser : edit.target ∉ user) :
    valuesOf lib edit.target (applyEdit lib user headers edit).items =
      edit.value.toList ++ (valuesOf lib edit.target headers.items).tail := by
  cases edit with
  | override target value =>
    simp only [Edit.target] at hfold huser ⊢
    rw [applyEdit]
    cases hkey : foldedKey lib headers target with
    | none =>
      have hnew := valuesOf_set_new (hfold.symm ▸ hkey) value
      rw [hfold] at hnew
      dsimp only
      rw [hnew, valuesOf_of_foldedKey_none hkey]
      rfl
    -- only the first spelling is written to; further ones of the same name stay behind it
    | some existing =>
      dsimp only
      rw [if_pos ((foldedKey_eq_some hkey).2.symm ▸ huser)]
      exact valuesOf_setItems_first hkey value
  | remove target =>
    simp only [Edit.target] at hfold huser ⊢
    rw [applyEdit]
    cases hkey : foldedKey lib headers target with
    | none =>
      dsimp only
      rw [valuesOf_of_foldedKey_none hkey]
      rfl
    | some existing =>
      dsimp only
      rw [if_pos ((foldedKey_eq_some hkey).2.symm ▸ huser), valuesOf, PyDict.pop]
      dsimp only
      rw [entriesOf_filter_first headers.nodup hkey, List.map_tail]
      rfl

/-- What the caller set is left as it is. -/
theorem applyEdit_of_user (huser : edit.target ∈ user)
    (hentry : edit.value ≠ none → entriesOf lib edit.target headers.items ≠ []) :
    applyEdit lib user headers edit = headers := by
  cases edit with
  | override target value =>
    rw [applyEdit]
    cases hkey : foldedKey lib headers target with
    | none => exact absurd (foldedKey_eq_none_iff.mp hkey) (hentry (Option.some_ne_none value))
    | some existing => exact if_neg fun hnot => hnot ((foldedKey_eq_some hkey).2.symm ▸ huser)
  | remove target =>
    rw [applyEdit]
    cases hkey : foldedKey lib headers target with
    | none => rfl
    | some existing => exact if_neg fun hnot => hnot ((foldedKey_eq_some hkey).2.symm ▸ huser)

/-- Setting what is there changes nothing. -/
theorem setItems_first {key value : String} {items : List (String × String)}
    (hfirst : (items.map Prod.fst).find? (fun k => lib.casefold k = name) = some key)
    (hvalue : valuesOf lib name items = [value]) : PyDict.setItems key value items = items := by
  have hkey : lib.casefold key = name := by simpa using List.find?_some hfirst
  obtain ⟨before, old, after, rfl, hnot, hbefore⟩ := exists_split_of_first hfirst
  have hnone : valuesOf lib name before = [] := congrArg (List.map Prod.snd) hbefore
  rw [valuesOf_append, hnone, List.nil_append, valuesOf_cons, if_pos hkey] at hvalue
  obtain rfl : old = value := (List.cons.inj hvalue).1
  rw [setItems_append hnot, PyDict.setItems, if_pos rfl]

/-- An edit that finds its value changes nothing. -/
theorem applyEdit_of_values (hvalue : valuesOf lib edit.target headers.items = edit.value.toList) :
    applyEdit lib user headers edit = headers := by
  have hnone : ∀ target, valuesOf lib target headers.items ≠ [] → foldedKey lib headers target ≠ none :=
    fun target hne hkey => hne (valuesOf_of_foldedKey_none hkey)
  cases edit with
  | override target value =>
    simp only [Edit.target, Edit.value, Option.toList_some] at hvalue
    rw [applyEdit]
    cases hkey : foldedKey lib headers target with
    | none => exact absurd hkey (hnone target (hvalue ▸ List.cons_ne_nil _ _))
    | some existing =>
      have hset : headers.set existing value = headers := by
        rw [PyDict.set]
        congr 1
        exact setItems_first hkey hvalue
      dsimp only
      split_ifs
      · rfl
      · exact hset
  | remove target =>
    have hempty : entriesOf lib target headers.items = [] := List.map_eq_nil_iff.mp hvalue
    rw [applyEdit, foldedKey_eq_none_iff.mpr hempty]

/-- An override leaves an entry under its name. -/
theorem entriesOf_applyEdit_ne_nil (hfold : lib.casefold edit.target = edit.target) (hvalue : edit.value ≠ none) :
    entriesOf lib edit.target (applyEdit lib user headers edit).items ≠ [] := by
  cases edit with
  | override target value =>
    intro hempty
    obtain ⟨key, hkey, heq⟩ := (@applyEdit_override lib user headers target hfold value).2
    exact foldedKey_eq_none (foldedKey_eq_none_iff.mpr hempty) key hkey heq
  | remove target => exact absurd rfl hvalue

/-! ## All edits -/

variable {edits : List Edit}

/-- The edits have names of their own, which are casefolded. -/
structure Separate (lib : StrLib) (edits : List Edit) : Prop where
  nodup : (edits.map Edit.target).Nodup
  fold : ∀ edit ∈ edits, lib.casefold edit.target = edit.target

theorem Separate.tail (h : Separate lib (edit :: edits)) : Separate lib edits where
  nodup := (List.nodup_cons.mp h.nodup).2
  fold e he := h.fold e (List.mem_cons_of_mem _ he)

theorem Separate.head_ne (h : Separate lib (edit :: edits)) {e : Edit} (he : e ∈ edits) : e.target ≠ edit.target :=
  fun heq => (List.nodup_cons.mp h.nodup).1 (heq ▸ List.mem_map_of_mem he)

/-- A name that no edit has keeps its entries. -/
theorem entriesOf_applyEdits_of_not_mem (h : Separate lib edits) (hname : name ∉ edits.map Edit.target) :
    entriesOf lib name (applyEdits lib user headers edits).items = entriesOf lib name headers.items := by
  induction edits generalizing headers with
  | nil => rfl
  | cons edit edits ih =>
    obtain ⟨hne, hrest⟩ := not_or.mp (mt List.mem_cons.mpr hname)
    exact (ih h.tail hrest).trans (entriesOf_applyEdit_of_ne (h.fold edit List.mem_cons_self) hne)

/-- A name that an edit has gets its value, in front of further entries. -/
theorem valuesOf_applyEdits (h : Separate lib edits) (hedit : edit ∈ edits) (huser : edit.target ∉ user) :
    valuesOf lib edit.target (applyEdits lib user headers edits).items =
      edit.value.toList ++ (valuesOf lib edit.target headers.items).tail := by
  induction edits generalizing headers with
  | nil => exact absurd hedit List.not_mem_nil
  | cons first edits ih =>
    have hfold := h.fold first List.mem_cons_self
    rcases List.mem_cons.mp hedit with rfl | hedit
    · -- the later edits have other names
      have hlater := @entriesOf_applyEdits_of_not_mem lib user (applyEdit lib user headers edit) edit.target edits
        h.tail (List.nodup_cons.mp h.nodup).1
      exact (congrArg (List.map Prod.snd) hlater).trans (valuesOf_applyEdit hfold huser)
    · have hfirst := @entriesOf_applyEdit_of_ne lib user headers _ first hfold (h.head_ne hedit)
      have hrest := @ih (applyEdit lib user headers first) h.tail hedit
      rw [valuesOf, valuesOf, hfirst] at hrest
      exact hrest

/-- What the caller set stays as it is. -/
theorem entriesOf_applyEdits_of_user (h : Separate lib edits) (huser : name ∈ user)
    (hentry : entriesOf lib name headers.items ≠ []) :
    entriesOf lib name (applyEdits lib user headers edits).items = entriesOf lib name headers.items := by
  induction edits generalizing headers with
  | nil => rfl
  | cons first edits ih =>
    have hfirst : entriesOf lib name (applyEdit lib user headers first).items = entriesOf lib name headers.items := by
      by_cases hname : name = first.target
      · subst hname
        rw [applyEdit_of_user huser fun _ => hentry]
      · exact entriesOf_applyEdit_of_ne (h.fold first List.mem_cons_self) hname
    exact (ih h.tail (hfirst.symm ▸ hentry)).trans hfirst

/-- A name with a value has an entry afterwards. -/
theorem entriesOf_applyEdits_ne_nil (h : Separate lib edits) (hedit : edit ∈ edits) (hvalue : edit.value ≠ none) :
    entriesOf lib edit.target (applyEdits lib user headers edits).items ≠ [] := by
  induction edits generalizing headers with
  | nil => exact absurd hedit List.not_mem_nil
  | cons first edits ih =>
    rcases List.mem_cons.mp hedit with rfl | hedit
    · have hlater := @entriesOf_applyEdits_of_not_mem lib user (applyEdit lib user headers edit) edit.target edits
        h.tail (List.nodup_cons.mp h.nodup).1
      intro hempty
      exact entriesOf_applyEdit_ne_nil (h.fold edit List.mem_cons_self) hvalue (hlater.symm.trans hempty)
    · exact ih h.tail hedit

/-- Edits change nothing where each finds its value, or an entry of the caller. -/
theorem applyEdits_eq_self (hsettled : ∀ edit ∈ edits,
    valuesOf lib edit.target headers.items = edit.value.toList ∨
      edit.target ∈ user ∧ (edit.value ≠ none → entriesOf lib edit.target headers.items ≠ [])) :
    applyEdits lib user headers edits = headers := by
  induction edits with
  | nil => rfl
  | cons first edits ih =>
    have hfirst : applyEdit lib user headers first = headers := by
      rcases hsettled first List.mem_cons_self with hvalue | ⟨huser, hentry⟩
      · exact applyEdit_of_values hvalue
      · exact applyEdit_of_user huser hentry
    have hrest := ih fun edit hedit => hsettled edit (List.mem_cons_of_mem _ hedit)
    rw [applyEdits, List.foldl_cons, hfirst]
    exact hrest

end Edits

/-! ## The edits of a context -/

section Context

variable {lib : ContextLib} {headers : Option Headers} {ctx : RequestContext} {browser : String}
  {user : List String} {site : String}

/-- `site` of `sec_fetch_headers`. -/
def ContextLib.siteFor (lib : ContextLib) (ctx : RequestContext) : Except PyError String :=
  match ctx.site with
  | some site => .ok site
  | none => lib.computeFetchSite (ctx.targetUrl.getD "") ctx.referrer

/-- `apply_context` with its default `send_priority`, which raises what `urlsplit` raises. -/
def ContextLib.applyContext (lib : ContextLib) (headers : Option Headers) (ctx : RequestContext) (browser : String)
    (userKeys : List String) : Except PyError Headers := do
  let site ← lib.siteFor ctx
  return Python.applyContext lib.toStrLib headers { ctx with site := some site } browser userKeys

/-- The headers that a context owns, each with the value that the context has for it. -/
def contextValues (site : String) (ctx : RequestContext) (browser : String) : List (String × Option String) :=
  [("sec-fetch-mode", some ctx.mode), ("sec-fetch-dest", some ctx.dest), ("sec-fetch-site", some site),
    ("sec-fetch-user", if ctx.mode = "navigate" ∧ ctx.userTriggered then some "?1" else none),
    ("accept", some (acceptFor ctx browser)),
    ("upgrade-insecure-requests", if ctx.mode = "navigate" then some "1" else none),
    ("priority", priorityHeader ctx)]

/-- The edit for a header; there is none for a `Priority` without a value. -/
def editFor : String × Option String → Option Edit
  | (name, some value) => some (.override name value)
  | (name, none) => if name = "priority" then none else some (.remove name)

/-- The edits of a context are those of its values. -/
theorem contextEdits_eq (lib : StrLib) (site : String) (ctx : RequestContext) (browser : String) :
    contextEdits lib { ctx with site := some site } browser = (contextValues site ctx browser).filterMap editFor := by
  unfold contextEdits contextValues
  dsimp only
  have hpriority : priorityHeader { ctx with site := some site } = priorityHeader ctx := rfl
  have haccept : acceptFor { ctx with site := some site } browser = acceptFor ctx browser := rfl
  rw [hpriority, haccept]
  cases priorityHeader ctx <;> split_ifs <;> rfl

/-- An edit has the name and the value it is for. -/
theorem editFor_eq_some {item : String × Option String} {edit : Edit} (h : editFor item = some edit) :
    edit.target = item.1 ∧ edit.value = item.2 := by
  obtain ⟨name, value⟩ := item
  cases value with
  | some value =>
    obtain rfl := Option.some.inj h
    exact ⟨rfl, rfl⟩
  | none =>
    rw [editFor] at h
    split_ifs at h
    obtain rfl := Option.some.inj h
    exact ⟨rfl, rfl⟩

theorem names_contextValues : (contextValues site ctx browser).map Prod.fst = contextHeaders := rfl

/-- The targets of the edits, in their order. -/
theorem targets_sublist (l : List (String × Option String)) :
    ((l.filterMap editFor).map Edit.target).Sublist (l.map Prod.fst) := by
  induction l with
  | nil => exact .slnil
  | cons item l ih =>
    cases h : editFor item with
    | none =>
      rw [List.filterMap_cons_none h]
      exact ih.cons _
    | some edit =>
      rw [List.filterMap_cons_some h, List.map_cons, List.map_cons, (editFor_eq_some h).1]
      exact ih.cons_cons _

/-- The edits of a context are separate. -/
theorem separate_contextValues : Separate lib.toStrLib ((contextValues site ctx browser).filterMap editFor) where
  nodup := by
    have hsublist := targets_sublist (contextValues site ctx browser)
    rw [names_contextValues] at hsublist
    have hnodup : contextHeaders.Nodup := by decide
    exact hnodup.sublist hsublist
  fold edit hedit := by
    have hmem := (targets_sublist (contextValues site ctx browser)).subset (List.mem_map_of_mem hedit)
    exact lib.casefold_contextHeaders _ hmem

/-- The value of the priority header. -/
theorem value_of_priority {value : Option String} (h : ("priority", value) ∈ contextValues site ctx browser) :
    value = priorityHeader ctx := by
  have hnodup : ((contextValues site ctx browser).map Prod.fst).Nodup := by
    rw [names_contextValues]
    decide
  have hlast : ("priority", priorityHeader ctx) ∈ contextValues site ctx browser := by simp [contextValues]
  exact congrArg Prod.snd (List.inj_on_of_nodup_map hnodup h hlast rfl)

/-! ## What the headers must be -/

/-- The headers after `apply_context`: those that the context owns and the caller did not set have its values, once
or not at all, what the caller set and all other headers are as before, and a second time changes nothing. -/
structure Coherent (lib : ContextLib) (headers : Option Headers) (ctx : RequestContext) (browser : String)
    (user : List String) (site : String) (merged : Headers) : Prop where
  owned : ∀ item ∈ contextValues site ctx browser, item.1 ∉ user →
    valuesOf lib.toStrLib item.1 merged.items = item.2.toList
  kept : ∀ name, (name ∈ contextHeaders → name ∈ user ∧ entriesOf lib.toStrLib name (itemsOf headers) ≠ []) →
    entriesOf lib.toStrLib name merged.items = entriesOf lib.toStrLib name (itemsOf headers)
  again : lib.applyContext (some merged) ctx browser user = .ok merged

/-- The URLs from which the site is computed can be split. -/
def ContextLib.Splits (lib : ContextLib) (ctx : RequestContext) : Prop :=
  ctx.site = none → ctx.referrer.getD "" ≠ "" →
    (∃ parsed, lib.web.urlsplit (ctx.targetUrl.getD "").toList = .ok parsed) ∧
      ∃ parsed, lib.web.urlsplit (ctx.referrer.getD "").toList = .ok parsed

/-- A header that the context owns and the caller did not set is there in one spelling at most, and a `Priority` only
if the context has one. -/
def OwnedOnce (lib : ContextLib) (headers : Option Headers) (ctx : RequestContext) (user : List String) : Prop :=
  ∀ name ∈ contextHeaders, name ∉ user → (entriesOf lib.toStrLib name (itemsOf headers)).length ≤ 1 ∧
    (name = "priority" → priorityHeader ctx = none → entriesOf lib.toStrLib name (itemsOf headers) = [])

/-- The site is found exactly if the origins can be split. -/
theorem siteFor_ok_iff : (∃ site, lib.siteFor ctx = .ok site) ↔ lib.Splits ctx := by
  rw [ContextLib.siteFor, ContextLib.Splits]
  cases ctx.site with
  | some site => exact iff_of_true ⟨site, rfl⟩ nofun
  | none =>
    simp only [true_imp_iff]
    rw [ContextLib.computeFetchSite]
    split_ifs with hreferrer
    · exact iff_of_true ⟨_, rfl⟩ fun h => absurd hreferrer h
    · cases lib.web.urlsplit (ctx.targetUrl.getD "").toList with
      | error err => simp [hreferrer, bind, Except.bind]
      | ok t =>
        cases lib.web.urlsplit (ctx.referrer.getD "").toList with
        | error err => simp [hreferrer, bind, Except.bind]
        | ok r => simp [hreferrer, bind, Except.bind, pure, Except.pure]

/-- The edits of the context, on the headers. -/
theorem applyContext_eq (hsite : lib.siteFor ctx = .ok site) :
    lib.applyContext headers ctx browser user =
      .ok (applyEdits lib.toStrLib user (headers.getD .empty) ((contextValues site ctx browser).filterMap editFor)) := by
  rw [ContextLib.applyContext, hsite, applyEdits, ← contextEdits_eq lib.toStrLib]
  rfl

theorem items_getD (headers : Option Headers) : (headers.getD .empty).items = itemsOf headers := by
  cases headers <;> rfl

/-- The values under a name that the context owns are right if it had one entry at most, or none where the edit is
missing. -/
theorem owned_iff {item : String × Option String} (hitem : item ∈ contextValues site ctx browser)
    (huser : item.1 ∉ user) :
    valuesOf lib.toStrLib item.1 (applyEdits lib.toStrLib user (headers.getD .empty)
        ((contextValues site ctx browser).filterMap editFor)).items = item.2.toList ↔
      (entriesOf lib.toStrLib item.1 (itemsOf headers)).length ≤ 1 ∧
        (item.1 = "priority" → item.2 = none → entriesOf lib.toStrLib item.1 (itemsOf headers) = []) := by
  cases hedit : editFor item with
  | some edit =>
    obtain ⟨htarget, hvalue⟩ := editFor_eq_some hedit
    have hmem : edit ∈ (contextValues site ctx browser).filterMap editFor := List.mem_filterMap.mpr ⟨item, hitem, hedit⟩
    have hvalues := @valuesOf_applyEdits lib.toStrLib user (headers.getD .empty) edit _ separate_contextValues hmem
      (htarget ▸ huser)
    rw [htarget, hvalue, items_getD] at hvalues
    -- `priority` without a value is the one item that makes no edit
    have hnot : item.1 = "priority" → item.2 ≠ none := by
      obtain ⟨name, value⟩ := item
      rintro rfl rfl
      contradiction
    rw [hvalues, List.append_right_eq_self, valuesOf, ← List.map_tail, List.map_eq_nil_iff,
      and_iff_left fun hname hnone => absurd hnone (hnot hname)]
    cases entriesOf lib.toStrLib item.1 (itemsOf headers) with
    | nil => simp
    | cons entry rest => cases rest <;> simp
  | none =>
    obtain ⟨name, value⟩ := item
    obtain ⟨rfl, rfl⟩ : name = "priority" ∧ value = none := by
      cases value with
      | some value => contradiction
      | none =>
        rw [editFor] at hedit
        split_ifs at hedit with hname
        exact ⟨hname, rfl⟩
    -- nothing else edits `priority`, so what was inherited stays
    have hnot : "priority" ∉ ((contextValues site ctx browser).filterMap editFor).map Edit.target := by
      intro hmem
      obtain ⟨edit, hmem, htarget⟩ := List.mem_map.mp hmem
      obtain ⟨⟨name, value⟩, hother, hsome⟩ := List.mem_filterMap.mp hmem
      obtain rfl : name = "priority" := (editFor_eq_some hsome).1.symm.trans htarget
      rw [value_of_priority hother, ← value_of_priority hitem] at hsome
      contradiction
    have hentries := @entriesOf_applyEdits_of_not_mem lib.toStrLib user (headers.getD .empty) _ _
      separate_contextValues hnot
    rw [valuesOf, hentries, items_getD, Option.toList_none, List.map_eq_nil_iff]
    refine ⟨fun hempty => ⟨?_, fun _ _ => hempty⟩, fun h => h.2 rfl rfl⟩
    rw [hempty]
    exact Nat.zero_le 1

/-- Each name that a context owns has a value, or none. -/
theorem exists_value {name : String} (hname : name ∈ contextHeaders) :
    ∃ value, (name, value) ∈ contextValues site ctx browser := by
  obtain ⟨⟨_, value⟩, hitem, rfl⟩ := List.mem_map.mp (@names_contextValues ctx browser site ▸ hname)
  exact ⟨value, hitem⟩

/-- With each owned name at most once the headers are coherent afterwards. -/
theorem coherent_of_ownedOnce (hsite : lib.siteFor ctx = .ok site) (howned : OwnedOnce lib headers ctx user) :
    Coherent lib headers ctx browser user site (applyEdits lib.toStrLib user (headers.getD .empty)
      ((contextValues site ctx browser).filterMap editFor)) := by
  have hvalues : ∀ item ∈ contextValues site ctx browser, item.1 ∉ user →
      valuesOf lib.toStrLib item.1 (applyEdits lib.toStrLib user (headers.getD .empty)
        ((contextValues site ctx browser).filterMap editFor)).items = item.2.toList := by
    intro item hitem huser
    obtain ⟨hone, hpriority⟩ := howned item.1 (names_contextValues ▸ List.mem_map_of_mem hitem) huser
    refine (owned_iff hitem huser).mpr ⟨hone, fun hname hnone => hpriority hname ?_⟩
    obtain ⟨name, value⟩ := item
    obtain rfl : name = "priority" := hname
    exact (value_of_priority hitem).symm.trans hnone
  refine ⟨hvalues, fun name hkept => ?_, ?_⟩
  · by_cases hname : name ∈ contextHeaders
    · obtain ⟨huser, hentry⟩ := hkept hname
      rw [← items_getD] at hentry ⊢
      exact entriesOf_applyEdits_of_user separate_contextValues huser hentry
    · rw [← items_getD]
      refine entriesOf_applyEdits_of_not_mem separate_contextValues fun hmem => hname ?_
      exact names_contextValues ▸ (targets_sublist (contextValues site ctx browser)).subset hmem
  · -- the second time, every edit finds its value or an entry of the caller
    rw [applyContext_eq hsite]
    refine congrArg Except.ok (applyEdits_eq_self fun edit hedit => ?_)
    obtain ⟨item, hitem, hsome⟩ := List.mem_filterMap.mp hedit
    obtain ⟨htarget, hvalue⟩ := editFor_eq_some hsome
    by_cases huser : edit.target ∈ user
    · exact .inr ⟨huser, entriesOf_applyEdits_ne_nil separate_contextValues hedit⟩
    · refine .inl ?_
      have howned := hvalues item hitem (htarget ▸ huser)
      rw [← htarget, ← hvalue] at howned
      exact howned

/-- A context is applied coherently if and only if its URLs can be split, no header of its own has two spellings, and
no `Priority` is there that it does not have. -/
theorem applyContext_coherent_iff (lib : ContextLib) (headers : Option Headers) (ctx : RequestContext)
    (browser : String) (user : List String) :
    (∃ site merged, lib.siteFor ctx = .ok site ∧ lib.applyContext headers ctx browser user = .ok merged ∧
      Coherent lib headers ctx browser user site merged) ↔ lib.Splits ctx ∧ OwnedOnce lib headers ctx user := by
  constructor
  · rintro ⟨site, merged, hsite, hmerged, hcoherent⟩
    refine ⟨siteFor_ok_iff.mp ⟨site, hsite⟩, fun name hname huser => ?_⟩
    rw [applyContext_eq hsite] at hmerged
    obtain rfl := Except.ok.inj hmerged
    obtain ⟨value, hitem⟩ := @exists_value ctx browser site name hname
    obtain ⟨hone, hpriority⟩ := (owned_iff hitem huser).mp (hcoherent.owned _ hitem huser)
    refine ⟨hone, fun heq hnone => hpriority heq ?_⟩
    subst heq
    exact (value_of_priority hitem).trans hnone
  · rintro ⟨hsplits, howned⟩
    obtain ⟨site, hsite⟩ := siteFor_ok_iff.mpr hsplits
    exact ⟨site, _, hsite, applyContext_eq hsite, coherent_of_ownedOnce hsite howned⟩

/-- A fetch of low urgency, for which Chrome sends no `Priority`. -/
def lowFetch : RequestContext where
  mode := "cors"
  dest := "empty"
  site := some "same-origin"
  urgency := some 3

/-- The `Priority` of a navigation stays on it. -/
theorem not_coherent :
    plainContext.applyContext (some (PyDict.empty.set "priority" "u=0, i")) lowFetch "chrome" [] =
        .ok (((((PyDict.empty.set "priority" "u=0, i").set "sec-fetch-mode" "cors").set "sec-fetch-dest" "empty").set
          "sec-fetch-site" "same-origin").set "accept" "*/*") ∧
      ¬∀ (lib : ContextLib) (headers : Option Headers) (ctx : RequestContext) (browser : String) (user : List String),
        ∃ site merged, lib.siteFor ctx = .ok site ∧ lib.applyContext headers ctx browser user = .ok merged ∧
          Coherent lib headers ctx browser user site merged := by
  have happly : plainContext.applyContext (some (PyDict.empty.set "priority" "u=0, i")) lowFetch "chrome" [] =
      .ok (((((PyDict.empty.set "priority" "u=0, i").set "sec-fetch-mode" "cors").set "sec-fetch-dest" "empty").set
        "sec-fetch-site" "same-origin").set "accept" "*/*") := by decide
  refine ⟨happly, fun hall => ?_⟩
  obtain ⟨site, merged, -, hmerged, hcoherent⟩ :=
    hall plainContext (some (PyDict.empty.set "priority" "u=0, i")) lowFetch "chrome" []
  obtain rfl := Except.ok.inj (happly.symm.trans hmerged)
  have hpriority := hcoherent.owned ("priority", none) (by simp [contextValues]; decide) List.not_mem_nil
  revert hpriority
  decide

end Context

end TlsClient.Python
