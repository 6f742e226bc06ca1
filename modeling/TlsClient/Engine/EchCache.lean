import TlsClient.Engine.EchRecord
import TlsClient.Ffi.CStruct
import TlsClient.Library.Hex
import TlsClient.Library.Run

/-!
# The cache of ECH configurations

Embeds `ResolveECHConfig` and `fetchECHConfigFromDNS` of `src/cffi_binding/ech.go`, and `resolve` of
`src/tls_client/ech.py`. A call comes with what the environment makes of it: the answer of the DoH server, and
the clock before and after the query. The Base64 text of an answer stands here as what decoding gives.

An entry without data stands for a host without a configuration: "negative results are cached briefly". The
call that stores it returns NULL, but a call that finds it encodes its data like those of any other entry, and
returns the empty string. `resolve` takes that for a configuration, the empty one.

Every call is logged together with whether it found an entry that had not expired. `Transparent` says of the log
that each of these calls returned what the call that filled the entry had returned.
-/

namespace TlsClient.Engine.EchCache

open TlsClient.Ffi TlsClient.Engine.EchRecord Utf8

/-- Durations in nanoseconds. -/
def minute : ℤ := 60 * 1000000000

def echCacheTTL : ℤ := 60 * minute

structure EchCacheEntry where
  data : Bytes
  expire : ℤ
deriving DecidableEq, Repr

/-- `echCache`, a `sync.Map`. -/
abbrev Cache := Bytes → Option EchCacheEntry

/-- `data` is what its Base64 text decodes to, if it does. -/
structure DohAnswer where
  type : ℤ
  data : Option Bytes
deriving DecidableEq, Repr

/-- What comes of the query: an error before the answers are decoded, or the answers. -/
inductive DohReply
  | failed
  | answered (answers : List DohAnswer)
deriving DecidableEq, Repr

/-- The loop over the answers: the first configuration in an HTTPS record, or `none` for `nil`. -/
def firstConfig : List DohAnswer → WireBytes.Checked (Option Bytes)
  | [] => .ok none
  | answer :: rest =>
    if answer.type ≠ 65 then firstConfig rest
    else
      match answer.data with
      | none => firstConfig rest
      | some rdata => do
        match ← extractECHFromRDATA rdata with
        | none => firstConfig rest
        | some ech => return some ech

/-- `fetchECHConfigFromDNS`: `none` for an error, `some none` where no ECH is advertised. -/
def fetchECHConfigFromDNS : DohReply → WireBytes.Checked (Option (Option Bytes))
  | .failed => .ok none
  | .answered answers => do return some (← firstConfig answers)

/-- A call of `ResolveECHConfig`, with the clock at the lookup and at the store. -/
structure Call where
  host : CharPtr
  now : ℤ
  reply : DohReply
  later : ℤ
deriving DecidableEq, Repr

def Call.name (call : Call) : Bytes := goString call.host

/-- The part of `ResolveECHConfig` behind the lookup. -/
def fetchAndStore (cache : Cache) (call : Call) : WireBytes.Checked (Cache × CharPtr) := do
  match ← fetchECHConfigFromDNS call.reply with
  | some (some (b :: payload)) =>
    let entry := ⟨b :: payload, call.later + echCacheTTL⟩
    return (Function.update cache call.name (some entry), some (hexText (b :: payload)))
  | _ =>
    let entry := ⟨[], call.later + 5 * minute⟩
    return (Function.update cache call.name (some entry), none)

/-- `ResolveECHConfig`: the cache after the call, and the text returned. -/
def resolveECHConfig (cache : Cache) (call : Call) : WireBytes.Checked (Cache × CharPtr) :=
  if call.host = none ∨ call.name = [] then .ok (cache, none)
  else
    match cache call.name with
    | some e =>
      if call.now < e.expire then .ok (cache, some (hexText e.data))
      else fetchAndStore (Function.update cache call.name none) call
    | none => fetchAndStore cache call

/-! ## The Python side -/

/-- `bytes.fromhex` raises `ValueError`. -/
inductive ValueError
  | nonHexadecimal
deriving DecidableEq, Repr

/-- The white space of ASCII. -/
def isSpace (c : UInt8) : Bool := c = 32 || (9 ≤ c.toNat && c.toNat ≤ 13)

/-- `bytes.fromhex`, which skips white space between the bytes. -/
def fromhex : Bytes → Except ValueError Bytes
  | [] => .ok []
  | [c] => if isSpace c then .ok [] else .error .nonHexadecimal
  | c :: d :: rest =>
    if isSpace c then fromhex (d :: rest)
    else
      match hexByte c d with
      | none => .error .nonHexadecimal
      | some b => do return b :: (← fromhex rest)

/-- `resolve`, given what the engine returns: only a NULL pointer is false. -/
def resolve : CharPtr → Except ValueError (Option Bytes)
  | none => .ok none
  | some raw => do return some (← fromhex raw)

/-- Hexadecimal digits are no spaces. -/
theorem isSpace_hexDigit {n : ℕ} (hn : n < 16) : isSpace (hexDigit n) = false := by
  have hval := toNat_hexDigit hn
  have hne : hexDigit n ≠ 32 := by
    intro heq
    rw [heq] at hval
    split at hval <;> simp at hval <;> omega
  have hlow : ¬(hexDigit n).toNat ≤ 13 := by
    rw [hval]
    split <;> omega
  simp [isSpace, hne, hlow]

/-- Python reads back what the engine writes in hexadecimal. -/
theorem fromhex_hexText (bs : Bytes) : fromhex (hexText bs) = .ok bs := by
  induction bs with
  | nil => rfl
  | cons b bs ih =>
    have hlt := b.toNat_lt
    rw [hexText_cons, fromhex, isSpace_hexDigit (by omega), hexByte_hexDigit]
    simp only [Bool.false_eq_true, if_false, ih]
    rfl

/-! ## The calls one after another -/

/-- A call in the log: it is a hit if it found an entry that had not expired. -/
structure Record where
  name : Bytes
  hit : Bool
  raw : CharPtr
deriving DecidableEq, Repr

/-- The entry that a lookup takes. -/
def Cache.live (cache : Cache) (name : Bytes) (now : ℤ) : Option EchCacheEntry :=
  (cache name).filter fun e => now < e.expire

/-- The cache and the calls so far, the last one first. -/
structure State where
  cache : Cache := fun _ => none
  log : List Record := []

def step (s : State) (call : Call) : State :=
  match resolveECHConfig s.cache call with
  | .ok (cache, raw) => ⟨cache, ⟨call.name, (s.cache.live call.name call.now).isSome, raw⟩ :: s.log⟩
  | .error _ => s

/-- The call that filled the entry of a host: the last one for the host that was no hit. -/
def filler (name : Bytes) (log : List Record) : Option Record :=
  log.find? fun r => r.name = name && !r.hit

/-- A hit returns what the call that filled the entry returned, which in Python is `None` for a host without a
configuration. -/
def Agrees (r f : Record) : Prop :=
  r.raw = f.raw ∧ (f.raw = none → resolve r.raw = .ok none)

/-- What the cache promises about all calls. -/
def Transparent : List Record → Prop
  | [] => True
  | r :: older => (r.hit → ∃ f ∈ filler r.name older, Agrees r f) ∧ Transparent older

/-- The condition on a call: it does not find an entry without data that has not expired. -/
def NoNegativeHit (s : State) (call : Call) : Prop :=
  ∀ e ∈ s.cache.live call.name call.now, e.data ≠ []

/-! ## One call -/

/-- The search through the answers never panics. -/
theorem firstConfig_ok (answers : List DohAnswer) : ∃ config, firstConfig answers = .ok config := by
  induction answers with
  | nil => exact ⟨none, rfl⟩
  | cons answer rest ih =>
    rw [firstConfig]
    split_ifs
    · exact ih
    · cases hdata : answer.data with
      | none => exact ih
      | some rdata =>
        obtain ⟨ech, hech⟩ := extractECHFromRDATA_ok rdata
        simp only [hech, bind, Except.bind]
        cases ech with
        | none => exact ih
        | some ech => exact ⟨some ech, rfl⟩

/-- Neither does the fetch. -/
theorem fetchECHConfigFromDNS_ok (reply : DohReply) : ∃ fetched, fetchECHConfigFromDNS reply = .ok fetched := by
  cases reply with
  | failed => exact ⟨none, rfl⟩
  | answered answers =>
    obtain ⟨config, hconfig⟩ := firstConfig_ok answers
    refine ⟨some config, ?_⟩
    rw [fetchECHConfigFromDNS, hconfig]
    rfl

/-- What a call that stores an entry returns for the data of the entry. -/
def shown (data : Bytes) : CharPtr :=
  if data = [] then none else some (hexText data)

/-- A fetch stores an entry and returns its data. -/
theorem fetchAndStore_ok (cache : Cache) (call : Call) :
    ∃ e, fetchAndStore cache call = .ok (Function.update cache call.name (some e), shown e.data) := by
  obtain ⟨fetched, hfetched⟩ := fetchECHConfigFromDNS_ok call.reply
  rw [fetchAndStore, hfetched]
  simp only [bind, Except.bind]
  rcases fetched with - | - | - | ⟨b, payload⟩
  · exact ⟨⟨[], call.later + 5 * minute⟩, rfl⟩
  · exact ⟨⟨[], call.later + 5 * minute⟩, rfl⟩
  · exact ⟨⟨[], call.later + 5 * minute⟩, rfl⟩
  · exact ⟨⟨b :: payload, call.later + echCacheTTL⟩, rfl⟩

/-- Everything that a call can do. -/
inductive Effect (s : State) (call : Call) : State → Prop
  | noName (hname : call.name = []) :
    Effect s call { s with log := ⟨[], (s.cache.live [] call.now).isSome, none⟩ :: s.log }
  | hit (e : EchCacheEntry) (hlive : s.cache.live call.name call.now = some e) :
    Effect s call { s with log := ⟨call.name, true, some (hexText e.data)⟩ :: s.log }
  | fill (e : EchCacheEntry) (hname : call.name ≠ []) (hlive : s.cache.live call.name call.now = none) :
    Effect s call
      ⟨Function.update s.cache call.name (some e), ⟨call.name, false, shown e.data⟩ :: s.log⟩

/-- Every call has its effect. -/
theorem effect_step (s : State) (call : Call) : Effect s call (step s call) := by
  by_cases hname : call.name = []
  · rw [step, resolveECHConfig, if_pos (.inr hname), hname]
    exact .noName hname
  · have hhost : ¬(call.host = none ∨ call.name = []) := by
      rintro (hnone | hempty)
      · exact hname (by rw [Call.name, hnone, goString_none])
      · exact hname hempty
    rw [step, resolveECHConfig, if_neg hhost]
    cases hentry : s.cache call.name with
    | none =>
      have hlive : s.cache.live call.name call.now = none := by rw [Cache.live, hentry]; rfl
      obtain ⟨e, he⟩ := fetchAndStore_ok s.cache call
      simp only [he, hlive]
      exact .fill e hname hlive
    | some e =>
      by_cases hnow : call.now < e.expire
      · have hlive : s.cache.live call.name call.now = some e := by simp [Cache.live, hentry, hnow]
        simp only [if_pos hnow, hlive]
        exact .hit e hlive
      · -- an entry that has expired is deleted and stored anew
        have hlive : s.cache.live call.name call.now = none := by
          rw [Cache.live, hentry]
          exact if_neg (by simpa using hnow)
        obtain ⟨e', he'⟩ := fetchAndStore_ok (Function.update s.cache call.name none) call
        rw [Function.update_idem] at he'
        simp only [if_neg hnow, he', hlive]
        exact .fill e' hname hlive

/-! ## Every run -/

/-- The invariant: an entry has the data that the call that filled it returned. -/
structure Filled (s : State) : Prop where
  noName : s.cache [] = none
  entries : ∀ name e, s.cache name = some e → ∃ f, filler name s.log = some f ∧ f.raw = shown e.data

theorem filled_init : Filled {} :=
  ⟨rfl, fun name e hentry => by cases hentry⟩

variable {s : State} {call : Call}

theorem Cache.mem_of_live {cache : Cache} {name : Bytes} {now : ℤ} {e : EchCacheEntry}
    (hlive : cache.live name now = some e) : cache name = some e :=
  (Option.filter_eq_some_iff.mp hlive).1

theorem Filled.live_nil (h : Filled s) (now : ℤ) : s.cache.live [] now = none := by
  rw [Cache.live, h.noName]
  rfl

/-- A hit fills nothing. -/
theorem filler_cons_hit {r : Record} (hhit : r.hit = true) (name : Bytes) (log : List Record) :
    filler name (r :: log) = filler name log := by
  rw [filler, List.find?_cons_of_neg (by simp [hhit])]
  rfl

/-- A call for another name fills nothing for this one. -/
theorem filler_cons_of_ne {r : Record} {name : Bytes} (hne : r.name ≠ name) (log : List Record) :
    filler name (r :: log) = filler name log := by
  rw [filler, List.find?_cons_of_neg (by simp [hne])]
  rfl

/-- Every call keeps the cache filled by its log. -/
theorem filled_step (s : State) (call : Call) (h : Filled s) : Filled (step s call) := by
  have hmove := effect_step s call
  generalize step s call = s' at hmove
  cases hmove with
  | noName hname =>
    refine ⟨h.noName, fun name e hentry => ?_⟩
    have hne : ([] : Bytes) ≠ name := by
      rintro rfl
      rw [h.noName] at hentry
      contradiction
    rw [filler_cons_of_ne hne]
    exact h.entries name e hentry
  | hit e hlive =>
    refine ⟨h.noName, fun name e' hentry => ?_⟩
    rw [filler_cons_hit rfl]
    exact h.entries name e' hentry
  | fill e hname hlive =>
    constructor
    · exact (Function.update_of_ne (Ne.symm hname) _ _).trans h.noName
    · intro name e' hentry
      change Function.update s.cache call.name (some e) name = some e' at hentry
      -- the name that was filled has the new call as its filler, every other name keeps its own
      by_cases heq : name = call.name
      · subst heq
        rw [Function.update_self] at hentry
        obtain rfl := Option.some.inj hentry
        exact ⟨_, List.find?_cons_of_pos (by simp), rfl⟩
      · rw [Function.update_of_ne heq] at hentry
        rw [filler_cons_of_ne (Ne.symm heq)]
        exact h.entries name e' hentry

/-- A call keeps the promise exactly if it finds no entry without data. -/
theorem transparent_step (hfilled : Filled s) :
    Transparent (step s call).log ↔ Transparent s.log ∧ NoNegativeHit s call := by
  have hmove := effect_step s call
  generalize step s call = s' at hmove
  rw [NoNegativeHit]
  cases hmove with
  | noName hname =>
    rw [hname, hfilled.live_nil]
    simp [Transparent]
  | hit e hlive =>
    obtain ⟨f, hf, hraw⟩ := hfilled.entries _ e (Cache.mem_of_live hlive)
    have hagrees : Agrees ⟨call.name, true, some (hexText e.data)⟩ f ↔ e.data ≠ [] := by
      rw [Agrees, hraw, shown]
      by_cases hdata : e.data = []
      · simp [hdata]
      · simp [hdata]
    rw [hlive]
    simp only [Transparent, hf, Option.mem_some_iff, forall_eq', exists_eq_left', hagrees, true_imp_iff]
    exact and_comm
  | fill e hname hlive =>
    rw [hlive]
    simp [Transparent]

/-- Over all calls, each hit returns what the call that filled the entry returned exactly if no call finds an
entry without data that has not expired. -/
theorem transparent_iff_along (calls : List Call) :
    Transparent (Run.exec step {} calls).log ↔ Run.Along step NoNegativeHit {} calls := by
  refine @Run.exec_iff_along _ _ step NoNegativeHit {} calls Filled (fun s => Transparent s.log)
    filled_step ?_ ?_ filled_init trivial
  · intro s call hfilled hgood
    rw [transparent_step hfilled]
    exact and_iff_right hgood
  · intro s call hfilled hbad hnext
    exact hbad ((transparent_step hfilled).mp hnext).1

/-- The host without a configuration that is asked for twice within a second: NULL, then the empty string. -/
def askedTwice : List Call :=
  [⟨some (utf8 "a.com"), 0, .answered [], 0⟩, ⟨some (utf8 "a.com"), 1000000000, .answered [], 1000000000⟩]

/-- The first of the two calls gives no configuration, and the second an empty one. -/
theorem not_transparent :
    ((Run.exec step {} askedTwice).log.map fun r => resolve r.raw) = [.ok (some []), .ok none] ∧
      ¬∀ calls, Transparent (Run.exec step {} calls).log := by
  refine ⟨by decide, fun hall => ?_⟩
  have hlog : (Run.exec step {} askedTwice).log = [⟨utf8 "a.com", true, some []⟩, ⟨utf8 "a.com", false, none⟩] := by
    decide
  have hagrees := hall askedTwice
  rw [hlog] at hagrees
  obtain ⟨f, hf, hraw, -⟩ := hagrees.1 rfl
  obtain rfl : (⟨utf8 "a.com", false, none⟩ : Record) = f := Option.some.inj hf
  contradiction

end TlsClient.Engine.EchCache
