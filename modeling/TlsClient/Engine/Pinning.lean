import Mathlib.Data.List.AList
import TlsClient.Ffi.Values

/-!
# Certificate pins

Embeds `src/pinner.go`. The pins of all clients live in one store of the process, `certificatePinStorage`:
`NewCertificatePinner` files the pins of its client there, and `Pin` judges a connection of any client with
pins by what the store holds for the host. The package `hpkp` is a parameter.

So a client's own pins decide exactly where the store agrees with them (`pin_isolated`). Another client that
pins a host otherwise overwrites the entry, and `*.d` is filed under `d` itself, unless `d` has these pins
already.
-/

namespace TlsClient.Engine.Pinning

open TlsClient.Ffi

/-- A `[]string` of fingerprints; `none` is the nil slice, which `reflect.DeepEqual` tells from an empty
one. -/
abbrev Pins := Option (List Bytes)

/-- `hpkp.Header`. -/
structure Header where
  permanent : Bool
  sha256Pins : Pins
  includeSubDomains : Bool

/-- A `map[string][]string` with the order in which a `range` visits it. -/
abbrev PinMap := AList fun _ : Bytes => Pins

/-- The package `hpkp` with a store `S`, on the certificates `C`. -/
structure Hpkp (S C : Type) where
  newMemStorage : S
  lookup : S → Bytes → Option Header
  add : S → Bytes → Header → S
  fingerprint : C → Bytes
  headerMatches : Header → Bytes → Bool

/-- What follows each dot of a name, the longest first. -/
def parents : Bytes → List Bytes
  | [] => []
  | b :: rest => if b = 46 then rest :: parents rest else parents rest

/-- What is relied on of the store, whose entries are `entry`: `Add` overwrites the entry of a host, and
`Lookup` gives the entry of the host or of the nearest parent marked `IncludeSubDomains`. -/
structure Hpkp.Lawful {S C : Type} (hpkp : Hpkp S C) (entry : S → Bytes → Option Header) : Prop where
  entry_new : ∀ host, entry hpkp.newMemStorage host = none
  entry_add : ∀ s host header name,
    entry (hpkp.add s host header) name = if name = host then some header else entry s name
  lookup_eq : ∀ s host, hpkp.lookup s host =
    (entry s host).or (((parents host).filterMap (entry s)).find? (·.includeSubDomains))
  headerMatches_iff : ∀ header pin, hpkp.headerMatches header pin = true ↔ pin ∈ header.sha256Pins.getD []

/-- `strings.Contains(host, "*.")`. -/
def isWildcard : Bytes → Bool
  | 42 :: 46 :: _ => true
  | _ :: rest => isWildcard rest
  | [] => false

/-- `strings.ReplaceAll(host, "*.", "")`. -/
def dropWildcards : Bytes → Bytes
  | 42 :: 46 :: rest => dropWildcards rest
  | b :: rest => b :: dropWildcards rest
  | [] => []

variable {S C : Type}

namespace Hpkp

/-- One round of the loop of `certificatePinner.init`. -/
def initHost (hpkp : Hpkp S C) (store : S) (host : Bytes) (pinsByHost : Pins) : S :=
  let includeSubdomains := isWildcard host
  let host := if includeSubdomains then dropWildcards host else host
  let header : Header := ⟨true, pinsByHost, includeSubdomains⟩
  match hpkp.lookup store host with
  | some pinnedHost => if pinnedHost.sha256Pins = pinsByHost then store else hpkp.add store host header
  | none => hpkp.add store host header

/-- `certificatePinner.init`. -/
def init (hpkp : Hpkp S C) (store : S) (certificatePins : PinMap) : S :=
  certificatePins.entries.foldl (fun store e => hpkp.initHost store e.1 e.2) store

/-- `certificatePinner.Pin`; the error carries the pins that were found. -/
def pin (hpkp : Hpkp S C) (store : S) (certificatePins : PinMap) (host : Bytes) (peerCertificates : List C) :
    Except (List Bytes) Unit :=
  if certificatePins.entries.isEmpty then .ok ()
  else
    match hpkp.lookup store host with
    | none => .ok ()
    | some pinnedHost =>
      let actualPins := peerCertificates.map hpkp.fingerprint
      if actualPins.any (hpkp.headerMatches pinnedHost) then .ok () else .error actualPins

/-- The store after pinners for these maps have been made. -/
def storage (hpkp : Hpkp S C) (history : List PinMap) : S :=
  history.foldl hpkp.init hpkp.newMemStorage

end Hpkp

/-! ## What a client's own pins say -/

/-- The key `*.d`. -/
def wildcard (d : Bytes) : Bytes := 42 :: 46 :: d

/-- The pins of the entry that covers a host: its own, or those of `*.d` for its nearest parent `d`. -/
def covering (certificatePins : PinMap) (host : Bytes) : Option Pins :=
  (certificatePins.lookup host).or
    ((parents host).filterMap fun d => certificatePins.lookup (wildcard d)).head?

/-- No entry covers the host, or some certificate matches the pins of the one that does. -/
def Allowed (hpkp : Hpkp S C) (certificatePins : PinMap) (host : Bytes) (peerCertificates : List C) : Prop :=
  ∀ pins ∈ covering certificatePins host,
    ∃ cert ∈ peerCertificates, hpkp.fingerprint cert ∈ pins.getD []

/-- The store judges the certificates as the client's own pins do. -/
def Agrees (hpkp : Hpkp S C) : Option Header → Option Pins → Prop
  | none, none => True
  | some header, some pins =>
    ∀ cert, hpkp.fingerprint cert ∈ header.sha256Pins.getD [] ↔ hpkp.fingerprint cert ∈ pins.getD []
  | _, _ => False

variable {hpkp : Hpkp S C} {entry : S → Bytes → Option Header} {store : S} {host : Bytes}
  {certificatePins : PinMap} {history : List PinMap} {peers : List C}

/-- A host passes exactly if each of its entries has a pin of a certificate. -/
theorem pin_ok_iff (h : hpkp.Lawful entry) (hpins : certificatePins.entries ≠ []) :
    hpkp.pin store certificatePins host peers = .ok () ↔ ∀ header ∈ hpkp.lookup store host,
      ∃ cert ∈ peers, hpkp.fingerprint cert ∈ header.sha256Pins.getD [] := by
  rw [Hpkp.pin, if_neg (by simpa using hpins)]
  cases hpkp.lookup store host with
  | none => simp
  | some header =>
    have hany : (peers.map hpkp.fingerprint).any (hpkp.headerMatches header) = true ↔
        ∃ cert ∈ peers, hpkp.fingerprint cert ∈ header.sha256Pins.getD [] := by
      simp [h.headerMatches_iff]
    dsimp only
    rw [← show (_ ↔ ∀ header' ∈ some header, _) from
      ⟨fun hex header' hmem => (Option.some.inj hmem) ▸ hex, fun hall => hall header rfl⟩, ← hany]
    split_ifs with hmatch
    · exact iff_of_true rfl hmatch
    · exact iff_of_false (by simp) hmatch

/-- A client with pins is judged by its own exactly where the store agrees with them. -/
theorem pin_iff_allowed (h : hpkp.Lawful entry) (hpins : certificatePins.entries ≠ []) :
    (∀ peers, hpkp.pin store certificatePins host peers = .ok () ↔
      Allowed hpkp certificatePins host peers) ↔
    Agrees hpkp (hpkp.lookup store host) (covering certificatePins host) := by
  simp only [pin_ok_iff h hpins, Allowed]
  cases hpkp.lookup store host with
  | none =>
    cases covering certificatePins host with
    | none => exact iff_of_true (fun peers => by simp) trivial
    | some pins => exact iff_of_false (fun hall => by simpa using (hall []).mp (by simp)) id
  | some header =>
    cases covering certificatePins host with
    | none => exact iff_of_false (fun hall => by simpa using (hall []).mpr (by simp)) id
    | some pins =>
      constructor
      · -- a connection with one certificate tells what both say about it
        intro hall cert
        simpa using hall [cert]
      · intro hagrees peers
        simp only [Option.mem_def, Option.some.injEq, forall_eq']
        exact exists_congr fun cert => and_congr_right fun _ => hagrees cert

/-! ## Clients with the same pins -/

/-- Every entry of the store is one of `shared`, for its host alone. -/
def Filed (entry : S → Bytes → Option Header) (store : S) (shared : PinMap) : Prop :=
  ∀ name header, entry store name = some header →
    header.includeSubDomains = false ∧ shared.lookup name = some header.sha256Pins

variable {shared : PinMap} {key : Bytes} {pins : Pins}

/-- Without an entry for subdomains a lookup gives the entry of the host. -/
theorem Filed.lookup_eq (hfiled : Filed entry store shared) (h : hpkp.Lawful entry) (host : Bytes) :
    hpkp.lookup store host = entry store host := by
  have hnone : ((parents host).filterMap (entry store)).find? (·.includeSubDomains) = none := by
    rw [List.find?_eq_none]
    intro header hmem
    obtain ⟨name, -, hentry⟩ := List.mem_filterMap.mp hmem
    simp [(hfiled name header hentry).1]
  rw [h.lookup_eq, hnone, Option.or_none]

/-- A round of the loop files an entry and keeps the others. -/
theorem Filed.initHost (hfiled : Filed entry store shared) (h : hpkp.Lawful entry)
    (hkey : isWildcard key = false) (hshared : shared.lookup key = some pins) :
    Filed entry (hpkp.initHost store key pins) shared ∧
      (entry (hpkp.initHost store key pins) key).isSome ∧
      ∀ name, (entry store name).isSome → (entry (hpkp.initHost store key pins) name).isSome := by
  -- adding the pins files them under the key and loses no other key
  have hadd : Filed entry (hpkp.add store key ⟨true, pins, false⟩) shared ∧
      (entry (hpkp.add store key ⟨true, pins, false⟩) key).isSome ∧
      ∀ name, (entry store name).isSome → (entry (hpkp.add store key ⟨true, pins, false⟩) name).isSome := by
    refine ⟨fun name header hentry => ?_, by rw [h.entry_add, if_pos rfl]; rfl, fun name hname => ?_⟩
    · rw [h.entry_add] at hentry
      split_ifs at hentry with hname
      · obtain rfl := Option.some.inj hentry
        exact ⟨rfl, hname ▸ hshared⟩
      · exact hfiled name header hentry
    · rw [h.entry_add]
      split_ifs
      · rfl
      · exact hname
  rw [Hpkp.initHost, hkey]
  simp only [Bool.false_eq_true, if_false, hfiled.lookup_eq h]
  cases hentry : entry store key with
  | none => exact hadd
  | some pinned =>
    dsimp only
    split_ifs
    · exact ⟨hfiled, by rw [hentry]; rfl, fun _ hname => hname⟩
    · exact hadd

/-- The entries are filed one after another. -/
theorem Filed.foldl (h : hpkp.Lawful entry) (hkeys : ∀ key ∈ shared.keys, isWildcard key = false)
    {es : List (Sigma fun _ : Bytes => Pins)} (hes : ∀ e ∈ es, e ∈ shared.entries)
    (hfiled : Filed entry store shared) :
    let store' := es.foldl (fun store e => hpkp.initHost store e.1 e.2) store
    Filed entry store' shared ∧ (∀ e ∈ es, (entry store' e.1).isSome) ∧
      ∀ name, (entry store name).isSome → (entry store' name).isSome := by
  induction es generalizing store with
  | nil => exact ⟨hfiled, fun e he => absurd he List.not_mem_nil, fun _ hname => hname⟩
  | cons e es ih =>
    have hmem := hes e List.mem_cons_self
    obtain ⟨hstep, hhead, hkept⟩ := hfiled.initHost h (hkeys e.1 (List.mem_keys_of_mem hmem))
      (AList.mem_lookup_iff.mpr hmem)
    obtain ⟨hall, htail, hkept'⟩ := ih (fun e' he' => hes e' (List.mem_cons_of_mem _ he')) hstep
    refine ⟨hall, fun e' he' => ?_, fun name hname => hkept' name (hkept name hname)⟩
    rcases List.mem_cons.mp he' with rfl | he'
    · exact hkept' _ hhead
    · exact htail e' he'

/-- Clients with the same pins leave the store as the pins of one of them. -/
theorem filed_storage (h : hpkp.Lawful entry) (hkeys : ∀ key ∈ shared.keys, isWildcard key = false)
    (hhistory : ∀ own ∈ history, own.entries = [] ∨ own.entries.Perm shared.entries)
    (hfiled : Filed entry store shared) :
    Filed entry (history.foldl hpkp.init store) shared ∧
      ((∃ own ∈ history, own.entries ≠ []) ∨ (∀ key ∈ shared.keys, (entry store key).isSome) →
        ∀ key ∈ shared.keys, (entry (history.foldl hpkp.init store) key).isSome) := by
  induction history generalizing store with
  | nil => exact ⟨hfiled, fun hor => hor.elim (fun ⟨_, hmem, _⟩ => absurd hmem List.not_mem_nil) id⟩
  | cons own history ih =>
    have hown : ∀ e ∈ own.entries, e ∈ shared.entries := fun e he =>
      (hhistory own List.mem_cons_self).elim (fun hnil => absurd he (by simp [hnil])) fun hperm => hperm.mem_iff.mp he
    obtain ⟨hstep, hall, hkept⟩ := Filed.foldl h hkeys hown hfiled
    obtain ⟨hfinal, hpresent⟩ := ih (fun own' hmem => hhistory own' (List.mem_cons_of_mem _ hmem)) hstep
    refine ⟨hfinal, fun hor => ?_⟩
    rcases hor with ⟨own', hmem, hne⟩ | hpresent'
    · rcases List.mem_cons.mp hmem with rfl | hmem
      · -- this client files every entry of `shared`
        refine hpresent (.inr fun key hkey => ?_)
        have hperm := (hhistory own' List.mem_cons_self).resolve_left hne
        obtain ⟨pins, hpins⟩ := List.exists_of_mem_keys (AList.mem_keys.mp hkey)
        exact hall ⟨key, pins⟩ (hperm.mem_iff.mpr hpins)
      · exact hpresent (.inl ⟨own', hmem, hne⟩)
    · exact hpresent (.inr fun key hkey => hkept key (hpresent' key hkey))

/-- There is no entry for a wildcard. -/
theorem lookup_wildcard (hkeys : ∀ key ∈ shared.keys, isWildcard key = false) (d : Bytes) :
    shared.lookup (wildcard d) = none := by
  refine AList.lookup_eq_none.mpr fun hmem => ?_
  have hfalse := hkeys (wildcard d) (AList.mem_keys.mp hmem)
  simp [wildcard, isWildcard] at hfalse

/-- Without wildcards an entry covers its host alone. -/
theorem covering_eq (hkeys : ∀ key ∈ shared.keys, isWildcard key = false)
    (hperm : certificatePins.entries.Perm shared.entries) (host : Bytes) :
    covering certificatePins host = shared.lookup host := by
  have hnone : ((parents host).filterMap fun d => certificatePins.lookup (wildcard d)) = [] := by
    rw [List.filterMap_eq_nil_iff]
    intro d _
    rw [AList.perm_lookup hperm, lookup_wildcard hkeys]
  rw [covering, hnone, List.head?_nil, Option.or_none, AList.perm_lookup hperm]

/-- `Pin` is decided by the client's own pins exactly if it has none or the store agrees with them for the
host; and it always is if all clients with pins have the same ones, without wildcards. -/
theorem pin_isolated (h : hpkp.Lawful entry) (history : List PinMap) :
    (∀ own ∈ history, ∀ host,
      (∀ peers, hpkp.pin (hpkp.storage history) own host peers = .ok () ↔ Allowed hpkp own host peers) ↔
        own.entries = [] ∨ Agrees hpkp (hpkp.lookup (hpkp.storage history) host) (covering own host)) ∧
    ∀ shared : PinMap, (∀ key ∈ shared.keys, isWildcard key = false) →
      (∀ own ∈ history, own.entries = [] ∨ own.entries.Perm shared.entries) →
      ∀ own ∈ history, ∀ host peers,
        hpkp.pin (hpkp.storage history) own host peers = .ok () ↔ Allowed hpkp own host peers := by
  -- without pins of its own a client asks nothing of the store
  have hempty : ∀ own : PinMap, own.entries = [] → ∀ host peers,
      hpkp.pin (hpkp.storage history) own host peers = .ok () ↔ Allowed hpkp own host peers := by
    intro own hnil host peers
    have hnone : ∀ name, own.lookup name = none := fun name =>
      AList.lookup_eq_none.mpr fun hmem => by simp [AList.mem_keys, AList.keys, hnil] at hmem
    have hcover : covering own host = none := by simp [covering, hnone]
    refine iff_of_true (by rw [Hpkp.pin, hnil]; rfl) fun pins hpins => ?_
    rw [hcover] at hpins
    contradiction
  refine ⟨fun own _ host => ?_, fun shared hkeys hhistory own hown host peers => ?_⟩
  · by_cases hnil : own.entries = []
    · exact iff_of_true (hempty own hnil host) (.inl hnil)
    · rw [pin_iff_allowed h hnil, or_iff_right hnil]
  · by_cases hnil : own.entries = []
    · exact hempty own hnil host peers
    · have hperm := (hhistory own hown).resolve_left hnil
      -- the invariant of the store: what is filed for a name are the shared pins
      have hnew : Filed entry hpkp.newMemStorage shared := fun name header hentry => by
        rw [h.entry_new] at hentry
        contradiction
      obtain ⟨hfiled, hpresent⟩ := filed_storage h hkeys hhistory hnew
      refine (pin_iff_allowed h hnil).mpr ?_ peers
      rw [Hpkp.storage, hfiled.lookup_eq h, covering_eq hkeys hperm]
      cases hentry : entry (history.foldl hpkp.init hpkp.newMemStorage) host with
      | none =>
        cases hshared : shared.lookup host with
        | none => trivial
        | some pins =>
          have hkey : host ∈ shared.keys :=
            AList.mem_keys.mp (AList.lookup_isSome.mp (by rw [hshared]; rfl))
          have hsome := hpresent (.inl ⟨own, hown, hnil⟩) host hkey
          rw [hentry] at hsome
          contradiction
      | some header =>
        rw [(hfiled host header hentry).2]
        exact fun cert => Iff.rfl

/-- `hpkp` with a function for the store, on certificates that are their own fingerprints. -/
def memHpkp : Hpkp (Bytes → Option Header) Bytes where
  newMemStorage _ := none
  lookup s host := (s host).or (((parents host).filterMap s).find? (·.includeSubDomains))
  add s host header name := if name = host then some header else s name
  fingerprint cert := cert
  headerMatches header pin := decide (pin ∈ header.sha256Pins.getD [])

/-- A store in memory does what is asked of it. -/
theorem memHpkp_lawful : memHpkp.Lawful fun s name => s name where
  entry_new _ := rfl
  entry_add _ _ _ _ := rfl
  lookup_eq _ _ := rfl
  headerMatches_iff _ _ := decide_eq_true_iff

/-- The pins of one host, `b.c`. -/
def pinsOf (pin : Bytes) : PinMap := (∅ : PinMap).insert [98, 46, 99] (some [pin])

/-- Two clients with the same pins: each accepts the pinned certificate and no other. -/
theorem pin_isolated_same :
    (memHpkp.pin (memHpkp.storage [pinsOf [1], pinsOf [1]]) (pinsOf [1]) [98, 46, 99] [[1]] = .ok () ↔
      Allowed memHpkp (pinsOf [1]) [98, 46, 99] [[1]]) ∧
    (memHpkp.pin (memHpkp.storage [pinsOf [1], pinsOf [1]]) (pinsOf [1]) [98, 46, 99] [[2]] = .ok () ↔
      Allowed memHpkp (pinsOf [1]) [98, 46, 99] [[2]]) := by
  have hown : pinsOf [1] ∈ [pinsOf [1], pinsOf [1]] := List.mem_cons_self
  have hsame := (pin_isolated memHpkp_lawful [pinsOf [1], pinsOf [1]]).2 (pinsOf [1]) (by decide) (by
    intro own hown
    simp only [List.mem_cons, List.not_mem_nil, or_false, or_self] at hown
    exact .inr (by rw [hown]))
  exact ⟨hsame (pinsOf [1]) hown [98, 46, 99] [[1]], hsame (pinsOf [1]) hown [98, 46, 99] [[2]]⟩

/-- A second client that pins the host otherwise changes what the first one accepts. -/
theorem pin_overwritten :
    let host : Bytes := [98, 46, 99]
    Allowed memHpkp (pinsOf [1]) host [[1]] ∧
      memHpkp.pin (memHpkp.storage [pinsOf [1]]) (pinsOf [1]) host [[1]] = .ok () ∧
      memHpkp.pin (memHpkp.storage [pinsOf [1], pinsOf [2]]) (pinsOf [1]) host [[1]] = .error [[1]] ∧
      memHpkp.pin (memHpkp.storage [pinsOf [1], pinsOf [2]]) (pinsOf [1]) host [[2]] = .ok () := by
  refine ⟨?_, by decide, by decide, by decide⟩
  intro pins hpins
  obtain rfl : some [[1]] = pins := by
    have hpins : some (some [[1]]) = some pins := hpins
    exact Option.some.inj hpins
  exact ⟨[1], by decide, by decide⟩

end TlsClient.Engine.Pinning
