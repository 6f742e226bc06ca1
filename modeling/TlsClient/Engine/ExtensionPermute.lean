import TlsClient.Engine.PoolSound
import TlsClient.Library.Slices

/-!
# The order of the TLS extensions

Embeds `permuteExtensions`, `shuffleSpan` and `applyExtensionPermute` of `src/extension_permute.go`, and
`extensionPermuteConfig` of `src/client_options.go`. The extensions lie in arrays on a heap, so that it shows
which slices a shuffle changes. An extension is of any type; `kind` tells which of the types that the shuffle
asks for it has. Both random sources shuffle alike, and every outcome is a choice of draws.

A swap that touches a pinned extension is skipped, so each swap keeps the pinned extensions where they are, and
with them the whole shuffle does (`pinned_shuffled`).

The prefix mode shuffles the first extensions and leaves the others. The documentation of
`extension_permute_prefix` has it the other way: "keep the first N extensions in place". Besides, every mode but
`PermuteOff` sets the flag on which `UClient` of utls brings the extensions into a random order of its own.
utls is a parameter here (`UClient`), with what the comments of `src/client_options.go` and of
`src/extension_permute.go` say of that order. `prefix_kept_iff` says for which lists the documentation is right.
-/

namespace TlsClient.Engine

open Slices TlsClient.Ffi

/-- The types of extensions that the shuffle distinguishes. -/
inductive ExtensionKind
  | grease
  | preSharedKey
  | padding
  | other
deriving DecidableEq, Repr

def PermuteOff : ℤ := 0

def PermuteChrome : ℤ := 1

def PermuteAll : ℤ := 2

def PermutePrefix : ℤ := 3

/-- `extensionPermuteConfig` -/
structure ExtensionPermuteConfig where
  mode : ℤ
  pre : ℤ
deriving DecidableEq, Repr

/-- What the random sources give: the draws of the source that is seeded, unless reading the seed fails, and
those of the source of the runtime. -/
structure Random where
  seeded : Option Shuffle.Draws
  runtime : Shuffle.Draws

/-- The draws that the shuffle uses. -/
def Random.draws (random : Random) : Shuffle.Draws := random.seeded.getD random.runtime

variable {E : Type} (kind : E → ExtensionKind)

/-- The closure `pinned` of `shuffleSpan`. -/
def pinned (includePadding : Bool) (e : E) : Bool :=
  match kind e with
  | .grease => true
  | .preSharedKey => true
  | .padding => !includePadding
  | .other => false

/-- The closure that `shuffleSpan` gives to `Shuffle`. -/
def swapUnpinned (includePadding : Bool) (exts : Slice) (heap : Heap E) (i j : ℕ) : Heap E :=
  if (read heap exts)[i]?.any (pinned kind includePadding) ∨ (read heap exts)[j]?.any (pinned kind includePadding) then
    heap
  else Slices.swap exts heap i j

def shuffleSpan (heap : Heap E) (exts : Slice) (includePadding : Bool) (random : Random) : Heap E :=
  if exts.len < 2 then heap
  else
    match random.seeded with
    | none => Shuffle.shuffle (swapUnpinned kind includePadding exts) random.runtime exts.len heap
    | some draws => Shuffle.shuffle (swapUnpinned kind includePadding exts) draws exts.len heap

def permuteExtensions (heap : Heap E) (exts : Slice) (cfg : ExtensionPermuteConfig) (random : Random) :
    Heap E × Slice :=
  if cfg.mode = PermuteOff ∨ exts.len = 0 then (heap, exts)
  else
    let (heap, out) := alloc heap (read heap exts)
    if cfg.mode = PermutePrefix ∧ (cfg.pre ≤ 0 ∨ (out.len : ℤ) ≤ cfg.pre) then (heap, out)
    else
      let limit := if cfg.mode = PermutePrefix then cfg.pre.toNat else out.len
      (shuffleSpan kind heap (out.upTo limit) (cfg.mode = PermuteAll) random, out)

/-! ## The order -/

/-- A swap that leaves pinned elements alone. -/
def swapUnlessPinned (p : E → Bool) (l : List E) (i j : ℕ) : List E :=
  if l[i]?.any p ∨ l[j]?.any p then l else Shuffle.swapAt l i j

/-- The shuffle with pinned elements. -/
def shuffled (p : E → Bool) (draw : Shuffle.Draws) (l : List E) : List E :=
  Shuffle.shuffle (swapUnlessPinned p) draw l.length l

/-- The order that `permuteExtensions` gives to a list of extensions. -/
def permuted (cfg : ExtensionPermuteConfig) (random : Random) (l : List E) : List E :=
  if cfg.mode = PermuteOff then l
  else if cfg.mode = PermutePrefix then
    if cfg.pre ≤ 0 ∨ (l.length : ℤ) ≤ cfg.pre then l
    else shuffled (pinned kind false) random.draws (l.take cfg.pre.toNat) ++ l.drop cfg.pre.toNat
  else shuffled (pinned kind (cfg.mode = PermuteAll)) random.draws l

section Shuffled

variable {p : E → Bool} {draw : Shuffle.Draws} {l : List E} {k : ℕ} {e : E}

/-- A swap keeps the extensions. -/
theorem perm_swapUnlessPinned (p : E → Bool) (l : List E) (i j : ℕ) : (swapUnlessPinned p l i j).Perm l := by
  rw [swapUnlessPinned]
  split_ifs
  · exact .refl l
  · exact Shuffle.perm_swapAt l i j

/-- An extension that is swapped with itself stays. -/
theorem swapUnlessPinned_self (p : E → Bool) (l : List E) (i : ℕ) : swapUnlessPinned p l i i = l := by
  rw [swapUnlessPinned, Shuffle.swapAt_self]
  exact ite_self l

/-- A swap leaves a pinned element where it is. -/
theorem pinned_swapUnlessPinned {i j : ℕ} (hi : i < l.length) (hj : j < l.length) (hk : l[k]? = some e)
    (hp : p e = true) : (swapUnlessPinned p l i j)[k]? = some e := by
  rw [swapUnlessPinned]
  split_ifs with hpinned
  · exact hk
  · have hne : ∀ m, k = m → l[m]?.any p = true := by
      rintro m rfl
      rw [hk]
      exact hp
    rw [Shuffle.getElem?_swapAt hi hj, if_neg fun hkj => hpinned (.inr (hne j hkj)),
      if_neg fun hki => hpinned (.inl (hne i hki)), hk]

theorem perm_shuffled (p : E → Bool) (draw : Shuffle.Draws) (l : List E) : (shuffled p draw l).Perm l :=
  @Shuffle.shuffle_induction _ _ _ _ _ (fun l' => l'.Perm l)
    (fun l' i j _ _ hl' => (perm_swapUnlessPinned p l' i j).trans hl') (.refl l)

/-- The shuffle leaves a pinned element where it is. -/
theorem pinned_shuffled (hk : l[k]? = some e) (hp : p e = true) : (shuffled p draw l)[k]? = some e := by
  have hkept : (shuffled p draw l).length = l.length ∧ (shuffled p draw l)[k]? = some e := by
    refine @Shuffle.shuffle_induction _ (swapUnlessPinned p) draw l.length l
      (fun l' => l'.length = l.length ∧ l'[k]? = some e) ?_ ⟨rfl, hk⟩
    rintro l' i j hj hi ⟨hlength, hl'⟩
    exact ⟨(perm_swapUnlessPinned p l' i j).length_eq.trans hlength,
      pinned_swapUnlessPinned (by omega) (by omega) hl' hp⟩
  exact hkept.2

theorem shuffled_of_length_lt (h : l.length < 2) : shuffled p draw l = l := by
  have hrounds : l.length - 1 = 0 := by omega
  rw [shuffled, Shuffle.shuffle, hrounds, Shuffle.rounds]

theorem shuffled_none (p : E → Bool) (l : List E) : shuffled p (Shuffle.onlyAt 0 0) l = l :=
  Shuffle.shuffle_none (swapUnlessPinned_self p) l

/-- Two elements that are not pinned change places in some outcome. -/
theorem exists_shuffled_swap {i j : ℕ} {a b : E} (ha : l[i]? = some a) (hb : l[j]? = some b) (hpa : p a = false)
    (hpb : p b = false) : ∃ draw, (shuffled p draw l)[i]? = some b := by
  obtain ⟨hi, -⟩ := List.getElem?_eq_some_iff.mp ha
  obtain ⟨hj, -⟩ := List.getElem?_eq_some_iff.mp hb
  have hself : ∀ (l : List E) (i : ℕ), swapUnlessPinned p l i i = l := swapUnlessPinned_self p
  have hswap : ∀ m n, l[m]?.any p = false → l[n]?.any p = false → swapUnlessPinned p l m n = Shuffle.swapAt l m n := by
    intro m n hm hn
    rw [swapUnlessPinned, hm, hn, if_neg (by simp)]
  have hpi : l[i]?.any p = false := by rw [ha, Option.any_some, hpa]
  have hpj : l[j]?.any p = false := by rw [hb, Option.any_some, hpb]
  rcases Nat.lt_trichotomy i j with hlt | rfl | hgt
  · refine ⟨Shuffle.onlyAt i j, ?_⟩
    rw [shuffled, Shuffle.shuffle_onlyAt hself hlt hj, hswap j i hpj hpi, Shuffle.getElem?_swapAt hj hi, if_pos rfl, hb]
  · exact ⟨Shuffle.onlyAt 0 0, by rw [shuffled_none, hb]⟩
  · refine ⟨Shuffle.onlyAt j i, ?_⟩
    rw [shuffled, Shuffle.shuffle_onlyAt hself hgt hi, hswap i j hpi hpj, Shuffle.getElem?_swapAt hi hj,
      if_neg hgt.ne', if_pos rfl, hb]

end Shuffled

/-! ## The order on the heap -/

variable {kind} {heap : Heap E} {exts : Slice} {cfg : ExtensionPermuteConfig} {random : Random}

/-- `shuffleSpan` shuffles what the slice shows, and changes nothing else. -/
theorem shuffleSpan_eq (hexts : exts.Valid heap) (includePadding : Bool) :
    shuffleSpan kind heap exts includePadding random =
      put heap exts (shuffled (pinned kind includePadding) random.draws (read heap exts)) := by
  have hlength := length_read hexts
  rw [shuffleSpan]
  split_ifs with hshort
  · rw [shuffled_of_length_lt (by omega), put_read hexts]
  · -- swap by swap, the heap is the first one with the shuffled list in the place of the slice
    have hshuffle : ∀ draw : Shuffle.Draws,
        Shuffle.shuffle (swapUnpinned kind includePadding exts) draw exts.len heap =
          put heap exts (shuffled (pinned kind includePadding) draw (read heap exts)) := by
      intro draw
      have hrel : ∃ l, shuffled (pinned kind includePadding) draw (read heap exts) = l ∧ l.length = exts.len ∧
          Shuffle.shuffle (swapUnpinned kind includePadding exts) draw exts.len heap = put heap exts l := by
        rw [shuffled, hlength]
        refine @Shuffle.shuffle_rel (Heap E) (List E) _ (swapUnlessPinned (pinned kind includePadding)) draw exts.len
          heap (read heap exts) (fun h l => ∃ l', l = l' ∧ l'.length = exts.len ∧ h = put heap exts l') ?_
          ⟨_, rfl, hlength, (put_read hexts).symm⟩
        rintro h l i j hj hi ⟨_, rfl, hl, rfl⟩
        refine ⟨_, rfl, (perm_swapUnlessPinned _ l i j).length_eq.trans hl, ?_⟩
        rw [swapUnpinned, read_put hexts hl, swapUnlessPinned]
        split_ifs
        · rfl
        · exact swap_put hexts hl hi (Nat.lt_of_le_of_lt hj hi)
      obtain ⟨l, rfl, -, hheap⟩ := hrel
      exact hheap
    rw [Random.draws]
    cases random.seeded with
    | none => exact hshuffle _
    | some draws => exact hshuffle _

/-- The returned slice shows the extensions in their new order. -/
theorem read_permuteExtensions (hexts : exts.Valid heap) :
    read (permuteExtensions kind heap exts cfg random).1 (permuteExtensions kind heap exts cfg random).2 =
      permuted kind cfg random (read heap exts) := by
  have hlength := length_read hexts
  have hvalid := valid_alloc heap (read heap exts)
  have hread := read_alloc heap (read heap exts)
  have hout : (alloc heap (read heap exts)).2.len = exts.len := hlength
  rw [permuteExtensions, permuted]
  by_cases hoff : cfg.mode = PermuteOff
  · rw [if_pos (.inl hoff), if_pos hoff]
  rw [if_neg hoff]
  by_cases hempty : exts.len = 0
  · rw [if_pos (.inr hempty)]
    have hnil : read heap exts = [] := List.eq_nil_of_length_eq_zero (hlength.trans hempty)
    rw [hnil]
    split_ifs
    · rfl
    · rw [List.take_nil, List.drop_nil, List.append_nil, shuffled_of_length_lt (by simp)]
    · rw [shuffled_of_length_lt (by simp)]
  · rw [if_neg (not_or.mpr ⟨hoff, hempty⟩)]
    -- from here on the copy is not empty, and it is the copy that is shuffled
    simp only [hout, hlength]
    by_cases hcut : cfg.mode = PermutePrefix
    · have hall : (decide (cfg.mode = PermuteAll)) = false := by rw [hcut]; rfl
      by_cases hwhole : cfg.pre ≤ 0 ∨ (exts.len : ℤ) ≤ cfg.pre
      · rw [if_pos ⟨hcut, hwhole⟩, if_pos hcut, if_pos hwhole]
        -- the whole list is left alone; otherwise the cut and the rest are shuffled apart
        exact hread
      · have hle : cfg.pre.toNat ≤ exts.len := by omega
        rw [if_neg (fun h => hwhole h.2), if_pos hcut, if_pos hcut, if_neg hwhole, hall]
        show read (shuffleSpan kind _ _ false random) _ = _
        rw [shuffleSpan_eq (valid_upTo hvalid (hout ▸ hle)), read_upTo (hout ▸ hle), hread,
          read_put_upTo hvalid (hout ▸ hle), hread]
        rw [(perm_shuffled _ _ _).length_eq, List.length_take, hlength, Nat.min_eq_left hle]
    · rw [if_neg (fun h => hcut h.1), if_neg hcut, if_neg hcut]
      show read (shuffleSpan kind _ _ _ random) _ = _
      have hself : (alloc heap (read heap exts)).2.upTo exts.len = (alloc heap (read heap exts)).2 := by
        rw [← hout]
        rfl
      rw [hself, shuffleSpan_eq hvalid, hread, read_put hvalid]
      rw [(perm_shuffled _ _ _).length_eq, hlength, hout]

/-- Every slice of the caller shows the same as before. -/
theorem read_permuteExtensions_of_valid {t : Slice} (ht : t.Valid heap) :
    read (permuteExtensions kind heap exts cfg random).1 t = read heap t := by
  have halloc := read_alloc_of_valid ht (read heap exts)
  have hvalid := valid_alloc heap (read heap exts)
  rw [permuteExtensions]
  by_cases hoff : cfg.mode = PermuteOff ∨ exts.len = 0
  · rw [if_pos hoff]
  · rw [if_neg hoff]
    dsimp only
    by_cases hwhole : cfg.mode = PermutePrefix ∧
        (cfg.pre ≤ 0 ∨ ((alloc heap (read heap exts)).2.len : ℤ) ≤ cfg.pre)
    · rw [if_pos hwhole]
      exact halloc
    · rw [if_neg hwhole]
      generalize hlimit : (if cfg.mode = PermutePrefix then cfg.pre.toNat else
        (alloc heap (read heap exts)).2.len) = limit
      have hle : limit ≤ (alloc heap (read heap exts)).2.len := by
        rw [← hlimit]
        split_ifs with hcut
        · omega
        · exact Nat.le_refl _
      -- the shuffle writes to the array of the copy, which no slice of the caller has
      show read (shuffleSpan kind _ _ _ random) t = _
      have hne : t.array ≠ ((alloc heap (read heap exts)).2.upTo limit).array := Nat.ne_of_lt ht.array
      rw [shuffleSpan_eq (valid_upTo hvalid hle), read_put_of_ne hne]
      exact halloc

/-! ## What every outcome keeps -/

/-- What a permutation of the extensions keeps: the extensions with their number, the places of the pinned
ones, and in the prefix mode the places behind the prefix. -/
structure Permutes (kind : E → ExtensionKind) (cfg : ExtensionPermuteConfig) (before after : List E) : Prop where
  perm : after.Perm before
  length : after.length = before.length
  pinned : ∀ (k : ℕ) (e : E), before[k]? = some e → pinned kind (cfg.mode = PermuteAll) e = true → after[k]? = some e
  behind : cfg.mode = PermutePrefix → ∀ k : ℕ, cfg.pre ≤ k → after[k]? = before[k]?

theorem Permutes.refl (l : List E) : Permutes kind cfg l l :=
  ⟨.refl l, rfl, fun _ _ hk _ => hk, fun _ _ _ => rfl⟩

/-- Where every index is drawn for itself, the policy moves nothing. -/
theorem permuted_none (l : List E) : permuted kind cfg ⟨none, Shuffle.onlyAt 0 0⟩ l = l := by
  rw [permuted, Random.draws, Option.getD_none, shuffled_none, shuffled_none, List.take_append_drop]
  split_ifs <;> rfl

/-- What is permuted is permitted. -/
theorem permutes_permuted (l : List E) : Permutes kind cfg l (permuted kind cfg random l) := by
  rw [permuted]
  split_ifs with hoff hcut hwhole
  · exact .refl l
  · exact .refl l
  · have hall : (decide (cfg.mode = PermuteAll)) = false := by rw [hcut]; rfl
    have hle : cfg.pre.toNat ≤ l.length := by omega
    have hperm := perm_shuffled (pinned kind false) random.draws (l.take cfg.pre.toNat)
    have hlength : (shuffled (pinned kind false) random.draws (l.take cfg.pre.toNat)).length = cfg.pre.toNat := by
      rw [hperm.length_eq, List.length_take, Nat.min_eq_left hle]
    have hwhole : (shuffled (pinned kind false) random.draws (l.take cfg.pre.toNat) ++ l.drop cfg.pre.toNat).Perm l := by
      have happend := hperm.append_right (l.drop cfg.pre.toNat)
      rwa [List.take_append_drop] at happend
    refine ⟨hwhole, hwhole.length_eq, fun k e hk hp => ?_, fun _ k hk => ?_⟩
    · rw [hall] at hp
      by_cases hlt : k < cfg.pre.toNat
      · have htake : (l.take cfg.pre.toNat)[k]? = some e := by rw [List.getElem?_take_of_lt hlt, hk]
        rw [List.getElem?_append_left (by omega)]
        exact pinned_shuffled htake hp
      · rw [List.getElem?_append_right (by omega), hlength, List.getElem?_drop, Nat.add_sub_cancel' (by omega), hk]
    · rw [List.getElem?_append_right (by omega), hlength, List.getElem?_drop, Nat.add_sub_cancel' (by omega)]
  · have hperm := perm_shuffled (pinned kind (cfg.mode = PermuteAll)) random.draws l
    exact ⟨hperm, hperm.length_eq, fun k e hk hp => pinned_shuffled hk hp, fun h => absurd h hcut⟩

/-- Every outcome permutes the extensions as the mode allows, in an array of its own. -/
theorem permuteExtensions_permutes (hexts : exts.Valid heap) :
    Permutes kind cfg (read heap exts)
        (read (permuteExtensions kind heap exts cfg random).1 (permuteExtensions kind heap exts cfg random).2) ∧
      ∀ t : Slice, t.Valid heap → read (permuteExtensions kind heap exts cfg random).1 t = read heap t := by
  refine ⟨?_, fun t ht => read_permuteExtensions_of_valid ht⟩
  rw [read_permuteExtensions hexts]
  exact permutes_permuted _

/-- The first two of three extensions are swapped; the slice of the caller shows the old order. -/
theorem permuteExtensions_permutes_three :
    let heap : Heap ℕ := [[0, 1, 2]]
    let result := permuteExtensions (fun _ => .other) heap ⟨0, 0, 3⟩ ⟨PermutePrefix, 2⟩
      ⟨some (Shuffle.onlyAt 0 1), Shuffle.onlyAt 0 1⟩
    read result.1 result.2 = [1, 0, 2] ∧ Permutes (fun _ => .other) ⟨PermutePrefix, 2⟩ [0, 1, 2] [1, 0, 2] ∧
      read result.1 ⟨0, 0, 3⟩ = [0, 1, 2] := by
  have hvalid : (⟨0, 0, 3⟩ : Slice).Valid ([[0, 1, 2]] : Heap ℕ) := ⟨by decide, by decide⟩
  have hpermutes := @permuteExtensions_permutes ℕ (fun _ => .other) [[0, 1, 2]] ⟨0, 0, 3⟩ ⟨PermutePrefix, 2⟩
    ⟨some (Shuffle.onlyAt 0 1), Shuffle.onlyAt 0 1⟩ hvalid
  exact ⟨by decide, hpermutes.1, hpermutes.2 _ hvalid⟩

/-! ## The first extensions -/

/-- `extensionPermuteConfig` of `httpClientConfig`. -/
def HttpClientConfig.extensionPermuteConfig (c : HttpClientConfig) : ExtensionPermuteConfig :=
  let mode := if c.extensionPermuteMode = PermuteOff ∧ c.withRandomTlsExtensionOrder then PermuteChrome
    else c.extensionPermuteMode
  ⟨mode, c.extensionPermutePrefix⟩

/-- `SpecFactory`. Of a spec its extensions are here; a handshake calls the factory with what the random sources
give. -/
abbrev SpecFactory (E : Type) := Random → Heap E → Except Bytes (Heap E × Slice)

variable (kind) in
/-- `applyExtensionPermute`, on the factory of the `ClientHelloID`. -/
def applyExtensionPermute (specFactory : Option (SpecFactory E)) (cfg : ExtensionPermuteConfig) :
    Option (SpecFactory E) :=
  if cfg.mode = PermuteOff then specFactory
  else
    specFactory.map fun inner random heap => do
      let (heap, exts) ← inner random heap
      return permuteExtensions kind heap exts cfg random

/-- The factory of a profile makes a new list of its extensions, in the order in which they were captured. -/
def captured (l : List E) : SpecFactory E := fun _ heap => .ok (alloc heap l)

/-- What `newRoundTripperWithPermute` makes of the policy for the handshakes: the arguments of `UClient`. -/
structure HelloFields (E : Type) where
  withRandomTlsExtensionOrder : Bool
  /-- the spec factory of the `ClientHelloID` -/
  clientHelloId : Option (SpecFactory E)

variable (kind) in
/-- `newRoundTripperWithPermute`, as far as the order of the extensions goes. -/
def newRoundTripperWithPermute (specFactory : Option (SpecFactory E)) (permute : ExtensionPermuteConfig) :
    HelloFields E where
  withRandomTlsExtensionOrder := permute.mode ≠ PermuteOff
  clientHelloId := applyExtensionPermute kind specFactory permute

/-- `UClient` of utls: the order in which the extensions of a spec are sent, with and without the flag. -/
structure UClient (E : Type) where
  /-- what its random source gives -/
  Outcome : Type
  order : Bool → Outcome → List E → List E

/-- What is documented of the random order: the extensions come in an order that varies from handshake to
handshake, and GREASE, padding and pre_shared_key stay in their places. -/
structure UClient.Randomizes (kind : E → ExtensionKind) (u : UClient E) : Prop where
  perm : ∀ outcome l, (u.order true outcome l).Perm l
  fixed : ∀ outcome (l : List E) (k : ℕ) (e : E), l[k]? = some e → pinned kind false e = true →
    (u.order true outcome l)[k]? = some e
  /-- an extension that may move leaves its place in some handshake, if there is another that may -/
  moves : ∀ (l : List E) (k : ℕ) (a b : E), l[k]? = some a → b ∈ l → pinned kind false a = false →
    pinned kind false b = false → a ≠ b → ∃ outcome, (u.order true outcome l)[k]? ≠ some a

variable (kind) in
/-- A `UClient` that shuffles as `shuffleSpan` does. -/
def shufflingClient : UClient E where
  Outcome := Shuffle.Draws
  order randomOrder draws l := if randomOrder then shuffled (pinned kind false) draws l else l

/-- The client that shuffles keeps to what utls says of itself. -/
theorem shufflingClient_randomizes : (shufflingClient kind).Randomizes kind where
  perm draws l := perm_shuffled _ draws l
  fixed draws l k e hk hp := pinned_shuffled hk hp
  moves l k a b ha hb hpa hpb hab := by
    obtain ⟨j, hj, rfl⟩ := List.getElem_of_mem hb
    obtain ⟨draws, hdraws⟩ := exists_shuffled_swap ha (List.getElem?_eq_getElem hj) hpa hpb
    refine ⟨draws, fun hsame => hab (Option.some.inj ?_)⟩
    rw [← hsame]
    exact hdraws

variable (kind) in
/-- A handshake of a client with the config sends the extensions in this order. -/
def Sends (u : UClient E) (config : HttpClientConfig) (l : List E) (random : Random) (outcome : u.Outcome)
    (order : List E) : Prop :=
  let rt := newRoundTripperWithPermute kind (some (captured l)) config.extensionPermuteConfig
  ∃ factory heap exts, rt.clientHelloId = some factory ∧ factory random [] = .ok (heap, exts) ∧
    u.order rt.withRandomTlsExtensionOrder outcome (read heap exts) = order

variable {u : UClient E} {outcome : u.Outcome} {config : HttpClientConfig} {l order : List E}

/-- What is sent is what utls makes of the order that the policy gives. -/
theorem sends_iff : Sends kind u config l random outcome order ↔
    order = u.order (config.extensionPermuteConfig.mode ≠ PermuteOff) outcome
      (permuted kind config.extensionPermuteConfig random l) := by
  rw [Sends, newRoundTripperWithPermute, applyExtensionPermute]
  by_cases hoff : config.extensionPermuteConfig.mode = PermuteOff
  -- the factory is the plain one, and the flag is off with it
  · rw [if_pos hoff, permuted, if_pos hoff]
    constructor
    · rintro ⟨factory, heap, exts, hfactory, hrun, hread⟩
      obtain rfl := Option.some.inj hfactory
      obtain ⟨rfl, rfl⟩ := Prod.mk.inj (Except.ok.inj hrun)
      exact hread.symm.trans (congrArg _ (read_alloc [] l))
    · rintro rfl
      exact ⟨_, _, _, rfl, rfl, congrArg _ (read_alloc [] l)⟩
  · have hread : read (permuteExtensions kind (alloc [] l).1 (alloc [] l).2 config.extensionPermuteConfig random).1
        (permuteExtensions kind (alloc [] l).1 (alloc [] l).2 config.extensionPermuteConfig random).2 =
        permuted kind config.extensionPermuteConfig random l := by
      rw [read_permuteExtensions (valid_alloc [] l), read_alloc]
    rw [if_neg hoff, ← hread]
    constructor
    · rintro ⟨factory, heap, exts, hfactory, hrun, rfl⟩
      obtain rfl := Option.some.inj hfactory
      have hpair : permuteExtensions kind (alloc [] l).1 (alloc [] l).2 _ random = (heap, exts) := Except.ok.inj hrun
      rw [hpair]
    · rintro rfl
      exact ⟨_, _, _, rfl, rfl, rfl⟩

/-- A field that an option does not set is kept. -/
theorem foldl_option_field {β : Type} (field : HttpClientConfig → β) {option : HttpClientOption}
    (hoption : ∀ config, field (option config) = field config) (config : HttpClientConfig) :
    field ([option].foldl (fun config opt => opt config) config) = field config :=
  hoption config

/-- The option sets mode and prefix of the request. -/
theorem extensionPermuteConfig_option {cfg : ClientFields} (hmode : cfg.extensionPermuteMode ≠ 0)
    (config : HttpClientConfig) :
    (extensionPermuteOption cfg config).extensionPermuteConfig =
      ⟨cfg.extensionPermuteMode, cfg.extensionPermutePrefix⟩ := by
  have hmode' : ¬(cfg.extensionPermuteMode = PermuteOff ∧ (cfg.extensionPermuteMode != 0) = true) :=
    fun h => hmode h.1
  simp only [HttpClientConfig.extensionPermuteConfig, extensionPermuteOption, if_neg hmode, if_neg hmode']

/-- No other option sets them. -/
theorem extensionPermuteConfig_clientOptions (env : Environment) (cfg : ClientFields) (catchPanics withDebug : Bool)
    (clientProfile : ClientProfile) (addr : Bytes) (config : HttpClientConfig)
    (hmode : cfg.extensionPermuteMode ≠ 0) :
    ((clientOptions env cfg catchPanics withDebug clientProfile addr).foldl
        (fun config opt => opt config) config).extensionPermuteConfig =
      ⟨cfg.extensionPermuteMode, cfg.extensionPermutePrefix⟩ := by
  have hon : cfg.withRandomTLSExtOrder = true ∨ cfg.extensionPermuteMode ≠ 0 := .inr hmode
  unfold clientOptions
  repeat rw [List.foldl_append, foldl_optionIf_field HttpClientConfig.extensionPermuteConfig]
  · rw [List.foldl_append, foldl_option_field HttpClientConfig.extensionPermuteConfig]
    -- the options from the local address back to HTTP/3
    iterate 11 rw [List.foldl_append, foldl_optionIf_field HttpClientConfig.extensionPermuteConfig]
    · rw [List.foldl_append, optionIf_pos hon, List.foldl_cons, List.foldl_nil, extensionPermuteConfig_option hmode]
    all_goals exact fun _ => rfl
  all_goals exact fun _ => rfl

/-- A client in prefix mode has the prefix of its request. -/
theorem extensionPermuteConfig_of_build {env : Environment} {cfg : RequestConfig}
    (hbuild : buildClientFromConfig env cfg = .ok config) (hmode : cfg.extensionPermuteMode = 3) :
    config.extensionPermuteConfig = ⟨PermutePrefix, cfg.extensionPermutePrefix⟩ := by
  obtain ⟨clientProfile, addr, heq⟩ := buildClientFromConfig_eq_ok hbuild
  have hne : cfg.extensionPermuteMode ≠ 0 := by
    rw [hmode]
    decide
  rw [heq, extensionPermuteConfig_clientOptions _ _ _ _ _ _ _ hne, hmode]
  rfl

variable (kind) in
/-- What the documentation of `extension_permute_prefix` says: every handshake sends the first `n` extensions in
the order in which they were captured. -/
def KeepsFirst (u : UClient E) (config : HttpClientConfig) (n : ℕ) (l : List E) : Prop :=
  ∀ random outcome order, Sends kind u config l random outcome order → order.take n = l.take n

/-- In the prefix mode the first extensions keep their order exactly if none of them can change places with
another: each is pinned, or no different one that is not pinned is in the list. -/
theorem prefix_kept_iff (hu : u.Randomizes kind) {env : Environment} {cfg : RequestConfig}
    (hbuild : buildClientFromConfig env cfg = .ok config) (hmode : cfg.extensionPermuteMode = 3) (l : List E) :
    KeepsFirst kind u config cfg.extensionPermutePrefix.toNat l ↔
      ∀ a ∈ l.take cfg.extensionPermutePrefix.toNat, ∀ b ∈ l,
        pinned kind false a = false → pinned kind false b = false → a = b := by
  generalize hn : cfg.extensionPermutePrefix = n
  have hconfig := extensionPermuteConfig_of_build hbuild hmode
  rw [hn] at hconfig
  have hsends : ∀ random outcome order, Sends kind u config l random outcome order ↔
      order = u.order true outcome (permuted kind ⟨PermutePrefix, n⟩ random l) := by
    intro random outcome order
    rw [sends_iff, hconfig]
    rfl
  simp only [KeepsFirst, hsends]
  constructor
  · intro h a ha b hb hpa hpb
    by_contra hab
    obtain ⟨k, hk, hget⟩ := List.getElem_of_mem ha
    rw [List.length_take] at hk
    have hkl : l[k]? = some a := by
      rw [List.getElem_take] at hget
      rw [List.getElem?_eq_getElem (by omega), hget]
    -- the policy happens to move nothing, and utls moves the extension
    obtain ⟨outcome, hmoved⟩ := hu.moves l k a b hkl hb hpa hpb hab
    have hkept := h ⟨none, Shuffle.onlyAt 0 0⟩ outcome _ rfl
    rw [permuted_none] at hkept
    have hsame := congrArg (·[k]?) hkept
    simp only [List.getElem?_take_of_lt (show k < n.toNat by omega)] at hsame
    exact hmoved (hsame.trans hkl)
  · rintro h random outcome order rfl
    have hpermutes : Permutes kind ⟨PermutePrefix, n⟩ l (permuted kind ⟨PermutePrefix, n⟩ random l) := permutes_permuted l
    refine Shuffle.take_eq_of_fixed ((hu.perm outcome _).trans hpermutes.perm) (fun k e hk hp => ?_) h
    exact hu.fixed outcome _ k e (hpermutes.pinned k e hk hp) hp

/-- Mode 3 with a prefix of two extensions. -/
def prefixTwo : RequestConfig :=
  { clientIdentifier := [], extensionPermuteMode := 3, extensionPermutePrefix := 2 }

theorem exists_prefixTwo : ∃ config, buildClientFromConfig exampleMoment.env prefixTwo = .ok config := ⟨_, rfl⟩

/-- The first two of three extensions are kept if both are GREASE. -/
theorem prefix_kept_grease :
    ∃ config, buildClientFromConfig exampleMoment.env prefixTwo = .ok config ∧
      KeepsFirst (fun e : ℕ => if e ≤ 1 then .grease else .other)
        (shufflingClient fun e : ℕ => if e ≤ 1 then .grease else .other) config 2 [0, 1, 2] := by
  obtain ⟨config, hbuild⟩ := exists_prefixTwo
  refine ⟨config, hbuild, (prefix_kept_iff shufflingClient_randomizes hbuild rfl [0, 1, 2]).mpr ?_⟩
  decide

/-- Of three extensions none of which is pinned, one of the first two leaves its place in some handshake. -/
theorem prefix_shuffled :
    ∃ config, buildClientFromConfig exampleMoment.env prefixTwo = .ok config ∧
      ∀ u : UClient ℕ, u.Randomizes (fun _ => .other) → ¬KeepsFirst (fun _ => .other) u config 2 [0, 1, 2] := by
  obtain ⟨config, hbuild⟩ := exists_prefixTwo
  refine ⟨config, hbuild, fun u hu hkept => ?_⟩
  obtain ⟨outcome, hmoved⟩ := hu.moves [0, 1, 2] 0 0 1 rfl (by decide) rfl rfl (by decide)
  have hsends : Sends (fun _ => .other) u config [0, 1, 2] ⟨none, Shuffle.onlyAt 0 0⟩ outcome
      (u.order true outcome [0, 1, 2]) := by
    rw [sends_iff, extensionPermuteConfig_of_build hbuild rfl, permuted_none]
    rfl
  have hfirst := congrArg (·[0]?) (hkept _ _ _ hsends)
  exact hmoved ((List.getElem?_take_of_lt (by decide)).symm.trans hfirst)

end TlsClient.Engine
