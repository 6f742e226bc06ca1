import TlsClient.Library.Fallible
import TlsClient.Library.Hex
import TlsClient.Library.Shuffle
import TlsClient.Library.WireBytes

/-!
# The trust anchors payload

Embeds `splitTrustAnchors`, `shuffleTrustAnchors` and `BuildTrustAnchorsPayload` of
`src/profiles/extension_data.go`. A capture is the hexadecimal text of a list with its length in front; a
record of the list is an anchor ID behind its length. The draws of `crypto/rand` are a parameter; where it fails
the function panics, which is not modelled.

The loop of the splitter has cut the list up to its index into records; `Tiles` says that of a whole list. A
list has one cutting (`splitLoop_of_tiles`), so the payload built from the records in another order is split
into these records again.
-/

namespace TlsClient.Engine.TrustAnchors

open WireBytes Utf8

/-- The errors of `splitTrustAnchors`. -/
inductive SplitError
  | notHex
  | shorterThanLength
  | lengthMismatch
  | pastEnd
deriving DecidableEq, Repr

def SplitError.text : SplitError → String
  | .notHex => "trust anchors payload is not valid hex"
  | .shorterThanLength => "trust anchors payload is shorter than its length field"
  | .lengthMismatch => "trust anchors length field does not match the list"
  | .pastEnd => "trust anchor ID runs past the end of the list"

/-- The loop of `splitTrustAnchors`, at index `i` with the records so far. -/
def splitLoop (list : Bytes) (i : ℕ) (records : List Bytes) : Except SplitError (List Bytes) :=
  if _h : i < list.length then
    let stop := i + 1 + list[i].toNat
    if list.length < stop then .error .pastEnd
    else splitLoop list stop (records ++ [(list.drop i).take (stop - i)])
  else .ok records
termination_by list.length - i

/-- `splitTrustAnchors` -/
def splitTrustAnchors (capture : Bytes) : Except SplitError (List Bytes) :=
  match decodeHex capture with
  | none => .error .notHex
  | some (hi :: lo :: list) =>
    if hi.toNat <<< 8 ||| lo.toNat ≠ list.length then .error .lengthMismatch else splitLoop list 0 []
  | some _ => .error .shorterThanLength

/-- `shuffleTrustAnchors` -/
def shuffleTrustAnchors (anchors : List Bytes) (draw : Shuffle.Draws) : Bytes :=
  let records := Shuffle.shuffle Shuffle.swapAt draw anchors.length anchors
  let size := (records.map List.length).sum
  uint16Bytes size ++ records.flatten

/-- `BuildTrustAnchorsPayload` -/
def buildTrustAnchorsPayload (capture : Bytes) (draw : Shuffle.Draws) : Except SplitError Bytes := do
  return shuffleTrustAnchors (← splitTrustAnchors capture) draw

/-! ## Lists of records -/

/-- A length byte and an ID of that length. -/
def IsRecord (r : Bytes) : Prop :=
  ∃ (b : UInt8) (id : Bytes), r = b :: id ∧ id.length = b.toNat

/-- The records are the list, cut in pieces. -/
structure Tiles (list : Bytes) (records : List Bytes) : Prop where
  flatten : records.flatten = list
  isRecord : ∀ r ∈ records, IsRecord r

/-- The length in front of a payload is that of the rest. -/
def LengthExact (payload : Bytes) (list : Bytes) : Prop :=
  ∃ hi lo : UInt8, payload = hi :: lo :: list ∧ hi.toNat <<< 8 ||| lo.toNat = list.length

/-- A capture as it should be: hexadecimal, with an exact length, and records that are the list. -/
def WellFormed (capture : Bytes) : Prop :=
  ∃ payload list records, decodeHex capture = some payload ∧ LengthExact payload list ∧ Tiles list records

/-- What a payload built from a capture keeps: the length of the payload, the exact length in front, and the
records up to their order. -/
structure Rebuilds (capture out : Bytes) : Prop where
  length : ∃ payload, decodeHex capture = some payload ∧ out.length = payload.length
  exact : ∃ body, LengthExact out body
  records : ∃ before after, splitTrustAnchors capture = .ok before ∧ splitTrustAnchors (hexText out) = .ok after ∧
    after.Perm before

variable {list : Bytes} {records : List Bytes} {i : ℕ}

theorem tiles_nil : Tiles [] [] := ⟨rfl, fun _ hr => by cases hr⟩

/-- A record in front of others. -/
theorem Tiles.cons {r : Bytes} (hr : IsRecord r) (h : Tiles list records) : Tiles (r ++ list) (r :: records) := by
  refine ⟨by rw [List.flatten_cons, h.flatten], fun r' hr' => ?_⟩
  rcases List.mem_cons.mp hr' with rfl | hmem
  · exact hr
  · exact h.isRecord r' hmem

/-! ## The loop of the splitter -/

theorem splitLoop_end (h : list.length ≤ i) : splitLoop list i records = .ok records := by
  rw [splitLoop, dif_neg (by omega)]

/-- A round in front of a record adds it. -/
theorem splitLoop_record {r rest : Bytes} (hr : IsRecord r) (h : list.drop i = r ++ rest) :
    splitLoop list i records = splitLoop list (i + r.length) (records ++ [r]) := by
  obtain ⟨b, id, rfl, hid⟩ := hr
  have hlen := length_of_drop h (List.cons_ne_nil _ _)
  rw [List.length_append, List.length_cons] at hlen
  have hlt : i < list.length := by omega
  have hb : list[i] = b := by
    have hget : list[i]? = some b := by
      rw [← Nat.add_zero i, ← List.getElem?_drop, h]
      rfl
    exact Option.some.inj ((List.getElem?_eq_getElem hlt).symm.trans hget)
  have hstop : i + 1 + b.toNat = i + (b :: id).length := by
    rw [List.length_cons]
    omega
  have htake : (list.drop i).take (i + (b :: id).length - i) = b :: id := by
    rw [h, Nat.add_sub_cancel_left, List.take_left]
  rw [splitLoop, dif_pos hlt]
  simp only [hb, hstop, htake]
  rw [if_neg (by rw [List.length_cons]; omega)]

/-- In front of records the loop ends with these. -/
theorem splitLoop_of_tiles {rest : List Bytes} (h : Tiles (list.drop i) rest) :
    splitLoop list i records = .ok (records ++ rest) := by
  obtain ⟨hflatten, hrecord⟩ := h
  induction rest generalizing i records with
  | nil =>
    have hlen := congrArg List.length hflatten
    rw [List.flatten_nil, List.length_nil, List.length_drop] at hlen
    rw [splitLoop_end (by omega), List.append_nil]
  | cons r rest ih =>
    rw [List.flatten_cons] at hflatten
    rw [splitLoop_record (hrecord r List.mem_cons_self) hflatten.symm,
      ih (drop_of_drop hflatten.symm).symm fun r' hr' => hrecord r' (List.mem_cons_of_mem _ hr'),
      List.append_assoc]
    rfl

/-- What a round cuts off is a record. -/
theorem isRecord_piece (hlt : i < list.length) (hstop : i + 1 + list[i].toNat ≤ list.length) :
    IsRecord ((list.drop i).take (i + 1 + list[i].toNat - i)) ∧
      list.drop i = (list.drop i).take (i + 1 + list[i].toNat - i) ++ list.drop (i + 1 + list[i].toNat) := by
  have hsize : i + 1 + list[i].toNat - i = list[i].toNat + 1 := by omega
  have hbehind : list.drop (i + 1 + list[i].toNat) = (list.drop i).drop (list[i].toNat + 1) := by
    rw [List.drop_drop]
    congr 1
    omega
  rw [hsize]
  constructor
  · refine ⟨list[i], (list.drop (i + 1)).take list[i].toNat, ?_, ?_⟩
    · rw [List.drop_eq_getElem_cons hlt, List.take_succ_cons]
    · rw [List.length_take, List.length_drop]
      omega
  · rw [hbehind]
    exact (List.take_append_drop _ _).symm

/-- The loop ends without an error in front of records only. -/
theorem tiles_of_splitLoop {out : List Bytes} (h : splitLoop list i records = .ok out) :
    ∃ rest, out = records ++ rest ∧ Tiles (list.drop i) rest := by
  induction hn : list.length - i using Nat.strong_induction_on generalizing i records with
  | _ n ih =>
    by_cases hlt : i < list.length
    · rw [splitLoop, dif_pos hlt] at h
      by_cases hstop : list.length < i + 1 + list[i].toNat
      · simp only [if_pos hstop] at h
        contradiction
      · simp only [if_neg hstop] at h
        obtain ⟨rest, hout, htiles⟩ := ih _ (by omega) h rfl
        obtain ⟨hrecord, hsplit⟩ := isRecord_piece hlt (Nat.le_of_not_lt hstop)
        refine ⟨_ :: rest, by rw [hout, List.append_assoc]; rfl, ?_⟩
        have hall := htiles.cons hrecord
        rwa [← hsplit] at hall
    · rw [splitLoop_end (by omega)] at h
      obtain rfl := Except.ok.inj h
      refine ⟨[], (List.append_nil _).symm, ?_⟩
      rw [List.drop_eq_nil_of_le (by omega)]
      exact tiles_nil

/-! ## The functions -/

/-- The splitter gives exactly the records of a list with an exact length. -/
theorem splitTrustAnchors_eq_ok_iff {capture : Bytes} :
    splitTrustAnchors capture = .ok records ↔
      ∃ payload list, decodeHex capture = some payload ∧ LengthExact payload list ∧ Tiles list records := by
  constructor
  · intro h
    rw [splitTrustAnchors] at h
    split at h
    · contradiction
    · rename_i hi lo list hdecode
      split_ifs at h with hlength
      obtain ⟨rest, rfl, htiles⟩ := tiles_of_splitLoop h
      exact ⟨_, list, hdecode, ⟨hi, lo, rfl, not_not.mp hlength⟩, htiles⟩
    · contradiction
  · rintro ⟨payload, list, hdecode, ⟨hi, lo, rfl, hlength⟩, htiles⟩
    rw [splitTrustAnchors, hdecode]
    simp only [ne_eq, hlength, not_true_eq_false, if_false]
    exact splitLoop_of_tiles (i := 0) htiles

/-- The shuffle keeps the anchors. -/
theorem perm_shuffled (anchors : List Bytes) (draw : Shuffle.Draws) :
    (Shuffle.shuffle Shuffle.swapAt draw anchors.length anchors).Perm anchors :=
  @Shuffle.shuffle_induction _ _ _ _ _ (fun l => l.Perm anchors)
    (fun l i j _ _ hl => (Shuffle.perm_swapAt l i j).trans hl) (.refl _)

/-- The payload of records that take less than 65536 bytes. -/
theorem shuffleTrustAnchors_eq (draw : Shuffle.Draws) (htiles : Tiles list records) (hlt : list.length < 65536) :
    ∃ after body, shuffleTrustAnchors records draw = uint16Bytes body.length ++ body ∧ body.length = list.length ∧
      Tiles body after ∧ after.Perm records ∧ LengthExact (shuffleTrustAnchors records draw) body := by
  have hperm := perm_shuffled records draw
  have hlength : (Shuffle.shuffle Shuffle.swapAt draw records.length records).flatten.length = list.length := by
    rw [← htiles.flatten]
    exact hperm.flatten.length_eq
  have hpayload : shuffleTrustAnchors records draw =
      uint16Bytes (Shuffle.shuffle Shuffle.swapAt draw records.length records).flatten.length ++
        (Shuffle.shuffle Shuffle.swapAt draw records.length records).flatten := by
    rw [shuffleTrustAnchors, List.length_flatten]
  refine ⟨_, _, hpayload, hlength, ⟨rfl, fun r hr => htiles.isRecord r (hperm.mem_iff.mp hr)⟩, hperm, ?_⟩
  refine ⟨_, _, hpayload, ?_⟩
  exact uint16Bytes_combine (hlength ▸ hlt)

/-- A payload is built exactly if the capture is well formed. -/
theorem wellFormed_iff (capture : Bytes) (draw : Shuffle.Draws) :
    WellFormed capture ↔ ∃ out, buildTrustAnchorsPayload capture draw = .ok out := by
  have hsplit : WellFormed capture ↔ ∃ records, splitTrustAnchors capture = .ok records := by
    constructor
    · rintro ⟨payload, list, records, h⟩
      exact ⟨records, splitTrustAnchors_eq_ok_iff.mpr ⟨payload, list, h⟩⟩
    · rintro ⟨records, h⟩
      obtain ⟨payload, list, h⟩ := splitTrustAnchors_eq_ok_iff.mp h
      exact ⟨payload, list, records, h⟩
  rw [hsplit, buildTrustAnchorsPayload]
  cases splitTrustAnchors capture with
  | error err =>
    refine iff_of_false ?_ ?_ <;> rintro ⟨_, ⟨⟩⟩
  | ok records => exact iff_of_true ⟨records, rfl⟩ ⟨_, rfl⟩

/-- A capture is accepted exactly if it is well formed, and then every outcome of the draws gives a payload of
the same length with the same records. -/
theorem buildTrustAnchorsPayload_rebuilds (capture : Bytes) (draw : Shuffle.Draws) :
    match buildTrustAnchorsPayload capture draw with
    | .ok out => WellFormed capture ∧ Rebuilds capture out
    | .error _ => ¬WellFormed capture := by
  have hwell := wellFormed_iff capture draw
  cases hbuild : buildTrustAnchorsPayload capture draw with
  | error err =>
    show ¬WellFormed capture
    rw [hwell, hbuild]
    rintro ⟨out, ⟨⟩⟩
  | ok out =>
    refine ⟨hwell.mpr ⟨out, hbuild⟩, ?_⟩
    obtain ⟨records, hsplit, hout⟩ := Fallible.bind_eq_ok_iff.mp hbuild
    obtain rfl := Except.ok.inj hout
    obtain ⟨payload, list, hdecode, ⟨hi, lo, rfl, hlength⟩, htiles⟩ := splitTrustAnchors_eq_ok_iff.mp hsplit
    have hlt : list.length < 65536 := hlength ▸ combine_lt hi lo
    obtain ⟨after, body, hout, hbody, hafter, hperm, hexact⟩ := shuffleTrustAnchors_eq draw htiles hlt
    refine ⟨⟨_, hdecode, ?_⟩, ⟨body, hexact⟩, records, after, hsplit, ?_, hperm⟩
    · rw [hout, List.length_append, hbody, length_uint16Bytes, List.length_cons, List.length_cons]
      omega
    · exact splitTrustAnchors_eq_ok_iff.mpr ⟨_, body, decodeHex_hexText _, hexact, hafter⟩

end TlsClient.Engine.TrustAnchors
