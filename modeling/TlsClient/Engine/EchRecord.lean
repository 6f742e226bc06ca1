import TlsClient.Library.WireBytes

/-!
# The ECH parameter of an HTTPS record

Embeds `extractECHFromRDATA` of `src/cffi_binding/ech.go`. Its index moves by lengths that stand in the
data: first over the labels of the target name, then over the parameters. `HttpsRecord` is the record that a
server encodes, with the bounds that its length fields set.

On the bytes of a record each loop begins every round in front of a label or of a parameter, which is what
`data.drop pos` says in the lemmas about them. On other bytes a loop still never reads behind the end.
-/

namespace TlsClient.Engine.EchRecord

open WireBytes

def svcParamKeyECH : ℕ := 0x0004

/-- The loop over the labels: the index behind the root label, or `none` where the function returns `nil`. -/
def skipName (rdata : Bytes) (pos : ℕ) : Checked (Option ℕ) :=
  if _h : rdata.length ≤ pos then
    .ok none
  else do
    let l ← byteAt rdata pos
    if l.toNat = 0 then
      return some (pos + 1)
    else
      skipName rdata (pos + 1 + l.toNat)
termination_by rdata.length - pos

/-- The loop over the parameters. -/
def findECH (rdata : Bytes) (pos : ℕ) : Checked (Option Bytes) :=
  if _h : pos + 4 ≤ rdata.length then do
    let key ← uint16At rdata pos
    let vlen ← uint16At rdata (pos + 2)
    if rdata.length < pos + 4 + vlen then
      return none
    else if key = svcParamKeyECH then
      let out ← slice rdata (pos + 4) (pos + 4 + vlen)
      return some out
    else
      findECH rdata (pos + 4 + vlen)
  else
    .ok none
termination_by rdata.length - pos

/-- `extractECHFromRDATA`: the value, or `none` for `nil`. -/
def extractECHFromRDATA (rdata : Bytes) : Checked (Option Bytes) :=
  if rdata.length < 3 then
    .ok none
  else do
    match ← skipName rdata 2 with
    | none => return none
    | some pos => findECH rdata pos

/-! ## Records -/

/-- A label of a name, no longer than its length byte can say. -/
structure Label where
  text : Bytes
  text_pos : 0 < text.length
  text_lt : text.length < 256

def Label.wire (l : Label) : Bytes := UInt8.ofNat l.text.length :: l.text

theorem Label.length_wire (l : Label) : l.wire.length = l.text.length + 1 := rfl

/-- A parameter whose key and length fit their fields. -/
structure SvcParam where
  key : ℕ
  value : Bytes
  key_lt : key < 65536
  value_lt : value.length < 65536

def SvcParam.wire (p : SvcParam) : Bytes := uint16Bytes p.key ++ (uint16Bytes p.value.length ++ p.value)

structure HttpsRecord where
  priority : ℕ
  priority_lt : priority < 65536
  target : List Label
  params : List SvcParam

/-- A name on the wire: its labels and the root label. -/
def nameWire (target : List Label) : Bytes := target.flatMap Label.wire ++ [0]

def HttpsRecord.rdata (r : HttpsRecord) : Bytes :=
  uint16Bytes r.priority ++ (nameWire r.target ++ r.params.flatMap SvcParam.wire)

/-- The value of the first ECH parameter among `params`. -/
def firstECH (params : List SvcParam) : Option Bytes :=
  (params.find? fun p => p.key = svcParamKeyECH).map (·.value)

def HttpsRecord.ech (r : HttpsRecord) : Option Bytes := firstECH r.params

/-! ## The loop over the labels -/

variable {rdata rest : Bytes} {pos : ℕ}

/-- The root ends a name. -/
theorem skipName_root (h : rdata.drop pos = 0 :: rest) : skipName rdata pos = .ok (some (pos + 1)) := by
  have hlen := length_of_drop h (List.cons_ne_nil _ _)
  rw [List.length_cons] at hlen
  rw [skipName, dif_neg (by omega), byteAt_of_drop h]
  rfl

/-- A round that begins in front of a label ends behind it. -/
theorem skipName_label {l : Label} (h : rdata.drop pos = l.wire ++ rest) :
    skipName rdata pos = skipName rdata (pos + l.wire.length) := by
  have hlen := length_of_drop h (List.cons_ne_nil _ _)
  rw [List.length_append, l.length_wire] at hlen
  have hbyte : (UInt8.ofNat l.text.length).toNat = l.text.length := by
    rw [UInt8.toNat_ofNat', Nat.mod_eq_of_lt l.text_lt]
  have hnext : pos + 1 + l.text.length = pos + l.wire.length := by
    rw [l.length_wire]
    omega
  have hpos := l.text_pos
  rw [skipName, dif_neg (by omega), byteAt_of_drop h]
  show (if (UInt8.ofNat l.text.length).toNat = 0 then _ else _) = _
  rw [hbyte, if_neg (by omega), hnext]

/-- From in front of a name the loop gets behind it. -/
theorem skipName_nameWire (target : List Label) (h : rdata.drop pos = nameWire target ++ rest) :
    skipName rdata pos = .ok (some (pos + (nameWire target).length)) := by
  induction target generalizing pos with
  | nil => exact skipName_root h
  | cons l target ih =>
    have hsplit : nameWire (l :: target) = l.wire ++ nameWire target := by
      simp only [nameWire, List.flatMap_cons, List.append_assoc]
    rw [hsplit, List.append_assoc] at h
    rw [skipName_label h, ih (drop_of_drop h), hsplit, List.length_append, Nat.add_assoc]

/-- The loop never reads behind the end, and the index that it returns is not behind it either. -/
theorem skipName_ok (rdata : Bytes) (pos : ℕ) :
    ∃ next, skipName rdata pos = .ok next ∧ ∀ p ∈ next, p ≤ rdata.length := by
  induction hn : rdata.length - pos using Nat.strong_induction_on generalizing pos with
  | _ n ih =>
    by_cases h : rdata.length ≤ pos
    · refine ⟨none, ?_, fun p hp => by cases hp⟩
      rw [skipName, dif_pos h]
    · have hlt : pos < rdata.length := Nat.lt_of_not_le h
      rw [skipName, dif_neg h, byteAt_of_lt hlt]
      show ∃ next, (if rdata[pos].toNat = 0 then _ else _) = _ ∧ _
      by_cases hl : rdata[pos].toNat = 0
      · rw [if_pos hl]
        exact ⟨some (pos + 1), rfl, fun p hp => by cases hp; exact hlt⟩
      · rw [if_neg hl]
        exact ih _ (by omega) _ rfl

/-! ## The loop over the parameters -/

/-- At the end of the record there is no parameter. -/
theorem findECH_end (h : rdata.length < pos + 4) : findECH rdata pos = .ok none := by
  rw [findECH, dif_neg (by omega)]

/-- A round that begins in front of a parameter returns its value or ends behind it. -/
theorem findECH_param {p : SvcParam} (hpos : pos ≤ rdata.length) (h : rdata.drop pos = p.wire ++ rest) :
    findECH rdata pos =
      if p.key = svcParamKeyECH then .ok (some p.value) else findECH rdata (pos + p.wire.length) := by
  have hle := length_le_of_drop h hpos
  have hwire : p.wire.length = 4 + p.value.length := by
    simp only [SvcParam.wire, List.length_append, length_uint16Bytes]
    omega
  rw [SvcParam.wire, List.append_assoc] at h
  have hkey := uint16At_of_drop h p.key_lt
  have hbehind := drop_of_drop h
  rw [List.append_assoc] at hbehind
  have hvlen := uint16At_of_drop hbehind p.value_lt
  have hvalue : slice rdata (pos + 4) (pos + (4 + p.value.length)) = .ok p.value := by
    rw [← Nat.add_assoc]
    exact slice_of_drop (drop_of_drop hbehind) (by omega)
  simp only [length_uint16Bytes] at hvlen
  rw [findECH, dif_pos (by omega), hkey]
  simp only [bind, Except.bind, hvlen, hvalue, Nat.add_assoc]
  rw [if_neg (by omega), hwire]
  rfl

/-- On a sequence of parameters the loop finds the first ECH parameter. -/
theorem findECH_params (params : List SvcParam) (hpos : pos ≤ rdata.length)
    (h : rdata.drop pos = params.flatMap SvcParam.wire) : findECH rdata pos = .ok (firstECH params) := by
  induction params generalizing pos with
  | nil =>
    have hlen := congrArg List.length h
    rw [List.length_drop, List.flatMap_nil, List.length_nil] at hlen
    exact findECH_end (by omega)
  | cons p params ih =>
    rw [List.flatMap_cons] at h
    rw [findECH_param hpos h, firstECH, List.find?_cons]
    by_cases hkey : p.key = svcParamKeyECH
    · rw [if_pos hkey, decide_eq_true hkey]
      rfl
    · rw [if_neg hkey, decide_eq_false hkey]
      exact ih (length_le_of_drop h hpos) (drop_of_drop h)

/-- The loop never reads behind the end. -/
theorem findECH_ok (rdata : Bytes) (pos : ℕ) : ∃ ech, findECH rdata pos = .ok ech := by
  induction hn : rdata.length - pos using Nat.strong_induction_on generalizing pos with
  | _ n ih =>
    by_cases h : pos + 4 ≤ rdata.length
    · rw [findECH, dif_pos h, uint16At_of_lt (by omega)]
      simp only [bind, Except.bind, uint16At_of_lt (show pos + 2 + 1 < rdata.length by omega)]
      generalize rdata[pos].toNat <<< 8 ||| rdata[pos + 1].toNat = key
      generalize rdata[pos + 2].toNat <<< 8 ||| rdata[pos + 2 + 1].toNat = vlen
      by_cases hend : rdata.length < pos + 4 + vlen
      · exact ⟨none, if_pos hend⟩
      · rw [if_neg hend]
        by_cases hkey : key = svcParamKeyECH
        · rw [if_pos hkey, slice_of_le (by omega) (by omega)]
          exact ⟨_, rfl⟩
        · rw [if_neg hkey]
          exact ih _ (by omega) _ rfl
    · exact ⟨none, findECH_end (by omega)⟩

/-! ## The function -/

/-- No bytes make it panic. -/
theorem extractECHFromRDATA_ok (rdata : Bytes) : ∃ ech, extractECHFromRDATA rdata = .ok ech := by
  by_cases hshort : rdata.length < 3
  · exact ⟨none, if_pos hshort⟩
  · obtain ⟨next, hname, -⟩ := skipName_ok rdata 2
    rw [extractECHFromRDATA, if_neg hshort, hname]
    cases next with
    | none => exact ⟨none, rfl⟩
    | some pos => exact findECH_ok rdata pos

/-- What a record holds is found. -/
theorem extractECHFromRDATA_rdata (r : HttpsRecord) : extractECHFromRDATA r.rdata = .ok r.ech := by
  have hname : r.rdata.drop 2 = nameWire r.target ++ r.params.flatMap SvcParam.wire := rfl
  have hle := length_le_of_drop hname (by simp [HttpsRecord.rdata])
  have hlong : ¬r.rdata.length < 3 := by
    simp only [nameWire, List.length_append, List.length_singleton] at hle
    omega
  rw [extractECHFromRDATA, if_neg hlong, skipName_nameWire r.target hname]
  exact findECH_params r.params hle (drop_of_drop hname)

/-- The function returns the first ECH parameter of every record, and ends without a panic on every byte
string. -/
theorem extractECHFromRDATA_correct :
    (∀ r : HttpsRecord, extractECHFromRDATA r.rdata = .ok r.ech) ∧
      ∀ rdata, ∃ ech, extractECHFromRDATA rdata = .ok ech :=
  ⟨extractECHFromRDATA_rdata, extractECHFromRDATA_ok⟩

end TlsClient.Engine.EchRecord
