import TlsClient.Http2.HpackEncode

/-!
# Encoder and decoder stay in step

An encoder and the decoder of the other end each keep a dynamic table, and an index means a field only as long as
the two are equal. `Linked` relates them, also while the encoder's table has a new size that the decoder is yet
to be told. Every header block keeps the relation and gives the decoder's user the fields that were written,
however the block is cut into pieces.

The one exception is a block that begins with two updates of the size: the decoder takes an update only as the
first representation of a block or with an empty table. A run succeeds exactly if no block of it is such a one.
-/

open WireBytes (Bytes)
open QueueIndex Incremental Utf8

namespace TlsClient.Http2

/-! ## The search -/

section Search

variable {σ : Type} {t : HeaderFieldTable} {e : Encoder} {d : Decoder σ} {f g : HeaderField}

/-- The field that an index of the table means. -/
def HeaderFieldTable.entryAt (t : HeaderFieldTable) (isStatic : Bool) (i : ℕ) : Option HeaderField :=
  if isStatic then t.ents[i - 1]? else t.ents[t.ents.length - i]?

/-- An id of the map stands at an index of the table, and the entry there has its key. -/
theorem idToIndex_spec {κ : Type} [DecidableEq κ] {key : HeaderField → κ} {ids : κ → ℕ} {k : κ}
    (h : Indexed key ids t.evictCount t.ents) (hne : ids k ≠ 0) (isStatic : Bool) :
    t.idToIndex isStatic (ids k) ≠ 0 ∧ t.idToIndex isStatic (ids k) ≤ t.ents.length ∧
      ∃ g, t.entryAt isStatic (t.idToIndex isStatic (ids k)) = some g ∧ key g = k := by
  obtain ⟨hnewest, -, hplace⟩ := h.place hne
  have hle := newest_le key k t.ents
  obtain ⟨g, hg, hkey⟩ := getElem_newest hnewest
  cases isStatic with
  | true =>
    simp only [HeaderFieldTable.idToIndex, HeaderFieldTable.entryAt, hplace, if_true, Nat.add_sub_cancel]
    exact ⟨by omega, by omega, g, hg, hkey⟩
  | false =>
    simp only [HeaderFieldTable.idToIndex, HeaderFieldTable.entryAt, hplace, Bool.false_eq_true, if_false,
      show t.ents.length - (t.ents.length - newest key k t.ents) = newest key k t.ents by omega]
    exact ⟨hnewest, hle, g, hg, hkey⟩

/-- What a search finds is in the table. -/
theorem Searchable.search_spec (h : Searchable t) (isStatic : Bool) (f : HeaderField) :
    (t.search isStatic f).1 ≤ t.ents.length ∧
      ((t.search isStatic f).2 = true → (t.search isStatic f).1 ≠ 0 ∧ f.sensitive = false ∧
        ∃ g, t.entryAt isStatic (t.search isStatic f).1 = some g ∧ g.pair = f.pair) ∧
      ((t.search isStatic f).1 ≠ 0 →
        ∃ g, t.entryAt isStatic (t.search isStatic f).1 = some g ∧ g.name = f.name) := by
  by_cases hpair : f.sensitive = false ∧ t.byNameValue f.pair ≠ 0
  · obtain ⟨hne, hle, g, hg, hkey⟩ := idToIndex_spec h.byNameValue hpair.2 isStatic
    have hsearch : t.search isStatic f = (t.idToIndex isStatic (t.byNameValue f.pair), true) := if_pos hpair
    rw [hsearch]
    exact ⟨hle, fun _ => ⟨hne, hpair.1, g, hg, hkey⟩, fun _ => ⟨g, hg, congrArg Prod.fst hkey⟩⟩
  · by_cases hname : t.byName f.name ≠ 0
    · obtain ⟨hne, hle, g, hg, hkey⟩ := idToIndex_spec h.byName hname isStatic
      have hsearch : t.search isStatic f = (t.idToIndex isStatic (t.byName f.name), false) := by
        rw [HeaderFieldTable.search, if_neg hpair, if_pos hname]
      rw [hsearch]
      exact ⟨hle, fun hfalse => Bool.noConfusion hfalse, fun _ => ⟨g, hg, hkey⟩⟩
    · have hsearch : t.search isStatic f = (0, false) := by
        rw [HeaderFieldTable.search, if_neg hpair, if_neg hname]
      rw [hsearch]
      exact ⟨Nat.zero_le _, fun hfalse => Bool.noConfusion hfalse, fun hne => absurd rfl hne⟩

/-- The first indices are those of the static table. -/
theorem fieldAt_static {i : ℕ} (hi : i ≠ 0) (hle : i ≤ staticTable.ents.length) :
    d.fieldAt i = staticTable.entryAt true i := by
  rw [Decoder.fieldAt, if_neg hi, if_pos hle]
  rfl

/-- Behind them the decoder finds what the encoder's table has there. -/
theorem fieldAt_dynamic (hents : e.dynTab.table.ents <:+ d.dynTab.table.ents) {j : ℕ} (hj : j ≠ 0)
    (hle : j ≤ e.dynTab.table.ents.length) :
    d.fieldAt (j + staticTable.ents.length) = e.dynTab.table.entryAt false j := by
  obtain ⟨older, hents⟩ := hents
  have hlen := congrArg List.length hents
  rw [List.length_append] at hlen
  rw [Decoder.fieldAt, if_neg (by omega), if_neg (by omega), Decoder.maxTableIndex, if_neg (by omega),
    Nat.add_sub_cancel, ← hlen, ← hents, List.getElem?_append_right (by omega)]
  simp only [HeaderFieldTable.entryAt, Bool.false_eq_true, if_false]
  congr 1
  omega

/-- What the encoder finds means the same to a decoder whose newest fields are those of the encoder. -/
theorem searchTable_spec (hsound : Searchable e.dynTab.table) (hents : e.dynTab.table.ents <:+ d.dynTab.table.ents)
    (f : HeaderField) :
    (e.searchTable f).1 ≤ staticTable.ents.length + e.dynTab.table.ents.length ∧
      ((e.searchTable f).2 = true →
        f.sensitive = false ∧ ∃ g, d.fieldAt (e.searchTable f).1 = some g ∧ g.pair = f.pair) ∧
      ((e.searchTable f).1 ≠ 0 → ∃ g, d.fieldAt (e.searchTable f).1 = some g ∧ g.name = f.name) := by
  obtain ⟨hsle, hsmatch, hsname⟩ := searchable_staticTable.search_spec true f
  obtain ⟨hdle, hdmatch, hdname⟩ := hsound.search_spec false f
  rw [Encoder.searchTable]
  generalize staticTable.search true f = rs at hsle hsmatch hsname
  generalize e.dynTab.table.search false f = rd at hdle hdmatch hdname
  obtain ⟨i, m⟩ := rs
  obtain ⟨j, m'⟩ := rd
  simp only at hsle hsmatch hsname hdle hdmatch hdname ⊢
  -- a full match of the static table wins over everything the dynamic table has
  cases m with
  | true =>
    obtain ⟨hi, hsens, g, hg, hpair⟩ := hsmatch rfl
    rw [if_pos rfl]
    simp only [fieldAt_static hi hsle]
    exact ⟨by omega, fun _ => ⟨hsens, g, hg, hpair⟩, fun _ => ⟨g, hg, congrArg Prod.fst hpair⟩⟩
  | false =>
    rw [if_neg Bool.false_ne_true]
    by_cases hfound : m' = true ∨ i = 0 ∧ j ≠ 0
    · have hj : j ≠ 0 := hfound.elim (fun h => (hdmatch h).1) And.right
      rw [if_pos hfound]
      simp only [fieldAt_dynamic hents hj hdle]
      exact ⟨by omega, fun h => (hdmatch h).2, fun _ => hdname hj⟩
    · rw [if_neg hfound]
      refine ⟨by omega, fun h => Bool.noConfusion h, fun hi => ?_⟩
      simp only at hi ⊢
      rw [fieldAt_static hi hsle]
      exact hsname hi

end Search

/-! ## A sequence of representations -/

section Sequences

variable {σ : Type} {d d' d'' : Decoder σ} {bytes bytes' : Bytes}

/-- The bytes are whole representations for the decoder, and no beginning of them is refused. -/
structure Consumes (d : Decoder σ) (bytes : Bytes) (d' : Decoder σ) : Prop where
  drains : ∀ more, drain Decoder.parser Decoder.tooLong d (bytes ++ more) =
    drain Decoder.parser Decoder.tooLong d' more
  accepts : ∀ buf, Accepted Decoder.parser Decoder.tooLong d' buf →
    Accepted Decoder.parser Decoder.tooLong d (bytes ++ buf)

theorem Consumes.nil (d : Decoder σ) : Consumes d [] d := ⟨fun _ => rfl, fun _ h => h⟩

/-- Bytes that are consumed one after another are consumed together. -/
theorem Consumes.trans (h : Consumes d bytes d') (h' : Consumes d' bytes' d'') : Consumes d (bytes ++ bytes') d'' where
  drains more := by rw [List.append_assoc, h.drains, h'.drains]
  accepts buf hbuf := by
    rw [List.append_assoc]
    exact h.accepts _ (h'.accepts _ hbuf)

/-- A representation that is read is consumed. -/
theorem Reads.consumes (h : Reads d bytes d') : Consumes d bytes d' where
  drains more := drain_of_ok (h.1 more)
  accepts buf hbuf := by
    have hwhole := h.1 []
    rw [List.append_nil] at hwhole
    refine hbuf.record hwhole fun p hp hne => if_neg ?_
    rintro ⟨hlimit, hlong⟩
    have hle := h.2 hlimit
    have hlt := Nat.lt_of_le_of_ne hp.length_le fun heq => hne (hp.eq_of_length heq)
    omega

/-- Whole representations, in whatever pieces, are all taken. -/
theorem Consumes.write (h : Consumes d bytes d') {pieces : List Bytes} (hpieces : pieces.flatten = bytes) :
    pieces.foldlM Decoder.write (d, []) = .ok (d', []) := by
  have haccepted := h.accepts [] accepted_nil
  have hdrain := h.drains []
  rw [List.append_nil, ← hpieces] at haccepted hdrain
  have hfeed : pieces.foldlM Decoder.write (d, []) = drain Decoder.parser Decoder.tooLong d pieces.flatten :=
    feed_pieces haccepted
  rw [hfeed, hdrain, drain_nil]

/-- A whole block leaves what its representations leave. -/
theorem Consumes.decodeBlock (h : Consumes d bytes d') {pieces : List Bytes} (hpieces : pieces.flatten = bytes) :
    d.decodeBlock pieces = .ok { d' with firstField := true } := by
  rw [Decoder.decodeBlock, h.write hpieces]
  rfl

/-- The user's state and whether it wants the next field, after the fields. -/
def offerAll (emit : σ → HeaderField → σ × Bool) (user : σ × Bool) (fs : List HeaderField) : σ × Bool :=
  fs.foldl (fun user f => if user.2 then emit user.1 f else user) user

/-- The decoder's user has been offered the fields. -/
structure Offered (d : Decoder σ) (fs : List HeaderField) (d' : Decoder σ) : Prop where
  emit : d'.emit = d.emit
  maxStrLen : d'.maxStrLen = d.maxStrLen
  user : (d'.out, d'.emitEnabled) = offerAll d.emit (d.out, d.emitEnabled) fs

theorem Offered.nil (d : Decoder σ) : Offered d [] d := ⟨rfl, rfl, rfl⟩

/-- Fields that are offered one after another are offered together. -/
theorem Offered.trans {fs gs : List HeaderField} (h : Offered d fs d') (h' : Offered d' gs d'') :
    Offered d (fs ++ gs) d'' where
  emit := h'.emit.trans h.emit
  maxStrLen := h'.maxStrLen.trans h.maxStrLen
  user := by
    rw [h'.user, h.emit, h.user, offerAll, offerAll, offerAll, List.foldl_append]

/-- One field has been offered. -/
theorem offered_offer (d : Decoder σ) (f : HeaderField) : Offered d [f] (d.offer f) := by
  rw [Decoder.offer]
  by_cases henabled : d.emitEnabled = true
  · rw [if_pos henabled]
    exact ⟨rfl, rfl, by simp [offerAll, henabled]⟩
  · rw [if_neg henabled]
    exact ⟨rfl, rfl, by simp [offerAll, henabled]⟩

end Sequences

/-! ## A field -/

section Fields

variable {σ : Type} {e : Encoder} {d : Decoder σ} {f : HeaderField}

/-- The size of the field does not overflow. -/
def HeaderField.Fits (f : HeaderField) : Prop := f.name.length + f.value.length + 32 < 2 ^ 32

/-- The size of such a field is the one without overflow. -/
theorem HeaderField.Fits.size_eq (h : f.Fits) : f.size.toNat = f.name.length + f.value.length + 32 := by
  rw [HeaderField.size, UInt32.toNat_ofNat', Nat.mod_eq_of_lt h]

/-- The field may be in a table. -/
def Encoder.Enters (e : Encoder) (f : HeaderField) : Prop :=
  (∀ decide, e.indexingDecision = some decide → decide f = true) ∧ f.sensitive = false

/-- The tables of both ends belong together: the encoder's is what its size leaves of the decoder's, whose size
may be larger as long as the encoder's is the initial one. When the encoder has a new size that the decoder is
not told yet, its table is what the smallest of the sizes since the last update leaves of the decoder's. -/
structure Linked (e : Encoder) (d : Decoder σ) : Prop where
  encoder : e.dynTab.Sound
  decoder : d.dynTab.Sound
  fits : ∀ f ∈ e.dynTab.table.ents, f.Fits
  limit : e.maxSizeLimit = initialHeaderTableSize
  maxSize_le : e.dynTab.maxSize.toNat ≤ 4096
  allowed : 4096 ≤ d.dynTab.allowedMaxSize.toNat
  room : d.dynTab.maxSize.toNat + 4096 < 2 ^ 32
  entered : ∀ f ∈ d.dynTab.table.ents, e.Enters f
  settled : e.tableSizeUpdate = false → e.minSize = uint32Max ∧
    e.dynTab.table.ents = keep e.dynTab.maxSize.toNat d.dynTab.table.ents ∧
    (e.dynTab.maxSize = d.dynTab.maxSize ∨ e.dynTab.maxSize.toNat = 4096 ∧ 4096 ≤ d.dynTab.maxSize.toNat)
  pending : e.tableSizeUpdate = true → e.minSize.toNat ≤ e.dynTab.maxSize.toNat ∧
    e.dynTab.table.ents = keep e.minSize.toNat d.dynTab.table.ents

/-- The encoder's table has no more than 128 fields. -/
theorem Linked.length_le (h : Linked e d) : e.dynTab.table.ents.length ≤ 128 := by
  have htotal : ∀ fs : List HeaderField, (∀ f ∈ fs, f.Fits) → 32 * fs.length ≤ total fs := by
    intro fs
    induction fs with
    | nil => exact fun _ => Nat.zero_le _
    | cons f fs ih =>
      intro hfits
      have hrest := ih fun g hg => hfits g (List.mem_cons_of_mem f hg)
      have hsize := (hfits f List.mem_cons_self).size_eq
      rw [total_cons, List.length_cons]
      omega
  have hle := htotal _ h.fits
  have hsize := h.encoder.size_eq
  have hmax := h.encoder.size_le
  have hlimit := h.maxSize_le
  omega

/-- The fields of the encoder's table are the newest ones of the decoder's. -/
theorem Linked.suffix (h : Linked e d) : e.dynTab.table.ents <:+ d.dynTab.table.ents := by
  cases hpending : e.tableSizeUpdate with
  | true => exact (h.pending hpending).2 ▸ keep_suffix _ _
  | false => exact (h.settled hpending).2.1 ▸ keep_suffix _ _

/-- The decoder is told the new size. -/
theorem Linked.flush (h : Linked e d) (hfirst : e.tableSizeUpdate = true → d.firstField = true)
    (hdouble : e.tableSizeUpdate = true → e.minSize < e.dynTab.maxSize → e.dynTab.size = 0) :
    ∃ d', Consumes d e.flushSizeUpdate.2 d' ∧ Linked e.flushSizeUpdate.1 d' ∧ Offered d [] d' ∧
      e.flushSizeUpdate.1.tableSizeUpdate = false ∧ e.flushSizeUpdate.1.dynTab = e.dynTab := by
  cases hpending : e.tableSizeUpdate with
  | false =>
    have hflush : e.flushSizeUpdate = (e, []) := by rw [Encoder.flushSizeUpdate, hpending]; rfl
    rw [hflush]
    exact ⟨d, .nil d, h, .nil d, hpending, rfl⟩
  | true =>
    obtain ⟨hmin, hents⟩ := h.pending hpending
    have hmax := h.maxSize_le
    have hallowed := h.allowed
    -- the decoder with its table cut to the last size
    have hlinked : ∀ d' : Decoder σ, d'.dynTab.Sound → d'.dynTab.allowedMaxSize = d.dynTab.allowedMaxSize →
        d'.dynTab.table.ents <:+ d.dynTab.table.ents →
        keep e.dynTab.maxSize.toNat d'.dynTab.table.ents = e.dynTab.table.ents →
        Linked { e with tableSizeUpdate := false, minSize := uint32Max }
          { d' with dynTab := d'.dynTab.setMaxSize e.dynTab.maxSize, firstField := false } := by
      intro d' hsound hsame hsuffix hkeep
      obtain ⟨hsound', hents'⟩ := hsound.setMaxSize e.dynTab.maxSize
      refine ⟨h.encoder, hsound', h.fits, h.limit, hmax, ?_, ?_, fun f hf => h.entered f ?_,
        fun _ => ⟨rfl, ?_, Or.inl rfl⟩, fun hfalse => by cases hfalse⟩
      · exact hallowed.trans_eq (congrArg UInt32.toNat hsame.symm)
      · exact (Nat.add_le_add_right hmax 4096).trans_lt (by decide)
      · exact ((keep_suffix _ _).trans hsuffix).subset (hents' ▸ hf)
      · refine Eq.trans ?_ (congrArg (keep _) hents'.symm)
        rw [keep_keep, Nat.min_self, hkeep]
    have hfirst := hfirst hpending
    by_cases hlt : e.minSize < e.dynTab.maxSize
    · obtain ⟨rec, happend, hreads⟩ := reads_update e.minSize (Or.inl hfirst) (by omega : _ ≤ d.dynTab.allowedMaxSize.toNat)
      obtain ⟨hsound, hcut⟩ := h.decoder.setMaxSize e.minSize
      have hzero : (d.dynTab.setMaxSize e.minSize).size = 0 := by
        refine UInt32.toNat_inj.mp ?_
        rw [hsound.size_eq, hcut, ← hents, ← h.encoder.size_eq, hdouble hpending hlt]
      obtain ⟨rec', happend', hreads'⟩ := @reads_update _
        { d with dynTab := d.dynTab.setMaxSize e.minSize, firstField := false } e.dynTab.maxSize (Or.inr hzero)
        (hmax.trans hallowed)
      have hflush : e.flushSizeUpdate =
          ({ e with tableSizeUpdate := false, minSize := uint32Max }, rec ++ rec') := by
        simp only [Encoder.flushSizeUpdate, if_pos hpending, if_pos hlt, happend', happend, List.nil_append]
      rw [hflush]
      refine ⟨_, hreads.consumes.trans hreads'.consumes, hlinked
        { d with dynTab := d.dynTab.setMaxSize e.minSize, firstField := false } hsound rfl
        (hcut ▸ keep_suffix _ _) ?_, ⟨rfl, rfl, rfl⟩, rfl, rfl⟩
      rw [hcut, ← hents]
      exact keep_of_le (h.encoder.size_eq ▸ h.encoder.size_le)
    · have hlast : e.minSize = e.dynTab.maxSize := by
        refine UInt32.toNat_inj.mp (Nat.le_antisymm hmin ?_)
        rwa [UInt32.lt_iff_toNat_lt, not_lt] at hlt
      obtain ⟨rec, happend, hreads⟩ := @reads_update _ d e.dynTab.maxSize (Or.inl hfirst) (hmax.trans hallowed)
      have hflush : e.flushSizeUpdate = ({ e with tableSizeUpdate := false, minSize := uint32Max }, rec) := by
        simp only [Encoder.flushSizeUpdate, if_pos hpending, if_neg hlt, happend, List.nil_append]
      rw [hflush]
      refine ⟨_, hreads.consumes, hlinked d h.decoder rfl List.suffix_rfl ?_, ⟨rfl, rfl, rfl⟩, rfl, rfl⟩
      rw [hents, hlast]

/-- Nothing but the table of the decoder matters. -/
theorem Linked.of_dynTab (h : Linked e d) {d' : Decoder σ} (heq : d'.dynTab = d.dynTab) : Linked e d' where
  encoder := h.encoder
  decoder := heq ▸ h.decoder
  fits := h.fits
  limit := h.limit
  maxSize_le := h.maxSize_le
  allowed := heq ▸ h.allowed
  room := heq ▸ h.room
  entered := heq ▸ h.entered
  settled := heq ▸ h.settled
  pending := heq ▸ h.pending

/-- A field that is indexed is one that the policy allows, is not sensitive and fits into the table. -/
theorem shouldIndex_eq_true (h : e.shouldIndex f = true) :
    (∀ decide, e.indexingDecision = some decide → decide f = true) ∧ f.sensitive = false ∧
      f.size.toNat ≤ e.dynTab.maxSize.toNat := by
  rw [Encoder.shouldIndex] at h
  cases hdecision : e.indexingDecision with
  | none =>
    simp only [hdecision, Bool.and_eq_true, Bool.not_eq_true', decide_eq_true_eq, UInt32.le_iff_toNat_le] at h
    exact ⟨fun _ hsome => (by cases hsome), h⟩
  | some decision =>
    simp only [hdecision] at h
    split_ifs at h with hno
    simp only [Bool.and_eq_true, Bool.not_eq_true', decide_eq_true_eq, UInt32.le_iff_toNat_le] at h
    refine ⟨fun decide hsome => ?_, h⟩
    obtain rfl := Option.some.inj hsome
    exact Bool.of_not_eq_false hno

/-- Both ends enter a field into their tables. -/
theorem Linked.add (h : Linked e d) (hsettled : e.tableSizeUpdate = false) (hfits : f.Fits)
    (hindex : e.shouldIndex f = true) :
    Linked { e with dynTab := e.dynTab.add f } { d with dynTab := d.dynTab.add f } := by
  obtain ⟨hmin, hents, hsizes⟩ := h.settled hsettled
  obtain ⟨hdecision, hsens, hsize⟩ := shouldIndex_eq_true hindex
  have hmax := h.maxSize_le
  have hroom := h.room
  obtain ⟨hesound, heents⟩ := h.encoder.add (by omega : _ + f.size.toNat < 2 ^ 32)
  obtain ⟨hdsound, hdents⟩ := h.decoder.add (by omega : _ + f.size.toNat < 2 ^ 32)
  -- the decoder's table is never the smaller one, so it keeps all that the encoder keeps
  have hle : e.dynTab.maxSize.toNat ≤ d.dynTab.maxSize.toNat := by
    rcases hsizes with hsame | ⟨h4096, hlarge⟩
    · rw [hsame]
    · omega
  refine ⟨hesound, hdsound, fun g hg => ?_, h.limit, hmax, h.allowed, hroom, fun g hg => ?_,
    fun _ => ⟨hmin, ?_, hsizes⟩, fun htrue => ?_⟩
  · have hmem := (keep_suffix _ _).subset (heents ▸ hg)
    rcases List.mem_append.mp hmem with hold | hnew
    · exact h.fits g hold
    · rwa [List.mem_singleton.mp hnew]
  · have hmem := (keep_suffix _ _).subset (hdents ▸ hg)
    rcases List.mem_append.mp hmem with hold | hnew
    · exact h.entered g hold
    · rw [List.mem_singleton.mp hnew]
      exact ⟨hdecision, hsens⟩
  -- keeping twice is keeping up to the smaller size
  · refine heents.trans (Eq.trans ?_ (congrArg (keep _) hdents.symm))
    rw [hents, keep_append_singleton]
    exact ((keep_keep e.dynTab.maxSize.toNat _ _).trans (by rw [Nat.min_eq_left hle])).symm
  · rw [hsettled] at htrue
    cases htrue

/-- A field, when the decoder knows the size of the table. -/
theorem Linked.field (h : Linked e d) (hsettled : e.tableSizeUpdate = false) (hfits : f.Fits) (hshort : Short d f) :
    ∃ record d', record ≠ [] ∧ (∀ buf, (e.appendField buf f).2 = buf ++ record) ∧ Consumes d record d' ∧
      (∀ buf, Linked (e.appendField buf f).1 d' ∧ (e.appendField buf f).1.tableSizeUpdate = false) ∧
      Offered d [f] d' := by
  obtain ⟨hle, hmatch, hname⟩ := searchTable_spec h.encoder.searchable h.suffix f
  have hlength := h.length_le
  have hstatic : staticTable.ents.length = 61 := by rw [staticTable_ents]; rfl
  cases hfound : e.searchTable f with
  | mk i m =>
    rw [hfound] at hle hmatch hname
    simp only at hle hmatch hname
    cases m with
    -- a full match is written as an index, and no table changes
    | true =>
      obtain ⟨hsens, g, hg, hpair⟩ := hmatch rfl
      have hf : ({ name := g.name, value := g.value, sensitive := false } : HeaderField) = f := by
        obtain ⟨hgname, hgvalue⟩ := Prod.mk.inj hpair
        rw [hgname, hgvalue, ← hsens]
      obtain ⟨record, happend, hreads⟩ := reads_indexed (by omega) hg (hf ▸ hshort)
      rw [hf] at hreads
      have hfield : ∀ buf, e.appendField buf f = (e, buf ++ record) := by
        intro buf
        simp only [Encoder.appendField, hfound, if_true, happend]
      have hoffered := offered_offer d f
      refine ⟨record, _, hreads.ne_nil, fun buf => by rw [hfield], hreads.consumes, fun buf => ?_,
        ⟨hoffered.emit, hoffered.maxStrLen, hoffered.user⟩⟩
      rw [hfield]
      refine ⟨h.of_dynTab ?_, hsettled⟩
      simp only [Decoder.offer]
      split <;> rfl
    | false =>
      -- what is indexed is never sensitive, so the decoder's flag agrees with the field's
      have hindexing : e.shouldIndex f = true → f.sensitive = false := fun h => (shouldIndex_eq_true h).2.1
      obtain ⟨record, happend, hreads⟩ := reads_literal hindexing hshort (by omega) hname
        (by rw [HeaderField.Fits] at hfits; omega)
      have hfield : ∀ buf, e.appendField buf f =
          (if e.shouldIndex f then { e with dynTab := e.dynTab.add f } else e, buf ++ record) := by
        intro buf
        rw [← happend buf]
        simp only [Encoder.appendField, hfound, Bool.false_eq_true, if_false]
        split <;> rfl
      -- both tables take the field, or neither does
      cases hindex : e.shouldIndex f with
      | true =>
        rw [hindex] at hreads
        have hoffered := offered_offer { d with dynTab := d.dynTab.add f } f
        refine ⟨record, _, hreads.ne_nil, fun buf => by rw [hfield], hreads.consumes, fun buf => ?_,
          ⟨hoffered.emit, hoffered.maxStrLen, hoffered.user⟩⟩
        rw [hfield, hindex]
        refine ⟨(h.add hsettled hfits hindex).of_dynTab ?_, hsettled⟩
        simp only [Decoder.takeLiteral, if_true, Decoder.offer]
        split <;> rfl
      | false =>
        rw [hindex] at hreads
        have hoffered := offered_offer d f
        refine ⟨record, _, hreads.ne_nil, fun buf => by rw [hfield], hreads.consumes, fun buf => ?_,
          ⟨hoffered.emit, hoffered.maxStrLen, hoffered.user⟩⟩
        rw [hfield, hindex]
        refine ⟨h.of_dynTab ?_, hsettled⟩
        simp only [Decoder.takeLiteral, Bool.false_eq_true, if_false, Decoder.offer]
        split <;> rfl

/-- Of a block that begins with two updates the decoder takes the second one only with an empty table. -/
def UpdatesTaken (e : Encoder) : Prop :=
  e.tableSizeUpdate = true → e.minSize < e.dynTab.maxSize → e.dynTab.size = 0

instance (e : Encoder) : Decidable (UpdatesTaken e) := inferInstanceAs (Decidable (_ → _ → _))

/-- The decoder reads the bytes of one field and offers that field, and the tables still belong together. -/
theorem Linked.writeField (h : Linked e d) (hfirst : e.tableSizeUpdate = true → d.firstField = true)
    (htaken : UpdatesTaken e) (hfits : f.Fits) (hshort : Short d f) :
    (e.writeField f).2 ≠ [] ∧ ∃ d', Consumes d (e.writeField f).2 d' ∧ Linked (e.writeField f).1 d' ∧
      (e.writeField f).1.tableSizeUpdate = false ∧ Offered d [f] d' := by
  obtain ⟨mid, hflush, hlinked, hoffered, hsettled, -⟩ := h.flush hfirst htaken
  have hshort' : Short mid f := by rwa [Short, hoffered.maxStrLen]
  obtain ⟨record, d', hne, happend, hfield, hafter, hoffered'⟩ := hlinked.field hsettled hfits hshort'
  rw [Encoder.writeField, happend]
  exact ⟨List.append_ne_nil_of_right_ne_nil _ hne, d', hflush.trans hfield, (hafter _).1, (hafter _).2,
    hoffered.trans hoffered'⟩

end Fields

/-! ## What the encoder keeps -/

section Decision

variable {e : Encoder}

/-- The size updates do not change the policy. -/
theorem flushSizeUpdate_indexingDecision (e : Encoder) :
    e.flushSizeUpdate.1.indexingDecision = e.indexingDecision := by
  rw [Encoder.flushSizeUpdate]
  split <;> rfl

/-- A field does not change the policy. -/
theorem writeField_indexingDecision (e : Encoder) (f : HeaderField) :
    (e.writeField f).1.indexingDecision = e.indexingDecision := by
  rw [Encoder.writeField, ← flushSizeUpdate_indexingDecision e]
  simp only [Encoder.appendField]
  split
  · rfl
  · split <;> split <;> rfl

/-- A block does not change the policy. -/
theorem encodeBlock_indexingDecision (e : Encoder) (fs : List HeaderField) :
    (e.encodeBlock fs).1.indexingDecision = e.indexingDecision := by
  induction fs generalizing e with
  | nil => rfl
  | cons f fs ih =>
    rw [Encoder.encodeBlock]
    exact (ih _).trans (writeField_indexingDecision e f)

/-- The encoder has the indexing decision it was made with, and its table holds only what that allows. -/
structure Encoder.Guarded (indexingDecision : Option (HeaderField → Bool)) (e : Encoder) : Prop where
  decision : e.indexingDecision = indexingDecision
  entered : ∀ f ∈ e.dynTab.table.ents, e.Enters f

variable {indexingDecision : Option (HeaderField → Bool)}

theorem Encoder.guarded_newEncoder (indexingDecision : Option (HeaderField → Bool)) :
    (Encoder.newEncoder indexingDecision).Guarded indexingDecision :=
  ⟨rfl, fun _ hf => (by cases hf)⟩

/-- What stands before the field, the updates of the table size, leaves the table alone. -/
theorem Encoder.flushSizeUpdate_dynTab (e : Encoder) : e.flushSizeUpdate.1.dynTab = e.dynTab := by
  rw [Encoder.flushSizeUpdate]
  split <;> rfl

/-- Of a field that is written, only one that `shouldIndex` lets through enters the table. -/
theorem Encoder.mem_writeField {f g : HeaderField} (hg : g ∈ (e.writeField f).1.dynTab.table.ents) :
    g ∈ e.dynTab.table.ents ∨ g = f ∧ e.flushSizeUpdate.1.shouldIndex f = true := by
  have hold : g ∈ e.flushSizeUpdate.1.dynTab.table.ents → g ∈ e.dynTab.table.ents := by
    rw [flushSizeUpdate_dynTab]
    exact id
  rw [Encoder.writeField] at hg
  simp only [Encoder.appendField] at hg
  split at hg
  · exact .inl (hold hg)
  · -- with an index of the name or without one, the table is the same
    have hadded : g ∈ (if e.flushSizeUpdate.1.shouldIndex f then
        { e.flushSizeUpdate.1 with dynTab := e.flushSizeUpdate.1.dynTab.add f } else
        e.flushSizeUpdate.1).dynTab.table.ents := by
      split at hg <;> exact hg
    split at hadded
    · case isTrue hindex => exact (mem_add hadded).imp hold fun heq => ⟨heq, hindex⟩
    · exact .inl (hold hadded)

/-- Writing a field lets nothing else into the table. -/
theorem Encoder.Guarded.writeField (h : e.Guarded indexingDecision) (f : HeaderField) :
    (e.writeField f).1.Guarded indexingDecision where
  decision := (writeField_indexingDecision e f).trans h.decision
  entered g hg := by
    rw [Encoder.Enters, writeField_indexingDecision]
    rcases mem_writeField hg with hold | ⟨rfl, hindex⟩
    · exact h.entered g hold
    · obtain ⟨hdecision, hsens, -⟩ := shouldIndex_eq_true hindex
      exact ⟨fun decide hsome => hdecision decide (by rw [flushSizeUpdate_indexingDecision, hsome]), hsens⟩

/-- Neither does a block. -/
theorem Encoder.Guarded.encodeBlock (h : e.Guarded indexingDecision) (fs : List HeaderField) :
    (e.encodeBlock fs).1.Guarded indexingDecision := by
  induction fs generalizing e with
  | nil => exact h
  | cons f fs ih => exact ih (h.writeField f)

end Decision

/-! ## A block -/

section Blocks

variable {σ : Type} {e : Encoder} {d : Decoder σ} {fs : List HeaderField}

/-- A block is its first field and the block of the rest. -/
theorem encodeBlock_cons (e : Encoder) (f : HeaderField) (fs : List HeaderField) : e.encodeBlock (f :: fs) =
    (((e.writeField f).1.encodeBlock fs).1, (e.writeField f).2 ++ ((e.writeField f).1.encodeBlock fs).2) := rfl

/-- The decoder reads the bytes of a block and offers its fields, and the tables still belong together. -/
theorem Linked.encodeBlock (h : Linked e d) (hfirst : e.tableSizeUpdate = true → d.firstField = true)
    (htaken : fs ≠ [] → UpdatesTaken e) (hfits : ∀ f ∈ fs, f.Fits ∧ Short d f) :
    (fs ≠ [] → (e.encodeBlock fs).2 ≠ []) ∧
      ∃ d', Consumes d (e.encodeBlock fs).2 d' ∧ Linked (e.encodeBlock fs).1 d' ∧ Offered d fs d' := by
  induction fs generalizing e d with
  | nil => exact ⟨fun hne => absurd rfl hne, d, .nil d, h, .nil d⟩
  | cons f fs ih =>
    obtain ⟨hf, hshort⟩ := hfits f List.mem_cons_self
    obtain ⟨hne, mid, hread, hlinked, hsettled, hoffered⟩ := h.writeField hfirst (htaken (List.cons_ne_nil f fs)) hf hshort
    have hno : ∀ {p : Prop}, (e.writeField f).1.tableSizeUpdate = true → p := by
      intro p htrue
      rw [hsettled] at htrue
      cases htrue
    obtain ⟨-, d', hread', hlinked', hoffered'⟩ := ih hlinked hno (fun _ => hno) fun g hg => by
      have hg := hfits g (List.mem_cons_of_mem f hg)
      rwa [Short, hoffered.maxStrLen]
    rw [encodeBlock_cons]
    exact ⟨fun _ => List.append_ne_nil_of_left_ne_nil hne _, d', hread.trans hread', hlinked',
      hoffered.trans hoffered'⟩

/-- The second update of two is refused when there are fields in the table. -/
theorem parseNext_update_refused (hfirst : d.firstField = false) (hsize : d.dynTab.size ≠ 0) (v : UInt32) :
    ∃ record, record ≠ [] ∧ (∀ dst, appendTableSize dst v = dst ++ record) ∧
      ∀ more, d.parseNext (record ++ more) = .error .updateNotFirst := by
  have hv := v.toNat_lt
  obtain ⟨b, tail, happend, hb, -⟩ := @readVarInt_append 5 v.toNat (by decide) (by omega)
  refine ⟨(b ||| 0x20) :: tail, List.cons_ne_nil _ _, fun dst => ?_, fun more => ?_⟩
  · simp only [appendTableSize]
    rw [happend, setFlag_append]
  · have hpos : d.dynTab.size > 0 := by
      refine UInt32.lt_iff_toNat_lt.mpr (Nat.pos_of_ne_zero fun hzero => hsize ?_)
      exact UInt32.toNat_inj.mp hzero
    rw [List.cons_append, Decoder.parseNext, parse_update hb, Decoder.parseDynamicTableSizeUpdate,
      if_pos ⟨hfirst, hpos⟩]
    rfl

/-- A field's bytes stand behind what is in the buffer. -/
theorem Linked.appendField_extends {f : HeaderField} (h : Linked e d) (hfits : f.Fits) :
    ∃ tail, ∀ buf, (({ e with tableSizeUpdate := false, minSize := uint32Max } : Encoder).appendField buf f).2 =
      buf ++ tail := by
  -- a decoder with the encoder's table and no limits
  let d' : Decoder σ := { d with dynTab := { e.dynTab with allowedMaxSize := 4096 }, maxStrLen := 0 }
  have hentered : ∀ f ∈ e.dynTab.table.ents, e.Enters f := fun f hf => h.entered f (h.suffix.subset hf)
  have hsound : d'.dynTab.Sound := ⟨h.encoder.searchable, h.encoder.size_eq, h.encoder.size_le⟩
  have hlinked : Linked { e with tableSizeUpdate := false, minSize := uint32Max } d' :=
    ⟨h.encoder, hsound, h.fits, h.limit, h.maxSize_le, le_rfl,
      (Nat.add_le_add_right h.maxSize_le 4096).trans_lt (by decide), hentered,
      fun _ => ⟨rfl, (keep_of_le (h.encoder.size_eq ▸ h.encoder.size_le)).symm, Or.inl rfl⟩,
      fun htrue => by cases htrue⟩
  obtain ⟨record, _, -, happend, -⟩ := hlinked.field rfl hfits ⟨Or.inl rfl, Or.inl rfl⟩
  exact ⟨record, happend⟩

/-- A block whose second update is refused is not decoded. -/
theorem Linked.block_refused (h : Linked e d) (hfirst : d.firstField = true) (hne : fs ≠ [])
    (hfits : ∀ f ∈ fs, f.Fits) (hrefused : ¬ UpdatesTaken e) :
    drain Decoder.parser Decoder.tooLong d (e.encodeBlock fs).2 = .error .updateNotFirst := by
  obtain ⟨hpending, hrefused⟩ := Classical.not_imp.mp hrefused
  obtain ⟨hlt, hsize⟩ := Classical.not_imp.mp hrefused
  obtain ⟨hmin, hents⟩ := h.pending hpending
  obtain ⟨f, fs, rfl⟩ := List.exists_cons_of_ne_nil hne
  have hallowed := h.allowed
  have hmax := h.maxSize_le
  obtain ⟨record, happend, hreads⟩ := @reads_update _ d e.minSize (Or.inl hfirst) (by omega)
  obtain ⟨hsound, hcut⟩ := h.decoder.setMaxSize e.minSize
  have hleft : (d.dynTab.setMaxSize e.minSize).size ≠ 0 := by
    intro hzero
    refine hsize (UInt32.toNat_inj.mp ?_)
    rw [h.encoder.size_eq, hents, ← hcut, ← hsound.size_eq, hzero]
  obtain ⟨record', hne', happend', hrefuse⟩ := @parseNext_update_refused _
    { d with dynTab := d.dynTab.setMaxSize e.minSize, firstField := false } rfl hleft e.dynTab.maxSize
  have hflush : e.flushSizeUpdate = ({ e with tableSizeUpdate := false, minSize := uint32Max }, record ++ record') := by
    simp only [Encoder.flushSizeUpdate, if_pos hpending, if_pos hlt, happend', happend, List.nil_append]
  -- whatever the field is, its bytes follow the updates
  obtain ⟨tail, htail⟩ := h.appendField_extends (hfits f List.mem_cons_self)
  have hbytes : (e.writeField f).2 = record ++ (record' ++ tail) := by
    rw [Encoder.writeField, hflush, htail, List.append_assoc]
  have hother : HpackError.updateNotFirst ≠ HpackError.needMore := by decide
  rw [encodeBlock_cons, hbytes]
  simp only [List.append_assoc]
  rw [drain_of_ok (hreads.1 _), drain_of_error (List.append_ne_nil_of_left_ne_nil hne' _) (hrefuse _)]
  exact if_neg hother

end Blocks

/-! ## A connection -/

section Connection

variable {σ : Type}

/-- The two ends of one direction of a connection. -/
structure Channel (σ : Type) where
  enc : Encoder
  dec : Decoder σ

/-- The peer's settings change the size of the table, or a header block is sent. It arrives cut at `cuts`. -/
inductive ChannelStep
  | resize (v : UInt32)
  | block (fields : List HeaderField) (cuts : List ℕ)

def cutAt : List ℕ → Bytes → List Bytes
  | [], bytes => [bytes]
  | n :: cuts, bytes => bytes.take n :: cutAt cuts (bytes.drop n)

/-- The pieces of a block, joined, are the block. -/
theorem flatten_cutAt (cuts : List ℕ) (bytes : Bytes) : (cutAt cuts bytes).flatten = bytes := by
  induction cuts generalizing bytes with
  | nil => exact List.append_nil bytes
  | cons n cuts ih => rw [cutAt, List.flatten_cons, ih, List.take_append_drop]

/-- The user of the decoder wants the fields of every block from the first one on. -/
def Channel.step (c : Channel σ) : ChannelStep → Except HpackError (Channel σ)
  | .resize v => .ok { c with enc := c.enc.setMaxDynamicTableSize v }
  | .block fields cuts => do
    let (enc, bytes) := c.enc.encodeBlock fields
    let dec ← { c.dec with emitEnabled := true }.decodeBlock (cutAt cuts bytes)
    .ok { enc, dec }

def Channel.run (c : Channel σ) (steps : List ChannelStep) : Except HpackError (Channel σ) :=
  steps.foldlM Channel.step c

/-- The encoder's side of a step. -/
def Encoder.step (e : Encoder) : ChannelStep → Encoder
  | .resize v => e.setMaxDynamicTableSize v
  | .block fields _ => (e.encodeBlock fields).1

/-- Neither does a new size of the table. -/
theorem Encoder.Guarded.step {indexingDecision : Option (HeaderField → Bool)} {e : Encoder}
    (h : e.Guarded indexingDecision) (step : ChannelStep) : (e.step step).Guarded indexingDecision := by
  cases step with
  | resize v => exact ⟨h.decision, fun f hf => h.entered f (mem_setMaxSize hf)⟩
  | block fields cuts => exact h.encodeBlock fields

/-- The step is no block that begins with an update that the decoder refuses. -/
def StepTaken (e : Encoder) : ChannelStep → Prop
  | .resize _ => True
  | .block fields _ => fields ≠ [] → UpdatesTaken e

/-- The fields of the step are of a length that the decoder takes. -/
def StepFits (maxStrLen : ℕ) : ChannelStep → Prop
  | .resize _ => True
  | .block fields _ => ∀ f ∈ fields, f.Fits ∧ WithinLimit maxStrLen f.name ∧ WithinLimit maxStrLen f.value

/-- The user's state after the fields of every block have been offered, in the order in which they were written. -/
def delivered (emit : σ → HeaderField → σ × Bool) (out : σ) : List ChannelStep → σ
  | [] => out
  | .resize _ :: steps => delivered emit out steps
  | .block fields _ :: steps => delivered emit (offerAll emit (out, true) fields).1 steps

/-- Between two blocks the ends are linked, and the next representation is the first of a block. -/
structure Channel.Ready (c : Channel σ) : Prop where
  linked : Linked c.enc c.dec
  first : c.dec.firstField = true

/-- A new size of the encoder's table keeps the tables together. -/
theorem Linked.resize {e : Encoder} {d : Decoder σ} (h : Linked e d) (v : UInt32) :
    Linked (e.setMaxDynamicTableSize v) d := by
  have hlimit : e.maxSizeLimit.toNat = 4096 := by rw [h.limit]; rfl
  -- the size that the encoder takes
  obtain ⟨w, hw, hle⟩ : ∃ w, (if v > e.maxSizeLimit then e.maxSizeLimit else v) = w ∧ w.toNat ≤ 4096 := by
    refine ⟨_, rfl, ?_⟩
    split_ifs with hgt
    · omega
    · rw [gt_iff_lt, UInt32.lt_iff_toNat_lt] at hgt
      omega
  obtain ⟨hsound, hents⟩ := h.encoder.setMaxSize w
  have hmin : (if w < e.minSize then w else e.minSize).toNat = min w.toNat e.minSize.toNat := by
    split_ifs with hlt <;> rw [UInt32.lt_iff_toNat_lt] at hlt <;> omega
  rw [Encoder.setMaxDynamicTableSize, hw]
  refine ⟨hsound, h.decoder, fun f hf => ?_, h.limit, hle, h.allowed, h.room, h.entered,
    fun hfalse => (by cases hfalse), fun _ => ?_⟩
  · exact h.fits f ((keep_suffix _ _).subset (hents ▸ hf))
  · refine ⟨hmin.trans_le (Nat.min_le_left _ _), hents.trans ?_⟩
    simp only [hmin]
    cases hpending : e.tableSizeUpdate with
    | true => rw [(h.pending hpending).2, keep_keep]
    | false =>
      obtain ⟨huint, hkept, hsizes⟩ := h.settled hpending
      have hmax : e.minSize.toNat = 2 ^ 32 - 1 := by rw [huint]; rfl
      have hall : keep d.dynTab.maxSize.toNat d.dynTab.table.ents = d.dynTab.table.ents :=
        keep_of_le (h.decoder.size_eq ▸ h.decoder.size_le)
      rw [hkept, show min w.toNat e.minSize.toNat = w.toNat by omega]
      rcases hsizes with hsame | ⟨h4096, -⟩
      · rw [hsame, hall]
      · rw [keep_keep, show min w.toNat e.dynTab.maxSize.toNat = w.toNat by omega]

/-- A block that the decoder takes. -/
theorem Channel.Ready.block {c : Channel σ} (h : c.Ready) {fs : List HeaderField} (cuts : List ℕ)
    (hfits : StepFits c.dec.maxStrLen (.block fs cuts)) (htaken : StepTaken c.enc (.block fs cuts)) :
    ∃ c', c.step (.block fs cuts) = .ok c' ∧ c'.Ready ∧ c'.enc = c.enc.step (.block fs cuts) ∧
      c'.dec.emit = c.dec.emit ∧ c'.dec.maxStrLen = c.dec.maxStrLen ∧
      c'.dec.out = (offerAll c.dec.emit (c.dec.out, true) fs).1 := by
  have hlinked : Linked c.enc { c.dec with emitEnabled := true } := h.linked.of_dynTab rfl
  obtain ⟨-, d', hread, hlinked', hoffered⟩ := hlinked.encodeBlock (fun _ => h.first) htaken hfits
  have hdecode := hread.decodeBlock (flatten_cutAt cuts _)
  refine ⟨{ enc := (c.enc.encodeBlock fs).1, dec := { d' with firstField := true } }, ?_,
    ⟨hlinked'.of_dynTab rfl, rfl⟩, rfl, hoffered.emit, hoffered.maxStrLen, ?_⟩
  · simp only [Channel.step, hdecode]
    rfl
  · exact congrArg Prod.fst hoffered.user

/-- A block that the decoder does not take ends the run. -/
theorem Channel.Ready.refused {c : Channel σ} (h : c.Ready) {step : ChannelStep}
    (hfits : StepFits c.dec.maxStrLen step) (hrefused : ¬ StepTaken c.enc step) : ∃ err, c.step step = .error err := by
  cases step with
  | resize v => exact absurd trivial hrefused
  | block fs cuts =>
    obtain ⟨hne, hupdates⟩ := Classical.not_imp.mp hrefused
    have hlinked : Linked c.enc { c.dec with emitEnabled := true } := h.linked.of_dynTab rfl
    have hdrain := hlinked.block_refused h.first hne (fun f hf => (hfits f hf).1) hupdates
    cases hdecode : { c.dec with emitEnabled := true }.decodeBlock (cutAt cuts (c.enc.encodeBlock fs).2) with
    | error err =>
      refine ⟨err, ?_⟩
      simp only [Channel.step, hdecode]
      rfl
    | ok d' =>
      obtain ⟨st, hst, -⟩ := Fallible.bind_eq_ok_iff.mp hdecode
      have hwhole : drain Decoder.parser Decoder.tooLong { c.dec with emitEnabled := true }
          ([] ++ (cutAt cuts (c.enc.encodeBlock fs).2).flatten) = .ok st := drain_of_foldlM_feed drain_nil hst
      rw [List.nil_append, flatten_cutAt, hdrain] at hwhole
      cases hwhole

/-- From a ready channel a run is accepted exactly if all its steps are taken, and then it delivers. -/
theorem Channel.Ready.run {c : Channel σ} (h : c.Ready) {steps : List ChannelStep}
    (hfits : ∀ step ∈ steps, StepFits c.dec.maxStrLen step) :
    (Run.Along Encoder.step StepTaken c.enc steps → ∃ c', c.run steps = .ok c' ∧ c'.Ready ∧
        c'.dec.out = delivered c.dec.emit c.dec.out steps) ∧
      (¬ Run.Along Encoder.step StepTaken c.enc steps → ∃ err, c.run steps = .error err) := by
  induction steps generalizing c with
  | nil => exact ⟨fun _ => ⟨c, rfl, h, rfl⟩, fun hno => absurd trivial hno⟩
  | cons step steps ih =>
    have hstep := hfits step List.mem_cons_self
    have hrest := fun s hs => hfits s (List.mem_cons_of_mem step hs)
    -- the first step that is not taken ends the run with its error
    by_cases htaken : StepTaken c.enc step
    · cases step with
      | resize v =>
        have hready : Channel.Ready { c with enc := c.enc.setMaxDynamicTableSize v } := ⟨h.linked.resize v, h.first⟩
        obtain ⟨hgood, hbad⟩ := ih hready hrest
        exact ⟨fun halong => hgood halong.2, fun hno => hbad fun halong => hno ⟨trivial, halong⟩⟩
      | block fs cuts =>
        obtain ⟨c', hc', hready, henc, hemit, hmax, hout⟩ := h.block cuts hstep htaken
        obtain ⟨hgood, hbad⟩ := ih hready (by rwa [hmax])
        rw [Channel.run, List.foldlM_cons, hc']
        rw [henc, hemit, hout] at hgood
        rw [henc] at hbad
        exact ⟨fun halong => hgood halong.2, fun hno => hbad fun halong => hno ⟨htaken, halong⟩⟩
    · obtain ⟨err, herr⟩ := h.refused hstep htaken
      refine ⟨fun halong => absurd halong.1 htaken, fun _ => ⟨err, ?_⟩⟩
      rw [Channel.run, List.foldlM_cons, herr]
      rfl

/-- A new connection. The decoder's size is what its end has announced. -/
def Channel.fresh (indexingDecision : Option (HeaderField → Bool)) (maxDynamicTableSize : UInt32) (maxStrLen : ℕ)
    (emit : σ → HeaderField → σ × Bool) (out : σ) : Channel σ :=
  { enc := Encoder.newEncoder indexingDecision
    dec := { Decoder.newDecoder maxDynamicTableSize emit out with maxStrLen } }

/-- A fresh channel is ready. -/
theorem ready_fresh (indexingDecision : Option (HeaderField → Bool)) {maxDynamicTableSize : UInt32} (maxStrLen : ℕ)
    (emit : σ → HeaderField → σ × Bool) (out : σ) (hsize : 4096 ≤ maxDynamicTableSize.toNat)
    (hroom : maxDynamicTableSize.toNat + 4096 < 2 ^ 32) :
    (Channel.fresh indexingDecision maxDynamicTableSize maxStrLen emit out).Ready where
  linked :=
    ⟨((sound_empty 0 0).setMaxSize _).1, ((sound_empty 0 _).setMaxSize _).1, fun _ hf => (by cases hf), rfl, le_rfl,
      hsize, hroom, fun _ hf => (by cases hf), fun _ => ⟨rfl, rfl, Or.inr ⟨rfl, hsize⟩⟩,
      fun hfalse => (by cases hfalse)⟩
  first := rfl

/-- In every run the header blocks reach the other end field by field as they were written, however they are cut,
up to the first block that begins with two updates of which the decoder refuses the second one. -/
theorem channel_delivers (indexingDecision : Option (HeaderField → Bool)) (maxDynamicTableSize : UInt32)
    (maxStrLen : ℕ) (emit : σ → HeaderField → σ × Bool) (out : σ) (hsize : 4096 ≤ maxDynamicTableSize.toNat)
    (hroom : maxDynamicTableSize.toNat + 4096 < 2 ^ 32) (steps : List ChannelStep)
    (hfits : ∀ step ∈ steps, StepFits maxStrLen step) :
    ((∃ c, (Channel.fresh indexingDecision maxDynamicTableSize maxStrLen emit out).run steps = .ok c) ↔
        Run.Along Encoder.step StepTaken (Encoder.newEncoder indexingDecision) steps) ∧
      ∀ c, (Channel.fresh indexingDecision maxDynamicTableSize maxStrLen emit out).run steps = .ok c →
        c.dec.out = delivered emit out steps ∧ c.enc.dynTab.table.ents <:+ c.dec.dynTab.table.ents := by
  obtain ⟨hgood, hbad⟩ := (ready_fresh indexingDecision maxStrLen emit out hsize hroom).run hfits
  by_cases halong : Run.Along Encoder.step StepTaken (Encoder.newEncoder indexingDecision) steps
  · obtain ⟨c, hrun, hready, hout⟩ := hgood halong
    refine ⟨iff_of_true ⟨c, hrun⟩ halong, fun c' hc' => ?_⟩
    obtain rfl := Except.ok.inj (hrun.symm.trans hc')
    exact ⟨hout, hready.linked.suffix⟩
  · obtain ⟨err, herr⟩ := hbad halong
    have hnone : ∀ c, (Channel.fresh indexingDecision maxDynamicTableSize maxStrLen emit out).run steps ≠ .ok c := by
      intro c hc
      cases herr.symm.trans hc
    exact ⟨iff_of_false (fun ⟨c, hc⟩ => hnone c hc) halong, fun c hc => absurd hc (hnone c)⟩

/-- A cookie behind a new table size, in two pieces. -/
theorem channel_delivers_cookie : ∃ c : Channel (List HeaderField),
    (Channel.fresh (some indexingChrome) 65536 0 (fun out f => (out ++ [f], true)) []).run
        [.resize 100, .block [⟨utf8 "cookie", utf8 "a=1", false⟩] [1]] = .ok c ∧
      c.dec.out = [⟨utf8 "cookie", utf8 "a=1", false⟩] := by
  have hfits : ∀ step ∈ [.resize 100, .block [⟨utf8 "cookie", utf8 "a=1", false⟩] [1]], StepFits 0 step := by
    intro step hstep
    rcases List.mem_cons.mp hstep with rfl | hstep
    · trivial
    · obtain rfl := List.mem_singleton.mp hstep
      intro f hf
      obtain rfl := List.mem_singleton.mp hf
      exact ⟨by unfold HeaderField.Fits; decide, Or.inl rfl, Or.inl rfl⟩
  obtain ⟨hiff, hout⟩ := channel_delivers (some indexingChrome) 65536 0 (fun out f => (out ++ [f], true)) []
    (by decide) (by decide) [.resize 100, .block [⟨utf8 "cookie", utf8 "a=1", false⟩] [1]] hfits
  have htaken : UpdatesTaken ((Encoder.newEncoder (some indexingChrome)).setMaxDynamicTableSize 100) := by
    intro _ hlt
    rw [UInt32.lt_iff_toNat_lt] at hlt
    exact absurd hlt (lt_irrefl 100)
  obtain ⟨c, hc⟩ := hiff.mpr ⟨trivial, fun _ => htaken, trivial⟩
  exact ⟨c, hc, (hout c hc).1⟩

/-- A step does not change the policy. -/
theorem Channel.step_indexingDecision {c c' : Channel σ} {step : ChannelStep} (h : c.step step = .ok c') :
    c'.enc.indexingDecision = c.enc.indexingDecision := by
  cases step with
  | resize v =>
    obtain rfl := Except.ok.inj h
    rfl
  | block fs cuts =>
    obtain ⟨dec, -, hc'⟩ := Fallible.bind_eq_ok_iff.mp h
    obtain rfl := Except.ok.inj hc'
    exact encodeBlock_indexingDecision c.enc fs

/-- A run does not change the policy. -/
theorem Channel.run_indexingDecision {c c' : Channel σ} {steps : List ChannelStep} (h : c.run steps = .ok c') :
    c'.enc.indexingDecision = c.enc.indexingDecision := by
  induction steps generalizing c with
  | nil =>
    obtain rfl := Except.ok.inj h
    rfl
  | cons step steps ih =>
    obtain ⟨mid, hmid, hrest⟩ := Fallible.bind_eq_ok_iff.mp h
    exact (ih hrest).trans (Channel.step_indexingDecision hmid)

/-- Whatever an encoder is told to write, its table holds no field that the indexing decision forbids or that is
sensitive; and where the other end takes the run, neither does the table there. -/
theorem tables_hold_no_secret (indexingDecision : HeaderField → Bool) (steps : List ChannelStep) :
    (∀ f ∈ (Run.exec Encoder.step (Encoder.newEncoder (some indexingDecision)) steps).dynTab.table.ents,
      indexingDecision f = true ∧ f.sensitive = false) ∧
    ∀ (maxDynamicTableSize : UInt32) (maxStrLen : ℕ) (emit : σ → HeaderField → σ × Bool) (out : σ),
      4096 ≤ maxDynamicTableSize.toNat → maxDynamicTableSize.toNat + 4096 < 2 ^ 32 →
      (∀ step ∈ steps, StepFits maxStrLen step) → ∀ c : Channel σ,
      (Channel.fresh (some indexingDecision) maxDynamicTableSize maxStrLen emit out).run steps = .ok c →
      ∀ f, f ∈ c.enc.dynTab.table.ents ∨ f ∈ c.dec.dynTab.table.ents →
        indexingDecision f = true ∧ f.sensitive = false := by
  refine ⟨fun f hf => ?_, ?_⟩
  · -- the encoder keeps its decision, and enters what it allows
    have hstep : ∀ e step, Encoder.Guarded (some indexingDecision) e →
        Encoder.Guarded (some indexingDecision) (Encoder.step e step) := fun e step h => h.step step
    have hinv := Run.always_exec hstep (Encoder.guarded_newEncoder (some indexingDecision)) steps
    obtain ⟨hallowed, hsens⟩ := hinv.entered f hf
    exact ⟨hallowed indexingDecision hinv.decision, hsens⟩
  · intro maxDynamicTableSize maxStrLen emit out hsize hroom hfits c hrun
    obtain ⟨hgood, hbad⟩ := (ready_fresh (some indexingDecision) maxStrLen emit out hsize hroom).run hfits
    have halong : Run.Along Encoder.step StepTaken (Encoder.newEncoder (some indexingDecision)) steps := by
      by_contra hno
      obtain ⟨err, herr⟩ := hbad hno
      cases herr.symm.trans hrun
    obtain ⟨c', hc', hready, -⟩ := hgood halong
    obtain rfl := Except.ok.inj (hc'.symm.trans hrun)
    have hdecision := Channel.run_indexingDecision hrun
    intro f hf
    have hmem : f ∈ c'.dec.dynTab.table.ents := hf.elim (fun h => hready.linked.suffix.subset h) id
    obtain ⟨hallowed, hsens⟩ := hready.linked.entered f hmem
    exact ⟨hallowed indexingDecision hdecision, hsens⟩

/-- A cookie goes through without entering a table. -/
theorem tables_hold_no_secret_cookie : ∃ c : Channel (List HeaderField),
    (Channel.fresh (some indexingChrome) 65536 0 (fun out f => (out ++ [f], true)) []).run
        [.block [⟨utf8 "cookie", utf8 "a=1", false⟩] []] = .ok c ∧
      ∀ f, f ∈ c.enc.dynTab.table.ents ∨ f ∈ c.dec.dynTab.table.ents → indexingChrome f = true ∧ f.sensitive = false := by
  have hfits : ∀ step ∈ [.block [⟨utf8 "cookie", utf8 "a=1", false⟩] []], StepFits 0 step := by
    intro step hstep
    obtain rfl := List.mem_singleton.mp hstep
    intro f hf
    obtain rfl := List.mem_singleton.mp hf
    exact ⟨by unfold HeaderField.Fits; decide, Or.inl rfl, Or.inl rfl⟩
  have hready := @ready_fresh (List HeaderField) (some indexingChrome) 65536 0 (fun out f => (out ++ [f], true)) []
    (by decide) (by decide)
  have htaken : UpdatesTaken (Encoder.newEncoder (some indexingChrome)) := fun hfalse => by cases hfalse
  obtain ⟨c, hc, -⟩ := (hready.run hfits).1 ⟨fun _ => htaken, trivial⟩
  exact ⟨c, hc, (tables_hold_no_secret indexingChrome _).2 65536 0 (fun out f => (out ++ [f], true)) [] (by decide)
    (by decide) hfits c hc⟩

end Connection

end TlsClient.Http2
