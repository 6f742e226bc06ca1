import TlsClient.Engine.SchemeCache

/-!
# The kinds and the transports

`cachedKinds` records which kind of transport is cached for an address. `dropCachedTransport` deletes the
transport and the kind in two sections, so between them the address has a kind and no transport; and its second
section deletes whatever kind it finds. As long as it finds no https transport that has replaced the dropped one,
and stashed connections and recorded kinds are met by the transports they belong to, the kinds are those of the
cached transports, and transports get connections that they speak (`kinds_coherent`).
-/

namespace TlsClient.Engine.RoundTrip

open TlsClient.Ffi Utf8

variable {F D : Type} {env : Environment} {rt : RoundTripper F D} {s s' : State env rt} {a : Action}

/-- A `dropCachedTransport` for the address is between its two sections. -/
def Dropping (s : State env rt) (addr : Addr) : Prop :=
  ∃ i call t, s.threads i = .dropping call t ∧ call.addr = addr

/-- The https transport cached for an address has its kind recorded. -/
def HasKind (s : State env rt) (addr : Addr) : Prop :=
  ∀ t, s.cachedTransports (addr, .h2) = some t → t.secure = true → s.cachedKinds addr = some t.kind

/-- A kind recorded for an address is that of the https transport cached for it. -/
def HasTransport (s : State env rt) (addr : Addr) : Prop :=
  ∀ kind, s.cachedKinds addr = some kind →
    ∃ t, s.cachedTransports (addr, .h2) = some t ∧ t.secure = true ∧ t.kind = kind

/-- The coherence of kinds, transports and connections. -/
structure Coherence (s : State env rt) : Prop where
  kinds : ∀ addr, ¬Dropping s addr → HasKind s addr ∧ HasTransport s addr
  handed : ∀ t c, (t, c) ∈ s.handed → kindForProtocol c.protocol = t.kind
  /-- a transport that has replaced the one to be dropped stays, with the first section's kind -/
  replaced : ∀ i call t t', s.cachedTransports (call.addr, .h2) = some t' → t' ≠ t →
    (s.threads i = .changed call t →
      (step s (.drop i)).cachedTransports = s.cachedTransports ∧ (step s (.drop i)).cachedKinds = s.cachedKinds) ∧
    (s.threads i = .dropping call t → (step s (.dropKind i)).cachedTransports = s.cachedTransports)

/-- The transport is the https transport cached for the address, or is of the kind. -/
def Own (s : State env rt) (t : Transport env rt) (addr : Addr) (kind : TransportKind) : Prop :=
  s.cachedTransports (addr, .h2) = some t ∧ t.secure = true ∨ t.kind = kind

/-- The condition: a second section of `dropCachedTransport` finds no https transport that has replaced the
dropped one, and a dial meets a stashed connection or the recorded kind for its own transport. -/
def Timely (s : State env rt) : Action → Prop
  | .dropKind i =>
    match s.threads i with
    | .dropping call _ => ∀ t, s.cachedTransports (call.addr, .h2) = some t → t.secure = false
    | _ => True
  | .dialStart j =>
    match s.threads j with
    | .dialWaiting t addr => ∀ c, s.cachedConnections addr = some c → Own s t addr (kindForProtocol c.protocol)
    | _ => True
  | .dialDone j (.negotiated protocol) _ =>
    match s.threads j with
    | .dialing t addr =>
      s.cachedKinds addr = some (kindForProtocol protocol) → Own s t addr (kindForProtocol protocol)
    | _ => True
  | _ => True

/-! ## The invariant -/

/-- What holds while `getTransport` dials. -/
def Setup (s : State env rt) (i : ℕ) : Thread env rt → Prop
  | .setup call => s.cachedTransportsLck = some i ∧ s.cachedTransports (call.addr, .h2) = none
  | .setupDialing call => s.cachedTransportsLck = some i ∧ s.cachedTransports (call.addr, .h2) = none
  | _ => True

/-- The invariant of the runs that meet the condition. -/
structure Coherent (s : State env rt) : Prop where
  setup : ∀ i, Setup s i (s.threads i)
  kinds : ∀ addr, HasKind s addr
  transports : ∀ addr, ¬Dropping s addr → HasTransport s addr
  stash : ∀ addr c t, s.cachedConnections addr = some c → s.cachedTransports (addr, .h2) = some t →
    t.secure = true → kindForProtocol c.protocol = t.kind
  handed : ∀ t c, (t, c) ∈ s.handed → kindForProtocol c.protocol = t.kind

/-- An HTTP/3 transport changes none of the others. -/
theorem cached_h3 (addr addr' : Addr) (t : Option (Transport env rt)) :
    Function.update s.cachedTransports (addr', .h3) t (addr, .h2) = s.cachedTransports (addr, .h2) :=
  Function.update_of_ne (by simp) ..

/-- A thread in a neutral place is not in a setup. -/
theorem setup_of_neutral {i : ℕ} {thread : Thread env rt} (h : thread.Neutral) : Setup s i thread := by
  cases thread with
  | setup call => exact h.elim
  | setupDialing call => exact h.elim
  | _ => trivial

/-- A setup goes on while it keeps its lock and its place in the cache. -/
theorem Setup.keep {i : ℕ} {thread : Thread env rt} (h : Setup s i thread)
    (hlock : s.cachedTransportsLck = some i → s'.cachedTransportsLck = some i)
    (hcached : ∀ addr, s.cachedTransports (addr, .h2) = none → s'.cachedTransports (addr, .h2) = none) :
    Setup s' i thread := by
  cases thread with
  | setup call => exact ⟨hlock h.1, hcached call.addr h.2⟩
  | setupDialing call => exact ⟨hlock h.1, hcached call.addr h.2⟩
  | _ => trivial

/-- A thread that is not in a setup. -/
theorem setup_of_not_setup {i : ℕ} (hsame : s'.threads i = s.threads i)
    (hnot : ∀ call, s.threads i ≠ .setup call ∧ s.threads i ≠ .setupDialing call) :
    Setup s' i (s'.threads i) := by
  rw [hsame]
  cases hthread : s.threads i with
  | setup call => exact absurd hthread (hnot call).1
  | setupDialing call => exact absurd hthread (hnot call).2
  | _ => trivial

/-- Nothing is found after a transport was dropped where nothing was found before. -/
theorem cached_none {key key' : Addr × Protocol} (h : s.cachedTransports key' = none) :
    Function.update s.cachedTransports key none key' = none := by
  rw [Function.update_apply, h]
  split_ifs <;> rfl

/-- A drop goes on while another thread moves. -/
theorem Dropping.goto {addr : Addr} (h : Dropping s addr) {i : ℕ} {thread : Thread env rt}
    (hold : ∀ call t, s.threads i ≠ .dropping call t) :
    ∃ j call t, (s.goto i thread).threads j = .dropping call t ∧ call.addr = addr := by
  obtain ⟨j, call, t, hthread, haddr⟩ := h
  have hj : j ≠ i := fun hj => hold call t (hj ▸ hthread)
  exact ⟨j, call, t, (threads_goto_of_ne s thread hj).trans hthread, haddr⟩

namespace Coherent

/-- No `getTransport` dials but the one of the thread that holds the lock. -/
theorem not_setup (h : Coherent s) {i : ℕ} (hother : s.cachedTransportsLck ≠ some i) (call : Call) :
    s.threads i ≠ .setup call ∧ s.threads i ≠ .setupDialing call := by
  have hsetup := h.setup i
  constructor
  · intro hthread
    rw [hthread] at hsetup
    exact hother hsetup.1
  · intro hthread
    rw [hthread] at hsetup
    exact hother hsetup.1

/-- A step of a thread that drops no transport, and changes no kinds and no transports for https. -/
theorem change (h : Coherent s) (i : ℕ)
    (hcached : ∀ addr, s'.cachedTransports (addr, .h2) = s.cachedTransports (addr, .h2))
    (hkinds : s'.cachedKinds = s.cachedKinds)
    (hstash : ∀ addr c, s'.cachedConnections addr = some c → s.cachedConnections addr = some c)
    (hhanded : ∀ t c, (t, c) ∈ s'.handed → kindForProtocol c.protocol = t.kind)
    (hlock : ∀ j ≠ i, s.cachedTransportsLck = some j → s'.cachedTransportsLck = some j)
    (hthreads : ∀ j ≠ i, s'.threads j = s.threads j ∨ (s'.threads j).Neutral ∧ (s.threads j).Neutral)
    (hold : ∀ call t, s.threads i ≠ .dropping call t) (hsetup : Setup s' i (s'.threads i)) : Coherent s' where
  setup j := by
    by_cases hj : j = i
    · exact hj ▸ hsetup
    · rcases hthreads j hj with hsame | ⟨hneutral, -⟩
      · rw [hsame]
        exact (h.setup j).keep (hlock j hj) fun addr hnone => (hcached addr).trans hnone
      · exact setup_of_neutral hneutral
  kinds addr t ht hsecure := by
    rw [hcached] at ht
    rw [hkinds]
    exact h.kinds addr t ht hsecure
  transports addr hdropping := by
    rw [HasTransport, hkinds, hcached]
    refine h.transports addr ?_
    -- another thread that drops is still one that drops, so its entry may be missing as before
    rintro ⟨j, call, t, hthread, haddr⟩
    have hj : j ≠ i := fun hj => hold call t (hj ▸ hthread)
    rcases hthreads j hj with hsame | ⟨-, hneutral⟩
    · exact hdropping ⟨j, call, t, hsame.trans hthread, haddr⟩
    · rw [hthread] at hneutral
      exact hneutral
  stash addr c t hc ht := by
    rw [hcached] at ht
    exact h.stash addr c t (hstash addr c hc) ht
  handed := hhanded

/-- The same for a step that changes one thread, and no locks and connections. -/
theorem move (h : Coherent s) {i : ℕ} {thread : Thread env rt}
    (hcached : ∀ addr, s'.cachedTransports (addr, .h2) = s.cachedTransports (addr, .h2))
    (hkinds : s'.cachedKinds = s.cachedKinds) (hstash : s'.cachedConnections = s.cachedConnections)
    (hhanded : s'.handed = s.handed) (hlock : s'.cachedTransportsLck = s.cachedTransportsLck)
    (hthreads : s'.threads = Function.update s.threads i thread)
    (hold : ∀ call t, s.threads i ≠ .dropping call t) (hsetup : Setup s' i thread) : Coherent s' := by
  refine h.change i hcached hkinds (hstash ▸ fun _ _ hc => hc) (hhanded ▸ h.handed) (fun _ _ => hlock ▸ id)
    (fun j hj => .inl ?_) hold ?_
  · rw [hthreads]
    exact Function.update_of_ne hj ..
  · rw [hthreads, Function.update_self]
    exact hsetup

/-- The same for a step that ends in the failure of a call, with the locks it holds given back. -/
theorem fail (h : Coherent s) {i : ℕ} (call : Call) (hcached : s'.cachedTransports = s.cachedTransports)
    (hkinds : s'.cachedKinds = s.cachedKinds) (hstash : s'.cachedConnections = s.cachedConnections)
    (hhanded : s'.handed = s.handed) (hthreads : s'.threads = s.threads)
    (hlock : ∀ j ≠ i, s.cachedTransportsLck = some j → s'.cachedTransportsLck = some j)
    (hold : ∀ call t, s.threads i ≠ .dropping call t) : Coherent (s'.failCall i call) := by
  refine h.change i ?_ ?_ ?_ ?_ ?_ (fun j hj => ?_) hold (setup_of_neutral (neutral_failCall s' i call))
  · rw [failCall_eq, hcached]
    exact fun _ => rfl
  · rw [failCall_eq, hkinds]
  · rw [failCall_eq, hstash]
    exact fun _ _ hc => hc
  · rw [failCall_eq, hhanded]
    exact h.handed
  · rw [failCall_eq]
    exact hlock
  · exact hthreads ▸ threads_failCall s' call hj

/-- Delivering a result keeps the kinds coherent. -/
theorem deliver (h : Coherent s) (r : ℕ) (result : Protocol × Option Response) : Coherent (s.deliver r result) := by
  rw [State.deliver]
  split
  · next race hthread => exact h.move (fun _ => rfl) rfl rfl rfl rfl rfl (by simp [hthread]) trivial
  · exact h

/-- A refusal keeps the kinds coherent. -/
theorem refuse (h : Coherent s) (refusal : Refusal env rt) (waiters : List ℕ) :
    Coherent (s.refuse refusal waiters) := by
  refine ⟨fun j => ?_, h.kinds, fun addr hdropping => h.transports addr ?_, h.stash, h.handed⟩
  · rcases threads_refuse s refusal waiters j with hsame | ⟨call, -, -, -, hchanged⟩
    · rw [hsame]
      exact (h.setup j).keep id fun _ hnone => hnone
    · rw [hchanged]
      exact setup_of_neutral trivial
  · rintro ⟨j, call, t, hthread, haddr⟩
    rcases threads_refuse s refusal waiters j with hsame | ⟨call', hrunning, -⟩
    · exact hdropping ⟨j, call, t, hsame.trans hthread, haddr⟩
    · rw [hthread] at hrunning
      contradiction

/-- `getTransport` caches a transport for plain http. -/
theorem buildsPlain (h : Coherent s) {i : ℕ} {call : Call} (hfree : s.cachedTransportsLck = none)
    (hcached : s.cachedTransports (call.addr, .h2) = none) (hold : ∀ call t, s.threads i ≠ .dropping call t) :
    Coherent ((s.cache (call.addr, .h2) (s.plainTransport call.addr)).select i call
      (s.plainTransport call.addr)) where
  setup j := by
    by_cases hj : j = i
    · rw [hj, State.select]
      dsimp only
      rw [threads_goto_self]
      trivial
    -- only one thread is in its setup dial, as it holds the lock
    · have hnot := h.not_setup (i := j) (by simp [hfree])
      exact setup_of_not_setup (threads_goto_of_ne _ _ hj) hnot
  kinds addr t ht hsecure := by
    rcases cached_cache ht with ht | ⟨-, rfl⟩
    · exact h.kinds addr t ht hsecure
    · contradiction
  transports addr hdropping kind hkind := by
    have hnot : ¬Dropping s addr := fun hbefore => hdropping (hbefore.goto hold)
    obtain ⟨t, ht, hsecure⟩ := h.transports addr hnot kind hkind
    refine ⟨t, ?_, hsecure⟩
    have hne : (addr, Protocol.h2) ≠ (call.addr, .h2) := fun heq => by simp [heq, hcached] at ht
    exact (Function.update_of_ne hne ..).trans ht
  stash addr c t hc ht hsecure := by
    rcases cached_cache ht with ht | ⟨-, rfl⟩
    · exact h.stash addr c t hc ht hsecure
    · contradiction
  handed := h.handed

/-- A setup dial ends. -/
theorem installs (h : Coherent s) {i : ℕ} {call : Call} {t : Transport env rt} {protocol : Bytes}
    (hthread : s.threads i = .setupDialing call) (hkind : t.kind = kindForProtocol protocol)
    (hsecure : t.secure = true) :
    Coherent ((s.unlock.dialOut (.dialer rt.dialer)).install i call t protocol) where
  setup j := by
    have howner := h.setup i
    rw [hthread] at howner
    by_cases hj : j = i
    · rw [hj, State.install, State.select]
      dsimp only
      rw [threads_goto_self]
      trivial
    · have hnot := h.not_setup (i := j) (by simp [howner.1, Ne.symm hj])
      exact setup_of_not_setup (threads_goto_of_ne _ _ hj) hnot
  kinds addr t' ht' hsecure' := by
    rw [cachedKinds_install]
    rcases cached_cache ht' with ht' | ⟨heq, rfl⟩
    -- nothing was cached for the address while the lock was held
    · have hne : addr ≠ call.addr := by
        rintro rfl
        have howner := h.setup i
        rw [hthread] at howner
        exact absurd (ht'.symm.trans howner.2) (by simp)
      rw [if_neg hne]
      exact h.kinds addr t' ht' hsecure'
    · rw [if_pos (Prod.mk.inj heq).1, hkind]
  transports addr hdropping kind hkinds := by
    rw [cachedKinds_install] at hkinds
    split_ifs at hkinds with heq
    · obtain rfl := Option.some.inj hkinds
      refine ⟨t, ?_, hsecure, hkind⟩
      rw [heq]
      exact Function.update_self ..
    · have hnot : ¬Dropping s addr := fun hbefore => hdropping (hbefore.goto (by simp [hthread]))
      obtain ⟨t', ht', hsecure'⟩ := h.transports addr hnot kind hkinds
      refine ⟨t', ?_, hsecure'⟩
      exact (Function.update_of_ne (fun hkey => heq (Prod.mk.inj hkey).1) ..).trans ht'
  stash addr c t' hc ht' hsecure' := by
    rw [State.install] at hc
    dsimp only at hc
    rw [Function.update_apply] at hc
    rcases cached_cache ht' with ht' | ⟨heq, rfl⟩
    · split_ifs at hc with haddr
      · have howner := h.setup i
        rw [hthread] at howner
        rw [haddr] at ht'
        exact absurd (ht'.symm.trans howner.2) (by simp)
      · exact h.stash addr c t' hc ht' hsecure'
    · rw [if_pos (Prod.mk.inj heq).1] at hc
      obtain rfl := Option.some.inj hc
      exact hkind.symm
  handed := h.handed

/-- The first section of `dropCachedTransport` finds the transport. -/
theorem drops (h : Coherent s) {i : ℕ} {call : Call} {t : Transport env rt}
    (hthread : s.threads i = .changed call t) :
    Coherent
      { s.goto i (.dropping call t) with
        cachedTransports := Function.update s.cachedTransports (call.addr, .h2) none } where
  setup j := by
    by_cases hj : j = i
    · rw [hj]
      dsimp only
      rw [threads_goto_self]
      trivial
    · dsimp only
      rw [threads_goto_of_ne _ _ hj]
      exact (h.setup j).keep id fun _ => cached_none
  kinds addr t' ht' hsecure := h.kinds addr t' (cached_erase ht') hsecure
  transports addr hdropping kind hkind := by
    have hne : addr ≠ call.addr := fun heq => hdropping ⟨i, call, t, threads_goto_self .., heq.symm⟩
    have hnot : ¬Dropping s addr := fun hbefore => hdropping (hbefore.goto (by simp [hthread]))
    obtain ⟨t', ht', hsecure⟩ := h.transports addr hnot kind hkind
    refine ⟨t', ?_, hsecure⟩
    exact (Function.update_of_ne (fun hkey => hne (Prod.mk.inj hkey).1) ..).trans ht'
  stash addr c t' hc ht' hsecure := h.stash addr c t' hc (cached_erase ht') hsecure
  handed := h.handed

/-- The second section of `dropCachedTransport` finds no https transport. -/
theorem dropsKind (h : Coherent s) {i : ℕ} {call : Call} {t : Transport env rt}
    (hthread : s.threads i = .dropping call t)
    (hok : ∀ t, s.cachedTransports (call.addr, .h2) = some t → t.secure = false) :
    Coherent (s.dropKind i call) := by
  have hkinds (addr : Addr) : (s.dropKind i call).cachedKinds addr =
      if addr = call.addr then none else s.cachedKinds addr := by
    rw [State.dropKind, failCall_eq]
    exact Function.update_apply ..
  have hcached : (s.dropKind i call).cachedTransports = s.cachedTransports := by
    rw [State.dropKind, failCall_eq]
  have hthreads (j : ℕ) (hj : j ≠ i) : (s.dropKind i call).threads j = s.threads j ∨
      ((s.dropKind i call).threads j).Neutral ∧ (s.threads j).Neutral := threads_failCall _ call hj
  have hneutral : ((s.dropKind i call).threads i).Neutral := neutral_failCall ..
  refine ⟨fun j => ?_, fun addr t' ht' hsecure => ?_, fun addr hdropping kind hkind => ?_, ?_, ?_⟩
  · by_cases hj : j = i
    · rw [hj]
      exact setup_of_neutral hneutral
    · rcases hthreads j hj with hsame | ⟨hneutral, -⟩
      · rw [hsame]
        refine (h.setup j).keep (fun hlock => ?_) fun _ hnone => hcached ▸ hnone
        rw [State.dropKind, failCall_eq]
        exact hlock
      · exact setup_of_neutral hneutral
  · rw [hcached] at ht'
    -- the condition: what has been cached for the address since then does not need the kind
    rw [hkinds, if_neg]
    · exact h.kinds addr t' ht' hsecure
    · rintro rfl
      rw [hok t' ht'] at hsecure
      contradiction
  · rw [hkinds] at hkind
    split_ifs at hkind with haddr
    rw [hcached]
    refine h.transports addr ?_ kind hkind
    rintro ⟨j, call', t', hthread', haddr'⟩
    by_cases hj : j = i
    · rw [hj, hthread] at hthread'
      obtain ⟨rfl, -⟩ := Thread.dropping.inj hthread'
      exact haddr haddr'.symm
    · rcases hthreads j hj with hsame | ⟨-, hneutral⟩
      · exact hdropping ⟨j, call', t', hsame.trans hthread', haddr'⟩
      · rw [hthread'] at hneutral
        exact hneutral
  · rw [State.dropKind, failCall_eq]
    exact h.stash
  · rw [State.dropKind, failCall_eq]
    exact h.handed

end Coherent

theorem coherent_init : Coherent ({} : State env rt) :=
  ⟨fun _ => trivial, fun _ _ => nofun, fun _ _ _ => nofun, fun _ _ _ => nofun,
    fun _ _ hmem => absurd hmem List.not_mem_nil⟩

/-- A transport that is its address's own has the recorded kind. -/
theorem own_kind {t : Transport env rt} {addr : Addr} {kind : TransportKind} (hown : Own s t addr kind)
    (hcached : s.cachedTransports (addr, .h2) = some t → t.secure = true → kind = t.kind) : kind = t.kind := by
  rcases hown with ⟨ht, hsecure⟩ | hkind
  · exact hcached ht hsecure
  · exact hkind.symm

/-- One more connection of the right kind was handed out. -/
theorem handed_append {t : Transport env rt} {c : Conn}
    (h : ∀ t c, (t, c) ∈ s.handed → kindForProtocol c.protocol = t.kind)
    (hc : kindForProtocol c.protocol = t.kind) :
    ∀ t' c', (t', c') ∈ s.handed ++ [(t, c)] → kindForProtocol c'.protocol = t'.kind := by
  intro t' c' hmem
  rcases List.mem_append.mp hmem with hmem | hmem
  · exact h t' c' hmem
  · obtain ⟨rfl, rfl⟩ := Prod.mk.inj (List.mem_singleton.mp hmem)
    exact hc

/-- Taking a connection from the stash adds none. -/
theorem stash_of_takeStash {addr addr' : Addr} {c : Conn} (h : (s.takeStash addr).cachedConnections addr' = some c) :
    s.cachedConnections addr' = some c := by
  rw [State.takeStash] at h
  dsimp only at h
  rw [Function.update_apply] at h
  split_ifs at h
  exact h

/-- An idle thread is not the race. -/
theorem ne_of_idle {r j : ℕ} {race : Race} (hthread : s.threads r = .race race) (hidle : s.threads j = .idle) :
    j ≠ r := by
  rintro rfl
  rw [hidle] at hthread
  contradiction

theorem kind_h3 : kindForProtocol (utf8 "h3") = .http3 := by decide

/-- A race gives up an attempt, whose thread drops nothing yet. -/
theorem Coherent.attempt (h : Coherent s) {r j : ℕ} {race : Race} (hthread : s.threads r = .race race)
    (hidle : s.threads j = .idle) (protocol : Protocol) :
    let moved := s.setRace r { race with pending := race.pending.erase protocol }
    Coherent moved ∧ ∀ call t, moved.threads j ≠ .dropping call t := by
  refine ⟨h.move (fun _ => rfl) rfl rfl rfl rfl rfl (by simp [hthread]) trivial, ?_⟩
  rw [State.setRace, threads_goto_of_ne s _ (ne_of_idle hthread hidle)]
  simp [hidle]

/-- A timely step keeps the kinds coherent. -/
theorem Coherent.step (h : Coherent s) (hok : Timely s a) : Coherent (step s a) := by
  have heffect := effect_step s a
  generalize RoundTrip.step s a = s' at heffect
  cases heffect with
  | stays => exact h
  | waits hthread hway => exact h.move (fun _ => rfl) rfl rfl rfl rfl rfl (by simp [hthread]) trivial
  | races hthread hscheme => exact h.move (fun _ => rfl) rfl rfl rfl rfl rfl (by simp [hthread]) trivial
  | selects hthread hfree hcached => exact h.move (fun _ => rfl) rfl rfl rfl rfl rfl (by simp [hthread]) trivial
  | buildsHTTP3 hthread hfree hcached hkey hbuild =>
    exact h.move (fun _ => cached_h3 ..) rfl rfl rfl rfl rfl (by simp [hthread]) trivial
  | buildsPlain hthread hfree hcached hkey hscheme =>
    exact h.buildsPlain hfree (hkey ▸ hcached) (by simp [hthread])
  | @locks i call hthread hfree hcached hkey hscheme =>
    refine h.change i (fun _ => rfl) rfl (fun _ _ hc => hc) h.handed ?_
      (fun j hj => .inl (threads_goto_of_ne s _ hj)) (by simp [hthread]) ?_
    · intro j _ hlock
      rw [hfree] at hlock
      contradiction
    · dsimp only
      rw [threads_goto_self]
      exact ⟨rfl, hkey ▸ hcached⟩
  | acquireFails hthread hfree => exact h.fail _ rfl rfl rfl rfl rfl (fun _ _ hj => hj) (by simp [hthread])
  | @panics i call lck hthread hmutex hlck =>
    refine h.change i (fun _ => rfl) rfl (fun addr c hc => stash_of_takeStash hc) h.handed (fun j hj hlock => ?_)
      (fun j hj => .inl (threads_goto_of_ne _ _ hj)) (by simp [hthread]) ?_
    · -- the lock was held by the thread that panics
      have howner := h.setup i
      rw [hthread] at howner
      exact absurd (Option.some.inj (hlock.symm.trans howner.1)) hj
    · dsimp only
      rw [threads_goto_self]
      trivial
  | @setupDials i call hthread hmutex =>
    have hsetup := h.setup i
    rw [hthread] at hsetup
    exact h.move (fun _ => rfl) rfl rfl rfl rfl rfl (by simp [hthread]) hsetup
  | @setupFails i call outcome r hthread hroutes =>
    refine h.fail call rfl rfl rfl rfl rfl (fun j hj hlock => ?_) (by simp [hthread])
    -- the lock was held by the thread that fails
    have howner := h.setup i
    rw [hthread] at howner
    exact absurd (Option.some.inj (hlock.symm.trans howner.1)) hj
  | installs hthread hbuild =>
    obtain ⟨hkind, hsecure, -⟩ := buildTransport_ok hbuild
    exact h.installs hthread hkind hsecure
  | dials hthread hidle hdials => exact h.move (fun _ => rfl) rfl rfl rfl rfl rfl (by simp [hidle]) trivial
  | @takes j t addr c hthread hmutex hstash =>
    rw [Timely, hthread] at hok
    have hkind : kindForProtocol c.protocol = t.kind :=
      own_kind (hok c hstash) (h.stash addr c t hstash)
    refine h.change j (fun _ => rfl) rfl (fun addr c hc => stash_of_takeStash hc) (handed_append h.handed hkind)
      (fun _ _ hj => hj) (fun j hj => .inl (threads_goto_of_ne _ _ hj)) (by simp [hthread]) ?_
    rw [threads_goto_self]
    trivial
  | dialStarts hthread hmutex => exact h.move (fun _ => rfl) rfl rfl rfl rfl rfl (by simp [hthread]) trivial
  | dialFails hthread hroutes => exact h.move (fun _ => rfl) rfl rfl rfl rfl rfl (by simp [hthread]) trivial
  | @hands j t addr protocol waiters hthread hkind =>
    rw [Timely, hthread] at hok
    have hown : kindForProtocol protocol = t.kind := by
      refine own_kind (hok hkind) fun ht hsecure => ?_
      exact Option.some.inj (hkind.symm.trans (h.kinds addr t ht hsecure))
    refine h.change j (fun _ => rfl) rfl (fun _ _ hc => hc) (handed_append h.handed hown) (fun _ _ hj => hj)
      (fun j hj => .inl (threads_goto_of_ne s _ hj)) (by simp [hthread]) ?_
    rw [State.hand, State.dialOut]
    dsimp only
    rw [threads_goto_self]
    trivial
  | refuses hthread hkind =>
    apply Coherent.refuse
    exact h.move (fun _ => rfl) rfl rfl rfl rfl rfl (by simp [hthread]) trivial
  | @dialsTCP i call t hthread hdials =>
    exact ⟨h.setup, h.kinds, h.transports, h.stash, handed_append h.handed hdials.1.symm⟩
  | @dialsQUIC i call t connects hthread hdials =>
    rw [State.dialQUIC]
    split_ifs
    · exact ⟨h.setup, h.kinds, h.transports, h.stash, handed_append h.handed (kind_h3.trans hdials.1.symm)⟩
    · exact ⟨h.setup, h.kinds, h.transports, h.stash, h.handed⟩
  | responds hthread hhanded hserves hway =>
    exact h.move (fun _ => rfl) rfl rfl rfl rfl rfl (by simp [hthread]) trivial
  | reports hthread hhanded hserves hway =>
    apply Coherent.deliver
    exact h.move (fun _ => rfl) rfl rfl rfl rfl rfl (by simp [hthread]) trivial
  | fails hthread => exact h.fail _ rfl rfl rfl rfl rfl (fun _ _ hj => hj) (by simp [hthread])
  | drops hthread hfree hcached => exact h.drops hthread
  | leaves hthread hfree hcached => exact h.move (fun _ => rfl) rfl rfl rfl rfl rfl (by simp [hthread]) trivial
  | dropsKind hthread =>
    rw [Timely, hthread] at hok
    exact h.dropsKind hthread hok
  | attemptsHTTP2 hthread hidle =>
    obtain ⟨hmoved, hfree⟩ := h.attempt hthread hidle .h2
    exact hmoved.move (fun _ => rfl) rfl rfl rfl rfl rfl hfree trivial
  | attemptsHTTP3 hthread hidle hbuild =>
    obtain ⟨hmoved, hfree⟩ := h.attempt hthread hidle .h3
    exact hmoved.move (fun _ => rfl) rfl rfl rfl rfl rfl hfree trivial
  | attemptFails hthread =>
    apply Coherent.deliver
    exact h.move (fun _ => rfl) rfl rfl rfl rfl rfl (by simp [hthread]) trivial
  | receivesError hthread hdecided hresults =>
    exact h.move (fun _ => rfl) rfl rfl rfl rfl rfl (by simp [hthread]) trivial
  | receivesHTTP2 hthread hdecided hresults =>
    exact h.move (fun _ => rfl) rfl rfl rfl rfl rfl (by simp [hthread]) trivial
  | receivesHTTP3 hthread hdecided hresults =>
    exact h.move (fun _ => rfl) rfl rfl rfl rfl rfl (by simp [hthread]) trivial
  | returnsWinner hthread hfree hwinner =>
    exact h.move (fun _ => rfl) rfl rfl rfl rfl rfl (by simp [hthread]) trivial
  | cachesWinner hthread hfree hwinner hbuild =>
    exact h.move (fun _ => cached_h3 ..) rfl rfl rfl rfl rfl (by simp [hthread]) trivial
  | timesOut hthread => exact h.move (fun _ => rfl) rfl rfl rfl rfl rfl (by simp [hthread]) trivial

/-- A transport that has replaced the one to be dropped stays. -/
theorem drop_replaced {i : ℕ} {call : Call} {t t' : Transport env rt}
    (hcached : s.cachedTransports (call.addr, .h2) = some t') (hne : t' ≠ t)
    (hthread : s.threads i = .changed call t) :
    (step s (.drop i)).cachedTransports = s.cachedTransports ∧ (step s (.drop i)).cachedKinds = s.cachedKinds := by
  rw [step, hthread]
  split
  · next call' t'' hthread' hfree =>
    obtain ⟨rfl, rfl⟩ := Thread.changed.inj hthread'
    rw [State.drop, if_neg]
    · exact ⟨rfl, rfl⟩
    · rw [hcached]
      exact fun heq => hne (Option.some.inj heq)
  · exact ⟨rfl, rfl⟩

/-- Dropping the kind leaves the transports. -/
theorem dropKind_transports {i : ℕ} {call : Call} {t : Transport env rt}
    (hthread : s.threads i = .dropping call t) :
    (step s (.dropKind i)).cachedTransports = s.cachedTransports := by
  rw [step, hthread]
  dsimp only
  rw [State.dropKind, failCall_eq]

/-- Over every run of a round tripper, in any interleaving of its requests, dials and drops that meets the
condition, kinds, transports and connections are coherent. -/
theorem kinds_coherent (rt : RoundTripper F D) (actions : List Action)
    (hrun : Run.Along step Timely ({} : State env rt) actions) :
    Coherence (Run.exec step ({} : State env rt) actions) := by
  have hcoherent : Coherent (Run.exec step ({} : State env rt) actions) :=
    Run.invariant_exec (fun _ _ h hok => h.step hok) coherent_init hrun
  refine ⟨fun addr hdropping => ⟨hcoherent.kinds addr, hcoherent.transports addr hdropping⟩, hcoherent.handed, ?_⟩
  exact fun i call t t' hcached hne => ⟨drop_replaced hcached hne, dropKind_transports⟩

/-- An https request whose server negotiates `h2`. -/
def exampleSetup (protocol : Bytes) : List Action :=
  [.roundTrip 0 (exampleRequest .https), .acquire 0, .setup 0, .setupDone 0 (.negotiated protocol)]

/-- Two requests take the transport of the first one, and the server changes to HTTP/1 for two of the three. -/
def exampleStale : List Action :=
  exampleSetup (utf8 "h2") ++
    [.dial 0 10, .dialStart 10, .roundTrip 1 (exampleRequest .https), .acquire 1,
      .roundTrip 2 (exampleRequest .https), .acquire 2, .dial 0 10, .dial 1 11, .dial 2 12,
      .dialStart 10, .dialDone 10 (.negotiated (utf8 "http/1.1")) [0],
      .dialStart 11, .dialDone 11 (.negotiated (utf8 "http/1.1")) [1], .drop 0]

/-- The first of them drops the transport, its next request has another built, and the two others are late. -/
def exampleLate : List Action :=
  exampleStale ++ [.dropKind 0] ++ exampleSetup (utf8 "http/1.1") ++ [.dialStart 12, .drop 1, .dropKind 1]

/-- A drop that finds its transport. -/
theorem kinds_coherent_drop :
    Coherence (Run.exec step ({} : State exampleEnv (newRoundTripper (Proxy.exampleClient none)))
      (exampleStale ++ [.dropKind 0])) := by
  refine kinds_coherent _ _ ?_
  refine ⟨trivial, trivial, trivial, trivial, trivial, ?_, trivial, trivial, trivial, trivial, trivial, trivial,
    trivial, fun _ => nofun, ?_, fun _ => nofun, ?_, trivial, fun _ => nofun, trivial⟩
  · rintro c ⟨rfl⟩
    exact .inr rfl
  -- the kind recorded is the one of HTTP/2
  · exact fun hkind => absurd (Option.some.inj hkind) (by decide)
  · exact fun hkind => absurd (Option.some.inj hkind) (by decide)

/-- Between the sections of a drop there is a kind and no transport; the late drop deletes the kind of the new
transport; and the late dial hands the new connection to the old transport. -/
theorem kinds_incoherent :
    let window := Run.exec step ({} : State exampleEnv (newRoundTripper (Proxy.exampleClient none))) exampleStale
    let late := Run.exec step ({} : State exampleEnv (newRoundTripper (Proxy.exampleClient none))) exampleLate
    (window.cachedTransportsLck = none ∧ ¬HasTransport window (exampleRequest .https).getDialTLSAddr) ∧
      (late.cachedTransportsLck = none ∧ ¬HasKind late (exampleRequest .https).getDialTLSAddr) ∧
      late.handed.map (fun p => (p.1.kind, kindForProtocol p.2.protocol)) =
        [(.http2, .http2), (.http2, .http1)] := by
  refine ⟨⟨rfl, fun h => ?_⟩, ⟨rfl, fun h => ?_⟩, rfl⟩
  · obtain ⟨t, ht, -⟩ := h .http2 rfl
    contradiction
  · have hkind := h _ rfl rfl
    contradiction

end TlsClient.Engine.RoundTrip
