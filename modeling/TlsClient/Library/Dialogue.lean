import TlsClient.Library.WireBytes

/-!
# One side of a dialogue over a byte stream

`Talk` is a computation that writes to and reads from a connection and may fail with a text. The connection
is the bytes that the other side sends from here on and a log of what has been written and read, in order.
What the other side sends may depend on what it has read: whatever it sends in a run is some byte stream, and
results hold for each of them.

`Ensures` is a postcondition for both ends of a computation: `Q` where it returns and `E` where it fails. Its
rules go through a computation from the front. `Obeys` says of a log that each message in it was allowed after
what stands before it.
-/

namespace Dialogue

open WireBytes

inductive Event
  | wrote (msg : Bytes)
  | got (bytes : Bytes)
  | closed
  deriving DecidableEq

structure Conn where
  unread : Bytes
  log : List Event

/-- How the connection fails: the error of a write, if any, by what has happened before, and the error of a read
for which too little comes. -/
structure Faults where
  writeError : List Event → Bytes → Option String
  readError : Bytes → ℕ → String

/-- A computation that fails or returns, and leaves the connection. -/
def Talk (α : Type) : Type := Conn → Except String α × Conn

variable {α β : Type}

def Talk.pure (a : α) : Talk α := fun c => (.ok a, c)

def Talk.bind (m : Talk α) (f : α → Talk β) : Talk β := fun c =>
  match m c with
  | (.ok a, c') => f a c'
  | (.error err, c') => (.error err, c')

instance : Monad Talk where
  pure := Talk.pure
  bind := Talk.bind

def fail (err : String) : Talk α := fun c => (.error err, c)

/-- The result of something that does not touch the connection. -/
def lift (x : Except String α) : Talk α := fun c => (x, c)

/-- `fmt.Errorf("label: %w", err)` -/
def wrap (label : String) (m : Talk α) : Talk α := fun c =>
  match m c with
  | (.ok a, c') => (.ok a, c')
  | (.error err, c') => (.error (label ++ ": " ++ err), c')

/-- A write. One that fails may have got bytes through as well. -/
def write (faults : Faults) (msg : Bytes) : Talk Unit := fun c =>
  let c' := { c with log := c.log ++ [.wrote msg] }
  match faults.writeError c.log msg with
  | none => (.ok (), c')
  | some err => (.error err, c')

/-- `io.ReadFull` into a slice of `n` bytes. -/
def readFull (faults : Faults) (n : ℕ) : Talk Bytes := fun c =>
  if n ≤ c.unread.length then
    (.ok (c.unread.take n), ⟨c.unread.drop n, c.log ++ [.got (c.unread.take n)]⟩)
  else
    (.error (faults.readError c.unread n), ⟨[], c.log ++ [.got c.unread]⟩)

/-- `defer` that closes the connection when the computation fails. -/
def closing (m : Talk α) : Talk α := fun c =>
  match m c with
  | (.ok a, c') => (.ok a, c')
  | (.error err, c') => (.error err, { c' with log := c'.log ++ [.closed] })

/-! ## Postconditions -/

def Ensures (m : Talk α) (c : Conn) (Q : α → Conn → Prop) (E : Conn → Prop) : Prop :=
  match m c with
  | (.ok a, c') => Q a c'
  | (.error _, c') => E c'

section Rules

variable {m : Talk α} {f : α → Talk β} {c : Conn} {Q Q' : α → Conn → Prop} {R : β → Conn → Prop}
  {E : Conn → Prop} {faults : Faults}

theorem ensures_pure {a : α} (h : Q a c) : Ensures (pure a) c Q E := h

theorem ensures_fail {err : String} (h : E c) : Ensures (fail err) c Q E := h

/-- A talk behind a talk. -/
theorem ensures_bind (h : Ensures m c (fun a c' => Ensures (f a) c' R E) E) : Ensures (m >>= f) c R E := by
  show match (match m c with | (.ok a, c') => f a c' | (.error err, c') => (.error err, c')) with
    | (.ok a, c') => R a c'
    | (.error _, c') => E c'
  rw [Ensures] at h
  match hm : m c with
  | (.ok a, c') =>
    rw [hm] at h
    exact h
  | (.error err, c') =>
    rw [hm] at h
    exact h

/-- A talk that depends on a condition. -/
theorem ensures_ite {p : Prop} [Decidable p] {m' : Talk α} (hpos : p → Ensures m c Q E)
    (hneg : ¬p → Ensures m' c Q E) : Ensures (if p then m else m') c Q E := by
  by_cases h : p
  · rw [if_pos h]
    exact hpos h
  · rw [if_neg h]
    exact hneg h

/-- A talk ensures less where it ensures more. -/
theorem ensures_imp {E' : Conn → Prop} (h : Ensures m c Q E) (hQ : ∀ a c', Q a c' → Q' a c')
    (hE : ∀ c', E c' → E' c') : Ensures m c Q' E' := by
  rw [Ensures] at h ⊢
  match hm : m c with
  | (.ok a, c') =>
    rw [hm] at h
    exact hQ a c' h
  | (.error err, c') =>
    rw [hm] at h
    exact hE c' h

theorem ensures_mono (h : Ensures m c Q E) (hQ : ∀ a c', Q a c' → Q' a c') : Ensures m c Q' E :=
  ensures_imp h hQ fun _ hE => hE

/-- What the postconditions say of the result and of the connection after it. -/
theorem ensures_iff : Ensures m c Q E ↔
    (∀ a, (m c).1 = .ok a → Q a (m c).2) ∧ ∀ err, (m c).1 = .error err → E (m c).2 := by
  rw [Ensures]
  match m c with
  | (.ok a, c') =>
    refine ⟨fun h => ⟨fun b hb => ?_, fun err herr => by cases herr⟩, fun h => h.1 a rfl⟩
    cases hb
    exact h
  | (.error err, c') =>
    exact ⟨fun h => ⟨fun b hb => (by cases hb), fun _ _ => h⟩, fun h => h.2 err rfl⟩

/-- What is done beside the connection. -/
theorem ensures_lift {x : Except String α} (hok : ∀ a, x = .ok a → Q a c) (herr : E c) :
    Ensures (lift x) c Q E := by
  cases x with
  | ok a => exact hok a rfl
  | error err => exact herr

/-- A label in front of the error. -/
theorem ensures_wrap {label : String} (h : Ensures m c Q E) : Ensures (wrap label m) c Q E := by
  rw [Ensures] at h
  rw [Ensures, wrap]
  match hm : m c with
  | (.ok a, c') =>
    rw [hm] at h
    exact h
  | (.error err, c') =>
    rw [hm] at h
    exact h

/-- A connection that is closed on an error. -/
theorem ensures_closing (h : Ensures m c Q fun c' => E { c' with log := c'.log ++ [.closed] }) :
    Ensures (closing m) c Q E := by
  rw [Ensures] at h
  rw [Ensures, closing]
  match hm : m c with
  | (.ok a, c') =>
    rw [hm] at h
    exact h
  | (.error err, c') =>
    rw [hm] at h
    exact h

/-- A write, which may fail. -/
theorem ensures_write {msg : Bytes} {Q : Unit → Conn → Prop}
    (hok : Q () { c with log := c.log ++ [.wrote msg] }) (herr : E { c with log := c.log ++ [.wrote msg] }) :
    Ensures (write faults msg) c Q E := by
  rw [Ensures, write]
  cases faults.writeError c.log msg with
  | none => exact hok
  | some err => exact herr

/-- A read takes exactly its bytes off the front of what is unread. -/
theorem ensures_readFull {n : ℕ} {Q : Bytes → Conn → Prop}
    (hok : ∀ field rest, c.unread = field ++ rest → field.length = n → Q field ⟨rest, c.log ++ [.got field]⟩)
    (herr : E ⟨[], c.log ++ [.got c.unread]⟩) : Ensures (readFull faults n) c Q E := by
  rw [Ensures, readFull]
  by_cases h : n ≤ c.unread.length
  · rw [if_pos h]
    exact hok _ _ (List.take_append_drop n c.unread).symm (List.length_take_of_le h)
  · rw [if_neg h]
    exact herr

end Rules

/-! ## What may be written when -/

/-- Each message of the log was allowed after what stands before it. -/
def Obeys (may : List Event → Bytes → Prop) (log : List Event) : Prop :=
  ∀ before msg after, log = before ++ .wrote msg :: after → may before msg

variable {may : List Event → Bytes → Prop} {log : List Event} {msg : Bytes} {e : Event}

theorem obeys_nil : Obeys may [] := fun before msg after h => by
  have hlen := congrArg List.length h
  simp at hlen

/-- One more event. -/
theorem obeys_append_iff : Obeys may (log ++ [e]) ↔ Obeys may log ∧ ∀ msg, e = .wrote msg → may log msg := by
  constructor
  · intro h
    refine ⟨fun before msg after hlog => h before msg (after ++ [e]) (by rw [hlog]; simp), ?_⟩
    rintro msg rfl
    exact h log msg [] rfl
  · rintro ⟨hlog, hlast⟩ before msg after heq
    rcases List.eq_nil_or_concat after with rfl | ⟨front, last, rfl⟩
    · obtain ⟨rfl, he⟩ := List.append_inj' heq rfl
      exact hlast msg (List.cons.inj he).1
    · rw [List.concat_eq_append, ← List.cons_append, ← List.append_assoc] at heq
      obtain ⟨rfl, -⟩ := List.append_inj' heq rfl
      exact hlog before msg front rfl

theorem obeys_wrote (hlog : Obeys may log) (hmsg : may log msg) : Obeys may (log ++ [.wrote msg]) :=
  obeys_append_iff.mpr ⟨hlog, fun _ h => Event.wrote.inj h ▸ hmsg⟩

theorem obeys_got (hlog : Obeys may log) (bytes : Bytes) : Obeys may (log ++ [.got bytes]) :=
  obeys_append_iff.mpr ⟨hlog, fun _ h => by cases h⟩

theorem obeys_closed (hlog : Obeys may log) : Obeys may (log ++ [.closed]) :=
  obeys_append_iff.mpr ⟨hlog, fun _ h => by cases h⟩

end Dialogue
