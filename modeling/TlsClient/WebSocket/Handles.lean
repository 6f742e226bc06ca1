import TlsClient.Library.Run
import TlsClient.Library.HandleTable
import Mathlib.Data.UInt

/-!
# The WebSocket bridge and its handle registry

Embeds the `Websocket*` functions of `src/cffi_binding/main.go` and the `close` methods of
`src/tls_client/websocket.py`. Clients and live connections are kept in two package-level maps; each
map has its own counter and both counters start at zero, so the n-th client and the n-th connection
get the same number. `WebsocketFreeHandle` takes a bare number and deletes it from both maps.

`World` puts beside the registry what the caller still holds: the handles it was given and has not
closed or freed, with the object each was issued for. `Resolves` says that every held handle still
finds its object. A run keeps it as long as no freed number is in use in the other map.
-/

namespace TlsClient.WebSocket

/-- `uintptr_t` on the 64-bit targets, and the key type of both maps. -/
abbrev Handle := BitVec 64

/-- How a call into the engine ends: a result, a Go error, or a recovered panic. -/
inductive Outcome (α : Type) where
  | ok (a : α)
  | err (msg : String)
  | panics (msg : String)
deriving DecidableEq, Repr

/-- The fields of `C.WebsocketOptions` that select the pooled client. -/
structure WebsocketOptions where
  clientIdentifier : String
  forceHttp1 : Bool
deriving DecidableEq, Repr

/-- The two fields `WebsocketNew` sets in the `requestConfig` it passes to the pool. -/
structure ClientConfig where
  clientIdentifier : String
  forceHttp1 : Bool
deriving DecidableEq, Repr

/-- `(*websocket.Conn).ReadMessage`: type code and payload. -/
structure Frame where
  messageType : ℤ
  data : List UInt8
deriving DecidableEq, Repr

/-- `C.WebsocketMessage`; `data` is NULL for an empty payload. -/
structure WebsocketMessage where
  messageType : ℤ
  dataLen : ℤ
  data : Option (List UInt8)
deriving DecidableEq, Repr

/-- The two `sync.Map`s with their counters. -/
structure Registry (Ws Conn : Type) where
  wsHandles : HandleTable 64 Ws
  wsConnHandles : HandleTable 64 Conn

variable {Client Ws Conn : Type}

/-- The registry when the library is loaded. -/
def Registry.empty : Registry Ws Conn := ⟨.empty, .empty⟩

/-- `WebsocketNew` turns on `forceHttp1` whatever the option says. -/
def websocketClientConfig (opts : WebsocketOptions) : ClientConfig :=
  let cfg : ClientConfig := { clientIdentifier := opts.clientIdentifier, forceHttp1 := true }
  if opts.forceHttp1 then { cfg with forceHttp1 := true } else cfg

/-- `WebsocketNew` up to the point where it stores the new client. -/
def buildWebsocket (getOrCreateClientFromConfig : ClientConfig → Outcome Client)
    (newWebsocket : Client → WebsocketOptions → Outcome Ws) :
    Option WebsocketOptions → Outcome Ws
  | none => .err "websocket options are nil"
  | some opts =>
    match getOrCreateClientFromConfig (websocketClientConfig opts) with
    | .err msg => .err ("failed to obtain tls client: " ++ msg)
    | .panics msg => .panics msg
    | .ok client => newWebsocket client opts

/-- `WebsocketNew`: the returned id (0 on failure) and the text left in `errMsg`. -/
def websocketNew (built : Outcome Ws) (r : Registry Ws Conn) :
    (Handle × Option String) × Registry Ws Conn :=
  match built with
  | .panics msg => ((0, some ("go panic in WebsocketNew: " ++ msg)), r)
  | .err msg => ((0, some msg), r)
  | .ok ws => ((r.wsHandles.next, none), { r with wsHandles := r.wsHandles.issue ws })

/-- `WebsocketConnect`: `connect` is the dial of the client the handle resolves to. -/
def websocketConnect (wsID : Handle) (connect : Ws → Outcome Conn) (r : Registry Ws Conn) :
    (Handle × Option String) × Registry Ws Conn :=
  match r.wsHandles.load wsID with
  | none => ((0, some "invalid websocket handle"), r)
  | some ws =>
    match connect ws with
    | .panics msg => ((0, some ("go panic in WebsocketConnect: " ++ msg)), r)
    | .err msg => ((0, some msg), r)
    | .ok conn =>
      ((r.wsConnHandles.next, none), { r with wsConnHandles := r.wsConnHandles.issue conn })

/-- `WebsocketReadMessage`; the two flags say whether the two `malloc`s succeed. `C.int` wraps the
payload length to 32 bits. -/
def websocketReadMessage (connID : Handle) (readMessage : Conn → Outcome Frame)
    (mallocMsg mallocData : Bool) (r : Registry Ws Conn) :
    Option WebsocketMessage × Option String :=
  match r.wsConnHandles.load connID with
  | none => (none, some "invalid websocket connection handle")
  | some conn =>
    match readMessage conn with
    | .panics msg => (none, some ("go panic in WebsocketReadMessage: " ++ msg))
    | .err msg => (none, some msg)
    | .ok frame =>
      if !mallocMsg then (none, some "failed to allocate websocket message")
      else if 0 < frame.data.length ∧ !mallocData then
        (none, some "failed to allocate websocket message body")
      else
        (some { messageType := frame.messageType
                dataLen := (BitVec.ofNat 32 frame.data.length).toInt
                data := if 0 < frame.data.length then some frame.data else none }, none)

/-- `WebsocketWriteMessage`; `data = none` is a NULL pointer, otherwise `dataLen` bytes are sent. -/
def websocketWriteMessage (connID : Handle) (writeMessage : Conn → List UInt8 → Outcome Unit)
    (data : Option (List UInt8)) (dataLen : ℤ) (r : Registry Ws Conn) : ℤ × Option String :=
  match r.wsConnHandles.load connID with
  | none => (-1, some "invalid websocket connection handle")
  | some conn =>
    match data with
    | none => (-1, some "empty websocket message body")
    | some bytes =>
      if dataLen ≤ 0 then (-1, some "empty websocket message body")
      else
        match writeMessage conn (bytes.take dataLen.toNat) with
        | .panics msg => (-1, some ("go panic in WebsocketWriteMessage: " ++ msg))
        | .err msg => (-1, some msg)
        | .ok () => (0, none)

/-- `WebsocketClose`: the entry is deleted before `conn.Close` runs, so it goes even if that fails. -/
def websocketClose (connID : Handle) (close : Conn → Outcome Unit) (r : Registry Ws Conn) :
    (ℤ × Option String) × Registry Ws Conn :=
  match r.wsConnHandles.load connID with
  | none => ((0, none), r)
  | some conn =>
    let r' := { r with wsConnHandles := r.wsConnHandles.delete connID }
    match close conn with
    | .panics msg => ((-1, some ("go panic in WebsocketClose: " ++ msg)), r')
    | .err msg => ((-1, some msg), r')
    | .ok () => ((0, none), r')

/-- `WebsocketFreeHandle`: deletes the number from both maps. -/
def websocketFreeHandle (handleID : Handle) (r : Registry Ws Conn) : Registry Ws Conn :=
  { wsConnHandles := r.wsConnHandles.delete handleID
    wsHandles := r.wsHandles.delete handleID }

/-! ## Spec lemmas: what each call does to the two tables -/

theorem websocketNew_ok (ws : Ws) (r : Registry Ws Conn) :
    websocketNew (.ok ws) r
      = ((r.wsHandles.next, none), { r with wsHandles := r.wsHandles.issue ws }) := rfl

/-- The connection a `WebsocketConnect` call opens, if it opens one. -/
def dialled (wsID : Handle) (connect : Ws → Outcome Conn) (r : Registry Ws Conn) : Option Conn :=
  match r.wsHandles.load wsID with
  | none => none
  | some ws =>
    match connect ws with
    | .ok conn => some conn
    | _ => none

/-- A connection that is dialled gets the next handle. -/
theorem websocketConnect_of_dialled {wsID : Handle} {connect : Ws → Outcome Conn}
    {r : Registry Ws Conn} {conn : Conn} (hdial : dialled wsID connect r = some conn) :
    websocketConnect wsID connect r
      = ((r.wsConnHandles.next, none),
          { r with wsConnHandles := r.wsConnHandles.issue conn }) := by
  unfold dialled at hdial
  unfold websocketConnect
  cases hload : r.wsHandles.load wsID with
  | none => simp [hload] at hdial
  | some ws =>
    cases hconn : connect ws with
    | ok c =>
      simp only [hload, hconn, Option.some.injEq] at hdial
      simp [hconn, hdial]
    | err msg => simp [hload, hconn] at hdial
    | panics msg => simp [hload, hconn] at hdial

/-- Otherwise nothing changes. -/
theorem websocketConnect_of_not_dialled {wsID : Handle} {connect : Ws → Outcome Conn}
    {r : Registry Ws Conn} (hdial : dialled wsID connect r = none) :
    (websocketConnect wsID connect r).2 = r := by
  unfold dialled at hdial
  unfold websocketConnect
  cases hload : r.wsHandles.load wsID with
  | none => rfl
  | some ws =>
    cases hconn : connect ws with
    | ok c => simp [hload, hconn] at hdial
    | err msg => simp [hconn]
    | panics msg => simp [hconn]

/-- Closing an unknown handle is a no-op and every other path deletes the entry first, so in every
case the connection table reads as after the deletion and nothing else changes. -/
theorem websocketClose_spec (connID : Handle) (close : Conn → Outcome Unit)
    (r : Registry Ws Conn) :
    (websocketClose connID close r).2
      = { r with wsConnHandles := r.wsConnHandles.delete connID } := by
  unfold websocketClose
  cases hload : r.wsConnHandles.load connID with
  | none => simp only [HandleTable.delete_of_none hload]
  | some conn => cases hclose : close conn <;> simp [hclose]

/-! ## Runs of calls -/

/-- What the caller of `WebsocketFreeHandle` means to free; the number alone does not say. -/
inductive Owner where
  | client
  | connection
deriving DecidableEq, Repr

/-- One call on the bridge, with the outcomes of what it calls. -/
inductive Call (Ws Conn : Type) where
  | websocketNew (built : Outcome Ws)
  | websocketConnect (wsID : Handle) (connect : Ws → Outcome Conn)
  | websocketReadMessage (connID : Handle)
  | websocketWriteMessage (connID : Handle)
  | websocketClose (connID : Handle) (close : Conn → Outcome Unit)
  | websocketFreeHandle (owner : Owner) (handleID : Handle)

/-- The registry, and the live handles: those issued and not yet closed or freed by the caller, each
with the object it was issued for. -/
structure World (Ws Conn : Type) where
  registry : Registry Ws Conn
  heldClients : List (Handle × Ws)
  heldConns : List (Handle × Conn)

def World.init : World Ws Conn := ⟨.empty, [], []⟩

/-- The caller gives up what it holds under the number `h`. -/
def giveUp {α : Type} (h : Handle) (held : List (Handle × α)) : List (Handle × α) :=
  held.filter (fun p => p.1 ≠ h)

/-- One call. Reads and writes leave both maps alone. -/
def World.step (w : World Ws Conn) : Call Ws Conn → World Ws Conn
  | .websocketNew built =>
    let called := websocketNew built w.registry
    match built with
    | .ok ws => { w with registry := called.2, heldClients := (called.1.1, ws) :: w.heldClients }
    | _ => { w with registry := called.2 }
  | .websocketConnect wsID connect =>
    let called := websocketConnect wsID connect w.registry
    match dialled wsID connect w.registry with
    | some conn => { w with registry := called.2, heldConns := (called.1.1, conn) :: w.heldConns }
    | none => { w with registry := called.2 }
  | .websocketReadMessage _ => w
  | .websocketWriteMessage _ => w
  | .websocketClose connID close =>
    { w with
      registry := (websocketClose connID close w.registry).2
      heldConns := giveUp connID w.heldConns }
  | .websocketFreeHandle .client handleID =>
    { w with
      registry := websocketFreeHandle handleID w.registry
      heldClients := giveUp handleID w.heldClients }
  | .websocketFreeHandle .connection handleID =>
    { w with
      registry := websocketFreeHandle handleID w.registry
      heldConns := giveUp handleID w.heldConns }

/-- `WebSocketConnection.close` on a connection that is not closed yet. -/
def connectionClose (connID : Handle) (close : Conn → Outcome Unit) : List (Call Ws Conn) :=
  [.websocketClose connID close, .websocketFreeHandle .connection connID]

/-- `WebSocket.close` on a client that is not closed yet. -/
def webSocketClose (wsID : Handle) : List (Call Ws Conn) :=
  [.websocketFreeHandle .client wsID]

/-- Every handle in `held` finds its object in the table. -/
def Resolve {α : Type} (held : List (Handle × α)) (t : HandleTable 64 α) : Prop :=
  ∀ p ∈ held, t.load p.1 = some p.2

/-- Every live handle resolves to the object it was issued for. -/
structure World.Resolves (w : World Ws Conn) : Prop where
  clients : Resolve w.heldClients w.registry.wsHandles
  conns : Resolve w.heldConns w.registry.wsConnHandles

/-- The condition under which one call keeps the other handles valid: a counter that advances has not
wrapped, and a freed number is not also the number of a live handle of the other kind. -/
def World.StepOk (w : World Ws Conn) : Call Ws Conn → Prop
  | .websocketNew _ => w.registry.wsHandles.seq.toNat + 1 < 2 ^ 64
  | .websocketConnect _ _ => w.registry.wsConnHandles.seq.toNat + 1 < 2 ^ 64
  | .websocketFreeHandle .client handleID => handleID ∉ w.heldConns.map Prod.fst
  | .websocketFreeHandle .connection handleID => handleID ∉ w.heldClients.map Prod.fst
  | _ => True

instance (w : World Ws Conn) (c : Call Ws Conn) : Decidable (w.StepOk c) := by
  unfold World.StepOk
  split <;> infer_instance

/-- The run invariant: live handles resolve, and neither table stores anything ahead of its counter. -/
structure World.Inv (w : World Ws Conn) : Prop extends w.Resolves where
  freshClients : w.registry.wsHandles.Fresh
  freshConns : w.registry.wsConnHandles.Fresh

/-- At the start there are no handles. -/
theorem World.inv_init : (World.init : World Ws Conn).Inv where
  clients p hp := by simp [World.init] at hp
  conns p hp := by simp [World.init] at hp
  freshClients := HandleTable.fresh_empty
  freshConns := HandleTable.fresh_empty

section Preservation

variable {α : Type} {held : List (Handle × α)} {t : HandleTable 64 α} {a : α} {h : Handle}

/-- A handle issued from a table with room is not one that is still held. -/
private theorem resolve_issue (hres : Resolve held t) (hfresh : t.Fresh)
    (hroom : t.seq.toNat + 1 < 2 ^ 64) : Resolve ((t.next, a) :: held) (t.issue a) := by
  intro p hp
  rcases List.mem_cons.mp hp with rfl | hold
  · exact HandleTable.load_issue_self
  · have hload := hres p hold
    have hne : p.1 ≠ t.next := by
      intro heq
      rw [heq, hfresh.load_next hroom] at hload
      simp at hload
    rw [HandleTable.load_issue_ne hne]
    exact hload

/-- Deleting a handle that the caller gives up keeps the others resolved. -/
private theorem resolve_delete_giveUp (hres : Resolve held t) :
    Resolve (giveUp h held) (t.delete h) := by
  intro p hp
  obtain ⟨hheld, hne⟩ := List.mem_filter.mp hp
  rw [HandleTable.load_delete_ne (of_decide_eq_true hne)]
  exact hres p hheld

/-- Deleting a number keeps every held handle resolved exactly when the number is not held. -/
private theorem resolve_delete_iff (hres : Resolve held t) :
    Resolve held (t.delete h) ↔ h ∉ held.map Prod.fst := by
  constructor
  · intro hdel hmem
    obtain ⟨p, hp, rfl⟩ := List.mem_map.mp hmem
    have hload := hdel p hp
    simp at hload
  · intro hfree p hp
    have hne : p.1 ≠ h := by
      rintro rfl
      exact hfree (List.mem_map_of_mem hp)
    rw [HandleTable.load_delete_ne hne]
    exact hres p hp

end Preservation

/-- Freeing a client keeps every live handle valid exactly when no live connection has its number. -/
theorem World.Resolves.free_client_iff {w : World Ws Conn} (hres : w.Resolves) (h : Handle) :
    (w.step (.websocketFreeHandle .client h)).Resolves ↔ h ∉ w.heldConns.map Prod.fst := by
  rw [← resolve_delete_iff hres.conns]
  exact ⟨fun hstep => hstep.conns, fun hconns => ⟨resolve_delete_giveUp hres.clients, hconns⟩⟩

/-- Freeing a connection keeps every live handle valid exactly when no live client has its number. -/
theorem World.Resolves.free_connection_iff {w : World Ws Conn} (hres : w.Resolves) (h : Handle) :
    (w.step (.websocketFreeHandle .connection h)).Resolves ↔ h ∉ w.heldClients.map Prod.fst := by
  rw [← resolve_delete_iff hres.clients]
  exact ⟨fun hstep => hstep.clients, fun hclients => ⟨hclients, resolve_delete_giveUp hres.conns⟩⟩

/-- One call that meets its condition keeps the invariant. -/
theorem World.Inv.step {w : World Ws Conn} (c : Call Ws Conn) (hinv : w.Inv) (hok : w.StepOk c) :
    (w.step c).Inv := by
  cases c with
  | websocketNew built =>
    cases built with
    | ok ws =>
      exact ⟨⟨resolve_issue hinv.clients hinv.freshClients hok, hinv.conns⟩,
        hinv.freshClients.issue hok, hinv.freshConns⟩
    | err msg => exact hinv
    | panics msg => exact hinv
  | websocketConnect wsID connect =>
    cases hdial : dialled wsID connect w.registry with
    | none =>
      simp only [World.step, hdial, websocketConnect_of_not_dialled hdial]
      exact hinv
    | some conn =>
      simp only [World.step, hdial, websocketConnect_of_dialled hdial]
      exact ⟨⟨hinv.clients, resolve_issue hinv.conns hinv.freshConns hok⟩,
        hinv.freshClients, hinv.freshConns.issue hok⟩
  | websocketReadMessage connID => exact hinv
  | websocketWriteMessage connID => exact hinv
  | websocketClose connID close =>
    simp only [World.step, websocketClose_spec]
    exact ⟨⟨hinv.clients, resolve_delete_giveUp hinv.conns⟩,
      hinv.freshClients, hinv.freshConns.delete⟩
  | websocketFreeHandle owner handleID =>
    cases owner with
    | client =>
      -- freeing deletes the number from both tables, which the condition makes harmless
      exact ⟨(hinv.toResolves.free_client_iff handleID).mpr hok,
        hinv.freshClients.delete, hinv.freshConns.delete⟩
    | connection =>
      exact ⟨(hinv.toResolves.free_connection_iff handleID).mpr hok,
        hinv.freshClients.delete, hinv.freshConns.delete⟩

/-- In every run that frees no number still live as the other kind, every live handle resolves to the
object it was issued for. -/
theorem live_handles_resolve (calls : List (Call Ws Conn))
    (hrun : Run.Along World.step World.StepOk World.init calls) :
    (Run.exec World.step World.init calls).Resolves :=
  (Run.invariant_exec (fun _ c hinv hok => hinv.step c hok) World.inv_init hrun).toResolves

/-- Two clients, of which the first is freed before the second connects: its number 1 is then free for
the connection, and the second client outlives that connection. -/
def disjointLifetimes : List (Call String String) :=
  [.websocketNew (.ok "a"), .websocketNew (.ok "b")] ++ webSocketClose 1 ++
    [.websocketConnect 2 (fun ws => .ok ws)] ++ connectionClose 1 (fun _ => .ok ())

/-- Two clients, one after the other. -/
theorem live_handles_resolve_disjointLifetimes :
    (Run.exec World.step World.init disjointLifetimes).heldClients = [(2, "b")] ∧
      (Run.exec World.step World.init disjointLifetimes).Resolves :=
  ⟨by decide, live_handles_resolve disjointLifetimes (by decide)⟩

/-- Open one client, connect it and close the connection, as the module's own example does. -/
def closeOnlyConnection : List (Call String String) :=
  [.websocketNew (.ok "ws"), .websocketConnect 1 (fun ws => .ok ws)] ++
    connectionClose 1 (fun _ => .ok ())

/-- Closing the connection removed the client it came from. -/
theorem closeOnlyConnection_loses_client :
    ¬ (Run.exec World.step World.init closeOnlyConnection).Resolves := by
  intro hres
  have hload := hres.clients (1, "ws") (by decide)
  exact absurd hload (by decide)

end TlsClient.WebSocket
