import TlsClient.Library.Dialogue
import TlsClient.Library.HostPort
import TlsClient.Engine.Socks5Datagram

/-!
# The negotiation with a SOCKS5 proxy

Embeds `socks5Handshake`, `socks5UsernamePasswordAuth` and `socks5UDPAssociate` of `src/socks5_udp.go`. The
control connection is a `Dialogue`: what the proxy sends is any byte stream, and the log says what has been
written when. Name resolution, the parser of addresses and the quoting of names in errors are functions.

`Accepted` is the replies of a negotiation that succeeds, byte by byte, and what the client makes of them.
`MayWrite` is what may be written after what: credentials only after the proxy has picked their method among
those offered.
-/

namespace TlsClient.Engine.Socks5Negotiation

open WireBytes IpBytes Dialogue HostPort TlsClient.Engine.Socks5Datagram

structure Socks5Auth where
  user : Bytes
  password : Bytes

/-- What the client needs of the machine: how its connection and its dial fail, `net.ParseIP`,
`net.ResolveIPAddr("ip", _)`, and `%q` of a string. -/
structure Machine extends Faults where
  dial : Bytes → Except String Unit
  setDeadline : Except String Unit
  clearDeadline : Except String Unit
  parseIP : Bytes → Option Ip
  resolveIPAddr : Bytes → Except String Ip
  quote : Bytes → String

/-! ## The handshake -/

def methods (auth : Option Socks5Auth) : Bytes :=
  if auth.isSome then [0x00, 0x02] else [0x00]

def greeting (auth : Option Socks5Auth) : Bytes :=
  0x05 :: UInt8.ofNat (methods auth).length :: methods auth

def credentials (auth : Socks5Auth) : Bytes :=
  0x01 :: UInt8.ofNat auth.user.length ::
    (auth.user ++ UInt8.ofNat auth.password.length :: auth.password)

/-- The byte at an index of a slice that `readFull` has filled. -/
def nth (bytes : Bytes) (i : ℕ) : UInt8 := bytes.getD i 0

def socks5UsernamePasswordAuth (env : Machine) (auth : Socks5Auth) : Talk Unit :=
  if 255 < auth.user.length then
    fail ("socks5 auth: username of " ++ toString auth.user.length ++ " bytes exceeds the maximum of 255")
  else if 255 < auth.password.length then
    fail ("socks5 auth: password of " ++ toString auth.password.length ++ " bytes exceeds the maximum of 255")
  else do
    wrap "socks5 auth: failed to send credentials" (write env.toFaults (credentials auth))
    let resp ← wrap "socks5 auth: failed to read response" (readFull env.toFaults 2)
    if nth resp 1 ≠ 0x00 then
      fail ("socks5 auth: authentication failed (status 0x" ++ hex02 (nth resp 1) ++ ")")
    else
      pure ()

def socks5Handshake (env : Machine) (auth : Option Socks5Auth) : Talk Unit := do
  wrap "socks5 handshake: failed to send greeting" (write env.toFaults (greeting auth))
  let resp ← wrap "socks5 handshake: failed to read method selection" (readFull env.toFaults 2)
  if nth resp 0 ≠ 0x05 then
    fail ("socks5 handshake: unexpected version " ++ toString (nth resp 0).toNat)
  else if nth resp 1 = 0x00 then
    pure ()
  else if nth resp 1 = 0x02 then
    match auth with
    | none => fail "socks5 handshake: server requires auth but no credentials provided"
    | some auth => socks5UsernamePasswordAuth env auth
  else if nth resp 1 = 0xff then
    fail "socks5 handshake: no acceptable authentication methods"
  else
    fail ("socks5 handshake: unsupported auth method 0x" ++ hex02 (nth resp 1))

/-! ## The association -/

/-- The request, for the address of the local socket. -/
def associateRequest (clientUDPAddr : Option UDPAddr) : Bytes :=
  let dst : UDPAddr :=
    match clientUDPAddr with
    | some addr => if isUnspecified addr.ip then ⟨iPv4zero, 0⟩ else addr
    | none => ⟨iPv4zero, 0⟩
  let address :=
    match to4 dst.ip with
    | some ip4 => 0x01 :: ip4
    | none => 0x04 :: (to16 dst.ip).getD []
  [0x05, 0x03, 0x00] ++ (address ++ uint16Bytes dst.port)

/-- The `switch` over the address type of the reply. -/
def readBndAddr (env : Machine) (atyp : UInt8) : Talk Ip :=
  if atyp = 0x01 then
    wrap "socks5 udp associate: failed to read BND.ADDR" (readFull env.toFaults 4)
  else if atyp = 0x04 then
    wrap "socks5 udp associate: failed to read BND.ADDR" (readFull env.toFaults 16)
  else if atyp = 0x03 then do
    let lenBuf ← wrap "socks5 udp associate: failed to read domain length" (readFull env.toFaults 1)
    let domain ← wrap "socks5 udp associate: failed to read domain" (readFull env.toFaults (nth lenBuf 0).toNat)
    wrap ("socks5 udp associate: failed to resolve BND.ADDR domain " ++ env.quote domain)
      (lift (env.resolveIPAddr domain))
  else
    fail ("socks5 udp associate: unsupported ATYP 0x" ++ hex02 atyp)

/-- `proxyHost, _, _ := net.SplitHostPort(proxyAddr)` -/
def proxyHost (proxyAddr : Bytes) : Bytes :=
  match netSplitHostPort proxyAddr with
  | .ok (host, _) => host
  | .error _ => []

/-- The address of the proxy itself. -/
def proxyIP (env : Machine) (proxyAddr : Bytes) : Except String Ip :=
  match env.parseIP (proxyHost proxyAddr) with
  | some ip => .ok ip
  | none => env.resolveIPAddr (proxyHost proxyAddr)

/-- What `socks5UDPAssociate` does on the connection that it has dialled. -/
def associate (env : Machine) (proxyAddr : Bytes) (auth : Option Socks5Auth) (clientUDPAddr : Option UDPAddr) :
    Talk UDPAddr := do
  wrap "socks5 udp associate: failed to set negotiation deadline" (lift env.setDeadline)
  socks5Handshake env auth
  wrap "socks5 udp associate: failed to send request" (write env.toFaults (associateRequest clientUDPAddr))
  let header ← wrap "socks5 udp associate: failed to read reply header" (readFull env.toFaults 4)
  if nth header 0 ≠ 0x05 then
    fail ("socks5 udp associate: unexpected version " ++ toString (nth header 0).toNat)
  else if nth header 1 ≠ 0x00 then
    fail ("socks5 udp associate: request failed with reply code 0x" ++ hex02 (nth header 1))
  else do
    let bndIP ← readBndAddr env (nth header 3)
    let portBuf ← wrap "socks5 udp associate: failed to read BND.PORT" (readFull env.toFaults 2)
    let bndPort := (nth portBuf 0).toNat <<< 8 ||| (nth portBuf 1).toNat
    let bndIP ←
      if isUnspecified bndIP then
        wrap ("socks5 udp associate: failed to resolve proxy host " ++ env.quote (proxyHost proxyAddr))
          (lift (proxyIP env proxyAddr))
      else
        pure bndIP
    wrap "socks5 udp associate: failed to clear negotiation deadline" (lift env.clearDeadline)
    return ⟨bndIP, bndPort⟩

/-- `socks5UDPAssociate`: the relay address. A control connection that it does not return is closed. -/
def socks5UDPAssociate (env : Machine) (proxyAddr : Bytes) (auth : Option Socks5Auth)
    (clientUDPAddr : Option UDPAddr) : Talk UDPAddr := do
  wrap "socks5 udp associate: failed to connect to proxy" (lift (env.dial proxyAddr))
  closing (associate env proxyAddr auth clientUDPAddr)

/-! ## What a negotiation may write and what it accepts -/

/-- What may be written after what. Each length byte says how long the field behind it is. -/
inductive MayWrite (auth : Option Socks5Auth) (clientUDPAddr : Option UDPAddr) : List Event → Bytes → Prop
  | greeting (nmethods : UInt8) (hlen : nmethods.toNat = (methods auth).length) :
      MayWrite auth clientUDPAddr [] (0x05 :: nmethods :: methods auth)
  | credentials (a : Socks5Auth) (ulen plen : UInt8) (hauth : auth = some a) (hoffered : 0x02 ∈ methods auth)
      (hulen : ulen.toNat = a.user.length) (hplen : plen.toNat = a.password.length) :
      MayWrite auth clientUDPAddr [.wrote (greeting auth), .got [0x05, 0x02]]
        (0x01 :: ulen :: (a.user ++ plen :: a.password))
  | request : MayWrite auth clientUDPAddr [.wrote (greeting auth), .got [0x05, 0x00]]
      (associateRequest clientUDPAddr)
  | requestWithAuth (a : Socks5Auth) (ver : UInt8) (hauth : auth = some a) :
      MayWrite auth clientUDPAddr
        [.wrote (greeting auth), .got [0x05, 0x02], .wrote (credentials a), .got [ver, 0x00]]
        (associateRequest clientUDPAddr)

/-- The method reply, with the authentication reply behind it where the proxy asks for credentials. -/
inductive HandshakeReplies (auth : Option Socks5Auth) : Bytes → Prop
  | noAuth : HandshakeReplies auth [0x05, 0x00]
  | password (a : Socks5Auth) (ver : UInt8) (hauth : auth = some a) :
      HandshakeReplies auth ([0x05, 0x02] ++ [ver, 0x00])

/-- The address of a reply: its type, its bytes, and the address that they stand for. -/
inductive BndAddr (env : Machine) : UInt8 → Bytes → Ip → Prop
  | v4 (addr : Bytes) (hlen : addr.length = 4) : BndAddr env 0x01 addr addr
  | v6 (addr : Bytes) (hlen : addr.length = 16) : BndAddr env 0x04 addr addr
  | domain (len : UInt8) (name : Bytes) (ip : Ip) (hlen : len.toNat = name.length)
      (hresolve : env.resolveIPAddr name = .ok ip) : BndAddr env 0x03 (len :: name) ip

/-- The bytes of a negotiation that succeeds with the relay address. -/
def Accepted (env : Machine) (proxyAddr : Bytes) (auth : Option Socks5Auth) (consumed : Bytes) (relay : UDPAddr) :
    Prop :=
  ∃ replies rsv atyp field bndIP,
    HandshakeReplies auth replies ∧ BndAddr env atyp field bndIP ∧
      consumed = replies ++ ([0x05, 0x00, rsv, atyp] ++ (field ++ uint16Bytes relay.port)) ∧
      relay.port < 65536 ∧
      (isUnspecified bndIP = true → proxyIP env proxyAddr = .ok relay.ip) ∧
      (isUnspecified bndIP = false → relay.ip = bndIP)

section Steps

variable {env : Machine} {proxyAddr s : Bytes} {auth : Option Socks5Auth} {clientUDPAddr : Option UDPAddr}

theorem mayWrite_greeting : MayWrite auth clientUDPAddr [] (greeting auth) :=
  .greeting _ (by cases auth <;> rfl)

theorem toNat_lengthByte {n : ℕ} (h : ¬255 < n) : (UInt8.ofNat n).toNat = n := by
  rw [UInt8.toNat_ofNat', Nat.mod_eq_of_lt (by omega)]

/-- Two bytes that have been read are their first and their second. -/
theorem exists_of_length_two {field : Bytes} (h : field.length = 2) : ∃ a b, field = [a, b] := by
  match field, h with
  | [a, b], _ => exact ⟨a, b, rfl⟩

theorem exists_of_length_four {field : Bytes} (h : field.length = 4) : ∃ a b c d, field = [a, b, c, d] := by
  match field, h with
  | [a, b, c, d], _ => exact ⟨a, b, c, d, rfl⟩

/-- After the proxy has picked their method the credentials go out, and a proxy that takes them leaves the
connection ready for the request. -/
theorem ensures_usernamePasswordAuth {a : Socks5Auth} (hauth : auth = some a)
    (hlog : Obeys (MayWrite auth clientUDPAddr) [.wrote (greeting auth), .got [0x05, 0x02]]) :
    Ensures (socks5UsernamePasswordAuth env a) ⟨s, [.wrote (greeting auth), .got [0x05, 0x02]]⟩
      (fun _ c => (∃ ver, s = [ver, 0x00] ++ c.unread) ∧ Obeys (MayWrite auth clientUDPAddr) c.log ∧
        MayWrite auth clientUDPAddr c.log (associateRequest clientUDPAddr))
      (fun c => Obeys (MayWrite auth clientUDPAddr) c.log) := by
  rw [socks5UsernamePasswordAuth]
  refine ensures_ite (fun _ => ensures_fail hlog) fun huser => ?_
  refine ensures_ite (fun _ => ensures_fail hlog) fun hpassword => ?_
  have hmay : MayWrite auth clientUDPAddr [.wrote (greeting auth), .got [0x05, 0x02]] (credentials a) :=
    .credentials a _ _ hauth (by rw [hauth]; exact List.mem_cons_of_mem _ List.mem_cons_self)
      (toNat_lengthByte huser) (toNat_lengthByte hpassword)
  have hsent := obeys_wrote hlog hmay
  refine ensures_bind (ensures_wrap (ensures_write ?_ hsent))
  refine ensures_bind (ensures_wrap (ensures_readFull ?_ (obeys_got hsent _)))
  intro field rest (hs : s = field ++ rest) hfield
  obtain ⟨ver, status, rfl⟩ := exists_of_length_two hfield
  have hgot := obeys_got hsent [ver, status]
  refine ensures_ite (fun _ => ensures_fail hgot) fun hstatus => ensures_pure ?_
  obtain rfl : status = 0x00 := not_not.mp hstatus
  exact ⟨⟨ver, hs⟩, hgot, .requestWithAuth a ver hauth⟩

/-- What a handshake takes off the stream, and what may be written behind it. -/
theorem ensures_handshake :
    Ensures (socks5Handshake env auth) ⟨s, []⟩
      (fun _ c => (∃ replies, HandshakeReplies auth replies ∧ s = replies ++ c.unread) ∧
        Obeys (MayWrite auth clientUDPAddr) c.log ∧
        MayWrite auth clientUDPAddr c.log (associateRequest clientUDPAddr))
      (fun c => Obeys (MayWrite auth clientUDPAddr) c.log) := by
  unfold socks5Handshake
  have hsent : Obeys (MayWrite auth clientUDPAddr) ([] ++ [.wrote (greeting auth)]) :=
    obeys_wrote obeys_nil mayWrite_greeting
  refine ensures_bind (ensures_wrap (ensures_write ?_ hsent))
  -- the reply is two bytes: the version, then the method the proxy chose
  refine ensures_bind (ensures_wrap (ensures_readFull ?_ (obeys_got hsent _)))
  intro field rest (hs : s = field ++ rest) hfield
  obtain ⟨ver, method, rfl⟩ := exists_of_length_two hfield
  have hgot := obeys_got hsent [ver, method]
  refine ensures_ite (fun _ => ensures_fail hgot) fun hver => ?_
  obtain rfl : ver = 0x05 := not_not.mp hver
  refine ensures_ite ?_ fun _ => ensures_ite ?_ fun _ => ?_
  · intro hmethod
    obtain rfl : method = 0x00 := hmethod
    exact ensures_pure ⟨⟨_, .noAuth, hs⟩, hgot, .request⟩
  · intro hmethod
    obtain rfl : method = 0x02 := hmethod
    cases hauth : auth with
    | none =>
      -- a proxy that asks for a password is refused where there is none
      rw [hauth] at hgot
      exact ensures_fail hgot
    | some a =>
      rw [hauth] at hgot
      refine ensures_mono (ensures_usernamePasswordAuth rfl hgot) ?_
      rintro _ c ⟨⟨ver, hrest⟩, hready⟩
      refine ⟨⟨_, .password a ver rfl, ?_⟩, hready⟩
      rw [hs, hrest, List.append_assoc]
  · exact ensures_ite (fun _ => ensures_fail hgot) fun _ => ensures_fail hgot

/-- The address of the reply takes exactly its bytes. -/
theorem ensures_readBndAddr {c : Conn} {atyp : UInt8} (hlog : Obeys (MayWrite auth clientUDPAddr) c.log) :
    Ensures (readBndAddr env atyp) c
      (fun ip c' => (∃ field, BndAddr env atyp field ip ∧ c.unread = field ++ c'.unread) ∧
        Obeys (MayWrite auth clientUDPAddr) c'.log)
      (fun c' => Obeys (MayWrite auth clientUDPAddr) c'.log) := by
  unfold readBndAddr
  refine ensures_ite ?_ fun _ => ensures_ite ?_ fun _ => ensures_ite ?_ fun _ => ensures_fail hlog
  · rintro rfl
    refine ensures_wrap (ensures_readFull (fun field rest hs hlen => ?_) (obeys_got hlog _))
    exact ⟨⟨field, .v4 field hlen, hs⟩, obeys_got hlog field⟩
  · rintro rfl
    refine ensures_wrap (ensures_readFull (fun field rest hs hlen => ?_) (obeys_got hlog _))
    exact ⟨⟨field, .v6 field hlen, hs⟩, obeys_got hlog field⟩
  · rintro rfl
    refine ensures_bind (ensures_wrap (ensures_readFull (fun lenBuf rest hs hlen => ?_) (obeys_got hlog _)))
    obtain ⟨len, rfl⟩ := List.length_eq_one_iff.mp hlen
    have hgot := obeys_got hlog [len]
    refine ensures_bind (ensures_wrap (ensures_readFull (fun name rest' hname hnameLen => ?_) (obeys_got hgot _)))
    have hgot' := obeys_got hgot name
    refine ensures_wrap (ensures_lift (fun ip hip => ?_) hgot')
    refine ⟨⟨len :: name, .domain len name ip hnameLen.symm hip, ?_⟩, hgot'⟩
    rw [hs, show rest = name ++ rest' from hname]
    rfl

/-- What the association takes off the stream, and what it writes. -/
theorem ensures_associate :
    Ensures (associate env proxyAddr auth clientUDPAddr) ⟨s, []⟩
      (fun relay c => (∃ consumed, s = consumed ++ c.unread ∧ Accepted env proxyAddr auth consumed relay) ∧
        Obeys (MayWrite auth clientUDPAddr) c.log)
      (fun c => Obeys (MayWrite auth clientUDPAddr) c.log) := by
  unfold associate
  refine ensures_bind (ensures_wrap (ensures_lift (fun _ _ => ?_) obeys_nil))
  refine ensures_bind (ensures_mono ensures_handshake ?_)
  rintro _ c ⟨⟨replies, hreplies, hs⟩, hlog, hready⟩
  have hsent := obeys_wrote hlog hready
  refine ensures_bind (ensures_wrap (ensures_write ?_ hsent))
  refine ensures_bind (ensures_wrap (ensures_readFull ?_ (obeys_got hsent _)))
  intro field rest (hheader : c.unread = field ++ rest) hfield
  obtain ⟨ver, rep, rsv, atyp, rfl⟩ := exists_of_length_four hfield
  have hgot := obeys_got hsent [ver, rep, rsv, atyp]
  refine ensures_ite (fun _ => ensures_fail hgot) fun hver => ?_
  refine ensures_ite (fun _ => ensures_fail hgot) fun hrep => ?_
  obtain rfl : ver = 0x05 := not_not.mp hver
  obtain rfl : rep = 0x00 := not_not.mp hrep
  refine ensures_bind (ensures_mono (ensures_readBndAddr hgot) ?_)
  rintro bndIP c' ⟨⟨field, hbnd, haddr⟩, hlog'⟩
  refine ensures_bind (ensures_wrap (ensures_readFull ?_ (obeys_got hlog' _)))
  intro portBuf rest' hport hportLen
  obtain ⟨p₀, p₁, rfl⟩ := exists_of_length_two hportLen
  have hgot' := obeys_got hlog' [p₀, p₁]
  have hconsumed : s = replies ++ ([0x05, 0x00, rsv, atyp] ++ (field ++ [p₀, p₁])) ++ rest' := by
    rw [hs, hheader, show rest = field ++ c'.unread from haddr, hport]
    simp only [List.append_assoc]
  rw [← uint16Bytes_of_combine p₀ p₁] at hconsumed
  -- the proxy's own address stands in for an unspecified one
  refine ensures_ite (p := isUnspecified bndIP = true) (fun hunspecified => ?_) fun hspecified => ?_
  · refine ensures_bind (ensures_wrap (ensures_lift (fun ip hip => ?_) hgot'))
    refine ensures_bind (ensures_wrap (ensures_lift (fun _ _ => ensures_pure ?_) hgot'))
    refine ⟨⟨_, hconsumed, replies, rsv, atyp, field, bndIP, hreplies, hbnd, rfl, combine_lt p₀ p₁, fun _ => hip,
      fun h => ?_⟩, hgot'⟩
    rw [hunspecified] at h
    contradiction
  · refine ensures_bind (ensures_pure ?_)
    refine ensures_bind (ensures_wrap (ensures_lift (fun _ _ => ensures_pure ?_) hgot'))
    exact ⟨⟨_, hconsumed, replies, rsv, atyp, field, bndIP, hreplies, hbnd, rfl, combine_lt p₀ p₁,
      fun h => absurd h hspecified, fun _ => rfl⟩, hgot'⟩

variable (env proxyAddr s auth clientUDPAddr) in
/-- The same with the dial, and with the close after a failure. -/
theorem ensures_socks5UDPAssociate :
    Ensures (socks5UDPAssociate env proxyAddr auth clientUDPAddr) ⟨s, []⟩
      (fun relay c => (∃ consumed, s = consumed ++ c.unread ∧ Accepted env proxyAddr auth consumed relay) ∧
        Obeys (MayWrite auth clientUDPAddr) c.log)
      (fun c => Obeys (MayWrite auth clientUDPAddr) c.log) := by
  unfold socks5UDPAssociate
  refine ensures_bind (ensures_wrap (ensures_lift (fun _ _ => ensures_closing ?_) obeys_nil))
  exact ensures_imp ensures_associate (fun _ _ h => h) fun _ h => obeys_closed h

/-- Whatever the proxy sends, nothing is written that the replies before it do not call for, and a negotiation
that returns has consumed exactly the replies that encode the relay address. -/
theorem socks5UDPAssociate_exact (env : Machine) (proxyAddr : Bytes) (auth : Option Socks5Auth)
    (clientUDPAddr : Option UDPAddr) (stream : Bytes) :
    Obeys (MayWrite auth clientUDPAddr)
        (socks5UDPAssociate env proxyAddr auth clientUDPAddr ⟨stream, []⟩).2.log ∧
      ∀ relay, (socks5UDPAssociate env proxyAddr auth clientUDPAddr ⟨stream, []⟩).1 = .ok relay →
        ∃ consumed,
          stream = consumed ++ (socks5UDPAssociate env proxyAddr auth clientUDPAddr ⟨stream, []⟩).2.unread ∧
            Accepted env proxyAddr auth consumed relay := by
  obtain ⟨hok, herr⟩ := ensures_iff.mp (ensures_socks5UDPAssociate env proxyAddr stream auth clientUDPAddr)
  refine ⟨?_, fun relay hrelay => (hok relay hrelay).1⟩
  cases hr : (socks5UDPAssociate env proxyAddr auth clientUDPAddr ⟨stream, []⟩).1 with
  | ok relay => exact (hok relay hr).2
  | error err => exact herr err hr

end Steps

/-- A machine without faults, for a proxy at a numeric address. -/
def exampleMachine : Machine where
  writeError _ _ := none
  readError _ _ := "EOF"
  dial _ := .ok ()
  setDeadline := .ok ()
  clearDeadline := .ok ()
  parseIP _ := some [10, 0, 0, 1]
  resolveIPAddr _ := .error "no such host"
  quote name := "\"" ++ String.ofList (name.map fun b => Char.ofNat b.toNat) ++ "\""

/-- A proxy that takes the credentials `u` and `p` and relays at its own address. -/
example :
    (socks5UDPAssociate exampleMachine [] (some ⟨[117], [112]⟩) none
      ⟨[5, 2, 1, 0, 5, 0, 0, 1, 0, 0, 0, 0, 4, 56, 99], []⟩).1.toOption = some ⟨[10, 0, 0, 1], 1080⟩ := by
  decide

end TlsClient.Engine.Socks5Negotiation
