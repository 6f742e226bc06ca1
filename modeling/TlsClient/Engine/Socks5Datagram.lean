import TlsClient.Library.IpBytes

/-!
# Datagrams through a SOCKS5 relay

Embeds `socks5PacketConn.WriteTo` and `ReadFrom` of `src/socks5_udp.go` with `encodeSocks5UDPHeader` and
`decodeSocks5UDPHeader`. Both methods work in a scratch buffer from a pool that hands out any buffer used
before, so their results are shown for every content of it. The local socket is the list of what arrives at
it; `ReadFrom` that finds it used up is still waiting.

`header` is what the encoder writes in front of the payload, and the decoder accepts exactly such headers, up
to the two reserved bytes (`decodeSocks5UDPHeader_eq_ok_iff`). `wanted` says what an arrival is to the caller
of `ReadFrom`: a payload with its address, an error of the socket, or nothing.
-/

namespace TlsClient.Engine.Socks5Datagram

open WireBytes IpBytes

def maxSocks5UDPPacketSize : ℕ := 65535

def maxSocks5UDPHeaderSize : ℕ := 22

/-- `net.UDPAddr`, as far as a header carries it. -/
structure UDPAddr where
  ip : Ip
  port : ℕ
  deriving DecidableEq, Repr

/-- An address that a header has room for. -/
def UDPAddr.Valid (addr : UDPAddr) : Prop := (addr.ip.length = 4 ∨ addr.ip.length = 16) ∧ addr.port < 65536

instance (addr : UDPAddr) : Decidable addr.Valid := inferInstanceAs (Decidable (_ ∧ _))

/-- `%02x` -/
def hex02 (b : UInt8) : String :=
  String.ofList [Nat.digitChar (b.toNat / 16), Nat.digitChar (b.toNat % 16)]

/-! ## The header -/

/-- The `if` of `encodeSocks5UDPHeader`: the buffer with the address type and the address, and the offset
behind them. -/
def encodeAddress (dst : Bytes) (ip : Ip) : Checked (Bytes × ℕ) :=
  let offset := 4
  match to4 ip with
  | some ip4 => do
    let dst ← setByte dst 3 0x01
    let (dst, n) ← copyAt dst offset ip4
    return (dst, offset + n)
  | none => do
    let dst ← setByte dst 3 0x04
    let (dst, n) ← copyAt dst offset ((to16 ip).getD [])
    return (dst, offset + n)

def encodeSocks5UDPHeader (dst : Bytes) (addr : UDPAddr) : Checked (Bytes × ℕ) := do
  let dst ← setByte dst 0 0x00
  let dst ← setByte dst 1 0x00
  let dst ← setByte dst 2 0x00
  let (dst, offset) ← encodeAddress dst addr.ip
  let dst ← putUint16At dst offset addr.port
  return (dst, offset + 2)

/-- The `switch` of `decodeSocks5UDPHeader` over the address type: the address and the offset behind it. -/
def decodeAddress (data : Bytes) (atyp : UInt8) : Checked (Except String (Ip × ℕ)) :=
  let offset := 4
  if atyp = 0x01 then
    if data.length < offset + 4 + 2 then
      return .error "socks5 udp header too short for IPv4"
    else do
      let ip ← slice data offset (offset + 4)
      return .ok (ip, offset + 4)
  else if atyp = 0x04 then
    if data.length < offset + 16 + 2 then
      return .error "socks5 udp header too short for IPv6"
    else do
      let ip ← slice data offset (offset + 16)
      return .ok (ip, offset + 16)
  else if atyp = 0x03 then
    return .error "socks5 udp header: unsupported ATYP 0x03 (domain name) in a relayed datagram"
  else
    return .error ("unsupported ATYP 0x" ++ hex02 atyp)

/-- The end of `decodeSocks5UDPHeader`: the port behind the address. -/
def decodePort (data : Bytes) (ip : Ip) (offset : ℕ) : Checked (Except String (UDPAddr × ℕ)) :=
  if data.length < offset + 2 then
    return .error "socks5 udp header too short for port"
  else do
    let portBytes ← slice data offset (offset + 2)
    let port ← uint16At portBytes 0
    return .ok (⟨ip, port⟩, offset + 2)

def decodeSocks5UDPHeader (data : Bytes) : Checked (Except String (UDPAddr × ℕ)) :=
  if data.length < 4 then
    return .error ("socks5 udp header too short: " ++ toString data.length ++ " bytes")
  else do
    let frag ← byteAt data 2
    if frag ≠ 0x00 then
      return .error
        ("socks5 udp header: fragmented datagrams are not supported (FRAG=0x" ++ hex02 frag ++ ")")
    else
      let atyp ← byteAt data 3
      match ← decodeAddress data atyp with
      | .error err => return .error err
      | .ok (ip, offset) => decodePort data ip offset

/-- The address type and the address, in the shorter form. -/
def addressWire (ip : Ip) : Bytes :=
  match to4 ip with
  | some ip4 => 0x01 :: ip4
  | none => 0x04 :: ip

/-- The header for a destination on the wire. -/
def header (addr : UDPAddr) : Bytes :=
  [0x00, 0x00, 0x00] ++ (addressWire addr.ip ++ uint16Bytes addr.port)

/-- An address is written in 5 or 17 bytes. -/
theorem length_addressWire {ip : Ip} (hlen : ip.length = 4 ∨ ip.length = 16) :
    (addressWire ip).length = 5 ∨ (addressWire ip).length = 17 := by
  rw [addressWire]
  cases h : to4 ip with
  | some ip4 => exact .inl (congrArg (· + 1) (length_of_to4 h))
  | none => exact .inr (congrArg (· + 1) (length_of_to4_none hlen h))

/-- The header fits into its buffer. -/
theorem length_header_le {addr : UDPAddr} (haddr : addr.Valid) :
    (header addr).length ≤ maxSocks5UDPHeaderSize := by
  have hip := length_addressWire haddr.1
  simp only [header, List.length_append, List.length_cons, List.length_nil, length_uint16Bytes,
    maxSocks5UDPHeaderSize]
  omega

/-- A type and an address go behind the first three bytes of the buffer. -/
theorem setByte_copyAt {r₀ r₁ r₂ c₃ atyp : UInt8} {a tail : Bytes} (hfit : a.length ≤ tail.length) :
    (do let dst ← setByte (r₀ :: r₁ :: r₂ :: c₃ :: tail) 3 atyp
        let (dst, n) ← copyAt dst 4 a
        return (dst, 4 + n) : Checked (Bytes × ℕ)) =
      .ok ([r₀, r₁, r₂] ++ (atyp :: a ++ tail.drop a.length), 3 + (atyp :: a).length) := by
  have hset : setByte (r₀ :: r₁ :: r₂ :: c₃ :: tail) 3 atyp = .ok ([r₀, r₁, r₂, atyp] ++ tail) :=
    setByte_append [r₀, r₁, r₂] rfl
  have hcopy : copyAt ([r₀, r₁, r₂, atyp] ++ tail) 4 a = _ :=
    copyAt_append [r₀, r₁, r₂, atyp] rfl hfit
  simp only [hset, hcopy, bind, Except.bind, List.length_cons]
  rw [show 3 + (a.length + 1) = 4 + a.length by omega]
  rfl

/-- The address is written into the buffer. -/
theorem encodeAddress_eq {r₀ r₁ r₂ : UInt8} {ip : Ip} (c₃ : UInt8) (tail : Bytes)
    (hlen : ip.length = 4 ∨ ip.length = 16) (hroom : 16 ≤ tail.length) :
    encodeAddress (r₀ :: r₁ :: r₂ :: c₃ :: tail) ip =
      .ok ([r₀, r₁, r₂] ++ (addressWire ip ++ tail.drop ((addressWire ip).length - 1)),
        3 + (addressWire ip).length) := by
  rw [encodeAddress, addressWire]
  cases h : to4 ip with
  | some ip4 =>
    have h4 := length_of_to4 h
    exact setByte_copyAt (by omega)
  | none =>
    have h16 := length_of_to4_none hlen h
    rw [to16_of_to4_none hlen h]
    exact setByte_copyAt (by rw [Option.getD_some]; omega)

/-- `n` bytes and two more split off a slice that is long enough. -/
theorem exists_split {rest : Bytes} (n : ℕ) (h : n + 2 ≤ rest.length) :
    ∃ front p₀ p₁ back, front.length = n ∧ rest = front ++ (p₀ :: p₁ :: back) := by
  match hback : rest.drop n with
  | p₀ :: p₁ :: back =>
    refine ⟨rest.take n, p₀, p₁, back, List.length_take_of_le (by omega), ?_⟩
    rw [← hback, List.take_append_drop]
  | [] | [_] =>
    have hlen := congrArg List.length hback
    simp only [List.length_drop, List.length_cons, List.length_nil] at hlen
    omega

/-- The encoder writes the header at the front of the buffer and leaves the rest of it. -/
theorem encodeSocks5UDPHeader_eq {dst : Bytes} {addr : UDPAddr} (haddr : addr.Valid)
    (hroom : maxSocks5UDPHeaderSize ≤ dst.length) :
    encodeSocks5UDPHeader dst addr =
      .ok (header addr ++ dst.drop (header addr).length, (header addr).length) := by
  rw [maxSocks5UDPHeaderSize] at hroom
  match dst with
  | c₀ :: c₁ :: c₂ :: c₃ :: tail =>
    simp only [List.length_cons] at hroom
    have hwire := length_addressWire haddr.1
    have hlen : (header addr).length = (addressWire addr.ip).length - 1 + 6 := by
      simp only [header, List.length_append, List.length_cons, List.length_nil, length_uint16Bytes]
      omega
    have h₀ : setByte (c₀ :: c₁ :: c₂ :: c₃ :: tail) 0 0x00 = .ok (0x00 :: c₁ :: c₂ :: c₃ :: tail) :=
      setByte_append [] rfl
    have h₁ : setByte (0x00 :: c₁ :: c₂ :: c₃ :: tail) 1 0x00 = .ok (0x00 :: 0x00 :: c₂ :: c₃ :: tail) :=
      setByte_append [0x00] rfl
    have h₂ : setByte (0x00 :: 0x00 :: c₂ :: c₃ :: tail) 2 0x00 = .ok (0x00 :: 0x00 :: 0x00 :: c₃ :: tail) :=
      setByte_append [0x00, 0x00] rfl
    simp only [encodeSocks5UDPHeader, h₀, h₁, h₂, bind, Except.bind,
      encodeAddress_eq c₃ tail haddr.1 (by omega)]
    -- the two bytes that the port replaces
    obtain ⟨front, p₀, p₁, rest, hfront, htail⟩ :=
      exists_split ((addressWire addr.ip).length - 1) (show _ ≤ tail.length by omega)
    have hrest : tail.drop ((addressWire addr.ip).length - 1) = p₀ :: p₁ :: rest := by
      rw [htail, List.drop_left' hfront]
    have hport : putUint16At ([0x00, 0x00, 0x00] ++ (addressWire addr.ip ++ p₀ :: p₁ :: rest))
        (3 + (addressWire addr.ip).length) addr.port = .ok (header addr ++ rest) := by
      rw [← List.append_assoc, putUint16At_append _ (by rw [List.length_append]; rfl), header]
      simp only [List.append_assoc]
    have hdrop : (c₀ :: c₁ :: c₂ :: c₃ :: tail).drop (header addr).length = rest := by
      rw [hlen]
      show tail.drop ((addressWire addr.ip).length - 1 + 2) = rest
      rw [← List.drop_drop, hrest]
      rfl
    rw [hrest, hport, hdrop, hlen]
    simp only [pure, Except.pure]
    congr 2
    omega
  | [] | [_] | [_, _] | [_, _, _] =>
    simp only [List.length_cons, List.length_nil] at hroom
    omega

/-! ## The decoder -/

/-- An address type and an address of its length. -/
def AddressField (atyp : UInt8) (ip : Ip) : Prop :=
  (atyp = 0x01 ∧ ip.length = 4) ∨ (atyp = 0x04 ∧ ip.length = 16)

section Decode

variable {data payload rest : Bytes} {ip : Ip} {port : ℕ} {r₀ r₁ r₂ atyp : UInt8}

/-- The address is read back. -/
theorem decodeAddress_of_field (hfield : AddressField atyp ip) (hrest : 2 ≤ rest.length) :
    decodeAddress (r₀ :: r₁ :: r₂ :: atyp :: (ip ++ rest)) atyp = .ok (.ok (ip, 4 + ip.length)) := by
  have hdrop : (r₀ :: r₁ :: r₂ :: atyp :: (ip ++ rest)).drop 4 = ip ++ rest := rfl
  have hslice := slice_of_drop hdrop (by simp)
  have hlen : (r₀ :: r₁ :: r₂ :: atyp :: (ip ++ rest)).length = 4 + ip.length + rest.length := by
    simp only [List.length_cons, List.length_append]
    omega
  rw [decodeAddress]
  rcases hfield with ⟨rfl, hip⟩ | ⟨rfl, hip⟩
  · rw [hip] at hslice
    rw [if_pos rfl, if_neg (by omega), hslice, hip]
    rfl
  · rw [hip] at hslice
    rw [if_neg (by decide), if_pos rfl, if_neg (by omega), hslice, hip]
    rfl

/-- The address is refused, or it stands in the data with two bytes behind it. -/
theorem decodeAddress_cases (r₀ r₁ r₂ atyp : UInt8) (rest : Bytes) :
    (∃ ip p₀ p₁ back, AddressField atyp ip ∧ rest = ip ++ (p₀ :: p₁ :: back)) ∨
      ∃ err, decodeAddress (r₀ :: r₁ :: r₂ :: atyp :: rest) atyp = .ok (.error err) := by
  rw [decodeAddress]
  have hlen : (r₀ :: r₁ :: r₂ :: atyp :: rest).length = rest.length + 4 := rfl
  by_cases h4 : atyp = 0x01
  · rw [if_pos h4]
    by_cases hshort : (r₀ :: r₁ :: r₂ :: atyp :: rest).length < 4 + 4 + 2
    · exact .inr ⟨_, if_pos hshort⟩
    · obtain ⟨ip, p₀, p₁, back, hip, hrest⟩ := exists_split 4 (show 4 + 2 ≤ rest.length by omega)
      exact .inl ⟨ip, p₀, p₁, back, .inl ⟨h4, hip⟩, hrest⟩
  · rw [if_neg h4]
    by_cases h16 : atyp = 0x04
    · rw [if_pos h16]
      by_cases hshort : (r₀ :: r₁ :: r₂ :: atyp :: rest).length < 4 + 16 + 2
      · exact .inr ⟨_, if_pos hshort⟩
      · obtain ⟨ip, p₀, p₁, back, hip, hrest⟩ := exists_split 16 (show 16 + 2 ≤ rest.length by omega)
        exact .inl ⟨ip, p₀, p₁, back, .inr ⟨h16, hip⟩, hrest⟩
    · rw [if_neg h16]
      by_cases hname : atyp = 0x03
      · exact .inr ⟨_, if_pos hname⟩
      · exact .inr ⟨_, if_neg hname⟩

/-- The port is read back. -/
theorem decodePort_of_drop {offset : ℕ} (hdrop : data.drop offset = uint16Bytes port ++ payload)
    (hport : port < 65536) : decodePort data ip offset = .ok (.ok (⟨ip, port⟩, offset + 2)) := by
  have hlen := length_of_drop hdrop (List.cons_ne_nil _ _)
  rw [List.length_append, length_uint16Bytes] at hlen
  have hslice : slice data offset (offset + 2) = .ok (uint16Bytes port) := slice_of_drop hdrop (by omega)
  have hread : uint16At (uint16Bytes port) 0 = .ok port := uint16At_uint16Bytes hport
  rw [decodePort, if_neg (by omega), hslice]
  simp only [bind, Except.bind, hread]
  rfl

/-- What the decoder does from the address on, for a datagram that is not a fragment. -/
theorem decodeSocks5UDPHeader_cons (r₀ r₁ atyp : UInt8) (rest : Bytes) :
    decodeSocks5UDPHeader (r₀ :: r₁ :: 0x00 :: atyp :: rest) =
      (do match ← decodeAddress (r₀ :: r₁ :: 0x00 :: atyp :: rest) atyp with
          | .error err => return .error err
          | .ok (ip, offset) => decodePort (r₀ :: r₁ :: 0x00 :: atyp :: rest) ip offset) := by
  rw [decodeSocks5UDPHeader, if_neg (by simp only [List.length_cons]; omega)]
  rfl

/-- A header of a datagram that is not a fragment is decoded to the address in it and the offset behind it. -/
theorem decodeSocks5UDPHeader_of_field (hfield : AddressField atyp ip) (hport : port < 65536) :
    decodeSocks5UDPHeader (r₀ :: r₁ :: 0x00 :: atyp :: (ip ++ (uint16Bytes port ++ payload))) =
      .ok (.ok (⟨ip, port⟩, 4 + ip.length + 2)) := by
  have hdrop : (r₀ :: r₁ :: 0x00 :: atyp :: (ip ++ (uint16Bytes port ++ payload))).drop 4 =
      ip ++ (uint16Bytes port ++ payload) := rfl
  rw [decodeSocks5UDPHeader_cons, decodeAddress_of_field hfield (by simp)]
  exact decodePort_of_drop (drop_of_drop hdrop) hport

/-- The decoder ends without a panic: with an error, or with the address and the offset of such a header. -/
theorem decodeSocks5UDPHeader_cases (data : Bytes) :
    (∃ err, decodeSocks5UDPHeader data = .ok (.error err)) ∨
      ∃ r₀ r₁ atyp ip port payload, AddressField atyp ip ∧ port < 65536 ∧
        data = r₀ :: r₁ :: 0x00 :: atyp :: (ip ++ (uint16Bytes port ++ payload)) := by
  match data with
  | r₀ :: r₁ :: frag :: atyp :: rest =>
    by_cases hfrag : frag = 0x00
    · subst hfrag
      rcases decodeAddress_cases r₀ r₁ 0x00 atyp rest with ⟨ip, p₀, p₁, back, hfield, hrest⟩ | ⟨err, herr⟩
      · refine .inr ⟨r₀, r₁, atyp, ip, p₀.toNat <<< 8 ||| p₁.toNat, back, hfield, combine_lt p₀ p₁, ?_⟩
        rw [hrest, uint16Bytes_of_combine]
        rfl
      · rw [decodeSocks5UDPHeader_cons, herr]
        exact .inl ⟨err, rfl⟩
    · rw [decodeSocks5UDPHeader, if_neg (by simp only [List.length_cons]; omega)]
      exact .inl ⟨_, if_pos hfrag⟩
  | [] | [_] | [_, _] | [_, _, _] =>
    rw [decodeSocks5UDPHeader, if_pos (by simp)]
    exact .inl ⟨_, rfl⟩

/-- The decoder accepts exactly the datagrams that begin with such a header. -/
theorem decodeSocks5UDPHeader_eq_ok_iff {addr : UDPAddr} {offset : ℕ} :
    decodeSocks5UDPHeader data = .ok (.ok (addr, offset)) ↔
      ∃ r₀ r₁ atyp payload, AddressField atyp addr.ip ∧ addr.port < 65536 ∧
        data = r₀ :: r₁ :: 0x00 :: atyp :: (addr.ip ++ (uint16Bytes addr.port ++ payload)) ∧
        offset = 4 + addr.ip.length + 2 := by
  constructor
  · intro h
    rcases decodeSocks5UDPHeader_cases data with ⟨err, herr⟩ | ⟨r₀, r₁, atyp, ip, port, payload, hfield, hport, rfl⟩
    · rw [herr] at h
      cases h
    · rw [decodeSocks5UDPHeader_of_field hfield hport] at h
      cases h
      exact ⟨r₀, r₁, atyp, payload, hfield, hport, rfl, rfl⟩
  · rintro ⟨r₀, r₁, atyp, payload, hfield, hport, rfl, rfl⟩
    exact decodeSocks5UDPHeader_of_field hfield hport

/-- The decoder never reads behind the end, and an offset that it returns is not behind it. -/
theorem decodeSocks5UDPHeader_ok (data : Bytes) :
    ∃ r, decodeSocks5UDPHeader data = .ok r ∧ ∀ addr offset, r = .ok (addr, offset) → offset ≤ data.length := by
  rcases decodeSocks5UDPHeader_cases data with ⟨err, herr⟩ | ⟨r₀, r₁, atyp, ip, port, payload, hfield, hport, rfl⟩
  · exact ⟨_, herr, fun _ _ h => by cases h⟩
  · refine ⟨_, decodeSocks5UDPHeader_of_field hfield hport, fun addr offset h => ?_⟩
    cases h
    simp only [List.length_cons, List.length_append, length_uint16Bytes]
    omega

end Decode

/-! ## Sending -/

/-- `net.Addr`: a UDP address, or one of a type named here. -/
inductive Addr
  | udp (addr : UDPAddr)
  | other (type : String)

/-- A buffer of `socks5BufferPool`, with what its last user has left in it. -/
structure Scratch where
  bytes : Bytes
  length_bytes : bytes.length = maxSocks5UDPPacketSize

/-- What a call has handed to `WriteToUDP`, the buffer that goes back to the pool, and what it returns. -/
structure Written where
  sent : Option (Bytes × UDPAddr)
  buf : Bytes
  result : Except String ℕ

def writeTo (writeToUDP : Bytes → UDPAddr → Except String Unit) (relayAddr : UDPAddr) (buf p : Bytes) :
    Addr → Checked Written
  | .other type => return ⟨none, buf, .error ("socks5PacketConn: expected *net.UDPAddr, got " ++ type)⟩
  | .udp udpAddr =>
    if maxSocks5UDPPacketSize - maxSocks5UDPHeaderSize < p.length then
      return ⟨none, buf, .error
        ("socks5PacketConn: payload of " ++ toString p.length ++ " bytes is too large to encapsulate")⟩
    else do
      let (buf, headerLen) ← encodeSocks5UDPHeader buf udpAddr
      let (buf, payloadLen) ← copyAt buf headerLen p
      let datagram ← slice buf 0 (headerLen + payloadLen)
      return ⟨some (datagram, relayAddr), buf, (writeToUDP datagram relayAddr).map fun _ => payloadLen⟩

/-- A destination with a four or sixteen byte address and a port of sixteen bits. -/
structure Destination extends UDPAddr where
  valid : toUDPAddr.Valid

section Send

variable {writeToUDP : Bytes → UDPAddr → Except String Unit} {relayAddr addr : UDPAddr} {buf p : Bytes}

variable (writeToUDP relayAddr) in
/-- A payload that is accepted goes out behind the header. -/
theorem writeTo_of_accepted (haddr : addr.Valid) (hbuf : buf.length = maxSocks5UDPPacketSize)
    (hp : p.length ≤ maxSocks5UDPPacketSize - maxSocks5UDPHeaderSize) :
    ∃ buf', buf'.length = maxSocks5UDPPacketSize ∧
      writeTo writeToUDP relayAddr buf p (.udp addr) =
        .ok ⟨some (header addr ++ p, relayAddr), buf',
          (writeToUDP (header addr ++ p) relayAddr).map fun _ => p.length⟩ := by
  have hheader := length_header_le haddr
  have hroom : maxSocks5UDPHeaderSize ≤ buf.length := by
    rw [hbuf]
    decide
  obtain ⟨tail, hencode, htail⟩ : ∃ tail,
      encodeSocks5UDPHeader buf addr = .ok (header addr ++ tail, (header addr).length) ∧
        (header addr).length + tail.length = maxSocks5UDPPacketSize := by
    refine ⟨_, encodeSocks5UDPHeader_eq haddr hroom, ?_⟩
    rw [List.length_drop]
    omega
  -- the header takes at most what is held back for it, so the payload fits behind it
  rw [maxSocks5UDPHeaderSize] at hheader hp
  have hfit : p.length ≤ tail.length := by omega
  have hcopy := copyAt_append (header addr) rfl hfit
  have hslice := slice_append (header addr ++ p) (tail.drop p.length)
  rw [List.append_assoc, List.length_append] at hslice
  refine ⟨header addr ++ (p ++ tail.drop p.length), ?_, ?_⟩
  · simp only [List.length_append, List.length_drop]
    omega
  · rw [writeTo, if_neg (by rw [maxSocks5UDPHeaderSize]; omega)]
    simp only [hencode, hcopy, hslice, bind, Except.bind]
    rfl

/-- What is written is the type of the address and its bytes. -/
theorem addressWire_eq {ip : Ip} (hlen : ip.length = 4 ∨ ip.length = 16) :
    ∃ atyp, AddressField atyp (canonical ip) ∧ addressWire ip = atyp :: canonical ip := by
  rw [addressWire]
  cases h : to4 ip with
  | some ip4 =>
    rw [canonical_of_to4 h]
    exact ⟨0x01, .inl ⟨rfl, length_of_to4 h⟩, rfl⟩
  | none =>
    rw [canonical_of_to4_none h]
    exact ⟨0x04, .inr ⟨rfl, length_of_to4_none hlen h⟩, rfl⟩

/-- The decoder gives the destination back from the datagram, in the shorter form, with the payload behind the
offset. -/
theorem decodeSocks5UDPHeader_header (haddr : addr.Valid) :
    decodeSocks5UDPHeader (header addr ++ p) =
      .ok (.ok (⟨canonical addr.ip, addr.port⟩, (header addr).length)) := by
  obtain ⟨atyp, hfield, hwire⟩ := addressWire_eq haddr.1
  rw [header, hwire, List.append_assoc, List.append_assoc]
  refine (decodeSocks5UDPHeader_of_field hfield haddr.2).trans ?_
  simp only [List.length_append, List.length_cons, List.length_nil, length_uint16Bytes]
  congr 3
  omega

end Send

/-- Every payload that is not too large is sent in a datagram that fits the buffer and is decoded to the
destination and the payload, and the decoder ends on every byte string with an error or an offset within it. -/
theorem writeTo_decode :
    (∀ (writeToUDP : Bytes → UDPAddr → Except String Unit) (relayAddr : UDPAddr) (buf : Scratch) (p : Bytes)
        (addr : Destination),
      ∃ written, writeTo writeToUDP relayAddr buf.bytes p (.udp addr.toUDPAddr) = .ok written ∧
        written.buf.length = maxSocks5UDPPacketSize ∧
        (written.sent = none ↔ maxSocks5UDPPacketSize - maxSocks5UDPHeaderSize < p.length) ∧
        ∀ datagram target, written.sent = some (datagram, target) →
          target = relayAddr ∧ datagram.length ≤ maxSocks5UDPPacketSize ∧
          written.result = (writeToUDP datagram relayAddr).map (fun _ => p.length) ∧
          ∃ source offset, decodeSocks5UDPHeader datagram = .ok (.ok (source, offset)) ∧
            equal source.ip addr.ip = true ∧ source.port = addr.port ∧ datagram.drop offset = p) ∧
      ∀ data, ∃ r, decodeSocks5UDPHeader data = .ok r ∧
        ∀ addr offset, r = .ok (addr, offset) → offset ≤ data.length := by
  refine ⟨fun writeToUDP relayAddr buf p addr => ?_, decodeSocks5UDPHeader_ok⟩
  by_cases hp : maxSocks5UDPPacketSize - maxSocks5UDPHeaderSize < p.length
  · refine ⟨_, if_pos hp, buf.length_bytes, iff_of_true rfl hp, fun datagram target hsent => ?_⟩
    cases hsent
  · obtain ⟨buf', hbuf', hwrite⟩ := writeTo_of_accepted writeToUDP relayAddr
      addr.valid buf.length_bytes (Nat.le_of_not_lt hp)
    refine ⟨_, hwrite, hbuf', iff_of_false (by simp) hp, fun datagram target hsent => ?_⟩
    -- an accepted payload: the datagram is the header and the payload, and decodes to both
    cases hsent
    have hheader := length_header_le addr.valid
    refine ⟨rfl, ?_, rfl, _, _, decodeSocks5UDPHeader_header addr.valid, equal_canonical addr.ip, rfl,
      List.drop_left⟩
    rw [List.length_append]
    rw [maxSocks5UDPHeaderSize] at hheader hp
    rw [maxSocks5UDPPacketSize] at hp ⊢
    omega

/-! ## Receiving -/

/-- A datagram, with the address it comes from. Its length field has sixteen bits and counts a header of eight
bytes. -/
structure Datagram where
  src : UDPAddr
  data : Bytes
  length_le : data.length ≤ 65527

/-- What the local socket reports next. -/
inductive Arrival
  | datagram (d : Datagram)
  | error (err : String)

/-- `ReadFromUDP`: the length and the source, and the buffer with the datagram at its front. -/
def readFromUDP (buf : Bytes) : Arrival → Except String (ℕ × Option UDPAddr × Bytes)
  | .error err => .error err
  | .datagram d => .ok (min buf.length d.data.length, some d.src, copyInto buf d.data)

/-- `srcAddr != nil && !srcAddr.IP.Equal(c.relayAddr.IP)` -/
def foreign (relayAddr : UDPAddr) : Option UDPAddr → Bool
  | some srcAddr => !equal srcAddr.ip relayAddr.ip
  | none => false

/-- What a call returns, with the caller's slice and the buffer after it, and what is left at the socket. -/
structure Received where
  result : Except String (ℕ × UDPAddr)
  p : Bytes
  buf : Bytes
  left : List Arrival

/-- `ReadFrom`. It is still waiting (`none`) when nothing is left at the socket. -/
def readFrom (relayAddr : UDPAddr) (p : Bytes) : Bytes → List Arrival → Checked (Option Received)
  | _, [] => return none
  | buf, a :: arrivals =>
    match readFromUDP buf a with
    | .error err => return some ⟨.error err, p, buf, arrivals⟩
    | .ok (n, srcAddr, buf) =>
      if foreign relayAddr srcAddr then
        readFrom relayAddr p buf arrivals
      else do
        let data ← slice buf 0 n
        match ← decodeSocks5UDPHeader data with
        | .error _ => readFrom relayAddr p buf arrivals
        | .ok (udpAddr, dataOffset) =>
          let payload ← slice buf dataOffset n
          return some ⟨.ok (min p.length payload.length, udpAddr), copyInto p payload, buf, arrivals⟩

/-- Calls one after the other, each with some buffer of the pool and a slice of its own: their results and their
slices, up to the first call that is still waiting. -/
def readCalls (relayAddr : UDPAddr) :
    List (Scratch × Bytes) → List Arrival → Checked (List (Except String (ℕ × UDPAddr) × Bytes))
  | [], _ => return []
  | (buf, p) :: calls, arrivals => do
    match ← readFrom relayAddr p buf.bytes arrivals with
    | none => return []
    | some r =>
      let results ← readCalls relayAddr calls r.left
      return (r.result, r.p) :: results

/-- What an arrival is to the caller: the address and the payload of a datagram from the relay whose header is
decoded, an error of the socket, or nothing. -/
def wanted (relayAddr : UDPAddr) : Arrival → Option (Except String (UDPAddr × Bytes))
  | .error err => some (.error err)
  | .datagram d =>
    if equal d.src.ip relayAddr.ip then
      match decodeSocks5UDPHeader d.data with
      | .ok (.ok (addr, offset)) => some (.ok (addr, d.data.drop offset))
      | _ => none
    else
      none

/-- A call with the slice `p` answers with what arrived: the slice takes as much of the payload as fits. -/
def answer (p : Bytes) : Except String (UDPAddr × Bytes) → Except String (ℕ × UDPAddr) × Bytes
  | .error err => (.error err, p)
  | .ok (addr, payload) => (.ok (min p.length payload.length, addr), copyInto p payload)

section Receive

variable {relayAddr : UDPAddr} {buf p : Bytes} {a : Arrival} {arrivals : List Arrival}
  {w : Except String (UDPAddr × Bytes)}

/-- The buffer holds the datagram, and the datagram is what `buf[:n]` is. -/
theorem slice_datagram (hbuf : buf.length = maxSocks5UDPPacketSize) (d : Datagram) :
    min buf.length d.data.length = d.data.length ∧
      copyInto buf d.data = d.data ++ buf.drop d.data.length ∧
      slice (copyInto buf d.data) 0 d.data.length = .ok d.data := by
  have hfit : d.data.length ≤ buf.length := by
    rw [hbuf, maxSocks5UDPPacketSize]
    exact Nat.le_trans d.length_le (by decide)
  have hcopy := copyInto_of_le hfit
  have hslice := slice_append d.data (buf.drop d.data.length)
  rw [← hcopy] at hslice
  exact ⟨Nat.min_eq_right hfit, hcopy, hslice⟩

variable (p arrivals) in
/-- An arrival that is nothing to the caller leaves the call waiting, with what is behind it. -/
theorem readFrom_of_unwanted (hbuf : buf.length = maxSocks5UDPPacketSize) (h : wanted relayAddr a = none) :
    ∃ buf', buf'.length = maxSocks5UDPPacketSize ∧
      readFrom relayAddr p buf (a :: arrivals) = readFrom relayAddr p buf' arrivals := by
  cases a with
  | error err => cases h
  | datagram d =>
    obtain ⟨hmin, -, hslice⟩ := slice_datagram hbuf d
    refine ⟨copyInto buf d.data, by rw [length_copyInto, hbuf], ?_⟩
    rw [readFrom, readFromUDP]
    show (if _ then _ else _) = _
    by_cases hsrc : equal d.src.ip relayAddr.ip = true
    · rw [wanted, if_pos hsrc] at h
      obtain ⟨r, hr, -⟩ := decodeSocks5UDPHeader_ok d.data
      rw [if_neg (by rw [foreign, hsrc]; decide), hmin]
      simp only [hslice, hr, bind, Except.bind]
      rw [hr] at h
      cases r with
      | error err => rfl
      | ok r => cases h
    · exact if_pos (by rw [foreign, Bool.eq_false_of_not_eq_true hsrc]; rfl)

variable (p arrivals) in
/-- The first arrival that is something to the caller is what the call answers with. -/
theorem readFrom_of_wanted (hbuf : buf.length = maxSocks5UDPPacketSize) (h : wanted relayAddr a = some w) :
    ∃ buf', buf'.length = maxSocks5UDPPacketSize ∧
      readFrom relayAddr p buf (a :: arrivals) =
        .ok (some ⟨(answer p w).1, (answer p w).2, buf', arrivals⟩) := by
  cases a with
  | error err =>
    cases h
    exact ⟨buf, hbuf, rfl⟩
  | datagram d =>
    obtain ⟨hmin, hcopy, hslice⟩ := slice_datagram hbuf d
    refine ⟨copyInto buf d.data, by rw [length_copyInto, hbuf], ?_⟩
    rw [wanted] at h
    -- a wanted datagram is from the relay and decodes, so `ReadFrom` slices inside the buffer
    split at h
    · rename_i hsrc
      obtain ⟨r, hr, hoffset⟩ := decodeSocks5UDPHeader_ok d.data
      rw [hr] at h
      cases r with
      | error err => cases h
      | ok r =>
        cases h
        have hle := hoffset r.1 r.2 rfl
        have hpayload : slice (copyInto buf d.data) r.2 d.data.length = .ok (d.data.drop r.2) := by
          rw [slice_of_le hle (by rw [hcopy, List.length_append]; omega), hcopy,
            List.drop_append_of_le_length hle, List.take_left' (List.length_drop ..)]
        rw [readFrom, readFromUDP]
        show (if _ then _ else _) = _
        rw [if_neg (by rw [foreign, hsrc]; decide), hmin]
        simp only [hslice, hr, hpayload, bind, Except.bind]
        rfl
    · cases h

variable (p) in
/-- The first arrival for the caller is answered with, whatever has arrived before it. -/
theorem readFrom_first {dropped : List Arrival} (left : List Arrival) (hbuf : buf.length = maxSocks5UDPPacketSize)
    (hdropped : ∀ d ∈ dropped, wanted relayAddr d = none) (h : wanted relayAddr a = some w) :
    ∃ buf', readFrom relayAddr p buf (dropped ++ a :: left) =
      .ok (some ⟨(answer p w).1, (answer p w).2, buf', left⟩) := by
  induction dropped generalizing buf with
  | nil =>
    obtain ⟨buf', -, hread⟩ := readFrom_of_wanted p left hbuf h
    exact ⟨buf', hread⟩
  | cons d dropped ih =>
    obtain ⟨hd, hrest⟩ := List.forall_mem_cons.mp hdropped
    obtain ⟨buf', hbuf', hnext⟩ := readFrom_of_unwanted p (dropped ++ a :: left) hbuf hd
    rw [List.cons_append, hnext]
    exact ih hbuf' hrest

/-- A call is still waiting if nothing that has arrived is for the caller. -/
theorem readFrom_waits (hbuf : buf.length = maxSocks5UDPPacketSize) (h : ∀ d ∈ arrivals, wanted relayAddr d = none) :
    readFrom relayAddr p buf arrivals = .ok none := by
  induction arrivals generalizing buf with
  | nil => rfl
  | cons d arrivals ih =>
    obtain ⟨hd, hrest⟩ := List.forall_mem_cons.mp h
    obtain ⟨buf', hbuf', hnext⟩ := readFrom_of_unwanted p arrivals hbuf hd
    rw [hnext]
    exact ih hbuf' hrest

/-- The calls answer, in order, with the arrivals that are something to the caller. -/
theorem readCalls_eq (calls : List (Scratch × Bytes)) (arrivals : List Arrival) :
    readCalls relayAddr calls arrivals =
      .ok (List.zipWith (fun call w => answer call.2 w) calls (arrivals.filterMap (wanted relayAddr))) := by
  induction calls generalizing arrivals with
  | nil => rfl
  | cons call calls ih =>
    obtain ⟨buf, p⟩ := call
    rw [readCalls]
    cases h : arrivals.filterMap (wanted relayAddr) with
    | nil =>
      rw [readFrom_waits buf.length_bytes (List.filterMap_eq_nil_iff.mp h)]
      rfl
    | cons w ws =>
      obtain ⟨dropped, a, left, rfl, hdropped, hw, rfl⟩ := List.filterMap_eq_cons_iff.mp h
      obtain ⟨buf', hread⟩ := readFrom_first p left buf.length_bytes hdropped hw
      rw [hread]
      simp only [bind, Except.bind, ih]
      rfl

/-- An error of the socket is handed on. -/
theorem wanted_eq_error_iff {err : String} : wanted relayAddr a = some (.error err) ↔ a = .error err := by
  constructor
  · intro h
    cases a with
    | error e =>
      cases h
      rfl
    | datagram d =>
      rw [wanted] at h
      split at h
      · split at h <;> cases h
      · cases h
  · rintro rfl
    rfl

/-- A datagram is wanted if it comes from the relay and can be decoded. -/
theorem wanted_datagram_iff {d : Datagram} :
    wanted relayAddr (.datagram d) = some w ↔
      equal d.src.ip relayAddr.ip = true ∧
        ∃ addr offset, decodeSocks5UDPHeader d.data = .ok (.ok (addr, offset)) ∧
          w = .ok (addr, d.data.drop offset) := by
  rw [wanted]
  constructor
  · intro h
    split at h
    · rename_i hsrc
      split at h
      · rename_i addr offset hdecode
        cases h
        exact ⟨hsrc, addr, offset, hdecode, rfl⟩
      · cases h
    · cases h
  · rintro ⟨hsrc, addr, offset, hdecode, rfl⟩
    rw [if_pos hsrc, hdecode]

/-- A call returns the first datagram of the relay whose header is decoded, or the error that the socket reports
before it, and every other datagram changes neither its result nor that of any later call. -/
theorem readFrom_filters (relayAddr : UDPAddr) :
    (∀ (buf : Scratch) (p : Bytes) (dropped left : List Arrival) (a : Arrival) (w : Except String (UDPAddr × Bytes)),
      (∀ d ∈ dropped, wanted relayAddr d = none) → wanted relayAddr a = some w →
        ∃ buf', readFrom relayAddr p buf.bytes (dropped ++ a :: left) =
          .ok (some ⟨(answer p w).1, (answer p w).2, buf', left⟩)) ∧
      (∀ a err, wanted relayAddr a = some (.error err) ↔ a = .error err) ∧
      (∀ d w, wanted relayAddr (.datagram d) = some w ↔
        equal d.src.ip relayAddr.ip = true ∧
          ∃ addr offset, decodeSocks5UDPHeader d.data = .ok (.ok (addr, offset)) ∧
            w = .ok (addr, d.data.drop offset)) ∧
      ∀ calls arrivals, readCalls relayAddr calls arrivals =
        .ok (List.zipWith (fun call w => answer call.2 w) calls (arrivals.filterMap (wanted relayAddr))) :=
  ⟨fun buf _ _ _ _ _ hdropped hw => readFrom_first _ _ buf.length_bytes hdropped hw, fun _ _ => wanted_eq_error_iff,
    fun _ _ => wanted_datagram_iff, readCalls_eq⟩

end Receive

end TlsClient.Engine.Socks5Datagram
