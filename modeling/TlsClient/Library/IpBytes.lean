import TlsClient.Library.WireBytes

/-!
# IP addresses as byte slices

Go's `net.IP`: four or sixteen bytes, where a sixteen byte address may stand for a four byte one. `equal`
identifies the two forms, and so does `to16`: for addresses of a proper length they say the same.
-/

namespace IpBytes

open WireBytes

abbrev Ip := Bytes

def v4InV6Prefix : Bytes := [0, 0, 0, 0, 0, 0, 0, 0, 0, 0, 0xff, 0xff]

def iPv4zero : Ip := v4InV6Prefix ++ [0, 0, 0, 0]

def iPv6unspecified : Ip := List.replicate 16 0

def to4 (ip : Ip) : Option Ip :=
  if ip.length = 4 then some ip
  else if ip.length = 16 ∧ ip.take 12 = v4InV6Prefix then some (ip.drop 12)
  else none

def to16 (ip : Ip) : Option Ip :=
  if ip.length = 4 then some (v4InV6Prefix ++ ip)
  else if ip.length = 16 then some ip
  else none

def equal (ip x : Ip) : Bool :=
  if ip.length = x.length then ip = x
  else if ip.length = 4 ∧ x.length = 16 then x.take 12 = v4InV6Prefix ∧ ip = x.drop 12
  else if ip.length = 16 ∧ x.length = 4 then ip.take 12 = v4InV6Prefix ∧ ip.drop 12 = x
  else false

def isUnspecified (ip : Ip) : Bool := equal ip iPv4zero || equal ip iPv6unspecified

/-- The address in the shorter of its forms. -/
def canonical (ip : Ip) : Ip := (to4 ip).getD ip

variable {ip x : Ip}

theorem equal_self (ip : Ip) : equal ip ip = true := by
  rw [equal, if_pos rfl, decide_eq_true rfl]

theorem to4_of_length (h : ip.length = 4) : to4 ip = some ip := if_pos h

/-- An IPv4 address has four bytes. -/
theorem length_of_to4 (h : to4 ip = some x) : x.length = 4 := by
  rw [to4] at h
  split at h
  · rename_i h4
    cases h
    exact h4
  · split at h
    · rename_i h16
      cases h
      rw [List.length_drop]
      omega
    · contradiction

/-- An address without a four byte form that has a proper length has sixteen bytes. -/
theorem length_of_to4_none (hlen : ip.length = 4 ∨ ip.length = 16) (h : to4 ip = none) : ip.length = 16 := by
  rcases hlen with h4 | h16
  · rw [to4_of_length h4] at h
    contradiction
  · exact h16

theorem to16_of_to4_none (hlen : ip.length = 4 ∨ ip.length = 16) (h : to4 ip = none) : to16 ip = some ip := by
  have h16 := length_of_to4_none hlen h
  rw [to16, if_neg (by omega), if_pos h16]

theorem canonical_of_to4 (h : to4 ip = some x) : canonical ip = x := by rw [canonical, h]; rfl

theorem canonical_of_to4_none (h : to4 ip = none) : canonical ip = ip := by rw [canonical, h]; rfl

/-- The shorter form is the same address. -/
theorem equal_canonical (ip : Ip) : equal (canonical ip) ip = true := by
  cases h : to4 ip with
  | none => rw [canonical_of_to4_none h, equal_self]
  | some x =>
    rw [canonical_of_to4 h]
    have hx := length_of_to4 h
    rw [to4] at h
    split at h
    · cases h
      exact equal_self _
    · split at h
      · rename_i h4 h16
        cases h
        rw [equal, if_neg (by omega), if_pos ⟨hx, h16.1⟩, decide_eq_true ⟨h16.2, rfl⟩]
      · contradiction

end IpBytes
