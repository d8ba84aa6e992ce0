import Mathlib.Logic.Basic

/-!
# Addresses of Go's `net` package

`net.IP` is a byte slice: four bytes for IPv4, sixteen for IPv6, and an IPv4 address may also be held in sixteen bytes, behind
`v4InV6Prefix`. `To4` and `To16` return nil (here `none`) on any other length, and `Equal` does not distinguish the two forms of
an IPv4 address.
-/

namespace Net

/-- `net.IPv4len`. -/
def IPv4len : Nat := 4

/-- `net.IPv6len`. -/
def IPv6len : Nat := 16

/-- `net.IP`: a slice of bytes. -/
abbrev IP := List UInt8

/-- The prefix of an IPv4 address held in sixteen bytes. -/
def v4InV6Prefix : List UInt8 := [0, 0, 0, 0, 0, 0, 0, 0, 0, 0, 0xff, 0xff]

/-- `IP.To4`: the four-byte form, nil when the address is not an IPv4 one. -/
def IP.to4 (ip : IP) : Option IP :=
  if ip.length = IPv4len then some ip
  else if ip.length = IPv6len ∧ ip.take 12 = v4InV6Prefix then some (ip.drop 12)
  else none

/-- `IP.To16`: the sixteen-byte form, nil when the slice is no address. -/
def IP.to16 (ip : IP) : Option IP :=
  if ip.length = IPv4len then some (v4InV6Prefix ++ ip)
  else if ip.length = IPv6len then some ip
  else none

/-- `IP.Equal`: an IPv4 address and the same address in IPv6 form are equal. -/
def IP.equal (ip x : IP) : Bool :=
  if ip.length = x.length then decide (ip = x)
  else if ip.length = IPv4len ∧ x.length = IPv6len then decide (x.take 12 = v4InV6Prefix) && decide (ip = x.drop 12)
  else if ip.length = IPv6len ∧ x.length = IPv4len then decide (ip.take 12 = v4InV6Prefix) && decide (ip.drop 12 = x)
  else false

/-- `net.TCPAddr`: an address and a port. -/
structure TCPAddr where
  ip : IP
  port : Int
deriving DecidableEq, Repr

/-- An address a connection can have: four or sixteen bytes, and a port of 16 bits. -/
def TCPAddr.Valid (a : TCPAddr) : Prop :=
  (a.ip.length = IPv4len ∨ a.ip.length = IPv6len) ∧ 0 ≤ a.port ∧ a.port ≤ 65535

instance (a : TCPAddr) : Decidable a.Valid := inferInstanceAs (Decidable (_ ∧ _))

/-- Two addresses name the same endpoint: equal addresses in the sense of `IP.Equal`, and the same port. -/
def TCPAddr.Same (a b : TCPAddr) : Prop := a.ip.equal b.ip = true ∧ a.port = b.port

instance (a b : TCPAddr) : Decidable (a.Same b) := inferInstanceAs (Decidable (_ ∧ _))

/-- The form an encoder can hold an address in: four bytes when there is a four-byte form. -/
def TCPAddr.canonical (a : TCPAddr) : TCPAddr := { a with ip := a.ip.to4.getD a.ip }

theorem v4InV6Prefix_length : v4InV6Prefix.length = 12 := rfl

theorem IP.to4_of_length_four {ip : IP} (h : ip.length = IPv4len) : ip.to4 = some ip := by
  rw [IP.to4, if_pos h]

/-- What `To4` returns has four bytes. -/
theorem IP.length_of_to4 {ip x : IP} (h : ip.to4 = some x) : x.length = IPv4len := by
  unfold IP.to4 at h
  split at h
  · rename_i hl
    cases h
    exact hl
  · split at h
    · rename_i hl
      cases h
      rw [List.length_drop, hl.1]
      rfl
    · cases h

/-- An address of sixteen bytes with no four-byte form is not behind the IPv4 prefix. -/
theorem IP.to4_eq_none {ip : IP} (h : ip.length = IPv6len) : ip.to4 = none ↔ ip.take 12 ≠ v4InV6Prefix := by
  have h4 : ¬ip.length = IPv4len := by rw [h]; decide
  rw [IP.to4, if_neg h4]
  simp [h]

theorem IP.to16_of_length_sixteen {ip : IP} (h : ip.length = IPv6len) : ip.to16 = some ip := by
  have h4 : ¬ip.length = IPv4len := by rw [h]; decide
  rw [IP.to16, if_neg h4, if_pos h]

theorem IP.equal_refl (ip : IP) : ip.equal ip = true := by simp [IP.equal]

/-- The four-byte form of an address equals the address. -/
theorem IP.equal_of_to4 {ip x : IP} (h : ip.to4 = some x) : x.equal ip = true := by
  have hx := IP.length_of_to4 h
  unfold IP.to4 at h
  split at h
  · cases h
    exact IP.equal_refl _
  · rename_i hne
    split at h
    · rename_i hm
      cases h
      have hl : ¬(ip.drop 12).length = ip.length := by
        rw [hx]
        exact fun e => hne e.symm
      rw [IP.equal, if_neg hl, if_pos ⟨hx, hm.1⟩]
      simp [hm.2]
    · cases h

/-- The canonical form of an address names the same endpoint. -/
theorem TCPAddr.canonical_same (a : TCPAddr) : a.canonical.Same a := by
  refine ⟨?_, rfl⟩
  unfold TCPAddr.canonical
  cases h : a.ip.to4 with
  | none => exact IP.equal_refl _
  | some x => exact IP.equal_of_to4 h

/-- `Equal` decides whether two addresses have the same sixteen-byte form: it is the comparison of the addresses themselves,
not of their representations. -/
theorem IP.equal_iff_to16 {ip x : IP} (h : ip.length = IPv4len ∨ ip.length = IPv6len)
    (hx : x.length = IPv4len ∨ x.length = IPv6len) : ip.equal x = true ↔ ip.to16 = x.to16 := by
  have hsplit : ∀ {a b : IP}, b.length = IPv6len → a.length = IPv4len →
      (v4InV6Prefix ++ a = b ↔ b.take 12 = v4InV6Prefix ∧ a = b.drop 12) := by
    intro a b _ _
    constructor
    · rintro rfl
      exact ⟨List.take_left' v4InV6Prefix_length, (List.drop_left' v4InV6Prefix_length).symm⟩
    · rintro ⟨h1, h2⟩
      rw [h2, ← h1, List.take_append_drop]
  have h46 : ¬IPv4len = IPv6len := by decide
  have h64 : ¬IPv6len = IPv4len := by decide
  rcases h with h | h <;> rcases hx with hx | hx
  · simp [IP.equal, IP.to16, h, hx]
  · simp [IP.equal, IP.to16, h, hx, h46, h64, hsplit hx h]
  · have := hsplit h hx
    simp only [IP.equal, IP.to16, h, hx, h46, h64, if_false, if_true, and_self, Bool.and_eq_true, decide_eq_true_eq,
      Option.some.injEq]
    rw [@eq_comm _ ip, this, @eq_comm _ x]
  · simp [IP.equal, IP.to16, h, hx, h64]

end Net
