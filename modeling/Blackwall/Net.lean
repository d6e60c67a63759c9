/-
Addresses and prefixes as the crates use them (`std::net::IpAddr`,
`ipnet::IpNet`).

A prefix keeps the address it was written with, host bits included, and
a length the address width bounds; two prefixes are equal when both are.
`contains` compares network parts, so it never sees host bits.
-/
import Mathlib.Algebra.Ring.Nat
import Mathlib.Data.Fin.Basic
import Blackwall.Base.Bytes

namespace Blackwall

/-- The largest value of a `u64`. -/
def u64Max : Nat := 2 ^ 64 - 1

/-- `u64::saturating_add`. -/
def satAdd64 (a b : Nat) : Nat := min (a + b) u64Max

-- =========================================================== addresses

/-- `std::net::IpAddr`. -/
inductive IpAddr
  | v4 (a : BitVec 32)
  | v6 (a : BitVec 128)
  deriving DecidableEq, Repr

/-- `Ipv4Addr::octets`, `Ipv6Addr::octets`. -/
def IpAddr.octets : IpAddr → List Base.Byte
  | .v4 a => Base.beBytes 4 a.toNat
  | .v6 a => Base.beBytes 16 a.toNat

/-- A prefix of one family: `ipnet::Ipv4Net` at width 32, `Ipv6Net` at
width 128. -/
structure Cidr (w : Nat) where
  addr : BitVec w
  len : Fin (w + 1)
  deriving DecidableEq, Repr

/-- `Ipv4Net::contains` / `Ipv6Net::contains`: the two addresses agree on
the first `len` bits. -/
def Cidr.contains {w : Nat} (n : Cidr w) (a : BitVec w) : Bool :=
  n.addr >>> (w - n.len.val) == a >>> (w - n.len.val)

/-- `Ipv4Net::network`, `Ipv6Net::network`: the address with its host bits
cleared. -/
def Cidr.network {w : Nat} (n : Cidr w) : BitVec w :=
  (n.addr >>> (w - n.len.val)) <<< (w - n.len.val)

/-- `Ipv4Net::trunc`, `Ipv6Net::trunc`. -/
def Cidr.trunc {w : Nat} (n : Cidr w) : Cidr w := ⟨n.network, n.len⟩

/-- `Ipv4Net::broadcast`, `Ipv6Net::broadcast`: the address with its host
bits set. -/
def Cidr.broadcast {w : Nat} (n : Cidr w) : BitVec w :=
  n.addr ||| (BitVec.allOnes w >>> n.len.val)

/-- `contains` of another prefix: its whole range is inside. -/
def Cidr.containsNet {w : Nat} (n m : Cidr w) : Bool :=
  decide (n.network ≤ m.network) && decide (m.broadcast ≤ n.broadcast)

/-- The prefix written `addr/len`, for a length the width allows. -/
def Cidr.slash {w : Nat} (addr : BitVec w) (len : Nat) : Cidr w :=
  ⟨addr, Fin.ofNat (w + 1) len⟩

/-- The prefix of length zero: `0.0.0.0/0`, `::/0`. -/
def Cidr.any (w : Nat) : Cidr w := ⟨0, 0, Nat.succ_pos w⟩

/-- `ipnet::IpNet`. -/
inductive IpNet
  | v4 (n : Cidr 32)
  | v6 (n : Cidr 128)
  deriving DecidableEq, Repr

namespace IpNet

/-- `IpNet::addr`: the address the prefix was written with. -/
def addr : IpNet → IpAddr
  | .v4 n => .v4 n.addr
  | .v6 n => .v6 n.addr

/-- `IpNet::prefix_len`. -/
def prefixLen : IpNet → Nat
  | .v4 n => n.len
  | .v6 n => n.len

/-- `IpNet::trunc`: the prefix with its host bits cleared. -/
def trunc : IpNet → IpNet
  | .v4 n => .v4 n.trunc
  | .v6 n => .v6 n.trunc

theorem ext_addr {n m : IpNet} (ha : n.addr = m.addr)
    (hl : n.prefixLen = m.prefixLen) : n = m := by
  cases n with
  | v4 c =>
      cases m with
      | v4 d =>
          obtain ⟨a, l⟩ := c
          obtain ⟨b, l'⟩ := d
          cases ha
          cases Fin.ext hl
          rfl
      | v6 d => cases ha
  | v6 c =>
      cases m with
      | v4 d => cases ha
      | v6 d =>
          obtain ⟨a, l⟩ := c
          obtain ⟨b, l'⟩ := d
          cases ha
          cases Fin.ext hl
          rfl

/-- `IpNet::contains`: false across families. -/
def contains : IpNet → IpAddr → Bool
  | .v4 n, .v4 a => n.contains a
  | .v6 n, .v6 a => n.contains a
  | _, _ => false

/-- `IpNet::contains` of another prefix: false across families. -/
def containsNet : IpNet → IpNet → Bool
  | .v4 n, .v4 m => n.containsNet m
  | .v6 n, .v6 m => n.containsNet m
  | _, _ => false

end IpNet

-- ======================================================== host prefixes

/-- `host_prefix`: the `/32` or `/128` of one address. -/
def hostPrefix : IpAddr → IpNet
  | .v4 a => .v4 ⟨a, Fin.last 32⟩
  | .v6 a => .v6 ⟨a, Fin.last 128⟩

@[simp] theorem addr_hostPrefix (t : IpAddr) : (hostPrefix t).addr = t := by
  cases t <;> rfl

theorem hostPrefix_injective : Function.Injective hostPrefix := by
  intro a b h
  rw [← addr_hostPrefix a, h, addr_hostPrefix]

@[simp] theorem hostPrefix_inj {a b : IpAddr} :
    hostPrefix a = hostPrefix b ↔ a = b :=
  hostPrefix_injective.eq_iff

end Blackwall
