/-
The packet the XDP program works on, and the bounds-checked accesses it
makes (`blackwall-xdp-ebpf`, from `ptr_at` to `fold_checksum`, and the
helpers of the SYN-ACK paths).

A function of the source that takes the context and returns a
`Result<_, ()>` is a `Prog`: it sees the frame, the maps and the clock,
and where it returns `Err(())` what it has written stays written. Every
access is checked against the end of the frame on its own, as in the
source; a reference to a header is the bytes it covers, which are read
before anything is stored.
-/
import Blackwall.Base.Fallible
import Blackwall.Cookie
import Blackwall.Xdp.Maps

namespace Blackwall.Xdp

open Base

-- ========================================================== the context

/-- What one run of the program sees: the frame from `data` to
`data_end`, the maps, and how often the clock was read. -/
structure Ctx where
  frame : List Byte
  maps : Maps
  reads : Nat

/-- What the program calls and does not define: SipHash, and the clock by
the number of the reading. -/
structure Env where
  sip : Cookie.SipHash
  ktime : Nat → Nat

/-- A fallible function of the context. -/
abbrev Prog (α : Type) : Type := Fallible Ctx α

/-- `bpf_ktime_get_ns`. -/
def ktimeGetNs (env : Env) : Prog Nat :=
  Fallible.act fun c =>
    (env.ktime c.reads % 2 ^ 64, { c with reads := c.reads + 1 })

-- ============================================================= accesses

/-- The byte at an offset. -/
def byteAt (off : Nat) (f : List Byte) : Byte := f.getD off 0

/-- `ptr_at`, read through: the `n` bytes at `offset`. -/
def ptrAt (offset n : Nat) : Prog (List Byte) := fun c =>
  if offset + n ≤ c.frame.length then (some (slice offset n c.frame), c)
  else (none, c)

/-- `load_u8`. -/
def loadU8 (offset : Nat) : Prog Byte := do
  let p ← ptrAt offset 1
  return byteAt 0 p

/-- `store_u8`. -/
def storeU8 (offset : Nat) (value : Byte) : Prog Unit := fun c =>
  if offset + 1 ≤ c.frame.length then
    (some (), { c with frame := c.frame.set offset value })
  else (none, c)

/-- `load_be16`. -/
def loadBe16 (offset : Nat) : Prog (BitVec 16) := do
  let hi ← loadU8 offset
  let lo ← loadU8 (offset + 1)
  return word16 hi lo

/-- `store_be16`. -/
def storeBe16 (offset : Nat) (value : BitVec 16) : Prog Unit := do
  storeU8 offset ((value >>> 8).setWidth 8)
  storeU8 (offset + 1) ((value &&& 0xff).setWidth 8)

/-- `load_be32`. -/
def loadBe32 (offset : Nat) : Prog (BitVec 32) := do
  let hi ← loadBe16 offset
  let lo ← loadBe16 (offset + 2)
  return word32 hi lo

/-- `store_be32`. -/
def storeBe32 (offset : Nat) (value : BitVec 32) : Prog Unit := do
  storeBe16 offset ((value >>> 16).setWidth 16)
  storeBe16 (offset + 2) ((value &&& 0xffff).setWidth 16)

/-- The four `load_u8` of an IPv4 address. -/
def loadAddr4 (offset : Nat) : Prog (List Byte) := do
  let a ← loadU8 offset
  let b ← loadU8 (offset + 1)
  let c ← loadU8 (offset + 2)
  let d ← loadU8 (offset + 3)
  return [a, b, c, d]

/-- `load_addr16`. -/
def loadAddr16 (offset : Nat) : Prog (List Byte) := ptrAt offset 16

/-- `swap_bytes::<N>`, up to the turn before `n`. -/
def swapBytes : (n a b : Nat) → Prog Unit
  | 0, _, _ => return
  | n + 1, a, b => do
      swapBytes n a b
      let x ← loadU8 (a + n)
      let y ← loadU8 (b + n)
      storeU8 (a + n) y
      storeU8 (b + n) x

-- ============================================================ checksums

/-- The loop of `sum_addr16` and `ipv4_checksum`: the sum of the first `n`
big-endian words. -/
def sumWords (n : Nat) (bytes : List Byte) : Nat :=
  ((List.range n).map fun k =>
    (word16 (byteAt (k * 2) bytes) (byteAt (k * 2 + 1) bytes)).toNat).sum

/-- `sum_addr16`. -/
def sumAddr16 (addr : List Byte) : Nat := sumWords 8 addr

/-- `fold_checksum` of a `u32`: two folds of the carries, inverted. -/
def foldChecksum (sum : Nat) : BitVec 16 :=
  let sum := sum % 2 ^ 32
  let sum := sum % 2 ^ 16 + sum / 2 ^ 16
  let sum := sum % 2 ^ 16 + sum / 2 ^ 16
  ~~~(BitVec.ofNat 16 sum)

-- ========================================================== the headers

/-- `Ipv4Hdr::ihl`. -/
def ihl (ip : List Byte) : Byte := byteAt 0 ip &&& 0x0f

/-- `Ipv4Hdr::tot_len`, converted from big-endian. -/
def totLen (ip : List Byte) : BitVec 16 := word16 (byteAt 2 ip) (byteAt 3 ip)

/-- `Ipv4Hdr::proto`. -/
def proto (ip : List Byte) : Byte := byteAt 9 ip

/-- `Ipv6Hdr::payload_len`, converted from big-endian. -/
def payloadLen (ip : List Byte) : BitVec 16 :=
  word16 (byteAt 4 ip) (byteAt 5 ip)

/-- `Ipv6Hdr::next_hdr`. -/
def nextHdr (ip : List Byte) : Byte := byteAt 6 ip

/-- `IpProto::Tcp`. -/
def ipProtoTcp : Byte := 6

/-- `TcpHdr::doff`. -/
def doffOf (tcp : List Byte) : Nat := (byteAt 12 tcp >>> 4).toNat

/-- `TcpHdr::syn`. -/
def synBit (tcp : List Byte) : Bool := (byteAt 13 tcp).getLsbD 1

/-- `TcpHdr::ack`. -/
def ackBit (tcp : List Byte) : Bool := (byteAt 13 tcp).getLsbD 4

-- ============================================================== options

def maxTcpOpts : Nat := 40

def defaultClientMss : BitVec 16 := 1460

/-- `parse_mss`: the MSS if it is the first option. -/
def parseMss (optsOff : Nat) : Prog (BitVec 16) := do
  let kind ← loadU8 optsOff
  let len ← loadU8 (optsOff + 1)
  if kind = 2 ∧ len = 4 then loadBe16 (optsOff + 2)
  else return defaultClientMss

/-- The loop of `write_mss_option` from turn `k`, with `n` turns to the
bound: NOPs up to `optionsLen`. -/
def padNops (optsOff optionsLen : Nat) : (n k : Nat) → Prog Unit
  | 0, _ => return
  | n + 1, k =>
      if k ≥ optionsLen then return
      else do
        storeU8 (optsOff + k) 1
        padNops optsOff optionsLen n (k + 1)

def writeMssOption (optsOff optionsLen : Nat) (mss : BitVec 16) :
    Prog Unit := do
  storeU8 optsOff 2
  storeU8 (optsOff + 1) 4
  storeBe16 (optsOff + 2) mss
  padNops optsOff optionsLen (maxTcpOpts - 4) 4

end Blackwall.Xdp
