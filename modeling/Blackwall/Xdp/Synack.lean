/-
The in-kernel SYN-ACK of the XDP program: `try_synack_v4` and
`try_synack_v6`.

Both paths decide whether to answer a SYN, mint a cookie, and then turn
the frame into the SYN-ACK in place. They differ in the headers they read
and in what surrounds the TCP header; a `Layout` says where the fields of
a family are, and what the paths share is written once over it. The order
of the checks, loads and stores is the source's.
-/
import Blackwall.Xdp.Packet

namespace Blackwall.Xdp

open Base Fallible Cookie

-- =========================================================== the layout

def offMacDst : Nat := 0

def offMacSrc : Nat := 6

/-- `OFF_IP` and `OFF_IP6`. -/
def offIp : Nat := 14

def offIpCheck : Nat := offIp + 10

/-- Where a family has its addresses and its TCP header. The addresses
are of one length, side by side, and the TCP header follows them. -/
structure Layout where
  addrLen : Nat
  src : Nat
  dst : Nat
  tcp : Nat
  src_ge : offIp + 2 ≤ src
  src_dst : src + addrLen = dst
  dst_tcp : dst + addrLen = tcp

/-- `OFF_IP_SRC`, `OFF_IP_DST`, `OFF_TCP`. -/
def v4 : Layout := ⟨4, offIp + 12, offIp + 16, offIp + 20, by decide,
  by decide, by decide⟩

/-- `OFF_IP6_SRC`, `OFF_IP6_DST`, `OFF_TCP6`. -/
def v6 : Layout := ⟨16, offIp + 8, offIp + 24, offIp + 40, by decide,
  by decide, by decide⟩

namespace Layout

/-- `OFF_TCP_SRCPORT`. -/
def srcport (l : Layout) : Nat := l.tcp

/-- `OFF_TCP_DSTPORT`. -/
def dstport (l : Layout) : Nat := l.tcp + 2

/-- `OFF_TCP_SEQ`. -/
def seq (l : Layout) : Nat := l.tcp + 4

/-- `OFF_TCP_ACK`. -/
def ack (l : Layout) : Nat := l.tcp + 8

/-- `OFF_TCP_DATAOFF`. -/
def dataoff (l : Layout) : Nat := l.tcp + 12

/-- `OFF_TCP_FLAGS`. -/
def flags (l : Layout) : Nat := l.tcp + 13

/-- `OFF_TCP_WINDOW`. -/
def window (l : Layout) : Nat := l.tcp + 14

/-- `OFF_TCP_CHECK`. -/
def check (l : Layout) : Nat := l.tcp + 16

/-- `OFF_TCP_URG`. -/
def urg (l : Layout) : Nat := l.tcp + 18

/-- `OFF_TCP_OPTS`. -/
def opts (l : Layout) : Nat := l.tcp + 20

end Layout

def tcpFlagsSynAck : Byte := 0x12

def synackWindow : BitVec 16 := 65535

def maxTcpSeg : Nat := 64

/-- The verdict of a SYN that was answered. -/
inductive XdpAction
  | tx
  deriving DecidableEq, Repr

-- ============================================================== the gate

/-- The TCP header, if it is a SYN's. -/
def synHeader (l : Layout) : Prog (List Byte) := do
  let tcp ← ptrAt l.tcp 20
  check (synBit tcp = true ∧ ackBit tcp = false)
  return tcp

/-- The checks on the data offset, and on the length the IP header claims
(`base` is what it counts besides the TCP header). -/
def headerChecks (doff claimed base : Nat) : Prog Unit := do
  check (5 ≤ doff)
  check (4 ≤ doff * 4 - 20 ∧ doff * 4 - 20 ≤ maxTcpOpts)
  check (claimed = base + doff * 4)
  check (doff * 4 ≤ maxTcpSeg)

def cookieKeys : Prog CookieKeyValue := fetch fun c => c.maps.cookieKey

/-- The budget check: without a token the SYN is counted and let go. -/
def mintBudget (now : Nat) : Prog Unit := do
  let ok ← act fun c =>
    ((txBudgetOk now c.maps).1, { c with maps := (txBudgetOk now c.maps).2 })
  if ok then return
  else do
    act fun c => ((), { c with
      maps := count .syncookieTxcapped (BitVec.ofNat 64 c.frame.length)
        c.maps })
    fail

/-- What the gate has read of a SYN it lets through, and its cookie. -/
structure Syn where
  doff : Nat
  srcPort : BitVec 16
  dstPort : BitVec 16
  clientSeq : BitVec 32
  cookieSeq : BitVec 32
  mss : BitVec 16

/-- `ack = client_seq.wrapping_add(1)`. -/
def Syn.ack (s : Syn) : BitVec 32 := s.clientSeq + 1

def Syn.optionsLen (s : Syn) : Nat := s.doff * 4 - 20

/-- `try_synack_v4` up to the cookie; the addresses come with the SYN. -/
def gateV4 (env : Env) : Prog (List Byte × List Byte × Syn) := do
  let ip ← ptrAt offIp 20
  check (ihl ip = 5 ∧ proto ip = ipProtoTcp)
  let ipTotal := (totLen ip).toNat
  let tcp ← synHeader v4
  let dst ← loadAddr4 v4.dst
  let dstPort ← loadBe16 v4.dstport
  let maps ← look fun c => c.maps
  check (protectedPort dstPort maps = true ∧ protectedV4 dst maps = true)
  let doff := doffOf tcp
  headerChecks doff ipTotal 20
  let src ← loadAddr4 v4.src
  let srcPort ← loadBe16 v4.srcport
  let clientSeq ← loadBe32 v4.seq
  let clientMss ← parseMss v4.opts
  let key ← cookieKeys
  let now ← ktimeGetNs env
  mintBudget now
  let cookie := makeCookieRaw env.sip key.k0 key.k1 src srcPort dst dstPort
    clientMss (BitVec.ofNat 64 (now / nsPerSec))
  return (src, dst, ⟨doff, srcPort, dstPort, clientSeq, cookie.1, cookie.2⟩)

/-- `compute_cookie_v6`. It reads the clock again. -/
def computeCookieV6 (env : Env) (k0 k1 : BitVec 64) :
    Prog (BitVec 32 × BitVec 16) := do
  let now ← ktimeGetNs env
  let src ← loadAddr16 v6.src
  let dst ← loadAddr16 v6.dst
  let srcPort ← loadBe16 v6.srcport
  let dstPort ← loadBe16 v6.dstport
  let clientMss ← parseMss v6.opts
  return makeCookieRaw env.sip k0 k1 src srcPort dst dstPort clientMss
    (BitVec.ofNat 64 (now / nsPerSec))

/-- `try_synack_v6` up to the cookie. -/
def gateV6 (env : Env) : Prog Syn := do
  let ip ← ptrAt offIp 40
  check (nextHdr ip = ipProtoTcp)
  let payload := (payloadLen ip).toNat
  let tcp ← synHeader v6
  let dstPort ← loadBe16 v6.dstport
  let maps ← look fun c => c.maps
  check (protectedPort dstPort maps = true)
  let dst ← loadAddr16 v6.dst
  check (protectedV6 dst maps = true)
  let doff := doffOf tcp
  headerChecks doff payload 0
  let srcPort ← loadBe16 v6.srcport
  let clientSeq ← loadBe32 v6.seq
  let key ← cookieKeys
  let now ← ktimeGetNs env
  mintBudget now
  let cookie ← computeCookieV6 env key.k0 key.k1
  return ⟨doff, srcPort, dstPort, clientSeq, cookie.1, cookie.2⟩

-- =========================================================== the surgery

/-- The surgery from the MAC addresses to the options. -/
def rewriteHeaders (l : Layout) (s : Syn) : Prog Unit := do
  swapBytes 6 offMacDst offMacSrc
  swapBytes l.addrLen l.src l.dst
  swapBytes 2 l.srcport l.dstport
  storeU8 l.dataoff (BitVec.ofNat 8 (s.doff <<< 4))
  storeBe32 l.seq s.cookieSeq
  storeBe32 l.ack s.ack
  storeU8 l.flags tcpFlagsSynAck
  storeBe16 l.window synackWindow
  storeBe16 l.urg 0
  writeMssOption l.opts s.optionsLen s.mss

/-- `ipv4_checksum`. -/
def ipv4Checksum : Prog (BitVec 16) := do
  let bytes ← ptrAt offIp 20
  return foldChecksum (sumWords 10 bytes)

/-- The sum of the reply's TCP segment and of what the pseudo-header adds
to the addresses: computed from the values, not from the bytes. -/
def segmentSum (s : Syn) : Nat :=
  ipProtoTcp.toNat + s.doff * 4 + s.dstPort.toNat + s.srcPort.toNat
    + ((s.cookieSeq >>> 16).toNat + (s.cookieSeq &&& 0xffff).toNat)
    + ((s.ack >>> 16).toNat + (s.ack &&& 0xffff).toNat)
    + (s.doff <<< 12 ||| 0x0012) + synackWindow.toNat + 0x0204
    + s.mss.toNat + (s.optionsLen - 4) / 2 * 0x0101

/-- `try_synack_v4` from the surgery on. -/
def replyV4 (src dst : List Byte) (s : Syn) : Prog XdpAction := do
  rewriteHeaders v4 s
  storeBe16 offIpCheck 0
  let ipCheck ← ipv4Checksum
  storeBe16 offIpCheck ipCheck
  let sum := sumWords 2 src + sumWords 2 dst + segmentSum s
  storeBe16 v4.check (foldChecksum sum)
  return .tx

/-- `try_synack_v6` from the surgery on: the addresses of the sum are read
after the swap. -/
def replyV6 (s : Syn) : Prog XdpAction := do
  rewriteHeaders v6 s
  let a ← loadAddr16 v6.src
  let b ← loadAddr16 v6.dst
  let sum := sumAddr16 a + sumAddr16 b + segmentSum s
  storeBe16 v6.check (foldChecksum sum)
  return .tx

/-- `try_synack_v4`. -/
def trySynackV4 (env : Env) : Prog XdpAction := do
  let (src, dst, s) ← gateV4 env
  replyV4 src dst s

/-- `try_synack_v6`. -/
def trySynackV6 (env : Env) : Prog XdpAction := do
  let s ← gateV6 env
  replyV6 s

end Blackwall.Xdp
