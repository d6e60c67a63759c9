/-
The verdict of the XDP program on a frame: `xdp_filter` and `try_filter`.

A source on the blocklist is dropped, then one over its rate; an IPv4
datagram for a redirect port goes to a socket, a SYN for the deception
tier is answered, and the rest passes. The blocklists and the redirect set
are only read by the program, so they are `Tables` beside its context.
`capture` copies the frame to a ring after the verdict is known and is not
modelled.
-/
import Blackwall.Xdp.Synack

namespace Blackwall.Xdp

open Base Fallible

-- ============================================================ the tables

/-- What the program reads and never writes: the blocklists, the redirect
ports, and whether a socket is bound in `XSKS` at the queue the frame
arrived on. -/
structure Tables where
  blockV4 : LpmTrie 32
  blockV6 : LpmTrie 128
  redirectPort : Dict (BitVec 16) Byte
  xskBound : Bool

/-- The verdicts. -/
inductive Verdict
  | drop
  | pass
  | tx
  | redirect
  deriving DecidableEq, Repr

/-- `blocked_v4`. -/
def blockedV4 (addr : List Byte) (t : Tables) : Bool :=
  (t.blockV4.get (addrBits 32 addr)).isSome

/-- `blocked_v6`. -/
def blockedV6 (addr : List Byte) (t : Tables) : Bool :=
  (t.blockV6.get (addrBits 128 addr)).isSome

/-- `EtherType::Ipv4`. -/
def etherIpv4 : List Byte := [0x08, 0x00]

/-- `EtherType::Ipv6`. -/
def etherIpv6 : List Byte := [0x86, 0xDD]

/-- `EthHdr::ether_type`. -/
def etherType (eth : List Byte) : List Byte := slice 12 2 eth

/-- `Ipv4Hdr::src_addr`. -/
def srcAddr4 (ip : List Byte) : List Byte := slice 12 4 ip

/-- `Ipv6Hdr::src_addr`. -/
def srcAddr6 (ip : List Byte) : List Byte := slice 8 16 ip

/-- `IpProto::Udp`. -/
def ipProtoUdp : Byte := 17

-- =========================================================== the filter

/-- `over_rate`, with the clock it reads. -/
def overRateNow (env : Env) (src : List Byte) : Prog Bool := do
  let now ← ktimeGetNs env
  act fun c => ((overRate src now c.maps).1,
    { c with maps := (overRate src now c.maps).2 })

/-- Count the frame and return the verdict. -/
def counted (reason : Reason) (frameLen : BitVec 64) (v : Verdict) :
    Prog Verdict := do
  act fun c => ((), { c with maps := count reason frameLen c.maps })
  return v

/-- `try_redirect_udp_v4`. -/
def tryRedirectUdpV4 (t : Tables) : Prog Verdict := do
  let ip ← ptrAt offIp 20
  check (ihl ip = 5 ∧ proto ip = ipProtoUdp)
  let dstPort ← loadBe16 v4.dstport
  check ((t.redirectPort.lookup dstPort).isSome = true)
  return if t.xskBound then .redirect else .pass

/-- The SYN-cookie path of a family, and `XDP_PASS` where it gives up. -/
def synackOrPass (synack : Prog XdpAction) (frameLen : BitVec 64) :
    Prog Verdict := do
  match ← attempt synack with
  | some .tx => counted .syncookie frameLen .tx
  | none => counted .pass frameLen .pass

/-- `try_filter` from the IPv4 header on. -/
def filterV4 (env : Env) (t : Tables) (frameLen : BitVec 64) :
    Prog Verdict := do
  let ip ← ptrAt offIp 20
  let src := srcAddr4 ip
  if blockedV4 src t then counted .blocklist frameLen .drop
  else
    let key16 := put 0 src (List.replicate 16 0)
    if ← overRateNow env key16 then counted .ratelimit frameLen .drop
    else
      match ← attempt (tryRedirectUdpV4 t) with
      | some action => counted .redirect frameLen action
      | none => synackOrPass (trySynackV4 env) frameLen

/-- `try_filter` from the IPv6 header on. -/
def filterV6 (env : Env) (t : Tables) (frameLen : BitVec 64) :
    Prog Verdict := do
  let ip ← ptrAt offIp 40
  let src := srcAddr6 ip
  if blockedV6 src t then counted .blocklist frameLen .drop
  else if ← overRateNow env src then counted .ratelimit frameLen .drop
  else synackOrPass (trySynackV6 env) frameLen

def tryFilter (env : Env) (t : Tables) : Prog Verdict := do
  let frameLen ← look fun c => BitVec.ofNat 64 c.frame.length
  let eth ← ptrAt 0 14
  if etherType eth = etherIpv4 then filterV4 env t frameLen
  else if etherType eth = etherIpv6 then filterV6 env t frameLen
  else counted .pass frameLen .pass

/-- `xdp_filter`: the verdict, and what the run leaves. -/
def xdpFilter (env : Env) (t : Tables) (c : Ctx) : Verdict × Ctx :=
  ((tryFilter env t c).1.getD .pass, (tryFilter env t c).2)

end Blackwall.Xdp
