/-
UPDATE encoding (`blackwall-bgp/src/update.rs`, and the encoders of
`blackwall-bgp/src/flowspec.rs`).

An IPv4 route rides in the classic fields, an IPv6 route and every
FlowSpec rule in the multiprotocol attributes. As in `Bgp.Message`, a
panic is `none`: a length that does not fit its field, or a next hop of the
other family.
-/
import Blackwall.Bgp.FlowSpec
import Blackwall.Bgp.Message
import Blackwall.Bgp.Route

namespace Blackwall.Bgp

open Base

-- ============================================================== attributes

def flagWellKnown : Byte := 0x40

def flagOptTrans : Byte := 0xC0

def flagOptNonTrans : Byte := 0x80

def flagExtendedLen : Byte := 0x10

def attrOrigin : Byte := 1

def attrAsPath : Byte := 2

def attrNextHop : Byte := 3

def attrCommunities : Byte := 8

def attrMpReachNlri : Byte := 14

def attrMpUnreachNlri : Byte := 15

def attrExtendedCommunities : Byte := 16

def attrLargeCommunities : Byte := 32

/-- `AFI_IPV6`. -/
def afiIpv6 : BitVec 16 := 2

def safiUnicast : Byte := 1

def safiFlowspec : Byte := 133

/-- `push_attr`: what it appends. -/
def pushAttr (flags typeCode : Byte) (value : List Byte) :
    Option (List Byte) :=
  match u8Len value.length with
  | some len => some (flags :: typeCode :: len :: value)
  | none => do
      let len ← u16Len value.length
      return (flags ||| flagExtendedLen) :: typeCode :: (be16 len ++ value)

/-- An optional attribute that lists values; no values, no attribute. -/
def pushList {γ : Type} (typeCode : Byte) (enc : γ → List Byte)
    (cs : List γ) : Option (List Byte) :=
  if cs.isEmpty then some []
  else pushAttr flagOptTrans typeCode (cs.flatMap enc)

/-- A community on the wire. -/
def encodeCommunity (c : BitVec 16 × BitVec 16) : List Byte :=
  be16 c.1 ++ be16 c.2

/-- A large community on the wire. -/
def encodeLarge (c : BitVec 32 × BitVec 32 × BitVec 32) : List Byte :=
  be32 c.1 ++ (be32 c.2.1 ++ be32 c.2.2)

/-- The COMMUNITIES of a route. -/
def pushCommunities : List (BitVec 16 × BitVec 16) → Option (List Byte) :=
  pushList attrCommunities encodeCommunity

/-- The LARGE_COMMUNITIES of a route. -/
def pushLargeCommunities :
    List (BitVec 32 × BitVec 32 × BitVec 32) → Option (List Byte) :=
  pushList attrLargeCommunities encodeLarge

-- ================================================================ unicast

def encodeNlri (net : IpNet) : List Byte :=
  let bits := net.prefixLen
  let nbytes := (bits + 7) / 8
  BitVec.ofNat 8 bits :: net.trunc.addr.octets.take nbytes

/-- An UPDATE body of withdrawn routes, attributes and routes. -/
def updateBody (withdrawnLen totalAttrLen : BitVec 16)
    (withdrawn attrs nlri : List Byte) : List Byte :=
  be16 withdrawnLen ++ (withdrawn ++ (be16 totalAttrLen ++ (attrs ++ nlri)))

def buildAnnounce (route : Route) : Option (List Byte) :=
  match route.net, route.nextHop with
  | .v4 _, .v4 nh => do
      let origin ← pushAttr flagWellKnown attrOrigin [route.origin.wire]
      let asPath ← pushAttr flagWellKnown attrAsPath []
      let nextHop ← pushAttr flagWellKnown attrNextHop (IpAddr.v4 nh).octets
      let comms ← pushCommunities route.communities
      let large ← pushLargeCommunities route.largeCommunities
      let attrs := origin ++ (asPath ++ (nextHop ++ (comms ++ large)))
      let totalAttrLen ← u16Len attrs.length
      encodeHeader 2
        (updateBody 0 totalAttrLen [] attrs (encodeNlri route.net))
  | .v6 _, .v6 nh => do
      let mpReachVal := be16 afiIpv6 ++ (safiUnicast :: 16
        :: ((IpAddr.v6 nh).octets ++ 0 :: encodeNlri route.net))
      let origin ← pushAttr flagWellKnown attrOrigin [route.origin.wire]
      let asPath ← pushAttr flagWellKnown attrAsPath []
      let mpReach ← pushAttr flagOptNonTrans attrMpReachNlri mpReachVal
      let comms ← pushCommunities route.communities
      let large ← pushLargeCommunities route.largeCommunities
      let attrs := origin ++ (asPath ++ (mpReach ++ (comms ++ large)))
      let totalAttrLen ← u16Len attrs.length
      encodeHeader 2 (updateBody 0 totalAttrLen [] attrs [])
  | _, _ => none

def buildWithdraw (net : IpNet) : Option (List Byte) :=
  match net with
  | .v4 _ => do
      let nlri := encodeNlri net
      let withdrawnLen ← u16Len nlri.length
      encodeHeader 2 (updateBody withdrawnLen 0 nlri [] [])
  | .v6 _ => do
      let attrs ← pushAttr flagOptNonTrans attrMpUnreachNlri
        (be16 afiIpv6 ++ safiUnicast :: encodeNlri net)
      let totalAttrLen ← u16Len attrs.length
      encodeHeader 2 (updateBody 0 totalAttrLen [] attrs [])

-- =============================================================== FlowSpec

def compDstPrefix : Byte := 1

def compIpProto : Byte := 3

def compDstPort : Byte := 5

/-- `push_numeric_eq`: one operator and its value, in `lenBytes` bytes. -/
def pushNumericEq (value lenBytes : Nat) : List Byte :=
  let lenField : Byte :=
    if lenBytes = 1 then 0 else if lenBytes = 2 then 1
    else if lenBytes = 4 then 2 else 3
  (0x80 ||| (lenField <<< 4) ||| 0x01)
    :: (beBytes 8 value).drop (8 - lenBytes)

/-- The components after the destination prefix. -/
def encodeMatches (rule : FlowSpecRule) : List Byte :=
  (match rule.protocol with
    | some proto => compIpProto :: pushNumericEq proto.toNat 1
    | none => [])
  ++ (match rule.dstPort with
    | some port =>
        compDstPort
          :: pushNumericEq port.toNat (if port.toNat < 256 then 1 else 2)
    | none => [])

/-- The components of `encode_flowspec_nlri`. -/
def encodeComponents (rule : FlowSpecRule) : List Byte :=
  let dst := rule.dst.trunc
  let bits := dst.prefixLen
  let nbytes := (bits + 7) / 8
  compDstPrefix :: BitVec.ofNat 8 bits
    :: ((match dst with
        | .v4 _ => dst.addr.octets.take nbytes
        | .v6 _ => 0 :: dst.addr.octets.take nbytes)
      ++ encodeMatches rule)

/-- `encode_flowspec_nlri`. The two-byte length is `push_two_byte_len`. -/
def encodeFlowspecNlri (rule : FlowSpecRule) : Option (List Byte) :=
  let comps := encodeComponents rule
  let twoByteLen : Option (List Byte) := do
    let len ← u16Len comps.length
    return be16 (0xF000 ||| len) ++ comps
  match u8Len comps.length with
  | some len => if len < 0xF0 then some (len :: comps) else twoByteLen
  | none => twoByteLen

def trafficRateCommunity (rate : F32) : List Byte :=
  0x80 :: 0x06 :: 0 :: 0 :: be32 rate.bits

def afiOf (rule : FlowSpecRule) : BitVec 16 :=
  match rule.dst with
  | .v4 _ => 1
  | .v6 _ => 2

def buildFlowspecAnnounce (rule : FlowSpecRule) : Option (List Byte) := do
  let nlri ← encodeFlowspecNlri rule
  let mpReachVal := be16 (afiOf rule) ++ (safiFlowspec :: 0 :: 0 :: nlri)
  let origin ← pushAttr flagWellKnown attrOrigin [Origin.igp.wire]
  let asPath ← pushAttr flagWellKnown attrAsPath []
  let extended ← pushAttr flagOptTrans attrExtendedCommunities
    (trafficRateCommunity rule.action.rate)
  let mpReach ← pushAttr flagOptNonTrans attrMpReachNlri mpReachVal
  let attrs := origin ++ (asPath ++ (extended ++ mpReach))
  let totalAttrLen ← u16Len attrs.length
  encodeHeader 2 (updateBody 0 totalAttrLen [] attrs [])

def buildFlowspecWithdraw (rule : FlowSpecRule) : Option (List Byte) := do
  let nlri ← encodeFlowspecNlri rule
  let attrs ← pushAttr flagOptNonTrans attrMpUnreachNlri
    (be16 (afiOf rule) ++ safiFlowspec :: nlri)
  let totalAttrLen ← u16Len attrs.length
  encodeHeader 2 (updateBody 0 totalAttrLen [] attrs [])

end Blackwall.Bgp
