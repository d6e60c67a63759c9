/-
What a peer reads in an UPDATE (RFC 4271, with the multiprotocol
attributes of RFC 4760, the communities of RFC 1997, 4360 and 8092, and
the FlowSpec NLRI of RFC 8955 and 8956).

Nothing here is translated from the source, which never parses an UPDATE:
this is the reader its encoders are judged by. Bytes it cannot make sense
of are refused, with no more said than that.

What the peer holds (`Rib`) is the fold of the messages it is sent
(`Rib.receive`): it takes up what it reads, and a message that it cannot
read changes nothing.
-/
import Blackwall.Base.Reader
import Blackwall.Bgp.Route

namespace Blackwall.Bgp.Peer

open Base Reader

-- =============================================================== prefixes

/-- The address whose bits up to `bits` end in the first `pattern` bits of
`octets`; the others are zero. -/
def prefixAddr (w bits pattern : Nat) (octets : List Byte) : BitVec w :=
  BitVec.ofNat w (beNat octets / 2 ^ (8 * octets.length - pattern)
    * 2 ^ (w - bits))

/-- A length in bits and as many octets as hold them. -/
def readCidr (w : Nat) : Reader Unit (Cidr w) := do
  let bits ← u8 ()
  if h : bits.toNat ≤ w then
    let octets ← take ((bits.toNat + 7) / 8) ()
    return ⟨prefixAddr w bits.toNat bits.toNat octets,
      ⟨bits.toNat, Nat.lt_succ_of_le h⟩⟩
  else fail ()

/-- A prefix of the family an AFI names. -/
def readNet (afi : BitVec 16) : Reader Unit IpNet :=
  if afi = 1 then do
    let c ← readCidr 32
    return .v4 c
  else if afi = 2 then do
    let c ← readCidr 128
    return .v6 c
  else fail ()

-- =============================================================== FlowSpec

/-- An operator and its value. Relation `1` is equality. -/
structure FlowOp where
  conj : Bool
  relation : Byte
  value : Nat
  deriving DecidableEq, Repr

/-- A component of a FlowSpec NLRI. -/
inductive FlowComponent
  | dst (offset : Nat) (net : IpNet)
  | src (offset : Nat) (net : IpNet)
  | ops (type : Byte) (ops : List FlowOp)
  deriving DecidableEq, Repr

/-- The type of a component. -/
def FlowComponent.type : FlowComponent → Byte
  | .dst _ _ => 1
  | .src _ _ => 2
  | .ops type _ => type

/-- A FlowSpec NLRI. -/
structure Flow where
  afi : BitVec 16
  components : List FlowComponent
  deriving DecidableEq, Repr

/-- Operators up to the one that says it is the last. -/
def readOpsFuel : Nat → Reader Unit (List FlowOp)
  | 0 => fail ()
  | fuel + 1 => do
      let op ← u8 ()
      let value ← take (2 ^ ((op >>> 4) &&& 3).toNat) ()
      let here : FlowOp :=
        ⟨op &&& 0x40 ≠ 0, op &&& 0x0F, beNat value⟩
      if op &&& 0x80 ≠ 0 then return [here]
      else do
        let others ← readOpsFuel fuel
        return here :: others

/-- A list of operators; each takes a byte at least. -/
def readOps : Reader Unit (List FlowOp) := fun bs =>
  readOpsFuel bs.length bs

/-- A prefix component: IPv6 writes an offset, which the pattern starts
at. -/
def readFlowPrefix (afi : BitVec 16) : Reader Unit (Nat × IpNet) :=
  if afi = 1 then do
    let c ← readCidr 32
    return (0, .v4 c)
  else do
    let bits ← u8 ()
    let offset ← u8 ()
    require (offset.toNat < bits.toNat ∨ bits = 0 ∧ offset = 0) ()
    if h : bits.toNat ≤ 128 then
      let pattern := bits.toNat - offset.toNat
      let octets ← take ((pattern + 7) / 8) ()
      return (offset.toNat, .v6 ⟨prefixAddr 128 bits.toNat pattern octets,
        ⟨bits.toNat, Nat.lt_succ_of_le h⟩⟩)
    else fail ()

/-- One component. -/
def readComponent (afi : BitVec 16) : Reader Unit FlowComponent := do
  let type ← u8 ()
  if type = 1 then do
    let p ← readFlowPrefix afi
    return .dst p.1 p.2
  else if type = 2 then do
    let p ← readFlowPrefix afi
    return .src p.1 p.2
  else do
    require (3 ≤ type.toNat ∧ type.toNat ≤ 13) ()
    let ops ← readOps
    return .ops type ops

/-- The length of an NLRI: one byte, or two from `0xF0` on. -/
def readFlowLen : Reader Unit Nat := do
  let hi ← u8 ()
  if hi.toNat < 0xF0 then return hi.toNat
  else do
    let lo ← u8 ()
    return (hi.toNat - 0xF0) * 256 + lo.toNat

/-- A FlowSpec NLRI: components of ascending types. -/
def readFlow (afi : BitVec 16) : Reader Unit Flow := do
  require (afi = 1 ∨ afi = 2) ()
  let len ← readFlowLen
  let body ← take len ()
  let components ← lift (all (readComponent afi) () body)
  require ((components.map (·.type.toNat)).Pairwise (· < ·)) ()
  return ⟨afi, components⟩

-- ============================================================= attributes

/-- A path attribute; the flags are without the extended-length bit. -/
structure Attr where
  flags : Byte
  type : Byte
  value : List Byte
  deriving DecidableEq, Repr

/-- The length of an attribute. The two-byte form is for what one byte
cannot say. -/
def readAttrLen (flags : Byte) : Reader Unit Nat :=
  if flags &&& 0x10 = 0 then do
    let n ← u8 ()
    return n.toNat
  else do
    let n ← u16 ()
    require (255 < n.toNat) ()
    return n.toNat

/-- One attribute. -/
def readAttr : Reader Unit Attr := do
  let flags ← u8 ()
  let type ← u8 ()
  let len ← readAttrLen flags
  let value ← take len ()
  return ⟨flags &&& 0xEF, type, value⟩

/-- The routes of a multiprotocol attribute. -/
structure Nlri where
  nets : List IpNet
  flows : List Flow
  deriving DecidableEq, Repr

/-- Routes by their AFI and SAFI. -/
def readNlri (afi : BitVec 16) (safi : Byte) (bs : List Byte) :
    Except Unit Nlri :=
  if safi = 1 then (all (readNet afi) () bs).map (⟨·, []⟩)
  else if safi = 133 then (all (readFlow afi) () bs).map (⟨[], ·⟩)
  else .error ()

/-- A next hop; of two IPv6 addresses the first is the global one. -/
def nextHopOf (afi : BitVec 16) (octets : List Byte) : Option IpAddr :=
  if afi = 1 ∧ octets.length = 4 then
    some (.v4 (BitVec.ofNat 32 (beNat octets)))
  else if afi = 2 ∧ (octets.length = 16 ∨ octets.length = 32) then
    some (.v6 (BitVec.ofNat 128 (beNat (octets.take 16))))
  else none

/-- What an attribute says. -/
inductive Meaning
  | origin (o : Origin)
  | asPath (segments : List (Byte × List Byte))
  | nextHop (a : IpAddr)
  | communities (cs : List (BitVec 16 × BitVec 16))
  | extended (cs : List (List Byte))
  | large (cs : List (BitVec 32 × BitVec 32 × BitVec 32))
  | reach (nextHop : Option IpAddr) (nlri : Nlri)
  | unreach (nlri : Nlri)
  | other
  deriving DecidableEq, Repr

/-- The flags of an attribute of this class: no reserved bit, and the
partial bit only where it is optional and transitive. -/
def FlagsFit (cls flags : Byte) : Prop :=
  flags &&& 0xC0 = cls ∧ flags &&& 0x0F = 0
    ∧ (flags &&& 0x20 = 0 ∨ cls = 0xC0)

instance (cls flags : Byte) : Decidable (FlagsFit cls flags) :=
  inferInstanceAs (Decidable (_ ∧ _ ∧ _))

/-- A list of values, one at least. -/
def readList {α : Type} (p : Reader Unit α) (bs : List Byte) :
    Except Unit (List α) :=
  if bs.isEmpty then .error () else all p () bs

/-- An ORIGIN value. -/
def readOrigin : List Byte → Except Unit Origin
  | [b] =>
      if b = 0 then .ok .igp
      else if b = 1 then .ok .egp
      else if b = 2 then .ok .incomplete
      else .error ()
  | _ => .error ()

/-- A NEXT_HOP value. -/
def readNextHop (value : List Byte) : Except Unit Meaning :=
  match nextHopOf 1 value with
  | some nh => .ok (.nextHop nh)
  | none => .error ()

/-- A segment of an AS path: its kind and its four-octet numbers. -/
def readSegment : Reader Unit (Byte × List Byte) := do
  let kind ← u8 ()
  let count ← u8 ()
  let asns ← take (4 * count.toNat) ()
  return (kind, asns)

/-- A community. -/
def readCommunity : Reader Unit (BitVec 16 × BitVec 16) := do
  let asn ← u16 ()
  let value ← u16 ()
  return (asn, value)

/-- A large community. -/
def readLarge : Reader Unit (BitVec 32 × BitVec 32 × BitVec 32) := do
  let g ← u32 ()
  let l₁ ← u32 ()
  let l₂ ← u32 ()
  return (g, l₁, l₂)

/-- The head of an MP_REACH_NLRI value: AFI, SAFI and next hop. -/
def readReachHead : Reader Unit (BitVec 16 × Byte × List Byte) := do
  let afi ← u16 ()
  let safi ← u8 ()
  let len ← u8 ()
  let nextHop ← take len.toNat ()
  let _reserved ← u8 ()
  return (afi, safi, nextHop)

/-- The head of an MP_UNREACH_NLRI value. -/
def readUnreachHead : Reader Unit (BitVec 16 × Byte) := do
  let afi ← u16 ()
  let safi ← u8 ()
  return (afi, safi)

/-- An MP_REACH_NLRI value. -/
def readReach (value : List Byte) : Except Unit Meaning :=
  match readReachHead value with
  | .ok ((afi, safi, nextHop), rest) =>
      (readNlri afi safi rest).map (.reach (nextHopOf afi nextHop))
  | .error e => .error e

/-- An MP_UNREACH_NLRI value. -/
def readUnreach (value : List Byte) : Except Unit Meaning :=
  match readUnreachHead value with
  | .ok ((afi, safi), rest) => (readNlri afi safi rest).map .unreach
  | .error e => .error e

/-- A value that counts if the flags are of its class. -/
def classed (cls : Byte) (a : Attr) (r : Except Unit Meaning) :
    Except Unit Meaning :=
  if FlagsFit cls a.flags then r else .error ()

/-- What an attribute says; one that is not known may only be optional. -/
def meaning (a : Attr) : Except Unit Meaning :=
  if a.type = 1 then classed 0x40 a ((readOrigin a.value).map .origin)
  else if a.type = 2 then
    classed 0x40 a ((all readSegment () a.value).map .asPath)
  else if a.type = 3 then
    classed 0x40 a (readNextHop a.value)
  else if a.type = 8 then
    classed 0xC0 a ((readList readCommunity a.value).map .communities)
  else if a.type = 14 then classed 0x80 a (readReach a.value)
  else if a.type = 15 then classed 0x80 a (readUnreach a.value)
  else if a.type = 16 then
    classed 0xC0 a ((readList (take 8 ()) a.value).map .extended)
  else if a.type = 32 then
    classed 0xC0 a ((readList readLarge a.value).map .large)
  else if a.flags &&& 0x80 ≠ 0 then .ok .other
  else .error ()

-- ================================================================ updates

/-- What an UPDATE says. -/
structure Update where
  withdrawn : List IpNet
  announced : List (IpNet × IpAddr)
  flowsWithdrawn : List Flow
  flowsAnnounced : List Flow
  origin : Option Origin
  asPath : Option (List (Byte × List Byte))
  communities : List (BitVec 16 × BitVec 16)
  extended : List (List Byte)
  large : List (BitVec 32 × BitVec 32 × BitVec 32)
  deriving DecidableEq, Repr

/-- An UPDATE that says nothing. -/
def Update.empty : Update := ⟨[], [], [], [], none, none, [], [], []⟩

/-- Take up one attribute. -/
def Update.note (u : Update) : Meaning → Update
  | .origin o => { u with origin := some o }
  | .asPath segments => { u with asPath := some segments }
  | .nextHop _ => u
  | .communities cs => { u with communities := cs }
  | .extended cs => { u with extended := cs }
  | .large cs => { u with large := cs }
  | .reach nextHop nlri =>
      { u with
        announced := u.announced
          ++ nlri.nets.flatMap fun n => nextHop.toList.map (n, ·)
        flowsAnnounced := u.flowsAnnounced ++ nlri.flows }
  | .unreach nlri =>
      { u with
        withdrawn := u.withdrawn ++ nlri.nets
        flowsWithdrawn := u.flowsWithdrawn ++ nlri.flows }
  | .other => u

/-- The NEXT_HOP among the attributes. -/
def nextHopIn (ms : List Meaning) : Option IpAddr :=
  ms.findSome? fun
    | .nextHop a => some a
    | _ => none

/-- A multiprotocol route must have a next hop. -/
def Meaning.hopped : Meaning → Bool
  | .reach none nlri => nlri.nets.isEmpty
  | _ => true

/-- The parts put together. -/
def gather (withdrawn : List IpNet) (ms : List Meaning)
    (nets : List IpNet) : Update :=
  ms.foldl Update.note
    ⟨withdrawn, nets.flatMap fun n => (nextHopIn ms).toList.map (n, ·),
      [], [], none, none, [], [], []⟩

/-- No attribute comes twice, and routes come with a next hop and the
mandatory attributes. -/
structure Sound (attrs : List Attr) (ms : List Meaning)
    (nets : List IpNet) (u : Update) : Prop where
  once : (attrs.map (·.type)).Nodup
  hop : nets = [] ∨ (nextHopIn ms).isSome
  hops : ms.all Meaning.hopped
  mandatory : u.announced = [] ∧ u.flowsAnnounced = []
    ∨ u.origin.isSome ∧ u.asPath.isSome

instance (attrs : List Attr) (ms : List Meaning) (nets : List IpNet)
    (u : Update) : Decidable (Sound attrs ms nets u) :=
  decidable_of_iff (_ ∧ _ ∧ _ ∧ _)
    ⟨fun ⟨h₁, h₂, h₃, h₄⟩ => ⟨h₁, h₂, h₃, h₄⟩,
      fun h => ⟨h.once, h.hop, h.hops, h.mandatory⟩⟩

/-- The parts put together, if they are sound. -/
def assemble (withdrawn : List IpNet) (attrs : List Attr)
    (ms : List Meaning) (nets : List IpNet) : Except Unit Update :=
  if Sound attrs ms nets (gather withdrawn ms nets) then
    .ok (gather withdrawn ms nets)
  else .error ()

/-- The header: sixteen bytes of ones, the length, the type. -/
def readHeader : Reader Unit Nat := do
  let marker ← take 16 ()
  require (marker = List.replicate 16 0xFF) ()
  let len ← u16 ()
  let type ← u8 ()
  require (type = 2) ()
  return len.toNat

/-- Withdrawn routes and attributes; what is left is the routes. -/
def readBody : Reader Unit (List Byte × List Byte) := do
  let withdrawnLen ← u16 ()
  let withdrawn ← take withdrawnLen.toNat ()
  let attrLen ← u16 ()
  let attrs ← take attrLen.toNat ()
  return (withdrawn, attrs)

/-- The parts of an UPDATE: the length is that of the message, and a
message is no longer than 4096 bytes. -/
def parts (msg : List Byte) :
    Except Unit (List Byte × List Byte × List Byte) :=
  match readHeader msg with
  | .error e => .error e
  | .ok (len, body) =>
      if len = msg.length ∧ len ≤ 4096 then
        match readBody body with
        | .error e => .error e
        | .ok ((withdrawn, attrs), nlri) => .ok (withdrawn, attrs, nlri)
      else .error ()

/-- The attributes of an UPDATE, as they are written. -/
def attributes (msg : List Byte) : Except Unit (List Attr) := do
  let (_, attrs, _) ← parts msg
  all readAttr () attrs

/-- An UPDATE. -/
def parse (msg : List Byte) : Except Unit Update := do
  let (withdrawn, _, nlri) ← parts msg
  let withdrawn ← all (readNet 1) () withdrawn
  let attrs ← attributes msg
  let ms ← attrs.mapM meaning
  let nets ← all (readNet 1) () nlri
  assemble withdrawn attrs ms nets

-- ================================================================ the RIB

/-- What the peer keeps of a route or a rule: the attributes of its UPDATE.
A rule has no next hop. -/
structure Path where
  nextHop : Option IpAddr
  origin : Option Origin
  asPath : Option (List (Byte × List Byte))
  communities : List (BitVec 16 × BitVec 16)
  extended : List (List Byte)
  large : List (BitVec 32 × BitVec 32 × BitVec 32)
  deriving DecidableEq, Repr

/-- The path of what an UPDATE announces. -/
def Update.path (u : Update) (nextHop : Option IpAddr) : Path :=
  ⟨nextHop, u.origin, u.asPath, u.communities, u.extended, u.large⟩

/-- What the peer holds: routes by their prefix, rules by their match. -/
@[ext]
structure Rib where
  routes : IpNet → Option Path
  flows : Flow → Option Path

/-- A peer that has just come up. -/
def Rib.empty : Rib := ⟨fun _ => none, fun _ => none⟩

/-- Take up an UPDATE; what it withdraws goes first. -/
def Rib.learn (rib : Rib) (u : Update) : Rib where
  routes :=
    u.announced.foldl
      (fun g x => Function.update g x.1 (some (u.path (some x.2))))
      (u.withdrawn.foldl (fun g net => Function.update g net none)
        rib.routes)
  flows :=
    u.flowsAnnounced.foldl
      (fun g flow => Function.update g flow (some (u.path none)))
      (u.flowsWithdrawn.foldl (fun g flow => Function.update g flow none)
        rib.flows)

/-- A message from the wire. -/
def Rib.receive (rib : Rib) (msg : List Byte) : Rib :=
  match parse msg with
  | .ok u => rib.learn u
  | .error _ => rib

end Blackwall.Bgp.Peer
