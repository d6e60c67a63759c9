/-
The TCP half of the stateless tier's packet code
(`blackwall-deception/src/transport/packet.rs`).

Datagrams are taken apart and put together by the `etherparse` crate. Its
parser is a parameter here (`Etherparse`), and what is asked of it is
stated on the bytes: on an unfragmented TCP datagram without IP options
or extension headers it finds the fields where the RFCs put them
(`readIp`). A reply is the headers and the payload that are handed to its
writer; the checksums it fills in are left out, the length checks that
come with them are not.
-/
import Blackwall.Net
import Blackwall.Xdp.Proofs.Access

namespace Blackwall.Deception

open Base
open Xdp (byteAt be16At be32At)

-- ============================================================ the headers

/-- `etherparse::Ipv4Header`, with the payload length it was made for. -/
structure Ipv4Header where
  payloadLen : Nat
  timeToLive : Byte
  protocol : Byte
  source : BitVec 32
  destination : BitVec 32
  deriving DecidableEq, Repr

/-- `etherparse::Ipv6Header`. -/
structure Ipv6Header where
  trafficClass : Byte
  flowLabel : BitVec 20
  payloadLength : Nat
  nextHeader : Byte
  hopLimit : Byte
  source : BitVec 128
  destination : BitVec 128
  deriving DecidableEq, Repr

/-- `etherparse::TcpHeader`, as far as it is read or set. -/
structure TcpHeader where
  sourcePort : BitVec 16
  destinationPort : BitVec 16
  sequenceNumber : BitVec 32
  acknowledgmentNumber : BitVec 32
  syn : Bool
  ack : Bool
  psh : Bool
  fin : Bool
  windowSize : BitVec 16
  options : List Byte
  deriving DecidableEq, Repr

inductive NetHeaders
  | ipv4 (h : Ipv4Header)
  | ipv6 (h : Ipv6Header)
  | other
  deriving DecidableEq, Repr

inductive TransportHeader
  | tcp (h : TcpHeader)
  | other
  deriving DecidableEq, Repr

structure PacketHeaders where
  net : Option NetHeaders
  transport : Option TransportHeader
  payload : List Byte
  deriving DecidableEq, Repr

def TcpHeader.new (sourcePort destinationPort : BitVec 16)
    (sequenceNumber : BitVec 32) (windowSize : BitVec 16) : TcpHeader :=
  { sourcePort, destinationPort, sequenceNumber, windowSize
    acknowledgmentNumber := 0, syn := false, ack := false, psh := false
    fin := false, options := [] }

def TcpHeader.headerLen (h : TcpHeader) : Nat := 20 + h.options.length

/-- `Ipv4Header::new`: refused when the total length overflows. -/
def Ipv4Header.new (payloadLen : Nat) (timeToLive protocol : Byte)
    (source destination : BitVec 32) : Option Ipv4Header :=
  if payloadLen ≤ 65535 - 20 then
    some { payloadLen, timeToLive, protocol, source, destination }
  else none

-- =========================================================== the datagram

/-- The data offset of a TCP header at `o`, in words. -/
def doffAt (o : Nat) (d : List Byte) : Nat := (byteAt (o + 12) d >>> 4).toNat

/-- A whole TCP header at `o`. -/
def HasTcp (o : Nat) (d : List Byte) : Prop :=
  5 ≤ doffAt o d ∧ o + doffAt o d * 4 ≤ d.length

/-- The fields of the TCP header at `o`. -/
def tcpAt (o : Nat) (d : List Byte) : TcpHeader where
  sourcePort := be16At o d
  destinationPort := be16At (o + 2) d
  sequenceNumber := be32At (o + 4) d
  acknowledgmentNumber := be32At (o + 8) d
  syn := (byteAt (o + 13) d).getLsbD 1
  ack := (byteAt (o + 13) d).getLsbD 4
  psh := (byteAt (o + 13) d).getLsbD 3
  fin := (byteAt (o + 13) d).getLsbD 0
  windowSize := be16At (o + 14) d
  options := slice (o + 20) (doffAt o d * 4 - 20) d

/-- What follows the TCP header at `o`. -/
def tcpPayload (o : Nat) (d : List Byte) : List Byte :=
  d.drop (o + doffAt o d * 4)

/-- An unfragmented IPv4 datagram without options that carries TCP. -/
def IsTcpV4 (d : List Byte) : Prop :=
  byteAt 0 d = 0x45 ∧ (be16At 2 d).toNat = d.length
    ∧ be16At 6 d &&& 0x3FFF = 0 ∧ byteAt 9 d = 6 ∧ HasTcp 20 d

/-- An IPv6 datagram with TCP right after the header. -/
def IsTcpV6 (d : List Byte) : Prop :=
  byteAt 0 d >>> 4 = 6 ∧ 40 + (be16At 4 d).toNat = d.length
    ∧ byteAt 6 d = 6 ∧ HasTcp 40 d

instance (o : Nat) (d : List Byte) : Decidable (HasTcp o d) :=
  inferInstanceAs (Decidable (_ ∧ _))

instance (d : List Byte) : Decidable (IsTcpV4 d) :=
  inferInstanceAs (Decidable (_ ∧ _))

instance (d : List Byte) : Decidable (IsTcpV6 d) :=
  inferInstanceAs (Decidable (_ ∧ _))

/-- An address from its octets. -/
def addrAt (w o n : Nat) (d : List Byte) : BitVec w :=
  BitVec.ofNat w (beNat (slice o n d))

/-- An address read from its octets has those octets. -/
theorem beBytes_addrAt {w o n : Nat} {d : List Byte}
    (hw : 2 ^ w = 256 ^ n) (h : o + n ≤ d.length) :
    beBytes n (addrAt w o n d).toNat = slice o n d :=
  beBytes_ofNat (length_slice h) hw

def ipv4At (d : List Byte) : Ipv4Header where
  payloadLen := (be16At 2 d).toNat - 20
  timeToLive := byteAt 8 d
  protocol := byteAt 9 d
  source := addrAt 32 12 4 d
  destination := addrAt 32 16 4 d

def ipv6At (d : List Byte) : Ipv6Header where
  trafficClass := (be16At 0 d >>> 4).setWidth 8
  flowLabel := (be32At 0 d).setWidth 20
  payloadLength := (be16At 4 d).toNat
  nextHeader := byteAt 6 d
  hopLimit := byteAt 7 d
  source := addrAt 128 8 16 d
  destination := addrAt 128 24 16 d

/-- The plain TCP datagrams and what is in them. -/
def readIp (d : List Byte) : Option PacketHeaders :=
  if IsTcpV4 d then
    some { net := some (.ipv4 (ipv4At d))
           transport := some (.tcp (tcpAt 20 d))
           payload := tcpPayload 20 d }
  else if IsTcpV6 d then
    some { net := some (.ipv6 (ipv6At d))
           transport := some (.tcp (tcpAt 40 d))
           payload := tcpPayload 40 d }
  else none

/-- The parser: `PacketHeaders::from_ip_slice`, and the MSS that
`TcpHeader::options_iterator` finds first. -/
structure Etherparse where
  fromIpSlice : List Byte → Option PacketHeaders
  findMss : List Byte → Option (BitVec 16)

/-- It reads plain TCP datagrams right; what else it accepts is open. -/
def Etherparse.Correct (e : Etherparse) : Prop :=
  ∀ d h, readIp d = some h → e.fromIpSlice d = some h

-- ================================================================ parsing

def defaultClientMss : BitVec 16 := 1460

structure TcpRequestInfo where
  src : IpAddr
  srcPort : BitVec 16
  dst : IpAddr
  dstPort : BitVec 16
  syn : Bool
  ack : Bool
  ackSeq : BitVec 32
  clientMss : BitVec 16
  deriving DecidableEq, Repr

/-- The addresses of an IP header. -/
def NetHeaders.addrs : NetHeaders → Option (IpAddr × IpAddr)
  | .ipv4 h => some (.v4 h.source, .v4 h.destination)
  | .ipv6 h => some (.v6 h.source, .v6 h.destination)
  | .other => none

def parseTcpRequest (e : Etherparse) (request : List Byte) :
    Option TcpRequestInfo := do
  let headers ← e.fromIpSlice request
  let net ← headers.net
  let (src, dst) ← net.addrs
  match headers.transport with
  | some (.tcp tcp) =>
      some { src, dst
             srcPort := tcp.sourcePort
             dstPort := tcp.destinationPort
             syn := tcp.syn
             ack := tcp.ack
             ackSeq := tcp.acknowledgmentNumber
             clientMss := (e.findMss tcp.options).getD defaultClientMss }
  | _ => none

-- ================================================================ replies

def statelessWindow : BitVec 16 := 65535

/-- A finished reply datagram. -/
inductive Reply
  | v4 (ip : Ipv4Header) (tcp : TcpHeader) (payload : List Byte)
  | v6 (ip : Ipv6Header) (tcp : TcpHeader) (payload : List Byte)
  deriving DecidableEq, Repr

/-- `write_ipv4_tcp`: the checksum is refused for a segment beyond
`u16`. -/
def writeIpv4Tcp (ip4 : Ipv4Header) (tcp : TcpHeader)
    (payload : List Byte) : Option Reply :=
  if payload.length ≤ 65535 - tcp.headerLen then
    some (.v4 ip4 tcp payload)
  else none

/-- `write_ipv6_tcp`: likewise beyond `u32`. -/
def writeIpv6Tcp (ip6 : Ipv6Header) (tcp : TcpHeader)
    (payload : List Byte) : Option Reply :=
  if payload.length ≤ 2 ^ 32 - 1 - tcp.headerLen then
    some (.v6 ip6 tcp payload)
  else none

/-- `swapped_ipv6_reply`. -/
def swappedIpv6Reply (ip6 : Ipv6Header) (payloadLength : Nat) :
    Ipv6Header :=
  { ip6 with
    payloadLength
    source := ip6.destination
    destination := ip6.source }

/-- The end both builders share: addresses swapped, lengths checked. -/
def writeReply (net : NetHeaders) (tcp : TcpHeader)
    (payload : List Byte) : Option Reply :=
  let payloadLen := tcp.headerLen + payload.length
  if payloadLen ≤ 65535 then
    match net with
    | .ipv4 ip4 => do
        let ip ← Ipv4Header.new payloadLen ip4.timeToLive ip4.protocol
          ip4.destination ip4.source
        writeIpv4Tcp ip tcp payload
    | .ipv6 ip6 =>
        writeIpv6Tcp (swappedIpv6Reply ip6 payloadLen) tcp payload
    | .other => none
  else none

def tcpSynAck (e : Etherparse) (request : List Byte)
    (cookieSeq : BitVec 32) (mss : BitVec 16) : Option Reply := do
  let headers ← e.fromIpSlice request
  let net ← headers.net
  match headers.transport with
  | some (.tcp tcp) =>
      if !tcp.syn || tcp.ack then none
      else
        let reply := TcpHeader.new tcp.destinationPort tcp.sourcePort
          cookieSeq statelessWindow
        writeReply net
          { reply with
            syn := true, ack := true
            acknowledgmentNumber := tcp.sequenceNumber + 1
            options := [2, 4] ++ be16 mss } []
  | _ => none

/-- The header of `tcp_banner_fin`'s reply to a segment with
`clientPayloadLen` bytes of payload. -/
def bannerHeader (tcp : TcpHeader) (clientPayloadLen : Nat) : TcpHeader :=
  let reply := TcpHeader.new tcp.destinationPort tcp.sourcePort
    tcp.acknowledgmentNumber statelessWindow
  let replyAck := tcp.sequenceNumber + BitVec.ofNat 32 clientPayloadLen
  { reply with
    psh := true, ack := true, fin := true
    acknowledgmentNumber := replyAck }

def tcpBannerFin (e : Etherparse) (ackRequest banner : List Byte) :
    Option Reply := do
  let headers ← e.fromIpSlice ackRequest
  let net ← headers.net
  match headers.transport with
  | some (.tcp tcp) =>
      if !tcp.ack then none
      else if headers.payload.length < 2 ^ 32 then
        writeReply net (bannerHeader tcp headers.payload.length) banner
      else none
  | _ => none

end Blackwall.Deception
