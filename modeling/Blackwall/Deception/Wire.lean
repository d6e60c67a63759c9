/-
The stateless tier's replies as bytes, and the UDP and ICMP half of its
packet code (`blackwall-deception/src/transport/packet.rs`).

The TCP half reads a datagram through `Etherparse`, which knows no other
transport. Here the parser reports all four (`Parser`), and the TCP half
sees it through `Parser.tcp`. What is asked of the parser is that what it
reports is in the datagram (`Parser.Sound`): the fields of the IP header,
a transport header at the end of the extension headers, and a payload
that lies behind that. What it refuses is open.
-/
import Blackwall.Base.Checksum
import Blackwall.Deception.Packet

namespace Blackwall.Deception

open Base
open Xdp (byteAt be16At be32At)

-- ======================================================= reading a datagram

/-- The IP version. -/
def version (d : List Byte) : Nat := (byteAt 0 d >>> 4).toNat

/-- The length of the IP header, options included. -/
def ipHeaderLen (d : List Byte) : Nat :=
  if version d = 4 then (byteAt 0 d &&& 0x0F).toNat * 4 else 40

/-- The length of the datagram, as its header has it. -/
def lengthField (d : List Byte) : Nat :=
  if version d = 4 then (be16At 2 d).toNat else 40 + (be16At 4 d).toNat

/-- What the IP header says comes after it. -/
def protocolField (d : List Byte) : Byte :=
  if version d = 4 then byteAt 9 d else byteAt 6 d

def srcAddr (d : List Byte) : List Byte :=
  if version d = 4 then slice 12 4 d else slice 8 16 d

def dstAddr (d : List Byte) : List Byte :=
  if version d = 4 then slice 16 4 d else slice 24 16 d

/-- The protocols the tier answers. -/
inductive Proto
  | tcp
  | udp
  | icmp
  | icmpv6
  deriving DecidableEq, Repr

/-- `IpNumber`. -/
def Proto.number : Proto → Byte
  | .tcp => 6
  | .udp => 17
  | .icmp => 1
  | .icmpv6 => 58

/-- The extension headers of each version. -/
def isExtension (version : Nat) (number : Byte) : Bool :=
  if version = 4 then number = 51
  else number ∈ [(0 : Byte), 43, 44, 51, 60]

/-- The length of the extension header at `o`: fragment headers have
eight bytes, authentication headers count words, the others eights. -/
def extensionLen (number : Byte) (o : Nat) (d : List Byte) : Nat :=
  if number = 44 then 8
  else if number = 51 then ((byteAt (o + 1) d).toNat + 2) * 4
  else ((byteAt (o + 1) d).toNat + 1) * 8

/-- The extension headers lead from a header of kind `number` at `o` to
one of kind `number'` at `o'`. -/
inductive Leads (d : List Byte) : Byte → Nat → Byte → Nat → Prop
  | here (number : Byte) (o : Nat) : Leads d number o number o
  | extension {number number' : Byte} {o o' : Nat}
      (kind : isExtension (version d) number = true)
      (rest : Leads d (byteAt o d) (o + extensionLen number o d)
        number' o') :
      Leads d number o number' o'

/-- A header of the protocol at `o`, found from the IP header. -/
def TransportAt (k : Proto) (o : Nat) (d : List Byte) : Prop :=
  Leads d (protocolField d) (ipHeaderLen d) k.number o

-- ============================================================== the parser

structure UdpHeader where
  sourcePort : BitVec 16
  destinationPort : BitVec 16
  length : BitVec 16
  checksum : BitVec 16
  deriving DecidableEq, Repr

/-- `Icmpv4Type` and `Icmpv6Type`, as far as they are told apart: an echo
request with its identifier and sequence number. -/
inductive IcmpType
  | echoRequest (id seq : BitVec 16)
  | other
  deriving DecidableEq, Repr

/-- `TransportHeader`, with all transports. -/
inductive Transport
  | tcp (h : TcpHeader)
  | udp (h : UdpHeader)
  | icmpv4 (t : IcmpType)
  | icmpv6 (t : IcmpType)
  deriving DecidableEq, Repr

/-- `PacketHeaders`, likewise. -/
structure Headers where
  net : Option NetHeaders
  transport : Option Transport
  payload : List Byte
  deriving DecidableEq, Repr

/-- `PacketHeaders::from_ip_slice`, and the MSS of
`TcpHeader::options_iterator`. -/
structure Parser where
  fromIpSlice : List Byte → Option Headers
  findMss : List Byte → Option (BitVec 16)

/-- What the TCP half sees of a transport header. -/
def Transport.narrow : Transport → TransportHeader
  | .tcp h => .tcp h
  | _ => .other

def Headers.narrow (h : Headers) : PacketHeaders :=
  { net := h.net
    transport := h.transport.map Transport.narrow
    payload := h.payload }

/-- The parser as the TCP half sees it. -/
def Parser.tcp (e : Parser) : Etherparse where
  fromIpSlice d := (e.fromIpSlice d).map Headers.narrow
  findMss := e.findMss

-- ------------------------------------------------------- what it may report

/-- The header is the one the datagram starts with. -/
def NetHeaders.At (d : List Byte) : NetHeaders → Prop
  | .ipv4 ip =>
      version d = 4 ∧ 20 ≤ ipHeaderLen d ∧ ipHeaderLen d ≤ d.length
        ∧ ip = { ipv4At d with
          payloadLen := (be16At 2 d).toNat - ipHeaderLen d }
  | .ipv6 ip => version d = 6 ∧ 40 ≤ d.length ∧ ip = ipv6At d
  | .other => True

/-- An echo request at `o` whose type has the number `request`. -/
def IcmpType.At (request : Byte) (o : Nat) (d : List Byte) :
    IcmpType → Prop
  | .echoRequest id seq =>
      byteAt o d = request ∧ byteAt (o + 1) d = 0
        ∧ id = be16At (o + 4) d ∧ seq = be16At (o + 6) d
  | .other => True

def Transport.proto : Transport → Proto
  | .tcp _ => .tcp
  | .udp _ => .udp
  | .icmpv4 _ => .icmp
  | .icmpv6 _ => .icmpv6

/-- `header_len` of a transport header, of the echo headers for ICMP. -/
def Transport.headerLen : Transport → Nat
  | .tcp h => h.headerLen
  | _ => 8

/-- The header is what stands at `o`. -/
def Transport.At (o : Nat) (d : List Byte) : Transport → Prop
  | .tcp h => HasTcp o d ∧ h = tcpAt o d
  | .udp h =>
      o + 8 ≤ d.length ∧ h.sourcePort = be16At o d
        ∧ h.destinationPort = be16At (o + 2) d
        ∧ h.length = be16At (o + 4) d ∧ h.checksum = be16At (o + 6) d
  | .icmpv4 t => o + 8 ≤ d.length ∧ t.At 8 o d
  | .icmpv6 t => o + 8 ≤ d.length ∧ t.At 128 o d

/-- What is reported is in the datagram, and the payload lies behind the
transport header. -/
structure Headers.In (d : List Byte) (h : Headers) : Prop where
  net : ∀ net, h.net = some net → net.At d
  transport : ∀ net t, h.net = some net → net ≠ .other →
    h.transport = some t →
    ∃ o, TransportAt t.proto o d ∧ t.At o d
      ∧ ∃ start n, o + t.headerLen ≤ start
        ∧ h.payload = slice start n d

/-- The parser reports what is there. -/
def Parser.Sound (e : Parser) : Prop :=
  ∀ d h, e.fromIpSlice d = some h → h.In d

-- ========================================================= writing headers

/-- A header with its checksum between `front` and `rest`, where `pseudo`
is summed with them. -/
def withSum (sum : List Byte → BitVec 16) (pseudo front rest : List Byte) :
    List Byte :=
  front ++ (be16 (sum (pseudo ++ front ++ rest)) ++ rest)

/-- The first ten bytes of an IPv4 header: no options, not to be
fragmented, identification 0. -/
def Ipv4Header.front (ip : Ipv4Header) : List Byte :=
  [0x45, 0] ++ be16 (BitVec.ofNat 16 (20 + ip.payloadLen))
    ++ [0, 0, 0x40, 0, ip.timeToLive, ip.protocol]

/-- `Ipv4Header::write`, after `calc_header_checksum`. -/
def Ipv4Header.write (ip : Ipv4Header) : List Byte :=
  withSum checksum [] ip.front
    (beBytes 4 ip.source.toNat ++ beBytes 4 ip.destination.toNat)

/-- The first eight bytes of an IPv6 header. -/
def Ipv6Header.front (ip : Ipv6Header) : List Byte :=
  be32 (BitVec.ofNat 32 (6 * 2 ^ 28 + ip.trafficClass.toNat * 2 ^ 20
      + ip.flowLabel.toNat))
    ++ be16 (BitVec.ofNat 16 ip.payloadLength)
    ++ [ip.nextHeader, ip.hopLimit]

/-- `Ipv6Header::write`. -/
def Ipv6Header.write (ip : Ipv6Header) : List Byte :=
  ip.front
    ++ (beBytes 16 ip.source.toNat ++ beBytes 16 ip.destination.toNat)

def NetHeaders.write : NetHeaders → List Byte
  | .ipv4 ip => ip.write
  | .ipv6 ip => ip.write
  | .other => []

/-- The pseudo-header of a segment of `len` bytes. -/
def NetHeaders.pseudo (number : Byte) (len : Nat) : NetHeaders → List Byte
  | .ipv4 ip =>
      beBytes 4 ip.source.toNat ++ beBytes 4 ip.destination.toNat
        ++ ([0, number] ++ be16 (BitVec.ofNat 16 len))
  | .ipv6 ip =>
      beBytes 16 ip.source.toNat ++ beBytes 16 ip.destination.toNat
        ++ (be32 (BitVec.ofNat 32 len) ++ [0, 0, 0, number])
  | .other => []

/-- The flags of a TCP header; those it has no field for are not set. -/
def TcpHeader.flags (h : TcpHeader) : Byte :=
  BitVec.ofNat 8 (h.fin.toNat + 2 * h.syn.toNat + 8 * h.psh.toNat
    + 16 * h.ack.toNat)

/-- A TCP header up to its checksum. -/
def TcpHeader.front (h : TcpHeader) : List Byte :=
  be16 h.sourcePort ++ be16 h.destinationPort ++ be32 h.sequenceNumber
    ++ be32 h.acknowledgmentNumber
    ++ [BitVec.ofNat 8 (h.headerLen / 4 * 16), h.flags]
    ++ be16 h.windowSize

/-- `TcpHeader::write` after `calc_checksum_ipv4` or `_ipv6`, and the
payload. -/
def tcpSegment (net : NetHeaders) (h : TcpHeader) (payload : List Byte) :
    List Byte :=
  withSum checksum
    (net.pseudo Proto.tcp.number (h.headerLen + payload.length)) h.front
    (be16 0 ++ h.options ++ payload)

/-- The datagram a reply of the TCP half is written as. -/
def Reply.write : Reply → List Byte
  | .v4 ip tcp payload =>
      ip.write ++ tcpSegment (.ipv4 ip) tcp payload
  | .v6 ip tcp payload =>
      ip.write ++ tcpSegment (.ipv6 ip) tcp payload

/-- `UdpHeader::with_ipv4_checksum` and `_ipv6_checksum`, written and with
the payload: refused beyond `u16`. -/
def udpSegment (net : NetHeaders) (sourcePort destinationPort : BitVec 16)
    (payload : List Byte) : Option (List Byte) :=
  let len := 8 + payload.length
  if len ≤ 65535 then
    some (withSum checksumNoZero (net.pseudo Proto.udp.number len)
      (be16 sourcePort ++ be16 destinationPort
        ++ be16 (BitVec.ofNat 16 len)) payload)
  else none

/-- An echo message whose type has the number `kind`. -/
def echoSegment (pseudo : List Byte) (kind : Byte) (id seq : BitVec 16)
    (payload : List Byte) : List Byte :=
  withSum checksum pseudo [kind, 0] (be16 id ++ be16 seq ++ payload)

-- ================================================================= replies

/-- The IP header of a reply: `Ipv4Header::new` with the addresses
swapped, or `swapped_ipv6_reply`. -/
def replyHeader (net : NetHeaders) (payloadLen : Nat) :
    Option NetHeaders :=
  match net with
  | .ipv4 ip4 => do
      let ip ← Ipv4Header.new payloadLen ip4.timeToLive ip4.protocol
        ip4.destination ip4.source
      some (.ipv4 ip)
  | .ipv6 ip6 => some (.ipv6 (swappedIpv6Reply ip6 payloadLen))
  | .other => none

def udpResponse (e : Parser) (request payload : List Byte) :
    Option (List Byte) := do
  let headers ← e.fromIpSlice request
  let net ← headers.net
  match headers.transport with
  | some (.udp udp) =>
      let requestPayloadLen := headers.payload.length
      if requestPayloadLen = 0 then none
      else
        -- never reply with more than was received
        let replyPayload := payload.take
          (min payload.length requestPayloadLen)
        let udpLen := 8 + replyPayload.length
        if udpLen ≤ 65535 then do
          let replyIp ← replyHeader net udpLen
          let segment ← udpSegment replyIp udp.destinationPort
            udp.sourcePort replyPayload
          some (replyIp.write ++ segment)
        else none
  | _ => none

def ethHeaderLen : Nat := 14

/-- `ETHERTYPE_IPV4`. -/
def ethertypeIpv4 : List Byte := [0x08, 0x00]

/-- `udp_l2_response`. -/
def udpL2Response (e : Parser) (frame payload : List Byte) :
    Option (List Byte) :=
  if frame.length < ethHeaderLen then none
  else if slice 12 2 frame ≠ ethertypeIpv4 then none
  else do
    let ipReply ← udpResponse e (frame.drop ethHeaderLen) payload
    some (slice 6 6 frame ++ slice 0 6 frame ++ ethertypeIpv4 ++ ipReply)

def icmpEchoReply (e : Parser) (request : List Byte) :
    Option (List Byte) := do
  let headers ← e.fromIpSlice request
  match headers.net, headers.transport with
  | some (.ipv4 ip), some (.icmpv4 (.echoRequest id seq)) =>
      let segment := echoSegment [] 0 id seq headers.payload
      if segment.length ≤ 65535 then do
        let replyIp ← replyHeader (.ipv4 ip) segment.length
        some (replyIp.write ++ segment)
      else none
  | _, _ => none

/-- `icmpv6_echo_reply`; the checksum is refused beyond `u32`. -/
def icmpv6EchoReply (e : Parser) (request : List Byte) :
    Option (List Byte) := do
  let headers ← e.fromIpSlice request
  match headers.net, headers.transport with
  | some (.ipv6 ip), some (.icmpv6 (.echoRequest id seq)) =>
      let payload := headers.payload
      let len := 8 + payload.length
      if len ≤ 2 ^ 32 - 1 ∧ len ≤ 65535 then do
        let replyIp ← replyHeader (.ipv6 ip) len
        some (replyIp.write ++ echoSegment
          (replyIp.pseudo Proto.icmpv6.number len) 129 id seq payload)
      else none
  | _, _ => none

/-- The functions that answer a datagram, with what else they are
given. -/
inductive Responder
  | tcpSynAck (cookieSeq : BitVec 32) (mss : BitVec 16)
  | tcpBannerFin (banner : List Byte)
  | udpResponse (payload : List Byte)
  | icmpEchoReply
  | icmpv6EchoReply
  deriving DecidableEq, Repr

def Responder.proto : Responder → Proto
  | .tcpSynAck .. => .tcp
  | .tcpBannerFin _ => .tcp
  | .udpResponse _ => .udp
  | .icmpEchoReply => .icmp
  | .icmpv6EchoReply => .icmpv6

/-- The datagram a function answers with, if it does. -/
def Responder.reply (e : Parser) (request : List Byte) :
    Responder → Option (List Byte)
  | .tcpSynAck cookieSeq mss =>
      (Deception.tcpSynAck e.tcp request cookieSeq mss).map Reply.write
  | .tcpBannerFin banner =>
      (Deception.tcpBannerFin e.tcp request banner).map Reply.write
  | .udpResponse payload => Deception.udpResponse e request payload
  | .icmpEchoReply => Deception.icmpEchoReply e request
  | .icmpv6EchoReply => Deception.icmpv6EchoReply e request

end Blackwall.Deception
