/-
What the stateless tier's replies look like to whoever receives them.

`Answers` says what a good reply is, on the bytes of the request and of
the reply. Every reply is a new IP header and a segment right after it
(`Built`). The header is read back as it was written (`WrittenAs`) and
the segment has its ports and its checksum in place (`Sealed`), so all
but one of the conditions hold of every reply. The header's protocol
field is the exception: it is a copy of the request's, which names the
first extension header if there is one.
-/
import Blackwall.Deception.Wire

namespace Blackwall.Deception

open Base
open Xdp (byteAt be16At be32At)

-- ========================================================== the statement

/-- What follows the IP header. -/
def ipPayload (d : List Byte) : List Byte := d.drop (ipHeaderLen d)

/-- The pseudo-header for the IP payload of a datagram. -/
def pseudoHeader (number : Byte) (d : List Byte) : List Byte :=
  srcAddr d ++ dstAddr d
    ++ if version d = 4 then
        [0, number] ++ be16 (BitVec.ofNat 16 (ipPayload d).length)
      else be32 (BitVec.ofNat 32 (ipPayload d).length) ++ [0, 0, 0, number]

/-- What a transport checksum covers: ICMP has no pseudo-header. -/
def Proto.covered (k : Proto) (pseudo segment : List Byte) : List Byte :=
  if k = .icmp then segment else pseudo ++ segment

/-- A whole header of the protocol, and the length it gives. -/
def Proto.IsSegment (segment : List Byte) : Proto → Prop
  | .tcp => HasTcp 0 segment
  | .udp => 8 ≤ segment.length ∧ (be16At 4 segment).toNat = segment.length
  | .icmp => 8 ≤ segment.length
  | .icmpv6 => 8 ≤ segment.length

def Proto.hasPorts : Proto → Bool
  | .tcp | .udp => true
  | .icmp | .icmpv6 => false

/-- `reply` is a complete datagram with a segment of the protocol right
after its IP header, from the destination of `request` to its source,
where the transport header of `request` is at `o`. -/
structure Answers (k : Proto) (request : List Byte) (o : Nat)
    (reply : List Byte) : Prop where
  version : version reply = version request
  length : lengthField reply = reply.length
  unfragmented : Deception.version reply = 4 →
    be16At 6 reply &&& 0x3FFF = 0
  headerSum : Deception.version reply = 4 →
    verifies (reply.take (ipHeaderLen reply))
  protocol : protocolField reply = k.number
  src : srcAddr reply = dstAddr request
  dst : dstAddr reply = srcAddr request
  segment : k.IsSegment (ipPayload reply)
  srcPort : k.hasPorts = true →
    be16At 0 (ipPayload reply) = be16At (o + 2) request
  dstPort : k.hasPorts = true →
    be16At 2 (ipPayload reply) = be16At o request
  checksum : verifies
    (k.covered (pseudoHeader k.number reply) (ipPayload reply))

/-- The reply answers what the request's extension headers lead to. -/
def WellFormed (k : Proto) (request reply : List Byte) : Prop :=
  ∃ o, TransportAt k o request ∧ Answers k request o reply

-- ============================================================= the header

namespace NetHeaders

def version : NetHeaders → Nat
  | .ipv4 _ => 4
  | .ipv6 _ => 6
  | .other => 0

def protocol : NetHeaders → Byte
  | .ipv4 ip => ip.protocol
  | .ipv6 ip => ip.nextHeader
  | .other => 0

def src : NetHeaders → List Byte
  | .ipv4 ip => beBytes 4 ip.source.toNat
  | .ipv6 ip => beBytes 16 ip.source.toNat
  | .other => []

def dst : NetHeaders → List Byte
  | .ipv4 ip => beBytes 4 ip.destination.toNat
  | .ipv6 ip => beBytes 16 ip.destination.toNat
  | .other => []

end NetHeaders

/-- `d` reads as the header `net` and then `segment`. -/
structure WrittenAs (net : NetHeaders) (segment d : List Byte) : Prop where
  version : version d = net.version
  length : lengthField d = d.length
  unfragmented : Deception.version d = 4 → be16At 6 d &&& 0x3FFF = 0
  headerSum : Deception.version d = 4 →
    verifies (d.take (ipHeaderLen d))
  protocol : protocolField d = net.protocol
  src : srcAddr d = net.src
  dst : dstAddr d = net.dst
  payload : ipPayload d = segment

/-- A header with its checksum filled in verifies. -/
theorem verifies_withSum {sum : List Byte → BitVec 16}
    {pseudo front rest : List Byte} (hp : pseudo.length % 2 = 0)
    (hf : front.length % 2 = 0)
    (hsum : sum = checksum ∨ sum = checksumNoZero) :
    verifies (pseudo ++ withSum sum pseudo front rest) := by
  rw [withSum, ← List.append_assoc]
  refine verifies_around ?_ ?_
  · rw [List.length_append]
    omega
  · rcases hsum with rfl | rfl
    · exact .inl rfl
    · exact .inr rfl

theorem Ipv4Header.length_write (ip : Ipv4Header) :
    ip.write.length = 20 := by
  simp [Ipv4Header.write, withSum, Ipv4Header.front]

theorem Ipv6Header.length_write (ip : Ipv6Header) :
    ip.write.length = 40 := by
  simp [Ipv6Header.write, Ipv6Header.front]

/-- Twelve bytes and the addresses. -/
theorem Ipv4Header.write_eq (ip : Ipv4Header) :
    ∃ sum, ip.write = ip.front ++ be16 sum
      ++ (beBytes 4 ip.source.toNat ++ beBytes 4 ip.destination.toNat) := by
  rw [Ipv4Header.write, withSum, ← List.append_assoc ip.front (be16 _)]
  exact ⟨_, rfl⟩

@[simp] theorem Ipv4Header.length_front (ip : Ipv4Header) :
    ip.front.length = 10 := by
  simp [Ipv4Header.front]

theorem written_ipv4 {ip : Ipv4Header} {segment : List Byte}
    (hlen : ip.payloadLen = segment.length) (hmax : ip.payloadLen ≤ 65515) :
    WrittenAs (.ipv4 ip) segment (ip.write ++ segment) := by
  obtain ⟨sum, hwrite⟩ := ip.write_eq
  have hbyte : byteAt 0 (ip.write ++ segment) = 0x45 := rfl
  have hversion : version (ip.write ++ segment) = 4 := by
    rw [version, hbyte]
    rfl
  have hheader : ipHeaderLen (ip.write ++ segment) = 20 := by
    rw [ipHeaderLen, if_pos hversion, hbyte]
    rfl
  have hword : be16At 2 (ip.write ++ segment)
      = BitVec.ofNat 16 (20 + ip.payloadLen) := word16_be16 _
  have hfrag : be16At 6 (ip.write ++ segment) = word16 0x40 0 := rfl
  have hsrc : slice 12 4 (ip.write ++ segment)
      = beBytes 4 ip.source.toNat := by
    rw [hwrite, List.append_assoc, List.append_assoc (beBytes _ _)]
    exact slice_middle (by simp) (length_beBytes _ _)
  have hdst : slice 16 4 (ip.write ++ segment)
      = beBytes 4 ip.destination.toNat := by
    rw [hwrite, ← List.append_assoc, List.append_assoc _ _ segment]
    exact slice_middle (by simp) (length_beBytes _ _)
  refine ⟨hversion, ?_, fun _ => ?_, fun _ => ?_, ?_, ?_, ?_, ?_⟩
  · rw [lengthField, if_pos hversion, hword, BitVec.toNat_ofNat,
      List.length_append, ip.length_write]
    omega
  · rw [hfrag]
    decide
  · rw [hheader, List.take_left' ip.length_write]
    show verifies ([] ++ withSum checksum [] ip.front _)
    exact verifies_withSum rfl (by simp) (.inl rfl)
  · rw [protocolField, if_pos hversion]
    rfl
  · rw [srcAddr, if_pos hversion, hsrc]
    rfl
  · rw [dstAddr, if_pos hversion, hdst]
    rfl
  · rw [ipPayload, hheader, List.drop_left' ip.length_write]

/-- The first byte of an IPv6 header starts with the version. -/
theorem version_ipv6 (ip : Ipv6Header) (segment : List Byte) :
    version (ip.write ++ segment) = 6 := by
  have htc := ip.trafficClass.isLt
  have hfl := ip.flowLabel.isLt
  have hbyte : byteAt 0 (ip.write ++ segment)
      = ((BitVec.ofNat 32 (6 * 2 ^ 28 + ip.trafficClass.toNat * 2 ^ 20
        + ip.flowLabel.toNat) >>> 16).setWidth 16 >>> 8).setWidth 8 := rfl
  rw [version, hbyte]
  simp only [BitVec.toNat_ushiftRight, BitVec.toNat_setWidth,
    BitVec.toNat_ofNat, Nat.shiftRight_eq_div_pow]
  omega

theorem written_ipv6 {ip : Ipv6Header} {segment : List Byte}
    (hlen : ip.payloadLength = segment.length)
    (hmax : ip.payloadLength ≤ 65535) :
    WrittenAs (.ipv6 ip) segment (ip.write ++ segment) := by
  have hversion := version_ipv6 ip segment
  have hnot : version (ip.write ++ segment) ≠ 4 := by omega
  have hheader : ipHeaderLen (ip.write ++ segment) = 40 := by
    rw [ipHeaderLen, if_neg hnot]
  have hword : be16At 4 (ip.write ++ segment)
      = BitVec.ofNat 16 ip.payloadLength := word16_be16 _
  have hsrc : slice 8 16 (ip.write ++ segment)
      = beBytes 16 ip.source.toNat := by
    rw [Ipv6Header.write, List.append_assoc, List.append_assoc]
    exact slice_middle rfl (length_beBytes _ _)
  have hdst : slice 24 16 (ip.write ++ segment)
      = beBytes 16 ip.destination.toNat := by
    rw [Ipv6Header.write, ← List.append_assoc,
      List.append_assoc _ _ segment]
    refine slice_middle ?_ (length_beBytes _ _)
    rw [List.length_append, length_beBytes]
    rfl
  refine ⟨hversion, ?_, fun h => absurd h hnot, fun h => absurd h hnot,
    ?_, ?_, ?_, ?_⟩
  · rw [lengthField, if_neg hnot, hword, BitVec.toNat_ofNat,
      List.length_append, ip.length_write]
    omega
  · rw [protocolField, if_neg hnot]
    rfl
  · rw [srcAddr, if_neg hnot, hsrc]
    rfl
  · rw [dstAddr, if_neg hnot, hdst]
    rfl
  · rw [ipPayload, hheader, List.drop_left' ip.length_write]

/-- The receiver sums the pseudo-header the sender summed. -/
theorem WrittenAs.pseudo {net : NetHeaders} {segment d : List Byte}
    (h : WrittenAs net segment d) (hnet : net ≠ .other) (number : Byte) :
    pseudoHeader number d = net.pseudo number segment.length := by
  rw [pseudoHeader, h.src, h.dst, h.payload, h.version]
  cases net with
  | ipv4 ip => rfl
  | ipv6 ip => rfl
  | other => exact absurd rfl hnet

-- ------------------------------------------------ the request's own header

section Request

variable {d : List Byte}

/-- What a datagram's header is reported as is what its bytes say. -/
theorem NetHeaders.At.reads {net : NetHeaders} (h : net.At d)
    (hnet : net ≠ .other) :
    Deception.version d = net.version ∧ protocolField d = net.protocol
      ∧ srcAddr d = net.src ∧ dstAddr d = net.dst := by
  cases net with
  | ipv4 ip =>
      obtain ⟨hversion, hmin, hmax, rfl⟩ := h
      rw [protocolField, srcAddr, dstAddr, if_pos hversion,
        if_pos hversion, if_pos hversion]
      refine ⟨hversion, rfl, ?_, ?_⟩
      · exact (beBytes_addrAt (by decide) (by omega)).symm
      · exact (beBytes_addrAt (by decide) (by omega)).symm
  | ipv6 ip =>
      obtain ⟨hversion, hlen, rfl⟩ := h
      have hnot : Deception.version d ≠ 4 := by omega
      rw [protocolField, srcAddr, dstAddr, if_neg hnot, if_neg hnot,
        if_neg hnot]
      refine ⟨hversion, rfl, ?_, ?_⟩
      · exact (beBytes_addrAt (by decide) (by omega)).symm
      · exact (beBytes_addrAt (by decide) (by omega)).symm
  | other => exact absurd rfl hnet

end Request

/-- A reply's header is the request's with the addresses swapped, and is
read as it was written. -/
theorem replyHeader_spec {net reply : NetHeaders} {segment : List Byte}
    (hlen : segment.length ≤ 65535)
    (h : replyHeader net segment.length = some reply) :
    net ≠ .other ∧ reply ≠ .other ∧ reply.version = net.version
      ∧ reply.protocol = net.protocol ∧ reply.src = net.dst
      ∧ reply.dst = net.src
      ∧ WrittenAs reply segment (reply.write ++ segment) := by
  cases net with
  | ipv4 ip4 =>
      obtain ⟨ip, hnew, hreply⟩ := Option.bind_eq_some_iff.mp h
      obtain rfl := Option.some.inj hreply
      rw [Ipv4Header.new] at hnew
      split at hnew
      · next hmax =>
        obtain rfl := Option.some.inj hnew
        exact ⟨nofun, nofun, rfl, rfl, rfl, rfl, written_ipv4 rfl hmax⟩
      · cases hnew
  | ipv6 ip6 =>
      obtain rfl := Option.some.inj h
      exact ⟨nofun, nofun, rfl, rfl, rfl, rfl, written_ipv6 rfl hlen⟩
  | other => cases h

-- =========================================================== the segments

/-- A segment from `src` to `dst` with its checksum in place, to go behind
the header `net`. -/
structure Sealed (k : Proto) (net : NetHeaders) (src dst : BitVec 16)
    (segment : List Byte) : Prop where
  whole : k.IsSegment segment
  srcPort : k.hasPorts = true → be16At 0 segment = src
  dstPort : k.hasPorts = true → be16At 2 segment = dst
  sum : verifies
    (k.covered (net.pseudo k.number segment.length) segment)

theorem length_pseudo (net : NetHeaders) (number : Byte) (len : Nat) :
    (net.pseudo number len).length % 2 = 0 := by
  cases net <;> simp [NetHeaders.pseudo]

@[simp] theorem TcpHeader.length_front (h : TcpHeader) :
    h.front.length = 16 := by
  simp [TcpHeader.front]

theorem length_tcpSegment (net : NetHeaders) (h : TcpHeader)
    (payload : List Byte) :
    (tcpSegment net h payload).length = h.headerLen + payload.length := by
  simp [tcpSegment, withSum, TcpHeader.headerLen]
  omega

theorem sealed_tcp (net : NetHeaders) {h : TcpHeader}
    (payload : List Byte) (hwords : h.headerLen % 4 = 0)
    (hmax : h.headerLen ≤ 60) :
    Sealed .tcp net h.sourcePort h.destinationPort
      (tcpSegment net h payload) := by
  have hlen := length_tcpSegment net h payload
  have hmin : 20 ≤ h.headerLen := Nat.le_add_right 20 _
  have hdoff : doffAt 0 (tcpSegment net h payload) = h.headerLen / 4 := by
    have hbyte : byteAt 12 (tcpSegment net h payload)
        = BitVec.ofNat 8 (h.headerLen / 4 * 16) := rfl
    rw [doffAt, Nat.zero_add, hbyte, BitVec.toNat_ushiftRight,
      BitVec.toNat_ofNat, Nat.shiftRight_eq_div_pow]
    omega
  refine ⟨?_, fun _ => word16_be16 _, fun _ => word16_be16 _, ?_⟩
  · show HasTcp 0 _
    rw [HasTcp, hdoff, hlen]
    omega
  · rw [hlen]
    exact verifies_withSum (length_pseudo _ _ _) (by simp) (.inl rfl)

theorem udpSegment_spec {net : NetHeaders} {src dst : BitVec 16}
    {payload segment : List Byte}
    (h : udpSegment net src dst payload = some segment) :
    segment.length = 8 + payload.length ∧ segment.drop 8 = payload
      ∧ Sealed .udp net src dst segment := by
  rw [udpSegment] at h
  split at h
  · next hmax =>
    obtain rfl := Option.some.inj h
    generalize hseg : withSum checksumNoZero _ _ payload = segment
    have hlen : segment.length = 8 + payload.length := by
      rw [← hseg]
      simp [withSum]
      omega
    have hword : be16At 4 segment
        = BitVec.ofNat 16 (8 + payload.length) := by
      rw [← hseg]
      exact word16_be16 _
    refine ⟨hlen, ?_, ⟨by omega, ?_⟩, fun _ => ?_, fun _ => ?_, ?_⟩
    · rw [← hseg]
      rfl
    · rw [hword, BitVec.toNat_ofNat, hlen]
      omega
    · rw [← hseg]
      exact word16_be16 _
    · rw [← hseg]
      exact word16_be16 _
    · rw [hlen, ← hseg]
      exact verifies_withSum (length_pseudo _ _ _) (by simp) (.inr rfl)
  · cases h

theorem length_echoSegment (pseudo : List Byte) (kind : Byte)
    (id seq : BitVec 16) (payload : List Byte) :
    (echoSegment pseudo kind id seq payload).length
      = 8 + payload.length := by
  simp [echoSegment, withSum]
  omega

theorem sealed_icmp (net : NetHeaders) (kind : Byte)
    (id seq src dst : BitVec 16) (payload : List Byte) :
    Sealed .icmp net src dst (echoSegment [] kind id seq payload) := by
  refine ⟨?_, nofun, nofun, ?_⟩
  · rw [Proto.IsSegment, length_echoSegment]
    omega
  · show verifies ([] ++ withSum checksum [] [kind, 0] _)
    exact verifies_withSum rfl (by simp) (.inl rfl)

theorem sealed_icmpv6 (net : NetHeaders) (kind : Byte)
    (id seq src dst : BitVec 16) (payload : List Byte) :
    Sealed .icmpv6 net src dst
      (echoSegment (net.pseudo Proto.icmpv6.number (8 + payload.length))
        kind id seq payload) := by
  refine ⟨?_, nofun, nofun, ?_⟩
  · rw [Proto.IsSegment, length_echoSegment]
    omega
  · rw [length_echoSegment]
    exact verifies_withSum (length_pseudo _ _ _) (by simp) (.inl rfl)

-- ============================================================ the builders

/-- What every function that answers does: a new header for the request's,
and a sealed segment for its transport header. -/
def Built (k : Proto) (request reply : List Byte) : Prop :=
  ∃ net ip o segment, net.At request ∧ TransportAt k o request
    ∧ segment.length ≤ 65535
    ∧ replyHeader net segment.length = some ip
    ∧ Sealed k ip (be16At (o + 2) request) (be16At o request) segment
    ∧ reply = ip.write ++ segment

/-- A built reply is good exactly if the request names its transport right
away. -/
theorem Built.wellFormed_iff {k : Proto} {request reply : List Byte}
    (h : Built k request reply) :
    WellFormed k request reply ↔ protocolField request = k.number := by
  obtain ⟨net, ip, o, segment, hat, ho, hlen, hip, hseal, rfl⟩ := h
  obtain ⟨hnet, hip', hversion, hprotocol, hsrc, hdst, hw⟩ :=
    replyHeader_spec hlen hip
  obtain ⟨hreq, hreqProto, hreqSrc, hreqDst⟩ := hat.reads hnet
  have hcopy : protocolField (ip.write ++ segment)
      = protocolField request := by
    rw [hw.protocol, hprotocol, hreqProto]
  constructor
  · rintro ⟨o', -, hgood⟩
    rw [← hcopy, hgood.protocol]
  · intro hnumber
    refine ⟨o, ho, ?_⟩
    exact {
      version := by rw [hw.version, hversion, hreq]
      length := hw.length
      unfragmented := hw.unfragmented
      headerSum := hw.headerSum
      protocol := hcopy.trans hnumber
      src := by rw [hw.src, hsrc, hreqDst]
      dst := by rw [hw.dst, hdst, hreqSrc]
      segment := by rw [hw.payload]; exact hseal.whole
      srcPort := by rw [hw.payload]; exact hseal.srcPort
      dstPort := by rw [hw.payload]; exact hseal.dstPort
      checksum := by
        rw [hw.pseudo hip', hw.payload]
        exact hseal.sum }

section Builders

variable {e : Parser} {request reply : List Byte}

/-- What `udp_response` answers with. -/
theorem udpResponse_inv {payload : List Byte}
    (h : udpResponse e request payload = some reply) :
    ∃ headers net udp ip segment, e.fromIpSlice request = some headers
      ∧ headers.net = some net ∧ headers.transport = some (.udp udp)
      ∧ headers.payload.length ≠ 0 ∧ segment.length ≤ 65535
      ∧ segment.length = 8 + min payload.length headers.payload.length
      ∧ replyHeader net segment.length = some ip
      ∧ udpSegment ip udp.destinationPort udp.sourcePort
        (payload.take headers.payload.length) = some segment
      ∧ reply = ip.write ++ segment := by
  rw [udpResponse] at h
  obtain ⟨headers, hparse, h⟩ := Option.bind_eq_some_iff.mp h
  obtain ⟨net, hnet, h⟩ := Option.bind_eq_some_iff.mp h
  split at h
  · next udp hudp =>
    have htake : payload.take (min payload.length headers.payload.length)
        = payload.take headers.payload.length := by
      rw [Nat.min_comm, ← List.take_take, List.take_length]
    simp only [htake, List.length_take] at h
    split at h
    · cases h
    next hne =>
    split at h
    · next hmax =>
      obtain ⟨ip, hip, h⟩ := Option.bind_eq_some_iff.mp h
      obtain ⟨segment, hseg, h⟩ := Option.bind_eq_some_iff.mp h
      have hlen := (udpSegment_spec hseg).1
      rw [List.length_take] at hlen
      refine ⟨headers, net, udp, ip, segment, hparse, hnet, hudp, hne, ?_,
        ?_, ?_, hseg, (Option.some.inj h).symm⟩
      · rw [hlen]
        exact hmax
      · rw [hlen, Nat.min_comm]
      · rw [hlen]
        exact hip
    · cases h
  · cases h

/-- The end of both TCP builders. -/
theorem writeReply_inv {net : NetHeaders} {tcp : TcpHeader}
    {payload : List Byte} {r : Reply}
    (h : writeReply net tcp payload = some r) :
    ∃ ip, (tcpSegment ip tcp payload).length ≤ 65535
      ∧ replyHeader net (tcpSegment ip tcp payload).length = some ip
      ∧ r.write = ip.write ++ tcpSegment ip tcp payload := by
  simp only [writeReply] at h
  split at h
  · next hmax =>
    cases net with
    | ipv4 ip4 =>
        obtain ⟨ip, hnew, hwrite⟩ := Option.bind_eq_some_iff.mp h
        rw [writeIpv4Tcp] at hwrite
        split at hwrite
        · obtain rfl := Option.some.inj hwrite
          refine ⟨.ipv4 ip, ?_, ?_, rfl⟩
          · rw [length_tcpSegment]
            exact hmax
          · rw [length_tcpSegment, replyHeader, hnew]
            rfl
        · cases hwrite
    | ipv6 ip6 =>
        simp only [writeIpv6Tcp] at h
        split at h
        · obtain rfl := Option.some.inj h
          refine ⟨.ipv6 _, ?_, ?_, rfl⟩
          · rw [length_tcpSegment]
            exact hmax
          · rw [length_tcpSegment]
            rfl
        · cases h
    | other => cases h
  · cases h

/-- What the TCP half sees is what the parser reports. -/
theorem narrow_inv {headers : PacketHeaders} {tcp : TcpHeader}
    (hparse : e.tcp.fromIpSlice request = some headers)
    (htcp : headers.transport = some (.tcp tcp)) :
    ∃ full, e.fromIpSlice request = some full ∧ full.net = headers.net
      ∧ full.transport = some (.tcp tcp)
      ∧ full.payload = headers.payload := by
  obtain ⟨full, hfull, rfl⟩ := Option.map_eq_some_iff.mp hparse
  obtain ⟨t, ht, hnarrow⟩ := Option.map_eq_some_iff.mp htcp
  cases t with
  | tcp h =>
      cases hnarrow
      exact ⟨full, hfull, rfl, ht, rfl⟩
  | udp h => cases hnarrow
  | icmpv4 t => cases hnarrow
  | icmpv6 t => cases hnarrow

variable (he : e.Sound)

include he

/-- A new header for the request's and a segment that is sealed for
wherever the reported transport header stands. -/
theorem built_of_parse {headers : Headers} {net ip : NetHeaders}
    {t : Transport} {segment : List Byte}
    (hparse : e.fromIpSlice request = some headers)
    (hnet : headers.net = some net) (ht : headers.transport = some t)
    (hmax : segment.length ≤ 65535)
    (hip : replyHeader net segment.length = some ip)
    (hseal : ∀ o, t.At o request →
      Sealed t.proto ip (be16At (o + 2) request) (be16At o request)
        segment) :
    Built t.proto request (ip.write ++ segment) := by
  have hin := he request headers hparse
  have hne := (replyHeader_spec hmax hip).1
  obtain ⟨o, ho, hat, -⟩ := hin.transport net t hnet hne ht
  exact ⟨net, ip, o, segment, hin.net net hnet, ho, hmax, hip, hseal o hat,
    rfl⟩

/-- A TCP reply whose header swaps the ports of the request's. -/
theorem built_tcp {headers : PacketHeaders} {net : NetHeaders}
    {tcp out : TcpHeader} {payload : List Byte} {r : Reply}
    (hparse : e.tcp.fromIpSlice request = some headers)
    (hnet : headers.net = some net)
    (htcp : headers.transport = some (.tcp tcp))
    (hsrc : out.sourcePort = tcp.destinationPort)
    (hdst : out.destinationPort = tcp.sourcePort)
    (hoptions : out.options.length = 0 ∨ out.options.length = 4)
    (h : writeReply net out payload = some r) :
    Built .tcp request r.write := by
  obtain ⟨ip, hlen, hip, hwrite⟩ := writeReply_inv h
  obtain ⟨full, hfull, hfnet, hftcp, -⟩ := narrow_inv hparse htcp
  have hlen' : out.headerLen = 20 ∨ out.headerLen = 24 := by
    rw [TcpHeader.headerLen]
    omega
  have hseal := sealed_tcp ip (h := out) payload (by omega) (by omega)
  rw [hsrc, hdst] at hseal
  rw [hwrite]
  refine built_of_parse he hfull (hfnet.trans hnet) hftcp hlen hip ?_
  rintro o ⟨-, rfl⟩
  exact hseal

theorem built_tcpSynAck {cookieSeq : BitVec 32} {mss : BitVec 16}
    {r : Reply} (h : tcpSynAck e.tcp request cookieSeq mss = some r) :
    Built .tcp request r.write := by
  rw [tcpSynAck] at h
  obtain ⟨headers, hparse, h⟩ := Option.bind_eq_some_iff.mp h
  obtain ⟨net, hnet, h⟩ := Option.bind_eq_some_iff.mp h
  split at h
  · next tcp htcp =>
    split at h
    · cases h
    · exact built_tcp he hparse hnet htcp rfl rfl (.inr rfl) h
  · cases h

theorem built_tcpBannerFin {banner : List Byte} {r : Reply}
    (h : tcpBannerFin e.tcp request banner = some r) :
    Built .tcp request r.write := by
  rw [tcpBannerFin] at h
  obtain ⟨headers, hparse, h⟩ := Option.bind_eq_some_iff.mp h
  obtain ⟨net, hnet, h⟩ := Option.bind_eq_some_iff.mp h
  split at h
  · next tcp htcp =>
    split at h
    · cases h
    split at h
    · exact built_tcp he hparse hnet htcp rfl rfl (.inl rfl) h
    · cases h
  · cases h

theorem built_udpResponse {payload : List Byte}
    (h : udpResponse e request payload = some reply) :
    Built .udp request reply := by
  obtain ⟨headers, net, udp, ip, segment, hparse, hnet, hudp, -, hmax, -,
    hip, hseg, rfl⟩ := udpResponse_inv h
  have hseal := (udpSegment_spec hseg).2.2
  refine built_of_parse he hparse hnet hudp hmax hip ?_
  rintro o ⟨-, hsrc, hdst, -⟩
  rw [hsrc, hdst] at hseal
  exact hseal

theorem built_icmpEchoReply (h : icmpEchoReply e request = some reply) :
    Built .icmp request reply := by
  rw [icmpEchoReply] at h
  obtain ⟨headers, hparse, h⟩ := Option.bind_eq_some_iff.mp h
  split at h
  · next ip id seq hnet ht =>
    simp only at h
    split at h
    · next hmax =>
      obtain ⟨replyIp, hip, h⟩ := Option.bind_eq_some_iff.mp h
      obtain rfl := Option.some.inj h
      exact built_of_parse he hparse hnet ht hmax hip
        fun _ _ => sealed_icmp _ _ _ _ _ _ _
    · cases h
  · cases h

theorem built_icmpv6EchoReply (h : icmpv6EchoReply e request = some reply) :
    Built .icmpv6 request reply := by
  rw [icmpv6EchoReply] at h
  obtain ⟨headers, hparse, h⟩ := Option.bind_eq_some_iff.mp h
  split at h
  · next ip id seq hnet ht =>
    simp only at h
    split at h
    · next hmax =>
      obtain ⟨replyIp, hip, h⟩ := Option.bind_eq_some_iff.mp h
      obtain rfl := Option.some.inj h
      refine built_of_parse he hparse hnet ht ?_ ?_
        fun _ _ => sealed_icmpv6 _ _ _ _ _ _ _
      · rw [length_echoSegment]
        exact hmax.2
      · rw [length_echoSegment]
        exact hip
    · cases h
  · cases h

/-- Every answer is built the same way. -/
theorem Responder.built (r : Responder) (h : r.reply e request = some reply) :
    Built r.proto request reply := by
  cases r with
  | tcpSynAck cookieSeq mss =>
      obtain ⟨out, hout, rfl⟩ := Option.map_eq_some_iff.mp h
      exact built_tcpSynAck he hout
  | tcpBannerFin banner =>
      obtain ⟨out, hout, rfl⟩ := Option.map_eq_some_iff.mp h
      exact built_tcpBannerFin he hout
  | udpResponse payload => exact built_udpResponse he h
  | icmpEchoReply => exact built_icmpEchoReply he h
  | icmpv6EchoReply => exact built_icmpv6EchoReply he h

/-- A reply is a complete datagram that carries a segment of the request's
transport right after its header, from where the request went to where it
came from, exactly if no extension header stands between the request's IP
header and its transport. -/
theorem reply_wellFormed_iff (r : Responder)
    (h : r.reply e request = some reply) :
    WellFormed r.proto request reply
      ↔ protocolField request = r.proto.number :=
  (r.built he h).wellFormed_iff

end Builders

-- ------------------------------------------------------------ two requests

/-- A parser that knows one datagram. -/
def Parser.only (d : List Byte) (h : Headers) : Parser where
  fromIpSlice d' := if d' = d then some h else none
  findMss _ := none

theorem Parser.only_sound {d : List Byte} {h : Headers} (hin : h.In d) :
    (Parser.only d h).Sound := by
  intro d' h' hparse
  simp only [Parser.only] at hparse
  split at hparse
  · next hd =>
    obtain rfl := Option.some.inj hparse
    rw [hd]
    exact hin
  · cases hparse

/-- A UDP datagram to port 53 with one byte of payload. -/
def plainRequest : List Byte :=
  [0x45, 0, 0, 29, 0, 0, 0x40, 0, 64, 17, 0, 0, 10, 0, 0, 1, 10, 0, 0, 2,
    0x30, 0x39, 0, 53, 0, 9, 0, 0, 7]

def plainHeaders : Headers where
  net := some (.ipv4 { ipv4At plainRequest with payloadLen := 9 })
  transport := some (.udp ⟨12345, 53, 9, 0⟩)
  payload := [7]

theorem plain_in : plainHeaders.In plainRequest where
  net net h := by
    obtain rfl := Option.some.inj h
    exact ⟨by decide, by decide, by decide, by decide⟩
  transport net t _ _ ht := by
    obtain rfl := Option.some.inj ht
    exact ⟨20, .here _ _,
      ⟨by decide, by decide, by decide, by decide, by decide⟩, 28, 1,
      by decide, by decide⟩

theorem reply_wellFormed_iff_plain :
    (Parser.only plainRequest plainHeaders).Sound
      ∧ ∃ reply, (Responder.udpResponse [1, 2]).reply
          (.only plainRequest plainHeaders) plainRequest = some reply
        ∧ WellFormed .udp plainRequest reply := by
  have hsound := Parser.only_sound plain_in
  obtain ⟨reply, hreply⟩ := Option.isSome_iff_exists.mp
    (show ((Responder.udpResponse [1, 2]).reply
      (.only plainRequest plainHeaders) plainRequest).isSome = true by
        decide +kernel)
  exact ⟨hsound, reply, hreply,
    (reply_wellFormed_iff hsound _ hreply).mpr (by decide)⟩

/-- The same over IPv6, behind a destination options header. -/
def extendedRequest : List Byte :=
  [0x60, 0, 0, 0, 0, 17, 60, 64] ++ beBytes 16 1 ++ beBytes 16 2
    ++ [17, 0, 1, 4, 0, 0, 0, 0] ++ [0x30, 0x39, 0, 53, 0, 9, 0, 0, 7]

def extendedHeaders : Headers where
  net := some (.ipv6 (ipv6At extendedRequest))
  transport := some (.udp ⟨12345, 53, 9, 0⟩)
  payload := [7]

theorem extended_in : extendedHeaders.In extendedRequest where
  net net h := by
    obtain rfl := Option.some.inj h
    exact ⟨by decide, by decide, rfl⟩
  transport net t _ _ ht := by
    obtain rfl := Option.some.inj ht
    have hnumber : byteAt 40 extendedRequest = Proto.udp.number := by
      decide
    have hlen : 40 + extensionLen 60 40 extendedRequest = 48 := by decide
    have hleads : Leads extendedRequest 60 40 Proto.udp.number 48 := by
      refine .extension (by decide) ?_
      rw [hnumber, hlen]
      exact .here _ _
    exact ⟨48, hleads,
      ⟨by decide, by decide, by decide, by decide, by decide⟩, 56, 1,
      by decide, by decide⟩

/-- Its reply: the IP header says that destination options come next, and
the UDP header does. -/
def extendedReply : List Byte :=
  [0x60, 0, 0, 0, 0, 9, 60, 64] ++ beBytes 16 2 ++ beBytes 16 1
    ++ [0, 53, 0x30, 0x39, 0, 9, 206, 107, 1]

theorem extension_header_copied :
    (Parser.only extendedRequest extendedHeaders).Sound
      ∧ (Responder.udpResponse [1, 2]).reply
          (.only extendedRequest extendedHeaders) extendedRequest
        = some extendedReply
      ∧ ¬ WellFormed .udp extendedRequest extendedReply := by
  refine ⟨Parser.only_sound extended_in, by decide +kernel, ?_⟩
  rintro ⟨o, -, hgood⟩
  exact absurd hgood.protocol (by decide)

end Blackwall.Deception
