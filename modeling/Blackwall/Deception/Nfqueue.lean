/-
The stateless tier's TCP handler (`handle_tcp` and the senders of
`blackwall-deception/src/transport/nfqueue.rs`).

What a packet makes the handler do is listed in order: the metrics it
counts and the segments it hands to a raw socket. Whether a socket takes
one is an arbitrary function. IPv4 replies carry their own header; for
IPv6 the kernel builds it, with the source that is pinned and the
protocol of the socket, so a segment names both.
-/
import Blackwall.Deception.Cookie
import Blackwall.Deception.Packet

namespace Blackwall.Deception

open Base Cookie

/-- What is handed to a raw socket, as it goes on the wire. -/
structure Segment where
  src : IpAddr
  dst : IpAddr
  protocol : Byte
  tcp : TcpHeader
  payload : List Byte
  deriving DecidableEq, Repr

/-- The counters `handle_tcp` bumps. -/
inductive Metric
  | synCookieSent
  | ackValidated
  | ackRejected
  deriving DecidableEq, Repr

/-- `nfq::Verdict`. -/
inductive Verdict
  | accept
  | drop
  deriving DecidableEq, Repr

/-- `DeceptionError`, of those the handler can return. -/
inductive DeceptionError
  | io
  | protocol (msg : String)
  deriving DecidableEq, Repr

/-- What the handler did and what it returned. -/
structure Handled where
  metrics : List Metric
  sent : List Segment
  verdict : Except DeceptionError Verdict

def ipprotoTcp : Byte := 6

def ipprotoUdp : Byte := 17

/-- `IPPROTO_ICMPV6`. -/
def ipprotoIcmpv6 : Byte := 58

/-- `send_reply`: the segment a reply becomes, or the error of a next
header no socket is open for. -/
def segmentOf : Reply → Except DeceptionError Segment
  | .v4 ip tcp payload =>
      .ok { src := .v4 ip.source, dst := .v4 ip.destination
            protocol := ip.protocol, tcp, payload }
  | .v6 ip tcp payload =>
      if ip.nextHeader = ipprotoTcp ∨ ip.nextHeader = ipprotoUdp
          ∨ ip.nextHeader = ipprotoIcmpv6 then
        .ok { src := .v6 ip.source, dst := .v6 ip.destination
              protocol := ip.nextHeader, tcp, payload }
      else
        .error (.protocol ("unsupported IPv6 next-header "
          ++ toString ip.nextHeader.toNat))

/-- `send_reply(&reply, socks)?`: an error ends the handler. -/
def sendReply (socks : Segment → Bool) (reply : Reply) :
    List Segment × Except DeceptionError Unit :=
  match segmentOf reply with
  | .error err => ([], .error err)
  | .ok seg => ([seg], if socks seg then .ok () else .error .io)

def handleTcp (e : Etherparse) (sip : SipHash) (cookieKey : CookieKey)
    (banners : BitVec 16 → List Byte) (socks : Segment → Bool)
    (nowSecs : BitVec 64) (pkt : List Byte) (info : TcpRequestInfo) :
    Handled :=
  let tuple : ConnTuple :=
    { src := info.src, srcPort := info.srcPort
      dst := info.dst, dstPort := info.dstPort }
  if info.syn && !info.ack then
    let (cookieSeq, mss) := makeCookie sip cookieKey tuple info.clientMss
      nowSecs
    match tcpSynAck e pkt cookieSeq mss with
    | some reply =>
        match sendReply socks reply with
        | (sent, .ok ()) => ⟨[.synCookieSent], sent, .ok .drop⟩
        | (sent, .error err) => ⟨[], sent, .error err⟩
    | none => ⟨[], [], .ok .drop⟩
  else if info.ack && !info.syn then
    if (checkCookie sip cookieKey tuple info.ackSeq nowSecs).isSome then
      match tcpBannerFin e pkt (banners info.dstPort) with
      | some reply =>
          match sendReply socks reply with
          | (sent, .ok ()) => ⟨[.ackValidated], sent, .ok .drop⟩
          | (sent, .error err) => ⟨[.ackValidated], sent, .error err⟩
      | none => ⟨[.ackValidated], [], .ok .drop⟩
    else ⟨[.ackRejected], [], .ok .drop⟩
  else ⟨[], [], .ok .drop⟩

/-- The TCP arm of `run`'s dispatch: `none` when the packet is not a TCP
segment and another arm gets it. -/
def serveTcp (e : Etherparse) (sip : SipHash) (cookieKey : CookieKey)
    (banners : BitVec 16 → List Byte) (socks : Segment → Bool)
    (nowSecs : BitVec 64) (pkt : List Byte) : Option Handled :=
  (parseTcpRequest e pkt).map
    (handleTcp e sip cookieKey banners socks nowSecs pkt)

end Blackwall.Deception
