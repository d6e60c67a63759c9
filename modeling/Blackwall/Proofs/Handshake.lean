/-
One handshake across two tiers.

The XDP program answers a SYN from the bytes of the frame; the stateless
tier in userspace gets the ACK that follows, parsed. For the client to be
served, the two have to feed the shared cookie core the same key, octets,
ports and slot. The cookie is the SYN-ACK's sequence number;
`ack_accepted` recomputes it from the ACK, and the rest is what
`handle_tcp` sends once the cookie is good.
-/
import Blackwall.Deception.Nfqueue
import Blackwall.Xdp.Proofs.Reply
import Blackwall.XdpPlane.Dataplane

namespace Blackwall

open Base Cookie Deception
open Xdp (Layout Ctx v4 v6 offIp byteAt be16At be32At clientCookie nsPerSec
  trySynackV4 trySynackV6)

-- ============================================================ statements

/-- `d` is an ACK of the client whose SYN was the frame `f` and whose
SYN-ACK is the frame `g`. -/
structure IsAckOf (l : Layout) (f g d : List Byte) : Prop where
  src : slice (l.src - offIp) l.addrLen d = slice l.src l.addrLen f
  dst : slice (l.dst - offIp) l.addrLen d = slice l.dst l.addrLen f
  srcport : be16At (l.srcport - offIp) d = be16At l.srcport f
  dstport : be16At (l.dstport - offIp) d = be16At l.dstport f
  ack : (byteAt (l.flags - offIp) d).getLsbD 4 = true
  syn : (byteAt (l.flags - offIp) d).getLsbD 1 = false
  number : be32At (l.ack - offIp) d = be32At l.seq g + 1

/-- The ACK was validated and answered with one segment, the server's to
the client, that carries on where the SYN-ACK left off. -/
structure IsServed (l : Layout) (f g d banner : List Byte)
    (h : Handled) : Prop where
  validated : h.metrics = [.ackValidated]
  answered : ∃ seg, h.sent = [seg] ∧ seg.protocol = 6
    ∧ seg.src.octets = slice l.dst l.addrLen f
    ∧ seg.dst.octets = slice l.src l.addrLen f
    ∧ seg.tcp.sourcePort = be16At l.dstport f
    ∧ seg.tcp.destinationPort = be16At l.srcport f
    ∧ seg.tcp.sequenceNumber = be32At l.seq g + 1
    ∧ seg.tcp.acknowledgmentNumber = be32At (l.seq - offIp) d
        + BitVec.ofNat 32 (tcpPayload (l.tcp - offIp) d).length
    ∧ seg.payload = banner

/-- The second `nowSecs` is in the slot of the nanosecond `mintedNs`, or
in the next. -/
def InTime (mintedNs : Nat) (nowSecs : BitVec 64) : Prop :=
  slotOf nowSecs = slotOf (BitVec.ofNat 64 (mintedNs / nsPerSec))
    ∨ slotOf nowSecs = slotOf (BitVec.ofNat 64 (mintedNs / nsPerSec)) + 1

-- ========================================================== the cookie

/-- The slot of the cookie is the one checked first or second. -/
theorem InTime.slot {minted : Nat} {now : BitVec 64}
    (h : InTime minted now) :
    BitVec.ofNat 64 (minted / nsPerSec) >>> counterShift
        = now >>> counterShift
      ∨ BitVec.ofNat 64 (minted / nsPerSec) >>> counterShift
        = now >>> counterShift - 1 := by
  unfold InTime slotOf at h
  generalize BitVec.ofNat 64 (minted / nsPerSec) >>> counterShift = t at h
  generalize now >>> counterShift = t' at h
  rcases h with h | h
  · exact Or.inl (BitVec.eq_of_toNat_eq h.symm)
  · refine Or.inr ?_
    bv_omega

section Handshake

variable {env : Xdp.Env} {c : Ctx} {key : CookieKey}
  {l : Layout} {f g d : List Byte} {minted : Nat} {now : BitVec 64}

/-- The cookie of the SYN-ACK, checked against what the ACK says. -/
theorem ack_accepted {src dst : IpAddr}
    (hseq : be32At l.seq g = (clientCookie env l
      (XdpPlane.encodeCookieKey key.bytes) minted f).1)
    (hack : IsAckOf l f g d) (ht : InTime minted now)
    (hsrc : src.octets = slice (l.src - offIp) l.addrLen d)
    (hdst : dst.octets = slice (l.dst - offIp) l.addrLen d) :
    (checkCookie env.sip key
      ⟨src, be16At (l.srcport - offIp) d, dst,
        be16At (l.dstport - offIp) d⟩
      (be32At (l.ack - offIp) d) now).isSome = true := by
  rw [hack.number, hseq]
  unfold checkCookie
  simp only [hsrc, hdst, hack.src, hack.dst, hack.srcport, hack.dstport]
  exact Option.isSome_iff_exists.mpr
    ⟨mssAt (mssIndexFor (Xdp.clientMss l.opts f)),
      checkCookieRaw_of_slot env.sip _ _ _ _ _ _
        (mssIndexFor_mask (Xdp.clientMss l.opts f)) ht.slot⟩

end Handshake

-- ============================================================ the answer

section Answer

variable {e : Etherparse} {sip : SipHash} {key : CookieKey}
  {banners : BitVec 16 → List Byte} {now : BitVec 64}
  {d payload banner : List Byte} {net : NetHeaders} {tcp : TcpHeader}
  {src dst : IpAddr}

/-- A reply of the builders' without options fits, goes back where the
request came from, and finds a socket. -/
def Answers (net : NetHeaders) (src dst : IpAddr) (banner : List Byte) :
    Prop :=
  ∀ tcp : TcpHeader, tcp.options = [] →
    ∃ reply, writeReply net tcp banner = some reply
      ∧ segmentOf reply = .ok ⟨dst, src, 6, tcp, banner⟩

theorem answers_v4 {ip : Ipv4Header} (hproto : ip.protocol = 6)
    (hfit : 40 + banner.length ≤ 65535) :
    Answers (.ipv4 ip) (.v4 ip.source) (.v4 ip.destination) banner := by
  intro tcp hopts
  have hlen : tcp.headerLen = 20 := by rw [TcpHeader.headerLen, hopts]; rfl
  refine ⟨.v4 ⟨20 + banner.length, ip.timeToLive, ip.protocol,
    ip.destination, ip.source⟩ tcp banner, ?_, ?_⟩
  · simp only [writeReply, hlen, Ipv4Header.new, writeIpv4Tcp]
    rw [if_pos (by omega), if_pos (by omega)]
    exact if_pos (by omega)
  · simp [segmentOf, hproto]

theorem answers_v6 {ip : Ipv6Header} (hnext : ip.nextHeader = 6)
    (hfit : 20 + banner.length ≤ 65535) :
    Answers (.ipv6 ip) (.v6 ip.source) (.v6 ip.destination) banner := by
  intro tcp hopts
  have hlen : tcp.headerLen = 20 := by rw [TcpHeader.headerLen, hopts]; rfl
  refine ⟨.v6 (swappedIpv6Reply ip (20 + banner.length)) tcp banner,
    ?_, ?_⟩
  · simp only [writeReply, hlen, writeIpv6Tcp]
    rw [if_pos (by omega), if_pos (by omega)]
  · simp [segmentOf, swappedIpv6Reply, hnext, ipprotoTcp]

/-- What the handler does with an ACK whose cookie is good. -/
theorem serveTcp_valid (socks : Segment → Bool)
    (hparse : e.fromIpSlice d = some ⟨some net, some (.tcp tcp), payload⟩)
    (haddrs : net.addrs = some (src, dst))
    (hack : tcp.ack = true) (hsyn : tcp.syn = false)
    (hcheck : (checkCookie sip key
      ⟨src, tcp.sourcePort, dst, tcp.destinationPort⟩
      tcp.acknowledgmentNumber now).isSome = true)
    (hlen : payload.length < 2 ^ 32)
    (hans : Answers net src dst (banners tcp.destinationPort)) :
    ∃ h, serveTcp e sip key banners socks now d = some h
      ∧ h.metrics = [.ackValidated]
      ∧ h.sent = [⟨dst, src, 6, bannerHeader tcp payload.length,
          banners tcp.destinationPort⟩] := by
  have hinfo : parseTcpRequest e d = some
      { src, dst, srcPort := tcp.sourcePort
        dstPort := tcp.destinationPort, syn := tcp.syn, ack := tcp.ack
        ackSeq := tcp.acknowledgmentNumber
        clientMss := (e.findMss tcp.options).getD
          Deception.defaultClientMss } := by
    simp [parseTcpRequest, hparse, haddrs]
  obtain ⟨reply, hreply, hseg⟩ := hans (bannerHeader tcp payload.length) rfl
  have hfin : tcpBannerFin e d (banners tcp.destinationPort)
      = some reply := by
    simp only [tcpBannerFin, hparse, Option.bind_eq_bind,
      Option.bind_some, hack, Bool.not_true, Bool.false_eq_true, if_false,
      if_pos hlen]
    exact hreply
  refine ⟨_, by rw [serveTcp, hinfo, Option.map_some], ?_⟩
  simp only [handleTcp, hack, hsyn, hcheck, hfin, sendReply, hseg,
    Bool.not_true, Bool.and_false, Bool.false_eq_true, if_false,
    Bool.not_false, Bool.and_true, if_true]
  cases socks ⟨dst, src, 6, bannerHeader tcp payload.length,
      banners tcp.destinationPort⟩ with
  | true => exact ⟨rfl, rfl⟩
  | false => exact ⟨rfl, rfl⟩

end Answer

section Handshake

variable {env : Xdp.Env} {c : Ctx} {key : CookieKey} {e : Etherparse}
  {banners : BitVec 16 → List Byte} {socks : Segment → Bool}
  {l : Layout} {f g d : List Byte} {minted : Nat} {now : BitVec 64}

/-- Either family: a SYN-ACK with the cookie of the SYN, an ACK of it in
time, parsed as the bytes say. -/
theorem handshake_served {net : NetHeaders} {src dst : IpAddr}
    (hseq : be32At l.seq g = (clientCookie env l
      (XdpPlane.encodeCookieKey key.bytes) minted f).1)
    (hack : IsAckOf l f g d) (ht : InTime minted now)
    (hparse : e.fromIpSlice d = some ⟨some net,
      some (.tcp (tcpAt (l.tcp - offIp) d)), tcpPayload (l.tcp - offIp) d⟩)
    (haddrs : net.addrs = some (src, dst))
    (hsrc : src.octets = slice (l.src - offIp) l.addrLen d)
    (hdst : dst.octets = slice (l.dst - offIp) l.addrLen d)
    (hlen : d.length < 2 ^ 32)
    (hans : Answers net src dst (banners (be16At l.dstport f))) :
    ∃ h, serveTcp e env.sip key banners socks now d = some h
      ∧ IsServed l f g d (banners (be16At l.dstport f)) h := by
  have hge : offIp ≤ l.tcp := by
    have := l.src_ge
    have := l.src_dst
    have := l.dst_tcp
    omega
  -- the header's fields are where the layout has them, less the frame's
  have hoff : ∀ n, l.tcp + n - offIp = l.tcp - offIp + n := by
    intro n
    omega
  have hdport : (tcpAt (l.tcp - offIp) d).destinationPort
      = be16At l.dstport f := by
    rw [← hack.dstport, Layout.dstport, hoff]
    rfl
  have hsport : (tcpAt (l.tcp - offIp) d).sourcePort
      = be16At l.srcport f := hack.srcport
  have hnum : (tcpAt (l.tcp - offIp) d).acknowledgmentNumber
      = be32At (l.ack - offIp) d := by
    rw [Layout.ack, hoff]
    rfl
  have hflags : l.flags - offIp = l.tcp - offIp + 13 := hoff 13
  have hpay : (tcpPayload (l.tcp - offIp) d).length < 2 ^ 32 := by
    rw [tcpPayload, List.length_drop]
    omega
  have hcheck := ack_accepted hseq hack ht hsrc hdst
  rw [hack.srcport, hack.dstport, ← hsport, ← hdport, ← hnum] at hcheck
  rw [← hdport] at hans
  obtain ⟨h, hserve, hmetrics, hsent⟩ := serveTcp_valid socks hparse
    haddrs
    (show (byteAt _ d).getLsbD 4 = true from hflags ▸ hack.ack)
    (show (byteAt _ d).getLsbD 1 = false from hflags ▸ hack.syn)
    hcheck hpay hans
  refine ⟨h, hserve, hmetrics, _, hsent, rfl, hdst.trans hack.dst,
    hsrc.trans hack.src, hdport, hsport, hnum.trans hack.number, ?_, ?_⟩
  · rw [Layout.seq, hoff]
    rfl
  · rw [hdport]

/-- The sequence number of a SYN-ACK is its cookie. -/
theorem seq_of_isSynAck {cookie : BitVec 32}
    {pseudo : List Byte → List Byte → Nat → List Byte}
    (h : Xdp.IsSynAck l cookie pseudo f g) : be32At l.seq g = cookie :=
  Xdp.be32At_of_slice h.seq

end Handshake

/-- Whoever gets a SYN-ACK from the XDP program and acknowledges it in
time is served by the stateless tier, over IPv4 and IPv6, whatever the
hash: the two share the secret as `encode_cookie_key` installs it. -/
theorem cross_tier_handshake (env : Xdp.Env) (c : Ctx) (key : CookieKey)
    (hkey : c.maps.cookieKey
      = some (XdpPlane.encodeCookieKey key.bytes))
    (e : Etherparse) (he : e.Correct)
    (banners : BitVec 16 → List Byte) (socks : Segment → Bool)
    (now : BitVec 64) (d : List Byte) :
    ((trySynackV4 env c).1 = some .tx → InTime (env.clock c.reads) now →
      IsTcpV4 d →
      IsAckOf v4 c.frame (trySynackV4 env c).2.frame d →
      40 + (banners (be16At v4.dstport c.frame)).length ≤ 65535 →
      ∃ h, serveTcp e env.sip key banners socks now d = some h
        ∧ IsServed v4 c.frame (trySynackV4 env c).2.frame d
          (banners (be16At v4.dstport c.frame)) h)
    ∧ ((trySynackV6 env c).1 = some .tx →
      InTime (env.clock (c.reads + 1)) now → IsTcpV6 d →
      IsAckOf v6 c.frame (trySynackV6 env c).2.frame d →
      20 + (banners (be16At v6.dstport c.frame)).length ≤ 65535 →
      ∃ h, serveTcp e env.sip key banners socks now d = some h
        ∧ IsServed v6 c.frame (trySynackV6 env c).2.frame d
          (banners (be16At v6.dstport c.frame)) h) := by
  constructor
  · intro hok ht hd hack hfit
    obtain ⟨key', hkey', hsynack, -⟩ := Xdp.trySynackV4_isSynAck hok
    obtain rfl : XdpPlane.encodeCookieKey key.bytes = key' :=
      Option.some.inj (hkey.symm.trans hkey')
    have hroom : 20 + 20 ≤ d.length := by
      obtain ⟨h5, hend⟩ := hd.2.2.2.2
      omega
    have hmax := (be16At 2 d).isLt
    refine handshake_served (seq_of_isSynAck hsynack) hack ht
      (he d _ (if_pos hd)) rfl ?_ ?_ ?_ (answers_v4 hd.2.2.2.1 hfit)
    · exact beBytes_addrAt (by decide) (by omega)
    · exact beBytes_addrAt (by decide) (by omega)
    · rw [← hd.2.1]
      omega
  · intro hok ht hd hack hfit
    obtain ⟨key', hkey', hsynack⟩ := Xdp.trySynackV6_isSynAck hok
    obtain rfl : XdpPlane.encodeCookieKey key.bytes = key' :=
      Option.some.inj (hkey.symm.trans hkey')
    have hnot : ¬ IsTcpV4 d := by
      intro h4
      have hver := hd.1
      rw [h4.1] at hver
      exact absurd hver (by decide)
    have hroom : 40 + 20 ≤ d.length := by
      obtain ⟨h5, hend⟩ := hd.2.2.2
      omega
    have hmax := (be16At 4 d).isLt
    refine handshake_served (seq_of_isSynAck hsynack) hack ht
      (he d _ ((if_neg hnot).trans (if_pos hd))) rfl ?_ ?_ ?_
      (answers_v6 hd.2.2.1 hfit)
    · exact beBytes_addrAt (by decide) (by omega)
    · exact beBytes_addrAt (by decide) (by omega)
    · rw [← hd.2.1]
      omega

-- ============================================================== a sample

/-- The secret whose halves are the sample box's key. -/
def sampleSecret : CookieKey :=
  ⟨[1, 0, 0, 0, 0, 0, 0, 0, 2, 0, 0, 0, 0, 0, 0, 0], rfl⟩

/-- A parser that accepts the plain datagrams and nothing else. -/
def plainParser : Etherparse := ⟨readIp, fun _ => none⟩

/-- The TCP part of an ACK with `number` and two bytes of payload. -/
def sampleAckTcp (number : BitVec 32) : List Byte :=
  [0xD4, 0x31, 0x01, 0xBB, 0, 0, 0x10, 1] ++ be32 number
    ++ [0x50, 0x10, 0xFF, 0xFF, 0, 0, 0, 0, 0x68, 0x69]

def sampleAckV4 : List Byte :=
  [0x45, 0, 0, 42, 0, 0, 0x40, 0, 64, 6, 0, 0, 203, 0, 113, 7, 198, 51,
    100, 1]
  ++ sampleAckTcp (be32At v4.seq (trySynackV4 Xdp.sampleEnv
    (Xdp.sampleSynV4 [2, 4, 5, 0xB4])).2.frame + 1)

def sampleAckV6 : List Byte :=
  [0x60, 0, 0, 0, 0, 22, 6, 64, 0x20, 0x01, 0x0D, 0xB8, 0, 0, 0, 0, 0, 0,
    0, 0, 0, 0, 0, 1, 0x20, 0x01, 0x0D, 0xB8, 0, 0, 0, 0, 0, 0, 0, 0, 0, 0,
    0, 2]
  ++ sampleAckTcp (be32At v6.seq (trySynackV6 Xdp.sampleEnv
    (Xdp.sampleSynV6 [2, 4, 5, 0xB4])).2.frame + 1)

/-- A client of either family, acknowledging in the next slot. -/
theorem cross_tier_handshake_next_slot :
    (∃ h, serveTcp plainParser Xdp.sampleEnv.sip sampleSecret
        (fun _ => [0x62]) (fun _ => true) 128 sampleAckV4 = some h
      ∧ IsServed v4 (Xdp.sampleSynV4 [2, 4, 5, 0xB4]).frame
        (trySynackV4 Xdp.sampleEnv
          (Xdp.sampleSynV4 [2, 4, 5, 0xB4])).2.frame
        sampleAckV4 [0x62] h)
    ∧ (∃ h, serveTcp plainParser Xdp.sampleEnv.sip sampleSecret
        (fun _ => [0x62]) (fun _ => true) 128 sampleAckV6 = some h
      ∧ IsServed v6 (Xdp.sampleSynV6 [2, 4, 5, 0xB4]).frame
        (trySynackV6 Xdp.sampleEnv
          (Xdp.sampleSynV6 [2, 4, 5, 0xB4])).2.frame
        sampleAckV6 [0x62] h) :=
  ⟨(cross_tier_handshake Xdp.sampleEnv
      (Xdp.sampleSynV4 [2, 4, 5, 0xB4]) sampleSecret (by decide +kernel)
      plainParser (fun _ _ h => h) (fun _ => [0x62]) (fun _ => true) 128
      sampleAckV4).1 (by decide +kernel) (Or.inr (by decide +kernel))
      (by decide +kernel)
      ⟨by decide +kernel, by decide +kernel, by decide +kernel,
        by decide +kernel, by decide +kernel, by decide +kernel,
        by decide +kernel⟩ (by decide),
    (cross_tier_handshake Xdp.sampleEnv
      (Xdp.sampleSynV6 [2, 4, 5, 0xB4]) sampleSecret (by decide +kernel)
      plainParser (fun _ _ h => h) (fun _ => [0x62]) (fun _ => true) 128
      sampleAckV6).2 (by decide +kernel) (Or.inr (by decide +kernel))
      (by decide +kernel)
      ⟨by decide +kernel, by decide +kernel, by decide +kernel,
        by decide +kernel, by decide +kernel, by decide +kernel,
        by decide +kernel⟩ (by decide)⟩

end Blackwall
