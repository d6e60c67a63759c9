/-
A reply to a UDP datagram is never larger than the datagram.

The reply's IP header has no options and no extensions, so it is no
longer than the request's; both have a UDP header; and the payload is cut
to the length of the request's. That the request is at least as long as
its own headers and payload is what the parser's contract says: the
payload it reports lies behind them.
-/
import Blackwall.Deception.Proofs.Replies

namespace Blackwall.Deception

open Base
open Xdp (byteAt be16At)

/-- What follows the IP and the UDP header. -/
def udpPayload (d : List Byte) : List Byte := (ipPayload d).drop 8

/-- The payload of `reply` is the start of `banner`, within what the
request brought. -/
def WithinBudget (e : Parser) (request banner reply : List Byte) : Prop :=
  udpPayload reply <+: banner
    ∧ ∀ headers, e.fromIpSlice request = some headers →
      (udpPayload reply).length ≤ headers.payload.length

/-- Extension headers lead on. -/
theorem Leads.le {d : List Byte} {number number' : Byte} {o o' : Nat}
    (h : Leads d number o number' o') : o ≤ o' := by
  induction h with
  | here => exact Nat.le_refl _
  | extension _ _ ih => exact Nat.le_trans (Nat.le_add_right _ _) ih

/-- The new IP header is no longer than the old one. -/
theorem length_replyHeader {request : List Byte} {net ip : NetHeaders}
    {n : Nat} (hat : net.At request) (h : replyHeader net n = some ip) :
    ip.write.length ≤ ipHeaderLen request := by
  cases net with
  | ipv4 ip4 =>
      obtain ⟨new, -, hip⟩ := Option.bind_eq_some_iff.mp h
      obtain rfl := Option.some.inj hip
      obtain ⟨-, hmin, -⟩ := hat
      exact new.length_write.le.trans hmin
  | ipv6 ip6 =>
      obtain rfl := Option.some.inj h
      obtain ⟨hversion, -⟩ := hat
      have hnot : version request ≠ 4 := by omega
      rw [ipHeaderLen, if_neg hnot]
      exact (Ipv6Header.length_write _).le
  | other => cases h

/-- A part of a byte string that is not empty lies inside it. -/
theorem add_length_le_of_slice {start n : Nat} {p d : List Byte}
    (h : p = slice start n d) (hp : p.length ≠ 0) :
    start + p.length ≤ d.length := by
  rw [h, slice, List.length_take, List.length_drop] at *
  omega

section Udp

variable {e : Parser} {request banner reply : List Byte}

theorem length_udpResponse (he : e.Sound)
    (h : udpResponse e request banner = some reply) :
    reply.length ≤ request.length := by
  obtain ⟨headers, net, udp, ip, segment, hparse, hnet, hudp, hne, hmax,
    hlen, hip, -, rfl⟩ := udpResponse_inv h
  have hin := he request headers hparse
  have hother := (replyHeader_spec hmax hip).1
  obtain ⟨o, ho, -, start, n, hstart, hpayload⟩ :=
    hin.transport net _ hnet hother hudp
  have hheader := length_replyHeader (hin.net net hnet) hip
  have hbehind := ho.le
  have hinside := add_length_le_of_slice hpayload hne
  have hudpLen : (Transport.udp udp).headerLen = 8 := rfl
  rw [List.length_append]
  omega

theorem udpResponse_budget (h : udpResponse e request banner = some reply) :
    WithinBudget e request banner reply := by
  obtain ⟨headers, net, udp, ip, segment, hparse, -, -, -, hmax, -, hip,
    hseg, rfl⟩ := udpResponse_inv h
  obtain ⟨-, -, -, -, -, -, hw⟩ := replyHeader_spec hmax hip
  have hpayload : udpPayload (ip.write ++ segment)
      = banner.take headers.payload.length := by
    rw [udpPayload, hw.payload, (udpSegment_spec hseg).2.1]
  refine ⟨hpayload ▸ List.take_prefix _ _, fun headers' hparse' => ?_⟩
  obtain rfl := Option.some.inj (hparse.symm.trans hparse')
  rw [hpayload]
  exact List.length_take_le _ _

/-- Nothing is answered with nothing. -/
theorem udpResponse_empty {headers : Headers}
    (hparse : e.fromIpSlice request = some headers)
    (hempty : headers.payload = []) :
    udpResponse e request banner = none := by
  cases h : udpResponse e request banner with
  | none => rfl
  | some reply =>
      obtain ⟨headers', -, -, -, -, hparse', -, -, hne, -⟩ :=
        udpResponse_inv h
      obtain rfl := Option.some.inj (hparse.symm.trans hparse')
      exact absurd (congrArg List.length hempty) hne

/-- A frame is answered with a frame around the answer to its datagram. -/
theorem udpL2Response_inv {frame : List Byte}
    (h : udpL2Response e frame banner = some reply) :
    ∃ ipReply, udpResponse e (frame.drop ethHeaderLen) banner = some ipReply
      ∧ ethHeaderLen ≤ frame.length
      ∧ reply.length = ethHeaderLen + ipReply.length
      ∧ reply.drop ethHeaderLen = ipReply := by
  rw [udpL2Response] at h
  split at h
  · cases h
  next hlong =>
  have hlong : 14 ≤ frame.length := Nat.le_of_not_lt hlong
  split at h
  · cases h
  obtain ⟨ipReply, hreply, h⟩ := Option.bind_eq_some_iff.mp h
  obtain rfl := Option.some.inj h
  have hhead : (slice 6 6 frame ++ slice 0 6 frame
      ++ ethertypeIpv4).length = ethHeaderLen := by
    rw [List.length_append, List.length_append, length_slice (by omega),
      length_slice (by omega)]
    rfl
  refine ⟨ipReply, hreply, hlong, ?_, List.drop_left' hhead⟩
  rw [List.length_append, hhead]

end Udp

/-- A UDP reply, as a datagram or as a frame, is no larger than what it
answers; its payload is the start of the banner, no longer than the
payload it answers; and an empty payload is not answered. -/
theorem no_amplification {e : Parser} (he : e.Sound)
    (request frame banner : List Byte) :
    (∀ reply, udpResponse e request banner = some reply →
        reply.length ≤ request.length
          ∧ WithinBudget e request banner reply)
      ∧ (∀ headers, e.fromIpSlice request = some headers →
        headers.payload = [] → udpResponse e request banner = none)
      ∧ (∀ reply, udpL2Response e frame banner = some reply →
        reply.length ≤ frame.length
          ∧ WithinBudget e (frame.drop ethHeaderLen) banner
            (reply.drop ethHeaderLen))
      ∧ (∀ headers,
        e.fromIpSlice (frame.drop ethHeaderLen) = some headers →
        headers.payload = [] → udpL2Response e frame banner = none) := by
  refine ⟨fun reply h => ⟨length_udpResponse he h, udpResponse_budget h⟩,
    fun headers hparse hempty => udpResponse_empty hparse hempty,
    fun reply h => ?_, fun headers hparse hempty => ?_⟩
  · obtain ⟨ipReply, hip, hlong, hlen, hdrop⟩ := udpL2Response_inv h
    have hsmall := length_udpResponse he hip
    rw [List.length_drop] at hsmall
    refine ⟨by omega, ?_⟩
    rw [hdrop]
    exact udpResponse_budget hip
  · cases h : udpL2Response e frame banner with
    | none => rfl
    | some reply =>
        obtain ⟨ipReply, hip, -⟩ := udpL2Response_inv h
        rw [udpResponse_empty hparse hempty] at hip
        cases hip

/-- A one-byte question to a long banner, on the wire and in a frame. -/
theorem no_amplification_plain :
    (Parser.only plainRequest plainHeaders).Sound
      ∧ ∃ reply, udpL2Response (.only plainRequest plainHeaders)
          (List.replicate 12 0 ++ ethertypeIpv4 ++ plainRequest)
          (List.replicate 100 0x41) = some reply
        ∧ reply.length ≤ 43 := by
  have hsound := Parser.only_sound plain_in
  obtain ⟨reply, hreply⟩ := Option.isSome_iff_exists.mp
    (show (udpL2Response (.only plainRequest plainHeaders)
      (List.replicate 12 0 ++ ethertypeIpv4 ++ plainRequest)
      (List.replicate 100 0x41)).isSome = true by decide +kernel)
  obtain ⟨-, -, hframe, -⟩ := no_amplification hsound plainRequest
    (List.replicate 12 0 ++ ethertypeIpv4 ++ plainRequest)
    (List.replicate 100 0x41)
  exact ⟨hsound, reply, hreply, (hframe reply hreply).1⟩

end Blackwall.Deception
