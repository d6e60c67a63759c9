/-
The BGP session, part by part (`blackwall-bgp/src/session_net.rs`): the
capability gate, the commands, and what each phase makes of a message of
the peer.

The parts are put together twice. `Bgp.Framing` is the session as a reader
of bytes: its three loops over one buffer. `Bgp.Speaker` is the session as
a machine that takes commands and writes UPDATEs, over losses and
reconnects.
-/
import Blackwall.Base.Dict
import Blackwall.Bgp.Update

namespace Blackwall.Bgp

open Base

-- ============================================================ configuration

/-- `PeerConfig`, as far as the session reads it after the connect. -/
structure PeerConfig where
  localAsn : BitVec 32
  peerAsn : BitVec 32
  routerId : BitVec 32
  holdTime : BitVec 16
  deriving DecidableEq, Repr

inductive SessionOutcome
  | reconnect (text : String)
  | commandsExhausted
  deriving DecidableEq, Repr

/-- `BgpError` as it is printed. -/
def BgpError.display : BgpError → String
  | .decode text => "bgp decode error: " ++ text

-- ========================================================== capability gate

inductive AnnounceSafi
  | ipv4Unicast
  | ipv6Unicast
  | flowSpecV4
  | flowSpecV6
  deriving DecidableEq, Repr

def AnnounceSafi.forRoute : IpNet → AnnounceSafi
  | .v4 _ => .ipv4Unicast
  | .v6 _ => .ipv6Unicast

def AnnounceSafi.forFlowspec : IpNet → AnnounceSafi
  | .v4 _ => .flowSpecV4
  | .v6 _ => .flowSpecV6

def announceAllowed (peer : OpenMsg) : AnnounceSafi → Bool
  | .ipv4Unicast => true
  | .ipv6Unicast => peer.ipv6Unicast
  | .flowSpecV4 => peer.flowspecV4
  | .flowSpecV6 => peer.flowspecV6

-- ================================================================= commands

inductive SessionCommand
  | announce (route : Route)
  | withdraw (net : IpNet)
  | announceFlowSpec (rule : FlowSpecRule)
  | withdrawFlowSpec (rule : FlowSpecRule)
  deriving DecidableEq, Repr

/-- `active` and `active_flowspec`. -/
structure Active where
  routes : Dict IpNet Route
  flows : Dict (List Byte) FlowSpecRule

/-- The key of a rule in `active_flowspec`: its NLRI, which is always
encoded (`encodeFlowspecNlri_eq`). -/
def flowKey (rule : FlowSpecRule) : List Byte :=
  (encodeFlowspecNlri rule).getD []

/-- What a command does to the maps; the arms of `drain_commands` and of
the established loop do the same. -/
def Active.apply (a : Active) : SessionCommand → Active
  | .announce route => { a with routes := a.routes.insert route.net route }
  | .withdraw net => { a with routes := a.routes.erase net }
  | .announceFlowSpec rule =>
      { a with flows := a.flows.insert (flowKey rule) rule }
  | .withdrawFlowSpec rule =>
      { a with flows := a.flows.erase (flowKey rule) }

def drainCommands (a : Active) (queue : List SessionCommand) : Active :=
  queue.foldl Active.apply a

-- ================================================= messages, phase by phase

/-- How a phase goes on after a message. -/
inductive Verdict (α : Type)
  | stay
  | next (a : α)
  | fail (text : String)

/-- The text for a NOTIFICATION, after `at`. -/
def notificationText (at_ : String) (n : NotificationMsg) : String :=
  at_ ++ " code=" ++ toString n.code.toNat ++ " subcode="
    ++ toString n.subcode.toNat

/-- The handshake loop of `session_once`: the peer's OPEN ends it. -/
def handshakeMessage : BgpMessage → Verdict OpenMsg
  | .open o => .next o
  | .notification n =>
      .fail (notificationText "NOTIFICATION during handshake" n)
  | .keepalive => .stay
  | .update => .stay

/-- The checks on the peer's OPEN: the text and the NOTIFICATION they
answer with. -/
def refusal (cfg : PeerConfig) (o : OpenMsg) :
    Option (String × NotificationMsg) :=
  if o.asn ≠ cfg.peerAsn then
    some ("peer ASN " ++ toString o.asn.toNat ++ " != configured "
      ++ toString cfg.peerAsn.toNat, ⟨2, 2, []⟩)
  else if o.holdTime = 1 ∨ o.holdTime = 2 then
    some ("peer proposed unacceptable hold time "
      ++ toString o.holdTime.toNat, ⟨2, 6, []⟩)
  else none

/-- The inner loop of `await_peer_confirmation`. -/
def confirmMessage : BgpMessage → Verdict Unit
  | .keepalive => .next ()
  | .update => .next ()
  | .notification n =>
      .fail (notificationText "NOTIFICATION awaiting OpenConfirm" n)
  | .open _ => .stay

/-- The inner loop of `established_loop`. -/
def establishedMessage : BgpMessage → Verdict Unit
  | .keepalive => .stay
  | .update => .stay
  | .notification n => .fail (notificationText "peer sent NOTIFICATION" n)
  | .open _ => .stay

end Blackwall.Bgp
