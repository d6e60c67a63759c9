/-
The session as a machine that takes commands and writes UPDATEs (`run`,
`session_once` and `established_loop` of
`blackwall-bgp/src/session_net.rs`), over every loss and reconnect.

# The machine

The state is the command queue, the two `active` maps and where the task
stands (`Phase`). An event is whatever the task waits for: a command that
is queued, a connect, a message of the peer, the end of a write, the loop
taking a command off the queue, the loss of the session. An event the task
is not waiting for leaves it as it is. A write takes two events, its start
and its end, so that anything may happen while it is on its way; every
error and timer that ends a session is the event `lost`.

The bytes for a command are those of its builder (`packet`), whose panic
ends the task.

# The peer

What the peer holds is the fold of the bytes written since the session
came up, as the peer reads them (`Peer.Rib.receive`); it forgets
everything when the session is lost. The history keeps every write that
was begun, with the OPEN of the session it was for.
-/
import Blackwall.Base.Run
import Blackwall.Bgp.Peer
import Blackwall.Bgp.Session

namespace Blackwall.Bgp

open Base

-- ================================================================= UPDATEs

/-- The UPDATE for a command: its builder. -/
def packet : SessionCommand → Option (List Byte)
  | .announce route => buildAnnounce route
  | .withdraw net => buildWithdraw net
  | .announceFlowSpec rule => buildFlowspecAnnounce rule
  | .withdrawFlowSpec rule => buildFlowspecWithdraw rule

/-- The SAFI the UPDATE for a command needs. -/
def SessionCommand.safi : SessionCommand → AnnounceSafi
  | .announce route => .forRoute route.net
  | .withdraw net => .forRoute net
  | .announceFlowSpec rule => .forFlowspec rule.dst
  | .withdrawFlowSpec rule => .forFlowspec rule.dst

-- ================================================================== state

/-- An UPDATE handed to the socket: the OPEN of its session, the command
and its bytes. -/
structure Write where
  peer : OpenMsg
  command : SessionCommand
  bytes : List Byte
  deriving DecidableEq, Repr

/-- Where the task stands. -/
inductive Phase
  | connecting
  | handshake
  | greeting (peer : OpenMsg)
  | confirming (peer : OpenMsg)
  | writing (write : Write) (todo : List SessionCommand)
  | established (peer : OpenMsg)
  | exited
  | panicked
  deriving DecidableEq, Repr

/-- The task, and what it has written. -/
structure Speaker where
  queue : List SessionCommand
  active : Active
  phase : Phase
  sent : List (List Byte)
  history : List Write

/-- `run` at its start. -/
def Speaker.start : Speaker := ⟨[], ⟨∅, ∅⟩, .connecting, [], []⟩

/-- What the task waits for. The orders are those in which `values` visits
the maps. -/
inductive Event
  | command (c : SessionCommand)
  | connected (ok : Bool)
  | message (m : BgpMessage)
      (ordRoutes : IterOrder (Sigma fun _ : IpNet => Route))
      (ordFlows : IterOrder (Sigma fun _ : List Byte => FlowSpecRule))
  | wrote (ok : Bool)
  | receive
  | lost
  | hangup

namespace Speaker

/-- `SessionOutcome::Reconnect` in `run`: the queued commands are applied
and the peer has forgotten. -/
def lose (s : Speaker) : Speaker :=
  { s with
    queue := []
    active := drainCommands s.active s.queue
    phase := .connecting
    sent := [] }

/-- Write the UPDATEs for these commands one after another, then wait in
the loop. -/
def proceed (peer : OpenMsg) (todo : List SessionCommand) (s : Speaker) :
    Speaker :=
  match todo with
  | [] => { s with phase := .established peer }
  | c :: rest =>
      match packet c with
      | none => { s with phase := .panicked }
      | some bytes =>
          { s with
            phase := .writing ⟨peer, c, bytes⟩ rest
            history := s.history ++ [⟨peer, c, bytes⟩] }

/-- The re-announcement of `session_once`: every active route and rule
whose SAFI the gate lets through. -/
def reannouncement (peer : OpenMsg)
    (ordRoutes : IterOrder (Sigma fun _ : IpNet => Route))
    (ordFlows : IterOrder (Sigma fun _ : List Byte => FlowSpecRule))
    (a : Active) : List SessionCommand :=
  ((ordRoutes.1 a.routes.entries).map fun e =>
      SessionCommand.announce e.2).filter
    (fun c => announceAllowed peer c.safi)
  ++ ((ordFlows.1 a.flows.entries).map fun e =>
      SessionCommand.announceFlowSpec e.2).filter
    (fun c => announceAllowed peer c.safi)

/-- A command in the established loop. -/
def handle (peer : OpenMsg) (c : SessionCommand) (s : Speaker) : Speaker :=
  let s' := { s with active := s.active.apply c }
  if announceAllowed peer c.safi then s'.proceed peer [c] else s'

/-- A message of the peer. -/
def onMessage (cfg : PeerConfig) (m : BgpMessage)
    (ordRoutes : IterOrder (Sigma fun _ : IpNet => Route))
    (ordFlows : IterOrder (Sigma fun _ : List Byte => FlowSpecRule))
    (s : Speaker) : Speaker :=
  match s.phase with
  | .handshake =>
      match handshakeMessage m with
      | .stay => s
      | .fail _ => s.lose
      | .next o =>
          match refusal cfg o with
          | some _ => s.lose
          | none => { s with phase := .greeting o }
  | .confirming o =>
      match confirmMessage m with
      | .stay => s
      | .fail _ => s.lose
      | .next () =>
          s.proceed o (reannouncement o ordRoutes ordFlows s.active)
  | .established _ =>
      match establishedMessage m with
      | .fail _ => s.lose
      | _ => s
  | _ => s

/-- The end of a write. -/
def onWrote (ok : Bool) (s : Speaker) : Speaker :=
  match s.phase with
  | .greeting o =>
      if ok then { s with phase := .confirming o } else s.lose
  | .writing w rest =>
      if ok then
        Speaker.proceed w.peer rest { s with sent := s.sent ++ [w.bytes] }
      else s.lose
  | _ => s

end Speaker

/-- A task that has ended takes no command. -/
def Phase.alive : Phase → Bool
  | .exited => false
  | .panicked => false
  | _ => true

/-- A session is up, in any of its phases. -/
def Phase.connected : Phase → Bool
  | .connecting => false
  | p => p.alive

/-- One event. -/
def step (cfg : PeerConfig) (ev : Event) (s : Speaker) : Speaker :=
  match ev with
  | .command c =>
      if s.phase.alive then { s with queue := s.queue ++ [c] } else s
  | .connected ok =>
      if s.phase = .connecting then
        if ok then { s with phase := .handshake } else s.lose
      else s
  | .message m ordRoutes ordFlows => s.onMessage cfg m ordRoutes ordFlows
  | .wrote ok => s.onWrote ok
  | .receive =>
      match s.phase, s.queue with
      | .established o, c :: queue => Speaker.handle o c { s with queue }
      | _, _ => s
  | .lost => if s.phase.connected then s.lose else s
  | .hangup =>
      match s.phase, s.queue with
      | .established _, [] => { s with phase := .exited }
      | _, _ => s

-- ================================================================ the peer

/-- The peer's RIB: the bytes written since the session came up. -/
def Speaker.rib (s : Speaker) : Peer.Rib :=
  s.sent.foldl Peer.Rib.receive .empty

end Blackwall.Bgp
