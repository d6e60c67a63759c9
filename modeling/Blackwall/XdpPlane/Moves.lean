/-
The XDP controller on its own, without a manager: its operations, and the
rollback of an entry the operation before has inserted.

`rollback` may only undo a brand-new insert
(`blackwall-xdp/src/control.rs`), so the machine remembers which ones the
last operation made (`fresh`); a rollback of anything else is not a move.
What a manager makes of the controller is such a run: it rolls back some
of the inserts it was just handed and asks for the next operation.
-/
import Blackwall.XdpPlane.Controller

namespace Blackwall.XdpPlane

open Base
open Blackwall.Flow (DetectionEvent)

namespace XdpController

/-- The sources a victim has had limited: `by_target[v]`. -/
def sourcesOf (c : XdpController) (v : IpAddr) : List IpAddr :=
  (c.byTarget.lookup v).getD []

/-- The controller that a restart rebuilds from a snapshot of the active
entries. -/
def rebuild (prefixes : List IpNet) (maxEntries defaultRatePps : Nat)
    (protectedPrefixes : List IpNet)
    (rows : List (XdpAction × XdpOrigin)) : XdpController :=
  run (fun row c => c.markResumed row.1 row.2)
    (new prefixes maxEntries defaultRatePps protectedPrefixes) rows

end XdpController

/-- The operations of the controller. -/
inductive Move
  | onDetection (ord : IterOrder IpAddr) (ev : DetectionEvent)
  | manualBlock (net : IpNet)
  | manualUnblock (net : IpNet)
  | manualRateLimit (src : IpAddr) (pps burst : Nat)
  | manualClearRate (src : IpAddr)
  | rollback (action : XdpAction)

/-- The controller, the inserts of the last operation that have not been
rolled back, and the victims whose attack is open. -/
structure Staged where
  ctrl : XdpController
  fresh : List XdpAction
  attacked : IpAddr → Bool

namespace Staged

/-- A controller before its first operation. -/
def start (c : XdpController) : Staged := ⟨c, [], fun _ => false⟩

/-- A manual operation, and whether it put in an entry that was not
there. -/
def manual (isNew : Bool) (r : Except Refusal XdpAction × XdpController)
    (s : Staged) : Staged :=
  { s with
    ctrl := r.2
    fresh := match r.1 with
      | .ok a => if isNew then [a] else []
      | .error _ => [] }

/-- An attack is open from its `Opened` to its `Cleared`. -/
def noteAttack (ev : DetectionEvent) (attacked : IpAddr → Bool) :
    IpAddr → Bool :=
  match ev with
  | .opened d | .updated d => Function.update attacked d.target true
  | .cleared v _ => Function.update attacked v false

/-- One operation. -/
def move (m : Move) (s : Staged) : Staged :=
  match m with
  | .onDetection ord ev =>
      { ctrl := (s.ctrl.onDetection ord ev).2
        fresh := (s.ctrl.onDetection ord ev).1.filter XdpAction.isInstall
        attacked := noteAttack ev s.attacked }
  | .manualBlock net =>
      s.manual (!s.ctrl.isBlocked net) (s.ctrl.manualBlock net)
  | .manualUnblock net =>
      { s with ctrl := (s.ctrl.manualUnblock net).2, fresh := [] }
  | .manualRateLimit src pps burst =>
      s.manual (!s.ctrl.isRateLimited src)
        (s.ctrl.manualRateLimit src pps burst)
  | .manualClearRate src =>
      { s with ctrl := (s.ctrl.manualClearRate src).2, fresh := [] }
  | .rollback a =>
      if a ∈ s.fresh then
        { s with ctrl := s.ctrl.rollback a, fresh := s.fresh.erase a }
      else s

end Staged

/-- A move, or a restart: the controller is built anew from a snapshot of
the active entries, under a configuration of its own. -/
inductive Turn
  | move (m : Move)
  | restart (prefixes : List IpNet) (maxEntries defaultRatePps : Nat)
      (protectedPrefixes : List IpNet)
      (ordRate : IterOrder (Sigma fun _ : IpAddr => RateLimitEntry))
      (ordBlock : IterOrder (Sigma fun _ : IpNet => XdpOrigin))

/-- One move or restart. The attacks go on through a restart. -/
def Staged.turn (t : Turn) (s : Staged) : Staged :=
  match t with
  | .move m => s.move m
  | .restart prefixes maxEntries defaultRatePps protectedPrefixes
      ordRate ordBlock =>
      { s with
        ctrl := XdpController.rebuild prefixes maxEntries defaultRatePps
          protectedPrefixes (s.ctrl.activeEntries ordRate ordBlock)
        fresh := [] }

end Blackwall.XdpPlane
