/-
The detector feeding the RTBH manager.

A `Plane` is the two components side by side. Its steps are an
observation, a detector tick whose events are all delivered to
`apply_event` in order, and a manager tick; operator requests and the
kill switch are left out. Every delivery reads the clock on its own, so
its times are a function of the event.

The statements about a detector tick are here too: what "a failed
announce is re-attempted" asks of it (`Reattempted`), and the condition
under which the code delivers that (`PlaneOp.ok`).
-/
import Blackwall.Flow.Proofs.Detector
import Blackwall.Rtbh.World

namespace Blackwall.Rtbh

open Base
open Blackwall.Flow (DetectionEvent DstState FlowObservation HashOrders
  Rounding ThresholdDetector)

-- ============================================================ the plane

/-- The detector and the manager it feeds. -/
structure Plane where
  det : ThresholdDetector
  sys : Sys

/-- What a detector tick finds outside: the time, the orders its maps are
visited in, and the clocks (monotonic, wall) each delivery reads. -/
structure DetTick where
  nowMs : Nat
  orders : IpAddr → HashOrders
  visitOrder : IterOrder (Sigma fun _ : IpAddr => DstState)
  clock : DetectionEvent → Nat × Nat

/-- The steps of the plane. -/
inductive PlaneOp
  | observe (obs : FlowObservation) (nowMs : Nat)
  | detect (t : DetTick)
  | managerTick (ord : IterOrder (Sigma fun _ : IpAddr => ActiveEntry))
      (monoNow wallNow : Nat)

section Steps

variable (rd : Rounding) (env : Outcomes Call)

/-- How the source reads the windows in this tick. -/
def DetTick.assess (t : DetTick) (det : ThresholdDetector) :
    IpAddr → Flow.Assess :=
  fun dst => det.assess rd (t.orders dst)

/-- The detector's half of a tick. -/
def DetTick.run (t : DetTick) (det : ThresholdDetector) :
    List DetectionEvent × ThresholdDetector :=
  det.tick rd t.orders t.visitOrder t.nowMs

/-- Deliver one event. -/
def deliver (clock : DetectionEvent → Nat × Nat) (ev : DetectionEvent)
    (s : Sys) : Sys :=
  applyEvent env ev (clock ev).1 (clock ev).2 s

/-- The manager once it has processed a detector tick. -/
def DetTick.processed (t : DetTick) (p : Plane) : Sys :=
  Base.run (deliver env t.clock) p.sys (t.run rd p.det).1

/-- One step of the plane. An observation whose push panics ends the
collector; the plane then stays as it is. -/
def Plane.step (op : PlaneOp) (p : Plane) : Plane :=
  match op with
  | .observe obs nowMs =>
      match p.det.observe obs nowMs with
      | some det => { p with det }
      | none => p
  | .detect t => { det := (t.run rd p.det).2, sys := t.processed rd env p }
  | .managerTick ord monoNow wallNow =>
      { p with sys := tick env ord monoNow wallNow p.sys }

end Steps

-- ============================================================ statements

/-- Eligible, not protected, and with a next-hop for its family. -/
def RtbhController.mitigable (c : RtbhController) (t : IpAddr) : Bool :=
  c.isEligible t && !c.isProtected t && c.hasNextHop t

/-- The active set is at `max_blackholes`. -/
def RtbhController.atCap (c : RtbhController) : Bool :=
  decide (c.config.maxBlackholes ≤ c.active.entries.length)

/-- The active set is at its cap when the event for `t` is delivered. -/
def cappedFor (env : Outcomes Call) (clock : DetectionEvent → Nat × Nat)
    (t : IpAddr) : Sys → List DetectionEvent → Bool
  | _, [] => false
  | s, ev :: evs =>
      if ev.target = t then s.mgr.controller.atCap
      else cappedFor env clock t (deliver env clock ev s) evs

/-- Between the two states an announce for `t` was made and failed. -/
def attemptFailed (t : IpAddr) (before after : Sys) : Bool :=
  (after.log.drop before.log.length).any fun
    | (.announce r, false) => decide (r.net = hostPrefix t)
    | _ => false

/-- After the tick every detected target that may be blackholed is
active, unless the set was at its cap or the announce failed just
now. -/
def Reattempted (rd : Rounding) (env : Outcomes Call) (t : DetTick)
    (p : Plane) : Prop :=
  ∀ d, DetectionEvent.opened d ∈ (t.run rd p.det).1
      ∨ DetectionEvent.updated d ∈ (t.run rd p.det).1 →
    p.sys.mgr.controller.mitigable d.target = true →
    d.target ∈ (t.processed rd env p).mgr.controller.active
      ∨ cappedFor env t.clock d.target p.sys (t.run rd p.det).1 = true
      ∨ attemptFailed d.target p.sys (t.processed rd env p) = true

/-- An announce decides whether its prefix's latest announce failed. -/
def failedStep (st : Finset IpNet) : Call × Bool → Finset IpNet
  | (.announce r, true) => st.erase r.net
  | (.announce r, false) => insert r.net st
  | _ => st

/-- The prefixes whose most recent announce failed. -/
def failed (s : Sys) : Finset IpNet := s.view failedStep ∅

/-- An `Opened` that would add a target finds room for it. -/
def findsRoom (s : Sys) (ev : DetectionEvent) : Bool :=
  match ev with
  | .opened d =>
      !s.mgr.controller.mitigable d.target
        || decide (d.target ∈ s.mgr.controller.active)
        || !s.mgr.controller.atCap
  | _ => true

/-- The condition on one step: at a detector tick, no open target that is
still over its threshold has a failed announce as its latest, and no
target is opened into a full set. -/
def PlaneOp.ok (rd : Rounding) (env : Outcomes Call) (p : Plane) :
    PlaneOp → Prop
  | .detect t =>
      (∀ dst ∈ p.det.state.keys, p.det.isOpen dst = true →
          p.det.isOver (t.assess rd p.det) t.nowMs dst = true →
          hostPrefix dst ∉ failed p.sys)
        ∧ Guarded (deliver env t.clock) (fun s ev => findsRoom s ev = true)
          p.sys (t.run rd p.det).1
  | _ => True

instance (rd : Rounding) (env : Outcomes Call) (p : Plane) (op : PlaneOp) :
    Decidable (op.ok rd env p) :=
  match op with
  | .detect _ => inferInstanceAs (Decidable (_ ∧ _))
  | .observe .. => inferInstanceAs (Decidable True)
  | .managerTick .. => inferInstanceAs (Decidable True)

end Blackwall.Rtbh
