/-
The single-owner XDP manager (`blackwall-xdp/src/manager.rs`): the RTBH
manager's twin over the eBPF maps (see `Rtbh.Manager` for how calls and
the split of the execute path are modelled).

What differs: there is no rate limiter; installs and removals go through
one execute path, and only an install the caller marks `fresh` is rolled
back when the executor refuses it. A removal, and an install over an
entry that was active already, leave the controller as the operation made
it.
-/
import Blackwall.Base.SelfHeal
import Blackwall.XdpPlane.Controller

namespace Blackwall.XdpPlane

open Base
open Blackwall.Flow (DetectionEvent)

-- ================================================================= calls

/-- The calls the manager makes. -/
inductive Call
  | apply (action : XdpAction)
  | record (action : XdpAction) (origin : XdpOrigin) (atMs : Nat)
  deriving DecidableEq, Repr

-- ============================================================== the data

/-- The identity a queued write is coalesced on. -/
inductive MirrorKey
  | src (a : IpAddr)
  | net (n : IpNet)
  deriving DecidableEq, Repr

def mirrorKeyOf : XdpAction → MirrorKey
  | .rateLimit s _ _ _ | .clearRate s => .src s
  | .block n | .unblock n => .net n

/-- A journal write that failed and is queued for a retry. -/
structure MirrorOp where
  action : XdpAction
  origin : XdpOrigin
  atMs : Nat
  deriving DecidableEq, Repr

/-- The identity a mirror write concerns. -/
def MirrorOp.key (op : MirrorOp) : MirrorKey := mirrorKeyOf op.action

/-- The journal call a mirror write is. -/
def MirrorOp.call (op : MirrorOp) : Call :=
  .record op.action op.origin op.atMs

/-- A `reapply_active` write that failed and is queued for a retry: the
identity alone, the action is looked up at retry time. -/
structure ReapplyOp where
  key : MirrorKey
  deriving DecidableEq, Repr

/-- How the executor side of an action ended. -/
inductive ExecOutcome
  | applied
  | disarmed
  | failed
  deriving DecidableEq, Repr

/-- Why a manual action was rejected outright. -/
inductive RejectReason
  | refused (r : Refusal)
  | blockDisarmed (net : IpNet)
  | limitDisarmed (src : IpAddr)
  deriving DecidableEq, Repr

/-- The message of a rejection, given how prefixes and addresses are
displayed. -/
def RejectReason.text (dispNet : IpNet → String) (disp : IpAddr → String) :
    RejectReason → String
  | .refused r => r.text dispNet disp
  | .blockDisarmed net =>
      dispNet net ++ " was not applied: manager is disarmed (C5)"
  | .limitDisarmed src =>
      disp src ++ " was not rate-limited: manager is disarmed (C5)"

/-- Outcome of a manual apply call. -/
inductive ApplyOutcome
  | applied
  | deferred
  | rejected (reason : RejectReason)
  deriving DecidableEq, Repr

/-- The manager's own state. -/
structure XdpManager where
  controller : XdpController
  pendingMirror : List MirrorOp
  pendingReapply : List ReapplyOp
  applyFailures : Nat
  disarmed : Bool
  disarmedSkips : Nat

namespace XdpManager

def new (controller : XdpController) : XdpManager :=
  { controller, pendingMirror := [], pendingReapply := []
    applyFailures := 0, disarmed := false, disarmedSkips := 0 }

/-- Replace the controller. -/
def setController (c : XdpController) (m : XdpManager) : XdpManager :=
  { m with controller := c }

/-- The queue of failed mirror writes: `queue_mirror` coalesces it by
identity. -/
def mirrorQueue : Mirror.Queue XdpManager Call MirrorOp MirrorKey where
  pending m := m.pendingMirror
  setPending ops m := { m with pendingMirror := ops }
  call := MirrorOp.call
  key := MirrorOp.key
  pending_set _ _ := rfl

/-- `queue_reapply`: queue a failed re-apply, coalescing by identity. -/
def queueReapply (op : ReapplyOp) (m : XdpManager) : XdpManager :=
  { m with pendingReapply :=
      m.pendingReapply.filter (fun o => o.key ≠ op.key) ++ [op] }

end XdpManager

/-- The manager and the calls it has made. -/
abbrev Sys : Type := Traced XdpManager Call

-- ====================================================== the execute path

section Execute

variable (env : Outcomes Call)

/-- Write to the journal; `queue_mirror` the write when it fails. -/
def mirror (op : MirrorOp) (s : Sys) : Sys :=
  XdpManager.mirrorQueue.write env op s

/-- The executor half of `execute_and_journal`: the disarm gate for
installs, then the map write; only a `fresh` install is rolled back. -/
def applyOnMaps (action : XdpAction) (fresh : Bool) (s : Sys) :
    ExecOutcome × Sys :=
  let undo (c : XdpController) := if fresh then c.rollback action else c
  if s.mgr.disarmed && action.isInstall then
    (.disarmed, s.update fun m =>
      { m with controller := undo m.controller
               disarmedSkips := satAdd64 m.disarmedSkips 1 })
  else if s.outcome env (.apply action) then
    (.applied, s.call env (.apply action))
  else
    (.failed, (s.call env (.apply action)).update fun m =>
      { m with controller := undo m.controller
               applyFailures := satAdd64 m.applyFailures 1 })

def executeAndJournal (action : XdpAction) (origin : XdpOrigin)
    (wallNow : Nat) (fresh : Bool) (s : Sys) : ExecOutcome × Sys :=
  match applyOnMaps env action fresh s with
  | (.applied, s') => (.applied, mirror env ⟨action, origin, wallNow⟩ s')
  | (outcome, s') => (outcome, s')

-- ============================================================ self-heals

def retryPendingMirror (s : Sys) : Sys :=
  XdpManager.mirrorQueue.retryAll env s

/-- The action the controller holds for an identity now. -/
def currentAction (key : MirrorKey) (c : XdpController) :
    Option XdpAction :=
  match key with
  | .src s => c.currentRateLimit s
  | .net n => c.currentBlock n

/-- One turn of `retry_pending_reapply`'s loop. -/
def retryReapply (op : ReapplyOp) (s : Sys) : Sys :=
  match currentAction op.key s.mgr.controller with
  | none => s
  | some action =>
      let s' := s.call env (.apply action)
      if s.outcome env (.apply action) then s'
      else s'.update fun m =>
        { m with pendingReapply := m.pendingReapply ++ [op] }

def retryPendingReapply (s : Sys) : Sys :=
  run (retryReapply env) (s.update fun m => { m with pendingReapply := [] })
    s.mgr.pendingReapply

-- ============================================================ operations

/-- `on_detection`: every install the controller hands out is a new
entry. -/
def onDetection (ord : IterOrder IpAddr) (ev : DetectionEvent)
    (wallNow : Nat) (s : Sys) : Sys :=
  let (actions, c) := s.mgr.controller.onDetection ord ev
  run (fun action s => (executeAndJournal env action .auto wallNow true s).2)
    (s.update (.setController c)) actions

/-- `apply_add`: block a network. -/
def applyAdd (net : IpNet) (wallNow : Nat) (s : Sys) : ApplyOutcome × Sys :=
  let fresh := !s.mgr.controller.isBlocked net
  match s.mgr.controller.manualBlock net with
  | (.ok action, c) =>
      match executeAndJournal env action .manual wallNow fresh
          (s.update (.setController c)) with
      | (.applied, s') => (.applied, s')
      | (.disarmed, s') => (.rejected (.blockDisarmed net), s')
      | (.failed, s') => (.deferred, s')
  | (.error e, c) =>
      let s := s.update (.setController c)
      if c.overlapsOwnPrefix net then (.rejected (.refused e), s)
      else (.deferred, s)

/-- `apply_remove`: unblock a network. -/
def applyRemove (net : IpNet) (wallNow : Nat) (s : Sys) :
    ApplyOutcome × Sys :=
  let (action, c) := s.mgr.controller.manualUnblock net
  (.applied, (executeAndJournal env action .manual wallNow false
    (s.update (.setController c))).2)

def applyClearRate (src : IpAddr) (wallNow : Nat) (s : Sys) :
    ApplyOutcome × Sys :=
  let (action, c) := s.mgr.controller.manualClearRate src
  (.applied, (executeAndJournal env action .manual wallNow false
    (s.update (.setController c))).2)

def applyRateLimit (src : IpAddr) (pps burst wallNow : Nat) (s : Sys) :
    ApplyOutcome × Sys :=
  let fresh := !s.mgr.controller.isRateLimited src
  match s.mgr.controller.manualRateLimit src pps burst with
  | (.ok action, c) =>
      match executeAndJournal env action .manual wallNow fresh
          (s.update (.setController c)) with
      | (.applied, s') => (.applied, s')
      | (.disarmed, s') => (.rejected (.limitDisarmed src), s')
      | (.failed, s') => (.deferred, s')
  | (.error _, c) => (.deferred, s.update (.setController c))

/-- `tick`: both self-heals. -/
def tick (s : Sys) : Sys :=
  retryPendingReapply env (retryPendingMirror env s)

/-- One row of `reapply_active`: fold it in and re-apply, without
journaling; a failed re-apply keeps the entry and is queued. -/
def reapplyRow (row : XdpAction × XdpOrigin) (s : Sys) : Sys :=
  let s := s.update fun m =>
    { m with controller := m.controller.markResumed row.1 row.2 }
  let s' := s.call env (.apply row.1)
  if s.outcome env (.apply row.1) then s'
  else s'.update (.queueReapply ⟨mirrorKeyOf row.1⟩)

def reapplyActive (rows : List (XdpAction × XdpOrigin)) (s : Sys) : Sys :=
  run (reapplyRow env) s rows

/-- One entry of `disarm`'s sweep: the inverse is applied best-effort,
never journaled. -/
def disarmEntry (action : XdpAction) (s : Sys) : Sys :=
  let withdraw (inverse : XdpAction × XdpController) : Sys :=
    (s.update (.setController inverse.2)).call env (.apply inverse.1)
  match action with
  | .block net => withdraw (s.mgr.controller.manualUnblock net)
  | .rateLimit src _ _ _ => withdraw (s.mgr.controller.manualClearRate src)
  | .unblock _ | .clearRate _ => s

/-- `disarm`: one-way; a second call does nothing. -/
def disarm (ordRate : IterOrder (Sigma fun _ : IpAddr => RateLimitEntry))
    (ordBlock : IterOrder (Sigma fun _ : IpNet => XdpOrigin)) (s : Sys) :
    Sys :=
  if s.mgr.disarmed then s
  else
    let s := s.update fun m => { m with disarmed := true }
    run (disarmEntry env) s
      ((s.mgr.controller.activeEntries ordRate ordBlock).map (·.1))

-- ================================================================== runs

/-- The entry points of a running manager. -/
inductive Op
  | onDetection (ord : IterOrder IpAddr) (ev : DetectionEvent)
      (wallNow : Nat)
  | applyAdd (net : IpNet) (wallNow : Nat)
  | applyRemove (net : IpNet) (wallNow : Nat)
  | applyRateLimit (src : IpAddr) (pps burst wallNow : Nat)
  | applyClearRate (src : IpAddr) (wallNow : Nat)
  | tick
  | disarm (ordRate : IterOrder (Sigma fun _ : IpAddr => RateLimitEntry))
      (ordBlock : IterOrder (Sigma fun _ : IpNet => XdpOrigin))

/-- Every entry point but the kill switch. -/
def Op.isArmed : Op → Bool
  | .disarm _ _ => false
  | _ => true

/-- One entry point, its reported outcome dropped. -/
def step (op : Op) (s : Sys) : Sys :=
  match op with
  | .onDetection ord ev wallNow => onDetection env ord ev wallNow s
  | .applyAdd net wallNow => (applyAdd env net wallNow s).2
  | .applyRemove net wallNow => (applyRemove env net wallNow s).2
  | .applyRateLimit src pps burst wallNow =>
      (applyRateLimit env src pps burst wallNow s).2
  | .applyClearRate src wallNow => (applyClearRate env src wallNow s).2
  | .tick => tick env s
  | .disarm ordRate ordBlock => disarm env ordRate ordBlock s

/-- What can happen to a manager in its life: an entry point of a running
one, or the `reapply_active` of a session's start. -/
inductive Entry
  | reapplyActive (rows : List (XdpAction × XdpOrigin))
  | op (op : Op)

/-- One of these. -/
def enter (e : Entry) (s : Sys) : Sys :=
  match e with
  | .reapplyActive rows => reapplyActive env rows s
  | .op op => step env op s

/-- Is this the kill switch? -/
def Entry.isDisarm : Entry → Bool
  | .op (.disarm _ _) => true
  | _ => false

end Execute

/-- A fresh manager that has made no call. -/
def start (c : XdpController) : Sys :=
  { mgr := XdpManager.new c, log := [] }

end Blackwall.XdpPlane
