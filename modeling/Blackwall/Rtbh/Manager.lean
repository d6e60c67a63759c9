/-
The single-owner RTBH manager (`blackwall-rtbh/src/manager.rs`): it
executes the controller's decisions on BGP and mirrors them into the
journal.

# The outside

The BGP executor, the journal and the shared rate limiter are reached
through calls that succeed or fail (`Call`). An operation is a function
on the manager together with the log of its calls (`Sys`), under an
arbitrary outcome for every call. The limiter is a call too: it is shared
with the FlowSpec manager, so what it answers is not a function of this
manager's history. `tracing` output is not modelled.

# The split of the execute path

`execute_and_journal_announce` and the withdraw arm of
`execute_and_journal` first decide the BGP side and then mirror. The
mirror half is the same three lines in every place (write, and queue the
write when it fails), so it is one definition, `mirror`, and the BGP half
of an announce is `announceOnBgp`. The queue itself, its coalescing and
its retry loop are `Base.Mirror.Queue` at this manager's queue.
-/
import Blackwall.Base.SelfHeal
import Blackwall.Rtbh.Controller

namespace Blackwall.Rtbh

open Base
open Bgp (Route)
open Blackwall.Flow (DetectionEvent)

-- ================================================================= calls

/-- The calls the manager makes. -/
inductive Call
  | tryAcquire (now : Nat)
  | announce (route : Route)
  | withdraw (net : IpNet)
  | recordAnnounce (target : IpAddr) (origin : BlackholeOrigin) (atMs : Nat)
  | recordWithdraw (target : IpAddr) (atMs : Nat)
  deriving DecidableEq, Repr

/-- Is this a call of the BGP executor? -/
def Call.isBgp : Call → Bool
  | .announce _ | .withdraw _ => true
  | _ => false

/-- Is this a call of the journal? -/
def Call.isJournal : Call → Bool
  | .recordAnnounce .. | .recordWithdraw .. => true
  | _ => false

/-- Is this a call of the rate limiter? -/
def Call.isLimiter : Call → Bool
  | .tryAcquire _ => true
  | _ => false

-- ============================================================== the data

/-- A journal write that failed and is queued for a retry. -/
inductive MirrorOp
  | announce (target : IpAddr) (origin : BlackholeOrigin) (atMs : Nat)
  | withdraw (target : IpAddr) (atMs : Nat)
  deriving DecidableEq, Repr

/-- The target a mirror write concerns. -/
def MirrorOp.target : MirrorOp → IpAddr
  | .announce t _ _ => t
  | .withdraw t _ => t

/-- The journal call a mirror write is. -/
def MirrorOp.call : MirrorOp → Call
  | .announce t o atMs => .recordAnnounce t o atMs
  | .withdraw t atMs => .recordWithdraw t atMs

/-- A `rehydrate` re-announce that failed and is queued for a retry. -/
structure ReapplyOp where
  target : IpAddr
  route : Route
  deriving DecidableEq, Repr

/-- How the BGP side of an announce ended. -/
inductive AnnounceOutcome
  | applied
  | rateCapped
  | disarmed
  | failed
  deriving DecidableEq, Repr

/-- Why an add was rejected outright. -/
inductive RejectReason
  | disarmed (target : IpAddr)
  | isProtected (target : IpAddr)
  | ineligible (target : IpAddr)
  | noNextHop (target : IpAddr)
  deriving DecidableEq, Repr

/-- The message of a rejection, given how an address is displayed. -/
def RejectReason.text (disp : IpAddr → String) : RejectReason → String
  | .disarmed t => disp t ++ " was not announced: manager is disarmed (C5)"
  | .isProtected t =>
      disp t ++ " is inside a protected prefix and is never mitigated"
  | .ineligible t => disp t ++ " is outside eligible prefixes"
  | .noNextHop t => "no next-hop configured for " ++ disp t ++ "'s family"

/-- Outcome of `apply_add`. -/
inductive ApplyOutcome
  | applied
  | deferred
  | rejected (reason : RejectReason)
  deriving DecidableEq, Repr

/-- The manager's own state. `rateLimiter` says whether the shared
limiter is attached. -/
structure RtbhManager where
  controller : RtbhController
  pendingMirror : List MirrorOp
  pendingReapply : List ReapplyOp
  applyFailures : Nat
  rateLimiter : Bool
  ratecapped : Nat
  disarmed : Bool
  disarmedSkips : Nat

namespace RtbhManager

/-- `new`, and `with_rate_limiter` when `rateLimiter` is set. -/
def new (controller : RtbhController) (rateLimiter : Bool) : RtbhManager :=
  { controller, pendingMirror := [], pendingReapply := []
    applyFailures := 0, rateLimiter, ratecapped := 0, disarmed := false
    disarmedSkips := 0 }

/-- Replace the controller. -/
def setController (c : RtbhController) (m : RtbhManager) : RtbhManager :=
  { m with controller := c }

def isActive (m : RtbhManager) (target : IpAddr) : Bool :=
  decide (target ∈ m.controller.active)

/-- The queue of failed mirror writes: `queue_mirror` coalesces it by
target. -/
def mirrorQueue : Mirror.Queue RtbhManager Call MirrorOp IpAddr where
  pending m := m.pendingMirror
  setPending ops m := { m with pendingMirror := ops }
  call := MirrorOp.call
  key := MirrorOp.target
  pending_set _ _ := rfl

/-- `queue_reapply`: queue a failed re-announce, coalescing by target. -/
def queueReapply (op : ReapplyOp) (m : RtbhManager) : RtbhManager :=
  { m with pendingReapply :=
      m.pendingReapply.filter (fun o => o.target ≠ op.target) ++ [op] }

end RtbhManager

/-- The manager and the calls it has made. -/
abbrev Sys : Type := Traced RtbhManager Call

-- ====================================================== the execute path

section Execute

variable (env : Outcomes Call)

/-- Write to the journal; `queue_mirror` the write when it fails. -/
def mirror (op : MirrorOp) (s : Sys) : Sys :=
  RtbhManager.mirrorQueue.write env op s

/-- The BGP half of `execute_and_journal_announce`: the disarm gate, the
rate cap, then the announce, each failure rolling the controller back. -/
def announceOnBgp (target : IpAddr) (route : Route) (monoNow : Nat)
    (s : Sys) : AnnounceOutcome × Sys :=
  if s.mgr.disarmed then
    (.disarmed, s.update fun m =>
      { m with controller := m.controller.rollback target
               disarmedSkips := satAdd64 m.disarmedSkips 1 })
  else
    let acquire := Call.tryAcquire monoNow
    let allowed := !s.mgr.rateLimiter || s.outcome env acquire
    let s := if s.mgr.rateLimiter then s.call env acquire else s
    if !allowed then
      (.rateCapped, s.update fun m =>
        { m with controller := m.controller.rollback target
                 ratecapped := satAdd64 m.ratecapped 1 })
    else if s.outcome env (.announce route) then
      (.applied, s.call env (.announce route))
    else
      (.failed, (s.call env (.announce route)).update fun m =>
        { m with controller := m.controller.rollback target
                 applyFailures := satAdd64 m.applyFailures 1 })

def executeAndJournalAnnounce (target : IpAddr) (route : Route)
    (origin : BlackholeOrigin) (monoNow wallNow : Nat) (s : Sys) :
    AnnounceOutcome × Sys :=
  match announceOnBgp env target route monoNow s with
  | (.applied, s') =>
      (.applied, mirror env (.announce target origin wallNow) s')
  | (outcome, s') => (outcome, s')

/-- `execute_and_journal`: one controller action. A withdraw that fails
on BGP is logged and not journaled; nothing else happens. -/
def executeAndJournal (monoNow wallNow : Nat) (action : RtbhAction)
    (s : Sys) : Sys :=
  match action with
  | .announce route =>
      (executeAndJournalAnnounce env route.net.addr route .auto
        monoNow wallNow s).2
  | .withdraw net =>
      let s' := s.call env (.withdraw net)
      if s.outcome env (.withdraw net) then
        mirror env (.withdraw net.addr wallNow) s'
      else s'

/-- The loop over a controller's actions. -/
def executeAll (monoNow wallNow : Nat) (actions : List RtbhAction)
    (s : Sys) : Sys :=
  run (executeAndJournal env monoNow wallNow) s actions

-- ============================================================ self-heals

def retryPendingMirror (s : Sys) : Sys :=
  RtbhManager.mirrorQueue.retryAll env s

/-- One turn of `retry_pending_reapply`'s loop: an op whose target is no
longer active is dropped. -/
def retryReapply (op : ReapplyOp) (s : Sys) : Sys :=
  if s.mgr.isActive op.target then
    let s' := s.call env (.announce op.route)
    if s.outcome env (.announce op.route) then s'
    else s'.update fun m =>
      { m with pendingReapply := m.pendingReapply ++ [op] }
  else s

def retryPendingReapply (s : Sys) : Sys :=
  run (retryReapply env) (s.update fun m => { m with pendingReapply := [] })
    s.mgr.pendingReapply

-- ============================================================ operations

def applyEvent (event : DetectionEvent) (monoNow wallNow : Nat) (s : Sys) :
    Sys :=
  let (actions, c) := s.mgr.controller.onEvent event monoNow
  executeAll env monoNow wallNow actions (s.update (.setController c))

/-- `tick`: both self-heals, then the time-driven withdrawals. -/
def tick (ord : IterOrder (Sigma fun _ : IpAddr => ActiveEntry))
    (monoNow wallNow : Nat) (s : Sys) : Sys :=
  let s := retryPendingReapply env (retryPendingMirror env s)
  let (actions, c) := s.mgr.controller.tick ord monoNow
  executeAll env monoNow wallNow actions (s.update (.setController c))

def applyAdd (target : IpAddr) (monoNow wallNow : Nat) (s : Sys) :
    ApplyOutcome × Sys :=
  let (actions, c) := s.mgr.controller.manualAdd target monoNow
  let s := s.update (.setController c)
  match actions.head? with
  | some (.announce route) =>
      match executeAndJournalAnnounce env target route .manual
          monoNow wallNow s with
      | (.applied, s') => (.applied, s')
      | (.rateCapped, s') => (.deferred, s')
      | (.disarmed, s') => (.rejected (.disarmed target), s')
      | (.failed, s') => (.deferred, s')
  | _ =>
      -- already active (an upgrade), at cap, or rejected
      if s.mgr.isActive target then
        (.applied, mirror env (.announce target .manual wallNow) s)
      else if c.isProtected target then (.rejected (.isProtected target), s)
      else if !c.isEligible target then (.rejected (.ineligible target), s)
      else if !c.hasNextHop target then (.rejected (.noNextHop target), s)
      else (.deferred, s)

def applyRemove (target : IpAddr) (monoNow wallNow : Nat) (s : Sys) : Sys :=
  let (actions, c) := s.mgr.controller.manualRemove target
  executeAll env monoNow wallNow actions (s.update (.setController c))

/-- One row of `rehydrate`: resume it and re-announce, without
journaling; a failed re-announce keeps the entry and is queued. -/
def rehydrateRow (monoNow : Nat) (row : IpAddr × Nat × BlackholeOrigin)
    (s : Sys) : Sys :=
  let (actions, c) := s.mgr.controller.resume row.1 monoNow row.2.2
  let s := s.update (.setController c)
  match actions.head? with
  | some (.announce route) =>
      let s' := s.call env (.announce route)
      if s.outcome env (.announce route) then s'
      else s'.update (.queueReapply ⟨row.1, route⟩)
  | _ => s

def rehydrate (rows : List (IpAddr × Nat × BlackholeOrigin))
    (monoNow : Nat) (s : Sys) : Sys :=
  run (rehydrateRow env monoNow) s rows

/-- One target of `disarm`'s sweep: withdrawn best-effort, never
journaled. -/
def disarmTarget (target : IpAddr) (s : Sys) : Sys :=
  let (actions, c) := s.mgr.controller.manualRemove target
  run (fun action s =>
      match action with
      | .withdraw net => s.call env (.withdraw net)
      | .announce _ => s)
    (s.update (.setController c)) actions

/-- `disarm`: one-way; a second call does nothing. -/
def disarm (ord : IterOrder (Sigma fun _ : IpAddr => ActiveEntry))
    (s : Sys) : Sys :=
  if s.mgr.disarmed then s
  else
    let s := s.update fun m => { m with disarmed := true }
    run (disarmTarget env) s
      ((s.mgr.controller.activeBlackholes ord).map (·.1))

-- ================================================================== runs

/-- The entry points of a running manager. -/
inductive Op
  | applyEvent (event : DetectionEvent) (monoNow wallNow : Nat)
  | applyAdd (target : IpAddr) (monoNow wallNow : Nat)
  | applyRemove (target : IpAddr) (monoNow wallNow : Nat)
  | tick (ord : IterOrder (Sigma fun _ : IpAddr => ActiveEntry))
      (monoNow wallNow : Nat)
  | disarm (ord : IterOrder (Sigma fun _ : IpAddr => ActiveEntry))

/-- Every entry point but the kill switch. -/
def Op.isArmed : Op → Bool
  | .disarm _ => false
  | _ => true

/-- One entry point, its reported outcome dropped. -/
def step (op : Op) (s : Sys) : Sys :=
  match op with
  | .applyEvent event monoNow wallNow =>
      applyEvent env event monoNow wallNow s
  | .applyAdd target monoNow wallNow =>
      (applyAdd env target monoNow wallNow s).2
  | .applyRemove target monoNow wallNow =>
      applyRemove env target monoNow wallNow s
  | .tick ord monoNow wallNow => tick env ord monoNow wallNow s
  | .disarm ord => disarm env ord s

/-- What can happen to a manager in its life: an entry point of a running
one, or the `rehydrate` of a session's start. -/
inductive Entry
  | rehydrate (rows : List (IpAddr × Nat × BlackholeOrigin))
      (monoNow : Nat)
  | op (op : Op)

/-- One of these. -/
def enter (e : Entry) (s : Sys) : Sys :=
  match e with
  | .rehydrate rows monoNow => rehydrate env rows monoNow s
  | .op op => step env op s

/-- Is this the kill switch? -/
def Entry.isDisarm : Entry → Bool
  | .op (.disarm _) => true
  | _ => false

end Execute

/-- A fresh manager that has made no call. -/
def start (config : RtbhConfig) (rateLimiter : Bool) : Sys :=
  { mgr := RtbhManager.new (RtbhController.new config) rateLimiter
    log := [] }

end Blackwall.Rtbh
