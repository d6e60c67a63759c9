/-
The single-owner FlowSpec manager
(`blackwall-rtbh/src/flowspec_manager.rs`): the RTBH manager's twin, with
rules keyed by `FlowKey` in place of targets.

It shares the RTBH manager's outcome types and the shape of its execute
path (see `Rtbh.Manager` for how calls and the split of that path are
modelled). What differs: `apply_open` mutates the controller for every
rule of an attack before the first announce goes out, a queued
re-announce looks its rule up when it is retried, and there is no
next-hop to reject for.
-/
import Blackwall.Base.SelfHeal
import Blackwall.FlowSpec.Controller
import Blackwall.Rtbh.Manager

namespace Blackwall.FlowSpec

open Base
open Bgp (FlowSpecRule)
open Blackwall.Flow (FlowRule)
open Rtbh (BlackholeOrigin AnnounceOutcome ApplyOutcome)

-- ================================================================= calls

/-- The calls the manager makes. -/
inductive Call
  | tryAcquire (now : Nat)
  | announceFlowspec (rule : FlowSpecRule)
  | withdrawFlowspec (rule : FlowSpecRule)
  | recordAnnounce (rule : FlowSpecRule) (origin : BlackholeOrigin)
      (atMs : Nat)
  | recordWithdraw (rule : FlowSpecRule) (atMs : Nat)
  deriving DecidableEq, Repr

/-- Is this a call of the BGP executor? -/
def Call.isBgp : Call → Bool
  | .announceFlowspec _ | .withdrawFlowspec _ => true
  | _ => false

/-- Is this a call of the journal? -/
def Call.isJournal : Call → Bool
  | .recordAnnounce .. | .recordWithdraw .. => true
  | _ => false

/-- Is this a call of the rate limiter? -/
def Call.isLimiter : Call → Bool
  | .tryAcquire _ => true
  | _ => false

-- ============================================================== the data

/-- A journal write that failed and is queued for a retry. -/
inductive MirrorOp
  | announce (rule : FlowSpecRule) (origin : BlackholeOrigin) (atMs : Nat)
  | withdraw (rule : FlowSpecRule) (atMs : Nat)
  deriving DecidableEq, Repr

/-- The rule a mirror write concerns. -/
def MirrorOp.rule : MirrorOp → FlowSpecRule
  | .announce r _ _ => r
  | .withdraw r _ => r

/-- The `FlowKey` a mirror write concerns. -/
def MirrorOp.key (op : MirrorOp) : FlowKey := keyOf op.rule

/-- The journal call a mirror write is. -/
def MirrorOp.call : MirrorOp → Call
  | .announce r o atMs => .recordAnnounce r o atMs
  | .withdraw r atMs => .recordWithdraw r atMs

/-- A `rehydrate` re-announce that failed and is queued for a retry: the
key alone, the rule is looked up at retry time. -/
structure ReapplyOp where
  key : FlowKey
  deriving DecidableEq, Repr

/-- The manager's own state. -/
structure FlowSpecManager where
  controller : FlowSpecController
  pendingMirror : List MirrorOp
  pendingReapply : List ReapplyOp
  applyFailures : Nat
  rateLimiter : Bool
  ratecapped : Nat
  disarmed : Bool
  disarmedSkips : Nat

namespace FlowSpecManager

/-- `new`, and `with_rate_limiter` when `rateLimiter` is set. -/
def new (controller : FlowSpecController) (rateLimiter : Bool) :
    FlowSpecManager :=
  { controller, pendingMirror := [], pendingReapply := []
    applyFailures := 0, rateLimiter, ratecapped := 0, disarmed := false
    disarmedSkips := 0 }

/-- Replace the controller. -/
def setController (c : FlowSpecController) (m : FlowSpecManager) :
    FlowSpecManager :=
  { m with controller := c }

def isActive (m : FlowSpecManager) (key : FlowKey) : Bool :=
  decide (key ∈ m.controller.active)

/-- The queue of failed mirror writes: `queue_mirror` coalesces it by
`FlowKey`. -/
def mirrorQueue : Mirror.Queue FlowSpecManager Call MirrorOp FlowKey where
  pending m := m.pendingMirror
  setPending ops m := { m with pendingMirror := ops }
  call := MirrorOp.call
  key := MirrorOp.key
  pending_set _ _ := rfl

/-- `queue_reapply`: queue a failed re-announce, coalescing by key. -/
def queueReapply (op : ReapplyOp) (m : FlowSpecManager) :
    FlowSpecManager :=
  { m with pendingReapply :=
      m.pendingReapply.filter (fun o => o.key ≠ op.key) ++ [op] }

end FlowSpecManager

/-- The manager and the calls it has made. -/
abbrev Sys : Type := Traced FlowSpecManager Call

-- ====================================================== the execute path

section Execute

variable (env : Outcomes Call)

/-- Write to the journal; `queue_mirror` the write when it fails. -/
def mirror (op : MirrorOp) (s : Sys) : Sys :=
  FlowSpecManager.mirrorQueue.write env op s

/-- The BGP half of `execute_and_journal_announce`: the disarm gate, the
rate cap, then the announce, each failure rolling the controller back. -/
def announceOnBgp (rule : FlowSpecRule) (monoNow : Nat) (s : Sys) :
    AnnounceOutcome × Sys :=
  if s.mgr.disarmed then
    (.disarmed, s.update fun m =>
      { m with controller := m.controller.rollback (keyOf rule)
               disarmedSkips := satAdd64 m.disarmedSkips 1 })
  else
    let acquire := Call.tryAcquire monoNow
    let allowed := !s.mgr.rateLimiter || s.outcome env acquire
    let s := if s.mgr.rateLimiter then s.call env acquire else s
    if !allowed then
      (.rateCapped, s.update fun m =>
        { m with controller := m.controller.rollback (keyOf rule)
                 ratecapped := satAdd64 m.ratecapped 1 })
    else if s.outcome env (.announceFlowspec rule) then
      (.applied, s.call env (.announceFlowspec rule))
    else
      (.failed, (s.call env (.announceFlowspec rule)).update fun m =>
        { m with controller := m.controller.rollback (keyOf rule)
                 applyFailures := satAdd64 m.applyFailures 1 })

def executeAndJournalAnnounce (rule : FlowSpecRule)
    (origin : BlackholeOrigin) (monoNow wallNow : Nat) (s : Sys) :
    AnnounceOutcome × Sys :=
  match announceOnBgp env rule monoNow s with
  | (.applied, s') =>
      (.applied, mirror env (.announce rule origin wallNow) s')
  | (outcome, s') => (outcome, s')

/-- `execute_and_journal`: one controller action. A withdraw that fails
on BGP is logged and not journaled; nothing else happens. -/
def executeAndJournal (monoNow wallNow : Nat) (action : FlowSpecAction)
    (s : Sys) : Sys :=
  match action with
  | .announce rule =>
      (executeAndJournalAnnounce env rule .auto monoNow wallNow s).2
  | .withdraw rule =>
      let s' := s.call env (.withdrawFlowspec rule)
      if s.outcome env (.withdrawFlowspec rule) then
        mirror env (.withdraw rule wallNow) s'
      else s'

/-- The loop over a controller's actions. -/
def executeAll (monoNow wallNow : Nat) (actions : List FlowSpecAction)
    (s : Sys) : Sys :=
  run (executeAndJournal env monoNow wallNow) s actions

-- ============================================================ self-heals

def retryPendingMirror (s : Sys) : Sys :=
  FlowSpecManager.mirrorQueue.retryAll env s

/-- One turn of `retry_pending_reapply`'s loop: the rule is the one the
controller holds now, and a key no longer active is dropped. -/
def retryReapply (op : ReapplyOp) (s : Sys) : Sys :=
  match s.mgr.controller.activeRule op.key with
  | none => s
  | some rule =>
      let s' := s.call env (.announceFlowspec rule)
      if s.outcome env (.announceFlowspec rule) then s'
      else s'.update fun m =>
        { m with pendingReapply := m.pendingReapply ++ [op] }

def retryPendingReapply (s : Sys) : Sys :=
  run (retryReapply env) (s.update fun m => { m with pendingReapply := [] })
    s.mgr.pendingReapply

-- ============================================================ operations

def applyOpen (target : IpAddr) (rules : List FlowRule)
    (monoNow wallNow : Nat) (s : Sys) : Sys :=
  let tuples := rules.map fun r => (r.proto, r.dstPort, r.rate)
  let (actions, c) := s.mgr.controller.install target tuples monoNow
  executeAll env monoNow wallNow actions (s.update (.setController c))

def applyClear (ord : IterOrder (Sigma fun _ : FlowKey => ActiveEntry))
    (target : IpAddr) (monoNow wallNow : Nat) (s : Sys) : Sys :=
  let (actions, c) := s.mgr.controller.clearTarget ord target monoNow
  executeAll env monoNow wallNow actions (s.update (.setController c))

/-- `apply_updated`: no call, only the controller's bookkeeping. -/
def applyUpdated (target : IpAddr) (monoNow : Nat) (s : Sys) : Sys :=
  s.update (.setController (s.mgr.controller.refreshTarget target monoNow))

/-- `tick`: both self-heals, then the time-driven withdrawals. -/
def tick (ord : IterOrder (Sigma fun _ : FlowKey => ActiveEntry))
    (monoNow wallNow : Nat) (s : Sys) : Sys :=
  let s := retryPendingReapply env (retryPendingMirror env s)
  let (actions, c) := s.mgr.controller.tick ord monoNow
  executeAll env monoNow wallNow actions (s.update (.setController c))

def applyAdd (rule : FlowSpecRule) (monoNow wallNow : Nat) (s : Sys) :
    ApplyOutcome × Sys :=
  let target := rule.dst.addr
  let (actions, c) := s.mgr.controller.manualAdd rule monoNow
  let s := s.update (.setController c)
  match actions.head? with
  | some (.announce r) =>
      match executeAndJournalAnnounce env r .manual monoNow wallNow s with
      | (.applied, s') => (.applied, s')
      | (.rateCapped, s') => (.deferred, s')
      | (.disarmed, s') => (.rejected (.disarmed target), s')
      | (.failed, s') => (.deferred, s')
  | _ =>
      -- already active (an upgrade), at cap, or rejected
      if s.mgr.isActive (keyOf rule) then
        (.applied, mirror env (.announce rule .manual wallNow) s)
      else if c.isProtected target then (.rejected (.isProtected target), s)
      else if !c.isEligible target then (.rejected (.ineligible target), s)
      else (.deferred, s)

def applyRemove (rule : FlowSpecRule) (monoNow wallNow : Nat) (s : Sys) :
    Sys :=
  let (actions, c) := s.mgr.controller.manualRemove rule
  executeAll env monoNow wallNow actions (s.update (.setController c))

/-- One row of `rehydrate`: resume it and re-announce, without
journaling; a failed re-announce keeps the entry and is queued. -/
def rehydrateRow (monoNow : Nat)
    (row : FlowSpecRule × Nat × BlackholeOrigin) (s : Sys) : Sys :=
  let (actions, c) := s.mgr.controller.resume row.1 monoNow row.2.2
  let s := s.update (.setController c)
  match actions.head? with
  | some (.announce r) =>
      let s' := s.call env (.announceFlowspec r)
      if s.outcome env (.announceFlowspec r) then s'
      else s'.update (.queueReapply ⟨keyOf r⟩)
  | _ => s

def rehydrate (rows : List (FlowSpecRule × Nat × BlackholeOrigin))
    (monoNow : Nat) (s : Sys) : Sys :=
  run (rehydrateRow env monoNow) s rows

/-- One key of `disarm`'s sweep: the stored rule is withdrawn
best-effort, never journaled. -/
def disarmKey (key : FlowKey) (s : Sys) : Sys :=
  let placeholder : FlowSpecRule :=
    { dst := key.1, protocol := some key.2.1, dstPort := some key.2.2
      action := .trafficRate ⟨0⟩ }
  let (actions, c) := s.mgr.controller.manualRemove placeholder
  run (fun action s =>
      match action with
      | .withdraw rule => s.call env (.withdrawFlowspec rule)
      | .announce _ => s)
    (s.update (.setController c)) actions

/-- `disarm`: one-way; a second call does nothing. -/
def disarm (ord : IterOrder (Sigma fun _ : FlowKey => ActiveEntry))
    (s : Sys) : Sys :=
  if s.mgr.disarmed then s
  else
    let s := s.update fun m => { m with disarmed := true }
    run (disarmKey env) s
      ((s.mgr.controller.activeRules ord).map (·.1))

-- ================================================================== runs

/-- The entry points of a running manager. -/
inductive Op
  | applyOpen (target : IpAddr) (rules : List FlowRule)
      (monoNow wallNow : Nat)
  | applyClear (ord : IterOrder (Sigma fun _ : FlowKey => ActiveEntry))
      (target : IpAddr) (monoNow wallNow : Nat)
  | applyUpdated (target : IpAddr) (monoNow : Nat)
  | applyAdd (rule : FlowSpecRule) (monoNow wallNow : Nat)
  | applyRemove (rule : FlowSpecRule) (monoNow wallNow : Nat)
  | tick (ord : IterOrder (Sigma fun _ : FlowKey => ActiveEntry))
      (monoNow wallNow : Nat)
  | disarm (ord : IterOrder (Sigma fun _ : FlowKey => ActiveEntry))

/-- Every entry point but the kill switch. -/
def Op.isArmed : Op → Bool
  | .disarm _ => false
  | _ => true

/-- A rule as the CLI and the detector build it: a host destination, and
both a protocol and a port. -/
def isHostRule (rule : FlowSpecRule) : Bool :=
  decide (rule.dst = hostPrefix rule.dst.addr) && rule.protocol.isSome
    && rule.dstPort.isSome

/-- The inputs the daemon passes: the rules of one `apply_open` have
distinct (protocol, port) pairs, an operator's rule is a host rule. -/
def Op.wellFormed : Op → Bool
  | .applyOpen _ rules _ _ =>
      decide (rules.map fun r => (r.proto, r.dstPort)).Nodup
  | .applyAdd rule _ _ | .applyRemove rule _ _ => isHostRule rule
  | _ => true

/-- One entry point, its reported outcome dropped. -/
def step (op : Op) (s : Sys) : Sys :=
  match op with
  | .applyOpen target rules monoNow wallNow =>
      applyOpen env target rules monoNow wallNow s
  | .applyClear ord target monoNow wallNow =>
      applyClear env ord target monoNow wallNow s
  | .applyUpdated target monoNow => applyUpdated target monoNow s
  | .applyAdd rule monoNow wallNow =>
      (applyAdd env rule monoNow wallNow s).2
  | .applyRemove rule monoNow wallNow =>
      applyRemove env rule monoNow wallNow s
  | .tick ord monoNow wallNow => tick env ord monoNow wallNow s
  | .disarm ord => disarm env ord s

/-- What can happen to a manager in its life: an entry point of a running
one, or the `rehydrate` of a session's start. -/
inductive Entry
  | rehydrate (rows : List (FlowSpecRule × Nat × BlackholeOrigin))
      (monoNow : Nat)
  | op (op : Op)

/-- One of these. -/
def enter (e : Entry) (s : Sys) : Sys :=
  match e with
  | .rehydrate rows monoNow => rehydrate env rows monoNow s
  | .op op => step env op s

/-- Is this the kill switch? -/
def Entry.isDisarm : Entry → Bool
  | .op (.disarm _) => true
  | _ => false

end Execute

/-- A fresh manager that has made no call. -/
def start (config : FlowSpecConfig) (rateLimiter : Bool) : Sys :=
  { mgr := FlowSpecManager.new (FlowSpecController.new config) rateLimiter
    log := [] }

end Blackwall.FlowSpec
