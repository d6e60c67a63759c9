/-
The pure FlowSpec decision engine
(`blackwall-rtbh/src/flowspec_controller.rs`).

A target may have several active rules, one a (protocol, port) pair, so
the active set is keyed by `FlowKey`. The key excludes the action: a rule
asserted again with another rate is updated in place and announced again,
and `pendingPrior` remembers the rule it replaced for `rollback`.
-/
import Blackwall.Base.Dict
import Blackwall.Base.Run
import Blackwall.Bgp.FlowSpec
import Blackwall.Rtbh.Controller

namespace Blackwall.FlowSpec

open Base
open Bgp (FlowSpecRule)
open Rtbh (BlackholeOrigin millis)

/-- Identity of an active rule: host route, protocol, destination
port. -/
abbrev FlowKey : Type := IpNet × BitVec 8 × BitVec 16

def keyOf (rule : FlowSpecRule) : FlowKey :=
  (rule.dst, rule.protocol.getD 0, rule.dstPort.getD 0)

/-- State of one active rule. -/
structure ActiveEntry where
  rule : FlowSpecRule
  announcedAt : Nat
  lastActivity : Nat
  origin : BlackholeOrigin
  clearRequestedAt : Option Nat
  pendingPrior : Option FlowSpecRule
  deriving DecidableEq, Repr

/-- The in-place update of a re-assertion: the entry keeps its old rule
as `pendingPrior`. -/
def ActiveEntry.replace (rule : FlowSpecRule) (e : ActiveEntry) :
    ActiveEntry :=
  { e with pendingPrior := some e.rule, rule }

/-- FlowSpec policy configuration. -/
structure FlowSpecConfig where
  eligiblePrefixes : List IpNet
  maxRules : Nat
  holdDown : Nat
  maxTtl : Option Nat
  protectedPrefixes : List IpNet

/-- A decision for the sink to execute. -/
inductive FlowSpecAction
  | announce (rule : FlowSpecRule)
  | withdraw (rule : FlowSpecRule)
  deriving DecidableEq, Repr

/-- The decision engine's state. -/
structure FlowSpecController where
  config : FlowSpecConfig
  active : Dict FlowKey ActiveEntry
  protectedSkipped : Nat

namespace FlowSpecController

/-- A controller with no active rules. -/
def new (config : FlowSpecConfig) : FlowSpecController :=
  { config, active := ∅, protectedSkipped := 0 }

-- =================================================== pure accessors

/-- Whether `target` is inside an eligible prefix. -/
def isEligible (c : FlowSpecController) (target : IpAddr) : Bool :=
  c.config.eligiblePrefixes.any fun p => p.contains target

/-- Whether `target` is inside a protected prefix. -/
def isProtected (c : FlowSpecController) (target : IpAddr) : Bool :=
  c.config.protectedPrefixes.any fun p => p.contains target

/-- The active set as `active_rules` reports it, in the order `ord`. -/
def activeRules (ord : IterOrder (Sigma fun _ : FlowKey => ActiveEntry))
    (c : FlowSpecController) : List (FlowKey × Nat × BlackholeOrigin) :=
  (ord.1 c.active.entries).map fun e => (e.1, e.2.announcedAt, e.2.origin)

/-- `active_rule`: the rule stored under `key` right now. -/
def activeRule (key : FlowKey) (c : FlowSpecController) :
    Option FlowSpecRule :=
  (c.active.lookup key).map (·.rule)

-- ======================================================= transitions

/-- `insert_rule`: the guards in the source's order. A re-assertion
announces only when the action changed. -/
def insertRule (target : IpAddr) (rule : FlowSpecRule) (announcedAt : Nat)
    (origin : BlackholeOrigin) (c : FlowSpecController) :
    List FlowSpecAction × FlowSpecController :=
  if c.isProtected target then
    ([], { c with protectedSkipped := satAdd64 c.protectedSkipped 1 })
  else if !c.isEligible target then ([], c)
  else
    match c.active.lookup (keyOf rule) with
    | some e =>
        let e : ActiveEntry :=
          { e with clearRequestedAt := none, lastActivity := announcedAt }
        if e.rule.action.differs rule.action then
          ([.announce rule], { c with
            active := c.active.insert (keyOf rule) (e.replace rule) })
        else ([], { c with active := c.active.insert (keyOf rule) e })
    | none =>
        if c.config.maxRules ≤ c.active.entries.length then ([], c)
        else
          let entry : ActiveEntry :=
            { rule, announcedAt, lastActivity := announcedAt, origin
              clearRequestedAt := none, pendingPrior := none }
          ([.announce rule],
            { c with active := c.active.insert (keyOf rule) entry })

/-- The rule `install` builds for one tuple. -/
def hostRule (target : IpAddr) (r : BitVec 8 × BitVec 16 × F32) :
    FlowSpecRule :=
  { dst := hostPrefix target, protocol := some r.1, dstPort := some r.2.1
    action := .trafficRate r.2.2 }

/-- `install`: insert every rule of an attack, then hand out the actions
together. -/
def install (target : IpAddr) (rules : List (BitVec 8 × BitVec 16 × F32))
    (now : Nat) (c : FlowSpecController) :
    List FlowSpecAction × FlowSpecController :=
  collect (fun r c => c.insertRule target (hostRule target r) now .auto)
    rules c

/-- One key of `clear_target`: a manual rule stays, one past hold-down is
withdrawn, one inside it remembers the request. -/
def clearKey (now : Nat) (key : FlowKey) (c : FlowSpecController) :
    List FlowSpecAction × FlowSpecController :=
  match c.active.lookup key with
  | none => ([], c)
  | some e =>
      if e.origin = .manual then ([], c)
      else if millis c.config.holdDown ≤ now - e.announcedAt then
        ([.withdraw e.rule], { c with active := c.active.erase key })
      else
        let deferred := { e with clearRequestedAt := some now }
        ([], { c with active := c.active.insert key deferred })

def clearTarget (ord : IterOrder (Sigma fun _ : FlowKey => ActiveEntry))
    (target : IpAddr) (now : Nat) (c : FlowSpecController) :
    List FlowSpecAction × FlowSpecController :=
  let keys := ((ord.1 c.active.entries).map (·.1)).filter
    fun k => k.1 = hostPrefix target
  collect (clearKey now) keys c

/-- `manual_add`: upgrade an active rule to manual, re-announcing it when
the action changed too, or insert it. -/
def manualAdd (rule : FlowSpecRule) (now : Nat) (c : FlowSpecController) :
    List FlowSpecAction × FlowSpecController :=
  match c.active.lookup (keyOf rule) with
  | some e =>
      let e : ActiveEntry :=
        { e with origin := .manual, clearRequestedAt := none }
      if e.rule.action.differs rule.action then
        ([.announce rule], { c with
          active := c.active.insert (keyOf rule) (e.replace rule) })
      else ([], { c with active := c.active.insert (keyOf rule) e })
  | none => c.insertRule rule.dst.addr rule now .manual

/-- Remove a key, withdrawing the rule stored under it. -/
def removeKey (key : FlowKey) (c : FlowSpecController) :
    List FlowSpecAction × FlowSpecController :=
  match c.active.lookup key with
  | some e => ([.withdraw e.rule], { c with active := c.active.erase key })
  | none => ([], c)

def manualRemove (rule : FlowSpecRule) (c : FlowSpecController) :
    List FlowSpecAction × FlowSpecController :=
  c.removeKey (keyOf rule)

/-- Is this entry due for a time-driven withdrawal at `now`? -/
def due (config : FlowSpecConfig) (now : Nat) (e : ActiveEntry) : Bool :=
  let clearedDue := e.clearRequestedAt.isSome &&
    decide (millis config.holdDown ≤ now - e.announcedAt)
  let ttlDue := decide (e.origin = .auto) &&
    (match config.maxTtl with
      | some ttl => decide (millis ttl ≤ now - e.lastActivity)
      | none => false)
  clearedDue || ttlDue

/-- `tick`: withdraw every deferred clear past hold-down and every auto
rule past its TTL. -/
def tick (ord : IterOrder (Sigma fun _ : FlowKey => ActiveEntry))
    (now : Nat) (c : FlowSpecController) :
    List FlowSpecAction × FlowSpecController :=
  let expired := ((ord.1 c.active.entries).filter
    fun e => due c.config now e.2).map (·.1)
  collect removeKey expired c

/-- `resume`: re-install a persisted rule. -/
def resume (rule : FlowSpecRule) (announcedAt : Nat)
    (origin : BlackholeOrigin) (c : FlowSpecController) :
    List FlowSpecAction × FlowSpecController :=
  c.insertRule rule.dst.addr rule announcedAt origin

/-- `refresh_target`: cancel pending clears and refresh the TTL anchor of
every rule of a target. -/
def refreshTarget (target : IpAddr) (now : Nat) (c : FlowSpecController) :
    FlowSpecController :=
  let refresh (k : FlowKey) (e : ActiveEntry) : ActiveEntry :=
    if k.1 = hostPrefix target then
      { e with clearRequestedAt := none, lastActivity := now }
    else e
  { c with active := Dict.mapVals refresh c.active }

/-- `rollback`: put back the rule an in-place update replaced, or drop a
brand-new entry. -/
def rollback (key : FlowKey) (c : FlowSpecController) :
    FlowSpecController :=
  match c.active.lookup key with
  | some e =>
      match e.pendingPrior with
      | some prior =>
          let restored := { e with pendingPrior := none, rule := prior }
          { c with active := c.active.insert key restored }
      | none => { c with active := c.active.erase key }
  | none => { c with active := c.active.erase key }

end FlowSpecController

end Blackwall.FlowSpec
