/-
The pure RTBH decision engine (`blackwall-rtbh/src/controller.rs`).

Times are `u64` milliseconds held as naturals; the only arithmetic on
them is `saturating_sub`, which is truncated subtraction. A `Duration` is
its `as_millis`, clamped to `u64` where the source clamps it (`millis`).
The active set is a map without a specified order, so `tick` takes the
order its traversal happens to use.
-/
import Blackwall.Base.Dict
import Blackwall.Bgp.Route
import Blackwall.Flow.Detection

namespace Blackwall.Rtbh

open Base
open Bgp (Route)
open Blackwall.Flow (DetectionEvent)

-- ====================================================== data of the plane

/-- Why a blackhole is active. -/
inductive BlackholeOrigin
  | auto
  | manual
  deriving DecidableEq, Repr

/-- State of one active blackhole. -/
structure ActiveEntry where
  announcedAt : Nat
  lastActivity : Nat
  origin : BlackholeOrigin
  clearRequestedAt : Option Nat
  deriving DecidableEq, Repr

/-- RTBH policy configuration. -/
structure RtbhConfig where
  eligiblePrefixes : List IpNet
  blackholeCommunities : List (BitVec 16 × BitVec 16)
  nextHopV4 : Option (BitVec 32)
  nextHopV6 : Option (BitVec 128)
  maxBlackholes : Nat
  holdDown : Nat
  maxTtl : Option Nat
  protectedPrefixes : List IpNet

/-- A decision for the sink to execute. -/
inductive RtbhAction
  | announce (route : Route)
  | withdraw (net : IpNet)
  deriving DecidableEq, Repr

/-- The decision engine's state. -/
structure RtbhController where
  config : RtbhConfig
  active : Dict IpAddr ActiveEntry
  protectedSkipped : Nat

/-- `u64::try_from(d.as_millis()).unwrap_or(u64::MAX)`. -/
def millis (d : Nat) : Nat := min d u64Max

namespace RtbhController

/-- A controller with no active blackholes. -/
def new (config : RtbhConfig) : RtbhController :=
  { config, active := ∅, protectedSkipped := 0 }

-- =================================================== pure accessors

/-- Whether `target` is inside an eligible prefix. -/
def isEligible (c : RtbhController) (target : IpAddr) : Bool :=
  c.config.eligiblePrefixes.any fun p => p.contains target

/-- Whether `target` is inside a protected prefix. -/
def isProtected (c : RtbhController) (target : IpAddr) : Bool :=
  c.config.protectedPrefixes.any fun p => p.contains target

/-- Whether a next-hop is configured for `target`'s family. -/
def hasNextHop (c : RtbhController) : IpAddr → Bool
  | .v4 _ => c.config.nextHopV4.isSome
  | .v6 _ => c.config.nextHopV6.isSome

/-- The active set as `active_blackholes` reports it, in the order
`ord`. -/
def activeBlackholes
    (ord : IterOrder (Sigma fun _ : IpAddr => ActiveEntry))
    (c : RtbhController) : List (IpAddr × Nat × BlackholeOrigin) :=
  (ord.1 c.active.entries).map fun e => (e.1, e.2.announcedAt, e.2.origin)

/-- The blackhole route of a target; `none` without a next-hop for its
family. -/
def hostRoute (c : RtbhController) (target : IpAddr) : Option Route :=
  let nextHop : Option IpAddr := match target with
    | .v4 _ => c.config.nextHopV4.map IpAddr.v4
    | .v6 _ => c.config.nextHopV6.map IpAddr.v6
  nextHop.map fun nh =>
    { net := hostPrefix target
      nextHop := nh
      origin := .igp
      communities := c.config.blackholeCommunities
      largeCommunities := [] }

-- ======================================================= transitions

/-- `insert_blackhole`: the guards in the source's order. An already
active target is re-asserted; only a brand-new insert announces. -/
def insertBlackhole (target : IpAddr) (announcedAt : Nat)
    (origin : BlackholeOrigin) (c : RtbhController) :
    List RtbhAction × RtbhController :=
  if c.isProtected target then
    ([], { c with protectedSkipped := satAdd64 c.protectedSkipped 1 })
  else if !c.isEligible target then ([], c)
  else if target ∈ c.active then
    -- re-assertion: cancel a pending clear, refresh the TTL anchor
    let refresh (e : ActiveEntry) : ActiveEntry :=
      { e with clearRequestedAt := none, lastActivity := announcedAt }
    ([], { c with active := Dict.modify target refresh c.active })
  else if c.config.maxBlackholes ≤ c.active.entries.length then ([], c)
  else
    match c.hostRoute target with
    | none => ([], c)
    | some route =>
        let entry : ActiveEntry :=
          { announcedAt, lastActivity := announcedAt, origin
            clearRequestedAt := none }
        ([.announce route],
          { c with active := c.active.insert target entry })

/-- `request_clear`: a manual blackhole ignores it, one past hold-down is
withdrawn, one inside hold-down remembers it. -/
def requestClear (target : IpAddr) (now : Nat) (c : RtbhController) :
    List RtbhAction × RtbhController :=
  match c.active.lookup target with
  | none => ([], c)
  | some e =>
      if e.origin = .manual then ([], c)
      else if millis c.config.holdDown ≤ now - e.announcedAt then
        ([.withdraw (hostPrefix target)],
          { c with active := c.active.erase target })
      else
        let deferred := { e with clearRequestedAt := some now }
        ([], { c with active := c.active.insert target deferred })

/-- `on_event`: map one detection event to actions. -/
def onEvent (event : DetectionEvent) (now : Nat) (c : RtbhController) :
    List RtbhAction × RtbhController :=
  match event with
  | .opened d => c.insertBlackhole d.target now .auto
  | .updated d =>
      -- continued traffic: refresh the TTL anchor, cancel a pending clear
      let refresh (e : ActiveEntry) : ActiveEntry :=
        { e with lastActivity := now, clearRequestedAt := none }
      ([], { c with active := Dict.modify d.target refresh c.active })
  | .cleared target _ => c.requestClear target now

/-- `manual_add`: upgrade an active target to manual, or insert it. -/
def manualAdd (target : IpAddr) (now : Nat) (c : RtbhController) :
    List RtbhAction × RtbhController :=
  if target ∈ c.active then
    let upgrade (e : ActiveEntry) : ActiveEntry :=
      { e with origin := .manual, clearRequestedAt := none }
    ([], { c with active := Dict.modify target upgrade c.active })
  else c.insertBlackhole target now .manual

/-- `manual_remove`: withdraw an active target, hold-down ignored. -/
def manualRemove (target : IpAddr) (c : RtbhController) :
    List RtbhAction × RtbhController :=
  if target ∈ c.active then
    ([.withdraw (hostPrefix target)],
      { c with active := c.active.erase target })
  else ([], c)

/-- Is this entry due for a time-driven withdrawal at `now`? -/
def due (config : RtbhConfig) (now : Nat) (e : ActiveEntry) : Bool :=
  let clearedDue := e.clearRequestedAt.isSome &&
    decide (millis config.holdDown ≤ now - e.announcedAt)
  let ttlDue := decide (e.origin = .auto) &&
    (match config.maxTtl with
      | some ttl => decide (millis ttl ≤ now - e.lastActivity)
      | none => false)
  clearedDue || ttlDue

/-- The targets a tick at `now` expires, in traversal order. -/
def expired (ord : IterOrder (Sigma fun _ : IpAddr => ActiveEntry))
    (now : Nat) (c : RtbhController) : List IpAddr :=
  ((ord.1 c.active.entries).filter fun e => due c.config now e.2).map (·.1)

/-- `tick`: withdraw every deferred clear past hold-down and every auto
blackhole past its TTL. -/
def tick (ord : IterOrder (Sigma fun _ : IpAddr => ActiveEntry))
    (now : Nat) (c : RtbhController) : List RtbhAction × RtbhController :=
  let gone := c.expired ord now
  (gone.map fun t => .withdraw (hostPrefix t),
    { c with active := Dict.eraseAll gone c.active })

/-- `resume`: re-install a persisted blackhole. -/
def resume (target : IpAddr) (announcedAt : Nat)
    (origin : BlackholeOrigin) (c : RtbhController) :
    List RtbhAction × RtbhController :=
  c.insertBlackhole target announcedAt origin

/-- `rollback`: forget an entry whose announce did not go out. -/
def rollback (target : IpAddr) (c : RtbhController) : RtbhController :=
  { c with active := c.active.erase target }

end RtbhController

end Blackwall.Rtbh
