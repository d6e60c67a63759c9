/-
The pure XDP decision engine (`blackwall-xdp/src/control.rs`).

Where RTBH blackholes the victim, the data plane acts on the attacker: a
detection is eligible by its victim and rate-limits the victim's top
sources. `byTarget` remembers which sources a victim had limited, so that
a clear releases them unless another victim still needs them.
-/
import Blackwall.Base.Dict
import Blackwall.Base.Run
import Blackwall.Flow.Detection

namespace Blackwall.XdpPlane

open Base
open Blackwall.Flow (Detection DetectionEvent)

/-- Why an active entry exists. -/
inductive XdpOrigin
  | auto
  | manual
  deriving DecidableEq, Repr

/-- A rate-limited source; `victim` is the one it was limited for first,
none for a manual limit. -/
structure RateLimitEntry where
  origin : XdpOrigin
  pps : Nat
  burst : Nat
  victim : Option IpAddr
  deriving DecidableEq, Repr

/-- A decision for the executor to apply. -/
inductive XdpAction
  | rateLimit (src : IpAddr) (pps burst : Nat) (victim : Option IpAddr)
  | block (net : IpNet)
  | unblock (net : IpNet)
  | clearRate (src : IpAddr)
  deriving DecidableEq, Repr

/-- Does the action put an entry into the maps? -/
def XdpAction.isInstall : XdpAction → Bool
  | .rateLimit .. | .block _ => true
  | .unblock _ | .clearRate _ => false

/-- Why a manual action was refused. -/
inductive Refusal
  | ownPrefix (net : IpNet)
  | blockAtCapacity (maxEntries : Nat) (net : IpNet)
  | limitAtCapacity (maxEntries : Nat) (src : IpAddr)
  deriving DecidableEq, Repr

/-- The message of a refusal, given how prefixes and addresses are
displayed. -/
def Refusal.text (dispNet : IpNet → String) (disp : IpAddr → String) :
    Refusal → String
  | .ownPrefix net =>
      dispNet net ++ " is inside an own prefix; refusing to self-block"
  | .blockAtCapacity cap net =>
      "at capacity (" ++ toString cap ++ " entries); cannot block "
        ++ dispNet net
  | .limitAtCapacity cap src =>
      "at capacity (" ++ toString cap ++ " entries); cannot rate-limit "
        ++ disp src

/-- The decision engine's state. -/
structure XdpController where
  prefixes : List IpNet
  maxEntries : Nat
  defaultRatePps : Nat
  protectedPrefixes : List IpNet
  rateLimited : Dict IpAddr RateLimitEntry
  blockedNets : Dict IpNet XdpOrigin
  byTarget : Dict IpAddr (List IpAddr)
  protectedSkipped : Nat

namespace XdpController

/-- A controller with no active entries. -/
def new (prefixes : List IpNet) (maxEntries defaultRatePps : Nat)
    (protectedPrefixes : List IpNet) : XdpController :=
  { prefixes, maxEntries, defaultRatePps, protectedPrefixes
    rateLimited := ∅, blockedNets := ∅, byTarget := ∅
    protectedSkipped := 0 }

-- =================================================== pure accessors

/-- `overlaps_own_prefix`: `net` inside an own prefix, or one inside
`net`. -/
def overlapsOwnPrefix (net : IpNet) (c : XdpController) : Bool :=
  c.prefixes.any fun p => p.containsNet net || net.containsNet p

def totalActive (c : XdpController) : Nat :=
  c.rateLimited.entries.length + c.blockedNets.entries.length

def atCapacity (c : XdpController) : Bool :=
  decide (c.maxEntries ≤ c.totalActive)

def isBlocked (net : IpNet) (c : XdpController) : Bool :=
  (c.blockedNets.lookup net).isSome

def isRateLimited (src : IpAddr) (c : XdpController) : Bool :=
  (c.rateLimited.lookup src).isSome

def currentRateLimit (src : IpAddr) (c : XdpController) :
    Option XdpAction :=
  (c.rateLimited.lookup src).map fun e =>
    .rateLimit src e.pps e.burst e.victim

def currentBlock (net : IpNet) (c : XdpController) : Option XdpAction :=
  (c.blockedNets.lookup net).map fun _ => .block net

/-- `active_entries`: the limits, then the blocks, each in the order its
map is visited. -/
def activeEntries
    (ordRate : IterOrder (Sigma fun _ : IpAddr => RateLimitEntry))
    (ordBlock : IterOrder (Sigma fun _ : IpNet => XdpOrigin))
    (c : XdpController) : List (XdpAction × XdpOrigin) :=
  ((ordRate.1 c.rateLimited.entries).map fun e =>
      (.rateLimit e.1 e.2.pps e.2.burst e.2.victim, e.2.origin))
    ++ (ordBlock.1 c.blockedNets.entries).map fun e => (.block e.1, e.2)

-- ================================================== manual transitions

def manualBlock (net : IpNet) (c : XdpController) :
    Except Refusal XdpAction × XdpController :=
  if c.overlapsOwnPrefix net then (.error (.ownPrefix net), c)
  else if !c.isBlocked net && c.atCapacity then
    (.error (.blockAtCapacity c.maxEntries net), c)
  else
    (.ok (.block net),
      { c with blockedNets := c.blockedNets.insert net .manual })

/-- `manual_unblock`: never refuses. -/
def manualUnblock (net : IpNet) (c : XdpController) :
    XdpAction × XdpController :=
  (.unblock net, { c with blockedNets := c.blockedNets.erase net })

def manualRateLimit (src : IpAddr) (pps burst : Nat) (c : XdpController) :
    Except Refusal XdpAction × XdpController :=
  let entry : RateLimitEntry :=
    { origin := .manual, pps, burst, victim := none }
  if !c.isRateLimited src && c.atCapacity then
    (.error (.limitAtCapacity c.maxEntries src), c)
  else
    (.ok (.rateLimit src pps burst none),
      { c with rateLimited := c.rateLimited.insert src entry })

/-- `manual_clear_rate`: never refuses; the source also leaves every
victim's set. -/
def manualClearRate (src : IpAddr) (c : XdpController) :
    XdpAction × XdpController :=
  (.clearRate src,
    { c with
      rateLimited := c.rateLimited.erase src
      byTarget := Dict.mapVals (fun _ srcs => srcs.filter (· ≠ src))
        c.byTarget })

-- =================================================== auto transitions

/-- `by_target.entry(target).or_default().insert(src)`. -/
def noteSource (target src : IpAddr) (c : XdpController) : XdpController :=
  let sources := ((c.byTarget.lookup target).getD []).insert src
  { c with byTarget := c.byTarget.insert target sources }

/-- The loop of `handle_detection`: it stops at the first new source that
finds the entries at their cap. -/
def limitSources (target : IpAddr) :
    List IpAddr → XdpController → List XdpAction × XdpController
  | [], c => ([], c)
  | src :: srcs, c =>
      if c.isRateLimited src then
        limitSources target srcs (c.noteSource target src)
      else if c.atCapacity then ([], c)
      else
        let entry : RateLimitEntry :=
          { origin := .auto, pps := c.defaultRatePps
            burst := c.defaultRatePps, victim := some target }
        let c' := { c with
          rateLimited := c.rateLimited.insert src entry }
        let (actions, c'') :=
          limitSources target srcs (c'.noteSource target src)
        (.rateLimit src c.defaultRatePps c.defaultRatePps (some target)
          :: actions, c'')

/-- `handle_detection`: a protected victim is skipped before anything
else is looked at. -/
def handleDetection (d : Detection) (c : XdpController) :
    List XdpAction × XdpController :=
  if c.protectedPrefixes.any fun p => p.contains d.target then
    ([], { c with protectedSkipped := satAdd64 c.protectedSkipped 1 })
  else if !c.prefixes.any fun p => p.contains d.target then ([], c)
  else limitSources d.target (d.topSources.map (·.1)) c

/-- One source of `handle_cleared`: kept while another victim names it or
an operator owns it. -/
def clearSource (src : IpAddr) (c : XdpController) :
    List XdpAction × XdpController :=
  if c.byTarget.entries.any fun e => decide (src ∈ e.2) then ([], c)
  else
    match c.rateLimited.lookup src with
    | some e =>
        if e.origin = .auto then
          ([.clearRate src],
            { c with rateLimited := c.rateLimited.erase src })
        else ([], c)
    | none => ([], c)

def handleCleared (ord : IterOrder IpAddr) (target : IpAddr)
    (c : XdpController) : List XdpAction × XdpController :=
  match c.byTarget.lookup target with
  | none => ([], c)
  | some sources =>
      collect clearSource (ord.1 sources)
        { c with byTarget := c.byTarget.erase target }

def onDetection (ord : IterOrder IpAddr) (ev : DetectionEvent)
    (c : XdpController) : List XdpAction × XdpController :=
  match ev with
  | .opened d | .updated d => c.handleDetection d
  | .cleared target _ => c.handleCleared ord target

-- ================================================ rollback and restart

/-- `rollback`: undo a just-inserted entry. -/
def rollback (action : XdpAction) (c : XdpController) : XdpController :=
  match action with
  | .rateLimit src _ _ victim =>
      let c := { c with rateLimited := c.rateLimited.erase src }
      match victim with
      | none => c
      | some v =>
          { c with byTarget :=
              Dict.modify v (fun srcs => srcs.filter (· ≠ src)) c.byTarget }
  | .block net => { c with blockedNets := c.blockedNets.erase net }
  | .unblock _ | .clearRate _ => c

/-- `mark_resumed`: fold a persisted entry in, cap or no cap. -/
def markResumed (action : XdpAction) (origin : XdpOrigin)
    (c : XdpController) : XdpController :=
  match action with
  | .rateLimit src pps burst victim =>
      let entry : RateLimitEntry := { origin, pps, burst, victim }
      let c := { c with rateLimited := c.rateLimited.insert src entry }
      match victim with
      | none => c
      | some v => c.noteSource v src
  | .block net =>
      { c with blockedNets := c.blockedNets.insert net origin }
  | .unblock _ | .clearRate _ => c

end XdpController

end Blackwall.XdpPlane
