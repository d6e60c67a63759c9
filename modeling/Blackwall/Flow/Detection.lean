/-
What the flow detector reports (`blackwall-flow/src/detector.rs`, public
types). The `f64` estimates are rationals: the rounding of the machine
arithmetic that produces them is a parameter of the detector's model,
not of these records.
-/
import Mathlib.Data.Rat.Defs
import Blackwall.Base.F32
import Blackwall.Net

namespace Blackwall.Flow

/-- Category of attack detected. -/
inductive AttackKind
  | volumetric
  deriving DecidableEq, Repr

/-- Severity bucket of a detection. -/
inductive Severity
  | warning
  | high
  | critical
  deriving DecidableEq, Repr

/-- One POP's share of a detection. -/
structure PopContribution where
  pop : String
  estPps : ℚ
  estBps : ℚ
  deriving DecidableEq, Repr

/-- A snapshot of an active attack against one destination. -/
structure Detection where
  target : IpAddr
  kind : AttackKind
  observedPps : ℚ
  observedBps : ℚ
  proto : BitVec 8
  topSources : List (IpAddr × ℚ)
  topPorts : List (BitVec 16 × ℚ)
  pops : List PopContribution
  topSourceBlocks : List (IpNet × ℚ)
  severity : Severity
  firstSeenMs : Nat
  lastSeenMs : Nat
  deriving DecidableEq, Repr

/-- An event produced by the detector's `tick`. -/
inductive DetectionEvent
  | opened (d : Detection)
  | updated (d : Detection)
  | cleared (target : IpAddr) (atMs : Nat)
  deriving DecidableEq, Repr

/-- The destination an event is about. -/
def DetectionEvent.target : DetectionEvent → IpAddr
  | .opened d => d.target
  | .updated d => d.target
  | .cleared t _ => t

/-- One flow-scoped rule of a mitigation (`blackwall-flow/src/select.rs`):
drop-or-rate-limit one protocol and destination port. -/
structure FlowRule where
  dst : IpAddr
  proto : BitVec 8
  dstPort : BitVec 16
  rate : F32
  deriving DecidableEq, Repr

end Blackwall.Flow
