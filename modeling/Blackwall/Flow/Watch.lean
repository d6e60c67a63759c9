/-
The detector over time: its calls, and a record of what they came to.

A tick is taken with an arbitrary rate test in place of the comparison
with the two thresholds (`RateTest`); `thresholdTest` is the source's own.
The record has a line for each observation and for each tick, and a tick's
line says which destinations it found over the threshold and what it
reported. What was observed, what was reported and what has been cleared
since are read off the record, never off the detector.

A push that panics takes the collector down. Such an observation is not
recorded, and the moves after it are run on the detector as it was, which
is more than the source can do.
-/
import Mathlib.Computability.Language
import Mathlib.Data.List.DropRight
import Blackwall.Base.Run
import Blackwall.Flow.Proofs.Detector

namespace Blackwall.Flow

open Base Computability

-- ============================================================== the moves

/-- The rate test of a window that is not empty. -/
abbrev RateTest : Type := ThresholdDetector → IpAddr → List Sample → Bool

/-- The source's test: one of the two rates is above its threshold. -/
def thresholdTest (rd : Rounding) : RateTest :=
  fun d _ => (d.assess rd .stored).rateOver

/-- A call of the detector, at a time of the `u64` clock. -/
inductive Move
  | observe (obs : FlowObservation) (nowMs : BitVec 64)
  | tick (orders : IpAddr → HashOrders)
      (visitOrder : IterOrder (Sigma fun _ : IpAddr => DstState))
      (nowMs : BitVec 64)

/-- When the call is made. -/
def Move.nowMs : Move → Nat
  | .observe _ nowMs => nowMs.toNat
  | .tick _ _ nowMs => nowMs.toNat

/-- A line of the record. -/
inductive Record
  | observed (obs : FlowObservation) (nowMs : Nat)
  | ticked (nowMs : Nat) (above : IpAddr → Bool)
      (events : List DetectionEvent)

/-- The detector and the record of its calls. -/
structure Watched where
  det : ThresholdDetector
  trace : List Record

namespace Watched

/-- A detector before its first call. -/
def start (prefixes : List IpNet) (config : DetectorConfig)
    (agents : AgentRegistry) : Watched :=
  ⟨.new prefixes config agents, []⟩

/-- How a tick with the test `test` reads the windows. -/
def reading (rd : Rounding) (test : RateTest)
    (orders : IpAddr → HashOrders) (d : ThresholdDetector) :
    IpAddr → Assess :=
  fun dst => { d.assess rd (orders dst) with rateOver := test d dst }

/-- One call. -/
def step (rd : Rounding) (test : RateTest) (m : Move) (w : Watched) :
    Watched :=
  match m with
  | .observe obs nowMs =>
      match w.det.observe obs nowMs.toNat with
      | some det => ⟨det, w.trace ++ [.observed obs nowMs.toNat]⟩
      | none => w
  | .tick orders visitOrder nowMs =>
      let a := reading rd test orders w.det
      let r := w.det.tickWith a visitOrder nowMs.toNat
      ⟨r.2, w.trace
        ++ [.ticked nowMs.toNat (w.det.isOver a nowMs.toNat) r.1]⟩

/-- With the source's own test a tick is the source's `tick`. -/
theorem tickWith_thresholdTest (rd : Rounding)
    (orders : IpAddr → HashOrders)
    (ord : IterOrder (Sigma fun _ : IpAddr => DstState)) (nowMs : Nat)
    (d : ThresholdDetector) :
    d.tickWith (reading rd (thresholdTest rd) orders d) ord nowMs
      = d.tick rd orders ord nowMs := rfl

/-- The reading names the destination and dates the detection as it was
told. -/
structure Faithful (a : IpAddr → Assess) : Prop where
  names : ThresholdDetector.Names a
  dates : ∀ dst samples first last,
    ((a dst).detect dst samples first last).firstSeenMs = first

theorem reading_faithful (rd : Rounding) (test : RateTest)
    (orders : IpAddr → HashOrders) (d : ThresholdDetector) :
    Faithful (reading rd test orders d) :=
  ⟨fun _ _ _ _ => rfl, fun _ _ _ _ => rfl⟩

/-- What the passing of time, an observation and a tick keep, a run in the
order of time keeps. -/
theorem run_keeps (rd : Rounding) (test : RateTest)
    {P : Nat → Watched → Prop}
    (hlater : ∀ w last nowMs, last ≤ nowMs → P last w → P nowMs w)
    (hobserve : ∀ w nowMs obs det, w.det.observe obs nowMs = some det →
      P nowMs w → P nowMs ⟨det, w.trace ++ [.observed obs nowMs]⟩)
    (htick : ∀ w nowMs a ord, Faithful a → P nowMs w →
      P nowMs ⟨(w.det.tickWith a ord nowMs).2, w.trace
        ++ [.ticked nowMs (w.det.isOver a nowMs)
          (w.det.tickWith a ord nowMs).1]⟩)
    (ms : List Move) (hmono : (ms.map Move.nowMs).Pairwise (· ≤ ·))
    {w : Watched} (hs : P 0 w) :
    P ((ms.map Move.nowMs).getLastD 0) (run (step rd test) w ms) := by
  refine run_clocked Move.nowMs ms hmono (fun w last m _ hle h => ?_)
    (fun _ _ => Nat.zero_le _) hs
  have h := hlater w last m.nowMs hle h
  cases m with
  | observe obs t =>
      rw [step]
      split
      next det hobs => exact hobserve w _ obs det hobs h
      next => exact h
  | tick orders visitOrder t =>
      exact htick w _ _ visitOrder
        (reading_faithful rd test orders w.det) h

end Watched

-- ================================================ what the record says

/-- The three kinds of events. -/
inductive EventKind
  | opened
  | updated
  | cleared
  deriving DecidableEq, Repr

def DetectionEvent.kind : DetectionEvent → EventKind
  | .opened _ => .opened
  | .updated _ => .updated
  | .cleared _ _ => .cleared

namespace Record

/-- The sample an observation of `dst` is. -/
def sample (d : ThresholdDetector) (dst : IpAddr) : Record → Option Sample
  | .observed obs nowMs =>
      if obs.dst = dst then some (d.sampleOf obs nowMs) else none
  | .ticked .. => none

/-- The line reports `dst` as cleared. -/
def clears (dst : IpAddr) : Record → Bool
  | .observed .. => false
  | .ticked _ _ events => events.any fun ev =>
      decide (ev.kind = .cleared) && decide (ev.target = dst)

/-- The events about `dst`, with the time of the tick. -/
def eventsOf (dst : IpAddr) : Record → List (Nat × DetectionEvent)
  | .observed .. => []
  | .ticked nowMs _ events =>
      (events.filter fun ev => ev.target = dst).map fun ev => (nowMs, ev)

end Record

/-- The observations of a destination as samples, at the rates that `d`
trusts. -/
def history (d : ThresholdDetector) (dst : IpAddr) (trace : List Record) :
    List Sample :=
  trace.filterMap (Record.sample d dst)

/-- The record up to the last time that `dst` was cleared. -/
def upToCleared (dst : IpAddr) (trace : List Record) : List Record :=
  trace.rdropWhile fun e => !e.clears dst

/-- The record after that. -/
def sinceCleared (dst : IpAddr) (trace : List Record) : List Record :=
  trace.rtakeWhile fun e => !e.clears dst

/-- Every event about a destination. -/
def eventsOf (dst : IpAddr) (trace : List Record) :
    List (Nat × DetectionEvent) :=
  trace.flatMap (Record.eventsOf dst)

/-- The destinations with an open detection. -/
def ThresholdDetector.openDsts (d : ThresholdDetector) : Finset IpAddr :=
  d.state.keys.toFinset.filter fun dst => d.isOpen dst = true

-- ============================================================ statements

/-- The words `Opened Updated* Cleared`. -/
def episode : Language EventKind :=
  ({[.opened]} : Language EventKind) * ({[.updated]} : Language EventKind)∗
    * ({[.cleared]} : Language EventKind)

/-- The words `(Opened Updated* Cleared)*`. -/
def episodes : Language EventKind := episode∗

/-- For every monitored destination, what a tick at `nowMs` aggregates is
what has been observed of it within the window. -/
def SeesWindow (nowMs : Nat) (w : Watched) : Prop :=
  ∀ dst, w.det.monitors dst = true →
    (w.det.windowOf nowMs dst).Perm ((history w.det dst w.trace).filter
      fun s => decide (nowMs < s.tsMs + w.det.windowMs))

/-- Nothing that was observed before a destination was last cleared is
still within the window, and no end of a window that is not over by then
is past the clock. -/
def WindowSurvives (nowMs : Nat) (w : Watched) : Prop :=
  ∀ dst, w.det.monitors dst = true →
    (∀ s ∈ history w.det dst (upToCleared dst w.trace),
        s.tsMs + w.det.windowMs ≤ nowMs)
      ∧ ∀ s ∈ history w.det dst (sinceCleared dst w.trace),
        nowMs < s.tsMs + w.det.windowMs →
          s.tsMs + w.det.windowMs < 2 ^ 64

/-- Every destination with an entry is open or has a sample within the
window. -/
def NoIdleEntry (nowMs : Nat) (d : ThresholdDetector) : Prop :=
  ∀ dst st, d.state.lookup dst = some st →
    st.isOpen = true
      ∨ ∃ s ∈ st.samples.toList, nowMs < s.tsMs + d.windowMs

/-- Every monitored destination that was observed since it was last
cleared is open, or one of these observations is still within the
window. -/
def NoIdleHistory (nowMs : Nat) (w : Watched) : Prop :=
  ∀ dst, w.det.monitors dst = true →
    history w.det dst (sinceCleared dst w.trace) ≠ [] →
      w.det.isOpen dst = true
        ∨ ∃ s ∈ history w.det dst (sinceCleared dst w.trace),
          w.det.inWindow nowMs s = true

end Blackwall.Flow
