/-
The threshold detector (`blackwall-flow/src/detector.rs`, with
`agents.rs` and `observation.rs`): sampled packets in, attack lifecycle
events out.

# Machine arithmetic

Timestamps are `u64` milliseconds held as naturals. The one addition on
them, `ts_ms + window_ms` in the eviction test, wraps. Estimates are
64-bit words and their sums saturate at `u128`. Rates are `f64`: every
operation on them is the exact one followed by a rounding `rd`, which is
a parameter (`exact` for the reading in which nothing rounds). The
per-agent mismatch counters are unbounded.

# Orders and panics

The per-destination map and the five maps `build_detection` aggregates
into have no specified order, so `tick` takes the order every traversal
happens to use (`HashOrders`). `observe` is partial because a push past
the vector's capacity panics.

# The two halves of a tick

The loop of `tick` reads a window in two places only: is its rate over a
threshold, and what detection describes it. `Assess` is that interface.
`tickWith` is the loop over any such reading, `tick` is the loop over the
source's own (`assess`).
-/
import Mathlib.Data.List.Sort
import Mathlib.Data.Rat.Defs
import Mathlib.Algebra.Order.Ring.Rat
import Blackwall.Base.Tally
import Blackwall.Flow.Detection

namespace Blackwall.Flow

open Base

/-- The rounding of an `f64` operation. -/
abbrev Rounding : Type := ℚ → ℚ

/-- No rounding: an `f64` read as the exact rational. -/
def exact : Rounding := id

/-- The largest value of a `u128`. -/
def u128Max : Nat := 2 ^ 128 - 1

/-- `u32::saturating_mul`. -/
def satMul32 (a b : BitVec 32) : BitVec 32 :=
  BitVec.ofNat 32 (min (a.toNat * b.toNat) (2 ^ 32 - 1))

-- ========================================================== observations

/-- One sampled packet, with the sampling rate it stands for. -/
structure FlowObservation where
  src : IpAddr
  dst : IpAddr
  proto : BitVec 8
  srcPort : BitVec 16
  dstPort : BitVec 16
  frameLen : BitVec 32
  samplingRate : BitVec 32
  tcpFlags : BitVec 8
  agent : IpAddr
  deriving DecidableEq, Repr

/-- A `pop` entry of the policy. -/
structure PopEntry where
  name : String
  agent : IpAddr
  sampling : BitVec 32
  deriving DecidableEq, Repr

/-- What the collector knows about one agent. -/
structure AgentInfo where
  name : String
  expectedSampling : BitVec 32
  deriving DecidableEq, Repr

/-- The registry of known agents. -/
structure AgentRegistry where
  byAddr : Dict IpAddr AgentInfo

namespace AgentRegistry

/-- `from_entries`: a later entry of the same agent wins. -/
def fromEntries (entries : List PopEntry) : AgentRegistry :=
  ⟨entries.foldl (fun m e => m.insert e.agent ⟨e.name, e.sampling⟩) ∅⟩

/-- The POP name of an agent. -/
def name (r : AgentRegistry) (agent : IpAddr) : String :=
  ((r.byAddr.lookup agent).map (·.name)).getD "unknown"

/-- The expected sampling rate of an agent, if it is known. -/
def expectedSampling (r : AgentRegistry) (agent : IpAddr) :
    Option (BitVec 32) :=
  (r.byAddr.lookup agent).map (·.expectedSampling)

end AgentRegistry

-- ============================================================ the state

/-- One recorded sample. -/
structure Sample where
  tsMs : Nat
  src : IpAddr
  dstPort : BitVec 16
  proto : BitVec 8
  estPackets : BitVec 64
  estBytes : BitVec 64
  agent : IpAddr
  deriving DecidableEq, Repr

/-- Per-destination state. -/
structure DstState where
  samples : Vec Sample
  isOpen : Bool
  firstSeenMs : Nat
  lastOverMs : Nat

/-- The scalar knobs of the detector. -/
structure DetectorConfig where
  ppsThreshold : ℚ
  bpsThreshold : ℚ
  windowMs : Nat
  holdDownMs : Nat
  minSamples : Nat
  maxSamplingFactor : BitVec 32

/-- The detector. -/
structure ThresholdDetector where
  prefixes : List IpNet
  ppsThreshold : ℚ
  bpsThreshold : ℚ
  windowMs : Nat
  holdDownMs : Nat
  minSamples : Nat
  maxSamplingFactor : BitVec 32
  state : Dict IpAddr DstState
  agents : AgentRegistry
  agentLastSeen : Dict IpAddr Nat
  samplingMismatches : Dict IpAddr Nat
  samplingNearCeiling : Dict IpAddr Nat
  unknownAgentObservations : Nat
  minSampleSuppressed : Nat
  detectionsOpened : Nat
  detectionsCleared : Nat

-- ======================================================= a window's sums

/-- The estimated packets of some samples, saturating. -/
def totalPackets (samples : List Sample) : Nat :=
  satSum u128Max (fun s => s.estPackets.toNat) samples

/-- The estimated bytes of some samples, saturating. -/
def totalBytes (samples : List Sample) : Nat :=
  satSum u128Max (fun s => s.estBytes.toNat) samples

/-- The loop `*entry = entry.saturating_add(est_packets)` of one
aggregation map. -/
def packetsBy {K : Type} [DecidableEq K] (key : Sample → K)
    (samples : List Sample) : Dict K Nat :=
  tally 0 (fun acc s => min (acc + s.estPackets.toNat) u128Max) key samples

/-- A stable sort, largest key first. -/
def sortDesc {α κ : Type} [LE κ] [DecidableLE κ] (key : α → κ)
    (l : List α) : List α :=
  l.insertionSort fun a b => key b ≤ key a

/-- `max_by_key`: the last of the largest. -/
def maxByKey {α : Type} (key : α → Nat) (l : List α) : Option α :=
  l.foldl (fun best a =>
    match best with
    | none => some a
    | some b => if key b ≤ key a then some a else some b) none

-- ====================================================== build_detection

/-- The traversal order of each map `build_detection` aggregates into. -/
structure HashOrders where
  protos : IterOrder (Sigma fun _ : BitVec 8 => Nat)
  srcs : IterOrder (Sigma fun _ : IpAddr => Nat)
  ports : IterOrder (Sigma fun _ : BitVec 16 => Nat)
  agents : IterOrder (Sigma fun _ : IpAddr => Nat × Nat)
  blocks : IterOrder (Sigma fun _ : IpNet => Nat)

/-- Every map visited as it is stored. -/
def HashOrders.stored : HashOrders :=
  { protos := .stored _, srcs := .stored _, ports := .stored _
    agents := .stored _, blocks := .stored _ }

/-- Parameters for building a detection. -/
structure DetectionParams where
  target : IpAddr
  pps : ℚ
  bps : ℚ
  ppsThreshold : ℚ
  bpsThreshold : ℚ
  samples : List Sample
  windowSecs : ℚ
  firstSeenMs : Nat
  lastSeenMs : Nat
  agents : AgentRegistry

/-- `source_block`: the `/24` or `/48` of a source, host bits cleared. -/
def sourceBlock : IpAddr → IpNet
  | .v4 a => .v4 ⟨(a >>> 8) <<< 8, 24⟩
  | .v6 a => .v6 ⟨(a >>> 80) <<< 80, 48⟩

/-- `rate / threshold >= k` for `k > 0`, with the quotient by a zero
threshold infinite, or no number at all when the rate is zero too. -/
def ratioReaches (rd : Rounding) (rate threshold k : ℚ) : Bool :=
  if threshold = 0 then decide (0 < rate)
  else decide (k ≤ rd (rate / threshold))

/-- The severity of a detection. The larger of two ratios reaches a bound
when one of them does. -/
def severity (rd : Rounding) (p : DetectionParams) : Severity :=
  let reaches (k : ℚ) : Bool :=
    ratioReaches rd p.pps p.ppsThreshold k
      || ratioReaches rd p.bps p.bpsThreshold k
  if reaches 10 then .critical else if reaches 2 then .high else .warning

section Build

variable (rd : Rounding) (ho : HashOrders)

/-- The rate of a packet sum over the window. -/
def ratePps (windowSecs : ℚ) (pkts : Nat) : ℚ :=
  rd (rd (pkts : ℚ) / windowSecs)

/-- The bit rate of a byte sum over the window. -/
def rateBps (windowSecs : ℚ) (bytes : Nat) : ℚ :=
  rd (rd (rd (bytes : ℚ) * 8) / windowSecs)

/-- The dominant protocol. -/
def dominantProto (samples : List Sample) : BitVec 8 :=
  ((maxByKey (·.2) ((packetsBy (·.proto) samples).pairs ho.protos)).map
    (·.1)).getD 0

/-- The top-3 destination ports by estimated rate. -/
def topPorts (p : DetectionParams) : List (BitVec 16 × ℚ) :=
  ((sortDesc (·.2) ((packetsBy (·.dstPort) p.samples).pairs
    ho.ports)).take 3).map fun e => (e.1, ratePps rd p.windowSecs e.2)

/-- The top-3 sources by estimated rate. -/
def topSources (p : DetectionParams) : List (IpAddr × ℚ) :=
  ((sortDesc (·.2) ((packetsBy (·.src) p.samples).pairs
    ho.srcs)).take 3).map fun e => (e.1, ratePps rd p.windowSecs e.2)

/-- What each POP contributes, largest rate first. -/
def popContributions (p : DetectionParams) : List PopContribution :=
  let add (acc : Nat × Nat) (s : Sample) : Nat × Nat :=
    (min (acc.1 + s.estPackets.toNat) u128Max,
      min (acc.2 + s.estBytes.toNat) u128Max)
  sortDesc (·.estPps)
    (((tally (0, 0) add (·.agent) p.samples).pairs ho.agents).map fun e =>
      { pop := p.agents.name e.1
        estPps := ratePps rd p.windowSecs e.2.1
        estBps := rateBps rd p.windowSecs e.2.2 })

/-- The top-5 source blocks by estimated rate. -/
def topSourceBlocks (p : DetectionParams) : List (IpNet × ℚ) :=
  (sortDesc (·.2)
    (((packetsBy (fun s => sourceBlock s.src) p.samples).pairs
      ho.blocks).map fun e => (e.1, ratePps rd p.windowSecs e.2))).take 5

def buildDetection (p : DetectionParams) : Detection :=
  { target := p.target
    kind := .volumetric
    observedPps := p.pps
    observedBps := p.bps
    proto := dominantProto ho p.samples
    topSources := topSources rd ho p
    topPorts := topPorts rd ho p
    pops := popContributions rd ho p
    topSourceBlocks := topSourceBlocks rd ho p
    severity := severity rd p
    firstSeenMs := p.firstSeenMs
    lastSeenMs := p.lastSeenMs }

end Build

-- ======================================================== one destination

/-- What the loop of `tick` reads off a window that is not empty. -/
structure Assess where
  rateOver : List Sample → Bool
  detect : IpAddr → List Sample → (firstSeenMs lastSeenMs : Nat) →
    Detection

/-- What one turn of the loop does: the destination's new state, the
event it pushes, and whether it counts as suppressed. A destination is
removed after the loop exactly when the event is a `Cleared`. -/
structure Visit where
  state : DstState
  event : Option DetectionEvent
  suppressed : Bool

/-- The event opens a detection. -/
def Visit.opens (v : Visit) : Bool :=
  match v.event with
  | some (.opened _) => true
  | _ => false

/-- The event closes a detection. -/
def Visit.clears (v : Visit) : Bool :=
  match v.event with
  | some (.cleared ..) => true
  | _ => false

namespace ThresholdDetector

/-- A detector that has seen nothing. The trust ceiling's factor is
floored at 4. -/
def new (prefixes : List IpNet) (config : DetectorConfig)
    (agents : AgentRegistry) : ThresholdDetector :=
  { prefixes
    ppsThreshold := config.ppsThreshold
    bpsThreshold := config.bpsThreshold
    windowMs := config.windowMs
    holdDownMs := config.holdDownMs
    minSamples := config.minSamples
    maxSamplingFactor :=
      if config.maxSamplingFactor ≤ 4 then 4 else config.maxSamplingFactor
    state := ∅
    agents
    agentLastSeen := ∅
    samplingMismatches := ∅
    samplingNearCeiling := ∅
    unknownAgentObservations := 0
    minSampleSuppressed := 0
    detectionsOpened := 0
    detectionsCleared := 0 }

-- =============================================================== observe

/-- `*m.entry(agent).or_insert(0) += 1`. -/
def bump (agent : IpAddr) (m : Dict IpAddr Nat) : Dict IpAddr Nat :=
  m.insert agent ((m.lookup agent).getD 0 + 1)

/-- The sampling rate `observe` works with: a registered agent's rate is
raised to the expected one when it is far too low and capped at the
trust ceiling when it is far too high. -/
def effectiveRate (obs : FlowObservation) (nowMs : Nat)
    (d : ThresholdDetector) : BitVec 32 × ThresholdDetector :=
  match d.agents.expectedSampling obs.agent with
  | some expected =>
      let d := { d with
        agentLastSeen := d.agentLastSeen.insert obs.agent nowMs }
      let lo := expected / 4
      let ceiling := satMul32 expected d.maxSamplingFactor
      if obs.samplingRate < lo then
        (expected, { d with
          samplingMismatches := bump obs.agent d.samplingMismatches })
      else if satMul32 expected 4 < obs.samplingRate then
        let d := { d with
          samplingMismatches := bump obs.agent d.samplingMismatches }
        let trusted :=
          if obs.samplingRate ≤ ceiling then obs.samplingRate else ceiling
        if ceiling / 2 ≤ trusted then
          (trusted, { d with
            samplingNearCeiling := bump obs.agent d.samplingNearCeiling })
        else (trusted, d)
      else (obs.samplingRate, d)
  | none =>
      (obs.samplingRate, { d with
        unknownAgentObservations := satAdd64 d.unknownAgentObservations 1 })

/-- A destination seen for the first time. -/
def freshDst : DstState :=
  { samples := .empty, isOpen := false, firstSeenMs := 0, lastOverMs := 0 }

/-- `observe`: record one sampled packet; `none` where the push panics. -/
def observe (obs : FlowObservation) (nowMs : Nat) (d : ThresholdDetector) :
    Option ThresholdDetector :=
  let (rate, d) := d.effectiveRate obs nowMs
  if d.prefixes.any fun p => p.contains obs.dst then
    let entry := (d.state.lookup obs.dst).getD freshDst
    let sample : Sample :=
      { tsMs := nowMs, src := obs.src, dstPort := obs.dstPort
        proto := obs.proto
        estPackets := rate.setWidth 64
        estBytes := rate.setWidth 64 * obs.frameLen.setWidth 64
        agent := obs.agent }
    (entry.samples.push sample).map fun samples =>
      { d with state := d.state.insert obs.dst { entry with samples } }
  else some d

-- ================================================================== tick

/-- Is a sample still inside the window at `nowMs`? -/
def inWindow (d : ThresholdDetector) (nowMs : Nat) (s : Sample) : Bool :=
  decide (nowMs < (s.tsMs + d.windowMs) % 2 ^ 64)

/-- The window's length in seconds. -/
def windowSecs (rd : Rounding) (d : ThresholdDetector) : ℚ :=
  rd (rd ((max d.windowMs 1 : Nat) : ℚ) / 1000)

/-- How the source reads a window. -/
def assess (rd : Rounding) (ho : HashOrders) (d : ThresholdDetector) :
    Assess :=
  let secs := d.windowSecs rd
  let pps (samples : List Sample) := ratePps rd secs (totalPackets samples)
  let bps (samples : List Sample) := rateBps rd secs (totalBytes samples)
  { rateOver := fun samples =>
      decide (d.ppsThreshold < pps samples)
        || decide (d.bpsThreshold < bps samples)
    detect := fun target samples firstSeenMs lastSeenMs =>
      buildDetection rd ho
        { target, pps := pps samples, bps := bps samples
          ppsThreshold := d.ppsThreshold, bpsThreshold := d.bpsThreshold
          samples, windowSecs := secs, firstSeenMs, lastSeenMs
          agents := d.agents } }

/-- The hold-down of an open detection has run out. -/
def heldDown (d : ThresholdDetector) (nowMs : Nat) (st : DstState) : Bool :=
  decide (d.holdDownMs ≤ nowMs - st.lastOverMs)

/-- One turn of `tick`'s loop. -/
def visit (a : Assess) (nowMs : Nat) (dst : IpAddr) (d : ThresholdDetector)
    (st : DstState) : Visit :=
  let st := { st with samples := st.samples.retain (d.inWindow nowMs) }
  let window := st.samples.toList
  let cleared :=
    if st.isOpen && d.heldDown nowMs st then
      some (DetectionEvent.cleared dst nowMs)
    else none
  if window.isEmpty then
    { state := st, event := cleared, suppressed := false }
  else
    let rateOver := a.rateOver window
    let overThreshold := rateOver && decide (d.minSamples ≤ window.length)
    let suppressed := rateOver && !overThreshold
    if overThreshold then
      let st := { st with lastOverMs := nowMs }
      if st.isOpen then
        { state := st, suppressed
          event := some (.updated
            (a.detect dst window st.firstSeenMs nowMs)) }
      else
        { state := { st with isOpen := true, firstSeenMs := nowMs }
          suppressed
          event := some (.opened (a.detect dst window nowMs nowMs)) }
    else { state := st, event := cleared, suppressed }

/-- The turns of the loop, in traversal order. -/
def visits (a : IpAddr → Assess)
    (ord : IterOrder (Sigma fun _ : IpAddr => DstState)) (nowMs : Nat)
    (d : ThresholdDetector) : List (IpAddr × Visit) :=
  (d.state.pairs ord).map fun e => (e.1, d.visit (a e.1) nowMs e.1 e.2)

/-- The loop of `tick` over any reading of the windows. -/
def tickWith (a : IpAddr → Assess)
    (ord : IterOrder (Sigma fun _ : IpAddr => DstState)) (nowMs : Nat)
    (d : ThresholdDetector) : List DetectionEvent × ThresholdDetector :=
  let vs := d.visits a ord nowMs
  let count (p : Visit → Bool) : Nat :=
    satSum u64Max (fun v => (p v.2).toNat) vs
  let toRemove := (vs.filter (·.2.clears)).map (·.1)
  let visited := Dict.mapVals
    (fun dst st => (d.visit (a dst) nowMs dst st).state) d.state
  (vs.filterMap (·.2.event),
    { d with
      state := Dict.eraseAll toRemove visited
      minSampleSuppressed :=
        satAdd64 d.minSampleSuppressed (count (·.suppressed))
      detectionsOpened := satAdd64 d.detectionsOpened (count (·.opens))
      detectionsCleared :=
        satAdd64 d.detectionsCleared (count (·.clears)) })

/-- `tick`: evict stale samples and report the lifecycle events. -/
def tick (rd : Rounding) (ho : IpAddr → HashOrders)
    (ord : IterOrder (Sigma fun _ : IpAddr => DstState)) (nowMs : Nat)
    (d : ThresholdDetector) : List DetectionEvent × ThresholdDetector :=
  d.tickWith (fun dst => d.assess rd (ho dst)) ord nowMs

end ThresholdDetector

end Blackwall.Flow
