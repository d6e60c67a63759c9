/-
Does `select` scope a mitigation to ports that carry the traffic?

The detector hands over port weights in packets per second; the
selection compares their sum with `concentration`, a fraction. With
weights read as exact rationals both sides of the comparison are known
exactly: the weight of a port is its share of the window's packets over
the window's length (`emitted_rates`), and the loop stops at the first
ranked port where the running sum reaches the fraction
(`select_eq_flowSpec_iff`). So a rule set carries `concentration` of the
window exactly when the detection meets `RateReachesShare`.
-/
import Mathlib.Algebra.Order.Field.Basic
import Mathlib.Tactic.Ring
import Blackwall.Flow.Proofs.Detector
import Blackwall.Flow.Select

namespace Blackwall.Flow

open Base

-- ============================================================ statements

/-- The estimated packets of some samples. -/
def packets (samples : List Sample) : Nat :=
  (samples.map fun s => s.estPackets.toNat).sum

/-- The rules' ports carry the configured share of a window, and there
are no more of them than allowed. -/
def Concentrated (cfg : SelectionConfig) (window : List Sample)
    (rules : List FlowRule) : Prop :=
  cfg.concentration * packets window
      ≤ packets (window.filter fun s => s.dstPort ∈ rules.map (·.dstPort))
    ∧ rules.length ≤ cfg.maxFlows

/-- The summed weights of the `n` heaviest non-zero ports. -/
def cumulative (det : Detection) (n : Nat) : ℚ :=
  (((rankedPorts det).take n).map (·.2)).sum

/-- `n` is the first number of ranked ports whose weights reach `w`. -/
def FirstReaches (det : Detection) (w : ℚ) (n : Nat) : Prop :=
  n ≤ (rankedPorts det).length ∧ w ≤ cumulative det n
    ∧ ∀ m < n, cumulative det m < w

/-- Where the summed port rates first reach `concentration` packets per
second, they also reach that fraction of the observed rate. -/
def RateReachesShare (det : Detection) (cfg : SelectionConfig) : Prop :=
  det.proto = 0 ∨ ∀ n ≤ cfg.maxFlows,
    FirstReaches det cfg.concentration n →
      cfg.concentration * det.observedPps ≤ cumulative det n

instance (det : Detection) (w : ℚ) (n : Nat) :
    Decidable (FirstReaches det w n) :=
  inferInstanceAs (Decidable (_ ∧ _ ∧ _))

instance (det : Detection) (cfg : SelectionConfig) :
    Decidable (RateReachesShare det cfg) :=
  inferInstanceAs (Decidable (_ ∨ _))

instance (cfg : SelectionConfig) (window : List Sample)
    (rules : List FlowRule) : Decidable (Concentrated cfg window rules) :=
  inferInstanceAs (Decidable (_ ∧ _))

-- ======================================================= what the loop does

@[simp] theorem exact_apply (x : ℚ) : exact x = x := rfl

theorem sortDesc_perm {α κ : Type} [LE κ] [DecidableLE κ] (key : α → κ)
    (l : List α) : (sortDesc key l).Perm l :=
  List.perm_insertionSort _ l

/-- The loop returns the ports up to the first one at which the running
sum reaches the concentration, if the allowed flows last that long. -/
theorem chooseLoop_eq_some (cfg : SelectionConfig) (out : List (BitVec 16)) :
    ∀ (ports : List (BitVec 16 × ℚ)) (chosen : List (BitVec 16))
      (cum : ℚ),
      chooseLoop exact cfg ports chosen cum = some out
        ↔ ∃ n, 1 ≤ n ∧ n ≤ ports.length
          ∧ chosen.length + n ≤ cfg.maxFlows
          ∧ out = chosen ++ (ports.take n).map (·.1)
          ∧ cfg.concentration ≤ cum + ((ports.take n).map (·.2)).sum
          ∧ ∀ m, 1 ≤ m → m < n →
            cum + ((ports.take m).map (·.2)).sum < cfg.concentration := by
  intro ports
  induction ports with
  | nil =>
      intro chosen cum
      simp only [chooseLoop, List.length_nil]
      constructor
      · nofun
      · rintro ⟨n, h1, h0, -⟩
        omega
  | cons e ports ih =>
      obtain ⟨port, weight⟩ := e
      intro chosen cum
      rw [chooseLoop]
      by_cases hfull : cfg.maxFlows ≤ chosen.length
      · rw [if_pos hfull]
        constructor
        · nofun
        · rintro ⟨n, h1, -, hmax, -⟩
          omega
      rw [if_neg hfull]
      by_cases hreach : cfg.concentration ≤ exact (cum + weight)
      · -- the head alone reaches it: the answer is `n = 1`
        rw [if_pos hreach]
        constructor
        · intro h
          obtain rfl := Option.some.inj h
          refine ⟨1, le_refl 1, ?_, ?_, ?_, ?_, ?_⟩
          · simp
          · omega
          · simp
          · simpa using hreach
          · intro m h1 h2
            omega
        · rintro ⟨n, h1, -, -, rfl, -, hmin⟩
          obtain rfl | hn : n = 1 ∨ 1 < n := by omega
          · simp
          · have hlt := hmin 1 (le_refl 1) hn
            simp only [List.take_succ_cons, List.take_zero, List.map_cons,
              List.map_nil, List.sum_cons, List.sum_nil, add_zero] at hlt
            exact absurd hreach (not_le.mpr hlt)
      · -- it does not: the answers shift by one
        rw [exact_apply] at hreach
        rw [exact_apply, if_neg hreach, ih]
        constructor
        · rintro ⟨n, h1, hlen, hmax, rfl, hge, hmin⟩
          refine ⟨n + 1, by omega, ?_, ?_, ?_, ?_, ?_⟩
          · rw [List.length_cons]
            omega
          · rw [List.length_append, List.length_singleton] at hmax
            omega
          · simp
          · rw [List.take_succ_cons, List.map_cons, List.sum_cons,
              ← add_assoc]
            exact hge
          · intro m h1' h2
            obtain ⟨m, rfl⟩ : ∃ k, m = k + 1 := ⟨m - 1, by omega⟩
            rw [List.take_succ_cons, List.map_cons, List.sum_cons,
              ← add_assoc]
            rcases Nat.eq_zero_or_pos m with rfl | hpos
            · simpa using not_le.mp hreach
            · exact hmin m hpos (by omega)
        · rintro ⟨n, h1, hlen, hmax, rfl, hge, hmin⟩
          obtain ⟨n, rfl⟩ : ∃ k, n = k + 1 := ⟨n - 1, by omega⟩
          rw [List.take_succ_cons, List.map_cons, List.sum_cons,
            ← add_assoc] at hge
          have hpos : 1 ≤ n := by
            rcases Nat.eq_zero_or_pos n with rfl | hpos
            · simp only [List.take_zero, List.map_nil, List.sum_nil,
                add_zero] at hge
              exact absurd hge hreach
            · exact hpos
          refine ⟨n, hpos, ?_, ?_, ?_, hge, ?_⟩
          · rw [List.length_cons] at hlen
            omega
          · rw [List.length_append, List.length_singleton]
            omega
          · simp
          · intro m h1' h2
            have hlt := hmin (m + 1) (by omega) (by omega)
            rw [List.take_succ_cons, List.map_cons, List.sum_cons,
              ← add_assoc] at hlt
            exact hlt

/-- The rules for the first `n` ranked ports. -/
def rulesFor (det : Detection) (cfg : SelectionConfig) (n : Nat) :
    List FlowRule :=
  ((rankedPorts det).take n).map fun e =>
    { dst := det.target, proto := det.proto, dstPort := e.1
      rate := cfg.rate }

/-- `select` answers with rules exactly when the detection has a protocol
and some allowed number of ranked ports reaches the concentration. -/
theorem select_eq_flowSpec_iff (det : Detection) {cfg : SelectionConfig}
    (hpos : 0 < cfg.concentration) (rules : List FlowRule) :
    select exact det cfg = .flowSpec rules
      ↔ det.proto ≠ 0 ∧ ∃ n ≤ cfg.maxFlows,
        FirstReaches det cfg.concentration n
          ∧ rules = rulesFor det cfg n := by
  have hloop : ∀ out, chooseLoop exact cfg (rankedPorts det) [] 0 = some out
      ↔ ∃ n ≤ cfg.maxFlows, FirstReaches det cfg.concentration n
        ∧ out = ((rankedPorts det).take n).map (·.1) := by
    intro out
    simp only [chooseLoop_eq_some, List.length_nil, zero_add,
      List.nil_append]
    constructor
    · rintro ⟨n, h1, hlen, hmax, hout, hge, hmin⟩
      refine ⟨n, hmax, ⟨hlen, hge, fun m hm => ?_⟩, hout⟩
      rcases Nat.eq_zero_or_pos m with rfl | h
      · simpa [cumulative] using hpos
      · exact hmin m h hm
    · rintro ⟨n, hmax, ⟨hlen, hge, hmin⟩, hout⟩
      refine ⟨n, ?_, hlen, hmax, hout, hge, fun m _ hm => hmin m hm⟩
      rcases Nat.eq_zero_or_pos n with rfl | h
      · simp only [cumulative, List.take_zero, List.map_nil,
          List.sum_nil] at hge
        exact absurd hpos (not_lt.mpr hge)
      · exact h
  -- without a non-zero port there is nothing to rank
  have hnone : (det.topPorts.filter fun e => e.1 ≠ 0) = [] →
      ¬ ∃ n ≤ cfg.maxFlows, FirstReaches det cfg.concentration n
        ∧ rules = rulesFor det cfg n := by
    rintro hnil ⟨n, -, ⟨-, hge, -⟩, -⟩
    simp only [cumulative, rankedPorts, hnil, sortDesc,
      List.insertionSort_nil, List.take_nil, List.map_nil,
      List.sum_nil] at hge
    exact absurd hpos (not_lt.mpr hge)
  unfold select
  split
  case isTrue hr =>
      refine iff_of_false nofun ?_
      rintro ⟨hproto, hex⟩
      refine hnone ?_ hex
      rcases hr with h | h | h
      · exact absurd h hproto
      · rw [List.isEmpty_iff.mp h, List.filter_nil]
      · rw [List.filter_eq_nil_iff]
        intro e he
        have := List.all_eq_true.mp h e he
        simpa using this
  case isFalse hr =>
      have hproto : det.proto ≠ 0 := fun h => hr (Or.inl h)
      split
      case isTrue hemp =>
          refine iff_of_false nofun ?_
          rintro ⟨-, hex⟩
          exact hnone (List.isEmpty_iff.mp hemp) hex
      case isFalse =>
          split
          next chosen hsome =>
            obtain ⟨n, hn, hfr, rfl⟩ := (hloop _).mp hsome
            constructor
            · intro h
              refine ⟨hproto, n, hn, hfr, ?_⟩
              rw [← Mitigation.flowSpec.inj h, List.map_map]
              rfl
            · rintro ⟨-, n', hn', hfr', rfl⟩
              -- the loop has one answer, so both numbers name it
              have hsome' := (hloop _).mpr ⟨n', hn', hfr', rfl⟩
              rw [hsome, Option.some.injEq] at hsome'
              rw [hsome', List.map_map]
              rfl
          next hno =>
            refine iff_of_false nofun ?_
            rintro ⟨-, n, hn, hfr, -⟩
            have := (hloop _).mpr ⟨n, hn, hfr, rfl⟩
            rw [hno] at this
            cases this

-- ================================================ what the weights stand for

section Weights

variable {rd : Rounding}

/-- No packet sum of a window saturates. -/
theorem packets_le (v : Vec Sample) (p : Sample → Bool) :
    packets (v.toList.filter p) ≤ u128Max :=
  (sum_filter_le _ p _).trans (v.sum_lt fun s => s.estPackets.isLt)

theorem totalPackets_eq (v : Vec Sample) :
    totalPackets v.toList = packets v.toList :=
  satSum_eq (v.sum_lt fun s => s.estPackets.isLt)

/-- An aggregation map holds the packets of each key that occurs. -/
theorem packetsBy_eq {K : Type} [DecidableEq K] {key : Sample → K}
    {v : Vec Sample} {k : K} {n : Nat}
    (h : (packetsBy key v.toList).lookup k = some n) :
    n = packets (v.toList.filter fun s => key s = k) := by
  rw [packetsBy, lookup_tally] at h
  split at h
  · cases h
  · rw [← Option.some.inj h]
    exact satSum_eq (packets_le v _)

/-- The weight of a top port is its packets over the window's length. -/
theorem topPorts_weight {ho : HashOrders} {p : DetectionParams}
    {v : Vec Sample} (hv : p.samples = v.toList) {port : BitVec 16}
    {w : ℚ} (h : (port, w) ∈ topPorts exact ho p) :
    w = packets (v.toList.filter fun s => s.dstPort = port)
      / p.windowSecs := by
  obtain ⟨⟨port', n⟩, hmem, heq⟩ := List.mem_map.mp h
  obtain ⟨rfl, rfl⟩ := Prod.mk.inj heq
  have hpair := (sortDesc_perm _ _).mem_iff.mp (List.mem_of_mem_take hmem)
  rw [hv] at hpair
  rw [← packetsBy_eq (Dict.mem_pairs.mp hpair)]
  rfl

/-- The top ports are distinct. -/
theorem topPorts_nodup (ho : HashOrders) (p : DetectionParams) :
    ((topPorts rd ho p).map (·.1)).Nodup := by
  rw [topPorts, List.map_map]
  refine List.Nodup.sublist (List.take_sublist 3 _ |>.map _) ?_
  rw [((sortDesc_perm _ _).map _).nodup_iff]
  exact Dict.pairs_keys_nodup ho.ports _

/-- Weights of distinct ports add up to the packets of all of them. -/
theorem weights_sum (samples : List Sample) (secs : ℚ) :
    ∀ ports : List (BitVec 16 × ℚ), (ports.map (·.1)).Nodup →
      (∀ e ∈ ports, e.2
        = packets (samples.filter fun s => s.dstPort = e.1) / secs) →
      (ports.map (·.2)).sum
        = packets (samples.filter fun s => s.dstPort ∈ ports.map (·.1))
          / secs := by
  intro ports
  induction ports with
  | nil =>
      intro _ _
      simp [packets]
  | cons e ports ih =>
      intro hnd hw
      rw [List.map_cons, List.nodup_cons] at hnd
      have hsplit : packets (samples.filter fun s =>
            s.dstPort ∈ (e :: ports).map (·.1))
          = packets (samples.filter fun s => s.dstPort = e.1)
            + packets (samples.filter fun s =>
              s.dstPort ∈ ports.map (·.1)) := by
        have hor : (fun s : Sample =>
              decide (s.dstPort ∈ (e :: ports).map (·.1)))
            = fun s => decide (s.dstPort = e.1)
              || decide (s.dstPort ∈ ports.map (·.1)) := by
          funext s
          rw [List.map_cons, ← Bool.decide_or]
          exact decide_eq_decide.mpr List.mem_cons
        rw [hor]
        refine sum_filter_or _ samples fun s hs => ?_
        rw [decide_eq_true_eq] at hs
        rw [decide_eq_false_iff_not, hs]
        exact hnd.1
      rw [List.map_cons, List.sum_cons, hw e List.mem_cons_self,
        ih hnd.2 fun e' he' => hw e' (List.mem_cons_of_mem e he'), hsplit,
        Nat.cast_add, add_div]

end Weights

-- ====================================================== across the two

section Across

variable {d : ThresholdDetector} {nowMs : Nat} {ho : IpAddr → HashOrders}
  {ord : IterOrder (Sigma fun _ : IpAddr => DstState)} {det : Detection}

theorem windowSecs_pos (d : ThresholdDetector) :
    0 < d.windowSecs exact := by
  have h : 0 < max d.windowMs 1 := lt_of_lt_of_le Nat.one_pos
    (le_max_right _ _)
  exact div_pos (Nat.cast_pos.mpr h) (by norm_num)

/-- What the two sides of the selection's comparison are for a detection
a tick emitted: packets of the window over its length. -/
theorem emitted_rates
    (h : DetectionEvent.opened det ∈ (d.tick exact ho ord nowMs).1
      ∨ DetectionEvent.updated det ∈ (d.tick exact ho ord nowMs).1) :
    det.observedPps
        = packets (d.windowOf nowMs det.target) / d.windowSecs exact
      ∧ ∀ n, cumulative det n
        = packets ((d.windowOf nowMs det.target).filter fun s =>
            s.dstPort ∈ ((rankedPorts det).take n).map (·.1))
          / d.windowSecs exact := by
  obtain ⟨st, first, hlk, hdet⟩ := ThresholdDetector.detection_of_event
    (ThresholdDetector.assess_names exact ho d) h
  have hwin : d.windowOf nowMs det.target
      = (st.samples.retain (d.inWindow nowMs)).toList := by
    rw [ThresholdDetector.windowOf, hlk]
    rfl
  rw [hwin]
  have hperm : (rankedPorts det).Perm
    (det.topPorts.filter fun e => e.1 ≠ 0) := sortDesc_perm _ _
  refine ⟨?_, fun n => weights_sum _ _ _ ?_ ?_⟩
  · rw [← totalPackets_eq, hdet]
    rfl
  · refine List.Nodup.sublist ((List.take_sublist n _).map _) ?_
    rw [(hperm.map _).nodup_iff]
    refine List.Nodup.sublist (List.filter_sublist.map _) ?_
    rw [hdet]
    exact topPorts_nodup _ _
  · rintro ⟨port, w⟩ he
    have hmem := hperm.mem_iff.mp (List.mem_of_mem_take he)
    have htop := (List.mem_filter.mp hmem).1
    rw [hdet] at htop
    exact topPorts_weight rfl htop

/-- For every detection a tick emits: the rules `select` answers with
carry the configured share of the target's window, and are no more than
allowed, exactly when the detection meets `RateReachesShare`. -/
theorem select_concentrated_iff (d : ThresholdDetector)
    (ho : IpAddr → HashOrders)
    (ord : IterOrder (Sigma fun _ : IpAddr => DstState)) (nowMs : Nat)
    (det : Detection)
    (h : DetectionEvent.opened det ∈ (d.tick exact ho ord nowMs).1
      ∨ DetectionEvent.updated det ∈ (d.tick exact ho ord nowMs).1)
    (cfg : SelectionConfig) (hpos : 0 < cfg.concentration) :
    (∀ rules, select exact det cfg = .flowSpec rules →
        Concentrated cfg (d.windowOf nowMs det.target) rules)
      ↔ RateReachesShare det cfg := by
  obtain ⟨hobs, hcum⟩ := emitted_rates h
  have hsecs := windowSecs_pos d
  -- dividing both sides by the window's length turns one into the other
  have hshare : ∀ n, cfg.concentration * packets (d.windowOf nowMs det.target)
        ≤ packets ((d.windowOf nowMs det.target).filter fun s =>
          s.dstPort ∈ (rulesFor det cfg n).map (·.dstPort))
      ↔ cfg.concentration * det.observedPps ≤ cumulative det n := by
    intro n
    have hports : (rulesFor det cfg n).map (·.dstPort)
        = ((rankedPorts det).take n).map (·.1) := by
      rw [rulesFor, List.map_map]
      rfl
    rw [hports, hcum n, hobs, ← mul_div_assoc,
      div_le_div_iff_of_pos_right hsecs]
  have hlen : ∀ n ≤ cfg.maxFlows,
      (rulesFor det cfg n).length ≤ cfg.maxFlows := by
    intro n hn
    rw [rulesFor, List.length_map]
    exact (List.length_take_le n _).trans hn
  constructor
  · intro hall
    by_cases hproto : det.proto = 0
    · exact Or.inl hproto
    refine Or.inr fun n hn hfr => (hshare n).mp ?_
    exact (hall _ ((select_eq_flowSpec_iff det hpos _).mpr
      ⟨hproto, n, hn, hfr, rfl⟩)).1
  · rintro hcond rules hsel
    obtain ⟨hproto, n, hn, hfr, rfl⟩ :=
      (select_eq_flowSpec_iff det hpos rules).mp hsel
    rcases hcond with h0 | hcond
    · exact absurd h0 hproto
    · exact ⟨(hshare n).mpr (hcond n hn hfr), hlen n hn⟩

/-- Drop at most one flow, and only for four fifths of the traffic. -/
def fourFifths : SelectionConfig :=
  { concentration := 4 / 5, maxFlows := 1, rate := ⟨0⟩ }

/-- One window: `dns` packets to port 53 and `web` to port 443. -/
def twoPorts (dns web : BitVec 32) : Option ThresholdDetector :=
  (ThresholdDetector.sample.observe (ThresholdDetector.sampleObs 53 dns)
    10).bind (·.observe (ThresholdDetector.sampleObs 443 web) 20)

/-- The detection the next tick opens for `twoPorts dns web`. -/
def twoPortsDetection (dns web : BitVec 32) (total : ℚ) : Detection :=
  { target := .v4 0xC6336407, kind := .volumetric
    observedPps := total, observedBps := total * 800, proto := 17
    topSources := [(.v4 0xCB007105, total)]
    topPorts := [(53, (dns.toNat : ℚ)), (443, (web.toNat : ℚ))]
    pops := [{ pop := "unknown", estPps := total, estBps := total * 800 }]
    topSourceBlocks := [(sourceBlock (.v4 0xCB007105), total)]
    severity := .critical, firstSeenMs := 30, lastSeenMs := 30 }

/-- Nine tenths of a window on one port are concentrated, and the rule
`select` answers with carries them. -/
theorem select_concentrated_dns :
    ∃ d, twoPorts 900 100 = some d
      ∧ DetectionEvent.opened (twoPortsDetection 900 100 1000)
        ∈ (d.tick exact (fun _ => .stored) (.stored _) 30).1
      ∧ select exact (twoPortsDetection 900 100 1000) fourFifths
        = .flowSpec [⟨.v4 0xC6336407, 17, 53, ⟨0⟩⟩]
      ∧ ∀ rules, select exact (twoPortsDetection 900 100 1000) fourFifths
          = .flowSpec rules →
        Concentrated fourFifths (d.windowOf 30 (.v4 0xC6336407)) rules := by
  have hmem : DetectionEvent.opened (twoPortsDetection 900 100 1000)
      ∈ (((twoPorts 900 100).get (by decide +kernel)).tick exact
        (fun _ => .stored) (.stored _) 30).1 := by decide +kernel
  refine ⟨_, (Option.some_get _).symm, hmem, by decide +kernel, ?_⟩
  exact (select_concentrated_iff _ _ _ 30 _ (Or.inl hmem) fourFifths
    (by decide +kernel)).mpr (by decide +kernel)

/-- Three fifths of a window on one port are not four fifths of it, but
600 packets per second are more than 0.8: `select` drops that port and
leaves the other two fifths of the attack alone. -/
theorem rate_compared_with_fraction :
    ∃ d, twoPorts 600 400 = some d
      ∧ DetectionEvent.opened (twoPortsDetection 600 400 1000)
        ∈ (d.tick exact (fun _ => .stored) (.stored _) 30).1
      ∧ select exact (twoPortsDetection 600 400 1000) fourFifths
        = .flowSpec [⟨.v4 0xC6336407, 17, 53, ⟨0⟩⟩]
      ∧ ¬ Concentrated fourFifths (d.windowOf 30 (.v4 0xC6336407))
        [⟨.v4 0xC6336407, 17, 53, ⟨0⟩⟩] := by
  exact ⟨(twoPorts 600 400).get (by decide +kernel),
    (Option.some_get _).symm, by decide +kernel, by decide +kernel,
    by decide +kernel⟩

end Across

end Blackwall.Flow
