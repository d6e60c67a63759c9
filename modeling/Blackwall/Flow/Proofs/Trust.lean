/-
How far a reported sampling rate is trusted.

A sample of a registered agent stands for a number of packets between a
quarter of the agent's expected rate and the trust ceiling, whatever rate
the datagram reports (`Rates.band`). The quarter truncates: an
agent whose expected rate is below four has no floor at all, and a
reported rate of zero then goes through. The maps by agent have registered
agents for keys only, and an agent is near the ceiling no more often than
its rate was off.

The counters by agent have no bound here. `counted` says how far they can
get: to the number of observations.
-/
import Blackwall.Flow.Watch

namespace Blackwall.Flow

open Base

-- ============================================================ statements

namespace ThresholdDetector

/-- Every recorded sample of an agent that is registered with a rate of at
least one stands for a number of packets within the band. -/
def InBand (factor : BitVec 32) (d : ThresholdDetector) : Prop :=
  ∀ dst st, d.state.lookup dst = some st → ∀ s ∈ st.samples.toList,
    ∀ e, d.agents.expectedSampling s.agent = some e → 1 ≤ e.toNat →
      1 ≤ s.estPackets.toNat ∧ e.toNat / 4 ≤ s.estPackets.toNat
        ∧ s.estPackets.toNat
          ≤ min (e.toNat * max 4 factor.toNat) (2 ^ 32 - 1)

/-- The agent is in the registry. -/
def registered (d : ThresholdDetector) (agent : IpAddr) : Bool :=
  (d.agents.expectedSampling agent).isSome

/-- The maps by agent: when it was last seen, how often its rate was off,
how often that was near the ceiling. -/
abbrev Books : Type :=
  Dict IpAddr Nat × Dict IpAddr Nat × Dict IpAddr Nat

def books (d : ThresholdDetector) : Books :=
  (d.agentLastSeen, d.samplingMismatches, d.samplingNearCeiling)

/-- What the maps hold, for the agents `known`. -/
structure Books.Sound (known : IpAddr → Bool) (b : Books) : Prop where
  lastSeen : ∀ a ∈ b.1, known a = true
  mismatches : ∀ a ∈ b.2.1, known a = true
  nearCeiling : ∀ a ∈ b.2.2, known a = true
  near_le : ∀ a, (b.2.2.lookup a).getD 0 ≤ (b.2.1.lookup a).getD 0

/-- What an observation has to report to be within the band: if its agent
is registered with a rate below four, not zero. -/
def Sufficient (d : ThresholdDetector) (obs : FlowObservation) : Prop :=
  d.monitors obs.dst = true →
    ∀ e, d.agents.expectedSampling obs.agent = some e → 1 ≤ e.toNat →
      4 ≤ e.toNat ∨ 1 ≤ obs.samplingRate.toNat

end ThresholdDetector

/-- The line of an observation. -/
def Record.isObserved : Record → Bool
  | .observed .. => true
  | .ticked .. => false

/-- The observations made so far. -/
def Watched.observations (w : Watched) : Nat :=
  w.trace.countP Record.isObserved

/-- The band, the books, and how far a counter of the books can be. -/
structure Watched.Trusts (factor : BitVec 32) (w : Watched) : Prop where
  band : w.det.InBand factor
  books : w.det.books.Sound w.det.registered
  counted : ∀ a, (w.det.samplingMismatches.lookup a).getD 0
    ≤ w.observations

/-- A call that records an observation records one that reports enough. -/
def Move.Reports (w : Watched) : Move → Prop
  | .observe obs nowMs =>
      (w.det.observe obs nowMs.toNat).isSome = true → w.det.Sufficient obs
  | .tick .. => True

-- ============================================================== the band

namespace ThresholdDetector

variable {d d' : ThresholdDetector} {obs : FlowObservation} {nowMs : Nat}

theorem toNat_satMul32 (a b : BitVec 32) :
    (satMul32 a b).toNat = min (a.toNat * b.toNat) (2 ^ 32 - 1) := by
  have hlt : min (a.toNat * b.toNat) (2 ^ 32 - 1) < 2 ^ 32 :=
    Nat.lt_of_le_of_lt (Nat.min_le_right _ _) (by decide)
  rw [satMul32, BitVec.toNat_ofNat, Nat.mod_eq_of_lt hlt]

/-- What `observe` makes of the reported rate, and of the maps by agent. -/
inductive Rates (obs : FlowObservation) (nowMs : Nat)
    (d : ThresholdDetector) (rate : BitVec 32) (d' : ThresholdDetector) :
    Prop
  | unknown (hnone : d.agents.expectedSampling obs.agent = none)
      (hbooks : d'.books = d.books)
  | raised {e : BitVec 32}
      (he : d.agents.expectedSampling obs.agent = some e)
      (hlow : obs.samplingRate < e / 4) (hrate : rate = e)
      (hbooks : d'.books = (d.agentLastSeen.insert obs.agent nowMs,
        bump obs.agent d.samplingMismatches, d.samplingNearCeiling))
  | capped {e : BitVec 32} {near : Dict IpAddr Nat}
      (he : d.agents.expectedSampling obs.agent = some e)
      (hhigh : satMul32 e 4 < obs.samplingRate)
      (hrate : rate = if obs.samplingRate ≤ satMul32 e d.maxSamplingFactor
        then obs.samplingRate else satMul32 e d.maxSamplingFactor)
      (hnear : near = d.samplingNearCeiling
        ∨ near = bump obs.agent d.samplingNearCeiling)
      (hbooks : d'.books = (d.agentLastSeen.insert obs.agent nowMs,
        bump obs.agent d.samplingMismatches, near))
  | trusted {e : BitVec 32}
      (he : d.agents.expectedSampling obs.agent = some e)
      (hlow : ¬ obs.samplingRate < e / 4)
      (hhigh : ¬ satMul32 e 4 < obs.samplingRate)
      (hrate : rate = obs.samplingRate)
      (hbooks : d'.books = (d.agentLastSeen.insert obs.agent nowMs,
        d.samplingMismatches, d.samplingNearCeiling))

theorem effectiveRate_rates (obs : FlowObservation) (nowMs : Nat)
    (d : ThresholdDetector) :
    Rates obs nowMs d (d.effectiveRate obs nowMs).1
      (d.effectiveRate obs nowMs).2 := by
  unfold effectiveRate
  cases he : d.agents.expectedSampling obs.agent with
  | none => exact .unknown he rfl
  | some e =>
      dsimp only
      split
      next hlow => exact .raised he hlow rfl rfl
      next hlow =>
        split
        next hhigh =>
          generalize htrusted : (if obs.samplingRate
              ≤ satMul32 e d.maxSamplingFactor then obs.samplingRate
            else satMul32 e d.maxSamplingFactor) = trusted
          split
          · exact .capped he hhigh htrusted.symm (.inr rfl) rfl
          · exact .capped he hhigh htrusted.symm (.inl rfl) rfl
        next hhigh => exact .trusted he hlow hhigh rfl rfl

/-- The rate `observe` works with: never below a quarter of the expected
one, never above the ceiling, and at least one unless both the quarter and
the report are zero. -/
theorem Rates.band {rate e : BitVec 32} (h : Rates obs nowMs d rate d')
    (he : d.agents.expectedSampling obs.agent = some e)
    (hpos : 1 ≤ e.toNat) (hfactor : 4 ≤ d.maxSamplingFactor.toNat) :
    (1 ≤ rate.toNat ↔ 4 ≤ e.toNat ∨ 1 ≤ obs.samplingRate.toNat)
      ∧ e.toNat / 4 ≤ rate.toNat
      ∧ rate.toNat
        ≤ min (e.toNat * d.maxSamplingFactor.toNat) (2 ^ 32 - 1) := by
  have hlo : (e / 4).toNat = e.toNat / 4 := BitVec.toNat_udiv
  have hhi : (satMul32 e 4).toNat = min (e.toNat * 4) (2 ^ 32 - 1) :=
    toNat_satMul32 e 4
  have hceil := toNat_satMul32 e d.maxSamplingFactor
  have helt := e.isLt
  have hmul : e.toNat * 4 ≤ e.toNat * d.maxSamplingFactor.toNat :=
    Nat.mul_le_mul_left _ hfactor
  generalize e.toNat * d.maxSamplingFactor.toNat = top at hmul hceil ⊢
  cases h with
  | unknown hnone => cases he.symm.trans hnone
  | raised he' hlow hrate =>
      cases he.symm.trans he'
      rw [BitVec.lt_def, hlo] at hlow
      rw [hrate]
      omega
  | capped he' hhigh hrate =>
      cases he.symm.trans he'
      rw [BitVec.lt_def, hhi] at hhigh
      have hmin : rate.toNat
          = min obs.samplingRate.toNat (min top (2 ^ 32 - 1)) := by
        rw [hrate]
        split
        next hle =>
          rw [BitVec.le_def, hceil] at hle
          exact (Nat.min_eq_left hle).symm
        next hgt =>
          rw [BitVec.le_def, hceil] at hgt
          rw [hceil, Nat.min_eq_right (Nat.le_of_not_le hgt)]
      omega
  | trusted he' hlow hhigh hrate =>
      cases he.symm.trans he'
      rw [BitVec.lt_def, hlo] at hlow
      rw [BitVec.lt_def, hhi] at hhigh
      rw [hrate]
      omega

/-- An observation that the collector records is within the band exactly
when it reports enough. -/
theorem sampleOf_band {factor e : BitVec 32}
    (hfactor : d.maxSamplingFactor.toNat = max 4 factor.toNat)
    (he : d.agents.expectedSampling obs.agent = some e)
    (hpos : 1 ≤ e.toNat) :
    (1 ≤ (d.sampleOf obs nowMs).estPackets.toNat
        ↔ 4 ≤ e.toNat ∨ 1 ≤ obs.samplingRate.toNat)
      ∧ e.toNat / 4 ≤ (d.sampleOf obs nowMs).estPackets.toNat
      ∧ (d.sampleOf obs nowMs).estPackets.toNat
        ≤ min (e.toNat * max 4 factor.toNat) (2 ^ 32 - 1) := by
  have hest : (d.sampleOf obs nowMs).estPackets.toNat
      = (d.effectiveRate obs nowMs).1.toNat :=
    BitVec.toNat_setWidth_of_le (by decide)
  rw [hest, ← hfactor]
  refine (effectiveRate_rates obs nowMs d).band he hpos ?_
  rw [hfactor]
  exact Nat.le_max_left _ _

-- ============================================================= the books

theorem lookup_bump (agent a : IpAddr) (m : Dict IpAddr Nat) :
    ((bump agent m).lookup a).getD 0
      = (m.lookup a).getD 0 + if a = agent then 1 else 0 := by
  rw [bump, Dict.lookup_insert_if]
  by_cases ha : a = agent
  · rw [if_pos ha, if_pos ha, ha, Option.getD_some]
  · rw [if_neg ha, if_neg ha, Nat.add_zero]

theorem mem_bump {agent a : IpAddr} {m : Dict IpAddr Nat} :
    a ∈ bump agent m ↔ a = agent ∨ a ∈ m :=
  AList.mem_insert m

theorem registered_congr (h : d'.settings = d.settings) :
    d'.registered = d.registered := by
  funext a
  rw [registered, registered, show d'.agents = d.agents from
    congrArg (·.2.2) h]

section Sound

variable {known : IpAddr → Bool} {agent : IpAddr}
  {seen mis near : Dict IpAddr Nat}

theorem Books.Sound.saw (h : Books.Sound known (seen, mis, near))
    (hk : known agent = true) (nowMs : Nat) :
    Books.Sound known (seen.insert agent nowMs, mis, near) where
  lastSeen := by
    intro a ha
    rcases (AList.mem_insert seen).mp ha with rfl | ha
    · exact hk
    · exact h.lastSeen a ha
  mismatches := h.mismatches
  nearCeiling := h.nearCeiling
  near_le := h.near_le

theorem Books.Sound.off (h : Books.Sound known (seen, mis, near))
    (hk : known agent = true) :
    Books.Sound known (seen, bump agent mis, near) where
  lastSeen := h.lastSeen
  mismatches := by
    intro a ha
    rcases mem_bump.mp ha with rfl | ha
    · exact hk
    · exact h.mismatches a ha
  nearCeiling := h.nearCeiling
  near_le := by
    intro a
    have hle := h.near_le a
    dsimp only at hle ⊢
    rw [lookup_bump]
    omega

/-- Near the ceiling the rate is off as well. -/
theorem Books.Sound.offNear (h : Books.Sound known (seen, mis, near))
    (hk : known agent = true) :
    Books.Sound known (seen, bump agent mis, bump agent near) where
  lastSeen := h.lastSeen
  mismatches := (h.off hk).mismatches
  nearCeiling := by
    intro a ha
    rcases mem_bump.mp ha with rfl | ha
    · exact hk
    · exact h.nearCeiling a ha
  near_le := by
    intro a
    have hle := h.near_le a
    dsimp only at hle ⊢
    rw [lookup_bump, lookup_bump]
    omega

end Sound

/-- Whatever `observe` makes of the rate, only the agent's own entries
change, and only if the agent is registered. -/
theorem Rates.sound {rate : BitVec 32} (h : Rates obs nowMs d rate d')
    (hs : d.books.Sound d.registered) : d'.books.Sound d.registered := by
  have hknown : ∀ {e}, d.agents.expectedSampling obs.agent = some e →
      d.registered obs.agent = true := fun he => by
    rw [registered, he]
    rfl
  cases h with
  | unknown _ hbooks =>
      rw [hbooks]
      exact hs
  | raised he _ _ hbooks =>
      rw [hbooks]
      exact (hs.saw (hknown he) nowMs).off (hknown he)
  | capped he _ _ hnear hbooks =>
      rw [hbooks]
      rcases hnear with rfl | rfl
      · exact (hs.saw (hknown he) nowMs).off (hknown he)
      · exact (hs.saw (hknown he) nowMs).offNear (hknown he)
  | trusted he _ _ _ hbooks =>
      rw [hbooks]
      exact hs.saw (hknown he) nowMs

/-- The maps after `observe` are those of its first half. -/
theorem observe_rates (h : d.observe obs nowMs = some d') :
    ∃ rate d₁, Rates obs nowMs d rate d₁ ∧ d'.books = d₁.books := by
  refine ⟨_, _, effectiveRate_rates obs nowMs d, ?_⟩
  unfold observe at h
  dsimp only at h
  split at h
  · obtain ⟨samples, -, rfl⟩ := Option.map_eq_some_iff.mp h
    rfl
  · cases h
    rfl

/-- An observation makes one mismatch at most. -/
theorem Rates.counted {rate : BitVec 32} (h : Rates obs nowMs d rate d')
    (a : IpAddr) :
    (d'.books.2.1.lookup a).getD 0
      ≤ (d.books.2.1.lookup a).getD 0 + 1 := by
  have hbump : ((bump obs.agent d.samplingMismatches).lookup a).getD 0
      ≤ (d.samplingMismatches.lookup a).getD 0 + 1 := by
    rw [lookup_bump]
    split <;> omega
  cases h with
  | unknown _ hbooks =>
      rw [hbooks]
      exact Nat.le_succ _
  | raised _ _ _ hbooks =>
      rw [hbooks]
      exact hbump
  | capped _ _ _ _ hbooks =>
      rw [hbooks]
      exact hbump
  | trusted _ _ _ _ hbooks =>
      rw [hbooks]
      exact Nat.le_succ _

-- =========================================================== one call

theorem inBand_observe {factor : BitVec 32}
    (hfactor : d.maxSamplingFactor.toNat = max 4 factor.toNat)
    (hb : d.InBand factor) (h : d.observe obs nowMs = some d') :
    d'.InBand factor ↔ d.Sufficient obs := by
  obtain ⟨hobs, hsettings, -⟩ := observe_observes h
  have hagents : d'.agents = d.agents := congrArg (·.2.2) hsettings
  unfold InBand
  rw [hagents]
  cases hobs with
  | ignored hout hstate =>
      rw [hstate]
      refine iff_of_true hb fun hin => ?_
      rw [hout] at hin
      cases hin
  | @recorded samples hin hpush hstate =>
      have hlk : ∀ dst, d'.state.lookup dst = if dst = obs.dst then
          some { (d.state.lookup obs.dst).getD freshDst with samples }
          else d.state.lookup dst := fun dst => by
        rw [hstate, Dict.lookup_insert_if]
      -- the samples before were within the band
      have hold : ∀ s ∈ ((d.state.lookup obs.dst).getD
          freshDst).samples.toList, ∃ st,
            d.state.lookup obs.dst = some st ∧ s ∈ st.samples.toList := by
        intro s hs
        cases hst : d.state.lookup obs.dst with
        | none =>
            rw [hst] at hs
            cases hs
        | some st =>
            rw [hst] at hs
            exact ⟨st, rfl, hs⟩
      constructor
      · intro hall _ e he hpos
        have hnew := hall obs.dst _ ((hlk _).trans (if_pos rfl))
          (d.sampleOf obs nowMs) (by rw [hpush]; exact List.mem_concat_self)
          e he hpos
        exact (sampleOf_band hfactor he hpos).1.mp hnew.1
      · intro hrep dst st hst s hs e he hpos
        rw [hlk] at hst
        split at hst
        · cases hst
          rw [hpush, List.mem_append, List.mem_singleton] at hs
          rcases hs with hs | rfl
          · obtain ⟨st, hst, hs⟩ := hold s hs
            exact hb _ st hst s hs e he hpos
          · have hband := @sampleOf_band d obs nowMs factor e hfactor he hpos
            exact ⟨hband.1.mpr (hrep hin e he hpos), hband.2⟩
        · exact hb dst st hst s hs e he hpos

theorem inBand_tickWith {a : IpAddr → Assess}
    {ord : IterOrder (Sigma fun _ : IpAddr => DstState)} {factor : BitVec 32}
    (hn : Names a) (hb : d.InBand factor) :
    (d.tickWith a ord nowMs).2.InBand factor := by
  intro dst st' hst' s hs e he hpos
  have hturn : Turn a nowMs d dst
      ((d.tickWith a ord nowMs).1.filter fun ev => ev.target = dst)
      ((d.tickWith a ord nowMs).2.state.lookup dst) := tickWith_turn hn dst
  generalize (d.tickWith a ord nowMs).1.filter
    (fun ev => ev.target = dst) = evs at hturn
  have hkept : ∀ {st}, s ∈ (d.evicted nowMs st).samples.toList →
      s ∈ st.samples.toList := fun h => List.mem_of_mem_filter h
  rw [hst'] at hturn
  cases hturn with
  | updated hlk => exact hb dst _ hlk s (hkept hs) e he hpos
  | opened hlk => exact hb dst _ hlk s (hkept hs) e he hpos
  | quiet hlk => exact hb dst _ hlk s (hkept hs) e he hpos

end ThresholdDetector

-- ============================================================ every run

namespace Watched

variable {factor : BitVec 32} {w : Watched}

/-- An observation is within the band exactly when it reports enough; the
books are in order either way. -/
theorem trusts_observed {obs : FlowObservation} {nowMs : Nat}
    {det : ThresholdDetector}
    (hfactor : w.det.maxSamplingFactor.toNat = max 4 factor.toNat)
    (ht : w.Trusts factor) (h : w.det.observe obs nowMs = some det) :
    Trusts factor ⟨det, w.trace ++ [.observed obs nowMs]⟩
      ↔ w.det.Sufficient obs := by
  obtain ⟨-, hsettings, -⟩ := ThresholdDetector.observe_observes h
  obtain ⟨rate, d₁, hrates, hbooks⟩ := ThresholdDetector.observe_rates h
  have hband := ThresholdDetector.inBand_observe hfactor ht.band h
  refine ⟨fun ht' => hband.mp ht'.band, fun hrep =>
    ⟨hband.mpr hrep, ?_, fun a => ?_⟩⟩
  · rw [hbooks, ThresholdDetector.registered_congr hsettings]
    exact hrates.sound ht.books
  · have hmis : det.samplingMismatches = d₁.books.2.1 :=
      congrArg (·.2.1) hbooks
    have hone := hrates.counted a
    have hold : (w.det.books.2.1.lookup a).getD 0 ≤ w.observations :=
      ht.counted a
    rw [hmis, observations, List.countP_append]
    exact hone.trans (Nat.succ_le_succ hold)

theorem trusts_step (rd : Rounding) (test : RateTest) (m : Move)
    (hfactor : w.det.maxSamplingFactor.toNat = max 4 factor.toNat)
    (ht : w.Trusts factor) :
    (w.step rd test m).Trusts factor ↔ m.Reports w := by
  cases m with
  | observe obs t =>
      rw [step, Move.Reports]
      split
      next det hobs =>
        rw [trusts_observed hfactor ht hobs, hobs]
        exact ⟨fun hrep _ => hrep, fun hrep => hrep rfl⟩
      next hobs =>
        refine iff_of_true ht fun hsome => ?_
        rw [hobs] at hsome
        cases hsome
  | tick orders ord t =>
      refine iff_of_true ⟨?_, ht.books, fun a => ?_⟩ trivial
      · exact ThresholdDetector.inBand_tickWith
          (reading_faithful rd test orders w.det).names ht.band
      · rw [step, observations, List.countP_append]
        exact (ht.counted a).trans (Nat.le_add_right _ _)

theorem maxSamplingFactor_step (rd : Rounding) (test : RateTest)
    (m : Move) (w : Watched) :
    (w.step rd test m).det.maxSamplingFactor
      = w.det.maxSamplingFactor := by
  cases m with
  | observe obs t =>
      rw [step]
      split
      next det hobs =>
        obtain ⟨-, hsettings, -⟩ :=
          ThresholdDetector.observe_observes hobs
        exact congrArg (·.2.1.maxSamplingFactor) hsettings
      next => rfl
  | tick => rfl

end Watched

/-- In every state of a run the samples are within the band and the books
in order, if and only if every observation that is recorded under a
registered agent reports a rate that is not zero, or the agent's expected
rate is at least four. -/
theorem trust_band_iff (rd : Rounding) (test : RateTest)
    (prefixes : List IpNet) (config : DetectorConfig)
    (agents : AgentRegistry) (ms : List Move) :
    (∀ n, (run (Watched.step rd test) (.start prefixes config agents)
        (ms.take n)).Trusts config.maxSamplingFactor)
      ↔ Guarded (Watched.step rd test) (fun w m => m.Reports w)
        (.start prefixes config agents) ms := by
  refine run_take_iff_under (I := fun w => w.det.maxSamplingFactor.toNat
      = max 4 config.maxSamplingFactor.toNat) ms
    (fun w m _ hfactor _ _ => ?_)
    (fun w m _ hfactor ht => Watched.trusts_step rd test m hfactor ht) ?_ ?_
  · rw [Watched.maxSamplingFactor_step]
    exact hfactor
  · show (if config.maxSamplingFactor ≤ 4 then (4 : BitVec 32)
      else config.maxSamplingFactor).toNat = _
    split
    next hle =>
      rw [BitVec.le_def] at hle
      exact (Nat.max_eq_left hle).symm
    next hgt =>
      rw [BitVec.le_def] at hgt
      exact (Nat.max_eq_right (Nat.le_of_not_le hgt)).symm
  · refine ⟨?_, ⟨nofun, nofun, nofun, fun _ => Nat.le_refl _⟩,
      fun _ => Nat.le_refl _⟩
    intro dst st hst
    cases hst

/-- A detector whose one agent samples every third packet. -/
def thirdSampled : Watched :=
  .start [.v4 (.any 32)]
    { ppsThreshold := 100, bpsThreshold := 1000000000, windowMs := 1000
      holdDownMs := 0, minSamples := 1, maxSamplingFactor := 4 }
    (.fromEntries [⟨"ams", .v4 0x0A000001, 3⟩])

/-- A datagram in its name that reports a rate of zero makes the sampled
packet count for nothing. -/
theorem zero_rate_counts_nothing :
    ¬ (run (Watched.step exact (thresholdTest exact)) thirdSampled
      [.observe (ThresholdDetector.sampleObs 53 0) 0]).Trusts 4 := by
  intro h
  have hentry : ((run (Watched.step exact (thresholdTest exact))
      thirdSampled [.observe (ThresholdDetector.sampleObs 53 0)
        0]).det.state.lookup (.v4 0xC6336407)).map
          (fun st => st.samples.toList.map fun s => (s.agent, s.estPackets))
      = some [(.v4 0x0A000001, 0)] := by decide +kernel
  obtain ⟨st, hst, heq⟩ := Option.map_eq_some_iff.mp hentry
  obtain ⟨s, hs, hpair⟩ := List.mem_map.mp
    (heq ▸ List.mem_singleton_self (IpAddr.v4 0x0A000001, (0 : BitVec 64)))
  rw [Prod.mk.injEq] at hpair
  have hband := (h.band _ st hst s hs 3 (by rw [hpair.1]; rfl)
    (by decide)).1
  rw [hpair.2] at hband
  exact absurd hband (by decide)

end Blackwall.Flow
