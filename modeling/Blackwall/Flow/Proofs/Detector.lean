/-
What a detector tick does to one destination, and what that makes of the
whole tick.

`visit_cases` is the one place that splits the loop's body. The lemmas
after it say that a tick is its visits: an event is emitted for a
destination exactly when the visit of its entry pushes it, at most one a
destination, and the entry afterwards is the visit's state unless the
visit cleared it. They hold for every reading of the windows (`Assess`)
that puts the visited destination into its detections.
-/
import Blackwall.Flow.Detector

namespace Blackwall.Flow.ThresholdDetector

open Base

variable {a : IpAddr → Assess} {nowMs : Nat} {d : ThresholdDetector}

-- ============================================================= one visit

/-- The samples a destination has left in the window. -/
def window (d : ThresholdDetector) (nowMs : Nat) (st : DstState) :
    List Sample :=
  (st.samples.retain (d.inWindow nowMs)).toList

/-- The in-window samples of a destination. -/
def windowOf (d : ThresholdDetector) (nowMs : Nat) (dst : IpAddr) :
    List Sample :=
  ((d.state.lookup dst).map (d.window nowMs)).getD []

/-- The over-threshold test of a visit, the minimum-sample gate
included. -/
def windowOver (r : Assess) (nowMs : Nat) (d : ThresholdDetector)
    (st : DstState) : Bool :=
  !(d.window nowMs st).isEmpty && r.rateOver (d.window nowMs st)
    && decide (d.minSamples ≤ (d.window nowMs st).length)

/-- The entry without the samples that have left the window. -/
def evicted (d : ThresholdDetector) (nowMs : Nat) (st : DstState) :
    DstState :=
  { st with samples := st.samples.retain (d.inWindow nowMs) }

/-- Over the threshold, a visit updates the open detection or opens
one. -/
theorem visit_over {r : Assess} {st : DstState} (dst : IpAddr)
    (h : d.windowOver r nowMs st = true) :
    (d.visit r nowMs dst st).state
        = { d.evicted nowMs st with
            isOpen := true
            firstSeenMs := if st.isOpen then st.firstSeenMs else nowMs
            lastOverMs := nowMs }
      ∧ (d.visit r nowMs dst st).event
        = some (if st.isOpen then
            .updated (r.detect dst (d.window nowMs st) st.firstSeenMs nowMs)
          else .opened (r.detect dst (d.window nowMs st) nowMs nowMs)) := by
  rw [windowOver, Bool.and_assoc, Bool.and_eq_true, Bool.not_eq_true'] at h
  obtain ⟨hne, hpass⟩ := h
  unfold window at hne hpass
  unfold visit
  dsimp only
  rw [if_neg (ne_of_eq_of_ne hne Bool.false_ne_true), if_pos hpass]
  cases ho : st.isOpen with
  | true => exact ⟨rfl, rfl⟩
  | false => exact ⟨rfl, rfl⟩

/-- Below it, a visit clears an open detection past hold-down and does
nothing else. -/
theorem visit_below {r : Assess} {st : DstState} (dst : IpAddr)
    (h : d.windowOver r nowMs st = false) :
    (d.visit r nowMs dst st).state = d.evicted nowMs st
      ∧ (d.visit r nowMs dst st).event
        = if st.isOpen && d.heldDown nowMs st then
            some (.cleared dst nowMs)
          else none := by
  unfold visit
  dsimp only
  split
  case isTrue => exact ⟨rfl, rfl⟩
  case isFalse hne =>
      split
      case isTrue hpass =>
          -- not empty and past both tests: that is over the threshold
          rw [windowOver, Bool.and_assoc, window, hpass, Bool.and_true,
            Bool.not_eq_false'] at h
          exact absurd h hne
      case isFalse => exact ⟨rfl, rfl⟩

/-- A visit updates an open detection or opens a new one when the window
is over the threshold; below it, it clears an open one past hold-down or
leaves things open or closed as they were. -/
theorem visit_cases (r : Assess) (nowMs : Nat) (dst : IpAddr)
    (d : ThresholdDetector) (st : DstState) :
    (d.windowOver r nowMs st = true ∧ st.isOpen = true
        ∧ (d.visit r nowMs dst st).event = some (.updated
          (r.detect dst (d.window nowMs st) st.firstSeenMs nowMs))
        ∧ (d.visit r nowMs dst st).state.isOpen = true)
      ∨ (d.windowOver r nowMs st = true ∧ st.isOpen = false
        ∧ (d.visit r nowMs dst st).event = some (.opened
          (r.detect dst (d.window nowMs st) nowMs nowMs))
        ∧ (d.visit r nowMs dst st).state.isOpen = true)
      ∨ (d.windowOver r nowMs st = false ∧ st.isOpen = true
        ∧ (d.visit r nowMs dst st).event = some (.cleared dst nowMs))
      ∨ (d.windowOver r nowMs st = false
        ∧ (d.visit r nowMs dst st).event = none
        ∧ (d.visit r nowMs dst st).state.isOpen = st.isOpen) := by
  cases hov : d.windowOver r nowMs st with
  | true =>
      obtain ⟨hst, hev⟩ := visit_over dst hov
      have hopen : (d.visit r nowMs dst st).state.isOpen = true := by
        rw [hst]
      cases ho : st.isOpen with
      | true =>
          rw [ho] at hev
          exact Or.inl ⟨rfl, rfl, hev, hopen⟩
      | false =>
          rw [ho] at hev
          exact Or.inr (Or.inl ⟨rfl, rfl, hev, hopen⟩)
  | false =>
      obtain ⟨hst, hev⟩ := visit_below dst hov
      have hopen : (d.visit r nowMs dst st).state.isOpen = st.isOpen := by
        rw [hst]
        rfl
      cases hc : (st.isOpen && d.heldDown nowMs st) with
      | true =>
          rw [hc] at hev
          exact Or.inr (Or.inr (Or.inl
            ⟨rfl, (Bool.and_eq_true_iff.mp hc).1, hev⟩))
      | false =>
          rw [hc] at hev
          exact Or.inr (Or.inr (Or.inr ⟨rfl, hev, hopen⟩))

/-- The reading names the destination it was asked about. -/
def Names (a : IpAddr → Assess) : Prop :=
  ∀ dst samples first last,
    ((a dst).detect dst samples first last).target = dst

theorem assess_names (rd : Rounding) (ho : IpAddr → HashOrders)
    (d : ThresholdDetector) : Names fun dst => d.assess rd (ho dst) :=
  fun _ _ _ _ => rfl

/-- A visit's event is about the destination visited. -/
theorem visit_target (hn : Names a) {dst : IpAddr} {st : DstState}
    {ev : DetectionEvent}
    (h : (d.visit (a dst) nowMs dst st).event = some ev) :
    ev.target = dst := by
  rcases visit_cases (a dst) nowMs dst d st with
    ⟨-, -, hev, -⟩ | ⟨-, -, hev, -⟩ | ⟨-, -, hev⟩ | ⟨-, hev, -⟩
  · cases hev.symm.trans h
    exact hn dst _ _ _
  · cases hev.symm.trans h
    exact hn dst _ _ _
  · cases hev.symm.trans h
    rfl
  · cases hev.symm.trans h

-- ======================================================= one observation

/-- A destination in a monitored prefix. -/
def monitors (d : ThresholdDetector) (dst : IpAddr) : Bool :=
  d.prefixes.any fun p => p.contains dst

/-- The sample an observation is recorded as, at the clamped rate. -/
def sampleOf (d : ThresholdDetector) (obs : FlowObservation)
    (nowMs : Nat) : Sample :=
  let rate := (d.effectiveRate obs nowMs).1
  { tsMs := nowMs, src := obs.src, dstPort := obs.dstPort
    proto := obs.proto
    estPackets := rate.setWidth 64
    estBytes := rate.setWidth 64 * obs.frameLen.setWidth 64
    agent := obs.agent }

/-- What no call changes: the prefixes, the knobs and the registry. -/
def settings (d : ThresholdDetector) :
    List IpNet × DetectorConfig × AgentRegistry :=
  (d.prefixes,
    { ppsThreshold := d.ppsThreshold, bpsThreshold := d.bpsThreshold
      windowMs := d.windowMs, holdDownMs := d.holdDownMs
      minSamples := d.minSamples
      maxSamplingFactor := d.maxSamplingFactor },
    d.agents)

/-- The detections counted as opened and as cleared. -/
def counts (d : ThresholdDetector) : Nat × Nat :=
  (d.detectionsOpened, d.detectionsCleared)

theorem effectiveRate_frame (obs : FlowObservation) (nowMs : Nat)
    (d : ThresholdDetector) :
    (d.effectiveRate obs nowMs).2.state = d.state
      ∧ (d.effectiveRate obs nowMs).2.settings = d.settings
      ∧ (d.effectiveRate obs nowMs).2.counts = d.counts := by
  unfold effectiveRate
  dsimp only
  repeat' split
  all_goals exact ⟨rfl, rfl, rfl⟩

/-- The clamped rate is a matter of the settings. -/
theorem sampleOf_congr {d' : ThresholdDetector}
    (h : d'.settings = d.settings) (obs : FlowObservation) (nowMs : Nat) :
    d'.sampleOf obs nowMs = d.sampleOf obs nowMs := by
  have hagents : d'.agents = d.agents := congrArg (·.2.2) h
  have hfactor : d'.maxSamplingFactor = d.maxSamplingFactor :=
    congrArg (·.2.1.maxSamplingFactor) h
  have hrate : (d'.effectiveRate obs nowMs).1
      = (d.effectiveRate obs nowMs).1 := by
    unfold effectiveRate
    rw [hagents]
    dsimp only
    rw [hfactor]
    repeat' split
    all_goals rfl
  rw [sampleOf, sampleOf, hrate]

theorem monitors_congr {d' : ThresholdDetector}
    (h : d'.settings = d.settings) (dst : IpAddr) :
    d'.monitors dst = d.monitors dst := by
  rw [monitors, monitors, show d'.prefixes = d.prefixes from congrArg (·.1) h]

theorem windowMs_congr {d' : ThresholdDetector}
    (h : d'.settings = d.settings) : d'.windowMs = d.windowMs :=
  congrArg (·.2.1.windowMs) h

theorem inWindow_congr {d' : ThresholdDetector}
    (h : d'.settings = d.settings) (nowMs : Nat) :
    d'.inWindow nowMs = d.inWindow nowMs := by
  funext s
  rw [inWindow, inWindow, windowMs_congr h]

/-- What an observation does to the entries. -/
inductive Observes (obs : FlowObservation) (nowMs : Nat)
    (d d' : ThresholdDetector) : Prop
  | ignored (hout : d.monitors obs.dst = false)
      (hstate : d'.state = d.state)
  | recorded {samples : Vec Sample} (hin : d.monitors obs.dst = true)
      (hpush : samples.toList
        = ((d.state.lookup obs.dst).getD freshDst).samples.toList
          ++ [d.sampleOf obs nowMs])
      (hstate : d'.state = d.state.insert obs.dst
        { (d.state.lookup obs.dst).getD freshDst with samples })

theorem observe_observes {obs : FlowObservation} {d' : ThresholdDetector}
    (h : d.observe obs nowMs = some d') :
    Observes obs nowMs d d' ∧ d'.settings = d.settings
      ∧ d'.counts = d.counts := by
  obtain ⟨hstate, hsettings, hcounts⟩ := effectiveRate_frame obs nowMs d
  unfold observe at h
  generalize hr : d.effectiveRate obs nowMs = r at h hstate hsettings hcounts
  obtain ⟨rate, d₁⟩ := r
  dsimp only at h hstate hsettings hcounts
  have hin : (d₁.prefixes.any fun p => p.contains obs.dst)
      = d.monitors obs.dst := by
    rw [show d₁.prefixes = d.prefixes from congrArg (·.1) hsettings]
    rfl
  rw [hin] at h
  split at h
  next hmon =>
    obtain ⟨samples, hpush, rfl⟩ := Option.map_eq_some_iff.mp h
    rw [hstate] at hpush ⊢
    refine ⟨.recorded hmon ?_ rfl, hsettings, hcounts⟩
    rw [Vec.toList_push hpush, sampleOf, hr]
  next hmon =>
    cases h
    exact ⟨.ignored (Bool.eq_false_iff.mpr hmon) hstate, hsettings, hcounts⟩

/-- A destination is open when its entry is. -/
def isOpen (d : ThresholdDetector) (dst : IpAddr) : Bool :=
  ((d.state.lookup dst).map (·.isOpen)).getD false

/-- An observation leaves everything but the samples of an entry as it
was; a new entry is as good as none. -/
theorem observe_frame {β : Type} {f : DstState → β}
    (hf : ∀ st samples, f { st with samples } = f st)
    {obs : FlowObservation} {d' : ThresholdDetector}
    (h : d.observe obs nowMs = some d') (dst : IpAddr) :
    f ((d'.state.lookup dst).getD freshDst)
      = f ((d.state.lookup dst).getD freshDst) := by
  cases (observe_observes h).1 with
  | ignored _ hstate => rw [hstate]
  | recorded _ _ hstate =>
      rw [hstate, Dict.lookup_insert_if]
      by_cases hdst : dst = obs.dst
      · rw [if_pos hdst, hdst, Option.getD_some]
        exact hf _ _
      · rw [if_neg hdst]

theorem isOpen_eq_getD (d : ThresholdDetector) (dst : IpAddr) :
    d.isOpen dst = ((d.state.lookup dst).getD freshDst).isOpen := by
  rw [isOpen]
  cases d.state.lookup dst with
  | none => rfl
  | some st => rfl

/-- An observation opens and closes nothing. -/
theorem isOpen_observe {obs : FlowObservation} {d' : ThresholdDetector}
    (h : d.observe obs nowMs = some d') (dst : IpAddr) :
    d'.isOpen dst = d.isOpen dst := by
  rw [isOpen_eq_getD, isOpen_eq_getD]
  exact observe_frame (fun _ _ => rfl) h dst

-- ============================================================== one tick

variable {ord : IterOrder (Sigma fun _ : IpAddr => DstState)}

theorem mem_visits {dst : IpAddr} {v : Visit} :
    (dst, v) ∈ d.visits a ord nowMs
      ↔ ∃ st, d.state.lookup dst = some st
        ∧ v = d.visit (a dst) nowMs dst st := by
  simp only [visits, List.mem_map, Prod.exists, Prod.mk.injEq,
    Dict.mem_pairs]
  constructor
  · rintro ⟨_, st, hlk, rfl, rfl⟩
    exact ⟨st, hlk, rfl⟩
  · rintro ⟨st, hlk, rfl⟩
    exact ⟨dst, st, hlk, rfl, rfl⟩

/-- A tick emits what its visits push. -/
theorem mem_tickWith_events {ev : DetectionEvent} :
    ev ∈ (d.tickWith a ord nowMs).1
      ↔ ∃ dst st, d.state.lookup dst = some st
        ∧ (d.visit (a dst) nowMs dst st).event = some ev := by
  simp only [tickWith, List.mem_filterMap, Prod.exists, mem_visits]
  constructor
  · rintro ⟨dst, v, ⟨st, hlk, rfl⟩, hev⟩
    exact ⟨dst, st, hlk, hev⟩
  · rintro ⟨dst, st, hlk, hev⟩
    exact ⟨dst, _, ⟨st, hlk, rfl⟩, hev⟩

/-- At most one event a destination. -/
theorem tickWith_targets_nodup (hn : Names a) :
    ((d.tickWith a ord nowMs).1.map DetectionEvent.target).Nodup := by
  have hsub : ∀ l : List (IpAddr × DstState),
      (((l.map fun e => (e.1, d.visit (a e.1) nowMs e.1 e.2)).filterMap
        (·.2.event)).map DetectionEvent.target).Sublist
        (l.map Prod.fst) := by
    intro l
    induction l with
    | nil => exact List.Sublist.refl _
    | cons e l ih =>
        rw [List.map_cons, List.map_cons, List.filterMap_cons]
        split
        · exact ih.cons e.1
        next ev hev =>
          rw [List.map_cons, visit_target hn hev]
          exact ih.cons_cons e.1
  exact (Dict.pairs_keys_nodup ord d.state).sublist (hsub _)

/-- The entry of a destination after a tick. -/
theorem lookup_tickWith (dst : IpAddr) :
    (d.tickWith a ord nowMs).2.state.lookup dst
      = (d.state.lookup dst).bind fun st =>
        if (d.visit (a dst) nowMs dst st).clears then none
        else some (d.visit (a dst) nowMs dst st).state := by
  have hrem : dst ∈ ((d.visits a ord nowMs).filter (·.2.clears)).map (·.1)
      ↔ ∃ st, d.state.lookup dst = some st
        ∧ (d.visit (a dst) nowMs dst st).clears = true := by
    simp only [List.mem_map, List.mem_filter, Prod.exists, mem_visits]
    constructor
    · rintro ⟨_, v, ⟨⟨st, hlk, rfl⟩, hc⟩, rfl⟩
      exact ⟨st, hlk, hc⟩
    · rintro ⟨st, hlk, hc⟩
      exact ⟨dst, _, ⟨⟨st, hlk, rfl⟩, hc⟩, rfl⟩
  simp only [tickWith, Dict.lookup_eraseAll, Dict.lookup_mapVals, hrem]
  cases d.state.lookup dst with
  | none => simp
  | some st => simp

/-- What one tick is for one destination: the events about it, and its
entry afterwards. -/
inductive Turn (a : IpAddr → Assess) (nowMs : Nat) (d : ThresholdDetector)
    (dst : IpAddr) : List DetectionEvent → Option DstState → Prop
  | absent (hlk : d.state.lookup dst = none) : Turn a nowMs d dst [] none
  | updated {st : DstState} (hlk : d.state.lookup dst = some st)
      (hover : d.windowOver (a dst) nowMs st = true)
      (hopen : st.isOpen = true) :
      Turn a nowMs d dst
        [.updated ((a dst).detect dst (d.window nowMs st)
          st.firstSeenMs nowMs)]
        (some { d.evicted nowMs st with
          isOpen := true, lastOverMs := nowMs })
  | opened {st : DstState} (hlk : d.state.lookup dst = some st)
      (hover : d.windowOver (a dst) nowMs st = true)
      (hopen : st.isOpen = false) :
      Turn a nowMs d dst
        [.opened ((a dst).detect dst (d.window nowMs st) nowMs nowMs)]
        (some { d.evicted nowMs st with
          isOpen := true, firstSeenMs := nowMs, lastOverMs := nowMs })
  | cleared {st : DstState} (hlk : d.state.lookup dst = some st)
      (hover : d.windowOver (a dst) nowMs st = false)
      (hopen : st.isOpen = true) (hheld : d.heldDown nowMs st = true) :
      Turn a nowMs d dst [.cleared dst nowMs] none
  | quiet {st : DstState} (hlk : d.state.lookup dst = some st)
      (hover : d.windowOver (a dst) nowMs st = false)
      (hhold : st.isOpen = true → d.heldDown nowMs st = false) :
      Turn a nowMs d dst [] (some (d.evicted nowMs st))

/-- The events about a destination are what its visit pushes. -/
theorem events_about (hn : Names a) (dst : IpAddr) :
    (d.tickWith a ord nowMs).1.filter (fun ev => ev.target = dst)
      = ((d.state.lookup dst).bind fun st =>
          (d.visit (a dst) nowMs dst st).event).toList := by
  have hvisit : ∀ ev, ev.target = dst →
      (ev ∈ (d.tickWith a ord nowMs).1
        ↔ ((d.state.lookup dst).bind fun st =>
          (d.visit (a dst) nowMs dst st).event) = some ev) := by
    rintro ev rfl
    rw [mem_tickWith_events, Option.bind_eq_some_iff]
    constructor
    · rintro ⟨dst, st, hlk, hev⟩
      rw [visit_target hn hev]
      exact ⟨st, hlk, hev⟩
    · rintro ⟨st, hlk, hev⟩
      exact ⟨ev.target, st, hlk, hev⟩
  cases hpush : (d.state.lookup dst).bind fun st =>
      (d.visit (a dst) nowMs dst st).event with
  | none =>
      refine List.filter_eq_nil_iff.mpr fun ev hev htgt => ?_
      have htgt := of_decide_eq_true htgt
      rw [hvisit ev htgt, hpush] at hev
      cases hev
  | some ev =>
      obtain ⟨st, -, hev⟩ := Option.bind_eq_some_iff.mp hpush
      have htgt := visit_target hn hev
      rw [← htgt]
      refine filter_key_eq_singleton (tickWith_targets_nodup hn) ?_
      exact (hvisit ev htgt).mpr hpush

/-- A tick takes a turn with every destination. -/
theorem tickWith_turn (hn : Names a) (dst : IpAddr) :
    Turn a nowMs d dst
      ((d.tickWith a ord nowMs).1.filter fun ev => ev.target = dst)
      ((d.tickWith a ord nowMs).2.state.lookup dst) := by
  rw [events_about hn, lookup_tickWith]
  cases hlk : d.state.lookup dst with
  | none => exact .absent hlk
  | some st =>
      rw [Option.bind_some, Option.bind_some]
      cases hover : d.windowOver (a dst) nowMs st with
      | true =>
          obtain ⟨hst, hev⟩ := visit_over dst hover
          rw [Visit.clears, hst, hev]
          cases hopen : st.isOpen with
          | true => exact .updated hlk hover hopen
          | false => exact .opened hlk hover hopen
      | false =>
          obtain ⟨hst, hev⟩ := visit_below dst hover
          rw [Visit.clears, hst, hev]
          cases hc : (st.isOpen && d.heldDown nowMs st) with
          | true =>
              obtain ⟨hopen, hheld⟩ := Bool.and_eq_true_iff.mp hc
              exact .cleared hlk hover hopen hheld
          | false =>
              refine .quiet hlk hover fun hopen => ?_
              rw [hopen, Bool.true_and] at hc
              exact hc

/-- A destination is over the threshold when its window is. -/
def isOver (a : IpAddr → Assess) (nowMs : Nat) (d : ThresholdDetector)
    (dst : IpAddr) : Bool :=
  ((d.state.lookup dst).map (d.windowOver (a dst) nowMs)).getD false

theorem isOver_eq {dst : IpAddr} {st : DstState}
    (h : d.state.lookup dst = some st) :
    d.isOver a nowMs dst = d.windowOver (a dst) nowMs st := by
  rw [isOver, h]
  rfl

theorem isOpen_eq {dst : IpAddr} {st : DstState}
    (h : d.state.lookup dst = some st) : d.isOpen dst = st.isOpen := by
  rw [isOpen, h]
  rfl

theorem isOpen_absent {dst : IpAddr} (h : d.state.lookup dst = none) :
    d.isOpen dst = false := by
  rw [isOpen, h]
  rfl

/-- The lifecycle of one destination over a tick: its event, with what
was known of it before, and whether it is open afterwards. -/
theorem tickWith_cases (hn : Names a) (dst : IpAddr) :
    ((∃ det, DetectionEvent.updated det ∈ (d.tickWith a ord nowMs).1
          ∧ det.target = dst)
        ∧ d.isOpen dst = true ∧ d.isOver a nowMs dst = true
        ∧ (d.tickWith a ord nowMs).2.isOpen dst = true)
      ∨ ((∃ det, DetectionEvent.opened det ∈ (d.tickWith a ord nowMs).1
          ∧ det.target = dst)
        ∧ d.isOpen dst = false
        ∧ (d.tickWith a ord nowMs).2.isOpen dst = true)
      ∨ (DetectionEvent.cleared dst nowMs ∈ (d.tickWith a ord nowMs).1
        ∧ (d.tickWith a ord nowMs).2.isOpen dst = false)
      ∨ ((∀ ev ∈ (d.tickWith a ord nowMs).1, ev.target ≠ dst)
        ∧ (d.tickWith a ord nowMs).2.isOpen dst = d.isOpen dst) := by
  have hmem : ∀ ev, ev ∈ (d.tickWith a ord nowMs).1 ∧ ev.target = dst
      ↔ ev ∈ (d.tickWith a ord nowMs).1.filter
        fun ev => ev.target = dst := fun ev => by
    rw [List.mem_filter, decide_eq_true_iff]
  generalize hevs : ((d.tickWith a ord nowMs).1.filter
    fun ev => ev.target = dst) = evs at hmem
  generalize hafter : (d.tickWith a ord nowMs).2.state.lookup dst = after
  have hturn : Turn a nowMs d dst evs after :=
    hevs ▸ hafter ▸ tickWith_turn hn dst
  cases hturn with
  | absent hlk =>
      refine Or.inr (Or.inr (Or.inr ⟨fun ev hev htgt => ?_, ?_⟩))
      · exact absurd ((hmem ev).mp ⟨hev, htgt⟩) List.not_mem_nil
      · rw [isOpen_absent hafter, isOpen_absent hlk]
  | updated hlk hover hopen =>
      exact Or.inl ⟨⟨_, (hmem _).mpr List.mem_cons_self⟩,
        (isOpen_eq hlk).trans hopen, (isOver_eq hlk).trans hover,
        isOpen_eq hafter⟩
  | opened hlk hover hopen =>
      exact Or.inr (Or.inl ⟨⟨_, (hmem _).mpr List.mem_cons_self⟩,
        (isOpen_eq hlk).trans hopen, isOpen_eq hafter⟩)
  | cleared =>
      exact Or.inr (Or.inr (Or.inl
        ⟨((hmem _).mpr List.mem_cons_self).1, isOpen_absent hafter⟩))
  | quiet hlk =>
      refine Or.inr (Or.inr (Or.inr ⟨fun ev hev htgt => ?_, ?_⟩))
      · exact absurd ((hmem ev).mp ⟨hev, htgt⟩) List.not_mem_nil
      · exact (isOpen_eq hafter).trans (isOpen_eq hlk).symm

/-- An `Updated` is about a destination that was open and is over the
threshold. -/
theorem isOpen_of_updated (hn : Names a) {det : Detection}
    (h : DetectionEvent.updated det ∈ (d.tickWith a ord nowMs).1) :
    d.isOpen det.target = true ∧ d.isOver a nowMs det.target = true := by
  obtain ⟨dst, st, hlk, hev⟩ := mem_tickWith_events.mp h
  have htgt : det.target = dst := visit_target hn hev
  rw [htgt, isOpen, isOver, hlk]
  rcases visit_cases (a dst) nowMs dst d st with
    ⟨hov, ho, -, -⟩ | ⟨-, -, hev', -⟩ | ⟨-, -, hev'⟩ | ⟨-, hev', -⟩
  · exact ⟨ho, hov⟩
  · cases hev'.symm.trans hev
  · cases hev'.symm.trans hev
  · cases hev'.symm.trans hev

/-- A detection in an event of a tick was built from the window of its
target. -/
theorem detection_of_event (hn : Names a) {det : Detection}
    (h : DetectionEvent.opened det ∈ (d.tickWith a ord nowMs).1
      ∨ DetectionEvent.updated det ∈ (d.tickWith a ord nowMs).1) :
    ∃ st first, d.state.lookup det.target = some st
      ∧ det = (a det.target).detect det.target (d.window nowMs st)
        first nowMs := by
  -- whichever event it is, it is the one pushed by the target's visit
  have hvisit : ∃ dst st ev, d.state.lookup dst = some st
      ∧ (d.visit (a dst) nowMs dst st).event = some ev
      ∧ (ev = .opened det ∨ ev = .updated det) := by
    rcases h with h | h
    · obtain ⟨dst, st, hlk, hev⟩ := mem_tickWith_events.mp h
      exact ⟨dst, st, _, hlk, hev, Or.inl rfl⟩
    · obtain ⟨dst, st, hlk, hev⟩ := mem_tickWith_events.mp h
      exact ⟨dst, st, _, hlk, hev, Or.inr rfl⟩
  obtain ⟨dst, st, ev, hlk, hev, hdet⟩ := hvisit
  have htgt : det.target = dst := by
    rw [← visit_target hn hev]
    rcases hdet with rfl | rfl <;> rfl
  rw [htgt]
  rcases visit_cases (a dst) nowMs dst d st with
    ⟨-, -, hev', -⟩ | ⟨-, -, hev', -⟩ | ⟨-, -, hev'⟩ | ⟨-, hev', -⟩
  · refine ⟨st, st.firstSeenMs, hlk, ?_⟩
    rw [hev, Option.some.injEq] at hev'
    rcases hdet with rfl | rfl
    · cases hev'
    · exact DetectionEvent.updated.inj hev'
  · refine ⟨st, nowMs, hlk, ?_⟩
    rw [hev, Option.some.injEq] at hev'
    rcases hdet with rfl | rfl
    · exact DetectionEvent.opened.inj hev'
    · cases hev'
  · rw [hev, Option.some.injEq] at hev'
    rcases hdet with rfl | rfl <;> cases hev'
  · rw [hev] at hev'
    cases hev'

-- ===================================================== a sample detector

/-- Every IPv4 destination, an attack above 100 packets per second over
one second, no hold-down: the concrete runs use it. -/
def sample : ThresholdDetector :=
  new [.v4 (.any 32)]
    { ppsThreshold := 100, bpsThreshold := 1000000000, windowMs := 1000
      holdDownMs := 0, minSamples := 1, maxSamplingFactor := 4 }
    (.fromEntries [])

/-- A UDP packet to a documentation address, by its port and sampling
rate. -/
def sampleObs (port : BitVec 16) (rate : BitVec 32) : FlowObservation :=
  { src := .v4 0xCB007105, dst := .v4 0xC6336407, proto := 17
    srcPort := 4000, dstPort := port, frameLen := 100, samplingRate := rate
    tcpFlags := 0, agent := .v4 0x0A000001 }

end Blackwall.Flow.ThresholdDetector
