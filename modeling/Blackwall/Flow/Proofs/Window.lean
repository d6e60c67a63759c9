/-
What the detector remembers of a destination.

An entry begins with the first observation after a destination was last
cleared, and only another `Cleared` ends it. In between, its window at any
later time is the window of exactly these observations (`Remembers`): an
eviction drops nothing that a later tick would ask for.

So a tick sees everything within the window unless a `Cleared` has thrown
some of it away or the end of a window is past the clock
(`sees_window_iff`), and it keeps an entry without samples for every
destination that was observed, not reported and not seen again
(`no_idle_entry_iff`).
-/
import Blackwall.Flow.Watch

namespace Blackwall.Flow

open Base

-- ============================================================= the record

section Record

variable {d d' : ThresholdDetector} {dst : IpAddr} {trace : List Record}

theorem history_append (d : ThresholdDetector) (dst : IpAddr)
    (xs ys : List Record) :
    history d dst (xs ++ ys) = history d dst xs ++ history d dst ys :=
  List.filterMap_append

theorem history_congr (h : d'.settings = d.settings) (dst : IpAddr)
    (trace : List Record) : history d' dst trace = history d dst trace := by
  refine List.filterMap_congr fun e _ => ?_
  cases e with
  | observed obs nowMs =>
      rw [Record.sample, Record.sample, ThresholdDetector.sampleOf_congr h]
  | ticked nowMs above events => rfl

theorem observed_of_mem_history {s : Sample}
    (h : s ∈ history d dst trace) :
    ∃ obs, Record.observed obs s.tsMs ∈ trace := by
  obtain ⟨e, he, hs⟩ := List.mem_filterMap.mp h
  cases e with
  | observed obs nowMs =>
      rw [Record.sample] at hs
      split at hs
      · cases hs
        exact ⟨obs, he⟩
      · cases hs
  | ticked nowMs above events => cases hs

theorem upToCleared_append_sinceCleared (dst : IpAddr)
    (trace : List Record) :
    upToCleared dst trace ++ sinceCleared dst trace = trace := by
  rw [upToCleared, sinceCleared, List.rdropWhile, List.rtakeWhile,
    ← List.reverse_append, List.takeWhile_append_dropWhile,
    List.reverse_reverse]

/-- A line that does not clear the destination is one more since then. -/
theorem sinceCleared_snoc {e : Record} (h : e.clears dst = false) :
    sinceCleared dst (trace ++ [e]) = sinceCleared dst trace ++ [e] :=
  List.rtakeWhile_concat_pos _ _ _ (by rw [h]; rfl)

theorem sinceCleared_clears {e : Record} (h : e.clears dst = true) :
    sinceCleared dst (trace ++ [e]) = [] :=
  List.rtakeWhile_concat_neg _ _ _ (by rw [h]; exact Bool.false_ne_true)

/-- Whether a tick clears a destination is said by the events about it. -/
theorem clears_ticked (nowMs : Nat) (above : IpAddr → Bool)
    (events : List DetectionEvent) :
    (Record.ticked nowMs above events).clears dst
      = (events.filter fun ev => ev.target = dst).any
        fun ev => decide (ev.kind = .cleared) := by
  rw [Record.clears, List.any_filter]
  exact congrArg _ (funext fun ev => Bool.and_comm _ _)

end Record

-- ============================================================ one window

namespace ThresholdDetector

variable {d : ThresholdDetector} {dst : IpAddr} {nowMs later : Nat}

/-- What is in the window at a time has been in it before. -/
theorem inWindow_earlier (h : nowMs ≤ later) {s : Sample}
    (hs : d.inWindow later s = true) : d.inWindow nowMs s = true :=
  decide_eq_true (Nat.lt_of_le_of_lt h (of_decide_eq_true hs))

/-- An eviction leaves the later windows alone. -/
theorem window_evicted (h : nowMs ≤ later) (st : DstState) :
    d.window later (d.evicted nowMs st) = d.window later st := by
  show (st.samples.toList.filter _).filter _ = st.samples.toList.filter _
  rw [List.filter_filter]
  refine List.filter_congr fun s _ => ?_
  cases hs : d.inWindow later s with
  | true => exact inWindow_earlier h hs
  | false => rfl

theorem windowOf_eq {st : DstState} (h : d.state.lookup dst = some st) :
    d.windowOf nowMs dst = d.window nowMs st := by
  rw [windowOf, h]
  rfl

theorem windowOf_absent (h : d.state.lookup dst = none) :
    d.windowOf nowMs dst = [] := by
  rw [windowOf, h]
  rfl

-- ======================================================== one destination

/-- The entry of a destination, by the samples recorded for it. -/
structure Recalls (d₀ : ThresholdDetector) (last : Nat)
    (d : ThresholdDetector) (dst : IpAddr) (samples : List Sample) :
    Prop where
  entry : (d.state.lookup dst).isSome ↔
    d₀.monitors dst = true ∧ samples ≠ []
  window : ∀ nowMs, d₀.monitors dst = true → last ≤ nowMs →
    d.windowOf nowMs dst = samples.filter (d₀.inWindow nowMs)

variable {d₀ d' : ThresholdDetector} {last : Nat} {samples : List Sample}

theorem Recalls.same (h : Recalls d₀ last d dst samples)
    (hset : d.settings = d₀.settings) (hset' : d'.settings = d₀.settings)
    (hlk : d'.state.lookup dst = d.state.lookup dst) :
    Recalls d₀ last d' dst samples where
  entry := by rw [hlk, h.entry]
  window later hmon hlater := by
    have heq : d'.windowOf later dst = d.windowOf later dst := by
      have hin := inWindow_congr (hset'.trans hset.symm) later
      rw [windowOf, windowOf, hlk]
      unfold ThresholdDetector.window
      rw [hin]
    rw [heq, h.window later hmon hlater]

theorem Recalls.pushed (h : Recalls d₀ last d dst samples)
    (hset : d.settings = d₀.settings) (hset' : d'.settings = d₀.settings)
    (hmon : d₀.monitors dst = true) {st : DstState} {s : Sample}
    (hlk : d'.state.lookup dst = some st)
    (hst : st.samples.toList
      = ((d.state.lookup dst).getD freshDst).samples.toList ++ [s]) :
    Recalls d₀ last d' dst (samples ++ [s]) where
  entry := by simp [hlk, hmon]
  window later _ hlater := by
    have hbefore : ((d.state.lookup dst).getD freshDst).samples.toList.filter
        (d₀.inWindow later) = d.windowOf later dst := by
      rw [windowOf, ← inWindow_congr hset later]
      cases d.state.lookup dst with
      | none => rfl
      | some st => rfl
    rw [windowOf_eq hlk]
    show st.samples.toList.filter _ = _
    rw [inWindow_congr hset' later, hst, List.filter_append, hbefore,
      h.window later hmon hlater, List.filter_append]

theorem Recalls.evicted (h : Recalls d₀ nowMs d dst samples)
    (hset : d.settings = d₀.settings) (hset' : d'.settings = d₀.settings)
    {st st' : DstState} (hlk : d.state.lookup dst = some st)
    (hlk' : d'.state.lookup dst = some st')
    (hst : st'.samples = (d.evicted nowMs st).samples) :
    Recalls d₀ nowMs d' dst samples where
  entry := by rw [← h.entry, hlk, hlk']; rfl
  window later hmon hlater := by
    rw [← h.window later hmon hlater, windowOf_eq hlk, windowOf_eq hlk',
      ← window_evicted hlater st]
    unfold ThresholdDetector.window
    rw [hst, inWindow_congr (hset'.trans hset.symm) later]

theorem Recalls.cleared (hlk : d'.state.lookup dst = none) :
    Recalls d₀ nowMs d' dst [] where
  entry := by simp [hlk]
  window later _ _ := windowOf_absent hlk

theorem Recalls.turn {a : IpAddr → Assess} {evs : List DetectionEvent}
    (h : Recalls d₀ nowMs d dst samples)
    (hset : d.settings = d₀.settings) (hset' : d'.settings = d₀.settings)
    (ht : Turn a nowMs d dst evs (d'.state.lookup dst)) :
    Recalls d₀ nowMs d' dst
      (if evs.any fun ev => decide (ev.kind = .cleared) then []
        else samples) := by
  generalize hafter : d'.state.lookup dst = after at ht
  cases ht with
  | absent hlk => exact h.same hset hset' (hafter.trans hlk.symm)
  | updated hlk => exact h.evicted hset hset' hlk hafter rfl
  | opened hlk => exact h.evicted hset hset' hlk hafter rfl
  | cleared => exact .cleared hafter
  | quiet hlk => exact h.evicted hset hset' hlk hafter rfl

end ThresholdDetector

-- ============================================================== whole runs

namespace Watched

open ThresholdDetector

/-- The entries of the detector, by the record of its calls. -/
structure Remembers (d₀ : ThresholdDetector) (last : Nat) (w : Watched) :
    Prop where
  settings : w.det.settings = d₀.settings
  recalls : ∀ dst, Recalls d₀ last w.det dst
    (history d₀ dst (sinceCleared dst w.trace))
  past : ∀ obs nowMs, Record.observed obs nowMs ∈ w.trace → nowMs ≤ last

variable {d₀ : ThresholdDetector} {w : Watched} {last nowMs : Nat}

theorem Remembers.later (h : w.Remembers d₀ last) (hle : last ≤ nowMs) :
    w.Remembers d₀ nowMs where
  settings := h.settings
  recalls dst :=
    { entry := (h.recalls dst).entry
      window := fun later hmon hlater =>
        (h.recalls dst).window later hmon (hle.trans hlater) }
  past obs t ht := (h.past obs t ht).trans hle

theorem Remembers.observe (h : w.Remembers d₀ nowMs)
    {obs : FlowObservation} {det : ThresholdDetector}
    (hobs : w.det.observe obs nowMs = some det) :
    Remembers d₀ nowMs ⟨det, w.trace ++ [.observed obs nowMs]⟩ := by
  obtain ⟨hcase, hset, -⟩ := observe_observes hobs
  have hset' : det.settings = d₀.settings := hset.trans h.settings
  refine ⟨hset', fun dst => ?_, fun obs' t ht => ?_⟩
  · have hsame := (h.recalls dst).same h.settings hset'
    have hsample : history d₀ dst [.observed obs nowMs]
        = if obs.dst = dst then [d₀.sampleOf obs nowMs] else [] := by
      by_cases hdst : obs.dst = dst
      · simp [history, Record.sample, hdst]
      · simp [history, Record.sample, hdst]
    show Recalls _ _ _ _ (history d₀ dst (sinceCleared dst (w.trace ++ _)))
    rw [sinceCleared_snoc rfl, history_append, hsample]
    by_cases hdst : obs.dst = dst
    · subst hdst
      rw [if_pos rfl]
      cases hcase with
      | ignored hout hstate =>
          -- an unmonitored destination has no entry, whatever is observed
          have hmon : d₀.monitors obs.dst = false :=
            (monitors_congr h.settings _).symm.trans hout
          refine ⟨?_, fun _ hmon' => ?_⟩
          · rw [(hsame (by rw [hstate])).entry, hmon]
            simp
          · rw [hmon] at hmon'
            cases hmon'
      | @recorded samples hin hpush hstate =>
          have hmon : d₀.monitors obs.dst = true :=
            (monitors_congr h.settings _).symm.trans hin
          have hlk := AList.lookup_insert (a := obs.dst) (b :=
            { (w.det.state.lookup obs.dst).getD freshDst with samples })
            w.det.state
          rw [← hstate] at hlk
          rw [sampleOf_congr h.settings] at hpush
          exact (h.recalls obs.dst).pushed h.settings hset' hmon hlk hpush
    · rw [if_neg hdst, List.append_nil]
      refine hsame ?_
      cases hcase with
      | ignored _ hstate => rw [hstate]
      | recorded _ _ hstate =>
          rw [hstate, AList.lookup_insert_ne (Ne.symm hdst)]
  · rcases List.mem_append.mp ht with ht | ht
    · exact h.past obs' t ht
    · cases List.mem_singleton.mp ht
      exact Nat.le_refl _

theorem Remembers.tick (h : w.Remembers d₀ nowMs) {a : IpAddr → Assess}
    (hn : Names a) (above : IpAddr → Bool)
    (ord : IterOrder (Sigma fun _ : IpAddr => DstState)) :
    Remembers d₀ nowMs ⟨(w.det.tickWith a ord nowMs).2,
      w.trace ++ [.ticked nowMs above (w.det.tickWith a ord nowMs).1]⟩ := by
  have hset' : (w.det.tickWith a ord nowMs).2.settings = d₀.settings :=
    h.settings
  refine ⟨hset', fun dst => ?_, fun obs t ht => ?_⟩
  · have hnext := (h.recalls dst).turn h.settings hset'
      (tickWith_turn hn dst)
    rw [← clears_ticked nowMs above] at hnext
    show Recalls _ _ _ _ (history d₀ dst (sinceCleared dst (w.trace ++ _)))
    split at hnext
    next hc =>
      rw [sinceCleared_clears hc]
      exact hnext
    next hc =>
      rw [sinceCleared_snoc (Bool.eq_false_iff.mpr hc), history_append,
        show history d₀ dst [.ticked nowMs above _] = [] from rfl,
        List.append_nil]
      exact hnext
  · rcases List.mem_append.mp ht with ht | ht
    · exact h.past obs t ht
    · cases List.mem_singleton.mp ht

/-- A run in the order of time, seen from a time that is not earlier. -/
theorem remembers_run (rd : Rounding) (test : RateTest)
    (prefixes : List IpNet) (config : DetectorConfig)
    (agents : AgentRegistry) (ms : List Move) {nowMs : Nat}
    (hmono : (ms.map Move.nowMs ++ [nowMs]).Pairwise (· ≤ ·)) :
    (run (step rd test) (start prefixes config agents) ms).Remembers
      (.new prefixes config agents) nowMs := by
  obtain ⟨hms, -, hnow⟩ := List.pairwise_append.mp hmono
  have hrun : (run (step rd test) (start prefixes config agents)
      ms).Remembers (.new prefixes config agents)
        ((ms.map Move.nowMs).getLastD 0) := by
    refine run_keeps rd test (fun w last nowMs hle h => h.later hle)
      (fun w nowMs obs det hobs h => h.observe hobs)
      (fun w nowMs a ord ha h => h.tick ha.names _ ord) ms hms
      ⟨rfl, fun dst => .cleared rfl, fun obs t ht => ?_⟩
    cases ht
  refine hrun.later ?_
  have hlast : (ms.map Move.nowMs).getLastD 0 ∈ 0 :: ms.map Move.nowMs :=
    List.getLastD_mem_cons
  rcases List.mem_cons.mp hlast with hzero | hmem
  · exact (Nat.le_of_eq hzero).trans (Nat.zero_le _)
  · exact hnow _ hmem _ List.mem_cons_self

/-- An entry is there for what was observed since the last `Cleared`. -/
theorem Remembers.entry (h : w.Remembers d₀ nowMs) (dst : IpAddr) :
    (w.det.state.lookup dst).isSome
      ↔ w.det.monitors dst = true
        ∧ history w.det dst (sinceCleared dst w.trace) ≠ [] := by
  rw [monitors_congr h.settings dst, history_congr h.settings]
  exact (h.recalls dst).entry

/-- And a tick finds what is in the window of it. -/
theorem Remembers.window (h : w.Remembers d₀ nowMs) {dst : IpAddr}
    (hmon : w.det.monitors dst = true) :
    w.det.windowOf nowMs dst
      = (history w.det dst (sinceCleared dst w.trace)).filter
        (w.det.inWindow nowMs) := by
  rw [monitors_congr h.settings dst] at hmon
  rw [history_congr h.settings, inWindow_congr h.settings nowMs]
  exact (h.recalls dst).window nowMs hmon (Nat.le_refl _)

end Watched

-- ========================================================= what is seen

/-- Some of a selection of one list is as much as another selection of two
lists. -/
theorem filter_perm_append_iff {α : Type} {p q : α → Bool}
    (hpq : ∀ x, p x = true → q x = true) (xs ys : List α) :
    (ys.filter p).Perm ((xs ++ ys).filter q)
      ↔ (∀ x ∈ xs, q x = false) ∧ ∀ y ∈ ys, q y = true → p y = true := by
  rw [List.filter_append]
  have hsub : (ys.filter p).Sublist (ys.filter q) :=
    List.monotone_filter_right ys hpq
  constructor
  · intro hperm
    have hlen := hperm.length_eq
    rw [List.length_append] at hlen
    have hle := hsub.length_le
    have hnil : xs.filter q = [] := List.length_eq_zero_iff.mp (by omega)
    have heq : ys.filter p = ys.filter q :=
      hsub.eq_of_length (by rw [hlen, hnil, List.length_nil, Nat.zero_add])
    refine ⟨fun x hx => ?_, fun y hy hq => ?_⟩
    · exact Bool.eq_false_iff.mpr (List.filter_eq_nil_iff.mp hnil x hx)
    · exact (List.mem_filter.mp (heq ▸ List.mem_filter.mpr ⟨hy, hq⟩)).2
  · rintro ⟨hxs, hys⟩
    have hnil : xs.filter q = [] := List.filter_eq_nil_iff.mpr fun x hx =>
      Bool.eq_false_iff.mp (hxs x hx)
    have heq : ys.filter p = ys.filter q := List.filter_congr fun y hy =>
      Bool.eq_iff_iff.mpr ⟨hpq y, hys y hy⟩
    rw [hnil, heq]
    exact List.Perm.refl _

/-- In the order of time, a tick aggregates exactly the observations
within the window if and only if none of them was made before its
destination was last cleared and none of their windows ends past the
clock. -/
theorem sees_window_iff (rd : Rounding) (test : RateTest)
    (prefixes : List IpNet) (config : DetectorConfig)
    (agents : AgentRegistry) (hwindow : config.windowMs < 2 ^ 64)
    (ms : List Move) (nowMs : BitVec 64)
    (hmono : (ms.map Move.nowMs ++ [nowMs.toNat]).Pairwise (· ≤ ·)) :
    let w := run (Watched.step rd test)
      (.start prefixes config agents) ms
    SeesWindow nowMs.toNat w ↔ WindowSurvives nowMs.toNat w := by
  intro w
  have h : w.Remembers (.new prefixes config agents) nowMs.toNat :=
    Watched.remembers_run rd test prefixes config agents ms hmono
  have hnow := nowMs.isLt
  have hwin : w.det.windowMs = config.windowMs :=
    ThresholdDetector.windowMs_congr h.settings
  refine forall_congr' fun dst => imp_congr_right fun hmon => ?_
  have hsplit : history w.det dst w.trace
      = history w.det dst (upToCleared dst w.trace)
        ++ history w.det dst (sinceCleared dst w.trace) := by
    rw [← history_append, upToCleared_append_sinceCleared]
  rw [h.window hmon, hsplit, filter_perm_append_iff fun s => ?_]
  · refine and_congr ?_ (forall₂_congr fun s hs => ?_)
    · simp only [decide_eq_false_iff_not, Nat.not_lt]
    · -- an end of a window past the clock wraps to before its sample
      obtain ⟨obs, hobs⟩ := observed_of_mem_history hs
      have hpast : s.tsMs ≤ nowMs.toNat :=
        h.past obs s.tsMs ((List.rtakeWhile_suffix _ _).subset hobs)
      rw [ThresholdDetector.inWindow, decide_eq_true_iff,
        decide_eq_true_iff, hwin]
      refine imp_congr_right fun hlt => ?_
      omega
  · rw [ThresholdDetector.inWindow, decide_eq_true_iff,
      decide_eq_true_iff]
    exact fun hlt => Nat.lt_of_lt_of_le hlt (Nat.mod_le _ _)

/-- A flood, what trickles in after it, and a second rise. -/
def afterFlood : List Move :=
  [.observe (ThresholdDetector.sampleObs 53 200) 0,
    .tick (fun _ => .stored) (.stored _) 0,
    .observe (ThresholdDetector.sampleObs 53 10) 500,
    .tick (fun _ => .stored) (.stored _) 1200,
    .observe (ThresholdDetector.sampleObs 53 95) 1250]

/-- The detector of the concrete runs. -/
def sampleWatch (ms : List Move) : Watched :=
  run (Watched.step exact (thresholdTest exact))
    ⟨ThresholdDetector.sample, []⟩ ms

/-- A flood of 200 packets a second is reported, and a trickle is all that
is left of it when it is cleared. The trickle is thrown away with the
detection, so that the next 95 packets are below the threshold of 100
although 105 were sampled within the second. -/
theorem cleared_drops_window :
    ¬ SeesWindow 1300 (sampleWatch afterFlood)
      ∧ totalPackets ((sampleWatch afterFlood).det.windowOf 1300
          (.v4 0xC6336407)) = 95
      ∧ totalPackets ((history ThresholdDetector.sample (.v4 0xC6336407)
          (sampleWatch afterFlood).trace).filter
            fun s => decide (1300 < s.tsMs + 1000)) = 105 := by
  refine ⟨fun h => ?_, by decide +kernel, by decide +kernel⟩
  have hlen := (h (.v4 0xC6336407) (by decide +kernel)).length_eq
  revert hlen
  decide +kernel

theorem sees_window_iff_flood :
    (afterFlood.map Move.nowMs ++ [1300]).Pairwise (· ≤ ·)
      ∧ (SeesWindow 1300 (sampleWatch afterFlood)
        ↔ WindowSurvives 1300 (sampleWatch afterFlood)) :=
  ⟨by decide, sees_window_iff exact (thresholdTest exact) _ _ _ (by decide)
    afterFlood 1300 (by decide)⟩

-- ========================================================= what is kept

namespace ThresholdDetector

variable {d : ThresholdDetector} {dst : IpAddr} {nowMs : Nat}

theorem windowOver_empty {r : Assess} {st : DstState}
    (h : d.window nowMs st = []) : d.windowOver r nowMs st = false := by
  rw [windowOver, h]
  rfl

/-- The entry that a tick leaves of one destination is idle exactly when
the destination was. -/
theorem Turn.idle_iff {a : IpAddr → Assess} {evs : List DetectionEvent}
    {after : Option DstState} (ht : Turn a nowMs d dst evs after) :
    (∃ st ∈ after, st.isOpen = false ∧ st.samples.toList = [])
      ↔ (d.state.lookup dst).isSome ∧ d.isOpen dst = false
        ∧ d.windowOf nowMs dst = [] := by
  cases ht with
  | absent hlk => simp [hlk]
  | updated hlk hover hopen => simp [isOpen_eq hlk, hopen]
  | @opened st hlk hover hopen =>
      have hne : d.window nowMs st ≠ [] := fun hnil => by
        rw [windowOver_empty hnil] at hover
        cases hover
      simp [windowOf_eq hlk, hne]
  | cleared hlk hover hopen hheld => simp [isOpen_eq hlk, hopen]
  | quiet hlk hover hhold =>
      simp only [Option.mem_def, Option.some.injEq, exists_eq_left', hlk,
        Option.isSome_some, true_and, isOpen_eq hlk, windowOf_eq hlk]
      rfl

/-- It has no samples but those within the window. -/
theorem Turn.fresh {a : IpAddr → Assess} {evs : List DetectionEvent}
    {after : Option DstState} (ht : Turn a nowMs d dst evs after)
    {st : DstState} (hst : st ∈ after) {s : Sample}
    (hs : s ∈ st.samples.toList) : nowMs < s.tsMs + d.windowMs := by
  have hin : d.inWindow nowMs s = true := by
    cases ht with
    | absent => cases hst
    | updated => cases hst; exact (List.mem_filter.mp hs).2
    | opened => cases hst; exact (List.mem_filter.mp hs).2
    | cleared => cases hst
    | quiet => cases hst; exact (List.mem_filter.mp hs).2
  exact Nat.lt_of_lt_of_le (of_decide_eq_true hin) (Nat.mod_le _ _)

end ThresholdDetector

/-- After a tick, in the order of time, every entry is open or has a
sample within the window if and only if every destination observed since
it was last cleared was open or had such an observation. -/
theorem no_idle_entry_iff (rd : Rounding) (test : RateTest)
    (prefixes : List IpNet) (config : DetectorConfig)
    (agents : AgentRegistry) (ms : List Move)
    (orders : IpAddr → HashOrders)
    (visitOrder : IterOrder (Sigma fun _ : IpAddr => DstState))
    (nowMs : BitVec 64)
    (hmono : (ms.map Move.nowMs ++ [nowMs.toNat]).Pairwise (· ≤ ·)) :
    let w := run (Watched.step rd test)
      (.start prefixes config agents) ms
    NoIdleEntry nowMs.toNat
        (w.step rd test (.tick orders visitOrder nowMs)).det
      ↔ NoIdleHistory nowMs.toNat w := by
  intro w
  have h : w.Remembers (.new prefixes config agents) nowMs.toNat :=
    Watched.remembers_run rd test prefixes config agents ms hmono
  refine forall_congr' fun dst => ?_
  have ht : ThresholdDetector.Turn (Watched.reading rd test orders w.det)
      nowMs.toNat w.det dst _ ((w.step rd test
        (.tick orders visitOrder nowMs)).det.state.lookup dst) :=
    ThresholdDetector.tickWith_turn
      (Watched.reading_faithful rd test orders w.det).names dst
  constructor
  · intro hkept hmon hne
    by_contra hidle
    obtain ⟨hclosed, hout⟩ := not_or.mp hidle
    have hempty : w.det.windowOf nowMs.toNat dst = [] := by
      rw [h.window hmon]
      exact List.filter_eq_nil_iff.mpr fun s hs hin => hout ⟨s, hs, hin⟩
    obtain ⟨st, hst, hst', hnil⟩ := ht.idle_iff.mpr
      ⟨(h.entry dst).mpr ⟨hmon, hne⟩, Bool.eq_false_iff.mpr hclosed, hempty⟩
    rcases hkept st hst with hopen | ⟨s, hs, -⟩
    · rw [hst'] at hopen
      cases hopen
    · rw [hnil] at hs
      cases hs
  · intro hhist st hst
    by_contra hidle
    obtain ⟨hclosed, hout⟩ := not_or.mp hidle
    have hnil : st.samples.toList = [] :=
      List.eq_nil_iff_forall_not_mem.mpr fun s hs =>
        hout ⟨s, hs, ht.fresh hst hs⟩
    obtain ⟨hsome, hopen, hempty⟩ := ht.idle_iff.mp
      ⟨st, hst, Bool.eq_false_iff.mpr hclosed, hnil⟩
    obtain ⟨hmon, hne⟩ := (h.entry dst).mp hsome
    rcases hhist hmon hne with hopen' | ⟨s, hs, hin⟩
    · rw [hopen] at hopen'
      cases hopen'
    · rw [h.window hmon] at hempty
      exact List.filter_eq_nil_iff.mp hempty s hs hin

/-- One packet to a monitored address that is never seen again. -/
def onePacket : List Move := [.observe (ThresholdDetector.sampleObs 53 1) 0]

/-- It is kept at a tick after its window, and at every tick after that:
nothing but a `Cleared` removes an entry, and a destination that is not
open gets none. -/
theorem idle_entry_kept :
    ¬ NoIdleEntry 2000 (Watched.step exact (thresholdTest exact)
      (.tick (fun _ => .stored) (.stored _) 2000)
        (sampleWatch onePacket)).det := by
  intro h
  have hentry : ((Watched.step exact (thresholdTest exact)
      (.tick (fun _ => .stored) (.stored _) 2000)
        (sampleWatch onePacket)).det.state.lookup (.v4 0xC6336407)).map
          (fun st => (st.isOpen, st.samples.toList))
      = some (false, []) := by decide +kernel
  obtain ⟨st, hst, heq⟩ := Option.map_eq_some_iff.mp hentry
  rw [Prod.mk.injEq] at heq
  rcases h _ st hst with hopen | ⟨s, hs, -⟩
  · rw [heq.1] at hopen
    cases hopen
  · rw [heq.2] at hs
    cases hs

theorem no_idle_entry_iff_packet :
    (onePacket.map Move.nowMs ++ [2000]).Pairwise (· ≤ ·)
      ∧ (NoIdleEntry 2000 (Watched.step exact (thresholdTest exact)
          (.tick (fun _ => .stored) (.stored _) 2000)
            (sampleWatch onePacket)).det
        ↔ NoIdleHistory 2000 (sampleWatch onePacket)) :=
  ⟨by decide, no_idle_entry_iff exact (thresholdTest exact) _ _ _ onePacket
    (fun _ => .stored) (.stored _) 2000 (by decide)⟩

end Blackwall.Flow
