/-
The life of a detection.

The events about one destination are a walk between closed and open
(`Lives`): `Opened` is reported only of a closed destination, `Updated`
and `Cleared` only of an open one, and while it is open the walk knows
when that began. A tick moves the walk and the entry of a destination
together (`Turn`), whatever the rate test is, so `first_seen_ms` is the
beginning of the walk's current episode and `last_over_ms` the last tick
that found the destination over the threshold.

The two counters are about all destinations at once: a tick's visits
balance entry by entry (`visit_balance`).
-/
import Blackwall.Flow.Watch

namespace Blackwall.Flow

open Base Computability

-- =============================================================== episodes

/-- The events about a destination so far, and when the open detection was
opened, if there is one. -/
inductive Lives : List (Nat × DetectionEvent) → Option Nat → Prop
  | nil : Lives [] none
  | opened {evs : List (Nat × DetectionEvent)} (n : Nat) (det : Detection)
      (h : Lives evs none) : Lives (evs ++ [(n, .opened det)]) (some n)
  | updated {evs : List (Nat × DetectionEvent)} {n₀ : Nat} (n : Nat)
      {det : Detection} (hfirst : det.firstSeenMs = n₀)
      (h : Lives evs (some n₀)) :
      Lives (evs ++ [(n, .updated det)]) (some n₀)
  | cleared {evs : List (Nat × DetectionEvent)} {n₀ : Nat} (n : Nat)
      (dst : IpAddr) (at_ : Nat) (h : Lives evs (some n₀)) :
      Lives (evs ++ [(n, .cleared dst at_)]) none

/-- The kinds of some events. -/
def kinds (evs : List (Nat × DetectionEvent)) : List EventKind :=
  evs.map fun x => x.2.kind

theorem episode_mem {word : List EventKind} (h : word ∈ episodes)
    (n : Nat) :
    word ++ (.opened :: List.replicate n .updated ++ [.cleared])
      ∈ episodes := by
  have hupdates : List.replicate n EventKind.updated
      ∈ ({[.updated]} : Language EventKind)∗ := by
    refine ⟨List.replicate n [.updated], ?_, fun y hy => ?_⟩
    · exact List.flatten_replicate_singleton.symm
    · exact List.eq_of_mem_replicate hy
  have hepisode : .opened :: List.replicate n .updated ++ [.cleared]
      ∈ episode :=
    Language.append_mem_mul
      (Language.append_mem_mul (Set.mem_singleton [EventKind.opened])
        hupdates) (Set.mem_singleton [EventKind.cleared])
  have hstar : episodes * episode ≤ episodes := kstar_mul_le_kstar
  exact Set.mem_of_mem_of_subset (Language.append_mem_mul h hepisode) hstar

/-- A walk that ends closed is whole episodes; one that ends open has
begun another. -/
theorem Lives.word {evs : List (Nat × DetectionEvent)}
    {since : Option Nat} (h : Lives evs since) :
    (since = none → kinds evs ∈ episodes)
      ∧ (since ≠ none → ∃ word ∈ episodes, ∃ n,
        kinds evs = word ++ .opened :: List.replicate n .updated) := by
  induction h with
  | nil =>
      exact ⟨fun _ => Language.nil_mem_kstar _, fun hne => absurd rfl hne⟩
  | opened n det h ih =>
      refine ⟨nofun, fun _ => ⟨_, ih.1 rfl, 0, ?_⟩⟩
      rw [kinds, List.map_append]
      rfl
  | @updated evs _ n det _ h ih =>
      refine ⟨nofun, fun _ => ?_⟩
      obtain ⟨word, hword, k, hk⟩ := ih.2 nofun
      refine ⟨word, hword, k + 1, ?_⟩
      rw [kinds, List.map_append, ← kinds, hk, List.replicate_succ']
      simp [DetectionEvent.kind]
  | @cleared evs _ n dst at_ h ih =>
      refine ⟨fun _ => ?_, fun hne => absurd rfl hne⟩
      obtain ⟨word, hword, k, hk⟩ := ih.2 nofun
      have hend := episode_mem hword k
      rw [← List.append_assoc, ← hk] at hend
      rw [kinds, List.map_append]
      exact hend

/-- Every walk can be completed to whole episodes. -/
theorem Lives.completes {evs : List (Nat × DetectionEvent)}
    {since : Option Nat} (h : Lives evs since) :
    ∃ rest, kinds evs ++ rest ∈ episodes := by
  cases hs : since with
  | none =>
      refine ⟨[], ?_⟩
      rw [List.append_nil]
      exact h.word.1 hs
  | some n₀ =>
      obtain ⟨word, hword, k, hk⟩ := h.word.2 (by rw [hs]; nofun)
      refine ⟨[.cleared], ?_⟩
      rw [hk, List.append_assoc]
      exact episode_mem hword k

/-- Where a list with one more element is split. -/
theorem snoc_eq_append_cons {α : Type} {xs pre post : List α} {x y : α}
    (h : xs ++ [x] = pre ++ y :: post) :
    (xs = pre ∧ x = y ∧ post = [])
      ∨ ∃ post', post = post' ++ [x] ∧ xs = pre ++ y :: post' := by
  induction post using List.reverseRecOn with
  | nil =>
      obtain ⟨hxs, hx⟩ := List.append_inj' h rfl
      cases hx
      exact Or.inl ⟨hxs, rfl, rfl⟩
  | append_singleton post z =>
      rw [← List.cons_append, ← List.append_assoc] at h
      obtain ⟨hxs, hx⟩ := List.append_inj' h rfl
      cases hx
      exact Or.inr ⟨post, rfl, hxs⟩

/-- The events end with an `Opened` at `n₀` and `Updated` only after
it. -/
def OpenedLast (n₀ : Nat) (evs : List (Nat × DetectionEvent)) : Prop :=
  ∃ pre det mid, evs = pre ++ (n₀, .opened det) :: mid
    ∧ ∀ x ∈ mid, x.2.kind = .updated

theorem OpenedLast.updated {n₀ : Nat} {evs : List (Nat × DetectionEvent)}
    (h : OpenedLast n₀ evs) (n : Nat) (det : Detection) :
    OpenedLast n₀ (evs ++ [(n, .updated det)]) := by
  obtain ⟨pre, det₀, mid, rfl, hmid⟩ := h
  refine ⟨pre, det₀, mid ++ [(n, .updated det)], by simp, fun x hx => ?_⟩
  rcases List.mem_append.mp hx with hx | hx
  · exact hmid x hx
  · rw [List.mem_singleton.mp hx]
    rfl

/-- An `Updated` carries the time of the `Opened` it belongs to. -/
theorem Lives.first_seen {evs : List (Nat × DetectionEvent)}
    {since : Option Nat} (h : Lives evs since) :
    (∀ n₀, since = some n₀ → OpenedLast n₀ evs)
      ∧ ∀ pre n det post, evs = pre ++ (n, .updated det) :: post →
        OpenedLast det.firstSeenMs pre := by
  induction h with
  | nil =>
      refine ⟨nofun, fun pre n det post heq => ?_⟩
      exact absurd heq.symm (by simp)
  | opened n det h ih =>
      refine ⟨fun n₀ hn => ?_, fun pre n' det' post heq => ?_⟩
      · cases hn
        exact ⟨_, det, [], rfl, nofun⟩
      · rcases snoc_eq_append_cons heq with ⟨-, hx, -⟩ | ⟨post', -, hevs⟩
        · cases hx
        · exact ih.2 pre n' det' post' hevs
  | updated n hfirst h ih =>
      refine ⟨fun n₀ hn => ?_, fun pre n' det' post heq => ?_⟩
      · exact (ih.1 n₀ hn).updated n _
      · rcases snoc_eq_append_cons heq with ⟨hpre, hx, -⟩ | ⟨post', -, hevs⟩
        · cases hx
          rw [← hpre, hfirst]
          exact ih.1 _ rfl
        · exact ih.2 pre n' det' post' hevs
  | cleared n dst at_ h ih =>
      refine ⟨nofun, fun pre n' det' post heq => ?_⟩
      rcases snoc_eq_append_cons heq with ⟨-, hx, -⟩ | ⟨post', -, hevs⟩
      · cases hx
      · exact ih.2 pre n' det' post' hevs

-- ======================================================== one destination

/-- A tick of the record found `dst` over the threshold at `n`. -/
def overAt (dst : IpAddr) (n : Nat) (trace : List Record) : Prop :=
  ∃ above evs, Record.ticked n above evs ∈ trace ∧ above dst = true

theorem overAt_snoc {dst : IpAddr} {n nowMs : Nat} {trace : List Record}
    {above : IpAddr → Bool} {evs : List DetectionEvent} :
    overAt dst n (trace ++ [.ticked nowMs above evs])
      ↔ overAt dst n trace ∨ n = nowMs ∧ above dst = true := by
  constructor
  · rintro ⟨above', evs', hmem, hover⟩
    rcases List.mem_append.mp hmem with hmem | hmem
    · exact Or.inl ⟨above', evs', hmem, hover⟩
    · cases List.mem_singleton.mp hmem
      exact Or.inr ⟨rfl, hover⟩
  · rintro (⟨above', evs', hmem, hover⟩ | ⟨rfl, hover⟩)
    · exact ⟨above', evs', List.mem_append_left _ hmem, hover⟩
    · exact ⟨above, evs, List.mem_append_right _ List.mem_cons_self, hover⟩

/-- An open detection: when it was opened, and when it was last found over
the threshold. -/
structure Alarm where
  openedMs : Nat
  lastOverMs : Nat

/-- What a tick can make of one destination: whether it was over the
threshold, what is reported of it, and the alarm before and after. -/
inductive Alarm.Step (holdDownMs nowMs : Nat) (dst : IpAddr) :
    Option Alarm → Bool → List DetectionEvent → Option Alarm → Prop
  | quiet (al : Option Alarm) : Step holdDownMs nowMs dst al false [] al
  | opened (det : Detection) :
      Step holdDownMs nowMs dst none true [.opened det]
        (some ⟨nowMs, nowMs⟩)
  | updated (al : Alarm) {det : Detection}
      (hfirst : det.firstSeenMs = al.openedMs) :
      Step holdDownMs nowMs dst (some al) true [.updated det]
        (some { al with lastOverMs := nowMs })
  | cleared (al : Alarm) (hheld : holdDownMs ≤ nowMs - al.lastOverMs) :
      Step holdDownMs nowMs dst (some al) false [.cleared dst nowMs] none

/-- The open detection of an entry. -/
def DstState.alarm (st : DstState) : Option Alarm :=
  if st.isOpen then some ⟨st.firstSeenMs, st.lastOverMs⟩ else none

namespace ThresholdDetector

variable {d d' : ThresholdDetector} {dst : IpAddr} {nowMs : Nat}
  {a : IpAddr → Assess}

/-- The open detection of a destination. -/
def alarm (d : ThresholdDetector) (dst : IpAddr) : Option Alarm :=
  (d.state.lookup dst).bind DstState.alarm

theorem alarm_eq {st : DstState} (hlk : d.state.lookup dst = some st) :
    d.alarm dst = st.alarm := by
  rw [alarm, hlk, Option.bind_some]

theorem alarm_absent (hlk : d.state.lookup dst = none) :
    d.alarm dst = none := by
  rw [alarm, hlk, Option.bind_none]

theorem alarm_eq_getD (d : ThresholdDetector) (dst : IpAddr) :
    d.alarm dst = ((d.state.lookup dst).getD freshDst).alarm := by
  rw [alarm]
  cases d.state.lookup dst with
  | none => rfl
  | some st => rfl

/-- An observation leaves the alarms alone. -/
theorem alarm_observe {obs : FlowObservation}
    (h : d.observe obs nowMs = some d') (dst : IpAddr) :
    d'.alarm dst = d.alarm dst := by
  rw [alarm_eq_getD, alarm_eq_getD]
  exact observe_frame (fun _ _ => rfl) h dst

/-- The turn a tick takes with a destination is a step of its alarm. -/
theorem Turn.alarm_step (ha : Watched.Faithful a) {evs : List DetectionEvent}
    (ht : Turn a nowMs d dst evs (d'.state.lookup dst)) :
    Alarm.Step d.holdDownMs nowMs dst (d.alarm dst)
      (d.isOver a nowMs dst) evs (d'.alarm dst) := by
  generalize hafter : d'.state.lookup dst = after at ht
  cases ht with
  | absent hlk =>
      rw [alarm_absent hlk, alarm_absent hafter, isOver, hlk]
      exact .quiet none
  | updated hlk hover hopen =>
      rw [alarm_eq hlk, alarm_eq hafter, isOver_eq hlk, hover,
        DstState.alarm, if_pos hopen]
      exact .updated _ (ha.dates dst _ _ _)
  | opened hlk hover hopen =>
      rw [alarm_eq hlk, alarm_eq hafter, isOver_eq hlk, hover,
        DstState.alarm, hopen]
      exact .opened _
  | cleared hlk hover hopen hheld =>
      rw [alarm_eq hlk, alarm_absent hafter, isOver_eq hlk, hover,
        DstState.alarm, if_pos hopen]
      exact .cleared _ (of_decide_eq_true hheld)
  | quiet hlk hover hhold =>
      rw [alarm_eq hlk, alarm_eq hafter, isOver_eq hlk, hover]
      exact .quiet _

end ThresholdDetector

-- ============================================================ its history

/-- The alarm of a destination goes with the record. -/
structure Attends (last : Nat) (dst : IpAddr) (al : Option Alarm)
    (trace : List Record) : Prop where
  lives : Lives (eventsOf dst trace) (al.map Alarm.openedMs)
  calm : ∀ x ∈ al, x.lastOverMs ≤ last
    ∧ ∀ n, overAt dst n trace → n ≤ x.lastOverMs
  past : ∀ n, overAt dst n trace → n ≤ last

section Attends

variable {last nowMs holdDownMs : Nat} {dst : IpAddr}
  {al al' : Option Alarm} {trace : List Record} {above : IpAddr → Bool}
  {evs : List DetectionEvent}

theorem Attends.later (h : Attends last dst al trace)
    (hle : last ≤ nowMs) : Attends nowMs dst al trace where
  lives := h.lives
  calm x hx := ⟨(h.calm x hx).1.trans hle, (h.calm x hx).2⟩
  past n hn := (h.past n hn).trans hle

theorem Attends.observed (h : Attends last dst al trace)
    (obs : FlowObservation) (t : Nat) :
    Attends last dst al (trace ++ [.observed obs t]) := by
  have hover : ∀ n, overAt dst n (trace ++ [.observed obs t]) →
      overAt dst n trace := by
    rintro n ⟨above, evs, hmem, ho⟩
    rcases List.mem_append.mp hmem with hmem | hmem
    · exact ⟨above, evs, hmem, ho⟩
    · cases List.mem_singleton.mp hmem
  refine ⟨?_, fun x hx => ⟨(h.calm x hx).1, fun n hn => ?_⟩,
    fun n hn => h.past n (hover n hn)⟩
  · rw [eventsOf, List.flatMap_append]
    show Lives (_ ++ []) _
    rw [List.append_nil]
    exact h.lives
  · exact (h.calm x hx).2 n (hover n hn)

theorem Attends.ticked (h : Attends nowMs dst al trace)
    (hs : Alarm.Step holdDownMs nowMs dst al (above dst)
      (evs.filter fun ev => ev.target = dst) al') :
    Attends nowMs dst al' (trace ++ [.ticked nowMs above evs]) := by
  have hevents : eventsOf dst (trace ++ [.ticked nowMs above evs])
      = eventsOf dst trace ++ (evs.filter fun ev => ev.target = dst).map
        fun ev => (nowMs, ev) := by
    rw [eventsOf, List.flatMap_append, List.flatMap_singleton]
    rfl
  have hpast : ∀ n, overAt dst n (trace ++ [.ticked nowMs above evs]) →
      n ≤ nowMs := by
    intro n hn
    rcases overAt_snoc.mp hn with hn | ⟨rfl, -⟩
    · exact h.past n hn
    · exact Nat.le_refl _
  refine ⟨?_, fun x hx => ?_, hpast⟩
  · rw [hevents]
    generalize evs.filter (fun ev => ev.target = dst) = about at hs
    generalize above dst = b at hs
    have hlives := h.lives
    cases hs with
    | quiet => rw [List.map_nil, List.append_nil]; exact hlives
    | opened det => exact .opened nowMs det hlives
    | updated al hfirst => exact .updated nowMs hfirst hlives
    | cleared al hheld => exact .cleared nowMs dst nowMs hlives
  · have hold := h.calm
    generalize evs.filter (fun ev => ev.target = dst) = about at hs
    generalize hb : above dst = b at hs
    cases hs with
    | quiet =>
        refine ⟨(hold x hx).1, fun n hn => ?_⟩
        rcases overAt_snoc.mp hn with hn | ⟨-, ho⟩
        · exact (hold x hx).2 n hn
        · rw [hb] at ho
          cases ho
    | opened det => cases hx; exact ⟨Nat.le_refl _, hpast⟩
    | updated al hfirst => cases hx; exact ⟨Nat.le_refl _, hpast⟩
    | cleared al hheld => cases hx

/-- A `Cleared` comes no sooner than the hold-down after the last tick
that found its destination over the threshold. -/
theorem Attends.held (h : Attends nowMs dst al trace)
    (hs : Alarm.Step holdDownMs nowMs dst al (above dst)
      (evs.filter fun ev => ev.target = dst) al') {m : Nat}
    (hc : DetectionEvent.cleared dst m ∈ evs) :
    m = nowMs ∧ ∀ n, overAt dst n (trace ++ [.ticked nowMs above evs]) →
      n + holdDownMs ≤ nowMs := by
  have hmem : DetectionEvent.cleared dst m
      ∈ evs.filter fun ev => ev.target = dst :=
    List.mem_filter.mpr ⟨hc, decide_eq_true rfl⟩
  have hold := h.calm
  have hsnoc := fun n => @overAt_snoc dst n nowMs trace above evs
  generalize evs.filter (fun ev => ev.target = dst) = about at hs hmem
  generalize above dst = b at hs hsnoc
  cases hs with
  | quiet => cases hmem
  | opened det => cases List.mem_singleton.mp hmem
  | updated al hfirst => cases List.mem_singleton.mp hmem
  | cleared al hheld =>
      cases List.mem_singleton.mp hmem
      refine ⟨rfl, fun n hn => ?_⟩
      rcases (hsnoc n).mp hn with hn | ⟨-, ho⟩
      · obtain ⟨hlast, hbefore⟩ := hold al rfl
        have hn := hbefore n hn
        omega
      · cases ho

end Attends

-- ============================================================= the counts

namespace ThresholdDetector

variable {d d' : ThresholdDetector} {nowMs : Nat} {a : IpAddr → Assess}
  {ord : IterOrder (Sigma fun _ : IpAddr => DstState)}

theorem mem_openDsts {dst : IpAddr} :
    dst ∈ d.openDsts ↔ d.isOpen dst = true := by
  rw [openDsts, Finset.mem_filter, List.mem_toFinset, Dict.mem_keys_iff,
    isOpen]
  cases d.state.lookup dst with
  | none => simp
  | some st => simp

/-- The counters, as long as they can count, differ by the number of open
detections. -/
def Balanced (d : ThresholdDetector) : Prop :=
  d.detectionsOpened < u64Max → d.detectionsCleared < u64Max →
    d.detectionsOpened = d.detectionsCleared + d.openDsts.card

theorem Balanced.observe {obs : FlowObservation} (h : d.Balanced)
    (hobs : d.observe obs nowMs = some d') : d'.Balanced := by
  obtain ⟨-, -, hcounts⟩ := observe_observes hobs
  obtain ⟨hopened, hcleared⟩ := Prod.mk.inj hcounts
  have hopen : d'.openDsts = d.openDsts := by
    ext dst
    rw [mem_openDsts, mem_openDsts, isOpen_observe hobs]
  unfold Balanced
  rw [hopened, hcleared, hopen]
  exact h

/-- A visit opens what was closed, clears what was open, or leaves it. -/
theorem visit_balance (r : Assess) (nowMs : Nat) (dst : IpAddr)
    (d : ThresholdDetector) (st : DstState) :
    st.isOpen.toNat + (d.visit r nowMs dst st).opens.toNat
      = (d.visit r nowMs dst st).clears.toNat
        + (!(d.visit r nowMs dst st).clears
          && (d.visit r nowMs dst st).state.isOpen).toNat := by
  rw [Visit.opens, Visit.clears]
  cases hover : d.windowOver r nowMs st with
  | true =>
      obtain ⟨hst, hev⟩ := visit_over dst hover
      rw [hst, hev]
      cases st.isOpen with
      | true => rfl
      | false => rfl
  | false =>
      obtain ⟨hst, hev⟩ := visit_below dst hover
      rw [hst, hev]
      cases hc : (st.isOpen && d.heldDown nowMs st) with
      | true =>
          rw [(Bool.and_eq_true_iff.mp hc).1]
          rfl
      | false => exact Nat.zero_add _ ▸ Nat.add_zero _

theorem countP_visits (p : Visit → Bool) :
    satSum u64Max (fun v => (p v.2).toNat) (d.visits a ord nowMs)
      = min ((d.state.pairs ord).countP fun e =>
          p (d.visit (a e.1) nowMs e.1 e.2)) u64Max := by
  rw [satSum_eq_min, sum_toNat_eq_countP, visits, List.countP_map]
  rfl

theorem Balanced.tickWith (h : d.Balanced) :
    (d.tickWith a ord nowMs).2.Balanced := by
  have hbefore : d.openDsts.card
      = (d.state.pairs ord).countP fun e => e.2.isOpen := by
    refine Dict.card_eq_countP ord (p := fun _ st => st.isOpen) fun dst => ?_
    rw [mem_openDsts, isOpen]
    cases d.state.lookup dst with
    | none => simp
    | some st => simp
  have hafter : (d.tickWith a ord nowMs).2.openDsts.card
      = (d.state.pairs ord).countP fun e =>
          !(d.visit (a e.1) nowMs e.1 e.2).clears
            && (d.visit (a e.1) nowMs e.1 e.2).state.isOpen := by
    refine Dict.card_eq_countP ord (p := fun dst st =>
      !(d.visit (a dst) nowMs dst st).clears
        && (d.visit (a dst) nowMs dst st).state.isOpen) fun dst => ?_
    rw [mem_openDsts, isOpen, lookup_tickWith]
    cases d.state.lookup dst with
    | none => simp
    | some st =>
        cases hc : (d.visit (a dst) nowMs dst st).clears with
        | true => simp [hc]
        | false => simp [hc]
  have hsum := countP_add_eq (l := d.state.pairs ord) fun e _ =>
    visit_balance (a e.1) nowMs e.1 d e.2
  intro hopened hcleared
  change satAdd64 d.detectionsOpened (satSum _ _ _) < _ at hopened
  change satAdd64 d.detectionsCleared (satSum _ _ _) < _ at hcleared
  show satAdd64 d.detectionsOpened (satSum _ _ _)
    = satAdd64 d.detectionsCleared (satSum _ _ _) + _
  rw [countP_visits, satAdd64] at hopened hcleared ⊢
  rw [countP_visits, satAdd64, hafter]
  have heq := h (by omega) (by omega)
  rw [hbefore] at heq
  omega

end ThresholdDetector

-- ============================================================== whole runs

/-- What one tick of a record owes to the record before it. -/
structure SoundTick (d₀ : ThresholdDetector) (pre : List Record) (n : Nat)
    (above : IpAddr → Bool) (evs : List DetectionEvent) : Prop where
  once : (evs.map DetectionEvent.target).Nodup
  monitored : ∀ ev ∈ evs, d₀.monitors ev.target = true
  held : ∀ dst m, .cleared dst m ∈ evs → m = n
    ∧ ∀ n', overAt dst n' (pre ++ [.ticked n above evs]) →
      n' + d₀.holdDownMs ≤ n

namespace Watched

open ThresholdDetector

/-- The detector goes with the record of its calls. -/
structure Follows (d₀ : ThresholdDetector) (last : Nat) (w : Watched) :
    Prop where
  settings : w.det.settings = d₀.settings
  known : ∀ dst, (w.det.state.lookup dst).isSome → d₀.monitors dst = true
  attends : ∀ dst, Attends last dst (w.det.alarm dst) w.trace
  ticks : ∀ pre n above evs post,
    w.trace = pre ++ .ticked n above evs :: post →
      SoundTick d₀ pre n above evs
  balanced : w.det.Balanced

variable {d₀ : ThresholdDetector} {w : Watched} {last nowMs : Nat}

theorem Follows.later (h : w.Follows d₀ last) (hle : last ≤ nowMs) :
    w.Follows d₀ nowMs :=
  { h with attends := fun dst => (h.attends dst).later hle }

theorem Follows.observe (h : w.Follows d₀ last) {obs : FlowObservation}
    {t : Nat} {det : ThresholdDetector}
    (hobs : w.det.observe obs t = some det) :
    Follows d₀ last ⟨det, w.trace ++ [.observed obs t]⟩ := by
  obtain ⟨hcase, hset, -⟩ := observe_observes hobs
  refine ⟨hset.trans h.settings, fun dst hdst => ?_, fun dst => ?_,
    fun pre n above evs post heq => ?_, h.balanced.observe hobs⟩
  · cases hcase with
    | ignored _ hstate => exact h.known dst (hstate ▸ hdst)
    | recorded hin _ hstate =>
        change (det.state.lookup dst).isSome at hdst
        rw [hstate, Dict.lookup_insert_if] at hdst
        by_cases hd : dst = obs.dst
        · rw [hd, ← hin]
          exact (monitors_congr h.settings obs.dst).symm
        · rw [if_neg hd] at hdst
          exact h.known dst hdst
  · rw [alarm_observe hobs]
    exact (h.attends dst).observed obs t
  · rcases snoc_eq_append_cons heq with ⟨-, hx, -⟩ | ⟨post', -, htrace⟩
    · cases hx
    · exact h.ticks pre n above evs post' htrace

theorem Follows.tick (h : w.Follows d₀ nowMs) {a : IpAddr → Assess}
    (ha : Faithful a)
    (ord : IterOrder (Sigma fun _ : IpAddr => DstState)) :
    Follows d₀ nowMs ⟨(w.det.tickWith a ord nowMs).2, w.trace
      ++ [.ticked nowMs (w.det.isOver a nowMs)
        (w.det.tickWith a ord nowMs).1]⟩ := by
  have hhold : w.det.holdDownMs = d₀.holdDownMs :=
    congrArg (·.2.1.holdDownMs) h.settings
  have hstep : ∀ dst, Alarm.Step w.det.holdDownMs nowMs dst
      (w.det.alarm dst) (w.det.isOver a nowMs dst)
      ((w.det.tickWith a ord nowMs).1.filter fun ev => ev.target = dst)
      ((w.det.tickWith a ord nowMs).2.alarm dst) := fun dst =>
    (tickWith_turn ha.names dst).alarm_step ha
  refine ⟨h.settings, fun dst hdst => ?_, fun dst => ?_,
    fun pre n above evs post heq => ?_, h.balanced.tickWith⟩
  · refine h.known dst ?_
    change ((w.det.tickWith a ord nowMs).2.state.lookup dst).isSome at hdst
    rw [lookup_tickWith] at hdst
    cases hlk : w.det.state.lookup dst with
    | none => rw [hlk] at hdst; exact hdst
    | some st => rfl
  · exact (h.attends dst).ticked (hstep dst)
  · rcases snoc_eq_append_cons heq with ⟨hpre, hx, -⟩ | ⟨post', -, htrace⟩
    · cases hx
      refine ⟨tickWith_targets_nodup ha.names, fun ev hev => ?_,
        fun dst m hc => ?_⟩
      · obtain ⟨dst, st, hlk, hev⟩ := mem_tickWith_events.mp hev
        rw [visit_target ha.names hev]
        exact h.known dst (by rw [hlk]; rfl)
      · rw [← hpre, ← hhold]
        exact (h.attends dst).held (hstep dst) hc
    · exact h.ticks pre n above evs post' htrace

/-- Every run in the order of time. -/
theorem follows_run (rd : Rounding) (test : RateTest)
    (prefixes : List IpNet) (config : DetectorConfig)
    (agents : AgentRegistry) (ms : List Move)
    (hmono : (ms.map Move.nowMs).Pairwise (· ≤ ·)) :
    (run (step rd test) (start prefixes config agents) ms).Follows
      (.new prefixes config agents) ((ms.map Move.nowMs).getLastD 0) := by
  refine run_keeps rd test (fun w last nowMs hle h => h.later hle)
    (fun w nowMs obs det hobs h => h.observe hobs)
    (fun w nowMs a ord ha h => h.tick ha ord) ms hmono
    ⟨rfl, fun _ h => ?_, fun _ => ⟨.nil, fun _ h => ?_, fun n hn => ?_⟩,
      fun pre n above evs post heq => ?_, fun _ _ => rfl⟩
  · cases h
  · cases h
  · obtain ⟨_, _, hmem, _⟩ := hn
    cases hmem
  · exact absurd heq.symm (by simp [start])

end Watched

/-- In the order of time and with any rate test: the events about a
destination are whole episodes and the beginning of another, a tick
reports a destination once and only if it is monitored, a `Cleared` finds
its destination under the threshold at every tick of the hold-down before
it, an `Updated` carries the time of its `Opened`, and the two counters
differ by the number of open detections. -/
theorem detection_lifecycle (rd : Rounding) (test : RateTest)
    (prefixes : List IpNet) (config : DetectorConfig)
    (agents : AgentRegistry) (ms : List Move)
    (hmono : (ms.map Move.nowMs).Pairwise (· ≤ ·)) :
    let w := run (Watched.step rd test)
      (.start prefixes config agents) ms
    (∀ dst, ∃ rest, kinds (eventsOf dst w.trace) ++ rest ∈ episodes)
      ∧ (∀ n above evs, Record.ticked n above evs ∈ w.trace →
          (evs.map DetectionEvent.target).Nodup
            ∧ ∀ ev ∈ evs, (prefixes.any fun p => p.contains ev.target)
              = true)
      ∧ (∀ pre n above evs post dst m,
          w.trace = pre ++ .ticked n above evs :: post →
          DetectionEvent.cleared dst m ∈ evs →
          m = n ∧ ∀ n' above' evs',
            Record.ticked n' above' evs' ∈ pre ++ [.ticked n above evs] →
            n < n' + config.holdDownMs → above' dst = false)
      ∧ (∀ dst pre n det post,
          eventsOf dst w.trace = pre ++ (n, .updated det) :: post →
          OpenedLast det.firstSeenMs pre)
      ∧ (w.det.detectionsOpened < u64Max →
          w.det.detectionsCleared < u64Max →
          w.det.detectionsOpened
            = w.det.detectionsCleared + w.det.openDsts.card) := by
  intro w
  have h : w.Follows (.new prefixes config agents) _ :=
    Watched.follows_run rd test prefixes config agents ms hmono
  refine ⟨fun dst => (h.attends dst).lives.completes,
    fun n above evs hmem => ?_,
    fun pre n above evs post dst m htrace hc => ?_,
    fun dst => (h.attends dst).lives.first_seen.2, h.balanced⟩
  · obtain ⟨pre, post, htrace⟩ := List.append_of_mem hmem
    have htick := h.ticks pre n above evs post htrace
    exact ⟨htick.once, htick.monitored⟩
  · obtain ⟨hm, hheld⟩ := (h.ticks pre n above evs post htrace).held dst m hc
    refine ⟨hm, fun n' above' evs' hmem hlt => ?_⟩
    refine Bool.eq_false_iff.mpr fun hover => ?_
    exact absurd (hheld n' ⟨above', evs', hmem, hover⟩) (Nat.not_le.mpr hlt)

/-- One second of 200 packets a second, ticked three times. -/
def oneFlood : List Move :=
  [.observe (ThresholdDetector.sampleObs 53 200) 0,
    .tick (fun _ => .stored) (.stored _) 0,
    .tick (fun _ => .stored) (.stored _) 500,
    .tick (fun _ => .stored) (.stored _) 1200]

theorem detection_lifecycle_flood :
    let w := run (Watched.step exact (thresholdTest exact))
      ⟨ThresholdDetector.sample, []⟩ oneFlood
    (oneFlood.map Move.nowMs).Pairwise (· ≤ ·)
      ∧ kinds (eventsOf (.v4 0xC6336407) w.trace)
        = [.opened, .updated, .cleared]
      ∧ ∃ rest, kinds (eventsOf (.v4 0xC6336407) w.trace) ++ rest
        ∈ episodes :=
  ⟨by decide, by decide +kernel,
    (detection_lifecycle exact (thresholdTest exact) _ _ _ oneFlood
      (by decide)).1 _⟩

end Blackwall.Flow
