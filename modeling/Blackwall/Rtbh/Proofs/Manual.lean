/-
What becomes of manual blackholes.

The journal and wire arguments read an entry's origin only. To say that a
manual blackhole is moved by operator requests alone takes two more facts
about entries, both kept by every transition (`Sound`): an active target
may be blackholed under the policy, and a manual entry has no clear
pending, so no tick finds it due. The last part says what each entry
point of the manager reports and does to manual targets.
-/
import Blackwall.Rtbh.Proofs.Disarm
import Blackwall.Rtbh.Proofs.Pipeline
import Blackwall.Rtbh.Requests

namespace Blackwall.Rtbh

open Base
open Blackwall.Flow (DetectionEvent)

-- ================================================== the controller's share

namespace RtbhController

/-- Every entry is of a target the policy lets through, and no manual
entry has a clear pending. -/
structure Sound (config : RtbhConfig) (c : RtbhController) : Prop where
  policy : c.config = config
  entries : ∀ t e, c.active.lookup t = some e →
    c.mitigable t = true
      ∧ (e.origin = .manual → e.clearRequestedAt = none)

variable {config : RtbhConfig} {c : RtbhController}

theorem sound_new (config : RtbhConfig) : Sound config (new config) where
  policy := rfl
  entries _ _ h := by cases h

theorem Sound.active (h : Sound config c) {t : IpAddr}
    (ht : c.origins t ≠ none) : c.mitigable t = true := by
  obtain ⟨o, ho⟩ := Option.ne_none_iff_exists'.mp ht
  obtain ⟨e, he, -⟩ := Option.map_eq_some_iff.mp ho
  exact (h.entries t e he).1

/-- A change of the active set whose new entries are sound. -/
theorem Sound.with (h : Sound config c) {active : Dict IpAddr ActiveEntry}
    (hnew : ∀ t e, active.lookup t = some e →
      c.active.lookup t = some e ∨ (c.mitigable t = true
        ∧ (e.origin = .manual → e.clearRequestedAt = none))) :
    Sound config { c with active } := by
  refine ⟨h.policy, fun t e he => ?_⟩
  rcases hnew t e he with hold | hok
  · exact h.entries t e hold
  · exact hok

theorem Sound.insert (h : Sound config c) {t : IpAddr} {e : ActiveEntry}
    (ht : c.mitigable t = true)
    (he : e.origin = .manual → e.clearRequestedAt = none) :
    Sound config { c with active := c.active.insert t e } := by
  refine h.with fun t' e' he' => ?_
  rw [Dict.lookup_insert_if] at he'
  split at he'
  · next heq =>
    subst heq
    cases he'
    exact Or.inr ⟨ht, he⟩
  · exact Or.inl he'

/-- A rewrite of one entry that cancels its clear. -/
theorem Sound.modify (h : Sound config c) {t : IpAddr}
    {f : ActiveEntry → ActiveEntry}
    (hf : ∀ e, (f e).clearRequestedAt = none) :
    Sound config { c with active := Dict.modify t f c.active } := by
  refine h.with fun t' e' he' => ?_
  rw [Dict.lookup_modify] at he'
  split at he'
  · next heq =>
    subst heq
    obtain ⟨e, he, rfl⟩ := Option.map_eq_some_iff.mp he'
    exact Or.inr ⟨(h.entries t' e he).1, fun _ => hf e⟩
  · exact Or.inl he'

theorem Sound.eraseAll (h : Sound config c) (ts : List IpAddr) :
    Sound config { c with active := Dict.eraseAll ts c.active } := by
  refine h.with fun t' e' he' => Or.inl ?_
  rw [Dict.lookup_eraseAll] at he'
  split at he'
  · cases he'
  · exact he'

theorem Sound.rollback (h : Sound config c) (t : IpAddr) :
    Sound config (c.rollback t) :=
  h.eraseAll [t]

theorem Sound.insertBlackhole (h : Sound config c) (t : IpAddr)
    (now : Nat) (o : BlackholeOrigin) :
    Sound config (c.insertBlackhole t now o).2 := by
  unfold RtbhController.insertBlackhole
  split
  · exact ⟨h.policy, h.entries⟩
  split
  · exact h
  split
  · exact h.modify fun _ => rfl
  split
  · exact h
  next hprot helig _ _ =>
    split
    · exact h
    · next route hroute =>
      refine h.insert ?_ fun _ => rfl
      have hnh : c.hasNextHop t = true := by
        rw [← hostRoute_isSome, hroute]
        rfl
      simp only [Bool.not_eq_true', Bool.not_eq_false] at helig
      simp [mitigable, hnh, helig, hprot]

theorem Sound.requestClear (h : Sound config c) (t : IpAddr) (now : Nat) :
    Sound config (c.requestClear t now).2 := by
  unfold RtbhController.requestClear
  split
  · exact h
  next e he =>
    split
    · exact h
    next hman =>
      split
      · exact h.rollback t
      · exact h.insert (h.entries t e he).1 fun hm => absurd hm hman

theorem Sound.onEvent (h : Sound config c) (ev : DetectionEvent)
    (now : Nat) : Sound config (c.onEvent ev now).2 := by
  cases ev with
  | opened d => exact h.insertBlackhole d.target now .auto
  | updated d => exact h.modify fun _ => rfl
  | cleared t atMs => exact h.requestClear t now

theorem Sound.manualAdd (h : Sound config c) (t : IpAddr) (now : Nat) :
    Sound config (c.manualAdd t now).2 := by
  unfold RtbhController.manualAdd
  split
  · exact h.modify fun _ => rfl
  · exact h.insertBlackhole t now .manual

theorem Sound.manualRemove (h : Sound config c) (t : IpAddr) :
    Sound config (c.manualRemove t).2 := by
  unfold RtbhController.manualRemove
  split
  · exact h.rollback t
  · exact h

-- ----------------------------------------------------- manual is for keeps

/-- A clear never touches a manual blackhole. -/
theorem requestClear_manual {t : IpAddr} (now : Nat)
    (h : c.origins t = some .manual) :
    c.requestClear t now = ([], c) := by
  obtain ⟨e, he, ho⟩ := Option.map_eq_some_iff.mp h
  simp [requestClear, he, ho]

/-- No event makes a target manual, or a manual one anything else. -/
theorem onEvent_manual (c : RtbhController) (ev : DetectionEvent)
    (now : Nat) (t : IpAddr) :
    (c.onEvent ev now).2.origins t = some .manual
      ↔ c.origins t = some .manual := by
  rcases onEvent_cases c ev now with
    ⟨-, ho⟩ | ⟨route, -, -, hnone, ho⟩ | ⟨hact, -, ho⟩
  · rw [ho]
  · rw [ho, Function.update_apply]
    split
    · next heq =>
      subst heq
      simp [hnone]
    · rfl
  · rw [ho, Function.update_apply]
    split
    · next heq =>
      subst heq
      -- a withdrawal is the answer to a clear, and that of an auto entry
      refine iff_of_false (by simp) fun hman => ?_
      cases ev with
      | opened d =>
          rcases insertBlackhole_cases c d.target now .auto with
            ⟨ha, -⟩ | ⟨route, ha, -⟩
          · rw [onEvent, ha] at hact
            cases hact
          · rw [onEvent, ha] at hact
            cases hact
      | updated d => cases hact
      | cleared t atMs =>
          have hman : c.origins t = some .manual := hman
          rw [onEvent, requestClear_manual now hman] at hact
          cases hact
    · rfl

/-- A sound manual entry is never due. -/
theorem Sound.manual_live (h : Sound config c) {t : IpAddr}
    (ht : c.origins t = some .manual)
    (ord : IterOrder (Sigma fun _ : IpAddr => ActiveEntry)) (now : Nat) :
    t ∉ c.expired ord now := by
  rw [mem_expired]
  rintro ⟨e, he, hdue⟩
  have ho : e.origin = .manual := by
    rw [origins, he] at ht
    exact Option.some.inj ht
  simp [due, ho, (h.entries t e he).2 ho] at hdue

theorem Sound.tick_manual (h : Sound config c)
    (ord : IterOrder (Sigma fun _ : IpAddr => ActiveEntry)) (now : Nat)
    (t : IpAddr) :
    (c.tick ord now).2.origins t = some .manual
      ↔ c.origins t = some .manual := by
  rw [tick_origins]
  constructor
  · intro hm
    split at hm
    · cases hm
    · exact hm
  · intro hm
    rw [if_neg (h.manual_live hm ord now), hm]

end RtbhController

-- ===================================================== the manager's share

section Steps

variable {config : RtbhConfig} {s : Sys}

/-- An announce leaves the controller as the decision made it, or rolls
the target back. -/
theorem executeAndJournalAnnounce_controller (env : Outcomes Call)
    (t : IpAddr) (route : Bgp.Route) (o : BlackholeOrigin)
    (mono wall : Nat) (s : Sys) :
    let r := executeAndJournalAnnounce env t route o mono wall s
    (r.1 = .applied ∧ r.2.mgr.controller = s.mgr.controller)
      ∨ (r.1 ≠ .applied
        ∧ r.2.mgr.controller = s.mgr.controller.rollback t) := by
  simp only
  have hcases := announceOnBgp_cases env t route mono s
  unfold executeAndJournalAnnounce
  generalize announceOnBgp env t route mono s = r at hcases
  obtain ⟨out, s'⟩ := r
  rcases hcases with ⟨hout, hmgr, -⟩ | ⟨hout, hc, -⟩
  · simp only at hout hmgr
    subst hout
    refine Or.inl ⟨rfl, ?_⟩
    rw [(mirror_frame env _ s').1, hmgr]
  · cases out with
    | applied => exact absurd rfl hout
    | rateCapped => exact Or.inr ⟨hout, hc⟩
    | disarmed => exact Or.inr ⟨hout, hc⟩
    | failed => exact Or.inr ⟨hout, hc⟩

/-- Only the kill switch answers `Disarmed`. -/
theorem executeAndJournalAnnounce_armed (env : Outcomes Call)
    (t : IpAddr) (route : Bgp.Route) (o : BlackholeOrigin)
    (mono wall : Nat) (harm : s.mgr.disarmed = false) :
    (executeAndJournalAnnounce env t route o mono wall s).1
      ≠ .disarmed := by
  have hbgp : (announceOnBgp env t route mono s).1 ≠ .disarmed := by
    unfold announceOnBgp
    simp only [harm]
    repeat' split
    all_goals simp_all
  unfold executeAndJournalAnnounce
  split
  · simp
  · next heq =>
    rw [heq] at hbgp
    exact hbgp

theorem executeAll_withdraws_controller (env : Outcomes Call)
    (mono wall : Nat) (gone : List IpAddr) (s : Sys) :
    (executeAll env mono wall
      (gone.map fun u => .withdraw (hostPrefix u)) s).mgr.controller
      = s.mgr.controller := by
  refine run_invariant_mem
    (P := fun s' : Sys => s'.mgr.controller = s.mgr.controller) _ ?_ rfl
  intro s' action haction hs'
  obtain ⟨u, -, rfl⟩ := List.mem_map.mp haction
  simp only [executeAndJournal]
  split
  · rw [(mirror_frame env _ _).1]
    exact hs'
  · exact hs'

variable (env : Outcomes Call)

/-- The manager is armed and its controller sound. -/
structure Standing (config : RtbhConfig) (s : Sys) : Prop where
  armed : s.mgr.disarmed = false
  sound : s.mgr.controller.Sound config

theorem standing_start (config : RtbhConfig) (lim : Bool) :
    Standing config (start config lim) :=
  ⟨rfl, RtbhController.sound_new config⟩

/-- No entry point but the kill switch disarms. -/
theorem Standing.of_step (op : Op) (harm : op.isArmed = true)
    (h : Standing config s)
    (hc : (step env op s).mgr.controller.Sound config) :
    Standing config (step env op s) := by
  refine ⟨?_, hc⟩
  have hdis : (Entry.op op).isDisarm = false := by
    cases op with
    | disarm ord => cases harm
    | applyEvent ev mono wall => rfl
    | applyAdd t mono wall => rfl
    | applyRemove t mono wall => rfl
    | tick ord mono wall => rfl
  exact (enter_disarmed env hdis s).trans h.armed

/-- An event moves no manual blackhole. -/
theorem Standing.applyEvent (h : Standing config s) (ev : DetectionEvent)
    (mono wall : Nat) :
    Standing config (applyEvent env ev mono wall s)
      ∧ ∀ t, ManuallyActive (applyEvent env ev mono wall s) t
        ↔ ManuallyActive s t := by
  suffices hc : (Rtbh.applyEvent env ev mono wall
        s).mgr.controller.Sound config
      ∧ ∀ t, ManuallyActive (Rtbh.applyEvent env ev mono wall s) t
        ↔ ManuallyActive s t from
    ⟨h.of_step env (.applyEvent ev mono wall) rfl hc.1, hc.2⟩
  have hsound := h.sound.onEvent ev mono
  have hman := RtbhController.onEvent_manual s.mgr.controller ev mono
  unfold Rtbh.applyEvent
  rcases RtbhController.onEvent_cases s.mgr.controller ev mono with
    ⟨hact, -⟩ | ⟨route, hact, hnet, hnone, ho⟩ | ⟨hact, -, -⟩
  · simp only [hact, executeAll, run_nil]
    exact ⟨hsound, hman⟩
  · have haddr : route.net.addr = ev.target := by
      rw [hnet, addr_hostPrefix]
    simp only [hact, executeAll, run_cons, run_nil, executeAndJournal,
      haddr]
    rcases executeAndJournalAnnounce_controller env ev.target route
        .auto mono wall (s.update
          (.setController (s.mgr.controller.onEvent ev mono).2)) with
      ⟨-, hc⟩ | ⟨-, hc⟩
    · simp only [ManuallyActive, hc]
      exact ⟨hsound, hman⟩
    · simp only [ManuallyActive, hc]
      refine ⟨hsound.rollback _, fun t => ?_⟩
      -- the target was not active before the event
      rw [RtbhController.origins_rollback, Traced.update_mgr]
      simp only [RtbhManager.setController, ho, Function.update_idem,
        ← hnone, Function.update_eq_self]
  · have hc := executeAll_withdraws_controller env mono wall [ev.target]
      (s.update (.setController (s.mgr.controller.onEvent ev mono).2))
    simp only [List.map_cons, List.map_nil] at hc
    simp only [hact, ManuallyActive, hc]
    exact ⟨hsound, hman⟩

/-- Nor does a tick. -/
theorem Standing.tick (h : Standing config s)
    (ord : IterOrder (Sigma fun _ : IpAddr => ActiveEntry))
    (mono wall : Nat) :
    Standing config (tick env ord mono wall s)
      ∧ ∀ t, ManuallyActive (tick env ord mono wall s) t
        ↔ ManuallyActive s t := by
  suffices hc : (Rtbh.tick env ord mono wall s).mgr.controller
      = (s.mgr.controller.tick ord mono).2 by
    refine ⟨h.of_step env (.tick ord mono wall) rfl ?_, fun t => ?_⟩
    · show (Rtbh.tick env ord mono wall s).mgr.controller.Sound config
      rw [hc]
      exact h.sound.eraseAll _
    · rw [ManuallyActive, hc]
      exact h.sound.tick_manual ord mono t
  have hc := (retryPendingReapply_frame env (retryPendingMirror env s)).1
  rw [(retryPendingMirror_frame env s).1] at hc
  unfold Rtbh.tick
  simp only [RtbhController.tick_actions,
    executeAll_withdraws_controller]
  rw [Traced.update_mgr, RtbhManager.setController, hc]

/-- A remove takes its target down and nothing else. -/
theorem Standing.applyRemove (h : Standing config s) (t : IpAddr)
    (mono wall : Nat) :
    Standing config (applyRemove env t mono wall s)
      ∧ (applyRemove env t mono wall s).mgr.controller.origins
        = Function.update s.mgr.controller.origins t none := by
  have hsound := h.sound.manualRemove t
  have hc : (Rtbh.applyRemove env t mono wall s).mgr.controller
      = (s.mgr.controller.manualRemove t).2 := by
    unfold Rtbh.applyRemove
    rcases RtbhController.manualRemove_cases s.mgr.controller t with
      ⟨-, hact, -⟩ | ⟨-, hact, -⟩
    · simp only [hact, executeAll, run_nil]
      rfl
    · simp only [hact]
      exact executeAll_withdraws_controller env mono wall [t] _
  refine ⟨h.of_step env (.applyRemove t mono wall) rfl ?_, ?_⟩
  · show (Rtbh.applyRemove env t mono wall s).mgr.controller.Sound config
    rw [hc]
    exact hsound
  · rw [hc]
    rcases RtbhController.manualRemove_cases s.mgr.controller t with
      ⟨hnone, -, ho⟩ | ⟨-, -, ho⟩
    · rw [ho, ← hnone, Function.update_eq_self]
    · exact ho

/-- `apply_add` answers `Applied` and the target is manual, or it answers
otherwise, the target is not active and nothing has changed; it rejects
only what the policy keeps out. -/
theorem Standing.applyAdd (h : Standing config s) (t : IpAddr)
    (mono wall : Nat) :
    let r := applyAdd env t mono wall s
    Standing config r.2
      ∧ ((r.1 = .applied ∧ r.2.mgr.controller.origins
          = Function.update s.mgr.controller.origins t (some .manual))
        ∨ (r.1 ≠ .applied ∧ s.mgr.controller.origins t = none
          ∧ r.2.mgr.controller.origins = s.mgr.controller.origins
          ∧ ∀ reason, r.1 = .rejected reason →
            s.mgr.controller.mitigable t = false)) := by
  simp only
  suffices hc : (Rtbh.applyAdd env t mono wall
        s).2.mgr.controller.Sound config
      ∧ _ from ⟨h.of_step env (.applyAdd t mono wall) rfl hc.1, hc.2⟩
  have hsound := h.sound.manualAdd t mono
  cases applyAdd_adds env t mono wall s with
  | upgraded held acts origins active result =>
      rw [result, (mirror_frame env _ _).1]
      exact ⟨hsound, Or.inl ⟨rfl, origins⟩⟩
  | declined free origins out why state =>
      rw [state]
      refine ⟨hsound, Or.inr ⟨out, free, origins, fun reason hr => ?_⟩⟩
      have hpol : (added t mono s).mgr.controller.mitigable t
          = s.mgr.controller.mitigable t :=
        RtbhController.mitigable_congr
          (hsound.policy.trans h.sound.policy.symm) t
      rw [← hpol, RtbhController.mitigable]
      rcases why reason hr with hp | he | hn
      · rw [hp, Bool.not_true, Bool.and_false, Bool.false_and]
      · rw [he, Bool.false_and, Bool.false_and]
      · rw [hn, Bool.and_false]
  | inserted route x free acts net origins exec out why state =>
      have harm := executeAndJournalAnnounce_armed env t route .manual
        mono wall (s := added t mono s) h.armed
      have hctl := executeAndJournalAnnounce_controller env t route
        .manual mono wall (added t mono s)
      rw [← exec] at harm
      simp only [← exec] at hctl
      rw [state]
      rcases hctl with ⟨hout, hc⟩ | ⟨hout, hc⟩
      · rw [hc]
        exact ⟨hsound, Or.inl ⟨out.mpr hout, origins⟩⟩
      · -- rolled back
        rw [hc]
        refine ⟨hsound.rollback t, Or.inr ⟨fun happ => hout (out.mp happ),
          free, ?_, fun reason hr => absurd (why reason hr) harm⟩⟩
        rw [RtbhController.origins_rollback, origins,
          Function.update_idem, ← free, Function.update_eq_self]

end Steps

end Blackwall.Rtbh
