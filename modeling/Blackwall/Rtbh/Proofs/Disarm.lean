/-
The kill switch of the RTBH manager: one-way and complete.

`Off` is a disarmed manager with nothing active. The sweep of `disarm`
reaches it from any armed state, and every entry point keeps it without
an announce going out: an insert passes the disarm gate first and is
rolled back there, and with nothing active there is no upgrade to report,
no re-announce to retry and no entry to withdraw.
-/
import Blackwall.Rtbh.Proofs.Manager

namespace Blackwall.Rtbh

open Base
open Traced (Avoids)
open Blackwall.Flow (DetectionEvent)

/-- Is this an announce? -/
def Call.isAnnounce : Call → Bool
  | .announce _ => true
  | _ => false

/-- Disarmed, with nothing active. -/
structure Off (s : Sys) : Prop where
  disarmed : s.mgr.disarmed = true
  empty : ∀ t, s.mgr.controller.origins t = none

/-- From `s` the manager gets to `s'`, off, without an announce. -/
structure Rests (s s' : Sys) : Prop where
  off : Off s'
  quiet : Avoids Call.isAnnounce s s'

theorem Rests.trans {s s' s'' : Sys} (h : Rests s s') (h' : Rests s' s'') :
    Rests s s'' :=
  ⟨h'.off, h.quiet.trans h'.quiet⟩

theorem Off.congr {s s' : Sys} (h : Off s)
    (hdis : s'.mgr.disarmed = s.mgr.disarmed)
    (hctl : s'.mgr.controller.origins = s.mgr.controller.origins) :
    Off s' := by
  refine ⟨hdis.trans h.disarmed, fun t => ?_⟩
  rw [hctl]
  exact h.empty t

-- ============================================================ the switch

section Switch

variable (env : Outcomes Call)

theorem mirror_disarmed (op : MirrorOp) (s : Sys) :
    (mirror env op s).mgr.disarmed = s.mgr.disarmed :=
  Mirror.Queue.write_frame (f := RtbhManager.disarmed) (fun _ _ => rfl) op s

theorem executeAndJournalAnnounce_disarmed (t : IpAddr)
    (route : Bgp.Route) (o : BlackholeOrigin) (mono wall : Nat) (s : Sys) :
    (executeAndJournalAnnounce env t route o mono wall s).2.mgr.disarmed
      = s.mgr.disarmed := by
  have hbgp : (announceOnBgp env t route mono s).2.mgr.disarmed
      = s.mgr.disarmed := by
    unfold announceOnBgp
    simp only
    repeat' split
    all_goals rfl
  unfold executeAndJournalAnnounce
  split
  · next s' heq =>
    rw [heq] at hbgp
    exact (mirror_disarmed env _ s').trans hbgp
  · next heq =>
    rw [heq] at hbgp
    exact hbgp

theorem executeAll_disarmed (mono wall : Nat) (actions : List RtbhAction)
    (s : Sys) :
    (executeAll env mono wall actions s).mgr.disarmed = s.mgr.disarmed := by
  refine run_invariant (P := fun s' : Sys =>
    s'.mgr.disarmed = s.mgr.disarmed) (fun s' a h => ?_) actions rfl
  cases a with
  | announce route =>
      exact (executeAndJournalAnnounce_disarmed ..).trans h
  | withdraw net =>
      simp only [executeAndJournal]
      split
      · exact (mirror_disarmed ..).trans h
      · exact h

theorem retryPendingReapply_disarmed (s : Sys) :
    (retryPendingReapply env s).mgr.disarmed = s.mgr.disarmed := by
  refine run_invariant (P := fun s' : Sys =>
    s'.mgr.disarmed = s.mgr.disarmed) (fun s' op h => ?_) _ rfl
  unfold retryReapply
  simp only
  repeat' split
  all_goals exact h

theorem retryPendingMirror_disarmed (s : Sys) :
    (retryPendingMirror env s).mgr.disarmed = s.mgr.disarmed :=
  Mirror.Queue.retryAll_frame (f := RtbhManager.disarmed)
    (fun _ _ => rfl) s

/-- Nothing but `disarm` throws the switch. -/
theorem enter_disarmed {e : Entry} (he : e.isDisarm = false) (s : Sys) :
    (enter env e s).mgr.disarmed = s.mgr.disarmed := by
  cases e with
  | rehydrate rows mono =>
      refine run_invariant (P := fun s' : Sys =>
        s'.mgr.disarmed = s.mgr.disarmed) (fun s' row h => ?_) rows rfl
      unfold rehydrateRow
      simp only
      repeat' split
      all_goals exact h
  | op op =>
      cases op with
      | applyEvent ev mono wall => exact executeAll_disarmed ..
      | applyRemove t mono wall => exact executeAll_disarmed ..
      | tick ord mono wall =>
          refine (executeAll_disarmed ..).trans ?_
          exact (retryPendingReapply_disarmed env _).trans
            (retryPendingMirror_disarmed env s)
      | disarm ord => cases he
      | applyAdd t mono wall =>
          rw [enter, step]
          cases applyAdd_adds env t mono wall s with
          | upgraded held acts origins active result =>
              rw [result]
              exact mirror_disarmed ..
          | declined free origins out why state => rw [state]; rfl
          | inserted route x free acts net origins exec out why state =>
              rw [state, exec]
              exact executeAndJournalAnnounce_disarmed ..

end Switch

-- ================================================================ the sweep

section Sweep

variable (env : Outcomes Call)

/-- One target of the sweep: it is not active afterwards, and no other
became so. -/
theorem disarmTarget_effect (t : IpAddr) (s : Sys) :
    (disarmTarget env t s).mgr.disarmed = s.mgr.disarmed
      ∧ (disarmTarget env t s).mgr.controller.origins
        = Function.update s.mgr.controller.origins t none := by
  unfold disarmTarget
  rcases RtbhController.manualRemove_cases s.mgr.controller t with
    ⟨hnone, hact, horg⟩ | ⟨-, hact, horg⟩
  · simp only [hact, run_nil]
    refine ⟨rfl, ?_⟩
    change (s.mgr.controller.manualRemove t).2.origins = _
    rw [horg, ← hnone, Function.update_eq_self]
  · simp only [hact, run_cons, run_nil]
    exact ⟨rfl, horg⟩

/-- The sweep of an armed manager leaves it off. -/
theorem disarm_off
    (ord : IterOrder (Sigma fun _ : IpAddr => ActiveEntry)) {s : Sys}
    (h : s.mgr.disarmed = false) : Off (disarm env ord s) := by
  unfold disarm
  simp only [h, Bool.false_eq_true, if_false]
  refine ⟨?_, run_sweep id
    (fun s : Sys => s.mgr.controller.origins)
    _ (fun t _ s => (disarmTarget_effect env t s).2) fun t ht => ?_⟩
  · exact run_invariant (P := fun s : Sys => s.mgr.disarmed = true)
      (fun s t hs => (disarmTarget_effect env t s).1.trans hs) _ rfl
  rw [RtbhController.origins_eq_none]
  intro hact
  refine ht ?_
  obtain ⟨e, he⟩ := Option.isSome_iff_exists.mp
    (AList.lookup_isSome.mpr hact)
  simp only [RtbhController.activeBlackholes, List.map_map,
    List.mem_map, IterOrder.mem_iff]
  exact ⟨⟨t, e⟩, Dict.mem_entries_iff.mpr he, rfl⟩

end Sweep

-- ========================================================= after the sweep

section After

variable {env : Outcomes Call} {s : Sys}

/-- An insert stops at the gate and is rolled back. -/
theorem gated (env : Outcomes Call) {t : IpAddr} (route : Bgp.Route)
    (o : BlackholeOrigin) (mono wall : Nat) {c : RtbhController}
    {x : Option BlackholeOrigin} (h : Off s)
    (hc : c.origins = Function.update s.mgr.controller.origins t x) :
    (executeAndJournalAnnounce env t route o mono wall
        (s.update (.setController c))).1 = .disarmed
      ∧ Rests s (executeAndJournalAnnounce env t route o mono wall
        (s.update (.setController c))).2 := by
  have hd : (s.update (.setController c)).mgr.disarmed = true := h.disarmed
  simp only [executeAndJournalAnnounce, announceOnBgp, hd, if_true]
  refine ⟨trivial, ⟨h.disarmed, fun t' => ?_⟩, .refl s⟩
  change (c.rollback t).origins t' = none
  rw [RtbhController.origins_rollback, hc, Function.update_idem,
    Function.update_apply]
  split
  · rfl
  · exact h.empty t'

theorem Off.unmoved {c : RtbhController} (h : Off s)
    (hc : c.origins = s.mgr.controller.origins) :
    Rests s (s.update (.setController c)) :=
  ⟨h.congr rfl hc, .update _ s⟩

theorem Off.applyEvent {ev : DetectionEvent} {mono wall : Nat}
    (h : Off s) : Rests s (applyEvent env ev mono wall s) := by
  unfold Rtbh.applyEvent
  rcases RtbhController.onEvent_cases s.mgr.controller ev mono with
    ⟨hact, horg⟩ | ⟨route, hact, hnet, -, horg⟩ | ⟨-, hheld, -⟩
  · simp only [hact, executeAll, run_nil]
    exact h.unmoved horg
  · simp only [hact, executeAll, run_cons, run_nil, executeAndJournal]
    refine (gated env route .auto mono wall (x := some .auto) h ?_).2
    rw [hnet, addr_hostPrefix]
    exact horg
  · exact absurd (h.empty _) hheld

theorem Off.applyAdd {t : IpAddr} {mono wall : Nat} (h : Off s) :
    (applyAdd env t mono wall s).1 ≠ .applied
      ∧ Rests s (applyAdd env t mono wall s).2 := by
  cases applyAdd_adds env t mono wall s with
  | upgraded held acts origins active result =>
      exact absurd (h.empty t) held
  | declined free origins out why state =>
      rw [state]
      exact ⟨out, h.unmoved origins⟩
  | inserted route x free acts net origins exec out why state =>
      obtain ⟨hout, hrest⟩ : x.1 = .disarmed ∧ Rests s x.2 := by
        rw [exec]
        exact gated env route .manual mono wall h origins
      rw [state]
      refine ⟨fun happ => ?_, hrest⟩
      rw [out.mp happ] at hout
      cases hout

theorem Off.applyRemove {t : IpAddr} {mono wall : Nat} (h : Off s) :
    Rests s (applyRemove env t mono wall s) := by
  unfold Rtbh.applyRemove
  rcases RtbhController.manualRemove_cases s.mgr.controller t with
    ⟨-, hact, horg⟩ | ⟨hheld, -⟩
  · simp only [hact, executeAll, run_nil]
    exact h.unmoved horg
  · exact absurd (h.empty _) hheld

/-- Every queued re-announce is of a target that is active no longer. -/
theorem Off.retryPendingReapply (h : Off s) :
    Rests s (retryPendingReapply env s) := by
  obtain ⟨hoff, hquiet⟩ := Avoids.loop Call.isAnnounce
    (retryReapply env) (P := Off) s.mgr.pendingReapply
    (fun s' op _ hs' => by
      have hidle : s'.mgr.isActive op.target = false := by
        rw [RtbhManager.isActive, decide_eq_false_iff_not,
          ← RtbhController.origins_eq_none]
        exact hs'.empty _
      simp only [retryReapply, hidle, Bool.false_eq_true, if_false]
      exact ⟨hs', .refl s'⟩)
    (s := s.update fun m => { m with pendingReapply := [] })
    (h.congr rfl rfl)
  exact ⟨hoff, hquiet⟩

theorem Off.tick
    {ord : IterOrder (Sigma fun _ : IpAddr => ActiveEntry)}
    {mono wall : Nat} (h : Off s) : Rests s (tick env ord mono wall s) := by
  have hmirror : Rests s (retryPendingMirror env s) := by
    refine ⟨h.congr (retryPendingMirror_disarmed env s) ?_,
      Mirror.Queue.retryAll_avoids (fun w => ?_) s⟩
    · rw [(retryPendingMirror_frame env s).1]
    · cases w <;> rfl
  have hboth : Rests s
      (Rtbh.retryPendingReapply env (retryPendingMirror env s)) :=
    hmirror.trans hmirror.off.retryPendingReapply
  unfold Rtbh.tick
  generalize Rtbh.retryPendingReapply env (retryPendingMirror env s) = s'
    at hboth ⊢
  -- with nothing active, nothing is due
  have hgone : s'.mgr.controller.expired ord mono = [] := by
    refine List.eq_nil_iff_forall_not_mem.mpr fun t ht => ?_
    exact RtbhController.expired_active ht (hboth.off.empty t)
  simp only [RtbhController.tick_actions, hgone, List.map_nil, executeAll,
    run_nil]
  refine hboth.trans (hboth.off.unmoved (funext fun t => ?_))
  rw [RtbhController.tick_origins, hgone]
  rfl

/-- Every entry point of a manager that is off. -/
theorem Off.step {op : Op} (h : Off s) : Rests s (step env op s) := by
  cases op with
  | applyEvent ev mono wall => exact h.applyEvent
  | applyAdd t mono wall => exact h.applyAdd.2
  | applyRemove t mono wall => exact h.applyRemove
  | tick ord mono wall => exact h.tick
  | disarm ord =>
      simp only [Rtbh.step, disarm, h.disarmed, if_true]
      exact ⟨h, .refl s⟩

end After

-- ============================================================= whole lives

/-- What the kill switch promises of a later state `s'`: nothing is
active, no announce has gone out since `s`, and no add is reported
applied. -/
structure Silenced (env : Outcomes Call) (s s' : Sys) : Prop where
  inactive : s'.mgr.controller.active.entries = []
  quiet : Avoids Call.isAnnounce s s'
  refused : ∀ t mono wall, (applyAdd env t mono wall s').1 ≠ .applied

theorem Rests.silenced {env : Outcomes Call} {s s' : Sys}
    (h : Rests s s') : Silenced env s s' := by
  refine ⟨Dict.entries_eq_nil fun t => ?_, h.quiet, fun t mono wall => ?_⟩
  · have := h.off.empty t
    rwa [RtbhController.origins, Option.map_eq_none_iff] at this
  · exact h.off.applyAdd.1

/-- The kill switch of a manager: whatever came before it, afterwards
nothing is active, no announce goes out, no add is reported applied. -/
theorem disarmed_for_good (env : Outcomes Call) (config : RtbhConfig)
    (lim : Bool) (before : List Entry)
    (hbefore : ∀ e ∈ before, e.isDisarm = false)
    (ord : IterOrder (Sigma fun _ : IpAddr => ActiveEntry))
    (after : List Op) :
    Silenced env (disarm env ord (run (enter env) (start config lim) before))
      (run (step env)
        (disarm env ord (run (enter env) (start config lim) before))
        after) := by
  obtain ⟨hoff, hquiet⟩ := Avoids.latched Call.isAnnounce
    (P := fun s : Sys => s.mgr.disarmed = false) (Q := Off) after
    (fun s e he => (enter_disarmed env (hbefore e he) s).trans)
    (fun s => disarm_off env ord)
    (fun s op hs => ⟨hs.step.off, hs.step.quiet⟩)
    (show (start config lim).mgr.disarmed = false from rfl)
  exact Rests.silenced ⟨hoff, hquiet⟩

end Blackwall.Rtbh
