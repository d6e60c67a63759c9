/-
The kill switch of the XDP manager: one-way and complete.

The argument is the RTBH manager's (`Rtbh.Proofs.Disarm`). Only installs
are gated here: a removal still goes to the executor after the switch, so
what the calls avoid is blocks and rate limits.
-/
import Blackwall.XdpPlane.Proofs.Agree

namespace Blackwall.XdpPlane

open Base
open Traced (Avoids)
open XdpController (Hands)
open Blackwall.Flow (DetectionEvent)

/-- Is this a block or a rate limit? -/
def Call.isInstall : Call → Bool
  | .apply a => a.isInstall
  | .record .. => false

/-- Disarmed, with nothing active. -/
structure Off (s : Sys) : Prop where
  disarmed : s.mgr.disarmed = true
  empty : ∀ k, s.mgr.controller.entryAt k = none

/-- From `s` the manager gets to `s'`, off, without an install. -/
structure Rests (s s' : Sys) : Prop where
  off : Off s'
  quiet : Avoids Call.isInstall s s'

theorem Rests.trans {s s' s'' : Sys} (h : Rests s s') (h' : Rests s' s'') :
    Rests s s'' :=
  ⟨h'.off, h.quiet.trans h'.quiet⟩

theorem Off.congr {s s' : Sys} (h : Off s)
    (hdis : s'.mgr.disarmed = s.mgr.disarmed)
    (hctl : s'.mgr.controller.entryAt = s.mgr.controller.entryAt) :
    Off s' := by
  refine ⟨hdis.trans h.disarmed, fun k => ?_⟩
  rw [hctl]
  exact h.empty k

-- ============================================================ the switch

section Switch

variable (env : Outcomes Call)

/-- Nothing but `disarm` throws the switch. -/
theorem enter_disarmed {e : Entry} (he : e.isDisarm = false) (s : Sys) :
    (enter env e s).mgr.disarmed = s.mgr.disarmed := by
  cases e with
  | reapplyActive rows =>
      refine run_invariant (P := fun s' : Sys =>
        s'.mgr.disarmed = s.mgr.disarmed) (fun s' row h => ?_) rows rfl
      unfold reapplyRow
      simp only
      split
      all_goals exact h
  | op op =>
      refine step_disarmed env ?_ s
      cases op <;> first | rfl | cases he

end Switch

-- ================================================================ the sweep

section Sweep

variable (env : Outcomes Call)

theorem disarmEntry_disarmed (a : XdpAction) (s : Sys) :
    (disarmEntry env a s).mgr.disarmed = s.mgr.disarmed := by
  cases a <;> rfl

/-- One entry of the sweep: nothing is under its key afterwards. -/
theorem entryAt_disarmEntry {a : XdpAction} (ha : a.isInstall = true)
    (s : Sys) :
    (disarmEntry env a s).mgr.controller.entryAt
      = Function.update s.mgr.controller.entryAt (mirrorKeyOf a) none := by
  cases a with
  | rateLimit src pps burst victim =>
      exact XdpController.entryAt_manualClearRate src _
  | block net => exact XdpController.entryAt_manualUnblock net _
  | unblock net => cases ha
  | clearRate src => cases ha

/-- `active_entries` lists an install for every entry. -/
theorem activeEntries_complete
    (ordRate : IterOrder (Sigma fun _ : IpAddr => RateLimitEntry))
    (ordBlock : IterOrder (Sigma fun _ : IpNet => XdpOrigin))
    (c : XdpController) :
    (∀ a ∈ (c.activeEntries ordRate ordBlock).map (·.1),
        a.isInstall = true)
      ∧ ∀ k, k ∉ ((c.activeEntries ordRate ordBlock).map (·.1)).map
        mirrorKeyOf → c.entryAt k = none := by
  constructor
  · intro a ha
    simp only [XdpController.activeEntries, List.map_append, List.map_map,
      List.mem_append, List.mem_map] at ha
    rcases ha with ⟨e, -, rfl⟩ | ⟨e, -, rfl⟩ <;> rfl
  · intro k hk
    by_contra hheld
    refine hk ?_
    simp only [XdpController.activeEntries, List.map_append, List.map_map,
      List.mem_append, List.mem_map, IterOrder.mem_iff]
    cases k with
    | src a =>
        cases he : c.rateLimited.lookup a with
        | none => simp [XdpController.entryAt, he] at hheld
        | some e =>
            exact .inl ⟨⟨a, e⟩, Dict.mem_entries_iff.mpr he, rfl⟩
    | net n =>
        cases he : c.blockedNets.lookup n with
        | none => simp [XdpController.entryAt, he] at hheld
        | some o =>
            exact .inr ⟨⟨n, o⟩, Dict.mem_entries_iff.mpr he, rfl⟩

/-- The sweep of an armed manager leaves it off. -/
theorem disarm_off
    (ordRate : IterOrder (Sigma fun _ : IpAddr => RateLimitEntry))
    (ordBlock : IterOrder (Sigma fun _ : IpNet => XdpOrigin)) {s : Sys}
    (h : s.mgr.disarmed = false) :
    Off (disarm env ordRate ordBlock s) := by
  unfold disarm
  simp only [h, Bool.false_eq_true, if_false]
  obtain ⟨hinst, hall⟩ :=
    activeEntries_complete ordRate ordBlock s.mgr.controller
  refine ⟨?_, run_sweep mirrorKeyOf
    (fun s : Sys => s.mgr.controller.entryAt) _
    (fun a ha s => entryAt_disarmEntry env (hinst a ha) s) hall⟩
  exact run_invariant (P := fun s : Sys => s.mgr.disarmed = true)
    (fun s a hs => (disarmEntry_disarmed env a s).trans hs) _ rfl

end Sweep

-- ========================================================= after the sweep

section After

variable {env : Outcomes Call} {s : Sys}

/-- A new install stops at the gate and is rolled back. -/
theorem gated (env : Outcomes Call) {a : XdpAction} (o : XdpOrigin)
    (wall : Nat) (hd : s.mgr.disarmed = true) (ha : a.isInstall = true) :
    (executeAndJournal env a o wall true s).1 = .disarmed
      ∧ (executeAndJournal env a o wall true s).2.mgr.controller
        = s.mgr.controller.rollback a
      ∧ (executeAndJournal env a o wall true s).2.log = s.log := by
  simp only [executeAndJournal, applyOnMaps, hd, ha, Bool.and_self, if_true]
  exact ⟨trivial, rfl, rfl⟩

/-- A removal reaches the executor, and takes nothing back when it
fails. -/
theorem removed (env : Outcomes Call) {a : XdpAction} (o : XdpOrigin)
    (wall : Nat) (fresh : Bool) (ha : a.isInstall = false) :
    (executeAndJournal env a o wall fresh s).2.mgr.controller
        = s.mgr.controller
      ∧ Avoids Call.isInstall s
        (executeAndJournal env a o wall fresh s).2 := by
  have hcall : Avoids Call.isInstall s (s.call env (.apply a)) :=
    Avoids.call (show Call.isInstall (.apply a) = false from ha) s
  unfold executeAndJournal applyOnMaps
  simp only [ha, Bool.and_false, Bool.false_eq_true, if_false]
  cases hok : s.outcome env (.apply a) with
  | true =>
      simp only [if_true]
      refine ⟨(mirror_frame env _ _).1, hcall.trans ?_⟩
      exact Mirror.Queue.write_avoids (fun _ => rfl) _ _
  | false =>
      simp only [Bool.false_eq_true, if_false]
      refine ⟨?_, hcall⟩
      change (if fresh then s.mgr.controller.rollback a
        else s.mgr.controller) = _
      rw [XdpController.rollback_removal ha]
      split <;> rfl

/-- A transition of one action, as the manual entry points make it. -/
theorem Off.single {a : XdpAction} {c : XdpController} {o : XdpOrigin}
    {wall : Nat} {fresh : Bool} (h : Off s)
    (hc : c.entryAt
      = Function.update s.mgr.controller.entryAt (mirrorKeyOf a) a.entry)
    (hf : a.isInstall = true → fresh = true) :
    ((executeAndJournal env a o wall fresh
          (s.update (.setController c))).1 = .applied →
        a.isInstall = false)
      ∧ Rests s (executeAndJournal env a o wall fresh
        (s.update (.setController c))).2 := by
  have hd : (s.update (.setController c)).mgr.disarmed = true := h.disarmed
  have hkept := executeAndJournal_disarmed env a o wall fresh
    (s.update (.setController c))
  cases ha : a.isInstall with
  | true =>
      cases hf ha
      obtain ⟨hout, hctl, hlog⟩ :=
        gated env o wall hd ha
      refine ⟨fun h' => ?_, ⟨hkept.trans hd, fun k => ?_⟩, [], ?_, ?_⟩
      · rw [hout] at h'
        cases h'
      · rw [hctl, XdpController.entryAt_rollback ha]
        change Function.update c.entryAt (mirrorKeyOf a) none k = none
        rw [hc, Function.update_idem, Function.update_apply]
        split
        · rfl
        · exact h.empty k
      · rw [hlog, List.append_nil]
        rfl
      · exact fun x hx => absurd hx List.not_mem_nil
  | false =>
      obtain ⟨hctl, hquiet⟩ := removed env o wall fresh
        (s := s.update (.setController c)) ha
      refine ⟨fun _ => rfl, ⟨hkept.trans hd, fun k => ?_⟩, hquiet⟩
      have hnone : a.entry = none := by
        rw [← Option.not_isSome_iff_eq_none, a.entry_isSome, ha]
        exact Bool.false_ne_true
      rw [hctl]
      change c.entryAt k = none
      rw [hc, hnone, Function.update_apply]
      split
      · rfl
      · exact h.empty k

theorem Off.installs {a : XdpAction} {wall : Nat} {r : ApplyOutcome × Sys}
    (h : Off s) (ha : a.isInstall = true) (hr : Installs env a wall s r) :
    r.1 ≠ .applied ∧ Rests s r.2 := by
  cases hr with
  | refused same out =>
      rw [same]
      exact ⟨out, h, .refl s⟩
  | executed c x entry exec state out =>
      have hfresh : (!(s.mgr.controller.entryAt (mirrorKeyOf a)).isSome)
          = true := by
        rw [h.empty]
        rfl
      rw [hfresh] at exec
      obtain ⟨hout, hrest⟩ : (x.1 = .applied → a.isInstall = false)
          ∧ Rests s x.2 := by
        rw [exec]
        exact h.single entry fun _ => rfl
      rw [state]
      refine ⟨fun happ => ?_, hrest⟩
      rw [hout (out.mp happ)] at ha
      cases ha

/-- Executing the actions of a detection on a disarmed manager: only keys
of installs still to be rolled back hold anything. -/
theorem executed_rests (env : Outcomes Call) (wall : Nat)
    (acts : List XdpAction) : ∀ {s : Sys}, s.mgr.disarmed = true →
      (∀ k, (∀ a ∈ acts, a.isInstall = true → mirrorKeyOf a ≠ k) →
        s.mgr.controller.entryAt k = none) →
      Rests s (run (fun action s =>
        (executeAndJournal env action .auto wall true s).2) s acts) := by
  induction acts with
  | nil =>
      intro s hd hk
      refine ⟨⟨hd, fun k => hk k ?_⟩, .refl s⟩
      exact fun a ha => absurd ha List.not_mem_nil
  | cons a acts ih =>
      intro s hd hk
      have hkept := executeAndJournal_disarmed env a .auto wall true s
      cases ha : a.isInstall with
      | true =>
          obtain ⟨-, hctl, hlog⟩ := gated env .auto wall hd ha
          have hrest := ih (hkept.trans hd) fun k hne => by
            rw [hctl, XdpController.entryAt_rollback ha,
              Function.update_apply]
            split
            · rfl
            · next hka =>
              refine hk k fun b hb hi => ?_
              rcases List.mem_cons.mp hb with rfl | hb
              · exact Ne.symm hka
              · exact hne b hb hi
          obtain ⟨added, hadded, hbad⟩ := hrest.quiet
          exact ⟨hrest.off, added, by rw [← hlog]; exact hadded, hbad⟩
      | false =>
          obtain ⟨hctl, hquiet⟩ := removed env .auto wall true
            (s := s) ha
          have hrest := ih (hkept.trans hd) fun k hne => by
            rw [hctl]
            refine hk k fun b hb hi => ?_
            rcases List.mem_cons.mp hb with rfl | hb
            · rw [ha] at hi
              cases hi
            · exact hne b hb hi
          exact ⟨hrest.off, hquiet.trans hrest.quiet⟩

/-- A detection: what it installs is rolled back source by source. -/
theorem Off.onDetection {ord : IterOrder IpAddr} {ev : DetectionEvent}
    {wall : Nat} (h : Off s) :
    Rests s (onDetection env ord ev wall s) := by
  have hh := XdpController.onDetection_hands ord ev s.mgr.controller
  have hrest := executed_rests env wall
    (s.mgr.controller.onDetection ord ev).1
    (s := s.update
      (.setController (s.mgr.controller.onDetection ord ev).2))
    h.disarmed fun k hne => by
      change (s.mgr.controller.onDetection ord ev).2.entryAt k = none
      by_cases hk : k ∈ (s.mgr.controller.onDetection ord ev).1.map
          mirrorKeyOf
      · obtain ⟨a, ha, rfl⟩ := List.mem_map.mp hk
        rw [hh.handed a ha, ← Option.not_isSome_iff_eq_none,
          a.entry_isSome]
        exact fun hi => hne a ha hi rfl
      · rw [hh.other k hk]
        exact h.empty k
  exact ⟨hrest.off, hrest.quiet⟩

/-- Every queued re-apply is of an entry that is active no longer. -/
theorem Off.tick (h : Off s) : Rests s (tick env s) := by
  obtain ⟨hctl, -, hdis, -⟩ := retryPendingMirror_frame env s
  have hmirror : Rests s (retryPendingMirror env s) :=
    ⟨h.congr hdis (by rw [hctl]),
      Mirror.Queue.retryAll_avoids (fun _ => rfl) s⟩
  obtain ⟨hoff, hquiet⟩ := Avoids.loop Call.isInstall
    (retryReapply env) (P := Off)
    (retryPendingMirror env s).mgr.pendingReapply
    (fun s' op _ hs' => by
      have hgone : currentAction op.key s'.mgr.controller = none := by
        have hk := hs'.empty op.key
        cases hkey : op.key with
        | src a =>
            rw [hkey, XdpController.entryAt, Option.map_eq_none_iff] at hk
            rw [currentAction, XdpController.currentRateLimit, hk]
            rfl
        | net n =>
            rw [hkey, XdpController.entryAt, Option.map_eq_none_iff] at hk
            rw [currentAction, XdpController.currentBlock, hk]
            rfl
      simp only [retryReapply, hgone]
      exact ⟨hs', .refl s'⟩)
    (s := (retryPendingMirror env s).update fun m =>
      { m with pendingReapply := [] })
    (hmirror.off.congr rfl rfl)
  exact hmirror.trans ⟨hoff, hquiet⟩

/-- Every entry point of a manager that is off. -/
theorem Off.step {op : Op} (h : Off s) : Rests s (step env op s) := by
  cases op with
  | onDetection ord ev wall => exact h.onDetection
  | applyAdd net wall => exact (h.installs rfl (applyAdd_installs ..)).2
  | applyRemove net wall =>
      exact (h.single (XdpController.entryAt_manualUnblock net _)
        fun hi => by cases hi).2
  | applyRateLimit src pps burst wall =>
      exact (h.installs rfl (applyRateLimit_installs ..)).2
  | applyClearRate src wall =>
      exact (h.single (XdpController.entryAt_manualClearRate src _)
        fun hi => by cases hi).2
  | tick => exact h.tick
  | disarm ordRate ordBlock =>
      simp only [XdpPlane.step, disarm, h.disarmed, if_true]
      exact ⟨h, .refl s⟩

end After

-- ============================================================= whole lives

/-- What the kill switch promises of a later state `s'`: nothing is
active, no block or rate limit has gone out since `s`, and none is
reported applied. -/
structure Silenced (env : Outcomes Call) (s s' : Sys) : Prop where
  unlimited : s'.mgr.controller.rateLimited.entries = []
  unblocked : s'.mgr.controller.blockedNets.entries = []
  quiet : Avoids Call.isInstall s s'
  blockRefused : ∀ net wall, (applyAdd env net wall s').1 ≠ .applied
  limitRefused : ∀ src pps burst wall,
    (applyRateLimit env src pps burst wall s').1 ≠ .applied

theorem Rests.silenced {env : Outcomes Call} {s s' : Sys}
    (h : Rests s s') : Silenced env s s' := by
  refine ⟨Dict.entries_eq_nil fun a => ?_, Dict.entries_eq_nil fun n => ?_,
    h.quiet, fun _ _ => (h.off.installs rfl (applyAdd_installs ..)).1,
    fun _ _ _ _ => (h.off.installs rfl (applyRateLimit_installs ..)).1⟩
  · have := h.off.empty (.src a)
    rwa [XdpController.entryAt, Option.map_eq_none_iff] at this
  · have := h.off.empty (.net n)
    rwa [XdpController.entryAt, Option.map_eq_none_iff] at this

/-- The kill switch of a manager: whatever came before it, afterwards
nothing is active, no install goes out, none is reported applied. -/
theorem disarmed_for_good (env : Outcomes Call) (c : XdpController)
    (before : List Entry) (hbefore : ∀ e ∈ before, e.isDisarm = false)
    (ordRate : IterOrder (Sigma fun _ : IpAddr => RateLimitEntry))
    (ordBlock : IterOrder (Sigma fun _ : IpNet => XdpOrigin))
    (after : List Op) :
    Silenced env
      (disarm env ordRate ordBlock (run (enter env) (start c) before))
      (run (step env)
        (disarm env ordRate ordBlock (run (enter env) (start c) before))
        after) := by
  obtain ⟨hoff, hquiet⟩ := Avoids.latched Call.isInstall
    (P := fun s : Sys => s.mgr.disarmed = false) (Q := Off) after
    (fun s e he => (enter_disarmed env (hbefore e he) s).trans)
    (fun s => disarm_off env ordRate ordBlock)
    (fun s op hs => ⟨hs.step.off, hs.step.quiet⟩)
    (show (start c).mgr.disarmed = false from rfl)
  exact Rests.silenced ⟨hoff, hquiet⟩

end Blackwall.XdpPlane
