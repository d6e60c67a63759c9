/-
The executor's rules against the controller's, in-place updates included.

`install` changes every entry of an attack before the first announce goes
out, so between two announces the wire and the controller differ by the
actions still to be executed. `Agree acts` says exactly how: an announced
key holds the new rule with the wire's rule as its `prior` — which is why
a rollback restores what the wire has, and why a `pendingPrior` left
stale by a success is never restored: it is only read while its own
announce is still in `acts`. With no action left the two maps are equal.
-/
import Blackwall.FlowSpec.Proofs.Manager

namespace Blackwall.FlowSpec

open Base
open Bgp (FlowSpecRule)
open Rtbh (BlackholeOrigin)
open FlowSpecController (Hands)

/-- The wire agrees with the controller up to the actions `acts` still to
be executed. -/
structure Agree (acts : List FlowSpecAction) (s : Sys) : Prop where
  keyed : s.mgr.controller.Keyed
  idle : s.mgr.pendingReapply = []
  nodup : (acts.map FlowSpecAction.key).Nodup
  other : ∀ k, k ∉ acts.map FlowSpecAction.key →
    wire s k = s.mgr.controller.ruleAt k
  announced : ∀ r, .announce r ∈ acts →
    ∃ o, s.mgr.controller.held (keyOf r) = some ⟨r, o, wire s (keyOf r)⟩
  withdrawn : ∀ r, .withdraw r ∈ acts →
    s.mgr.controller.held (keyOf r) = none

theorem agree_start (config : FlowSpecConfig) (lim : Bool) :
    Agree [] (start config lim) := by
  refine ⟨FlowSpecController.keyed_new config, rfl, List.nodup_nil,
    fun k _ => rfl, ?_, ?_⟩
  · intro r hr
    exact absurd hr List.not_mem_nil
  · intro r hr
    exact absurd hr List.not_mem_nil

/-- `Agree` reads what the controller holds, the re-announce queue and
the wire. -/
theorem Agree.congr {acts : List FlowSpecAction} {s s' : Sys}
    (h : Agree acts s) (hctl : s'.mgr.controller = s.mgr.controller)
    (hre : s'.mgr.pendingReapply = s.mgr.pendingReapply)
    (hwire : wire s' = wire s) : Agree acts s' := by
  refine ⟨?_, hre.trans h.idle, h.nodup, ?_, ?_, ?_⟩
  · rw [hctl]
    exact h.keyed
  · rw [hctl, hwire]
    exact h.other
  · rw [hctl, hwire]
    exact h.announced
  · rw [hctl]
    exact h.withdrawn

theorem Agree.handed {org : Option BlackholeOrigin → BlackholeOrigin}
    {acts : List FlowSpecAction} {c : FlowSpecController} {s : Sys}
    (h : Agree [] s) (hh : Hands org s.mgr.controller acts c) :
    Agree acts (s.update (.setController c)) := by
  have hwire : ∀ k, wire s k = s.mgr.controller.ruleAt k :=
    fun k => h.other k List.not_mem_nil
  refine ⟨hh.keyed, h.idle, hh.nodup, fun k hk => ?_, fun r hr => ?_,
    fun r hr => (hh.withdrawn r hr).1⟩
  · change wire s k = c.ruleAt k
    rw [hwire, FlowSpecController.ruleAt, FlowSpecController.ruleAt,
      hh.other k hk]
  · refine ⟨org (s.mgr.controller.originAt (keyOf r)), ?_⟩
    rw [wire_update, hwire]
    exact hh.announced r hr

section Steps

variable {env : Outcomes Call} {acts : List FlowSpecAction} {s : Sys}

/-- The rest of the list is about other keys than its head. -/
theorem Agree.tail_ne {a b : FlowSpecAction} (h : Agree (a :: acts) s)
    (hb : b ∈ acts) : keyOf b.rule ≠ keyOf a.rule := by
  intro he
  have hnd := h.nodup
  rw [List.map_cons, List.nodup_cons] at hnd
  exact hnd.1 (List.mem_map.mpr ⟨b, hb, he⟩)

/-- One announce: on the wire, or rolled back to what the wire has. -/
theorem Agree.announce {r : FlowSpecRule} {now : Nat}
    (h : Agree (.announce r :: acts) s) :
    Agree acts (announceOnBgp env r now s).2 := by
  obtain ⟨o, hheld⟩ := h.announced r List.mem_cons_self
  have hnd := h.nodup
  rw [List.map_cons, List.nodup_cons] at hnd
  have hkeys : ∀ k, k ∉ acts.map FlowSpecAction.key → k ≠ keyOf r →
      k ∉ (FlowSpecAction.announce r :: acts).map FlowSpecAction.key := by
    intro k hk hne hmem
    rcases List.mem_cons.mp hmem with he | hmem
    · exact hne he
    · exact hk hmem
  rcases announceOnBgp_cases env r now s with
    ⟨-, hmgr, hwire, -⟩ | ⟨-, hctl, hre, hwire⟩
  · refine ⟨?_, ?_, hnd.2, fun k hk => ?_, fun r' hr' => ?_, fun r' hr' => ?_⟩
    · rw [hmgr]
      exact h.keyed
    · rw [hmgr]
      exact h.idle
    · rw [hwire, hmgr, Function.update_apply]
      split
      · next he => rw [he, FlowSpecController.ruleAt, hheld]; rfl
      · next hne => exact h.other k (hkeys k hk hne)
    · obtain ⟨o', ho'⟩ := h.announced r' (List.mem_cons_of_mem _ hr')
      have hne : keyOf r' ≠ keyOf r := h.tail_ne hr'
      refine ⟨o', ?_⟩
      rw [hmgr, hwire, Function.update_of_ne hne, ho']
    · rw [hmgr]
      exact h.withdrawn r' (List.mem_cons_of_mem _ hr')
  · -- the rolled-back key holds its prior rule, which is the wire's
    have hback : (announceOnBgp env r now s).2.mgr.controller.held
        = Function.update s.mgr.controller.held (keyOf r)
          ((wire s (keyOf r)).map fun p => ⟨p, o, none⟩) := by
      rw [hctl, FlowSpecController.held_rollback, hheld]
      rfl
    refine ⟨?_, hre.trans h.idle, hnd.2, fun k hk => ?_, fun r' hr' => ?_,
      fun r' hr' => ?_⟩
    · rw [hctl]
      exact h.keyed.rollback _
    · rw [hwire, FlowSpecController.ruleAt, hback, Function.update_apply]
      split
      · next he =>
        rw [he, Option.map_map]
        exact Option.map_id'.symm
      · next hne => exact h.other k (hkeys k hk hne)
    · obtain ⟨o', ho'⟩ := h.announced r' (List.mem_cons_of_mem _ hr')
      have hne : keyOf r' ≠ keyOf r := h.tail_ne hr'
      refine ⟨o', ?_⟩
      rw [hback, hwire, Function.update_of_ne hne, ho']
    · have hne : keyOf r' ≠ keyOf r := h.tail_ne hr'
      rw [hback, Function.update_of_ne hne]
      exact h.withdrawn r' (List.mem_cons_of_mem _ hr')

theorem Agree.withdraw {r : FlowSpecRule}
    (h : Agree (.withdraw r :: acts) s)
    (hok : s.outcome env (.withdrawFlowspec r) = true) :
    Agree acts (s.call env (.withdrawFlowspec r)) := by
  have hwire : wire (s.call env (.withdrawFlowspec r))
      = Function.update (wire s) (keyOf r) none := by
    rw [wire_call, hok]
    rfl
  have hnd := h.nodup
  rw [List.map_cons, List.nodup_cons] at hnd
  refine ⟨h.keyed, h.idle, hnd.2, fun k hk => ?_, fun r' hr' => ?_,
    fun r' hr' => h.withdrawn r' (List.mem_cons_of_mem _ hr')⟩
  · rw [hwire, Function.update_apply]
    split
    · next he =>
      rw [he, FlowSpecController.ruleAt, Traced.call_mgr,
        h.withdrawn r List.mem_cons_self]
      rfl
    · next hne =>
      refine h.other k fun hmem => ?_
      rcases List.mem_cons.mp hmem with he | hmem
      · exact hne he
      · exact hk hmem
  · obtain ⟨o', ho'⟩ := h.announced r' (List.mem_cons_of_mem _ hr')
    have hne : keyOf r' ≠ keyOf r := h.tail_ne hr'
    refine ⟨o', ?_⟩
    rw [Traced.call_mgr, hwire, Function.update_of_ne hne, ho']

/-- The announce path up to and including the journal. -/
theorem Agree.journaled {r : FlowSpecRule} {o : BlackholeOrigin}
    {mono wall : Nat} (h : Agree (.announce r :: acts) s) :
    Agree acts (executeAndJournalAnnounce env r o mono wall s).2 := by
  have hann : Agree acts (announceOnBgp env r mono s).2 := h.announce
  unfold executeAndJournalAnnounce
  split
  · next s' heq =>
    rw [heq] at hann
    obtain ⟨hc, hr, -, hw⟩ := mirror_frame env (.announce r o wall) s'
    exact hann.congr hc hr hw
  · next heq =>
    rw [heq] at hann
    exact hann

variable (hw : ∀ i r, env i (.withdrawFlowspec r) = true)

include hw in
theorem Agree.executeAll {mono wall : Nat} :
    ∀ {acts : List FlowSpecAction} {s : Sys}, Agree acts s →
      Agree [] (executeAll env mono wall acts s) := by
  intro acts
  induction acts with
  | nil => intro s h; exact h
  | cons a acts ih =>
      intro s h
      refine ih ?_
      cases a with
      | announce r => exact h.journaled
      | withdraw r =>
          have hok : s.outcome env (.withdrawFlowspec r) = true := hw _ _
          have hstep := h.withdraw hok
          simp only [executeAndJournal, hok, if_true]
          obtain ⟨hc, hr, -, hwire⟩ := mirror_frame env
            (.withdraw r wall) (s.call env (.withdrawFlowspec r))
          exact hstep.congr hc hr hwire

end Steps

-- =========================================================== entry points

section Ops

variable {env : Outcomes Call} {s : Sys}
variable (hw : ∀ i r, env i (.withdrawFlowspec r) = true)

theorem Agree.applyAdd {r : FlowSpecRule} {mono wall : Nat}
    (h : Agree [] s) : Agree [] (applyAdd env r mono wall s).2 := by
  cases applyAdd_adds env r mono wall h.keyed with
  | upgraded x held same acts entry keyed active result =>
      -- the rule is the one that was there
      have hup : Agree [] (added r mono s) := by
        refine ⟨keyed, h.idle, List.nodup_nil, fun k hk => ?_,
          fun r' hr' => absurd hr' List.not_mem_nil,
          fun r' hr' => absurd hr' List.not_mem_nil⟩
        change wire s k = (added r mono s).mgr.controller.ruleAt k
        rw [h.other k hk, FlowSpecController.ruleAt,
          FlowSpecController.ruleAt, entry, Function.update_apply]
        split
        · next he => rw [he, held]; rfl
        · rfl
      obtain ⟨hc, hr, -, hwire⟩ := mirror_frame env
        (.announce r .manual wall) (added r mono s)
      rw [result]
      exact hup.congr hc hr hwire
  | declined hands out state =>
      rw [state]
      exact h.handed hands
  | announced x hands acts exec out state =>
      rw [state, exec]
      exact (h.handed hands).journaled

include hw in
theorem Agree.disarmKey {k : FlowKey} (h : Agree [] s) :
    Agree [] (disarmKey env k s) := by
  have hh := FlowSpecController.manualRemove_hands (·.getD .auto) h.keyed
    { dst := k.1, protocol := some k.2.1, dstPort := some k.2.2,
              action := .trafficRate ⟨0⟩ }
  have hstart := h.handed hh
  unfold FlowSpec.disarmKey
  rcases FlowSpecController.manualRemove_actions s.mgr.controller
    { dst := k.1, protocol := some k.2.1, dstPort := some k.2.2
      action := .trafficRate ⟨0⟩ } with hact | ⟨r, hact⟩
  · rw [hact] at hstart
    simp only [hact, run_nil]
    exact hstart
  · rw [hact] at hstart
    simp only [hact, run_cons, run_nil]
    exact hstart.withdraw (hw _ _)

include hw in
/-- Every entry point keeps the two maps equal. -/
theorem Agree.step {op : Op} (hwf : op.wellFormed = true)
    (h : Agree [] s) : Agree [] (step env op s) := by
  cases op with
  | applyOpen target rules mono wall =>
      have hnd : ((rules.map fun r => (r.proto, r.dstPort, r.rate)).map
          fun r => (r.1, r.2.1)).Nodup := by
        rw [List.map_map]
        exact of_decide_eq_true hwf
      exact (h.handed (FlowSpecController.install_hands h.keyed target _
        mono hnd).1).executeAll hw
  | applyClear ord target mono wall =>
      exact (h.handed (FlowSpecController.clearTarget_hands (·.getD .auto)
        h.keyed ord target mono)).executeAll hw
  | applyUpdated target mono =>
      have hh : Hands (·.getD .auto) s.mgr.controller []
          (s.mgr.controller.refreshTarget target mono) :=
        .none h.keyed (FlowSpecController.held_refreshTarget _ target mono)
      exact h.handed hh
  | applyAdd r mono wall => exact h.applyAdd
  | applyRemove r mono wall =>
      exact (h.handed (FlowSpecController.manualRemove_hands (·.getD .auto)
        h.keyed r)).executeAll hw
  | tick ord mono wall =>
      obtain ⟨hc, hr, -, hwire⟩ := retryPendingMirror_frame env s
      have hm := h.congr hc hr hwire
      simp only [FlowSpec.step, FlowSpec.tick,
        retryPendingReapply_idle env hm.idle]
      exact (hm.handed (FlowSpecController.tick_hands (·.getD .auto)
        hm.keyed ord mono)).executeAll hw
  | disarm ord =>
      simp only [FlowSpec.step, FlowSpec.disarm]
      split
      · exact h
      · refine run_invariant (P := Agree [])
          (fun s k hs => hs.disarmKey hw) _ ?_
        exact h.congr rfl rfl rfl

end Ops

-- ============================================================== agreement

/-- The executor's rules are exactly the active ones, actions
included. -/
def WireAgrees (s : Sys) : Prop :=
  ∀ k, wire s k = (s.mgr.controller.active.lookup k).map (·.rule)

/-- Commit after confirm, with updates in place: whatever announces,
limiter and journal do, the executor's map is the controller's after
every entry point, as long as no withdraw fails. -/
theorem flowspec_wire_agreement (env : Outcomes Call)
    (hw : ∀ i r, env i (.withdrawFlowspec r) = true)
    (config : FlowSpecConfig) (lim : Bool) (ops : List Op)
    (hwf : ∀ op ∈ ops, op.wellFormed = true) :
    WireAgrees (run (step env) (start config lim) ops) := by
  have h : Agree [] (run (step env) (start config lim) ops) :=
    run_invariant_mem ops (fun s op hop hs => hs.step hw (hwf op hop))
      (agree_start config lim)
  intro k
  rw [h.other k List.not_mem_nil, ← FlowSpecController.activeRule_eq]
  rfl

/-- The second announce fails; all other calls succeed. -/
def secondAnnounceFails : Outcomes Call := fun i c =>
  match c with
  | .announceFlowspec _ => decide (i ≠ 2)
  | _ => true

/-- A rule whose tightening fails on the wire and is rolled back. -/
theorem flowspec_wire_agreement_rolled_back :
    WireAgrees (run (step secondAnnounceFails) (start sampleConfig false)
      [.applyAdd (sampleRule 0x49742400) 0 0, .applyAdd (sampleRule 0) 1 1,
        .tick (.stored _) 2 2]) :=
  flowspec_wire_agreement secondAnnounceFails (fun _ _ => rfl)
    sampleConfig false _ (by decide)

end Blackwall.FlowSpec
