/-
The kill switch of the FlowSpec manager: one-way and complete.

The argument is the RTBH manager's (`Rtbh.Proofs.Disarm`) but for
`apply_open`, which installs all rules of an attack before the first one
meets the gate, and may install one key more than once: the later rule
then replaces the earlier one, and a rollback brings the earlier back.
`Covered` counts: a key that holds a prior rule has two rollbacks still
to come, any other active key one. With none to come nothing is active.
-/
import Blackwall.FlowSpec.Proofs.Manager

namespace Blackwall.FlowSpec

open Base
open Traced (Avoids)
open Bgp (FlowSpecRule)
open Blackwall.Flow (FlowRule)
open Rtbh (BlackholeOrigin)

/-- Is this an announce? -/
def Call.isAnnounce : Call → Bool
  | .announceFlowspec _ => true
  | _ => false

/-- Disarmed, with nothing active. -/
structure Off (s : Sys) : Prop where
  disarmed : s.mgr.disarmed = true
  empty : ∀ k, s.mgr.controller.held k = none

/-- From `s` the manager gets to `s'`, off, without an announce. -/
structure Rests (s s' : Sys) : Prop where
  off : Off s'
  quiet : Avoids Call.isAnnounce s s'

theorem Rests.trans {s s' s'' : Sys} (h : Rests s s') (h' : Rests s' s'') :
    Rests s s'' :=
  ⟨h'.off, h.quiet.trans h'.quiet⟩

theorem Off.congr {s s' : Sys} (h : Off s)
    (hdis : s'.mgr.disarmed = s.mgr.disarmed)
    (hctl : s'.mgr.controller.held = s.mgr.controller.held) : Off s' := by
  refine ⟨hdis.trans h.disarmed, fun k => ?_⟩
  rw [hctl]
  exact h.empty k

theorem Off.lookup {s : Sys} (h : Off s) (k : FlowKey) :
    s.mgr.controller.active.lookup k = none := by
  have := h.empty k
  rwa [FlowSpecController.held, Option.map_eq_none_iff] at this

theorem Off.entries {s : Sys} (h : Off s) :
    s.mgr.controller.active.entries = [] :=
  Dict.entries_eq_nil h.lookup

theorem Off.keyed {s : Sys} (h : Off s) : s.mgr.controller.Keyed := by
  intro k x hx
  rw [h.empty] at hx
  cases hx

-- ============================================================ the switch

section Switch

variable (env : Outcomes Call)

theorem mirror_disarmed (op : MirrorOp) (s : Sys) :
    (mirror env op s).mgr.disarmed = s.mgr.disarmed :=
  (mirror_frame env op s).2.2.1

theorem executeAndJournalAnnounce_disarmed (r : FlowSpecRule)
    (o : BlackholeOrigin) (mono wall : Nat) (s : Sys) :
    (executeAndJournalAnnounce env r o mono wall s).2.mgr.disarmed
      = s.mgr.disarmed := by
  have hbgp : (announceOnBgp env r mono s).2.mgr.disarmed
      = s.mgr.disarmed := by
    unfold announceOnBgp
    simp only
    repeat' split
    all_goals rfl
  unfold executeAndJournalAnnounce
  split
  · next s' heq =>
    rw [heq] at hbgp
    exact (mirror_disarmed env _ s').trans hbgp
  · next heq =>
    rw [heq] at hbgp
    exact hbgp

theorem executeAll_disarmed (mono wall : Nat)
    (actions : List FlowSpecAction) (s : Sys) :
    (executeAll env mono wall actions s).mgr.disarmed = s.mgr.disarmed := by
  refine run_invariant (P := fun s' : Sys =>
    s'.mgr.disarmed = s.mgr.disarmed) (fun s' a h => ?_) actions rfl
  cases a with
  | announce r => exact (executeAndJournalAnnounce_disarmed ..).trans h
  | withdraw r =>
      simp only [executeAndJournal]
      split
      · exact (mirror_disarmed ..).trans h
      · exact h

theorem retryPendingReapply_disarmed (s : Sys) :
    (retryPendingReapply env s).mgr.disarmed = s.mgr.disarmed := by
  refine run_invariant (P := fun s' : Sys =>
    s'.mgr.disarmed = s.mgr.disarmed) (fun s' op h => ?_) _ rfl
  unfold retryReapply
  simp only
  repeat' split
  all_goals exact h

/-- Nothing but `disarm` throws the switch. -/
theorem enter_disarmed {e : Entry} (he : e.isDisarm = false) (s : Sys) :
    (enter env e s).mgr.disarmed = s.mgr.disarmed := by
  cases e with
  | rehydrate rows mono =>
      refine run_invariant (P := fun s' : Sys =>
        s'.mgr.disarmed = s.mgr.disarmed) (fun s' row h => ?_) rows rfl
      unfold rehydrateRow
      simp only
      repeat' split
      all_goals exact h
  | op op =>
      cases op with
      | applyOpen target rules mono wall => exact executeAll_disarmed ..
      | applyClear ord target mono wall => exact executeAll_disarmed ..
      | applyUpdated target mono => rfl
      | applyRemove rule mono wall => exact executeAll_disarmed ..
      | tick ord mono wall =>
          refine (executeAll_disarmed ..).trans ?_
          exact (retryPendingReapply_disarmed env _).trans
            (retryPendingMirror_frame env s).2.2.1
      | disarm ord => cases he
      | applyAdd rule mono wall =>
          simp only [enter, step, applyAdd]
          split
          · next r _ =>
            have h := executeAndJournalAnnounce_disarmed env r .manual
              mono wall (s.update (.setController
                (s.mgr.controller.manualAdd rule mono).2))
            split <;> (next heq => rw [heq] at h; exact h)
          · repeat' split
            · exact mirror_disarmed ..
            all_goals rfl

end Switch

-- ================================================================ the sweep

section Sweep

variable (env : Outcomes Call)

/-- One key of the sweep: nothing is held under it afterwards, and
nothing new under another. -/
theorem disarmKey_effect (k : FlowKey) (s : Sys) :
    (disarmKey env k s).mgr.disarmed = s.mgr.disarmed
      ∧ (disarmKey env k s).mgr.controller.held
        = Function.update s.mgr.controller.held k none := by
  unfold disarmKey
  simp only [FlowSpecController.manualRemove, keyOf, Option.getD_some]
  unfold FlowSpecController.removeKey
  split
  · exact ⟨rfl, FlowSpecController.held_erase _ k⟩
  · next hnone =>
    refine ⟨rfl, ?_⟩
    have hk := FlowSpecController.held_of_lookup_none hnone
    change s.mgr.controller.held = _
    exact (Function.update_eq_self_iff.mpr hk.symm).symm

/-- The sweep of an armed manager leaves it off. -/
theorem disarm_off
    (ord : IterOrder (Sigma fun _ : FlowKey => ActiveEntry)) {s : Sys}
    (h : s.mgr.disarmed = false) : Off (disarm env ord s) := by
  unfold disarm
  simp only [h, Bool.false_eq_true, if_false]
  refine ⟨?_, run_sweep id
    (fun s : Sys => s.mgr.controller.held)
    _ (fun k _ s => (disarmKey_effect env k s).2) fun k hk => ?_⟩
  · exact run_invariant (P := fun s : Sys => s.mgr.disarmed = true)
      (fun s k hs => (disarmKey_effect env k s).1.trans hs) _ rfl
  by_contra hheld
  obtain ⟨e, he⟩ := Option.isSome_iff_exists.mp
    (AList.lookup_isSome.mpr (FlowSpecController.held_isSome.mp
      (Option.isSome_iff_ne_none.mpr hheld)))
  refine hk ?_
  simp only [FlowSpecController.activeRules, List.map_map,
    List.mem_map, IterOrder.mem_iff]
  exact ⟨⟨k, e⟩, Dict.mem_entries_iff.mpr he, rfl⟩

end Sweep

-- ================================================= rollbacks still to come

/-- The keys of `acts`, the announces whose rollback is to come, cover
what is active. -/
def Covered (acts : List FlowSpecAction) (c : FlowSpecController) : Prop :=
  ∀ k x, c.held k = some x →
    (if x.prior.isSome then 2 else 1)
      ≤ (acts.map FlowSpecAction.key).count k

/-- One rule of an attack: nothing happens, or its key changes hands and
one more announce is to come. -/
theorem Covered.insertRule {acts : List FlowSpecAction}
    {c : FlowSpecController} (h : Covered acts c) (hk : c.Keyed)
    (target : IpAddr) (rule : FlowSpecRule) (now : Nat)
    (o : BlackholeOrigin) :
    Covered (acts ++ (c.insertRule target rule now o).1)
      (c.insertRule target rule now o).2 := by
  obtain ⟨hh, hnil | hann⟩ :=
    FlowSpecController.insertRule_hands hk target rule now o
  · rw [hnil] at hh ⊢
    intro k x hx
    rw [hh.other k List.not_mem_nil] at hx
    rw [List.append_nil]
    exact h k x hx
  · rw [hann] at hh ⊢
    intro k x hx
    rw [List.map_append, List.count_append]
    by_cases hkey : k = keyOf rule
    · subst hkey
      rw [hh.announced rule List.mem_cons_self] at hx
      cases hx
      have hone : (List.map FlowSpecAction.key
          [.announce rule]).count (keyOf rule) = 1 :=
        List.count_singleton_self
      rw [hone, FlowSpecController.ruleAt, Option.isSome_map]
      -- a prior rule was itself covered by one announce at least
      cases hprior : c.held (keyOf rule) with
      | none => exact Nat.le_add_left 1 _
      | some y =>
          have hy := h _ y hprior
          have : 1 ≤ if y.prior.isSome then 2 else 1 := by
            split <;> omega
          simp only [Option.isSome_some, if_true]
          omega
    · have hzero : (List.map FlowSpecAction.key
          [.announce rule]).count k = 0 := by
        refine List.count_eq_zero.mpr fun hmem => hkey ?_
        exact List.mem_singleton.mp hmem
      rw [hh.other k fun hmem => hkey (List.mem_singleton.mp hmem)] at hx
      rw [hzero]
      exact h k x hx

theorem Covered.install (target : IpAddr) (now : Nat)
    (rules : List (BitVec 8 × BitVec 16 × F32)) :
    ∀ {acts : List FlowSpecAction} {c : FlowSpecController},
      Covered acts c → c.Keyed →
      Covered (acts ++ (c.install target rules now).1)
          (c.install target rules now).2
        ∧ ∀ a ∈ (c.install target rules now).1, ∃ r, a = .announce r := by
  induction rules with
  | nil =>
      intro acts c h hk
      refine ⟨?_, fun a ha => absurd ha List.not_mem_nil⟩
      simpa [FlowSpecController.install, collect] using h
  | cons r rules ih =>
      intro acts c h hk
      obtain ⟨hh, hact⟩ := FlowSpecController.insertRule_hands hk target
        (FlowSpecController.hostRule target r) now .auto
      have hfirst := h.insertRule hk target
        (FlowSpecController.hostRule target r) now .auto
      obtain ⟨hrest, hann⟩ := ih hfirst hh.keyed
      rw [List.append_assoc] at hrest
      refine ⟨hrest, fun a ha => ?_⟩
      rcases List.mem_append.mp ha with ha | ha
      · rcases hact with hnil | hone
        · rw [hnil] at ha
          exact absurd ha List.not_mem_nil
        · rw [hone] at ha
          exact ⟨_, List.mem_singleton.mp ha⟩
      · exact hann a ha

theorem Covered.rollback {r : FlowSpecRule} {acts : List FlowSpecAction}
    {c : FlowSpecController} (h : Covered (.announce r :: acts) c) :
    Covered acts (c.rollback (keyOf r)) := by
  intro k x hx
  rw [FlowSpecController.held_rollback, Function.update_apply] at hx
  split at hx
  · next hkey =>
    subst hkey
    cases hheld : c.held (keyOf r) with
    | none =>
        rw [hheld] at hx
        cases hx
    | some y =>
        have hy := h _ y hheld
        rw [hheld] at hx
        cases hp : y.prior with
        | none =>
            rw [Option.bind_some, hp] at hx
            cases hx
        | some p =>
            rw [Option.bind_some, hp] at hx
            cases hx
            rw [hp, Option.isSome_some, if_pos rfl, List.map_cons] at hy
            have hcount : (FlowSpecAction.key (.announce r)
                :: acts.map FlowSpecAction.key).count (keyOf r)
                = (acts.map FlowSpecAction.key).count (keyOf r) + 1 :=
              List.count_cons_self
            rw [hcount] at hy
            simp only [Option.isSome_none, Bool.false_eq_true, if_false]
            omega
  · next hne =>
    have hy := h k x hx
    rw [List.map_cons, List.count_cons_of_ne] at hy
    · exact hy
    · exact Ne.symm hne

/-- With none to come, nothing is active. -/
theorem Covered.nil {c : FlowSpecController} (h : Covered [] c)
    (k : FlowKey) : c.held k = none := by
  cases hk : c.held k with
  | none => rfl
  | some x =>
      have := h k x hk
      rw [List.map_nil, List.count_nil] at this
      split at this <;> omega

-- ========================================================= after the sweep

section After

variable {env : Outcomes Call} {s : Sys}

/-- An announce of a disarmed manager is a rollback. -/
theorem announce_gated (env : Outcomes Call) (r : FlowSpecRule)
    (o : BlackholeOrigin) (mono wall : Nat) (h : s.mgr.disarmed = true) :
    (executeAndJournalAnnounce env r o mono wall s).1 = .disarmed
      ∧ (executeAndJournalAnnounce env r o mono wall s).2.mgr.controller
        = s.mgr.controller.rollback (keyOf r)
      ∧ (executeAndJournalAnnounce env r o mono wall s).2.log = s.log := by
  simp only [executeAndJournalAnnounce, announceOnBgp, h, if_true]
  exact ⟨trivial, rfl, rfl⟩

/-- The announces of an attack are all rolled back. -/
theorem executeAll_gated (env : Outcomes Call) (mono wall : Nat)
    {acts : List FlowSpecAction} (hann : ∀ a ∈ acts, ∃ r, a = .announce r) :
    ∀ {s : Sys}, s.mgr.disarmed = true → Covered acts s.mgr.controller →
      Rests s (executeAll env mono wall acts s) := by
  induction acts with
  | nil =>
      intro s hd hc
      exact ⟨⟨hd, hc.nil⟩, .refl s⟩
  | cons a acts ih =>
      intro s hd hc
      obtain ⟨r, rfl⟩ := hann a List.mem_cons_self
      obtain ⟨-, hctl, hlog⟩ := announce_gated env r .auto mono wall hd
      have hrest := ih (fun b hb => hann b (List.mem_cons_of_mem _ hb))
        ((executeAndJournalAnnounce_disarmed env r .auto mono wall s).trans
          hd) (hctl ▸ hc.rollback)
      obtain ⟨added, hadded, hbad⟩ := hrest.quiet
      exact ⟨hrest.off, added, by rw [← hlog]; exact hadded, hbad⟩

theorem Off.covered (h : Off s) : Covered [] s.mgr.controller := by
  intro k x hx
  rw [h.empty] at hx
  cases hx

theorem Off.unmoved {c : FlowSpecController} (h : Off s)
    (hc : c.held = s.mgr.controller.held) :
    Rests s (s.update (.setController c)) :=
  ⟨h.congr rfl hc, .update _ s⟩

theorem Off.applyOpen {target : IpAddr} {rules : List FlowRule}
    {mono wall : Nat} (h : Off s) :
    Rests s (applyOpen env target rules mono wall s) := by
  obtain ⟨hcov, hann⟩ := Covered.install target mono
    (rules.map fun r => (r.proto, r.dstPort, r.rate)) h.covered h.keyed
  rw [List.nil_append] at hcov
  have hrest := executeAll_gated env mono wall hann
    (s := s.update (.setController (s.mgr.controller.install target
        (rules.map fun r : FlowRule => (r.proto, r.dstPort, r.rate))
        mono).2)) h.disarmed hcov
  exact ⟨hrest.off, hrest.quiet⟩

theorem Off.applyClear
    {ord : IterOrder (Sigma fun _ : FlowKey => ActiveEntry)}
    {target : IpAddr} {mono wall : Nat} (h : Off s) :
    Rests s (applyClear env ord target mono wall s) := by
  simp only [FlowSpec.applyClear, FlowSpecController.clearTarget,
    h.entries, IterOrder.nil, List.map_nil, List.filter_nil, collect,
    executeAll, run_nil]
  exact h.unmoved rfl

theorem Off.applyRemove {rule : FlowSpecRule} {mono wall : Nat}
    (h : Off s) : Rests s (applyRemove env rule mono wall s) := by
  simp only [FlowSpec.applyRemove, FlowSpecController.manualRemove,
    FlowSpecController.removeKey, h.lookup, executeAll, run_nil]
  exact h.unmoved rfl

theorem Off.applyAdd {rule : FlowSpecRule} {mono wall : Nat} (h : Off s) :
    (applyAdd env rule mono wall s).1 ≠ .applied
      ∧ Rests s (applyAdd env rule mono wall s).2 := by
  cases applyAdd_adds env rule mono wall h.keyed with
  | upgraded x held same acts entry keyed active result =>
      rw [h.empty] at held
      cases held
  | declined hands out state =>
      rw [state]
      refine ⟨out, h.unmoved (funext fun k => ?_)⟩
      exact hands.other k List.not_mem_nil
  | announced x hands acts exec out state =>
      obtain ⟨hout, hctl, hlog⟩ := announce_gated env rule .manual mono wall
        (s := added rule mono s) h.disarmed
      have hkept := executeAndJournalAnnounce_disarmed env rule .manual
        mono wall (added rule mono s)
      rw [← exec] at hout hctl hlog hkept
      rw [state]
      refine ⟨fun happ => ?_, ⟨hkept.trans h.disarmed, fun k => ?_⟩, [],
        ?_, fun c hc => absurd hc List.not_mem_nil⟩
      · rw [out.mp happ] at hout
        cases hout
      · -- there was no rule before this one to bring back
        rw [hctl, FlowSpecController.held_rollback, Function.update_apply]
        split
        · rw [hands.announced rule List.mem_cons_self,
            FlowSpecController.ruleAt, h.empty]
          rfl
        · next hne =>
          exact (hands.other k fun hmem =>
            hne (List.mem_singleton.mp hmem)).trans (h.empty k)
      · rw [hlog, List.append_nil]
        rfl

/-- Every queued re-announce is of a key that is active no longer. -/
theorem Off.retryPendingReapply (h : Off s) :
    Rests s (retryPendingReapply env s) := by
  obtain ⟨hoff, hquiet⟩ := Avoids.loop Call.isAnnounce
    (retryReapply env) (P := Off) s.mgr.pendingReapply
    (fun s' op _ hs' => by
      have hgone : s'.mgr.controller.activeRule op.key = none := by
        rw [FlowSpecController.activeRule, hs'.lookup]
        rfl
      simp only [retryReapply, hgone]
      exact ⟨hs', .refl s'⟩)
    (s := s.update fun m => { m with pendingReapply := [] })
    (h.congr rfl rfl)
  exact ⟨hoff, hquiet⟩

theorem Off.tick
    {ord : IterOrder (Sigma fun _ : FlowKey => ActiveEntry)}
    {mono wall : Nat} (h : Off s) : Rests s (tick env ord mono wall s) := by
  have hmirror : Rests s (retryPendingMirror env s) := by
    obtain ⟨hctl, -, hdis, -⟩ := retryPendingMirror_frame env s
    refine ⟨h.congr hdis (by rw [hctl]),
      Mirror.Queue.retryAll_avoids (fun w => ?_) s⟩
    cases w <;> rfl
  have hboth : Rests s
      (FlowSpec.retryPendingReapply env (retryPendingMirror env s)) :=
    hmirror.trans hmirror.off.retryPendingReapply
  unfold FlowSpec.tick
  generalize FlowSpec.retryPendingReapply env (retryPendingMirror env s)
    = s' at hboth ⊢
  -- with nothing active, nothing is due
  simp only [FlowSpecController.tick, hboth.off.entries, IterOrder.nil,
    List.filter_nil, List.map_nil, collect, executeAll, run_nil]
  exact hboth.trans (hboth.off.unmoved rfl)

/-- Every entry point of a manager that is off. -/
theorem Off.step {op : Op} (h : Off s) : Rests s (step env op s) := by
  cases op with
  | applyOpen target rules mono wall => exact h.applyOpen
  | applyClear ord target mono wall => exact h.applyClear
  | applyUpdated target mono =>
      exact h.unmoved (FlowSpecController.held_refreshTarget _ target mono)
  | applyAdd rule mono wall => exact h.applyAdd.2
  | applyRemove rule mono wall => exact h.applyRemove
  | tick ord mono wall => exact h.tick
  | disarm ord =>
      simp only [FlowSpec.step, disarm, h.disarmed, if_true]
      exact ⟨h, .refl s⟩

end After

-- ============================================================= whole lives

/-- What the kill switch promises of a later state `s'`: nothing is
active, no announce has gone out since `s`, and no add is reported
applied. -/
structure Silenced (env : Outcomes Call) (s s' : Sys) : Prop where
  inactive : s'.mgr.controller.active.entries = []
  quiet : Avoids Call.isAnnounce s s'
  refused : ∀ rule mono wall,
    (applyAdd env rule mono wall s').1 ≠ .applied

theorem Rests.silenced {env : Outcomes Call} {s s' : Sys}
    (h : Rests s s') : Silenced env s s' :=
  ⟨h.off.entries, h.quiet, fun _ _ _ => h.off.applyAdd.1⟩

/-- The kill switch of a manager: whatever came before it, afterwards
nothing is active, no announce goes out, no add is reported applied. -/
theorem disarmed_for_good (env : Outcomes Call) (config : FlowSpecConfig)
    (lim : Bool) (before : List Entry)
    (hbefore : ∀ e ∈ before, e.isDisarm = false)
    (ord : IterOrder (Sigma fun _ : FlowKey => ActiveEntry))
    (after : List Op) :
    Silenced env (disarm env ord (run (enter env) (start config lim) before))
      (run (step env)
        (disarm env ord (run (enter env) (start config lim) before))
        after) := by
  obtain ⟨hoff, hquiet⟩ := Avoids.latched Call.isAnnounce
    (P := fun s : Sys => s.mgr.disarmed = false) (Q := Off) after
    (fun s e he => (enter_disarmed env (hbefore e he) s).trans)
    (fun s => disarm_off env ord)
    (fun s op hs => ⟨hs.step.off, hs.step.quiet⟩)
    (show (start config lim).mgr.disarmed = false from rfl)
  exact Rests.silenced ⟨hoff, hquiet⟩

end Blackwall.FlowSpec
