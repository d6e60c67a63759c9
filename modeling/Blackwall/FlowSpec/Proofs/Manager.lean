/-
What an operator's add comes to, said once (as `Rtbh.Proofs.Manager`
does for the RTBH manager).
-/
import Blackwall.FlowSpec.Proofs.Controller
import Blackwall.FlowSpec.World

namespace Blackwall.FlowSpec

open Base
open Bgp (FlowSpecRule)
open FlowSpecController (Hands)
open Rtbh (AnnounceOutcome ApplyOutcome)

/-- To be active is to hold a rule. -/
theorem isActive_iff {m : FlowSpecManager} {k : FlowKey} :
    m.isActive k = true ↔ m.controller.held k ≠ none := by
  rw [FlowSpecManager.isActive, decide_eq_true_eq,
    ← FlowSpecController.held_isSome, Option.isSome_iff_ne_none]

theorem isActive_eq_false {m : FlowSpecManager} {k : FlowKey} :
    m.isActive k = false ↔ m.controller.held k = none := by
  rw [Bool.eq_false_iff, ne_eq, isActive_iff, not_not]

-- ================================================================= adds

/-- The manager once `manual_add` has changed its controller. -/
abbrev added (rule : FlowSpecRule) (mono : Nat) (s : Sys) : Sys :=
  s.update (.setController (s.mgr.controller.manualAdd rule mono).2)

section Adds

variable (env : Outcomes Call) (rule : FlowSpecRule) (mono wall : Nat)
  (s : Sys)

/-- The cases of `apply_add`: an active rule of the same action is
upgraded and journaled; nothing is done; the rule is announced, fresh or
over another one of its key. -/
inductive Adds (r : ApplyOutcome × Sys) : Prop
  | upgraded (x : Held)
      (held : s.mgr.controller.held (keyOf rule) = some x)
      (same : x.rule.action.differs rule.action = false)
      (acts : (s.mgr.controller.manualAdd rule mono).1 = [])
      (entry : (added rule mono s).mgr.controller.held
        = Function.update s.mgr.controller.held (keyOf rule)
          (some { x with origin := .manual }))
      (keyed : (added rule mono s).mgr.controller.Keyed)
      (active : (added rule mono s).mgr.isActive (keyOf rule) = true)
      (result : r = (.applied,
        mirror env (.announce rule .manual wall) (added rule mono s)))
  | declined
      (hands : Hands (fun _ => .manual) s.mgr.controller []
        (added rule mono s).mgr.controller)
      (out : r.1 ≠ .applied) (state : r.2 = added rule mono s)
  | announced (x : AnnounceOutcome × Sys)
      (hands : Hands (fun _ => .manual) s.mgr.controller
        [.announce rule] (added rule mono s).mgr.controller)
      (acts : (s.mgr.controller.manualAdd rule mono).1
        = [.announce rule])
      (exec : x = executeAndJournalAnnounce env rule .manual mono wall
        (added rule mono s))
      (out : r.1 = .applied ↔ x.1 = .applied) (state : r.2 = x.2)

theorem applyAdd_adds {s : Sys} (h : s.mgr.controller.Keyed) :
    Adds env rule mono wall s (applyAdd env rule mono wall s) := by
  unfold applyAdd
  rcases FlowSpecController.manualAdd_cases h rule mono with
    ⟨x, hx, hsame, hact, hheld⟩ | ⟨hh, ⟨hact, hfree⟩ | hact⟩
  · have hkeyed : (added rule mono s).mgr.controller.Keyed := by
      refine h.update hheld fun y hy => ?_
      cases hy
      exact h _ x hx
    have hactive : (added rule mono s).mgr.isActive (keyOf rule)
        = true := by
      rw [isActive_iff]
      refine ne_of_eq_of_ne (congrFun hheld (keyOf rule)) ?_
      rw [Function.update_self]
      exact Option.some_ne_none _
    refine .upgraded x hx hsame hact hheld hkeyed hactive ?_
    simp only [hact, List.head?_nil, hactive, if_true]
  · rw [hact] at hh
    have hidle : (added rule mono s).mgr.isActive (keyOf rule)
        = false :=
      isActive_eq_false.mpr ((hh.other _ List.not_mem_nil).trans hfree)
    simp only [hact, List.head?_nil, hidle, Bool.false_eq_true, if_false]
    repeat' split
    all_goals exact .declined hh (by simp) rfl
  · simp only [hact, List.head?_cons]
    rw [hact] at hh
    split <;> next heq =>
      exact .announced _ hh hact heq.symm (by simp) rfl

end Adds

end Blackwall.FlowSpec
