/-
What an operator's add comes to, said once.

`apply_add` reads its answer off the controller's actions and, when there
are none, off the active set. `Adds` has a case for each way this goes;
the wire, the journal and the kill switch each argue by these cases.
-/
import Blackwall.Rtbh.Proofs.Controller
import Blackwall.Rtbh.World

namespace Blackwall.Rtbh

open Base

/-- To be active is to have an origin. -/
theorem isActive_iff {m : RtbhManager} {t : IpAddr} :
    m.isActive t = true ↔ m.controller.origins t ≠ none := by
  rw [RtbhManager.isActive, decide_eq_true_eq,
    ← RtbhController.origins_isSome, Option.isSome_iff_ne_none]

theorem isActive_eq_false {m : RtbhManager} {t : IpAddr} :
    m.isActive t = false ↔ m.controller.origins t = none := by
  rw [Bool.eq_false_iff, ne_eq, isActive_iff, not_not]

-- ================================================================= adds

/-- The manager once `manual_add` has changed its controller. -/
abbrev added (t : IpAddr) (mono : Nat) (s : Sys) : Sys :=
  s.update (.setController (s.mgr.controller.manualAdd t mono).2)

section Adds

variable (env : Outcomes Call) (t : IpAddr) (mono wall : Nat) (s : Sys)

/-- The cases of `apply_add`: an active target is upgraded and journaled;
nothing is done, for a reason the policy gives or for want of room; a new
target is announced. -/
inductive Adds (r : ApplyOutcome × Sys) : Prop
  | upgraded (held : s.mgr.controller.origins t ≠ none)
      (acts : (s.mgr.controller.manualAdd t mono).1 = [])
      (origins : (added t mono s).mgr.controller.origins
        = Function.update s.mgr.controller.origins t (some .manual))
      (active : (added t mono s).mgr.isActive t = true)
      (result : r = (.applied,
        mirror env (.announce t .manual wall) (added t mono s)))
  | declined (free : s.mgr.controller.origins t = none)
      (origins : (added t mono s).mgr.controller.origins
        = s.mgr.controller.origins)
      (out : r.1 ≠ .applied)
      (why : ∀ reason, r.1 = .rejected reason →
        (added t mono s).mgr.controller.isProtected t = true
          ∨ (added t mono s).mgr.controller.isEligible t = false
          ∨ (added t mono s).mgr.controller.hasNextHop t = false)
      (state : r.2 = added t mono s)
  | inserted (route : Bgp.Route) (x : AnnounceOutcome × Sys)
      (free : s.mgr.controller.origins t = none)
      (acts : (s.mgr.controller.manualAdd t mono).1 = [.announce route])
      (net : route.net = hostPrefix t)
      (origins : (added t mono s).mgr.controller.origins
        = Function.update s.mgr.controller.origins t (some .manual))
      (exec : x = executeAndJournalAnnounce env t route .manual mono wall
        (added t mono s))
      (out : r.1 = .applied ↔ x.1 = .applied)
      (why : ∀ reason, r.1 = .rejected reason → x.1 = .disarmed)
      (state : r.2 = x.2)

theorem applyAdd_adds :
    Adds env t mono wall s (applyAdd env t mono wall s) := by
  unfold applyAdd
  rcases RtbhController.manualAdd_cases s.mgr.controller t mono with
    ⟨hheld, hact, horg⟩ | ⟨hfree, hact, horg⟩
      | ⟨route, hact, hnet, hfree, horg⟩
  · have hactive : (added t mono s).mgr.isActive t = true := by
      rw [isActive_iff]
      refine ne_of_eq_of_ne (congrFun horg t) ?_
      rw [Function.update_self]
      exact Option.some_ne_none _
    refine .upgraded hheld hact horg hactive ?_
    simp only [hact, List.head?_nil, hactive, if_true]
  · have hidle : (added t mono s).mgr.isActive t = false :=
      isActive_eq_false.mpr ((congrFun horg t).trans hfree)
    simp only [hact, List.head?_nil, hidle, Bool.false_eq_true, if_false]
    split
    · next h =>
      exact .declined hfree horg (by simp) (fun _ _ => .inl h) rfl
    split
    · next h =>
      rw [Bool.not_eq_true'] at h
      exact .declined hfree horg (by simp) (fun _ _ => .inr (.inl h)) rfl
    split
    · next h =>
      rw [Bool.not_eq_true'] at h
      exact .declined hfree horg (by simp) (fun _ _ => .inr (.inr h)) rfl
    · exact .declined hfree horg (by simp) (fun _ h => by cases h) rfl
  · simp only [hact, List.head?_cons]
    split <;> next heq =>
      refine .inserted route _ hfree hact hnet horg heq.symm ?_ ?_ rfl
      · simp
      · simp

end Adds

end Blackwall.Rtbh
