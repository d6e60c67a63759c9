/-
What the FlowSpec manager's calls mean to whoever receives them: the
executor's map from key to rule and the journal's table, both folds over
the log.
-/
import Mathlib.Logic.Function.Basic
import Blackwall.FlowSpec.Manager
import Blackwall.State.Journal

namespace Blackwall.FlowSpec

open Base
open Bgp (FlowSpecRule)
open Rtbh (BlackholeOrigin)
open State (FlowSpecRules)

/-- A successful announce sets the key's rule, a successful withdraw
removes the key, a failed call changes nothing. -/
def wireStep (w : FlowKey → Option FlowSpecRule) :
    Call × Bool → FlowKey → Option FlowSpecRule
  | (.announceFlowspec r, true) => Function.update w (keyOf r) (some r)
  | (.withdrawFlowspec r, true) => Function.update w (keyOf r) none
  | _ => w

/-- The rules the executor has announced. -/
def wire (s : Sys) : FlowKey → Option FlowSpecRule :=
  s.view wireStep fun _ => none

/-- A successful journal call runs its statement; a failed one leaves the
table as it was. -/
def tableStep (tbl : FlowSpecRules) : Call × Bool → FlowSpecRules
  | (.recordAnnounce r o atMs, true) =>
      let (row, rate) := State.flattenFlowspec r
      State.recordFlowspec row rate o atMs tbl
  | (.recordWithdraw r atMs, true) =>
      State.clearFlowspec (State.flattenFlowspec r).1 atMs false tbl
  | _ => tbl

/-- The journal's table. -/
def table (s : Sys) : FlowSpecRules := s.view tableStep .empty

-- ======================================================= one call at a time

section Calls

variable (env : Outcomes Call) (s : Sys)

@[simp] theorem wire_update (f : FlowSpecManager → FlowSpecManager) :
    wire (s.update f) = wire s := rfl

theorem wire_call (c : Call) :
    wire (s.call env c) = wireStep (wire s) (c, s.outcome env c) :=
  Traced.view_call ..

theorem wire_call_other {c : Call} (h : c.isBgp = false) :
    wire (s.call env c) = wire s := by
  rw [wire_call]
  cases c <;> first | rfl | cases h

theorem table_call_other {c : Call} (h : c.isJournal = false) :
    table (s.call env c) = table s := by
  change (s.call env c).view tableStep .empty = _
  rw [Traced.view_call]
  cases c <;> first | rfl | cases h

end Calls

-- ============================================= the execute path, inverted

section Execute

variable (env : Outcomes Call)

/-- Journal calls mean nothing to the executor. -/
theorem wireStep_mirror (w : FlowKey → Option FlowSpecRule) (op : MirrorOp)
    (b : Bool) : wireStep w (op.call, b) = w := by
  cases op <;> rfl

/-- A mirror write touches the journal and its own queue, nothing
else. -/
theorem mirror_frame (op : MirrorOp) (s : Sys) :
    (mirror env op s).mgr.controller = s.mgr.controller
      ∧ (mirror env op s).mgr.pendingReapply = s.mgr.pendingReapply
      ∧ (mirror env op s).mgr.disarmed = s.mgr.disarmed
      ∧ wire (mirror env op s) = wire s :=
  ⟨Mirror.Queue.write_frame (f := FlowSpecManager.controller)
      (fun _ _ => rfl) op s,
    Mirror.Queue.write_frame (f := FlowSpecManager.pendingReapply)
      (fun _ _ => rfl) op s,
    Mirror.Queue.write_frame (f := FlowSpecManager.disarmed)
      (fun _ _ => rfl) op s,
    Mirror.Queue.write_view wireStep_mirror op s⟩

theorem retryPendingMirror_frame (s : Sys) :
    (retryPendingMirror env s).mgr.controller = s.mgr.controller
      ∧ (retryPendingMirror env s).mgr.pendingReapply
        = s.mgr.pendingReapply
      ∧ (retryPendingMirror env s).mgr.disarmed = s.mgr.disarmed
      ∧ wire (retryPendingMirror env s) = wire s :=
  ⟨Mirror.Queue.retryAll_frame (f := FlowSpecManager.controller)
      (fun _ _ => rfl) s,
    Mirror.Queue.retryAll_frame (f := FlowSpecManager.pendingReapply)
      (fun _ _ => rfl) s,
    Mirror.Queue.retryAll_frame (f := FlowSpecManager.disarmed)
      (fun _ _ => rfl) s,
    Mirror.Queue.retryAll_view wireStep_mirror s⟩

/-- With no re-announce queued, that self-heal does nothing. -/
theorem retryPendingReapply_idle {s : Sys}
    (h : s.mgr.pendingReapply = []) : retryPendingReapply env s = s := by
  obtain ⟨⟨c, pm, pr, af, rl, rc, d, ds⟩, log⟩ := s
  cases h
  rfl

/-- The BGP half of an announce: it went out and the manager is as it
was, or it did not and the key is rolled back. Neither touches the
mirror. -/
theorem announceOnBgp_cases (r : FlowSpecRule) (now : Nat) (s : Sys) :
    ((announceOnBgp env r now s).1 = .applied
        ∧ (announceOnBgp env r now s).2.mgr = s.mgr
        ∧ wire (announceOnBgp env r now s).2
          = Function.update (wire s) (keyOf r) (some r)
        ∧ table (announceOnBgp env r now s).2 = table s)
      ∨ ((announceOnBgp env r now s).1 ≠ .applied
        ∧ (announceOnBgp env r now s).2.mgr.controller
          = s.mgr.controller.rollback (keyOf r)
        ∧ (announceOnBgp env r now s).2.mgr.pendingReapply
          = s.mgr.pendingReapply
        ∧ wire (announceOnBgp env r now s).2 = wire s) := by
  unfold announceOnBgp
  split
  · exact Or.inr ⟨nofun, rfl, rfl, rfl⟩
  -- the limiter's call, when there is one, moves nothing the cases read
  obtain ⟨s₁, hs₁, hmgr, hwire, htbl⟩ : ∃ s₁ : Sys,
      (if s.mgr.rateLimiter then s.call env (.tryAcquire now) else s) = s₁
        ∧ s₁.mgr = s.mgr ∧ wire s₁ = wire s ∧ table s₁ = table s := by
    refine ⟨_, rfl, ?_⟩
    split
    · exact ⟨rfl, wire_call_other env s rfl, table_call_other env s rfl⟩
    · exact ⟨rfl, rfl, rfl⟩
  simp only [hs₁]
  split
  · refine Or.inr ⟨nofun, ?_, ?_, hwire⟩
    · rw [Traced.update_mgr, hmgr]
    · rw [Traced.update_mgr, hmgr]
  split
  · next hok =>
    refine Or.inl ⟨rfl, hmgr, ?_, ?_⟩
    · rw [wire_call, hok, ← hwire]
      rfl
    · rw [table_call_other env s₁ rfl, htbl]
  · next hok =>
    refine Or.inr ⟨nofun, ?_, ?_, ?_⟩
    · rw [Traced.update_mgr, Traced.call_mgr, hmgr]
    · rw [Traced.update_mgr, Traced.call_mgr, hmgr]
    · rw [wire_update, wire_call, Bool.not_eq_true _ |>.mp hok, ← hwire]
      rfl

end Execute

-- ======================================================= a sample policy

/-- A policy under which every IPv4 address may have rules, with no
hold-down: the concrete runs of the development use it. -/
def sampleConfig : FlowSpecConfig :=
  { eligiblePrefixes := [.v4 (.any 32)]
    maxRules := 8
    holdDown := 0
    maxTtl := none
    protectedPrefixes := [] }

/-- A drop rule for DNS over UDP towards a documentation address; `rate`
is the bit pattern of its traffic rate. -/
def sampleRule (rate : BitVec 32) : FlowSpecRule :=
  { dst := hostPrefix (.v4 0xC6336407), protocol := some 17
    dstPort := some 53, action := .trafficRate ⟨rate⟩ }

end Blackwall.FlowSpec
