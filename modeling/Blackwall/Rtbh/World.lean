/-
What the manager's calls mean to whoever receives them: the peer's
routing table, the prefixes whose last withdraw failed, and the journal's
table. All three are folds over the log, so they are facts about the
outside that no manager code can read.
-/
import Mathlib.Data.Finset.Basic
import Blackwall.Rtbh.Manager
import Blackwall.State.Journal

namespace Blackwall.Rtbh

open Base
open State (Blackholes)

-- ============================================================== the peer

/-- A successful announce inserts the route's prefix, a successful
withdraw removes it, a failed call changes nothing. -/
def ribStep (rib : Finset IpNet) : Call × Bool → Finset IpNet
  | (.announce r, true) => insert r.net rib
  | (.withdraw n, true) => rib.erase n
  | _ => rib

/-- The peer's routing table. -/
def rib (s : Sys) : Finset IpNet := s.view ribStep ∅

/-- A withdraw decides whether its prefix is stranded. -/
def strandedStep (st : Finset IpNet) : Call × Bool → Finset IpNet
  | (.withdraw n, true) => st.erase n
  | (.withdraw n, false) => insert n st
  | _ => st

/-- The prefixes whose most recent withdraw call failed. -/
def stranded (s : Sys) : Finset IpNet := s.view strandedStep ∅

-- =========================================================== the journal

/-- A successful journal call runs its statement; a failed one leaves the
table as it was. -/
def tableStep (tbl : Blackholes) : Call × Bool → Blackholes
  | (.recordAnnounce t o atMs, true) =>
      State.recordBlackhole t o atMs tbl
  | (.recordWithdraw t atMs, true) =>
      State.clearBlackhole t atMs false tbl
  | _ => tbl

/-- The journal's table. -/
def table (s : Sys) : Blackholes := s.view tableStep .empty

-- ======================================================= one call at a time

section Calls

variable (env : Outcomes Call) (s : Sys)

@[simp] theorem rib_update (f : RtbhManager → RtbhManager) :
    rib (s.update f) = rib s := rfl

@[simp] theorem stranded_update (f : RtbhManager → RtbhManager) :
    stranded (s.update f) = stranded s := rfl

theorem rib_call (c : Call) :
    rib (s.call env c) = ribStep (rib s) (c, s.outcome env c) :=
  Traced.view_call ..

theorem stranded_call (c : Call) :
    stranded (s.call env c)
      = strandedStep (stranded s) (c, s.outcome env c) :=
  Traced.view_call ..

theorem table_call (c : Call) :
    table (s.call env c) = tableStep (table s) (c, s.outcome env c) :=
  Traced.view_call ..

theorem rib_call_other {c : Call} (h : c.isBgp = false) :
    rib (s.call env c) = rib s := by
  rw [rib_call]
  cases c <;> first | rfl | cases h

theorem stranded_call_other {c : Call} (h : ∀ n, c ≠ .withdraw n) :
    stranded (s.call env c) = stranded s := by
  rw [stranded_call]
  cases c with
  | withdraw n => exact absurd rfl (h n)
  | _ => rfl

theorem table_call_other {c : Call} (h : c.isJournal = false) :
    table (s.call env c) = table s := by
  rw [table_call]
  cases c <;> first | rfl | cases h

end Calls

-- ============================================= the execute path, inverted

section Execute

variable (env : Outcomes Call)

/-- Journal calls mean nothing to the peer. -/
theorem ribStep_mirror (st : Finset IpNet) (op : MirrorOp) (b : Bool) :
    ribStep st (op.call, b) = st := by
  cases op <;> rfl

theorem strandedStep_mirror (st : Finset IpNet) (op : MirrorOp)
    (b : Bool) : strandedStep st (op.call, b) = st := by
  cases op <;> rfl

/-- A mirror write touches the journal and its own queue, nothing
else. -/
theorem mirror_frame (op : MirrorOp) (s : Sys) :
    (mirror env op s).mgr.controller = s.mgr.controller
      ∧ (mirror env op s).mgr.pendingReapply = s.mgr.pendingReapply
      ∧ rib (mirror env op s) = rib s
      ∧ stranded (mirror env op s) = stranded s :=
  ⟨Mirror.Queue.write_frame (f := RtbhManager.controller)
      (fun _ _ => rfl) op s,
    Mirror.Queue.write_frame (f := RtbhManager.pendingReapply)
      (fun _ _ => rfl) op s,
    Mirror.Queue.write_view ribStep_mirror op s,
    Mirror.Queue.write_view strandedStep_mirror op s⟩

theorem retryPendingMirror_frame (s : Sys) :
    (retryPendingMirror env s).mgr.controller = s.mgr.controller
      ∧ (retryPendingMirror env s).mgr.pendingReapply
        = s.mgr.pendingReapply
      ∧ rib (retryPendingMirror env s) = rib s
      ∧ stranded (retryPendingMirror env s) = stranded s :=
  ⟨Mirror.Queue.retryAll_frame (f := RtbhManager.controller)
      (fun _ _ => rfl) s,
    Mirror.Queue.retryAll_frame (f := RtbhManager.pendingReapply)
      (fun _ _ => rfl) s,
    Mirror.Queue.retryAll_view ribStep_mirror s,
    Mirror.Queue.retryAll_view strandedStep_mirror s⟩

/-- The BGP half of an announce: it went out and the manager is as it
was, or it did not and the target is rolled back. Neither touches the
mirror. -/
theorem announceOnBgp_cases (t : IpAddr) (route : Bgp.Route) (now : Nat)
    (s : Sys) :
    ((announceOnBgp env t route now s).1 = .applied
        ∧ (announceOnBgp env t route now s).2.mgr = s.mgr
        ∧ rib (announceOnBgp env t route now s).2
          = insert route.net (rib s)
        ∧ stranded (announceOnBgp env t route now s).2 = stranded s
        ∧ table (announceOnBgp env t route now s).2 = table s)
      ∨ ((announceOnBgp env t route now s).1 ≠ .applied
        ∧ (announceOnBgp env t route now s).2.mgr.controller
          = s.mgr.controller.rollback t
        ∧ (announceOnBgp env t route now s).2.mgr.pendingReapply
          = s.mgr.pendingReapply
        ∧ rib (announceOnBgp env t route now s).2 = rib s
        ∧ stranded (announceOnBgp env t route now s).2 = stranded s) := by
  unfold announceOnBgp
  split
  · exact Or.inr ⟨nofun, rfl, rfl, rfl, rfl⟩
  -- the limiter's call, when there is one, moves nothing the cases read
  obtain ⟨s₁, hs₁, hmgr, hrib, hstr, htbl⟩ : ∃ s₁ : Sys,
      (if s.mgr.rateLimiter then s.call env (.tryAcquire now) else s) = s₁
        ∧ s₁.mgr = s.mgr ∧ rib s₁ = rib s ∧ stranded s₁ = stranded s
        ∧ table s₁ = table s := by
    refine ⟨_, rfl, ?_⟩
    split
    · exact ⟨rfl, rib_call_other env s rfl,
        stranded_call_other env s (fun _ h => by cases h),
        table_call_other env s rfl⟩
    · exact ⟨rfl, rfl, rfl, rfl⟩
  simp only [hs₁]
  split
  · refine Or.inr ⟨nofun, ?_, ?_, hrib, hstr⟩
    · rw [Traced.update_mgr, hmgr]
    · rw [Traced.update_mgr, hmgr]
  have hstr' : stranded (s₁.call env (.announce route)) = stranded s := by
    rw [stranded_call_other env s₁ (fun _ h => by cases h), hstr]
  split
  · next hok =>
    refine Or.inl ⟨rfl, hmgr, ?_, hstr', ?_⟩
    · rw [rib_call, hok, ← hrib]
      rfl
    · rw [table_call_other env s₁ rfl, htbl]
  · next hok =>
    refine Or.inr ⟨nofun, ?_, ?_, ?_, hstr'⟩
    · rw [Traced.update_mgr, Traced.call_mgr, hmgr]
    · rw [Traced.update_mgr, Traced.call_mgr, hmgr]
    · rw [rib_update, rib_call, Bool.not_eq_true _ |>.mp hok, ← hrib]
      rfl

end Execute

-- ====================================== every entry point is made of calls

section Extends

open Traced (Extends)

variable (env : Outcomes Call)

theorem mirror_extends (op : MirrorOp) (s : Sys) :
    Extends env s (mirror env op s) :=
  Mirror.Queue.write_extends op s

theorem announceOnBgp_extends (t : IpAddr) (route : Bgp.Route) (now : Nat)
    (s : Sys) : Extends env s (announceOnBgp env t route now s).2 := by
  unfold announceOnBgp
  split
  · dsimp only
    exact .update _ .refl
  obtain ⟨s₁, hs₁, hacq⟩ : ∃ s₁ : Sys,
      (if s.mgr.rateLimiter then s.call env (.tryAcquire now) else s) = s₁
        ∧ Extends env s s₁ := by
    refine ⟨_, rfl, ?_⟩
    split
    · exact .call _ .refl
    · exact .refl
  simp only [hs₁]
  split
  · dsimp only
    exact hacq.update _
  split
  · exact hacq.call _
  · dsimp only
    exact (hacq.call _).update _

theorem executeAndJournalAnnounce_extends (t : IpAddr) (route : Bgp.Route)
    (o : BlackholeOrigin) (mono wall : Nat) (s : Sys) :
    Extends env s
      (executeAndJournalAnnounce env t route o mono wall s).2 := by
  have h := announceOnBgp_extends env t route mono s
  unfold executeAndJournalAnnounce
  split
  · next heq =>
    rw [heq] at h
    exact h.trans (mirror_extends env _ _)
  · next heq =>
    rw [heq] at h
    exact h

theorem executeAll_extends (mono wall : Nat) (actions : List RtbhAction)
    (s : Sys) : Extends env s (executeAll env mono wall actions s) := by
  refine Extends.loop (fun action s => ?_) actions s
  cases action with
  | announce route => exact executeAndJournalAnnounce_extends ..
  | withdraw net =>
      simp only [executeAndJournal]
      split
      · exact (Extends.refl.call _).trans (mirror_extends env _ _)
      · exact .call _ .refl

theorem retryPendingReapply_extends (s : Sys) :
    Extends env s (retryPendingReapply env s) := by
  refine (Extends.refl.update _).trans (Extends.loop (fun op s => ?_) _ _)
  unfold retryReapply
  split
  · simp only
    split
    · exact .call _ .refl
    · exact .update _ (.call _ .refl)
  · exact .refl

theorem applyAdd_extends (t : IpAddr) (mono wall : Nat) (s : Sys) :
    Extends env s (applyAdd env t mono wall s).2 := by
  have hset : Extends env s (s.update
      (.setController (s.mgr.controller.manualAdd t mono).2)) :=
    .update _ .refl
  unfold applyAdd
  simp only
  split
  · next route _ =>
    have h := hset.trans (executeAndJournalAnnounce_extends env t route
      .manual mono wall _)
    split <;> (next heq => rw [heq] at h; exact h)
  · repeat' split
    · exact hset.trans (mirror_extends env _ _)
    all_goals exact hset

theorem rehydrate_extends
    (rows : List (IpAddr × Nat × BlackholeOrigin)) (now : Nat) (s : Sys) :
    Extends env s (rehydrate env rows now s) := by
  refine Extends.loop (fun row s => ?_) rows s
  unfold rehydrateRow
  simp only
  split
  · split
    · exact .call _ (.update _ .refl)
    · exact .update _ (.call _ (.update _ .refl))
  · exact .update _ .refl

theorem disarm_extends
    (ord : IterOrder (Sigma fun _ : IpAddr => ActiveEntry)) (s : Sys) :
    Extends env s (disarm env ord s) := by
  unfold disarm
  split
  · exact .refl
  · refine (Extends.refl.update _).trans (Extends.loop (fun t s => ?_) _ _)
    refine (Extends.refl.update _).trans
      (Extends.loop (fun action s => ?_) _ _)
    cases action with
    | announce route => exact .refl
    | withdraw net => exact .call _ .refl

theorem step_extends (op : Op) (s : Sys) :
    Extends env s (step env op s) := by
  cases op with
  | applyEvent ev mono wall =>
      exact (Extends.refl.update _).trans (executeAll_extends ..)
  | applyAdd t mono wall => exact applyAdd_extends ..
  | applyRemove t mono wall =>
      exact (Extends.refl.update _).trans (executeAll_extends ..)
  | tick ord mono wall =>
      exact ((Mirror.Queue.retryAll_extends s).trans
        (retryPendingReapply_extends env _)).trans
        ((Extends.refl.update _).trans (executeAll_extends ..))
  | disarm ord => exact disarm_extends ..

/-- Without a failing withdraw nothing is stranded. -/
theorem stranded_eq_empty {env : Outcomes Call} {s s' : Sys}
    (hw : ∀ i n, env i (.withdraw n) = true) (h : Extends env s s')
    (hs : stranded s = ∅) : stranded s' = ∅ := by
  refine h.view_keeps (P := (· = ∅)) ?_ hs
  rintro w i c rfl
  cases c with
  | withdraw n =>
      rw [hw]
      rfl
  | _ => rfl

end Extends

-- ======================================================= a sample policy

/-- A policy under which every IPv4 address may be blackholed, with no
hold-down: the concrete runs of the development use it. -/
def sampleConfig : RtbhConfig :=
  { eligiblePrefixes := [.v4 (.any 32)]
    blackholeCommunities := [(65535, 666)]
    nextHopV4 := some 0xC0000201
    nextHopV6 := none
    maxBlackholes := 8
    holdDown := 0
    maxTtl := none
    protectedPrefixes := [] }

/-- A documentation address. -/
def sampleTarget : IpAddr := .v4 0xC6336407

end Blackwall.Rtbh
