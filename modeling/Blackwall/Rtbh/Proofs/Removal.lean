/-
How long an operator's removal lasts.

A removal reaches the journal through the withdraw it makes, and a target
the controller does not hold makes none. So a removal closes the
journal's row exactly when the target is active or has no row: a row the
controller has lost sight of stays, and the next start announces it
again. `Accounted` is that condition, on the state the removal finds.

The controller loses sight of a row where `rehydrate` skips one that is
over the cap, outside the policy or without a next-hop, and where `disarm`
sweeps the active set and leaves the rows.
-/
import Blackwall.Rtbh.Proofs.Disarm

namespace Blackwall.Rtbh

open Base
open Traced (Avoids)
open State (Blackholes listActiveBlackholes)

-- ======================================================= the journal's rows

/-- The journal's table, when it held `tbl` at the start. -/
def tableFrom (tbl : Blackholes) (s : Sys) : Blackholes :=
  s.view tableStep tbl

/-- Is this a journaled announce of `t`? -/
def Call.recordsAnnounce (t : IpAddr) : Call → Bool
  | .recordAnnounce t' _ _ => decide (t' = t)
  | _ => false

/-- Is this an announce of `t`'s blackhole on BGP? -/
def Call.announces (t : IpAddr) : Call → Bool
  | .announce route => decide (route.net = hostPrefix t)
  | _ => false

theorem tableFrom_call (env : Outcomes Call) (tbl : Blackholes) (c : Call)
    (s : Sys) :
    tableFrom tbl (s.call env c)
      = tableStep (tableFrom tbl s) (c, s.outcome env c) :=
  Traced.view_call ..

theorem active_tableStep (tbl : Blackholes) (c : Call) (ok : Bool)
    (t : IpAddr) (hc : c.recordsAnnounce t = false)
    (hnone : tbl.active t = none) :
    (tableStep tbl (c, ok)).active t = none := by
  cases ok with
  | false => cases c <;> exact hnone
  | true =>
      cases c with
      | recordAnnounce t' o atMs =>
          have hne : t ≠ t' := by
            intro he
            simp [Call.recordsAnnounce, he] at hc
          exact (Rows.active_upsert ..).trans ((if_neg hne).trans hnone)
      | recordWithdraw t' atMs =>
          refine (Rows.active_close ..).trans ?_
          split
          · rfl
          · exact hnone
      | tryAcquire now => exact hnone
      | announce route => exact hnone
      | withdraw net => exact hnone

/-- A row stays closed until an announce of its target is journaled. -/
theorem closed_until_announced {tbl : Blackholes} {s s' : Sys} {t : IpAddr}
    (h : Avoids (Call.recordsAnnounce t) s s')
    (hs : (tableFrom tbl s).active t = none) :
    (tableFrom tbl s').active t = none := by
  obtain ⟨added, hlog, hbad⟩ := h
  unfold tableFrom Traced.view at hs ⊢
  rw [hlog, List.foldl_append]
  generalize s.log.foldl tableStep tbl = w at hs
  clear hlog
  induction added generalizing w with
  | nil => exact hs
  | cons x added ih =>
      refine ih (fun y hy => hbad y (List.mem_cons_of_mem x hy)) _ ?_
      exact active_tableStep w x.1 x.2 t (hbad x List.mem_cons_self) hs

-- ============================================================== a restart

/-- A start announces no target without an active row. -/
theorem rehydrate_avoids {env : Outcomes Call} {now : Nat} {t : IpAddr}
    (rows : List (IpAddr × Nat × BlackholeOrigin)) (s : Sys)
    (hrows : ∀ row ∈ rows, row.1 ≠ t) :
    Avoids (Call.announces t) s (rehydrate env rows now s) := by
  refine (Avoids.loop (Call.announces t) (rehydrateRow env now)
    (P := fun _ => True) rows (fun s row hrow _ => ⟨trivial, ?_⟩)
    trivial).2
  unfold rehydrateRow
  rcases RtbhController.insertBlackhole_cases s.mgr.controller row.1 now
    row.2.2 with ⟨hact, -⟩ | ⟨route, hact, hnet, -⟩
  · change (s.mgr.controller.resume row.1 now row.2.2).1 = [] at hact
    simp only [hact, List.head?_nil]
    exact .update _ s
  · change (s.mgr.controller.resume row.1 now row.2.2).1
      = [.announce route] at hact
    have hne : Call.announces t (.announce route) = false := by
      rw [Call.announces, decide_eq_false_iff_not, hnet, hostPrefix_inj]
      exact hrows row hrow
    simp only [hact, List.head?_cons]
    split <;> exact Avoids.call hne (s.update _)

-- =============================================================== a removal

/-- The controller holds the target, or the journal has no active row for
it. -/
def Accounted (tbl : Blackholes) (t : IpAddr) (s : Sys) : Prop :=
  s.mgr.isActive t = true ∨ (tableFrom tbl s).active t = none

theorem accounted_iff {tbl : Blackholes} {t : IpAddr} {s : Sys} :
    Accounted tbl t s ↔ s.mgr.controller.origins t ≠ none
      ∨ (tableFrom tbl s).active t = none := by
  unfold Accounted
  rw [isActive_iff]

section Removal

variable {env : Outcomes Call}
variable (hok : ∀ i c, c.isLimiter = false → env i c = true)

include hok in
/-- A journal write that goes through is one call. -/
theorem mirror_ok (op : MirrorOp) (s : Sys) :
    mirror env op s = s.call env op.call := by
  have h : s.outcome env op.call = true := by
    refine hok _ _ ?_
    cases op <;> rfl
  unfold mirror Mirror.Queue.write
  exact if_pos h

include hok in
theorem withdraw_ok (t : IpAddr) (mono wall : Nat) (s : Sys) :
    executeAndJournal env mono wall (.withdraw (hostPrefix t)) s
      = (s.call env (.withdraw (hostPrefix t))).call env
        (.recordWithdraw t wall) := by
  have h : s.outcome env (.withdraw (hostPrefix t)) = true :=
    hok _ _ rfl
  simp only [executeAndJournal, h, if_true, addr_hostPrefix]
  exact mirror_ok hok (.withdraw t wall) _

include hok in
/-- It closes the row of its target and no other. -/
theorem active_withdraw_ok (tbl : Blackholes) (t t' : IpAddr)
    (mono wall : Nat) (s : Sys) :
    (tableFrom tbl (executeAndJournal env mono wall
        (.withdraw (hostPrefix t)) s)).active t'
      = if t' = t then none else (tableFrom tbl s).active t' := by
  rw [withdraw_ok hok, tableFrom_call, tableFrom_call]
  have h : ((s.call env (.withdraw (hostPrefix t))).outcome env
      (.recordWithdraw t wall)) = true := hok _ _ rfl
  rw [h]
  exact Rows.active_close ..

include hok in
/-- A removal leaves no row exactly when it finds the target tracked. -/
theorem removal_closes_iff (tbl : Blackholes) (t : IpAddr)
    (mono wall : Nat) (s : Sys) :
    (tableFrom tbl (applyRemove env t mono wall s)).active t = none
      ↔ Accounted tbl t s := by
  rw [accounted_iff]
  unfold applyRemove
  rcases RtbhController.manualRemove_cases s.mgr.controller t with
    ⟨hnone, hact, -⟩ | ⟨hheld, hact, -⟩
  · -- not active: nothing is called
    simp only [hact, executeAll, run_nil, hnone, ne_eq, not_true_eq_false,
      false_or]
    exact Iff.rfl
  · simp only [hact, executeAll, run_cons, run_nil]
    rw [active_withdraw_ok hok, if_pos rfl]
    exact iff_of_true rfl (.inl hheld)

end Removal

-- ============================================================ durability

/-- A start from the journal, and the operations since. -/
def life (env : Outcomes Call) (config : RtbhConfig) (lim : Bool)
    (tbl : Blackholes) (ord : IterOrder (Row IpAddr BlackholeOrigin))
    (mono : Nat) (ops : List Op) : Sys :=
  run (step env)
    (rehydrate env (listActiveBlackholes ord tbl) mono (start config lim))
    ops

/-- From `s` on, until an announce of `t` is journaled, the journal has
no active row for `t`, and a restart from it announces nothing for `t`
under any policy. -/
def StaysRemoved (env : Outcomes Call) (tbl : Blackholes) (t : IpAddr)
    (s : Sys) : Prop :=
  ∀ after : List Op,
    Avoids (Call.recordsAnnounce t) s (run (step env) s after) →
    (tableFrom tbl (run (step env) s after)).active t = none
      ∧ ∀ (env' : Outcomes Call) (config : RtbhConfig) (lim : Bool)
          (ord : IterOrder (Row IpAddr BlackholeOrigin)) (mono : Nat),
        Avoids (Call.announces t) (start config lim)
          (life env' config lim
            (tableFrom tbl (run (step env) s after)) ord mono [])

/-- With every BGP and journal call going through, a removal lasts
exactly when it finds the target active or without an active row. -/
theorem removal_durable_iff (env : Outcomes Call)
    (hok : ∀ i c, c.isLimiter = false → env i c = true)
    (config : RtbhConfig) (lim : Bool) (tbl : Blackholes)
    (ord : IterOrder (Row IpAddr BlackholeOrigin)) (mono : Nat)
    (ops : List Op) (t : IpAddr) (monoNow wallNow : Nat) :
    StaysRemoved env tbl t (applyRemove env t monoNow wallNow
        (life env config lim tbl ord mono ops))
      ↔ Accounted tbl t (life env config lim tbl ord mono ops) := by
  rw [← removal_closes_iff hok tbl t monoNow wallNow]
  constructor
  · intro h
    exact (h [] (.refl _)).1
  · intro hclosed after hquiet
    have hnone := closed_until_announced hquiet hclosed
    refine ⟨hnone, fun env' config' lim' ord' mono' => ?_⟩
    refine rehydrate_avoids _ _ fun row hrow he => ?_
    have hrow := State.mem_listActiveBlackholes hrow
    rw [he, hnone] at hrow
    cases hrow

/-- Two persisted blackholes, `198.51.100.7` and `198.51.100.8`. -/
def twoRows : Blackholes :=
  State.recordBlackhole (.v4 0xC6336408) .manual 1
    (State.recordBlackhole sampleTarget .manual 0 .empty)

/-- A policy with room for one. -/
def capOfOne : RtbhConfig := { sampleConfig with maxBlackholes := 1 }

/-- The removal of the blackhole the start had room for. -/
theorem removal_durable_iff_kept :
    StaysRemoved (fun _ _ => true) twoRows sampleTarget
        (applyRemove (fun _ _ => true) sampleTarget 1 1
          (life (fun _ _ => true) capOfOne false twoRows (.stored _) 0 []))
      ↔ Accounted twoRows sampleTarget
        (life (fun _ _ => true) capOfOne false twoRows (.stored _) 0 []) :=
  removal_durable_iff (fun _ _ => true) (fun _ _ _ => rfl) capOfOne false
    twoRows (.stored _) 0 [] sampleTarget 1 1

/-- The row of the one it had no room for is still active after its
removal, and once there is room a restart announces it. -/
theorem dropped_row_survives_removal :
    ¬ StaysRemoved (fun _ _ => true) twoRows (.v4 0xC6336408)
      (applyRemove (fun _ _ => true) (.v4 0xC6336408) 1 1
        (life (fun _ _ => true) capOfOne false twoRows (.stored _) 0
          [])) := by
  intro h
  exact absurd (h [] (.refl _)).1 (by decide)

end Blackwall.Rtbh
