/-
What `reapply_active` lets past the guards of the XDP plane.

The rows of the journal come back by `mark_resumed` and a bare executor
call, under whatever configuration the daemon has by now. Neither guard is
asked: a block that a new own prefix overlaps is applied again, and the
rows count towards the cap without being held to it. Everything else a
manager does heeds both (`Passes`), so that they hold in every state of a
life exactly when every rehydration of it respects them by itself.
-/
import Mathlib.Data.Finset.Card
import Blackwall.XdpPlane.Proofs.Agree
import Blackwall.XdpPlane.Proofs.Victims

namespace Blackwall.XdpPlane

open Base Base.Traced
open Blackwall.Flow (DetectionEvent)

/-- A block of a network that overlaps an own prefix. -/
def selfBlocks (c : XdpController) : Call → Bool
  | .apply (.block net) => c.overlapsOwnPrefix net
  | _ => false

-- ======================================================= a running manager

/-- Both guards have been heeded on the way from `s` to `s'`. -/
structure Passes (c₀ : XdpController) (s s' : Sys) : Prop where
  heeds : s.mgr.controller.Heeds s'.mgr.controller
  avoids : Avoids (selfBlocks c₀) s s'

section Running

variable {c₀ : XdpController} {env : Outcomes Call} {s s' s'' : Sys}

theorem Passes.refl (c₀ : XdpController) (s : Sys) : Passes c₀ s s :=
  ⟨.refl _, .refl s⟩

theorem Passes.trans (h : Passes c₀ s s') (h' : Passes c₀ s' s'') :
    Passes c₀ s s'' :=
  ⟨h.heeds.trans h'.heeds, h.avoids.trans h'.avoids⟩

/-- A transition of the controller, no call made. -/
theorem Passes.hand {c : XdpController} (h : s.mgr.controller.Heeds c) :
    Passes c₀ s (s.update (.setController c)) :=
  ⟨h, .refl s⟩

/-- A call that does not block an own prefix. -/
theorem Passes.call {c : Call} (hc : selfBlocks c₀ c = false) :
    Passes c₀ s (s.call env c) :=
  ⟨.refl _, .call hc s⟩

/-- A loop whose turns heed the guards where those before them did. -/
theorem Passes.loop {A : Type} (step : A → Sys → Sys) (as : List A)
    (hstep : ∀ s', ∀ a ∈ as, s.mgr.controller.Heeds s'.mgr.controller →
      Passes c₀ s' (step a s')) : Passes c₀ s (run step s as) := by
  obtain ⟨hheeds, havoids⟩ := Avoids.loop (selfBlocks c₀) step
    (P := fun s' => s.mgr.controller.Heeds s'.mgr.controller) as
    (fun s' a ha h => ⟨h.trans (hstep s' a ha h).heeds,
      (hstep s' a ha h).avoids⟩) (.refl _)
  exact ⟨hheeds, havoids⟩

/-- The execute path: a rollback frees an entry, nothing adds one. -/
theorem Passes.execute {a : XdpAction}
    (ha : selfBlocks c₀ (.apply a) = false) (o : XdpOrigin) (wall : Nat)
    (fresh : Bool) (s : Sys) :
    Passes c₀ s (executeAndJournal env a o wall fresh s).2 := by
  have hundo : s.mgr.controller.Heeds
      (if fresh then s.mgr.controller.rollback a
        else s.mgr.controller) := by
    cases fresh
    · exact .refl _
    · exact XdpController.rollback_heeds a _
  have hcall : Passes c₀ s (s.call env (.apply a)) := .call ha
  unfold executeAndJournal applyOnMaps
  dsimp only
  by_cases hgate : (s.mgr.disarmed && a.isInstall) = true
  · rw [if_pos hgate]
    exact ⟨hundo, .refl s⟩
  · rw [if_neg hgate]
    by_cases hout : s.outcome env (.apply a) = true
    · rw [if_pos hout]
      refine hcall.trans ⟨?_, Mirror.Queue.write_avoids (fun _ => rfl) _ _⟩
      rw [(mirror_frame env _ _).1]
      exact .refl _
    · rw [if_neg hout]
      exact ⟨hundo, hcall.avoids⟩

/-- No action of a detection blocks anything. -/
theorem onDetection_no_block {ord : IterOrder IpAddr} {ev : DetectionEvent}
    {c : XdpController} {a : XdpAction} (ha : a ∈ (c.onDetection ord ev).1) :
    selfBlocks c₀ (.apply a) = false := by
  cases ev with
  | opened d =>
      obtain ⟨src, pps, burst, victim, rfl⟩ :=
        (XdpController.handleDetection_limits d c).installs a ha
      rfl
  | updated d =>
      obtain ⟨src, pps, burst, victim, rfl⟩ :=
        (XdpController.handleDetection_limits d c).installs a ha
      rfl
  | cleared target atMs =>
      obtain ⟨src, rfl, -⟩ :=
        ((XdpController.handleCleared_clears ord target c).acts_iff a).mp ha
      rfl

theorem Passes.onDetection (ord : IterOrder IpAddr) (ev : DetectionEvent)
    (wall : Nat) (s : Sys) :
    Passes c₀ s (onDetection env ord ev wall s) := by
  refine Passes.trans
    (.hand (XdpController.onDetection_heeds ord ev s.mgr.controller)) ?_
  exact .loop _ _ fun s' a ha _ =>
    .execute (onDetection_no_block ha) .auto wall true s'

/-- `apply_add` has asked for the own prefixes before it hands a block
out. -/
theorem Passes.applyAdd (hf : c₀.Fenced s.mgr.controller) (net : IpNet)
    (wall : Nat) : Passes c₀ s (applyAdd env net wall s).2 := by
  have hheeds := XdpController.manualBlock_heeds net s.mgr.controller
  have hok : ∀ a c, s.mgr.controller.manualBlock net = (.ok a, c) →
      selfBlocks c₀ (.apply a) = false := by
    intro a c heq
    unfold XdpController.manualBlock at heq
    split at heq
    · cases heq
    · next hown =>
      split at heq
      · cases heq
      · cases heq
        exact (hf.overlaps net).symm.trans (Bool.not_eq_true _ ▸ hown)
  rw [applyAdd_state]
  revert hok hheeds
  obtain ⟨r, c⟩ := s.mgr.controller.manualBlock net
  intro hheeds hok
  cases r with
  | ok a => exact Passes.trans (.hand hheeds) (.execute (hok a c rfl) ..)
  | error e => exact .hand hheeds

theorem Passes.applyRateLimit (src : IpAddr) (pps burst wall : Nat)
    (s : Sys) :
    Passes c₀ s (applyRateLimit env src pps burst wall s).2 := by
  have hheeds := XdpController.manualRateLimit_heeds src pps burst
    s.mgr.controller
  rw [applyRateLimit_state]
  rcases XdpController.manualRateLimit_cases src pps burst
    s.mgr.controller with ⟨e, he⟩ | ⟨c, hok, -⟩
  · rw [he] at hheeds ⊢
    exact .hand hheeds
  · rw [hok] at hheeds ⊢
    exact Passes.trans (.hand hheeds) (.execute rfl ..)

/-- A queued re-apply is of an entry the controller has. -/
theorem Passes.retryReapply (hempty : ∀ net, c₀.isBlocked net = false)
    (hf : c₀.Fenced s.mgr.controller) (op : ReapplyOp) :
    Passes c₀ s (retryReapply env op s) := by
  unfold XdpPlane.retryReapply
  split
  · exact .refl c₀ s
  · next action hact =>
    have hgood : selfBlocks c₀ (.apply action) = false := by
      obtain ⟨key⟩ := op
      cases key with
      | src a =>
        obtain ⟨e, -, rfl⟩ := Option.map_eq_some_iff.mp hact
        rfl
      | net net =>
        obtain ⟨o, ho, rfl⟩ := Option.map_eq_some_iff.mp hact
        have hblocked : s.mgr.controller.isBlocked net = true := by
          rw [XdpController.isBlocked, ho]
          rfl
        rcases hf.blocks net hblocked with hb | hno
        · rw [hempty net] at hb
          cases hb
        · exact hno
    have hcall : Passes c₀ s (s.call env (.apply action)) := .call hgood
    dsimp only
    split
    · exact hcall
    · exact ⟨hcall.heeds, hcall.avoids⟩

theorem Passes.tick (hempty : ∀ net, c₀.isBlocked net = false)
    (hf : c₀.Fenced s.mgr.controller) : Passes c₀ s (tick env s) := by
  have hctl := (retryPendingMirror_frame env s).1
  have hmirror : Passes c₀ s (retryPendingMirror env s) := by
    refine ⟨?_, Mirror.Queue.retryAll_avoids (fun _ => rfl) s⟩
    rw [hctl]
    exact .refl _
  refine hmirror.trans ?_
  have hclear : Passes c₀ (retryPendingMirror env s)
      ((retryPendingMirror env s).update fun m =>
        { m with pendingReapply := [] }) := ⟨.refl _, .refl _⟩
  refine hclear.trans (.loop _ _ fun s' op _ hs' => ?_)
  refine .retryReapply hempty ?_ op
  exact (hf.trans hmirror.heeds.toFenced).trans hs'.toFenced

theorem Passes.disarmEntry (a : XdpAction) (s : Sys) :
    Passes c₀ s (disarmEntry env a s) := by
  cases a with
  | block net =>
      exact (Passes.hand (XdpController.manualUnblock_heeds net _)).trans
        (.call rfl)
  | rateLimit src pps burst victim =>
      exact (Passes.hand (XdpController.manualClearRate_heeds src _)).trans
        (.call rfl)
  | unblock net => exact .refl c₀ s
  | clearRate src => exact .refl c₀ s

/-- Every entry point of a running manager. -/
theorem Passes.step (hempty : ∀ net, c₀.isBlocked net = false)
    (hf : c₀.Fenced s.mgr.controller) (op : Op) :
    Passes c₀ s (step env op s) := by
  cases op with
  | onDetection ord ev wall => exact .onDetection ord ev wall s
  | applyAdd net wall => exact .applyAdd hf net wall
  | applyRemove net wall =>
      exact Passes.trans
        (.hand (XdpController.manualUnblock_heeds net s.mgr.controller))
        (.execute rfl ..)
  | applyRateLimit src pps burst wall =>
      exact .applyRateLimit src pps burst wall s
  | applyClearRate src wall =>
      exact Passes.trans
        (.hand (XdpController.manualClearRate_heeds src s.mgr.controller))
        (.execute rfl ..)
  | tick => exact .tick hempty hf
  | disarm ordRate ordBlock =>
      show Passes c₀ s (disarm env ordRate ordBlock s)
      unfold disarm
      split
      · exact .refl c₀ s
      · have hflag : Passes c₀ s
            (s.update fun m => { m with disarmed := true }) :=
          ⟨.refl _, .refl _⟩
        exact hflag.trans (.loop _ _ fun s' a _ _ => .disarmEntry a s')

end Running

-- ================================================================= restarts

namespace XdpController

variable {c₀ c : XdpController}

/-- The identities of the rows that are not active yet. -/
def newcomers (c : XdpController) (rows : List (XdpAction × XdpOrigin)) :
    Finset MirrorKey :=
  (((rows.map (·.1)).filter XdpAction.isInstall).map
    mirrorKeyOf).toFinset.filter fun k => (c.entryAt k).isNone

theorem markResumed_removal {a : XdpAction} (ha : a.isInstall = false)
    (o : XdpOrigin) : c.markResumed a o = c := by
  cases a with
  | rateLimit src pps burst victim => cases ha
  | block net => cases ha
  | unblock net => rfl
  | clearRate src => rfl

theorem entryAt_markResumed {a : XdpAction} (ha : a.isInstall = true)
    (o : XdpOrigin) :
    (c.markResumed a o).entryAt
      = Function.update c.entryAt (mirrorKeyOf a) a.entry := by
  cases a with
  | rateLimit src pps burst victim =>
      refine entryAt_update (x := some (.rateLimit src pps burst victim, o))
        ?_
      cases victim <;>
        exact heldAt_limit (e := ⟨o, pps, burst, _⟩) rfl rfl
  | block net =>
      refine entryAt_update (x := some (.block net, o)) ?_
      exact heldAt_block rfl rfl
  | unblock net => cases ha
  | clearRate src => cases ha

/-- A row takes up an entry unless its identity has one. -/
theorem totalActive_markResumed {a : XdpAction} (ha : a.isInstall = true)
    (o : XdpOrigin) :
    (c.markResumed a o).totalActive
      = if (c.entryAt (mirrorKeyOf a)).isNone then c.totalActive + 1
        else c.totalActive := by
  cases a with
  | rateLimit src pps burst victim =>
      have hlen : (c.markResumed (.rateLimit src pps burst victim)
          o).totalActive = (c.rateLimited.insert src
            ⟨o, pps, burst, victim⟩).entries.length
              + c.blockedNets.entries.length := by
        cases victim <;> rfl
      rw [hlen, Dict.length_insert, mirrorKeyOf, entryAt, totalActive]
      cases c.rateLimited.lookup src <;> simp
      omega
  | block net =>
      show c.rateLimited.entries.length
        + (c.blockedNets.insert net o).entries.length = _
      rw [Dict.length_insert, mirrorKeyOf, entryAt, totalActive]
      cases c.blockedNets.lookup net <;> simp
      omega
  | unblock net => cases ha
  | clearRate src => cases ha

theorem newcomers_cons {a : XdpAction} (ha : a.isInstall = true)
    (o : XdpOrigin) (rows : List (XdpAction × XdpOrigin)) :
    (c.newcomers ((a, o) :: rows)).card
      = ((c.markResumed a o).newcomers rows).card
        + if (c.entryAt (mirrorKeyOf a)).isNone then 1 else 0 := by
  have hrest : (c.markResumed a o).newcomers rows
      = (c.newcomers rows).erase (mirrorKeyOf a) := by
    ext k
    unfold newcomers
    rw [entryAt_markResumed ha, Finset.mem_erase, Finset.mem_filter,
      Finset.mem_filter, Function.update_apply]
    by_cases hk : k = mirrorKeyOf a
    · obtain ⟨e, he⟩ := Option.isSome_iff_exists.mp
        (a.entry_isSome.trans ha)
      simp [hk, he]
    · simp [hk]
  have hall : c.newcomers ((a, o) :: rows)
      = if (c.entryAt (mirrorKeyOf a)).isNone
        then insert (mirrorKeyOf a) (c.newcomers rows)
        else c.newcomers rows := by
    unfold newcomers
    simp only [List.map_cons, List.filter_cons, ha, if_true,
      List.toFinset_cons, Finset.filter_insert]
  rw [hrest, hall]
  by_cases hnone : (c.entryAt (mirrorKeyOf a)).isNone = true
  · rw [if_pos hnone, if_pos hnone, ← Finset.erase_insert_eq_erase]
    exact (Finset.card_erase_add_one (Finset.mem_insert_self ..)).symm
  · rw [if_neg hnone, if_neg hnone, Finset.erase_eq_of_notMem]
    · rfl
    · exact fun hmem => hnone (Finset.mem_filter.mp hmem).2

/-- Rehydration takes up one entry for each identity that is new. -/
theorem totalActive_resumed (rows : List (XdpAction × XdpOrigin))
    (c : XdpController) :
    (run (fun row c => c.markResumed row.1 row.2) c rows).totalActive
      = c.totalActive + (c.newcomers rows).card := by
  induction rows generalizing c with
  | nil => rfl
  | cons row rows ih =>
      obtain ⟨a, o⟩ := row
      rw [run_cons, ih]
      dsimp only
      cases ha : a.isInstall with
      | true =>
          rw [totalActive_markResumed ha, newcomers_cons ha]
          split <;> omega
      | false =>
          rw [markResumed_removal ha]
          simp [newcomers, ha]

/-- With no row that blocks an own prefix, the blocks stay clear of
them. -/
theorem Fenced.resumed (h : c₀.Fenced c)
    {rows : List (XdpAction × XdpOrigin)}
    (hrows : ∀ row ∈ rows, selfBlocks c₀ (.apply row.1) = false) :
    c₀.Fenced (run (fun row c => c.markResumed row.1 row.2) c rows) := by
  refine run_invariant_mem rows ?_ h
  rintro c ⟨a, o⟩ hrow h
  cases a with
  | rateLimit src pps burst victim =>
      cases victim <;> exact ⟨h.prefixes, h.cap, h.blocks⟩
  | block net =>
      refine ⟨h.prefixes, h.cap, fun n hb => ?_⟩
      change ((c.blockedNets.insert net o).lookup n).isSome = true at hb
      rw [Dict.lookup_insert_if] at hb
      split at hb
      · next hn => exact .inr (hn ▸ hrows _ hrow)
      · exact h.blocks n hb
  | unblock net => exact h
  | clearRate src => exact h

end XdpController

/-- `reapply_active` folds every row in. -/
theorem controller_reapplyActive (env : Outcomes Call)
    (rows : List (XdpAction × XdpOrigin)) (s : Sys) :
    (reapplyActive env rows s).mgr.controller
      = run (fun row c => c.markResumed row.1 row.2) s.mgr.controller
        rows := by
  induction rows generalizing s with
  | nil => rfl
  | cons row rows ih =>
      refine (ih (reapplyRow env row s)).trans ?_
      rw [run_cons]
      unfold reapplyRow
      dsimp only
      split <;> rfl

/-- And applies every row. -/
theorem calls_reapplyActive (env : Outcomes Call)
    (rows : List (XdpAction × XdpOrigin)) (s : Sys) :
    (reapplyActive env rows s).log.map (·.1)
      = s.log.map (·.1) ++ rows.map fun row => .apply row.1 := by
  induction rows generalizing s with
  | nil => exact (List.append_nil _).symm
  | cons row rows ih =>
      have hone : (reapplyRow env row s).log.map (·.1)
          = s.log.map (·.1) ++ [.apply row.1] := by
        unfold reapplyRow
        dsimp only
        split <;> simp [call_log]
      refine (ih (reapplyRow env row s)).trans ?_
      rw [hone, List.append_assoc]
      rfl

-- ============================================================== whole lives

/-- No block of an own prefix has reached the executor, and the entries
keep to the cap. -/
def GuardsHold (c₀ : XdpController) (s : Sys) : Prop :=
  (∀ call ∈ s.log.map (·.1), selfBlocks c₀ call = false)
    ∧ s.mgr.controller.totalActive ≤ c₀.maxEntries

/-- The rows of a rehydration block no own prefix, and there is room for
the identities that are new. -/
def Entry.Respects (s : Sys) : Entry → Prop
  | .reapplyActive rows =>
      (∀ row ∈ rows, selfBlocks s.mgr.controller (.apply row.1) = false)
        ∧ s.mgr.controller.totalActive
          + (s.mgr.controller.newcomers rows).card
            ≤ s.mgr.controller.maxEntries
  | .op _ => True

theorem XdpController.Fenced.selfBlocks {c₀ c : XdpController}
    (h : c₀.Fenced c) (call : Call) :
    selfBlocks c call = selfBlocks c₀ call := by
  unfold XdpPlane.selfBlocks
  split
  · exact h.overlaps _
  · rfl

section Lives

variable {c₀ : XdpController} {env : Outcomes Call} {s : Sys}

theorem guardsHold_reapplyActive (hf : c₀.Fenced s.mgr.controller)
    (hg : GuardsHold c₀ s) (rows : List (XdpAction × XdpOrigin)) :
    GuardsHold c₀ (reapplyActive env rows s)
      ↔ (Entry.reapplyActive rows).Respects s := by
  unfold GuardsHold Entry.Respects
  rw [calls_reapplyActive, controller_reapplyActive,
    XdpController.totalActive_resumed, hf.cap]
  refine and_congr_left fun _ => ?_
  constructor
  · intro h row hrow
    rw [hf.selfBlocks]
    exact h _ (List.mem_append_right _ (List.mem_map.mpr ⟨row, hrow, rfl⟩))
  · intro h call hcall
    rcases List.mem_append.mp hcall with hcall | hcall
    · exact hg.1 call hcall
    · obtain ⟨row, hrow, rfl⟩ := List.mem_map.mp hcall
      rw [← hf.selfBlocks]
      exact h row hrow

theorem GuardsHold.passes {s' : Sys} (hf : c₀.Fenced s.mgr.controller)
    (hg : GuardsHold c₀ s) (h : Passes c₀ s s') : GuardsHold c₀ s' := by
  obtain ⟨added, hlog, hgood⟩ := h.avoids
  refine ⟨fun call hcall => ?_, ?_⟩
  · rw [hlog, List.map_append] at hcall
    rcases List.mem_append.mp hcall with hcall | hcall
    · exact hg.1 call hcall
    · obtain ⟨x, hx, rfl⟩ := List.mem_map.mp hcall
      exact hgood x hx
  · have hcap := h.heeds.capped
    rw [hf.cap] at hcap
    exact hcap hg.2

end Lives

/-- Both guards hold in every state of a manager's life exactly when every
rehydration of it respects them. -/
theorem guards_hold_iff (env : Outcomes Call) (prefixes : List IpNet)
    (cap rate : Nat) (prot : List IpNet) (es : List Entry) :
    (∀ n, GuardsHold (.new prefixes cap rate prot)
      (run (enter env) (start (.new prefixes cap rate prot)) (es.take n)))
      ↔ Guarded (enter env) (fun s e => e.Respects s)
        (start (.new prefixes cap rate prot)) es := by
  have hempty : ∀ net, (XdpController.new prefixes cap rate prot).isBlocked
      net = false := fun _ => rfl
  refine run_take_iff_under (I := fun s =>
    (XdpController.new prefixes cap rate prot).Fenced s.mgr.controller)
    es ?_ ?_ (XdpController.Heeds.refl _).toFenced
    ⟨fun _ h => absurd h List.not_mem_nil, Nat.zero_le cap⟩
  · intro s e _ hf hg hguard
    cases e with
    | reapplyActive rows =>
        show XdpController.Fenced _ (reapplyActive env rows s).mgr.controller
        rw [controller_reapplyActive]
        refine hf.resumed fun row hrow => ?_
        rw [← hf.selfBlocks]
        exact hguard.1 row hrow
    | op op =>
        have hstep : Passes _ s (step env op s) := .step hempty hf op
        exact hf.trans hstep.heeds.toFenced
  · intro s e _ hf hg
    cases e with
    | reapplyActive rows => exact guardsHold_reapplyActive hf hg rows
    | op op =>
        exact iff_of_true (hg.passes hf (.step hempty hf op)) trivial

/-- A block of what is an own prefix by now, and one row more than the cap
has become. -/
theorem rehydrated_self_block :
    let own : IpNet := .v4 (.slash 0xCB007100 24)
    let c₀ : XdpController := .new [own] 1 1000 []
    let s := run (enter fun _ _ => true) (start c₀)
      [.reapplyActive [(.block own, .manual),
        (.rateLimit (.v4 0x01020304) 10 10 none, .manual)]]
    (Call.apply (.block own), true) ∈ s.log
      ∧ c₀.overlapsOwnPrefix own = true
      ∧ s.mgr.controller.totalActive = 2 ∧ c₀.maxEntries = 1 := by
  decide

end Blackwall.XdpPlane
