/-
The peer's table against the active set.

# The invariant

`Wire` holds after every entry point, under every outcome of every call:

- `sub`: a prefix the peer holds is stranded (its last withdraw failed)
  or is the host prefix of an active target;
- `sup`: the host prefix of an active target is at the peer, or the
  target is queued for a re-announce left over from `rehydrate`;
- `routes`: a queued re-announce carries its own target's host prefix.

Two indices open the invariant up inside a loop: `gone` are the targets
the controller has already dropped and whose withdraw is still to be
sent, `rest` the queued re-announces the current retry has not reached.

# What it gives

With no failing withdraw nothing is ever stranded, and `sub` and `sup`
together are the agreement of the peer with the active set minus the
queue (`wire_agreement`). With withdraws failing, `sub` alone bounds what
the control plane can have forgotten (`leaked_prefix_stranded`): the
manager logs a failed withdraw and moves on, so the prefix stays up until
something withdraws it again (`failed_withdraw_forgotten`).
-/
import Blackwall.Rtbh.Proofs.Manager

namespace Blackwall.Rtbh

open Base
open RtbhController (origins)

/-- The peer agrees with the manager, up to the withdraws and retries a
running loop still owes. -/
structure Wire (gone : List IpAddr) (rest : List ReapplyOp) (s : Sys) :
    Prop where
  sub : ∀ p ∈ rib s, p ∈ stranded s ∨ ∃ t, p = hostPrefix t
    ∧ (s.mgr.controller.origins t ≠ none ∨ t ∈ gone)
  sup : ∀ t, s.mgr.controller.origins t ≠ none →
    hostPrefix t ∈ rib s
      ∨ ∃ op ∈ s.mgr.pendingReapply ++ rest, op.target = t
  routes : ∀ op ∈ s.mgr.pendingReapply ++ rest,
    op.route.net = hostPrefix op.target

theorem wire_start (config : RtbhConfig) (lim : Bool) :
    Wire [] [] (start config lim) := by
  refine ⟨?_, ?_, ?_⟩
  · intro p hp
    exact absurd hp (Finset.notMem_empty p)
  · intro t ht
    exact absurd rfl ht
  · intro op hop
    exact absurd hop List.not_mem_nil

/-- `Wire` reads the origins, the re-announce queue and the peer. -/
theorem Wire.congr {gone : List IpAddr} {rest : List ReapplyOp}
    {s s' : Sys} (h : Wire gone rest s)
    (horig : s'.mgr.controller.origins = s.mgr.controller.origins)
    (hre : s'.mgr.pendingReapply = s.mgr.pendingReapply)
    (hrib : rib s' = rib s) (hstr : stranded s' = stranded s) :
    Wire gone rest s' := by
  refine ⟨?_, ?_, ?_⟩
  · rw [hrib, hstr, horig]
    exact h.sub
  · rw [hrib, horig, hre]
    exact h.sup
  · rw [hre]
    exact h.routes

section Steps

variable {env : Outcomes Call} {s s₀ : Sys}

-- ============================================================== announces

/-- Announcing a target that was not active: it is active and at the
peer, or neither. `s` is `s₀` with the target freshly inserted. -/
theorem Wire.announced {t : IpAddr} {o : BlackholeOrigin}
    {route : Bgp.Route} {now : Nat} (h : Wire [] [] s₀)
    (hfresh : s₀.mgr.controller.origins t = none)
    (hroute : route.net = hostPrefix t)
    (horig : s.mgr.controller.origins
      = Function.update s₀.mgr.controller.origins t (some o))
    (hre : s.mgr.pendingReapply = s₀.mgr.pendingReapply)
    (hrib : rib s = rib s₀) (hstr : stranded s = stranded s₀) :
    Wire [] [] (announceOnBgp env t route now s).2 := by
  rcases announceOnBgp_cases env t route now s with
    ⟨-, hmgr, hrib', hstr', -⟩ | ⟨-, hctl, hre', hrib', hstr'⟩
  · refine ⟨?_, ?_, ?_⟩
    · intro p hp
      rw [hrib', hroute, hrib, Finset.mem_insert] at hp
      rw [hstr', hstr, hmgr, horig]
      rcases hp with rfl | hp
      · refine Or.inr ⟨t, rfl, Or.inl ?_⟩
        rw [Function.update_self]
        exact Option.some_ne_none o
      · rcases h.sub p hp with hst | ⟨t', rfl, hact | hnil⟩
        · exact Or.inl hst
        · refine Or.inr ⟨t', rfl, Or.inl ?_⟩
          have hne : t' ≠ t := fun he => hact (he ▸ hfresh)
          rw [Function.update_of_ne hne]
          exact hact
        · exact absurd hnil List.not_mem_nil
    · intro t' ht'
      rw [hmgr, horig] at ht'
      rw [hrib', hroute, hrib, hmgr, hre]
      by_cases he : t' = t
      · exact Or.inl (Finset.mem_insert.mpr (Or.inl (congrArg _ he)))
      · rw [Function.update_of_ne he] at ht'
        exact (h.sup t' ht').imp_left Finset.mem_insert_of_mem
    · rw [hmgr, hre]
      exact h.routes
  · -- rolled back: the origins are those of `s₀` again
    refine h.congr ?_ (hre'.trans hre) (hrib'.trans hrib) (hstr'.trans hstr)
    rw [hctl, RtbhController.origins_rollback, horig,
      Function.update_idem, ← hfresh, Function.update_eq_self]

theorem Wire.journaled {t : IpAddr} {o o' : BlackholeOrigin}
    {route : Bgp.Route} {mono wall : Nat} (h : Wire [] [] s₀)
    (hfresh : s₀.mgr.controller.origins t = none)
    (hroute : route.net = hostPrefix t)
    (horig : s.mgr.controller.origins
      = Function.update s₀.mgr.controller.origins t (some o))
    (hre : s.mgr.pendingReapply = s₀.mgr.pendingReapply)
    (hrib : rib s = rib s₀) (hstr : stranded s = stranded s₀) :
    Wire [] [] (executeAndJournalAnnounce env t route o' mono wall s).2 := by
  have hann : Wire [] [] (announceOnBgp env t route mono s).2 :=
    h.announced hfresh hroute horig hre hrib hstr
  unfold executeAndJournalAnnounce
  split
  · next s' heq =>
    rw [heq] at hann
    obtain ⟨hc, hr, hrib', hstr'⟩ :=
      mirror_frame env (.announce t o' wall) s'
    exact hann.congr (by rw [hc]) hr hrib' hstr'
  · next heq =>
    rw [heq] at hann
    exact hann

-- ============================================================== withdraws

theorem Wire.withdrawn {t : IpAddr} {gone : List IpAddr}
    {rest : List ReapplyOp} (h : Wire (t :: gone) rest s)
    (hgone : s.mgr.controller.origins t = none) :
    Wire gone rest (s.call env (.withdraw (hostPrefix t))) := by
  refine ⟨?_, ?_, h.routes⟩
  · intro p hp
    rw [Traced.call_mgr]
    rw [rib_call] at hp
    rw [stranded_call]
    cases hok : s.outcome env (.withdraw (hostPrefix t)) with
    | true =>
        rw [hok] at hp
        obtain ⟨hne, hp⟩ := Finset.mem_erase.mp hp
        rcases h.sub p hp with hst | ⟨t', rfl, hact | hmem⟩
        · exact Or.inl (Finset.mem_erase.mpr ⟨hne, hst⟩)
        · exact Or.inr ⟨t', rfl, Or.inl hact⟩
        · rcases List.mem_cons.mp hmem with rfl | hmem
          · exact absurd rfl hne
          · exact Or.inr ⟨t', rfl, Or.inr hmem⟩
    | false =>
        rw [hok] at hp
        rcases h.sub p hp with hst | ⟨t', rfl, hact | hmem⟩
        · exact Or.inl (Finset.mem_insert_of_mem hst)
        · exact Or.inr ⟨t', rfl, Or.inl hact⟩
        · rcases List.mem_cons.mp hmem with rfl | hmem
          · exact Or.inl (Finset.mem_insert_self _ _)
          · exact Or.inr ⟨t', rfl, Or.inr hmem⟩
  · intro t' ht'
    refine (h.sup t' ht').imp_left fun hin => ?_
    have hne : hostPrefix t' ≠ hostPrefix t := by
      rw [ne_eq, hostPrefix_inj]
      rintro rfl
      exact ht' hgone
    rw [rib_call]
    cases s.outcome env (.withdraw (hostPrefix t)) with
    | true => exact Finset.mem_erase.mpr ⟨hne, hin⟩
    | false => exact hin

theorem Wire.withdraw_journaled {t : IpAddr} {gone : List IpAddr}
    {rest : List ReapplyOp} (h : Wire (t :: gone) rest s)
    (env : Outcomes Call) (mono wall : Nat)
    (hgone : s.mgr.controller.origins t = none) :
    Wire gone rest
        (executeAndJournal env mono wall (.withdraw (hostPrefix t)) s)
      ∧ (executeAndJournal env mono wall
          (.withdraw (hostPrefix t)) s).mgr.controller
        = s.mgr.controller := by
  have hw : Wire gone rest (s.call env (.withdraw (hostPrefix t))) :=
    h.withdrawn hgone
  simp only [executeAndJournal]
  split
  · obtain ⟨hc, hr, hrib, hstr⟩ := mirror_frame env
      (.withdraw (hostPrefix t).addr wall)
      (s.call env (.withdraw (hostPrefix t)))
    exact ⟨hw.congr (by rw [hc]) hr hrib hstr, hc⟩
  · exact ⟨hw, rfl⟩

/-- The loop over a batch of withdraws the controller has already
applied. -/
theorem Wire.withdraw_all {rest : List ReapplyOp} {mono wall : Nat} :
    ∀ (gone : List IpAddr) {s : Sys}, Wire gone rest s →
      (∀ t ∈ gone, s.mgr.controller.origins t = none) →
      Wire [] rest (executeAll env mono wall
        (gone.map fun t => .withdraw (hostPrefix t)) s) := by
  intro gone
  induction gone with
  | nil => intro s h _; exact h
  | cons t gone ih =>
      intro s h hgone
      obtain ⟨hw, hc⟩ := h.withdraw_journaled env mono wall
        (hgone t List.mem_cons_self)
      refine ih hw fun t' ht' => ?_
      rw [hc]
      exact hgone t' (List.mem_cons_of_mem _ ht')

/-- Dropping one active target and sending its withdraw. -/
theorem Wire.removed {t : IpAddr} {c : RtbhController} {mono wall : Nat}
    (h : Wire [] [] s)
    (horig : c.origins
      = Function.update s.mgr.controller.origins t none) :
    Wire [] [] (executeAll env mono wall [.withdraw (hostPrefix t)]
      (s.update (.setController c))) := by
  refine Wire.withdraw_all [t] ⟨?_, ?_, h.routes⟩ ?_
  · intro p hp
    rcases h.sub p hp with hst | ⟨t', rfl, hact | hnil⟩
    · exact Or.inl hst
    · refine Or.inr ⟨t', rfl, ?_⟩
      by_cases he : t' = t
      · exact Or.inr (he ▸ List.mem_singleton_self t)
      · left
        show c.origins t' ≠ none
        rw [horig, Function.update_of_ne he]
        exact hact
    · exact absurd hnil List.not_mem_nil
  · intro t' ht'
    refine h.sup t' fun hn => ht' ?_
    show c.origins t' = none
    rw [horig, Function.update_apply, hn, ite_self]
  · intro t' ht'
    rw [List.mem_singleton.mp ht']
    show c.origins t = none
    rw [horig, Function.update_self]

-- ============================================================= self-heals

theorem Wire.retried_mirror {gone : List IpAddr} {rest : List ReapplyOp}
    (h : Wire gone rest s) : Wire gone rest (retryPendingMirror env s) := by
  obtain ⟨hc, hr, hrib, hstr⟩ := retryPendingMirror_frame env s
  exact h.congr (by rw [hc]) hr hrib hstr

/-- One queued re-announce: dropped, sent, or queued again. -/
theorem Wire.retried {op : ReapplyOp} {rest : List ReapplyOp}
    (h : Wire [] (op :: rest) s) : Wire [] rest (retryReapply env op s) := by
  have hroute : op.route.net = hostPrefix op.target :=
    h.routes op (List.mem_append_right _ List.mem_cons_self)
  have hrest : ∀ o ∈ s.mgr.pendingReapply ++ rest,
      o.route.net = hostPrefix o.target := fun o ho =>
    h.routes o (by
      rcases List.mem_append.mp ho with hp | hr
      · exact List.mem_append_left _ hp
      · exact List.mem_append_right _ (List.mem_cons_of_mem _ hr))
  -- the op is the only one that leaves the combined queue
  have hother : ∀ t, s.mgr.controller.origins t ≠ none → t ≠ op.target →
      hostPrefix t ∈ rib s
        ∨ ∃ o ∈ s.mgr.pendingReapply ++ rest, o.target = t := by
    intro t ht hne
    rcases h.sup t ht with hin | ⟨o, ho, rfl⟩
    · exact Or.inl hin
    · refine Or.inr ⟨o, ?_, rfl⟩
      rcases List.mem_append.mp ho with hp | hr
      · exact List.mem_append_left _ hp
      · rcases List.mem_cons.mp hr with rfl | hr
        · exact absurd rfl hne
        · exact List.mem_append_right _ hr
  have hstr : stranded (s.call env (.announce op.route)) = stranded s :=
    stranded_call_other env s (fun _ hc => by cases hc)
  unfold retryReapply
  split
  case isFalse hact =>
      refine ⟨fun p hp => h.sub p hp, fun t ht => hother t ht ?_, hrest⟩
      rintro rfl
      refine hact ?_
      rw [RtbhManager.isActive, decide_eq_true_eq]
      exact RtbhController.origins_isSome.mp
        (Option.isSome_iff_ne_none.mpr ht)
  case isTrue hact =>
      have hactive : s.mgr.controller.origins op.target ≠ none := by
        rw [RtbhManager.isActive, decide_eq_true_eq] at hact
        exact Option.isSome_iff_ne_none.mp
          (RtbhController.origins_isSome.mpr hact)
      simp only
      split
      · next hok =>
        have hrib : rib (s.call env (.announce op.route))
            = insert (hostPrefix op.target) (rib s) := by
          rw [rib_call, hok, ← hroute]
          rfl
        refine ⟨?_, ?_, hrest⟩
        · intro p hp
          rw [hrib, Finset.mem_insert] at hp
          rw [hstr]
          rcases hp with rfl | hp
          · exact Or.inr ⟨_, rfl, Or.inl hactive⟩
          · exact h.sub p hp
        · intro t ht
          rw [hrib]
          by_cases he : t = op.target
          · exact Or.inl (Finset.mem_insert.mpr (Or.inl (congrArg _ he)))
          · exact (hother t ht he).imp_left Finset.mem_insert_of_mem
      · next hok =>
        have hrib : rib (s.call env (.announce op.route)) = rib s := by
          rw [rib_call, Bool.not_eq_true _ |>.mp hok]
          rfl
        refine ⟨?_, ?_, ?_⟩
        · rw [rib_update, stranded_update, hrib, hstr]
          exact h.sub
        · intro t ht
          rw [rib_update, hrib, Traced.update_mgr]
          simpa [or_assoc, or_left_comm] using h.sup t ht
        · intro o ho
          refine h.routes o ?_
          simpa [or_assoc, or_left_comm] using ho

theorem Wire.retried_reapply (h : Wire [] [] s) :
    Wire [] [] (retryPendingReapply env s) := by
  have hloop : ∀ (ops : List ReapplyOp) (s : Sys), Wire [] ops s →
      Wire [] [] (run (retryReapply env) s ops) := by
    intro ops
    induction ops with
    | nil => intro s hs; exact hs
    | cons op ops ih => intro s hs; exact ih _ hs.retried
  refine hloop _ _ ⟨h.sub, ?_, ?_⟩
  · intro t ht
    simpa using h.sup t ht
  · intro o ho
    refine h.routes o ?_
    simpa using ho

end Steps

-- =========================================================== entry points

section Ops

variable {env : Outcomes Call} {s : Sys}

theorem Wire.applyEvent {ev : Flow.DetectionEvent} {mono wall : Nat}
    (h : Wire [] [] s) : Wire [] [] (applyEvent env ev mono wall s) := by
  unfold Rtbh.applyEvent
  rcases RtbhController.onEvent_cases s.mgr.controller ev mono with
    ⟨hact, horig⟩ | ⟨route, hact, hnet, hfresh, horig⟩ | ⟨hact, -, horig⟩
  · simp only [hact]
    exact h.congr horig rfl rfl rfl
  · simp only [hact, executeAll, run_cons, run_nil, executeAndJournal]
    rw [hnet, addr_hostPrefix]
    exact h.journaled hfresh hnet horig rfl rfl rfl
  · simp only [hact]
    exact h.removed horig

theorem Wire.applyAdd {t : IpAddr} {mono wall : Nat}
    (h : Wire [] [] s) : Wire [] [] (applyAdd env t mono wall s).2 := by
  cases applyAdd_adds env t mono wall s with
  | upgraded held acts origins active result =>
      -- the same targets are active
      have hiff : ∀ t', (added t mono s).mgr.controller.origins t' ≠ none
          ↔ s.mgr.controller.origins t' ≠ none := by
        intro t'
        rw [origins, Function.update_apply]
        split
        · next he => simp [he, held]
        · exact Iff.rfl
      have hup : Wire [] [] (added t mono s) := by
        refine ⟨?_, fun t' ht' => h.sup t' ((hiff t').mp ht'), h.routes⟩
        intro p hp
        refine (h.sub p hp).imp_right ?_
        rintro ⟨t', rfl, ht'⟩
        exact ⟨t', rfl, ht'.imp_left (hiff t').mpr⟩
      obtain ⟨hc, hr, hrib, hstr⟩ := mirror_frame env
        (.announce t .manual wall) (added t mono s)
      rw [result]
      exact hup.congr (by rw [hc]) hr hrib hstr
  | declined free origins out why state =>
      rw [state]
      exact h.congr origins rfl rfl rfl
  | inserted route x free acts net origins exec out why state =>
      rw [state, exec]
      exact h.journaled free net origins rfl rfl rfl

theorem Wire.applyRemove {t : IpAddr} {mono wall : Nat}
    (h : Wire [] [] s) : Wire [] [] (applyRemove env t mono wall s) := by
  unfold Rtbh.applyRemove
  rcases RtbhController.manualRemove_cases s.mgr.controller t with
    ⟨-, hact, horig⟩ | ⟨-, hact, horig⟩
  · simp only [hact]
    exact h.congr horig rfl rfl rfl
  · simp only [hact]
    exact h.removed horig

theorem Wire.tick
    {ord : IterOrder (Sigma fun _ : IpAddr => ActiveEntry)}
    {mono wall : Nat} (h : Wire [] [] s) :
    Wire [] [] (tick env ord mono wall s) := by
  unfold Rtbh.tick
  have hr : Wire [] [] (retryPendingReapply env
      (retryPendingMirror env s)) := h.retried_mirror.retried_reapply
  generalize retryPendingReapply env (retryPendingMirror env s) = s₁ at hr
  simp only [RtbhController.tick_actions]
  have horig := RtbhController.tick_origins s₁.mgr.controller ord mono
  refine Wire.withdraw_all _ ⟨?_, ?_, hr.routes⟩ ?_
  · intro p hp
    rcases hr.sub p hp with hst | ⟨t, rfl, hact | hnil⟩
    · exact Or.inl hst
    · refine Or.inr ⟨t, rfl, ?_⟩
      by_cases hx : t ∈ s₁.mgr.controller.expired ord mono
      · exact Or.inr hx
      · left
        show (s₁.mgr.controller.tick ord mono).2.origins t ≠ none
        rw [horig, if_neg hx]
        exact hact
    · exact absurd hnil List.not_mem_nil
  · intro t ht
    refine hr.sup t fun hn => ht ?_
    show (s₁.mgr.controller.tick ord mono).2.origins t = none
    rw [horig, hn, ite_self]
  · intro t ht
    show (s₁.mgr.controller.tick ord mono).2.origins t = none
    rw [horig, if_pos ht]

theorem Wire.disarmTarget {t : IpAddr} (h : Wire [] [] s) :
    Wire [] [] (disarmTarget env t s) := by
  unfold Rtbh.disarmTarget
  rcases RtbhController.manualRemove_cases s.mgr.controller t with
    ⟨-, hact, horig⟩ | ⟨-, hact, horig⟩
  · simp only [hact, run_nil]
    exact h.congr horig rfl rfl rfl
  · simp only [hact, run_cons, run_nil]
    have hopen : Wire [t] [] (s.update
        (.setController (s.mgr.controller.manualRemove t).2)) := by
      refine ⟨?_, ?_, h.routes⟩
      · intro p hp
        rcases h.sub p hp with hst | ⟨t', rfl, hact' | hnil⟩
        · exact Or.inl hst
        · refine Or.inr ⟨t', rfl, ?_⟩
          by_cases he : t' = t
          · exact Or.inr (he ▸ List.mem_singleton_self t)
          · left
            show (s.mgr.controller.manualRemove t).2.origins t' ≠ none
            rw [horig, Function.update_of_ne he]
            exact hact'
        · exact absurd hnil List.not_mem_nil
      · intro t' ht'
        refine h.sup t' fun hn => ht' ?_
        show (s.mgr.controller.manualRemove t).2.origins t' = none
        rw [horig, Function.update_apply, hn, ite_self]
    refine hopen.withdrawn ?_
    show (s.mgr.controller.manualRemove t).2.origins t = none
    rw [horig, Function.update_self]

theorem Wire.disarm
    {ord : IterOrder (Sigma fun _ : IpAddr => ActiveEntry)}
    (h : Wire [] [] s) : Wire [] [] (disarm env ord s) := by
  unfold Rtbh.disarm
  split
  · exact h
  · refine run_invariant (P := Wire [] [])
      (fun s t hs => hs.disarmTarget) _ ?_
    exact h.congr rfl rfl rfl rfl

/-- One row of `rehydrate`: re-announced, or kept and queued. -/
theorem Wire.rehydrateRow {row : IpAddr × Nat × BlackholeOrigin}
    {now : Nat} (h : Wire [] [] s) :
    Wire [] [] (rehydrateRow env now row s) := by
  unfold Rtbh.rehydrateRow RtbhController.resume
  rcases RtbhController.insertBlackhole_cases s.mgr.controller row.1 now
      row.2.2 with ⟨hact, horig⟩ | ⟨route, hact, hnet, hfresh, horig⟩
  · simp only [hact, List.head?_nil]
    exact h.congr horig rfl rfl rfl
  · simp only [hact, List.head?_cons]
    generalize hs₁ : s.update (.setController
      (s.mgr.controller.insertBlackhole row.1 now row.2.2).2) = s₁
    have horig₁ : s₁.mgr.controller.origins
        = Function.update s.mgr.controller.origins row.1 (some row.2.2) := by
      rw [← hs₁]
      exact horig
    have hre₁ : s₁.mgr.pendingReapply = s.mgr.pendingReapply := by
      rw [← hs₁]
      rfl
    have hrib₁ : rib s₁ = rib s := by rw [← hs₁]; rfl
    have hstr₁ : stranded (s₁.call env (.announce route)) = stranded s := by
      rw [stranded_call_other env s₁ (fun _ hc => by cases hc), ← hs₁]
      rfl
    have hact₁ : s₁.mgr.controller.origins row.1 ≠ none := by
      rw [horig₁, Function.update_self]
      exact Option.some_ne_none _
    -- targets other than the row's are as before
    have hold : ∀ p ∈ rib s, p ∈ stranded s ∨ ∃ t, p = hostPrefix t
        ∧ (s₁.mgr.controller.origins t ≠ none ∨ t ∈ ([] : List IpAddr)) := by
      intro p hp
      refine (h.sub p hp).imp_right ?_
      rintro ⟨t, rfl, hact | hnil⟩
      · refine ⟨t, rfl, Or.inl ?_⟩
        have hne : t ≠ row.1 := fun he => hact (he ▸ hfresh)
        rw [horig₁, Function.update_of_ne hne]
        exact hact
      · exact absurd hnil List.not_mem_nil
    split
    · next hok =>
      have hrib : rib (s₁.call env (.announce route))
          = insert (hostPrefix row.1) (rib s) := by
        rw [rib_call, hok, hrib₁, ← hnet]
        rfl
      refine ⟨?_, ?_, ?_⟩
      · intro p hp
        rw [hrib, Finset.mem_insert] at hp
        rw [hstr₁]
        rcases hp with rfl | hp
        · exact Or.inr ⟨_, rfl, Or.inl hact₁⟩
        · exact hold p hp
      · intro t ht
        rw [Traced.call_mgr, horig₁] at ht
        rw [hrib, Traced.call_mgr, hre₁]
        by_cases he : t = row.1
        · exact Or.inl (Finset.mem_insert.mpr (Or.inl (congrArg _ he)))
        · rw [Function.update_of_ne he] at ht
          exact (h.sup t ht).imp_left Finset.mem_insert_of_mem
      · rw [Traced.call_mgr, hre₁]
        exact h.routes
    · next hok =>
      have hrib : rib (s₁.call env (.announce route)) = rib s := by
        rw [rib_call, Bool.not_eq_true _ |>.mp hok, hrib₁]
        rfl
      refine ⟨?_, ?_, ?_⟩
      · rw [rib_update, stranded_update, hrib, hstr₁]
        exact hold
      · intro t ht
        rw [Traced.update_mgr, Traced.call_mgr] at ht
        rw [rib_update, hrib, Traced.update_mgr, Traced.call_mgr]
        by_cases he : t = row.1
        · refine Or.inr ⟨⟨row.1, route⟩, ?_, he.symm⟩
          simp [RtbhManager.queueReapply]
        · change s₁.mgr.controller.origins t ≠ none at ht
          rw [horig₁, Function.update_of_ne he] at ht
          rcases h.sup t ht with hin | ⟨op, hop, rfl⟩
          · exact Or.inl hin
          · refine Or.inr ⟨op, ?_, rfl⟩
            rw [List.append_nil] at hop
            simp [RtbhManager.queueReapply, hre₁, hop, he]
      · intro op hop
        rw [Traced.update_mgr, Traced.call_mgr, List.append_nil,
          RtbhManager.queueReapply, List.mem_append, List.mem_singleton,
          List.mem_filter, hre₁] at hop
        rcases hop with ⟨hop, -⟩ | rfl
        · exact h.routes op (List.mem_append_left _ hop)
        · exact hnet

/-- Every entry point keeps the invariant. -/
theorem Wire.step (op : Op) (h : Wire [] [] s) :
    Wire [] [] (step env op s) := by
  cases op with
  | applyEvent ev mono wall => exact h.applyEvent
  | applyAdd t mono wall => exact h.applyAdd
  | applyRemove t mono wall => exact h.applyRemove
  | tick ord mono wall => exact h.tick
  | disarm ord => exact h.disarm

/-- So does a run that starts with `rehydrate`. -/
theorem wire_run (env : Outcomes Call) (config : RtbhConfig) (lim : Bool)
    (rows : List (IpAddr × Nat × BlackholeOrigin)) (now : Nat)
    (ops : List Op) :
    Wire [] [] (run (Rtbh.step env)
      (rehydrate env rows now (start config lim)) ops) := by
  refine run_invariant (fun s op hs => hs.step op) ops ?_
  exact run_invariant (fun s row hs => hs.rehydrateRow) rows
    (wire_start config lim)

end Ops

-- ============================================================== agreement

/-- The target still waits for its re-announce: it is queued and active,
and the peer does not have it. -/
def AwaitsReapply (s : Sys) (t : IpAddr) : Prop :=
  (∃ op ∈ s.mgr.pendingReapply, op.target = t)
    ∧ t ∈ s.mgr.controller.active ∧ hostPrefix t ∉ rib s

/-- The peer holds exactly the host prefixes of the active targets that
do not wait for a re-announce. -/
def WireAgrees (s : Sys) : Prop :=
  ∀ p, p ∈ rib s ↔ ∃ t, p = hostPrefix t
    ∧ t ∈ s.mgr.controller.active ∧ ¬ AwaitsReapply s t

theorem Wire.agrees {s : Sys} (h : Wire [] [] s) (hstr : stranded s = ∅) :
    WireAgrees s := by
  intro p
  constructor
  · intro hp
    rcases h.sub p hp with hst | ⟨t, rfl, hact | hnil⟩
    · rw [hstr] at hst
      exact absurd hst (Finset.notMem_empty p)
    · refine ⟨t, rfl, ?_, fun hw => hw.2.2 hp⟩
      exact RtbhController.origins_isSome.mp
        (Option.isSome_iff_ne_none.mpr hact)
    · exact absurd hnil List.not_mem_nil
  · rintro ⟨t, rfl, hact, hwait⟩
    have horig : s.mgr.controller.origins t ≠ none :=
      Option.isSome_iff_ne_none.mp (RtbhController.origins_isSome.mpr hact)
    by_contra hnot
    rcases h.sup t horig with hin | ⟨op, hop, ht⟩
    · exact hnot hin
    · rw [List.append_nil] at hop
      exact hwait ⟨⟨op, hop, ht⟩, hact, hnot⟩

/-- Commit after confirm: from any rehydrated state, whatever announces,
limiter and journal do, the peer agrees with the active set after every
entry point, as long as no withdraw fails. -/
theorem wire_agreement (env : Outcomes Call)
    (hw : ∀ i n, env i (.withdraw n) = true) (config : RtbhConfig)
    (lim : Bool) (rows : List (IpAddr × Nat × BlackholeOrigin))
    (now : Nat) (ops : List Op) :
    WireAgrees (run (step env)
      (rehydrate env rows now (start config lim)) ops) := by
  refine (wire_run env config lim rows now ops).agrees ?_
  have hext := (rehydrate_extends env rows now (start config lim)).trans
    (Traced.Extends.loop (step_extends env) ops _)
  exact stranded_eq_empty hw hext rfl

/-- The first call fails unless it is a withdraw; all others succeed. -/
def firstCallFails : Outcomes Call := fun i c =>
  match c with
  | .withdraw _ => true
  | _ => decide (i ≠ 0)

/-- A rehydrate whose re-announce fails, then a tick that repeats it. -/
theorem wire_agreement_reapplied :
    WireAgrees (run (step firstCallFails)
      (rehydrate firstCallFails [(sampleTarget, 0, .auto)] 0
        (start sampleConfig true))
      [.tick (.stored _) 1 1]) :=
  wire_agreement firstCallFails (fun _ _ => rfl) sampleConfig true
    [(sampleTarget, 0, .auto)] 0 [.tick (.stored _) 1 1]

-- ====================================================== failed withdraws

/-- With nothing active and nothing queued, a tick makes no call. -/
theorem tick_idle (env : Outcomes Call)
    (ord : IterOrder (Sigma fun _ : IpAddr => ActiveEntry))
    (mono wall : Nat) {s : Sys} (hact : s.mgr.controller.active = ∅)
    (hmir : s.mgr.pendingMirror = []) (hre : s.mgr.pendingReapply = []) :
    tick env ord mono wall s = s := by
  have hheal : retryPendingReapply env (retryPendingMirror env s) = s := by
    obtain ⟨⟨c, pm, pr, af, rl, rc, d, ds⟩, log⟩ := s
    cases hmir
    cases hre
    rfl
  have hnil : s.mgr.controller.expired ord mono = [] := by
    have hent : ord.1 s.mgr.controller.active.entries = [] := by
      rw [hact]
      exact (ord.2 []).eq_nil
    rw [RtbhController.expired, hent]
    rfl
  unfold tick
  simp only [hheal, RtbhController.tick, hnil, List.map_nil, executeAll,
    run_nil]
  rfl

/-- Every prefix at the peer is an active target's or one whose latest
withdraw failed. -/
theorem leaked_prefix_stranded (env : Outcomes Call) (config : RtbhConfig)
    (lim : Bool) (ops : List Op) (p : IpNet)
    (hp : p ∈ rib (run (step env) (start config lim) ops)) :
    (∃ t, p = hostPrefix t
        ∧ t ∈ (run (step env) (start config lim) ops).mgr.controller.active)
      ∨ p ∈ stranded (run (step env) (start config lim) ops) := by
  rcases (wire_run env config lim [] 0 ops).sub p hp with
    hst | ⟨t, rfl, hact | hnil⟩
  · exact Or.inr hst
  · exact Or.inl ⟨t, rfl, RtbhController.origins_isSome.mp
      (Option.isSome_iff_ne_none.mpr hact)⟩
  · exact absurd hnil List.not_mem_nil

/-- An announced target is removed while withdraws fail. -/
def failedWithdrawRun : Sys :=
  run (step fun _ c => match c with
      | .withdraw _ => false
      | _ => true) (start sampleConfig false)
    [.applyAdd sampleTarget 0 0, .applyRemove sampleTarget 1 1]

theorem leaked_prefix_stranded_removed :
    hostPrefix sampleTarget ∈ rib failedWithdrawRun
      ∧ ((∃ t, hostPrefix sampleTarget = hostPrefix t
          ∧ t ∈ failedWithdrawRun.mgr.controller.active)
        ∨ hostPrefix sampleTarget ∈ stranded failedWithdrawRun) :=
  ⟨by decide, leaked_prefix_stranded _ _ _ _ _ (by decide)⟩

/-- The peer keeps the prefix, the target is not active, and no later
tick, whatever the outcomes, makes another call. -/
theorem failed_withdraw_forgotten :
    hostPrefix sampleTarget ∈ rib failedWithdrawRun
      ∧ sampleTarget ∉ failedWithdrawRun.mgr.controller.active
      ∧ ∀ (env : Outcomes Call)
          (ticks : List (IterOrder (Sigma fun _ : IpAddr => ActiveEntry)
            × Nat × Nat)),
        run (step env) failedWithdrawRun
          (ticks.map fun t => .tick t.1 t.2.1 t.2.2) = failedWithdrawRun := by
  refine ⟨by decide, by decide, fun env ticks => ?_⟩
  induction ticks with
  | nil => rfl
  | cons t ticks ih =>
      rw [List.map_cons, run_cons]
      have hidle : step env (.tick t.1 t.2.1 t.2.2) failedWithdrawRun
          = failedWithdrawRun :=
        tick_idle env t.1 t.2.1 t.2.2 rfl rfl rfl
      rw [hidle]
      exact ih

end Blackwall.Rtbh
