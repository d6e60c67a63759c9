/-
When a detected target is blackholed.

`on_event` announces on `Opened` only: an `Updated` refreshes an active
entry and never inserts one. So a target whose one announce failed stays
unprotected for as long as its detection stays open, and the run below
shows it (`failed_announce_not_reattempted`).

What does hold needs an invariant across the two components (`Held`):
every target the detector has open and the manager may blackhole is
active with no clear pending, or its latest announce failed. The pieces
are `Untouched`, what a step leaves alone about one target, and one lemma
for each event a target can get.
-/
import Blackwall.Rtbh.Pipeline
import Blackwall.Rtbh.Proofs.Wire

namespace Blackwall.Rtbh

open Base
open Blackwall.Flow (DetectionEvent ThresholdDetector)

-- ================================================= the controller's share

namespace RtbhController

theorem insertBlackhole_config (c : RtbhController) (t : IpAddr)
    (now : Nat) (o : BlackholeOrigin) :
    (c.insertBlackhole t now o).2.config = c.config := by
  unfold insertBlackhole
  repeat' split
  all_goals rfl

theorem onEvent_config (c : RtbhController) (ev : DetectionEvent)
    (now : Nat) : (c.onEvent ev now).2.config = c.config := by
  cases ev with
  | opened d => exact insertBlackhole_config c d.target now .auto
  | updated d => rfl
  | cleared t atMs =>
      simp only [onEvent, requestClear]
      repeat' split
      all_goals rfl

/-- An event about another target leaves an entry alone. -/
theorem onEvent_lookup_other (c : RtbhController) (ev : DetectionEvent)
    (now : Nat) {t : IpAddr} (h : ev.target ≠ t) :
    (c.onEvent ev now).2.active.lookup t = c.active.lookup t := by
  have hne : t ≠ ev.target := h.symm
  cases ev with
  | opened d =>
      simp only [onEvent, insertBlackhole]
      repeat' split
      all_goals first
        | rfl
        | exact (Dict.lookup_modify ..).trans (if_neg hne)
        | exact AList.lookup_insert_ne hne
  | updated d => exact (Dict.lookup_modify ..).trans (if_neg hne)
  | cleared t' atMs =>
      simp only [onEvent, requestClear]
      repeat' split
      all_goals first
        | rfl
        | exact AList.lookup_erase_ne hne
        | exact AList.lookup_insert_ne hne

/-- What may be blackholed is a matter of policy. -/
theorem mitigable_congr {c c' : RtbhController}
    (h : c'.config = c.config) (t : IpAddr) :
    c'.mitigable t = c.mitigable t := by
  unfold mitigable isEligible isProtected
  cases t with
  | v4 a => simp only [hasNextHop, h]
  | v6 a => simp only [hasNextHop, h]

/-- `insert_blackhole` of a target that may be blackholed and has room:
re-asserted when active, announced when not. -/
theorem insertBlackhole_mitigable {c : RtbhController} {t : IpAddr}
    (now : Nat) (o : BlackholeOrigin) (hm : c.mitigable t = true)
    (hroom : t ∉ c.active → c.atCap = false) :
    (∃ e, (c.insertBlackhole t now o).1 = []
        ∧ (c.insertBlackhole t now o).2.active.lookup t = some e
        ∧ e.clearRequestedAt = none)
      ∨ ∃ route e, (c.insertBlackhole t now o).1 = [.announce route]
        ∧ route.net = hostPrefix t
        ∧ (c.insertBlackhole t now o).2.active.lookup t = some e
        ∧ e.clearRequestedAt = none := by
  simp only [mitigable, Bool.and_eq_true, Bool.not_eq_true'] at hm
  obtain ⟨⟨hel, hpr⟩, hnh⟩ := hm
  unfold insertBlackhole
  rw [if_neg (by rw [hpr]; exact Bool.false_ne_true),
    if_neg (by rw [hel]; exact Bool.false_ne_true)]
  by_cases hact : t ∈ c.active
  · rw [if_pos hact]
    obtain ⟨e, he⟩ := Option.isSome_iff_exists.mp
      (AList.lookup_isSome.mpr hact)
    refine Or.inl ⟨{ e with clearRequestedAt := none
                            lastActivity := now }, rfl, ?_, rfl⟩
    show (Dict.modify t _ c.active).lookup t = _
    rw [Dict.lookup_modify, if_pos rfl, he]
    rfl
  · obtain ⟨r, hr⟩ := Option.isSome_iff_exists.mp
      ((hostRoute_isSome c t).trans hnh)
    have hlt := of_decide_eq_false (hroom hact)
    rw [if_neg hact, if_neg hlt, hr]
    exact Or.inr ⟨r, _, rfl, hostRoute_net hr, AList.lookup_insert _, rfl⟩

end RtbhController

-- ================================================ what is left alone

/-- The policy and the kill switch are as they were. -/
structure Steady (s s' : Sys) : Prop where
  config : s'.mgr.controller.config = s.mgr.controller.config
  armed : s'.mgr.disarmed = s.mgr.disarmed

/-- Nothing a step did concerns `t`. -/
structure Untouched (t : IpAddr) (s s' : Sys) : Prop
    extends Steady s s' where
  entry : s'.mgr.controller.active.lookup t
    = s.mgr.controller.active.lookup t
  latest : hostPrefix t ∈ failed s' ↔ hostPrefix t ∈ failed s

theorem Steady.trans {s s' s'' : Sys} (h : Steady s s')
    (h' : Steady s' s'') : Steady s s'' :=
  ⟨h'.config.trans h.config, h'.armed.trans h.armed⟩

theorem Untouched.refl (t : IpAddr) (s : Sys) : Untouched t s s :=
  ⟨⟨rfl, rfl⟩, rfl, Iff.rfl⟩

theorem Untouched.trans {t : IpAddr} {s s' s'' : Sys}
    (h : Untouched t s s') (h' : Untouched t s' s'') :
    Untouched t s s'' :=
  ⟨h.toSteady.trans h'.toSteady, h'.entry.trans h.entry,
    h'.latest.trans h.latest⟩

theorem Steady.mitigable {s s' : Sys} (h : Steady s s') (t : IpAddr) :
    s'.mgr.controller.mitigable t = s.mgr.controller.mitigable t :=
  RtbhController.mitigable_congr h.config t

section Steps

variable {env : Outcomes Call} {s : Sys}

theorem failed_call (env : Outcomes Call) (s : Sys) (c : Call) :
    failed (s.call env c) = failedStep (failed s) (c, s.outcome env c) :=
  Traced.view_call ..

theorem failedStep_mirror (st : Finset IpNet) (op : MirrorOp) (b : Bool) :
    failedStep st (op.call, b) = st := by
  cases op <;> rfl

theorem mirror_untouched (t : IpAddr) (op : MirrorOp) (s : Sys) :
    Untouched t s (mirror env op s) := by
  have hc := (mirror_frame env op s).1
  have hv : failed (mirror env op s) = failed s :=
    Mirror.Queue.write_view failedStep_mirror op s
  refine ⟨⟨by rw [hc], ?_⟩, by rw [hc], by rw [hv]⟩
  exact Mirror.Queue.write_frame (f := RtbhManager.disarmed)
    (fun _ _ => rfl) op s

theorem withdraw_untouched (t : IpAddr) (mono wall : Nat) (net : IpNet)
    (s : Sys) :
    Untouched t s (executeAndJournal env mono wall (.withdraw net) s) := by
  have hcall : Untouched t s (s.call env (.withdraw net)) := by
    refine ⟨⟨rfl, rfl⟩, rfl, ?_⟩
    rw [failed_call]
    rfl
  simp only [executeAndJournal]
  split
  · exact hcall.trans (mirror_untouched t _ _)
  · exact hcall

/-- An announce goes out and the controller keeps its entry, or it fails
and the entry is rolled back; its prefix is marked accordingly. -/
theorem announce_cases (hlim : ∀ i n, env i (.tryAcquire n) = true)
    (harm : s.mgr.disarmed = false) (mono wall : Nat) (route : Bgp.Route) :
    (executeAndJournal env mono wall (.announce route) s).mgr.disarmed
        = false
      ∧ (((executeAndJournal env mono wall (.announce route)
            s).mgr.controller = s.mgr.controller
          ∧ failed (executeAndJournal env mono wall (.announce route) s)
            = (failed s).erase route.net)
        ∨ ((executeAndJournal env mono wall (.announce route)
            s).mgr.controller = s.mgr.controller.rollback route.net.addr
          ∧ failed (executeAndJournal env mono wall (.announce route) s)
            = insert route.net (failed s)
          ∧ ∃ added, (executeAndJournal env mono wall (.announce route)
              s).log = s.log ++ added
            ∧ (Call.announce route, false) ∈ added)) := by
  -- the limiter's call, when there is one, is granted and moves nothing
  obtain ⟨s₁, hs₁, hmgr, hfail, acq, hlog⟩ : ∃ s₁ : Sys,
      (if s.mgr.rateLimiter then s.call env (.tryAcquire mono) else s) = s₁
        ∧ s₁.mgr = s.mgr ∧ failed s₁ = failed s
        ∧ ∃ acq, s₁.log = s.log ++ acq := by
    refine ⟨_, rfl, ?_⟩
    split
    · exact ⟨rfl, failed_call env s _, _, Traced.call_log env _ s⟩
    · exact ⟨rfl, rfl, [], (List.append_nil _).symm⟩
  have hallowed : (!(!s.mgr.rateLimiter
      || s.outcome env (.tryAcquire mono))) = false := by
    rw [Traced.outcome, hlim, Bool.or_true]
    rfl
  unfold executeAndJournal executeAndJournalAnnounce announceOnBgp
  simp only [harm, Bool.false_eq_true, if_false, hs₁, hallowed]
  cases hok : s₁.outcome env (.announce route) with
  | true =>
      simp only [if_true]
      have hun : Untouched route.net.addr (s₁.call env (.announce route))
          (mirror env (.announce route.net.addr .auto wall)
            (s₁.call env (.announce route))) := mirror_untouched ..
      refine ⟨?_, Or.inl ⟨?_, ?_⟩⟩
      · rw [hun.armed, Traced.call_mgr, hmgr, harm]
      · rw [(mirror_frame env _ _).1, Traced.call_mgr, hmgr]
      · rw [show failed (mirror env (.announce route.net.addr .auto wall)
              (s₁.call env (.announce route)))
            = failed (s₁.call env (.announce route)) from
          Mirror.Queue.write_view failedStep_mirror _ _,
          failed_call, hok, hfail]
        rfl
  | false =>
      simp only [Bool.false_eq_true, if_false]
      refine ⟨?_, Or.inr ⟨?_, ?_, acq ++ [(.announce route, false)], ?_, ?_⟩⟩
      · rw [Traced.update_mgr, Traced.call_mgr, hmgr, harm]
      · rw [Traced.update_mgr, Traced.call_mgr, hmgr]
      · show failed (s₁.call env (.announce route)) = _
        rw [failed_call, hok, hfail]
        rfl
      · rw [Traced.update_log, Traced.call_log, hok, hlog,
          List.append_assoc]
      · exact List.mem_append_right _ List.mem_cons_self

/-- An event never moves the policy or the kill switch. -/
theorem applyEvent_steady (hlim : ∀ i n, env i (.tryAcquire n) = true)
    (harm : s.mgr.disarmed = false) (ev : DetectionEvent)
    (mono wall : Nat) : Steady s (applyEvent env ev mono wall s) := by
  have hset : Steady s (s.update
      (.setController (s.mgr.controller.onEvent ev mono).2)) :=
    ⟨RtbhController.onEvent_config .., rfl⟩
  unfold Rtbh.applyEvent
  generalize hs₁ : s.update
    (.setController (s.mgr.controller.onEvent ev mono).2) = s₁ at hset
  have harm₁ : s₁.mgr.disarmed = false := hset.armed.trans harm
  rcases RtbhController.onEvent_cases s.mgr.controller ev mono with
    ⟨hact, -⟩ | ⟨route, hact, -, -, -⟩ | ⟨hact, -, -⟩
  · simp only [hact, executeAll, run_nil, hs₁]
    exact hset
  · simp only [hact, executeAll, run_cons, run_nil, hs₁]
    refine hset.trans ?_
    obtain ⟨harm', ⟨hc, -⟩ | ⟨hc, -, -⟩⟩ :=
      announce_cases hlim harm₁ mono wall route
    · exact ⟨by rw [hc], harm'.trans harm₁.symm⟩
    · exact ⟨by rw [hc]; rfl, harm'.trans harm₁.symm⟩
  · simp only [hact, executeAll, run_cons, run_nil, hs₁]
    exact hset.trans
      (withdraw_untouched ev.target mono wall _ s₁).toSteady

/-- An event about another target leaves `t` alone. -/
theorem applyEvent_untouched (hlim : ∀ i n, env i (.tryAcquire n) = true)
    (harm : s.mgr.disarmed = false) {t : IpAddr} {ev : DetectionEvent}
    (mono wall : Nat) (h : ev.target ≠ t) :
    Untouched t s (applyEvent env ev mono wall s) := by
  suffices hboth : (applyEvent env ev mono wall
        s).mgr.controller.active.lookup t
        = s.mgr.controller.active.lookup t
      ∧ (hostPrefix t ∈ failed (applyEvent env ev mono wall s)
        ↔ hostPrefix t ∈ failed s) from
    ⟨applyEvent_steady hlim harm ev mono wall, hboth.1, hboth.2⟩
  have hother : (s.update (.setController
        (s.mgr.controller.onEvent ev mono).2)).mgr.controller.active.lookup t
      = s.mgr.controller.active.lookup t :=
    RtbhController.onEvent_lookup_other _ _ _ h
  unfold Rtbh.applyEvent
  generalize hs₁ : s.update
    (.setController (s.mgr.controller.onEvent ev mono).2) = s₁ at hother
  have harm₁ : s₁.mgr.disarmed = false := by rw [← hs₁]; exact harm
  have hfail : failed s₁ = failed s := by rw [← hs₁]; rfl
  rcases RtbhController.onEvent_cases s.mgr.controller ev mono with
    ⟨hact, -⟩ | ⟨route, hact, hnet, -, -⟩ | ⟨hact, -, -⟩
  · simp only [hact, executeAll, run_nil, hs₁]
    exact ⟨hother, by rw [hfail]⟩
  · simp only [hact, executeAll, run_cons, run_nil, hs₁]
    have hne : hostPrefix t ≠ route.net := by
      rw [hnet, Ne, hostPrefix_inj]
      exact h.symm
    have haddr : t ≠ route.net.addr := by
      rw [hnet, addr_hostPrefix]
      exact h.symm
    obtain ⟨-, ⟨hc, hf⟩ | ⟨hc, hf, -⟩⟩ :=
      announce_cases hlim harm₁ mono wall route
    · refine ⟨by rw [hc, hother], ?_⟩
      rw [hf, hfail, Finset.mem_erase]
      exact and_iff_right hne
    · refine ⟨?_, ?_⟩
      · rw [hc, ← hother]
        exact AList.lookup_erase_ne haddr
      · rw [hf, hfail, Finset.mem_insert]
        exact or_iff_right hne
  · simp only [hact, executeAll, run_cons, run_nil, hs₁]
    have hw : Untouched t s₁ (executeAndJournal env mono wall
        (.withdraw (hostPrefix ev.target)) s₁) := withdraw_untouched ..
    exact ⟨hw.entry.trans hother, hw.latest.trans (by rw [hfail])⟩

/-- So do the events of other targets, one after another. -/
theorem deliver_untouched (hlim : ∀ i n, env i (.tryAcquire n) = true)
    (harm : s.mgr.disarmed = false) {t : IpAddr}
    (clock : DetectionEvent → Nat × Nat) (evs : List DetectionEvent)
    (h : ∀ ev ∈ evs, ev.target ≠ t) :
    Untouched t s (run (deliver env clock) s evs) := by
  refine run_invariant_mem (P := Untouched t s) evs ?_ (.refl t s)
  intro s' ev hev hs'
  exact hs'.trans (applyEvent_untouched hlim (hs'.armed.trans harm) _ _
    (h ev hev))

-- ===================================================== a target's own event

/-- Active with no clear pending, or not active after a failed
announce. -/
def Held (t : IpAddr) (s : Sys) : Prop :=
  (∃ e, s.mgr.controller.active.lookup t = some e
      ∧ e.clearRequestedAt = none)
    ∨ (s.mgr.controller.active.lookup t = none ∧ hostPrefix t ∈ failed s)

theorem Held.congr {t : IpAddr} {s s' : Sys} (h : Held t s)
    (hu : Untouched t s s') : Held t s' := by
  rcases h with ⟨e, he, hc⟩ | ⟨hn, hf⟩
  · exact Or.inl ⟨e, hu.entry.trans he, hc⟩
  · exact Or.inr ⟨hu.entry.trans hn, hu.latest.mpr hf⟩

/-- An `Opened` with room makes its target active, or its announce fails
then and there. -/
theorem opened_held (hlim : ∀ i n, env i (.tryAcquire n) = true)
    (harm : s.mgr.disarmed = false) (mono wall : Nat) (d : Flow.Detection)
    (hm : s.mgr.controller.mitigable d.target = true)
    (hroom : findsRoom s (.opened d) = true) :
    (∃ e, (applyEvent env (.opened d) mono wall
          s).mgr.controller.active.lookup d.target = some e
        ∧ e.clearRequestedAt = none)
      ∨ ((applyEvent env (.opened d) mono wall
            s).mgr.controller.active.lookup d.target = none
        ∧ hostPrefix d.target
          ∈ failed (applyEvent env (.opened d) mono wall s)
        ∧ ∃ r added, (applyEvent env (.opened d) mono wall s).log
            = s.log ++ added
          ∧ r.net = hostPrefix d.target
          ∧ (Call.announce r, false) ∈ added) := by
  have hroom' : d.target ∉ s.mgr.controller.active →
      s.mgr.controller.atCap = false := by
    intro hn
    simpa [findsRoom, hm, hn] using hroom
  unfold Rtbh.applyEvent
  simp only [RtbhController.onEvent]
  rcases RtbhController.insertBlackhole_mitigable mono .auto hm hroom' with
    ⟨e, hact, hlk, hc⟩ | ⟨route, e, hact, hnet, hlk, hc⟩
  · simp only [hact, executeAll, run_nil]
    exact Or.inl ⟨e, hlk, hc⟩
  · simp only [hact, executeAll, run_cons, run_nil]
    generalize hs₁ : s.update (.setController
      (s.mgr.controller.insertBlackhole d.target mono .auto).2) = s₁
    have harm₁ : s₁.mgr.disarmed = false := by rw [← hs₁]; exact harm
    have hlk₁ : s₁.mgr.controller.active.lookup d.target = some e := by
      rw [← hs₁]
      exact hlk
    obtain ⟨-, ⟨hc', -⟩ | ⟨hc', hf, added, hlog, hmem⟩⟩ :=
      announce_cases hlim harm₁ mono wall route
    · rw [hc']
      exact Or.inl ⟨e, hlk₁, hc⟩
    · refine Or.inr ⟨?_, ?_, route, added, ?_, hnet, hmem⟩
      · rw [hc', hnet, addr_hostPrefix]
        exact AList.lookup_erase _ _
      · rw [hf, hnet]
        exact Finset.mem_insert_self _ _
      · rw [hlog, ← hs₁]
        rfl

/-- An `Updated` moves no target in or out, and makes no call. -/
theorem updated_entry (mono wall : Nat) (d : Flow.Detection) :
    (applyEvent env (.updated d) mono wall
        s).mgr.controller.active.lookup d.target
      = (s.mgr.controller.active.lookup d.target).map fun e =>
        { e with lastActivity := mono, clearRequestedAt := none } := by
  show (Dict.modify d.target _ s.mgr.controller.active).lookup d.target = _
  rw [Dict.lookup_modify, if_pos rfl]

theorem Held.updated (mono wall : Nat) {d : Flow.Detection}
    (h : Held d.target s) :
    Held d.target (applyEvent env (.updated d) mono wall s) := by
  rcases h with ⟨e, he, -⟩ | ⟨hn, hf⟩
  · refine Or.inl ⟨{ e with lastActivity := mono
                            clearRequestedAt := none }, ?_, rfl⟩
    rw [updated_entry, he]
    rfl
  · refine Or.inr ⟨?_, hf⟩
    rw [updated_entry, hn]
    rfl

-- ========================================================= a manager tick

theorem retryPendingReapply_frame (env : Outcomes Call) (s : Sys) :
    (retryPendingReapply env s).mgr.controller = s.mgr.controller
      ∧ (retryPendingReapply env s).mgr.disarmed = s.mgr.disarmed := by
  refine run_invariant
    (P := fun s' : Sys => s'.mgr.controller = s.mgr.controller
      ∧ s'.mgr.disarmed = s.mgr.disarmed) ?_ _ ⟨rfl, rfl⟩
  intro s' op hs'
  unfold retryReapply
  dsimp only
  repeat' split
  all_goals exact hs'

/-- A re-announce of some active target says nothing about one that is
not. -/
theorem Held.retried (env : Outcomes Call) {t : IpAddr}
    (hroutes : ∀ op ∈ s.mgr.pendingReapply,
      op.route.net = hostPrefix op.target) (h : Held t s) :
    Held t (retryPendingReapply env s) := by
  refine run_invariant_mem (P := Held t) _ ?_ h
  intro s' op hop hh
  have hcall : s'.mgr.isActive op.target = true →
      Held t (s'.call env (.announce op.route)) := by
    intro hact
    rcases hh with hin | ⟨hn, hf⟩
    · exact Or.inl hin
    · refine Or.inr ⟨hn, ?_⟩
      have hne : t ≠ op.target := by
        rintro rfl
        exact AList.lookup_eq_none.mp hn (of_decide_eq_true hact)
      have hnet : hostPrefix t ≠ op.route.net := by
        rw [hroutes op hop, Ne, hostPrefix_inj]
        exact hne
      rw [failed_call]
      cases s'.outcome env (.announce op.route) with
      | true => exact Finset.mem_erase.mpr ⟨hnet, hf⟩
      | false => exact Finset.mem_insert_of_mem hf
  unfold retryReapply
  split
  case isTrue hact =>
      dsimp only
      split
      · exact hcall hact
      · exact hcall hact
  case isFalse => exact hh

theorem executeAll_withdraws_untouched (t : IpAddr) (mono wall : Nat)
    (gone : List IpAddr) (s : Sys) :
    Untouched t s (executeAll env mono wall
      (gone.map fun u => .withdraw (hostPrefix u)) s) := by
  refine run_invariant_mem (P := Untouched t s) _ ?_ (.refl t s)
  intro s' action haction hs'
  obtain ⟨u, -, rfl⟩ := List.mem_map.mp haction
  exact hs'.trans (withdraw_untouched t mono wall _ s')

theorem tick_steady (ord : IterOrder (Sigma fun _ : IpAddr => ActiveEntry))
    (mono wall : Nat) : Steady s (tick env ord mono wall s) := by
  have hmir : Steady s (retryPendingMirror env s) :=
    ⟨by rw [(retryPendingMirror_frame env s).1],
      Mirror.Queue.retryAll_frame (f := RtbhManager.disarmed)
        (fun _ _ => rfl) s⟩
  obtain ⟨hc, hd⟩ :=
    retryPendingReapply_frame env (retryPendingMirror env s)
  unfold Rtbh.tick
  generalize retryPendingReapply env (retryPendingMirror env s) = s₂
    at hc hd
  simp only [RtbhController.tick_actions]
  have hset : Steady s (s₂.update
      (.setController (s₂.mgr.controller.tick ord mono).2)) := by
    refine hmir.trans ⟨?_, hd⟩
    show s₂.mgr.controller.config = _
    rw [hc]
  exact hset.trans
    (executeAll_withdraws_untouched (.v4 0) mono wall _ _).toSteady

/-- Without a TTL a manager tick withdraws only cleared targets. -/
theorem Held.tick {t : IpAddr}
    (ord : IterOrder (Sigma fun _ : IpAddr => ActiveEntry))
    (mono wall : Nat) (httl : s.mgr.controller.config.maxTtl = none)
    (hroutes : ∀ op ∈ s.mgr.pendingReapply,
      op.route.net = hostPrefix op.target) (h : Held t s) :
    Held t (tick env ord mono wall s) := by
  obtain ⟨hc₁, hr₁, -, -⟩ := retryPendingMirror_frame env s
  have h₁ : Held t (retryPendingMirror env s) := by
    have hv : failed (retryPendingMirror env s) = failed s :=
      Mirror.Queue.retryAll_view failedStep_mirror s
    rw [Held, hc₁, hv]
    exact h
  have h₂ := h₁.retried env (by rw [hr₁]; exact hroutes)
  have hc₂ := (retryPendingReapply_frame env (retryPendingMirror env s)).1
  unfold Rtbh.tick
  generalize retryPendingReapply env (retryPendingMirror env s) = s₂
    at h₂ hc₂
  simp only [RtbhController.tick_actions]
  refine Held.congr ?_ (executeAll_withdraws_untouched t mono wall _ _)
  have hlk : (s₂.mgr.controller.tick ord mono).2.active.lookup t
      = if t ∈ s₂.mgr.controller.expired ord mono then none
        else s₂.mgr.controller.active.lookup t :=
    Dict.lookup_eraseAll ..
  rcases h₂ with ⟨e, he, hcl⟩ | ⟨hn, hf⟩
  · -- neither a pending clear nor a TTL: not due
    refine Or.inl ⟨e, ?_, hcl⟩
    have hlive : t ∉ s₂.mgr.controller.expired ord mono := by
      rw [RtbhController.mem_expired]
      rintro ⟨e', he', hdue⟩
      rw [he, Option.some.injEq] at he'
      subst he'
      rw [RtbhController.due, hcl, hc₂, hc₁, httl] at hdue
      simp at hdue
    exact hlk.trans ((if_neg hlive).trans he)
  · refine Or.inr ⟨?_, hf⟩
    refine hlk.trans ?_
    rw [hn, ite_self]

end Steps

-- ============================================================ the plane

/-- What holds of the plane between two steps. -/
structure Tracked (p : Plane) : Prop where
  ttl : p.sys.mgr.controller.config.maxTtl = none
  armed : p.sys.mgr.disarmed = false
  wire : Wire [] [] p.sys
  held : ∀ t, p.det.isOpen t = true →
    p.sys.mgr.controller.mitigable t = true → Held t p.sys

theorem rehydrate_steady (env : Outcomes Call)
    (rows : List (IpAddr × Nat × BlackholeOrigin)) (now : Nat) (s : Sys) :
    Steady s (rehydrate env rows now s) := by
  refine run_invariant (P := Steady s) ?_ rows ⟨rfl, rfl⟩
  intro s' row hs'
  have hset : Steady s (s'.update (.setController
      (s'.mgr.controller.resume row.1 now row.2.2).2)) :=
    hs'.trans ⟨RtbhController.insertBlackhole_config .., rfl⟩
  unfold rehydrateRow
  dsimp only
  split
  · split
    · exact hset.trans ⟨rfl, rfl⟩
    · exact hset.trans ⟨rfl, rfl⟩
  · exact hset

theorem tracked_start (env : Outcomes Call) (prefixes : List IpNet)
    (detConfig : Flow.DetectorConfig) (agents : Flow.AgentRegistry)
    (config : RtbhConfig) (httl : config.maxTtl = none) (lim : Bool)
    (rows : List (IpAddr × Nat × BlackholeOrigin)) (now : Nat) :
    Tracked ⟨.new prefixes detConfig agents,
      rehydrate env rows now (start config lim)⟩ := by
  have hst := rehydrate_steady env rows now (start config lim)
  refine ⟨?_, hst.armed, wire_run env config lim rows now [], ?_⟩
  · rw [hst.config]
    exact httl
  · intro t hopen
    cases hopen

section Plane

variable {rd : Flow.Rounding} {env : Outcomes Call} {p : Plane}
  {t : DetTick}

/-- The delivery of one target's event inside a tick: what is delivered
before and after it leaves the target alone. -/
theorem processed_split (hlim : ∀ i n, env i (.tryAcquire n) = true)
    (h : Tracked p) (hok : PlaneOp.ok rd env p (.detect t))
    {ev : DetectionEvent} (hev : ev ∈ (t.run rd p.det).1) :
    ∃ s₁, Untouched ev.target p.sys s₁ ∧ findsRoom s₁ ev = true
      ∧ Untouched ev.target (deliver env t.clock ev s₁)
        (t.processed rd env p)
      ∧ Traced.Extends env p.sys s₁
      ∧ Traced.Extends env (deliver env t.clock ev s₁)
        (t.processed rd env p) := by
  have hnd : ((t.run rd p.det).1.map DetectionEvent.target).Nodup :=
    ThresholdDetector.tickWith_targets_nodup
      (ThresholdDetector.assess_names rd t.orders p.det)
  have hroom := hok.2
  unfold DetTick.processed
  obtain ⟨pre, post, hsplit⟩ := List.append_of_mem hev
  rw [hsplit] at hnd hroom ⊢
  rw [List.map_append, List.map_cons, List.nodup_append, List.nodup_cons]
    at hnd
  obtain ⟨-, ⟨hpost, -⟩, hpre⟩ := hnd
  have hne₁ : ∀ e ∈ pre, e.target ≠ ev.target := fun e he =>
    hpre _ (List.mem_map_of_mem he) _ List.mem_cons_self
  have hne₂ : ∀ e ∈ post, e.target ≠ ev.target := fun e he heq =>
    hpost (heq ▸ List.mem_map_of_mem he)
  have hext : ∀ evs s, Traced.Extends env s
      (run (deliver env t.clock) s evs) :=
    Traced.Extends.loop fun e s => step_extends env
      (.applyEvent e (t.clock e).1 (t.clock e).2) s
  rw [run_append, run_cons]
  have hun := deliver_untouched hlim h.armed t.clock pre hne₁
  have harm₁ := hun.armed.trans h.armed
  have harm₂ := (applyEvent_steady hlim harm₁ ev (t.clock ev).1
    (t.clock ev).2).armed.trans harm₁
  exact ⟨_, hun, ((Guarded.append ..).mp hroom).2.1,
    deliver_untouched hlim harm₂ t.clock post hne₂, hext _ _, hext _ _⟩

/-- A call made while the event was delivered was made in this tick. -/
theorem attemptFailed_of_extends {u : IpAddr} {s s₁ s₂ s₃ : Sys}
    (h₁ : Traced.Extends env s s₁) (h₃ : Traced.Extends env s₂ s₃)
    {r : Bgp.Route} {added : List (Call × Bool)}
    (hlog : s₂.log = s₁.log ++ added) (hnet : r.net = hostPrefix u)
    (hmem : (Call.announce r, false) ∈ added) :
    attemptFailed u s s₃ = true := by
  obtain ⟨before, hb⟩ := h₁.log_append
  obtain ⟨after, ha⟩ := h₃.log_append
  rw [attemptFailed, ha, hlog, hb, List.append_assoc, List.append_assoc,
    List.drop_left, List.any_eq_true]
  refine ⟨_, List.mem_append_right _ (List.mem_append_left _ hmem), ?_⟩
  exact decide_eq_true hnet

/-- One guarded detector tick does what was asked of it. -/
theorem Tracked.reattempted (hlim : ∀ i n, env i (.tryAcquire n) = true)
    (h : Tracked p) (hok : PlaneOp.ok rd env p (.detect t)) :
    Reattempted rd env t p := by
  intro d hd hm
  rcases hd with hd | hd
  · obtain ⟨s₁, hu₁, hroom, hu₂, hext₁, hext₂⟩ :=
      processed_split hlim h hok hd
    rcases opened_held hlim (hu₁.armed.trans h.armed) _ _ d
        ((hu₁.toSteady.mitigable _).trans hm) hroom with
      ⟨e, he, -⟩ | ⟨-, -, r, added, hlog, hnet, hmem⟩
    · left
      rw [← AList.lookup_isSome]
      exact Option.isSome_iff_exists.mpr ⟨e, hu₂.entry.trans he⟩
    · exact Or.inr (Or.inr
        (attemptFailed_of_extends hext₁ hext₂ hlog hnet hmem))
  · obtain ⟨s₁, hu₁, -, hu₂, -, -⟩ := processed_split hlim h hok hd
    obtain ⟨hopen, hover⟩ := ThresholdDetector.isOpen_of_updated
      (ThresholdDetector.assess_names rd t.orders p.det) hd
    have hkey : d.target ∈ p.det.state.keys := by
      rw [Dict.mem_keys_iff]
      cases hlk : p.det.state.lookup d.target with
      | some st => rfl
      | none =>
          rw [ThresholdDetector.isOpen, hlk] at hopen
          cases hopen
    -- an open target over its threshold is not waiting for an announce
    rcases h.held _ hopen hm with ⟨e, he, -⟩ | ⟨-, hf⟩
    · left
      rw [← AList.lookup_isSome]
      have he₁ : s₁.mgr.controller.active.lookup d.target = some e :=
        hu₁.entry.trans he
      have hlk := hu₂.entry.trans (updated_entry _ _ d)
      rw [he₁] at hlk
      exact Option.isSome_iff_exists.mpr ⟨_, hlk⟩
    · exact absurd hf (hok.1 _ hkey hopen hover)

theorem Tracked.detect (hlim : ∀ i n, env i (.tryAcquire n) = true)
    (h : Tracked p) (hok : PlaneOp.ok rd env p (.detect t)) :
    Tracked (p.step rd env (.detect t)) := by
  have hst : Steady p.sys (t.processed rd env p) := by
    refine run_invariant (P := Steady p.sys) ?_ _ ⟨rfl, rfl⟩
    intro s ev hs
    exact hs.trans (applyEvent_steady hlim (hs.armed.trans h.armed) ev _ _)
  refine ⟨hst.config ▸ h.ttl, hst.armed.trans h.armed, ?_, ?_⟩
  · exact run_invariant (P := Wire [] []) (fun s ev hs => hs.applyEvent) _
      h.wire
  · intro u hopen hm
    rw [show ((p.step rd env (.detect t)).sys) = t.processed rd env p
      from rfl] at hm ⊢
    rw [hst.mitigable] at hm
    rcases ThresholdDetector.tickWith_cases
        (ThresholdDetector.assess_names rd t.orders p.det) u with
      ⟨⟨d, hd, rfl⟩, hwas, -, -⟩ | ⟨⟨d, hd, rfl⟩, -, -⟩ | ⟨-, hclosed⟩
        | ⟨hnone, hsame⟩
    · obtain ⟨s₁, hu₁, -, hu₂, -, -⟩ := processed_split hlim h hok hd
      exact (((h.held _ hwas hm).congr hu₁).updated _ _).congr hu₂
    · obtain ⟨s₁, hu₁, hroom, hu₂, -, -⟩ := processed_split hlim h hok hd
      refine Held.congr ?_ hu₂
      rcases opened_held hlim (hu₁.armed.trans h.armed) _ _ d
          ((hu₁.toSteady.mitigable _).trans hm) hroom with
        hin | ⟨hn, hf, -⟩
      · exact Or.inl hin
      · exact Or.inr ⟨hn, hf⟩
    · exact absurd (hclosed.symm.trans hopen) Bool.false_ne_true
    · exact (h.held u (hsame.symm.trans hopen) hm).congr
        (deliver_untouched hlim h.armed t.clock _ hnone)

theorem Tracked.step (hlim : ∀ i n, env i (.tryAcquire n) = true)
    {op : PlaneOp} (h : Tracked p) (hok : op.ok rd env p) :
    Tracked (p.step rd env op) := by
  cases op with
  | observe obs nowMs =>
      simp only [Plane.step]
      split
      next det hobs =>
        refine ⟨h.ttl, h.armed, h.wire, fun t hopen hm => ?_⟩
        exact h.held t (ThresholdDetector.isOpen_observe hobs t ▸ hopen) hm
      next => exact h
  | detect t => exact h.detect hlim hok
  | managerTick ord mono wall =>
      have hst : Steady p.sys (tick env ord mono wall p.sys) :=
        tick_steady ord mono wall
      refine ⟨hst.config ▸ h.ttl, hst.armed.trans h.armed, h.wire.tick,
        fun t hopen hm => ?_⟩
      rw [show (p.step rd env (.managerTick ord mono wall)).sys
        = tick env ord mono wall p.sys from rfl, hst.mitigable] at hm
      refine (h.held t hopen hm).tick ord mono wall h.ttl fun op hop => ?_
      exact h.wire.routes op (List.mem_append_left _ hop)

end Plane

/-- In every run from a start or restart in which no announce of a still
over-threshold open target is the failed latest and none is opened into a
full set, every detector tick leaves each detected target that may be
blackholed active, unless its announce failed just now. -/
theorem detected_targets_active (rd : Flow.Rounding)
    (env : Outcomes Call) (hlim : ∀ i n, env i (.tryAcquire n) = true)
    (prefixes : List IpNet) (detConfig : Flow.DetectorConfig)
    (agents : Flow.AgentRegistry) (config : RtbhConfig)
    (httl : config.maxTtl = none) (lim : Bool)
    (rows : List (IpAddr × Nat × BlackholeOrigin)) (now : Nat)
    (ops : List PlaneOp) (t : DetTick)
    (hok : Guarded (Plane.step rd env) (fun p op => op.ok rd env p)
      ⟨.new prefixes detConfig agents,
        rehydrate env rows now (start config lim)⟩
      (ops ++ [.detect t])) :
    Reattempted rd env t (run (Plane.step rd env)
      ⟨.new prefixes detConfig agents,
        rehydrate env rows now (start config lim)⟩ ops) := by
  obtain ⟨hops, hlast, -⟩ := (Guarded.append ..).mp hok
  have htracked := run_guarded (P := Tracked) ops
    (fun p op _ hp hop => hp.step hlim hop) _
    (tracked_start env prefixes detConfig agents config httl lim rows now)
    hops
  exact htracked.reattempted hlim hlast

-- ======================================================== concrete runs

/-- The sample detector next to a fresh manager. -/
def samplePlane : Plane :=
  ⟨ThresholdDetector.sample, start sampleConfig false⟩

/-- A detector tick at `nowMs`, its deliveries at the same time. -/
def sampleTick (nowMs : Nat) : DetTick :=
  { nowMs, orders := fun _ => .stored, visitOrder := .stored _
    clock := fun _ => (nowMs, nowMs) }

/-- A flood seen twice, with a detector tick in between. -/
def sampleFlood : List PlaneOp :=
  [.observe (ThresholdDetector.sampleObs 53 1000) 10,
    .detect (sampleTick 20),
    .observe (ThresholdDetector.sampleObs 53 1000) 30]

/-- When every call succeeds the flood's target is active at the second
tick. -/
theorem detected_targets_active_flood :
    Guarded (Plane.step Flow.exact fun _ _ => true)
        (fun p op => op.ok Flow.exact (fun _ _ => true) p) samplePlane
        (sampleFlood ++ [.detect (sampleTick 40)])
      ∧ Reattempted Flow.exact (fun _ _ => true) (sampleTick 40)
        (run (Plane.step Flow.exact fun _ _ => true) samplePlane
          sampleFlood) := by
  have hok : Guarded (Plane.step Flow.exact fun _ _ => true)
      (fun p op => op.ok Flow.exact (fun _ _ => true) p) samplePlane
      (sampleFlood ++ [.detect (sampleTick 40)]) := by decide +kernel
  exact ⟨hok, detected_targets_active Flow.exact (fun _ _ => true)
    (fun _ _ => rfl) _ _ _ sampleConfig rfl false [] 0 sampleFlood
    (sampleTick 40) hok⟩

/-- What the second tick reports of the flood. -/
def floodDetection : Flow.Detection :=
  { target := sampleTarget, kind := .volumetric
    observedPps := 2000, observedBps := 1600000, proto := 17
    topSources := [(.v4 0xCB007105, 2000)], topPorts := [(53, 2000)]
    pops := [{ pop := "unknown", estPps := 2000, estBps := 1600000 }]
    topSourceBlocks := [(Flow.sourceBlock (.v4 0xCB007105), 2000)]
    severity := .critical, firstSeenMs := 20, lastSeenMs := 40 }

/-- The announce at `Opened` fails. One tick later the flood is still
there and the detector says so, the set is empty, and the manager makes
no call at all: the target stays without a blackhole. -/
theorem failed_announce_not_reattempted :
    DetectionEvent.updated floodDetection
        ∈ ((sampleTick 40).run Flow.exact (run (Plane.step Flow.exact
          firstCallFails) samplePlane sampleFlood).det).1
      ∧ ((sampleTick 40).processed Flow.exact firstCallFails
          (run (Plane.step Flow.exact firstCallFails) samplePlane
            sampleFlood)).log
        = (run (Plane.step Flow.exact firstCallFails) samplePlane
            sampleFlood).sys.log
      ∧ ¬ Reattempted Flow.exact firstCallFails (sampleTick 40)
        (run (Plane.step Flow.exact firstCallFails) samplePlane
          sampleFlood) := by
  have hev : DetectionEvent.updated floodDetection
      ∈ ((sampleTick 40).run Flow.exact (run (Plane.step Flow.exact
        firstCallFails) samplePlane sampleFlood).det).1 := by
    decide +kernel
  refine ⟨hev, by decide +kernel, fun h => ?_⟩
  have hbad := h floodDetection (Or.inr hev) (by decide +kernel)
  revert hbad
  decide +kernel

end Blackwall.Rtbh
