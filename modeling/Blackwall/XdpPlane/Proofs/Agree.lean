/-
The maps against the controller, under executor failures.

A new install the executor refuses is rolled back, so it leaves no trace.
A removal or a change of an entry the maps already hold is not: the
controller keeps what the operation made of it and the maps keep the old
entry. `missed` records the keys this has happened to since their last
successful call; everywhere else the two sides are equal.

A detection changes the controller for all its sources before the first
call goes out. `Agree acts` is the invariant with the actions `acts`
still to be executed: their keys already hold, in the controller, what
the action will write, and an install's key is still empty in the maps.
-/
import Blackwall.XdpPlane.World

namespace Blackwall.XdpPlane

open Base
open XdpController (Hands)

-- ========================================================= missed writes

/-- The maps, and the keys with a missed write. -/
structure Kernel where
  entries : MirrorKey → Option MapEntry
  missed : MirrorKey → Bool

/-- A failed call is missed when there is an entry it was to change or
delete; a successful one settles its key. -/
def Kernel.step (w : Kernel) : Call × Bool → Kernel
  | (.apply a, true) =>
      { entries := Function.update w.entries (mirrorKeyOf a) a.entry
        missed := Function.update w.missed (mirrorKeyOf a) false }
  | (.apply a, false) =>
      let held := w.entries (mirrorKeyOf a)
      let now := w.missed (mirrorKeyOf a) || held.isSome && held != a.entry
      { w with missed := Function.update w.missed (mirrorKeyOf a) now }
  | (.record .., _) => w

/-- The maps and the missed writes after a log. -/
def kernel (s : Sys) : Kernel :=
  s.view Kernel.step { entries := fun _ => none, missed := fun _ => false }

/-- Has a call that was to change or delete an entry of the maps failed,
with no success for the same net or source since? -/
def missed (s : Sys) (k : MirrorKey) : Bool := (kernel s).missed k

theorem kernel_entries (s : Sys) : (kernel s).entries = maps s := by
  obtain ⟨m, log⟩ := s
  unfold kernel maps Traced.view
  dsimp only
  generalize (fun _ => none : MirrorKey → Option MapEntry) = w
  generalize (fun _ => false : MirrorKey → Bool) = b
  induction log generalizing w b with
  | nil => rfl
  | cons x log ih =>
      obtain ⟨c, ok⟩ := x
      rw [List.foldl_cons, List.foldl_cons]
      cases c with
      | record a o atMs => cases ok <;> exact ih w b
      | apply a =>
          cases ok with
          | true => exact ih _ _
          | false => exact ih w _

@[simp] theorem kernel_update (f : XdpManager → XdpManager) (s : Sys) :
    kernel (s.update f) = kernel s := rfl

theorem kernel_call (env : Outcomes Call) (c : Call) (s : Sys) :
    kernel (s.call env c) = (kernel s).step (c, s.outcome env c) :=
  Traced.view_call ..

theorem Kernel.step_mirror (w : Kernel) (op : MirrorOp) (b : Bool) :
    w.step (op.call, b) = w := by
  cases op
  cases b <;> rfl

/-- A mirror write touches the journal and its own queue, nothing
else. -/
theorem mirror_frame (env : Outcomes Call) (op : MirrorOp) (s : Sys) :
    (mirror env op s).mgr.controller = s.mgr.controller
      ∧ (mirror env op s).mgr.pendingReapply = s.mgr.pendingReapply
      ∧ (mirror env op s).mgr.disarmed = s.mgr.disarmed
      ∧ kernel (mirror env op s) = kernel s :=
  ⟨Mirror.Queue.write_frame (f := XdpManager.controller)
      (fun _ _ => rfl) op s,
    Mirror.Queue.write_frame (f := XdpManager.pendingReapply)
      (fun _ _ => rfl) op s,
    Mirror.Queue.write_frame (f := XdpManager.disarmed)
      (fun _ _ => rfl) op s,
    Mirror.Queue.write_view Kernel.step_mirror op s⟩

theorem retryPendingMirror_frame (env : Outcomes Call) (s : Sys) :
    (retryPendingMirror env s).mgr.controller = s.mgr.controller
      ∧ (retryPendingMirror env s).mgr.pendingReapply
        = s.mgr.pendingReapply
      ∧ (retryPendingMirror env s).mgr.disarmed = s.mgr.disarmed
      ∧ kernel (retryPendingMirror env s) = kernel s :=
  ⟨Mirror.Queue.retryAll_frame (f := XdpManager.controller)
      (fun _ _ => rfl) s,
    Mirror.Queue.retryAll_frame (f := XdpManager.pendingReapply)
      (fun _ _ => rfl) s,
    Mirror.Queue.retryAll_frame (f := XdpManager.disarmed)
      (fun _ _ => rfl) s,
    Mirror.Queue.retryAll_view Kernel.step_mirror s⟩

/-- With no re-apply queued, that self-heal does nothing. -/
theorem retryPendingReapply_idle {env : Outcomes Call} {s : Sys}
    (h : s.mgr.pendingReapply = []) : retryPendingReapply env s = s := by
  obtain ⟨⟨c, pm, pr, af, d, ds⟩, log⟩ := s
  cases h
  rfl

-- ========================================================= the invariant

/-- The maps and the controller agree on `k`, or a write of `k` was
missed. -/
def Sound (s : Sys) (k : MirrorKey) : Prop :=
  (kernel s).missed k = true
    ∨ (kernel s).entries k = s.mgr.controller.entryAt k

/-- The invariant, up to the actions still to be executed. -/
structure Agree (acts : List XdpAction) (s : Sys) : Prop where
  armed : s.mgr.disarmed = false
  idle : s.mgr.pendingReapply = []
  nodup : (acts.map mirrorKeyOf).Nodup
  other : ∀ k, k ∉ acts.map mirrorKeyOf → Sound s k
  handed : ∀ a ∈ acts,
    s.mgr.controller.entryAt (mirrorKeyOf a) = a.entry
  fresh : ∀ a ∈ acts, a.isInstall = true →
    (kernel s).missed (mirrorKeyOf a) = true
      ∨ (kernel s).entries (mirrorKeyOf a) = none

/-- `Agree` reads the controller, the re-apply queue, the switch and the
maps. -/
theorem Agree.congr {acts : List XdpAction} {s s' : Sys}
    (h : Agree acts s) (hctl : s'.mgr.controller = s.mgr.controller)
    (hre : s'.mgr.pendingReapply = s.mgr.pendingReapply)
    (hdis : s'.mgr.disarmed = s.mgr.disarmed)
    (hker : kernel s' = kernel s) : Agree acts s' := by
  refine ⟨hdis.trans h.armed, hre.trans h.idle, h.nodup, ?_, ?_, ?_⟩
  · unfold Sound
    rw [hctl, hker]
    exact h.other
  · rw [hctl]
    exact h.handed
  · rw [hker]
    exact h.fresh

theorem agree_start {c : XdpController} (hc : c.entryAt = fun _ => none) :
    Agree [] (start c) := by
  refine ⟨rfl, rfl, List.nodup_nil, fun k _ => .inr ?_, ?_, ?_⟩
  · exact (congrFun hc k).symm
  · intro a ha
    exact absurd ha List.not_mem_nil
  · intro a ha
    exact absurd ha List.not_mem_nil

theorem Agree.hand {acts : List XdpAction} {c : XdpController} {s : Sys}
    (h : Agree [] s) (hh : Hands s.mgr.controller acts c) :
    Agree acts (s.update (.setController c)) := by
  refine ⟨h.armed, h.idle, hh.nodup, fun k hk => ?_, hh.handed,
    fun a ha hi => ?_⟩
  · have := h.other k List.not_mem_nil
    unfold Sound at this ⊢
    rw [← hh.other k hk] at this
    exact this
  · have := h.other (mirrorKeyOf a) List.not_mem_nil
    unfold Sound at this
    rw [hh.fresh a ha hi] at this
    exact this

-- ====================================================== the execute path

section Steps

variable {env : Outcomes Call} {s : Sys} {a : XdpAction}

/-- The controller already holds what `a` writes; an install not yet in
the maps is one to roll back. -/
structure Ready (a : XdpAction) (fresh : Bool) (s : Sys) : Prop where
  handed : s.mgr.controller.entryAt (mirrorKeyOf a) = a.entry
  fresh_iff : a.isInstall = true →
    (kernel s).missed (mirrorKeyOf a) = true
      ∨ (fresh = true ↔ (kernel s).entries (mirrorKeyOf a) = none)

/-- What `fresh` means for the entries a failure leaves. -/
theorem entryAt_undo (fresh : Bool) (c : XdpController) :
    (if fresh then c.rollback a else c).entryAt
      = if fresh && a.isInstall
        then Function.update c.entryAt (mirrorKeyOf a) none
        else c.entryAt := by
  cases fresh with
  | false => rfl
  | true =>
      cases hi : a.isInstall with
      | true => exact XdpController.entryAt_rollback hi c
      | false => simp [XdpController.rollback_removal hi c]

/-- A failed call is missed, or the maps hold what the rollback
leaves. -/
theorem sound_of_failed {fresh : Bool} (hready : Ready a fresh s)
    (hk : kernel (s.call env (.apply a))
      = (kernel s).step (.apply a, false)) {f : XdpManager → XdpManager}
    (hf : (f s.mgr).controller = if fresh
      then s.mgr.controller.rollback a else s.mgr.controller) :
    Sound ((s.call env (.apply a)).update f) (mirrorKeyOf a) := by
  unfold Sound
  rw [kernel_update, hk, Traced.update_mgr, Traced.call_mgr, hf,
    entryAt_undo]
  simp only [Kernel.step, Function.update_self]
  cases hm : (kernel s).missed (mirrorKeyOf a) with
  | true => exact .inl rfl
  | false =>
      have hheld := hready.handed
      cases hi : a.isInstall with
      | false =>
          -- a removal: nothing there, or an entry it has missed
          have hnone : a.entry = none := by
            rw [← Option.not_isSome_iff_eq_none, a.entry_isSome, hi]
            exact Bool.false_ne_true
          rw [hnone] at hheld ⊢
          rw [Bool.and_false, if_neg Bool.false_ne_true, hheld]
          cases (kernel s).entries (mirrorKeyOf a) with
          | none => exact .inr rfl
          | some e => exact .inl rfl
      | true =>
          have hfresh : fresh = true
              ↔ (kernel s).entries (mirrorKeyOf a) = none := by
            rcases hready.fresh_iff hi with h | h
            · rw [hm] at h
              cases h
            · exact h
          cases fresh with
          | true =>
              refine .inr ?_
              rw [hfresh.mp rfl, Bool.and_self, if_pos rfl,
                Function.update_self]
          | false =>
              by_cases he : (kernel s).entries (mirrorKeyOf a) = a.entry
              · refine .inr ?_
                rw [he, Bool.false_and, if_neg Bool.false_ne_true, hheld]
              · refine .inl ?_
                have hsome : ((kernel s).entries (mirrorKeyOf a)).isSome
                    = true := by
                  rw [Option.isSome_iff_ne_none]
                  exact fun h => Bool.false_ne_true (hfresh.mpr h)
                simp [hsome, he]

/-- One action, whatever the executor does with it: its own key is sound
afterwards, and nothing else has changed. -/
theorem applyOnMaps_sound (env : Outcomes Call) {fresh : Bool}
    (harmed : s.mgr.disarmed = false)
    (hready : Ready a fresh s) :
    Sound (applyOnMaps env a fresh s).2 (mirrorKeyOf a)
      ∧ (∀ k, k ≠ mirrorKeyOf a →
        (kernel (applyOnMaps env a fresh s).2).entries k
            = (kernel s).entries k
          ∧ (kernel (applyOnMaps env a fresh s).2).missed k
            = (kernel s).missed k
          ∧ (applyOnMaps env a fresh s).2.mgr.controller.entryAt k
            = s.mgr.controller.entryAt k)
      ∧ (applyOnMaps env a fresh s).2.mgr.disarmed = false
      ∧ (applyOnMaps env a fresh s).2.mgr.pendingReapply
        = s.mgr.pendingReapply := by
  unfold applyOnMaps
  simp only [harmed, Bool.false_and, Bool.false_eq_true, if_false]
  split
  · next hok =>
    have hk : kernel (s.call env (.apply a))
        = (kernel s).step (.apply a, true) := by
      rw [kernel_call, hok]
    refine ⟨.inr ?_, fun k hne => ?_, harmed, rfl⟩
    · rw [hk, Traced.call_mgr, hready.handed]
      exact Function.update_self ..
    · rw [hk, Traced.call_mgr]
      exact ⟨Function.update_of_ne hne .., Function.update_of_ne hne ..,
        rfl⟩
  · next hfail =>
    have hk : kernel (s.call env (.apply a))
        = (kernel s).step (.apply a, false) := by
      rw [kernel_call, Bool.eq_false_iff.mpr hfail]
    refine ⟨?_, fun k hne => ?_, harmed, rfl⟩
    · exact sound_of_failed hready hk rfl
    · rw [kernel_update, hk]
      refine ⟨rfl, Function.update_of_ne hne .., ?_⟩
      simp only [Traced.update_mgr, Traced.call_mgr, entryAt_undo]
      split
      · exact Function.update_of_ne hne ..
      · rfl

/-- The mirror half changes nothing the invariant reads. -/
theorem Agree.mirrored {acts : List XdpAction} {o : XdpOrigin}
    {wall : Nat} {fresh : Bool}
    (h : Agree acts (applyOnMaps env a fresh s).2) :
    Agree acts (executeAndJournal env a o wall fresh s).2 := by
  unfold executeAndJournal
  split
  · next s' heq =>
    rw [heq] at h
    obtain ⟨hc, hr, hd, hk⟩ := mirror_frame env ⟨a, o, wall⟩ s'
    exact h.congr hc hr hd hk
  · next heq =>
    rw [heq] at h
    exact h

theorem Agree.execute {acts : List XdpAction} {o : XdpOrigin} {wall : Nat}
    (h : Agree (a :: acts) s) :
    Agree acts (executeAndJournal env a o wall true s).2 := by
  have hnd := h.nodup
  rw [List.map_cons, List.nodup_cons] at hnd
  have hready : Ready a true s := by
    refine ⟨h.handed a List.mem_cons_self, fun hi => ?_⟩
    exact (h.fresh a List.mem_cons_self hi).imp id fun he => by simp [he]
  obtain ⟨hown, hrest, hdis, hre⟩ :=
    applyOnMaps_sound env h.armed hready
  have hne : ∀ b ∈ acts, mirrorKeyOf b ≠ mirrorKeyOf a := by
    intro b hb he
    exact hnd.1 (he ▸ List.mem_map_of_mem hb)
  refine Agree.mirrored
    ⟨hdis, hre.trans h.idle, hnd.2, fun k hk => ?_, ?_, ?_⟩
  · by_cases hka : k = mirrorKeyOf a
    · rw [hka]
      exact hown
    · obtain ⟨he, hm, hc⟩ := hrest k hka
      unfold Sound
      rw [he, hm, hc]
      refine h.other k fun hmem => ?_
      rw [List.map_cons] at hmem
      rcases List.mem_cons.mp hmem with h' | h'
      · exact hka h'
      · exact hk h'
  · intro b hb
    rw [(hrest _ (hne b hb)).2.2]
    exact h.handed b (List.mem_cons_of_mem a hb)
  · intro b hb hi
    obtain ⟨he, hm, -⟩ := hrest _ (hne b hb)
    rw [he, hm]
    exact h.fresh b (List.mem_cons_of_mem a hb) hi

/-- A transition of one action, as the manual entry points make it: an
install is marked fresh when the controller did not hold its entry. -/
theorem Agree.single {c : XdpController} {o : XdpOrigin} {wall : Nat}
    {fresh : Bool} (h : Agree [] s)
    (hc : c.entryAt
      = Function.update s.mgr.controller.entryAt (mirrorKeyOf a) a.entry)
    (hf : a.isInstall = true →
      fresh = !(s.mgr.controller.entryAt (mirrorKeyOf a)).isSome) :
    Agree [] (executeAndJournal env a o wall fresh
      (s.update (.setController c))).2 := by
  have hsound : ∀ k, Sound s k := fun k => h.other k List.not_mem_nil
  have hready : Ready a fresh (s.update (.setController c)) := by
    refine ⟨?_, fun hi => ?_⟩
    · exact (congrFun hc _).trans (Function.update_self ..)
    · refine (hsound (mirrorKeyOf a)).imp id fun he => ?_
      rw [kernel_update, he, hf hi]
      simp
  obtain ⟨hown, hrest, hdis, hre⟩ :=
    applyOnMaps_sound env (s := s.update (.setController c))
      h.armed hready
  refine Agree.mirrored ⟨hdis, hre.trans h.idle, List.nodup_nil,
    fun k _ => ?_, fun b hb => absurd hb List.not_mem_nil,
    fun b hb => absurd hb List.not_mem_nil⟩
  by_cases hka : k = mirrorKeyOf a
  · rw [hka]
    exact hown
  · obtain ⟨he, hm, hctl⟩ := hrest k hka
    unfold Sound
    rw [he, hm, hctl]
    change (kernel s).missed k = true ∨ (kernel s).entries k = c.entryAt k
    rw [hc, Function.update_of_ne hka]
    exact hsound k

end Steps

-- =========================================================== entry points

section Ops

variable {env : Outcomes Call} {s : Sys}

theorem Agree.onDetection {ord : IterOrder IpAddr}
    {ev : Blackwall.Flow.DetectionEvent} {wall : Nat} (h : Agree [] s) :
    Agree [] (onDetection env ord ev wall s) := by
  have hloop : ∀ {acts : List XdpAction} {s : Sys}, Agree acts s →
      Agree [] (run (fun action s =>
        (executeAndJournal env action .auto wall true s).2) s acts) := by
    intro acts
    induction acts with
    | nil => intro s h; exact h
    | cons a acts ih => intro s h; exact ih h.execute
  exact hloop (h.hand (XdpController.onDetection_hands ord ev _))

theorem Agree.installs {a : XdpAction} {wall : Nat}
    {r : ApplyOutcome × Sys} (h : Agree [] s)
    (hr : Installs env a wall s r) : Agree [] r.2 := by
  cases hr with
  | refused same out => rwa [same]
  | executed c x entry exec state out =>
      rw [state, exec]
      exact h.single entry fun _ => rfl

/-- Every entry point of an armed manager keeps the invariant. -/
theorem Agree.step {op : Op} (harm : op.isArmed = true)
    (h : Agree [] s) : Agree [] (step env op s) := by
  cases op with
  | onDetection ord ev wall => exact h.onDetection
  | applyAdd net wall => exact h.installs (applyAdd_installs ..)
  | applyRemove net wall =>
      exact h.single (XdpController.entryAt_manualUnblock net _)
        fun hi => by cases hi
  | applyRateLimit src pps burst wall =>
      exact h.installs (applyRateLimit_installs ..)
  | applyClearRate src wall =>
      exact h.single (XdpController.entryAt_manualClearRate src _)
        fun hi => by cases hi
  | tick =>
      obtain ⟨hc, hr, hd, hk⟩ := retryPendingMirror_frame env s
      have hm := h.congr hc hr hd hk
      simp only [XdpPlane.step, XdpPlane.tick,
        retryPendingReapply_idle hm.idle]
      exact hm
  | disarm ordRate ordBlock => cases harm

end Ops

-- ============================================================== agreement

/-- The maps hold exactly the controller's active entries, each limit
with its pps and burst. -/
def MapsAgree (s : Sys) : Prop :=
  ∀ k, maps s k = s.mgr.controller.entryAt k

/-- Whatever executor and journal do, the maps hold the controller's
entry for every net and source, except where a call that was to change or
delete an entry of the maps has failed and none has succeeded since. -/
theorem maps_agree_unless_missed (env : Outcomes Call)
    (prefixes : List IpNet) (cap rate : Nat) (prot : List IpNet)
    (ops : List Op) (harm : ∀ op ∈ ops, op.isArmed = true)
    (k : MirrorKey) :
    let s := run (step env)
      (start (XdpController.new prefixes cap rate prot)) ops
    missed s k = false → maps s k = s.mgr.controller.entryAt k := by
  intro s hmiss
  have h : Agree [] s := by
    refine run_invariant_mem ops (fun s op hop hs => hs.step (harm op hop))
      (agree_start ?_)
    exact XdpController.entryAt_new prefixes cap rate prot
  rcases h.other k List.not_mem_nil with hm | he
  · rw [missed] at hmiss
    rw [hm] at hmiss
    cases hmiss
  · rw [← kernel_entries]
    exact he

/-- A prefix outside every own one, `198.51.100.0/24`. -/
def sampleNet : IpNet := .v4 (.slash 0xC6336400 24)

/-- A source to limit, `198.51.100.9`. -/
def sampleSource : IpAddr := .v4 0xC6336409

/-- The third call fails, all others succeed. -/
def thirdFails : Outcomes Call := fun i _ => decide (i ≠ 2)

/-- A source whose limit was refused once, then installed, is settled. -/
theorem maps_agree_unless_missed_retried :
    let s := run (step thirdFails) (start (XdpController.new [] 8 100 []))
      [.applyAdd sampleNet 0, .applyRateLimit sampleSource 50 50 1,
        .applyRateLimit sampleSource 50 50 2]
    missed s (.src sampleSource) = false
      ∧ maps s (.src sampleSource)
        = s.mgr.controller.entryAt (.src sampleSource) :=
  ⟨by decide, maps_agree_unless_missed thirdFails [] 8 100 []
    [.applyAdd sampleNet 0, .applyRateLimit sampleSource 50 50 1,
      .applyRateLimit sampleSource 50 50 2] (by decide)
    (.src sampleSource) (by decide)⟩

/-- A block whose removal the executor refuses: the controller has
forgotten it, the maps still drop its traffic. -/
theorem refused_unblock_stays_in_maps :
    ¬ MapsAgree (run (step thirdFails)
      (start (XdpController.new [] 8 100 []))
      [.applyAdd sampleNet 0, .applyRemove sampleNet 1]) := by
  intro h
  exact absurd (h (.net sampleNet)) (by decide)

end Blackwall.XdpPlane
