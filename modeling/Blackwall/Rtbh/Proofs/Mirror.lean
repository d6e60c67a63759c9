/-
The journal against the active set: when the self-heal converges.

# The mirror as a store

Reading the journal's table through `activeRows` and the manager's
queue as it is gives a write-behind store (`Base.Mirror`): a mirror write
of the manager is a `write` of the store, `retry_pending_mirror` retries
its queue, and what the store should settle to is the controller's
`origins`. `Mirrored` is that, with one index for the withdraws a running
tick still owes.

# Where it breaks

Retries always keep the store settled. A fresh write does not: the queue
is coalesced only when a write FAILS, so a write that succeeds leaves an
older queued one for its target in place, and the next tick replays it
over the newer row (`stale_announce_replayed`). Coalescing has the dual
gap: a failed auto announce takes the place of a queued withdraw that the
row, still manual, would have needed.

`writeOk` excludes these two cases and nothing else, and under it every
run converges (`mirror_converges`).
-/
import Blackwall.Rtbh.Proofs.Manager

namespace Blackwall.Rtbh

open Base
open Base.Mirror (Settled Fits)
open Base.Mirror.Queue (Carries Synced failures)
open State (mergeOrigin)
open RtbhController (origins)

-- ==================================================== the mirror as a store

/-- What a mirror write does to its target's active row. -/
def MirrorOp.act : MirrorOp → Option BlackholeOrigin → Option BlackholeOrigin
  | .announce _ o _, row => some (row.elim o (mergeOrigin · o))
  | .withdraw .., _ => none

/-- The active rows of the table. -/
def activeRows (tbl : State.Blackholes) : IpAddr → Option BlackholeOrigin :=
  tbl.active

theorem mirror_carries : Carries RtbhManager.mirrorQueue MirrorOp.act
    tableStep activeRows (fun _ => True) := by
  refine ⟨fun tbl op _ => ?_, fun tbl op => ?_⟩
  · funext t
    rw [Mirror.apply, Function.update_apply]
    cases op with
    | announce t' o atMs => exact Rows.active_upsert ..
    | withdraw t' atMs => exact Rows.active_close ..
  · cases op <;> rfl

/-- The active rows and the queue. -/
abbrev store (s : Sys) : Mirror.Store IpAddr MirrorOp BlackholeOrigin :=
  RtbhManager.mirrorQueue.store tableStep .empty activeRows s

/-- The table and the queue settle to `want`. -/
def Heals (want : IpAddr → Option BlackholeOrigin) (s : Sys) : Prop :=
  Synced RtbhManager.mirrorQueue MirrorOp.act tableStep .empty activeRows
    (fun _ => True) [] want s

-- ======================================================== the write guard

/-- Does the write announce? -/
def MirrorOp.isAnnounce : MirrorOp → Bool
  | .announce .. => true
  | .withdraw .. => false

/-- The direct journal write `w`, about to be made in `s`, leaves its
target's row settling to what the controller holds: succeeding, it does
not overtake a queued write of the other kind; failing, an auto announce
does not leave a manual row to be merged into. -/
def writeOk (env : Outcomes Call) (w : MirrorOp) (s : Sys) : Bool :=
  if s.outcome env w.call then
    s.mgr.pendingMirror.all fun q =>
      decide (q.target ≠ w.target) || q.isAnnounce == w.isAnnounce
  else
    match w with
    | .announce t .auto _ =>
        decide ((table s).active t ≠ some .manual)
    | _ => true

/-- `writeOk` of the write that ends an announce, if it gets that far. -/
def announceOk (env : Outcomes Call) (t : IpAddr) (route : Bgp.Route)
    (o : BlackholeOrigin) (mono wall : Nat) (s : Sys) : Bool :=
  match announceOnBgp env t route mono s with
  | (.applied, s') => writeOk env (.announce t o wall) s'
  | _ => true

/-- `writeOk` of the write that ends a controller action. -/
def actionOk (env : Outcomes Call) (mono wall : Nat) (s : Sys)
    (action : RtbhAction) : Bool :=
  match action with
  | .announce route =>
      announceOk env route.net.addr route .auto mono wall s
  | .withdraw net =>
      !s.outcome env (.withdraw net) ||
        writeOk env (.withdraw net.addr wall) (s.call env (.withdraw net))

/-- The same along the loop over a controller's actions. -/
def actionsOk (env : Outcomes Call) (mono wall : Nat) (s : Sys)
    (r : List RtbhAction × RtbhController) : Bool :=
  decide (Guarded (executeAndJournal env mono wall)
    (fun s a => actionOk env mono wall s a = true)
    (s.update (.setController r.2)) r.1)

/-- `writeOk` of every direct journal write of one entry point, each in
the state it is made in. -/
def opOk (env : Outcomes Call) (s : Sys) (op : Op) : Bool :=
  match op with
  | .applyEvent ev mono wall =>
      actionsOk env mono wall s (s.mgr.controller.onEvent ev mono)
  | .applyRemove t mono wall =>
      actionsOk env mono wall s (s.mgr.controller.manualRemove t)
  | .tick ord mono wall =>
      let s := retryPendingReapply env (retryPendingMirror env s)
      actionsOk env mono wall s (s.mgr.controller.tick ord mono)
  | .applyAdd t mono wall =>
      let (actions, c) := s.mgr.controller.manualAdd t mono
      let s := s.update (.setController c)
      match actions.head? with
      | some (.announce route) => announceOk env t route .manual mono wall s
      | _ => !s.mgr.isActive t || writeOk env (.announce t .manual wall) s
  | .disarm _ => true

-- ========================================================== fitting writes

section Fits

variable {env : Outcomes Call} {s : Sys}
  {want : IpAddr → Option BlackholeOrigin}

/-- A guarded write finds nothing queued for its target, or a write of
its own kind. -/
theorem queued_of_writeOk {w q : MirrorOp}
    (hok : writeOk env w s = true) (hout : s.outcome env w.call = true)
    (hq : Mirror.queued MirrorOp.target s.mgr.pendingMirror w.target
      = some q) : q.isAnnounce = w.isAnnounce := by
  obtain ⟨hmem, htgt⟩ := Mirror.queued_some MirrorOp.target hq
  unfold writeOk at hok
  rw [if_pos hout, List.all_eq_true] at hok
  simpa [htgt] using hok q hmem

theorem fits_withdraw {t : IpAddr} {atMs : Nat}
    (hok : writeOk env (.withdraw t atMs) s = true) :
    Fits MirrorOp.target MirrorOp.act (store s)
      (s.outcome env (MirrorOp.withdraw t atMs).call)
      (.withdraw t atMs) none := by
  unfold Fits
  split
  · next q hout hq =>
    have hkind := queued_of_writeOk hok hout hq
    cases q with
    | announce => cases hkind
    | withdraw => rfl
  · rfl

/-- A fresh announce, or an upgrade to manual. -/
theorem fits_announce {t : IpAddr} {o : BlackholeOrigin} {atMs : Nat}
    (hs : Settled MirrorOp.target MirrorOp.act (store s) want)
    (hcase : want t = none ∨ o = .manual)
    (hok : writeOk env (.announce t o atMs) s = true) :
    Fits MirrorOp.target MirrorOp.act (store s)
      (s.outcome env (MirrorOp.announce t o atMs).call)
      (.announce t o atMs) (some o) := by
  have hrow := hs t
  unfold Mirror.settledRow at hrow
  unfold Fits
  split
  · next q hout hq =>
    have hkind := queued_of_writeOk hok hout hq
    cases q with
    | withdraw => cases hkind
    | announce t' o' atMs' =>
        -- a queued announce means the target is active: this is an upgrade
        replace hq : Mirror.queued MirrorOp.target (store s).pending t
          = some (.announce t' o' atMs') := hq
        rw [hq] at hrow
        rcases hcase with hnone | rfl
        · rw [hnone] at hrow
          cases hrow
        · cases hr : (store s).rows t with
          | none => simp [MirrorOp.act, MirrorOp.target, hr]
          | some r => simp [MirrorOp.act, MirrorOp.target, hr]
  · next hcases =>
    rcases hcase with hnone | rfl
    · -- a fresh announce: the row is absent, or the write fails over it
      cases hr : (store s).rows t with
      | none => simp [MirrorOp.act, MirrorOp.target, hr]
      | some r =>
          cases o with
          | manual => simp [MirrorOp.act, MirrorOp.target, hr]
          | auto =>
              cases hout : s.outcome env
                  (MirrorOp.announce t .auto atMs).call with
              | true =>
                  exfalso
                  cases hq : Mirror.queued MirrorOp.target
                      (store s).pending t with
                  | none =>
                      rw [hq, hr, hnone] at hrow
                      cases hrow
                  | some q => exact hcases q hout hq
              | false =>
                  rw [writeOk, hout] at hok
                  have hne : (table s).active t ≠ some .manual := by
                    simpa using hok
                  have hauto : r = .auto := by
                    cases r with
                    | auto => rfl
                    | manual => exact absurd hr hne
                  simp [MirrorOp.act, MirrorOp.target, hr, hauto]
    · cases hr : (store s).rows t with
      | none => simp [MirrorOp.act, MirrorOp.target, hr]
      | some r => simp [MirrorOp.act, MirrorOp.target, hr]

end Fits

-- =========================================================== the invariant

/-- The journal settles to the active set, up to the withdraws `gone` a
running tick still owes. -/
structure Mirrored (gone : List IpAddr) (s : Sys) : Prop where
  armed : s.mgr.disarmed = false
  settled : ∃ want, Heals want s
    ∧ ∀ t, t ∉ gone → want t = s.mgr.controller.origins t

theorem mirrored_start (config : RtbhConfig) (lim : Bool) :
    Mirrored [] (start config lim) := by
  refine ⟨rfl, fun _ => none, ⟨?_, List.nodup_nil, fun _ => rfl⟩,
    fun _ _ => rfl⟩
  intro w _
  exact trivial

/-- `Mirrored` reads the controller's origins, the queue, the table and
the kill switch. -/
theorem Mirrored.congr {gone : List IpAddr} {s s' : Sys}
    (h : Mirrored gone s)
    (horig : s'.mgr.controller.origins = s.mgr.controller.origins)
    (hpend : s'.mgr.pendingMirror = s.mgr.pendingMirror)
    (hdis : s'.mgr.disarmed = s.mgr.disarmed) (htbl : table s' = table s) :
    Mirrored gone s' := by
  obtain ⟨want, hheal, hwant⟩ := h.settled
  refine ⟨hdis.trans h.armed, want,
    hheal.congr hpend (congrArg activeRows htbl), ?_⟩
  rw [horig]
  exact hwant

/-- With no withdraw owed, what is wanted is the active set. -/
theorem Mirrored.heals {s : Sys} (h : Mirrored [] s) :
    Heals s.mgr.controller.origins s := by
  obtain ⟨want, hheal, hwant⟩ := h.settled
  have heq : want = s.mgr.controller.origins :=
    funext fun t => hwant t List.not_mem_nil
  exact heq ▸ hheal

/-- A direct write that fits, after calls and changes the mirror does not
see. -/
theorem Mirrored.written {gone : List IpAddr} {env : Outcomes Call}
    {w : MirrorOp} {v : Option BlackholeOrigin} {s₀ s : Sys}
    {want : IpAddr → Option BlackholeOrigin}
    (hheal : Heals want s₀) (harm : s.mgr.disarmed = false)
    (hpend : s.mgr.pendingMirror = s₀.mgr.pendingMirror)
    (htbl : table s = table s₀)
    (hfit : Fits MirrorOp.target MirrorOp.act (store s)
      (s.outcome env w.call) w v)
    (hwant : ∀ t, t ∉ gone → Function.update want w.target v t
      = s.mgr.controller.origins t) :
    Mirrored gone (mirror env w s) := by
  have hs : Heals want s := hheal.congr hpend (congrArg activeRows htbl)
  refine ⟨?_, Function.update want w.target v,
    hs.write mirror_carries trivial hfit, fun t ht => ?_⟩
  · rw [mirror, Mirror.Queue.write_frame (f := RtbhManager.disarmed)
      (fun _ _ => rfl)]
    exact harm
  · rw [(mirror_frame env w s).1]
    exact hwant t ht

-- ================================================================= retries

section Retries

variable {env : Outcomes Call} {s : Sys}

theorem Mirrored.retried_mirror (h : Mirrored [] s) :
    Mirrored [] (retryPendingMirror env s) := by
  refine ⟨?_, s.mgr.controller.origins, h.heals.retryAll mirror_carries,
    fun t _ => ?_⟩
  · rw [retryPendingMirror,
      Mirror.Queue.retryAll_frame (f := RtbhManager.disarmed)
        (fun _ _ => rfl)]
    exact h.armed
  · rw [(retryPendingMirror_frame env s).1]

/-- The re-announce self-heal moves nothing the mirror reads. -/
theorem Mirrored.retried_reapply (h : Mirrored [] s) :
    Mirrored [] (retryPendingReapply env s) := by
  refine run_invariant (P := Mirrored []) (fun s op hs => ?_) _
    (h.congr rfl rfl rfl rfl)
  have htbl : table (s.call env (.announce op.route)) = table s :=
    table_call_other env s rfl
  unfold retryReapply
  split
  · simp only
    split
    · exact hs.congr rfl rfl rfl htbl
    · exact hs.congr rfl rfl rfl htbl
  · exact hs

end Retries

-- ============================================================ entry points

section Ops

variable {env : Outcomes Call} {s : Sys}
variable (hbgp : ∀ i c, c.isBgp = true → env i c = true)
variable (hlim : ∀ i c, c.isLimiter = true → env i c = true)

include hbgp hlim in
/-- With an armed manager, no rejection and no BGP failure, every announce
goes out. -/
theorem announceOnBgp_applied (t : IpAddr) (route : Bgp.Route) (now : Nat)
    (harm : s.mgr.disarmed = false) :
    (announceOnBgp env t route now s).1 = .applied := by
  have hann : ∀ s : Sys, s.outcome env (.announce route) = true :=
    fun s => hbgp _ _ rfl
  have hacq : s.outcome env (.tryAcquire now) = true := hlim _ _ rfl
  unfold announceOnBgp
  simp [harm, hann, hacq]

include hbgp hlim in
/-- A fresh announce, from the controller's decision to the journal. -/
theorem Mirrored.announced {t : IpAddr} {route : Bgp.Route}
    {o : BlackholeOrigin} {c : RtbhController} {mono wall : Nat}
    (h : Mirrored [] s) (hfresh : s.mgr.controller.origins t = none)
    (horig : c.origins
      = Function.update s.mgr.controller.origins t (some o))
    (hok : announceOk env t route o mono wall
      (s.update (.setController c)) = true) :
    Mirrored [] (executeAndJournalAnnounce env t route o mono wall
      (s.update (.setController c))).2 := by
  have happ := announceOnBgp_applied hbgp hlim t route mono
    (s := s.update (.setController c)) h.armed
  obtain ⟨-, hmgr, -, -, htbl⟩ | ⟨hne, -⟩ :=
    announceOnBgp_cases env t route mono (s.update (.setController c))
  · unfold announceOk at hok
    unfold executeAndJournalAnnounce
    generalize announceOnBgp env t route mono
      (s.update (.setController c)) = r at happ hmgr htbl hok
    obtain ⟨out, s'⟩ := r
    cases happ
    have hpend : s'.mgr.pendingMirror = s.mgr.pendingMirror := by
      rw [hmgr]
      rfl
    have hheal : Heals s.mgr.controller.origins s' :=
      h.heals.congr hpend (congrArg activeRows htbl)
    refine Mirrored.written h.heals ?_ hpend htbl
      (fits_announce hheal.settled_store (Or.inl hfresh) hok) ?_
    · rw [hmgr]
      exact h.armed
    · intro t' _
      rw [hmgr]
      exact (congrFun horig t').symm
  · exact absurd happ hne

include hbgp in
/-- The loop over a batch of withdraws the controller has already
applied. -/
theorem Mirrored.withdraw_all {mono wall : Nat} :
    ∀ {gone : List IpAddr} {s : Sys}, Mirrored gone s →
      (∀ t ∈ gone, s.mgr.controller.origins t = none) →
      Guarded (executeAndJournal env mono wall)
        (fun s a => actionOk env mono wall s a = true) s
        (gone.map fun t => .withdraw (hostPrefix t)) →
      Mirrored [] (executeAll env mono wall
        (gone.map fun t => .withdraw (hostPrefix t)) s) := by
  intro gone
  induction gone with
  | nil => intro s h _ _; exact h
  | cons t gone ih =>
      intro s h hgone hguard
      obtain ⟨hok, hguard⟩ := hguard
      obtain ⟨want, hheal, hwant⟩ := h.settled
      have hout : s.outcome env (.withdraw (hostPrefix t)) = true :=
        hbgp _ _ rfl
      simp only [actionOk, hout, Bool.not_true, Bool.false_or,
        addr_hostPrefix] at hok
      have hexec : executeAndJournal env mono wall
          (.withdraw (hostPrefix t)) s
          = mirror env (.withdraw t wall)
            (s.call env (.withdraw (hostPrefix t))) := by
        simp only [executeAndJournal, hout, if_true, addr_hostPrefix]
      have hstep : Mirrored gone (executeAndJournal env mono wall
          (.withdraw (hostPrefix t)) s) := by
        rw [hexec]
        refine Mirrored.written hheal h.armed rfl
          (table_call_other env s rfl) (fits_withdraw hok) ?_
        intro t' ht'
        rw [MirrorOp.target, Function.update_apply]
        split
        · next he =>
          rw [he]
          exact (hgone t List.mem_cons_self).symm
        · next hne =>
          refine hwant t' fun hmem => ?_
          rcases List.mem_cons.mp hmem with he | hmem
          · exact hne he
          · exact ht' hmem
      have hctl : (executeAndJournal env mono wall
          (.withdraw (hostPrefix t)) s).mgr.controller
          = s.mgr.controller := by
        rw [hexec, (mirror_frame ..).1]
        rfl
      refine ih hstep (fun t' ht' => ?_) hguard
      rw [hctl]
      exact hgone t' (List.mem_cons_of_mem _ ht')

include hbgp in
/-- Dropping a set of targets from the controller and withdrawing them. -/
theorem Mirrored.removed {c : RtbhController} {mono wall : Nat}
    (h : Mirrored [] s) (gone : List IpAddr)
    (horig : ∀ t, c.origins t
      = if t ∈ gone then none else s.mgr.controller.origins t)
    (hok : Guarded (executeAndJournal env mono wall)
      (fun s a => actionOk env mono wall s a = true)
      (s.update (.setController c))
      (gone.map fun t => .withdraw (hostPrefix t))) :
    Mirrored [] (executeAll env mono wall
      (gone.map fun t => .withdraw (hostPrefix t))
      (s.update (.setController c))) := by
  refine Mirrored.withdraw_all hbgp ⟨h.armed, ?_⟩ ?_ hok
  · refine ⟨s.mgr.controller.origins, h.heals.congr rfl rfl,
      fun t ht => ?_⟩
    change _ = c.origins t
    rw [horig, if_neg ht]
  · intro t ht
    change c.origins t = none
    rw [horig, if_pos ht]

include hbgp hlim in
/-- Every entry point of an armed manager keeps the invariant when its
writes are guarded. -/
theorem Mirrored.step {op : Op} (h : Mirrored [] s)
    (harm : op.isArmed = true) (hok : opOk env s op = true) :
    Mirrored [] (step env op s) := by
  have hone : ∀ t t' : IpAddr,
      Function.update s.mgr.controller.origins t none t'
        = if t' ∈ [t] then none else s.mgr.controller.origins t' := by
    intro t t'
    simp [Function.update_apply]
  cases op with
  | applyEvent ev mono wall =>
      simp only [Rtbh.step, Rtbh.applyEvent, opOk, actionsOk,
        decide_eq_true_eq] at hok ⊢
      rcases RtbhController.onEvent_cases s.mgr.controller ev mono with
        ⟨hact, horig⟩ | ⟨route, hact, hnet, hfresh, horig⟩
          | ⟨hact, -, horig⟩
      · simp only [hact]
        exact h.congr horig rfl rfl rfl
      · rw [hact] at hok
        obtain ⟨hok, -⟩ := hok
        simp only [actionOk, hnet, addr_hostPrefix] at hok
        simp only [hact, executeAll, run_cons, run_nil, executeAndJournal,
          hnet, addr_hostPrefix]
        exact h.announced hbgp hlim hfresh horig hok
      · simp only [hact] at hok ⊢
        exact h.removed hbgp [ev.target]
          (fun t => by rw [horig, hone]) hok
  | applyAdd t mono wall =>
      rw [Rtbh.step]
      cases applyAdd_adds env t mono wall s with
      | upgraded held acts origins active result =>
          -- the row becomes manual
          simp only [opOk, acts, List.head?_nil, active, Bool.not_true,
            Bool.false_or] at hok
          rw [result]
          refine Mirrored.written h.heals h.armed rfl rfl
            (fits_announce h.heals.settled_store (Or.inr rfl) hok)
            fun t' _ => ?_
          exact (congrFun origins t').symm
      | declined free origins out why state =>
          rw [state]
          exact h.congr origins rfl rfl rfl
      | inserted route x free acts net origins exec out why state =>
          simp only [opOk, acts, List.head?_cons] at hok
          rw [state, exec]
          exact h.announced hbgp hlim free origins hok
  | applyRemove t mono wall =>
      simp only [Rtbh.step, Rtbh.applyRemove, opOk, actionsOk,
        decide_eq_true_eq] at hok ⊢
      rcases RtbhController.manualRemove_cases s.mgr.controller t with
        ⟨-, hact, horig⟩ | ⟨-, hact, horig⟩
      · simp only [hact]
        exact h.congr horig rfl rfl rfl
      · simp only [hact] at hok ⊢
        exact h.removed hbgp [t]
          (fun t' => by rw [horig, hone]) hok
  | tick ord mono wall =>
      simp only [Rtbh.step, Rtbh.tick, opOk, actionsOk,
        decide_eq_true_eq] at hok ⊢
      have hr : Mirrored [] (retryPendingReapply env
          (retryPendingMirror env s)) := h.retried_mirror.retried_reapply
      exact hr.removed hbgp _ (RtbhController.tick_origins _ ord mono) hok
  | disarm ord => cases harm

end Ops

-- ============================================================= clean ticks

/-- How many journal calls have failed so far. -/
def journalFailures (s : Sys) : Nat := failures Call.isJournal s

/-- A tick without a failing journal call leaves nothing queued. -/
theorem tick_clean {env : Outcomes Call} {s : Sys}
    {ord : IterOrder (Sigma fun _ : IpAddr => ActiveEntry)}
    {mono wall : Nat}
    (h : journalFailures (tick env ord mono wall s) = journalFailures s) :
    (tick env ord mono wall s).mgr.pendingMirror = [] := by
  have hjour : ∀ w, Call.isJournal (RtbhManager.mirrorQueue.call w)
      = true := by
    intro w
    cases w <;> rfl
  refine Mirror.Queue.Owed.nil (q := RtbhManager.mirrorQueue) ?_ h
  -- the queue starts empty and each piece of the tick pays for what it adds
  have hmir : RtbhManager.mirrorQueue.Owed Call.isJournal
      (journalFailures s) (retryPendingMirror env s) :=
    Mirror.Queue.Owed.retryAll hjour s
  have hre : RtbhManager.mirrorQueue.Owed Call.isJournal
      (journalFailures s)
      (retryPendingReapply env (retryPendingMirror env s)) := by
    refine run_invariant (fun s op h => ?_) _ (hmir.update rfl)
    unfold retryReapply
    split
    · simp only
      split
      · exact h.call _
      · exact (h.call _).update rfl
    · exact h
  unfold tick
  simp only [RtbhController.tick_actions, executeAll, run, List.foldl_map]
  refine run_invariant (P := RtbhManager.mirrorQueue.Owed Call.isJournal
    (journalFailures s)) (fun s t h => ?_) _ (hre.update rfl)
  simp only [executeAndJournal]
  split
  · exact (h.call _).write hjour
  · exact h.call _

-- ============================================================= convergence

/-- The active rows (target, origin) are the controller's active set. -/
def JournalAgrees (s : Sys) : Prop :=
  ∀ t o, (∃ r ∈ (table s).rows,
      r.isActive = true ∧ r.key = t ∧ r.val = o)
    ↔ ∃ e, s.mgr.controller.active.lookup t = some e ∧ e.origin = o

/-- A settled table with nothing queued agrees. -/
theorem Mirrored.agrees {s : Sys} (h : Mirrored [] s)
    (hnil : s.mgr.pendingMirror = []) : JournalAgrees s := by
  have hrow : (table s).active = s.mgr.controller.origins :=
    h.heals.rows_eq hnil
  intro t o
  rw [Rows.mem_active_iff, ← Option.map_eq_some_iff, hrow]
  exact Iff.rfl

/-- In every run whose direct journal writes are all `writeOk`, the table
agrees with the controller after every tick in which no journal call
fails. -/
theorem mirror_converges (env : Outcomes Call)
    (hbgp : ∀ i c, c.isBgp = true → env i c = true)
    (hlim : ∀ i c, c.isLimiter = true → env i c = true)
    (config : RtbhConfig) (lim : Bool) (ops : List Op)
    (harm : ∀ op ∈ ops, op.isArmed = true)
    (ord : IterOrder (Sigma fun _ : IpAddr => ActiveEntry))
    (mono wall : Nat)
    (hok : Guarded (step env) (fun s op => opOk env s op = true)
      (start config lim)
      (ops ++ [.tick ord mono wall]))
    (hclean : journalFailures (run (step env) (start config lim)
        (ops ++ [.tick ord mono wall]))
      = journalFailures (run (step env) (start config lim) ops)) :
    JournalAgrees (run (step env) (start config lim)
      (ops ++ [.tick ord mono wall])) := by
  rw [Guarded.append] at hok
  have hinv : Mirrored [] (run (step env) (start config lim) ops) :=
    run_guarded _
      (fun s op hmem hs hg => hs.step hbgp hlim (harm op hmem) hg) _
      (mirrored_start config lim) hok.1
  rw [run_append] at hclean ⊢
  exact (hinv.step hbgp hlim rfl hok.2.1).agrees (tick_clean hclean)

/-- The journal is down for the run's second call. -/
def journalBlips : Outcomes Call := fun i c =>
  !(c.isJournal && decide (i = 1))

theorem journalBlips_ok (i : Nat) (c : Call) (h : c.isJournal = false) :
    journalBlips i c = true := by
  simp [journalBlips, h]

/-- An add whose mirror write fails, repaired by the next tick. -/
theorem mirror_converges_repaired :
    JournalAgrees (run (step journalBlips) (start sampleConfig false)
      ([.applyAdd sampleTarget 0 0] ++ [.tick (.stored _) 1 1])) :=
  mirror_converges journalBlips
    (fun i c h => journalBlips_ok i c (by cases c <;> first | rfl | cases h))
    (fun i c h => journalBlips_ok i c (by cases c <;> first | rfl | cases h))
    sampleConfig false [.applyAdd sampleTarget 0 0] (by decide) (.stored _)
    1 1 (by decide) (by decide)

/-- The add's mirror write fails and is queued; the remove's succeeds and
leaves it queued; the tick replays it over the withdrawn row. -/
def staleAnnounceRun (tail : List Op) : Sys :=
  run (step journalBlips) (start sampleConfig false)
    ([.applyAdd sampleTarget 0 0, .applyRemove sampleTarget 1 1] ++ tail)

/-- No call of the tick fails, yet the target has an active row and is
not active. -/
theorem stale_announce_replayed :
    journalFailures (staleAnnounceRun [.tick (.stored _) 2 2])
        = journalFailures (staleAnnounceRun [])
      ∧ (∃ r ∈ (table (staleAnnounceRun [.tick (.stored _) 2 2])).rows,
          r.isActive = true ∧ r.key = sampleTarget
            ∧ r.val = .manual)
      ∧ sampleTarget ∉ (staleAnnounceRun
          [.tick (.stored _) 2 2]).mgr.controller.active := by
  decide

end Blackwall.Rtbh
