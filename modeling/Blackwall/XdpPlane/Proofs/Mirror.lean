/-
The XDP journal against the active entries: when the self-heal converges.

The mirror is the write-behind store of `Rtbh.Proofs.Mirror` with one
difference: a record replaces its row, so what a write leaves does not
depend on the row before it, and a failed write that takes the place of a
queued one loses nothing. The other gap stays. The queue is coalesced only
when a write fails, so a write that succeeds leaves an older one for its
identity queued, and the next tick replays it over the newer row
(`stale_limit_replayed`). `writeOk` excludes that case and nothing else,
and under it every run converges (`xdp_mirror_converges`).
-/
import Blackwall.State.Xdp
import Blackwall.XdpPlane.Proofs.Agree

namespace Blackwall.XdpPlane

open Base
open Base.Mirror (Settled Fits)
open Base.Mirror.Queue (Carries Synced failures)
open State (XdpEntries XdpEntryRow rowOf rowAt)

-- ==================================================== the mirror as a store

/-- A record that succeeds reaches the table, a failed one changes
nothing. -/
def tableStep (tbl : XdpEntries) : Call × Bool → XdpEntries
  | (.record a o _, true) => State.record a o tbl
  | _ => tbl

/-- The journal's table. -/
def table (s : Sys) : XdpEntries := s.view tableStep []

/-- What a mirror write leaves as its identity's row. -/
def MirrorOp.act (op : MirrorOp) (_ : Option XdpEntryRow) :
    Option XdpEntryRow :=
  rowOf op.action op.origin

theorem mirror_carries : Carries XdpManager.mirrorQueue MirrorOp.act
    tableStep rowAt (fun _ => True) := by
  refine ⟨fun tbl op _ => ?_, fun tbl op => rfl⟩
  funext k
  rw [Mirror.apply, Function.update_apply]
  exact State.rowAt_record op.action op.origin tbl k

/-- The rows and the queue. -/
abbrev store (s : Sys) : Mirror.Store MirrorKey MirrorOp XdpEntryRow :=
  XdpManager.mirrorQueue.store tableStep [] rowAt s

/-- The table and the queue settle to `want`. -/
def Heals (want : MirrorKey → Option XdpEntryRow) (s : Sys) : Prop :=
  Synced XdpManager.mirrorQueue MirrorOp.act tableStep [] rowAt
    (fun _ => True) [] want s

/-- The row an active entry should have. -/
def XdpController.wantRow (c : XdpController) (k : MirrorKey) :
    Option XdpEntryRow :=
  (c.heldAt k).bind fun e => rowOf e.1 e.2

theorem held_row (a : XdpAction) (o : XdpOrigin) :
    ((a.held o).bind fun e => rowOf e.1 e.2) = rowOf a o := by
  cases a <;> rfl

/-- The executor's calls do not reach the table. -/
theorem table_apply (env : Outcomes Call) (a : XdpAction) (s : Sys) :
    table (s.call env (.apply a)) = table s := by
  rw [table, Traced.view_call]
  rfl

theorem table_unique (s : Sys) : State.Unique (table s) := by
  unfold table Traced.view
  generalize hempty : ([] : XdpEntries) = tbl
  have htbl : State.Unique tbl := hempty ▸ .empty
  clear hempty
  induction s.log generalizing tbl with
  | nil => exact htbl
  | cons e log ih =>
      refine ih _ ?_
      unfold tableStep
      split
      · exact htbl.record ..
      · exact htbl

-- ======================================================== the write guard

/-- The direct journal write `w`, about to be made in `s`, does not
overtake a queued write of its identity that leaves another row. -/
def writeOk (env : Outcomes Call) (w : MirrorOp) (s : Sys) : Bool :=
  !s.outcome env w.call || s.mgr.pendingMirror.all fun q =>
    decide (q.key ≠ w.key)
      || decide (rowOf q.action q.origin = rowOf w.action w.origin)

/-- `writeOk` of the write that ends an action, if it gets that far. -/
def actionOk (env : Outcomes Call) (o : XdpOrigin) (wall : Nat)
    (fresh : Bool) (s : Sys) (a : XdpAction) : Bool :=
  match applyOnMaps env a fresh s with
  | (.applied, s') => writeOk env ⟨a, o, wall⟩ s'
  | _ => true

/-- `writeOk` of every direct journal write of one entry point, each in
the state it is made in. -/
def opOk (env : Outcomes Call) (s : Sys) (op : Op) : Bool :=
  match op with
  | .onDetection ord ev wall =>
      let (actions, c) := s.mgr.controller.onDetection ord ev
      decide (Guarded
        (fun a s => (executeAndJournal env a .auto wall true s).2)
        (fun s a => actionOk env .auto wall true s a = true)
        (s.update (.setController c)) actions)
  | .applyAdd net wall =>
      match s.mgr.controller.manualBlock net with
      | (.ok action, c) =>
          actionOk env .manual wall (!s.mgr.controller.isBlocked net)
            (s.update (.setController c)) action
      | _ => true
  | .applyRemove net wall =>
      let (action, c) := s.mgr.controller.manualUnblock net
      actionOk env .manual wall false (s.update (.setController c)) action
  | .applyRateLimit src pps burst wall =>
      match s.mgr.controller.manualRateLimit src pps burst with
      | (.ok action, c) =>
          actionOk env .manual wall (!s.mgr.controller.isRateLimited src)
            (s.update (.setController c)) action
      | _ => true
  | .applyClearRate src wall =>
      let (action, c) := s.mgr.controller.manualClearRate src
      actionOk env .manual wall false (s.update (.setController c)) action
  | .tick | .disarm _ _ => true

/-- A guarded write leaves its row settling to what it wrote. -/
theorem fits_write {env : Outcomes Call} {w : MirrorOp} {s : Sys}
    (hok : writeOk env w s = true) :
    Fits MirrorOp.key MirrorOp.act (store s) (s.outcome env w.call) w
      (rowOf w.action w.origin) := by
  unfold Fits
  split
  · next q hout hq =>
    obtain ⟨hmem, hkey⟩ := Mirror.queued_some MirrorOp.key hq
    unfold writeOk at hok
    rw [hout, Bool.not_true, Bool.false_or, List.all_eq_true] at hok
    have hrow : rowOf q.action q.origin = rowOf w.action w.origin := by
      simpa [hkey] using hok q hmem
    exact hrow
  · rfl

-- =========================================================== the invariant

/-- The journal settles to the active entries, up to the writes of the
actions `acts` still to be executed. -/
structure Mirrored (o : XdpOrigin) (acts : List XdpAction) (s : Sys) :
    Prop where
  armed : s.mgr.disarmed = false
  nodup : (acts.map mirrorKeyOf).Nodup
  handed : ∀ a ∈ acts,
    s.mgr.controller.wantRow (mirrorKeyOf a) = rowOf a o
  settled : ∃ want, Heals want s ∧ ∀ k, k ∉ acts.map mirrorKeyOf →
    want k = s.mgr.controller.wantRow k

theorem mirrored_start {c : XdpController} (hc : ∀ k, c.heldAt k = none)
    (o : XdpOrigin) : Mirrored o [] (start c) := by
  refine ⟨rfl, List.nodup_nil, ?_, fun _ => none, ?_, fun k _ => ?_⟩
  · intro a ha
    exact absurd ha List.not_mem_nil
  · exact ⟨fun _ _ => trivial, List.nodup_nil, fun _ => rfl⟩
  · exact (congrArg (Option.bind · _) (hc k)).symm

/-- With nothing left to execute, what is wanted is the active entries,
and no origin matters. -/
theorem Mirrored.heals {o : XdpOrigin} {s : Sys} (h : Mirrored o [] s) :
    Heals s.mgr.controller.wantRow s := by
  obtain ⟨want, hheal, hwant⟩ := h.settled
  have heq : want = s.mgr.controller.wantRow :=
    funext fun k => hwant k List.not_mem_nil
  exact heq ▸ hheal

theorem Mirrored.of_heals {s : Sys} (harm : s.mgr.disarmed = false)
    (h : Heals s.mgr.controller.wantRow s) (o : XdpOrigin) :
    Mirrored o [] s := by
  refine ⟨harm, List.nodup_nil, fun a ha => ?_, _, h, fun _ _ => rfl⟩
  exact absurd ha List.not_mem_nil

/-- A transition whose actions are about different keys, each of which
then holds what its action writes. -/
theorem Mirrored.handed_out {o o' : XdpOrigin} {s : Sys}
    (h : Mirrored o' [] s) {acts : List XdpAction} {c : XdpController}
    (hnd : (acts.map mirrorKeyOf).Nodup)
    (hother : ∀ k, k ∉ acts.map mirrorKeyOf →
      c.heldAt k = s.mgr.controller.heldAt k)
    (hheld : ∀ a ∈ acts, c.heldAt (mirrorKeyOf a) = a.held o) :
    Mirrored o acts (s.update (.setController c)) := by
  refine ⟨h.armed, hnd, fun a ha => ?_, s.mgr.controller.wantRow,
    h.heals.congr rfl rfl, fun k hk => ?_⟩
  · change c.wantRow _ = _
    rw [XdpController.wantRow, hheld a ha, held_row]
  · change _ = c.wantRow k
    rw [XdpController.wantRow, XdpController.wantRow, hother k hk]

-- ============================================================ entry points

section Ops

variable {env : Outcomes Call} {s : Sys} {o : XdpOrigin}
variable (hexec : ∀ i a, env i (.apply a) = true)

include hexec in
theorem Mirrored.execute {a : XdpAction} {acts : List XdpAction}
    {wall : Nat} {fresh : Bool} (h : Mirrored o (a :: acts) s)
    (hok : actionOk env o wall fresh s a = true) :
    Mirrored o acts (executeAndJournal env a o wall fresh s).2 := by
  have happly : applyOnMaps env a fresh s
      = (.applied, s.call env (.apply a)) := by
    have hout : s.outcome env (.apply a) = true := hexec _ _
    simp [applyOnMaps, h.armed, hout]
  rw [actionOk, happly] at hok
  rw [executeAndJournal, happly]
  have hnd := h.nodup
  rw [List.map_cons, List.nodup_cons] at hnd
  obtain ⟨want, hheal, hwant⟩ := h.settled
  have hcall : Heals want (s.call env (.apply a)) :=
    hheal.congr rfl (congrArg rowAt (table_apply env a s))
  obtain ⟨hctl, -, hdis, -⟩ :=
    mirror_frame env ⟨a, o, wall⟩ (s.call env (.apply a))
  refine ⟨hdis.trans h.armed, hnd.2, fun b hb => ?_, _,
    hcall.write mirror_carries trivial (fits_write hok), fun k hk => ?_⟩
  · rw [hctl]
    exact h.handed b (List.mem_cons_of_mem a hb)
  · change Function.update want (mirrorKeyOf a) (rowOf a o) k = _
    rw [hctl, Function.update_apply]
    split
    · next hka =>
      rw [hka]
      exact (h.handed a List.mem_cons_self).symm
    · next hka =>
      refine hwant k fun hmem => ?_
      rcases List.mem_cons.mp hmem with he | hmem
      · exact hka he
      · exact hk hmem

include hexec in
theorem Mirrored.execute_all {acts : List XdpAction} {wall : Nat}
    (h : Mirrored .auto acts s)
    (hok : Guarded
      (fun a s => (executeAndJournal env a .auto wall true s).2)
      (fun s a => actionOk env .auto wall true s a = true) s acts) :
    Mirrored .auto [] (run
      (fun a s => (executeAndJournal env a .auto wall true s).2)
      s acts) := by
  induction acts generalizing s with
  | nil => exact h
  | cons a acts ih => exact ih (h.execute hexec hok.1) hok.2

include hexec in
theorem Mirrored.manual {o' : XdpOrigin} (h : Mirrored o' [] s)
    {a : XdpAction} {c : XdpController} {wall : Nat} {fresh : Bool}
    (hc : c.heldAt = Function.update s.mgr.controller.heldAt
      (mirrorKeyOf a) (a.held .manual))
    (hok : actionOk env .manual wall fresh (s.update (.setController c)) a
      = true) :
    Mirrored .manual [] (executeAndJournal env a .manual wall fresh
      (s.update (.setController c))).2 := by
  refine Mirrored.execute hexec (h.handed_out ?_ ?_ ?_) hok
  · exact List.nodup_singleton _
  · intro k hk
    rw [hc, Function.update_of_ne (fun he => hk (by simp [he]))]
  · intro b hb
    rw [List.mem_singleton.mp hb, hc, Function.update_self]

/-- The re-apply self-heal makes executor calls only. -/
theorem Mirrored.retried_reapply (h : Mirrored o [] s) :
    Mirrored o [] (retryPendingReapply env s) := by
  have hclear : Mirrored o []
      (s.update fun m => { m with pendingReapply := [] }) := by
    refine .of_heals ?_ ?_ o
    · exact h.armed
    · exact h.heals.congr rfl rfl
  refine run_invariant (P := Mirrored o []) (fun s op hs => ?_) _ hclear
  have hcall : ∀ a (f : XdpManager → XdpManager),
      (f s.mgr).controller = s.mgr.controller →
      (f s.mgr).pendingMirror = s.mgr.pendingMirror →
      (f s.mgr).disarmed = s.mgr.disarmed →
      Mirrored o [] ((s.call env (.apply a)).update f) := by
    intro a f hctl hpend hdis
    refine .of_heals (hdis.trans hs.armed) ?_ o
    have hheal := hs.heals
    rw [← hctl] at hheal
    exact hheal.congr hpend (congrArg rowAt (table_apply env a s))
  unfold retryReapply
  split
  · exact hs
  · simp only
    split
    · exact hcall _ id rfl rfl rfl
    · exact hcall _ _ rfl rfl rfl

include hexec in
/-- Every entry point of an armed manager keeps the invariant when its
writes are guarded. -/
theorem Mirrored.step {op : Op} (h : Mirrored .auto [] s)
    (harm : op.isArmed = true) (hok : opOk env s op = true) :
    Mirrored .auto [] (step env op s) := by
  cases op with
  | onDetection ord ev wall =>
      have hposts :=
        XdpController.onDetection_posts ord ev s.mgr.controller
      simp only [opOk, decide_eq_true_eq] at hok
      exact Mirrored.execute_all hexec
        (h.handed_out hposts.nodup hposts.other hposts.handed) hok
  | applyAdd net wall =>
      rw [XdpPlane.step, applyAdd_state]
      rcases XdpController.manualBlock_cases net s.mgr.controller with
        ⟨e, he⟩ | ⟨c, hc, hheld⟩
      · rw [he]
        exact h
      · simp only [opOk, hc] at hok
        rw [hc]
        have hm := h.manual hexec hheld hok
        exact .of_heals hm.armed hm.heals _
  | applyRemove net wall =>
      have hm := h.manual hexec
        (XdpController.heldAt_manualUnblock net _) hok
      exact .of_heals hm.armed hm.heals _
  | applyRateLimit src pps burst wall =>
      rw [XdpPlane.step, applyRateLimit_state]
      rcases XdpController.manualRateLimit_cases src pps burst
        s.mgr.controller with ⟨e, he⟩ | ⟨c, hc, hheld⟩
      · rw [he]
        exact h
      · simp only [opOk, hc] at hok
        rw [hc]
        have hm := h.manual hexec hheld hok
        exact .of_heals hm.armed hm.heals _
  | applyClearRate src wall =>
      have hm := h.manual hexec
        (XdpController.heldAt_manualClearRate src _) hok
      exact .of_heals hm.armed hm.heals _
  | tick =>
      obtain ⟨hctl, -, hdis, -⟩ := retryPendingMirror_frame env s
      refine Mirrored.retried_reapply (.of_heals (hdis.trans h.armed) ?_ _)
      rw [hctl]
      exact h.heals.retryAll mirror_carries
  | disarm ordRate ordBlock => cases harm

end Ops

-- ============================================================= clean ticks

/-- Is this a journal call? -/
def Call.isJournal : Call → Bool
  | .record .. => true
  | .apply _ => false

/-- How many journal calls have failed so far. -/
def journalFailures (s : Sys) : Nat := failures Call.isJournal s

/-- A tick without a failing journal call leaves nothing queued. -/
theorem tick_clean {env : Outcomes Call} {s : Sys}
    (h : journalFailures (tick env s) = journalFailures s) :
    (tick env s).mgr.pendingMirror = [] := by
  refine Mirror.Queue.Owed.nil (q := XdpManager.mirrorQueue) ?_ h
  have hmir : XdpManager.mirrorQueue.Owed Call.isJournal
      (journalFailures s) (retryPendingMirror env s) :=
    Mirror.Queue.Owed.retryAll (fun _ => rfl) s
  refine run_invariant (P := XdpManager.mirrorQueue.Owed Call.isJournal
    (journalFailures s)) (fun s op h => ?_) _ (hmir.update rfl)
  unfold retryReapply
  split
  · exact h
  · simp only
    split
    · exact h.call _
    · exact (h.call _).update rfl

-- ============================================================= convergence

/-- The rows are the active entries, one row each. -/
structure JournalAgrees
    (ordRate : IterOrder (Sigma fun _ : IpAddr => RateLimitEntry))
    (ordBlock : IterOrder (Sigma fun _ : IpNet => XdpOrigin)) (s : Sys) :
    Prop where
  nodup : ((table s).map XdpEntryRow.entryId).Nodup
  active : ∀ r ∈ table s,
    ∃ e ∈ s.mgr.controller.activeEntries ordRate ordBlock,
      rowOf e.1 e.2 = some r
  recorded : ∀ e ∈ s.mgr.controller.activeEntries ordRate ordBlock,
    ∃ r ∈ table s, rowOf e.1 e.2 = some r

/-- What `active_entries` lists is what the keys hold. -/
theorem XdpController.mem_activeEntries (c : XdpController)
    (ordRate : IterOrder (Sigma fun _ : IpAddr => RateLimitEntry))
    (ordBlock : IterOrder (Sigma fun _ : IpNet => XdpOrigin))
    (e : XdpAction × XdpOrigin) :
    e ∈ c.activeEntries ordRate ordBlock ↔ ∃ k, c.heldAt k = some e := by
  simp only [activeEntries, List.mem_append, List.mem_map,
    IterOrder.mem_iff, Sigma.exists, Dict.mem_entries_iff]
  constructor
  · rintro (⟨a, x, hx, rfl⟩ | ⟨n, x, hx, rfl⟩)
    · exact ⟨.src a, by rw [heldAt, hx]; rfl⟩
    · exact ⟨.net n, by rw [heldAt, hx]; rfl⟩
  · rintro ⟨k, hk⟩
    cases k with
    | src a =>
        obtain ⟨x, hx, rfl⟩ := Option.map_eq_some_iff.mp hk
        exact .inl ⟨a, x, hx, rfl⟩
    | net n =>
        obtain ⟨x, hx, rfl⟩ := Option.map_eq_some_iff.mp hk
        exact .inr ⟨n, x, hx, rfl⟩

/-- An active entry is an install, so it has a row. -/
theorem XdpController.rowOf_isSome {c : XdpController} {k : MirrorKey}
    {e : XdpAction × XdpOrigin} (h : c.heldAt k = some e) :
    (rowOf e.1 e.2).isSome = true := by
  cases k with
  | src a =>
      obtain ⟨x, -, rfl⟩ := Option.map_eq_some_iff.mp h
      rfl
  | net n =>
      obtain ⟨x, -, rfl⟩ := Option.map_eq_some_iff.mp h
      rfl

/-- A settled table with nothing queued agrees. -/
theorem Mirrored.agrees {o : XdpOrigin} {s : Sys} (h : Mirrored o [] s)
    (hnil : s.mgr.pendingMirror = [])
    (ordRate : IterOrder (Sigma fun _ : IpAddr => RateLimitEntry))
    (ordBlock : IterOrder (Sigma fun _ : IpNet => XdpOrigin)) :
    JournalAgrees ordRate ordBlock s := by
  have hrows : rowAt (table s) = s.mgr.controller.wantRow :=
    h.heals.rows_eq hnil
  have hunique := table_unique s
  refine ⟨hunique.nodup, fun r hr => ?_, fun e he => ?_⟩
  · obtain ⟨k, hk⟩ := hunique.mem_iff.mp hr
    rw [hrows] at hk
    obtain ⟨e, he, hrow⟩ := Option.bind_eq_some_iff.mp hk
    exact ⟨e, (XdpController.mem_activeEntries ..).mpr ⟨k, he⟩, hrow⟩
  · obtain ⟨k, hk⟩ := (XdpController.mem_activeEntries ..).mp he
    obtain ⟨r, hr⟩ := Option.isSome_iff_exists.mp
      (XdpController.rowOf_isSome hk)
    refine ⟨r, hunique.mem_iff.mpr ⟨k, ?_⟩, hr⟩
    rw [hrows, XdpController.wantRow, hk]
    exact hr

/-- In every run whose direct journal writes are all `writeOk`, the rows
are the active entries after every tick in which no journal call fails. -/
theorem xdp_mirror_converges (env : Outcomes Call)
    (hexec : ∀ i a, env i (.apply a) = true)
    (prefixes : List IpNet) (cap rate : Nat) (prot : List IpNet)
    (ops : List Op) (harm : ∀ op ∈ ops, op.isArmed = true)
    (hok : Guarded (step env) (fun s op => opOk env s op = true)
      (start (.new prefixes cap rate prot)) ops)
    (hclean : journalFailures (run (step env)
        (start (.new prefixes cap rate prot)) (ops ++ [.tick]))
      = journalFailures (run (step env)
        (start (.new prefixes cap rate prot)) ops))
    (ordRate : IterOrder (Sigma fun _ : IpAddr => RateLimitEntry))
    (ordBlock : IterOrder (Sigma fun _ : IpNet => XdpOrigin)) :
    JournalAgrees ordRate ordBlock (run (step env)
      (start (.new prefixes cap rate prot)) (ops ++ [.tick])) := by
  have hempty : ∀ k,
      (XdpController.new prefixes cap rate prot).heldAt k = none := by
    intro k
    cases k <;> rfl
  have hinv : Mirrored .auto []
      (run (step env) (start (.new prefixes cap rate prot)) ops) :=
    run_guarded _
      (fun s op hmem hs hg => hs.step hexec (harm op hmem) hg) _
      (mirrored_start hempty .auto) hok
  rw [run_append] at hclean ⊢
  have hticked : Mirrored .auto [] (step env .tick
      (run (step env) (start (.new prefixes cap rate prot)) ops)) :=
    hinv.step hexec rfl rfl
  exact hticked.agrees (tick_clean hclean) ordRate ordBlock

/-- The journal is down for the run's second call. -/
def journalBlips : Outcomes Call := fun i c =>
  !(c.isJournal && decide (i = 1))

/-- A manual limit whose mirror write fails and is queued. -/
def limitUnrecorded (tail : List Op) : Sys :=
  run (step journalBlips) (start (.new [] 16 1000 []))
    ([.applyRateLimit sampleSource 500 800 0] ++ tail)

/-- The next tick repairs it. -/
theorem xdp_mirror_converges_repaired :
    JournalAgrees (.stored _) (.stored _) (limitUnrecorded [.tick]) :=
  xdp_mirror_converges journalBlips (fun _ _ => rfl) [] 16 1000 []
    [.applyRateLimit sampleSource 500 800 0] (by decide) (by decide)
    (by decide) (.stored _) (.stored _)

/-- The clear's write succeeds and leaves the limit's queued; the tick, in
which no call fails, replays it over the deleted row. -/
theorem stale_limit_replayed :
    journalFailures
        (limitUnrecorded [.applyClearRate sampleSource 1, .tick])
      = journalFailures
        (limitUnrecorded [.applyClearRate sampleSource 1])
      ∧ ¬ JournalAgrees (.stored _) (.stored _)
        (limitUnrecorded [.applyClearRate sampleSource 1, .tick]) := by
  refine ⟨by decide, fun h => ?_⟩
  have hrow : ⟨.rateLimit, sampleSource, none, some 500, some 800,
      .manual, none⟩ ∈ table
        (limitUnrecorded [.applyClearRate sampleSource 1, .tick]) := by
    decide
  obtain ⟨e, he, -⟩ := h.active _ hrow
  have hnone : (limitUnrecorded [.applyClearRate sampleSource 1,
      .tick]).mgr.controller.activeEntries (.stored _) (.stored _) = [] := by
    decide
  rw [hnone] at he
  exact absurd he List.not_mem_nil

end Blackwall.XdpPlane
