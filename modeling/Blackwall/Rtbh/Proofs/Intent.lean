/-
Does the last operator request win?

Requests are replayed until the write of their status succeeds, in the
order of their ids within one snapshot. What is wanted: a target with no
pending request is blackholed by hand exactly when the newest request for
it is an add.

A failed write breaks the order across snapshots. A remove whose status
write failed is applied again on the next tick, after a newer add of the
same snapshot took effect and was marked; once the remove is marked too,
nothing is left to put the add back (`replayed_remove_beats_newer_add`).
An add that a remove failed to supersede does the same the other way
around.

The exact condition reads the table at each successful write that marks a
request applied (`Move.ok`). `Served` carries the argument: the
bookkeeping every move keeps, whichever writes fail. Under it a move
keeps the agreement exactly when it meets the condition.
-/
import Mathlib.Data.Finset.Max
import Blackwall.Rtbh.Proofs.Manual

namespace Blackwall.Rtbh

open Base
open State

-- ============================================================= the table

/-- The rows of the table that `reqs` lists are still pending, and in the
order of their ids. -/
structure Queued (reqs : List RtbhRequestRow) (tbl : Requests) :
    Prop where
  pending : ∀ r ∈ reqs, r ∈ tbl.rows ∧ r.status = .pending
  ordered : reqs.Pairwise fun r r' => r.id < r'.id

section Table

variable {tbl : Requests} {req : RtbhRequestRow}
  {reqs rest : List RtbhRequestRow}

theorem queued_snapshot (tbl : Requests) :
    Queued (pendingRequests tbl) tbl where
  pending r hr := by simpa [pendingRequests] using hr
  ordered := tbl.ordered.filter _

theorem Queued.tail (h : Queued (req :: rest) tbl) : Queued rest tbl where
  pending r hr := h.pending r (List.mem_cons_of_mem req hr)
  ordered := h.ordered.of_cons

theorem Queued.head (h : Queued (req :: rest) tbl) :
    req ∈ tbl.rows ∧ req.status = .pending :=
  h.pending req List.mem_cons_self

theorem Queued.enqueue (h : Queued reqs tbl) (t : IpAddr)
    (a : RequestAction) : Queued reqs (enqueueRequest t a tbl) where
  pending r hr :=
    ⟨List.mem_append_left _ (h.pending r hr).1, (h.pending r hr).2⟩
  ordered := h.ordered

/-- An update that selects none of them leaves them pending. -/
theorem Queued.update {p : RtbhRequestRow → Bool} (status : RequestStatus)
    (note : Option String) (h : Queued reqs tbl)
    (hp : ∀ r ∈ reqs, p r = false) :
    Queued reqs (tbl.update p status note) where
  pending r hr := by
    refine ⟨List.mem_map.mpr ⟨r, (h.pending r hr).1, ?_⟩,
      (h.pending r hr).2⟩
    exact RtbhRequestRow.set_of_not _ _ (hp r hr)
  ordered := h.ordered

/-- A remove supersedes only what is older than the snapshot's rest. -/
theorem Queued.supersede (h : Queued (req :: rest) tbl) :
    Queued (req :: rest)
      (supersedePendingAdds req.target req.id tbl) := by
  refine h.update .applied _ fun r hr => ?_
  have hge : req.id ≤ r.id := by
    rcases List.mem_cons.mp hr with rfl | hr
    · exact Nat.le_refl _
    · exact Nat.le_of_lt (List.rel_of_pairwise_cons h.ordered hr)
  simp [Nat.not_lt.mpr hge]

theorem Queued.marked (h : Queued (req :: rest) tbl)
    (status : RequestStatus) (note : Option String) :
    Queued rest (setRequestStatus req.id status note tbl) := by
  refine h.tail.update status note fun r hr => ?_
  have hlt := List.rel_of_pairwise_cons h.ordered hr
  simp [Nat.ne_of_gt hlt]

-- --------------------------------------------------- what its rows say

/-- What the table's rows record, whichever writes failed: a superseded
request has a newer remove of its target, only adds are rejected, and an
add is applied only if the policy admits its target. -/
structure Ledger (config : RtbhConfig) (tbl : Requests) : Prop where
  outdone : ∀ r ∈ tbl.rows, r.status = .applied → r.note ≠ none →
    ∃ r' ∈ tbl.rows, r'.target = r.target ∧ r'.action = .remove
      ∧ r.id < r'.id
  rejects : ∀ r ∈ tbl.rows, r.status = .rejected → r.action = .add
  granted : ∀ r ∈ tbl.rows, r.status = .applied → r.note = none →
    r.action = .add →
      (RtbhController.new config).mitigable r.target = true

variable {config : RtbhConfig}

theorem ledger_empty (config : RtbhConfig) : Ledger config .empty where
  outdone _ hr := absurd hr List.not_mem_nil
  rejects _ hr := absurd hr List.not_mem_nil
  granted _ hr := absurd hr List.not_mem_nil

theorem Ledger.enqueue (h : Ledger config tbl) (t : IpAddr)
    (a : RequestAction) : Ledger config (enqueueRequest t a tbl) := by
  have hold : ∀ r ∈ (enqueueRequest t a tbl).rows, r.status ≠ .pending →
      r ∈ tbl.rows := by
    intro r hr hst
    rcases List.mem_append.mp hr with hr | hr
    · exact hr
    · rw [List.mem_singleton.mp hr] at hst
      exact absurd rfl hst
  constructor
  · intro r hr hst hnote
    obtain ⟨r', hr', hrest⟩ :=
      h.outdone r (hold r hr (by simp [hst])) hst hnote
    exact ⟨r', List.mem_append_left _ hr', hrest⟩
  · intro r hr hst
    exact h.rejects r (hold r hr (by simp [hst])) hst
  · intro r hr hst
    exact h.granted r (hold r hr (by simp [hst])) hst

/-- An update, when what it writes agrees with the record. -/
theorem Ledger.update {p : RtbhRequestRow → Bool} {status : RequestStatus}
    {note : Option String} (h : Ledger config tbl)
    (hnew : ∀ r ∈ tbl.rows, p r = true →
      (status = .applied → note ≠ none →
        ∃ r' ∈ tbl.rows, r'.target = r.target ∧ r'.action = .remove
          ∧ r.id < r'.id)
      ∧ (status = .rejected → r.action = .add)
      ∧ (status = .applied → note = none → r.action = .add →
        (RtbhController.new config).mitigable r.target = true)) :
    Ledger config (tbl.update p status note) := by
  -- a row is as it was, or carries what was written
  have hrow : ∀ r ∈ (tbl.update p status note).rows,
      r ∈ tbl.rows ∨ ∃ r₀ ∈ tbl.rows, p r₀ = true
        ∧ r = { r₀ with status, note } := by
    intro r hr
    obtain ⟨r₀, hr₀, rfl⟩ := List.mem_map.mp hr
    cases hp : p r₀ with
    | true => exact Or.inr ⟨r₀, hr₀, hp, RtbhRequestRow.set_of _ _ hp⟩
    | false =>
        rw [RtbhRequestRow.set_of_not _ _ hp]
        exact Or.inl hr₀
  have hkeep : ∀ r₀ ∈ tbl.rows, ∃ r ∈ (tbl.update p status note).rows,
      r.target = r₀.target ∧ r.action = r₀.action ∧ r.id = r₀.id :=
    fun r₀ hr₀ => ⟨_, List.mem_map_of_mem hr₀, by simp⟩
  constructor
  · intro r hr hst hnote
    obtain ⟨r₁, hr₁, ht, ha, hid⟩ : ∃ r' ∈ tbl.rows,
        r'.target = r.target ∧ r'.action = .remove ∧ r.id < r'.id := by
      rcases hrow r hr with hr | ⟨r₀, hr₀, hp, rfl⟩
      · exact h.outdone r hr hst hnote
      · exact (hnew r₀ hr₀ hp).1 hst hnote
    obtain ⟨r₂, hr₂, ht₂, ha₂, hid₂⟩ := hkeep r₁ hr₁
    exact ⟨r₂, hr₂, ht₂.trans ht, ha₂.trans ha, hid₂ ▸ hid⟩
  · intro r hr hst
    rcases hrow r hr with hr | ⟨r₀, hr₀, hp, rfl⟩
    · exact h.rejects r hr hst
    · exact (hnew r₀ hr₀ hp).2.1 hst
  · intro r hr hst hnote hadd
    rcases hrow r hr with hr | ⟨r₀, hr₀, hp, rfl⟩
    · exact h.granted r hr hst hnote hadd
    · exact (hnew r₀ hr₀ hp).2.2 hst hnote hadd

theorem Ledger.supersede (h : Ledger config tbl) (hreq : req ∈ tbl.rows)
    (hact : req.action = .remove) :
    Ledger config (supersedePendingAdds req.target req.id tbl) := by
  refine h.update fun r _ hp => ?_
  simp only [Bool.and_eq_true, decide_eq_true_eq] at hp
  obtain ⟨⟨⟨-, ht⟩, -⟩, hid⟩ := hp
  exact ⟨fun _ _ => ⟨req, hreq, ht.symm, hact, hid⟩,
    fun hst => by simp at hst, fun _ hnote => by simp at hnote⟩

/-- Nothing for a target the policy keeps out is a standing add. -/
theorem Ledger.no_add {t : IpAddr} (h : Ledger config tbl)
    (ht : (RtbhController.new config).mitigable t = false)
    (hidle : ¬ Awaits t tbl) : ¬ NewestIs .add t tbl := by
  rintro ⟨r, hr, hst, hadd, hmax⟩
  obtain ⟨hmem, rfl⟩ := Requests.mem_about.mp hr
  have happ : r.status = .applied := by
    cases hs : r.status with
    | pending => exact absurd ⟨r, hr, hs⟩ hidle
    | applied => rfl
    | rejected => exact absurd hs hst
  cases hnote : r.note with
  | none =>
      rw [h.granted r hmem happ hnote hadd] at ht
      cases ht
  | some note =>
      obtain ⟨r', hr', ht', ha', hlt⟩ :=
        h.outdone r hmem happ (by simp [hnote])
      have hle := hmax r' (Requests.mem_about.mpr ⟨hr', ht'⟩) fun hrej => by
        rw [h.rejects r' hr' hrej] at ha'
        cases ha'
      omega

end Table

-- ====================================================== the newest request

/-- A request that was not rejected leaves some newest one. -/
theorem newest_exists {t : IpAddr} {tbl : Requests} {r : RtbhRequestRow}
    (hr : r ∈ tbl.about t) (hst : r.status ≠ .rejected) :
    ∃ a, NewestIs a t tbl := by
  let live := (tbl.about t).filter fun r => r.status ≠ .rejected
  have hlive : ∀ r', r' ∈ live.toFinset
      ↔ r' ∈ tbl.about t ∧ r'.status ≠ .rejected := by
    simp [live]
  obtain ⟨m, hm, hmax⟩ := Finset.exists_max_image live.toFinset (·.id)
    ⟨r, (hlive r).mpr ⟨hr, hst⟩⟩
  obtain ⟨hmem, hmst⟩ := (hlive m).mp hm
  exact ⟨m.action, m, hmem, hmst, rfl,
    fun r' hr' hst' => hmax r' ((hlive r').mpr ⟨hr', hst'⟩)⟩

/-- There is one newest request. -/
theorem newest_unique {t : IpAddr} {tbl : Requests}
    {a a' : RequestAction} (h : NewestIs a t tbl)
    (h' : NewestIs a' t tbl) : a = a' := by
  obtain ⟨r, hr, hst, rfl, hmax⟩ := h
  obtain ⟨r', hr', hst', rfl, hmax'⟩ := h'
  have hid : r.id = r'.id :=
    Nat.le_antisymm (hmax' r hr hst) (hmax r' hr' hst')
  rw [Requests.eq_of_id (Requests.mem_about.mp hr).1
    (Requests.mem_about.mp hr').1 hid]

/-- Whether a request asks what the newest one asks, in terms of adds. -/
theorem newest_is_iff {t : IpAddr} {tbl : Requests} {r : RtbhRequestRow}
    (hr : r ∈ tbl.about t) (hst : r.status ≠ .rejected)
    (a : RequestAction) :
    (a = .add ↔ NewestIs .add t tbl) ↔ NewestIs a t tbl := by
  obtain ⟨b, hb⟩ := newest_exists hr hst
  have hb' : ∀ a, NewestIs a t tbl ↔ a = b :=
    fun a => ⟨fun h => newest_unique h hb, fun h => h ▸ hb⟩
  rw [hb', hb']
  cases a <;> cases b <;> simp

/-- Marking a pending request applied leaves the newest one what it
was. -/
theorem newest_marked {t : IpAddr} {tbl : Requests} {req : RtbhRequestRow}
    (hreq : req ∈ tbl.rows) (hpend : req.status = .pending)
    (note : Option String) (a : RequestAction) :
    NewestIs a t (setRequestStatus req.id .applied note tbl)
      ↔ NewestIs a t tbl := by
  have hset : ∀ r ∈ tbl.rows,
      ((r.set (fun r => r.id = req.id) .applied note).status ≠ .rejected
        ↔ r.status ≠ .rejected) := by
    intro r hr
    by_cases hid : r.id = req.id
    · have hrq : r = req := Requests.eq_of_id hr hreq hid
      rw [RtbhRequestRow.set_of _ _ (by simpa using hid), hrq, hpend]
      simp
    · rw [RtbhRequestRow.set_of_not _ _ (by simpa using hid)]
  have habout : (setRequestStatus req.id .applied note tbl).about t
      = (tbl.about t).map fun r =>
          r.set (fun r => r.id = req.id) .applied note := by
    simp [Requests.about, setRequestStatus, Requests.update,
      List.filter_map, Function.comp_def]
  have hmem : ∀ {r}, r ∈ tbl.about t → r ∈ tbl.rows :=
    fun h => (Requests.mem_about.mp h).1
  unfold NewestIs
  rw [habout]
  constructor
  · rintro ⟨r, hr, hst, hact, hmax⟩
    obtain ⟨r₀, hr₀, rfl⟩ := List.mem_map.mp hr
    refine ⟨r₀, hr₀, (hset r₀ (hmem hr₀)).mp hst, by simpa using hact,
      fun r' hr' hst' => ?_⟩
    have := hmax _ (List.mem_map_of_mem hr')
      ((hset r' (hmem hr')).mpr hst')
    simpa using this
  · rintro ⟨r₀, hr₀, hst, hact, hmax⟩
    refine ⟨_, List.mem_map_of_mem hr₀, (hset r₀ (hmem hr₀)).mpr hst,
      by simpa using hact, fun r hr hst' => ?_⟩
    obtain ⟨r', hr', rfl⟩ := List.mem_map.mp hr
    have := hmax r' hr' ((hset r' (hmem hr')).mp hst')
    simpa using this

/-- What stays pending when a request is marked: the others. -/
theorem awaits_marked (tbl : Requests) (t : IpAddr) (id : Nat)
    {status : RequestStatus} (note : Option String)
    (hst : status ≠ .pending) :
    Awaits t (setRequestStatus id status note tbl)
      ↔ ∃ r ∈ tbl.about t, r.status = .pending ∧ r.id ≠ id := by
  unfold Awaits
  constructor
  · rintro ⟨r, hr, hpend⟩
    obtain ⟨hmem, ht⟩ := Requests.mem_about.mp hr
    obtain ⟨r₀, hr₀, rfl⟩ := List.mem_map.mp hmem
    by_cases hid : r₀.id = id
    · rw [RtbhRequestRow.set_of _ _ (by simpa using hid)] at hpend
      exact absurd hpend hst
    · rw [RtbhRequestRow.set_of_not _ _ (by simpa using hid)] at hpend ht
      exact ⟨r₀, Requests.mem_about.mpr ⟨hr₀, ht⟩, hpend, hid⟩
  · rintro ⟨r, hr, hpend, hid⟩
    obtain ⟨hmem, ht⟩ := Requests.mem_about.mp hr
    refine ⟨r, Requests.mem_about.mpr
      ⟨List.mem_map.mpr ⟨r, hmem, ?_⟩, ht⟩, hpend⟩
    exact RtbhRequestRow.set_of_not _ _ (by simpa using hid)

-- ============================================================ bookkeeping

/-- What the pending status write will say, and that it is so. -/
def Verdict (s : Sys) (req : RtbhRequestRow) (status : RequestStatus)
    (note : Option String) : Prop :=
  (status = .applied ∧ note = none
      ∧ (ManuallyActive s req.target ↔ req.action = .add)
      ∧ (req.action = .add →
        s.mgr.controller.mitigable req.target = true))
    ∨ (status = .rejected ∧ req.action = .add
      ∧ ¬ ManuallyActive s req.target
      ∧ s.mgr.controller.mitigable req.target = false)

/-- What is known of the requests the task holds. -/
def Phase.Ok (s : Sys) (tbl : Requests) : Phase → Prop
  | .idle => True
  | .serving rest => Queued rest tbl
  | .superseding req rest => Queued (req :: rest) tbl
      ∧ req.action = .remove ∧ ¬ ManuallyActive s req.target
  | .marking req status note rest => Queued (req :: rest) tbl
      ∧ Verdict s req status note

/-- The bookkeeping of the task. -/
structure Served (config : RtbhConfig) (k : Task) : Prop where
  standing : Standing config k.sys
  ledger : Ledger config k.requests
  phase : k.phase.Ok k.sys k.requests

section Steps

variable {config : RtbhConfig} {k : Task}

theorem served_start (config : RtbhConfig) (lim : Bool) :
    Served config (.start config lim) :=
  ⟨standing_start config lim, ledger_empty config, trivial⟩

theorem Standing.mitigable {s : Sys} (h : Standing config s)
    (t : IpAddr) : s.mgr.controller.mitigable t
      = (RtbhController.new config).mitigable t :=
  RtbhController.mitigable_congr h.sound.policy t

/-- Serving one request: its target may change hands, no other does. -/
theorem Served.applyRequest (env : Outcomes Call)
    (disp : IpAddr → String) {req : RtbhRequestRow}
    {rest : List RtbhRequestRow} (mono wall : Nat) (h : Served config k)
    (hq : Queued (req :: rest) k.requests) :
    Served config (applyRequest env disp req rest mono wall k)
      ∧ (applyRequest env disp req rest mono wall k).requests
        = k.requests
      ∧ ∀ t, t ≠ req.target →
        (ManuallyActive (applyRequest env disp req rest mono wall k).sys t
          ↔ ManuallyActive k.sys t) := by
  unfold Rtbh.applyRequest
  cases hact : req.action with
  | add =>
      obtain ⟨hst, hout⟩ := h.standing.applyAdd env req.target mono
        wall
      simp only
      generalize applyAdd env req.target mono wall k.sys = r at hst hout
      obtain ⟨out, s'⟩ := r
      rcases hout with ⟨hout, ho⟩ | ⟨hout, hnone, ho, hrej⟩
      · simp only at hout ho
        subst hout
        have hman : ManuallyActive s' req.target := by
          rw [ManuallyActive, ho, Function.update_self]
        refine ⟨⟨hst, h.ledger, hq, Or.inl ⟨rfl, rfl, ?_, fun _ => ?_⟩⟩,
          rfl, fun t ht => ?_⟩
        · exact iff_of_true hman hact
        · exact hst.sound.active (by rw [hman]; simp)
        · simp only [ManuallyActive, ho, Function.update_of_ne ht]
      · simp only at hst ho
        have hsame : ∀ t, ManuallyActive s' t ↔ ManuallyActive k.sys t :=
          fun t => by rw [ManuallyActive, ho]; rfl
        have hoff : ¬ ManuallyActive s' req.target := by
          rw [ManuallyActive, ho, hnone]
          simp
        cases out with
        | applied => exact absurd rfl hout
        | deferred =>
            exact ⟨⟨hst, h.ledger, hq.tail⟩, rfl, fun t _ => hsame t⟩
        | rejected reason =>
            refine ⟨⟨hst, h.ledger, hq, Or.inr ⟨rfl, hact, hoff, ?_⟩⟩,
              rfl, fun t _ => hsame t⟩
            show s'.mgr.controller.mitigable req.target = false
            rw [hst.mitigable, ← h.standing.mitigable]
            exact hrej reason rfl
  | remove =>
      obtain ⟨hst, ho⟩ := h.standing.applyRemove env req.target mono
        wall
      refine ⟨⟨hst, h.ledger, hq, hact, ?_⟩, rfl, fun t ht => ?_⟩
      · show ¬ ManuallyActive _ _
        rw [ManuallyActive, ho, Function.update_self]
        simp
      · simp only [ManuallyActive, ho, Function.update_of_ne ht]

/-- A verdict is one the table may record. -/
theorem Served.marked {req : RtbhRequestRow} {status : RequestStatus}
    {note : Option String} (h : Served config k)
    (hreq : req ∈ k.requests.rows) (hv : Verdict k.sys req status note) :
    Ledger config (setRequestStatus req.id status note k.requests) := by
  refine h.ledger.update fun r hr hp => ?_
  have heq : r = req := Requests.eq_of_id hr hreq (by simpa using hp)
  subst heq
  rcases hv with ⟨rfl, rfl, -, hmit⟩ | ⟨rfl, hadd, -, -⟩
  · refine ⟨fun _ hn => absurd rfl hn, fun hst => by simp at hst,
      fun _ _ ha => ?_⟩
    rw [← h.standing.mitigable]
    exact hmit ha
  · exact ⟨fun hst => by simp at hst, fun _ => hadd,
      fun hst => by simp at hst⟩

/-- Every move keeps the books. -/
theorem Served.step (env : Outcomes Call) (disp : IpAddr → String)
    (h : Served config k) (mv : Move) :
    Served config (k.step env disp mv) := by
  obtain ⟨s, tbl, ph⟩ := k
  obtain ⟨hst, hled, hph⟩ := h
  simp only at hst hled hph
  cases mv with
  | enqueue t a =>
      refine ⟨hst, hled.enqueue t a, ?_⟩
      show ph.Ok s (enqueueRequest t a tbl)
      cases ph with
      | idle => trivial
      | serving rest => exact Queued.enqueue hph t a
      | superseding req rest => exact ⟨hph.1.enqueue t a, hph.2⟩
      | marking req status note rest => exact ⟨hph.1.enqueue t a, hph.2⟩
  | event ev mono wall =>
      cases ph with
      | idle => exact ⟨(hst.applyEvent env ev mono wall).1, hled, trivial⟩
      | serving rest => exact ⟨hst, hled, hph⟩
      | superseding req rest => exact ⟨hst, hled, hph⟩
      | marking req status note rest => exact ⟨hst, hled, hph⟩
  | tick ord mono wall readOk =>
      cases ph with
      | idle =>
          refine ⟨(hst.tick env ord mono wall).1, hled, ?_⟩
          cases readOk with
          | true => exact queued_snapshot tbl
          | false => trivial
      | serving rest => exact ⟨hst, hled, hph⟩
      | superseding req rest => exact ⟨hst, hled, hph⟩
      | marking req status note rest => exact ⟨hst, hled, hph⟩
  | advance mono wall writeOk =>
      cases ph with
      | idle => exact ⟨hst, hled, hph⟩
      | serving rest =>
          cases rest with
          | nil => exact ⟨hst, hled, trivial⟩
          | cons req rest =>
              have hq : Queued (req :: rest) tbl := hph
              exact (Served.applyRequest env disp mono wall
                (k := ⟨s, tbl, .serving (req :: rest)⟩)
                ⟨hst, hled, hph⟩ hq).1
      | superseding req rest =>
          obtain ⟨hq, hact, hoff⟩ := hph
          have hverdict : Verdict s req .applied none := by
            refine Or.inl ⟨rfl, rfl, ?_, fun ha => ?_⟩
            · exact iff_of_false hoff (by simp [hact])
            · rw [hact] at ha
              cases ha
          cases writeOk with
          | true =>
              exact ⟨hst, hled.supersede hq.head.1 hact, hq.supersede,
                hverdict⟩
          | false => exact ⟨hst, hled, hq, hverdict⟩
      | marking req status note rest =>
          obtain ⟨hq, hv⟩ := hph
          cases writeOk with
          | true =>
              exact ⟨hst,
                Served.marked ⟨hst, hled, hq, hv⟩ hq.head.1 hv,
                hq.marked status note⟩
          | false => exact ⟨hst, hled, hq.tail⟩

-- ==================================================== one move's effect

/-- A move leaves target `t` alone, or with a request pending, or neither
blackholed nor wanted. -/
def Spares (t : IpAddr) (k k' : Task) : Prop :=
  Awaits t k'.requests
    ∨ (k'.requests.about t = k.requests.about t
      ∧ (ManuallyActive k'.sys t ↔ ManuallyActive k.sys t))
    ∨ (¬ ManuallyActive k'.sys t
      ∧ (¬ Awaits t k'.requests → ¬ NewestIs .add t k'.requests))

/-- A target a move spares stays in agreement. -/
theorem Spares.agrees {t : IpAddr} {k' : Task} (hk : Spares t k k')
    (h : LastIntentHolds k) (hidle : ¬ Awaits t k'.requests) :
    ManuallyActive k'.sys t ↔ NewestIs .add t k'.requests := by
  rcases hk with hw | ⟨hrows, hman⟩ | ⟨hoff, hnone⟩
  · exact absurd hw hidle
  · have ht := h t
    unfold Awaits NewestIs at ht
    unfold Awaits at hidle
    unfold NewestIs
    rw [hrows] at hidle ⊢
    rw [hman]
    exact ht hidle
  · exact iff_of_false hoff (hnone hidle)

theorem Spares.of_requests {k' : Task} (t : IpAddr)
    (htbl : k'.requests = k.requests)
    (hman : ManuallyActive k'.sys t ↔ ManuallyActive k.sys t) :
    Spares t k k' :=
  Or.inr (Or.inl ⟨by rw [htbl], hman⟩)

/-- A request the task holds keeps its target waiting. -/
theorem Queued.awaits {req : RtbhRequestRow} {rest : List RtbhRequestRow}
    {tbl : Requests} (h : Queued (req :: rest) tbl) :
    Awaits req.target tbl :=
  ⟨req, Requests.mem_about.mpr ⟨h.head.1, rfl⟩, h.head.2⟩

theorem about_marked_other {req : RtbhRequestRow} {tbl : Requests}
    (status : RequestStatus) (note : Option String) {t : IpAddr}
    (hreq : req ∈ tbl.rows) (ht : t ≠ req.target) :
    (setRequestStatus req.id status note tbl).about t = tbl.about t := by
  refine Requests.about_update_other _ _ fun r hr hp => ?_
  rw [Requests.eq_of_id hr hreq (by simpa using hp)]
  exact ht.symm

theorem spares_enqueue (t t' : IpAddr) (a : RequestAction) :
    Spares t k { k with requests := enqueueRequest t' a k.requests } := by
  by_cases ht : t' = t
  · refine Or.inl ⟨_, Requests.mem_about.mpr
      ⟨List.mem_append_right _ List.mem_cons_self, ht⟩, rfl⟩
  · exact Or.inr (Or.inl
      ⟨Requests.about_enqueue_other a k.requests ht, Iff.rfl⟩)

/-- Serving a request and superseding for one both leave it pending. -/
theorem spares_held {req : RtbhRequestRow}
    {rest : List RtbhRequestRow} {k' : Task} (t : IpAddr)
    (hq : Queued (req :: rest) k'.requests)
    (hother : t ≠ req.target →
      k'.requests.about t = k.requests.about t
        ∧ (ManuallyActive k'.sys t ↔ ManuallyActive k.sys t)) :
    Spares t k k' := by
  by_cases ht : t = req.target
  · subst ht
    exact Or.inl hq.awaits
  · exact Or.inr (Or.inl (hother ht))

/-- A move that marks nothing applied spares every target. -/
theorem Served.spares (env : Outcomes Call) (disp : IpAddr → String)
    (h : Served config k) {mv : Move} (hm : mv.marks k.phase = none)
    (t : IpAddr) : Spares t k (k.step env disp mv) := by
  have hledger := (h.step env disp mv).ledger
  obtain ⟨s, tbl, ph⟩ := k
  obtain ⟨hst, hled, hph⟩ := h
  simp only at hst hled hph hm
  cases mv with
  | enqueue t' a => exact spares_enqueue t t' a
  | event ev mono wall =>
      cases ph with
      | idle =>
          exact .of_requests t rfl ((hst.applyEvent env ev mono wall).2 t)
      | serving rest => exact .of_requests t rfl Iff.rfl
      | superseding req rest => exact .of_requests t rfl Iff.rfl
      | marking req status note rest => exact .of_requests t rfl Iff.rfl
  | tick ord mono wall readOk =>
      cases ph with
      | idle => exact .of_requests t rfl ((hst.tick env ord mono wall).2 t)
      | serving rest => exact .of_requests t rfl Iff.rfl
      | superseding req rest => exact .of_requests t rfl Iff.rfl
      | marking req status note rest => exact .of_requests t rfl Iff.rfl
  | advance mono wall writeOk =>
      cases ph with
      | idle => exact .of_requests t rfl Iff.rfl
      | serving rest =>
          cases rest with
          | nil => exact .of_requests t rfl Iff.rfl
          | cons req rest =>
              have hq : Queued (req :: rest) tbl := hph
              obtain ⟨-, htbl, hman⟩ := Served.applyRequest env disp mono
                wall (k := ⟨s, tbl, .serving (req :: rest)⟩)
                ⟨hst, hled, hph⟩ hq
              have hq' : Queued (req :: rest) (Rtbh.applyRequest env disp
                  req rest mono wall
                  ⟨s, tbl, .serving (req :: rest)⟩).requests :=
                htbl.symm ▸ hq
              exact spares_held t hq'
                fun ht => ⟨congrArg _ htbl, hman t ht⟩
      | superseding req rest =>
          obtain ⟨hq, -, -⟩ := hph
          cases writeOk with
          | false => exact .of_requests t rfl Iff.rfl
          | true =>
              refine spares_held t hq.supersede fun ht =>
                ⟨?_, Iff.rfl⟩
              refine Requests.about_update_other _ _ fun r _ hp => ?_
              simp only [Bool.and_eq_true, decide_eq_true_eq] at hp
              rw [hp.1.1.2]
              exact Ne.symm ht
      | marking req status note rest =>
          obtain ⟨hq, hv⟩ := hph
          cases writeOk with
          | false => exact .of_requests t rfl Iff.rfl
          | true =>
              rcases hv with ⟨rfl, -⟩ | ⟨rfl, -, hoff, hmit⟩
              · cases hm
              -- a rejected add: its target is kept out by the policy
              by_cases ht : t = req.target
              · subst ht
                refine Or.inr (Or.inr ⟨hoff, hledger.no_add ?_⟩)
                rw [← hst.mitigable]
                exact hmit
              · exact Or.inr (Or.inl
                  ⟨about_marked_other .rejected note hq.head.1 ht,
                    Iff.rfl⟩)

/-- Marking a request applied, the one move the condition is about. -/
theorem lastIntent_applied {req : RtbhRequestRow}
    {rest : List RtbhRequestRow} {note : Option String} {k' : Task}
    (hi : LastIntentHolds k) (hq : Queued (req :: rest) k.requests)
    (hman : ManuallyActive k.sys req.target ↔ req.action = .add)
    (hsys : k'.sys = k.sys)
    (htbl : k'.requests
      = setRequestStatus req.id .applied note k.requests) :
    LastIntentHolds k' ↔ NewestIs req.action req.target k.requests
      ∨ ∃ r ∈ k.requests.about req.target,
          r.status = .pending ∧ r.id ≠ req.id := by
  obtain ⟨hreq, hpend⟩ := hq.head
  have hnew := newest_is_iff (Requests.mem_about.mpr ⟨hreq, rfl⟩)
    (by simp [hpend]) req.action
  have hwait := awaits_marked k.requests req.target req.id note
    (by simp : RequestStatus.applied ≠ .pending)
  -- at the request's own target, the agreement is the condition
  have hown : (¬ Awaits req.target k'.requests →
        (ManuallyActive k'.sys req.target
          ↔ NewestIs .add req.target k'.requests))
      ↔ (¬ (∃ r ∈ k.requests.about req.target,
          r.status = .pending ∧ r.id ≠ req.id) →
        NewestIs req.action req.target k.requests) := by
    rw [htbl, hsys, hwait, newest_marked hreq hpend note, hman, hnew]
  constructor
  · intro h
    exact Classical.or_iff_not_imp_right.mpr (hown.mp (h req.target))
  · intro h t hidle
    by_cases ht : t = req.target
    · subst ht
      exact hown.mpr (Classical.or_iff_not_imp_right.mp h) hidle
    · have hrows : k'.requests.about t = k.requests.about t := by
        rw [htbl]
        exact about_marked_other .applied note hreq ht
      exact Spares.agrees (Or.inr (Or.inl ⟨hrows, by rw [hsys]⟩)) hi hidle

/-- A move that marks a request applied is the status write of it. -/
theorem Move.marks_eq_some {mv : Move} {ph : Phase}
    {req : RtbhRequestRow} (h : mv.marks ph = some req) :
    ∃ mono wall note rest, mv = .advance mono wall true
      ∧ ph = .marking req .applied note rest := by
  unfold Move.marks at h
  split at h
  · cases h
    exact ⟨_, _, _, _, rfl, rfl⟩
  · cases h

/-- A move keeps the agreement exactly when it meets the condition. -/
theorem Served.lastIntent_step (env : Outcomes Call)
    (disp : IpAddr → String) (h : Served config k)
    (hi : LastIntentHolds k) (mv : Move) :
    LastIntentHolds (k.step env disp mv) ↔ mv.ok k := by
  cases hm : mv.marks k.phase with
  | none =>
      refine iff_of_true (fun t => ?_) fun req hreq => ?_
      · exact (h.spares env disp hm t).agrees hi
      · rw [hm] at hreq
        cases hreq
  | some req =>
      obtain ⟨mono, wall, note, rest, rfl, hph⟩ := Move.marks_eq_some hm
      have hok := h.phase
      rw [hph] at hok
      obtain ⟨hq, ⟨-, -, hman, -⟩ | ⟨hst, -⟩⟩ := hok
      · have hstep : k.step env disp (.advance mono wall true)
            = { k with
                requests := setRequestStatus req.id .applied note k.requests
                phase := .serving rest } := by
          simp only [Task.step, advance, hph]
          rfl
        rw [hstep]
        refine Iff.trans (lastIntent_applied hi hq hman rfl rfl) ?_
        simp [Move.ok, hm]
      · cases hst

end Steps

-- ======================================================= the last request

theorem lastIntent_start (config : RtbhConfig) (lim : Bool) :
    LastIntentHolds (.start config lim) := by
  intro t _
  refine iff_of_false (by simp [ManuallyActive, Task.start, start,
    RtbhManager.new]) ?_
  rintro ⟨r, hr, -⟩
  cases hr

/-- In every state of a run the last operator request wins, exactly when
no write of the run marks a request applied against a newer one with
nothing else pending for the target. -/
theorem last_intent_wins_iff (env : Outcomes Call)
    (disp : IpAddr → String) (config : RtbhConfig) (lim : Bool)
    (moves : List Move) :
    (∀ n, LastIntentHolds
        (run (Task.step env disp) (.start config lim) (moves.take n)))
      ↔ Guarded (Task.step env disp) Move.ok (.start config lim)
        moves := by
  have hbooks : ∀ n, Served config
      (run (Task.step env disp) (.start config lim) (moves.take n)) :=
    fun n => run_invariant (fun _ mv h => h.step env disp mv) _
      (served_start config lim)
  calc (∀ n, LastIntentHolds
        (run (Task.step env disp) (.start config lim) (moves.take n)))
    _ ↔ ∀ n, Served config
          (run (Task.step env disp) (.start config lim) (moves.take n))
        ∧ LastIntentHolds
          (run (Task.step env disp) (.start config lim) (moves.take n)) :=
      forall_congr' fun n => (and_iff_right (hbooks n)).symm
    _ ↔ _ := run_take_iff
      (P := fun k => Served config k ∧ LastIntentHolds k) moves
      (fun k mv _ h => (and_iff_right (h.1.step env disp mv)).trans
        (h.1.lastIntent_step env disp h.2 mv))
      ⟨served_start config lim, lastIntent_start config lim⟩

/-- A remove and a newer add in one snapshot; the remove's status write
fails, and the next tick applies it again. -/
def failedMarkRun : Task :=
  run (Task.step (fun _ _ => true) (fun _ => ""))
    (.start sampleConfig false)
    [.enqueue sampleTarget .remove, .enqueue sampleTarget .add,
      .tick (.stored _) 0 0 true,
      .advance 1 1 true, .advance 1 1 true, .advance 1 1 false,
      .advance 2 2 true, .advance 2 2 true, .advance 2 2 true,
      .tick (.stored _) 3 3 true,
      .advance 3 3 true, .advance 3 3 true, .advance 3 3 true]

theorem replayed_remove_beats_newer_add :
    ¬ LastIntentHolds failedMarkRun := by
  intro h
  have hidle : ¬ Awaits sampleTarget failedMarkRun.requests := by
    decide +kernel
  have hoff : ¬ ManuallyActive failedMarkRun.sys sampleTarget := by
    decide +kernel
  have hadd : NewestIs .add sampleTarget failedMarkRun.requests := by
    decide +kernel
  exact hoff ((h sampleTarget hidle).mpr hadd)

end Blackwall.Rtbh
