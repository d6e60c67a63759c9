/-
The FlowSpec journal against the active rules, rates included.

As for blackholes (`Rtbh.Proofs.Mirror`), the table and the queue are a
write-behind store, and what breaks it is a direct write that overtakes a
queued one: the tick then replays the older write. A FlowSpec row also
carries the rate, so an announce overtaking a queued ANNOUNCE of another
rate is enough (`stale_rate_replayed`), and a failed auto announce also
has to agree with the row about who owns the rule. `writeOk` is the
condition, `flowspec_mirror_converges` the result under it.

Rates are compared as numbers: the upgrade path journals the operator's
rule, whose rate may be the other zero. A row is found by its key
columns, which drop the prefix length, so the argument is about host
keys, where the columns determine the key.
-/
import Blackwall.FlowSpec.Proofs.Manager

namespace Blackwall.FlowSpec

open Base
open Base.Mirror (Settled Fits)
open Base.Mirror.Queue (Carries Synced failures)
open Bgp (FlowSpecRule)
open Rtbh (BlackholeOrigin)
open State (FlowSpecValue mergeOrigin)
open FlowSpecController (Hands)

-- ==================================================== the mirror as a store

/-- A host key: the row's columns determine it. -/
def IsHost (k : FlowKey) : Prop := k.1 = hostPrefix k.1.addr

instance (k : FlowKey) : Decidable (IsHost k) :=
  inferInstanceAs (Decidable (_ = _))

/-- The rate of a rule, as a number. -/
def rateOf (r : FlowSpecRule) : F32 := r.action.rate.number

/-- What a mirror write does to its key's active row. -/
def MirrorOp.act : MirrorOp → Option FlowSpecValue → Option FlowSpecValue
  | .announce r o _, row =>
      some ⟨rateOf r, row.elim o fun v => mergeOrigin v.origin o⟩
  | .withdraw .., _ => none

/-- The active rows of the table by host key, rates as numbers. -/
def activeRows (tbl : State.FlowSpecRules) (k : FlowKey) :
    Option FlowSpecValue :=
  if IsHost k then
    (tbl.active (k.1.addr, k.2)).map fun v => ⟨v.rate.number, v.origin⟩
  else none

/-- A mirror write of a host rule. -/
def MirrorOp.IsHostOp (op : MirrorOp) : Prop := IsHost op.key

/-- On host keys the key columns are the key. -/
theorem columns_eq_iff {k : FlowKey} {r : FlowSpecRule} (hk : IsHost k)
    (hr : IsHost (keyOf r)) :
    (k.1.addr, k.2) = (State.flattenFlowspec r).1 ↔ k = keyOf r := by
  constructor
  · intro h
    obtain ⟨haddr, hrest⟩ := Prod.mk.inj h
    refine Prod.ext ?_ hrest
    rw [show k.1 = hostPrefix k.1.addr from hk, haddr]
    exact (show (keyOf r).1 = hostPrefix (keyOf r).1.addr from hr).symm
  · rintro rfl
    rfl

theorem activeRows_record {r : FlowSpecRule} (hr : IsHost (keyOf r))
    (o : BlackholeOrigin) (atMs : Nat) (tbl : State.FlowSpecRules)
    (k : FlowKey) :
    activeRows (State.recordFlowspec (State.flattenFlowspec r).1
        (State.flattenFlowspec r).2 o atMs tbl) k
      = if k = keyOf r then
          MirrorOp.act (.announce r o atMs) (activeRows tbl (keyOf r))
        else activeRows tbl k := by
  by_cases hk : IsHost k
  · by_cases he : k = keyOf r
    · have hcol := (columns_eq_iff hk hr).mpr he
      rw [if_pos he, ← he, activeRows, activeRows, if_pos hk, if_pos hk,
        State.recordFlowspec, Rows.active_upsert, if_pos hcol, hcol]
      cases tbl.active (State.flattenFlowspec r).1 <;> rfl
    · rw [if_neg he, activeRows, activeRows, if_pos hk, if_pos hk,
        State.recordFlowspec, Rows.active_upsert,
        if_neg (mt (columns_eq_iff hk hr).mp he)]
  · have hne : k ≠ keyOf r := by
      rintro rfl
      exact hk hr
    rw [if_neg hne, activeRows, activeRows, if_neg hk, if_neg hk]

theorem activeRows_clear {r : FlowSpecRule} (hr : IsHost (keyOf r))
    (atMs : Nat) (tbl : State.FlowSpecRules) (k : FlowKey) :
    activeRows (State.clearFlowspec (State.flattenFlowspec r).1 atMs false
        tbl) k
      = if k = keyOf r then none else activeRows tbl k := by
  have hclear : State.clearFlowspec (State.flattenFlowspec r).1 atMs false
      tbl = tbl.close (fun _ => true) (State.flattenFlowspec r).1
        (min atMs State.i64Max) := rfl
  by_cases hk : IsHost k
  · rw [activeRows, activeRows, if_pos hk, if_pos hk, hclear,
      Rows.active_close]
    by_cases he : k = keyOf r
    · rw [if_pos he, if_pos ((columns_eq_iff hk hr).mpr he)]
      rfl
    · rw [if_neg he, if_neg (mt (columns_eq_iff hk hr).mp he)]
  · have hne : k ≠ keyOf r := by
      rintro rfl
      exact hk hr
    rw [if_neg hne, activeRows, activeRows, if_neg hk, if_neg hk]

theorem mirror_carries : Carries FlowSpecManager.mirrorQueue MirrorOp.act
    tableStep activeRows MirrorOp.IsHostOp := by
  refine ⟨fun tbl op hop => ?_, fun tbl op => ?_⟩
  · funext k
    rw [Mirror.apply, Function.update_apply]
    cases op with
    | announce r o atMs => exact activeRows_record hop o atMs tbl k
    | withdraw r atMs => exact activeRows_clear hop atMs tbl k
  · cases op <;> rfl

/-- The active rows and the queue. -/
abbrev store (s : Sys) : Mirror.Store FlowKey MirrorOp FlowSpecValue :=
  FlowSpecManager.mirrorQueue.store tableStep .empty activeRows s

/-- The table and the queue settle to `want`. -/
def Heals (want : FlowKey → Option FlowSpecValue) (s : Sys) : Prop :=
  Synced FlowSpecManager.mirrorQueue MirrorOp.act tableStep .empty
    activeRows MirrorOp.IsHostOp [] want s

/-- The rate and origin a controller holds under a key. -/
def FlowSpecController.value (c : FlowSpecController) (k : FlowKey) :
    Option FlowSpecValue :=
  (c.held k).map fun x => ⟨rateOf x.rule, x.origin⟩

-- ======================================================== the write guard

/-- What a write leaves in the row besides its origin: the rate of an
announce, nothing of a withdraw. -/
def MirrorOp.content : MirrorOp → Option F32
  | .announce r _ _ => some (rateOf r)
  | .withdraw .. => none

/-- Is the active row of a key manual? -/
def rowIsManual (s : Sys) (k : FlowKey) : Bool :=
  decide ((activeRows (table s) k).map (·.origin) = some .manual)

/-- The direct journal write `w`, about to be made in `s`, leaves its
key's row settling to what the controller holds: succeeding, it does not
overtake a queued write of other content; failing, an auto announce finds
row and controller agreed on whether the rule is manual. -/
def writeOk (env : Outcomes Call) (w : MirrorOp) (s : Sys) : Bool :=
  if s.outcome env w.call then
    s.mgr.pendingMirror.all fun q =>
      decide (q.key ≠ w.key) || decide (q.content = w.content)
  else
    match w with
    | .announce r .auto _ => rowIsManual s (keyOf r)
        == decide (s.mgr.controller.originAt (keyOf r) = some .manual)
    | _ => true

/-- `writeOk` of the write that ends an announce, if it gets that far. -/
def announceOk (env : Outcomes Call) (r : FlowSpecRule)
    (o : BlackholeOrigin) (mono wall : Nat) (s : Sys) : Bool :=
  match announceOnBgp env r mono s with
  | (.applied, s') => writeOk env (.announce r o wall) s'
  | _ => true

/-- `writeOk` of the write that ends a controller action. -/
def actionOk (env : Outcomes Call) (mono wall : Nat) (s : Sys)
    (action : FlowSpecAction) : Bool :=
  match action with
  | .announce r => announceOk env r .auto mono wall s
  | .withdraw r =>
      !s.outcome env (.withdrawFlowspec r) ||
        writeOk env (.withdraw r wall) (s.call env (.withdrawFlowspec r))

/-- The same along the loop over a controller's actions. -/
def actionsOk (env : Outcomes Call) (mono wall : Nat) (s : Sys)
    (r : List FlowSpecAction × FlowSpecController) : Bool :=
  decide (Guarded (executeAndJournal env mono wall)
    (fun s a => actionOk env mono wall s a = true)
    (s.update (.setController r.2)) r.1)

/-- `writeOk` of every direct journal write of one entry point, each in
the state it is made in. -/
def opOk (env : Outcomes Call) (s : Sys) (op : Op) : Bool :=
  match op with
  | .applyOpen target rules mono wall =>
      let tuples := rules.map fun r => (r.proto, r.dstPort, r.rate)
      actionsOk env mono wall s
        (s.mgr.controller.install target tuples mono)
  | .applyClear ord target mono wall =>
      actionsOk env mono wall s
        (s.mgr.controller.clearTarget ord target mono)
  | .applyRemove r mono wall =>
      actionsOk env mono wall s (s.mgr.controller.manualRemove r)
  | .tick ord mono wall =>
      let s := retryPendingReapply env (retryPendingMirror env s)
      actionsOk env mono wall s (s.mgr.controller.tick ord mono)
  | .applyAdd r mono wall =>
      let (actions, c) := s.mgr.controller.manualAdd r mono
      let s := s.update (.setController c)
      match actions.head? with
      | some (.announce r') => announceOk env r' .manual mono wall s
      | _ => !s.mgr.isActive (keyOf r)
          || writeOk env (.announce r .manual wall) s
  | .applyUpdated .. | .disarm _ => true

-- ========================================================== fitting writes

section Fits

variable {env : Outcomes Call} {s : Sys}
  {want : FlowKey → Option FlowSpecValue}

/-- A guarded write finds nothing queued for its key, or a write of its
own content. -/
theorem queued_of_writeOk {w q : MirrorOp}
    (hok : writeOk env w s = true) (hout : s.outcome env w.call = true)
    (hq : Mirror.queued MirrorOp.key s.mgr.pendingMirror w.key = some q) :
    q.content = w.content := by
  obtain ⟨hmem, hkey⟩ := Mirror.queued_some MirrorOp.key hq
  unfold writeOk at hok
  rw [if_pos hout, List.all_eq_true] at hok
  simpa [hkey] using hok q hmem

theorem fits_withdraw {r : FlowSpecRule} {atMs : Nat}
    (hok : writeOk env (.withdraw r atMs) s = true) :
    Fits MirrorOp.key MirrorOp.act (store s)
      (s.outcome env (MirrorOp.withdraw r atMs).call)
      (.withdraw r atMs) none := by
  unfold Fits
  split
  · next q hout hq =>
    have hcont := queued_of_writeOk hok hout hq
    cases q with
    | announce => cases hcont
    | withdraw => rfl
  · rfl

/-- An announce as manual, fresh or not. -/
theorem fits_manual {r : FlowSpecRule} {atMs : Nat}
    (hok : writeOk env (.announce r .manual atMs) s = true) :
    Fits MirrorOp.key MirrorOp.act (store s)
      (s.outcome env (MirrorOp.announce r .manual atMs).call)
      (.announce r .manual atMs) (some ⟨rateOf r, .manual⟩) := by
  have hact : ∀ row, MirrorOp.act (.announce r .manual atMs) row
      = some ⟨rateOf r, .manual⟩ := by
    intro row
    cases row <;> simp [MirrorOp.act]
  unfold Fits
  split
  · next q hout hq =>
    have hcont := queued_of_writeOk hok hout hq
    cases q with
    | withdraw => cases hcont
    | announce r' o' atMs' =>
        rw [hact]
        simp only [MirrorOp.content, Option.some.injEq] at hcont
        simp [MirrorOp.act, hcont]
  · exact hact _

/-- An announce as auto: the row keeps its owner. -/
theorem fits_auto {r : FlowSpecRule} {atMs : Nat}
    (hs : Settled MirrorOp.key MirrorOp.act (store s) want)
    (horig : s.mgr.controller.originAt (keyOf r)
      = some (((want (keyOf r)).map (·.origin)).getD .auto))
    (hok : writeOk env (.announce r .auto atMs) s = true) :
    Fits MirrorOp.key MirrorOp.act (store s)
      (s.outcome env (MirrorOp.announce r .auto atMs).call)
      (.announce r .auto atMs)
      (some ⟨rateOf r, ((want (keyOf r)).map (·.origin)).getD .auto⟩) := by
  have hact : ∀ row, MirrorOp.act (.announce r .auto atMs) row
      = some ⟨rateOf r, (row.map (·.origin)).getD .auto⟩ := by
    intro row
    cases row <;> simp [MirrorOp.act]
  have hrow := hs (keyOf r)
  unfold Mirror.settledRow at hrow
  unfold Fits
  split
  · next q hout hq =>
    have hcont := queued_of_writeOk hok hout hq
    cases q with
    | withdraw => cases hcont
    | announce r' o' atMs' =>
        -- replaying the queued announce brings back the owner it settled to
        replace hq : Mirror.queued MirrorOp.key (store s).pending (keyOf r)
          = some (.announce r' o' atMs') := hq
        rw [hq] at hrow
        simp only [MirrorOp.content, Option.some.injEq] at hcont
        rw [hact, ← hrow]
        change _ = some (FlowSpecValue.mk (rateOf r) _)
        cases hr : (store s).rows (keyOf r) with
        | none =>
            simp [MirrorOp.act, hcont, MirrorOp.key, MirrorOp.rule, hr]
        | some v =>
            simp [MirrorOp.act, hcont, MirrorOp.key, MirrorOp.rule, hr]
  · next hcases =>
    rw [hact]
    cases hout : s.outcome env (MirrorOp.announce r .auto atMs).call with
    | true =>
        -- nothing is queued: the row is what is wanted
        cases hq : Mirror.queued MirrorOp.key (store s).pending
            (keyOf r) with
        | none =>
            rw [hq] at hrow
            rw [← hrow]
            rfl
        | some q => exact absurd hq (hcases q hout)
    | false =>
        rw [writeOk, hout] at hok
        simp only [Bool.false_eq_true, if_false, rowIsManual, horig,
          beq_iff_eq, decide_eq_decide] at hok
        change (((store s).rows (keyOf r)).map (·.origin) = some .manual
          ↔ _) at hok
        congr 2
        change (((store s).rows (keyOf r)).map (·.origin)).getD .auto = _
        generalize ((want (keyOf r)).map (·.origin)).getD .auto = o at hok ⊢
        cases hr : ((store s).rows (keyOf r)).map (·.origin) with
        | none =>
            rw [hr] at hok
            cases o with
            | auto => rfl
            | manual => cases hok.mpr rfl
        | some o' =>
            rw [hr, Option.some.injEq, Option.some.injEq] at hok
            cases o' <;> cases o <;> simp_all

end Fits

-- =========================================================== the invariant

/-- The journal settles to the active rules, up to the actions `acts`
still to be executed: an announced key wants its old row with the new
rate, a withdrawn key is gone. -/
structure Mirrored (acts : List FlowSpecAction) (s : Sys) : Prop where
  armed : s.mgr.disarmed = false
  keyed : s.mgr.controller.Keyed
  idle : s.mgr.pendingReapply = []
  nodup : (acts.map FlowSpecAction.key).Nodup
  hosts : ∀ k, s.mgr.controller.held k ≠ none → IsHost k
  actHosts : ∀ a ∈ acts, IsHost a.key
  settled : ∃ want, Heals want s
    ∧ (∀ k, k ∉ acts.map FlowSpecAction.key →
      want k = s.mgr.controller.value k)
    ∧ (∀ r, .announce r ∈ acts → ∃ p, s.mgr.controller.held (keyOf r)
      = some ⟨r, ((want (keyOf r)).map (·.origin)).getD .auto, p⟩)
    ∧ ∀ r, .withdraw r ∈ acts → s.mgr.controller.held (keyOf r) = none

theorem mirrored_start (config : FlowSpecConfig) (lim : Bool) :
    Mirrored [] (start config lim) := by
  refine ⟨rfl, FlowSpecController.keyed_new config, rfl, List.nodup_nil,
    fun k hk => absurd rfl hk, fun _ ha => absurd ha List.not_mem_nil,
    fun _ => none, ⟨?_, List.nodup_nil, fun k => ?_⟩, fun _ _ => rfl,
    fun r hr => absurd hr List.not_mem_nil,
    fun r hr => absurd hr List.not_mem_nil⟩
  · intro w hw
    exact absurd hw List.not_mem_nil
  · change activeRows _ k = none
    unfold activeRows
    split <;> rfl

/-- With no action left, what is wanted is what the controller holds. -/
theorem Mirrored.heals {s : Sys} (h : Mirrored [] s) :
    Heals s.mgr.controller.value s := by
  obtain ⟨want, hheal, hwant, -⟩ := h.settled
  have heq : want = s.mgr.controller.value :=
    funext fun k => hwant k List.not_mem_nil
  exact heq ▸ hheal

/-- `Mirrored` from its parts, when no action is left. -/
theorem Mirrored.of_heals {s : Sys} (harm : s.mgr.disarmed = false)
    (hkeyed : s.mgr.controller.Keyed) (hidle : s.mgr.pendingReapply = [])
    (hhosts : ∀ k, s.mgr.controller.held k ≠ none → IsHost k)
    (hheal : Heals s.mgr.controller.value s) : Mirrored [] s :=
  ⟨harm, hkeyed, hidle, List.nodup_nil, hhosts,
    fun _ ha => absurd ha List.not_mem_nil, s.mgr.controller.value, hheal,
    fun _ _ => rfl, fun _ hr => absurd hr List.not_mem_nil,
    fun _ hr => absurd hr List.not_mem_nil⟩

theorem Mirrored.handed {acts : List FlowSpecAction}
    {c : FlowSpecController} {s : Sys} (h : Mirrored [] s)
    (hh : Hands (·.getD .auto) s.mgr.controller acts c)
    (hann : ∀ r, .announce r ∈ acts → IsHost (keyOf r)) :
    Mirrored acts (s.update (.setController c)) := by
  have hact : ∀ a ∈ acts, IsHost a.key := by
    intro a ha
    cases a with
    | announce r => exact hann r ha
    | withdraw r =>
        refine h.hosts _ fun hnone => ?_
        have hrule := (hh.withdrawn r ha).2
        change s.mgr.controller.held (keyOf r) = none at hnone
        rw [FlowSpecController.ruleAt, hnone] at hrule
        cases hrule
  refine ⟨h.armed, hh.keyed, h.idle, hh.nodup, fun k hk => ?_, hact,
    s.mgr.controller.value, h.heals.congr rfl rfl, fun k hk => ?_,
    fun r hr => ?_, fun r hr => (hh.withdrawn r hr).1⟩
  · by_cases hmem : k ∈ acts.map FlowSpecAction.key
    · obtain ⟨a, ha, rfl⟩ := List.mem_map.mp hmem
      exact hact a ha
    · exact h.hosts k (hh.other k hmem ▸ hk)
  · change _ = c.value k
    rw [FlowSpecController.value, FlowSpecController.value, hh.other k hk]
  · refine ⟨s.mgr.controller.ruleAt (keyOf r), (hh.announced r hr).trans ?_⟩
    rw [FlowSpecController.originAt, FlowSpecController.value,
      Option.map_map]
    rfl

-- ============================================================ entry points

section Ops

variable {env : Outcomes Call} {s : Sys}

/-- A direct write that fits, after calls the mirror does not see. -/
theorem Heals.written {want : FlowKey → Option FlowSpecValue}
    {w : MirrorOp} {v : Option FlowSpecValue} {s₀ : Sys}
    (h : Heals want s₀) (hhost : w.IsHostOp)
    (hpend : s.mgr.pendingMirror = s₀.mgr.pendingMirror)
    (htbl : table s = table s₀)
    (hfit : Fits MirrorOp.key MirrorOp.act (store s)
      (s.outcome env w.call) w v) :
    Heals (Function.update want w.key v) (mirror env w s) :=
  (h.congr hpend (congrArg activeRows htbl)).write mirror_carries hhost hfit

variable (hbgp : ∀ i c, c.isBgp = true → env i c = true)
variable (hlim : ∀ i c, c.isLimiter = true → env i c = true)

include hbgp hlim in
/-- With an armed manager, no rejection and no BGP failure, an announce
goes out: the manager and the table are as they were. -/
theorem announceOnBgp_applied (r : FlowSpecRule) (now : Nat)
    (harm : s.mgr.disarmed = false) :
    ∃ s', announceOnBgp env r now s = (.applied, s')
      ∧ s'.mgr = s.mgr ∧ table s' = table s := by
  have happ : (announceOnBgp env r now s).1 = .applied := by
    have hann : ∀ s : Sys, s.outcome env (.announceFlowspec r) = true :=
      fun s => hbgp _ _ rfl
    have hacq : s.outcome env (.tryAcquire now) = true := hlim _ _ rfl
    unfold announceOnBgp
    simp [harm, hann, hacq]
  rcases announceOnBgp_cases env r now s with ⟨-, hmgr, -, htbl⟩ | ⟨hne, -⟩
  · exact ⟨_, Prod.ext happ rfl, hmgr, htbl⟩
  · exact absurd happ hne

include hbgp hlim in
theorem Mirrored.executed {a : FlowSpecAction}
    {acts : List FlowSpecAction} {mono wall : Nat}
    (h : Mirrored (a :: acts) s)
    (hok : actionOk env mono wall s a = true) :
    Mirrored acts (executeAndJournal env mono wall a s) := by
  obtain ⟨want, hheal, hwant, hann, hwd⟩ := h.settled
  have hnd := h.nodup
  rw [List.map_cons, List.nodup_cons] at hnd
  have hne : ∀ b ∈ acts, keyOf b.rule ≠ keyOf a.rule := by
    intro b hb he
    exact hnd.1 (List.mem_map.mpr ⟨b, hb, he⟩)
  -- whatever row `v` the write leaves, the other keys are as before
  have hrest : ∀ (v : Option FlowSpecValue) (w : MirrorOp) (s' : Sys),
      s'.mgr = s.mgr → w.key = a.key → v = s.mgr.controller.value a.key →
      Heals (Function.update want w.key v) (mirror env w s') →
      Mirrored acts (mirror env w s') := by
    intro v w s' hmgr hkey hv hheal'
    obtain ⟨hc, hr, hd, -⟩ := mirror_frame env w s'
    rw [hmgr] at hc hr hd
    refine ⟨hd.trans h.armed, hc ▸ h.keyed, hr.trans h.idle, hnd.2,
      hc ▸ h.hosts, fun b hb => h.actHosts b (List.mem_cons_of_mem _ hb),
      _, hheal', fun k hk => ?_, fun r hr' => ?_, fun r hr' => ?_⟩
    · rw [hc, hkey, Function.update_apply]
      split
      · next he => rw [he, hv]
      · next hka =>
        refine hwant k fun hmem => ?_
        rcases List.mem_cons.mp hmem with he | hmem
        · exact hka he
        · exact hk hmem
    · have hka : keyOf r ≠ w.key := hkey ▸ hne _ hr'
      rw [hc, Function.update_of_ne hka]
      exact hann r (List.mem_cons_of_mem _ hr')
    · rw [hc]
      exact hwd r (List.mem_cons_of_mem _ hr')
  cases a with
  | announce r =>
      obtain ⟨s', heq, hmgr, htbl⟩ :=
        announceOnBgp_applied hbgp hlim r mono h.armed
      obtain ⟨p, hheld⟩ := hann r List.mem_cons_self
      simp only [actionOk, announceOk, heq] at hok
      simp only [executeAndJournal, executeAndJournalAnnounce, heq]
      have hpend : s'.mgr.pendingMirror = s.mgr.pendingMirror := by
        rw [hmgr]
      have hset := (hheal.congr hpend
        (congrArg activeRows htbl)).settled_store
      refine hrest _ _ s' hmgr rfl ?_ (hheal.written
        (h.actHosts _ List.mem_cons_self) hpend htbl
        (fits_auto hset ?_ hok))
      · change _ = s.mgr.controller.value (keyOf r)
        rw [FlowSpecController.value, hheld]
        rfl
      · rw [hmgr, FlowSpecController.originAt, hheld]
        rfl
  | withdraw r =>
      have hout : s.outcome env (.withdrawFlowspec r) = true :=
        hbgp _ _ rfl
      simp only [actionOk, hout, Bool.not_true, Bool.false_or] at hok
      simp only [executeAndJournal, hout, if_true]
      refine hrest none _ _ rfl rfl ?_ (hheal.written
        (h.actHosts _ List.mem_cons_self) rfl
        (table_call_other env s rfl) (fits_withdraw hok))
      change _ = s.mgr.controller.value (keyOf r)
      rw [FlowSpecController.value, hwd r List.mem_cons_self]
      rfl

include hbgp hlim in
theorem Mirrored.executeAll {mono wall : Nat} :
    ∀ {acts : List FlowSpecAction} {s : Sys}, Mirrored acts s →
      Guarded (executeAndJournal env mono wall)
        (fun s a => actionOk env mono wall s a = true) s acts →
      Mirrored [] (executeAll env mono wall acts s) := by
  intro acts
  induction acts with
  | nil => intro s h _; exact h
  | cons a acts ih =>
      intro s h hguard
      exact ih (h.executed hbgp hlim hguard.1) hguard.2

theorem Mirrored.retried (h : Mirrored [] s) :
    Mirrored [] (retryPendingReapply env (retryPendingMirror env s)) := by
  obtain ⟨hc, hr, hd, -⟩ := retryPendingMirror_frame env s
  rw [retryPendingReapply_idle env (hr.trans h.idle)]
  refine .of_heals (hd.trans h.armed) (hc ▸ h.keyed) (hr.trans h.idle)
    (hc ▸ h.hosts) ?_
  rw [hc]
  exact h.heals.retryAll mirror_carries

/-- The row of an add: it becomes manual, and its rate the rule's. -/
theorem Mirrored.manual {r : FlowSpecRule} {wall : Nat} {s' : Sys}
    (h : Mirrored [] s) (hhost : IsHost (keyOf r))
    (hdis : s'.mgr.disarmed = s.mgr.disarmed)
    (hre : s'.mgr.pendingReapply = s.mgr.pendingReapply)
    (hpend : s'.mgr.pendingMirror = s.mgr.pendingMirror)
    (htbl : table s' = table s) (hkeyed : s'.mgr.controller.Keyed)
    (hother : ∀ k, k ≠ keyOf r →
      s'.mgr.controller.held k = s.mgr.controller.held k)
    (hown : s'.mgr.controller.value (keyOf r)
      = some ⟨rateOf r, .manual⟩)
    (hok : writeOk env (.announce r .manual wall) s' = true) :
    Mirrored [] (mirror env (.announce r .manual wall) s') := by
  obtain ⟨hc, hr, hd, -⟩ := mirror_frame env (.announce r .manual wall) s'
  have hval : s'.mgr.controller.value
      = Function.update s.mgr.controller.value (keyOf r)
        (some ⟨rateOf r, .manual⟩) := by
    funext k
    rw [Function.update_apply]
    split
    · next he => rw [he, hown]
    · next hne =>
      rw [FlowSpecController.value, FlowSpecController.value,
        hother k hne]
  refine .of_heals ((hd.trans hdis).trans h.armed) (hc ▸ hkeyed)
    ((hr.trans hre).trans h.idle) (fun k hk => ?_) ?_
  · rw [hc] at hk
    by_cases he : k = keyOf r
    · exact he ▸ hhost
    · rw [hother k he] at hk
      exact h.hosts k hk
  · rw [hc, hval]
    exact h.heals.written (w := .announce r .manual wall) hhost hpend
      htbl (fits_manual hok)

include hbgp hlim in
theorem Mirrored.applyAdd {r : FlowSpecRule} {mono wall : Nat}
    (h : Mirrored [] s) (hhost : IsHost (keyOf r))
    (hok : opOk env s (.applyAdd r mono wall) = true) :
    Mirrored [] (applyAdd env r mono wall s).2 := by
  cases applyAdd_adds env r mono wall h.keyed with
  | upgraded x held same acts entry keyed active result =>
      -- the incoming rate is the stored number
      have hrate : rateOf r = rateOf x.rule := by
        refine (F32.number_eq_of_ieeeEq ?_).symm
        simpa [Bgp.FlowAction.differs] using same
      simp only [opOk, acts, List.head?_nil, active, Bool.not_true,
        Bool.false_or] at hok
      rw [result]
      refine h.manual hhost rfl rfl rfl rfl keyed (fun k hk => ?_) ?_ hok
      · rw [entry, Function.update_of_ne hk]
      · rw [FlowSpecController.value, entry, Function.update_self, hrate]
        rfl
  | declined hands out state =>
      rw [state]
      refine .of_heals h.armed hands.keyed h.idle (fun k hk => ?_) ?_
      · exact h.hosts k (hands.other k List.not_mem_nil ▸ hk)
      · have hval : (added r mono s).mgr.controller.value
            = s.mgr.controller.value := by
          funext k
          rw [FlowSpecController.value, FlowSpecController.value,
            hands.other k List.not_mem_nil]
        rw [hval]
        exact h.heals.congr rfl rfl
  | announced x hands acts exec out state =>
      obtain ⟨s', heq, hmgr, htbl⟩ := announceOnBgp_applied hbgp hlim r
        mono (s := added r mono s) h.armed
      simp only [opOk, acts, List.head?_cons, announceOk, heq] at hok
      simp only [executeAndJournalAnnounce, heq] at exec
      rw [state, exec]
      refine h.manual hhost (by rw [hmgr]; rfl) (by rw [hmgr]; rfl)
        (by rw [hmgr]; rfl) htbl (hmgr ▸ hands.keyed) (fun k hk => ?_) ?_
        hok
      · rw [hmgr]
        exact hands.other k fun hmem => hk (List.mem_singleton.mp hmem)
      · rw [hmgr, FlowSpecController.value,
          hands.announced r List.mem_cons_self]
        rfl

include hbgp hlim in
/-- Every entry point of an armed manager keeps the invariant when its
writes are guarded. -/
theorem Mirrored.step {op : Op} (h : Mirrored [] s)
    (harm : op.isArmed = true) (hwf : op.wellFormed = true)
    (hok : opOk env s op = true) : Mirrored [] (step env op s) := by
  have hnone : ∀ {acts : List FlowSpecAction},
      (∀ a ∈ acts, ∃ r, a = .withdraw r) →
      ∀ r, .announce r ∈ acts → IsHost (keyOf r) := by
    intro acts hall r hr
    obtain ⟨r', hr'⟩ := hall _ hr
    cases hr'
  cases op with
  | applyOpen target rules mono wall =>
      have hnd : ((rules.map fun r => (r.proto, r.dstPort, r.rate)).map
          fun r => (r.1, r.2.1)).Nodup := by
        rw [List.map_map]
        exact of_decide_eq_true hwf
      obtain ⟨hh, hkeys⟩ := FlowSpecController.install_hands h.keyed target
        _ mono hnd
      refine (h.handed hh fun r hr => ?_).executeAll hbgp hlim
        (of_decide_eq_true hok)
      have hfst : (keyOf r).1 = hostPrefix target :=
        hkeys _ (List.mem_map.mpr ⟨_, hr, rfl⟩)
      rw [IsHost, hfst, addr_hostPrefix]
  | applyClear ord target mono wall =>
      exact (h.handed (FlowSpecController.clearTarget_hands _ h.keyed ord
        target mono) (hnone
          (FlowSpecController.clearTarget_withdraws _ ord target mono))
        ).executeAll hbgp hlim (of_decide_eq_true hok)
  | applyUpdated target mono =>
      exact h.handed (FlowSpecController.Hands.none h.keyed
        (FlowSpecController.held_refreshTarget _ target mono))
        fun r hr => absurd hr List.not_mem_nil
  | applyAdd r mono wall =>
      refine h.applyAdd hbgp hlim ?_ hok
      simp only [Op.wellFormed, isHostRule, Bool.and_eq_true,
        decide_eq_true_eq] at hwf
      exact hwf.1.1
  | applyRemove r mono wall =>
      exact (h.handed (FlowSpecController.manualRemove_hands _ h.keyed r)
        (hnone (FlowSpecController.removeKey_withdraws (keyOf r) _))
        ).executeAll hbgp hlim (of_decide_eq_true hok)
  | tick ord mono wall =>
      have hr : Mirrored [] (retryPendingReapply env
          (retryPendingMirror env s)) := h.retried
      exact (hr.handed (FlowSpecController.tick_hands _ hr.keyed ord mono)
        (hnone (FlowSpecController.tick_withdraws _ ord mono))
        ).executeAll hbgp hlim (of_decide_eq_true hok)
  | disarm ord => cases harm

end Ops

-- ============================================================= clean ticks

/-- How many journal calls have failed so far. -/
def journalFailures (s : Sys) : Nat := failures Call.isJournal s

/-- A tick without a failing journal call leaves nothing queued. -/
theorem tick_clean {env : Outcomes Call} {s : Sys}
    {ord : IterOrder (Sigma fun _ : FlowKey => ActiveEntry)}
    {mono wall : Nat} (hidle : s.mgr.pendingReapply = [])
    (h : journalFailures (tick env ord mono wall s) = journalFailures s) :
    (tick env ord mono wall s).mgr.pendingMirror = [] := by
  have hjour : ∀ w, Call.isJournal (FlowSpecManager.mirrorQueue.call w)
      = true := by
    intro w
    cases w <;> rfl
  refine Mirror.Queue.Owed.nil (q := FlowSpecManager.mirrorQueue) ?_ h
  have hmir : FlowSpecManager.mirrorQueue.Owed Call.isJournal
      (journalFailures s) (retryPendingMirror env s) :=
    Mirror.Queue.Owed.retryAll hjour s
  have hr := (retryPendingMirror_frame env s).2.1
  unfold tick
  simp only [retryPendingReapply_idle env (hr.trans hidle)]
  refine run_invariant_mem
    (P := FlowSpecManager.mirrorQueue.Owed Call.isJournal
      (journalFailures s)) _ (fun s a ha h => ?_) (hmir.update rfl)
  obtain ⟨r, rfl⟩ := FlowSpecController.tick_withdraws _ ord mono a ha
  simp only [executeAndJournal]
  split
  · exact (h.call _).write hjour
  · exact h.call _

-- ============================================================= convergence

/-- The active rows are exactly the active rules with their current rate
(as a number) and origin. -/
def JournalAgrees (s : Sys) : Prop :=
  ∀ (row : State.FlowRow) (rate : F32) (o : BlackholeOrigin),
    (∃ r ∈ (table s).rows, r.isActive = true ∧ r.key = row
        ∧ r.val.rate.number = rate ∧ r.val.origin = o)
      ↔ ∃ k e, s.mgr.controller.active.lookup k = some e
        ∧ (State.flattenFlowspec e.rule).1 = row
        ∧ e.rule.action.rate.number = rate ∧ e.origin = o

/-- A settled table with nothing queued agrees. -/
theorem Mirrored.agrees {s : Sys} (h : Mirrored [] s)
    (hnil : s.mgr.pendingMirror = []) : JournalAgrees s := by
  have hrows : activeRows (table s) = s.mgr.controller.value :=
    h.heals.rows_eq hnil
  have hread : ∀ k, IsHost k →
      ((table s).active (k.1.addr, k.2)).map
          (fun v => (⟨v.rate.number, v.origin⟩ : FlowSpecValue))
        = s.mgr.controller.value k := by
    intro k hk
    rw [← hrows, activeRows, if_pos hk]
  intro row rate o
  constructor
  · rintro ⟨r, hmem, hact, rfl, rfl, rfl⟩
    have hv : (table s).active r.key = some r.val :=
      Rows.mem_active_iff.mp ⟨r, hmem, hact, rfl, rfl⟩
    have hhost : IsHost (hostPrefix r.key.1, r.key.2) := by
      simp [IsHost]
    have hcols : ((hostPrefix r.key.1).addr, r.key.2) = r.key := by
      rw [addr_hostPrefix]
    have hval := hread _ hhost
    change ((table s).active ((hostPrefix r.key.1).addr, r.key.2)).map _
      = _ at hval
    rw [hcols, hv, Option.map_some] at hval
    obtain ⟨x, hx, hxv⟩ := Option.map_eq_some_iff.mp hval.symm
    obtain ⟨e, he, rfl⟩ := Option.map_eq_some_iff.mp hx
    have hkey := (h.keyed _ _ hx).1
    refine ⟨_, e, he, ?_, congrArg FlowSpecValue.rate hxv,
      congrArg FlowSpecValue.origin hxv⟩
    exact ((columns_eq_iff hhost (hkey ▸ hhost)).mpr hkey.symm).symm.trans
      hcols
  · rintro ⟨k, e, he, rfl, rfl, rfl⟩
    have hx := FlowSpecController.held_of_lookup he
    have hkey : keyOf e.rule = k := (h.keyed _ _ hx).1
    have hhost : IsHost k := h.hosts k (by rw [hx]; exact nofun)
    have hval := hread k hhost
    rw [FlowSpecController.value, hx, Option.map_some,
      (columns_eq_iff hhost (hkey ▸ hhost)).mpr hkey.symm] at hval
    obtain ⟨v, hv, hve⟩ := Option.map_eq_some_iff.mp hval
    obtain ⟨r, hmem, hact, hrk, rfl⟩ := Rows.mem_active_iff.mpr hv
    exact ⟨r, hmem, hact, hrk, congrArg FlowSpecValue.rate hve,
      congrArg FlowSpecValue.origin hve⟩

/-- In every run whose direct journal writes are all `writeOk`, the table
agrees with the controller after every tick in which no journal call
fails. -/
theorem flowspec_mirror_converges (env : Outcomes Call)
    (hbgp : ∀ i c, c.isBgp = true → env i c = true)
    (hlim : ∀ i c, c.isLimiter = true → env i c = true)
    (config : FlowSpecConfig) (lim : Bool) (ops : List Op)
    (harm : ∀ op ∈ ops, op.isArmed = true)
    (hwf : ∀ op ∈ ops, op.wellFormed = true)
    (ord : IterOrder (Sigma fun _ : FlowKey => ActiveEntry))
    (mono wall : Nat)
    (hok : Guarded (step env) (fun s op => opOk env s op = true)
      (start config lim) (ops ++ [.tick ord mono wall]))
    (hclean : journalFailures (run (step env) (start config lim)
        (ops ++ [.tick ord mono wall]))
      = journalFailures (run (step env) (start config lim) ops)) :
    JournalAgrees (run (step env) (start config lim)
      (ops ++ [.tick ord mono wall])) := by
  rw [Guarded.append] at hok
  have hinv : Mirrored [] (run (step env) (start config lim) ops) :=
    run_guarded _ (fun s op hmem hs hg =>
      hs.step hbgp hlim (harm op hmem) (hwf op hmem) hg) _
      (mirrored_start config lim) hok.1
  rw [run_append] at hclean ⊢
  exact (hinv.step hbgp hlim rfl rfl hok.2.1).agrees
    (tick_clean hinv.idle hclean)

/-- The journal is down for the run's second call. -/
def journalBlips : Outcomes Call := fun i c =>
  !(c.isJournal && decide (i = 1))

theorem journalBlips_ok (i : Nat) (c : Call) (h : c.isJournal = false) :
    journalBlips i c = true := by
  simp [journalBlips, h]

/-- An add whose mirror write fails, repaired by the next tick. -/
theorem flowspec_mirror_converges_repaired :
    JournalAgrees (run (step journalBlips) (start sampleConfig false)
      ([.applyAdd (sampleRule 0) 0 0] ++ [.tick (.stored _) 1 1])) :=
  flowspec_mirror_converges journalBlips
    (fun i c h => journalBlips_ok i c (by cases c <;> first | rfl | cases h))
    (fun i c h => journalBlips_ok i c (by cases c <;> first | rfl | cases h))
    sampleConfig false [.applyAdd (sampleRule 0) 0 0] (by decide)
    (by decide) (.stored _) 1 1 (by decide) (by decide)

/-- An add at 1e6 bytes/s whose mirror write fails and is queued, then
the same rule tightened to a drop, journaled at once. -/
def staleRateRun (tail : List Op) : Sys :=
  run (step journalBlips) (start sampleConfig false)
    ([.applyAdd (sampleRule 0x49742400) 0 0, .applyAdd (sampleRule 0) 1 1]
      ++ tail)

/-- No call of the tick fails, yet it puts the old rate back into the row
while the controller holds the drop. -/
theorem stale_rate_replayed :
    journalFailures (staleRateRun [.tick (.stored _) 2 2])
        = journalFailures (staleRateRun [])
      ∧ (∃ r ∈ (table (staleRateRun [.tick (.stored _) 2 2])).rows,
          r.isActive = true
            ∧ r.key = (State.flattenFlowspec (sampleRule 0)).1
            ∧ r.val = ⟨⟨0x49742400⟩, .manual⟩)
      ∧ (staleRateRun [.tick (.stored _) 2 2]).mgr.controller.activeRule
          (keyOf (sampleRule 0)) = some (sampleRule 0) := by
  decide

end Blackwall.FlowSpec
