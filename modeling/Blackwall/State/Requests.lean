/-
The operators' request queue, `rtbh_requests`, and the statements run on
it (`blackwall-state/src/lib.rs`, migration `0004`).

The table is kept in the order of its serial ids. `created_by` and the
timestamps are written and listed but decide nothing, so they are left
out. The two updates are one definition: a `WHERE` and the status and
note it sets.
-/
import Mathlib.Data.List.Nodup
import Blackwall.Net

namespace Blackwall.State

/-- The `CHECK` on `action`. -/
inductive RequestAction
  | add
  | remove
  deriving DecidableEq, Repr

/-- The `CHECK` on `status`. -/
inductive RequestStatus
  | pending
  | applied
  | rejected
  deriving DecidableEq, Repr

/-- One operator intent. -/
structure RtbhRequestRow where
  id : Nat
  target : IpAddr
  action : RequestAction
  status : RequestStatus
  note : Option String
  deriving DecidableEq, Repr

/-- The table: rows in the order of their ids, and where the serial
is. -/
structure Requests where
  rows : List RtbhRequestRow
  nextId : Nat
  ordered : rows.Pairwise fun r r' => r.id < r'.id
  below : ∀ r ∈ rows, r.id < nextId

/-- No request yet. -/
def Requests.empty : Requests where
  rows := []
  nextId := 1
  ordered := .nil
  below _ h := absurd h List.not_mem_nil

-- ============================================================ statements

/-- `enqueue_request`: append a pending row under the next id. -/
def enqueueRequest (target : IpAddr) (action : RequestAction)
    (tbl : Requests) : Requests where
  rows := tbl.rows ++
    [{ id := tbl.nextId, target, action, status := .pending, note := none }]
  nextId := tbl.nextId + 1
  ordered := by
    refine List.pairwise_append.mpr
      ⟨tbl.ordered, List.pairwise_singleton .., fun r hr r' hr' => ?_⟩
    rw [List.mem_singleton.mp hr']
    exact tbl.below r hr
  below r hr := by
    rcases List.mem_append.mp hr with hr | hr
    · exact Nat.lt_succ_of_lt (tbl.below r hr)
    · rw [List.mem_singleton.mp hr]
      exact Nat.lt_succ_self _

/-- `pending_requests`: the pending rows, in the order of their ids. -/
def pendingRequests (tbl : Requests) : List RtbhRequestRow :=
  tbl.rows.filter fun r => r.status = .pending

/-- One row under an `UPDATE … SET status, note WHERE p`. -/
def RtbhRequestRow.set (p : RtbhRequestRow → Bool)
    (status : RequestStatus) (note : Option String)
    (r : RtbhRequestRow) : RtbhRequestRow :=
  if p r then { r with status, note } else r

section Set

variable (p : RtbhRequestRow → Bool) (status : RequestStatus)
  (note : Option String) (r : RtbhRequestRow)

@[simp] theorem RtbhRequestRow.set_id :
    (r.set p status note).id = r.id := by
  unfold set; split <;> rfl

@[simp] theorem RtbhRequestRow.set_target :
    (r.set p status note).target = r.target := by
  unfold set; split <;> rfl

@[simp] theorem RtbhRequestRow.set_action :
    (r.set p status note).action = r.action := by
  unfold set; split <;> rfl

variable {p r}

theorem RtbhRequestRow.set_of_not (h : p r = false) :
    r.set p status note = r := by
  rw [set, h]; rfl

theorem RtbhRequestRow.set_of (h : p r = true) :
    r.set p status note = { r with status, note } := by
  rw [set, h]; rfl

end Set

/-- `UPDATE rtbh_requests SET status, note WHERE p`. -/
def Requests.update (p : RtbhRequestRow → Bool) (status : RequestStatus)
    (note : Option String) (tbl : Requests) : Requests where
  rows := tbl.rows.map fun r => r.set p status note
  nextId := tbl.nextId
  ordered := by
    refine List.pairwise_map.mpr (tbl.ordered.imp fun h => ?_)
    simpa using h
  below r hr := by
    obtain ⟨r₀, hr₀, rfl⟩ := List.mem_map.mp hr
    simpa using tbl.below r₀ hr₀

def supersedePendingAdds (target : IpAddr) (beforeId : Nat) :
    Requests → Requests :=
  Requests.update
    (fun r => r.action = .add && r.target = target && r.status = .pending
      && r.id < beforeId)
    .applied (some "superseded by remove")

def setRequestStatus (id : Nat) (status : RequestStatus)
    (note : Option String) : Requests → Requests :=
  Requests.update (fun r => r.id = id) status note

-- ================================================== one target's requests

namespace Requests

/-- The requests for a target, in the order of their ids. -/
def about (t : IpAddr) (tbl : Requests) : List RtbhRequestRow :=
  tbl.rows.filter fun r => r.target = t

theorem mem_about {t : IpAddr} {tbl : Requests} {r : RtbhRequestRow} :
    r ∈ tbl.about t ↔ r ∈ tbl.rows ∧ r.target = t := by
  simp [about]

theorem eq_of_id {tbl : Requests} {r r' : RtbhRequestRow}
    (hr : r ∈ tbl.rows) (hr' : r' ∈ tbl.rows) (h : r.id = r'.id) :
    r = r' := by
  have hnd : (tbl.rows.map (·.id)).Nodup :=
    List.pairwise_map.mpr (tbl.ordered.imp fun h => Nat.ne_of_lt h)
  exact List.inj_on_of_nodup_map hnd hr hr' h

theorem about_enqueue_other {t t' : IpAddr} (a : RequestAction)
    (tbl : Requests) (h : t' ≠ t) :
    (enqueueRequest t' a tbl).about t = tbl.about t := by
  simp [about, enqueueRequest, h]

/-- An update that selects no row of a target leaves its rows alone. -/
theorem about_update_other {t : IpAddr} {p : RtbhRequestRow → Bool}
    (status : RequestStatus) (note : Option String) {tbl : Requests}
    (h : ∀ r ∈ tbl.rows, p r = true → r.target ≠ t) :
    (tbl.update p status note).about t = tbl.about t := by
  show (tbl.rows.map fun r => r.set p status note).filter _
    = tbl.rows.filter _
  generalize tbl.rows = rows at h
  induction rows with
  | nil => rfl
  | cons r rows ih =>
      have ih := ih fun r' hr' => h r' (List.mem_cons_of_mem r hr')
      rw [List.map_cons, List.filter_cons, List.filter_cons, ih,
        RtbhRequestRow.set_target]
      cases hp : p r with
      | true => simp [h r List.mem_cons_self hp]
      | false => rw [RtbhRequestRow.set_of_not _ _ hp]

end Requests

end Blackwall.State
