/-
The manager's task: detection events, ticks, and the operators' requests
(`rtbh_manager_task` and `apply_request` in `blackwalld/src/main.rs`).

# One move at a time

The task awaits its database between one statement and the next, so an
operator's `enqueue_request` can land anywhere: after the snapshot of the
pending rows was read, between an add and the write of its status,
between the two writes of a remove. A step of the model is therefore one
await's worth of work, and `Phase` says where in the loop the task
stands. Every write may fail; the source logs that and goes on.

A move the task cannot make where it stands (an event while a snapshot is
being served) leaves everything as it is. The shutdown arms of the
`select!` and the metrics are left out; the kill switch is not a move
here.
-/
import Blackwall.Rtbh.Proofs.Controller
import Blackwall.Rtbh.Manager
import Blackwall.State.Requests

namespace Blackwall.Rtbh

open Base
open Blackwall.Flow (DetectionEvent)
open State

/-- Where the task stands in its loop. -/
inductive Phase
  /-- In the `select!`. -/
  | idle
  /-- About to apply the next request of the snapshot. -/
  | serving (rest : List RtbhRequestRow)
  /-- A remove was applied; `supersede_pending_adds` is next. -/
  | superseding (req : RtbhRequestRow) (rest : List RtbhRequestRow)
  /-- `set_request_status` of a request is next. -/
  | marking (req : RtbhRequestRow) (status : RequestStatus)
      (note : Option String) (rest : List RtbhRequestRow)

/-- The task with its manager, and the table it reads its requests
from. -/
structure Task where
  sys : Sys
  requests : Requests
  phase : Phase

/-- What can happen next. -/
inductive Move
  | enqueue (target : IpAddr) (action : RequestAction)
  | event (event : DetectionEvent) (monoNow wallNow : Nat)
  | tick (ord : IterOrder (Sigma fun _ : IpAddr => ActiveEntry))
      (monoNow wallNow : Nat) (readOk : Bool)
  | advance (monoNow wallNow : Nat) (writeOk : Bool)

/-- A statement that may fail, and then changes nothing. -/
def attempt (ok : Bool) (stmt : Requests → Requests) (tbl : Requests) :
    Requests :=
  if ok then stmt tbl else tbl

section Steps

variable (env : Outcomes Call) (disp : IpAddr → String)

/-- `apply_request` up to its first write. -/
def applyRequest (req : RtbhRequestRow) (rest : List RtbhRequestRow)
    (monoNow wallNow : Nat) (k : Task) : Task :=
  match req.action with
  | .add =>
      match applyAdd env req.target monoNow wallNow k.sys with
      | (.applied, s) =>
          { k with sys := s, phase := .marking req .applied none rest }
      | (.deferred, s) => { k with sys := s, phase := .serving rest }
      | (.rejected reason, s) =>
          let note := some (reason.text disp)
          { k with sys := s, phase := .marking req .rejected note rest }
  | .remove =>
      { k with sys := applyRemove env req.target monoNow wallNow k.sys
               phase := .superseding req rest }

/-- The next piece of the work a tick began. -/
def advance (monoNow wallNow : Nat) (writeOk : Bool) (k : Task) : Task :=
  match k.phase with
  | .idle => k
  | .serving [] => { k with phase := .idle }
  | .serving (req :: rest) =>
      applyRequest env disp req rest monoNow wallNow k
  | .superseding req rest =>
      let stmt := supersedePendingAdds req.target req.id
      { k with requests := attempt writeOk stmt k.requests
               phase := .marking req .applied none rest }
  | .marking req status note rest =>
      let stmt := setRequestStatus req.id status note
      { k with requests := attempt writeOk stmt k.requests
               phase := .serving rest }

/-- One move. -/
def Task.step (mv : Move) (k : Task) : Task :=
  match mv with
  | .enqueue target action =>
      { k with requests := enqueueRequest target action k.requests }
  | .event event monoNow wallNow =>
      match k.phase with
      | .idle => { k with sys := applyEvent env event monoNow wallNow k.sys }
      | _ => k
  | .tick ord monoNow wallNow readOk =>
      match k.phase with
      | .idle =>
          { k with sys := tick env ord monoNow wallNow k.sys
                   phase := if readOk
                     then .serving (pendingRequests k.requests)
                     else .idle }
      | _ => k
  | .advance monoNow wallNow writeOk =>
      advance env disp monoNow wallNow writeOk k

end Steps

/-- The task of a fresh manager, before the first request. -/
def Task.start (config : RtbhConfig) (rateLimiter : Bool) : Task :=
  { sys := Rtbh.start config rateLimiter
    requests := .empty
    phase := .idle }

-- ============================================================ statements

/-- A request for `t` is pending. -/
def Awaits (t : IpAddr) (tbl : Requests) : Prop :=
  ∃ r ∈ tbl.about t, r.status = .pending

/-- The highest-id request for `t` that was not rejected is an `a`. -/
def NewestIs (a : RequestAction) (t : IpAddr) (tbl : Requests) : Prop :=
  ∃ r ∈ tbl.about t, r.status ≠ .rejected ∧ r.action = a
    ∧ ∀ r' ∈ tbl.about t, r'.status ≠ .rejected → r'.id ≤ r.id

/-- `t` is active with manual origin. -/
def ManuallyActive (s : Sys) (t : IpAddr) : Prop :=
  s.mgr.controller.origins t = some .manual

/-- A target with nothing pending is as the last operator asked. -/
def LastIntentHolds (k : Task) : Prop :=
  ∀ t, ¬ Awaits t k.requests →
    (ManuallyActive k.sys t ↔ NewestIs .add t k.requests)

/-- The request a move marks applied, if it is such a write and the write
succeeds. -/
def Move.marks : Move → Phase → Option RtbhRequestRow
  | .advance _ _ true, .marking req .applied _ _ => some req
  | _, _ => none

/-- The condition on a move: a request it marks applied asks for what the
newest request for its target asks for, or another request for that
target is still pending. -/
def Move.ok (k : Task) (mv : Move) : Prop :=
  ∀ req ∈ mv.marks k.phase,
    NewestIs req.action req.target k.requests
      ∨ ∃ r ∈ k.requests.about req.target,
          r.status = .pending ∧ r.id ≠ req.id

instance (t : IpAddr) (tbl : Requests) : Decidable (Awaits t tbl) :=
  inferInstanceAs (Decidable (∃ r ∈ tbl.about t, r.status = .pending))

instance (a : RequestAction) (t : IpAddr) (tbl : Requests) :
    Decidable (NewestIs a t tbl) :=
  inferInstanceAs (Decidable (∃ r ∈ tbl.about t, r.status ≠ .rejected
    ∧ r.action = a
    ∧ ∀ r' ∈ tbl.about t, r'.status ≠ .rejected → r'.id ≤ r.id))

instance (s : Sys) (t : IpAddr) : Decidable (ManuallyActive s t) :=
  inferInstanceAs (Decidable (s.mgr.controller.origins t = some .manual))

instance Move.decidableOk (k : Task) (mv : Move) : Decidable (mv.ok k) :=
  inferInstanceAs (Decidable (∀ req ∈ mv.marks k.phase,
    NewestIs req.action req.target k.requests
      ∨ ∃ r ∈ k.requests.about req.target,
          r.status = .pending ∧ r.id ≠ req.id))

end Blackwall.Rtbh
