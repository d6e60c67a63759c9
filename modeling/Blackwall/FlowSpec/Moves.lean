/-
The FlowSpec controller on its own, without a manager: its operations,
what they emit, and the rollback of an announcement that was not taken.

An operator's and a resumed rule is taken to be for one host, as the
requests and the journal make them. `rollback` is called "solely, and
immediately, after the very `Announce`" it undoes
(`blackwall-rtbh/src/flowspec_controller.rs`), so the machine remembers
which keys the last operation has announced and nobody rolled back since
(`fresh`); a rollback of any other key is not a move.
-/
import Blackwall.Base.Ledger
import Blackwall.FlowSpec.Controller

namespace Blackwall.FlowSpec

open Base
open Bgp (FlowSpecRule)
open Rtbh (BlackholeOrigin)

/-- A rule whose destination is one host. -/
abbrev HostRule : Type :=
  { rule : FlowSpecRule // rule.dst = hostPrefix rule.dst.addr }

/-- The operations of the controller. -/
inductive Move
  | install (target : IpAddr) (rules : List (BitVec 8 × BitVec 16 × F32))
      (now : Nat)
  | clearTarget (ord : IterOrder (Sigma fun _ : FlowKey => ActiveEntry))
      (target : IpAddr) (now : Nat)
  | manualAdd (rule : HostRule) (now : Nat)
  | manualRemove (rule : FlowSpecRule)
  | refreshTarget (target : IpAddr) (now : Nat)
  | tick (ord : IterOrder (Sigma fun _ : FlowKey => ActiveEntry))
      (now : Nat)
  | resume (rule : HostRule) (announcedAt : Nat)
      (origin : BlackholeOrigin)
  | rollback (key : FlowKey)

/-- What the controller makes of one. -/
def Move.apply (m : Move) (c : FlowSpecController) :
    List FlowSpecAction × FlowSpecController :=
  match m with
  | .install target rules now => c.install target rules now
  | .clearTarget ord target now => c.clearTarget ord target now
  | .manualAdd rule now => c.manualAdd rule.1 now
  | .manualRemove rule => c.manualRemove rule
  | .refreshTarget target now => ([], c.refreshTarget target now)
  | .tick ord now => c.tick ord now
  | .resume rule announcedAt origin => c.resume rule.1 announcedAt origin
  | .rollback key => ([], c.rollback key)

/-- The key an action announces. -/
def FlowSpecAction.announced : FlowSpecAction → Option FlowKey
  | .announce rule => some (keyOf rule)
  | .withdraw _ => none

/-- The line of the log that an action is. -/
def FlowSpecAction.posting : FlowSpecAction → Posting FlowKey FlowSpecRule
  | .announce rule => .announce (keyOf rule) rule
  | .withdraw rule => .withdraw (keyOf rule)

/-- The controller, the announcements of the last operation that have not
been rolled back, and the log of all of them. -/
structure Staged where
  ctrl : FlowSpecController
  fresh : List FlowKey
  log : List (Posting FlowKey FlowSpecRule)

namespace Staged

/-- A controller before its first operation. -/
def start (config : FlowSpecConfig) : Staged := ⟨.new config, [], []⟩

/-- One operation. -/
def move (m : Move) (s : Staged) : Staged :=
  match m with
  | .rollback key =>
      if key ∈ s.fresh then
        { ctrl := s.ctrl.rollback key
          fresh := s.fresh.filter (· ≠ key)
          log := s.log ++ [.undo key] }
      else s
  | m =>
      let r := m.apply s.ctrl
      { ctrl := r.2
        fresh := r.1.filterMap FlowSpecAction.announced
        log := s.log ++ r.1.map FlowSpecAction.posting }

end Staged

end Blackwall.FlowSpec
