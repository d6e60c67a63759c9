/-
The RTBH controller on its own, without a manager: its operations, what
they emit, and the rollback of an announcement that was not taken.

`rollback` "must only be called immediately after" the announce it undoes
(`blackwall-rtbh/src/controller.rs`), so the machine remembers which
routes the last operation has announced (`fresh`); a rollback of anything
else is not a move.
-/
import Blackwall.Base.Ledger
import Blackwall.Rtbh.Controller

namespace Blackwall.Rtbh

open Base
open Bgp (Route)
open Blackwall.Flow (DetectionEvent)

/-- The operations of the controller. -/
inductive Operation
  | onEvent (event : DetectionEvent) (now : Nat)
  | manualAdd (target : IpAddr) (now : Nat)
  | manualRemove (target : IpAddr)
  | tick (ord : IterOrder (Sigma fun _ : IpAddr => ActiveEntry))
      (now : Nat)
  | resume (target : IpAddr) (announcedAt : Nat)
      (origin : BlackholeOrigin)
  | rollback (target : IpAddr)

/-- What the controller makes of one. -/
def Operation.apply (m : Operation) (c : RtbhController) :
    List RtbhAction × RtbhController :=
  match m with
  | .onEvent event now => c.onEvent event now
  | .manualAdd target now => c.manualAdd target now
  | .manualRemove target => c.manualRemove target
  | .tick ord now => c.tick ord now
  | .resume target announcedAt origin => c.resume target announcedAt origin
  | .rollback target => ([], c.rollback target)

/-- The prefix an action announces. -/
def RtbhAction.announced : RtbhAction → Option IpNet
  | .announce route => some route.net
  | .withdraw _ => none

/-- The announcements that can be rolled back after a move. -/
def Operation.freshAfter (m : Operation) (acts : List RtbhAction)
    (fresh : List IpNet) : List IpNet :=
  match m with
  | .rollback target => fresh.filter (· ≠ hostPrefix target)
  | _ => acts.filterMap RtbhAction.announced

/-- A rollback undoes an announcement of the last operation. -/
def Operation.allowed (fresh : List IpNet) : Operation → Bool
  | .rollback target => decide (hostPrefix target ∈ fresh)
  | _ => true

/-- The controller, the announcements of the last operation that have not
been rolled back, and every move so far with what it emitted. -/
structure Staged where
  ctrl : RtbhController
  fresh : List IpNet
  trace : List (Operation × List RtbhAction)

namespace Staged

/-- A controller before its first operation. -/
def start (config : RtbhConfig) : Staged := ⟨.new config, [], []⟩

/-- One operation. -/
def move (m : Operation) (s : Staged) : Staged :=
  if m.allowed s.fresh then
    let r := m.apply s.ctrl
    { ctrl := r.2
      fresh := m.freshAfter r.1 s.fresh
      trace := s.trace ++ [(m, r.1)] }
  else s

end Staged

/-- The line of the log that an action is. -/
def RtbhAction.posting : RtbhAction → Posting IpNet Route
  | .announce route => .announce route.net route
  | .withdraw net => .withdraw net

/-- The lines that a move of the trace is. -/
def postings : Operation × List RtbhAction → List (Posting IpNet Route)
  | (.rollback target, _) => [.undo (hostPrefix target)]
  | (_, acts) => acts.map RtbhAction.posting

-- ============================================================ target lives

/-- The history of an announced target, as far as its withdrawal depends
on it: when and by whom it was announced, when it was asserted last, and
whether the last event for it is a clear. -/
structure Life where
  announcedAt : Nat
  origin : BlackholeOrigin
  asserted : Nat
  cleared : Bool
  deriving DecidableEq, Repr

/-- The life that an announcement begins. -/
def Operation.birth : Operation → Option Life
  | .onEvent _ now => some ⟨now, .auto, now, false⟩
  | .manualAdd _ now => some ⟨now, .manual, now, false⟩
  | .resume _ announcedAt origin =>
      some ⟨announcedAt, origin, announcedAt, false⟩
  | .manualRemove _ | .tick _ _ | .rollback _ => none

/-- What an operation that neither announces nor withdraws `target` makes
of its history. -/
def Life.note (target : IpAddr) (m : Operation) (l : Life) : Option Life :=
  match m with
  | .onEvent (.opened d) now | .onEvent (.updated d) now =>
      if d.target = target then
        some { l with asserted := now, cleared := false }
      else some l
  | .onEvent (.cleared t _) _ =>
      if t = target then some { l with cleared := true } else some l
  | .manualAdd t _ =>
      if t = target then some { l with origin := .manual } else some l
  | .resume t announcedAt _ =>
      if t = target then
        some { l with asserted := announcedAt, cleared := false }
      else some l
  | .manualRemove _ | .tick _ _ => some l
  | .rollback t => if t = target then none else some l

/-- One move of the trace. -/
def Life.step (target : IpAddr) (life : Option Life)
    (x : Operation × List RtbhAction) : Option Life :=
  if x.2.any fun a => a.announced = some (hostPrefix target) then x.1.birth
  else if .withdraw (hostPrefix target) ∈ x.2 then none
  else life.bind (Life.note target x.1)

/-- The life of a target after a trace: none unless it is announced. -/
def lifeOf (target : IpAddr) (trace : List (Operation × List RtbhAction)) :
    Option Life :=
  trace.foldl (Life.step target) none

end Blackwall.Rtbh
