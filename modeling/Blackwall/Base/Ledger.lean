/-
Reading a log of announcements back.

A component that announces and withdraws values under keys, and may take
its last announcement of a key back, is described by what a reader of its
log holds: the value under each key, and the one that stood there before
the key was announced last.
-/
import Mathlib.Logic.Function.Basic
import Blackwall.Base.Run

namespace Blackwall.Base

/-- One line of the log. -/
inductive Posting (K V : Type)
  | announce (k : K) (v : V)
  | withdraw (k : K)
  | undo (k : K)
  deriving DecidableEq, Repr

/-- What the reader holds. -/
structure Ledger (K V : Type) where
  held : K → Option V
  prior : K → Option V

namespace Ledger

variable {K V : Type} [DecidableEq K]

/-- Before the first line. -/
def empty : Ledger K V := ⟨fun _ => none, fun _ => none⟩

/-- One line read. -/
def post (p : Posting K V) (l : Ledger K V) : Ledger K V :=
  match p with
  | .announce k v =>
      { held := Function.update l.held k (some v)
        prior := Function.update l.prior k (l.held k) }
  | .withdraw k => { l with held := Function.update l.held k none }
  | .undo k => { l with held := Function.update l.held k (l.prior k) }

/-- The whole log read. -/
def read (ps : List (Posting K V)) : Ledger K V := run post empty ps

theorem read_append (ps qs : List (Posting K V)) :
    read (ps ++ qs) = run post (read ps) qs :=
  run_append post empty ps qs

theorem held_withdrawals (ks : List K) (l : Ledger K V) (k : K) :
    (run post l (ks.map .withdraw)).held k
      = if k ∈ ks then none else l.held k := by
  induction ks generalizing l with
  | nil => simp
  | cons a ks ih =>
      rw [List.map_cons, run_cons, ih]
      by_cases hk : k ∈ ks
      · simp [hk]
      · by_cases ha : k = a
        · simp [post, ha]
        · simp [post, hk, ha]

end Ledger

end Blackwall.Base
