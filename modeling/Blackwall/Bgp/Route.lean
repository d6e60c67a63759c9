/-
A route to inject and its path attributes (`blackwall-bgp/src/route.rs`).
The source's field `prefix` is `net` here: `prefix` is a Lean keyword.
-/
import Blackwall.Net

namespace Blackwall.Bgp

/-- The ORIGIN attribute. -/
inductive Origin
  | igp
  | egp
  | incomplete
  deriving DecidableEq, Repr

def Origin.wire : Origin → Base.Byte
  | .igp => 0
  | .egp => 1
  | .incomplete => 2

/-- A route to announce or withdraw, with its path attributes. -/
structure Route where
  net : IpNet
  nextHop : IpAddr
  origin : Origin
  communities : List (BitVec 16 × BitVec 16)
  largeCommunities : List (BitVec 32 × BitVec 32 × BitVec 32)
  deriving DecidableEq, Repr

end Blackwall.Bgp
