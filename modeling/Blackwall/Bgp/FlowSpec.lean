/-
FlowSpec rules (`blackwall-bgp/src/flowspec.rs`, data types). The action
carries an `f32` rate; the derived comparison of two actions is the IEEE
one.
-/
import Blackwall.Base.F32
import Blackwall.Net

namespace Blackwall.Bgp

inductive FlowAction
  | trafficRate (rate : F32)
  deriving DecidableEq, Repr

/-- The rate of the action. -/
def FlowAction.rate : FlowAction → F32
  | .trafficRate r => r

/-- `FlowAction`'s derived `!=`. -/
def FlowAction.differs (a b : FlowAction) : Bool := !a.rate.ieeeEq b.rate

/-- A FlowSpec traffic-filter rule. -/
structure FlowSpecRule where
  dst : IpNet
  protocol : Option (BitVec 8)
  dstPort : Option (BitVec 16)
  action : FlowAction
  deriving DecidableEq, Repr

end Blackwall.Bgp
