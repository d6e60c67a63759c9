/-
Mitigation selection (`blackwall-flow/src/select.rs`): a detection whose
traffic sits on a few destination ports becomes flow-scoped rules, any
other falls back to a blackhole of the whole address.
-/
import Blackwall.Flow.Detector

namespace Blackwall.Flow

/-- The chosen mitigation for a detection. -/
inductive Mitigation
  | flowSpec (rules : List FlowRule)
  | rtbh
  deriving DecidableEq, Repr

/-- Tunables for `select`. -/
structure SelectionConfig where
  concentration : ℚ
  maxFlows : Nat
  rate : F32
  deriving DecidableEq, Repr

/-- The loop of `select`: take ports until their weights add up to the
concentration, `none` when the ports or the allowed flows run out
first. -/
def chooseLoop (rd : Rounding) (cfg : SelectionConfig) :
    List (BitVec 16 × ℚ) → (chosen : List (BitVec 16)) →
      (cumulative : ℚ) → Option (List (BitVec 16))
  | [], _, _ => none
  | (port, weight) :: ports, chosen, cumulative =>
      if cfg.maxFlows ≤ chosen.length then none
      else if cfg.concentration ≤ rd (cumulative + weight) then
        some (chosen ++ [port])
      else chooseLoop rd cfg ports (chosen ++ [port])
        (rd (cumulative + weight))

/-- The ports `select` considers, heaviest first. -/
def rankedPorts (d : Detection) : List (BitVec 16 × ℚ) :=
  sortDesc (·.2) (d.topPorts.filter fun e => e.1 ≠ 0)

def select (rd : Rounding) (d : Detection) (cfg : SelectionConfig) :
    Mitigation :=
  if d.proto = 0 ∨ d.topPorts.isEmpty ∨ d.topPorts.all (·.1 = 0) then .rtbh
  else if (d.topPorts.filter fun e => e.1 ≠ 0).isEmpty then .rtbh
  else
    match chooseLoop rd cfg (rankedPorts d) [] 0 with
    | some chosen =>
        .flowSpec (chosen.map fun p =>
          { dst := d.target, proto := d.proto, dstPort := p
            rate := cfg.rate })
    | none => .rtbh

end Blackwall.Flow
