/-
The two tables the managers mirror into and the statements their journals
run (`blackwall-state/src/lib.rs`, migrations `0004` and `0005`).

Both are history tables with a partial unique index on the rows whose
`withdrawn_at` is null (`Base.Rows`): `rtbh_blackholes` keyed by the
target, `flowspec_rules` by destination, protocol and port. An upsert
never downgrades a manual origin; for a FlowSpec rule it always takes the
new rate. The stored `f64` of a rate is the rate itself, since widening
an `f32` is exact.
-/
import Blackwall.Base.Dict
import Blackwall.Base.Rows
import Blackwall.Bgp.FlowSpec
import Blackwall.Rtbh.Controller

namespace Blackwall.State

open Base
open Rtbh (BlackholeOrigin)
open Bgp (FlowSpecRule)

/-- The largest value of an `i64`, the width of a stored timestamp. -/
def i64Max : Nat := 2 ^ 63 - 1

/-- The upsert's `CASE`: a manual origin is never downgraded. -/
def mergeOrigin : BlackholeOrigin → BlackholeOrigin → BlackholeOrigin
  | .manual, _ => .manual
  | .auto, new => new

@[simp] theorem mergeOrigin_manual_left (o : BlackholeOrigin) :
    mergeOrigin .manual o = .manual := rfl

@[simp] theorem mergeOrigin_manual_right (o : BlackholeOrigin) :
    mergeOrigin o .manual = .manual := by
  cases o <;> rfl

@[simp] theorem mergeOrigin_auto_left (o : BlackholeOrigin) :
    mergeOrigin .auto o = o := rfl

@[simp] theorem mergeOrigin_auto_right (o : BlackholeOrigin) :
    mergeOrigin o .auto = o := by
  cases o <;> rfl

-- ======================================================== rtbh_blackholes

/-- `rtbh_blackholes`: a row's key is its target, its value its
origin. -/
abbrev Blackholes : Type := Rows IpAddr BlackholeOrigin

def recordBlackhole (target : IpAddr) (origin : BlackholeOrigin)
    (atMs : Nat) (tbl : Blackholes) : Blackholes :=
  tbl.upsert mergeOrigin target origin (min atMs i64Max)

def clearBlackhole (target : IpAddr) (atMs : Nat) (onlyAuto : Bool)
    (tbl : Blackholes) : Blackholes :=
  tbl.close (fun o => !onlyAuto || decide (o = .auto)) target
    (min atMs i64Max)

/-- `list_active_blackholes`, as `rehydrate` takes it: target, time and
origin of each active row. The query sorts by target; any order will
do. -/
def listActiveBlackholes (ord : IterOrder (Row IpAddr BlackholeOrigin))
    (tbl : Blackholes) : List (IpAddr × Nat × BlackholeOrigin) :=
  (ord.1 (tbl.rows.filter (·.isActive))).map fun r =>
    (r.key, r.openedAt, r.val)

/-- It lists the targets with an active row. -/
theorem mem_listActiveBlackholes
    {ord : IterOrder (Row IpAddr BlackholeOrigin)} {tbl : Blackholes}
    {row : IpAddr × Nat × BlackholeOrigin}
    (h : row ∈ listActiveBlackholes ord tbl) :
    tbl.active row.1 = some row.2.2 := by
  simp only [listActiveBlackholes, List.mem_map, IterOrder.mem_iff,
    List.mem_filter] at h
  obtain ⟨r, ⟨hmem, hact⟩, rfl⟩ := h
  exact Rows.mem_active_iff.mp ⟨r, hmem, hact, rfl, rfl⟩

-- ========================================================= flowspec_rules

/-- The key columns of `flowspec_rules`: `dst`, `proto`, `dst_port`. -/
abbrev FlowRow : Type := IpAddr × BitVec 8 × BitVec 16

/-- The value columns of `flowspec_rules`. -/
structure FlowSpecValue where
  rate : F32
  origin : BlackholeOrigin
  deriving DecidableEq, Repr

/-- The upsert's `SET` clause. -/
def FlowSpecValue.merge (old new : FlowSpecValue) : FlowSpecValue :=
  { rate := new.rate, origin := mergeOrigin old.origin new.origin }

abbrev FlowSpecRules : Type := Rows FlowRow FlowSpecValue

def recordFlowspec (row : FlowRow) (rate : F32) (origin : BlackholeOrigin)
    (atMs : Nat) (tbl : FlowSpecRules) : FlowSpecRules :=
  tbl.upsert FlowSpecValue.merge row ⟨rate, origin⟩ (min atMs i64Max)

def clearFlowspec (row : FlowRow) (atMs : Nat) (onlyAuto : Bool)
    (tbl : FlowSpecRules) : FlowSpecRules :=
  tbl.close (fun v => !onlyAuto || decide (v.origin = .auto)) row
    (min atMs i64Max)

/-- `flatten_flowspec`: a rule as the table's columns. -/
def flattenFlowspec (rule : FlowSpecRule) : FlowRow × F32 :=
  ((rule.dst.addr, rule.protocol.getD 0, rule.dstPort.getD 0),
    rule.action.rate)

end Blackwall.State
