/-
Merging discovered services into a base policy
(`blackwall-discovery`: `reconcile.rs`).
-/
import Blackwall.Base.Run
import Blackwall.Core.Policy

namespace Blackwall.Discovery

open Base Blackwall.Core

inductive DiscoverySource
  | host
  | incus
  deriving DecidableEq, Repr

structure DiscoveredService where
  addr : IpAddr
  proto : L4Proto
  port : BitVec 16
  target : ServiceTarget
  source : DiscoverySource
  deriving DecidableEq, Repr

def discoveredTenant : String := "discovered"

def serviceExists (policy : Policy) (addr : IpAddr) (proto : L4Proto)
    (port : BitVec 16) : Bool :=
  policy.tenants.any fun t =>
    t.owned.contains addr
      && t.allows.any fun a =>
        a.proto = proto && a.port = port && a.scope.all fun s => s = addr

def owningTenantIndex (policy : Policy) (addr : IpAddr) : Option Nat :=
  policy.tenants.findIdx? fun t => t.owned.contains addr

def attachToSynthetic (addr : IpAddr) (rule : AllowRule)
    (policy : Policy) : Policy :=
  match policy.tenants.findIdx? fun t => t.name = discoveredTenant with
  | some idx =>
      { policy with
        tenants := policy.tenants.modify idx fun t =>
          { t with
            owned := if t.owned.contains addr then t.owned
              else t.owned ++ [addr]
            allows := t.allows ++ [rule] } }
  | none =>
      { policy with
        tenants := policy.tenants
          ++ [{ name := discoveredTenant, owned := [addr]
                allows := [rule] }] }

/-- The rule of a discovered service: on the observed address only. -/
def ruleOf (svc : DiscoveredService) : AllowRule :=
  { proto := svc.proto, port := svc.port, target := svc.target
    scope := some svc.addr }

/-- One turn of `reconcile`'s loop. -/
def merge (svc : DiscoveredService) (effective : Policy) : Policy :=
  if !effective.prefixes.any fun n => n.contains svc.addr then effective
  else if serviceExists effective svc.addr svc.proto svc.port then effective
  else
    match owningTenantIndex effective svc.addr with
    | some idx =>
        { effective with
          tenants := effective.tenants.modify idx fun t =>
            { t with allows := t.allows ++ [ruleOf svc] } }
    | none => attachToSynthetic svc.addr (ruleOf svc) effective

def reconcile (base : Policy) (discovered : List DiscoveredService) :
    Policy :=
  run merge base discovered

end Blackwall.Discovery
