/-
The desired-state policy and its expansion into real services
(`blackwall-core`: `policy.rs`, `resolve.rs`, `instance.rs`).

The fields of `Policy` that configure other planes (shaping, flux, RTBH,
FlowSpec, XDP, metrics, API, POPs, RPKI) are left out; nothing below
reads them. `Display` of an address is an argument of the error texts.
-/
import Blackwall.Net

namespace Blackwall

open Base

/-- `IpAddr::is_ipv4`. -/
def IpAddr.isIpv4 : IpAddr → Bool
  | .v4 _ => true
  | .v6 _ => false

/-- `IpAddr::is_ipv6`. -/
def IpAddr.isIpv6 (a : IpAddr) : Bool := !a.isIpv4

namespace Core

-- ============================================================== the policy

/-- `L4Proto`. -/
inductive L4Proto
  | tcp
  | udp
  deriving DecidableEq, Repr

/-- `L4Proto`'s `Display`. -/
def L4Proto.text : L4Proto → String
  | .tcp => "tcp"
  | .udp => "udp"

inductive PortState
  | closed
  | deception
  | opened
  deriving DecidableEq, Repr

/-- `std::net::SocketAddr`. -/
structure SocketAddr where
  ip : IpAddr
  port : BitVec 16
  deriving DecidableEq, Repr

inductive ServiceTarget
  | host
  | incus (name : String)
  | nat (backend : SocketAddr)
  deriving DecidableEq, Repr

structure AllowRule where
  proto : L4Proto
  port : BitVec 16
  target : ServiceTarget
  scope : Option IpAddr
  deriving DecidableEq, Repr

structure Tenant where
  name : String
  owned : List IpAddr
  allows : List AllowRule
  deriving DecidableEq, Repr

/-- `EngineConfig`, as far as the ruleset reads it. -/
structure EngineConfig where
  tproxyPort : BitVec 16
  nfqueueNum : BitVec 16
  deriving DecidableEq, Repr

structure Policy where
  interface : String
  prefixes : List IpNet
  defaultState : PortState
  tenants : List Tenant
  engine : EngineConfig
  /-- The devices of the `flowtable` directive. -/
  flowtable : Option (List String)
  statelessTcpPorts : List (BitVec 16)
  /-- The name of the `instance` directive. -/
  instanceName : Option String
  deriving DecidableEq, Repr

-- =============================================================== resolve

structure ResolvedService where
  addr : IpAddr
  proto : L4Proto
  port : BitVec 16
  target : ServiceTarget
  tenant : String
  deriving DecidableEq, Repr

/-- What a service opens. -/
def ResolvedService.key (s : ResolvedService) :
    IpAddr × L4Proto × BitVec 16 :=
  (s.addr, s.proto, s.port)

inductive PolicyError
  | addressOutsidePrefixes (addr : IpAddr)
  | duplicateOwnership (addr : IpAddr) (tenants : String × String)
  | duplicateService (addr : IpAddr) (proto : L4Proto) (port : BitVec 16)
  deriving DecidableEq, Repr

/-- The message of an error, given how an address is displayed. -/
def PolicyError.text (disp : IpAddr → String) : PolicyError → String
  | .addressOutsidePrefixes addr =>
      "address " ++ disp addr ++ " is not within any managed prefix"
  | .duplicateOwnership addr tenants =>
      "address " ++ disp addr ++ " is owned by both " ++ tenants.1
        ++ " and " ++ tenants.2
  | .duplicateService addr proto port =>
      "service " ++ disp addr ++ " " ++ proto.text ++ "/"
        ++ toString port.toNat ++ " is defined more than once"

namespace Policy

/-- The addresses of the tenants in the order of the loops, each with its
tenant. -/
def ownership (p : Policy) : List (IpAddr × String) :=
  p.tenants.flatMap fun t => t.owned.map fun addr => (addr, t.name)

/-- `resolve`'s first loop, with the owners seen so far. -/
def checkOwnership (p : Policy) (seenOwner : List (IpAddr × String)) :
    List (IpAddr × String) → Except PolicyError Unit
  | [] => .ok ()
  | (addr, name) :: rest =>
      if !p.prefixes.any fun n => n.contains addr then
        .error (.addressOutsidePrefixes addr)
      else
        match seenOwner.find? fun o => o.1 = addr with
        | some (_, other) => .error (.duplicateOwnership addr (other, name))
        | none => p.checkOwnership (seenOwner ++ [(addr, name)]) rest

/-- The services of the tenants in the order of the loops: an allow with a
scope counts on its own address only. -/
def services (p : Policy) : List ResolvedService :=
  p.tenants.flatMap fun t => t.owned.flatMap fun addr =>
    (t.allows.filter fun allow =>
      !allow.scope.any fun own => own ≠ addr).map fun allow =>
      { addr, proto := allow.proto, port := allow.port
        target := allow.target, tenant := t.name }

/-- `resolve`'s second loop, with the services put out so far. -/
def collectServices (out : List ResolvedService) :
    List ResolvedService → Except PolicyError (List ResolvedService)
  | [] => .ok out
  | s :: rest =>
      if out.any fun o => o.addr = s.addr && o.proto = s.proto
          && o.port = s.port then
        .error (.duplicateService s.addr s.proto s.port)
      else collectServices (out ++ [s]) rest

/-- `Policy::resolve`. -/
def resolve (p : Policy) : Except PolicyError (List ResolvedService) := do
  p.checkOwnership [] p.ownership
  collectServices [] p.services

theorem collectServices_ok {out rest r : List ResolvedService}
    (h : collectServices out rest = .ok r) : r = out ++ rest := by
  induction rest generalizing out with
  | nil =>
      cases h
      exact (List.append_nil _).symm
  | cons s rest ih =>
      rw [collectServices] at h
      split at h
      · cases h
      · rw [ih h, List.append_assoc, List.singleton_append]

/-- A policy that resolves resolves to its services, in order. -/
theorem resolve_ok {p : Policy} {r : List ResolvedService}
    (h : p.resolve = .ok r) : r = p.services := by
  unfold resolve at h
  cases hown : p.checkOwnership [] p.ownership with
  | error err =>
      rw [hown] at h
      cases h
  | ok u =>
      rw [hown] at h
      exact collectServices_ok h

end Policy

-- ============================================================= instances

/-- `fnv1a64`. -/
def fnv1a64 (s : List Byte) : BitVec 64 :=
  s.foldl (fun hash b => (hash ^^^ b.setWidth 64) * 0x100000001b3)
    0xcbf29ce484222325

structure InstanceIds where
  nftTable : String
  tproxyMark : BitVec 32
  routeTable : BitVec 32
  deriving DecidableEq, Repr

def InstanceIds.derive : Option String → InstanceIds
  | none => ⟨"blackwall", 1, 100⟩
  | some name =>
      let bytes := name.toUTF8.toList.map fun b => b.toBitVec
      let h := fnv1a64 bytes
      let lo := h.setWidth 32
      let hi := (h >>> 32).setWidth 32
      { nftTable := "blackwall_" ++ name
        tproxyMark := 0x80000000 ||| (lo &&& 0x7fffffff)
        routeTable := 0x40000000 ||| (hi &&& 0x3fffffff) }

end Core

end Blackwall
