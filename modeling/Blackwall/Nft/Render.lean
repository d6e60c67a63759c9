/-
From a policy to the commands of one nftables transaction, and their
application (`blackwall-nft`: `render.rs`, `apply.rs`).

Each numbered block of the source's `render` is a definition; the rules
of a block are a list. How a socket address is displayed in a comment is
an argument.
-/
import Blackwall.Core.Policy
import Blackwall.Nft.Schema

namespace Blackwall.Nft

open Base Blackwall.Core

-- ================================================================== matches

def iifnameMatch (iface : String) : Statement :=
  .matches (.atom (.metaKey .iifname)) (.atom (.string iface)) .eq

/-- `meta l4proto == / != proto`. -/
def l4protoMatch (op : Operator) (proto : String) : Statement :=
  .matches (.atom (.metaKey .l4proto)) (.atom (.string proto)) op

/-- `ip` or `ip6`. -/
def protoName (a : IpAddr) : String := if a.isIpv4 then "ip" else "ip6"

/-- `daddr` in a managed prefix. -/
def inPrefix (n : IpNet) : Statement :=
  .matches (.atom (.payload (protoName n.addr) "daddr")) (.net n) .eq

-- =========================================================== the open sets

/-- The element of a service. -/
def setElement (s : ResolvedService) : Expression :=
  .concat [.addr s.addr, .string s.proto.text, .number s.port.toNat]

def setElementsFor (resolved : List ResolvedService)
    (predicate : ResolvedService → Bool) : List Expression :=
  (resolved.filter predicate).map setElement

/-- Blocks 3 and 4: a named set of open services. -/
def realSet (name : String) (addrType : SetType)
    (elements : List Expression) : NamedSet :=
  { name, setType := [addrType, .inetProto, .inetService]
    elem := if elements.isEmpty then none else some elements }

def realV4 (resolved : List ResolvedService) : NamedSet :=
  realSet "real_v4" .ipv4Addr
    (setElementsFor resolved fun s => s.addr.isIpv4)

def realV6 (resolved : List ResolvedService) : NamedSet :=
  realSet "real_v6" .ipv6Addr
    (setElementsFor resolved fun s => s.addr.isIpv6)

-- ================================================== the prerouting chain

/-- Block 5. -/
def preroutingChain : Chain :=
  { name := "prerouting", type := .filter, hook := .prerouting
    prio := -300, policy := .accept }

/-- Block 6: accept the members of one set. -/
def acceptRule (iface setName nfproto : String) : Rule :=
  let daddrField := if setName = "real_v4" then "ip" else "ip6"
  { chain := "prerouting"
    expr :=
      [iifnameMatch iface,
        .matches (.atom (.metaKey .nfproto)) (.atom (.string nfproto)) .eq,
        .matches
          (.concat [.payload daddrField "daddr", .metaKey .l4proto,
            .payload "th" "dport"])
          (.setRef setName) .inside,
        .accept]
    comment := "real service: accept (nat: targets DNAT'd in the nat chain)" }

def acceptRules (p : Policy) : List Rule :=
  [acceptRule p.interface "real_v4" "ipv4",
    acceptRule p.interface "real_v6" "ipv6"]

/-- Block 7: stateless TCP ports are queued, ahead of the tproxy rules. -/
def statelessTcpRules (p : Policy) : List Rule :=
  if p.statelessTcpPorts.isEmpty then []
  else
    let portSet := p.statelessTcpPorts.map BitVec.toNat
    let num := p.engine.nfqueueNum.toNat
    p.prefixes.map fun n =>
      { chain := "prerouting"
        expr :=
          [iifnameMatch p.interface, l4protoMatch .eq "tcp", inPrefix n,
            .matches (.atom (.payload "th" "dport")) (.numbers portSet)
              .inside,
            .queue num]
        comment := "deception TCP (stateless ports): queue to nfqueue "
          ++ toString num }

/-- Block 8. -/
def tproxyRules (p : Policy) (ids : InstanceIds) : List Rule :=
  let port := p.engine.tproxyPort.toNat
  p.prefixes.map fun n =>
    { chain := "prerouting"
      expr :=
        [iifnameMatch p.interface, l4protoMatch .eq "tcp", inPrefix n,
          .mangle .mark ids.tproxyMark.toNat,
          .tproxy (protoName n.addr) port, .accept]
      comment := "deception TCP: tproxy to engine port " ++ toString port }

/-- Block 9. -/
def queueRules (p : Policy) : List Rule :=
  let num := p.engine.nfqueueNum.toNat
  p.prefixes.map fun n =>
    { chain := "prerouting"
      expr :=
        [iifnameMatch p.interface, l4protoMatch .neq "tcp", inPrefix n,
          .queue num]
      comment := "deception ICMP/UDP: queue to nfqueue " ++ toString num }

/-- Block 10. -/
def dropRules (p : Policy) : List Rule :=
  if p.defaultState = .closed then
    [{ chain := "prerouting"
       expr := [iifnameMatch p.interface, .drop]
       comment := "closed posture: drop unmatched traffic on the "
        ++ "managed interface" }]
  else []

/-- The rules of the prerouting chain. -/
def preroutingRules (p : Policy) (ids : InstanceIds) : List Rule :=
  acceptRules p ++ statelessTcpRules p ++ tproxyRules p ids
    ++ queueRules p ++ dropRules p

-- ======================================================== the dnat chain

/-- Block 6b. -/
def dnatChain : Chain :=
  { name := "dnat", type := .nat, hook := .prerouting, prio := -100
    policy := .accept }

/-- The rule of a service with a fixed backend of its own family. -/
def dnatRule (disp : SocketAddr → String) (iface : String)
    (svc : ResolvedService) : Option Rule :=
  match svc.target with
  | .nat backend =>
      if svc.addr.isIpv4 ≠ backend.ip.isIpv4 then none
      else
        let natFamily : NatFamily := if svc.addr.isIpv4 then .ip else .ip6
        some
          { chain := "dnat"
            expr :=
              [iifnameMatch iface,
                .matches (.atom (.payload (protoName svc.addr) "daddr"))
                  (.atom (.addr svc.addr)) .eq,
                l4protoMatch .eq svc.proto.text,
                .matches (.atom (.payload "th" "dport"))
                  (.atom (.number svc.port.toNat)) .eq,
                .dnat backend.ip natFamily backend.port.toNat]
            comment := "real service DNAT → " ++ disp backend }
  | _ => none

def dnatRules (disp : SocketAddr → String) (p : Policy)
    (resolved : List ResolvedService) : List Rule :=
  resolved.filterMap (dnatRule disp p.interface)

-- ========================================================= the flowtable

/-- Block 11: the flowtable on the operator's devices. -/
def fastPath (devices : List String) : FlowTable :=
  { name := "ft", hook := .ingress, prio := 0, dev := devices }

def forwardChain : Chain :=
  { name := "forward", type := .filter, hook := .forward, prio := 0
    policy := .accept }

def offloadRule (p : Policy) : Rule :=
  { chain := "forward"
    expr :=
      [iifnameMatch p.interface,
        .matches (.ct "state") (.atom (.string "established")) .inside,
        .flow "@ft"]
    comment := "real-service fast path: offload established flows" }

def flowtableOps (p : Policy) : List TableOp :=
  match p.flowtable with
  | none => []
  | some devices =>
      [.addFlowTable (fastPath devices), .addChain forwardChain,
        .addRule (offloadRule p)]

-- ================================================================ render

/-- The commands after the table's creation, in the source's order. -/
def tableOps (disp : SocketAddr → String) (p : Policy) (ids : InstanceIds)
    (resolved : List ResolvedService) : List TableOp :=
  [.flush, .addSet (realV4 resolved), .addSet (realV6 resolved),
    .addChain preroutingChain]
  ++ (preroutingRules p ids).map .addRule
  ++ [.addChain dnatChain]
  ++ (dnatRules disp p resolved).map .addRule
  ++ flowtableOps p

def render (disp : SocketAddr → String) (p : Policy) :
    Except PolicyError (List NfCmd) := do
  let resolved ← p.resolve
  let ids := InstanceIds.derive p.instanceName
  return .addTable ids.nftTable
    :: (tableOps disp p ids resolved).map (.on ids.nftTable)

/-- Why `apply` failed. -/
inductive NftError
  | render (err : PolicyError)
  | ruleset
  | route
  deriving DecidableEq, Repr

/-- `apply`: one transaction, then the policy route; without the route the
table is torn down again. -/
def apply (disp : SocketAddr → String) (routeOk : Bool) (p : Policy)
    (k : Kernel) : Except NftError Unit × Kernel :=
  match render disp p with
  | .error err => (.error (.render err), k)
  | .ok cmds =>
      match transact cmds k with
      | none => (.error .ruleset, k)
      | some k' =>
          if routeOk then (.ok (), k')
          else
            let name := (InstanceIds.derive p.instanceName).nftTable
            (.error .route, deleteTable name k')

end Blackwall.Nft
