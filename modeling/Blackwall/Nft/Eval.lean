/-
What the kernel does with a packet: the evaluation of a chain's rules.

A rule is a list of statements. A match that fails, or that needs a field
the packet does not have, ends the rule; a verdict ends the chain; any
other statement changes the packet and goes on. The rules of a chain are
tried in order, and a packet that no rule decides gets the chain's
policy.

The two protocols the rules write by name are loaded by name, any other
by its number. `tproxy` always finds the engine's socket. No rule of a
hook that is evaluated here asks conntrack, so its fields are not loaded.
-/
import Blackwall.Nft.Schema

namespace Blackwall.Nft

-- =============================================================== packets

/-- What the rules can see and change of a packet. -/
structure Packet where
  iif : String
  daddr : IpAddr
  l4proto : BitVec 8
  /-- The transport header's octets where TCP and UDP have the destination
  port; absent when the header is too short. -/
  dport : Option (BitVec 16)
  mark : Nat
  /-- The local port of the socket `tproxy` gave it to. -/
  socket : Option Nat
  deriving DecidableEq, Repr

inductive Value
  | string (s : String)
  | number (n : Nat)
  | addr (a : IpAddr)
  deriving DecidableEq, Repr

/-- A protocol as `meta l4proto` compares it. -/
def protoValue (proto : BitVec 8) : Value :=
  if proto = 6 then .string "tcp"
  else if proto = 17 then .string "udp"
  else .number proto.toNat

/-- The family of a packet as `meta nfproto` compares it. -/
def familyName : IpAddr → String
  | .v4 _ => "ipv4"
  | .v6 _ => "ipv6"

/-- The network header of a packet. -/
def headerName : IpAddr → String
  | .v4 _ => "ip"
  | .v6 _ => "ip6"

def Atom.load (pkt : Packet) : Atom → Option Value
  | .string s => some (.string s)
  | .number n => some (.number n)
  | .addr a => some (.addr a)
  | .metaKey .iifname => some (.string pkt.iif)
  | .metaKey .nfproto => some (.string (familyName pkt.daddr))
  | .metaKey .l4proto => some (protoValue pkt.l4proto)
  | .metaKey .mark => some (.number pkt.mark)
  | .payload protocol field =>
      if protocol = "th" ∧ field = "dport" then
        pkt.dport.map fun p => .number p.toNat
      else if protocol = headerName pkt.daddr ∧ field = "daddr" then
        some (.addr pkt.daddr)
      else none

/-- The left side of a match, or an element of a set. -/
def Expression.load (pkt : Packet) : Expression → Option (List Value)
  | .atom a => (a.load pkt).map fun v => [v]
  | .concat parts => parts.mapM (Atom.load pkt)
  | _ => none

/-- Are these values on the right side of a match? A prefix masks its host
bits. -/
def Expression.covers (t : Table) (pkt : Packet) (vals : List Value) :
    Expression → Bool
  | .net n =>
      match vals with
      | [.addr a] => n.contains a
      | _ => false
  | .numbers items =>
      match vals with
      | [.number k] => decide (k ∈ items)
      | _ => false
  | .setRef name =>
      decide (∃ e ∈ t.elements name, e.load pkt = some vals)
  | e => decide (e.load pkt = some vals)

-- ================================================================= rules

inductive Verdict
  | accept
  | drop
  | queue (num : Nat)
  deriving DecidableEq, Repr

/-- The network header a `dnat` of this family rewrites. -/
def NatFamily.header : NatFamily → String
  | .ip => "ip"
  | .ip6 => "ip6"

/-- Does the match succeed? -/
def matchHolds (t : Table) (pkt : Packet) (left right : Expression)
    (op : Operator) : Bool :=
  match left.load pkt with
  | none => false
  | some vals =>
      if op = .neq then !right.covers t pkt vals
      else right.covers t pkt vals

/-- The statements of a rule. -/
def evalRule (t : Table) :
    List Statement → Packet → Option Verdict × Packet
  | [], pkt => (none, pkt)
  | .matches left right op :: rest, pkt =>
      if matchHolds t pkt left right op then evalRule t rest pkt
      else (none, pkt)
  | .accept :: _, pkt => (some .accept, pkt)
  | .drop :: _, pkt => (some .drop, pkt)
  | .queue num :: _, pkt => (some (.queue num), pkt)
  | .mangle key value :: rest, pkt =>
      if key = .mark then evalRule t rest { pkt with mark := value }
      else evalRule t rest pkt
  | .tproxy family port :: rest, pkt =>
      if family = headerName pkt.daddr then
        evalRule t rest { pkt with socket := some port }
      else (none, pkt)
  | .dnat addr family port :: rest, pkt =>
      if family.header = headerName pkt.daddr then
        (some .accept, { pkt with daddr := addr
                                  dport := some (BitVec.ofNat 16 port) })
      else evalRule t rest pkt
  | .flow _ :: rest, pkt => evalRule t rest pkt

/-- The rules of a chain, up to the first verdict. -/
def evalRules (t : Table) : List Rule → Packet → Option Verdict × Packet
  | [], pkt => (none, pkt)
  | r :: rs, pkt =>
      match evalRule t r.expr pkt with
      | (some v, pkt') => (some v, pkt')
      | (none, pkt') => evalRules t rs pkt'

/-- The policy of a chain; a chain that is not there accepts. -/
def Table.policy (t : Table) (name : String) : ChainPolicy :=
  match t.chains.lookup name with
  | some c => c.1.policy
  | none => .accept

def ChainPolicy.verdict : ChainPolicy → Verdict
  | .accept => .accept
  | .drop => .drop

/-- A packet's way through a chain. -/
def evalChain (t : Table) (name : String) (pkt : Packet) :
    Verdict × Packet :=
  match evalRules t (t.rules name) pkt with
  | (some v, pkt') => (v, pkt')
  | (none, pkt') => ((t.policy name).verdict, pkt')

end Blackwall.Nft
