/-
The part of the nftables JSON schema the ruleset is written in, and what
nft does with it.

# The schema

A command names the table it works on. Addresses stand as addresses, not
as the text nft parses back to them, and a reference to a named set (a
string that begins with an at sign) is a constructor of its own. The
family is always `inet`. Handles and the optional fields that are never
set are left out.

# The semantics

A table holds named sets, chains with their rules, and flowtables. Adding
what exists changes nothing, except that a set gets the elements it is
given; a rule goes to the end of its chain; flushing a table empties its
chains and leaves its sets alone. A command on a table, or for a chain,
that does not exist fails, and a transaction whose command fails leaves
everything as it was.
-/
import Mathlib.Data.Finset.Basic
import Blackwall.Base.Dict
import Blackwall.Net

namespace Blackwall.Nft

open Base

-- =========================================================== expressions

inductive MetaKey
  | iifname
  | nfproto
  | l4proto
  | mark
  deriving DecidableEq, Repr

/-- An expression without parts. -/
inductive Atom
  | string (s : String)
  | number (n : Nat)
  | addr (a : IpAddr)
  | metaKey (key : MetaKey)
  | payload (protocol field : String)
  deriving DecidableEq, Repr

inductive Expression
  | atom (a : Atom)
  | concat (parts : List Atom)
  | net (n : IpNet)
  | numbers (items : List Nat)
  | setRef (name : String)
  | ct (key : String)
  deriving DecidableEq, Repr

inductive Operator
  | eq
  | neq
  | inside
  deriving DecidableEq, Repr

inductive NatFamily
  | ip
  | ip6
  deriving DecidableEq, Repr

inductive Statement
  | matches (left right : Expression) (op : Operator)
  | accept
  | drop
  | queue (num : Nat)
  | mangle (key : MetaKey) (value : Nat)
  | tproxy (family : String) (port : Nat)
  | dnat (addr : IpAddr) (family : NatFamily) (port : Nat)
  | flow (flowtable : String)
  deriving DecidableEq, Repr

-- =============================================================== objects

inductive SetType
  | ipv4Addr
  | ipv6Addr
  | inetProto
  | inetService
  deriving DecidableEq, Repr

/-- `Set`; `elem` is absent when there is none. -/
structure NamedSet where
  name : String
  setType : List SetType
  elem : Option (List Expression)
  deriving DecidableEq, Repr

/-- `NfChainType`. -/
inductive ChainType
  | filter
  | nat
  deriving DecidableEq, Repr

/-- `NfHook`. -/
inductive Hook
  | ingress
  | prerouting
  | forward
  deriving DecidableEq, Repr

/-- `NfChainPolicy`. -/
inductive ChainPolicy
  | accept
  | drop
  deriving DecidableEq, Repr

structure Chain where
  name : String
  type : ChainType
  hook : Hook
  prio : Int
  policy : ChainPolicy
  deriving DecidableEq, Repr

structure Rule where
  chain : String
  expr : List Statement
  comment : String
  deriving DecidableEq, Repr

structure FlowTable where
  name : String
  hook : Hook
  prio : Int
  dev : List String
  deriving DecidableEq, Repr

/-- What a command does to its table. -/
inductive TableOp
  | flush
  | addSet (set : NamedSet)
  | addChain (chain : Chain)
  | addRule (rule : Rule)
  | addFlowTable (flowtable : FlowTable)
  deriving DecidableEq, Repr

inductive NfCmd
  | addTable (table : String)
  | on (table : String) (op : TableOp)
  deriving DecidableEq, Repr

-- ============================================================ the kernel

/-- A table: the elements of its sets, its chains with their rules, its
flowtables. -/
structure Table where
  sets : Dict String (List SetType × Finset Expression)
  chains : Dict String (Chain × List Rule)
  flowtables : Dict String FlowTable

/-- A table just added. -/
def Table.empty : Table := ⟨∅, ∅, ∅⟩

/-- The elements of a set; none if there is no such set. -/
def Table.elements (t : Table) (name : String) : Finset Expression :=
  match t.sets.lookup name with
  | some s => s.2
  | none => ∅

/-- The rules of a chain; none if there is no such chain. -/
def Table.rules (t : Table) (name : String) : List Rule :=
  match t.chains.lookup name with
  | some c => c.2
  | none => []

/-- What a command does to its table. -/
def Table.exec (op : TableOp) (t : Table) : Option Table :=
  match op with
  | .flush =>
      some { t with chains := Dict.mapVals (fun _ c => (c.1, [])) t.chains }
  | .addSet s =>
      let given := (s.elem.getD []).toFinset
      let type := match t.sets.lookup s.name with
        | some old => old.1
        | none => s.setType
      let value := (type, t.elements s.name ∪ given)
      some { t with sets := t.sets.insert s.name value }
  | .addChain c =>
      match t.chains.lookup c.name with
      | some _ => some t
      | none => some { t with chains := t.chains.insert c.name (c, []) }
  | .addRule r =>
      match t.chains.lookup r.chain with
      | some (c, rules) =>
          let value := (c, rules ++ [r])
          some { t with chains := t.chains.insert r.chain value }
      | none => none
  | .addFlowTable f =>
      match t.flowtables.lookup f.name with
      | some _ => some t
      | none => some { t with flowtables := t.flowtables.insert f.name f }

/-- The tables by name. -/
abbrev Kernel : Type := Dict String Table

/-- One command. -/
def exec (cmd : NfCmd) (k : Kernel) : Option Kernel :=
  match cmd with
  | .addTable name =>
      match k.lookup name with
      | some _ => some k
      | none => some (k.insert name .empty)
  | .on name op => do
      let t ← k.lookup name
      let t' ← t.exec op
      return k.insert name t'

/-- The commands of one transaction. -/
def transact : List NfCmd → Kernel → Option Kernel
  | [], k => some k
  | cmd :: cmds, k => do
      let k' ← exec cmd k
      transact cmds k'

/-- Delete a table. -/
def deleteTable (name : String) (k : Kernel) : Kernel := k.erase name

end Blackwall.Nft
