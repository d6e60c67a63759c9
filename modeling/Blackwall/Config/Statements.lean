/-
The configuration language without its parser: a configuration is a list
of statements, and what it means is said field by field.

A statement is a directive with what was read behind it. `readStmt` reads
one from the lines, `readAll` reads them all, and neither looks at what
was said before. What the statements mean together is `Draft.of`: a field
is made of the statements of one directive and of no other, so the order
of directives plays no part in it. `Complete` says when that is a policy,
and `Valid` is the one thing a statement can be refused for because of the
others.
-/
import Blackwall.Config.Parser

namespace Blackwall.Config

open Base
open Core (PortState SocketAddr Tenant)

-- ============================================================= statements

/-- What is read behind a directive. -/
abbrev Directive.Payload : Directive → Type
  | .interface => String
  | .family => IpNet
  | .protect => IpNet
  | .default => PortState
  | .tenant => Tenant
  | .shape => ShapeRule
  | .bannerFlux => BannerFluxConfig
  | .dnsFlux => DnsFluxConfig
  | .rtbh => RtbhPolicy
  | .flowspec => FlowSpecPolicy
  | .metrics => List SocketAddr
  | .api => ApiConfig
  | .pop => PopEntry
  | .engine => List EngineKnob
  | .flowtable => List String
  | .xdp => XdpConfig
  | .statelessTcp => List (BitVec 16)
  | .shadow => Unit
  | .instanceName => String
  | .rpkiValidator => String
  | .rpkiCheckInterval => Nat

/-- A statement. -/
structure Stmt where
  kind : Directive
  payload : kind.Payload

section Reading

variable (m : Build) (std : FromStr)

/-- What is read behind a directive, and how many lines behind its own are
part of it. -/
def readDirective (line : Line) (rest : List Line) (args : List Text)
    (value : Text) : Directive → Parse (Stmt × Nat)
  | .interface =>
      match args with
      | [_, iface] => .ok (⟨.interface, String.ofList iface⟩, 0)
      | _ => .error (unexpected line "interface <name> <iface>")
  | .family =>
      match args with
      | [raw] => do
          let net ← parseCidr std line raw
          return (⟨.family, net⟩, 0)
      | _ => .error (unexpected line "<family> <cidr>")
  | .protect =>
      match args with
      | [raw] => do
          let net ← parseCidr std line raw
          return (⟨.protect, net⟩, 0)
      | _ => .error (unexpected line "protect <cidr>")
  | .default =>
      match args with
      | [state] =>
          if state = "deception".toList then
            .ok (⟨.default, .deception⟩, 0)
          else if state = "drop".toList then
            .ok (⟨.default, .closed⟩, 0)
          else .error (bad line "default state" state)
      | _ => .error (unexpected line "default deception|drop")
  | .tenant => do
      let (t, used) ← parseTenant std line args rest
      return (⟨.tenant, t⟩, used)
  | .shape => do
      let rule ← parseShape line args
      return (⟨.shape, rule⟩, 0)
  | .bannerFlux => do
      let cfg ← parseBannerFlux m line args
      return (⟨.bannerFlux, cfg⟩, 0)
  | .dnsFlux => do
      let kv ← readKeys line "dns-flux" dnsFluxKeys ∅ args
      let cfg ← parseDnsFlux m std ⟨line, "dns-flux", kv⟩
      return (⟨.dnsFlux, cfg⟩, 0)
  | .rtbh => do
      let kv ← readKeys line "rtbh" rtbhKeys ∅ args
      let cfg ← parseRtbh m std ⟨line, "rtbh", kv⟩
      return (⟨.rtbh, cfg⟩, 0)
  | .flowspec => do
      let kv ← readKeys line "flowspec" flowspecKeys ∅ args
      let cfg ← parseFlowspec m std ⟨line, "flowspec", kv⟩
      return (⟨.flowspec, cfg⟩, 0)
  | .metrics => do
      let listens ← args.mapM (parseMetrics std line)
      return (⟨.metrics, listens⟩, 0)
  | .api => do
      let cfg ← parseApi std line args
      return (⟨.api, cfg⟩, 0)
  | .pop => do
      let pop ← parsePop std line args
      return (⟨.pop, pop⟩, 0)
  | .engine => do
      let knobs ← args.mapM (parseEngine line)
      return (⟨.engine, knobs⟩, 0)
  | .flowtable => do
      let devices ← parseFlowtable line args
      return (⟨.flowtable, devices⟩, 0)
  | .xdp => do
      let cfg ← parseXdp line args
      return (⟨.xdp, cfg⟩, 0)
  | .statelessTcp => do
      let ports ← args.mapM (parseStatelessTcp line)
      return (⟨.statelessTcp, ports.flatten⟩, 0)
  | .shadow => do
      ensure (args = []) (bad line "shadow"
        ([' '].intercalate args))
      return (⟨.shadow, ()⟩, 0)
  | .instanceName => do
      ensure (args = []) (unexpected line "instance=<name>")
      ensure (value ≠ []) (bad line "instance"
        "empty (expected instance=<name>)".toList)
      return (⟨.instanceName, String.ofList value⟩, 0)
  | .rpkiValidator => do
      ensure (args = []) (unexpected line "rpki-validator=<url>")
      ensure (value ≠ []) (bad line "rpki-validator"
        "empty url".toList)
      return (⟨.rpkiValidator, String.ofList value⟩, 0)
  | .rpkiCheckInterval => do
      ensure (args = [])
        (unexpected line "rpki-check-interval=<dur>")
      let interval ← parseDuration m line value
      return (⟨.rpkiCheckInterval, interval⟩, 0)

/-- The statement that starts with this line. -/
def readStmt (line : Line) (rest : List Line) : Parse (Stmt × Nat) :=
  match line.words with
  | [] => .error (.panic .bounds)
  | word :: args =>
      match Directive.ofWord word with
      | none => .error (.config (.unknownDirective line.number word))
      | some (k, value) => readDirective m std line rest args value k

/-- The statements of the lines, the first `used` of which are part of one
that has been read. -/
def readFrom : (used : Nat) → List Line → Parse (List Stmt)
  | _, [] => .ok []
  | used + 1, _ :: rest => readFrom used rest
  | 0, line :: rest => do
      let (s, used) ← readStmt m std line rest
      let ss ← readFrom used rest
      return s :: ss

/-- The statements of a configuration. -/
def readAll (lines : List Line) : Parse (List Stmt) := readFrom m std 0 lines

end Reading

-- ================================================================ meaning

/-- What a statement says, if it is of this directive. -/
def Stmt.about (k : Directive) (s : Stmt) : Option k.Payload :=
  if h : s.kind = k then some (h ▸ s.payload) else none

/-- What the statements of one directive say, in order. -/
def said (k : Directive) (ss : List Stmt) : List k.Payload :=
  ss.filterMap (Stmt.about k)

/-- What the statements mean, whether or not they are valid. -/
def Draft.of (ss : List Stmt) : Draft where
  interface := (said .interface ss).getLast?
  prefixes := said .family ss
  protectedPrefixes := said .protect ss
  defaultState := (said .default ss).getLast?.getD .deception
  tenants := said .tenant ss
  shaping := said .shape ss
  bannerFlux := (said .bannerFlux ss).getLast?
  dnsFlux := (said .dnsFlux ss).getLast?
  rtbh := (said .rtbh ss).getLast?
  flowspec := (said .flowspec ss).getLast?
  metricsListen := (said .metrics ss).flatten.getLast?
  api := (said .api ss).getLast?
  pops := said .pop ss
  engine := (said .engine ss).flatten.foldl EngineConfig.set .default
  flowtable := (said .flowtable ss).getLast?
  xdp := (said .xdp ss).getLast?
  statelessTcpPorts := (said .statelessTcp ss).flatten
  shadow := !(said .shadow ss).isEmpty
  instanceName := (said .instanceName ss).getLast?
  rpkiValidator := (said .rpkiValidator ss).getLast?
  rpkiCheckInterval := (said .rpkiCheckInterval ss).getLast?.getD 3600

/-- Two statements of the same directive that cannot stand together: a
second one where one is all there may be, a POP under a name or an agent
that is taken. -/
def Clash : (k : Directive) → k.Payload → k.Payload → Prop
  | .bannerFlux, _, _ => True
  | .dnsFlux, _, _ => True
  | .rtbh, _, _ => True
  | .flowspec, _, _ => True
  | .flowtable, _, _ => True
  | .instanceName, _, _ => True
  | .rpkiValidator, _, _ => True
  | .pop, p, q => p.agent = q.agent ∨ p.name = q.name
  | _, _, _ => False

/-- No two statements clash. -/
def Valid (ss : List Stmt) : Prop :=
  ∀ k, (said k ss).Pairwise fun x y => ¬ Clash k x y

/-- What a whole configuration has to say: an interface, and with
`flowspec` the `rtbh` whose session it shares. -/
structure Complete (ss : List Stmt) (p : Policy) : Prop where
  valid : Valid ss
  interface : (said .interface ss).getLast? = some p.interface
  session : said .flowspec ss ≠ [] → said .rtbh ss ≠ []
  settings : p.toSettings = (Draft.of ss).toSettings

end Blackwall.Config
