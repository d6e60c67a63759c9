/-
The parser of the configuration language (`blackwall-config`: `parser.rs`,
`error.rs`, `lib.rs`).

# What is left open

Addresses, prefixes and floats are read by the standard library and by
`ipnet`; `FromStr` is whatever they do. Unsigned integers are read here.

# How it ends

A parse ends in a policy, in a `ConfigError` or in a panic. The loops
index the words of a line, which panics on a line without words, and
`parse_duration` multiplies, which panics in a debug build and wraps in a
release build when the product does not fit.

# The loop

`parse` runs an index over the lines and lets `parse_tenant` move it past
a block. Here the loop takes the lines one by one and a number of lines
that are already used up.
-/
import Mathlib.Data.Finmap
import Blackwall.Base.Tokens
import Blackwall.Base.Usize
import Blackwall.Config.Lexer
import Blackwall.Config.Policy

namespace Blackwall.Config

open Base
open Core (AllowRule L4Proto PortState ServiceTarget SocketAddr Tenant)

-- ================================================================= errors

/-- `ConfigError`, of a configuration that was read from its file. -/
inductive ConfigError
  | unexpectedToken (line : Nat) (found : Text) (expected : String)
  | unknownDirective (line : Nat) (word : Text)
  | badValue (line : Nat) (what : String) (value : Text)
  | resolve (e : Core.PolicyError)
  deriving DecidableEq, Repr

/-- The line an error names. -/
def ConfigError.line : ConfigError → Option Nat
  | .unexpectedToken line _ _ => some line
  | .unknownDirective line _ => some line
  | .badValue line _ _ => some line
  | .resolve _ => none

/-- The message of an error, given how an address is displayed. -/
def ConfigError.text (disp : IpAddr → String) : ConfigError → String
  | .unexpectedToken line found expected =>
      "line " ++ toString line ++ ": expected " ++ expected ++ ", found '"
        ++ String.ofList found ++ "'"
  | .unknownDirective line word =>
      "line " ++ toString line ++ ": unknown directive '"
        ++ String.ofList word ++ "'"
  | .badValue line what value =>
      "line " ++ toString line ++ ": invalid " ++ what ++ ": '"
        ++ String.ofList value ++ "'"
  | .resolve e => "config failed validation: " ++ e.text disp

/-- How a parse ends without a policy. -/
inductive Halt
  | config (e : ConfigError)
  | panic (p : Panic)
  deriving DecidableEq, Repr

/-- A step of the parser. -/
abbrev Parse (α : Type) : Type := Except Halt α

/-- `FromStr` of the types that are not unsigned integers. -/
structure FromStr where
  ipAddr : Text → Option IpAddr
  ipv4Addr : Text → Option (BitVec 32)
  ipv6Addr : Text → Option (BitVec 128)
  socketAddr : Text → Option SocketAddr
  ipNet : Text → Option IpNet
  f64 : Text → Option F64
  f32 : Text → Option F32

/-- `ConfigError::BadValue` at a line. -/
def bad (line : Line) (what : String) (value : Text) : Halt :=
  .config (.badValue line.number what value)

/-- `ConfigError::UnexpectedToken` with the whole line as what was
found. -/
def unexpected (line : Line) (expected : String) : Halt :=
  .config (.unexpectedToken line.number
    ([' '].intercalate line.words) expected)

/-- `ok_or_else` and `map_err` with a `BadValue`. -/
def orBad {α : Type} (line : Line) (what : String) (value : Text)
    (x : Option α) : Parse α :=
  match x with
  | some a => .ok a
  | none => .error (bad line what value)

/-- Go on under a condition. -/
def ensure (P : Prop) [Decidable P] (e : Halt) : Parse Unit :=
  if P then .ok () else .error e

-- ================================================================= values

section Values

variable (m : Build) (std : FromStr)

def parseCidr (line : Line) (raw : Text) : Parse IpNet :=
  orBad line "cidr" raw (std.ipNet raw)

def parseMbit (line : Line) (token : Text) : Parse (BitVec 32) :=
  orBad line "bandwidth" token
    ((stripSuffix "mbit".toList token).bind (uint 32))

def parseMs (line : Line) (token : Text) : Parse (BitVec 32) :=
  orBad line "rtt" token ((stripSuffix "ms".toList token).bind (uint 32))

/-- `parse_duration`, in seconds. -/
def parseDuration (line : Line) (token : Text) : Parse Nat := do
  let (digits, mult) ← orBad line "duration" token
    (((stripSuffix ['h'] token).map (·, 3600)).or
      (((stripSuffix ['m'] token).map (·, 60)).or
        ((stripSuffix ['s'] token).map (·, 1))))
  let n ← orBad line "duration" token (uint 64 digits)
  (m.mul n.toNat mult).mapError Halt.panic

def parseTarget (line : Line) (raw : Text) : Parse ServiceTarget :=
  if raw = "host".toList then .ok .host
  else
    match stripPrefix "incus:".toList raw with
    | some name => .ok (.incus (String.ofList name))
    | none =>
        match stripPrefix "nat:".toList raw with
        | some sockaddr => do
            let backend ← orBad line "nat target" raw
              (std.socketAddr sockaddr)
            return .nat backend
        | none => .error (bad line "target" raw)

/-- An address that may come without its port. -/
def addressOr (port : BitVec 16) (token : Text) : Option SocketAddr :=
  (std.socketAddr token).or ((std.ipAddr token).map (⟨·, port⟩))

/-- A port of a list, which is not 0. -/
def parsePort (line : Line) (what : String) (token : Text) :
    Parse (BitVec 16) := do
  let n ← orBad line what (trim token) (uint 16 (trim token))
  ensure (n ≠ 0) (bad line what (trim token))
  return n

/-- A list of ports between commas. -/
def parsePorts (line : Line) (what : String) (v : Text) :
    Parse (List (BitVec 16)) :=
  (v.splitOn ',').mapM (parsePort line what)

/-- The bytes `\x` is kept as. -/
def verbatimX : List Byte := [0x5C, 0x78]

def decodeBannerEscapes : Text → List Byte
  | [] => []
  | c :: cs =>
      if c ≠ '\\' then encodeUtf8 c ++ decodeBannerEscapes cs
      else
        match cs with
        | [] => [0x5C]
        | e :: rest =>
            if e = 'n' then 0x0A :: decodeBannerEscapes rest
            else if e = 'r' then 0x0D :: decodeBannerEscapes rest
            else if e = 't' then 0x09 :: decodeBannerEscapes rest
            else if e = 's' then 0x20 :: decodeBannerEscapes rest
            else if e = '\\' then 0x5C :: decodeBannerEscapes rest
            else if e = 'x' then
              match rest with
              | [] => verbatimX
              | c₁ :: rest₁ =>
                  match hexDigit c₁ with
                  | none => verbatimX ++ decodeBannerEscapes (c₁ :: rest₁)
                  | some hi =>
                      match rest₁ with
                      | [] => verbatimX ++ encodeUtf8 c₁
                      | c₂ :: rest₂ =>
                          match hexDigit c₂ with
                          | some lo =>
                              BitVec.ofNat 8 (hi * 16 + lo)
                                :: decodeBannerEscapes rest₂
                          | none =>
                              verbatimX ++ encodeUtf8 c₁
                                ++ decodeBannerEscapes (c₂ :: rest₂)
            else 0x5C :: (encodeUtf8 e ++ decodeBannerEscapes rest)

-- ============================================================== key=value

/-- `tok.split_once('=')`. -/
def keyValue (line : Line) (what : String) (tok : Text) :
    Parse (Text × Text) :=
  orBad line what tok (splitOnce '=' tok)

/-- The loop over the arguments of a directive whose keys come at most
once. -/
def readKeys (line : Line) (name : String) (keys : List String) :
    Finmap (fun _ : Text => Text) → List Text →
      Parse (Finmap fun _ : Text => Text)
  | kv, [] => .ok kv
  | kv, tok :: toks => do
      let (k, v) ← keyValue line name tok
      ensure (k ∈ keys.map String.toList) (bad line (name ++ " key") k)
      ensure (k ∉ kv) (bad line (name ++ " duplicate key") k)
      readKeys line name keys (kv.insert k v) toks

/-- The arguments of such a directive. -/
structure Keyed where
  line : Line
  name : String
  kv : Finmap fun _ : Text => Text

/-- `kv.get`. -/
def Keyed.get? (a : Keyed) (k : String) : Option Text :=
  a.kv.lookup k.toList

/-- `get`: a key that has to be there. -/
def Keyed.get (a : Keyed) (k : String) : Parse Text :=
  orBad a.line (a.name ++ " missing key") k.toList (a.get? k)

/-- A key that has to be there, and its value read. -/
def Keyed.read {α : Type} (a : Keyed) (k : String)
    (f : Text → Option α) : Parse α := do
  let v ← a.get k
  orBad a.line k v (f v)

/-- A key that need not be there; `what` names a value that cannot be
read. -/
def Keyed.read? {α : Type} (a : Keyed) (k what : String)
    (f : Text → Option α) : Parse (Option α) :=
  match a.get? k with
  | none => .ok none
  | some v => do
      let x ← orBad a.line what v (f v)
      return some x

/-- The same for a duration. -/
def Keyed.duration? (a : Keyed) (k : String) : Parse (Option Nat) :=
  match a.get? k with
  | none => .ok none
  | some t => do
      let n ← parseDuration m a.line t
      return some n

-- ============================================================= directives

/-- `"dns-flux"`. -/
def dnsFluxKeys : List String :=
  ["server", "zone", "name", "from", "count", "set", "period", "ttl",
    "tsig"]

/-- `ttl=`, which has to fit a `u32`. -/
def parseDnsTtl (a : Keyed) : Parse (BitVec 32) :=
  match a.get? "ttl" with
  | some t => do
      let secs ← parseDuration m a.line t
      ensure (secs < 2 ^ 32) (bad a.line "ttl" t)
      return BitVec.ofNat 32 secs
  | none => .ok 30

def parseDnsFlux (a : Keyed) : Parse DnsFluxConfig := do
  let server ← a.read "server" (addressOr std 53)
  let net ← a.read "from" std.ipNet
  let count ← a.read "count" (uint 64)
  let set ← a.read "set" (uint 64)
  ensure (1 ≤ set.toNat ∧ set.toNat ≤ count.toNat)
    (bad a.line "dns-flux set/count"
      ("set=" ++ toString set.toNat ++ " count="
        ++ toString count.toNat).toList)
  let period ← a.duration? m "period"
  let ttl ← parseDnsTtl m a
  let zone ← a.get "zone"
  let name ← a.get "name"
  let tsig ← a.get "tsig"
  return {
    server, net
    zone := String.ofList zone
    name := String.ofList name
    count := count.toNat
    set := set.toNat
    period := period.getD 300
    ttl
    tsigPath := String.ofList tsig }

/-- `"rtbh"`. -/
def rtbhKeys : List String :=
  ["peer", "local-as", "peer-as", "router-id", "next-hop-v4",
    "next-hop-v6", "max", "hold-down", "ttl", "community", "md5",
    "gtsm-hops", "local-addr", "max-new-per-min"]

/-- A pair `asn:value` of `community=`. -/
def parsePair (line : Line) (pair : Text) :
    Parse (BitVec 16 × BitVec 16) := do
  let (a, v) ← orBad line "community" pair (splitOnce ':' pair)
  let asn ← orBad line "community" pair (uint 16 a)
  let val ← orBad line "community" pair (uint 16 v)
  return (asn, val)

/-- `community=`, or the community of RFC 7999. -/
def parseCommunities (a : Keyed) : Parse (List (BitVec 16 × BitVec 16)) :=
  match a.get? "community" with
  | some spec => (spec.splitOn ',').mapM (parsePair a.line)
  | none => .ok [(65535, 666)]

/-- `router-id=`, or the IPv4 `local-addr`. -/
def parseRouterId (a : Keyed) (localAddr : Option IpAddr) :
    Parse (BitVec 32) :=
  match a.get? "router-id", localAddr with
  | some v, _ => orBad a.line "router-id" v (std.ipv4Addr v)
  | none, some (.v4 v4) => .ok v4
  | none, _ => .error (bad a.line "rtbh"
      "router-id required (or set an IPv4 local-addr to default it)".toList)

/-- `gtsm-hops=`. -/
def parseGtsmHops (a : Keyed) : Parse (Option (BitVec 8)) := do
  let hops ← a.read? "gtsm-hops" "rtbh gtsm-hops" (uint 8)
  ensure (hops ≠ some 0) (bad a.line "rtbh gtsm-hops"
    "must be >= 1".toList)
  return hops

def parseRtbh (a : Keyed) : Parse RtbhPolicy := do
  let peerAddr ← a.read "peer" (addressOr std 179)
  let localAsn ← a.read "local-as" (uint 32)
  let peerAsn ← a.read "peer-as" (uint 32)
  ensure (localAsn = peerAsn) (bad a.line "rtbh local-as/peer-as"
    "must match (iBGP only)".toList)
  let localAddr ← a.read? "local-addr" "local-addr" std.ipAddr
  let routerId ← parseRouterId std a localAddr
  ensure (peerAddr.ip ≠ .v4 routerId) (bad a.line "rtbh router-id"
    "must differ from the BGP peer address".toList)
  let nextHopV4 ← a.read? "next-hop-v4" "next-hop-v4" std.ipv4Addr
  let nextHopV6 ← a.read? "next-hop-v6" "next-hop-v6" std.ipv6Addr
  ensure (nextHopV4.isSome ∨ nextHopV6.isSome) (bad a.line "rtbh"
    "at least one of next-hop-v4/next-hop-v6 required".toList)
  let maxBlackholes ← a.read "max" (uint 64)
  let holdDownText ← a.get "hold-down"
  let holdDown ← parseDuration m a.line holdDownText
  let maxTtl ← a.duration? m "ttl"
  ensure (∀ ttl ∈ maxTtl, holdDown ≤ ttl) (bad a.line "rtbh ttl"
    "must be >= hold-down".toList)
  let communities ← parseCommunities a
  let gtsmHops ← parseGtsmHops a
  let maxNewPerMin ← a.read? "max-new-per-min" "rtbh max-new-per-min"
    (uint 32)
  return {
    localAsn, peerAsn, peerAddr, routerId, nextHopV4, nextHopV6, holdDown
    maxTtl, gtsmHops, localAddr, maxNewPerMin
    blackholeCommunities := communities
    maxBlackholes := maxBlackholes.toNat
    md5 := (a.get? "md5").map String.ofList }

/-- `"flowspec"`. -/
def flowspecKeys : List String :=
  ["concentration", "max-flows", "rate", "max-rules", "hold-down", "ttl"]

def parseFlowspec (a : Keyed) : Parse FlowSpecPolicy := do
  let concentration ← a.read "concentration" std.f64
  let maxFlows ← a.read "max-flows" (uint 64)
  let rate ← a.read "rate" std.f32
  let maxRules ← a.read "max-rules" (uint 64)
  let holdDownText ← a.get "hold-down"
  let holdDown ← parseDuration m a.line holdDownText
  let maxTtl ← a.duration? m "ttl"
  ensure (∀ ttl ∈ maxTtl, holdDown ≤ ttl) (bad a.line "flowspec ttl"
    "must be >= hold-down".toList)
  ensure (concentration.inUnit = true) (bad a.line
    "flowspec concentration" "must be in 0.0..=1.0".toList)
  ensure (maxFlows ≠ 0) (bad a.line "flowspec max-flows"
    "must be >= 1".toList)
  ensure (rate.isNaN = false ∧ isNegative rate = false) (bad a.line
    "flowspec rate" "must be >= 0".toList)
  return {
    concentration, rate, holdDown, maxTtl
    maxFlows := maxFlows.toNat
    maxRules := maxRules.toNat }

/-- `"banner-flux"`. -/
def parseBannerFlux (line : Line) (args : List Text) :
    Parse BannerFluxConfig :=
  match args with
  | [] => .error (bad line "banner-flux" "missing dir".toList)
  | [dir] => .ok ⟨String.ofList dir, 6 * 3600⟩
  | dir :: tok :: _ => do
      let period ← parseDuration m line tok
      return ⟨String.ofList dir, period⟩

/-- One argument of `"metrics"`. -/
def parseMetrics (line : Line) (tok : Text) : Parse SocketAddr := do
  let (k, v) ← keyValue line "metrics" tok
  ensure (k = "listen".toList) (bad line "metrics key" k)
  orBad line "metrics listen" v (std.socketAddr v)

/-- One argument of `"api"`. -/
def apiArg (line : Line) (acc : Option SocketAddr × Option String)
    (tok : Text) : Parse (Option SocketAddr × Option String) := do
  let (k, v) ← keyValue line "api" tok
  if k = "listen".toList then do
    let listen ← orBad line "api listen" v (std.socketAddr v)
    return (some listen, acc.2)
  else if k = "token-file".toList then
    return (acc.1, some (String.ofList v))
  else .error (bad line "api key" k)

/-- `"api"`. -/
def parseApi (line : Line) (args : List Text) : Parse ApiConfig := do
  let (listen, tokenFile) ← args.foldlM (apiArg std line) (none, none)
  let listen ← orBad line "api missing key" "listen".toList listen
  let tokenFile ← orBad line "api missing key" "token-file".toList tokenFile
  return ⟨listen, tokenFile⟩

/-- One argument of `"pop"`. -/
def popArg (line : Line) (acc : Option IpAddr × Option (BitVec 32))
    (tok : Text) : Parse (Option IpAddr × Option (BitVec 32)) := do
  let (k, v) ← keyValue line "pop" tok
  if k = "agent".toList then do
    let agent ← orBad line "pop agent" v (std.ipAddr v)
    return (some agent, acc.2)
  else if k = "sampling".toList then do
    let sampling ← orBad line "pop sampling" v (uint 32 v)
    return (acc.1, some sampling)
  else .error (bad line "pop key" k)

/-- The characters of a POP's name, which becomes a label of the
metrics. -/
def popChar (c : Char) : Bool := c.isAlphanum || c = '_' || c = '-'

/-- `"pop"`, up to the checks against the others. -/
def parsePop (line : Line) (args : List Text) : Parse PopEntry :=
  match args with
  | [] => .error (bad line "pop name" [])
  | name :: args => do
      let (agent, sampling) ← args.foldlM (popArg std line) (none, none)
      let agent ← orBad line "pop missing agent" name agent
      let sampling ← orBad line "pop missing sampling" name sampling
      ensure (name.all popChar = true) (bad line "pop name" name)
      return ⟨String.ofList name, agent, sampling⟩

/-- What an argument of `"engine"` sets. -/
inductive EngineKnob
  | maxConcurrent (n : Nat)
  | sessionTimeout (n : Nat)
  | tproxyPort (n : BitVec 16)
  | nfqueue (n : BitVec 16)
  deriving DecidableEq, Repr

def EngineConfig.set (e : EngineConfig) : EngineKnob → EngineConfig
  | .maxConcurrent n => { e with maxConcurrent := n }
  | .sessionTimeout n => { e with sessionTimeoutSecs := n }
  | .tproxyPort n => { e with tproxyPort := n }
  | .nfqueue n => { e with nfqueueNum := n }

/-- One argument of `"engine"`. -/
def parseEngine (line : Line) (tok : Text) : Parse EngineKnob := do
  let (k, v) ← keyValue line "engine" tok
  if k = "max-concurrent".toList then do
    let n ← orBad line "engine max-concurrent" v (uint 64 v)
    ensure (n ≠ 0) (bad line "engine max-concurrent" "must be >= 1".toList)
    return .maxConcurrent n.toNat
  else if k = "session-timeout".toList then do
    let n ← orBad line "engine session-timeout" v (uint 64 v)
    ensure (n ≠ 0) (bad line "engine session-timeout"
      "must be >= 1 (seconds)".toList)
    return .sessionTimeout n.toNat
  else if k = "tproxy-port".toList then do
    let n ← orBad line "engine tproxy-port" v (uint 16 v)
    ensure (n ≠ 0) (bad line "engine tproxy-port"
      "must be 1..=65535".toList)
    return .tproxyPort n
  else if k = "nfqueue".toList then do
    let n ← orBad line "engine nfqueue" v (uint 16 v)
    return .nfqueue n
  else .error (bad line "engine key" k)

/-- One argument of `"flowtable"`: the devices it lists. -/
def flowtableArg (line : Line) (tok : Text) : Parse (List String) := do
  let (k, v) ← keyValue line "flowtable" tok
  ensure (k = "devices".toList) (bad line "flowtable key" k)
  return (((v.splitOn ',').map trim).filter fun dev => !dev.isEmpty).map
    String.ofList

/-- `"flowtable"`. -/
def parseFlowtable (line : Line) (args : List Text) :
    Parse (List String) := do
  let devices ← args.mapM (flowtableArg line)
  ensure (devices.flatten ≠ []) (bad line "flowtable devices"
    "must list at least one interface".toList)
  return devices.flatten

/-- One argument of `"xdp"`. -/
def xdpArg (line : Line) (cfg : XdpConfig) (tok : Text) :
    Parse XdpConfig := do
  let (k, v) ← keyValue line "xdp" tok
  if k = "interface".toList then
    return { cfg with interface := some (String.ofList v) }
  else if k = "mode".toList then
    if v = "auto".toList then return { cfg with mode := .auto }
    else if v = "native".toList then return { cfg with mode := .native }
    else if v = "generic".toList then return { cfg with mode := .generic }
    else .error (bad line "xdp mode" v)
  else if k = "default-rate-limit".toList then do
    let n ← orBad line "xdp default-rate-limit" v (uint 64 v)
    ensure (n ≠ 0) (bad line "xdp default-rate-limit"
      "must be >= 1".toList)
    return { cfg with defaultRateLimitPps := some n.toNat }
  else if k = "cookie-ports".toList then do
    let ports ← parsePorts line "xdp cookie-ports" v
    return { cfg with cookiePorts := cfg.cookiePorts ++ ports }
  else if k = "afxdp-udp-ports".toList then do
    let ports ← parsePorts line "xdp afxdp-udp-ports" v
    return { cfg with afxdpUdpPorts := cfg.afxdpUdpPorts ++ ports }
  else if k = "afxdp-udp-banner".toList then
    return { cfg with afxdpUdpBanner := some (decodeBannerEscapes v) }
  else if k = "syn-cookie-tx-cap".toList then do
    let n ← orBad line "xdp syn-cookie-tx-cap" v (uint 32 v)
    ensure (n ≠ 0) (bad line "xdp syn-cookie-tx-cap" "must be >= 1".toList)
    return { cfg with synCookieTxCap := n }
  else .error (bad line "xdp key" k)

/-- `"xdp"`. -/
def parseXdp (line : Line) (args : List Text) : Parse XdpConfig :=
  args.foldlM (xdpArg line) .default

/-- One argument of `"stateless-tcp"`. -/
def parseStatelessTcp (line : Line) (tok : Text) :
    Parse (List (BitVec 16)) := do
  let (k, v) ← keyValue line "stateless-tcp" tok
  ensure (k = "ports".toList) (bad line "stateless-tcp key" k)
  parsePorts line "stateless-tcp ports" v

/-- The loop of `parse_shape` over the words behind the download. -/
def shapeOptions (line : Line) :
    Option ShapeBandwidth × Option (BitVec 32) → List Text →
      Parse (Option ShapeBandwidth × Option (BitVec 32))
  | acc, [] => .ok acc
  | acc, word :: rest =>
      if word = "up".toList then
        match rest with
        | [] => .error (unexpected line "up (auto | <N>mbit)")
        | token :: rest =>
            if token = "auto".toList then
              shapeOptions line (some .auto, acc.2) rest
            else do
              let mbit ← parseMbit line token
              shapeOptions line (some (.fixed mbit), acc.2) rest
      else if word = "rtt".toList then
        match rest with
        | [] => .error (unexpected line "rtt <N>ms")
        | token :: rest => do
            let ms ← parseMs line token
            shapeOptions line (acc.1, some ms) rest
      else .error (.config (.unexpectedToken line.number word "up | rtt"))

/-- The download of `parse_shape`, and the words behind it. -/
def shapeDownload (line : Line) (mode : Text) (rest : List Text) :
    Parse (ShapeBandwidth × List Text) :=
  if mode = "auto".toList then .ok (.auto, rest)
  else if mode = "bandwidth".toList then
    match rest with
    | [] => .error (unexpected line "bandwidth <N>mbit")
    | token :: rest => do
        let mbit ← parseMbit line token
        return (.fixed mbit, rest)
  else .error (bad line "bandwidth mode" mode)

def parseShape (line : Line) (args : List Text) : Parse ShapeRule :=
  match args with
  | iface :: mode :: rest => do
      let (download, rest) ← shapeDownload line mode rest
      let (upload, rttMs) ← shapeOptions line (none, none) rest
      return ⟨String.ofList iface, download, upload.getD download, rttMs⟩
  | _ => .error (unexpected line
      "shape <iface> (auto | bandwidth <N>mbit) [up (auto | <N>mbit)] [rtt <N>ms]")

-- ================================================================= tenants

/-- The protocol of an `allow`. -/
def parseProto (line : Line) (proto : Text) : Parse L4Proto :=
  if proto = "tcp".toList then .ok .tcp
  else if proto = "udp".toList then .ok .udp
  else .error (bad line "protocol" proto)

def parseAllow (line : Line) (args : List Text) : Parse AllowRule :=
  match args with
  | [proto, port, target] => do
      let proto ← parseProto line proto
      let portNum ← orBad line "port" port (uint 16 port)
      let target ← parseTarget std line target
      return ⟨proto, portNum, target, none⟩
  | _ => .error (unexpected line "allow <tcp|udp> <port> <target>")

/-- An address of `owns`. -/
def parseOwned (line : Line) (token : Text) : Parse IpAddr :=
  let cleaned := token.rdropWhile (· = ',')
  orBad line "ip address" cleaned (std.ipAddr cleaned)

/-- One line of a tenant block. -/
def tenantLine (line : Line) (word : Text) (args : List Text)
    (t : Tenant) : Parse Tenant :=
  if word = "owns".toList then
    match args with
    | [] => .error (unexpected line "owns <ip>[, <ip>...]")
    | args => do
        let owned ← args.mapM (parseOwned std line)
        return { t with owned := t.owned ++ owned }
  else if word = "allow".toList then do
    let allow ← parseAllow std line args
    return { t with allows := t.allows ++ [allow] }
  else .error (.config (.unknownDirective line.number word))

/-- The loop of `parse_tenant`: the tenant, and how many lines its block
goes on for. -/
def tenantLines (header : Line) : Tenant → List Line →
    Parse (Tenant × Nat)
  | _, [] => .error (.config (.unexpectedToken header.number
      "<eof>".toList "a closing `\x7d` for the tenant block"))
  | t, line :: rest =>
      match line.words with
      | [] => .error (.panic .bounds)
      | word :: args =>
          if word = "\x7d".toList then .ok (t, 1)
          else do
            let t ← tenantLine std line word args t
            let (t, used) ← tenantLines header t rest
            return (t, used + 1)

def parseTenant (header : Line) (args : List Text) (rest : List Line) :
    Parse (Tenant × Nat) :=
  match args with
  | [name, brace] =>
      if brace = "\x7b".toList then
        tenantLines std header ⟨String.ofList name, [], []⟩ rest
      else .error (unexpected header "tenant <name> \x7b")
  | _ => .error (unexpected header "tenant <name> \x7b")

-- ================================================================ the loop

/-- The directives, by the arm of `parse`'s match that reads them. -/
inductive Directive
  | interface
  | family
  | protect
  | default
  | tenant
  | shape
  | bannerFlux
  | dnsFlux
  | rtbh
  | flowspec
  | metrics
  | api
  | pop
  | engine
  | flowtable
  | xdp
  | statelessTcp
  | shadow
  | instanceName
  | rpkiValidator
  | rpkiCheckInterval
  deriving DecidableEq, Repr

/-- The words of the arms that match a whole word. -/
def Directive.words : List (Text × Directive) :=
  [("interface".toList, .interface), ("ipv4".toList, .family),
    ("ipv6".toList, .family), ("protect".toList, .protect),
    ("default".toList, .default), ("tenant".toList, .tenant),
    ("shape".toList, .shape), ("banner-flux".toList, .bannerFlux),
    ("dns-flux".toList, .dnsFlux), ("rtbh".toList, .rtbh),
    ("flowspec".toList, .flowspec), ("metrics".toList, .metrics),
    ("api".toList, .api), ("pop".toList, .pop), ("engine".toList, .engine),
    ("flowtable".toList, .flowtable), ("xdp".toList, .xdp),
    ("stateless-tcp".toList, .statelessTcp), ("shadow".toList, .shadow)]

/-- The arm for a word, with what follows the `=` of an arm that matches
the start of one. -/
def Directive.ofWord (word : Text) : Option (Directive × Text) :=
  match Directive.words.lookup word with
  | some k => some (k, [])
  | none =>
      ((stripPrefix "instance=".toList word).map
          (Directive.instanceName, ·)).or
        (((stripPrefix "rpki-validator=".toList word).map
            (Directive.rpkiValidator, ·)).or
          ((stripPrefix "rpki-check-interval=".toList word).map
            (Directive.rpkiCheckInterval, ·)))

/-- The variables of `parse`. -/
structure Draft extends Settings where
  interface : Option String
  deriving DecidableEq

/-- Their initial values. -/
def Draft.start : Draft :=
  { prefixes := [], defaultState := .deception, tenants := []
    shaping := [], bannerFlux := none, dnsFlux := none, rtbh := none
    flowspec := none, metricsListen := none, api := none, pops := []
    engine := .default, flowtable := none, xdp := none
    statelessTcpPorts := [], shadow := false, protectedPrefixes := []
    rpkiValidator := none, rpkiCheckInterval := 3600
    instanceName := none, interface := none }

/-- A directive that comes at most once. -/
def once {α : Type} (line : Line) (what : String) (x : Option α) :
    Parse Unit :=
  ensure (x.isNone = true) (bad line what "duplicate".toList)

/-- The arms of `parse`'s match: the variables behind the directive, and
how many of the lines behind its own it used up. -/
def parseDirective (line : Line) (rest : List Line) (d : Draft)
    (args : List Text) (value : Text) : Directive → Parse (Draft × Nat)
  | .interface =>
      match args with
      | [_, iface] =>
          .ok ({ d with interface := some (String.ofList iface) }, 0)
      | _ => .error (unexpected line "interface <name> <iface>")
  | .family =>
      match args with
      | [raw] => do
          let net ← parseCidr std line raw
          return ({ d with prefixes := d.prefixes ++ [net] }, 0)
      | _ => .error (unexpected line "<family> <cidr>")
  | .protect =>
      match args with
      | [raw] => do
          let net ← parseCidr std line raw
          return ({ d with
            protectedPrefixes := d.protectedPrefixes ++ [net] }, 0)
      | _ => .error (unexpected line "protect <cidr>")
  | .default =>
      match args with
      | [state] =>
          if state = "deception".toList then
            .ok ({ d with defaultState := .deception }, 0)
          else if state = "drop".toList then
            .ok ({ d with defaultState := .closed }, 0)
          else .error (bad line "default state" state)
      | _ => .error (unexpected line "default deception|drop")
  | .tenant => do
      let (t, used) ← parseTenant std line args rest
      return ({ d with tenants := d.tenants ++ [t] }, used)
  | .shape => do
      let rule ← parseShape line args
      return ({ d with shaping := d.shaping ++ [rule] }, 0)
  | .bannerFlux => do
      once line "banner-flux" d.bannerFlux
      let cfg ← parseBannerFlux m line args
      return ({ d with bannerFlux := some cfg }, 0)
  | .dnsFlux => do
      once line "dns-flux" d.dnsFlux
      let kv ← readKeys line "dns-flux" dnsFluxKeys ∅ args
      let cfg ← parseDnsFlux m std ⟨line, "dns-flux", kv⟩
      return ({ d with dnsFlux := some cfg }, 0)
  | .rtbh => do
      once line "rtbh" d.rtbh
      let kv ← readKeys line "rtbh" rtbhKeys ∅ args
      let cfg ← parseRtbh m std ⟨line, "rtbh", kv⟩
      return ({ d with rtbh := some cfg }, 0)
  | .flowspec => do
      once line "flowspec" d.flowspec
      let kv ← readKeys line "flowspec" flowspecKeys ∅ args
      let cfg ← parseFlowspec m std ⟨line, "flowspec", kv⟩
      return ({ d with flowspec := some cfg }, 0)
  | .metrics => do
      let listens ← args.mapM (parseMetrics std line)
      return ({ d with
        metricsListen := listens.getLast?.or d.metricsListen }, 0)
  | .api => do
      let cfg ← parseApi std line args
      return ({ d with api := some cfg }, 0)
  | .pop => do
      let pop ← parsePop std line args
      ensure (∀ p ∈ d.pops, p.agent ≠ pop.agent)
        (bad line "pop" "duplicate agent".toList)
      ensure (∀ p ∈ d.pops, p.name ≠ pop.name)
        (bad line "pop" "duplicate name".toList)
      return ({ d with pops := d.pops ++ [pop] }, 0)
  | .engine => do
      let knobs ← args.mapM (parseEngine line)
      return ({ d with
        engine := knobs.foldl EngineConfig.set d.engine }, 0)
  | .flowtable => do
      once line "flowtable" d.flowtable
      let devices ← parseFlowtable line args
      return ({ d with flowtable := some devices }, 0)
  | .xdp => do
      let cfg ← parseXdp line args
      return ({ d with xdp := some cfg }, 0)
  | .statelessTcp => do
      let ports ← args.mapM (parseStatelessTcp line)
      return ({ d with statelessTcpPorts :=
        d.statelessTcpPorts ++ ports.flatten }, 0)
  | .shadow => do
      ensure (args = []) (bad line "shadow"
        ([' '].intercalate args))
      return ({ d with shadow := true }, 0)
  | .instanceName => do
      ensure (args = []) (unexpected line "instance=<name>")
      ensure (value ≠ []) (bad line "instance"
        "empty (expected instance=<name>)".toList)
      once line "instance" d.instanceName
      return ({ d with instanceName := some (String.ofList value) },
        0)
  | .rpkiValidator => do
      ensure (args = []) (unexpected line "rpki-validator=<url>")
      once line "rpki-validator" d.rpkiValidator
      ensure (value ≠ []) (bad line "rpki-validator"
        "empty url".toList)
      return ({ d with
        rpkiValidator := some (String.ofList value) }, 0)
  | .rpkiCheckInterval => do
      ensure (args = [])
        (unexpected line "rpki-check-interval=<dur>")
      let interval ← parseDuration m line value
      return ({ d with rpkiCheckInterval := interval }, 0)

/-- The body of `parse`'s loop. -/
def parseLine (line : Line) (rest : List Line) (d : Draft) :
    Parse (Draft × Nat) :=
  match line.words with
  | [] => .error (.panic .bounds)
  | word :: args =>
      match Directive.ofWord word with
      | none => .error (.config (.unknownDirective line.number word))
      | some (k, value) => parseDirective m std line rest d args value k

/-- The loop of `parse`; `used` lines are part of a block that has been
read. -/
def parseLines (d : Draft) : (used : Nat) → List Line → Parse Draft
  | _, [] => .ok d
  | used + 1, _ :: rest => parseLines d used rest
  | 0, line :: rest => do
      let (d, used) ← parseLine m std line rest d
      parseLines d used rest

/-- The end of `parse`. -/
def finish (eofLine : Nat) (d : Draft) : Parse Policy :=
  match d.interface with
  | none => .error (.config (.unexpectedToken eofLine "<eof>".toList
      "an `interface` directive"))
  | some interface =>
      if d.flowspec.isSome ∧ d.rtbh.isNone then
        .error (.config (.badValue eofLine "flowspec"
          "requires an rtbh block (shared BGP session)".toList))
      else .ok { d.toSettings with interface }

/-- The line an error at the end names. -/
def eofLine (lines : List Line) : Nat :=
  lines.getLast?.elim 1 Line.number

def parse (lines : List Line) : Parse Policy := do
  let d ← parseLines m std .start 0 lines
  finish (eofLine lines) d

def parseStr (input : Text) : Parse Policy := parse m std (lex input)

/-- `parse_and_resolve`, of a file with this text. -/
def parseAndResolve (input : Text) : Parse Policy := do
  let policy ← parseStr m std input
  let _ ← policy.core.resolve.mapError fun e => Halt.config (.resolve e)
  return policy

end Values

end Blackwall.Config
