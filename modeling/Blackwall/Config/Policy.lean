/-
The policy a configuration is parsed into, with every plane it configures
(`blackwall-core`: `policy.rs` and the configuration types beside it).

The nft and discovery models read the part of it that is `Core.Policy`
(`Policy.core`). Durations are whole seconds, which is all the language
can write; a path is its text.
-/
import Blackwall.Base.F32
import Blackwall.Core.Policy

namespace Blackwall.Config

open Base
open Core (PortState SocketAddr Tenant)

-- ================================================================= floats

/-- An `f64`, by its bits. -/
structure F64 where
  bits : BitVec 64
  deriving DecidableEq, Repr

/-- `(0.0..=1.0).contains(&x)`: between the two, a negative zero
included. -/
def F64.inUnit (x : F64) : Bool :=
  let magnitude := x.bits &&& 0x7FFFFFFFFFFFFFFF
  decide (magnitude ≤ 0x3FF0000000000000)
    && (!x.bits.msb || decide (magnitude = 0))

/-- `x < 0.0`. -/
def isNegative (x : F32) : Bool := x.bits.msb && !x.isNaN && !x.isZero

-- ================================================================= planes

inductive ShapeBandwidth
  | auto
  | fixed (mbit : BitVec 32)
  deriving DecidableEq, Repr

structure ShapeRule where
  iface : String
  download : ShapeBandwidth
  upload : ShapeBandwidth
  rttMs : Option (BitVec 32)
  deriving DecidableEq, Repr

structure BannerFluxConfig where
  dir : String
  period : Nat
  deriving DecidableEq, Repr

structure DnsFluxConfig where
  server : SocketAddr
  zone : String
  name : String
  net : IpNet
  count : Nat
  set : Nat
  period : Nat
  ttl : BitVec 32
  tsigPath : String
  deriving DecidableEq, Repr

structure RtbhPolicy where
  localAsn : BitVec 32
  peerAsn : BitVec 32
  peerAddr : SocketAddr
  routerId : BitVec 32
  blackholeCommunities : List (BitVec 16 × BitVec 16)
  nextHopV4 : Option (BitVec 32)
  nextHopV6 : Option (BitVec 128)
  maxBlackholes : Nat
  holdDown : Nat
  maxTtl : Option Nat
  md5 : Option String
  gtsmHops : Option (BitVec 8)
  localAddr : Option IpAddr
  maxNewPerMin : Option (BitVec 32)
  deriving DecidableEq, Repr

/-- `is_placeholder_v4`: the documentation ranges. -/
def isPlaceholderV4 (a : BitVec 32) : Bool :=
  (a >>> 8).toNat ∈ [0xC00002, 0xC63364, 0xCB0071]

/-- `is_placeholder_v6`: the documentation and the discard range. -/
def isPlaceholderV6 (a : BitVec 128) : Bool :=
  decide ((a >>> 96).toNat = 0x20010DB8)
    || decide ((a >>> 64).toNat = 0x0100000000000000)

inductive NextHopVerdict
  | ok
  | placeholderWithCommunity (nextHops : List IpAddr)
  | placeholderNoCommunity (nextHops : List IpAddr)
  deriving DecidableEq, Repr

namespace RtbhPolicy

def placeholderNextHops (r : RtbhPolicy) : List IpAddr :=
  ((r.nextHopV4.filter isPlaceholderV4).map IpAddr.v4).toList
    ++ ((r.nextHopV6.filter isPlaceholderV6).map IpAddr.v6).toList

def nextHopVerdict (r : RtbhPolicy) : NextHopVerdict :=
  if r.placeholderNextHops.isEmpty then .ok
  else if r.blackholeCommunities.isEmpty then
    .placeholderNoCommunity r.placeholderNextHops
  else .placeholderWithCommunity r.placeholderNextHops

end RtbhPolicy

structure FlowSpecPolicy where
  concentration : F64
  maxFlows : Nat
  rate : F32
  maxRules : Nat
  holdDown : Nat
  maxTtl : Option Nat
  deriving DecidableEq, Repr

structure ApiConfig where
  listen : SocketAddr
  tokenFile : String
  deriving DecidableEq, Repr

structure PopEntry where
  name : String
  agent : IpAddr
  sampling : BitVec 32
  deriving DecidableEq, Repr

structure EngineConfig where
  maxConcurrent : Nat
  sessionTimeoutSecs : Nat
  tproxyPort : BitVec 16
  nfqueueNum : BitVec 16
  deriving DecidableEq, Repr

def EngineConfig.default : EngineConfig := ⟨1024, 60, 61000, 0⟩

inductive XdpMode
  | auto
  | native
  | generic
  deriving DecidableEq, Repr

structure XdpConfig where
  interface : Option String
  mode : XdpMode
  defaultRateLimitPps : Option Nat
  cookiePorts : List (BitVec 16)
  afxdpUdpPorts : List (BitVec 16)
  afxdpUdpBanner : Option (List Byte)
  synCookieTxCap : BitVec 32
  deriving DecidableEq, Repr

/-- The `XdpConfig` of a directive without arguments; the cap is
`DEFAULT_SYN_COOKIE_TX_CAP_PPS`. -/
def XdpConfig.default : XdpConfig :=
  { interface := none, mode := .auto, defaultRateLimitPps := none
    cookiePorts := [], afxdpUdpPorts := [], afxdpUdpBanner := none
    synCookieTxCap := 1000 }

-- ============================================================ the policy

/-- The fields of `Policy` a configuration may leave at their defaults. -/
structure Settings where
  prefixes : List IpNet
  defaultState : PortState
  tenants : List Tenant
  shaping : List ShapeRule
  bannerFlux : Option BannerFluxConfig
  dnsFlux : Option DnsFluxConfig
  rtbh : Option RtbhPolicy
  flowspec : Option FlowSpecPolicy
  metricsListen : Option SocketAddr
  api : Option ApiConfig
  pops : List PopEntry
  engine : EngineConfig
  flowtable : Option (List String)
  xdp : Option XdpConfig
  statelessTcpPorts : List (BitVec 16)
  shadow : Bool
  protectedPrefixes : List IpNet
  rpkiValidator : Option String
  rpkiCheckInterval : Nat
  instanceName : Option String
  deriving DecidableEq

structure Policy extends Settings where
  interface : String
  deriving DecidableEq

/-- The part of a policy the ruleset is made from. -/
def Policy.core (p : Policy) : Core.Policy :=
  { interface := p.interface
    prefixes := p.prefixes
    defaultState := p.defaultState
    tenants := p.tenants
    engine :=
      { tproxyPort := p.engine.tproxyPort
        nfqueueNum := p.engine.nfqueueNum }
    flowtable := p.flowtable
    statelessTcpPorts := p.statelessTcpPorts
    instanceName := p.instanceName }

end Blackwall.Config
