/-
What an accepted configuration guarantees.

Every check of the parser is a field of `Sound` for the value it guards,
and `readDirective_sound` collects them: whatever is read behind a
directive is sound. A policy is put together from what was read
(`parse_ok`), so it is sound in every part; the rest of `WellFormed` is
what `parse` checks between the parts.
-/
import Blackwall.Config.Proofs.Grammar
import Blackwall.Config.Proofs.Layout

namespace Blackwall.Config

open Base
open Core (Tenant)

-- ================================================================== parts

/-- An iBGP session that can come up and a blackhole that can be
announced over it. -/
structure RtbhPolicy.Sound (r : RtbhPolicy) : Prop where
  ibgp : r.localAsn = r.peerAsn
  routerId : r.peerAddr.ip ≠ .v4 r.routerId
  nextHop : r.nextHopV4.isSome ∨ r.nextHopV6.isSome
  ttl : ∀ ttl ∈ r.maxTtl, r.holdDown ≤ ttl
  communities : r.blackholeCommunities ≠ []
  hops : r.gtsmHops ≠ some 0

/-- A selection that can choose FlowSpec, with a rate that is one. -/
structure FlowSpecPolicy.Sound (f : FlowSpecPolicy) : Prop where
  concentration : f.concentration.inUnit = true
  flows : 1 ≤ f.maxFlows
  rate : f.rate.isNaN = false ∧ isNegative f.rate = false
  ttl : ∀ ttl ∈ f.maxTtl, f.holdDown ≤ ttl

structure EngineConfig.Sound (e : EngineConfig) : Prop where
  sessions : 1 ≤ e.maxConcurrent
  timeout : 1 ≤ e.sessionTimeoutSecs
  port : e.tproxyPort ≠ 0

structure XdpConfig.Sound (x : XdpConfig) : Prop where
  rate : ∀ pps ∈ x.defaultRateLimitPps, 1 ≤ pps
  cookiePorts : 0 ∉ x.cookiePorts
  udpPorts : 0 ∉ x.afxdpUdpPorts
  cap : x.synCookieTxCap ≠ 0

/-- What can be said of what is read behind each directive. -/
def Directive.Sound : (k : Directive) → k.Payload → Prop
  | .default, state => state ≠ .opened
  | .tenant, t => ∀ allow ∈ t.allows, allow.scope = none
  | .dnsFlux, d => 1 ≤ d.set ∧ d.set ≤ d.count
  | .rtbh, r => r.Sound
  | .flowspec, f => f.Sound
  | .pop, p => p.name.toList.all popChar = true
  | .engine, knobs => ∀ e : EngineConfig, e.Sound →
      (knobs.foldl EngineConfig.set e).Sound
  | .flowtable, devices => devices ≠ [] ∧ "" ∉ devices
  | .xdp, x => x.Sound
  | .statelessTcp, ports => 0 ∉ ports
  | .instanceName, name => name ≠ ""
  | .rpkiValidator, url => url ≠ ""
  | _, _ => True

-- =========================================================== what is read

theorem ensure_yields {P : Prop} [Decidable P] {e : Halt} :
    Yields (fun _ => P) (ensure P e) := fun _ h => ensure_ok.mp h

section Values

variable {m : Build} {std : FromStr} {line : Line}

theorem parsePorts_yields {what : String} {v : Text} :
    Yields (fun ports => (0 : BitVec 16) ∉ ports)
      (parsePorts line what v) := by
  have hport : ∀ token, Yields (fun n : BitVec 16 => n ≠ 0)
      (parsePort line what token) := fun token =>
    .bind .any fun n _ => .bind ensure_yields fun _ hn => .ok hn
  exact fun ports h hzero =>
    (Yields.mapM hport (v.splitOn ',') ports h).2 0 hzero rfl

theorem parseDnsFlux_yields {a : Keyed} :
    Yields (Directive.Sound .dnsFlux) (parseDnsFlux m std a) := by
  unfold parseDnsFlux
  refine .bind .any fun server _ => .bind .any fun net _ =>
    .bind .any fun count _ => .bind .any fun set _ =>
    .bind ensure_yields fun _ hset => .bind .any fun period _ =>
    .bind .any fun ttl _ => .bind .any fun zone _ =>
    .bind .any fun name _ => .bind .any fun tsig _ => .ok ?_
  exact hset

theorem parseCommunities_yields {a : Keyed} :
    Yields (· ≠ []) (parseCommunities a) := by
  unfold parseCommunities
  split
  · next spec _ =>
    intro pairs h hnil
    have hlen := (Yields.mapM (R := fun _ => True)
      (fun _ => .any) (spec.splitOn ',') pairs h).1
    rw [hnil] at hlen
    exact List.splitOn_ne_nil _ _ (List.length_eq_zero_iff.mp hlen.symm)
  · exact .ok (List.cons_ne_nil _ _)

theorem parseRtbh_yields {a : Keyed} :
    Yields (Directive.Sound .rtbh) (parseRtbh m std a) := by
  unfold parseRtbh
  refine .bind .any fun peerAddr _ => .bind .any fun localAsn _ =>
    .bind .any fun peerAsn _ => .bind ensure_yields fun _ hasn =>
    .bind .any fun localAddr _ => .bind .any fun routerId _ =>
    .bind ensure_yields fun _ hrouter =>
    .bind .any fun nextHopV4 _ => .bind .any fun nextHopV6 _ =>
    .bind ensure_yields fun _ hhop => .bind .any fun cap _ =>
    .bind .any fun text _ => .bind .any fun holdDown _ =>
    .bind .any fun maxTtl _ => .bind ensure_yields fun _ httl =>
    .bind parseCommunities_yields fun communities hne =>
    .bind (Q := (· ≠ some 0)) ?_ fun hops hhops =>
    .bind .any fun rate _ => .ok ?_
  · exact .bind .any fun hops _ => .bind ensure_yields fun _ h => .ok h
  · exact ⟨hasn, hrouter, hhop, httl, hne, hhops⟩

theorem parseFlowspec_yields {a : Keyed} :
    Yields (Directive.Sound .flowspec) (parseFlowspec m std a) := by
  unfold parseFlowspec
  refine .bind .any fun concentration _ => .bind .any fun maxFlows _ =>
    .bind .any fun rate _ => .bind .any fun maxRules _ =>
    .bind .any fun text _ => .bind .any fun holdDown _ =>
    .bind .any fun maxTtl _ => .bind ensure_yields fun _ httl =>
    .bind ensure_yields fun _ hunit => .bind ensure_yields fun _ hflows =>
    .bind ensure_yields fun _ hrate => .ok ?_
  refine ⟨hunit, Nat.one_le_iff_ne_zero.mpr fun h => hflows ?_, hrate, httl⟩
  exact BitVec.eq_of_toNat_eq h

theorem parsePop_yields {args : List Text} :
    Yields (Directive.Sound .pop) (parsePop std line args) := by
  unfold parsePop
  split
  · exact .error
  · next name args =>
    refine .bind .any fun found _ => .bind .any fun agent _ =>
      .bind .any fun sampling _ => .bind ensure_yields fun _ hname =>
      .ok ?_
    show (String.ofList name).toList.all popChar = true
    rwa [String.toList_ofList]

/-- A number that is not 0, as a `usize`. -/
theorem one_le_toNat {w : Nat} {n : BitVec w} (h : n ≠ 0) : 1 ≤ n.toNat :=
  Nat.one_le_iff_ne_zero.mpr fun hn => h (BitVec.eq_of_toNat_eq hn)

theorem parseEngine_yields {tok : Text} :
    Yields (fun knob => ∀ e : EngineConfig, e.Sound → (e.set knob).Sound)
      (parseEngine line tok) := by
  refine .bind .any fun kv _ =>
    .ite (fun _ => ?_) fun _ => .ite (fun _ => ?_) fun _ =>
    .ite (fun _ => ?_) fun _ => .ite (fun _ => ?_) fun _ => .error
  · exact .bind .any fun n _ => .bind ensure_yields fun _ hn =>
      .ok fun e he => ⟨one_le_toNat hn, he.timeout, he.port⟩
  · exact .bind .any fun n _ => .bind ensure_yields fun _ hn =>
      .ok fun e he => ⟨he.sessions, one_le_toNat hn, he.port⟩
  · exact .bind .any fun n _ => .bind ensure_yields fun _ hn =>
      .ok fun e he => ⟨he.sessions, he.timeout, hn⟩
  · exact .bind .any fun n _ =>
      .ok fun e he => ⟨he.sessions, he.timeout, he.port⟩

theorem engine_sound {knobs : List EngineKnob}
    (h : ∀ knob ∈ knobs, ∀ e : EngineConfig, e.Sound → (e.set knob).Sound) :
    Directive.Sound .engine knobs := by
  intro e he
  exact List.foldlRecOn knobs EngineConfig.set he
    fun e he knob hk => h knob hk e he

theorem parseFlowtable_yields {args : List Text} :
    Yields (Directive.Sound .flowtable) (parseFlowtable line args) := by
  have harg : ∀ tok, Yields (fun devices => "" ∉ devices)
      (flowtableArg line tok) := by
    intro tok
    refine .bind .any fun kv _ => .bind ensure_yields fun _ _ => .ok ?_
    intro hmem
    obtain ⟨dev, hdev, hempty⟩ := List.mem_map.mp hmem
    have hne := (List.mem_filter.mp hdev).2
    rw [String.ofList_eq_empty_iff.mp hempty] at hne
    cases hne
  refine .bind (.mapM harg args) fun devices hdevices =>
    .bind ensure_yields fun _ hne => .ok ⟨hne, fun hmem => ?_⟩
  obtain ⟨ds, hds, hin⟩ := List.mem_flatten.mp hmem
  exact hdevices.2 ds hds hin

theorem xdpArg_yields {cfg : XdpConfig} {tok : Text} (h : cfg.Sound) :
    Yields XdpConfig.Sound (xdpArg line cfg tok) := by
  have hmode : ∀ mode, ({ cfg with mode } : XdpConfig).Sound := fun _ =>
    ⟨h.rate, h.cookiePorts, h.udpPorts, h.cap⟩
  refine .bind .any fun kv _ =>
    .ite (fun _ => ?_) fun _ => .ite (fun _ => ?_) fun _ =>
    .ite (fun _ => ?_) fun _ => .ite (fun _ => ?_) fun _ =>
    .ite (fun _ => ?_) fun _ => .ite (fun _ => ?_) fun _ =>
    .ite (fun _ => ?_) fun _ => .error
  · exact .ok ⟨h.rate, h.cookiePorts, h.udpPorts, h.cap⟩
  · exact .ite (fun _ => .ok (hmode _)) fun _ =>
      .ite (fun _ => .ok (hmode _)) fun _ =>
      .ite (fun _ => .ok (hmode _)) fun _ => .error
  · refine .bind .any fun n _ => .bind ensure_yields fun _ hn =>
      .ok ⟨fun pps hpps => ?_, h.cookiePorts, h.udpPorts, h.cap⟩
    cases hpps
    exact one_le_toNat hn
  · exact .bind parsePorts_yields fun ports hports =>
      .ok ⟨h.rate, List.not_mem_append h.cookiePorts hports, h.udpPorts,
        h.cap⟩
  · exact .bind parsePorts_yields fun ports hports =>
      .ok ⟨h.rate, h.cookiePorts, List.not_mem_append h.udpPorts hports,
        h.cap⟩
  · exact .ok ⟨h.rate, h.cookiePorts, h.udpPorts, h.cap⟩
  · exact .bind .any fun n _ => .bind ensure_yields fun _ hn =>
      .ok ⟨h.rate, h.cookiePorts, h.udpPorts, hn⟩

theorem XdpConfig.default_sound : XdpConfig.default.Sound := by
  refine ⟨?_, List.not_mem_nil, List.not_mem_nil, by decide⟩
  intro pps hpps
  cases hpps

theorem EngineConfig.default_sound : EngineConfig.default.Sound := by
  refine ⟨?_, ?_, ?_⟩ <;> decide

/-- The lines of a block keep its allows without a scope. -/
theorem tenantLines_yields {header : Line} (lines : List Line) {t : Tenant}
    (ht : Directive.Sound .tenant t) :
    Yields (fun r => Directive.Sound .tenant r.1)
      (tenantLines std header t lines) := by
  induction lines generalizing t with
  | nil => exact .error
  | cons line rest ih =>
      unfold tenantLines
      split
      · exact .error
      · next word args _ =>
        refine .ite (fun _ => .ok ht) fun _ =>
          .bind (Q := Directive.Sound .tenant) ?_ fun t ht =>
            .bind (ih ht) fun r hr => .ok hr
        refine .ite (fun _ => ?_) fun _ => .ite (fun _ => ?_) fun _ => .error
        · split
          · exact .error
          · exact .bind .any fun owned _ => .ok ht
        · refine .bind (Q := fun allow => allow.scope = none) ?_
            fun allow hallow => .ok ?_
          · unfold parseAllow
            split
            · exact .bind .any fun proto _ => .bind .any fun port _ =>
                .bind .any fun target _ => .ok rfl
            · exact .error
          · intro a ha
            rcases List.mem_append.mp ha with ha | ha
            · exact ht a ha
            · rw [List.mem_singleton.mp ha]
              exact hallow

theorem yields_word {P : Stmt × Nat → Prop} (line : Line) (args : List Text)
    (expected : String) {g : Text → Parse (Stmt × Nat)}
    (h : ∀ w, Yields P (g w)) :
    Yields P
      (match args with
        | [w] => g w
        | _ => .error (unexpected line expected)) := by
  rcases args with _ | ⟨w, _ | ⟨w', args⟩⟩
  · exact .error
  · exact h w
  · exact .error

/-- Whatever is read behind a directive is of that directive and sound;
only a tenant goes on behind its own line. -/
theorem readDirective_sound {rest : List Line} {args : List Text}
    {value : Text} (k : Directive) :
    Yields (fun r => r.1.kind = k ∧ Directive.Sound r.1.kind r.1.payload
        ∧ (k ≠ .tenant → r.2 = 0))
      (readDirective m std line rest args value k) := by
  cases k with
  | interface =>
      unfold readDirective
      rcases args with _ | ⟨name, _ | ⟨iface, _ | ⟨w, args⟩⟩⟩
      · exact .error
      · exact .error
      · exact .ok ⟨rfl, trivial, fun _ => rfl⟩
      · exact .error
  | family =>
      exact yields_word line args _ fun raw =>
        .bind .any fun _ _ => .ok ⟨rfl, trivial, fun _ => rfl⟩
  | protect =>
      exact yields_word line args _ fun raw =>
        .bind .any fun _ _ => .ok ⟨rfl, trivial, fun _ => rfl⟩
  | default =>
      exact yields_word line args _ fun state =>
        .ite (fun _ => .ok ⟨rfl, nofun, fun _ => rfl⟩) fun _ =>
        .ite (fun _ => .ok ⟨rfl, nofun, fun _ => rfl⟩) fun _ => .error
  | tenant =>
      refine .bind (Q := fun r => Directive.Sound .tenant r.1) ?_
        fun r hr => .ok ⟨rfl, hr, fun h => absurd rfl h⟩
      unfold parseTenant
      split
      · exact .ite (fun _ => tenantLines_yields rest
          fun _ h => absurd h List.not_mem_nil) fun _ => .error
      · exact .error
  | shape => exact .bind .any fun _ _ => .ok ⟨rfl, trivial, fun _ => rfl⟩
  | bannerFlux =>
      exact .bind .any fun _ _ => .ok ⟨rfl, trivial, fun _ => rfl⟩
  | dnsFlux =>
      exact .bind .any fun _ _ => .bind parseDnsFlux_yields
        fun _ h => .ok ⟨rfl, h, fun _ => rfl⟩
  | rtbh =>
      exact .bind .any fun _ _ => .bind parseRtbh_yields
        fun _ h => .ok ⟨rfl, h, fun _ => rfl⟩
  | flowspec =>
      exact .bind .any fun _ _ => .bind parseFlowspec_yields
        fun _ h => .ok ⟨rfl, h, fun _ => rfl⟩
  | metrics => exact .bind .any fun _ _ => .ok ⟨rfl, trivial, fun _ => rfl⟩
  | api => exact .bind .any fun _ _ => .ok ⟨rfl, trivial, fun _ => rfl⟩
  | pop =>
      exact .bind parsePop_yields fun _ h => .ok ⟨rfl, h, fun _ => rfl⟩
  | engine =>
      exact .bind (.mapM (fun _ => parseEngine_yields) args)
        fun _ h => .ok ⟨rfl, engine_sound h.2, fun _ => rfl⟩
  | flowtable =>
      exact .bind parseFlowtable_yields
        fun _ h => .ok ⟨rfl, h, fun _ => rfl⟩
  | xdp =>
      exact .bind (.foldlM (fun _ _ => xdpArg_yields) args
        XdpConfig.default_sound) fun _ h => .ok ⟨rfl, h, fun _ => rfl⟩
  | statelessTcp =>
      refine .bind (.mapM (R := fun ports => (0 : BitVec 16) ∉ ports)
        (fun tok => ?_) args) fun ports h => .ok ⟨rfl, ?_, fun _ => rfl⟩
      · exact .bind .any fun _ _ => .bind .any fun _ _ => parsePorts_yields
      · intro hzero
        obtain ⟨ps, hps, hin⟩ := List.mem_flatten.mp hzero
        exact h.2 ps hps hin
  | shadow => exact .bind .any fun _ _ => .ok ⟨rfl, trivial, fun _ => rfl⟩
  | instanceName =>
      exact .bind .any fun _ _ => .bind ensure_yields fun _ h =>
        .ok ⟨rfl, mt String.ofList_eq_empty_iff.mp h, fun _ => rfl⟩
  | rpkiValidator =>
      exact .bind .any fun _ _ => .bind ensure_yields fun _ h =>
        .ok ⟨rfl, mt String.ofList_eq_empty_iff.mp h, fun _ => rfl⟩
  | rpkiCheckInterval =>
      exact .bind .any fun _ _ => .bind .any fun _ _ =>
        .ok ⟨rfl, trivial, fun _ => rfl⟩

end Values

-- ============================================================== the policy

section Policies

variable {m : Build} {std : FromStr}

theorem readStmt_sound {line : Line} {rest : List Line} :
    Yields (fun r => Directive.Sound r.1.kind r.1.payload)
      (readStmt m std line rest) := by
  unfold readStmt
  cases line.words with
  | nil => exact .error
  | cons word args =>
      dsimp only
      cases Directive.ofWord word with
      | none => exact .error
      | some kv => exact fun r h => (readDirective_sound kv.1 r h).2.1

theorem readFrom_sound {used : Nat} (lines : List Line) :
    Yields (fun ss => ∀ s ∈ ss, Directive.Sound s.kind s.payload)
      (readFrom m std used lines) := by
  induction lines generalizing used with
  | nil => exact .ok fun _ h => absurd h List.not_mem_nil
  | cons line rest ih =>
      cases used with
      | succ used => exact ih
      | zero =>
          refine .bind readStmt_sound fun r hr => .bind ih fun ss hss =>
            .ok fun s hs => ?_
          rcases List.mem_cons.mp hs with rfl | hs
          · exact hr
          · exact hss s hs

end Policies

theorem said_sound {ss : List Stmt}
    (h : ∀ s ∈ ss, Directive.Sound s.kind s.payload) {k : Directive}
    {x : k.Payload} (hx : x ∈ said k ss) : Directive.Sound k x := by
  obtain ⟨⟨k', y⟩, hs, hy⟩ := List.mem_filterMap.mp hx
  unfold Stmt.about at hy
  split at hy
  · next hk =>
    cases hk
    cases hy
    exact h _ hs
  · cases hy

/-- Unless it is said to be dropped, what is not allowed is deceived. -/
theorem default_sound {ss : List Stmt}
    (h : ∀ s ∈ ss, Directive.Sound s.kind s.payload) :
    (Draft.of ss).defaultState ≠ .opened := by
  show (said .default ss).getLast?.getD .deception ≠ .opened
  cases hlast : (said .default ss).getLast? with
  | none => exact nofun
  | some state =>
      exact said_sound h (k := .default) (List.mem_of_getLast? hlast)

/-- What the daemon can rely on once a configuration is accepted. -/
structure Policy.WellFormed (p : Policy) : Prop where
  defaultState : p.defaultState ≠ .opened
  tenants : ∀ t ∈ p.tenants, ∀ allow ∈ t.allows, allow.scope = none
  dnsFlux : ∀ d ∈ p.dnsFlux, 1 ≤ d.set ∧ d.set ≤ d.count
  rtbh : ∀ r ∈ p.rtbh, r.Sound
  flowspec : ∀ f ∈ p.flowspec, f.Sound ∧ p.rtbh.isSome
  pops : p.pops.Pairwise fun x y => x.agent ≠ y.agent ∧ x.name ≠ y.name
  popNames : ∀ pop ∈ p.pops, pop.name.toList.all popChar = true
  engine : p.engine.Sound
  flowtable : ∀ devices ∈ p.flowtable, devices ≠ [] ∧ "" ∉ devices
  xdp : ∀ x ∈ p.xdp, x.Sound
  statelessTcp : 0 ∉ p.statelessTcpPorts
  instanceName : p.instanceName ≠ some ""
  rpkiValidator : p.rpkiValidator ≠ some ""

theorem complete_wellFormed {ss : List Stmt} {p : Policy}
    (hc : Complete ss p)
    (h : ∀ s ∈ ss, Directive.Sound s.kind s.payload) : p.WellFormed := by
  obtain ⟨settings, iface⟩ := p
  obtain ⟨hvalid, -, hsession, hset⟩ := hc
  obtain rfl : settings = (Draft.of ss).toSettings := hset
  have hlast : ∀ (k : Directive) (x : k.Payload),
      (said k ss).getLast? = some x → Directive.Sound k x :=
    fun k x hx => said_sound h (List.mem_of_getLast? hx)
  constructor
  · exact default_sound h
  · exact fun t ht => said_sound h (k := .tenant) ht
  · exact hlast .dnsFlux
  · exact hlast .rtbh
  · refine fun f hf => ⟨hlast .flowspec f hf, ?_⟩
    have hne : said .flowspec ss ≠ [] :=
      List.ne_nil_of_mem (List.mem_of_getLast? hf)
    exact List.getLast?_isSome.mpr (hsession hne)
  · exact (hvalid .pop).imp fun hxy => not_or.mp hxy
  · exact fun pop hpop => said_sound h (k := .pop) hpop
  · show ((said .engine ss).flatten.foldl EngineConfig.set .default).Sound
    rw [List.foldl_flatten]
    exact List.foldlRecOn _ _ EngineConfig.default_sound
      fun e he knobs hk => said_sound h (k := .engine) hk e he
  · exact hlast .flowtable
  · exact hlast .xdp
  · intro hzero
    obtain ⟨ports, hports, hin⟩ := List.mem_flatten.mp hzero
    exact said_sound h (k := .statelessTcp) hports hin
  · exact fun he => hlast .instanceName "" he rfl
  · exact fun he => hlast .rpkiValidator "" he rfl

/-- With a community there is nothing to refuse to arm for. -/
theorem RtbhPolicy.Sound.verdict {r : RtbhPolicy} (h : r.Sound)
    (hops : List IpAddr) :
    r.nextHopVerdict ≠ .placeholderNoCommunity hops := by
  unfold RtbhPolicy.nextHopVerdict
  rw [if_neg (c := r.blackholeCommunities.isEmpty = true)
    (fun he => h.communities (List.isEmpty_iff.mp he))]
  split <;> exact fun he => by cases he

/-- A configuration that is accepted is well formed in every part, and the
next hops of its blackholes never keep RTBH from being armed. -/
theorem parseStr_wellFormed {m : Build} {std : FromStr} {input : Text}
    {p : Policy} (h : parseStr m std input = .ok p) :
    p.WellFormed ∧ ∀ r ∈ p.rtbh, ∀ hops,
      r.nextHopVerdict ≠ .placeholderNoCommunity hops := by
  obtain ⟨ss, hss, hc⟩ := parse_ok.mp h
  have hwf := complete_wellFormed hc (readFrom_sound _ ss hss)
  exact ⟨hwf, fun r hr => (hwf.rtbh r hr).verdict⟩

/-- Addresses that differ when their texts do not have one length, and one
prefix and number for every text. -/
def sampleStd : FromStr where
  ipAddr t := some (.v4 (BitVec.ofNat 32 (0x0A000000 + t.length)))
  ipv4Addr t := some (BitVec.ofNat 32 (0x0A000100 + t.length))
  ipv6Addr _ := none
  socketAddr _ := none
  ipNet _ := some (.v4 (.slash 0x0A000000 8))
  f64 _ := some ⟨0x3FE0000000000000⟩
  f32 _ := some ⟨0x3F800000⟩

def row (s : String) : List Text := s.toList.splitOn ' '

def headRows : List (List Text) :=
  [row "interface w e", row "ipv4 p", row "default drop",
    row "dns-flux server=a zone=z name=n from=p count=4 set=2 tsig=k"]

def tenantRows : List (List Text) :=
  [row "tenant t \x7b", row "owns a", row "allow tcp 443 host", row "\x7d"]

def sampleRows : List (List Text) := headRows ++ tenantRows

/-- A line for every part of a policy that is checked. -/
def fullRows : List (List Text) :=
  headRows
    ++ [row "rtbh peer=a local-as=1 peer-as=1 router-id=r"
        ++ row "next-hop-v4=b max=9 hold-down=60s",
      row "flowspec concentration=c max-flows=4 rate=x"
        ++ row "max-rules=8 hold-down=60s",
      row "pop p agent=a sampling=7", row "pop q agent=aa sampling=7",
      row "engine max-concurrent=9", row "flowtable devices=e",
      row "xdp cookie-ports=443", row "stateless-tcp ports=80",
      row "instance=n", row "rpki-validator=u"]
    ++ tenantRows

theorem fullRows_plain : ∀ ws ∈ fullRows, ws ≠ [] ∧ ∀ w ∈ ws, Plain w := by
  unfold fullRows headRows tenantRows row
  repeat rw [String.toList_ofList]
  decide +kernel

theorem sampleRows_plain :
    ∀ ws ∈ sampleRows, ws ≠ [] ∧ ∀ w ∈ ws, Plain w := by
  intro ws hws
  refine fullRows_plain ws ?_
  simp only [fullRows, sampleRows, List.mem_append] at hws ⊢
  exact hws.imp_left .inl

def samplePolicy : Policy :=
  { Draft.start.toSettings with
    interface := "e"
    prefixes := [.v4 (.slash 0x0A000000 8)]
    defaultState := .closed
    dnsFlux := some
      { server := ⟨.v4 0x0A000001, 53⟩
        zone := "z"
        name := "n"
        net := .v4 (.slash 0x0A000000 8)
        count := 4
        set := 2
        period := 300
        ttl := 30
        tsigPath := "k" }
    tenants := [⟨"t", [.v4 0x0A000001], [⟨.tcp, 443, .host, none⟩]⟩] }

def fullPolicy : Policy :=
  { samplePolicy with
    rtbh := some
      { localAsn := 1
        peerAsn := 1
        peerAddr := ⟨.v4 0x0A000001, 179⟩
        routerId := 0x0A000101
        blackholeCommunities := [(65535, 666)]
        nextHopV4 := some 0x0A000101
        nextHopV6 := none
        maxBlackholes := 9
        holdDown := 60
        maxTtl := none
        md5 := none
        gtsmHops := none
        localAddr := none
        maxNewPerMin := none }
    flowspec := some
      ⟨⟨0x3FE0000000000000⟩, 4, ⟨0x3F800000⟩, 8, 60, none⟩
    pops := [⟨"p", .v4 0x0A000001, 7⟩, ⟨"q", .v4 0x0A000002, 7⟩]
    engine := { EngineConfig.default with maxConcurrent := 9 }
    flowtable := some ["e"]
    xdp := some { XdpConfig.default with cookiePorts := [443] }
    statelessTcpPorts := [80]
    instanceName := some "n"
    rpkiValidator := some "u" }

theorem sampleRows_accepted :
    parseStr .release sampleStd (plainText sampleRows)
      = .ok samplePolicy := by
  rw [parseStr, lex_plain sampleRows_plain]
  unfold sampleRows headRows tenantRows row
  repeat rw [String.toList_ofList]
  decide +kernel

/-- A configuration with every part that is checked. -/
theorem parseStr_wellFormed_full : fullPolicy.WellFormed
    ∧ ∀ r ∈ fullPolicy.rtbh, ∀ hops,
      r.nextHopVerdict ≠ .placeholderNoCommunity hops := by
  have h : parseStr .release sampleStd (plainText fullRows)
      = .ok fullPolicy := by
    rw [parseStr, lex_plain fullRows_plain]
    unfold fullRows headRows tenantRows row
    repeat rw [String.toList_ofList]
    decide +kernel
  exact parseStr_wellFormed h

end Blackwall.Config
