/-
From the text of a configuration to the verdict on a packet.

`parse_and_resolve` accepts a text, the ruleset is made from the policy
and loaded, and the kernel evaluates it packet by packet. Here the three
are put together, against what the project documents: every port has a
state, open where the tenant block that owns the address allows it and the
default everywhere else, and the state says what becomes of the packet
(`documented`). None of it speaks of the policy, the services or the rules
in between.

The ruleset keeps to this but in one place. The rules that hand the
prefixes to the deception tiers come before the one that drops, whatever
the default is, so under `default drop` a packet for a port of a prefix
that no block allows is deceived and not dropped (`Overlooked`).
-/
import Blackwall.Config.Proofs.WellFormed
import Blackwall.Core.Proofs.Resolve
import Blackwall.Nft.Proofs.Classify

namespace Blackwall.Config

open Base
open Core (InstanceIds PortState ResolvedService SocketAddr Tenant)
open Nft (Packet Verdict protoNumber)

section Verdicts

variable (ss : List Stmt) (pkt : Packet)

/-- A tenant block owns the packet's address and allows its port. -/
def Offered : Prop :=
  ∃ t ∈ said .tenant ss, pkt.daddr ∈ t.owned
    ∧ ∃ a ∈ t.allows, pkt.l4proto = protoNumber a.proto
      ∧ pkt.dport = some a.port

instance Offered.decidable : Decidable (Offered ss pkt) :=
  inferInstanceAs (Decidable (∃ t ∈ said .tenant ss, _))

/-- The packet's address is in a prefix of the configuration. -/
def Covered : Prop :=
  ∃ n ∈ said .family ss, n.contains pkt.daddr = true

instance Covered.decidable : Decidable (Covered ss pkt) :=
  inferInstanceAs (Decidable (∃ n ∈ said .family ss, _))

/-- The packet is answered without a session. -/
def Answered : Prop :=
  pkt.l4proto ≠ protoNumber .tcp
    ∨ ∃ port ∈ (said .statelessTcp ss).flatten, pkt.dport = some port

instance Answered.decidable : Decidable (Answered ss pkt) :=
  inferInstanceAs (Decidable (_ ∨ ∃ port ∈ _, _))

/-- The state of the port the packet is for: that of `default`, if no
`allow` is for it. -/
def portState : PortState :=
  if Offered ss pkt then .opened else (Draft.of ss).defaultState

/-- To the deception tiers: to the queue, or marked and to the proxy's
socket. -/
def deceived : Verdict × Packet :=
  let d := Draft.of ss
  if Answered ss pkt then (.queue d.engine.nfqueueNum.toNat, pkt)
  else
    (.accept,
      { pkt with
        mark := (InstanceIds.derive d.instanceName).tproxyMark.toNat
        socket := some d.engine.tproxyPort.toNat })

/-- The packet comes in on the interface of the configuration. -/
def Arrives : Prop := (Draft.of ss).interface = some pkt.iif

instance Arrives.decidable : Decidable (Arrives ss pkt) :=
  inferInstanceAs (Decidable (_ = _))

/-- What the states are documented to do. Other interfaces are left alone,
and the deception tiers answer for the prefixes only. -/
def documented : Verdict × Packet :=
  if Arrives ss pkt then
    match portState ss pkt with
    | .opened => (.accept, pkt)
    | .closed => (.drop, pkt)
    | .deception => if Covered ss pkt then deceived ss pkt else (.accept, pkt)
  else (.accept, pkt)

/-- The packet should be dropped, and its address is in a prefix. -/
def Overlooked : Prop :=
  Arrives ss pkt ∧ portState ss pkt = .closed ∧ Covered ss pkt

instance Overlooked.decidable : Decidable (Overlooked ss pkt) :=
  inferInstanceAs (Decidable (_ ∧ _ ∧ _))

theorem documented_overlooked (h : Overlooked ss pkt) :
    documented ss pkt = (.drop, pkt) := by
  rw [documented, if_pos h.1, h.2.1]

end Verdicts

section Services

variable {p : Policy} {services : List ResolvedService}

/-- A service of the policy is an `allow` of the tenant that owns the
address. -/
theorem serves_iff (hres : p.core.resolve = .ok services)
    (hscope : ∀ t ∈ p.tenants, ∀ a ∈ t.allows, a.scope = none)
    (pkt : Packet) :
    Nft.Serves services pkt
      ↔ ∃ t ∈ p.tenants, pkt.daddr ∈ t.owned
        ∧ ∃ a ∈ t.allows, pkt.l4proto = protoNumber a.proto
          ∧ pkt.dport = some a.port := by
  obtain ⟨rfl, howned, -⟩ := Core.Policy.resolve_ok_iff.mp hres
  constructor
  · rintro ⟨s, hs, haddr, hproto, hport⟩
    obtain ⟨t, ho, a, ha, hsvc⟩ := (Core.Policy.mem_services howned).mp hs
    obtain ⟨ht, hin⟩ := Core.Policy.owner_holds ho
    refine ⟨t, ht, haddr ▸ hin, a, List.mem_of_mem_filter ha, ?_⟩
    rw [← hsvc] at hproto hport
    exact ⟨hproto, hport⟩
  · rintro ⟨t, ht, hin, a, ha, hproto, hport⟩
    have ho : p.core.owner pkt.daddr = some t :=
      howned.mem_holdings_iff.mp (Core.Policy.mem_holdings.mpr ⟨ht, hin⟩)
    have happlies : a ∈ t.rulesAt pkt.daddr := by
      refine List.mem_filter.mpr ⟨ha, ?_⟩
      rw [Core.AllowRule.appliesTo, hscope t ht a ha]
      rfl
    exact ⟨a.service pkt.daddr t.name,
      (Core.Policy.mem_services howned).mpr ⟨t, ho, a, happlies, rfl⟩,
      rfl, hproto, hport⟩

/-- The groups of the ruleset in order, said of the statements. -/
theorem classify_statements {ss : List Stmt} (hc : Complete ss p)
    (hres : p.core.resolve = .ok services)
    (hscope : ∀ t ∈ p.tenants, ∀ a ∈ t.allows, a.scope = none)
    (pkt : Packet) :
    Nft.classify p.core services (Nft.leftover p.core) pkt
      = if ¬ Arrives ss pkt then (.accept, pkt)
        else if Offered ss pkt then (.accept, pkt)
        else if Covered ss pkt then deceived ss pkt
        else (if (Draft.of ss).defaultState = .closed then .drop else .accept,
          pkt) := by
  have hserves := serves_iff hres hscope pkt
  obtain ⟨settings, iface⟩ := p
  obtain rfl : settings = (Draft.of ss).toSettings := hc.settings
  have hiface : (Draft.of ss).interface = some iface := hc.interface
  have hoff : Nft.Serves services pkt ↔ Offered ss pkt := hserves
  have hother : pkt.iif ≠ iface ↔ ¬ Arrives ss pkt := by
    rw [Arrives, hiface, Option.some.injEq, eq_comm]
  refine if_congr hother rfl (if_congr hoff rfl (if_congr Iff.rfl ?_ rfl))
  exact if_congr Iff.rfl rfl rfl

/-- The ruleset goes by the states, but for what it overlooks. -/
theorem classify_documented {ss : List Stmt} (hc : Complete ss p)
    (hres : p.core.resolve = .ok services) (hwf : p.WellFormed)
    (pkt : Packet) :
    Nft.classify p.core services (Nft.leftover p.core) pkt
      = if Overlooked ss pkt then deceived ss pkt else documented ss pkt := by
  have hopened : (Draft.of ss).defaultState ≠ .opened := by
    have hsettings := hwf.defaultState
    rwa [hc.settings] at hsettings
  rw [classify_statements hc hres hwf.tenants, documented]
  by_cases hin : Arrives ss pkt
  swap
  · rw [if_pos hin, if_neg hin,
      if_neg (c := Overlooked ss pkt) fun h => hin h.1]
  rw [if_neg (not_not.mpr hin), if_pos hin]
  by_cases hoff : Offered ss pkt
  · have hstate : portState ss pkt = .opened := if_pos hoff
    rw [if_pos hoff, hstate, if_neg (c := Overlooked ss pkt)
      fun h => by cases hstate.symm.trans h.2.1]
  have hdefault : portState ss pkt = (Draft.of ss).defaultState := if_neg hoff
  rw [if_neg hoff, ← hdefault]
  rw [← hdefault] at hopened
  by_cases hcov : Covered ss pkt
  · -- the prefixes are handed over under either default
    rw [if_pos hcov]
    cases hstate : portState ss pkt with
    | opened => exact absurd hstate hopened
    | closed =>
        rw [if_pos (c := Overlooked ss pkt) ⟨hin, hstate, hcov⟩]
    | deception =>
        rw [if_neg (c := Overlooked ss pkt)
          fun h => by cases hstate.symm.trans h.2.1]
        exact (if_pos hcov).symm
  · rw [if_neg hcov, if_neg (c := Overlooked ss pkt) fun h => hcov h.2.2]
    cases hstate : portState ss pkt with
    | opened => exact absurd hstate hopened
    | closed => rfl
    | deception => exact (if_neg hcov).symm

end Services

-- the drop comes too late for a port of a prefix
example :
    let ss : List Stmt :=
      [⟨.interface, "e"⟩, ⟨.family, .v4 (.slash 0x0A000000 8)⟩,
        ⟨.default, .closed⟩]
    let pkt : Packet := ⟨"e", .v4 0x0A000009, 17, some 53, 0, none⟩
    documented ss pkt = (.drop, pkt) ∧ deceived ss pkt = (.queue 0, pkt)
      ∧ Overlooked ss pkt := by
  decide +kernel

end Blackwall.Config
