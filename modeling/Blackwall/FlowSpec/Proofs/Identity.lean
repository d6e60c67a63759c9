/-
The controller's identity of a rule against the wire's.

`key_of` takes the destination as it is written and reads an omitted
protocol or port as 0. The NLRI takes the masked destination and leaves
out what is omitted. The two agree on a pair of rules unless they differ
in host bits only (one NLRI, two keys) or in an omitted 0 only (one key,
two NLRIs).
-/
import Blackwall.Bgp.Proofs.FlowRule
import Blackwall.FlowSpec.Controller

namespace Blackwall.FlowSpec

open Bgp (FlowSpecRule encodeFlowspecNlri afiOf)

/-- One flow, its destination written with different host bits. -/
def HostBitsApart (r r' : FlowSpecRule) : Prop :=
  r.dst ≠ r'.dst ∧ r.dst.trunc = r'.dst.trunc ∧ r.protocol = r'.protocol
    ∧ r.dstPort = r'.dstPort

/-- One destination, and an omitted match of one rule is a match of 0 in
the other: that is all they differ in. -/
def OmittedZero (r r' : FlowSpecRule) : Prop :=
  r.dst = r'.dst ∧ (r.protocol ≠ r'.protocol ∨ r.dstPort ≠ r'.dstPort)
    ∧ r.protocol.getD 0 = r'.protocol.getD 0
    ∧ r.dstPort.getD 0 = r'.dstPort.getD 0

theorem keyOf_eq_iff (r r' : FlowSpecRule) :
    keyOf r = keyOf r' ↔ r.dst = r'.dst
      ∧ r.protocol.getD 0 = r'.protocol.getD 0
      ∧ r.dstPort.getD 0 = r'.dstPort.getD 0 := by
  simp [keyOf]

theorem afiOf_of_trunc {r r' : FlowSpecRule}
    (h : r.dst.trunc = r'.dst.trunc) : afiOf r = afiOf r' := by
  unfold afiOf
  cases hr : r.dst <;> cases hr' : r'.dst <;>
    simp [hr, hr', IpNet.trunc] at h ⊢

/-- The wire's identity: the masked destination and what is matched. -/
theorem sameNlri_iff (r r' : FlowSpecRule) :
    encodeFlowspecNlri r = encodeFlowspecNlri r' ∧ afiOf r = afiOf r'
      ↔ r.dst.trunc = r'.dst.trunc ∧ r.protocol = r'.protocol
        ∧ r.dstPort = r'.dstPort := by
  rw [Bgp.encodeFlowspecNlri_inj]
  exact and_iff_left_of_imp fun h => afiOf_of_trunc h.1

/-- Two rules have one key exactly when they have one NLRI of one family,
unless they differ in host bits or in an omitted 0 alone. -/
theorem key_identifies_nlri_iff (r r' : FlowSpecRule) :
    (keyOf r = keyOf r'
        ↔ encodeFlowspecNlri r = encodeFlowspecNlri r'
          ∧ afiOf r = afiOf r')
      ↔ ¬HostBitsApart r r' ∧ ¬OmittedZero r r' := by
  rw [keyOf_eq_iff, sameNlri_iff]
  constructor
  · intro h
    constructor
    · rintro ⟨hdst, htrunc, hproto, hport⟩
      exact hdst (h.mpr ⟨htrunc, hproto, hport⟩).1
    · rintro ⟨hdst, hne, hproto, hport⟩
      obtain ⟨-, hproto', hport'⟩ := h.mp ⟨hdst, hproto, hport⟩
      exact hne.elim (absurd hproto') (absurd hport')
  · rintro ⟨hbits, hzero⟩
    constructor
    · rintro ⟨hdst, hproto, hport⟩
      refine ⟨by rw [hdst], ?_⟩
      by_contra hne
      exact hzero ⟨hdst, not_and_or.mp hne, hproto, hport⟩
    · rintro ⟨htrunc, hproto, hport⟩
      refine ⟨?_, by rw [hproto], by rw [hport]⟩
      by_contra hdst
      exact hbits ⟨hdst, htrunc, hproto, hport⟩

/-- Any protocol and protocol 0 share a key, and two spellings of one
network have two. -/
theorem key_not_nlri :
    let any : FlowSpecRule :=
      ⟨.v4 (.slash 0xCB007107 32), none, some 53, .trafficRate ⟨0⟩⟩
    let zero : FlowSpecRule := { any with protocol := some 0 }
    let net : FlowSpecRule := { any with dst := .v4 (.slash 0xCB007100 24) }
    let net' : FlowSpecRule := { any with dst := .v4 (.slash 0xCB007107 24) }
    keyOf any = keyOf zero
      ∧ encodeFlowspecNlri any ≠ encodeFlowspecNlri zero
      ∧ keyOf net ≠ keyOf net'
      ∧ encodeFlowspecNlri net = encodeFlowspecNlri net' := by
  decide

/-- The rules the daemon makes have no host bits and match both fields:
for them the key is the NLRI. -/
theorem host_rule_key_iff {r r' : FlowSpecRule} {t t' : IpAddr}
    (hdst : r.dst = hostPrefix t) (hdst' : r'.dst = hostPrefix t')
    (hboth : r.protocol.isSome ∧ r.dstPort.isSome)
    (hboth' : r'.protocol.isSome ∧ r'.dstPort.isSome) :
    keyOf r = keyOf r' ↔ encodeFlowspecNlri r = encodeFlowspecNlri r' := by
  have htrunc : ∀ t, (hostPrefix t).trunc = hostPrefix t := by
    intro t
    cases t <;>
      simp [hostPrefix, IpNet.trunc, Cidr.trunc, Cidr.network, Fin.last]
  rw [keyOf_eq_iff, Bgp.encodeFlowspecNlri_inj, hdst, hdst', htrunc,
    htrunc]
  obtain ⟨p, hp⟩ := Option.isSome_iff_exists.mp hboth.1
  obtain ⟨q, hq⟩ := Option.isSome_iff_exists.mp hboth.2
  obtain ⟨p', hp'⟩ := Option.isSome_iff_exists.mp hboth'.1
  obtain ⟨q', hq'⟩ := Option.isSome_iff_exists.mp hboth'.2
  simp [hp, hq, hp', hq']

end Blackwall.FlowSpec
