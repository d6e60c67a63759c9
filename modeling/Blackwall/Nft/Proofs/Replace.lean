/-
Applying one policy after another.

The chains always hold the last policy's rules: the flush empties them
and its blocks fill them again. The sets hold what every policy of the
sequence opened, since the flush leaves their elements alone and `add
set` only adds; so a service stays open after a policy that no longer
has it. The last policy replaces the open services exactly when it still
opens everything that an earlier one did (`replaced_iff`).
-/
import Blackwall.Base.Run
import Blackwall.Nft.Proofs.Transact

namespace Blackwall.Nft

open Base Blackwall.Core

-- ========================================================== the property

/-- The kernel after applying the policies in order, from no table; every
policy route could be set up. -/
def applied (disp : SocketAddr → String) (ps : List Policy) : Kernel :=
  run (fun p k => (apply disp true p k).2) ∅ ps

/-- The set has exactly the services of a family. -/
def Opens (t : Table) (set : String) (family : IpAddr → Bool)
    (services : List ResolvedService) : Prop :=
  ∀ e, e ∈ t.elements set
    ↔ ∃ s ∈ services, family s.addr = true ∧ e = setElement s

/-- The table of `p`'s instance is `p`'s: its sets have `p`'s services,
its chains `p`'s rules. -/
def Replaced (disp : SocketAddr → String) (p : Policy) (k : Kernel) : Prop :=
  let ids := InstanceIds.derive p.instanceName
  ∃ resolved t, p.resolve = .ok resolved ∧ k.lookup ids.nftTable = some t
    ∧ Opens t "real_v4" IpAddr.isIpv4 resolved
    ∧ Opens t "real_v6" IpAddr.isIpv6 resolved
    ∧ t.rules "prerouting" = preroutingRules p ids
    ∧ t.rules "dnat" = dnatRules disp p resolved

-- ============================================================== elements

/-- The element of a service says what it opens, and nothing else. -/
theorem setElement_inj {s s' : ResolvedService} :
    setElement s = setElement s' ↔ s.key = s'.key := by
  have htext : s.proto.text = s'.proto.text ↔ s.proto = s'.proto := by
    cases s.proto <;> cases s'.proto <;> decide
  simp only [setElement, ResolvedService.key, Expression.concat.injEq,
    List.cons.injEq, Atom.addr.injEq, Atom.string.injEq,
    Atom.number.injEq, and_true, Prod.mk.injEq, htext, BitVec.toNat_inj]

theorem mem_setElementsFor {services : List ResolvedService}
    {family : IpAddr → Bool} {e : Expression} :
    e ∈ (setElementsFor services fun s => family s.addr).toFinset
      ↔ ∃ s ∈ services, family s.addr = true ∧ e = setElement s := by
  simp only [setElementsFor, List.mem_toFinset, List.mem_map,
    List.mem_filter, and_assoc, @eq_comm _ (setElement _)]

/-- What a policy adds to a set. -/
theorem Opens.union {t t' : Table} {set : String} {family : IpAddr → Bool}
    {old new : List ResolvedService} (h : Opens t set family old)
    (hnew : t'.elements set = t.elements set
      ∪ (setElementsFor new fun s => family s.addr).toFinset) :
    Opens t' set family (old ++ new) := by
  intro e
  rw [hnew, Finset.mem_union, h e, mem_setElementsFor]
  simp only [List.mem_append, or_and_right, exists_or]

/-- A set with the services of `old` and `new` has those of `new` alone
when `new` opens all that `old` does. -/
theorem opens_right_iff {t : Table} {set : String} {family : IpAddr → Bool}
    {old new : List ResolvedService} (h : Opens t set family (old ++ new)) :
    Opens t set family new
      ↔ ∀ s ∈ old, family s.addr = true → ∃ s' ∈ new, s'.key = s.key := by
  constructor
  · intro hnew s hs hfam
    obtain ⟨s', hs', -, he⟩ := (hnew _).mp
      ((h _).mpr ⟨s, List.mem_append_left _ hs, hfam, rfl⟩)
    exact ⟨s', hs', (setElement_inj.mp he).symm⟩
  · intro hcov e
    refine (h e).trans ⟨?_, ?_⟩
    · rintro ⟨s, hs, hfam, rfl⟩
      cases List.mem_append.mp hs with
      | inr hs => exact ⟨s, hs, hfam, rfl⟩
      | inl hs =>
          obtain ⟨s', hs', hkey⟩ := hcov s hs hfam
          have haddr : s'.addr = s.addr := congrArg (·.1) hkey
          exact ⟨s', hs', haddr ▸ hfam, setElement_inj.mpr hkey.symm⟩
    · rintro ⟨s, hs, hfam, rfl⟩
      exact ⟨s, List.mem_append_right _ hs, hfam, rfl⟩

-- ============================================================ a sequence

section Sequence

variable (disp : SocketAddr → String) {name : Option String}

/-- The policies of one instance, each of which resolves. -/
def Applicable (name : Option String) (ps : List Policy) : Prop :=
  ∀ p ∈ ps, p.instanceName = name ∧ ∃ r, p.resolve = .ok r

theorem applied_concat (ps : List Policy) (p : Policy) :
    applied disp (ps ++ [p]) = (apply disp true p (applied disp ps)).2 :=
  run_append ..

/-- The sets hold what any policy of the sequence opened. -/
theorem opens_applied {ps : List Policy} (hps : Applicable name ps) :
    let t := Kernel.table (InstanceIds.derive name).nftTable
      (applied disp ps)
    Opens t "real_v4" IpAddr.isIpv4 (ps.flatMap Policy.services)
      ∧ Opens t "real_v6" IpAddr.isIpv6 (ps.flatMap Policy.services) := by
  induction ps using List.reverseRecOn with
  | nil =>
      refine ⟨fun e => ?_, fun e => ?_⟩
      · simp [Kernel.table, applied, Table.elements, Table.empty]
      · simp [Kernel.table, applied, Table.elements, Table.empty]
  | append_singleton ps p ih =>
      obtain ⟨h4, h6⟩ := ih fun q hq => hps q (List.mem_append_left _ hq)
      obtain ⟨rfl, r, hr⟩ := hps p (by simp)
      obtain ⟨-, t', hlk, h4', h6', -, -⟩ :=
        apply_effect disp hr (applied disp ps)
      rw [← applied_concat] at hlk
      obtain rfl := Policy.resolve_ok hr
      simp only [Kernel.table, hlk, Option.getD_some, List.flatMap_append,
        List.flatMap_singleton]
      exact ⟨h4.union h4', h6.union h6'⟩

/-- The chains hold the last policy's rules alone. -/
theorem rules_applied {ps : List Policy} {p : Policy}
    (hps : Applicable name (ps ++ [p])) :
    ∃ t, (applied disp (ps ++ [p])).lookup
        (InstanceIds.derive name).nftTable = some t
      ∧ t.rules "prerouting"
        = preroutingRules p (InstanceIds.derive name)
      ∧ t.rules "dnat" = dnatRules disp p p.services := by
  obtain ⟨rfl, r, hr⟩ := hps p (by simp)
  obtain ⟨-, t', hlk, -, -, hpre, hdnat⟩ :=
    apply_effect disp hr (applied disp ps)
  rw [← applied_concat] at hlk
  obtain rfl := Policy.resolve_ok hr
  exact ⟨t', hlk, hpre, hdnat⟩

/-- The last policy of the sequence replaces the open services exactly
when it opens all that the policies before it opened. -/
theorem replaced_iff {ps : List Policy} {p : Policy}
    (hps : Applicable name (ps ++ [p])) :
    Replaced disp p (applied disp (ps ++ [p]))
      ↔ ∀ q ∈ ps, ∀ s ∈ q.services, ∃ s' ∈ p.services, s'.key = s.key := by
  obtain ⟨rfl, r, hr⟩ := hps p (by simp)
  obtain ⟨t, hlk, hpre, hdnat⟩ := rules_applied disp hps
  have hopen := opens_applied disp hps
  simp only [Kernel.table, hlk, Option.getD_some, List.flatMap_append,
    List.flatMap_singleton] at hopen
  have hcov : Opens t "real_v4" IpAddr.isIpv4 p.services
      ∧ Opens t "real_v6" IpAddr.isIpv6 p.services
      ↔ ∀ q ∈ ps, ∀ s ∈ q.services,
        ∃ s' ∈ p.services, s'.key = s.key := by
    rw [opens_right_iff hopen.1, opens_right_iff hopen.2]
    constructor
    · intro h q hq s hs
      have hmem : s ∈ ps.flatMap Policy.services :=
        List.mem_flatMap.mpr ⟨q, hq, hs⟩
      cases hfam : s.addr.isIpv4 with
      | true => exact h.1 s hmem hfam
      | false => exact h.2 s hmem (by rw [IpAddr.isIpv6, hfam]; rfl)
    · intro h
      have hall : ∀ s ∈ ps.flatMap Policy.services,
          ∃ s' ∈ p.services, s'.key = s.key := by
        intro s hs
        obtain ⟨q, hq, hs⟩ := List.mem_flatMap.mp hs
        exact h q hq s hs
      exact ⟨fun s hs _ => hall s hs, fun s hs _ => hall s hs⟩
  refine Iff.trans ⟨?_, ?_⟩ hcov
  · rintro ⟨resolved, t', hres, hlk', h4, h6, -, -⟩
    obtain rfl := Policy.resolve_ok hres
    obtain rfl : t = t' := Option.some.inj (hlk.symm.trans hlk')
    exact ⟨h4, h6⟩
  · rintro ⟨h4, h6⟩
    obtain rfl := Policy.resolve_ok hr
    exact ⟨p.services, t, hr, hlk, h4, h6, hpre, hdnat⟩

end Sequence

-- ============================================================ two policies

/-- A policy of one prefix whose tenant opens a port on one address. -/
def webPolicy (ports : List (BitVec 16)) : Policy :=
  { interface := "lo"
    prefixes := [.v4 (.slash 0xCB007100 24)]
    defaultState := .deception
    tenants :=
      [{ name := "acme", owned := [.v4 0xCB007105]
         allows := ports.map fun port => ⟨.tcp, port, .host, none⟩ }]
    engine := ⟨61000, 0⟩
    flowtable := none
    statelessTcpPorts := []
    instanceName := none }

theorem applicable_webPolicies {ps : List Policy}
    (h : ∀ p ∈ ps, p.instanceName = none
      ∧ (p.resolve).toOption.isSome = true) : Applicable none ps := by
  intro p hp
  refine ⟨(h p hp).1, ?_⟩
  cases hr : p.resolve with
  | ok r => exact ⟨r, rfl⟩
  | error err =>
      have hsome := (h p hp).2
      rw [hr] at hsome
      cases hsome

/-- Opening a second port replaces the first policy. -/
theorem replaced_iff_more :
    Replaced (fun _ => "") (webPolicy [443, 80])
      (applied (fun _ => "") ([webPolicy [443]] ++ [webPolicy [443, 80]])) :=
  (replaced_iff _ (applicable_webPolicies (by decide +kernel))).mpr
    (by decide +kernel)

/-- A service stays in the set after a policy that no longer has it. -/
theorem closed_service_stays_open :
    ¬ Replaced (fun _ => "") (webPolicy [])
      (applied (fun _ => "") [webPolicy [443], webPolicy []]) := by
  rintro ⟨resolved, t, hres, hlk, h4, -⟩
  have hstays : .concat [.addr (.v4 0xCB007105), .string "tcp", .number 443]
      ∈ (Kernel.table "blackwall" (applied (fun _ => "")
        [webPolicy [443], webPolicy []])).elements "real_v4" := by
    decide +kernel
  have htable : Kernel.table "blackwall" (applied (fun _ => "")
      [webPolicy [443], webPolicy []]) = t := by
    rw [Kernel.table]
    exact congrArg (·.getD .empty) hlk
  rw [htable, h4, Policy.resolve_ok hres] at hstays
  obtain ⟨s, hs, -⟩ := hstays
  cases hs

end Blackwall.Nft
