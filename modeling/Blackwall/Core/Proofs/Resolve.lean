/-
When a policy resolves, and to which services.

The two loops of `resolve` are two uniqueness checks: an address has one
holder, and a service one definition. Under the first the services on an
address are the rules of its owner that apply there (`mem_services`), so
the second can be read address by address (`nodup_services`).
-/
import Blackwall.Core.Policy
import Mathlib.Data.List.Nodup

namespace Blackwall.Core

/-- The rule opens its port on this address. -/
def AllowRule.appliesTo (r : AllowRule) (a : IpAddr) : Bool :=
  !r.scope.any fun own => own ≠ a

/-- What the rule opens on an address. -/
def AllowRule.key (r : AllowRule) : L4Proto × BitVec 16 := (r.proto, r.port)

/-- A tenant's rules on an address. -/
def Tenant.rulesAt (t : Tenant) (a : IpAddr) : List AllowRule :=
  t.allows.filter fun r => r.appliesTo a

/-- The service a rule opens on an address. -/
def AllowRule.service (r : AllowRule) (a : IpAddr) (tenant : String) :
    ResolvedService :=
  { addr := a, proto := r.proto, port := r.port, target := r.target
    tenant }

namespace Policy

variable {p : Policy}

-- ============================================================== holdings

/-- The address is in a managed prefix. -/
def managed (p : Policy) (a : IpAddr) : Bool :=
  p.prefixes.any fun n => n.contains a

/-- The tenants' addresses, each with its tenant. -/
def holdings (p : Policy) : List (IpAddr × Tenant) :=
  p.tenants.flatMap fun t => t.owned.map fun a => (a, t)

/-- The first tenant that has the address. -/
def owner (p : Policy) (a : IpAddr) : Option Tenant :=
  p.tenants.find? fun t => t.owned.contains a

/-- What the first loop checks. -/
structure Owned (p : Policy) : Prop where
  managed : ∀ h ∈ p.holdings, p.managed h.1 = true
  once : (p.holdings.map Prod.fst).Nodup

theorem mem_holdings {a : IpAddr} {t : Tenant} :
    (a, t) ∈ p.holdings ↔ t ∈ p.tenants ∧ a ∈ t.owned := by
  simp only [holdings, List.mem_flatMap, List.mem_map, Prod.mk.injEq]
  constructor
  · rintro ⟨t', ht, a', ha, rfl, rfl⟩
    exact ⟨ht, ha⟩
  · rintro ⟨ht, ha⟩
    exact ⟨t, ht, a, ha, rfl, rfl⟩

theorem owner_holds {a : IpAddr} {t : Tenant} (h : p.owner a = some t) :
    t ∈ p.tenants ∧ a ∈ t.owned :=
  ⟨List.mem_of_find?_eq_some h, by simpa using List.find?_some h⟩

theorem owner_eq_none {a : IpAddr} :
    p.owner a = none ↔ ∀ t ∈ p.tenants, a ∉ t.owned := by
  simp [owner]

/-- The holder of an address is its owner. -/
theorem Owned.mem_holdings_iff (h : p.Owned) {a : IpAddr} {t : Tenant} :
    (a, t) ∈ p.holdings ↔ p.owner a = some t := by
  constructor
  · intro hmem
    obtain ⟨ht, ha⟩ := mem_holdings.mp hmem
    cases ho : p.owner a with
    | none => exact absurd ha (owner_eq_none.mp ho t ht)
    | some t' =>
        have hmem' : (a, t') ∈ p.holdings := mem_holdings.mpr (owner_holds ho)
        have heq := List.inj_on_of_nodup_map h.once hmem hmem' rfl
        rw [(Prod.mk.inj heq).2]
  · intro ho
    exact mem_holdings.mpr (owner_holds ho)

/-- The first check, over the addresses alone. -/
theorem owned_iff :
    p.Owned ↔ (∀ a ∈ p.tenants.flatMap Tenant.owned, p.managed a = true)
      ∧ (p.tenants.flatMap Tenant.owned).Nodup := by
  have hfst : p.holdings.map Prod.fst
      = p.tenants.flatMap Tenant.owned := by
    simp [holdings, List.map_flatMap, Function.comp_def]
  rw [← hfst, List.forall_mem_map]
  exact ⟨fun h => ⟨h.managed, h.once⟩, fun h => ⟨h.1, h.2⟩⟩

-- ============================================================= services

theorem services_eq :
    p.services = p.holdings.flatMap fun h =>
      (h.2.rulesAt h.1).map fun r => r.service h.1 h.2.name := by
  simp only [services, holdings, List.flatMap_assoc, List.flatMap_map]
  rfl

theorem mem_services (h : p.Owned) {s : ResolvedService} :
    s ∈ p.services ↔ ∃ t, p.owner s.addr = some t
      ∧ ∃ r ∈ t.rulesAt s.addr, r.service s.addr t.name = s := by
  rw [services_eq, List.mem_flatMap]
  constructor
  · rintro ⟨⟨a, t⟩, hmem, hs⟩
    obtain ⟨r, hr, rfl⟩ := List.mem_map.mp hs
    exact ⟨t, h.mem_holdings_iff.mp hmem, r, hr, rfl⟩
  · rintro ⟨t, ho, r, hr, hs⟩
    exact ⟨(s.addr, t), h.mem_holdings_iff.mpr ho,
      List.mem_map.mpr ⟨r, hr, hs⟩⟩

/-- No service is defined twice when no owner opens a port twice. -/
theorem nodup_services (h : p.Owned) :
    (p.services.map ResolvedService.key).Nodup
      ↔ ∀ a t, p.owner a = some t →
        ((t.rulesAt a).map AllowRule.key).Nodup := by
  have hat : ∀ a (t : Tenant), ((t.rulesAt a).map AllowRule.key).Nodup
      ↔ (((t.rulesAt a).map fun r => r.service a t.name).map
        ResolvedService.key).Nodup := by
    intro a t
    have hkeys : ((t.rulesAt a).map fun r => r.service a t.name).map
        ResolvedService.key
          = ((t.rulesAt a).map AllowRule.key).map (Prod.mk a) := by
      rw [List.map_map, List.map_map]
      rfl
    rw [hkeys, List.nodup_map_iff fun _ _ h => (Prod.mk.inj h).2]
  rw [services_eq, List.map_flatMap, List.nodup_flatMap]
  constructor
  · rintro ⟨heach, -⟩ a t ho
    exact (hat a t).mpr (heach (a, t) (h.mem_holdings_iff.mpr ho))
  · intro heach
    refine ⟨fun x hx => (hat x.1 x.2).mp
      (heach x.1 x.2 (h.mem_holdings_iff.mp hx)), ?_⟩
    -- services of different holdings are on different addresses
    refine (List.pairwise_map.mp h.once).imp fun {x y} hne => ?_
    intro k hx hy
    simp only [List.mem_map] at hx hy
    obtain ⟨_, ⟨r, -, rfl⟩, rfl⟩ := hx
    obtain ⟨_, ⟨r', -, rfl⟩, heq⟩ := hy
    exact hne (congrArg Prod.fst heq).symm

-- ============================================================== resolve

theorem nodup_map_concat {α κ : Type} {key : α → κ} {seen : List α} {x : α}
    (hseen : (seen.map key).Nodup) (hx : key x ∉ seen.map key) :
    ((seen ++ [x]).map key).Nodup := by
  rw [List.map_append, List.map_singleton, ← List.concat_eq_append]
  exact hseen.concat hx

theorem not_nodup_map_append {α κ : Type} {key : α → κ}
    {seen rest : List α} {x : α} (hx : key x ∈ seen.map key) :
    ¬ ((seen ++ x :: rest).map key).Nodup := by
  intro h
  rw [List.map_append, List.map_cons] at h
  exact (List.nodup_append.mp h).2.2 _ hx _ List.mem_cons_self rfl

theorem checkOwnership_ok_iff {seen l : List (IpAddr × String)}
    (hseen : (seen.map Prod.fst).Nodup) :
    p.checkOwnership seen l = .ok ()
      ↔ (∀ o ∈ l, p.managed o.1 = true)
        ∧ ((seen ++ l).map Prod.fst).Nodup := by
  induction l generalizing seen with
  | nil => simp [checkOwnership, hseen]
  | cons o l ih =>
      obtain ⟨a, name⟩ := o
      rw [checkOwnership]
      by_cases hm : p.managed a = true
      · have hin : (!p.prefixes.any fun n => n.contains a) = false := by
          rw [Bool.not_eq_false']
          exact hm
        rw [hin, if_neg Bool.false_ne_true]
        cases hf : seen.find? fun o => o.1 = a with
        | some o' =>
            refine iff_of_false nofun fun h => ?_
            have ha : o'.1 = a := by simpa using List.find?_some hf
            refine not_nodup_map_append ?_ h.2
            exact List.mem_map.mpr ⟨o', List.mem_of_find?_eq_some hf, ha⟩
        | none =>
            have hnew : a ∉ seen.map Prod.fst := by
              rw [List.find?_eq_none] at hf
              rintro hmem
              obtain ⟨o', ho', rfl⟩ := List.mem_map.mp hmem
              exact hf o' ho' (decide_eq_true rfl)
            refine (ih (nodup_map_concat hseen hnew)).trans ?_
            rw [List.append_assoc, List.singleton_append,
              List.forall_mem_cons, and_iff_right hm]
      · have hout : (!p.prefixes.any fun n => n.contains a) = true := by
          rw [Bool.not_eq_true']
          exact Bool.eq_false_iff.mpr hm
        rw [hout, if_pos rfl]
        exact iff_of_false nofun fun h => hm (h.1 _ List.mem_cons_self)

theorem collectServices_ok_iff {out rest : List ResolvedService}
    (hout : (out.map ResolvedService.key).Nodup) :
    collectServices out rest = .ok (out ++ rest)
      ↔ ((out ++ rest).map ResolvedService.key).Nodup := by
  induction rest generalizing out with
  | nil => simp [collectServices, hout]
  | cons s rest ih =>
      have hany : (out.any fun o => o.addr = s.addr && o.proto = s.proto
          && o.port = s.port) = true
            ↔ s.key ∈ out.map ResolvedService.key := by
        simp [ResolvedService.key, and_assoc]
      rw [collectServices]
      by_cases hs : s.key ∈ out.map ResolvedService.key
      · rw [if_pos (hany.mpr hs)]
        exact iff_of_false (fun h => by cases h) (not_nodup_map_append hs)
      · have hsplit : out ++ s :: rest = out ++ [s] ++ rest := by simp
        rw [if_neg (mt hany.mp hs), hsplit]
        exact ih (nodup_map_concat hout hs)

/-- A policy resolves when both checks pass. -/
theorem resolve_ok_iff {r : List ResolvedService} :
    p.resolve = .ok r ↔ r = p.services ∧ p.Owned
      ∧ (p.services.map ResolvedService.key).Nodup := by
  have hown : p.checkOwnership [] p.ownership = .ok () ↔ p.Owned := by
    have hmap : p.ownership = p.holdings.map fun h => (h.1, h.2.name) := by
      simp only [ownership, holdings, List.map_flatMap, List.map_map]
      rfl
    have hiff := @checkOwnership_ok_iff p [] p.ownership List.nodup_nil
    rw [List.nil_append, hmap, List.map_map, List.forall_mem_map] at hiff
    rw [hmap, hiff]
    exact ⟨fun h => ⟨h.1, h.2⟩, fun h => ⟨h.managed, h.once⟩⟩
  have hcollect := @collectServices_ok_iff [] p.services List.nodup_nil
  rw [List.nil_append] at hcollect
  constructor
  · intro h
    obtain rfl := resolve_ok h
    unfold resolve at h
    cases hc : p.checkOwnership [] p.ownership with
    | error err =>
        rw [hc] at h
        cases h
    | ok u =>
        rw [hc] at h
        exact ⟨rfl, hown.mp hc, hcollect.mp h⟩
  · rintro ⟨rfl, ho, hn⟩
    unfold resolve
    rw [hown.mpr ho]
    exact hcollect.mpr hn

end Policy

end Blackwall.Core
