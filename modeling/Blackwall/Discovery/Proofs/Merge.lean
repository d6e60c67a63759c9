/-
What a merge does to every address.

A policy is seen from one address: the tenant that owns it and that
tenant's rules on it (`viewAt`). A discovered service changes the view
from its own address only. On an owned address the rule is put behind
the owner's. On one that nobody owns it goes to the tenant called
"discovered", which then owns the address; if an operator's policy has a
tenant of that name, its own rules come with it (`legacyAt`).

The merge is exact where those rules are none, or happen to be what was
discovered (`merge_exact_iff`).
-/
import Blackwall.Base.Firsts
import Blackwall.Core.Proofs.Resolve
import Blackwall.Discovery.Reconcile

namespace Blackwall.Discovery

open Base Blackwall.Core

/-- What a discovered service opens. -/
def DiscoveredService.key (d : DiscoveredService) :
    IpAddr × L4Proto × BitVec 16 :=
  (d.addr, d.proto, d.port)

-- ================================================================= views

/-- The owner of an address, by name, and its rules there. -/
def viewAt (p : Policy) (a : IpAddr) : Option (String × List AllowRule) :=
  (p.owner a).map fun t => (t.name, t.rulesAt a)

/-- The rules on an address of the tenant that takes in what nobody
owns. -/
def legacyAt (p : Policy) (a : IpAddr) : List AllowRule :=
  ((p.tenants.find? fun t => t.name = discoveredTenant).map
    fun t => t.rulesAt a).getD []

theorem viewAt_eq_none {p : Policy} {a : IpAddr} :
    viewAt p a = none ↔ p.owner a = none :=
  Option.map_eq_none_iff

theorem mem_services_iff {p : Policy} (h : p.Owned) {s : ResolvedService} :
    s ∈ p.services ↔ ∃ v, viewAt p s.addr = some v
      ∧ ∃ r ∈ v.2, r.service s.addr v.1 = s := by
  rw [Policy.mem_services h]
  constructor
  · rintro ⟨t, ho, hr⟩
    exact ⟨(t.name, t.rulesAt s.addr), congrArg (Option.map _) ho, hr⟩
  · rintro ⟨v, hv, hr⟩
    obtain ⟨t, ho, rfl⟩ := Option.map_eq_some_iff.mp hv
    exact ⟨t, ho, hr⟩

theorem nodup_services_iff {p : Policy} (h : p.Owned) :
    (p.services.map ResolvedService.key).Nodup
      ↔ ∀ a v, viewAt p a = some v → (v.2.map AllowRule.key).Nodup := by
  rw [Policy.nodup_services h]
  constructor
  · intro hn a v hv
    obtain ⟨t, ho, rfl⟩ := Option.map_eq_some_iff.mp hv
    exact hn a t ho
  · intro hn a t ho
    exact hn a (t.name, t.rulesAt a) (congrArg (Option.map _) ho)

theorem serviceExists_iff {p : Policy} (h : p.Owned) {a : IpAddr}
    {proto : L4Proto} {port : BitVec 16} :
    serviceExists p a proto port = true
      ↔ ∃ v, viewAt p a = some v
        ∧ (proto, port) ∈ v.2.map AllowRule.key := by
  have hrules : ∀ t : Tenant, (t.allows.any fun r => r.proto = proto
      && r.port = port && r.scope.all fun s => s = a) = true
        ↔ (proto, port) ∈ (t.rulesAt a).map AllowRule.key := by
    intro t
    simp only [List.any_eq_true, List.mem_map, Tenant.rulesAt,
      List.mem_filter, AllowRule.key, Prod.mk.injEq, Bool.and_eq_true,
      decide_eq_true_eq, AllowRule.appliesTo]
    refine exists_congr fun r => ?_
    cases r.scope with
    | none => simp
    | some s => simp [and_assoc, and_comm, and_left_comm]
  simp only [serviceExists, List.any_eq_true, Bool.and_eq_true, hrules,
    List.contains_iff_mem]
  constructor
  · rintro ⟨t, ht, ha, hr⟩
    have ho := h.mem_holdings_iff.mp (Policy.mem_holdings.mpr ⟨ht, ha⟩)
    exact ⟨(t.name, t.rulesAt a), congrArg (Option.map _) ho, hr⟩
  · rintro ⟨v, hv, hr⟩
    obtain ⟨t, ho, rfl⟩ := Option.map_eq_some_iff.mp hv
    exact ⟨t, (Policy.owner_holds ho).1, (Policy.owner_holds ho).2, hr⟩

-- =============================================================== one merge

/-- A rule put on an address, given what comes along when nobody owns it
yet. -/
def addAt (legacy : List AllowRule) (v : Option (String × List AllowRule))
    (r : AllowRule) : Option (String × List AllowRule) :=
  match v with
  | some (name, rules) => some (name, insertNew AllowRule.key rules r)
  | none => some (discoveredTenant, legacy ++ [r])

/-- What a policy becomes with one discovered service. -/
structure Merges (d : DiscoveredService) (p p' : Policy) : Prop where
  prefixes : p'.prefixes = p.prefixes
  owned : p'.Owned
  elsewhere : ∀ b, b ≠ d.addr → viewAt p' b = viewAt p b
  legacy : ∀ b, b ≠ d.addr → legacyAt p' b = legacyAt p b
  here : viewAt p' d.addr
    = if p.managed d.addr = true then
        addAt (legacyAt p d.addr) (viewAt p d.addr) (ruleOf d)
      else viewAt p d.addr

section Step

variable {p : Policy} {d : DiscoveredService} {t t' : Tenant} {b : IpAddr}

/-- A discovered rule counts on its own address. -/
theorem rulesAt_push (hallows : t'.allows = t.allows ++ [ruleOf d])
    (b : IpAddr) :
    t'.rulesAt b
      = if b = d.addr then t.rulesAt b ++ [ruleOf d] else t.rulesAt b := by
  rw [Tenant.rulesAt, hallows, List.filter_append]
  by_cases hb : b = d.addr
  · rw [if_pos hb]
    simp [AllowRule.appliesTo, ruleOf, hb, Tenant.rulesAt]
  · rw [if_neg hb]
    simp [AllowRule.appliesTo, ruleOf, Ne.symm hb, Tenant.rulesAt]

/-- The tenant's change shows on the service's address only. -/
structure ShowsAt (d : DiscoveredService) (f : Tenant → Tenant) : Prop where
  name : ∀ t, (f t).name = t.name
  allows : ∀ t, (f t).allows = t.allows ++ [ruleOf d]
  owned : ∀ t b, b ≠ d.addr →
    (f t).owned.contains b = t.owned.contains b

/-- The view from another address does not see it. -/
theorem ShowsAt.elsewhere {f : Tenant → Tenant} (hf : ShowsAt d f)
    (p : Policy) (idx : Nat) (hb : b ≠ d.addr) :
    viewAt { p with tenants := p.tenants.modify idx f } b = viewAt p b
      ∧ legacyAt { p with tenants := p.tenants.modify idx f } b
        = legacyAt p b := by
  have hrules : ∀ t, (f t).rulesAt b = t.rulesAt b := fun t =>
    (rulesAt_push (hf.allows t) b).trans (if_neg hb)
  constructor
  · refine find?_modify_same (fun t => hf.owned t b hb) fun t => ?_
    rw [hf.name, hrules]
  · refine congrArg (fun o => Option.getD o []) ?_
    refine find?_modify_same (fun t => ?_) hrules
    rw [hf.name]

/-- The view from the address itself. -/
theorem ShowsAt.here {f : Tenant → Tenant} (hf : ShowsAt d f)
    {p : Policy} {idx : Nat} (ht : p.tenants[idx]? = some t)
    (hbefore : ∀ t ∈ p.tenants.take idx, t.owned.contains d.addr = false)
    (howned : (f t).owned.contains d.addr = true) :
    viewAt { p with tenants := p.tenants.modify idx f } d.addr
      = some (t.name, t.rulesAt d.addr ++ [ruleOf d]) := by
  refine (congrArg (Option.map _)
    (find?_modify_hit ht hbefore howned)).trans ?_
  rw [Option.map_some, hf.name, rulesAt_push (hf.allows t), if_pos rfl]

/-- The service goes to the tenant that owns its address. -/
theorem merges_push (h : p.Owned) {idx : Nat}
    (hm : p.managed d.addr = true)
    (hnew : serviceExists p d.addr d.proto d.port = false)
    (hidx : owningTenantIndex p d.addr = some idx) :
    Merges d p { p with
      tenants := p.tenants.modify idx fun t =>
        { t with allows := t.allows ++ [ruleOf d] } } := by
  obtain ⟨t, ht, howner, hown, hbefore⟩ := getElem?_of_findIdx? hidx
  have hf : ShowsAt d fun t => { t with allows := t.allows ++ [ruleOf d] } :=
    ⟨fun _ => rfl, fun _ => rfl, fun _ _ _ => rfl⟩
  refine ⟨rfl, ?_, fun b hb => (hf.elsewhere p idx hb).1,
    fun b hb => (hf.elsewhere p idx hb).2, ?_⟩
  · have hsame : (p.tenants.modify idx fun t =>
        { t with allows := t.allows ++ [ruleOf d] }).flatMap Tenant.owned
          = p.tenants.flatMap Tenant.owned :=
      flatMap_modify_same fun _ => rfl
    rw [Policy.owned_iff] at h ⊢
    dsimp only
    rw [hsame]
    exact h
  · have hview : viewAt p d.addr = some (t.name, t.rulesAt d.addr) :=
      congrArg (Option.map _) howner
    have hkey : (ruleOf d).key ∉ (t.rulesAt d.addr).map AllowRule.key := by
      intro hk
      have hexists : serviceExists p d.addr d.proto d.port = true :=
        (serviceExists_iff h).mpr ⟨_, hview, hk⟩
      rw [hnew] at hexists
      cases hexists
    rw [if_pos hm, hview, addAt, insertNew, if_neg hkey]
    exact hf.here ht hbefore hown

/-- An address nobody owns is taken in. -/
theorem owned_takeIn (h : p.Owned) {p' : Policy}
    (hprefixes : p'.prefixes = p.prefixes)
    (hm : p.managed d.addr = true) (hnone : p.owner d.addr = none)
    (hperm : (p'.tenants.flatMap Tenant.owned).Perm
      (d.addr :: p.tenants.flatMap Tenant.owned)) : p'.Owned := by
  have hmanaged : ∀ a, p'.managed a = p.managed a := fun a => by
    rw [Policy.managed, hprefixes, Policy.managed]
  rw [Policy.owned_iff] at h ⊢
  refine ⟨fun a ha => ?_, ?_⟩
  · rw [hmanaged]
    rcases List.mem_cons.mp (hperm.mem_iff.mp ha) with rfl | ha
    · exact hm
    · exact h.1 a ha
  · refine hperm.nodup_iff.mpr (List.nodup_cons.mpr ⟨fun hmem => ?_, h.2⟩)
    obtain ⟨t, ht, ha⟩ := List.mem_flatMap.mp hmem
    exact Policy.owner_eq_none.mp hnone t ht ha

/-- A service on an address nobody owns goes to the tenant for such
services, if there is one. -/
theorem merges_attach_old (h : p.Owned) {idx : Nat}
    (hm : p.managed d.addr = true) (hnone : p.owner d.addr = none)
    (hidx : (p.tenants.findIdx? fun t => t.name = discoveredTenant)
      = some idx) :
    Merges d p { p with
      tenants := p.tenants.modify idx fun t =>
        { t with
          owned := if t.owned.contains d.addr then t.owned
            else t.owned ++ [d.addr]
          allows := t.allows ++ [ruleOf d] } } := by
  have hunowned : ∀ t ∈ p.tenants, t.owned.contains d.addr = false := by
    intro t ht
    simpa using Policy.owner_eq_none.mp hnone t ht
  obtain ⟨t, ht, hsyn, hname, -⟩ := getElem?_of_findIdx? hidx
  have htmem : t ∈ p.tenants := List.mem_of_find?_eq_some hsyn
  have hf : ShowsAt d fun t =>
      { t with
        owned := if t.owned.contains d.addr then t.owned
          else t.owned ++ [d.addr]
        allows := t.allows ++ [ruleOf d] } := by
    refine ⟨fun _ => rfl, fun _ => rfl, fun t b hb => ?_⟩
    dsimp only
    split
    · rfl
    · simp [hb]
  refine ⟨rfl, ?_, fun b hb => (hf.elsewhere p idx hb).1,
    fun b hb => (hf.elsewhere p idx hb).2, ?_⟩
  · refine owned_takeIn h rfl hm hnone (flatMap_modify_grows ht ?_)
    dsimp only
    rw [hunowned t htmem, if_neg Bool.false_ne_true]
  · have hlegacy : legacyAt p d.addr = t.rulesAt d.addr :=
      congrArg (fun o => Option.getD (Option.map _ o) []) hsyn
    rw [if_pos hm, viewAt_eq_none.mpr hnone, addAt, hlegacy,
      hf.here ht (fun t ht => hunowned t (List.mem_of_mem_take ht))
        (by dsimp only; rw [hunowned t htmem]; simp)]
    rw [of_decide_eq_true hname]

/-- Otherwise that tenant is added. -/
theorem merges_attach_new (h : p.Owned) (hm : p.managed d.addr = true)
    (hnone : p.owner d.addr = none)
    (hidx : (p.tenants.findIdx? fun t => t.name = discoveredTenant)
      = none) :
    Merges d p { p with
      tenants := p.tenants ++
        [{ name := discoveredTenant, owned := [d.addr]
           allows := [ruleOf d] }] } := by
  have hsyn : (p.tenants.find? fun t => t.name = discoveredTenant)
      = none := by
    rw [List.findIdx?_eq_none_iff] at hidx
    rw [List.find?_eq_none]
    intro t ht
    rw [hidx t ht]
    exact Bool.false_ne_true
  have hlegacy : ∀ b, legacyAt p b = [] := fun b => by
    rw [legacyAt, hsyn]
    rfl
  refine ⟨rfl, ?_, fun b hb => ?_, fun b hb => ?_, ?_⟩
  · refine owned_takeIn h rfl hm hnone ?_
    dsimp only
    rw [List.flatMap_append]
    exact List.perm_append_comm
  · simp [viewAt, Policy.owner, List.find?_append, hb]
  · rw [hlegacy, legacyAt]
    simp [List.find?_append, hsyn, Tenant.rulesAt, AllowRule.appliesTo,
      ruleOf, Ne.symm hb]
  · rw [if_pos hm, viewAt_eq_none.mpr hnone, addAt, hlegacy]
    have hfind : (p.tenants.find? fun t => t.owned.contains d.addr)
        = none := hnone
    rw [viewAt, Policy.owner, List.find?_append, hfind]
    simp [Tenant.rulesAt, AllowRule.appliesTo, ruleOf]

theorem merges_attach (h : p.Owned) (hm : p.managed d.addr = true)
    (hnone : p.owner d.addr = none) :
    Merges d p (attachToSynthetic d.addr (ruleOf d) p) := by
  unfold attachToSynthetic
  split
  · next idx hidx => exact merges_attach_old h hm hnone hidx
  · next hidx => exact merges_attach_new h hm hnone hidx

theorem merges_merge (h : p.Owned) (d : DiscoveredService) :
    Merges d p (merge d p) := by
  unfold merge
  by_cases hm : p.managed d.addr = true
  · have hin : (!p.prefixes.any fun n => n.contains d.addr) = false := by
      rw [Bool.not_eq_false']
      exact hm
    rw [hin, if_neg Bool.false_ne_true]
    cases hnew : serviceExists p d.addr d.proto d.port with
    | true =>
        rw [if_pos rfl]
        obtain ⟨v, hview, hk⟩ := (serviceExists_iff h).mp hnew
        have hold : (ruleOf d).key ∈ v.2.map AllowRule.key := hk
        refine ⟨rfl, h, fun _ _ => rfl, fun _ _ => rfl, ?_⟩
        rw [if_pos hm, hview, addAt, insertNew, if_pos hold]
    | false =>
        rw [if_neg Bool.false_ne_true]
        cases hidx : owningTenantIndex p d.addr with
        | some idx => exact merges_push h hm hnew hidx
        | none =>
            refine merges_attach h hm (Policy.owner_eq_none.mpr ?_)
            intro t ht
            simpa using List.findIdx?_eq_none_iff.mp hidx t ht
  · have hout : (!p.prefixes.any fun n => n.contains d.addr) = true := by
      rw [Bool.not_eq_true']
      exact Bool.eq_false_iff.mpr hm
    rw [hout, if_pos rfl]
    exact ⟨rfl, h, fun _ _ => rfl, fun _ _ => rfl, (if_neg hm).symm⟩

end Step

-- ============================================================ the whole list

/-- The rules discovered for an address. -/
def rulesFor (D : List DiscoveredService) (a : IpAddr) : List AllowRule :=
  (D.filter fun d => d.addr = a).map ruleOf

/-- The first of the rules takes in the address if nobody owned it; the
others are put behind it unless their port is open by then. -/
def viewAfter (legacy : List AllowRule)
    (v : Option (String × List AllowRule)) :
    List AllowRule → Option (String × List AllowRule)
  | [] => v
  | r :: rs => (addAt legacy v r).map fun w =>
      (w.1, insertAll AllowRule.key w.2 rs)

theorem viewAfter_some (legacy rules : List AllowRule) (name : String)
    (rs : List AllowRule) :
    viewAfter legacy (some (name, rules)) rs
      = some (name, insertAll AllowRule.key rules rs) := by
  cases rs <;> rfl

section Views

variable {p : Policy} {D : List DiscoveredService} {a : IpAddr}

theorem Merges.managed {d : DiscoveredService} {p' : Policy}
    (h : Merges d p p') (a : IpAddr) : p'.managed a = p.managed a := by
  rw [Policy.managed, h.prefixes, Policy.managed]

theorem owned_reconcile (h : p.Owned) : (reconcile p D).Owned :=
  run_invariant (P := Policy.Owned)
    (fun _ d hp => (merges_merge hp d).owned) D h

/-- What every address sees of the effective policy. -/
theorem viewAt_reconcile (h : p.Owned) (D : List DiscoveredService)
    (a : IpAddr) :
    viewAt (reconcile p D) a
      = if p.managed a = true then
          viewAfter (legacyAt p a) (viewAt p a) (rulesFor D a)
        else viewAt p a := by
  induction D generalizing p with
  | nil => exact (ite_self _).symm
  | cons d D ih =>
      have hstep := merges_merge h d
      refine (ih hstep.owned).trans ?_
      rw [hstep.managed]
      by_cases ha : d.addr = a
      · subst ha
        have hrules : rulesFor (d :: D) d.addr
            = ruleOf d :: rulesFor D d.addr := by
          simp [rulesFor]
        rw [hrules, hstep.here]
        by_cases hm : p.managed d.addr = true
        · rw [if_pos hm, if_pos hm, if_pos hm, viewAfter]
          -- from now on the address has an owner
          cases hadd : addAt (legacyAt p d.addr) (viewAt p d.addr)
              (ruleOf d) with
          | none =>
              unfold addAt at hadd
              split at hadd <;> cases hadd
          | some w => exact viewAfter_some _ _ _ _
        · rw [if_neg hm, if_neg hm, if_neg hm]
      · have hrules : rulesFor (d :: D) a = rulesFor D a := by
          simp [rulesFor, ha]
        rw [hrules, hstep.elsewhere a (Ne.symm ha),
          hstep.legacy a (Ne.symm ha)]

theorem find?_rulesFor (k : L4Proto × BitVec 16) :
    (rulesFor D a).find? (fun r => r.key = k)
      = (D.find? fun d => d.key = (a, k)).map ruleOf := by
  rw [rulesFor, List.find?_map, List.find?_filter]
  congr 2
  funext d
  rw [Bool.eq_iff_iff]
  simp only [Function.comp_apply, decide_eq_true_eq,
    DiscoveredService.key, AllowRule.key, ruleOf, Prod.mk.injEq]
  exact and_congr_right fun _ => decide_eq_true_iff

theorem head?_rulesFor :
    (rulesFor D a).head? = (D.find? fun d => d.addr = a).map ruleOf := by
  rw [rulesFor, List.head?_map, List.head?_filter]

end Views

-- =============================================================== exactness

/-- The tenant of an added service. -/
def tenantFor (p : Policy) (a : IpAddr) : String :=
  ((viewAt p a).map Prod.fst).getD discoveredTenant

/-- A service that discovery is to add: the key is new, and the target is
that of its first occurrence. -/
def Added (p : Policy) (S : List ResolvedService)
    (D : List DiscoveredService) (s : ResolvedService) : Prop :=
  p.managed s.addr = true ∧ s.key ∉ S.map ResolvedService.key
    ∧ s.tenant = tenantFor p s.addr
    ∧ ∃ d, (D.find? fun d => d.key = s.key) = some d ∧ d.target = s.target

/-- The effective policy resolves to the services of the base policy and
the added ones, each once. -/
def MergesExactly (p : Policy) (S : List ResolvedService)
    (D : List DiscoveredService) : Prop :=
  ∃ S', (reconcile p D).resolve = .ok S'
    ∧ (S'.map ResolvedService.key).Nodup
    ∧ ∀ s, s ∈ S' ↔ s ∈ S ∨ Added p S D s

/-- The rules that come along with an address are distinct, are all
discovered there too, with their targets, and not first of all. -/
structure Foreseen (p : Policy) (D : List DiscoveredService)
    (a : IpAddr) : Prop where
  distinct : ((legacyAt p a).map AllowRule.key).Nodup
  discovered : ∀ r ∈ legacyAt p a, ∃ d,
    (D.find? fun d => d.key = (a, r.key)) = some d ∧ d.target = r.target
  late : ∀ d, (D.find? fun d => d.addr = a) = some d →
    (d.proto, d.port) ∉ (legacyAt p a).map AllowRule.key

section Exact

variable {p : Policy} {D : List DiscoveredService} {a : IpAddr}
  {S : List ResolvedService} {s : ResolvedService}

theorem service_eq_iff {r : AllowRule} {name : String} :
    r.service s.addr name = s
      ↔ r.key = (s.proto, s.port) ∧ r.target = s.target
        ∧ name = s.tenant := by
  obtain ⟨addr, proto, port, target, tenant⟩ := s
  simp [AllowRule.service, AllowRule.key, and_assoc]

theorem key_mem_services (h : p.Owned) :
    s.key ∈ p.services.map ResolvedService.key
      ↔ ∃ v, viewAt p s.addr = some v
        ∧ (s.proto, s.port) ∈ v.2.map AllowRule.key := by
  simp only [List.mem_map]
  constructor
  · rintro ⟨s', hs', hkey⟩
    obtain ⟨v, hv, r, hr, hserv⟩ := (mem_services_iff h).mp hs'
    obtain ⟨haddr, hrule⟩ := Prod.mk.inj hkey
    rw [haddr] at hv
    exact ⟨v, hv, r, hr, (service_eq_iff.mp hserv).1.trans hrule⟩
  · rintro ⟨v, hv, r, hr, hkey⟩
    exact ⟨r.service s.addr v.1,
      (mem_services_iff h).mpr ⟨v, hv, r, hr, rfl⟩,
      congrArg (Prod.mk s.addr) hkey⟩

/-- An added service, by the rule that opens it. -/
theorem added_iff :
    Added p S D s ↔ p.managed s.addr = true
      ∧ s.key ∉ S.map ResolvedService.key
      ∧ ∃ r, (rulesFor D s.addr).find? (fun r => r.key = (s.proto, s.port))
          = some r ∧ r.service s.addr (tenantFor p s.addr) = s := by
  refine and_congr_right fun _ => and_congr_right fun _ => ?_
  rw [find?_rulesFor]
  constructor
  · rintro ⟨htenant, d, hd, htarget⟩
    have hkey : d.key = s.key := key_of_find? hd
    exact ⟨ruleOf d, congrArg (Option.map ruleOf) hd,
      service_eq_iff.mpr ⟨(Prod.mk.inj hkey).2, htarget, htenant.symm⟩⟩
  · rintro ⟨r, hr, hserv⟩
    obtain ⟨d, hd, rfl⟩ := Option.map_eq_some_iff.mp hr
    obtain ⟨-, htarget, htenant⟩ := service_eq_iff.mp hserv
    exact ⟨htenant.symm, d, hd, htarget⟩

/-- The services on an address that has an owner. -/
theorem mem_services_owned (hown : p.Owned) (hm : p.managed s.addr = true)
    {v : String × List AllowRule} (hv : viewAt p s.addr = some v) :
    s ∈ (reconcile p D).services
      ↔ s ∈ p.services ∨ Added p p.services D s := by
  have hview := viewAt_reconcile hown D s.addr
  rw [if_pos hm, hv, viewAfter_some] at hview
  have htenant : tenantFor p s.addr = v.1 := by
    rw [tenantFor, hv]
    rfl
  rw [mem_services_iff (owned_reconcile hown), mem_services_iff hown,
    added_iff, key_mem_services hown, hview, hv, htenant]
  simp only [Option.some.injEq, exists_eq_left', mem_insertAll]
  constructor
  · rintro ⟨r, hr | ⟨hnew, hfind⟩, hserv⟩
    · exact Or.inl ⟨r, hr, hserv⟩
    · have hkey := (service_eq_iff.mp hserv).1
      rw [hkey] at hnew hfind
      exact Or.inr ⟨hm, hnew, r, hfind, hserv⟩
  · rintro (⟨r, hr, hserv⟩ | ⟨-, hnew, r, hfind, hserv⟩)
    · exact ⟨r, Or.inl hr, hserv⟩
    · have hkey := (service_eq_iff.mp hserv).1
      rw [← hkey] at hnew hfind
      exact ⟨r, Or.inr ⟨hnew, hfind⟩, hserv⟩

/-- On an address nobody owns there is what is added. -/
theorem mem_unowned (hown : p.Owned) (hm : p.managed s.addr = true)
    (hv : viewAt p s.addr = none) :
    s ∈ p.services ∨ Added p p.services D s
      ↔ ∃ r, (rulesFor D s.addr).find?
          (fun r => r.key = (s.proto, s.port)) = some r
        ∧ r.service s.addr discoveredTenant = s := by
  have htenant : tenantFor p s.addr = discoveredTenant := by
    rw [tenantFor, hv]
    rfl
  rw [mem_services_iff hown, added_iff, key_mem_services hown, hv, htenant]
  simp [hm]

/-- The view of an address that is taken in. -/
theorem viewAt_taken (hown : p.Owned) (hm : p.managed a = true)
    (hv : viewAt p a = none) {r₀ : AllowRule} {rs : List AllowRule}
    (hrules : rulesFor D a = r₀ :: rs) :
    viewAt (reconcile p D) a = some (discoveredTenant,
      insertAll AllowRule.key (legacyAt p a ++ [r₀]) rs) := by
  rw [viewAt_reconcile hown, if_pos hm, hv, hrules]
  rfl

/-- Where the rules that come along are foreseen. -/
theorem mem_services_taken (hown : p.Owned) (hm : p.managed s.addr = true)
    (hv : viewAt p s.addr = none) {r₀ : AllowRule} {rs : List AllowRule}
    (hrules : rulesFor D s.addr = r₀ :: rs) (hf : Foreseen p D s.addr) :
    s ∈ (reconcile p D).services
      ↔ s ∈ p.services ∨ Added p p.services D s := by
  rw [mem_unowned hown hm hv, mem_services_iff (owned_reconcile hown),
    viewAt_taken hown hm hv hrules, hrules]
  simp only [Option.some.injEq, exists_eq_left', mem_insertAll,
    List.mem_append, List.mem_singleton, List.map_append,
    List.map_singleton, not_or]
  have hlegacy : ∀ r ∈ legacyAt p s.addr, ∃ r',
      (r₀ :: rs).find? (fun z => z.key = r.key) = some r'
        ∧ r'.key = r.key ∧ r'.target = r.target := by
    intro r hr
    obtain ⟨d, hd, htarget⟩ := hf.discovered r hr
    have hfind : (rulesFor D s.addr).find? (fun z => z.key = r.key)
        = some (ruleOf d) := by
      rw [find?_rulesFor, hd]
      rfl
    exact ⟨ruleOf d, hrules ▸ hfind, key_of_find? hfind, htarget⟩
  constructor
  · rintro ⟨r, (hr | rfl) | ⟨⟨-, hne⟩, hfind⟩, hserv⟩
    · obtain ⟨hkey, htarget, hname⟩ := service_eq_iff.mp hserv
      obtain ⟨r', hfind, hkey', htarget'⟩ := hlegacy r hr
      rw [hkey] at hfind hkey'
      exact ⟨r', hfind, service_eq_iff.mpr
        ⟨hkey', htarget'.trans htarget, hname⟩⟩
    · have hkey := (service_eq_iff.mp hserv).1
      exact ⟨r, (find?_key_cons _).trans (if_pos hkey), hserv⟩
    · have hkey := (service_eq_iff.mp hserv).1
      rw [hkey] at hne hfind
      have hskip : r₀.key ≠ (s.proto, s.port) := Ne.symm hne
      exact ⟨r, (find?_key_cons _).trans ((if_neg hskip).trans hfind),
        hserv⟩
  · rintro ⟨r, hfind, hserv⟩
    obtain ⟨hkey, htarget, hname⟩ := service_eq_iff.mp hserv
    by_cases hfirst : r₀.key = (s.proto, s.port)
    · rw [find?_key_cons, if_pos hfirst] at hfind
      cases hfind
      exact ⟨r₀, Or.inl (Or.inr rfl), hserv⟩
    by_cases hold : (s.proto, s.port)
        ∈ (legacyAt p s.addr).map AllowRule.key
    · obtain ⟨r₁, hr₁, hkey₁⟩ := List.mem_map.mp hold
      obtain ⟨r', hfind', -, htarget'⟩ := hlegacy r₁ hr₁
      rw [hkey₁, hfind] at hfind'
      cases hfind'
      exact ⟨r₁, Or.inl (Or.inl hr₁), service_eq_iff.mpr
        ⟨hkey₁, htarget'.symm.trans htarget, hname⟩⟩
    · rw [find?_key_cons, if_neg hfirst] at hfind
      rw [← hkey] at hold hfirst hfind
      exact ⟨r, Or.inr ⟨⟨hold, Ne.symm hfirst⟩, hfind⟩, hserv⟩

/-- No port is opened twice on an address that is taken in when the first
rule is not among those that come along. -/
theorem nodup_taken {r₀ : AllowRule} {rs : List AllowRule} :
    ((insertAll AllowRule.key (legacyAt p a ++ [r₀]) rs).map
        AllowRule.key).Nodup
      ↔ ((legacyAt p a).map AllowRule.key).Nodup
        ∧ r₀.key ∉ (legacyAt p a).map AllowRule.key := by
  rw [nodup_insertAll, List.map_append, List.map_singleton,
    ← List.concat_eq_append, List.nodup_concat, and_comm]

theorem first_rule {r₀ : AllowRule} {rs : List AllowRule}
    (hrules : rulesFor D a = r₀ :: rs) :
    ∃ d, (D.find? fun d => d.addr = a) = some d ∧ ruleOf d = r₀ := by
  have hhead := @head?_rulesFor D a
  rw [hrules] at hhead
  exact Option.map_eq_some_iff.mp hhead.symm

theorem rulesFor_eq_cons_iff :
    (∃ r₀ rs, rulesFor D a = r₀ :: rs)
      ↔ a ∈ D.map DiscoveredService.addr := by
  constructor
  · rintro ⟨r₀, rs, hrules⟩
    obtain ⟨d, hd, -⟩ := first_rule hrules
    exact List.mem_map.mpr ⟨d, List.mem_of_find?_eq_some hd,
      key_of_find? hd⟩
  · intro ha
    obtain ⟨d, hd, rfl⟩ := List.mem_map.mp ha
    refine List.exists_cons_of_ne_nil (List.ne_nil_of_mem
      (List.mem_map_of_mem (List.mem_filter.mpr ⟨hd, ?_⟩)))
    exact decide_eq_true rfl

/-- An exact merge has foreseen what comes along with an address. -/
theorem foreseen_of_exact (hown : p.Owned)
    (hn : ((reconcile p D).services.map ResolvedService.key).Nodup)
    (hmem : ∀ s, s ∈ (reconcile p D).services
      ↔ s ∈ p.services ∨ Added p p.services D s)
    (hm : p.managed a = true) (hv : viewAt p a = none)
    {r₀ : AllowRule} {rs : List AllowRule}
    (hrules : rulesFor D a = r₀ :: rs) : Foreseen p D a := by
  have hown' : (reconcile p D).Owned := owned_reconcile hown
  have hview := viewAt_taken hown hm hv hrules
  obtain ⟨hdistinct, hlate⟩ :=
    nodup_taken.mp ((nodup_services_iff hown').mp hn a _ hview)
  refine ⟨hdistinct, fun r hr => ?_, fun d hd => ?_⟩
  · have hin : r.service a discoveredTenant ∈ (reconcile p D).services :=
      (mem_services_iff hown').mpr ⟨_, hview, r,
        mem_insertAll.mpr (Or.inl (List.mem_append_left _ hr)), rfl⟩
    obtain ⟨r', hfind, hserv⟩ := (mem_unowned hown hm hv).mp
      ((hmem _).mp hin)
    rw [find?_rulesFor] at hfind
    obtain ⟨d, hd, rfl⟩ := Option.map_eq_some_iff.mp hfind
    exact ⟨d, hd, (service_eq_iff.mp hserv).2.1⟩
  · obtain ⟨d', hd', hr₀⟩ := first_rule hrules
    rw [hd] at hd'
    cases hd'
    rw [← hr₀] at hlate
    exact hlate

section Foreseen

variable (hown : p.Owned)
  (hforeseen : ∀ a r₀ rs, p.managed a = true → viewAt p a = none →
    rulesFor D a = r₀ :: rs → Foreseen p D a)

include hown hforeseen

/-- No port of an address is opened twice. -/
theorem nodup_services_reconcile
    (hn : (p.services.map ResolvedService.key).Nodup) :
    ((reconcile p D).services.map ResolvedService.key).Nodup := by
  rw [nodup_services_iff hown] at hn
  rw [nodup_services_iff (owned_reconcile hown)]
  intro a v hv
  by_cases hm : p.managed a = true
  · cases hold : viewAt p a with
    | some w =>
        rw [viewAt_reconcile hown, if_pos hm, hold, viewAfter_some] at hv
        cases hv
        exact nodup_insertAll.mpr (hn a w hold)
    | none =>
        cases hrules : rulesFor D a with
        | nil =>
            rw [viewAt_reconcile hown, if_pos hm, hold, hrules] at hv
            cases hv
        | cons r₀ rs =>
            have hf := hforeseen a r₀ rs hm hold hrules
            rw [viewAt_taken hown hm hold hrules] at hv
            cases hv
            obtain ⟨d, hd, rfl⟩ := first_rule hrules
            exact nodup_taken.mpr ⟨hf.distinct, hf.late d hd⟩
  · rw [viewAt_reconcile hown, if_neg hm] at hv
    exact hn a v hv

/-- The services are the old ones and the discovered ones. -/
theorem mem_services_reconcile (s : ResolvedService) :
    s ∈ (reconcile p D).services
      ↔ s ∈ p.services ∨ Added p p.services D s := by
  by_cases hm : p.managed s.addr = true
  · cases hold : viewAt p s.addr with
    | some w => exact mem_services_owned hown hm hold
    | none =>
        cases hrules : rulesFor D s.addr with
        | nil =>
            rw [mem_unowned hown hm hold,
              mem_services_iff (owned_reconcile hown),
              viewAt_reconcile hown, if_pos hm, hold, hrules]
            simp [viewAfter]
        | cons r₀ rs =>
            exact mem_services_taken hown hm hold hrules
              (hforeseen s.addr r₀ rs hm hold hrules)
  · rw [mem_services_iff (owned_reconcile hown), viewAt_reconcile hown,
      if_neg hm, ← mem_services_iff hown]
    exact (or_iff_left fun h => hm h.1).symm

end Foreseen

/-- The merge adds what was discovered and nothing else, unless an address
that nobody owned brings rules of its own. -/
theorem merge_exact_iff (hres : p.resolve = .ok S)
    (D : List DiscoveredService) :
    MergesExactly p S D
      ↔ ∀ a, p.managed a = true → p.owner a = none →
        a ∈ D.map DiscoveredService.addr → Foreseen p D a := by
  obtain ⟨rfl, hown, hn⟩ := Policy.resolve_ok_iff.mp hres
  constructor
  · rintro ⟨S', hS', hn', hmem⟩ a hm hnone ha
    obtain ⟨rfl, -, -⟩ := Policy.resolve_ok_iff.mp hS'
    obtain ⟨r₀, rs, hrules⟩ := rulesFor_eq_cons_iff.mpr ha
    exact foreseen_of_exact hown hn' hmem hm (viewAt_eq_none.mpr hnone)
      hrules
  · intro hforeseen
    have htaken : ∀ a r₀ rs, p.managed a = true → viewAt p a = none →
        rulesFor D a = r₀ :: rs → Foreseen p D a :=
      fun a r₀ rs hm hv hrules => hforeseen a hm (viewAt_eq_none.mp hv)
        (rulesFor_eq_cons_iff.mp ⟨r₀, rs, hrules⟩)
    have hn' := nodup_services_reconcile hown htaken hn
    exact ⟨_, Policy.resolve_ok_iff.mpr ⟨rfl, owned_reconcile hown, hn'⟩,
      hn', mem_services_reconcile hown htaken⟩

end Exact

/-- A policy whose one tenant holds 203.0.113.8 with tcp/80 open. -/
def heldBy (name : String) : Policy :=
  { interface := "lo"
    prefixes := [.v4 (.slash 0xCB007100 24)]
    defaultState := .deception
    tenants :=
      [{ name, owned := [.v4 0xCB007108]
         allows := [⟨.tcp, 80, .host, none⟩] }]
    engine := ⟨61000, 0⟩
    flowtable := none
    statelessTcpPorts := []
    instanceName := none }

/-- A host's socket on 203.0.113.9. -/
def seenOn (port : BitVec 16) : DiscoveredService :=
  ⟨.v4 0xCB007109, .tcp, port, .host, .host⟩

theorem merge_exact_acme :
    (heldBy "acme").resolve = .ok (heldBy "acme").services
      ∧ (MergesExactly (heldBy "acme") (heldBy "acme").services [seenOn 443]
        ↔ ∀ a, (heldBy "acme").managed a = true →
          (heldBy "acme").owner a = none →
          a ∈ [seenOn 443].map DiscoveredService.addr →
            Foreseen (heldBy "acme") [seenOn 443] a) :=
  have hres : (heldBy "acme").resolve = .ok (heldBy "acme").services := by
    decide +kernel
  ⟨hres, merge_exact_iff hres [seenOn 443]⟩

/-- With an operator's tenant of the reserved name, its port is opened on
the address of another service; and if that was the port discovered, the
policy does not resolve any more. -/
theorem reserved_name_opens_port :
    let p := heldBy "discovered"
    p.resolve = .ok p.services
      ∧ ((reconcile p [seenOn 443]).resolve.toOption.map fun S =>
          S.map ResolvedService.key)
        = some [(.v4 0xCB007108, .tcp, 80), (.v4 0xCB007109, .tcp, 80),
          (.v4 0xCB007109, .tcp, 443)]
      ∧ (reconcile p [seenOn 80]).resolve
        = .error (.duplicateService (.v4 0xCB007109) .tcp 80) := by
  decide +kernel

end Blackwall.Discovery
