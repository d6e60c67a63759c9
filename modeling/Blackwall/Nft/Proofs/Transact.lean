/-
What one application of a policy does to its table.

A table is read through two functions, the elements of its sets and the
rules of its chains. Every command changes one of them at one name, or
neither (`Makes` strings the commands together); the policy's table is
what its blocks make of the table that was there.
-/
import Mathlib.Logic.Function.Basic
import Blackwall.Nft.Render

namespace Blackwall.Nft

open Base Blackwall.Core

-- =============================================================== one table

/-- The commands of one table. -/
def execAll : List TableOp → Table → Option Table
  | [], t => some t
  | op :: ops, t => do
      let t' ← t.exec op
      execAll ops t'

theorem execAll_append (xs ys : List TableOp) (t : Table) :
    execAll (xs ++ ys) t = (execAll xs t).bind (execAll ys) := by
  induction xs generalizing t with
  | nil => rfl
  | cons op xs ih =>
      rw [List.cons_append, execAll, execAll]
      cases t.exec op with
      | none => rfl
      | some t' => exact ih t'

/-- The commands turn `t` into `t'`, which has every chain `t` had. -/
structure Makes (ops : List TableOp) (t t' : Table) : Prop where
  result : execAll ops t = some t'
  chains : ∀ c, (t.chains.lookup c).isSome → (t'.chains.lookup c).isSome

theorem Makes.refl (t : Table) : Makes [] t t := ⟨rfl, fun _ h => h⟩

theorem Makes.append {xs ys : List TableOp} {t t' t'' : Table}
    (h : Makes xs t t') (h' : Makes ys t' t'') :
    Makes (xs ++ ys) t t'' := by
  refine ⟨?_, fun c hc => h'.chains c (h.chains c hc)⟩
  rw [execAll_append, h.result]
  exact h'.result

theorem Makes.one {op : TableOp} {t t' : Table} (h : t.exec op = some t')
    (hc : ∀ c, (t.chains.lookup c).isSome →
      (t'.chains.lookup c).isSome) : Makes [op] t t' := by
  refine ⟨?_, hc⟩
  rw [execAll, h]
  rfl

-- ============================================================ one command

/-- A flush empties the chains and keeps the elements. -/
theorem makes_flush (t : Table) :
    ∃ t', Makes [.flush] t t' ∧ t'.elements = t.elements
      ∧ t'.rules = fun _ => [] := by
  refine ⟨_, Makes.one rfl ?_, rfl, ?_⟩
  · intro c hc
    rw [Dict.lookup_mapVals, Option.isSome_map]
    exact hc
  · funext c
    simp only [Table.rules, Dict.lookup_mapVals]
    cases t.chains.lookup c with
    | none => rfl
    | some chain => rfl

/-- A set gains the elements it is given and loses none. -/
theorem makes_addSet (s : NamedSet) (t : Table) :
    ∃ t', Makes [.addSet s] t t' ∧ t'.rules = t.rules
      ∧ t'.elements = Function.update t.elements s.name
        (t.elements s.name ∪ (s.elem.getD []).toFinset) := by
  refine ⟨_, Makes.one rfl fun _ h => h, rfl, ?_⟩
  funext name
  simp only [Table.elements, Dict.lookup_insert_if, Function.update_apply]
  by_cases h : name = s.name
  · rw [if_pos h, if_pos h]
  · rw [if_neg h, if_neg h]

/-- A chain that is added has no rules yet, or those it had. -/
theorem makes_addChain (c : Chain) (t : Table) :
    ∃ t', Makes [.addChain c] t t' ∧ t'.elements = t.elements
      ∧ t'.rules = t.rules ∧ (t'.chains.lookup c.name).isSome := by
  cases hc : t.chains.lookup c.name with
  | some chain =>
      refine ⟨t, Makes.one ?_ fun _ h => h, rfl, rfl, ?_⟩
      · simp [Table.exec, hc]
      · simp [hc]
  | none =>
      have hrun : t.exec (.addChain c)
          = some { t with chains := t.chains.insert c.name (c, []) } := by
        simp [Table.exec, hc]
      refine ⟨_, Makes.one hrun ?_, rfl, ?_, ?_⟩
      · intro d hd
        rw [Dict.lookup_insert_if]
        split
        · rfl
        · exact hd
      · funext d
        simp only [Table.rules, Dict.lookup_insert_if]
        by_cases hd : d = c.name
        · rw [if_pos hd, hd, hc]
        · rw [if_neg hd]
      · rw [AList.lookup_insert]
        rfl

theorem makes_addFlowTable (f : FlowTable) (t : Table) :
    ∃ t', Makes [.addFlowTable f] t t' ∧ t'.elements = t.elements
      ∧ t'.rules = t.rules := by
  cases hf : t.flowtables.lookup f.name with
  | some old =>
      refine ⟨t, Makes.one ?_ fun _ h => h, rfl, rfl⟩
      simp [Table.exec, hf]
  | none =>
      have hrun : t.exec (.addFlowTable f) = some
          { t with flowtables := t.flowtables.insert f.name f } := by
        simp [Table.exec, hf]
      exact ⟨_, Makes.one hrun fun _ h => h, rfl, rfl⟩

/-- The rules of a chain that is there go to its end, in order. -/
theorem makes_addRules (c : String) (rs : List Rule)
    (hrs : ∀ r ∈ rs, r.chain = c) {t : Table}
    (hc : (t.chains.lookup c).isSome) :
    ∃ t', Makes (rs.map .addRule) t t' ∧ t'.elements = t.elements
      ∧ t'.rules = Function.update t.rules c (t.rules c ++ rs) := by
  induction rs generalizing t with
  | nil =>
      refine ⟨t, .refl t, rfl, ?_⟩
      rw [List.append_nil, Function.update_eq_self]
  | cons r rs ih =>
      obtain ⟨⟨chain, old⟩, hold⟩ := Option.isSome_iff_exists.mp hc
      obtain rfl : r.chain = c := hrs r List.mem_cons_self
      have hrun : t.exec (.addRule r) = some
          { t with
            chains := t.chains.insert r.chain (chain, old ++ [r]) } := by
        simp [Table.exec, hold]
      have hkeep : ∀ d, (t.chains.lookup d).isSome →
          ((t.chains.insert r.chain
            (chain, old ++ [r])).lookup d).isSome := by
        intro d hd
        rw [Dict.lookup_insert_if]
        split
        · rfl
        · exact hd
      have hone := Makes.one hrun hkeep
      have hrules : Table.rules
          { t with chains := t.chains.insert r.chain (chain, old ++ [r]) }
          = Function.update t.rules r.chain
              (t.rules r.chain ++ [r]) := by
        funext d
        simp only [Table.rules, Dict.lookup_insert_if,
          Function.update_apply]
        by_cases hd : d = r.chain
        · rw [if_pos hd, if_pos hd, hold]
        · rw [if_neg hd, if_neg hd]
      obtain ⟨t', hrest, hel, hru⟩ :=
        ih (fun r' hr' => hrs r' (List.mem_cons_of_mem r hr'))
          (hone.chains r.chain hc)
      refine ⟨t', hone.append hrest, hel, ?_⟩
      rw [hru, hrules, Function.update_self, Function.update_idem,
        List.append_assoc, List.singleton_append]

-- ============================================================== the blocks

/-- The flowtable block is about the flowtable and the forward chain. -/
theorem makes_flowtable (p : Policy) (t : Table) :
    ∃ t', Makes (flowtableOps p) t t' ∧ t'.elements = t.elements
      ∧ ∀ c, c ≠ "forward" → t'.rules c = t.rules c := by
  unfold flowtableOps
  cases p.flowtable with
  | none => exact ⟨t, .refl t, rfl, fun _ _ => rfl⟩
  | some devices =>
      obtain ⟨t₁, h₁, he₁, hr₁⟩ := makes_addFlowTable (fastPath devices) t
      obtain ⟨t₂, h₂, he₂, hr₂, hc₂⟩ := makes_addChain forwardChain t₁
      obtain ⟨t₃, h₃, he₃, hr₃⟩ := makes_addRules "forward"
        [offloadRule p] (fun r hr => by rw [List.mem_singleton.mp hr]; rfl)
        hc₂
      refine ⟨t₃, (h₁.append h₂).append h₃, by rw [he₃, he₂, he₁],
        fun c hc => ?_⟩
      rw [hr₃, Function.update_of_ne hc, hr₂, hr₁]

/-- Every rule of the first chain asks for the managed interface first. -/
theorem preroutingRules_scoped (p : Policy) (ids : InstanceIds) :
    ∀ r ∈ preroutingRules p ids, r.chain = "prerouting"
      ∧ ∃ rest, r.expr = iifnameMatch p.interface :: rest := by
  intro r hr
  simp only [preroutingRules, List.mem_append] at hr
  rcases hr with (((hr | hr) | hr) | hr) | hr
  · simp only [acceptRules, List.mem_cons, List.not_mem_nil,
      or_false] at hr
    rcases hr with rfl | rfl <;> exact ⟨rfl, _, rfl⟩
  · unfold statelessTcpRules at hr
    split at hr
    · cases hr
    · obtain ⟨n, -, rfl⟩ := List.mem_map.mp hr
      exact ⟨rfl, _, rfl⟩
  · obtain ⟨n, -, rfl⟩ := List.mem_map.mp hr
    exact ⟨rfl, _, rfl⟩
  · obtain ⟨n, -, rfl⟩ := List.mem_map.mp hr
    exact ⟨rfl, _, rfl⟩
  · unfold dropRules at hr
    split at hr
    · rw [List.mem_singleton.mp hr]
      exact ⟨rfl, _, rfl⟩
    · cases hr

theorem chain_dnatRules (disp : SocketAddr → String) (p : Policy)
    (resolved : List ResolvedService) :
    ∀ r ∈ dnatRules disp p resolved, r.chain = "dnat" := by
  intro r hr
  obtain ⟨svc, -, hsvc⟩ := List.mem_filterMap.mp hr
  unfold dnatRule at hsvc
  split at hsvc
  · split at hsvc
    · cases hsvc
    · cases hsvc
      rfl
  · cases hsvc

/-- An absent `elem` is an empty one. -/
theorem realSet_elements (name : String) (addrType : SetType)
    (elements : List Expression) :
    (realSet name addrType elements).elem.getD [] = elements := by
  unfold realSet
  cases elements with
  | nil => rfl
  | cons e es => rfl

/-- A policy's commands add its services to the sets and leave the two
chains with its rules alone. -/
theorem makes_tableOps (disp : SocketAddr → String) (p : Policy)
    (ids : InstanceIds) (resolved : List ResolvedService) (t : Table) :
    ∃ t', execAll (tableOps disp p ids resolved) t = some t'
      ∧ t'.elements "real_v4" = t.elements "real_v4"
        ∪ (setElementsFor resolved fun s => s.addr.isIpv4).toFinset
      ∧ t'.elements "real_v6" = t.elements "real_v6"
        ∪ (setElementsFor resolved fun s => s.addr.isIpv6).toFinset
      ∧ t'.rules "prerouting" = preroutingRules p ids
      ∧ t'.rules "dnat" = dnatRules disp p resolved := by
  obtain ⟨t₁, h₁, he₁, hr₁⟩ := makes_flush t
  obtain ⟨t₂, h₂, hr₂, he₂⟩ := makes_addSet (realV4 resolved) t₁
  obtain ⟨t₃, h₃, hr₃, he₃⟩ := makes_addSet (realV6 resolved) t₂
  obtain ⟨t₄, h₄, he₄, hr₄, hc₄⟩ := makes_addChain preroutingChain t₃
  obtain ⟨t₅, h₅, he₅, hr₅⟩ := makes_addRules "prerouting" _
    (fun r hr => (preroutingRules_scoped p ids r hr).1) hc₄
  obtain ⟨t₆, h₆, he₆, hr₆, hc₆⟩ := makes_addChain dnatChain t₅
  obtain ⟨t₇, h₇, he₇, hr₇⟩ := makes_addRules "dnat" _
    (chain_dnatRules disp p resolved) hc₆
  obtain ⟨t₈, h₈, he₈, hr₈⟩ := makes_flowtable p t₇
  have hall := ((((((h₁.append h₂).append h₃).append h₄).append
    h₅).append h₆).append h₇).append h₈
  have hel : t₈.elements = t₃.elements := by
    rw [he₈, he₇, he₆, he₅, he₄]
  refine ⟨t₈, hall.result, ?_, ?_, ?_, ?_⟩
  · have hne : "real_v4" ≠ (realV6 resolved).name :=
      show "real_v4" ≠ "real_v6" by decide
    rw [hel, he₃, Function.update_of_ne hne, he₂, he₁, realV4,
      realSet_elements]
    exact Function.update_self ..
  · have hne : "real_v6" ≠ (realV4 resolved).name :=
      show "real_v6" ≠ "real_v4" by decide
    rw [hel, he₃, realV6, realSet_elements, he₂, he₁]
    refine (Function.update_self ..).trans ?_
    exact congrArg (· ∪ _) (Function.update_of_ne hne ..)
  · rw [hr₈ _ (by decide), hr₇, Function.update_of_ne (by decide), hr₆,
      hr₅, Function.update_self, hr₄, hr₃, hr₂, hr₁, List.nil_append]
  · rw [hr₈ _ (by decide), hr₇, Function.update_self, hr₆, hr₅,
      Function.update_of_ne (by decide), hr₄, hr₃, hr₂, hr₁,
      List.nil_append]

-- ============================================================= the kernel

/-- The table of a name, empty before it is added. -/
def Kernel.table (name : String) (k : Kernel) : Table :=
  (k.lookup name).getD .empty

theorem transact_on {name : String} {ops : List TableOp} {t t' : Table}
    (h : execAll ops t = some t') {k : Kernel}
    (hk : k.lookup name = some t) :
    ∃ k', transact (ops.map (.on name)) k = some k'
      ∧ k'.lookup name = some t' := by
  induction ops generalizing t k with
  | nil =>
      cases h
      exact ⟨k, rfl, hk⟩
  | cons op ops ih =>
      simp only [execAll, Option.bind_eq_bind,
        Option.bind_eq_some_iff] at h
      obtain ⟨t₁, hop, hrest⟩ := h
      obtain ⟨k', hk', hlk⟩ :=
        ih hrest (k := k.insert name t₁) (AList.lookup_insert _)
      refine ⟨k', ?_, hlk⟩
      rw [List.map_cons, transact]
      simp only [exec, hk, hop, Option.bind_eq_bind, Option.bind_some,
        Option.pure_def]
      exact hk'

/-- Applying a policy succeeds, and its table is what its commands make of
the one that was there. -/
theorem apply_table (disp : SocketAddr → String) {p : Policy}
    {resolved : List ResolvedService} (hres : p.resolve = .ok resolved)
    (k : Kernel) {ids : InstanceIds}
    (hids : InstanceIds.derive p.instanceName = ids) {t' : Table}
    (hrun : execAll (tableOps disp p ids resolved)
      (Kernel.table ids.nftTable k) = some t') :
    (apply disp true p k).1 = .ok ()
      ∧ (apply disp true p k).2.lookup ids.nftTable = some t' := by
  have hrender : render disp p = .ok (.addTable ids.nftTable
      :: (tableOps disp p ids resolved).map (.on ids.nftTable)) := by
    rw [render, hres, ← hids]
    rfl
  -- the table is there after the first command
  obtain ⟨k₁, hadd, hlk⟩ : ∃ k₁, exec (.addTable ids.nftTable) k = some k₁
      ∧ k₁.lookup ids.nftTable = some (Kernel.table ids.nftTable k) := by
    cases h : k.lookup ids.nftTable with
    | some t =>
        exact ⟨k, by simp only [exec, h], by simp only [Kernel.table, h,
          Option.getD_some]⟩
    | none =>
        refine ⟨k.insert ids.nftTable .empty, by simp only [exec, h], ?_⟩
        simp only [Kernel.table, h, Option.getD_none, AList.lookup_insert]
  obtain ⟨k', hk', hlk'⟩ := transact_on hrun hlk
  have htrans : transact (.addTable ids.nftTable
      :: (tableOps disp p ids resolved).map (.on ids.nftTable)) k
      = some k' := by
    rw [transact, hadd]
    exact hk'
  have happly : apply disp true p k = (.ok (), k') := by
    simp only [apply, hrender, htrans]
    rfl
  rw [happly]
  exact ⟨rfl, hlk'⟩

/-- Applying a policy adds its services to what the sets held, and leaves
the two chains with its rules alone. -/
theorem apply_effect (disp : SocketAddr → String) {p : Policy}
    {resolved : List ResolvedService} (hres : p.resolve = .ok resolved)
    (k : Kernel) :
    (apply disp true p k).1 = .ok ()
      ∧ ∃ t', (apply disp true p k).2.lookup
          (InstanceIds.derive p.instanceName).nftTable = some t'
        ∧ t'.elements "real_v4"
          = (Kernel.table (InstanceIds.derive p.instanceName).nftTable
              k).elements "real_v4"
            ∪ (setElementsFor resolved fun s => s.addr.isIpv4).toFinset
        ∧ t'.elements "real_v6"
          = (Kernel.table (InstanceIds.derive p.instanceName).nftTable
              k).elements "real_v6"
            ∪ (setElementsFor resolved fun s => s.addr.isIpv6).toFinset
        ∧ t'.rules "prerouting"
          = preroutingRules p (InstanceIds.derive p.instanceName)
        ∧ t'.rules "dnat" = dnatRules disp p resolved := by
  generalize hids : InstanceIds.derive p.instanceName = ids
  obtain ⟨t', hrun, hmade⟩ :=
    makes_tableOps disp p ids resolved (Kernel.table ids.nftTable k)
  obtain ⟨hok, hlk⟩ := apply_table disp hres k hids hrun
  exact ⟨hok, t', hlk, hmade⟩

end Blackwall.Nft
