/-
What each FlowSpec controller transition hands to the manager, said once.

The wire and the journal read an entry through `held`: its rule, its
origin, and the rule a rollback would put back. `Hands` relates the
controller before a transition, the actions it returns and the controller
after it: an announced key already holds the new rule, with the old one
as its `prior`; a withdrawn key is already gone; every other key is as it
was. One action a key, so the actions can be executed one by one.
Transitions that loop are composed with `Hands.append`.
-/
import Mathlib.Logic.Function.Basic
import Blackwall.FlowSpec.Controller

namespace Blackwall.FlowSpec

open Base
open Bgp (FlowSpecRule)
open Rtbh (BlackholeOrigin)

/-- What the wire and the journal see of an active entry. -/
structure Held where
  rule : FlowSpecRule
  origin : BlackholeOrigin
  prior : Option FlowSpecRule

/-- The entry's timestamps forgotten. -/
def ActiveEntry.held (e : ActiveEntry) : Held :=
  ⟨e.rule, e.origin, e.pendingPrior⟩

/-- The rule an action is about. -/
def FlowSpecAction.rule : FlowSpecAction → FlowSpecRule
  | .announce r => r
  | .withdraw r => r

/-- The key an action is about. -/
def FlowSpecAction.key (a : FlowSpecAction) : FlowKey := keyOf a.rule

namespace FlowSpecController

/-- What is held under a key. -/
def held (c : FlowSpecController) (k : FlowKey) : Option Held :=
  (c.active.lookup k).map ActiveEntry.held

/-- The rule held under a key. -/
def ruleAt (c : FlowSpecController) (k : FlowKey) : Option FlowSpecRule :=
  (c.held k).map (·.rule)

/-- The origin held under a key. -/
def originAt (c : FlowSpecController) (k : FlowKey) :
    Option BlackholeOrigin :=
  (c.held k).map (·.origin)

theorem activeRule_eq (c : FlowSpecController) (k : FlowKey) :
    c.activeRule k = c.ruleAt k := by
  simp only [activeRule, ruleAt, held, Option.map_map]
  rfl

theorem held_isSome {c : FlowSpecController} {k : FlowKey} :
    (c.held k).isSome ↔ k ∈ c.active := by
  rw [held, Option.isSome_map, AList.lookup_isSome]

theorem held_insert (c : FlowSpecController) (k : FlowKey)
    (e : ActiveEntry) :
    held { c with active := c.active.insert k e }
      = Function.update c.held k (some e.held) := by
  funext k'
  simp only [held, Dict.lookup_insert_if, Function.update_apply]
  split <;> rfl

theorem held_erase (c : FlowSpecController) (k : FlowKey) :
    held { c with active := c.active.erase k }
      = Function.update c.held k none := by
  funext k'
  simp only [held, Dict.lookup_erase_if, Function.update_apply]
  split <;> rfl

/-- An entry rewritten without a change of what is held. -/
theorem held_insert_keep {c : FlowSpecController} {k : FlowKey}
    {e e' : ActiveEntry} (h : c.active.lookup k = some e)
    (hkeep : e'.held = e.held) :
    held { c with active := c.active.insert k e' } = c.held := by
  rw [held_insert, hkeep]
  have hk : c.held k = some e.held := by rw [held, h]; rfl
  rw [← hk, Function.update_eq_self]

@[simp] theorem held_refreshTarget (c : FlowSpecController)
    (target : IpAddr) (now : Nat) :
    (c.refreshTarget target now).held = c.held := by
  funext k
  simp only [held, refreshTarget, Dict.lookup_mapVals, Option.map_map]
  congr 1
  funext e
  simp only [Function.comp_apply]
  split <;> rfl

/-- `rollback` puts the prior rule back, or drops the entry. -/
theorem held_rollback (c : FlowSpecController) (k : FlowKey) :
    (c.rollback k).held = Function.update c.held k
      ((c.held k).bind fun x =>
        x.prior.map fun p => ⟨p, x.origin, none⟩) := by
  unfold rollback
  cases hk : c.active.lookup k with
  | none =>
      have hheld : c.held k = none := by rw [held, hk]; rfl
      simp only [hheld]
      exact held_erase c k
  | some e =>
      have hheld : c.held k = some e.held := by rw [held, hk]; rfl
      rw [hheld]
      cases hp : e.pendingPrior with
      | none =>
          simp only [ActiveEntry.held, hp]
          exact held_erase c k
      | some p =>
          simp only [ActiveEntry.held, hp]
          exact held_insert c k _

-- ======================================================== well-keyed sets

/-- Every rule, prior rules included, is stored under its own key. -/
def Keyed (c : FlowSpecController) : Prop :=
  ∀ k x, c.held k = some x →
    keyOf x.rule = k ∧ ∀ p ∈ x.prior, keyOf p = k

theorem keyed_new (config : FlowSpecConfig) : (new config).Keyed := by
  intro k x h
  cases h

theorem Keyed.update {c c' : FlowSpecController} {k : FlowKey}
    {v : Option Held} (h : c.Keyed)
    (hheld : c'.held = Function.update c.held k v)
    (hv : ∀ x ∈ v, keyOf x.rule = k ∧ ∀ p ∈ x.prior, keyOf p = k) :
    c'.Keyed := by
  intro k' x hx
  rw [hheld, Function.update_apply] at hx
  split at hx
  · next he =>
    rw [he]
    exact hv x hx
  · exact h k' x hx

theorem Keyed.rollback {c : FlowSpecController} (h : c.Keyed)
    (k : FlowKey) : (c.rollback k).Keyed := by
  refine h.update (held_rollback c k) fun x hx => ?_
  simp only [Option.mem_def, Option.bind_eq_some_iff,
    Option.map_eq_some_iff] at hx
  obtain ⟨y, hy, p, hp, rfl⟩ := hx
  exact ⟨(h k y hy).2 p hp, fun q hq => by cases hq⟩

-- =================================================== what is handed over

/-- `acts` and `c'` are what a transition of `c` hands over; `org` is the
origin an announced key has, given the one it had. -/
structure Hands (org : Option BlackholeOrigin → BlackholeOrigin)
    (c : FlowSpecController) (acts : List FlowSpecAction)
    (c' : FlowSpecController) : Prop where
  keyed : c'.Keyed
  nodup : (acts.map FlowSpecAction.key).Nodup
  other : ∀ k, k ∉ acts.map FlowSpecAction.key → c'.held k = c.held k
  announced : ∀ r, .announce r ∈ acts → c'.held (keyOf r)
    = some ⟨r, org (c.originAt (keyOf r)), c.ruleAt (keyOf r)⟩
  withdrawn : ∀ r, .withdraw r ∈ acts →
    c'.held (keyOf r) = none ∧ c.ruleAt (keyOf r) = some r

section Hands

variable {org : Option BlackholeOrigin → BlackholeOrigin}
  {c c₁ c₂ : FlowSpecController}

/-- A transition that hands over nothing and changes nothing held. -/
theorem Hands.none (h : c.Keyed) (hsame : c₁.held = c.held) :
    Hands org c [] c₁ := by
  refine ⟨?_, List.nodup_nil, fun k _ => by rw [hsame], ?_, ?_⟩
  · intro k x hx
    rw [hsame] at hx
    exact h k x hx
  · intro r hr
    exact absurd hr List.not_mem_nil
  · intro r hr
    exact absurd hr List.not_mem_nil

theorem Hands.announce {r : FlowSpecRule} (h : c.Keyed)
    (hheld : c₁.held = Function.update c.held (keyOf r)
      (some ⟨r, org (c.originAt (keyOf r)), c.ruleAt (keyOf r)⟩)) :
    Hands org c [.announce r] c₁ := by
  refine ⟨h.update hheld ?_, List.nodup_singleton _, ?_, ?_, ?_⟩
  · intro x hx
    cases hx
    refine ⟨rfl, fun p hp => ?_⟩
    obtain ⟨y, hy, rfl⟩ := Option.map_eq_some_iff.mp hp
    exact (h _ y hy).1
  · intro k hk
    have hne : k ≠ keyOf r := by simpa [FlowSpecAction.key,
      FlowSpecAction.rule] using hk
    rw [hheld, Function.update_of_ne hne]
  · intro r' hr'
    cases List.mem_singleton.mp hr'
    rw [hheld, Function.update_self]
  · intro r' hr'
    cases List.mem_singleton.mp hr'

theorem Hands.withdraw {r : FlowSpecRule} (h : c.Keyed)
    (hr : c.ruleAt (keyOf r) = some r)
    (hheld : c₁.held = Function.update c.held (keyOf r) Option.none) :
    Hands org c [.withdraw r] c₁ := by
  refine ⟨h.update hheld (fun x hx => by cases hx),
    List.nodup_singleton _, ?_, ?_, ?_⟩
  · intro k hk
    have hne : k ≠ keyOf r := by simpa [FlowSpecAction.key,
      FlowSpecAction.rule] using hk
    rw [hheld, Function.update_of_ne hne]
  · intro r' hr'
    cases List.mem_singleton.mp hr'
  · intro r' hr'
    cases List.mem_singleton.mp hr'
    exact ⟨by rw [hheld, Function.update_self], hr⟩

/-- Transitions on different keys compose. -/
theorem Hands.append {a b : List FlowSpecAction}
    (ha : Hands org c a c₁) (hb : Hands org c₁ b c₂)
    (hdisj : ∀ k ∈ a.map FlowSpecAction.key,
      k ∉ b.map FlowSpecAction.key) :
    Hands org c (a ++ b) c₂ := by
  have hkey : ∀ {act : FlowSpecAction} {l : List FlowSpecAction},
      act ∈ l → act.key ∈ l.map FlowSpecAction.key :=
    fun h => List.mem_map_of_mem h
  -- what the second half sees of its own keys is what the first half saw
  have hsame : ∀ k ∈ b.map FlowSpecAction.key, c₁.held k = c.held k :=
    fun k hk => ha.other k fun hk' => hdisj k hk' hk
  refine ⟨hb.keyed, ?_, ?_, ?_, ?_⟩
  · rw [List.map_append]
    exact List.nodup_append.mpr ⟨ha.nodup, hb.nodup,
      fun k hk k' hk' he => hdisj k hk (he ▸ hk')⟩
  · intro k hk
    rw [List.map_append, List.mem_append, not_or] at hk
    rw [hb.other k hk.2, ha.other k hk.1]
  · intro r hr
    rcases List.mem_append.mp hr with hr | hr
    · have hk : c₂.held (keyOf r) = c₁.held (keyOf r) :=
        hb.other _ (hdisj _ (hkey hr))
      rw [hk]
      exact ha.announced r hr
    · have hk : c₁.held (keyOf r) = c.held (keyOf r) := hsame _ (hkey hr)
      rw [hb.announced r hr, originAt, ruleAt, hk]
      rfl
  · intro r hr
    rcases List.mem_append.mp hr with hr | hr
    · have hk : c₂.held (keyOf r) = c₁.held (keyOf r) :=
        hb.other _ (hdisj _ (hkey hr))
      rw [hk]
      exact ha.withdrawn r hr
    · have hk : c₁.held (keyOf r) = c.held (keyOf r) := hsame _ (hkey hr)
      have := hb.withdrawn r hr
      rw [ruleAt, hk] at this
      exact this

/-- A loop over distinct keys whose turns each act on their own key. -/
theorem hands_collect {A : Type}
    {turn : A → FlowSpecController →
      List FlowSpecAction × FlowSpecController} (key : A → FlowKey)
    (hturn : ∀ a c, Keyed c → Hands org c (turn a c).1 (turn a c).2
      ∧ ∀ k ∈ (turn a c).1.map FlowSpecAction.key, k = key a) :
    ∀ (as : List A) (c : FlowSpecController), c.Keyed →
      (as.map key).Nodup →
      Hands org c (collect turn as c).1 (collect turn as c).2
        ∧ ∀ k ∈ (collect turn as c).1.map FlowSpecAction.key,
          k ∈ as.map key := by
  intro as
  induction as with
  | nil =>
      intro c h _
      exact ⟨Hands.none h rfl, fun k hk => absurd hk List.not_mem_nil⟩
  | cons a as ih =>
      intro c h hnd
      rw [List.map_cons, List.nodup_cons] at hnd
      obtain ⟨hfst, hfstkey⟩ := hturn a c h
      obtain ⟨hrest, hrestkey⟩ := ih (turn a c).2 hfst.keyed hnd.2
      refine ⟨hfst.append hrest fun k hk hk' => ?_, fun k hk => ?_⟩
      · exact hnd.1 (hfstkey k hk ▸ hrestkey k hk')
      · rw [collect, List.map_append, List.mem_append] at hk
        rcases hk with hk | hk
        · rw [hfstkey k hk]
          exact List.mem_cons_self
        · exact List.mem_cons_of_mem _ (hrestkey k hk)

end Hands

-- ============================================================ inversions

section Transitions

variable (org : Option BlackholeOrigin → BlackholeOrigin)
  {c : FlowSpecController}

theorem held_of_lookup {k : FlowKey} {e : ActiveEntry}
    (h : c.active.lookup k = some e) : c.held k = some e.held := by
  rw [held, h]
  rfl

theorem held_of_lookup_none {k : FlowKey}
    (h : c.active.lookup k = Option.none) : c.held k = Option.none := by
  rw [held, h]
  rfl

/-- `insert_rule` hands over its rule or nothing. -/
theorem insertRule_hands (h : c.Keyed) (target : IpAddr)
    (rule : FlowSpecRule) (at_ : Nat) (o : BlackholeOrigin) :
    Hands (·.getD o) c (c.insertRule target rule at_ o).1
        (c.insertRule target rule at_ o).2
      ∧ ((c.insertRule target rule at_ o).1 = []
        ∨ (c.insertRule target rule at_ o).1 = [.announce rule]) := by
  unfold insertRule
  split
  · exact ⟨Hands.none h rfl, Or.inl rfl⟩
  split
  · exact ⟨Hands.none h rfl, Or.inl rfl⟩
  split
  · next e he =>
    have hk := held_of_lookup he
    simp only
    split
    · refine ⟨Hands.announce h ?_, Or.inr rfl⟩
      rw [held_insert, originAt, ruleAt, hk]
      rfl
    · exact ⟨Hands.none h (held_insert_keep he rfl), Or.inl rfl⟩
  · next he =>
    have hk := held_of_lookup_none he
    split
    · exact ⟨Hands.none h rfl, Or.inl rfl⟩
    · refine ⟨Hands.announce h ?_, Or.inr rfl⟩
      rw [held_insert, originAt, ruleAt, hk]
      rfl

/-- `install`, when the rules have distinct (protocol, port) pairs. -/
theorem install_hands (h : c.Keyed) (target : IpAddr)
    (rules : List (BitVec 8 × BitVec 16 × F32)) (now : Nat)
    (hnd : (rules.map fun r => (r.1, r.2.1)).Nodup) :
    Hands (·.getD .auto) c (c.install target rules now).1
        (c.install target rules now).2
      ∧ ∀ k ∈ (c.install target rules now).1.map FlowSpecAction.key,
        k.1 = hostPrefix target := by
  have hkeys : (rules.map fun r => keyOf (hostRule target r)).Nodup := by
    have hinj : Function.Injective
        (fun p : BitVec 8 × BitVec 16 => (hostPrefix target, p)) :=
      fun a b hab => (Prod.mk.injEq _ _ _ _ ▸ hab).2
    have := hnd.map hinj
    rw [List.map_map] at this
    exact this
  obtain ⟨hh, hk⟩ := hands_collect (fun r => keyOf (hostRule target r))
    (fun r c hc => by
      obtain ⟨hh, hact⟩ := insertRule_hands hc target (hostRule target r)
        now .auto
      refine ⟨hh, fun k hk => ?_⟩
      rcases hact with hact | hact
      · rw [hact] at hk
        exact absurd hk List.not_mem_nil
      · rw [hact] at hk
        exact List.mem_singleton.mp hk) rules c h hkeys
  refine ⟨hh, fun k hmem => ?_⟩
  obtain ⟨r, -, rfl⟩ := List.mem_map.mp (hk k hmem)
  rfl

/-- The keys a traversal visits are distinct. -/
theorem keys_nodup
    (ord : IterOrder (Sigma fun _ : FlowKey => ActiveEntry))
    (c : FlowSpecController) :
    ((ord.1 c.active.entries).map Sigma.fst).Nodup := by
  rw [((ord.2 c.active.entries).map Sigma.fst).nodup_iff]
  exact c.active.nodupKeys

/-- Removing a key withdraws the rule stored under it. -/
theorem removeKey_hands (h : c.Keyed) (k : FlowKey) :
    Hands org c (c.removeKey k).1 (c.removeKey k).2
      ∧ ∀ k' ∈ (c.removeKey k).1.map FlowSpecAction.key, k' = k := by
  unfold removeKey
  split
  · next e he =>
    have hk := held_of_lookup he
    have hkey : keyOf e.rule = k := (h k _ hk).1
    refine ⟨Hands.withdraw h ?_ ?_, fun k' hk' => ?_⟩
    · rw [hkey, ruleAt, hk]
      rfl
    · rw [hkey]
      exact held_erase c k
    · rw [List.mem_singleton.mp hk']
      exact hkey
  · exact ⟨Hands.none h rfl, fun k' hk' => absurd hk' List.not_mem_nil⟩

theorem clearKey_hands (h : c.Keyed) (now : Nat) (k : FlowKey) :
    Hands org c (c.clearKey now k).1 (c.clearKey now k).2
      ∧ ∀ k' ∈ (c.clearKey now k).1.map FlowSpecAction.key, k' = k := by
  have hnil : ∀ k' ∈ ([] : List FlowSpecAction).map FlowSpecAction.key,
      k' = k := fun k' hk' => absurd hk' List.not_mem_nil
  unfold clearKey
  split
  · exact ⟨Hands.none h rfl, hnil⟩
  · next e he =>
    have hk := held_of_lookup he
    have hkey : keyOf e.rule = k := (h k _ hk).1
    split
    · exact ⟨Hands.none h rfl, hnil⟩
    split
    · refine ⟨Hands.withdraw h ?_ ?_, fun k' hk' => ?_⟩
      · rw [hkey, ruleAt, hk]
        rfl
      · rw [hkey]
        exact held_erase c k
      · rw [List.mem_singleton.mp hk']
        exact hkey
    · exact ⟨Hands.none h (held_insert_keep he rfl), hnil⟩

theorem clearTarget_hands (h : c.Keyed)
    (ord : IterOrder (Sigma fun _ : FlowKey => ActiveEntry))
    (target : IpAddr) (now : Nat) :
    Hands org c (c.clearTarget ord target now).1
      (c.clearTarget ord target now).2 := by
  refine (hands_collect id (fun k c hc => clearKey_hands org hc now k)
    _ c h ?_).1
  rw [List.map_id]
  exact (keys_nodup ord c).sublist List.filter_sublist

theorem tick_hands (h : c.Keyed)
    (ord : IterOrder (Sigma fun _ : FlowKey => ActiveEntry)) (now : Nat) :
    Hands org c (c.tick ord now).1 (c.tick ord now).2 := by
  refine (hands_collect id (fun k c hc => removeKey_hands org hc k)
    _ c h ?_).1
  rw [List.map_id]
  exact (keys_nodup ord c).sublist (List.filter_sublist.map _)

theorem manualRemove_hands (h : c.Keyed) (rule : FlowSpecRule) :
    Hands org c (c.manualRemove rule).1 (c.manualRemove rule).2 :=
  (removeKey_hands org h (keyOf rule)).1

/-- `manual_remove` withdraws one rule or nothing. -/
theorem removeKey_actions (k : FlowKey) (c : FlowSpecController) :
    (c.removeKey k).1 = [] ∨ ∃ r, (c.removeKey k).1 = [.withdraw r] := by
  unfold removeKey
  split
  · exact Or.inr ⟨_, rfl⟩
  · exact Or.inl rfl

theorem clearKey_actions (now : Nat) (k : FlowKey)
    (c : FlowSpecController) :
    (c.clearKey now k).1 = []
      ∨ ∃ r, (c.clearKey now k).1 = [.withdraw r] := by
  unfold clearKey
  repeat' split
  case h_2.isFalse.isTrue => exact Or.inr ⟨_, rfl⟩
  all_goals exact Or.inl rfl

theorem manualRemove_actions (c : FlowSpecController)
    (rule : FlowSpecRule) :
    (c.manualRemove rule).1 = []
      ∨ ∃ r, (c.manualRemove rule).1 = [.withdraw r] :=
  removeKey_actions (keyOf rule) c

theorem withdraws_of_actions {acts : List FlowSpecAction}
    (h : acts = [] ∨ ∃ r, acts = [.withdraw r]) :
    ∀ a ∈ acts, ∃ r, a = FlowSpecAction.withdraw r := by
  rcases h with rfl | ⟨r, rfl⟩
  · exact fun a ha => absurd ha List.not_mem_nil
  · exact fun a ha => ⟨r, List.mem_singleton.mp ha⟩

theorem removeKey_withdraws (k : FlowKey) (c : FlowSpecController) :
    ∀ a ∈ (c.removeKey k).1, ∃ r, a = FlowSpecAction.withdraw r :=
  withdraws_of_actions (removeKey_actions k c)

theorem clearKey_withdraws (now : Nat) (k : FlowKey)
    (c : FlowSpecController) :
    ∀ a ∈ (c.clearKey now k).1, ∃ r, a = FlowSpecAction.withdraw r :=
  withdraws_of_actions (clearKey_actions now k c)

theorem collect_withdraws {A : Type}
    {turn : A → FlowSpecController →
      List FlowSpecAction × FlowSpecController}
    (hturn : ∀ a c, ∀ act ∈ (turn a c).1, ∃ r, act = .withdraw r) :
    ∀ (as : List A) (c : FlowSpecController),
      ∀ act ∈ (collect turn as c).1, ∃ r, act = .withdraw r := by
  intro as
  induction as with
  | nil =>
      intro c act hact
      exact absurd hact List.not_mem_nil
  | cons a as ih =>
      intro c act hact
      rcases List.mem_append.mp hact with hact | hact
      · exact hturn a c act hact
      · exact ih _ act hact

theorem clearTarget_withdraws (c : FlowSpecController)
    (ord : IterOrder (Sigma fun _ : FlowKey => ActiveEntry))
    (target : IpAddr) (now : Nat) :
    ∀ a ∈ (c.clearTarget ord target now).1,
      ∃ r, a = FlowSpecAction.withdraw r :=
  collect_withdraws (clearKey_withdraws now) _ c

theorem tick_withdraws (c : FlowSpecController)
    (ord : IterOrder (Sigma fun _ : FlowKey => ActiveEntry)) (now : Nat) :
    ∀ a ∈ (c.tick ord now).1, ∃ r, a = FlowSpecAction.withdraw r :=
  collect_withdraws removeKey_withdraws _ c

/-- `manual_add`: a silent upgrade of an active rule, or what
`insert_rule` and the in-place update hand over. -/
theorem manualAdd_cases (h : c.Keyed) (rule : FlowSpecRule) (now : Nat) :
    (∃ x, c.held (keyOf rule) = some x
        ∧ x.rule.action.differs rule.action = false
        ∧ (c.manualAdd rule now).1 = []
        ∧ (c.manualAdd rule now).2.held = Function.update c.held
          (keyOf rule) (some { x with origin := .manual }))
      ∨ Hands (fun _ => .manual) c (c.manualAdd rule now).1
          (c.manualAdd rule now).2
        ∧ ((c.manualAdd rule now).1 = []
            ∧ c.held (keyOf rule) = Option.none
          ∨ (c.manualAdd rule now).1 = [.announce rule]) := by
  unfold manualAdd
  split
  · next e he =>
    have hk := held_of_lookup he
    simp only
    split
    · refine Or.inr ⟨Hands.announce h ?_, Or.inr rfl⟩
      rw [held_insert, ruleAt, hk]
      rfl
    · next hdiff =>
      refine Or.inl ⟨e.held, hk, ?_, rfl, held_insert c _ _⟩
      exact Bool.not_eq_true _ |>.mp hdiff
  · next he =>
    have hk := held_of_lookup_none he
    obtain ⟨hh, hact⟩ := insertRule_hands h rule.dst.addr rule now .manual
    refine Or.inr ⟨⟨hh.keyed, hh.nodup, hh.other, fun r hr => ?_,
      hh.withdrawn⟩, hact.imp_left fun hnil => ⟨hnil, hk⟩⟩
    have hr' := hh.announced r hr
    -- the key was absent, so the inserted origin is the call's own
    rcases hact with hnil | hann
    · rw [hnil] at hr
      exact absurd hr List.not_mem_nil
    · rw [hann] at hr
      cases List.mem_singleton.mp hr
      rw [hr', originAt, hk]
      rfl

end Transitions

end FlowSpecController

end Blackwall.FlowSpec
