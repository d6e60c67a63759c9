/-
The active set of the FlowSpec controller is what its actions add up to.

As for the blackholes (`Rtbh.Proofs.ActiveSet`), except that a rule can be
announced over another one. The rule it replaces is kept as
`pendingPrior`, and right after the announcement that is what a reader of
the log had under the key before (`Replays`).
-/
import Blackwall.FlowSpec.Moves
import Blackwall.FlowSpec.Proofs.Controller

namespace Blackwall.FlowSpec

open Base
open Bgp (FlowSpecRule)
open Rtbh (BlackholeOrigin)

namespace FlowSpecController

variable {c c' : FlowSpecController} {k : FlowKey}

-- ========================================================= what is active

/-- An active key is for one host, which is eligible and not protected. -/
def Fair (c : FlowSpecController) (k : FlowKey) : Prop :=
  ∃ t, k.1 = hostPrefix t ∧ c.isProtected t = false ∧ c.isEligible t = true

/-- Every active key is fair, and they keep to the cap. -/
structure Sound (c : FlowSpecController) : Prop where
  fair : ∀ k ∈ c.active, c.Fair k
  capped : c.active.entries.length ≤ c.config.maxRules

theorem Fair.congr (hconfig : c'.config = c.config) (h : c.Fair k) :
    c'.Fair k := by
  obtain ⟨t, hk, hfair⟩ := h
  refine ⟨t, hk, ?_⟩
  simpa only [isProtected, isEligible, hconfig] using hfair

theorem Sound.new (config : FlowSpecConfig) : (new config).Sound :=
  ⟨fun k hk => absurd hk (AList.notMem_empty k), Nat.zero_le _⟩

/-- `c'` is sound with the configuration of `c`. -/
def KeepsSound (c c' : FlowSpecController) : Prop :=
  c.Sound → c'.Sound ∧ c'.config = c.config

/-- Fewer rules, or the same with other data. -/
theorem KeepsSound.shrink (hconfig : c'.config = c.config)
    (hsub : ∀ k ∈ c'.active, k ∈ c.active)
    (hlen : c'.active.entries.length ≤ c.active.entries.length) :
    KeepsSound c c' := fun h =>
  ⟨⟨fun k hk => (h.fair k (hsub k hk)).congr hconfig,
    hconfig ▸ Nat.le_trans hlen h.capped⟩, hconfig⟩

theorem KeepsSound.refl (c : FlowSpecController) : KeepsSound c c :=
  fun h => ⟨h, rfl⟩

theorem KeepsSound.erase (k : FlowKey) (c : FlowSpecController) :
    KeepsSound c { c with active := c.active.erase k } :=
  .shrink rfl (fun _ hx => (AList.mem_erase.mp hx).2)
    (Dict.length_erase_le k c.active)

/-- An active key's entry replaced. -/
theorem KeepsSound.replace {e : ActiveEntry}
    (he : c.active.lookup k = some e) (e' : ActiveEntry) :
    KeepsSound c { c with active := c.active.insert k e' } := by
  refine .shrink rfl (fun x hx => ?_) ?_
  · rcases (AList.mem_insert _).mp hx with rfl | hx
    · rw [← AList.lookup_isSome, he]
      rfl
    · exact hx
  · show (c.active.insert k e').entries.length ≤ _
    rw [Dict.length_insert, he]
    exact Nat.le_refl _

theorem insertRule_sound {rule : FlowSpecRule} {target : IpAddr}
    (hdst : rule.dst = hostPrefix target) (at_ : Nat)
    (o : BlackholeOrigin) (c : FlowSpecController) :
    KeepsSound c (c.insertRule target rule at_ o).2 := by
  unfold insertRule
  split
  · exact .shrink rfl (fun _ hx => hx) (Nat.le_refl _)
  · next hprot =>
    split
    · exact .refl c
    · next helig =>
      split
      · next e he =>
        dsimp only
        split
        · exact .replace he _
        · exact .replace he _
      · next he =>
        split
        · exact .refl c
        · next hroom =>
          intro h
          refine ⟨⟨fun x hx => ?_, ?_⟩, rfl⟩
          · rcases (AList.mem_insert _).mp hx with rfl | hx
            · exact Fair.congr (c := c) rfl ⟨target, hdst,
                by simpa using hprot, by simpa using helig⟩
            · exact h.fair x hx
          · show (c.active.insert _ _).entries.length ≤ c.config.maxRules
            rw [Dict.length_insert, he]
            exact Nat.lt_of_not_le hroom

theorem removeKey_sound (k : FlowKey) (c : FlowSpecController) :
    KeepsSound c (c.removeKey k).2 := by
  unfold removeKey
  split
  · exact .erase k c
  · exact .refl c

theorem clearKey_sound (now : Nat) (k : FlowKey)
    (c : FlowSpecController) : KeepsSound c (c.clearKey now k).2 := by
  unfold clearKey
  split
  · exact .refl c
  · next e he =>
    split
    · exact .refl c
    · split
      · exact .erase k c
      · exact .replace he _

theorem collect_sound {A : Type}
    {turn : A → FlowSpecController →
      List FlowSpecAction × FlowSpecController}
    (hturn : ∀ a c, KeepsSound c (turn a c).2) (as : List A)
    (c : FlowSpecController) : KeepsSound c (collect turn as c).2 := by
  induction as generalizing c with
  | nil => exact .refl c
  | cons a as ih =>
      intro h
      obtain ⟨h₁, hconfig₁⟩ := hturn a c h
      obtain ⟨h₂, hconfig₂⟩ := ih (turn a c).2 h₁
      exact ⟨h₂, hconfig₂.trans hconfig₁⟩

/-- Every operation keeps the active set sound. -/
theorem apply_sound (m : Move) (c : FlowSpecController) :
    KeepsSound c (m.apply c).2 := by
  cases m with
  | install target rules now =>
      exact collect_sound (fun _ c => insertRule_sound rfl now .auto c)
        rules c
  | clearTarget ord target now =>
      exact collect_sound (clearKey_sound now) _ c
  | manualAdd rule now =>
      show KeepsSound c (c.manualAdd rule.1 now).2
      unfold manualAdd
      split
      · next e he =>
        dsimp only
        split
        · exact .replace he _
        · exact .replace he _
      · exact insertRule_sound rule.2 now .manual c
  | manualRemove rule => exact removeKey_sound (keyOf rule) c
  | refreshTarget target now =>
      refine .shrink rfl (fun k hk => ?_) ?_
      · rw [← AList.lookup_isSome] at hk ⊢
        change ((Dict.mapVals _ c.active).lookup k).isSome = true at hk
        rwa [Dict.lookup_mapVals, Option.isSome_map] at hk
      · exact Nat.le_of_eq (Dict.length_mapVals _ c.active)
  | tick ord now => exact collect_sound removeKey_sound _ c
  | resume rule at_ o => exact insertRule_sound rule.2 at_ o c
  | rollback k =>
      show KeepsSound c (c.rollback k)
      unfold rollback
      split
      · next e he =>
        split
        · exact .replace he _
        · exact .erase k c
      · exact .erase k c

end FlowSpecController

-- ================================================================ replays

/-- A reader of the log holds the active rules, and what he had before
under a fresh key is what a rollback would restore. -/
structure Replays (fresh : List FlowKey) (l : Ledger FlowKey FlowSpecRule)
    (c : FlowSpecController) : Prop where
  keyed : c.Keyed
  held : l.held = c.ruleAt
  prior : ∀ k ∈ fresh, ∃ x, c.held k = some x ∧ x.prior = l.prior k

section Replays

variable {fresh : List FlowKey} {l : Ledger FlowKey FlowSpecRule}
  {c c' : FlowSpecController}

theorem Replays.forget (h : Replays fresh l c) : Replays [] l c :=
  ⟨h.keyed, h.held, fun _ hk => absurd hk List.not_mem_nil⟩

/-- A change of what only the timers see. -/
theorem Replays.same (h : Replays fresh l c) (hheld : c'.held = c.held) :
    Replays fresh l c' where
  keyed := fun k x hx => h.keyed k x (hheld ▸ hx)
  held := by
    rw [h.held]
    funext k
    rw [FlowSpecController.ruleAt, FlowSpecController.ruleAt, hheld]
  prior := fun k hk => hheld ▸ h.prior k hk

theorem ruleAt_update {k : FlowKey} {x : Option Held}
    (h : c'.held = Function.update c.held k x) :
    c'.ruleAt = Function.update c.ruleAt k (x.map (·.rule)) := by
  funext k'
  rw [FlowSpecController.ruleAt, h, Function.update_apply,
    Function.update_apply]
  split <;> rfl

theorem Replays.announce (h : Replays fresh l c) {r : FlowSpecRule}
    {o : BlackholeOrigin} (hkeyed : c'.Keyed)
    (hheld : c'.held = Function.update c.held (keyOf r)
      (some ⟨r, o, c.ruleAt (keyOf r)⟩)) :
    Replays (fresh ++ [keyOf r]) (l.post (.announce (keyOf r) r)) c' where
  keyed := hkeyed
  held := by
    rw [ruleAt_update hheld, ← h.held]
    rfl
  prior := fun k hk => by
    show ∃ x, c'.held k = some x
      ∧ x.prior = Function.update l.prior (keyOf r) (l.held (keyOf r)) k
    rw [hheld]
    by_cases hkr : k = keyOf r
    · rw [hkr, Function.update_self, Function.update_self, h.held]
      exact ⟨_, rfl, rfl⟩
    · rw [Function.update_of_ne hkr, Function.update_of_ne hkr]
      refine h.prior k ((List.mem_append.mp hk).resolve_right ?_)
      exact fun hin => hkr (List.mem_singleton.mp hin)

theorem Replays.withdraw (h : Replays [] l c) {k : FlowKey}
    (hkeyed : c'.Keyed) (hheld : c'.held = Function.update c.held k none) :
    Replays [] (l.post (.withdraw k)) c' where
  keyed := hkeyed
  held := by
    rw [ruleAt_update hheld, ← h.held]
    rfl
  prior := fun _ hk => absurd hk List.not_mem_nil

/-- The last announcement of a fresh key is taken back. -/
theorem Replays.undo (h : Replays fresh l c) {k : FlowKey}
    (hk : k ∈ fresh) :
    Replays (fresh.filter (· ≠ k)) (l.post (.undo k)) (c.rollback k) := by
  have hheld := FlowSpecController.held_rollback c k
  obtain ⟨⟨rule, o, prior⟩, hx, hprior⟩ := h.prior k hk
  refine ⟨h.keyed.rollback k, ?_, fun k' hk' => ?_⟩
  · show Function.update l.held k (l.prior k) = _
    rw [ruleAt_update hheld, h.held, hx, ← hprior]
    congr 1
    cases prior <;> rfl
  · obtain ⟨hk', hne⟩ := List.mem_filter.mp hk'
    rw [hheld, Function.update_of_ne (of_decide_eq_true hne)]
    exact h.prior k' hk'

end Replays

-- ============================================================ one operation

/-- The actions read, and the keys they announce fresh. -/
def Posts (fresh : List FlowKey) (l : Ledger FlowKey FlowSpecRule)
    (r : List FlowSpecAction × FlowSpecController) : Prop :=
  Replays (fresh ++ r.1.filterMap FlowSpecAction.announced)
    (run Ledger.post l (r.1.map FlowSpecAction.posting)) r.2

section Posts

variable {fresh : List FlowKey} {l : Ledger FlowKey FlowSpecRule}
  {c c' : FlowSpecController}
  {org : Option BlackholeOrigin → BlackholeOrigin}

theorem Posts.silent (h : Replays fresh l c) (hheld : c'.held = c.held) :
    Posts fresh l ([], c') := by
  unfold Posts
  rw [List.filterMap_nil, List.append_nil]
  exact h.same hheld

theorem Posts.announce {r : FlowSpecRule} (h : Replays fresh l c)
    (hh : FlowSpecController.Hands org c [.announce r] c') :
    Posts fresh l ([.announce r], c') := by
  refine h.announce (o := org (c.originAt (keyOf r))) hh.keyed ?_
  funext k
  rw [Function.update_apply]
  split
  · next hk =>
    rw [hk]
    exact hh.announced r List.mem_cons_self
  · next hk =>
    exact hh.other k fun hin => hk (List.mem_singleton.mp hin)

theorem Posts.withdraw {r : FlowSpecRule} (h : Replays [] l c)
    (hh : FlowSpecController.Hands org c [.withdraw r] c') :
    Posts [] l ([.withdraw r], c') := by
  refine h.withdraw (k := keyOf r) hh.keyed ?_
  funext k
  rw [Function.update_apply]
  split
  · next hk =>
    rw [hk]
    exact (hh.withdrawn r List.mem_cons_self).1
  · next hk =>
    exact hh.other k fun hin => hk (List.mem_singleton.mp hin)

theorem hands_nil (hh : FlowSpecController.Hands org c [] c') :
    c'.held = c.held :=
  funext fun k => hh.other k List.not_mem_nil

theorem Posts.insertRule (h : Replays fresh l c) (target : IpAddr)
    (rule : FlowSpecRule) (at_ : Nat) (o : BlackholeOrigin) :
    Posts fresh l (c.insertRule target rule at_ o) := by
  obtain ⟨hh, hacts⟩ := FlowSpecController.insertRule_hands h.keyed target
    rule at_ o
  revert hh hacts
  obtain ⟨acts, c'⟩ := c.insertRule target rule at_ o
  rintro hh (rfl | rfl)
  · exact .silent h (hands_nil hh)
  · exact .announce h hh

/-- A turn that withdraws at most one rule. -/
theorem Posts.removal {r : List FlowSpecAction × FlowSpecController}
    (h : Replays [] l c)
    (hh : FlowSpecController.Hands org c r.1 r.2)
    (hacts : r.1 = [] ∨ ∃ rule, r.1 = [.withdraw rule]) :
    Posts [] l r := by
  obtain ⟨acts, c'⟩ := r
  obtain rfl | ⟨rule, rfl⟩ := hacts
  · exact .silent h (hands_nil hh)
  · exact .withdraw h hh

/-- A loop of turns, each read where the one before it ended. -/
theorem Posts.collect {A : Type}
    {turn : A → FlowSpecController →
      List FlowSpecAction × FlowSpecController} (F : List FlowKey → Prop)
    (hF : ∀ a c fresh, F fresh →
      F (fresh ++ (turn a c).1.filterMap FlowSpecAction.announced))
    (hturn : ∀ a c l fresh, F fresh → Replays fresh l c →
      Posts fresh l (turn a c)) (as : List A) :
    ∀ {c l fresh}, F fresh → Replays fresh l c →
      Posts fresh l (collect turn as c) := by
  induction as with
  | nil => exact fun _ h => .silent h rfl
  | cons a as ih =>
      intro c l fresh hfresh h
      have hrest := ih (hF a c fresh hfresh) (hturn a c l fresh hfresh h)
      unfold Posts at hrest ⊢
      rw [Base.collect, List.filterMap_append, List.map_append, run_append,
        ← List.append_assoc]
      exact hrest

/-- A loop of turns that withdraw at most one rule each. -/
theorem Posts.removals {A : Type}
    (org : Option BlackholeOrigin → BlackholeOrigin)
    {turn : A → FlowSpecController →
      List FlowSpecAction × FlowSpecController}
    (hhands : ∀ a c, c.Keyed →
      FlowSpecController.Hands org c (turn a c).1 (turn a c).2)
    (hacts : ∀ a c, (turn a c).1 = [] ∨ ∃ r, (turn a c).1 = [.withdraw r])
    (as : List A) (h : Replays [] l c) :
    Posts [] l (Base.collect turn as c) := by
  refine Posts.collect (· = []) (fun a c fresh hf => ?_)
    (fun a c l fresh hf hr => ?_) as rfl h
  · rcases hacts a c with ha | ⟨r, ha⟩
    · rw [hf, ha]
      rfl
    · rw [hf, ha]
      rfl
  · subst hf
    exact .removal hr (hhands a c hr.keyed) (hacts a c)

theorem Posts.manualAdd (h : Replays fresh l c) (rule : FlowSpecRule)
    (now : Nat) : Posts fresh l (c.manualAdd rule now) := by
  have hcases := FlowSpecController.manualAdd_cases h.keyed rule now
  revert hcases
  obtain ⟨acts, c'⟩ := c.manualAdd rule now
  rintro (⟨x, hx, -, rfl, hheld⟩ | ⟨hh, ⟨rfl, -⟩ | rfl⟩)
  · -- a silent upgrade: the origin alone changes
    unfold Posts
    rw [List.filterMap_nil, List.append_nil]
    refine ⟨h.keyed.update hheld fun y hy => ?_, ?_, fun k hk => ?_⟩
    · cases hy
      exact h.keyed _ x hx
    · show l.held = c'.ruleAt
      rw [ruleAt_update hheld, h.held]
      refine (Function.update_eq_self_iff.mpr ?_).symm
      rw [FlowSpecController.ruleAt, hx]
      rfl
    · obtain ⟨y, hy, hprior⟩ := h.prior k hk
      show ∃ x, c'.held k = some x ∧ _
      rw [hheld, Function.update_apply]
      split
      · next hkr =>
        rw [hkr, hx] at hy
        cases hy
        exact ⟨_, rfl, hprior⟩
      · exact ⟨y, hy, hprior⟩
  · exact .silent h (hands_nil hh)
  · exact .announce h hh

/-- Every operation but a rollback, read from the log before it. -/
theorem Posts.apply (h : Replays [] l c) {m : Move}
    (hm : ∀ k, m ≠ .rollback k) : Posts [] l (m.apply c) := by
  let org : Option BlackholeOrigin → BlackholeOrigin := (·.getD .auto)
  cases m with
  | install target rules now =>
      exact Posts.collect (fun _ => True) (fun _ _ _ _ => trivial)
        (fun r c l fresh _ hr =>
          .insertRule hr target (FlowSpecController.hostRule target r) now
            .auto) rules trivial h
  | clearTarget ord target now =>
      exact .removals org (fun k c hc =>
        (FlowSpecController.clearKey_hands org hc now k).1)
        (FlowSpecController.clearKey_actions now) _ h
  | manualAdd rule now => exact .manualAdd h rule.1 now
  | manualRemove rule =>
      exact .removal h (FlowSpecController.manualRemove_hands org h.keyed
        rule) (FlowSpecController.removeKey_actions (keyOf rule) c)
  | refreshTarget target now =>
      exact .silent h (FlowSpecController.held_refreshTarget c target now)
  | tick ord now =>
      exact .removals org (fun k c hc =>
        (FlowSpecController.removeKey_hands org hc k).1)
        FlowSpecController.removeKey_actions _ h
  | resume rule at_ o => exact .insertRule h _ rule.1 at_ o
  | rollback k => exact absurd rfl (hm k)

end Posts

-- ==================================================================== runs

namespace Staged

/-- What a reader of the log holds. -/
def ledger (s : Staged) : Ledger FlowKey FlowSpecRule := Ledger.read s.log

/-- The active set is sound, and the log adds up to it. -/
structure AddsUp (config : FlowSpecConfig) (s : Staged) : Prop where
  config : s.ctrl.config = config
  sound : s.ctrl.Sound
  replays : Replays s.fresh s.ledger s.ctrl

theorem addsUp_start (config : FlowSpecConfig) :
    (start config).AddsUp config :=
  ⟨rfl, .new config, FlowSpecController.keyed_new config, rfl,
    fun _ hk => absurd hk List.not_mem_nil⟩

theorem AddsUp.step {config : FlowSpecConfig} {s : Staged}
    (h : s.AddsUp config) {m : Move} (hm : ∀ k, m ≠ .rollback k)
    {s' : Staged}
    (hs' : s' = ⟨(m.apply s.ctrl).2,
      (m.apply s.ctrl).1.filterMap FlowSpecAction.announced,
      s.log ++ (m.apply s.ctrl).1.map FlowSpecAction.posting⟩) :
    s'.AddsUp config := by
  subst hs'
  obtain ⟨hsound, hconfig⟩ :=
    FlowSpecController.apply_sound m s.ctrl h.sound
  refine ⟨hconfig.trans h.config, hsound, ?_⟩
  unfold ledger
  rw [Ledger.read_append]
  exact Posts.apply h.replays.forget hm

theorem AddsUp.move {config : FlowSpecConfig} {s : Staged}
    (h : s.AddsUp config) (m : Move) : (s.move m).AddsUp config := by
  cases m with
  | rollback k =>
      unfold Staged.move
      dsimp only
      split
      · next hk =>
        obtain ⟨hsound, hconfig⟩ :=
          FlowSpecController.apply_sound (.rollback k) s.ctrl h.sound
        refine ⟨hconfig.trans h.config, hsound, ?_⟩
        unfold ledger
        rw [Ledger.read_append]
        exact h.replays.undo hk
      · exact h
  | _ => exact h.step (fun _ hm => by cases hm) rfl

theorem addsUp_run (config : FlowSpecConfig) (ms : List Move) :
    (run move (start config) ms).AddsUp config :=
  run_invariant (fun _ m h => h.move m) ms (addsUp_start config)

end Staged

end Blackwall.FlowSpec
