/-
The active set of the RTBH controller is what its actions add up to.

A reader of the emitted announcements and withdrawals, who takes an
announcement back when it is rolled back, holds the host route of every
active target and nothing else.
-/
import Blackwall.Rtbh.Proofs.Lifecycle

namespace Blackwall.Rtbh

open Base
open Bgp (Route)

namespace RtbhController

variable {c c' : RtbhController} {t : IpAddr}

/-- The routes of the active targets. -/
def announced (c : RtbhController) (net : IpNet) : Option Route :=
  if net = hostPrefix net.addr ∧ net.addr ∈ c.active then
    c.hostRoute net.addr
  else none

theorem announced_eq_some {net : IpNet} {route : Route} :
    c.announced net = some route ↔ ∃ t, net = hostPrefix t
      ∧ t ∈ c.active ∧ c.hostRoute t = some route := by
  unfold announced
  constructor
  · intro h
    split at h
    · next hin => exact ⟨net.addr, hin.1, hin.2, h⟩
    · cases h
  · rintro ⟨t, rfl, hmem, hroute⟩
    simp [hmem, hroute]

theorem announced_hostPrefix (t : IpAddr) :
    c.announced (hostPrefix t)
      = if t ∈ c.active then c.hostRoute t else none := by
  simp [announced]

/-- The routes follow the active set at one target. -/
theorem announced_update (hconfig : c'.config = c.config)
    (hmem : ∀ a, a ≠ t → (a ∈ c'.active ↔ a ∈ c.active)) :
    c'.announced = Function.update c.announced (hostPrefix t)
      (if t ∈ c'.active then c.hostRoute t else none) := by
  have hroute : ∀ a, c'.hostRoute a = c.hostRoute a := fun a => by
    unfold hostRoute
    rw [hconfig]
  funext net
  rw [Function.update_apply]
  split
  · next hnet => rw [hnet, announced_hostPrefix, hroute]
  · next hnet =>
    unfold announced
    rw [hroute]
    by_cases hhost : net = hostPrefix net.addr
    · have hne : net.addr ≠ t := fun h => hnet (h ▸ hhost)
      simp only [hmem net.addr hne]
    · rw [if_neg fun h => hhost h.1, if_neg fun h => hhost h.1]

/-- The routes stay when the active targets do. -/
theorem announced_same (hconfig : c'.config = c.config)
    (hmem : ∀ a, a ∈ c'.active ↔ a ∈ c.active) :
    c'.announced = c.announced := by
  funext net
  unfold announced hostRoute
  simp only [hconfig, hmem]

end RtbhController

-- ============================================================ one operation

/-- Reading `acts` after a log that adds up to `c` adds up to `c'`, and
what they announce was not there. -/
def Posts (c : RtbhController) (acts : List RtbhAction)
    (c' : RtbhController) : Prop :=
  ∀ l : Ledger IpNet Route, l.held = c.announced →
    (run Ledger.post l (acts.map RtbhAction.posting)).held = c'.announced
      ∧ ∀ net ∈ acts.filterMap RtbhAction.announced,
        (run Ledger.post l (acts.map RtbhAction.posting)).prior net = none

section Posts

variable {c c' : RtbhController} {t : IpAddr}

theorem Posts.silent (h : c'.announced = c.announced) : Posts c [] c' :=
  fun _ hl => ⟨hl.trans h.symm, fun _ hn => absurd hn List.not_mem_nil⟩

theorem Posts.withdraw (hconfig : c'.config = c.config)
    (hactive : c'.active = c.active.erase t) :
    Posts c [.withdraw (hostPrefix t)] c' := by
  intro l hl
  refine ⟨?_, fun _ hn => absurd hn List.not_mem_nil⟩
  rw [RtbhController.announced_update (t := t) hconfig, if_neg, ← hl]
  · rfl
  · simp [hactive]
  · intro a ha
    simp [hactive, ha]

theorem Posts.inserts {at_ : Nat} {o : BlackholeOrigin}
    {r : List RtbhAction × RtbhController}
    (hi : RtbhController.Inserts t at_ o c r) : Posts c r.1 r.2 := by
  cases hi with
  | ignored habsent hacts hactive hconfig =>
      rw [hacts]
      exact .silent (RtbhController.announced_same hconfig
        fun a => by rw [hactive])
  | reasserted e hpresent hacts hactive hconfig =>
      rw [hacts]
      exact .silent (RtbhController.announced_same hconfig fun a => by
        rw [hactive, Dict.mem_modify])
  | announced route habsent hroute hfair hroom hacts hactive hconfig =>
      rw [hacts]
      intro l hl
      have hnet := RtbhController.hostRoute_net hroute
      have hheld : r.2.announced = Function.update c.announced route.net
          (some route) := by
        rw [RtbhController.announced_update (t := t) hconfig, if_pos,
          hnet, hroute]
        · simp [hactive]
        · intro a ha
          simp [hactive, ha]
      refine ⟨?_, fun net hn => ?_⟩
      · rw [hheld, ← hl]
        rfl
      · rw [List.mem_singleton.mp hn]
        show Function.update l.prior route.net (l.held route.net) route.net
          = none
        rw [Function.update_self, hl, hnet,
          RtbhController.announced_hostPrefix,
          if_neg (AList.lookup_eq_none.mp habsent)]

theorem Posts.tick
    (ord : IterOrder (Sigma fun _ : IpAddr => ActiveEntry)) (now : Nat) :
    Posts c (c.tick ord now).1 (c.tick ord now).2 := by
  intro l hl
  have hps : (c.tick ord now).1.map RtbhAction.posting
      = ((c.expired ord now).map hostPrefix).map .withdraw := by
    rw [RtbhController.tick_actions, List.map_map, List.map_map]
    rfl
  refine ⟨?_, fun net hn => ?_⟩
  · rw [hps]
    funext net
    rw [Ledger.held_withdrawals, hl]
    unfold RtbhController.announced
    have hkept : net.addr ∈ (c.tick ord now).2.active
        ↔ net.addr ∉ c.expired ord now ∧ net.addr ∈ c.active :=
      Dict.mem_eraseAll net.addr _ c.active
    by_cases hhost : net = hostPrefix net.addr
    · have hmem : net ∈ (c.expired ord now).map hostPrefix
          ↔ net.addr ∈ c.expired ord now := by
        rw [hhost]
        simp
      by_cases hgone : net.addr ∈ c.expired ord now
      · simp [hmem, hkept, hgone]
      · simp only [hmem, hkept, hgone, not_false_eq_true, true_and,
          if_false]
        rfl
    · simp [hhost]
  · rw [RtbhController.tick_actions] at hn
    obtain ⟨a, ha, hnet⟩ := List.mem_filterMap.mp hn
    obtain ⟨x, -, rfl⟩ := List.mem_map.mp ha
    cases hnet

/-- Every operation, a rollback apart. -/
theorem Posts.apply (hc : c.Lawful) {m : Operation}
    (hm : ∀ t, m ≠ .rollback t) :
    Posts c (m.apply c).1 (m.apply c).2 := by
  cases m with
  | onEvent ev now =>
      cases ev with
      | opened d =>
          exact .inserts
            (RtbhController.insertBlackhole_inserts hc d.target now .auto)
      | updated d =>
          exact .silent (RtbhController.announced_same rfl fun a =>
            Dict.mem_modify d.target a _ c.active)
      | cleared t atMs =>
          show Posts c (c.requestClear t now).1 (c.requestClear t now).2
          unfold RtbhController.requestClear
          split
          · exact .silent rfl
          · next e he =>
            have hmem : t ∈ c.active := by
              rw [← AList.lookup_isSome, he]
              rfl
            split
            · exact .silent rfl
            · split
              · exact .withdraw rfl rfl
              · refine .silent (RtbhController.announced_same rfl fun a => ?_)
                rw [AList.mem_insert]
                exact or_iff_right_of_imp fun ha => ha ▸ hmem
  | manualAdd t now =>
      show Posts c (c.manualAdd t now).1 (c.manualAdd t now).2
      unfold RtbhController.manualAdd
      split
      · exact .silent (RtbhController.announced_same rfl fun a =>
          Dict.mem_modify t a _ c.active)
      · exact .inserts
          (RtbhController.insertBlackhole_inserts hc t now .manual)
  | manualRemove t =>
      show Posts c (c.manualRemove t).1 (c.manualRemove t).2
      unfold RtbhController.manualRemove
      split
      · exact .withdraw rfl rfl
      · exact .silent rfl
  | tick ord now => exact .tick ord now
  | resume t at_ o =>
      exact .inserts (RtbhController.insertBlackhole_inserts hc t at_ o)
  | rollback t => exact absurd rfl (hm t)

end Posts

-- ==================================================================== runs

namespace Staged

variable {config : RtbhConfig} {s : Staged}

/-- What a reader of the trace holds. -/
def ledger (s : Staged) : Ledger IpNet Route :=
  Ledger.read (s.trace.flatMap postings)

/-- The trace adds up to the active set, and nothing stood where the last
operation announced. -/
structure AddsUp (s : Staged) : Prop where
  held : s.ledger.held = s.ctrl.announced
  fresh : ∀ net ∈ s.fresh, s.ledger.prior net = none

theorem addsUp_start (config : RtbhConfig) : (start config).AddsUp where
  held := by
    funext net
    show none = (RtbhController.new config).announced net
    exact (if_neg fun h => absurd h.2 (AList.notMem_empty _)).symm
  fresh := fun _ h => absurd h List.not_mem_nil

theorem AddsUp.rollback (h : s.AddsUp) (t : IpAddr) :
    (s.move (.rollback t)).AddsUp := by
  unfold move
  split
  · next hok =>
    have hfresh : hostPrefix t ∈ s.fresh := of_decide_eq_true hok
    have hl : Ledger.read ((s.trace
        ++ [(Operation.rollback t, [])]).flatMap postings)
          = s.ledger.post (.undo (hostPrefix t)) := by
      rw [List.flatMap_append, Ledger.read_append]
      rfl
    refine ⟨?_, fun net hnet => ?_⟩
    · refine (congrArg Ledger.held hl).trans ?_
      have hgone : t ∉ (s.ctrl.rollback t).active :=
        fun hin => (AList.mem_erase.mp hin).1 rfl
      have hroll : (s.ctrl.rollback t).announced = _ :=
        RtbhController.announced_update (t := t) (c := s.ctrl) rfl
          fun a ha => AList.mem_erase.trans (and_iff_right ha)
      show Function.update s.ledger.held (hostPrefix t) _
        = (s.ctrl.rollback t).announced
      rw [hroll, if_neg hgone, h.fresh _ hfresh, h.held]
    · refine (congrFun (congrArg Ledger.prior hl) net).trans ?_
      exact h.fresh net (List.mem_filter.mp hnet).1
  · exact h

theorem AddsUp.move (h : s.AddsUp) (hc : s.ctrl.Lawful) (m : Operation) :
    (s.move m).AddsUp := by
  by_cases hm : ∃ t, m = .rollback t
  · obtain ⟨t, rfl⟩ := hm
    exact h.rollback t
  · have hm : ∀ t, m ≠ .rollback t := fun t ht => hm ⟨t, ht⟩
    have hposts := Posts.apply hc hm s.ledger h.held
    have hok : m.allowed s.fresh = true := by
      cases m with
      | rollback t => exact absurd rfl (hm t)
      | _ => rfl
    have hl : Ledger.read ((s.trace ++ [(m, (m.apply s.ctrl).1)]).flatMap
        postings) = run Ledger.post s.ledger
          ((m.apply s.ctrl).1.map RtbhAction.posting) := by
      rw [List.flatMap_append, Ledger.read_append]
      cases m with
      | rollback t => exact absurd rfl (hm t)
      | _ => simp only [List.flatMap_cons, List.flatMap_nil,
          List.append_nil, postings]; rfl
    have hfresh : m.freshAfter (m.apply s.ctrl).1 s.fresh
        = (m.apply s.ctrl).1.filterMap RtbhAction.announced := by
      cases m with
      | rollback t => exact absurd rfl (hm t)
      | _ => rfl
    unfold Staged.move
    rw [if_pos hok]
    refine ⟨(congrArg Ledger.held hl).trans hposts.1, fun net hnet => ?_⟩
    refine (congrFun (congrArg Ledger.prior hl) net).trans ?_
    exact hposts.2 net (hfresh ▸ hnet)

theorem addsUp_run (config : RtbhConfig) (ms : List Operation) :
    (run move (start config) ms).AddsUp :=
  (run_invariant (P := fun s : Staged => s.Follows config ∧ s.AddsUp)
    (fun _ m h => ⟨h.1.move m, h.2.move h.1.lawful m⟩) ms
    ⟨follows_start config, addsUp_start config⟩).2

end Staged

end Blackwall.Rtbh
