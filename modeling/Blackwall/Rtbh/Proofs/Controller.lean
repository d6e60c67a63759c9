/-
What each controller transition does, said once.

Every wire and mirror argument reads the controller through `origins`
(is this target active, and as what), so each transition gets one
inversion lemma: the actions it can return, with the guard that held, and
the change of `origins` that came with them. The managers' proofs never
unfold a transition.
-/
import Mathlib.Logic.Function.Basic
import Blackwall.Rtbh.Controller

namespace Blackwall.Rtbh.RtbhController

open Base
open Blackwall.Flow (DetectionEvent)

/-- The origin of an active target; `none` when it is not active. -/
def origins (c : RtbhController) (t : IpAddr) : Option BlackholeOrigin :=
  (c.active.lookup t).map (·.origin)

@[simp] theorem origins_new (config : RtbhConfig) (t : IpAddr) :
    (new config).origins t = none := rfl

theorem origins_isSome {c : RtbhController} {t : IpAddr} :
    (c.origins t).isSome ↔ t ∈ c.active := by
  rw [origins, Option.isSome_map, AList.lookup_isSome]

theorem origins_eq_none {c : RtbhController} {t : IpAddr} :
    c.origins t = none ↔ t ∉ c.active := by
  rw [origins, Option.map_eq_none_iff, AList.lookup_eq_none]

/-- A target has a route exactly when its family has a next-hop. -/
theorem hostRoute_isSome (c : RtbhController) (t : IpAddr) :
    (c.hostRoute t).isSome = c.hasNextHop t := by
  cases t with
  | v4 a => rw [hostRoute, Option.isSome_map, Option.isSome_map]; rfl
  | v6 a => rw [hostRoute, Option.isSome_map, Option.isSome_map]; rfl

-- ============================================== rewrites of one entry

/-- Rewriting an entry without touching its origin moves no origin. -/
theorem origins_modify_keep {c : RtbhController} {t : IpAddr}
    {f : ActiveEntry → ActiveEntry} (hf : ∀ e, (f e).origin = e.origin) :
    origins { c with active := Dict.modify t f c.active } = c.origins := by
  funext t'
  simp only [origins, Dict.lookup_modify]
  split
  case isTrue h =>
      subst h
      cases c.active.lookup t' with
      | none => rfl
      | some e => simp [hf]
  case isFalse => rfl

theorem origins_insert (c : RtbhController) (t : IpAddr)
    (e : ActiveEntry) :
    origins { c with active := c.active.insert t e }
      = Function.update c.origins t (some e.origin) := by
  funext t'
  simp only [origins, Dict.lookup_insert_if, Function.update_apply]
  split <;> rfl

theorem origins_erase (c : RtbhController) (t : IpAddr) :
    origins { c with active := c.active.erase t }
      = Function.update c.origins t none := by
  funext t'
  simp only [origins, Dict.lookup_erase_if, Function.update_apply]
  split <;> rfl

@[simp] theorem origins_rollback (c : RtbhController) (t : IpAddr) :
    (c.rollback t).origins = Function.update c.origins t none :=
  origins_erase c t

-- ============================================================ inversions

theorem hostRoute_net {c : RtbhController} {t : IpAddr} {r : Bgp.Route}
    (h : c.hostRoute t = some r) : r.net = hostPrefix t := by
  simp only [hostRoute, Option.map_eq_some_iff] at h
  obtain ⟨nh, -, rfl⟩ := h
  rfl

/-- `insert_blackhole` either returns nothing and moves no origin, or
announces the host route of a target that was not active. -/
theorem insertBlackhole_cases (c : RtbhController) (t : IpAddr)
    (at_ : Nat) (o : BlackholeOrigin) :
    ((c.insertBlackhole t at_ o).1 = []
        ∧ (c.insertBlackhole t at_ o).2.origins = c.origins)
      ∨ ∃ route, (c.insertBlackhole t at_ o).1 = [.announce route]
        ∧ route.net = hostPrefix t ∧ c.origins t = none
        ∧ (c.insertBlackhole t at_ o).2.origins
          = Function.update c.origins t (some o) := by
  unfold insertBlackhole
  split
  · exact Or.inl ⟨rfl, rfl⟩
  split
  · exact Or.inl ⟨rfl, rfl⟩
  split
  · exact Or.inl ⟨rfl, origins_modify_keep fun _ => rfl⟩
  split
  · exact Or.inl ⟨rfl, rfl⟩
  next hact _ =>
    split
    · exact Or.inl ⟨rfl, rfl⟩
    next route hroute =>
      exact Or.inr ⟨route, rfl, hostRoute_net hroute,
        origins_eq_none.mpr hact, origins_insert c t _⟩

/-- `request_clear` either returns nothing and moves no origin, or
withdraws an active target. -/
theorem requestClear_cases (c : RtbhController) (t : IpAddr) (now : Nat) :
    ((c.requestClear t now).1 = []
        ∧ (c.requestClear t now).2.origins = c.origins)
      ∨ ((c.requestClear t now).1 = [.withdraw (hostPrefix t)]
        ∧ c.origins t ≠ none
        ∧ (c.requestClear t now).2.origins
          = Function.update c.origins t none) := by
  unfold requestClear
  split
  · exact Or.inl ⟨rfl, rfl⟩
  next e he =>
    have hsome : c.origins t = some e.origin := by rw [origins, he]; rfl
    split
    · exact Or.inl ⟨rfl, rfl⟩
    split
    · refine Or.inr ⟨rfl, ?_, origins_erase c t⟩
      rw [hsome]
      exact Option.some_ne_none _
    · refine Or.inl ⟨rfl, ?_⟩
      rw [origins_insert, ← hsome]
      exact Function.update_eq_self t c.origins

/-- `on_event`: nothing, a fresh auto announce of the event's target, or
a withdrawal of it. -/
theorem onEvent_cases (c : RtbhController) (ev : DetectionEvent)
    (now : Nat) :
    ((c.onEvent ev now).1 = [] ∧ (c.onEvent ev now).2.origins = c.origins)
      ∨ (∃ route, (c.onEvent ev now).1 = [.announce route]
        ∧ route.net = hostPrefix ev.target ∧ c.origins ev.target = none
        ∧ (c.onEvent ev now).2.origins
          = Function.update c.origins ev.target (some .auto))
      ∨ ((c.onEvent ev now).1 = [.withdraw (hostPrefix ev.target)]
        ∧ c.origins ev.target ≠ none
        ∧ (c.onEvent ev now).2.origins
          = Function.update c.origins ev.target none) := by
  cases ev with
  | opened d =>
      rcases insertBlackhole_cases c d.target now .auto with h | h
      · exact Or.inl h
      · exact Or.inr (Or.inl h)
  | updated d => exact Or.inl ⟨rfl, origins_modify_keep fun _ => rfl⟩
  | cleared t atMs =>
      rcases requestClear_cases c t now with h | h
      · exact Or.inl h
      · exact Or.inr (Or.inr h)

/-- `manual_add`: an upgrade of an active target, nothing, or a fresh
manual announce. -/
theorem manualAdd_cases (c : RtbhController) (t : IpAddr) (now : Nat) :
    (c.origins t ≠ none ∧ (c.manualAdd t now).1 = []
        ∧ (c.manualAdd t now).2.origins
          = Function.update c.origins t (some .manual))
      ∨ (c.origins t = none ∧ (c.manualAdd t now).1 = []
        ∧ (c.manualAdd t now).2.origins = c.origins)
      ∨ ∃ route, (c.manualAdd t now).1 = [.announce route]
        ∧ route.net = hostPrefix t ∧ c.origins t = none
        ∧ (c.manualAdd t now).2.origins
          = Function.update c.origins t (some .manual) := by
  unfold manualAdd
  split
  case isTrue h =>
      have hsome := origins_isSome.mpr h
      refine Or.inl ⟨?_, rfl, ?_⟩
      · intro hn
        rw [hn] at hsome
        cases hsome
      · funext t'
        simp only [origins, Dict.lookup_modify, Function.update_apply]
        split
        · obtain ⟨e, he⟩ := Option.isSome_iff_exists.mp
            (AList.lookup_isSome.mpr h)
          rw [he]
          rfl
        · rfl
  case isFalse h =>
      have hnone := origins_eq_none.mpr h
      rcases insertBlackhole_cases c t now .manual with h | h
      · exact Or.inr (Or.inl ⟨hnone, h⟩)
      · exact Or.inr (Or.inr h)

/-- `manual_remove`: a withdrawal of an active target, or nothing. -/
theorem manualRemove_cases (c : RtbhController) (t : IpAddr) :
    (c.origins t = none ∧ (c.manualRemove t).1 = []
        ∧ (c.manualRemove t).2.origins = c.origins)
      ∨ (c.origins t ≠ none
        ∧ (c.manualRemove t).1 = [.withdraw (hostPrefix t)]
        ∧ (c.manualRemove t).2.origins
          = Function.update c.origins t none) := by
  unfold manualRemove
  split
  case isTrue h =>
      refine Or.inr ⟨?_, rfl, origins_erase c t⟩
      have hsome := origins_isSome.mpr h
      intro hn
      rw [hn] at hsome
      cases hsome
  case isFalse h => exact Or.inl ⟨origins_eq_none.mpr h, rfl, rfl⟩

-- ================================================================= ticks

/-- A tick withdraws exactly the expired targets. -/
theorem tick_actions (c : RtbhController)
    (ord : IterOrder (Sigma fun _ : IpAddr => ActiveEntry)) (now : Nat) :
    (c.tick ord now).1
      = (c.expired ord now).map fun t => .withdraw (hostPrefix t) := rfl

theorem tick_origins (c : RtbhController)
    (ord : IterOrder (Sigma fun _ : IpAddr => ActiveEntry)) (now : Nat)
    (t : IpAddr) :
    (c.tick ord now).2.origins t
      = if t ∈ c.expired ord now then none else c.origins t := by
  simp only [tick, origins, Dict.lookup_eraseAll]
  split <;> rfl

/-- Expiry is a property of the stored entry. -/
theorem mem_expired {c : RtbhController}
    {ord : IterOrder (Sigma fun _ : IpAddr => ActiveEntry)} {now : Nat}
    {t : IpAddr} :
    t ∈ c.expired ord now
      ↔ ∃ e, c.active.lookup t = some e ∧ due c.config now e = true := by
  simp only [expired, List.mem_map, List.mem_filter, IterOrder.mem_iff]
  constructor
  · rintro ⟨⟨t', e⟩, ⟨hmem, hdue⟩, rfl⟩
    exact ⟨e, Dict.mem_entries_iff.mp hmem, hdue⟩
  · rintro ⟨e, hlk, hdue⟩
    exact ⟨⟨t, e⟩, ⟨Dict.mem_entries_iff.mpr hlk, hdue⟩, rfl⟩

theorem expired_active {c : RtbhController}
    {ord : IterOrder (Sigma fun _ : IpAddr => ActiveEntry)} {now : Nat}
    {t : IpAddr} (h : t ∈ c.expired ord now) : c.origins t ≠ none := by
  obtain ⟨e, he, -⟩ := mem_expired.mp h
  rw [origins, he]
  exact Option.some_ne_none _

end Blackwall.Rtbh.RtbhController
