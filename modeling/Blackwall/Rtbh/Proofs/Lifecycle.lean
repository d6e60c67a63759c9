/-
When the RTBH controller withdraws a target.

The controller keeps three scalars of an active target. They stand for
its history (`Life.Fits`): the operations since its announcement decide
what they are, and the withdrawals are read off them. A `resume` of a
target that is active is a re-assertion like an `Opened`; nothing else
besides the events of the target and an operator's upgrade touches them.
-/
import Mathlib.Data.Option.Defs
import Blackwall.Rtbh.Moves
import Blackwall.Rtbh.Proofs.Controller

namespace Blackwall.Rtbh

open Base
open Blackwall.Flow (DetectionEvent)

namespace RtbhController

variable {c : RtbhController} {t : IpAddr}

-- ========================================================== what is active

/-- Every active target passes the checks of `insert_blackhole`, and they
keep to the cap. -/
structure Lawful (c : RtbhController) : Prop where
  admitted : ∀ t, (c.active.lookup t).isSome →
    c.isProtected t = false ∧ c.isEligible t = true
      ∧ (c.hostRoute t).isSome
  capped : c.active.entries.length ≤ c.config.maxBlackholes

theorem Lawful.new (config : RtbhConfig) : (new config).Lawful :=
  ⟨fun _ h => absurd h Bool.false_ne_true, Nat.zero_le _⟩

/-- What `insert_blackhole` comes to: nothing for a target that is not
active, a re-assertion of one that is, or an announcement. -/
inductive Inserts (t : IpAddr) (at_ : Nat) (o : BlackholeOrigin)
    (c : RtbhController) (r : List RtbhAction × RtbhController) : Prop
  | ignored (absent : c.active.lookup t = none) (acts : r.1 = [])
      (active : r.2.active = c.active) (config : r.2.config = c.config)
  | reasserted (e : ActiveEntry) (present : c.active.lookup t = some e)
      (acts : r.1 = [])
      (active : r.2.active = Dict.modify t (fun e =>
        { e with clearRequestedAt := none, lastActivity := at_ }) c.active)
      (config : r.2.config = c.config)
  | announced (route : Bgp.Route) (absent : c.active.lookup t = none)
      (host : c.hostRoute t = some route)
      (fair : c.isProtected t = false ∧ c.isEligible t = true)
      (room : c.active.entries.length < c.config.maxBlackholes)
      (acts : r.1 = [.announce route])
      (active : r.2.active = c.active.insert t ⟨at_, at_, o, none⟩)
      (config : r.2.config = c.config)

theorem insertBlackhole_inserts (h : c.Lawful) (t : IpAddr) (at_ : Nat)
    (o : BlackholeOrigin) :
    Inserts t at_ o c (c.insertBlackhole t at_ o) := by
  have habsent : (¬c.isProtected t = false ∨ ¬c.isEligible t = true) →
      c.active.lookup t = none := by
    intro hbad
    cases hl : c.active.lookup t with
    | none => rfl
    | some e =>
        obtain ⟨hprot, helig, -⟩ := h.admitted t (by rw [hl]; rfl)
        exact hbad.elim (absurd hprot) (absurd helig)
  unfold insertBlackhole
  split
  · next hprot =>
    exact .ignored (habsent (.inl (by simp [hprot]))) rfl rfl rfl
  · next hprot =>
    split
    · next helig =>
      exact .ignored (habsent (.inr (by simpa using helig))) rfl rfl rfl
    · next helig =>
      split
      · next hmem =>
        obtain ⟨e, he⟩ := Option.isSome_iff_exists.mp
          (AList.lookup_isSome.mpr hmem)
        exact .reasserted e he rfl rfl rfl
      · next hmem =>
        have hnone := AList.lookup_eq_none.mpr hmem
        split
        · exact .ignored hnone rfl rfl rfl
        · next hroom =>
          split
          · exact .ignored hnone rfl rfl rfl
          · next route hroute =>
            exact .announced route hnone hroute
              ⟨by simpa using hprot, by simpa using helig⟩
              (Nat.lt_of_not_le hroom) rfl rfl rfl

/-- Fewer targets, or the same with other scalars. -/
theorem Lawful.shrink {c' : RtbhController} (h : c.Lawful)
    (hconfig : c'.config = c.config)
    (hsub : ∀ t, (c'.active.lookup t).isSome →
      (c.active.lookup t).isSome)
    (hlen : c'.active.entries.length ≤ c.active.entries.length) :
    c'.Lawful := by
  refine ⟨fun t ht => ?_, ?_⟩
  · have hadm := h.admitted t (hsub t ht)
    simpa only [isProtected, isEligible, hostRoute, hconfig] using hadm
  · rw [hconfig]
    exact Nat.le_trans hlen h.capped

theorem Lawful.modify {c' : RtbhController} (h : c.Lawful)
    {f : ActiveEntry → ActiveEntry} (hconfig : c'.config = c.config)
    (hactive : c'.active = Dict.modify t f c.active) : c'.Lawful := by
  refine h.shrink hconfig (fun x hx => ?_) ?_
  · rw [hactive, Dict.lookup_modify] at hx
    split at hx
    · next hxt =>
      rw [hxt]
      simpa using hx
    · exact hx
  · rw [hactive, Dict.length_modify]

theorem Lawful.erase {c' : RtbhController} (h : c.Lawful)
    (hconfig : c'.config = c.config)
    (hactive : c'.active = c.active.erase t) : c'.Lawful := by
  refine h.shrink hconfig (fun x hx => ?_) ?_
  · rw [hactive, Dict.lookup_erase_if] at hx
    split at hx
    · cases hx
    · exact hx
  · rw [hactive]
    exact Dict.length_erase_le t c.active

theorem Lawful.inserts {at_ : Nat} {o : BlackholeOrigin}
    {r : List RtbhAction × RtbhController} (h : c.Lawful)
    (hi : Inserts t at_ o c r) : r.2.Lawful ∧ r.2.config = c.config := by
  cases hi with
  | ignored habsent hacts hactive hconfig =>
      refine ⟨h.shrink hconfig (fun x hx => ?_) ?_, hconfig⟩
      · rw [hactive] at hx
        exact hx
      · rw [hactive]
  | reasserted e hpresent hacts hactive hconfig =>
      exact ⟨h.modify hconfig hactive, hconfig⟩
  | announced route habsent hroute hfair hroom hacts hactive hconfig =>
      refine ⟨⟨fun x hx => ?_, ?_⟩, hconfig⟩
      · have hadm : c.isProtected x = false ∧ c.isEligible x = true
            ∧ (c.hostRoute x).isSome := by
          rw [hactive, Dict.lookup_insert_if] at hx
          split at hx
          · next hxt =>
            rw [hxt, hroute]
            exact ⟨hfair.1, hfair.2, rfl⟩
          · exact h.admitted x hx
        simpa only [isProtected, isEligible, hostRoute, hconfig] using hadm
      · rw [hactive, hconfig, Dict.length_insert, habsent]
        exact hroom

/-- Every move keeps the active set lawful. -/
theorem Lawful.move (h : c.Lawful) (m : Operation) :
    (m.apply c).2.Lawful ∧ (m.apply c).2.config = c.config := by
  cases m with
  | onEvent ev now =>
      cases ev with
      | opened d =>
          exact h.inserts (insertBlackhole_inserts h d.target now .auto)
      | updated d => exact ⟨h.modify rfl rfl, rfl⟩
      | cleared t atMs =>
          show (c.requestClear t now).2.Lawful
            ∧ (c.requestClear t now).2.config = c.config
          unfold requestClear
          split
          · exact ⟨h, rfl⟩
          · next e he =>
            split
            · exact ⟨h, rfl⟩
            · split
              · exact ⟨h.erase rfl rfl, rfl⟩
              · refine ⟨h.shrink rfl (fun x hx => ?_) ?_, rfl⟩
                · change ((c.active.insert t _).lookup x).isSome = true at hx
                  rw [Dict.lookup_insert_if] at hx
                  split at hx
                  · next hxt =>
                    rw [hxt, he]
                    rfl
                  · exact hx
                · show (c.active.insert t _).entries.length ≤ _
                  rw [Dict.length_insert, he]
                  exact Nat.le_refl _
  | manualAdd t now =>
      show (c.manualAdd t now).2.Lawful
        ∧ (c.manualAdd t now).2.config = c.config
      unfold manualAdd
      split
      · exact ⟨h.modify rfl rfl, rfl⟩
      · exact h.inserts (insertBlackhole_inserts h t now .manual)
  | manualRemove t =>
      show (c.manualRemove t).2.Lawful
        ∧ (c.manualRemove t).2.config = c.config
      unfold manualRemove
      split
      · exact ⟨h.erase rfl rfl, rfl⟩
      · exact ⟨h, rfl⟩
  | tick ord now =>
      refine ⟨h.shrink rfl (fun x hx => ?_) ?_, rfl⟩
      · change ((Dict.eraseAll _ c.active).lookup x).isSome = true at hx
        rw [Dict.lookup_eraseAll] at hx
        split at hx
        · cases hx
        · exact hx
      · exact Dict.length_eraseAll_le _ c.active
  | resume t at_ o =>
      exact h.inserts (insertBlackhole_inserts h t at_ o)
  | rollback t => exact ⟨h.erase rfl rfl, rfl⟩

end RtbhController

-- ================================================================== lives

namespace Life

variable {target t : IpAddr} {life : Option Life} {m : Operation}

theorem step_silent :
    step target life (m, []) = life.bind (note target m) := rfl

theorem step_announce {r : Bgp.Route} (hnet : r.net = hostPrefix t) :
    step target life (m, [.announce r])
      = if t = target then m.birth else life.bind (note target m) := by
  unfold step
  by_cases ht : t = target
  · simp [RtbhAction.announced, hnet, ht]
  · simp [RtbhAction.announced, hnet, ht]

theorem step_withdraw :
    step target life (m, [.withdraw (hostPrefix t)])
      = if t = target then none else life.bind (note target m) := by
  unfold step
  by_cases ht : t = target
  · simp [RtbhAction.announced, ht]
  · simp [RtbhAction.announced, ht, Ne.symm ht]

theorem step_tick {gone : List IpAddr}
    {ord : IterOrder (Sigma fun _ : IpAddr => ActiveEntry)} {now : Nat} :
    step target life
        (.tick ord now, gone.map fun t => .withdraw (hostPrefix t))
      = if target ∈ gone then none else life := by
  unfold step
  have hann : ((gone.map fun t => RtbhAction.withdraw (hostPrefix t)).any
      fun a => a.announced = some (hostPrefix target)) = false := by
    simp [RtbhAction.announced]
  have hmem : RtbhAction.withdraw (hostPrefix target)
      ∈ gone.map (fun t => .withdraw (hostPrefix t)) ↔ target ∈ gone := by
    simp
  simp only [hann, hmem, Bool.false_eq_true, if_false]
  split
  · rfl
  · cases life <;> rfl

/-- The entry of a target is what its history says. -/
structure Fits (l : Life) (e : ActiveEntry) : Prop where
  announcedAt : e.announcedAt = l.announcedAt
  origin : e.origin = l.origin
  asserted : e.lastActivity = l.asserted
  cleared : e.origin = .auto → e.clearRequestedAt.isSome = l.cleared
  manual : e.origin = .manual → e.clearRequestedAt = none

end Life

/-- So it is for `target`, active or not. -/
def Tracks (target : IpAddr) (life : Option Life) (c : RtbhController) :
    Prop :=
  Option.Rel Life.Fits life (c.active.lookup target)

section Tracks

variable {target t : IpAddr} {life : Option Life} {m : Operation}
  {c c' : RtbhController}

theorem Tracks.congr (h : Tracks target life c)
    (hl : c'.active.lookup target = c.active.lookup target) :
    Tracks target life c' := by
  unfold Tracks
  rw [hl]
  exact h

theorem Tracks.cases (h : Tracks target life c) :
    (life = none ∧ c.active.lookup target = none)
      ∨ ∃ l e, life = some l ∧ c.active.lookup target = some e
        ∧ l.Fits e := by
  unfold Tracks at h
  cases hl : c.active.lookup target with
  | none =>
      rw [hl] at h
      cases h
      exact .inl ⟨rfl, rfl⟩
  | some e =>
      rw [hl] at h
      cases h with
      | some hfit => exact .inr ⟨_, e, rfl, rfl, hfit⟩

theorem Tracks.other (h : Tracks target life c)
    (hnote : ∀ l, Life.note target m l = some l)
    (hl : c'.active.lookup target = c.active.lookup target) :
    Tracks target (life.bind (Life.note target m)) c' := by
  have hbind : life.bind (Life.note target m) = life := by
    cases life with
    | none => rfl
    | some l => exact hnote l
  rw [hbind]
  exact h.congr hl

/-- A move that rewrites the entry of `target` if there is one. -/
theorem Tracks.rewrite (h : Tracks target life c) {f : Life → Life}
    {g : ActiveEntry → ActiveEntry}
    (hnote : ∀ l, Life.note target m l = some (f l))
    (hl : c'.active.lookup target = (c.active.lookup target).map g)
    (hfit : ∀ l e, c.active.lookup target = some e → l.Fits e →
      (f l).Fits (g e)) :
    Tracks target (life.bind (Life.note target m)) c' := by
  unfold Tracks
  rw [hl]
  rcases h.cases with ⟨hlife, he⟩ | ⟨l, e, hlife, he, hle⟩
  · rw [hlife, he]
    exact .none
  · rw [hlife, he]
    show Option.Rel _ (Life.note target m l) (some (g e))
    rw [hnote]
    exact .some (hfit l e he hle)

theorem Life.Fits.assert {l : Life} {e : ActiveEntry} (h : l.Fits e)
    (at_ : Nat) :
    Fits { l with asserted := at_, cleared := false }
      { e with clearRequestedAt := none, lastActivity := at_ } :=
  ⟨h.announcedAt, h.origin, rfl, fun _ => rfl, fun _ => rfl⟩

theorem Tracks.inserts (h : Tracks target life c) {at_ : Nat}
    {o : BlackholeOrigin} {r : List RtbhAction × RtbhController}
    (hi : RtbhController.Inserts t at_ o c r)
    (hbirth : m.birth = some ⟨at_, o, at_, false⟩)
    (hother : t ≠ target → ∀ l, Life.note target m l = some l)
    (hself : t = target → (c.active.lookup t).isSome →
      ∀ l, Life.note target m l
        = some { l with asserted := at_, cleared := false }) :
    Tracks target (Life.step target life (m, r.1)) r.2 := by
  cases hi with
  | ignored habsent hacts hactive hconfig =>
      rw [hacts, Life.step_silent]
      by_cases ht : t = target
      · rcases h.cases with ⟨hlife, he⟩ | ⟨l, e, -, he, -⟩
        · rw [hlife]
          unfold Tracks
          rw [hactive, he]
          exact .none
        · rw [ht, he] at habsent
          cases habsent
      · exact h.other (hother ht) (by rw [hactive])
  | reasserted e hpresent hacts hactive hconfig =>
      rw [hacts, Life.step_silent]
      by_cases ht : t = target
      · refine h.rewrite (hself ht (by rw [hpresent]; rfl)) ?_
          fun l e _ hle => hle.assert at_
        rw [hactive, Dict.lookup_modify, if_pos ht.symm, ht]
      · refine h.other (hother ht) ?_
        rw [hactive, Dict.lookup_modify, if_neg (Ne.symm ht)]
  | announced route habsent hroute hfair hroom hacts hactive hconfig =>
      rw [hacts, Life.step_announce (RtbhController.hostRoute_net hroute)]
      by_cases ht : t = target
      · rw [if_pos ht, hbirth]
        unfold Tracks
        rw [hactive, Dict.lookup_insert_if, if_pos ht.symm]
        exact .some ⟨rfl, rfl, rfl, fun _ => rfl, fun _ => rfl⟩
      · rw [if_neg ht]
        refine h.other (hother ht) ?_
        rw [hactive, Dict.lookup_insert_if, if_neg (Ne.symm ht)]

theorem Tracks.ended (hl : c'.active.lookup target = none) :
    Tracks target none c' := by
  unfold Tracks
  rw [hl]
  exact .none

theorem Tracks.requestClear (h : Tracks target life c) (t : IpAddr)
    (atMs now : Nat) :
    Tracks target
      (Life.step target life
        (.onEvent (.cleared t atMs) now, (c.requestClear t now).1))
      (c.requestClear t now).2 := by
  have hnote : t ≠ target → ∀ l,
      Life.note target (.onEvent (.cleared t atMs) now) l = some l :=
    fun ht l => if_neg ht
  have hself : t = target → ∀ l,
      Life.note target (.onEvent (.cleared t atMs) now) l
        = some { l with cleared := true } :=
    fun ht l => if_pos ht
  unfold RtbhController.requestClear
  split
  · next hnone =>
    rw [Life.step_silent]
    by_cases ht : t = target
    · rcases h.cases with ⟨hlife, he⟩ | ⟨l, e, -, he, -⟩
      · rw [hlife]
        exact Tracks.ended he
      · rw [ht, he] at hnone
        cases hnone
    · exact h.other (hnote ht) rfl
  · next e he =>
    split
    · next hman =>
      rw [Life.step_silent]
      by_cases ht : t = target
      · refine h.rewrite (hself ht) (congrFun Option.map_id _).symm ?_
        intro l e' he' hle
        rw [← ht, he] at he'
        cases he'
        -- an operator's blackhole does not remember the clear
        refine ⟨hle.announcedAt, hle.origin, hle.asserted, ?_, hle.manual⟩
        exact fun hauto => absurd (hman.symm.trans hauto) nofun
      · exact h.other (hnote ht) rfl
    · next hauto =>
      split
      · rw [Life.step_withdraw]
        by_cases ht : t = target
        · rw [if_pos ht]
          refine Tracks.ended ?_
          show (c.active.erase t).lookup target = none
          rw [Dict.lookup_erase_if, if_pos ht.symm]
        · rw [if_neg ht]
          refine h.other (hnote ht) ?_
          show (c.active.erase t).lookup target = _
          rw [Dict.lookup_erase_if, if_neg (Ne.symm ht)]
      · rw [Life.step_silent]
        by_cases ht : t = target
        · refine h.rewrite (hself ht) (g := fun e =>
            { e with clearRequestedAt := some now }) ?_ ?_
          · show (c.active.insert t _).lookup target = _
            rw [Dict.lookup_insert_if, if_pos ht.symm, ← ht, he]
            rfl
          · intro l e' he' hle
            rw [← ht, he] at he'
            cases he'
            exact ⟨hle.announcedAt, hle.origin, hle.asserted,
              fun _ => rfl, fun hman => absurd hman hauto⟩
        · refine h.other (hnote ht) ?_
          show (c.active.insert t _).lookup target = _
          rw [Dict.lookup_insert_if, if_neg (Ne.symm ht)]

theorem Tracks.updated (h : Tracks target life c) (d : Flow.Detection)
    (now : Nat) :
    Tracks target
      (Life.step target life
        (.onEvent (.updated d) now, (c.onEvent (.updated d) now).1))
      (c.onEvent (.updated d) now).2 := by
  show Tracks target (life.bind _) _
  by_cases ht : d.target = target
  · refine h.rewrite (fun l => if_pos ht) (g := fun e =>
      { e with clearRequestedAt := none, lastActivity := now }) ?_
      fun l e _ hle => hle.assert now
    show (Dict.modify d.target _ c.active).lookup target = _
    rw [Dict.lookup_modify, if_pos ht.symm, ht]
  · refine h.other (fun l => if_neg ht) ?_
    show (Dict.modify d.target _ c.active).lookup target = _
    rw [Dict.lookup_modify, if_neg (Ne.symm ht)]

theorem Tracks.manualAdd (h : Tracks target life c) (hc : c.Lawful)
    (t : IpAddr) (now : Nat) :
    Tracks target
      (Life.step target life (.manualAdd t now, (c.manualAdd t now).1))
      (c.manualAdd t now).2 := by
  unfold RtbhController.manualAdd
  split
  · rw [Life.step_silent]
    by_cases ht : t = target
    · refine h.rewrite (fun l => if_pos ht) (g := fun e =>
        { e with origin := .manual, clearRequestedAt := none }) ?_
        fun l e _ hle => ⟨hle.announcedAt, rfl, hle.asserted, nofun,
          fun _ => rfl⟩
      show (Dict.modify t _ c.active).lookup target = _
      rw [Dict.lookup_modify, if_pos ht.symm, ht]
    · refine h.other (fun l => if_neg ht) ?_
      show (Dict.modify t _ c.active).lookup target = _
      rw [Dict.lookup_modify, if_neg (Ne.symm ht)]
  · next hmem =>
    have hnone := AList.lookup_eq_none.mpr hmem
    refine h.inserts
      (RtbhController.insertBlackhole_inserts hc t now .manual) rfl
      (fun ht l => if_neg ht) fun _ hsome => ?_
    rw [hnone] at hsome
    cases hsome

/-- The entry is forgotten: by an operator, or by a rollback. -/
theorem Tracks.erased (h : Tracks target life c)
    {life' : Option Life} (hl : c'.active = c.active.erase t)
    (hlife : life' = if t = target then none else life) :
    Tracks target life' c' := by
  by_cases ht : t = target
  · rw [hlife, if_pos ht]
    refine Tracks.ended ?_
    rw [hl, Dict.lookup_erase_if, if_pos ht.symm]
  · rw [hlife, if_neg ht]
    refine h.congr ?_
    rw [hl, Dict.lookup_erase_if, if_neg (Ne.symm ht)]

theorem Life.bind_some (life : Option Life) : life.bind some = life := by
  cases life <;> rfl

/-- The scalars of every entry follow its history. -/
theorem Tracks.step (h : Tracks target life c) (hc : c.Lawful)
    (m : Operation) :
    Tracks target (Life.step target life (m, (m.apply c).1))
      (m.apply c).2 := by
  cases m with
  | onEvent ev now =>
      cases ev with
      | opened d =>
          exact h.inserts
            (RtbhController.insertBlackhole_inserts hc d.target now .auto)
            rfl (fun ht l => if_neg ht) fun ht _ l => if_pos ht
      | updated d => exact h.updated d now
      | cleared t atMs => exact h.requestClear t atMs now
  | manualAdd t now => exact h.manualAdd hc t now
  | manualRemove t =>
      show Tracks target (Life.step target life
        (.manualRemove t, (c.manualRemove t).1)) (c.manualRemove t).2
      unfold RtbhController.manualRemove
      split
      · exact h.erased rfl (by
          rw [Life.step_withdraw]
          exact congrArg _ (Life.bind_some life))
      · exact h.other (fun _ => rfl) rfl
  | tick ord now =>
      show Tracks target (Life.step target life (.tick ord now,
        (c.expired ord now).map fun t => .withdraw (hostPrefix t))) _
      rw [Life.step_tick]
      have hl : (c.tick ord now).2.active.lookup target
          = if target ∈ c.expired ord now then none
            else c.active.lookup target :=
        Dict.lookup_eraseAll target _ c.active
      split
      · next hgone =>
        rw [if_pos hgone] at hl
        exact Tracks.ended hl
      · next hkept =>
        rw [if_neg hkept] at hl
        exact h.congr hl
  | resume t at_ o =>
      exact h.inserts (RtbhController.insertBlackhole_inserts hc t at_ o)
        rfl (fun ht l => if_neg ht) fun ht _ l => if_pos ht
  | rollback t =>
      refine h.erased (t := t) rfl ?_
      show life.bind (Life.note target (.rollback t)) = _
      cases life with
      | none => split <;> rfl
      | some l => rfl

end Tracks

-- ============================================================ withdrawals

/-- The hold-down of an announced target is over. -/
def Life.HeldDown (config : RtbhConfig) (now : Nat) (l : Life) : Prop :=
  millis config.holdDown ≤ now - l.announcedAt

/-- A target has not been asserted for its time to live. -/
def Life.Stale (config : RtbhConfig) (now : Nat) (l : Life) : Prop :=
  ∃ ttl, config.maxTtl = some ttl ∧ millis ttl ≤ now - l.asserted

/-- The withdrawals there are to be, from the history of a target: an
operator's removal; a clear once the hold-down is over, at its own time or
at a later tick; a tick after the time to live. -/
def Lapses (config : RtbhConfig) (target : IpAddr) (life : Option Life) :
    Operation → Prop
  | .manualRemove t => t = target ∧ life.isSome
  | .onEvent (.cleared t _) now => t = target
      ∧ ∃ l, life = some l ∧ l.origin = .auto ∧ l.HeldDown config now
  | .tick _ now => ∃ l, life = some l ∧ l.origin = .auto
      ∧ (l.cleared = true ∧ l.HeldDown config now ∨ l.Stale config now)
  | _ => False

section Withdrawals

variable {target t : IpAddr} {life : Option Life} {c : RtbhController}

theorem due_iff {config : RtbhConfig} {now : Nat} {l : Life}
    {e : ActiveEntry} (h : l.Fits e) :
    RtbhController.due config now e = true ↔ l.origin = .auto
      ∧ (l.cleared = true ∧ l.HeldDown config now
        ∨ l.Stale config now) := by
  unfold RtbhController.due Life.HeldDown Life.Stale
  rw [← h.announcedAt, ← h.asserted, ← h.origin]
  cases ho : e.origin with
  | auto =>
      rw [← h.cleared ho]
      cases config.maxTtl <;> simp
  | manual =>
      rw [h.manual ho]
      simp

theorem Tracks.isSome_iff (h : Tracks target life c) :
    life.isSome ↔ target ∈ c.active := by
  rw [← AList.lookup_isSome]
  rcases h.cases with ⟨hlife, he⟩ | ⟨l, e, hlife, he, -⟩
  · rw [hlife, he]
    exact Iff.rfl
  · rw [hlife, he]
    exact Iff.rfl

theorem inserts_no_withdraw {at_ : Nat} {o : BlackholeOrigin}
    {r : List RtbhAction × RtbhController} {net : IpNet}
    (hi : RtbhController.Inserts t at_ o c r) : .withdraw net ∉ r.1 := by
  cases hi with
  | ignored _ hacts _ _ => simp [hacts]
  | reasserted _ _ hacts _ _ => simp [hacts]
  | announced _ _ _ _ _ hacts _ _ => simp [hacts]

theorem requestClear_withdraws (h : Tracks target life c) (t : IpAddr)
    (atMs now : Nat) :
    .withdraw (hostPrefix target) ∈ (c.requestClear t now).1
      ↔ Lapses c.config target life (.onEvent (.cleared t atMs) now) := by
  unfold Lapses RtbhController.requestClear
  by_cases ht : t = target
  · subst ht
    rcases h.cases with ⟨hlife, he⟩ | ⟨l, e, hlife, he, hle⟩
    · simp [he, hlife]
    · simp only [he, hlife, Life.HeldDown]
      cases ho : e.origin with
      | manual => simp [← hle.origin, ho]
      | auto =>
          by_cases hdown : millis c.config.holdDown ≤ now - e.announcedAt
          · simp [← hle.origin, ho, hdown, ← hle.announcedAt]
          · simp [← hle.origin, ho, hdown, ← hle.announcedAt]
  · refine iff_of_false ?_ fun h => ht h.1
    split
    · exact List.not_mem_nil
    · split
      · exact List.not_mem_nil
      · split
        · simp [Ne.symm ht]
        · exact List.not_mem_nil

/-- What a move withdraws is what the histories say. -/
theorem Tracks.withdraws_iff (h : Tracks target life c) (hc : c.Lawful)
    (m : Operation) :
    .withdraw (hostPrefix target) ∈ (m.apply c).1
      ↔ Lapses c.config target life m := by
  cases m with
  | onEvent ev now =>
      cases ev with
      | opened d =>
          exact iff_of_false (inserts_no_withdraw
            (RtbhController.insertBlackhole_inserts hc d.target now .auto))
            id
      | updated d => exact iff_of_false List.not_mem_nil id
      | cleared t atMs => exact requestClear_withdraws h t atMs now
  | manualAdd t now =>
      refine iff_of_false ?_ id
      show _ ∉ (c.manualAdd t now).1
      unfold RtbhController.manualAdd
      split
      · exact List.not_mem_nil
      · exact inserts_no_withdraw
          (RtbhController.insertBlackhole_inserts hc t now .manual)
  | manualRemove t =>
      show _ ∈ (c.manualRemove t).1 ↔ t = target ∧ life.isSome
      rw [h.isSome_iff]
      unfold RtbhController.manualRemove
      split
      · next hmem =>
        constructor
        · intro hw
          have ht : target = t := by simpa using hw
          exact ⟨ht.symm, ht ▸ hmem⟩
        · rintro ⟨rfl, -⟩
          exact List.mem_singleton_self _
      · next hmem =>
        refine iff_of_false List.not_mem_nil ?_
        rintro ⟨rfl, hin⟩
        exact hmem hin
  | tick ord now =>
      have hmem : .withdraw (hostPrefix target) ∈ (c.tick ord now).1
          ↔ target ∈ c.expired ord now := by
        rw [RtbhController.tick_actions]
        simp
      refine hmem.trans (RtbhController.mem_expired.trans ?_)
      constructor
      · rintro ⟨e, he, hdue⟩
        rcases h.cases with ⟨-, hnone⟩ | ⟨l, e', hlife, he', hle⟩
        · exact absurd (hnone.symm.trans he) nofun
        · cases he'.symm.trans he
          exact ⟨l, hlife, (due_iff hle).mp hdue⟩
      · rintro ⟨l, hlife, hlapse⟩
        rcases h.cases with ⟨hnone, -⟩ | ⟨l', e, hlife', he, hle⟩
        · exact absurd (hnone.symm.trans hlife) nofun
        · cases hlife'.symm.trans hlife
          exact ⟨e, he, (due_iff hle).mpr hlapse⟩
  | resume t at_ o =>
      exact iff_of_false (inserts_no_withdraw
        (RtbhController.insertBlackhole_inserts hc t at_ o)) id
  | rollback t => exact iff_of_false List.not_mem_nil id

end Withdrawals

-- ================================================================== runs

namespace Staged

/-- The controller is lawful and every entry follows the trace. -/
structure Follows (config : RtbhConfig) (s : Staged) : Prop where
  config : s.ctrl.config = config
  lawful : s.ctrl.Lawful
  tracks : ∀ target, Tracks target (lifeOf target s.trace) s.ctrl

theorem follows_start (config : RtbhConfig) :
    (start config).Follows config :=
  ⟨rfl, .new config, fun _ => .none⟩

theorem Follows.move {config : RtbhConfig} {s : Staged}
    (h : s.Follows config) (m : Operation) : (s.move m).Follows config := by
  unfold Staged.move
  split
  · obtain ⟨hsound, hconfig⟩ := h.lawful.move m
    refine ⟨hconfig.trans h.config, hsound, fun target => ?_⟩
    show Tracks target (lifeOf target (s.trace ++ [_])) _
    rw [lifeOf, List.foldl_append]
    exact (h.tracks target).step h.lawful m
  · exact h

theorem follows_run (config : RtbhConfig) (ms : List Operation) :
    (run move (start config) ms).Follows config :=
  run_invariant (fun _ m h => h.move m) ms (follows_start config)

end Staged

/-- After any operations, an operation withdraws exactly the targets whose
history says so, and an operator's blackhole only an operator. The times
and the origin of a life are those of the active entry. -/
theorem withdrawn_by_history (config : RtbhConfig) (ms : List Operation)
    (m : Operation) (target : IpAddr) :
    let s := run Staged.move (.start config) ms
    let life := lifeOf target s.trace
    (.withdraw (hostPrefix target) ∈ (m.apply s.ctrl).1
        ↔ Lapses config target life m)
      ∧ life.map (fun l => (l.announcedAt, l.origin))
        = (s.ctrl.active.lookup target).map
          (fun e => (e.announcedAt, e.origin))
      ∧ ((s.ctrl.active.lookup target).map (·.origin) = some .manual →
          .withdraw (hostPrefix target) ∈ (m.apply s.ctrl).1 →
            m = .manualRemove target) := by
  intro s life
  have hs : s.Follows config := Staged.follows_run config ms
  have hiff := (hs.tracks target).withdraws_iff hs.lawful m
  rw [hs.config] at hiff
  refine ⟨hiff, ?_, fun hman hw => ?_⟩
  · rcases (hs.tracks target).cases with ⟨hlife, he⟩ | ⟨l, e, hlife, he, hle⟩
    · rw [he]
      exact congrArg _ hlife
    · rw [he]
      refine (congrArg _ hlife).trans ?_
      simp [hle.announcedAt, hle.origin]
  · have hlapse := hiff.mp hw
    have hnot : ∀ l, life = some l → l.origin ≠ .auto := by
      intro l hlife hauto
      rcases (hs.tracks target).cases with ⟨hnone, -⟩ | ⟨l', e, hl', he, hle⟩
      · exact absurd (hnone.symm.trans hlife) nofun
      · cases hl'.symm.trans hlife
        rw [he] at hman
        have hman : e.origin = .manual := Option.some.inj hman
        rw [← hle.origin, hman] at hauto
        cases hauto
    cases m with
    | onEvent ev now =>
        cases ev with
        | opened d => exact hlapse.elim
        | updated d => exact hlapse.elim
        | cleared t atMs =>
            obtain ⟨-, l, hl, hauto, -⟩ := hlapse
            exact absurd hauto (hnot l hl)
    | manualAdd t now => exact hlapse.elim
    | manualRemove t => rw [hlapse.1]
    | tick ord now =>
        obtain ⟨l, hl, hauto, -⟩ := hlapse
        exact absurd hauto (hnot l hl)
    | resume t at_ o => exact hlapse.elim
    | rollback t => exact hlapse.elim

/-- The last event of a target is a clear and its hold-down is over, but a
tick leaves it: it was resumed in between, which cancels the clear. -/
theorem resumed_after_clear :
    let config : RtbhConfig :=
      { eligiblePrefixes := [.v4 (.slash 0xCB007100 24)]
        blackholeCommunities := [], nextHopV4 := some 0xC0000201
        nextHopV6 := none, maxBlackholes := 10, holdDown := 1000
        maxTtl := none, protectedPrefixes := [] }
    let target : IpAddr := .v4 0xCB007107
    let s := run Staged.move (.start config)
      [.resume target 0 .auto, .onEvent (.cleared target 10) 10,
        .resume target 20 .auto]
    s.ctrl.active.lookup target = some ⟨0, 20, .auto, none⟩
      ∧ millis config.holdDown ≤ 2000 - 0
      ∧ ((Operation.tick (.stored _) 2000).apply s.ctrl).1 = [] := by
  decide

end Blackwall.Rtbh
