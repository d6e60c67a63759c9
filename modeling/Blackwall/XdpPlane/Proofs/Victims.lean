/-
Which victim a limited source is for.

`by_target` and `rate_limited` are two views of one relation: a source is
in a victim's set only while it is limited, and an auto limit has a victim
for as long as it stands (`Books`). Each transition is summarised once, a
detection by `Limits` and a clear by `Clears`; the invariants are read off
the summaries.
-/
import Mathlib.Data.List.Nodup
import Blackwall.XdpPlane.Moves
import Blackwall.XdpPlane.Proofs.Guards
import Blackwall.XdpPlane.World

namespace Blackwall.XdpPlane

open Base
open Blackwall.Flow (Detection DetectionEvent)

namespace XdpController

variable {c c' : XdpController} {target src v : IpAddr}

-- ========================================================== victims' sets

theorem sourcesOf_new (prefixes : List IpNet) (cap rate : Nat)
    (prot : List IpNet) (v : IpAddr) :
    (new prefixes cap rate prot).sourcesOf v = [] := rfl

theorem any_byTarget (c : XdpController) (src : IpAddr) :
    (c.byTarget.entries.any fun e => decide (src ∈ e.2)) = true
      ↔ ∃ v, src ∈ c.sourcesOf v := by
  rw [List.any_eq_true]
  constructor
  · rintro ⟨⟨v, srcs⟩, he, hmem⟩
    refine ⟨v, ?_⟩
    rw [sourcesOf, Dict.mem_entries_iff.mp he]
    exact of_decide_eq_true hmem
  · rintro ⟨v, hmem⟩
    unfold sourcesOf at hmem
    cases hl : c.byTarget.lookup v with
    | none =>
        rw [hl] at hmem
        exact absurd hmem List.not_mem_nil
    | some srcs =>
        rw [hl] at hmem
        exact ⟨⟨v, srcs⟩, Dict.mem_entries_iff.mpr hl,
          decide_eq_true hmem⟩

theorem sourcesOf_noteSource (target src : IpAddr) (c : XdpController)
    (v : IpAddr) :
    (c.noteSource target src).sourcesOf v
      = if v = target then (c.sourcesOf target).insert src
        else c.sourcesOf v := by
  unfold sourcesOf noteSource
  dsimp only
  rw [Dict.lookup_insert_if]
  split
  · rfl
  · rfl

theorem mem_sourcesOf_noteSource {x : IpAddr} :
    x ∈ (c.noteSource target src).sourcesOf v
      ↔ (x = src ∧ v = target) ∨ x ∈ c.sourcesOf v := by
  rw [sourcesOf_noteSource]
  by_cases hv : v = target
  · subst hv
    rw [if_pos rfl, List.mem_insert_iff]
    simp
  · rw [if_neg hv]
    simp [hv]

theorem mem_sourcesOf_manualClearRate {x : IpAddr} :
    x ∈ (c.manualClearRate src).2.sourcesOf v
      ↔ x ∈ c.sourcesOf v ∧ x ≠ src := by
  unfold sourcesOf manualClearRate
  dsimp only
  rw [Dict.lookup_mapVals]
  cases c.byTarget.lookup v with
  | none => simp
  | some srcs => simp

/-- Rolling a limit back takes the source out of its victim's set. -/
theorem mem_sourcesOf_rollback {x : IpAddr} (pps burst : Nat)
    {victim : Option IpAddr} :
    x ∈ (c.rollback (.rateLimit src pps burst victim)).sourcesOf v
      ↔ x ∈ c.sourcesOf v ∧ ¬(x = src ∧ victim = some v) := by
  cases victim with
  | none =>
      show x ∈ c.sourcesOf v ↔ _
      simp
  | some t =>
      unfold sourcesOf rollback
      dsimp only
      rw [Dict.lookup_modify]
      by_cases hv : v = t
      · subst hv
        rw [if_pos rfl]
        cases c.byTarget.lookup v with
        | none => simp
        | some srcs => simp
      · rw [if_neg hv]
        simp [Ne.symm hv]

-- ============================================================== detections

/-- What a detection for `target` does: it limits sources that were not,
on the victim's account, and notes sources that are limited by then. -/
structure Limits (target : IpAddr) (c : XdpController)
    (acts : List XdpAction) (c' : XdpController) : Prop where
  kept : ∀ src e, c.rateLimited.lookup src = some e →
    c'.rateLimited.lookup src = some e
  added : ∀ src e, c.rateLimited.lookup src = none →
    c'.rateLimited.lookup src = some e →
      e.origin = .auto ∧ e.victim = some target
        ∧ src ∈ c'.sourcesOf target
  noted : ∀ v src, src ∈ c'.sourcesOf v → src ∈ c.sourcesOf v
    ∨ v = target ∧ (c'.rateLimited.lookup src).isSome
  grown : ∀ v src, src ∈ c.sourcesOf v → src ∈ c'.sourcesOf v
  handed : ∀ src pps burst victim, .rateLimit src pps burst victim ∈ acts →
    c.rateLimited.lookup src = none ∧ victim = some target
  installs : ∀ a ∈ acts, ∃ src pps burst victim,
    a = .rateLimit src pps burst victim

theorem Limits.refl (target : IpAddr) (c : XdpController) :
    Limits target c [] c where
  kept := fun _ _ h => h
  added := fun _ _ hn hs => absurd (hn.symm.trans hs) nofun
  noted := fun _ _ h => .inl h
  grown := fun _ _ h => h
  handed := fun _ _ _ _ h => absurd h List.not_mem_nil
  installs := fun _ h => absurd h List.not_mem_nil

/-- Noting a source that is limited already. -/
theorem Limits.note (h : (c.rateLimited.lookup src).isSome) :
    Limits target c [] (c.noteSource target src) where
  kept := fun _ _ h => h
  added := fun _ _ hn hs => absurd (hn.symm.trans hs) nofun
  noted := fun v x hx => by
    rcases mem_sourcesOf_noteSource.mp hx with ⟨rfl, rfl⟩ | hx
    · exact .inr ⟨rfl, h⟩
    · exact .inl hx
  grown := fun _ _ hx => mem_sourcesOf_noteSource.mpr (.inr hx)
  handed := fun _ _ _ _ h => absurd h List.not_mem_nil
  installs := fun _ h => absurd h List.not_mem_nil

/-- A new source is limited and noted. -/
theorem Limits.limit (hnew : c.rateLimited.lookup src = none)
    (pps burst : Nat) :
    Limits target c [.rateLimit src pps burst (some target)]
      (noteSource target src { c with
        rateLimited :=
          c.rateLimited.insert src ⟨.auto, pps, burst, some target⟩ }) where
  kept := fun x e hx => by
    show (c.rateLimited.insert src _).lookup x = some e
    rw [Dict.lookup_insert_if, if_neg]
    · exact hx
    · rintro rfl
      exact absurd (hnew.symm.trans hx) nofun
  added := fun x e hn hs => by
    change (c.rateLimited.insert src _).lookup x = some e at hs
    rw [Dict.lookup_insert_if] at hs
    split at hs
    · next hx =>
      cases hs
      exact ⟨rfl, rfl, mem_sourcesOf_noteSource.mpr (.inl ⟨hx, rfl⟩)⟩
    · exact absurd (hn.symm.trans hs) nofun
  noted := fun v x hx => by
    rcases mem_sourcesOf_noteSource.mp hx with ⟨rfl, rfl⟩ | hx
    · refine .inr ⟨rfl, ?_⟩
      show ((c.rateLimited.insert x _).lookup x).isSome = true
      rw [AList.lookup_insert]
      rfl
    · exact .inl hx
  grown := fun _ _ hx => mem_sourcesOf_noteSource.mpr (.inr hx)
  handed := fun x p b victim hx => by
    cases List.mem_singleton.mp hx
    exact ⟨hnew, rfl⟩
  installs := fun a ha => ⟨src, pps, burst, some target,
    List.mem_singleton.mp ha⟩

theorem Limits.trans {c₁ : XdpController} {acts acts' : List XdpAction}
    (h : Limits target c acts c₁) (h' : Limits target c₁ acts' c') :
    Limits target c (acts ++ acts') c' where
  kept := fun x e hx => h'.kept x e (h.kept x e hx)
  added := fun x e hn hs => by
    cases hx : c₁.rateLimited.lookup x with
    | none => exact h'.added x e hx hs
    | some e₁ =>
        obtain ⟨ho, hv, hmem⟩ := h.added x e₁ hn hx
        cases (h'.kept x e₁ hx).symm.trans hs
        exact ⟨ho, hv, h'.grown target x hmem⟩
  noted := fun v x hx => by
    rcases h'.noted v x hx with hx | hx
    · rcases h.noted v x hx with hx | ⟨hv, hlim⟩
      · exact .inl hx
      · obtain ⟨e, he⟩ := Option.isSome_iff_exists.mp hlim
        exact .inr ⟨hv, by rw [h'.kept x e he]; rfl⟩
    · exact .inr hx
  grown := fun v x hx => h'.grown v x (h.grown v x hx)
  handed := fun x p b victim hx => by
    rcases List.mem_append.mp hx with hx | hx
    · exact h.handed x p b victim hx
    · obtain ⟨hnone, hvic⟩ := h'.handed x p b victim hx
      refine ⟨?_, hvic⟩
      cases hl : c.rateLimited.lookup x with
      | none => rfl
      | some e => exact absurd ((h.kept x e hl).symm.trans hnone) nofun
  installs := fun a ha => by
    rcases List.mem_append.mp ha with ha | ha
    · exact h.installs a ha
    · exact h'.installs a ha

theorem limitSources_limits (target : IpAddr) (srcs : List IpAddr)
    (c : XdpController) :
    Limits target c (limitSources target srcs c).1
      (limitSources target srcs c).2 := by
  induction srcs generalizing c with
  | nil => exact .refl target c
  | cons src srcs ih =>
      unfold limitSources
      split
      · next hlim => exact (Limits.note hlim).trans (ih _)
      · next hnew =>
        split
        · exact .refl target c
        · have hnone : c.rateLimited.lookup src = none :=
            Option.not_isSome_iff_eq_none.mp hnew
          exact (Limits.limit hnone _ _).trans (ih _)

theorem handleDetection_limits (d : Detection) (c : XdpController) :
    Limits d.target c (c.handleDetection d).1 (c.handleDetection d).2 := by
  unfold handleDetection
  split
  · exact { Limits.refl d.target c with }
  · split
    · exact .refl d.target c
    · exact limitSources_limits d.target _ c

-- ================================================================== clears

/-- No victim has the source in its set and its limit is automatic. -/
def Releasable (c : XdpController) (src : IpAddr) : Prop :=
  (∀ v, src ∉ c.sourcesOf v)
    ∧ ∃ e, c.rateLimited.lookup src = some e ∧ e.origin = .auto

/-- One source of a clear: its limit goes if it can be released. -/
theorem clearSource_spec (src : IpAddr) (c : XdpController) :
    (c.Releasable src ∧ c.clearSource src = ([.clearRate src],
        { c with rateLimited := c.rateLimited.erase src }))
      ∨ ¬c.Releasable src ∧ c.clearSource src = ([], c) := by
  unfold clearSource
  split
  · next hany =>
    obtain ⟨v, hv⟩ := (any_byTarget c src).mp hany
    exact .inr ⟨fun h => h.1 v hv, rfl⟩
  · next hany =>
    have hno : ∀ v, src ∉ c.sourcesOf v := fun v hv =>
      hany ((any_byTarget c src).mpr ⟨v, hv⟩)
    split
    · next e he =>
      split
      · next hauto => exact .inl ⟨⟨hno, e, he, hauto⟩, rfl⟩
      · next hman =>
        refine .inr ⟨?_, rfl⟩
        rintro ⟨-, e', he', hauto⟩
        cases he.symm.trans he'
        exact hman hauto
    · next hnone =>
      refine .inr ⟨?_, rfl⟩
      rintro ⟨-, e, he, -⟩
      exact absurd (hnone.symm.trans he) nofun

/-- The loop of a clear: the limits of the releasable sources go, and
nothing else changes. -/
theorem collect_clearSource (srcs : List IpAddr) (c : XdpController) :
    (∀ a, a ∈ (collect clearSource srcs c).1
        ↔ ∃ src ∈ srcs, a = .clearRate src ∧ c.Releasable src)
      ∧ (∀ x e, (collect clearSource srcs c).2.rateLimited.lookup x = some e
        ↔ c.rateLimited.lookup x = some e
          ∧ ¬(x ∈ srcs ∧ c.Releasable x))
      ∧ (collect clearSource srcs c).2.byTarget = c.byTarget := by
  induction srcs generalizing c with
  | nil => simp [collect]
  | cons src srcs ih =>
      obtain ⟨hrel, heq⟩ | ⟨hrel, heq⟩ := clearSource_spec src c
      · let c₁ := { c with rateLimited := c.rateLimited.erase src }
        have hsame : ∀ x, c₁.Releasable x ↔ x ≠ src ∧ c.Releasable x := by
          intro x
          unfold Releasable
          show (_ ∧ ∃ e, (c.rateLimited.erase src).lookup x = some e ∧ _) ↔ _
          rw [Dict.lookup_erase_if]
          by_cases hx : x = src
          · simp [hx]
          · simp only [ne_eq, hx, not_false_eq_true, true_and]
            rfl
        obtain ⟨hacts, hlook, hby⟩ := ih c₁
        simp only [collect, heq, List.singleton_append]
        refine ⟨fun a => ?_, fun x e => ?_, hby⟩
        · rw [List.mem_cons, hacts]
          constructor
          · rintro (rfl | ⟨x, hx, rfl, hr⟩)
            · exact ⟨src, List.mem_cons_self, rfl, hrel⟩
            · exact ⟨x, List.mem_cons_of_mem src hx, rfl, ((hsame x).mp hr).2⟩
          · rintro ⟨x, hx, rfl, hr⟩
            by_cases hxs : x = src
            · exact .inl (by rw [hxs])
            · refine .inr ⟨x, ?_, rfl, (hsame x).mpr ⟨hxs, hr⟩⟩
              exact (List.mem_cons.mp hx).resolve_left hxs
        · rw [hlook, hsame]
          show (c.rateLimited.erase src).lookup x = some e ∧ _ ↔ _
          rw [Dict.lookup_erase_if]
          by_cases hxs : x = src
          · subst hxs
            simp [hrel]
          · simp [hxs]
      · obtain ⟨hacts, hlook, hby⟩ := ih c
        simp only [collect, heq, List.nil_append]
        refine ⟨fun a => ?_, fun x e => ?_, hby⟩
        · rw [hacts]
          constructor
          · rintro ⟨x, hx, rfl, hr⟩
            exact ⟨x, List.mem_cons_of_mem src hx, rfl, hr⟩
          · rintro ⟨x, hx, rfl, hr⟩
            rcases List.mem_cons.mp hx with rfl | hx
            · exact absurd hr hrel
            · exact ⟨x, hx, rfl, hr⟩
        · rw [hlook]
          refine and_congr_right fun _ => not_congr ⟨?_, ?_⟩
          · rintro ⟨hx, hr⟩
            exact ⟨List.mem_cons_of_mem src hx, hr⟩
          · rintro ⟨hx, hr⟩
            rcases List.mem_cons.mp hx with rfl | hx
            · exact absurd hr hrel
            · exact ⟨hx, hr⟩

/-- A source of the victim that a clear releases: automatic, and in no
other victim's set. -/
def Released (c : XdpController) (target src : IpAddr) : Prop :=
  src ∈ c.sourcesOf target
    ∧ (∃ e, c.rateLimited.lookup src = some e ∧ e.origin = .auto)
    ∧ ∀ v, v ≠ target → src ∉ c.sourcesOf v

/-- What a clear of `target` does. -/
structure Clears (target : IpAddr) (c : XdpController)
    (acts : List XdpAction) (c' : XdpController) : Prop where
  acts_iff : ∀ a, a ∈ acts ↔ ∃ src, a = .clearRate src
    ∧ c.Released target src
  lookup_iff : ∀ x e, c'.rateLimited.lookup x = some e
    ↔ c.rateLimited.lookup x = some e ∧ ¬c.Released target x
  sets : ∀ v, c'.sourcesOf v = if v = target then [] else c.sourcesOf v

theorem handleCleared_clears (ord : IterOrder IpAddr) (target : IpAddr)
    (c : XdpController) :
    Clears target c (c.handleCleared ord target).1
      (c.handleCleared ord target).2 := by
  unfold handleCleared
  split
  · next hnone =>
    have hempty : c.sourcesOf target = [] := by rw [sourcesOf, hnone]; rfl
    have hrel : ∀ x, ¬c.Released target x := fun x h =>
      absurd (hempty ▸ h.1) List.not_mem_nil
    refine ⟨fun a => ?_, fun x e => ?_, fun v => ?_⟩
    · simp [hrel]
    · simp [hrel]
    · by_cases hv : v = target
      · rw [if_pos hv, hv, hempty]
      · rw [if_neg hv]
  · next sources hsome =>
    let c₀ := { c with byTarget := c.byTarget.erase target }
    have hsets : ∀ v, c₀.sourcesOf v
        = if v = target then [] else c.sourcesOf v := by
      intro v
      show ((c.byTarget.erase target).lookup v).getD [] = _
      rw [Dict.lookup_erase_if]
      split <;> rfl
    have hmem : ∀ x, (x ∈ ord.1 sources ∧ c₀.Releasable x)
        ↔ c.Released target x := by
      intro x
      have hsrcs : x ∈ ord.1 sources ↔ x ∈ c.sourcesOf target := by
        rw [IterOrder.mem_iff, sourcesOf, hsome]
        rfl
      rw [hsrcs]
      unfold Releasable Released
      refine and_congr_right fun _ => ?_
      constructor
      · rintro ⟨hno, hauto⟩
        refine ⟨hauto, fun v hv hx => hno v ?_⟩
        rw [hsets, if_neg hv]
        exact hx
      · rintro ⟨hauto, hno⟩
        refine ⟨fun v hx => ?_, hauto⟩
        rw [hsets] at hx
        split at hx
        · exact absurd hx List.not_mem_nil
        · next hv => exact hno v hv hx
    obtain ⟨hacts, hlook, hby⟩ :=
      collect_clearSource (ord.1 sources) c₀
    refine ⟨fun a => ?_, fun x e => ?_, fun v => ?_⟩
    · rw [hacts]
      constructor
      · rintro ⟨x, hx, rfl, hr⟩
        exact ⟨x, rfl, (hmem x).mp ⟨hx, hr⟩⟩
      · rintro ⟨x, rfl, hr⟩
        obtain ⟨hx, hr⟩ := (hmem x).mpr hr
        exact ⟨x, hx, rfl, hr⟩
    · rw [hlook, hmem]
    · rw [← hsets v, sourcesOf, hby]
      rfl

-- ================================================================== books

/-- The two maps agree, and the cap is kept. -/
structure Books (c : XdpController) : Prop where
  limited : ∀ v src, src ∈ c.sourcesOf v →
    (c.rateLimited.lookup src).isSome
  owned : ∀ src e, c.rateLimited.lookup src = some e → e.origin = .auto →
    ∃ v, src ∈ c.sourcesOf v
  capped : c.totalActive ≤ c.maxEntries

theorem Books.new (prefixes : List IpNet) (cap rate : Nat)
    (prot : List IpNet) : Books (new prefixes cap rate prot) where
  limited := fun _ _ h => absurd h List.not_mem_nil
  owned := fun _ _ h => by cases h
  capped := Nat.zero_le cap

/-- The cap is kept by whoever heeds it. -/
theorem Books.capped_of (h : c.Books) (hh : Heeds c c') :
    c'.totalActive ≤ c'.maxEntries :=
  hh.cap ▸ hh.capped h.capped

theorem Books.limits {acts : List XdpAction} (h : c.Books)
    (hl : Limits target c acts c') (hh : Heeds c c') : c'.Books where
  limited := fun v x hx => by
    rcases hl.noted v x hx with hx | ⟨-, hlim⟩
    · obtain ⟨e, he⟩ := Option.isSome_iff_exists.mp (h.limited v x hx)
      rw [hl.kept x e he]
      rfl
    · exact hlim
  owned := fun x e he hauto => by
    cases hx : c.rateLimited.lookup x with
    | none => exact ⟨target, (hl.added x e hx he).2.2⟩
    | some e₀ =>
        cases (hl.kept x e₀ hx).symm.trans he
        obtain ⟨v, hv⟩ := h.owned x e hx hauto
        exact ⟨v, hl.grown v x hv⟩
  capped := h.capped_of hh

theorem Books.clears {acts : List XdpAction} (h : c.Books)
    (hc : Clears target c acts c') (hh : Heeds c c') : c'.Books where
  limited := fun v x hx => by
    rw [hc.sets] at hx
    split at hx
    · exact absurd hx List.not_mem_nil
    · next hv =>
      obtain ⟨e, he⟩ := Option.isSome_iff_exists.mp (h.limited v x hx)
      -- another victim has it, so it is not released
      rw [(hc.lookup_iff x e).mpr ⟨he, fun hrel => hrel.2.2 v hv hx⟩]
      rfl
  owned := fun x e he hauto => by
    obtain ⟨he, hkept⟩ := (hc.lookup_iff x e).mp he
    obtain ⟨v, hv⟩ := h.owned x e he hauto
    by_cases hvt : v = target
    · -- it was `target`'s and stayed: another victim has it too
      subst hvt
      by_contra hnone
      refine hkept ⟨hv, ⟨e, he, hauto⟩, fun w hw hx => hnone ⟨w, ?_⟩⟩
      rw [hc.sets, if_neg hw]
      exact hx
    · refine ⟨v, ?_⟩
      rw [hc.sets, if_neg hvt]
      exact hv
  capped := h.capped_of hh

theorem Books.detection (h : c.Books) (ord : IterOrder IpAddr)
    (ev : DetectionEvent) : (c.onDetection ord ev).2.Books := by
  have hh := onDetection_heeds ord ev c
  cases ev with
  | opened d => exact h.limits (handleDetection_limits d c) hh
  | updated d => exact h.limits (handleDetection_limits d c) hh
  | cleared v atMs => exact h.clears (handleCleared_clears ord v c) hh

/-- A change of the limits at one source, with the sets left alone or
rid of it. -/
theorem Books.at_source (h : c.Books) (src : IpAddr)
    {x : Option RateLimitEntry}
    (hr : ∀ a, c'.rateLimited.lookup a
      = if a = src then x else c.rateLimited.lookup a)
    (hauto : ∀ e, x = some e → e.origin = .manual)
    (hs : ∀ v a, a ∈ c'.sourcesOf v ↔ a ∈ c.sourcesOf v
      ∧ (x = none → a ≠ src))
    (hh : Heeds c c') : c'.Books where
  limited := fun v a ha => by
    obtain ⟨ha, hne⟩ := (hs v a).mp ha
    rw [hr]
    split
    · next heq =>
      cases hx : x with
      | none => exact absurd heq (hne hx)
      | some e => rfl
    · exact h.limited v a ha
  owned := fun a e he hauto' => by
    rw [hr] at he
    split at he
    · rw [hauto e he] at hauto'
      cases hauto'
    · next hne =>
      obtain ⟨v, hv⟩ := h.owned a e he hauto'
      exact ⟨v, (hs v a).mpr ⟨hv, fun _ => hne⟩⟩
  capped := h.capped_of hh

theorem Books.manualBlock (h : c.Books) (net : IpNet) :
    (c.manualBlock net).2.Books := by
  have hcap := h.capped_of (manualBlock_heeds net c)
  revert hcap
  unfold XdpController.manualBlock
  split
  · exact fun _ => h
  · split
    · exact fun _ => h
    · exact fun hcap => ⟨h.limited, h.owned, hcap⟩

theorem Books.manualUnblock (h : c.Books) (net : IpNet) :
    (c.manualUnblock net).2.Books :=
  ⟨h.limited, h.owned, h.capped_of (manualUnblock_heeds net c)⟩

theorem Books.manualRateLimit (h : c.Books) (src : IpAddr)
    (pps burst : Nat) : (c.manualRateLimit src pps burst).2.Books := by
  have hh := manualRateLimit_heeds src pps burst c
  revert hh
  unfold XdpController.manualRateLimit
  dsimp only
  split
  · exact fun _ => h
  · refine h.at_source src (x := some ⟨.manual, pps, burst, none⟩)
      (fun a => Dict.lookup_insert_if src a _ c.rateLimited) ?_ ?_
    · intro e he
      cases he
      rfl
    · exact fun v a => (and_iff_left nofun).symm

theorem Books.manualClearRate (h : c.Books) (src : IpAddr) :
    (c.manualClearRate src).2.Books := by
  refine h.at_source src (x := none)
    (fun a => Dict.lookup_erase_if src a c.rateLimited) nofun ?_
    (manualClearRate_heeds src c)
  intro v a
  rw [mem_sourcesOf_manualClearRate]
  simp

/-- Rolling back a limit whose source no victim but its own has. -/
theorem Books.rollback_limit (h : c.Books) (pps burst : Nat)
    {victim : Option IpAddr}
    (hlone : ∀ v, src ∈ c.sourcesOf v → victim = some v) :
    (c.rollback (.rateLimit src pps burst victim)).Books := by
  refine h.at_source src (x := none) ?_ nofun ?_
    (rollback_heeds _ c)
  · intro a
    cases victim <;> exact Dict.lookup_erase_if src a c.rateLimited
  · intro v a
    rw [mem_sourcesOf_rollback]
    refine and_congr_right fun ha => ?_
    constructor
    · rintro hno - rfl
      exact hno ⟨rfl, hlone v ha⟩
    · rintro hne ⟨rfl, -⟩
      exact hne rfl rfl

end XdpController

-- ==================================================================== runs

namespace Staged

open XdpController (Books)

/-- The books are in order, and a fresh limit is on no account but its
victim's. -/
structure Kept (s : Staged) : Prop where
  books : s.ctrl.Books
  lone : ∀ src pps burst victim,
    .rateLimit src pps burst victim ∈ s.fresh →
      ∀ v, src ∈ s.ctrl.sourcesOf v → victim = some v

variable {s : Staged}

theorem Kept.start (prefixes : List IpNet) (cap rate : Nat)
    (prot : List IpNet) :
    (start (.new prefixes cap rate prot)).Kept where
  books := Books.new prefixes cap rate prot
  lone := fun _ _ _ _ h => absurd h List.not_mem_nil

/-- A limit of a source that no set has had. -/
theorem Kept.limits (h : s.Kept) {target : IpAddr}
    {acts : List XdpAction} {c' : XdpController}
    (hl : XdpController.Limits target s.ctrl acts c') (src : IpAddr)
    (pps burst : Nat) (victim : Option IpAddr)
    (ha : .rateLimit src pps burst victim ∈ acts) (v : IpAddr)
    (hv : src ∈ c'.sourcesOf v) : victim = some v := by
  obtain ⟨hnone, hvic⟩ := hl.handed src pps burst victim ha
  rcases hl.noted v src hv with hv | ⟨rfl, -⟩
  · have := h.books.limited v src hv
    rw [hnone] at this
    cases this
  · exact hvic

theorem Kept.detection (h : s.Kept) (ord : IterOrder IpAddr)
    (ev : DetectionEvent) : (s.move (.onDetection ord ev)).Kept := by
  refine ⟨h.books.detection ord ev, fun src pps burst victim ha v hv => ?_⟩
  have ha := (List.mem_filter.mp ha).1
  cases ev with
  | opened d =>
      exact h.limits (XdpController.handleDetection_limits d s.ctrl)
        src pps burst victim ha v hv
  | updated d =>
      exact h.limits (XdpController.handleDetection_limits d s.ctrl)
        src pps burst victim ha v hv
  | cleared t atMs =>
      have hc := XdpController.handleCleared_clears ord t s.ctrl
      obtain ⟨x, hx, -⟩ := (hc.acts_iff _).mp ha
      cases hx

theorem Kept.rollback (h : s.Kept) (a : XdpAction) :
    (s.move (.rollback a)).Kept := by
  unfold move
  dsimp only
  split
  · next hfresh =>
    cases a with
    | rateLimit src pps burst victim =>
        refine ⟨h.books.rollback_limit pps burst
          (h.lone src pps burst victim hfresh), fun x p b w hx v hv => ?_⟩
        exact h.lone x p b w (List.mem_of_mem_erase hx) v
          ((XdpController.mem_sourcesOf_rollback pps burst).mp hv).1
    | block net =>
        refine ⟨h.books.manualUnblock net, fun x p b w hx => ?_⟩
        exact h.lone x p b w (List.mem_of_mem_erase hx)
    | unblock net =>
        exact ⟨h.books, fun x p b w hx =>
          h.lone x p b w (List.mem_of_mem_erase hx)⟩
    | clearRate src =>
        exact ⟨h.books, fun x p b w hx =>
          h.lone x p b w (List.mem_of_mem_erase hx)⟩
  · exact h

theorem fresh_manual {isNew : Bool}
    {r : Except Refusal XdpAction × XdpController} {a : XdpAction}
    (ha : a ∈ (s.manual isNew r).fresh) : isNew = true ∧ r.1 = .ok a := by
  unfold manual at ha
  dsimp only at ha
  split at ha
  · next b hok =>
    split at ha
    · next hnew =>
      rw [List.mem_singleton.mp ha]
      exact ⟨hnew, hok⟩
    · exact absurd ha List.not_mem_nil
  · exact absurd ha List.not_mem_nil

theorem Kept.manualRateLimit (h : s.Kept) (src : IpAddr)
    (pps burst : Nat) : (s.move (.manualRateLimit src pps burst)).Kept := by
  refine ⟨h.books.manualRateLimit src pps burst, ?_⟩
  intro x p b victim ha v hv
  obtain ⟨hnew, hok⟩ := fresh_manual ha
  have hsets : (s.ctrl.manualRateLimit src pps burst).2.sourcesOf v
      = s.ctrl.sourcesOf v := by
    unfold XdpController.manualRateLimit
    dsimp only
    split <;> rfl
  have hx : x = src := by
    rcases XdpController.manualRateLimit_cases src pps burst s.ctrl with
      ⟨e, he⟩ | ⟨c', he, -⟩
    · rw [he] at hok
      cases hok
    · rw [he] at hok
      cases hok
      rfl
  -- a source that was not limited is in no set
  have hlim : (s.ctrl.rateLimited.lookup x).isSome = true :=
    h.books.limited v x (hsets ▸ hv)
  rw [XdpController.isRateLimited, ← hx, hlim] at hnew
  cases hnew

theorem Kept.move (h : s.Kept) (m : Move) : (s.move m).Kept := by
  cases m with
  | onDetection ord ev => exact h.detection ord ev
  | manualBlock net =>
      refine ⟨h.books.manualBlock net, fun x p b victim ha => ?_⟩
      have hok := (fresh_manual ha).2
      rcases XdpController.manualBlock_cases net s.ctrl with
        ⟨e, he⟩ | ⟨c', he, -⟩
      · rw [he] at hok
        cases hok
      · rw [he] at hok
        cases hok
  | manualUnblock net =>
      exact ⟨h.books.manualUnblock net,
        fun _ _ _ _ ha => absurd ha List.not_mem_nil⟩
  | manualRateLimit src pps burst => exact h.manualRateLimit src pps burst
  | manualClearRate src =>
      exact ⟨h.books.manualClearRate src,
        fun _ _ _ _ ha => absurd ha List.not_mem_nil⟩
  | rollback a => exact h.rollback a

end Staged

/-- In every reachable state a noted source is limited, an auto limit has
a victim, the cap is kept, and a clear releases exactly the auto sources
of its victim that no other victim has. -/
theorem victims_consistent (prefixes : List IpNet) (cap rate : Nat)
    (prot : List IpNet) (ms : List Move) :
    let c := (run Staged.move (.start (.new prefixes cap rate prot)) ms).ctrl
    (∀ v src, src ∈ c.sourcesOf v → (c.rateLimited.lookup src).isSome)
      ∧ (∀ src e, c.rateLimited.lookup src = some e → e.origin = .auto →
        ∃ v, src ∈ c.sourcesOf v)
      ∧ c.rateLimited.entries.length + c.blockedNets.entries.length
        ≤ c.maxEntries
      ∧ ∀ ord v atMs a, a ∈ (c.onDetection ord (.cleared v atMs)).1
        ↔ ∃ src, a = .clearRate src ∧ src ∈ c.sourcesOf v
          ∧ (∃ e, c.rateLimited.lookup src = some e ∧ e.origin = .auto)
          ∧ ∀ v', v' ≠ v → src ∉ c.sourcesOf v' := by
  intro c
  have hkept : (run Staged.move (.start (.new prefixes cap rate prot))
      ms).Kept :=
    run_invariant (fun _ m h => h.move m) ms
      (.start prefixes cap rate prot)
  have hbooks : c.Books := hkept.books
  refine ⟨hbooks.limited, hbooks.owned, hbooks.capped, ?_⟩
  intro ord v atMs a
  exact (XdpController.handleCleared_clears ord v c).acts_iff a

end Blackwall.XdpPlane
