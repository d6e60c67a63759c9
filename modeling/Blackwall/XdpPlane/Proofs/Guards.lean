/-
The two guards of the XDP controller: the cap on its entries, and the
refusal to block a network that overlaps an own prefix.

Every transition of a running controller heeds them (`Heeds`), whatever
it starts from. `mark_resumed`, by which the rows of the journal come
back, is not among them.
-/
import Blackwall.XdpPlane.Controller

namespace Blackwall.XdpPlane

open Base
open Blackwall.Flow (Detection DetectionEvent)

namespace XdpController

variable {c c' c'' : XdpController} {src : IpAddr} {net : IpNet}

/-- `c'` has the configuration of `c`, and every block of it was there or
clears the own prefixes. -/
structure Fenced (c c' : XdpController) : Prop where
  prefixes : c'.prefixes = c.prefixes
  cap : c'.maxEntries = c.maxEntries
  blocks : ∀ net, c'.isBlocked net = true →
    c.isBlocked net = true ∨ c.overlapsOwnPrefix net = false

/-- `c'` also keeps to the cap if `c` does. -/
structure Heeds (c c' : XdpController) : Prop extends Fenced c c' where
  capped : c.totalActive ≤ c.maxEntries → c'.totalActive ≤ c.maxEntries

theorem Fenced.overlaps (h : Fenced c c') (net : IpNet) :
    c'.overlapsOwnPrefix net = c.overlapsOwnPrefix net := by
  unfold overlapsOwnPrefix
  rw [h.prefixes]

theorem Fenced.trans (h : Fenced c c') (h' : Fenced c' c'') :
    Fenced c c'' where
  prefixes := h'.prefixes.trans h.prefixes
  cap := h'.cap.trans h.cap
  blocks := fun net hb => by
    rcases h'.blocks net hb with hb | hno
    · exact h.blocks net hb
    · exact .inr ((h.overlaps net).symm.trans hno)

theorem Heeds.refl (c : XdpController) : Heeds c c :=
  ⟨⟨rfl, rfl, fun _ hb => .inl hb⟩, fun h => h⟩

theorem Heeds.trans (h : Heeds c c') (h' : Heeds c' c'') :
    Heeds c c'' where
  toFenced := h.toFenced.trans h'.toFenced
  capped := fun hcap =>
    h.cap ▸ h'.capped (h.cap.symm ▸ h.capped hcap)

/-- A change of the limits and the victims' sets. -/
theorem Heeds.limits {rates : Dict IpAddr RateLimitEntry}
    {sets : Dict IpAddr (List IpAddr)} {skipped : Nat}
    (hcap : c.totalActive ≤ c.maxEntries →
      rates.entries.length + c.blockedNets.entries.length
        ≤ c.maxEntries) :
    Heeds c { c with
      rateLimited := rates, byTarget := sets
      protectedSkipped := skipped } :=
  ⟨⟨rfl, rfl, fun _ hb => .inl hb⟩, hcap⟩

/-- One source limited, if it was or there is room. -/
theorem insert_limit_capped
    (hroom : (!c.isRateLimited src && c.atCapacity) ≠ true)
    (e : RateLimitEntry) (hcap : c.totalActive ≤ c.maxEntries) :
    (c.rateLimited.insert src e).entries.length
      + c.blockedNets.entries.length ≤ c.maxEntries := by
  rw [Dict.length_insert]
  split
  · exact hcap
  · next hnew =>
    have hlt : c.totalActive < c.maxEntries := by
      simpa [isRateLimited, hnew, atCapacity] using hroom
    unfold totalActive at hlt
    omega

theorem erase_limit_capped (src : IpAddr)
    (hcap : c.totalActive ≤ c.maxEntries) :
    (c.rateLimited.erase src).entries.length
      + c.blockedNets.entries.length ≤ c.maxEntries :=
  Nat.le_trans
    (Nat.add_le_add_right (Dict.length_erase_le src c.rateLimited) _) hcap

-- ======================================================= manual requests

theorem manualBlock_heeds (net : IpNet) (c : XdpController) :
    Heeds c (c.manualBlock net).2 := by
  unfold manualBlock
  split
  · exact .refl c
  · next hown =>
    split
    · exact .refl c
    · next hroom =>
      refine ⟨⟨rfl, rfl, fun n hb => ?_⟩, fun hcap => ?_⟩
      · by_cases hn : n = net
        · exact .inr (hn ▸ Bool.not_eq_true _ ▸ hown)
        · change ((c.blockedNets.insert net .manual).lookup n).isSome
            = true at hb
          rw [Dict.lookup_insert_if, if_neg hn] at hb
          exact .inl hb
      · show c.rateLimited.entries.length
          + (c.blockedNets.insert net .manual).entries.length
            ≤ c.maxEntries
        unfold totalActive at hcap
        rw [Dict.length_insert]
        split
        · exact hcap
        · next hnew =>
          have hlt : c.totalActive < c.maxEntries := by
            simpa [isBlocked, hnew, atCapacity] using hroom
          unfold totalActive at hlt
          omega

theorem manualUnblock_heeds (net : IpNet) (c : XdpController) :
    Heeds c (c.manualUnblock net).2 := by
  refine ⟨⟨rfl, rfl, fun n hb => .inl ?_⟩, fun hcap => ?_⟩
  · change ((c.blockedNets.erase net).lookup n).isSome = true at hb
    rw [Dict.lookup_erase_if] at hb
    split at hb
    · cases hb
    · exact hb
  · exact Nat.le_trans (Nat.add_le_add_left
      (Dict.length_erase_le net c.blockedNets) _) hcap

theorem manualRateLimit_heeds (src : IpAddr) (pps burst : Nat)
    (c : XdpController) : Heeds c (c.manualRateLimit src pps burst).2 := by
  unfold manualRateLimit
  dsimp only
  split
  · exact .refl c
  · next hroom => exact .limits (insert_limit_capped hroom _)

theorem manualClearRate_heeds (src : IpAddr) (c : XdpController) :
    Heeds c (c.manualClearRate src).2 :=
  .limits (erase_limit_capped src)

theorem rollback_heeds (a : XdpAction) (c : XdpController) :
    Heeds c (c.rollback a) := by
  cases a with
  | rateLimit src pps burst victim =>
      cases victim <;> exact .limits (erase_limit_capped src)
  | block net => exact manualUnblock_heeds net c
  | unblock net => exact .refl c
  | clearRate src => exact .refl c

-- ============================================================ detections

theorem limitSources_heeds (target : IpAddr) (srcs : List IpAddr)
    (c : XdpController) : Heeds c (limitSources target srcs c).2 := by
  induction srcs generalizing c with
  | nil => exact .refl c
  | cons src srcs ih =>
      unfold limitSources
      split
      · have hnote : Heeds c (c.noteSource target src) :=
          .limits fun hcap => hcap
        exact hnote.trans (ih _)
      · next hnew =>
        split
        · exact .refl c
        · next hroom =>
          refine Heeds.trans (.limits (insert_limit_capped ?_ _)) (ih _)
          simp [hroom]

theorem collect_clearSource_heeds (srcs : List IpAddr)
    (c : XdpController) : Heeds c (collect clearSource srcs c).2 := by
  induction srcs generalizing c with
  | nil => exact .refl c
  | cons src srcs ih =>
      have hone : Heeds c (c.clearSource src).2 := by
        unfold clearSource
        split
        · exact .refl c
        · split
          · split
            · exact .limits (erase_limit_capped src)
            · exact .refl c
          · exact .refl c
      exact hone.trans (ih _)

theorem onDetection_heeds (ord : IterOrder IpAddr) (ev : DetectionEvent)
    (c : XdpController) : Heeds c (c.onDetection ord ev).2 := by
  have hopen : ∀ d, Heeds c (c.handleDetection d).2 := fun d => by
    unfold handleDetection
    split
    · exact .limits fun hcap => hcap
    · split
      · exact .refl c
      · exact limitSources_heeds d.target _ c
  cases ev with
  | opened d => exact hopen d
  | updated d => exact hopen d
  | cleared target atMs =>
      show Heeds c (c.handleCleared ord target).2
      unfold handleCleared
      split
      · exact .refl c
      · have hforget : Heeds c
            { c with byTarget := c.byTarget.erase target } :=
          .limits fun hcap => hcap
        exact hforget.trans (collect_clearSource_heeds _ _)

end XdpController

end Blackwall.XdpPlane
