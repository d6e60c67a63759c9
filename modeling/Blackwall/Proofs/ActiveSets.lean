/-
Safety of the active sets of both BGP controllers: the caps, the prefixes,
and the agreement of what is emitted with what is active.
-/
import Blackwall.FlowSpec.Proofs.ActiveSet
import Blackwall.Rtbh.Proofs.ActiveSet

namespace Blackwall

open Base

/-- An address is in some of the prefixes. -/
def inSome (prefixes : List IpNet) (t : IpAddr) : Prop :=
  ∃ p ∈ prefixes, p.contains t = true

theorem inSome_iff {prefixes : List IpNet} {t : IpAddr} :
    (prefixes.any fun p => p.contains t) = true ↔ inSome prefixes t :=
  List.any_eq_true

theorem not_inSome_iff {prefixes : List IpNet} {t : IpAddr} :
    (prefixes.any fun p => p.contains t) = false
      ↔ ¬inSome prefixes t := by
  rw [← inSome_iff, Bool.not_eq_true]

/-- In every reachable state of either controller the active entries keep
to the cap, every active target is in an eligible prefix and in no
protected one and, for a blackhole, has a next hop, and a reader of the
emitted actions holds exactly the active keys with their current
routes and rules. -/
theorem active_sets_safe :
    (∀ (config : Rtbh.RtbhConfig) (ms : List Rtbh.Operation),
      let s := run Rtbh.Staged.move (.start config) ms
      s.ctrl.active.entries.length ≤ config.maxBlackholes
        ∧ (∀ t ∈ s.ctrl.active, inSome config.eligiblePrefixes t
          ∧ ¬inSome config.protectedPrefixes t
          ∧ s.ctrl.hasNextHop t = true)
        ∧ ∀ net route, s.ledger.held net = some route
          ↔ ∃ t, net = hostPrefix t ∧ t ∈ s.ctrl.active
            ∧ s.ctrl.hostRoute t = some route)
      ∧ ∀ (config : FlowSpec.FlowSpecConfig) (ms : List FlowSpec.Move),
        let s := run FlowSpec.Staged.move (.start config) ms
        s.ctrl.active.entries.length ≤ config.maxRules
          ∧ (∀ key ∈ s.ctrl.active, ∃ t, key.1 = hostPrefix t
            ∧ inSome config.eligiblePrefixes t
            ∧ ¬inSome config.protectedPrefixes t)
          ∧ ∀ key, s.ledger.held key = s.ctrl.activeRule key := by
  constructor
  · intro config ms s
    have hs : s.Follows config := Rtbh.Staged.follows_run config ms
    have hsum : s.AddsUp := Rtbh.Staged.addsUp_run config ms
    clear_value s
    obtain rfl := hs.config
    refine ⟨hs.lawful.capped, fun t ht => ?_, fun net route => ?_⟩
    · obtain ⟨hprot, helig, hroute⟩ :=
        hs.lawful.admitted t (AList.lookup_isSome.mpr ht)
      rw [← Rtbh.RtbhController.hostRoute_isSome]
      exact ⟨inSome_iff.mp helig, not_inSome_iff.mp hprot, hroute⟩
    · rw [hsum.held]
      exact Rtbh.RtbhController.announced_eq_some
  · intro config ms s
    have hs : s.AddsUp config := FlowSpec.Staged.addsUp_run config ms
    clear_value s
    obtain rfl := hs.config
    refine ⟨hs.sound.capped, fun key hkey => ?_, fun key => ?_⟩
    · obtain ⟨t, hk, hprot, helig⟩ := hs.sound.fair key hkey
      exact ⟨t, hk, inSome_iff.mp helig, not_inSome_iff.mp hprot⟩
    · rw [hs.replays.held, FlowSpec.FlowSpecController.activeRule_eq]

end Blackwall
