/-
The victim an XDP rate limit records, and what a restart makes of it.

The recorded victim is the first one, for good. A clear of that victim
leaves the limit to the others that share the source; from then on the
record names a victim whose attack is over, and a controller rebuilt from
it waits for a `Cleared` that has been already. The record is right
(`Attributed`) for exactly as long as no clear does that (`Spares`).
-/
import Blackwall.XdpPlane.Proofs.Victims

namespace Blackwall.XdpPlane

open Base
open Blackwall.Flow (Detection)

-- ============================================================ the record

namespace XdpController

variable {c c' : XdpController} {target src v : IpAddr}

/-- The victim an auto limit records has the source in its set. -/
def Attributed (c : XdpController) : Prop :=
  ∀ src e v, c.rateLimited.lookup src = some e → e.origin = .auto →
    e.victim = some v → src ∈ c.sourcesOf v

theorem Attributed.limits {acts : List XdpAction} (h : c.Attributed)
    (hl : Limits target c acts c') : c'.Attributed := by
  intro x e v he hauto hv
  cases hx : c.rateLimited.lookup x with
  | none =>
      obtain ⟨-, hvic, hmem⟩ := hl.added x e hx he
      cases hvic.symm.trans hv
      exact hmem
  | some e₀ =>
      cases (hl.kept x e₀ hx).symm.trans he
      exact hl.grown v x (h x e v hx hauto hv)

/-- After a clear it depends on whether a shared source records the
cleared victim. -/
theorem Attributed.clears_iff {acts : List XdpAction} (h : c.Attributed)
    (hc : Clears target c acts c') :
    c'.Attributed ↔ ∀ src e, c.rateLimited.lookup src = some e →
      e.origin = .auto → e.victim = some target →
        ∀ v, v ≠ target → src ∉ c.sourcesOf v := by
  constructor
  · intro h' x e he hauto hvic v hv hmem
    have hkept : c'.rateLimited.lookup x = some e :=
      (hc.lookup_iff x e).mpr ⟨he, fun hrel => hrel.2.2 v hv hmem⟩
    have hset := h' x e target hkept hauto hvic
    rw [hc.sets, if_pos rfl] at hset
    exact absurd hset List.not_mem_nil
  · intro hlone x e v he hauto hvic
    obtain ⟨he, hkept⟩ := (hc.lookup_iff x e).mp he
    have hmem := h x e v he hauto hvic
    by_cases hv : v = target
    · subst hv
      exact absurd ⟨hmem, ⟨e, he, hauto⟩, hlone x e he hauto hvic⟩ hkept
    · rw [hc.sets, if_neg hv]
      exact hmem

/-- A change of the limits at one source, and of no other source's
sets. -/
theorem Attributed.at_source (h : c.Attributed) (src : IpAddr)
    {x : Option RateLimitEntry}
    (hr : ∀ a, c'.rateLimited.lookup a
      = if a = src then x else c.rateLimited.lookup a)
    (hauto : ∀ e, x = some e → e.origin = .manual)
    (hs : ∀ v a, a ≠ src → a ∈ c.sourcesOf v → a ∈ c'.sourcesOf v) :
    c'.Attributed := by
  intro a e v he ha hv
  rw [hr] at he
  split at he
  · rw [hauto e he] at ha
    cases ha
  · next hne => exact hs v a hne (h a e v he ha hv)

theorem Attributed.manualRateLimit (h : c.Attributed) (src : IpAddr)
    (pps burst : Nat) :
    (c.manualRateLimit src pps burst).2.Attributed := by
  unfold XdpController.manualRateLimit
  dsimp only
  split
  · exact h
  · refine h.at_source src (x := some ⟨.manual, pps, burst, none⟩)
      (fun a => Dict.lookup_insert_if src a _ c.rateLimited) ?_
      fun _ _ _ ha => ha
    intro e he
    cases he
    rfl

theorem Attributed.rollback (h : c.Attributed) (a : XdpAction) :
    (c.rollback a).Attributed := by
  cases a with
  | rateLimit src pps burst victim =>
      refine h.at_source src (x := none) ?_ nofun ?_
      · intro a
        cases victim <;> exact Dict.lookup_erase_if src a c.rateLimited
      · intro v a hne ha
        exact (mem_sourcesOf_rollback pps burst).mpr
          ⟨ha, fun heq => hne heq.1⟩
  | block net => exact h
  | unblock net => exact h
  | clearRate src => exact h

/-- The sets a restart rebuilds are what the rows say. -/
theorem mem_sourcesOf_resumed (rows : List (XdpAction × XdpOrigin))
    (c : XdpController) (v src : IpAddr) :
    src ∈ (run (fun row c => c.markResumed row.1 row.2) c rows).sourcesOf v
      ↔ src ∈ c.sourcesOf v
        ∨ ∃ pps burst o, (.rateLimit src pps burst (some v), o) ∈ rows := by
  induction rows generalizing c with
  | nil => simp
  | cons row rows ih =>
      obtain ⟨a, o⟩ := row
      have hone : src ∈ (c.markResumed a o).sourcesOf v
          ↔ src ∈ c.sourcesOf v
            ∨ ∃ pps burst, a = .rateLimit src pps burst (some v) := by
        cases a with
        | rateLimit x pps burst victim =>
            cases victim with
            | none => exact ⟨.inl, fun h => h.elim id (by simp)⟩
            | some t =>
                refine mem_sourcesOf_noteSource.trans ?_
                rw [or_comm]
                refine or_congr Iff.rfl ?_
                simp only [XdpAction.rateLimit.injEq, Option.some.injEq]
                constructor
                · rintro ⟨rfl, rfl⟩
                  exact ⟨pps, burst, rfl, rfl, rfl, rfl⟩
                · rintro ⟨_, _, rfl, -, -, rfl⟩
                  exact ⟨rfl, rfl⟩
        | block net => exact ⟨.inl, fun h => h.elim id (by simp)⟩
        | unblock net => exact ⟨.inl, fun h => h.elim id (by simp)⟩
        | clearRate x => exact ⟨.inl, fun h => h.elim id (by simp)⟩
      rw [run_cons, ih, hone, or_assoc]
      refine or_congr Iff.rfl ?_
      constructor
      · rintro (⟨pps, burst, rfl⟩ | ⟨pps, burst, o', h⟩)
        · exact ⟨pps, burst, o, List.mem_cons_self⟩
        · exact ⟨pps, burst, o', List.mem_cons_of_mem _ h⟩
      · rintro ⟨pps, burst, o', h⟩
        rcases List.mem_cons.mp h with h | h
        · cases h
          exact .inl ⟨pps, burst, rfl⟩
        · exact .inr ⟨pps, burst, o', h⟩

/-- A restart attributes a source to the victim its entry records. -/
theorem mem_sourcesOf_rebuild (prefixes : List IpNet) (cap rate : Nat)
    (prot : List IpNet)
    {ordRate : IterOrder (Sigma fun _ : IpAddr => RateLimitEntry)}
    {ordBlock : IterOrder (Sigma fun _ : IpNet => XdpOrigin)} :
    src ∈ (rebuild prefixes cap rate prot
        (c.activeEntries ordRate ordBlock)).sourcesOf v
      ↔ ∃ e, c.rateLimited.lookup src = some e ∧ e.victim = some v := by
  rw [rebuild, mem_sourcesOf_resumed, sourcesOf_new]
  constructor
  · rintro (h | ⟨pps, burst, o, h⟩)
    · exact absurd h List.not_mem_nil
    · rcases List.mem_append.mp h with h | h
      · obtain ⟨⟨x, e⟩, he, heq⟩ := List.mem_map.mp h
        have he := Dict.mem_entries_iff.mp ((IterOrder.mem_iff _).mp he)
        simp only [Prod.mk.injEq, XdpAction.rateLimit.injEq] at heq
        obtain ⟨⟨rfl, -, -, hv⟩, -⟩ := heq
        exact ⟨e, he, hv⟩
      · obtain ⟨y, -, heq⟩ := List.mem_map.mp h
        cases heq
  · rintro ⟨e, he, hv⟩
    refine .inr ⟨e.pps, e.burst, e.origin, List.mem_append_left _ ?_⟩
    refine List.mem_map.mpr ⟨⟨src, e⟩, ?_, by rw [← hv]⟩
    exact (IterOrder.mem_iff _).mpr (Dict.mem_entries_iff.mpr he)

/-- A restart makes up no entry. -/
theorem lookup_rebuild (prefixes : List IpNet) (cap rate : Nat)
    (prot : List IpNet)
    {ordRate : IterOrder (Sigma fun _ : IpAddr => RateLimitEntry)}
    {ordBlock : IterOrder (Sigma fun _ : IpNet => XdpOrigin)}
    {e : RateLimitEntry}
    (he : (rebuild prefixes cap rate prot
        (c.activeEntries ordRate ordBlock)).rateLimited.lookup src
      = some e) :
    c.rateLimited.lookup src = some e := by
  suffices hall : ∀ x e, (rebuild prefixes cap rate prot
      (c.activeEntries ordRate ordBlock)).rateLimited.lookup x = some e →
        c.rateLimited.lookup x = some e from hall src e he
  refine run_invariant_mem (P := fun c' : XdpController => ∀ x e,
    c'.rateLimited.lookup x = some e → c.rateLimited.lookup x = some e)
    (c.activeEntries ordRate ordBlock) ?_ (fun _ _ h => by cases h)
  rintro c' ⟨a, o⟩ hrow ih x e hx
  rcases List.mem_append.mp hrow with hrow | hrow
  · obtain ⟨⟨y, e₀⟩, he₀, heq⟩ := List.mem_map.mp hrow
    have he₀ := Dict.mem_entries_iff.mp ((IterOrder.mem_iff _).mp he₀)
    cases heq
    have hins : (c'.rateLimited.insert y
        ⟨e₀.origin, e₀.pps, e₀.burst, e₀.victim⟩).lookup x = some e := by
      cases hv : e₀.victim <;> simpa [markResumed, noteSource, hv] using hx
    rw [Dict.lookup_insert_if] at hins
    split at hins
    · next heq =>
      cases hins
      exact heq ▸ he₀
    · exact ih x e hins
  · obtain ⟨y, -, heq⟩ := List.mem_map.mp hrow
    cases heq
    exact ih x e hx

/-- What a restart rebuilds agrees with itself. -/
theorem Attributed.rebuild (c : XdpController) (prefixes : List IpNet)
    (cap rate : Nat) (prot : List IpNet)
    (ordRate : IterOrder (Sigma fun _ : IpAddr => RateLimitEntry))
    (ordBlock : IterOrder (Sigma fun _ : IpNet => XdpOrigin)) :
    (XdpController.rebuild prefixes cap rate prot
      (c.activeEntries ordRate ordBlock)).Attributed := by
  intro x e v he _ hv
  refine (mem_sourcesOf_rebuild prefixes cap rate prot).mpr ⟨e, ?_, hv⟩
  exact lookup_rebuild prefixes cap rate prot he

end XdpController

namespace Staged

variable {s : Staged}

/-- A manual limit records no victim, and only a victim under attack has
sources. -/
structure Known (s : Staged) : Prop where
  unrecorded : ∀ src e, s.ctrl.rateLimited.lookup src = some e →
    e.origin = .manual → e.victim = none
  attacked : ∀ v src, src ∈ s.ctrl.sourcesOf v → s.attacked v = true

theorem Known.start (prefixes : List IpNet) (cap rate : Nat)
    (prot : List IpNet) :
    (start (.new prefixes cap rate prot)).Known where
  unrecorded := fun _ _ h => by cases h
  attacked := fun _ _ h => absurd h List.not_mem_nil

theorem Known.limits (h : s.Known) {d : Detection}
    {acts fresh : List XdpAction} {c' : XdpController}
    (hl : XdpController.Limits d.target s.ctrl acts c') :
    Known ⟨c', fresh, Function.update s.attacked d.target true⟩ where
  unrecorded := fun x e he hman => by
    cases hx : s.ctrl.rateLimited.lookup x with
    | none =>
        rw [(hl.added x e hx he).1] at hman
        cases hman
    | some e₀ =>
        cases (hl.kept x e₀ hx).symm.trans he
        exact h.unrecorded x e hx hman
  attacked := fun v x hx => by
    show Function.update s.attacked d.target true v = true
    rw [Function.update_apply]
    split
    · rfl
    · next hv =>
      rcases hl.noted v x hx with hx | ⟨hvt, -⟩
      · exact h.attacked v x hx
      · exact absurd hvt hv

theorem Known.clears (h : s.Known) {target : IpAddr}
    {acts fresh : List XdpAction} {c' : XdpController}
    (hc : XdpController.Clears target s.ctrl acts c') :
    Known ⟨c', fresh, Function.update s.attacked target false⟩ where
  unrecorded := fun x e he => h.unrecorded x e ((hc.lookup_iff x e).mp he).1
  attacked := fun v x hx => by
    rw [hc.sets] at hx
    split at hx
    · exact absurd hx List.not_mem_nil
    · next hv =>
      show Function.update s.attacked target false v = true
      rw [Function.update_of_ne hv]
      exact h.attacked v x hx

/-- A manual change of the limits, with no set grown. -/
theorem Known.shrink (h : s.Known) {c' : XdpController}
    {fresh : List XdpAction}
    (hr : ∀ x e, c'.rateLimited.lookup x = some e →
      s.ctrl.rateLimited.lookup x = some e ∨ e.victim = none)
    (hs : ∀ v x, x ∈ c'.sourcesOf v → x ∈ s.ctrl.sourcesOf v) :
    Known ⟨c', fresh, s.attacked⟩ where
  unrecorded := fun x e he hman => by
    rcases hr x e he with he | hnone
    · exact h.unrecorded x e he hman
    · exact hnone
  attacked := fun v x hx => h.attacked v x (hs v x hx)

theorem Known.erase (h : s.Known) (src : IpAddr) {c' : XdpController}
    {fresh : List XdpAction}
    (hr : c'.rateLimited = s.ctrl.rateLimited.erase src)
    (hs : ∀ v x, x ∈ c'.sourcesOf v → x ∈ s.ctrl.sourcesOf v) :
    Known ⟨c', fresh, s.attacked⟩ := by
  refine h.shrink (fun x e he => .inl ?_) hs
  rw [hr, Dict.lookup_erase_if] at he
  split at he
  · cases he
  · exact he

theorem Known.rollback (h : s.Known) (a : XdpAction)
    {fresh : List XdpAction} :
    Known ⟨s.ctrl.rollback a, fresh, s.attacked⟩ := by
  cases a with
  | rateLimit src pps burst victim =>
      refine h.erase src ?_ ?_
      · cases victim <;> rfl
      · exact fun v x hx =>
          ((XdpController.mem_sourcesOf_rollback pps burst).mp hx).1
  | block net => exact h.shrink (fun _ _ he => .inl he) fun _ _ hx => hx
  | unblock net => exact h.shrink (fun _ _ he => .inl he) fun _ _ hx => hx
  | clearRate src => exact h.shrink (fun _ _ he => .inl he) fun _ _ hx => hx

theorem Known.move (h : s.Known) (m : Move) : (s.move m).Known := by
  cases m with
  | onDetection ord ev =>
      cases ev with
      | opened d => exact h.limits (XdpController.handleDetection_limits d _)
      | updated d => exact h.limits (XdpController.handleDetection_limits d _)
      | cleared v atMs =>
          exact h.clears (XdpController.handleCleared_clears ord v s.ctrl)
  | manualBlock net =>
      show Known ⟨(s.ctrl.manualBlock net).2, _, s.attacked⟩
      refine h.shrink (fun x e he => .inl ?_) fun v x hx => ?_
      · unfold XdpController.manualBlock at he
        split at he
        · exact he
        · split at he <;> exact he
      · unfold XdpController.manualBlock at hx
        split at hx
        · exact hx
        · split at hx <;> exact hx
  | manualUnblock net =>
      exact h.shrink (fun _ _ he => .inl he) fun _ _ hx => hx
  | manualRateLimit src pps burst =>
      show Known ⟨(s.ctrl.manualRateLimit src pps burst).2, _, s.attacked⟩
      refine h.shrink (fun x e he => ?_) fun v x hx => ?_
      · unfold XdpController.manualRateLimit at he
        dsimp only at he
        split at he
        · exact .inl he
        · rw [Dict.lookup_insert_if] at he
          split at he
          · cases he
            exact .inr rfl
          · exact .inl he
      · unfold XdpController.manualRateLimit at hx
        dsimp only at hx
        split at hx <;> exact hx
  | manualClearRate src =>
      exact h.erase src rfl fun v x hx =>
        (XdpController.mem_sourcesOf_manualClearRate.mp hx).1
  | rollback a =>
      unfold Staged.move
      dsimp only
      split
      · exact h.rollback a
      · exact h

/-- With right records, the snapshot names victims under attack only. -/
theorem Known.snapshot (h : s.Known) (hattr : s.ctrl.Attributed)
    (prefixes : List IpNet) (cap rate : Nat) (prot : List IpNet)
    {ordRate : IterOrder (Sigma fun _ : IpAddr => RateLimitEntry)}
    {ordBlock : IterOrder (Sigma fun _ : IpNet => XdpOrigin)}
    {v src : IpAddr}
    (hmem : src ∈ (XdpController.rebuild prefixes cap rate prot
      (s.ctrl.activeEntries ordRate ordBlock)).sourcesOf v) :
    s.attacked v = true := by
  obtain ⟨e, he, hv⟩ :=
    (XdpController.mem_sourcesOf_rebuild prefixes cap rate prot).mp hmem
  refine h.attacked v src (hattr src e v he ?_ hv)
  cases ho : e.origin with
  | auto => rfl
  | manual =>
      rw [h.unrecorded src e he ho] at hv
      cases hv

theorem Known.turn (h : s.Known) (hattr : s.ctrl.Attributed) (t : Turn) :
    (s.turn t).Known := by
  cases t with
  | move m => exact h.move m
  | restart prefixes cap rate prot ordRate ordBlock =>
      refine ⟨fun x e he => ?_, fun v x hx => ?_⟩
      · exact h.unrecorded x e
          (XdpController.lookup_rebuild prefixes cap rate prot he)
      · exact h.snapshot hattr prefixes cap rate prot hx

end Staged

/-- A clear spares every source it leaves to other victims from recording
the cleared one. -/
def Move.Spares (s : Staged) : Move → Prop
  | .onDetection _ (.cleared v _) => ∀ src e,
      s.ctrl.rateLimited.lookup src = some e → e.origin = .auto →
        e.victim = some v → ∀ v', v' ≠ v → src ∉ s.ctrl.sourcesOf v'
  | _ => True

theorem attributed_move {s : Staged} (h : s.ctrl.Attributed) (m : Move) :
    (s.move m).ctrl.Attributed ↔ m.Spares s := by
  cases m with
  | onDetection ord ev =>
      cases ev with
      | opened d =>
          exact iff_of_true
            (h.limits (XdpController.handleDetection_limits d s.ctrl)) trivial
      | updated d =>
          exact iff_of_true
            (h.limits (XdpController.handleDetection_limits d s.ctrl)) trivial
      | cleared v atMs =>
          exact h.clears_iff (XdpController.handleCleared_clears ord v s.ctrl)
  | manualBlock net =>
      refine iff_of_true ?_ trivial
      show (s.ctrl.manualBlock net).2.Attributed
      unfold XdpController.manualBlock
      split
      · exact h
      · split <;> exact h
  | manualUnblock net => exact iff_of_true h trivial
  | manualRateLimit src pps burst =>
      exact iff_of_true (h.manualRateLimit src pps burst) trivial
  | manualClearRate src =>
      refine iff_of_true (h.at_source src (x := none)
        (fun a => Dict.lookup_erase_if src a s.ctrl.rateLimited) nofun
        fun v a hne ha => ?_) trivial
      exact XdpController.mem_sourcesOf_manualClearRate.mpr ⟨ha, hne⟩
  | rollback a =>
      refine iff_of_true ?_ trivial
      unfold Staged.move
      dsimp only
      split
      · exact h.rollback a
      · exact h

/-- The guard of a turn; a restart needs none. -/
def Turn.Spares (s : Staged) : Turn → Prop
  | .move m => m.Spares s
  | .restart .. => True

theorem attributed_turn {s : Staged} (h : s.ctrl.Attributed) (t : Turn) :
    (s.turn t).ctrl.Attributed ↔ t.Spares s := by
  cases t with
  | move m => exact attributed_move h m
  | restart prefixes cap rate prot ordRate ordBlock =>
      exact iff_of_true
        (.rebuild s.ctrl prefixes cap rate prot ordRate ordBlock) trivial

/-- The recorded victims are right, and a restart attributes sources to
victims under attack only. -/
def Staged.Recorded (s : Staged) : Prop :=
  s.ctrl.Attributed
    ∧ ∀ prefixes cap rate prot ordRate ordBlock v src,
      src ∈ (XdpController.rebuild prefixes cap rate prot
          (s.ctrl.activeEntries ordRate ordBlock)).sourcesOf v →
        s.attacked v = true

theorem Staged.Known.recorded {s : Staged} (h : s.Known)
    (hattr : s.ctrl.Attributed) : s.Recorded :=
  ⟨hattr, fun prefixes cap rate prot _ _ _ _ hmem =>
    h.snapshot hattr prefixes cap rate prot hmem⟩

/-- They are in every state of a run exactly when no clear of the run
leaves a source that records the cleared victim to another one. -/
theorem recorded_victims_iff (prefixes : List IpNet) (cap rate : Nat)
    (prot : List IpNet) (ts : List Turn) :
    (∀ n, (run Staged.turn (.start (.new prefixes cap rate prot))
        (ts.take n)).Recorded)
      ↔ Guarded Staged.turn (fun s t => t.Spares s)
        (.start (.new prefixes cap rate prot)) ts := by
  have hstart := Staged.Known.start prefixes cap rate prot
  refine run_take_iff_under (I := Staged.Known) ts ?_ ?_ hstart
    (hstart.recorded fun _ _ _ he => by cases he)
  · exact fun s t _ hknown hs _ => hknown.turn hs.1 t
  · intro s t _ hknown hs
    have hnext := hknown.turn hs.1 t
    rw [← attributed_turn hs.1 t]
    exact ⟨fun h => h.1, fun hattr => hnext.recorded hattr⟩

/-- A flood from one source. -/
def floodFrom (src target : IpAddr) : Detection where
  target := target
  kind := .volumetric
  observedPps := 0
  observedBps := 0
  proto := 17
  topSources := [(src, 0)]
  topPorts := []
  pops := []
  topSourceBlocks := []
  severity := .warning
  firstSeenMs := 0
  lastSeenMs := 0

/-- One source attacks two victims and the attack on the first one ends:
its limit still names that victim, and a restart believes it. -/
theorem cleared_victim_recorded :
    let prefixes : List IpNet := [.v4 ⟨0xCB007100, 24⟩]
    let src : IpAddr := .v4 0x01020304
    let v₁ : IpAddr := .v4 0xCB007107
    let v₂ : IpAddr := .v4 0xCB007108
    let s := run Staged.turn (.start (.new prefixes 100 1000 []))
      [.move (.onDetection (.stored _) (.opened (floodFrom src v₁))),
       .move (.onDetection (.stored _) (.opened (floodFrom src v₂))),
       .move (.onDetection (.stored _) (.cleared v₁ 1))]
    s.ctrl.rateLimited.lookup src = some ⟨.auto, 1000, 1000, some v₁⟩
      ∧ s.ctrl.sourcesOf v₁ = [] ∧ s.attacked v₁ = false
      ∧ src ∈ (XdpController.rebuild prefixes 100 1000 []
          (s.ctrl.activeEntries (.stored _) (.stored _))).sourcesOf v₁ := by
  decide

end Blackwall.XdpPlane
