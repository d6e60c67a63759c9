/-
What the XDP manager's calls mean to the eBPF maps, and what the
controller's transitions mean for the entries it holds.

Both sides are read through one key, the identity of an entry
(`MirrorKey`): `maps` is the entry the executor's successful calls left
under a key, `entryAt` the one the controller wants there. Each
transition is summarised by what it does to `entryAt`, which is all the
proofs above this file use of it.
-/
import Mathlib.Logic.Function.Basic
import Blackwall.XdpPlane.Manager

namespace Blackwall.XdpPlane

open Base
open Blackwall.Flow (Detection DetectionEvent)

/-- What a map holds under a key: a blocklist mark, or a limit. -/
inductive MapEntry
  | blocked
  | limited (pps burst : Nat)
  deriving DecidableEq, Repr

/-- What a successful action leaves under its key. -/
def XdpAction.entry : XdpAction → Option MapEntry
  | .rateLimit _ pps burst _ => some (.limited pps burst)
  | .block _ => some .blocked
  | .unblock _ | .clearRate _ => none

theorem XdpAction.entry_isSome (a : XdpAction) :
    a.entry.isSome = a.isInstall := by
  cases a <;> rfl

/-- The active entry an action leaves under its key. -/
def XdpAction.held (a : XdpAction) (o : XdpOrigin) :
    Option (XdpAction × XdpOrigin) :=
  if a.isInstall then some (a, o) else none

theorem XdpAction.held_entry (a : XdpAction) (o : XdpOrigin) :
    (a.held o).bind (·.1.entry) = a.entry := by
  cases a <;> rfl

/-- A successful call writes or deletes the entry of its net or source, a
failed one changes nothing. -/
def mapsStep (w : MirrorKey → Option MapEntry) :
    Call × Bool → MirrorKey → Option MapEntry
  | (.apply a, true) => Function.update w (mirrorKeyOf a) a.entry
  | _ => w

/-- The BLOCK and RATE maps. -/
def maps (s : Sys) : MirrorKey → Option MapEntry :=
  s.view mapsStep fun _ => none

namespace XdpController

/-- The entry the controller holds under a key. -/
def entryAt (c : XdpController) : MirrorKey → Option MapEntry
  | .src a => (c.rateLimited.lookup a).map fun e => .limited e.pps e.burst
  | .net n => (c.blockedNets.lookup n).map fun _ => .blocked

/-- The same with everything `active_entries` lists of it. -/
def heldAt (c : XdpController) :
    MirrorKey → Option (XdpAction × XdpOrigin)
  | .src a => (c.rateLimited.lookup a).map fun e =>
      (.rateLimit a e.pps e.burst e.victim, e.origin)
  | .net n => (c.blockedNets.lookup n).map fun o => (.block n, o)

theorem entryAt_eq (c : XdpController) (k : MirrorKey) :
    c.entryAt k = (c.heldAt k).bind (·.1.entry) := by
  cases k with
  | src a =>
      rw [entryAt, heldAt]
      cases c.rateLimited.lookup a <;> rfl
  | net n =>
      rw [entryAt, heldAt]
      cases c.blockedNets.lookup n <;> rfl

theorem isBlocked_eq (net : IpNet) (c : XdpController) :
    c.isBlocked net = (c.entryAt (.net net)).isSome := by
  simp [isBlocked, entryAt]

theorem isRateLimited_eq (src : IpAddr) (c : XdpController) :
    c.isRateLimited src = (c.entryAt (.src src)).isSome := by
  simp [isRateLimited, entryAt]

theorem entryAt_new (prefixes : List IpNet) (cap rate : Nat)
    (prot : List IpNet) :
    (new prefixes cap rate prot).entryAt = fun _ => none := by
  funext k
  cases k <;> rfl

-- ================================================ one entry at a time

/-- What changes one entry changes what the maps should hold there. -/
theorem entryAt_update {c c' : XdpController} {k : MirrorKey}
    {x : Option (XdpAction × XdpOrigin)}
    (h : c'.heldAt = Function.update c.heldAt k x) :
    c'.entryAt = Function.update c.entryAt k (x.bind (·.1.entry)) := by
  funext k'
  rw [entryAt_eq, h, Function.update_apply, Function.update_apply]
  split
  · rfl
  · exact (entryAt_eq c k').symm

/-- The entries follow the RATE map at one source. -/
theorem heldAt_source {c c' : XdpController} {src : IpAddr}
    {x : Option RateLimitEntry}
    (hr : ∀ a, c'.rateLimited.lookup a
      = if a = src then x else c.rateLimited.lookup a)
    (hb : c'.blockedNets = c.blockedNets) :
    c'.heldAt = Function.update c.heldAt (.src src)
      (x.map fun e =>
        (.rateLimit src e.pps e.burst e.victim, e.origin)) := by
  funext k
  cases k with
  | src a =>
      rw [heldAt, hr, Function.update_apply]
      by_cases ha : a = src
      · simp [ha]
      · simp [ha, heldAt]
  | net n =>
      rw [Function.update_of_ne (by simp), heldAt, heldAt, hb]

/-- The entries follow the BLOCK map at one network. -/
theorem heldAt_network {c c' : XdpController} {net : IpNet}
    {x : Option XdpOrigin}
    (hb : ∀ n, c'.blockedNets.lookup n
      = if n = net then x else c.blockedNets.lookup n)
    (hr : c'.rateLimited = c.rateLimited) :
    c'.heldAt = Function.update c.heldAt (.net net)
      (x.map fun o => (.block net, o)) := by
  funext k
  cases k with
  | src a =>
      rw [Function.update_of_ne (by simp), heldAt, heldAt, hr]
  | net n =>
      rw [heldAt, hb, Function.update_apply]
      by_cases hn : n = net
      · simp [hn]
      · simp [hn, heldAt]

theorem heldAt_limit {c c' : XdpController} {src : IpAddr}
    {e : RateLimitEntry}
    (hr : c'.rateLimited = c.rateLimited.insert src e)
    (hb : c'.blockedNets = c.blockedNets) :
    c'.heldAt = Function.update c.heldAt (.src src)
      (some (.rateLimit src e.pps e.burst e.victim, e.origin)) :=
  heldAt_source (x := some e)
    (fun a => by rw [hr, Dict.lookup_insert_if]) hb

theorem heldAt_unlimit {c c' : XdpController} {src : IpAddr}
    (hr : c'.rateLimited = c.rateLimited.erase src)
    (hb : c'.blockedNets = c.blockedNets) :
    c'.heldAt = Function.update c.heldAt (.src src) none :=
  heldAt_source (x := none)
    (fun a => by rw [hr, Dict.lookup_erase_if]) hb

theorem heldAt_block {c c' : XdpController} {net : IpNet} {o : XdpOrigin}
    (hb : c'.blockedNets = c.blockedNets.insert net o)
    (hr : c'.rateLimited = c.rateLimited) :
    c'.heldAt = Function.update c.heldAt (.net net)
      (some (.block net, o)) :=
  heldAt_network (x := some o)
    (fun n => by rw [hb, Dict.lookup_insert_if]) hr

theorem heldAt_unblock {c c' : XdpController} {net : IpNet}
    (hb : c'.blockedNets = c.blockedNets.erase net)
    (hr : c'.rateLimited = c.rateLimited) :
    c'.heldAt = Function.update c.heldAt (.net net) none :=
  heldAt_network (x := none)
    (fun n => by rw [hb, Dict.lookup_erase_if]) hr

-- ================================================= manual transitions

/-- `manual_block` refuses and changes nothing, or puts the block in. -/
theorem manualBlock_cases (net : IpNet) (c : XdpController) :
    (∃ e, c.manualBlock net = (.error e, c))
      ∨ ∃ c', c.manualBlock net = (.ok (.block net), c')
        ∧ c'.heldAt = Function.update c.heldAt (.net net)
          (some (.block net, .manual)) := by
  unfold manualBlock
  split
  · exact .inl ⟨_, rfl⟩
  · split
    · exact .inl ⟨_, rfl⟩
    · exact .inr ⟨_, rfl, heldAt_block rfl rfl⟩

theorem manualRateLimit_cases (src : IpAddr) (pps burst : Nat)
    (c : XdpController) :
    (∃ e, c.manualRateLimit src pps burst = (.error e, c))
      ∨ ∃ c', c.manualRateLimit src pps burst
          = (.ok (.rateLimit src pps burst none), c')
        ∧ c'.heldAt = Function.update c.heldAt (.src src)
          (some (.rateLimit src pps burst none, .manual)) := by
  unfold manualRateLimit
  split
  · exact .inl ⟨_, rfl⟩
  · refine .inr ⟨_, rfl, ?_⟩
    exact heldAt_limit (e := ⟨.manual, pps, burst, none⟩) rfl rfl

theorem heldAt_manualUnblock (net : IpNet) (c : XdpController) :
    (c.manualUnblock net).2.heldAt
      = Function.update c.heldAt (.net net) none :=
  heldAt_unblock rfl rfl

theorem heldAt_manualClearRate (src : IpAddr) (c : XdpController) :
    (c.manualClearRate src).2.heldAt
      = Function.update c.heldAt (.src src) none :=
  heldAt_unlimit rfl rfl

theorem entryAt_manualUnblock (net : IpNet) (c : XdpController) :
    (c.manualUnblock net).2.entryAt
      = Function.update c.entryAt (.net net) none :=
  entryAt_update (heldAt_manualUnblock net c)

theorem entryAt_manualClearRate (src : IpAddr) (c : XdpController) :
    (c.manualClearRate src).2.entryAt
      = Function.update c.entryAt (.src src) none :=
  entryAt_update (heldAt_manualClearRate src c)

theorem heldAt_rollback {a : XdpAction} (h : a.isInstall = true)
    (c : XdpController) :
    (c.rollback a).heldAt
      = Function.update c.heldAt (mirrorKeyOf a) none := by
  cases a with
  | rateLimit src pps burst victim =>
      cases victim <;> exact heldAt_unlimit rfl rfl
  | block net => exact heldAt_unblock rfl rfl
  | unblock net => cases h
  | clearRate src => cases h

/-- Rolling an install back deletes its entry. -/
theorem entryAt_rollback {a : XdpAction} (h : a.isInstall = true)
    (c : XdpController) :
    (c.rollback a).entryAt
      = Function.update c.entryAt (mirrorKeyOf a) none :=
  entryAt_update (heldAt_rollback h c)

/-- There is nothing to roll back of a removal. -/
theorem rollback_removal {a : XdpAction} (h : a.isInstall = false)
    (c : XdpController) : c.rollback a = c := by
  cases a with
  | rateLimit src pps burst victim => cases h
  | block net => cases h
  | unblock net => rfl
  | clearRate src => rfl

-- =================================================== auto transitions

/-- What the actions of one transition say about its effect: each is
about a key of its own, the key then holds what the action writes, and
every other key holds what it held. An install is of a key that was
empty. -/
structure Hands (c : XdpController) (acts : List XdpAction)
    (c' : XdpController) : Prop where
  nodup : (acts.map mirrorKeyOf).Nodup
  other : ∀ k, k ∉ acts.map mirrorKeyOf → c'.entryAt k = c.entryAt k
  handed : ∀ a ∈ acts, c'.entryAt (mirrorKeyOf a) = a.entry
  fresh : ∀ a ∈ acts, a.isInstall = true →
    c.entryAt (mirrorKeyOf a) = none

/-- The same of the entries with their origins. -/
structure Posts (c : XdpController) (acts : List XdpAction)
    (c' : XdpController) : Prop where
  nodup : (acts.map mirrorKeyOf).Nodup
  other : ∀ k, k ∉ acts.map mirrorKeyOf → c'.heldAt k = c.heldAt k
  handed : ∀ a ∈ acts, c'.heldAt (mirrorKeyOf a) = a.held .auto
  fresh : ∀ a ∈ acts, a.isInstall = true →
    c.heldAt (mirrorKeyOf a) = none

theorem Posts.hands {c c' : XdpController} {acts : List XdpAction}
    (h : Posts c acts c') : Hands c acts c' := by
  refine ⟨h.nodup, fun k hk => ?_, fun a ha => ?_, fun a ha hi => ?_⟩
  · rw [entryAt_eq, entryAt_eq, h.other k hk]
  · rw [entryAt_eq, h.handed a ha, XdpAction.held_entry]
  · rw [entryAt_eq, h.fresh a ha hi]
    rfl

theorem Posts.nil {c c' : XdpController} (h : c'.heldAt = c.heldAt) :
    Posts c [] c' := by
  refine ⟨List.nodup_nil, fun k _ => congrFun h k, ?_, ?_⟩
  · intro a ha
    exact absurd ha List.not_mem_nil
  · intro a ha
    exact absurd ha List.not_mem_nil

/-- `Posts` reads the controller before through its entries. -/
theorem Posts.congr {c c₁ c' : XdpController} {acts : List XdpAction}
    (h : Posts c₁ acts c') (he : c₁.heldAt = c.heldAt) :
    Posts c acts c' := by
  refine ⟨h.nodup, ?_, h.handed, ?_⟩
  · rw [← he]
    exact h.other
  · rw [← he]
    exact h.fresh

/-- One more action in front, about a key the rest does not touch. -/
theorem Posts.cons {c c₁ c' : XdpController} {a : XdpAction}
    {acts : List XdpAction} (h : Posts c₁ acts c')
    (h₁ : c₁.heldAt
      = Function.update c.heldAt (mirrorKeyOf a) (a.held .auto))
    (hfresh : a.isInstall = true → c.heldAt (mirrorKeyOf a) = none)
    (hnew : mirrorKeyOf a ∉ acts.map mirrorKeyOf) :
    Posts c (a :: acts) c' := by
  have hne : ∀ b ∈ acts, mirrorKeyOf b ≠ mirrorKeyOf a := by
    intro b hb he
    exact hnew (he ▸ List.mem_map_of_mem hb)
  refine ⟨?_, fun k hk => ?_, fun b hb => ?_, fun b hb hi => ?_⟩
  · rw [List.map_cons, List.nodup_cons]
    exact ⟨hnew, h.nodup⟩
  · rw [List.map_cons, List.mem_cons, not_or] at hk
    rw [h.other k hk.2, h₁, Function.update_of_ne hk.1]
  · rcases List.mem_cons.mp hb with rfl | hb
    · rw [h.other _ hnew, h₁, Function.update_self]
    · exact h.handed b hb
  · rcases List.mem_cons.mp hb with rfl | hb
    · exact hfresh hi
    · have := h.fresh b hb hi
      rwa [h₁, Function.update_of_ne (hne b hb)] at this

theorem heldAt_noteSource (target src : IpAddr) (c : XdpController) :
    (c.noteSource target src).heldAt = c.heldAt := by
  funext k
  cases k <;> rfl

/-- The installs of a detection: new sources only, and each at most
once. -/
theorem limitSources_posts (target : IpAddr) (srcs : List IpAddr)
    (c : XdpController) :
    Posts c (limitSources target srcs c).1 (limitSources target srcs c).2
      ∧ ∀ a ∈ (limitSources target srcs c).1, a.isInstall = true := by
  induction srcs generalizing c with
  | nil => exact ⟨.nil rfl, by simp [limitSources]⟩
  | cons src srcs ih =>
      unfold limitSources
      split
      · -- already limited: only the victim's set changes
        obtain ⟨hh, hi⟩ := ih (c.noteSource target src)
        exact ⟨hh.congr (heldAt_noteSource target src c), hi⟩
      · next hnew =>
        split
        · exact ⟨.nil rfl, by simp⟩
        · let entry : RateLimitEntry :=
            ⟨.auto, c.defaultRatePps, c.defaultRatePps, some target⟩
          let c₁ : XdpController :=
            { c with rateLimited := c.rateLimited.insert src entry }
          have h₁ : (c₁.noteSource target src).heldAt
              = Function.update c.heldAt (.src src)
                (some (.rateLimit src c.defaultRatePps c.defaultRatePps
                  (some target), .auto)) := by
            rw [heldAt_noteSource]
            exact heldAt_limit (e := entry) rfl rfl
          obtain ⟨hh, hi⟩ := ih (c₁.noteSource target src)
          refine ⟨hh.cons h₁ (fun _ => ?_) fun hmem => ?_, ?_⟩
          · rw [isRateLimited, Option.not_isSome_iff_eq_none] at hnew
            rw [mirrorKeyOf, heldAt, hnew]
            rfl
          · -- the source is taken by now, and the rest takes free ones
            obtain ⟨b, hb, hkey⟩ := List.mem_map.mp hmem
            have hfree := hh.fresh b hb (hi b hb)
            rw [hkey, h₁] at hfree
            simp [mirrorKeyOf] at hfree
          · intro a ha
            rcases List.mem_cons.mp ha with rfl | ha
            · rfl
            · exact hi a ha

/-- One source of a clear: a removal of its limit, or nothing. -/
theorem clearSource_cases (src : IpAddr) (c : XdpController) :
    c.clearSource src = ([], c)
      ∨ ∃ c', c.clearSource src = ([.clearRate src], c')
        ∧ c.heldAt (.src src) ≠ none
        ∧ c'.heldAt = Function.update c.heldAt (.src src) none := by
  unfold clearSource
  split
  · exact .inl rfl
  · split
    · next e he =>
      split
      · refine .inr ⟨_, rfl, ?_, heldAt_unlimit rfl rfl⟩
        simp [heldAt, he]
      · exact .inl rfl
    · exact .inl rfl

/-- The removals of a clear: each of a source that was limited. -/
theorem collect_clearSource_posts (srcs : List IpAddr)
    (c : XdpController) :
    Posts c (collect clearSource srcs c).1 (collect clearSource srcs c).2
      ∧ ∀ a ∈ (collect clearSource srcs c).1, a.isInstall = false
        ∧ c.heldAt (mirrorKeyOf a) ≠ none := by
  induction srcs generalizing c with
  | nil => exact ⟨.nil rfl, by simp [collect]⟩
  | cons src srcs ih =>
      rcases clearSource_cases src c with hc | ⟨c₁, hc, hheld, h₁⟩
      · simp only [collect, hc, List.nil_append]
        exact ih c
      · simp only [collect, hc, List.singleton_append]
        obtain ⟨hh, hi⟩ := ih c₁
        refine ⟨hh.cons h₁ (by simp [XdpAction.isInstall]) fun hmem => ?_, ?_⟩
        · -- the rest removes what is still limited, and this is not
          obtain ⟨b, hb, hkey⟩ := List.mem_map.mp hmem
          refine (hi b hb).2 ?_
          rw [hkey, h₁]
          exact Function.update_self ..
        · intro a ha
          rcases List.mem_cons.mp ha with rfl | ha
          · exact ⟨rfl, hheld⟩
          · refine ⟨(hi a ha).1, fun hnone => (hi a ha).2 ?_⟩
            rw [h₁, Function.update_apply]
            split
            · rfl
            · exact hnone

theorem onDetection_posts (ord : IterOrder IpAddr) (ev : DetectionEvent)
    (c : XdpController) :
    Posts c (c.onDetection ord ev).1 (c.onDetection ord ev).2 := by
  have hdet : ∀ d : Detection,
      Posts c (c.handleDetection d).1 (c.handleDetection d).2 := by
    intro d
    unfold handleDetection
    split
    · refine .nil ?_
      funext k
      cases k <;> rfl
    · split
      · exact .nil rfl
      · exact (limitSources_posts _ _ c).1
  cases ev with
  | opened d => exact hdet d
  | updated d => exact hdet d
  | cleared target atMs =>
      change Posts c (c.handleCleared ord target).1
        (c.handleCleared ord target).2
      unfold handleCleared
      split
      · exact .nil rfl
      · refine (collect_clearSource_posts _ _).1.congr ?_
        funext k
        cases k <;> rfl

theorem onDetection_hands (ord : IterOrder IpAddr) (ev : DetectionEvent)
    (c : XdpController) :
    Hands c (c.onDetection ord ev).1 (c.onDetection ord ev).2 :=
  (onDetection_posts ord ev c).hands

end XdpController

-- ============================================ the manual entry points

section Manual

variable (env : Outcomes Call)

/-- What a manual install of `a` comes to: refused with nothing changed,
or executed on a controller that holds its entry by then. -/
inductive Installs (a : XdpAction) (wall : Nat) (s : Sys)
    (r : ApplyOutcome × Sys) : Prop
  | refused (same : r.2 = s) (out : r.1 ≠ .applied)
  | executed (c : XdpController) (x : ExecOutcome × Sys)
      (entry : c.entryAt = Function.update s.mgr.controller.entryAt
        (mirrorKeyOf a) a.entry)
      (exec : x = executeAndJournal env a .manual wall
        (!(s.mgr.controller.entryAt (mirrorKeyOf a)).isSome)
        (s.update (.setController c)))
      (state : r.2 = x.2) (out : r.1 = .applied ↔ x.1 = .applied)

theorem applyAdd_installs (net : IpNet) (wall : Nat) (s : Sys) :
    Installs env (.block net) wall s (applyAdd env net wall s) := by
  unfold applyAdd
  rcases XdpController.manualBlock_cases net s.mgr.controller with
    ⟨e, he⟩ | ⟨c, hok, hc⟩
  · simp only [he]
    split <;> exact .refused rfl (by simp)
  · have hentry := XdpController.entryAt_update hc
    simp only [hok, XdpController.isBlocked_eq]
    split <;>
      (next heq => exact .executed c _ hentry heq.symm rfl (by simp))

theorem applyRateLimit_installs (src : IpAddr) (pps burst wall : Nat)
    (s : Sys) :
    Installs env (.rateLimit src pps burst none) wall s
      (applyRateLimit env src pps burst wall s) := by
  unfold applyRateLimit
  rcases XdpController.manualRateLimit_cases src pps burst
    s.mgr.controller with ⟨e, he⟩ | ⟨c, hok, hc⟩
  · simp only [he]
    exact .refused rfl (by simp)
  · have hentry := XdpController.entryAt_update hc
    simp only [hok, XdpController.isRateLimited_eq]
    split <;>
      (next heq => exact .executed c _ hentry heq.symm rfl (by simp))

/-- Whatever it reports, `apply_add` leaves what the execute path leaves,
or the refusing controller. -/
theorem applyAdd_state (net : IpNet) (wall : Nat) (s : Sys) :
    (applyAdd env net wall s).2
      = match s.mgr.controller.manualBlock net with
        | (.ok a, c) => (executeAndJournal env a .manual wall
            (!s.mgr.controller.isBlocked net)
            (s.update (.setController c))).2
        | (.error _, c) => s.update (.setController c) := by
  unfold applyAdd
  obtain ⟨refusal | a, c⟩ := s.mgr.controller.manualBlock net
  · simp only
    split <;> rfl
  · simp only
    split <;> (next heq => rw [heq])

theorem applyRateLimit_state (src : IpAddr) (pps burst wall : Nat)
    (s : Sys) :
    (applyRateLimit env src pps burst wall s).2
      = match s.mgr.controller.manualRateLimit src pps burst with
        | (.ok a, c) => (executeAndJournal env a .manual wall
            (!s.mgr.controller.isRateLimited src)
            (s.update (.setController c))).2
        | (.error _, c) => s.update (.setController c) := by
  unfold applyRateLimit
  obtain ⟨refusal | a, c⟩ := s.mgr.controller.manualRateLimit src pps burst
  · rfl
  · simp only
    split <;> (next heq => rw [heq])

/-- The execute path leaves the kill switch alone. -/
theorem executeAndJournal_disarmed (a : XdpAction) (o : XdpOrigin)
    (wall : Nat) (fresh : Bool) (s : Sys) :
    (executeAndJournal env a o wall fresh s).2.mgr.disarmed
      = s.mgr.disarmed := by
  have hmaps : (applyOnMaps env a fresh s).2.mgr.disarmed
      = s.mgr.disarmed := by
    unfold applyOnMaps
    repeat' split
    all_goals rfl
  unfold executeAndJournal
  split
  · next s' heq =>
    rw [heq] at hmaps
    exact (Mirror.Queue.write_frame (f := XdpManager.disarmed)
      (fun _ _ => rfl) _ s').trans hmaps
  · next heq =>
    rw [heq] at hmaps
    exact hmaps

theorem Installs.disarmed {a : XdpAction} {wall : Nat} {s : Sys}
    {r : ApplyOutcome × Sys} (h : Installs env a wall s r) :
    r.2.mgr.disarmed = s.mgr.disarmed := by
  cases h with
  | refused same out => rw [same]
  | executed c x entry exec state out =>
      rw [state, exec, executeAndJournal_disarmed]
      rfl

theorem retryPendingReapply_disarmed (s : Sys) :
    (retryPendingReapply env s).mgr.disarmed = s.mgr.disarmed := by
  refine run_invariant (P := fun s' : Sys =>
    s'.mgr.disarmed = s.mgr.disarmed) (fun s' op h => ?_) _ rfl
  unfold retryReapply
  simp only
  repeat' split
  all_goals exact h

/-- Nothing but `disarm` throws the switch. -/
theorem step_disarmed {op : Op} (hop : op.isArmed = true) (s : Sys) :
    (step env op s).mgr.disarmed = s.mgr.disarmed := by
  cases op with
  | onDetection ord ev wall =>
      refine run_invariant (P := fun s' : Sys =>
        s'.mgr.disarmed = s.mgr.disarmed) (fun s' a h => ?_) _ rfl
      exact (executeAndJournal_disarmed ..).trans h
  | applyAdd net wall => exact (applyAdd_installs env net wall s).disarmed
  | applyRemove net wall => exact executeAndJournal_disarmed ..
  | applyRateLimit src pps burst wall =>
      exact (applyRateLimit_installs env src pps burst wall s).disarmed
  | applyClearRate src wall => exact executeAndJournal_disarmed ..
  | tick =>
      exact (retryPendingReapply_disarmed env _).trans
        (Mirror.Queue.retryAll_frame (f := XdpManager.disarmed)
          (fun _ _ => rfl) s)
  | disarm ordRate ordBlock => cases hop

end Manual

end Blackwall.XdpPlane
