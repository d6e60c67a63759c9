/-
The blocklist tries against the controller's blocked networks.

The controller identifies a block by the prefix as it was written, host
bits included; the tries by the network of the prefix. Two prefixes that
differ in host bits alone are two blocks to the controller and one key to
the kernel, and removing either removes the key. An unblock keeps the two
sides together exactly when no OTHER blocked prefix has its key.
-/
import Blackwall.XdpPlane.Dataplane
import Blackwall.XdpPlane.World

namespace Blackwall.XdpPlane

open Base

/-- `DataplaneMaps::block` inserts the key of a prefix,
`DataplaneMaps::unblock` removes it. -/
def trieStep (w : LpmKey → Bool) : Call × Bool → LpmKey → Bool
  | (.apply (.block net), true) => Function.update w (lpmKey net) true
  | (.apply (.unblock net), true) => Function.update w (lpmKey net) false
  | _ => w

/-- The keys in the `BLOCK_V4` and `BLOCK_V6` tries. -/
def tries (s : Sys) : LpmKey → Bool := s.view trieStep fun _ => false

/-- The keys in the tries are those of the blocked networks. -/
def BlocklistAgrees (s : Sys) : Prop :=
  ∀ key, tries s key = true
    ↔ ∃ net, s.mgr.controller.isBlocked net = true ∧ lpmKey net = key

/-- Is this a block or an unblock? -/
def Op.isBlocklist : Op → Bool
  | .applyAdd .. | .applyRemove .. => true
  | _ => false

/-- An unblock is made when no other blocked network has its key. -/
def NoAlias (s : Sys) : Op → Prop
  | .applyRemove net _ =>
      ∀ n, s.mgr.controller.isBlocked n = true → lpmKey n = lpmKey net →
        n = net
  | _ => True

-- =============================================================== one call

section Calls

variable {env : Outcomes Call}

theorem tries_mirror (op : MirrorOp) (s : Sys) :
    tries (mirror env op s) = tries s := by
  refine Mirror.Queue.write_view (fun w op b => ?_) op s
  cases op
  cases b <;> rfl

/-- An action that goes through: the maps get it, the controller stays,
the journal is the only other thing told. -/
theorem executeAndJournal_applied (a : XdpAction) (o : XdpOrigin)
    (wall : Nat) (fresh : Bool) {s : Sys}
    (hok : ∀ i a, env i (.apply a) = true)
    (harmed : s.mgr.disarmed = false) :
    (executeAndJournal env a o wall fresh s).1 = .applied
      ∧ (executeAndJournal env a o wall fresh s).2.mgr.controller
        = s.mgr.controller
      ∧ (executeAndJournal env a o wall fresh s).2.mgr.disarmed = false
      ∧ tries (executeAndJournal env a o wall fresh s).2
        = trieStep (tries s) (.apply a, true) := by
  have hdo : applyOnMaps env a fresh s
      = (.applied, s.call env (.apply a)) := by
    unfold applyOnMaps
    have h : s.outcome env (.apply a) = true := hok _ a
    simp only [harmed, h, Bool.false_and, Bool.false_eq_true, if_false,
      if_true]
  simp only [executeAndJournal, hdo]
  refine ⟨trivial, ?_, ?_, ?_⟩
  · exact Mirror.Queue.write_frame (f := XdpManager.controller)
      (fun _ _ => rfl) _ _
  · exact (Mirror.Queue.write_frame (f := XdpManager.disarmed)
      (fun _ _ => rfl) _ _).trans harmed
  · rw [tries_mirror]
    have h : s.outcome env (.apply a) = true := hok _ a
    rw [tries, Traced.view_call, h]
    rfl

end Calls

-- =============================================================== one step

/-- The blocked networks after a block and after an unblock. -/
theorem isBlocked_of_update {c c' : XdpController} {net : IpNet}
    {e : Option MapEntry}
    (h : c'.entryAt = Function.update c.entryAt (.net net) e) (n : IpNet) :
    c'.isBlocked n = if n = net then e.isSome else c.isBlocked n := by
  rw [XdpController.isBlocked_eq, XdpController.isBlocked_eq, h,
    Function.update_apply]
  by_cases hn : n = net
  · simp [hn]
  · simp [hn]

section Step

variable {env : Outcomes Call} (hok : ∀ i a, env i (.apply a) = true)
variable {s : Sys}

/-- A state of an armed manager whose tries agree. -/
def Aligned (s : Sys) : Prop :=
  s.mgr.disarmed = false ∧ BlocklistAgrees s

include hok in
/-- A block keeps the two sides together. -/
theorem Aligned.applyAdd {net : IpNet} {wall : Nat} (h : Aligned s) :
    Aligned (applyAdd env net wall s).2 := by
  cases applyAdd_installs env net wall s with
  | refused same out => rwa [same]
  | executed c x entry exec state out =>
      have hc : c.entryAt = Function.update s.mgr.controller.entryAt
          (.net net) (some .blocked) := entry
      rw [state, exec]
      obtain ⟨-, hctl, hdis, htrie⟩ := executeAndJournal_applied
        (.block net) .manual wall
        (!(s.mgr.controller.entryAt (mirrorKeyOf (.block net))).isSome) hok
        (show (s.update (.setController c)).mgr.disarmed = false from h.1)
      refine ⟨hdis, fun key => ?_⟩
      rw [htrie, hctl]
      change Function.update (tries s) (lpmKey net) true key = true
        ↔ ∃ n, c.isBlocked n = true ∧ lpmKey n = key
      simp only [isBlocked_of_update hc]
      by_cases hkey : key = lpmKey net
      · rw [hkey, Function.update_self]
        exact iff_of_true rfl ⟨net, by simp, rfl⟩
      · rw [Function.update_of_ne hkey, h.2 key]
        refine exists_congr fun n => ?_
        by_cases hn : n = net
        · subst hn
          simp [Ne.symm hkey]
        · simp [hn]

include hok in
/-- An unblock does so exactly when no other blocked network has its
key. -/
theorem Aligned.applyRemove {net : IpNet} {wall : Nat} (h : Aligned s) :
    Aligned (applyRemove env net wall s).2
      ↔ ∀ n, s.mgr.controller.isBlocked n = true →
        lpmKey n = lpmKey net → n = net := by
  have hc := XdpController.entryAt_manualUnblock net s.mgr.controller
  obtain ⟨-, hctl, hdis, htrie⟩ := executeAndJournal_applied
    (.unblock net) .manual wall false hok
    (show (s.update (.setController
      (s.mgr.controller.manualUnblock net).2)).mgr.disarmed = false
      from h.1)
  have hblocked : ∀ n,
      (s.mgr.controller.manualUnblock net).2.isBlocked n = true
        ↔ n ≠ net ∧ s.mgr.controller.isBlocked n = true := by
    intro n
    rw [isBlocked_of_update hc]
    by_cases hn : n = net <;> simp [hn]
  have hagree : Aligned (XdpPlane.applyRemove env net wall s).2
      ↔ ∀ key, Function.update (tries s) (lpmKey net) false key = true
        ↔ ∃ n, (n ≠ net ∧ s.mgr.controller.isBlocked n = true)
          ∧ lpmKey n = key := by
    unfold Aligned BlocklistAgrees
    refine (and_iff_right hdis).trans (forall_congr' fun key => ?_)
    have ht : tries (XdpPlane.applyRemove env net wall s).2
        = Function.update (tries s) (lpmKey net) false := htrie
    have hm : (XdpPlane.applyRemove env net wall s).2.mgr.controller
        = (s.mgr.controller.manualUnblock net).2 := hctl
    rw [ht, hm]
    exact iff_congr Iff.rfl (exists_congr fun n => by rw [hblocked])
  rw [hagree]
  constructor
  · -- the key is gone, so whoever else had it would be left without
    intro hall n hn hkey
    by_contra hne
    have := (hall (lpmKey net)).mpr ⟨n, ⟨hne, hn⟩, hkey⟩
    rw [Function.update_self] at this
    cases this
  · intro halone key
    by_cases hkey : key = lpmKey net
    · rw [hkey, Function.update_self]
      refine iff_of_false Bool.false_ne_true ?_
      rintro ⟨n, ⟨hne, hn⟩, hk⟩
      exact hne (halone n hn hk)
    · rw [Function.update_of_ne hkey, h.2 key]
      refine exists_congr fun n => ?_
      by_cases hn : n = net
      · subst hn
        simp [Ne.symm hkey]
      · simp [hn]

include hok in
theorem Aligned.step_iff {op : Op} (hop : op.isBlocklist = true)
    (h : Aligned s) : Aligned (step env op s) ↔ NoAlias s op := by
  cases op with
  | applyAdd net wall =>
      exact iff_of_true (h.applyAdd hok) trivial
  | applyRemove net wall => exact h.applyRemove hok
  | onDetection ord ev wall => cases hop
  | applyRateLimit src pps burst wall => cases hop
  | applyClearRate src wall => cases hop
  | tick => cases hop
  | disarm ordRate ordBlock => cases hop

end Step

-- ============================================================== agreement

/-- With every map write going through, the tries hold the keys of the
blocked networks in every state of a run of blocks and unblocks exactly
when each unblock is made with no other network of the same key
blocked. -/
theorem blocklist_agrees_iff (env : Outcomes Call)
    (hok : ∀ i a, env i (.apply a) = true) (prefixes : List IpNet)
    (cap rate : Nat) (prot : List IpNet) (ops : List Op)
    (hops : ∀ op ∈ ops, op.isBlocklist = true) :
    (∀ n, BlocklistAgrees (run (step env)
        (start (XdpController.new prefixes cap rate prot)) (ops.take n)))
      ↔ Guarded (step env) NoAlias
        (start (XdpController.new prefixes cap rate prot)) ops := by
  have hstart : Aligned
      (start (XdpController.new prefixes cap rate prot)) := by
    refine ⟨rfl, fun key => iff_of_false Bool.false_ne_true ?_⟩
    rintro ⟨net, hnet, -⟩
    rw [XdpController.isBlocked_eq] at hnet
    simp [start, XdpManager.new, XdpController.entryAt_new] at hnet
  have harmed : ∀ n, (run (step env)
      (start (XdpController.new prefixes cap rate prot))
      (ops.take n)).mgr.disarmed = false := by
    intro n
    refine run_invariant_mem (P := fun s : Sys => s.mgr.disarmed = false) _
      (fun s op hop hs => ?_) rfl
    have hblock := hops op (List.mem_of_mem_take hop)
    refine (step_disarmed env ?_ s).trans hs
    cases op <;> first | rfl | cases hblock
  rw [← run_take_iff (P := Aligned) ops
    (fun s op hop hs => hs.step_iff hok (hops op hop)) hstart]
  exact forall_congr' fun n => (and_iff_right (harmed n)).symm

/-- `10.0.0.5/24`: a prefix written with host bits. -/
def hostBitsNet : IpNet := .v4 (.slash 0x0A000005 24)

/-- `10.0.0.6/24`: the same network. -/
def sameNetwork : IpNet := .v4 (.slash 0x0A000006 24)

/-- A prefix blocked and unblocked as it was written. -/
theorem blocklist_agrees_iff_alone :
    (∀ n, BlocklistAgrees (run (step fun _ _ => true)
        (start (XdpController.new [] 8 100 []))
        ([.applyAdd hostBitsNet 0, .applyRemove hostBitsNet 1].take n)))
      ↔ Guarded (step fun _ _ => true) NoAlias
        (start (XdpController.new [] 8 100 []))
        [.applyAdd hostBitsNet 0, .applyRemove hostBitsNet 1] :=
  blocklist_agrees_iff (fun _ _ => true) (fun _ _ => rfl) [] 8 100 []
    [.applyAdd hostBitsNet 0, .applyRemove hostBitsNet 1] (by decide)

/-- Unblocking one of two spellings of a network takes the key both share
out of the trie; the other stays blocked in the controller only. -/
theorem unblock_drops_other_spelling :
    ¬ BlocklistAgrees (run (step fun _ _ => true)
      (start (XdpController.new [] 8 100 []))
      [.applyAdd hostBitsNet 0, .applyAdd sameNetwork 1,
        .applyRemove sameNetwork 2]) := by
  intro h
  have hkey := (h (lpmKey hostBitsNet)).mpr ⟨hostBitsNet, by decide, rfl⟩
  exact absurd hkey (by decide)

end Blackwall.XdpPlane
