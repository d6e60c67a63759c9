/-
What a frame looks like when the SYN-ACK paths give up.

`try_synack_v4` and `try_synack_v6` check the fixed TCP header against the
end of the frame and compare the IP header's length with the data offset,
but neither with the end of the frame. An answerable SYN cut off inside
its options is therefore rewritten up to them before the store that fails:
the packet goes on to `XDP_PASS` with swapped addresses and SYN-ACK flags.
In every other case a frame that is not answered is as it came.
-/
import Blackwall.Xdp.Proofs.Rewrite

namespace Blackwall.Xdp

open Base Fallible Cookie

-- ============================================= the gates touch no frame

theorem keeps_ktimeGetNs (env : Env) :
    Keeps (fun c : Ctx => c.frame) (ktimeGetNs env) := fun _ => rfl

theorem keeps_mintBudget (now : Nat) :
    Keeps (fun c : Ctx => c.frame) (mintBudget now) := by
  refine Keeps.bind (fun _ => rfl) fun ok => ?_
  cases ok with
  | true => exact Keeps.pure ()
  | false => exact Keeps.bind (fun _ => rfl) fun _ => Keeps.fail

section Gates

variable {γ : Type} {f : Ctx → γ} {env : Env}

/-- The gates only read, but for the clock and the budget. -/
theorem keeps_gateV4 (hclock : Keeps f (ktimeGetNs env))
    (hmint : ∀ now, Keeps f (mintBudget now)) : Keeps f (gateV4 env) :=
  (Keeps.reader (reads_ptrAt _ _)).bind fun _ =>
  (Keeps.reader (Reads.check _)).bind fun _ =>
  (Keeps.reader (reads_synHeader _)).bind fun tcp =>
  (Keeps.reader (reads_loadAddr4 _)).bind fun _ =>
  (Keeps.reader (reads_loadBe16 _)).bind fun _ =>
  (Keeps.reader (Reads.look _)).bind fun _ =>
  (Keeps.reader (Reads.check _)).bind fun _ =>
  (Keeps.reader (reads_headerChecks (doffOf_lt tcp))).bind fun _ =>
  (Keeps.reader (reads_loadAddr4 _)).bind fun _ =>
  (Keeps.reader (reads_loadBe16 _)).bind fun _ =>
  (Keeps.reader (reads_loadBe32 _)).bind fun _ =>
  (Keeps.reader (reads_parseMss _)).bind fun _ =>
  (Keeps.fetch _).bind fun _ =>
  hclock.bind fun _ => (hmint _).bind fun _ => Keeps.pure _

theorem keeps_computeCookieV6 (hclock : Keeps f (ktimeGetNs env))
    (k0 k1 : BitVec 64) : Keeps f (computeCookieV6 env k0 k1) :=
  hclock.bind fun _ =>
  (Keeps.reader (reads_ptrAt _ _)).bind fun _ =>
  (Keeps.reader (reads_ptrAt _ _)).bind fun _ =>
  (Keeps.reader (reads_loadBe16 _)).bind fun _ =>
  (Keeps.reader (reads_loadBe16 _)).bind fun _ =>
  (Keeps.reader (reads_parseMss _)).bind fun _ => Keeps.pure _

theorem keeps_gateV6 (hclock : Keeps f (ktimeGetNs env))
    (hmint : ∀ now, Keeps f (mintBudget now)) : Keeps f (gateV6 env) :=
  (Keeps.reader (reads_ptrAt _ _)).bind fun _ =>
  (Keeps.reader (Reads.check _)).bind fun _ =>
  (Keeps.reader (reads_synHeader _)).bind fun tcp =>
  (Keeps.reader (reads_loadBe16 _)).bind fun _ =>
  (Keeps.reader (Reads.look _)).bind fun _ =>
  (Keeps.reader (Reads.check _)).bind fun _ =>
  (Keeps.reader (reads_ptrAt _ _)).bind fun _ =>
  (Keeps.reader (Reads.check _)).bind fun _ =>
  (Keeps.reader (reads_headerChecks (doffOf_lt tcp))).bind fun _ =>
  (Keeps.reader (reads_loadBe16 _)).bind fun _ =>
  (Keeps.reader (reads_loadBe32 _)).bind fun _ =>
  (Keeps.fetch _).bind fun _ =>
  hclock.bind fun _ => (hmint _).bind fun _ =>
  (keeps_computeCookieV6 hclock _ _).bind fun _ => Keeps.pure _

end Gates

-- ==================================================== cut off in the options

/-- The frame ends before the TCP header its data offset claims. -/
def CutOff (l : Layout) (f : List Byte) : Prop :=
  f.length < l.tcp + doffAt l f * 4

instance (l : Layout) (f : List Byte) : Decidable (CutOff l f) :=
  inferInstanceAs (Decidable (_ < _))

variable {env : Env} {c : Ctx}

/-- The surgery on a SYN that is cut off gives up, and its flags say so. -/
theorem rewriteHeaders_cutOff {l : Layout} {s : Syn}
    (hsyn : IsSyn l c.frame) (hs : s.doff = doffAt l c.frame)
    (h6 : 6 ≤ doffAt l c.frame) (hcut : CutOff l c.frame) :
    (rewriteHeaders l s c).1 = none
      ∧ (rewriteHeaders l s c).2.frame ≠ c.frame := by
  have h15 := doffAt_lt l c.frame
  obtain ⟨hnone, hkeep⟩ := rewriteHeaders_short (s := s) (by omega)
    (by omega) hsyn.1 (by rw [hs]; exact hcut)
  refine ⟨hnone, fun heq => ?_⟩
  have hfit := (rewriteHeaders_eq (c := c) s hsyn.1).2
  have hapart : Apart (headerWrites l s c.frame) :=
    (apart_replyWrites s none 0 hsyn.1 (Or.inl rfl)).left.left.left
  have hflags : slice l.flags 1 c.frame = [tcpFlagsSynAck] := by
    have hput := hkeep l.flags 1 (by
      unfold Layout.flags Layout.opts
      omega)
    rw [heq] at hput
    exact hput.trans (slice_puts_eq rfl hfit hapart (by
      simp [headerWrites]))
  -- the SYN came with ACK clear, the reply has it set
  have hbyte : byteAt l.flags c.frame = tcpFlagsSynAck := by
    rw [slice_one_byteAt (by
      have := hsyn.1
      unfold Layout.flags
      omega)] at hflags
    exact List.singleton_inj.mp hflags
  have hack := hsyn.2.2
  rw [hbyte] at hack
  exact absurd hack (by decide)

/-- A SYN that the IPv4 gate lets through is answered if it is not cut
off, and else given up on with its headers rewritten. -/
theorem replyV4_answers {r : List Byte × List Byte × Syn} {c' : Ctx}
    (h : Returns (gateV4 env) c r c') (hcut : ¬ CutOff v4 c.frame) :
    (replyV4 r.1 r.2.1 r.2.2 c').1 = some .tx := by
  obtain ⟨hans, key, _, rfl, rfl⟩ := returns_gateV4.mp h
  have hfits := (replyV4_fits (c := c.charged env 1)
    (s := synAt v4 (clientCookie env v4 key (env.clock c.reads) c.frame)
      c.frame)
    hans.1.2.2.1 (doffAt_lt v4 c.frame) (Nat.le_of_not_lt hcut)).1
  exact congrArg Prod.fst hfits

theorem replyV4_cutOff {r : List Byte × List Byte × Syn} {c' : Ctx}
    (h : Returns (gateV4 env) c r c') (hcut : CutOff v4 c.frame) :
    (replyV4 r.1 r.2.1 r.2.2 c').1 = none
      ∧ (replyV4 r.1 r.2.1 r.2.2 c').2.frame ≠ c.frame := by
  obtain ⟨hans, key, _, rfl, rfl⟩ := returns_gateV4.mp h
  obtain ⟨hnone, hne⟩ := rewriteHeaders_cutOff (c := c.charged env 1)
    (s := synAt v4 (clientCookie env v4 key (env.clock c.reads) c.frame)
      c.frame)
    hans.1.1 rfl hans.1.2.2.1 hcut
  rw [replyV4, bind_of_none hnone]
  exact ⟨rfl, hne⟩

/-- The same over IPv6. -/
theorem replyV6_answers {s : Syn} {c' : Ctx}
    (h : Returns (gateV6 env) c s c') (hcut : ¬ CutOff v6 c.frame) :
    (replyV6 s c').1 = some .tx := by
  obtain ⟨hans, key, _, rfl, rfl⟩ := returns_gateV6.mp h
  have hfits := (replyV6_fits (c := c.charged env 2)
    (s := synAt v6 (clientCookie env v6 key (env.clock (c.reads + 1))
      c.frame) c.frame)
    hans.1.2.2.1 (doffAt_lt v6 c.frame) (Nat.le_of_not_lt hcut)).1
  exact congrArg Prod.fst hfits

theorem replyV6_cutOff {s : Syn} {c' : Ctx}
    (h : Returns (gateV6 env) c s c') (hcut : CutOff v6 c.frame) :
    (replyV6 s c').1 = none ∧ (replyV6 s c').2.frame ≠ c.frame := by
  obtain ⟨hans, key, _, rfl, rfl⟩ := returns_gateV6.mp h
  obtain ⟨hnone, hne⟩ := rewriteHeaders_cutOff (c := c.charged env 2)
    (s := synAt v6 (clientCookie env v6 key (env.clock (c.reads + 1))
      c.frame) c.frame)
    hans.1.1 rfl hans.1.2.2.1 hcut
  rw [replyV6, bind_of_none hnone]
  exact ⟨rfl, hne⟩

/-- Which frames the IPv4 path answers. -/
theorem trySynackV4_isSome_iff :
    (trySynackV4 env c).1.isSome = true
      ↔ AnswerableV4 env c ∧ ¬ CutOff v4 c.frame := by
  constructor
  · intro h
    obtain ⟨v, hv⟩ := Option.isSome_iff_exists.mp h
    have hret : Returns (trySynackV4 env) c v (trySynackV4 env c).2 :=
      Prod.ext hv rfl
    obtain ⟨r, c', hgate, hreply⟩ := returns_bind.mp hret
    refine ⟨gateV4_passes.mp ⟨r, c', hgate⟩, fun hcut => ?_⟩
    have hsome : (replyV4 r.1 r.2.1 r.2.2 c').1 = some v :=
      congrArg Prod.fst hreply
    cases (replyV4_cutOff hgate hcut).1.symm.trans hsome
  · rintro ⟨hans, hcut⟩
    obtain ⟨r, c', hgate⟩ := gateV4_passes.mpr hans
    rw [trySynackV4, bind_of_returns hgate]
    exact Option.isSome_iff_exists.mpr ⟨_, replyV4_answers hgate hcut⟩

/-- A gate that touches no frame, and a reply that gives up exactly when
the frame is cut off: giving up leaves the frame as it was unless the gate
let a cut-off frame through. -/
theorem bail_iff {α : Type} {gate : Prog α} {reply : α → Prog XdpAction}
    {A Cut : Prop} (hkeep : Keeps (fun c : Ctx => c.frame) gate)
    (hgate : (∃ r c', Returns gate c r c') ↔ A)
    (hfits : ∀ r c', Returns gate c r c' → ¬ Cut →
      (reply r c').1 ≠ none)
    (hcut : ∀ r c', Returns gate c r c' → Cut →
      (reply r c').1 = none ∧ (reply r c').2.frame ≠ c.frame) :
    (((gate >>= reply) c).1 = none →
        ((gate >>= reply) c).2.frame = c.frame)
      ↔ ¬ (A ∧ Cut) := by
  have hk := hkeep c
  rcases hg : gate c with ⟨_ | r, c'⟩
  · -- not let through
    rw [hg] at hk
    have hA : ¬ A := by
      rw [← hgate]
      rintro ⟨r, c'', hr⟩
      rw [Returns, hg] at hr
      exact absurd (congrArg Prod.fst hr) (by simp)
    rw [bind_of_fails hg]
    exact iff_of_true (fun _ => hk) fun h => hA h.1
  · rw [bind_of_returns hg]
    have hA : A := hgate.mp ⟨r, c', hg⟩
    by_cases hC : Cut
    · obtain ⟨hnone, hne⟩ := hcut r c' hg hC
      exact iff_of_false (fun h => hne (h hnone)) fun h => h ⟨hA, hC⟩
    · exact iff_of_true (fun h => absurd h (hfits r c' hg hC))
        fun h => hC h.2

/-- A frame that is not answered is unchanged, unless it is an answerable
SYN that is cut off in its options; over IPv4 and over IPv6. -/
theorem synack_bail_unchanged_iff (env : Env) (c : Ctx) :
    (((trySynackV4 env c).1 = none →
        (trySynackV4 env c).2.frame = c.frame)
      ↔ ¬ (AnswerableV4 env c ∧ CutOff v4 c.frame))
    ∧ (((trySynackV6 env c).1 = none →
        (trySynackV6 env c).2.frame = c.frame)
      ↔ ¬ (AnswerableV6 env c ∧ CutOff v6 c.frame)) := by
  constructor
  · refine bail_iff
      (keeps_gateV4 (keeps_ktimeGetNs env) keeps_mintBudget)
      gateV4_passes ?_ fun r c' hr => replyV4_cutOff hr
    intro r c' hr hcut hnone
    cases hnone.symm.trans (replyV4_answers hr hcut)
  · refine bail_iff
      (keeps_gateV6 (keeps_ktimeGetNs env) keeps_mintBudget)
      gateV6_passes ?_ fun r c' hr => replyV6_cutOff hr
    intro r c' hr hcut hnone
    cases hnone.symm.trans (replyV6_answers hr hcut)

/-- Two bytes of options where the header claims four: over both families
the packet is passed on with the flags of a SYN-ACK. -/
theorem cut_off_syn_half_rewritten :
    (trySynackV4 sampleEnv (sampleSynV4 [1, 1])).1 = none
      ∧ slice v4.flags 1
        (trySynackV4 sampleEnv (sampleSynV4 [1, 1])).2.frame = [0x12]
      ∧ (trySynackV4 sampleEnv (sampleSynV4 [1, 1])).2.frame
        ≠ (sampleSynV4 [1, 1]).frame
      ∧ (trySynackV6 sampleEnv (sampleSynV6 [1, 1])).1 = none
      ∧ slice v6.flags 1
        (trySynackV6 sampleEnv (sampleSynV6 [1, 1])).2.frame = [0x12]
      ∧ (trySynackV6 sampleEnv (sampleSynV6 [1, 1])).2.frame
        ≠ (sampleSynV6 [1, 1]).frame := by
  decide +kernel

end Blackwall.Xdp
