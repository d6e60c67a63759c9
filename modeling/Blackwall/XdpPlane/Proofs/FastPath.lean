/-
Which frames the XDP program answers, and which entries of its maps a
frame can touch.

`Filtered` lists the outcomes of a run on a frame with a whole IP header:
dropped for the blocklist or for the rate, redirected, answered, or let
pass. An answered frame has passed every check of the SYN-cookie path
(`Mintable`), but the path has no check of the fragment fields of an IPv4
header: a fragment whose first bytes look like a SYN is answered too
(`AnswerableFragment`, on the frame and the maps it arrives with). A run
writes the rate bucket of the frame's source, the counter of its reason,
and the mint budget of a frame that has come that far; the bucket is the
one of the source's key, which a source of the other family may share
(`ChargesOther`).
-/
import Blackwall.Xdp.Proofs.Bail
import Blackwall.XdpPlane.Proofs.RateKey

namespace Blackwall.XdpPlane

open Base Fallible
open Xdp

-- ============================================================ statements

/-- The checks of the SYN-cookie path before the budget, by family. -/
def Mintable : IpAddr → Ctx → Prop
  | .v4 _, c => IsSyn v4 c.frame
      ∧ byteAt offIp c.frame &&& 0x0f = 5
      ∧ byteAt (offIp + 9) c.frame = ipProtoTcp
      ∧ protectedPort (be16At v4.dstport c.frame) c.maps = true
      ∧ protectedV4 (slice v4.dst v4.addrLen c.frame) c.maps = true
      ∧ c.maps.cookieKey.isSome = true
  | .v6 _, c => IsSyn v6 c.frame
      ∧ byteAt (offIp + 6) c.frame = ipProtoTcp
      ∧ protectedPort (be16At v6.dstport c.frame) c.maps = true
      ∧ protectedV6 (slice v6.dst v6.addrLen c.frame) c.maps = true
      ∧ c.maps.cookieKey.isSome = true

/-- Neither a fragment offset nor more fragments to come, in the header of
a family that has them. -/
def Unfragmented : IpAddr → List Byte → Prop
  | .v4 _, f => be16At (offIp + 6) f &&& 0x3FFF = 0
  | .v6 _, _ => True

/-- The source has no bucket, or one with a token after the refill. -/
def WithinRate (a : IpAddr) (now : Nat) (m : Maps) : Prop :=
  ∀ b ∈ m.rate.lookup (rateKey a), 0 < b.level.refilled b.params now

/-- The source is not blocked and not over its rate. -/
def Unlimited (env : Env) (t : Tables) (c : Ctx) (a : IpAddr) : Prop :=
  SentFrom a c.frame ∧ blocked a t = false
    ∧ WithinRate a (env.clock c.reads) c.maps

/-- The frame of `a` may be answered. -/
def Gated (env : Env) (t : Tables) (c : Ctx) (a : IpAddr) : Prop :=
  Unlimited env t c a ∧ Unfragmented a c.frame ∧ Mintable a c
    ∧ HasBudget (env.clock (c.reads + 1)) c.maps

/-- The reasons a verdict is counted under. -/
inductive CountedAs : Verdict → Reason → Prop
  | blocklist : CountedAs .drop .blocklist
  | ratelimit : CountedAs .drop .ratelimit
  | redirect : CountedAs .redirect .redirect
  | unbound : CountedAs .pass .redirect
  | syncookie : CountedAs .tx .syncookie
  | pass : CountedAs .pass .pass

/-- What a run leaves alone: the bucket of every other source, the budget
unless the frame came to it, the counter of every other reason. A SYN
without a token is counted as capped and then as passed. -/
structure Isolated (env : Env) (t : Tables) (c : Ctx) : Prop where
  rate : ∀ b, ¬ SentFrom b c.frame →
    (xdpFilter env t c).2.maps.rate.lookup (rateKey b)
      = c.maps.rate.lookup (rateKey b)
  txBudget : (xdpFilter env t c).2.maps.txBudget = c.maps.txBudget
    ∨ ∃ a, Unlimited env t c a ∧ Mintable a c
  stats : ∃ r, CountedAs (xdpFilter env t c).1 r ∧ ∀ r', r' ≠ r →
    (xdpFilter env t c).2.maps.stats r' = c.maps.stats r'
      ∨ (r = .pass ∧ r' = .syncookieTxcapped
        ∧ (∃ a, Unlimited env t c a ∧ Mintable a c)
        ∧ ¬ HasBudget (env.clock (c.reads + 1)) c.maps)

/-- The fast path is gated and touches nothing of others. -/
def FastPathGated (env : Env) (t : Tables) (c : Ctx) : Prop :=
  ((xdpFilter env t c).1 = .tx → ∃ a, Gated env t c a)
    ∧ Isolated env t c

/-- An IPv4 fragment from a source that is not held back, in which the
SYN-cookie path finds a SYN to answer, options and all. The rate check has
read the clock once. -/
def AnswerableFragment (env : Env) (t : Tables) (c : Ctx) : Prop :=
  ∃ x, Unlimited env t c (.v4 x)
    ∧ be16At (offIp + 6) c.frame &&& 0x3FFF ≠ 0
    ∧ AnswerableV4 env { c with reads := c.reads + 1 }
    ∧ ¬ CutOff v4 c.frame

/-- The source is not blocked, and has a bucket that is older than the
frame or not empty, under a key that a source of the other family has
too. -/
def ChargesOther (env : Env) (t : Tables) (c : Ctx) : Prop :=
  ∃ a b bucket, SentFrom a c.frame ∧ blocked a t = false ∧ SharesKey a b
    ∧ c.maps.rate.lookup (rateKey a) = some bucket
    ∧ (bucket.lastNs ≠ env.clock c.reads ∨ 0 < bucket.tokens)

-- ============================================================ the buckets

theorem overRate_iff {a : IpAddr} {now : Nat} {m : Maps} :
    (overRate (rateKey a) now m).1 = true ↔ ¬ WithinRate a now m := by
  unfold overRate WithinRate
  cases m.rate.lookup (rateKey a) with
  | none => simp
  | some b => simp [RateBucket.take, Level.take]

/-- A frame leaves a bucket as it is only if there is nothing to refill
and nothing to take. -/
theorem take_eq_self {now : Nat} {b : RateBucket} :
    (b.take now).2 = b ↔ b.lastNs = now ∧ b.tokens = 0 := by
  have htake : (b.take now).2
      = { b with tokens := b.level.refilled b.params now - 1,
                 lastNs := now } := rfl
  constructor
  · intro h
    rw [htake] at h
    have hlast : now = b.lastNs := congrArg RateBucket.lastNs h
    have htokens : b.level.refilled b.params now - 1 = b.tokens :=
      congrArg RateBucket.tokens h
    -- no time has passed, so the refill adds nothing
    have hle : b.level.refilled b.params now ≤ b.tokens := by
      refine Nat.le_trans (Nat.min_le_left _ _)
        (Nat.le_trans (Nat.min_le_left _ _) ?_)
      rw [hlast, show b.level.last = b.lastNs from rfl, Nat.sub_self,
        Nat.zero_mul, Nat.zero_mod, Nat.zero_div]
      exact Nat.le_refl _
    exact ⟨hlast.symm, by omega⟩
  · rintro ⟨hlast, htokens⟩
    have hzero : b.level.refilled b.params now = 0 := by
      rw [Level.refilled, show b.level = ⟨b.tokens, b.lastNs⟩ from rfl,
        hlast, htokens, Nat.sub_self, Nat.zero_mul, Nat.zero_mod,
        Nat.zero_div]
      simp
    rw [htake, hzero, ← hlast, show 0 - 1 = b.tokens from htokens.symm]

-- ================================================== what the paths touch

section Touched

theorem keeps_storeU8 (off : Nat) (v : Byte) :
    Keeps (fun c : Ctx => c.maps) (storeU8 off v) := by
  intro c
  unfold storeU8
  split <;> rfl

theorem keeps_storeBe16 (off : Nat) (v : BitVec 16) :
    Keeps (fun c : Ctx => c.maps) (storeBe16 off v) :=
  (keeps_storeU8 _ _).bind fun _ => keeps_storeU8 _ _

theorem keeps_storeBe32 (off : Nat) (v : BitVec 32) :
    Keeps (fun c : Ctx => c.maps) (storeBe32 off v) :=
  (keeps_storeBe16 _ _).bind fun _ => keeps_storeBe16 _ _

theorem keeps_swapBytes (n a b : Nat) :
    Keeps (fun c : Ctx => c.maps) (swapBytes n a b) := by
  induction n with
  | zero => exact Keeps.pure ()
  | succ n ih =>
      exact ih.bind fun _ => (Keeps.reader (reads_loadU8 _)).bind fun _ =>
        (Keeps.reader (reads_loadU8 _)).bind fun _ =>
        (keeps_storeU8 _ _).bind fun _ => keeps_storeU8 _ _

theorem keeps_padNops (off len : Nat) (n k : Nat) :
    Keeps (fun c : Ctx => c.maps) (padNops off len n k) := by
  induction n generalizing k with
  | zero => exact Keeps.pure ()
  | succ n ih =>
      rw [padNops]
      split
      · exact Keeps.pure ()
      · exact (keeps_storeU8 _ _).bind fun _ => ih (k + 1)

theorem keeps_rewriteHeaders (l : Layout) (s : Syn) :
    Keeps (fun c : Ctx => c.maps) (rewriteHeaders l s) :=
  (keeps_swapBytes _ _ _).bind fun _ =>
  (keeps_swapBytes _ _ _).bind fun _ =>
  (keeps_swapBytes _ _ _).bind fun _ =>
  (keeps_storeU8 _ _).bind fun _ =>
  (keeps_storeBe32 _ _).bind fun _ => (keeps_storeBe32 _ _).bind fun _ =>
  (keeps_storeU8 _ _).bind fun _ =>
  (keeps_storeBe16 _ _).bind fun _ => (keeps_storeBe16 _ _).bind fun _ =>
  (keeps_storeU8 _ _).bind fun _ => (keeps_storeU8 _ _).bind fun _ =>
  (keeps_storeBe16 _ _).bind fun _ => keeps_padNops _ _ _ _

/-- The surgery touches no map. -/
theorem keeps_replyV4 (src dst : List Byte) (s : Syn) :
    Keeps (fun c : Ctx => c.maps) (replyV4 src dst s) :=
  (keeps_rewriteHeaders _ _).bind fun _ =>
  (keeps_storeBe16 _ _).bind fun _ =>
  (Keeps.reader ((reads_ptrAt offIp 20).map fun bytes =>
    foldChecksum (sumWords 10 bytes))).bind fun _ =>
  (keeps_storeBe16 _ _).bind fun _ =>
  (keeps_storeBe16 _ _).bind fun _ => Keeps.pure _

theorem keeps_replyV6 (s : Syn) :
    Keeps (fun c : Ctx => c.maps) (replyV6 s) :=
  (keeps_rewriteHeaders _ _).bind fun _ =>
  (Keeps.reader (reads_ptrAt _ _)).bind fun _ =>
  (Keeps.reader (reads_ptrAt _ _)).bind fun _ =>
  (keeps_storeBe16 _ _).bind fun _ => Keeps.pure _

theorem rate_txBudgetOk (now : Nat) (m : Maps) :
    (txBudgetOk now m).2.rate = m.rate
      ∧ (txBudgetOk now m).2.stats = m.stats := by
  unfold txBudgetOk
  split
  · exact ⟨rfl, rfl⟩
  · split <;> exact ⟨rfl, rfl⟩

/-- The budget check touches no bucket, and the counter of capped SYNs
only when there is no token. -/
theorem mintBudget_maps (now : Nat) (c : Ctx) :
    (mintBudget now c).2.maps.rate = c.maps.rate
      ∧ (∀ r, r ≠ .syncookieTxcapped →
        (mintBudget now c).2.maps.stats r = c.maps.stats r)
      ∧ ((mintBudget now c).2.maps.stats = c.maps.stats
        ∨ ¬ HasBudget now c.maps) := by
  obtain ⟨hrate, hstats⟩ := rate_txBudgetOk now c.maps
  rw [mintBudget, bind_of_returns (returns_act_self _ _)]
  dsimp only
  split
  next hok => exact ⟨hrate, fun r _ => congrFun hstats r, Or.inl hstats⟩
  next hno =>
    refine ⟨hrate, fun r hr => ?_, Or.inr fun h =>
      hno ((txBudgetOk_iff now c.maps).mpr h)⟩
    exact (Function.update_of_ne hr _ _).trans (congrFun hstats r)

variable (env : Env)

/-- The path of a family. -/
def synack : IpAddr → Prog Xdp.XdpAction
  | .v4 _ => trySynackV4 env
  | .v6 _ => trySynackV6 env

/-- What reads the maps and is kept by the budget check is kept by the
path. -/
theorem keeps_synack {γ : Type} {g : Maps → γ}
    (hmint : ∀ now, Keeps (fun c : Ctx => g c.maps) (mintBudget now))
    (a : IpAddr) : Keeps (fun c : Ctx => g c.maps) (synack env a) := by
  have hclock : Keeps (fun c : Ctx => g c.maps) (ktimeGetNs env) :=
    fun _ => rfl
  cases a with
  | v4 a =>
      exact (keeps_gateV4 hclock hmint).bind fun _ c =>
        congrArg g (keeps_replyV4 _ _ _ c)
  | v6 a =>
      exact (keeps_gateV6 hclock hmint).bind fun _ c =>
        congrArg g (keeps_replyV6 _ c)

/-- From the clock on: the counters change only without a token. -/
theorem changesOnly_mint {α : Type} {k : Nat → Unit → Prog α}
    (hk : ∀ now u, Keeps (fun c : Ctx => c.maps) (k now u)) :
    ChangesOnly (fun c : Ctx => c.maps.stats)
      (fun c => ¬ HasBudget (env.clock c.reads) c.maps)
      (ktimeGetNs env >>= fun now => mintBudget now >>= k now) := by
  intro c
  have hmint : ChangesOnly (fun c : Ctx => c.maps.stats)
      (fun c' => ¬ HasBudget (env.clock c.reads) c'.maps)
      (mintBudget (env.clock c.reads)) :=
    fun c' => (mintBudget_maps (env.clock c.reads) c').2.2
  exact hmint.before (fun u c' => congrArg Maps.stats (hk _ u c'))
    { c with reads := c.reads + 1 }

/-- A gate's own checks come before the budget. -/
theorem changesOnly_gateV4 {γ : Type} {f : Ctx → γ} {B : Ctx → Prop}
    (hrest : ∀ {α : Type} {k : Nat → Unit → Prog α},
      (∀ now u, Keeps (fun c : Ctx => c.maps) (k now u)) →
      ChangesOnly f B (ktimeGetNs env >>= fun now =>
        mintBudget now >>= k now)) (x : BitVec 32) :
    ChangesOnly f (fun c => Mintable (.v4 x) c ∧ B c) (gateV4 env) := by
  refine ChangesOnly.mono
    (.after (reads_ptrAt _ _) fun ip =>
    .after (Reads.check _) fun _ =>
    .after (reads_synHeader _) fun tcp =>
    .after (reads_loadAddr4 _) fun dst =>
    .after (reads_loadBe16 _) fun dstPort =>
    .after (Reads.look _) fun maps =>
    .after (Reads.check _) fun _ =>
    .after (reads_headerChecks (doffOf_lt tcp)) fun _ =>
    .after (reads_loadAddr4 _) fun src =>
    .after (reads_loadBe16 _) fun srcPort =>
    .after (reads_loadBe32 _) fun clientSeq =>
    .after (reads_parseMss _) fun clientMss =>
    .after_fetch fun key => hrest fun now _ => Keeps.pure _) ?_
  rintro c ⟨_, hip, hsyn, _, _, _, hprot, _, _, _, _, _, hkey, hB⟩
  rw [ihl_slice, proto_slice] at hip
  exact ⟨⟨hsyn, hip.1, hip.2, hprot.1, hprot.2, hkey⟩, hB⟩

theorem changesOnly_gateV6 {γ : Type} {f : Ctx → γ} {B : Ctx → Prop}
    (hrest : ∀ {α : Type} {k : Nat → Unit → Prog α},
      (∀ now u, Keeps (fun c : Ctx => c.maps) (k now u)) →
      ChangesOnly f B (ktimeGetNs env >>= fun now =>
        mintBudget now >>= k now)) (x : BitVec 128) :
    ChangesOnly f (fun c => Mintable (.v6 x) c ∧ B c) (gateV6 env) := by
  refine ChangesOnly.mono
    (.after (reads_ptrAt _ _) fun ip =>
    .after (Reads.check _) fun _ =>
    .after (reads_synHeader _) fun tcp =>
    .after (reads_loadBe16 _) fun dstPort =>
    .after (Reads.look _) fun maps =>
    .after (Reads.check _) fun _ =>
    .after (reads_ptrAt _ _) fun dst =>
    .after (Reads.check _) fun _ =>
    .after (reads_headerChecks (doffOf_lt tcp)) fun _ =>
    .after (reads_loadBe16 _) fun srcPort =>
    .after (reads_loadBe32 _) fun clientSeq =>
    .after_fetch fun key => hrest fun now _ =>
      (keeps_computeCookieV6 (fun _ => rfl) _ _).bind fun _ =>
        Keeps.pure _) ?_
  rintro c ⟨_, hnext, hsyn, _, _, hport, _, hnet, _, _, _, hkey, hB⟩
  rw [nextHdr_slice] at hnext
  exact ⟨⟨hsyn, hnext, hport, hnet, hkey⟩, hB⟩

/-- What the path of a family changes: the budget where the frame comes to
it, and the counters where there is no token then. -/
theorem changesOnly_synack (a : IpAddr) :
    ChangesOnly (fun c : Ctx => c.maps.txBudget) (Mintable a)
        (synack env a)
      ∧ ChangesOnly (fun c : Ctx => c.maps.stats)
        (fun c => Mintable a c ∧ ¬ HasBudget (env.clock c.reads) c.maps)
        (synack env a) := by
  cases a with
  | v4 a =>
      constructor
      · refine ((changesOnly_gateV4 env (B := fun _ => True)
          (fun _ _ => Or.inr trivial) a).mono fun _ h => h.1).before ?_
        exact fun r c => congrArg Maps.txBudget (keeps_replyV4 _ _ _ c)
      · refine (changesOnly_gateV4 env (changesOnly_mint env) a).before ?_
        exact fun r c => congrArg Maps.stats (keeps_replyV4 _ _ _ c)
  | v6 a =>
      constructor
      · refine ((changesOnly_gateV6 env (B := fun _ => True)
          (fun _ _ => Or.inr trivial) a).mono fun _ h => h.1).before ?_
        exact fun r c => congrArg Maps.txBudget (keeps_replyV6 _ c)
      · refine (changesOnly_gateV6 env (changesOnly_mint env) a).before ?_
        exact fun r c => congrArg Maps.stats (keeps_replyV6 _ c)

/-- A path that answers has come past the budget. -/
theorem mintable_of_tx {a : IpAddr} {c : Ctx} {v : Xdp.XdpAction}
    (h : (synack env a c).1 = some v) :
    Mintable a c ∧ HasBudget (env.clock c.reads) c.maps := by
  cases a with
  | v4 a =>
      have hret : Returns (trySynackV4 env) c v (trySynackV4 env c).2 :=
        Prod.ext h rfl
      obtain ⟨r, c', hgate, -⟩ := returns_bind.mp hret
      obtain ⟨⟨⟨hsyn, hport, -, -, hkey, hbudget⟩, hihl, hproto, hnet, -⟩,
        -⟩ := returns_gateV4.mp hgate
      exact ⟨⟨hsyn, hihl, hproto, hport, hnet, hkey⟩, hbudget⟩
  | v6 a =>
      have hret : Returns (trySynackV6 env) c v (trySynackV6 env c).2 :=
        Prod.ext h rfl
      obtain ⟨r, c', hgate, -⟩ := returns_bind.mp hret
      obtain ⟨⟨⟨hsyn, hport, -, -, hkey, hbudget⟩, hnext, hnet, -⟩, -⟩ :=
        returns_gateV6.mp hgate
      exact ⟨⟨hsyn, hnext, hport, hnet, hkey⟩, hbudget⟩

end Touched

-- ============================================================= one frame

section Frame

variable (env : Env) (t : Tables)

/-- After the rate check of `a`. -/
def metered (a : IpAddr) (c : Ctx) : Ctx :=
  { c with
    maps := (overRate (rateKey a) (env.clock c.reads) c.maps).2
    reads := c.reads + 1 }

/-- The rate check touches the buckets alone. -/
theorem metered_eq (env : Env) (a : IpAddr) (c : Ctx) :
    ∃ rate, metered env a c
      = ⟨c.frame, { c.maps with rate }, c.reads + 1⟩ := by
  unfold metered overRate
  split
  · exact ⟨_, rfl⟩
  · exact ⟨_, rfl⟩

/-- Counted under a reason. -/
def countAs (r : Reason) (n : BitVec 64) (c : Ctx) : Ctx :=
  { c with maps := count r n c.maps }

/-- The outcomes of a run on a frame from `a`. -/
inductive Filtered (n : BitVec 64) (c : Ctx) (a : IpAddr) :
    Option Verdict × Ctx → Prop
  | blocked (hb : blocked a t = true) :
      Filtered n c a (some .drop, countAs .blocklist n c)
  | limited (hb : blocked a t = false)
      (ho : ¬ WithinRate a (env.clock c.reads) c.maps) :
      Filtered n c a (some .drop, countAs .ratelimit n (metered env a c))
  | redirected {v : Verdict} (hu : Unlimited env t c a)
      (hv : CountedAs v .redirect)
      (hudp : byteAt (offIp + 9) c.frame = ipProtoUdp) :
      Filtered n c a (some v, countAs .redirect n (metered env a c))
  | answered {v : Xdp.XdpAction} (hu : Unlimited env t c a)
      (h : (synack env a (metered env a c)).1 = some v) :
      Filtered n c a (some .tx, countAs .syncookie n
        (synack env a (metered env a c)).2)
  | passed (hu : Unlimited env t c a)
      (h : (synack env a (metered env a c)).1 = none) :
      Filtered n c a (some .pass, countAs .pass n
        (synack env a (metered env a c)).2)

variable {env t} {c : Ctx} {a : IpAddr}

theorem Filtered.of_synack (hu : Unlimited env t c a) (n : BitVec 64) :
    Filtered env t n c a
      (synackOrPass (synack env a) n (metered env a c)) := by
  unfold synackOrPass
  rw [bind_attempt]
  cases h : (synack env a (metered env a c)).1 with
  | none => exact .passed hu h
  | some v => exact .answered hu h

/-- The redirect only looks. -/
theorem tryRedirectUdpV4_looks (t : Tables) (c : Ctx) :
    (tryRedirectUdpV4 t c).2 = c := by
  have hkeeps : Keeps (fun c : Ctx => c) (tryRedirectUdpV4 t) :=
    (Keeps.reader (reads_ptrAt _ _)).bind fun _ =>
    (Keeps.reader (Reads.check _)).bind fun _ =>
    (Keeps.reader (reads_loadBe16 _)).bind fun _ =>
    (Keeps.reader (Reads.check _)).bind fun _ => Keeps.pure _
  exact hkeeps c

/-- What is redirected is UDP; without a socket the frame passes. -/
theorem tryRedirectUdpV4_some {v : Verdict}
    (h : (tryRedirectUdpV4 t c).1 = some v) :
    CountedAs v .redirect ∧ byteAt (offIp + 9) c.frame = ipProtoUdp := by
  have hret : Returns (tryRedirectUdpV4 t) c v (tryRedirectUdpV4 t c).2 :=
    Prod.ext h rfl
  rw [tryRedirectUdpV4, (reads_ptrAt _ _).returns_bind,
    (Reads.check _).returns_bind, (reads_loadBe16 _).returns_bind,
    (Reads.check _).returns_bind, returns_pure, ihl_slice,
    proto_slice] at hret
  obtain ⟨_, ⟨_, hudp⟩, _, _, hv, _⟩ := hret
  refine ⟨?_, hudp⟩
  rw [hv]
  split
  · exact .redirect
  · exact .unbound

theorem overRateNow_metered {key : List Byte} (hkey : key = rateKey a)
    (k : Bool → Prog Verdict) :
    (overRateNow env key >>= k) c
      = k (overRate (rateKey a) (env.clock c.reads) c.maps).1
          (metered env a c) := by
  rw [hkey]
  rfl

theorem filtered_v4 {x : BitVec 32} (h : SentFrom (.v4 x) c.frame)
    (n : BitVec 64) :
    Filtered env t n c (.v4 x) (filterV4 env t n c) := by
  have hip : srcAddr4 (slice offIp 20 c.frame) = (IpAddr.v4 x).octets := by
    rw [srcAddr4, slice_slice (by decide)]
    exact h.2.2
  rw [filterV4, bind_of_returns ((reads_ptrAt offIp 20).succeeds c h.1)]
  simp only [hip]
  by_cases hb : blockedV4 (IpAddr.v4 x).octets t = true
  · rw [if_pos hb]
    exact .blocked hb
  have hb' : blocked (.v4 x) t = false := Bool.eq_false_iff.mpr hb
  have hkey : put 0 (IpAddr.v4 x).octets (List.replicate 16 0)
      = rateKey (.v4 x) := rfl
  rw [if_neg hb, overRateNow_metered hkey]
  by_cases ho : (overRate (rateKey (.v4 x)) (env.clock c.reads)
      c.maps).1 = true
  · rw [if_pos ho]
    exact .limited hb' (overRate_iff.mp ho)
  have hin : WithinRate (.v4 x) (env.clock c.reads) c.maps :=
    not_not.mp fun hno => ho (overRate_iff.mpr hno)
  have hu : Unlimited env t c (.v4 x) := ⟨h, hb', hin⟩
  rw [if_neg ho, bind_attempt, tryRedirectUdpV4_looks]
  cases hv : (tryRedirectUdpV4 t (metered env (.v4 x) c)).1 with
  | some v =>
      obtain ⟨hcount, hudp⟩ := tryRedirectUdpV4_some hv
      refine .redirected hu hcount ?_
      obtain ⟨rate, hmet⟩ := metered_eq env (.v4 x) c
      rw [hmet] at hudp
      exact hudp
  | none => exact .of_synack hu n

theorem filtered_v6 {x : BitVec 128} (h : SentFrom (.v6 x) c.frame)
    (n : BitVec 64) :
    Filtered env t n c (.v6 x) (filterV6 env t n c) := by
  have hip : srcAddr6 (slice offIp 40 c.frame) = (IpAddr.v6 x).octets := by
    rw [srcAddr6, slice_slice (by decide)]
    exact h.2.2
  rw [filterV6, bind_of_returns ((reads_ptrAt offIp 40).succeeds c h.1)]
  simp only [hip]
  by_cases hb : blockedV6 (IpAddr.v6 x).octets t = true
  · rw [if_pos hb]
    exact .blocked hb
  have hb' : blocked (.v6 x) t = false := Bool.eq_false_iff.mpr hb
  have hkey : (IpAddr.v6 x).octets
      = rateKey (.v6 x) := rfl
  rw [if_neg hb, overRateNow_metered hkey]
  by_cases ho : (overRate (rateKey (.v6 x)) (env.clock c.reads)
      c.maps).1 = true
  · rw [if_pos ho]
    exact .limited hb' (overRate_iff.mp ho)
  have hin : WithinRate (.v6 x) (env.clock c.reads) c.maps :=
    not_not.mp fun hno => ho (overRate_iff.mpr hno)
  have hu : Unlimited env t c (.v6 x) := ⟨h, hb', hin⟩
  rw [if_neg ho]
  exact .of_synack hu n

/-- A frame with a whole IP header has a source. -/
theorem sentFrom_v4 {f : List Byte} (hlen : 34 ≤ f.length)
    (hty : slice 12 2 f = etherIpv4) : ∃ x, SentFrom (.v4 x) f :=
  ⟨BitVec.ofNat 32 (beNat (slice 26 4 f)), hlen, hty,
    (beBytes_ofNat (length_slice (by omega)) (by decide)).symm⟩

theorem sentFrom_v6 {f : List Byte} (hlen : 54 ≤ f.length)
    (hty : slice 12 2 f = etherIpv6) : ∃ x, SentFrom (.v6 x) f :=
  ⟨BitVec.ofNat 128 (beNat (slice 22 16 f)), hlen, hty,
    (beBytes_ofNat (length_slice (by omega)) (by decide)).symm⟩

/-- It has one. -/
theorem sentFrom_unique {f : List Byte} {a b : IpAddr}
    (ha : SentFrom a f) (hb : SentFrom b f) : a = b := by
  have hne : etherIpv4 ≠ etherIpv6 := by decide
  cases a with
  | v4 x =>
      cases b with
      | v4 y =>
          have h : rateKey (.v4 x) = rateKey (.v4 y) := by
            rw [rateKey, rateKey, ← ha.2.2, ← hb.2.2]
          by_contra hxy
          exact (rateKey_eq_iff hxy).mp h
      | v6 y => exact absurd (ha.2.1.symm.trans hb.2.1) hne
  | v6 x =>
      cases b with
      | v4 y => exact absurd (hb.2.1.symm.trans ha.2.1) hne
      | v6 y =>
          have h : rateKey (.v6 x) = rateKey (.v6 y) := by
            rw [rateKey, rateKey, ← ha.2.2, ← hb.2.2]
          by_contra hxy
          exact (rateKey_eq_iff hxy).mp h

theorem etherType_slice (f : List Byte) :
    etherType (slice 0 14 f) = slice 12 2 f := by
  rw [etherType, slice_slice (by decide)]

/-- A run on a frame that names a source. -/
theorem tryFilter_sent (h : SentFrom a c.frame) :
    Filtered env t (BitVec.ofNat 64 c.frame.length) c a
      (tryFilter env t c) := by
  rw [tryFilter, bind_look]
  cases a with
  | v4 x =>
      have hlen : 0 + 14 ≤ c.frame.length := by
        have := h.1
        omega
      rw [bind_of_returns ((reads_ptrAt 0 14).succeeds c hlen),
        etherType_slice, if_pos h.2.1]
      exact filtered_v4 h _
  | v6 x =>
      have hlen : 0 + 14 ≤ c.frame.length := by
        have := h.1
        omega
      have hne : slice 12 2 c.frame ≠ etherIpv4 := by
        rw [h.2.1]
        decide
      rw [bind_of_returns ((reads_ptrAt 0 14).succeeds c hlen),
        etherType_slice, if_neg hne, if_pos h.2.1]
      exact filtered_v6 h _

theorem count_other {r r' : Reason} (h : r' ≠ r) (n : BitVec 64)
    (m : Maps) : (count r n m).stats r' = m.stats r' :=
  Function.update_of_ne h _ _

/-- A run on any other frame: it passes, counted if it has an Ethernet
header of another type. -/
theorem xdpFilter_unsent (h : ∀ a, ¬ SentFrom a c.frame) :
    (xdpFilter env t c).1 = .pass
      ∧ (xdpFilter env t c).2.maps.rate = c.maps.rate
      ∧ (xdpFilter env t c).2.maps.txBudget = c.maps.txBudget
      ∧ ∀ r, r ≠ .pass →
        (xdpFilter env t c).2.maps.stats r = c.maps.stats r := by
  have hrun : tryFilter env t c = (none, c)
      ∨ ∃ n, tryFilter env t c = (some .pass, countAs .pass n c) := by
    rw [tryFilter, bind_look]
    by_cases hlen : 0 + 14 ≤ c.frame.length
    · rw [bind_of_returns ((reads_ptrAt 0 14).succeeds c hlen),
        etherType_slice]
      by_cases h4 : slice 12 2 c.frame = etherIpv4
      · rw [if_pos h4, filterV4]
        refine Or.inl (bind_of_fails ((reads_ptrAt offIp 20).fails c ?_))
        intro hfit
        obtain ⟨x, hx⟩ := sentFrom_v4 hfit h4
        exact h _ hx
      · rw [if_neg h4]
        by_cases h6 : slice 12 2 c.frame = etherIpv6
        · rw [if_pos h6, filterV6]
          refine Or.inl (bind_of_fails
            ((reads_ptrAt offIp 40).fails c ?_))
          intro hfit
          obtain ⟨x, hx⟩ := sentFrom_v6 hfit h6
          exact h _ hx
        · rw [if_neg h6]
          exact Or.inr ⟨_, rfl⟩
    · exact Or.inl (bind_of_fails ((reads_ptrAt 0 14).fails c hlen))
  unfold xdpFilter
  rcases hrun with hrun | ⟨n, hrun⟩
  · rw [hrun]
    exact ⟨rfl, rfl, rfl, fun _ _ => rfl⟩
  · rw [hrun]
    exact ⟨rfl, rfl, rfl, fun r hr => count_other hr n _⟩

-- ================================================ what a run has passed

theorem mintable_metered :
    Mintable a (metered env a c) ↔ Mintable a c := by
  obtain ⟨rate, hmet⟩ := metered_eq env a c
  rw [hmet]
  cases a with
  | v4 x => exact Iff.rfl
  | v6 x => exact Iff.rfl

theorem hasBudget_metered {now : Nat} :
    HasBudget now (metered env a c).maps ↔ HasBudget now c.maps := by
  obtain ⟨rate, hmet⟩ := metered_eq env a c
  rw [hmet]
  exact Iff.rfl

variable {n : BitVec 64} {r : Option Verdict × Ctx}

/-- An answered frame has passed every gate there is. -/
theorem Filtered.answers (h : Filtered env t n c a r)
    (htx : r.1 = some .tx) :
    Unlimited env t c a ∧ Mintable a c
      ∧ HasBudget (env.clock (c.reads + 1)) c.maps := by
  cases h with
  | blocked => cases htx
  | limited => cases htx
  | redirected hu hv _ =>
      cases htx
      cases hv
  | answered hu hv =>
      obtain ⟨hmint, hbudget⟩ := mintable_of_tx env hv
      exact ⟨hu, mintable_metered.mp hmint, hasBudget_metered.mp hbudget⟩
  | passed => cases htx

/-- An answerable fragment is answered: it is no UDP to redirect, and the
path gives up on none of what it reads. -/
theorem Filtered.of_fragment {x : BitVec 32}
    (h : Filtered env t n c (.v4 x) r) (hu : Unlimited env t c (.v4 x))
    (hans : AnswerableV4 env { c with reads := c.reads + 1 })
    (hcut : ¬ CutOff v4 c.frame) : r.1 = some .tx := by
  obtain ⟨rate, hmet⟩ := metered_eq env (.v4 x) c
  cases h with
  | blocked hb => cases hb.symm.trans hu.2.1
  | limited _ ho => exact absurd hu.2.2 ho
  | redirected _ _ hudp =>
      have htcp : byteAt (offIp + 9) c.frame = ipProtoTcp := hans.2.2.1
      rw [hudp] at htcp
      exact absurd htcp (by decide)
  | answered => rfl
  | passed _ hnone =>
      rw [hmet] at hnone
      have hsome := (@trySynackV4_isSome_iff env
        ⟨c.frame, { c.maps with rate }, c.reads + 1⟩).mpr ⟨hans, hcut⟩
      rw [show trySynackV4 env = synack env (.v4 x) from rfl,
        hnone] at hsome
      cases hsome

/-- And only such a fragment. -/
theorem Filtered.fragment {x : BitVec 32}
    (h : Filtered env t n c (.v4 x) r) (htx : r.1 = some .tx)
    (hfrag : be16At (offIp + 6) c.frame &&& 0x3FFF ≠ 0) :
    AnswerableFragment env t c := by
  obtain ⟨rate, hmet⟩ := metered_eq env (.v4 x) c
  cases h with
  | blocked => cases htx
  | limited => cases htx
  | redirected _ hv _ =>
      cases htx
      cases hv
  | answered hu hv =>
      rw [hmet] at hv
      have hsome := (@trySynackV4_isSome_iff env
        ⟨c.frame, { c.maps with rate }, c.reads + 1⟩).mp
          (Option.isSome_iff_exists.mpr ⟨_, hv⟩)
      exact ⟨x, hu, hfrag, hsome⟩
  | passed => cases htx

/-- The buckets after a run: the rate check's, unless the blocklist came
first. -/
theorem Filtered.rate (h : Filtered env t n c a r) :
    r.2.maps.rate = if XdpPlane.blocked a t = true then c.maps.rate
      else (metered env a c).maps.rate := by
  have hsyn := keeps_synack env (g := Maps.rate)
    (fun now c => (mintBudget_maps now c).1) a (metered env a c)
  cases h with
  | blocked hb => rw [if_pos hb]; rfl
  | limited hb => rw [if_neg (Bool.eq_false_iff.mp hb)]; rfl
  | redirected hu => rw [if_neg (Bool.eq_false_iff.mp hu.2.1)]; rfl
  | answered hu =>
      rw [if_neg (Bool.eq_false_iff.mp hu.2.1)]
      exact hsyn
  | passed hu =>
      rw [if_neg (Bool.eq_false_iff.mp hu.2.1)]
      exact hsyn

theorem Filtered.txBudget (h : Filtered env t n c a r) :
    r.2.maps.txBudget = c.maps.txBudget
      ∨ Unlimited env t c a ∧ Mintable a c := by
  have hmet : (metered env a c).maps.txBudget = c.maps.txBudget := by
    obtain ⟨rate, hmet⟩ := metered_eq env a c
    rw [hmet]
  have hsyn := (changesOnly_synack env a).1 (metered env a c)
  dsimp only at hsyn
  rw [hmet, mintable_metered] at hsyn
  cases h with
  | blocked => exact Or.inl rfl
  | limited => exact Or.inl hmet
  | redirected => exact Or.inl hmet
  | answered hu => exact hsyn.imp_right fun hm => ⟨hu, hm⟩
  | passed hu => exact hsyn.imp_right fun hm => ⟨hu, hm⟩

/-- The counters after a run: one reason's, and the capped SYNs' before a
frame that found no token passes. -/
theorem Filtered.stats (h : Filtered env t n c a r) :
    ∃ reason, CountedAs (r.1.getD .pass) reason
      ∧ ∀ r', r' ≠ reason → r.2.maps.stats r' = c.maps.stats r'
        ∨ (reason = .pass ∧ r' = .syncookieTxcapped
          ∧ (Unlimited env t c a ∧ Mintable a c)
          ∧ ¬ HasBudget (env.clock (c.reads + 1)) c.maps) := by
  have hmet : (metered env a c).maps.stats = c.maps.stats := by
    obtain ⟨rate, hmet⟩ := metered_eq env a c
    rw [hmet]
  have hsyn := (changesOnly_synack env a).2 (metered env a c)
  dsimp only at hsyn
  rw [hmet, mintable_metered, hasBudget_metered] at hsyn
  cases h with
  | blocked =>
      exact ⟨_, .blocklist, fun r' hr' => Or.inl (count_other hr' n _)⟩
  | limited =>
      refine ⟨_, .ratelimit, fun r' hr' => Or.inl ?_⟩
      exact (count_other hr' n _).trans (congrFun hmet r')
  | redirected hu hv _ =>
      refine ⟨_, hv, fun r' hr' => Or.inl ?_⟩
      exact (count_other hr' n _).trans (congrFun hmet r')
  | answered hu hv =>
      refine ⟨_, .syncookie, fun r' hr' => Or.inl ?_⟩
      have hbudget := (mintable_of_tx env hv).2
      rw [hasBudget_metered] at hbudget
      have hsame := hsyn.resolve_right fun hno => hno.2 hbudget
      exact (count_other hr' n _).trans (congrFun hsame r')
  | passed hu =>
      refine ⟨_, .pass, fun r' hr' => ?_⟩
      by_cases hcap : r' = .syncookieTxcapped
      · rcases hsyn with hsame | ⟨hm, hno⟩
        · exact Or.inl ((count_other hr' n _).trans (congrFun hsame r'))
        · exact Or.inr ⟨rfl, hcap, ⟨hu, hm⟩, hno⟩
      · have hkeep := keeps_synack env (g := fun m => m.stats r')
          (fun now c => (mintBudget_maps now c).2.1 r' hcap) a
          (metered env a c)
        exact Or.inl ((count_other hr' n _).trans
          (hkeep.trans (congrFun hmet r')))

end Frame

-- ============================================================ every frame

variable (env : Env) (t : Tables) (c : Ctx)

theorem lookup_metered (a : IpAddr) (key : List Byte) :
    (metered env a c).maps.rate.lookup key
      = if key = rateKey a then
          (c.maps.rate.lookup key).map fun bucket =>
            (bucket.take (env.clock c.reads)).2
        else c.maps.rate.lookup key := by
  unfold metered overRate
  cases hb : c.maps.rate.lookup (rateKey a) with
  | none =>
      by_cases hk : key = rateKey a
      · rw [if_pos hk, hk, hb]
        rfl
      · rw [if_neg hk]
  | some bucket =>
      dsimp only
      rw [Dict.lookup_insert_if]
      by_cases hk : key = rateKey a
      · rw [if_pos hk, if_pos hk, hk, hb]
        rfl
      · rw [if_neg hk, if_neg hk]

/-- The buckets of other sources stay unless one is shared and changes. -/
theorem rate_isolated_iff :
    (∀ b, ¬ SentFrom b c.frame →
        (xdpFilter env t c).2.maps.rate.lookup (rateKey b)
          = c.maps.rate.lookup (rateKey b))
      ↔ ¬ ChargesOther env t c := by
  by_cases hsent : ∃ a, SentFrom a c.frame
  · obtain ⟨a, ha⟩ := hsent
    have hf : Filtered env t (BitVec.ofNat 64 c.frame.length) c a
      (tryFilter env t c) := tryFilter_sent ha
    have hrate := hf.rate
    have hafter : ∀ key, (xdpFilter env t c).2.maps.rate.lookup key
        = if blocked a t = true then c.maps.rate.lookup key
          else (metered env a c).maps.rate.lookup key := fun key => by
      rw [xdpFilter, hrate]
      split <;> rfl
    simp only [hafter, lookup_metered]
    constructor
    · rintro h ⟨a', b, bucket, ha', hb, hshare, hlk, hne⟩
      rw [sentFrom_unique ha' ha] at hshare hb hlk
      have hab : a ≠ b := by
        rintro rfl
        cases a <;> exact hshare
      have hkey := (rateKey_eq_iff hab).mpr hshare
      have hsame := h b fun hsb => hab (sentFrom_unique ha hsb)
      rw [if_neg (Bool.eq_false_iff.mp hb), if_pos hkey.symm, ← hkey,
        hlk] at hsame
      obtain ⟨hlast, htokens⟩ := take_eq_self.mp (Option.some.inj hsame)
      rcases hne with hne | hne
      · exact hne hlast
      · omega
    · intro h b hsb
      by_cases hb : blocked a t = true
      · rw [if_pos hb]
      rw [if_neg hb]
      by_cases hkey : rateKey b = rateKey a
      · rw [if_pos hkey, hkey]
        have hab : a ≠ b := fun heq => hsb (heq ▸ ha)
        cases hlk : c.maps.rate.lookup (rateKey a) with
        | none => rfl
        | some bucket =>
            by_contra hne
            refine h ⟨a, b, bucket, ha, Bool.eq_false_iff.mpr hb,
              (rateKey_eq_iff hab).mp hkey.symm, hlk, ?_⟩
            by_contra hsame
            refine hne (congrArg some (take_eq_self.mpr ?_))
            omega
      · rw [if_neg hkey]
  · rw [not_exists] at hsent
    refine iff_of_true (fun b _ => ?_) ?_
    · rw [(xdpFilter_unsent hsent).2.1]
    · rintro ⟨a, -, -, ha, -⟩
      exact hsent a ha

/-- A frame is answered only past every gate, and touches no other entry,
if and only if it is no fragment that reads as a SYN to answer and its
source charges no shared bucket. -/
theorem fast_path_gated_iff :
    FastPathGated env t c
      ↔ ¬ AnswerableFragment env t c ∧ ¬ ChargesOther env t c := by
  constructor
  · rintro ⟨hgated, hiso⟩
    refine ⟨?_, (rate_isolated_iff env t c).mp hiso.rate⟩
    rintro ⟨x, hu, hfrag, hans, hcut⟩
    have hrun : Filtered env t (BitVec.ofNat 64 c.frame.length) c (.v4 x)
      (tryFilter env t c) := tryFilter_sent hu.1
    have htx : (xdpFilter env t c).1 = .tx := by
      rw [xdpFilter, hrun.of_fragment hu hans hcut]
      rfl
    obtain ⟨b, hub, hun, -⟩ := hgated htx
    rw [← sentFrom_unique hu.1 hub.1] at hun
    exact hfrag hun
  · rintro ⟨hfrag, hcharge⟩
    have hrate := (rate_isolated_iff env t c).mpr hcharge
    by_cases hsent : ∃ a, SentFrom a c.frame
    · obtain ⟨a, ha⟩ := hsent
      have hf : Filtered env t (BitVec.ofNat 64 c.frame.length) c a
        (tryFilter env t c) := tryFilter_sent ha
      refine ⟨fun htx => ?_, hrate, ?_, ?_⟩
      · have hsome : (tryFilter env t c).1 = some .tx := by
          rw [xdpFilter] at htx
          cases hv : (tryFilter env t c).1 with
          | none =>
              rw [hv] at htx
              cases htx
          | some v =>
              rw [hv] at htx
              exact congrArg some htx
        obtain ⟨hu, hmint, hbudget⟩ := hf.answers hsome
        refine ⟨a, hu, ?_, hmint, hbudget⟩
        cases a with
        | v6 x => trivial
        | v4 x =>
            by_contra hun
            exact hfrag (hf.fragment hsome hun)
      · exact hf.txBudget.imp_right fun h => ⟨a, h⟩
      · obtain ⟨r, hr, hother⟩ := hf.stats
        refine ⟨r, hr, fun r' hr' => (hother r' hr').imp_right ?_⟩
        rintro ⟨hpass, hcap, hmint, hno⟩
        exact ⟨hpass, hcap, ⟨a, hmint⟩, hno⟩
    · rw [not_exists] at hsent
      obtain ⟨hpass, -, hbudget, hstats⟩ :=
        @xdpFilter_unsent env t c hsent
      refine ⟨fun htx => ?_, hrate, Or.inl hbudget, .pass, ?_,
        fun r' hr' => Or.inl (hstats r' hr')⟩
      · rw [hpass] at htx
        cases htx
      · rw [hpass]
        exact .pass

/-- The sample SYN as the second fragment of a datagram. -/
def fragmentedSyn : Ctx :=
  { sampleSynV4 [2, 4, 5, 0xB4] with
    frame := (sampleSynV4 [2, 4, 5, 0xB4]).frame.set (offIp + 7) 1 }

/-- It is answered: what follows its header is taken for a SYN. -/
theorem fragment_answered :
    (xdpFilter sampleEnv ⟨[], [], ∅, false⟩ fragmentedSyn).1 = .tx
      ∧ ¬ FastPathGated sampleEnv ⟨[], [], ∅, false⟩ fragmentedSyn := by
  have htx : (xdpFilter sampleEnv ⟨[], [], ∅, false⟩ fragmentedSyn).1
      = .tx := by decide +kernel
  have hsent : SentFrom (.v4 0xCB007107) fragmentedSyn.frame :=
    ⟨by decide, by decide, by decide⟩
  refine ⟨htx, fun h => ?_⟩
  obtain ⟨a, hu, hun, -⟩ := h.1 htx
  rw [← sentFrom_unique hsent hu.1] at hun
  exact absurd hun (by unfold Unfragmented; decide)

end Blackwall.XdpPlane
