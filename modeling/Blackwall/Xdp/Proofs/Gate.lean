/-
Which SYNs the XDP program answers.

The gates of the two paths are sequences of checks and loads, so each
returns exactly when all its checks pass, with what the frame holds.
`AnswerableV4` and `AnswerableV6` are those checks, stated on the frame
and the maps a packet arrives with.
-/
import Blackwall.Xdp.Proofs.Access
import Blackwall.Xdp.Synack

namespace Blackwall.Xdp

open Base Fallible Cookie

-- =================================================== the frame's fields

/-- The data offset of the TCP header, in words. -/
def doffAt (l : Layout) (f : List Byte) : Nat :=
  (byteAt l.dataoff f >>> 4).toNat

/-- A TCP header with SYN set and ACK clear. -/
def IsSyn (l : Layout) (f : List Byte) : Prop :=
  l.tcp + 20 ≤ f.length ∧ (byteAt l.flags f).getLsbD 1 = true
    ∧ (byteAt l.flags f).getLsbD 4 = false

instance (l : Layout) (f : List Byte) : Decidable (IsSyn l f) :=
  inferInstanceAs (Decidable (_ ∧ _))

/-- The cookie the core computes for the connection of a frame. -/
def clientCookie (env : Env) (l : Layout) (key : CookieKeyValue)
    (now : Nat) (f : List Byte) : BitVec 32 × BitVec 16 :=
  makeCookieRaw env.sip key.k0 key.k1 (slice l.src l.addrLen f)
    (be16At l.srcport f) (slice l.dst l.addrLen f) (be16At l.dstport f)
    (clientMss l.opts f) (BitVec.ofNat 64 (now / nsPerSec))

/-- What the gate reads of a frame. -/
def synAt (l : Layout) (cookie : BitVec 32 × BitVec 16) (f : List Byte) :
    Syn :=
  ⟨doffAt l f, be16At l.srcport f, be16At l.dstport f, be32At l.seq f,
    cookie.1, cookie.2⟩

/-- The `i`-th reading of the clock. -/
def Env.clock (env : Env) (i : Nat) : Nat := env.ktime i % 2 ^ 64

/-- The mint budget is not configured, or has a token after the refill. -/
def HasBudget (now : Nat) (m : Maps) : Prop :=
  ∀ b ∈ m.txBudget, b.ratePps = 0 ∨ 0 < b.level.refilled b.params now

instance (now : Nat) (m : Maps) : Decidable (HasBudget now m) :=
  inferInstanceAs (Decidable (∀ b ∈ m.txBudget, _))

/-- A SYN for a protected port with room for an MSS option, a key to
answer it with and a budget to answer it from. -/
def Answerable (l : Layout) (env : Env) (c : Ctx) : Prop :=
  IsSyn l c.frame
    ∧ protectedPort (be16At l.dstport c.frame) c.maps = true
    ∧ 6 ≤ doffAt l c.frame ∧ MssReadable l.opts c.frame
    ∧ c.maps.cookieKey.isSome = true
    ∧ HasBudget (env.clock c.reads) c.maps

instance (l : Layout) (env : Env) (c : Ctx) :
    Decidable (Answerable l env c) :=
  inferInstanceAs (Decidable (_ ∧ _))

/-- Over IPv4: no IP options, TCP, a protected prefix, no payload. -/
def AnswerableV4 (env : Env) (c : Ctx) : Prop :=
  Answerable v4 env c
    ∧ byteAt offIp c.frame &&& 0x0f = 5
    ∧ byteAt (offIp + 9) c.frame = ipProtoTcp
    ∧ protectedV4 (slice v4.dst v4.addrLen c.frame) c.maps = true
    ∧ (be16At (offIp + 2) c.frame).toNat = 20 + doffAt v4 c.frame * 4

/-- Over IPv6: TCP right after the header, a protected prefix, no
payload. -/
def AnswerableV6 (env : Env) (c : Ctx) : Prop :=
  Answerable v6 env c
    ∧ byteAt (offIp + 6) c.frame = ipProtoTcp
    ∧ protectedV6 (slice v6.dst v6.addrLen c.frame) c.maps = true
    ∧ (be16At (offIp + 4) c.frame).toNat = doffAt v6 c.frame * 4

instance (env : Env) (c : Ctx) : Decidable (AnswerableV4 env c) :=
  inferInstanceAs (Decidable (_ ∧ _))

instance (env : Env) (c : Ctx) : Decidable (AnswerableV6 env c) :=
  inferInstanceAs (Decidable (_ ∧ _))

-- ================================================= the parts of the gate

variable {env : Env} {c c' : Ctx}

theorem doffOf_lt (tcp : List Byte) : doffOf tcp < 16 := by
  have h := (byteAt 12 tcp).isLt
  rw [doffOf, BitVec.toNat_ushiftRight, Nat.shiftRight_eq_div_pow]
  omega

theorem doffAt_lt (l : Layout) (f : List Byte) : doffAt l f < 16 := by
  have h := (byteAt l.dataoff f).isLt
  rw [doffAt, BitVec.toNat_ushiftRight, Nat.shiftRight_eq_div_pow]
  omega

theorem reads_synHeader (l : Layout) :
    Reads (synHeader l) (fun c => IsSyn l c.frame)
      (fun c => slice l.tcp 20 c.frame) := by
  have hflags : ∀ f, byteAt 13 (slice l.tcp 20 f) = byteAt l.flags f :=
    fun f => byteAt_slice (by decide)
  refine ((reads_ptrAt l.tcp 20).bind fun tcp =>
    (Reads.check _).map fun _ => tcp).congr ?_ fun _ _ => rfl
  intro c
  simp only [IsSyn, synBit, ackBit, hflags]

/-- The data offset is a nibble, so of its bounds only the lower one
matters. -/
theorem reads_headerChecks {doff claimed base : Nat} (hd : doff < 16) :
    Reads (headerChecks doff claimed base)
      (fun _ => 6 ≤ doff ∧ claimed = base + doff * 4) (fun _ => ()) := by
  refine ((Reads.check _).bind fun _ => (Reads.check _).bind fun _ =>
    (Reads.check _).bind fun _ => Reads.check _).congr ?_ fun _ _ => rfl
  intro c
  simp only [maxTcpOpts, maxTcpSeg]
  omega

theorem txBudgetOk_iff (now : Nat) (m : Maps) :
    (txBudgetOk now m).1 = true ↔ HasBudget now m := by
  unfold txBudgetOk HasBudget
  cases m.txBudget with
  | none => simp
  | some b =>
      by_cases hr : b.ratePps = 0
      · simp [hr]
      · simp [hr, TxBucket.take, Level.take]

/-- Past the budget check there was a token, and it is gone. -/
theorem returns_bind_mintBudget {β : Type} {now : Nat} {k : Unit → Prog β}
    {b : β} :
    Returns (mintBudget now >>= k) c b c'
      ↔ HasBudget now c.maps
        ∧ Returns (k ()) { c with maps := (txBudgetOk now c.maps).2 }
          b c' := by
  have hrun : mintBudget now c
      = if (txBudgetOk now c.maps).1 = true then
          (some (), { c with maps := (txBudgetOk now c.maps).2 })
        else (none, { c with
          maps := count .syncookieTxcapped
            (BitVec.ofNat 64 c.frame.length)
            (txBudgetOk now c.maps).2 }) := by
    rw [mintBudget, bind_of_returns (returns_act_self _ _)]
    split <;> rfl
  by_cases hok : (txBudgetOk now c.maps).1 = true
  · rw [if_pos hok] at hrun
    rw [Returns, bind_of_returns hrun]
    exact (and_iff_right ((txBudgetOk_iff now c.maps).mp hok)).symm
  · rw [if_neg hok] at hrun
    rw [Returns, bind_of_fails hrun]
    exact iff_of_false (by simp)
      fun h => hok ((txBudgetOk_iff now c.maps).mpr h.1)

-- ============================================================ the gates

/-- The maps and the clock after the budget was charged. -/
def Ctx.charged (env : Env) (reads : Nat) (c : Ctx) : Ctx :=
  { c with
    maps := (txBudgetOk (env.clock c.reads) c.maps).2
    reads := c.reads + reads }

-- a header's field is the frame's byte at the field's place

theorem doffOf_slice (l : Layout) (f : List Byte) :
    doffOf (slice l.tcp 20 f) = doffAt l f := by
  rw [doffOf, byteAt_slice (by decide)]
  rfl

theorem ihl_slice (f : List Byte) :
    ihl (slice offIp 20 f) = byteAt offIp f &&& 0x0f := by
  rw [ihl, byteAt_slice (by decide)]
  rfl

theorem proto_slice (f : List Byte) :
    proto (slice offIp 20 f) = byteAt (offIp + 9) f :=
  byteAt_slice (by decide)

theorem totLen_slice (f : List Byte) :
    totLen (slice offIp 20 f) = be16At (offIp + 2) f := by
  rw [totLen, byteAt_slice (by decide), byteAt_slice (by decide)]
  rfl

theorem nextHdr_slice (f : List Byte) :
    nextHdr (slice offIp 40 f) = byteAt (offIp + 6) f :=
  byteAt_slice (by decide)

theorem payloadLen_slice (f : List Byte) :
    payloadLen (slice offIp 40 f) = be16At (offIp + 4) f := by
  rw [payloadLen, byteAt_slice (by decide), byteAt_slice (by decide)]
  rfl

/-- The IPv4 path lets a SYN through exactly when it is answerable, with
what the frame holds; one reading of the clock. -/
theorem returns_gateV4 {r : List Byte × List Byte × Syn} :
    Returns (gateV4 env) c r c'
      ↔ AnswerableV4 env c ∧ ∃ key, c.maps.cookieKey = some key
        ∧ r = (slice v4.src v4.addrLen c.frame,
            slice v4.dst v4.addrLen c.frame,
            synAt v4 (clientCookie env v4 key (env.clock c.reads) c.frame)
              c.frame)
        ∧ c' = c.charged env 1 := by
  rw [gateV4, (reads_ptrAt _ _).returns_bind, (Reads.check _).returns_bind,
    (reads_synHeader _).returns_bind, (reads_loadAddr4 _).returns_bind,
    (reads_loadBe16 _).returns_bind, (Reads.look _).returns_bind,
    (Reads.check _).returns_bind,
    (reads_headerChecks (doffOf_lt _)).returns_bind,
    (reads_loadAddr4 _).returns_bind, (reads_loadBe16 _).returns_bind,
    (reads_loadBe32 _).returns_bind, (reads_parseMss _).returns_bind,
    cookieKeys, returns_bind_fetch, ihl_slice, proto_slice, totLen_slice,
    doffOf_slice]
  simp only [ktimeGetNs, returns_bind_act, returns_bind_mintBudget,
    returns_pure]
  constructor
  · rintro ⟨_, ⟨hihl, hproto⟩, hsyn, _, _, _, ⟨hport, hnet⟩, ⟨h6, htot⟩, _,
      _, _, hmss, key, hkey, hbudget, rfl, rfl⟩
    have hsome : c.maps.cookieKey.isSome = true := by rw [hkey]; rfl
    exact ⟨⟨⟨hsyn, hport, h6, hmss, hsome, hbudget⟩, hihl, hproto, hnet,
      htot⟩, key, hkey, rfl, rfl⟩
  · rintro ⟨⟨⟨hsyn, hport, h6, hmss, _, hbudget⟩, hihl, hproto, hnet,
      htot⟩, key, hkey, rfl, rfl⟩
    -- every fixed field is inside the 20 bytes of the TCP header
    have hlen : v4.tcp + 20 ≤ c.frame.length := hsyn.1
    have hfits : ∀ n, n ≤ v4.tcp + 20 → n ≤ c.frame.length :=
      fun n hn => hn.trans hlen
    exact ⟨hfits _ (by decide), ⟨hihl, hproto⟩, hsyn, hfits _ (by decide),
      hfits _ (by decide), trivial, ⟨hport, hnet⟩, ⟨h6, htot⟩,
      hfits _ (by decide), hfits _ (by decide), hfits _ (by decide), hmss,
      key, hkey, hbudget, rfl, rfl⟩

theorem gateV4_passes :
    (∃ r c', Returns (gateV4 env) c r c') ↔ AnswerableV4 env c := by
  constructor
  · rintro ⟨r, c', h⟩
    exact (returns_gateV4.mp h).1
  · intro h
    obtain ⟨key, hkey⟩ := Option.isSome_iff_exists.mp h.1.2.2.2.2.1
    exact ⟨_, _, returns_gateV4.mpr ⟨h, key, hkey, rfl, rfl⟩⟩

/-- `compute_cookie_v6` reads the clock, and succeeds where it can read
the options: the rest of what it reads is before them. -/
theorem returns_bind_computeCookieV6 {β : Type} {key : CookieKeyValue}
    {k : BitVec 32 × BitVec 16 → Prog β} {b : β} :
    Returns (computeCookieV6 env key.k0 key.k1 >>= k) c b c'
      ↔ MssReadable v6.opts c.frame
        ∧ Returns (k (clientCookie env v6 key (env.clock c.reads) c.frame))
          { c with reads := c.reads + 1 } b c' := by
  have hreads := (reads_ptrAt v6.src 16).bind fun src =>
    (reads_ptrAt v6.dst 16).bind fun dst =>
      (reads_loadBe16 v6.srcport).bind fun srcPort =>
        (reads_loadBe16 v6.dstport).bind fun dstPort =>
          (reads_parseMss v6.opts).map fun mss =>
            makeCookieRaw env.sip key.k0 key.k1 src srcPort dst dstPort mss
              (BitVec.ofNat 64 (env.clock c.reads / nsPerSec))
  have hall : ∀ f : List Byte, MssReadable v6.opts f
      ↔ v6.src + 16 ≤ f.length ∧ v6.dst + 16 ≤ f.length
        ∧ v6.srcport + 2 ≤ f.length ∧ v6.dstport + 2 ≤ f.length
        ∧ MssReadable v6.opts f := by
    intro f
    refine ⟨fun h => ?_, fun h => h.2.2.2.2⟩
    have hfits : ∀ n, n ≤ v6.opts + 2 → n ≤ f.length :=
      fun n hn => hn.trans h.1
    exact ⟨hfits _ (by decide), hfits _ (by decide), hfits _ (by decide),
      hfits _ (by decide), h⟩
  rw [hall]
  exact hreads.returns_bind

/-- The IPv6 path likewise, with two readings of the clock: the budget is
charged at the first, the cookie minted at the second. -/
theorem returns_gateV6 {s : Syn} :
    Returns (gateV6 env) c s c'
      ↔ AnswerableV6 env c ∧ ∃ key, c.maps.cookieKey = some key
        ∧ s = synAt v6
            (clientCookie env v6 key (env.clock (c.reads + 1)) c.frame)
            c.frame
        ∧ c' = c.charged env 2 := by
  rw [gateV6, (reads_ptrAt _ _).returns_bind, (Reads.check _).returns_bind,
    (reads_synHeader _).returns_bind, (reads_loadBe16 _).returns_bind,
    (Reads.look _).returns_bind, (Reads.check _).returns_bind, loadAddr16,
    (reads_ptrAt _ _).returns_bind, (Reads.check _).returns_bind,
    (reads_headerChecks (doffOf_lt _)).returns_bind,
    (reads_loadBe16 _).returns_bind, (reads_loadBe32 _).returns_bind,
    cookieKeys, returns_bind_fetch, nextHdr_slice, payloadLen_slice,
    doffOf_slice]
  simp only [ktimeGetNs, returns_bind_act, returns_bind_mintBudget,
    returns_bind_computeCookieV6, returns_pure]
  constructor
  · rintro ⟨_, hnext, hsyn, _, _, hport, _, hnet, ⟨h6, hpay⟩, _, _, key,
      hkey, hbudget, hmss, rfl, rfl⟩
    have hsome : c.maps.cookieKey.isSome = true := by rw [hkey]; rfl
    rw [Nat.zero_add] at hpay
    exact ⟨⟨⟨hsyn, hport, h6, hmss, hsome, hbudget⟩, hnext, hnet, hpay⟩,
      key, hkey, rfl, rfl⟩
  · rintro ⟨⟨⟨hsyn, hport, h6, hmss, _, hbudget⟩, hnext, hnet, hpay⟩, key,
      hkey, rfl, rfl⟩
    have hlen : v6.tcp + 20 ≤ c.frame.length := hsyn.1
    have hfits : ∀ n, n ≤ v6.tcp + 20 → n ≤ c.frame.length :=
      fun n hn => hn.trans hlen
    rw [← Nat.zero_add (doffAt v6 c.frame * 4)] at hpay
    exact ⟨hfits _ (by decide), hnext, hsyn, hfits _ (by decide), trivial,
      hport, hfits _ (by decide), hnet, ⟨h6, hpay⟩, hfits _ (by decide),
      hfits _ (by decide), key, hkey, hbudget, hmss, rfl, rfl⟩

theorem gateV6_passes :
    (∃ r c', Returns (gateV6 env) c r c') ↔ AnswerableV6 env c := by
  constructor
  · rintro ⟨r, c', h⟩
    exact (returns_gateV6.mp h).1
  · intro h
    obtain ⟨key, hkey⟩ := Option.isSome_iff_exists.mp h.1.2.2.2.2.1
    exact ⟨_, _, returns_gateV6.mpr ⟨h, key, hkey, rfl, rfl⟩⟩

-- ============================================================== samples

/-- A box that protects port 443 of one address a family. -/
def sampleMaps : Maps where
  rate := ∅
  stats := fun _ => ⟨0, 0⟩
  txBudget := some ⟨0, 0, 0⟩
  cookieKey := some ⟨1, 2⟩
  protectV4 := [(⟨0xC6336401, Fin.last 32⟩, 1)]
  protectV6 := [(⟨0x20010DB8000000000000000000000002, Fin.last 128⟩, 1)]
  protectPort := AList.singleton 443 1

/-- A hash that returns the sum of its bytes, and a clock that stands. -/
def sampleEnv : Env :=
  ⟨fun _ _ bytes => bytes.foldl (fun n b => n + b.setWidth 64) 0,
    fun _ => 64000000000⟩

/-- The Ethernet header of a frame. -/
def sampleEth (hi lo : Byte) : List Byte :=
  [2, 0, 0, 0, 0, 1, 2, 0, 0, 0, 0, 2, hi, lo]

/-- A SYN's TCP header of `doff` words, up to the options. -/
def sampleTcp (doff : Byte) : List Byte :=
  [0xD4, 0x31, 0x01, 0xBB, 0, 0, 0x10, 0, 0, 0, 0, 0, doff <<< 4, 0x02,
    0xFF, 0xFF, 0, 0, 0, 0]

/-- An IPv4 SYN with six words of TCP header and the options given. -/
def sampleSynV4 (opts : List Byte) : Ctx :=
  ⟨sampleEth 0x08 0x00
    ++ [0x45, 0, 0, 44, 0, 0, 0, 0, 64, 6, 0, 0, 203, 0, 113, 7, 198, 51,
      100, 1]
    ++ sampleTcp 6 ++ opts, sampleMaps, 0⟩

/-- An IPv6 SYN with six words of TCP header and the options given. -/
def sampleSynV6 (opts : List Byte) : Ctx :=
  ⟨sampleEth 0x86 0xDD
    ++ [0x60, 0, 0, 0, 0, 24, 6, 64, 0x20, 0x01, 0x0D, 0xB8, 0, 0, 0, 0, 0,
      0, 0, 0, 0, 0, 0, 1, 0x20, 0x01, 0x0D, 0xB8, 0, 0, 0, 0, 0, 0, 0, 0,
      0, 0, 0, 2]
    ++ sampleTcp 6 ++ opts, sampleMaps, 0⟩

example : AnswerableV4 sampleEnv (sampleSynV4 [2, 4, 5, 0xB4])
    ∧ AnswerableV6 sampleEnv (sampleSynV6 [2, 4, 5, 0xB4]) := by
  decide +kernel

end Blackwall.Xdp
