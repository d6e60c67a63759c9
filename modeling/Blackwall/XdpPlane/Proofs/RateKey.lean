/-
Whose packets a rate limit throttles.

The filter looks a packet up under the key userspace wrote for the
packet's source (`drop_iff`), so a limit applies to the packets of every
source with its key. Within a family keys tell addresses apart; across
families an IPv4 address shares its key with one IPv6 address, the one
that starts with the same four octets and goes on with zeros
(`rateKey_eq_iff`).
-/
import Blackwall.Xdp.Filter
import Blackwall.Xdp.Proofs.Access
import Blackwall.XdpPlane.Dataplane

namespace Blackwall.XdpPlane

open Base Fallible
open Xdp

-- ============================================================== the keys

theorem length_octets_v4 (a : BitVec 32) :
    (IpAddr.v4 a).octets.length = 4 :=
  length_beBytes 4 a.toNat

theorem length_octets_v6 (a : BitVec 128) :
    (IpAddr.v6 a).octets.length = 16 :=
  length_beBytes 16 a.toNat

theorem beNat_octets_v4 (a : BitVec 32) :
    beNat (IpAddr.v4 a).octets = a.toNat := by
  rw [IpAddr.octets, beNat_beBytes]
  exact Nat.mod_eq_of_lt (Nat.lt_of_lt_of_le a.isLt (by decide))

theorem beNat_octets_v6 (a : BitVec 128) :
    beNat (IpAddr.v6 a).octets = a.toNat := by
  rw [IpAddr.octets, beNat_beBytes]
  exact Nat.mod_eq_of_lt (Nat.lt_of_lt_of_le a.isLt (by decide))

theorem rateKey_v4 (a : BitVec 32) :
    rateKey (.v4 a) = (IpAddr.v4 a).octets ++ List.replicate 12 0 := by
  rw [rateKey, put, length_octets_v4]
  rfl

theorem length_rateKey (a : IpAddr) : (rateKey a).length = 16 := by
  cases a with
  | v4 a => rw [rateKey_v4, List.length_append, length_octets_v4,
      List.length_replicate]
  | v6 a => exact length_octets_v6 a

/-- The number a key writes. -/
def keyNat : IpAddr → Nat
  | .v4 a => a.toNat * 2 ^ 96
  | .v6 a => a.toNat

theorem beNat_rateKey (a : IpAddr) : beNat (rateKey a) = keyNat a := by
  cases a with
  | v4 a =>
      have hpow : 256 ^ 12 = 2 ^ 96 := by decide
      rw [rateKey_v4, beNat_append, beNat_zeros, List.length_replicate,
        beNat_octets_v4, keyNat, hpow, Nat.add_zero]
  | v6 a => exact beNat_octets_v6 a

/-- An IPv4 address and the IPv6 address of its four octets and twelve
zeros. -/
def SharesKey : IpAddr → IpAddr → Prop
  | .v4 x, .v6 y => y.toNat = x.toNat * 2 ^ 96
  | .v6 y, .v4 x => y.toNat = x.toNat * 2 ^ 96
  | _, _ => False

instance : DecidableRel SharesKey := fun a b =>
  match a, b with
  | .v4 _, .v6 _ | .v6 _, .v4 _ => inferInstanceAs (Decidable (_ = _))
  | .v4 _, .v4 _ | .v6 _, .v6 _ => inferInstanceAs (Decidable False)

/-- Different sources share a key only across the families. -/
theorem rateKey_eq_iff {a b : IpAddr} (hab : a ≠ b) :
    rateKey a = rateKey b ↔ SharesKey a b := by
  rw [← beNat_inj ((length_rateKey a).trans (length_rateKey b).symm),
    beNat_rateKey, beNat_rateKey]
  cases a with
  | v4 x =>
      cases b with
      | v4 y =>
          refine iff_of_false (fun h => hab ?_) id
          congr 1
          apply BitVec.eq_of_toNat_eq
          simp only [keyNat] at h
          omega
      | v6 y => exact eq_comm
  | v6 x =>
      cases b with
      | v4 y => exact Iff.rfl
      | v6 y =>
          refine iff_of_false (fun h => hab ?_) id
          congr 1
          exact BitVec.eq_of_toNat_eq h

-- ============================================================ the packets

/-- A frame whose IP header is whole and names `a` as its source. -/
def SentFrom : IpAddr → List Byte → Prop
  | .v4 a, f => 34 ≤ f.length ∧ slice 12 2 f = etherIpv4
      ∧ slice 26 4 f = (IpAddr.v4 a).octets
  | .v6 a, f => 54 ≤ f.length ∧ slice 12 2 f = etherIpv6
      ∧ slice 22 16 f = (IpAddr.v6 a).octets

/-- Is the address on the blocklist of its family? -/
def blocked : IpAddr → Tables → Bool
  | .v4 a, t => blockedV4 (IpAddr.v4 a).octets t
  | .v6 a, t => blockedV6 (IpAddr.v6 a).octets t

theorem counted_fst (r : Reason) (n : BitVec 64) (v : Verdict) (c : Ctx) :
    (counted r n v c).1 = some v := rfl

/-- The SYN-cookie path drops nothing. -/
theorem synackOrPass_ne_drop (p : Prog Xdp.XdpAction) (n : BitVec 64)
    (c : Ctx) : (synackOrPass p n c).1 ≠ some .drop := by
  rw [synackOrPass, bind_attempt]
  cases (p c).1 with
  | none => rw [counted_fst]; decide
  | some v => cases v; rw [counted_fst]; decide

/-- Nor does the redirect. -/
theorem redirect_ne_drop (t : Tables) (c : Ctx) :
    (tryRedirectUdpV4 t c).1 ≠ some .drop := by
  intro h
  have hret : Returns (tryRedirectUdpV4 t) c .drop
      (tryRedirectUdpV4 t c).2 := Prod.ext h rfl
  unfold tryRedirectUdpV4 at hret
  obtain ⟨_, _, _, hret⟩ := returns_bind.mp hret
  obtain ⟨_, _, _, hret⟩ := returns_bind.mp hret
  obtain ⟨_, _, _, hret⟩ := returns_bind.mp hret
  obtain ⟨_, _, _, hret⟩ := returns_bind.mp hret
  have hv := (returns_pure.mp hret).1
  split at hv <;> cases hv

/-- After the blocklist, over its rate or not. -/
theorem overRateNow_bind (env : Env) (key : List Byte)
    {k : Bool → Prog Verdict} (c : Ctx) :
    ((overRateNow env key >>= k) c)
      = k (overRate key (env.ktime c.reads % 2 ^ 64) c.maps).1
          { frame := c.frame, reads := c.reads + 1
            maps := (overRate key (env.ktime c.reads % 2 ^ 64)
              c.maps).2 } := rfl

theorem filterV4_drop_iff (env : Env) (t : Tables) (n : BitVec 64)
    {c : Ctx} {a : BitVec 32} (h : SentFrom (.v4 a) c.frame) :
    (filterV4 env t n c).1 = some .drop
      ↔ blocked (.v4 a) t = true
        ∨ (overRate (rateKey (.v4 a)) (env.ktime c.reads % 2 ^ 64)
          c.maps).1 = true := by
  obtain ⟨hlen, -, hsrc⟩ := h
  have hip : srcAddr4 (slice offIp 20 c.frame) = (IpAddr.v4 a).octets := by
    rw [srcAddr4, slice_slice (by decide)]
    exact hsrc
  rw [filterV4, bind_of_returns ((reads_ptrAt offIp 20).succeeds c hlen)]
  simp only [hip]
  by_cases hb : blockedV4 (IpAddr.v4 a).octets t = true
  · rw [if_pos hb]
    exact iff_of_true rfl (Or.inl hb)
  · rw [if_neg hb, overRateNow_bind]
    change _ ↔ blockedV4 _ t = true ∨ (overRate (put 0 _ _) _ _).1 = true
    by_cases ho : (overRate (put 0 (IpAddr.v4 a).octets
        (List.replicate 16 0)) (env.ktime c.reads % 2 ^ 64)
        c.maps).1 = true
    · rw [if_pos ho]
      exact iff_of_true rfl (Or.inr ho)
    · rw [if_neg ho]
      refine iff_of_false ?_ (not_or.mpr ⟨hb, ho⟩)
      rw [bind_attempt]
      generalize Ctx.mk _ _ _ = c'
      cases hv : (tryRedirectUdpV4 t c').1 with
      | some v =>
          rw [counted_fst, ← hv]
          exact redirect_ne_drop t c'
      | none => exact synackOrPass_ne_drop _ _ _

theorem filterV6_drop_iff (env : Env) (t : Tables) (n : BitVec 64)
    {c : Ctx} {a : BitVec 128} (h : SentFrom (.v6 a) c.frame) :
    (filterV6 env t n c).1 = some .drop
      ↔ blocked (.v6 a) t = true
        ∨ (overRate (rateKey (.v6 a)) (env.ktime c.reads % 2 ^ 64)
          c.maps).1 = true := by
  obtain ⟨hlen, -, hsrc⟩ := h
  have hip : srcAddr6 (slice offIp 40 c.frame) = (IpAddr.v6 a).octets := by
    rw [srcAddr6, slice_slice (by decide)]
    exact hsrc
  rw [filterV6, bind_of_returns ((reads_ptrAt offIp 40).succeeds c hlen)]
  simp only [hip]
  by_cases hb : blockedV6 (IpAddr.v6 a).octets t = true
  · rw [if_pos hb]
    exact iff_of_true rfl (Or.inl hb)
  · rw [if_neg hb, overRateNow_bind]
    change _ ↔ blockedV6 _ t = true
      ∨ (overRate (IpAddr.v6 a).octets _ _).1 = true
    by_cases ho : (overRate (IpAddr.v6 a).octets
        (env.ktime c.reads % 2 ^ 64) c.maps).1 = true
    · rw [if_pos ho]
      exact iff_of_true rfl (Or.inr ho)
    · rw [if_neg ho]
      exact iff_of_false (synackOrPass_ne_drop _ _ _)
        (not_or.mpr ⟨hb, ho⟩)

/-- A packet is dropped when its source is blocked or over the rate the
maps hold under the source's `rate_key`. -/
theorem drop_iff (env : Env) (t : Tables) {c : Ctx} {a : IpAddr}
    (h : SentFrom a c.frame) :
    (xdpFilter env t c).1 = .drop
      ↔ blocked a t = true
        ∨ (overRate (rateKey a) (env.ktime c.reads % 2 ^ 64)
          c.maps).1 = true := by
  have hget : ∀ o : Option Verdict,
      o.getD .pass = .drop ↔ o = some .drop := by
    intro o
    cases o with
    | none => exact iff_of_false (by decide) (by simp)
    | some v => simp
  rw [xdpFilter, hget, tryFilter, bind_look]
  cases a with
  | v4 a =>
      have hlen : 0 + 14 ≤ c.frame.length := by
        have := h.1
        omega
      have hty : etherType (slice 0 14 c.frame) = etherIpv4 := by
        rw [etherType, slice_slice (by decide)]
        exact h.2.1
      rw [bind_of_returns ((reads_ptrAt 0 14).succeeds c hlen), if_pos hty]
      exact filterV4_drop_iff env t _ h
  | v6 a =>
      have hlen : 0 + 14 ≤ c.frame.length := by
        have := h.1
        omega
      have hty : etherType (slice 0 14 c.frame) = etherIpv6 := by
        rw [etherType, slice_slice (by decide)]
        exact h.2.1
      have hne : ¬ etherType (slice 0 14 c.frame) = etherIpv4 := by
        rw [hty]
        decide
      rw [bind_of_returns ((reads_ptrAt 0 14).succeeds c hlen), if_neg hne,
        if_pos hty]
      exact filterV6_drop_iff env t _ h

-- ============================================================ isolation

/-- A limit for one source leaves the decisions for every other key. -/
theorem overRate_rateLimit {a : IpAddr} {key : List Byte}
    (hne : key ≠ rateKey a) (pps burst now : Nat) (m : Maps) :
    (overRate key now (rateLimit a pps burst m)).1
      = (overRate key now m).1 := by
  have hlk : (rateLimit a pps burst m).rate.lookup key
      = m.rate.lookup key :=
    AList.lookup_insert_ne hne
  unfold overRate
  rw [hlk]
  cases m.rate.lookup key with
  | none => rfl
  | some b => rfl

/-- Two sources are told apart, each found by the filter under its own
key, and a limit for the first never decides a packet of the second,
unless one is IPv4 and the other the IPv6 address of its octets and
zeros. -/
theorem rate_limit_isolated_iff (a b : IpAddr) (hab : a ≠ b) :
    (rateKey a ≠ rateKey b
      ∧ (∀ (env : Env) (t : Tables) (c : Ctx) (x : IpAddr),
        SentFrom x c.frame → ((xdpFilter env t c).1 = .drop
          ↔ blocked x t = true
            ∨ (overRate (rateKey x) (env.ktime c.reads % 2 ^ 64)
              c.maps).1 = true))
      ∧ ∀ (env : Env) (t : Tables) (c : Ctx) (pps burst : Nat),
        SentFrom b c.frame →
        ((xdpFilter env t { c with
            maps := rateLimit a pps burst c.maps }).1 = .drop
          ↔ (xdpFilter env t c).1 = .drop))
      ↔ ¬ SharesKey a b := by
  rw [← rateKey_eq_iff hab]
  constructor
  · intro h
    exact h.1
  · intro hne
    refine ⟨hne, fun env t c x hx => drop_iff env t hx, ?_⟩
    intro env t c pps burst hb
    have hlim := drop_iff env t
      (c := { c with maps := rateLimit a pps burst c.maps }) hb
    rw [overRate_rateLimit (Ne.symm hne)] at hlim
    exact hlim.trans (drop_iff env t hb).symm

/-- An IPv4 and an IPv6 source of documentation prefixes are isolated. -/
theorem rate_limit_isolated_documentation :
    rateKey (.v4 0xC0000201)
      ≠ rateKey (.v6 0x20010DB8000000000000000000000001) :=
  ((rate_limit_isolated_iff (.v4 0xC0000201)
    (.v6 0x20010DB8000000000000000000000001) (by decide)).mpr
      (by decide +kernel)).1

/-- A frame with nothing but an IPv6 header from `src`. -/
def bareV6 (src : List Byte) : List Byte :=
  List.replicate 12 0 ++ etherIpv6 ++ [0x60, 0, 0, 0, 0, 0, 59, 64] ++ src
    ++ List.replicate 16 0

/-- Empty maps. -/
def emptyMaps : Maps where
  rate := ∅
  stats := fun _ => ⟨0, 0⟩
  txBudget := none
  cookieKey := none
  protectV4 := []
  protectV6 := []
  protectPort := ∅

/-- A limit of one packet for 203.0.113.7 is one for `cb00:7107::`: the
second packet of the IPv6 source is dropped by it. -/
theorem ipv4_limit_drops_ipv6 :
    let a : IpAddr := .v4 0xCB007107
    let b : IpAddr := .v6 0xCB007107000000000000000000000000
    let c : Ctx := ⟨bareV6 b.octets, emptyMaps, 0⟩
    let env : Env := ⟨fun _ _ _ => 0, fun _ => 0⟩
    let t : Tables := ⟨[], [], ∅, false⟩
    let limited : Ctx := { c with maps := rateLimit a 1 1 c.maps }
    a ≠ b ∧ rateKey a = rateKey b
      ∧ (xdpFilter env t (xdpFilter env t c).2).1 = .pass
      ∧ (xdpFilter env t (xdpFilter env t limited).2).1 = .drop := by
  decide +kernel

end Blackwall.XdpPlane
