/-
The SYN-cookies of the userspace tier (`blackwall-deception/src/cookie.rs`):
a key of 16 bytes and a tuple of addresses on top of the shared core.
-/
import Blackwall.Cookie
import Blackwall.Net

namespace Blackwall.Deception

open Base Cookie

/-- `CookieKey`: 16 secret bytes. -/
structure CookieKey where
  bytes : List Byte
  length_bytes : bytes.length = 16

/-- `CookieKey::to_u64_pair`. -/
def CookieKey.toU64Pair (key : CookieKey) : BitVec 64 × BitVec 64 :=
  (fromLeBytes (slice 0 8 key.bytes), fromLeBytes (slice 8 8 key.bytes))

structure ConnTuple where
  src : IpAddr
  srcPort : BitVec 16
  dst : IpAddr
  dstPort : BitVec 16
  deriving DecidableEq, Repr

def makeCookie (sip : SipHash) (key : CookieKey) (tuple : ConnTuple)
    (clientMss : BitVec 16) (nowSecs : BitVec 64) :
    BitVec 32 × BitVec 16 :=
  let (k0, k1) := key.toU64Pair
  makeCookieRaw sip k0 k1 tuple.src.octets tuple.srcPort
    tuple.dst.octets tuple.dstPort clientMss nowSecs

def checkCookie (sip : SipHash) (key : CookieKey) (tuple : ConnTuple)
    (ackSeq : BitVec 32) (nowSecs : BitVec 64) : Option (BitVec 16) :=
  let (k0, k1) := key.toU64Pair
  checkCookieRaw sip k0 k1 tuple.src.octets tuple.srcPort
    tuple.dst.octets tuple.dstPort ackSeq nowSecs

/-- The 64-second slot of a time. -/
def slotOf (nowSecs : BitVec 64) : Nat :=
  (nowSecs >>> counterShift).toNat

-- ============================================================ round trip

theorem slot_mono {now now' : BitVec 64} (h : now ≤ now') :
    now >>> counterShift ≤ now' >>> counterShift := by
  rw [BitVec.le_def, BitVec.toNat_ushiftRight, BitVec.toNat_ushiftRight,
    Nat.shiftRight_eq_div_pow, Nat.shiftRight_eq_div_pow]
  exact Nat.div_le_div_right h

/-- The same slot, or the one before. -/
theorem slot_eq_or_prev {t t' : BitVec 64} (hle : t ≤ t')
    (hd : t'.toNat - t.toNat = 0 ∨ t'.toNat - t.toNat = 1) :
    t = t' ∨ t = t' - 1 := by
  rcases hd with hd | hd
  · refine Or.inl ?_
    bv_omega
  · refine Or.inr ?_
    bv_omega

/-- The low bytes of two slots whose distance is neither 0 nor 1. -/
theorem slotByte_ne {t t' : BitVec 64} (hle : t ≤ t')
    (h0 : (t'.toNat - t.toNat) % 256 ≠ 0)
    (h1 : (t'.toNat - t.toNat) % 256 ≠ 1) :
    t.setWidth 8 ≠ t'.setWidth 8
      ∧ t.setWidth 8 ≠ (t' - 1).setWidth 8 := by
  constructor
  · intro heq
    have hnat := congrArg BitVec.toNat heq
    bv_omega
  · intro heq
    have hnat := congrArg BitVec.toNat heq
    bv_omega

/-- A cookie is good in its slot and the next and has expired in every
slot whose distance is neither 0 nor 1 modulo 256, whatever the hash
returns; its MSS is the largest of the table the client allows. -/
theorem cookie_round_trip (sip : SipHash) (key : CookieKey)
    (tuple : ConnTuple) (clientMss : BitVec 16) (now now' : BitVec 64)
    (h : now ≤ now') (c : BitVec 32) (m : BitVec 16)
    (hmade : makeCookie sip key tuple clientMss now = (c, m)) :
    ((slotOf now' - slotOf now = 0 ∨ slotOf now' - slotOf now = 1) →
      checkCookie sip key tuple (c + 1) now' = some m)
    ∧ ((slotOf now' - slotOf now) % 256 ≠ 0 →
      (slotOf now' - slotOf now) % 256 ≠ 1 →
      checkCookie sip key tuple (c + 1) now' = none)
    ∧ m ∈ mssTable
    ∧ ((∃ e ∈ mssTable, e ≤ clientMss) → m ≤ clientMss
      ∧ ∀ e ∈ mssTable, e ≤ clientMss → e ≤ m) := by
  simp only [makeCookie, makeCookieRaw, Prod.mk.injEq] at hmade
  obtain ⟨rfl, rfl⟩ := hmade
  refine ⟨fun hd => ?_, fun h0 h1 => ?_, mssAt_mssIndexFor_spec clientMss⟩
  · exact checkCookieRaw_of_slot _ _ _ _ _ _ _
      (mssIndexFor_mask clientMss) (slot_eq_or_prev (slot_mono h) hd)
  · obtain ⟨hnow, hprev⟩ := slotByte_ne (slot_mono h) h0 h1
    exact checkCookieRaw_of_stale _ _ _ _ _ _ _ _ hnow hprev

/-- A key and a connection. -/
def sampleKey : CookieKey :=
  ⟨[0, 1, 2, 3, 4, 5, 6, 7, 8, 9, 10, 11, 12, 13, 14, 15], rfl⟩

def sampleTuple : ConnTuple :=
  ⟨.v4 0xCB007107, 54321, .v4 0xC6336401, 443⟩

/-- A cookie made in the last second of a slot, checked in the next slot
and in the one after. -/
theorem cookie_round_trip_slots :
    checkCookie (fun _ _ b => BitVec.ofNat 64 (beNat b)) sampleKey
        sampleTuple
        ((makeCookie (fun _ _ b => BitVec.ofNat 64 (beNat b)) sampleKey
          sampleTuple 1460 63).1 + 1) 64 = some 1460
      ∧ checkCookie (fun _ _ b => BitVec.ofNat 64 (beNat b)) sampleKey
        sampleTuple
        ((makeCookie (fun _ _ b => BitVec.ofNat 64 (beNat b)) sampleKey
          sampleTuple 1460 63).1 + 1) 128 = none :=
  ⟨(cookie_round_trip (fun _ _ b => BitVec.ofNat 64 (beNat b)) sampleKey
      sampleTuple 1460 63 64 (by decide) _ 1460 rfl).1 (by decide),
    (cookie_round_trip (fun _ _ b => BitVec.ofNat 64 (beNat b)) sampleKey
      sampleTuple 1460 63 128 (by decide) _ 1460 rfl).2.1 (by decide)
      (by decide)⟩

end Blackwall.Deception
