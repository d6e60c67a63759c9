/-
The SYN-cookie core (`blackwall-cookie`): the arithmetic both the
userspace tier and the XDP program compile.

A cookie packs a time counter, the index of an MSS and a keyed hash of
the connection into the 32 bits of a sequence number. The hash is
SipHash-2-4 from a crate of its own; here it is an arbitrary function,
so nothing below depends on what it returns.
-/
import Blackwall.Base.Bytes

namespace Blackwall.Cookie

open Base

/-- `SipHasher24::new_with_keys(k0, k1).hash(bytes)`. -/
abbrev SipHash : Type := BitVec 64 → BitVec 64 → List Byte → BitVec 64

def mssTable : List (BitVec 16) :=
  [216, 536, 1200, 1360, 1400, 1440, 1460, 8960]

/-- `COUNTER_SHIFT`: slots of 64 seconds. -/
def counterShift : Nat := 6

def hashMask : BitVec 64 := 0x1FFFFF

/-- `mss_index_for`: the last entry not above the client's, `0` if there
is none. -/
def mssIndexFor (clientMss : BitVec 16) : Byte :=
  mssTable.zipIdx.foldl
    (fun idx e => if e.1 ≤ clientMss then BitVec.ofNat 8 e.2 else idx) 0

def decodeMssIndex (cookie : BitVec 32) : Byte :=
  ((cookie >>> 21) &&& 7).setWidth 8

def cookieForSlot (sip : SipHash) (k0 k1 : BitVec 64) (src : List Byte)
    (srcPort : BitVec 16) (dst : List Byte) (dstPort : BitVec 16)
    (mssIndex : Byte) (t : BitVec 64) : BitVec 32 :=
  let buf := src ++ be16 srcPort ++ dst ++ be16 dstPort ++ be64 t
    ++ [mssIndex]
  let hash := sip k0 k1 buf
  ((t &&& 0xFF).setWidth 32 <<< 24)
    ||| ((mssIndex &&& 7).setWidth 32 <<< 21)
    ||| (hash &&& hashMask).setWidth 32

/-- `MSS_TABLE[usize::from(index)]`; an index is below 8. -/
def mssAt (index : Byte) : BitVec 16 := mssTable.getD index.toNat 0

/-- `make_cookie_raw`: the sequence number and the MSS to advertise. -/
def makeCookieRaw (sip : SipHash) (k0 k1 : BitVec 64) (src : List Byte)
    (srcPort : BitVec 16) (dst : List Byte) (dstPort : BitVec 16)
    (clientMss : BitVec 16) (nowSecs : BitVec 64) :
    BitVec 32 × BitVec 16 :=
  let mssIndex := mssIndexFor clientMss
  (cookieForSlot sip k0 k1 src srcPort dst dstPort mssIndex
      (nowSecs >>> counterShift),
    mssAt mssIndex)

/-- `check_cookie_raw`: the cookie is recomputed for the current slot and
for the one before it, which wraps at slot 0. -/
def checkCookieRaw (sip : SipHash) (k0 k1 : BitVec 64) (src : List Byte)
    (srcPort : BitVec 16) (dst : List Byte) (dstPort : BitVec 16)
    (ackSeq : BitVec 32) (nowSecs : BitVec 64) : Option (BitVec 16) :=
  let cookie := ackSeq - 1
  let mssIndex := decodeMssIndex cookie
  let tNow := nowSecs >>> counterShift
  [tNow, tNow - 1].findSome? fun t =>
    if cookieForSlot sip k0 k1 src srcPort dst dstPort mssIndex t = cookie
    then some (mssAt mssIndex)
    else none

-- ======================================================= the MSS encoded

theorem mssIndexFor_mask (m : BitVec 16) :
    mssIndexFor m &&& 7 = mssIndexFor m := by
  unfold mssIndexFor mssTable
  simp only [List.zipIdx_cons, List.zipIdx_nil, List.foldl_cons,
    List.foldl_nil]
  repeat' split
  all_goals decide

/-- The index goes in at bit 21 and comes out there. -/
theorem decode_cookieForSlot (sip : SipHash) (k0 k1 : BitVec 64)
    (src : List Byte) (srcPort : BitVec 16) (dst : List Byte)
    (dstPort : BitVec 16) (i : Byte) (t : BitVec 64) :
    decodeMssIndex (cookieForSlot sip k0 k1 src srcPort dst dstPort i t)
      = i &&& 7 := by
  unfold decodeMssIndex cookieForSlot hashMask
  generalize sip k0 k1 _ = hash
  apply BitVec.eq_of_getLsbD_eq
  intro j hj
  simp only [BitVec.getLsbD_setWidth, BitVec.getLsbD_and,
    BitVec.getLsbD_ushiftRight, BitVec.getLsbD_or,
    BitVec.getLsbD_shiftLeft]
  -- bits 0 to 2 are the index, the mask clears the others
  have hbits : j = 0 ∨ j = 1 ∨ j = 2 ∨ j = 3 ∨ j = 4 ∨ j = 5 ∨ j = 6
      ∨ j = 7 := by
    omega
  rcases hbits with rfl | rfl | rfl | rfl | rfl | rfl | rfl | rfl <;> simp

/-- The MSS a cookie comes with is the one it encodes. -/
theorem makeCookieRaw_mss (sip : SipHash) (k0 k1 : BitVec 64)
    (src : List Byte) (srcPort : BitVec 16) (dst : List Byte)
    (dstPort clientMss : BitVec 16) (now : BitVec 64) :
    (makeCookieRaw sip k0 k1 src srcPort dst dstPort clientMss now).2
      = mssAt (decodeMssIndex
        (makeCookieRaw sip k0 k1 src srcPort dst dstPort clientMss
          now).1) := by
  simp only [makeCookieRaw]
  rw [decode_cookieForSlot, mssIndexFor_mask]

/-- The MSS `mss_index_for` picks, entry by entry from the top. -/
theorem mssAt_mssIndexFor (m : BitVec 16) :
    mssAt (mssIndexFor m)
      = if 8960 ≤ m then 8960 else if 1460 ≤ m then 1460
        else if 1440 ≤ m then 1440 else if 1400 ≤ m then 1400
        else if 1360 ≤ m then 1360 else if 1200 ≤ m then 1200
        else if 536 ≤ m then 536 else 216 := by
  unfold mssIndexFor
  simp only [mssTable, List.zipIdx_cons, List.zipIdx_nil, List.foldl_cons,
    List.foldl_nil, apply_ite mssAt]
  repeat' refine if_congr Iff.rfl rfl ?_
  split <;> rfl

/-- It is an entry of the table; if an entry is not above the client's, it
is the largest such. -/
theorem mssAt_mssIndexFor_spec (m : BitVec 16) :
    mssAt (mssIndexFor m) ∈ mssTable
      ∧ ((∃ e ∈ mssTable, e ≤ m) → mssAt (mssIndexFor m) ≤ m
        ∧ ∀ e ∈ mssTable, e ≤ m → e ≤ mssAt (mssIndexFor m)) := by
  rw [mssAt_mssIndexFor]
  simp only [mssTable, List.mem_cons, List.not_mem_nil, or_false,
    forall_eq_or_imp, exists_eq_or_imp, forall_eq, exists_eq_left]
  repeat' split
  all_goals
    refine ⟨by decide, fun h => ?_⟩
    bv_omega

-- ==================================================== the slot encoded

/-- The low byte of the slot goes in at bit 24 and comes out there. -/
theorem slotByte_cookieForSlot (sip : SipHash) (k0 k1 : BitVec 64)
    (src : List Byte) (srcPort : BitVec 16) (dst : List Byte)
    (dstPort : BitVec 16) (i : Byte) (t : BitVec 64) :
    ((cookieForSlot sip k0 k1 src srcPort dst dstPort i t) >>> 24).setWidth 8
      = t.setWidth 8 := by
  unfold cookieForSlot hashMask
  generalize sip k0 k1 _ = hash
  apply BitVec.eq_of_getLsbD_eq
  intro j hj
  simp only [BitVec.getLsbD_setWidth, BitVec.getLsbD_and,
    BitVec.getLsbD_ushiftRight, BitVec.getLsbD_or,
    BitVec.getLsbD_shiftLeft]
  have hbits : j = 0 ∨ j = 1 ∨ j = 2 ∨ j = 3 ∨ j = 4 ∨ j = 5 ∨ j = 6
      ∨ j = 7 := by
    omega
  rcases hbits with rfl | rfl | rfl | rfl | rfl | rfl | rfl | rfl <;> simp

section Check

variable (sip : SipHash) (k0 k1 : BitVec 64) (src : List Byte)
  (srcPort : BitVec 16) (dst : List Byte) (dstPort : BitVec 16)

/-- A cookie of the current slot or of the one before it is accepted, with
the MSS it was made with. -/
theorem checkCookieRaw_of_slot {i : Byte} (hi : i &&& 7 = i)
    {t now : BitVec 64}
    (ht : t = now >>> counterShift ∨ t = now >>> counterShift - 1) :
    checkCookieRaw sip k0 k1 src srcPort dst dstPort
        (cookieForSlot sip k0 k1 src srcPort dst dstPort i t + 1) now
      = some (mssAt i) := by
  have hback : cookieForSlot sip k0 k1 src srcPort dst dstPort i t + 1 - 1
      = cookieForSlot sip k0 k1 src srcPort dst dstPort i t :=
    BitVec.add_sub_cancel _ _
  simp only [checkCookieRaw, hback, decode_cookieForSlot, hi,
    List.findSome?_cons, List.findSome?_nil]
  rcases ht with rfl | rfl
  · rw [if_pos rfl]
  · -- the current slot may collide; the answer is the same
    split
    · next heq =>
      split at heq
      · exact heq.symm
      · cases heq
    · rw [if_pos rfl]

/-- A cookie of a slot whose low byte is neither the current one's nor
that of the one before it is refused, whatever the hash returns. -/
theorem checkCookieRaw_of_stale (i : Byte) {t now : BitVec 64}
    (hnow : t.setWidth 8 ≠ (now >>> counterShift).setWidth 8)
    (hprev : t.setWidth 8 ≠ (now >>> counterShift - 1).setWidth 8) :
    checkCookieRaw sip k0 k1 src srcPort dst dstPort
        (cookieForSlot sip k0 k1 src srcPort dst dstPort i t + 1) now
      = none := by
  have hback : cookieForSlot sip k0 k1 src srcPort dst dstPort i t + 1 - 1
      = cookieForSlot sip k0 k1 src srcPort dst dstPort i t :=
    BitVec.add_sub_cancel _ _
  have hslot : ∀ (j : Byte) (t' : BitVec 64),
      t.setWidth 8 ≠ t'.setWidth 8 →
      cookieForSlot sip k0 k1 src srcPort dst dstPort j t'
        ≠ cookieForSlot sip k0 k1 src srcPort dst dstPort i t := by
    intro j t' hne heq
    have hbyte := congrArg (fun c : BitVec 32 => (c >>> 24).setWidth 8) heq
    simp only [slotByte_cookieForSlot] at hbyte
    exact hne hbyte.symm
  simp only [checkCookieRaw, hback, List.findSome?_cons,
    List.findSome?_nil]
  rw [if_neg (hslot _ _ hnow), if_neg (hslot _ _ hprev)]

end Check

end Blackwall.Cookie
