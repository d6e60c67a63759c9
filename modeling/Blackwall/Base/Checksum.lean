/-
One's-complement sums of 16-bit words.

`onesSum` adds the big-endian words of a byte string with end-around
carry, as RFC 1071 describes, and a string that contains its own checksum
`verifies` when the sum is all ones. A program that keeps the plain sum
and folds the carries at the end gets the same verdict: both see the sum
modulo `2^16 - 1`, and neither makes zero out of a positive sum.
-/
import Mathlib.Algebra.Ring.Nat
import Blackwall.Base.Bytes

namespace Blackwall.Base

/-- The plain sum of the big-endian 16-bit words; an odd last byte is
padded with zero. -/
def wordSum : List Byte → Nat
  | hi :: lo :: rest => hi.toNat * 256 + lo.toNat + wordSum rest
  | [hi] => hi.toNat * 256
  | [] => 0

/-- One's-complement addition of 16-bit words: the carry goes around. -/
def onesAdd (a b : Nat) : Nat := (a + b) % 65536 + (a + b) / 65536

/-- The one's-complement sum of the big-endian 16-bit words. -/
def onesSum : List Byte → Nat
  | hi :: lo :: rest => onesAdd (hi.toNat * 256 + lo.toNat) (onesSum rest)
  | [hi] => hi.toNat * 256
  | [] => 0

/-- A string with its checksum in place sums to all ones. -/
def verifies (l : List Byte) : Prop := onesSum l = 0xFFFF

instance (l : List Byte) : Decidable (verifies l) :=
  inferInstanceAs (Decidable (_ = _))

-- ======================================================== the two sums

/-- The carried sum is the plain one modulo `65535`, in the range of a
word, and zero only when the plain one is. -/
theorem onesSum_spec : ∀ l : List Byte,
    onesSum l ≤ 65535 ∧ onesSum l % 65535 = wordSum l % 65535
      ∧ (wordSum l ≠ 0 → onesSum l ≠ 0)
  | [] => ⟨Nat.zero_le _, rfl, id⟩
  | [hi] => by
      have := hi.isLt
      refine ⟨?_, rfl, id⟩
      rw [onesSum]
      omega
  | hi :: lo :: rest => by
      obtain ⟨hle, hmod, hpos⟩ := onesSum_spec rest
      have := hi.isLt
      have := lo.isLt
      simp only [onesSum, wordSum, onesAdd]
      generalize onesSum rest = s at *
      generalize wordSum rest = t at *
      omega

theorem verifies_of_wordSum {l : List Byte} (hpos : wordSum l ≠ 0)
    (hmod : wordSum l % 65535 = 0) : verifies l := by
  obtain ⟨hle, hm, hp⟩ := onesSum_spec l
  have := hp hpos
  rw [verifies]
  omega

-- ====================================================== sums of the parts

theorem wordSum_append : ∀ {x : List Byte} (y : List Byte),
    x.length % 2 = 0 → wordSum (x ++ y) = wordSum x + wordSum y
  | [], y, _ => (Nat.zero_add _).symm
  | [_], _, h => by
      simp at h
  | hi :: lo :: x, y, h => by
      have hx : x.length % 2 = 0 := by
        rw [List.length_cons, List.length_cons] at h
        omega
      rw [List.cons_append, List.cons_append, wordSum, wordSum,
        wordSum_append y hx]
      omega

theorem wordSum_be16 (v : BitVec 16) : wordSum (be16 v) = v.toNat := by
  rw [be16, wordSum, wordSum, ← toNat_word16, word16_be16, Nat.add_zero]

theorem wordSum_be32 (v : BitVec 32) :
    wordSum (be32 v) = v.toNat / 65536 + v.toNat % 65536 := by
  have hv := v.isLt
  rw [be32, wordSum_append _ (by rw [length_be16]), wordSum_be16,
    wordSum_be16, BitVec.toNat_setWidth, BitVec.toNat_setWidth,
    BitVec.toNat_ushiftRight, Nat.shiftRight_eq_div_pow]
  omega

theorem wordSum_be16_append (v : BitVec 16) (y : List Byte) :
    wordSum (be16 v ++ y) = v.toNat + wordSum y := by
  rw [wordSum_append y (by rw [length_be16]), wordSum_be16]

theorem wordSum_be32_append (v : BitVec 32) (y : List Byte) :
    wordSum (be32 v ++ y)
      = v.toNat / 65536 + v.toNat % 65536 + wordSum y := by
  rw [wordSum_append y (by rw [length_be32]), wordSum_be32]

theorem wordSum_replicate (b : Byte) (k : Nat) :
    wordSum (List.replicate (2 * k) b) = k * (257 * b.toNat) := by
  induction k with
  | zero => rw [Nat.zero_mul]; rfl
  | succ k ih =>
      rw [show 2 * (k + 1) = 2 * k + 1 + 1 from rfl, List.replicate_succ,
        List.replicate_succ, wordSum, ih, Nat.add_mul]
      omega

-- ===================================================== filling one in

theorem onesSum_le_wordSum : ∀ l : List Byte, onesSum l ≤ wordSum l
  | [] => Nat.le_refl _
  | [_] => Nat.le_refl _
  | hi :: lo :: rest => by
      have ih := onesSum_le_wordSum rest
      simp only [onesSum, wordSum, onesAdd]
      omega

/-- The inverted sum. -/
def checksum (l : List Byte) : BitVec 16 :=
  BitVec.ofNat 16 (65535 - onesSum l)

/-- The inverted sum where zero means that there is none: its other
writing then. -/
def checksumNoZero (l : List Byte) : BitVec 16 :=
  if checksum l = 0 then 0xFFFF else checksum l

theorem toNat_checksum (l : List Byte) :
    (checksum l).toNat = 65535 - onesSum l := by
  rw [checksum, BitVec.toNat_ofNat]
  omega

/-- A word that makes up for the sum of the rest, in either writing,
verifies with it. -/
theorem verifies_around {x y : List Byte} {sum : BitVec 16}
    (hx : x.length % 2 = 0)
    (hsum : sum = checksum (x ++ y) ∨ sum = checksumNoZero (x ++ y)) :
    verifies (x ++ (be16 sum ++ y)) := by
  obtain ⟨hle, hmod, hpos⟩ := onesSum_spec (x ++ y)
  have hsmall := onesSum_le_wordSum (x ++ y)
  have hall : wordSum (x ++ (be16 sum ++ y))
      = wordSum (x ++ y) + sum.toNat := by
    rw [wordSum_append _ hx, wordSum_append _ hx, wordSum_be16_append]
    omega
  have hword : sum.toNat = 65535 - onesSum (x ++ y)
      ∨ sum.toNat = 65535 ∧ onesSum (x ++ y) = 65535 := by
    rcases hsum with rfl | rfl
    · exact .inl (toNat_checksum _)
    · rw [checksumNoZero]
      split
      · next hzero =>
        have hnat : 0 = 65535 - onesSum (x ++ y) := by
          rw [← toNat_checksum, hzero]
          rfl
        exact .inr ⟨rfl, by omega⟩
      · exact .inl (toNat_checksum _)
  apply verifies_of_wordSum
  · omega
  · omega

-- ============================================================== folding

/-- One fold of the carries of a 32-bit accumulator. -/
def foldOnce (sum : Nat) : Nat := sum % 65536 + sum / 65536

/-- Two folds of a 32-bit accumulator leave a word that is the sum modulo
`65535`, and zero if the sum is. -/
theorem foldOnce_twice {sum : Nat} (h : sum < 2 ^ 32) :
    foldOnce (foldOnce sum) ≤ 65535
      ∧ foldOnce (foldOnce sum) % 65535 = sum % 65535
      ∧ (sum = 0 → foldOnce (foldOnce sum) = 0) := by
  unfold foldOnce
  omega

/-- A string verifies when the folded sum of the rest of it is inverted
into it. -/
theorem verifies_of_folded {l : List Byte} {sum : Nat} (h : sum < 2 ^ 32)
    (hl : wordSum l = sum + (65535 - foldOnce (foldOnce sum))) :
    verifies l := by
  obtain ⟨hle, hmod, hzero⟩ := foldOnce_twice h
  have hne : wordSum l ≠ 0 := by omega
  have hmul : wordSum l % 65535 = 0 := by omega
  exact verifies_of_wordSum hne hmul

end Blackwall.Base
