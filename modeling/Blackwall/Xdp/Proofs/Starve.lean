/-
What the token buckets guarantee a busy source.

`over_rate` and `tx_budget_ok` are the same bucket on two maps, so both
refine `Level.take` and inherit what the library proves of it. The refill
throws the fraction of a token away while the refill time always moves
on: a source that sends more often than its rate is not throttled to the
rate but, once its burst is spent, to nothing. The rate is kept where no
fraction is lost. From above the buckets hold without a condition: a
source is admitted its burst and what the time is worth, and no more
(`bucket_ceiling`).
-/
import Mathlib.Algebra.Order.Field.Basic
import Mathlib.Algebra.Order.Ring.Rat
import Mathlib.Tactic.Ring
import Blackwall.Xdp.Maps

namespace Blackwall.Xdp

open Base

theorem nsPerSec_pos : 0 < nsPerSec := by decide

theorem nsPerSec_lt : nsPerSec < 2 ^ 64 := by decide

-- ================================================== the maps as a bucket

/-- `over_rate` as a decision to admit. -/
def admits (src : List Byte) (now : Nat) (m : Maps) : Bool × Maps :=
  (!(overRate src now m).1, (overRate src now m).2)

/-- The bucket of `src` is at level `l`, with constants `P`. -/
def RateAt (src : List Byte) (P : BucketParams) (m : Maps) (l : Level) :
    Prop :=
  ∃ b, m.rate.lookup src = some b ∧ b.params = P ∧ b.level = l

/-- The mint budget is configured and at level `l`, with constants
`P`. -/
def TxAt (P : BucketParams) (m : Maps) (l : Level) : Prop :=
  ∃ b, m.txBudget = some b ∧ b.ratePps ≠ 0 ∧ b.params = P ∧ b.level = l

theorem admits_refines (src : List Byte) (P : BucketParams) :
    Refines P (admits src) (RateAt src P) where
  out := by
    rintro m _ now ⟨b, hb, rfl, rfl⟩
    simp [admits, overRate, hb, RateBucket.take]
  next := by
    rintro m _ now ⟨b, hb, rfl, rfl⟩
    refine ⟨(b.take now).2, ?_, rfl, rfl⟩
    simp [admits, overRate, hb]

theorem txBudgetOk_refines (P : BucketParams) :
    Refines P txBudgetOk (TxAt P) where
  out := by
    rintro m _ now ⟨b, hb, hr, rfl, rfl⟩
    simp [txBudgetOk, hb, hr, TxBucket.take]
  next := by
    rintro m _ now ⟨b, hb, hr, rfl, rfl⟩
    refine ⟨(b.take now).2, ?_, hr, rfl, rfl⟩
    simp [txBudgetOk, hb, hr]

/-- A box with one rate-limited source and a mint budget. -/
def sampleBuckets (b : RateBucket) (x : TxBucket) : Maps where
  rate := AList.singleton [203, 0, 113, 7] b
  stats := fun _ => ⟨0, 0⟩
  txBudget := some x
  cookieKey := none
  protectV4 := []
  protectV6 := []
  protectPort := ∅

/-- A thousand packets a second are allowed and two thousand are sent.
Three milliseconds are worth three packets; after the burst neither bucket
admits one. -/
theorem half_token_gaps_admit_none :
    let m := sampleBuckets ⟨1, 0, 1000, 1⟩ ⟨0, 0, 1000⟩
    let ts := [0, 500000, 1000000, 1500000, 2000000, 2500000, 3000000,
      3500000]
    ts.IsChain (fun a c => a ≤ c ∧ 1000 * (c - a) ≤ nsPerSec)
      ∧ 1000 * 3000000 / nsPerSec = 3
      ∧ admittedIn 500000 3500000
          (decisions (admits [203, 0, 113, 7]) m ts) = 0
      ∧ admittedIn 500000 3500000 (decisions txBudgetOk m ts) = 0 := by
  decide +kernel

-- ================================================== where the rate is kept

/-- The packet at `now` finds a token in its source's bucket, or the time
since the last refill is worth a whole number of tokens. -/
def rateWhole (src : List Byte) (m : Maps) (now : Nat) : Prop :=
  ∀ b ∈ m.rate.lookup src, Whole b.params now b.level

/-- The same of the mint budget. -/
def txWhole (m : Maps) (now : Nat) : Prop :=
  ∀ b ∈ m.txBudget, Whole b.params now b.level

instance (src : List Byte) (m : Maps) (now : Nat) :
    Decidable (rateWhole src m now) :=
  inferInstanceAs (Decidable (∀ b ∈ m.rate.lookup src, _))

instance (m : Maps) (now : Nat) : Decidable (txWhole m now) :=
  inferInstanceAs (Decidable (∀ b ∈ m.txBudget, _))

/-- A bucket of rate and burst at least one, whose packets come at most a
token apart and never lose a fraction of one, admits its rate over every
interval the packets cover; per source, and for the mint budget. -/
theorem busy_bucket_keeps_rate (src : List Byte) (m : Maps) (t : Nat)
    (ts : List Nat) (s d : Nat) (hs : t ≤ s) (hd : s + d ≤ lastTime t ts) :
    (∀ b : RateBucket, m.rate.lookup src = some b → 1 ≤ b.ratePps →
      1 ≤ b.burst →
      List.IsChain
        (fun a c => a ≤ c ∧ b.ratePps * (c - a) ≤ nsPerSec) (t :: ts) →
      Guarded (fun now m => (overRate src now m).2) (rateWhole src)
        (overRate src t m).2 ts →
      b.ratePps * d / nsPerSec
        ≤ admittedIn s (s + d) (decisions (admits src) m (t :: ts)) + 1)
    ∧ (∀ b : TxBucket, m.txBudget = some b → 1 ≤ b.ratePps →
      1 ≤ b.params.burst →
      List.IsChain
        (fun a c => a ≤ c ∧ b.ratePps * (c - a) ≤ nsPerSec) (t :: ts) →
      Guarded (fun now m => (txBudgetOk now m).2) txWhole
        (txBudgetOk t m).2 ts →
      b.ratePps * d / nsPerSec
        ≤ admittedIn s (s + d) (decisions txBudgetOk m (t :: ts)) + 1) := by
  constructor
  · intro b hb hrate hburst hchain hg
    have hat : RateAt src b.params m b.level := ⟨b, hb, rfl, rfl⟩
    refine (admits_refines src b.params).rate_le_admitted ?_ hburst hrate
      nsPerSec_pos nsPerSec_lt hat hchain hg hs hd
    rintro m l now ⟨b', hb', hP, rfl⟩ hw
    rw [← hP]
    exact hw b' hb'
  · intro b hb hrate hburst hchain hg
    have hat : TxAt b.params m b.level :=
      ⟨b, hb, Nat.ne_of_gt hrate, rfl, rfl⟩
    refine (txBudgetOk_refines b.params).rate_le_admitted ?_ hburst hrate
      nsPerSec_pos nsPerSec_lt hat hchain hg hs hd
    rintro m l now ⟨b', hb', _, hP, rfl⟩ hw
    rw [← hP]
    exact hw b' hb'

/-- Two packets a second, exactly half a second apart: a second admits
at least one less than two. -/
theorem busy_bucket_keeps_rate_paced :
    2 * 1000000000 / nsPerSec
        ≤ admittedIn 0 1000000000
            (decisions (admits [203, 0, 113, 7])
              (sampleBuckets ⟨1, 0, 2, 1⟩ ⟨1, 0, 2⟩)
              [0, 500000000, 1000000000]) + 1
      ∧ 2 * 1000000000 / nsPerSec
        ≤ admittedIn 0 1000000000
            (decisions txBudgetOk (sampleBuckets ⟨1, 0, 2, 1⟩ ⟨1, 0, 2⟩)
              [0, 500000000, 1000000000]) + 1 :=
  have h := busy_bucket_keeps_rate [203, 0, 113, 7]
    (sampleBuckets ⟨1, 0, 2, 1⟩ ⟨1, 0, 2⟩) 0 [500000000, 1000000000]
    0 1000000000 (by decide) (by decide)
  ⟨h.1 ⟨1, 0, 2, 1⟩ (by decide +kernel) (by decide) (by decide)
      (by decide +kernel) (by decide +kernel),
    h.2 ⟨1, 0, 2⟩ rfl (by decide) (by decide +kernel)
      (by decide +kernel) (by decide +kernel)⟩

-- =========================================================== the ceiling

/-- The ceiling in tokens, as exact numbers. -/
theorem admitted_le_of_units {n burst rate s t : Nat} (hst : s ≤ t)
    (h : nsPerSec * n ≤ nsPerSec * burst + rate * (t - s)) :
    (n : ℚ) ≤ burst + rate * ((t : ℚ) - s) / nsPerSec := by
  have hpos : (0 : ℚ) < nsPerSec := by exact_mod_cast nsPerSec_pos
  have hq : (nsPerSec : ℚ) * n
      ≤ nsPerSec * burst + rate * ((t : ℚ) - s) := by
    rw [← Nat.cast_sub hst]
    exact_mod_cast h
  have hsum : (burst : ℚ) + rate * ((t : ℚ) - s) / nsPerSec
      = (nsPerSec * burst + rate * ((t : ℚ) - s)) / nsPerSec := by
    rw [add_div, mul_div_cancel_left₀ _ hpos.ne']
  rw [hsum, le_div_iff₀ hpos, mul_comm]
  exact hq

/-- Whatever the bucket holds and however the packets come, from one
packet's time to any later time no more are admitted than the burst and
the time between are worth; per source, and for the mint budget. -/
theorem bucket_ceiling (src : List Byte) (m : Maps) (ts : List Nat)
    (hsorted : ts.Pairwise (· ≤ ·)) (s t : Nat) (hs : s ∈ ts)
    (hst : s ≤ t) :
    (∀ b : RateBucket, m.rate.lookup src = some b →
      (admittedIn s t (decisions (admits src) m ts) : ℚ)
        ≤ b.burst + b.ratePps * ((t : ℚ) - s) / nsPerSec)
    ∧ (∀ b : TxBucket, m.txBudget = some b → 1 ≤ b.ratePps →
      (admittedIn s t (decisions txBudgetOk m ts) : ℚ)
        ≤ b.params.burst + b.ratePps * ((t : ℚ) - s) / nsPerSec) := by
  constructor
  · intro b hb
    have hat : RateAt src b.params m b.level := ⟨b, hb, rfl, rfl⟩
    exact admitted_le_of_units hst
      ((admits_refines src b.params).admitted_le_burst hat hsorted hs hst)
  · intro b hb hrate
    have hat : TxAt b.params m b.level :=
      ⟨b, hb, Nat.ne_of_gt hrate, rfl, rfl⟩
    exact admitted_le_of_units hst
      ((txBudgetOk_refines b.params).admitted_le_burst hat hsorted hs hst)

/-- Five packets in a second at two a second and a burst of one, and as
many SYNs against a mint cap of two: both stay under their ceilings. -/
theorem bucket_ceiling_second :
    (admittedIn 0 1000000000 (decisions (admits [203, 0, 113, 7])
        (sampleBuckets ⟨9, 5, 2, 1⟩ ⟨9, 5, 2⟩)
        [0, 250000000, 500000000, 500000000, 1000000000]) : ℚ)
      ≤ 1 + 2 * ((1000000000 : Nat) - (0 : Nat) : ℚ) / nsPerSec
    ∧ (admittedIn 0 1000000000 (decisions txBudgetOk
        (sampleBuckets ⟨9, 5, 2, 1⟩ ⟨9, 5, 2⟩)
        [0, 250000000, 500000000, 500000000, 1000000000]) : ℚ)
      ≤ 4 + 2 * ((1000000000 : Nat) - (0 : Nat) : ℚ) / nsPerSec :=
  have h := bucket_ceiling [203, 0, 113, 7]
    (sampleBuckets ⟨9, 5, 2, 1⟩ ⟨9, 5, 2⟩)
    [0, 250000000, 500000000, 500000000, 1000000000] (by decide) 0
    1000000000 (by decide) (by decide)
  ⟨h.1 ⟨9, 5, 2, 1⟩ (by decide +kernel), h.2 ⟨9, 5, 2⟩ rfl (by decide)⟩

end Blackwall.Xdp
