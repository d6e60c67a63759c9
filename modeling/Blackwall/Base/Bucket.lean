/-
Token buckets over machine words.

A bucket holds tokens and the time of its last refill. Every arrival
refills it with the whole tokens the elapsed time is worth, up to a
burst, moves the refill time forward, and takes one token if there is
one. The elapsed time's product with the rate wraps at the word size; the
fraction of a token an arrival was short of is lost with it.

The last sections count. `Served` says that every arrival later than the
one before it was admitted; if the arrivals are also never more than one
token apart, any interval they cover has about one admission a token. From
above, an interval that starts at an arrival has at most the burst and
what its length is worth, with no condition on the arrivals
(`Level.admitted_le_burst`).
-/
import Mathlib.Data.List.Basic
import Blackwall.Base.Run

namespace Blackwall.Base

-- ========================================================== one bucket

/-- The constants of a bucket: tokens a `unit` of time, most tokens held,
the unit, and the word size. -/
structure BucketParams where
  rate : Nat
  burst : Nat
  unit : Nat
  word : Nat
  deriving DecidableEq, Repr

/-- What a bucket remembers. -/
structure Level where
  tokens : Nat
  last : Nat
  deriving DecidableEq, Repr

/-- The tokens on hand once an arrival at `now` has refilled the
bucket. -/
def Level.refilled (P : BucketParams) (now : Nat) (l : Level) : Nat :=
  let refill := (now - l.last) * P.rate % P.word / P.unit
  min (min (l.tokens + refill) (P.word - 1)) P.burst

/-- One arrival: refill, then take a token if there is one. -/
def Level.take (P : BucketParams) (now : Nat) (l : Level) : Bool × Level :=
  (decide (0 < l.refilled P now), ⟨l.refilled P now - 1, now⟩)

theorem Level.refilled_le_burst (P : BucketParams) (now : Nat) (l : Level) :
    l.refilled P now ≤ P.burst :=
  Nat.min_le_right _ _

/-- A refill credits no more than the elapsed time is worth, wrapped
product or not. -/
theorem Level.unit_mul_refilled_le (P : BucketParams) (now : Nat)
    (l : Level) :
    P.unit * l.refilled P now
      ≤ P.unit * l.tokens + P.rate * (now - l.last) := by
  have hle : l.refilled P now
      ≤ l.tokens + (now - l.last) * P.rate % P.word / P.unit :=
    Nat.le_trans (Nat.min_le_left _ _) (Nat.min_le_left _ _)
  have hworth : P.unit * ((now - l.last) * P.rate % P.word / P.unit)
      ≤ P.rate * (now - l.last) := by
    rw [Nat.mul_comm P.rate]
    exact Nat.le_trans (Nat.mul_div_le _ _) (Nat.mod_le _ _)
  calc P.unit * l.refilled P now
      ≤ P.unit * (l.tokens
        + (now - l.last) * P.rate % P.word / P.unit) :=
        Nat.mul_le_mul_left _ hle
    _ = P.unit * l.tokens
        + P.unit * ((now - l.last) * P.rate % P.word / P.unit) :=
        Nat.mul_add ..
    _ ≤ P.unit * l.tokens + P.rate * (now - l.last) :=
        Nat.add_le_add_left hworth _

/-- An admitted arrival pays for itself with a token, whether or not it is
counted. -/
theorem Level.take_pays (P : BucketParams) (now : Nat) (l : Level)
    (c : Prop) [Decidable c] :
    (l.take P now).2.tokens
      + (if (l.take P now).1 = true ∧ c then 1 else 0)
      ≤ l.refilled P now := by
  rw [show (l.take P now).2.tokens = l.refilled P now - 1 from rfl]
  by_cases hpos : 0 < l.refilled P now
  · split <;> omega
  · have hno : ¬ (l.take P now).1 = true := by
      simpa [Level.take] using hpos
    rw [if_neg fun h => hno h.1]
    omega

-- ============================================================ decisions

section Decisions

variable {S : Type}

/-- The decisions of a machine on a sequence of arrivals, with their
times. -/
def decisions (step : Nat → S → Bool × S) : S → List Nat → List (Nat × Bool)
  | _, [] => []
  | s, t :: ts => (t, (step t s).1) :: decisions step (step t s).2 ts

/-- A machine with a bucket inside: on states that `R` relates, it decides
as the bucket does and the relation goes on to hold. -/
structure Refines (P : BucketParams) (step : Nat → S → Bool × S)
    (R : S → Level → Prop) : Prop where
  out : ∀ s l now, R s l → (step now s).1 = (l.take P now).1
  next : ∀ s l now, R s l → R (step now s).2 (l.take P now).2

theorem Refines.decisions_eq {P : BucketParams}
    {step : Nat → S → Bool × S} {R : S → Level → Prop}
    (h : Refines P step R) :
    ∀ (ts : List Nat) {s : S} {l : Level}, R s l →
      decisions step s ts = decisions (Level.take P) l ts
  | [], _, _, _ => rfl
  | now :: ts, s, l, hR => by
      rw [decisions, decisions, h.out s l now hR,
        h.decisions_eq ts (h.next s l now hR)]

/-- How many arrivals were admitted at times in `[lo, hi]`. -/
def admittedIn (lo hi : Nat) (ds : List (Nat × Bool)) : Nat :=
  ds.countP fun d => d.2 && decide (lo ≤ d.1) && decide (d.1 ≤ hi)

/-- The arrivals are in order and never more than one token apart. -/
def Follows (P : BucketParams) (a b : Nat) : Prop :=
  a ≤ b ∧ P.rate * (b - a) ≤ P.unit

instance (P : BucketParams) : DecidableRel (Follows P) :=
  fun _ _ => inferInstanceAs (Decidable (_ ∧ _))

/-- The time of the last arrival after one at `p`. -/
def lastTime (p : Nat) (ts : List Nat) : Nat := ts.getLast?.getD p

/-- Arrivals after one at `p`, each one that came later than the one
before it admitted. -/
def Served (P : BucketParams) : Nat → List (Nat × Bool) → Prop
  | _, [] => True
  | p, (t, admitted) :: ds =>
      Follows P p t ∧ (p < t → admitted = true) ∧ Served P t ds

theorem admittedIn_cons (lo hi t : Nat) (b : Bool)
    (ds : List (Nat × Bool)) :
    admittedIn lo hi ((t, b) :: ds)
      = admittedIn lo hi ds
        + if b = true ∧ lo ≤ t ∧ t ≤ hi then 1 else 0 := by
  rw [admittedIn, List.countP_cons]
  congr 1
  simp [and_assoc]

theorem lastTime_cons (p t : Nat) (ts : List Nat) :
    lastTime p (t :: ts) = lastTime t ts := by
  rw [lastTime, lastTime, List.getLast?_cons, Option.getD_some]

variable {P : BucketParams}

/-- Over an interval that starts at the previous arrival or later and
ends before the last one, the time passed is worth less than one token
more than were admitted. -/
theorem Served.lt_admitted (hr : 0 < P.rate) (hu : 0 < P.unit) (s hi : Nat)
    (hsh : s ≤ hi) :
    ∀ (ds : List (Nat × Bool)) (p : Nat), Served P p ds → p ≤ s →
      hi ≤ lastTime p (ds.map Prod.fst) →
      P.rate * (hi - s) < P.unit * (admittedIn s hi ds + 1) := by
  intro ds
  induction ds generalizing s with
  | nil =>
      intro p _ hps hlast
      have hzero : hi - s = 0 := by
        rw [List.map_nil, lastTime, List.getLast?_nil,
          Option.getD_none] at hlast
        omega
      rw [hzero, Nat.mul_zero]
      exact Nat.mul_pos hu (Nat.succ_pos _)
  | cons d ds ih =>
      obtain ⟨t, b⟩ := d
      intro p h hps hlast
      obtain ⟨⟨hpt, hgap⟩, hadm, hrest⟩ := h
      rw [List.map_cons, lastTime_cons] at hlast
      rw [admittedIn_cons]
      by_cases hts : t ≤ s
      · -- the interval starts after this arrival
        have hrec := ih s hsh t hrest hts hlast
        exact Nat.lt_of_lt_of_le hrec
          (Nat.mul_le_mul_left _ (by omega))
      · have hst : s ≤ t := by omega
        have hlate : p < t := by omega
        -- the stretch up to this arrival is worth at most one token
        have hfirst : P.rate * (t - s) ≤ P.unit :=
          Nat.le_trans (Nat.mul_le_mul_left _ (by omega)) hgap
        by_cases hth : t ≤ hi
        · have hrec := ih t hth t hrest (Nat.le_refl t) hlast
          have hsame : admittedIn t hi ds ≤ admittedIn s hi ds := by
            refine List.countP_mono_left fun d _ hd => ?_
            simp only [Bool.and_eq_true, decide_eq_true_eq] at hd ⊢
            exact ⟨⟨hd.1.1, Nat.le_trans hst hd.1.2⟩, hd.2⟩
          have hone : (if b = true ∧ s ≤ t ∧ t ≤ hi then 1 else 0) = 1 :=
            if_pos ⟨hadm hlate, hst, hth⟩
          rw [hone]
          have hsplit : P.rate * (hi - s)
              = P.rate * (hi - t) + P.rate * (t - s) := by
            rw [← Nat.mul_add]
            congr 1
            omega
          calc P.rate * (hi - s)
              = P.rate * (hi - t) + P.rate * (t - s) := hsplit
            _ < P.unit * (admittedIn t hi ds + 1) + P.unit := by omega
            _ ≤ P.unit * (admittedIn s hi ds + 1) + P.unit :=
                Nat.add_le_add_right (Nat.mul_le_mul_left _ (by omega)) _
            _ = P.unit * (admittedIn s hi ds + 1 + 1) := rfl
        · -- the interval ends before this arrival
          have hless : P.rate * (hi - s) < P.rate * (t - s) :=
            Nat.mul_lt_mul_of_pos_left (by omega) hr
          have hle : P.unit
              ≤ P.unit * (admittedIn s hi ds
                + (if b = true ∧ s ≤ t ∧ t ≤ hi then 1 else 0) + 1) :=
            Nat.le_mul_of_pos_right _ (Nat.succ_pos _)
          omega

/-- No part of a token is lost: there is a token left, or the time since
the last refill is worth a whole number of them. -/
def Whole (P : BucketParams) (now : Nat) (l : Level) : Prop :=
  0 < l.tokens ∨ P.unit ∣ P.rate * (now - l.last)

instance (P : BucketParams) (now : Nat) (l : Level) :
    Decidable (Whole P now l) :=
  inferInstanceAs (Decidable (_ ∨ _))

/-- An arrival that loses nothing and is later than its predecessor is
admitted. -/
theorem Level.take_of_whole {now : Nat} {l : Level} (hb : 0 < P.burst)
    (hr : 0 < P.rate) (hu : 0 < P.unit) (hw : P.unit < P.word)
    (hf : Follows P l.last now) (h : Whole P now l)
    (hlate : l.last < now) : (l.take P now).1 = true := by
  have hpos : 0 < l.tokens
      + (now - l.last) * P.rate % P.word / P.unit := by
    rcases h with h | h
    · exact Nat.add_pos_left h _
    · -- a whole number of tokens, more than none and at most one
      have hgap : 0 < P.rate * (now - l.last) :=
        Nat.mul_pos hr (by omega)
      have hone : P.rate * (now - l.last) = P.unit :=
        Nat.le_antisymm hf.2 (Nat.le_of_dvd hgap h)
      rw [Nat.mul_comm, hone, Nat.mod_eq_of_lt hw, Nat.div_self hu]
      omega
  rw [take, refilled]
  refine decide_eq_true ?_
  omega

/-- If nothing is lost along the way, all are served. -/
theorem served_of_whole (hb : 0 < P.burst) (hr : 0 < P.rate)
    (hu : 0 < P.unit) (hw : P.unit < P.word) :
    ∀ (ts : List Nat) (l : Level), List.IsChain (Follows P) (l.last :: ts) →
      Guarded (fun t l => (Level.take P t l).2)
        (fun l t => Whole P t l) l ts →
      Served P l.last (decisions (Level.take P) l ts) := by
  intro ts
  induction ts with
  | nil => intro l _ _; trivial
  | cons t ts ih =>
      intro l hchain hg
      have hf := (List.isChain_cons_cons.mp hchain).1
      refine ⟨hf, Level.take_of_whole hb hr hu hw hf hg.1, ?_⟩
      exact ih (l.take P t).2 (List.isChain_cons_cons.mp hchain).2 hg.2

theorem decisions_times (step : Nat → S → Bool × S) :
    ∀ (ts : List Nat) (s : S), (decisions step s ts).map Prod.fst = ts
  | [], _ => rfl
  | t :: ts, s => by
      rw [decisions, List.map_cons, decisions_times step ts]

/-- A machine with a bucket inside that loses nothing admits the bucket's
rate: over an interval the arrivals cover, about as many as the time
passed is worth. -/
theorem Refines.rate_le_admitted {step : Nat → S → Bool × S}
    {R : S → Level → Prop} (h : Refines P step R) {G : S → Nat → Prop}
    (hwhole : ∀ s l now, R s l → G s now → Whole P now l)
    (hb : 0 < P.burst) (hr : 0 < P.rate) (hu : 0 < P.unit)
    (hw : P.unit < P.word) {s₀ : S} {l : Level} (hR : R s₀ l) {t : Nat}
    {ts : List Nat} (hchain : List.IsChain (Follows P) (t :: ts))
    (hg : Guarded (fun now s => (step now s).2) G (step t s₀).2 ts)
    {s d : Nat} (hs : t ≤ s) (hd : s + d ≤ lastTime t ts) :
    P.rate * d / P.unit
      ≤ admittedIn s (s + d) (decisions step s₀ (t :: ts)) + 1 := by
  have hR' := h.next s₀ l t hR
  have hg' := Guarded.sim (fun s l now => h.next s l now) hwhole hg hR'
  have hserved := served_of_whole hb hr hu hw ts (l.take P t).2 hchain hg'
  have hlt := hserved.lt_admitted hr hu s (s + d) (Nat.le_add_right s d)
    _ t hs (by rw [decisions_times]; exact hd)
  rw [Nat.add_sub_cancel_left] at hlt
  have hdiv : P.rate * d / P.unit
      < admittedIn s (s + d)
          (decisions (Level.take P) (l.take P t).2 ts) + 1 := by
    rw [Nat.div_lt_iff_lt_mul hu, Nat.mul_comm _ P.unit]
    exact hlt
  rw [decisions, h.decisions_eq ts hR', admittedIn_cons]
  omega

-- ========================================================== the ceiling

/-- Arrivals after the end of an interval are not counted in it. -/
theorem admittedIn_of_late {lo hi : Nat} {ts : List Nat}
    (hlate : ∀ t ∈ ts, hi < t) (step : Nat → S → Bool × S) (s : S) :
    admittedIn lo hi (decisions step s ts) = 0 := by
  rw [admittedIn, List.countP_eq_zero]
  intro d hd
  have hmem : d.1 ∈ ts := by
    rw [← decisions_times step ts s]
    exact List.mem_map_of_mem hd
  have hd1 := hlate d.1 hmem
  simp only [Bool.and_eq_true, decide_eq_true_eq]
  omega

/-- From level `l` on, a bucket admits no more than its tokens and the
time since are worth. -/
theorem Level.unit_mul_admitted_le (lo hi : Nat) :
    ∀ (ts : List Nat) (l : Level), List.IsChain (· ≤ ·) (l.last :: ts) →
      P.unit * admittedIn lo hi (decisions (Level.take P) l ts)
        ≤ P.unit * l.tokens + P.rate * (hi - l.last) := by
  intro ts
  induction ts with
  | nil => intro l _; exact Nat.zero_le _
  | cons t ts ih =>
      intro l hchain
      obtain ⟨hlt, hrest⟩ := List.isChain_cons_cons.mp hchain
      by_cases hhi : t ≤ hi
      · have hrec := ih (l.take P t).2 hrest
        have hcredit := Level.unit_mul_refilled_le P t l
        have hsplit : P.rate * (hi - l.last)
            = P.rate * (t - l.last) + P.rate * (hi - t) := by
          rw [← Nat.mul_add]
          congr 1
          omega
        have hpay := Nat.mul_le_mul_left P.unit
          (Level.take_pays P t l (lo ≤ t ∧ t ≤ hi))
        rw [Nat.mul_add] at hpay
        rw [decisions, admittedIn_cons, Nat.mul_add]
        rw [show (l.take P t).2.last = t from rfl] at hrec
        omega
      · -- the interval ends before this arrival
        have hsorted := List.isChain_iff_pairwise.mp hrest
        rw [admittedIn_of_late]
        · exact Nat.zero_le _
        · intro t' ht'
          rcases List.mem_cons.mp ht' with rfl | ht'
          · omega
          · have := List.rel_of_pairwise_cons hsorted ht'
            omega

/-- Counted from an arrival on, a bucket admits no more than its burst and
the time since are worth, whatever it held before. -/
theorem Level.admitted_le_burst {s hi : Nat} (hsh : s ≤ hi) :
    ∀ (ts : List Nat) (l : Level), ts.Pairwise (· ≤ ·) → s ∈ ts →
      P.unit * admittedIn s hi (decisions (Level.take P) l ts)
        ≤ P.unit * P.burst + P.rate * (hi - s) := by
  intro ts
  induction ts with
  | nil => intro l _ hs; cases hs
  | cons t ts ih =>
      intro l hsorted hs
      obtain ⟨hfirst, hrest⟩ := List.pairwise_cons.mp hsorted
      rw [decisions, admittedIn_cons]
      by_cases hts : t < s
      · -- before the interval: not counted
        have hmem : s ∈ ts := by
          rcases List.mem_cons.mp hs with rfl | hs
          · omega
          · exact hs
        rw [if_neg (by omega), Nat.add_zero]
        exact ih _ hrest hmem
      · have hst : t = s := by
          rcases List.mem_cons.mp hs with rfl | hs
          · rfl
          · have := hfirst s hs
            omega
        subst hst
        have hchain : List.IsChain (· ≤ ·) ((l.take P t).2.last :: ts) :=
          List.isChain_iff_pairwise.mpr hsorted
        have hrec := Level.unit_mul_admitted_le (P := P) t hi ts _ hchain
        have hcap := Nat.mul_le_mul_left P.unit
          (Nat.le_trans (Level.take_pays P t l (t ≤ t ∧ t ≤ hi))
            (Level.refilled_le_burst P t l))
        rw [show (l.take P t).2.last = t from rfl] at hrec
        rw [Nat.mul_add] at hcap ⊢
        omega

/-- A machine with a bucket inside is under the bucket's ceiling. -/
theorem Refines.admitted_le_burst {step : Nat → S → Bool × S}
    {R : S → Level → Prop} (h : Refines P step R) {s₀ : S} {l : Level}
    (hR : R s₀ l) {ts : List Nat} (hsorted : ts.Pairwise (· ≤ ·))
    {s hi : Nat} (hs : s ∈ ts) (hsh : s ≤ hi) :
    P.unit * admittedIn s hi (decisions step s₀ ts)
      ≤ P.unit * P.burst + P.rate * (hi - s) := by
  rw [h.decisions_eq ts hR]
  exact Level.admitted_le_burst hsh ts l hsorted hs

end Decisions

end Blackwall.Base
