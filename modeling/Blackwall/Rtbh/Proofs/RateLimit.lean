/-
The rate limiter follows the sliding-window discipline.

The queue is the admitted times that are in the window of the last call
(`Holds`). As long as the clock does not run backwards nothing that was
dropped is ever asked for again, so every decision is the one of
`Base.Admission` on the whole history, and its theorems are the
limiter's.
-/
import Blackwall.Base.Admission
import Blackwall.Rtbh.RateLimit

namespace Blackwall.Rtbh

open Base Base.Admission

namespace Limited

variable {maxPerMin : BitVec 32} {s : Limited} {last : Nat}

/-- The times of the admitted calls. -/
def times (log : List (Acquire × Bool)) : List Nat :=
  (admitted log).map Acquire.now

/-- The limiter's queue after a call at `last`. -/
structure Holds (maxPerMin : BitVec 32) (last : Nat) (s : Limited) :
    Prop where
  cap : s.limiter.maxPerMin = maxPerMin
  window : s.limiter.window
    = (times s.log).filter fun t => decide (last - windowMs ≤ t)
  sorted : (times s.log).Pairwise (· ≤ ·)
  past : ∀ t ∈ times s.log, t ≤ last

theorem holds_start (maxPerMin : BitVec 32) :
    (start maxPerMin).Holds maxPerMin 0 :=
  ⟨rfl, rfl, List.Pairwise.nil, fun _ h => absurd h List.not_mem_nil⟩

/-- What is left of the queue at `now`. -/
theorem Holds.pruned (h : s.Holds maxPerMin last) {now : Nat}
    (hnow : last ≤ now) :
    s.limiter.window.dropWhile (fun t => decide (t < now - windowMs))
      = (times s.log).filter fun t => decide (now - windowMs ≤ t) := by
  rw [h.window, dropWhile_eq_filter (h.sorted.filter _), List.filter_filter]
  refine List.filter_congr fun t _ => ?_
  have himp : now - windowMs ≤ t → last - windowMs ≤ t := by omega
  by_cases ht : now - windowMs ≤ t
  · simp [ht, himp ht]
  · simp [ht]

/-- A `u32` bound is not affected by counting up to `u32::MAX` only. -/
theorem min_lt_iff (n : Nat) (m : BitVec 32) :
    min n (2 ^ 32 - 1) < m.toNat ↔ n < m.toNat := by
  have hm := m.isLt
  omega

/-- One call: the decision of the discipline, and the queue it needs. -/
theorem Holds.serve (h : s.Holds maxPerMin last) {a : Acquire}
    (hnow : last ≤ a.now) :
    (s.serve a).log = offer Acquire.now windowMs maxPerMin.toNat a s.log
      ∧ (s.serve a).Holds maxPerMin a.now := by
  have hprune := h.pruned hnow
  have hlen : ((times s.log).filter fun t =>
      decide (a.now - windowMs ≤ t)).length
        = recent Acquire.now windowMs a.now (admitted s.log) := by
    rw [← List.countP_eq_length_filter, times, List.countP_map, recent]
    simp only [Function.comp_def]
  have hpast : ∀ t ∈ times s.log, t ≤ a.now := fun t ht =>
    Nat.le_trans (h.past t ht) hnow
  unfold Limited.serve ArmingRateLimiter.tryAcquire offer
  simp only [hprune, hlen, min_lt_iff, h.cap]
  by_cases hroom : recent Acquire.now windowMs a.now (admitted s.log)
      < maxPerMin.toNat
  · have htimes : times (s.log ++ [(a, true)]) = times s.log ++ [a.now] := by
      rw [times, admitted_append, List.map_append]
      rfl
    simp only [hroom, if_true, decide_true, true_and]
    refine ⟨rfl, ?_, ?_, fun t ht => ?_⟩
    · show _ = (times (s.log ++ [(a, true)])).filter _
      rw [htimes, List.filter_append]
      have hself : a.now - windowMs ≤ a.now := Nat.sub_le _ _
      rw [List.filter_cons, decide_eq_true hself, if_pos rfl,
        List.filter_nil]
    · show (times (s.log ++ [(a, true)])).Pairwise _
      rw [htimes]
      refine List.pairwise_append.mpr ⟨h.sorted, List.pairwise_singleton _ _,
        fun t ht u hu => ?_⟩
      rw [List.mem_singleton.mp hu]
      exact hpast t ht
    · change t ∈ times (s.log ++ [(a, true)]) at ht
      rw [htimes] at ht
      rcases List.mem_append.mp ht with ht | ht
      · exact hpast t ht
      · exact Nat.le_of_eq (List.mem_singleton.mp ht)
  · have htimes : times (s.log ++ [(a, false)]) = times s.log := by
      rw [times, admitted_append]
      exact congrArg _ (List.append_nil _)
    simp only [hroom, if_false, decide_false, true_and]
    refine ⟨rfl, ?_, ?_, fun t ht => ?_⟩
    · show _ = (times (s.log ++ [(a, false)])).filter _
      rw [htimes]
    · show (times (s.log ++ [(a, false)])).Pairwise _
      rw [htimes]
      exact h.sorted
    · change t ∈ times (s.log ++ [(a, false)]) at ht
      rw [htimes] at ht
      exact hpast t ht

/-- The limiter is the discipline, on calls in the order of time. -/
theorem log_eq_admissions (maxPerMin : BitVec 32) (as : List Acquire)
    (hmono : (as.map Acquire.now).Pairwise (· ≤ ·)) :
    (run serve (start maxPerMin) as).log
      = run (offer Acquire.now windowMs maxPerMin.toNat) [] as := by
  suffices hgen : ∀ (as : List Acquire) (s : Limited) (last : Nat),
      s.Holds maxPerMin last → (∀ a ∈ as, last ≤ a.now) →
      (as.map Acquire.now).Pairwise (· ≤ ·) →
      (run serve s as).log
        = run (offer Acquire.now windowMs maxPerMin.toNat) s.log as from
    hgen as (start maxPerMin) 0 (holds_start maxPerMin)
      (fun _ _ => Nat.zero_le _) hmono
  intro as
  induction as with
  | nil => intro s last _ _ _; rfl
  | cons a as ih =>
      intro s last h hlast hmono
      obtain ⟨hfirst, hrest⟩ := List.pairwise_cons.mp hmono
      obtain ⟨hlog, hnext⟩ := h.serve (hlast a List.mem_cons_self)
      rw [run_cons, run_cons, ← hlog]
      refine ih _ _ hnext (fun b hb => ?_) hrest
      exact hfirst b.now (List.mem_map_of_mem hb)

/-- The admissions before a call are not later than it. -/
theorem earlier_of_getElem {log : List (Acquire × Bool)}
    (hmono : ((log.map (·.1)).map Acquire.now).Pairwise (· ≤ ·))
    {i : Nat} {a : Acquire} {d : Bool} (h : log[i]? = some (a, d)) :
    ∀ b ∈ admitted (log.take i), b.now ≤ a.now := by
  intro b hb
  obtain ⟨x, hx, rfl⟩ := List.mem_map.mp hb
  have hlater : (a, d) ∈ log.drop i := by
    refine List.mem_of_getElem? (i := 0) ?_
    rw [List.getElem?_drop]
    exact h
  rw [List.map_map, ← List.take_append_drop i log, List.map_append] at hmono
  refine (List.pairwise_append.mp hmono).2.2 _ ?_ _ ?_
  · exact List.mem_map.mpr ⟨x, (List.mem_filter.mp hx).1, rfl⟩
  · exact List.mem_map.mpr ⟨(a, d), hlater, rfl⟩

end Limited

/-- The call was made between the two times. -/
def Acquire.within (first last : Nat) (a : Acquire) : Bool :=
  decide (first ≤ a.now) && decide (a.now ≤ last)

theorem Acquire.within_iff {first last : Nat} {a : Acquire} :
    a.within first last = true ↔ first ≤ a.now ∧ a.now ≤ last := by
  simp [within]

/-- Calls in the order of time, from either plane: a call is admitted
exactly when fewer than the cap of the earlier admissions are in the
window that ends with it, no window of its length has more admissions
than the cap, and a rejected call could as well not have been made. -/
theorem sliding_window_cap (maxPerMin : BitVec 32) (as : List Acquire)
    (hmono : (as.map Acquire.now).Pairwise (· ≤ ·)) :
    let log := (run Limited.serve (.start maxPerMin) as).log
    log.map (·.1) = as
      ∧ (∀ i a d, log[i]? = some (a, d) →
          (d = true ↔ (admitted (log.take i)).countP
            (Acquire.within (a.now - windowMs) a.now) < maxPerMin.toNat))
      ∧ (∀ t, (admitted log).countP (Acquire.within t (t + windowMs))
          ≤ maxPerMin.toNat)
      ∧ ∀ i a, log[i]? = some (a, false) →
          (run Limited.serve (.start maxPerMin) (as.eraseIdx i)).log
            = log.eraseIdx i := by
  intro log
  have hlog : log
      = run (offer Acquire.now windowMs maxPerMin.toNat) [] as :=
    Limited.log_eq_admissions maxPerMin as hmono
  have hcalls : log.map (·.1) = as := by
    rw [hlog]
    exact calls_run Acquire.now windowMs maxPerMin.toNat as
  refine ⟨hcalls, fun i a d h => ?_, fun t => ?_, fun i a h => ?_⟩
  · have hpast := Limited.earlier_of_getElem (hcalls ▸ hmono) h
    rw [hlog] at h hpast ⊢
    rw [decision_iff Acquire.now windowMs maxPerMin.toNat as h, recent]
    refine Eq.to_iff (congrArg (· < maxPerMin.toNat) ?_)
    refine List.countP_congr fun b hb => ?_
    rw [Acquire.within_iff, decide_eq_true_iff]
    exact (and_iff_left (hpast b hb)).symm
  · rw [hlog]
    refine Nat.le_trans (Nat.le_of_eq (List.countP_congr fun b _ => ?_))
      (window_capped Acquire.now windowMs maxPerMin.toNat as t)
    rw [Acquire.within_iff, decide_eq_true_iff]
  · rw [hlog] at h ⊢
    rw [← erase_rejected Acquire.now windowMs maxPerMin.toNat as h]
    refine Limited.log_eq_admissions maxPerMin _ ?_
    exact hmono.sublist ((List.eraseIdx_sublist as i).map _)

/-- Two announces a minute from two planes: the third one has to wait
until the first is more than a minute old. -/
theorem sliding_window_cap_two :
    let as : List Acquire := [⟨.rtbh, 0⟩, ⟨.flowSpec, 10⟩, ⟨.rtbh, 20⟩,
      ⟨.flowSpec, 60000⟩, ⟨.rtbh, 60001⟩]
    let log := (run Limited.serve (.start 2) as).log
    (as.map Acquire.now).Pairwise (· ≤ ·)
      ∧ log.map (·.2) = [true, true, false, false, true]
      ∧ ∀ t, (admitted log).countP (Acquire.within t (t + windowMs)) ≤ 2 :=
  ⟨by decide, by decide +kernel,
    (sliding_window_cap 2 _ (by decide)).2.2.1⟩

end Blackwall.Rtbh
