/-
Admission by a sliding window.

A call is let in if fewer than `cap` of those let in before it are in the
window of `width` that ends with it. The discipline is stated on the log
of the calls and their decisions; an implementation that keeps a queue of
recent times is compared with it (`dropWhile_eq_filter` is what its
pruning comes to).
-/
import Mathlib.Data.List.Induction
import Blackwall.Base.Run

namespace Blackwall.Base.Admission

variable {C : Type} (time : C → Nat) (width cap : Nat)

/-- The calls that were let in. -/
def admitted (log : List (C × Bool)) : List C :=
  (log.filter (·.2)).map (·.1)

/-- How many of the calls are in the window that ends at `now`. -/
def recent (now : Nat) (cs : List C) : Nat :=
  cs.countP fun c => decide (now - width ≤ time c)

/-- One call decided. -/
def offer (c : C) (log : List (C × Bool)) : List (C × Bool) :=
  log ++ [(c, decide (recent time width (time c) (admitted log) < cap))]

theorem admitted_append (l l' : List (C × Bool)) :
    admitted (l ++ l') = admitted l ++ admitted l' := by
  simp [admitted]

theorem admitted_singleton (c : C) (d : Bool) :
    admitted [(c, d)] = if d then [c] else [] := by
  cases d <;> rfl

theorem run_admit_append (log : List (C × Bool)) (cs : List C) :
    ∃ added, run (offer time width cap) log cs = log ++ added
      ∧ added.map (·.1) = cs := by
  induction cs generalizing log with
  | nil => exact ⟨[], (List.append_nil _).symm, rfl⟩
  | cons c cs ih =>
      obtain ⟨added, hrun, hcs⟩ := ih (offer time width cap c log)
      rw [run_cons, hrun, offer, List.append_assoc]
      exact ⟨_, rfl, congrArg (c :: ·) hcs⟩

/-- Every call gets one decision. -/
theorem calls_run (cs : List C) :
    (run (offer time width cap) [] cs).map (·.1) = cs := by
  obtain ⟨added, hrun, hcs⟩ := run_admit_append time width cap [] cs
  rw [hrun]
  exact hcs

theorem run_admit_concat (cs : List C) (c : C) :
    run (offer time width cap) [] (cs ++ [c])
      = offer time width cap c (run (offer time width cap) [] cs) :=
  run_append _ _ cs [c]

/-- A decision is about the admissions before it. -/
theorem decision_iff (cs : List C) {i : Nat} {c : C} {d : Bool}
    (h : (run (offer time width cap) [] cs)[i]? = some (c, d)) :
    d = true ↔ recent time width (time c)
      (admitted ((run (offer time width cap) [] cs).take i)) < cap := by
  induction cs using List.reverseRecOn with
  | nil => cases h
  | append_singleton cs c' ih =>
      rw [run_admit_concat] at h ⊢
      generalize hlog : run (offer time width cap) [] cs = log at h ih ⊢
      unfold offer at h ⊢
      rcases Nat.lt_trichotomy i log.length with hi | hi | hi
      · rw [List.getElem?_append_left hi] at h
        rw [List.take_append_of_le_length (Nat.le_of_lt hi)]
        exact ih h
      · subst hi
        rw [List.getElem?_append_right (Nat.le_refl _), Nat.sub_self] at h
        cases h
        rw [List.take_left, decide_eq_true_iff]
      · rw [List.getElem?_eq_none] at h
        · cases h
        · rw [List.length_append]
          exact hi

/-- No window of the width has more than `cap` admissions. -/
theorem window_capped (cs : List C) (a : Nat) :
    ((admitted (run (offer time width cap) [] cs)).countP fun c =>
      decide (a ≤ time c ∧ time c ≤ a + width)) ≤ cap := by
  induction cs using List.reverseRecOn with
  | nil => exact Nat.zero_le cap
  | append_singleton cs c ih =>
      rw [run_admit_concat]
      generalize run (offer time width cap) [] cs = log at ih ⊢
      unfold offer
      rw [admitted_append, List.countP_append, admitted_singleton]
      by_cases hlt : recent time width (time c) (admitted log) < cap
      · by_cases hin : a ≤ time c ∧ time c ≤ a + width
        · -- what is in this window is in the one that ends with the call
          have hle : ((admitted log).countP fun c =>
              decide (a ≤ time c ∧ time c ≤ a + width))
                ≤ recent time width (time c) (admitted log) := by
            refine List.countP_mono_left fun x _ hx => ?_
            have hx := of_decide_eq_true hx
            exact decide_eq_true (by omega)
          rw [decide_eq_true hlt, if_pos rfl, List.countP_singleton,
            if_pos (decide_eq_true hin)]
          omega
        · rw [decide_eq_true hlt, if_pos rfl, List.countP_singleton,
            if_neg (by simpa using hin)]
          exact ih
      · rw [decide_eq_false hlt]
        exact ih

/-- What comes after depends on the admissions alone. -/
theorem run_offer_congr (cs : List C) {l l' : List (C × Bool)}
    (h : admitted l = admitted l') :
    ∃ added, run (offer time width cap) l cs = l ++ added
      ∧ run (offer time width cap) l' cs = l' ++ added := by
  induction cs generalizing l l' with
  | nil =>
      exact ⟨[], (List.append_nil _).symm, (List.append_nil _).symm⟩
  | cons c cs ih =>
      have hnext : admitted (offer time width cap c l)
          = admitted (offer time width cap c l') := by
        rw [offer, offer, admitted_append, admitted_append, h]
      obtain ⟨added, hl, hl'⟩ := ih hnext
      refine ⟨(c, decide (recent time width (time c) (admitted l) < cap))
        :: added, ?_, ?_⟩
      · rw [run_cons, hl, offer, List.append_assoc]
        rfl
      · rw [run_cons, hl', offer, List.append_assoc, h]
        rfl

/-- A call that is not let in could as well not have been made. -/
theorem erase_rejected (cs : List C) {i : Nat} {c : C}
    (h : (run (offer time width cap) [] cs)[i]? = some (c, false)) :
    run (offer time width cap) [] (cs.eraseIdx i)
      = (run (offer time width cap) [] cs).eraseIdx i := by
  have hcs : cs[i]? = some c := by
    have := congrArg (Option.map (·.1)) h
    rwa [← List.getElem?_map, calls_run] at this
  obtain ⟨before, after, rfl, rfl⟩ :
      ∃ before after, cs = before ++ c :: after ∧ before.length = i := by
    obtain ⟨hi, rfl⟩ := List.getElem?_eq_some_iff.mp hcs
    refine ⟨cs.take i, cs.drop (i + 1), ?_, ?_⟩
    · rw [← List.drop_eq_getElem_cons, List.take_append_drop]
    · exact List.length_take_of_le (Nat.le_of_lt hi)
  rw [run_append, run_cons] at h
  have herase : (before ++ c :: after).eraseIdx before.length
      = before ++ after := by
    rw [List.eraseIdx_append_of_length_le (Nat.le_refl _), Nat.sub_self]
    rfl
  rw [herase, run_append, run_append, run_cons]
  have hlen : (run (offer time width cap) [] before).length
      = before.length := by
    rw [← List.length_map (f := fun x : C × Bool => x.1), calls_run]
  generalize run (offer time width cap) [] before = pre at h hlen ⊢
  -- the decision is the one the log has
  have hdec : offer time width cap c pre = pre ++ [(c, false)] := by
    obtain ⟨added, hadd, -⟩ := run_admit_append time width cap
      (offer time width cap c pre) after
    rw [hadd, offer, ← hlen] at h
    simpa [offer] using h
  have hsame : admitted (pre ++ [(c, false)]) = admitted pre := by
    simp [admitted]
  obtain ⟨added, hwith, hwithout⟩ :=
    run_offer_congr time width cap after hsame
  rw [hdec, hwith, hwithout, ← hlen, List.append_assoc,
    List.eraseIdx_append_of_length_le (Nat.le_refl _), Nat.sub_self]
  rfl

/-- On times in order, dropping the old ones from the front drops all of
them. -/
theorem dropWhile_eq_filter {ts : List Nat} (h : ts.Pairwise (· ≤ ·))
    (a : Nat) :
    ts.dropWhile (fun t => decide (t < a))
      = ts.filter fun t => decide (a ≤ t) := by
  induction ts with
  | nil => rfl
  | cons t ts ih =>
      obtain ⟨hhead, htail⟩ := List.pairwise_cons.mp h
      by_cases ht : t < a
      · rw [List.dropWhile_cons, if_pos (decide_eq_true ht), ih htail,
          List.filter_cons_of_neg (by simpa using ht)]
      · rw [List.dropWhile_cons, if_neg (by simpa using ht)]
        refine (List.filter_eq_self.mpr fun x hx => ?_).symm
        have hle : t ≤ x := by
          rcases List.mem_cons.mp hx with rfl | hx
          · exact Nat.le_refl _
          · exact hhead x hx
        exact decide_eq_true (by omega)

end Blackwall.Base.Admission
