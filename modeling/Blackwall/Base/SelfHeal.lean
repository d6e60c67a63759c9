/-
The queue of a write-behind mirror inside a component that reaches its
table through calls.

`Queue` says where the component keeps the queue; `write` is the direct
write, queued when it fails, and `retryAll` the self-heal loop. Neither
touches the rest of the component, nor what calls of other kinds mean.
Read back from the log, the table and the queue are a `Mirror.Store`:
`Synced` is the store's invariant there, kept by the loop always and by a
direct write that fits. `Owed` counts the queue against the calls that
failed, so a stretch without a failure that starts with the loop ends
with an empty queue.
-/
import Blackwall.Base.Mirror
import Blackwall.Base.Run

namespace Blackwall.Base.Mirror

variable {M C W K : Type}

/-- A queue of failed writes inside a component: where it is kept, the
call a write makes and the key it concerns. -/
structure Queue (M C W K : Type) where
  pending : M → List W
  setPending : List W → M → M
  call : W → C
  key : W → K
  pending_set : ∀ l m, pending (setPending l m) = l

namespace Queue

open Traced (Extends)

-- =========================================================== the self-heal

/-- Retry write `w`; keep it at the end of the queue when it fails. -/
def retry (q : Queue M C W K) (env : Outcomes C) (w : W)
    (s : Traced M C) : Traced M C :=
  let s' := s.call env (q.call w)
  if s.outcome env (q.call w) then s'
  else s'.update fun m => q.setPending (q.pending m ++ [w]) m

/-- Take the queue and retry it, first to last. -/
def retryAll (q : Queue M C W K) (env : Outcomes C) (s : Traced M C) :
    Traced M C :=
  run (q.retry env) (s.update (q.setPending [])) (q.pending s.mgr)

variable {q : Queue M C W K} {env : Outcomes C}

theorem retryAll_extends (s : Traced M C) :
    Extends env s (q.retryAll env s) := by
  refine (Extends.refl.update _).trans (Extends.loop (fun w s => ?_) _ _)
  unfold retry
  simp only
  split
  · exact .call _ .refl
  · exact .update _ (.call _ .refl)

theorem retryAll_frame {X : Type} {f : M → X}
    (hf : ∀ l m, f (q.setPending l m) = f m) (s : Traced M C) :
    f (q.retryAll env s).mgr = f s.mgr := by
  refine run_invariant (P := fun s' : Traced M C => f s'.mgr = f s.mgr)
    (fun s' w h => ?_) _ (hf _ _)
  unfold retry
  simp only
  split
  · exact h
  · exact (hf _ _).trans h

/-- It leaves alone what calls of other kinds mean. -/
theorem retryAll_view {X : Type} {f : X → C × Bool → X} {x₀ : X}
    (hf : ∀ x w b, f x (q.call w, b) = x) (s : Traced M C) :
    (q.retryAll env s).view f x₀ = s.view f x₀ := by
  refine run_invariant
    (P := fun s' : Traced M C => s'.view f x₀ = s.view f x₀)
    (fun s' w h => ?_) _ rfl
  unfold retry
  simp only
  split <;> simpa [hf] using h

theorem retryAll_avoids {bad : C → Bool}
    (hbad : ∀ w, bad (q.call w) = false) (s : Traced M C) :
    Traced.Avoids bad s (q.retryAll env s) := by
  refine (Traced.Avoids.loop bad (q.retry env) (P := fun _ => True) _
    (fun s w _ _ => ⟨trivial, ?_⟩) trivial).2
  unfold retry
  simp only
  split <;> exact Traced.Avoids.call (hbad w) s

-- ========================================================== counting calls

section Failures

variable {kind : C → Bool} {n : Nat} {s : Traced M C}

/-- How many calls of a kind have failed so far. -/
def failures (kind : C → Bool) (s : Traced M C) : Nat :=
  s.view (fun n e => if kind e.1 && !e.2 then n + 1 else n) 0

theorem failures_call (kind : C → Bool) (c : C) (s : Traced M C) :
    failures kind (s.call env c)
      = if kind c && !s.outcome env c then failures kind s + 1
        else failures kind s :=
  Traced.view_call ..

/-- At most one queued write for each failure after the first `n`. -/
def Owed (q : Queue M C W K) (kind : C → Bool) (n : Nat)
    (s : Traced M C) : Prop :=
  (q.pending s.mgr).length + n ≤ failures kind s

theorem Owed.call (h : Owed q kind n s) (c : C) :
    Owed q kind n (s.call env c) := by
  unfold Owed at h ⊢
  rw [failures_call, Traced.call_mgr]
  split
  · exact Nat.le_succ_of_le h
  · exact h

theorem Owed.update (h : Owed q kind n s) {f : M → M}
    (hf : q.pending (f s.mgr) = q.pending s.mgr) :
    Owed q kind n (s.update f) := by
  unfold Owed at h ⊢
  rw [Traced.update_mgr, hf]
  exact h

/-- No failure since: nothing is queued. -/
theorem Owed.nil (h : Owed q kind n s) (hn : failures kind s = n) :
    q.pending s.mgr = [] := by
  unfold Owed at h
  refine List.eq_nil_of_length_eq_zero ?_
  omega

/-- A failed call pays for one more queued write. -/
theorem Owed.failed (hk : ∀ w, kind (q.call w) = true) {w : W}
    (h : Owed q kind n s) (hfail : s.outcome env (q.call w) = false)
    {f : M → M}
    (hlen : (q.pending (f s.mgr)).length ≤ (q.pending s.mgr).length + 1) :
    Owed q kind n ((s.call env (q.call w)).update f) := by
  have hcount : failures kind ((s.call env (q.call w)).update f)
      = failures kind s + 1 := by
    change failures kind (s.call env (q.call w)) = _
    rw [failures_call, hk, hfail]
    rfl
  unfold Owed at h ⊢
  rw [hcount, Traced.update_mgr, Traced.call_mgr]
  omega

/-- The loop queues at most what it saw fail. -/
theorem Owed.retryAll (hk : ∀ w, kind (q.call w) = true)
    (s : Traced M C) :
    Owed q kind (failures kind s) (q.retryAll env s) := by
  have hstart : Owed q kind (failures kind s)
      (s.update (q.setPending [])) := by
    unfold Owed
    rw [Traced.update_mgr, q.pending_set, List.length_nil, Nat.zero_add]
    exact Nat.le_refl _
  refine run_invariant (P := Owed q kind (failures kind s))
    (fun s' w h => ?_) _ hstart
  unfold Queue.retry
  simp only
  split
  · exact h.call _
  · next hfail =>
    refine h.failed hk (Bool.not_eq_true _ |>.mp hfail) ?_
    exact Nat.le_of_eq (by
      rw [q.pending_set, List.length_append, List.length_singleton])

end Failures

-- ======================================================== the direct write

variable [DecidableEq K]

/-- Make write `w`; queue it when it fails. -/
def write (q : Queue M C W K) (env : Outcomes C) (w : W)
    (s : Traced M C) : Traced M C :=
  let s' := s.call env (q.call w)
  if s.outcome env (q.call w) then s'
  else s'.update fun m => q.setPending (queue q.key w (q.pending m)) m

theorem write_extends (w : W) (s : Traced M C) :
    Extends env s (q.write env w s) := by
  unfold write
  simp only
  split
  · exact .call _ .refl
  · exact .update _ (.call _ .refl)

theorem write_frame {X : Type} {f : M → X}
    (hf : ∀ l m, f (q.setPending l m) = f m) (w : W) (s : Traced M C) :
    f (q.write env w s).mgr = f s.mgr := by
  unfold write
  simp only
  split
  · rfl
  · exact hf _ _

/-- It leaves alone what calls of other kinds mean. -/
theorem write_view {X : Type} {f : X → C × Bool → X} {x₀ : X}
    (hf : ∀ x w b, f x (q.call w, b) = x) (w : W) (s : Traced M C) :
    (q.write env w s).view f x₀ = s.view f x₀ := by
  unfold write
  simp only
  split <;> simp [hf]

theorem write_avoids {bad : C → Bool}
    (hbad : ∀ w, bad (q.call w) = false) (w : W) (s : Traced M C) :
    Traced.Avoids bad s (q.write env w s) := by
  unfold write
  simp only
  split <;> exact Traced.Avoids.call (hbad w) s

theorem Owed.write {kind : C → Bool} (hk : ∀ w, kind (q.call w) = true)
    {n : Nat} {s : Traced M C} {w : W} (h : Owed q kind n s) :
    Owed q kind n (q.write env w s) := by
  unfold Queue.write
  simp only
  split
  · exact h.call _
  · next hfail =>
    refine h.failed hk (Bool.not_eq_true _ |>.mp hfail) ?_
    rw [q.pending_set, queue, List.length_append, List.length_singleton]
    exact Nat.succ_le_succ (List.length_filter_le _ _)

-- =============================================================== the store

section Table

variable {R T : Type} {act : W → Option R → Option R}
  {tstep : T → C × Bool → T} {t₀ : T} {rows : T → K → Option R}
  {Good : W → Prop}

/-- Reading the log with `tstep`, a good write that succeeds is carried
out on the rows, and a failed one changes none. -/
structure Carries (q : Queue M C W K) (act : W → Option R → Option R)
    (tstep : T → C × Bool → T) (rows : T → K → Option R)
    (Good : W → Prop) : Prop where
  ok : ∀ t w, Good w →
    rows (tstep t (q.call w, true)) = apply q.key act w (rows t)
  failed : ∀ t w, rows (tstep t (q.call w, false)) = rows t

/-- The table read back from the log, and the queue. -/
def store (q : Queue M C W K) (tstep : T → C × Bool → T) (t₀ : T)
    (rows : T → K → Option R) (s : Traced M C) : Store K W R :=
  ⟨rows (s.view tstep t₀), q.pending s.mgr⟩

/-- The store settles to `want` once `rest`, the writes a running retry
has taken from the queue, is counted in. -/
structure Synced (q : Queue M C W K) (act : W → Option R → Option R)
    (tstep : T → C × Bool → T) (t₀ : T) (rows : T → K → Option R)
    (Good : W → Prop) (rest : List W) (want : K → Option R)
    (s : Traced M C) : Prop where
  good : ∀ w ∈ q.pending s.mgr ++ rest, Good w
  nodup : ((q.pending s.mgr ++ rest).map q.key).Nodup
  settled : Settled q.key act
    ⟨rows (s.view tstep t₀), q.pending s.mgr ++ rest⟩ want

/-- Outside a retry the invariant is about the store. -/
theorem Synced.settled_store {want : K → Option R} {s : Traced M C}
    (h : Synced q act tstep t₀ rows Good [] want s) :
    Settled q.key act (q.store tstep t₀ rows s) want := by
  have hset := h.settled
  rw [List.append_nil] at hset
  exact hset

/-- `Synced` reads the queue and the rows. -/
theorem Synced.congr {rest : List W} {want : K → Option R}
    {s s' : Traced M C} (h : Synced q act tstep t₀ rows Good rest want s)
    (hpend : q.pending s'.mgr = q.pending s.mgr)
    (hrows : rows (s'.view tstep t₀) = rows (s.view tstep t₀)) :
    Synced q act tstep t₀ rows Good rest want s' := by
  refine ⟨?_, ?_, ?_⟩
  · rw [hpend]
    exact h.good
  · rw [hpend]
    exact h.nodup
  · rw [hpend, hrows]
    exact h.settled

theorem Synced.rows_eq {want : K → Option R} {s : Traced M C}
    (h : Synced q act tstep t₀ rows Good [] want s)
    (hnil : q.pending s.mgr = []) : rows (s.view tstep t₀) = want := by
  have hset := h.settled_store
  rw [store, hnil] at hset
  exact settled_nil hset

theorem store_write (env : Outcomes C) (t₀ : T)
    (hc : Carries q act tstep rows Good) {w : W} (hw : Good w)
    (s : Traced M C) :
    q.store tstep t₀ rows (q.write env w s)
      = Mirror.write q.key act (s.outcome env (q.call w)) w
        (q.store tstep t₀ rows s) := by
  unfold write Mirror.write store
  cases hok : s.outcome env (q.call w) with
  | true =>
      simp only [if_true, Traced.view_call, hok, hc.ok _ w hw,
        Traced.call_mgr]
  | false =>
      simp only [Bool.false_eq_true, if_false, Traced.view_update,
        Traced.view_call, hok, hc.failed, Traced.update_mgr,
        Traced.call_mgr, q.pending_set]

theorem Synced.write (hc : Carries q act tstep rows Good)
    {want : K → Option R} {s : Traced M C} {w : W}
    {v : Option R} (h : Synced q act tstep t₀ rows Good [] want s)
    (hw : Good w) (hfit : Fits q.key act (q.store tstep t₀ rows s)
      (s.outcome env (q.call w)) w v) :
    Synced q act tstep t₀ rows Good []
      (Function.update want (q.key w) v) (q.write env w s) := by
  have hst := store_write env t₀ hc hw s
  have hpend : q.pending (q.write env w s).mgr
      = (Mirror.write q.key act (s.outcome env (q.call w)) w
        (q.store tstep t₀ rows s)).pending := by
    rw [← hst]
    rfl
  have hgood := h.good
  have hnd := h.nodup
  rw [List.append_nil] at hgood hnd
  refine ⟨?_, ?_, ?_⟩
  · intro w' hmem
    rw [List.append_nil, hpend] at hmem
    unfold Mirror.write at hmem
    split at hmem
    · exact hgood w' hmem
    · rcases List.mem_append.mp hmem with hmem | hmem
      · exact hgood w' (List.mem_filter.mp hmem).1
      · rw [List.mem_singleton.mp hmem]
        exact hw
  · rw [List.append_nil, hpend]
    exact write_nodup hnd
  · rw [List.append_nil]
    change Settled q.key act (q.store tstep t₀ rows (q.write env w s)) _
    rw [hst]
    exact settled_write h.settled_store hfit

/-- One retried write: carried out, or kept at the end of the queue. -/
theorem Synced.retry (hc : Carries q act tstep rows Good)
    {rest : List W} {want : K → Option R} {s : Traced M C} {w : W}
    (h : Synced q act tstep t₀ rows Good (w :: rest) want s) :
    Synced q act tstep t₀ rows Good rest want (q.retry env w s) := by
  have hw : Good w :=
    h.good w (List.mem_append_right _ List.mem_cons_self)
  have hsub : (q.pending s.mgr ++ rest).Sublist
      (q.pending s.mgr ++ w :: rest) :=
    List.Sublist.append_left (List.sublist_cons_self w rest) _
  have hqueue : q.pending s.mgr ++ [w] ++ rest
      = q.pending s.mgr ++ w :: rest := by simp
  unfold Queue.retry
  simp only
  split
  · next hok =>
    refine ⟨fun w' hmem => h.good w' (hsub.mem hmem),
      h.nodup.sublist (hsub.map _), ?_⟩
    rw [Traced.view_call, hok, hc.ok _ w hw, Traced.call_mgr]
    exact settled_retried h.nodup h.settled
  · next hok =>
    have hfail : s.outcome env (q.call w) = false :=
      Bool.not_eq_true _ |>.mp hok
    refine ⟨?_, ?_, ?_⟩
    · rw [Traced.update_mgr, Traced.call_mgr, q.pending_set, hqueue]
      exact h.good
    · rw [Traced.update_mgr, Traced.call_mgr, q.pending_set, hqueue]
      exact h.nodup
    · rw [Traced.view_update, Traced.view_call, hfail, hc.failed,
        Traced.update_mgr, Traced.call_mgr, q.pending_set, hqueue]
      exact h.settled

theorem Synced.retryAll (hc : Carries q act tstep rows Good)
    {want : K → Option R} {s : Traced M C}
    (h : Synced q act tstep t₀ rows Good [] want s) :
    Synced q act tstep t₀ rows Good [] want (q.retryAll env s) := by
  have hloop : ∀ (ws : List W) (s : Traced M C),
      Synced q act tstep t₀ rows Good ws want s →
      Synced q act tstep t₀ rows Good [] want (run (q.retry env) s ws) := by
    intro ws
    induction ws with
    | nil => intro s hs; exact hs
    | cons w ws ih => intro s hs; exact ih _ (hs.retry hc)
  refine hloop _ _ ⟨?_, ?_, ?_⟩
  · rw [Traced.update_mgr, q.pending_set]
    simpa using h.good
  · rw [Traced.update_mgr, q.pending_set]
    simpa using h.nodup
  · rw [Traced.update_mgr, q.pending_set]
    simpa using h.settled

end Table

end Queue

end Blackwall.Base.Mirror
