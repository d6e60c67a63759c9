/-
Runs of a machine and traces of the calls it makes.

# Runs

A machine is a total function `step : A → S → S`: an operation and the
state before it give the state after it. A run folds a list of
operations. Two rules carry every induction over runs: `run_invariant`
for facts every step keeps, and `run_guarded` for facts a step keeps
only when a guard on the state before the step holds (`Guarded` reads
the guard along the whole run).

# Traces

A component that talks to the outside is a machine whose state carries
the log of the calls it has made, each with its outcome. The outside is
an arbitrary function `Outcomes`: the call's position in the log and the
call itself decide whether it succeeds. What a log MEANS for the peer is
a fold over it (`Traced.view`), so "the state of the peer" is never a
field the component could read. `Extends` forgets which calls a piece of
code makes and keeps that it only makes calls: enough for facts that
every call keeps.
-/
import Mathlib.Data.List.Basic
import Mathlib.Logic.Function.Basic

namespace Blackwall.Base

universe u v w

-- ================================================================ runs

section Runs

variable {S : Type u} {A : Type v} (step : A → S → S)

/-- Apply the operations of a run, first to last. -/
def run (s : S) (ops : List A) : S :=
  ops.foldl (fun s a => step a s) s

/-- The guard `G` holds of every operation of the run, in the state that
operation starts from. -/
def Guarded (G : S → A → Prop) : S → List A → Prop
  | _, [] => True
  | s, a :: ops => G s a ∧ Guarded G (step a s) ops

instance Guarded.decidable (G : S → A → Prop)
    [dec : ∀ s a, Decidable (G s a)] :
    ∀ (s : S) (ops : List A), Decidable (Guarded step G s ops)
  | _, [] => inferInstanceAs (Decidable True)
  | s, a :: ops =>
      have := Guarded.decidable G (step a s) ops
      inferInstanceAs (Decidable (G s a ∧ _))

@[simp] theorem run_nil (s : S) : run step s [] = s := rfl

@[simp] theorem run_cons (s : S) (a : A) (ops : List A) :
    run step s (a :: ops) = run step (step a s) ops := rfl

theorem run_append (s : S) (xs ys : List A) :
    run step s (xs ++ ys) = run step (run step s xs) ys :=
  List.foldl_append

theorem Guarded.append (G : S → A → Prop) (s : S) (xs ys : List A) :
    Guarded step G s (xs ++ ys)
      ↔ Guarded step G s xs ∧ Guarded step G (run step s xs) ys := by
  induction xs generalizing s with
  | nil => exact (iff_of_eq (true_and _)).symm
  | cons a xs ih =>
      rw [List.cons_append, Guarded, Guarded, ih, and_assoc]
      rfl

variable {step}

/-- A machine that another one follows step by step passes its guard
on. -/
theorem Guarded.sim {T : Type w} {step' : A → T → T} {R : S → T → Prop}
    {G : S → A → Prop} {G' : T → A → Prop}
    (hstep : ∀ s t a, R s t → R (step a s) (step' a t))
    (hguard : ∀ s t a, R s t → G s a → G' t a) :
    ∀ {ops : List A} {s : S} {t : T}, Guarded step G s ops → R s t →
      Guarded step' G' t ops
  | [], _, _, _, _ => trivial
  | a :: _, s, t, hg, hR =>
      ⟨hguard s t a hR hg.1,
        Guarded.sim hstep hguard hg.2 (hstep s t a hR)⟩

/-- What every step of a run keeps under its guard, the guarded run
keeps. -/
theorem run_guarded {G : S → A → Prop} {P : S → Prop} (ops : List A)
    (hstep : ∀ s, ∀ a ∈ ops, P s → G s a → P (step a s)) :
    ∀ s, P s → Guarded step G s ops → P (run step s ops) := by
  induction ops with
  | nil => intro s hs _; exact hs
  | cons a ops ih =>
      intro s hs hg
      refine ih (fun s b hb => hstep s b (List.mem_cons_of_mem a hb)) _ ?_
        hg.2
      exact hstep s a List.mem_cons_self hs hg.1

/-- What every step of a run keeps, the run keeps. -/
theorem run_invariant_mem {P : S → Prop} (ops : List A)
    (hstep : ∀ s, ∀ a ∈ ops, P s → P (step a s)) {s : S} (hs : P s) :
    P (run step s ops) := by
  induction ops generalizing s with
  | nil => exact hs
  | cons a ops ih =>
      refine ih (fun s b hb => hstep s b (List.mem_cons_of_mem a hb)) ?_
      exact hstep s a List.mem_cons_self hs

/-- The same, when every step keeps it. -/
theorem run_invariant {P : S → Prop}
    (hstep : ∀ s a, P s → P (step a s)) (ops : List A) {s : S}
    (hs : P s) : P (run step s ops) :=
  run_invariant_mem ops (fun s a _ => hstep s a) hs

/-- A run in the order of time: what a step keeps when it is not earlier
than the step before it, the run keeps. -/
theorem run_clocked (time : A → Nat) {P : Nat → S → Prop} (ops : List A)
    (hmono : (ops.map time).Pairwise (· ≤ ·))
    (hstep : ∀ s last, ∀ a ∈ ops, last ≤ time a → P last s →
      P (time a) (step a s)) {s : S} {last : Nat}
    (hlast : ∀ a ∈ ops, last ≤ time a) (hs : P last s) :
    P ((ops.map time).getLastD last) (run step s ops) := by
  induction ops generalizing s last with
  | nil => exact hs
  | cons a ops ih =>
      obtain ⟨hfirst, hrest⟩ := List.pairwise_cons.mp hmono
      rw [List.map_cons, List.getLastD_cons]
      refine ih hrest
        (fun s last b hb => hstep s last b (List.mem_cons_of_mem a hb))
        (fun b hb => hfirst _ (List.mem_map_of_mem hb)) ?_
      exact hstep s last a List.mem_cons_self
        (hlast a List.mem_cons_self) hs

/-- A step keeps a property exactly under its guard: then a run has it in
every state exactly when it is guarded throughout. The invariant `I` is
what guarded steps keep besides. -/
theorem run_take_iff_under {G : S → A → Prop} {I P : S → Prop}
    (ops : List A)
    (hinv : ∀ s, ∀ a ∈ ops, I s → P s → G s a → I (step a s))
    (hstep : ∀ s, ∀ a ∈ ops, I s → P s → (P (step a s) ↔ G s a)) {s : S}
    (hi : I s) (hs : P s) :
    (∀ n, P (run step s (ops.take n))) ↔ Guarded step G s ops := by
  induction ops generalizing s with
  | nil => simpa [Guarded] using hs
  | cons a ops ih =>
      have hhead := hstep s a List.mem_cons_self hi hs
      have hnext := hinv s a List.mem_cons_self hi hs
      have htail {s' : S} := ih (s := s')
        (fun s b hb => hinv s b (List.mem_cons_of_mem a hb))
        (fun s b hb => hstep s b (List.mem_cons_of_mem a hb))
      constructor
      · intro h
        have hp : P (step a s) := h 1
        have hg := hhead.mp hp
        exact ⟨hg, (htail (hnext hg) hp).mp fun n => h (n + 1)⟩
      · rintro ⟨hg, hrest⟩ n
        cases n with
        | zero => exact hs
        | succ n => exact (htail (hnext hg) (hhead.mpr hg)).mpr hrest n

/-- The same with nothing kept besides. -/
theorem run_take_iff {G : S → A → Prop} {P : S → Prop} (ops : List A)
    (hstep : ∀ s, ∀ a ∈ ops, P s → (P (step a s) ↔ G s a)) {s : S}
    (hs : P s) :
    (∀ n, P (run step s (ops.take n))) ↔ Guarded step G s ops :=
  run_take_iff_under (I := fun _ => True) ops (fun _ _ _ _ _ _ => trivial)
    (fun s a ha _ => hstep s a ha) trivial hs

/-- A loop that empties one key a turn empties every key it visits. -/
theorem run_sweep {K V : Type*} [DecidableEq K] (key : A → K)
    (get : S → K → Option V) (ops : List A)
    (hstep : ∀ a ∈ ops, ∀ s,
      get (step a s) = Function.update (get s) (key a) none) {s : S}
    (hs : ∀ k, k ∉ ops.map key → get s k = none) (k : K) :
    get (run step s ops) k = none := by
  induction ops generalizing s with
  | nil => exact hs k List.not_mem_nil
  | cons a ops ih =>
      refine ih (fun b hb => hstep b (List.mem_cons_of_mem a hb))
        fun k' hk' => ?_
      rw [hstep a List.mem_cons_self, Function.update_apply]
      split
      · rfl
      · next hne =>
        refine hs k' fun hmem => ?_
        rw [List.map_cons] at hmem
        rcases List.mem_cons.mp hmem with he | hmem
        · exact hne he
        · exact hk' hmem

-- ------------------------------------------------- loops that emit a list

variable {B : Type w}

/-- A loop whose turns each emit a list: the emissions in order, and the
state after the last turn. -/
def collect (turn : A → S → List B × S) : List A → S → List B × S
  | [], s => ([], s)
  | a :: as, s =>
      ((turn a s).1 ++ (collect turn as (turn a s).2).1,
        (collect turn as (turn a s).2).2)

end Runs

-- ============================================================== traces

section Traces

variable {M : Type u} {C : Type v} {W : Type w}

/-- The outcome of a call, by its position in the log. -/
abbrev Outcomes (C : Type v) : Type v := Nat → C → Bool

/-- A component together with the log of the calls it has made. -/
structure Traced (M : Type u) (C : Type v) where
  mgr : M
  log : List (C × Bool)

namespace Traced

/-- How call `c` ends when it is the next call made. -/
def outcome (env : Outcomes C) (c : C) (s : Traced M C) : Bool :=
  env s.log.length c

/-- Make call `c`: the log grows by the call and its outcome. -/
def call (env : Outcomes C) (c : C) (s : Traced M C) : Traced M C :=
  { s with log := s.log ++ [(c, s.outcome env c)] }

/-- Change the component and make no call. -/
def update (f : M → M) (s : Traced M C) : Traced M C :=
  { s with mgr := f s.mgr }

/-- What the log means to whoever received the calls. -/
def view (f : W → C × Bool → W) (w₀ : W) (s : Traced M C) : W :=
  s.log.foldl f w₀

@[simp] theorem call_mgr (env : Outcomes C) (c : C) (s : Traced M C) :
    (s.call env c).mgr = s.mgr := rfl

@[simp] theorem update_mgr (f : M → M) (s : Traced M C) :
    (s.update f).mgr = f s.mgr := rfl

@[simp] theorem update_log (f : M → M) (s : Traced M C) :
    (s.update f).log = s.log := rfl

theorem call_log (env : Outcomes C) (c : C) (s : Traced M C) :
    (s.call env c).log = s.log ++ [(c, s.outcome env c)] := rfl

/-- One call moves a view by one step of its fold. -/
@[simp] theorem view_call (f : W → C × Bool → W) (w₀ : W)
    (env : Outcomes C) (c : C) (s : Traced M C) :
    (s.call env c).view f w₀ = f (s.view f w₀) (c, s.outcome env c) := by
  simp [view, call]

@[simp] theorem view_update (f : W → C × Bool → W) (w₀ : W) (g : M → M)
    (s : Traced M C) : (s.update g).view f w₀ = s.view f w₀ := rfl

/-- `s'` is what some calls and changes of the component make of `s`. -/
inductive Extends (env : Outcomes C) (s : Traced M C) :
    Traced M C → Prop
  | refl : Extends env s s
  | call {s' : Traced M C} (c : C) :
      Extends env s s' → Extends env s (s'.call env c)
  | update {s' : Traced M C} (f : M → M) :
      Extends env s s' → Extends env s (s'.update f)

namespace Extends

variable {env : Outcomes C} {s s' s'' : Traced M C}

theorem trans (h : Extends env s s') (h' : Extends env s' s'') :
    Extends env s s'' := by
  induction h' with
  | refl => exact h
  | call c _ ih => exact ih.call c
  | update f _ ih => exact ih.update f

theorem loop {A : Type*} {step : A → Traced M C → Traced M C}
    (hstep : ∀ a s, Extends env s (step a s)) (ops : List A)
    (s : Traced M C) : Extends env s (run step s ops) := by
  induction ops generalizing s with
  | nil => exact .refl
  | cons a ops ih => exact (hstep a s).trans (ih (step a s))

theorem log_append (h : Extends env s s') :
    ∃ added, s'.log = s.log ++ added := by
  induction h with
  | refl => exact ⟨[], (List.append_nil _).symm⟩
  | @call s₁ c _ ih =>
      obtain ⟨added, hadd⟩ := ih
      exact ⟨added ++ [(c, s₁.outcome env c)], by
        rw [call_log, hadd, List.append_assoc]⟩
  | update f _ ih => exact ih

/-- What every call keeps of a view, an extension keeps. -/
theorem view_keeps {f : W → C × Bool → W} {w₀ : W} {P : W → Prop}
    (h : Extends env s s') (hcall : ∀ w i c, P w → P (f w (c, env i c)))
    (hs : P (s.view f w₀)) : P (s'.view f w₀) := by
  induction h with
  | refl => exact hs
  | call c _ ih =>
      rw [view_call]
      exact hcall _ _ _ ih
  | update g _ ih => exact ih

end Extends

/-- `s'` comes after `s` in a history, and no call of the kind `bad` was
made in between. -/
def Avoids (bad : C → Bool) (s s' : Traced M C) : Prop :=
  ∃ added, s'.log = s.log ++ added ∧ ∀ x ∈ added, bad x.1 = false

namespace Avoids

variable {bad : C → Bool} {env : Outcomes C} {s s' s'' : Traced M C}

theorem refl (s : Traced M C) : Avoids bad s s :=
  ⟨[], (List.append_nil _).symm, fun _ hx => absurd hx List.not_mem_nil⟩

theorem trans (h : Avoids bad s s') (h' : Avoids bad s' s'') :
    Avoids bad s s'' := by
  obtain ⟨xs, hxs, hbad⟩ := h
  obtain ⟨ys, hys, hbad'⟩ := h'
  refine ⟨xs ++ ys, by rw [hys, hxs, List.append_assoc], fun x hx => ?_⟩
  rcases List.mem_append.mp hx with hx | hx
  · exact hbad x hx
  · exact hbad' x hx

theorem call {c : C} (hc : bad c = false) (s : Traced M C) :
    Avoids bad s (s.call env c) := by
  refine ⟨[(c, s.outcome env c)], rfl, fun x hx => ?_⟩
  rw [List.mem_singleton.mp hx]
  exact hc

theorem update (f : M → M) (s : Traced M C) :
    Avoids bad s (s.update f) :=
  refl s

/-- A loop whose turns keep an invariant and, under it, avoid the kind. -/
theorem loop (bad : C → Bool) {A : Type*}
    (step : A → Traced M C → Traced M C) {P : Traced M C → Prop}
    (ops : List A)
    (hstep : ∀ s, ∀ a ∈ ops, P s →
      P (step a s) ∧ Avoids bad s (step a s))
    {s : Traced M C} (hs : P s) :
    P (run step s ops) ∧ Avoids bad s (run step s ops) := by
  induction ops generalizing s with
  | nil => exact ⟨hs, refl s⟩
  | cons a ops ih =>
      obtain ⟨hnext, hquiet⟩ := hstep s a List.mem_cons_self hs
      obtain ⟨hend, hrest⟩ :=
        ih (fun s b hb => hstep s b (List.mem_cons_of_mem a hb)) hnext
      exact ⟨hend, hquiet.trans hrest⟩

/-- A one-way switch: armed (`P`) until thrown, thrown it is off (`Q`),
and a step that finds it off leaves it off and avoids the kind. Then so
does every run after the throw. -/
theorem latched (bad : C → Bool) {E A : Type*}
    {enter : E → Traced M C → Traced M C}
    {throw : Traced M C → Traced M C}
    {step : A → Traced M C → Traced M C} {P Q : Traced M C → Prop}
    {before : List E} (after : List A)
    (hkeep : ∀ s, ∀ e ∈ before, P s → P (enter e s))
    (hthrow : ∀ s, P s → Q (throw s))
    (hstep : ∀ s a, Q s → Q (step a s) ∧ Avoids bad s (step a s))
    {s : Traced M C} (hs : P s) :
    Q (run step (throw (run enter s before)) after)
      ∧ Avoids bad (throw (run enter s before))
        (run step (throw (run enter s before)) after) := by
  have harmed : P (run enter s before) :=
    run_invariant_mem before hkeep hs
  exact loop bad step after (fun s a _ => hstep s a) (hthrow _ harmed)

end Avoids

end Traced

end Traces

end Blackwall.Base
