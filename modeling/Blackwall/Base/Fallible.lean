/-
Programs that read and write a state and may give up.

A `Fallible S α` returns a value or nothing, and leaves a state either
way: giving up undoes nothing that was done before. `Returns` is a
computation's success with its value and the state it leaves; it splits
over a sequence, so what a program has checked by the time it succeeds is
read off its text. `Keeps` is what holds on both outcomes.
-/
import Mathlib.Data.List.Basic

namespace Blackwall.Base

/-- A computation on a state that may give up. -/
def Fallible (S α : Type) : Type := S → Option α × S

namespace Fallible

variable {S α β γ : Type}

instance : Monad (Fallible S) where
  pure a := fun s => (some a, s)
  bind p k := fun s =>
    match p s with
    | (some a, s') => k a s'
    | (none, s') => (none, s')

/-- Give up. -/
def fail : Fallible S α := fun s => (none, s)

/-- Give up unless `P`. -/
def check (P : Prop) [Decidable P] : Fallible S Unit :=
  if P then pure () else fail

/-- Look at the state. -/
def look (f : S → α) : Fallible S α := fun s => (some (f s), s)

/-- Take something from the state, or give up. -/
def fetch (f : S → Option α) : Fallible S α := fun s => (f s, s)

/-- A step that always succeeds. -/
def act (f : S → α × S) : Fallible S α := fun s => (some (f s).1, (f s).2)

/-- `if let Ok(a) = p`: go on either way, with what `p` left behind. -/
def attempt (p : Fallible S α) : Fallible S (Option α) := fun s =>
  (some (p s).1, (p s).2)

instance : LawfulMonad (Fallible S) := LawfulMonad.mk' _
  (fun p => by
    funext s
    show (match p s with
      | (some a, s') => (some a, s')
      | (none, s') => (none, s')) = p s
    rcases p s with ⟨_ | a, s'⟩ <;> rfl)
  (fun _ _ => rfl)
  (fun p q r => by
    funext s
    show (match (match p s with
        | (some a, s') => q a s'
        | (none, s') => (none, s')) with
      | (some b, s'') => r b s''
      | (none, s'') => (none, s''))
      = (match p s with
        | (some a, s') => (q a >>= r) s'
        | (none, s') => (none, s'))
    rcases p s with ⟨_ | a, s'⟩ <;> rfl)

-- ============================================================ success

/-- From `s` the computation returns `a` and leaves `s'`. -/
def Returns (p : Fallible S α) (s : S) (a : α) (s' : S) : Prop :=
  p s = (some a, s')

variable {p : Fallible S α} {k : α → Fallible S β} {s s' s'' : S}

theorem bind_apply (p : Fallible S α) (k : α → Fallible S β) (s : S) :
    (p >>= k) s
      = match p s with
        | (some a, s') => k a s'
        | (none, s') => (none, s') := rfl

theorem bind_of_returns {a : α} (h : Returns p s a s') :
    (p >>= k) s = k a s' := by
  rw [bind_apply, h]

theorem bind_of_fails (h : p s = (none, s')) :
    (p >>= k) s = (none, s') := by
  rw [bind_apply, h]

/-- A first step that gives up, by its value alone. -/
theorem bind_of_none (h : (p s).1 = none) :
    (p >>= k) s = (none, (p s).2) :=
  bind_of_fails (Prod.ext h rfl)

theorem bind_look (f : S → α) (s : S) : (look f >>= k) s = k (f s) s :=
  rfl

theorem bind_attempt (p : Fallible S α) {k : Option α → Fallible S β}
    (s : S) : (attempt p >>= k) s = k (p s).1 (p s).2 := rfl

theorem returns_bind {b : β} :
    Returns (p >>= k) s b s''
      ↔ ∃ a s', Returns p s a s' ∧ Returns (k a) s' b s'' := by
  constructor
  · intro h
    rw [Returns, bind_apply] at h
    rcases hp : p s with ⟨_ | a, s'⟩
    · rw [hp] at h
      exact absurd (congrArg Prod.fst h) nofun
    · rw [hp] at h
      exact ⟨a, s', hp, h⟩
  · rintro ⟨a, s', hp, hk⟩
    rw [Returns, bind_of_returns hp]
    exact hk

theorem returns_pure {a b : α} :
    Returns (pure a) s b s' ↔ b = a ∧ s' = s := by
  constructor
  · intro h
    cases h
    exact ⟨rfl, rfl⟩
  · rintro ⟨rfl, rfl⟩
    rfl

theorem returns_bind_fetch {f : S → Option α} {b : β} :
    Returns (fetch f >>= k) s b s''
      ↔ ∃ a, f s = some a ∧ Returns (k a) s b s'' := by
  rw [returns_bind]
  constructor
  · rintro ⟨a, s', hf, hk⟩
    obtain ⟨ha, rfl⟩ := Prod.mk.inj hf
    exact ⟨a, ha, hk⟩
  · rintro ⟨a, ha, hk⟩
    exact ⟨a, s, Prod.ext ha rfl, hk⟩

theorem returns_act_self (f : S → α × S) (s : S) :
    Returns (act f) s (f s).1 (f s).2 := rfl

theorem returns_bind_act {f : S → α × S} {b : β} :
    Returns (act f >>= k) s b s''
      ↔ Returns (k (f s).1) (f s).2 b s'' := Iff.rfl

-- ============================================================= readers

/-- The computation only looks: it returns `v` where `P` holds, gives up
elsewhere, and leaves the state alone. -/
structure Reads (p : Fallible S α) (P : S → Prop) (v : S → α) : Prop where
  succeeds : ∀ s, P s → p s = (some (v s), s)
  fails : ∀ s, ¬ P s → p s = (none, s)

namespace Reads

variable {P P' : S → Prop} {v v' : S → α}

theorem congr (h : Reads p P v) (hP : ∀ s, P' s ↔ P s)
    (hv : ∀ s, P' s → v' s = v s) : Reads p P' v' where
  succeeds s hs := by rw [h.succeeds s ((hP s).mp hs), hv s hs]
  fails s hs := h.fails s (mt (hP s).mpr hs)

theorem bind {Q : α → S → Prop} {w : α → S → β} (h : Reads p P v)
    (hk : ∀ a, Reads (k a) (Q a) (w a)) :
    Reads (p >>= k) (fun s => P s ∧ Q (v s) s) (fun s => w (v s) s) where
  succeeds s hs := by
    rw [bind_of_returns (h.succeeds s hs.1)]
    exact (hk _).succeeds s hs.2
  fails s hs := by
    by_cases hP : P s
    · rw [bind_of_returns (h.succeeds s hP)]
      exact (hk _).fails s fun hQ => hs ⟨hP, hQ⟩
    · exact bind_of_fails (h.fails s hP)

theorem map (h : Reads p P v) (g : α → β) :
    Reads (do let a ← p; return g a) P (fun s => g (v s)) where
  succeeds s hs := by
    rw [bind_of_returns (h.succeeds s hs)]
    rfl
  fails s hs := bind_of_fails (h.fails s hs)

theorem check (P : Prop) [Decidable P] :
    Reads (Fallible.check P : Fallible S Unit) (fun _ => P)
      (fun _ => ()) where
  succeeds s hs := by
    rw [Fallible.check, if_pos hs]
    rfl
  fails s hs := by
    rw [Fallible.check, if_neg hs]
    rfl

theorem look (f : S → α) :
    Reads (Fallible.look f) (fun _ => True) f :=
  ⟨fun _ _ => rfl, fun _ h => absurd trivial h⟩

/-- A sequence that starts with a reader. -/
theorem returns_bind (h : Reads p P v) {b : β} :
    Returns (p >>= k) s b s'' ↔ P s ∧ Returns (k (v s)) s b s'' := by
  by_cases hP : P s
  · rw [Returns, bind_of_returns (h.succeeds s hP)]
    exact (and_iff_right hP).symm
  · rw [Returns, bind_of_fails (h.fails s hP)]
    exact iff_of_false nofun fun hs => hP hs.1

end Reads

-- ============================================================== frames

/-- Whatever its outcome, the computation leaves `f` of the state as it
was. -/
def Keeps (f : S → γ) (p : Fallible S α) : Prop :=
  ∀ s, f (p s).2 = f s

namespace Keeps

variable {f : S → γ}

theorem bind (hp : Keeps f p) (hk : ∀ a, Keeps f (k a)) :
    Keeps f (p >>= k) := by
  intro s
  rw [bind_apply]
  have h := hp s
  rcases hps : p s with ⟨_ | a, s'⟩
  · rw [hps] at h
    exact h
  · rw [hps] at h
    exact (hk a s').trans h

theorem pure (a : α) : Keeps f (Pure.pure a : Fallible S α) :=
  fun _ => rfl

theorem fail : Keeps f (Fallible.fail : Fallible S α) := fun _ => rfl

theorem reader {P : S → Prop} {v : S → α} (h : Reads p P v) :
    Keeps f p := by
  intro s
  by_cases hP : P s
  · rw [h.succeeds s hP]
  · rw [h.fails s hP]

theorem fetch (g : S → Option α) : Keeps f (Fallible.fetch g) :=
  fun _ => rfl

end Keeps

/-- The computation changes `f` of the state only where `A` holds. -/
def ChangesOnly (f : S → γ) (A : S → Prop) (p : Fallible S α) : Prop :=
  ∀ s, f (p s).2 = f s ∨ A s

namespace ChangesOnly

variable {f : S → γ}

/-- What follows a reader is reached only where the reader succeeds. -/
theorem after {P : S → Prop} {v : S → α} {B : α → S → Prop}
    (h : Reads p P v) (hk : ∀ a, ChangesOnly f (B a) (k a)) :
    ChangesOnly f (fun s => P s ∧ B (v s) s) (p >>= k) := by
  intro s
  by_cases hP : P s
  · rw [bind_of_returns (h.succeeds s hP)]
    exact (hk (v s) s).imp_right fun hB => ⟨hP, hB⟩
  · rw [bind_of_fails (h.fails s hP)]
    exact Or.inl rfl

theorem after_fetch {g : S → Option α} {B : S → Prop}
    (hk : ∀ a, ChangesOnly f B (k a)) :
    ChangesOnly f (fun s => (g s).isSome = true ∧ B s)
      (Fallible.fetch g >>= k) := by
  intro s
  cases hg : g s with
  | none =>
      have hfail : Fallible.fetch g s = (none, s) := Prod.ext hg rfl
      rw [bind_of_fails hfail]
      exact Or.inl rfl
  | some a =>
      have hret : Returns (Fallible.fetch g) s a s := Prod.ext hg rfl
      rw [bind_of_returns hret]
      refine (hk a s).imp_right fun hB => ⟨?_, hB⟩
      rw [hg]
      rfl

/-- What follows changes nothing more. -/
theorem before {A : S → Prop} (hp : ChangesOnly f A p)
    (hk : ∀ a, Keeps f (k a)) : ChangesOnly f A (p >>= k) := by
  intro s
  have h := hp s
  rw [bind_apply]
  rcases hps : p s with ⟨_ | a, s'⟩
  · rw [hps] at h
    exact h
  · rw [hps] at h
    exact h.imp_left (hk a s').trans

theorem mono {A A' : S → Prop} (hp : ChangesOnly f A p)
    (hA : ∀ s, A s → A' s) : ChangesOnly f A' p :=
  fun s => (hp s).imp_right (hA s)

end ChangesOnly

end Fallible

end Blackwall.Base
