/-
Messages cut from a byte stream.

A framer looks at the front of a buffer: the bytes are not enough yet, they
are no message, or they are a message and a rest. What it says of a message
or of a bad front does not change when bytes follow (`Framer`). A machine
takes up the messages one by one and may stop. `drain` is its loop over a
buffer, up to the point where bytes are missing.

Bytes that arrive later can be appended before the loop or after it
(`drain_append`): this is all that a proof about reads of any size needs.
What every turn keeps holds where the loop ends (`drain_ends`).
-/
import Mathlib.Data.List.Basic

namespace Blackwall.Base

/-- What the front of a buffer is. -/
inductive Frame (α M E : Type)
  | wait
  | bad (e : E)
  | whole (m : M) (rest : List α)

/-- The same front with more bytes behind it. -/
def Frame.extend {α M E : Type} (more : List α) :
    Frame α M E → Frame α M E
  | .wait => .wait
  | .bad e => .bad e
  | .whole m rest => .whole m (rest ++ more)

/-- A framer whose answers bytes that follow do not change. -/
structure Framer (α M E : Type) where
  next : List α → Frame α M E
  shorter : ∀ {bs m rest}, next bs = .whole m rest →
    rest.length < bs.length
  settled : ∀ {bs} (more), next bs ≠ .wait →
    next (bs ++ more) = (next bs).extend more

section Drain

variable {α M E S O : Type}

/-- What a machine makes of messages and of bad bytes: go on in a state or
stop. -/
structure Reactor (S M E O : Type) where
  react : S → M → S ⊕ O
  refuse : S → E → O

/-- The loop over a buffer: the messages it took up, and where it waits or
how it stopped. -/
def drainFuel (F : Framer α M E) (R : Reactor S M E O) :
    Nat → S → List α → List M × (S × List α ⊕ O)
  | 0, s, bs => ([], .inl (s, bs))
  | fuel + 1, s, bs =>
      match F.next bs with
      | .wait => ([], .inl (s, bs))
      | .bad e => ([], .inr (R.refuse s e))
      | .whole m rest =>
          match R.react s m with
          | .inr o => ([m], .inr o)
          | .inl s' =>
              let d := drainFuel F R fuel s' rest
              (m :: d.1, d.2)

/-- A message takes a byte at least. -/
def drain (F : Framer α M E) (R : Reactor S M E O) (s : S)
    (bs : List α) : List M × (S × List α ⊕ O) :=
  drainFuel F R (bs.length + 1) s bs

variable {F : Framer α M E} {R : Reactor S M E O} {s s' : S}
  {bs rest : List α} {m : M} {e : E} {o : O}

/-- Any two fuels above the length will do: every message lowers it. -/
theorem drainFuel_any {f g : Nat} (hf : bs.length < f)
    (hg : bs.length < g) :
    drainFuel F R f s bs = drainFuel F R g s bs := by
  induction f generalizing g s bs with
  | zero => exact absurd hf (Nat.not_lt_zero _)
  | succ f ih =>
      obtain ⟨g, rfl⟩ : ∃ k, g = k + 1 := ⟨g - 1, by omega⟩
      rw [drainFuel, drainFuel]
      split
      · rfl
      · rfl
      · next m rest hnext =>
        have hlt := F.shorter hnext
        split
        · rfl
        · rw [ih (g := g) (by omega) (by omega)]

theorem next_append_whole (more : List α) (h : F.next bs = .whole m rest) :
    F.next (bs ++ more) = .whole m (rest ++ more) := by
  rw [F.settled more (by rw [h]; exact nofun), h]
  rfl

theorem next_append_bad (more : List α) (h : F.next bs = .bad e) :
    F.next (bs ++ more) = .bad e := by
  rw [F.settled more (by rw [h]; exact nofun), h]
  rfl

-- ------------------------------------------------------- one turn at a time

theorem drain_wait (h : F.next bs = .wait) :
    drain F R s bs = ([], .inl (s, bs)) := by
  rw [drain, drainFuel, h]

theorem drain_bad (h : F.next bs = .bad e) :
    drain F R s bs = ([], .inr (R.refuse s e)) := by
  rw [drain, drainFuel, h]

theorem drain_stop (h : F.next bs = .whole m rest)
    (hr : R.react s m = .inr o) : drain F R s bs = ([m], .inr o) := by
  rw [drain, drainFuel, h]
  simp only [hr]

theorem drain_go (h : F.next bs = .whole m rest)
    (hr : R.react s m = .inl s') :
    drain F R s bs = (m :: (drain F R s' rest).1, (drain F R s' rest).2) := by
  have hlt := F.shorter h
  rw [drain, drainFuel, h]
  simp only [hr]
  rw [drainFuel_any (g := rest.length + 1) (by omega) (by omega)]
  rfl

-- ------------------------------------------------------------- later bytes

/-- What a loop did, and then the same with `more` bytes. -/
def resume (F : Framer α M E) (R : Reactor S M E O) (more : List α)
    (d : List M × (S × List α ⊕ O)) : List M × (S × List α ⊕ O) :=
  match d.2 with
  | .inr o => (d.1, .inr o)
  | .inl (s, bs) =>
      (d.1 ++ (drain F R s (bs ++ more)).1, (drain F R s (bs ++ more)).2)

theorem resume_cons (more : List α) (m : M)
    (d : List M × (S × List α ⊕ O)) :
    resume F R more (m :: d.1, d.2)
      = (m :: (resume F R more d).1, (resume F R more d).2) := by
  obtain ⟨ms, ⟨s, bs⟩ | o⟩ := d <;> rfl

/-- Bytes appended before the loop or after it. -/
theorem drain_append (s : S) (bs more : List α) :
    drain F R s (bs ++ more) = resume F R more (drain F R s bs) := by
  induction hn : bs.length using Nat.strongRecOn generalizing s bs with
  | ind n ih =>
      subst hn
      cases h : F.next bs with
      | wait =>
          rw [drain_wait h]
          rfl
      | bad e =>
          rw [drain_bad h, drain_bad (next_append_bad more h)]
          rfl
      | whole m rest =>
          have hmore := next_append_whole more h
          cases hr : R.react s m with
          | inr o =>
              rw [drain_stop h hr, drain_stop hmore hr]
              rfl
          | inl s' =>
              rw [drain_go h hr, drain_go hmore hr,
                ih rest.length (F.shorter h) s' rest rfl, resume_cons]

-- ------------------------------------------------------- the loop's rules

/-- The turn at `bs` stops the loop: bad bytes, or a message. -/
def Halts (F : Framer α M E) (R : Reactor S M E O) (s : S) (bs : List α)
    (o : O) : Prop :=
  (∃ e, F.next bs = .bad e ∧ R.refuse s e = o)
    ∨ ∃ m rest, F.next bs = .whole m rest ∧ R.react s m = .inr o

/-- What every turn keeps holds where the loop ends: before bytes that are
no message yet, or at a turn that stops it. -/
theorem drain_ends {P : S → List α → Prop}
    (hturn : ∀ s bs m rest s', P s bs → F.next bs = .whole m rest →
      R.react s m = .inl s' → P s' rest) (hs : P s bs) :
    ∃ s' bs', P s' bs'
      ∧ (F.next bs' = .wait ∧ (drain F R s bs).2 = .inl (s', bs')
        ∨ ∃ o, Halts F R s' bs' o ∧ (drain F R s bs).2 = .inr o) := by
  induction hn : bs.length using Nat.strongRecOn generalizing s bs with
  | ind n ih =>
      subst hn
      cases hnext : F.next bs with
      | wait =>
          rw [drain_wait hnext]
          exact ⟨s, bs, hs, .inl ⟨hnext, rfl⟩⟩
      | bad e =>
          rw [drain_bad hnext]
          exact ⟨s, bs, hs, .inr ⟨_, .inl ⟨e, hnext, rfl⟩, rfl⟩⟩
      | whole m rest =>
          cases hr : R.react s m with
          | inr o =>
              rw [drain_stop hnext hr]
              exact ⟨s, bs, hs, .inr ⟨o, .inr ⟨m, rest, hnext, hr⟩, rfl⟩⟩
          | inl s' =>
              rw [drain_go hnext hr]
              exact ih rest.length (F.shorter hnext)
                (hturn s bs m rest s' hs hnext hr) rfl

theorem drain_inl {P : S → List α → Prop} {bs' : List α}
    (hturn : ∀ s bs m rest s', P s bs → F.next bs = .whole m rest →
      R.react s m = .inl s' → P s' rest) (hs : P s bs)
    (h : (drain F R s bs).2 = .inl (s', bs')) :
    P s' bs' ∧ F.next bs' = .wait := by
  obtain ⟨t, cs, hP, ⟨hwait, hend⟩ | ⟨o, -, hend⟩⟩ := drain_ends hturn hs
  · rw [hend] at h
    cases h
    exact ⟨hP, hwait⟩
  · rw [hend] at h
    cases h

theorem drain_inr {P : S → List α → Prop}
    (hturn : ∀ s bs m rest s', P s bs → F.next bs = .whole m rest →
      R.react s m = .inl s' → P s' rest) (hs : P s bs)
    (h : (drain F R s bs).2 = .inr o) :
    ∃ s' bs', P s' bs' ∧ Halts F R s' bs' o := by
  obtain ⟨t, cs, hP, ⟨-, hend⟩ | ⟨o', hhalts, hend⟩⟩ :=
    drain_ends hturn hs
  · rw [hend] at h
    cases h
  · rw [hend] at h
    cases h
    exact ⟨t, cs, hP, hhalts⟩

/-- A loop that did not stop waits at bytes that are no message yet. -/
theorem drain_waits {bs' : List α}
    (h : (drain F R s bs).2 = .inl (s', bs')) : F.next bs' = .wait :=
  (drain_inl (P := fun _ _ => True) (fun _ _ _ _ _ _ _ _ => trivial)
    trivial h).2

theorem length_drain_le {bs' : List α}
    (h : (drain F R s bs).2 = .inl (s', bs')) :
    bs'.length ≤ bs.length := by
  refine (drain_inl (P := fun _ cs => cs.length ≤ bs.length) ?_
    (Nat.le_refl _) h).1
  intro _ _ _ _ _ hle hnext _
  exact Nat.le_trans (Nat.le_of_lt (F.shorter hnext)) hle

end Drain

end Blackwall.Base
