/-
Readers of byte strings.

A reader takes a value off the front of a byte string and leaves the rest,
or fails. `Takes p x a` is the one fact the proofs use: whatever follows
`x`, reader `p` takes exactly `x` and returns `a`. It composes along a
sequence (`Takes.bind`, `Takes.run_bind`), so that what a reader makes of
an encoding is assembled from what its steps make of the parts.

`all` reads values until nothing is left, as the list of a length-delimited
block is read.
-/
import Mathlib.Data.List.Basic
import Blackwall.Base.Bytes

namespace Blackwall.Base

/-- A value off the front of a byte string and the rest, or an error. -/
def Reader (E α : Type) : Type := List Byte → Except E (α × List Byte)

namespace Reader

variable {E α β : Type}

instance : Monad (Reader E) where
  pure a := fun bs => .ok (a, bs)
  bind p k := fun bs =>
    match p bs with
    | .ok (a, rest) => k a rest
    | .error e => .error e

/-- Give up. -/
def fail (e : E) : Reader E α := fun _ => .error e

/-- Give up with `e` unless `P`. -/
def require (P : Prop) [Decidable P] (e : E) : Reader E Unit :=
  if P then pure () else fail e

/-- A result that was found without reading on. -/
def lift (r : Except E α) : Reader E α := fun bs => r.map (·, bs)

/-- Exactly `n` bytes. -/
def take (n : Nat) (e : E) : Reader E (List Byte) := fun bs =>
  if n ≤ bs.length then .ok (bs.take n, bs.drop n) else .error e

/-- One byte. -/
def u8 (e : E) : Reader E Byte
  | b :: rest => .ok (b, rest)
  | [] => .error e

/-- A big-endian `u16`. -/
def u16 (e : E) : Reader E (BitVec 16)
  | a :: b :: rest => .ok (word16 a b, rest)
  | _ => .error e

/-- A big-endian `u32`. -/
def u32 (e : E) : Reader E (BitVec 32)
  | a :: b :: c :: d :: rest =>
      .ok (word32 (word16 a b) (word16 c d), rest)
  | _ => .error e

/-- Values until nothing is left, at most `fuel` of them. -/
def allFuel (p : Reader E α) (e : E) :
    Nat → List Byte → Except E (List α)
  | _, [] => .ok []
  | 0, _ :: _ => .error e
  | fuel + 1, b :: bs =>
      match p (b :: bs) with
      | .error e => .error e
      | .ok (a, rest) => (allFuel p e fuel rest).map (a :: ·)

/-- Values until nothing is left. A reader that takes nothing fails with
`e`. -/
def all (p : Reader E α) (e : E) (bs : List Byte) : Except E (List α) :=
  allFuel p e bs.length bs

-- ========================================================== exact readers

/-- Whatever follows `x`, the reader takes `x` and returns `a`. -/
def Takes (p : Reader E α) (x : List Byte) (a : α) : Prop :=
  ∀ rest, p (x ++ rest) = .ok (a, rest)

variable {p : Reader E α} {k : α → Reader E β} {x y : List Byte} {a : α}
  {b : β} {e : E}

theorem bind_apply (p : Reader E α) (k : α → Reader E β) (bs : List Byte) :
    (p >>= k) bs
      = match p bs with
        | .ok (a, rest) => k a rest
        | .error e => .error e := rfl

namespace Takes

/-- A sequence that starts with an exact reader. -/
theorem run_bind (h : Takes p x a) (rest : List Byte) :
    (p >>= k) (x ++ rest) = k a rest := by
  rw [bind_apply, h rest]

theorem bind (h : Takes p x a) (hk : Takes (k a) y b) :
    Takes (p >>= k) (x ++ y) b := by
  intro rest
  rw [List.append_assoc, h.run_bind]
  exact hk rest

theorem pure (a : α) : Takes (Pure.pure a : Reader E α) [] a :=
  fun _ => rfl

theorem last (h : Takes p x a) (g : α → β) :
    Takes (do let a ← p; return g a) x (g a) := by
  intro rest
  rw [h.run_bind]
  rfl

/-- On the string itself nothing is left. -/
theorem run (h : Takes p x a) : p x = .ok (a, []) := by
  have := h []
  rwa [List.append_nil] at this

theorem require {P : Prop} [Decidable P] (h : P) (e : E) :
    Takes (Reader.require P e) [] () := by
  rw [Reader.require, if_pos h]
  exact .pure ()

theorem lift {r : Except E α} (h : r = .ok a) :
    Takes (Reader.lift r) [] a := by
  intro rest
  rw [Reader.lift, h]
  rfl

theorem take {n : Nat} (hn : x.length = n) (e : E) :
    Takes (Reader.take n e) x x := by
  intro rest
  rw [Reader.take, if_pos (by rw [List.length_append]; omega),
    List.take_left' hn, List.drop_left' hn]

theorem u8 (b : Byte) (e : E) : Takes (Reader.u8 e) [b] b := fun _ => rfl

theorem u16 (v : BitVec 16) (e : E) : Takes (Reader.u16 e) (be16 v) v := by
  intro rest
  change Except.ok (word16 _ _, rest) = _
  rw [word16_be16]

theorem u32 (v : BitVec 32) (e : E) : Takes (Reader.u32 e) (be32 v) v := by
  intro rest
  change Except.ok (word32 (word16 _ _) (word16 _ _), rest) = _
  rw [word16_be16, word16_be16, word32_be32]

end Takes

-- ========================================================= what was taken

theorem bind_ok {bs rest : List Byte} :
    (p >>= k) bs = .ok (b, rest)
      ↔ ∃ a mid, p bs = .ok (a, mid) ∧ k a mid = .ok (b, rest) := by
  rw [bind_apply]
  cases h : p bs with
  | error e => simp
  | ok r =>
      obtain ⟨a, mid⟩ := r
      simp

theorem take_ok {n : Nat} {bs rest : List Byte}
    (h : take n e bs = .ok (x, rest)) : bs = x ++ rest ∧ x.length = n := by
  unfold take at h
  split at h
  · next hn =>
    cases h
    exact ⟨(List.take_append_drop n bs).symm, List.length_take_of_le hn⟩
  · cases h

theorem u32_ok {v : BitVec 32} {bs rest : List Byte}
    (h : u32 e bs = .ok (v, rest)) : bs = be32 v ++ rest := by
  unfold u32 at h
  split at h
  · next a b c d tail =>
    cases h
    rw [be32_word32, be16_word16, be16_word16]
    rfl
  · cases h

-- ================================================================== lists

section Lists

variable {γ : Type} {enc : γ → List Byte} {val : γ → α}

theorem allFuel_flatMap {xs : List γ}
    (h : ∀ c ∈ xs, Takes p (enc c) (val c)) (hne : ∀ c ∈ xs, enc c ≠ [])
    {fuel : Nat} (hfuel : (xs.flatMap enc).length ≤ fuel) :
    allFuel p e fuel (xs.flatMap enc) = .ok (xs.map val) := by
  induction xs generalizing fuel with
  | nil => cases fuel <;> rfl
  | cons c xs ih =>
      rw [List.flatMap_cons] at hfuel ⊢
      rw [List.length_append] at hfuel
      obtain ⟨head, tail, hc⟩ := List.exists_cons_of_ne_nil
        (hne c List.mem_cons_self)
      have hlen : (enc c).length = tail.length + 1 := by rw [hc]; rfl
      obtain ⟨fuel, rfl⟩ : ∃ m, fuel = m + 1 := ⟨fuel - 1, by omega⟩
      have hread := h c List.mem_cons_self (xs.flatMap enc)
      have hrest : allFuel p e fuel (xs.flatMap enc) = .ok (xs.map val) :=
        ih (fun d hd => h d (List.mem_cons_of_mem c hd))
          (fun d hd => hne d (List.mem_cons_of_mem c hd)) (by omega)
      rw [hc, List.cons_append] at hread ⊢
      rw [allFuel, hread]
      simp only [hrest]
      rfl

/-- A block of encoded values, read value by value. -/
theorem all_flatMap {xs : List γ} (h : ∀ c ∈ xs, Takes p (enc c) (val c))
    (hne : ∀ c ∈ xs, enc c ≠ []) :
    all p e (xs.flatMap enc) = .ok (xs.map val) :=
  allFuel_flatMap h hne (Nat.le_refl _)

end Lists

end Reader

end Blackwall.Base
