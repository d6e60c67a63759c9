/-
Machine-width sums and slices, with the ways they fail.

A sum or a product that does not fit 64 bits panics in a debug build and
wraps in a release build; a slice whose bounds are out of order or of range
panics in both. Where nothing fails the builds agree.
-/
import Blackwall.Base.Bytes

namespace Blackwall.Base

/-- How the program was built. -/
inductive Build
  | debug
  | release
  deriving DecidableEq, Repr

inductive Panic
  | overflow
  | bounds
  deriving DecidableEq, Repr

/-- `a + b` of two `usize`. -/
def Build.add (m : Build) (a b : Nat) : Except Panic Nat :=
  if a + b < 2 ^ 64 then .ok (a + b)
  else
    match m with
    | .debug => .error .overflow
    | .release => .ok ((a + b) % 2 ^ 64)

/-- `a * b` of two `u64`. -/
def Build.mul (m : Build) (a b : Nat) : Except Panic Nat :=
  if a * b < 2 ^ 64 then .ok (a * b)
  else
    match m with
    | .debug => .error .overflow
    | .release => .ok (a * b % 2 ^ 64)

/-- `&buf[a..b]`. -/
def sliced {α : Type} (buf : List α) (a b : Nat) : Except Panic (List α) :=
  if a ≤ b ∧ b ≤ buf.length then .ok (slice a (b - a) buf)
  else .error .bounds

section Lemmas

/-- The part of a computation that did not panic is over. -/
theorem ok_bind {E α β : Type} (a : α) (k : α → Except E β) :
    (Except.ok a >>= k) = k a :=
  rfl

theorem error_bind {E α β : Type} (e : E) (k : α → Except E β) :
    (Except.error e >>= k) = .error e :=
  rfl

variable {m : Build} {a b : Nat} {α : Type} {buf out : List α}

theorem Build.add_fits (h : a + b < 2 ^ 64) : m.add a b = .ok (a + b) :=
  if_pos h

theorem Build.add_debug (h : 2 ^ 64 ≤ a + b) :
    Build.debug.add a b = .error .overflow :=
  if_neg (Nat.not_lt.mpr h)

theorem sliced_within (hab : a ≤ b) (hb : b ≤ buf.length) :
    sliced buf a b = .ok (slice a (b - a) buf) :=
  if_pos ⟨hab, hb⟩

theorem sliced_ok (h : sliced buf a b = .ok out) :
    a ≤ b ∧ b ≤ buf.length ∧ out = slice a (b - a) buf := by
  unfold sliced at h
  split at h
  · next hb =>
    cases h
    exact ⟨hb.1, hb.2, rfl⟩
  · cases h

/-- What follows the buffer does not matter. -/
theorem slice_append {n : Nat} (h : a + n ≤ buf.length) (more : List α) :
    slice a n (buf ++ more) = slice a n buf := by
  rw [slice, slice, List.drop_append_of_le_length (by omega),
    List.take_append_of_le_length (by rw [List.length_drop]; omega)]

theorem sliced_append (hb : b ≤ buf.length) (more : List α) :
    sliced (buf ++ more) a b = sliced buf a b := by
  unfold sliced
  by_cases hab : a ≤ b
  · have hlen : b ≤ (buf ++ more).length := by
      rw [List.length_append]
      omega
    rw [if_pos ⟨hab, hlen⟩, if_pos ⟨hab, hb⟩, slice_append (by omega)]
  · rw [if_neg fun h => hab h.1, if_neg fun h => hab h.1]

end Lemmas

end Blackwall.Base
