/-
An `f32` by its bit pattern, and what the IEEE comparison makes of two of
them: a NaN differs from itself, the two zeros are equal. No arithmetic.
-/
import Mathlib.Data.Fin.Basic

namespace Blackwall

/-- An `f32`, by its bits. -/
structure F32 where
  bits : BitVec 32
  deriving DecidableEq, Repr

namespace F32

/-- The bits without the sign. -/
def magnitude (x : F32) : BitVec 32 := x.bits &&& 0x7FFFFFFF

/-- A NaN: exponent all ones, fraction not zero. -/
def isNaN (x : F32) : Bool := decide (0x7F800000 < x.magnitude)

/-- One of the two zeros. -/
def isZero (x : F32) : Bool := decide (x.magnitude = 0)

/-- `f32::eq`. -/
def ieeeEq (x y : F32) : Bool :=
  !x.isNaN && !y.isNaN
    && (decide (x.bits = y.bits) || x.isZero && y.isZero)

/-- The number a rate stands for: one zero, one NaN. -/
def number (x : F32) : F32 :=
  if x.isNaN then ⟨0x7FC00000⟩ else if x.isZero then ⟨0⟩ else x

/-- Rates that compare equal are the same number. -/
theorem number_eq_of_ieeeEq {x y : F32} (h : x.ieeeEq y = true) :
    x.number = y.number := by
  simp only [ieeeEq, Bool.and_eq_true, Bool.not_eq_true',
    Bool.or_eq_true, decide_eq_true_eq] at h
  obtain ⟨⟨hx, hy⟩, hbits | ⟨hzx, hzy⟩⟩ := h
  · have hxy : x = y := by
      cases x
      cases y
      exact congrArg F32.mk hbits
    rw [hxy]
  · simp [number, hx, hy, hzx, hzy]

end F32

end Blackwall
