/-
The cross-plane cap on new mitigations
(`blackwall-rtbh/src/rate_limit.rs`).

One limiter is shared by the RTBH and the FlowSpec manager behind a lock;
what it sees is one sequence of calls. Which of the two made a call is
recorded here and decides nothing.
-/
import Mathlib.Algebra.Order.Ring.Nat
import Blackwall.Base.Run

namespace Blackwall.Rtbh

open Base

/-- Width of the sliding window, in milliseconds. -/
def windowMs : Nat := 60000

/-- The times of the admitted announces still in the window, oldest
first. -/
structure ArmingRateLimiter where
  maxPerMin : BitVec 32
  window : List Nat

namespace ArmingRateLimiter

def new (maxPerMin : BitVec 32) : ArmingRateLimiter := ⟨maxPerMin, []⟩

def tryAcquire (now : Nat) (l : ArmingRateLimiter) :
    Bool × ArmingRateLimiter :=
  let windowStart := now - windowMs
  let window := l.window.dropWhile fun oldest => decide (oldest < windowStart)
  -- u32::try_from(len).unwrap_or(u32::MAX)
  let inWindow := min window.length (2 ^ 32 - 1)
  if inWindow < l.maxPerMin.toNat then
    (true, { l with window := window ++ [now] })
  else (false, { l with window })

end ArmingRateLimiter

/-- The managers that share the limiter. -/
inductive Caller
  | rtbh
  | flowSpec
  deriving DecidableEq, Repr

/-- One `try_acquire`. -/
structure Acquire where
  caller : Caller
  now : Nat
  deriving DecidableEq, Repr

/-- The limiter and every call with what it was told. -/
structure Limited where
  limiter : ArmingRateLimiter
  log : List (Acquire × Bool)

namespace Limited

/-- A limiter before its first call. -/
def start (maxPerMin : BitVec 32) : Limited := ⟨.new maxPerMin, []⟩

/-- One call. -/
def serve (a : Acquire) (s : Limited) : Limited :=
  let r := s.limiter.tryAcquire a.now
  ⟨r.2, s.log ++ [(a, r.1)]⟩

end Limited

end Blackwall.Rtbh
