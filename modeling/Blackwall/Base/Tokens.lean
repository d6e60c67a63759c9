/-
Tokens as the string functions of the standard library cut and read them,
and computations that end in a value or an error.

`Except` is used as it is; what is added is the ways its computations are
taken apart: `bind_ok` for the ones that succeed, `Yields` for what is
true of every value one can end in, `Blames` for every error, and `Placed`
for a computation that only its errors tell where it took place.
-/
import Blackwall.Base.Bytes
import Blackwall.Base.Text

namespace Blackwall.Base

/-- A text: the list of its characters. -/
abbrev Text : Type := List Char

-- ================================================================ cutting

/-- `str::trim`. -/
def trim (s : Text) : Text := trimEnd (s.dropWhile isWhitespace)

/-- `str::split_once` at a character. -/
def splitOnce (sep : Char) : Text → Option (Text × Text)
  | [] => none
  | c :: cs =>
      if c = sep then some ([], cs)
      else (splitOnce sep cs).map fun p => (c :: p.1, p.2)

/-- `str::strip_prefix`. -/
def stripPrefix : Text → Text → Option Text
  | [], s => some s
  | _ :: _, [] => none
  | p :: ps, c :: cs => if p = c then stripPrefix ps cs else none

/-- `str::strip_suffix`. -/
def stripSuffix (p s : Text) : Option Text :=
  (stripPrefix p.reverse s.reverse).map List.reverse

theorem splitOnce_sep {sep : Char} {k : Text} (hk : sep ∉ k) (v : Text) :
    splitOnce sep (k ++ sep :: v) = some (k, v) := by
  induction k with
  | nil => simp [splitOnce]
  | cons c k ih =>
      rw [List.mem_cons, not_or] at hk
      rw [List.cons_append, splitOnce, if_neg (Ne.symm hk.1), ih hk.2]
      rfl

theorem splitOnce_some {sep : Char} {s k v : Text}
    (h : splitOnce sep s = some (k, v)) : s = k ++ sep :: v := by
  induction s generalizing k with
  | nil => cases h
  | cons c s ih =>
      rw [splitOnce] at h
      split at h
      · next hc =>
        cases h
        rw [hc, List.nil_append]
      · obtain ⟨⟨k', v'⟩, hrest, heq⟩ := Option.map_eq_some_iff.mp h
        cases heq
        rw [ih hrest, List.cons_append]

theorem stripPrefix_some {p s v : Text} (h : stripPrefix p s = some v) :
    s = p ++ v := by
  induction p generalizing s with
  | nil => exact Option.some.inj h
  | cons c p ih =>
      cases s with
      | nil => cases h
      | cons d s =>
          rw [stripPrefix] at h
          split at h
          · next hc => rw [hc, ih h, List.cons_append]
          · cases h

theorem stripSuffix_some {p s v : Text} (h : stripSuffix p s = some v) :
    s = v ++ p := by
  obtain ⟨v', hv, rfl⟩ := Option.map_eq_some_iff.mp h
  rw [← List.reverse_inj, List.reverse_append, List.reverse_reverse]
  exact stripPrefix_some hv

-- ================================================================ numbers

/-- Decimal digits, read from the left onto `acc`. -/
def decimal (acc : Nat) : Text → Option Nat
  | [] => some acc
  | c :: cs =>
      if c.isDigit then decimal (acc * 10 + (c.toNat - '0'.toNat)) cs
      else none

/-- `FromStr` of an unsigned integer of `w` bits: one digit at least, with
or without a plus sign. -/
def uint (w : Nat) (s : Text) : Option (BitVec w) :=
  let digits := if s.head? = some '+' then s.tail else s
  if digits.isEmpty then none
  else (decimal 0 digits).bind fun n =>
    if n < 2 ^ w then some (BitVec.ofNat w n) else none

/-- `char::to_digit(16)`. -/
def hexDigit (c : Char) : Option Nat :=
  if c.isDigit then some (c.toNat - '0'.toNat)
  else if 'a' ≤ c ∧ c ≤ 'f' then some (c.toNat - 'a'.toNat + 10)
  else if 'A' ≤ c ∧ c ≤ 'F' then some (c.toNat - 'A'.toNat + 10)
  else none

/-- `char::encode_utf8`. -/
def encodeUtf8 (c : Char) : List Byte :=
  (String.utf8EncodeChar c).map fun b => b.toBitVec

-- =========================================================== computations

section Outcomes

variable {E α β : Type} {x : Except E α} {f : α → Except E β}

theorem bind_ok {b : β} :
    (x >>= f) = .ok b ↔ ∃ a, x = .ok a ∧ f a = .ok b := by
  cases x with
  | error e => exact ⟨fun h => (by cases h), fun ⟨_, h, _⟩ => (by cases h)⟩
  | ok a => exact ⟨fun h => ⟨a, rfl, h⟩, fun ⟨_, h, hf⟩ => by cases h; exact hf⟩

/-- Every value the computation can end in is one of `Q`. -/
def Yields (Q : α → Prop) (x : Except E α) : Prop := ∀ a, x = .ok a → Q a

namespace Yields

variable {Q : α → Prop} {R : β → Prop}

theorem any : Yields (fun _ => True) x := fun _ _ => trivial

theorem ok {a : α} (h : Q a) : Yields Q (.ok a : Except E α) := by
  intro b hb
  cases hb
  exact h

theorem error {e : E} : Yields Q (.error e : Except E α) := by
  intro b hb
  cases hb

theorem bind (hx : Yields Q x) (hf : ∀ a, Q a → Yields R (f a)) :
    Yields R (x >>= f) := by
  intro b hb
  obtain ⟨a, ha, hfa⟩ := bind_ok.mp hb
  exact hf a (hx a ha) b hfa

theorem ite {c : Prop} [Decidable c] {y : Except E α}
    (hx : c → Yields Q x) (hy : ¬ c → Yields Q y) :
    Yields Q (if c then x else y) := by
  split
  · next h => exact hx h
  · next h => exact hy h

/-- A loop that adds to a value: what every turn keeps, it keeps. -/
theorem foldlM {step : β → α → Except E β}
    (hstep : ∀ b a, R b → Yields R (step b a)) (l : List α) {b : β}
    (hb : R b) : Yields R (l.foldlM step b) := by
  induction l generalizing b with
  | nil => exact .ok hb
  | cons a l ih =>
      rw [List.foldlM_cons]
      exact .bind (hstep b a hb) fun b' hb' => ih hb'

/-- A loop that collects: what is true of every turn's value is true of
all it collects. -/
theorem mapM {g : α → Except E β} (hg : ∀ a, Yields R (g a)) (l : List α) :
    Yields (fun bs => bs.length = l.length ∧ ∀ b ∈ bs, R b) (l.mapM g) := by
  induction l with
  | nil => exact .ok ⟨rfl, fun _ h => absurd h List.not_mem_nil⟩
  | cons a l ih =>
      rw [List.mapM_cons]
      refine .bind (hg a) fun b hb => .bind ih fun bs hbs => .ok ?_
      exact ⟨congrArg Nat.succ hbs.1, List.forall_mem_cons.mpr ⟨hb, hbs.2⟩⟩

end Yields

/-- Every error the computation can end in is one of `P`. -/
def Blames (P : E → Prop) (x : Except E α) : Prop :=
  ∀ e, x = .error e → P e

namespace Blames

variable {P : E → Prop}

theorem ok (a : α) : Blames P (.ok a : Except E α) := fun _ h => by
  cases h

theorem error {e : E} (h : P e) :
    Blames P (.error e : Except E α) := fun _ he => by
  cases he
  exact h

theorem bind (hx : Blames P x) (hf : ∀ a, Blames P (f a)) :
    Blames P (x >>= f) := by
  intro e h
  cases hxe : x with
  | error e' =>
      rw [hxe] at h
      cases h
      exact hx _ hxe
  | ok a =>
      rw [hxe] at h
      exact hf a e h

end Blames

end Outcomes

-- ============================================================== positions

section Positions

variable {N E α β : Type} {loc : N → E → E} {P : E → Prop}

/-- A computation that is told a position and uses it in its errors only:
one computation, whose error, one of `P`, is then put at the position. -/
def Placed (loc : N → E → E) (P : E → Prop) (f : N → Except E α) : Prop :=
  ∃ x : Except E α, Blames P x ∧ ∀ n, f n = x.mapError (loc n)

namespace Placed

theorem ok (a : α) : Placed loc P fun _ => .ok a :=
  ⟨.ok a, .ok a, fun _ => rfl⟩

theorem error {e : N → E} (e₀ : E) (h : ∀ n, e n = loc n e₀) (hP : P e₀) :
    Placed (α := α) loc P fun n => .error (e n) :=
  ⟨.error e₀, .error hP, fun n => congrArg Except.error (h n)⟩

/-- What comes second may rely on what is true of the value that comes
first. -/
theorem bind_yields [Nonempty N] {x : N → Except E α}
    {f : N → α → Except E β} {Q : α → Prop} (hx : Placed loc P x)
    (hy : ∀ n, Yields Q (x n))
    (hf : ∀ a, Q a → Placed loc P fun n => f n a) :
    Placed loc P fun n => x n >>= f n := by
  obtain ⟨x₀, hblame, hx⟩ := hx
  cases x₀ with
  | error e =>
      refine ⟨.error e, .error (hblame e rfl), fun n => ?_⟩
      show x n >>= f n = _
      rw [hx n]
      rfl
  | ok a =>
      have n₀ : N := Classical.choice inferInstance
      obtain ⟨y₀, hyblame, hy⟩ := hf a (hy n₀ a (hx n₀))
      refine ⟨y₀, hyblame, fun n => ?_⟩
      show x n >>= f n = _
      rw [hx n]
      exact hy n

theorem bind [Nonempty N] {x : N → Except E α} {f : N → α → Except E β}
    (hx : Placed loc P x) (hf : ∀ a, Placed loc P fun n => f n a) :
    Placed loc P fun n => x n >>= f n :=
  hx.bind_yields (fun _ => .any) fun a _ => hf a

theorem ite {c : Prop} [Decidable c] {x y : N → Except E α}
    (hx : Placed loc P x) (hy : Placed loc P y) :
    Placed loc P fun n => if c then x n else y n := by
  split
  · exact hx
  · exact hy

theorem foldlM [Nonempty N] {step : N → β → α → Except E β}
    (hstep : ∀ b a, Placed loc P fun n => step n b a) (l : List α) (b : β) :
    Placed loc P fun n => l.foldlM (step n) b := by
  induction l generalizing b with
  | nil => exact .ok b
  | cons a l ih =>
      simp only [List.foldlM_cons]
      exact .bind (hstep b a) ih

theorem mapM [Nonempty N] {g : N → α → Except E β}
    (hg : ∀ a, Placed loc P fun n => g n a) (l : List α) :
    Placed loc P fun n => l.mapM (g n) := by
  induction l with
  | nil => exact .ok []
  | cons a l ih =>
      simp only [List.mapM_cons]
      exact .bind (hg a) fun b => .bind ih fun bs => .ok _

variable {f : N → Except E α}

/-- The value does not depend on the position. -/
theorem ok_at (h : Placed loc P f) (n n' : N) {a : α} (ha : f n = .ok a) :
    f n' = .ok a := by
  obtain ⟨x, -, hx⟩ := h
  rw [hx] at ha ⊢
  cases x with
  | error e => cases ha
  | ok b => exact ha

theorem blames (h : Placed loc P f) (n : N) :
    Blames (fun e => ∃ e₀, P e₀ ∧ e = loc n e₀) (f n) := by
  obtain ⟨x, hblame, hx⟩ := h
  intro e he
  rw [hx] at he
  cases x with
  | ok b => cases he
  | error e₀ =>
      cases he
      exact ⟨e₀, hblame e₀ rfl, rfl⟩

end Placed

end Positions

end Blackwall.Base
