/-
Reading and overwriting parts of a byte string.

`slice off n f` is the `n` elements of `f` from `off`, `put off x f` is
`f` with `x` written over it from `off`. A write is read back where it
was made and seen nowhere else; writes side by side are one write, and
disjoint writes commute. Every such fact comes from the pointwise
equation `getElem?_put`.

The big-endian encodings of 16 and 32-bit words are here too, with the
shifts and masks a program writes them with, and those of numbers of any
width.
-/
import Mathlib.Algebra.Ring.Nat
import Mathlib.Data.List.Induction

namespace Blackwall.Base

/-- One byte. -/
abbrev Byte : Type := BitVec 8

-- =========================================================== slices

section Slices

variable {α : Type}

/-- The `n` elements from `off`. -/
def slice (off n : Nat) (f : List α) : List α := (f.drop off).take n

/-- Write `x` over the elements from `off`. -/
def put (off : Nat) (x f : List α) : List α :=
  f.take off ++ x ++ f.drop (off + x.length)

variable {f x y : List α} {off n m o : Nat}

theorem length_slice (h : off + n ≤ f.length) :
    (slice off n f).length = n := by
  rw [slice, List.length_take, List.length_drop]
  omega

theorem length_put (h : off + x.length ≤ f.length) :
    (put off x f).length = f.length := by
  rw [put, List.length_append, List.length_append, List.length_take,
    List.length_drop]
  omega

theorem getElem?_slice (i : Nat) :
    (slice off n f)[i]? = if i < n then f[off + i]? else none := by
  rw [slice, List.getElem?_take]
  split
  · rw [List.getElem?_drop]
  · rfl

theorem slice_slice (h : o + n ≤ m) :
    slice o n (slice off m f) = slice (off + o) n f := by
  apply List.ext_getElem?
  intro i
  rw [getElem?_slice, getElem?_slice, getElem?_slice]
  by_cases hi : i < n
  · rw [if_pos hi, if_pos hi, if_pos (by omega), Nat.add_assoc]
  · rw [if_neg hi, if_neg hi]

theorem getElem?_put (h : off + x.length ≤ f.length) (i : Nat) :
    (put off x f)[i]?
      = if i < off then f[i]?
        else if i < off + x.length then x[i - off]? else f[i]? := by
  have htake : (f.take off).length = off := by
    rw [List.length_take]
    omega
  rw [put]
  by_cases hlo : i < off
  · rw [if_pos hlo, List.append_assoc,
      List.getElem?_append_left (by omega), List.getElem?_take, if_pos hlo]
  rw [if_neg hlo]
  by_cases hmid : i < off + x.length
  · rw [if_pos hmid, List.getElem?_append_left (by
      rw [List.length_append]; omega),
      List.getElem?_append_right (by omega), htake]
  · rw [if_neg hmid, List.getElem?_append_right (by
      rw [List.length_append]; omega), List.getElem?_drop,
      List.length_append, htake]
    congr 1
    omega

theorem put_nil : put off [] f = f := by
  rw [put, List.append_nil, List.length_nil, Nat.add_zero,
    List.take_append_drop]

theorem set_eq_put {v : α} (h : off < f.length) :
    f.set off v = put off [v] f := by
  have hfit : off + [v].length ≤ f.length := h
  apply List.ext_getElem?
  intro i
  rw [getElem?_put hfit, List.getElem?_set]
  rcases Nat.lt_trichotomy i off with hi | rfl | hi
  · rw [if_neg (by omega), if_pos hi]
  · simp [h]
  · rw [if_neg (by omega), if_neg (by omega), List.length_singleton,
      if_neg (by omega)]

theorem slice_put_same (h : off + x.length ≤ f.length) :
    slice off x.length (put off x f) = x := by
  apply List.ext_getElem?
  intro i
  rw [getElem?_slice, getElem?_put h]
  by_cases hi : i < x.length
  · rw [if_pos hi, if_neg (by omega), if_pos (by omega),
      Nat.add_sub_cancel_left]
  · rw [if_neg hi]
    exact (List.getElem?_eq_none (by omega)).symm

/-- A write is not seen outside its place. -/
theorem slice_put_other (h : off + x.length ≤ f.length)
    (hd : o + n ≤ off ∨ off + x.length ≤ o) :
    slice o n (put off x f) = slice o n f := by
  apply List.ext_getElem?
  intro i
  rw [getElem?_slice, getElem?_slice, getElem?_put h]
  by_cases hi : i < n
  · rw [if_pos hi, if_pos hi]
    rcases hd with hd | hd
    · rw [if_pos (by omega)]
    · rw [if_neg (by omega), if_neg (by omega)]
  · rw [if_neg hi, if_neg hi]

theorem put_append (h : off + (x ++ y).length ≤ f.length) :
    put (off + x.length) y (put off x f) = put off (x ++ y) f := by
  have hx : off + x.length ≤ f.length := by
    rw [List.length_append] at h
    omega
  have hy : off + x.length + y.length ≤ (put off x f).length := by
    rw [length_put hx]
    rw [List.length_append] at h
    omega
  apply List.ext_getElem?
  intro i
  rw [getElem?_put hy, getElem?_put h, getElem?_put hx,
    List.length_append]
  by_cases h1 : i < off
  · rw [if_pos (by omega), if_pos h1, if_pos h1]
  rw [if_neg h1, if_neg h1]
  by_cases h2 : i < off + x.length
  · rw [if_pos h2, if_pos h2, if_pos (by omega),
      List.getElem?_append_left (by omega)]
  rw [if_neg h2, if_neg h2]
  by_cases h3 : i < off + x.length + y.length
  · rw [if_pos h3, if_pos (by omega), List.getElem?_append_right (by omega)]
    congr 1
    omega
  · rw [if_neg h3, if_neg (by omega)]

theorem put_put (hxy : x.length = y.length)
    (h : off + x.length ≤ f.length) :
    put off y (put off x f) = put off y f := by
  have hy : off + y.length ≤ (put off x f).length := by
    rw [length_put h]
    omega
  apply List.ext_getElem?
  intro i
  have hy' : off + y.length ≤ f.length := by omega
  rw [getElem?_put hy, getElem?_put h, getElem?_put hy', hxy]
  repeat' split
  all_goals rfl

theorem put_comm (hx : off + x.length ≤ f.length)
    (hy : o + y.length ≤ f.length)
    (hd : off + x.length ≤ o ∨ o + y.length ≤ off) :
    put o y (put off x f) = put off x (put o y f) := by
  have hy' : o + y.length ≤ (put off x f).length := by
    rw [length_put hx]
    exact hy
  have hx' : off + x.length ≤ (put o y f).length := by
    rw [length_put hy]
    exact hx
  apply List.ext_getElem?
  intro i
  rw [getElem?_put hy', getElem?_put hx', getElem?_put hx, getElem?_put hy]
  -- an index in neither place or in one: in both it cannot be
  repeat' split
  all_goals first
    | rfl
    | exfalso; omega

theorem slice_add : slice o (m + n) f = slice o m f ++ slice (o + m) n f := by
  rw [slice, slice, slice, List.take_add, List.drop_drop]

theorem slice_zero : slice o 0 f = [] := by
  rw [slice, List.take_zero]

theorem slice_one {v : α} (h : f[o]? = some v) : slice o 1 f = [v] := by
  apply List.ext_getElem?
  intro i
  rw [getElem?_slice]
  cases i with
  | zero => exact h
  | succ i => rfl

theorem slice_middle {z : List α} (hx : x.length = o) (hy : y.length = n) :
    slice o n (x ++ (y ++ z)) = y := by
  rw [slice, List.drop_left' hx, List.take_left' hy]

-- ------------------------------------------------------- several writes

/-- Make the writes in turn. -/
def puts (ws : List (Nat × List α)) (f : List α) : List α :=
  ws.foldl (fun f w => put w.1 w.2 f) f

/-- Every write is inside a string of length `n`. -/
def Inside (n : Nat) (ws : List (Nat × List α)) : Prop :=
  ∀ w ∈ ws, w.1 + w.2.length ≤ n

/-- No write touches the `n` elements from `o`. -/
def Clear (o n : Nat) (ws : List (Nat × List α)) : Prop :=
  ∀ w ∈ ws, o + n ≤ w.1 ∨ w.1 + w.2.length ≤ o

/-- No write touches another's place. -/
def Apart : List (Nat × List α) → Prop
  | [] => True
  | w :: ws => Clear w.1 w.2.length ws ∧ Apart ws

variable {ws : List (Nat × List α)} {w : Nat × List α}

theorem clear_nil : Clear o n ([] : List (Nat × List α)) := nofun

theorem clear_cons : Clear o n (w :: ws)
    ↔ (o + n ≤ w.1 ∨ w.1 + w.2.length ≤ o) ∧ Clear o n ws :=
  List.forall_mem_cons

theorem inside_append {vs : List (Nat × List α)} (hw : Inside n ws)
    (hv : Inside n vs) : Inside n (ws ++ vs) := by
  intro w hmem
  rcases List.mem_append.mp hmem with h | h
  · exact hw w h
  · exact hv w h

theorem puts_append (vs : List (Nat × List α)) :
    puts (ws ++ vs) f = puts vs (puts ws f) :=
  List.foldl_append

theorem length_puts (h : Inside f.length ws) :
    (puts ws f).length = f.length := by
  induction ws generalizing f with
  | nil => rfl
  | cons w ws ih =>
      have hw : (put w.1 w.2 f).length = f.length :=
        length_put (h w List.mem_cons_self)
      refine (ih ?_).trans hw
      intro v hv
      rw [hw]
      exact h v (List.mem_cons_of_mem w hv)

theorem Inside.after_put (h : Inside f.length (w :: ws)) :
    Inside (put w.1 w.2 f).length ws := by
  intro v hv
  rw [length_put (h w List.mem_cons_self)]
  exact h v (List.mem_cons_of_mem w hv)

theorem Inside.mono (h : Inside n ws) (hnm : n ≤ m) : Inside m ws :=
  fun w hw => Nat.le_trans (h w hw) hnm

/-- Writes that end by `o` touch nothing from there on. -/
theorem Inside.clear (h : Inside o ws) : Clear o n ws :=
  fun w hw => Or.inr (h w hw)

theorem slice_puts_other (h : Inside f.length ws) (hc : Clear o n ws) :
    slice o n (puts ws f) = slice o n f := by
  induction ws generalizing f with
  | nil => rfl
  | cons w ws ih =>
      have hrest := ih h.after_put fun v hv =>
        hc v (List.mem_cons_of_mem w hv)
      exact hrest.trans (slice_put_other (h w List.mem_cons_self)
        (hc w List.mem_cons_self))

theorem Apart.left {vs : List (Nat × List α)} :
    ∀ {ws : List (Nat × List α)}, Apart (ws ++ vs) → Apart ws
  | [], _ => trivial
  | _ :: _, h =>
      ⟨fun v hv => h.1 v (List.mem_append_left vs hv), Apart.left h.2⟩

/-- Of writes in different places, each is read back. -/
theorem slice_puts_mem (h : Inside f.length ws) (ha : Apart ws)
    (hw : w ∈ ws) : slice w.1 w.2.length (puts ws f) = w.2 := by
  induction ws generalizing f with
  | nil => exact absurd hw (List.not_mem_nil)
  | cons v ws ih =>
      rcases List.mem_cons.mp hw with rfl | hmem
      · have hrest : slice w.1 w.2.length (puts ws (put w.1 w.2 f))
            = slice w.1 w.2.length (put w.1 w.2 f) :=
          slice_puts_other h.after_put ha.1
        exact hrest.trans (slice_put_same (h w List.mem_cons_self))
      · exact ih h.after_put ha.2 hmem

theorem slice_puts_eq (hn : x.length = n) (h : Inside f.length ws)
    (ha : Apart ws) (hw : (off, x) ∈ ws) :
    slice off n (puts ws f) = x :=
  hn ▸ slice_puts_mem h ha hw

end Slices

-- ====================================================== big-endian words

/-- `u16::to_be_bytes`. -/
def be16 (v : BitVec 16) : List Byte :=
  [(v >>> 8).setWidth 8, v.setWidth 8]

/-- `u32::to_be_bytes`. -/
def be32 (v : BitVec 32) : List Byte :=
  be16 ((v >>> 16).setWidth 16) ++ be16 (v.setWidth 16)

/-- `u64::to_be_bytes`. -/
def be64 (v : BitVec 64) : List Byte :=
  be32 ((v >>> 32).setWidth 32) ++ be32 (v.setWidth 32)

/-- The 16-bit word of two bytes. -/
def word16 (hi lo : Byte) : BitVec 16 :=
  (hi.setWidth 16 <<< 8) ||| lo.setWidth 16

/-- The 32-bit word of two 16-bit words. -/
def word32 (hi lo : BitVec 16) : BitVec 32 :=
  (hi.setWidth 32 <<< 16) ||| lo.setWidth 32

@[simp] theorem length_be16 (v : BitVec 16) : (be16 v).length = 2 := rfl

@[simp] theorem length_be32 (v : BitVec 32) : (be32 v).length = 4 := rfl

theorem toNat_word16 (hi lo : Byte) :
    (word16 hi lo).toNat = hi.toNat * 256 + lo.toNat := by
  have hhi := hi.isLt
  have hlo := lo.isLt
  rw [word16, BitVec.toNat_or, BitVec.toNat_shiftLeft,
    BitVec.toNat_setWidth, BitVec.toNat_setWidth,
    Nat.mod_eq_of_lt (a := hi.toNat) (by omega),
    Nat.mod_eq_of_lt (a := lo.toNat) (by omega),
    Nat.shiftLeft_eq, Nat.mod_eq_of_lt (by omega), Nat.mul_comm,
    ← Nat.two_pow_add_eq_or_of_lt (by omega)]

theorem word16_be16 (v : BitVec 16) :
    word16 ((v >>> 8).setWidth 8) (v.setWidth 8) = v := by
  apply BitVec.eq_of_toNat_eq
  have hv := v.isLt
  rw [toNat_word16, BitVec.toNat_setWidth, BitVec.toNat_setWidth,
    BitVec.toNat_ushiftRight, Nat.shiftRight_eq_div_pow]
  omega

theorem word32_be32 (v : BitVec 32) :
    word32 ((v >>> 16).setWidth 16) (v.setWidth 16) = v := by
  apply BitVec.eq_of_getLsbD_eq
  intro i hi
  simp only [word32, BitVec.getLsbD_or, BitVec.getLsbD_shiftLeft,
    BitVec.getLsbD_setWidth, BitVec.getLsbD_ushiftRight]
  by_cases h : i < 16
  · simp [h, hi]
  · have hback : 16 + (i - 16) = i := by omega
    simp [h, hi, hback, show i - 16 < 16 by omega, show i - 16 < 32 by omega]

theorem be16_word16 (hi lo : Byte) : be16 (word16 hi lo) = [hi, lo] := by
  have hhi := hi.isLt
  have hlo := lo.isLt
  have h1 : ((word16 hi lo) >>> 8).setWidth 8 = hi := by
    apply BitVec.eq_of_toNat_eq
    rw [BitVec.toNat_setWidth, BitVec.toNat_ushiftRight, toNat_word16,
      Nat.shiftRight_eq_div_pow]
    omega
  have h2 : (word16 hi lo).setWidth 8 = lo := by
    apply BitVec.eq_of_toNat_eq
    rw [BitVec.toNat_setWidth, toNat_word16]
    omega
  rw [be16, h1, h2]

theorem be32_word32 (hi lo : BitVec 16) :
    be32 (word32 hi lo) = be16 hi ++ be16 lo := by
  have h1 : ((word32 hi lo) >>> 16).setWidth 16 = hi := by
    apply BitVec.eq_of_getLsbD_eq
    intro i hi'
    simp [word32, BitVec.getLsbD_ushiftRight, hi',
      show 16 + i < 32 by omega]
  have h2 : (word32 hi lo).setWidth 16 = lo := by
    apply BitVec.eq_of_getLsbD_eq
    intro i hi'
    simp [word32, hi']
  rw [be32, h1, h2]

-- ================================================== numbers of any width

/-- The number a big-endian byte string writes. -/
def beNat (bytes : List Byte) : Nat :=
  bytes.foldl (fun n b => 256 * n + b.toNat) 0

/-- The last `n` big-endian bytes of a number. -/
def beBytes : (n x : Nat) → List Byte
  | 0, _ => []
  | n + 1, x => beBytes n (x / 256) ++ [BitVec.ofNat 8 x]

@[simp] theorem length_beBytes (n x : Nat) : (beBytes n x).length = n := by
  induction n generalizing x with
  | zero => rfl
  | succ n ih => rw [beBytes, List.length_append, ih, List.length_singleton]

theorem beNat_snoc (bytes : List Byte) (b : Byte) :
    beNat (bytes ++ [b]) = 256 * beNat bytes + b.toNat := by
  rw [beNat, List.foldl_append]
  rfl

theorem beNat_lt (bytes : List Byte) :
    beNat bytes < 256 ^ bytes.length := by
  induction bytes using List.reverseRecOn with
  | nil => exact Nat.one_pos
  | append_singleton bytes b ih =>
      have hb := b.isLt
      rw [beNat_snoc, List.length_append, List.length_singleton,
        Nat.pow_succ]
      omega

/-- Writing a number and reading it keeps what fits. -/
theorem beNat_beBytes (n x : Nat) : beNat (beBytes n x) = x % 256 ^ n := by
  induction n generalizing x with
  | zero => rw [Nat.pow_zero, Nat.mod_one]; rfl
  | succ n ih =>
      rw [beBytes, beNat_snoc, ih, BitVec.toNat_ofNat,
        Nat.pow_succ' (m := 256), Nat.mod_mul (a := 256), Nat.add_comm]

/-- Reading a string and writing it back. -/
theorem beBytes_beNat (bytes : List Byte) :
    beBytes bytes.length (beNat bytes) = bytes := by
  induction bytes using List.reverseRecOn with
  | nil => rfl
  | append_singleton bytes b ih =>
      have hb := b.isLt
      have hdiv : (256 * beNat bytes + b.toNat) / 256 = beNat bytes := by
        omega
      have hlast : BitVec.ofNat 8 (256 * beNat bytes + b.toNat) = b := by
        apply BitVec.eq_of_toNat_eq
        rw [BitVec.toNat_ofNat]
        omega
      rw [List.length_append, List.length_singleton, beBytes, beNat_snoc,
        hdiv, hlast, ih]

theorem ofNat_octets {n : Nat} (a : BitVec (8 * n)) :
    BitVec.ofNat (8 * n) (beNat (beBytes n a.toNat)) = a := by
  have ha := a.isLt
  rw [Nat.pow_mul] at ha
  rw [beNat_beBytes, Nat.mod_eq_of_lt ha, BitVec.ofNat_toNat,
    BitVec.setWidth_eq]

theorem beBytes_ofNat {w n : Nat} {bytes : List Byte}
    (hlen : bytes.length = n) (hw : 2 ^ w = 256 ^ n) :
    beBytes n (BitVec.ofNat w (beNat bytes)).toNat = bytes := by
  have hlt := beNat_lt bytes
  rw [hlen, ← hw] at hlt
  rw [BitVec.toNat_ofNat, Nat.mod_eq_of_lt hlt, ← hlen, beBytes_beNat]

theorem beNat_append (xs ys : List Byte) :
    beNat (xs ++ ys) = beNat xs * 256 ^ ys.length + beNat ys := by
  induction ys using List.reverseRecOn with
  | nil => simp [beNat]
  | append_singleton ys b ih =>
      rw [← List.append_assoc, beNat_snoc, beNat_snoc, ih,
        List.length_append, List.length_singleton, Nat.pow_succ,
        Nat.mul_add, ← Nat.mul_assoc, Nat.mul_comm 256, Nat.mul_assoc,
        Nat.mul_comm 256, Nat.add_assoc, ← Nat.mul_assoc]

theorem beNat_zeros (n : Nat) : beNat (List.replicate n 0) = 0 := by
  induction n with
  | zero => rfl
  | succ n ih => rw [List.replicate_succ', beNat_snoc, ih]; rfl

/-- The first bytes of a number are those of its high part. -/
theorem take_beBytes {n k : Nat} (h : k ≤ n) (x : Nat) :
    (beBytes n x).take k = beBytes k (x / 256 ^ (n - k)) := by
  induction n generalizing x with
  | zero =>
      obtain rfl : k = 0 := by omega
      rfl
  | succ n ih =>
      by_cases hk : k = n + 1
      · subst hk
        rw [Nat.sub_self, Nat.pow_zero, Nat.div_one]
        exact List.take_of_length_le (by rw [length_beBytes])
      · rw [beBytes, List.take_append_of_le_length
            (by rw [length_beBytes]; omega), ih (by omega),
          Nat.div_div_eq_div_mul, ← Nat.pow_succ',
          show n + 1 - k = n - k + 1 by omega]

/-- The last bytes of a number are those of its low part. -/
theorem drop_beBytes {n k : Nat} (h : k ≤ n) (x : Nat) :
    (beBytes n x).drop (n - k) = beBytes k x := by
  induction k generalizing n x with
  | zero => exact List.drop_of_length_le (by rw [length_beBytes]; omega)
  | succ k ih =>
      obtain ⟨n, rfl⟩ : ∃ m, n = m + 1 := ⟨n - 1, by omega⟩
      rw [beBytes, beBytes, Nat.add_sub_add_right,
        List.drop_append_of_le_length (by rw [length_beBytes]; omega),
        ih (by omega)]

/-- Strings of one length are told apart by their numbers. -/
theorem beNat_inj {xs ys : List Byte} (hlen : xs.length = ys.length) :
    beNat xs = beNat ys ↔ xs = ys := by
  constructor
  · intro h
    rw [← beBytes_beNat xs, ← beBytes_beNat ys, hlen, h]
  · rintro rfl
    rfl

/-- `u64::from_le_bytes`. -/
def fromLeBytes (bytes : List Byte) : BitVec 64 :=
  BitVec.ofNat 64 (beNat bytes.reverse)

end Blackwall.Base
