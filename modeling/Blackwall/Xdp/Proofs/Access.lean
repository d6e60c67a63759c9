/-
What the packet accesses do.

A load returns what the frame holds and changes nothing (`Reads`);
a store of several bytes is the stores of each of them (`Stores`), which
inside the frame is one `put`. A swap is two.
-/
import Blackwall.Xdp.Packet

namespace Blackwall.Xdp

open Base Fallible

-- =============================================================== loads

/-- The big-endian 16-bit word at an offset. -/
def be16At (off : Nat) (f : List Byte) : BitVec 16 :=
  word16 (byteAt off f) (byteAt (off + 1) f)

/-- The big-endian 32-bit word at an offset. -/
def be32At (off : Nat) (f : List Byte) : BitVec 32 :=
  word32 (be16At off f) (be16At (off + 2) f)

theorem byteAt_slice {o n i : Nat} {f : List Byte} (h : i < n) :
    byteAt i (slice o n f) = byteAt (o + i) f := by
  rw [byteAt, byteAt, List.getD_eq_getElem?_getD,
    List.getD_eq_getElem?_getD, getElem?_slice, if_pos h]

theorem slice_one_byteAt {o : Nat} {f : List Byte}
    (h : o + 1 ≤ f.length) : slice o 1 f = [byteAt o f] := by
  apply slice_one
  rw [byteAt, List.getD_eq_getElem?_getD, List.getElem?_eq_getElem h,
    Option.getD_some]

theorem slice_two_be16At {o : Nat} {f : List Byte}
    (h : o + 2 ≤ f.length) : slice o 2 f = be16 (be16At o f) := by
  rw [be16At, be16_word16, show (2 : Nat) = 1 + 1 from rfl, slice_add,
    slice_one_byteAt (by omega), slice_one_byteAt (by omega)]
  rfl

/-- Four bytes written as a word are read as it. -/
theorem be32At_of_slice {o : Nat} {f : List Byte} {v : BitVec 32}
    (h : slice o 4 f = be32 v) : be32At o f = v := by
  have hbyte : ∀ i, i < 4 → byteAt (o + i) f = byteAt i (be32 v) :=
    fun i hi => by rw [← h, byteAt_slice hi]
  calc be32At o f
      = word32 (word16 (byteAt (o + 0) f) (byteAt (o + 1) f))
          (word16 (byteAt (o + 2) f) (byteAt (o + 3) f)) := rfl
    _ = word32 ((v >>> 16).setWidth 16) (v.setWidth 16) := by
        rw [hbyte 0 (by decide), hbyte 1 (by decide), hbyte 2 (by decide),
          hbyte 3 (by decide)]
        exact congrArg₂ word32 (word16_be16 _) (word16_be16 _)
    _ = v := word32_be32 v

variable {c : Ctx}

theorem reads_ptrAt (off n : Nat) :
    Reads (ptrAt off n) (fun c => off + n ≤ c.frame.length)
      (fun c => slice off n c.frame) :=
  ⟨fun _ h => if_pos h, fun _ h => if_neg h⟩

theorem reads_loadU8 (off : Nat) :
    Reads (loadU8 off) (fun c => off + 1 ≤ c.frame.length)
      (fun c => byteAt off c.frame) :=
  ((reads_ptrAt off 1).map (byteAt 0)).congr (fun _ => Iff.rfl)
    fun _ _ => (byteAt_slice Nat.zero_lt_one).symm

theorem reads_loadBe16 (off : Nat) :
    Reads (loadBe16 off) (fun c => off + 2 ≤ c.frame.length)
      (fun c => be16At off c.frame) :=
  ((reads_loadU8 off).bind fun hi =>
    (reads_loadU8 (off + 1)).map (word16 hi)).congr
      (fun _ => ⟨fun h => ⟨by omega, h⟩, fun h => h.2⟩) fun _ _ => rfl

theorem reads_loadBe32 (off : Nat) :
    Reads (loadBe32 off) (fun c => off + 4 ≤ c.frame.length)
      (fun c => be32At off c.frame) :=
  ((reads_loadBe16 off).bind fun hi =>
    (reads_loadBe16 (off + 2)).map (word32 hi)).congr
      (fun _ => ⟨fun h => ⟨by omega, h⟩, fun h => h.2⟩) fun _ _ => rfl

theorem slice_four_bytes {o : Nat} {f : List Byte}
    (h : o + 4 ≤ f.length) :
    slice o 4 f
      = [byteAt o f, byteAt (o + 1) f, byteAt (o + 2) f,
        byteAt (o + 3) f] := by
  rw [show (4 : Nat) = 1 + 1 + 1 + 1 from rfl, slice_add, slice_add,
    slice_add, slice_one_byteAt (by omega), slice_one_byteAt (by omega),
    slice_one_byteAt (by omega), slice_one_byteAt (by omega)]
  rfl

theorem reads_loadAddr4 (off : Nat) :
    Reads (loadAddr4 off) (fun c => off + 4 ≤ c.frame.length)
      (fun c => slice off 4 c.frame) :=
  ((reads_loadU8 off).bind fun a => (reads_loadU8 (off + 1)).bind fun b =>
    (reads_loadU8 (off + 2)).bind fun d =>
      (reads_loadU8 (off + 3)).map fun e => [a, b, d, e]).congr
    (fun _ => ⟨fun h => ⟨by omega, by omega, by omega, h⟩,
      fun h => h.2.2.2⟩)
    fun _ h => slice_four_bytes h

/-- The bytes `parse_mss` reads are there. -/
def MssReadable (opts : Nat) (f : List Byte) : Prop :=
  opts + 2 ≤ f.length
    ∧ (byteAt opts f = 2 ∧ byteAt (opts + 1) f = 4 → opts + 4 ≤ f.length)

instance (opts : Nat) (f : List Byte) : Decidable (MssReadable opts f) :=
  inferInstanceAs (Decidable (_ ∧ _))

/-- The MSS a client's options ask for, as `parse_mss` reads them. -/
def clientMss (opts : Nat) (f : List Byte) : BitVec 16 :=
  if byteAt opts f = 2 ∧ byteAt (opts + 1) f = 4 then be16At (opts + 2) f
  else defaultClientMss

theorem reads_parseMss (opts : Nat) :
    Reads (parseMss opts) (fun c => MssReadable opts c.frame)
      (fun c => clientMss opts c.frame) := by
  have hlast : ∀ kind len : Byte,
      Reads (if kind = 2 ∧ len = 4 then loadBe16 (opts + 2)
          else return defaultClientMss)
        (fun c => kind = 2 ∧ len = 4 → opts + 4 ≤ c.frame.length)
        (fun c => if kind = 2 ∧ len = 4 then be16At (opts + 2) c.frame
          else defaultClientMss) := by
    intro kind len
    by_cases hk : kind = 2 ∧ len = 4
    · simp only [if_pos hk, forall_prop_of_true hk]
      exact reads_loadBe16 (opts + 2)
    · simp only [if_neg hk, forall_prop_of_false hk]
      exact ⟨fun _ _ => rfl, fun _ h => absurd trivial h⟩
  exact ((reads_loadU8 opts).bind fun kind =>
    (reads_loadU8 (opts + 1)).bind (hlast kind)).congr
      (fun _ => ⟨fun h => ⟨by have := h.1; omega, h⟩, fun h => h.2⟩)
      fun _ _ => rfl

-- ============================================================== stores

theorem storeU8_fits {off : Nat} {v : Byte}
    (h : off + 1 ≤ c.frame.length) :
    Returns (storeU8 off v) c ()
      { c with frame := put off [v] c.frame } := by
  rw [Returns, storeU8, if_pos h, set_eq_put h]

/-- Store bytes one after the other. -/
def storeAll : Nat → List Byte → Prog Unit
  | _, [] => return
  | off, b :: bs => do
      storeU8 off b
      storeAll (off + 1) bs

theorem storeAll_append (off : Nat) (x y : List Byte) :
    storeAll off (x ++ y)
      = (do storeAll off x; storeAll (off + x.length) y) := by
  induction x generalizing off with
  | nil => rfl
  | cons b bs ih =>
      rw [List.cons_append, storeAll, storeAll, ih, bind_assoc,
        List.length_cons, Nat.add_assoc, Nat.add_comm 1]

/-- Inside the frame, the bytes are written. -/
theorem storeAll_fits {off : Nat} {x : List Byte}
    (h : off + x.length ≤ c.frame.length) :
    Returns (storeAll off x) c ()
      { c with frame := put off x c.frame } := by
  induction x generalizing off c with
  | nil =>
      rw [put_nil]
      rfl
  | cons b bs ih =>
      rw [List.length_cons] at h
      have hone : off + [b].length ≤ c.frame.length := by
        rw [List.length_singleton]
        omega
      have hput : put off (b :: bs) c.frame
          = put (off + 1) bs (put off [b] c.frame) :=
        (put_append (x := [b]) (y := bs) (by
          rw [List.singleton_append, List.length_cons]; omega)).symm
      rw [Returns, storeAll, bind_of_returns (storeU8_fits hone), hput]
      apply ih
      show _ ≤ (put off [b] c.frame).length
      rw [length_put hone]
      omega

/-- Beyond the frame, the last store at the latest gives up. -/
theorem storeAll_short {off : Nat} {x : List Byte} (hx : x ≠ [])
    (h : c.frame.length < off + x.length) :
    (storeAll off x c).1 = none := by
  induction x generalizing off c with
  | nil => exact absurd rfl hx
  | cons b bs ih =>
      rw [List.length_cons] at h
      by_cases hone : off + 1 ≤ c.frame.length
      · have hbs : bs ≠ [] := by
          rintro rfl
          rw [List.length_nil] at h
          omega
        rw [storeAll, bind_of_returns (storeU8_fits hone)]
        apply ih hbs
        show (put off [b] c.frame).length < _
        rw [length_put hone]
        omega
      · have hfail : storeU8 off b c = (none, c) := if_neg hone
        rw [storeAll, bind_of_fails hfail]

/-- Either way, what is before the bytes stays. -/
theorem keeps_storeAll {o n off : Nat} (x : List Byte) (h : o + n ≤ off) :
    Keeps (fun c : Ctx => slice o n c.frame) (storeAll off x) := by
  induction x generalizing off with
  | nil => exact Keeps.pure ()
  | cons b bs ih =>
      refine Keeps.bind ?_ fun _ => ih (by omega)
      intro c
      by_cases hone : off + 1 ≤ c.frame.length
      · rw [storeU8_fits hone]
        exact slice_put_other hone (Or.inl h)
      · rw [storeU8, if_neg hone]

/-- The program stores `x` from `off` on, byte by byte. -/
def Stores (p : Prog Unit) (off : Nat) (x : List Byte) : Prop :=
  p = storeAll off x

/-- Stores side by side are one store. -/
theorem Stores.append {p q : Prog Unit} {off : Nat} {x y : List Byte}
    (hp : Stores p off x) (hq : Stores q (off + x.length) y) :
    Stores (do p; q) off (x ++ y) := by
  rw [Stores, storeAll_append, ← hp, ← hq]

theorem stores_storeU8 (off : Nat) (v : Byte) :
    Stores (storeU8 off v) off [v] :=
  (bind_pure (storeU8 off v)).symm

theorem stores_storeBe16 (off : Nat) (v : BitVec 16) :
    Stores (storeBe16 off v) off (be16 v) := by
  have hlo : (v &&& 0xff).setWidth 8 = v.setWidth 8 := by
    rw [BitVec.setWidth_and]
    exact BitVec.and_allOnes
  rw [storeBe16, hlo]
  exact (stores_storeU8 off _).append (stores_storeU8 (off + 1) _)

theorem stores_storeBe32 (off : Nat) (v : BitVec 32) :
    Stores (storeBe32 off v) off (be32 v) := by
  have hlo : (v &&& 0xffff).setWidth 16 = v.setWidth 16 := by
    rw [BitVec.setWidth_and]
    exact BitVec.and_allOnes
  rw [storeBe32, hlo]
  exact (stores_storeBe16 off _).append (stores_storeBe16 (off + 2) _)

/-- The loop stores the NOPs that are missing, if its bound allows. -/
theorem stores_padNops (off len : Nat) :
    ∀ n k, len - k ≤ n →
      Stores (padNops off len n k) (off + k)
        (List.replicate (len - k) 1) := by
  intro n
  induction n with
  | zero =>
      intro k h
      rw [Nat.le_zero.mp h]
      rfl
  | succ n ih =>
      intro k h
      rw [padNops]
      split
      next hk =>
        rw [Nat.sub_eq_zero_of_le hk]
        rfl
      next hk =>
        have hsucc : len - k = len - (k + 1) + 1 := by omega
        rw [hsucc, List.replicate_succ]
        exact (stores_storeU8 (off + k) 1).append (ih (k + 1) (by omega))

/-- An option area of `len` bytes: the MSS, then NOPs. -/
def mssOption (len : Nat) (mss : BitVec 16) : List Byte :=
  [2] ++ ([4] ++ (be16 mss ++ List.replicate (len - 4) 1))

theorem stores_writeMssOption (off : Nat) {len : Nat} (mss : BitVec 16)
    (h : len ≤ maxTcpOpts) :
    Stores (writeMssOption off len mss) off (mssOption len mss) := by
  have hpad : len - 4 ≤ maxTcpOpts - 4 := Nat.sub_le_sub_right h 4
  exact (stores_storeU8 off 2).append ((stores_storeU8 (off + 1) 4).append
    ((stores_storeBe16 (off + 2) mss).append
      (stores_padNops off len _ 4 hpad)))

-- =============================================================== swaps

/-- The `n` bytes at `a` and the `n` at `b` exchanged. -/
def swapped (n a b : Nat) (f : List Byte) : List Byte :=
  put b (slice a n f) (put a (slice b n f) f)

section Swaps

variable {n a b : Nat} {f : List Byte}

theorem length_swapped (hab : a + n ≤ b) (hb : b + n ≤ f.length) :
    (swapped n a b f).length = f.length := by
  have hA : (slice a n f).length = n := length_slice (by omega)
  have hB : (slice b n f).length = n := length_slice hb
  have h1 : (put a (slice b n f) f).length = f.length :=
    length_put (by rw [hB]; omega)
  rw [swapped, length_put (by rw [hA, h1]; exact hb), h1]

/-- A byte beyond both places is not swapped yet. -/
theorem byteAt_swapped {o : Nat} (hab : a + n ≤ b) (hb : b + n ≤ f.length)
    (hoa : a + n ≤ o) (hob : o < b ∨ b + n ≤ o) :
    byteAt o (swapped n a b f) = byteAt o f := by
  have hA : (slice a n f).length = n := length_slice (by omega)
  have hB : (slice b n f).length = n := length_slice hb
  have hfit : a + (slice b n f).length ≤ f.length := by
    rw [hB]
    omega
  have h1 : (put a (slice b n f) f).length = f.length := length_put hfit
  have hat : ∀ g : List Byte, byteAt o g = byteAt 0 (slice o 1 g) :=
    fun g => (byteAt_slice Nat.zero_lt_one).symm
  rw [hat, hat, swapped,
    slice_put_other (by rw [hA, h1]; exact hb) (by rw [hA]; omega),
    slice_put_other hfit (by rw [hB]; omega)]

theorem swapped_succ (hab : a + (n + 1) ≤ b)
    (hb : b + (n + 1) ≤ f.length) :
    put (b + n) [byteAt (a + n) f]
        (put (a + n) [byteAt (b + n) f] (swapped n a b f))
      = swapped (n + 1) a b f := by
  have hA : (slice a n f).length = n := length_slice (by omega)
  have hB : (slice b n f).length = n := length_slice (by omega)
  have hA1 : slice a (n + 1) f = slice a n f ++ [byteAt (a + n) f] := by
    rw [slice_add, slice_one_byteAt (by omega)]
  have hB1 : slice b (n + 1) f = slice b n f ++ [byteAt (b + n) f] := by
    rw [slice_add, slice_one_byteAt (by omega)]
  have h1 : (put a (slice b n f) f).length = f.length :=
    length_put (by rw [hB]; omega)
  have h2 : (put (a + n) [byteAt (b + n) f] (put a (slice b n f) f)).length
      = f.length := by
    rw [length_put (by rw [h1, List.length_singleton]; omega), h1]
  -- the new byte of each half is written next to the old ones
  have hfirst : put a (slice b (n + 1) f) f
      = put (a + n) [byteAt (b + n) f] (put a (slice b n f) f) := by
    rw [hB1, ← put_append (by
      rw [List.length_append, hB, List.length_singleton]; omega), hB]
  have hsecond : put b (slice a (n + 1) f)
        (put (a + n) [byteAt (b + n) f] (put a (slice b n f) f))
      = put (b + n) [byteAt (a + n) f] (put b (slice a n f)
        (put (a + n) [byteAt (b + n) f] (put a (slice b n f) f))) := by
    rw [hA1, ← put_append (by
      rw [List.length_append, hA, List.length_singleton, h2]; omega), hA]
  have hcomm : put (a + n) [byteAt (b + n) f]
        (put b (slice a n f) (put a (slice b n f) f))
      = put b (slice a n f)
        (put (a + n) [byteAt (b + n) f] (put a (slice b n f) f)) :=
    put_comm (by rw [hA, h1]; omega)
      (by rw [h1, List.length_singleton]; omega)
      (by rw [hA, List.length_singleton]; omega)
  rw [swapped, swapped, hfirst, hsecond, hcomm]

/-- A swap of two places that do not overlap, inside the frame. -/
theorem returns_swapBytes (hab : a + n ≤ b) (hb : b + n ≤ c.frame.length) :
    Returns (swapBytes n a b) c ()
      { c with frame := swapped n a b c.frame } := by
  induction n with
  | zero =>
      rw [swapped, slice_zero, slice_zero, put_nil, put_nil]
      rfl
  | succ n ih =>
      have hlen := length_swapped (n := n) (a := a) (b := b)
        (f := c.frame) (by omega) (by omega)
      have hload : ∀ o, a + n ≤ o → o < b ∨ b + n ≤ o →
          o + 1 ≤ c.frame.length →
          Returns (loadU8 o) { c with frame := swapped n a b c.frame }
            (byteAt o c.frame)
            { c with frame := swapped n a b c.frame } := by
        intro o hoa hob ho
        rw [← byteAt_swapped (by omega) (by omega) hoa hob]
        exact (reads_loadU8 o).succeeds _ (hlen ▸ ho)
      have hone : (put (a + n) [byteAt (b + n) c.frame]
          (swapped n a b c.frame)).length = c.frame.length := by
        rw [length_put (by rw [hlen, List.length_singleton]; omega), hlen]
      rw [swapBytes, Returns, bind_of_returns (ih (by omega) (by omega)),
        bind_of_returns (hload (a + n) (by omega) (by omega) (by omega)),
        bind_of_returns (hload (b + n) (by omega) (by omega) (by omega)),
        bind_of_returns (storeU8_fits (by
          show _ ≤ (swapped n a b c.frame).length
          omega)),
        ← swapped_succ hab hb]
      apply storeU8_fits
      rw [← hone] at hb
      exact hb

end Swaps

end Blackwall.Xdp
