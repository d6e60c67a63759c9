/-
What the Redis parser does with any bytes.

Everything the parser decides, it decides on bytes it has seen: more bytes
change nothing but "incomplete" (`parseOne_append`), in a debug build and
in a release build, panics included. A command takes at least one byte
and no more than there are (`parseOne_consumes`).

A length that does not fit behind its position is where the builds part:
a debug build panics, a release build computes a position from it that
lies before the element. Without one both compute the exact positions,
and these only grow (`parser_robust_iff`).
-/
import Blackwall.Deception.Redis

namespace Blackwall.Deception.Redis

open Base

-- ================================================================= lines

section Lines

variable {s buf line more : List Byte} {i start after cur afterLen blen : Nat}

theorem crlfAt_bound (h : crlfAt s = some i) : i + 2 ≤ s.length := by
  induction s using crlfAt.induct generalizing i with
  | case1 a b rest hcr =>
      rw [crlfAt, if_pos hcr] at h
      cases h
      simp
  | case2 a b rest hcr ih =>
      rw [crlfAt, if_neg hcr, Option.map_eq_some_iff] at h
      obtain ⟨j, hj, rfl⟩ := h
      have := ih hj
      simp only [List.length_cons] at this ⊢
      omega
  | case3 s hs =>
      rw [crlfAt] at h
      · cases h
      · exact hs

theorem crlfAt_append (h : crlfAt s = some i) (more : List Byte) :
    crlfAt (s ++ more) = some i := by
  induction s using crlfAt.induct generalizing i with
  | case1 a b rest hcr =>
      rw [crlfAt, if_pos hcr] at h
      rw [List.cons_append, List.cons_append, crlfAt, if_pos hcr, h]
  | case2 a b rest hcr ih =>
      rw [crlfAt, if_neg hcr, Option.map_eq_some_iff] at h
      obtain ⟨j, hj, rfl⟩ := h
      rw [List.cons_append, List.cons_append, crlfAt, if_neg hcr,
        ← List.cons_append, ih hj]
      rfl
  | case3 s hs =>
      rw [crlfAt] at h
      · cases h
      · exact hs

theorem readCrlfLine_some (h : readCrlfLine buf start = some (line, after)) :
    ∃ idx, crlfAt (buf.drop start) = some idx ∧ line = slice start idx buf
      ∧ after = start + idx + 2 ∧ after ≤ buf.length := by
  unfold readCrlfLine at h
  split at h
  · next hstart =>
    obtain ⟨idx, hidx, heq⟩ := Option.map_eq_some_iff.mp h
    obtain ⟨rfl, rfl⟩ := Prod.mk.inj heq
    have hbound := crlfAt_bound hidx
    rw [List.length_drop] at hbound
    exact ⟨idx, hidx, rfl, rfl, by omega⟩
  · cases h

theorem readCrlfLine_append
    (h : readCrlfLine buf start = some (line, after)) (more : List Byte) :
    readCrlfLine (buf ++ more) start = some (line, after) := by
  obtain ⟨idx, hidx, rfl, rfl, hle⟩ := readCrlfLine_some h
  have hstart : start ≤ (buf ++ more).length := by
    rw [List.length_append]
    omega
  rw [readCrlfLine, if_pos hstart,
    List.drop_append_of_le_length (by omega), crlfAt_append hidx,
    Option.map_some, slice_append (by omega)]

theorem lengthLine_append (h : lengthLine buf cur ≠ .missing)
    (more : List Byte) :
    lengthLine (buf ++ more) cur = lengthLine buf cur := by
  unfold lengthLine at h ⊢
  cases hline : readCrlfLine buf cur with
  | none =>
      rw [hline] at h
      exact absurd rfl h
  | some l =>
      obtain ⟨line, after⟩ := l
      rw [readCrlfLine_append hline]

theorem lengthLine_bounds
    (h : lengthLine buf cur = .length afterLen blen) :
    cur < afterLen ∧ afterLen ≤ buf.length := by
  unfold lengthLine at h
  split at h
  · cases h
  · next line after hline =>
    obtain ⟨idx, -, -, rfl, hle⟩ := readCrlfLine_some hline
    split at h
    · cases h
    · split at h
      · cases h
      · cases h
        exact ⟨by omega, hle⟩

end Lines

-- =============================================================== elements

section Elements

variable {m : Build} {buf : List Byte} {i cur cur' a b : Nat}
  {data : Option (List Byte)}

/-- Where the length fits, both builds do what it says. -/
theorem bulk_fits (h : a + b + 2 < 2 ^ 64) :
    bulk m buf i a b = bulkAt buf i a (a + b) (a + b + 2) := by
  rw [bulk, Build.add_fits (by omega), ok_bind, Build.add_fits h, ok_bind]

theorem bulk_debug (h : 2 ^ 64 ≤ a + b + 2) :
    bulk .debug buf i a b = .error .overflow := by
  rw [bulk]
  by_cases hab : a + b < 2 ^ 64
  · rw [Build.add_fits hab, ok_bind, Build.add_debug h, error_bind]
  · rw [Build.add_debug (Nat.not_lt.mp hab), error_bind]

/-- In order, the positions of an element panic nowhere. -/
theorem bulkAt_ordered {e : Nat} (ha : a ≤ e) (he : e ≤ cur) :
    bulkAt buf i a e cur
      = if buf.length < cur then .ok .incomplete
        else if slice e (cur - e) buf ≠ [13, 10] then .ok .invalid
        else .ok (.next
          (if i = 0 then some (slice a (e - a) buf) else none) cur) := by
  unfold bulkAt
  split
  · rfl
  · next hlen =>
    rw [sliced_within he (by omega), ok_bind]
    split
    · rfl
    · by_cases hi : i = 0
      · rw [if_pos hi, if_pos hi, sliced_within ha (by omega), ok_bind]
      · rw [if_neg hi, if_neg hi]

/-- The loop goes on behind the CRLF of an element. -/
theorem bulkAt_next {e : Nat} (h : bulkAt buf i a e cur = .ok (.next data cur')) :
    cur' = cur ∧ cur = e + 2 ∧ cur ≤ buf.length := by
  unfold bulkAt at h
  split at h
  · cases h
  · cases htail : sliced buf e cur with
    | error p =>
        rw [htail] at h
        cases h
    | ok tail =>
        obtain ⟨he, hcur, rfl⟩ := sliced_ok htail
        rw [htail, ok_bind] at h
        split at h
        · cases h
        · next hcrlf =>
          rw [not_not] at hcrlf
          have hlen := congrArg List.length hcrlf
          rw [length_slice (by omega)] at hlen
          have hcur' : cur = e + 2 := by
            simp only [List.length_cons, List.length_nil] at hlen
            omega
          split at h
          · cases hd : sliced buf a e with
            | error p =>
                rw [hd] at h
                cases h
            | ok d =>
                rw [hd] at h
                cases h
                exact ⟨rfl, hcur', hcur⟩
          · cases h
            exact ⟨rfl, hcur', hcur⟩

theorem bulk_next (h : bulk m buf i a b = .ok (.next data cur')) :
    0 < cur' ∧ cur' ≤ buf.length := by
  unfold bulk at h
  cases hsum : m.add a b with
  | error p =>
      rw [hsum] at h
      cases h
  | ok e =>
      rw [hsum, ok_bind] at h
      cases hsum' : m.add e 2 with
      | error p =>
          rw [hsum'] at h
          cases h
      | ok cur =>
          rw [hsum', ok_bind] at h
          obtain ⟨rfl, rfl, hle⟩ := bulkAt_next h
          exact ⟨by omega, hle⟩

/-- More bytes matter to an element that is not complete. -/
theorem bulkAt_append {e : Nat}
    (h : bulkAt buf i a e cur ≠ .ok .incomplete)
    (more : List Byte) :
    bulkAt (buf ++ more) i a e cur = bulkAt buf i a e cur := by
  unfold bulkAt at h ⊢
  by_cases hlen : buf.length < cur
  · exact absurd (if_pos hlen) h
  · have hcur : cur ≤ buf.length := Nat.not_lt.mp hlen
    have hmore : ¬ (buf ++ more).length < cur := by
      rw [List.length_append]
      omega
    rw [if_neg hlen, if_neg hmore, sliced_append hcur]
    cases htail : sliced buf e cur with
    | error p => rfl
    | ok tail =>
        rw [sliced_append ((sliced_ok htail).1.trans hcur)]

theorem bulk_append (h : bulk m buf i a b ≠ .ok .incomplete)
    (more : List Byte) : bulk m (buf ++ more) i a b = bulk m buf i a b := by
  unfold bulk at h ⊢
  cases hsum : m.add a b with
  | error p => rfl
  | ok e =>
      rw [hsum, ok_bind] at h
      rw [ok_bind, ok_bind]
      cases hsum' : m.add e 2 with
      | error p => rfl
      | ok cur =>
          rw [hsum', ok_bind] at h
          exact bulkAt_append h more

theorem element_append (h : element m buf i cur ≠ .ok .incomplete)
    (more : List Byte) :
    element m (buf ++ more) i cur = element m buf i cur := by
  unfold element at h ⊢
  cases hline : lengthLine buf cur with
  | missing =>
      rw [hline] at h
      exact absurd rfl h
  | malformed =>
      rw [lengthLine_append (by rw [hline]; exact nofun), hline]
  | length a b =>
      rw [hline] at h
      rw [lengthLine_append (by rw [hline]; exact nofun), hline]
      exact bulk_append h more

/-- Where the next element starts, in any build. -/
theorem element_next (h : element m buf i cur = .ok (.next data cur')) :
    0 < cur' ∧ cur' ≤ buf.length := by
  unfold element at h
  split at h
  · cases h
  · cases h
  · exact bulk_next h

end Elements

-- ================================================================ the parser

section Parser

variable {m : Build} {lossy : List Byte → List Char} {buf : List Byte}
  {i cur k n : Nat} {verb : Option (List Char)} {v : List Char}

theorem elements_append
    (h : elements m lossy buf i cur verb k ≠ .ok .incomplete)
    (more : List Byte) :
    elements m lossy (buf ++ more) i cur verb k
      = elements m lossy buf i cur verb k := by
  induction k generalizing i cur verb with
  | zero => rfl
  | succ k ih =>
      rw [elements] at h ⊢
      rw [elements]
      have helement : element m buf i cur ≠ .ok .incomplete := by
        intro hstop
        rw [hstop] at h
        exact h rfl
      rw [element_append helement]
      cases hturn : element m buf i cur with
      | error p => rfl
      | ok r =>
          rw [hturn, ok_bind] at h
          rw [ok_bind, ok_bind]
          cases r with
          | incomplete => rfl
          | invalid => rfl
          | next data cur' => exact ih h

theorem header_append (h : header buf ≠ .ok .missing) (more : List Byte) :
    header (buf ++ more) = header buf := by
  unfold header at h ⊢
  cases hline : readCrlfLine buf 0 with
  | none =>
      rw [hline] at h
      exact absurd rfl h
  | some l =>
      obtain ⟨line, cur⟩ := l
      rw [readCrlfLine_append hline]

theorem parseRespArray_append
    (h : parseRespArray m lossy buf ≠ .ok .incomplete) (more : List Byte) :
    parseRespArray m lossy (buf ++ more) = parseRespArray m lossy buf := by
  unfold parseRespArray at h ⊢
  have hheader : header buf ≠ .ok .missing := by
    intro hmissing
    rw [hmissing] at h
    exact h rfl
  rw [header_append hheader]
  cases hcount : header buf with
  | error p => rfl
  | ok hd =>
      rw [hcount, ok_bind] at h
      rw [ok_bind, ok_bind]
      cases hd with
      | missing => rfl
      | malformed => rfl
      | count argc cur => exact elements_append h more

theorem parseInline_append (h : parseInline lossy buf ≠ .incomplete)
    (more : List Byte) :
    parseInline lossy (buf ++ more) = parseInline lossy buf := by
  unfold parseInline at h ⊢
  cases hnl : buf.findIdx? (· = 10) with
  | none =>
      rw [hnl] at h
      exact absurd rfl h
  | some nl =>
      have hlt : nl < buf.length := (List.findIdx?_eq_some_iff_getElem.mp hnl).1
      rw [List.findIdx?_append, hnl, Option.some_or]
      dsimp only
      rw [List.take_append_of_le_length (Nat.le_of_lt hlt)]

/-- What the parser has decided stays decided. -/
theorem parseOne_append (h : parseOne m lossy buf ≠ .ok .incomplete)
    (more : List Byte) :
    parseOne m lossy (buf ++ more) = parseOne m lossy buf := by
  cases buf with
  | nil => exact absurd rfl h
  | cons b buf =>
      unfold parseOne at h ⊢
      rw [List.cons_append, List.head?_cons, List.head?_cons]
      rw [List.head?_cons] at h
      dsimp only at h ⊢
      split
      · next hb =>
        rw [if_pos hb] at h
        exact parseRespArray_append h more
      · next hb =>
        rw [if_neg hb] at h
        exact congrArg Except.ok
          (parseInline_append (fun hinc => h (congrArg Except.ok hinc)) more)

-- ----------------------------------------------------------- what it takes

theorem header_count {argc : Nat} (h : header buf = .ok (.count argc cur)) :
    0 < argc ∧ 0 < cur ∧ cur ≤ buf.length := by
  unfold header at h
  cases hline : readCrlfLine buf 0 with
  | none =>
      rw [hline] at h
      cases h
  | some l =>
      obtain ⟨line, after⟩ := l
      obtain ⟨idx, -, -, rfl, hle⟩ := readCrlfLine_some hline
      rw [hline] at h
      dsimp only at h
      cases hcount : sliced line 1 line.length with
      | error p =>
          rw [hcount] at h
          cases h
      | ok count =>
          rw [hcount, ok_bind] at h
          cases hargc : parseUsize count with
          | none =>
              rw [hargc] at h
              cases h
          | some n =>
              rw [hargc] at h
              dsimp only at h
              split at h
              · cases h
              · cases h
                exact ⟨by omega, by omega, hle⟩

theorem elements_consumes (hcur : 0 < cur ∧ cur ≤ buf.length)
    (h : elements m lossy buf i cur verb k = .ok (.command v n)) :
    v ≠ [] ∧ 0 < n ∧ n ≤ buf.length := by
  induction k generalizing i cur verb with
  | zero =>
      cases verb with
      | none => cases h
      | some w =>
          rw [elements] at h
          split at h
          · cases h
          · next hv =>
            cases h
            exact ⟨mt List.isEmpty_iff.mpr hv, hcur⟩
  | succ k ih =>
      rw [elements] at h
      cases hturn : element m buf i cur with
      | error p =>
          rw [hturn] at h
          cases h
      | ok r =>
          rw [hturn, ok_bind] at h
          cases r with
          | incomplete => cases h
          | invalid => cases h
          | next data cur' => exact ih (element_next hturn) h

/-- A command has a verb and takes some of the bytes. -/
theorem parseOne_consumes (h : parseOne m lossy buf = .ok (.command v n)) :
    v ≠ [] ∧ 0 < n ∧ n ≤ buf.length := by
  unfold parseOne at h
  cases hb : buf.head? with
  | none =>
      rw [hb] at h
      cases h
  | some b =>
      rw [hb] at h
      dsimp only at h
      split at h
      · unfold parseRespArray at h
        cases hcount : header buf with
        | error p =>
            rw [hcount] at h
            cases h
        | ok hd =>
            rw [hcount, ok_bind] at h
            cases hd with
            | missing => cases h
            | malformed => cases h
            | count argc cur =>
                exact elements_consumes (header_count hcount).2 h
      · have hinline := Except.ok.inj h
        unfold parseInline at hinline
        split at hinline
        · cases hinline
        · next nl hnl =>
          have hlt : nl < buf.length :=
            (List.findIdx?_eq_some_iff_getElem.mp hnl).1
          split at hinline
          · next word hword =>
            cases hinline
            exact ⟨ne_nil_of_mem_splitWhitespace
              (List.mem_of_head? hword), by omega, hlt⟩
          · cases hinline

end Parser

-- ============================================================== robustness

/-- The loop of the array parser gets to its turn `i` at `cur`, with `k`
elements to come. -/
inductive Reached (m : Build) (buf : List Byte) : Nat → Nat → Nat → Prop
  | start {argc cur : Nat} (hstar : buf.head? = some 42)
      (h : header buf = .ok (.count argc cur)) : Reached m buf argc 0 cur
  | next {k i cur cur' : Nat} {data : Option (List Byte)}
      (h : Reached m buf (k + 1) i cur)
      (hturn : element m buf i cur = .ok (.next data cur')) :
      Reached m buf k (i + 1) cur'

/-- What the parser owes a hostile client. -/
structure Robust (m : Build) (lossy : List Byte → List Char)
    (buf : List Byte) : Prop where
  returns : ∃ r, parseOne m lossy buf = .ok r
  forward : ∀ {k i cur cur' data}, Reached m buf (k + 1) i cur →
    element m buf i cur = .ok (.next data cur') →
      cur < cur' ∧ cur' ≤ buf.length
  bounded : ∀ {k i cur}, Reached m buf k i cur → i ≤ buf.length
  command : ∀ {v n}, parseOne m lossy buf = .ok (.command v n) →
    v ≠ [] ∧ 0 < n ∧ n ≤ buf.length

/-- A length the loop gets to does not fit behind its position. -/
def Overflows (buf : List Byte) : Prop :=
  ∃ k i cur afterLen blen, Reached .debug buf (k + 1) i cur
    ∧ lengthLine buf cur = .length afterLen blen
    ∧ 2 ^ 64 ≤ afterLen + blen + 2

section Robust

variable {m : Build} {lossy : List Byte → List Char} {buf : List Byte}
  {i cur cur' k : Nat} {data : Option (List Byte)}

/-- A turn of the loop is one of the parser's. -/
theorem Reached.run (h : Reached m buf k i cur) :
    ∃ verb, parseOne m lossy buf = elements m lossy buf i cur verb k := by
  induction h with
  | start hstar hcount =>
      refine ⟨none, ?_⟩
      rw [parseOne, hstar]
      dsimp only
      rw [if_pos rfl, parseRespArray, hcount, ok_bind]
  | next _ hturn ih =>
      obtain ⟨verb, hverb⟩ := ih
      rw [elements, hturn, ok_bind] at hverb
      exact ⟨_, hverb⟩

/-- The turns before and those to come make up the declared number. -/
theorem Reached.count {argc cur₀ : Nat} (h : Reached m buf k i cur)
    (hcount : header buf = .ok (.count argc cur₀)) : i + k = argc := by
  induction h with
  | start _ h =>
      rw [hcount] at h
      cases h
      exact Nat.zero_add _
  | next _ _ ih => omega

/-- A turn that computes no position beyond the machine's. -/
theorem element_fits (m : Build) (i : Nat)
    (hfits : ∀ {a b}, lengthLine buf cur = .length a b →
      a + b + 2 < 2 ^ 64) :
    element m buf i cur = element .debug buf i cur
      ∧ (∃ r, element m buf i cur = .ok r)
      ∧ ∀ {data cur'}, element m buf i cur = .ok (.next data cur') →
        cur < cur' ∧ cur' ≤ buf.length := by
  unfold element
  cases hline : lengthLine buf cur with
  | missing => exact ⟨rfl, ⟨_, rfl⟩, nofun⟩
  | malformed => exact ⟨rfl, ⟨_, rfl⟩, nofun⟩
  | length a b =>
      have hfit := hfits hline
      dsimp only
      rw [bulk_fits hfit, bulk_fits hfit]
      refine ⟨rfl, ?_, fun h => ?_⟩
      · rw [bulkAt_ordered (by omega) (by omega)]
        split
        · exact ⟨_, rfl⟩
        · split
          · exact ⟨_, rfl⟩
          · exact ⟨_, rfl⟩
      · obtain ⟨rfl, -, hle⟩ := bulkAt_next h
        have hbounds := lengthLine_bounds hline
        exact ⟨by omega, hle⟩

variable (hno : ¬ Overflows buf)
include hno

theorem Reached.fits (h : Reached .debug buf (k + 1) i cur) {a b : Nat}
    (hline : lengthLine buf cur = .length a b) : a + b + 2 < 2 ^ 64 :=
  Nat.lt_of_not_le fun hle => hno ⟨k, i, cur, a, b, h, hline, hle⟩

/-- Both builds take the same turns. -/
theorem Reached.debug (h : Reached m buf k i cur) :
    Reached .debug buf k i cur := by
  induction h with
  | start hstar hcount => exact .start hstar hcount
  | next _ hturn ih =>
      refine .next ih (Eq.trans ?_ hturn)
      exact (element_fits m _ fun hl => ih.fits hno hl).1.symm

/-- The positions only grow. -/
theorem Reached.forward (h : Reached m buf (k + 1) i cur)
    (hturn : element m buf i cur = .ok (.next data cur')) :
    cur < cur' ∧ cur' ≤ buf.length :=
  (element_fits m i fun hl => (h.debug hno).fits hno hl).2.2 hturn

theorem Reached.le_cur (h : Reached m buf k i cur) :
    i ≤ cur ∧ cur ≤ buf.length := by
  induction h with
  | start hstar hcount =>
      exact ⟨Nat.zero_le _, (header_count hcount).2.2⟩
  | next h hturn ih =>
      have hstep := h.forward hno hturn
      exact ⟨by omega, hstep.2⟩

theorem Reached.returns (h : Reached m buf k i cur)
    (verb : Option (List Char)) :
    ∃ r, elements m lossy buf i cur verb k = .ok r := by
  induction k generalizing i cur verb with
  | zero =>
      cases verb with
      | none => exact ⟨_, rfl⟩
      | some v => exact ⟨_, rfl⟩
  | succ k ih =>
      obtain ⟨-, ⟨r, hturn⟩, -⟩ :=
        element_fits m i fun hl => (h.debug hno).fits hno hl
      rw [elements, hturn, ok_bind]
      cases r with
      | incomplete => exact ⟨_, rfl⟩
      | invalid => exact ⟨_, rfl⟩
      | next data cur' => exact ih (.next h hturn) _

/-- Both builds parse the same. -/
theorem Reached.same (h : Reached .debug buf k i cur)
    (verb : Option (List Char)) :
    elements m lossy buf i cur verb k
      = elements .debug lossy buf i cur verb k := by
  induction k generalizing i cur verb with
  | zero => rfl
  | succ k ih =>
      have hsame := (element_fits m i fun hl => h.fits hno hl).1
      rw [elements, elements, hsame]
      cases hturn : element .debug buf i cur with
      | error p => rfl
      | ok r =>
          rw [ok_bind, ok_bind]
          cases r with
          | incomplete => rfl
          | invalid => rfl
          | next data cur' => exact ih (.next h hturn) _

theorem parseOne_same :
    parseOne m lossy buf = parseOne .debug lossy buf := by
  unfold parseOne
  cases hb : buf.head? with
  | none => rfl
  | some b =>
      dsimp only
      split
      · next hstar =>
        subst hstar
        unfold parseRespArray
        cases hcount : header buf with
        | error p => rfl
        | ok hd =>
            rw [ok_bind, ok_bind]
            cases hd with
            | missing => rfl
            | malformed => rfl
            | count argc cur => exact (Reached.start hb hcount).same hno none
      · rfl

omit hno

/-- The loop gets as far with more bytes. -/
theorem Reached.append (h : Reached m buf k i cur) (more : List Byte) :
    Reached m (buf ++ more) k i cur := by
  induction h with
  | start hstar hcount =>
      refine .start ?_ ?_
      · rw [List.head?_append, hstar]
        rfl
      · rw [header_append (by rw [hcount]; exact nofun), hcount]
  | next _ hturn ih =>
      refine .next ih (Eq.trans (element_append ?_ more) hturn)
      rw [hturn]
      exact nofun

/-- The first line has its `*`. -/
theorem header_returns (hstar : buf.head? = some 42) :
    ∃ hd, header buf = .ok hd := by
  unfold header
  cases hline : readCrlfLine buf 0 with
  | none => exact ⟨_, rfl⟩
  | some l =>
      obtain ⟨line, cur⟩ := l
      obtain ⟨idx, hidx, rfl, rfl, hle⟩ := readCrlfLine_some hline
      have hpos : 1 ≤ idx := by
        rw [List.drop_zero] at hidx
        rcases buf with _ | ⟨a, _ | ⟨b, rest⟩⟩
        · cases hstar
        · cases hidx
        · cases hstar
          rw [crlfAt, if_neg fun h => absurd h.1 (by decide),
            Option.map_eq_some_iff] at hidx
          obtain ⟨j, -, rfl⟩ := hidx
          omega
      have hlen : (slice 0 idx buf).length = idx := length_slice (by omega)
      dsimp only
      rw [sliced_within (by omega) le_rfl, ok_bind]
      split
      · exact ⟨_, rfl⟩
      · exact ⟨_, rfl⟩

theorem parseOne_returns (hno : ¬ Overflows buf) :
    ∃ r, parseOne m lossy buf = .ok r := by
  unfold parseOne
  cases hb : buf.head? with
  | none => exact ⟨_, rfl⟩
  | some b =>
      dsimp only
      split
      · next hstar =>
        subst hstar
        obtain ⟨hd, hcount⟩ := header_returns hb
        rw [parseRespArray, hcount, ok_bind]
        cases hd with
        | missing => exact ⟨_, rfl⟩
        | malformed => exact ⟨_, rfl⟩
        | count argc cur => exact (Reached.start hb hcount).returns hno none
      · exact ⟨_, rfl⟩

/-- In either build the parser returns, goes forward and takes what is
there, unless a length overflows. -/
theorem parser_robust_iff (lossy : List Byte → List Char)
    (buf : List Byte) : (∀ m, Robust m lossy buf) ↔ ¬ Overflows buf := by
  constructor
  · rintro h ⟨k, i, cur, a, b, hreached, hline, hle⟩
    obtain ⟨r, hr⟩ := (h .debug).returns
    obtain ⟨verb, hrun⟩ := hreached.run
    have hturn : element .debug buf i cur = .error .overflow := by
      rw [element, hline]
      exact bulk_debug hle
    rw [hrun, elements, hturn, error_bind] at hr
    cases hr
  · intro hno m
    exact ⟨parseOne_returns hno, fun h hturn => h.forward hno hturn,
      fun h => (h.le_cur hno).1.trans (h.le_cur hno).2,
      parseOne_consumes⟩

end Robust

/-- A length near the end of the machine's range panics in both builds,
and behind a first element it sends a release build back to where it was,
for as many turns as the client asks. -/
theorem hostile_length_panics :
    parseOne .debug (fun _ => []) (bytes "*1\r\n$18446744073709551614\r\n")
        = .error .overflow
      ∧ parseOne .release (fun _ => [])
          (bytes "*1\r\n$18446744073709551614\r\n") = .error .bounds
      ∧ (let buf := bytes ("*18446744073709551615\r\n$1\r\na\r\n"
          ++ "$18446744073709551591\r\n")
        element .release buf 1 30 = .ok (.next none 30)) := by
  decide +kernel

end Blackwall.Deception.Redis
