/-
Text as the string functions of the standard library cut it: into lines,
and into words between white space. A text is the list of its characters.
-/
import Mathlib.Data.List.DropRight

namespace Blackwall.Base

-- =========================================================== white space

/-- `char::is_whitespace`: the Unicode property `White_Space`. -/
def isWhitespace (c : Char) : Bool :=
  let n := c.toNat
  (0x9 ≤ n && n ≤ 0xD) || n = 0x20 || n = 0x85 || n = 0xA0 || n = 0x1680
    || (0x2000 ≤ n && n ≤ 0x200A) || n = 0x2028 || n = 0x2029
    || n = 0x202F || n = 0x205F || n = 0x3000

/-- `str::trim_end`. -/
def trimEnd (s : List Char) : List Char := s.rdropWhile isWhitespace

theorem trimEnd_append_space {s g : List Char}
    (hg : ∀ c ∈ g, isWhitespace c = true) : trimEnd (s ++ g) = trimEnd s := by
  have hrev : ∀ c ∈ g.reverse, isWhitespace c = true := fun c hc =>
    hg c (List.mem_reverse.mp hc)
  rw [trimEnd, trimEnd, List.rdropWhile, List.rdropWhile,
    List.reverse_append, List.dropWhile_append_of_pos hrev]

/-- Nothing to trim after a character that is no white space. -/
theorem trimEnd_concat {s : List Char} {c : Char}
    (hc : isWhitespace c = false) : trimEnd (s ++ [c]) = s ++ [c] :=
  List.rdropWhile_concat_neg _ _ _ (Bool.eq_false_iff.mp hc)

-- ================================================================= lines

/-- `str::split_inclusive`, with the piece read so far. -/
def splitInclusive (sep : Char) (piece : List Char) :
    List Char → List (List Char)
  | [] => if piece.isEmpty then [] else [piece]
  | c :: cs =>
      if c = sep then (piece ++ [c]) :: splitInclusive sep [] cs
      else splitInclusive sep (piece ++ [c]) cs

/-- A line without its line ending. -/
def lineBody (piece : List Char) : List Char :=
  if piece.getLast? = some '\n' then
    let line := piece.dropLast
    if line.getLast? = some '\r' then line.dropLast else line
  else piece

/-- `str::lines`. -/
def lines (s : List Char) : List (List Char) :=
  (splitInclusive '\n' [] s).map lineBody

theorem splitInclusive_sep {sep : Char} {s : List Char} (hs : sep ∉ s)
    (piece rest : List Char) :
    splitInclusive sep piece (s ++ sep :: rest)
      = (piece ++ s ++ [sep]) :: splitInclusive sep [] rest := by
  induction s generalizing piece with
  | nil => simp [splitInclusive]
  | cons c s ih =>
      rw [List.mem_cons, not_or] at hs
      rw [List.cons_append, splitInclusive, if_neg (Ne.symm hs.1), ih hs.2]
      simp

theorem splitInclusive_last {sep : Char} {s : List Char} (hs : sep ∉ s)
    (piece : List Char) :
    splitInclusive sep piece s
      = if (piece ++ s).isEmpty then [] else [piece ++ s] := by
  induction s generalizing piece with
  | nil => rw [splitInclusive, List.append_nil]
  | cons c s ih =>
      rw [List.mem_cons, not_or] at hs
      rw [splitInclusive, if_neg (Ne.symm hs.1), ih hs.2]
      simp

/-- The two line endings. -/
def newlines : List (List Char) := [['\n'], ['\r', '\n']]

/-- A line that is ended; with a bare line feed a carriage return before
it is taken for part of the ending. -/
theorem lines_newline {s e : List Char} (hs : '\n' ∉ s) (he : e ∈ newlines)
    (rest : List Char) :
    ∃ line, lines (s ++ e ++ rest) = line :: lines rest
      ∧ (line = s ∨ s = line ++ ['\r']) := by
  have hcut : ∀ {s : List Char}, '\n' ∉ s → lines (s ++ '\n' :: rest)
      = (if s.getLast? = some '\r' then s.dropLast else s)
        :: lines rest := by
    intro s hs
    rw [lines, splitInclusive_sep hs, List.map_cons]
    simp [lineBody, lines]
  rw [newlines, List.mem_pair] at he
  rcases he with rfl | rfl
  · rw [List.append_assoc, List.singleton_append, hcut hs]
    split
    · next hcr =>
      refine ⟨_, rfl, Or.inr ?_⟩
      exact (List.dropLast_append_getLast? '\r' hcr).symm
    · exact ⟨s, rfl, Or.inl rfl⟩
  · have hs' : '\n' ∉ s ++ ['\r'] := by simpa using hs
    have hsplit : s ++ ['\r', '\n'] ++ rest
        = (s ++ ['\r']) ++ '\n' :: rest := by simp
    rw [hsplit, hcut hs']
    refine ⟨s, ?_, Or.inl rfl⟩
    simp

/-- The last line need not be ended. -/
theorem lines_last {s : List Char} (hs : '\n' ∉ s) :
    lines s = if s.isEmpty then [] else [s] := by
  rw [lines, splitInclusive_last hs, List.nil_append]
  have hlast : s.getLast? ≠ some '\n' := fun h =>
    hs (List.mem_of_getLast? h)
  split
  · rfl
  · rw [List.map_singleton, lineBody, if_neg hlast]

-- ================================================================= words

/-- `str::split_whitespace`, with the word read so far. -/
def wordsFrom (word : List Char) : List Char → List (List Char)
  | [] => if word.isEmpty then [] else [word]
  | c :: cs =>
      if isWhitespace c then
        if word.isEmpty then wordsFrom [] cs else word :: wordsFrom [] cs
      else wordsFrom (word ++ [c]) cs

def splitWhitespace (s : List Char) : List (List Char) := wordsFrom [] s

theorem splitWhitespace_space_append {g : List Char}
    (hg : ∀ c ∈ g, isWhitespace c = true) (s : List Char) :
    splitWhitespace (g ++ s) = splitWhitespace s := by
  induction g with
  | nil => rfl
  | cons c g ih =>
      rw [List.forall_mem_cons] at hg
      rw [← ih hg.2, List.cons_append, splitWhitespace, wordsFrom,
        if_pos hg.1]
      rfl

theorem wordsFrom_append_space {g : List Char}
    (hg : ∀ c ∈ g, isWhitespace c = true) (word s : List Char) :
    wordsFrom word (s ++ g) = wordsFrom word s := by
  induction s generalizing word with
  | nil =>
      cases g with
      | nil => rfl
      | cons c g =>
          rw [List.forall_mem_cons] at hg
          have hrest : wordsFrom [] g = [] := by
            have := splitWhitespace_space_append hg.2 []
            rw [List.append_nil] at this
            exact this
          rw [List.nil_append, wordsFrom, wordsFrom, if_pos hg.1, hrest]
  | cons c s ih =>
      rw [List.cons_append, wordsFrom, wordsFrom, ih, ih]

theorem splitWhitespace_append_space {g : List Char}
    (hg : ∀ c ∈ g, isWhitespace c = true) (s : List Char) :
    splitWhitespace (s ++ g) = splitWhitespace s :=
  wordsFrom_append_space hg [] s

theorem wordsFrom_word {w : List Char}
    (hw : ∀ c ∈ w, isWhitespace c = false) (word s : List Char) :
    wordsFrom word (w ++ s) = wordsFrom (word ++ w) s := by
  induction w generalizing word with
  | nil => rw [List.nil_append, List.append_nil]
  | cons c w ih =>
      rw [List.forall_mem_cons] at hw
      rw [List.cons_append, wordsFrom, hw.1, if_neg Bool.false_ne_true,
        ih hw.2, List.append_assoc, List.singleton_append]

theorem splitWhitespace_word {w g : List Char} (hne : w ≠ [])
    (hw : ∀ c ∈ w, isWhitespace c = false) (hgap : g ≠ [])
    (hg : ∀ c ∈ g, isWhitespace c = true) (s : List Char) :
    splitWhitespace (w ++ g ++ s) = w :: splitWhitespace s := by
  cases g with
  | nil => exact absurd rfl hgap
  | cons c g =>
      rw [List.forall_mem_cons] at hg
      have hempty : w.isEmpty = false := by simpa using hne
      rw [List.append_assoc, splitWhitespace, wordsFrom_word hw,
        List.nil_append, List.cons_append, wordsFrom, if_pos hg.1, hempty,
        if_neg Bool.false_ne_true]
      exact congrArg (w :: ·) (splitWhitespace_space_append hg.2 s)

theorem ne_nil_of_mem_wordsFrom {w word s : List Char}
    (h : w ∈ wordsFrom word s) : w ≠ [] := by
  induction s generalizing word with
  | nil =>
      rw [wordsFrom] at h
      split at h
      · cases h
      · next hne =>
        rw [List.mem_singleton] at h
        rw [h]
        exact mt List.isEmpty_iff.mpr hne
  | cons c s ih =>
      rw [wordsFrom] at h
      split at h
      · split at h
        · exact ih h
        · next hne =>
          rcases List.mem_cons.mp h with rfl | h
          · exact mt List.isEmpty_iff.mpr hne
          · exact ih h
      · exact ih h

theorem ne_nil_of_mem_splitWhitespace {w s : List Char}
    (h : w ∈ splitWhitespace s) : w ≠ [] :=
  ne_nil_of_mem_wordsFrom h

theorem splitWhitespace_last {w : List Char} (hne : w ≠ [])
    (hw : ∀ c ∈ w, isWhitespace c = false) : splitWhitespace w = [w] := by
  have hempty : w.isEmpty = false := by simpa using hne
  have hread := wordsFrom_word hw [] []
  rw [List.append_nil, List.nil_append, wordsFrom, hempty,
    if_neg Bool.false_ne_true] at hread
  exact hread

end Blackwall.Base
