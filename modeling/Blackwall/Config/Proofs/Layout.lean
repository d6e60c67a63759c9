/-
Every layout of a configuration is lexed to the same lines.

`Layout k ls text` says that `text` lays out the logical lines `ls` from
physical line `k` on: with any white space around the words, comments,
continued lines, blank lines between the logical ones and either line
ending. It is the relation the lexer inverts (`lex_layout`).
-/
import Blackwall.Config.Lexer

namespace Blackwall.Config

open Base

-- ================================================================ layouts

/-- White space within a line. -/
def Gap (g : List Char) : Prop :=
  ∀ c ∈ g, isWhitespace c = true ∧ c ≠ '\n'

/-- What a layout can be made of. -/
structure Word (w : List Char) : Prop where
  ne : w ≠ []
  solid : ∀ c ∈ w, isWhitespace c = false
  start : w.head? ≠ some '#'
  stop : w.getLast? ≠ some '\\'

/-- What can follow the content of a line: space, and a comment. -/
inductive Remark : List Char → Prop
  | space {g : List Char} (hg : Gap g) : Remark g
  | comment {g text : List Char} (hg : Gap g) (hne : g ≠ [])
      (htext : '\n' ∉ text) : Remark (g ++ '#' :: text)

/-- A line without words: here a comment needs no space. -/
inductive Blank : List Char → Prop
  | space {g : List Char} (hg : Gap g) : Blank g
  | comment {g text : List Char} (hg : Gap g) (htext : '\n' ∉ text) :
      Blank (g ++ '#' :: text)

/-- Words on one physical line. -/
inductive Row : List (List Char) → List Char → Prop
  | last {w : List Char} (hw : Word w) : Row [w] w
  | cons {w g t : List Char} {ws : List (List Char)} (hw : Word w)
      (hg : Gap g) (hne : g ≠ []) (ht : Row ws t) :
      Row (w :: ws) (w ++ g ++ t)

/-- The words of a logical line, over `n` line ends. -/
inductive Laid : List (List Char) → Nat → List Char → Prop
  | row {ws : List (List Char)} {t : List Char} (ht : Row ws t) :
      Laid ws 0 t
  | continued {ws ws' : List (List Char)} {t g r e g' t' : List Char}
      {n : Nat} (ht : Row ws t) (hg : Gap g) (hr : Remark r)
      (he : e ∈ newlines) (hg' : Gap g') (h : Laid ws' n t') :
      Laid (ws ++ ws') (n + 1) (t ++ g ++ '\\' :: r ++ e ++ (g' ++ t'))
  /-- A continued line may have no words of its own. -/
  | skipped {ws : List (List Char)} {r e g t : List Char} {n : Nat}
      (hr : Remark r) (he : e ∈ newlines) (hg : Gap g) (h : Laid ws n t) :
      Laid ws (n + 1) ('\\' :: r ++ e ++ (g ++ t))

/-- The end of a physical line and the text after it: a line ending, or
the end of the text. -/
inductive Ends : List Char → List Char → Prop
  | newline {e : List Char} (he : e ∈ newlines) (rest : List Char) :
      Ends (e ++ rest) rest
  | eof : Ends [] []

/-- The text lays out these lines, from physical line `k` on. -/
inductive Layout : Nat → List Line → List Char → Prop
  | done {k : Nat} : Layout k [] []
  | blank {k : Nat} {ls : List Line} {b x rest : List Char}
      (hb : Blank b) (hx : Ends x rest) (h : Layout (k + 1) ls rest) :
      Layout k ls (b ++ x)
  | line {k n : Nat} {ls : List Line} {ws : List (List Char)}
      {g t r x rest : List Char} (hg : Gap g) (ht : Laid ws n t)
      (hr : Remark r) (hx : Ends x rest)
      (h : Layout (k + n + 1) ls rest) :
      Layout k (⟨k, ws⟩ :: ls) (g ++ t ++ r ++ x)

-- =============================================================== comments

section Comments

/-- No comment starts in this piece of a line, whatever comes before. -/
def Quiet (c : List Char) : Prop :=
  ∀ before x, stripComment before (c ++ x)
    = c ++ stripComment (c.getLast?.or before) x

variable {g c c' w : List Char}

theorem Quiet.append (hc : Quiet c) (hc' : Quiet c') : Quiet (c ++ c') := by
  intro before x
  rw [List.append_assoc, hc, hc', List.append_assoc, List.getLast?_append,
    Option.or_assoc]

theorem quiet_singleton {a : Char} (ha : a ≠ '#') : Quiet [a] := by
  intro before x
  simp [stripComment, ha]

theorem Gap.space (hg : Gap g) : ∀ c ∈ g, isWhitespace c = true :=
  fun c hc => (hg c hc).1

theorem Gap.line (hg : Gap g) : '\n' ∉ g := fun h => (hg _ h).2 rfl

theorem Gap.quiet (hg : Gap g) : Quiet g := by
  induction g with
  | nil => exact fun before x => rfl
  | cons a g ih =>
      rw [Gap, List.forall_mem_cons] at hg
      have ha : a ≠ '#' := by
        rintro rfl
        exact absurd hg.1.1 (by decide)
      exact (quiet_singleton ha).append (ih hg.2)

/-- Behind a character of a word a `#` is one too. -/
theorem stripComment_solid (hw : ∀ c ∈ w, isWhitespace c = false) {a : Char}
    (ha : isWhitespace a = false) (x : List Char) :
    stripComment (some a) (w ++ x)
      = w ++ stripComment (w.getLast?.or (some a)) x := by
  induction w generalizing a with
  | nil => rfl
  | cons c w ih =>
      rw [List.forall_mem_cons] at hw
      have hlast : (c :: w).getLast?.or (some a)
          = w.getLast?.or (some c) := by
        cases w with
        | nil => rfl
        | cons d w => simp [List.getLast?_cons]
      rw [List.cons_append, stripComment, ih hw.2 hw.1, hlast]
      simp [ha]

theorem Word.quiet (hw : Word w) : Quiet w := by
  cases w with
  | nil => exact absurd rfl hw.ne
  | cons c w =>
      have hstart : c ≠ '#' := fun h => hw.start (congrArg some h)
      have hsolid := hw.solid
      rw [List.forall_mem_cons] at hsolid
      intro before x
      have hlast : (c :: w).getLast?.or before
          = w.getLast?.or (some c) := by
        cases w with
        | nil => rfl
        | cons d w => simp [List.getLast?_cons]
      rw [List.cons_append, stripComment,
        stripComment_solid hsolid.2 hsolid.1, hlast]
      simp [hstart]

theorem Row.quiet {ws : List (List Char)} {t : List Char} (h : Row ws t) :
    Quiet t := by
  induction h with
  | last hw => exact hw.quiet
  | cons hw hg _ _ ih => exact (hw.quiet.append hg.quiet).append ih

/-- Without its comment, space is left of what follows the content. -/
theorem stripComment_remark {r : List Char} (hc : Quiet c)
    (hr : Remark r) :
    ∃ g, Gap g ∧ stripComment none (c ++ r) = c ++ g := by
  rw [hc]
  cases hr with
  | space hg =>
      refine ⟨r, hg, congrArg (c ++ ·) ?_⟩
      have := hg.quiet (c.getLast?.or none) []
      rw [List.append_nil] at this
      rw [this, stripComment, List.append_nil]
  | @comment g text hg hne htext =>
      refine ⟨g, hg, congrArg (c ++ ·) ?_⟩
      obtain ⟨a, ha⟩ : ∃ a, g.getLast? = some a := by
        rw [← Option.isSome_iff_exists, List.getLast?_isSome]
        exact hne
      have hspace := hg.space a (List.mem_of_getLast? ha)
      rw [hg.quiet, ha, stripComment]
      simp [hspace]

theorem stripComment_blank {b : List Char} (hb : Blank b) :
    Gap (stripComment none b) := by
  cases hb with
  | space hg =>
      have := hg.quiet none []
      rw [List.append_nil, stripComment, List.append_nil] at this
      rw [this]
      exact hg
  | @comment g text hg htext =>
      rw [hg.quiet, stripComment]
      have hbefore : (g.getLast?.or none).all isWhitespace = true := by
        cases ha : g.getLast? with
        | none => rfl
        | some a => exact hg.space a (List.mem_of_getLast? ha)
      rw [hbefore]
      simpa using hg

end Comments

-- ========================================================= physical lines

section Scan

variable {s raw c t r : List Char} {ws : List (List Char)}

theorem scanLine_plain (h : stripComment none raw = s)
    (hstop : (trimEnd s).getLast? ≠ some '\\') :
    scanLine raw = (false, splitWhitespace s) := by
  simp [scanLine, h, hstop]

theorem scanLine_backslash (h : trimEnd (stripComment none raw) = s ++ ['\\']) :
    scanLine raw = (true, splitWhitespace s) := by
  simp [scanLine, h]

theorem stripComment_cr (before : Option Char) (s : List Char) :
    stripComment before (s ++ ['\r']) = stripComment before s
      ∨ stripComment before (s ++ ['\r']) = stripComment before s ++ ['\r'] := by
  induction s generalizing before with
  | nil => exact Or.inr (by simp [stripComment])
  | cons c s ih =>
      rw [List.cons_append, stripComment, stripComment]
      split
      · exact Or.inl rfl
      · rcases ih (some c) with h | h
        · exact Or.inl (congrArg (c :: ·) h)
        · exact Or.inr (congrArg (c :: ·) h)

/-- A carriage return at the end says nothing. -/
theorem scanLine_cr (s : List Char) : scanLine (s ++ ['\r']) = scanLine s := by
  have hcr : ∀ a ∈ ['\r'], isWhitespace a = true :=
    List.forall_mem_singleton.mpr (by decide)
  rcases stripComment_cr none s with h | h
  · rw [scanLine, h, scanLine]
  · rw [scanLine, h, scanLine, trimEnd_append_space hcr]
    split
    · rfl
    · rw [splitWhitespace_append_space hcr]

theorem scanLine_continued (hc : Quiet c) (hr : Remark r) :
    scanLine (c ++ '\\' :: r) = (true, splitWhitespace c) := by
  have hquiet : Quiet (c ++ ['\\']) := hc.append (quiet_singleton (by decide))
  obtain ⟨g, hg, hstrip⟩ := stripComment_remark hquiet hr
  have hsplit : c ++ '\\' :: r = c ++ ['\\'] ++ r := by simp
  rw [hsplit]
  refine scanLine_backslash ?_
  rw [hstrip, trimEnd_append_space hg.space, trimEnd_concat (by decide)]

theorem Row.words (h : Row ws t) : splitWhitespace t = ws := by
  induction h with
  | last hw => exact splitWhitespace_last hw.ne hw.solid
  | cons hw hg hne _ ih =>
      rw [splitWhitespace_word hw.ne hw.solid hne hg.space, ih]

/-- A row ends as its last word does. -/
theorem Row.stop (h : Row ws t) :
    ∃ t' a, t = t' ++ [a] ∧ isWhitespace a = false ∧ a ≠ '\\' := by
  induction h with
  | @last w hw =>
      obtain ⟨t', a, rfl⟩ := (List.eq_nil_or_concat' w).resolve_left hw.ne
      refine ⟨t', a, rfl, hw.solid a (by simp), fun ha => hw.stop ?_⟩
      rw [List.getLast?_concat, ha]
  | cons _ _ _ _ ih =>
      obtain ⟨t', a, rfl, ha⟩ := ih
      exact ⟨_, a, (List.append_assoc _ _ _).symm, ha⟩

theorem Row.words_ne (h : Row ws t) : ws ≠ [] := by
  cases h <;> exact List.cons_ne_nil _ _

theorem Row.ne (h : Row ws t) : t ≠ [] := by
  obtain ⟨t', a, rfl, -⟩ := h.stop
  simp

/-- The last line of a logical line. -/
theorem scanLine_row {g : List Char} (hg : Gap g) (h : Row ws t)
    (hr : Remark r) : scanLine (g ++ t ++ r) = (false, ws) := by
  obtain ⟨g', hg', hstrip⟩ :=
    stripComment_remark (hg.quiet.append h.quiet) hr
  obtain ⟨t', a, rfl, hspace, hback⟩ := h.stop
  have htrim : trimEnd (g ++ (t' ++ [a]) ++ g') = g ++ t' ++ [a] := by
    rw [trimEnd_append_space hg'.space, ← List.append_assoc,
      trimEnd_concat hspace]
  rw [scanLine_plain hstrip]
  · rw [splitWhitespace_append_space hg'.space,
      splitWhitespace_space_append hg.space, h.words]
  · rw [htrim, List.getLast?_concat]
    exact fun h => hback (Option.some.inj h)

theorem scanLine_blank {b : List Char} (hb : Blank b) :
    scanLine b = (false, []) := by
  have hg := stripComment_blank hb
  have htrim := @trimEnd_append_space [] _ hg.space
  have hwords := splitWhitespace_append_space hg.space []
  rw [List.nil_append] at htrim hwords
  rw [scanLine_plain rfl, hwords]
  · rfl
  · rw [htrim]
    exact nofun

end Scan

-- ================================================================== lines

section OneLine

variable {r b t : List Char} {ws : List (List Char)}

theorem Word.line {w : List Char} (hw : Word w) : '\n' ∉ w := fun h =>
  absurd (hw.solid _ h) (by decide)

theorem Row.line (h : Row ws t) : '\n' ∉ t := by
  induction h with
  | last hw => exact hw.line
  | cons hw hg _ _ ih => simp [hw.line, hg.line, ih]

theorem Remark.line (h : Remark r) : '\n' ∉ r := by
  cases h with
  | space hg => exact hg.line
  | comment hg _ htext => simp [hg.line, htext]

theorem Blank.line (h : Blank b) : '\n' ∉ b := by
  cases h with
  | space hg => exact hg.line
  | comment hg htext => simp [hg.line, htext]

end OneLine

-- ============================================================== the lexer

section Feed

variable {k n : Nat} {st : LexState} {s x rest : List Char}
  {ws : List (List Char)}

/-- The lexer on the rest of a text, at a physical line. -/
def feed (k : Nat) (st : LexState) (s : List Char) : LexState :=
  ((lines s).zipIdx k).foldl lexLine st

/-- The logical line a physical line belongs to. -/
def begun (st : LexState) (k : Nat) : Nat × List (List Char) :=
  st.pending.getD (k + 1, [])

theorem Ends.at_eof (h : Ends x rest) (hx : x = []) : rest = [] := by
  cases h with
  | newline he => exact (List.append_eq_nil_iff.mp hx).2
  | eof => rfl

theorem lexLine_continued (h : scanLine s = (true, ws)) :
    lexLine st (s, k)
      = { st with
          pending := some ((begun st k).1, (begun st k).2 ++ ws) } := by
  obtain ⟨out, pending⟩ := st
  cases pending <;> simp [lexLine, h, begun]

theorem lexLine_finished (h : scanLine s = (false, ws)) :
    lexLine st (s, k)
      = { out := emit st.out (begun st k).1 ((begun st k).2 ++ ws)
          pending := none } := by
  obtain ⟨out, pending⟩ := st
  cases pending <;> simp [lexLine, h, begun]

/-- A physical line is one turn of the loop. -/
theorem feed_line (hs : '\n' ∉ s) (hx : Ends x rest) (hne : s ++ x ≠ []) :
    feed k st (s ++ x) = feed (k + 1) (lexLine st (s, k)) rest := by
  cases hx with
  | newline he =>
      obtain ⟨line, hlines, hline⟩ := lines_newline hs he rest
      have hscan : scanLine line = scanLine s := by
        rcases hline with rfl | rfl
        · rfl
        · exact (scanLine_cr line).symm
      have hstep : lexLine st (line, k) = lexLine st (s, k) := by
        simp only [lexLine, hscan]
      rw [feed, ← List.append_assoc, hlines, List.zipIdx_cons,
        List.foldl_cons, hstep, feed]
  | eof =>
      rw [List.append_nil] at hne
      rw [feed, List.append_nil, lines_last hs,
        if_neg (mt List.isEmpty_iff.mp hne)]
      rfl

/-- A line without words does nothing between logical lines. -/
theorem feed_blank {b : List Char} (hb : Blank b) (hx : Ends x rest)
    (hst : st.pending = none) :
    feed k st (b ++ x) = feed (k + 1) st rest := by
  have hstep : lexLine st (b, k) = st := by
    obtain ⟨out, pending⟩ := st
    cases hst
    rw [lexLine_finished (scanLine_blank hb)]
    rfl
  by_cases hne : b ++ x = []
  · obtain ⟨rfl, rfl⟩ := List.append_eq_nil_iff.mp hne
    rw [hx.at_eof rfl]
    rfl
  · rw [feed_line hb.line hx hne, hstep]

/-- A logical line, from any of its physical lines on. -/
theorem feed_laid {t g r : List Char} (h : Laid ws n t) (hg : Gap g)
    (hr : Remark r) (hx : Ends x rest) :
    feed k st (g ++ t ++ r ++ x)
      = feed (k + n + 1)
          ⟨st.out ++ [⟨(begun st k).1, (begun st k).2 ++ ws⟩], none⟩
          rest := by
  induction h generalizing g k st with
  | @row ws t ht =>
      have hline : '\n' ∉ g ++ t ++ r := by
        simp [hg.line, ht.line, hr.line]
      have hwords : (begun st k).2 ++ ws ≠ [] := by
        simp [ht.words_ne]
      rw [feed_line hline hx (by simp [ht.ne]),
        lexLine_finished (scanLine_row hg ht hr), emit,
        if_neg (mt List.isEmpty_iff.mp hwords), Nat.add_zero]
  | @continued ws ws' t g₁ r₁ e g' t' n ht hg₁ hr₁ he hg' _ ih =>
      have hline : '\n' ∉ g ++ t ++ g₁ ++ '\\' :: r₁ := by
        simp [hg.line, ht.line, hg₁.line, hr₁.line]
      have hscan : scanLine (g ++ t ++ g₁ ++ '\\' :: r₁) = (true, ws) := by
        rw [scanLine_continued
            ((hg.quiet.append ht.quiet).append hg₁.quiet) hr₁,
          splitWhitespace_append_space hg₁.space,
          splitWhitespace_space_append hg.space, ht.words]
      have hsplit : g ++ (t ++ g₁ ++ '\\' :: r₁ ++ e ++ (g' ++ t')) ++ r ++ x
          = (g ++ t ++ g₁ ++ '\\' :: r₁) ++ (e ++ (g' ++ t' ++ r ++ x)) := by
        simp
      rw [hsplit, feed_line hline (.newline he _) (by simp),
        lexLine_continued hscan, ih hg',
        show k + 1 + n + 1 = k + (n + 1) + 1 by omega]
      simp [begun]
  | @skipped ws r₁ e g' t' n hr₁ he hg' _ ih =>
      have hline : '\n' ∉ g ++ '\\' :: r₁ := by simp [hg.line, hr₁.line]
      have hscan : scanLine (g ++ '\\' :: r₁) = (true, []) := by
        have hwords := splitWhitespace_append_space hg.space []
        rw [List.nil_append] at hwords
        rw [scanLine_continued hg.quiet hr₁, hwords]
        rfl
      have hsplit : g ++ ('\\' :: r₁ ++ e ++ (g' ++ t')) ++ r ++ x
          = (g ++ '\\' :: r₁) ++ (e ++ (g' ++ t' ++ r ++ x)) := by
        simp
      rw [hsplit, feed_line hline (.newline he _) (by simp),
        lexLine_continued hscan, ih hg',
        show k + 1 + n + 1 = k + (n + 1) + 1 by omega]
      simp [begun]

/-- The lexer reads off the lines of a layout. -/
theorem feed_layout {ls : List Line} (h : Layout k ls s) {j : Nat}
    (hj : k = j + 1) (out : List Line) :
    feed j ⟨out, none⟩ s = ⟨out ++ ls, none⟩ := by
  induction h generalizing j out with
  | done =>
      rw [List.append_nil]
      rfl
  | blank hb hx _ ih =>
      rw [feed_blank hb hx rfl]
      exact ih (by omega) out
  | line hg ht hr hx _ ih =>
      rw [feed_laid ht hg hr hx, ih (by omega)]
      subst hj
      simp [begun]

/-- A text is lexed to what its lines leave behind. -/
theorem lex_of_feed {ls : List Line} (h : feed 0 ⟨[], none⟩ s = ⟨ls, none⟩) :
    lex s = ls := by
  rw [feed] at h
  rw [lex, h]

end Feed

/-- Every layout of some lines is lexed to these lines, each with the
number of its first physical line. -/
theorem lex_layout {ls : List Line} {text : List Char}
    (h : Layout 1 ls text) : lex text = ls :=
  lex_of_feed (feed_layout h rfl [])

theorem solid_of_all {w : List Char}
    (h : (w.all (!isWhitespace ·)) = true) :
    ∀ c ∈ w, isWhitespace c = false :=
  fun c hc => Bool.not_eq_true' _ ▸ List.all_eq_true.mp h c hc

theorem gap_of_all {g : List Char}
    (h : (g.all fun c => isWhitespace c && c != '\n') = true) : Gap g := by
  intro c hc
  have hc' := List.all_eq_true.mp h c hc
  exact ⟨(Bool.and_eq_true_iff.mp hc').1,
    bne_iff_ne.mp (Bool.and_eq_true_iff.mp hc').2⟩

/-- A comment line, and a logical line of two physical ones. -/
def sampleText : List Char :=
  "# addresses\ntenant  acme \\ # continued\r\n\towns#1 ".toList

theorem lex_layout_sample :
    lex sampleText
      = [⟨2, ["tenant".toList, "acme".toList, "owns#1".toList]⟩] := by
  have word : ∀ w ∈ ["tenant".toList, "acme".toList, "owns#1".toList],
      Word w := fun w hw =>
    ⟨(by decide : ∀ w ∈ _, w ≠ []) w hw,
      solid_of_all
        ((by decide : ∀ w ∈ _, (w.all (!isWhitespace ·)) = true) w hw),
      (by decide : ∀ w ∈ _, w.head? ≠ some '#') w hw,
      (by decide : ∀ w ∈ _, w.getLast? ≠ some '\\') w hw⟩
  have gap : ∀ g ∈ [[], " ".toList, "  ".toList, "\t".toList], Gap g :=
    fun g hg => gap_of_all
      ((by decide : ∀ g ∈ _,
        (g.all fun c => isWhitespace c && c != '\n') = true) g hg)
  have row : Row ["tenant".toList, "acme".toList]
      ("tenant".toList ++ "  ".toList ++ "acme".toList) :=
    .cons (word _ (by decide)) (gap _ (by decide)) (by decide)
      (.last (word _ (by decide)))
  have laid : Laid ["tenant".toList, "acme".toList, "owns#1".toList] 1 _ :=
    .continued row (gap " ".toList (by decide))
      (.comment (gap " ".toList (by decide)) (by decide)
        (by decide : '\n' ∉ " continued".toList))
      (by decide : "\r\n".toList ∈ newlines)
      (gap "\t".toList (by decide))
      (.row (.last (word "owns#1".toList (by decide))))
  exact lex_layout
    (.blank (.comment (gap [] (by decide))
        (by decide : '\n' ∉ " addresses".toList))
      (.newline (by decide : "\n".toList ∈ newlines) _)
      (.line (gap [] (by decide)) laid (.space (gap " ".toList (by decide)))
        .eof .done))

-- ======================================================== a plain layout

/-- Words that need no care: printable ASCII, without a comment or a
backslash. -/
def Plain (w : List Char) : Prop :=
  w ≠ [] ∧ ∀ c ∈ w, 0x20 < c.toNat ∧ c.toNat < 0x7F ∧ c ≠ '#' ∧ c ≠ '\\'

-- By the list: all characters are too many to try.
instance (w : List Char) : Decidable (Plain w) :=
  @instDecidableAnd _ _ _ (List.decidableBAll _ w)

/-- A line for each list of words, with a space between two of them. -/
def plainText (rows : List (List (List Char))) : List Char :=
  rows.flatMap fun ws => [' '].intercalate ws ++ ['\n']

/-- The lines of such a text from line `k` on. -/
def numbered (k : Nat) : List (List (List Char)) → List Line
  | [] => []
  | ws :: rows => ⟨k, ws⟩ :: numbered (k + 1) rows

theorem Plain.word {w : List Char} (h : Plain w) : Word w where
  ne := h.1
  solid c hc := by
    obtain ⟨hlow, hhigh, -⟩ := h.2 c hc
    simp only [isWhitespace, Bool.or_eq_false_iff, Bool.and_eq_false_iff,
      decide_eq_false_iff_not]
    omega
  start hs := (h.2 _ (List.mem_of_head? hs)).2.2.1 rfl
  stop hs := (h.2 _ (List.mem_of_getLast? hs)).2.2.2 rfl

theorem gap_nil : Gap [] := fun _ h => absurd h List.not_mem_nil

theorem gap_space : Gap [' '] := fun c hc => by
  rw [List.mem_singleton.mp hc]
  decide

theorem row_plain {ws : List (List Char)} (hne : ws ≠ [])
    (h : ∀ w ∈ ws, Plain w) : Row ws ([' '].intercalate ws) := by
  induction ws with
  | nil => exact absurd rfl hne
  | cons w ws ih =>
      have hw : Word w := (h w List.mem_cons_self).word
      cases ws with
      | nil =>
          rw [List.intercalate_singleton]
          exact .last hw
      | cons w' ws =>
          rw [List.intercalate_cons_cons]
          exact .cons hw gap_space (by simp)
            (ih (by simp) fun v hv => h v (.tail _ hv))

theorem layout_plain {k : Nat} {rows : List (List (List Char))}
    (h : ∀ ws ∈ rows, ws ≠ [] ∧ ∀ w ∈ ws, Plain w) :
    Layout k (numbered k rows) (plainText rows) := by
  induction rows generalizing k with
  | nil => exact .done
  | cons ws rows ih =>
      obtain ⟨hne, hplain⟩ := h ws List.mem_cons_self
      have hline := Layout.line (k := k) gap_nil (.row (row_plain hne hplain))
        (.space gap_nil) (.newline (by decide : ['\n'] ∈ newlines) _)
        (ih fun ws' hws => h ws' (.tail _ hws))
      simpa [plainText, numbered] using hline

theorem lex_plain {rows : List (List (List Char))}
    (h : ∀ ws ∈ rows, ws ≠ [] ∧ ∀ w ∈ ws, Plain w) :
    lex (plainText rows) = numbered 1 rows :=
  lex_of_feed (feed_layout (layout_plain h) rfl [])

end Blackwall.Config
