/-
The tokenizer of the configuration language
(`blackwall-config`: `lexer.rs`). A word is the list of its characters.
-/
import Blackwall.Base.Text

namespace Blackwall.Config

open Base

structure Line where
  number : Nat
  words : List (List Char)
  deriving DecidableEq, Repr

/-- The line up to its comment: a `#` at the start or behind white
space. -/
def stripComment (before : Option Char) : List Char → List Char
  | [] => []
  | c :: cs =>
      if c = '#' && before.all isWhitespace then []
      else c :: stripComment (some c) cs

/-- What a physical line says: whether it is continued, and its words. -/
def scanLine (raw : List Char) : Bool × List (List Char) :=
  let withoutComment := stripComment none raw
  let trimmed := trimEnd withoutComment
  let continues : Bool := trimmed.getLast? = some '\\'
  let content := if continues then trimmed.dropLast else withoutComment
  (continues, splitWhitespace content)

/-- `lex`'s variables. -/
structure LexState where
  out : List Line
  /-- The number of the first line and the words of an unfinished logical
  line. -/
  pending : Option (Nat × List (List Char))
  deriving DecidableEq, Repr

/-- The lines with the finished one, if it has words. -/
def emit (out : List Line) (number : Nat) (acc : List (List Char)) :
    List Line :=
  if acc.isEmpty then out else out ++ [⟨number, acc⟩]

/-- One turn of the loop: `raw` is the line of this index. -/
def lexLine (st : LexState) (raw : List Char × Nat) : LexState :=
  let (continues, words) := scanLine raw.1
  let (number, acc) : Nat × List (List Char) :=
    match st.pending with
    | some (number, acc) => (number, acc ++ words)
    | none => (raw.2 + 1, words)
  if continues then { st with pending := some (number, acc) }
  else { out := emit st.out number acc, pending := none }

/-- `lex`: a backslash on the final line has nothing to continue onto. -/
def lex (input : List Char) : List Line :=
  let st := (lines input).zipIdx.foldl lexLine ⟨[], none⟩
  match st.pending with
  | some (number, acc) => emit st.out number acc
  | none => st.out

end Blackwall.Config
