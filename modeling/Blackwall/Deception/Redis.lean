/-
The Redis responder (`blackwall-deception`: `emulators/redis.rs`).

The parser looks at the front of the bytes received so far. Positions are
`usize`, so the sums of a position and a length the client chose are those
of the build (`Base/Usize`); a position that is found in the buffer is at
most its length, and computing it cannot overflow. A string is the list
of its characters; how bytes are decoded (`from_utf8_lossy`) is an
argument. A number is read from ASCII digits only, so that decoding it
first adds no case.
-/
import Blackwall.Base.Text
import Blackwall.Base.Usize

namespace Blackwall.Deception.Redis

open Base

def maxBytes : Nat := 16 * 1024

/-- The bytes of a text. -/
def bytes (s : String) : List Byte :=
  s.toUTF8.toList.map fun b => b.toBitVec

-- =============================================================== replies

/-- `to_ascii_uppercase`. -/
def upper (command : List Char) : String :=
  String.ofList (command.map Char.toUpper)

def replyFor (version : String) (command : List Char) : List Byte :=
  match upper command with
  | "PING" => bytes "+PONG\r\n"
  | "INFO" =>
      let body := "# Server\r\nredis_version:" ++ version ++ "\r\n"
      bytes ("$" ++ toString body.utf8ByteSize ++ "\r\n" ++ body ++ "\r\n")
  | "COMMAND" => bytes "+OK\r\n"
  | "CLIENT" => bytes "+OK\r\n"
  | "AUTH" => bytes "+OK\r\n"
  | "SELECT" => bytes "+OK\r\n"
  | "HELLO" => bytes "+OK\r\n"
  | "QUIT" => bytes "+OK\r\n"
  | _ => bytes "-ERR unknown command\r\n"

-- ================================================================ parsing

inductive Parsed
  | command (verb : List Char) (consumed : Nat)
  | incomplete
  | invalid
  deriving DecidableEq, Repr

/-- The position of the first CRLF. -/
def crlfAt : List Byte → Option Nat
  | a :: b :: rest =>
      if a = 13 ∧ b = 10 then some 0
      else (crlfAt (b :: rest)).map (· + 1)
  | _ => none

def readCrlfLine (buf : List Byte) (start : Nat) :
    Option (List Byte × Nat) :=
  if start ≤ buf.length then
    (crlfAt (buf.drop start)).map fun idx =>
      (slice start idx buf, start + idx + 2)
  else none

/-- `parse::<usize>` on the bytes of a text. -/
def parseUsize (s : List Byte) : Option Nat :=
  let digits := if s.head? = some 43 then s.drop 1 else s
  if digits.isEmpty then none
  else if digits.all fun d => 48 ≤ d && d ≤ 57 then
    let n := digits.foldl (fun n d => 10 * n + (d.toNat - 48)) 0
    if n < 2 ^ 64 then some n else none
  else none

/-- The line before an element. -/
inductive LengthLine
  | missing
  | malformed
  | length (afterLen blen : Nat)
  deriving DecidableEq, Repr

def lengthLine (buf : List Byte) (cur : Nat) : LengthLine :=
  match readCrlfLine buf cur with
  | none => .missing
  | some (line, afterLen) =>
      if line.head? ≠ some 36 then .malformed
      else
        match parseUsize (line.drop 1) with
        | none => .malformed
        | some blen => .length afterLen blen

/-- What one turn of `parse_resp_array`'s loop does: go on behind the
element, with the data of the first one, or return. -/
inductive Element
  | next (data : Option (List Byte)) (cur : Nat)
  | incomplete
  | invalid
  deriving DecidableEq, Repr

/-- The data of an element from `afterLen`, and the CRLF from `dataEnd` to
`cur`. -/
def bulkAt (buf : List Byte) (i afterLen dataEnd cur : Nat) :
    Except Panic Element :=
  if buf.length < cur then .ok .incomplete
  else do
    let tail ← sliced buf dataEnd cur
    if tail ≠ [13, 10] then .ok .invalid
    else if i = 0 then
      let data ← sliced buf afterLen dataEnd
      .ok (.next (some data) cur)
    else .ok (.next none cur)

/-- The element of a length line. -/
def bulk (m : Build) (buf : List Byte) (i afterLen blen : Nat) :
    Except Panic Element := do
  let dataEnd ← m.add afterLen blen
  let cur ← m.add dataEnd 2
  bulkAt buf i afterLen dataEnd cur

/-- One turn of the loop. -/
def element (m : Build) (buf : List Byte) (i cur : Nat) :
    Except Panic Element :=
  match lengthLine buf cur with
  | .missing => .ok .incomplete
  | .malformed => .ok .invalid
  | .length afterLen blen => bulk m buf i afterLen blen

section Parse

variable (m : Build) (lossy : List Byte → List Char) (buf : List Byte)

/-- The loop, with the number of elements still to come. -/
def elements (i cur : Nat) (verb : Option (List Char)) :
    Nat → Except Panic Parsed
  | 0 =>
      match verb with
      | some v => .ok (if v.isEmpty then .invalid else .command v cur)
      | none => .ok .invalid
  | k + 1 => do
      match ← element m buf i cur with
      | .incomplete => return .incomplete
      | .invalid => return .invalid
      | .next data cur' => elements (i + 1) cur' ((data.map lossy).or verb) k

/-- The first line, as far as the loop. -/
inductive Header
  | missing
  | malformed
  | count (argc cur : Nat)
  deriving DecidableEq, Repr

def header : Except Panic Header :=
  match readCrlfLine buf 0 with
  | none => .ok .missing
  | some (line, cur) => do
      match parseUsize (← sliced line 1 line.length) with
      | none => return .malformed
      | some argc => return if argc = 0 then .malformed else .count argc cur

def parseRespArray : Except Panic Parsed := do
  match ← header buf with
  | .missing => return .incomplete
  | .malformed => return .invalid
  | .count argc cur => elements m lossy buf 0 cur none argc

def parseInline : Parsed :=
  match buf.findIdx? (· = 10) with
  | none => .incomplete
  | some nl =>
      match (splitWhitespace (lossy (buf.take nl))).head? with
      | some word => .command word (nl + 1)
      | none => .invalid

def parseOne : Except Panic Parsed :=
  match buf.head? with
  | none => .ok .incomplete
  | some b =>
      if b = 42 then parseRespArray m lossy buf
      else .ok (parseInline lossy buf)

end Parse

end Blackwall.Deception.Redis
