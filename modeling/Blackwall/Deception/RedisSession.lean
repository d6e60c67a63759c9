/-
A session of the Redis responder (`blackwall-deception`:
`emulators/redis.rs`, `handle`).

The client's bytes come in reads; after each the commands that are
complete are answered (`Base/Framing`), and a read of no bytes ends the
session. Reading and writing do not fail here. `written` is what the
client gets, `handled` the verbs that were answered.
-/
import Blackwall.Base.Framing
import Blackwall.Deception.Proofs.RedisParse

namespace Blackwall.Deception.Redis

open Base

-- ============================================================== commands

/-- Why the loop over the buffer gives up. -/
inductive Refusal
  | invalid
  | panic (p : Panic)
  deriving DecidableEq, Repr

/-- `parse_one`, and what is left after `drain(..consumed)`. -/
def nextCommand (m : Build) (lossy : List Byte → List Char)
    (total : List Byte) : Frame Byte (List Char) Refusal :=
  match parseOne m lossy total with
  | .ok (.command verb consumed) => .whole verb (total.drop consumed)
  | .ok .incomplete => .wait
  | .ok .invalid => .bad .invalid
  | .error p => .bad (.panic p)

section Framer

variable {m : Build} {lossy : List Byte → List Char} {buf : List Byte}

theorem nextCommand_whole {verb : List Char} {rest : List Byte}
    (h : nextCommand m lossy buf = .whole verb rest) :
    ∃ n, parseOne m lossy buf = .ok (.command verb n)
      ∧ rest = buf.drop n := by
  unfold nextCommand at h
  split at h
  · next v n hparse =>
    cases h
    exact ⟨n, hparse, rfl⟩
  · cases h
  · cases h
  · cases h

theorem nextCommand_panic {p : Panic}
    (h : nextCommand m lossy buf = .bad (.panic p)) :
    parseOne m lossy buf = .error p := by
  unfold nextCommand at h
  split at h
  · cases h
  · cases h
  · cases h
  · next p' hparse =>
    cases h
    exact hparse

theorem nextCommand_append (h : nextCommand m lossy buf ≠ .wait)
    (more : List Byte) :
    nextCommand m lossy (buf ++ more)
      = (nextCommand m lossy buf).extend more := by
  have hparse : parseOne m lossy buf ≠ .ok .incomplete := by
    intro hinc
    rw [nextCommand, hinc] at h
    exact h rfl
  unfold nextCommand
  rw [parseOne_append hparse]
  cases hr : parseOne m lossy buf with
  | error p => rfl
  | ok r =>
      cases r with
      | incomplete => rfl
      | invalid => rfl
      | command verb n =>
          have hle := (parseOne_consumes hr).2.2
          exact congrArg (Frame.whole verb)
            (List.drop_append_of_le_length hle)

/-- The commands of a buffer. -/
def redisFramer (m : Build) (lossy : List Byte → List Char) :
    Framer Byte (List Char) Refusal where
  next := nextCommand m lossy
  shorter := by
    intro buf verb rest h
    obtain ⟨n, hparse, rfl⟩ := nextCommand_whole h
    have hn := (parseOne_consumes hparse).2
    rw [List.length_drop]
    omega
  settled := fun more h => nextCommand_append h more

end Framer

-- =============================================================== sessions

/-- `handle`'s variables, and what it did to the client. -/
structure Session where
  bytesOut : Nat
  firstCmd : Option (List Char)
  written : List Byte
  handled : List (List Char)
  deriving DecidableEq, Repr

def Session.new : Session := ⟨0, none, [], []⟩

/-- Answer a command. -/
def Session.answer (version : String) (verb : List Char) (s : Session) :
    Session :=
  let reply := replyFor version verb
  { bytesOut := s.bytesOut + reply.length
    firstCmd := s.firstCmd.or (some verb)
    written := s.written ++ reply
    handled := s.handled ++ [verb] }

/-- How a session ends. -/
inductive Ending
  | quit
  | invalid
  | capped
  | eof
  deriving DecidableEq, Repr

inductive Closed
  | closed (s : Session) (e : Ending)
  | panicked (p : Panic)
  deriving DecidableEq, Repr

/-- The loop over the complete commands. -/
def reactor (version : String) :
    Reactor Session (List Char) Refusal Closed where
  react s verb :=
    let s' := s.answer version verb
    if upper verb = "QUIT" then .inr (.closed s' .quit) else .inl s'
  refuse s
    | .invalid => .closed s .invalid
    | .panic p => .panicked p

section Handle

variable (m : Build) (lossy : List Byte → List Char) (version : String)

/-- The loop over the reads: `bytes_in` and how the session ended. -/
def handleFrom (bytesIn : Nat) (s : Session) (total : List Byte) :
    List (List Byte) → Nat × Closed
  | [] => (bytesIn, .closed s .eof)
  | chunk :: chunks =>
      match (drain (redisFramer m lossy) (reactor version) s
          (total ++ chunk)).2 with
      | .inr o => (bytesIn + chunk.length, o)
      | .inl (s', total') =>
          if maxBytes < total'.length then
            (bytesIn + chunk.length, .closed s' .capped)
          else handleFrom (bytesIn + chunk.length) s' total' chunks

def handle (chunks : List (List Byte)) : Nat × Closed :=
  handleFrom m lossy version 0 .new [] chunks

end Handle

end Blackwall.Deception.Redis
