/-
The session as a reader of bytes (`session_once`,
`await_peer_confirmation` and `established_loop` of
`blackwall-bgp/src/session_net.rs`).

The three loops share the buffer `buf`. Each takes whole messages off its
front while it can (`nextFrame` is what they all do there) and then reads
more: the first two into an array of 4096 bytes, the third into the spare
capacity of the vector. Between them the session writes; how a write ends
does not depend on what was read, so it is a parameter (`Writes`). The
timers and the command arm do not touch the buffer and are left out.

A socket is what the peer sent, in segments; a read returns the front of
the first segment, as much of it as there is room for.
-/
import Blackwall.Base.Framing
import Blackwall.Bgp.Session

namespace Blackwall.Bgp

open Base

-- ================================================================= frames

/-- A front with a good header: the message is there or not. -/
def frameBody (buf : List Byte) (total : Nat) :
    Frame Byte BgpMessage BgpError :=
  if buf.length < total then .wait
  else
    match decodeMessage (buf.take total) with
    | .error e => .bad e
    | .ok (msg, _) => .whole msg (buf.drop total)

/-- The common front of the three inner loops. -/
def nextFrame (buf : List Byte) : Frame Byte BgpMessage BgpError :=
  if buf.length < headerLen then .wait
  else
    match parseHeader buf with
    | .error e => .bad e
    | .ok (_, total) => frameBody buf total

theorem parseHeader_append {buf : List Byte} (h : headerLen ≤ buf.length)
    (more : List Byte) : parseHeader (buf ++ more) = parseHeader buf := by
  unfold headerLen at h
  obtain ⟨hi, lo, type, tail, hdrop⟩ :
      ∃ hi lo type tail, buf.drop 16 = hi :: lo :: type :: tail := by
    have hlen : 3 ≤ (buf.drop 16).length := by
      rw [List.length_drop]
      omega
    generalize buf.drop 16 = front at hlen
    rcases front with _ | ⟨hi, _ | ⟨lo, _ | ⟨type, tail⟩⟩⟩
    · exact absurd hlen (by simp)
    · exact absurd hlen (by simp)
    · exact absurd hlen (by simp)
    · exact ⟨hi, lo, type, tail, rfl⟩
  rw [parseHeader, parseHeader, List.drop_append_of_le_length (by omega),
    List.take_append_of_le_length (by omega), hdrop]
  rfl

theorem parseHeader_bounds {buf : List Byte} {type : Byte} {total : Nat}
    (h : parseHeader buf = .ok (type, total)) :
    headerLen ≤ total ∧ total ≤ maxMessageLen := by
  unfold parseHeader at h
  split at h
  · split at h
    · cases h
    · simp only at h
      split at h
      · next hb =>
        cases h
        exact hb
      · cases h
  · cases h

theorem nextFrame_bad {buf : List Byte} {e : BgpError}
    (h : headerLen ≤ buf.length) (hp : parseHeader buf = .error e) :
    nextFrame buf = .bad e := by
  rw [nextFrame, if_neg (Nat.not_lt.mpr h), hp]

theorem nextFrame_ok {buf : List Byte} {type : Byte} {total : Nat}
    (h : headerLen ≤ buf.length)
    (hp : parseHeader buf = .ok (type, total)) :
    nextFrame buf = frameBody buf total := by
  rw [nextFrame, if_neg (Nat.not_lt.mpr h), hp]

theorem frameBody_append {buf : List Byte} {total : Nat}
    (h : total ≤ buf.length) (more : List Byte) :
    frameBody (buf ++ more) total = (frameBody buf total).extend more := by
  rw [frameBody, frameBody, if_neg (by rw [List.length_append]; omega),
    if_neg (by omega), List.take_append_of_le_length h,
    List.drop_append_of_le_length h]
  cases decodeMessage (buf.take total) <;> rfl

theorem frameBody_ne_wait {buf : List Byte} {total : Nat}
    (h : total ≤ buf.length) : frameBody buf total ≠ .wait := by
  rw [frameBody, if_neg (by omega)]
  cases decodeMessage (buf.take total) <;> exact nofun

/-- A front that waits is shorter than a message may be; another is not
changed by what follows. -/
theorem nextFrame_cases (buf : List Byte) :
    (nextFrame buf = .wait ∧ buf.length < maxMessageLen)
      ∨ nextFrame buf ≠ .wait
        ∧ ∀ more, nextFrame (buf ++ more) = (nextFrame buf).extend more := by
  by_cases hlen : buf.length < headerLen
  · exact .inl ⟨if_pos hlen, Nat.lt_of_lt_of_le hlen (by decide)⟩
  have hlen' : headerLen ≤ buf.length := Nat.not_lt.mp hlen
  have hmore : ∀ more : List Byte, headerLen ≤ (buf ++ more).length := by
    intro more
    rw [List.length_append]
    omega
  cases hp : parseHeader buf with
  | error e =>
      right
      rw [nextFrame_bad hlen' hp]
      refine ⟨nofun, fun more => ?_⟩
      rw [nextFrame_bad (hmore more) (parseHeader_append hlen' more ▸ hp)]
      rfl
  | ok r =>
      obtain ⟨type, total⟩ := r
      rw [nextFrame_ok hlen' hp]
      by_cases htotal : buf.length < total
      · exact .inl ⟨if_pos htotal,
          Nat.lt_of_lt_of_le htotal (parseHeader_bounds hp).2⟩
      · right
        refine ⟨frameBody_ne_wait (Nat.not_lt.mp htotal), fun more => ?_⟩
        rw [nextFrame_ok (hmore more) (parseHeader_append hlen' more ▸ hp),
          frameBody_append (Nat.not_lt.mp htotal)]

theorem nextFrame_shorter {buf rest : List Byte} {msg : BgpMessage}
    (h : nextFrame buf = .whole msg rest) : rest.length < buf.length := by
  by_cases hlen : buf.length < headerLen
  · rw [nextFrame, if_pos hlen] at h
    cases h
  have hlen' : headerLen ≤ buf.length := Nat.not_lt.mp hlen
  cases hp : parseHeader buf with
  | error e =>
      rw [nextFrame_bad hlen' hp] at h
      cases h
  | ok r =>
      obtain ⟨type, total⟩ := r
      have hb := (parseHeader_bounds hp).1
      rw [nextFrame_ok hlen' hp, frameBody] at h
      unfold headerLen at hb hlen'
      split at h
      · cases h
      · split at h
        · cases h
        · cases h
          rw [List.length_drop]
          omega

/-- The framer of the three loops. -/
def bgpFramer : Framer Byte BgpMessage BgpError where
  next := nextFrame
  shorter := nextFrame_shorter
  settled := by
    intro buf more h
    obtain ⟨hw, -⟩ | ⟨-, hs⟩ := nextFrame_cases buf
    · exact absurd hw h
    · exact hs more

-- ================================================================= phases

/-- Which loop the session is in. -/
inductive ReadPhase
  | handshake
  | confirming (peer : OpenMsg)
  | established (peer : OpenMsg)
  deriving DecidableEq, Repr

/-- How the writes between the loops end: the error, if there is one, of
the KEEPALIVE after the OPEN and of the re-announcement. -/
structure Writes where
  keepalive : Option String
  reannounce : OpenMsg → Option String

/-- A message in a phase. -/
def reactMessage (cfg : PeerConfig) (writes : Writes) (phase : ReadPhase)
    (msg : BgpMessage) : ReadPhase ⊕ SessionOutcome :=
  match phase with
  | .handshake =>
      match handshakeMessage msg with
      | .stay => .inl .handshake
      | .fail text => .inr (.reconnect text)
      | .next o =>
          match refusal cfg o with
          | some (text, _) => .inr (.reconnect text)
          | none =>
              match writes.keepalive with
              | some e =>
                  .inr (.reconnect ("send post-open KEEPALIVE failed: " ++ e))
              | none => .inl (.confirming o)
  | .confirming o =>
      match confirmMessage msg with
      | .stay => .inl (.confirming o)
      | .fail text => .inr (.reconnect text)
      | .next () =>
          match writes.reannounce o with
          | some text => .inr (.reconnect text)
          | none => .inl (.established o)
  | .established o =>
      match establishedMessage msg with
      | .fail text => .inr (.reconnect text)
      | _ => .inl (.established o)

/-- Bytes that are no message, in a phase. -/
def refuseBytes (phase : ReadPhase) (e : BgpError) : SessionOutcome :=
  match phase with
  | .handshake =>
      .reconnect ("decode error during handshake: " ++ e.display)
  | .confirming _ =>
      .reconnect ("decode error awaiting OpenConfirm: " ++ e.display)
  | .established _ => .reconnect ("frame decode error: " ++ e.display)

/-- The inner loops. -/
def reactor (cfg : PeerConfig) (writes : Writes) :
    Reactor ReadPhase BgpMessage BgpError SessionOutcome where
  react := reactMessage cfg writes
  refuse := refuseBytes

-- ================================================================== reads

def readBufLimit : Nat := 65536

/-- The size of `tmp`. -/
def tmpLen : Nat := 4096

/-- How a vector of this capacity grows to hold `needed` bytes. -/
def growTo (cap needed : Nat) : Nat :=
  if needed ≤ cap then cap else max (2 * cap) needed

/-- The phase and the vector `buf`, with its capacity. -/
structure Conn where
  phase : ReadPhase
  buf : List Byte
  cap : Nat

/-- After the connect. -/
def Conn.start : Conn := ⟨.handshake, [], 4096⟩

/-- The capacity a read finds; a full vector reserves 64 bytes first. -/
def Conn.offered (c : Conn) : Nat :=
  match c.phase with
  | .established _ =>
      if c.buf.length = c.cap then growTo c.cap (c.cap + 64) else c.cap
  | _ => c.cap

/-- How many bytes a read takes at most. -/
def Conn.room (c : Conn) : Nat :=
  match c.phase with
  | .established _ => c.offered - c.buf.length
  | _ => tmpLen

/-- A read that returned these bytes. -/
def Conn.filled (c : Conn) (got : List Byte) : Conn :=
  { c with
    buf := c.buf ++ got
    cap := growTo c.offered (c.buf.length + got.length) }

/-- The text for a buffer over the limit. -/
def overflowText : ReadPhase → String
  | .handshake => "read buffer overflow"
  | .confirming _ => "read buffer overflow awaiting OpenConfirm"
  | .established _ => "read buffer overflow"

/-- What comes after the last byte: nothing yet, the end, or an error. -/
inductive Ending
  | pending
  | closed
  | failed (e : String)

/-- How the session stands: waiting in a phase with bytes left over, or
ended. -/
inductive Standing
  | waiting (phase : ReadPhase) (buf : List Byte)
  | ended (outcome : SessionOutcome)
  deriving DecidableEq, Repr

/-- A read of zero bytes. -/
def closedText : ReadPhase → String
  | .handshake => "peer closed connection during handshake"
  | .confirming _ => "peer closed connection awaiting OpenConfirm"
  | .established _ => "peer closed connection"

/-- A read that fails. -/
def readErrorText : ReadPhase → String → String
  | .handshake, e => "read error during handshake: " ++ e
  | .confirming _, e => "read error awaiting OpenConfirm: " ++ e
  | .established _, e => "socket read error: " ++ e

/-- A read after the last byte. -/
def finish (ending : Ending) (phase : ReadPhase) (buf : List Byte) :
    Standing :=
  match ending with
  | .pending => .waiting phase buf
  | .closed => .ended (.reconnect (closedText phase))
  | .failed e => .ended (.reconnect (readErrorText phase e))

/-- What became of a session: the messages it took up, the length of the
buffer after each read, and how it stands. -/
structure Reading where
  messages : List BgpMessage
  lengths : List Nat
  standing : Standing

/-- The segments after a read of the first. -/
def segsAfter (room : Nat) (seg : List Byte) (segs : List (List Byte)) :
    List (List Byte) :=
  if (seg.drop room).isEmpty then segs else seg.drop room :: segs

/-- Read and drain until the session ends or the bytes do. -/
def pump (cfg : PeerConfig) (writes : Writes) (ending : Ending) :
    Nat → Conn → List (List Byte) → Reading
  | 0, c, _ => ⟨[], [], .waiting c.phase c.buf⟩
  | _ + 1, c, [] => ⟨[], [], finish ending c.phase c.buf⟩
  | fuel + 1, c, seg :: segs =>
      if seg.isEmpty then
        ⟨[], [], .ended (.reconnect (closedText c.phase))⟩
      else
        let c' := c.filled (seg.take c.room)
        if readBufLimit < c'.buf.length then
          ⟨[], [c'.buf.length],
            .ended (.reconnect (overflowText c.phase))⟩
        else
          match drain bgpFramer (reactor cfg writes) c'.phase c'.buf with
          | (ms, .inr outcome) => ⟨ms, [c'.buf.length], .ended outcome⟩
          | (ms, .inl (phase, buf)) =>
              let r := pump cfg writes ending fuel ⟨phase, buf, c'.cap⟩
                (segsAfter c.room seg segs)
              ⟨ms ++ r.messages, c'.buf.length :: r.lengths, r.standing⟩

/-- A session over these segments. Every read takes a byte at least. -/
def session (cfg : PeerConfig) (writes : Writes) (ending : Ending)
    (segs : List (List Byte)) : Reading :=
  pump cfg writes ending (segs.flatten.length + 1) .start segs

end Blackwall.Bgp
