/-
What a session makes of a byte stream does not depend on the reads.

The loops together are one drain of the whole stream (`follow`). Before a
read the buffer holds less than a message, so it never holds more than
8192 bytes after one (`Ready`) and the limit of `READ_BUF_LIMIT` is never
met, whatever the peer sends.
-/
import Blackwall.Bgp.Framing

namespace Blackwall.Bgp

open Base

variable {cfg : PeerConfig} {writes : Writes} {ending : Ending}

-- ============================================================ the stream

/-- How a session stands that has drained all there is. -/
def settle (ending : Ending) :
    ReadPhase × List Byte ⊕ SessionOutcome → Standing
  | .inl (phase, buf) => finish ending phase buf
  | .inr outcome => .ended outcome

/-- The session over a stream as a whole, without reads: the messages it
takes up and how it stands. -/
def follow (cfg : PeerConfig) (writes : Writes) (ending : Ending)
    (bytes : List Byte) : List BgpMessage × Standing :=
  let d := drain bgpFramer (reactor cfg writes) .handshake bytes
  (d.1, settle ending d.2)

-- ============================================================ the buffer

/-- A connection about to read: what is buffered is no message yet, and
the vector has the capacity it started with or twice that. -/
structure Ready (c : Conn) : Prop where
  waits : nextFrame c.buf = .wait
  sized : c.cap = 4096 ∨ c.cap = 8192

theorem Ready.start : Ready .start :=
  ⟨rfl, .inl rfl⟩

theorem Ready.length_buf {c : Conn} (h : Ready c) : c.buf.length < 4096 := by
  obtain ⟨-, hlt⟩ | ⟨hne, -⟩ := nextFrame_cases c.buf
  · exact hlt
  · exact absurd h.waits hne

/-- The vector is never full before a read. -/
theorem Ready.offered_eq {c : Conn} (h : Ready c) : c.offered = c.cap := by
  have hlen := h.length_buf
  have hsized := h.sized
  unfold Conn.offered
  split
  · rw [if_neg (by omega)]
  · rfl

theorem Ready.room_pos {c : Conn} (h : Ready c) : 0 < c.room := by
  have hlen := h.length_buf
  have hsized := h.sized
  unfold Conn.room
  rw [h.offered_eq]
  split
  · omega
  · decide

/-- A read leaves at most 8192 bytes in the buffer. -/
theorem Ready.length_filled {c : Conn} (h : Ready c) {got : List Byte}
    (hgot : got.length ≤ c.room) : (c.filled got).buf.length ≤ 8192 := by
  have hlen := h.length_buf
  have hsized := h.sized
  rw [Conn.filled, List.length_append]
  unfold Conn.room at hgot
  rw [h.offered_eq] at hgot
  split at hgot
  · omega
  · unfold tmpLen at hgot
    omega

/-- A vector of 4096 bytes grows to 8192, and one of 8192 never has to. -/
theorem Ready.sized_filled {c : Conn} (h : Ready c) {got : List Byte}
    (hgot : got.length ≤ c.room) :
    (c.filled got).cap = 4096 ∨ (c.filled got).cap = 8192 := by
  have hfill := h.length_filled hgot
  rw [Conn.filled, List.length_append] at hfill
  show growTo c.offered _ = 4096 ∨ growTo c.offered _ = 8192
  rw [h.offered_eq, growTo]
  rcases h.sized with hcap | hcap
  · rw [hcap]
    split
    · exact .inl rfl
    · exact .inr (Nat.max_eq_left hfill)
  · rw [hcap, if_pos hfill]
    exact .inr rfl

/-- The next connection is ready again. -/
theorem Ready.drained {c : Conn} (h : Ready c) {got : List Byte}
    (hgot : got.length ≤ c.room) {ms : List BgpMessage}
    {phase : ReadPhase} {buf : List Byte}
    (hd : drain bgpFramer (reactor cfg writes) (c.filled got).phase
      (c.filled got).buf = (ms, .inl (phase, buf))) :
    Ready ⟨phase, buf, (c.filled got).cap⟩ :=
  ⟨drain_waits (congrArg Prod.snd hd), h.sized_filled hgot⟩

-- ============================================================== the reads

theorem flatten_segsAfter (room : Nat) (seg : List Byte)
    (segs : List (List Byte)) :
    (segsAfter room seg segs).flatten = seg.drop room ++ segs.flatten := by
  unfold segsAfter
  split
  · next h => rw [List.isEmpty_iff.mp h, List.nil_append]
  · rfl

theorem segsAfter_ne_nil {room : Nat} {seg : List Byte}
    {segs : List (List Byte)} (h : ∀ s ∈ segs, s ≠ []) :
    ∀ s ∈ segsAfter room seg segs, s ≠ [] := by
  unfold segsAfter
  split
  · exact h
  · next hne =>
    intro s hs
    rcases List.mem_cons.mp hs with rfl | hs
    · exact fun hnil => hne (List.isEmpty_iff.mpr hnil)
    · exact h s hs

section Pump

variable {c : Conn} {seg : List Byte} {ms : List BgpMessage}
  (hseg : seg ≠ [])
  (hlen : (c.filled (seg.take c.room)).buf.length ≤ 8192)
include hseg hlen

theorem pump_stop {o : SessionOutcome}
    (hd : drain bgpFramer (reactor cfg writes)
      (c.filled (seg.take c.room)).phase
      (c.filled (seg.take c.room)).buf = (ms, .inr o))
    (fuel : Nat) (segs : List (List Byte)) :
    pump cfg writes ending (fuel + 1) c (seg :: segs)
      = ⟨ms, [(c.filled (seg.take c.room)).buf.length], .ended o⟩ := by
  rw [pump, if_neg (by rw [List.isEmpty_iff]; exact hseg)]
  simp only [hd]
  exact if_neg (by unfold readBufLimit; omega)

theorem pump_go {phase : ReadPhase} {buf : List Byte}
    (hd : drain bgpFramer (reactor cfg writes)
      (c.filled (seg.take c.room)).phase
      (c.filled (seg.take c.room)).buf = (ms, .inl (phase, buf)))
    (fuel : Nat) (segs : List (List Byte)) :
    pump cfg writes ending (fuel + 1) c (seg :: segs)
      = ⟨ms ++ (pump cfg writes ending fuel
            ⟨phase, buf, (c.filled (seg.take c.room)).cap⟩
            (segsAfter c.room seg segs)).messages,
          (c.filled (seg.take c.room)).buf.length
            :: (pump cfg writes ending fuel
              ⟨phase, buf, (c.filled (seg.take c.room)).cap⟩
              (segsAfter c.room seg segs)).lengths,
          (pump cfg writes ending fuel
            ⟨phase, buf, (c.filled (seg.take c.room)).cap⟩
            (segsAfter c.room seg segs)).standing⟩ := by
  rw [pump, if_neg (by rw [List.isEmpty_iff]; exact hseg)]
  simp only [hd]
  exact if_neg (by unfold readBufLimit; omega)

end Pump

/-- From a connection that is ready, reading the rest in any pieces is
draining it at once. -/
theorem pump_eq (cfg : PeerConfig) (writes : Writes) (ending : Ending)
    {fuel : Nat} {c : Conn} {segs : List (List Byte)}
    (h : Ready c) (hne : ∀ s ∈ segs, s ≠ [])
    (hfuel : segs.flatten.length < fuel) :
    (pump cfg writes ending fuel c segs).messages
        = (drain bgpFramer (reactor cfg writes) c.phase
            (c.buf ++ segs.flatten)).1
      ∧ (pump cfg writes ending fuel c segs).standing
        = settle ending (drain bgpFramer (reactor cfg writes) c.phase
            (c.buf ++ segs.flatten)).2
      ∧ ∀ n ∈ (pump cfg writes ending fuel c segs).lengths, n ≤ 8192 := by
  induction fuel generalizing c segs with
  | zero => exact absurd hfuel (Nat.not_lt_zero _)
  | succ fuel ih =>
      cases segs with
      | nil =>
          have hwait : drain bgpFramer (reactor cfg writes) c.phase
              (c.buf ++ []) = ([], .inl (c.phase, c.buf)) := by
            rw [List.append_nil]
            exact drain_wait h.waits
          rw [List.flatten_nil, hwait]
          exact ⟨rfl, rfl, fun n hn => absurd hn List.not_mem_nil⟩
      | cons seg segs =>
          have hseg : seg ≠ [] := hne seg List.mem_cons_self
          have hroom := h.room_pos
          have hgot : (seg.take c.room).length ≤ c.room :=
            List.length_take_le _ _
          have hlen := h.length_filled hgot
          have hone : 0 < (seg.take c.room).length := by
            rw [List.length_take]
            have := List.length_pos_iff.mpr hseg
            omega
          have hstream : c.buf ++ (seg :: segs).flatten
              = (c.filled (seg.take c.room)).buf
                ++ (segsAfter c.room seg segs).flatten := by
            rw [flatten_segsAfter, List.flatten_cons]
            show _ = (c.buf ++ seg.take c.room) ++ _
            rw [List.append_assoc, ← List.append_assoc (seg.take _),
              List.take_append_drop]
          have hrest : (segsAfter c.room seg segs).flatten.length < fuel := by
            rw [flatten_segsAfter, List.length_append, List.length_drop]
            rw [List.flatten_cons, List.length_append] at hfuel
            rw [List.length_take] at hone
            omega
          rw [hstream, drain_append]
          rcases hd : drain bgpFramer (reactor cfg writes) c.phase
            (c.filled (seg.take c.room)).buf with ⟨ms, ⟨phase, buf⟩ | o⟩
          · obtain ⟨hms, hstand, hlens⟩ := ih (h.drained hgot hd)
              (segsAfter_ne_nil fun s hs =>
                hne s (List.mem_cons_of_mem seg hs)) hrest
            rw [pump_go hseg hlen hd]
            refine ⟨congrArg (ms ++ ·) hms, hstand, fun n hn => ?_⟩
            rcases List.mem_cons.mp hn with rfl | hn
            · exact hlen
            · exact hlens n hn
          · rw [pump_stop hseg hlen hd]
            refine ⟨rfl, rfl, fun n hn => ?_⟩
            rw [List.mem_singleton.mp hn]
            exact hlen

-- ================================================================= result

/-- Whatever the peer sends and however it is cut into reads of one byte
or more, the session takes up the same messages and stands the same, and
no read leaves more in the buffer than `READ_BUF_LIMIT`. -/
theorem framing_chunk_independent (cfg : PeerConfig) (writes : Writes)
    (ending : Ending) (bytes : List Byte) (segs : List (List Byte))
    (hsplit : segs.flatten = bytes) (hne : ∀ s ∈ segs, s ≠ []) :
    (session cfg writes ending segs).messages
        = (follow cfg writes ending bytes).1
      ∧ (session cfg writes ending segs).standing
        = (follow cfg writes ending bytes).2
      ∧ ∀ n ∈ (session cfg writes ending segs).lengths,
        n ≤ readBufLimit := by
  subst hsplit
  obtain ⟨hms, hstand, hlens⟩ :=
    pump_eq cfg writes ending Ready.start hne (Nat.lt_succ_self _)
  refine ⟨hms, hstand, fun n hn => ?_⟩
  exact Nat.le_trans (hlens n hn) (by decide)

/-- The OPEN of a peer that offers IPv4 unicast. -/
def unicastOpen : OpenMsg :=
  ⟨64512, 90, 0x0A000001, true, false, false, false⟩

/-- The peer's bytes, through all three loops: OPEN, KEEPALIVE, another
KEEPALIVE, and a NOTIFICATION that ends the session. -/
def peerStream : List Byte :=
  [encodeOpen unicastOpen, encodeKeepalive, encodeKeepalive,
    encodeNotification ⟨6, 2, []⟩].flatMap (·.getD [])

/-- They are cut in the marker of the OPEN, in the lengths of the two
KEEPALIVEs and in the marker of the NOTIFICATION. -/
def slicedStream : List (List Byte) :=
  [peerStream.take 7, (peerStream.drop 7).take 53,
    (peerStream.drop 60).take 19, (peerStream.drop 79).take 11,
    peerStream.drop 90]

theorem framing_chunk_independent_phases :
    (session ⟨64512, 64512, 1, 90⟩ ⟨none, fun _ => none⟩ .pending
        slicedStream).messages
      = [.open unicastOpen, .keepalive, .keepalive,
        .notification ⟨6, 2, []⟩]
      ∧ (session ⟨64512, 64512, 1, 90⟩ ⟨none, fun _ => none⟩ .pending
          slicedStream).standing
        = .ended
          (.reconnect "peer sent NOTIFICATION code=6 subcode=2") := by
  have h := framing_chunk_independent ⟨64512, 64512, 1, 90⟩
    ⟨none, fun _ => none⟩ .pending peerStream slicedStream
    (by decide +kernel) (by decide +kernel)
  exact ⟨h.1.trans (by decide +kernel), h.2.1.trans (by decide +kernel)⟩

end Blackwall.Bgp
