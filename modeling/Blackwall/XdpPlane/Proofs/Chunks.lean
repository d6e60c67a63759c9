/-
Who holds the chunks of the shared memory.

The abstract view of the socket and its kernel is a set of places and
the chunks each holds (`Socket.held`). Every event passes at most one
chunk on, between two places of one side (`step_passes`), so each side
always holds the chunks it was given and no place holds another's chunk.
Two facts about the code make a step a pass: the fill ring has room for
a chunk that comes back, since its side has as many chunks as the ring
has slots, and a rounded address is the chunk it came from.
-/
import Blackwall.Base.Custody
import Blackwall.XdpPlane.AfXdp

namespace Blackwall.XdpPlane.AfXdp

open Base

-- ============================================================= the places

inductive Side
  | rx
  | tx
  deriving DecidableEq

/-- Where a chunk can be. `recvOne` and `send` are the running call's own
hands. -/
inductive Place
  | fill
  | kernelRx
  | rx
  | recvOne
  | txFree
  | tx
  | kernelTx
  | completion
  | send
  deriving DecidableEq

instance : Fintype Place where
  elems := {.fill, .kernelRx, .rx, .recvOne, .txFree, .tx, .kernelTx,
    .completion, .send}
  complete p := by cases p <;> decide

def Place.side : Place → Side
  | .fill | .kernelRx | .rx | .recvOne => .rx
  | .txFree | .tx | .kernelTx | .completion | .send => .tx

/-- The places that are not a running call's. -/
def Place.lasting : Place → Bool
  | .recvOne | .send => false
  | _ => true

/-- The chunks each side was given. -/
def Side.chunks : Side → List Nat
  | .rx => (List.range ringSize).map (· * frameSize)
  | .tx => (List.range' txFrameBase (frameCount - txFrameBase)).map
      (· * frameSize)

/-- The chunk `recv_one` has to give back. -/
@[simp] def Phase.received : Phase → List Nat
  | .refilling _ offset => [offset]
  | _ => []

/-- The chunk `send` has taken from the pool. -/
@[simp] def Phase.sending : Phase → List Nat
  | .writing _ offset => [offset]
  | .queueing _ offset => [offset]
  | _ => []

/-- The entries of the completion ring that are read and not released. -/
@[simp] def Phase.reaped : Phase → Nat
  | .reaping _ _ done => done
  | _ => 0

/-- The frame a running `send` still has to copy. -/
@[simp] def Phase.frame : Phase → List Byte
  | .reaping frame _ _ => frame
  | .popping frame => frame
  | .writing frame _ => frame
  | _ => []

@[simp] def Socket.held (s : Socket) : Places Place Nat
  | .fill => s.fill
  | .kernelRx => s.kernelRx
  | .rx => s.rx.map fun desc => chunk desc.addr
  | .recvOne => s.phase.received
  | .txFree => s.txFree
  | .tx => s.tx.map XdpDesc.addr
  | .kernelTx => s.kernelTx
  | .completion => s.completion.drop s.phase.reaped
  | .send => s.phase.sending

/-- The running call has read no further than the completion ring goes,
and copies no more than a chunk. -/
structure Sound (s : Socket) : Prop where
  reaped : s.phase.reaped ≤ s.completion.length
  fits : s.phase.frame.length ≤ frameSize

/-- What every event keeps. -/
structure Kept (s : Socket) : Prop extends Sound s where
  total : ∀ x, s.held.total Place.side x = x.chunks

-- ============================================================= the chunks

theorem mem_chunks {x : Side} {c : Nat} :
    c ∈ x.chunks ↔ ∃ i < frameCount, c = i * frameSize
      ∧ (x = .rx ↔ i < txFrameBase) := by
  cases x with
  | rx =>
      simp only [Side.chunks, List.mem_map, List.mem_range, true_iff]
      constructor
      · rintro ⟨i, hi, rfl⟩
        exact ⟨i, lt_trans hi (by decide), rfl, hi⟩
      · rintro ⟨i, -, rfl, hi⟩
        exact ⟨i, hi, rfl⟩
  | tx =>
      simp only [Side.chunks, List.mem_map, List.mem_range'_1,
        reduceCtorEq, false_iff, not_lt]
      constructor
      · rintro ⟨i, ⟨hlo, hi⟩, rfl⟩
        exact ⟨i, hi, rfl, hlo⟩
      · rintro ⟨i, hi, rfl, hlo⟩
        exact ⟨i, ⟨hlo, hi⟩, rfl⟩

theorem nodup_chunks (x : Side) : x.chunks.Nodup := by
  have hinj : Function.Injective (· * frameSize) := fun i j h =>
    Nat.eq_of_mul_eq_mul_right (by decide) h
  cases x with
  | rx => exact List.nodup_range.map hinj
  | tx => exact List.Nodup.map hinj List.nodup_range'

theorem chunk_of_mem {x : Side} {c : Nat} (hc : c ∈ x.chunks) :
    chunk c = c := by
  obtain ⟨i, -, rfl, -⟩ := mem_chunks.mp hc
  rw [chunk, Nat.mul_mod_left, Nat.sub_zero]

/-- The sides were given different chunks. -/
theorem side_eq {x y : Side} {c : Nat} (hx : c ∈ x.chunks)
    (hy : c ∈ y.chunks) : x = y := by
  obtain ⟨i, -, rfl, hi⟩ := mem_chunks.mp hx
  obtain ⟨j, -, hij, hj⟩ := mem_chunks.mp hy
  obtain rfl := Nat.eq_of_mul_eq_mul_right (by decide) hij
  have hrx := hi.trans hj.symm
  cases x <;> cases y <;> simp_all

section Held

variable {s : Socket} (hk : Kept s)

include hk

theorem Kept.mem {p : Place} {c : Nat} (hc : c ∈ s.held p) :
    c ∈ p.side.chunks := by
  have hmem := s.held.mem_total Place.side hc
  rw [hk.total] at hmem
  exact hmem

theorem Kept.nodup (x : Side) : (s.held.total Place.side x).Nodup := by
  rw [hk.total]
  exact nodup_chunks x

/-- No chunk is in two places. -/
theorem Kept.place_eq {p q : Place} {c : Nat} (hp : c ∈ s.held p)
    (hq : c ∈ s.held q) : q = p := by
  have hside : q.side = p.side := side_eq (hk.mem hq) (hk.mem hp)
  by_contra hne
  exact s.held.notMem_of_mem (hk.nodup p.side) hp hne hside hq

theorem Kept.aligned {p : Place} {c : Nat} (hc : c ∈ s.held p) :
    chunk c = c :=
  chunk_of_mem (hk.mem hc)

/-- A chunk in `recv_one`'s hands has its slot in the fill ring. -/
theorem Kept.room {out : List Byte} {offset : Nat}
    (hphase : s.phase = .refilling out offset) :
    s.fill.length < ringSize := by
  have hle := s.held.pair_le_total Place.side (p := .fill)
    (q := .recvOne) (by decide) rfl
  rw [hk.total] at hle
  have hcard := Multiset.card_le_card hle
  rw [Multiset.card_add, Socket.held, Socket.held, hphase] at hcard
  exact hcard

end Held

-- ========================================================== the socket

section Steps

variable {s : Socket}

theorem reading_passes (hphase : s.phase = .reading) :
    Passes Place.side s.held (advance s).held := by
  cases hrx : s.rx with
  | nil =>
      refine .stay fun r => ?_
      cases r <;> simp [advance, hphase, hrx]
  | cons desc rest =>
      refine .pass .rx .recvOne (chunk desc.addr) rfl fun r => ?_
      cases r <;> simp [advance, hphase, hrx, coe_cons_eq]

/-- Its chunk goes back to the fill ring, which has room for it. -/
theorem refilling_passes {out : List Byte} {offset : Nat} (hk : Kept s)
    (hphase : s.phase = .refilling out offset) :
    Passes Place.side s.held (advance s).held := by
  have hroom := hk.room hphase
  refine .pass .recvOne .fill offset rfl fun r => ?_
  cases r <;> simp [advance, hphase, insertOnce, hroom, coe_concat]

/-- A completed chunk goes back to the pool; after the last one the ring
is released, and nothing moves. -/
theorem reaping_passes {frame : List Byte} {left done : Nat}
    (hk : Kept s) (hphase : s.phase = .reaping frame left done) :
    Passes Place.side s.held (advance s).held := by
  cases left with
  | zero =>
      refine .stay fun r => ?_
      cases r <;> simp [advance, hphase]
  | succ left =>
      cases hnext : s.completion[done]? with
      | none =>
          refine .stay fun r => ?_
          cases r <;> simp [advance, hphase, hnext]
      | some addr =>
          have hdrop := coe_drop hnext
          have hmem : addr ∈ s.held .completion := by
            simp [hphase, hdrop]
          have haddr := hk.aligned hmem
          refine .pass .completion .txFree addr rfl fun r => ?_
          cases r <;> simp [advance, hphase, hnext, haddr, coe_concat,
            hdrop]

/-- A chunk is taken from the pool, if there is one. -/
theorem popping_passes {frame : List Byte}
    (hphase : s.phase = .popping frame) :
    Passes Place.side s.held (advance s).held := by
  cases hlast : s.txFree.getLast? with
  | none =>
      refine .stay fun r => ?_
      cases r <;> simp [advance, hphase, hlast]
  | some offset =>
      have hpop := coe_dropLast hlast
      refine .pass .txFree .send offset rfl fun r => ?_
      cases r <;> simp [advance, hphase, hlast, hpop]

/-- It is queued, or handed back when the TX ring is full. -/
theorem queueing_passes {len offset : Nat}
    (hphase : s.phase = .queueing len offset) :
    Passes Place.side s.held (advance s).held := by
  by_cases hroom : s.tx.length < ringSize
  · refine .pass .send .tx offset rfl fun r => ?_
    cases r <;> simp [advance, hphase, insertOnce, hroom, coe_concat]
  · refine .pass .send .txFree offset rfl fun r => ?_
    cases r <;> simp [advance, hphase, insertOnce, hroom, coe_concat]

theorem advance_passes (hk : Kept s) :
    Passes Place.side s.held (advance s).held := by
  cases hphase : s.phase with
  | idle => exact .stay fun r => by simp only [advance, hphase]
  | reading => exact reading_passes hphase
  | refilling out offset => exact refilling_passes hk hphase
  | reaping frame left done => exact reaping_passes hk hphase
  | popping frame => exact popping_passes hphase
  | writing frame offset =>
      refine .stay fun r => ?_
      cases r <;> simp [advance, hphase]
  | queueing len offset => exact queueing_passes hphase

-- ========================================================== the kernel

theorem kernel_passes (hk : Kept s) (k : KernelStep) :
    Passes Place.side s.held (kernel k s).held := by
  cases k with
  | takeFill =>
      cases hfill : s.fill with
      | nil => exact .stay fun r => by simp only [kernel, hfill]
      | cons addr fill =>
          refine .pass .fill .kernelRx addr rfl fun r => ?_
          cases r <;> simp [kernel, hfill, coe_concat, coe_cons_eq]
  | receive which addr data =>
      cases htaken : s.kernelRx[which]? with
      | none => exact .stay fun r => by simp only [kernel, htaken]
      | some taken =>
          by_cases hok : chunk addr = chunk taken ∧ s.rx.length < ringSize
          · have hmem : taken ∈ s.held .kernelRx :=
              List.mem_of_getElem? htaken
            have herase := coe_eraseIdx htaken
            -- the descriptor's address is rounded to the chunk taken
            have htaken' := hk.aligned hmem
            refine .pass .kernelRx .rx taken rfl fun r => ?_
            cases r <;> simp [kernel, htaken, hok.1, hok.2, coe_concat,
              herase, htaken']
          · exact .stay fun r => by simp only [kernel, htaken, if_neg hok]
  | takeTx =>
      cases htx : s.tx with
      | nil => exact .stay fun r => by simp only [kernel, htx]
      | cons desc tx =>
          refine .pass .tx .kernelTx desc.addr rfl fun r => ?_
          cases r <;> simp [kernel, htx, coe_concat, coe_cons_eq]
  | complete which =>
      cases htaken : s.kernelTx[which]? with
      | none => exact .stay fun r => by simp only [kernel, htaken]
      | some addr =>
          by_cases hroom : s.completion.length < ringSize
          · have herase := coe_eraseIdx htaken
            refine .pass .kernelTx .completion addr rfl fun r => ?_
            cases r <;> simp [kernel, htaken, hroom, coe_concat, herase,
              List.drop_append_of_le_length hk.reaped, -Phase.reaped]
          · exact .stay fun r => by
              simp only [kernel, htaken, if_neg hroom]

-- ============================================================== events

theorem startRecv_held (poll : Except String Unit) (h : s.phase = .idle)
    (r : Place) : (startRecv poll s).held r = s.held r := by
  cases poll <;> cases r <;> simp [startRecv, h]

theorem startSend_held (frame : List Byte) (h : s.phase = .idle)
    (r : Place) : (startSend frame s).held r = s.held r := by
  by_cases hlen : frameSize < frame.length <;> cases r <;>
    simp [startSend, hlen, h]

/-- Every event passes at most one chunk on, within its side. -/
theorem step_passes (hk : Kept s) (ev : Event) :
    Passes Place.side s.held (step ev s).held := by
  cases ev with
  | recvOne poll =>
      by_cases h : s.phase = .idle
      · rw [step, if_pos h]
        exact .stay (startRecv_held poll h)
      · rw [step, if_neg h]
        exact .stay fun r => rfl
  | send frame =>
      by_cases h : s.phase = .idle
      · rw [step, if_pos h]
        exact .stay (startSend_held frame h)
      · rw [step, if_neg h]
        exact .stay fun r => rfl
  | advance => exact advance_passes hk
  | kernel k => exact kernel_passes hk k

theorem advance_sound (hs : Sound s) : Sound (advance s) := by
  obtain ⟨hreaped, hfits⟩ := hs
  cases hphase : s.phase with
  | idle =>
      simp only [advance, hphase]
      exact ⟨hreaped, hfits⟩
  | reading =>
      cases hrx : s.rx <;> constructor <;> simp [advance, hphase, hrx]
  | refilling out offset => constructor <;> simp [advance, hphase]
  | reaping frame left done =>
      rw [hphase] at hfits
      cases left with
      | zero =>
          constructor
          · simp [advance, hphase]
          · simpa [advance, hphase] using hfits
      | succ left =>
          cases hnext : s.completion[done]? with
          | none =>
              constructor
              · simp [advance, hphase, hnext]
              · simpa [advance, hphase, hnext] using hfits
          | some addr =>
              have hlt := (List.getElem?_eq_some_iff.mp hnext).1
              constructor
              · simpa [advance, hphase, hnext] using
                  Nat.succ_le_of_lt hlt
              · simpa [advance, hphase, hnext] using hfits
  | popping frame =>
      rw [hphase] at hfits
      cases hlast : s.txFree.getLast? with
      | none => constructor <;> simp [advance, hphase, hlast]
      | some offset =>
          constructor
          · simp [advance, hphase, hlast]
          · simpa [advance, hphase, hlast] using hfits
  | writing frame offset => constructor <;> simp [advance, hphase]
  | queueing len offset =>
      by_cases hroom : s.tx.length < ringSize <;> constructor <;>
        simp [advance, hphase, insertOnce, hroom]

/-- The kernel leaves the call alone and only adds to the completion
ring. -/
theorem kernel_call (k : KernelStep) (s : Socket) :
    (kernel k s).phase = s.phase
      ∧ s.completion.length ≤ (kernel k s).completion.length := by
  cases k <;> simp only [kernel] <;> repeat' split
  all_goals simp

theorem step_sound (ev : Event) (hs : Sound s) : Sound (step ev s) := by
  cases ev with
  | recvOne poll =>
      by_cases h : s.phase = .idle
      · cases poll <;> constructor <;> simp [step, startRecv, h]
      · rw [step, if_neg h]
        exact hs
  | send frame =>
      by_cases h : s.phase = .idle
      · by_cases hlen : frameSize < frame.length
        · constructor <;> simp [step, startSend, h, hlen]
        · constructor <;> simp [step, startSend, h, hlen]
          omega
      · rw [step, if_neg h]
        exact hs
  | advance => exact advance_sound hs
  | kernel k =>
      obtain ⟨hphase, hlen⟩ := kernel_call k s
      constructor
      · rw [step, hphase]
        exact hs.reaped.trans hlen
      · rw [step, hphase]
        exact hs.fits

theorem step_kept (ev : Event) (hk : Kept s) : Kept (step ev s) where
  toSound := step_sound ev hk.toSound
  total x := by rw [(step_passes hk ev).total, hk.total]

-- ================================================================= runs

theorem bind_kept : Kept Socket.bind where
  reaped := Nat.zero_le _
  fits := Nat.zero_le _
  total x := by cases x <;> rfl

/-- The socket and its kernel after some events. -/
def Socket.after (events : List Event) : Socket :=
  run step Socket.bind events

theorem after_kept (events : List Event) : Kept (Socket.after events) :=
  run_invariant (fun _ ev hk => step_kept ev hk) events bind_kept

/-- Every chunk is in one place of its side, once. -/
theorem Kept.holder (hk : Kept s) {i : Nat} (hi : i < frameCount) :
    ∃ p : Place, (s.held p).count (i * frameSize) = 1
      ∧ (∀ q, q ≠ p → i * frameSize ∉ s.held q)
      ∧ (p.side = .rx ↔ i < txFrameBase) := by
  obtain ⟨x, hx⟩ : ∃ x : Side, x = .rx ↔ i < txFrameBase := by
    by_cases h : i < txFrameBase
    · exact ⟨.rx, by simp [h]⟩
    · exact ⟨.tx, by simp [h]⟩
  have hmem : i * frameSize ∈ s.held.total Place.side x := by
    rw [hk.total]
    exact mem_chunks.mpr ⟨i, hi, rfl, hx⟩
  obtain ⟨p, rfl, hcount, -⟩ := s.held.unique (hk.nodup x) hmem
  have hp : i * frameSize ∈ s.held p :=
    Multiset.one_le_count_iff_mem.mp hcount.ge
  exact ⟨p, hcount, fun q hne hq => hne (hk.place_eq hp hq), hx⟩

/-- Between calls the calls hold nothing. -/
theorem lasting_of_idle (h : s.phase = .idle) {p : Place} {c : Nat}
    (hc : c ∈ s.held p) : p.lasting = true := by
  cases p <;> simp_all [Place.lasting]

/-- A write of at most a chunk at a chunk's start stays in it. -/
theorem store_of_chunk_ne {mem : Umem} {offset a : Nat}
    {bytes : List Byte} (halign : chunk offset = offset)
    (hfits : bytes.length ≤ frameSize) (hne : chunk a ≠ offset) :
    mem.store offset bytes a = mem a := by
  rw [Umem.store]
  split
  · next hle =>
    have hfar : bytes.length ≤ a - offset := by
      simp only [chunk, frameSize] at *
      omega
    rw [List.getElem?_eq_none hfar]
    rfl
  · rfl

/-- A call writes into no chunk but the one it has taken. -/
theorem Kept.untouched (hk : Kept s) {ev : Event}
    (hev : ∀ k, ev ≠ .kernel k) {p : Place} (hp : p ≠ .send) {a : Nat}
    (ha : chunk a ∈ s.held p) : (step ev s).umem a = s.umem a := by
  cases ev with
  | recvOne poll =>
      by_cases h : s.phase = .idle <;> cases poll <;>
        simp [step, startRecv, h]
  | send frame =>
      by_cases h : s.phase = .idle <;>
        by_cases hlen : frameSize < frame.length <;>
        simp [step, startSend, h, hlen]
  | kernel k => exact absurd rfl (hev k)
  | advance =>
      cases hphase : s.phase with
      | writing frame offset =>
          have hsend : offset ∈ s.held .send := by simp [hphase]
          have hne : chunk a ≠ offset := by
            rintro rfl
            exact hp (hk.place_eq hsend ha)
          have hfits := hk.fits
          rw [hphase] at hfits
          simp only [step, advance, hphase]
          exact store_of_chunk_ne (hk.aligned hsend) hfits hne
      | idle => simp [step, advance, hphase]
      | reading => cases hrx : s.rx <;> simp [step, advance, hphase, hrx]
      | refilling out offset => simp [step, advance, hphase]
      | reaping frame left done =>
          cases left <;> cases hnext : s.completion[done]? <;>
            simp [step, advance, hphase, hnext]
      | popping frame =>
          cases hlast : s.txFree.getLast? <;>
            simp [step, advance, hphase, hlast]
      | queueing len offset =>
          by_cases hroom : s.tx.length < ringSize <;>
            simp [step, advance, hphase, insertOnce, hroom]

end Steps

/-- After any events, each of the chunks is in exactly one place, once,
and between calls that is none of the calls' own; the chunks below
`TX_FRAME_BASE` are on the RX side and the others on the TX side; no place
holds anything else; and a call changes no byte of a chunk that it has
not taken from the pool itself. -/
theorem chunk_ownership (events : List Event) :
    (∀ i < frameCount, ∃ p : Place,
      ((Socket.after events).held p).count (i * frameSize) = 1
        ∧ (∀ q, q ≠ p → i * frameSize ∉ (Socket.after events).held q)
        ∧ (p.side = .rx ↔ i < txFrameBase)
        ∧ ((Socket.after events).phase = .idle → p.lasting = true))
      ∧ (∀ p, ∀ c ∈ (Socket.after events).held p,
        ∃ i < frameCount, c = i * frameSize
          ∧ (p.side = .rx ↔ i < txFrameBase))
      ∧ ∀ ev, (∀ k, ev ≠ .kernel k) → ∀ p, p ≠ .send →
        ∀ a, chunk a ∈ (Socket.after events).held p →
          (step ev (Socket.after events)).umem a
            = (Socket.after events).umem a := by
  have hk := after_kept events
  refine ⟨fun i hi => ?_, fun p c hc => mem_chunks.mp (hk.mem hc),
    fun ev hev p hp a ha => hk.untouched hev hp ha⟩
  obtain ⟨p, hcount, hothers, hside⟩ := hk.holder hi
  have hp : i * frameSize ∈ (Socket.after events).held p :=
    Multiset.one_le_count_iff_mem.mp hcount.ge
  exact ⟨p, hcount, hothers, hside, fun h => lasting_of_idle h hp⟩

/-- A received frame is answered: its chunk is back on the fill ring, and
the answer's chunk comes back to the pool with the next call. -/
example :
    let s := Socket.after
      [.kernel .takeFill, .kernel (.receive 0 256 [1, 2]),
        .recvOne (.ok ()), .advance, .advance,
        .send [3, 4, 5], .advance, .advance, .advance, .advance,
        .kernel .takeTx, .kernel (.complete 0),
        .send [6], .advance, .advance]
    s.returned = some .sent ∧ s.fill.getLast? = some 0
      ∧ s.txFree.getLast? = some (63 * frameSize) := by
  decide

end Blackwall.XdpPlane.AfXdp
