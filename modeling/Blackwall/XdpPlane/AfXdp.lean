/-
The AF_XDP socket and the kernel it shares its memory with
(`blackwall-xdp`: `afxdp.rs`).

Both sides run by themselves, so a call of the socket is a sequence of
small steps (`Phase`) and the kernel can take a step between any two of
them. A ring is the list of its entries, first in first out; it refuses
an entry when it is full. What the consumer has read it keeps until it
releases it: the completion ring is read entry by entry and released at
once.

The memory both sides share is a function from addresses to bytes.
Waking the kernel has no effect here: it takes its steps whenever it
likes.
-/
import Blackwall.Base.Bytes
import Blackwall.Base.Run

namespace Blackwall.XdpPlane.AfXdp

open Base

def frameSize : Nat := 4096

def frameCount : Nat := 64

def ringSize : Nat := 32

def txFrameBase : Nat := ringSize

/-- An address rounded to its chunk. -/
def chunk (addr : Nat) : Nat := addr - addr % frameSize

/-- The shared memory: a byte at every address. -/
abbrev Umem : Type := Nat → Byte

/-- Copy `bytes` to `addr`. -/
def Umem.store (mem : Umem) (addr : Nat) (bytes : List Byte) : Umem :=
  fun a => if addr ≤ a then bytes[a - addr]?.getD (mem a) else mem a

/-- The `len` bytes at `addr`. -/
def Umem.load (mem : Umem) (addr len : Nat) : List Byte :=
  (List.range len).map fun i => mem (addr + i)

/-- `XdpDesc`, without its options, which are 0. -/
structure XdpDesc where
  addr : Nat
  len : Nat
  deriving DecidableEq, Repr

/-- `AfXdpError`, as far as the calls return it. -/
inductive AfXdpError
  | receive (os : String)
  | transmit (text : String)
  deriving DecidableEq, Repr

/-- What the last call returned; a frame that `recv_one` received stands
for `Ok(true)` and the bytes in `out`. -/
inductive Returned
  | received (frame : Option (List Byte))
  | sent
  | failed (err : AfXdpError)
  deriving DecidableEq, Repr

/-- Where the running call is. -/
inductive Phase
  | idle
  /-- `recv_one` has polled. -/
  | reading
  /-- It has copied a frame and released the descriptor. -/
  | refilling (out : List Byte) (offset : Nat)
  /-- `reap_completions` has read `done` entries and `left` are to come. -/
  | reaping (frame : List Byte) (left done : Nat)
  | popping (frame : List Byte)
  /-- `send` is about to copy the frame into this chunk. -/
  | writing (frame : List Byte) (offset : Nat)
  | queueing (len offset : Nat)
  deriving DecidableEq, Repr

/-- The memory, the four rings, the chunks the kernel has taken, the
socket's pool and its call. -/
structure Socket where
  umem : Umem
  fill : List Nat
  kernelRx : List Nat
  rx : List XdpDesc
  txFree : List Nat
  tx : List XdpDesc
  kernelTx : List Nat
  completion : List Nat
  phase : Phase
  returned : Option Returned

/-- `insert_once`: an entry, unless the ring is full. -/
def insertOnce {α : Type} (ring : List α) (x : α) : List α × Bool :=
  if ring.length < ringSize then (ring ++ [x], true) else (ring, false)

/-- `insert`: as many as there is room for. -/
def insertMany {α : Type} (ring xs : List α) : List α :=
  ring ++ xs.take (ringSize - ring.length)

/-- `bind`, with `prime_fill_ring`. The mapping is anonymous, so it is
all zeros. -/
def Socket.bind : Socket :=
  { umem := fun _ => 0
    fill := insertMany [] ((List.range ringSize).map (· * frameSize))
    kernelRx := []
    rx := []
    txFree := (List.range' txFrameBase (frameCount - txFrameBase)).map
      (· * frameSize)
    tx := []
    kernelTx := []
    completion := []
    phase := .idle
    returned := none }

-- ============================================================= the socket

/-- The texts of `send`'s errors. -/
def oversized (n : Nat) : String :=
  "reply frame " ++ toString n ++ " bytes exceeds UMEM chunk size "
    ++ toString frameSize

/-- `recv_one`, up to its poll. -/
def startRecv (poll : Except String Unit) (s : Socket) : Socket :=
  match poll with
  | .error os => { s with returned := some (.failed (.receive os)) }
  | .ok () => { s with phase := .reading }

/-- `send`, up to the entries of the completion ring it will read. -/
def startSend (frame : List Byte) (s : Socket) : Socket :=
  if frameSize < frame.length then
    { s with
      returned := some (.failed (.transmit (oversized frame.length))) }
  else
    { s with phase := .reaping frame (min ringSize s.completion.length) 0 }

/-- The next step of the running call. -/
def advance (s : Socket) : Socket :=
  match s.phase with
  | .idle => s
  | .reading =>
      match s.rx with
      | [] =>
          { s with phase := .idle, returned := some (.received none) }
      | desc :: rest =>
          { s with
            rx := rest
            phase := .refilling (s.umem.load desc.addr desc.len)
              (chunk desc.addr) }
  | .refilling out offset =>
      -- a refused entry would be lost: the source drops the result
      { s with
        fill := (insertOnce s.fill offset).1
        phase := .idle
        returned := some (.received (some out)) }
  | .reaping frame left done =>
      match left, s.completion[done]? with
      | left + 1, some addr =>
          { s with
            txFree := s.txFree ++ [chunk addr]
            phase := .reaping frame left (done + 1) }
      | _, _ =>
          { s with
            completion := s.completion.drop done, phase := .popping frame }
  | .popping frame =>
      match s.txFree.getLast? with
      | none =>
          { s with
            phase := .idle
            returned := some
              (.failed (.transmit "TX frame pool exhausted")) }
      | some offset =>
          { s with
            txFree := s.txFree.dropLast, phase := .writing frame offset }
  | .writing frame offset =>
      { s with
        umem := s.umem.store offset frame
        phase := .queueing frame.length offset }
  | .queueing len offset =>
      match insertOnce s.tx ⟨offset, len⟩ with
      | (tx, true) =>
          { s with tx, phase := .idle, returned := some .sent }
      | (_, false) =>
          { s with
            txFree := s.txFree ++ [offset]
            phase := .idle
            returned := some (.failed (.transmit "TX ring full")) }

-- ============================================================= the kernel

/-- What the kernel can do. It returns the taken chunks in any order: the
number says which. -/
inductive KernelStep
  | takeFill
  | receive (which addr : Nat) (data : List Byte)
  | takeTx
  | complete (which : Nat)
  deriving DecidableEq, Repr

def kernel (k : KernelStep) (s : Socket) : Socket :=
  match k with
  | .takeFill =>
      match s.fill with
      | [] => s
      | addr :: fill =>
          { s with fill, kernelRx := s.kernelRx ++ [addr] }
  | .receive which addr data =>
      match s.kernelRx[which]? with
      | none => s
      | some taken =>
          if chunk addr = chunk taken ∧ s.rx.length < ringSize then
            { s with
              umem := s.umem.store addr data
              kernelRx := s.kernelRx.eraseIdx which
              rx := s.rx ++ [⟨addr, data.length⟩] }
          else s
  | .takeTx =>
      match s.tx with
      | [] => s
      | desc :: tx =>
          { s with tx, kernelTx := s.kernelTx ++ [desc.addr] }
  | .complete which =>
      match s.kernelTx[which]? with
      | none => s
      | some addr =>
          if s.completion.length < ringSize then
            { s with
              kernelTx := s.kernelTx.eraseIdx which
              completion := s.completion ++ [addr] }
          else s

-- ================================================================== runs

/-- A call that starts, a step of the running call, or one of the
kernel. -/
inductive Event
  | recvOne (poll : Except String Unit)
  | send (frame : List Byte)
  | advance
  | kernel (k : KernelStep)

/-- A call starts when none is running. -/
def step (ev : Event) (s : Socket) : Socket :=
  match ev with
  | .recvOne poll => if s.phase = .idle then startRecv poll s else s
  | .send frame => if s.phase = .idle then startSend frame s else s
  | .advance => advance s
  | .kernel k => kernel k s

end Blackwall.XdpPlane.AfXdp
