/-
Samples of one sFlow datagram do not disturb each other.

A sample stands in a frame that says how long it is (`Frame`), so the
cursor goes on behind it whatever is inside: a frame adds the observations
and the error of its own body to what the decoder has so far
(`decodeSamples_frame`), and what comes after is decoded as if it came
first (`decodeSamples_acc`). Exchanging one sample for another therefore
changes its own contribution only (`sample_isolation`).
-/
import Blackwall.Flow.Sflow

namespace Blackwall.Flow

open Base

-- ================================================================ frames

/-- A sample or a flow record as it stands in its container: a data format
word and a body whose length fits its word. -/
structure Frame where
  type : BitVec 32
  body : List Byte
  fits : body.length < 2 ^ 32

def Frame.wire (f : Frame) : List Byte :=
  be32 f.type ++ (be32 (BitVec.ofNat 32 f.body.length) ++ f.body)

theorem Frame.takes (f : Frame) :
    readFrame.Takes f.wire (f.type, f.body) := by
  have hlen : f.body.length
      = (BitVec.ofNat 32 f.body.length).toNat := by
    rw [BitVec.toNat_ofNat, Nat.mod_eq_of_lt f.fits]
  refine Reader.Takes.bind (.u32 f.type _) ?_
  refine Reader.Takes.bind (.u32 _ _) ?_
  exact (Reader.Takes.take hlen _).last _

theorem readFrame_ok {bs rest body : List Byte} {type : BitVec 32}
    (h : readFrame bs = .ok ((type, body), rest)) :
    ∃ f : Frame, f.type = type ∧ f.body = body ∧ bs = f.wire ++ rest := by
  simp only [readFrame, Reader.bind_ok] at h
  obtain ⟨t, bs₁, ht, len, bs₂, hl, b, bs₃, hb, hr⟩ := h
  cases hr
  obtain ⟨rfl, hlen⟩ := Reader.take_ok hb
  have hlt : body.length < 2 ^ 32 := hlen ▸ len.isLt
  refine ⟨⟨type, body, hlt⟩, rfl, rfl, ?_⟩
  rw [Reader.u32_ok ht, Reader.u32_ok hl, Frame.wire, hlen,
    BitVec.ofNat_toNat, BitVec.setWidth_eq]
  simp only [List.append_assoc]

-- ========================================================= contributions

section Contributions

variable (ep : FromEthernet) (agent : IpAddr)

/-- What a record adds to its sample's observations. -/
def recordObs (rate : BitVec 32) (f : Frame) : List FlowObservation :=
  if f.type &&& 0xFFF = 1 then
    (decodeRawHeaderRecord ep f.body rate agent).toList
  else []

theorem decodeRecords_frame (rate : BitVec 32) (f : Frame) (n : Nat)
    (out : List FlowObservation) (rest : List Byte) :
    decodeRecords ep rate agent (n + 1) out (f.wire ++ rest)
      = decodeRecords ep rate agent n
        (out ++ recordObs ep agent rate f) rest := by
  rw [decodeRecords, f.takes rest]
  simp only [recordObs, ne_eq, ite_not]
  split
  · cases decodeRawHeaderRecord ep f.body rate agent with
    | none => simp
    | some obs => simp
  · simp

/-- The observations so far do not matter to the ones to come. -/
theorem decodeRecords_acc (rate : BitVec 32) (n : Nat)
    (out : List FlowObservation) (cur : List Byte) :
    decodeRecords ep rate agent n out cur
      = ((decodeRecords ep rate agent n [] cur).1,
        out ++ (decodeRecords ep rate agent n [] cur).2) := by
  induction n generalizing out cur with
  | zero => simp [decodeRecords]
  | succ n ih =>
      cases hr : readFrame cur with
      | error e => simp [decodeRecords, hr]
      | ok r =>
          obtain ⟨⟨type, body⟩, rest⟩ := r
          obtain ⟨f, -, -, rfl⟩ := readFrame_ok hr
          rw [decodeRecords_frame, decodeRecords_frame, ih, ih ([] ++ _)]
          simp

/-- Neither do they to a sample. -/
theorem decodeSample_acc (type : BitVec 32) (body : List Byte)
    (out : List FlowObservation) :
    decodeSample ep agent type body out
      = ((decodeSample ep agent type body []).1,
        out ++ (decodeSample ep agent type body []).2) := by
  have hwith : ∀ head,
      decodeSampleWith head ep body agent out
        = ((decodeSampleWith head ep body agent []).1,
          out ++ (decodeSampleWith head ep body agent []).2) := by
    intro head
    unfold decodeSampleWith
    split
    · simp
    · exact decodeRecords_acc ..
  unfold decodeSample
  split
  · exact hwith _
  · split
    · exact hwith _
    · simp

/-- What a sample adds to its datagram's observations. -/
def sampleObs (f : Frame) : List FlowObservation :=
  (decodeSample ep agent f.type f.body []).2

/-- What it adds to the datagram's error count. -/
def sampleErrs (f : Frame) : Nat :=
  match (decodeSample ep agent f.type f.body []).1 with
  | .ok _ => 0
  | .error _ => 1

-- =============================================================== datagrams

theorem decodeSamples_frame (f : Frame) (n errs : Nat)
    (out : List FlowObservation) (rest : List Byte) :
    decodeSamples ep agent (n + 1) out errs (f.wire ++ rest)
      = decodeSamples ep agent n (out ++ sampleObs ep agent f)
        (errs + sampleErrs ep agent f) rest := by
  rw [decodeSamples, f.takes rest]
  simp only
  rw [decodeSample_acc]
  unfold sampleObs sampleErrs
  cases (decodeSample ep agent f.type f.body []).1 <;> rfl

theorem decodeSamples_frames (fs : List Frame) (n errs : Nat)
    (out : List FlowObservation) (rest : List Byte) :
    decodeSamples ep agent (fs.length + n) out errs
        (fs.flatMap Frame.wire ++ rest)
      = decodeSamples ep agent n (out ++ fs.flatMap (sampleObs ep agent))
        (errs + (fs.map (sampleErrs ep agent)).sum) rest := by
  induction fs generalizing out errs with
  | nil => simp
  | cons f fs ih =>
      rw [List.flatMap_cons, List.append_assoc, List.length_cons,
        Nat.add_right_comm, decodeSamples_frame, ih]
      simp [List.append_assoc, Nat.add_assoc]

/-- What was decoded before does not matter to what comes. -/
theorem decodeSamples_acc (n errs : Nat) (out : List FlowObservation)
    (cur : List Byte) :
    decodeSamples ep agent n out errs cur
      = (decodeSamples ep agent n [] 0 cur).map
        fun r => (out ++ r.1, errs + r.2) := by
  induction n generalizing out errs cur with
  | zero => simp [decodeSamples, Except.map]
  | succ n ih =>
      cases hr : readFrame cur with
      | error e => simp [decodeSamples, hr, Except.map]
      | ok r =>
          obtain ⟨⟨type, body⟩, rest⟩ := r
          obtain ⟨f, -, -, rfl⟩ := readFrame_ok hr
          rw [decodeSamples_frame, decodeSamples_frame, ih, ih _ ([] ++ _)]
          cases decodeSamples ep agent n [] 0 rest with
          | error e => rfl
          | ok r => simp [Except.map, List.append_assoc, Nat.add_assoc]

/-- There is at most one error a sample. -/
theorem sampleErrors_le {n errs : Nat} {out : List FlowObservation}
    {cur : List Byte} {r : List FlowObservation × Nat}
    (h : decodeSamples ep agent n out errs cur = .ok r) :
    r.2 ≤ errs + n := by
  induction n generalizing out errs cur with
  | zero =>
      cases h
      exact Nat.le_refl _
  | succ n ih =>
      rw [decodeSamples] at h
      split at h
      · cases h
      · split at h
        · have := ih h
          omega
        · have := ih h
          omega

end Contributions

/-- So its `u32` never overflows. -/
theorem sampleErrors_lt {ep : FromEthernet} {bytes : List Byte}
    {r : List FlowObservation × Nat}
    (h : decodeDatagram ep bytes = .ok r) : r.2 < 2 ^ 32 := by
  unfold decodeDatagram at h
  split at h
  · cases h
  · next agent numSamples cur _ =>
    have := sampleErrors_le ep agent h
    have := numSamples.isLt
    omega

-- ============================================================ the envelope

/-- The words in front of the samples' count. -/
structure Envelope where
  version : BitVec 32
  agent : IpAddr
  subAgent : BitVec 32
  sequence : BitVec 32
  uptime : BitVec 32
  deriving DecidableEq

/-- An address with its type word. -/
def agentWire (a : IpAddr) : List Byte :=
  match a with
  | .v4 _ => be32 1 ++ a.octets
  | .v6 _ => be32 2 ++ a.octets

def Envelope.wire (e : Envelope) (numSamples : BitVec 32) : List Byte :=
  be32 e.version ++ (agentWire e.agent ++ (be32 e.subAgent
    ++ (be32 e.sequence ++ (be32 e.uptime ++ be32 numSamples))))

theorem readAgent_takes (a : IpAddr) :
    readAgent.Takes (agentWire a) a := by
  cases a with
  | v4 v =>
      refine Reader.Takes.bind (.u32 1 _) ?_
      rw [if_pos rfl]
      have hback : BitVec.ofNat 32 (beNat (beBytes 4 v.toNat)) = v :=
        ofNat_octets (n := 4) v
      have h := Reader.Takes.last (Reader.Takes.take
        (length_beBytes 4 v.toNat)
        (FlowError.decode "sFlow datagram truncated (take past end)"))
        fun b => IpAddr.v4 (BitVec.ofNat 32 (beNat b))
      rw [hback] at h
      exact h
  | v6 v =>
      refine Reader.Takes.bind (.u32 2 _) ?_
      rw [if_neg (by decide), if_pos rfl]
      have hback : BitVec.ofNat 128 (beNat (beBytes 16 v.toNat)) = v :=
        ofNat_octets (n := 16) v
      have h := Reader.Takes.last (Reader.Takes.take
        (length_beBytes 16 v.toNat)
        (FlowError.decode "sFlow datagram truncated (take past end)"))
        fun b => IpAddr.v6 (BitVec.ofNat 128 (beNat b))
      rw [hback] at h
      exact h

theorem Envelope.takes (e : Envelope) (n : BitVec 32) :
    readEnvelope.Takes (e.wire n) (e.agent, n) := by
  refine Reader.Takes.bind (.u32 e.version _) ?_
  refine Reader.Takes.bind (readAgent_takes e.agent) ?_
  refine Reader.Takes.bind (.u32 e.subAgent _) ?_
  refine Reader.Takes.bind (.u32 e.sequence _) ?_
  refine Reader.Takes.bind (.u32 e.uptime _) ?_
  exact (Reader.Takes.u32 n _).last _

-- =============================================================== isolation

/-- A datagram whose sample after `before` is `f`; `rest` is what follows,
whole or not. -/
def datagramWith (e : Envelope) (n : BitVec 32) (before : List Frame)
    (rest : List Byte) (f : Frame) : List Byte :=
  e.wire n ++ (before.flatMap Frame.wire ++ (f.wire ++ rest))

theorem decodeDatagram_with (ep : FromEthernet) (e : Envelope)
    {n : BitVec 32} {before : List Frame} (hn : before.length < n.toNat)
    (rest : List Byte) (f : Frame) :
    decodeDatagram ep (datagramWith e n before rest f)
      = (decodeSamples ep e.agent (n.toNat - before.length - 1) [] 0
          rest).map fun r =>
        (before.flatMap (sampleObs ep e.agent) ++ sampleObs ep e.agent f
            ++ r.1,
          (before.map (sampleErrs ep e.agent)).sum
            + sampleErrs ep e.agent f + r.2) := by
  have hsplit : n.toNat
      = before.length + (n.toNat - before.length - 1 + 1) := by omega
  rw [decodeDatagram, datagramWith, e.takes n]
  simp only
  rw [hsplit, decodeSamples_frames, decodeSamples_frame,
    decodeSamples_acc, ← hsplit]
  simp

/-- Of two datagrams that differ in one sample, one decodes if the other
does: to the observations of the samples before, that sample's own, and
those of the samples behind it, and to the sum of their errors. The length
and type of the sample may differ too. -/
theorem sample_isolation (ep : FromEthernet) (e : Envelope) (n : BitVec 32)
    (before : List Frame) (hn : before.length < n.toNat)
    (rest : List Byte) (f g : Frame) :
    (decodeDatagram ep (datagramWith e n before rest f)).isOk
        = (decodeDatagram ep (datagramWith e n before rest g)).isOk
      ∧ ∀ r r',
        decodeDatagram ep (datagramWith e n before rest f) = .ok r →
        decodeDatagram ep (datagramWith e n before rest g) = .ok r' →
        ∃ left right errs,
          r = (left ++ sampleObs ep e.agent f ++ right,
            errs + sampleErrs ep e.agent f)
          ∧ r' = (left ++ sampleObs ep e.agent g ++ right,
            errs + sampleErrs ep e.agent g)
          ∧ left = before.flatMap (sampleObs ep e.agent)
          ∧ ∃ behind, decodeSamples ep e.agent
            (n.toNat - before.length - 1) [] 0 rest
              = .ok (right, behind) := by
  rw [decodeDatagram_with ep e hn, decodeDatagram_with ep e hn]
  cases decodeSamples ep e.agent (n.toNat - before.length - 1) [] 0
      rest with
  | error err =>
      refine ⟨rfl, fun r r' h => ?_⟩
      cases h
  | ok tail =>
      refine ⟨rfl, fun r r' h h' => ?_⟩
      cases h
      cases h'
      refine ⟨before.flatMap (sampleObs ep e.agent), tail.1,
        (before.map (sampleErrs ep e.agent)).sum + tail.2, ?_, ?_, rfl,
        tail.2, rfl⟩
      · exact Prod.ext rfl (Nat.add_right_comm ..)
      · exact Prod.ext rfl (Nat.add_right_comm ..)

/-- An agent's envelope. -/
def sampleEnvelope : Envelope := ⟨5, .v4 0x0A000001, 0, 1, 1000⟩

/-- An `etherparse` that finds an IPv4 packet from the first byte. -/
def byteSource : FromEthernet := fun header =>
  header.head?.map fun b =>
    ⟨some (.ipv4 (b.setWidth 32) 0xC6336407 17), none⟩

/-- A flow sample with one record, of a captured byte; `len` is the length
it gives for the record, which takes 17 bytes. -/
def recordSample (len : BitVec 32) (b : Byte) : Frame where
  type := 1
  body := [0, 0, 100, 0, 0, 0, 0, 1, 1, len, 1, 64, 0, 1].flatMap be32 ++ [b]
  fits := by simp

/-- What it stands for. -/
def byteObs (b : Byte) : FlowObservation where
  src := .v4 (b.setWidth 32)
  dst := .v4 0xC6336407
  proto := 17
  srcPort := 0
  dstPort := 0
  frameLen := 64
  samplingRate := 100
  tcpFlags := 0
  agent := .v4 0x0A000001

/-- Three samples, of which the middle one gives a record that reaches
past its end, or the right length: the observations of the other two are
there in both. -/
theorem sample_isolation_middle :
    decodeDatagram byteSource (datagramWith sampleEnvelope 3
        [recordSample 17 1] (recordSample 17 3).wire
        (recordSample 0xFFFFFFFF 2)) = .ok ([byteObs 1, byteObs 3], 1)
      ∧ decodeDatagram byteSource (datagramWith sampleEnvelope 3
        [recordSample 17 1] (recordSample 17 3).wire (recordSample 17 2))
        = .ok ([byteObs 1, byteObs 2, byteObs 3], 0)
      ∧ ∃ left right errs,
        ([byteObs 1, byteObs 3], 1)
          = (left ++ sampleObs byteSource sampleEnvelope.agent
              (recordSample 0xFFFFFFFF 2) ++ right,
            errs + sampleErrs byteSource sampleEnvelope.agent
              (recordSample 0xFFFFFFFF 2))
        ∧ ([byteObs 1, byteObs 2, byteObs 3], 0)
          = (left ++ sampleObs byteSource sampleEnvelope.agent
              (recordSample 17 2) ++ right,
            errs + sampleErrs byteSource sampleEnvelope.agent
              (recordSample 17 2))
        ∧ left = [byteObs 1] ∧ right = [byteObs 3] := by
  have hf : decodeDatagram byteSource (datagramWith sampleEnvelope 3
      [recordSample 17 1] (recordSample 17 3).wire
      (recordSample 0xFFFFFFFF 2)) = .ok ([byteObs 1, byteObs 3], 1) := by
    decide +kernel
  have hg : decodeDatagram byteSource (datagramWith sampleEnvelope 3
      [recordSample 17 1] (recordSample 17 3).wire (recordSample 17 2))
      = .ok ([byteObs 1, byteObs 2, byteObs 3], 0) := by
    decide +kernel
  obtain ⟨left, right, errs, hr, hr', hleft, behind, hright⟩ :=
    (sample_isolation byteSource sampleEnvelope 3 [recordSample 17 1]
      (by decide) (recordSample 17 3).wire (recordSample 0xFFFFFFFF 2)
      (recordSample 17 2)).2 _ _ hf hg
  have hbehind : decodeSamples byteSource sampleEnvelope.agent 1 [] 0
      (recordSample 17 3).wire = .ok ([byteObs 3], 0) := by decide +kernel
  cases hbehind.symm.trans hright
  exact ⟨hf, hg, left, _, errs, hr, hr',
    hleft.trans (by decide +kernel), rfl⟩

end Blackwall.Flow
