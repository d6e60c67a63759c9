/-
What a well-formed sFlow v5 datagram decodes to.

# The format

A datagram is its envelope and its samples; a sample of enterprise 0 and
format 1 or 3 is a flow sample, a head and flow records; a record of
enterprise 0 and format 1 is a captured header with its XDR padding. A
data format word has the enterprise in its high twenty bits and the format
in its low twelve, so the words of enterprise 0 are the formats
themselves. Everything else is a frame whose body says what it likes.

# What should come out, and what does

`Datagram.observed` is one observation for each captured Ethernet header
that shows an IP packet. The decoder looks at the low twelve bits only, so
a sample or record of another enterprise that has the format bits of one
of enterprise 0 is read as if it were one: a `Stray`. It finds what it
should exactly when no stray shows it a packet (`datagram_decodes_iff`).
-/
import Blackwall.Flow.Proofs.Isolation

namespace Blackwall.Flow

open Base

-- ============================================================ the records

/-- A captured header. -/
structure RawHeader where
  protocol : BitVec 32
  frameLen : BitVec 32
  stripped : BitVec 32
  header : List Byte
  pad : List Byte
  fits : 16 + header.length + pad.length < 2 ^ 32

def RawHeader.body (r : RawHeader) : List Byte :=
  be32 r.protocol ++ (be32 r.frameLen ++ (be32 r.stripped
    ++ (be32 (BitVec.ofNat 32 r.header.length) ++ (r.header ++ r.pad))))

theorem RawHeader.length_body (r : RawHeader) :
    r.body.length = 16 + r.header.length + r.pad.length := by
  simp only [body, List.length_append, length_be32]
  omega

def RawHeader.frame (r : RawHeader) : Frame :=
  ⟨1, r.body, r.length_body ▸ r.fits⟩

/-- A flow record: a captured header, or another format or enterprise. -/
inductive FlowRecord
  | rawHeader (r : RawHeader)
  | other (f : Frame) (foreign : f.type ≠ 1)

def FlowRecord.frame : FlowRecord → Frame
  | .rawHeader r => r.frame
  | .other f _ => f

-- ============================================================ the samples

/-- The words of a flow sample in front of its record count. -/
structure FlowHead where
  sequence : BitVec 32
  sourceId : BitVec 32
  samplingRate : BitVec 32
  samplePool : BitVec 32
  drops : BitVec 32
  input : BitVec 32
  output : BitVec 32

def FlowHead.wire (h : FlowHead) : List Byte :=
  be32 h.sequence ++ (be32 h.sourceId ++ (be32 h.samplingRate
    ++ (be32 h.samplePool ++ (be32 h.drops ++ (be32 h.input
      ++ be32 h.output)))))

/-- The same of an expanded flow sample. -/
structure ExpandedHead where
  sequence : BitVec 32
  dsClass : BitVec 32
  dsIndex : BitVec 32
  samplingRate : BitVec 32
  samplePool : BitVec 32
  drops : BitVec 32
  inputFormat : BitVec 32
  inputValue : BitVec 32
  outputFormat : BitVec 32
  outputValue : BitVec 32

def ExpandedHead.wire (h : ExpandedHead) : List Byte :=
  be32 h.sequence ++ (be32 h.dsClass ++ (be32 h.dsIndex
    ++ (be32 h.samplingRate ++ (be32 h.samplePool ++ (be32 h.drops
      ++ (be32 h.inputFormat ++ (be32 h.inputValue
        ++ (be32 h.outputFormat ++ be32 h.outputValue))))))))

/-- A head, a count and the frames it counts. -/
def flowBody (head : List Byte) (n : BitVec 32) (fs : List Frame)
    (rest : List Byte) : List Byte :=
  head ++ (be32 n ++ (fs.flatMap Frame.wire ++ rest))

def recordsBody (head : List Byte) (records : List FlowRecord) :
    List Byte :=
  flowBody head (BitVec.ofNat 32 records.length)
    (records.map FlowRecord.frame) []

/-- A sample: a flow sample of either layout, or another format or
enterprise. -/
inductive SflowSample
  | flow (head : FlowHead) (records : List FlowRecord)
      (fits : (recordsBody head.wire records).length < 2 ^ 32)
  | expanded (head : ExpandedHead) (records : List FlowRecord)
      (fits : (recordsBody head.wire records).length < 2 ^ 32)
  | other (f : Frame) (foreign : f.type ≠ 1 ∧ f.type ≠ 3)

def SflowSample.frame : SflowSample → Frame
  | .flow head records fits => ⟨1, recordsBody head.wire records, fits⟩
  | .expanded head records fits => ⟨3, recordsBody head.wire records, fits⟩
  | .other f _ => f

structure Datagram where
  envelope : Envelope
  samples : List SflowSample
  fits : samples.length < 2 ^ 32

def Datagram.wire (d : Datagram) : List Byte :=
  d.envelope.wire (BitVec.ofNat 32 d.samples.length)
    ++ (d.samples.map SflowSample.frame).flatMap Frame.wire

-- ===================================================== what should come out

section Observed

variable (ep : FromEthernet) (agent : IpAddr)

/-- The captured bytes are an Ethernet header that shows an IP packet. -/
def RawHeader.Resolves (r : RawHeader) : Prop :=
  r.protocol = 1 ∧ ∃ p, ep r.header = some p ∧ p.endpoints.isSome = true

/-- The observation of a captured header, if it shows an IP packet. -/
def RawHeader.observed (rate : BitVec 32) (r : RawHeader) :
    List FlowObservation :=
  if r.protocol = 1 then
    match ep r.header with
    | none => []
    | some p =>
        match p.endpoints with
        | none => []
        | some (src, dst, proto) =>
            [{ src, dst, proto, srcPort := p.ports.1
               dstPort := p.ports.2.1, frameLen := r.frameLen
               samplingRate := rate, tcpFlags := p.ports.2.2, agent }]
  else []

def FlowRecord.observed (rate : BitVec 32) :
    FlowRecord → List FlowObservation
  | .rawHeader r => r.observed ep agent rate
  | .other _ _ => []

def SflowSample.observed : SflowSample → List FlowObservation
  | .flow head records _ =>
      records.flatMap (·.observed ep agent head.samplingRate)
  | .expanded head records _ =>
      records.flatMap (·.observed ep agent head.samplingRate)
  | .other _ _ => []

def Datagram.observed (d : Datagram) : List FlowObservation :=
  d.samples.flatMap (·.observed ep d.envelope.agent)

-- ================================================================= strays

/-- By its format bits and its bytes the frame is a captured header that
shows an IP packet. -/
def Frame.Shows (f : Frame) : Prop :=
  f.type &&& 0xFFF = 1 ∧ ∃ r : RawHeader, r.body = f.body ∧ r.Resolves ep

/-- By its bytes the body begins as a flow sample with that head, and one
of the frames it counts shows an IP packet. -/
def ShowsIn (head body : List Byte) : Prop :=
  ∃ (n : BitVec 32) (fs : List Frame) (rest : List Byte),
    fs.length ≤ n.toNat ∧ body = flowBody head n fs rest
      ∧ ∃ f ∈ fs, f.Shows ep

/-- A record of another enterprise that shows an IP packet. -/
def FlowRecord.Stray : FlowRecord → Prop
  | .rawHeader _ => False
  | .other f _ => f.Shows ep

/-- A sample that has such a record, or one of another enterprise that
shows an IP packet. -/
def SflowSample.Stray : SflowSample → Prop
  | .flow _ records _ | .expanded _ records _ => ∃ r ∈ records, r.Stray ep
  | .other f _ =>
      (f.type &&& 0xFFF = 1 ∧ ∃ h : FlowHead, ShowsIn ep h.wire f.body)
      ∨ (f.type &&& 0xFFF = 3
        ∧ ∃ h : ExpandedHead, ShowsIn ep h.wire f.body)

end Observed

-- ========================================================= captured headers

section Decoded

variable (ep : FromEthernet) (agent : IpAddr)

theorem RawHeader.observed_ne_nil (rate : BitVec 32) (r : RawHeader) :
    r.observed ep agent rate ≠ [] ↔ r.Resolves ep := by
  unfold observed Resolves
  by_cases hp : r.protocol = 1
  · rw [if_pos hp]
    cases hep : ep r.header with
    | none => simp
    | some p =>
        cases he : p.endpoints with
        | none => simp [he]
        | some t => simp [hp, he]
  · rw [if_neg hp]
    exact iff_of_false (fun h => h rfl) fun h => hp h.1

theorem RawHeader.observed_eq (rate : BitVec 32) (r : RawHeader) :
    (observationOf ep r.protocol r.frameLen r.header rate agent).toList
      = r.observed ep agent rate := by
  unfold observationOf observed
  by_cases hp : r.protocol = 1
  · rw [if_pos hp]
    cases hep : ep r.header with
    | none => simp [hp]
    | some p =>
        cases he : p.endpoints with
        | none => simp [hp, he]
        | some t => simp [hp, he]
  · rw [if_neg hp, if_pos hp]
    rfl

theorem RawHeader.read (r : RawHeader) :
    readRawHeader r.body
      = .ok ((r.protocol, r.frameLen, r.header), r.pad) := by
  have hlen : r.header.length
      = (BitVec.ofNat 32 r.header.length).toNat := by
    have := r.fits
    rw [BitVec.toNat_ofNat, Nat.mod_eq_of_lt (by omega)]
  have htakes : readRawHeader.Takes (be32 r.protocol ++ (be32 r.frameLen
      ++ (be32 r.stripped ++ (be32 (BitVec.ofNat 32 r.header.length)
        ++ r.header)))) (r.protocol, r.frameLen, r.header) := by
    refine Reader.Takes.bind (.u32 r.protocol _) ?_
    refine Reader.Takes.bind (.u32 r.frameLen _) ?_
    refine Reader.Takes.bind (.u32 r.stripped _) ?_
    refine Reader.Takes.bind (.u32 _ _) ?_
    exact (Reader.Takes.take hlen _).last _
  have := htakes r.pad
  simpa only [body, List.append_assoc] using this

theorem readRawHeader_ok {body pad header : List Byte}
    {protocol frameLen : BitVec 32} (hfit : body.length < 2 ^ 32)
    (h : readRawHeader body = .ok ((protocol, frameLen, header), pad)) :
    ∃ r : RawHeader, r.body = body ∧ r.protocol = protocol
      ∧ r.frameLen = frameLen ∧ r.header = header := by
  simp only [readRawHeader, Reader.bind_ok] at h
  obtain ⟨p, bs₁, hp, l, bs₂, hl, st, bs₃, hst, n, bs₄, hn, x, bs₅, hx,
    hr⟩ := h
  cases hr
  obtain ⟨rfl, hlen⟩ := Reader.take_ok hx
  have hbody : body = be32 protocol ++ (be32 frameLen ++ (be32 st
      ++ (be32 (BitVec.ofNat 32 header.length) ++ (header ++ pad)))) := by
    rw [Reader.u32_ok hp, Reader.u32_ok hl, Reader.u32_ok hst,
      Reader.u32_ok hn, hlen, BitVec.ofNat_toNat, BitVec.setWidth_eq]
  refine ⟨⟨protocol, frameLen, st, header, pad, ?_⟩, hbody.symm, rfl, rfl,
    rfl⟩
  rw [hbody] at hfit
  simp only [List.length_append, length_be32] at hfit
  omega

theorem recordObs_rawHeader (rate : BitVec 32) (r : RawHeader) :
    recordObs ep agent rate r.frame = r.observed ep agent rate := by
  have htype : r.frame.type &&& 0xFFF = 1 :=
    show (1 : BitVec 32) &&& 0xFFF = 1 by decide
  rw [recordObs, if_pos htype, RawHeader.frame, decodeRawHeaderRecord,
    r.read]
  exact r.observed_eq ep agent rate

/-- A frame that is read as one shows a packet if an observation comes of
it. -/
theorem recordObs_ne_nil (rate : BitVec 32) (f : Frame) :
    recordObs ep agent rate f ≠ [] ↔ f.Shows ep := by
  unfold recordObs Frame.Shows
  by_cases ht : f.type &&& 0xFFF = 1
  · rw [if_pos ht, and_iff_right ht]
    constructor
    · intro hne
      unfold decodeRawHeaderRecord at hne
      split at hne
      · exact absurd rfl hne
      · next p l x pad hread =>
        obtain ⟨r, hb, rfl, rfl, rfl⟩ := readRawHeader_ok f.fits hread
        rw [r.observed_eq] at hne
        exact ⟨r, hb, (r.observed_ne_nil ep agent rate).mp hne⟩
    · rintro ⟨r, hb, hres⟩
      rw [← hb, decodeRawHeaderRecord, r.read, r.observed_eq]
      exact (r.observed_ne_nil ep agent rate).mpr hres
  · rw [if_neg ht]
    exact iff_of_false (fun h => h rfl) fun h => ht h.1

-- ========================================================== the record loop

theorem decodeRecords_frames (rate : BitVec 32) (fs : List Frame) (n : Nat)
    (out : List FlowObservation) (rest : List Byte) :
    decodeRecords ep rate agent (fs.length + n) out
        (fs.flatMap Frame.wire ++ rest)
      = decodeRecords ep rate agent n
        (out ++ fs.flatMap (recordObs ep agent rate)) rest := by
  induction fs generalizing out with
  | nil => simp
  | cons f fs ih =>
      rw [List.flatMap_cons, List.append_assoc, List.length_cons,
        Nat.add_right_comm, decodeRecords_frame, ih]
      simp [List.append_assoc]

/-- Whatever the loop is given, it reads some frames of it. -/
theorem decodeRecords_read (rate : BitVec 32) (n : Nat) (cur : List Byte) :
    ∃ (fs : List Frame) (rest : List Byte), fs.length ≤ n
      ∧ cur = fs.flatMap Frame.wire ++ rest
      ∧ (decodeRecords ep rate agent n [] cur).2
        = fs.flatMap (recordObs ep agent rate) := by
  induction n generalizing cur with
  | zero => exact ⟨[], cur, Nat.le_refl _, rfl, rfl⟩
  | succ n ih =>
      cases hr : readFrame cur with
      | error e =>
          refine ⟨[], cur, Nat.zero_le _, rfl, ?_⟩
          rw [decodeRecords, hr]
          rfl
      | ok r =>
          obtain ⟨⟨type, body⟩, cur'⟩ := r
          obtain ⟨f, -, -, rfl⟩ := readFrame_ok hr
          obtain ⟨fs, rest, hlen, rfl, hobs⟩ := ih cur'
          refine ⟨f :: fs, rest, Nat.succ_le_succ hlen, ?_, ?_⟩
          · rw [List.flatMap_cons, List.append_assoc]
          · rw [decodeRecords_frame, decodeRecords_acc, hobs,
              List.flatMap_cons]
            rfl

-- ================================================================ the heads

/-- The heads a reader reads: it takes each, and takes nothing else. -/
structure Heads {H : Type} (reader : Reader FlowError (BitVec 32 × BitVec 32))
    (wire : H → List Byte) (rate : H → BitVec 32) : Prop where
  takes : ∀ h n, reader.Takes (wire h ++ be32 n) (rate h, n)
  only : ∀ bs r n rest, reader bs = .ok ((r, n), rest) →
    ∃ h, rate h = r ∧ bs = wire h ++ (be32 n ++ rest)

theorem flowHeads :
    Heads readFlowHead FlowHead.wire FlowHead.samplingRate := by
  constructor
  · intro h n
    simp only [FlowHead.wire, List.append_assoc]
    refine Reader.Takes.bind (.u32 h.sequence _) ?_
    refine Reader.Takes.bind (.u32 h.sourceId _) ?_
    refine Reader.Takes.bind (.u32 h.samplingRate _) ?_
    refine Reader.Takes.bind (.u32 h.samplePool _) ?_
    refine Reader.Takes.bind (.u32 h.drops _) ?_
    refine Reader.Takes.bind (.u32 h.input _) ?_
    refine Reader.Takes.bind (.u32 h.output _) ?_
    exact (Reader.Takes.u32 n _).last _
  · intro bs r n rest hread
    simp only [readFlowHead, Reader.bind_ok] at hread
    obtain ⟨w₁, _, h₁, w₂, _, h₂, w₃, _, h₃, w₄, _, h₄, w₅, _, h₅, w₆, _,
      h₆, w₇, _, h₇, w₈, _, h₈, hr⟩ := hread
    cases hr
    refine ⟨⟨w₁, w₂, r, w₄, w₅, w₆, w₇⟩, rfl, ?_⟩
    rw [Reader.u32_ok h₁, Reader.u32_ok h₂, Reader.u32_ok h₃,
      Reader.u32_ok h₄, Reader.u32_ok h₅, Reader.u32_ok h₆,
      Reader.u32_ok h₇, Reader.u32_ok h₈]
    simp only [FlowHead.wire, List.append_assoc]

theorem expandedHeads : Heads readExpandedFlowHead ExpandedHead.wire
    ExpandedHead.samplingRate := by
  constructor
  · intro h n
    simp only [ExpandedHead.wire, List.append_assoc]
    refine Reader.Takes.bind (.u32 h.sequence _) ?_
    refine Reader.Takes.bind (.u32 h.dsClass _) ?_
    refine Reader.Takes.bind (.u32 h.dsIndex _) ?_
    refine Reader.Takes.bind (.u32 h.samplingRate _) ?_
    refine Reader.Takes.bind (.u32 h.samplePool _) ?_
    refine Reader.Takes.bind (.u32 h.drops _) ?_
    refine Reader.Takes.bind (.u32 h.inputFormat _) ?_
    refine Reader.Takes.bind (.u32 h.inputValue _) ?_
    refine Reader.Takes.bind (.u32 h.outputFormat _) ?_
    refine Reader.Takes.bind (.u32 h.outputValue _) ?_
    exact (Reader.Takes.u32 n _).last _
  · intro bs r n rest hread
    simp only [readExpandedFlowHead, Reader.bind_ok] at hread
    obtain ⟨w₁, _, h₁, w₂, _, h₂, w₃, _, h₃, w₄, _, h₄, w₅, _, h₅, w₆, _,
      h₆, w₇, _, h₇, w₈, _, h₈, w₉, _, h₉, w₁₀, _, h₁₀, w₁₁, _, h₁₁,
      hr⟩ := hread
    cases hr
    refine ⟨⟨w₁, w₂, w₃, r, w₅, w₆, w₇, w₈, w₉, w₁₀⟩, rfl, ?_⟩
    rw [Reader.u32_ok h₁, Reader.u32_ok h₂, Reader.u32_ok h₃,
      Reader.u32_ok h₄, Reader.u32_ok h₅, Reader.u32_ok h₆,
      Reader.u32_ok h₇, Reader.u32_ok h₈, Reader.u32_ok h₉,
      Reader.u32_ok h₁₀, Reader.u32_ok h₁₁]
    simp only [ExpandedHead.wire, List.append_assoc]

section Body

variable {H : Type} {reader : Reader FlowError (BitVec 32 × BitVec 32)}
  {wire : H → List Byte} {rate : H → BitVec 32}

theorem Heads.decode (hs : Heads reader wire rate) (h : H) (n : BitVec 32)
    (fs : List Frame) (rest : List Byte) :
    decodeSampleWith reader ep (flowBody (wire h) n fs rest) agent []
      = decodeRecords ep (rate h) agent n.toNat []
        (fs.flatMap Frame.wire ++ rest) := by
  rw [decodeSampleWith, flowBody, ← List.append_assoc, hs.takes h n]

theorem Heads.decode_records (hs : Heads reader wire rate) (h : H)
    {records : List FlowRecord}
    (hfit : (recordsBody (wire h) records).length < 2 ^ 32) :
    (decodeSampleWith reader ep (recordsBody (wire h) records) agent []).2
      = (records.map FlowRecord.frame).flatMap
        (recordObs ep agent (rate h)) := by
  have hlen : records.length < 2 ^ 32 := by
    refine Nat.lt_of_le_of_lt ?_ hfit
    -- a frame is never empty
    have hone : ∀ rs : List FlowRecord, rs.length
        ≤ ((rs.map FlowRecord.frame).flatMap Frame.wire).length := by
      intro rs
      induction rs with
      | nil => exact Nat.le_refl _
      | cons r rs ih =>
          simp only [List.map_cons, List.flatMap_cons, List.length_append,
            List.length_cons, Frame.wire, length_be32]
          omega
    have := hone records
    simp only [recordsBody, flowBody, List.length_append]
    omega
  have hcount : (BitVec.ofNat 32 records.length).toNat
      = (records.map FlowRecord.frame).length + 0 := by
    rw [BitVec.toNat_ofNat, Nat.mod_eq_of_lt hlen, List.length_map,
      Nat.add_zero]
  rw [recordsBody, hs.decode ep agent, hcount, decodeRecords_frames]
  rfl

theorem Heads.decode_ne_nil (hs : Heads reader wire rate)
    (body : List Byte) :
    (decodeSampleWith reader ep body agent []).2 ≠ []
      ↔ ∃ h, ShowsIn ep (wire h) body := by
  have hany : ∀ (r : BitVec 32) (fs : List Frame),
      fs.flatMap (recordObs ep agent r) ≠ [] ↔ ∃ f ∈ fs, f.Shows ep := by
    intro r fs
    simp only [ne_eq, List.flatMap_eq_nil_iff, not_forall, exists_prop]
    refine exists_congr fun f => and_congr_right fun _ => ?_
    exact recordObs_ne_nil ep agent r f
  constructor
  · intro hne
    unfold decodeSampleWith at hne
    split at hne
    · exact absurd rfl hne
    · next r n cur hread =>
      obtain ⟨h, rfl, rfl⟩ := hs.only _ _ _ _ hread
      obtain ⟨fs, rest, hlen, rfl, hobs⟩ :=
        decodeRecords_read ep agent (rate h) n.toNat cur
      rw [hobs] at hne
      exact ⟨h, n, fs, rest, hlen, rfl, (hany _ _).mp hne⟩
  · rintro ⟨h, n, fs, rest, hlen, rfl, hshow⟩
    have hsplit : n.toNat = fs.length + (n.toNat - fs.length) := by omega
    rw [hs.decode ep agent, hsplit, decodeRecords_frames, decodeRecords_acc]
    intro hnil
    exact (hany (rate h) fs).mpr hshow (List.append_eq_nil_iff.mp hnil).1

end Body

end Decoded

-- ============================================================ comparing

section Compare

variable {α β : Type} {f g : α → List β} {l : List α}

/-- Where no part of a list is longer than its counterpart unless it is
the same, the whole is the same only if every part is. -/
theorem flatMap_eq_or_shorter
    (h : ∀ a ∈ l, f a = g a ∨ (f a).length < (g a).length) :
    (∀ a ∈ l, f a = g a)
      ∨ (l.flatMap f).length < (l.flatMap g).length := by
  induction l with
  | nil => exact .inl fun a ha => absurd ha List.not_mem_nil
  | cons a l ih =>
      have ha := h a List.mem_cons_self
      have hl := ih fun b hb => h b (List.mem_cons_of_mem a hb)
      rw [List.flatMap_cons, List.flatMap_cons, List.length_append,
        List.length_append]
      rcases ha with ha | ha
      · rcases hl with hl | hl
        · exact .inl (List.forall_mem_cons.mpr ⟨ha, hl⟩)
        · rw [ha]
          exact .inr (Nat.add_lt_add_left hl _)
      · refine .inr ?_
        rcases hl with hl | hl
        · rw [List.flatMap_congr hl]
          exact Nat.add_lt_add_right ha _
        · omega

theorem flatMap_eq_iff
    (h : ∀ a ∈ l, f a = g a ∨ (f a).length < (g a).length) :
    l.flatMap f = l.flatMap g ↔ ∀ a ∈ l, f a = g a := by
  constructor
  · intro heq
    rcases flatMap_eq_or_shorter h with hall | hlt
    · exact hall
    · rw [heq] at hlt
      exact absurd hlt (Nat.lt_irrefl _)
  · exact List.flatMap_congr

end Compare

-- ========================================================== the equivalence

section Result

variable (ep : FromEthernet) (agent : IpAddr)

/-- A record gives what it should, or is a stray and gives more. -/
theorem FlowRecord.observed_cases (rate : BitVec 32) (r : FlowRecord) :
    (r.observed ep agent rate = recordObs ep agent rate r.frame
        ∧ ¬ r.Stray ep)
      ∨ ((r.observed ep agent rate).length
          < (recordObs ep agent rate r.frame).length ∧ r.Stray ep) := by
  cases r with
  | rawHeader r => exact .inl ⟨(recordObs_rawHeader ..).symm, id⟩
  | other f _ =>
      have hne := recordObs_ne_nil ep agent rate f
      by_cases hs : f.Shows ep
      · exact .inr ⟨List.length_pos_iff.mpr (hne.mpr hs), hs⟩
      · refine .inl ⟨?_, hs⟩
        exact (not_not.mp (mt hne.mp hs)).symm

/-- So do the records of a sample. -/
theorem records_observed_cases (rate : BitVec 32)
    (records : List FlowRecord) :
    (records.flatMap (·.observed ep agent rate)
        = (records.map FlowRecord.frame).flatMap (recordObs ep agent rate)
        ∧ ¬ ∃ r ∈ records, r.Stray ep)
      ∨ ((records.flatMap (·.observed ep agent rate)).length
          < ((records.map FlowRecord.frame).flatMap
            (recordObs ep agent rate)).length
        ∧ ∃ r ∈ records, r.Stray ep) := by
  rw [List.flatMap_map]
  have hcases := fun r (_ : r ∈ records) =>
    (FlowRecord.observed_cases ep agent rate r).imp And.left And.left
  by_cases hstray : ∃ r ∈ records, r.Stray ep
  · refine .inr ⟨?_, hstray⟩
    obtain ⟨r, hr, hs⟩ := hstray
    rcases flatMap_eq_or_shorter hcases with hall | hlt
    · rcases FlowRecord.observed_cases ep agent rate r with ⟨-, h⟩ | ⟨h, -⟩
      · exact absurd hs h
      · rw [hall r hr] at h
        exact absurd h (Nat.lt_irrefl _)
    · exact hlt
  · refine .inl ⟨(flatMap_eq_iff hcases).mpr fun r hr => ?_, hstray⟩
    rcases FlowRecord.observed_cases ep agent rate r with ⟨h, -⟩ | ⟨-, h⟩
    · exact h
    · exact absurd ⟨r, hr, h⟩ hstray

-- ------------------------------------------------------ by format bits

theorem sampleObs_flow {f : Frame} (h : f.type &&& 0xFFF = 1) :
    sampleObs ep agent f
      = (decodeSampleWith readFlowHead ep f.body agent []).2 := by
  rw [sampleObs, decodeSample, if_pos h]
  rfl

theorem sampleObs_expanded {f : Frame} (h : f.type &&& 0xFFF = 3) :
    sampleObs ep agent f
      = (decodeSampleWith readExpandedFlowHead ep f.body agent []).2 := by
  rw [sampleObs, decodeSample, if_neg (by rw [h]; decide), if_pos h]
  rfl

theorem sampleObs_skipped {f : Frame} (h1 : ¬ f.type &&& 0xFFF = 1)
    (h3 : ¬ f.type &&& 0xFFF = 3) : sampleObs ep agent f = [] := by
  rw [sampleObs, decodeSample, if_neg h1, if_neg h3]

/-- A sample of another enterprise gives something if it is a stray. -/
theorem sampleObs_ne_nil (f : Frame) (foreign : f.type ≠ 1 ∧ f.type ≠ 3) :
    sampleObs ep agent f ≠ [] ↔ (SflowSample.other f foreign).Stray ep := by
  simp only [SflowSample.Stray]
  by_cases h1 : f.type &&& 0xFFF = 1
  · have h3 : ¬ f.type &&& 0xFFF = 3 := by rw [h1]; decide
    rw [sampleObs_flow ep agent h1, or_iff_left fun h => h3 h.1,
      and_iff_right h1]
    exact flowHeads.decode_ne_nil ep agent f.body
  rw [or_iff_right fun h => h1 h.1]
  by_cases h3 : f.type &&& 0xFFF = 3
  · rw [sampleObs_expanded ep agent h3, and_iff_right h3]
    exact expandedHeads.decode_ne_nil ep agent f.body
  · rw [sampleObs_skipped ep agent h1 h3]
    exact iff_of_false (fun h => h rfl) fun h => h3 h.1

/-- So does a sample. -/
theorem SflowSample.observed_cases (s : SflowSample) :
    (s.observed ep agent = sampleObs ep agent s.frame ∧ ¬ s.Stray ep)
      ∨ ((s.observed ep agent).length
          < (sampleObs ep agent s.frame).length ∧ s.Stray ep) := by
  cases s with
  | flow head records fits =>
      have htype : (SflowSample.flow head records fits).frame.type &&& 0xFFF
          = 1 := show (1 : BitVec 32) &&& 0xFFF = 1 by decide
      rw [sampleObs_flow ep agent htype, SflowSample.frame,
        flowHeads.decode_records ep agent head fits]
      exact records_observed_cases ep agent head.samplingRate records
  | expanded head records fits =>
      have htype : (SflowSample.expanded head records fits).frame.type
          &&& 0xFFF = 3 := show (3 : BitVec 32) &&& 0xFFF = 3 by decide
      rw [sampleObs_expanded ep agent htype, SflowSample.frame,
        expandedHeads.decode_records ep agent head fits]
      exact records_observed_cases ep agent head.samplingRate records
  | other f foreign =>
      have hne := sampleObs_ne_nil ep agent f foreign
      by_cases hs : (SflowSample.other f foreign).Stray ep
      · exact .inr ⟨List.length_pos_iff.mpr (hne.mpr hs), hs⟩
      · refine .inl ⟨?_, hs⟩
        exact (not_not.mp (mt hne.mp hs)).symm

/-- A datagram decodes to the observations of its samples. -/
theorem decodeDatagram_wire (d : Datagram) :
    ∃ errs, decodeDatagram ep d.wire
      = .ok ((d.samples.map SflowSample.frame).flatMap
        (sampleObs ep d.envelope.agent), errs) := by
  have hcount : (BitVec.ofNat 32 d.samples.length).toNat
      = (d.samples.map SflowSample.frame).length + 0 := by
    rw [BitVec.toNat_ofNat, Nat.mod_eq_of_lt d.fits, List.length_map,
      Nat.add_zero]
  rw [decodeDatagram, Datagram.wire, d.envelope.takes]
  simp only
  rw [hcount, ← List.append_nil (List.flatMap _ _), decodeSamples_frames]
  exact ⟨_, rfl⟩

/-- A well-formed datagram decodes to one observation for each captured
header of its flow samples that shows an IP packet, in order, exactly when
nothing of another enterprise that shares the format bits shows one. -/
theorem datagram_decodes_iff (d : Datagram) :
    (∃ errs, decodeDatagram ep d.wire = .ok (d.observed ep, errs))
      ↔ ∀ s ∈ d.samples, ¬ s.Stray ep := by
  obtain ⟨errs, hdec⟩ := decodeDatagram_wire ep d
  have hcases := fun s (_ : s ∈ d.samples) =>
    (SflowSample.observed_cases ep d.envelope.agent s).imp And.left And.left
  have hsame : (∃ errs, decodeDatagram ep d.wire
        = .ok (d.observed ep, errs))
      ↔ d.observed ep = (d.samples.map SflowSample.frame).flatMap
        (sampleObs ep d.envelope.agent) := by
    rw [hdec]
    constructor
    · rintro ⟨errs', h⟩
      exact (congrArg Prod.fst (Except.ok.inj h)).symm
    · intro h
      exact ⟨errs, by rw [h]⟩
  rw [hsame, Datagram.observed, List.flatMap_map, flatMap_eq_iff hcases]
  refine forall₂_congr fun s _ => ?_
  rcases SflowSample.observed_cases ep d.envelope.agent s with
    ⟨h, hs⟩ | ⟨h, hs⟩
  · exact iff_of_true h hs
  · refine iff_of_false (fun heq => ?_) (not_not_intro hs)
    rw [heq] at h
    exact absurd h (Nat.lt_irrefl _)

end Result

-- ================================================================ a stray

/-- A flow sample at rate 64 with one captured Ethernet header. -/
def oneHeader : List Byte :=
  recordsBody (FlowHead.wire ⟨1, 0, 64, 0, 0, 0, 0⟩)
    [.rawHeader ⟨1, 1500, 4, [0xAB], [0, 0, 0], by decide⟩]

/-- The sample of another enterprise with those bytes. -/
def foreignDatagram : Datagram :=
  ⟨sampleEnvelope, [.other ⟨0x1001, oneHeader, by decide⟩ (by decide)],
    by decide⟩

/-- A parser that sees a packet in anything. -/
def seesPacket : FromEthernet := fun _ =>
  some ⟨some (.ipv4 0xC6336409 0xCB007107 17), some (.udp 12345 53)⟩

/-- The decoder reports what it finds in a sample of another enterprise. -/
theorem foreign_sample_decoded :
    foreignDatagram.observed seesPacket = []
      ∧ decodeDatagram seesPacket foreignDatagram.wire
        = .ok ([{ src := .v4 0xC6336409, dst := .v4 0xCB007107, proto := 17
                  srcPort := 12345, dstPort := 53, frameLen := 1500
                  samplingRate := 64, tcpFlags := 0
                  agent := .v4 0x0A000001 }], 0) := by
  decide

end Blackwall.Flow
