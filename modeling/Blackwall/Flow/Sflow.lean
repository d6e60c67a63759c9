/-
The sFlow v5 decoder (`blackwall-flow/src/sflow.rs`).

A cursor is what is left of its buffer; its reads are `Base.Reader`s. A
`u32` always fits a `usize` and a position never overflows one, so the
cursor's two overflow errors are left out. What `etherparse` makes of the
captured bytes is a parameter, as far as the decoder looks at it.

An observation is pushed as soon as its record is read: a sample that
fails later on keeps the ones it pushed, so a sample's decoder returns its
list on either outcome.
-/
import Blackwall.Base.Reader
import Blackwall.Flow.Detector

namespace Blackwall.Flow

open Base

/-- `FlowError::Decode`. -/
inductive FlowError
  | decode (text : String)
  deriving DecidableEq, Repr

-- ============================================================ the cursor

/-- `Cursor::read_u32`. -/
def readU32 : Reader FlowError (BitVec 32) :=
  Reader.u32 (.decode "sFlow datagram truncated (u32 read past end)")

/-- `Cursor::take`. -/
def take (n : Nat) : Reader FlowError (List Byte) :=
  Reader.take n (.decode "sFlow datagram truncated (take past end)")

/-- A data format word, a length, and that many bytes: the frame of a
sample and of a flow record. -/
def readFrame : Reader FlowError (BitVec 32 × List Byte) := do
  let type ← readU32
  let length ← readU32
  let body ← take length.toNat
  return (type, body)

-- =========================================================== raw headers

inductive LaxNetSlice
  | ipv4 (source destination : BitVec 32) (protocol : Byte)
  | ipv6 (source destination : BitVec 128) (ipNumber : Byte)
  | arp
  deriving DecidableEq, Repr

/-- `TcpSlice`, as far as it is read. -/
structure TcpSlice where
  sourcePort : BitVec 16
  destinationPort : BitVec 16
  fin : Bool
  syn : Bool
  rst : Bool
  psh : Bool
  ack : Bool
  urg : Bool
  ece : Bool
  cwr : Bool
  deriving DecidableEq, Repr

inductive TransportSlice
  | udp (sourcePort destinationPort : BitVec 16)
  | tcp (tcp : TcpSlice)
  | other
  deriving DecidableEq, Repr

structure LaxSlicedPacket where
  net : Option LaxNetSlice
  transport : Option TransportSlice
  deriving DecidableEq, Repr

/-- `LaxSlicedPacket::from_ethernet`. -/
abbrev FromEthernet : Type := List Byte → Option LaxSlicedPacket

def tcpFlagsByte (t : TcpSlice) : Byte :=
  (if t.fin then 0x01 else 0) ||| (if t.syn then 0x02 else 0)
    ||| (if t.rst then 0x04 else 0) ||| (if t.psh then 0x08 else 0)
    ||| (if t.ack then 0x10 else 0) ||| (if t.urg then 0x20 else 0)
    ||| (if t.ece then 0x40 else 0) ||| (if t.cwr then 0x80 else 0)

/-- The source, destination and protocol of an IP packet. -/
def LaxSlicedPacket.endpoints (p : LaxSlicedPacket) :
    Option (IpAddr × IpAddr × Byte) :=
  match p.net with
  | some (.ipv4 src dst proto) => some (.v4 src, .v4 dst, proto)
  | some (.ipv6 src dst proto) => some (.v6 src, .v6 dst, proto)
  | _ => none

/-- The ports and TCP flags, zero where there are none. -/
def LaxSlicedPacket.ports (p : LaxSlicedPacket) :
    BitVec 16 × BitVec 16 × Byte :=
  match p.transport with
  | some (.udp src dst) => (src, dst, 0)
  | some (.tcp t) => (t.sourcePort, t.destinationPort, tcpFlagsByte t)
  | _ => (0, 0, 0)

/-- The fields of a raw-header record: protocol, frame length, header. -/
def readRawHeader : Reader FlowError (BitVec 32 × BitVec 32 × List Byte) :=
  do
  let headerProtocol ← readU32
  let frameLen ← readU32
  let _stripped ← readU32
  let headerLength ← readU32
  let headerBytes ← take headerLength.toNat
  return (headerProtocol, frameLen, headerBytes)

/-- The observation a captured header stands for. -/
def observationOf (fromEthernet : FromEthernet) (headerProtocol frameLen :
    BitVec 32) (headerBytes : List Byte) (samplingRate : BitVec 32)
    (agent : IpAddr) : Option FlowObservation := do
  -- only Ethernet is supported
  if headerProtocol ≠ 1 then none
  let sliced ← fromEthernet headerBytes
  let (src, dst, proto) ← sliced.endpoints
  let (srcPort, dstPort, tcpFlags) := sliced.ports
  return { src, dst, proto, srcPort, dstPort, frameLen, samplingRate
           tcpFlags, agent }

def decodeRawHeaderRecord (fromEthernet : FromEthernet) (body : List Byte)
    (samplingRate : BitVec 32) (agent : IpAddr) : Option FlowObservation :=
  match readRawHeader body with
  | .error _ => none
  | .ok ((headerProtocol, frameLen, headerBytes), _) =>
      observationOf fromEthernet headerProtocol frameLen headerBytes
        samplingRate agent

-- ========================================================== flow samples

/-- The record loop of `decode_flow_sample` and
`decode_expanded_flow_sample`. -/
def decodeRecords (fromEthernet : FromEthernet) (samplingRate : BitVec 32)
    (agent : IpAddr) : Nat → List FlowObservation → List Byte →
    Except FlowError Unit × List FlowObservation
  | 0, out, _ => (.ok (), out)
  | n + 1, out, cur =>
      match readFrame cur with
      | .error e => (.error e, out)
      | .ok ((recordType, recordBody), cur) =>
          if recordType &&& 0xFFF ≠ 1 then
            decodeRecords fromEthernet samplingRate agent n out cur
          else
            match decodeRawHeaderRecord fromEthernet recordBody
              samplingRate agent with
            | some obs => decodeRecords fromEthernet samplingRate agent n
                (out ++ [obs]) cur
            | none =>
                decodeRecords fromEthernet samplingRate agent n out cur

/-- The head of a flow sample: its sampling rate and record count. -/
def readFlowHead : Reader FlowError (BitVec 32 × BitVec 32) := do
  let _sequence ← readU32
  let _sourceId ← readU32
  let samplingRate ← readU32
  let _samplePool ← readU32
  let _drops ← readU32
  let _input ← readU32
  let _output ← readU32
  let numRecords ← readU32
  return (samplingRate, numRecords)

/-- The head of an expanded flow sample. -/
def readExpandedFlowHead : Reader FlowError (BitVec 32 × BitVec 32) := do
  let _sequence ← readU32
  let _dsClass ← readU32
  let _dsIndex ← readU32
  let samplingRate ← readU32
  let _samplePool ← readU32
  let _drops ← readU32
  let _inputFormat ← readU32
  let _inputValue ← readU32
  let _outputFormat ← readU32
  let _outputValue ← readU32
  let numRecords ← readU32
  return (samplingRate, numRecords)

/-- The two sample decoders, by the head they read. -/
def decodeSampleWith (head : Reader FlowError (BitVec 32 × BitVec 32))
    (fromEthernet : FromEthernet) (body : List Byte) (agent : IpAddr)
    (out : List FlowObservation) :
    Except FlowError Unit × List FlowObservation :=
  match head body with
  | .error e => (.error e, out)
  | .ok ((samplingRate, numRecords), cur) =>
      decodeRecords fromEthernet samplingRate agent numRecords.toNat out cur

def decodeFlowSample := decodeSampleWith readFlowHead

def decodeExpandedFlowSample := decodeSampleWith readExpandedFlowHead

/-- The dispatch on a sample's type; other samples are skipped. -/
def decodeSample (fromEthernet : FromEthernet) (agent : IpAddr)
    (sampleType : BitVec 32) (sampleBody : List Byte)
    (out : List FlowObservation) :
    Except FlowError Unit × List FlowObservation :=
  if sampleType &&& 0xFFF = 1 then
    decodeFlowSample fromEthernet sampleBody agent out
  else if sampleType &&& 0xFFF = 3 then
    decodeExpandedFlowSample fromEthernet sampleBody agent out
  else (.ok (), out)

-- ============================================================= datagrams

/-- The agent address. -/
def readAgent : Reader FlowError IpAddr := do
  let agentAddrType ← readU32
  if agentAddrType = 1 then
    let b ← take 4
    return .v4 (BitVec.ofNat 32 (beNat b))
  else if agentAddrType = 2 then
    let b ← take 16
    return .v6 (BitVec.ofNat 128 (beNat b))
  else
    Reader.fail (.decode ("unknown sFlow agent address type "
      ++ toString agentAddrType.toNat))

/-- The datagram envelope: the agent and the number of samples. -/
def readEnvelope : Reader FlowError (IpAddr × BitVec 32) := do
  let _version ← readU32
  let agent ← readAgent
  let _subAgent ← readU32
  let _sequence ← readU32
  let _uptime ← readU32
  let numSamples ← readU32
  return (agent, numSamples)

/-- The sample loop of `decode_datagram`. -/
def decodeSamples (fromEthernet : FromEthernet) (agent : IpAddr) :
    Nat → List FlowObservation → Nat → List Byte →
    Except FlowError (List FlowObservation × Nat)
  | 0, observations, sampleErrors, _ => .ok (observations, sampleErrors)
  | n + 1, observations, sampleErrors, cur =>
      match readFrame cur with
      | .error e => .error e
      | .ok ((sampleType, sampleBody), cur) =>
          match decodeSample fromEthernet agent sampleType sampleBody
            observations with
          | (.ok _, observations) =>
              decodeSamples fromEthernet agent n observations sampleErrors
                cur
          | (.error _, observations) =>
              decodeSamples fromEthernet agent n observations
                (sampleErrors + 1) cur

def decodeDatagram (fromEthernet : FromEthernet) (bytes : List Byte) :
    Except FlowError (List FlowObservation × Nat) :=
  match readEnvelope bytes with
  | .error e => .error e
  | .ok ((agent, numSamples), cur) =>
      decodeSamples fromEthernet agent numSamples.toNat [] 0 cur

end Blackwall.Flow
