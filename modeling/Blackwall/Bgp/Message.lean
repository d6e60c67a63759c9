/-
BGP message framing and the control messages
(`blackwall-bgp/src/message.rs`).

An encoder panics where a length does not fit its field (`expect`); a
panic is `none`. The two loops of `decode_open` walk a region of
type-length-value triples in the same way (`walkTlv`); a region is what is
left of it, and the fuel is its length, of which a triple takes two bytes
or more.
-/
import Blackwall.Base.Bytes

namespace Blackwall.Bgp

open Base

/-- `BgpError::Decode`. -/
inductive BgpError
  | decode (text : String)
  deriving DecidableEq, Repr

-- ================================================================= header

def marker : List Byte := List.replicate 16 0xFF

def headerLen : Nat := 19

/-- The largest message a header may announce. -/
def maxMessageLen : Nat := 4096

inductive MsgType
  | «open»
  | update
  | notification
  | keepalive
  deriving DecidableEq, Repr

def MsgType.code : MsgType → Byte
  | .open => 1
  | .update => 2
  | .notification => 3
  | .keepalive => 4

def MsgType.fromCode (code : Byte) : Option MsgType :=
  if code = 1 then some .open
  else if code = 2 then some .update
  else if code = 3 then some .notification
  else if code = 4 then some .keepalive
  else none

/-- `u16::try_from` of a length. -/
def u16Len (n : Nat) : Option (BitVec 16) :=
  if n < 2 ^ 16 then some (BitVec.ofNat 16 n) else none

/-- `u8::try_from` of a length. -/
def u8Len (n : Nat) : Option Byte :=
  if n < 2 ^ 8 then some (BitVec.ofNat 8 n) else none

def encodeHeader (msgType : Byte) (body : List Byte) :
    Option (List Byte) := do
  let total ← u16Len (headerLen + body.length)
  return marker ++ (be16 total ++ (msgType :: body))

/-- `parse_header`: the type and the total length. -/
def parseHeader (bytes : List Byte) : Except BgpError (Byte × Nat) :=
  match bytes.drop 16 with
  | hi :: lo :: msgType :: _ =>
      if bytes.take 16 ≠ marker then .error (.decode "bad marker")
      else
        let total := (word16 hi lo).toNat
        if headerLen ≤ total ∧ total ≤ maxMessageLen then
          .ok (msgType, total)
        else .error (.decode ("bad length " ++ toString total))
  | _ => .error (.decode "short header")

-- =========================================================== notifications

structure NotificationMsg where
  code : Byte
  subcode : Byte
  data : List Byte
  deriving DecidableEq, Repr

def encodeKeepalive : Option (List Byte) :=
  encodeHeader MsgType.keepalive.code []

def encodeNotification (n : NotificationMsg) : Option (List Byte) :=
  encodeHeader MsgType.notification.code (n.code :: n.subcode :: n.data)

def decodeNotification (body : List Byte) :
    Except BgpError NotificationMsg :=
  match body with
  | code :: subcode :: data => .ok { code, subcode, data }
  | _ => .error (.decode ("NOTIFICATION body too short: "
      ++ toString body.length ++ " bytes"))

-- =================================================================== OPEN

structure OpenMsg where
  asn : BitVec 32
  holdTime : BitVec 16
  routerId : BitVec 32
  ipv4Unicast : Bool
  ipv6Unicast : Bool
  flowspecV4 : Bool
  flowspecV6 : Bool
  deriving DecidableEq, Repr

def asTrans : BitVec 16 := 23456

/-- `CAP_4OCTET_AS`. -/
def cap4OctetAs : Byte := 65

def capMpBgp : Byte := 1

/-- One multiprotocol capability. -/
def mpCapability (afi : BitVec 16) (safi : Byte) : List Byte :=
  capMpBgp :: 4 :: (be16 afi ++ [0, safi])

/-- The capabilities of `encode_open`. -/
def openCapabilities (o : OpenMsg) : List Byte :=
  cap4OctetAs :: 4 :: be32 o.asn
    ++ (if o.ipv4Unicast then mpCapability 1 1 else [])
    ++ (if o.ipv6Unicast then mpCapability 2 1 else [])
    ++ (if o.flowspecV4 then mpCapability 1 133 else [])
    ++ (if o.flowspecV6 then mpCapability 2 133 else [])

/-- The legacy two-octet AS field. -/
def legacyAs (asn : BitVec 32) : BitVec 16 :=
  if asn.toNat < 2 ^ 16 then asn.setWidth 16 else asTrans

def encodeOpen (o : OpenMsg) : Option (List Byte) := do
  let caps := openCapabilities o
  let paramLen ← u8Len caps.length
  let optParams := 2 :: paramLen :: caps
  let optParamLen ← u8Len optParams.length
  encodeHeader MsgType.open.code (4 :: (be16 (legacyAs o.asn)
    ++ (be16 o.holdTime ++ (be32 o.routerId ++ optParamLen :: optParams))))

/-- Walk a region of type, length and value; `f` takes up each. -/
def walkTlv {A : Type} (headerErr valueErr : BgpError)
    (f : A → Byte → List Byte → Except BgpError A) :
    Nat → List Byte → A → Except BgpError A
  | _, [], a => .ok a
  | 0, _ :: _, _ => .error headerErr
  | _ + 1, [_], _ => .error headerErr
  | fuel + 1, type :: len :: rest, a =>
      if len.toNat ≤ rest.length then
        match f a type (rest.take len.toNat) with
        | .ok a' =>
            walkTlv headerErr valueErr f fuel (rest.drop len.toNat) a'
        | .error e => .error e
      else .error valueErr

/-- What `decode_open` has found so far. -/
structure Capabilities where
  asn4Octet : Option (BitVec 32)
  ipv4Unicast : Bool
  ipv6Unicast : Bool
  flowspecV4 : Bool
  flowspecV6 : Bool
  deriving DecidableEq, Repr

/-- Before the first capability. -/
def Capabilities.none : Capabilities := ⟨.none, false, false, false, false⟩

/-- The multiprotocol capability of an AFI and SAFI. -/
def Capabilities.noteMp (c : Capabilities) (afi : BitVec 16) (safi : Byte) :
    Capabilities :=
  if afi = 1 ∧ safi = 1 then { c with ipv4Unicast := true }
  else if afi = 2 ∧ safi = 1 then { c with ipv6Unicast := true }
  else if afi = 1 ∧ safi = 133 then { c with flowspecV4 := true }
  else if afi = 2 ∧ safi = 133 then { c with flowspecV6 := true }
  else c

/-- One capability; unknown codes and other lengths are passed over. -/
def Capabilities.note (c : Capabilities) (code : Byte)
    (value : List Byte) : Capabilities :=
  match value with
  | [v₀, v₁, v₂, v₃] =>
      if code = cap4OctetAs then
        { c with
          asn4Octet := some (word32 (word16 v₀ v₁) (word16 v₂ v₃)) }
      else if code = capMpBgp then c.noteMp (word16 v₀ v₁) v₃
      else c
  | _ => c

/-- The inner loop of `decode_open`. -/
def decodeCapabilities (c : Capabilities) (region : List Byte) :
    Except BgpError Capabilities :=
  walkTlv (.decode "truncated capability header")
    (.decode "truncated capability value")
    (fun c code value => .ok (c.note code value)) region.length region c

/-- One optional parameter: only Capabilities is looked into. -/
def decodeParam (c : Capabilities) (type : Byte) (value : List Byte) :
    Except BgpError Capabilities :=
  if type = 2 then decodeCapabilities c value else .ok c

/-- The outer loop of `decode_open`. -/
def decodeParams (region : List Byte) : Except BgpError Capabilities :=
  walkTlv (.decode "truncated optional parameter header")
    (.decode "truncated optional parameter value") decodeParam
    region.length region .none

def decodeOpen (body : List Byte) : Except BgpError OpenMsg :=
  match body with
  | _version :: a₀ :: a₁ :: h₀ :: h₁ :: r₀ :: r₁ :: r₂ :: r₃ :: optLen
      :: region =>
      if region.length < optLen.toNat then
        .error (.decode ("OPEN opt_param_len " ++ toString optLen.toNat
          ++ " exceeds body length " ++ toString body.length))
      else
        match decodeParams (region.take optLen.toNat) with
        | .error e => .error e
        | .ok c => .ok
            { asn := c.asn4Octet.getD ((word16 a₀ a₁).setWidth 32)
              holdTime := word16 h₀ h₁
              routerId := word32 (word16 r₀ r₁) (word16 r₂ r₃)
              ipv4Unicast := c.ipv4Unicast, ipv6Unicast := c.ipv6Unicast
              flowspecV4 := c.flowspecV4, flowspecV6 := c.flowspecV6 }
  | _ => .error (.decode ("OPEN body too short: "
      ++ toString body.length ++ " bytes"))

-- =============================================================== messages

/-- `BgpMessage`: the body of an inbound UPDATE is not looked at. -/
inductive BgpMessage
  | «open» (o : OpenMsg)
  | keepalive
  | update
  | notification (n : NotificationMsg)
  deriving DecidableEq, Repr

/-- A body by its type. -/
def decodeBody (msgType : Byte) (body : List Byte) :
    Except BgpError BgpMessage :=
  match MsgType.fromCode msgType with
  | some .open => (decodeOpen body).map .open
  | some .notification => (decodeNotification body).map .notification
  | some .keepalive => .ok .keepalive
  | some .update => .ok .update
  | none => .error (.decode ("unknown BGP message type "
      ++ toString msgType.toNat))

/-- `decode_message`: the message and its total length. -/
def decodeMessage (bytes : List Byte) : Except BgpError (BgpMessage × Nat) :=
  match parseHeader bytes with
  | .error e => .error e
  | .ok (msgType, total) =>
      if bytes.length < total then
        .error (.decode ("buffer too short: need " ++ toString total
          ++ " bytes, have " ++ toString bytes.length))
      else
        match decodeBody msgType ((bytes.take total).drop headerLen) with
        | .error e => .error e
        | .ok msg => .ok (msg, total)

end Blackwall.Bgp
