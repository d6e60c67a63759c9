/-
What `decode_message` makes of an OPEN, whatever its layout.

An OPEN carries its capabilities in optional parameters of type 2, and it
may carry as many of those as it likes, in between parameters of other
types. `OpenLayout` is any such message. `Capabilities.note` passes over
every code but two, so what is decoded depends on the capabilities of
those two codes in the order they come, wherever they stand:
`OpenHead.opened` says what they mean without a walk. `encode_open` is the
layout with one parameter.
-/
import Blackwall.Bgp.Message

namespace Blackwall.Bgp

open Base

-- ================================================================= header

theorem u16Len_of_lt {n : Nat} (h : n < 2 ^ 16) :
    u16Len n = some (BitVec.ofNat 16 n) :=
  if_pos h

theorem u16Len_some {n : Nat} {v : BitVec 16} (h : u16Len n = some v) :
    n < 2 ^ 16 ∧ v = BitVec.ofNat 16 n := by
  unfold u16Len at h
  split at h
  · next hlt => exact ⟨hlt, (Option.some.inj h).symm⟩
  · cases h

theorem u8Len_of_lt {n : Nat} (h : n < 2 ^ 8) :
    u8Len n = some (BitVec.ofNat 8 n) :=
  if_pos h

theorem toNat_ofNat16 {n : Nat} (h : n < 2 ^ 16) :
    (BitVec.ofNat 16 n).toNat = n := by
  rw [BitVec.toNat_ofNat, Nat.mod_eq_of_lt h]

theorem toNat_ofNat8 {n : Nat} (h : n < 2 ^ 8) :
    (BitVec.ofNat 8 n).toNat = n := by
  rw [BitVec.toNat_ofNat, Nat.mod_eq_of_lt h]

/-- A message of a length its field can hold. -/
theorem encodeHeader_of_lt (msgType : Byte) (body : List Byte)
    (h : headerLen + body.length < 2 ^ 16) :
    encodeHeader msgType body
      = some (marker ++ (be16 (BitVec.ofNat 16 (headerLen + body.length))
        ++ (msgType :: body))) := by
  rw [encodeHeader, u16Len_of_lt h]
  rfl

theorem encodeHeader_some {msgType : Byte} {body bytes : List Byte}
    (h : encodeHeader msgType body = some bytes) :
    headerLen + body.length < 2 ^ 16
      ∧ bytes = marker ++ (be16 (BitVec.ofNat 16 (headerLen + body.length))
        ++ (msgType :: body)) := by
  by_cases hfit : headerLen + body.length < 2 ^ 16
  · rw [encodeHeader_of_lt msgType body hfit] at h
    exact ⟨hfit, (Option.some.inj h).symm⟩
  · rw [encodeHeader, show u16Len (headerLen + body.length) = none from
      if_neg hfit] at h
    cases h

theorem encodeHeader_length {msgType : Byte} {body bytes : List Byte}
    (h : encodeHeader msgType body = some bytes) :
    bytes.length = headerLen + body.length := by
  rw [(encodeHeader_some h).2]
  simp only [marker, headerLen, List.length_append, List.length_replicate,
    length_be16, List.length_cons]
  omega

theorem parseHeader_encodeHeader {msgType : Byte} {body bytes : List Byte}
    (h : encodeHeader msgType body = some bytes)
    (hmax : bytes.length ≤ maxMessageLen) (rest : List Byte) :
    parseHeader (bytes ++ rest) = .ok (msgType, bytes.length) := by
  have hlen := encodeHeader_length h
  obtain ⟨hfit, rfl⟩ := encodeHeader_some h
  -- the marker is sixteen bytes; the length and the type follow
  rw [List.append_assoc]
  have hdrop : ∀ tail : List Byte, (marker ++ tail).drop 16 = tail :=
    fun tail => rfl
  have htake : ∀ tail : List Byte, (marker ++ tail).take 16 = marker :=
    fun tail => rfl
  unfold parseHeader
  rw [hdrop, htake]
  show (if marker ≠ marker then _ else _) = _
  rw [if_neg (by simp), word16_be16, toNat_ofNat16 hfit, hlen,
    if_pos ⟨Nat.le_add_right _ _, by omega⟩]

/-- A message is its body's, with whatever follows left alone. -/
theorem decodeMessage_encodeHeader {msgType : Byte}
    {body bytes : List Byte} (h : encodeHeader msgType body = some bytes)
    (hmax : bytes.length ≤ maxMessageLen) (rest : List Byte) :
    decodeMessage (bytes ++ rest)
      = (decodeBody msgType body).map (·, bytes.length) := by
  have hlen := encodeHeader_length h
  have hbody : bytes.drop headerLen = body := by
    rw [(encodeHeader_some h).2]
    rfl
  rw [decodeMessage, parseHeader_encodeHeader h hmax rest]
  show (if _ then _ else _) = _
  rw [if_neg (by rw [List.length_append]; omega), List.take_left, hbody]
  cases decodeBody msgType body <;> rfl

-- ============================================================== the walk

/-- A value with its type, short enough for its length byte. -/
structure Tlv where
  type : Byte
  value : List Byte
  fits : value.length < 2 ^ 8

/-- The bytes of one. -/
def Tlv.wire (t : Tlv) : List Byte :=
  t.type :: BitVec.ofNat 8 t.value.length :: t.value

section Walk

variable {A γ : Type} {headerErr valueErr : BgpError}
  {f : A → Byte → List Byte → Except BgpError A}

theorem walkTlv_cons {t : Tlv} {a a' : A} {rest : List Byte}
    (hf : f a t.type t.value = .ok a') (fuel : Nat) :
    walkTlv headerErr valueErr f (fuel + 1) (t.wire ++ rest) a
      = walkTlv headerErr valueErr f fuel rest a' := by
  have hwire : t.wire ++ rest
      = t.type :: BitVec.ofNat 8 t.value.length :: (t.value ++ rest) := rfl
  rw [hwire, walkTlv, toNat_ofNat8 t.fits,
    if_pos (by rw [List.length_append]; omega), List.take_left,
    List.drop_left, hf]

/-- A walk over well-formed values takes up each in turn. -/
theorem walkTlv_flatMap (tlv : γ → Tlv) {g : A → γ → A} {xs : List γ}
    (hf : ∀ a, ∀ x ∈ xs, f a (tlv x).type (tlv x).value = .ok (g a x))
    {fuel : Nat}
    (hfuel : (xs.flatMap fun x => (tlv x).wire).length ≤ fuel) (a : A) :
    walkTlv headerErr valueErr f fuel (xs.flatMap fun x => (tlv x).wire) a
      = .ok (xs.foldl g a) := by
  induction xs generalizing fuel a with
  | nil => cases fuel <;> rfl
  | cons x xs ih =>
      rw [List.flatMap_cons, List.length_append] at hfuel
      have htwo : 2 ≤ (tlv x).wire.length := Nat.le_add_left 2 _
      obtain ⟨fuel, rfl⟩ : ∃ m, fuel = m + 1 := ⟨fuel - 1, by omega⟩
      rw [List.flatMap_cons, walkTlv_cons (hf a x List.mem_cons_self),
        List.foldl_cons]
      exact ih (fun a y hy => hf a y (List.mem_cons_of_mem x hy))
        (by omega) (g a x)

end Walk

-- =========================================================== capabilities

/-- The two codes `decode_open` knows. -/
def Tlv.known (t : Tlv) : Bool :=
  t.type = cap4OctetAs ∨ t.type = capMpBgp

/-- The number a 4-octet-AS capability carries. -/
def Tlv.as4 (t : Tlv) : Option (BitVec 32) :=
  match t.value with
  | [v₀, v₁, v₂, v₃] =>
      if t.type = cap4OctetAs then
        some (word32 (word16 v₀ v₁) (word16 v₂ v₃))
      else none
  | _ => none

/-- The multiprotocol capability for this AFI and SAFI. -/
def Tlv.isMp (afi : BitVec 16) (safi : Byte) (t : Tlv) : Bool :=
  match t.value with
  | [v₀, v₁, _, v₃] =>
      t.type = capMpBgp ∧ word16 v₀ v₁ = afi ∧ v₃ = safi
  | _ => false

/-- The fixed part of an OPEN. -/
structure OpenHead where
  version : Byte
  myAs : BitVec 16
  holdTime : BitVec 16
  routerId : BitVec 32

/-- The OPEN that a fixed part and capabilities make: the last 4-octet AS
number, and each multiprotocol capability that is there at all. -/
def OpenHead.opened (head : OpenHead) (caps : List Tlv) : OpenMsg where
  asn := (caps.filterMap Tlv.as4).getLast?.getD (head.myAs.setWidth 32)
  holdTime := head.holdTime
  routerId := head.routerId
  ipv4Unicast := caps.any (Tlv.isMp 1 1)
  ipv6Unicast := caps.any (Tlv.isMp 2 1)
  flowspecV4 := caps.any (Tlv.isMp 1 133)
  flowspecV6 := caps.any (Tlv.isMp 2 133)

theorem noteMp_eq (c : Capabilities) (afi : BitVec 16) (safi : Byte) :
    c.noteMp afi safi
      = { c with
          ipv4Unicast := c.ipv4Unicast || decide (afi = 1 ∧ safi = 1)
          ipv6Unicast := c.ipv6Unicast || decide (afi = 2 ∧ safi = 1)
          flowspecV4 := c.flowspecV4 || decide (afi = 1 ∧ safi = 133)
          flowspecV6 := c.flowspecV6 || decide (afi = 2 ∧ safi = 133) } := by
  unfold Capabilities.noteMp
  split
  · next h => obtain ⟨rfl, rfl⟩ := h; simp
  · next h1 =>
    split
    · next h => obtain ⟨rfl, rfl⟩ := h; simp
    · next h2 =>
      split
      · next h => obtain ⟨rfl, rfl⟩ := h; simp
      · next h3 =>
        split
        · next h => obtain ⟨rfl, rfl⟩ := h; simp
        · next h4 =>
          simp only [decide_eq_false h1, decide_eq_false h2,
            decide_eq_false h3, decide_eq_false h4, Bool.or_false]

/-- `Capabilities.note` of a value with its type. -/
def noteTlv (c : Capabilities) (t : Tlv) : Capabilities :=
  c.note t.type t.value

/-- A capability sets what it says and leaves the rest. -/
theorem note_eq (c : Capabilities) (t : Tlv) :
    noteTlv c t
      = { asn4Octet := t.as4.or c.asn4Octet
          ipv4Unicast := c.ipv4Unicast || t.isMp 1 1
          ipv6Unicast := c.ipv6Unicast || t.isMp 2 1
          flowspecV4 := c.flowspecV4 || t.isMp 1 133
          flowspecV6 := c.flowspecV6 || t.isMp 2 133 } := by
  obtain ⟨type, value, fits⟩ := t
  -- a value of any length but four sets nothing
  rcases value with _ | ⟨v₀, _ | ⟨v₁, _ | ⟨v₂, _ | ⟨v₃, _ | ⟨v₄, tail⟩⟩⟩⟩⟩
  case cons.cons.cons.cons.nil =>
    simp only [noteTlv, Capabilities.note, Tlv.as4, Tlv.isMp]
    by_cases h65 : type = cap4OctetAs
    · have h1 : type ≠ capMpBgp := by rw [h65]; decide
      simp [h65, show cap4OctetAs ≠ capMpBgp by decide]
    · by_cases h1 : type = capMpBgp
      · rw [if_neg h65, if_pos h1, if_neg h65, noteMp_eq]
        simp [h1]
      · simp [h65, h1]
  all_goals simp [noteTlv, Capabilities.note, Tlv.as4, Tlv.isMp]

theorem note_unknown {t : Tlv} (h : t.known = false) (c : Capabilities) :
    noteTlv c t = c := by
  have h' : ¬(t.type = cap4OctetAs ∨ t.type = capMpBgp) :=
    of_decide_eq_false h
  unfold noteTlv Capabilities.note
  split
  · rw [if_neg fun h => h' (.inl h), if_neg fun h => h' (.inr h)]
  · rfl

theorem foldl_note (caps : List Tlv) :
    caps.foldl noteTlv .none
      = { asn4Octet := (caps.filterMap Tlv.as4).getLast?
          ipv4Unicast := caps.any (Tlv.isMp 1 1)
          ipv6Unicast := caps.any (Tlv.isMp 2 1)
          flowspecV4 := caps.any (Tlv.isMp 1 133)
          flowspecV6 := caps.any (Tlv.isMp 2 133) } := by
  induction caps using List.reverseRecOn with
  | nil => rfl
  | append_singleton caps t ih =>
      rw [List.foldl_append, ih, List.foldl_cons, List.foldl_nil, note_eq]
      cases h : t.as4 <;> simp [h]

/-- Only the two known codes count. -/
theorem foldl_note_known (caps : List Tlv) (c : Capabilities) :
    (caps.filter Tlv.known).foldl noteTlv c
      = caps.foldl noteTlv c := by
  induction caps generalizing c with
  | nil => rfl
  | cons t caps ih =>
      rw [List.foldl_cons]
      by_cases h : t.known
      · rw [List.filter_cons_of_pos h, List.foldl_cons, ih]
      · rw [List.filter_cons_of_neg h, ih,
          note_unknown (Bool.not_eq_true _ ▸ h)]

/-- Codes that are not known do not change what is opened. -/
theorem opened_known (head : OpenHead) (caps : List Tlv) :
    head.opened (caps.filter Tlv.known) = head.opened caps := by
  have h := foldl_note_known caps .none
  rw [foldl_note, foldl_note, Capabilities.mk.injEq] at h
  obtain ⟨h1, h2, h3, h4, h5⟩ := h
  rw [OpenHead.opened, h1, h2, h3, h4, h5]
  rfl

-- ================================================================ layouts

/-- One optional parameter. -/
inductive OptParam
  | capabilities (caps : List Tlv)
      (fits : (caps.flatMap Tlv.wire).length < 2 ^ 8)
  | unknown (tlv : Tlv) (other : tlv.type ≠ 2)

/-- The parameter as type, length and value. -/
def OptParam.tlv : OptParam → Tlv
  | .capabilities caps fits => ⟨2, caps.flatMap Tlv.wire, fits⟩
  | .unknown tlv _ => tlv

/-- The capabilities in it. -/
def OptParam.caps : OptParam → List Tlv
  | .capabilities caps _ => caps
  | .unknown _ _ => []

/-- An OPEN of any layout. -/
structure OpenLayout where
  head : OpenHead
  params : List OptParam
  fits : (params.flatMap fun p => p.tlv.wire).length < 2 ^ 8

namespace OpenLayout

/-- The optional parameters' bytes. -/
def region (l : OpenLayout) : List Byte :=
  l.params.flatMap fun p => p.tlv.wire

/-- The capabilities of all the parameters, in order. -/
def capabilities (l : OpenLayout) : List Tlv :=
  l.params.flatMap OptParam.caps

/-- The body. -/
def body (l : OpenLayout) : List Byte :=
  l.head.version :: (be16 l.head.myAs ++ (be16 l.head.holdTime
    ++ (be32 l.head.routerId
      ++ BitVec.ofNat 8 l.region.length :: l.region)))

end OpenLayout

theorem decodeCapabilities_wire (c : Capabilities) (caps : List Tlv) :
    decodeCapabilities c (caps.flatMap Tlv.wire)
      = .ok (caps.foldl noteTlv c) :=
  walkTlv_flatMap (fun t : Tlv => t) (fun _ _ _ => rfl) (Nat.le_refl _) c

theorem decodeParam_tlv (c : Capabilities) (p : OptParam) :
    decodeParam c p.tlv.type p.tlv.value
      = .ok (p.caps.foldl noteTlv c) := by
  cases p with
  | capabilities caps fits => exact decodeCapabilities_wire c caps
  | unknown tlv other => exact if_neg other

theorem decodeParams_region (l : OpenLayout) :
    decodeParams l.region
      = .ok (l.capabilities.foldl noteTlv .none) := by
  rw [OpenLayout.capabilities, List.foldl_flatMap]
  exact walkTlv_flatMap OptParam.tlv (fun c p _ => decodeParam_tlv c p)
    (Nat.le_refl _) .none

/-- The body of any layout decodes to what its known capabilities say. -/
theorem decodeOpen_body (l : OpenLayout) :
    decodeOpen l.body
      = .ok (l.head.opened (l.capabilities.filter Tlv.known)) := by
  have hfits : l.region.length < 2 ^ 8 := l.fits
  show (if l.region.length < _ then _ else _) = _
  rw [toNat_ofNat8 hfits, if_neg (Nat.lt_irrefl _), List.take_length,
    decodeParams_region, ← foldl_note_known, foldl_note]
  show Except.ok _ = _
  rw [word16_be16, word16_be16, word16_be16, word16_be16, word32_be32]
  rfl

theorem decodeMessage_layout (l : OpenLayout) (rest : List Byte) :
    ∃ bytes, encodeHeader MsgType.open.code l.body = some bytes
      ∧ decodeMessage (bytes ++ rest)
        = .ok (.open (l.head.opened (l.capabilities.filter Tlv.known)),
            bytes.length) := by
  have hbody : l.body.length = 10 + l.region.length := by
    simp only [OpenLayout.body, List.length_cons, List.length_append,
      length_be16, length_be32]
    omega
  have hfits : l.region.length < 2 ^ 8 := l.fits
  have henc := encodeHeader_of_lt MsgType.open.code l.body (by
    unfold headerLen; omega)
  refine ⟨_, henc, ?_⟩
  rw [decodeMessage_encodeHeader henc (by
    rw [encodeHeader_length henc, headerLen, maxMessageLen]; omega)]
  have hdec : decodeBody MsgType.open.code l.body
      = (decodeOpen l.body).map .open := rfl
  rw [hdec, decodeOpen_body]
  rfl

-- ============================================================ round trip

/-- The 4-octet-AS capability as a value. -/
def asTlv (asn : BitVec 32) : Tlv :=
  ⟨cap4OctetAs, be32 asn, show 4 < 2 ^ 8 by decide⟩

/-- The multiprotocol capability as a value. -/
def mpTlv (afi : BitVec 16) (safi : Byte) : Tlv :=
  ⟨capMpBgp, be16 afi ++ [0, safi], show 4 < 2 ^ 8 by decide⟩

theorem as4_asTlv (asn : BitVec 32) : (asTlv asn).as4 = some asn := by
  show some (word32 (word16 _ _) (word16 _ _)) = _
  rw [word16_be16, word16_be16, word32_be32]

/-- The capabilities `encode_open` writes. -/
def OpenMsg.capabilities (o : OpenMsg) : List Tlv :=
  asTlv o.asn
    :: ((if o.ipv4Unicast then [mpTlv 1 1] else [])
    ++ (if o.ipv6Unicast then [mpTlv 2 1] else [])
    ++ (if o.flowspecV4 then [mpTlv 1 133] else [])
    ++ (if o.flowspecV6 then [mpTlv 2 133] else []))

theorem openCapabilities_eq (o : OpenMsg) :
    openCapabilities o = o.capabilities.flatMap Tlv.wire := by
  obtain ⟨asn, hold, rid, b₁, b₂, b₃, b₄⟩ := o
  cases b₁ <;> cases b₂ <;> cases b₃ <;> cases b₄ <;> rfl

theorem openCapabilities_length (o : OpenMsg) :
    (openCapabilities o).length ≤ 30 := by
  obtain ⟨asn, hold, rid, b₁, b₂, b₃, b₄⟩ := o
  cases b₁ <;> cases b₂ <;> cases b₃ <;> cases b₄ <;>
    exact of_decide_eq_true rfl

/-- `encode_open` writes one Capabilities parameter. -/
def OpenMsg.layout (o : OpenMsg) : OpenLayout where
  head := ⟨4, legacyAs o.asn, o.holdTime, o.routerId⟩
  params := [.capabilities o.capabilities (by
    have := openCapabilities_length o
    rw [← openCapabilities_eq]
    omega)]
  fits := by
    have := openCapabilities_length o
    rw [List.flatMap_singleton]
    show (o.capabilities.flatMap Tlv.wire).length + 2 < _
    rw [← openCapabilities_eq]
    omega

theorem layout_region (o : OpenMsg) :
    o.layout.region = 2 :: BitVec.ofNat 8 (openCapabilities o).length
      :: openCapabilities o := by
  rw [OpenLayout.region, openCapabilities_eq]
  exact List.flatMap_singleton _ _

theorem encodeOpen_layout (o : OpenMsg) :
    encodeOpen o = encodeHeader MsgType.open.code o.layout.body := by
  have hcaps := openCapabilities_length o
  rw [OpenLayout.body, layout_region, encodeOpen]
  show (u8Len _ >>= fun _ => _) = _
  rw [u8Len_of_lt (by omega)]
  show (u8Len _ >>= fun _ => _) = _
  rw [u8Len_of_lt (by rw [List.length_cons, List.length_cons]; omega)]
  rfl

theorem opened_layout (o : OpenMsg) :
    o.layout.head.opened (o.layout.capabilities.filter Tlv.known) = o := by
  have hcaps : o.layout.capabilities = o.capabilities :=
    List.flatMap_singleton _ _
  have hopen : o.layout.head.opened (o.capabilities.filter Tlv.known)
      = { o with asn := (asTlv o.asn).as4.getD 0 } := by
    obtain ⟨asn, hold, rid, b₁, b₂, b₃, b₄⟩ := o
    cases b₁ <;> cases b₂ <;> cases b₃ <;> cases b₄ <;> rfl
  rw [hcaps, hopen, as4_asTlv]
  rfl

/-- `encode_open`'s message, with anything after it, decodes to what was
encoded; and any layout of a fixed part and capabilities, with unknown
parameters and capabilities between, decodes to the same OPEN. -/
theorem open_decodes :
    (∀ (o : OpenMsg) (rest : List Byte),
      ∃ bytes, encodeOpen o = some bytes
        ∧ decodeMessage (bytes ++ rest) = .ok (.open o, bytes.length))
    ∧ ∀ (caps : List Tlv) (l : OpenLayout) (rest : List Byte),
      l.capabilities.filter Tlv.known = caps.filter Tlv.known →
      ∃ bytes, encodeHeader MsgType.open.code l.body = some bytes
        ∧ decodeMessage (bytes ++ rest)
          = .ok (.open (l.head.opened caps), bytes.length) := by
  constructor
  · intro o rest
    have h := decodeMessage_layout o.layout rest
    rwa [← encodeOpen_layout, opened_layout] at h
  · intro caps l rest hcaps
    have h := decodeMessage_layout l rest
    rwa [hcaps, opened_known] at h

/-- Two capabilities in two parameters, behind an unknown parameter and
beside an unknown capability. -/
def splitLayout : OpenLayout where
  head := ⟨4, 23456, 90, 0x0A000001⟩
  params :=
    [.unknown ⟨1, [7], by decide⟩ (by decide),
      .capabilities [mpTlv 1 1, ⟨2, [], by decide⟩] (by decide),
      .capabilities [asTlv 70000] (by decide)]
  fits := by decide

theorem open_decodes_split :
    ∃ bytes, encodeHeader MsgType.open.code splitLayout.body = some bytes
      ∧ decodeMessage (bytes ++ [1, 2])
        = .ok (.open (splitLayout.head.opened [mpTlv 1 1, asTlv 70000]),
            bytes.length) :=
  open_decodes.2 _ splitLayout [1, 2] rfl

end Blackwall.Bgp
