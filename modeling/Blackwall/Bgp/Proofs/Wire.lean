/-
What a peer reads of the pieces an UPDATE is made of: prefixes,
attributes, and the message around them.

A message is the list of attributes it writes (`Message`); the attributes'
length form is `push_attr`'s choice, and the peer reads the same attributes
back (`attributes_msg`). A message longer than 4096 bytes is read by
nobody (`parse_long`).
-/
import Blackwall.Bgp.Peer
import Blackwall.Bgp.Update
import Blackwall.Bgp.Proofs.Open

namespace Blackwall.Bgp.Peer

open Base Reader

-- =============================================================== prefixes

theorem toNat_network {w : Nat} (c : Cidr w) :
    c.network.toNat
      = c.addr.toNat / 2 ^ (w - c.len.val) * 2 ^ (w - c.len.val) := by
  have hle : c.addr.toNat / 2 ^ (w - c.len.val) * 2 ^ (w - c.len.val)
      < 2 ^ w :=
    Nat.lt_of_le_of_lt (Nat.div_mul_le_self _ _) c.addr.isLt
  rw [Cidr.network, BitVec.toNat_shiftLeft, BitVec.toNat_ushiftRight,
    Nat.shiftRight_eq_div_pow, Nat.shiftLeft_eq, Nat.mod_eq_of_lt hle]

/-- The octets a prefix needs give its network back. -/
theorem prefixAddr_take {n : Nat} (c : Cidr (8 * n)) :
    prefixAddr (8 * n) c.len.val c.len.val
        ((beBytes n c.network.toNat).take ((c.len.val + 7) / 8))
      = c.network := by
  have hlen : c.len.val ≤ 8 * n := Nat.le_of_lt_succ c.len.isLt
  obtain ⟨k, hk⟩ : ∃ k, (c.len.val + 7) / 8 = k := ⟨_, rfl⟩
  have hkn : k ≤ n := by omega
  have hX : c.network.toNat < 256 ^ n := by
    have := c.network.isLt
    rwa [Nat.pow_mul] at this
  -- the high part is below `256 ^ k`, so all of it is written
  have hhigh : c.network.toNat / 256 ^ (n - k) < 256 ^ k := by
    rw [Nat.div_lt_iff_lt_mul (Nat.pow_pos (by decide)), ← Nat.pow_add,
      show k + (n - k) = n by omega]
    exact hX
  have hshift : 256 ^ (n - k) * 2 ^ (8 * k - c.len.val)
      = 2 ^ (8 * n - c.len.val) := by
    rw [show (256 : Nat) = 2 ^ 8 from rfl, ← Nat.pow_mul, ← Nat.pow_add]
    congr 1
    omega
  apply BitVec.eq_of_toNat_eq
  rw [prefixAddr, hk, take_beBytes hkn, length_beBytes, beNat_beBytes,
    Nat.mod_eq_of_lt hhigh, Nat.div_div_eq_div_mul, hshift,
    BitVec.toNat_ofNat, toNat_network,
    Nat.mul_div_cancel _ (Nat.pow_pos (by decide)), ← toNat_network,
    Nat.mod_eq_of_lt c.network.isLt]

/-- The octets of a prefix, as `encode_nlri` cuts them. -/
def netOctets {n : Nat} (c : Cidr (8 * n)) : List Byte :=
  (beBytes n c.network.toNat).take ((c.len.val + 7) / 8)

theorem length_netOctets {n : Nat} (c : Cidr (8 * n)) :
    (netOctets c).length = (c.len.val + 7) / 8 := by
  have hlen : c.len.val ≤ 8 * n := Nat.le_of_lt_succ c.len.isLt
  rw [netOctets, List.length_take, length_beBytes]
  omega

theorem readCidr_takes {n : Nat} (hn : 8 * n < 2 ^ 8) (c : Cidr (8 * n)) :
    Takes (readCidr (8 * n))
      (BitVec.ofNat 8 c.len.val :: netOctets c) c.trunc := by
  have hlen : c.len.val ≤ 8 * n := Nat.le_of_lt_succ c.len.isLt
  have hbits : (BitVec.ofNat 8 c.len.val).toNat = c.len.val :=
    toNat_ofNat8 (by omega)
  apply Takes.bind (x := [BitVec.ofNat 8 c.len.val]) (Takes.u8 _ ())
  rw [dif_pos (by rw [hbits]; exact hlen)]
  have hread := (Takes.take (e := ()) (length_netOctets c)).last fun octets =>
    (⟨prefixAddr (8 * n) c.len.val c.len.val octets, c.len⟩ : Cidr (8 * n))
  rw [netOctets, prefixAddr_take] at hread
  simp only [hbits]
  exact hread

/-- The AFI of a prefix. -/
def afiNet : IpNet → BitVec 16
  | .v4 _ => 1
  | .v6 _ => 2

/-- A peer reads the prefix without its host bits. -/
theorem readNet_takes (net : IpNet) :
    Takes (readNet (afiNet net)) (encodeNlri net) net.trunc := by
  cases net with
  | v4 c => exact (readCidr_takes (n := 4) (by decide) c).last IpNet.v4
  | v6 c => exact (readCidr_takes (n := 16) (by decide) c).last IpNet.v6

theorem encodeNlri_ne_nil (net : IpNet) : encodeNlri net ≠ [] := by
  rw [encodeNlri]
  exact List.cons_ne_nil _ _

theorem all_readNet (net : IpNet) :
    all (readNet (afiNet net)) () (encodeNlri net) = .ok [net.trunc] := by
  have htakes : ∀ n ∈ [net],
      Takes (readNet (afiNet net)) (encodeNlri n) n.trunc := by
    intro n hn
    rw [List.mem_singleton.mp hn]
    exact readNet_takes net
  have h := all_flatMap (e := ()) htakes fun n _ => encodeNlri_ne_nil n
  rwa [List.flatMap_singleton] at h

theorem length_encodeNlri (net : IpNet) :
    (encodeNlri net).length = 1 + (net.prefixLen + 7) / 8 := by
  cases net with
  | v4 c =>
      have h := length_netOctets (n := 4) c
      rw [Nat.add_comm]
      exact congrArg (· + 1) h
  | v6 c =>
      have h := length_netOctets (n := 16) c
      rw [Nat.add_comm]
      exact congrArg (· + 1) h

-- ============================================================= attributes

/-- The bytes of an attribute. -/
def Attr.wire (a : Attr) : List Byte :=
  if a.value.length < 2 ^ 8 then
    a.flags :: a.type :: BitVec.ofNat 8 a.value.length :: a.value
  else
    (a.flags ||| flagExtendedLen) :: a.type
      :: (be16 (BitVec.ofNat 16 a.value.length) ++ a.value)

/-- An attribute that has a length field to be written with. -/
structure Attr.Fits (a : Attr) : Prop where
  short : a.value.length < 2 ^ 16
  plain : a.flags &&& 0x1F = 0

theorem plain_wellKnown : flagWellKnown &&& 0x1F = 0 := by decide

theorem plain_optTrans : flagOptTrans &&& 0x1F = 0 := by decide

theorem plain_optNonTrans : flagOptNonTrans &&& 0x1F = 0 := by decide

theorem pushAttr_eq (flags typeCode : Byte) (value : List Byte) :
    pushAttr flags typeCode value
      = if value.length < 2 ^ 16 then
          some (Attr.wire ⟨flags, typeCode, value⟩)
        else none := by
  unfold pushAttr Attr.wire
  by_cases h8 : value.length < 2 ^ 8
  · rw [u8Len_of_lt h8, if_pos (by omega), if_pos h8]
  · have hnone : u8Len value.length = none := if_neg h8
    rw [hnone, if_neg h8]
    by_cases h16 : value.length < 2 ^ 16
    · rw [u16Len_of_lt h16, if_pos h16]
      rfl
    · have hnone : u16Len value.length = none := if_neg h16
      rw [hnone, if_neg h16]
      rfl

theorem pushAttr_of_lt (flags typeCode : Byte) {value : List Byte}
    (h : value.length < 2 ^ 16) :
    pushAttr flags typeCode value
      = some (Attr.wire ⟨flags, typeCode, value⟩) := by
  rw [pushAttr_eq, if_pos h]

theorem pushAttr_some {flags typeCode : Byte} {value bytes : List Byte}
    (h : pushAttr flags typeCode value = some bytes) :
    value.length < 2 ^ 16 ∧ bytes = Attr.wire ⟨flags, typeCode, value⟩ := by
  rw [pushAttr_eq] at h
  split at h
  · next hlt =>
    cases h
    exact ⟨hlt, rfl⟩
  · cases h

/-- The size of an attribute with a value of `n` bytes. -/
def attrSize (n : Nat) : Nat := n + if n < 256 then 3 else 4

theorem length_wire (a : Attr) : a.wire.length = attrSize a.value.length := by
  unfold Attr.wire attrSize
  by_cases h : a.value.length < 2 ^ 8
  · rw [if_pos h, if_pos (show _ < 256 from h)]
    rfl
  · rw [if_neg h, if_neg (show ¬_ < 256 from h)]
    simp only [List.length_cons, List.length_append, length_be16]
    omega

theorem wire_ne_nil (a : Attr) : a.wire ≠ [] := by
  unfold Attr.wire
  split <;> exact List.cons_ne_nil _ _

/-- Flags without the low bits: the extended-length bit is added and taken
away. -/
theorem plain_flags {flags : Byte} (h : flags &&& 0x1F = 0) :
    flags &&& 0x10 = 0 ∧ flags &&& 0xEF = flags
      ∧ (flags ||| flagExtendedLen) &&& 0x10 ≠ 0
      ∧ (flags ||| flagExtendedLen) &&& 0xEF = flags := by
  revert flags
  decide

/-- A peer reads the attribute that was pushed, whatever its length form. -/
theorem readAttr_takes {a : Attr} (h : a.Fits) : Takes readAttr a.wire a := by
  obtain ⟨hclear, hkeep, hset, hback⟩ := plain_flags h.plain
  have hvalue : Takes (take a.value.length ()) a.value a.value :=
    Takes.take rfl ()
  unfold Attr.wire
  by_cases hlen : a.value.length < 2 ^ 8
  · rw [if_pos hlen]
    apply Takes.bind (x := [a.flags]) (Takes.u8 _ ())
    apply Takes.bind (x := [a.type]) (Takes.u8 _ ())
    have hread : Takes (readAttrLen a.flags)
        [BitVec.ofNat 8 a.value.length] a.value.length := by
      rw [readAttrLen, if_pos hclear]
      have := (Takes.u8 (BitVec.ofNat 8 a.value.length) ()).last
        BitVec.toNat
      rwa [toNat_ofNat8 hlen] at this
    apply Takes.bind (x := [_]) hread
    rw [hkeep]
    exact hvalue.last fun v => (⟨a.flags, a.type, v⟩ : Attr)
  · rw [if_neg hlen]
    apply Takes.bind (x := [a.flags ||| flagExtendedLen]) (Takes.u8 _ ())
    apply Takes.bind (x := [a.type]) (Takes.u8 _ ())
    have hread : Takes (readAttrLen (a.flags ||| flagExtendedLen))
        (be16 (BitVec.ofNat 16 a.value.length)) a.value.length := by
      rw [readAttrLen, if_neg hset]
      have hn := toNat_ofNat16 h.short
      rw [← List.append_nil (be16 _)]
      apply Takes.bind (Takes.u16 _ ())
      rw [hn]
      exact (Takes.require (by omega) ()).bind (Takes.pure _)
    apply Takes.bind hread
    rw [hback]
    exact hvalue.last fun v => (⟨a.flags, a.type, v⟩ : Attr)

-- =============================================================== meanings

theorem meaning_origin (o : Origin) :
    meaning ⟨flagWellKnown, attrOrigin, [o.wire]⟩ = .ok (.origin o) := by
  have hread : readOrigin [o.wire] = .ok o := by cases o <;> rfl
  have h : meaning ⟨flagWellKnown, attrOrigin, [o.wire]⟩
      = (readOrigin [o.wire]).map .origin :=
    if_pos (show FlagsFit 0x40 flagWellKnown by decide)
  rw [h, hread]
  rfl

theorem meaning_asPath :
    meaning ⟨flagWellKnown, attrAsPath, []⟩ = .ok (.asPath []) := by
  decide

theorem meaning_communities (v : List Byte) :
    meaning ⟨flagOptTrans, attrCommunities, v⟩
      = (readList readCommunity v).map .communities :=
  if_pos (show FlagsFit 0xC0 flagOptTrans by decide)

theorem meaning_large (v : List Byte) :
    meaning ⟨flagOptTrans, attrLargeCommunities, v⟩
      = (readList readLarge v).map .large :=
  if_pos (show FlagsFit 0xC0 flagOptTrans by decide)

theorem meaning_extended (v : List Byte) :
    meaning ⟨flagOptTrans, attrExtendedCommunities, v⟩
      = (readList (take 8 ()) v).map .extended :=
  if_pos (show FlagsFit 0xC0 flagOptTrans by decide)

theorem meaning_reach (v : List Byte) :
    meaning ⟨flagOptNonTrans, attrMpReachNlri, v⟩ = readReach v :=
  if_pos (show FlagsFit 0x80 flagOptNonTrans by decide)

theorem meaning_unreach (v : List Byte) :
    meaning ⟨flagOptNonTrans, attrMpUnreachNlri, v⟩ = readUnreach v :=
  if_pos (show FlagsFit 0x80 flagOptNonTrans by decide)

theorem meaning_nextHop (nh : BitVec 32) :
    meaning ⟨flagWellKnown, attrNextHop, (IpAddr.v4 nh).octets⟩
      = .ok (.nextHop (.v4 nh)) := by
  have hhop : nextHopOf 1 (IpAddr.v4 nh).octets = some (.v4 nh) := by
    rw [nextHopOf, if_pos ⟨rfl, length_beBytes 4 _⟩]
    exact congrArg (fun a => some (IpAddr.v4 a)) (ofNat_octets (n := 4) nh)
  have h : meaning ⟨flagWellKnown, attrNextHop, (IpAddr.v4 nh).octets⟩
      = readNextHop (IpAddr.v4 nh).octets :=
    if_pos (show FlagsFit 0x40 flagWellKnown by decide)
  rw [h, readNextHop, hhop]

/-- The routes of MP_REACH_NLRI, behind AFI, SAFI and next hop. -/
theorem readReach_value (afi : BitVec 16) (safi : Byte)
    (nextHop nlri : List Byte) (h : nextHop.length < 2 ^ 8) :
    readReach (be16 afi ++ (safi :: BitVec.ofNat 8 nextHop.length
        :: (nextHop ++ 0 :: nlri)))
      = (readNlri afi safi nlri).map (.reach (nextHopOf afi nextHop)) := by
  have hhead : Takes readReachHead (be16 afi ++ (safi
      :: BitVec.ofNat 8 nextHop.length :: (nextHop ++ [0])))
      (afi, safi, nextHop) := by
    apply Takes.bind (Takes.u16 afi ())
    apply Takes.bind (x := [safi]) (Takes.u8 safi ())
    apply Takes.bind (x := [_]) (Takes.u8 _ ())
    apply Takes.bind (Takes.take (toNat_ofNat8 h).symm ())
    exact (Takes.u8 0 ()).last fun _ => (afi, safi, nextHop)
  have hrun := hhead nlri
  simp only [List.append_assoc, List.cons_append, List.nil_append] at hrun
  rw [readReach, hrun]

theorem readUnreach_value (afi : BitVec 16) (safi : Byte)
    (nlri : List Byte) :
    readUnreach (be16 afi ++ safi :: nlri)
      = (readNlri afi safi nlri).map .unreach := by
  have hhead : Takes readUnreachHead (be16 afi ++ [safi]) (afi, safi) :=
    (Takes.u16 afi ()).bind ((Takes.u8 safi ()).last (afi, ·))
  have hrun : readUnreachHead (be16 afi ++ safi :: nlri)
      = .ok ((afi, safi), nlri) := hhead nlri
  rw [readUnreach, hrun]

theorem readNlri_net (net : IpNet) :
    readNlri (afiNet net) safiUnicast (encodeNlri net)
      = .ok ⟨[net.trunc], []⟩ := by
  have hsafi : safiUnicast = 1 := rfl
  rw [readNlri, if_pos hsafi, all_readNet]
  rfl

-- =============================================================== messages

theorem readHeader_encodeHeader {body msg : List Byte}
    (h : encodeHeader 2 body = some msg) :
    readHeader msg = .ok (msg.length, body) := by
  have hlen := encodeHeader_length h
  obtain ⟨hfit, rfl⟩ := encodeHeader_some h
  have hmarker : marker.length = 16 := List.length_replicate
  have hones : marker = List.replicate 16 0xFF := rfl
  rw [hlen, readHeader, (Takes.take hmarker ()).run_bind,
    ← List.nil_append (be16 _ ++ _), (Takes.require hones ()).run_bind,
    (Takes.u16 _ ()).run_bind, toNat_ofNat16 hfit]
  rfl

/-- An UPDATE that writes these attributes. -/
structure Message (withdrawn : List Byte) (attrs : List Attr)
    (nlri msg : List Byte) : Prop where
  fits : ∀ a ∈ attrs, a.Fits
  withdrawnFits : withdrawn.length < 2 ^ 16
  attrsFit : (attrs.flatMap Attr.wire).length < 2 ^ 16
  made : encodeHeader 2 (updateBody (BitVec.ofNat 16 withdrawn.length)
    (BitVec.ofNat 16 (attrs.flatMap Attr.wire).length) withdrawn
    (attrs.flatMap Attr.wire) nlri) = some msg

theorem exists_message (withdrawn nlri : List Byte) {attrs : List Attr}
    (hfits : ∀ a ∈ attrs, a.Fits)
    (hsize : headerLen + 4 + withdrawn.length
      + (attrs.flatMap Attr.wire).length + nlri.length < 2 ^ 16) :
    ∃ msg, Message withdrawn attrs nlri msg := by
  refine ⟨_, hfits, by omega, by omega, encodeHeader_of_lt 2 _ ?_⟩
  simp only [updateBody, List.length_append, length_be16]
  omega

/-- An UPDATE of one short attribute, as the two multiprotocol withdrawals
build it. -/
theorem message_single {a : Attr} (hplain : a.flags &&& 0x1F = 0)
    (hlen : a.value.length < 256) :
    ∃ msg, (do
        let attrs ← pushAttr a.flags a.type a.value
        let totalAttrLen ← u16Len attrs.length
        encodeHeader 2 (updateBody 0 totalAttrLen [] attrs [])) = some msg
      ∧ Message [] [a] [] msg := by
  have hwire := length_wire a
  rw [attrSize, if_pos hlen] at hwire
  have hflat : [a].flatMap Attr.wire = a.wire := List.flatMap_singleton _ _
  have hfits : ∀ b ∈ [a], b.Fits := by
    intro b hb
    rw [List.mem_singleton.mp hb]
    exact ⟨by omega, hplain⟩
  obtain ⟨msg, hmsg⟩ := exists_message [] [] hfits (by
    rw [hflat, hwire]
    simp only [headerLen, List.length_nil]
    omega)
  refine ⟨msg, ?_, hmsg⟩
  have hmade := hmsg.made
  rw [hflat] at hmade
  rw [pushAttr_of_lt _ _ (hfits a List.mem_cons_self).short]
  show (u16Len a.wire.length >>= _) = _
  rw [u16Len_of_lt (by omega)]
  exact hmade

namespace Message

variable {withdrawn nlri msg : List Byte} {attrs : List Attr}

theorem length (h : Message withdrawn attrs nlri msg) :
    msg.length = headerLen + 4 + withdrawn.length
      + (attrs.flatMap Attr.wire).length + nlri.length := by
  rw [encodeHeader_length h.made]
  simp only [updateBody, List.length_append, length_be16]
  omega

theorem single_short {a : Attr} (h : Message [] [a] [] msg)
    (hlen : a.value.length < 256) : msg.length ≤ 4096 := by
  rw [h.length, List.flatMap_singleton, length_wire, attrSize,
    if_pos hlen]
  simp only [headerLen, List.length_nil]
  omega

theorem readBody_body (h : Message withdrawn attrs nlri msg) :
    readBody (updateBody (BitVec.ofNat 16 withdrawn.length)
        (BitVec.ofNat 16 (attrs.flatMap Attr.wire).length) withdrawn
        (attrs.flatMap Attr.wire) nlri)
      = .ok ((withdrawn, attrs.flatMap Attr.wire), nlri) := by
  have hw := toNat_ofNat16 h.withdrawnFits
  have ha := toNat_ofNat16 h.attrsFit
  rw [readBody, updateBody, (Takes.u16 _ ()).run_bind, hw,
    (Takes.take rfl ()).run_bind, (Takes.u16 _ ()).run_bind, ha]
  exact ((Takes.take rfl ()).last (withdrawn, ·)) nlri

theorem parts_msg (h : Message withdrawn attrs nlri msg) :
    parts msg
      = if msg.length ≤ 4096 then
          .ok (withdrawn, attrs.flatMap Attr.wire, nlri)
        else .error () := by
  rw [parts, readHeader_encodeHeader h.made]
  show (if _ then _ else _) = _
  by_cases hmax : msg.length ≤ 4096
  · rw [if_pos ⟨rfl, hmax⟩, if_pos hmax, h.readBody_body]
  · rw [if_neg fun h => hmax h.2, if_neg hmax]

theorem attributes_msg (h : Message withdrawn attrs nlri msg)
    (hmax : msg.length ≤ 4096) : attributes msg = .ok attrs := by
  have hall : all readAttr () (attrs.flatMap Attr.wire)
      = .ok (attrs.map fun a => a) :=
    all_flatMap (fun a ha => readAttr_takes (h.fits a ha))
      fun a _ => wire_ne_nil a
  rw [attributes, h.parts_msg, if_pos hmax]
  show all readAttr () (attrs.flatMap Attr.wire) = _
  rw [hall, List.map_id']

theorem parse_msg (h : Message withdrawn attrs nlri msg)
    (hmax : msg.length ≤ 4096) {gone nets : List IpNet}
    {ms : List Meaning} (hgone : all (readNet 1) () withdrawn = .ok gone)
    (hms : attrs.mapM meaning = .ok ms)
    (hnets : all (readNet 1) () nlri = .ok nets) :
    parse msg = assemble gone attrs ms nets := by
  rw [parse, h.parts_msg, if_pos hmax, h.attributes_msg hmax]
  show (all (readNet 1) () withdrawn >>= _) = _
  rw [hgone]
  show (attrs.mapM meaning >>= _) = _
  rw [hms]
  show (all (readNet 1) () nlri >>= _) = _
  rw [hnets]
  rfl

theorem parse_long (h : Message withdrawn attrs nlri msg)
    (hmax : ¬msg.length ≤ 4096) : parse msg = .error () := by
  rw [parse, h.parts_msg, if_neg hmax]
  rfl

end Message

theorem length_of_parse {msg : List Byte} {u : Update}
    (h : parse msg = .ok u) : msg.length ≤ 4096 := by
  by_contra hmax
  have hparts : parts msg = .error () := by
    unfold parts
    split
    · rfl
    · next len body _ =>
      have hlen : ¬(len = msg.length ∧ len ≤ 4096) := fun hlen =>
        hmax (hlen.1 ▸ hlen.2)
      rw [if_neg hlen]
  rw [parse, hparts] at h
  cases h

end Blackwall.Bgp.Peer
