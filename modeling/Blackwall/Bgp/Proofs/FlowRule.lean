/-
Announcing and withdrawing a FlowSpec rule, as a peer reads it.

A rule's NLRI is a list of components, each read back on its own
(`readComponent_takes`), so the peer has the masked destination and the
matches again, and two rules of one family with the same NLRI are the same
match. Rules of different families do not meet either
(`encodeComponents_family`): the IPv6 offset byte moves what follows, and
a component's type is never an operator.
-/
import Blackwall.Bgp.Proofs.Wire

namespace Blackwall.Bgp

open Base Reader Peer

-- ============================================================= components

/-- The match on one value. -/
def equals (type : Byte) (value : Nat) : FlowComponent :=
  .ops type [⟨false, 1, value⟩]

/-- The bytes of a destination prefix. -/
def dstBytes : IpNet → List Byte
  | .v4 c => BitVec.ofNat 8 c.len.val :: netOctets (n := 4) c
  | .v6 c => BitVec.ofNat 8 c.len.val :: 0 :: netOctets (n := 16) c

/-- The matches of a rule, with their bytes. -/
def matchItems (rule : FlowSpecRule) : List (List Byte × FlowComponent) :=
  (match rule.protocol with
    | some proto => [(compIpProto :: pushNumericEq proto.toNat 1,
        equals compIpProto proto.toNat)]
    | none => [])
  ++ (match rule.dstPort with
    | some port => [(compDstPort :: pushNumericEq port.toNat
          (if port.toNat < 256 then 1 else 2),
        equals compDstPort port.toNat)]
    | none => [])

/-- The components of a rule, with their bytes. -/
def flowItems (rule : FlowSpecRule) : List (List Byte × FlowComponent) :=
  (compDstPrefix :: dstBytes rule.dst, .dst 0 rule.dst.trunc)
    :: matchItems rule

/-- What a peer should read of a rule's NLRI. -/
def flowOf (rule : FlowSpecRule) : Flow where
  afi := afiOf rule
  components := .dst 0 rule.dst.trunc
    :: ((rule.protocol.map fun p => equals 3 p.toNat).toList
      ++ (rule.dstPort.map fun p => equals 5 p.toNat).toList)

theorem flowItems_components (rule : FlowSpecRule) :
    (flowItems rule).map (·.2) = (flowOf rule).components := by
  obtain ⟨dst, protocol, dstPort, action⟩ := rule
  cases protocol <;> cases dstPort <;> rfl

theorem encodeMatches_eq (rule : FlowSpecRule) :
    encodeMatches rule = (matchItems rule).flatMap (·.1) := by
  obtain ⟨dst, protocol, dstPort, action⟩ := rule
  cases protocol <;> cases dstPort <;> simp [encodeMatches, matchItems]

theorem encodeComponents_eq (rule : FlowSpecRule) :
    encodeComponents rule
      = compDstPrefix :: (dstBytes rule.dst ++ encodeMatches rule) := by
  obtain ⟨dst, protocol, dstPort, action⟩ := rule
  cases dst <;> rfl

theorem encodeComponents_items (rule : FlowSpecRule) :
    encodeComponents rule = (flowItems rule).flatMap (·.1) := by
  rw [encodeComponents_eq, encodeMatches_eq, flowItems, List.flatMap_cons,
    List.cons_append]

theorem pushNumericEq_one (v : Nat) :
    pushNumericEq v 1 = 0x81 :: beBytes 1 v := by
  rw [← drop_beBytes (n := 8) (by decide) v]
  rfl

theorem pushNumericEq_two (v : Nat) :
    pushNumericEq v 2 = 0x91 :: beBytes 2 v := by
  rw [← drop_beBytes (n := 8) (by decide) v]
  rfl

theorem readOps_takes {op : Byte} {k v : Nat} (hv : v < 256 ^ k)
    (hlen : 2 ^ ((op >>> 4) &&& 3).toNat = k)
    (hflags : op &&& 0x80 ≠ 0 ∧ op &&& 0x40 = 0 ∧ op &&& 0x0F = 1) :
    Takes readOps (op :: beBytes k v) [⟨false, 1, v⟩] := by
  intro rest
  obtain ⟨hend, hconj, heq⟩ := hflags
  have hvalue := (Takes.take (e := ()) (length_beBytes k v)).run_bind
    (k := fun value => (do
      let here : FlowOp := ⟨op &&& 0x40 ≠ 0, op &&& 0x0F, beNat value⟩
      if op &&& 0x80 ≠ 0 then return [here]
      else do
        let others ← readOpsFuel (beBytes k v ++ rest).length
        return here :: others)) rest
  show (take (2 ^ ((op >>> 4) &&& 3).toNat) () >>= _) (beBytes k v ++ rest)
    = _
  rw [hlen]
  refine hvalue.trans ?_
  rw [if_pos hend, beNat_beBytes, Nat.mod_eq_of_lt hv, hconj, heq]
  rfl

theorem readComponent_ops {type op : Byte} {k v : Nat} (hv : v < 256 ^ k)
    (hlen : 2 ^ ((op >>> 4) &&& 3).toNat = k)
    (hflags : op &&& 0x80 ≠ 0 ∧ op &&& 0x40 = 0 ∧ op &&& 0x0F = 1)
    (htype : 3 ≤ type.toNat ∧ type.toNat ≤ 13) (afi : BitVec 16) :
    Takes (readComponent afi) (type :: op :: beBytes k v)
      (equals type v) := by
  have h1 : type ≠ 1 := by rintro rfl; exact absurd htype.1 (by decide)
  have h2 : type ≠ 2 := by rintro rfl; exact absurd htype.1 (by decide)
  apply Takes.bind (x := [type]) (Takes.u8 type ())
  rw [if_neg h1, if_neg h2, ← List.nil_append (op :: _)]
  apply Takes.bind (Takes.require htype ())
  exact (readOps_takes hv hlen hflags).last (FlowComponent.ops type)

theorem readComponent_dst (net : IpNet) :
    Takes (readComponent (afiNet net)) (compDstPrefix :: dstBytes net)
      (.dst 0 net.trunc) := by
  suffices hread : Takes (readFlowPrefix (afiNet net)) (dstBytes net)
      (0, net.trunc) by
    apply Takes.bind (x := [compDstPrefix]) (Takes.u8 _ ())
    rw [if_pos (by rfl)]
    exact hread.last fun p => FlowComponent.dst p.1 p.2
  cases net with
  | v4 c =>
      exact (readCidr_takes (n := 4) (by decide) c).last
        fun c => (0, IpNet.v4 c)
  | v6 c =>
      have hlen : c.len.val ≤ 128 := Nat.le_of_lt_succ c.len.isLt
      have hbits : (BitVec.ofNat 8 c.len.val).toNat = c.len.val :=
        toNat_ofNat8 (by omega)
      have hoffset : (0 : Byte).toNat < (BitVec.ofNat 8 c.len.val).toNat
          ∨ BitVec.ofNat 8 c.len.val = 0 ∧ (0 : Byte) = 0 := by
        by_cases hz : c.len.val = 0
        · exact .inr ⟨by rw [hz]; rfl, rfl⟩
        · exact .inl (by rw [hbits]; exact Nat.pos_of_ne_zero hz)
      apply Takes.bind (x := [BitVec.ofNat 8 c.len.val]) (Takes.u8 _ ())
      apply Takes.bind (x := [0]) (Takes.u8 0 ())
      apply Takes.bind (x := []) (Takes.require hoffset ())
      rw [dif_pos (by rw [hbits]; exact hlen)]
      have hread := (Takes.take (e := ()) (length_netOctets (n := 16) c)).last
        fun octets => ((0 : Nat), IpNet.v6
          ⟨prefixAddr 128 c.len.val c.len.val octets, c.len⟩)
      rw [netOctets, prefixAddr_take (n := 16)] at hread
      simp only [hbits]
      exact hread

theorem readComponent_proto (proto : BitVec 8) (afi : BitVec 16) :
    Takes (readComponent afi) (compIpProto :: pushNumericEq proto.toNat 1)
      (equals compIpProto proto.toNat) := by
  rw [pushNumericEq_one]
  exact readComponent_ops proto.isLt (by decide) (by decide) (by decide) afi

/-- A port in one byte or two, as its value needs. -/
theorem readComponent_port (port : BitVec 16) (afi : BitVec 16) :
    Takes (readComponent afi)
      (compDstPort
        :: pushNumericEq port.toNat (if port.toNat < 256 then 1 else 2))
      (equals compDstPort port.toNat) := by
  by_cases h : port.toNat < 256
  · rw [if_pos h, pushNumericEq_one]
    exact readComponent_ops h (by decide) (by decide) (by decide) afi
  · rw [if_neg h, pushNumericEq_two]
    exact readComponent_ops port.isLt (by decide) (by decide) (by decide) afi

theorem afiNet_dst (rule : FlowSpecRule) : afiNet rule.dst = afiOf rule := by
  obtain ⟨dst, protocol, dstPort, action⟩ := rule
  cases dst <;> rfl

theorem mem_matchItems {rule : FlowSpecRule}
    {item : List Byte × FlowComponent} (h : item ∈ matchItems rule) :
    (∃ proto : BitVec 8,
      item = (compIpProto :: pushNumericEq proto.toNat 1,
        equals compIpProto proto.toNat))
    ∨ ∃ port : BitVec 16,
      item = (compDstPort
          :: pushNumericEq port.toNat (if port.toNat < 256 then 1 else 2),
        equals compDstPort port.toNat) := by
  unfold matchItems at h
  rcases List.mem_append.mp h with h | h
  · split at h
    · next proto _ => exact .inl ⟨proto, List.mem_singleton.mp h⟩
    · cases h
  · split at h
    · next port _ => exact .inr ⟨port, List.mem_singleton.mp h⟩
    · cases h

theorem readComponent_takes (rule : FlowSpecRule) :
    ∀ item ∈ flowItems rule,
      Takes (readComponent (afiOf rule)) item.1 item.2 := by
  intro item hitem
  rcases List.mem_cons.mp hitem with rfl | hitem
  · rw [← afiNet_dst]
    exact readComponent_dst rule.dst
  · obtain ⟨proto, rfl⟩ | ⟨port, rfl⟩ := mem_matchItems hitem
    · exact readComponent_proto proto _
    · exact readComponent_port port _

theorem flowItems_ne_nil (rule : FlowSpecRule) :
    ∀ item ∈ flowItems rule, item.1 ≠ [] := by
  intro item hitem
  rcases List.mem_cons.mp hitem with rfl | hitem
  · exact List.cons_ne_nil _ _
  · obtain ⟨proto, rfl⟩ | ⟨port, rfl⟩ := mem_matchItems hitem
    · exact List.cons_ne_nil _ _
    · exact List.cons_ne_nil _ _

/-- The components are read back one by one. -/
theorem all_components (rule : FlowSpecRule) :
    all (readComponent (afiOf rule)) () (encodeComponents rule)
      = .ok (flowOf rule).components := by
  rw [encodeComponents_items, ← flowItems_components]
  exact all_flatMap (readComponent_takes rule) (flowItems_ne_nil rule)

-- =================================================================== NLRI

theorem length_dstBytes (net : IpNet) : (dstBytes net).length ≤ 18 := by
  cases net with
  | v4 c =>
      have h := length_netOctets (n := 4) c
      have := c.len.isLt
      simp only [dstBytes, List.length_cons]
      omega
  | v6 c =>
      have h := length_netOctets (n := 16) c
      have := c.len.isLt
      simp only [dstBytes, List.length_cons]
      omega

theorem length_pushNumericEq (v : Nat) {k : Nat} (h : k ≤ 8) :
    (pushNumericEq v k).length = k + 1 := by
  rw [pushNumericEq, List.length_cons, drop_beBytes h, length_beBytes]

theorem length_encodeMatches (rule : FlowSpecRule) :
    (encodeMatches rule).length ≤ 7 := by
  unfold encodeMatches
  rw [List.length_append]
  refine Nat.add_le_add (b := 3) (d := 4) ?_ ?_
  · split
    · rw [List.length_cons, length_pushNumericEq _ (by decide)]
    · exact Nat.zero_le _
  · split
    · next port _ =>
      by_cases h : port.toNat < 256
      · rw [if_pos h, List.length_cons, length_pushNumericEq _ (by decide)]
        decide
      · rw [if_neg h, List.length_cons, length_pushNumericEq _ (by decide)]
    · exact Nat.zero_le _

theorem length_encodeComponents (rule : FlowSpecRule) :
    (encodeComponents rule).length ≤ 26 := by
  have h₁ := length_dstBytes rule.dst
  have h₂ := length_encodeMatches rule
  rw [encodeComponents_eq, List.length_cons, List.length_append]
  omega

/-- The NLRI of a rule: one length byte is enough. -/
def flowNlri (rule : FlowSpecRule) : List Byte :=
  BitVec.ofNat 8 (encodeComponents rule).length :: encodeComponents rule

theorem encodeFlowspecNlri_eq (rule : FlowSpecRule) :
    encodeFlowspecNlri rule = some (flowNlri rule) := by
  have hle := length_encodeComponents rule
  have hlt : BitVec.ofNat 8 (encodeComponents rule).length < 0xF0 := by
    rw [BitVec.lt_def, toNat_ofNat8 (by omega)]
    exact Nat.lt_of_le_of_lt hle (by decide)
  rw [encodeFlowspecNlri, u8Len_of_lt (by omega)]
  exact if_pos hlt

theorem flowOf_ascending (rule : FlowSpecRule) :
    ((flowOf rule).components.map (·.type.toNat)).Pairwise (· < ·) := by
  obtain ⟨dst, protocol, dstPort, action⟩ := rule
  cases protocol <;> cases dstPort <;>
    simp [flowOf, FlowComponent.type, equals]

/-- A peer reads the rule's components in the NLRI. -/
theorem readFlow_takes (rule : FlowSpecRule) :
    Takes (readFlow (afiOf rule)) (flowNlri rule) (flowOf rule) := by
  have hle := length_encodeComponents rule
  have hafi : afiOf rule = 1 ∨ afiOf rule = 2 := by
    rw [← afiNet_dst]
    cases rule.dst
    · exact .inl rfl
    · exact .inr rfl
  have hlen : Takes readFlowLen
      [BitVec.ofNat 8 (encodeComponents rule).length]
      (encodeComponents rule).length := by
    have hn : (BitVec.ofNat 8 (encodeComponents rule).length).toNat
        = (encodeComponents rule).length := toNat_ofNat8 (by omega)
    apply Takes.bind (x := [_]) (y := []) (Takes.u8 _ ())
    rw [if_pos (by rw [hn]; omega), hn]
    exact Takes.pure _
  intro rest
  show (require (afiOf rule = 1 ∨ afiOf rule = 2) () >>= _)
    ([] ++ ([_] ++ (encodeComponents rule ++ rest))) = _
  rw [(Takes.require hafi ()).run_bind, hlen.run_bind,
    (Takes.take rfl ()).run_bind, ← List.nil_append rest,
    (Takes.lift (all_components rule)).run_bind, ← List.nil_append rest,
    (Takes.require (flowOf_ascending rule) ()).run_bind]
  rfl

theorem flowNlri_ne_nil (rule : FlowSpecRule) : flowNlri rule ≠ [] :=
  List.cons_ne_nil _ _

theorem length_flowNlri (rule : FlowSpecRule) :
    (flowNlri rule).length ≤ 27 :=
  Nat.succ_le_succ (length_encodeComponents rule)

theorem readNlri_flow (rule : FlowSpecRule) :
    readNlri (afiOf rule) safiFlowspec (flowNlri rule)
      = .ok ⟨[], [flowOf rule]⟩ := by
  have htakes : ∀ r ∈ [rule],
      Takes (readFlow (afiOf rule)) (flowNlri r) (flowOf r) := by
    intro r hr
    rw [List.mem_singleton.mp hr]
    exact readFlow_takes rule
  have hall := all_flatMap (e := ()) htakes fun r _ => flowNlri_ne_nil r
  rw [List.flatMap_singleton] at hall
  rw [readNlri, if_neg (by decide), if_pos (by rfl), hall]
  rfl

-- =============================================================== messages

/-- MP_REACH_NLRI of a rule, without a next hop. -/
def flowReachAttr (rule : FlowSpecRule) : Attr :=
  ⟨flagOptNonTrans, attrMpReachNlri,
    be16 (afiOf rule) ++ (safiFlowspec :: 0 :: 0 :: flowNlri rule)⟩

/-- MP_UNREACH_NLRI of a rule. -/
def flowUnreachAttr (rule : FlowSpecRule) : Attr :=
  ⟨flagOptNonTrans, attrMpUnreachNlri,
    be16 (afiOf rule) ++ safiFlowspec :: flowNlri rule⟩

/-- The attributes of an announced rule. -/
def flowAttrs (rule : FlowSpecRule) : List Attr :=
  [⟨flagWellKnown, attrOrigin, [Origin.igp.wire]⟩,
    ⟨flagWellKnown, attrAsPath, []⟩,
    ⟨flagOptTrans, attrExtendedCommunities,
      trafficRateCommunity rule.action.rate⟩,
    flowReachAttr rule]

theorem length_flowReachAttr (rule : FlowSpecRule) :
    (flowReachAttr rule).value.length ≤ 32 := by
  have := length_flowNlri rule
  simp only [flowReachAttr, List.length_append, List.length_cons,
    length_be16]
  omega

theorem flowUnreachAttr_short (rule : FlowSpecRule) :
    (flowUnreachAttr rule).value.length < 256 := by
  have := length_flowNlri rule
  simp only [flowUnreachAttr, List.length_append, List.length_cons,
    length_be16]
  omega

theorem length_trafficRate (rate : F32) :
    (trafficRateCommunity rate).length = 8 := rfl

theorem flowAttrs_fit (rule : FlowSpecRule) :
    ∀ a ∈ flowAttrs rule, a.Fits := by
  have hreach := length_flowReachAttr rule
  intro a ha
  simp only [flowAttrs, List.mem_cons, List.not_mem_nil, or_false] at ha
  rcases ha with rfl | rfl | rfl | rfl
  · exact ⟨by decide, plain_wellKnown⟩
  · exact ⟨by decide, plain_wellKnown⟩
  · exact ⟨by rw [length_trafficRate]; decide, plain_optTrans⟩
  · exact ⟨by omega, plain_optNonTrans⟩

theorem length_flowAttrs (rule : FlowSpecRule) :
    ((flowAttrs rule).flatMap Attr.wire).length ≤ 60 := by
  have hreach := length_flowReachAttr rule
  have hattr : attrSize (flowReachAttr rule).value.length ≤ 36 := by
    unfold attrSize
    split <;> omega
  simp only [flowAttrs, List.flatMap_cons, List.flatMap_nil,
    List.length_append, length_wire, length_trafficRate]
  show 4 + (3 + (11 + (attrSize _ + 0))) ≤ 60
  omega

theorem buildFlowspecAnnounce_message (rule : FlowSpecRule) :
    ∃ msg, buildFlowspecAnnounce rule = some msg
      ∧ Message [] (flowAttrs rule) [] msg := by
  have hlen := length_flowAttrs rule
  have hfits := flowAttrs_fit rule
  obtain ⟨msg, hmsg⟩ := exists_message [] [] hfits (by
    simp only [headerLen, List.length_nil]; omega)
  refine ⟨msg, ?_, hmsg⟩
  have hwires : (flowAttrs rule).flatMap Attr.wire
      = Attr.wire ⟨flagWellKnown, attrOrigin, [Origin.igp.wire]⟩
        ++ (Attr.wire ⟨flagWellKnown, attrAsPath, []⟩
        ++ (Attr.wire ⟨flagOptTrans, attrExtendedCommunities,
            trafficRateCommunity rule.action.rate⟩
        ++ (flowReachAttr rule).wire)) := by
    simp only [flowAttrs, List.flatMap_cons, List.flatMap_nil,
      List.append_nil]
  have hmade := hmsg.made
  have hattrs := hmsg.attrsFit
  rw [hwires] at hmade hattrs
  have horigin : pushAttr flagWellKnown attrOrigin [Origin.igp.wire]
      = some _ := pushAttr_of_lt _ _ (by decide)
  have hpath : pushAttr flagWellKnown attrAsPath [] = some _ :=
    pushAttr_of_lt _ _ (by decide)
  have hrate : pushAttr flagOptTrans attrExtendedCommunities
      (trafficRateCommunity rule.action.rate) = some _ :=
    pushAttr_of_lt _ _ (by rw [length_trafficRate]; decide)
  have hreach : pushAttr flagOptNonTrans attrMpReachNlri
      (be16 (afiOf rule) ++ (safiFlowspec :: 0 :: 0 :: flowNlri rule))
      = some (flowReachAttr rule).wire :=
    pushAttr_of_lt _ _ (Nat.lt_of_le_of_lt (length_flowReachAttr rule)
      (by decide))
  simp only [buildFlowspecAnnounce, encodeFlowspecNlri_eq, horigin, hpath,
    hrate, hreach, Option.bind_eq_bind, Option.bind_some,
    u16Len_of_lt hattrs]
  exact hmade

theorem buildFlowspecWithdraw_message (rule : FlowSpecRule) :
    ∃ msg, buildFlowspecWithdraw rule = some msg
      ∧ Message [] [flowUnreachAttr rule] [] msg := by
  rw [buildFlowspecWithdraw, encodeFlowspecNlri_eq]
  exact message_single plain_optNonTrans (flowUnreachAttr_short rule)

-- =============================================================== meanings

/-- What a peer should read of an announced rule. -/
def flowAnnouncement (rule : FlowSpecRule) : Peer.Update :=
  { Peer.Update.empty with
    flowsAnnounced := [flowOf rule]
    origin := some .igp
    asPath := some []
    extended := [0x80 :: 0x06 :: 0 :: 0 :: be32 rule.action.rate.bits] }

/-- What a peer should read of a withdrawn rule. -/
def flowWithdrawal (rule : FlowSpecRule) : Peer.Update :=
  { Peer.Update.empty with flowsWithdrawn := [flowOf rule] }

theorem meaning_flowReachAttr (rule : FlowSpecRule) :
    meaning (flowReachAttr rule)
      = .ok (.reach (nextHopOf (afiOf rule) []) ⟨[], [flowOf rule]⟩) := by
  have hvalue := readReach_value (afiOf rule) safiFlowspec [] (flowNlri rule)
    (by decide)
  rw [readNlri_flow] at hvalue
  exact (meaning_reach _).trans hvalue

theorem meaning_flowUnreachAttr (rule : FlowSpecRule) :
    meaning (flowUnreachAttr rule)
      = .ok (.unreach ⟨[], [flowOf rule]⟩) := by
  rw [flowUnreachAttr, meaning_unreach, readUnreach_value, readNlri_flow]
  rfl

theorem meaning_trafficRate (rate : F32) :
    meaning ⟨flagOptTrans, attrExtendedCommunities,
        trafficRateCommunity rate⟩
      = .ok (.extended [trafficRateCommunity rate]) := by
  rw [meaning_extended]
  rfl

theorem nextHopOf_nil (afi : BitVec 16) : nextHopOf afi [] = none := by
  rw [nextHopOf, if_neg fun h => absurd h.2 (by decide),
    if_neg fun h => absurd h.2 (by decide)]

theorem parse_flowspecAnnounce (rule : FlowSpecRule) :
    ∃ msg, buildFlowspecAnnounce rule = some msg
      ∧ attributes msg = .ok (flowAttrs rule)
      ∧ parse msg = .ok (flowAnnouncement rule) := by
  obtain ⟨msg, hbuild, hmsg⟩ := buildFlowspecAnnounce_message rule
  have hlen := length_flowAttrs rule
  have hmax : msg.length ≤ 4096 := by
    rw [hmsg.length]
    simp only [headerLen, List.length_nil]
    omega
  have hms : (flowAttrs rule).mapM meaning
      = .ok [.origin .igp, .asPath [],
        .extended [trafficRateCommunity rule.action.rate],
        .reach none ⟨[], [flowOf rule]⟩] := by
    rw [flowAttrs, List.mapM_cons, List.mapM_cons, List.mapM_cons,
      List.mapM_cons, meaning_origin, meaning_asPath, meaning_trafficRate,
      meaning_flowReachAttr, nextHopOf_nil]
    rfl
  refine ⟨msg, hbuild, hmsg.attributes_msg hmax, ?_⟩
  rw [hmsg.parse_msg hmax rfl hms rfl]
  exact if_pos ⟨by simp [flowAttrs, flowReachAttr]; decide, .inl rfl, rfl,
    .inr ⟨rfl, rfl⟩⟩

theorem parse_flowspecWithdraw (rule : FlowSpecRule) :
    ∃ msg, buildFlowspecWithdraw rule = some msg
      ∧ attributes msg = .ok [flowUnreachAttr rule]
      ∧ parse msg = .ok (flowWithdrawal rule) := by
  obtain ⟨msg, hbuild, hmsg⟩ := buildFlowspecWithdraw_message rule
  have hmax := hmsg.single_short (flowUnreachAttr_short rule)
  have hms : [flowUnreachAttr rule].mapM meaning
      = .ok [.unreach ⟨[], [flowOf rule]⟩] := by
    rw [List.mapM_cons, meaning_flowUnreachAttr]
    rfl
  refine ⟨msg, hbuild, hmsg.attributes_msg hmax, ?_⟩
  rw [hmsg.parse_msg hmax rfl hms rfl]
  rfl

-- ============================================================ injectivity

/-- The value a component of this type asks for. -/
def valueOf (type : Byte) (cs : List FlowComponent) : Option Nat :=
  cs.findSome? fun
    | .ops t [op] => if t = type then some op.value else none
    | _ => none

theorem valueOf_protocol (rule : FlowSpecRule) :
    valueOf 3 (flowOf rule).components
      = rule.protocol.map BitVec.toNat := by
  obtain ⟨dst, protocol, dstPort, action⟩ := rule
  cases protocol <;> cases dstPort <;> rfl

theorem valueOf_dstPort (rule : FlowSpecRule) :
    valueOf 5 (flowOf rule).components
      = rule.dstPort.map BitVec.toNat := by
  obtain ⟨dst, protocol, dstPort, action⟩ := rule
  cases protocol <;> cases dstPort <;> rfl

theorem map_toNat_inj {w : Nat} {a b : Option (BitVec w)}
    (h : a.map BitVec.toNat = b.map BitVec.toNat) : a = b :=
  Option.map_injective (fun _ _ => BitVec.eq_of_toNat_eq) h

/-- What a peer reads tells matches apart. -/
theorem flowOf_inj {r r' : FlowSpecRule} (h : flowOf r = flowOf r') :
    r.dst.trunc = r'.dst.trunc ∧ r.protocol = r'.protocol
      ∧ r.dstPort = r'.dstPort := by
  have hc : (flowOf r).components = (flowOf r').components := by rw [h]
  have hdst : FlowComponent.dst 0 r.dst.trunc = .dst 0 r'.dst.trunc :=
    (List.cons.inj hc).1
  refine ⟨by injection hdst, ?_, ?_⟩
  · apply map_toNat_inj
    rw [← valueOf_protocol, hc, valueOf_protocol]
  · apply map_toNat_inj
    rw [← valueOf_dstPort, hc, valueOf_dstPort]

/-- Matches start with a component's type and an operator. -/
theorem encodeMatches_cases (rule : FlowSpecRule) :
    encodeMatches rule = []
      ∨ ∃ type op rest, encodeMatches rule = type :: op :: rest
        ∧ (type = 3 ∨ type = 5) ∧ (op = 0x81 ∨ op = 0x91) := by
  obtain ⟨dst, protocol, dstPort, action⟩ := rule
  cases protocol with
  | some proto =>
      exact .inr ⟨_, _, _, congrArg (compIpProto :: · ++ _)
        (pushNumericEq_one _), .inl rfl, .inl rfl⟩
  | none =>
      cases dstPort with
      | none => exact .inl rfl
      | some port =>
          right
          show ∃ type op rest, compDstPort :: pushNumericEq port.toNat
            (if port.toNat < 256 then 1 else 2) = type :: op :: rest ∧ _
          by_cases h : port.toNat < 256
          · rw [if_pos h, pushNumericEq_one]
            exact ⟨_, _, _, rfl, .inr rfl, .inl rfl⟩
          · rw [if_neg h, pushNumericEq_two]
            exact ⟨_, _, _, rfl, .inr rfl, .inr rfl⟩

/-- Rules of different families never have the same components: past the
octets the IPv6 rule is one byte behind, at an operator where it should
have a type. -/
theorem encodeComponents_family {r r' : FlowSpecRule} {c : Cidr 32}
    {c' : Cidr 128} (hr : r.dst = .v4 c) (hr' : r'.dst = .v6 c') :
    encodeComponents r ≠ encodeComponents r' := by
  intro h
  rw [encodeComponents_eq, encodeComponents_eq, hr, hr'] at h
  obtain ⟨hbits, htails⟩ := List.cons.inj (List.cons.inj h).2
  have hrest : netOctets (n := 4) c ++ encodeMatches r
      = 0 :: netOctets (n := 16) c' ++ encodeMatches r' := htails
  have hlen := c.len.isLt
  have hlen' := c'.len.isLt
  have hsame : c.len.val = c'.len.val := by
    have := congrArg BitVec.toNat hbits
    rwa [toNat_ofNat8 (by omega), toNat_ofNat8 (by omega)] at this
  have hn : (netOctets (n := 4) c).length + 1
      = (0 :: netOctets (n := 16) c').length := by
    rw [List.length_cons, length_netOctets, length_netOctets, hsame]
  have htail : (encodeMatches r).drop 1 = encodeMatches r' := by
    calc (encodeMatches r).drop 1
        = (netOctets (n := 4) c ++ encodeMatches r).drop
            ((netOctets (n := 4) c).length + 1) := by
          rw [← List.drop_drop, List.drop_left]
      _ = (0 :: netOctets (n := 16) c' ++ encodeMatches r').drop
            (0 :: netOctets (n := 16) c').length := by
          rw [hn]
          exact congrArg _ hrest
      _ = encodeMatches r' := List.drop_left
  have hmore : (encodeMatches r).length
      = (encodeMatches r').length + 1 := by
    have := congrArg List.length hrest
    simp only [List.cons_append, List.length_cons, List.length_append]
      at this hn
    omega
  obtain hnil | ⟨type, op, rest, hcons, -, hop⟩ := encodeMatches_cases r
  · rw [hnil] at hmore
    cases hmore
  · rw [hcons] at htail hmore
    obtain hnil | ⟨type', op', rest', hcons', htype, -⟩ :=
      encodeMatches_cases r'
    · rw [hnil] at hmore
      cases hmore
    · rw [hcons'] at htail
      have heq : op = type' := (List.cons.inj htail).1
      rcases hop with rfl | rfl <;> rcases htype with rfl | rfl <;>
        exact absurd heq (by decide)

/-- An NLRI names its family: no bytes are read as two matches. -/
theorem flowOf_of_flowNlri {r r' : FlowSpecRule}
    (h : flowNlri r = flowNlri r') : flowOf r = flowOf r' := by
  have hcomps : encodeComponents r = encodeComponents r' :=
    (List.cons.inj h).2
  have hread : afiOf r = afiOf r' → flowOf r = flowOf r' := by
    intro hafi
    have h₁ := (readFlow_takes r).run
    have h₂ := (readFlow_takes r').run
    rw [hafi, h, h₂] at h₁
    exact (congrArg Prod.fst (Except.ok.inj h₁)).symm
  apply hread
  cases hr : r.dst with
  | v4 c =>
      cases hr' : r'.dst with
      | v4 c' => rw [afiOf, afiOf, hr, hr']
      | v6 c' => exact absurd hcomps (encodeComponents_family hr hr')
  | v6 c =>
      cases hr' : r'.dst with
      | v4 c' =>
          exact absurd hcomps.symm (encodeComponents_family hr' hr)
      | v6 c' => rw [afiOf, afiOf, hr, hr']

/-- The NLRI of two rules, over both families. -/
theorem encodeFlowspecNlri_inj (r r' : FlowSpecRule) :
    encodeFlowspecNlri r = encodeFlowspecNlri r'
      ↔ r.dst.trunc = r'.dst.trunc ∧ r.protocol = r'.protocol
        ∧ r.dstPort = r'.dstPort := by
  rw [encodeFlowspecNlri_eq, encodeFlowspecNlri_eq]
  constructor
  · intro h
    exact flowOf_inj (flowOf_of_flowNlri (Option.some.inj h))
  · rintro ⟨hdst, hproto, hport⟩
    have hcomps : encodeComponents r = encodeComponents r' := by
      rw [encodeComponents, encodeComponents, encodeMatches, encodeMatches,
        hdst, hproto, hport]
    rw [flowNlri, flowNlri, hcomps]

-- ================================================================= result

/-- A peer reads in an announced rule exactly its match and its rate, and
in the withdrawal the same NLRI, byte for byte; and the NLRI is the match:
no two rules that match differently share it, in one family or across. -/
theorem flowspec_faithful (rule : FlowSpecRule) :
    (∃ nlri msg w, encodeFlowspecNlri rule = some nlri
      ∧ buildFlowspecAnnounce rule = some msg
      ∧ parse msg = .ok (flowAnnouncement rule)
      ∧ buildFlowspecWithdraw rule = some w
      ∧ parse w = .ok (flowWithdrawal rule)
      ∧ (∃ attrs, attributes msg = .ok attrs
        ∧ ⟨flagOptNonTrans, attrMpReachNlri,
            be16 (afiOf rule) ++ (safiFlowspec :: 0 :: 0 :: nlri)⟩ ∈ attrs)
      ∧ attributes w = .ok [⟨flagOptNonTrans, attrMpUnreachNlri,
          be16 (afiOf rule) ++ safiFlowspec :: nlri⟩])
    ∧ ∀ rule', encodeFlowspecNlri rule = encodeFlowspecNlri rule'
      ↔ rule.dst.trunc = rule'.dst.trunc
        ∧ rule.protocol = rule'.protocol
        ∧ rule.dstPort = rule'.dstPort := by
  obtain ⟨msg, hmsg, hattrs, hread⟩ := parse_flowspecAnnounce rule
  obtain ⟨w, hw, hwattrs, hwread⟩ := parse_flowspecWithdraw rule
  have hmem : flowReachAttr rule ∈ flowAttrs rule :=
    List.mem_of_getElem? (i := 3) rfl
  exact ⟨⟨flowNlri rule, msg, w, encodeFlowspecNlri_eq rule, hmsg, hread,
    hw, hwread, ⟨_, hattrs, hmem⟩, hwattrs⟩, encodeFlowspecNlri_inj rule⟩

end Blackwall.Bgp
