/-
Announcing and withdrawing a route, as a peer reads it.

Both arms of `build_announce` write the same attributes but one: the
carrier of the next hop, NEXT_HOP for IPv4 and MP_REACH_NLRI for IPv6
(`routeMessage`). Nothing in the builder bounds the communities, so the
message may be longer than any peer takes; a message that is not is read as
the route, masked (`update_faithful`).
-/
import Blackwall.Bgp.Proofs.Wire

namespace Blackwall.Bgp

open Base Reader Peer

-- ======================================================= attribute lists

section Lists

variable {γ : Type} {typeCode : Byte} {enc : γ → List Byte}

/-- The attribute that lists values, if there are any. -/
def listAttrs (typeCode : Byte) (enc : γ → List Byte) (cs : List γ) :
    List Attr :=
  if cs.isEmpty then [] else [⟨flagOptTrans, typeCode, cs.flatMap enc⟩]

/-- What a peer reads in it. -/
def listMeaning (tell : List γ → Meaning) (cs : List γ) : List Meaning :=
  if cs.isEmpty then [] else [tell cs]

/-- The size of an attribute that is left out when it is empty. -/
def optAttrSize (n : Nat) : Nat := if n = 0 then 0 else attrSize n

theorem pushList_some {cs : List γ} {bytes : List Byte}
    (h : pushList typeCode enc cs = some bytes) :
    bytes = (listAttrs typeCode enc cs).flatMap Attr.wire
      ∧ ∀ a ∈ listAttrs typeCode enc cs, a.Fits := by
  unfold pushList at h
  unfold listAttrs
  split at h
  · next he =>
    cases h
    rw [if_pos he]
    exact ⟨rfl, fun _ ha => absurd ha List.not_mem_nil⟩
  · next he =>
    obtain ⟨hlt, rfl⟩ := pushAttr_some h
    rw [if_neg he, List.flatMap_singleton]
    refine ⟨rfl, fun a ha => ?_⟩
    rw [List.mem_singleton.mp ha]
    exact ⟨hlt, plain_optTrans⟩

theorem length_flatMap_const {size : Nat}
    (henc : ∀ c, (enc c).length = size) (cs : List γ) :
    (cs.flatMap enc).length = size * cs.length := by
  induction cs with
  | nil => rfl
  | cons c cs ih =>
      rw [List.flatMap_cons, List.length_append, ih, henc,
        List.length_cons, Nat.mul_succ, Nat.add_comm]

theorem pushList_of_lt {size : Nat} (henc : ∀ c, (enc c).length = size)
    {cs : List γ} (h : optAttrSize (size * cs.length) < 2 ^ 16) :
    pushList typeCode enc cs
      = some ((listAttrs typeCode enc cs).flatMap Attr.wire) := by
  cases cs with
  | nil => rfl
  | cons c cs =>
      have hlt : ((c :: cs).flatMap enc).length < 2 ^ 16 := by
        rw [length_flatMap_const henc]
        unfold optAttrSize attrSize at h
        split at h <;> omega
      refine (pushAttr_of_lt flagOptTrans typeCode hlt).trans ?_
      show _ = some ([_].flatMap Attr.wire)
      rw [List.flatMap_singleton]

theorem length_listAttrs {size : Nat} (hpos : 0 < size)
    (henc : ∀ c, (enc c).length = size) (cs : List γ) :
    ((listAttrs typeCode enc cs).flatMap Attr.wire).length
      = optAttrSize (size * cs.length) := by
  cases cs with
  | nil => rfl
  | cons c cs =>
      have hne : size * (c :: cs).length ≠ 0 :=
        Nat.mul_ne_zero hpos.ne' (Nat.succ_ne_zero _)
      rw [optAttrSize, if_neg hne, ← length_flatMap_const henc]
      show ([_].flatMap Attr.wire).length = _
      rw [List.flatMap_singleton, length_wire]

theorem listAttrs_types (typeCode : Byte) (enc : γ → List Byte)
    (cs : List γ) :
    ((listAttrs typeCode enc cs).map (·.type)).Sublist [typeCode] := by
  cases cs with
  | nil => exact List.nil_sublist _
  | cons c cs => exact List.Sublist.refl _

theorem mapM_listAttrs (typeCode : Byte) (p : Reader Unit γ)
    (tell : List γ → Meaning) (hp : ∀ c, Takes p (enc c) c)
    (hne : ∀ c, enc c ≠ [])
    (htell : ∀ v, meaning ⟨flagOptTrans, typeCode, v⟩
      = (readList p v).map tell) (cs : List γ) :
    (listAttrs typeCode enc cs).mapM meaning
      = .ok (listMeaning tell cs) := by
  cases cs with
  | nil => rfl
  | cons c cs =>
      have hbytes : ((c :: cs).flatMap enc).isEmpty = false := by
        rw [List.flatMap_cons, List.isEmpty_eq_false_iff]
        exact List.append_ne_nil_of_left_ne_nil (hne c) _
      have hall : all p () ((c :: cs).flatMap enc)
          = .ok ((c :: cs).map fun c => c) :=
        all_flatMap (fun c _ => hp c) fun c _ => hne c
      have hread : meaning ⟨flagOptTrans, typeCode, (c :: cs).flatMap enc⟩
          = .ok (tell (c :: cs)) := by
        rw [htell, readList, hbytes, if_neg Bool.false_ne_true, hall,
          List.map_id']
        rfl
      show [_].mapM meaning = _
      rw [List.mapM_cons, hread]
      rfl

end Lists

-- ============================================================= the message

/-- The attributes of a route. -/
def routeAttrs (r : Route) (carrier : Attr) : List Attr :=
  ⟨flagWellKnown, attrOrigin, [r.origin.wire]⟩
    :: ⟨flagWellKnown, attrAsPath, []⟩ :: carrier
    :: (listAttrs attrCommunities encodeCommunity r.communities
      ++ listAttrs attrLargeCommunities encodeLarge r.largeCommunities)

/-- The common part of the two arms of `build_announce`. -/
def routeMessage (r : Route) (carrier : Attr) (nlri : List Byte) :
    Option (List Byte) := do
  let origin ← pushAttr flagWellKnown attrOrigin [r.origin.wire]
  let asPath ← pushAttr flagWellKnown attrAsPath []
  let carried ← pushAttr carrier.flags carrier.type carrier.value
  let comms ← pushCommunities r.communities
  let large ← pushLargeCommunities r.largeCommunities
  let attrs := origin ++ (asPath ++ (carried ++ (comms ++ large)))
  let totalAttrLen ← u16Len attrs.length
  encodeHeader 2 (updateBody 0 totalAttrLen [] attrs nlri)

theorem wire_routeAttrs (r : Route) (carrier : Attr) :
    (routeAttrs r carrier).flatMap Attr.wire
      = Attr.wire ⟨flagWellKnown, attrOrigin, [r.origin.wire]⟩
        ++ (Attr.wire ⟨flagWellKnown, attrAsPath, []⟩
        ++ (carrier.wire
        ++ ((listAttrs attrCommunities encodeCommunity
              r.communities).flatMap Attr.wire
          ++ (listAttrs attrLargeCommunities encodeLarge
              r.largeCommunities).flatMap Attr.wire))) := by
  rw [routeAttrs, List.flatMap_cons, List.flatMap_cons, List.flatMap_cons,
    List.flatMap_append]

theorem routeMessage_some {r : Route} {carrier : Attr}
    {nlri msg : List Byte} (hplain : carrier.flags &&& 0x1F = 0)
    (h : routeMessage r carrier nlri = some msg) :
    Message [] (routeAttrs r carrier) nlri msg := by
  unfold routeMessage at h
  simp only [Option.bind_eq_bind, Option.bind_eq_some_iff] at h
  obtain ⟨origin, h1, asPath, h2, carried, h3, comms, h4, large, h5,
    total, h6, hmade⟩ := h
  obtain ⟨hf1, rfl⟩ := pushAttr_some h1
  obtain ⟨hf2, rfl⟩ := pushAttr_some h2
  obtain ⟨hf3, rfl⟩ := pushAttr_some h3
  obtain ⟨rfl, hf4⟩ := pushList_some h4
  obtain ⟨rfl, hf5⟩ := pushList_some h5
  rw [← wire_routeAttrs] at h6 hmade
  obtain ⟨hlen, rfl⟩ := u16Len_some h6
  refine ⟨?_, by decide, hlen, hmade⟩
  intro a ha
  simp only [routeAttrs, List.mem_cons, List.mem_append] at ha
  rcases ha with rfl | rfl | rfl | ha | ha
  · exact ⟨hf1, plain_wellKnown⟩
  · exact ⟨hf2, plain_wellKnown⟩
  · exact ⟨hf3, hplain⟩
  · exact hf4 a ha
  · exact hf5 a ha

/-- NEXT_HOP. -/
def nextHopAttr (nh : BitVec 32) : Attr :=
  ⟨flagWellKnown, attrNextHop, (IpAddr.v4 nh).octets⟩

/-- MP_REACH_NLRI. -/
def mpReachAttr (nh : BitVec 128) (net : IpNet) : Attr :=
  ⟨flagOptNonTrans, attrMpReachNlri, be16 afiIpv6 ++ (safiUnicast :: 16
    :: ((IpAddr.v6 nh).octets ++ 0 :: encodeNlri net))⟩

theorem buildAnnounce_v4 {r : Route} {c : Cidr 32} {nh : BitVec 32}
    (hnet : r.net = .v4 c) (hnh : r.nextHop = .v4 nh) :
    buildAnnounce r
      = routeMessage r (nextHopAttr nh) (encodeNlri r.net) := by
  rw [buildAnnounce, hnet, hnh]
  rfl

theorem buildAnnounce_v6 {r : Route} {c : Cidr 128} {nh : BitVec 128}
    (hnet : r.net = .v6 c) (hnh : r.nextHop = .v6 nh) :
    buildAnnounce r = routeMessage r (mpReachAttr nh r.net) [] := by
  rw [buildAnnounce, hnet, hnh]
  rfl

-- =============================================================== meanings

/-- What a peer should read of a route. -/
def announcement (r : Route) : Peer.Update :=
  { Peer.Update.empty with
    announced := [(r.net.trunc, r.nextHop)]
    origin := some r.origin
    asPath := some []
    communities := r.communities
    large := r.largeCommunities }

/-- The meanings of a route's attributes. -/
def routeMeanings (r : Route) (carried : Meaning) : List Meaning :=
  .origin r.origin :: .asPath [] :: carried
    :: (listMeaning .communities r.communities
      ++ listMeaning .large r.largeCommunities)

theorem readCommunity_takes (c : BitVec 16 × BitVec 16) :
    Takes readCommunity (encodeCommunity c) c :=
  (Takes.u16 c.1 ()).bind ((Takes.u16 c.2 ()).last (c.1, ·))

theorem readLarge_takes (c : BitVec 32 × BitVec 32 × BitVec 32) :
    Takes readLarge (encodeLarge c) c :=
  (Takes.u32 c.1 ()).bind ((Takes.u32 c.2.1 ()).bind
    ((Takes.u32 c.2.2 ()).last fun l => (c.1, c.2.1, l)))

theorem mapM_routeAttrs (r : Route) {carrier : Attr} {carried : Meaning}
    (h : meaning carrier = .ok carried) :
    (routeAttrs r carrier).mapM meaning
      = .ok (routeMeanings r carried) := by
  have hcomms := mapM_listAttrs attrCommunities readCommunity .communities
    readCommunity_takes (fun c => List.cons_ne_nil _ _) meaning_communities
    r.communities
  have hlarge := mapM_listAttrs attrLargeCommunities readLarge .large
    readLarge_takes (fun c => List.cons_ne_nil _ _) meaning_large
    r.largeCommunities
  rw [routeAttrs, List.mapM_cons, List.mapM_cons, List.mapM_cons,
    List.mapM_append, meaning_origin, meaning_asPath, h, hcomms, hlarge]
  rfl

theorem meaning_nextHopAttr (nh : BitVec 32) :
    meaning (nextHopAttr nh) = .ok (.nextHop (.v4 nh)) :=
  meaning_nextHop nh

theorem meaning_mpReachAttr (nh : BitVec 128) (c : Cidr 128) :
    meaning (mpReachAttr nh (.v6 c))
      = .ok (.reach (some (.v6 nh)) ⟨[(IpNet.v6 c).trunc], []⟩) := by
  have hoctets : (IpAddr.v6 nh).octets.length = 16 := length_beBytes 16 _
  have hhop : nextHopOf 2 (IpAddr.v6 nh).octets = some (.v6 nh) := by
    rw [nextHopOf, if_neg fun h => absurd h.1 (by decide),
      if_pos ⟨rfl, .inl hoctets⟩,
      List.take_of_length_le hoctets.le]
    exact congrArg (fun a => some (IpAddr.v6 a)) (ofNat_octets (n := 16) nh)
  have hvalue := readReach_value 2 safiUnicast (IpAddr.v6 nh).octets
    (encodeNlri (.v6 c)) (by rw [hoctets]; decide)
  rw [hoctets, hhop] at hvalue
  have hnet : readNlri 2 safiUnicast (encodeNlri (.v6 c)) = _ :=
    readNlri_net (.v6 c)
  rw [hnet] at hvalue
  exact (meaning_reach _).trans hvalue

-- ============================================================ round trips

theorem routeAttrs_nodup (r : Route) {carrier : Attr}
    (h : carrier.type = attrNextHop ∨ carrier.type = attrMpReachNlri) :
    ((routeAttrs r carrier).map (·.type)).Nodup := by
  have hsub : ((routeAttrs r carrier).map (·.type)).Sublist
      [attrOrigin, attrAsPath, carrier.type, attrCommunities,
        attrLargeCommunities] := by
    rw [routeAttrs, List.map_cons, List.map_cons, List.map_cons,
      List.map_append]
    have hlists := (listAttrs_types attrCommunities encodeCommunity
      r.communities).append (listAttrs_types attrLargeCommunities
        encodeLarge r.largeCommunities)
    exact ((hlists.cons_cons _).cons_cons _).cons_cons _
  refine List.Nodup.sublist hsub ?_
  rcases h with h | h
  · rw [h]; decide
  · rw [h]; decide

theorem routeMeanings_hopped (r : Route) {carried : Meaning}
    (h : carried.hopped = true) :
    (routeMeanings r carried).all Meaning.hopped = true := by
  have hlist : ∀ {γ : Type} (tell : List γ → Meaning) (cs : List γ),
      (∀ cs, (tell cs).hopped = true) →
      (listMeaning tell cs).all Meaning.hopped = true := by
    intro γ tell cs htell
    cases cs with
    | nil => rfl
    | cons c cs => rw [List.all_eq_true]; simp [listMeaning, htell]
  rw [routeMeanings, List.all_cons, List.all_cons, List.all_cons,
    List.all_append, h, hlist _ _ fun _ => rfl, hlist _ _ fun _ => rfl]
  rfl

theorem note_lists (r : Route) (u : Peer.Update)
    (hc : u.communities = []) (hl : u.large = []) :
    (listMeaning .communities r.communities
        ++ listMeaning .large r.largeCommunities).foldl Peer.Update.note u
      = { u with
          communities := r.communities, large := r.largeCommunities } := by
  obtain ⟨a, b, c, d, e, f, g, h, i⟩ := u
  obtain rfl : g = [] := hc
  obtain rfl : i = [] := hl
  cases r.communities <;> cases r.largeCommunities <;> rfl

/-- The parts of an announcement by NEXT_HOP. -/
theorem assemble_v4 (r : Route) {nh : BitVec 32}
    (hnh : r.nextHop = .v4 nh) :
    assemble [] (routeAttrs r (nextHopAttr nh))
        (routeMeanings r (.nextHop (.v4 nh))) [r.net.trunc]
      = .ok (announcement r) := by
  have hgather : gather [] (routeMeanings r (.nextHop (.v4 nh)))
      [r.net.trunc] = announcement r := by
    rw [announcement, hnh]
    exact note_lists r ⟨[], [(r.net.trunc, .v4 nh)], [], [],
      some r.origin, some [], [], [], []⟩ rfl rfl
  rw [assemble, hgather]
  exact if_pos ⟨routeAttrs_nodup r (.inl rfl), .inr rfl,
    routeMeanings_hopped r rfl, .inr ⟨rfl, rfl⟩⟩

/-- The parts of an announcement by MP_REACH_NLRI. -/
theorem assemble_v6 (r : Route) {nh : BitVec 128}
    (hnh : r.nextHop = .v6 nh) :
    assemble [] (routeAttrs r (mpReachAttr nh r.net))
        (routeMeanings r (.reach (some (.v6 nh)) ⟨[r.net.trunc], []⟩)) []
      = .ok (announcement r) := by
  have hgather : gather []
      (routeMeanings r (.reach (some (.v6 nh)) ⟨[r.net.trunc], []⟩)) []
      = announcement r := by
    rw [announcement, hnh]
    exact note_lists r ⟨[], [(r.net.trunc, .v6 nh)], [], [],
      some r.origin, some [], [], [], []⟩ rfl rfl
  rw [assemble, hgather]
  exact if_pos ⟨routeAttrs_nodup r (.inr rfl), .inl rfl,
    routeMeanings_hopped r rfl, .inr ⟨rfl, rfl⟩⟩

-- =================================================================== sizes

theorem length_encodeCommunity (c : BitVec 16 × BitVec 16) :
    (encodeCommunity c).length = 4 := rfl

theorem length_encodeLarge (c : BitVec 32 × BitVec 32 × BitVec 32) :
    (encodeLarge c).length = 12 := rfl

theorem length_routeAttrs (r : Route) (carrier : Attr) :
    ((routeAttrs r carrier).flatMap Attr.wire).length
      = attrSize 1 + attrSize 0 + attrSize carrier.value.length
        + optAttrSize (4 * r.communities.length)
        + optAttrSize (12 * r.largeCommunities.length) := by
  rw [wire_routeAttrs, List.length_append, List.length_append,
    List.length_append, List.length_append, length_wire, length_wire,
    length_wire, length_listAttrs (by decide) length_encodeCommunity,
    length_listAttrs (by decide) length_encodeLarge]
  show attrSize 1 + (attrSize 0 + _) = _
  omega

/-- The size of a route's announcement. -/
def announceSize (r : Route) : Nat :=
  headerLen + 4 + attrSize 1 + attrSize 0
    + (match r.net with
      | .v4 c => attrSize 4 + (1 + (c.len.val + 7) / 8)
      | .v6 c => attrSize (21 + (1 + (c.len.val + 7) / 8)))
    + optAttrSize (4 * r.communities.length)
    + optAttrSize (12 * r.largeCommunities.length)

theorem length_nextHopAttr (nh : BitVec 32) :
    (nextHopAttr nh).value.length = 4 :=
  length_beBytes 4 _

theorem length_mpReachAttr (nh : BitVec 128) (net : IpNet) :
    (mpReachAttr nh net).value.length
      = 21 + (1 + (net.prefixLen + 7) / 8) := by
  have hoctets : (IpAddr.v6 nh).octets.length = 16 := length_beBytes 16 _
  simp only [mpReachAttr, List.length_append, List.length_cons, length_be16,
    hoctets, length_encodeNlri]
  omega

/-- What fits the header is returned. -/
theorem routeMessage_of_lt {r : Route} {carrier : Attr} {nlri : List Byte}
    (hsize : headerLen + 4 + attrSize 1 + attrSize 0
      + attrSize carrier.value.length
      + optAttrSize (4 * r.communities.length)
      + optAttrSize (12 * r.largeCommunities.length) + nlri.length
      < 2 ^ 16) :
    ∃ msg, routeMessage r carrier nlri = some msg := by
  have hattrs := length_routeAttrs r carrier
  have hcarrier : carrier.value.length < 2 ^ 16 := by
    unfold attrSize at hsize
    omega
  have hbody := encodeHeader_of_lt 2 (updateBody 0
    (BitVec.ofNat 16 ((routeAttrs r carrier).flatMap Attr.wire).length) []
    ((routeAttrs r carrier).flatMap Attr.wire) nlri) (by
      simp only [updateBody, List.length_append, length_be16,
        List.length_nil]
      omega)
  refine ⟨_, Eq.trans ?_ hbody⟩
  have hone : [r.origin.wire].length < 2 ^ 16 := show 1 < 2 ^ 16 by decide
  rw [routeMessage, pushAttr_of_lt _ _ hone,
    pushAttr_of_lt _ _ (by decide), pushAttr_of_lt _ _ hcarrier,
    pushCommunities, pushList_of_lt length_encodeCommunity (by omega),
    pushLargeCommunities, pushList_of_lt length_encodeLarge (by omega)]
  show (u16Len _ >>= _) = _
  rw [← wire_routeAttrs r carrier, u16Len_of_lt (by omega)]
  rfl

-- =============================================================== announce

/-- A message is one of the two arms. -/
theorem buildAnnounce_cases {r : Route} {msg : List Byte}
    (h : buildAnnounce r = some msg) :
    (∃ c nh, r.net = .v4 c ∧ r.nextHop = .v4 nh
      ∧ Message [] (routeAttrs r (nextHopAttr nh)) (encodeNlri r.net) msg)
    ∨ ∃ c nh, r.net = .v6 c ∧ r.nextHop = .v6 nh
      ∧ Message [] (routeAttrs r (mpReachAttr nh r.net)) [] msg := by
  cases hnet : r.net with
  | v4 c =>
      cases hnh : r.nextHop with
      | v4 nh =>
          rw [buildAnnounce_v4 hnet hnh] at h
          exact .inl ⟨c, nh, rfl, rfl,
            hnet ▸ routeMessage_some plain_wellKnown h⟩
      | v6 nh =>
          rw [buildAnnounce, hnet, hnh] at h
          cases h
  | v6 c =>
      cases hnh : r.nextHop with
      | v4 nh =>
          rw [buildAnnounce, hnet, hnh] at h
          cases h
      | v6 nh =>
          rw [buildAnnounce_v6 hnet hnh] at h
          exact .inr ⟨c, nh, rfl, rfl,
            hnet ▸ routeMessage_some plain_optNonTrans h⟩

theorem length_announce {r : Route} {msg : List Byte}
    (h : buildAnnounce r = some msg) : msg.length = announceSize r := by
  obtain ⟨c, nh, hnet, -, hmsg⟩ | ⟨c, nh, hnet, -, hmsg⟩ :=
    buildAnnounce_cases h
  · rw [hmsg.length, length_routeAttrs, length_nextHopAttr,
      length_encodeNlri, announceSize, hnet]
    simp only [IpNet.prefixLen, List.length_nil]
    omega
  · rw [hmsg.length, length_routeAttrs, length_mpReachAttr, announceSize,
      hnet]
    simp only [IpNet.prefixLen, List.length_nil]
    omega

/-- A peer reads an announcement that is not too long. -/
theorem parse_announce {r : Route} {msg : List Byte}
    (h : buildAnnounce r = some msg) (hmax : announceSize r ≤ 4096) :
    parse msg = .ok (announcement r) := by
  rw [← length_announce h] at hmax
  obtain ⟨c, nh, hnet, hnh, hmsg⟩ | ⟨c, nh, hnet, hnh, hmsg⟩ :=
    buildAnnounce_cases h
  · have hread : all (readNet 1) () (encodeNlri r.net)
        = .ok [r.net.trunc] := by
      rw [hnet]
      exact all_readNet (.v4 c)
    rw [hmsg.parse_msg hmax rfl
      (mapM_routeAttrs r (meaning_nextHopAttr nh)) hread]
    exact assemble_v4 r hnh
  · have hreach : meaning (mpReachAttr nh r.net)
        = .ok (.reach (some (.v6 nh)) ⟨[r.net.trunc], []⟩) := by
      rw [hnet]
      exact meaning_mpReachAttr nh c
    rw [hmsg.parse_msg hmax rfl (mapM_routeAttrs r hreach) rfl]
    exact assemble_v6 r hnh

theorem parse_announce_long {r : Route} {msg : List Byte}
    (h : buildAnnounce r = some msg) (hmax : ¬announceSize r ≤ 4096) :
    parse msg = .error () := by
  rw [← length_announce h] at hmax
  obtain ⟨c, nh, -, -, hmsg⟩ | ⟨c, nh, -, -, hmsg⟩ := buildAnnounce_cases h
  · exact hmsg.parse_long hmax
  · exact hmsg.parse_long hmax

-- =============================================================== withdraw

/-- What a peer should read of a withdrawal. -/
def withdrawal (net : IpNet) : Peer.Update :=
  { Peer.Update.empty with withdrawn := [net.trunc] }

/-- MP_UNREACH_NLRI. -/
def mpUnreachAttr (net : IpNet) : Attr :=
  ⟨flagOptNonTrans, attrMpUnreachNlri,
    be16 afiIpv6 ++ safiUnicast :: encodeNlri net⟩

theorem length_encodeNlri_le (net : IpNet) :
    (encodeNlri net).length ≤ 17 := by
  rw [length_encodeNlri]
  cases net with
  | v4 c =>
      have := c.len.isLt
      simp only [IpNet.prefixLen]
      omega
  | v6 c =>
      have := c.len.isLt
      simp only [IpNet.prefixLen]
      omega

theorem buildWithdraw_v4 (c : Cidr 32) :
    ∃ msg, buildWithdraw (.v4 c) = some msg
      ∧ Message (encodeNlri (.v4 c)) [] [] msg := by
  have hle := length_encodeNlri_le (.v4 c)
  have hnone : ∀ a ∈ ([] : List Attr), a.Fits := nofun
  obtain ⟨msg, hmsg⟩ := exists_message (encodeNlri (.v4 c)) [] hnone (by
      simp only [headerLen, List.flatMap_nil, List.length_nil]
      omega)
  refine ⟨msg, ?_, hmsg⟩
  rw [buildWithdraw, u16Len_of_lt hmsg.withdrawnFits]
  exact hmsg.made

theorem mpUnreachAttr_short (net : IpNet) :
    (mpUnreachAttr net).value.length < 256 := by
  have hle := length_encodeNlri_le net
  simp only [mpUnreachAttr, List.length_append, List.length_cons,
    length_be16]
  omega

theorem buildWithdraw_v6 (c : Cidr 128) :
    ∃ msg, buildWithdraw (.v6 c) = some msg
      ∧ Message [] [mpUnreachAttr (.v6 c)] [] msg :=
  message_single plain_optNonTrans (mpUnreachAttr_short (.v6 c))

theorem meaning_mpUnreachAttr (c : Cidr 128) :
    meaning (mpUnreachAttr (.v6 c))
      = .ok (.unreach ⟨[(IpNet.v6 c).trunc], []⟩) := by
  have hnet : readNlri afiIpv6 safiUnicast (encodeNlri (.v6 c)) = _ :=
    readNlri_net (.v6 c)
  rw [mpUnreachAttr, meaning_unreach, readUnreach_value, hnet]
  rfl

/-- A peer reads a withdrawal as that of the masked prefix alone. -/
theorem parse_withdraw (net : IpNet) :
    ∃ msg, buildWithdraw net = some msg
      ∧ parse msg = .ok (withdrawal net) := by
  have hle := length_encodeNlri_le net
  cases net with
  | v4 c =>
      obtain ⟨msg, hbuild, hmsg⟩ := buildWithdraw_v4 c
      have hmax : msg.length ≤ 4096 := by
        rw [hmsg.length]
        simp only [headerLen, List.flatMap_nil, List.length_nil]
        omega
      refine ⟨msg, hbuild, ?_⟩
      rw [hmsg.parse_msg hmax (all_readNet (.v4 c)) rfl rfl]
      rfl
  | v6 c =>
      obtain ⟨msg, hbuild, hmsg⟩ := buildWithdraw_v6 c
      have hmax := hmsg.single_short (mpUnreachAttr_short (.v6 c))
      refine ⟨msg, hbuild, ?_⟩
      have hms : [mpUnreachAttr (.v6 c)].mapM meaning
          = .ok [.unreach ⟨[(IpNet.v6 c).trunc], []⟩] := by
        rw [List.mapM_cons, meaning_mpUnreachAttr]
        rfl
      rw [hmsg.parse_msg hmax rfl hms rfl]
      rfl

-- ================================================================= result

/-- Where `build_announce` returns a message, a peer reads exactly the
route in it, and in `build_withdraw`'s exactly the prefix, just when the
route's attributes leave the announcement within 4096 bytes. -/
theorem update_faithful (r : Route) (net : IpNet) (msg : List Byte)
    (h : buildAnnounce r = some msg) :
    (parse msg = .ok (announcement r)
      ∧ ∃ w, buildWithdraw net = some w ∧ parse w = .ok (withdrawal net))
    ↔ announceSize r ≤ 4096 := by
  constructor
  · intro hread
    by_contra hmax
    rw [parse_announce_long h hmax] at hread
    cases hread.1
  · intro hmax
    exact ⟨parse_announce h hmax, parse_withdraw net⟩

/-- A blackhole route with `n` communities. -/
def taggedRoute (n : Nat) : Route where
  net := .v4 ⟨0xCB007107, Fin.last 32⟩
  nextHop := .v4 0xC0000201
  origin := .igp
  communities := List.replicate n (65535, 666)
  largeCommunities := []

theorem announceSize_taggedRoute (n : Nat) :
    announceSize (taggedRoute n) = 42 + optAttrSize (4 * n) := by
  simp only [announceSize, taggedRoute, List.length_replicate,
    List.length_nil, headerLen]
  show 42 + optAttrSize (4 * n) + 0 = _
  rfl

/-- It is announced as long as the header can hold its length. -/
theorem taggedRoute_announced {n : Nat}
    (h : announceSize (taggedRoute n) < 2 ^ 16) :
    ∃ msg, buildAnnounce (taggedRoute n) = some msg := by
  rw [buildAnnounce_v4 rfl rfl]
  apply routeMessage_of_lt
  rw [length_nextHopAttr, length_encodeNlri]
  simp only [announceSize, taggedRoute, IpNet.prefixLen] at h ⊢
  omega

theorem update_faithful_two :
    ∃ msg, buildAnnounce (taggedRoute 2) = some msg
      ∧ parse msg = .ok (announcement (taggedRoute 2)) := by
  have hsize : announceSize (taggedRoute 2) = 53 := by decide
  obtain ⟨msg, hmsg⟩ := taggedRoute_announced (n := 2) (by
    rw [hsize]; decide)
  exact ⟨msg, hmsg, ((update_faithful (taggedRoute 2)
    (taggedRoute 2).net msg hmsg).mpr (by rw [hsize]; decide)).1⟩

theorem announceSize_long : announceSize (taggedRoute 1100) = 4446 := by
  rw [announceSize_taggedRoute]
  decide

/-- With 1100 communities a message is returned that no peer reads. -/
theorem announce_too_long :
    ∃ msg, buildAnnounce (taggedRoute 1100) = some msg
      ∧ parse msg = .error () := by
  obtain ⟨msg, hmsg⟩ := taggedRoute_announced (n := 1100) (by
    rw [announceSize_long]; decide)
  exact ⟨msg, hmsg,
    parse_announce_long hmsg (by rw [announceSize_long]; decide)⟩

end Blackwall.Bgp
