/-
Where an accepted service's traffic goes.

The accept rules and the rewriting rules come from two loops over the
services. The first takes every service; the second leaves out a backend
of the other family. So a service whose backend is of its own family has
its packets rewritten to it, and one whose backend is not is let through
with the destination it came with (`nat_reaches_backend_iff`).
-/
import Blackwall.Core.Proofs.Resolve
import Blackwall.Nft.Proofs.Classify

namespace Blackwall.Nft

open Base Blackwall.Core

-- ========================================================== the way in

/-- The packet is for this service. -/
def ForService (s : ResolvedService) (pkt : Packet) : Prop :=
  pkt.daddr = s.addr ∧ pkt.l4proto = protoNumber s.proto
    ∧ pkt.dport = some s.port

instance ForService.decidable (s : ResolvedService) (pkt : Packet) :
    Decidable (ForService s pkt) :=
  inferInstanceAs (Decidable (_ ∧ _ ∧ _))

/-- The packet with its destination rewritten. -/
def Packet.sentTo (pkt : Packet) (b : SocketAddr) : Packet :=
  { pkt with daddr := b.ip, dport := some b.port }

theorem Packet.sentTo_injective {pkt : Packet} {b b' : SocketAddr}
    (h : pkt.sentTo b = pkt.sentTo b') : b = b' := by
  obtain ⟨ip, port⟩ := b
  have hip : ip = b'.ip := congrArg Packet.daddr h
  have hport : some port = some b'.port := congrArg Packet.dport h
  rw [hip, Option.some.inj hport]

/-- The prerouting chain lets the packet through and a rule of the dnat
chain, which comes after it, rewrites its destination to `b`. -/
def Rewritten (t : Table) (pkt : Packet) (b : SocketAddr) : Prop :=
  ∃ pkt', evalChain t "prerouting" pkt = (.accept, pkt')
    ∧ evalRules t (t.rules "dnat") pkt' = (some .accept, pkt'.sentTo b)

/-- What the two chains owe a packet of the managed interface. -/
structure ReachesBackend (services : List ResolvedService) (t : Table)
    (pkt : Packet) : Prop where
  exact : ∀ b, Rewritten t pkt b
    ↔ ∃ s ∈ services, ForService s pkt ∧ s.target = .nat b
  /-- A service with a backend is not left to the host stack. -/
  delivered : ∀ s ∈ services, ForService s pkt → ∀ b, s.target = .nat b →
    Rewritten t pkt b
  /-- The targets that are reached on the service's own address. -/
  others : ∀ s ∈ services, ForService s pkt →
    (s.target = .host ∨ ∃ name, s.target = .incus name) →
      ∀ b, ¬ Rewritten t pkt b

-- =========================================================== the dnat rules

/-- The backend a service has a rule for. -/
def ruledBackend (s : ResolvedService) : Option SocketAddr :=
  match s.target with
  | .nat b => if s.addr.isIpv4 = b.ip.isIpv4 then some b else none
  | _ => none

theorem ruledBackend_eq_some {s : ResolvedService} {b : SocketAddr} :
    ruledBackend s = some b
      ↔ s.target = .nat b ∧ s.addr.isIpv4 = b.ip.isIpv4 := by
  unfold ruledBackend
  split
  · next b' hb =>
    rw [hb, ServiceTarget.nat.injEq, Option.ite_none_right_eq_some,
      Option.some.injEq]
    constructor
    · rintro ⟨hf, rfl⟩
      exact ⟨rfl, hf⟩
    · rintro ⟨rfl, hf⟩
      exact ⟨hf, rfl⟩
  · next hno => exact iff_of_false nofun fun h => hno b h.1

/-- The backend a packet is rewritten to by the service's rule. -/
def backendFor (pkt : Packet) (s : ResolvedService) : Option SocketAddr :=
  if ForService s pkt then ruledBackend s else none

theorem backendFor_eq_some {pkt : Packet} {s : ResolvedService}
    {b : SocketAddr} :
    backendFor pkt s = some b ↔ ForService s pkt ∧ s.target = .nat b
      ∧ s.addr.isIpv4 = b.ip.isIpv4 := by
  rw [backendFor, Option.ite_none_right_eq_some, ruledBackend_eq_some]

section Rules

variable (t : Table) (pkt : Packet)

theorem matchHolds_daddr (a : IpAddr) :
    matchHolds t pkt (.atom (.payload (protoName a) "daddr"))
        (.atom (.addr a)) .eq
      = decide (pkt.daddr = a) := by
  cases a with
  | v4 a =>
      cases h : pkt.daddr with
      | v4 d =>
          simp [matchHolds, Expression.load, Expression.covers, Atom.load,
            protoName, IpAddr.isIpv4, headerName, h, eq_comm]
      | v6 d =>
          simp [matchHolds, Expression.load, Atom.load, protoName,
            IpAddr.isIpv4, headerName, h]
  | v6 a =>
      cases h : pkt.daddr with
      | v4 d =>
          simp [matchHolds, Expression.load, Atom.load, protoName,
            IpAddr.isIpv4, headerName, h]
      | v6 d =>
          simp [matchHolds, Expression.load, Expression.covers, Atom.load,
            protoName, IpAddr.isIpv4, headerName, h, eq_comm]

theorem matchHolds_l4proto (l4 : L4Proto) :
    matchHolds t pkt (.atom (.metaKey .l4proto)) (.atom (.string l4.text))
        .eq
      = decide (pkt.l4proto = protoNumber l4) := by
  simp [matchHolds, Expression.load, Expression.covers, Atom.load,
    @eq_comm _ (Value.string l4.text), protoValue_eq_iff]

theorem matchHolds_dport (port : BitVec 16) :
    matchHolds t pkt (.atom (.payload "th" "dport"))
        (.atom (.number port.toNat)) .eq
      = decide (pkt.dport = some port) := by
  cases h : pkt.dport with
  | none => simp [matchHolds, Expression.load, Atom.load, h]
  | some d =>
      simp [matchHolds, Expression.load, Expression.covers, Atom.load, h,
        BitVec.toNat_inj, eq_comm]

/-- The rule rewrites the packets of its service. -/
theorem evalRule_dnat {disp : SocketAddr → String} {s : ResolvedService}
    {r : Rule} {b : SocketAddr} (hr : dnatRule disp pkt.iif s = some r)
    (hb : ruledBackend s = some b) :
    evalRule t r.expr pkt
      = if ForService s pkt then (some .accept, pkt.sentTo b)
        else (none, pkt) := by
  obtain ⟨htarget, hfamily⟩ := ruledBackend_eq_some.mp hb
  rw [dnatRule, htarget] at hr
  simp only [hfamily, ne_eq, not_true_eq_false, if_false,
    Option.some.injEq] at hr
  have hheader : pkt.daddr = s.addr →
      NatFamily.header (if b.ip.isIpv4 then .ip else .ip6)
        = headerName pkt.daddr := by
    intro ha
    rw [← hfamily, ha]
    cases s.addr <;> rfl
  rw [← hr]
  simp only [evalRule, iifnameMatch, l4protoMatch, matchHolds_iifname,
    matchHolds_daddr, matchHolds_l4proto, matchHolds_dport,
    decide_eq_true_eq, if_true, ForService]
  by_cases ha : pkt.daddr = s.addr
  · simp only [ha, hheader, if_true, true_and, BitVec.ofNat_toNat,
      BitVec.setWidth_eq]
    by_cases hp : pkt.l4proto = protoNumber s.proto
    · by_cases hd : pkt.dport = some s.port <;>
        simp [hp, hd, Packet.sentTo]
    · simp [hp]
  · simp [ha]

/-- The first service with a backend for the packet decides. -/
theorem evalRules_dnat (disp : SocketAddr → String) {p : Policy}
    (hi : pkt.iif = p.interface) (services : List ResolvedService) :
    evalRules t (dnatRules disp p services) pkt
      = (services.findSome? (backendFor pkt)).elim (none, pkt)
          fun b => (some .accept, pkt.sentTo b) := by
  induction services with
  | nil => rfl
  | cons s services ih =>
      rw [dnatRules] at ih ⊢
      rw [List.filterMap_cons, List.findSome?_cons]
      cases hb : ruledBackend s with
      | none =>
          have hnone : dnatRule disp p.interface s = none := by
            rw [ruledBackend] at hb
            unfold dnatRule
            split
            · next b htarget =>
              rw [htarget] at hb
              simpa using hb
            · rfl
          have hfor : backendFor pkt s = none := by
            rw [backendFor, hb, ite_self]
          rw [hnone, hfor]
          exact ih
      | some b =>
          obtain ⟨r, hr⟩ : ∃ r, dnatRule disp p.interface s = some r := by
            obtain ⟨htarget, hfamily⟩ := ruledBackend_eq_some.mp hb
            rw [dnatRule, htarget]
            simp [hfamily]
          have heval := evalRule_dnat t pkt (hi ▸ hr) hb
          rw [hr]
          dsimp only
          rw [evalRules, heval]
          by_cases hf : ForService s pkt
          · have hfor : backendFor pkt s = some b := by
              rw [backendFor, if_pos hf, hb]
            rw [if_pos hf, hfor]
            rfl
          · have hfor : backendFor pkt s = none := by
              rw [backendFor, if_neg hf]
            rw [if_neg hf, hfor]
            exact ih

end Rules

/-- A packet is for one service at most. -/
theorem ForService.unique {services : List ResolvedService}
    (hn : (services.map ResolvedService.key).Nodup)
    {s s' : ResolvedService} (hs : s ∈ services) (hs' : s' ∈ services)
    {pkt : Packet} (h : ForService s pkt) (h' : ForService s' pkt) :
    s = s' := by
  refine List.inj_on_of_nodup_map hn hs hs' ?_
  have hproto : s.proto = s'.proto := by
    have hnum := h.2.1.symm.trans h'.2.1
    cases hp : s.proto <;> cases hp' : s'.proto <;>
      first | rfl | (rw [hp, hp'] at hnum; cases hnum)
  have hport := Option.some.inj (h.2.2.symm.trans h'.2.2)
  rw [ResolvedService.key, ResolvedService.key, ← h.1, ← h'.1, hproto,
    hport]

theorem findSome?_backendFor {services : List ResolvedService}
    (hn : (services.map ResolvedService.key).Nodup) {pkt : Packet}
    {b : SocketAddr} :
    services.findSome? (backendFor pkt) = some b
      ↔ ∃ s ∈ services, ForService s pkt ∧ s.target = .nat b
        ∧ s.addr.isIpv4 = b.ip.isIpv4 := by
  constructor
  · intro h
    obtain ⟨s, hs, hb⟩ := List.exists_of_findSome?_eq_some h
    exact ⟨s, hs, backendFor_eq_some.mp hb⟩
  · rintro ⟨s, hs, hb⟩
    cases hfind : services.findSome? (backendFor pkt) with
    | none =>
        have := List.findSome?_eq_none_iff.mp hfind s hs
        rw [backendFor_eq_some.mpr hb] at this
        cases this
    | some b' =>
        obtain ⟨s', hs', hb'⟩ := List.exists_of_findSome?_eq_some hfind
        have hb'' := backendFor_eq_some.mp hb'
        obtain rfl := hb.1.unique hn hs hs' hb''.1
        rw [hb.2.1] at hb''
        rw [ServiceTarget.nat.inj hb''.2.1]

-- ======================================================== the two chains

/-- What the prerouting chain lets through keeps its destination. -/
theorem accepted_same {p : Policy} {services : List ResolvedService}
    {v : Verdict} {pkt pkt' : Packet}
    (h : classify p services v pkt = (.accept, pkt')) :
    pkt'.iif = pkt.iif ∧ pkt'.daddr = pkt.daddr
      ∧ pkt'.l4proto = pkt.l4proto ∧ pkt'.dport = pkt.dport := by
  unfold classify at h
  split at h
  · cases h
    exact ⟨rfl, rfl, rfl, rfl⟩
  split at h
  · cases h
    exact ⟨rfl, rfl, rfl, rfl⟩
  split at h
  · split at h
    · cases h
    · cases h
      exact ⟨rfl, rfl, rfl, rfl⟩
  · cases h
    exact ⟨rfl, rfl, rfl, rfl⟩

theorem backendFor_congr {pkt pkt' : Packet}
    (h : pkt'.daddr = pkt.daddr ∧ pkt'.l4proto = pkt.l4proto
      ∧ pkt'.dport = pkt.dport) : backendFor pkt' = backendFor pkt := by
  funext s
  have hfor : ForService s pkt' ↔ ForService s pkt := by
    rw [ForService, ForService, h.1, h.2.1, h.2.2]
  exact if_congr hfor rfl rfl

/-- A packet is rewritten when its service has a rule. -/
theorem rewritten_apply (disp : SocketAddr → String) {p : Policy}
    {services : List ResolvedService} (hres : p.resolve = .ok services) :
    ∃ t, (apply disp true p ∅).2.lookup
        (InstanceIds.derive p.instanceName).nftTable = some t
      ∧ ∀ pkt, pkt.iif = p.interface → ∀ b, Rewritten t pkt b
        ↔ ∃ s ∈ services, ForService s pkt ∧ s.target = .nat b
          ∧ s.addr.isIpv4 = b.ip.isIpv4 := by
  obtain ⟨-, -, hn⟩ := Policy.resolve_ok_iff.mp hres
  rw [← Policy.resolve_ok hres] at hn
  obtain ⟨t, hlk, hdnat, hpre⟩ := evalChain_apply disp hres
  refine ⟨t, hlk, fun pkt hi b => ?_⟩
  rw [← findSome?_backendFor hn, Rewritten, hdnat]
  constructor
  · rintro ⟨pkt', hpre', hrw⟩
    have hsame := accepted_same (hpre pkt ▸ hpre')
    rw [evalRules_dnat t pkt' disp (hsame.1.trans hi),
      backendFor_congr hsame.2] at hrw
    cases hfind : services.findSome? (backendFor pkt) with
    | none =>
        rw [hfind] at hrw
        cases hrw
    | some b' =>
        rw [hfind] at hrw
        rw [Packet.sentTo_injective (Prod.mk.inj hrw).2]
  · intro hfind
    obtain ⟨s, hs, hfor, -⟩ := (findSome?_backendFor hn).mp hfind
    refine ⟨pkt, ?_, ?_⟩
    · rw [hpre, classify, if_neg (not_not_intro hi), if_pos ⟨s, hs, hfor⟩]
    · rw [evalRules_dnat t pkt disp hi, hfind]
      rfl

/-- Every packet for a service reaches its backend, or is left alone when
it has none, unless the backend is of the other family. -/
theorem nat_reaches_backend_iff (disp : SocketAddr → String) {p : Policy}
    {services : List ResolvedService} (hres : p.resolve = .ok services) :
    ∃ t, (apply disp true p ∅).2.lookup
        (InstanceIds.derive p.instanceName).nftTable = some t
      ∧ ∀ pkt, pkt.iif = p.interface →
        (ReachesBackend services t pkt
          ↔ ∀ s ∈ services, ForService s pkt → ∀ b, s.target = .nat b →
            s.addr.isIpv4 = b.ip.isIpv4) := by
  obtain ⟨-, -, hn⟩ := Policy.resolve_ok_iff.mp hres
  rw [← Policy.resolve_ok hres] at hn
  obtain ⟨t, hlk, hrw⟩ := rewritten_apply disp hres
  refine ⟨t, hlk, fun pkt hi => ⟨fun h s hs hfor b hb => ?_, fun h => ?_⟩⟩
  · obtain ⟨s', hs', hfor', hb', hfamily⟩ :=
      (hrw pkt hi b).mp (h.delivered s hs hfor b hb)
    rw [hfor.unique hn hs hs' hfor']
    exact hfamily
  · refine ⟨fun b => ?_, fun s hs hfor b hb => ?_,
      fun s hs hfor hother b hb => ?_⟩
    · refine (hrw pkt hi b).trans (exists_congr fun s => ?_)
      refine and_congr_right fun hs => and_congr_right fun hfor => ?_
      exact and_iff_left_of_imp fun hb => h s hs hfor b hb
    · exact (hrw pkt hi b).mpr ⟨s, hs, hfor, hb, h s hs hfor b hb⟩
    · obtain ⟨s', hs', hfor', hb', -⟩ := (hrw pkt hi b).mp hb
      obtain rfl := hfor.unique hn hs hs' hfor'
      rw [hb'] at hother
      rcases hother with hhost | ⟨name, hincus⟩
      · cases hhost
      · cases hincus

/-- A service of one address with a backend. -/
def natPolicy (backend : SocketAddr) : Policy :=
  { webPolicy [] with
    tenants :=
      [{ name := "acme", owned := [.v4 0xCB007105]
         allows := [⟨.tcp, 443, .nat backend, none⟩] }] }

/-- The same with a backend of its own family. -/
def mappedPolicy : Policy := natPolicy ⟨.v4 0x0A000005, 8443⟩

theorem nat_reaches_backend_own_family :
    ∃ t, (apply (fun _ => "") true mappedPolicy ∅).2.lookup
        (InstanceIds.derive none).nftTable = some t
      ∧ ∀ pkt, pkt.iif = "lo" →
        (ReachesBackend mappedPolicy.services t pkt
          ↔ ∀ s ∈ mappedPolicy.services, ForService s pkt →
            ∀ b, s.target = .nat b → s.addr.isIpv4 = b.ip.isIpv4) :=
  have hres : mappedPolicy.resolve = .ok mappedPolicy.services := by
    decide +kernel
  nat_reaches_backend_iff (fun _ => "") hres

/-- An IPv4 service with an IPv6 backend: its packets are let through and
keep the address they came with. -/
theorem cross_family_undelivered :
    let p := natPolicy ⟨.v6 0x20010db8000000000000000000000005, 8443⟩
    let t := Kernel.table "blackwall" (apply (fun _ => "") true p ∅).2
    let pkt : Packet := ⟨"lo", .v4 0xCB007105, 6, some 443, 0, none⟩
    p.resolve = .ok p.services ∧ Serves p.services pkt
      ∧ evalChain t "prerouting" pkt = (.accept, pkt)
      ∧ evalRules t (t.rules "dnat") pkt = (none, pkt) := by
  decide +kernel

end Blackwall.Nft
