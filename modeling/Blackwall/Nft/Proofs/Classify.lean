/-
What the ruleset does with every packet.

The prerouting rules come in groups: accept a service, queue a stateless
port, redirect the rest of TCP, queue what is not TCP, and drop under the
closed posture. The rules of one group give the same verdict and differ
in their prefix only, so a group decides a packet when one of the
prefixes has its address (`evalRules_prefixes`). `classify` is what the groups
are for, in terms of the policy's services and prefixes.
-/
import Blackwall.Nft.Eval
import Blackwall.Nft.Proofs.Replace

namespace Blackwall.Nft

open Base Blackwall.Core

-- ========================================================= rules in order

section Order

variable {t : Table} {pkt : Packet}

theorem evalRules_append (xs ys : List Rule) (pkt : Packet) :
    evalRules t (xs ++ ys) pkt
      = match evalRules t xs pkt with
        | (some v, pkt') => (some v, pkt')
        | (none, pkt') => evalRules t ys pkt' := by
  induction xs generalizing pkt with
  | nil => rfl
  | cons r xs ih =>
      rw [List.cons_append, evalRules, evalRules]
      cases evalRule t r.expr pkt with
      | mk v pkt' =>
          cases v with
          | none => exact ih pkt'
          | some v => rfl

/-- A group that does not decide the packet leaves it to the next. -/
theorem evalRules_append_none {xs : List Rule} (ys : List Rule)
    (h : evalRules t xs pkt = (none, pkt)) :
    evalRules t (xs ++ ys) pkt = evalRules t ys pkt := by
  rw [evalRules_append, h]

theorem evalRules_append_some {xs : List Rule} (ys : List Rule)
    {v : Verdict} {pkt' : Packet}
    (h : evalRules t xs pkt = (some v, pkt')) :
    evalRules t (xs ++ ys) pkt = (some v, pkt') := by
  rw [evalRules_append, h]

end Order

-- ========================================================= what they match

section Matches

variable (t : Table) (pkt : Packet)

/-- The number of a protocol. -/
def protoNumber : L4Proto → BitVec 8
  | .tcp => 6
  | .udp => 17

theorem protoValue_eq_iff (proto : BitVec 8) (l4 : L4Proto) :
    protoValue proto = .string l4.text ↔ proto = protoNumber l4 := by
  unfold protoValue
  by_cases h6 : proto = 6
  · rw [if_pos h6, h6]
    cases l4 <;> decide
  · rw [if_neg h6]
    by_cases h17 : proto = 17
    · rw [if_pos h17, h17]
      cases l4 <;> decide
    · rw [if_neg h17]
      refine iff_of_false (by simp) ?_
      cases l4 with
      | tcp => exact h6
      | udp => exact h17

theorem matchHolds_iifname (iface : String) :
    matchHolds t pkt (.atom (.metaKey .iifname)) (.atom (.string iface)) .eq
      = decide (pkt.iif = iface) := by
  simp [matchHolds, Expression.load, Expression.covers, Atom.load, eq_comm]

theorem matchHolds_tcp :
    matchHolds t pkt (.atom (.metaKey .l4proto)) (.atom (.string "tcp")) .eq
      = decide (pkt.l4proto = protoNumber .tcp) := by
  have h := protoValue_eq_iff pkt.l4proto .tcp
  simp only [L4Proto.text] at h
  simp [matchHolds, Expression.load, Expression.covers, Atom.load,
    @eq_comm _ (Value.string "tcp"), h]

theorem matchHolds_not_tcp :
    matchHolds t pkt (.atom (.metaKey .l4proto)) (.atom (.string "tcp"))
        .neq
      = decide (pkt.l4proto ≠ protoNumber .tcp) := by
  have h := protoValue_eq_iff pkt.l4proto .tcp
  simp only [L4Proto.text] at h
  simp [matchHolds, Expression.load, Expression.covers, Atom.load,
    @eq_comm _ (Value.string "tcp"), h]

/-- A packet of the other family does not have the header. -/
theorem matchHolds_net (n : IpNet) :
    matchHolds t pkt (.atom (.payload (protoName n.addr) "daddr")) (.net n)
        .eq
      = n.contains pkt.daddr := by
  cases n with
  | v4 n =>
      cases h : pkt.daddr with
      | v4 a =>
          simp [matchHolds, Expression.load, Expression.covers, Atom.load,
            IpNet.addr, protoName, IpAddr.isIpv4, headerName, h]
      | v6 a =>
          simp [matchHolds, Expression.load, Atom.load, IpNet.addr,
            protoName, IpAddr.isIpv4, headerName, h, IpNet.contains]
  | v6 n =>
      cases h : pkt.daddr with
      | v4 a =>
          simp [matchHolds, Expression.load, Atom.load, IpNet.addr,
            protoName, IpAddr.isIpv4, headerName, h, IpNet.contains]
      | v6 a =>
          simp [matchHolds, Expression.load, Expression.covers, Atom.load,
            IpNet.addr, protoName, IpAddr.isIpv4, headerName, h]

theorem matchHolds_ports (ports : List (BitVec 16)) :
    matchHolds t pkt (.atom (.payload "th" "dport"))
        (.numbers (ports.map BitVec.toNat)) .inside
      = decide (∃ port ∈ ports, pkt.dport = some port) := by
  cases h : pkt.dport with
  | none => simp [matchHolds, Expression.load, Atom.load, h]
  | some p =>
      simp [matchHolds, Expression.load, Expression.covers, Atom.load, h,
        BitVec.toNat_inj, eq_comm]

end Matches

-- ============================================================ the services

/-- The packet is for one of the services. -/
def Serves (services : List ResolvedService) (pkt : Packet) : Prop :=
  ∃ s ∈ services, pkt.daddr = s.addr ∧ pkt.l4proto = protoNumber s.proto
    ∧ pkt.dport = some s.port

instance Serves.decidable (services : List ResolvedService)
    (pkt : Packet) : Decidable (Serves services pkt) :=
  inferInstanceAs (Decidable (∃ s ∈ services, _))

theorem load_key (pkt : Packet) (header : String) :
    Expression.load pkt (.concat [.payload header "daddr",
        .metaKey .l4proto, .payload "th" "dport"])
      = if header = headerName pkt.daddr then
          pkt.dport.map fun port => [.addr pkt.daddr,
            protoValue pkt.l4proto, .number port.toNat]
        else none := by
  by_cases hh : header = headerName pkt.daddr
  · cases hd : pkt.dport <;> simp [Expression.load, Atom.load, hh, hd]
  · simp [Expression.load, Atom.load, hh]

/-- It is an element exactly when the packet is for its service. -/
theorem load_setElement (pkt : Packet) (s : ResolvedService)
    (port : BitVec 16) (hport : pkt.dport = some port) :
    (setElement s).load pkt = some [.addr pkt.daddr,
        protoValue pkt.l4proto, .number port.toNat]
      ↔ pkt.daddr = s.addr ∧ pkt.l4proto = protoNumber s.proto
        ∧ pkt.dport = some s.port := by
  have hproto := protoValue_eq_iff pkt.l4proto s.proto
  simp [setElement, Expression.load, Atom.load, hport, ← hproto,
    BitVec.toNat_inj, eq_comm]

theorem matchHolds_set (t : Table) (pkt : Packet) (header : String)
    {set : String} {family : IpAddr → Bool} {services : List ResolvedService}
    (hset : Opens t set family services)
    (hheader : header = headerName pkt.daddr)
    (hfamily : family pkt.daddr = true) :
    matchHolds t pkt (.concat [.payload header "daddr", .metaKey .l4proto,
        .payload "th" "dport"]) (.setRef set) .inside
      = decide (Serves services pkt) := by
  unfold matchHolds
  rw [load_key, if_pos hheader]
  cases hport : pkt.dport with
  | none =>
      refine (decide_eq_false ?_).symm
      rintro ⟨s, -, -, -, hs⟩
      rw [hport] at hs
      cases hs
  | some port =>
      simp only [Option.map_some, Expression.covers, reduceCtorEq,
        if_false, decide_eq_decide]
      constructor
      · rintro ⟨e, he, hload⟩
        obtain ⟨s, hs, -, rfl⟩ := (hset e).mp he
        exact ⟨s, hs, (load_setElement pkt s port hport).mp hload⟩
      · rintro ⟨s, hs, hkey⟩
        refine ⟨setElement s, (hset _).mpr ⟨s, hs, ?_, rfl⟩,
          (load_setElement pkt s port hport).mpr hkey⟩
        rw [← hkey.1]
        exact hfamily

/-- The accept rules let the services through. -/
theorem evalRules_accept {t : Table} {p : Policy}
    {services : List ResolvedService}
    (h4 : Opens t "real_v4" IpAddr.isIpv4 services)
    (h6 : Opens t "real_v6" IpAddr.isIpv6 services) (pkt : Packet) :
    evalRules t (acceptRules p) pkt
      = if pkt.iif = p.interface ∧ Serves services pkt then
          (some .accept, pkt)
        else (none, pkt) := by
  have hnfproto : ∀ name, matchHolds t pkt (.atom (.metaKey .nfproto))
      (.atom (.string name)) .eq
        = decide (familyName pkt.daddr = name) := by
    intro name
    simp [matchHolds, Expression.load, Expression.covers, Atom.load,
      eq_comm]
  by_cases hi : pkt.iif = p.interface
  · cases ha : pkt.daddr with
    | v4 a =>
        have hm := matchHolds_set t pkt "ip" h4 (by rw [ha]; rfl)
          (by rw [ha]; rfl)
        by_cases hs : Serves services pkt
        · simp [acceptRules, acceptRule, evalRules, evalRule,
            iifnameMatch, matchHolds_iifname, hi, hnfproto, ha,
            familyName, hm, hs]
        · simp [acceptRules, acceptRule, evalRules, evalRule,
            iifnameMatch, matchHolds_iifname, hi, hnfproto, ha,
            familyName, hm, hs]
    | v6 a =>
        have hm := matchHolds_set t pkt "ip6" h6 (by rw [ha]; rfl)
          (by rw [ha]; rfl)
        by_cases hs : Serves services pkt
        · simp [acceptRules, acceptRule, evalRules, evalRule,
            iifnameMatch, matchHolds_iifname, hi, hnfproto, ha,
            familyName, hm, hs]
        · simp [acceptRules, acceptRule, evalRules, evalRule,
            iifnameMatch, matchHolds_iifname, hi, hnfproto, ha,
            familyName, hm, hs]
  · simp [acceptRules, acceptRule, evalRules, evalRule, iifnameMatch,
      matchHolds_iifname, hi]

-- ===================================================== the other groups

/-- A prefix that has the address is of its family. -/
theorem protoName_of_contains {n : IpNet} {a : IpAddr}
    (h : n.contains a = true) : protoName n.addr = headerName a := by
  cases n <;> cases a <;> first | rfl | cases h

section Groups

variable (t : Table) (p : Policy) (pkt : Packet)

/-- The address is in a managed prefix. -/
def Managed (p : Policy) (pkt : Packet) : Prop :=
  ∃ n ∈ p.prefixes, n.contains pkt.daddr = true

instance Managed.decidable : Decidable (Managed p pkt) :=
  inferInstanceAs (Decidable (∃ n ∈ p.prefixes, _))

/-- A group: one rule a prefix, with one verdict between them. -/
theorem evalRules_prefixes {t : Table} {pkt : Packet} (f : IpNet → Rule)
    (cond : Prop) [Decidable cond] {v : Verdict} {pkt' : Packet}
    (h : ∀ n : IpNet, evalRule t (f n).expr pkt
      = if cond ∧ n.contains pkt.daddr = true then (some v, pkt')
        else (none, pkt)) (ns : List IpNet) :
    evalRules t (ns.map f) pkt
      = if cond ∧ ∃ n ∈ ns, n.contains pkt.daddr = true then
          (some v, pkt')
        else (none, pkt) := by
  induction ns with
  | nil => simp [evalRules]
  | cons n ns ih =>
      rw [List.map_cons, evalRules, h n]
      by_cases hn : cond ∧ n.contains pkt.daddr = true
      · rw [if_pos hn, if_pos ⟨hn.1, n, List.mem_cons_self, hn.2⟩]
      · rw [if_neg hn]
        refine ih.trans (if_congr (and_congr_right fun hc => ?_) rfl rfl)
        simp only [List.mem_cons, exists_eq_or_imp]
        exact (or_iff_right fun h => hn ⟨hc, h⟩).symm

/-- The port is one of the stateless tier's. -/
def Stateless (p : Policy) (pkt : Packet) : Prop :=
  ∃ port ∈ p.statelessTcpPorts, pkt.dport = some port

instance Stateless.decidable : Decidable (Stateless p pkt) :=
  inferInstanceAs (Decidable (∃ port ∈ p.statelessTcpPorts, _))

theorem evalRules_stateless (hi : pkt.iif = p.interface) :
    evalRules t (statelessTcpRules p) pkt
      = if (pkt.l4proto = protoNumber .tcp ∧ Stateless p pkt)
            ∧ Managed p pkt then
          (some (.queue p.engine.nfqueueNum.toNat), pkt)
        else (none, pkt) := by
  unfold statelessTcpRules
  split
  · next hempty =>
    rw [List.isEmpty_iff] at hempty
    rw [if_neg]
    · rfl
    · rintro ⟨⟨-, port, hport, -⟩, -⟩
      rw [hempty] at hport
      cases hport
  · refine evalRules_prefixes _ _ (fun n => ?_) p.prefixes
    simp only [evalRule, iifnameMatch, l4protoMatch, inPrefix,
      matchHolds_iifname, matchHolds_tcp, matchHolds_net,
      matchHolds_ports, hi, decide_true, if_true, decide_eq_true_eq]
    by_cases h6 : pkt.l4proto = protoNumber .tcp
    · cases hn : n.contains pkt.daddr <;> simp [h6, Stateless]
    · simp [h6]

theorem evalRules_tproxy (ids : InstanceIds) (hi : pkt.iif = p.interface) :
    evalRules t (tproxyRules p ids) pkt
      = if pkt.l4proto = protoNumber .tcp ∧ Managed p pkt then
          (some .accept, { pkt with mark := ids.tproxyMark.toNat
                                    socket := some
                                      p.engine.tproxyPort.toNat })
        else (none, pkt) := by
  unfold tproxyRules
  refine evalRules_prefixes _ _ (fun n => ?_) p.prefixes
  simp only [evalRule, iifnameMatch, l4protoMatch, inPrefix,
    matchHolds_iifname, matchHolds_tcp, matchHolds_net, hi, decide_true,
    if_true, decide_eq_true_eq]
  by_cases h6 : pkt.l4proto = protoNumber .tcp
  · cases hn : n.contains pkt.daddr with
    | false => simp [h6]
    | true => simp [h6, protoName_of_contains hn]
  · simp [h6]

theorem evalRules_queue (hi : pkt.iif = p.interface) :
    evalRules t (queueRules p) pkt
      = if pkt.l4proto ≠ protoNumber .tcp ∧ Managed p pkt then
          (some (.queue p.engine.nfqueueNum.toNat), pkt)
        else (none, pkt) := by
  unfold queueRules
  refine evalRules_prefixes _ _ (fun n => ?_) p.prefixes
  simp only [evalRule, iifnameMatch, l4protoMatch, inPrefix,
    matchHolds_iifname, matchHolds_not_tcp, matchHolds_net, hi,
    decide_true, if_true, decide_eq_true_eq]
  by_cases h6 : pkt.l4proto = protoNumber .tcp
  · simp [h6]
  · cases hn : n.contains pkt.daddr <;> simp [h6]

theorem evalRules_drop (hi : pkt.iif = p.interface) :
    evalRules t (dropRules p) pkt
      = if p.defaultState = .closed then (some .drop, pkt)
        else (none, pkt) := by
  unfold dropRules
  split
  · simp [evalRules, evalRule, iifnameMatch, matchHolds_iifname, hi]
  · rfl

end Groups

-- ========================================================= the whole chain

/-- A packet of another interface meets none of the rules. -/
theorem evalRules_other_interface {t : Table} {iface : String}
    {pkt : Packet} (hi : pkt.iif ≠ iface) {rs : List Rule}
    (hrs : ∀ r ∈ rs, ∃ rest, r.expr = iifnameMatch iface :: rest) :
    evalRules t rs pkt = (none, pkt) := by
  induction rs with
  | nil => rfl
  | cons r rs ih =>
      obtain ⟨rest, hr⟩ := hrs r List.mem_cons_self
      rw [evalRules, hr, iifnameMatch, evalRule, matchHolds_iifname,
        decide_eq_false hi]
      exact ih fun r' hr' => hrs r' (List.mem_cons_of_mem r hr')

/-- What a policy's ruleset is for: services are let through, and the rest
of the managed prefixes goes to the deception tiers; what is left over is
dropped or not, as the posture has it. -/
def classify (p : Policy) (services : List ResolvedService)
    (leftover : Verdict) (pkt : Packet) : Verdict × Packet :=
  if pkt.iif ≠ p.interface then (.accept, pkt)
  else if Serves services pkt then (.accept, pkt)
  else if Managed p pkt then
    if pkt.l4proto ≠ protoNumber .tcp ∨ Stateless p pkt then
      (.queue p.engine.nfqueueNum.toNat, pkt)
    else
      (.accept,
        { pkt with
          mark := (InstanceIds.derive p.instanceName).tproxyMark.toNat
          socket := some p.engine.tproxyPort.toNat })
  else (leftover, pkt)

/-- The verdict on what no group decides. -/
def leftover (p : Policy) : Verdict :=
  if p.defaultState = .closed then .drop else .accept

/-- The groups in order: the first that decides. -/
theorem evalRules_prerouting {t : Table} {p : Policy}
    {services : List ResolvedService}
    (h4 : Opens t "real_v4" IpAddr.isIpv4 services)
    (h6 : Opens t "real_v6" IpAddr.isIpv6 services) {pkt : Packet}
    (hi : pkt.iif = p.interface) (ids : InstanceIds) :
    evalRules t (preroutingRules p ids) pkt
      = if Serves services pkt then (some .accept, pkt)
        else if Managed p pkt then
          if pkt.l4proto ≠ protoNumber .tcp ∨ Stateless p pkt then
            (some (.queue p.engine.nfqueueNum.toNat), pkt)
          else
            (some .accept, { pkt with mark := ids.tproxyMark.toNat
                                      socket := some
                                        p.engine.tproxyPort.toNat })
        else evalRules t (dropRules p) pkt := by
  have haccept := evalRules_accept (p := p) h4 h6 pkt
  have hless := evalRules_stateless t p pkt hi
  have htproxy := evalRules_tproxy t p pkt ids hi
  have hqueue := evalRules_queue t p pkt hi
  unfold preroutingRules
  by_cases hs : Serves services pkt
  · rw [if_pos ⟨hi, hs⟩] at haccept
    rw [if_pos hs]
    exact evalRules_append_some _ (evalRules_append_some _
      (evalRules_append_some _ (evalRules_append_some _ haccept)))
  rw [if_neg fun h => hs h.2] at haccept
  rw [if_neg hs]
  have hless' := (evalRules_append_none _ haccept).trans hless
  by_cases hm : Managed p pkt
  · rw [if_pos hm]
    by_cases htcp : pkt.l4proto = protoNumber .tcp
    · by_cases hst : Stateless p pkt
      · rw [if_pos ⟨⟨htcp, hst⟩, hm⟩] at hless'
        rw [if_pos (.inr hst)]
        exact evalRules_append_some _ (evalRules_append_some _
          (evalRules_append_some _ hless'))
      · rw [if_neg fun h => hst h.1.2] at hless'
        rw [if_pos ⟨htcp, hm⟩] at htproxy
        rw [if_neg fun h => h.elim (· htcp) hst]
        exact evalRules_append_some _ (evalRules_append_some _
          ((evalRules_append_none _ hless').trans htproxy))
    · rw [if_neg fun h => htcp h.1.1] at hless'
      rw [if_neg fun h => htcp h.1] at htproxy
      rw [if_pos ⟨htcp, hm⟩] at hqueue
      rw [if_pos (.inl htcp)]
      have hrest := (evalRules_append_none _ hless').trans htproxy
      exact evalRules_append_some _
        ((evalRules_append_none _ hrest).trans hqueue)
  · rw [if_neg fun h => hm h.2] at hless' htproxy hqueue
    rw [if_neg hm]
    have hrest := (evalRules_append_none _ hless').trans htproxy
    exact evalRules_append_none _
      ((evalRules_append_none _ hrest).trans hqueue)

/-- The chain does what the policy is for. -/
theorem evalChain_classify {t : Table} {p : Policy}
    {services : List ResolvedService}
    (h4 : Opens t "real_v4" IpAddr.isIpv4 services)
    (h6 : Opens t "real_v6" IpAddr.isIpv6 services)
    (hrules : t.rules "prerouting"
      = preroutingRules p (InstanceIds.derive p.instanceName))
    (hpolicy : t.policy "prerouting" = .accept) (pkt : Packet) :
    evalChain t "prerouting" pkt
      = classify p services (leftover p) pkt := by
  unfold evalChain classify
  rw [hrules, hpolicy]
  by_cases hi : pkt.iif = p.interface
  · rw [if_neg (not_not_intro hi), evalRules_prerouting h4 h6 hi,
      evalRules_drop t p pkt hi]
    unfold leftover
    by_cases hs : Serves services pkt
    · rw [if_pos hs, if_pos hs]
    rw [if_neg hs, if_neg hs]
    by_cases hm : Managed p pkt
    · rw [if_pos hm, if_pos hm]
      by_cases hq : pkt.l4proto ≠ protoNumber .tcp ∨ Stateless p pkt
      · rw [if_pos hq, if_pos hq]
      · rw [if_neg hq, if_neg hq]
    · rw [if_neg hm, if_neg hm]
      by_cases hc : p.defaultState = .closed
      · rw [if_pos hc, if_pos hc]
      · rw [if_neg hc, if_neg hc]
        rfl
  · rw [if_pos hi, evalRules_other_interface hi
      fun r hr => (preroutingRules_scoped p _ r hr).2]
    rfl

-- ======================================================== a policy's table

/-- Every chain of the table ends in an accept. -/
def Accepting (t : Table) : Prop :=
  ∀ c chain, t.chains.lookup c = some chain → chain.1.policy = .accept

theorem Accepting.policy {t : Table} (h : Accepting t) (c : String) :
    t.policy c = .accept := by
  unfold Table.policy
  split
  · next chain hc => exact h c chain hc
  · rfl

/-- Only adding a chain sets a policy. -/
theorem Accepting.exec {t t' : Table} {op : TableOp} (h : Accepting t)
    (hop : ∀ c, op = .addChain c → c.policy = .accept)
    (hrun : t.exec op = some t') : Accepting t' := by
  cases op with
  | flush =>
      cases hrun
      intro c chain hc
      rw [Dict.lookup_mapVals, Option.map_eq_some_iff] at hc
      obtain ⟨old, hold, rfl⟩ := hc
      exact h c old hold
  | addSet s =>
      cases hrun
      exact h
  | addChain added =>
      simp only [Table.exec] at hrun
      split at hrun
      · cases hrun
        exact h
      · cases hrun
        intro c chain hc
        rw [Dict.lookup_insert_if] at hc
        split at hc
        · cases hc
          exact hop added rfl
        · exact h c chain hc
  | addRule r =>
      simp only [Table.exec] at hrun
      split at hrun
      · next old rules hold =>
        cases hrun
        intro c chain hc
        rw [Dict.lookup_insert_if] at hc
        split at hc
        · cases hc
          exact h r.chain (old, rules) hold
        · exact h c chain hc
      · cases hrun
  | addFlowTable f =>
      simp only [Table.exec] at hrun
      split at hrun
      · cases hrun
        exact h
      · cases hrun
        exact h

theorem Accepting.execAll {t t' : Table} {ops : List TableOp}
    (h : Accepting t)
    (hops : ∀ c, .addChain c ∈ ops → c.policy = .accept)
    (hrun : execAll ops t = some t') : Accepting t' := by
  induction ops generalizing t with
  | nil =>
      cases hrun
      exact h
  | cons op ops ih =>
      simp only [Nft.execAll, Option.bind_eq_bind,
        Option.bind_eq_some_iff] at hrun
      obtain ⟨t₁, hop, hrest⟩ := hrun
      refine ih (h.exec (fun c hc => hops c ?_) hop)
        (fun c hc => hops c (List.mem_cons_of_mem _ hc)) hrest
      rw [hc]
      exact List.mem_cons_self

/-- The three chains a policy adds. -/
theorem policy_tableOps {disp : SocketAddr → String} {p : Policy}
    {ids : InstanceIds} {resolved : List ResolvedService} {c : Chain}
    (h : .addChain c ∈ tableOps disp p ids resolved) :
    c.policy = .accept := by
  simp only [tableOps, flowtableOps, List.mem_append, List.mem_cons,
    List.mem_map, reduceCtorEq, and_false, exists_false, false_or,
    or_false, List.not_mem_nil, TableOp.addChain.injEq] at h
  rcases h with (rfl | rfl) | h
  · rfl
  · rfl
  · split at h
    · cases h
    · simp only [List.mem_cons, reduceCtorEq, TableOp.addChain.injEq,
        List.not_mem_nil, or_false, false_or] at h
      rw [h]
      rfl

theorem Opens.fresh {t : Table} {set : String} {family : IpAddr → Bool}
    {services : List ResolvedService}
    (h : t.elements set = Table.empty.elements set
      ∪ (setElementsFor services fun s => family s.addr).toFinset) :
    Opens t set family services := by
  intro e
  have hempty : e ∉ Table.empty.elements set := Finset.notMem_empty e
  rw [h, Finset.mem_union, or_iff_right hempty, mem_setElementsFor]

/-- A policy applied where there was no table classifies every packet, and
has the rewriting rules of its services. -/
theorem evalChain_apply (disp : SocketAddr → String) {p : Policy}
    {services : List ResolvedService} (hres : p.resolve = .ok services) :
    ∃ t, (apply disp true p ∅).2.lookup
        (InstanceIds.derive p.instanceName).nftTable = some t
      ∧ t.rules "dnat" = dnatRules disp p services
      ∧ ∀ pkt, evalChain t "prerouting" pkt
        = classify p services (leftover p) pkt := by
  obtain ⟨t, hrun, h4, h6, hpre, hdnat⟩ := makes_tableOps disp p
    (InstanceIds.derive p.instanceName) services .empty
  have haccepting : Accepting t := by
    refine Accepting.execAll ?_ (fun c => policy_tableOps) hrun
    intro c chain hc
    cases hc
  refine ⟨t, (apply_table disp hres ∅ rfl hrun).2, hdnat, fun pkt => ?_⟩
  exact evalChain_classify (.fresh h4) (.fresh h6) hpre
    (haccepting.policy _) pkt

/-- Under the deception posture a managed address that is no service is
queued or proxied, and nothing else is touched. -/
theorem deception_classifies (disp : SocketAddr → String) {p : Policy}
    {services : List ResolvedService} (hres : p.resolve = .ok services)
    (hposture : p.defaultState = .deception) :
    ∃ t, (apply disp true p ∅).2.lookup
        (InstanceIds.derive p.instanceName).nftTable = some t
      ∧ ∀ pkt, evalChain t "prerouting" pkt
        = classify p services .accept pkt := by
  obtain ⟨t, hlk, -, heval⟩ := evalChain_apply disp hres
  refine ⟨t, hlk, fun pkt => (heval pkt).trans ?_⟩
  rw [leftover, hposture, if_neg (by simp)]

theorem deception_classifies_web :
    ∃ t, (apply (fun _ => "") true (webPolicy [443]) ∅).2.lookup
        (InstanceIds.derive none).nftTable = some t
      ∧ ∀ pkt, evalChain t "prerouting" pkt
        = classify (webPolicy [443]) (webPolicy [443]).services .accept
          pkt :=
  have hres : (webPolicy [443]).resolve = .ok (webPolicy [443]).services := by
    decide +kernel
  deception_classifies (fun _ => "") hres rfl

-- ====================================================== the closed posture

/-- What the closed posture is for: on the managed interface, what is no
service is dropped; another interface is left alone. -/
def ClosedFor (p : Policy) (services : List ResolvedService) (t : Table)
    (pkt : Packet) : Prop :=
  (pkt.iif = p.interface → ¬ Serves services pkt →
    (evalChain t "prerouting" pkt).1 = .drop)
  ∧ (pkt.iif ≠ p.interface → evalChain t "prerouting" pkt = (.accept, pkt))

/-- The tiers' rules come before the drop whatever the posture: the drop
is for the addresses outside the managed prefixes. -/
theorem closed_drops_iff (disp : SocketAddr → String) {p : Policy}
    {services : List ResolvedService} (hres : p.resolve = .ok services)
    (hposture : p.defaultState = .closed) :
    ∃ t, (apply disp true p ∅).2.lookup
        (InstanceIds.derive p.instanceName).nftTable = some t
      ∧ ∀ pkt, ClosedFor p services t pkt
        ↔ (pkt.iif = p.interface → ¬ Serves services pkt →
          ¬ Managed p pkt) := by
  obtain ⟨t, hlk, -, heval⟩ := evalChain_apply disp hres
  refine ⟨t, hlk, fun pkt => ?_⟩
  have hdrop : leftover p = .drop := by rw [leftover, if_pos hposture]
  unfold ClosedFor
  rw [heval pkt, hdrop, classify]
  by_cases hi : pkt.iif = p.interface
  · rw [if_neg (not_not_intro hi)]
    simp only [hi, ne_eq, not_true_eq_false, false_implies, and_true,
      true_implies]
    refine imp_congr_right fun hs => ?_
    rw [if_neg hs]
    by_cases hm : Managed p pkt
    · rw [if_pos hm]
      split <;> simp [hm]
    · rw [if_neg hm]
      simp [hm]
  · rw [if_pos hi]
    simp [hi]

/-- A closed policy. -/
def closedPolicy : Policy := { webPolicy [443] with defaultState := .closed }

theorem closed_drops_iff_web :
    ∃ t, (apply (fun _ => "") true closedPolicy ∅).2.lookup
        (InstanceIds.derive none).nftTable = some t
      ∧ ∀ pkt, ClosedFor closedPolicy closedPolicy.services t pkt
        ↔ (pkt.iif = "lo" → ¬ Serves closedPolicy.services pkt →
          ¬ Managed closedPolicy pkt) :=
  have hres : closedPolicy.resolve = .ok closedPolicy.services := by
    decide +kernel
  closed_drops_iff (fun _ => "") hres rfl

/-- An SSH packet to a managed address under a closed policy is proxied. -/
theorem closed_policy_proxies :
    let k := (apply (fun _ => "") true closedPolicy ∅).2
    let pkt : Packet := ⟨"lo", .v4 0xCB007109, 6, some 22, 0, none⟩
    ¬ Serves closedPolicy.services pkt
      ∧ evalChain (Kernel.table "blackwall" k) "prerouting" pkt
        = (.accept, { pkt with
            mark := (InstanceIds.derive none).tproxyMark.toNat
            socket := some 61000 }) := by
  decide +kernel

end Blackwall.Nft
