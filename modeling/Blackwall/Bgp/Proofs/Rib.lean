/-
What the peer holds, against what the session holds active.

# From bytes to commands

The peer folds what it reads. In the bytes for a command it reads what the
command says (`parse_packet`), if they are no more than a message may
have; only an announcement can be longer, and such a one the peer does not
take up. So a fold over the bytes is a fold over the commands
(`foldl_receive`).

# From commands to maps

A peer that is told everything holds what is active (`rib_apply`,
`routes_announced`, `flows_announced`), and what the gate does not let
through it could as well be told and then not look at (`gate_tell`,
`gate_skip`). So what it should hold is `Active.restrict`. The rules' map
is keyed by the NLRI, and the peer's by the match it reads in it, which
tell the same rules apart (`flowKey_eq_iff`).
-/
import Blackwall.Bgp.Speaker
import Blackwall.Bgp.Proofs.Update
import Blackwall.Bgp.Proofs.FlowRule

namespace Blackwall.Bgp

open Base Peer

-- ================================================================= UPDATEs

/-- What the UPDATE for a command tells the peer. -/
def SessionCommand.told : SessionCommand → Peer.Update
  | .announce r => announcement r
  | .withdraw net => withdrawal net
  | .announceFlowSpec rule => flowAnnouncement rule
  | .withdrawFlowSpec rule => flowWithdrawal rule

/-- The bytes say what the command says. -/
theorem parse_packet {c : SessionCommand} {msg : List Byte}
    (h : packet c = some msg) (hmax : msg.length ≤ 4096) :
    Peer.parse msg = .ok c.told := by
  cases c with
  | announce r =>
      rw [length_announce h] at hmax
      exact parse_announce h hmax
  | withdraw net =>
      obtain ⟨w, hw, hread⟩ := parse_withdraw net
      cases hw.symm.trans h
      exact hread
  | announceFlowSpec rule =>
      obtain ⟨w, hw, -, hread⟩ := parse_flowspecAnnounce rule
      cases hw.symm.trans h
      exact hread
  | withdrawFlowSpec rule =>
      obtain ⟨w, hw, -, hread⟩ := parse_flowspecWithdraw rule
      cases hw.symm.trans h
      exact hread

theorem told_of_parse {c : SessionCommand} {msg : List Byte}
    {u : Peer.Update} (h : packet c = some msg)
    (hu : Peer.parse msg = .ok u) : u = c.told := by
  rw [parse_packet h (length_of_parse hu)] at hu
  exact (Except.ok.inj hu).symm

/-- What a command tells, at the peer. -/
def Peer.Rib.tell (rib : Rib) (c : SessionCommand) : Rib := rib.learn c.told

theorem receive_packet {c : SessionCommand} {msg : List Byte}
    (h : packet c = some msg) (hmax : msg.length ≤ 4096) (rib : Rib) :
    rib.receive msg = rib.tell c := by
  rw [Rib.receive, parse_packet h hmax]
  rfl

/-- Messages that are the packets of these commands. -/
theorem foldl_receive {cs : List SessionCommand} {msgs : List (List Byte)}
    (h : cs.map packet = msgs.map some)
    (hmax : ∀ msg ∈ msgs, msg.length ≤ 4096) (rib : Rib) :
    msgs.foldl Rib.receive rib = cs.foldl Rib.tell rib := by
  induction cs generalizing msgs rib with
  | nil =>
      cases msgs with
      | nil => rfl
      | cons msg msgs => cases h
  | cons c cs ih =>
      cases msgs with
      | nil => cases h
      | cons msg msgs =>
          obtain ⟨hmsg, hrest⟩ := List.cons.inj h
          rw [List.foldl_cons, List.foldl_cons,
            receive_packet hmsg (hmax msg List.mem_cons_self)]
          exact ih hrest (fun m hm => hmax m (List.mem_cons_of_mem msg hm)) _

-- ================================================================== SAFIs

/-- The SAFI of a rule's NLRI. -/
def Peer.Flow.safi (flow : Flow) : AnnounceSafi :=
  if flow.afi = 1 then .flowSpecV4 else .flowSpecV6

/-- The SAFIs an UPDATE has routes or rules of. -/
def Peer.Update.safis (u : Update) : List AnnounceSafi :=
  (u.withdrawn ++ u.announced.map (·.1)).map .forRoute
    ++ (u.flowsWithdrawn ++ u.flowsAnnounced).map Flow.safi

theorem safi_flowOf (rule : FlowSpecRule) :
    (flowOf rule).safi = .forFlowspec rule.dst := by
  obtain ⟨dst, protocol, dstPort, action⟩ := rule
  cases dst <;> rfl

theorem forRoute_trunc (net : IpNet) :
    AnnounceSafi.forRoute net.trunc = .forRoute net := by
  cases net <;> rfl

/-- A command's UPDATE is of the command's SAFI. -/
theorem safis_told (c : SessionCommand) : c.told.safis = [c.safi] := by
  cases c with
  | announce r => exact congrArg (fun x => [x]) (forRoute_trunc r.net)
  | withdraw net => exact congrArg (fun x => [x]) (forRoute_trunc net)
  | announceFlowSpec rule => exact congrArg (fun x => [x]) (safi_flowOf rule)
  | withdrawFlowSpec rule => exact congrArg (fun x => [x]) (safi_flowOf rule)

-- ================================================================== paths

/-- What a peer should hold of a route. -/
def Route.path (r : Route) : Path where
  nextHop := some r.nextHop
  origin := some r.origin
  asPath := some []
  communities := r.communities
  extended := []
  large := r.largeCommunities

/-- What a peer should hold of a rule: its rate. -/
def FlowSpecRule.path (rule : FlowSpecRule) : Path where
  nextHop := none
  origin := some .igp
  asPath := some []
  communities := []
  extended := [0x80 :: 0x06 :: 0 :: 0 :: be32 rule.action.rate.bits]
  large := []

/-- The RIB of a peer that is told all of it. -/
def Active.rib (a : Active) : Rib where
  routes net := (a.routes.lookup net).map Route.path
  flows flow := (a.flows.entries.find? fun e => flowOf e.2 = flow).map
    fun e => e.2.path

/-- The routes and rules of the SAFIs that are let through. -/
def Peer.Rib.gate (allow : AnnounceSafi → Bool) (rib : Rib) : Rib where
  routes net := if allow (.forRoute net) then rib.routes net else none
  flows flow := if allow flow.safi then rib.flows flow else none

/-- The active routes and rules of these SAFIs. -/
def Active.restrict (allow : AnnounceSafi → Bool) (a : Active) : Rib :=
  a.rib.gate allow

-- =============================================================== the gate

section Gate

variable {allow : AnnounceSafi → Bool} {c : SessionCommand}

theorem update_gated {J P : Type} [DecidableEq J] {q : J → Bool} {j : J}
    (h : q j = true) (f : J → Option P) (x : Option P) :
    Function.update (fun i => if q i then f i else none) j x
      = fun i => if q i then Function.update f j x i else none := by
  funext i
  by_cases hi : i = j
  · rw [hi, Function.update_self, Function.update_self, if_pos h]
  · rw [Function.update_of_ne hi, Function.update_of_ne hi]

theorem update_skipped {J P : Type} [DecidableEq J] {q : J → Bool} {j : J}
    (h : q j = false) (f : J → Option P) (x : Option P) :
    (fun i => if q i then Function.update f j x i else none)
      = fun i => if q i then f i else none := by
  funext i
  by_cases hi : i = j
  · rw [hi, h]
    rfl
  · rw [Function.update_of_ne hi]

theorem allow_told {b : Bool} (h : allow c.safi = b) :
    ∀ safi ∈ c.told.safis, allow safi = b := by
  rw [safis_told]
  exact List.forall_mem_singleton.mpr h

/-- A command that is let through passes the gate. -/
theorem gate_tell (h : allow c.safi = true) (rib : Rib) :
    (rib.gate allow).tell c = (rib.tell c).gate allow := by
  have htold := allow_told h
  cases c with
  | announce _ | withdraw _ =>
      ext1
      · exact update_gated (q := fun net : IpNet => allow (.forRoute net))
          (htold _ List.mem_cons_self) ..
      · rfl
  | announceFlowSpec _ | withdrawFlowSpec _ =>
      ext1
      · rfl
      · exact update_gated (q := fun flow : Flow => allow flow.safi)
          (htold _ List.mem_cons_self) ..

/-- One that is not is nothing behind it. -/
theorem gate_skip (h : allow c.safi = false) (rib : Rib) :
    (rib.tell c).gate allow = rib.gate allow := by
  have htold := allow_told h
  cases c with
  | announce _ | withdraw _ =>
      ext1
      · exact update_skipped (q := fun net : IpNet => allow (.forRoute net))
          (htold _ List.mem_cons_self) ..
      · rfl
  | announceFlowSpec _ | withdrawFlowSpec _ =>
      ext1
      · rfl
      · exact update_skipped (q := fun flow : Flow => allow flow.safi)
          (htold _ List.mem_cons_self) ..

theorem foldl_gate (cs : List SessionCommand) (rib : Rib) :
    (cs.filter fun c => allow c.safi).foldl Rib.tell (rib.gate allow)
      = (cs.foldl Rib.tell rib).gate allow := by
  induction cs generalizing rib with
  | nil => rfl
  | cons c cs ih =>
      cases h : allow c.safi with
      | true =>
          rw [List.filter_cons, if_pos h, List.foldl_cons, gate_tell h, ih,
            List.foldl_cons]
      | false =>
          rw [List.filter_cons, h, if_neg Bool.false_ne_true,
            ← gate_skip h rib, ih, List.foldl_cons]

end Gate

-- ================================================================== keys

theorem flowKey_eq (rule : FlowSpecRule) : flowKey rule = flowNlri rule := by
  rw [flowKey, encodeFlowspecNlri_eq]
  rfl

/-- The NLRI and the match that is read in it tell the same rules apart. -/
theorem flowKey_eq_iff {r r' : FlowSpecRule} :
    flowKey r = flowKey r' ↔ flowOf r = flowOf r' := by
  constructor
  · intro h
    rw [flowKey_eq, flowKey_eq] at h
    exact flowOf_of_flowNlri h
  · intro h
    rw [flowKey, flowKey, (encodeFlowspecNlri_inj r r').mpr (flowOf_inj h)]

/-- A command whose prefix has no host bits. -/
def SessionCommand.Clean : SessionCommand → Prop
  | .announce r => r.net.trunc = r.net
  | .withdraw net => net.trunc = net
  | _ => True

instance : DecidablePred SessionCommand.Clean
  | .announce r => inferInstanceAs (Decidable (r.net.trunc = r.net))
  | .withdraw net => inferInstanceAs (Decidable (net.trunc = net))
  | .announceFlowSpec _ => inferInstanceAs (Decidable True)
  | .withdrawFlowSpec _ => inferInstanceAs (Decidable True)

/-- Every entry stands under its own key. -/
structure Active.Keyed (a : Active) : Prop where
  routes : ∀ net r, a.routes.lookup net = some r →
    r.net = net ∧ net.trunc = net
  flows : ∀ key rule, a.flows.lookup key = some rule → flowKey rule = key

namespace Active

variable {a : Active} {c : SessionCommand}

theorem Keyed.empty : Keyed ⟨∅, ∅⟩ where
  routes := fun _ _ hl => by
    rw [AList.lookup_empty] at hl
    cases hl
  flows := fun _ _ hl => by
    rw [AList.lookup_empty] at hl
    cases hl

theorem Keyed.apply (h : a.Keyed) (hc : c.Clean) : (a.apply c).Keyed := by
  cases c with
  | announce r =>
      refine ⟨fun net r' hl => ?_, h.flows⟩
      rw [Active.apply, Dict.lookup_insert_if] at hl
      split at hl
      · next hnet =>
        cases hl
        exact ⟨hnet.symm, hnet ▸ hc⟩
      · exact h.routes net r' hl
  | withdraw n =>
      refine ⟨fun net r' hl => ?_, h.flows⟩
      rw [Active.apply, Dict.lookup_erase_if] at hl
      split at hl
      · cases hl
      · exact h.routes net r' hl
  | announceFlowSpec rule =>
      refine ⟨h.routes, fun key rule' hl => ?_⟩
      rw [Active.apply, Dict.lookup_insert_if] at hl
      split at hl
      · next hkey =>
        cases hl
        exact hkey.symm
      · exact h.flows key rule' hl
  | withdrawFlowSpec rule =>
      refine ⟨h.routes, fun key rule' hl => ?_⟩
      rw [Active.apply, Dict.lookup_erase_if] at hl
      split at hl
      · cases hl
      · exact h.flows key rule' hl

theorem Keyed.drain {queue : List SessionCommand} (h : a.Keyed)
    (hq : ∀ c ∈ queue, c.Clean) : (drainCommands a queue).Keyed := by
  induction queue generalizing a with
  | nil => exact h
  | cons c queue ih =>
      exact ih (h.apply (hq c List.mem_cons_self))
        fun d hd => hq d (List.mem_cons_of_mem c hd)

-- ============================================================= one command

/-- The rule a peer holds for a match is the active one with that match. -/
theorem rib_flows_some (hk : a.Keyed) {flow : Flow} {p : Path} :
    a.rib.flows flow = some p
      ↔ ∃ rule, a.flows.lookup (flowKey rule) = some rule
        ∧ flowOf rule = flow ∧ rule.path = p := by
  show (a.flows.entries.find? _).map _ = some p ↔ _
  rw [Option.map_eq_some_iff]
  constructor
  · rintro ⟨⟨key, rule⟩, hfind, hp⟩
    have hflow := List.find?_some hfind
    have hl := Dict.mem_entries_iff.mp (List.mem_of_find?_eq_some hfind)
    refine ⟨rule, ?_, of_decide_eq_true hflow, hp⟩
    rw [hk.flows key rule hl]
    exact hl
  · rintro ⟨rule, hl, hflow, hp⟩
    have hsome : (a.flows.entries.find? fun e =>
        decide (flowOf e.2 = flow)).isSome := by
      rw [List.find?_isSome]
      exact ⟨⟨flowKey rule, rule⟩, Dict.mem_entries_iff.mpr hl,
        decide_eq_true hflow⟩
    obtain ⟨⟨key, rule'⟩, hfind⟩ := Option.isSome_iff_exists.mp hsome
    have hflow' := List.find?_some hfind
    have hl' := Dict.mem_entries_iff.mp (List.mem_of_find?_eq_some hfind)
    -- two rules with one match have one key, so they are the same entry
    have hkey : key = flowKey rule := by
      rw [← hk.flows key rule' hl', flowKey_eq_iff, hflow]
      exact of_decide_eq_true hflow'
    rw [hkey, hl] at hl'
    cases hl'
    exact ⟨_, hfind, hp⟩

/-- A rule set or removed under its key is set or removed under its
match. -/
theorem rib_flows_update {b : Active} (ha : a.Keyed) (hb : b.Keyed)
    {rule : FlowSpecRule} {x : Option FlowSpecRule}
    (h : ∀ key, b.flows.lookup key
      = if key = flowKey rule then x else a.flows.lookup key)
    (hx : ∀ r ∈ x, r = rule) :
    Function.update a.rib.flows (flowOf rule) (x.map FlowSpecRule.path)
      = b.rib.flows := by
  funext flow
  refine Option.ext fun p => ?_
  rw [rib_flows_some hb, Function.update_apply]
  by_cases hflow : flow = flowOf rule
  · rw [if_pos hflow, Option.map_eq_some_iff]
    constructor
    · rintro ⟨r, hr, hp⟩
      obtain rfl := hx r hr
      exact ⟨r, by rw [h, if_pos rfl, hr], hflow.symm, hp⟩
    · rintro ⟨r, hl, hr, hp⟩
      rw [h, if_pos (flowKey_eq_iff.mpr (hr.trans hflow))] at hl
      exact ⟨r, hl, hp⟩
  · rw [if_neg hflow, rib_flows_some ha]
    refine exists_congr fun r => and_congr_left fun hr => ?_
    rw [h, if_neg fun hkey =>
      hflow (hr.1.symm.trans (flowKey_eq_iff.mp hkey))]

/-- A command does to a peer that is told everything what it does to the
maps. -/
theorem rib_apply (hk : a.Keyed) (hc : c.Clean) :
    a.rib.tell c = (a.apply c).rib := by
  have hk' := hk.apply hc
  cases c with
  | announce r =>
      ext1
      · funext net
        show Function.update a.rib.routes r.net.trunc (some r.path) net
          = ((a.routes.insert r.net r).lookup net).map _
        rw [show r.net.trunc = r.net from hc, Function.update_apply,
          Dict.lookup_insert_if]
        split <;> rfl
      · rfl
  | withdraw n =>
      ext1
      · funext net
        show Function.update a.rib.routes n.trunc none net
          = ((a.routes.erase n).lookup net).map _
        rw [show n.trunc = n from hc, Function.update_apply,
          Dict.lookup_erase_if]
        split <;> rfl
      · rfl
  | announceFlowSpec rule =>
      ext1
      · rfl
      · refine rib_flows_update hk hk' (x := some rule) (fun key => ?_) ?_
        · rw [Active.apply, Dict.lookup_insert_if]
        · exact fun r hr => (Option.some.inj hr).symm
  | withdrawFlowSpec rule =>
      ext1
      · rfl
      · refine rib_flows_update hk hk' (x := none) (fun key => ?_) nofun
        rw [Active.apply, Dict.lookup_erase_if]

theorem restrict_tell {allow : AnnounceSafi → Bool} (hk : a.Keyed)
    (hc : c.Clean) (h : allow c.safi = true) :
    (a.restrict allow).tell c = (a.apply c).restrict allow := by
  rw [restrict, gate_tell h, rib_apply hk hc]
  rfl

theorem restrict_skip {allow : AnnounceSafi → Bool} (hk : a.Keyed)
    (hc : c.Clean) (h : allow c.safi = false) :
    (a.apply c).restrict allow = a.restrict allow := by
  rw [restrict, ← rib_apply hk hc, gate_skip h]
  rfl

end Active

-- ========================================================= re-announcement

theorem foldl_announce {α : Type} (f : α → Route) (l : List α) (rib : Rib) :
    (l.map fun e => SessionCommand.announce (f e)).foldl Rib.tell rib
      = { rib with
          routes := l.foldl (fun g e => Function.update g (f e).net.trunc
            (some (f e).path)) rib.routes } := by
  induction l generalizing rib with
  | nil => rfl
  | cons e l ih => exact ih _

theorem foldl_announceFlowSpec {α : Type} (f : α → FlowSpecRule)
    (l : List α) (rib : Rib) :
    (l.map fun e => SessionCommand.announceFlowSpec (f e)).foldl
        Rib.tell rib
      = { rib with
          flows := l.foldl (fun g e => Function.update g
            (flowOf (f e)) (some (f e).path)) rib.flows } := by
  induction l generalizing rib with
  | nil => rfl
  | cons e l ih => exact ih _

namespace Active.Keyed

variable {a : Active} (hk : a.Keyed)
include hk

/-- Announcing all active routes. -/
theorem routes_announced (ord : IterOrder (Sigma fun _ : IpNet => Route)) :
    (ord.1 a.routes.entries).foldl
      (fun (g : IpNet → Option Path) e => Function.update g e.2.net.trunc
        (some e.2.path)) (fun _ => none)
      = a.rib.routes := by
  have hkeys : ∀ e ∈ ord.1 a.routes.entries, e.2.net.trunc = e.1 := by
    intro e he
    obtain ⟨hnet, htrunc⟩ := hk.routes e.1 e.2
      (Dict.mem_entries_iff.mp ((IterOrder.mem_iff ord).mp he))
    rw [hnet, htrunc]
  have hnd : ((ord.1 a.routes.entries).map fun e => e.2.net.trunc).Nodup := by
    rw [List.map_congr_left hkeys]
    exact Dict.nodup_visited ord a.routes
  funext net
  refine Option.ext fun p => ?_
  rw [foldl_update_eq_some hnd]
  show _ ↔ (a.routes.lookup net).map _ = some p
  rw [Option.map_eq_some_iff]
  constructor
  · rintro ⟨⟨n, r⟩, he, hnet, hp⟩
    obtain rfl : n = net := (hkeys _ he).symm.trans hnet
    exact ⟨r, Dict.mem_entries_iff.mp ((IterOrder.mem_iff ord).mp he), hp⟩
  · rintro ⟨r, hl, hp⟩
    have he := (IterOrder.mem_iff ord).mpr (Dict.mem_entries_iff.mpr hl)
    exact ⟨⟨net, r⟩, he, hkeys _ he, hp⟩

/-- Announcing all active rules. -/
theorem flows_announced
    (ord : IterOrder (Sigma fun _ : List Byte => FlowSpecRule)) :
    (ord.1 a.flows.entries).foldl
      (fun (g : Flow → Option Path) e =>
        Function.update g (flowOf e.2) (some e.2.path)) (fun _ => none)
      = a.rib.flows := by
  have hkeys : ∀ e ∈ ord.1 a.flows.entries, flowKey e.2 = e.1 := fun e he =>
    hk.flows e.1 e.2
      (Dict.mem_entries_iff.mp ((IterOrder.mem_iff ord).mp he))
  have hnd : ((ord.1 a.flows.entries).map fun e => flowKey e.2).Nodup := by
    rw [List.map_congr_left hkeys]
    exact Dict.nodup_visited ord a.flows
  have hflows : ((ord.1 a.flows.entries).map fun e => flowOf e.2).Nodup :=
    List.pairwise_map.mpr ((List.pairwise_map.mp hnd).imp
      fun hne heq => hne (flowKey_eq_iff.mpr heq))
  funext flow
  refine Option.ext fun p => ?_
  rw [foldl_update_eq_some hflows, Active.rib_flows_some hk]
  constructor
  · rintro ⟨⟨key, rule⟩, he, hflow, hp⟩
    refine ⟨rule, ?_, hflow, hp⟩
    rw [hkeys _ he]
    exact Dict.mem_entries_iff.mp ((IterOrder.mem_iff ord).mp he)
  · rintro ⟨rule, hl, hflow, hp⟩
    exact ⟨⟨flowKey rule, rule⟩,
      (IterOrder.mem_iff ord).mpr (Dict.mem_entries_iff.mpr hl), hflow, hp⟩

end Active.Keyed

namespace Speaker

variable {a : Active}

/-- The re-announcement fills an empty peer with what is active. -/
theorem reannouncement_rib (hk : a.Keyed) (peer : OpenMsg)
    (ordRoutes : IterOrder (Sigma fun _ : IpNet => Route))
    (ordFlows : IterOrder (Sigma fun _ : List Byte => FlowSpecRule)) :
    (reannouncement peer ordRoutes ordFlows a).foldl Rib.tell .empty
      = a.restrict (announceAllowed peer) := by
  have hempty : Rib.empty = Rib.empty.gate (announceAllowed peer) := by
    ext1 <;> exact funext fun _ => (ite_self none).symm
  rw [reannouncement, ← List.filter_append, hempty, foldl_gate,
    List.foldl_append,
    foldl_announce (fun e : Sigma fun _ : IpNet => Route => e.2),
    foldl_announceFlowSpec
      (fun e : Sigma fun _ : List Byte => FlowSpecRule => e.2)]
  refine congrArg (Rib.gate _) ?_
  ext1
  · exact hk.routes_announced ordRoutes
  · exact hk.flows_announced ordFlows

theorem reannouncement_allowed {peer : OpenMsg}
    {ordRoutes : IterOrder (Sigma fun _ : IpNet => Route)}
    {ordFlows : IterOrder (Sigma fun _ : List Byte => FlowSpecRule)}
    {c : SessionCommand}
    (h : c ∈ reannouncement peer ordRoutes ordFlows a) :
    announceAllowed peer c.safi = true := by
  rcases List.mem_append.mp h with h | h
  · exact (List.mem_filter.mp h).2
  · exact (List.mem_filter.mp h).2

end Speaker

end Blackwall.Bgp
