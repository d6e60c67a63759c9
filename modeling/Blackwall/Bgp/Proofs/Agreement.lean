/-
The peer's RIB is what the session holds active.

Through every interleaving of commands, messages, writes and losses, the
bytes written since the session came up, with those still to be written
behind them, add up at the peer to the active routes and rules of the
SAFIs the gate lets through (`Inv.agrees`). In the established loop none
are left to write.

The gate lets IPv4 unicast through whatever the peer's OPEN says; of the
other SAFIs it lets through those in the OPEN. An announcement that is
longer than a message may be is written like any other, and the peer
cannot read it (`peer_differs`).
-/
import Blackwall.Bgp.Proofs.Rib

namespace Blackwall.Bgp

open Base Peer

-- =============================================================== invariant

/-- The phases before the re-announcement. -/
def Phase.fresh : Phase → Bool
  | .connecting => true
  | .handshake => true
  | .greeting _ => true
  | .confirming _ => true
  | _ => false

/-- The UPDATEs a session has still to write, and the OPEN they go by. -/
def Phase.pending : Phase → Option (OpenMsg × List SessionCommand)
  | .writing w todo => some (w.peer, w.command :: todo)
  | .established peer => some (peer, [])
  | _ => none

theorem Phase.pending_fresh {p : Phase} (h : p.fresh = true) :
    p.pending = none := by
  cases p <;> first | rfl | cases h

theorem Phase.pending_dead {p : Phase} (h : p.alive = false) :
    p.fresh = false ∧ p.pending = none := by
  cases p <;> first | exact ⟨rfl, rfl⟩ | cases h

/-- The peer can read all that was written in this session. -/
def Speaker.Readable (s : Speaker) : Prop :=
  ∀ msg ∈ s.sent, msg.length ≤ 4096

/-- Commands to write, after which the peer agrees with the maps. -/
structure Speaker.Agrees (s : Speaker) (peer : OpenMsg)
    (todo : List SessionCommand) : Prop where
  rib : s.Readable → todo.foldl Rib.tell s.rib
    = s.active.restrict (announceAllowed peer)
  allowed : ∀ c ∈ todo, announceAllowed peer c.safi = true

/-- A write of a command's bytes that the gate lets through. -/
structure Write.Gated (w : Write) : Prop where
  packed : packet w.command = some w.bytes
  allowed : announceAllowed w.peer w.command.safi = true

/-- What holds in every phase. -/
structure Speaker.Lawful (s : Speaker) : Prop where
  keyed : s.active.Keyed
  queued : ∀ c ∈ s.queue, c.Clean
  gated : ∀ w ∈ s.history, w.Gated

/-- What holds of a reachable state. -/
structure Speaker.Inv (s : Speaker) : Prop extends Speaker.Lawful s where
  quiet : s.phase.fresh = true → s.sent = []
  packed : ∀ w todo, s.phase = .writing w todo →
    packet w.command = some w.bytes
  agrees : ∀ peer todo, s.phase.pending = some (peer, todo) →
    s.Agrees peer todo

namespace Speaker

variable {s : Speaker}

theorem Inv.start : Inv start where
  keyed := Active.Keyed.empty
  queued := fun _ hc => absurd hc List.not_mem_nil
  gated := fun _ hx => absurd hx List.not_mem_nil
  quiet := fun _ => rfl
  packed := fun _ _ hphase => by cases hphase
  agrees := nofun

theorem Lawful.enter (h : s.Lawful) {p : Phase} (hp : p.fresh = true)
    (hsent : s.sent = []) : Inv { s with phase := p } where
  keyed := h.keyed
  queued := h.queued
  gated := h.gated
  quiet := fun _ => hsent
  packed := fun _ _ hphase => by
    cases (show p = _ from hphase)
    cases hp
  agrees := fun _ _ hpend =>
    absurd ((Phase.pending_fresh hp).symm.trans hpend) nofun

theorem Lawful.stop (h : s.Lawful) {p : Phase} (hp : p.alive = false) :
    Inv { s with phase := p } where
  keyed := h.keyed
  queued := h.queued
  gated := h.gated
  quiet := fun hfresh =>
    absurd ((Phase.pending_dead hp).1.symm.trans hfresh) nofun
  packed := fun _ _ hphase => by
    cases (show p = _ from hphase)
    cases hp
  agrees := fun _ _ hpend =>
    absurd ((Phase.pending_dead hp).2.symm.trans hpend) nofun

theorem Lawful.lose (h : s.Lawful) : Inv s.lose :=
  Lawful.enter (s := s.lose) (p := .connecting)
    { keyed := h.keyed.drain h.queued
      queued := nofun
      gated := h.gated } rfl rfl

/-- With commands to write, the session writes them and agrees. -/
theorem Lawful.proceed (h : s.Lawful) {peer : OpenMsg}
    {todo : List SessionCommand} (ha : s.Agrees peer todo) :
    Inv (s.proceed peer todo) := by
  unfold Speaker.proceed
  split
  · refine { h with quiet := nofun, packed := ?_, agrees := ?_ }
    · intro w todo' hphase
      cases hphase
    · intro peer' todo' hpend
      cases hpend
      exact ⟨ha.rib, ha.allowed⟩
  · next c rest =>
    split
    · exact h.stop rfl
    · next bytes hbytes =>
      refine
        { h with gated := ?_, quiet := nofun, packed := ?_, agrees := ?_ }
      · intro w hw
        rcases List.mem_append.mp hw with hw | hw
        · exact h.gated w hw
        · rw [List.mem_singleton.mp hw]
          exact ⟨hbytes, ha.allowed c List.mem_cons_self⟩
      · intro w todo' hphase
        cases hphase
        exact hbytes
      · intro peer' todo' hpend
        cases hpend
        exact ⟨ha.rib, ha.allowed⟩

/-- A session that comes up re-announces. -/
theorem Inv.reannounce (h : s.Inv) (hfresh : s.phase.fresh = true)
    (peer : OpenMsg)
    (ordRoutes : IterOrder (Sigma fun _ : IpNet => Route))
    (ordFlows : IterOrder (Sigma fun _ : List Byte => FlowSpecRule)) :
    s.Agrees peer (reannouncement peer ordRoutes ordFlows s.active) where
  rib := fun _ => by
    rw [Speaker.rib, h.quiet hfresh]
    exact reannouncement_rib h.keyed peer ordRoutes ordFlows
  allowed := fun _ hc => reannouncement_allowed hc

-- ==================================================================== steps

theorem Inv.command (h : s.Inv) {c : SessionCommand} (hc : c.Clean) :
    Inv { s with queue := s.queue ++ [c] } :=
  { h with
    queued := fun d hd => by
      rcases List.mem_append.mp hd with hd | hd
      · exact h.queued d hd
      · exact List.mem_singleton.mp hd ▸ hc
    agrees := fun peer todo hpend =>
      ⟨(h.agrees peer todo hpend).rib, (h.agrees peer todo hpend).allowed⟩ }

theorem Inv.handle {peer : OpenMsg} {c : SessionCommand}
    {queue : List SessionCommand} (h : s.Inv)
    (hphase : s.phase = .established peer) (hqueue : s.queue = c :: queue) :
    Inv (Speaker.handle peer c { s with queue }) := by
  have hclean : c.Clean :=
    h.queued c (hqueue ▸ List.mem_cons_self)
  have hrib : s.Readable →
      s.rib = s.active.restrict (announceAllowed peer) :=
    (h.agrees peer [] (by rw [hphase]; rfl)).rib
  have hlaw : Lawful { s with queue, active := s.active.apply c } :=
    { keyed := h.keyed.apply hclean
      queued := fun d hd =>
        h.queued d (hqueue ▸ List.mem_cons_of_mem c hd)
      gated := h.gated }
  unfold Speaker.handle
  by_cases hallow : announceAllowed peer c.safi = true
  · rw [if_pos hallow]
    refine hlaw.proceed ⟨?_, ?_⟩
    · intro hread
      show s.rib.tell c = _
      rw [hrib hread, Active.restrict_tell h.keyed hclean hallow]
    · intro d hd
      rw [List.mem_singleton.mp hd]
      exact hallow
  · rw [if_neg hallow]
    refine { hlaw with quiet := ?_, packed := h.packed, agrees := ?_ }
    · intro hfresh
      rw [hphase] at hfresh
      cases hfresh
    · intro peer' todo hpend
      rw [hphase] at hpend
      cases hpend
      refine ⟨fun hread => ?_, fun _ hd => by cases hd⟩
      show s.rib = (s.active.apply c).restrict (announceAllowed peer)
      rw [hrib hread, Active.restrict_skip h.keyed hclean
        (Bool.eq_false_iff.mpr hallow)]

theorem Inv.onMessage (h : s.Inv) (cfg : PeerConfig) (m : BgpMessage)
    (ordRoutes : IterOrder (Sigma fun _ : IpNet => Route))
    (ordFlows : IterOrder (Sigma fun _ : List Byte => FlowSpecRule)) :
    Inv (s.onMessage cfg m ordRoutes ordFlows) := by
  unfold Speaker.onMessage
  split
  · next hphase =>
    have hsent : s.sent = [] := h.quiet (by rw [hphase]; rfl)
    split
    · exact h
    · exact h.lose
    · split
      · exact h.lose
      · exact h.enter rfl hsent
  · next o hphase =>
    split
    · exact h
    · exact h.lose
    · exact h.proceed
        (h.reannounce (by rw [hphase]; rfl) o ordRoutes ordFlows)
  · split
    · exact h.lose
    · exact h
  · exact h

theorem Inv.onWrote (h : s.Inv) (ok : Bool) : Inv (s.onWrote ok) := by
  unfold Speaker.onWrote
  split
  · next o hphase =>
    split
    · exact h.enter rfl (h.quiet (by rw [hphase]; rfl))
    · exact h.lose
  · next w rest hphase =>
    have ha := h.agrees w.peer (w.command :: rest) (by rw [hphase]; rfl)
    split
    · refine Lawful.proceed (s := { s with sent := s.sent ++ [w.bytes] })
        ⟨h.keyed, h.queued, h.gated⟩ ⟨?_, ?_⟩
      · intro hread
        have hold : s.Readable := fun msg hmsg =>
          hread msg (List.mem_append_left _ hmsg)
        rw [← ha.rib hold, Speaker.rib, List.foldl_append, List.foldl_cons,
          List.foldl_nil, List.foldl_cons, receive_packet
            (h.packed w rest hphase)
            (hread w.bytes (List.mem_append_right _ List.mem_cons_self))]
        rfl
      · exact fun d hd => ha.allowed d (List.mem_cons_of_mem w.command hd)
    · exact h.lose
  · exact h

end Speaker

/-- An event whose command, if it is one, has no host bits. -/
def Event.Clean : Event → Prop
  | .command c => c.Clean
  | _ => True

instance : DecidablePred Event.Clean
  | .command c => inferInstanceAs (Decidable c.Clean)
  | .connected _ => inferInstanceAs (Decidable True)
  | .message _ _ _ => inferInstanceAs (Decidable True)
  | .wrote _ => inferInstanceAs (Decidable True)
  | .receive => inferInstanceAs (Decidable True)
  | .lost => inferInstanceAs (Decidable True)
  | .hangup => inferInstanceAs (Decidable True)

theorem Speaker.Inv.step {s : Speaker} (h : s.Inv) (cfg : PeerConfig)
    {ev : Event} (hev : ev.Clean) : Inv (step cfg ev s) := by
  cases ev with
  | command c =>
      simp only [Bgp.step]
      split
      · exact h.command hev
      · exact h
  | connected ok =>
      simp only [Bgp.step]
      split
      · next hphase =>
        split
        · exact h.enter rfl (h.quiet (by rw [hphase]; rfl))
        · exact h.lose
      · exact h
  | message m ordRoutes ordFlows => exact h.onMessage cfg m ordRoutes ordFlows
  | wrote ok => exact h.onWrote ok
  | receive =>
      simp only [Bgp.step]
      split
      · next hphase hqueue => exact h.handle hphase hqueue
      · exact h
  | lost =>
      simp only [Bgp.step]
      split
      · exact h.lose
      · exact h
  | hangup =>
      simp only [Bgp.step]
      split
      · exact h.stop rfl
      · exact h

theorem inv_run (cfg : PeerConfig) {evs : List Event}
    (h : ∀ ev ∈ evs, ev.Clean) : (run (step cfg) .start evs).Inv :=
  run_invariant_mem evs (fun _ ev hev hs => hs.step cfg (h ev hev))
    Speaker.Inv.start

-- ================================================================ agreement

/-- The SAFIs in the peer's OPEN. -/
def negotiated (peer : OpenMsg) : AnnounceSafi → Bool
  | .ipv4Unicast => peer.ipv4Unicast
  | .ipv6Unicast => peer.ipv6Unicast
  | .flowSpecV4 => peer.flowspecV4
  | .flowSpecV6 => peer.flowspecV6

/-- What a session writes to: IPv4 unicast, and the SAFIs of the OPEN. -/
def served (peer : OpenMsg) (safi : AnnounceSafi) : Bool :=
  decide (safi = .ipv4Unicast) || negotiated peer safi

theorem announceAllowed_eq (peer : OpenMsg) :
    announceAllowed peer = served peer := by
  funext safi
  cases safi <;> rfl

/-- The session and its peer agree. -/
structure Speaker.InStep (s : Speaker) : Prop where
  /-- In the loop, with no command queued, the peer holds what is active,
  if it could read all that was written. -/
  drained : ∀ peer, s.phase = .established peer → s.queue = [] →
    s.Readable → s.rib = s.active.restrict (served peer)
  /-- While UPDATEs are on their way, it will once they are written. -/
  writing : ∀ w todo msgs, s.phase = .writing w todo → s.queue = [] →
    todo.map packet = msgs.map some → s.Readable →
    (∀ msg ∈ w.bytes :: msgs, msg.length ≤ 4096) →
    (w.bytes :: msgs).foldl Rib.receive s.rib
      = s.active.restrict (served w.peer)
  /-- Every UPDATE was of a SAFI that the session writes to. -/
  gated : ∀ w ∈ s.history, packet w.command = some w.bytes
    ∧ (∀ u, Peer.parse w.bytes = .ok u → u.safis = [w.command.safi])
    ∧ (w.command.safi = .ipv4Unicast
      ∨ negotiated w.peer w.command.safi = true)

/-- Whenever a session waits in its loop with no command queued, the peer
that reads its bytes holds the active routes and rules of IPv4 unicast and
of the SAFIs in its OPEN, unless an announcement was longer than a message
may be. No UPDATE of another SAFI is ever written. -/
theorem session_agrees (cfg : PeerConfig) (evs : List Event)
    (h : ∀ ev ∈ evs, ev.Clean) : (run (step cfg) .start evs).InStep := by
  have hinv := inv_run cfg h
  refine ⟨?_, ?_, ?_⟩
  · intro peer hphase _ hread
    rw [← announceAllowed_eq]
    exact (hinv.agrees peer [] (by rw [hphase]; rfl)).rib hread
  · intro w todo msgs hphase _ hmsgs hread hmax
    have hpack : (w.command :: todo).map packet
        = (w.bytes :: msgs).map some := by
      rw [List.map_cons, List.map_cons, hinv.packed w todo hphase, hmsgs]
    rw [← announceAllowed_eq, foldl_receive hpack hmax]
    exact (hinv.agrees w.peer (w.command :: todo)
      (by rw [hphase]; rfl)).rib hread
  · intro w hw
    obtain ⟨hpack, hgate⟩ := hinv.gated w hw
    refine ⟨hpack, fun u hu => ?_, ?_⟩
    · rw [told_of_parse hpack hu, safis_told]
    · rw [announceAllowed_eq, served, Bool.or_eq_true,
        decide_eq_true_eq] at hgate
      exact hgate

/-- A peer of one session that offers IPv6 unicast alone. -/
def v6Peer : OpenMsg := ⟨65001, 90, 0x0A000001, false, true, false, false⟩

/-- A configuration that accepts it. -/
def edgeConfig : PeerConfig := ⟨65000, 65001, 0x0A000002, 90⟩

/-- A session that comes up. -/
def comeUp (peer : OpenMsg) : List Event :=
  [.connected true, .message (.open peer) (.stored _) (.stored _),
    .wrote true, .message .keepalive (.stored _) (.stored _)]

/-- A route that is announced as soon as a session is up. -/
def announcedLate (peer : OpenMsg) (r : Route) : List Event :=
  .command (.announce r) :: (comeUp peer ++ [.receive, .wrote true])

/-- A peer that offers IPv4 unicast and IPv4 FlowSpec. -/
def v4Peer : OpenMsg := ⟨65001, 90, 0x0A000001, true, false, true, false⟩

/-- A rule for DNS towards the address of the route. -/
def dnsRule : FlowSpecRule where
  dst := (taggedRoute 1).net
  protocol := some 17
  dstPort := some 53
  action := .trafficRate ⟨0⟩

/-- A route and a rule are announced, the session is lost, and in the next
one both are announced again. -/
def announcedAgain : List Event :=
  announcedLate v4Peer (taggedRoute 1)
    ++ .command (.announceFlowSpec dnsRule) :: .receive :: .wrote true
      :: .lost :: (comeUp v4Peer ++ [.wrote true, .wrote true])

/-- The peer has the route and the rule again in the second session. -/
theorem session_agrees_reconnect :
    (run (step edgeConfig) .start announcedAgain).rib
        = (run (step edgeConfig) .start announcedAgain).active.restrict
          (served v4Peer)
      ∧ (run (step edgeConfig) .start announcedAgain).rib.routes
        (taggedRoute 1).net = some (taggedRoute 1).path
      ∧ (run (step edgeConfig) .start announcedAgain).rib.flows
        (flowOf dnsRule) = some dnsRule.path := by
  refine ⟨?_, by decide +kernel, by decide +kernel⟩
  exact (session_agrees edgeConfig announcedAgain
    (by decide +kernel)).drained v4Peer (by decide +kernel)
    (by decide +kernel) (by unfold Speaker.Readable; decide +kernel)

/-- An IPv4 route that is announced late is written, whatever the OPEN
has. -/
theorem run_announcedLate {r : Route} {msg : List Byte}
    (hr : buildAnnounce r = some msg)
    (hsafi : AnnounceSafi.forRoute r.net = .ipv4Unicast) :
    run (step edgeConfig) .start (announcedLate v6Peer r)
      = ⟨[], Active.apply ⟨∅, ∅⟩ (.announce r), .established v6Peer, [msg],
        [⟨v6Peer, .announce r, msg⟩]⟩ := by
  show run (step edgeConfig)
    ⟨[.announce r], ⟨∅, ∅⟩, .established v6Peer, [], []⟩
    [.receive, .wrote true] = _
  have hallow : announceAllowed v6Peer (SessionCommand.announce r).safi
      = true := by
    show announceAllowed v6Peer (.forRoute r.net) = true
    rw [hsafi]
    rfl
  have hpacket : packet (.announce r) = some msg := hr
  have hhandle : step edgeConfig .receive
      ⟨[.announce r], ⟨∅, ∅⟩, .established v6Peer, [], []⟩
      = ⟨[], Active.apply ⟨∅, ∅⟩ (.announce r),
        .writing ⟨v6Peer, .announce r, msg⟩ [], [],
        [⟨v6Peer, .announce r, msg⟩]⟩ := by
    show Speaker.handle v6Peer (.announce r)
      ⟨[], ⟨∅, ∅⟩, .established v6Peer, [], []⟩ = _
    simp only [Speaker.handle, hallow, if_true, Speaker.proceed, hpacket,
      List.nil_append]
  rw [run_cons, hhandle]
  rfl

theorem restrict_announced {allow : AnnounceSafi → Bool} (r : Route) :
    ((Active.apply ⟨∅, ∅⟩ (.announce r)).restrict allow).routes r.net
      = if allow (.forRoute r.net) then some r.path else none := by
  simp only [Active.restrict, Rib.gate, Active.rib, Active.apply,
    Dict.lookup_insert_if, if_true]
  rfl

/-- A peer whose OPEN leaves IPv4 unicast out is sent IPv4 routes; and a
route with 1100 communities is active and not at the peer, which cannot
read its UPDATE. -/
theorem peer_differs :
    (∃ evs : List Event, (∀ ev ∈ evs, ev.Clean)
      ∧ (run (step edgeConfig) .start evs).phase = .established v6Peer
      ∧ (run (step edgeConfig) .start evs).queue = []
      ∧ (run (step edgeConfig) .start evs).rib
        ≠ (run (step edgeConfig) .start evs).active.restrict
          (negotiated v6Peer)
      ∧ ∃ w ∈ (run (step edgeConfig) .start evs).history,
        ∃ u safi, Peer.parse w.bytes = .ok u ∧ safi ∈ u.safis
          ∧ negotiated w.peer safi = false)
    ∧ ∃ evs : List Event, (∀ ev ∈ evs, ev.Clean)
      ∧ (run (step edgeConfig) .start evs).phase = .established v6Peer
      ∧ (run (step edgeConfig) .start evs).queue = []
      ∧ (run (step edgeConfig) .start evs).rib
        ≠ (run (step edgeConfig) .start evs).active.restrict
          (served v6Peer) := by
  refine ⟨⟨announcedLate v6Peer (taggedRoute 1), ?_⟩,
    announcedLate v6Peer (taggedRoute 1100), ?_⟩
  · have hsize : announceSize (taggedRoute 1) ≤ 4096 := by decide
    obtain ⟨msg, hmsg⟩ := taggedRoute_announced (n := 1)
      (Nat.lt_of_le_of_lt hsize (by decide))
    have hread := parse_announce hmsg hsize
    rw [run_announcedLate hmsg rfl]
    refine ⟨by decide +kernel, rfl, rfl, fun heq => ?_,
      ⟨v6Peer, .announce (taggedRoute 1), msg⟩, List.mem_singleton_self _,
      announcement (taggedRoute 1), .ipv4Unicast, hread, by decide, rfl⟩
    have hroute := congrFun (congrArg Rib.routes heq) (taggedRoute 1).net
    rw [restrict_announced] at hroute
    change (Rib.empty.receive msg).routes _ = _ at hroute
    rw [Rib.receive, hread] at hroute
    exact absurd hroute (by decide +kernel)
  · obtain ⟨msg, hmsg⟩ := taggedRoute_announced (n := 1100) (by
      rw [announceSize_long]; decide)
    have hread := parse_announce_long hmsg (by
      rw [announceSize_long]; decide)
    rw [run_announcedLate hmsg rfl]
    refine ⟨by decide +kernel, rfl, rfl, fun heq => ?_⟩
    have hroute := congrFun (congrArg Rib.routes heq) (taggedRoute 1100).net
    rw [restrict_announced] at hroute
    change (Rib.empty.receive msg).routes _ = _ at hroute
    rw [Rib.receive, hread] at hroute
    cases hroute

end Blackwall.Bgp
