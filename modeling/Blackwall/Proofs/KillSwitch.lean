/-
The in-daemon kill switch over all three mitigation planes.

Each manager is swept by its first `disarm`; what follows is any sequence
of its entry points, further disarms included. `rehydrate` and
`reapply_active` belong to a session's start: they may come anywhere
before the switch and not after it. They do not look at the switch, and a
second `disarm` does not sweep, so what they bring back after the first
one stays (`second_switch_no_sweep`).
-/
import Blackwall.FlowSpec.Proofs.Disarm
import Blackwall.Rtbh.Proofs.Disarm
import Blackwall.XdpPlane.Proofs.Disarm

namespace Blackwall

open Base

section

variable (envR : Outcomes Rtbh.Call) (envF : Outcomes FlowSpec.Call)
  (envX : Outcomes XdpPlane.Call)

/-- The RTBH manager right after its switch. -/
def rtbhDisarmed (config : Rtbh.RtbhConfig) (lim : Bool)
    (before : List Rtbh.Entry)
    (ord : IterOrder (Sigma fun _ : IpAddr => Rtbh.ActiveEntry)) :
    Rtbh.Sys :=
  Rtbh.disarm envR ord
    (run (Rtbh.enter envR) (Rtbh.start config lim) before)

/-- The FlowSpec manager right after its switch. -/
def flowSpecDisarmed (config : FlowSpec.FlowSpecConfig) (lim : Bool)
    (before : List FlowSpec.Entry)
    (ord : IterOrder
      (Sigma fun _ : FlowSpec.FlowKey => FlowSpec.ActiveEntry)) :
    FlowSpec.Sys :=
  FlowSpec.disarm envF ord
    (run (FlowSpec.enter envF) (FlowSpec.start config lim) before)

/-- The XDP manager right after its switch. -/
def xdpDisarmed (c : XdpPlane.XdpController) (before : List XdpPlane.Entry)
    (ordRate : IterOrder
      (Sigma fun _ : IpAddr => XdpPlane.RateLimitEntry))
    (ordBlock : IterOrder (Sigma fun _ : IpNet => XdpPlane.XdpOrigin)) :
    XdpPlane.Sys :=
  XdpPlane.disarm envX ordRate ordBlock
    (run (XdpPlane.enter envX) (XdpPlane.start c) before)

/-- The first disarm is one-way and complete on every plane: after any
history up to it and any sequence of entry points behind it, nothing is
active, no announce, block or rate limit has been sent since the switch,
and no manual add is reported applied. -/
theorem kill_switch_final
    (rtbhConfig : Rtbh.RtbhConfig) (rtbhLim : Bool)
    (rtbhBefore : List Rtbh.Entry)
    (hrtbh : ∀ e ∈ rtbhBefore, e.isDisarm = false)
    (rtbhOrd : IterOrder (Sigma fun _ : IpAddr => Rtbh.ActiveEntry))
    (rtbhAfter : List Rtbh.Op)
    (fsConfig : FlowSpec.FlowSpecConfig) (fsLim : Bool)
    (fsBefore : List FlowSpec.Entry)
    (hfs : ∀ e ∈ fsBefore, e.isDisarm = false)
    (fsOrd : IterOrder
      (Sigma fun _ : FlowSpec.FlowKey => FlowSpec.ActiveEntry))
    (fsAfter : List FlowSpec.Op)
    (xdp : XdpPlane.XdpController) (xdpBefore : List XdpPlane.Entry)
    (hxdp : ∀ e ∈ xdpBefore, e.isDisarm = false)
    (ordRate : IterOrder
      (Sigma fun _ : IpAddr => XdpPlane.RateLimitEntry))
    (ordBlock : IterOrder (Sigma fun _ : IpNet => XdpPlane.XdpOrigin))
    (xdpAfter : List XdpPlane.Op) :
    Rtbh.Silenced envR
        (rtbhDisarmed envR rtbhConfig rtbhLim rtbhBefore rtbhOrd)
        (run (Rtbh.step envR)
          (rtbhDisarmed envR rtbhConfig rtbhLim rtbhBefore rtbhOrd)
          rtbhAfter)
      ∧ FlowSpec.Silenced envF
        (flowSpecDisarmed envF fsConfig fsLim fsBefore fsOrd)
        (run (FlowSpec.step envF)
          (flowSpecDisarmed envF fsConfig fsLim fsBefore fsOrd) fsAfter)
      ∧ XdpPlane.Silenced envX
        (xdpDisarmed envX xdp xdpBefore ordRate ordBlock)
        (run (XdpPlane.step envX)
          (xdpDisarmed envX xdp xdpBefore ordRate ordBlock) xdpAfter) :=
  ⟨Rtbh.disarmed_for_good envR rtbhConfig rtbhLim rtbhBefore hrtbh rtbhOrd
      rtbhAfter,
    FlowSpec.disarmed_for_good envF fsConfig fsLim fsBefore hfs fsOrd
      fsAfter,
    XdpPlane.disarmed_for_good envX xdp xdpBefore hxdp ordRate ordBlock
      xdpAfter⟩

end

/-- Every plane with one entry when the switch is thrown, and an operator
who adds it again. -/
theorem kill_switch_final_readd :
    Rtbh.Silenced (fun _ _ => true)
        (rtbhDisarmed (fun _ _ => true) Rtbh.sampleConfig false
          [.op (.applyAdd Rtbh.sampleTarget 0 0)] (.stored _))
        (run (Rtbh.step fun _ _ => true)
          (rtbhDisarmed (fun _ _ => true) Rtbh.sampleConfig false
            [.op (.applyAdd Rtbh.sampleTarget 0 0)] (.stored _))
          [.applyAdd Rtbh.sampleTarget 1 1])
      ∧ FlowSpec.Silenced (fun _ _ => true)
        (flowSpecDisarmed (fun _ _ => true) FlowSpec.sampleConfig false
          [.op (.applyAdd (FlowSpec.sampleRule 0) 0 0)] (.stored _))
        (run (FlowSpec.step fun _ _ => true)
          (flowSpecDisarmed (fun _ _ => true) FlowSpec.sampleConfig false
            [.op (.applyAdd (FlowSpec.sampleRule 0) 0 0)] (.stored _))
          [.applyAdd (FlowSpec.sampleRule 0) 1 1])
      ∧ XdpPlane.Silenced (fun _ _ => true)
        (xdpDisarmed (fun _ _ => true) (.new [] 8 100 [])
          [.op (.applyAdd XdpPlane.sampleNet 0)] (.stored _) (.stored _))
        (run (XdpPlane.step fun _ _ => true)
          (xdpDisarmed (fun _ _ => true) (.new [] 8 100 [])
            [.op (.applyAdd XdpPlane.sampleNet 0)] (.stored _) (.stored _))
          [.applyAdd XdpPlane.sampleNet 1]) :=
  kill_switch_final (fun _ _ => true) (fun _ _ => true) (fun _ _ => true)
    Rtbh.sampleConfig false _ (by simp [Rtbh.Entry.isDisarm]) (.stored _) _
    FlowSpec.sampleConfig false _ (by simp [FlowSpec.Entry.isDisarm])
    (.stored _) _
    (.new [] 8 100 []) _ (by simp [XdpPlane.Entry.isDisarm]) (.stored _)
    (.stored _) _

/-- A switch thrown twice, with a rehydrate in between: what the rehydrate
brought back is still active after the second one, on every plane. -/
theorem second_switch_no_sweep :
    let rtbh := rtbhDisarmed (fun _ _ => true) Rtbh.sampleConfig false
      [.op (.disarm (.stored _)),
        .rehydrate [(Rtbh.sampleTarget, 0, .manual)] 0] (.stored _)
    let flowSpec := flowSpecDisarmed (fun _ _ => true) FlowSpec.sampleConfig
      false [.op (.disarm (.stored _)),
        .rehydrate [(FlowSpec.sampleRule 0, 0, .manual)] 0] (.stored _)
    let xdp := xdpDisarmed (fun _ _ => true) (.new [] 8 100 [])
      [.op (.disarm (.stored _) (.stored _)),
        .reapplyActive [(.block XdpPlane.sampleNet, .manual)]]
      (.stored _) (.stored _)
    ¬ Rtbh.Silenced (fun _ _ => true) rtbh rtbh
      ∧ ¬ FlowSpec.Silenced (fun _ _ => true) flowSpec flowSpec
      ∧ ¬ XdpPlane.Silenced (fun _ _ => true) xdp xdp := by
  refine ⟨fun h => ?_, fun h => ?_, fun h => ?_⟩
  · exact absurd h.inactive (by decide +kernel)
  · exact absurd h.inactive (by decide +kernel)
  · exact absurd h.unblocked (by decide +kernel)

end Blackwall
