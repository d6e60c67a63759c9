import Blackwall.Base.Run
import Blackwall.Base.Dict
import Blackwall.Base.Mirror
import Blackwall.Base.Reader
import Blackwall.Base.Framing
import Blackwall.Base.Ledger
import Blackwall.Base.Admission
import Blackwall.State.Journal
import Blackwall.Rtbh.Manager
import Blackwall.Rtbh.Proofs.Controller
import Blackwall.Rtbh.World
import Blackwall.Rtbh.Proofs.Manager
import Blackwall.Rtbh.Proofs.Wire
import Blackwall.Rtbh.Proofs.Mirror
import Blackwall.Rtbh.Proofs.Pipeline
import Blackwall.Rtbh.Proofs.Disarm
import Blackwall.Rtbh.Proofs.Removal
import Blackwall.Rtbh.Requests
import Blackwall.Rtbh.Proofs.Manual
import Blackwall.Rtbh.Proofs.Intent
import Blackwall.Rtbh.Moves
import Blackwall.Rtbh.Proofs.Lifecycle
import Blackwall.Rtbh.Proofs.ActiveSet
import Blackwall.Rtbh.RateLimit
import Blackwall.Rtbh.Proofs.RateLimit
import Blackwall.FlowSpec.World
import Blackwall.FlowSpec.Proofs.Manager
import Blackwall.FlowSpec.Proofs.Wire
import Blackwall.FlowSpec.Proofs.Mirror
import Blackwall.FlowSpec.Proofs.Disarm
import Blackwall.FlowSpec.Moves
import Blackwall.FlowSpec.Proofs.ActiveSet
import Blackwall.FlowSpec.Proofs.Identity
import Blackwall.Flow.Proofs.Concentration
import Blackwall.Flow.Watch
import Blackwall.Flow.Proofs.Window
import Blackwall.Flow.Proofs.Lifecycle
import Blackwall.Flow.Sflow
import Blackwall.Flow.Proofs.Isolation
import Blackwall.Flow.Proofs.Datagram
import Blackwall.Flow.Proofs.Trust
import Blackwall.Bgp.Update
import Blackwall.Bgp.Peer
import Blackwall.Bgp.Proofs.Open
import Blackwall.Bgp.Proofs.Wire
import Blackwall.Bgp.Proofs.Update
import Blackwall.Bgp.Proofs.FlowRule
import Blackwall.Bgp.Session
import Blackwall.Bgp.Framing
import Blackwall.Bgp.Proofs.Framing
import Blackwall.Bgp.Speaker
import Blackwall.Bgp.Proofs.Rib
import Blackwall.Bgp.Proofs.Agreement
import Blackwall.Xdp.Synack
import Blackwall.Xdp.Proofs.Starve
import Blackwall.Xdp.Proofs.Bail
import Blackwall.Xdp.Proofs.Reply
import Blackwall.Deception.Cookie
import Blackwall.Deception.Nfqueue
import Blackwall.Base.Usize
import Blackwall.Deception.Redis
import Blackwall.Deception.Proofs.RedisParse
import Blackwall.Deception.RedisSession
import Blackwall.Deception.Proofs.RedisSegments
import Blackwall.Deception.Wire
import Blackwall.Deception.Proofs.Replies
import Blackwall.Deception.Proofs.Amplification
import Blackwall.XdpPlane.Proofs.RateKey
import Blackwall.XdpPlane.World
import Blackwall.XdpPlane.Proofs.Agree
import Blackwall.XdpPlane.Proofs.Blocklist
import Blackwall.State.Xdp
import Blackwall.XdpPlane.Proofs.Mirror
import Blackwall.XdpPlane.Proofs.Disarm
import Blackwall.XdpPlane.Moves
import Blackwall.XdpPlane.Proofs.Guards
import Blackwall.XdpPlane.Proofs.Victims
import Blackwall.XdpPlane.Proofs.Recorded
import Blackwall.XdpPlane.Proofs.Rehydrate
import Blackwall.XdpPlane.Proofs.FastPath
import Blackwall.Base.Custody
import Blackwall.XdpPlane.AfXdp
import Blackwall.XdpPlane.Proofs.Chunks
import Blackwall.Base.Text
import Blackwall.Config.Lexer
import Blackwall.Config.Proofs.Layout
import Blackwall.Base.Tokens
import Blackwall.Config.Policy
import Blackwall.Config.Parser
import Blackwall.Config.Statements
import Blackwall.Config.Proofs.Grammar
import Blackwall.Config.Proofs.WellFormed
import Blackwall.Config.Proofs.Located
import Blackwall.Config.Proofs.Order
import Blackwall.Config.Proofs.Banner
import Blackwall.Nft.Render
import Blackwall.Nft.Proofs.Transact
import Blackwall.Nft.Proofs.Replace
import Blackwall.Nft.Eval
import Blackwall.Nft.Proofs.Classify
import Blackwall.Core.Proofs.Resolve
import Blackwall.Config.Proofs.Ruleset
import Blackwall.Base.Firsts
import Blackwall.Discovery.Reconcile
import Blackwall.Discovery.Proofs.Merge
import Blackwall.Nft.Proofs.Dnat
import Blackwall.Proofs.KillSwitch
import Blackwall.Proofs.Handshake
import Blackwall.Proofs.ActiveSets
