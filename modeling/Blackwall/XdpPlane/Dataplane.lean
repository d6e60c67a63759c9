/-
The keys and values userspace writes into the BPF maps
(`blackwall-xdp/src/keys.rs`, and the map writes of `dataplane.rs`).

The blocklist tries are keyed by a prefix length and the octets of the
NETWORK of a prefix, the rate map by 16 octets of which an IPv4 source
fills four.
-/
import Blackwall.Net
import Blackwall.Xdp.Maps

namespace Blackwall.XdpPlane

open Base
open Xdp (CookieKeyValue Maps RateBucket)

/-- `LpmKey`, of either family: prefix length and octets. -/
inductive LpmKey
  | v4 (prefixlen : Nat) (addr : List Byte)
  | v6 (prefixlen : Nat) (addr : List Byte)
  deriving DecidableEq, Repr

def lpmKey : IpNet → LpmKey
  | .v4 n => .v4 n.len.val (IpAddr.v4 n.network).octets
  | .v6 n => .v6 n.len.val (IpAddr.v6 n.network).octets

/-- `rate_key`: an IPv4 source in the first four bytes, zeros after. -/
def rateKey : IpAddr → List Byte
  | .v4 a => put 0 (IpAddr.v4 a).octets (List.replicate 16 0)
  | .v6 a => (IpAddr.v6 a).octets

def encodeCookieKey (key : List Byte) : CookieKeyValue :=
  ⟨fromLeBytes (slice 0 8 key), fromLeBytes (slice 8 8 key)⟩

/-- `DataplaneMaps::rate_limit`, on one CPU: a fresh bucket, full. -/
def rateLimit (addr : IpAddr) (pps burst : Nat) (m : Maps) : Maps :=
  let bucket : RateBucket :=
    { tokens := burst, lastNs := 0, ratePps := pps, burst }
  { m with rate := m.rate.insert (rateKey addr) bucket }

end Blackwall.XdpPlane
