/-
The BPF maps of the XDP program and the functions that only touch them
(`blackwall-xdp-common`, and the map half of `blackwall-xdp-ebpf`).

The state is one CPU's: `RATE`, `STATS` and `TX_BUDGET` are per-CPU maps,
and the program runs to completion on the CPU a packet arrived at. An LPM
trie is a list of prefixes with values, of which a lookup takes the
longest that contains the key. The clock is an argument.
-/
import Mathlib.Data.List.MinMax
import Blackwall.Base.Bucket
import Blackwall.Base.Bytes
import Blackwall.Base.Dict
import Blackwall.Net

namespace Blackwall.Xdp

open Base

def nsPerSec : Nat := 1000000000

def txBudgetBurstMax : Nat := 1000000

-- ============================================================ the types

/-- The `REASON_*` codes. -/
inductive Reason
  | pass
  | blocklist
  | ratelimit
  | syncookie
  | redirect
  | syncookieTxcapped
  deriving DecidableEq, Repr

structure Stat where
  packets : BitVec 64
  bytes : BitVec 64
  deriving DecidableEq, Repr

structure RateBucket where
  tokens : Nat
  lastNs : Nat
  ratePps : Nat
  burst : Nat
  deriving DecidableEq, Repr

structure TxBucket where
  tokens : Nat
  lastNs : Nat
  ratePps : Nat
  deriving DecidableEq, Repr

structure CookieKeyValue where
  k0 : BitVec 64
  k1 : BitVec 64
  deriving DecidableEq, Repr

/-- `LpmTrie<[u8; N], u8>`: prefixes of `w` bits and their values. -/
abbrev LpmTrie (w : Nat) : Type := List (Cidr w × Byte)

/-- A big-endian address. -/
def addrBits (w : Nat) (bytes : List Byte) : BitVec w :=
  BitVec.ofNat w (bytes.foldl (fun n b => 256 * n + b.toNat) 0)

/-- `LpmTrie::get` with a key of the full length: the value of the longest
prefix that contains the address. -/
def LpmTrie.get {w : Nat} (t : LpmTrie w) (addr : BitVec w) :
    Option Byte :=
  ((t.filter fun e => e.1.contains addr).argmax fun e => e.1.len.val).map
    Prod.snd

/-- The maps the program reads and writes. -/
structure Maps where
  rate : Dict (List Byte) RateBucket
  stats : Reason → Stat
  txBudget : Option TxBucket
  cookieKey : Option CookieKeyValue
  protectV4 : LpmTrie 32
  protectV6 : LpmTrie 128
  protectPort : Dict (BitVec 16) Byte

-- ======================================================== lookups, stats

/-- `protected_v4`. -/
def protectedV4 (dst : List Byte) (m : Maps) : Bool :=
  (m.protectV4.get (addrBits 32 dst)).isSome

/-- `protected_v6`. -/
def protectedV6 (dst : List Byte) (m : Maps) : Bool :=
  (m.protectV6.get (addrBits 128 dst)).isSome

def protectedPort (port : BitVec 16) (m : Maps) : Bool :=
  (m.protectPort.lookup port).isSome

/-- `count`: one more packet of `bytes` bytes under `reason`. -/
def count (reason : Reason) (bytes : BitVec 64) (m : Maps) : Maps :=
  { m with
    stats := Function.update m.stats reason
      ⟨(m.stats reason).packets + 1, (m.stats reason).bytes + bytes⟩ }

-- ============================================================ the buckets

/-- A per-source bucket refills at its own rate to its own burst. -/
def RateBucket.params (b : RateBucket) : BucketParams :=
  ⟨b.ratePps, b.burst, nsPerSec, 2 ^ 64⟩

/-- The mint budget has no burst field: it is twice the rate, capped. -/
def TxBucket.params (b : TxBucket) : BucketParams :=
  ⟨b.ratePps, min (b.ratePps * 2 % 2 ^ 64) txBudgetBurstMax, nsPerSec,
    2 ^ 64⟩

def RateBucket.level (b : RateBucket) : Level := ⟨b.tokens, b.lastNs⟩

def TxBucket.level (b : TxBucket) : Level := ⟨b.tokens, b.lastNs⟩

/-- The refill and decrement of `over_rate`: was there a token, and the
bucket after. -/
def RateBucket.take (now : Nat) (b : RateBucket) : Bool × RateBucket :=
  let r := b.level.take b.params now
  (r.1, { b with tokens := r.2.tokens, lastNs := r.2.last })

/-- The refill and decrement of `tx_budget_ok`. -/
def TxBucket.take (now : Nat) (b : TxBucket) : Bool × TxBucket :=
  let r := b.level.take b.params now
  (r.1, { b with tokens := r.2.tokens, lastNs := r.2.last })

/-- `over_rate`: is the packet beyond its source's budget. A source with
no bucket never is. -/
def overRate (src : List Byte) (now : Nat) (m : Maps) : Bool × Maps :=
  match m.rate.lookup src with
  | some b =>
      (!(b.take now).1, { m with rate := m.rate.insert src (b.take now).2 })
  | none => (false, m)

/-- `tx_budget_ok`: may a SYN-ACK be minted. A rate of zero means that no
cap is configured. -/
def txBudgetOk (now : Nat) (m : Maps) : Bool × Maps :=
  match m.txBudget with
  | none => (true, m)
  | some b =>
      if b.ratePps = 0 then (true, m)
      else ((b.take now).1, { m with txBudget := some (b.take now).2 })

end Blackwall.Xdp
