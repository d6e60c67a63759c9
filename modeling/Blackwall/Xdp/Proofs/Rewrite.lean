/-
The surgery as a list of writes.

Up to the options every store of the SYN-ACK surgery is inside the TCP
header the gate has checked, so it succeeds; `headerWrites` is what has
been written by then. The options are another matter: nothing has
compared the data offset with the end of the frame. A frame that holds
them is rewritten to the end (`rewriteHeaders_fits`), a shorter one is
left with its headers rewritten (`rewriteHeaders_short`).
-/
import Blackwall.Xdp.Proofs.Gate

namespace Blackwall.Xdp

open Base Fallible Cookie

-- ====================================================== writes in turn

/-- The context with the writes made. -/
def Ctx.writes (ws : List (Nat × List Byte)) (c : Ctx) : Ctx :=
  { c with frame := puts ws c.frame }

variable {c : Ctx} {ws : List (Nat × List Byte)}

theorem Ctx.writes_append (vs : List (Nat × List Byte)) :
    c.writes (ws ++ vs) = (c.writes ws).writes vs := by
  rw [writes, puts_append]
  rfl

theorem Ctx.length_writes (h : Inside c.frame.length ws) :
    (c.writes ws).frame.length = c.frame.length :=
  length_puts h

theorem inside_one {n off : Nat} {x : List Byte} (h : off + x.length ≤ n) :
    Inside n [(off, x)] := by
  intro w hw
  rw [List.mem_singleton.mp hw]
  exact h

/-- A store inside the frame is one more write. -/
theorem Stores.after {p : Prog Unit} {off : Nat} {x : List Byte}
    (hp : Stores p off x) (hws : Inside c.frame.length ws)
    (h : off + x.length ≤ c.frame.length) :
    Returns p (c.writes ws) () (c.writes (ws ++ [(off, x)]))
      ∧ Inside c.frame.length (ws ++ [(off, x)]) := by
  refine ⟨?_, inside_append hws (inside_one h)⟩
  rw [Ctx.writes_append, hp]
  exact storeAll_fits (by rw [Ctx.length_writes hws]; exact h)

/-- The two writes of a swap. -/
def swapWrites (n a b : Nat) (f : List Byte) : List (Nat × List Byte) :=
  [(a, slice b n f), (b, slice a n f)]

theorem inside_swapWrites {n a b N : Nat} {f : List Byte} (hab : a + n ≤ b)
    (hb : b + n ≤ f.length) (hN : b + n ≤ N) :
    Inside N (swapWrites n a b f) := by
  have hA : (slice a n f).length = n := length_slice (by omega)
  have hB : (slice b n f).length = n := length_slice hb
  intro w hw
  rcases List.mem_cons.mp hw with rfl | hw
  · show a + (slice b n f).length ≤ N
    omega
  · rw [List.mem_singleton.mp hw]
    show b + (slice a n f).length ≤ N
    omega

/-- A swap beyond the places written is two more writes, of what the frame
came with. -/
theorem swapBytes_after {n a b : Nat} (hws : Inside a ws) (hab : a + n ≤ b)
    (hb : b + n ≤ c.frame.length) :
    Returns (swapBytes n a b) (c.writes ws) ()
        (c.writes (ws ++ swapWrites n a b c.frame))
      ∧ Inside (b + n) (ws ++ swapWrites n a b c.frame) := by
  refine ⟨?_, inside_append (hws.mono (by omega))
    (inside_swapWrites hab hb (Nat.le_refl _))⟩
  have hfit : Inside c.frame.length ws := hws.mono (by omega)
  have hA' : slice a n (c.writes ws).frame = slice a n c.frame :=
    slice_puts_other hfit hws.clear
  have hB' : slice b n (c.writes ws).frame = slice b n c.frame :=
    slice_puts_other hfit (hws.mono (by omega)).clear
  rw [Ctx.writes_append, swapWrites, ← hA', ← hB']
  exact returns_swapBytes hab (by rw [Ctx.length_writes hfit]; exact hb)

-- ========================================================= the headers

/-- What the surgery has written before the options. -/
def headerWrites (l : Layout) (s : Syn) (f : List Byte) :
    List (Nat × List Byte) :=
  [(offMacDst, slice offMacSrc 6 f), (offMacSrc, slice offMacDst 6 f),
    (l.src, slice l.dst l.addrLen f), (l.dst, slice l.src l.addrLen f),
    (l.srcport, slice l.dstport 2 f), (l.dstport, slice l.srcport 2 f),
    (l.dataoff, [BitVec.ofNat 8 (s.doff <<< 4)]),
    (l.seq, be32 s.cookieSeq), (l.ack, be32 s.ack),
    (l.flags, [tcpFlagsSynAck]), (l.window, be16 synackWindow),
    (l.urg, be16 0)]

/-- With the fixed TCP header in the frame, all that can fail is the
writing of the options. -/
theorem rewriteHeaders_eq {l : Layout} (s : Syn)
    (h : l.tcp + 20 ≤ c.frame.length) :
    rewriteHeaders l s c
        = writeMssOption l.opts s.optionsLen s.mss
          (c.writes (headerWrites l s c.frame))
      ∧ Inside c.frame.length (headerWrites l s c.frame) := by
  have hsrc : 16 ≤ l.src := l.src_ge
  have hdst := l.src_dst
  have htcp := l.dst_tcp
  have hroom : ∀ k n, k + n ≤ 20 → l.tcp + k + n ≤ c.frame.length :=
    fun k n hk => by omega
  -- the swaps go forward through the frame, each beyond the last
  have hnone : Inside offMacDst ([] : List (Nat × List Byte)) := nofun
  obtain ⟨r1, f1⟩ := swapBytes_after hnone
    (show offMacDst + 6 ≤ offMacSrc by decide)
    (show 6 + 6 ≤ c.frame.length by omega)
  have hmac : offMacSrc + 6 ≤ l.src := show 6 + 6 ≤ l.src by omega
  have haddr : l.dst + l.addrLen ≤ c.frame.length := by omega
  obtain ⟨r2, f2⟩ := swapBytes_after (f1.mono hmac) (Nat.le_of_eq hdst)
    haddr
  have hports : l.dst + l.addrLen ≤ l.srcport := Nat.le_of_eq htcp
  obtain ⟨r3, f3⟩ := swapBytes_after (f2.mono hports)
    (show l.srcport + 2 ≤ l.dstport from Nat.le_refl _)
    (hroom 2 2 (by decide))
  -- the stores are inside the fixed header
  obtain ⟨r4, f4⟩ := (stores_storeU8 l.dataoff
    (BitVec.ofNat 8 (s.doff <<< 4))).after
      (f3.mono (hroom 2 2 (by decide))) (hroom 12 1 (by decide))
  obtain ⟨r5, f5⟩ := (stores_storeBe32 l.seq s.cookieSeq).after f4
    (hroom 4 4 (by decide))
  obtain ⟨r6, f6⟩ := (stores_storeBe32 l.ack s.ack).after f5
    (hroom 8 4 (by decide))
  obtain ⟨r7, f7⟩ := (stores_storeU8 l.flags tcpFlagsSynAck).after f6
    (hroom 13 1 (by decide))
  obtain ⟨r8, f8⟩ := (stores_storeBe16 l.window synackWindow).after f7
    (hroom 14 2 (by decide))
  obtain ⟨r9, f9⟩ := (stores_storeBe16 l.urg 0).after f8
    (hroom 18 2 (by decide))
  refine ⟨?_, f9⟩
  rw [rewriteHeaders, show c = c.writes [] from rfl, bind_of_returns r1,
    bind_of_returns r2, bind_of_returns r3, bind_of_returns r4,
    bind_of_returns r5, bind_of_returns r6, bind_of_returns r7,
    bind_of_returns r8, bind_of_returns r9]
  rfl

-- ========================================================= the options

theorem length_mssOption {len : Nat} (h : 4 ≤ len) (mss : BitVec 16) :
    (mssOption len mss).length = len := by
  simp only [mssOption, List.length_append, List.length_singleton,
    length_be16, List.length_replicate]
  omega

/-- What has been written with the options. -/
def optionWrites (l : Layout) (s : Syn) (f : List Byte) :
    List (Nat × List Byte) :=
  headerWrites l s f ++ [(l.opts, mssOption s.optionsLen s.mss)]

/-- A frame that holds its options gets new ones. -/
theorem rewriteHeaders_fits {l : Layout} {s : Syn} (h6 : 6 ≤ s.doff)
    (h15 : s.doff < 16) (h : l.tcp + s.doff * 4 ≤ c.frame.length) :
    Returns (rewriteHeaders l s) c ()
        (c.writes (optionWrites l s c.frame))
      ∧ Inside c.frame.length (optionWrites l s c.frame) := by
  have hopt : s.optionsLen = s.doff * 4 - 20 := rfl
  obtain ⟨heq, hfit⟩ := rewriteHeaders_eq s
    (show l.tcp + 20 ≤ c.frame.length by omega)
  have hmax : s.optionsLen ≤ maxTcpOpts := by
    unfold maxTcpOpts
    omega
  have hroom : l.opts + (mssOption s.optionsLen s.mss).length
      ≤ c.frame.length := by
    rw [length_mssOption (by omega), Layout.opts]
    omega
  rw [Returns, heq]
  exact (stores_writeMssOption l.opts s.mss hmax).after hfit hroom

/-- One that does not is left with its headers rewritten. -/
theorem rewriteHeaders_short {l : Layout} {s : Syn} (h6 : 6 ≤ s.doff)
    (h15 : s.doff < 16) (h : l.tcp + 20 ≤ c.frame.length)
    (hshort : c.frame.length < l.tcp + s.doff * 4) :
    (rewriteHeaders l s c).1 = none
      ∧ ∀ o n, o + n ≤ l.opts → slice o n (rewriteHeaders l s c).2.frame
        = slice o n (puts (headerWrites l s c.frame) c.frame) := by
  have hopt : s.optionsLen = s.doff * 4 - 20 := rfl
  obtain ⟨heq, hfit⟩ := rewriteHeaders_eq s h
  have hmax : s.optionsLen ≤ maxTcpOpts := by
    unfold maxTcpOpts
    omega
  rw [heq, stores_writeMssOption l.opts s.mss hmax]
  constructor
  · refine storeAll_short (List.cons_ne_nil _ _) ?_
    rw [Ctx.length_writes hfit, length_mssOption (by omega), Layout.opts]
    omega
  · intro o n ho
    exact keeps_storeAll _ ho _

-- =========================================================== the reply

/-- Everything a SYN-ACK has written into the frame: the headers, the
options, the IP checksum of a family that has one, the TCP checksum. -/
def replyWrites (l : Layout) (s : Syn) (ipCheck : Option (BitVec 16))
    (tcpCheck : BitVec 16) (f : List Byte) : List (Nat × List Byte) :=
  optionWrites l s f ++ ipCheck.toList.map (fun x => (offIpCheck, be16 x))
    ++ [(l.check, be16 tcpCheck)]

/-- No two of them overlap. -/
theorem apart_replyWrites {l : Layout} (s : Syn)
    (ipCheck : Option (BitVec 16)) (tcpCheck : BitVec 16) {f : List Byte}
    (h : l.tcp + 20 ≤ f.length)
    (hip : ipCheck = none ∨ offIpCheck + 2 ≤ l.src) :
    Apart (replyWrites l s ipCheck tcpCheck f) := by
  have hsrc : 16 ≤ l.src := l.src_ge
  have hdst := l.src_dst
  have htcp := l.dst_tcp
  have hA : (slice l.dst l.addrLen f).length = l.addrLen :=
    length_slice (by omega)
  have hB : (slice l.src l.addrLen f).length = l.addrLen :=
    length_slice (by omega)
  have hP : (slice l.tcp 2 f).length = 2 := length_slice (by omega)
  have hQ : (slice (l.tcp + 2) 2 f).length = 2 := length_slice (by omega)
  have hM : (slice 6 6 f).length = 6 := length_slice (by omega)
  have hN : (slice 0 6 f).length = 6 := length_slice (by omega)
  unfold offIpCheck offIp at hip
  rcases ipCheck with _ | x <;>
    simp only [replyWrites, optionWrites, headerWrites, Option.toList,
      List.map_cons, List.map_nil, List.append_nil, List.cons_append,
      List.nil_append, Apart, clear_cons, clear_nil, offMacDst, offMacSrc,
      offIpCheck, offIp, Layout.srcport, Layout.dstport, Layout.seq,
      Layout.ack, Layout.dataoff, Layout.flags, Layout.window, Layout.check,
      Layout.urg, Layout.opts, hA, hB, hP, hQ, hM, hN, length_be16,
      length_be32, List.length_singleton, and_true, reduceCtorEq, false_or]
      at hip ⊢ <;>
    omega

/-- A second write to a place is the one that counts. -/
theorem Ctx.writes_again {off : Nat} {x y : List Byte}
    (hxy : x.length = y.length) (hws : Inside c.frame.length ws)
    (h : off + x.length ≤ c.frame.length) :
    c.writes (ws ++ [(off, x)] ++ [(off, y)])
      = c.writes (ws ++ [(off, y)]) := by
  have hput : put off y (put off x (puts ws c.frame))
      = put off y (puts ws c.frame) :=
    put_put hxy (by rw [length_puts hws]; exact h)
  rw [writes_append, writes_append, writes_append]
  simp only [writes, puts, List.foldl_cons, List.foldl_nil] at hput ⊢
  rw [hput]

/-- The IP checksum as it is computed, over a header whose checksum field
is zero. -/
def ipCheckOf (s : Syn) (f : List Byte) : BitVec 16 :=
  foldChecksum (sumWords 10 (slice offIp 20
    (puts (optionWrites v4 s f ++ [(offIpCheck, be16 0)]) f)))

theorem reads_ipv4Checksum :
    Reads ipv4Checksum (fun c => offIp + 20 ≤ c.frame.length)
      (fun c => foldChecksum (sumWords 10 (slice offIp 20 c.frame))) :=
  (reads_ptrAt offIp 20).map _

/-- The TCP checksum of the reply, from the addresses of the SYN. -/
def tcpCheckOf (l : Layout) (s : Syn) (f : List Byte) : BitVec 16 :=
  foldChecksum (sumWords (l.addrLen / 2) (slice l.src l.addrLen f)
    + sumWords (l.addrLen / 2) (slice l.dst l.addrLen f) + segmentSum s)

/-- Past the gate, a frame that holds its options is answered. -/
theorem replyV4_fits {s : Syn} (h6 : 6 ≤ s.doff) (h15 : s.doff < 16)
    (h : v4.tcp + s.doff * 4 ≤ c.frame.length) :
    let ws := replyWrites v4 s (some (ipCheckOf s c.frame))
      (tcpCheckOf v4 s c.frame) c.frame
    Returns (replyV4 (slice v4.src v4.addrLen c.frame)
        (slice v4.dst v4.addrLen c.frame) s) c .tx (c.writes ws)
      ∧ Inside c.frame.length ws := by
  have htcp : v4.tcp = 34 := rfl
  have hlen : 54 ≤ c.frame.length := by omega
  have hroom : ∀ n, n ≤ 54 → n ≤ c.frame.length :=
    fun n hn => Nat.le_trans hn hlen
  have hcheck : offIpCheck + 2 ≤ c.frame.length := hroom _ (by decide)
  obtain ⟨r1, f1⟩ := rewriteHeaders_fits h6 h15 h
  obtain ⟨r2, f2⟩ := (stores_storeBe16 offIpCheck 0).after f1 hcheck
  have hread : offIp + 20 ≤ (c.writes (optionWrites v4 s c.frame
      ++ [(offIpCheck, be16 0)])).frame.length := by
    rw [Ctx.length_writes f2]
    exact hroom _ (by decide)
  have r3 : Returns ipv4Checksum
      (c.writes (optionWrites v4 s c.frame ++ [(offIpCheck, be16 0)]))
      (ipCheckOf s c.frame)
      (c.writes (optionWrites v4 s c.frame ++ [(offIpCheck, be16 0)])) :=
    reads_ipv4Checksum.succeeds _ hread
  have hagain : c.writes (optionWrites v4 s c.frame
        ++ [(offIpCheck, be16 0)]
        ++ [(offIpCheck, be16 (ipCheckOf s c.frame))])
      = c.writes (optionWrites v4 s c.frame
        ++ [(offIpCheck, be16 (ipCheckOf s c.frame))]) :=
    Ctx.writes_again rfl f1 hcheck
  have r4 := ((stores_storeBe16 offIpCheck
    (ipCheckOf s c.frame)).after f2 hcheck).1
  rw [hagain] at r4
  have f4 : Inside c.frame.length (optionWrites v4 s c.frame
      ++ [(offIpCheck, be16 (ipCheckOf s c.frame))]) :=
    inside_append f1 (inside_one hcheck)
  obtain ⟨r5, f5⟩ := (stores_storeBe16 v4.check
    (tcpCheckOf v4 s c.frame)).after f4
      (hroom (v4.check + 2) (by decide))
  refine ⟨?_, f5⟩
  rw [Returns, replyV4, bind_of_returns r1, bind_of_returns r2,
    bind_of_returns r3, bind_of_returns r4]
  exact bind_of_returns r5

/-- The same over IPv6: the sum of the swapped addresses is the sum of the
addresses. -/
theorem replyV6_fits {s : Syn} (h6 : 6 ≤ s.doff) (h15 : s.doff < 16)
    (h : v6.tcp + s.doff * 4 ≤ c.frame.length) :
    let ws := replyWrites v6 s none (tcpCheckOf v6 s c.frame) c.frame
    Returns (replyV6 s) c .tx (c.writes ws)
      ∧ Inside c.frame.length ws := by
  have htcp : v6.tcp = 54 := rfl
  have hlen : 74 ≤ c.frame.length := by omega
  have hroom : ∀ n, n ≤ 74 → n ≤ c.frame.length :=
    fun n hn => Nat.le_trans hn hlen
  obtain ⟨r1, f1⟩ := rewriteHeaders_fits h6 h15 h
  have hapart : Apart (optionWrites v6 s c.frame) :=
    (apart_replyWrites s none 0 (show v6.tcp + 20 ≤ _ by omega)
      (Or.inl rfl)).left.left
  have hA : (slice v6.src 16 c.frame).length = 16 :=
    length_slice (hroom _ (by decide))
  have hB : (slice v6.dst 16 c.frame).length = 16 :=
    length_slice (hroom _ (by decide))
  have hsrc : slice v6.src 16 (puts (optionWrites v6 s c.frame) c.frame)
      = slice v6.dst 16 c.frame :=
    slice_puts_eq hB f1 hapart (by
      simp [optionWrites, headerWrites, show v6.addrLen = 16 from rfl])
  have hdst : slice v6.dst 16 (puts (optionWrites v6 s c.frame) c.frame)
      = slice v6.src 16 c.frame :=
    slice_puts_eq hA f1 hapart (by
      simp [optionWrites, headerWrites, show v6.addrLen = 16 from rfl])
  have hread : ∀ off, off + 16 ≤ 74 → Returns (loadAddr16 off)
      (c.writes (optionWrites v6 s c.frame))
      (slice off 16 (puts (optionWrites v6 s c.frame) c.frame))
      (c.writes (optionWrites v6 s c.frame)) := by
    intro off hoff
    refine (reads_ptrAt off 16).succeeds _ ?_
    rw [Ctx.length_writes f1]
    exact hroom _ hoff
  have r2 := hread v6.src (by decide)
  have r3 := hread v6.dst (by decide)
  rw [hsrc] at r2
  rw [hdst] at r3
  have hsum : tcpCheckOf v6 s c.frame
      = foldChecksum (sumAddr16 (slice v6.dst 16 c.frame)
        + sumAddr16 (slice v6.src 16 c.frame) + segmentSum s) := by
    rw [Nat.add_comm (sumAddr16 _)]
    rfl
  obtain ⟨r4, f4⟩ := (stores_storeBe16 v6.check
    (tcpCheckOf v6 s c.frame)).after f1
      (hroom (v6.check + 2) (by decide))
  refine ⟨?_, f4⟩
  rw [hsum] at r4 ⊢
  rw [Returns, replyV6, bind_of_returns r1, bind_of_returns r2,
    bind_of_returns r3]
  exact bind_of_returns r4

end Blackwall.Xdp
