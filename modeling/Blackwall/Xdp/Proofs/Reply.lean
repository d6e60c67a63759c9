/-
The frame that goes out is a SYN-ACK.

`IsSynAck` says what that means, in terms of the bytes that came and the
bytes that go. Its fields are the writes of the surgery read back. The
checksum is another kind of fact: the program adds up values, the receiver
adds up bytes, so the bytes of the segment are put back together from the
writes (`ReadBack.segment_eq`) and summed part by part.
-/
import Blackwall.Base.Checksum
import Blackwall.Xdp.Proofs.Rewrite

namespace Blackwall.Xdp

open Base Fallible Cookie

-- ======================================================= the statement

/-- The IPv4 pseudo-header of a TCP segment. -/
def pseudoV4 (src dst : List Byte) (len : Nat) : List Byte :=
  src ++ (dst ++ ([0, ipProtoTcp] ++ be16 (BitVec.ofNat 16 len)))

/-- The IPv6 pseudo-header of a TCP segment. -/
def pseudoV6 (src dst : List Byte) (len : Nat) : List Byte :=
  src ++ (dst ++ (be32 (BitVec.ofNat 32 len) ++ [0, 0, 0, ipProtoTcp]))

/-- `g` is the SYN-ACK to the SYN `f`, with `cookie` for a sequence number
and the pseudo-header `pseudo` under its checksum. -/
structure IsSynAck (l : Layout) (cookie : BitVec 32)
    (pseudo : List Byte → List Byte → Nat → List Byte)
    (f g : List Byte) : Prop where
  length : g.length = f.length
  macDst : slice offMacDst 6 g = slice offMacSrc 6 f
  macSrc : slice offMacSrc 6 g = slice offMacDst 6 f
  src : slice l.src l.addrLen g = slice l.dst l.addrLen f
  dst : slice l.dst l.addrLen g = slice l.src l.addrLen f
  srcport : slice l.srcport 2 g = slice l.dstport 2 f
  dstport : slice l.dstport 2 g = slice l.srcport 2 f
  flags : slice l.flags 1 g = [0x12]
  ack : slice l.ack 4 g = be32 (be32At l.seq f + 1)
  seq : slice l.seq 4 g = be32 cookie
  doff : doffAt l g = doffAt l f
  whole : l.tcp + doffAt l f * 4 ≤ g.length
  options : slice l.opts (doffAt l f * 4 - 20) g
    = [2, 4] ++ be16 (mssAt (decodeMssIndex cookie))
      ++ List.replicate (doffAt l f * 4 - 24) 1
  checksum : verifies (pseudo (slice l.src l.addrLen g)
      (slice l.dst l.addrLen g) (doffAt l f * 4)
    ++ slice l.tcp (doffAt l f * 4) g)

-- ===================================================== sums of the parts

theorem toNat_foldChecksum {sum : Nat} (h : sum < 2 ^ 32) :
    (foldChecksum sum).toNat = 65535 - foldOnce (foldOnce sum) := by
  have hle := (foldOnce_twice h).1
  have hfold : foldChecksum sum
      = ~~~(BitVec.ofNat 16 (foldOnce (foldOnce sum))) := by
    rw [foldChecksum, Nat.mod_eq_of_lt h]
    rfl
  rw [hfold, BitVec.toNat_not, BitVec.toNat_ofNat,
    Nat.mod_eq_of_lt (by omega)]

/-- The sum of the first words, one at a time from the front. -/
theorem sumWords_succ (n : Nat) (hi lo : Byte) (rest : List Byte) :
    sumWords (n + 1) (hi :: lo :: rest)
      = hi.toNat * 256 + lo.toNat + sumWords n rest := by
  rw [sumWords, List.range_succ_eq_map, List.map_cons, List.sum_cons,
    List.map_map, sumWords]
  refine congrArg₂ (· + ·) (toNat_word16 hi lo)
    (congrArg List.sum (List.map_congr_left fun k _ => ?_))
  show (word16 (byteAt ((k + 1) * 2) _)
    (byteAt ((k + 1) * 2 + 1) _)).toNat = _
  rw [Nat.succ_mul]
  rfl

/-- The loop's sum is the sum of the words. -/
theorem sumWords_eq : ∀ (n : Nat) {bytes : List Byte},
    bytes.length = 2 * n → sumWords n bytes = wordSum bytes
  | 0, [], _ => rfl
  | n + 1, hi :: lo :: rest, h => by
      rw [sumWords_succ, wordSum, sumWords_eq n (by
        rw [List.length_cons, List.length_cons] at h
        omega)]

theorem wordSum_le : ∀ bytes : List Byte,
    wordSum bytes ≤ bytes.length * 65535
  | [] => Nat.zero_le _
  | [hi] => by
      have := hi.isLt
      rw [wordSum, List.length_singleton]
      omega
  | hi :: lo :: rest => by
      have := hi.isLt
      have := lo.isLt
      have := wordSum_le rest
      rw [wordSum, List.length_cons, List.length_cons]
      omega

-- ========================================================= the segment

/-- The bytes of the reply's TCP segment. -/
def segment (l : Layout) (s : Syn) (check : BitVec 16) (f : List Byte) :
    List Byte :=
  slice l.dstport 2 f ++ (slice l.srcport 2 f ++ (be32 s.cookieSeq
    ++ (be32 s.ack ++ (([BitVec.ofNat 8 (s.doff <<< 4)]
    ++ [tcpFlagsSynAck]) ++ (be16 synackWindow ++ (be16 check ++ (be16 0
    ++ mssOption s.optionsLen s.mss)))))))

theorem wordSum_mssOption (k : Nat) (mss : BitVec 16) :
    wordSum (mssOption (2 * k + 4) mss) = 0x0204 + mss.toNat + k * 257 := by
  have hpad : 2 * k + 4 - 4 = 2 * k := by omega
  have hhead : ∀ y, wordSum ([2] ++ ([4] ++ y)) = 0x0204 + wordSum y :=
    fun _ => rfl
  have hnop : (1 : Byte).toNat = 1 := rfl
  rw [mssOption, hpad, hhead, wordSum_be16_append, wordSum_replicate, hnop]
  omega

theorem toNat_halves (v : BitVec 32) :
    (v >>> 16).toNat + (v &&& 0xffff).toNat
      = v.toNat / 65536 + v.toNat % 65536 := by
  have hmask : v.toNat &&& 0xffff = v.toNat % 65536 :=
    Nat.and_two_pow_sub_one_eq_mod v.toNat 16
  rw [BitVec.toNat_ushiftRight, Nat.shiftRight_eq_div_pow,
    BitVec.toNat_and]
  exact congrArg _ hmask

theorem toNat_dataoff {doff : Nat} (h : doff < 16) :
    (BitVec.ofNat 8 (doff <<< 4)).toNat = doff * 16 := by
  rw [BitVec.toNat_ofNat, Nat.shiftLeft_eq]
  omega

theorem offsetWord_eq (doff : Nat) :
    doff <<< 12 ||| 0x0012 = doff * 4096 + 18 := by
  rw [Nat.shiftLeft_eq, Nat.mul_comm,
    ← Nat.two_pow_add_eq_or_of_lt (by decide)]

/-- The word of the data offset and the flags. -/
theorem wordSum_offsetWord {doff : Nat} (h : doff < 16) (y : List Byte) :
    wordSum (([BitVec.ofNat 8 (doff <<< 4)] ++ [tcpFlagsSynAck]) ++ y)
      = (doff <<< 12 ||| 0x0012) + wordSum y := by
  have hbyte := toNat_dataoff h
  have hflags : tcpFlagsSynAck.toNat = 18 := rfl
  rw [offsetWord_eq, List.singleton_append, List.cons_append,
    List.singleton_append, wordSum, hbyte, hflags]
  omega

/-- What the program adds up is what the bytes add up to, but for the
checksum and the pseudo-header. -/
theorem wordSum_segment {l : Layout} {s : Syn} {f : List Byte}
    (h6 : 6 ≤ s.doff) (h15 : s.doff < 16) (check : BitVec 16)
    (hsp : slice l.srcport 2 f = be16 s.srcPort)
    (hdp : slice l.dstport 2 f = be16 s.dstPort) :
    6 + s.doff * 4 + wordSum (segment l s check f)
      = segmentSum s + check.toNat := by
  have hopt : s.optionsLen = 2 * (2 * s.doff - 12) + 4 := by
    rw [Syn.optionsLen]
    omega
  have hnops : (s.optionsLen - 4) / 2 = 2 * s.doff - 12 := by omega
  rw [segmentSum, hnops, toNat_halves, toNat_halves, segment, hsp, hdp,
    hopt, wordSum_be16_append, wordSum_be16_append, wordSum_be32_append,
    wordSum_be32_append, wordSum_offsetWord h15, wordSum_be16_append,
    wordSum_be16_append, wordSum_be16_append, wordSum_mssOption]
  have hproto : ipProtoTcp.toNat = 6 := rfl
  have hurg : (0 : BitVec 16).toNat = 0 := rfl
  rw [hproto, hurg]
  -- the word of the offset is on both sides, its bits do not matter
  generalize s.doff <<< 12 ||| 0x0012 = offsetWord
  clear hsp hdp hopt hnops
  omega

/-- The accumulator is nowhere near its 32 bits. -/
theorem segmentSum_lt {s : Syn} (h15 : s.doff < 16) :
    segmentSum s < 2 ^ 20 := by
  have h1 := s.srcPort.isLt
  have h2 := s.dstPort.isLt
  have h3 := s.cookieSeq.isLt
  have h4 := s.ack.isLt
  have h5 := s.mss.isLt
  have hproto : ipProtoTcp.toNat = 6 := rfl
  have hwin : synackWindow.toNat = 65535 := rfl
  rw [segmentSum, toNat_halves, toNat_halves, offsetWord_eq, Syn.optionsLen]
  omega

-- =========================================================== the frame

section Frame

variable {l : Layout} {s : Syn} {ip : Option (BitVec 16)}
  {check : BitVec 16} {f : List Byte}

/-- The reply read back: what was written where. -/
structure ReadBack (l : Layout) (s : Syn) (check : BitVec 16)
    (f g : List Byte) : Prop where
  header : ∀ w ∈ headerWrites l s f, slice w.1 w.2.length g = w.2
  options : slice l.opts s.optionsLen g = mssOption s.optionsLen s.mss
  checksum : slice l.check 2 g = be16 check

theorem readBack_reply (h6 : 6 ≤ s.doff) (h : l.tcp + 20 ≤ f.length)
    (hfit : Inside f.length (replyWrites l s ip check f))
    (hip : ip = none ∨ offIpCheck + 2 ≤ l.src) :
    ReadBack l s check f (puts (replyWrites l s ip check f) f) := by
  have hapart := apart_replyWrites s ip check h hip
  have hopt : 4 ≤ s.optionsLen := by
    rw [Syn.optionsLen]
    omega
  constructor
  · intro w hw
    refine slice_puts_mem hfit hapart ?_
    exact List.mem_append_left _ (List.mem_append_left _
      (List.mem_append_left _ hw))
  · refine slice_puts_eq (length_mssOption hopt s.mss) hfit hapart ?_
    exact List.mem_append_left _ (List.mem_append_left _
      (List.mem_append_right _ (List.mem_singleton.mpr rfl)))
  · exact slice_puts_eq rfl hfit hapart
      (List.mem_append_right _ (List.mem_singleton.mpr rfl))

variable {g : List Byte}

/-- A field of the header, by its place and its length. -/
theorem ReadBack.field {o n : Nat} {x : List Byte}
    (hr : ReadBack l s check f g) (hn : x.length = n)
    (hw : (o, x) ∈ headerWrites l s f) : slice o n g = x :=
  hn ▸ hr.header (o, x) hw

/-- The segment is its fields. -/
theorem ReadBack.segment_eq (hr : ReadBack l s check f g)
    (h6 : 6 ≤ s.doff) (h : l.tcp + 20 ≤ f.length) :
    slice l.tcp (s.doff * 4) g = segment l s check f := by
  have hP : (slice l.srcport 2 f).length = 2 :=
    length_slice (by unfold Layout.srcport; omega)
  have hQ : (slice l.dstport 2 f).length = 2 :=
    length_slice (by unfold Layout.dstport; omega)
  have hsplit : s.doff * 4
      = 2 + (2 + (4 + (4 + ((1 + 1) + (2 + (2 + (2 + s.optionsLen))))))) := by
    rw [Syn.optionsLen]
    omega
  have e1 : slice l.tcp 2 g = slice l.dstport 2 f :=
    hr.field hQ (by simp [headerWrites, Layout.srcport])
  have e2 : slice (l.tcp + 2) 2 g = slice l.srcport 2 f :=
    hr.field hP (by simp [headerWrites, Layout.dstport])
  have e3 : slice (l.tcp + 2 + 2) 4 g = be32 s.cookieSeq :=
    hr.field (o := l.seq) rfl (by simp [headerWrites])
  have e4 : slice (l.tcp + 2 + 2 + 4) 4 g = be32 s.ack :=
    hr.field (o := l.ack) rfl (by simp [headerWrites])
  have e5 : slice (l.tcp + 2 + 2 + 4 + 4) 1 g
      = [BitVec.ofNat 8 (s.doff <<< 4)] :=
    hr.field (o := l.dataoff) rfl (by simp [headerWrites])
  have e6 : slice (l.tcp + 2 + 2 + 4 + 4 + 1) 1 g = [tcpFlagsSynAck] :=
    hr.field (o := l.flags) rfl (by simp [headerWrites])
  have e7 : slice (l.tcp + 2 + 2 + 4 + 4 + (1 + 1)) 2 g
      = be16 synackWindow :=
    hr.field (o := l.window) rfl (by simp [headerWrites])
  have e8 : slice (l.tcp + 2 + 2 + 4 + 4 + (1 + 1) + 2) 2 g = be16 check :=
    hr.checksum
  have e9 : slice (l.tcp + 2 + 2 + 4 + 4 + (1 + 1) + 2 + 2) 2 g = be16 0 :=
    hr.field (o := l.urg) rfl (by simp [headerWrites])
  have e10 : slice (l.tcp + 2 + 2 + 4 + 4 + (1 + 1) + 2 + 2 + 2)
      s.optionsLen g = mssOption s.optionsLen s.mss :=
    hr.options
  rw [hsplit, slice_add, slice_add, slice_add, slice_add, slice_add,
    slice_add, slice_add, slice_add, slice_add, e1, e2, e3, e4, e5, e6, e7,
    e8, e9, e10, segment]

/-- A pseudo-header that adds up to the addresses, the protocol and the
length. -/
def IsPseudo (n : Nat)
    (pseudo : List Byte → List Byte → Nat → List Byte) : Prop :=
  ∀ (src dst : List Byte) (len : Nat), src.length = n → dst.length = n →
    len < 64 → (pseudo src dst len).length % 2 = 0
      ∧ wordSum (pseudo src dst len) = wordSum src + wordSum dst + 6 + len

theorem isPseudo_v4 : IsPseudo v4.addrLen pseudoV4 := by
  intro src dst len hs hd hl
  rw [show v4.addrLen = 4 from rfl] at hs hd
  constructor
  · simp [pseudoV4, hs, hd]
  · rw [pseudoV4, wordSum_append _ (by rw [hs]),
      wordSum_append _ (by rw [hd]), wordSum_append _ rfl, wordSum_be16,
      BitVec.toNat_ofNat, Nat.mod_eq_of_lt (by omega)]
    have hproto : wordSum [0, ipProtoTcp] = 6 := rfl
    omega

theorem isPseudo_v6 : IsPseudo v6.addrLen pseudoV6 := by
  intro src dst len hs hd hl
  rw [show v6.addrLen = 16 from rfl] at hs hd
  constructor
  · simp [pseudoV6, hs, hd]
  · rw [pseudoV6, wordSum_append _ (by rw [hs]),
      wordSum_append _ (by rw [hd]), wordSum_be32_append,
      BitVec.toNat_ofNat, Nat.mod_eq_of_lt (by omega)]
    have hproto : wordSum [0, 0, 0, ipProtoTcp] = 6 := rfl
    omega

/-- With the program's checksum in it, the segment verifies under the
pseudo-header of the swapped addresses. -/
theorem verifies_segment
    {pseudo : List Byte → List Byte → Nat → List Byte}
    (hpseudo : IsPseudo l.addrLen pseudo)
    (heven : l.addrLen = 2 * (l.addrLen / 2)) (haddr : l.addrLen ≤ 16)
    (h6 : 6 ≤ s.doff) (h15 : s.doff < 16) (h : l.tcp + 20 ≤ f.length)
    (hsp : slice l.srcport 2 f = be16 s.srcPort)
    (hdp : slice l.dstport 2 f = be16 s.dstPort) :
    verifies (pseudo (slice l.dst l.addrLen f) (slice l.src l.addrLen f)
        (s.doff * 4)
      ++ segment l s (tcpCheckOf l s f) f) := by
  have hdst := l.src_dst
  have htcp := l.dst_tcp
  have hA : (slice l.src l.addrLen f).length = l.addrLen :=
    length_slice (by omega)
  have hB : (slice l.dst l.addrLen f).length = l.addrLen :=
    length_slice (by omega)
  have hsrcsum := sumWords_eq (l.addrLen / 2) (hA.trans heven)
  have hdstsum := sumWords_eq (l.addrLen / 2) (hB.trans heven)
  have hsrcle := wordSum_le (slice l.src l.addrLen f)
  have hdstle := wordSum_le (slice l.dst l.addrLen f)
  rw [hA] at hsrcle
  rw [hB] at hdstle
  have hseg := segmentSum_lt h15
  have hS : sumWords (l.addrLen / 2) (slice l.src l.addrLen f)
      + sumWords (l.addrLen / 2) (slice l.dst l.addrLen f) + segmentSum s
      < 2 ^ 32 := by
    omega
  have hcheck : (tcpCheckOf l s f).toNat = _ := toNat_foldChecksum hS
  obtain ⟨hpar, hsum⟩ := hpseudo _ _ (s.doff * 4) hB hA (by omega)
  have hbytes := wordSum_segment h6 h15 (tcpCheckOf l s f) hsp hdp
  refine verifies_of_folded hS ?_
  rw [wordSum_append _ hpar, hsum, ← hcheck, hsrcsum, hdstsum]
  omega

/-- The frame of a reply is a SYN-ACK, given what the family's
pseudo-header adds up to. -/
theorem isSynAck_of_readBack {cookie : BitVec 32} {mss : BitVec 16}
    {pseudo : List Byte → List Byte → Nat → List Byte}
    (hmss : mss = mssAt (decodeMssIndex cookie))
    (hpseudo : IsPseudo l.addrLen pseudo)
    (heven : l.addrLen = 2 * (l.addrLen / 2)) (haddr : l.addrLen ≤ 16)
    (h6 : 6 ≤ doffAt l f) (h : l.tcp + doffAt l f * 4 ≤ f.length)
    (hlen : g.length = f.length)
    (hr : ReadBack l (synAt l (cookie, mss) f)
      (tcpCheckOf l (synAt l (cookie, mss) f) f) f g) :
    IsSynAck l cookie pseudo f g := by
  have hsrc : 16 ≤ l.src := l.src_ge
  have hdst := l.src_dst
  have htcp := l.dst_tcp
  have hA : (slice l.src l.addrLen f).length = l.addrLen :=
    length_slice (by omega)
  have hB : (slice l.dst l.addrLen f).length = l.addrLen :=
    length_slice (by omega)
  have hP : slice l.srcport 2 f = be16 (be16At l.srcport f) :=
    slice_two_be16At (by unfold Layout.srcport; omega)
  have hQ : slice l.dstport 2 f = be16 (be16At l.dstport f) :=
    slice_two_be16At (by unfold Layout.dstport; omega)
  have hsrcg : slice l.src l.addrLen g = slice l.dst l.addrLen f :=
    hr.field hB (by simp [headerWrites])
  have hdstg : slice l.dst l.addrLen g = slice l.src l.addrLen f :=
    hr.field hA (by simp [headerWrites])
  have h15 := doffAt_lt l f
  have hfixed : l.tcp + 20 ≤ f.length := by omega
  have hM : (slice offMacSrc 6 f).length = 6 :=
    length_slice (show 6 + 6 ≤ f.length by omega)
  have hN : (slice offMacDst 6 f).length = 6 :=
    length_slice (show 0 + 6 ≤ f.length by omega)
  refine
    { length := hlen
      macDst := hr.field hM (by simp [headerWrites])
      macSrc := hr.field hN (by simp [headerWrites])
      src := hsrcg
      dst := hdstg
      srcport := hr.field (by rw [hQ]; rfl) (by simp [headerWrites])
      dstport := hr.field (by rw [hP]; rfl) (by simp [headerWrites])
      flags := hr.field rfl (by simp [headerWrites, tcpFlagsSynAck])
      ack := hr.field rfl (by simp [headerWrites, synAt, Syn.ack])
      seq := hr.field rfl (by simp [headerWrites, synAt])
      doff := ?_
      whole := by rw [hlen]; exact h
      options := ?_
      checksum := ?_ }
  · have hdoff : slice l.dataoff 1 g
        = [BitVec.ofNat 8 (doffAt l f <<< 4)] :=
      hr.field rfl (by simp [headerWrites, synAt])
    rw [slice_one_byteAt (by unfold Layout.dataoff; omega)] at hdoff
    rw [doffAt, List.singleton_inj.mp hdoff, BitVec.toNat_ushiftRight,
      toNat_dataoff h15, Nat.shiftRight_eq_div_pow]
    omega
  · have hopt := hr.options
    rw [← hmss]
    exact hopt
  · have hseg : slice l.tcp (doffAt l f * 4) g = _ :=
      hr.segment_eq h6 hfixed
    rw [hsrcg, hdstg, hseg]
    exact verifies_segment (s := synAt l (cookie, mss) f) hpseudo heven
      haddr h6 h15 hfixed hP hQ

end Frame

-- ===================================================== the IP checksum

/-- The sum of an IPv4 header, with the checksum field apart. -/
theorem wordSum_ipHeader {base : List Byte} (h : 34 ≤ base.length)
    (x : BitVec 16) :
    wordSum (slice offIp 20 (put offIpCheck (be16 x) base))
      = wordSum (slice offIp 10 base) + wordSum (slice v4.src 8 base)
        + x.toNat := by
  have hfit : offIpCheck + (be16 x).length ≤ base.length :=
    Nat.le_trans (show 26 ≤ 34 by decide) h
  have e1 : slice offIp 10 (put offIpCheck (be16 x) base)
      = slice offIp 10 base :=
    slice_put_other hfit (Or.inl (Nat.le_refl _))
  have e2 : slice (offIp + 10) 2 (put offIpCheck (be16 x) base)
      = be16 x :=
    slice_put_same hfit
  have e3 : slice (offIp + 10 + 2) 8 (put offIpCheck (be16 x) base)
      = slice v4.src 8 base :=
    slice_put_other hfit (Or.inr (Nat.le_refl _))
  have hlen : (slice offIp 10 base).length = 10 :=
    length_slice (Nat.le_trans (show 24 ≤ 34 by decide) h)
  rw [show (20 : Nat) = 10 + (2 + 8) from rfl, slice_add, slice_add, e1, e2,
    e3, wordSum_append _ (by rw [hlen]), wordSum_be16_append]
  omega

/-- A header verifies with the checksum of itself, summed with a zero in
the field. -/
theorem verifies_ipHeader {base : List Byte} (h : 34 ≤ base.length)
    {x : BitVec 16}
    (hx : x = foldChecksum (sumWords 10
      (slice offIp 20 (put offIpCheck (be16 0) base)))) :
    verifies (slice offIp 20 (put offIpCheck (be16 x) base)) := by
  have hlen : (slice offIp 20
      (put offIpCheck (be16 0) base)).length = 20 := by
    apply length_slice
    rw [length_put (Nat.le_trans (show 26 ≤ 34 by decide) h)]
    exact h
  have hsum := sumWords_eq 10 hlen
  have hle := wordSum_le (slice offIp 20 (put offIpCheck (be16 0) base))
  have hhead := wordSum_ipHeader h 0
  have hhead' := wordSum_ipHeader h x
  rw [hlen] at hle
  rw [hsum] at hx
  have hS : wordSum (slice offIp 20 (put offIpCheck (be16 0) base))
      < 2 ^ 32 := by
    omega
  have hcheck := toNat_foldChecksum hS
  rw [← hx] at hcheck
  have hz : (0 : BitVec 16).toNat = 0 := rfl
  refine verifies_of_folded hS ?_
  omega

theorem verifies_replyV4 {s : Syn} {check : BitVec 16} {f : List Byte}
    (h : v4.tcp + 20 ≤ f.length)
    (hfit : Inside f.length (optionWrites v4 s f)) :
    verifies (slice offIp 20
      (puts (replyWrites v4 s (some (ipCheckOf s f)) check f) f)) := by
  have hx : ipCheckOf s f = foldChecksum (sumWords 10 (slice offIp 20
      (put offIpCheck (be16 0) (puts (optionWrites v4 s f) f)))) := by
    rw [ipCheckOf, puts_append]
    rfl
  have hputs : puts (replyWrites v4 s (some (ipCheckOf s f)) check f) f
      = put v4.check (be16 check) (put offIpCheck (be16 (ipCheckOf s f))
        (puts (optionWrites v4 s f) f)) := by
    rw [replyWrites, puts_append, puts_append]
    rfl
  generalize ipCheckOf s f = x at hx hputs ⊢
  have hbase : (puts (optionWrites v4 s f) f).length = f.length :=
    length_puts hfit
  generalize puts (optionWrites v4 s f) f = base at hx hputs hbase
  have h34 : 34 ≤ base.length :=
    hbase ▸ Nat.le_trans (show 34 ≤ v4.tcp + 20 by decide) h
  have hmid : (put offIpCheck (be16 x) base).length = base.length :=
    length_put (Nat.le_trans (show 26 ≤ 34 by decide) h34)
  -- the TCP checksum is beyond the IP header
  rw [hputs, slice_put_other (hmid ▸ hbase ▸ Nat.le_trans
    (show 52 ≤ v4.tcp + 20 by decide) h) (Or.inl (by decide))]
  exact verifies_ipHeader h34 hx

-- ========================================================== the replies

/-- A sequence that succeeds got past its first part. -/
theorem returns_of_bind_some {α : Type} {gate : Prog α}
    {reply : α → Prog XdpAction} {c : Ctx} {v : XdpAction}
    (h : ((gate >>= reply) c).1 = some v) :
    ∃ r c', Returns gate c r c' ∧ (gate >>= reply) c = reply r c'
      ∧ (reply r c').1 = some v := by
  rcases hg : gate c with ⟨_ | r, c'⟩
  · rw [bind_of_fails hg] at h
    exact absurd h nofun
  · rw [bind_of_returns hg] at h
    exact ⟨r, c', hg, bind_of_returns hg, h⟩

/-- The surgery only succeeds on a frame that holds its options. -/
theorem inside_of_reply {l : Layout} {s : Syn} {c : Ctx} {v : XdpAction}
    {rest : Unit → Prog XdpAction} (h6 : 6 ≤ s.doff) (h15 : s.doff < 16)
    (hfixed : l.tcp + 20 ≤ c.frame.length)
    (h : ((rewriteHeaders l s >>= rest) c).1 = some v) :
    l.tcp + s.doff * 4 ≤ c.frame.length := by
  by_contra hcut
  have hnone := (rewriteHeaders_short h6 h15 hfixed (by omega)).1
  rw [bind_of_none hnone] at h
  exact absurd h nofun

section Replies

variable {cookie : BitVec 32 × BitVec 16} {c : Ctx} {v : XdpAction}

theorem replyV4_isSynAck (hmss : cookie.2 = mssAt (decodeMssIndex cookie.1))
    (hfixed : v4.tcp + 20 ≤ c.frame.length)
    (h6 : 6 ≤ doffAt v4 c.frame)
    (h : (replyV4 (slice v4.src v4.addrLen c.frame)
      (slice v4.dst v4.addrLen c.frame) (synAt v4 cookie c.frame) c).1
      = some v) :
    let g := (replyV4 (slice v4.src v4.addrLen c.frame)
      (slice v4.dst v4.addrLen c.frame) (synAt v4 cookie c.frame) c).2.frame
    IsSynAck v4 cookie.1 pseudoV4 c.frame g
      ∧ verifies (slice offIp 20 g) := by
  have h15 := doffAt_lt v4 c.frame
  have hwhole : v4.tcp + doffAt v4 c.frame * 4 ≤ c.frame.length :=
    inside_of_reply (s := synAt v4 cookie c.frame) h6 h15 hfixed h
  obtain ⟨hret, hfit⟩ := replyV4_fits (s := synAt v4 cookie c.frame) h6 h15
    hwhole
  have hback := readBack_reply (s := synAt v4 cookie c.frame) h6 hfixed hfit
    (Or.inr (by decide))
  rw [hret]
  refine ⟨isSynAck_of_readBack hmss isPseudo_v4 rfl (by decide) h6 hwhole
    (length_puts hfit) hback, verifies_replyV4 hfixed ?_⟩
  exact fun w hw => hfit w (List.mem_append_left _
    (List.mem_append_left _ hw))

theorem replyV6_isSynAck (hmss : cookie.2 = mssAt (decodeMssIndex cookie.1))
    (hfixed : v6.tcp + 20 ≤ c.frame.length)
    (h6 : 6 ≤ doffAt v6 c.frame)
    (h : (replyV6 (synAt v6 cookie c.frame) c).1 = some v) :
    IsSynAck v6 cookie.1 pseudoV6 c.frame
      (replyV6 (synAt v6 cookie c.frame) c).2.frame := by
  have h15 := doffAt_lt v6 c.frame
  have hwhole : v6.tcp + doffAt v6 c.frame * 4 ≤ c.frame.length :=
    inside_of_reply (s := synAt v6 cookie c.frame) h6 h15 hfixed h
  obtain ⟨hret, hfit⟩ := replyV6_fits (s := synAt v6 cookie c.frame) h6 h15
    hwhole
  have hback := readBack_reply (s := synAt v6 cookie c.frame) h6 hfixed hfit
    (Or.inl rfl)
  rw [hret]
  exact isSynAck_of_readBack hmss isPseudo_v6 rfl (by decide) h6 hwhole
    (length_puts hfit) hback

end Replies

/-- The IPv4 path turns a SYN it answers into the SYN-ACK with the cookie
of its one reading of the clock. -/
theorem trySynackV4_isSynAck {env : Env} {c : Ctx} {v : XdpAction}
    (hv : (trySynackV4 env c).1 = some v) :
    ∃ key, c.maps.cookieKey = some key
      ∧ IsSynAck v4
          (clientCookie env v4 key (env.clock c.reads) c.frame).1
          pseudoV4 c.frame (trySynackV4 env c).2.frame
      ∧ verifies (slice offIp 20 (trySynackV4 env c).2.frame) := by
  obtain ⟨r, c', hr, hrun, hsome⟩ := returns_of_bind_some hv
  obtain ⟨hans, key, hkey, rfl, rfl⟩ := returns_gateV4.mp hr
  rw [trySynackV4, hrun]
  exact ⟨key, hkey, replyV4_isSynAck (c := c.charged env 1)
    (makeCookieRaw_mss _ _ _ _ _ _ _ _ _) hans.1.1.1 hans.1.2.2.1 hsome⟩

/-- The IPv6 path likewise, with the cookie of its second reading. -/
theorem trySynackV6_isSynAck {env : Env} {c : Ctx} {v : XdpAction}
    (hv : (trySynackV6 env c).1 = some v) :
    ∃ key, c.maps.cookieKey = some key
      ∧ IsSynAck v6
          (clientCookie env v6 key (env.clock (c.reads + 1)) c.frame).1
          pseudoV6 c.frame (trySynackV6 env c).2.frame := by
  obtain ⟨s, c', hr, hrun, hsome⟩ := returns_of_bind_some hv
  obtain ⟨hans, key, hkey, rfl, rfl⟩ := returns_gateV6.mp hr
  rw [trySynackV6, hrun]
  exact ⟨key, hkey, replyV6_isSynAck (c := c.charged env 2)
    (makeCookieRaw_mss _ _ _ _ _ _ _ _ _) hans.1.1.1 hans.1.2.2.1 hsome⟩

/-- Every SYN either path answers is answered with the SYN-ACK it should
be: the frame keeps its length, the sequence number is the cookie the core
computes for the connection, and the checksums verify. -/
theorem answered_is_synack (env : Env) (c : Ctx) :
    (∀ v, (trySynackV4 env c).1 = some v →
      ∃ key, c.maps.cookieKey = some key
        ∧ IsSynAck v4
            (clientCookie env v4 key (env.clock c.reads) c.frame).1
            pseudoV4 c.frame (trySynackV4 env c).2.frame
        ∧ verifies (slice offIp 20 (trySynackV4 env c).2.frame))
    ∧ (∀ v, (trySynackV6 env c).1 = some v →
      ∃ key, c.maps.cookieKey = some key
        ∧ IsSynAck v6
            (clientCookie env v6 key (env.clock (c.reads + 1)) c.frame).1
            pseudoV6 c.frame (trySynackV6 env c).2.frame) :=
  ⟨fun _ hv => trySynackV4_isSynAck hv, fun _ hv => trySynackV6_isSynAck hv⟩

/-- Two SYNs with an MSS of 1460 are answered. -/
theorem answered_is_synack_sample :
    (∃ key, sampleMaps.cookieKey = some key
        ∧ IsSynAck v4 (clientCookie sampleEnv v4 key 64000000000
            (sampleSynV4 [2, 4, 5, 0xB4]).frame).1 pseudoV4
          (sampleSynV4 [2, 4, 5, 0xB4]).frame
          (trySynackV4 sampleEnv (sampleSynV4 [2, 4, 5, 0xB4])).2.frame
        ∧ verifies (slice offIp 20
          (trySynackV4 sampleEnv (sampleSynV4 [2, 4, 5, 0xB4])).2.frame))
    ∧ (∃ key, sampleMaps.cookieKey = some key
        ∧ IsSynAck v6 (clientCookie sampleEnv v6 key 64000000000
            (sampleSynV6 [2, 4, 5, 0xB4]).frame).1 pseudoV6
          (sampleSynV6 [2, 4, 5, 0xB4]).frame
          (trySynackV6 sampleEnv
            (sampleSynV6 [2, 4, 5, 0xB4])).2.frame) :=
  ⟨(answered_is_synack sampleEnv (sampleSynV4 [2, 4, 5, 0xB4])).1 .tx
      (by decide +kernel),
    (answered_is_synack sampleEnv (sampleSynV6 [2, 4, 5, 0xB4])).2 .tx
      (by decide +kernel)⟩

end Blackwall.Xdp
