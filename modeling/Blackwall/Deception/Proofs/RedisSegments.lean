/-
A session does not depend on how its bytes are cut into reads.

Whatever the reads, the session is the loop over the whole stream
(`handle_whole`), as long as no command grows beyond the cap while it is
incomplete. That nothing panics on the way is seen read by read: the
buffer is short, so a length below 2^32 fits behind every position.
-/
import Blackwall.Deception.RedisSession

namespace Blackwall.Deception.Redis

open Base

-- ============================================================= the stream

/-- The stream in reads: none is empty and each fits the buffer. -/
structure Reads (stream : List Byte) (chunks : List (List Byte)) : Prop where
  flatten : chunks.flatten = stream
  sizes : ∀ c ∈ chunks, c ≠ [] ∧ c.length ≤ 1024

/-- A command may start here: the bytes from the start of the stream, or
from the end of a command on. -/
inductive Boundary (lossy : List Byte → List Char) (stream : List Byte) :
    List Byte → Prop
  | start : Boundary lossy stream stream
  | next {rest : List Byte} {verb : List Char} {n : Nat}
      (h : Boundary lossy stream rest)
      (hparse : parseOne .debug lossy rest = .ok (.command verb n)) :
      Boundary lossy stream (rest.drop n)

/-- The lengths of the stream's bulk strings are below 2^32. -/
def SmallFields (lossy : List Byte → List Char) (stream : List Byte) :
    Prop :=
  ∀ {rest k i cur afterLen blen}, Boundary lossy stream rest →
    Reached .debug rest (k + 1) i cur →
    lengthLine rest cur = .length afterLen blen → blen < 2 ^ 32

/-- Behind the last complete command there are never more bytes than the
cap. -/
def Contained (m : Build) (lossy : List Byte → List Char)
    (version : String) (stream : List Byte) : Prop :=
  ∀ seen s rest, seen <+: stream →
    (drain (redisFramer m lossy) (reactor version) .new seen).2
        = .inl (s, rest) →
      rest.length ≤ maxBytes

-- ======================================================= the whole stream

section Whole

variable {m : Build} {lossy : List Byte → List Char} {version : String}
  {s : Session} {total seen : List Byte}

/-- The end of a session whose stream ends here. -/
def finish : Session × List Byte ⊕ Closed → Closed
  | .inl (s, _) => .closed s .eof
  | .inr o => o

/-- The reads so far, then the others: the loop over all of it. -/
theorem handleFrom_whole {chunks : List (List Byte)} {n : Nat}
    (hseen : (drain (redisFramer m lossy) (reactor version) .new seen).2
      = .inl (s, total))
    (hcap : Contained m lossy version (seen ++ chunks.flatten)) :
    (handleFrom m lossy version n s total chunks).2
      = finish (drain (redisFramer m lossy) (reactor version) .new
          (seen ++ chunks.flatten)).2 := by
  induction chunks generalizing n s total seen with
  | nil =>
      rw [List.flatten_nil, List.append_nil, hseen]
      rfl
  | cons c chunks ih =>
      have hstep : (drain (redisFramer m lossy) (reactor version) .new
          (seen ++ c)).2
            = (drain (redisFramer m lossy) (reactor version) s
              (total ++ c)).2 := by
        rw [drain_append, resume, hseen]
      have hsplit : seen ++ (c :: chunks).flatten
          = seen ++ c ++ chunks.flatten := by simp
      rw [hsplit] at hcap ⊢
      rw [handleFrom]
      cases hd : (drain (redisFramer m lossy) (reactor version) s
          (total ++ c)).2 with
      | inr o =>
          rw [drain_append, resume, hstep, hd]
          rfl
      | inl st =>
          obtain ⟨s', total'⟩ := st
          have hshort : ¬ maxBytes < total'.length :=
            Nat.not_lt.mpr (hcap _ s' total' (List.prefix_append _ _)
              (hstep.trans hd))
          dsimp only
          rw [if_neg hshort]
          exact ih (hstep.trans hd) hcap

theorem handle_whole {stream : List Byte} {chunks : List (List Byte)}
    (hreads : Reads stream chunks)
    (hcap : Contained m lossy version stream) :
    (handle m lossy version chunks).2
      = finish (drain (redisFramer m lossy) (reactor version) .new
          stream).2 := by
  have hwhole := @handleFrom_whole m lossy version .new [] [] chunks 0 rfl
  rw [List.nil_append, hreads.flatten] at hwhole
  exact hwhole hcap

end Whole

-- =============================================================== no panic

section Safe

variable {m : Build} {lossy : List Byte → List Char} {version : String}
  {stream buf ext : List Byte} {s : Session}

/-- A short buffer at the front of a command. -/
theorem Boundary.fits (hfields : SmallFields lossy stream)
    (hb : Boundary lossy stream (buf ++ ext))
    (hlen : buf.length ≤ 2 ^ 32) : ¬ Overflows buf := by
  rintro ⟨k, i, cur, a, b, hreached, hline, hle⟩
  have hmore : lengthLine (buf ++ ext) cur = .length a b := by
    rw [lengthLine_append (by rw [hline]; exact nofun), hline]
  have hsmall := hfields hb (hreached.append ext) hmore
  have hbound := (lengthLine_bounds hline).2
  omega

/-- A command taken off a short buffer leaves the rest at a boundary. -/
theorem Boundary.advance (hfields : SmallFields lossy stream)
    (hb : Boundary lossy stream (buf ++ ext))
    (hlen : buf.length ≤ 2 ^ 32) {verb : List Char} {rest : List Byte}
    (hnext : nextCommand m lossy buf = .whole verb rest) :
    Boundary lossy stream (rest ++ ext) := by
  have hno := hb.fits hfields hlen
  obtain ⟨n, hparse, rfl⟩ := nextCommand_whole hnext
  obtain ⟨-, -, hle⟩ := parseOne_consumes hparse
  have hdebug : parseOne .debug lossy buf = .ok (.command verb n) := by
    rw [← hparse]
    exact (parseOne_same hno).symm
  rw [← List.drop_append_of_le_length hle]
  refine .next hb (Eq.trans (parseOne_append ?_ ext) hdebug)
  rw [hdebug]
  exact nofun

/-- The loop stops for `QUIT` or for what the parser refuses. -/
theorem halts_inv {o : Closed}
    (h : Halts (redisFramer m lossy) (reactor version) s buf o) :
    (∃ s', o = .closed s' .quit) ∨ o = .closed s .invalid
      ∨ ∃ p, nextCommand m lossy buf = .bad (.panic p) ∧ o = .panicked p := by
  obtain ⟨e, hnext, rfl⟩ | ⟨verb, rest, -, hr⟩ := h
  · cases e with
    | invalid => exact .inr (.inl rfl)
    | panic p => exact .inr (.inr ⟨p, hnext, rfl⟩)
  · unfold reactor at hr
    dsimp only at hr
    split at hr
    · cases hr
      exact .inl ⟨_, rfl⟩
    · cases hr

/-- The loop over a short buffer does not panic, and stops at a boundary. -/
theorem drain_safe (m : Build) (version : String) (s : Session)
    (hfields : SmallFields lossy stream)
    (hb : Boundary lossy stream (buf ++ ext))
    (hlen : buf.length ≤ 2 ^ 32) :
    (∀ p, (drain (redisFramer m lossy) (reactor version) s buf).2
        ≠ .inr (.panicked p))
      ∧ ∀ s' rest,
        (drain (redisFramer m lossy) (reactor version) s buf).2
          = .inl (s', rest) → Boundary lossy stream (rest ++ ext) := by
  have hturn : ∀ s buf verb rest s',
      (Boundary lossy stream (buf ++ ext) ∧ buf.length ≤ 2 ^ 32) →
      (redisFramer m lossy).next buf = .whole verb rest →
      (reactor version).react s verb = .inl s' →
      Boundary lossy stream (rest ++ ext) ∧ rest.length ≤ 2 ^ 32 := by
    intro s buf verb rest s' h hnext _
    have hshort := (redisFramer m lossy).shorter hnext
    exact ⟨h.1.advance hfields h.2 hnext, by omega⟩
  refine ⟨fun p h => ?_, fun s' rest h =>
    (drain_inl hturn ⟨hb, hlen⟩ h).1.1⟩
  obtain ⟨s', buf', ⟨hb', hlen'⟩, hhalts⟩ := drain_inr hturn ⟨hb, hlen⟩ h
  obtain ⟨_, ho⟩ | ho | ⟨p', hpanic, -⟩ := halts_inv hhalts
  · cases ho
  · cases ho
  · obtain ⟨r, hr⟩ := parseOne_returns (hb'.fits hfields hlen')
    rw [nextCommand_panic hpanic] at hr
    cases hr

theorem handleFrom_safe (hfields : SmallFields lossy stream)
    {chunks : List (List Byte)} (hsizes : ∀ c ∈ chunks, c.length ≤ 1024)
    {total : List Byte} (htotal : total.length ≤ maxBytes)
    (hb : Boundary lossy stream (total ++ chunks.flatten)) {n : Nat}
    (p : Panic) :
    (handleFrom m lossy version n s total chunks).2 ≠ .panicked p := by
  induction chunks generalizing n s total with
  | nil => exact nofun
  | cons c chunks ih =>
      rw [List.forall_mem_cons] at hsizes
      have hsplit : total ++ (c :: chunks).flatten
          = total ++ c ++ chunks.flatten := by simp
      have hlen : (total ++ c).length ≤ 2 ^ 32 := by
        rw [List.length_append]
        unfold maxBytes at htotal
        omega
      rw [hsplit] at hb
      obtain ⟨hsafe, hstop⟩ := drain_safe m version s hfields hb hlen
      rw [handleFrom]
      cases hd : (drain (redisFramer m lossy) (reactor version) s
          (total ++ c)).2 with
      | inr o =>
          rw [hd] at hsafe
          exact fun h => hsafe p (congrArg Sum.inr h)
      | inl st =>
          obtain ⟨s', rest⟩ := st
          dsimp only
          split
          · exact nofun
          · next hshort =>
            exact ih hsizes.2 (Nat.not_lt.mp hshort) (hstop s' rest hd)

end Safe

/-- Two ways of cutting a stream into reads give one session: the client
gets the same bytes, the note is the same, and the session ends after the
same command and in the same way, not at the cap. -/
theorem segmentation_irrelevant (m : Build) {lossy : List Byte → List Char}
    {version : String} {stream : List Byte} {chunks chunks' : List (List Byte)}
    (hreads : Reads stream chunks) (hreads' : Reads stream chunks')
    (hfields : SmallFields lossy stream)
    (hcap : Contained m lossy version stream) :
    ∃ s e n n', handle m lossy version chunks = (n, .closed s e)
      ∧ handle m lossy version chunks' = (n', .closed s e)
      ∧ e ≠ .capped := by
  have hsame : (handle m lossy version chunks).2
      = (handle m lossy version chunks').2 := by
    rw [handle_whole hreads hcap, handle_whole hreads' hcap]
  have hstart : Boundary lossy stream ([] ++ chunks.flatten) := by
    rw [List.nil_append, hreads.flatten]
    exact .start
  have hsafe : ∀ p, (handle m lossy version chunks).2 ≠ .panicked p :=
    handleFrom_safe hfields (fun c hc => (hreads.sizes c hc).2)
      (Nat.zero_le _) hstart
  cases hclosed : (handle m lossy version chunks).2 with
  | panicked p => exact absurd hclosed (hsafe p)
  | closed s e =>
      refine ⟨s, e, _, _, Prod.ext rfl hclosed,
        Prod.ext rfl (hsame ▸ hclosed), ?_⟩
      rw [handle_whole hreads hcap] at hclosed
      cases hd : (drain (redisFramer m lossy) (reactor version) .new
          stream).2 with
      | inl st =>
          rw [hd] at hclosed
          cases hclosed
          exact nofun
      | inr o =>
          rw [hd] at hclosed
          obtain rfl : o = .closed s e := hclosed
          rintro rfl
          obtain ⟨s', buf, -, hhalts⟩ :=
            drain_inr (P := fun _ _ => True)
              (fun _ _ _ _ _ _ _ _ => trivial) trivial hd
          obtain ⟨_, ho⟩ | ho | ⟨p, -, ho⟩ := halts_inv hhalts <;> cases ho

theorem contained_of_short {m : Build} {lossy : List Byte → List Char}
    {version : String} {stream : List Byte}
    (h : stream.length ≤ maxBytes) : Contained m lossy version stream :=
  fun _ _ _ hseen hd => (length_drain_le hd).trans (hseen.length_le.trans h)

/-- One command as a client library sends it. -/
def pingFrame : List Byte := bytes "*1\r\n$4\r\nPING\r\n"

/-- The text of ASCII bytes. -/
def asciiText (bs : List Byte) : List Char :=
  bs.map fun b => Char.ofNat b.toNat

theorem smallFields_pingFrame : SmallFields asciiText pingFrame := by
  have hboundary : ∀ {rest}, Boundary asciiText pingFrame rest →
      rest = pingFrame ∨ rest = [] := by
    intro rest h
    induction h with
    | start => exact Or.inl rfl
    | next _ hparse ih =>
        rcases ih with rfl | rfl
        · have hping : parseOne .debug asciiText pingFrame
              = .ok (.command "PING".toList 14) := by
            decide +kernel
          rw [hping] at hparse
          cases hparse
          exact Or.inr (by decide +kernel)
        · exact Or.inr List.drop_nil
  intro rest k i cur afterLen blen hb hreached hline
  rcases hboundary hb with rfl | rfl
  · have hcount : header pingFrame = .ok (.count 1 4) := by decide +kernel
    have hlen : lengthLine pingFrame 4 = .length 8 4 := by decide +kernel
    have htotal := hreached.count hcount
    cases hreached with
    | start _ h =>
        rw [hcount] at h
        cases h
        rw [hlen] at hline
        cases hline
        decide
    | next => omega
  · have hbounds := lengthLine_bounds hline
    rw [List.length_nil] at hbounds
    omega

theorem segmentation_irrelevant_ping :
    ∃ s e n n',
      handle .release asciiText "7.2.4" [pingFrame] = (n, .closed s e)
        ∧ handle .release asciiText "7.2.4"
          [pingFrame.take 3, pingFrame.drop 3] = (n', .closed s e)
        ∧ e ≠ .capped :=
  segmentation_irrelevant .release
    ⟨by decide +kernel, by decide +kernel⟩
    ⟨by decide +kernel, by decide +kernel⟩ smallFields_pingFrame
    (contained_of_short (by decide +kernel))

end Blackwall.Deception.Redis
