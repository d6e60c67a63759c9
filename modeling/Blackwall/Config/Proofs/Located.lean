/-
Where an error is, and what does not depend on it.

Every function of the parser is told the line it works on, words and
number. `Located` says that the number goes into its errors and nowhere
else, and that it does not panic but for a duration on that line that
overflows in a debug build. There is one lemma a function, put together
from the rules of `Placed`. Where a duration is read it has to be known
that it came from the line (`PartOf`), also through the map the arguments
of a directive are collected in (`Drawn`).

Two results come from this one family. An error names a line of the
configuration (`parse_blames`), and a configuration means the same however
its lines are numbered (`parse_words`).
-/
import Blackwall.Config.Proofs.Grammar

namespace Blackwall.Config

open Base
open Core (Tenant)

-- ================================================================= errors

/-- The error, moved to another line. -/
def ConfigError.at (n : Nat) : ConfigError → ConfigError
  | .unexpectedToken _ found expected => .unexpectedToken n found expected
  | .unknownDirective _ word => .unknownDirective n word
  | .badValue _ what value => .badValue n what value
  | .resolve e => .resolve e

def Halt.at (n : Nat) : Halt → Halt
  | .config e => .config (e.at n)
  | .panic p => .panic p

/-- The text is the end of one of the words, or all of it. -/
def PartOf (ws : List Text) (t : Text) : Prop := ∃ w ∈ ws, t <:+ w

/-- A duration in hours or minutes whose seconds do not fit 64 bits. -/
def Overlong (t : Text) : Prop :=
  ∃ digits n, uint 64 digits = some n
    ∧ (t = digits ++ ['h'] ∧ 2 ^ 64 ≤ n.toNat * 3600
      ∨ t = digits ++ ['m'] ∧ 2 ^ 64 ≤ n.toNat * 60)

/-- How a step of the parser may end without a value: in an error that
names a line, or in the one panic there is. -/
def Halt.Tame (m : Build) (ws : List Text) : Halt → Prop
  | .config e => e.line.isSome = true
  | .panic p => m = .debug ∧ p = .overflow ∧ ∃ t, PartOf ws t ∧ Overlong t

/-- The number of the line is in the errors only. -/
abbrev Located {α : Type} (m : Build) (ws : List Text)
    (f : Nat → Parse α) : Prop :=
  Placed Halt.at (Halt.Tame m ws) f

theorem PartOf.self {ws : List Text} {w : Text} (h : w ∈ ws) :
    PartOf ws w := ⟨w, h, List.suffix_refl w⟩

section Values

variable {m : Build} {std : FromStr} {ws : List Text}

theorem bad_located {α : Type} {what : String} {value : Text} :
    Located (α := α) m ws fun n => .error (bad ⟨n, ws⟩ what value) :=
  .error (.config (.badValue 0 what value)) (fun _ => rfl) rfl

theorem unexpected_located {α : Type} {expected : String} :
    Located (α := α) m ws fun n => .error (unexpected ⟨n, ws⟩ expected) :=
  .error (.config (.unexpectedToken 0 ([' '].intercalate ws) expected))
    (fun _ => rfl) rfl

theorem orBad_located {α : Type} {what : String} {value : Text}
    {x : Option α} : Located m ws fun n => orBad ⟨n, ws⟩ what value x := by
  cases x with
  | none => exact bad_located
  | some a => exact .ok a

theorem ensure_located {P : Prop} [Decidable P] {what : String}
    {value : Text} :
    Located m ws fun n => ensure P (bad ⟨n, ws⟩ what value) :=
  .ite (.ok ()) bad_located

theorem ensure_unexpected_located {P : Prop} [Decidable P]
    {expected : String} :
    Located m ws fun n => ensure P (unexpected ⟨n, ws⟩ expected) :=
  .ite (.ok ()) unexpected_located

/-- The unit of a duration. -/
theorem unit_some {tok digits : Text} {mult : Nat}
    (h : ((stripSuffix ['h'] tok).map (·, 3600)).or
      (((stripSuffix ['m'] tok).map (·, 60)).or
        ((stripSuffix ['s'] tok).map (·, 1))) = some (digits, mult)) :
    tok = digits ++ ['h'] ∧ mult = 3600 ∨ tok = digits ++ ['m'] ∧ mult = 60
      ∨ mult = 1 := by
  rcases Option.or_eq_some_iff.mp h with h | ⟨-, h⟩
  · obtain ⟨d, hd, heq⟩ := Option.map_eq_some_iff.mp h
    cases heq
    exact .inl ⟨stripSuffix_some hd, rfl⟩
  rcases Option.or_eq_some_iff.mp h with h | ⟨-, h⟩
  · obtain ⟨d, hd, heq⟩ := Option.map_eq_some_iff.mp h
    cases heq
    exact .inr (.inl ⟨stripSuffix_some hd, rfl⟩)
  · obtain ⟨d, -, heq⟩ := Option.map_eq_some_iff.mp h
    cases heq
    exact .inr (.inr rfl)

/-- The product that does not fit is that of an overlong duration. -/
theorem overlong_of {tok digits : Text} {mult : Nat} {n : BitVec 64}
    (hunit : ((stripSuffix ['h'] tok).map (·, 3600)).or
      (((stripSuffix ['m'] tok).map (·, 60)).or
        ((stripSuffix ['s'] tok).map (·, 1))) = some (digits, mult))
    (hn : uint 64 digits = some n) (hbig : ¬ n.toNat * mult < 2 ^ 64) :
    Overlong tok := by
  rw [Nat.not_lt] at hbig
  rcases unit_some hunit with ⟨ht, rfl⟩ | ⟨ht, rfl⟩ | rfl
  · exact ⟨digits, n, hn, .inl ⟨ht, hbig⟩⟩
  · exact ⟨digits, n, hn, .inr ⟨ht, hbig⟩⟩
  · have := n.isLt
    omega

theorem parseDuration_located {tok : Text} (h : PartOf ws tok) :
    Located m ws fun n => parseDuration m ⟨n, ws⟩ tok := by
  refine .bind_yields orBad_located (fun _ _ => orBad_ok.mp)
    fun unit hunit => .bind_yields orBad_located (fun _ _ => orBad_ok.mp)
    fun n hn => ?_
  unfold Build.mul
  split
  · exact .ok _
  · next hbig =>
    cases m with
    | debug =>
        exact .error (.panic .overflow) (fun _ => rfl)
          ⟨rfl, rfl, tok, h, overlong_of hunit hn hbig⟩
    | release => exact .ok _

theorem parsePorts_located {what : String} {v : Text} :
    Located m ws fun n => parsePorts ⟨n, ws⟩ what v := by
  refine .mapM (fun tok => ?_) _
  exact .bind orBad_located fun n => .bind ensure_located fun _ => .ok n

-- ========================================================== keyed arguments

theorem readKeys_located {name : String} {keys : List String}
    {kv : Finmap fun _ : Text => Text} (toks : List Text) :
    Located m ws fun n => readKeys ⟨n, ws⟩ name keys kv toks := by
  induction toks generalizing kv with
  | nil => exact .ok kv
  | cons tok toks ih =>
      exact .bind orBad_located fun kv => .bind ensure_located fun _ =>
        .bind ensure_located fun _ => ih

/-- The values of the map are parts of the words. -/
def Drawn (ws : List Text) (kv : Finmap fun _ : Text => Text) : Prop :=
  ∀ k v, kv.lookup k = some v → PartOf ws v

theorem readKeys_drawn {line : Line} {name : String} {keys : List String}
    {kv : Finmap fun _ : Text => Text} (toks : List Text)
    (htoks : ∀ tok ∈ toks, tok ∈ ws) (hkv : Drawn ws kv) :
    Yields (Drawn ws) (readKeys line name keys kv toks) := by
  induction toks generalizing kv with
  | nil => exact .ok hkv
  | cons tok toks ih =>
      refine .bind (fun p hp => orBad_ok.mp hp) fun p hp =>
        .bind .any fun _ _ => .bind .any fun _ _ =>
        ih (fun t ht => htoks t (.tail _ ht)) fun k v hl => ?_
      by_cases hk : k = p.1
      · rw [hk, Finmap.lookup_insert] at hl
        cases hl
        refine ⟨tok, htoks tok List.mem_cons_self, ?_⟩
        rw [splitOnce_some hp]
        exact (List.suffix_cons _ _).trans (List.suffix_append _ _)
      · rw [Finmap.lookup_insert_of_ne _ hk] at hl
        exact hkv k v hl

section Keyed

variable {name k : String} {kv : Finmap fun _ : Text => Text} {α : Type}
  {f : Text → Option α}

theorem get_located :
    Located m ws fun n => Keyed.get ⟨⟨n, ws⟩, name, kv⟩ k := by
  unfold Keyed.get Keyed.get?
  dsimp only
  exact orBad_located

theorem get_drawn (hkv : Drawn ws kv) (line : Line) :
    Yields (PartOf ws) (Keyed.get ⟨line, name, kv⟩ k) := fun v hv =>
  hkv _ v (orBad_ok.mp hv)

theorem read_located :
    Located m ws fun n => Keyed.read ⟨⟨n, ws⟩, name, kv⟩ k f :=
  .bind get_located fun _ => orBad_located

theorem read?_located {what : String} :
    Located m ws fun n => Keyed.read? ⟨⟨n, ws⟩, name, kv⟩ k what f := by
  unfold Keyed.read? Keyed.get?
  dsimp only
  cases kv.lookup k.toList with
  | none => exact .ok none
  | some v => exact .bind orBad_located fun x => .ok (some x)

theorem duration?_located (hkv : Drawn ws kv) :
    Located m ws fun n => Keyed.duration? m ⟨⟨n, ws⟩, name, kv⟩ k := by
  unfold Keyed.duration? Keyed.get?
  dsimp only
  cases hl : kv.lookup k.toList with
  | none => exact .ok none
  | some v =>
      exact .bind (parseDuration_located (hkv _ v hl)) fun x => .ok (some x)

theorem parseDnsTtl_located (hkv : Drawn ws kv) :
    Located m ws fun n => parseDnsTtl m ⟨⟨n, ws⟩, name, kv⟩ := by
  unfold parseDnsTtl Keyed.get?
  dsimp only
  cases hl : kv.lookup "ttl".toList with
  | none => exact .ok _
  | some v =>
      exact .bind (parseDuration_located (hkv _ v hl)) fun _ =>
        .bind ensure_located fun _ => .ok _

theorem parseDnsFlux_located (hkv : Drawn ws kv) :
    Located m ws fun n => parseDnsFlux m std ⟨⟨n, ws⟩, name, kv⟩ :=
  .bind read_located fun _ => .bind read_located fun _ =>
  .bind read_located fun _ => .bind read_located fun _ =>
  .bind ensure_located fun _ => .bind (duration?_located hkv) fun _ =>
  .bind (parseDnsTtl_located hkv) fun _ => .bind get_located fun _ =>
  .bind get_located fun _ => .bind get_located fun _ => .ok _

theorem parseCommunities_located :
    Located m ws fun n => parseCommunities ⟨⟨n, ws⟩, name, kv⟩ := by
  unfold parseCommunities Keyed.get?
  dsimp only
  cases kv.lookup "community".toList with
  | none => exact .ok _
  | some spec =>
      refine .mapM (fun pair => ?_) _
      exact .bind orBad_located fun _ => .bind orBad_located fun _ =>
        .bind orBad_located fun _ => .ok _

theorem parseRouterId_located {localAddr : Option IpAddr} :
    Located m ws fun n =>
      parseRouterId std ⟨⟨n, ws⟩, name, kv⟩ localAddr := by
  unfold parseRouterId Keyed.get?
  dsimp only
  cases kv.lookup "router-id".toList with
  | some v => exact orBad_located
  | none =>
      rcases localAddr with _ | v4 | v6
      · exact bad_located
      · exact .ok _
      · exact bad_located

theorem parseRtbh_located (hkv : Drawn ws kv) :
    Located m ws fun n => parseRtbh m std ⟨⟨n, ws⟩, name, kv⟩ := by
  refine .bind read_located fun _ => .bind read_located fun _ =>
    .bind read_located fun _ => .bind ensure_located fun _ =>
    .bind read?_located fun _ => .bind parseRouterId_located fun _ =>
    .bind ensure_located fun _ => .bind read?_located fun _ =>
    .bind read?_located fun _ => .bind ensure_located fun _ =>
    .bind read_located fun _ =>
    .bind_yields get_located (fun _ => get_drawn hkv _) fun _ ht =>
    .bind (parseDuration_located ht) fun _ =>
    .bind (duration?_located hkv) fun _ => .bind ensure_located fun _ =>
    .bind parseCommunities_located fun _ => .bind ?_ fun _ =>
    .bind read?_located fun _ => ?_
  · exact .bind read?_located fun _ => .bind ensure_located fun _ => .ok _
  · unfold Keyed.get?
    dsimp only
    exact .ok _

theorem parseFlowspec_located (hkv : Drawn ws kv) :
    Located m ws fun n => parseFlowspec m std ⟨⟨n, ws⟩, name, kv⟩ :=
  .bind read_located fun _ => .bind read_located fun _ =>
  .bind read_located fun _ => .bind read_located fun _ =>
  .bind_yields get_located (fun _ => get_drawn hkv _) fun _ ht =>
  .bind (parseDuration_located ht) fun _ =>
  .bind (duration?_located hkv) fun _ => .bind ensure_located fun _ =>
  .bind ensure_located fun _ => .bind ensure_located fun _ =>
  .bind ensure_located fun _ => .ok _

end Keyed

-- ============================================================= directives

theorem parseBannerFlux_located {args : List Text}
    (hargs : ∀ tok ∈ args, tok ∈ ws) :
    Located m ws fun n => parseBannerFlux m ⟨n, ws⟩ args := by
  rcases args with _ | ⟨dir, _ | ⟨tok, args⟩⟩
  · exact bad_located
  · exact .ok _
  · have htok : tok ∈ ws := hargs tok (.tail _ List.mem_cons_self)
    exact .bind (parseDuration_located (.self htok)) fun _ => .ok _

theorem parseMetrics_located {tok : Text} :
    Located m ws fun n => parseMetrics std ⟨n, ws⟩ tok :=
  .bind orBad_located fun _ => .bind ensure_located fun _ => orBad_located

theorem parseApi_located {args : List Text} :
    Located m ws fun n => parseApi std ⟨n, ws⟩ args := by
  refine .bind (.foldlM (fun acc tok => ?_) args _) fun _ =>
    .bind orBad_located fun _ => .bind orBad_located fun _ => .ok _
  exact .bind orBad_located fun _ =>
    .ite (.bind orBad_located fun _ => .ok _) (.ite (.ok _) bad_located)

theorem parsePop_located {args : List Text} :
    Located m ws fun n => parsePop std ⟨n, ws⟩ args := by
  cases args with
  | nil => exact bad_located
  | cons name args =>
      refine .bind (.foldlM (fun acc tok => ?_) args _) fun _ =>
        .bind orBad_located fun _ => .bind orBad_located fun _ =>
        .bind ensure_located fun _ => .ok _
      exact .bind orBad_located fun _ =>
        .ite (.bind orBad_located fun _ => .ok _)
          (.ite (.bind orBad_located fun _ => .ok _) bad_located)

theorem parseEngine_located {tok : Text} :
    Located m ws fun n => parseEngine ⟨n, ws⟩ tok := by
  have hnumber : ∀ {w : Nat} {what : String} {v value : Text}
      {P : BitVec w → Prop} [∀ n, Decidable (P n)]
      {knob : BitVec w → EngineKnob},
      Located m ws fun n => do
        let a ← orBad ⟨n, ws⟩ what v (uint w v)
        ensure (P a) (bad ⟨n, ws⟩ what value)
        return knob a := fun {_ _ _ _ _ _ _} =>
    .bind orBad_located fun _ => .bind ensure_located fun _ => .ok _
  exact .bind orBad_located fun _ => .ite hnumber (.ite hnumber
    (.ite hnumber (.ite (.bind orBad_located fun _ => .ok _) bad_located)))

theorem parseFlowtable_located {args : List Text} :
    Located m ws fun n => parseFlowtable ⟨n, ws⟩ args := by
  refine .bind (.mapM (fun tok => ?_) args) fun _ =>
    .bind ensure_located fun _ => .ok _
  exact .bind orBad_located fun _ => .bind ensure_located fun _ => .ok _

theorem xdpArg_located {cfg : XdpConfig} {tok : Text} :
    Located m ws fun n => xdpArg ⟨n, ws⟩ cfg tok := by
  refine .bind orBad_located fun _ => .ite (.ok _) (.ite ?_
    (.ite ?_ (.ite ?_ (.ite ?_ (.ite (.ok _) (.ite ?_ bad_located))))))
  · exact .ite (.ok _) (.ite (.ok _) (.ite (.ok _) bad_located))
  · exact .bind orBad_located fun _ => .bind ensure_located fun _ => .ok _
  · exact .bind parsePorts_located fun _ => .ok _
  · exact .bind parsePorts_located fun _ => .ok _
  · exact .bind orBad_located fun _ => .bind ensure_located fun _ => .ok _

theorem parseStatelessTcp_located {tok : Text} :
    Located m ws fun n => parseStatelessTcp ⟨n, ws⟩ tok :=
  .bind orBad_located fun _ => .bind ensure_located fun _ =>
    parsePorts_located

theorem shapeOptions_located
    {acc : Option ShapeBandwidth × Option (BitVec 32)} (toks : List Text) :
    Located m ws fun n => shapeOptions ⟨n, ws⟩ acc toks := by
  -- the loop takes two words a turn
  induction h : toks.length using Nat.strong_induction_on
    generalizing acc toks with
  | _ len ih =>
      rcases toks with _ | ⟨word, _ | ⟨token, toks⟩⟩
      · exact .ok acc
      · exact .ite unexpected_located (.ite unexpected_located
          (.error (.config (.unexpectedToken 0 word "up | rtt"))
            (fun _ => rfl) rfl))
      · have hlen : toks.length < len := by
          rw [← h, List.length_cons, List.length_cons]
          omega
        have hrest : ∀ {acc}, Located m ws fun n =>
            shapeOptions ⟨n, ws⟩ acc toks := fun {_} => ih _ hlen toks rfl
        exact .ite (.ite hrest (.bind orBad_located fun _ => hrest))
          (.ite (.bind orBad_located fun _ => hrest)
            (.error (.config (.unexpectedToken 0 word "up | rtt"))
              (fun _ => rfl) rfl))

theorem parseShape_located {args : List Text} :
    Located m ws fun n => parseShape ⟨n, ws⟩ args := by
  rcases args with _ | ⟨iface, _ | ⟨mode, rest⟩⟩
  · exact unexpected_located
  · exact unexpected_located
  · refine .bind (.ite (.ok _) (.ite ?_ bad_located)) fun _ =>
      .bind (shapeOptions_located _) fun _ => .ok _
    cases rest with
    | nil => exact unexpected_located
    | cons token rest => exact .bind orBad_located fun _ => .ok _

theorem parseTarget_located {raw : Text} :
    Located m ws fun n => parseTarget std ⟨n, ws⟩ raw := by
  refine .ite (.ok _) ?_
  cases stripPrefix "incus:".toList raw with
  | some name => exact .ok _
  | none =>
      dsimp only
      cases stripPrefix "nat:".toList raw with
      | some sockaddr => exact .bind orBad_located fun _ => .ok _
      | none => exact bad_located

theorem tenantLine_located {word : Text} {args : List Text} {t : Tenant} :
    Located m ws fun n => tenantLine std ⟨n, ws⟩ word args t := by
  refine .ite ?_ (.ite (.bind ?_ fun _ => .ok _)
    (.error (.config (.unknownDirective 0 word)) (fun _ => rfl) rfl))
  · cases args with
    | nil => exact unexpected_located
    | cons tok args =>
        exact .bind (.mapM (fun _ => orBad_located) _) fun _ => .ok _
  · rcases args with _ | ⟨proto, _ | ⟨port, _ | ⟨target, _ | ⟨w, args⟩⟩⟩⟩
    · exact unexpected_located
    · exact unexpected_located
    · exact unexpected_located
    · exact .bind (.ite (.ok _) (.ite (.ok _) bad_located)) fun _ =>
        .bind orBad_located fun _ =>
        .bind parseTarget_located fun _ => .ok _
    · exact unexpected_located

theorem located_word {α : Type} (args : List Text) (expected : String)
    {g : Nat → Text → Parse α} (h : ∀ w, Located m ws fun n => g n w) :
    Located m ws fun n =>
      match args with
      | [w] => g n w
      | _ => .error (unexpected ⟨n, ws⟩ expected) := by
  rcases args with _ | ⟨w, _ | ⟨w', args⟩⟩
  · exact unexpected_located
  · exact h w
  · exact unexpected_located

/-- All of them but a tenant, which goes on over lines of its own. -/
theorem readDirective_located {rest : List Line} {args : List Text}
    {value : Text} {k : Directive} (hk : k ≠ .tenant)
    (hargs : ∀ tok ∈ args, tok ∈ ws) (hvalue : PartOf ws value) :
    Located m ws fun n => readDirective m std ⟨n, ws⟩ rest args value k := by
  have hempty : Drawn ws ∅ := fun k v hl => by
    rw [Finmap.lookup_empty] at hl
    cases hl
  cases k with
  | interface =>
      rcases args with _ | ⟨name, _ | ⟨iface, _ | ⟨w, args⟩⟩⟩
      · exact unexpected_located
      · exact unexpected_located
      · exact .ok _
      · exact unexpected_located
  | family =>
      exact located_word args _ fun _ => .bind orBad_located fun _ => .ok _
  | protect =>
      exact located_word args _ fun _ => .bind orBad_located fun _ => .ok _
  | default =>
      exact located_word args _ fun _ =>
        .ite (.ok _) (.ite (.ok _) bad_located)
  | tenant => exact absurd rfl hk
  | shape => exact .bind parseShape_located fun _ => .ok _
  | bannerFlux => exact .bind (parseBannerFlux_located hargs) fun _ => .ok _
  | dnsFlux =>
      exact .bind_yields (readKeys_located args)
        (fun _ => readKeys_drawn args hargs hempty) fun _ hkv =>
        .bind (parseDnsFlux_located hkv) fun _ => .ok _
  | rtbh =>
      exact .bind_yields (readKeys_located args)
        (fun _ => readKeys_drawn args hargs hempty) fun _ hkv =>
        .bind (parseRtbh_located hkv) fun _ => .ok _
  | flowspec =>
      exact .bind_yields (readKeys_located args)
        (fun _ => readKeys_drawn args hargs hempty) fun _ hkv =>
        .bind (parseFlowspec_located hkv) fun _ => .ok _
  | metrics =>
      exact .bind (.mapM (fun _ => parseMetrics_located) _) fun _ => .ok _
  | api => exact .bind parseApi_located fun _ => .ok _
  | pop => exact .bind parsePop_located fun _ => .ok _
  | engine =>
      exact .bind (.mapM (fun _ => parseEngine_located) _) fun _ => .ok _
  | flowtable => exact .bind parseFlowtable_located fun _ => .ok _
  | xdp =>
      exact .bind (.foldlM (fun _ _ => xdpArg_located) args _)
        fun _ => .ok _
  | statelessTcp =>
      exact .bind (.mapM (fun _ => parseStatelessTcp_located) _)
        fun _ => .ok _
  | shadow => exact .bind ensure_located fun _ => .ok _
  | instanceName =>
      exact .bind ensure_unexpected_located fun _ =>
        .bind ensure_located fun _ => .ok _
  | rpkiValidator =>
      exact .bind ensure_unexpected_located fun _ =>
        .bind ensure_located fun _ => .ok _
  | rpkiCheckInterval =>
      exact .bind ensure_unexpected_located fun _ =>
        .bind (parseDuration_located hvalue) fun _ => .ok _

/-- What a word sets stands at its end. -/
theorem ofWord_suffix {word value : Text} {k : Directive}
    (h : Directive.ofWord word = some (k, value)) : value <:+ word := by
  have hstrip : ∀ {p : Text} {k' : Directive},
      (stripPrefix p word).map (k', ·) = some (k, value) →
        value <:+ word := by
    intro p k' hmap
    obtain ⟨v, hv, heq⟩ := Option.map_eq_some_iff.mp hmap
    cases heq
    rw [stripPrefix_some hv]
    exact List.suffix_append _ _
  unfold Directive.ofWord at h
  split at h
  · cases h
    exact List.nil_suffix
  · rcases Option.or_eq_some_iff.mp h with h | ⟨-, h⟩
    · exact hstrip h
    rcases Option.or_eq_some_iff.mp h with h | ⟨-, h⟩
    · exact hstrip h
    · exact hstrip h

/-- A line that starts with a word that is known. -/
theorem readWord_located {rest : List Line} {word value : Text}
    {args : List Text} {k : Directive}
    (h : Directive.ofWord word = some (k, value)) (hk : k ≠ .tenant) :
    Located m (word :: args) fun n =>
      readDirective m std ⟨n, word :: args⟩ rest args value k :=
  readDirective_located hk (fun _ => List.mem_cons_of_mem word)
    ⟨word, List.mem_cons_self, ofWord_suffix h⟩

end Values

-- ==================================================== where an error is

section Blame

variable {m : Build} {std : FromStr}

/-- The error names one of these lines, or is the panic for a duration on
one of them. -/
def Names (m : Build) (lines : List Line) : Halt → Prop
  | .config c => ∃ l ∈ lines, c.line = some l.number
  | .panic p => m = .debug ∧ p = .overflow
      ∧ ∃ l ∈ lines, ∃ t, PartOf l.words t ∧ Overlong t

/-- What the lexer gives: no line is without words. -/
def Worded (lines : List Line) : Prop := ∀ l ∈ lines, l.words ≠ []

theorem Names.mono {lines lines' : List Line} {e : Halt}
    (h : Names m lines e) (hsub : lines ⊆ lines') : Names m lines' e := by
  cases e with
  | panic p =>
      obtain ⟨hm, hp, l, hl, ht⟩ := h
      exact ⟨hm, hp, l, hsub hl, ht⟩
  | config c =>
      obtain ⟨l, hl, hline⟩ := h
      exact ⟨l, hsub hl, hline⟩

theorem Located.names {α : Type} {f : Nat → Parse α} (line : Line)
    (h : Located m line.words f) {lines : List Line} (hl : line ∈ lines) :
    Blames (Names m lines) (f line.number) := by
  intro e he
  obtain ⟨e₀, htame, rfl⟩ := h.blames _ e he
  rcases e₀ with c | p
  · refine ⟨line, hl, ?_⟩
    cases c with
    | resolve e => cases htame
    | _ => rfl
  · obtain ⟨hm, hp, ht⟩ := htame
    exact ⟨hm, hp, line, hl, ht⟩

theorem tenantLines_blames {header : Line} (lines : List Line)
    (hw : Worded lines) (t : Tenant) :
    Blames (Names m (header :: lines)) (tenantLines std header t lines) := by
  induction lines generalizing t with
  | nil => exact .error ⟨header, List.mem_singleton.mpr rfl, rfl⟩
  | cons line rest ih =>
      obtain ⟨number, ws⟩ := line
      cases ws with
      | nil => exact absurd rfl (hw _ List.mem_cons_self)
      | cons word args =>
          unfold tenantLines
          dsimp only
          split
          · exact .ok _
          · refine .bind ?_ fun t => .bind (fun e he => ?_) fun r => .ok _
            · exact Located.names ⟨number, word :: args⟩ tenantLine_located
                (.tail _ List.mem_cons_self)
            · refine (ih (fun l hl => hw l (.tail _ hl)) t e he).mono ?_
              exact List.cons_subset_cons _ (List.subset_cons_self _ _)

theorem readStmt_blames {line : Line} {rest : List Line}
    (hw : Worded (line :: rest)) :
    Blames (Names m (line :: rest)) (readStmt m std line rest) := by
  obtain ⟨number, ws⟩ := line
  have hself : (⟨number, ws⟩ : Line) ∈ (⟨number, ws⟩ :: rest : List Line) :=
    List.mem_cons_self
  unfold readStmt
  cases ws with
  | nil => exact absurd rfl (hw _ hself)
  | cons word args =>
      dsimp only
      cases hkv : Directive.ofWord word with
      | none => exact .error ⟨_, hself, rfl⟩
      | some kv =>
          obtain ⟨k, value⟩ := kv
          by_cases hk : k = .tenant
          · subst hk
            refine .bind ?_ fun _ => .ok _
            unfold parseTenant
            split
            · split
              · exact tenantLines_blames rest
                  (fun l hl => hw l (.tail _ hl)) _
              · exact .error ⟨_, hself, rfl⟩
            · exact .error ⟨_, hself, rfl⟩
          · exact Located.names ⟨number, word :: args⟩
              (readWord_located hkv hk) hself

theorem parseLine_blames {line : Line} {rest : List Line} {d : Draft}
    (hw : Worded (line :: rest)) :
    Blames (Names m (line :: rest)) (parseLine m std line rest d) := by
  intro e he
  rcases (parseLine_takes line rest).refuses e he with hr | ⟨_, _, rfl⟩
  · exact readStmt_blames hw e hr
  · exact ⟨line, List.mem_cons_self, rfl⟩

theorem parseLines_blames {used : Nat} {d : Draft} (lines : List Line)
    (hw : Worded lines) :
    Blames (Names m lines) (parseLines m std d used lines) := by
  induction lines generalizing used d with
  | nil => exact .ok d
  | cons line rest ih =>
      have hrest : ∀ {used d}, Blames (Names m (line :: rest))
          (parseLines m std d used rest) := fun {_ _} e he =>
        (ih (fun l hl => hw l (.tail _ hl)) e he).mono
          (List.subset_cons_self _ _)
      cases used with
      | succ used => exact hrest
      | zero => exact .bind (parseLine_blames hw) fun _ => hrest

/-- An error at the end names the last line, or the first of none. -/
def AtEnd (lines : List Line) (e : Halt) : Prop :=
  ∃ c, e = .config c ∧ c.line = some (eofLine lines)

theorem parse_blames {lines : List Line} (hw : Worded lines) :
    Blames (fun e => Names m lines e ∨ AtEnd lines e)
      (parse m std lines) := by
  refine .bind (fun e he => .inl (parseLines_blames lines hw e he))
    fun d => ?_
  unfold finish
  split
  · exact .error (.inr ⟨_, rfl, rfl⟩)
  · split
    · exact .error (.inr ⟨_, rfl, rfl⟩)
    · exact .ok _

end Blame

-- ================================================= what numbers do not do

section Words

variable {m : Build} {std : FromStr}

theorem tenantLines_words {header header' : Line} {lines lines' : List Line}
    (hws : lines.map Line.words = lines'.map Line.words) {t : Tenant}
    {r : Tenant × Nat} (h : tenantLines std header t lines = .ok r) :
    tenantLines std header' t lines' = .ok r := by
  induction lines generalizing lines' t r with
  | nil => cases h
  | cons line rest ih =>
      obtain _ | ⟨line', rest'⟩ := lines'
      · cases hws
      obtain ⟨number, ws⟩ := line
      obtain ⟨number', ws'⟩ := line'
      simp only [List.map_cons, List.cons.injEq] at hws
      obtain ⟨rfl, hrest⟩ := hws
      cases ws with
      | nil => cases h
      | cons word args =>
          unfold tenantLines at h ⊢
          dsimp only at h ⊢
          split at h
          · next hw => rw [if_pos hw, h]
          · next hw =>
            rw [if_neg hw]
            obtain ⟨t', ht', h⟩ := bind_ok.mp h
            obtain ⟨r', hr', h⟩ := bind_ok.mp h
            refine bind_ok.mpr ⟨t', ?_, bind_ok.mpr ⟨r', ih hrest hr', h⟩⟩
            have hloc : Located .debug (word :: args) fun n =>
                tenantLine std ⟨n, word :: args⟩ word args t :=
              tenantLine_located
            exact hloc.ok_at number number' ht'

theorem readStmt_words {n n' : Nat} {ws : List Text} {rest rest' : List Line}
    (hws : rest.map Line.words = rest'.map Line.words) {r : Stmt × Nat}
    (h : readStmt m std ⟨n, ws⟩ rest = .ok r) :
    readStmt m std ⟨n', ws⟩ rest' = .ok r := by
  unfold readStmt at h ⊢
  cases ws with
  | nil => cases h
  | cons word args =>
      dsimp only at h ⊢
      cases hkv : Directive.ofWord word with
      | none =>
          rw [hkv] at h
          cases h
      | some kv =>
          rw [hkv] at h
          obtain ⟨k, value⟩ := kv
          by_cases hk : k = .tenant
          · subst hk
            obtain ⟨r', hr', h⟩ := bind_ok.mp h
            refine bind_ok.mpr ⟨r', ?_, h⟩
            unfold parseTenant at hr' ⊢
            split at hr'
            · split at hr'
              · next hb => rw [if_pos hb]; exact tenantLines_words hws hr'
              · cases hr'
            · cases hr'
          · have hmove := (readWord_located hkv hk).ok_at n n' h
            exact (readDirective_rest hk).trans hmove

theorem readFrom_words {used : Nat} {lines lines' : List Line}
    (hws : lines.map Line.words = lines'.map Line.words) {ss : List Stmt}
    (h : readFrom m std used lines = .ok ss) :
    readFrom m std used lines' = .ok ss := by
  induction lines generalizing used lines' ss with
  | nil =>
      cases lines' with
      | nil => exact h
      | cons _ _ => cases hws
  | cons line rest ih =>
      obtain _ | ⟨line', rest'⟩ := lines'
      · cases hws
      simp only [List.map_cons, List.cons.injEq] at hws
      obtain ⟨hw, hrest⟩ := hws
      cases used with
      | succ used => exact ih hrest h
      | zero =>
          obtain ⟨number, ws⟩ := line
          obtain ⟨number', ws'⟩ := line'
          obtain rfl : ws = ws' := hw
          obtain ⟨r, hr, h⟩ := bind_ok.mp h
          obtain ⟨ss', hss', h⟩ := bind_ok.mp h
          exact bind_ok.mpr ⟨r, readStmt_words hrest hr,
            bind_ok.mpr ⟨ss', ih hrest hss', h⟩⟩

/-- What the lines are numbered does not matter. -/
theorem parse_words {lines lines' : List Line}
    (hws : lines.map Line.words = lines'.map Line.words) {p : Policy} :
    parse m std lines = .ok p ↔ parse m std lines' = .ok p := by
  rw [parse_ok, parse_ok]
  constructor
  · rintro ⟨ss, hss, hc⟩
    exact ⟨ss, readFrom_words hws hss, hc⟩
  · rintro ⟨ss, hss, hc⟩
    exact ⟨ss, readFrom_words hws.symm hss, hc⟩

end Words

-- ================================================================ the lexer

/-- What every line out of the lexer is: not empty, and numbered as one of
the first `n` physical lines. -/
def Line.Within (n : Nat) (l : Line) : Prop :=
  l.words ≠ [] ∧ 1 ≤ l.number ∧ l.number ≤ n

theorem emit_within {out : List Line} {n number : Nat}
    {acc : List (List Char)} (hout : ∀ l ∈ out, l.Within n)
    (hn : 1 ≤ number ∧ number ≤ n) : ∀ l ∈ emit out number acc, l.Within n := by
  unfold emit
  split
  · exact hout
  · next hne =>
    intro l hl
    rcases List.mem_append.mp hl with hl | hl
    · exact hout l hl
    · rw [List.mem_singleton.mp hl]
      exact ⟨fun h => hne (List.isEmpty_iff.mpr h), hn⟩

/-- The lexer's variables are about the first `n` lines. -/
structure LexState.Within (n : Nat) (st : LexState) : Prop where
  out : ∀ l ∈ st.out, l.Within n
  pending : ∀ p ∈ st.pending, 1 ≤ p.1 ∧ p.1 ≤ n

theorem lexLine_within {st : LexState} {n : Nat} {raw : List Char × Nat}
    (h : st.Within n) (hraw : raw.2 < n) : (lexLine st raw).Within n := by
  -- the line goes on or ends, whatever its number and the words so far
  have hends : ∀ number acc, 1 ≤ number ∧ number ≤ n →
      (if (scanLine raw.1).1 then { st with pending := some (number, acc) }
        else ⟨emit st.out number acc, none⟩ : LexState).Within n := by
    intro number acc hnumber
    split
    · refine ⟨h.out, fun p hp => ?_⟩
      cases hp
      exact hnumber
    · exact ⟨emit_within h.out hnumber, fun p hp => by cases hp⟩
  unfold lexLine
  cases hp : st.pending with
  | none => exact hends _ _ ⟨Nat.le_add_left _ _, hraw⟩
  | some q => exact hends _ _ (h.pending q hp)

theorem lex_within (input : List Char) :
    ∀ l ∈ lex input, l.Within (lines input).length := by
  have hst : ((lines input).zipIdx.foldl lexLine ⟨[], none⟩).Within
      (lines input).length := by
    refine List.foldlRecOn _ _ (⟨by simp, by simp⟩ : LexState.Within _ _)
      fun st hst raw hraw => lexLine_within hst ?_
    have := List.mem_zipIdx hraw
    omega
  unfold lex
  dsimp only
  split
  · next number acc hp => exact emit_within hst.out (hst.pending _ hp)
  · exact hst.out

-- ================================================================== texts

/-- How a text may be refused. The error names the first physical line of
a logical one, which need not have a word on it (a lone backslash), or line
1 of a text without any. A debug build can also panic, on a word that ends
in a duration whose seconds do not fit. -/
def Refused (m : Build) (input : Text) : Halt → Prop
  | .config c => ∃ n, c.line = some n
      ∧ ((∃ l ∈ lex input, l.number = n ∧ 1 ≤ n
          ∧ n ≤ (lines input).length)
        ∨ lex input = [] ∧ n = 1)
  | .panic p => m = .debug ∧ p = .overflow
      ∧ ∃ l ∈ lex input, ∃ t, PartOf l.words t ∧ Overlong t

theorem parseStr_refusal {m : Build} {std : FromStr} {input : Text}
    {e : Halt} (h : parseStr m std input = .error e) :
    Refused m input e := by
  have hlex := lex_within input
  have hline : ∀ l ∈ lex input, ∃ l' ∈ lex input, l'.number = l.number
      ∧ 1 ≤ l.number ∧ l.number ≤ (lines input).length :=
    fun l hl => ⟨l, hl, rfl, (hlex l hl).2⟩
  rcases parse_blames (fun l hl => (hlex l hl).1) e h with hn | hn
  · rcases e with c | p
    · obtain ⟨l, hl, hc⟩ := hn
      exact ⟨l.number, hc, .inl (hline l hl)⟩
    · exact hn
  · obtain ⟨c, rfl, hc⟩ := hn
    refine ⟨_, hc, ?_⟩
    unfold eofLine
    cases hlast : (lex input).getLast? with
    | none => exact .inr ⟨List.getLast?_eq_none_iff.mp hlast, rfl⟩
    | some l => exact .inl (hline l (List.mem_of_getLast? hlast))

def noStd : FromStr where
  ipAddr _ := none
  ipv4Addr _ := none
  ipv6Addr _ := none
  socketAddr _ := none
  ipNet _ := none
  f64 _ := none
  f32 _ := none

/-- The word is on line 3, the logical line starts on line 2. -/
def continuedText : Text := "#\n\\\nbogus".toList

def continuedError : ConfigError := .unknownDirective 2 "bogus".toList

/-- So many hours that the seconds overflow. -/
def overlongText : Text := "banner-flux d 5124095576030432h".toList

/-- An error on a continued line, and the panic. -/
theorem parseStr_refusal_continued :
    Refused .debug continuedText (.config continuedError)
      ∧ Refused .debug overlongText (.panic .overflow) :=
  have herror : parseStr .debug noStd continuedText
      = .error (.config continuedError) := by
    decide +kernel
  have hpanic : parseStr .debug noStd overlongText
      = .error (.panic .overflow) := by
    decide +kernel
  ⟨parseStr_refusal herror, parseStr_refusal hpanic⟩

end Blackwall.Config
