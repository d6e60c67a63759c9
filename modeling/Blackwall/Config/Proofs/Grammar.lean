/-
The parser accepts exactly the configurations that have a meaning, and
gives them that meaning.

`parseLine` is a statement read and then taken up: `parseLine_takes` says
so for one line, arm by arm, and is the only place the arms are looked at.
Over all lines the statements are taken up one after another (`TakesAll`),
and what that makes of the initial variables is their meaning
(`takesAll_start`).
-/
import Blackwall.Config.Statements

namespace Blackwall.Config

open Base

-- ============================================================ small steps

theorem ensure_ok {P : Prop} [Decidable P] {e : Halt} {u : Unit} :
    ensure P e = .ok u ↔ P := by
  unfold ensure
  split
  · next h => exact iff_of_true rfl h
  · next h => exact iff_of_false (fun he => by cases he) h

theorem orBad_ok {α : Type} {line : Line} {what : String} {value : Text}
    {x : Option α} {a : α} : orBad line what value x = .ok a ↔ x = some a := by
  cases x with
  | none => exact iff_of_false (fun he => by cases he) (fun h => by cases h)
  | some b =>
      rw [orBad, Except.ok.injEq, Option.some.injEq]

theorem pure_ok {α : Type} {a b : α} :
    (pure a : Parse α) = .ok b ↔ a = b :=
  Except.ok.injEq a b ▸ Iff.rfl

-- ====================================================== taking a statement

/-- A statement is not refused because of what was said before. -/
def Stmt.Fits (d : Draft) : Stmt → Prop
  | ⟨.bannerFlux, _⟩ => d.bannerFlux = none
  | ⟨.dnsFlux, _⟩ => d.dnsFlux = none
  | ⟨.rtbh, _⟩ => d.rtbh = none
  | ⟨.flowspec, _⟩ => d.flowspec = none
  | ⟨.flowtable, _⟩ => d.flowtable = none
  | ⟨.instanceName, _⟩ => d.instanceName = none
  | ⟨.rpkiValidator, _⟩ => d.rpkiValidator = none
  | ⟨.pop, pop⟩ =>
      (∀ p ∈ d.pops, p.agent ≠ pop.agent) ∧ ∀ p ∈ d.pops, p.name ≠ pop.name
  | _ => True

/-- The variables once it is taken up. -/
def Draft.note (d : Draft) : Stmt → Draft
  | ⟨.interface, iface⟩ => { d with interface := some iface }
  | ⟨.family, net⟩ => { d with prefixes := d.prefixes ++ [net] }
  | ⟨.protect, net⟩ =>
      { d with protectedPrefixes := d.protectedPrefixes ++ [net] }
  | ⟨.default, state⟩ => { d with defaultState := state }
  | ⟨.tenant, t⟩ => { d with tenants := d.tenants ++ [t] }
  | ⟨.shape, rule⟩ => { d with shaping := d.shaping ++ [rule] }
  | ⟨.bannerFlux, cfg⟩ => { d with bannerFlux := some cfg }
  | ⟨.dnsFlux, cfg⟩ => { d with dnsFlux := some cfg }
  | ⟨.rtbh, cfg⟩ => { d with rtbh := some cfg }
  | ⟨.flowspec, cfg⟩ => { d with flowspec := some cfg }
  | ⟨.metrics, listens⟩ =>
      { d with metricsListen := listens.getLast?.or d.metricsListen }
  | ⟨.api, cfg⟩ => { d with api := some cfg }
  | ⟨.pop, pop⟩ => { d with pops := d.pops ++ [pop] }
  | ⟨.engine, knobs⟩ =>
      { d with engine := knobs.foldl EngineConfig.set d.engine }
  | ⟨.flowtable, devices⟩ => { d with flowtable := some devices }
  | ⟨.xdp, cfg⟩ => { d with xdp := some cfg }
  | ⟨.statelessTcp, ports⟩ =>
      { d with statelessTcpPorts := d.statelessTcpPorts ++ ports }
  | ⟨.shadow, _⟩ => { d with shadow := true }
  | ⟨.instanceName, name⟩ => { d with instanceName := some name }
  | ⟨.rpkiValidator, url⟩ => { d with rpkiValidator := some url }
  | ⟨.rpkiCheckInterval, secs⟩ => { d with rpkiCheckInterval := secs }

-- =============================================================== one line

section Lines

variable {m : Build} {std : FromStr} {d : Draft}

/-- The arm `p` of the parser reads the statement `r` reads, refuses it if
it does not fit, and takes it up otherwise. A refusal names the line. -/
structure Takes (line : Line) (d : Draft) (p : Parse (Draft × Nat))
    (r : Parse (Stmt × Nat)) : Prop where
  accepts : ∀ d' used, p = .ok (d', used)
    ↔ ∃ s, r = .ok (s, used) ∧ s.Fits d ∧ d' = d.note s
  refuses : ∀ e, p = .error e →
    r = .error e ∨ ∃ what value, e = bad line what value

/-- Whatever is read does not fit. -/
def Unfit (d : Draft) (r : Parse (Stmt × Nat)) : Prop :=
  ∀ s n, r = .ok (s, n) → ¬ s.Fits d

namespace Unfit

theorem ok {s : Stmt} {n : Nat} (h : ¬ s.Fits d) :
    Unfit d (.ok (s, n)) := by
  intro s' n' hs
  cases hs
  exact h

theorem bind {α : Type} {x : Parse α} {g : α → Parse (Stmt × Nat)}
    (h : ∀ a, Unfit d (g a)) : Unfit d (x >>= g) := by
  intro s n hr
  obtain ⟨a, -, ha⟩ := bind_ok.mp hr
  exact h a s n ha

end Unfit

namespace Takes

variable {line : Line} {r : Parse (Stmt × Nat)} {what : String}
  {value : Text}

theorem refused (h : Unfit d r) :
    Takes line d (.error (bad line what value)) r := by
  constructor
  · intro d' used
    constructor
    · intro he
      cases he
    · rintro ⟨s, hs, hfit, -⟩
      exact absurd hfit (h s _ hs)
  · intro e he
    cases he
    exact .inr ⟨what, value, rfl⟩

theorem error {e : Halt} : Takes line d (.error e) (.error e) := by
  constructor
  · intro d' used
    constructor
    · intro he
      cases he
    · rintro ⟨s, hs, -⟩
      cases hs
  · exact fun e' he => .inl (by cases he; rfl)

theorem taken {s : Stmt} {n : Nat} (h : s.Fits d) :
    Takes line d (.ok (d.note s, n)) (.ok (s, n)) := by
  constructor
  · intro d' used
    rw [Except.ok.injEq, Prod.mk.injEq]
    constructor
    · rintro ⟨rfl, rfl⟩
      exact ⟨s, rfl, h, rfl⟩
    · rintro ⟨s', hs, -, rfl⟩
      cases hs
      exact ⟨rfl, rfl⟩
  · intro e he
    cases he

theorem bind {α : Type} {x : Parse α} {f : α → Parse (Draft × Nat)}
    {g : α → Parse (Stmt × Nat)} (h : ∀ a, Takes line d (f a) (g a)) :
    Takes line d (x >>= f) (x >>= g) := by
  cases x with
  | error e => exact error
  | ok a => exact h a

/-- A check only the parser makes. -/
theorem check {P : Prop} [Decidable P] {f : Unit → Parse (Draft × Nat)}
    (h : P → Takes line d (f ()) r) (hr : ¬ P → Unfit d r) :
    Takes line d (ensure P (bad line what value) >>= f) r := by
  unfold ensure
  split
  · next hP => exact h hP
  · next hP => exact refused (hr hP)

theorem once {α : Type} {x : Option α} {f : Unit → Parse (Draft × Nat)}
    (h : x = none → Takes line d (f ()) r) (hr : x ≠ none → Unfit d r) :
    Takes line d (once line what x >>= f) r :=
  check (fun hx => h (Option.isNone_iff_eq_none.mp hx))
    (fun hx => hr fun he => hx (Option.isNone_iff_eq_none.mpr he))

end Takes

theorem takes_word (line : Line) (args : List Text) (expected : String)
    {f : Text → Parse (Draft × Nat)} {g : Text → Parse (Stmt × Nat)}
    (h : ∀ w, Takes line d (f w) (g w)) :
    Takes line d
      (match args with
        | [w] => f w
        | _ => .error (unexpected line expected))
      (match args with
        | [w] => g w
        | _ => .error (unexpected line expected)) := by
  rcases args with _ | ⟨w, _ | ⟨w', args⟩⟩
  · exact .error
  · exact h w
  · exact .error

theorem parseDirective_takes (line : Line) (rest : List Line)
    (args : List Text) (value : Text) (k : Directive) :
    Takes line d (parseDirective m std line rest d args value k)
      (readDirective m std line rest args value k) := by
  cases k with
  | interface =>
      unfold parseDirective readDirective
      rcases args with _ | ⟨name, _ | ⟨iface, _ | ⟨w, args⟩⟩⟩
      · exact .error
      · exact .error
      · exact .taken (s := ⟨.interface, _⟩) trivial
      · exact .error
  | family =>
      exact takes_word line args _ fun raw =>
        .bind fun net => .taken (s := ⟨.family, net⟩) trivial
  | protect =>
      exact takes_word line args _ fun raw =>
        .bind fun net => .taken (s := ⟨.protect, net⟩) trivial
  | default =>
      refine takes_word line args _ fun state => ?_
      split
      · exact .taken (s := ⟨.default, .deception⟩) trivial
      · split
        · exact .taken (s := ⟨.default, .closed⟩) trivial
        · exact .error
  | tenant =>
      exact .bind fun t => .taken (s := ⟨.tenant, t.1⟩) trivial
  | shape => exact .bind fun rule => .taken (s := ⟨.shape, rule⟩) trivial
  | bannerFlux =>
      exact .once
        (fun h => .bind fun cfg => .taken (s := ⟨.bannerFlux, cfg⟩) h)
        (fun h => .bind fun _ => .ok h)
  | dnsFlux =>
      exact .once
        (fun h => .bind fun kv => .bind fun cfg =>
          .taken (s := ⟨.dnsFlux, cfg⟩) h)
        (fun h => .bind fun kv => .bind fun cfg => .ok h)
  | rtbh =>
      exact .once
        (fun h => .bind fun kv => .bind fun cfg =>
          .taken (s := ⟨.rtbh, cfg⟩) h)
        (fun h => .bind fun kv => .bind fun cfg => .ok h)
  | flowspec =>
      exact .once
        (fun h => .bind fun kv => .bind fun cfg =>
          .taken (s := ⟨.flowspec, cfg⟩) h)
        (fun h => .bind fun kv => .bind fun cfg => .ok h)
  | metrics =>
      exact .bind fun listens => .taken (s := ⟨.metrics, listens⟩) trivial
  | api => exact .bind fun cfg => .taken (s := ⟨.api, cfg⟩) trivial
  | pop =>
      exact .bind fun pop => .check
        (fun hagent => .check
          (fun hname => .taken (s := ⟨.pop, pop⟩) ⟨hagent, hname⟩)
          (fun h => .ok fun hfit => h hfit.2))
        (fun h => .ok fun hfit => h hfit.1)
  | engine =>
      exact .bind fun knobs => .taken (s := ⟨.engine, knobs⟩) trivial
  | flowtable =>
      exact .once
        (fun h => .bind fun devices =>
          .taken (s := ⟨.flowtable, devices⟩) h)
        (fun h => .bind fun _ => .ok h)
  | xdp => exact .bind fun cfg => .taken (s := ⟨.xdp, cfg⟩) trivial
  | statelessTcp =>
      exact .bind fun ports =>
        .taken (s := ⟨.statelessTcp, ports.flatten⟩) trivial
  | shadow => exact .bind fun _ => .taken (s := ⟨.shadow, ()⟩) trivial
  | instanceName =>
      exact .bind fun _ => .bind fun _ => .once
        (fun h => .taken (s := ⟨.instanceName, _⟩) h) (fun h => .ok h)
  | rpkiValidator =>
      exact .bind fun _ => .once
        (fun h => .bind fun _ => .taken (s := ⟨.rpkiValidator, _⟩) h)
        (fun h => .bind fun _ => .ok h)
  | rpkiCheckInterval =>
      exact .bind fun _ => .bind fun secs =>
        .taken (s := ⟨.rpkiCheckInterval, secs⟩) trivial

/-- Only a tenant looks at the lines behind its own. -/
theorem readDirective_rest {line : Line} {rest rest' : List Line}
    {args : List Text} {value : Text} {k : Directive} (hk : k ≠ .tenant) :
    readDirective m std line rest' args value k
      = readDirective m std line rest args value k := by
  cases k with
  | tenant => exact absurd rfl hk
  | _ => rfl

/-- One line: a statement is read, it fits, and it is taken up. -/
theorem parseLine_takes (line : Line) (rest : List Line) :
    Takes line d (parseLine m std line rest d) (readStmt m std line rest) := by
  unfold parseLine readStmt
  cases line.words with
  | nil => exact .error
  | cons word args =>
      dsimp only
      cases Directive.ofWord word with
      | none => exact .error
      | some kv => exact parseDirective_takes line rest args kv.2 kv.1

-- ============================================================== all lines

/-- The variables once all statements are taken up, if they all fit. -/
inductive TakesAll : Draft → List Stmt → Draft → Prop
  | nil (d : Draft) : TakesAll d [] d
  | cons {d d' : Draft} {s : Stmt} {ss : List Stmt} (fits : s.Fits d)
      (rest : TakesAll (d.note s) ss d') : TakesAll d (s :: ss) d'

theorem parseLines_ok {d' : Draft} {used : Nat} {lines : List Line} :
    parseLines m std d used lines = .ok d'
      ↔ ∃ ss, readFrom m std used lines = .ok ss ∧ TakesAll d ss d' := by
  induction lines generalizing d used with
  | nil =>
      rw [parseLines, readFrom, Except.ok.injEq]
      constructor
      · rintro rfl
        exact ⟨[], rfl, .nil _⟩
      · rintro ⟨ss, hss, hall⟩
        cases hss
        cases hall
        rfl
  | cons line rest ih =>
      cases used with
      | succ used => exact ih
      | zero =>
          rw [parseLines, readFrom, bind_ok]
          constructor
          · rintro ⟨⟨d₁, used⟩, hline, hrest⟩
            obtain ⟨s, hs, hfit, rfl⟩ :=
              ((parseLine_takes line rest).accepts _ _).mp hline
            obtain ⟨ss, hss, hall⟩ := ih.mp hrest
            refine ⟨s :: ss, bind_ok.mpr ⟨_, hs, ?_⟩, .cons hfit hall⟩
            exact bind_ok.mpr ⟨ss, hss, rfl⟩
          · rintro ⟨ss, hss, hall⟩
            obtain ⟨⟨s, used⟩, hs, hss⟩ := bind_ok.mp hss
            obtain ⟨ss', hss', hcons⟩ := bind_ok.mp hss
            cases hcons
            cases hall with
            | cons hfit hall =>
                exact ⟨_, ((parseLine_takes line rest).accepts _ _).mpr
                  ⟨s, hs, hfit, rfl⟩, ih.mpr ⟨ss', hss', hall⟩⟩

end Lines

theorem TakesAll.concat {d d' : Draft} {ss : List Stmt} {s : Stmt} :
    TakesAll d (ss ++ [s]) d'
      ↔ ∃ d₁, TakesAll d ss d₁ ∧ s.Fits d₁ ∧ d' = d₁.note s := by
  induction ss generalizing d with
  | nil =>
      constructor
      · intro h
        cases h with
        | cons hfit hrest =>
            cases hrest
            exact ⟨d, .nil d, hfit, rfl⟩
      · rintro ⟨d₁, h, hfit, rfl⟩
        cases h
        exact .cons hfit (.nil _)
  | cons s' ss ih =>
      constructor
      · intro h
        cases h with
        | cons hfit' hrest =>
            obtain ⟨d₁, hall, hfit, rfl⟩ := ih.mp hrest
            exact ⟨d₁, .cons hfit' hall, hfit, rfl⟩
      · rintro ⟨d₁, h, hfit, rfl⟩
        cases h with
        | cons hfit' hall => exact .cons hfit' (ih.mpr ⟨d₁, hall, hfit, rfl⟩)

-- ================================================================ meaning

section Meaning

variable (ss : List Stmt) (s : Stmt) (k : Directive)

@[simp] theorem said_append (ss' : List Stmt) :
    said k (ss ++ ss') = said k ss ++ said k ss' :=
  List.filterMap_append

@[simp] theorem said_self (x : k.Payload) : said k [⟨k, x⟩] = [x] := by
  simp [said, Stmt.about]

variable {s k} in
theorem said_other (h : s.kind ≠ k) : said k [s] = [] := by
  simp [said, Stmt.about, h]

/-- The meaning of one statement more. -/
theorem Draft.of_concat : Draft.of (ss ++ [s]) = (Draft.of ss).note s := by
  obtain ⟨k, x⟩ := s
  cases k <;> simp [Draft.of, Draft.note, said_other, List.getLast?_append]

/-- It fits if it clashes with none of its directive. -/
theorem fits_of (x : k.Payload) :
    Stmt.Fits (Draft.of ss) ⟨k, x⟩ ↔ ∀ y ∈ said k ss, ¬ Clash k y x := by
  cases k with
  | pop =>
      show (∀ p ∈ said .pop ss, p.agent ≠ x.agent)
          ∧ (∀ p ∈ said .pop ss, p.name ≠ x.name)
        ↔ ∀ y ∈ said .pop ss, ¬ (y.agent = x.agent ∨ y.name = x.name)
      simp only [not_or]
      exact ⟨fun h y hy => ⟨h.1 y hy, h.2 y hy⟩,
        fun h => ⟨fun y hy => (h y hy).1, fun y hy => (h y hy).2⟩⟩
  | _ =>
      simp [Draft.of, Stmt.Fits, Clash, List.eq_nil_iff_forall_not_mem]

theorem valid_concat :
    Valid (ss ++ [s]) ↔ Valid ss ∧ s.Fits (Draft.of ss) := by
  obtain ⟨k, x⟩ := s
  rw [fits_of]
  constructor
  · intro h
    refine ⟨fun k' => ?_, fun y hy => ?_⟩
    · have := h k'
      rw [said_append] at this
      exact (List.pairwise_append.mp this).1
    · have := h k
      rw [said_append, said_self] at this
      exact (List.pairwise_append.mp this).2.2 y hy x (List.mem_singleton.mpr rfl)
  · rintro ⟨h, hx⟩ k'
    by_cases hk : k = k'
    · subst hk
      rw [said_append, said_self, List.pairwise_append]
      refine ⟨h k, List.pairwise_singleton _ _, fun y hy z hz => ?_⟩
      rw [List.mem_singleton.mp hz]
      exact hx y hy
    · rw [said_append, said_other hk, List.append_nil]
      exact h k'

/-- What the initial variables become: the meaning of the statements. -/
theorem takesAll_start {d : Draft} :
    TakesAll .start ss d ↔ Valid ss ∧ d = Draft.of ss := by
  induction ss using List.reverseRecOn generalizing d with
  | nil =>
      constructor
      · intro h
        cases h
        exact ⟨fun k => .nil, rfl⟩
      · rintro ⟨-, rfl⟩
        exact .nil _
  | append_singleton ss s ih =>
      rw [TakesAll.concat, valid_concat, Draft.of_concat]
      constructor
      · rintro ⟨d₁, h, hfit, rfl⟩
        obtain ⟨hvalid, rfl⟩ := ih.mp h
        exact ⟨⟨hvalid, hfit⟩, rfl⟩
      · rintro ⟨⟨hvalid, hfit⟩, rfl⟩
        exact ⟨_, ih.mpr ⟨hvalid, rfl⟩, hfit, rfl⟩

end Meaning

-- ============================================================== the policy

theorem finish_ok {n : Nat} {d : Draft} {p : Policy} :
    finish n d = .ok p
      ↔ d.interface = some p.interface
        ∧ (d.flowspec.isSome → d.rtbh.isSome)
        ∧ p.toSettings = d.toSettings := by
  unfold finish
  cases hi : d.interface with
  | none => simp
  | some iface =>
      dsimp only
      split
      · next hbad =>
        constructor
        · intro h
          cases h
        · rintro ⟨-, hsession, -⟩
          have := hsession hbad.1
          rw [Option.isNone_iff_eq_none.mp hbad.2] at this
          cases this
      · next hgood =>
        rw [Except.ok.injEq]
        constructor
        · rintro rfl
          refine ⟨rfl, fun hf => ?_, rfl⟩
          by_contra hr
          exact hgood ⟨hf, by simpa using hr⟩
        · rintro ⟨hiface, -, hset⟩
          obtain ⟨settings, iface'⟩ := p
          cases hset
          cases hiface
          rfl

/-- The parser and the language agree: a parse ends in a policy exactly
when the lines are statements that make up a whole configuration, and the
policy is what they mean. -/
theorem parse_ok {m : Build} {std : FromStr} {lines : List Line}
    {p : Policy} :
    parse m std lines = .ok p
      ↔ ∃ ss, readAll m std lines = .ok ss ∧ Complete ss p := by
  rw [parse, bind_ok]
  have hsome : ∀ {α : Type} {l : List α}, l.getLast?.isSome ↔ l ≠ [] := by
    intro α l
    rw [List.getLast?_isSome]
  constructor
  · rintro ⟨d, hd, hp⟩
    obtain ⟨ss, hss, hall⟩ := parseLines_ok.mp hd
    obtain ⟨hvalid, rfl⟩ := (takesAll_start ss).mp hall
    obtain ⟨hi, hsession, hset⟩ := finish_ok.mp hp
    exact ⟨ss, hss, hvalid, hi,
      fun hf => hsome.mp (hsession (hsome.mpr hf)), hset⟩
  · rintro ⟨ss, hss, hc⟩
    refine ⟨Draft.of ss, parseLines_ok.mpr ⟨ss, hss, ?_⟩, ?_⟩
    · exact (takesAll_start ss).mpr ⟨hc.valid, rfl⟩
    · exact finish_ok.mpr ⟨hc.interface,
        fun hf => hsome.mpr (hc.session (hsome.mp hf)), hc.settings⟩

/-- The same for a text: it is accepted exactly when its lines are
statements that make up a whole configuration. -/
theorem parseStr_meaning (m : Build) (std : FromStr) (input : Text)
    (p : Policy) :
    parseStr m std input = .ok p
      ↔ ∃ ss, readAll m std (lex input) = .ok ss ∧ Complete ss p :=
  parse_ok

end Blackwall.Config
