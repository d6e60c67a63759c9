/-
What may be moved in a configuration without changing the policy: whole
directives past those of another kind, and the arguments of a directive
whose keys come at most once.

A configuration is cut into blocks, a line each but for the lines of a
tenant. Reading is one block after another (`readFrom_blocks`), a block
gives a statement of the directive it starts with, and what the statements
mean is said directive by directive, so only the order within a directive
is left to matter.

The arguments of `dns-flux`, `rtbh` and `flowspec` are collected into a
map before any of them is looked at, and two orders of the same arguments
give the same map (`readKeys_perm`).
-/
import Blackwall.Config.Proofs.Located
import Blackwall.Config.Proofs.WellFormed

namespace Blackwall.Config

open Base
open Core (Tenant)

-- ================================================================= blocks

/-- The directive a line starts with. -/
def directiveOf (ws : List Text) : Option Directive :=
  ws.head?.bind fun w => (Directive.ofWord w).map Prod.fst

/-- The line ends a tenant. -/
def closes (ws : List Text) : Bool := ws.head? = some "\x7d".toList

/-- The directive a block starts with. -/
def headDirective (b : List (List Text)) : Option Directive :=
  b.head?.bind directiveOf

/-- The lines of a directive: those of a tenant go on up to the first that
closes it. -/
def IsBlock : List (List Text) → Prop
  | [] => False
  | ws :: body =>
      if directiveOf ws = some .tenant then
        ∃ inner close, body = inner ++ [close] ∧ closes close = true
          ∧ ∀ l ∈ inner, closes l = false
      else body = []

/-- Lines whose numbers are not looked at. -/
def unnumbered (wss : List (List Text)) : List Line := wss.map (Line.mk 0)

theorem unnumbered_words (wss : List (List Text)) :
    (unnumbered wss).map Line.words = wss := by
  rw [unnumbered, List.map_map]
  exact List.map_id wss

section Reading

variable (m : Build) (std : FromStr)

/-- The statement of a block. -/
def readBlock : List (List Text) → Option Stmt
  | [] => none
  | ws :: body =>
      (readStmt m std ⟨0, ws⟩ (unnumbered body)).toOption.map Prod.fst

variable {m std}

theorem readBlock_some {ws : List Text} {body : List (List Text)}
    {s : Stmt} :
    readBlock m std (ws :: body) = some s
      ↔ ∃ n, readStmt m std ⟨0, ws⟩ (unnumbered body) = .ok (s, n) := by
  rw [readBlock]
  cases readStmt m std ⟨0, ws⟩ (unnumbered body) with
  | error e => simp [Except.toOption]
  | ok r => simp [Except.toOption, Prod.ext_iff]

/-- The lines behind the one that closes the tenant are not looked at. -/
theorem tenantLines_block (header : Line) {inner : List (List Text)}
    {close : List Text} (hin : ∀ l ∈ inner, closes l = false)
    (hclose : closes close = true) (tail : List (List Text)) (t : Tenant) :
    tenantLines std header t (unnumbered (inner ++ close :: tail))
        = tenantLines std header t (unnumbered (inner ++ [close]))
      ∧ Yields (fun r => r.2 = inner.length + 1)
        (tenantLines std header t (unnumbered (inner ++ [close]))) := by
  induction inner generalizing t with
  | nil =>
      cases close with
      | nil => cases hclose
      | cons word args =>
          have hword : word = "\x7d".toList := by
            simpa [closes] using hclose
          subst hword
          exact ⟨rfl, .ok rfl⟩
  | cons ws inner ih =>
      cases ws with
      | nil => exact ⟨rfl, .error⟩
      | cons word args =>
          have hword : word ≠ "\x7d".toList := by
            simpa [closes] using hin _ List.mem_cons_self
          have hrest := ih fun l hl => hin l (.tail _ hl)
          simp only [unnumbered, List.cons_append, List.map_cons,
            tenantLines, if_neg hword] at hrest ⊢
          constructor
          · simp only [(hrest _).1]
          · refine .bind .any fun t _ => .bind (hrest t).2 fun r hr =>
              .ok ?_
            show r.2 + 1 = _
            rw [hr, List.length_cons]

theorem parseTenant_block (header : Line) (args : List Text)
    {inner : List (List Text)} {close : List Text}
    (hin : ∀ l ∈ inner, closes l = false) (hclose : closes close = true)
    (tail : List (List Text)) :
    parseTenant std header args (unnumbered (inner ++ close :: tail))
        = parseTenant std header args (unnumbered (inner ++ [close]))
      ∧ Yields (fun r => r.2 = inner.length + 1)
        (parseTenant std header args (unnumbered (inner ++ [close]))) := by
  unfold parseTenant
  split
  · split
    · exact tenantLines_block header hin hclose tail _
    · exact ⟨rfl, .error⟩
  · exact ⟨rfl, .error⟩

/-- A block gives the statement it gives whatever follows it, and takes up
its own lines and no more. -/
theorem readStmt_alone {ws : List Text} {body : List (List Text)}
    (hb : IsBlock (ws :: body)) (tail : List (List Text)) :
    readStmt m std ⟨0, ws⟩ (unnumbered (body ++ tail))
        = readStmt m std ⟨0, ws⟩ (unnumbered body)
      ∧ Yields (fun r => r.2 = body.length)
        (readStmt m std ⟨0, ws⟩ (unnumbered body)) := by
  cases ws with
  | nil => exact ⟨rfl, .error⟩
  | cons word args =>
      cases hkv : Directive.ofWord word with
      | none => simp [readStmt, hkv, Yields.error]
      | some kv =>
          obtain ⟨k, value⟩ := kv
          have hdir : directiveOf (word :: args) = some k := by
            simp [directiveOf, hkv]
          rw [IsBlock, hdir] at hb
          simp only [readStmt, hkv]
          split at hb
          · next hk =>
            obtain rfl : k = .tenant := Option.some.inj hk
            obtain ⟨inner, close, rfl, hclose, hin⟩ := hb
            obtain ⟨hsame, hused⟩ := @parseTenant_block std
              ⟨0, word :: args⟩ args inner close hin hclose tail
            rw [List.append_assoc, List.singleton_append]
            refine ⟨by simp only [readDirective, hsame], ?_⟩
            refine .bind hused fun r hr => .ok ?_
            rw [List.length_append, List.length_singleton]
            exact hr
          · next hk =>
            subst hb
            have hk' : k ≠ .tenant := fun h => hk (by rw [h])
            refine ⟨readDirective_rest hk', fun r hr => ?_⟩
            exact (readDirective_sound k r hr).2.2 hk'

theorem readStmt_block {ws : List Text} {body : List (List Text)}
    (hb : IsBlock (ws :: body)) (tail : List (List Text)) {s : Stmt}
    {n : Nat} :
    readStmt m std ⟨0, ws⟩ (unnumbered (body ++ tail)) = .ok (s, n)
      ↔ readBlock m std (ws :: body) = some s ∧ n = body.length := by
  obtain ⟨hsame, hused⟩ := @readStmt_alone m std ws body hb tail
  rw [hsame, readBlock_some]
  constructor
  · exact fun h => ⟨⟨n, h⟩, hused _ h⟩
  · rintro ⟨⟨n', h⟩, rfl⟩
    rwa [show n' = body.length from hused _ h] at h

/-- The lines of what has been read are passed over. -/
theorem readFrom_used (body tail : List (List Text)) :
    readFrom m std body.length (unnumbered (body ++ tail))
      = readFrom m std 0 (unnumbered tail) := by
  induction body with
  | nil => rfl
  | cons ws body ih => exact ih

/-- Reading is one block after another. -/
theorem readFrom_blocks {bs : List (List (List Text))}
    (hb : ∀ b ∈ bs, IsBlock b) {ss : List Stmt} :
    readFrom m std 0 (unnumbered bs.flatten) = .ok ss
      ↔ bs.map (readBlock m std) = ss.map some := by
  induction bs generalizing ss with
  | nil =>
      constructor
      · intro h
        cases h
        rfl
      · intro h
        cases ss with
        | nil => rfl
        | cons _ _ => cases h
  | cons b bs ih =>
      have hrest : ∀ b' ∈ bs, IsBlock b' := fun b' hb' => hb b' (.tail _ hb')
      cases b with
      | nil => exact absurd (hb _ List.mem_cons_self) id
      | cons ws body =>
          have hblock := hb _ List.mem_cons_self
          show readFrom m std 0 (⟨0, ws⟩ :: unnumbered (body ++ bs.flatten))
            = .ok ss ↔ _
          rw [readFrom, bind_ok]
          constructor
          · rintro ⟨⟨s, n⟩, hs, h⟩
            obtain ⟨hread, rfl⟩ := (readStmt_block hblock _).mp hs
            obtain ⟨ss', hss', hcons⟩ := bind_ok.mp h
            cases hcons
            rw [readFrom_used] at hss'
            rw [List.map_cons, List.map_cons, hread, (ih hrest).mp hss']
          · intro h
            obtain _ | ⟨s, ss⟩ := ss
            · cases h
            rw [List.map_cons, List.map_cons, List.cons.injEq] at h
            refine ⟨(s, body.length),
              (readStmt_block hblock _).mpr ⟨h.1, rfl⟩,
              bind_ok.mpr ⟨ss, ?_, rfl⟩⟩
            exact (readFrom_used body _).trans ((ih hrest).mpr h.2)

/-- A block says something of the directive it starts with. -/
theorem readBlock_kind {b : List (List Text)} {s : Stmt}
    (h : readBlock m std b = some s) : headDirective b = some s.kind := by
  rcases b with _ | ⟨_ | ⟨word, args⟩, body⟩
  · cases h
  · cases h
  · obtain ⟨n, hread⟩ := readBlock_some.mp h
    cases hkv : Directive.ofWord word with
    | none => simp [readStmt, hkv] at hread
    | some kv =>
        simp only [readStmt, hkv] at hread
        have hkind : s.kind = kv.1 := (readDirective_sound kv.1 _ hread).1
        simp [headDirective, directiveOf, hkv, hkind]

end Reading

-- ============================================================== arguments

/-- The directives whose arguments are collected before they are looked
at. -/
def Directive.keyed : Directive → Bool
  | .dnsFlux | .rtbh | .flowspec => true
  | _ => false

/-- The same block, but for the order of such arguments. -/
inductive Alike : List (List Text) → List (List Text) → Prop
  | refl (b : List (List Text)) : Alike b b
  | args {word : Text} {k : Directive} {args args' : List Text}
      (hk : directiveOf [word] = some k) (keyed : k.keyed = true)
      (h : args.Perm args') : Alike [word :: args] [word :: args']

section Arguments

variable {m : Build} {std : FromStr}

theorem readKeys_cons {line : Line} {name : String} {keys : List String}
    {kv kv' : Finmap fun _ : Text => Text} {tok : Text} {toks : List Text} :
    readKeys line name keys kv (tok :: toks) = .ok kv'
      ↔ ∃ k v, splitOnce '=' tok = some (k, v)
        ∧ k ∈ keys.map String.toList ∧ k ∉ kv
        ∧ readKeys line name keys (kv.insert k v) toks = .ok kv' := by
  rw [readKeys, bind_ok]
  constructor
  · rintro ⟨⟨k, v⟩, hkv, h⟩
    obtain ⟨_, hkey, h⟩ := bind_ok.mp h
    obtain ⟨_, hnew, h⟩ := bind_ok.mp h
    exact ⟨k, v, orBad_ok.mp hkv, ensure_ok.mp hkey, ensure_ok.mp hnew, h⟩
  · rintro ⟨k, v, hkv, hkey, hnew, h⟩
    exact ⟨(k, v), orBad_ok.mpr hkv, bind_ok.mpr ⟨(), ensure_ok.mpr hkey,
      bind_ok.mpr ⟨(), ensure_ok.mpr hnew, h⟩⟩⟩

theorem readKeys_swap {line : Line} {name : String} {keys : List String}
    {kv kv' : Finmap fun _ : Text => Text} {tok tok' : Text}
    {toks : List Text}
    (h : readKeys line name keys kv (tok :: tok' :: toks) = .ok kv') :
    readKeys line name keys kv (tok' :: tok :: toks) = .ok kv' := by
  obtain ⟨k, v, hkv, hkey, hnew, h⟩ := readKeys_cons.mp h
  obtain ⟨k', v', hkv', hkey', hnew', h⟩ := readKeys_cons.mp h
  rw [Finmap.mem_insert, not_or] at hnew'
  refine readKeys_cons.mpr ⟨k', v', hkv', hkey', hnew'.2,
    readKeys_cons.mpr ⟨k, v, hkv, hkey, ?_, ?_⟩⟩
  · rw [Finmap.mem_insert, not_or]
    exact ⟨Ne.symm hnew'.1, hnew⟩
  · rw [Finmap.insert_insert_of_ne _ hnew'.1]
    exact h

theorem readKeys_perm {line : Line} {name : String} {keys : List String}
    {toks toks' : List Text} (hp : toks.Perm toks')
    {kv kv' : Finmap fun _ : Text => Text}
    (h : readKeys line name keys kv toks = .ok kv') :
    readKeys line name keys kv toks' = .ok kv' := by
  induction hp generalizing kv with
  | nil => exact h
  | cons tok _ ih =>
      obtain ⟨k, v, hkv, hkey, hnew, h⟩ := readKeys_cons.mp h
      exact readKeys_cons.mpr ⟨k, v, hkv, hkey, hnew, ih h⟩
  | swap tok tok' toks => exact readKeys_swap h
  | trans _ _ ih₁ ih₂ => exact ih₂ (ih₁ h)

/-- A directive that first collects its arguments. -/
theorem collect_perm {α : Type} {line : Line} {name : String}
    {keys : List String} {toks toks' : List Text} (hp : toks.Perm toks')
    {f : (Finmap fun _ : Text => Text) → Parse α} {a : α}
    (h : (readKeys line name keys ∅ toks >>= f) = .ok a) :
    (readKeys line name keys ∅ toks' >>= f) = .ok a := by
  obtain ⟨kv, hkv, h⟩ := bind_ok.mp h
  exact bind_ok.mpr ⟨kv, readKeys_perm hp hkv, h⟩

/-- Of their line these directives look at the number only. -/
theorem readKeys_line {n : Nat} (ws ws' : List Text) {name : String}
    {keys : List String} {kv : Finmap fun _ : Text => Text}
    (toks : List Text) :
    readKeys ⟨n, ws'⟩ name keys kv toks
      = readKeys ⟨n, ws⟩ name keys kv toks := by
  induction toks generalizing kv with
  | nil => rfl
  | cons tok toks ih =>
      simp only [readKeys, ih]
      rfl

theorem readDirective_line {n : Nat} (ws ws' : List Text)
    {args : List Text} {value : Text} {k : Directive} (hk : k.keyed = true) :
    readDirective m std ⟨n, ws'⟩ [] args value k
      = readDirective m std ⟨n, ws⟩ [] args value k := by
  cases k with
  | dnsFlux | rtbh | flowspec =>
      simp only [readDirective, readKeys_line ws ws']
      rfl
  | _ => cases hk

theorem readDirective_perm {line : Line} {args args' : List Text}
    {value : Text} {k : Directive} (hk : k.keyed = true)
    (hp : args.Perm args') {r : Stmt × Nat}
    (h : readDirective m std line [] args value k = .ok r) :
    readDirective m std line [] args' value k = .ok r := by
  cases k with
  | dnsFlux | rtbh | flowspec => exact collect_perm hp h
  | _ => cases hk

/-- Two orders of the arguments give the same statement. -/
theorem readBlock_perm {word : Text} {k : Directive}
    {args args' : List Text} (hk : directiveOf [word] = some k)
    (hkeyed : k.keyed = true) (hp : args.Perm args') {s : Stmt}
    (h : readBlock m std [word :: args] = some s) :
    readBlock m std [word :: args'] = some s := by
  obtain ⟨kv, hkv, rfl⟩ := Option.map_eq_some_iff.mp hk
  obtain ⟨n, hread⟩ := readBlock_some.mp h
  refine readBlock_some.mpr ⟨n, ?_⟩
  simp only [readStmt, hkv, unnumbered, List.map_nil] at hread ⊢
  rw [readDirective_line (word :: args) _ hkeyed]
  exact readDirective_perm hkeyed hp hread

theorem Alike.readBlock_eq {b b' : List (List Text)} (h : Alike b b') :
    readBlock m std b = readBlock m std b' := by
  cases h with
  | refl => rfl
  | args hk hkeyed hp =>
      ext s
      exact ⟨readBlock_perm hk hkeyed hp, readBlock_perm hk hkeyed hp.symm⟩

end Arguments

-- ========================================================= the same meaning

/-- A configuration with its directives in another order: those of one
directive in the same order, but for the order of arguments that are
collected. -/
def Reordered (bs bs' : List (List (List Text))) : Prop :=
  ∀ k : Option Directive,
    List.Forall₂ Alike (bs.filter (headDirective · = k))
      (bs'.filter (headDirective · = k))

section Meaning

variable {m : Build} {std : FromStr} {bs bs' : List (List (List Text))}
  {ss ss' : List Stmt}

/-- What the blocks of one directive, or of none, are read as. -/
def readOf (m : Build) (std : FromStr) (bs : List (List (List Text)))
    (k : Option Directive) : List (Option Stmt) :=
  (bs.filter (headDirective · = k)).map (readBlock m std)

theorem Reordered.readOf_eq (h : Reordered bs bs') :
    readOf m std bs = readOf m std bs' := by
  funext k
  have hread : List.Forall₂ (· = ·) (readOf m std bs k)
      (readOf m std bs' k) := by
    rw [readOf, readOf, List.forall₂_map_left_iff,
      List.forall₂_map_right_iff]
    exact (h k).imp fun _ _ hb => hb.readBlock_eq
  rwa [List.forall₂_eq_eq_eq] at hread

/-- What is said of a directive comes from its own blocks. -/
theorem said_blocks (h : bs.map (readBlock m std) = ss.map some)
    (k : Directive) :
    said k ss
      = (readOf m std bs (some k)).filterMap fun s => s.bind (Stmt.about k) := by
  calc said k ss
      = (ss.map some).filterMap fun s => s.bind (Stmt.about k) := by
        rw [List.filterMap_map]
        rfl
    _ = bs.filterMap fun b => (readBlock m std b).bind (Stmt.about k) := by
        rw [← h, List.filterMap_map]
        rfl
    _ = _ := by
        rw [readOf, List.filterMap_map, List.filterMap_filter]
        refine List.filterMap_congr fun b _ => ?_
        cases hs : readBlock m std b with
        | none => simp [hs]
        | some s =>
            rw [readBlock_kind hs]
            by_cases hk : s.kind = k <;> simp [hs, hk, Stmt.about]

/-- Blocks that can be read are read in any order. -/
theorem readable_of (h : readOf m std bs = readOf m std bs')
    (hss : bs.map (readBlock m std) = ss.map some) :
    ∃ ss' : List Stmt, bs'.map (readBlock m std) = ss'.map some := by
  refine ⟨bs'.filterMap (readBlock m std), ?_⟩
  rw [List.map_filterMap, eq_comm,
    List.filterMap_eq_map_iff_forall_eq_some]
  intro b hb
  -- the block is among those of its own directive, so it is read in both
  have hmem : readBlock m std b ∈ readOf m std bs' (headDirective b) :=
    List.mem_map_of_mem (List.mem_filter.mpr ⟨hb, decide_eq_true rfl⟩)
  rw [← h] at hmem
  obtain ⟨b', hb', heq⟩ := List.mem_map.mp hmem
  have hin := List.mem_map_of_mem (f := readBlock m std)
    (List.mem_of_mem_filter hb')
  rw [hss, heq] at hin
  obtain ⟨s, -, hs⟩ := List.mem_map.mp hin
  rw [← hs]
  rfl

theorem complete_congr (h : ∀ k, said k ss = said k ss') {p : Policy}
    (hc : Complete ss p) : Complete ss' p := by
  refine ⟨fun k => ?_, ?_, ?_, ?_⟩
  · rw [← h]
    exact hc.valid k
  · rw [← h]
    exact hc.interface
  · rw [← h, ← h]
    exact hc.session
  · rw [hc.settings, Draft.of, Draft.of]
    simp only [h]

theorem parse_blocks (hb : ∀ b ∈ bs, IsBlock b)
    (hb' : ∀ b ∈ bs', IsBlock b)
    (h : readOf m std bs = readOf m std bs') {p : Policy}
    (hp : parse m std (unnumbered bs.flatten) = .ok p) :
    parse m std (unnumbered bs'.flatten) = .ok p := by
  obtain ⟨ss, hread, hc⟩ := parse_ok.mp hp
  have hss := (readFrom_blocks hb).mp hread
  obtain ⟨ss', hss'⟩ := readable_of h hss
  refine parse_ok.mpr ⟨ss', (readFrom_blocks hb').mpr hss', ?_⟩
  exact complete_congr
    (fun k => by rw [said_blocks hss, said_blocks hss', h]) hc

/-- The order of the directives of a configuration, the order of the
arguments that are collected, and the layout of the text do not matter:
only the order within a directive does. -/
theorem parseStr_reordered {text text' : Text}
    (hb : ∀ b ∈ bs, IsBlock b) (hb' : ∀ b ∈ bs', IsBlock b)
    (hlex : (lex text).map Line.words = bs.flatten)
    (hlex' : (lex text').map Line.words = bs'.flatten)
    (h : Reordered bs bs') (p : Policy) :
    parseStr m std text = .ok p ↔ parseStr m std text' = .ok p := by
  have hread : readOf m std bs = readOf m std bs' := h.readOf_eq
  calc parseStr m std text = .ok p
      ↔ parse m std (unnumbered bs.flatten) = .ok p :=
        parse_words (hlex.trans (unnumbered_words _).symm)
    _ ↔ parse m std (unnumbered bs'.flatten) = .ok p :=
        ⟨parse_blocks hb hb' hread, parse_blocks hb' hb hread.symm⟩
    _ ↔ parseStr m std text' = .ok p :=
        (parse_words (hlex'.trans (unnumbered_words _).symm)).symm

end Meaning

theorem isBlock_line {ws : List Text} (h : directiveOf ws ≠ some .tenant) :
    IsBlock [ws] := by
  rw [IsBlock, if_neg h]

def sampleFlux : List Text :=
  row "dns-flux server=a zone=z name=n from=p count=4 set=2 tsig=k"

def movedFlux : List Text :=
  row "dns-flux tsig=k set=2 count=4 from=p name=n zone=z server=a"

/-- The blocks of `sampleRows`. -/
def sampleBlocks : List (List (List Text)) :=
  [[row "interface w e"], [row "ipv4 p"], [row "default drop"], [sampleFlux],
    tenantRows]

/-- The last first, and the arguments of `dns-flux` in another order. -/
def movedBlocks : List (List (List Text)) :=
  [tenantRows, [movedFlux], [row "default drop"], [row "ipv4 p"],
    [row "interface w e"]]

/-- What the lines of the two start with. -/
structure SampleHeads : Prop where
  interface : directiveOf (row "interface w e") = some .interface
  family : directiveOf (row "ipv4 p") = some .family
  default : directiveOf (row "default drop") = some .default
  flux : directiveOf sampleFlux = some .dnsFlux
  moved : directiveOf movedFlux = some .dnsFlux
  tenant : headDirective tenantRows = some .tenant

theorem sampleHeads : SampleHeads := by
  constructor <;>
  · simp only [row, sampleFlux, movedFlux, tenantRows]
    repeat rw [String.toList_ofList]
    decide +kernel

theorem tenantRows_isBlock : IsBlock tenantRows := by
  have hhead : directiveOf (row "tenant t \x7b") = some .tenant :=
    sampleHeads.tenant
  rw [tenantRows, IsBlock, if_pos hhead]
  exact ⟨[row "owns a", row "allow tcp 443 host"], row "\x7d", rfl,
    by decide +kernel, by decide +kernel⟩

theorem sampleBlocks_isBlock : ∀ b ∈ sampleBlocks, IsBlock b := by
  simp only [sampleBlocks, List.forall_mem_cons]
  refine ⟨isBlock_line ?_, isBlock_line ?_, isBlock_line ?_,
    isBlock_line ?_, tenantRows_isBlock, fun _ h => absurd h List.not_mem_nil⟩
  · rw [sampleHeads.interface]
    decide
  · rw [sampleHeads.family]
    decide
  · rw [sampleHeads.default]
    decide
  · rw [sampleHeads.flux]
    decide

theorem movedBlocks_isBlock : ∀ b ∈ movedBlocks, IsBlock b := by
  have hsample := sampleBlocks_isBlock
  simp only [sampleBlocks, movedBlocks, List.forall_mem_cons] at hsample ⊢
  refine ⟨tenantRows_isBlock, isBlock_line ?_, hsample.2.2.1, hsample.2.1,
    hsample.1,
    fun _ h => absurd h List.not_mem_nil⟩
  rw [sampleHeads.moved]
  decide

theorem movedBlocks_plain :
    ∀ ws ∈ movedBlocks.flatten, ws ≠ [] ∧ ∀ w ∈ ws, Plain w := by
  unfold movedBlocks movedFlux tenantRows row
  repeat rw [String.toList_ofList]
  decide +kernel

theorem flux_alike : Alike [sampleFlux] [movedFlux] := by
  have hsplit : ∃ args args', sampleFlux = "dns-flux".toList :: args
      ∧ movedFlux = "dns-flux".toList :: args' ∧ args.Perm args' := by
    unfold sampleFlux movedFlux row
    repeat rw [String.toList_ofList]
    exact ⟨_, _, rfl, rfl, by decide +kernel⟩
  obtain ⟨args, args', hargs, hargs', hperm⟩ := hsplit
  rw [hargs, hargs']
  refine .args (k := .dnsFlux) ?_ rfl hperm
  have hflux := sampleHeads.flux
  rwa [hargs] at hflux

theorem sample_reordered : Reordered sampleBlocks movedBlocks := by
  obtain ⟨hinterface, hfamily, hdefault, hflux, hmoved, htenant⟩ := sampleHeads
  have hhead : ∀ ws, headDirective [ws] = directiveOf ws := fun _ => rfl
  intro k
  simp only [sampleBlocks, movedBlocks, List.filter_cons, List.filter_nil,
    hhead, hinterface, hfamily, hdefault, hflux, hmoved, htenant]
  rcases k with _ | k
  · exact .nil
  · cases k with
    | interface | family | default | tenant => exact .cons (.refl _) .nil
    | dnsFlux => exact .cons flux_alike .nil
    | _ => exact .nil

theorem parseStr_reordered_sample :
    parseStr .release sampleStd (plainText movedBlocks.flatten)
      = .ok samplePolicy := by
  have hwords : ∀ (k : Nat) (rows : List (List Text)),
      (numbered k rows).map Line.words = rows := by
    intro k rows
    induction rows generalizing k with
    | nil => rfl
    | cons ws rows ih => rw [numbered, List.map_cons, ih]
  refine (parseStr_reordered sampleBlocks_isBlock movedBlocks_isBlock
    ?_ ?_ sample_reordered samplePolicy).mp sampleRows_accepted
  · rw [lex_plain sampleRows_plain, hwords]
    rfl
  · rw [lex_plain movedBlocks_plain, hwords]

end Blackwall.Config
