/-
Finite maps with an unspecified iteration order.

`Dict` is Mathlib's association list without duplicate keys; this file
adds the bulk operations a hash map has (erase many keys, rewrite every
value, rewrite one value in place) and says what each does to `lookup`,
which is the only way the rest of the development reads a map.

`IterOrder` is the order in which a traversal visits the entries: any
function that permutes its input. An operation that iterates takes one as
an argument, so a result about the operation holds for every order the
hash function could produce.
-/
import Mathlib.Data.List.AList
import Mathlib.Data.List.Induction
import Mathlib.Logic.Function.Basic

namespace Blackwall.Base

variable {K V : Type}

/-- A finite map: one value a key. -/
abbrev Dict (K V : Type) : Type := AList fun _ : K => V

-- ======================================================= iteration order

/-- The order a traversal visits a collection in: some permutation of
it. -/
abbrev IterOrder (α : Type) : Type :=
  { f : List α → List α // ∀ l, (f l).Perm l }

/-- The order the entries are stored in. -/
def IterOrder.stored (α : Type) : IterOrder α :=
  ⟨id, fun _ => List.Perm.refl _⟩

@[simp] theorem IterOrder.mem_iff {α : Type} (ord : IterOrder α)
    {x : α} {l : List α} : x ∈ ord.1 l ↔ x ∈ l :=
  (ord.2 l).mem_iff

namespace Dict

variable [DecidableEq K]

-- ======================================================= bulk operations

/-- Remove every key of a list. -/
def eraseAll (ks : List K) (m : Dict K V) : Dict K V :=
  ks.foldl (fun m k => m.erase k) m

/-- Rewrite the value under `k`, if there is one. -/
def modify (k : K) (f : V → V) (m : Dict K V) : Dict K V :=
  match m.lookup k with
  | some v => m.insert k (f v)
  | none => m

/-- Rewrite every value. -/
def mapVals (f : K → V → V) (m : Dict K V) : Dict K V :=
  ⟨m.entries.map fun e => ⟨e.1, f e.1 e.2⟩, by
    have hnd := m.nodupKeys
    rw [List.NodupKeys, List.keys] at hnd ⊢
    rw [List.map_map]
    exact hnd⟩

theorem lookup_insert_if (k k' : K) (v : V) (m : Dict K V) :
    (m.insert k v).lookup k' = if k' = k then some v else m.lookup k' := by
  by_cases h : k' = k
  · subst h
    rw [if_pos rfl, AList.lookup_insert]
  · rw [if_neg h, AList.lookup_insert_ne h]

theorem lookup_erase_if (k k' : K) (m : Dict K V) :
    (m.erase k).lookup k' = if k' = k then none else m.lookup k' := by
  by_cases h : k' = k
  · subst h
    rw [if_pos rfl, AList.lookup_erase]
  · rw [if_neg h, AList.lookup_erase_ne h]

theorem lookup_eraseAll (k : K) :
    ∀ (ks : List K) (m : Dict K V),
      (eraseAll ks m).lookup k = if k ∈ ks then none else m.lookup k := by
  intro ks
  induction ks with
  | nil => intro m; simp [eraseAll]
  | cons a ks ih =>
      intro m
      rw [show eraseAll (a :: ks) m = eraseAll ks (m.erase a) from rfl, ih,
        lookup_erase_if]
      by_cases hk : k ∈ ks
      · simp [hk]
      · by_cases ha : k = a <;> simp [hk, ha]

theorem lookup_modify (k k' : K) (f : V → V) (m : Dict K V) :
    (modify k f m).lookup k'
      = if k' = k then (m.lookup k).map f else m.lookup k' := by
  unfold modify
  cases hk : m.lookup k with
  | none =>
      by_cases h : k' = k
      · subst h
        simp [hk]
      · simp [h]
  | some v => simp [lookup_insert_if]

theorem lookup_mapVals (f : K → V → V) (k : K) (m : Dict K V) :
    (mapVals f m).lookup k = (m.lookup k).map (f k) := by
  obtain ⟨l, hl⟩ := m
  show List.dlookup k (l.map fun e : Sigma fun _ : K => V =>
      (⟨e.1, f e.1 e.2⟩ : Sigma fun _ : K => V))
    = (List.dlookup k l).map (f k)
  clear hl
  induction l with
  | nil => rfl
  | cons e l ih =>
      obtain ⟨a, v⟩ := e
      by_cases h : a = k
      · subst h
        simp
      · rw [List.map_cons, List.dlookup_cons_ne _ _ (Ne.symm h),
          List.dlookup_cons_ne _ _ (Ne.symm h), ih]

-- ============================================================ membership

theorem mem_entries_iff {k : K} {v : V} {m : Dict K V} :
    (⟨k, v⟩ : Sigma fun _ : K => V) ∈ m.entries ↔ m.lookup k = some v := by
  rw [← Option.mem_def]
  exact AList.mem_lookup_iff.symm

theorem mem_keys_iff {k : K} {m : Dict K V} :
    k ∈ m.keys ↔ (m.lookup k).isSome := by
  rw [AList.lookup_isSome, AList.mem_keys]

theorem mem_modify (k k' : K) (f : V → V) (m : Dict K V) :
    k' ∈ modify k f m ↔ k' ∈ m := by
  rw [← AList.lookup_isSome, ← AList.lookup_isSome, lookup_modify]
  split
  · next h => rw [h, Option.isSome_map]
  · exact Iff.rfl

theorem mem_eraseAll (k : K) (ks : List K) (m : Dict K V) :
    k ∈ eraseAll ks m ↔ k ∉ ks ∧ k ∈ m := by
  rw [← AList.lookup_isSome, ← AList.lookup_isSome, lookup_eraseAll]
  split
  · next h => simp [h]
  · next h => simp [h]

/-- A map that has nothing under any key has no entries. -/
theorem entries_eq_nil {m : Dict K V} (h : ∀ k, m.lookup k = none) :
    m.entries = [] := by
  refine List.eq_nil_iff_forall_not_mem.mpr fun e he => ?_
  have := mem_entries_iff.mp he
  rw [h] at this
  cases this

-- =================================================================== size

theorem length_insert (k : K) (v : V) (m : Dict K V) :
    (m.insert k v).entries.length
      = if (m.lookup k).isSome then m.entries.length
        else m.entries.length + 1 := by
  rw [AList.entries_insert, List.length_cons]
  split
  · next hk =>
    obtain ⟨v', l₁, l₂, -, hl, he⟩ :=
      List.exists_of_kerase (AList.lookup_isSome.mp hk)
    rw [he, hl, List.length_append, List.length_append, List.length_cons]
    omega
  · next hk =>
    rw [List.kerase_of_notMem_keys fun hmem =>
      hk (AList.lookup_isSome.mpr hmem)]

theorem length_erase_le (k : K) (m : Dict K V) :
    (m.erase k).entries.length ≤ m.entries.length :=
  (List.kerase_sublist k m.entries).length_le

theorem length_eraseAll_le (ks : List K) (m : Dict K V) :
    (eraseAll ks m).entries.length ≤ m.entries.length := by
  induction ks generalizing m with
  | nil => exact Nat.le_refl _
  | cons k ks ih => exact Nat.le_trans (ih _) (length_erase_le k m)

theorem length_modify (k : K) (f : V → V) (m : Dict K V) :
    (modify k f m).entries.length = m.entries.length := by
  unfold modify
  split
  · next v hv =>
    rw [length_insert, hv]
    rfl
  · rfl

omit [DecidableEq K] in
theorem length_mapVals (f : K → V → V) (m : Dict K V) :
    (mapVals f m).entries.length = m.entries.length :=
  List.length_map _

omit [DecidableEq K] in
theorem nodup_visited (ord : IterOrder (Sigma fun _ : K => V))
    (m : Dict K V) : ((ord.1 m.entries).map Sigma.fst).Nodup := by
  rw [((ord.2 m.entries).map _).nodup_iff]
  exact m.nodupKeys

end Dict

-- ============================================================== functions

/-- A function built up entry by entry, each key once, is what the entries
say. -/
theorem foldl_update_eq_some {α : Type} [DecidableEq K] {key : α → K}
    {val : α → V} {l : List α} (hnd : (l.map key).Nodup) (k : K) (v : V) :
    l.foldl (fun (f : K → Option V) e =>
        Function.update f (key e) (some (val e))) (fun _ => none) k = some v
      ↔ ∃ e ∈ l, key e = k ∧ val e = v := by
  induction l using List.reverseRecOn with
  | nil => simp
  | append_singleton l e ih =>
      rw [List.map_append, List.nodup_append] at hnd
      obtain ⟨hl, -, hfresh⟩ := hnd
      rw [List.foldl_append, List.foldl_cons, List.foldl_nil,
        Function.update_apply]
      by_cases hk : k = key e
      · subst hk
        have hnot : ∀ d ∈ l, key d ≠ key e := fun d hd =>
          hfresh _ (List.mem_map_of_mem hd) _ (by simp)
        rw [if_pos rfl, Option.some.injEq]
        constructor
        · exact fun hv => ⟨e, by simp, rfl, hv⟩
        · rintro ⟨d, hd, hkey, hv⟩
          rcases List.mem_append.mp hd with hd | hd
          · exact absurd hkey (hnot d hd)
          · exact List.mem_singleton.mp hd ▸ hv
      · rw [if_neg hk, ih hl]
        simp [Ne.symm hk]

@[simp] theorem IterOrder.nil {α : Type} (ord : IterOrder α) :
    ord.1 [] = [] :=
  List.Perm.eq_nil (ord.2 [])

end Blackwall.Base
