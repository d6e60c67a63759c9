/-
Bounded vectors, saturating sums and per-key totals.

A `Vec` is a list whose length the machine bounds; `push` fails where the
allocation would. A saturating sum stops at its cap instead of wrapping,
and over a vector of machine words it never gets there when the cap is
wide enough. `tally` is the loop `for a in l { *m.entry(key(a)) += .. }`:
it folds every element into the entry of its key.
-/
import Mathlib.Algebra.BigOperators.Group.List.Basic
import Mathlib.Algebra.Order.BigOperators.Group.List
import Mathlib.Algebra.Order.Ring.Nat
import Mathlib.Data.Finset.Card
import Mathlib.Data.List.Induction
import Blackwall.Base.Dict

namespace Blackwall.Base

-- ====================================================== bounded vectors

/-- `isize::MAX`: no vector holds more elements. -/
def isizeMax : Nat := 2 ^ 63 - 1

/-- A vector: a list within the machine's bound. -/
def Vec (α : Type) : Type := { l : List α // l.length ≤ isizeMax }

namespace Vec

variable {α : Type}

/-- The elements, first to last. -/
def toList (v : Vec α) : List α := v.1

/-- The empty vector. -/
def empty : Vec α := ⟨[], Nat.zero_le _⟩

/-- Append one element; `none` where the allocation panics. -/
def push (a : α) (v : Vec α) : Option (Vec α) :=
  if h : v.toList.length < isizeMax then
    some ⟨v.toList ++ [a], by
      rw [List.length_append, List.length_singleton]
      exact h⟩
  else none

/-- Keep the elements that pass a test. -/
def retain (p : α → Bool) (v : Vec α) : Vec α :=
  ⟨v.toList.filter p, (List.length_filter_le _ _).trans v.2⟩

theorem length_le (v : Vec α) : v.toList.length ≤ isizeMax := v.2

theorem toList_push {a : α} {v v' : Vec α} (h : v.push a = some v') :
    v'.toList = v.toList ++ [a] := by
  unfold push at h
  split at h
  · cases h
    rfl
  · cases h

end Vec

-- ======================================================= saturating sums

section Sums

variable {α : Type}

/-- The sum of `w` over a list, stopping at `cap`. -/
def satSum (cap : Nat) (w : α → Nat) (l : List α) : Nat :=
  l.foldl (fun acc a => min (acc + w a) cap) 0

/-- The sum up to the cap, wherever it starts. -/
theorem foldl_sat_eq {cap : Nat} {w : α → Nat} :
    ∀ (l : List α) (acc : Nat), acc ≤ cap →
      l.foldl (fun acc a => min (acc + w a) cap) acc
        = min (acc + (l.map w).sum) cap := by
  intro l
  induction l with
  | nil =>
      intro acc h
      exact (min_eq_left h).symm
  | cons a l ih =>
      intro acc _
      rw [List.foldl_cons, ih _ (min_le_right _ _), List.map_cons,
        List.sum_cons]
      omega

theorem satSum_eq_min (cap : Nat) (w : α → Nat) (l : List α) :
    satSum cap w l = min (l.map w).sum cap := by
  rw [satSum, foldl_sat_eq l 0 (Nat.zero_le _), Nat.zero_add]

theorem satSum_eq {cap : Nat} {w : α → Nat} {l : List α}
    (h : (l.map w).sum ≤ cap) : satSum cap w l = (l.map w).sum := by
  rw [satSum_eq_min, min_eq_left h]

/-- Adding up a test counts the elements that pass it. -/
theorem sum_toNat_eq_countP (p : α → Bool) (l : List α) :
    (l.map fun a => (p a).toNat).sum = l.countP p := by
  induction l with
  | nil => rfl
  | cons a l ih =>
      rw [List.map_cons, List.sum_cons, ih, List.countP_cons,
        Nat.add_comm]
      cases p a with
      | true => rfl
      | false => rfl

/-- What balances for every element balances for their counts. -/
theorem countP_add_eq {p q r t : α → Bool} {l : List α}
    (h : ∀ a ∈ l, (p a).toNat + (q a).toNat = (r a).toNat + (t a).toNat) :
    l.countP p + l.countP q = l.countP r + l.countP t := by
  induction l with
  | nil => rfl
  | cons a l ih =>
      have hhead := h a List.mem_cons_self
      have htail := ih fun b hb => h b (List.mem_cons_of_mem a hb)
      simp only [← sum_toNat_eq_countP, List.map_cons, List.sum_cons]
        at htail ⊢
      omega

theorem sum_filter_le (w : α → Nat) (p : α → Bool) (l : List α) :
    ((l.filter p).map w).sum ≤ (l.map w).sum :=
  (List.filter_sublist.map w).sum_le_sum fun _ _ => Nat.zero_le _

/-- The sum over a disjoint union of two selections. -/
theorem sum_filter_or (w : α → Nat) {p q : α → Bool} (l : List α)
    (h : ∀ a, p a = true → q a = false) :
    ((l.filter fun a => p a || q a).map w).sum
      = ((l.filter p).map w).sum + ((l.filter q).map w).sum := by
  induction l with
  | nil => rfl
  | cons a l ih =>
      cases hp : p a with
      | true =>
          have hq := h a hp
          simp only [List.filter_cons, hp, hq, Bool.true_or, if_true,
            List.map_cons, List.sum_cons, ih, Bool.false_eq_true, if_false]
          omega
      | false =>
          cases hq : q a with
          | true =>
              simp only [List.filter_cons, hp, hq, Bool.false_or, if_true,
                List.map_cons, List.sum_cons, ih, Bool.false_eq_true,
                if_false]
              omega
          | false =>
              simp only [List.filter_cons, hp, hq, Bool.or_self, ih,
                Bool.false_eq_true, if_false]

/-- A vector of 64-bit words sums to less than `2^128`. -/
theorem Vec.sum_lt (v : Vec α) {w : α → Nat} (hw : ∀ a, w a < 2 ^ 64) :
    (v.toList.map w).sum ≤ 2 ^ 128 - 1 := by
  have hbound : ∀ x ∈ v.toList.map w, x ≤ 2 ^ 64 := by
    intro x hx
    obtain ⟨a, -, rfl⟩ := List.mem_map.mp hx
    exact (hw a).le
  have hsum := List.sum_le_card_nsmul _ _ hbound
  have hlen := v.length_le
  rw [List.length_map, nsmul_eq_mul, Nat.cast_id] at hsum
  calc (v.toList.map w).sum
      ≤ v.toList.length * 2 ^ 64 := hsum
    _ ≤ isizeMax * 2 ^ 64 := Nat.mul_le_mul_right _ hlen
    _ ≤ 2 ^ 128 - 1 := by decide

end Sums

-- ======================================================== per-key totals

section Tally

variable {α K V : Type} [DecidableEq K]

/-- Fold every element of `l` into the entry of its key. -/
def tally (zero : V) (add : V → α → V) (key : α → K) (l : List α) :
    Dict K V :=
  l.foldl (fun m a => m.insert (key a)
    (add ((m.lookup (key a)).getD zero) a)) ∅

theorem tally_snoc (zero : V) (add : V → α → V) (key : α → K)
    (l : List α) (a : α) :
    tally zero add key (l ++ [a])
      = (tally zero add key l).insert (key a)
        (add (((tally zero add key l).lookup (key a)).getD zero) a) := by
  rw [tally, List.foldl_append]
  rfl

/-- The entry of a key is the fold over the elements that have it. -/
theorem lookup_tally (zero : V) (add : V → α → V) (key : α → K)
    (l : List α) (k : K) :
    (tally zero add key l).lookup k
      = if l.filter (fun a => key a = k) = [] then none
        else some ((l.filter fun a => key a = k).foldl add zero) := by
  induction l using List.reverseRecOn with
  | nil => rfl
  | append_singleton l a ih =>
      rw [tally_snoc, Dict.lookup_insert_if, List.filter_append]
      by_cases hk : k = key a
      · subst hk
        rw [if_pos rfl, ih]
        -- the entry is there exactly when an earlier element had the key
        by_cases hnil : l.filter (fun b => key b = key a) = []
        · simp [hnil]
        · simp [hnil, List.foldl_append]
      · have hne : ¬ key a = k := fun h => hk h.symm
        simp [hk, hne, ih]

/-- Where no key comes twice, an element is all there is under its
key. -/
theorem filter_key_eq_singleton {key : α → K} {l : List α}
    (hnd : (l.map key).Nodup) {x : α} (hx : x ∈ l) :
    l.filter (fun y => key y = key x) = [x] := by
  induction l with
  | nil => cases hx
  | cons y l ih =>
      obtain ⟨hy, hl⟩ := List.nodup_cons.mp hnd
      rcases List.mem_cons.mp hx with rfl | hx
      · have hnone : l.filter (fun y => key y = key x) = [] := by
          refine List.filter_eq_nil_iff.mpr fun z hz hzx => hy ?_
          exact of_decide_eq_true hzx ▸ List.mem_map_of_mem hz
        simp [hnone]
      · have hne : key y ≠ key x := fun he =>
          hy (he ▸ List.mem_map_of_mem hx)
        simp [hne, ih hl hx]

/-- The entries of a map as pairs, in the order a traversal visits
them. -/
def Dict.pairs (ord : IterOrder (Sigma fun _ : K => V)) (m : Dict K V) :
    List (K × V) :=
  (ord.1 m.entries).map fun e => (e.1, e.2)

theorem Dict.mem_pairs {ord : IterOrder (Sigma fun _ : K => V)}
    {m : Dict K V} {k : K} {v : V} :
    (k, v) ∈ m.pairs ord ↔ m.lookup k = some v := by
  rw [Dict.pairs, List.mem_map, ← Dict.mem_entries_iff]
  constructor
  · rintro ⟨⟨k', v'⟩, hmem, heq⟩
    cases heq
    exact (IterOrder.mem_iff ord).mp hmem
  · intro hmem
    exact ⟨⟨k, v⟩, (IterOrder.mem_iff ord).mpr hmem, rfl⟩

omit [DecidableEq K] in
theorem Dict.pairs_keys_nodup (ord : IterOrder (Sigma fun _ : K => V))
    (m : Dict K V) : ((m.pairs ord).map Prod.fst).Nodup := by
  rw [Dict.pairs, List.map_map]
  exact nodup_visited ord m

/-- The number of keys whose value passes a test. -/
theorem Dict.card_eq_countP (ord : IterOrder (Sigma fun _ : K => V))
    {m : Dict K V} {p : K → V → Bool} {ks : Finset K}
    (h : ∀ k, k ∈ ks ↔ ∃ v, m.lookup k = some v ∧ p k v = true) :
    ks.card = (m.pairs ord).countP fun e => p e.1 e.2 := by
  have hkeys : (((m.pairs ord).filter fun e => p e.1 e.2).map
      Prod.fst).toFinset = ks := by
    ext k
    rw [h, List.mem_toFinset, List.mem_map]
    constructor
    · rintro ⟨⟨k', v⟩, he, rfl⟩
      obtain ⟨hmem, hp⟩ := List.mem_filter.mp he
      exact ⟨v, Dict.mem_pairs.mp hmem, hp⟩
    · rintro ⟨v, hlk, hp⟩
      exact ⟨(k, v), List.mem_filter.mpr ⟨Dict.mem_pairs.mpr hlk, hp⟩, rfl⟩
  have hnd : (((m.pairs ord).filter fun e => p e.1 e.2).map
      Prod.fst).Nodup :=
    (Dict.pairs_keys_nodup ord m).sublist (List.filter_sublist.map _)
  rw [← hkeys, List.toFinset_card_of_nodup hnd, List.length_map,
    List.countP_eq_length_filter]

end Tally

end Blackwall.Base
