/-
Tokens that pass between places.

Each place holds some tokens and each place is on one side. A system
whose every step passes at most one token on, between two places of one
side, never changes what a side holds in all (`Passes.total`). If the
tokens of a side are all different, each of them is then in exactly one
place, once (`Places.unique`).
-/
import Mathlib.Algebra.BigOperators.Group.Finset.Piecewise
import Mathlib.Algebra.Order.BigOperators.Group.Finset
import Mathlib.Data.Fintype.Basic

namespace Blackwall.Base

/-- What each place holds. -/
abbrev Places (P T : Type) : Type := P → Multiset T

section Custody

variable {P S T : Type} [Fintype P] [DecidableEq S] (side : P → S)

/-- What the places of a side hold together. -/
def Places.total (h : Places P T) (x : S) : Multiset T :=
  ∑ p with side p = x, h p

/-- What a place holds is among what its side holds. -/
theorem Places.le_total (h : Places P T) (p : P) :
    h p ≤ h.total side (side p) := by
  refine Finset.single_le_sum (fun r _ => Multiset.zero_le (h r)) ?_
  exact Finset.mem_filter.mpr ⟨Finset.mem_univ p, rfl⟩

theorem Places.mem_total (h : Places P T) {p : P} {a : T}
    (ha : a ∈ h p) : a ∈ h.total side (side p) :=
  Multiset.subset_of_le (h.le_total side p) ha

variable [DecidableEq P]

/-- Two places of one side hold no more than the side. -/
theorem Places.pair_le_total (h : Places P T) {p q : P} (hpq : p ≠ q)
    (hside : side q = side p) : h p + h q ≤ h.total side (side p) := by
  have hsub : ({p, q} : Finset P)
      ⊆ Finset.univ.filter (side · = side p) := by
    intro r hr
    rcases Finset.mem_insert.mp hr with rfl | hr
    · exact Finset.mem_filter.mpr ⟨Finset.mem_univ r, rfl⟩
    · rw [Finset.mem_singleton.mp hr]
      exact Finset.mem_filter.mpr ⟨Finset.mem_univ q, hside⟩
  rw [← Finset.sum_pair hpq]
  exact Finset.sum_le_sum_of_subset hsub

variable {side}

/-- Nothing moves, or one token goes from `p` to `q`. -/
inductive Passes (side : P → S) (h h' : Places P T) : Prop
  | stay (same : ∀ r, h' r = h r)
  | pass (p q : P) (a : T) (sides : side p = side q)
      (moved : ∀ r, h' r + (if r = p then {a} else 0)
        = h r + (if r = q then {a} else 0))

/-- A side keeps what it holds. -/
theorem Passes.total {h h' : Places P T} (hp : Passes side h h') (x : S) :
    h'.total side x = h.total side x := by
  cases hp with
  | stay same => exact Finset.sum_congr rfl fun r _ => same r
  | pass p q a sides moved =>
      have hsum : ∑ r with side r = x,
            (h' r + (if r = p then {a} else 0))
          = ∑ r with side r = x, (h r + (if r = q then {a} else 0)) :=
        Finset.sum_congr rfl fun r _ => moved r
      -- both ends of the move are on the side, or neither is
      rw [Finset.sum_add_distrib, Finset.sum_add_distrib,
        Finset.sum_ite_eq', Finset.sum_ite_eq'] at hsum
      simp only [Finset.mem_filter, Finset.mem_univ, true_and, sides]
        at hsum
      exact add_right_cancel hsum

/-- Different tokens: none is in two places of its side. -/
theorem Places.notMem_of_mem (h : Places P T) {p q : P} {a : T}
    (hn : (h.total side (side p)).Nodup) (ha : a ∈ h p) (hpq : q ≠ p)
    (hside : side q = side p) : a ∉ h q := by
  intro hq
  have hle := Multiset.nodup_of_le (h.pair_le_total side hpq.symm hside) hn
  exact Multiset.disjoint_left.mp (Multiset.nodup_add.mp hle).2.2 ha hq

/-- Different tokens: each of a side's is in one of its places, once. -/
theorem Places.unique [DecidableEq T] (h : Places P T) {x : S} {a : T}
    (hn : (h.total side x).Nodup) (ha : a ∈ h.total side x) :
    ∃ p, side p = x ∧ (h p).count a = 1
      ∧ ∀ q, side q = x → q ≠ p → a ∉ h q := by
  obtain ⟨p, hp, hmem⟩ := Multiset.mem_sum.mp ha
  obtain rfl := (Finset.mem_filter.mp hp).2
  refine ⟨p, rfl, ?_, fun q hq hne => h.notMem_of_mem hn hmem hne hq⟩
  exact Multiset.count_eq_one_of_mem
    (Multiset.nodup_of_le (h.le_total side p) hn) hmem

end Custody

-- ------------------------------------------------------ lists as places

section Lists

variable {T : Type} {l : List T} {a : T}

theorem coe_concat (l : List T) (a : T) :
    (↑(l ++ [a]) : Multiset T) = ↑l + {a} := by
  rw [← Multiset.coe_add, Multiset.coe_singleton]

theorem coe_cons_eq (a : T) (l : List T) :
    (↑(a :: l) : Multiset T) = ↑l + {a} := by
  rw [← Multiset.cons_coe, ← Multiset.singleton_add, add_comm]

theorem coe_eraseIdx {i : Nat} (hi : l[i]? = some a) :
    (↑l : Multiset T) = ↑(l.eraseIdx i) + {a} := by
  obtain ⟨hlt, rfl⟩ := List.getElem?_eq_some_iff.mp hi
  rw [← coe_cons_eq]
  exact Quot.sound (List.getElem_cons_eraseIdx_perm hlt).symm

theorem coe_dropLast (hl : l.getLast? = some a) :
    (↑l : Multiset T) = ↑l.dropLast + {a} := by
  rw [← coe_concat, List.dropLast_append_getLast? a hl]

/-- The first element taken off a part that is not read yet. -/
theorem coe_drop {i : Nat} (hi : l[i]? = some a) :
    (↑(l.drop i) : Multiset T) = ↑(l.drop (i + 1)) + {a} := by
  obtain ⟨hlt, rfl⟩ := List.getElem?_eq_some_iff.mp hi
  rw [List.drop_eq_getElem_cons hlt, coe_cons_eq]

end Lists

end Blackwall.Base
