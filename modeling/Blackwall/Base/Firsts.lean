/-
A list that takes an element only when its key is not there yet, and a
list with one of its elements changed.

`insertAll` is the fold every merge by key is: of several elements with
one key the first stays. Membership after it is a lookup by key in what
was inserted (`mem_insertAll`).
-/
import Mathlib.Data.List.Nodup

namespace Blackwall.Base

-- ==================================================== first of each key

section Firsts

variable {α κ : Type} [DecidableEq κ] (key : α → κ)

def insertNew (acc : List α) (x : α) : List α :=
  if key x ∈ acc.map key then acc else acc ++ [x]

def insertAll (acc xs : List α) : List α := xs.foldl (insertNew key) acc

variable {key} {acc xs : List α} {x y : α}

theorem insertAll_cons :
    insertAll key acc (x :: xs) = insertAll key (insertNew key acc x) xs :=
  rfl

theorem nodup_insertNew :
    ((insertNew key acc x).map key).Nodup ↔ (acc.map key).Nodup := by
  unfold insertNew
  split
  · rfl
  · next hx =>
    rw [List.map_append, List.map_singleton, ← List.concat_eq_append,
      List.nodup_concat]
    exact and_iff_right hx

theorem nodup_insertAll :
    ((insertAll key acc xs).map key).Nodup ↔ (acc.map key).Nodup := by
  induction xs generalizing acc with
  | nil => rfl
  | cons x xs ih => rw [insertAll_cons, ih, nodup_insertNew]

theorem key_of_find? {k : κ} (h : xs.find? (fun z => key z = k) = some y) :
    key y = k := by
  simpa using List.find?_some h

theorem find?_key_cons (k : κ) :
    (x :: xs).find? (fun z => key z = k)
      = if key x = k then some x else xs.find? fun z => key z = k := by
  rw [List.find?_cons]
  by_cases h : key x = k <;> simp [h]

theorem mem_insertAll :
    y ∈ insertAll key acc xs ↔ y ∈ acc
      ∨ key y ∉ acc.map key ∧ xs.find? (fun z => key z = key y) = some y := by
  induction xs generalizing acc with
  | nil => simp [insertAll]
  | cons x xs ih =>
      rw [insertAll_cons, ih, find?_key_cons]
      unfold insertNew
      by_cases hx : key x ∈ acc.map key
      · rw [if_pos hx]
        -- an old key is not the one looked for
        refine or_congr_right (and_congr_right fun hy => ?_)
        have hne : key x ≠ key y := fun h => hy (h ▸ hx)
        rw [if_neg hne]
      · rw [if_neg hx, List.mem_append, List.mem_singleton, or_assoc]
        refine or_congr_right ?_
        by_cases hxy : key x = key y
        · rw [if_pos hxy]
          simp only [List.map_append, List.map_cons, List.map_nil,
            List.mem_append, hxy, List.mem_singleton, or_true,
            not_true_eq_false, false_and, or_false, Option.some.injEq]
          exact ⟨fun h => ⟨hxy ▸ hx, h.symm⟩, fun h => h.2.symm⟩
        · have hne : y ≠ x := fun h => hxy (congrArg key h).symm
          rw [if_neg hxy, or_iff_right hne, List.map_append,
            List.map_singleton, List.mem_append, List.mem_singleton,
            not_or, and_assoc]
          refine and_congr_right fun _ => ?_
          exact and_iff_right fun h => hxy h.symm

end Firsts

-- ====================================================== one element changed

section Modify

variable {α β : Type} {l : List α} {f : α → α} {i : Nat} {x : α}

/-- A search that does not see the change. -/
theorem find?_modify_same {q : α → Bool} {g : α → β}
    (hq : ∀ x, q (f x) = q x) (hg : ∀ x, g (f x) = g x) :
    ((l.modify i f).find? q).map g = (l.find? q).map g := by
  induction l generalizing i with
  | nil => simp
  | cons x l ih =>
      cases i with
      | zero =>
          rw [List.modify_zero_cons, List.find?_cons, List.find?_cons, hq]
          cases q x with
          | true => exact congrArg some (hg x)
          | false => rfl
      | succ i =>
          rw [List.modify_succ_cons, List.find?_cons, List.find?_cons]
          cases q x with
          | true => rfl
          | false => exact ih

theorem find?_modify_hit {q : α → Bool} (hi : l[i]? = some x)
    (hbefore : ∀ y ∈ l.take i, q y = false) (hx : q (f x) = true) :
    (l.modify i f).find? q = some (f x) := by
  induction l generalizing i with
  | nil => cases hi
  | cons y l ih =>
      cases i with
      | zero =>
          cases hi
          rw [List.modify_zero_cons, List.find?_cons, hx]
      | succ i =>
          rw [List.take_succ_cons, List.forall_mem_cons] at hbefore
          rw [List.modify_succ_cons, List.find?_cons, hbefore.1]
          exact ih hi hbefore.2

theorem flatMap_modify_same {g : α → List β} (hg : ∀ x, g (f x) = g x) :
    (l.modify i f).flatMap g = l.flatMap g := by
  induction l generalizing i with
  | nil => simp
  | cons x l ih =>
      cases i with
      | zero =>
          rw [List.modify_zero_cons, List.flatMap_cons, List.flatMap_cons,
            hg]
      | succ i =>
          rw [List.modify_succ_cons, List.flatMap_cons, List.flatMap_cons,
            ih]

theorem flatMap_modify_grows {g : α → List β} {b : β}
    (hi : l[i]? = some x) (hg : g (f x) = g x ++ [b]) :
    ((l.modify i f).flatMap g).Perm (b :: l.flatMap g) := by
  induction l generalizing i with
  | nil => cases hi
  | cons y l ih =>
      cases i with
      | zero =>
          cases hi
          rw [List.modify_zero_cons, List.flatMap_cons, List.flatMap_cons,
            hg, List.append_assoc, List.singleton_append]
          exact List.perm_middle
      | succ i =>
          rw [List.modify_succ_cons, List.flatMap_cons, List.flatMap_cons]
          exact ((ih hi).append_left (g y)).trans List.perm_middle

theorem getElem?_of_findIdx? {q : α → Bool} (h : l.findIdx? q = some i) :
    ∃ x, l[i]? = some x ∧ l.find? q = some x ∧ q x = true
      ∧ ∀ y ∈ l.take i, q y = false := by
  induction l generalizing i with
  | nil => cases h
  | cons y l ih =>
      rw [List.findIdx?_cons] at h
      cases hy : q y with
      | true =>
          rw [hy, if_pos rfl] at h
          cases h
          exact ⟨y, rfl, by rw [List.find?_cons, hy], hy, nofun⟩
      | false =>
          rw [hy, if_neg Bool.false_ne_true, Option.map_eq_some_iff] at h
          obtain ⟨j, hj, rfl⟩ := h
          obtain ⟨x, hx, hfind, hqx, hbefore⟩ := ih hj
          refine ⟨x, hx, by rw [List.find?_cons, hy]; exact hfind, hqx, ?_⟩
          rw [List.take_succ_cons, List.forall_mem_cons]
          exact ⟨hy, hbefore⟩

end Modify

end Blackwall.Base
