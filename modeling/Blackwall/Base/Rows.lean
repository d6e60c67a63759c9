/-
A history table with one active row a key.

A row is closed by stamping it, never deleted, and a partial unique index
allows one row a key that is not closed. The index is a field of the
table, so no statement can leave two; everything else reads the table
through `active`, the value of the active row of a key.

Two statements change a table: an upsert, which opens a row or merges
into the one that is open, and a close, which stamps the open row of a
key when its value passes a test.
-/
import Mathlib.Data.List.Nodup

namespace Blackwall.Base

variable {K V : Type}

/-- One row. -/
structure Row (K V : Type) where
  key : K
  val : V
  openedAt : Nat
  closedAt : Option Nat
  deriving DecidableEq, Repr

/-- The row has not been closed. -/
def Row.isActive (r : Row K V) : Bool := r.closedAt.isNone

/-- The keys of the active rows. -/
def activeKeys (rows : List (Row K V)) : List K :=
  (rows.filter (·.isActive)).map (·.key)

/-- The table, with its partial unique index. -/
structure Rows (K V : Type) where
  rows : List (Row K V)
  uniq : (activeKeys rows).Nodup

namespace Rows

/-- The empty table. -/
def empty : Rows K V := ⟨[], List.nodup_nil⟩

variable [DecidableEq K]

/-- The value of the active row of `k`. -/
def active (tbl : Rows K V) (k : K) : Option V :=
  (tbl.rows.find? fun r => r.isActive && decide (r.key = k)).map (·.val)

-- ============================================================ statements

/-- The row an upsert leaves in place of `r`. -/
def mergeRow (merge : V → V → V) (k : K) (v : V) (r : Row K V) : Row K V :=
  if r.isActive && decide (r.key = k) then
    { r with val := merge r.val v }
  else r

/-- The row a close leaves in place of `r`. -/
def closeRow (test : V → Bool) (k : K) (at_ : Nat) (r : Row K V) :
    Row K V :=
  if r.isActive && decide (r.key = k) && test r.val then
    { r with closedAt := some at_ }
  else r

theorem activeKeys_merge (merge : V → V → V) (k : K) (v : V)
    (rows : List (Row K V)) :
    activeKeys (rows.map (mergeRow merge k v)) = activeKeys rows := by
  induction rows with
  | nil => rfl
  | cons r rows ih =>
      simp only [activeKeys, List.map_cons, List.filter_cons] at ih ⊢
      have hact : (mergeRow merge k v r).isActive = r.isActive := by
        unfold mergeRow
        split <;> rfl
      have hkey : (mergeRow merge k v r).key = r.key := by
        unfold mergeRow
        split <;> rfl
      rw [hact]
      split
      · simp only [List.map_cons, hkey, ih]
      · exact ih

theorem activeKeys_close_sublist (test : V → Bool) (k : K) (at_ : Nat)
    (rows : List (Row K V)) :
    (activeKeys (rows.map (closeRow test k at_))).Sublist
      (activeKeys rows) := by
  induction rows with
  | nil => exact List.Sublist.refl _
  | cons r rows ih =>
      simp only [activeKeys, List.map_cons, List.filter_cons] at ih ⊢
      unfold closeRow
      split
      case isTrue h =>
          have hr : r.isActive = true := by
            simp only [Bool.and_eq_true] at h
            exact h.1.1
          rw [if_neg (by simp [Row.isActive]), if_pos hr]
          exact ih.trans (List.sublist_cons_self _ _)
      case isFalse h =>
          by_cases hr : r.isActive = true
          · rw [if_pos hr, if_pos hr]
            exact ih.cons_cons _
          · rw [if_neg hr, if_neg hr]
            exact ih

/-- Open a row for `k`, or merge `v` into the one that is open. -/
def upsert (merge : V → V → V) (k : K) (v : V) (at_ : Nat)
    (tbl : Rows K V) : Rows K V :=
  if h : k ∈ activeKeys tbl.rows then
    ⟨tbl.rows.map (mergeRow merge k v), by
      rw [activeKeys_merge]
      exact tbl.uniq⟩
  else
    ⟨tbl.rows ++ [⟨k, v, at_, none⟩], by
      have happ : activeKeys (tbl.rows ++ [⟨k, v, at_, none⟩])
          = activeKeys tbl.rows ++ [k] := by
        simp [activeKeys, Row.isActive]
      rw [happ]
      exact List.nodup_append.mpr ⟨tbl.uniq, List.nodup_singleton _, by
        intro a ha b hb hab
        rw [List.mem_singleton] at hb
        exact h (hb ▸ hab ▸ ha)⟩⟩

/-- Close the active row of `k`, if its value passes the test. -/
def close (test : V → Bool) (k : K) (at_ : Nat) (tbl : Rows K V) :
    Rows K V :=
  ⟨tbl.rows.map (closeRow test k at_),
    tbl.uniq.sublist (activeKeys_close_sublist test k at_ tbl.rows)⟩

-- ==================================================== reading the table

/-- An active row is what `active` reads: the unique index makes the
first match the only one. -/
theorem mem_active_iff {tbl : Rows K V} {k : K} {v : V} :
    (∃ r ∈ tbl.rows, r.isActive = true ∧ r.key = k ∧ r.val = v)
      ↔ tbl.active k = some v := by
  obtain ⟨rows, huniq⟩ := tbl
  show (∃ r ∈ rows, _) ↔ (rows.find? _).map _ = _
  induction rows with
  | nil => simp
  | cons r rows ih =>
      have hrest : (activeKeys rows).Nodup := by
        refine huniq.sublist ?_
        simp only [activeKeys, List.filter_cons]
        split
        · exact List.sublist_cons_self _ _
        · exact List.Sublist.refl _
      rw [List.find?_cons]
      cases hr : (r.isActive && decide (r.key = k)) with
      | true =>
          simp only [Bool.and_eq_true, decide_eq_true_eq] at hr
          obtain ⟨hact, hkey⟩ := hr
          simp only [Option.map_some, Option.some.injEq]
          constructor
          · rintro ⟨r', hmem, hact', hkey', hv⟩
            rcases List.mem_cons.mp hmem with rfl | hmem'
            · exact hv
            · -- a second active row of `k` contradicts the index
              exfalso
              have hin : k ∈ activeKeys rows :=
                List.mem_map.mpr
                  ⟨r', List.mem_filter.mpr ⟨hmem', hact'⟩, hkey'⟩
              simp only [activeKeys, List.filter_cons, if_pos hact,
                List.map_cons, List.nodup_cons] at huniq
              exact huniq.1 (hkey ▸ hin)
          · intro hv
            exact ⟨r, List.mem_cons_self, hact, hkey, hv⟩
      | false =>
          simp only [Bool.and_eq_false_iff, decide_eq_false_iff_not] at hr
          rw [← ih hrest]
          constructor
          · rintro ⟨r', hmem, hact', hkey', hv⟩
            rcases List.mem_cons.mp hmem with rfl | hmem'
            · rcases hr with hr | hr
              · rw [hact'] at hr
                cases hr
              · exact absurd hkey' hr
            · exact ⟨r', hmem', hact', hkey', hv⟩
          · rintro ⟨r', hmem, h⟩
            exact ⟨r', List.mem_cons_of_mem _ hmem, h⟩

theorem find_some {tbl : Rows K V} {k : K} {r : Row K V}
    (h : (tbl.rows.find? fun r => r.isActive && decide (r.key = k))
      = some r) : r.isActive = true ∧ r.key = k := by
  simpa using List.find?_some h

/-- The active row of `k'` after an upsert for `k`. -/
theorem active_upsert (merge : V → V → V) (k k' : K) (v : V) (at_ : Nat)
    (tbl : Rows K V) :
    (tbl.upsert merge k v at_).active k'
      = if k' = k then some ((tbl.active k).elim v (merge · v))
        else tbl.active k' := by
  unfold upsert
  split
  case isTrue h =>
      have hpred : (fun r : Row K V => r.isActive && decide (r.key = k'))
          ∘ mergeRow merge k v
          = fun r => r.isActive && decide (r.key = k') := by
        funext r
        simp only [Function.comp_apply, mergeRow]
        split <;> rfl
      simp only [active, List.find?_map, hpred, Option.map_map]
      by_cases hk : k' = k
      · subst hk
        rw [if_pos rfl]
        obtain ⟨r, hr, hrk⟩ := List.mem_map.mp h
        obtain ⟨hmem, hact⟩ := List.mem_filter.mp hr
        cases hf : tbl.rows.find?
            fun r => r.isActive && decide (r.key = k') with
        | none =>
            have := List.find?_eq_none.mp hf r hmem
            simp [hact, hrk] at this
        | some r' =>
            have hpos := List.find?_some hf
            simp [mergeRow, hpos]
      · rw [if_neg hk]
        cases hf : tbl.rows.find?
            fun r => r.isActive && decide (r.key = k') with
        | none => rfl
        | some r' =>
            have hne : r'.key ≠ k := by
              rw [(find_some hf).2]
              exact hk
            simp [mergeRow, hne]
  case isFalse h =>
      have hnone : tbl.active k = none := by
        cases ho : tbl.active k with
        | none => rfl
        | some v' =>
            obtain ⟨r, hmem, hact, hkey, -⟩ := mem_active_iff.mpr ho
            exact absurd (List.mem_map.mpr
              ⟨r, List.mem_filter.mpr ⟨hmem, hact⟩, hkey⟩) h
      by_cases hk : k' = k
      · subst hk
        rw [if_pos rfl, hnone]
        simp only [active, Option.map_eq_none_iff] at hnone
        have hnew : (⟨k', v, at_, none⟩ : Row K V).isActive = true := rfl
        simp [active, List.find?_append, hnone, hnew]
      · rw [if_neg hk]
        have hne : (decide (k = k')) = false := by
          simp [Ne.symm hk]
        simp [active, List.find?_append, hne]

/-- The active row of `k'` after an unconditional close of `k`. -/
theorem active_close (k k' : K) (at_ : Nat) (tbl : Rows K V) :
    (tbl.close (fun _ => true) k at_).active k'
      = if k' = k then none else tbl.active k' := by
  simp only [close, active, List.find?_map]
  by_cases hk : k' = k
  · subst hk
    rw [if_pos rfl]
    simp only [Option.map_eq_none_iff, List.find?_eq_none]
    intro r _
    by_cases hr : (r.isActive && decide (r.key = k')) = true
    · rw [Function.comp_apply, closeRow, if_pos (by simp [hr])]
      simp [Row.isActive]
    · simp [closeRow, hr]
  · rw [if_neg hk]
    have hpred : (fun r : Row K V => r.isActive && decide (r.key = k'))
        ∘ closeRow (fun _ => true) k at_
        = fun r => r.isActive && decide (r.key = k') := by
      funext r
      simp only [Function.comp_apply, closeRow]
      split
      case isTrue h =>
          simp only [Bool.and_eq_true, decide_eq_true_eq] at h
          have hne : r.key ≠ k' := by
            rw [h.1.2]
            exact Ne.symm hk
          simp [hne]
      case isFalse => rfl
    rw [hpred]
    cases hf : tbl.rows.find?
        fun r => r.isActive && decide (r.key = k') with
    | none => rfl
    | some r' =>
        have hne : r'.key ≠ k := by
          rw [(find_some hf).2]
          exact hk
        simp [closeRow, hne]

end Rows

end Blackwall.Base
