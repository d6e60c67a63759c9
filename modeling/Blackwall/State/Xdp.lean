/-
The mirror of the XDP entries and the statements its journal runs
(`blackwall-state/src/xdp.rs`, migrations `0006` and `0007`).

Unlike the two history tables (`State.Journal`) a row has no lifecycle:
that it is there means that its entry is active. A record replaces the row
of its identity (kind, target and, for a block, prefix length) or deletes
it. A rate too large for the column's `i64` fails the whole call, as any
database error does, and a failed call changes no row.
-/
import Mathlib.Data.List.Nodup
import Blackwall.XdpPlane.Manager

namespace Blackwall.State

open XdpPlane (XdpAction XdpOrigin MirrorKey mirrorKeyOf)

/-- The two values of the `kind` column. -/
inductive EntryKind
  | block
  | rateLimit
  deriving DecidableEq, Repr

structure XdpEntryRow where
  kind : EntryKind
  target : IpAddr
  prefixlen : Option Nat
  ratePps : Option Nat
  burst : Option Nat
  origin : XdpOrigin
  victim : Option IpAddr
  deriving DecidableEq, Repr

/-- What the statements find a row by. -/
abbrev EntryId : Type := EntryKind × IpAddr × Option Nat

def XdpEntryRow.entryId (r : XdpEntryRow) : EntryId :=
  (r.kind, r.target, r.prefixlen)

/-- `xdp_entries`, in the order of insertion. -/
abbrev XdpEntries : Type := List XdpEntryRow

def xdpRecordRemove (kind : EntryKind) (target : IpAddr)
    (prefixlen : Option Nat) (tbl : XdpEntries) : XdpEntries :=
  tbl.filter fun r => r.entryId ≠ (kind, target, prefixlen)

/-- `xdp_record_apply`: delete, then insert. -/
def xdpRecordApply (row : XdpEntryRow) (tbl : XdpEntries) : XdpEntries :=
  xdpRecordRemove row.kind row.target row.prefixlen tbl ++ [row]

/-- `PgXdpJournal::record`. -/
def record (action : XdpAction) (origin : XdpOrigin) (tbl : XdpEntries) :
    XdpEntries :=
  match action with
  | .block net =>
      xdpRecordApply
        { kind := .block, target := net.addr
          prefixlen := some net.prefixLen, ratePps := none, burst := none
          origin, victim := none } tbl
  | .rateLimit src pps burst victim =>
      xdpRecordApply
        { kind := .rateLimit, target := src, prefixlen := none
          ratePps := some pps, burst := some burst, origin, victim } tbl
  | .unblock net =>
      xdpRecordRemove .block net.addr (some net.prefixLen) tbl
  | .clearRate src => xdpRecordRemove .rateLimit src none tbl

-- ===================================================== rows by identity

/-- The row a record leaves. -/
def rowOf (action : XdpAction) (origin : XdpOrigin) : Option XdpEntryRow :=
  match action with
  | .block net =>
      some ⟨.block, net.addr, some net.prefixLen, none, none, origin, none⟩
  | .rateLimit src pps burst victim =>
      some ⟨.rateLimit, src, none, some pps, some burst, origin, victim⟩
  | .unblock _ | .clearRate _ => none

/-- The identity of a source or network. -/
def idOf : MirrorKey → EntryId
  | .src a => (.rateLimit, a, none)
  | .net n => (.block, n.addr, some n.prefixLen)

/-- The row of a source or network. -/
def rowAt (tbl : XdpEntries) (k : MirrorKey) : Option XdpEntryRow :=
  tbl.find? fun r => r.entryId = idOf k

theorem idOf_injective : Function.Injective idOf := by
  intro k k' h
  cases k with
  | src a =>
      cases k' with
      | src b =>
          simp only [idOf, Prod.mk.injEq, true_and, and_true] at h
          rw [h]
      | net n => simp [idOf] at h
  | net n =>
      cases k' with
      | src b => simp [idOf] at h
      | net m =>
          simp only [idOf, Prod.mk.injEq, true_and, Option.some.injEq] at h
          rw [IpNet.ext_addr h.1 h.2]

theorem rowOf_id {a : XdpAction} {o : XdpOrigin} {r : XdpEntryRow}
    (h : rowOf a o = some r) : r.entryId = idOf (mirrorKeyOf a) := by
  cases a with
  | rateLimit src pps burst victim =>
      cases h
      rfl
  | block net =>
      cases h
      rfl
  | unblock net => cases h
  | clearRate src => cases h

/-- A record deletes the row of its identity and inserts the new one, if
there is one. -/
theorem record_eq (a : XdpAction) (o : XdpOrigin) (tbl : XdpEntries) :
    record a o tbl = (tbl.filter fun r => r.entryId ≠ idOf (mirrorKeyOf a))
      ++ (rowOf a o).toList := by
  cases a with
  | rateLimit src pps burst victim => rfl
  | block net => rfl
  | unblock net => exact (List.append_nil _).symm
  | clearRate src => exact (List.append_nil _).symm

theorem rowAt_record (a : XdpAction) (o : XdpOrigin) (tbl : XdpEntries)
    (k : MirrorKey) :
    rowAt (record a o tbl) k
      = if k = mirrorKeyOf a then rowOf a o else rowAt tbl k := by
  rw [record_eq, rowAt, List.find?_append, List.find?_filter]
  split
  · next hk =>
    have hnone : (tbl.find? fun r => decide
        (decide (r.entryId ≠ idOf (mirrorKeyOf a)) = true
          ∧ decide (r.entryId = idOf k) = true)) = none := by
      rw [List.find?_eq_none]
      intro r _
      simp [hk]
    rw [hnone]
    cases hrow : rowOf a o with
    | none => rfl
    | some r => simp [rowOf_id hrow, hk]
  · next hk =>
    have hne : idOf k ≠ idOf (mirrorKeyOf a) := fun h =>
      hk (idOf_injective h)
    have hother : (fun r : XdpEntryRow => decide
        (decide (r.entryId ≠ idOf (mirrorKeyOf a)) = true
          ∧ decide (r.entryId = idOf k) = true))
        = fun r : XdpEntryRow => decide (r.entryId = idOf k) := by
      funext r
      by_cases h : r.entryId = idOf k
      · simp [h, hne]
      · simp [h]
    rw [hother]
    change (rowAt tbl k).or _ = _
    have hlast : ((rowOf a o).toList.find? fun r => r.entryId = idOf k)
        = none := by
      cases hrow : rowOf a o with
      | none => rfl
      | some r => simp [rowOf_id hrow, Ne.symm hne]
    rw [hlast, Option.or_none]

-- ========================================================= well-formedness

/-- One row an identity, and each that of a source or network. -/
structure Unique (tbl : XdpEntries) : Prop where
  nodup : (tbl.map XdpEntryRow.entryId).Nodup
  keyed : ∀ r ∈ tbl, ∃ k, r.entryId = idOf k

theorem Unique.empty : Unique [] :=
  ⟨List.nodup_nil, fun _ hr => absurd hr List.not_mem_nil⟩

theorem Unique.record {tbl : XdpEntries} (h : Unique tbl) (a : XdpAction)
    (o : XdpOrigin) : Unique (record a o tbl) := by
  rw [record_eq]
  constructor
  · rw [List.map_append, List.nodup_append]
    refine ⟨h.nodup.sublist (List.filter_sublist.map _), ?_, ?_⟩
    · cases rowOf a o with
      | none => exact List.nodup_nil
      | some r => exact List.nodup_singleton _
    · intro i hi j hj hij
      obtain ⟨r, hr, rfl⟩ := List.mem_map.mp hi
      obtain ⟨r', hr', rfl⟩ := List.mem_map.mp hj
      rw [Option.mem_toList] at hr'
      have := (List.mem_filter.mp hr).2
      simp [hij, rowOf_id hr'] at this
  · intro r hr
    rcases List.mem_append.mp hr with hr | hr
    · exact h.keyed r (List.mem_filter.mp hr).1
    · exact ⟨_, rowOf_id (Option.mem_toList.mp hr)⟩

/-- The rows are those found by identity. -/
theorem Unique.mem_iff {tbl : XdpEntries} (h : Unique tbl)
    {r : XdpEntryRow} : r ∈ tbl ↔ ∃ k, rowAt tbl k = some r := by
  constructor
  · intro hr
    obtain ⟨k, hk⟩ := h.keyed r hr
    refine ⟨k, ?_⟩
    cases hfind : rowAt tbl k with
    | none =>
        have := List.find?_eq_none.mp hfind r hr
        simp [hk] at this
    | some r' =>
        have hid : r'.entryId = r.entryId := by
          have := List.find?_some hfind
          simp only [decide_eq_true_eq] at this
          rw [this, hk]
        rw [List.inj_on_of_nodup_map h.nodup
          (List.mem_of_find?_eq_some hfind) hr hid]
  · rintro ⟨k, hk⟩
    exact List.mem_of_find?_eq_some hk

end Blackwall.State
