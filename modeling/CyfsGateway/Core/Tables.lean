import Mathlib

/-!
# Keyed tables

A table of a relational store is a list of rows under their primary keys.
What a table holds is what `lookup` finds; the lemmas say so for the three
statements a store uses: upsert, delete and update.
-/

namespace CyfsGateway.Tables

variable {Key Row : Type} [DecidableEq Key]

abbrev Table (Key Row : Type) := List (Key × Row)

def upsert (key : Key) (row : Row) (table : Table Key Row) : Table Key Row :=
  (key, row) :: table.filter fun entry => entry.1 ≠ key

variable (condition : Key → Bool)

def deleteWhere (table : Table Key Row) : Table Key Row :=
  table.filter fun entry => !condition entry.1

def updateWhere (change : Row → Row) (table : Table Key Row) : Table Key Row :=
  table.map fun entry =>
    if condition entry.1 then (entry.1, change entry.2) else entry

variable [BEq Key] [LawfulBEq Key]

theorem lookup_filter_key (table : Table Key Row) (key : Key) :
    (table.filter fun entry => condition entry.1).lookup key =
      if condition key then table.lookup key else none := by
  induction table with
  | nil => simp
  | cons entry table ih =>
    obtain ⟨other, row⟩ := entry
    by_cases hkey : key = other
    · subst hkey
      by_cases hcond : condition key = true
      · simp [hcond]
      · simp only [Bool.not_eq_true] at hcond
        simp [hcond, ih]
    · have hlook : ((other, row) :: table).lookup key = table.lookup key := by
        simp [List.lookup_cons, beq_eq_false_iff_ne.mpr hkey]
      rw [hlook, ← ih, List.filter_cons]
      split
      · simp [List.lookup_cons, beq_eq_false_iff_ne.mpr hkey]
      · rfl

variable {table : Table Key Row}

theorem lookup_filter_kept (hlook : table.lookup key = some row) (hkeep : keep (key, row)) :
    (table.filter keep).lookup key = some row := by
  induction table with
  | nil => cases hlook
  | cons entry table ih =>
    obtain ⟨other, found⟩ := entry
    rw [List.lookup_cons] at hlook
    by_cases hkey : key = other
    · subst hkey
      rw [beq_self_eq_true] at hlook
      cases hlook
      rw [List.filter_cons_of_pos hkeep, List.lookup_cons, beq_self_eq_true]
    · rw [beq_eq_false_iff_ne.mpr hkey] at hlook
      rw [List.filter_cons]
      split
      · rw [List.lookup_cons, beq_eq_false_iff_ne.mpr hkey]
        exact ih hlook
      · exact ih hlook

theorem lookup_upsert (key : Key) (row : Row) (table : Table Key Row) (other : Key) :
    (upsert key row table).lookup other = if other = key then some row else table.lookup other := by
  by_cases hkey : other = key
  · simp [upsert, hkey]
  · rw [upsert, List.lookup_cons, beq_eq_false_iff_ne.mpr hkey,
      lookup_filter_key (fun candidate => decide (candidate ≠ key))]
    simp [hkey]

theorem lookup_deleteWhere (table : Table Key Row) (key : Key) :
    (deleteWhere condition table).lookup key =
      if condition key then none else table.lookup key := by
  rw [deleteWhere, lookup_filter_key fun candidate => !condition candidate]
  cases condition key <;> simp

theorem lookup_isSome_iff : (table.lookup key).isSome = true ↔ ∃ entry ∈ table, entry.1 = key := by
  induction table with
  | nil => simp
  | cons entry table ih =>
    obtain ⟨other, row⟩ := entry
    by_cases hkey : key = other
    · simp [hkey]
    · rw [List.lookup_cons, beq_eq_false_iff_ne.mpr hkey]
      simp [ih, Ne.symm hkey]

/-! ## Iteration -/

/-- The rows that `lookup` finds. -/
def rows (table : Table Key Row) : Table Key Row :=
  table.filterMap fun entry => (table.lookup entry.1).map fun row => (entry.1, row)

theorem mem_rows_iff : (key, row) ∈ rows table ↔ table.lookup key = some row := by
  constructor
  · intro hrow
    obtain ⟨entry, -, hfound⟩ := List.mem_filterMap.mp hrow
    obtain ⟨found, hlook, hpair⟩ := Option.map_eq_some_iff.mp hfound
    cases hpair
    exact hlook
  · intro hlook
    have hsome : (table.lookup key).isSome = true := by rw [hlook]; rfl
    obtain ⟨entry, hentry, rfl⟩ := lookup_isSome_iff.mp hsome
    refine List.mem_filterMap.mpr ⟨entry, hentry, ?_⟩
    rw [hlook]
    rfl

/-! ## Buckets -/

/-- Take something out of the bucket under a key; an empty bucket is deleted. -/
def shrink (key : Key) (remove : Row → Row) (isEmpty : Row → Bool) (table : Table Key Row) :
    Table Key Row :=
  match table.lookup key with
  | none => table
  | some bucket =>
    if isEmpty (remove bucket) then deleteWhere (fun other => decide (other = key)) table
    else upsert key (remove bucket) table

theorem lookup_shrink (key : Key) (remove : Row → Row) (isEmpty : Row → Bool)
    (table : Table Key Row) (other : Key) :
    (shrink key remove isEmpty table).lookup other = if other = key then
        (table.lookup key).bind fun bucket =>
          if isEmpty (remove bucket) then none else some (remove bucket)
      else table.lookup other := by
  unfold shrink
  cases hbuck : table.lookup key with
  | none =>
    by_cases hkey : other = key
    · rw [if_pos hkey, hkey]
      exact hbuck
    · rw [if_neg hkey]
  | some bucket =>
    rw [Option.bind_some]
    dsimp only
    by_cases hempty : isEmpty (remove bucket)
    · rw [if_pos hempty, if_pos hempty, lookup_deleteWhere]
      by_cases hkey : other = key <;> simp [hkey]
    · rw [if_neg hempty, if_neg hempty, lookup_upsert]

end CyfsGateway.Tables
