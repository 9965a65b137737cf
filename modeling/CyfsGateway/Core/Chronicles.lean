import Mathlib

/-!
# Chronicles

A chronicle numbers its entries from one across all of its periods.  The
entries of closed periods stay as they are, the last entry of the current
period may be amended, and every entry of the current period refers back to the
one before it in the same period.
-/

namespace CyfsGateway.Chronicles

/-- The entries of the closed periods and those of the current one, both oldest first.
Closing a period keeps its entries but lets the next one start without any. -/
structure Chronicle (Entry : Type) where
  closed : List Entry := []
  live : List Entry := []

namespace Chronicle

variable {Entry : Type} (chronicle : Chronicle Entry)

def entries : List Entry := chronicle.closed ++ chronicle.live

variable (entry : Entry) (change : Entry → Entry) (position : Nat)

def lookup : Option Entry :=
  if position = 0 then none else chronicle.entries[position - 1]?

/-- The position of the last entry of the current period, or zero. -/
def current : Nat :=
  if chronicle.live = [] then 0 else chronicle.entries.length

def add : Chronicle Entry :=
  { chronicle with live := chronicle.live ++ [entry] }

def amend : Chronicle Entry :=
  { chronicle with live := chronicle.live.modify (chronicle.live.length - 1) change }

def restart : Chronicle Entry where
  closed := chronicle.entries
  live := []

/-- Every entry of the current period refers to the one before it. -/
def Linked (previous : Entry → Nat) (chronicle : Chronicle Entry) : Prop :=
  ∀ index entry, chronicle.live[index]? = some entry →
    previous entry = if index = 0 then 0 else chronicle.closed.length + index

def Indexed (Fits : Nat → Entry → Prop) (chronicle : Chronicle Entry) : Prop :=
  ∀ position entry, chronicle.lookup position = some entry → Fits position entry

/-! ## Positions -/

variable {chronicle : Chronicle Entry}

@[simp]
theorem lookup_zero : chronicle.lookup 0 = none := rfl

@[simp]
theorem lookup_succ : chronicle.lookup (position + 1) = chronicle.entries[position]? := rfl

theorem lookup_eq_none_iff {position} : chronicle.lookup position = none ↔
      position = 0 ∨ chronicle.entries.length < position := by
  cases position with
  | zero => simp
  | succ position => simp

theorem lookup_live :
    chronicle.lookup (chronicle.closed.length + index + 1) = chronicle.live[index]? := by
  rw [lookup_succ, entries, List.getElem?_append_right (Nat.le_add_right _ _),
    Nat.add_sub_cancel_left]

theorem lookup_closed {position} (hpos : 0 < position)
    (hclosed : position ≤ chronicle.closed.length) :
    chronicle.lookup position = chronicle.closed[position - 1]? := by
  rw [lookup, if_neg (by omega), entries, List.getElem?_append_left (by omega)]

/-- No position, one of a closed period, or one of the current period or after. -/
theorem position_cases (chronicle : Chronicle Entry) (position : Nat) :
    position = 0 ∨ (0 < position ∧ position ≤ chronicle.closed.length) ∨
      ∃ index, position = chronicle.closed.length + index + 1 := by
  rcases Nat.eq_zero_or_pos position with hzero | hpos
  · exact .inl hzero
  · rcases Nat.lt_or_ge chronicle.closed.length position with hlive | hclosed
    · exact .inr (.inr ⟨position - chronicle.closed.length - 1, by omega⟩)
    · exact .inr (.inl ⟨hpos, hclosed⟩)

theorem length_entries (chronicle : Chronicle Entry) :
    chronicle.entries.length = chronicle.closed.length + chronicle.live.length := List.length_append

theorem current_le (chronicle : Chronicle Entry) :
    chronicle.current ≤ chronicle.entries.length := by
  rw [current]
  split
  · exact Nat.zero_le _
  · exact Nat.le_refl _

theorem current_eq_zero_or (chronicle : Chronicle Entry) :
    chronicle.current = 0 ∨ chronicle.closed.length < chronicle.current := by
  rw [current]
  split
  · exact .inl rfl
  rename_i hlive
  have hpos := List.length_pos_iff.mpr hlive
  rw [length_entries]
  omega

theorem lookup_current (hcur : chronicle.current ≠ 0) :
    ∃ entry, chronicle.lookup chronicle.current = some entry := by
  have hbound := chronicle.current_le
  rw [← Option.ne_none_iff_exists', ne_eq, lookup_eq_none_iff]
  omega

@[simp]
theorem entries_restart : chronicle.restart.entries = chronicle.entries := List.append_nil _

@[simp]
theorem current_restart : chronicle.restart.current = 0 := rfl

@[simp]
theorem entries_add :
    (chronicle.add entry).entries = chronicle.entries ++ [entry] := by simp [entries, add]

theorem current_add : (chronicle.add entry).current = chronicle.entries.length + 1 := by
  rw [current, if_neg (by simp [add]), entries_add, List.length_append, List.length_singleton]

theorem lookup_add : (chronicle.add entry).lookup position =
      if position = chronicle.entries.length + 1 then some entry
      else chronicle.lookup position := by
  cases position with
  | zero => simp
  | succ position =>
    rw [lookup_succ, lookup_succ, entries_add]
    rcases Nat.lt_trichotomy position chronicle.entries.length with hlt | rfl | hgt
    · rw [if_neg (by omega), List.getElem?_append_left hlt]
    · rw [if_pos rfl, List.getElem?_append_right (Nat.le_refl _), Nat.sub_self]
      rfl
    · rw [if_neg (by omega), List.getElem?_eq_none (Nat.le_of_lt hgt), List.getElem?_eq_none]
      rw [List.length_append, List.length_singleton]
      exact hgt

@[simp]
theorem length_entries_amend :
    (chronicle.amend change).entries.length = chronicle.entries.length := by simp [entries, amend]

@[simp]
theorem current_amend : (chronicle.amend change).current = chronicle.current := by
  have hlive : (chronicle.amend change).live = [] ↔ chronicle.live = [] := by
    rw [← List.length_eq_zero_iff, ← List.length_eq_zero_iff, amend, List.length_modify]
  rw [current, current, length_entries_amend]
  simp only [hlive]

theorem lookup_amend : (chronicle.amend change).lookup position =
      if position = chronicle.current then (chronicle.lookup position).map change
      else chronicle.lookup position := by
  rcases chronicle.position_cases position with rfl | hclosed | ⟨index, rfl⟩
  · simp
  · have hne : position ≠ chronicle.current := by
      rcases chronicle.current_eq_zero_or with hzero | hlt <;> omega
    have hamended : (chronicle.amend change).lookup position =
        chronicle.closed[position - 1]? := lookup_closed hclosed.1 hclosed.2
    rw [if_neg hne, hamended, lookup_closed hclosed.1 hclosed.2]
  · have hlive : (chronicle.amend change).lookup (chronicle.closed.length + index + 1) =
        (chronicle.amend change).live[index]? := lookup_live
    rw [hlive, lookup_live, amend, List.getElem?_modify]
    by_cases hindex : index < chronicle.live.length
    · have hlast : chronicle.live.length - 1 = index ↔
          chronicle.closed.length + index + 1 = chronicle.current := by
        rw [current, if_neg (List.ne_nil_of_length_pos (by omega)), length_entries]
        omega
      simp only [hlast]
      split <;> simp
    · simp [List.getElem?_eq_none (Nat.le_of_not_lt hindex)]

/-! ## References -/

section Linked

variable {previous : Entry → Nat}

theorem linked_empty : Linked previous ({} : Chronicle Entry) := by
  intro index entry hentry
  simp at hentry

theorem Linked.restart : Linked previous chronicle.restart := by
  intro index entry hentry
  simp [Chronicle.restart] at hentry

theorem Linked.add (hlinked : Linked previous chronicle) {entry}
    (hprev : previous entry = chronicle.current) :
    Linked previous (chronicle.add entry) := by
  intro index found hfound
  rw [Chronicle.add] at hfound ⊢
  rcases Nat.lt_trichotomy index chronicle.live.length with hlt | rfl | hgt
  · rw [List.getElem?_append_left hlt] at hfound
    exact hlinked index found hfound
  · rw [List.getElem?_append_right (Nat.le_refl _), Nat.sub_self] at hfound
    obtain rfl : entry = found := Option.some.inj hfound
    rw [hprev, current, length_entries]
    simp only [List.length_eq_zero_iff]
  · rw [List.getElem?_eq_none] at hfound
    · cases hfound
    · rw [List.length_append, List.length_singleton]
      exact hgt

theorem Linked.amend (hlinked : Linked previous chronicle) {change}
    (hprev : ∀ entry, previous (change entry) = previous entry) :
    Linked previous (chronicle.amend change) := by
  intro index found hfound
  rw [Chronicle.amend, List.getElem?_modify] at hfound
  obtain ⟨entry, hentry, rfl⟩ := Option.map_eq_some_iff.mp hfound
  have hsame := hlinked index entry hentry
  split <;> simp_all [Chronicle.amend]

def back (previous : Entry → Nat) (chronicle : Chronicle Entry) (position : Nat) : Nat :=
  ((chronicle.lookup position).map previous).getD 0

theorem back_zero : back previous chronicle 0 = 0 := rfl

/-- References go back, and stay in the current period. -/
theorem Linked.back_lt (hlinked : Linked previous chronicle) {position}
    (hlive : chronicle.closed.length < position) (hstored : position ≤ chronicle.entries.length) :
    back previous chronicle position < position ∧ (back previous chronicle position = 0 ∨
        chronicle.closed.length < back previous chronicle position) := by
  obtain ⟨index, rfl⟩ : ∃ index, position = chronicle.closed.length + index + 1 :=
    ⟨position - chronicle.closed.length - 1, by omega⟩
  rw [length_entries] at hstored
  obtain ⟨entry, hentry⟩ : ∃ entry, chronicle.live[index]? = some entry :=
    ⟨_, List.getElem?_eq_getElem (by omega)⟩
  rw [back, lookup_live, hentry, Option.map_some, Option.getD_some, hlinked index entry hentry]
  split <;> omega

/-- Walking back from the current entry visits entries of the current period
only. -/
theorem Linked.walk_live (hlinked : Linked previous chronicle) (steps : Nat) :
    (back previous chronicle)^[steps] chronicle.current = 0 ∨
      (chronicle.closed.length < (back previous chronicle)^[steps] chronicle.current ∧
        (back previous chronicle)^[steps] chronicle.current ≤ chronicle.entries.length) := by
  induction steps with
  | zero =>
    exact chronicle.current_eq_zero_or.imp_right fun hlive => ⟨hlive, chronicle.current_le⟩
  | succ steps ih =>
    rw [Function.iterate_succ_apply']
    rcases ih with hzero | ⟨hlive, hstored⟩
    · rw [hzero]
      exact .inl back_zero
    · obtain ⟨hlt, hcases⟩ := hlinked.back_lt hlive hstored
      exact hcases.imp_right fun hinside => ⟨hinside, by omega⟩

theorem Linked.walk_le (hlinked : Linked previous chronicle) (steps : Nat) :
    (back previous chronicle)^[steps] chronicle.current ≤ chronicle.current - steps := by
  induction steps with
  | zero => exact Nat.le_refl _
  | succ steps ih =>
    have hvisited := hlinked.walk_live steps
    rw [Function.iterate_succ_apply']
    rcases hvisited with hzero | ⟨hlive, hstored⟩
    · rw [hzero, back_zero]
      exact Nat.zero_le _
    · have hlt := (hlinked.back_lt hlive hstored).1
      omega

end Linked

section Indexed

theorem indexed_empty : Indexed Fits ({} : Chronicle Entry) := by
  intro position entry hentry
  cases position <;> simp [entries] at hentry

theorem Indexed.restart (hidx : Indexed Fits chronicle) : Indexed Fits chronicle.restart := by
  intro position entry hentry
  refine hidx position entry ?_
  rwa [lookup, entries_restart] at hentry

theorem Indexed.add (hidx : Indexed Fits chronicle) {entry}
    (hfits : Fits (chronicle.entries.length + 1) entry) :
    Indexed Fits (chronicle.add entry) := by
  intro position found hfound
  rw [lookup_add] at hfound
  split at hfound
  · rename_i hposition
    obtain rfl := Option.some.inj hfound
    rwa [hposition]
  · exact hidx position found hfound

theorem Indexed.amend (hidx : Indexed Fits chronicle) {change}
    (hfits : ∀ position entry, Fits position entry → Fits position (change entry)) :
    Indexed Fits (chronicle.amend change) := by
  intro position found hfound
  rw [lookup_amend] at hfound
  split at hfound
  · obtain ⟨entry, hentry, rfl⟩ := Option.map_eq_some_iff.mp hfound
    exact hfits position entry (hidx position entry hentry)
  · exact hidx position found hfound

end Indexed

/-- A chronicle whose entries extend those of another keeps its positions. -/
theorem lookup_of_grown {later : Chronicle Entry} (hgrown : chronicle.entries <+: later.entries)
    {position} (hstored : position ≤ chronicle.entries.length) :
    later.lookup position = chronicle.lookup position := by
  obtain ⟨added, hadded⟩ := hgrown
  cases position with
  | zero => rfl
  | succ position => rw [lookup_succ, lookup_succ, ← hadded, List.getElem?_append_left hstored]

end Chronicle

end CyfsGateway.Chronicles
