import Mathlib

/-!
# Rosters

A roster is a table that remembers the order in which its ids were first
entered.  Entering an id again replaces its value and keeps its place.
-/

namespace CyfsGateway.Rosters

structure Roster (Id Value : Type) where
  ids : List Id
  value : Id → Value

variable {Id Value : Type} [DecidableEq Id]

def Roster.empty (blank : Value) : Roster Id Value where
  ids := []
  value _ := blank

def Roster.enter (roster : Roster Id Value) (entry : Id × Value) : Roster Id Value where
  ids := if entry.1 ∈ roster.ids then roster.ids else roster.ids ++ [entry.1]
  value := Function.update roster.value entry.1 entry.2

def Roster.enterAll (roster : Roster Id Value) (entries : List (Id × Value)) : Roster Id Value :=
  entries.foldl Roster.enter roster

variable {roster : Roster Id Value} {entry : Id × Value} {entries : List (Id × Value)}

/-- The value of the last entry of an id. -/
def lastValue (entries : List (Id × Value)) (id : Id) : Option Value :=
  (entries.reverse.find? fun entry => entry.1 = id).map Prod.snd

theorem enterAll_append :
    roster.enterAll (entries ++ more) = (roster.enterAll entries).enterAll more := List.foldl_append

theorem enterAll_concat :
    roster.enterAll (entries ++ [entry]) = (roster.enterAll entries).enter entry := by
  rw [enterAll_append]
  rfl

theorem eraseDups_concat (ids : List Id) (id : Id) : (ids ++ [id]).eraseDups =
      if id ∈ ids.eraseDups then ids.eraseDups else ids.eraseDups ++ [id] := by
  rw [List.eraseDups_append]
  by_cases hmem : id ∈ ids <;>
    simp [hmem, List.removeAll, List.eraseDups_cons]

/-- The ids are those entered, each where it came first. -/
theorem ids_enterAll_empty (blank : Value) (entries : List (Id × Value)) :
    ((Roster.empty blank).enterAll entries).ids = (entries.map Prod.fst).eraseDups := by
  induction entries using List.reverseRecOn with
  | nil => rfl
  | append_singleton entries entry ih =>
    rw [enterAll_concat, List.map_append, List.map_singleton, eraseDups_concat, ← ih]
    rfl

theorem nodup_enter (hnodup : roster.ids.Nodup) : (roster.enter entry).ids.Nodup := by
  simp only [Roster.enter]
  split
  · exact hnodup
  rename_i habsent
  rw [List.nodup_append]
  refine ⟨hnodup, List.nodup_singleton _, fun id hid other hother => ?_⟩
  rw [List.mem_singleton.mp hother]
  exact fun heq => habsent (heq ▸ hid)

theorem nodup_enterAll (hnodup : roster.ids.Nodup) : (roster.enterAll entries).ids.Nodup := by
  induction entries generalizing roster with
  | nil => exact hnodup
  | cons entry entries ih => exact ih (nodup_enter hnodup)

theorem value_enterAll (id : Id) :
    (roster.enterAll entries).value id = (lastValue entries id).getD (roster.value id) := by
  induction entries using List.reverseRecOn with
  | nil => rfl
  | append_singleton entries entry ih =>
    rw [enterAll_concat, lastValue, List.reverse_concat, List.find?_cons]
    by_cases hid : entry.1 = id
    · subst hid
      simp [Roster.enter]
    · have hother : id ≠ entry.1 := fun heq => hid heq.symm
      simpa [Roster.enter, hid, hother, lastValue] using ih

end CyfsGateway.Rosters
