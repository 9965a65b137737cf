import Mathlib

/-!
# Chains of checks

A fallible computation is a chain of checks in `Except`; it succeeds exactly
when every check does.  The lemmas turn the success of a chain into the
conjunction of its conditions.
-/

namespace CyfsGateway.Checks

variable {Error Value Item : Type}

theorem rejectIf_ok_iff {condition : Prop} [Decidable condition] {error : Error}
    {rest : Except Error Value} {value : Value} :
    (if condition then .error error else rest) = .ok value ↔ ¬condition ∧ rest = .ok value := by
  by_cases hcond : condition <;> simp [hcond]

theorem then_ok_iff {first : Except Error Value}
    {next : Value → Except Error Result} {result : Result} :
    (first >>= next) = .ok result ↔ ∃ value, first = .ok value ∧ next value = .ok result := by
  cases first <;> simp [bind, Except.bind]

theorem exists_unit_iff {Property : Unit → Prop} : (∃ value, Property value) ↔ Property () :=
  ⟨fun ⟨(), hprop⟩ => hprop, fun hprop => ⟨(), hprop⟩⟩

theorem done_ok_iff :
    (pure value : Except Error Value) = .ok result ↔ value = result := by simp [pure, Except.pure]

variable {convert : Item → Except Error Value}

theorem mapM_ok_iff {items : List Item} : items.mapM convert = .ok values ↔
      List.Forall₂ (fun item value => convert item = .ok value) items values := by
  induction items generalizing values with
  | nil =>
    rw [List.mapM_nil, done_ok_iff, List.forall₂_nil_left_iff]
    exact eq_comm
  | cons item items ih =>
    rw [List.mapM_cons]
    simp only [then_ok_iff, done_ok_iff, ih]
    constructor
    · rintro ⟨value, hvalue, rest, hrest, rfl⟩
      exact .cons hvalue hrest
    · intro hvalues
      cases hvalues with
      | cons hvalue hrest => exact ⟨_, hvalue, _, hrest, rfl⟩

/-- A list whose items all pass, with a property of every result. -/
theorem exists_mapM_ok {Property : Value → Prop} {items : List Item}
    (hitems : ∀ item ∈ items, ∃ value, convert item = .ok value ∧ Property value) :
    ∃ values, items.mapM convert = .ok values ∧ ∀ value ∈ values, Property value := by
  induction items with
  | nil => exact ⟨[], rfl, by simp⟩
  | cons item items ih =>
    rw [List.forall_mem_cons] at hitems
    obtain ⟨⟨value, hvalue, hprop⟩, hothers⟩ := hitems
    obtain ⟨values, hvalues, hproperties⟩ := ih hothers
    rw [mapM_ok_iff] at hvalues
    exact ⟨value :: values, mapM_ok_iff.mpr (.cons hvalue hvalues),
      List.forall_mem_cons.mpr ⟨hprop, hproperties⟩⟩

def reject (condition : Prop) [Decidable condition] (error : Error) : Except Error Unit :=
  if condition then .error error else .ok ()

/-! ## What a computation yields -/

/-- Whatever the computation yields has the property. -/
def Yields (Property : Value → Prop) (computation : Except Error Value) : Prop :=
  ∀ value, computation = .ok value → Property value

section Yields

theorem yields_pure (hprop : Property value) :
    Yields Property (pure value : Except Error Value) := by
  intro result hres
  rw [done_ok_iff] at hres
  exact hres ▸ hprop

theorem yields_throw : Yields Property (throw error : Except Error Value) :=
  nofun

theorem yields_then {first : Except Error Result} {next : Result → Except Error Value}
    (hnext : ∀ result, first = .ok result → Yields Property (next result)) :
    Yields Property (first >>= next) := by
  intro value hvalue
  obtain ⟨result, hres, hlast⟩ := then_ok_iff.mp hvalue
  exact hnext result hres value hlast

theorem yields_ite [Decidable condition]
    (hthen : condition → Yields Property computation)
    (helse : ¬ condition → Yields Property other) :
    Yields Property (if condition then computation else other) := by
  by_cases hcond : condition
  · rw [if_pos hcond]
    exact hthen hcond
  · rw [if_neg hcond]
    exact helse hcond

end Yields

end CyfsGateway.Checks
