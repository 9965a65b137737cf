import Mathlib

/-!
# Stateful computations that can revert

A transaction either returns a value together with the state it leaves, or
reverts and leaves no trace.  This file fixes that monad and its inversion
rules: a successful run of a composed computation is taken apart into the
successful runs of its pieces, so that no proof about a program has to unfold
the monad again.
-/

namespace CyfsGateway.Reverting

/-- A computation over the state `State` that returns a `Value` or reverts
with an `Error`. -/
def Exec (State Error Value : Type) : Type := State → Except Error (Value × State)

variable {State Error Value Next : Type}

instance : Monad (Exec State Error) where
  pure value := fun state => .ok (value, state)
  bind first next := fun state =>
    match first state with
    | .ok (value, middle) => next value middle
    | .error error => .error error

def revert (error : Error) : Exec State Error Value := fun _ => .error error

def revertIf (condition : Prop) [Decidable condition] (error : Error) : Exec State Error Unit :=
  if condition then revert error else pure ()

def runIf (condition : Prop) [Decidable condition] (body : Exec State Error Unit) :
    Exec State Error Unit :=
  if condition then body else pure ()

/-- Evaluate a read-only, possibly reverting function of the state. -/
def view (query : State → Except Error Value) : Exec State Error Value :=
  fun state =>
    match query state with
    | .ok value => .ok (value, state)
    | .error error => .error error

def modify (change : State → State) : Exec State Error Unit := fun state => .ok ((), change state)

def forEach {Item : Type} (body : Item → Exec State Error Unit) : List Item → Exec State Error Unit
  | [] => pure ()
  | item :: rest => do
      body item
      forEach body rest

/-! ## Inversion of successful runs -/

variable {state after : State}

@[simp]
theorem pure_ok_iff : (pure value : Exec State Error Value) state = .ok (result, after) ↔
      value = result ∧ state = after := by simp [pure]

variable {next : Value → Exec State Error Next}

theorem bind_ok_iff {first result} :
    (first >>= next) state = .ok (result, after) ↔
      ∃ value middle, first state = .ok (value, middle) ∧
        next value middle = .ok (result, after) := by
  cases hfirst : first state with
  | error error => simp [bind, hfirst]
  | ok pair =>
    obtain ⟨value, middle⟩ := pair
    simp only [bind, hfirst, Except.ok.injEq, Prod.mk.injEq]
    constructor
    · intro hnext
      exact ⟨value, middle, ⟨rfl, rfl⟩, hnext⟩
    · rintro ⟨_, _, ⟨rfl, rfl⟩, hnext⟩
      exact hnext

@[simp]
theorem revert_ok_iff : (revert error : Exec State Error Value) state = .ok (result, after) ↔
      False := by simp [revert]

variable {result : Unit} {state after : State}

@[simp]
theorem revertIf_ok_iff [Decidable condition] :
    revertIf condition error state = .ok (result, after) ↔ ¬condition ∧ state = after := by
  by_cases hcond : condition <;> simp [revertIf, hcond]

@[simp]
theorem view_ok_iff {result} :
    view query state = .ok (result, after) ↔ query state = .ok result ∧ state = after := by
  cases hquery : query state <;> simp [view, hquery]

@[simp]
theorem modify_ok_iff :
    (modify change : Exec State Error Unit) state = .ok (result, after) ↔ change state = after := by
  simp [modify]

theorem runIf_ok_iff [Decidable condition] {body : Exec State Error Unit} :
    runIf condition body state = .ok (result, after) ↔
      (condition ∧ body state = .ok (result, after)) ∨ (¬condition ∧ state = after) := by
  by_cases hcond : condition <;> simp [runIf, hcond]

theorem revertIf_bind_ok_iff [Decidable condition] {next : Unit → Exec State Error Next}
    {result : Next} :
    (revertIf condition error >>= next) state = .ok (result, after) ↔
      ¬condition ∧ next () state = .ok (result, after) := by
  simp [bind_ok_iff, and_assoc, Unique.exists_iff]

theorem view_bind_ok_iff {result} : (view query >>= next) state = .ok (result, after) ↔
      ∃ value, query state = .ok value ∧ next value state = .ok (result, after) := by
  simp [bind_ok_iff, and_assoc]

theorem modify_bind_ok_iff {change : State → State}
    {next : Unit → Exec State Error Next} {result : Next} :
    ((modify change : Exec State Error Unit) >>= next) state = .ok (result, after) ↔
      next () (change state) = .ok (result, after) := by simp [bind_ok_iff, Unique.exists_iff]

theorem forEach_cons_ok_iff {body : Item → Exec State Error Unit} {item : Item} {rest : List Item} :
    forEach body (item :: rest) state = .ok (result, after) ↔
      ∃ middle, body item state = .ok ((), middle) ∧
        forEach body rest middle = .ok (result, after) := by
  simp [forEach, bind_ok_iff, Unique.exists_iff]

theorem forM_ok_iff {check : Item → Except Error Unit} {items : List Item} :
    items.forM check = .ok () ↔ ∀ item ∈ items, check item = .ok () := by
  induction items with
  | nil => simp [pure, Except.pure]
  | cons item rest ih =>
    change (check item >>= fun _ => rest.forM check) = .ok () ↔ _
    rw [List.forall_mem_cons, ← ih]
    cases hitem : check item <;> simp [bind, Except.bind]

end CyfsGateway.Reverting
