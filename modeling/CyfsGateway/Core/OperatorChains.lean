import Mathlib

/-!
# Operands joined by short-circuit operators

A chain `first op operand op operand …` of computations.  Each result may end
the chain, and an operator may skip the operand behind it because of the result
before it.  The chain is read from the left, `((a op b) op c) …`: a skipped
operand leaves the result as it is and the next operator is consulted.  An
evaluator that returns at the first skipped operand computes the same whenever
an operator that skips is followed only by operators that skip as well.
-/

namespace CyfsGateway.OperatorChains

/-- A computation that may fail; what it did to the state stays done. -/
abbrev Run (State Failure Result : Type) := ExceptT Failure (StateM State) Result

section Runs

/-- Failures are not caught: the second computation starts where the first
one succeeded. -/
theorem bind_apply (first : Run State Failure First)
    (next : First → Run State Failure Second) (state : State) :
    (first >>= next) state = match first state with
      | (.ok value, after) => next value after
      | (.error failure, after) => (.error failure, after) := by
  change (match first state with
    | (outcome, after) => ExceptT.bindCont next outcome after) = _
  rcases first state with ⟨outcome, after⟩
  cases outcome <;> rfl

@[simp]
theorem pure_apply (value : First) (state : State) :
    (pure value : Run State Failure First) state = (.ok value, state) := rfl

@[simp]
theorem throw_apply (failure : Failure) (state : State) :
    (throw failure : Run State Failure First) state = (.error failure, state) := rfl

end Runs

variable {State Failure Result Operator : Type}

/-- When an operator skips the operand behind it, and which results end a
chain. -/
structure Joins (Operator Result : Type) where
  skips : Operator → Result → Bool
  ends : Result → Bool

abbrev Operand (State Failure Result Operator : Type) := Run State Failure Result × Operator

variable (joins : Joins Operator Result)

def Joins.passes (operator : Operator) (result : Result) : Bool :=
  joins.ends result || joins.skips operator result

/-- `left op right`. -/
def joined (left : Run State Failure Result) (operator : Operator)
    (right : Run State Failure Result) : Run State Failure Result :=
  left >>= fun result => if joins.passes operator result then pure result else right

/-- `((left op operand) op operand) …`. -/
def leftAssociative (left : Run State Failure Result) :
    Operator → List (Operand State Failure Result Operator) → Run State Failure Result
  | _, [] => left
  | operator, (right, next) :: rest => leftAssociative (joined joins left operator right) next rest

/-- The rest of a chain behind `result`, given up at the first operand that is
left out when `early` is set, and otherwise read on from the left. -/
def walk (early : Bool) (result : Result) :
    Operator → List (Operand State Failure Result Operator) → Run State Failure Result
  | _, [] => pure result
  | operator, (right, next) :: rest =>
    if joins.passes operator result then
      if early then pure result else walk early result next rest
    else right >>= fun result => walk early result next rest

def between : Operator → List (Operand State Failure Result Operator) → List Operator
  | _, [] => []
  | operator, (_, next) :: rest => operator :: between next rest

theorem leftAssociative_eq_walk (operator : Operator)
    (rest : List (Operand State Failure Result Operator)) :
    ∀ left : Run State Failure Result, leftAssociative joins left operator rest =
        left >>= fun result => walk joins false result operator rest := by
  induction rest generalizing operator with
  | nil => intro left; exact (bind_pure left).symm
  | cons operand rest ih =>
    intro left
    rw [leftAssociative, ih, joined, bind_assoc]
    congr 1
    funext result
    by_cases hpasses : joins.passes operator result
    · simp [walk, hpasses]
    · simp [walk, hpasses]

variable {joins}

/-- Whatever skips an operand behind `earlier` skips one behind `later`, so that once an
operand is skipped all that follow under such operators are. -/
def Joins.Persists (joins : Joins Operator Result) (earlier later : Operator) : Prop :=
  ∀ result, joins.skips earlier result → joins.skips later result

theorem passes_of_persists (hpersists : joins.Persists earlier later)
    (hpasses : joins.passes earlier result) :
    joins.passes later result := by
  simp only [Joins.passes, Bool.or_eq_true] at hpasses ⊢
  exact hpasses.imp_right (hpersists result)

/-- Nothing more runs while every operator passes its operand. -/
theorem walk_eq_pure (hpasses : ∀ later ∈ between operator rest, joins.passes later result) :
    walk joins early result operator rest = pure result := by
  induction rest generalizing operator with
  | nil => rfl
  | cons operand rest ih =>
    simp only [between, List.mem_cons, forall_eq_or_imp] at hpasses
    rw [walk, if_pos hpasses.1, ih hpasses.2, ite_self]

/-- Giving up early is the reading from the left when operators that skip
persist. -/
theorem walk_early_eq (hpersists : (between operator rest).Pairwise joins.Persists) :
    ∀ result, walk joins true result operator rest = walk joins false result operator rest := by
  induction rest generalizing operator with
  | nil => intro result; rfl
  | cons operand rest ih =>
    rw [between, List.pairwise_cons] at hpersists
    intro result
    by_cases hpasses : joins.passes operator result
    · rw [walk, walk, if_pos hpasses, if_pos hpasses]
      exact (walk_eq_pure fun later hlater =>
        passes_of_persists (hpersists.1 later hlater) hpasses).symm
    · rw [walk, walk, if_neg hpasses, if_neg hpasses]
      congr 1
      funext result
      exact ih hpersists.2 result

end CyfsGateway.OperatorChains
