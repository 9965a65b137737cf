import CyfsGateway.ProcessChain.Execution

/-!
# Expression chains from left to right

The language reads `e1 op1 e2 op2 …` from the left, `((e1 op1 e2) op2 e3) …`,
and short-circuits on `&&` and `||`.  `readExpression` is that reading; the
executor is compared with it.  It returns from a chain at the first operand an
operator skips, where the reading goes on with the next operator, so the two
agree for every outcome of the commands exactly on chains that do not mix the
two operators.
-/

namespace CyfsGateway.ProcessChain

open OperatorChains (Joins Operand)

variable {World Executor : Type}

/-- `&&` skips its right operand behind an error, `||` behind a success; a
control result ends the chain. -/
def shortCircuits : Joins (Option Operator) CommandResult where
  skips
    | some .and, result => !result.isSuccess
    | some .or, result => result.isSuccess
    | _, _ => false
  ends := CommandResult.isControl

variable (location : Location)

def operandRun (operand : ChainOperand World) : Run World CommandResult :=
  wrapping location .runtimeExpressionExecute "Failed to execute expression"
    operand.2.1 >>= applyPrefix location operand.1

def operandRuns (operands : List (ChainOperand World)) :
    List (Operand World Failure CommandResult (Option Operator)) :=
  operands.map fun operand => (operandRun location operand, operand.2.2)

def settled (allowControl : Bool) (controlErrorMessage : String)
    (result : CommandResult) : Run World CommandResult :=
  if result.isControl then settleControl location allowControl controlErrorMessage result
  else pure result

/-- `((e1 op1 e2) op2 e3) …`. -/
def readExpressionChain (allowControl : Bool) (controlErrorMessage : String) :
    List (ChainOperand World) → Run World CommandResult
  | [] => pure .empty
  | first :: rest =>
    OperatorChains.leftAssociative shortCircuits (operandRun location first)
      first.2.2 (operandRuns location rest) >>=
      settled location allowControl controlErrorMessage

mutual

def readExpression (command : CommandItem Executor → Run World CommandResult)
    (location : Location) : Expression Executor → Run World CommandResult
  | .command item => executeCommandExpression command location item
  | .group chain => readExpressionChain location true "" (readOperands command location chain)

def readOperands (command : CommandItem Executor → Run World CommandResult) (location : Location) :
    ExpressionChain Executor → List (ChainOperand World)
  | [] => []
  | (prefixOp, expression, postOp) :: rest =>
    (prefixOp, readExpression command location expression, postOp) ::
      readOperands command location rest

end

/-! ## Both as one walk -/

/-- A chain before its control result is settled. -/
def walkChain (early : Bool) (location : Location) :
    List (ChainOperand World) → Run World CommandResult
  | [] => pure .empty
  | first :: rest =>
    operandRun location first >>= fun result =>
      OperatorChains.walk shortCircuits early result first.2.2 (operandRuns location rest)

theorem settled_of_not_control {location} (hctl : ¬ result.isControl) :
    (settled location allowControl controlErrorMessage result : Run World _) = pure result :=
  if_neg hctl

theorem readExpressionChain_eq_walk (location : Location) (allowControl : Bool)
    (controlErrorMessage : String) (operands : List (ChainOperand World)) :
    readExpressionChain location allowControl controlErrorMessage operands =
      walkChain false location operands >>= settled location allowControl controlErrorMessage := by
  cases operands with
  | nil => rfl
  | cons first rest =>
    rw [readExpressionChain, OperatorChains.leftAssociative_eq_walk]
    rfl

theorem stop_iff_passes {Value : Type} (hctl : ¬ result.isControl)
    (postOp : Option Operator) (stop next : Value) :
    (match postOp, result.isSuccess with
      | some .and, false => stop
      | some .or, true => stop
      | _, _ => next) =
      if shortCircuits.passes postOp result then stop else next := by
  rcases postOp with _ | operator
  · simp [Joins.passes, shortCircuits, hctl]
  · cases operator <;> cases hsuccess : result.isSuccess <;>
      simp [Joins.passes, shortCircuits, hctl, hsuccess]

theorem executeExpressionChain_behind (location : Location) (allowControl : Bool)
    (controlErrorMessage : String) (rest : List (ChainOperand World)) :
    ∀ (result : CommandResult) (postOp : Option Operator), (if result.isControl then
        settleControl location allowControl controlErrorMessage result
      else
        match postOp, result.isSuccess with
        | some .and, false => pure result
        | some .or, true => pure result
        | _, _ => executeExpressionChain location allowControl controlErrorMessage result rest) =
        OperatorChains.walk shortCircuits true result postOp (operandRuns location rest) >>=
          settled location allowControl controlErrorMessage := by
  induction rest with
  | nil =>
    intro result postOp
    rw [operandRuns, List.map_nil, OperatorChains.walk, pure_bind, settled]
    by_cases hctl : result.isControl
    · rw [if_pos hctl, if_pos hctl]
    · rw [if_neg hctl, if_neg hctl, stop_iff_passes hctl]
      exact ite_self _
  | cons first rest ih =>
    intro result postOp
    obtain ⟨prefixOp, expression, next⟩ := first
    rw [operandRuns, List.map_cons, OperatorChains.walk]
    by_cases hctl : result.isControl
    · have hpasses : shortCircuits.passes postOp result := by
        simp [Joins.passes, shortCircuits, hctl]
      rw [if_pos hctl, if_pos hpasses, if_pos rfl, pure_bind, settled, if_pos hctl]
    · rw [if_neg hctl, stop_iff_passes hctl]
      by_cases hpasses : shortCircuits.passes postOp result
      · rw [if_pos hpasses, if_pos hpasses, if_pos rfl, pure_bind, settled_of_not_control hctl]
      · rw [if_neg hpasses, if_neg hpasses, executeExpressionChain, operandRun, bind_assoc,
          bind_assoc]
        exact bind_congr fun _ => bind_congr fun result => ih result next

theorem executeExpressionChain_eq_walk (location : Location) (allowControl : Bool)
    (controlErrorMessage : String) (operands : List (ChainOperand World)) :
    executeExpressionChain location allowControl controlErrorMessage .empty operands =
      walkChain true location operands >>= settled location allowControl controlErrorMessage := by
  cases operands with
  | nil => rfl
  | cons first rest =>
    obtain ⟨prefixOp, expression, next⟩ := first
    rw [executeExpressionChain, walkChain, operandRun, bind_assoc, bind_assoc]
    exact bind_congr fun _ => bind_congr fun result =>
      executeExpressionChain_behind location allowControl controlErrorMessage rest result next

mutual

def walkExpression (early : Bool)
    (command : CommandItem Executor → Run World CommandResult) (location : Location) :
    Expression Executor → Run World CommandResult
  | .command item => executeCommandExpression command location item
  | .group chain => walkChain early location (walkOperands early command location chain)

def walkOperands (early : Bool)
    (command : CommandItem Executor → Run World CommandResult) (location : Location) :
    ExpressionChain Executor → List (ChainOperand World)
  | [] => []
  | (prefixOp, expression, postOp) :: rest =>
    (prefixOp, walkExpression early command location expression, postOp) ::
      walkOperands early command location rest

end

theorem settled_true (location : Location) (run : Run World CommandResult) :
    run >>= settled location true "" = run := by
  have hsett : settled location true "" = (pure : CommandResult → Run World _) := by
    funext result
    simp [settled, settleControl]
  rw [hsett, bind_pure]

variable (command : CommandItem Executor → Run World CommandResult) (location : Location)

mutual

theorem executeExpression_eq_walk : ∀ expression : Expression Executor,
      executeExpression command location expression =
        walkExpression true command location expression
  | .command _ => rfl
  | .group chain => by
    rw [executeExpression, executeOperands_eq_walk chain,
      executeExpressionChain_eq_walk, settled_true, walkExpression]

theorem executeOperands_eq_walk : ∀ chain : ExpressionChain Executor,
      executeOperands command location chain = walkOperands true command location chain
  | [] => rfl
  | (prefixOp, expression, postOp) :: rest => by
    rw [executeOperands, walkOperands, executeExpression_eq_walk expression,
      executeOperands_eq_walk rest]

end

mutual

theorem readExpression_eq_walk : ∀ expression : Expression Executor,
      readExpression command location expression = walkExpression false command location expression
  | .command _ => rfl
  | .group chain => by
    rw [readExpression, readOperands_eq_walk chain,
      readExpressionChain_eq_walk, settled_true, walkExpression]

theorem readOperands_eq_walk : ∀ chain : ExpressionChain Executor,
      readOperands command location chain = walkOperands false command location chain
  | [] => rfl
  | (prefixOp, expression, postOp) :: rest => by
    rw [readOperands, walkOperands, readExpression_eq_walk expression, readOperands_eq_walk rest]

end

/-! ## Chains that do not mix the operators -/

/-- The operators between the expressions of a chain; one behind the last
expression joins nothing. -/
def operatorsBetween (chain : ExpressionChain Executor) : List (Option Operator) :=
  (chain.map fun link => link.2.2).dropLast

mutual

def Unmixed : Expression Executor → Prop
  | .command _ => True
  | .group chain => (operatorsBetween chain).Pairwise (· = ·) ∧ UnmixedOperands chain

def UnmixedOperands : ExpressionChain Executor → Prop
  | [] => True
  | (_, expression, _) :: rest => Unmixed expression ∧ UnmixedOperands rest

end

/-- The chain and every group in it use one operator throughout. -/
def UnmixedChain (chain : ExpressionChain Executor) : Prop := Unmixed (.group chain)

theorem between_operandRuns (location : Location) (postOp : Option Operator)
    (rest : List (ChainOperand World)) :
    OperatorChains.between postOp (operandRuns location rest) =
      (postOp :: rest.map fun operand => operand.2.2).dropLast := by
  induction rest generalizing postOp with
  | nil => rfl
  | cons first rest ih =>
    exact congrArg (postOp :: ·) (ih first.2.2)

theorem walkOperands_map_post (early : Bool) (chain : ExpressionChain Executor) :
    (walkOperands early command location chain).map (fun operand => operand.2.2) =
      chain.map fun link => link.2.2 := by
  induction chain with
  | nil => rfl
  | cons link rest ih =>
    rw [walkOperands, List.map_cons, List.map_cons, ih]

/-- Behind one operator throughout, what is skipped once is skipped to the end. -/
theorem walkChain_early_eq {location} {operands : List (ChainOperand World)}
    (hsame : (operands.map fun operand => operand.2.2).dropLast.Pairwise (· = ·)) :
    walkChain true location operands = walkChain false location operands := by
  cases operands with
  | nil => rfl
  | cons first rest =>
    have hpersists : (OperatorChains.between first.2.2 (operandRuns location rest)).Pairwise
        shortCircuits.Persists := by
      rw [between_operandRuns]
      exact hsame.imp fun heq _ hskips => heq ▸ hskips
    exact bind_congr fun result => OperatorChains.walk_early_eq hpersists result

mutual

theorem walkExpression_early_eq : ∀ expression : Expression Executor, Unmixed expression →
      walkExpression true command location expression =
        walkExpression false command location expression
  | .command _, _ => rfl
  | .group chain, hunmixed => by
    rw [Unmixed] at hunmixed
    rw [walkExpression, walkExpression, walkOperands_early_eq chain hunmixed.2]
    refine walkChain_early_eq ?_
    rw [walkOperands_map_post]
    exact hunmixed.1

theorem walkOperands_early_eq : ∀ chain : ExpressionChain Executor, UnmixedOperands chain →
      walkOperands true command location chain = walkOperands false command location chain
  | [], _ => rfl
  | (prefixOp, expression, postOp) :: rest, hunmixed => by
    rw [UnmixedOperands] at hunmixed
    rw [walkOperands, walkOperands, walkExpression_early_eq expression
      hunmixed.1, walkOperands_early_eq rest hunmixed.2]

end

/-- Where the operators are not mixed, executing a chain is reading it from the
left, whatever the commands do. -/
theorem executeExpressionChain_eq_read (hunmixed : UnmixedChain chain) (allowControl : Bool)
    (controlErrorMessage : String) :
    executeExpressionChain location allowControl controlErrorMessage .empty
        (executeOperands command location chain) =
      readExpressionChain location allowControl controlErrorMessage
        (readOperands command location chain) := by
  have hgroup := walkExpression_early_eq command location (.group chain) hunmixed
  rw [executeExpressionChain_eq_walk, readExpressionChain_eq_walk,
    executeOperands_eq_walk, readOperands_eq_walk]
  rw [walkExpression, walkExpression] at hgroup
  rw [hgroup]

end CyfsGateway.ProcessChain
