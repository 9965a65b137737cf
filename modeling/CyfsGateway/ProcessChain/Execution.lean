import CyfsGateway.Core.OperatorChains
import CyfsGateway.ProcessChain.Syntax

/-!
# Execution of expression chains

`BlockExecuter::execute_expression_with_location` and
`execute_expression_chain`.  What a command does is a parameter: a computation
on some world that returns a result or fails.  An operand of a chain is
executed when the loop comes to it, so a chain is a list of computations.

A failure keeps what `wrap_runtime_error` adds to it.  The position of the
block and the texts printed for commands and results are left out.
-/

namespace CyfsGateway.ProcessChain

inductive ProcessChainErrorCode
  | runtimeLineExecute
  | runtimeExpressionExecute
  | runtimeCommandExecute
  | runtimeCommandNotLinked
  deriving DecidableEq

inductive Failure
  | message (text : Text)
  | result (result : CommandResult)
  | wrapped (code : ProcessChainErrorCode) (message : Text) (line : Option Nat)
      (source : Option Text) (cause : Failure)
  | both (execution restore : Failure)
  deriving DecidableEq

abbrev Run (World Value : Type) := OperatorChains.Run World Failure Value

structure Location where
  line : Option Nat
  source : Option Text

variable (location : Location)

def wrapRuntimeError (code : ProcessChainErrorCode)
    (message : String) (cause : Failure) : Failure :=
  .wrapped code message.toList location.line location.source cause

variable {World Value Executor : Type}

/-- `map_err` with `wrap_runtime_error`. -/
def wrapping (code : ProcessChainErrorCode) (message : String)
    (run : Run World Value) : Run World Value := fun world =>
  match run world with
  | (.ok value, after) => (.ok value, after)
  | (.error failure, after) => (.error (wrapRuntimeError location code message failure), after)

def CommandResult.tryNot : CommandResult → Except Failure CommandResult
  | .success value => .ok (.error value)
  | .error value => .ok (.success value)
  | .control action => .error (.result (.control action))

abbrev ChainOperand (World : Type) := Option Operator × Run World CommandResult × Option Operator

def applyPrefix (prefixOp : Option Operator) (result : CommandResult) : Run World CommandResult :=
  match prefixOp with
  | some .not =>
    wrapping location .runtimeExpressionExecute "Failed to apply NOT operator"
      fun world => (result.tryNot, world)
  | _ => pure result

/-- What a chain does with a control result. -/
def settleControl (allowControl : Bool)
    (controlErrorMessage : String) (result : CommandResult) : Run World CommandResult :=
  if allowControl then pure result
  else
    throw (wrapRuntimeError location .runtimeExpressionExecute (if controlErrorMessage = "" then
        "Control action is not allowed in this expression chain"
      else controlErrorMessage)
      (.result result))

/-- The loop of `execute_expression_chain`; `result` is that of the last
expression. -/
def executeExpressionChain (location : Location) (allowControl : Bool)
    (controlErrorMessage : String) :
    CommandResult → List (ChainOperand World) → Run World CommandResult
  | result, [] => pure result
  | _, (prefixOp, expression, postOp) :: rest =>
    wrapping location .runtimeExpressionExecute "Failed to execute expression"
      expression >>= fun result =>
    applyPrefix location prefixOp result >>= fun result =>
    if result.isControl then
      settleControl location allowControl controlErrorMessage result
    else
      match postOp, result.isSuccess with
      | some .and, false => pure result
      | some .or, true => pure result
      | _, _ => executeExpressionChain location allowControl controlErrorMessage result rest

/-- A command as an expression: `execute_command` with its failures wrapped. -/
def executeCommandExpression (command : CommandItem Executor → Run World CommandResult)
    (location : Location) (item : CommandItem Executor) : Run World CommandResult :=
  wrapping location .runtimeCommandExecute "Failed to execute command expression" (command item)

mutual

def executeExpression (command : CommandItem Executor → Run World CommandResult)
    (location : Location) : Expression Executor → Run World CommandResult
  | .command item => executeCommandExpression command location item
  | .group chain =>
    executeExpressionChain location true "" .empty (executeOperands command location chain)

def executeOperands (command : CommandItem Executor → Run World CommandResult)
    (location : Location) : ExpressionChain Executor → List (ChainOperand World)
  | [] => []
  | (prefixOp, expression, postOp) :: rest =>
    (prefixOp, executeExpression command location expression, postOp) ::
      executeOperands command location rest

end

end CyfsGateway.ProcessChain
