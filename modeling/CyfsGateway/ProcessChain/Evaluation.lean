import CyfsGateway.ProcessChain.Variables

/-!
# Execution of blocks

`CommandArgEvaluator::evaluate` and `BlockExecuter`: arguments, commands and
the structured statements.  What a linked command does with its arguments, the
environment and the collections are a parameter, the `Host`.  An executor is
handed its arguments as computations; it may evaluate each of them any number
of times, and execute those that are command substitutions as commands.
-/

namespace CyfsGateway.ProcessChain

variable {World Value Executor : Type}

/-- An argument as an executor can use it. -/
structure ArgRun (World : Type) where
  evaluate : Run World CollectionValue
  execute : Option (Run World CommandResult)

/-- The error of a command without executor, or one caused by it. -/
def Failure.notLinked : Failure → Bool
  | .message _ => false
  | .result _ => false
  | .wrapped code _ _ _ cause => code = .runtimeCommandNotLinked || cause.notLinked
  | .both execution restore => execution.notLinked || restore.notLinked

/-- The computation never fails because a command is not linked. -/
def NeverUnlinked (run : Run World Value) : Prop :=
  ∀ world failure, (run world).1 = .error failure → failure.notLinked = false

def ArgRun.NeverUnlinked (arg : ArgRun World) : Prop :=
  ProcessChain.NeverUnlinked arg.evaluate ∧ ∀ run ∈ arg.execute, ProcessChain.NeverUnlinked run

inductive EnvLevel
  | global
  | chain
  | block
  deriving DecidableEq

/-- The result of a loop so far, and one that leaves it. -/
structure ForTraverseState where
  result : CommandResult
  terminal : Option CommandResult

abbrev ForStep (World : Type) :=
  CollectionValue → CollectionValue → ForTraverseState → Run World (ForTraverseState × Bool)

/-- Commands, variables and collections.  Executors and traversals run what they
are given; on their own they do not fail for a command that is not linked. -/
structure Host (World Executor : Type) extends VariableStore World where
  exec : Executor → List (ArgRun World) → Run World CommandResult
  newList : List CollectionValue → Query World Nat
  newMap : List (Text × CollectionValue) → Query World Nat
  blockContains : Text → Query World Bool
  getBlock : Text → Query World (Option CollectionValue)
  setBlock : Text → CollectionValue → Query World Unit
  removeBlock : Text → Query World Unit
  varLevelEntry : Text → World → Option EnvLevel
  restoreVarLevelEntry : Text → Option EnvLevel → World → World
  /-- `traverse` of a collection: each key, index or item with its value.  The
  flag asks for the values of a multi map as well. -/
  traverse : CollectionValue → Bool → ForStep World → ForTraverseState → Run World ForTraverseState
  exec_neverUnlinked : ∀ executor args, (∀ arg ∈ args, arg.NeverUnlinked) →
    NeverUnlinked (exec executor args)
  traverse_neverUnlinked : ∀ collection values step state,
    (∀ key value state, NeverUnlinked (step key value state)) →
    NeverUnlinked (traverse collection values step state)

variable (classes : CharClasses) (host : Host World Executor)

def substitutionValue : CommandResult → Run World CollectionValue
  | .success value => pure value
  | .error value => pure value
  | .control action => throw (.result (.control action))

mutual

def evaluate : CommandArg Executor → Run World CollectionValue
  | .literal value => pure (.string value)
  | .stringLiteral value => pure (.string value)
  | .typedLiteral _ value => pure value
  | .listLiteral items =>
    evaluateItems items >>= fun values =>
    ask (host.newList values) >>= fun object => pure (.list object)
  | .mapLiteral entries =>
    evaluateEntries entries >>= fun values =>
    ask (host.newMap values) >>= fun object => pure (.map object)
  | .var name => evaluateVar host.toVariableStore classes name
  | .commandSubstitution expression => runExpression ⟨none, none⟩ expression >>= substitutionValue

def evaluateItems : List (CommandArg Executor) → Run World (List CollectionValue)
  | [] => pure []
  | item :: rest =>
    evaluate item >>= fun value => evaluateItems rest >>= fun values => pure (value :: values)

def evaluateEntries : List (Text × CommandArg Executor) → Run World (List (Text × CollectionValue))
  | [] => pure []
  | (key, item) :: rest =>
    evaluate item >>= fun value =>
    evaluateEntries rest >>= fun values => pure ((key, value) :: values)

/-- A command substitution can also be executed as the command it is. -/
def executeArg : CommandArg Executor → Option (Run World CommandResult)
  | .commandSubstitution expression => some (runExpression ⟨none, none⟩ expression)
  | _ => none

def argRuns : List (CommandArg Executor) → List (ArgRun World)
  | [] => []
  | arg :: rest => ⟨evaluate arg, executeArg arg⟩ :: argRuns rest

def executeCommand (location : Location) : CommandItem Executor → Run World CommandResult
  | .mk _ _ none => throw (commandNotLinked location)
  | .mk _ args (some executor) =>
    wrapping location .runtimeCommandExecute "Command execution failed"
      (host.exec executor (argRuns args))

def runExpression (location : Location) : Expression Executor → Run World CommandResult
  | .command item =>
    wrapping location .runtimeCommandExecute "Failed to execute command expression"
      (executeCommand location item)
  | .group chain => executeExpressionChain location true "" .empty (runOperands location chain)

def runOperands (location : Location) : ExpressionChain Executor → List (ChainOperand World)
  | [] => []
  | (prefixOp, expression, postOp) :: rest =>
    (prefixOp, runExpression location expression, postOp) :: runOperands location rest

end

mutual

theorem runExpression_eq (location : Location) : ∀ expression : Expression Executor,
    runExpression classes host location expression =
      executeExpression (executeCommand classes host location) location expression
  | .command _ => rfl
  | .group chain => by rw [runExpression, executeExpression, runOperands_eq location chain]

theorem runOperands_eq (location : Location) : ∀ chain : ExpressionChain Executor,
    runOperands classes host location chain =
      executeOperands (executeCommand classes host location) location chain
  | [] => rfl
  | (_, expression, _) :: rest => by
    rw [runOperands, executeOperands, runExpression_eq location expression,
      runOperands_eq location rest]

end

/-! ## Bindings of structured statements -/

structure LoopVarSnapshot where
  name : Text
  value : Option CollectionValue
  trackerLevel : Option EnvLevel

def snapshotBlockVar (name : Text) : Run World LoopVarSnapshot :=
  ask (host.blockContains name) >>= fun exists_ =>
  (if exists_ then ask (host.getBlock name) else pure none) >>= fun value world =>
    (.ok ⟨name, value, host.varLevelEntry name world⟩, world)

def snapshotBlockVars : List Text → Run World (List LoopVarSnapshot)
  | [] => pure []
  | name :: rest =>
    snapshotBlockVar host name >>= fun snapshot =>
    snapshotBlockVars rest >>= fun snapshots => pure (snapshot :: snapshots)

def restoreBlockVars : List LoopVarSnapshot → Run World Unit
  | [] => pure ()
  | snapshot :: rest =>
    (match snapshot.value with
      | some value => ask (host.setBlock snapshot.name value)
      | none => ask (host.removeBlock snapshot.name)) >>= fun _ =>
    (fun world => (.ok (),
      host.restoreVarLevelEntry snapshot.name snapshot.trackerLevel world)) >>= fun _ =>
    restoreBlockVars rest

def bindBlockVars : List (Text × CollectionValue) → Run World Unit
  | [] => pure ()
  | (name, value) :: rest => ask (host.setBlock name value) >>= fun _ => bindBlockVars rest

/-- The messages of a failed body, a failed restoration, and both. -/
structure ScopeMessages where
  execution : String
  restore : String
  both : String

/-- A body behind which the snapshots are restored, whether it failed or not. -/
def restoring (location : Location) (messages : ScopeMessages)
    (snapshots : List LoopVarSnapshot) (body : Run World CommandResult) :
    Run World CommandResult := fun world =>
  let (executed, behind) := body world
  let (restored, after) := restoreBlockVars host snapshots behind
  let wrap := wrapRuntimeError location .runtimeExpressionExecute
  match executed, restored with
  | .ok result, .ok () => (.ok result, after)
  | .error failure, .ok () => (.error (wrap messages.execution failure), after)
  | .ok _, .error failure => (.error (wrap messages.restore failure), after)
  | .error executed, .error restored =>
    (.error (wrap messages.both (.both executed restored)), after)

/-- Lines run with variables bound in the block scope. -/
def executeBound (location : Location) (messages : ScopeMessages)
    (bindings : List (Text × CollectionValue)) (lines : Run World CommandResult) :
    Run World CommandResult :=
  snapshotBlockVars host (bindings.map Prod.fst) >>= fun snapshots =>
  restoring host location messages snapshots (bindBlockVars host bindings >>= fun _ => lines)

def caseMessages : ScopeMessages :=
  ⟨"Failed to execute case statement", "Failed to restore case subject binding",
    "Failed to execute case statement and restore subject binding"⟩

def forMessages : ScopeMessages :=
  ⟨"Failed to execute for statement", "Failed to restore loop variable scope",
    "Failed to execute for statement and restore loop variable scope"⟩

def matchResultMessages : ScopeMessages :=
  ⟨"Failed to execute match-result branch", "Failed to restore match-result branch scope",
    "Failed to execute match-result branch and restore scope"⟩

/-- `apply_iteration_outcome_bool`: the state behind an iteration, and whether to
go on. -/
def applyIterationOutcome (state : ForTraverseState) : CommandResult → ForTraverseState × Bool
  | .control (.break value) => ({ state with result := .success value }, false)
  | .control action => ({ state with terminal := some (.control action) }, false)
  | result => ({ state with result }, true)

/-- The first loop variable of a list without second one is the item. -/
def forKey (iterable : CollectionValue) (valueVar : Option Text)
    (key value : CollectionValue) : CollectionValue :=
  match iterable, valueVar with
  | .list _, none => value
  | _, _ => key

def executeForIteration (keyVar : Text) (valueVar : Option Text)
    (iterable : CollectionValue) (lines : Run World CommandResult) : ForStep World :=
  fun key value state =>
    ask (host.setBlock keyVar (forKey iterable valueVar key value)) >>= fun _ =>
    (match valueVar with
      | some name => ask (host.setBlock name value)
      | none => pure ()) >>= fun _ =>
    lines >>= fun result => pure (applyIterationOutcome state result)

def isCollection : CollectionValue → Bool
  | .list _ | .set _ | .map _ | .multiMap _ => true
  | _ => false

def executeForLoop (keyVar : Text) (valueVar : Option Text) (lines : Run World CommandResult)
    (iterable : CollectionValue) : Run World CommandResult :=
  if isCollection iterable then
    host.traverse iterable valueVar.isSome
      (executeForIteration host keyVar valueVar iterable lines) ⟨.empty, none⟩ >>= fun state =>
    pure (state.terminal.getD state.result)
  else refuse "For-loop iterable must be List/Set/Map/MultiMap" []

def CommandControl.actionName : CommandControl → String
  | .return _ _ => "return"
  | .error _ _ => "error"
  | .exit _ => "exit"
  | .break _ => "break"

def CommandControlLevel.name : CommandControlLevel → String
  | .block => "block"
  | .chain => "chain"
  | .lib => "lib"

def CommandControl.fromLevel : CommandControl → CollectionValue
  | .return level _ => .string level.name.toList
  | .error level _ => .string level.name.toList
  | _ => .null

def CommandControl.value : CommandControl → CollectionValue
  | .return _ value => value
  | .error _ value => value
  | .exit value => value
  | .break value => value

/-! ## Statements -/

/-- Conditions one after the other; the lines of the first that succeeds. -/
def executeBranches (otherwise : Run World CommandResult) :
    List (Run World CommandResult × Run World CommandResult) → Run World CommandResult
  | [] => otherwise
  | (condition, lines) :: rest =>
    condition >>= fun result =>
    if result.isSuccess then lines else executeBranches otherwise rest

/-- Lines or statements one after the other, up to a control result. -/
def executeSequence : CommandResult → List (Run World CommandResult) → Run World CommandResult
  | result, [] => pure result
  | _, first :: rest =>
    first >>= fun result => if result.isControl then pure result else executeSequence result rest

/-- `execute_match_result_control_branch` binds the parts of a control result. -/
def controlBindings (actionVar fromVar valueVar : Text) (action : CommandControl) :
    List (Text × CollectionValue) :=
  [(actionVar, .string action.actionName.toList), (fromVar, action.fromLevel),
    (valueVar, action.value)]

abbrev BranchRun (World Found : Type) := Option (Found → Run World CommandResult)

def executeMatchResult (onSuccess onError : BranchRun World CollectionValue)
    (onControl : BranchRun World CommandControl) : CommandResult → Run World CommandResult
  | .success value => (onSuccess.map fun branch => branch value).getD (pure (.success value))
  | .error value => (onError.map fun branch => branch value).getD (pure (.error value))
  | .control action => (onControl.map fun branch => branch action).getD (pure (.control action))

def loopVars (keyVar : Text) (valueVar : Option Text) : List Text := keyVar :: valueVar.toList

/-- `execute_case_statement` around its branches. -/
def caseRun (location : Location) :
    Option (CommandArg Executor) → Option Text → Run World CommandResult → Run World CommandResult
  | some subject, some bindingVar, branches =>
    evaluate classes host subject >>= fun value =>
    executeBound host location caseMessages [(bindingVar, value)] branches
  | _, _, branches => branches

mutual

def executeLine (lineNo : Nat) : Line Executor → Run World CommandResult
  | .mk source statements => executeSequence .empty (statementRuns lineNo source statements)

/-- `execute_nested_lines` is the sequence of these. -/
def lineRuns (lineNo : Nat) : List (Line Executor) → List (Run World CommandResult)
  | [] => []
  | line :: rest => executeLine lineNo line :: lineRuns lineNo rest

def statementRuns (lineNo : Nat) (source : Text) :
    List (Statement Executor) → List (Run World CommandResult)
  | [] => []
  | statement :: rest =>
    executeStatement ⟨some lineNo, some source⟩ lineNo statement :: statementRuns lineNo source rest

def executeStatement (location : Location) (lineNo : Nat) :
    Statement Executor → Run World CommandResult
  | .expressions chain =>
    executeExpressionChain location true "" .empty (runOperands classes host location chain)
  | .ifStatement branches elseLines =>
    executeBranches (elseRun lineNo elseLines)
      (branchRuns location lineNo "Control action is not allowed in if condition" branches)
  | .caseStatement subject bindingVar branches elseLines =>
    caseRun classes host location subject bindingVar (executeBranches (elseRun lineNo elseLines)
        (branchRuns location lineNo "Control action is not allowed in case condition" branches))
  | .forStatement keyVar valueVar iterable lines =>
    snapshotBlockVars host (loopVars keyVar valueVar) >>= fun snapshots =>
    restoring host location forMessages snapshots (evaluate classes host iterable >>=
        executeForLoop host keyVar valueVar (executeSequence .empty (lineRuns lineNo lines)))
  | .matchResultStatement command okBranch errBranch controlBranch =>
    runExpression classes host location command >>=
      executeMatchResult (branchRun location lineNo okBranch)
        (branchRun location lineNo errBranch) (controlRun location lineNo controlBranch)

def branchRuns (location : Location) (lineNo : Nat) (message : String) :
    List (Branch Executor) → List (Run World CommandResult × Run World CommandResult)
  | [] => []
  | .mk condition lines :: rest =>
    (executeExpressionChain location false message .empty
        (runOperands classes host location condition),
      executeSequence .empty (lineRuns lineNo lines)) ::
      branchRuns location lineNo message rest

def elseRun (lineNo : Nat) : Option (List (Line Executor)) → Run World CommandResult
  | none => pure .empty
  | some lines => executeSequence .empty (lineRuns lineNo lines)

def branchRun (location : Location) (lineNo : Nat) :
    Option (MatchResultBranch Executor) → BranchRun World CollectionValue
  | none => none
  | some (.mk bindingVar lines) =>
    some fun value => executeBound host location matchResultMessages [(bindingVar, value)]
      (executeSequence .empty (lineRuns lineNo lines))

def controlRun (location : Location) (lineNo : Nat) :
    Option (MatchResultControlBranch Executor) → BranchRun World CommandControl
  | none => none
  | some (.mk actionVar fromVar valueVar lines) =>
    some fun action => executeBound host location matchResultMessages
      (controlBindings actionVar fromVar valueVar action)
      (executeSequence .empty (lineRuns lineNo lines))

end

/-- The lines of a block from `lineNo` on, with their failures wrapped. -/
def blockLineRuns (lineNo : Nat) : List (Line Executor) → List (Run World CommandResult)
  | [] => []
  | .mk source statements :: rest =>
    wrapping ⟨some lineNo, some source⟩ .runtimeLineExecute "Failed to execute line"
      (executeLine classes host lineNo (.mk source statements)) ::
      blockLineRuns (lineNo + 1) rest

def executeBlock (block : Block Executor) : Run World CommandResult :=
  executeSequence .empty (blockLineRuns classes host 1 block.lines)

end CyfsGateway.ProcessChain
