import Mathlib

/-!
# Process-chain programs

The syntax tree of a process-chain block, as `block.rs` has it, and the results
of commands.  A Rust `String` is the list of its characters.  Collections are
shared objects behind references, so a collection value is the name of its
object.  A linked command carries the executor its parser made; the type of
executors is left open.
-/

namespace CyfsGateway.ProcessChain

abbrev Text := List Char

/-- A floating-point number is kept as its decimal text. -/
inductive NumberValue
  | int (value : Int)
  | float (digits : Text)
  deriving DecidableEq

inductive CollectionValue
  | null
  | bool (value : Bool)
  | number (value : NumberValue)
  | string (value : Text)
  | list (object : Nat)
  | set (object : Nat)
  | map (object : Nat)
  | multiMap (object : Nat)
  | visitor (object : Nat)
  | any (object : Nat)
  deriving DecidableEq

inductive CommandControlLevel
  | block
  | chain
  | lib
  deriving DecidableEq

inductive CommandControl
  | break (value : CollectionValue)
  | return (level : CommandControlLevel) (value : CollectionValue)
  | error (level : CommandControlLevel) (value : CollectionValue)
  | exit (value : CollectionValue)
  deriving DecidableEq

inductive CommandResult
  | success (value : CollectionValue)
  | error (value : CollectionValue)
  | control (control : CommandControl)
  deriving DecidableEq

namespace CommandResult

def empty : CommandResult := .success (.string [])

def isSuccess : CommandResult → Bool
  | .success _ => true
  | _ => false

def isControl : CommandResult → Bool
  | .control _ => true
  | _ => false

end CommandResult

/-! ## Expressions -/

inductive Operator
  | and
  | or
  | not
  deriving DecidableEq

mutual

inductive CommandArg (Executor : Type) where
  | literal (value : Text)
  | stringLiteral (value : Text)
  | typedLiteral (raw : Text) (value : CollectionValue)
  | listLiteral (items : List (CommandArg Executor))
  | mapLiteral (entries : List (Text × CommandArg Executor))
  | var (name : Text)
  | commandSubstitution (expression : Expression Executor)

inductive CommandItem (Executor : Type) where
  | mk (name : Text) (args : List (CommandArg Executor)) (executor : Option Executor)

inductive Expression (Executor : Type) where
  | command (item : CommandItem Executor)
  | group (chain : List (Option Operator × Expression Executor × Option Operator))

end

/-- Each expression with the operator before it and the one behind it. -/
abbrev ExpressionChain (Executor : Type) :=
  List (Option Operator × Expression Executor × Option Operator)

/-! ## Statements -/

mutual

inductive Line (Executor : Type) where
  | mk (source : Text) (statements : List (Statement Executor))

/-- A chain or one of the structured statements; a statement of `block.rs` is
always built as one of them. -/
inductive Statement (Executor : Type) where
  | expressions (chain : ExpressionChain Executor)
  | ifStatement (branches : List (Branch Executor)) (elseLines : Option (List (Line Executor)))
  | caseStatement (subject : Option (CommandArg Executor)) (bindingVar : Option Text)
      (branches : List (Branch Executor)) (elseLines : Option (List (Line Executor)))
  | forStatement (keyVar : Text) (valueVar : Option Text) (iterable : CommandArg Executor)
      (lines : List (Line Executor))
  | matchResultStatement (command : Expression Executor)
      (okBranch : Option (MatchResultBranch Executor))
      (errBranch : Option (MatchResultBranch Executor))
      (controlBranch : Option (MatchResultControlBranch Executor))

/-- `IfBranch` and `CaseBranch`: a condition and its lines. -/
inductive Branch (Executor : Type) where
  | mk (condition : ExpressionChain Executor) (lines : List (Line Executor))

inductive MatchResultBranch (Executor : Type) where
  | mk (bindingVar : Text) (lines : List (Line Executor))

inductive MatchResultControlBranch (Executor : Type) where
  | mk (actionVar fromVar valueVar : Text) (lines : List (Line Executor))

end

structure Block (Executor : Type) where
  id : Text
  lines : List (Line Executor)

end CyfsGateway.ProcessChain
