import CyfsGateway.Core.Checks
import CyfsGateway.ProcessChain.Syntax

/-!
# Linking

`BlockCommandLinker`: every command the linker visits is given the executor its
parser makes of the arguments.  A parsed block has no executors yet, so its
executor type is empty.  An argument that is not itself a command substitution
is left as it is.
-/

namespace CyfsGateway.ProcessChain

variable {Executor : Type}

mutual

def unlinkedArg : CommandArg Empty → CommandArg Executor
  | .literal value => .literal value
  | .stringLiteral value => .stringLiteral value
  | .typedLiteral raw value => .typedLiteral raw value
  | .listLiteral items => .listLiteral (unlinkedArgs items)
  | .mapLiteral entries => .mapLiteral (unlinkedEntries entries)
  | .var name => .var name
  | .commandSubstitution expression => .commandSubstitution (unlinkedExpression expression)

def unlinkedArgs : List (CommandArg Empty) → List (CommandArg Executor)
  | [] => []
  | arg :: rest => unlinkedArg arg :: unlinkedArgs rest

def unlinkedEntries : List (Text × CommandArg Empty) → List (Text × CommandArg Executor)
  | [] => []
  | (key, arg) :: rest => (key, unlinkedArg arg) :: unlinkedEntries rest

def unlinkedItem : CommandItem Empty → CommandItem Executor
  | .mk name args _ => .mk name (unlinkedArgs args) none

def unlinkedExpression : Expression Empty → Expression Executor
  | .command item => .command (unlinkedItem item)
  | .group chain => .group (unlinkedChain chain)

def unlinkedChain : ExpressionChain Empty → ExpressionChain Executor
  | [] => []
  | (prefixOp, expression, postOp) :: rest =>
    (prefixOp, unlinkedExpression expression, postOp) :: unlinkedChain rest

end

/-! ## Commands -/

/-- `CommandParser::parse_origin`: the executor for the arguments. -/
abbrev CommandParser (Executor : Type) := List (CommandArg Executor) → Except Text Executor

/-- The registered parsers and the external commands, each of which says for
which arguments it overrides a builtin command. -/
structure CommandFactory (Executor : Type) where
  getParser : Text → Option (CommandParser Executor)
  getExternalCommand : Text → Option (List (CommandArg Empty) → Bool)

/-- The name a command is linked under, the arguments put before its own and its
parser.  External commands go through `call`. -/
def chooseParser (factory : CommandFactory Executor) (name : Text)
    (args : List (CommandArg Empty)) :
    Except Text (Text × List (CommandArg Executor) × CommandParser Executor) :=
  let overridden := (factory.getExternalCommand name).any fun overrides => overrides args
  match if overridden then none else factory.getParser name with
  | some parser => .ok (name, [], parser)
  | none =>
    if (factory.getExternalCommand name).isSome then
      match factory.getParser "call".toList with
      | some parser => .ok ("call".toList, [.literal "call".toList], parser)
      | none => .error "No parser for command: call".toList
    else .error ("No parser for command: ".toList ++ name)

mutual

def linkExpression (factory : CommandFactory Executor) :
    Expression Empty → Except Text (Expression Executor)
  | .command item => linkCommand factory item >>= fun item => pure (.command item)
  | .group chain => linkChain factory chain >>= fun chain => pure (.group chain)

def linkChain (factory : CommandFactory Executor) :
    ExpressionChain Empty → Except Text (ExpressionChain Executor)
  | [] => pure []
  | (prefixOp, expression, postOp) :: rest =>
    linkExpression factory expression >>= fun expression =>
    linkChain factory rest >>= fun rest => pure ((prefixOp, expression, postOp) :: rest)

def linkCommand (factory : CommandFactory Executor) :
    CommandItem Empty → Except Text (CommandItem Executor)
  | .mk name args _ =>
    chooseParser factory name args >>= fun chosen =>
    linkArgs factory args >>= fun args =>
    (chosen.2.2 (chosen.2.1 ++ args)).mapError
      (fun error => "Failed to parse command: ".toList ++ error) >>= fun executor =>
    pure (.mk chosen.1 (chosen.2.1 ++ args) (some executor))

/-- Command substitutions are linked; every other argument is left alone. -/
def linkArg (factory : CommandFactory Executor) :
    CommandArg Empty → Except Text (CommandArg Executor)
  | .commandSubstitution expression =>
    linkExpression factory expression >>= fun expression => pure (.commandSubstitution expression)
  | arg => pure (unlinkedArg arg)

def linkArgs (factory : CommandFactory Executor) :
    List (CommandArg Empty) → Except Text (List (CommandArg Executor))
  | [] => pure []
  | arg :: rest =>
    linkArg factory arg >>= fun arg => linkArgs factory rest >>= fun rest => pure (arg :: rest)

end

/-! ## Statements -/

/-- The subject of a case statement is treated as an argument. -/
def linkSubject (factory : CommandFactory Executor) :
    Option (CommandArg Empty) → Except Text (Option (CommandArg Executor))
  | none => pure none
  | some subject => linkArg factory subject >>= fun subject => pure (some subject)

mutual

def linkLine (factory : CommandFactory Executor) : Line Empty → Except Text (Line Executor)
  | .mk source statements =>
    linkStatements factory statements >>= fun statements => pure (.mk source statements)

def linkLines (factory : CommandFactory Executor) :
    List (Line Empty) → Except Text (List (Line Executor))
  | [] => pure []
  | line :: rest =>
    linkLine factory line >>= fun line => linkLines factory rest >>= fun rest => pure (line :: rest)

def linkStatements (factory : CommandFactory Executor) :
    List (Statement Empty) → Except Text (List (Statement Executor))
  | [] => pure []
  | statement :: rest =>
    linkStatement factory statement >>= fun statement =>
    linkStatements factory rest >>= fun rest => pure (statement :: rest)

def linkStatement (factory : CommandFactory Executor) :
    Statement Empty → Except Text (Statement Executor)
  | .expressions chain => linkChain factory chain >>= fun chain => pure (.expressions chain)
  | .ifStatement branches elseLines =>
    linkBranches factory branches >>= fun branches =>
    linkElse factory elseLines >>= fun elseLines => pure (.ifStatement branches elseLines)
  | .caseStatement subject bindingVar branches elseLines =>
    linkSubject factory subject >>= fun subject =>
    linkBranches factory branches >>= fun branches =>
    linkElse factory elseLines >>= fun elseLines =>
    pure (.caseStatement subject bindingVar branches elseLines)
  | .forStatement keyVar valueVar iterable lines =>
    linkArg factory iterable >>= fun iterable =>
    linkLines factory lines >>= fun lines => pure (.forStatement keyVar valueVar iterable lines)
  | .matchResultStatement command okBranch errBranch controlBranch =>
    linkExpression factory command >>= fun command =>
    linkBranch factory okBranch >>= fun okBranch =>
    linkBranch factory errBranch >>= fun errBranch =>
    linkControlBranch factory controlBranch >>= fun controlBranch =>
    pure (.matchResultStatement command okBranch errBranch controlBranch)

def linkBranches (factory : CommandFactory Executor) :
    List (Branch Empty) → Except Text (List (Branch Executor))
  | [] => pure []
  | .mk condition lines :: rest =>
    linkChain factory condition >>= fun condition =>
    linkLines factory lines >>= fun lines =>
    linkBranches factory rest >>= fun rest => pure (.mk condition lines :: rest)

def linkElse (factory : CommandFactory Executor) :
    Option (List (Line Empty)) → Except Text (Option (List (Line Executor)))
  | none => pure none
  | some lines => linkLines factory lines >>= fun lines => pure (some lines)

def linkBranch (factory : CommandFactory Executor) :
    Option (MatchResultBranch Empty) → Except Text (Option (MatchResultBranch Executor))
  | none => pure none
  | some (.mk bindingVar lines) =>
    linkLines factory lines >>= fun lines => pure (some (.mk bindingVar lines))

def linkControlBranch (factory : CommandFactory Executor) :
    Option (MatchResultControlBranch Empty) →
      Except Text (Option (MatchResultControlBranch Executor))
  | none => pure none
  | some (.mk actionVar fromVar valueVar lines) =>
    linkLines factory lines >>= fun lines => pure (some (.mk actionVar fromVar valueVar lines))

end

def link (factory : CommandFactory Executor) (block : Block Empty) : Except Text (Block Executor) :=
  linkLines factory block.lines >>= fun lines => pure ⟨block.id, lines⟩

end CyfsGateway.ProcessChain
