import CyfsGateway.ProcessChain.Evaluation
import CyfsGateway.ProcessChain.Linker

/-!
# What linking reaches

The commands that execution of a block can reach are those of its statements
and those in arguments, which evaluation visits through list and map literals.
The linker does not look into these literals, so a linked block runs without
unlinked commands exactly when its literals contain no commands.
-/

namespace CyfsGateway.ProcessChain

open Checks

variable {Executor : Type}

/-! ## The commands execution can reach -/

def CommandItem.isLinked : CommandItem Executor → Bool
  | .mk _ _ executor => executor.isSome

mutual

def argItems : CommandArg Executor → List (CommandItem Executor)
  | .listLiteral items => argsItems items
  | .mapLiteral entries => entriesItems entries
  | .commandSubstitution expression => expressionItems expression
  | _ => []

def argsItems : List (CommandArg Executor) → List (CommandItem Executor)
  | [] => []
  | arg :: rest => argItems arg ++ argsItems rest

def entriesItems : List (Text × CommandArg Executor) → List (CommandItem Executor)
  | [] => []
  | (_, arg) :: rest => argItems arg ++ entriesItems rest

def itemItems : CommandItem Executor → List (CommandItem Executor)
  | .mk name args executor => .mk name args executor :: argsItems args

def expressionItems : Expression Executor → List (CommandItem Executor)
  | .command item => itemItems item
  | .group chain => chainItems chain

def chainItems : ExpressionChain Executor → List (CommandItem Executor)
  | [] => []
  | (_, expression, _) :: rest => expressionItems expression ++ chainItems rest

end

/-- The subject is evaluated only for a binding. -/
def subjectItems : Option (CommandArg Executor) → Option Text → List (CommandItem Executor)
  | some subject, some _ => argItems subject
  | _, _ => []

mutual

def lineItems : Line Executor → List (CommandItem Executor)
  | .mk _ statements => statementsItems statements

def linesItems : List (Line Executor) → List (CommandItem Executor)
  | [] => []
  | line :: rest => lineItems line ++ linesItems rest

def statementsItems : List (Statement Executor) → List (CommandItem Executor)
  | [] => []
  | statement :: rest => statementItems statement ++ statementsItems rest

def statementItems : Statement Executor → List (CommandItem Executor)
  | .expressions chain => chainItems chain
  | .ifStatement branches elseLines => branchesItems branches ++ elseItems elseLines
  | .caseStatement subject bindingVar branches elseLines =>
    subjectItems subject bindingVar ++ (branchesItems branches ++ elseItems elseLines)
  | .forStatement _ _ iterable lines => argItems iterable ++ linesItems lines
  | .matchResultStatement command okBranch errBranch controlBranch =>
    expressionItems command ++
      (branchItems okBranch ++ (branchItems errBranch ++ controlBranchItems controlBranch))

def branchesItems : List (Branch Executor) → List (CommandItem Executor)
  | [] => []
  | .mk condition lines :: rest => chainItems condition ++ (linesItems lines ++ branchesItems rest)

def elseItems : Option (List (Line Executor)) → List (CommandItem Executor)
  | none => []
  | some lines => linesItems lines

def branchItems : Option (MatchResultBranch Executor) → List (CommandItem Executor)
  | none => []
  | some (.mk _ lines) => linesItems lines

def controlBranchItems : Option (MatchResultControlBranch Executor) → List (CommandItem Executor)
  | none => []
  | some (.mk _ _ _ lines) => linesItems lines

end

/-- Every command that execution of the block can reach. -/
def blockItems (block : Block Executor) : List (CommandItem Executor) := linesItems block.lines

mutual

/-- No command substitution stands inside a list or map literal. -/
def PlainArg : CommandArg Empty → Prop
  | .listLiteral items => argsItems items = []
  | .mapLiteral entries => entriesItems entries = []
  | .commandSubstitution expression => PlainExpression expression
  | _ => True

def PlainArgs : List (CommandArg Empty) → Prop
  | [] => True
  | arg :: rest => PlainArg arg ∧ PlainArgs rest

def PlainExpression : Expression Empty → Prop
  | .command (.mk _ args _) => PlainArgs args
  | .group chain => PlainChain chain

def PlainChain : ExpressionChain Empty → Prop
  | [] => True
  | (_, expression, _) :: rest => PlainExpression expression ∧ PlainChain rest

end

def PlainSubject : Option (CommandArg Empty) → Option Text → Prop
  | some subject, some _ => PlainArg subject
  | _, _ => True

mutual

def PlainLine : Line Empty → Prop
  | .mk _ statements => PlainStatements statements

def PlainLines : List (Line Empty) → Prop
  | [] => True
  | line :: rest => PlainLine line ∧ PlainLines rest

def PlainStatements : List (Statement Empty) → Prop
  | [] => True
  | statement :: rest => PlainStatement statement ∧ PlainStatements rest

def PlainStatement : Statement Empty → Prop
  | .expressions chain => PlainChain chain
  | .ifStatement branches elseLines => PlainBranches branches ∧ PlainElse elseLines
  | .caseStatement subject bindingVar branches elseLines =>
    PlainSubject subject bindingVar ∧ PlainBranches branches ∧ PlainElse elseLines
  | .forStatement _ _ iterable lines => PlainArg iterable ∧ PlainLines lines
  | .matchResultStatement command okBranch errBranch controlBranch =>
    PlainExpression command ∧ PlainBranch okBranch ∧ PlainBranch errBranch ∧
      PlainControlBranch controlBranch

def PlainBranches : List (Branch Empty) → Prop
  | [] => True
  | .mk condition lines :: rest => PlainChain condition ∧ PlainLines lines ∧ PlainBranches rest

def PlainElse : Option (List (Line Empty)) → Prop
  | none => True
  | some lines => PlainLines lines

def PlainBranch : Option (MatchResultBranch Empty) → Prop
  | none => True
  | some (.mk _ lines) => PlainLines lines

def PlainControlBranch : Option (MatchResultControlBranch Empty) → Prop
  | none => True
  | some (.mk _ _ _ lines) => PlainLines lines

end

/-- The literals of the block contain no commands, in the arguments of commands,
in case subjects and in the iterables of loops. -/
def PlainBlock (block : Block Empty) : Prop := PlainLines block.lines

/-! ## Linked commands -/

def AllLinked (items : List (CommandItem Executor)) : Prop := ∀ item ∈ items, item.isLinked

@[simp]
theorem allLinked_nil : AllLinked ([] : List (CommandItem Executor)) :=
  fun _ hitem => by cases hitem

@[simp]
theorem allLinked_cons {item : CommandItem Executor} :
    AllLinked (item :: items) ↔ item.isLinked ∧ AllLinked items := by simp [AllLinked]

@[simp]
theorem allLinked_append {items others : List (CommandItem Executor)} :
    AllLinked (items ++ others) ↔ AllLinked items ∧ AllLinked others := by
  simp [AllLinked, or_imp, forall_and]

mutual

theorem argItems_unlinked : ∀ arg : CommandArg Empty,
    argItems (unlinkedArg arg : CommandArg Executor) = (argItems arg).map unlinkedItem
  | .literal _ => rfl
  | .stringLiteral _ => rfl
  | .typedLiteral _ _ => rfl
  | .listLiteral items => argsItems_unlinked items
  | .mapLiteral entries => entriesItems_unlinked entries
  | .var _ => rfl
  | .commandSubstitution expression => expressionItems_unlinked expression

theorem argsItems_unlinked : ∀ args : List (CommandArg Empty),
    argsItems (unlinkedArgs args : List (CommandArg Executor)) = (argsItems args).map unlinkedItem
  | [] => rfl
  | arg :: rest => by
    rw [unlinkedArgs, argsItems, argsItems, List.map_append, argItems_unlinked arg,
      argsItems_unlinked rest]

theorem entriesItems_unlinked : ∀ entries : List (Text × CommandArg Empty),
    entriesItems (unlinkedEntries entries : List (Text × CommandArg Executor)) =
      (entriesItems entries).map unlinkedItem
  | [] => rfl
  | (_, arg) :: rest => by
    rw [unlinkedEntries, entriesItems, entriesItems, List.map_append, argItems_unlinked arg,
      entriesItems_unlinked rest]

theorem expressionItems_unlinked : ∀ expression : Expression Empty,
    expressionItems (unlinkedExpression expression : Expression Executor) =
      (expressionItems expression).map unlinkedItem
  | .command (.mk name args executor) => by
    rw [unlinkedExpression, unlinkedItem, expressionItems, itemItems, expressionItems,
      itemItems, List.map_cons, unlinkedItem, argsItems_unlinked args]
  | .group chain => chainItems_unlinked chain

theorem chainItems_unlinked : ∀ chain : ExpressionChain Empty,
    chainItems (unlinkedChain chain : ExpressionChain Executor) =
      (chainItems chain).map unlinkedItem
  | [] => rfl
  | (_, expression, _) :: rest => by
    rw [unlinkedChain, chainItems, chainItems, List.map_append,
      expressionItems_unlinked expression, chainItems_unlinked rest]

end

theorem allLinked_unlinked_iff {items : List (CommandItem Empty)} :
    AllLinked (items.map unlinkedItem : List (CommandItem Executor)) ↔ items = [] := by
  cases items with
  | nil => simp
  | cons item rest =>
    obtain ⟨name, args, executor⟩ := item
    simp [unlinkedItem, CommandItem.isLinked]

theorem argsItems_append (args others : List (CommandArg Executor)) :
    argsItems (args ++ others) = argsItems args ++ argsItems others := by
  induction args with
  | nil => rfl
  | cons arg rest ih => rw [List.cons_append, argsItems, argsItems, ih, List.append_assoc]

/-- What stands before an external command's arguments is a word. -/
theorem argsItems_chooseParser {factory}
    {chosen : Text × List (CommandArg Executor) × CommandParser Executor}
    (hchosen : chooseParser factory name args = .ok chosen) : argsItems chosen.2.1 = [] := by
  rw [chooseParser] at hchosen
  split at hchosen
  · cases hchosen; rfl
  split at hchosen
  · split at hchosen
    · cases hchosen; rfl
    · cases hchosen
  · cases hchosen

section Linking

variable {factory : CommandFactory Executor}

mutual

theorem linkExpression_linked_iff : ∀ {expression : Expression Empty}
    {linked : Expression Executor}, linkExpression factory expression = .ok linked →
      (AllLinked (expressionItems linked) ↔ PlainExpression expression)
  | .command (.mk name args executor), linked, hlink => by
    simp only [linkExpression, linkCommand, then_ok_iff, done_ok_iff] at hlink
    obtain ⟨_, ⟨chosen, hchosen, linkedArgs, hargs, made, _, rfl⟩, rfl⟩ := hlink
    rw [expressionItems, itemItems, allLinked_cons, argsItems_append,
      argsItems_chooseParser hchosen, List.nil_append, linkArgs_linked_iff hargs,
      PlainExpression]
    exact and_iff_right rfl
  | .group chain, linked, hlink => by
    simp only [linkExpression, then_ok_iff, done_ok_iff] at hlink
    obtain ⟨linkedChain, hchain, rfl⟩ := hlink
    rw [expressionItems, PlainExpression, linkChain_linked_iff hchain]

theorem linkChain_linked_iff : ∀ {chain : ExpressionChain Empty}
    {linked : ExpressionChain Executor}, linkChain factory chain = .ok linked →
      (AllLinked (chainItems linked) ↔ PlainChain chain)
  | [], linked, hlink => by
    obtain rfl := done_ok_iff.mp hlink
    simp [chainItems, PlainChain]
  | (_, expression, _) :: rest, linked, hlink => by
    simp only [linkChain, then_ok_iff, done_ok_iff] at hlink
    obtain ⟨first, hfirst, others, hothers, rfl⟩ := hlink
    rw [chainItems, allLinked_append, linkExpression_linked_iff hfirst,
      linkChain_linked_iff hothers, PlainChain]

theorem linkArg_linked_iff : ∀ {arg : CommandArg Empty} {linked : CommandArg Executor},
    linkArg factory arg = .ok linked → (AllLinked (argItems linked) ↔ PlainArg arg)
  | .commandSubstitution expression, linked, hlink => by
    simp only [linkArg, then_ok_iff, done_ok_iff] at hlink
    obtain ⟨first, hfirst, rfl⟩ := hlink
    rw [argItems, PlainArg, linkExpression_linked_iff hfirst]
  | .listLiteral _, linked, hlink | .mapLiteral _, linked, hlink => by
    rw [← done_ok_iff.mp hlink, argItems_unlinked, allLinked_unlinked_iff, argItems, PlainArg]
  | .literal _, linked, hlink | .stringLiteral _, linked, hlink
  | .typedLiteral _ _, linked, hlink | .var _, linked, hlink => by
    rw [← done_ok_iff.mp hlink, argItems_unlinked, allLinked_unlinked_iff]
    simp [argItems, PlainArg]

theorem linkArgs_linked_iff : ∀ {args : List (CommandArg Empty)}
    {linked : List (CommandArg Executor)}, linkArgs factory args = .ok linked →
      (AllLinked (argsItems linked) ↔ PlainArgs args)
  | [], linked, hlink => by
    obtain rfl := done_ok_iff.mp hlink
    simp [argsItems, PlainArgs]
  | arg :: rest, linked, hlink => by
    simp only [linkArgs, then_ok_iff, done_ok_iff] at hlink
    obtain ⟨first, hfirst, others, hothers, rfl⟩ := hlink
    rw [argsItems, allLinked_append, linkArg_linked_iff hfirst,
      linkArgs_linked_iff hothers, PlainArgs]

end

theorem linkSubject_linked_iff (hlink : linkSubject factory subject = .ok linked) :
    AllLinked (subjectItems linked bindingVar) ↔ PlainSubject subject bindingVar := by
  cases subject with
  | none =>
    obtain rfl := done_ok_iff.mp hlink
    simp [subjectItems, PlainSubject]
  | some subject =>
    simp only [linkSubject, then_ok_iff, done_ok_iff] at hlink
    obtain ⟨arg, harg, rfl⟩ := hlink
    cases bindingVar with
    | none => simp [subjectItems, PlainSubject]
    | some name => exact linkArg_linked_iff harg

mutual

theorem linkLine_linked_iff : ∀ {line : Line Empty} {linked : Line Executor},
    linkLine factory line = .ok linked → (AllLinked (lineItems linked) ↔ PlainLine line)
  | .mk source statements, linked, hlink => by
    simp only [linkLine, then_ok_iff, done_ok_iff] at hlink
    obtain ⟨found, hfound, rfl⟩ := hlink
    rw [lineItems, PlainLine, linkStatements_linked_iff hfound]

theorem linkLines_linked_iff : ∀ {lines : List (Line Empty)} {linked : List (Line Executor)},
    linkLines factory lines = .ok linked → (AllLinked (linesItems linked) ↔ PlainLines lines)
  | [], linked, hlink => by
    obtain rfl := done_ok_iff.mp hlink
    simp [linesItems, PlainLines]
  | line :: rest, linked, hlink => by
    simp only [linkLines, then_ok_iff, done_ok_iff] at hlink
    obtain ⟨first, hfirst, others, hothers, rfl⟩ := hlink
    rw [linesItems, allLinked_append, linkLine_linked_iff hfirst,
      linkLines_linked_iff hothers, PlainLines]

theorem linkStatements_linked_iff : ∀ {statements : List (Statement Empty)}
    {linked : List (Statement Executor)}, linkStatements factory statements = .ok linked →
      (AllLinked (statementsItems linked) ↔ PlainStatements statements)
  | [], linked, hlink => by
    obtain rfl := done_ok_iff.mp hlink
    simp [statementsItems, PlainStatements]
  | statement :: rest, linked, hlink => by
    simp only [linkStatements, then_ok_iff, done_ok_iff] at hlink
    obtain ⟨first, hfirst, others, hothers, rfl⟩ := hlink
    rw [statementsItems, allLinked_append, linkStatement_linked_iff hfirst,
      linkStatements_linked_iff hothers, PlainStatements]

theorem linkStatement_linked_iff : ∀ {statement : Statement Empty}
    {linked : Statement Executor}, linkStatement factory statement = .ok linked →
      (AllLinked (statementItems linked) ↔ PlainStatement statement)
  | .expressions chain, linked, hlink => by
    simp only [linkStatement, then_ok_iff, done_ok_iff] at hlink
    obtain ⟨found, hfound, rfl⟩ := hlink
    rw [statementItems, PlainStatement, linkChain_linked_iff hfound]
  | .ifStatement branches elseLines, linked, hlink => by
    simp only [linkStatement, then_ok_iff, done_ok_iff] at hlink
    obtain ⟨found, hfound, other, hother, rfl⟩ := hlink
    rw [statementItems, PlainStatement, allLinked_append, linkBranches_linked_iff hfound,
      linkElse_linked_iff hother]
  | .caseStatement subject bindingVar branches elseLines, linked, hlink => by
    simp only [linkStatement, then_ok_iff, done_ok_iff] at hlink
    obtain ⟨arg, harg, found, hfound, other, hother, rfl⟩ := hlink
    rw [statementItems, PlainStatement, allLinked_append, allLinked_append,
      linkSubject_linked_iff harg, linkBranches_linked_iff hfound,
      linkElse_linked_iff hother]
  | .forStatement keyVar valueVar iterable lines, linked, hlink => by
    simp only [linkStatement, then_ok_iff, done_ok_iff] at hlink
    obtain ⟨arg, harg, found, hfound, rfl⟩ := hlink
    rw [statementItems, PlainStatement, allLinked_append, linkArg_linked_iff harg,
      linkLines_linked_iff hfound]
  | .matchResultStatement command okBranch errBranch controlBranch, linked, hlink => by
    simp only [linkStatement, then_ok_iff, done_ok_iff] at hlink
    obtain ⟨found, hfound, onOk, hok, onErr, herr, onControl, hctl, rfl⟩ := hlink
    rw [statementItems, PlainStatement, allLinked_append, allLinked_append,
      allLinked_append, linkExpression_linked_iff hfound, linkBranch_linked_iff hok,
      linkBranch_linked_iff herr, linkControlBranch_linked_iff hctl]

theorem linkBranches_linked_iff : ∀ {branches : List (Branch Empty)}
    {linked : List (Branch Executor)}, linkBranches factory branches = .ok linked →
      (AllLinked (branchesItems linked) ↔ PlainBranches branches)
  | [], linked, hlink => by
    obtain rfl := done_ok_iff.mp hlink
    simp [branchesItems, PlainBranches]
  | .mk condition lines :: rest, linked, hlink => by
    simp only [linkBranches, then_ok_iff, done_ok_iff] at hlink
    obtain ⟨chain, hchain, found, hfound, others, hothers, rfl⟩ := hlink
    rw [branchesItems, PlainBranches, allLinked_append, allLinked_append,
      linkChain_linked_iff hchain, linkLines_linked_iff hfound,
      linkBranches_linked_iff hothers]

theorem linkElse_linked_iff : ∀ {elseLines : Option (List (Line Empty))}
    {linked : Option (List (Line Executor))}, linkElse factory elseLines = .ok linked →
      (AllLinked (elseItems linked) ↔ PlainElse elseLines)
  | none, linked, hlink => by
    obtain rfl := done_ok_iff.mp hlink
    simp [elseItems, PlainElse]
  | some lines, linked, hlink => by
    simp only [linkElse, then_ok_iff, done_ok_iff] at hlink
    obtain ⟨found, hfound, rfl⟩ := hlink
    rw [elseItems, PlainElse, linkLines_linked_iff hfound]

theorem linkBranch_linked_iff : ∀ {branch : Option (MatchResultBranch Empty)}
    {linked : Option (MatchResultBranch Executor)}, linkBranch factory branch = .ok linked →
      (AllLinked (branchItems linked) ↔ PlainBranch branch)
  | none, linked, hlink => by
    obtain rfl := done_ok_iff.mp hlink
    simp [branchItems, PlainBranch]
  | some (.mk bindingVar lines), linked, hlink => by
    simp only [linkBranch, then_ok_iff, done_ok_iff] at hlink
    obtain ⟨found, hfound, rfl⟩ := hlink
    rw [branchItems, PlainBranch, linkLines_linked_iff hfound]

theorem linkControlBranch_linked_iff : ∀ {branch : Option (MatchResultControlBranch Empty)}
    {linked : Option (MatchResultControlBranch Executor)},
    linkControlBranch factory branch = .ok linked →
      (AllLinked (controlBranchItems linked) ↔ PlainControlBranch branch)
  | none, linked, hlink => by
    obtain rfl := done_ok_iff.mp hlink
    simp [controlBranchItems, PlainControlBranch]
  | some (.mk actionVar fromVar valueVar lines), linked, hlink => by
    simp only [linkControlBranch, then_ok_iff, done_ok_iff] at hlink
    obtain ⟨found, hfound, rfl⟩ := hlink
    rw [controlBranchItems, PlainControlBranch, linkLines_linked_iff hfound]

end

/-- Linking reaches every command exactly when the literals are plain. -/
theorem link_linked_iff (hlink : link factory block = .ok linked) :
    AllLinked (blockItems linked) ↔ PlainBlock block := by
  simp only [link, then_ok_iff, done_ok_iff] at hlink
  obtain ⟨found, hfound, rfl⟩ := hlink
  exact linkLines_linked_iff hfound

end Linking

end CyfsGateway.ProcessChain
