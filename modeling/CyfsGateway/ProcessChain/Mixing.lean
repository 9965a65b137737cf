import CyfsGateway.ProcessChain.ShortCircuit

/-!
# Chains that mix the operators

Every chain in which `&&` and `||` are mixed has outcomes of its commands for
which execution and reading part.  The outcomes are played from a script, one
for each command in the order in which they run.  A script exists that drives
the reading past a short circuit and then through every operand to the end,
and the executor, which gave up there, has run fewer commands.
-/

namespace CyfsGateway.ProcessChain

open OperatorChains (Joins)

variable {Executor : Type}

/-- Each command's outcome may depend on the commands that ran before it; the
world is the list of the commands that ran. -/
def recorded (outcome : List (CommandItem Executor) → CommandItem Executor →
      Except Failure CommandResult)
    (item : CommandItem Executor) : Run (List (CommandItem Executor)) CommandResult :=
  fun ran => (outcome ran item, ran ++ [item])

def plain (success : Bool) : CommandResult :=
  if success then .empty else .error (.string [])

/-- The commands' outcomes in the order in which they run. -/
def scripted (script : List Bool) (ran : List (CommandItem Executor))
    (_ : CommandItem Executor) : Except Failure CommandResult :=
  .ok (plain (script.getD ran.length true))

/-- `part` is what the script has from `position` on. -/
def Plays (script : List Bool) (position : Nat) (part : List Bool) : Prop :=
  part <+: script.drop position

variable {script : List Bool}

theorem Plays.left {rest} (hplays : Plays script position (part ++ rest)) :
    Plays script position part :=
  (List.prefix_append part rest).trans hplays

theorem Plays.right {rest} (hplays : Plays script position (part ++ rest)) :
    Plays script (position + part.length) rest := by
  obtain ⟨tail, htail⟩ := hplays
  refine ⟨tail, ?_⟩
  rw [← List.drop_drop, ← htail, List.append_assoc, List.drop_left]

theorem Plays.head (hplays : Plays script position [success]) :
    script.getD position true = success := by
  obtain ⟨tail, htail⟩ := hplays
  rw [List.getD_eq_getElem?_getD, ← List.head?_drop, ← htail]
  rfl

variable {Result : Type} {run : Run (List (CommandItem Executor)) Result}
  {ran : List (CommandItem Executor)} {result : Result} {count : Nat}

/-- From `ran` the computation returns `result` after `count` commands. -/
def Returns (run : Run (List (CommandItem Executor)) Result)
    (ran : List (CommandItem Executor)) (result : Result) (count : Nat) : Prop :=
  ∃ after, run ran = (.ok result, after) ∧ after.length = ran.length + count

/-- From `ran` the computation runs at most `count` commands. -/
def Within (run : Run (List (CommandItem Executor)) Result)
    (ran : List (CommandItem Executor)) (count : Nat) : Prop :=
  (run ran).2.length ≤ ran.length + count

theorem returns_pure (ran : List (CommandItem Executor)) (result : Result) :
    Returns (pure result) ran result 0 := ⟨ran, rfl, rfl⟩

theorem returns_bind (hrun : Returns run ran result count)
    (hnext : ∀ after : List (CommandItem Executor), after.length = ran.length + count →
      Returns (next result) after last more) :
    Returns (run >>= next) ran last (count + more) := by
  obtain ⟨after, heq, hlen⟩ := hrun
  obtain ⟨final, hfinal, hcount⟩ := hnext after hlen
  refine ⟨final, ?_, by omega⟩
  rw [OperatorChains.bind_apply, heq]
  exact hfinal

theorem within_bind (hrun : Within run ran count)
    (hnext : ∀ result after, Within (next result) after more) :
    Within (run >>= next) ran (count + more) := by
  rw [Within] at hrun ⊢
  rw [OperatorChains.bind_apply]
  rcases heq : run ran with ⟨outcome, after⟩
  rw [heq] at hrun
  cases outcome with
  | error failure => exact Nat.le_trans hrun (by omega)
  | ok result =>
    have hlater : (next result after).2.length ≤ after.length + more := hnext result after
    exact Nat.le_trans hlater (by simp only at hrun; omega)

theorem Returns.within_bind (hrun : Returns run ran result count)
    (hnext : ∀ after : List (CommandItem Executor), after.length = ran.length + count →
      Within (next result) after more) :
    Within (run >>= next) ran (count + more) := by
  obtain ⟨after, heq, hlen⟩ := hrun
  have hlater := hnext after hlen
  rw [Within] at hlater ⊢
  rw [OperatorChains.bind_apply, heq]
  exact Nat.le_trans hlater (by omega)

theorem within_pure (ran : List (CommandItem Executor)) (result : Result) (count : Nat) :
    Within (pure result) ran count := Nat.le_add_right _ _

theorem Within.mono (hwithin : Within run ran count) (hle : count ≤ more) : Within run ran more :=
  Nat.le_trans hwithin (by omega)

theorem returns_wrapping (location : Location) (code : ProcessChainErrorCode)
    (message : String) (hrun : Returns run ran result count) :
    Returns (wrapping location code message run) ran result count := by
  obtain ⟨after, heq, hlen⟩ := hrun
  exact ⟨after, by rw [wrapping, heq], hlen⟩

theorem within_wrapping (location : Location) (code : ProcessChainErrorCode)
    (message : String) (hrun : Within run ran count) :
    Within (wrapping location code message run) ran count := by
  rw [Within] at hrun ⊢
  rw [wrapping]
  rcases heq : run ran with ⟨outcome, after⟩
  rw [heq] at hrun
  cases outcome <;> exact hrun

/-! ## Scripts that run every command -/

mutual

/-- The chains of the language: groups are not empty and `&&` or `||` stands
between any two expressions. -/
def Proper : Expression Executor → Prop
  | .command _ => True
  | .group chain =>
    chain ≠ [] ∧ (∀ operator ∈ operatorsBetween chain, operator = some .and ∨ operator = some .or) ∧
      ProperOperands chain

def ProperOperands : ExpressionChain Executor → Prop
  | [] => True
  | (_, expression, _) :: rest => Proper expression ∧ ProperOperands rest

end

def ProperChain (chain : ExpressionChain Executor) : Prop := Proper (.group chain)

/-- The result an expression must have for its operand to succeed or fail. -/
def beforePrefix (prefixOp : Option Operator) (success : Bool) : Bool :=
  if prefixOp = some .not then !success else success

/-- The result with which a chain goes on behind an operator. -/
def goesOn (operator : Option Operator) : Bool := operator != some .or

mutual

/-- Outcomes with which every command of an expression runs and its result is
`success`. -/
def fullScript (success : Bool) : Expression Executor → List Bool
  | .command _ => [success]
  | .group chain => fullScripts success chain

def fullScripts (success : Bool) : ExpressionChain Executor → List Bool
  | [] => []
  | (prefixOp, expression, postOp) :: rest =>
    fullScript (beforePrefix prefixOp (if rest.isEmpty then success else goesOn postOp))
      expression ++ fullScripts success rest

end

mutual

def commandCount : Expression Executor → Nat
  | .command _ => 1
  | .group chain => commandCounts chain

def commandCounts : ExpressionChain Executor → Nat
  | [] => 0
  | (_, expression, _) :: rest => commandCount expression + commandCounts rest

end

mutual

theorem length_fullScript : ∀ (expression : Expression Executor) (success : Bool),
      (fullScript success expression).length = commandCount expression
  | .command _, _ => rfl
  | .group chain, success => length_fullScripts chain success

theorem length_fullScripts : ∀ (chain : ExpressionChain Executor) (success : Bool),
      (fullScripts success chain).length = commandCounts chain
  | [], _ => rfl
  | (_, expression, _) :: rest, success => by
    rw [fullScripts, commandCounts, List.length_append,
      length_fullScript expression, length_fullScripts rest]

end

mutual

theorem commandCount_pos :
    ∀ expression : Expression Executor, Proper expression → 0 < commandCount expression
  | .command _, _ => Nat.one_pos
  | .group chain, hprop => by
    rw [Proper] at hprop
    exact commandCounts_pos chain hprop.1 hprop.2.2

theorem commandCounts_pos : ∀ chain : ExpressionChain Executor, chain ≠ [] → ProperOperands chain →
      0 < commandCounts chain
  | [], hchain, _ => absurd rfl hchain
  | (_, expression, _) :: _, _, hprop => by
    rw [ProperOperands] at hprop
    exact Nat.add_pos_left (commandCount_pos expression hprop.1) _

end

theorem not_passes_goesOn (operator : Option Operator) :
    ¬ shortCircuits.passes operator (plain (goesOn operator)) := by
  rcases operator with _ | operator
  · decide
  · cases operator <;> decide

variable {operator : Option Operator}

theorem walk_eq_walkChain {World : Type} {early : Bool} {location : Location}
    {result : CommandResult} {operands : List (ChainOperand World)} (hoperands : operands ≠ [])
    (hpasses : ¬ shortCircuits.passes operator result) :
    OperatorChains.walk shortCircuits early result operator (operandRuns location operands) =
      walkChain early location operands := by
  cases operands with
  | nil => exact absurd rfl hoperands
  | cons first rest =>
    rw [operandRuns, List.map_cons, OperatorChains.walk, if_neg hpasses]
    rfl

theorem walkOperands_ne_nil {World : Type} {early : Bool}
    {command : CommandItem Executor → Run World CommandResult} {location : Location}
    {chain : ExpressionChain Executor} (hchain : chain ≠ []) :
    walkOperands early command location chain ≠ [] := by
  cases chain with
  | nil => exact absurd rfl hchain
  | cons link rest => exact List.cons_ne_nil _ _

section Operands

variable {location : Location}

theorem returns_operandRun {run prefixOp} (postOp : Option Operator)
    (hrun : Returns run ran (plain (beforePrefix prefixOp success)) count) :
    Returns (operandRun location (prefixOp, run, postOp)) ran (plain success) count := by
  change Returns _ ran _ (count + 0)
  refine returns_bind (returns_wrapping _ _ _ hrun) fun after _ => ?_
  rcases prefixOp with _ | operator
  · exact returns_pure after _
  cases operator with
  | and | or => exact returns_pure after _
  | not => cases success <;> exact ⟨after, rfl, rfl⟩

theorem within_operandRun (hrun : Within operand.2.1 ran count) :
    Within (operandRun location operand) ran count := by
  change Within _ ran (count + 0)
  refine within_bind (within_wrapping _ _ _ hrun) fun result after => ?_
  obtain ⟨prefixOp, run, postOp⟩ := operand
  rcases prefixOp with _ | operator
  · exact within_pure after _ 0
  cases operator with
  | and | or => exact within_pure after _ 0
  | not => exact within_wrapping _ _ _ (Nat.le_refl _)

end Operands

section Walks

variable (early : Bool) (location : Location)

mutual

/-- The full script runs every command, both when executed and when read. -/
theorem returns_fullScript (script : List Bool) :
    ∀ (expression : Expression Executor) (success : Bool), Proper expression →
      ∀ ran : List (CommandItem Executor), Plays script ran.length (fullScript success expression) →
        Returns (walkExpression early (recorded (scripted script)) location expression) ran
          (plain success) (commandCount expression)
  | .command item, success, _, ran, hplays => by
    rw [fullScript] at hplays
    have hrecorded : recorded (scripted script) item ran =
        (.ok (plain success), ran ++ [item]) := by rw [recorded, scripted, hplays.head]
    rw [walkExpression, executeCommandExpression]
    exact returns_wrapping _ _ _ ⟨ran ++ [item], hrecorded, List.length_append⟩
  | .group chain, success, hprop, ran, hplays => by
    exact returns_fullScripts script chain success hprop.1 hprop.2.2 ran hplays

theorem returns_fullScripts (script : List Bool) :
    ∀ (chain : ExpressionChain Executor) (success : Bool), chain ≠ [] →
      ProperOperands chain → ∀ ran : List (CommandItem Executor),
        Plays script ran.length (fullScripts success chain) →
        Returns (walkChain early location
            (walkOperands early (recorded (scripted script)) location chain))
          ran (plain success) (commandCounts chain)
  | [], _, hchain, _, _, _ => absurd rfl hchain
  | [(prefixOp, expression, postOp)], success, _, hprop, ran, hplays => by
    rw [ProperOperands] at hprop
    rw [fullScripts] at hplays
    refine returns_bind (returns_operandRun postOp
      (returns_fullScript script expression _ hprop.1 ran hplays.left))
      fun after _ => returns_pure after _
  | (prefixOp, expression, postOp) :: link :: rest, success, _, hprop, ran, hplays => by
    rw [ProperOperands] at hprop
    rw [fullScripts] at hplays
    have hlen := length_fullScript expression (beforePrefix prefixOp (goesOn postOp))
    refine returns_bind (returns_operandRun postOp
      (returns_fullScript script expression _ hprop.1 ran hplays.left)) fun after hafter => ?_
    rw [show (if (link :: rest).isEmpty then success else goesOn postOp) = goesOn postOp
      from rfl, walk_eq_walkChain (walkOperands_ne_nil (List.cons_ne_nil link rest))
        (not_passes_goesOn postOp)]
    refine returns_fullScripts script (link :: rest) success
      (List.cons_ne_nil link rest) hprop.2 after ?_
    rw [hafter, ← hlen]
    exact hplays.right

end

variable (outcome : List (CommandItem Executor) → CommandItem Executor →
  Except Failure CommandResult)

mutual

theorem within_commandCount :
    ∀ (expression : Expression Executor) (ran : List (CommandItem Executor)),
      Within (walkExpression early (recorded outcome) location expression) ran
        (commandCount expression)
  | .command item, ran => by
    rw [walkExpression, executeCommandExpression]
    exact within_wrapping _ _ _ (Nat.le_of_eq List.length_append)
  | .group [], ran => within_pure ran _ _
  | .group ((prefixOp, expression, postOp) :: rest), ran =>
    within_bind (within_operandRun (within_commandCount expression ran))
      fun result after => within_commandCounts rest result postOp after

theorem within_commandCounts : ∀ (chain : ExpressionChain Executor) (result : CommandResult)
      (operator : Option Operator) (ran : List (CommandItem Executor)),
      Within (OperatorChains.walk shortCircuits early result operator
          (operandRuns location (walkOperands early (recorded outcome) location chain)))
        ran (commandCounts chain)
  | [], result, _, ran => within_pure ran result 0
  | (prefixOp, expression, postOp) :: rest, result, operator, ran => by
    rw [walkOperands, operandRuns, List.map_cons, OperatorChains.walk, commandCounts]
    split
    · split
      · exact within_pure ran result _
      · exact (within_commandCounts rest result postOp ran).mono (Nat.le_add_left _ _)
    · exact within_bind (within_operandRun (within_commandCount expression ran))
        fun result after => within_commandCounts rest result postOp after

end

end Walks

/-! ## Execution falls behind -/

/-- A script that the reading follows to its end with either result, while the
execution runs fewer commands. -/
def FallsBehind (execution reading : List Bool → Run (List (CommandItem Executor)) CommandResult) :
    Prop :=
  ∀ success, ∃ part, 0 < part.length ∧ ∀ script ran, Plays script ran.length part →
    Returns (reading script) ran (plain success) part.length ∧
      Within (execution script) ran (part.length - 1)

/-- The execution of an expression falls behind its reading: whichever result the reading
comes to, for some outcomes of the commands the execution runs fewer of them. -/
def ExecutionFallsBehind (location : Location) (expression : Expression Executor) : Prop :=
  FallsBehind (fun script => walkExpression true (recorded (scripted script)) location expression)
    (fun script => walkExpression false (recorded (scripted script)) location expression)

theorem passes_not_goesOn (hbinary : operator = some .and ∨ operator = some .or) :
    shortCircuits.passes operator (plain !goesOn operator) := by
  rcases hbinary with rfl | rfl <;> decide

theorem goesOn_of_ne (hbinary : operator = some .and ∨ operator = some .or)
    (hother : other = some .and ∨ other = some .or) (hne : other ≠ operator) :
    (!goesOn operator) = goesOn other := by
  rcases hbinary with rfl | rfl <;> rcases hother with rfl | rfl <;>
    first
    | rfl
    | exact absurd rfl hne

variable {postOp : Option Operator} {expression : Expression Executor}
  {rest : ExpressionChain Executor}

theorem operatorsBetween_cons (hrest : rest ≠ []) :
    operatorsBetween ((prefixOp, expression, postOp) :: rest) =
      postOp :: operatorsBetween rest := by
  cases rest with
  | nil => exact absurd rfl hrest
  | cons link rest => rfl

def walkRest (early : Bool) (location : Location) (success : Bool) (postOp : Option Operator)
    (rest : ExpressionChain Executor) (script : List Bool) :
    Run (List (CommandItem Executor)) CommandResult :=
  OperatorChains.walk shortCircuits early (plain success) postOp
    (operandRuns location (walkOperands early (recorded (scripted script)) location rest))

variable (location : Location)

/-- Behind a short circuit the reading goes on at the first other operator. -/
theorem returns_resumed (hbinary : operator = some .and ∨ operator = some .or) (success : Bool) :
    ∀ rest : ExpressionChain Executor, ProperOperands rest →
      (∀ later ∈ operatorsBetween rest, later = some .and ∨ later = some .or) →
      (∃ later ∈ operatorsBetween rest, later ≠ operator) →
      ∃ part, 0 < part.length ∧ ∀ script ran, Plays script ran.length part →
        Returns (walkRest false location (!goesOn operator) operator rest script) ran
          (plain success) part.length := by
  intro rest
  induction rest with
  | nil => rintro _ _ ⟨later, hlater, _⟩; cases hlater
  | cons link rest ih =>
    obtain ⟨prefixOp, expression, postOp⟩ := link
    rintro hprop hops hother
    rw [ProperOperands] at hprop
    have hrest : rest ≠ [] := by
      rintro rfl
      obtain ⟨later, hlater, _⟩ := hother
      cases hlater
    rw [operatorsBetween_cons hrest] at hops hother
    simp only [walkRest, walkOperands, operandRuns, List.map_cons, OperatorChains.walk,
      if_pos (passes_not_goesOn hbinary)]
    by_cases hsame : postOp = operator
    · subst hsame
      refine ih hprop.2 (fun later hlater => hops later (.tail _ hlater)) ?_
      obtain ⟨later, hlater, hne⟩ := hother
      rcases List.mem_cons.mp hlater with rfl | hlater
      · exact absurd rfl hne
      · exact ⟨later, hlater, hne⟩
    · refine ⟨fullScripts success rest, ?_, fun script ran hplays => ?_⟩
      · rw [length_fullScripts]
        exact commandCounts_pos rest hrest hprop.2
      · have hpasses : ¬ shortCircuits.passes postOp (plain !goesOn operator) := by
          rw [goesOn_of_ne hbinary (hops postOp (.head _)) hsame]
          exact not_passes_goesOn postOp
        rw [length_fullScripts]
        have hwalk := returns_fullScripts false location script rest success hrest hprop.2
          ran hplays
        rw [← walk_eq_walkChain (walkOperands_ne_nil hrest) hpasses] at hwalk
        exact hwalk

theorem fallsBehind_of_walkRest (between : Bool)
    (hprop : Proper expression) (hbehind : FallsBehind
      (walkRest true location between postOp rest) (walkRest false location between postOp rest)) :
    ExecutionFallsBehind location (.group ((prefixOp, expression, postOp) :: rest)) := by
  intro success
  simp only [walkExpression]
  obtain ⟨part, hpos, hpart⟩ := hbehind success
  have hlen := length_fullScript expression (beforePrefix prefixOp between)
  refine ⟨fullScript (beforePrefix prefixOp between) expression ++ part,
    by rw [List.length_append]; omega, fun script ran hplays => ?_⟩
  have hfirst (early : Bool) :=
    returns_fullScript early location script expression _ hprop ran hplays.left
  have hplaysRest (after : List (CommandItem Executor))
      (hafter : after.length = ran.length + commandCount expression) :
      Plays script after.length part := by
    rw [hafter, ← hlen]
    exact hplays.right
  rw [List.length_append, hlen]
  constructor
  · exact returns_bind (returns_operandRun postOp (hfirst false)) fun after hafter =>
      (hpart script after (hplaysRest after hafter)).1
  · refine ((returns_operandRun postOp (hfirst true)).within_bind fun after hafter =>
      (hpart script after (hplaysRest after hafter)).2).mono ?_
    omega

/-- A short circuit at the first operator that the reading overcomes. -/
theorem fallsBehind_of_first (hprop : Proper expression) (hrest : ProperOperands rest)
    (hbinary : postOp = some .and ∨ postOp = some .or)
    (hops : ∀ later ∈ operatorsBetween rest, later = some .and ∨ later = some .or)
    (hother : ∃ later ∈ operatorsBetween rest, later ≠ postOp) :
    ExecutionFallsBehind location (.group ((prefixOp, expression, postOp) :: rest)) := by
  refine fallsBehind_of_walkRest location (!goesOn postOp) hprop fun success => ?_
  obtain ⟨part, hpart, hresumed⟩ :=
    returns_resumed location hbinary success rest hrest hops hother
  refine ⟨part, hpart, fun script ran hplays => ⟨hresumed script ran hplays, ?_⟩⟩
  cases rest with
  | nil => obtain ⟨later, hlater, _⟩ := hother; cases hlater
  | cons link rest =>
    rw [walkRest, walkOperands, operandRuns, List.map_cons, OperatorChains.walk,
      if_pos (passes_not_goesOn hbinary), if_pos rfl]
    exact within_pure ran _ _

theorem fallsBehind_of_rest (hprop : Proper expression) (hrest : rest ≠ [])
    (hbehind : ExecutionFallsBehind location (.group rest)) :
    ExecutionFallsBehind location (.group ((prefixOp, expression, postOp) :: rest)) := by
  have hwalk (early : Bool) : walkRest early location (goesOn postOp) postOp rest =
      fun script => walkExpression early (recorded (scripted script)) location (.group rest) := by
    ext1 script
    exact walk_eq_walkChain (walkOperands_ne_nil hrest) (not_passes_goesOn postOp)
  apply fallsBehind_of_walkRest location (goesOn postOp) hprop
  rw [hwalk, hwalk]
  exact hbehind

theorem fallsBehind_of_operand
    (hrest : ProperOperands rest) (hbehind : ExecutionFallsBehind location expression) :
    ExecutionFallsBehind location (.group ((prefixOp, expression, postOp) :: rest)) := by
  intro success
  simp only [walkExpression]
  obtain ⟨part, hpos, hpart⟩ := hbehind
    (beforePrefix prefixOp (if rest.isEmpty then success else goesOn postOp))
  refine ⟨part ++ fullScripts success rest, by rw [List.length_append]; omega,
    fun script ran hplays => ?_⟩
  obtain ⟨hreading, hexec⟩ := hpart script ran hplays.left
  rw [List.length_append, length_fullScripts]
  constructor
  · refine returns_bind (returns_operandRun postOp hreading) fun after hafter => ?_
    cases rest with
    | nil => exact returns_pure after _
    | cons link rest =>
      change Returns (OperatorChains.walk shortCircuits false (plain (goesOn postOp)) postOp
        _) after _ _
      rw [walk_eq_walkChain (walkOperands_ne_nil (List.cons_ne_nil link rest))
        (not_passes_goesOn postOp)]
      refine returns_fullScripts false location script (link :: rest) success
        (List.cons_ne_nil link rest) hrest after ?_
      rw [hafter]
      exact hplays.right
  · have hshort : part.length - 1 + commandCounts rest ≤ part.length + commandCounts rest - 1 := by
      omega
    refine (within_bind (within_operandRun hexec) fun result after => ?_).mono hshort
    exact within_commandCounts true location _ rest result postOp after

mutual

theorem fallsBehind_expression (location : Location) :
    ∀ expression : Expression Executor, Proper expression → ¬ Unmixed expression →
      ExecutionFallsBehind location expression
  | .command _, _, hmixed => absurd (by rw [Unmixed]; trivial) hmixed
  | .group chain, hprop, hmixed => by
    rw [Proper] at hprop
    rw [Unmixed] at hmixed
    exact fallsBehind_chain location chain hprop.2.1 hprop.2.2 hmixed

theorem fallsBehind_chain (location : Location) : ∀ chain : ExpressionChain Executor,
      (∀ operator ∈ operatorsBetween chain, operator = some .and ∨ operator = some .or) →
      ProperOperands chain →
      ¬ ((operatorsBetween chain).Pairwise (· = ·) ∧ UnmixedOperands chain) →
      ExecutionFallsBehind location (.group chain)
  | [], _, _, hmixed => absurd ⟨List.Pairwise.nil, by rw [UnmixedOperands]; trivial⟩ hmixed
  | (prefixOp, expression, postOp) :: rest, hops, hprop, hmixed => by
    rw [ProperOperands] at hprop
    by_cases hexpr : Unmixed expression
    swap
    · exact fallsBehind_of_operand location hprop.2
        (fallsBehind_expression location expression hprop.1 hexpr)
    have hrest : rest ≠ [] := by
      rintro rfl
      refine hmixed ⟨List.Pairwise.nil, ?_⟩
      exact ⟨hexpr, trivial⟩
    rw [operatorsBetween_cons hrest] at hops hmixed
    have hlater := fun operator hmem => hops operator (.tail postOp hmem)
    by_cases hunmixed : (operatorsBetween rest).Pairwise (· = ·) ∧ UnmixedOperands rest
    swap
    · exact fallsBehind_of_rest location hprop.1 hrest
        (fallsBehind_chain location rest hlater hprop.2 hunmixed)
    refine fallsBehind_of_first location hprop.1 hprop.2 (hops postOp (.head _)) hlater ?_
    by_contra hsame
    refine hmixed ⟨List.pairwise_cons.mpr ⟨fun later hmem => ?_, hunmixed.1⟩, ?_⟩
    · by_contra hne
      exact hsame ⟨later, hmem, Ne.symm hne⟩
    · rw [UnmixedOperands]
      exact ⟨hexpr, hunmixed.2⟩

end

theorem not_executeExpressionChain_eq_read {chain : ExpressionChain Executor}
    (hprop : ProperChain chain) (hmixed : ¬ UnmixedChain chain) (location : Location) :
    ∃ outcome, executeExpressionChain location true "" .empty
        (executeOperands (recorded outcome) location chain) [] ≠
      readExpressionChain location true "" (readOperands (recorded outcome) location chain) [] := by
  obtain ⟨part, hpos, hpart⟩ := fallsBehind_expression location (.group chain) hprop hmixed true
  refine ⟨scripted part, fun heq => ?_⟩
  obtain ⟨⟨after, hreading, hlen⟩, hexec⟩ := hpart part [] (List.prefix_refl part)
  rw [executeExpressionChain_eq_walk, readExpressionChain_eq_walk, settled_true,
    settled_true, executeOperands_eq_walk, readOperands_eq_walk] at heq
  simp only [walkExpression] at hreading hexec
  rw [Within, heq, hreading] at hexec
  simp only [List.length_nil, Nat.zero_add] at hlen hexec
  omega

/-- A chain is executed as it reads from the left, with the same commands in the
same order and the same result for all outcomes of the commands, exactly when
neither it nor a group in it mixes `&&` and `||`. -/
theorem executeExpressionChain_left_to_right_iff (chain : ExpressionChain Executor)
    (hproper : ProperChain chain) :
    (∀ (outcome : List (CommandItem Executor) → CommandItem Executor → Except Failure CommandResult)
      (location : Location) (allowControl : Bool) (controlErrorMessage : String)
      (ran : List (CommandItem Executor)),
      executeExpressionChain location allowControl controlErrorMessage .empty
          (executeOperands (recorded outcome) location chain) ran =
        readExpressionChain location allowControl controlErrorMessage
          (readOperands (recorded outcome) location chain) ran) ↔
      UnmixedChain chain := by
  constructor
  · intro hagree
    by_contra hmixed
    obtain ⟨outcome, hne⟩ := not_executeExpressionChain_eq_read hproper hmixed ⟨none, none⟩
    exact hne (hagree outcome ⟨none, none⟩ true "" [])
  · intro hunmixed outcome location allowControl controlErrorMessage ran
    rw [executeExpressionChain_eq_read _ _ hunmixed]

def sampleCommand (name : String) (words : List String) : CommandItem Unit :=
  .mk name.toList ((name :: words).map fun word => .literal word.toList) none

/-- `eq a b && eq c d`. -/
def sampleComparisons : ExpressionChain Unit :=
  [(none, .command (sampleCommand "eq" ["a", "b"]), some .and),
    (none, .command (sampleCommand "eq" ["c", "d"]), none)]

theorem executeExpressionChain_left_to_right_comparisons : ProperChain sampleComparisons ∧
      ∀ (outcome : List (CommandItem Unit) → CommandItem Unit → Except Failure CommandResult)
        (location : Location) (allowControl : Bool) (controlErrorMessage : String)
        (ran : List (CommandItem Unit)),
        executeExpressionChain location allowControl controlErrorMessage .empty
            (executeOperands (recorded outcome) location sampleComparisons) ran =
          readExpressionChain location allowControl controlErrorMessage
            (readOperands (recorded outcome) location sampleComparisons) ran := by
  have hprop : ProperChain sampleComparisons := by
    simp [ProperChain, Proper, ProperOperands, sampleComparisons, operatorsBetween]
  refine ⟨hprop, (executeExpressionChain_left_to_right_iff _ hprop).mpr ?_⟩
  simp [UnmixedChain, Unmixed, UnmixedOperands, sampleComparisons, operatorsBetween]

/-- `eq a b && eq c d || return fail`. -/
def sampleGuard : ExpressionChain Unit :=
  [(none, .command (sampleCommand "eq" ["a", "b"]), some .and),
    (none, .command (sampleCommand "eq" ["c", "d"]), some .or),
    (none, .command (sampleCommand "return" ["fail"]), none)]

/-- The first comparison fails; `return` returns from the block. -/
def sampleOutcome (ran : List (CommandItem Unit)) (_ : CommandItem Unit) :
    Except Failure CommandResult :=
  if ran = [] then .ok (.error (.bool false))
  else .ok (.control (.return .block (.string "fail".toList)))

/-- The first comparison of `eq a b && eq c d || return fail` fails: the
language runs `return`, the executor does not. -/
theorem return_skipped_after_failed_comparison : executeExpressionChain ⟨none, none⟩ true "" .empty
        (executeOperands (recorded sampleOutcome) ⟨none, none⟩ sampleGuard) [] =
      (.ok (.error (.bool false)), [sampleCommand "eq" ["a", "b"]]) ∧
    readExpressionChain ⟨none, none⟩ true ""
        (readOperands (recorded sampleOutcome) ⟨none, none⟩ sampleGuard) [] =
      (.ok (.control (.return .block (.string "fail".toList))),
        [sampleCommand "eq" ["a", "b"], sampleCommand "return" ["fail"]]) := by exact ⟨rfl, rfl⟩

end CyfsGateway.ProcessChain
