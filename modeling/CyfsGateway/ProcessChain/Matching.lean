import CyfsGateway.ProcessChain.Linkage

/-!
# Matching runs

Two hosts that answer alike in corresponding worlds run a block alike: from
corresponding worlds it ends with the same result or failure, in corresponding
worlds.  Nothing but its commands can make a difference, so it is enough that each
command the block can reach behaves alike when its arguments do.

With equal hosts and worlds that correspond when they are equal and satisfy a
condition, this is the rule of invariants.
-/

namespace CyfsGateway.ProcessChain

variable {First Second Value Executor : Type}

/-- A computation in a changed world, some of which is put back however it ends. -/
def around {World : Type} (enter : World → World) (leave : World → World → World)
    (run : Run World Value) : Run World Value := fun world =>
  let (outcome, after) := run (enter world)
  (outcome, leave world after)

/-- Which worlds correspond and which failures may come out; all but those of commands
without executor do. -/
structure Matching (First Second : Type) where
  worlds : First → Second → Prop
  fine : Failure → Prop
  fine_message : ∀ text, fine (.message text)
  fine_result : ∀ result, fine (.result result)
  fine_wrapped : ∀ code message line source cause, code ≠ .runtimeCommandNotLinked →
    fine cause → fine (.wrapped code message line source cause)
  fine_both : ∀ execution restore, fine execution → fine restore → fine (.both execution restore)

namespace Matching

variable (matching : Matching First Second)

def Queries (query : Query First Value) (other : Query Second Value) : Prop :=
  ∀ world image, matching.worlds world image →
    (query world).1 = (other image).1 ∧ matching.worlds (query world).2 (other image).2

def Runs (run : Run First Value) (other : Run Second Value) : Prop :=
  ∀ world image, matching.worlds world image → (run world).1 = (other image).1 ∧
      (∀ failure, (run world).1 = .error failure → matching.fine failure) ∧
      matching.worlds (run world).2 (other image).2

structure Args (arg : ArgRun First) (other : ArgRun Second) : Prop where
  evaluate : matching.Runs arg.evaluate other.evaluate
  execute : Option.Rel matching.Runs arg.execute other.execute

section Rules

variable {matching}

/-- What a matched run satisfies, every run of a matched argument does. -/
theorem holds_of_args {Holds : ∀ {Value : Type}, Run First Value → Prop}
    (hholds : ∀ {Value : Type} {run : Run First Value} {other : Run Second Value},
      matching.Runs run other → Holds run)
    (hargs : List.Forall₂ matching.Args args others) :
    ∀ arg ∈ args, Holds arg.evaluate ∧ ∀ run ∈ arg.execute, Holds run := by
  induction hargs with
  | nil => exact fun arg harg => absurd harg List.not_mem_nil
  | @cons first second _ _ hfirst _ ih =>
    obtain ⟨evaluate, execute⟩ := first
    obtain ⟨evaluate', execute'⟩ := second
    obtain ⟨hevaluate, hexecute⟩ := hfirst
    refine List.forall_mem_cons.mpr ⟨⟨hholds hevaluate, fun run hrun => ?_⟩, ih⟩
    cases hrun
    cases hexecute with
    | some hsame => exact hholds hsame

theorem runs_pure (value : Value) : matching.Runs (pure value) (pure value) :=
  fun _ _ hworlds => ⟨rfl, nofun, hworlds⟩

theorem Runs.ends (hrun : matching.Runs run other) {world image}
    (hworlds : matching.worlds world image) :
    ∃ outcome after behind, run world = (outcome, after) ∧ other image = (outcome, behind) ∧
      (∀ failure, outcome = .error failure → matching.fine failure) ∧
      matching.worlds after behind := by
  obtain ⟨hsame, hfine, hafter⟩ := hrun world image hworlds
  exact ⟨_, _, _, rfl, Prod.ext hsame.symm rfl, hfine, hafter⟩

theorem fine_of_error {failure} (hfail : matching.fine failure) (other : Failure)
    (hother : (.error failure : Except Failure Value) = .error other) : matching.fine other := by
  cases hother
  exact hfail

theorem runs_throw {failure} (hfail : matching.fine failure) :
    matching.Runs (throw failure : Run First Value) (throw failure) :=
  fun _ _ hworlds => ⟨rfl, fine_of_error hfail, hworlds⟩

theorem runs_refuse (message : String) (subject : Text) :
    matching.Runs (refuse message subject : Run First Value) (refuse message subject) :=
  runs_throw (matching.fine_message _)

theorem runs_bind (hrun : matching.Runs run other)
    (hnext : ∀ value, matching.Runs (next value) (otherNext value)) :
    matching.Runs (run >>= next) (other >>= otherNext) := by
  intro world image hworlds
  obtain ⟨outcome, after, behind, hfirst, hsnd, hfine, hafter⟩ := hrun.ends hworlds
  rw [OperatorChains.bind_apply, OperatorChains.bind_apply, hfirst, hsnd]
  cases outcome with
  | error failure => exact ⟨rfl, fine_of_error (hfine failure rfl), hafter⟩
  | ok value => exact hnext value after behind hafter

theorem runs_ite {condition} [Decidable condition] {run' other'} (hrun : matching.Runs run other)
    (hrun' : matching.Runs run' other') :
    matching.Runs (if condition then run else run') (if condition then other else other') := by
  split
  · exact hrun
  · exact hrun'

theorem runs_ask {query : Query First Value} {query' : Query Second Value}
    (hquery : matching.Queries query query') : matching.Runs (ask query) (ask query') := by
  intro world image hworlds
  obtain ⟨hsame, hafter⟩ := hquery world image hworlds
  rw [ask, ask]
  rcases hfirst : query world with ⟨outcome, after⟩
  rcases hsnd : query' image with ⟨outcome', imageAfter⟩
  rw [hfirst, hsnd] at hsame hafter
  cases hsame
  cases outcome with
  | ok value => exact ⟨rfl, nofun, hafter⟩
  | error message => exact ⟨rfl, fine_of_error (matching.fine_message message), hafter⟩

theorem runs_wrapping {location code message} (hcode : code ≠ .runtimeCommandNotLinked)
    (hrun : matching.Runs run other) :
    matching.Runs (wrapping location code message run) (wrapping location code message other) := by
  intro world image hworlds
  obtain ⟨outcome, after, behind, hfirst, hsnd, hfine, hafter⟩ := hrun.ends hworlds
  rw [wrapping, wrapping, hfirst, hsnd]
  cases outcome with
  | ok value => exact ⟨rfl, nofun, hafter⟩
  | error cause =>
    exact ⟨rfl, fine_of_error (matching.fine_wrapped _ _ _ _ _ hcode (hfine cause rfl)), hafter⟩

/-- Worlds that correspond outside, and worlds that correspond inside. -/
theorem runs_around {inner : Matching First Second}
    (henter : ∀ world image, matching.worlds world image →
      inner.worlds (enter world) (enter' image))
    (hleave : ∀ world image after after', matching.worlds world image →
      inner.worlds after after' → matching.worlds (leave world after) (leave' image after'))
    (hrun : inner.Runs run other) (hfine : ∀ failure, inner.fine failure → matching.fine failure) :
    matching.Runs (around enter leave run) (around enter' leave' other) := by
  intro world image hworlds
  obtain ⟨hsame, hfail, hafter⟩ := hrun _ _ (henter world image hworlds)
  exact ⟨hsame, fun failure herror => hfine failure (hfail failure herror),
    hleave world image _ _ hworlds hafter⟩

end Rules

structure Stores (store : VariableStore First) (other : VariableStore Second) : Prop where
  get : ∀ key, matching.Queries (store.get key) (other.get key)
  listGet : ∀ object index,
    matching.Queries (store.listGet object index) (other.listGet object index)
  mapGet : ∀ object key, matching.Queries (store.mapGet object key) (other.mapGet object key)
  setContains : ∀ object key,
    matching.Queries (store.setContains object key) (other.setContains object key)
  multiMapGetMany : ∀ object key,
    matching.Queries (store.multiMapGetMany object key) (other.multiMapGetMany object key)
  strictMissing : store.strictMissing = other.strictMissing

section Variables

variable {matching} {store : VariableStore First} {other : VariableStore Second}
  (hstores : matching.Stores store other)
  {nested : Text → Run First VarEvalResult} {nested' : Text → Run Second VarEvalResult}
  (hnested : ∀ text, matching.Runs (nested text) (nested' text))

include hstores hnested in
theorem runs_resolveSegmentKey (var : Text) (segment : VarPathSegment) :
    matching.Runs (resolveSegmentKey store nested var segment)
      (resolveSegmentKey other nested' var segment) := by
  cases segment with
  | static key => exact runs_pure key
  | dynamic expression =>
    refine runs_bind (hnested expression) fun found => ?_
    rw [← hstores.strictMissing]
    split
    · exact runs_pure _
    · exact runs_refuse _ _
    · exact runs_ite (runs_pure _) (runs_refuse _ _)

include hstores in
theorem runs_accessSegment (isLast optional : Bool) (key : Text)
    (current : Option CollectionValue) :
    matching.Runs (accessSegment store isLast optional key current)
      (accessSegment other isLast optional key current) := by
  unfold accessSegment
  split
  · split
    · exact runs_bind (runs_ask (hstores.listGet _ _)) fun _ => runs_pure _
    · exact runs_ite (runs_pure _) (runs_refuse _ _)
  · exact runs_bind (runs_ask (hstores.mapGet _ _)) fun _ => runs_pure _
  · exact runs_ite (runs_bind (runs_ask (hstores.setContains _ _)) fun _ => runs_pure _)
      (runs_ite (runs_pure _) (runs_refuse _ _))
  · exact runs_ite (runs_bind (runs_ask (hstores.multiMapGetMany _ _)) fun _ => runs_pure _)
      (runs_ite (runs_pure _) (runs_refuse _ _))
  · exact runs_ite (runs_pure _) (runs_refuse _ _)
  · exact runs_pure _

include hstores hnested in
theorem runs_accessPath (var : Text) (segments : List VarPathAccessSegment) :
    ∀ (resolved : List Text) (current : Option CollectionValue) (optional : Bool),
      matching.Runs (accessPath store nested var resolved current optional segments)
        (accessPath other nested' var resolved current optional segments) := by
  induction segments with
  | nil =>
    intro resolved current optional
    cases current with
    | none | some value => exact runs_pure _
  | cons access rest ih =>
    intro resolved current optional
    refine runs_bind (runs_resolveSegmentKey hstores hnested var _) fun key =>
      runs_bind (runs_accessSegment hstores _ _ key current) fun found => ?_
    cases found with
    | none => exact runs_pure _
    | some found => exact ih _ found _

include hstores hnested in
theorem runs_evaluateVarPath (var : Text) :
    matching.Runs (evaluateVarPath store nested var) (evaluateVarPath other nested' var) := by
  unfold evaluateVarPath
  split
  · exact runs_throw (matching.fine_message _)
  · exact runs_refuse _ _
  · exact runs_ite (runs_refuse _ _)
      (runs_bind (runs_resolveSegmentKey hstores hnested var _) fun key =>
        runs_bind (runs_ask (hstores.get key)) fun value =>
          runs_accessPath hstores hnested var _ _ value false)

include hstores in
theorem runs_orMissing (found : VarEvalResult) :
    matching.Runs (orMissing store found) (orMissing other found) := by
  cases found with
  | value value => exact runs_pure value
  | missing key explicit =>
    rw [orMissing, orMissing, ← hstores.strictMissing]
    exact runs_ite (runs_pure _) (runs_refuse _ _)

include hstores hnested in
/-- A default brings in no command. -/
theorem runs_evaluateDefaultExpression (classes : CharClasses) (expression : Text) :
    matching.Runs (evaluateDefaultExpression store classes nested expression)
      (evaluateDefaultExpression other classes nested' expression) := by
  unfold evaluateDefaultExpression
  refine runs_ite (runs_refuse _ _) ?_
  split
  · next hdefault =>
    split
    · exact runs_refuse _ _
    next rest arg hparse =>
    refine runs_ite (runs_refuse _ _) (runs_bind ?_ fun value => runs_pure _)
    have hatomic := atomic_of_shouldParseDefaultAsArg hdefault hparse
    cases arg with
    | literal value | stringLiteral value | typedLiteral raw value => exact runs_pure _
    | var name => exact runs_bind (hnested name) (runs_orMissing hstores)
    | listLiteral items | mapLiteral entries => exact hatomic.elim
    | commandSubstitution inner => exact runs_refuse _ _
  · exact hnested _

include hstores in
theorem runs_evaluateVarExpression (classes : CharClasses) (depth : Nat) :
    ∀ var, matching.Runs (evaluateVarExpression store classes depth var)
      (evaluateVarExpression other classes depth var) := by
  induction depth with
  | zero => exact fun _ => runs_refuse _ _
  | succ depth ih =>
    intro var
    refine runs_ite (runs_refuse _ _) ?_
    split
    · refine runs_ite (runs_refuse _ _) (runs_bind (ih _) fun found => ?_)
      cases found with
      | value value => exact runs_pure _
      | missing key explicit => exact runs_evaluateDefaultExpression hstores ih classes _
    · exact runs_evaluateVarPath hstores ih _

include hstores in
theorem runs_evaluateVar (classes : CharClasses) (name : Text) :
    matching.Runs (evaluateVar store classes name) (evaluateVar other classes name) :=
  runs_bind (runs_evaluateVarExpression hstores classes _ name) (runs_orMissing hstores)

end Variables

/-! ## Commands and expressions -/

section Chains

variable {matching}

theorem runs_applyPrefix (prefixOp : Option Operator) (result : CommandResult) :
    matching.Runs (applyPrefix location prefixOp result)
      (applyPrefix location prefixOp result) := by
  unfold applyPrefix
  split
  · refine runs_wrapping (by decide) fun world image hworlds => ⟨rfl, ?_, hworlds⟩
    intro failure hfail
    cases result <;> cases hfail
    exact matching.fine_result _
  · exact runs_pure _

theorem runs_settleControl (allowControl : Bool) (message : String) (result : CommandResult) :
    matching.Runs (settleControl location allowControl message result)
      (settleControl location allowControl message result) :=
  runs_ite (runs_pure _) (runs_throw
    (matching.fine_wrapped _ _ _ _ _ (by decide) (matching.fine_result _)))

def Operands (operand : ChainOperand First) (other : ChainOperand Second) : Prop :=
  operand.1 = other.1 ∧ matching.Runs operand.2.1 other.2.1 ∧ operand.2.2 = other.2.2

theorem runs_executeExpressionChain (hoperands : List.Forall₂ matching.Operands operands others) :
    ∀ result, matching.Runs (executeExpressionChain location allowControl message result operands)
      (executeExpressionChain location allowControl message result others) := by
  induction hoperands with
  | nil => exact fun result => runs_pure result
  | @cons first second rest others hfirst _ ih =>
    intro result
    obtain ⟨prefixOp, expression, postOp⟩ := first
    obtain ⟨prefixOp', expression', postOp'⟩ := second
    change prefixOp = prefixOp' ∧ _ ∧ postOp = postOp' at hfirst
    obtain ⟨rfl, hexpr, rfl⟩ := hfirst
    refine runs_bind (runs_wrapping (by decide) hexpr) fun found =>
      runs_bind (runs_applyPrefix prefixOp found) fun found =>
      runs_ite (runs_settleControl allowControl message found) ?_
    split
    · exact runs_pure _
    · exact runs_pure _
    · exact ih found

theorem runs_substitutionValue (result : CommandResult) :
    matching.Runs (substitutionValue result) (substitutionValue result) := by
  cases result with
  | success value | error value => exact runs_pure value
  | control action => exact runs_throw (matching.fine_result _)

end Chains

/-- Two hosts that evaluate arguments alike. -/
structure Evaluators (host : Host First Executor) (other : Host Second Executor) : Prop where
  stores : matching.Stores host.toVariableStore other.toVariableStore
  newList : ∀ values, matching.Queries (host.newList values) (other.newList values)
  newMap : ∀ entries, matching.Queries (host.newMap entries) (other.newMap entries)

/-- Two hosts that answer alike; their commands are compared one by one. -/
structure Hosts (host : Host First Executor) (other : Host Second Executor) : Prop
    extends matching.Evaluators host other where
  blockContains : ∀ name, matching.Queries (host.blockContains name) (other.blockContains name)
  getBlock : ∀ name, matching.Queries (host.getBlock name) (other.getBlock name)
  setBlock : ∀ name value, matching.Queries (host.setBlock name value) (other.setBlock name value)
  removeBlock : ∀ name, matching.Queries (host.removeBlock name) (other.removeBlock name)
  varLevelEntry : ∀ name world image, matching.worlds world image →
    host.varLevelEntry name world = other.varLevelEntry name image
  restoreVarLevelEntry : ∀ name level world image, matching.worlds world image →
    matching.worlds (host.restoreVarLevelEntry name level world)
      (other.restoreVarLevelEntry name level image)
  traverse : ∀ collection values (step : ForStep First) (step' : ForStep Second) state,
    (∀ key value state, matching.Runs (step key value state) (step' key value state)) →
    matching.Runs (host.traverse collection values step state)
      (other.traverse collection values step' state)

/-- A command that runs alike if its arguments do. -/
structure Items (classes : CharClasses) (host : Host First Executor)
    (other : Host Second Executor) (item : CommandItem Executor) : Prop where
  unlinked : item.isLinked = false → ∀ location, matching.fine (commandNotLinked location)
  exec : ∀ name args executor, item = .mk name args (some executor) →
    List.Forall₂ matching.Args (argRuns classes host args) (argRuns classes other args) →
      matching.Runs (host.exec executor (argRuns classes host args))
        (other.exec executor (argRuns classes other args))

def AllItems (classes : CharClasses) (host : Host First Executor)
    (other : Host Second Executor) (items : List (CommandItem Executor)) : Prop :=
  ∀ item ∈ items, matching.Items classes host other item

variable {host : Host First Executor} {classes : CharClasses}

section Commands

variable {matching} {other : Host Second Executor}

theorem allItems_append : matching.AllItems classes host other (items ++ others) ↔
      matching.AllItems classes host other items ∧ matching.AllItems classes host other others :=
  List.forall_mem_append

theorem allItems_cons {item items} :
    matching.AllItems classes host other (item :: items) ↔
      matching.Items classes host other item ∧ matching.AllItems classes host other items :=
  List.forall_mem_cons

mutual

theorem runs_evaluate (hreads : matching.Evaluators host other) : ∀ arg : CommandArg Executor,
    matching.AllItems classes host other (argItems arg) →
    matching.Runs (evaluate classes host arg) (evaluate classes other arg)
  | .literal _, _ => runs_pure _
  | .stringLiteral _, _ => runs_pure _
  | .typedLiteral _ _, _ => runs_pure _
  | .listLiteral items, hitems =>
    runs_bind (runs_evaluateItems hreads items hitems) fun _ =>
      runs_bind (runs_ask (hreads.newList _)) fun _ => runs_pure _
  | .mapLiteral entries, hitems =>
    runs_bind (runs_evaluateEntries hreads entries hitems) fun _ =>
      runs_bind (runs_ask (hreads.newMap _)) fun _ => runs_pure _
  | .var name, _ => runs_evaluateVar hreads.stores classes name
  | .commandSubstitution expression, hitems =>
    runs_bind (runs_runExpression hreads ⟨none, none⟩ expression hitems) runs_substitutionValue

theorem runs_evaluateItems (hreads : matching.Evaluators host other) :
    ∀ items : List (CommandArg Executor),
    matching.AllItems classes host other (argsItems items) →
    matching.Runs (evaluateItems classes host items) (evaluateItems classes other items)
  | [], _ => runs_pure _
  | item :: rest, hitems => by
    rw [argsItems, allItems_append] at hitems
    exact runs_bind (runs_evaluate hreads item hitems.1) fun _ =>
      runs_bind (runs_evaluateItems hreads rest hitems.2) fun _ => runs_pure _

theorem runs_evaluateEntries (hreads : matching.Evaluators host other) :
    ∀ entries : List (Text × CommandArg Executor),
    matching.AllItems classes host other (entriesItems entries) →
    matching.Runs (evaluateEntries classes host entries) (evaluateEntries classes other entries)
  | [], _ => runs_pure _
  | (_, item) :: rest, hitems => by
    rw [entriesItems, allItems_append] at hitems
    exact runs_bind (runs_evaluate hreads item hitems.1) fun _ =>
      runs_bind (runs_evaluateEntries hreads rest hitems.2) fun _ => runs_pure _

theorem runs_executeArg (hreads : matching.Evaluators host other) : ∀ arg : CommandArg Executor,
    matching.AllItems classes host other (argItems arg) →
    Option.Rel matching.Runs (executeArg classes host arg) (executeArg classes other arg)
  | .commandSubstitution expression, hitems =>
    .some (runs_runExpression hreads ⟨none, none⟩ expression hitems)
  | .literal _, _ => .none
  | .stringLiteral _, _ => .none
  | .typedLiteral _ _, _ => .none
  | .listLiteral _, _ => .none
  | .mapLiteral _, _ => .none
  | .var _, _ => .none

theorem runs_argRuns (hreads : matching.Evaluators host other) :
    ∀ args : List (CommandArg Executor),
    matching.AllItems classes host other (argsItems args) →
    List.Forall₂ matching.Args (argRuns classes host args) (argRuns classes other args)
  | [], _ => .nil
  | first :: rest, hitems => by
    rw [argsItems, allItems_append] at hitems
    exact .cons ⟨runs_evaluate hreads first hitems.1, runs_executeArg hreads first hitems.1⟩
      (runs_argRuns hreads rest hitems.2)

theorem runs_executeCommand (hreads : matching.Evaluators host other)
    (location : Location) : ∀ item : CommandItem Executor,
    matching.AllItems classes host other (itemItems item) →
    matching.Runs (executeCommand classes host location item)
      (executeCommand classes other location item)
  | .mk _ _ none, hitems => by
    rw [itemItems, allItems_cons] at hitems
    exact runs_throw (hitems.1.unlinked rfl location)
  | .mk _ args (some executor), hitems => by
    rw [itemItems, allItems_cons] at hitems
    rw [executeCommand, executeCommand]
    exact runs_wrapping (by decide)
      (hitems.1.exec _ args executor rfl (runs_argRuns hreads args hitems.2))

theorem runs_runExpression (hreads : matching.Evaluators host other)
    (location : Location) : ∀ expression : Expression Executor,
    matching.AllItems classes host other (expressionItems expression) →
    matching.Runs (runExpression classes host location expression)
      (runExpression classes other location expression)
  | .command item, hitems => by
    rw [runExpression, runExpression]
    exact runs_wrapping (by decide) (runs_executeCommand hreads location item hitems)
  | .group chain, hitems => by
    rw [runExpression, runExpression]
    exact runs_executeExpressionChain (runs_runOperands hreads location chain hitems) _

theorem runs_runOperands (hreads : matching.Evaluators host other)
    (location : Location) : ∀ chain : ExpressionChain Executor,
    matching.AllItems classes host other (chainItems chain) →
    List.Forall₂ matching.Operands (runOperands classes host location chain)
      (runOperands classes other location chain)
  | [], _ => .nil
  | (_, expression, _) :: rest, hitems => by
    rw [chainItems, allItems_append] at hitems
    exact .cons ⟨rfl, runs_runExpression hreads location expression hitems.1, rfl⟩
      (runs_runOperands hreads location rest hitems.2)

end

end Commands

/-! ## Statements -/

section Scopes

variable {matching} {other : Host Second Executor}

section Bindings

variable (hhosts : matching.Hosts host other)

include hhosts

theorem runs_snapshotBlockVar (name : Text) :
    matching.Runs (snapshotBlockVar host name) (snapshotBlockVar other name) := by
  refine runs_bind (runs_ask (hhosts.blockContains name)) fun found =>
    runs_bind (runs_ite (runs_ask (hhosts.getBlock name)) (runs_pure _)) fun value => ?_
  intro world image hworlds
  refine ⟨?_, nofun, hworlds⟩
  simp only [hhosts.varLevelEntry name world image hworlds]

theorem runs_snapshotBlockVars (names : List Text) :
    matching.Runs (snapshotBlockVars host names) (snapshotBlockVars other names) := by
  induction names with
  | nil => exact runs_pure _
  | cons name rest ih =>
    exact runs_bind (runs_snapshotBlockVar hhosts name) fun snapshot =>
      runs_bind ih fun _ => runs_pure _

theorem runs_restoreBlockVars (snapshots : List LoopVarSnapshot) :
    matching.Runs (restoreBlockVars host snapshots) (restoreBlockVars other snapshots) := by
  induction snapshots with
  | nil => exact runs_pure _
  | cons snapshot rest ih =>
    refine runs_bind ?_ fun _ => runs_bind ?_ fun _ => ih
    · cases snapshot.value with
      | some value => exact runs_ask (hhosts.setBlock _ value)
      | none => exact runs_ask (hhosts.removeBlock _)
    · intro world image hworlds
      exact ⟨rfl, nofun,
        hhosts.restoreVarLevelEntry _ _ world image hworlds⟩

theorem runs_bindBlockVars (bindings : List (Text × CollectionValue)) :
    matching.Runs (bindBlockVars host bindings) (bindBlockVars other bindings) := by
  induction bindings with
  | nil => exact runs_pure _
  | cons binding rest ih => exact runs_bind (runs_ask (hhosts.setBlock _ _)) fun _ => ih

theorem runs_restoring {messages snapshots body body'} (hbody : matching.Runs body body') :
    matching.Runs (restoring host location messages snapshots body)
      (restoring other location messages snapshots body') := by
  intro world image hworlds
  obtain ⟨executed, middle, middle', hfirst, hsnd, hfine, hmid⟩ := hbody.ends hworlds
  obtain ⟨restored, after, after', hthird, hfourth, hrestore, hafter⟩ :=
    (runs_restoreBlockVars hhosts snapshots).ends hmid
  rw [restoring, restoring, hfirst, hsnd]
  simp only [hthird, hfourth]
  have hwrap (message : String) {cause : Failure} (hcause : matching.fine cause) : matching.fine
      (wrapRuntimeError location .runtimeExpressionExecute message cause) :=
    matching.fine_wrapped _ _ _ _ _ (by decide) hcause
  cases executed with
  | ok result =>
    cases restored with
    | ok _ => exact ⟨rfl, nofun, hafter⟩
    | error cause => exact ⟨rfl, fine_of_error (hwrap _ (hrestore cause rfl)), hafter⟩
  | error cause =>
    have hcause := hfine cause rfl
    cases restored with
    | ok _ => exact ⟨rfl, fine_of_error (hwrap _ hcause), hafter⟩
    | error second =>
      have hboth := matching.fine_both _ _ hcause (hrestore second rfl)
      exact ⟨rfl, fine_of_error (hwrap _ hboth), hafter⟩

theorem runs_executeBound (hlines : matching.Runs lines lines') :
    matching.Runs (executeBound host location messages bindings lines)
      (executeBound other location messages bindings lines') :=
  runs_bind (runs_snapshotBlockVars hhosts _) fun _ =>
    runs_restoring hhosts (runs_bind (runs_bindBlockVars hhosts bindings) fun _ => hlines)

theorem runs_executeForLoop (hlines : matching.Runs lines lines') (iterable : CollectionValue) :
    matching.Runs (executeForLoop host keyVar valueVar lines iterable)
      (executeForLoop other keyVar valueVar lines' iterable) := by
  refine runs_ite (runs_bind (hhosts.traverse _ _ _ _ _ fun key value state => ?_)
    fun state => runs_pure _) (runs_refuse _ _)
  refine runs_bind (runs_ask (hhosts.setBlock _ _)) fun _ => runs_bind ?_ fun _ =>
    runs_bind hlines fun result => runs_pure _
  cases valueVar with
  | some name => exact runs_ask (hhosts.setBlock _ _)
  | none => exact runs_pure _

end Bindings

theorem runs_executeSequence (hruns : List.Forall₂ matching.Runs runs others) :
    ∀ result, matching.Runs (executeSequence result runs) (executeSequence result others) := by
  induction hruns with
  | nil => exact fun result => runs_pure result
  | cons hfirst _ ih =>
    intro result
    exact runs_bind hfirst fun found => runs_ite (runs_pure _) (ih found)

def Branches (branch : Run First CommandResult × Run First CommandResult)
    (other : Run Second CommandResult × Run Second CommandResult) : Prop :=
  matching.Runs branch.1 other.1 ∧ matching.Runs branch.2 other.2

theorem runs_executeBranches (hotherwise : matching.Runs otherwise otherwise')
    (hbranches : List.Forall₂ matching.Branches branches others) :
    matching.Runs (executeBranches otherwise branches) (executeBranches otherwise' others) := by
  induction hbranches with
  | nil => exact hotherwise
  | cons hfirst _ ih => exact runs_bind hfirst.1 fun found => runs_ite hfirst.2 ih

/-- Branches of a match-result statement that run alike for whatever they are given. -/
abbrev BranchRuns {Found : Type} (branch : BranchRun First Found)
    (other : BranchRun Second Found) : Prop :=
  Option.Rel (fun run run' => ∀ found, matching.Runs (run found) (run' found)) branch other

theorem runs_executeMatchResult (hsuccess : matching.BranchRuns onSuccess onSuccess')
    (herror : matching.BranchRuns onError onError')
    (hctl : matching.BranchRuns onControl onControl') (result : CommandResult) :
    matching.Runs (executeMatchResult onSuccess onError onControl result)
      (executeMatchResult onSuccess' onError' onControl' result) := by
  cases result with
  | success value =>
    cases hsuccess with
    | none => exact runs_pure _
    | some hbranch => exact hbranch value
  | error value =>
    cases herror with
    | none => exact runs_pure _
    | some hbranch => exact hbranch value
  | control action =>
    cases hctl with
    | none => exact runs_pure _
    | some hbranch => exact hbranch action

end Scopes

section Statements

variable {matching} {other : Host Second Executor}

theorem runs_caseRun {location} (hhosts : matching.Hosts host other)
    (hbranches : matching.Runs branches branches') :
    ∀ (subject : Option (CommandArg Executor)) (bindingVar : Option Text),
      matching.AllItems classes host other (subjectItems subject bindingVar) →
      matching.Runs (caseRun classes host location subject bindingVar branches)
        (caseRun classes other location subject bindingVar branches')
  | some subject, some _, hitems =>
    runs_bind (runs_evaluate hhosts.toEvaluators subject hitems) fun _ =>
      runs_executeBound hhosts hbranches
  | some _, none, _ => hbranches
  | none, _, _ => hbranches

mutual

theorem runs_executeLine (hhosts : matching.Hosts host other)
    (lineNo : Nat) : ∀ line : Line Executor,
    matching.AllItems classes host other (lineItems line) →
    matching.Runs (executeLine classes host lineNo line) (executeLine classes other lineNo line)
  | .mk source statements, hitems => by
    rw [executeLine, executeLine]
    exact runs_executeSequence (runs_statementRuns hhosts lineNo source statements hitems) _

theorem runs_lineRuns (hhosts : matching.Hosts host other)
    (lineNo : Nat) : ∀ lines : List (Line Executor),
    matching.AllItems classes host other (linesItems lines) →
    List.Forall₂ matching.Runs (lineRuns classes host lineNo lines)
      (lineRuns classes other lineNo lines)
  | [], _ => .nil
  | line :: rest, hitems => by
    rw [linesItems, allItems_append] at hitems
    exact .cons (runs_executeLine hhosts lineNo line hitems.1)
      (runs_lineRuns hhosts lineNo rest hitems.2)

theorem runs_statementRuns (hhosts : matching.Hosts host other) (lineNo : Nat) (source : Text) :
    ∀ statements : List (Statement Executor),
      matching.AllItems classes host other (statementsItems statements) →
      List.Forall₂ matching.Runs (statementRuns classes host lineNo source statements)
        (statementRuns classes other lineNo source statements)
  | [], _ => .nil
  | statement :: rest, hitems => by
    rw [statementsItems, allItems_append] at hitems
    exact .cons (runs_executeStatement hhosts _ lineNo statement hitems.1)
      (runs_statementRuns hhosts lineNo source rest hitems.2)

theorem runs_executeStatement (hhosts : matching.Hosts host other)
    (location : Location) (lineNo : Nat) :
    ∀ statement : Statement Executor,
      matching.AllItems classes host other (statementItems statement) →
      matching.Runs (executeStatement classes host location lineNo statement)
        (executeStatement classes other location lineNo statement)
  | .expressions chain, hitems => by
    rw [executeStatement, executeStatement]
    exact runs_executeExpressionChain (runs_runOperands hhosts.toEvaluators location chain hitems) _
  | .ifStatement branches elseLines, hitems => by
    rw [statementItems, allItems_append] at hitems
    rw [executeStatement, executeStatement]
    exact runs_executeBranches (runs_elseRun hhosts lineNo elseLines hitems.2)
      (runs_branchRuns hhosts location lineNo _ branches hitems.1)
  | .caseStatement subject bindingVar branches elseLines, hitems => by
    rw [statementItems, allItems_append, allItems_append] at hitems
    rw [executeStatement, executeStatement]
    exact runs_caseRun hhosts
      (runs_executeBranches (runs_elseRun hhosts lineNo elseLines hitems.2.2)
        (runs_branchRuns hhosts location lineNo _ branches hitems.2.1))
      subject bindingVar hitems.1
  | .forStatement keyVar valueVar iterable lines, hitems => by
    rw [statementItems, allItems_append] at hitems
    rw [executeStatement, executeStatement]
    refine runs_bind (runs_snapshotBlockVars hhosts _) fun snapshots =>
      runs_restoring hhosts (runs_bind (runs_evaluate hhosts.toEvaluators iterable hitems.1) ?_)
    exact runs_executeForLoop hhosts
      (runs_executeSequence (runs_lineRuns hhosts lineNo lines hitems.2) _)
  | .matchResultStatement command okBranch errBranch controlBranch, hitems => by
    rw [statementItems, allItems_append, allItems_append, allItems_append] at hitems
    rw [executeStatement, executeStatement]
    exact runs_bind (runs_runExpression hhosts.toEvaluators location command hitems.1)
      (runs_executeMatchResult (runs_branchRun hhosts location lineNo okBranch hitems.2.1)
        (runs_branchRun hhosts location lineNo errBranch hitems.2.2.1)
        (runs_controlRun hhosts location lineNo controlBranch hitems.2.2.2))

theorem runs_branchRuns (hhosts : matching.Hosts host other)
    (location : Location) (lineNo : Nat) (message : String) :
    ∀ branches : List (Branch Executor),
      matching.AllItems classes host other (branchesItems branches) →
      List.Forall₂ matching.Branches (branchRuns classes host location lineNo message branches)
        (branchRuns classes other location lineNo message branches)
  | [], _ => .nil
  | .mk condition lines :: rest, hitems => by
    rw [branchesItems, allItems_append, allItems_append] at hitems
    exact .cons ⟨runs_executeExpressionChain
          (runs_runOperands hhosts.toEvaluators location condition hitems.1) _,
        runs_executeSequence (runs_lineRuns hhosts lineNo lines hitems.2.1) _⟩
      (runs_branchRuns hhosts location lineNo message rest hitems.2.2)

theorem runs_elseRun (hhosts : matching.Hosts host other)
    (lineNo : Nat) : ∀ elseLines : Option (List (Line Executor)),
    matching.AllItems classes host other (elseItems elseLines) →
    matching.Runs (elseRun classes host lineNo elseLines) (elseRun classes other lineNo elseLines)
  | none, _ => by
    rw [elseRun, elseRun]
    exact runs_pure _
  | some lines, hitems => by
    rw [elseRun, elseRun]
    exact runs_executeSequence (runs_lineRuns hhosts lineNo lines hitems) _

theorem runs_branchRun (hhosts : matching.Hosts host other) (location : Location) (lineNo : Nat) :
    ∀ branch : Option (MatchResultBranch Executor),
      matching.AllItems classes host other (branchItems branch) →
      matching.BranchRuns (branchRun classes host location lineNo branch)
        (branchRun classes other location lineNo branch)
  | none, _ => by
    rw [branchRun, branchRun]
    exact .none
  | some (.mk bindingVar lines), hitems => by
    rw [branchRun, branchRun]
    exact .some fun value => runs_executeBound hhosts
      (runs_executeSequence (runs_lineRuns hhosts lineNo lines hitems) _)

theorem runs_controlRun (hhosts : matching.Hosts host other) (location : Location) (lineNo : Nat) :
    ∀ branch : Option (MatchResultControlBranch Executor),
      matching.AllItems classes host other (controlBranchItems branch) →
      matching.BranchRuns (controlRun classes host location lineNo branch)
        (controlRun classes other location lineNo branch)
  | none, _ => by
    rw [controlRun, controlRun]
    exact .none
  | some (.mk actionVar fromVar valueVar lines), hitems => by
    rw [controlRun, controlRun]
    exact .some fun action => runs_executeBound hhosts
      (runs_executeSequence (runs_lineRuns hhosts lineNo lines hitems) _)

end

theorem runs_blockLineRuns (hhosts : matching.Hosts host other) (lines : List (Line Executor)) :
    ∀ lineNo, matching.AllItems classes host other (linesItems lines) →
      List.Forall₂ matching.Runs (blockLineRuns classes host lineNo lines)
        (blockLineRuns classes other lineNo lines) := by
  induction lines with
  | nil => exact fun lineNo _ => .nil
  | cons line rest ih =>
    obtain ⟨source, statements⟩ := line
    intro lineNo hitems
    rw [linesItems, allItems_append] at hitems
    exact .cons (runs_wrapping (by decide) (runs_executeLine hhosts lineNo _ hitems.1))
      (ih (lineNo + 1) hitems.2)

/-- A block whose reachable commands run alike runs alike. -/
theorem runs_executeBlock (hhosts : matching.Hosts host other)
    (hitems : matching.AllItems classes host other (blockItems block)) :
    matching.Runs (executeBlock classes host block) (executeBlock classes other block) :=
  runs_executeSequence (runs_blockLineRuns hhosts block.lines 1 hitems) _

end Statements

end Matching

end CyfsGateway.ProcessChain
