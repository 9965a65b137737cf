import CyfsGateway.ProcessChain.Matching

/-!
# Runs of linked blocks

A block all of whose reachable commands are linked never fails because a
command is not linked, whatever its commands, variables and collections do.
The arguments that a variable's default brings in at run time contain no
commands.
-/

namespace CyfsGateway.ProcessChain

open CharClasses

variable {World Value Executor : Type}

/-- A run matches itself when it does not fail for a command that is not linked.  The
rules for matching runs then carry this through every kind of statement. -/
def linkedMatching (World : Type) : Matching World World where
  worlds := Eq
  fine failure := failure.notLinked = false
  fine_message _ := rfl
  fine_result _ := rfl
  fine_wrapped code message line source cause hcode hcause := by
    simp [Failure.notLinked, hcode, hcause]
  fine_both execution restore hexecution hrestore := by
    simp [Failure.notLinked, hexecution, hrestore]

section Linked

theorem linkedMatching_runs_self_iff : (linkedMatching World).Runs run run ↔ NeverUnlinked run := by
  constructor
  · intro hruns world
    exact (hruns world world rfl).2.1
  · rintro hnever world image rfl
    exact ⟨rfl, hnever world, rfl⟩

theorem eq_of_linkedMatching_runs (hruns : (linkedMatching World).Runs run other) :
    run = other := by
  funext world
  have ⟨hsame, _, hafter⟩ := hruns world world rfl
  exact Prod.ext hsame hafter

theorem neverUnlinked_of_runs (hruns : (linkedMatching World).Runs run other) :
    NeverUnlinked run := by
  have heq := eq_of_linkedMatching_runs hruns
  subst heq
  exact linkedMatching_runs_self_iff.mp hruns

theorem neverUnlinked_pure (value : Value) : NeverUnlinked (pure value : Run World Value) :=
  linkedMatching_runs_self_iff.mp (Matching.runs_pure value)

theorem neverUnlinked_bind {next : Value → Run World Next} (hrun : NeverUnlinked run)
    (hnext : ∀ value, NeverUnlinked (next value)) : NeverUnlinked (run >>= next) :=
  linkedMatching_runs_self_iff.mp (Matching.runs_bind (linkedMatching_runs_self_iff.mpr hrun)
    fun value => linkedMatching_runs_self_iff.mpr (hnext value))

theorem neverUnlinked_ask (query : Query World Value) : NeverUnlinked (ask query) :=
  linkedMatching_runs_self_iff.mp (Matching.runs_ask fun _ _ hworlds =>
    ⟨congrArg (fun world => (query world).1) hworlds,
      congrArg (fun world => (query world).2) hworlds⟩)

end Linked

section Hosts

variable (classes : CharClasses) (host : Host World Executor)

theorem linkedMatching_hosts : (linkedMatching World).Hosts host host := by
  have hqueries : ∀ {Value : Type} (query : Query World Value),
      (linkedMatching World).Queries query query := by
    rintro Value query world _ rfl
    exact ⟨rfl, rfl⟩
  constructor
  case toEvaluators =>
    exact ⟨⟨fun _ => hqueries _, fun _ _ => hqueries _, fun _ _ => hqueries _,
      fun _ _ => hqueries _, fun _ _ => hqueries _, rfl⟩, fun _ => hqueries _,
      fun _ => hqueries _⟩
  case varLevelEntry => exact fun name _ _ hworlds => congrArg (host.varLevelEntry name) hworlds
  case restoreVarLevelEntry =>
    exact fun name level _ _ hworlds => congrArg (host.restoreVarLevelEntry name level) hworlds
  case traverse =>
    intro collection values step step' state hstep
    obtain rfl : step = step' := by
      funext key value state
      exact eq_of_linkedMatching_runs (hstep key value state)
    exact linkedMatching_runs_self_iff.mpr (host.traverse_neverUnlinked _ _ _ _
      fun key value state => linkedMatching_runs_self_iff.mp (hstep key value state))
  all_goals intros; exact hqueries _

theorem linkedMatching_items (hlinked : item.isLinked) :
    (linkedMatching World).Items classes host host item := by
  refine ⟨fun hunlinked => ?_, fun name args executor _ hruns => ?_⟩
  · rw [hlinked] at hunlinked
    cases hunlinked
  · exact linkedMatching_runs_self_iff.mpr (host.exec_neverUnlinked executor _
      (Matching.holds_of_args neverUnlinked_of_runs hruns))

/-- A block whose reachable commands are linked never fails for one that is
not. -/
theorem neverUnlinked_executeBlock (hlinked : AllLinked (blockItems block)) :
    NeverUnlinked (executeBlock classes host block) :=
  linkedMatching_runs_self_iff.mp (Matching.runs_executeBlock (linkedMatching_hosts host)
    fun item hitem => linkedMatching_items classes host (hlinked item hitem))

end Hosts

/-! ## Linking is complete for plain literals -/

/-- Behind a successful linking, all commands that execution can reach carry an
executor exactly when no literal contains a command; then no run fails for a
command that is not linked. -/
theorem link_complete_iff (factory : CommandFactory Executor) (block : Block Empty)
    (linked : Block Executor) (hlink : link factory block = .ok linked) :
    ((∀ item ∈ blockItems linked, item.isLinked) ↔ PlainBlock block) ∧
      (PlainBlock block → ∀ (World : Type) (classes : CharClasses)
        (host : Host World Executor), NeverUnlinked (executeBlock classes host linked)) :=
  ⟨link_linked_iff hlink, fun hplain _ classes host =>
    neverUnlinked_executeBlock classes host ((link_linked_iff hlink).mpr hplain)⟩

/-! ## A command inside a list literal -/

def evaluateArgs : List (ArgRun World) → Run World Unit
  | [] => pure ()
  | arg :: rest => arg.evaluate >>= fun _ => evaluateArgs rest

theorem neverUnlinked_evaluateArgs : ∀ {args : List (ArgRun World)},
    (∀ arg ∈ args, arg.NeverUnlinked) → NeverUnlinked (evaluateArgs args)
  | [], _ => neverUnlinked_pure _
  | _ :: _, hargs => neverUnlinked_bind (hargs _ (List.mem_cons_self ..)).1 fun _ =>
    neverUnlinked_evaluateArgs fun arg harg => hargs arg (List.mem_cons_of_mem _ harg)

/-- A host without variables, whose commands evaluate their arguments as `echo`
does. -/
def echoHost : Host Unit Unit where
  get := fun _ world => (.ok none, world)
  listGet := fun _ _ world => (.ok none, world)
  mapGet := fun _ _ world => (.ok none, world)
  setContains := fun _ _ world => (.ok false, world)
  multiMapGetMany := fun _ _ world => (.ok none, world)
  strictMissing := false
  exec := fun _ args => evaluateArgs args >>= fun _ => pure .empty
  newList := fun _ world => (.ok 0, world)
  newMap := fun _ world => (.ok 0, world)
  blockContains := fun _ world => (.ok false, world)
  getBlock := fun _ world => (.ok none, world)
  setBlock := fun _ _ world => (.ok (), world)
  removeBlock := fun _ world => (.ok (), world)
  varLevelEntry := fun _ _ => none
  restoreVarLevelEntry := fun _ _ world => world
  traverse := fun _ _ _ state => pure state
  exec_neverUnlinked := fun _ _ hargs =>
    neverUnlinked_bind (neverUnlinked_evaluateArgs hargs) fun _ => neverUnlinked_pure _
  traverse_neverUnlinked := fun _ _ _ _ _ => neverUnlinked_pure _

/-- A factory that knows `echo` and `append`. -/
def echoFactory : CommandFactory Unit where
  getParser := fun name =>
    if name = "echo".toList || name = "append".toList then some fun _ => .ok () else none
  getExternalCommand := fun _ => none

def commandBlock (source : Text) (expression : Expression Executor) : Block Executor :=
  ⟨"main".toList, [.mk source [.expressions [(none, expression, none)]]]⟩

/-- `append a b`. -/
def appending : Expression Empty :=
  .command (.mk "append".toList
    [.literal "append".toList, .literal "a".toList, .literal "b".toList] none)

def echoing (arg : CommandArg Empty) : Expression Empty :=
  .command (.mk "echo".toList [.literal "echo".toList, arg] none)

/-- `echo $(append a b)`. -/
def echoBlock : Block Empty :=
  commandBlock "echo $(append a b)".toList (echoing (.commandSubstitution appending))

theorem plainBlock_echoBlock : PlainBlock echoBlock := by
  simp [PlainBlock, PlainLines, PlainLine, PlainStatements, PlainStatement, PlainChain,
    PlainExpression, PlainArgs, PlainArg, echoBlock, commandBlock, echoing, appending]

/-- As an argument of its own a command substitution is linked. -/
theorem link_complete_echo : ∃ linked, link echoFactory echoBlock = .ok linked ∧
      (∀ item ∈ blockItems linked, item.isLinked) ∧
      NeverUnlinked (executeBlock ascii echoHost linked) :=
  ⟨_, rfl, (link_complete_iff echoFactory echoBlock _ rfl).1.mpr plainBlock_echoBlock,
    (link_complete_iff echoFactory echoBlock _ rfl).2 plainBlock_echoBlock Unit ascii echoHost⟩

/-- Inside a list literal it is parsed and linked without error, and running the
block then fails for it. -/
theorem list_literal_command_not_linked : parseCommand ascii (parseArg ascii)
        "echo [$(append a b)]".toList =
      .ok ([], echoing (.listLiteral [.commandSubstitution appending])) ∧
    ∃ linked, link echoFactory (commandBlock "echo [$(append a b)]".toList
        (echoing (.listLiteral [.commandSubstitution appending]))) = .ok linked ∧
      ¬(∀ item ∈ blockItems linked, item.isLinked) ∧
      ∃ failure, (executeBlock ascii echoHost linked ()).1 = .error failure ∧
        failure.notLinked = true := ⟨rfl, _, rfl, by decide +kernel, _, rfl, by decide +kernel⟩

end CyfsGateway.ProcessChain
