import CyfsGateway.ProcessChain.Environments

/-!
# The scope of bound variables

`for`, `case` and `match-result` bind variables in the block scope and restore behind
their lines what the names had there: a value or none, and the level that the tracker
records.  This holds whatever the lines do and however they end.  The subject of a
`case` and the command of a `match-result` run before the names are bound, so what they
do to these names stays.
-/

namespace CyfsGateway.ProcessChain

open Tables Matching OperatorChains Scopes CharClasses

variable {Executor Rest : Type}

namespace Scopes

def snapshot (scopes : Scopes) (name : Text) : LoopVarSnapshot :=
  ⟨name, scopes.block.lookup name, scopes.varLevelEntry name⟩

/-- One round of `restore_block_vars`. -/
def restoreVar (snapshot : LoopVarSnapshot) (scopes : Scopes) : Scopes :=
  (match snapshot.value with
    | some value => scopes.set snapshot.name value (some .block)
    | none => scopes.remove snapshot.name (some .block)).restoreVarLevelEntry
      snapshot.name snapshot.trackerLevel

def restoreVars (snapshots : List LoopVarSnapshot) (scopes : Scopes) : Scopes :=
  snapshots.foldl (fun scopes snapshot => scopes.restoreVar snapshot) scopes

/-- What a name has in the block scope: its value and the recorded level. -/
def inner (scopes : Scopes) (name : Text) : Option CollectionValue × Option EnvLevel :=
  (scopes.block.lookup name, scopes.varLevelEntry name)

/-- The values of a name outside of the block scope. -/
def outer (scopes : Scopes) (name : Text) :
    Option CollectionValue × Option CollectionValue × Option CollectionValue :=
  (scopes.chain.lookup name, scopes.global.lookup name, scopes.hookPoint.lookup name)

theorem get_congr {scopes other : Scopes} (hinner : scopes.inner name = other.inner name)
    (houter : scopes.outer name = other.outer name) :
    scopes.get name none = other.get name none := by
  obtain ⟨hblock, hlevel⟩ := Prod.mk.inj hinner
  obtain ⟨hchain, houter⟩ := Prod.mk.inj houter
  obtain ⟨hglobal, hhook⟩ := Prod.mk.inj houter
  have hat : ∀ level, scopes.getAt name level = other.getAt name level := by
    intro level
    cases level <;> simp only [getAt, getChain, getGlobal, hblock, hchain, hglobal, hhook]
  rw [get, get, hat, resolveLevel, resolveLevel, hlevel]

theorem varLevelEntry_restoreVarLevelEntry (name : Text) (level : Option EnvLevel)
    (scopes : Scopes) (other : Text) :
    (scopes.restoreVarLevelEntry name level).varLevelEntry other =
      if other = name then level else scopes.varLevelEntry other := by
  cases level with
  | some level =>
    rw [varLevelEntry, restoreVarLevelEntry, lookup_upsert]
    rfl
  | none =>
    rw [varLevelEntry, restoreVarLevelEntry, lookup_deleteWhere]
    simp only [decide_eq_true_eq]
    rfl

theorem varLevelEntry_changeVarLevel_of_ne (hother : other ≠ name) (level : EnvLevel)
    (scopes : Scopes) :
    (scopes.changeVarLevel name level).varLevelEntry other = scopes.varLevelEntry other := by
  have hrestore : (scopes.restoreVarLevelEntry name (some level)).varLevelEntry other =
      scopes.varLevelEntry other := by rw [varLevelEntry_restoreVarLevelEntry, if_neg hother]
  unfold changeVarLevel
  split
  · split
    · rfl
    · exact hrestore
  · split
    · rfl
    · exact hrestore

theorem inner_restoreVar (snapshot : LoopVarSnapshot) (scopes : Scopes) (name : Text) :
    (scopes.restoreVar snapshot).inner name =
      if name = snapshot.name then (snapshot.value, snapshot.trackerLevel)
      else scopes.inner name := by
  obtain ⟨bound, value, level⟩ := snapshot
  have hblock : (scopes.restoreVar ⟨bound, value, level⟩).block.lookup name =
      if name = bound then value else scopes.block.lookup name := by
    cases value with
    | some value =>
      obtain ⟨tracker, htracker⟩ := set_block bound value scopes
      simp only [restoreVar, htracker]
      exact lookup_upsert bound value scopes.block name
    | none =>
      refine (lookup_deleteWhere (fun other => decide (other = bound)) scopes.block name).trans ?_
      simp only [decide_eq_true_eq]
  have hlevel : (scopes.restoreVar ⟨bound, value, level⟩).varLevelEntry name =
      if name = bound then level else scopes.varLevelEntry name := by
    refine (varLevelEntry_restoreVarLevelEntry bound level _ name).trans ?_
    by_cases hname : name = bound
    · rw [if_pos hname, if_pos hname]
    rw [if_neg hname, if_neg hname]
    cases value with
    | some value => exact varLevelEntry_changeVarLevel_of_ne hname .block _
    | none => rfl
  rw [inner, hblock, hlevel]
  by_cases hname : name = bound
  · rw [if_pos hname, if_pos hname, if_pos hname]
  · rw [if_neg hname, if_neg hname, if_neg hname]
    rfl

/-- Snapshots of one state, restored in another: the names get back what they had. -/
theorem inner_restoreVars (before : Scopes) (names : List Text) (name : Text) :
    ∀ scopes : Scopes, (scopes.restoreVars (names.map before.snapshot)).inner name =
      if name ∈ names then before.inner name else scopes.inner name := by
  induction names with
  | nil => exact fun scopes => rfl
  | cons first rest ih =>
    intro scopes
    refine (ih (scopes.restoreVar (before.snapshot first))).trans ?_
    rw [inner_restoreVar]
    by_cases hrest : name ∈ rest
    · rw [if_pos hrest, if_pos (List.mem_cons_of_mem _ hrest)]
    rw [if_neg hrest]
    by_cases hfirst : name = first
    · subst hfirst
      rw [if_pos List.mem_cons_self]
      exact if_pos rfl
    · rw [if_neg (fun hmem => (List.mem_cons.mp hmem).elim hfirst hrest)]
      exact if_neg hfirst

end Scopes

section Statements

variable (platform : Platform Rest)
  {exec : Executor → List (ArgRun (World Executor Rest)) →
    Run (World Executor Rest) CommandResult}
  (hexec : ∀ executor args, (∀ arg ∈ args, arg.NeverUnlinked) → NeverUnlinked (exec executor args))

theorem snapshotBlockVars_apply (names : List Text) (world : World Executor Rest) :
    snapshotBlockVars (scopedHost platform exec hexec) names world =
      (.ok (names.map world.scopes.snapshot), world) := by
  have hone : ∀ name, snapshotBlockVar (scopedHost platform exec hexec) name world =
      (.ok (world.scopes.snapshot name), world) := by
    intro name
    cases hlook : world.scopes.block.lookup name with
    | none => simp [snapshotBlockVar, bind_apply, ask, scopedHost, hlook, snapshot]
    | some value =>
      simp [snapshotBlockVar, bind_apply, ask, scopedHost, hlook,
        snapshot, Scopes.get, resolveLevel, getAt]
  induction names with
  | nil => rfl
  | cons name rest ih =>
    rw [snapshotBlockVars, bind_apply, hone]
    dsimp only
    rw [bind_apply, ih]
    rfl

theorem restoreBlockVars_apply (snapshots : List LoopVarSnapshot) : ∀ world : World Executor Rest,
      restoreBlockVars (scopedHost platform exec hexec) snapshots world =
        (.ok (), { world with scopes := world.scopes.restoreVars snapshots }) := by
  induction snapshots with
  | nil => exact fun world => rfl
  | cons snapshot rest ih =>
    intro world
    have hrest := ih { world with scopes := world.scopes.restoreVar snapshot }
    obtain ⟨name, value, level⟩ := snapshot
    cases value with
    | some value | none => exact hrest

/-- Behind a body the names have in the block scope what they had at the snapshots;
outside of it they have what the body left. -/
theorem restoring_scopes (location : Location) (messages : ScopeMessages)
    (names : List Text) (before : Scopes)
    (body : Run (World Executor Rest) CommandResult) (world : World Executor Rest) :
    (restoring (scopedHost platform exec hexec) location messages
        (names.map before.snapshot) body world).2.scopes =
      (body world).2.scopes.restoreVars (names.map before.snapshot) := by
  rw [restoring]
  rcases body world with ⟨executed, behind⟩
  simp only [restoreBlockVars_apply]
  cases executed with
  | ok result => rfl
  | error failure => rfl

end Statements

/-! ## Where names are bound -/

section Binding

variable (classes : CharClasses) {World : Type} (host : Host World Executor)

def branchVars (okBranch errBranch : Option (MatchResultBranch Executor))
    (controlBranch : Option (MatchResultControlBranch Executor)) :
    CommandResult → List Text
  | .success _ => okBranch.elim [] fun | .mk bindingVar _ => [bindingVar]
  | .error _ => errBranch.elim [] fun | .mk bindingVar _ => [bindingVar]
  | .control _ =>
    controlBranch.elim [] fun
      | .mk actionVar fromVar valueVar _ => [actionVar, fromVar, valueVar]

/-- The names a statement binds and the world in which it binds them: the one it starts
in, or the one behind the subject or the command. -/
def bindingPoint (location : Location) (statement : Statement Executor) (world : World) :
    List Text × World :=
  match statement with
  | .forStatement keyVar valueVar _ _ => (loopVars keyVar valueVar, world)
  | .caseStatement (some subject) (some bindingVar) _ _ =>
    match evaluate classes host subject world with
    | (.ok _, behind) => ([bindingVar], behind)
    | (.error _, behind) => ([], behind)
  | .matchResultStatement command okBranch errBranch controlBranch =>
    match runExpression classes host location command world with
    | (.ok result, behind) => (branchVars okBranch errBranch controlBranch result, behind)
    | (.error _, behind) => ([], behind)
  | _ => ([], world)

/-- The commands that run before the names are bound. -/
def headItems : Statement Executor → List (CommandItem Executor)
  | .caseStatement subject bindingVar _ _ => subjectItems subject bindingVar
  | .matchResultStatement command _ _ _ => expressionItems command
  | _ => []

def bodyItems : Statement Executor → List (CommandItem Executor)
  | .forStatement _ _ iterable lines => argItems iterable ++ linesItems lines
  | .caseStatement _ _ branches elseLines => branchesItems branches ++ elseItems elseLines
  | .matchResultStatement _ okBranch errBranch controlBranch =>
    branchItems okBranch ++ (branchItems errBranch ++ controlBranchItems controlBranch)
  | _ => []

end Binding

section Scoped

variable (classes : CharClasses) (platform : Platform Rest)
  {exec : Executor → List (ArgRun (World Executor Rest)) →
    Run (World Executor Rest) CommandResult}
  (hexec : ∀ executor args, (∀ arg ∈ args, arg.NeverUnlinked) → NeverUnlinked (exec executor args))
  (location : Location) (lineNo : Nat)

/-- What the commands before the binding keep holds where the names are bound. -/
theorem bindingPoint_maintains (hrest : ∀ (world : World Executor Rest) rest, condition world →
      condition { world with rest }) (statement : Statement Executor)
    (hhead : ∀ item ∈ headItems statement, CommandMaintains condition exec item)
    (world : World Executor Rest) (hworld : condition world) :
    condition (bindingPoint classes (scopedHost platform exec hexec) location statement
      world).2 := by
  have hevaluators := keeping_evaluators platform hexec hexec hrest
  unfold bindingPoint
  split
  · exact hworld
  · next subject bindingVar _ _ =>
    have hmaintains := keeping_runs_self_iff.mp (runs_evaluate hevaluators subject
      (keeping_allItems platform hexec classes hhead)) world hworld
    split
    · next heq => rwa [heq] at hmaintains
    · next heq => rwa [heq] at hmaintains
  · next command _ _ _ =>
    have hmaintains := keeping_runs_self_iff.mp (runs_runExpression hevaluators location
      command (keeping_allItems platform hexec classes hhead)) world hworld
    split
    · next heq => rwa [heq] at hmaintains
    · next heq => rwa [heq] at hmaintains
  · exact hworld

theorem inner_executeBound (hname : name ∈ bindings.map Prod.fst) (world : World Executor Rest) :
    (executeBound (scopedHost platform exec hexec) location messages bindings lines
      world).2.scopes.inner name = world.scopes.inner name := by
  rw [executeBound, bind_apply, snapshotBlockVars_apply]
  rw [restoring_scopes, inner_restoreVars, if_pos hname]

/-- A statement that binds a name runs, from there on, something that leaves the name as it
was and keeps, outside of the block scope, what its commands keep. -/
theorem executeStatement_bound {name : Text} (statement : Statement Executor)
    (world : World Executor Rest) (hname : name ∈ (bindingPoint classes
      (scopedHost platform exec hexec) location statement world).1) :
    ∃ run, executeStatement classes (scopedHost platform exec hexec) location lineNo statement
        world = run (bindingPoint classes (scopedHost platform exec hexec) location statement
          world).2 ∧
      (∀ world, (run world).2.scopes.inner name = world.scopes.inner name) ∧
      ∀ condition, Inert condition →
        (∀ item ∈ bodyItems statement, CommandMaintains condition exec item) →
          Maintains condition run := by
  cases statement with
  | expressions chain | ifStatement branches elseLines => cases hname
  | forStatement keyVar valueVar iterable lines =>
    refine ⟨_, rfl, fun world => ?_, fun condition hinert hbody => keeping_runs_self_iff.mp
      (runs_executeStatement (keeping_hosts platform hexec hexec hinert) location lineNo _
        (keeping_allItems platform hexec classes hbody))⟩
    rw [executeStatement, bind_apply, snapshotBlockVars_apply]
    dsimp only
    rw [restoring_scopes, inner_restoreVars]
    exact if_pos hname
  | caseStatement subject bindingVar branches elseLines =>
    cases subject with
    | none => cases hname
    | some subject =>
      cases bindingVar with
      | none => cases hname
      | some bindingVar =>
        rw [executeStatement, caseRun, bind_apply]
        rw [bindingPoint] at hname ⊢
        split at hname
        · next value behind heq =>
          simp only [heq]
          refine ⟨_, rfl, inner_executeBound platform hexec location hname,
            fun condition hinert hbody => keeping_runs_self_iff.mp ?_⟩
          have hhosts := keeping_hosts platform hexec hexec hinert
          have hitems := keeping_allItems platform hexec classes hbody
          rw [bodyItems, allItems_append] at hitems
          exact runs_executeBound hhosts (runs_executeBranches
            (runs_elseRun hhosts lineNo elseLines hitems.2)
            (runs_branchRuns hhosts location lineNo _ branches hitems.1))
        · cases hname
  | matchResultStatement command okBranch errBranch controlBranch =>
    rw [executeStatement, bind_apply]
    rw [bindingPoint] at hname ⊢
    split at hname
    · next result behind heq =>
      simp only [heq]
      refine ⟨_, rfl, ?_, fun condition hinert hbody => keeping_runs_self_iff.mp ?_⟩
      · cases result with
        | success value => cases okBranch with
          | none => cases hname
          | some branch =>
            obtain ⟨⟩ := branch
            exact inner_executeBound platform hexec location hname
        | error value => cases errBranch with
          | none => cases hname
          | some branch =>
            obtain ⟨⟩ := branch
            exact inner_executeBound platform hexec location hname
        | control action => cases controlBranch with
          | none => cases hname
          | some branch =>
            obtain ⟨⟩ := branch
            exact inner_executeBound platform hexec location hname
      · have hhosts := keeping_hosts platform hexec hexec hinert
        have hitems := keeping_allItems platform hexec classes hbody
        rw [bodyItems, allItems_append, allItems_append] at hitems
        exact runs_executeMatchResult
          (runs_branchRun hhosts location lineNo okBranch hitems.1)
          (runs_branchRun hhosts location lineNo errBranch hitems.2.1)
          (runs_controlRun hhosts location lineNo controlBranch hitems.2.2) result
    · cases hname

/-- The commands assign and delete the name outside of the block scope only as far as
their arguments do. -/
def KeepOuter (exec : Executor → List (ArgRun (World Executor Rest)) →
    Run (World Executor Rest) CommandResult) (name : Text)
    (items : List (CommandItem Executor)) : Prop :=
  ∀ item ∈ items, ∀ outer, CommandMaintains
    (fun world : World Executor Rest => world.scopes.outer name = outer) exec item

/-- The commands keep what the name has in the block scope if their arguments do. -/
def KeepInner (exec : Executor → List (ArgRun (World Executor Rest)) →
    Run (World Executor Rest) CommandResult) (name : Text)
    (items : List (CommandItem Executor)) : Prop :=
  ∀ item ∈ items, ∀ inner, CommandMaintains
    (fun world : World Executor Rest => world.scopes.inner name = inner) exec item

theorem inert_outer (name : Text)
    (outer : Option CollectionValue × Option CollectionValue × Option CollectionValue) :
    Inert fun world : World Executor Rest => world.scopes.outer name = outer :=
  ⟨fun _ _ hworld => hworld, fun _ _ _ hworld => hworld⟩

/-- Behind a `for`, `case` or `match-result` statement each name it bound has the block
value and the recorded level that it had where it was bound, and reads the same if no
command behind that point assigns or deletes it outside of the block.  That point is the
start of a `for`; it is as good as the start of the others if the subject or the command
does not change the name. -/
theorem bindings_restored (statement : Statement Executor) (world : World Executor Rest)
    (name : Text)
    (hname : name ∈ (bindingPoint classes (scopedHost platform exec hexec) location statement
      world).1) :
    let bound := (bindingPoint classes (scopedHost platform exec hexec) location statement
      world).2.scopes
    let after := (executeStatement classes (scopedHost platform exec hexec) location lineNo
      statement world).2.scopes
    after.inner name = bound.inner name ∧
      (KeepOuter exec name (bodyItems statement) → after.get name none = bound.get name none) ∧
      (KeepInner exec name (headItems statement) → after.inner name = world.scopes.inner name ∧
          (KeepOuter exec name (headItems statement ++ bodyItems statement) →
            after.get name none = world.scopes.get name none)) := by
  intro bound after
  obtain ⟨run, hrun, hrestores, hkeeps⟩ := executeStatement_bound classes platform hexec location
    lineNo statement world hname
  have hinner : after.inner name = bound.inner name := by
    simp only [after, hrun]
    exact hrestores _
  have houter (hbody : KeepOuter exec name (bodyItems statement)) :
      after.outer name = bound.outer name := by
    simp only [after, hrun]
    exact hkeeps _ (inert_outer name _) (fun item hitem => hbody item hitem _) _ rfl
  refine ⟨hinner, fun hbody => get_congr hinner (houter hbody), fun hhead => ?_⟩
  have hbound : bound.inner name = world.scopes.inner name :=
    bindingPoint_maintains classes platform hexec location (fun _ _ hworld => hworld) statement
      (fun item hitem => hhead item hitem (world.scopes.inner name)) world rfl
  refine ⟨hinner.trans hbound, fun hkeep => ?_⟩
  obtain ⟨hheadOuter, hbodyOuter⟩ := List.forall_mem_append.mp hkeep
  have hboundOuter : bound.outer name = world.scopes.outer name :=
    bindingPoint_maintains classes platform hexec location (inert_outer name _).rest statement
      (fun item hitem => hheadOuter item hitem (world.scopes.outer name)) world rfl
  exact get_congr (hinner.trans hbound) ((houter hbodyOuter).trans hboundOuter)

end Scoped

/-! ## Commands that spare a name -/

namespace Scopes

theorem outer_changeVarLevel (key : Text) (level : EnvLevel) (scopes : Scopes) (name : Text) :
    (scopes.changeVarLevel key level).outer name = scopes.outer name := by
  unfold changeVarLevel
  split
  · split <;> rfl
  · split <;> rfl

theorem outer_withEnv (key : Text) (hspares : level = .block ∨ key ≠ name)
    {values : Table Text CollectionValue} {scopes : Scopes}
    (hvalues : ∀ other, other ≠ key → values.lookup other = (scopes.env level).lookup other) :
    (scopes.withEnv level values).outer name = scopes.outer name := by
  cases level with
  | block => rfl
  | chain | global =>
    have hname := hvalues name (hspares.resolve_left nofun).symm
    simp only [outer, withEnv, hname, env]

end Scopes

/-- The command is about another name or about the block scope. -/
def VarCommand.spares (name : Text) : VarCommand → Prop
  | .assign kind key => kind = .block ∨ key ≠ name
  | .delete level var => level = some .block ∨ var ≠ name

theorem VarCommand.spares_maintains {command : VarCommand} (hspares : command.spares name)
    (outer : Option CollectionValue × Option CollectionValue × Option CollectionValue)
    (label : Text) (args : List (CommandArg VarCommand)) :
    CommandMaintains (fun world : World VarCommand Rest => world.scopes.outer name = outer)
      VarCommand.exec (.mk label args (some command)) := by
  intro runs hruns
  cases command with
  | assign kind key =>
    rw [exec]
    split
    · next arg harg =>
      refine maintains_bind (hruns arg (List.mem_of_getElem? harg)).1 fun value =>
        maintains_bind (maintains_modify fun world hworld => ?_) fun _ => maintains_pure _
      refine (outer_changeVarLevel key kind _ name).trans
        ((outer_withEnv key hspares fun other hother => ?_).trans hworld)
      rw [lookup_upsert, if_neg hother]
      rfl
    · refine maintains_bind (maintains_modify fun world hworld => ?_) fun _ => maintains_pure _
      exact (outer_changeVarLevel key kind _ name).trans hworld
  | delete level var =>
    refine maintains_bind (fun world hworld => ?_) fun found => ?_
    · refine (outer_withEnv var ?_ fun other hother => ?_).trans hworld
      · exact hspares.imp_left fun hlevel => by rw [resolveLevel, hlevel, Option.getD_some]
      · rw [lookup_deleteWhere]
        simp [hother]
    · cases found with
      | some value | none => exact maintains_pure _

abbrev varHost : Host (World VarCommand Unit) VarCommand :=
  scopedHost twoItems VarCommand.exec VarCommand.exec_neverUnlinked

def chainWorld (key : Text) (value : CollectionValue) : World VarCommand Unit :=
  ⟨⟨[], [], [(key, value)], [], []⟩, [], 0, 0, ()⟩

/-- `for k in [] then`, `delete --block k;` or another level, `end`, over the items of the
platform. -/
def deletingLoop (level : EnvLevel) : Statement VarCommand :=
  .forStatement ['k'] none (.listLiteral [])
    [.mk [] [.expressions [(none, .command (.mk ['d'] [] (some (.delete (some level) ['k']))),
      none)]]]

/-- `k` reads behind the loop as before it, the chain variable of that name. -/
theorem bindings_restored_loop :
    (executeStatement ascii varHost ⟨none, none⟩ 1 (deletingLoop .block)
        (chainWorld ['k'] .null)).2.scopes.get ['k'] none =
      (chainWorld ['k'] .null).scopes.get ['k'] none := by
  have hkeep : KeepOuter varHost.exec ['k']
      (headItems (deletingLoop .block) ++ bodyItems (deletingLoop .block)) := by
    intro item hitem outer
    obtain rfl : item = .mk ['d'] [] (some (.delete (some .block) ['k'])) := by
      simpa [headItems, bodyItems, deletingLoop, argItems, argsItems, linesItems, lineItems,
        statementsItems, statementItems, chainItems, expressionItems, itemItems] using hitem
    have hspares : (VarCommand.delete (some .block) ['k']).spares ['k'] := .inl rfl
    exact VarCommand.spares_maintains hspares outer _ _
  have hhead : KeepInner varHost.exec ['k'] (headItems (deletingLoop .block)) :=
    fun item hitem => nomatch hitem
  obtain ⟨_, _, hbefore⟩ := bindings_restored ascii twoItems
    VarCommand.exec_neverUnlinked ⟨none, none⟩ 1 (deletingLoop .block) (chainWorld ['k'] .null)
    ['k'] List.mem_cons_self
  rw [(hbefore hhead).2 hkeep]

/-- `match-result $(assign block x 5)`, `ok(x)`, `end`. -/
def assigningMatch : Statement VarCommand :=
  .matchResultStatement (.command (.mk "assign".toList
      [.literal "block".toList, .literal ['x'], .literal ['5']] (some (.assign .block ['x']))))
    (some (.mk ['x'] [])) none none

/-- The command of a statement assigns the name before it is bound: behind the statement the
block has a value for it that it did not have before.  A loop that assigns nothing but deletes
the name of its variable in the chain changes what it reads. -/
theorem bindings_not_restored :
    (['x'] ∈ (bindingPoint ascii varHost ⟨none, none⟩ assigningMatch (chainWorld ['k'] .null)).1 ∧
      (chainWorld ['k'] .null).scopes.inner ['x'] = (none, none) ∧
      (executeStatement ascii varHost ⟨none, none⟩ 1 assigningMatch
        (chainWorld ['k'] .null)).2.scopes.inner ['x'] =
        (some (.string ['5']), some .block)) ∧
    (chainWorld ['k'] .null).scopes.get ['k'] none = some .null ∧
      (executeStatement ascii varHost ⟨none, none⟩ 1 (deletingLoop .chain)
        (chainWorld ['k'] .null)).2.scopes.get ['k'] none = none := by
  refine ⟨⟨?_, ?_, ?_⟩, ?_, ?_⟩ <;> decide +kernel

end CyfsGateway.ProcessChain
