import CyfsGateway.Core.Tables
import CyfsGateway.ProcessChain.LinkedRuns

/-!
# Environments

`EnvManager`: the global, the chain and the block environment of a context and the
levels that its tracker records.  A name without record is looked up from the chain
environment on.  External and visitor-backed variables are left out.

An executor works in the context it is called with.  `World` holds the environments
of that context, the stack of execution pointers and everything else.  The host is
built over any executors; what collections do is a parameter, the `Platform`.
-/

namespace CyfsGateway.ProcessChain

open Tables

structure Scopes where
  /-- The variables of the hook point, behind the global environment. -/
  hookPoint : Table Text CollectionValue
  global : Table Text CollectionValue
  chain : Table Text CollectionValue
  block : Table Text CollectionValue
  varLevelTracker : Table Text EnvLevel

namespace Scopes

variable (key : Text) (level : Option EnvLevel) (scopes : Scopes)

/-- `Env::get`: the parents are asked for what an environment does not have. -/
def getGlobal : Option CollectionValue :=
  (scopes.global.lookup key).or (scopes.hookPoint.lookup key)

def getChain : Option CollectionValue :=
  (scopes.chain.lookup key).or (scopes.getGlobal key)

def getAt : EnvLevel → Option CollectionValue
  | .global => scopes.getGlobal key
  | .chain => scopes.getChain key
  | .block => (scopes.block.lookup key).or (scopes.getChain key)

def env : EnvLevel → Table Text CollectionValue
  | .global => scopes.global
  | .chain => scopes.chain
  | .block => scopes.block

def withEnv (level : EnvLevel) (values : Table Text CollectionValue) (scopes : Scopes) :
    Scopes :=
  match level with
  | .global => { scopes with global := values }
  | .chain => { scopes with chain := values }
  | .block => { scopes with block := values }

def varLevelEntry : Option EnvLevel :=
  scopes.varLevelTracker.lookup key

/-- `resolve_level`; the default level is the chain. -/
def resolveLevel : EnvLevel :=
  level.getD ((scopes.varLevelEntry key).getD .chain)

def restoreVarLevelEntry : Scopes :=
  { scopes with
    varLevelTracker :=
      match level with
      | some level => upsert key level scopes.varLevelTracker
      | none => deleteWhere (fun other => decide (other = key)) scopes.varLevelTracker }

/-- `change_var_level`: the default level is recorded only over another one. -/
def changeVarLevel (level : EnvLevel) (scopes : Scopes) : Scopes :=
  match scopes.varLevelEntry key with
  | some current =>
    if current = level then scopes else scopes.restoreVarLevelEntry key (some level)
  | none =>
    if level = .chain then scopes else scopes.restoreVarLevelEntry key (some level)

def get : Option CollectionValue :=
  scopes.getAt key (scopes.resolveLevel key level)

def set (value : CollectionValue) (level : Option EnvLevel) (scopes : Scopes) :
    Scopes :=
  let level := scopes.resolveLevel key level
  (scopes.withEnv level (upsert key value (scopes.env level))).changeVarLevel key level

/-- `remove` of a root key; the tracker stays as it is. -/
def remove : Scopes :=
  let level := scopes.resolveLevel key level
  scopes.withEnv level (deleteWhere (fun other => decide (other = key)) (scopes.env level))

end Scopes

/-! ## Chains and libraries -/

/-- The blocks of a chain in the order of their priority. -/
structure ProcessChainRef (Executor : Type) where
  id : Text
  blocks : List (Block Executor)

structure ProcessChainLibRef (Executor : Type) where
  id : Text
  chains : List (ProcessChainRef Executor)

inductive ExecPointerInner (Executor : Type) where
  | lib (lib : ProcessChainLibRef Executor)
  | chain (chain : ProcessChainRef Executor)
  | block (block : Text)

structure World (Executor Rest : Type) where
  scopes : Scopes
  stack : List (ExecPointerInner Executor)
  /-- The most frames that were on the stack at once. -/
  deepest : Nat
  /-- How often a frame of another kind was popped. -/
  mispops : Nat
  rest : Rest

/-- Collections and what the policies of a context decide. -/
structure Platform (Rest : Type) where
  listGet : Nat → Nat → Query Rest (Option CollectionValue)
  mapGet : Nat → Text → Query Rest (Option CollectionValue)
  setContains : Nat → Text → Query Rest Bool
  multiMapGetMany : Nat → Text → Query Rest (Option Nat)
  newList : List CollectionValue → Query Rest Nat
  newMap : List (Text × CollectionValue) → Query Rest Nat
  /-- The items of a collection and their values. -/
  items : CollectionValue → Bool → Query Rest (List (CollectionValue × CollectionValue))
  /-- The traversal of a collection begins and ends; in between it refuses changes. -/
  enterTraversal : CollectionValue → Rest → Rest
  leaveTraversal : CollectionValue → Rest → Rest
  strictMissing : Bool
  /-- `get` of a key that is a path. -/
  getPath : Text → Scopes → Query Rest (Option CollectionValue)
  coerceToString : CollectionValue → Except Text Text
  /-- The text of a failure. -/
  describe : Failure → Text

def twoItems : Platform Unit where
  listGet _ _ rest := (.ok none, rest)
  mapGet _ _ rest := (.ok none, rest)
  setContains _ _ rest := (.ok false, rest)
  multiMapGetMany _ _ rest := (.ok none, rest)
  newList _ rest := (.ok 0, rest)
  newMap _ rest := (.ok 0, rest)
  items _ _ rest := (.ok [(.string ['a'], .null), (.string ['b'], .null)], rest)
  enterTraversal _ rest := rest
  leaveTraversal _ rest := rest
  strictMissing := false
  getPath _ _ rest := (.ok none, rest)
  coerceToString
    | .string text => .ok text
    | _ => .error []
  describe _ := []

variable {Executor Rest Value : Type}

def World.query (query : Query Rest Value) : Query (World Executor Rest) Value :=
  fun world =>
    let (outcome, rest) := query world.rest
    (outcome, { world with rest })

/-- `is_simple_root_key`. -/
def isSimpleRootKey (key : Text) : Bool :=
  !key.isEmpty && key.all fun c => !(['.', '[', ']', '\\', '(', ')'].contains c) && !isWhitespace c

/-- `EnvManager::get` without a level. -/
def World.get (platform : Platform Rest) (key : Text) :
    Query (World Executor Rest) (Option CollectionValue) := fun world =>
  if isSimpleRootKey key then (.ok (world.scopes.get key none), world)
  else World.query (platform.getPath key world.scopes) world

def World.modify (change : Scopes → Scopes) : Query (World Executor Rest) Unit :=
  fun world => (.ok (), { world with scopes := change world.scopes })

def traverseItems (step : ForStep (World Executor Rest)) :
    List (CollectionValue × CollectionValue) → ForTraverseState →
      Run (World Executor Rest) ForTraverseState
  | [], state => pure state
  | (key, value) :: rest, state =>
    step key value state >>= fun outcome =>
    if outcome.2 then traverseItems step rest outcome.1 else pure outcome.1

/-- The guard of a traversal is dropped however it ends. -/
def guardTraversal (platform : Platform Rest) (collection : CollectionValue)
    (run : Run (World Executor Rest) Value) : Run (World Executor Rest) Value :=
  around (fun world => { world with rest := platform.enterTraversal collection world.rest })
    (fun _ after => { after with rest := platform.leaveTraversal collection after.rest }) run

def traverseCollection (platform : Platform Rest) (collection : CollectionValue)
    (values : Bool) (step : ForStep (World Executor Rest)) (state : ForTraverseState) :
    Run (World Executor Rest) ForTraverseState :=
  ask (World.query (platform.items collection values)) >>= fun items =>
  guardTraversal platform collection (traverseItems step items state)

section Host

variable {matching : Matching (World Executor Rest) (World Executor Rest)}

theorem Matching.runs_traverseItems
    (hstep : ∀ key value state, matching.Runs (step key value state) (step' key value state))
    (items : List (CollectionValue × CollectionValue)) :
    ∀ state, matching.Runs (traverseItems step items state) (traverseItems step' items state) := by
  induction items with
  | nil => exact fun state => runs_pure state
  | cons item rest ih =>
    intro state
    exact runs_bind (hstep _ _ state) fun outcome => runs_ite (ih outcome.1) (runs_pure _)

variable {platform : Platform Rest}

section Traversals

variable {collection : CollectionValue}
  (henter : ∀ world image (change : Rest → Rest), matching.worlds world image →
    matching.worlds { world with rest := change world.rest }
      { image with rest := change image.rest })

include henter

/-- Worlds correspond whatever the traversals that are going on. -/
theorem Matching.runs_guardTraversal
    {run other : Run (World Executor Rest) Value} (hrun : matching.Runs run other) :
    matching.Runs (guardTraversal platform collection run)
      (guardTraversal platform collection other) :=
  runs_around (fun world image => henter world image _)
    (fun _ _ after after' _ => henter after after' _) hrun fun _ hfine => hfine

/-- Worlds of which the rest can change, asked the same. -/
theorem Matching.runs_traverseCollection {values : Bool}
    (hitems : matching.Queries (World.query (platform.items collection values))
      (World.query (platform.items collection values)))
    {step step' : ForStep (World Executor Rest)}
    (hstep : ∀ key value state, matching.Runs (step key value state) (step' key value state))
    (state : ForTraverseState) :
    matching.Runs (traverseCollection platform collection values step state)
      (traverseCollection platform collection values step' state) :=
  runs_bind (runs_ask hitems) fun items =>
    runs_guardTraversal henter (runs_traverseItems hstep items state)

end Traversals

theorem neverUnlinked_traverseCollection {collection : CollectionValue} {values : Bool}
    {step : ForStep (World Executor Rest)} {state : ForTraverseState}
    (hstep : ∀ key value state, NeverUnlinked (step key value state)) :
    NeverUnlinked (traverseCollection platform collection values step state) := by
  refine linkedMatching_runs_self_iff.mp (Matching.runs_traverseCollection ?_ ?_
    (fun key value state => linkedMatching_runs_self_iff.mpr (hstep key value state)) state)
  · rintro world _ change rfl
    rfl
  · rintro world _ rfl
    exact ⟨rfl, rfl⟩

/-- The commands of a context.  The names that statements bind are root keys: the
parser accepts letters, digits and underscores only. -/
def scopedHost (platform : Platform Rest) (exec : Executor → List (ArgRun (World Executor Rest)) →
      Run (World Executor Rest) CommandResult)
    (hexec : ∀ executor args, (∀ arg ∈ args, arg.NeverUnlinked) →
      NeverUnlinked (exec executor args)) :
    Host (World Executor Rest) Executor where
  get := World.get platform
  listGet object index := World.query (platform.listGet object index)
  mapGet object key := World.query (platform.mapGet object key)
  setContains object key := World.query (platform.setContains object key)
  multiMapGetMany object key := World.query (platform.multiMapGetMany object key)
  strictMissing := platform.strictMissing
  exec := exec
  newList values := World.query (platform.newList values)
  newMap entries := World.query (platform.newMap entries)
  blockContains name world := (.ok (world.scopes.block.lookup name).isSome, world)
  getBlock name world := (.ok (world.scopes.get name (some .block)), world)
  setBlock name value := World.modify (Scopes.set name value (some .block))
  removeBlock name := World.modify (Scopes.remove name (some .block))
  varLevelEntry name world := world.scopes.varLevelEntry name
  restoreVarLevelEntry name level world :=
    { world with scopes := world.scopes.restoreVarLevelEntry name level }
  traverse := traverseCollection platform
  exec_neverUnlinked := hexec
  traverse_neverUnlinked _ _ _ _ hstep := neverUnlinked_traverseCollection hstep

end Host

/-! ## Invariants of blocks -/

/-- A binding in the block scope touches the block environment and the tracker only. -/
theorem Scopes.set_block (name : Text) (value : CollectionValue) (scopes : Scopes) :
    ∃ tracker, scopes.set name value (some .block) =
      { scopes with block := upsert name value scopes.block, varLevelTracker := tracker } := by
  unfold Scopes.set Scopes.changeVarLevel
  dsimp only [Scopes.resolveLevel, Option.getD_some, Scopes.withEnv, Scopes.env]
  split
  · split
    · exact ⟨_, rfl⟩
    · exact ⟨_, rfl⟩
  · split
    · exact ⟨_, rfl⟩
    · exact ⟨_, rfl⟩

/-- A condition that says nothing of the block scope and of the collections, so only the
commands that write elsewhere can break it. -/
structure Inert (condition : World Executor Rest → Prop) : Prop where
  rest : ∀ world rest, condition world → condition { world with rest }
  block : ∀ world block tracker, condition world →
    condition { world with
      scopes := { world.scopes with block, varLevelTracker := tracker } }

def keeping (condition : World Executor Rest → Prop) :
    Matching (World Executor Rest) (World Executor Rest) where
  worlds world image := world = image ∧ condition world
  fine _ := True
  fine_message _ := trivial
  fine_result _ := trivial
  fine_wrapped _ _ _ _ _ _ _ := trivial
  fine_both _ _ _ _ := trivial

def Maintains (condition : World Executor Rest → Prop) (run : Run (World Executor Rest) Value) :
    Prop := ∀ world, condition world → condition (run world).2

def ArgRun.Maintains (condition : World Executor Rest → Prop)
    (arg : ArgRun (World Executor Rest)) : Prop :=
  ProcessChain.Maintains condition arg.evaluate ∧
    ∀ run ∈ arg.execute, ProcessChain.Maintains condition run

section Keeping

variable {condition : World Executor Rest → Prop} (platform : Platform Rest)

theorem keeping_runs_self_iff {run : Run (World Executor Rest) Value} :
    (keeping condition).Runs run run ↔ Maintains condition run := by
  constructor
  · intro hruns world hworld
    exact (hruns world world ⟨rfl, hworld⟩).2.2.2
  · rintro hmaintains world _ ⟨rfl, hworld⟩
    exact ⟨rfl, fun _ _ => trivial, rfl, hmaintains world hworld⟩

theorem keeping_around {inner enter leave} (henter : ∀ world, condition world → inner (enter world))
    (hleave : ∀ world after, condition world → inner after → condition (leave world after))
    (hrun : (keeping inner).Runs run other) :
    (keeping condition).Runs (around enter leave run) (around enter leave other) := by
  refine Matching.runs_around ?_ ?_ hrun fun _ hfine => hfine
  · rintro world _ ⟨rfl, hworld⟩
    exact ⟨rfl, henter world hworld⟩
  · rintro world _ after _ ⟨rfl, hworld⟩ ⟨rfl, hafter⟩
    exact ⟨rfl, hleave world after hworld hafter⟩

theorem maintains_of_runs
    (hruns : (keeping condition).Runs run other) : Maintains condition run := by
  intro world hworld
  obtain ⟨_, _, _, hafter⟩ := hruns world world ⟨rfl, hworld⟩
  exact hafter

variable {exec exec' : Executor → List (ArgRun (World Executor Rest)) →
    Run (World Executor Rest) CommandResult}
  (hexec : ∀ executor args, (∀ arg ∈ args, arg.NeverUnlinked) → NeverUnlinked (exec executor args))
  (hexec' : ∀ executor args, (∀ arg ∈ args, arg.NeverUnlinked) →
    NeverUnlinked (exec' executor args))

/-- A command that keeps a condition if its arguments do. -/
def CommandMaintains (condition : World Executor Rest → Prop)
    (exec : Executor → List (ArgRun (World Executor Rest)) →
      Run (World Executor Rest) CommandResult) : CommandItem Executor → Prop
  | .mk _ _ none => True
  | .mk _ _ (some executor) =>
    ∀ args, (∀ arg ∈ args, arg.Maintains condition) → Maintains condition (exec executor args)

theorem keeping_allItems (classes : CharClasses) {items : List (CommandItem Executor)}
    (hitems : ∀ item ∈ items, CommandMaintains condition exec item) :
    (keeping condition).AllItems classes (scopedHost platform exec hexec)
      (scopedHost platform exec hexec) items := by
  intro item hitem
  refine ⟨fun _ _ => trivial, ?_⟩
  rintro name args executor rfl hargs
  exact keeping_runs_self_iff.mpr
    (hitems _ hitem _ (Matching.holds_of_args maintains_of_runs hargs))

section Evaluators

variable (hrest : ∀ (world : World Executor Rest) rest, condition world →
    condition { world with rest })

include hrest

theorem keeping_query (query : Query Rest Value) :
    (keeping condition).Queries (World.query query) (World.query query) := by
  rintro world _ ⟨rfl, hworld⟩
  exact ⟨rfl, rfl, hrest world _ hworld⟩

/-- Reading variables and collections keeps what does not speak of the collections. -/
theorem keeping_evaluators : (keeping condition).Evaluators (scopedHost platform exec hexec)
      (scopedHost platform exec' hexec') := by
  refine ⟨⟨fun key => ?_, fun _ _ => keeping_query hrest _, fun _ _ => keeping_query hrest _,
    fun _ _ => keeping_query hrest _, fun _ _ => keeping_query hrest _, rfl⟩,
    fun _ => keeping_query hrest _, fun _ => keeping_query hrest _⟩
  rintro world _ ⟨rfl, hworld⟩
  refine ⟨rfl, rfl, ?_⟩
  change condition (World.get platform key world).2
  rw [World.get]
  split
  · exact hworld
  · exact hrest world _ hworld

end Evaluators

/-- What a host does besides its commands keeps an inert condition. -/
theorem keeping_hosts (hinert : Inert condition) :
    (keeping condition).Hosts (scopedHost platform exec hexec)
      (scopedHost platform exec' hexec') := by
  constructor
  case toEvaluators => exact keeping_evaluators platform hexec hexec' hinert.rest
  case blockContains =>
    rintro name world _ ⟨rfl, hworld⟩
    exact ⟨rfl, rfl, hworld⟩
  case getBlock =>
    rintro name world _ ⟨rfl, hworld⟩
    exact ⟨rfl, rfl, hworld⟩
  case setBlock =>
    rintro name value world _ ⟨rfl, hworld⟩
    refine ⟨rfl, rfl, ?_⟩
    obtain ⟨tracker, htracker⟩ := Scopes.set_block name value world.scopes
    change condition { world with scopes := world.scopes.set name value (some .block) }
    rw [htracker]
    exact hinert.block world _ tracker hworld
  case removeBlock =>
    rintro name world _ ⟨rfl, hworld⟩
    exact ⟨rfl, rfl, hinert.block world _ _ hworld⟩
  case varLevelEntry =>
    rintro name world _ ⟨rfl, hworld⟩
    rfl
  case restoreVarLevelEntry =>
    rintro name level world _ ⟨rfl, hworld⟩
    exact ⟨rfl, hinert.block world _ _ hworld⟩
  case traverse =>
    intro collection values step step' state hstep
    refine Matching.runs_traverseCollection ?_ (keeping_query hinert.rest _) hstep state
    rintro world _ change ⟨rfl, hworld⟩
    exact ⟨rfl, hinert.rest world _ hworld⟩

end Keeping

/-- `AssignCommand` and `DeleteCommand`, of a root key. -/
inductive VarCommand
  | assign (kind : EnvLevel) (key : Text)
  | delete (level : Option EnvLevel) (var : Text)
  deriving DecidableEq

def EnvLevel.debug : EnvLevel → String
  | .global => "Global"
  | .chain => "Chain"
  | .block => "Block"

/-- The third argument of an assignment is the value, if there is one. -/
def VarCommand.exec :
    VarCommand → List (ArgRun (World Executor Rest)) → Run (World Executor Rest) CommandResult
  | .assign kind key, args =>
    match args[2]? with
    | some arg =>
      arg.evaluate >>= fun value =>
      ask (World.modify (Scopes.set key value (some kind))) >>= fun _ => pure (.success value)
    | none => ask (World.modify (Scopes.changeVarLevel key kind)) >>= fun _ => pure .empty
  | .delete level var, _ =>
    ask (fun world => (.ok ((world.scopes.env (world.scopes.resolveLevel var level)).lookup var),
      { world with scopes := world.scopes.remove var level })) >>= fun
      | some value => pure (.success value)
      | none => pure (.error (.string ("Variable '".toList ++ var ++
          "' not found in scope ".toList ++
          (level.elim "None" fun level => "Some(" ++ level.debug ++ ")").toList)))

theorem VarCommand.exec_neverUnlinked (command : VarCommand)
    (args : List (ArgRun (World Executor Rest))) (hargs : ∀ arg ∈ args, arg.NeverUnlinked) :
    NeverUnlinked (command.exec args) := by
  cases command with
  | assign kind key =>
    rw [exec]
    split
    · next arg harg =>
      exact neverUnlinked_bind (hargs arg (List.mem_of_getElem? harg)).1 fun value =>
        neverUnlinked_bind (neverUnlinked_ask _) fun _ => neverUnlinked_pure _
    · exact neverUnlinked_bind (neverUnlinked_ask _) fun _ => neverUnlinked_pure _
  | delete level var =>
    refine neverUnlinked_bind (neverUnlinked_ask _) fun found => ?_
    cases found with
    | some value | none => exact neverUnlinked_pure _

section Maintains

theorem maintains_pure (value : Value) :
    Maintains condition (pure value : Run (World Executor Rest) Value) := fun _ hworld => hworld

theorem maintains_bind {Next : Type} {run : Run (World Executor Rest) Value}
    {next : Value → Run (World Executor Rest) Next} (hrun : Maintains condition run)
    (hnext : ∀ value, Maintains condition (next value)) :
    Maintains condition (run >>= next) :=
  keeping_runs_self_iff.mp (Matching.runs_bind (keeping_runs_self_iff.mpr hrun)
    fun value => keeping_runs_self_iff.mpr (hnext value))

theorem maintains_modify {change} (hchange : ∀ world : World Executor Rest, condition world →
      condition { world with scopes := change world.scopes }) :
    Maintains condition (ask (World.modify change)) := hchange

end Maintains

end CyfsGateway.ProcessChain
