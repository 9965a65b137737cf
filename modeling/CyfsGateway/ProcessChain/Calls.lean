import CyfsGateway.ProcessChain.Environments

/-!
# Calls between blocks, chains and libraries

`ProcessChainExecutor`, `ProcessChainLibExecutor` and the commands `exec`, `invoke` and
`goto`, which find a block, a chain or a library and run it on top of the stack of
execution pointers.  All other commands are leaves: finite programs over the variables,
the collections and their arguments.

A forked context shares the environments that it does not replace, so running in one is
modelled by replacing environments and putting them back.  A panic outside of the stack
is an error here; it drops the same guards.
-/

namespace CyfsGateway.ProcessChain

/-- A command that calls nothing but its arguments.  It ends: each step goes on with a
smaller program. -/
inductive LeafProgram (Rest : Type) where
  | done (result : Except Text CommandResult)
  | act (change : Scopes → Rest → Scopes × Rest) (next : Scopes → Rest → LeafProgram Rest)
  | evaluate (arg : Nat) (next : Except Text CollectionValue → LeafProgram Rest)
  | execute (arg : Nat) (next : Except Text CommandResult → LeafProgram Rest)

inductive ExecScope
  | block
  | chain
  | lib
  deriving DecidableEq

/-- Executors; a target and the values of named arguments are positions in the list of
arguments. -/
inductive Command (Rest : Type) where
  | leaf (program : LeafProgram Rest)
  | exec (scope : ExecScope) (target : Nat)
  | invoke (scope : ExecScope) (target : Nat) (args : List (Text × Nat))
  | goto (scope : ExecScope) (target : Nat) (args : List (Text × Nat))
      (okFrom errFrom : CommandControlLevel)

abbrev ChainWorld (Rest : Type) := World (Command Rest) Rest

section Stack

variable {Executor Rest Value : Type}

inductive FrameKind
  | lib
  | chain
  | block
  deriving DecidableEq

def ExecPointerInner.kind : ExecPointerInner Executor → FrameKind
  | .lib _ => .lib
  | .chain _ => .chain
  | .block _ => .block

def maxStackDepth : Nat := 64

def World.push (frame : ExecPointerInner Executor) (world : World Executor Rest) :
    World Executor Rest :=
  { world with
    stack := frame :: world.stack
    deepest := max world.deepest (world.stack.length + 1) }

/-- `pop_lib`, `pop_chain` and `pop_block`, which expect a frame of their kind. -/
def World.pop (kind : FrameKind) (world : World Executor Rest) : World Executor Rest :=
  { world with
    stack := world.stack.tail
    mispops :=
      if world.stack.head?.map ExecPointerInner.kind = some kind then world.mispops
      else world.mispops + 1 }

def depthMessage (depth : Nat) : Text :=
  ("Execution stack depth " ++ toString depth ++ " exceeds maximum limit of " ++
    toString maxStackDepth).toList

/-- A guard of the stack around a computation.  It is dropped however that ends. -/
def withFrame (frame : ExecPointerInner Executor) (run : Run (World Executor Rest) Value) :
    Run (World Executor Rest) Value := fun world =>
  if maxStackDepth ≤ world.stack.length then
    (.error (.message (depthMessage world.stack.length)), world)
  else around (World.push frame) (fun _ after => after.pop frame.kind) run world

def currentLib (stack : List (ExecPointerInner Executor)) : Option (ProcessChainLibRef Executor) :=
  stack.findSome? fun
    | .lib lib => some lib
    | _ => none

def currentChain (stack : List (ExecPointerInner Executor)) : Option (ProcessChainRef Executor) :=
  stack.findSome? fun
    | .chain chain => some chain
    | _ => none

end Stack

section Forks

variable {Executor Rest Value : Type}

def Scopes.forkBlock (scopes : Scopes) : Scopes :=
  { scopes with block := [], varLevelTracker := [] }

def Scopes.forkChain (scopes : Scopes) : Scopes :=
  { scopes with chain := [], block := [], varLevelTracker := [] }

def inForkedBlock (run : Run (World Executor Rest) Value) : Run (World Executor Rest) Value :=
  around (fun world => { world with scopes := world.scopes.forkBlock })
    (fun world after => { after with
      scopes := { after.scopes with
        block := world.scopes.block
        varLevelTracker := world.scopes.varLevelTracker } }) run

def inForkedChain (run : Run (World Executor Rest) Value) : Run (World Executor Rest) Value :=
  around (fun world => { world with scopes := world.scopes.forkChain })
    (fun world after => { after with
      scopes := { after.scopes with
        chain := world.scopes.chain
        block := world.scopes.block
        varLevelTracker := world.scopes.varLevelTracker } }) run

end Forks

/-! ## Finding chains and blocks -/

section Search

variable {Executor : Type}

def ProcessChainRef.getBlock (chain : ProcessChainRef Executor) (id : Text) :
    Option (Block Executor) := chain.blocks.find? fun block => decide (block.id = id)

/-- `get_chain` of a linked library, which is a `ProcessChainConstListLib`. -/
def ProcessChainLibRef.getChain (lib : ProcessChainLibRef Executor) (id : Text) :
    Except Text (ProcessChainRef Executor) :=
  match lib.chains.find? fun chain => decide (chain.id = id) with
  | some chain => .ok chain
  | none => .error ("Process chain with id '".toList ++ id ++ "' not found".toList)

/-- `ProcessChainLinkedManager`, and whether the level of the log admits warnings: only
then `warn!` evaluates its arguments. -/
structure LinkedManager (Executor : Type) where
  libs : List (ProcessChainLibRef Executor)
  warns : Bool

def LinkedManager.getLib (manager : LinkedManager Executor) (id : Text) :
    Option (ProcessChainLibRef Executor) := manager.libs.find? fun lib => decide (lib.id = id)

/-- A library that does not have the chain fails, so without an id the first one
decides. -/
def LinkedManager.getChain (manager : LinkedManager Executor) (libId : Option Text)
    (chainId : Text) :
    Except Text (Option (ProcessChainLibRef Executor × ProcessChainRef Executor)) :=
  match libId with
  | some id =>
    match manager.getLib id with
    | some lib => (lib.getChain chainId).map fun chain => some (lib, chain)
    | none => .ok none
  | none =>
    match manager.libs with
    | [] => .ok none
    | lib :: _ => (lib.getChain chainId).map fun chain => some (lib, chain)

/-- The loop of `get_block` over all libraries. -/
def findBlock (chainId blockId : Text) : List (ProcessChainLibRef Executor) →
    Except Text (Option (ProcessChainLibRef Executor × ProcessChainRef Executor))
  | [] => .ok none
  | lib :: rest =>
    match lib.getChain chainId with
    | .error message => .error message
    | .ok chain =>
      if (chain.getBlock blockId).isSome then .ok (some (lib, chain))
      else findBlock chainId blockId rest

def LinkedManager.getBlock (manager : LinkedManager Executor) (libId : Option Text)
    (chainId blockId : Text) :
    Except Text (Option (ProcessChainLibRef Executor × ProcessChainRef Executor)) :=
  match libId with
  | some id =>
    match manager.getLib id with
    | some lib =>
      (lib.getChain chainId).map fun chain =>
        if (chain.getBlock blockId).isSome then some (lib, chain) else none
    | none => .ok none
  | none => findBlock chainId blockId manager.libs

structure SearchResult (Executor : Type) where
  lib : ProcessChainLibRef Executor
  sameLib : Bool
  chain : ProcessChainRef Executor
  sameChain : Bool

/-- The panic of `unwrap` on `None`. -/
def unwrapPanic : String := "called `Option::unwrap()` on a `None` value"

/-- The panic of the assertion in `invoke`. -/
def assertPanic : String := "Chain must not be in the same library if same_chain is false"

/-- The warning about a chain or block that no library has unwraps the library's id. -/
def managed (manager : LinkedManager Executor) (libId : Option Text)
    (found : Except Text (Option (ProcessChainLibRef Executor × ProcessChainRef Executor))) :
    Except Text (Option (SearchResult Executor)) :=
  match found, libId with
  | .error message, _ => .error message
  | .ok (some (lib, chain)), _ => .ok (some ⟨lib, false, chain, false⟩)
  | .ok none, some _ => .ok none
  | .ok none, none => if manager.warns then .error unwrapPanic.toList else .ok none

variable (manager : LinkedManager Executor) (stack : List (ExecPointerInner Executor))

def searchedLib (libId : Option Text) : Option (ProcessChainLibRef Executor) :=
  (currentLib stack).filter fun lib => decide (libId = none ∨ libId = some lib.id)

def searchLib (libId : Text) : Option (ProcessChainLibRef Executor) :=
  match searchedLib stack (some libId) with
  | some lib => some lib
  | none => manager.getLib libId

def searchChain (libId : Option Text) (chainId : Text) :
    Except Text (Option (SearchResult Executor)) :=
  match searchedLib stack libId with
  | some lib =>
    match (currentChain stack).filter fun chain => decide (chain.id = chainId) with
    | some chain => .ok (some ⟨lib, true, chain, true⟩)
    | none => (lib.getChain chainId).map fun chain => some ⟨lib, true, chain, false⟩
  | none => managed manager libId (manager.getChain libId chainId)

def searchManagedBlock (libId chainId : Option Text) (blockId : Text) :
    Except Text (Option (SearchResult Executor)) :=
  match chainId with
  | some chainId => managed manager libId (manager.getBlock libId chainId blockId)
  | none => .ok none

def searchLibBlock (lib : ProcessChainLibRef Executor) (libId : Option Text)
    (chainId blockId : Text) : Except Text (Option (SearchResult Executor)) :=
  match lib.getChain chainId with
  | .error message => .error message
  | .ok chain =>
    if (chain.getBlock blockId).isSome then .ok (some ⟨lib, true, chain, false⟩)
    else if libId.isSome then .ok none
    else searchManagedBlock manager libId (some chainId) blockId

def searchBlock (libId chainId : Option Text) (blockId : Text) :
    Except Text (Option (SearchResult Executor)) :=
  match searchedLib stack libId with
  | none => searchManagedBlock manager libId chainId blockId
  | some lib =>
    match chainId with
    | none =>
      .ok ((currentChain stack).bind fun chain =>
        if (chain.getBlock blockId).isSome then some ⟨lib, true, chain, true⟩ else none)
    | some chainId =>
      match (currentChain stack).filter fun chain =>
          decide (chain.id = chainId) && (chain.getBlock blockId).isSome with
      | some chain => .ok (some ⟨lib, true, chain, true⟩)
      | none => searchLibBlock manager lib libId chainId blockId

end Search

section Execution

variable {Executor Rest : Type} (classes : CharClasses) (host : Host (World Executor Rest) Executor)

def executeGuardedBlock (block : Block Executor) : Run (World Executor Rest) CommandResult :=
  withFrame (.block block.id) (inForkedBlock (executeBlock classes host block))

def executeChainBlock (chain : ProcessChainRef Executor) (blockId : Text) :
    Run (World Executor Rest) CommandResult :=
  match chain.getBlock blockId with
  | none => refuse "Block not found: " blockId
  | some block => executeGuardedBlock classes host block

/-- The loop of `execute_chain` over its blocks. -/
def executeBlocks : CommandResult → List (Block Executor) → Run (World Executor Rest) CommandResult
  | result, [] => pure result
  | _, block :: rest =>
    executeGuardedBlock classes host block >>= fun result =>
    match result with
    | .control (.return level _) | .control (.error level _) =>
      if level = .block then executeBlocks result rest else pure result
    | .control (.exit _) => pure result
    | .control (.break _) =>
      refuse "break action only valid in map-reduce loop, found in block " block.id
    | _ => executeBlocks result rest

def executeChain (chain : ProcessChainRef Executor) : Run (World Executor Rest) CommandResult :=
  if chain.blocks.isEmpty then pure .empty
  else withFrame (.chain chain) (executeBlocks classes host .empty chain.blocks)

def CommandResult.leavesLib : CommandResult → Bool
  | .control (.exit _) => true
  | .control (.return .lib _) => true
  | .control (.error .lib _) => true
  | _ => false

/-- The loop of `execute_lib` over its chains, all in one context. -/
def executeChains :
    CommandResult → List (ProcessChainRef Executor) → Run (World Executor Rest) CommandResult
  | result, [] => pure result
  | _, chain :: rest =>
    executeChain classes host chain >>= fun result =>
    if result.leavesLib then pure result else executeChains result rest

def executeLib (lib : ProcessChainLibRef Executor) : Run (World Executor Rest) CommandResult :=
  withFrame (.lib lib) (executeChains classes host .empty lib.chains)

def executeLibChain (lib : ProcessChainLibRef Executor) (chainId : Text) :
    Run (World Executor Rest) CommandResult :=
  match lib.getChain chainId with
  | .error message => throw (.message message)
  | .ok chain => withFrame (.lib lib) (executeChain classes host chain)

end Execution

/-! ## The commands that call -/

inductive ExecTarget
  | block (lib chain : Option Text) (block : Text)
  | chain (lib : Option Text) (chain : Text)
  | lib (lib : Text)
  deriving DecidableEq

def ExecTarget.parse (scope : ExecScope) (target : Text) : Except Text ExecTarget :=
  match scope, target.splitOn ':' with
  | .block, [blockId] => .ok (.block none none blockId)
  | .block, [chainId, blockId] => .ok (.block none (some chainId) blockId)
  | .block, [libId, chainId, blockId] => .ok (.block (some libId) (some chainId) blockId)
  | .chain, [chainId] => .ok (.chain none chainId)
  | .chain, [libId, chainId] => .ok (.chain (some libId) chainId)
  | .lib, [libId] => .ok (.lib libId)
  | .block, _ => fail "Invalid block ID format: " target
  | .chain, _ => fail "Invalid chain ID format: " target
  | .lib, _ => fail "Invalid lib ID format: " target

def normalizeExecResult {World : Type} (command : String) (target : Text) :
    CommandResult → Run World CommandResult
  | .control (.return _ value) => pure (.success value)
  | .control (.error _ value) => pure (.error value)
  | .control (.exit _) =>
    refuse ("Exit control action is not allowed in " ++ command ++ " command ") target
  | .control (.break _) =>
    refuse ("break action only valid in map-reduce loop, found in " ++ command ++ " target ") target
  | result => pure result

section Calls

variable {Rest Value : Type} (classes : CharClasses) (platform : Platform Rest)
  (manager : LinkedManager (Command Rest))

def withStack (next : List (ExecPointerInner (Command Rest)) → Run (ChainWorld Rest) Value) :
    Run (ChainWorld Rest) Value := fun world => next world.stack world

def found {Found : Type} (target : Text) : Except Text (Option Found) → Run (ChainWorld Rest) Found
  | .error message => throw (.message message)
  | .ok none => refuse "Target not found: " target
  | .ok (some found) => pure found

/-- A guard for the target's library unless it is the current one. -/
def withLib (result : SearchResult (Command Rest)) (run : Run (ChainWorld Rest) Value) :
    Run (ChainWorld Rest) Value :=
  if result.sameLib then run else withFrame (.lib result.lib) run

/-- A guard for the target's chain unless it is the current one. -/
def withChain (result : SearchResult (Command Rest)) (run : Run (ChainWorld Rest) Value) :
    Run (ChainWorld Rest) Value :=
  if result.sameChain then run else withFrame (.chain result.chain) run

/-- `inject_args`: what a chain forked for a call starts with. -/
def injectArgs (args : Nat) : Run (ChainWorld Rest) Unit :=
  ask (World.modify (Scopes.set "__args".toList (.map args) (some .chain)))

variable (host : Host (ChainWorld Rest) (Command Rest))

/-- `ExecCommandExecutor`: a block of the current chain shares its context. -/
def execTarget (targetId : Text) : ExecTarget → Run (ChainWorld Rest) CommandResult
  | .block lib chain block =>
    withStack fun stack =>
    found targetId (searchBlock manager stack lib chain block) >>= fun result =>
    withLib result (withChain result
      (if result.sameChain then executeChainBlock classes host result.chain block
        else inForkedChain (executeChainBlock classes host result.chain block)))
  | .chain lib chain =>
    withStack fun stack =>
    found targetId (searchChain manager stack lib chain) >>= fun result =>
    withLib result (inForkedChain (executeChain classes host result.chain))
  | .lib lib =>
    withStack fun stack =>
    found targetId (.ok (searchLib manager stack lib)) >>= fun lib =>
    inForkedChain (executeLib classes host lib)

/-- `InvokeCommandExecutor`.  For a block of another chain it asserts that the library
is another one as well. -/
def invokeTarget (targetId : Text) (args : Nat) : ExecTarget → Run (ChainWorld Rest) CommandResult
  | .block lib chain block =>
    withStack fun stack =>
    found targetId (searchBlock manager stack lib chain block) >>= fun result =>
    withLib result (if !result.sameChain && result.sameLib then
        refuse assertPanic []
      else withChain result (inForkedChain (injectArgs args >>= fun _ =>
        executeChainBlock classes host result.chain block)))
  | .chain lib chain =>
    withStack fun stack =>
    found targetId (searchChain manager stack lib chain) >>= fun result =>
    withLib result (inForkedChain (injectArgs args >>= fun _ =>
      executeChain classes host result.chain))
  | .lib lib =>
    withStack fun stack =>
    found targetId (.ok (searchLib manager stack lib)) >>= fun lib =>
    inForkedChain (injectArgs args >>= fun _ => executeLib classes host lib)

variable (args : List (ArgRun (ChainWorld Rest)))

/-- `evaluate` and `evaluate_string` of an argument. -/
def evaluateArgAt (index : Nat) : Run (ChainWorld Rest) CollectionValue :=
  match args[index]? with
  | some arg => arg.evaluate
  | none => refuse "Missing argument" []

def evaluateString (index : Nat) : Run (ChainWorld Rest) Text :=
  evaluateArgAt args index >>= fun value =>
  match platform.coerceToString value with
  | .ok text => pure text
  | .error message => throw (.message message)

def evaluateNamed (args : List (ArgRun (ChainWorld Rest))) :
    List (Text × Nat) → Run (ChainWorld Rest) (List (Text × CollectionValue))
  | [] => pure []
  | (key, index) :: rest =>
    evaluateArgAt args index >>= fun value =>
    evaluateNamed args rest >>= fun values => pure ((key, value) :: values)

def parseTarget (scope : ExecScope) (target : Text) : Run (ChainWorld Rest) ExecTarget :=
  match ExecTarget.parse scope target with
  | .ok target => pure target
  | .error message => throw (.message message)

def invokeCommand (scope : ExecScope) (target : Nat) (named : List (Text × Nat))
    (args : List (ArgRun (ChainWorld Rest))) : Run (ChainWorld Rest) CommandResult :=
  evaluateString platform args target >>= fun targetId =>
  parseTarget scope targetId >>= fun target =>
  evaluateNamed args named >>= fun values =>
  ask (World.query (platform.newMap values)) >>= fun object =>
  invokeTarget classes manager host targetId object target >>=
  normalizeExecResult "invoke" targetId

def gotoResult {World : Type} (okFrom errFrom : CommandControlLevel) :
    CommandResult → Run World CommandResult
  | .success value => pure (.control (.return okFrom value))
  | .error value => pure (.control (.error errFrom value))
  | .control _ => refuse "Unexpected control result in goto target execution" []

/-- A command sees the error text of an argument. -/
def observing {Result : Type} (run : Run (ChainWorld Rest) Value)
    (next : Except Text Value → Run (ChainWorld Rest) Result) : Run (ChainWorld Rest) Result :=
  fun world =>
    let (outcome, after) := run world
    next (outcome.mapError platform.describe) after

def executeArgAt (index : Nat) : Run (ChainWorld Rest) CommandResult :=
  ((args[index]?).bind ArgRun.execute).getD (refuse "Argument is not a command substitution" [])

def LeafProgram.run (args : List (ArgRun (ChainWorld Rest))) :
    LeafProgram Rest → Run (ChainWorld Rest) CommandResult
  | .done result => fun world => (result.mapError Failure.message, world)
  | .act change next => fun world =>
    let (scopes, rest) := change world.scopes world.rest
    (next world.scopes world.rest).run args { world with scopes, rest }
  | .evaluate arg next =>
    observing platform (evaluateArgAt args arg) fun outcome => (next outcome).run args
  | .execute arg next =>
    observing platform (executeArgAt args arg) fun outcome => (next outcome).run args

/-- What the executor of a command does; blocks that it calls run with `host`. -/
def runCommand : Command Rest → List (ArgRun (ChainWorld Rest)) →
    Run (ChainWorld Rest) CommandResult
  | .leaf program, args => program.run platform args
  | .exec scope target, args =>
    evaluateString platform args target >>= fun targetId =>
    parseTarget scope targetId >>= fun target =>
    execTarget classes manager host targetId target >>= normalizeExecResult "exec" targetId
  | .invoke scope target named, args =>
    invokeCommand classes platform manager host scope target named args
  | .goto scope target named okFrom errFrom, args =>
    invokeCommand classes platform manager host scope target named args >>=
    gotoResult okFrom errFrom

def described (run : Run (ChainWorld Rest) Value) : Run (ChainWorld Rest) Value := fun world =>
  let (outcome, after) := run world
  (outcome.mapError fun failure => .message (platform.describe failure), after)

theorem neverUnlinked_described (run : Run (ChainWorld Rest) Value) :
    NeverUnlinked (described platform run) := by
  intro world failure hfail
  rw [described] at hfail
  rcases hrun : run world with ⟨outcome, after⟩
  rw [hrun] at hfail
  cases outcome with
  | ok value => cases hfail
  | error cause =>
    cases hfail
    rfl

/-- What a command does that would be called too deeply to be run. -/
abbrev Stuck (Rest : Type) :=
  Command Rest → List (ArgRun (ChainWorld Rest)) → Run (ChainWorld Rest) CommandResult

/-- The host of blocks below which at most `depth` calls are nested.  A call at the lowest
level is `stuck`, so a run that never gets there does not depend on it. -/
def hostAt (stuck : Stuck Rest) : Nat → Host (ChainWorld Rest) (Command Rest)
  | 0 => scopedHost platform (fun command args => described platform (stuck command args))
      fun _ _ _ => neverUnlinked_described platform _
  | depth + 1 =>
    scopedHost platform (fun command args => described platform
        (runCommand classes platform manager (hostAt stuck depth) command args))
      fun _ _ _ => neverUnlinked_described platform _

end Calls

end CyfsGateway.ProcessChain
