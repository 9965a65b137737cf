import CyfsGateway.ProcessChain.Calls

/-!
# The stack of execution pointers

Whatever calls whatever: each call pushes a frame before it runs a block, and no frame is
pushed on a full stack.  So calls are nested no deeper than the stack is high, a run of a
library ends, and the guards take away exactly the frames they pushed.

That a run ends is stated by its independence: with room for as many nested calls as the
stack has frames, neither more room nor what happens without room makes a difference.
-/

namespace CyfsGateway.ProcessChain

open Tables Matching Nat

variable {Rest Value : Type}

abbrev ChainCondition := Table Text CollectionValue → Prop

/-- No step of the program breaks the condition. -/
def LeafProgram.Keeps (kept : ChainCondition) : LeafProgram Rest → Prop
  | .done _ => True
  | .act change next =>
    (∀ scopes rest, kept scopes.chain → kept (change scopes rest).1.chain) ∧
      ∀ scopes rest, (next scopes rest).Keeps kept
  | .evaluate _ next => ∀ outcome, (next outcome).Keeps kept
  | .execute _ next => ∀ outcome, (next outcome).Keeps kept

/-- Only the commands that run in place are looked at here: a call starts a chain of its
own, or a block that is looked at itself. -/
def Command.Keeps (kept : ChainCondition) : Command Rest → Prop
  | .leaf program => program.Keeps kept
  | _ => True

def Block.Keeps (kept : ChainCondition) (block : Block (Command Rest)) : Prop :=
  ∀ name args command, .mk name args (some command) ∈ blockItems block → command.Keeps kept

def ProcessChainRef.Keeps (kept : ChainCondition) (chain : ProcessChainRef (Command Rest)) :
    Prop := ∀ block ∈ chain.blocks, block.Keeps kept

/-- The chain whose blocks share their variables with a block on this stack. -/
def StackKeeps (kept : ChainCondition) (stack : List (ExecPointerInner (Command Rest))) :
    Prop := ∀ chain ∈ currentChain stack, chain.Keeps kept

def anyChain : ChainCondition := fun _ => True

theorem LeafProgram.keeps_anyChain (program : LeafProgram Rest) : program.Keeps anyChain := by
  induction program with
  | done result => trivial
  | act change next ih => exact ⟨fun _ _ _ => trivial, ih⟩
  | evaluate arg next ih | execute arg next ih => exact ih

theorem ProcessChainRef.keeps_anyChain (chain : ProcessChainRef (Command Rest)) :
    chain.Keeps anyChain := by
  intro block _ name args command _
  cases command with
  | leaf program => exact program.keeps_anyChain
  | _ => trivial

theorem stackKeeps_anyChain (stack : List (ExecPointerInner (Command Rest))) :
    StackKeeps anyChain stack := fun chain _ => chain.keeps_anyChain

/-- The stack is as given, never was higher than `height` and lost no wrong frame, and the
variables of the chain satisfy a condition. -/
structure Calm (height mispops : Nat) (kept : ChainCondition)
    (stack : List (ExecPointerInner (Command Rest))) (world : ChainWorld Rest) : Prop where
  stack : world.stack = stack
  deepest : world.deepest ≤ height
  mispops : world.mispops = mispops
  chain : kept world.scopes.chain

theorem inert_calm (height mispops : Nat) (kept : ChainCondition)
    (stack : List (ExecPointerInner (Command Rest))) : Inert (Calm height mispops kept stack) :=
  ⟨fun _ _ hworld => ⟨hworld.1, hworld.2, hworld.3, hworld.4⟩,
    fun _ _ _ hworld => ⟨hworld.1, hworld.2, hworld.3, hworld.4⟩⟩

variable {height mispops : Nat} {kept : ChainCondition} {classes : CharClasses}
  {host : Host (ChainWorld Rest) (Command Rest)}

section Rules

variable {stack : List (ExecPointerInner (Command Rest))}

theorem runs_withFrame (hheight : maxStackDepth ≤ height)
    (frame : ExecPointerInner (Command Rest)) (hrun : stack.length < maxStackDepth →
      (keeping (Calm height mispops kept (frame :: stack))).Runs run other) :
    (keeping (Calm height mispops kept stack)).Runs (withFrame frame run)
      (withFrame frame other) := by
  rintro world _ ⟨rfl, hworld⟩
  rw [withFrame, withFrame, hworld.stack]
  split
  · exact ⟨rfl, fun _ _ => trivial, rfl, hworld⟩
  next hfull =>
  have hroom := Nat.lt_of_not_le hfull
  refine keeping_around (fun world hworld => ?_) (fun _ after _ hafter => ?_) (hrun hroom)
    world world ⟨rfl, hworld⟩
  · refine ⟨congrArg (frame :: ·) hworld.stack, Nat.max_le.mpr ⟨hworld.deepest, ?_⟩,
      hworld.mispops, hworld.chain⟩
    rw [hworld.stack]
    exact le_trans hroom hheight
  · refine ⟨congrArg List.tail hafter.stack, hafter.deepest, ?_, hafter.chain⟩
    refine Eq.trans ?_ hafter.mispops
    rw [World.pop, hafter.stack]
    exact if_pos rfl

theorem runs_inForkedBlock (hrun : (keeping (Calm height mispops kept stack)).Runs run other) :
    (keeping (Calm height mispops kept stack)).Runs (inForkedBlock run) (inForkedBlock other) :=
  keeping_around (fun _ hworld => ⟨hworld.1, hworld.2, hworld.3, hworld.4⟩)
    (fun _ _ _ hafter => ⟨hafter.1, hafter.2, hafter.3, hafter.4⟩) hrun

/-- What a forked chain does to its variables is not seen outside. -/
theorem runs_inForkedChain (hrun : (keeping (Calm height mispops anyChain stack)).Runs run other) :
    (keeping (Calm height mispops kept stack)).Runs (inForkedChain run) (inForkedChain other) :=
  keeping_around (fun _ hworld => ⟨hworld.1, hworld.2, hworld.3, trivial⟩)
    (fun _ _ hworld hafter => ⟨hafter.1, hafter.2, hafter.3, hworld.4⟩) hrun

theorem runs_withStack
    {next otherNext : List (ExecPointerInner (Command Rest)) → Run (ChainWorld Rest) Value}
    (hnext : (keeping (Calm height mispops kept stack)).Runs (next stack) (otherNext stack)) :
    (keeping (Calm height mispops kept stack)).Runs (withStack next) (withStack otherNext) := by
  rintro world image ⟨rfl, hworld⟩
  rw [withStack, withStack, hworld.stack]
  exact hnext world world ⟨rfl, hworld⟩

end Rules

section Search

variable {Executor : Type} {manager : LinkedManager Executor}
  {stack : List (ExecPointerInner Executor)} {result : SearchResult Executor}

theorem managed_sameChain {found}
    (hmanaged : managed manager libId found = .ok (some result)) : result.sameChain = false := by
  unfold managed at hmanaged
  split at hmanaged
  · cases hmanaged
  · cases hmanaged
    rfl
  · cases hmanaged
  · split at hmanaged <;> cases hmanaged

theorem searchManagedBlock_sameChain
    (hfind : searchManagedBlock manager libId chainId blockId = .ok (some result)) :
    result.sameChain = false := by
  unfold searchManagedBlock at hfind
  split at hfind
  · exact managed_sameChain hfind
  · cases hfind

theorem searchLibBlock_sameChain {lib chainId}
    (hfind : searchLibBlock manager lib libId chainId blockId = .ok (some result)) :
    result.sameChain = false := by
  unfold searchLibBlock at hfind
  split at hfind
  · cases hfind
  split at hfind
  · cases hfind
    rfl
  · split at hfind
    · cases hfind
    · exact searchManagedBlock_sameChain hfind

/-- A block that shares the chain's context is one of the current chain. -/
theorem searchBlock_sameChain
    (hfind : searchBlock manager stack libId chainId blockId = .ok (some result))
    (hsame : result.sameChain = true) : currentChain stack = some result.chain := by
  unfold searchBlock at hfind
  split at hfind
  · rw [searchManagedBlock_sameChain hfind] at hsame
    cases hsame
  split at hfind
  · obtain ⟨chain, hchain, hfound⟩ := Option.bind_eq_some_iff.mp (Except.ok.inj hfind)
    split at hfound
    · cases hfound
      exact hchain
    · cases hfound
  · split at hfind
    · next chain hfilter =>
      cases hfind
      exact (Option.filter_eq_some_iff.mp hfilter).1
    · rw [searchLibBlock_sameChain hfind] at hsame
      cases hsame

end Search

/-! ## Calls on a stack -/

section Calls

variable {other : Host (ChainWorld Rest) (Command Rest)} (hheight : maxStackDepth ≤ height)

/-- Blocks run alike on every stack with more than `below` frames and keep what they, and
the blocks they may call in their chain, keep. -/
def AlikeAbove (classes : CharClasses) (host other : Host (ChainWorld Rest) (Command Rest))
    (height mispops below : Nat) : Prop :=
  ∀ (kept : ChainCondition) (stack : List (ExecPointerInner (Command Rest))),
    below < stack.length → stack.length ≤ maxStackDepth → StackKeeps kept stack →
    ∀ block : Block (Command Rest), block.Keeps kept →
      (keeping (Calm height mispops kept stack)).Runs (executeBlock classes host block)
        (executeBlock classes other block)

theorem AlikeAbove.mono (hbelow : below ≤ above)
    (halike : AlikeAbove classes host other height mispops below) :
    AlikeAbove classes host other height mispops above :=
  fun kept stack habove => halike kept stack (lt_of_le_of_lt hbelow habove)

variable {stack : List (ExecPointerInner (Command Rest))}

theorem AlikeAbove.push (frame : ExecPointerInner (Command Rest))
    (halike : AlikeAbove classes host other height mispops stack.length) :
    AlikeAbove classes host other height mispops (frame :: stack).length := halike.mono (le_succ _)

theorem runs_executeBlocks {Executor : Type} {host other}
    {matching : Matching (World Executor Rest) (World Executor Rest)} {blocks}
    (hblocks : ∀ block ∈ blocks, matching.Runs (executeGuardedBlock classes host block)
      (executeGuardedBlock classes other block)) (result : CommandResult) :
    matching.Runs (executeBlocks classes host result blocks)
      (executeBlocks classes other result blocks) := by
  induction blocks generalizing result with
  | nil => exact runs_pure result
  | cons block rest ih =>
    obtain ⟨hblock, hrest⟩ := List.forall_mem_cons.mp hblocks
    refine runs_bind hblock fun found => ?_
    split
    · exact runs_ite (ih hrest _) (runs_pure _)
    · exact runs_ite (ih hrest _) (runs_pure _)
    · exact runs_pure _
    · exact runs_refuse _ _
    · exact ih hrest _

section Guards

variable (result : SearchResult (Command Rest))

include hheight

theorem runs_withLib
    (hrun : ∀ above : List (ExecPointerInner (Command Rest)), stack.length ≤ above.length →
      currentChain above = currentChain stack →
      (keeping (Calm height mispops kept above)).Runs run run') :
    (keeping (Calm height mispops kept stack)).Runs (withLib result run) (withLib result run') :=
  runs_ite (hrun stack (le_refl _) rfl) (runs_withFrame hheight _ fun _ => hrun _ (le_succ _) rfl)

theorem runs_withChain
    (hrun : ∀ above : List (ExecPointerInner (Command Rest)), stack.length ≤ above.length →
      (keeping (Calm height mispops kept above)).Runs run run') :
    (keeping (Calm height mispops kept stack)).Runs (withChain result run)
      (withChain result run') :=
  runs_ite (hrun stack (le_refl _)) (runs_withFrame hheight _ fun _ => hrun _ (le_succ _))

end Guards

theorem runs_found {Found : Type} {target : Text} {search : Except Text (Option Found)}
    {next next' : Found → Run (ChainWorld Rest) Value}
    (hnext : ∀ result, search = .ok (some result) →
      (keeping (Calm height mispops kept stack)).Runs (next result) (next' result)) :
    (keeping (Calm height mispops kept stack)).Runs (found target search >>= next)
      (found target search >>= next') := by
  intro world image hworlds
  cases search with
  | error message => exact ⟨rfl, fun _ _ => trivial, hworlds⟩
  | ok result =>
    cases result with
    | none => exact ⟨rfl, fun _ _ => trivial, hworlds⟩
    | some result => exact hnext result rfl world image hworlds

theorem runs_injectArgs (args : Nat) :
    (keeping (Calm height mispops anyChain stack)).Runs (injectArgs args) (injectArgs args) :=
  keeping_runs_self_iff.mpr (maintains_modify fun _ hworld =>
    ⟨hworld.stack, hworld.deepest, hworld.mispops, trivial⟩)

variable (halike : AlikeAbove classes host other height mispops stack.length)

include hheight halike

theorem runs_executeGuardedBlock (hstack : StackKeeps kept stack) {block}
    (hblock : block.Keeps kept) :
    (keeping (Calm height mispops kept stack)).Runs (executeGuardedBlock classes host block)
      (executeGuardedBlock classes other block) :=
  runs_withFrame hheight _ fun hroom => runs_inForkedBlock
    (halike kept (.block block.id :: stack) (lt_succ_self _) hroom hstack block hblock)

theorem runs_executeChainBlock (hstack : StackKeeps kept stack)
    (hchain : chain.Keeps kept) (blockId : Text) :
    (keeping (Calm height mispops kept stack)).Runs (executeChainBlock classes host chain blockId)
      (executeChainBlock classes other chain blockId) := by
  unfold executeChainBlock
  split
  · exact runs_refuse _ _
  · next block hfound =>
    exact runs_executeGuardedBlock hheight halike hstack
      (hchain block (List.mem_of_find?_eq_some hfound))

theorem runs_executeChain (hchain : chain.Keeps kept) :
    (keeping (Calm height mispops kept stack)).Runs (executeChain classes host chain)
      (executeChain classes other chain) := by
  refine runs_ite (runs_pure _) (runs_withFrame hheight _ fun _ => runs_executeBlocks
    (fun block hblock => runs_executeGuardedBlock hheight (halike.push _) ?_
      (hchain block hblock)) _)
  intro current hcur
  cases hcur
  exact hchain

theorem runs_executeChains (chains : List (ProcessChainRef (Command Rest)))
    (hchains : ∀ chain ∈ chains, chain.Keeps kept) :
    ∀ result, (keeping (Calm height mispops kept stack)).Runs
      (executeChains classes host result chains) (executeChains classes other result chains) := by
  induction chains with
  | nil => exact fun result => runs_pure result
  | cons chain rest ih =>
    intro result
    obtain ⟨hchain, hrest⟩ := List.forall_mem_cons.mp hchains
    exact runs_bind (runs_executeChain hheight halike hchain) fun found =>
      runs_ite (runs_pure _) (ih hrest found)

theorem runs_executeLib (hlib : ∀ chain ∈ lib.chains, chain.Keeps kept) :
    (keeping (Calm height mispops kept stack)).Runs (executeLib classes host lib)
      (executeLib classes other lib) :=
  runs_withFrame hheight _ fun _ => runs_executeChains hheight (halike.push _) lib.chains hlib _

theorem runs_executeLibChain (hlib : ∀ chain ∈ lib.chains, chain.Keeps kept) (chainId : Text) :
    (keeping (Calm height mispops kept stack)).Runs (executeLibChain classes host lib chainId)
      (executeLibChain classes other lib chainId) := by
  unfold executeLibChain
  split
  · exact runs_throw trivial
  next chain hfound =>
  have hmem : chain ∈ lib.chains := by
    unfold ProcessChainLibRef.getChain at hfound
    split at hfound
    · next found hfind =>
      cases hfound
      exact List.mem_of_find?_eq_some hfind
    · cases hfound
  exact runs_withFrame hheight _ fun _ =>
    runs_executeChain hheight (halike.push _) (hlib chain hmem)

theorem runs_execTarget (manager : LinkedManager (Command Rest))
    (hstack : StackKeeps kept stack) (targetId : Text) (target : ExecTarget) :
    (keeping (Calm height mispops kept stack)).Runs
      (execTarget classes manager host targetId target)
      (execTarget classes manager other targetId target) := by
  cases target with
  | block lib chain block =>
    refine runs_withStack (runs_found fun result hres =>
      runs_withLib hheight _ fun above habove hcur => ?_)
    cases hsame : result.sameChain with
    | true =>
      -- the block shares the variables of the chain, which is the current one
      simp only [withChain, hsame, if_true]
      have hchain := searchBlock_sameChain hres hsame
      refine runs_executeChainBlock hheight (halike.mono habove) ?_ (hstack _ hchain) block
      rw [StackKeeps, hcur]
      exact hstack
    | false =>
      simp only [withChain, hsame, Bool.false_eq_true, if_false]
      exact runs_withFrame hheight _ fun _ => runs_inForkedChain
        (runs_executeChainBlock hheight (halike.mono (le_trans habove (le_succ _)))
          (stackKeeps_anyChain _) (ProcessChainRef.keeps_anyChain _) block)
  | chain lib chain =>
    exact runs_withStack (runs_found fun result _ =>
      runs_withLib hheight _ fun above habove _ => runs_inForkedChain
        (runs_executeChain hheight (halike.mono habove) (ProcessChainRef.keeps_anyChain _)))
  | lib lib =>
    exact runs_withStack (runs_found fun result _ => runs_inForkedChain
      (runs_executeLib hheight halike fun chain _ => chain.keeps_anyChain))

theorem runs_invokeTarget (manager : LinkedManager (Command Rest))
    (targetId : Text) (args : Nat) (target : ExecTarget) :
    (keeping (Calm height mispops kept stack)).Runs
      (invokeTarget classes manager host targetId args target)
      (invokeTarget classes manager other targetId args target) := by
  cases target with
  | block lib chain block =>
    exact runs_withStack (runs_found fun result _ =>
      runs_withLib hheight _ fun above habove _ =>
        runs_ite (runs_refuse _ _) (runs_withChain hheight _ fun above' habove' =>
            runs_inForkedChain (runs_bind (runs_injectArgs args) fun _ =>
              runs_executeChainBlock hheight (halike.mono (le_trans habove habove'))
                (stackKeeps_anyChain _) (ProcessChainRef.keeps_anyChain _) block)))
  | chain lib chain =>
    exact runs_withStack (runs_found fun result _ =>
      runs_withLib hheight _ fun above habove _ =>
        runs_inForkedChain (runs_bind (runs_injectArgs args) fun _ =>
          runs_executeChain hheight (halike.mono habove) (ProcessChainRef.keeps_anyChain _)))
  | lib lib =>
    exact runs_withStack (runs_found fun result _ =>
      runs_inForkedChain (runs_bind (runs_injectArgs args) fun _ =>
        runs_executeLib hheight halike fun chain _ => chain.keeps_anyChain))

end Calls

/-! ## Commands -/

section Commands

variable {platform : Platform Rest} {Holds : ChainWorld Rest → Prop}
  {args others : List (ArgRun (ChainWorld Rest))} {other : Run (ChainWorld Rest) Value}

theorem runs_observing {next next' : Except Text Value → Run (ChainWorld Rest) Next}
    (hrun : (keeping Holds).Runs run other)
    (hnext : ∀ outcome, (keeping Holds).Runs (next outcome) (next' outcome)) :
    (keeping Holds).Runs (observing platform run next) (observing platform other next') := by
  intro world image hworlds
  obtain ⟨outcome, after, behind, hfirst, hsnd, -, hafter⟩ := hrun.ends hworlds
  rw [observing, observing, hfirst, hsnd]
  exact hnext _ after behind hafter

section Arguments

variable (hargs : List.Forall₂ (keeping Holds).Args args others)

include hargs

theorem runs_evaluateArgAt (index : Nat) : (keeping Holds).Runs (evaluateArgAt args index)
      (evaluateArgAt others index) := by
  induction hargs generalizing index with
  | nil => exact runs_refuse _ _
  | cons hfirst _ ih =>
    cases index with
    | zero => exact hfirst.evaluate
    | succ index => exact ih index

theorem runs_executeArgAt (index : Nat) : (keeping Holds).Runs (executeArgAt args index)
      (executeArgAt others index) := by
  induction hargs generalizing index with
  | nil => exact runs_refuse _ _
  | @cons first second _ _ hfirst _ ih =>
    cases index with
    | succ index => exact ih index
    | zero =>
      obtain ⟨evaluate, execute⟩ := first
      obtain ⟨evaluate', execute'⟩ := second
      cases hfirst.execute with
      | none => exact runs_refuse _ _
      | some hrun => exact hrun

theorem runs_evaluateString (index : Nat) :
    (keeping Holds).Runs (evaluateString platform args index)
      (evaluateString platform others index) := by
  refine runs_bind (runs_evaluateArgAt hargs index) fun value => ?_
  split
  · exact runs_pure _
  · exact runs_throw trivial

theorem runs_evaluateNamed (named : List (Text × Nat)) :
    (keeping Holds).Runs (evaluateNamed args named) (evaluateNamed others named) := by
  induction named with
  | nil => exact runs_pure _
  | cons first rest ih =>
    exact runs_bind (runs_evaluateArgAt hargs first.2) fun value =>
      runs_bind ih fun values => runs_pure _

end Arguments

theorem runs_parseTarget (scope : ExecScope) (target : Text) :
    (keeping Holds).Runs (parseTarget scope target) (parseTarget scope target) := by
  unfold parseTarget
  split
  · exact runs_pure _
  · exact runs_throw trivial

theorem runs_normalizeExecResult (command : String) (target : Text) (result : CommandResult) :
    (keeping Holds).Runs (normalizeExecResult command target result)
      (normalizeExecResult command target result) := by
  unfold normalizeExecResult
  split
  · exact runs_pure _
  · exact runs_pure _
  · exact runs_refuse _ _
  · exact runs_refuse _ _
  · exact runs_pure _

theorem runs_gotoResult (okFrom errFrom : CommandControlLevel) (result : CommandResult) :
    (keeping Holds).Runs (gotoResult okFrom errFrom result) (gotoResult okFrom errFrom result) := by
  unfold gotoResult
  split
  · exact runs_pure _
  · exact runs_pure _
  · exact runs_refuse _ _

theorem runs_described (hrun : (keeping Holds).Runs run other) :
    (keeping Holds).Runs (described platform run) (described platform other) := by
  intro world image hworlds
  obtain ⟨hsame, _, hafter⟩ := hrun world image hworlds
  have hdescribed := congrArg
    (Except.mapError fun failure => Failure.message (platform.describe failure)) hsame
  exact ⟨hdescribed, fun _ _ => trivial, hafter⟩

section Executors

variable {stack : List (ExecPointerInner (Command Rest))}
  (hargs : List.Forall₂ (keeping (Calm height mispops kept stack)).Args args others)

include hargs

theorem runs_leaf (program : LeafProgram Rest) (hprog : program.Keeps kept) :
    (keeping (Calm height mispops kept stack)).Runs (program.run platform args)
      (program.run platform others) := by
  induction program with
  | done result =>
    rintro world _ ⟨rfl, hworld⟩
    exact ⟨rfl, fun _ _ => trivial, rfl, hworld⟩
  | act change next ih =>
    rintro world _ ⟨rfl, hworld⟩
    exact ih world.scopes world.rest (hprog.2 _ _) _ _ ⟨rfl, hworld.stack, hworld.deepest,
      hworld.mispops, hprog.1 _ _ hworld.chain⟩
  | evaluate arg next ih =>
    exact runs_observing (runs_evaluateArgAt hargs arg) fun outcome => ih _ (hprog outcome)
  | execute arg next ih =>
    exact runs_observing (runs_executeArgAt hargs arg) fun outcome => ih _ (hprog outcome)

variable {other : Host (ChainWorld Rest) (Command Rest)} (hheight : maxStackDepth ≤ height)
  (manager : LinkedManager (Command Rest))
  (halike : AlikeAbove classes host other height mispops stack.length)

include hheight halike

theorem runs_invokeCommand (scope : ExecScope) (target : Nat) (named : List (Text × Nat)) :
    (keeping (Calm height mispops kept stack)).Runs
      (invokeCommand classes platform manager host scope target named args)
      (invokeCommand classes platform manager other scope target named others) :=
  runs_bind (runs_evaluateString hargs target) fun targetId =>
    runs_bind (runs_parseTarget scope targetId) fun target =>
    runs_bind (runs_evaluateNamed hargs named) fun _ =>
    runs_bind (runs_ask (keeping_query (inert_calm height mispops kept stack).rest _)) fun object =>
    runs_bind (runs_invokeTarget hheight halike manager targetId object target)
      (runs_normalizeExecResult "invoke" targetId)

/-- A command runs alike if blocks do on higher stacks. -/
theorem runs_runCommand (hstack : StackKeeps kept stack) (command : Command Rest)
    (hcommand : command.Keeps kept) :
    (keeping (Calm height mispops kept stack)).Runs
      (runCommand classes platform manager host command args)
      (runCommand classes platform manager other command others) := by
  cases command with
  | leaf program => exact runs_leaf hargs program hcommand
  | exec scope target =>
    exact runs_bind (runs_evaluateString hargs target) fun targetId =>
      runs_bind (runs_parseTarget scope targetId) fun target =>
      runs_bind (runs_execTarget hheight halike manager hstack targetId target)
        (runs_normalizeExecResult "exec" targetId)
  | invoke scope target named =>
    exact runs_invokeCommand hargs hheight manager halike scope target named
  | goto scope target named okFrom errFrom =>
    exact runs_bind (runs_invokeCommand hargs hheight manager halike scope target named)
      (runs_gotoResult okFrom errFrom)

end Executors

end Commands

section Runs

variable (classes : CharClasses) (platform : Platform Rest) (manager : LinkedManager (Command Rest))
  (mispops : Nat)

/-- With a call to spare for each frame that fits on the stack, blocks run alike however
many more there are.  By induction on the calls: a command pushes a frame before it runs a
block with one call less. -/
theorem alikeAbove_hostAt (hheight : maxStackDepth ≤ height) (stuck stuck' : Stuck Rest)
    (depth : Nat) :
    ∀ (depth' below : Nat), maxStackDepth ≤ depth + below → maxStackDepth ≤ depth' + below →
      AlikeAbove classes (hostAt classes platform manager stuck depth)
        (hostAt classes platform manager stuck' depth') height mispops below := by
  induction depth with
  | zero =>
    intro depth' below hdepth _ kept stack hbelow hstack
    omega
  | succ depth ih =>
    intro depth' below hdepth hdepth' kept stack hbelow hheight' hstack block hblock
    cases depth' with
    | zero => omega
    | succ depth' =>
      have halike := ih depth' stack.length (by omega) (by omega)
      refine runs_executeBlock
        (keeping_hosts platform _ _ (inert_calm height mispops kept stack)) fun item hitem => ?_
      refine ⟨fun _ _ => trivial, ?_⟩
      rintro name args command rfl hargs
      exact runs_described (runs_runCommand hargs hheight manager halike hstack command
        (hblock name args command hitem))

inductive EntryPoint (Rest : Type) where
  | executeLib (lib : ProcessChainLibRef (Command Rest))
  | executeLibChain (lib : ProcessChainLibRef (Command Rest)) (chainId : Text)
  | executeChain (chain : ProcessChainRef (Command Rest))

def EntryPoint.run (host : Host (ChainWorld Rest) (Command Rest)) :
    EntryPoint Rest → Run (ChainWorld Rest) CommandResult
  | .executeLib lib => ProcessChain.executeLib classes host lib
  | .executeLibChain lib chainId => ProcessChain.executeLibChain classes host lib chainId
  | .executeChain chain => ProcessChain.executeChain classes host chain

/-- Every run ends, with a result or an error: with at least as many nested calls as the
stack has frames, neither their number nor what a call beyond them would do makes a
difference.  The stack is then what it was, no frame of a wrong kind was popped and there
never were more frames on it than allowed. -/
theorem run_ends_with_its_stack (entry : EntryPoint Rest) (world : ChainWorld Rest) :
    ∃ outcome after, (∀ stuck depth, maxStackDepth ≤ depth →
        entry.run classes (hostAt classes platform manager stuck depth) world = (outcome, after)) ∧
      after.stack = world.stack ∧ after.mispops = world.mispops ∧
      after.deepest ≤ max world.deepest maxStackDepth := by
  have hruns : ∀ stuck stuck' depth depth', maxStackDepth ≤ depth → maxStackDepth ≤ depth' →
      (keeping (Calm (max world.deepest maxStackDepth) world.mispops anyChain world.stack)).Runs
        (entry.run classes (hostAt classes platform manager stuck depth))
        (entry.run classes (hostAt classes platform manager stuck' depth')) := by
    intro stuck stuck' depth depth' hdepth hdepth'
    have hheight : maxStackDepth ≤ max world.deepest maxStackDepth := le_max_right _ _
    have halike := alikeAbove_hostAt classes platform manager world.mispops hheight stuck stuck'
      depth depth' world.stack.length (le_add_right_of_le hdepth)
      (le_add_right_of_le hdepth')
    cases entry with
    | executeLib lib => exact runs_executeLib hheight halike fun chain _ => chain.keeps_anyChain
    | executeLibChain lib chainId =>
      exact runs_executeLibChain hheight halike (fun chain _ => chain.keeps_anyChain) chainId
    | executeChain chain => exact runs_executeChain hheight halike chain.keeps_anyChain
  have hcalm : Calm (max world.deepest maxStackDepth) world.mispops anyChain world.stack world :=
    ⟨rfl, le_max_left _ _, rfl, trivial⟩
  -- any host will do to say what the outcome is
  let least := hostAt classes platform manager (fun _ _ => refuse "" []) maxStackDepth
  refine ⟨(entry.run classes least world).1, (entry.run classes least world).2,
    fun stuck depth hdepth => ?_, ?_⟩
  · obtain ⟨hsame, _, hafter, _⟩ := hruns stuck _ depth maxStackDepth hdepth (le_refl _)
      world world ⟨rfl, hcalm⟩
    exact Prod.ext hsame hafter
  · obtain ⟨_, _, _, hend⟩ := hruns _ (fun _ _ => refuse "" []) maxStackDepth maxStackDepth
      (le_refl _) (le_refl _) world world ⟨rfl, hcalm⟩
    exact ⟨hend.stack, hend.mispops, hend.deepest⟩

end Runs

end CyfsGateway.ProcessChain
