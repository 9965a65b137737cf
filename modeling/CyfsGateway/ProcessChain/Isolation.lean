import CyfsGateway.ProcessChain.StackSafety

/-!
# Isolation of variables

Which variables of one part of a library another part can see.  Blocks do not see the
block variables of others, and a chain or library that is called does not see the chain
variables of the caller.  The chains of a library, however, run in one context: each sees
the chain variables that the chains before it left.
-/

namespace CyfsGateway.ProcessChain

open Tables Matching Scopes CharClasses

variable {Rest Value : Type}

section Apart

variable {Executor : Type}

/-- The worlds differ at most in the variables that `reset` takes away: they are the same
once both are reset. -/
def SameUpTo (reset : Scopes → Scopes) (world other : World Executor Rest) : Prop :=
  { world with scopes := reset world.scopes } = { other with scopes := reset other.scopes }

variable {world other : World Executor Rest}

theorem sameUpTo_iff {reset} :
    SameUpTo reset world other ↔ reset world.scopes = reset other.scopes ∧
      world.stack = other.stack ∧ world.deepest = other.deepest ∧
      world.mispops = other.mispops ∧ world.rest = other.rest := by rw [SameUpTo, World.mk.injEq]

theorem sameUpTo_forkBlock_iff :
    SameUpTo forkBlock world other ↔
      SameUpTo forkChain world other ∧ world.scopes.chain = other.scopes.chain := by
  simp only [sameUpTo_iff, forkBlock, forkChain, Scopes.mk.injEq]
  grind

/-- Runs from worlds that differ in such variables. -/
def apart (reset : Scopes → Scopes) : Matching (World Executor Rest) (World Executor Rest) where
  worlds := SameUpTo reset
  fine _ := True
  fine_message _ := trivial
  fine_result _ := trivial
  fine_wrapped _ _ _ _ _ _ _ := trivial
  fine_both _ _ _ _ := trivial

variable {reset : Scopes → Scopes} {run other : Run (World Executor Rest) Value}

theorem apart_runs_iff : (apart reset).Runs run other ↔
    ∀ world image, SameUpTo reset world image →
      (run world).1 = (other image).1 ∧ SameUpTo reset (run world).2 (other image).2 := by
  simp [Runs, apart]

theorem apart_withFrame (frame : ExecPointerInner Executor) (hrun : (apart reset).Runs run other) :
    (apart reset).Runs (withFrame frame run) (withFrame frame other) := by
  intro world image hworlds
  have ⟨_, hstack, _⟩ := sameUpTo_iff.mp hworlds
  rw [withFrame, withFrame, hstack]
  split
  · exact ⟨rfl, fun _ _ => trivial, hworlds⟩
  refine runs_around (fun world image hworlds => ?_)
    (fun _ _ after after' _ hafter => ?_) hrun (fun _ hfine => hfine) world image hworlds
  · obtain ⟨hscopes, hstack, hdeepest, hmispops, hrest⟩ := sameUpTo_iff.mp hworlds
    refine sameUpTo_iff.mpr ⟨hscopes, congrArg (frame :: ·) hstack, ?_, hmispops, hrest⟩
    simp only [World.push, hstack, hdeepest]
  · obtain ⟨hscopes, hstack, hdeepest, hmispops, hrest⟩ := sameUpTo_iff.mp hafter
    refine sameUpTo_iff.mpr ⟨hscopes, congrArg List.tail hstack, hdeepest, ?_, hrest⟩
    simp only [World.pop, hstack, hmispops]

/-- A computation behind a fork does not see what the fork takes away. -/
theorem apart_around (hleave : ∀ world after, SameUpTo reset (leave world after) after)
    (run : Run (World Executor Rest) Value) :
    (apart reset).Runs (around (fun world => { world with scopes := reset world.scopes }) leave run)
      (around (fun world => { world with scopes := reset world.scopes }) leave run) := by
  refine apart_runs_iff.mpr fun world image hworlds => ?_
  have hforked : { world with scopes := reset world.scopes } =
      { image with scopes := reset image.scopes } := hworlds
  rw [around, around, hforked]
  exact ⟨rfl, (hleave _ _).trans (hleave _ _).symm⟩

theorem apart_inForkedChain (run : Run (World Executor Rest) Value) :
    (apart forkChain).Runs (inForkedChain run) (inForkedChain run) :=
  apart_around (fun _ _ => rfl) run

end Apart

section Blocks

variable {Executor : Type} (classes : CharClasses) (host : Host (World Executor Rest) Executor)

theorem apart_executeGuardedBlock (block : Block Executor) :
    (apart forkBlock).Runs (executeGuardedBlock classes host block)
      (executeGuardedBlock classes host block) := 
  apart_withFrame _ (apart_around (fun _ _ => rfl) _)

/-- A chain does not see the block variables of the context it is started in. -/
theorem apart_executeChain (chain : ProcessChainRef Executor) :
    (apart forkBlock).Runs (executeChain classes host chain) (executeChain classes host chain) :=
  runs_ite (runs_pure _) (apart_withFrame _ (runs_executeBlocks
      (fun block _ => apart_executeGuardedBlock classes host block) _))

theorem block_executeGuardedBlock (block : Block Executor) (world : World Executor Rest) :
    (executeGuardedBlock classes host block world).2.scopes.block = world.scopes.block ∧
      (executeGuardedBlock classes host block world).2.scopes.varLevelTracker =
        world.scopes.varLevelTracker := by
  rw [executeGuardedBlock, withFrame]
  split
  · exact ⟨rfl, rfl⟩
  · exact ⟨rfl, rfl⟩

end Blocks

section Calls

variable (classes : CharClasses) (manager : LinkedManager (Command Rest))
  (host : Host (ChainWorld Rest) (Command Rest))

theorem apart_withStack {reset : Scopes → Scopes}
    {next : List (ExecPointerInner (Command Rest)) → Run (ChainWorld Rest) Value}
    (hnext : ∀ stack, (apart reset).Runs (next stack) (next stack)) :
    (apart reset).Runs (withStack next) (withStack next) := by
  intro world image hworlds
  have ⟨_, hstack, _⟩ := sameUpTo_iff.mp hworlds
  rw [withStack, withStack, hstack]
  exact hnext _ world image hworlds

theorem apart_found {reset} {Found : Type} (target : Text) (search : Except Text (Option Found)) :
    (apart reset : Matching (ChainWorld Rest) _).Runs (found target search)
      (found target search) := by
  unfold found
  split
  · exact runs_throw trivial
  · exact runs_refuse _ _
  · exact runs_pure _

section Guards

variable {reset : Scopes → Scopes} (result : SearchResult (Command Rest))
  {run : Run (ChainWorld Rest) Value} (hrun : (apart reset).Runs run run)

include hrun

theorem apart_withLib : (apart reset).Runs (withLib result run) (withLib result run) :=
  runs_ite hrun (apart_withFrame _ hrun)

theorem apart_withChain : (apart reset).Runs (withChain result run) (withChain result run) :=
  runs_ite hrun (apart_withFrame _ hrun)

end Guards

/-- A chain run through `exec --chain` does not see the variables of its caller. -/
theorem apart_execTarget_chain (targetId : Text) (lib : Option Text) (chain : Text) :
    (apart forkChain).Runs (execTarget classes manager host targetId (.chain lib chain))
      (execTarget classes manager host targetId (.chain lib chain)) :=
  apart_withStack fun _ => runs_bind (apart_found _ _) fun _ =>
    apart_withLib _ (apart_inForkedChain _)

/-- Nothing run through `invoke` or `goto` does. -/
theorem apart_invokeTarget (targetId : Text) (args : Nat) (target : ExecTarget) :
    (apart forkChain).Runs (invokeTarget classes manager host targetId args target)
      (invokeTarget classes manager host targetId args target) := by
  cases target with
  | block lib chain block =>
    exact apart_withStack fun _ => runs_bind (apart_found _ _) fun _ =>
      apart_withLib _ (runs_ite (runs_refuse _ _) (apart_withChain _ (apart_inForkedChain _)))
  | chain lib chain =>
    exact apart_withStack fun _ => runs_bind (apart_found _ _) fun _ =>
      apart_withLib _ (apart_inForkedChain _)
  | lib lib =>
    exact apart_withStack fun _ => runs_bind (apart_found _ _) fun _ => apart_inForkedChain _

end Calls

/-! ## Chains of one library -/

/-- No command in the blocks of the chain writes a chain variable. -/
def ProcessChainRef.WritesNoChainVariable (chain : ProcessChainRef (Command Rest)) : Prop :=
  ∀ values, chain.Keeps fun chain => chain = values

/-- A block that tells whether the chain variables are the given ones. -/
def tellingBlock (values : Table Text CollectionValue) : Block (Command Rest) :=
  ⟨[], [.mk [] [.expressions [(none, .command (.mk [] [] (some (.leaf
    (.act (fun scopes rest => (scopes, rest)) fun scopes _ => .done (.ok
      (.success (.bool (decide (scopes.chain = values))))))))), none)]]]⟩

section Chains

variable (classes : CharClasses) (platform : Platform Rest)
  (manager : LinkedManager (Command Rest)) (stuck : Stuck Rest) (depth : Nat)

theorem executeGuardedBlock_tellingBlock (values : Table Text CollectionValue) {world}
    (hroom : world.stack.length < maxStackDepth) :
    ∃ after, executeGuardedBlock classes (hostAt classes platform manager stuck (depth + 1))
        (tellingBlock values) world =
      (.ok (.success (.bool (decide (world.scopes.chain = values)))), after) := by
  rw [executeGuardedBlock, withFrame, if_neg (Nat.not_le_of_lt hroom)]
  exact ⟨_, rfl⟩

theorem executeChain_tellingBlock (values : Table Text CollectionValue) {world}
    (hroom : world.stack.length + 1 < maxStackDepth) :
    (executeChain classes (hostAt classes platform manager stuck (depth + 1))
        ⟨[], [tellingBlock values]⟩ world).1 =
      .ok (.success (.bool (decide (world.scopes.chain = values)))) := by
  let pushed : ChainWorld Rest := world.push (.chain ⟨[], [tellingBlock values]⟩)
  have hpushed : pushed.stack.length < maxStackDepth := hroom
  obtain ⟨after, hblock⟩ :=
    executeGuardedBlock_tellingBlock classes platform manager stuck depth values hpushed
  have hrun : executeBlocks classes (hostAt classes platform manager stuck (depth + 1)) .empty
      [tellingBlock values] pushed =
        (.ok (.success (.bool (decide (world.scopes.chain = values)))), after) := by
    rw [executeBlocks, OperatorChains.bind_apply, hblock]
    rfl
  change (withFrame _ (executeBlocks classes _ .empty [tellingBlock values]) world).1 = _
  rw [withFrame, if_neg (Nat.not_le_of_lt (Nat.lt_of_succ_lt hroom)), around, hrun]

theorem chain_executeChains {depth} (hdepth : maxStackDepth ≤ depth)
    (chains : List (ProcessChainRef (Command Rest)))
    (hchains : ∀ chain ∈ chains, chain.WritesNoChainVariable) (result : CommandResult)
    (world : ChainWorld Rest) :
    (executeChains classes (hostAt classes platform manager stuck depth) result chains
      world).2.scopes.chain = world.scopes.chain := by
  have halike := alikeAbove_hostAt classes platform manager world.mispops
    (Nat.le_max_right world.deepest maxStackDepth) stuck stuck depth depth world.stack.length
    (Nat.le_add_right_of_le hdepth) (Nat.le_add_right_of_le hdepth)
  have hruns := runs_executeChains (Nat.le_max_right world.deepest maxStackDepth) halike chains
    (fun chain hchain => hchains chain hchain world.scopes.chain) result
  have hcalm : Calm (max world.deepest maxStackDepth) world.mispops
      (fun chain => chain = world.scopes.chain) world.stack world :=
    ⟨rfl, Nat.le_max_left _ _, rfl, rfl⟩
  exact (keeping_runs_self_iff.mp hruns world hcalm).chain

/-- Two runs that enter a chain with different chain variables, and nothing else that is
different but block variables, can be told apart by some chain; with equal ones they
cannot.  If the chains before it write no chain variable, the chain variables are equal.
Block variables are of no account, and a chain called by `exec --chain` or anything called
by `invoke` or `goto` does not see the chain variables of the caller. -/
theorem variables_isolated {depth : Nat} (hdepth : maxStackDepth ≤ depth) :
    let host := hostAt classes platform manager stuck depth
    (∀ world other : ChainWorld Rest, SameUpTo forkChain world other →
      world.stack.length + 1 < maxStackDepth →
      ((∀ chain, (executeChain classes host chain world).1 =
          (executeChain classes host chain other).1) ↔
        world.scopes.chain = other.scopes.chain)) ∧
    (∀ (before before' : List (ProcessChainRef (Command Rest))) (world : ChainWorld Rest),
      (∀ chain ∈ before ++ before', chain.WritesNoChainVariable) →
      let entered := (executeChains classes host .empty before world).2
      let entered' := (executeChains classes host .empty before' world).2
      SameUpTo forkChain entered entered' → ∀ chain, (executeChain classes host chain entered).1 =
            (executeChain classes host chain entered').1 ∧
          SameUpTo forkBlock (executeChain classes host chain entered).2
            (executeChain classes host chain entered').2) ∧
    (∀ (block : Block (Command Rest)) (world other : ChainWorld Rest),
      SameUpTo forkBlock world other →
      (executeGuardedBlock classes host block world).1 =
          (executeGuardedBlock classes host block other).1 ∧
        SameUpTo forkBlock (executeGuardedBlock classes host block world).2
          (executeGuardedBlock classes host block other).2 ∧
        (executeGuardedBlock classes host block world).2.scopes.block = world.scopes.block) ∧
    ∀ (targetId : Text) (world other : ChainWorld Rest), SameUpTo forkChain world other →
      (∀ lib chain, (execTarget classes manager host targetId (.chain lib chain) world).1 =
            (execTarget classes manager host targetId (.chain lib chain) other).1 ∧
          SameUpTo forkChain (execTarget classes manager host targetId (.chain lib chain) world).2
            (execTarget classes manager host targetId (.chain lib chain) other).2) ∧
      ∀ args target, (invokeTarget classes manager host targetId args target world).1 =
            (invokeTarget classes manager host targetId args target other).1 ∧
          SameUpTo forkChain (invokeTarget classes manager host targetId args target world).2
            (invokeTarget classes manager host targetId args target other).2 := by
  intro host
  have halike : ∀ {world other : ChainWorld Rest}, SameUpTo forkChain world other →
      world.scopes.chain = other.scopes.chain → ∀ chain,
      (executeChain classes host chain world).1 = (executeChain classes host chain other).1 ∧
        SameUpTo forkBlock (executeChain classes host chain world).2
          (executeChain classes host chain other).2 := by
    intro world other hsame hchain chain
    exact apart_runs_iff.mp (apart_executeChain classes host chain) world other
      (sameUpTo_forkBlock_iff.mpr ⟨hsame, hchain⟩)
  refine ⟨fun world other hsame hroom => ⟨fun hall => ?_, fun hchain chain => ?_⟩, ?_, ?_, ?_⟩
  · -- the chain that compares them with the variables of the first world
    obtain ⟨depth, rfl⟩ : ∃ fewer, depth = fewer + 1 :=
      Nat.exists_eq_add_one.mpr (Nat.lt_of_lt_of_le (by decide) hdepth)
    have hother : other.stack.length + 1 < maxStackDepth := by
      rw [← (sameUpTo_iff.mp hsame).2.1]
      exact hroom
    have htold := hall ⟨[], [tellingBlock world.scopes.chain]⟩
    rw [executeChain_tellingBlock classes platform manager stuck depth _ hroom,
      executeChain_tellingBlock classes platform manager stuck depth _ hother] at htold
    have hchain : other.scopes.chain = world.scopes.chain := by simpa using htold.symm
    exact hchain.symm
  · exact (halike hsame hchain chain).1
  · intro before before' world hquiet entered entered' hsame
    obtain ⟨hbefore, hbefore'⟩ := List.forall_mem_append.mp hquiet
    refine halike hsame ?_
    calc entered.scopes.chain
      _ = world.scopes.chain :=
        chain_executeChains classes platform manager stuck hdepth before hbefore .empty world
      _ = entered'.scopes.chain :=
        (chain_executeChains classes platform manager stuck hdepth before' hbefore' .empty
          world).symm
  · intro block world other hsame
    obtain ⟨hout, hafter⟩ :=
      apart_runs_iff.mp (apart_executeGuardedBlock classes host block) world other hsame
    exact ⟨hout, hafter, (block_executeGuardedBlock classes host block world).1⟩
  · intro targetId world other hsame
    constructor
    · intro lib chain
      exact apart_runs_iff.mp (apart_execTarget_chain classes manager host targetId lib chain)
        world other hsame
    · intro args target
      exact apart_runs_iff.mp (apart_invokeTarget classes manager host targetId args target)
        world other hsame

end Chains

/-! ## A variable that one chain leaves to the next -/

def commandLine (args : List (CommandArg (Command Rest))) (program : LeafProgram Rest) :
    Line (Command Rest) :=
  .mk [] [.expressions [(none, .command (.mk [] args (some (.leaf program))), none)]]

def assigning (kind : EnvLevel) (key : Text) (value : CollectionValue) : LeafProgram Rest :=
  .act (fun scopes rest => (scopes.set key value (some kind), rest)) fun _ _ =>
    .done (.ok (.success value))

def returning : LeafProgram Rest :=
  .evaluate 0 fun outcome => .done (outcome.map CommandResult.success)

/-- A chain that assigns `x` and then ends with an empty result. -/
def assigningChain (kind : EnvLevel) (value : Text) : ProcessChainRef (Command Unit) :=
  ⟨"first".toList, [⟨"main".toList, [commandLine [] (assigning kind ['x'] (.string value)),
    commandLine [] (.done (.ok .empty))]⟩]⟩

def readingChain : ProcessChainRef (Command Unit) :=
  ⟨"second".toList, [⟨"main".toList, [commandLine [.var ['x']] returning]⟩]⟩

def startWorld : ChainWorld Unit := ⟨⟨[], [], [], [], []⟩, [], 0, 0, ()⟩

def aloneHost : Host (ChainWorld Unit) (Command Unit) :=
  hostAt ascii twoItems ⟨[], true⟩ (fun _ _ => refuse "" []) maxStackDepth

theorem writesNoChainVariable_assigningChain (value : Text) :
    (assigningChain .block value).WritesNoChainVariable := by
  intro values block hblock name args command hcommand
  cases List.mem_singleton.mp hblock
  have hitems : blockItems ⟨"main".toList, [commandLine []
      (assigning .block ['x'] (.string value) : LeafProgram Unit),
      commandLine [] (.done (.ok .empty))]⟩ =
      [.mk [] [] (some (.leaf (assigning .block ['x'] (.string value)))),
        .mk [] [] (some (.leaf (.done (.ok .empty))))] := rfl
  rcases List.mem_cons.mp hcommand with hfirst | hsnd
  · cases hfirst
    refine ⟨fun scopes rest hchain => ?_, fun _ _ => trivial⟩
    obtain ⟨tracker, hset⟩ := set_block ['x'] (.string value) scopes
    simp only [hset]
    exact hchain
  · cases List.mem_singleton.mp hsnd
    trivial

theorem executeChains_assigningChain_block (value : Text) :
    (executeChains ascii aloneHost .empty [assigningChain .block value]
      startWorld).2 = ⟨⟨[], [], [], [], []⟩, [], 2, 0, ()⟩ := rfl

/-- What the one chain assigns in its block scope, the other does not see. -/
theorem variables_isolated_block : (executeChain ascii aloneHost readingChain
        (executeChains ascii aloneHost .empty [assigningChain .block ['1']] startWorld).2).1 =
      (executeChain ascii aloneHost readingChain
        (executeChains ascii aloneHost .empty [assigningChain .block ['2']] startWorld).2).1 := by
  obtain ⟨_, hchains, _⟩ := variables_isolated ascii twoItems ⟨[], true⟩
    (fun _ _ => refuse "" []) (Nat.le_refl maxStackDepth)
  refine (hchains [assigningChain .block ['1']] [assigningChain .block ['2']] startWorld
    (fun chain hchain => ?_) ?_ readingChain).1
  · rcases List.mem_cons.mp hchain with rfl | hchain
    · exact writesNoChainVariable_assigningChain _
    · cases List.mem_singleton.mp hchain
      exact writesNoChainVariable_assigningChain _
  · change SameUpTo forkChain (executeChains ascii aloneHost .empty [assigningChain .block ['1']]
        startWorld).2
      (executeChains ascii aloneHost .empty [assigningChain .block ['2']] startWorld).2
    rw [executeChains_assigningChain_block, executeChains_assigningChain_block]
    rfl

theorem executeChain_assigningChain_chain (value : Text) :
    executeChain ascii aloneHost (assigningChain .chain value) startWorld =
      (.ok (.success (.string [])),
        ⟨⟨[], [], [(['x'], .string value)], [], []⟩, [], 2, 0, ()⟩) := rfl

/-- Two runs of a library whose first chain assigns `x` in the chain scope, with the same
result and nothing else that is different: the second chain reads the one value or the
other. -/
theorem chain_variable_leaks :
    (executeChain ascii aloneHost (assigningChain .chain ['1']) startWorld).1 =
      (executeChain ascii aloneHost (assigningChain .chain ['2']) startWorld).1 ∧
    SameUpTo forkChain (executeChain ascii aloneHost (assigningChain .chain ['1']) startWorld).2
      (executeChain ascii aloneHost (assigningChain .chain ['2']) startWorld).2 ∧
    (executeLib ascii aloneHost ⟨[], [assigningChain .chain ['1'], readingChain]⟩ startWorld).1 =
        .ok (.success (.string ['1'])) ∧
    (executeLib ascii aloneHost ⟨[], [assigningChain .chain ['2'], readingChain]⟩ startWorld).1 =
        .ok (.success (.string ['2'])) := by
  rw [executeChain_assigningChain_chain, executeChain_assigningChain_chain]
  refine ⟨rfl, rfl, ?_, ?_⟩
  · decide +kernel
  · decide +kernel

end CyfsGateway.ProcessChain
