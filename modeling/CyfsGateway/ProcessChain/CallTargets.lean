import CyfsGateway.ProcessChain.Calls

/-!
# The targets of calls

What the help of `exec` says that a target means, and when that is what a call runs.  A
`chain:block` without a library is the exception: if the chain of the current library
lacks the block, the search goes on in all libraries.
-/

namespace CyfsGateway.ProcessChain.CallTargets

/-! ## What a call comes to -/

section Resolutions

variable {Rest : Type}

inductive Place (Rest : Type) where
  | block (result : SearchResult (Command Rest)) (block : Text)
  | chain (result : SearchResult (Command Rest))
  | lib (lib : ProcessChainLibRef (Command Rest))

/-- What becomes of a call: it runs a place, fails with an error, or panics. -/
inductive Resolution (Rest : Type) where
  | runs (place : Place Rest)
  | fails
  | panics

def panicTexts : List Text := [unwrapPanic.toList, assertPanic.toList]

variable (manager : LinkedManager (Command Rest)) (stack : List (ExecPointerInner (Command Rest)))

variable (classes : CharClasses) (host : Host (ChainWorld Rest) (Command Rest)) (args : Nat)

/-- A run comes to a resolution.  One that fails or panics leaves the world as it is; the
two differ in their text only, a panic having one of those of `unwrap` and `assert!`. -/
def ComesTo (execute : Place Rest → Run (ChainWorld Rest) CommandResult)
    (run : Run (ChainWorld Rest) CommandResult) (world : ChainWorld Rest) :
    Resolution Rest → Prop
  | .runs place => run world = execute place world
  | .fails => ∃ message, message ∉ panicTexts ∧ run world = (.error (.message message), world)
  | .panics => ∃ message ∈ panicTexts, run world = (.error (.message message), world)

end Resolutions

/-! ## What a target means -/

section Targets

variable {Rest : Type} (manager : LinkedManager (Command Rest))
  (lib : ProcessChainLibRef (Command Rest)) (chain : ProcessChainRef (Command Rest))

variable {manager lib chain} {stack : List (ExecPointerInner (Command Rest))}
  (hlib : currentLib stack = some lib) (hchain : currentChain stack = some chain)
  (hmember : lib.getChain chain.id = .ok chain)
include hlib

include hchain hmember

end Targets

end CyfsGateway.ProcessChain.CallTargets
