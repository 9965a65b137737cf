import CyfsGateway.Bns.Contents

/-!
# Cells of the contract's state

The state an observer of the contract can ask for, cut into cells: a name, the
slots of its live lineage, its documents, the latest checkpoint.  Every effect
changes few cells and leaves all others as they were.
-/

namespace CyfsGateway.BnsCells

open Evm Transition BnsTypes BnsValidation BnsStorage BnsCore BnsFacets BnsEffects BnsExecution
  BnsCalls BnsFrames BnsRuns BnsWellFormed BnsDocumentRecords BnsContents Effect

/-! ## Cells -/

/-- The parts of the contract's state an observer keeps apart.  A cell is named in the
terms of the events, not by its storage key, so that it survives a new lineage. -/
inductive Cell
  | nameState (name : Bytes)
  | authoritySet (name : Bytes)
  | authorityKey (name : Bytes) (kid : Bytes32)
  | controllerPolicy (name : Bytes)
  | aliasState (name : Bytes)
  | document (name docType : Bytes) (version : UInt64)
  /-- The version of a document type the live lineage points at. -/
  | pointer (name docType : Bytes)
  | checkpoint
  deriving DecidableEq

section LiveState

variable (storage : Storage) (name : Bytes)

def liveSet : AuthoritySetState := storage.authoritySets (lineageStateKey storage (nameHash name))

def liveKey (kid : Bytes32) : AuthorityKey :=
  storage.authorityKeys (lineageStateKey storage (nameHash name)) kid

def livePolicy : List ControllerRule :=
  storage.controllerPolicies (lineageStateKey storage (nameHash name))

def liveAlias : AliasState := storage.aliases (lineageStateKey storage (nameHash name))

end LiveState

def Cell.Same (cell : Cell) (before after : Storage) : Prop :=
  match cell with
  | .nameState name => after.names (nameHash name) = before.names (nameHash name)
  | .authoritySet name => liveSet after name = liveSet before name
  | .authorityKey name kid => liveKey after name kid = liveKey before name kid
  | .controllerPolicy name => livePolicy after name = livePolicy before name
  | .aliasState name => liveAlias after name = liveAlias before name
  | .document name docType version =>
    documentAt after name docType version = documentAt before name docType version
  | .pointer name docType =>
    documentPointer after name docType = documentPointer before name docType
  | .checkpoint => after.latestCheckpoint = before.latestCheckpoint

theorem Cell.same_refl (cell : Cell) (storage : Storage) : cell.Same storage storage := by
  cases cell <;> exact rfl

theorem Cell.same_trans {cell : Cell} (hfirst : cell.Same first second)
    (hsnd : cell.Same second third) :
    cell.Same first third := by cases cell <;> exact Eq.trans hsnd hfirst

def Changes (storage : Storage) (effect : Effect) : Cell → Prop
  | .nameState name =>
    match effect with
    | .register other _ => other = name
    | .editName hash _ | .bumpNameSeq hash | .setSemanticOwner hash _
    | .setAssetOwner hash _ | .release hash _ => hash = nameHash name
    | _ => False
  | .authoritySet name =>
    match effect with
    | .register other _ => other = name
    | .putSet hash _ => hash = nameHash name
    | _ => False
  | .authorityKey name kid =>
    match effect with
    | .register other _ => other = name
    | .putKey hash update => hash = nameHash name ∧ update.key.kid = kid
    | _ => False
  | .controllerPolicy name =>
    match effect with
    | .register other _ => other = name
    | .putPolicy hash _ => hash = nameHash name
    | _ => False
  | .aliasState name =>
    match effect with
    | .register other _ => other = name
    | .putAlias hash _ => hash = nameHash name
    | _ => False
  | .document name docType version =>
    match effect with
    | .addDocument hash docTypeHash document =>
      hash = nameHash name ∧ docTypeHash = .keccak256 docType ∧ document.version = version
    | .repriceDocument hash docTypeHash _ =>
      hash = nameHash name ∧ docTypeHash = .keccak256 docType ∧
        currentVersion storage hash docTypeHash = version
    | _ => False
  | .pointer name docType =>
    match effect with
    | .register other _ => other = name
    | .addDocument hash docTypeHash _ => hash = nameHash name ∧ docTypeHash = .keccak256 docType
    | _ => False
  | .checkpoint =>
    match effect with
    | .putCheckpoint _ => True
    | _ => False

/-! ## Cells along a trace of effects -/

def Cell.owner : Cell → Option Bytes
  | .nameState owner | .authoritySet owner | .authorityKey owner _
  | .controllerPolicy owner | .aliasState owner | .document owner _ _
  | .pointer owner _ => some owner
  | .checkpoint => none

theorem Cell.same_of_sameName {cell : Cell} {name before after} (howner : cell.owner = some name)
    (hsame : SameName (nameHash name) before after) :
    cell.Same before after := by
  have hslots : lineageSlots after (lineageStateKey after (nameHash name)) =
      lineageSlots before (lineageStateKey before (nameHash name)) := by
    rw [hsame.lineageStateKey_eq]
    exact hsame.slots _ (owns_lineageStateKey before _)
  cases cell <;> simp only [Cell.owner, Option.some.injEq, reduceCtorEq] at howner <;>
    subst howner
  case nameState => exact hsame.names
  case authoritySet => exact congrArg LineageSlots.authoritySet hslots
  case authorityKey => exact congrFun (congrArg LineageSlots.authorityKeys hslots) _
  case controllerPolicy => exact congrArg LineageSlots.controllerPolicy hslots
  case aliasState => exact congrArg LineageSlots.aliasState hslots
  case document => exact congrFun (congrFun hsame.documents _) _
  case pointer => exact congrFun (congrArg LineageSlots.currentDocumentVersions hslots) _

section Steps

variable {chain : Deployment} {before : Machine} {effect : Effect} {name : Bytes}

section Targets

variable (htgt : effect.target = some (nameHash name))

include htgt

theorem same_names (hquiet : ¬Changes before.storage effect (.nameState name)) :
    (effect.write chain before.storage).names = before.storage.names := by
  cases effect <;> simp only [target, Option.some.injEq, reduceCtorEq] at htgt
  case addDocument => rw [write, names_appendDocument]
  case putKey => rw [write, putAuthorityKey_names]
  case register registered state =>
    rw [nameHash, nameHash, Digest.keccak256.injEq] at htgt
    exact absurd htgt hquiet
  all_goals first
    | rfl
    | exact absurd htgt hquiet

theorem same_documents (hquiet : ¬Changes before.storage effect (.document name docType version)) :
    documentAt (effect.write chain before.storage) name docType version =
      documentAt before.storage name docType version := by
  cases effect <;> simp only [target, Option.some.injEq, reduceCtorEq] at htgt
  case addDocument hash docTypeHash document =>
    subst htgt
    rw [documentAt, write, documents_appendDocument, documents_putDocument_of_slot_ne]
    · rfl
    · intro hcell
      exact hquiet ⟨rfl, hcell.1.symm, hcell.2.symm⟩
  case repriceDocument hash docTypeHash terms =>
    subst htgt
    rw [documentAt, write, documents_putDocument_of_slot_ne]
    · rfl
    · intro hcell
      exact hquiet ⟨rfl, hcell.1.symm, hcell.2.symm⟩
  case register =>
    rw [documentAt, write, documents_activateLineageState]
    exact congrFun (congrFun (congrFun documents_rememberNameHash _) _) _
  case putKey =>
    rw [documentAt, write, documents_putAuthorityKey]
    rfl
  all_goals rfl

theorem same_versions (hquiet : ¬Changes before.storage effect (.pointer name docType)) :
    (effect.write chain before.storage).currentDocumentVersions key (.keccak256 docType) =
      before.storage.currentDocumentVersions key (.keccak256 docType) := by
  cases effect <;> simp only [target, Option.some.injEq, reduceCtorEq] at htgt
  case register registered state =>
    rw [nameHash, nameHash, Digest.keccak256.injEq] at htgt
    exact absurd htgt hquiet
  case addDocument hash docTypeHash document =>
    rw [write, versions_appendDocument, if_neg]
    intro hcell
    exact hquiet ⟨htgt, hcell.1.symm⟩
  case putKey => rw [write, putAuthorityKey_versions]
  all_goals rfl

theorem same_keys (hquiet : ¬Changes before.storage effect (.authorityKey name kid)) :
    (effect.write chain before.storage).authorityKeys key kid =
      before.storage.authorityKeys key kid := by
  by_cases hput : ∃ hash update, effect = .putKey hash update
  · obtain ⟨hash, update, rfl⟩ := hput
    have hkid : kid ≠ update.key.kid := fun heq => hquiet ⟨Option.some.inj htgt, heq.symm⟩
    simp only [write, putAuthorityKey, rememberAuthorityKey]
    split <;> by_cases hkey : key = lineageStateKey before.storage hash <;>
      simp [hkey, hkid]
  · push Not at hput
    rw [keepsOthers_write.authorityKeys hput]

end Targets

theorem same_step (hlive : LiveStep chain msg before effect after) {cell : Cell}
    (hquiet : ¬Changes before.storage effect cell) :
    cell.Same before.storage after.storage := by
  obtain ⟨hallow, hafter⟩ := hlive.1
  cases howner : cell.owner with
  | none =>
    cases cell <;> simp only [Cell.owner, reduceCtorEq] at howner
    rw [hafter]
    refine keepsOthers_write.latestCheckpoint fun checkpoint heff => hquiet ?_
    rw [heff]
    trivial
  | some name =>
    by_cases htgt : effect.target = some (nameHash name)
    · have hregister : cell ≠ .nameState name → (∀ docType version,
          cell ≠ .document name docType version) →
          lineageStateKey after.storage (nameHash name) =
            lineageStateKey before.storage (nameHash name) := by
        refine fun hname hdocument => lineageStateKey_step hlive.1 fun state heff => ?_
        subst heff
        cases cell <;> simp only [Cell.owner, Option.some.injEq, reduceCtorEq] at howner <;>
          subst howner
        all_goals first
          | exact hname rfl
          | exact hdocument _ _ rfl
          | exact hquiet rfl
      rw [hafter] at hregister ⊢
      cases cell <;> simp only [Cell.owner, Option.some.injEq, reduceCtorEq] at howner <;>
        subst howner
      case nameState => exact congrFun (same_names htgt hquiet) _
      case document => exact same_documents htgt hquiet
      case authoritySet =>
        have hput : ∀ hash set, effect ≠ .putSet hash set := by
          rintro hash set rfl
          exact hquiet (Option.some.inj htgt)
        rw [Cell.Same, liveSet, hregister (by simp) (by simp)]
        exact congrFun (keepsOthers_write.authoritySets hput) _
      case authorityKey =>
        rw [Cell.Same, liveKey, hregister (by simp) (by simp)]
        exact same_keys htgt hquiet
      case controllerPolicy =>
        have hput : ∀ hash rules, effect ≠ .putPolicy hash rules := by
          rintro hash rules rfl
          exact hquiet (Option.some.inj htgt)
        rw [Cell.Same, livePolicy, hregister (by simp) (by simp)]
        exact congrFun (keepsOthers_write.controllerPolicies hput) _
      case aliasState =>
        have hput : ∀ hash state, effect ≠ .putAlias hash state := by
          rintro hash state rfl
          exact hquiet (Option.some.inj htgt)
        rw [Cell.Same, liveAlias, hregister (by simp) (by simp)]
        exact congrFun (keepsOthers_write.aliases hput) _
      case pointer =>
        rw [Cell.Same, documentPointer, currentVersion, hregister (by simp) (by simp)]
        exact same_versions htgt hquiet
    · refine Cell.same_of_sameName howner ?_
      rw [hafter]
      refine sameName_write fun hash hhash => ?_
      obtain ⟨other, rfl, -⟩ := hlive.2 hash hhash
      exact ⟨other, fun heq => htgt (heq ▸ hhash), rfl⟩

theorem same_trace {cell : Cell} (htrace : Trace (LiveStep chain msg) before effects after)
    (hquiet : ∀ effect ∈ effects, ∀ storage, ¬Changes storage effect cell) :
    cell.Same before.storage after.storage :=
  htrace.relates (fun first last => cell.Same first.storage last.storage)
    (fun first => cell.same_refl first.storage) Cell.same_trans
    (fun effect heff _ _ hstep => same_step hstep (hquiet effect heff _))

end Steps

end CyfsGateway.BnsCells
