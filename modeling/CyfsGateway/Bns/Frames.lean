import CyfsGateway.Bns.Calls

/-!
# Frames of the effects

All state of a name lives in its `NameState`, its documents and the slots of
its lineages.  An effect on one name leaves the state of every other name as
it was: the storage keys of different names never meet.
-/

namespace CyfsGateway.BnsFrames

open Evm Transition BnsTypes BnsValidation BnsStorage BnsCore BnsFacets BnsEffects BnsExecution
  BnsCalls

/-! ## State of a name -/

/-- Everything stored under one lineage key.  A new registration moves the name to a new
key, and with that leaves all of this behind at once. -/
structure LineageSlots where
  authoritySet : AuthoritySetState := {}
  authorityKeys : Bytes32 → AuthorityKey := fun _ => {}
  authorityKeyIds : List Bytes32 := []
  knownAuthorityKey : Bytes32 → Bool := fun _ => false
  currentDocumentVersions : Digest → UInt64 := fun _ => 0
  controllerPolicy : List ControllerRule := []
  aliasState : AliasState := {}

def lineageSlots (storage : Storage) (key : Digest) : LineageSlots where
  authoritySet := storage.authoritySets key
  authorityKeys := storage.authorityKeys key
  authorityKeyIds := storage.authorityKeyIds key
  knownAuthorityKey := storage.knownAuthorityKey key
  currentDocumentVersions := storage.currentDocumentVersions key
  controllerPolicy := storage.controllerPolicies key
  aliasState := storage.aliases key

/-- The keys under which a name keeps the slots of its lineages. -/
def Owns (hash key : Digest) : Prop :=
  key = hash ∨ ∃ lineageEpoch, key = lineageKey hash lineageEpoch

theorem owns_lineageStateKey (storage : Storage) (hash : Digest) :
    Owns hash (lineageStateKey storage hash) := by
  simp only [lineageStateKey]
  split
  · exact .inl rfl
  · split
    · exact .inl rfl
    · exact .inr ⟨_, rfl⟩

theorem not_owns_of_ne (hne : name ≠ other) (howns : Owns (nameHash name) key) :
    ¬Owns (nameHash other) key := by
  rintro (rfl | ⟨_, rfl⟩) <;> rcases howns with heq | ⟨_, heq⟩ <;>
    simp_all [nameHash, lineageKey]

/-- Two storages agree on everything a name owns. -/
structure SameName (hash : Digest) (before after : Storage) : Prop where
  names : after.names hash = before.names hash
  documents : after.documents hash = before.documents hash
  slots : ∀ key, Owns hash key → lineageSlots after key = lineageSlots before key

theorem SameName.refl (hash : Digest) (storage : Storage) : SameName hash storage storage :=
  ⟨rfl, rfl, fun _ _ => rfl⟩

theorem SameName.trans {hash first second third} (hfirst : SameName hash first second)
    (hsnd : SameName hash second third) :
    SameName hash first third where
  names := hsnd.names.trans hfirst.names
  documents := hsnd.documents.trans hfirst.documents
  slots key howns := (hsnd.slots key howns).trans (hfirst.slots key howns)

theorem SameName.lineageStateKey_eq {hash before after} (hsame : SameName hash before after) :
    lineageStateKey after hash = lineageStateKey before hash := by
  refine lineageStateKey_congr (by rw [hsame.names]) (fun _ => ?_)
  have hslots := hsame.slots (lineageKey hash (before.names hash).lineageEpoch) (.inr ⟨_, rfl⟩)
  exact congrFun (congrArg LineageSlots.currentDocumentVersions hslots) lineageStateMarker

section Updates

variable {hash key : Digest} {storage : Storage}

@[simp]
theorem names_updateName_self :
    (updateName hash change storage).names hash = change (storage.names hash) := by
  simp [updateName]

theorem slots_setCurrentVersion_of_ne (hne : key ≠ stateKey) :
    lineageSlots (setCurrentVersion stateKey docTypeHash version storage) key =
      lineageSlots storage key := by simp [lineageSlots, setCurrentVersion, hne]

theorem slots_putAuthorityKey_of_ne (hne : key ≠ stateKey) :
    lineageSlots (putAuthorityKey stateKey update storage) key = lineageSlots storage key := by
  simp only [putAuthorityKey, rememberAuthorityKey]
  split <;> simp [lineageSlots, hne]

theorem slots_putAuthoritySet_of_ne {set} (hne : key ≠ stateKey) :
    lineageSlots (putAuthoritySet stateKey set storage) key = lineageSlots storage key := by
  simp [lineageSlots, putAuthoritySet, hne]

theorem slots_activateLineageState_of_ne (hne : key ≠ lineageKey hash lineageEpoch) :
    lineageSlots (activateLineageState hash lineageEpoch storage) key =
      lineageSlots storage key := by
  simp only [activateLineageState]
  split
  · rfl
  · simp [lineageSlots, hne]

theorem slots_rememberNameHash :
    lineageSlots (rememberNameHash hash storage) key = lineageSlots storage key := by
  simp only [rememberNameHash]
  split <;> rfl

theorem slots_putDocument :
    lineageSlots (putDocument hash docTypeHash version document storage) key =
      lineageSlots storage key := rfl

theorem slots_appendDocument_of_ne (hhash : key ≠ hash)
    (hlive : key ≠ lineageStateKey storage hash) :
    lineageSlots (appendDocument hash docTypeHash document storage) key =
      lineageSlots storage key := by
  simp only [appendDocument]
  rw [slots_putDocument]
  split
  · exact (slots_setCurrentVersion_of_ne hlive).trans (slots_setCurrentVersion_of_ne hhash)
  · exact slots_setCurrentVersion_of_ne hhash

end Updates

/-! ## Frame of an effect -/

section Frame

variable {chain : Deployment} {storage : Storage} {effect : Effect} {hash : Digest}

@[simp]
theorem names_activateLineageState :
    (activateLineageState hash lineageEpoch storage).names = storage.names := by
  simp only [activateLineageState]
  split <;> rfl

@[simp]
theorem names_rememberNameHash : (rememberNameHash hash storage).names = storage.names := by
  simp only [rememberNameHash]
  split <;> rfl

variable {document : DocumentState}

@[simp]
theorem names_appendDocument :
    (appendDocument hash docTypeHash document storage).names = storage.names := by
  simp only [appendDocument]
  split <;> rfl

@[simp]
theorem documents_activateLineageState :
    (activateLineageState hash lineageEpoch storage).documents = storage.documents := by
  simp only [activateLineageState]
  split <;> rfl

@[simp]
theorem documents_rememberNameHash :
    (rememberNameHash hash storage).documents = storage.documents := by
  simp only [rememberNameHash]
  split <;> rfl

@[simp]
theorem documents_putAuthorityKey :
    (putAuthorityKey stateKey update storage).documents = storage.documents := by
  simp only [putAuthorityKey, rememberAuthorityKey]
  split <;> rfl

theorem documents_appendDocument : (appendDocument hash docTypeHash document storage).documents =
      (putDocument hash docTypeHash document.version document storage).documents := by
  simp only [appendDocument]
  split <;> rfl

theorem documents_putDocument_of_ne (hne : other ≠ hash) :
    (putDocument hash docTypeHash version document storage).documents other =
      storage.documents other := by simp [putDocument, hne]

def nextState : Effect → NameState → NameState
  | .register _ state, _ => state
  | .editName _ change, state => change state
  | .bumpNameSeq _, state => { state with nameSeq := state.nameSeq + 1 }
  | .setSemanticOwner _ semanticOwner, state => { state with semanticOwner }
  | .setAssetOwner _ assetOwner, state => { state with assetOwner }
  | .release _ mode, state => { state with status := releasedStatus mode }
  | _, state => state

theorem names_write : (effect.write chain storage).names hash =
    if effect.target = some hash then nextState effect (storage.names hash)
    else storage.names hash := by
  cases effect with
  | register | editName | bumpNameSeq | setSemanticOwner | setAssetOwner | release =>
    simp only [Effect.write, Effect.target, nextState, names_activateLineageState, updateName,
      names_rememberNameHash, Function.update_apply]
    grind
  | addDocument | putKey => simp [Effect.write, nextState, putAuthorityKey_names]
  | _ => exact (ite_self _).symm

theorem names_write_of_ne (htgt : effect.target ≠ some hash) :
    (effect.write chain storage).names hash = storage.names hash := by
  rw [names_write, if_neg htgt]

theorem documents_write_of_ne (htgt : effect.target ≠ some hash) :
    (effect.write chain storage).documents hash = storage.documents hash := by
  have hne : ∀ target, effect.target = some target → hash ≠ target :=
    fun target heff heq => htgt (heq ▸ heff)
  cases effect with
  | register name state =>
    rw [Effect.write, documents_activateLineageState]
    exact congrFun documents_rememberNameHash hash
  | addDocument target docTypeHash document =>
    rw [Effect.write, documents_appendDocument, documents_putDocument_of_ne (hne target rfl)]
  | repriceDocument target docTypeHash terms => exact documents_putDocument_of_ne (hne target rfl)
  | putKey target update => rw [Effect.write, documents_putAuthorityKey]
  | _ => rfl

/-- Each of these components is written by one kind of effect, so a call that does not
perform an effect of that kind leaves the component alone. -/
structure KeepsOthers (effect : Effect) (before after : Storage) : Prop where
  authoritySets : (∀ hash set, effect ≠ .putSet hash set) →
    after.authoritySets = before.authoritySets
  authorityKeys : (∀ hash update, effect ≠ .putKey hash update) →
    after.authorityKeys = before.authorityKeys
  controllerPolicies : (∀ hash rules, effect ≠ .putPolicy hash rules) →
    after.controllerPolicies = before.controllerPolicies
  aliases : (∀ hash state, effect ≠ .putAlias hash state) → after.aliases = before.aliases
  latestCheckpoint : (∀ checkpoint, effect ≠ .putCheckpoint checkpoint) →
    after.latestCheckpoint = before.latestCheckpoint

theorem keepsOthers_write : KeepsOthers effect storage (effect.write chain storage) := by
  cases effect with
  | register name state =>
    constructor <;> intro _ <;>
      simp only [Effect.write, activateLineageState, rememberNameHash, updateName] <;>
      split <;> split <;> rfl
  | addDocument hash docTypeHash document =>
    constructor <;> intro _ <;> simp only [Effect.write, appendDocument] <;> split <;> rfl
  | putKey hash update =>
    constructor <;> intro hother <;>
      simp only [Effect.write, putAuthorityKey, rememberAuthorityKey] <;> split <;>
      first
        | rfl
        | exact absurd rfl (hother hash update)
  | _ =>
    constructor <;> intro hother <;>
      first
        | rfl
        | exact absurd rfl (hother _ _)
        | exact absurd rfl (hother _)

/-- The keys whose slots an effect can change: the hash of its target, the live
key of its target and the key of the lineage it starts. -/
def Writes (storage : Storage) (effect : Effect) (key : Digest) : Prop :=
  (∃ hash, effect.target = some hash ∧ (key = hash ∨ key = lineageStateKey storage hash)) ∨
  ∃ name state, effect = .register name state ∧ key = lineageKey (nameHash name) state.lineageEpoch

theorem slots_write_of_not_writes {key} (hkey : ¬Writes storage effect key) :
    lineageSlots (effect.write chain storage) key = lineageSlots storage key := by
  have hhash : ∀ hash, effect.target = some hash → key ≠ hash :=
    fun hash htgt heq => hkey (.inl ⟨hash, htgt, .inl heq⟩)
  have hlive : ∀ hash, effect.target = some hash → key ≠ lineageStateKey storage hash :=
    fun hash htgt heq => hkey (.inl ⟨hash, htgt, .inr heq⟩)
  cases effect with
  | register name state =>
    have hne : key ≠ lineageKey (nameHash name) state.lineageEpoch :=
      fun heq => hkey (.inr ⟨name, state, rfl, heq⟩)
    exact (slots_activateLineageState_of_ne hne).trans slots_rememberNameHash
  | addDocument hash docTypeHash document =>
    exact slots_appendDocument_of_ne (hhash hash rfl) (hlive hash rfl)
  | putKey hash update => exact slots_putAuthorityKey_of_ne (hlive hash rfl)
  | putSet hash set => exact slots_putAuthoritySet_of_ne (hlive hash rfl)
  | putPolicy hash | putAlias hash =>
    simp [Effect.write, lineageSlots, putControllerPolicy, BnsCore.putAlias, hlive hash rfl]
  | _ => rfl

theorem owns_of_writes (hkey : Writes storage effect key) :
    ∃ hash, effect.target = some hash ∧ Owns hash key := by
  rcases hkey with ⟨hash, htgt, rfl | rfl⟩ | ⟨name, state, rfl, rfl⟩
  · exact ⟨_, htgt, .inl rfl⟩
  · exact ⟨hash, htgt, owns_lineageStateKey storage hash⟩
  · exact ⟨nameHash name, rfl, .inr ⟨_, rfl⟩⟩

/-- An effect on another name, a checkpoint or a log leaves a name alone. -/
theorem sameName_write (htgt : ∀ hash, effect.target = some hash →
      ∃ other, other ≠ name ∧ hash = nameHash other) :
    SameName (nameHash name) storage (effect.write chain storage) := by
  have hne : effect.target ≠ some (nameHash name) := by
    intro htgts
    obtain ⟨other, hother, hhash⟩ := htgt _ htgts
    exact hother (by simpa [nameHash, eq_comm] using hhash)
  refine ⟨names_write_of_ne hne, documents_write_of_ne hne, fun key howns => ?_⟩
  refine slots_write_of_not_writes fun hwrites => ?_
  obtain ⟨hash, htgts, hwritten⟩ := owns_of_writes hwrites
  obtain ⟨other, hother, rfl⟩ := htgt hash htgts
  exact not_owns_of_ne (Ne.symm hother) howns hwritten

end Frame

end CyfsGateway.BnsFrames
