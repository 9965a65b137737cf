import CyfsGateway.Bns.Facets
import CyfsGateway.Core.Transition

/-!
# Effects of BNS calls

Every state change of the contract is one of a few effects on a single name,
or a checkpoint, or a log.  `Effect.Allowed` says what the contract has checked
before it performs an effect.  A successful call is a trace of allowed effects;
the invariants of the contract are proved effect by effect.
-/

namespace CyfsGateway.BnsEffects

open Evm Transition BnsTypes BnsValidation BnsStorage BnsCore BnsFacets

inductive Effect
  /-- A new lineage of a name starts with the given state. -/
  | register (name : Bytes) (state : NameState)
  /-- Fields that no check of another name reads. -/
  | editName (hash : Digest) (change : NameState → NameState)
  | bumpNameSeq (hash : Digest)
  | setSemanticOwner (hash : Digest) (owner : Principal)
  | setAssetOwner (hash : Digest) (assetOwner : Address)
  | release (hash : Digest) (mode : ReleaseMode)
  /-- A document takes the next version of its type. -/
  | addDocument (hash docTypeHash : Digest) (document : DocumentState)
  | repriceDocument (hash docTypeHash : Digest) (terms : PaymentTerms)
  | putKey (hash : Digest) (update : AuthorityKeyUpdate)
  | putSet (hash : Digest) (set : AuthoritySetState)
  | putPolicy (hash : Digest) (rules : List ControllerRule)
  | putAlias (hash : Digest) (state : AliasState)
  | putCheckpoint (checkpoint : LogCheckpoint)
  /-- `_commitEvent` followed by the event it commits. -/
  | log (eventType : String) (payload : List AbiValue) (event : BnsEvent)

def Effect.target : Effect → Option Digest
  | .register name _ => some (nameHash name)
  | .editName hash _ | .bumpNameSeq hash | .setSemanticOwner hash _
  | .setAssetOwner hash _ | .release hash _ | .addDocument hash _ _
  | .repriceDocument hash _ _ | .putKey hash _ | .putSet hash _
  | .putPolicy hash _ | .putAlias hash _ => some hash
  | .putCheckpoint _ | .log .. => none

def releasedStatus (mode : ReleaseMode) : NameStatus :=
  if mode = .tombstoneForever then .tombstoned else .released

/-- Write a new version and point the whole-life and live counters at it. -/
def appendDocument (hash docTypeHash : Digest) (document : DocumentState)
    (storage : Storage) : Storage :=
  let stateKey := lineageStateKey storage hash
  let counted := setCurrentVersion hash docTypeHash document.version storage
  let pointed :=
    if stateKey ≠ hash then setCurrentVersion stateKey docTypeHash document.version counted
    else counted
  putDocument hash docTypeHash document.version document pointed

variable (chain : Deployment) (msg : Message) (storage : Storage)

def currentVersion (hash docTypeHash : Digest) : UInt64 :=
  storage.currentDocumentVersions (lineageStateKey storage hash) docTypeHash

def nextLogRoot (eventType : String) (payload : List AbiValue) (storage : Storage) : Bytes32 :=
  chain.keccak256 (.encodePacked
    [.bytes32 storage.currentLogRoot, .uint256 chain.chainId, .address chain.self,
      .uint64 (storage.globalEventSeq + 1), .digest (eventHash eventType),
      .bytes32 (chain.keccak256 (.encode payload))])

def Effect.write : Effect → Storage → Storage
  | .register name state, storage =>
    activateLineageState (nameHash name) state.lineageEpoch
      (updateName (nameHash name) (fun _ => state) (rememberNameHash (nameHash name) storage))
  | .editName hash change, storage => updateName hash change storage
  | .bumpNameSeq hash, storage =>
    updateName hash (fun state => { state with nameSeq := state.nameSeq + 1 }) storage
  | .setSemanticOwner hash owner, storage =>
    updateName hash (fun state => { state with semanticOwner := owner }) storage
  | .setAssetOwner hash assetOwner, storage =>
    updateName hash (fun state => { state with assetOwner }) storage
  | .release hash mode, storage =>
    updateName hash (fun state => { state with status := releasedStatus mode }) storage
  | .addDocument hash docTypeHash document, storage =>
    appendDocument hash docTypeHash document storage
  | .repriceDocument hash docTypeHash terms, storage =>
    let version := currentVersion storage hash docTypeHash
    putDocument hash docTypeHash version
      (repricedDocument chain terms (storage.documents hash docTypeHash version)) storage
  | .putKey hash update, storage => putAuthorityKey (lineageStateKey storage hash) update storage
  | .putSet hash set, storage => putAuthoritySet (lineageStateKey storage hash) set storage
  | .putPolicy hash rules, storage =>
    putControllerPolicy (lineageStateKey storage hash) rules storage
  | .putAlias hash state, storage => BnsCore.putAlias (lineageStateKey storage hash) state storage
  | .putCheckpoint checkpoint, storage => { storage with latestCheckpoint := checkpoint }
  | .log eventType payload _, storage =>
    { storage with
      globalEventSeq := storage.globalEventSeq + 1
      currentLogRoot := nextLogRoot chain eventType payload storage }

def Effect.emits : Effect → List BnsEvent
  | .log eventType payload event =>
    [.protocolEvent (storage.globalEventSeq + 1) (eventHash eventType) msg.sender
      storage.currentLogRoot (nextLogRoot chain eventType payload storage), event]
  | _ => []

/-! ## Frames of the storage updates -/

/-- The live key of a name is decided by its epoch and the marker of that epoch. -/
theorem lineageStateKey_congr {storage other hash}
    (hepoch : (other.names hash).lineageEpoch = (storage.names hash).lineageEpoch)
    (hmarker : (storage.names hash).lineageEpoch ≠ 0 → other.currentDocumentVersions
          (lineageKey hash (storage.names hash).lineageEpoch) lineageStateMarker =
        storage.currentDocumentVersions
          (lineageKey hash (storage.names hash).lineageEpoch) lineageStateMarker) :
    lineageStateKey other hash = lineageStateKey storage hash := by
  simp only [lineageStateKey, hepoch]
  split
  · rfl
  · rename_i hlater
    rw [hmarker hlater]

theorem putAuthorityKey_names (stateKey : Digest) (update : AuthorityKeyUpdate)
    (storage : Storage) :
    (putAuthorityKey stateKey update storage).names = storage.names := by
  simp only [putAuthorityKey, rememberAuthorityKey]
  split <;> rfl

theorem putAuthorityKey_versions (stateKey : Digest) (update : AuthorityKeyUpdate)
    (storage : Storage) :
    (putAuthorityKey stateKey update storage).currentDocumentVersions =
      storage.currentDocumentVersions := by
  simp only [putAuthorityKey, rememberAuthorityKey]
  split <;> rfl

theorem lineageStateKey_putAuthorityKey (stateKey hash : Digest)
    (update : AuthorityKeyUpdate) (storage : Storage) :
    lineageStateKey (putAuthorityKey stateKey update storage) hash =
      lineageStateKey storage hash := by
  apply lineageStateKey_congr
  · rw [putAuthorityKey_names]
  · rw [putAuthorityKey_versions]
    exact fun _ => rfl

theorem recomputeAuthoritySet_ok {chain storage now hash name set}
    (hset : recomputeAuthoritySet chain storage now hash name = .ok set) :
    set.name = name ∧ set.authoritySeq.toNat =
      (storage.authoritySets (lineageStateKey storage hash)).authoritySeq.toNat + 1 := by
  simp only [recomputeAuthoritySet] at hset
  split at hset
  · split at hset
    · rename_i authoritySeq hseq
      obtain rfl := Except.ok.inj hset
      exact ⟨rfl, checkedAdd_eq_some_iff.mp hseq⟩
    · simp at hset
  · simp at hset

/-! ## What is checked before an effect -/

/-- The fields of a name that decide who owns it and how its mutations are
ordered stay as they are. -/
structure SameIdentity (before after : NameState) : Prop where
  name : after.name = before.name
  assetOwner : after.assetOwner = before.assetOwner
  semanticOwner : after.semanticOwner = before.semanticOwner
  status : after.status = before.status ∨ (before.status = .expired ∧ after.status = .active)
  nameSeq : after.nameSeq = before.nameSeq
  lineageEpoch : after.lineageEpoch = before.lineageEpoch

/-- An owner a name may be given: one that is inherited, or an active name with a key that
can sign at this time. -/
def UsableOwner (now : UInt64) (owner : Principal) : Prop :=
  validateSemanticOwner owner = .ok () ∧ requireActiveAuthoritySet storage now owner = .ok ()

/-- How the contents of a new version come about: a checked publication, or a
revocation written over the slot of the version. -/
def Composed (slot document : DocumentState) :
    Prop :=
  (∃ update : DocumentUpdate, validateDocumentRef chain update.document = .ok () ∧
    validatePrincipal update.controller = .ok () ∧
    validatePrincipal update.beneficiary = .ok () ∧
    document = publishedDocument chain msg document.name update document.version
      document.previousVersion) ∨
  document = revokedDocument chain msg document.name document.docType document.version
    document.previousVersion slot

def Effect.Allowed : Effect → Prop
  | .register name state =>
    let existing := storage.names (nameHash name)
    validName name = true ∧
    (existing.status = .available ∨ existing.status = .released) ∧
    (parentName name ≠ [] →
      isActiveName msg.now (storage.names (nameHash (parentName name))) = true) ∧
    state.name = name ∧ state.status = .active ∧ state.assetOwner ≠ .zero ∧
    UsableOwner storage msg.now state.semanticOwner ∧
    state.nameSeq.toNat = existing.nameSeq.toNat + 1 ∧
    (existing.nameSeq = 0 → state.lineageEpoch = 0) ∧
    (existing.nameSeq ≠ 0 → state.lineageEpoch.toNat = existing.lineageEpoch.toNat + 1)
  | .editName hash change => SameIdentity (storage.names hash) (change (storage.names hash))
  | .bumpNameSeq hash => (storage.names hash).nameSeq.toNat + 1 < 2 ^ 64
  | .setSemanticOwner _ owner => UsableOwner storage msg.now owner
  | .setAssetOwner _ assetOwner => assetOwner ≠ .zero
  | .release hash _ => isActiveName msg.now (storage.names hash) = true
  | .addDocument hash docTypeHash document =>
    hash = nameHash document.name ∧ docTypeHash = .keccak256 document.docType ∧
    validDocType document.docType = true ∧
    document.version.toNat = (storage.currentDocumentVersions hash docTypeHash).toNat + 1 ∧
    document.previousVersion = currentVersion storage hash docTypeHash ∧
    Composed chain msg (storage.documents hash docTypeHash document.version) document
  | .repriceDocument hash docTypeHash terms =>
    (∃ docType, validDocType docType = true ∧ docTypeHash = .keccak256 docType) ∧
    currentVersion storage hash docTypeHash ≠ 0 ∧
    validatePrincipal terms.beneficiary = .ok ()
  | .putKey _ update => update.key.kid ≠ .zero ∧ update.key.verificationMethod ≠ .zero
  | .putSet hash set =>
    recomputeAuthoritySet chain storage msg.now hash set.name = .ok set ∧
    hash = nameHash set.name ∧
    ¬(set.activeKeyCount = 0 ∧
      (storage.authoritySets (lineageStateKey storage hash)).activeKeyCount > 0)
  | .putPolicy _ rules => ∀ rule ∈ rules, validateControllerRule rule = .ok () ∧
      requireActiveAuthoritySet storage msg.now rule.controller = .ok ()
  | .putAlias hash state =>
    hash = nameHash state.name ∧
    (state.kind ≠ .none → validDid state.targetDid = true)
  | .putCheckpoint checkpoint =>
    validatePrincipal checkpoint.issuer = .ok () ∧
    checkpoint.logRoot = storage.currentLogRoot ∧
    checkpoint.lastSeq = storage.globalEventSeq ∧ checkpoint.issuedAt = msg.now
  | .log .. => storage.globalEventSeq.toNat + 1 < 2 ^ 64

def Effect.perform (effect : Effect) (machine : Machine) : Machine :=
  { storage := effect.write chain machine.storage
    logs := machine.logs ++ effect.emits chain msg machine.storage }

def Step (before : Machine) (effect : Effect) (after : Machine) : Prop :=
  effect.Allowed chain msg before.storage ∧ after = effect.perform chain msg before

abbrev Effects : Machine → List Effect → Machine → Prop :=
  Trace (Step chain msg)

end CyfsGateway.BnsEffects
