import CyfsGateway.Bns.Core

/-!
# External functions of the BNS contract

The mutating entry points of the facets, in the order of checks and writes of
the source.  `execute` dispatches a decoded call; `BnsCall` is also what a
transaction's input decodes to.
-/

namespace CyfsGateway.BnsFacets

open Evm Reverting BnsTypes BnsValidation BnsStorage BnsCore

variable (chain : Deployment) (msg : Message)

section Facets

variable (name : Bytes)

/-- `semanticOwnerAfterAuthority`: the owner chosen once the keys are stored. -/
def setOwnerAfterAuthority (hash : Digest)
    (name : Bytes) (semanticOwner : Principal) : Contract Unit := do
  check (requireActiveAuthoritySet · msg.now semanticOwner)
  store (updateName hash fun state => { state with semanticOwner })
  touchName msg hash
  check (validateOwnerPath · msg.now hash)
  let materialized ← check fun storage => materializeNameState storage msg.now (storage.names hash)
  announceOwner chain msg hash name materialized

def registerName (assetOwner : Address) (options : RegisterOptions)
    (authorityUpdates : List AuthorityKeyUpdate)
    (semanticOwnerAfterAuthority : Principal) (controllerPolicy : List ControllerRule)
    (controllerPolicyHash : Bytes32) (initialDocuments : List DocumentUpdate)
    (authority : CallAuthority) (guard : MutationGuard) :
    Contract (UInt64 × UInt64 × Bytes32) := do
  check fun _ => validateBatchBounds authorityUpdates.length initialDocuments
  check fun _ => validateUniqueDocumentTypes initialDocuments
  let hash ←
    registerNameHash chain msg name assetOwner options initialDocuments authority guard
  runIf (authorityUpdates.length ≠ 0)
    (ignoreResult (applyAuthorityUpdates chain msg hash name authorityUpdates))
  check fun _ => validateSemanticOwner semanticOwnerAfterAuthority
  runIf (semanticOwnerAfterAuthority.kind ≠ .unset)
    (setOwnerAfterAuthority chain msg hash name semanticOwnerAfterAuthority)
  runIf (controllerPolicy.length ≠ 0 ∨ controllerPolicyHash ≠ .zero)
    (ignoreResult (setControllerPolicyInternal chain msg hash name controllerPolicy
      controllerPolicyHash false))
  let latest ← load (·.names hash)
  let finalSet ← load fun storage => storage.authoritySets (lineageStateKey storage hash)
  pure (latest.nameSeq, finalSet.authoritySeq, finalSet.authorityRoot)

def renewName (duration : UInt64) : Contract UInt64 := do
  revertIf (duration = 0) (invalidMutation "BAD_DURATION")
  let hash ← check fun _ => validateName name
  check (requireExistingName · hash name)
  let state ← load (·.names hash)
  revertIf (state.renewable = false ∨ state.status = .released ∨
    state.status = .tombstoned) (invalidMutation "NOT_RENEWABLE")
  let graceDelta :=
    if state.graceUntil > state.expireAt then state.graceUntil - state.expireAt else 0
  let base := if state.expireAt > msg.now then state.expireAt else msg.now
  store (updateName hash fun state =>
    { state with status := if state.status = .expired then .active else state.status })
  let expireAt ← add base duration
  let graceUntil ← add expireAt graceDelta
  store (updateName hash fun state => { state with expireAt, graceUntil })
  touchName msg hash
  bumpNameSeq hash
  let nameSeq ← load fun storage => (storage.names hash).nameSeq
  commitEvent chain msg "name_renewed" [.digest hash, .uint64 expireAt, .uint64 nameSeq]
  emit (.nameRenewed hash name msg.sender expireAt nameSeq)
  pure expireAt

def setNameOwner (semanticOwner : Principal) (authority : CallAuthority) (guard : MutationGuard) :
    Contract UInt64 := do
  let hash ← check fun _ => validateName name
  check fun _ => validateSemanticOwner semanticOwner
  check (requireActiveName · msg.now hash name)
  check fun storage => checkGuard (storage.names hash) guard name
  check (authorizeOwner · msg hash name authority)
  check (requireActiveAuthoritySet · msg.now semanticOwner)
  store (updateName hash fun state => { state with semanticOwner })
  bumpNameSeq hash
  touchName msg hash
  check (validateOwnerPath · msg.now hash)
  let materialized ← check fun storage => materializeNameState storage msg.now (storage.names hash)
  announceOwner chain msg hash name materialized
  load fun storage => (storage.names hash).nameSeq

def releaseName (mode : ReleaseMode) (reasonHash : Bytes32) (authority : CallAuthority)
    (guard : MutationGuard) : Contract UInt64 := do
  let hash ← check fun _ => validateName name
  check (requireActiveName · msg.now hash name)
  check fun storage => checkGuard (storage.names hash) guard name
  check (authorizeOwner · msg hash name authority)
  store (updateName hash fun state =>
    { state with
      status := if mode = .tombstoneForever then .tombstoned else .released })
  bumpNameSeq hash
  touchName msg hash
  let nameSeq ← load fun storage => (storage.names hash).nameSeq
  commitEvent chain msg "name_released"
    [.digest hash, .enumeration mode.index, .bytes32 reasonHash, .uint64 nameSeq]
  emit (.nameReleased hash name msg.sender mode reasonHash nameSeq)
  pure nameSeq

def opSetNamespace : Digest := .keccak256 (text "set_namespace")

def setNamespacePolicy (allowDelegatedSubnames : Bool) (namespacePolicyHash : Bytes32)
    (authority : CallAuthority) (guard : MutationGuard) : Contract UInt64 := do
  let hash ← check fun _ => validateName name
  check (requireActiveName · msg.now hash name)
  check (authorizeUpdate · msg hash name [] permissionSetNamespace opSetNamespace authority guard)
  store (updateName hash fun state =>
    { state with
      allowDelegatedSubnames
      namespacePolicyHash })
  bumpNameSeq hash
  touchName msg hash
  let nameSeq ← load fun storage => (storage.names hash).nameSeq
  commitEvent chain msg "namespace_policy_updated"
    [.digest hash, .bool allowDelegatedSubnames, .bytes32 namespacePolicyHash, .uint64 nameSeq]
  emit (.namespacePolicyUpdated hash name msg.sender allowDelegatedSubnames
    namespacePolicyHash nameSeq)
  pure nameSeq

/-! ## Atomic mutation facet -/

def opPublishDocument : Digest := .keccak256 (text "publish_document")

def transferName (newAssetOwner : Address) (newSemanticOwner : Principal)
    (atomicDocumentUpdates : List DocumentUpdate) (authority : CallAuthority)
    (guard : MutationGuard) : Contract UInt64 := do
  revertIf (newAssetOwner = .zero) .invalidPrincipal
  let hash ← check fun _ => validateName name
  check fun _ => validateSemanticOwner newSemanticOwner
  check (requireActiveName · msg.now hash name)
  check fun storage => checkGuard (storage.names hash) guard name
  check (authorizeOwner · msg hash name authority)
  check (requireActiveAuthoritySet · msg.now newSemanticOwner)
  let oldAssetOwner ← load fun storage => (storage.names hash).assetOwner
  store (updateName hash fun state => { state with assetOwner := newAssetOwner })
  store (updateName hash fun state => { state with semanticOwner := newSemanticOwner })
  bumpNameSeq hash
  touchName msg hash
  check (validateOwnerPath · msg.now hash)
  let materialized ← check fun storage => materializeNameState storage msg.now (storage.names hash)
  let nameSeq ← load fun storage => (storage.names hash).nameSeq
  commitEvent chain msg "name_asset_transferred"
    [.digest hash, .address oldAssetOwner, .address newAssetOwner, .uint64 nameSeq]
  emit (.nameAssetTransferred hash name oldAssetOwner newAssetOwner false nameSeq)
  announceOwner chain msg hash name materialized
  publishDocuments chain msg hash name atomicDocumentUpdates
  load fun storage => (storage.names hash).nameSeq

/-- The authorization of `applyMutations`: keys, owner policy and an `owner`
document are reserved to the owner, other documents are checked one by one. -/
def authorizeMutations (storage : Storage) (msg : Message) (hash : Digest)
    (name : Bytes) (authorityUpdates : List AuthorityKeyUpdate)
    (documents : List DocumentUpdate) (ownerPolicy : OwnerPolicyUpdate)
    (authority : CallAuthority) : Except Revert Unit :=
  if authorityUpdates.length ≠ 0 ∨ ownerPolicy.updateMinDocumentIat = true ∨
      containsOwnerDocument documents = true then
    authorizeOwner storage msg hash name authority
  else
    documents.forM fun update =>
      authorizeUpdateNoGuard storage msg hash name update.docType
        permissionPublishDocument opPublishDocument authority

def applyMutations (authorityUpdates : List AuthorityKeyUpdate) (documents : List DocumentUpdate)
    (ownerPolicy : OwnerPolicyUpdate) (authority : CallAuthority)
    (guard : MutationGuard) : Contract (UInt64 × UInt64 × Bytes32 × UInt64) := do
  revertIf (authorityUpdates.length = 0 ∧ documents.length = 0 ∧
    ownerPolicy.updateMinDocumentIat = false) (invalidMutation "EMPTY_MUTATION_BATCH")
  check fun _ => validateBatchBounds
    (authorityUpdates.length + if ownerPolicy.updateMinDocumentIat then 1 else 0) documents
  check fun _ => validateUniqueDocumentTypes documents
  let hash ← check fun _ => validateName name
  check (requireActiveName · msg.now hash name)
  check fun storage => checkGuard (storage.names hash) guard name
  check (authorizeMutations · msg hash name authorityUpdates documents ownerPolicy authority)
  runIf (authorityUpdates.length ≠ 0)
    (ignoreResult (applyAuthorityUpdates chain msg hash name authorityUpdates))
  runIf (documents.length ≠ 0 ∨ ownerPolicy.updateMinDocumentIat = true) (do
    bumpNameSeq hash
    touchName msg hash)
  publishDocuments chain msg hash name documents
  runIf (ownerPolicy.updateMinDocumentIat = true)
    (ignoreResult (setMinDocumentIatInternal chain msg hash name
      ownerPolicy.minDocumentIat ownerPolicy.reasonHash false))
  let finalSet ← load fun storage => storage.authoritySets (lineageStateKey storage hash)
  let state ← load (·.names hash)
  pure (state.nameSeq, finalSet.authoritySeq, finalSet.authorityRoot, state.ownerPolicySeq)

def updateAuthorityKeys (updates : List AuthorityKeyUpdate) (authority : CallAuthority)
    (guard : MutationGuard) : Contract (UInt64 × Bytes32) := do
  let hash ← check fun _ => validateName name
  check (requireActiveName · msg.now hash name)
  check fun storage => checkGuard (storage.names hash) guard name
  check (authorizeOwner · msg hash name authority)
  let set ← applyAuthorityUpdates chain msg hash name updates
  pure (set.authoritySeq, set.authorityRoot)

def setMinDocumentIat (minDocumentIat : UInt64) (reasonHash : Bytes32) (authority : CallAuthority)
    (guard : MutationGuard) : Contract (UInt64 × UInt64) := do
  let hash ← check fun _ => validateName name
  check (requireActiveName · msg.now hash name)
  check fun storage => checkGuard (storage.names hash) guard name
  check (authorizeOwner · msg hash name authority)
  setMinDocumentIatInternal chain msg hash name minDocumentIat reasonHash true

def publishDocument (update : DocumentUpdate) (authority : CallAuthority) (guard : MutationGuard) :
    Contract UInt64 := do
  let hash ← check fun _ => validateName name
  check (requireActiveName · msg.now hash name)
  check (authorizeUpdate · msg hash name update.docType permissionPublishDocument
    opPublishDocument authority guard)
  publishDocumentInternal chain msg hash name update true

def opRevokeDocument : Digest := .keccak256 (text "revoke_document")

def revokedDocument (docType : Bytes)
    (version previousVersion : UInt64) (slot : DocumentState) : DocumentState :=
  sealDocument chain
    { slot with
      name
      docType
      version
      previousVersion
      status := .revoked
      validFrom := msg.now
      expireAt := 0
      revokedAt := msg.now
      paymentTarget := .zero
      controllerPolicyHash := .zero
      paymentPolicyHash := .zero
      splitPolicyHash := .zero
      pricePolicyHash := .zero
      rightsPolicyHash := .zero }

def revokeDocument (docType : Bytes)
    (expectedVersion : UInt64) (reasonHash : Bytes32) (authority : CallAuthority)
    (guard : MutationGuard) : Contract (UInt64 × UInt64) := do
  let hash ← check fun _ => validateName name
  let docTypeHash ← check fun _ => validateDocType docType
  check (requireActiveName · msg.now hash name)
  check (authorizeUpdate · msg hash name docType permissionRevokeDocument
    opRevokeDocument authority guard)
  let stateKey ← load (lineageStateKey · hash)
  let current ← load (·.currentDocumentVersions stateKey docTypeHash)
  revertIf (current ≠ expectedVersion) (.staleDocumentVersion name docType expectedVersion current)
  let newVersion ← advanceVersion hash stateKey docTypeHash
  let slot ← load (·.documents hash docTypeHash newVersion)
  store (putDocument hash docTypeHash newVersion
    (revokedDocument chain msg name docType newVersion current slot))
  recordOwnerDocument hash docType newVersion
  bumpNameSeq hash
  touchName msg hash
  commitEvent chain msg "document_revoked"
    [.digest hash, .digest docTypeHash, .uint64 current, .uint64 newVersion, .bytes32 reasonHash]
  emit (.documentRevoked hash name docType msg.sender current newVersion reasonHash)
  let nameSeq ← load fun storage => (storage.names hash).nameSeq
  pure (newVersion, nameSeq)

def setControllerPolicy
    (rules : List ControllerRule) (policyHash : Bytes32) (authority : CallAuthority)
    (guard : MutationGuard) : Contract UInt64 := do
  let hash ← check fun _ => validateName name
  check (requireActiveName · msg.now hash name)
  check fun storage => checkGuard (storage.names hash) guard name
  check (authorizeOwner · msg hash name authority)
  setControllerPolicyInternal chain msg hash name rules policyHash true

/-! ## Alias and payment facet -/

def opSetAlias : Digest := .keccak256 (text "set_alias")

def setDidAlias (targetDid : Bytes)
    (kind : AliasKind) (proofHash : Bytes32) (authority : CallAuthority)
    (guard : MutationGuard) : Contract UInt64 := do
  let hash ← check fun _ => validateName name
  check (requireActiveName · msg.now hash name)
  check fun _ => if kind ≠ .none then validateDid targetDid else .ok ()
  check (authorizeUpdate · msg hash name [] permissionSetAlias opSetAlias authority guard)
  bumpNameSeq hash
  store (updateName hash fun state => { state with aliasStateHash := proofHash })
  touchName msg hash
  let state ← load (·.names hash)
  let stateKey ← load (lineageStateKey · hash)
  store (putAlias stateKey
    { name
      kind
      targetDid
      proofHash
      setAt := state.updatedAt
      nameSeq := state.nameSeq })
  commitEvent chain msg "did_alias_set"
    [.digest hash, .bytes targetDid, .enumeration kind.index, .bytes32 proofHash,
      .uint64 state.nameSeq]
  emit (.didAliasSet hash name msg.sender targetDid kind proofHash state.nameSeq)
  pure state.nameSeq

def opSetPayment : Digest := .keccak256 (text "set_payment")

structure PaymentTerms where
  paymentTarget : Address
  beneficiary : Principal
  paymentPolicyHash : Bytes32
  splitPolicyHash : Bytes32
  pricePolicyHash : Bytes32
  rightsPolicyHash : Bytes32
  deriving DecidableEq

def repricedDocument (terms : PaymentTerms) (document : DocumentState) : DocumentState :=
  sealDocument chain
    { document with
      paymentTarget := terms.paymentTarget
      beneficiary := terms.beneficiary
      paymentPolicyHash := terms.paymentPolicyHash
      splitPolicyHash := terms.splitPolicyHash
      pricePolicyHash := terms.pricePolicyHash
      rightsPolicyHash := terms.rightsPolicyHash }

def setPaymentTarget (docType : Bytes)
    (expectedVersion : UInt64) (terms : PaymentTerms) (authority : CallAuthority)
    (guard : MutationGuard) : Contract UInt64 := do
  let hash ← check fun _ => validateName name
  let docTypeHash ← check fun _ => validateDocType docType
  check fun _ => validatePrincipal terms.beneficiary
  check (requireActiveName · msg.now hash name)
  check (authorizeUpdate · msg hash name docType permissionSetPayment opSetPayment authority guard)
  let current ← load fun storage =>
    storage.currentDocumentVersions (lineageStateKey storage hash) docTypeHash
  revertIf (current ≠ expectedVersion) (.staleDocumentVersion name docType expectedVersion current)
  revertIf (current = 0) (.documentNotFound name docType)
  let document ← load (·.documents hash docTypeHash current)
  store (putDocument hash docTypeHash current (repricedDocument chain terms document))
  store (updateName hash fun state => { state with paymentPolicyHash := terms.paymentPolicyHash })
  bumpNameSeq hash
  touchName msg hash
  commitEvent chain msg "payment_target_updated"
    [.digest hash, .digest docTypeHash, .address terms.paymentTarget,
      .bytes32 terms.paymentPolicyHash, .uint64 current]
  emit (.paymentTargetUpdated hash name docType msg.sender terms.paymentTarget
    terms.paymentPolicyHash current)
  pure current

def publishLogCheckpoint (issuer : Principal)
    (externalAnchor : Bytes32) : Contract LogCheckpoint := do
  check fun _ => validatePrincipal issuer
  let logRoot ← load (·.currentLogRoot)
  let lastSeq ← load (·.globalEventSeq)
  let checkpoint : LogCheckpoint :=
    { logRoot
      lastSeq
      issuedAt := msg.now
      issuer
      externalAnchor }
  store fun storage => { storage with latestCheckpoint := checkpoint }
  commitEvent chain msg "log_checkpoint_published"
    [.bytes32 logRoot, .uint64 lastSeq, .uint64 msg.now, .bytes32 externalAnchor]
  emit (.logCheckpointPublished logRoot msg.sender lastSeq msg.now externalAnchor)
  pure checkpoint

end Facets

/-- A call of a mutating external function with its arguments. -/
inductive BnsCall
  | registerName (name : Bytes) (assetOwner : Address) (options : RegisterOptions)
      (authorityUpdates : List AuthorityKeyUpdate)
      (semanticOwnerAfterAuthority : Principal)
      (controllerPolicy : List ControllerRule) (controllerPolicyHash : Bytes32)
      (initialDocuments : List DocumentUpdate) (authority : CallAuthority)
      (guard : MutationGuard)
  | renewName (name : Bytes) (duration : UInt64)
  | setNameOwner (name : Bytes) (semanticOwner : Principal)
      (authority : CallAuthority) (guard : MutationGuard)
  | releaseName (name : Bytes) (mode : ReleaseMode) (reasonHash : Bytes32)
      (authority : CallAuthority) (guard : MutationGuard)
  | setNamespacePolicy (name : Bytes) (allowDelegatedSubnames : Bool)
      (namespacePolicyHash : Bytes32) (authority : CallAuthority)
      (guard : MutationGuard)
  | transferName (name : Bytes) (newAssetOwner : Address)
      (newSemanticOwner : Principal) (atomicDocumentUpdates : List DocumentUpdate)
      (authority : CallAuthority) (guard : MutationGuard)
  | applyMutations (name : Bytes) (authorityUpdates : List AuthorityKeyUpdate)
      (documents : List DocumentUpdate) (ownerPolicy : OwnerPolicyUpdate)
      (authority : CallAuthority) (guard : MutationGuard)
  | updateAuthorityKeys (name : Bytes) (updates : List AuthorityKeyUpdate)
      (authority : CallAuthority) (guard : MutationGuard)
  | setMinDocumentIat (name : Bytes) (minDocumentIat : UInt64)
      (reasonHash : Bytes32) (authority : CallAuthority) (guard : MutationGuard)
  | publishDocument (name : Bytes) (update : DocumentUpdate)
      (authority : CallAuthority) (guard : MutationGuard)
  | revokeDocument (name docType : Bytes) (expectedVersion : UInt64)
      (reasonHash : Bytes32) (authority : CallAuthority) (guard : MutationGuard)
  | setControllerPolicy (name : Bytes) (rules : List ControllerRule)
      (policyHash : Bytes32) (authority : CallAuthority) (guard : MutationGuard)
  | setDidAlias (name targetDid : Bytes) (kind : AliasKind) (proofHash : Bytes32)
      (authority : CallAuthority) (guard : MutationGuard)
  | setPaymentTarget (name docType : Bytes) (expectedVersion : UInt64)
      (terms : PaymentTerms) (authority : CallAuthority) (guard : MutationGuard)
  | publishLogCheckpoint (issuer : Principal) (externalAnchor : Bytes32)
  deriving DecidableEq

def execute : BnsCall → Contract Unit
  | .registerName name assetOwner options updates owner rules rulesHash documents authority guard =>
      ignoreResult (registerName chain msg name assetOwner options updates owner rules
        rulesHash documents authority guard)
  | .renewName name duration => ignoreResult (renewName chain msg name duration)
  | .setNameOwner name owner authority guard =>
    ignoreResult (setNameOwner chain msg name owner authority guard)
  | .releaseName name mode reasonHash authority guard =>
    ignoreResult (releaseName chain msg name mode reasonHash authority guard)
  | .setNamespacePolicy name allow policyHash authority guard =>
    ignoreResult (setNamespacePolicy chain msg name allow policyHash authority guard)
  | .transferName name assetOwner owner documents authority guard =>
    ignoreResult (transferName chain msg name assetOwner owner documents authority guard)
  | .applyMutations name updates documents policy authority guard =>
    ignoreResult (applyMutations chain msg name updates documents policy authority guard)
  | .updateAuthorityKeys name updates authority guard =>
    ignoreResult (updateAuthorityKeys chain msg name updates authority guard)
  | .setMinDocumentIat name floor reasonHash authority guard =>
    ignoreResult (setMinDocumentIat chain msg name floor reasonHash authority guard)
  | .publishDocument name update authority guard =>
    ignoreResult (publishDocument chain msg name update authority guard)
  | .revokeDocument name docType version reasonHash authority guard =>
    ignoreResult (revokeDocument chain msg name docType version reasonHash authority guard)
  | .setControllerPolicy name rules policyHash authority guard =>
    ignoreResult (setControllerPolicy chain msg name rules policyHash authority guard)
  | .setDidAlias name targetDid kind proofHash authority guard =>
    ignoreResult (setDidAlias chain msg name targetDid kind proofHash authority guard)
  | .setPaymentTarget name docType version terms authority guard =>
    ignoreResult (setPaymentTarget chain msg name docType version terms authority guard)
  | .publishLogCheckpoint issuer anchor =>
    ignoreResult (publishLogCheckpoint chain msg issuer anchor)

/-- The name a call is about; a checkpoint has none. -/
def BnsCall.name : BnsCall → Option Bytes
  | .registerName name .. | .renewName name .. | .setNameOwner name ..
  | .releaseName name .. | .setNamespacePolicy name .. | .transferName name ..
  | .applyMutations name .. | .updateAuthorityKeys name ..
  | .setMinDocumentIat name .. | .publishDocument name .. | .revokeDocument name ..
  | .setControllerPolicy name .. | .setDidAlias name .. | .setPaymentTarget name .. => some name
  | .publishLogCheckpoint .. => none

def BnsCall.registers : BnsCall → Option Bytes
  | .registerName name .. => some name
  | _ => none

/-- A call as the outside world sees it: it commits its storage and logs, or
reverts. -/
def runCall (call : BnsCall) (storage : Storage) : Except Revert (Storage × List BnsEvent) :=
  match execute chain msg call { storage, logs := [] } with
  | .ok (_, machine) => .ok (machine.storage, machine.logs)
  | .error error => .error error

end CyfsGateway.BnsFacets
