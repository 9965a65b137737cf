import CyfsGateway.Bns.Storage

/-!
# Internal mutations of the BNS contract

The state-changing functions of `BnsCore.sol`.  A running call holds the
storage and the logs it has emitted; a revert discards both.
-/

namespace CyfsGateway.BnsCore

open Evm Reverting BnsTypes BnsValidation BnsStorage

structure Machine where
  storage : Storage
  logs : List BnsEvent

abbrev Contract (Value : Type) := Exec Machine Revert Value

def check {Value : Type} (query : Storage → Except Revert Value) : Contract Value :=
  view fun machine => query machine.storage

def load {Value : Type} (component : Storage → Value) : Contract Value :=
  view fun machine => .ok (component machine.storage)

def store (change : Storage → Storage) : Contract Unit :=
  modify fun machine => { machine with storage := change machine.storage }

def emit (event : BnsEvent) : Contract Unit :=
  modify fun machine => { machine with logs := machine.logs ++ [event] }

def add (left right : UInt64) : Contract UInt64 :=
  view fun _ =>
    match checkedAdd left right with
    | some total => .ok total
    | none => .error .arithmeticOverflow

variable (chain : Deployment) (msg : Message) (hash stateKey : Digest) (name : Bytes)

def updateName (change : NameState → NameState) (storage : Storage) :
    Storage :=
  { storage with
    names := Function.update storage.names hash (change (storage.names hash)) }

/-- `_activateLineageState`: mark the derived key of a lineage after the first. -/
def activateLineageState (lineageEpoch : UInt64) (storage : Storage) :
    Storage :=
  if lineageEpoch = 0 then storage
  else
    { storage with
      currentDocumentVersions :=
        Function.update storage.currentDocumentVersions (lineageKey hash lineageEpoch)
          (Function.update
            (storage.currentDocumentVersions (lineageKey hash lineageEpoch))
            lineageStateMarker lineageEpoch) }

def rememberNameHash (storage : Storage) : Storage :=
  if storage.knownNameHash hash then storage
  else
    { storage with
      knownNameHash := Function.update storage.knownNameHash hash true
      nameHashes := storage.nameHashes ++ [hash] }

def setCurrentVersion (docTypeHash : Digest) (version : UInt64) (storage : Storage) : Storage :=
  { storage with
    currentDocumentVersions :=
      Function.update storage.currentDocumentVersions stateKey
        (Function.update (storage.currentDocumentVersions stateKey) docTypeHash version) }

def putDocument (docTypeHash : Digest) (version : UInt64)
    (document : DocumentState) (storage : Storage) : Storage :=
  { storage with
    documents :=
      Function.update storage.documents hash
        (Function.update (storage.documents hash) docTypeHash
          (Function.update (storage.documents hash docTypeHash) version document)) }

def updatedKeyStatus (update : AuthorityKeyUpdate) : AuthorityKeyStatus :=
  if update.active then
    if update.key.status = .missing then .active else update.key.status
  else .revoked

def storedKey (update : AuthorityKeyUpdate) : AuthorityKey :=
  { update.key with status := updatedKeyStatus update }

def rememberAuthorityKey (kid : Bytes32) (storage : Storage) :
    Storage :=
  if storage.knownAuthorityKey stateKey kid then storage
  else
    { storage with
      knownAuthorityKey :=
        Function.update storage.knownAuthorityKey stateKey
          (Function.update (storage.knownAuthorityKey stateKey) kid true)
      authorityKeyIds :=
        Function.update storage.authorityKeyIds stateKey
          (storage.authorityKeyIds stateKey ++ [kid]) }

def putAuthorityKey (update : AuthorityKeyUpdate) (storage : Storage) : Storage :=
  let known := rememberAuthorityKey stateKey update.key.kid storage
  { known with
    authorityKeys :=
      Function.update known.authorityKeys stateKey
        (Function.update (known.authorityKeys stateKey) update.key.kid
          (storedKey update)) }

def putAuthoritySet (set : AuthoritySetState) (storage : Storage) :
    Storage :=
  { storage with
    authoritySets := Function.update storage.authoritySets stateKey set }

def putControllerPolicy (rules : List ControllerRule) (storage : Storage) : Storage :=
  { storage with
    controllerPolicies := Function.update storage.controllerPolicies stateKey rules }

def putAlias (state : AliasState) (storage : Storage) : Storage :=
  { storage with aliases := Function.update storage.aliases stateKey state }

def ignoreResult {Value : Type} (body : Contract Value) : Contract Unit := do
  let _ ← body
  pure ()

def eventHash (eventType : String) : Digest := .keccak256 (text eventType)

/-- `_commitEvent(eventType, keccak256(abi.encode(payload)))`. -/
def commitEvent (eventType : String) (payload : List AbiValue) : Contract Unit := do
  let previous ← load (·.currentLogRoot)
  let before ← load (·.globalEventSeq)
  let seq ← add before 1
  let logRoot := chain.keccak256 (.encodePacked
    [.bytes32 previous, .uint256 chain.chainId, .address chain.self, .uint64 seq,
      .digest (eventHash eventType), .bytes32 (chain.keccak256 (.encode payload))])
  store fun storage => { storage with globalEventSeq := seq, currentLogRoot := logRoot }
  emit (.protocolEvent seq (eventHash eventType) msg.sender previous logRoot)

/-! ## Documents -/

/-- `_hashDocumentState`: every field of the document but the hash itself. -/
def hashDocumentState (document : DocumentState) : Bytes32 :=
  chain.keccak256 (.encode [.bytes document.name, .bytes document.docType, .uint64 document.version,
      .uint64 document.previousVersion, .enumeration document.status.index,
      .bytes32 document.document.storageType, .bytes document.document.uri,
      .bytes32 (chain.keccak256 (.bytes document.document.inlineDocument)),
      .bytes32 document.document.contentHash, .bytes32 document.document.schema,
      .bytes32 document.document.codec, .bytes32 document.document.extraHash,
      .enumeration document.controller.kind.index,
      .bytes32 (chain.keccak256 (.bytes document.controller.value)),
      .enumeration document.beneficiary.kind.index,
      .bytes32 (chain.keccak256 (.bytes document.beneficiary.value)),
      .address document.paymentTarget, .uint64 document.validFrom,
      .uint64 document.expireAt, .uint64 document.revokedAt,
      .bytes32 document.controllerPolicyHash, .bytes32 document.paymentPolicyHash,
      .bytes32 document.splitPolicyHash, .bytes32 document.pricePolicyHash,
      .bytes32 document.rightsPolicyHash, .uint256 chain.chainId, .address chain.self])

def sealDocument (document : DocumentState) : DocumentState :=
  { document with documentStateHash := hashDocumentState chain document }

def publishedDocument
    (update : DocumentUpdate) (version previousVersion : UInt64) : DocumentState :=
  sealDocument chain
    { name
      docType := update.docType
      version
      previousVersion
      status := .active
      document := update.document
      controller := update.controller
      beneficiary := update.beneficiary
      paymentTarget := update.paymentTarget
      validFrom := msg.now
      expireAt := update.expireAt
      revokedAt := 0
      controllerPolicyHash := update.controllerPolicyHash
      paymentPolicyHash := update.paymentPolicyHash
      splitPolicyHash := update.splitPolicyHash
      pricePolicyHash := update.pricePolicyHash
      rightsPolicyHash := update.rightsPolicyHash }

/-- Allocate the next whole-life version of a document type and point the live
lineage at it. -/
def advanceVersion (docTypeHash : Digest) : Contract UInt64 := do
  let latest ← load (·.currentDocumentVersions hash docTypeHash)
  let version ← add latest 1
  store (setCurrentVersion hash docTypeHash version)
  runIf (stateKey ≠ hash) (store (setCurrentVersion stateKey docTypeHash version))
  pure version

/-- `nameSeq += 1`. -/
def bumpNameSeq : Contract Unit := do
  let seq ← load fun storage => (storage.names hash).nameSeq
  let next ← add seq 1
  store (updateName hash fun state => { state with nameSeq := next })

def recordOwnerDocument (docType : Bytes) (version : UInt64) : Contract Unit :=
  runIf (docType = ownerDocType)
    (store (updateName hash fun state => { state with ownerDocumentVersion := version }))

def touchName : Contract Unit :=
  store (updateName hash fun state => { state with updatedAt := msg.now })

def publishDocumentInternal (update : DocumentUpdate) (bump : Bool) : Contract UInt64 := do
  let docTypeHash ← check fun _ => validateDocType update.docType
  check fun _ => validateDocumentRef chain update.document
  check fun _ => validatePrincipal update.controller
  check fun _ => validatePrincipal update.beneficiary
  let stateKey ← load (lineageStateKey · hash)
  let actualVersion ← load (·.currentDocumentVersions stateKey docTypeHash)
  revertIf (actualVersion ≠ update.expectedVersion)
    (.staleDocumentVersion name update.docType update.expectedVersion actualVersion)
  let version ← advanceVersion hash stateKey docTypeHash
  let document := publishedDocument chain msg name update version actualVersion
  store (putDocument hash docTypeHash version document)
  recordOwnerDocument hash update.docType version
  runIf (bump = true) (bumpNameSeq hash)
  touchName msg hash
  commitEvent chain msg "document_published" [.digest hash, .digest docTypeHash, .uint64 version,
      .bytes32 update.document.contentHash, .bytes32 document.documentStateHash]
  emit (.documentPublished hash name update.docType version msg.sender
    update.document.contentHash document.documentStateHash)
  pure version

def publishDocuments (updates : List DocumentUpdate) : Contract Unit :=
  forEach (fun update => ignoreResult (publishDocumentInternal chain msg hash name update false))
    updates

def setControllerPolicyInternal (rules : List ControllerRule) (policyHash : Bytes32)
    (bump : Bool) : Contract UInt64 := do
  let stateKey ← load (lineageStateKey · hash)
  store (putControllerPolicy stateKey [])
  forEach (fun rule => do
      check fun _ => validateControllerRule rule
      check (requireActiveAuthoritySet · msg.now rule.controller)
      store fun storage =>
        putControllerPolicy stateKey (storage.controllerPolicies stateKey ++ [rule]) storage)
    rules
  runIf (bump = true) (bumpNameSeq hash)
  touchName msg hash
  let nameSeq ← load fun storage => (storage.names hash).nameSeq
  commitEvent chain msg "controller_policy_updated"
    [.digest hash, .bytes32 policyHash, .uint64 nameSeq]
  emit (.controllerPolicyUpdated hash name msg.sender policyHash nameSeq)
  pure nameSeq

def setMinDocumentIatInternal (minDocumentIat : UInt64) (reasonHash : Bytes32) (bump : Bool) :
    Contract (UInt64 × UInt64) := do
  let previous ← load fun storage => (storage.names hash).minDocumentIat
  revertIf (minDocumentIat < previous) (invalidMutation "MIN_DOCUMENT_IAT_REGRESSION")
  runIf (bump = true) (bumpNameSeq hash)
  let policySeq ← load fun storage => (storage.names hash).ownerPolicySeq
  let ownerPolicySeq ← add policySeq 1
  store (updateName hash fun state => { state with minDocumentIat, ownerPolicySeq })
  touchName msg hash
  let nameSeq ← load fun storage => (storage.names hash).nameSeq
  commitEvent chain msg "owner_iat_floor_updated"
    [.digest hash, .uint64 previous, .uint64 minDocumentIat, .uint64 ownerPolicySeq,
      .uint64 nameSeq, .bytes32 reasonHash]
  emit (.ownerDocumentIatFloorUpdated hash name msg.sender previous minDocumentIat
    ownerPolicySeq nameSeq reasonHash)
  pure (nameSeq, ownerPolicySeq)

/-! ## Authority keys -/

def extendAuthorityRoot (root : Bytes32) (key : AuthorityKey) :
    Bytes32 :=
  chain.keccak256 (.encodePacked [.bytes32 root, .bytes32 key.kid, .bytes32 key.verificationMethod,
      .bytes32 (chain.keccak256 (.bytes key.keyData)), .uint32 key.purposes,
      .uint64 key.validFrom, .uint64 key.validUntil,
      .enumeration key.status.index, .bytes32 key.metadataHash])

/-- `_recomputeAuthoritySet`.  Its `uint32` key count panics past `2^32 - 1`. -/
def recomputeAuthoritySet (storage : Storage) (now : UInt64)
    (hash : Digest) (name : Bytes) : Except Revert AuthoritySetState :=
  let stateKey := lineageStateKey storage hash
  let keys := (storage.authorityKeyIds stateKey).map (storage.authorityKeys stateKey)
  let activeCount := keys.countP fun key => isActiveKey key keyPurposeAuthentication now
  if activeCount < 2 ^ 32 then
    match checkedAdd (storage.authoritySets stateKey).authoritySeq 1 with
    | some authoritySeq => .ok
        { name
          authoritySeq
          authorityRoot := keys.foldl (extendAuthorityRoot chain) .zero
          activeKeyCount := UInt32.ofNat activeCount }
    | none => .error .arithmeticOverflow
  else .error .arithmeticOverflow

def applyAuthorityUpdates (updates : List AuthorityKeyUpdate) : Contract AuthoritySetState := do
  revertIf (updates.length > maxMutationBatchItems) (invalidMutation "MUTATION_BATCH_TOO_LARGE")
  let stateKey ← load (lineageStateKey · hash)
  forEach (fun update => do
      revertIf (update.key.kid = .zero) (.invalidKid update.key.kid)
      revertIf (update.key.verificationMethod = .zero) (.invalidKid update.key.kid)
      store (putAuthorityKey stateKey update))
    updates
  let set ← check (recomputeAuthoritySet chain · msg.now hash name)
  let previous ← load (·.authoritySets stateKey)
  revertIf (set.activeKeyCount = 0 ∧ previous.activeKeyCount > 0) .noConcreteSigner
  store (putAuthoritySet stateKey set)
  commitEvent chain msg "authority_keys_updated"
    [.digest hash, .uint64 set.authoritySeq, .bytes32 set.authorityRoot]
  emit (.authorityKeysUpdated hash name msg.sender set.authoritySeq set.authorityRoot)
  pure set

def validateInitialDocuments (chain : Deployment) (name : Bytes) :
    List DocumentUpdate → Except Revert Unit
  | [] => .ok ()
  | update :: rest => do
      let _ ← validateDocType update.docType
      if update.expectedVersion ≠ 0 then
        .error (.staleDocumentVersion name update.docType update.expectedVersion 0)
      else do
        validateDocumentRef chain update.document
        validatePrincipal update.controller
        validatePrincipal update.beneficiary
        validateInitialDocuments chain name rest

def authorizeRegistration (storage : Storage) (msg : Message) (name : Bytes)
    (authority : CallAuthority) (guard : MutationGuard) : Except Revert Unit :=
  let parent := parentName name
  if parent.length = 0 then
    if authority.role ≠ .none then .error (invalidMutation "ROOT_AUTHORITY_NOT_USED")
    else .ok ()
  else do
    requireActiveName storage msg.now (nameHash parent) parent
    if (storage.names (nameHash parent)).nameSeq ≠ guard.expectedParentNameSeq then
      .error (.staleParentNameSeq parent guard.expectedParentNameSeq
        (storage.names (nameHash parent)).nameSeq)
    else authorizeOwner storage msg (nameHash parent) parent authority

def registeredState (assetOwner : Address)
    (options : RegisterOptions) (expireAt graceUntil nameSeq lineageEpoch : UInt64) :
    NameState :=
  { name
    assetOwner
    semanticOwner := options.initialSemanticOwner
    effectiveOwner := {}
    ownerSource := .none
    standardTransferEnabled := false
    status := .active
    registeredAt := msg.now
    expireAt
    graceUntil
    updatedAt := msg.now
    nameSeq
    ownerDocumentVersion := 0
    minDocumentIat := 0
    ownerPolicySeq := 0
    lineageEpoch
    renewable := options.renewable
    transferable := options.transferable
    allowDelegatedSubnames := options.allowDelegatedSubnames
    namespacePolicyHash := options.initialNamespacePolicyHash
    paymentPolicyHash := options.initialPaymentPolicyHash
    aliasStateHash := .zero }

/-- `existing.nameSeq == 0 ? 0 : existing.lineageEpoch + 1`. -/
def nextLineageEpoch (existing : NameState) : Contract UInt64 :=
  if existing.nameSeq = 0 then pure 0 else add existing.lineageEpoch 1

def registerNameHash (assetOwner : Address) (options : RegisterOptions)
    (initialDocuments : List DocumentUpdate) (authority : CallAuthority)
    (guard : MutationGuard) : Contract Digest := do
  revertIf (assetOwner = .zero) .invalidPrincipal
  revertIf (options.duration = 0) (invalidMutation "BAD_DURATION")
  let hash ← check fun _ => validateName name
  check fun _ => validateSemanticOwner options.initialSemanticOwner
  check (requireActiveAuthoritySet · msg.now options.initialSemanticOwner)
  let existing ← load (·.names hash)
  revertIf (existing.status = .active ∨ existing.status = .expired ∨
    existing.status = .tombstoned) (.nameAlreadyExists name)
  check (authorizeRegistration · msg name authority guard)
  check fun _ => validateInitialDocuments chain name initialDocuments
  store (rememberNameHash hash)
  let nextSeq ← add existing.nameSeq 1
  let lineageEpoch ← nextLineageEpoch existing
  let expireAt ← add msg.now options.duration
  let graceUntil ← add expireAt options.gracePeriod
  store (updateName hash fun _ =>
    registeredState msg name assetOwner options expireAt graceUntil nextSeq lineageEpoch)
  store (activateLineageState hash lineageEpoch)
  check (validateOwnerPath · msg.now hash)
  commitEvent chain msg "name_registered"
    [.digest hash, .address assetOwner, .uint64 expireAt, .uint64 lineageEpoch, .uint64 nextSeq]
  emit (.nameRegistered hash name assetOwner msg.sender expireAt lineageEpoch nextSeq)
  publishDocuments chain msg hash name initialDocuments
  pure hash

def announceOwner (state : NameState) : Contract Unit := do
  commitEvent chain msg "name_owner_updated"
    [.digest hash, .enumeration state.semanticOwner.kind.index,
      .bytes state.semanticOwner.value, .enumeration state.ownerSource.index,
      .bool state.standardTransferEnabled, .uint64 state.nameSeq]
  emit (.nameOwnerUpdated hash name msg.sender state.semanticOwner.kind
    state.semanticOwner.value state.ownerSource state.standardTransferEnabled
    state.nameSeq)

end CyfsGateway.BnsCore
