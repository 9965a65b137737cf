import CyfsGateway.Sn.Idempotency

/-!
# The SN controller

The operations of `SnBnsController`.  Each one checks its parameters and yields
an `Operation`: under which request it runs, and the plan that reads the indexer
and decides what to write.
-/

namespace CyfsGateway.SnController

open Evm Checks Tasks JsonValues
open BnsTypes (AuthorityRole MutationGuard DocumentStatus)
open BnsModel SnRequests SnActions SnEvmClient SnDocuments SnIdempotency

structure SnBnsControllerConfig where
  snControllerPrincipal : Principal
  snControllerKid : Bytes
  allowedControllerDocTypes : List Bytes
  maxInlineDocumentSize : Nat
  writeRetryLimit : Nat

def checkAllowedDocType (docType : Bytes) : SnBnsControllerResult Unit :=
  if docType.isEmpty then .ok ()
  else do
    let _ ← fromRegistryResult (canonicalDocType docType)
    if docType = ownerDocType then
      .error (.invalidInput
        (text "SN controller cannot be explicitly allowed to write owner doc_type `" ++
          docType ++ text "`"))
    else .ok ()

variable (config : SnBnsControllerConfig) (authority : CallAuthority)

def SnBnsControllerConfig.validate : SnBnsControllerResult Unit := do
  fromRegistryResult config.snControllerPrincipal.validate
  reject (config.snControllerPrincipal.kind = .unset)
    (.invalidInput (text "SN controller principal cannot be unset"))
  config.allowedControllerDocTypes.forM checkAllowedDocType

/-- `controller_rule` with `PERMISSION_PUBLISH_DOCUMENT`. -/
def publishRule (controller : Principal) (docType : Bytes) : ControllerRule where
  controller := controller
  docType := docType
  permissions := 1
  namespaceScopeHash := zeroHash
  validFrom := 0
  validUntil := 0
  constraintHash := zeroHash

def SnBnsControllerConfig.snControllerPolicy : SnBnsControllerResult (List ControllerRule) := do
  config.validate
  pure (config.allowedControllerDocTypes.map (publishRule config.snControllerPrincipal))

structure SnBnsController where
  config : SnBnsControllerConfig
  client : BnsEvmControllerClient

def ensureOwnerAuthority (docType : Bytes) : SnBnsControllerResult Unit :=
  if authority.role = .owner then .ok ()
  else .error (.invalidInput (text "doc_type `" ++ docType ++ text "` requires owner authority"))

def ensureOwnerAuthorityOrPublicRegistration : SnBnsControllerResult Unit :=
  if authority.role = .owner ∨ authority.role = .none then .ok ()
  else .error (.invalidInput (text
    ("register_name requires owner authority for subnames or public authority " ++
      "for root registration")))

def ensureAuthorityCanPublish (docType : Bytes) : SnBnsControllerResult Unit :=
  match authority.role with
  | .owner => .ok ()
  | .controller =>
    if !config.allowedControllerDocTypes.any
        (fun allowed => allowed.isEmpty || allowed = docType) then
      .error (.invalidInput
        (text "SN controller is not allowed to publish doc_type `" ++ docType ++ text "`"))
    else if authority.actor ≠ config.snControllerPrincipal then
      .error (.invalidInput
        (text "controller authority actor does not match configured SN controller"))
    else if authority.actor.kind = .bnsName ∧ authority.kid ≠ config.snControllerKid then
      .error (.invalidInput
        (text "controller authority kid does not match configured SN controller key"))
    else .ok ()
  | .none => .error (.invalidInput
      (text "doc_type `" ++ docType ++ text "` requires owner or controller authority"))

/-! ## Reading the indexer -/

def currentDocumentState (name docType : Bytes) : ControllerProgram (Option DocumentState) := do
  let result : BnsClientResult ResolveResult ← effect (Action.resolveDocument name docType)
  match result with
  | .ok result =>
    if result.status = .missing then pure none else pure (some result.documentState)
  | .error error =>
    match error with
    | .registry code _ =>
      if code = text "DOCUMENT_NOT_FOUND" then pure none else throw (.bns error)
    | _ => throw (.bns error)

def requiredNameState (name : Bytes) : ControllerProgram NameState := do
  let state : BnsClientResult (Option NameState) ← effect (Action.queryNameState name)
  match state with
  | .ok (some state) => pure state
  | .ok none =>
    throw (.bns (.registry (text "NAME_NOT_FOUND")
      (text "name `" ++ name ++ text "` was not found")))
  | .error error => throw (.bns error)

def getAuthoritySet (name : Bytes) : ControllerProgram AuthoritySetState :=
  mapError .bns (fallible (perform (Action.getAuthoritySet name)))

def expectedVersion (current : Option DocumentState) : UInt64 :=
  match current with
  | some state => state.version
  | none => 0

def receiptFromSubmittedDocument (requestId : Bytes) (operation : BnsWriteOperation)
    (nameState : NameState) (update : DocumentUpdate) (authoritySet : AuthoritySetState)
    (submission : BnsEvmTxSubmission) : BnsWriteReceipt where
  requestId := requestId
  name := nameState.name
  operation := operation
  nameSeq := nameState.nameSeq
  docType := some update.docType
  documentVersion := some (update.expectedVersion + 1)
  contentHash := some update.document.contentHash
  documentStateHash := none
  authoritySeq := authoritySet.authoritySeq
  authorityRoot := authoritySet.authorityRoot
  controllerPolicyHash := some update.controllerPolicyHash
  evmChainId := some submission.chainId
  evmNonce := some submission.nonce
  evmTxHash := some submission.txHash
  evmRawTx := some submission.rawTx
  createdOrReused := false

def registerOutputFromSubmission (requestId name controllerPolicyHash : Bytes)
    (submission : BnsEvmTxSubmission) : WriteOutput :=
  .register
    { requestId
      name
      operation := .registerName
      nameSeq := 0
      docType := none
      documentVersion := none
      contentHash := none
      documentStateHash := none
      authoritySeq := 0
      authorityRoot := zeroHash
      controllerPolicyHash := some controllerPolicyHash
      evmChainId := some submission.chainId
      evmNonce := some submission.nonce
      evmTxHash := some submission.txHash
      evmRawTx := some submission.rawTx
      createdOrReused := false }

def nameGuard (nameState : NameState) : MutationGuard where
  expectedNameSeq := nameState.nameSeq
  expectedParentNameSeq := 0

def publishDocumentUpdateOnce (requestId : Bytes) (operation : BnsWriteOperation)
    (name : Bytes) (update : DocumentUpdate) (authority : CallAuthority) :
    ControllerProgram Write := do
  let nameState ← requiredNameState name
  let authoritySet ← getAuthoritySet name
  pure
    { request := .publishDocument
        { name, update, authority,
          guard := nameGuard nameState }
      output := fun submission => .single
        (receiptFromSubmittedDocument requestId operation nameState update authoritySet
          submission) }

section Operations

variable (formats : Formats) (config : SnBnsControllerConfig)

def publishJsonDocumentWithExpectedOnce (requestId : Bytes) (operation : BnsWriteOperation)
    (name docType : Bytes) (expected : UInt64) (document : Value)
    (authority : CallAuthority) : ControllerProgram Write := do
  let update ← computed
    (inlineJsonUpdate formats config.maxInlineDocumentSize docType expected document)
  publishDocumentUpdateOnce requestId operation name update authority

def publishJsonDocumentOnce (requestId : Bytes) (operation : BnsWriteOperation)
    (name docType : Bytes) (document : Value) (authority : CallAuthority) :
    ControllerProgram Write := do
  let current ← currentDocumentState name docType
  publishJsonDocumentWithExpectedOnce formats config requestId operation name docType
    (expectedVersion current) document authority

def publishInlineDocumentOnce (requestId : Bytes) (operation : BnsWriteOperation)
    (name docType : Bytes) (document : Value) (authority : CallAuthority) :
    ControllerProgram Write := do
  let current ← currentDocumentState name docType
  let update ← computed (inlineContentUpdate formats config.maxInlineDocumentSize
    docType (expectedVersion current) document)
  publishDocumentUpdateOnce requestId operation name update authority

variable (current : Option DocumentState)

/-- The identity fields of the current document, if there is one, are kept. -/
def checkOwnerIdentity (next : Value) : SnBnsControllerResult Unit :=
  match current with
  | some state => do
      let document ← parseInlineDocument formats.fromSlice state
      ensureOwnerIdentityFieldsUnchanged document next
  | none => .ok ()

variable (params : PublishDocumentParams)

def publishGuardedOwnerDocumentOnce : ControllerProgram Write := do
  let current ← currentDocumentState params.name ownerDocType
  computed (checkOwnerIdentity formats current params.document)
  publishJsonDocumentWithExpectedOnce formats config params.requestId .publishDocument
    params.name ownerDocType (expectedVersion current) params.document params.authority

def currentTxtRecords : SnBnsControllerResult (List DnsTxtRecord) :=
  match current with
  | some state => txtRecordsFromDocument formats state
  | none => .ok []

def upsertDnsTxtOnce (params : UpsertDnsTxtParams) : ControllerProgram Write := do
  let current ← currentDocumentState params.name dnsTxtDocType
  let records ← computed (currentTxtRecords formats current)
  let records ← computed (applyTxtUpdate records params.update)
  let update ← computed (dnsTxtUpdate formats config.maxInlineDocumentSize
    (expectedVersion current) records)
  publishDocumentUpdateOnce params.requestId .upsertDnsTxt params.name update params.authority

def currentDevices : SnBnsControllerResult DeviceMiniDocCollection :=
  match current with
  | some state => parseInlineDocument formats.devicesFromSlice state
  | none => .ok {}

def publishDeviceMiniDocOnce (params : PublishDeviceMiniDocParams) : ControllerProgram Write := do
  let current ← currentDocumentState params.name deviceMiniDocType
  let collection ← computed (currentDevices formats current)
  let entry ← computed (normalizeDeviceMiniDocEntry params.did params.deviceMiniDoc)
  let collection :=
    { collection with devices := insertField params.deviceName entry collection.devices }
  publishJsonDocumentWithExpectedOnce formats config params.requestId .publishDeviceMiniDoc
    params.name deviceMiniDocType (expectedVersion current) collection.toValue params.authority

def ownerDocumentMissing (name : Bytes) : SnBnsControllerError :=
  .invalidInput (text "owner document for `" ++ name ++ text "` does not exist")

def requiredOwnerDocument (name : Bytes) : ControllerProgram DocumentState := do
  let current ← currentDocumentState name ownerDocType
  match current with
  | some state => pure state
  | none => throw (ownerDocumentMissing name)

structure OwnerDocumentSnapshot where
  document : Value
  version : UInt64
  hash : Bytes

def ownerSnapshot (state : DocumentState) : SnBnsControllerResult OwnerDocumentSnapshot := do
  let document ← parseInlineDocument formats.fromSlice state
  let hash ← fromRegistryResult (canonicalJsonSha256 formats document)
  pure ⟨document, state.version, hash⟩

/-- The `iat` of the next owner document. -/
def advanceIat (now : UInt64) (document : Value) : SnBnsControllerResult Value :=
  match document with
  | .object fields =>
    match (fields.lookup (text "iat")).bind asU64 with
    | none => .error (.invalidInput (text "owner document iat must be an unsigned integer"))
    | some previous =>
      if previous.toNat + 1 < 2 ^ 64 then
        .ok (.object (insertField (text "iat") (.number (.posInt (max now (previous + 1)))) fields))
      else .error (.invalidInput (text "owner document iat overflow"))
  | _ => .error (.invalidInput (text "owner document iat must be an unsigned integer"))

/-- Whether the zone may be an implicit binding of the same name. -/
def allowsLegacy (document : Value) (name zoneDid : Bytes) : ControllerProgram Bool :=
  if legacyImplicitSameNameCandidate document name zoneDid then do
    let zone ← currentDocumentState name zoneDocType
    pure zone.isSome
  else pure false

def removeBoundZoneOnce (params : RemoveBoundZoneParams) : ControllerProgram Write := do
  let current ← requiredOwnerDocument params.name
  let source ← computed (ownerSnapshot formats current)
  computed (reject (source.hash ≠ params.expectedOwnerHash)
      (.ownerDocumentHashConflict params.expectedOwnerHash source.hash))
  let allowLegacy ← allowsLegacy source.document params.name params.zoneDid
  let removed ← computed (removeOwnerBoundZone formats source.document params.name
    params.zoneDid allowLegacy)
  let now : UInt64 ← effect Action.now
  let result ← computed (advanceIat now removed)
  let resultHash ← computed (fromRegistryResult (canonicalJsonSha256 formats result))
  let update ← computed (inlineJsonUpdate formats config.maxInlineDocumentSize
    ownerDocType current.version result)
  let nameState ← requiredNameState params.name
  let authoritySet ← getAuthoritySet params.name
  pure
    { request := .publishDocument
        { name := params.name, update, authority := params.authority,
          guard := nameGuard nameState }
      output := fun submission =>
        let receipt := receiptFromSubmittedDocument params.requestId .removeBoundZone
          nameState update authoritySet submission
        .removeZone receipt params.expectedOwnerHash resultHash current.version
          (receipt.documentVersion.getD (current.version + 1)) }

/-- The update of the boot document, unless it is null. -/
def bootUpdates (params : BindZoneDocumentsParams) : ControllerProgram (List DocumentUpdate) :=
  if params.bootConfig = .null then pure []
  else do
    let current ← currentDocumentState params.name bootDocType
    let update ← computed (inlineJsonUpdate formats config.maxInlineDocumentSize
      bootDocType (expectedVersion current) params.bootConfig)
    pure [update]

def bindZoneDocumentsOnce (params : BindZoneDocumentsParams) : ControllerProgram Write := do
  let nameState ← requiredNameState params.name
  let current ← currentDocumentState params.name zoneDocType
  let zone ← computed (inlineJsonUpdate formats config.maxInlineDocumentSize
    zoneDocType (expectedVersion current) params.zoneConfig)
  let boot ← bootUpdates formats config params
  let updates := zone :: boot
  let authoritySet ← getAuthoritySet params.name
  pure
    { request := .applyMutations
        { name := params.name, documents := updates, authority := params.authority,
          guard := nameGuard nameState }
      output := fun submission =>
        .multi params.requestId params.name (some submission.chainId) (some submission.nonce)
          (some submission.txHash) (some submission.rawTx)
          (updates.map fun update => receiptFromSubmittedDocument params.requestId
            .bindZoneDocuments nameState update authoritySet submission)
          false }

/-! ## Operations -/

def registerRequest (params : RegisterNameParams) : SnBnsControllerResult BnsRegisterNameReq := do
  ensureOwnerAuthorityOrPublicRegistration params.authority
  let controllerPolicy ← config.snControllerPolicy
  reject (params.initialDocuments.any fun update => update.docType = ownerDocType) (.invalidInput
      (text "initial_documents must not contain owner; pass owner_config instead"))
  let ownerDocument ← inlineJsonUpdate formats config.maxInlineDocumentSize ownerDocType 0
    params.ownerConfig
  let name ← fromRegistryResult (canonicalBnsName params.name)
  pure
    { name
      assetOwner := params.assetOwner
      options := params.registerOptions
      authorityKeyUpdates := params.ownerAuthorityKeys
      semanticOwnerAfterAuthority := params.semanticOwnerAfterAuthority
      controllerPolicy
      controllerPolicyHash := policyHashFromRules formats controllerPolicy
      initialDocuments := ownerDocument :: params.initialDocuments
      authority := params.authority
      guard := params.guard }

def registerName (params : RegisterNameParams) : SnBnsControllerResult Operation := do
  let req ← registerRequest formats config params
  pure
    { requestId := params.requestId
      operation := .registerName
      name := params.name
      docType := none
      payload := .register req
      kind := .register
      plan := pure
        { request := .registerName req
          output := registerOutputFromSubmission params.requestId params.name
            req.controllerPolicyHash } }

def publishOwnerDocument (params : PublishOwnerDocumentParams) :
    SnBnsControllerResult Operation := do
  ensureOwnerAuthority params.authority ownerDocType
  pure
    { requestId := params.requestId
      operation := .publishDocument
      name := params.name
      docType := some ownerDocType
      payload := .publishOwner params
      kind := .single
      plan := publishJsonDocumentOnce formats config params.requestId .publishDocument
        params.name ownerDocType params.ownerConfig params.authority }

def publishDocument : SnBnsControllerResult Operation := do
  ensureOwnerAuthority params.authority params.docType
  pure
    { requestId := params.requestId
      operation := .publishDocument
      name := params.name
      docType := some params.docType
      payload := .publish params
      kind := .single
      plan := publishJsonDocumentOnce formats config params.requestId .publishDocument
        params.name params.docType params.document params.authority }

def isContent : Value → Bool
  | .object _ => true
  | .string value => !isBlank value
  | _ => false

def publishContentDocument : SnBnsControllerResult Operation := do
  reject (params.docType = ownerDocType)
    (.invalidInput (text "owner document must use guarded owner publishing"))
  reject (params.docType = relayAssignmentDocType)
    (.invalidInput (text "relay_assignment must use publish_relay_assignment"))
  reject (!isContent params.document)
    (.invalidInput (text "document must be a JSON object or non-empty text string"))
  ensureAuthorityCanPublish config params.authority params.docType
  pure
    { requestId := params.requestId
      operation := .publishDocument
      name := params.name
      docType := some params.docType
      payload := .publish params
      kind := .single
      retries := config.writeRetryLimit
      plan := publishInlineDocumentOnce formats config params.requestId .publishDocument
        params.name params.docType params.document params.authority }

def publishGuardedOwnerDocument : SnBnsControllerResult Operation := do
  reject (params.docType ≠ ownerDocType)
    (.invalidInput (text "guarded owner publishing requires doc_type `owner`"))
  reject (!isObject params.document) (.invalidInput (text "owner document must be a JSON object"))
  ensureAuthorityCanPublish config params.authority ownerDocType
  pure
    { requestId := params.requestId
      operation := .publishDocument
      name := params.name
      docType := some ownerDocType
      payload := .publish params
      kind := .single
      retries := config.writeRetryLimit
      plan := publishGuardedOwnerDocumentOnce formats config params }

def removeBoundZone (params : RemoveBoundZoneParams) : SnBnsControllerResult Operation := do
  ensureAuthorityCanPublish config params.authority ownerDocType
  fromRegistryResult (validateDid params.zoneDid)
  validateOwnerDocumentHash params.expectedOwnerHash
  pure
    { requestId := params.requestId
      operation := .removeBoundZone
      name := params.name
      docType := some ownerDocType
      payload := .removeBoundZone params
      kind := .removeZone
      plan := removeBoundZoneOnce formats config params }

def bindZoneDocuments (params : BindZoneDocumentsParams) : SnBnsControllerResult Operation := do
  ensureOwnerAuthority params.authority zoneDocType
  reject (!isObject params.zoneConfig) (.invalidInput (text "zone_config must be a JSON object"))
  reject (params.bootConfig ≠ .null ∧ !isObject params.bootConfig)
    (.invalidInput (text "boot_config must be a JSON object when present"))
  pure
    { requestId := params.requestId
      operation := .bindZoneDocuments
      name := params.name
      docType := some zoneDocType
      payload := .bindZone params
      kind := .multi
      plan := bindZoneDocumentsOnce formats config params }

def publishDeviceMiniDoc (params : PublishDeviceMiniDocParams) :
    SnBnsControllerResult Operation := do
  ensureOwnerAuthority params.authority deviceMiniDocType
  validateDeviceName params.deviceName
  fromRegistryResult (validateDid params.did)
  pure
    { requestId := params.requestId
      operation := .publishDeviceMiniDoc
      name := params.name
      docType := some deviceMiniDocType
      payload := .deviceMiniDoc params
      kind := .single
      plan := publishDeviceMiniDocOnce formats config params }

def upsertDnsTxt (params : UpsertDnsTxtParams) : SnBnsControllerResult Operation := do
  ensureAuthorityCanPublish config params.authority dnsTxtDocType
  pure
    { requestId := params.requestId
      operation := .upsertDnsTxt
      name := params.name
      docType := some dnsTxtDocType
      payload := .dnsTxt params
      kind := .single
      retries := config.writeRetryLimit
      plan := upsertDnsTxtOnce formats config params }

def publishRelayAssignment (params : PublishRelayAssignmentParams) :
    SnBnsControllerResult Operation := do
  ensureAuthorityCanPublish config params.authority relayAssignmentDocType
  reject (!isObject params.relayAssignment)
    (.invalidInput (text "relay_assignment must be a JSON object"))
  pure
    { requestId := params.requestId
      operation := .publishRelayAssignment
      name := params.name
      docType := some relayAssignmentDocType
      payload := .relayAssignment params
      kind := .single
      plan := publishInlineDocumentOnce formats config params.requestId .publishRelayAssignment
        params.name relayAssignmentDocType params.relayAssignment params.authority }

end Operations

inductive WriteCall
  | registerName (params : RegisterNameParams)
  | publishOwnerDocument (params : PublishOwnerDocumentParams)
  | publishDocument (params : PublishDocumentParams)
  | publishContentDocument (params : PublishDocumentParams)
  | publishGuardedOwnerDocument (params : PublishDocumentParams)
  | removeBoundZone (params : RemoveBoundZoneParams)
  | bindZoneDocuments (params : BindZoneDocumentsParams)
  | publishDeviceMiniDoc (params : PublishDeviceMiniDocParams)
  | upsertDnsTxt (params : UpsertDnsTxtParams)
  | publishRelayAssignment (params : PublishRelayAssignmentParams)

section Calls

variable (libraries : Libraries) (formats : Formats)

def WriteCall.operation (config : SnBnsControllerConfig) :
    WriteCall → SnBnsControllerResult Operation
  | .registerName params => SnController.registerName formats config params
  | .publishOwnerDocument params => SnController.publishOwnerDocument formats config params
  | .publishDocument params => SnController.publishDocument formats config params
  | .publishContentDocument params => SnController.publishContentDocument formats config params
  | .publishGuardedOwnerDocument params =>
    SnController.publishGuardedOwnerDocument formats config params
  | .removeBoundZone params => SnController.removeBoundZone formats config params
  | .bindZoneDocuments params => SnController.bindZoneDocuments formats config params
  | .publishDeviceMiniDoc params => SnController.publishDeviceMiniDoc formats config params
  | .upsertDnsTxt params => SnController.upsertDnsTxt formats config params
  | .publishRelayAssignment params => SnController.publishRelayAssignment formats config params

def write (controller : SnBnsController) (call : WriteCall) : ControllerProgram WriteOutput := do
  let operation ← computed (call.operation formats controller.config)
  runIdempotent libraries formats controller.client operation

def replayRemoveBoundZone (controller : SnBnsController) (params : RemoveBoundZoneParams) :
    ControllerProgram (Option WriteOutput) :=
  if params.requestId.isEmpty then throw requestIdRequired
  else
    withLock .execution do
      let payloadHash := hashJson formats (.removeBoundZone params)
      match ← existingRequest libraries controller.client params.requestId payloadHash
          .removeZone with
      | .reuse output => pure (some output)
      | .execute => pure none

/-- The calls of a controller that touch the request store. -/
inductive ControllerCall
  | write (controller : SnBnsController) (call : WriteCall)
  | replayRemoveBoundZone (controller : SnBnsController) (params : RemoveBoundZoneParams)
  | waitForEvmReceipt (controller : SnBnsController) (txHash : Bytes)
      (config : BnsEvmReceiptWaitConfig)
  | recoverInflightRequests (controller : SnBnsController)

inductive CallResult
  | written (output : WriteOutput)
  | replayed (output : Option WriteOutput)
  | receipt (receipt : BnsEvmTxReceipt)
  | recovered (report : SnBnsRecoveryReport)
  deriving DecidableEq

def controllerProgram : ControllerCall → ControllerProgram CallResult
  | .write controller call => do
      let output ← write libraries formats controller call
      pure (.written output)
  | .replayRemoveBoundZone controller params => do
      let output ← replayRemoveBoundZone libraries formats controller params
      pure (.replayed output)
  | .waitForEvmReceipt controller txHash config => do
      let receipt ← waitForEvmReceipt libraries controller.client txHash config
      pure (.receipt receipt)
  | .recoverInflightRequests controller => do
      let report ← recoverInflightRequests libraries controller.client
      pure (.recovered report)

/-- Controllers over one request store; a stop loses their locks and caches. -/
def controllers :
    Platform ControllerCall Answer (SnBnsControllerResult CallResult) Choice World where
  program call := (controllerProgram libraries formats call).run
  semantics := semantics libraries
  reboot := World.reboot

end Calls

end CyfsGateway.SnController
