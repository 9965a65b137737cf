import CyfsGateway.Sn.Documents
import CyfsGateway.Sn.EvmClient

/-!
# Idempotent execution of write requests

`SnBnsIdempotentExecution` and the recovery half of `SnBnsController`
(`bns-client/src/sn_bns_controller.rs`): a request is persisted together with its
signed transaction before the transaction is broadcast, and a replay or a
start-up recovery completes the stored transaction.
-/

namespace CyfsGateway.SnIdempotency

open Evm Checks Tasks BnsModel SnRequests SnActions SnEvmClient SnDocuments

abbrev ControllerProgram (Value : Type) := Program Answer SnBnsControllerError Value

variable (libraries : Libraries) (formats : Formats) (client : BnsEvmControllerClient)

def requestMessage (requestId : Bytes) (rest : String) : SnBnsControllerError :=
  .store (text "request `" ++ requestId ++ text "` " ++ text rest)

variable (operation : Operation) (record : SnBnsWriteRequestRecord) (prepared : BnsEvmPreparedTx)

def updateInflightRequest : ControllerProgram Bool :=
  fallible (perform (Action.updateInflight record))

/-- After a compare-and-set that changed nothing: the row another path has left is
accepted if it agrees with the record. -/
def acceptLatest (requestId : Bytes) (agrees : SnBnsWriteRequestRecord → Bool)
    (disappeared lost : String) : ControllerProgram SnBnsWriteRequestRecord := do
  let latest : Option SnBnsWriteRequestRecord ←
    fallible (perform (Action.getRequest requestId))
  match latest with
  | none => throw (requestMessage requestId disappeared)
  | some latest =>
    if agrees latest then pure latest else throw (requestMessage requestId lost)

def sameOutcome (latest : SnBnsWriteRequestRecord) : Bool :=
  latest.state = record.state && latest.payloadHash = record.payloadHash &&
    latest.evmTxHash = record.evmTxHash

def submissionState (submission : BnsEvmTxSubmission) : BnsWriteRequestState :=
  match submission.receiptStatus with
  | some 0 => .reverted
  | some _ => .succeeded
  | none => .pending

/-- A failed execution, and whether the request had been persisted. -/
structure ExecutionError where
  error : SnBnsControllerError
  prepared : Bool

variable (base : SnBnsWriteRequestRecord)

def preparedRecord (prepared : BnsEvmPreparedTx)
    (provisional : WriteOutput) : SnBnsWriteRequestRecord :=
  { base with
    state := .sending
    resultJson := some provisional
    evmChainId := some prepared.chainId
    evmNonce := some prepared.nonce
    evmTxHash := some prepared.txHash
    evmRawTx := some prepared.rawTx }

/-- The first half of `persist_and_submit`. -/
def persistPrepared : ControllerProgram Unit := do
  let begun : StoreResult SnBnsTryBeginResult ← effect (Action.tryBegin record)
  match begun with
  | .ok .acquired => pure ()
  | .error error => do
      abandonPreparedTx libraries client prepared
      throw error
  | .ok (.existing existing) => do
      abandonPreparedTx libraries client prepared
      if existing.payloadHash ≠ record.payloadHash then
        throw (.idempotencyConflict record.requestId)
      else throw (.idempotencyPending record.requestId)

def recordSubmission (submission : BnsEvmTxSubmission) : ControllerProgram BnsEvmTxSubmission := do
  let record :=
    { record with state := submissionState submission, errorCode := none, errorMessage := none }
  let updated ← updateInflightRequest record
  if !updated then
    throw (requestMessage record.requestId "lost its post-broadcast state transition")
  else if record.state = .reverted then throw (.bns (txReverted prepared.txHash))
  else pure submission

def recordFailedSubmission (error : SnBnsControllerError) : ControllerProgram BnsEvmTxSubmission :=
  if error.code = evmTxRevertedCode then do
    let record :=
      { record with
        state := .reverted
        errorCode := some error.code
        errorMessage := some error.message }
    let updated ← updateInflightRequest record
    if !updated then do
      let _ ← acceptLatest record.requestId (sameOutcome record)
        "disappeared after transaction revert" "lost its reverted state transition"
      throw error
    else throw error
  else throw error

/-- The second half of `persist_and_submit`. -/
def submitPersisted : ControllerProgram BnsEvmTxSubmission := do
  match ← attempt (mapError .bns (submitPreparedTx libraries client record.requestId prepared)) with
  | .ok submission => recordSubmission record prepared submission
  | .error error => recordFailedSubmission record error

def persistAndSubmit (prepared : BnsEvmPreparedTx)
    (provisional : WriteOutput) : Program Answer ExecutionError BnsEvmTxSubmission := do
  let record := preparedRecord base prepared provisional
  mapError (⟨·, false⟩) (persistPrepared libraries client record prepared)
  mapError (⟨·, true⟩) (submitPersisted libraries client record prepared)

/-- The write an execution has decided on, and the result it stores with it. -/
structure Write where
  request : WriteRequest
  output : BnsEvmTxSubmission → WriteOutput

/-- Read what the write depends on, sign it, persist it, submit it. -/
def executeOnce (plan : ControllerProgram Write) : Program Answer ExecutionError WriteOutput := do
  let write ← mapError (⟨·, false⟩) plan
  let prepared ← mapError (fun error => ⟨.bns error, false⟩)
    (prepareWithRequest libraries client write.request)
  let output := write.output (preparedSubmission prepared)
  let _ ← persistAndSubmit libraries client base prepared output
  pure output

/-- The loop over stale guards; nothing is retried once it is persisted. -/
def retryStale (once : Program Answer ExecutionError WriteOutput) :
    Nat → Program Answer ExecutionError WriteOutput
  | 0 => once
  | retries + 1 => do
      match ← attempt once with
      | .ok output => pure output
      | .error error =>
        if error.error.isStaleGuard && !error.prepared then retryStale once retries
        else throw error

/-! ## Recovery -/

inductive SnBnsRecoveryMode
  | startup | requestReplay
  deriving DecidableEq

inductive SnBnsReconcileAction
  | record (record : SnBnsWriteRequestRecord)
  | execute

inductive SnBnsExistingAction
  | reuse (output : WriteOutput)
  | execute

def queryTx (txHash : Bytes) : ControllerProgram BnsTxState :=
  mapError .bns (queryPreparedTxState libraries client txHash)

def chainRecord (state : BnsWriteRequestState) :
    SnBnsWriteRequestRecord :=
  if state = .reverted then
    { record with
      state
      errorCode := some evmTxRevertedCode
      errorMessage := some (text "BNS EVM tx " ++
        record.evmTxHash.getD (text "<unknown>") ++ text " reverted") }
  else { record with state, errorCode := none, errorMessage := none }

def storeChainRecord (fromRecoveryFailure : Bool) : ControllerProgram SnBnsWriteRequestRecord := do
  let updated : Bool ←
    if fromRecoveryFailure then fallible (perform (Action.resolveRecoveryFailed record))
    else updateInflightRequest record
  if updated then pure record
  else
    acceptLatest record.requestId
      (fun latest => sameOutcome record latest && latest.evmRawTx = record.evmRawTx)
      "disappeared during chain-state recovery" "lost its chain-state recovery transition"

def transitionFromChainState (state : BnsTxExecutionState)
    (fromRecoveryFailure : Bool) : ControllerProgram SnBnsWriteRequestRecord :=
  match state with
  | .pending => storeChainRecord (chainRecord record .pending) fromRecoveryFailure
  | .succeeded => storeChainRecord (chainRecord record .succeeded) fromRecoveryFailure
  | .reverted => storeChainRecord (chainRecord record .reverted) fromRecoveryFailure
  | .notFound => throw (.store (text "cannot transition a request from a NotFound chain state"))

def quarantineInvalidRecoveryRecord (reason : Bytes) :
    ControllerProgram SnBnsWriteRequestRecord := do
  let record :=
    { record with
      state := .failed
      errorCode := some evmTxRecoveryDataInvalid
      errorMessage := some reason }
  let updated ← updateInflightRequest record
  if updated then pure record
  else
    acceptLatest record.requestId (fun latest => sameOutcome record latest &&
        latest.errorCode = some evmTxRecoveryDataInvalid && latest.evmRawTx = record.evmRawTx)
      "disappeared while quarantining invalid recovery data"
      "lost its recovery quarantine transition"

def recoveryDataError (reason : Bytes) :
    SnBnsControllerError :=
  .bns (.registry evmTxRecoveryDataInvalid (text "request `" ++ record.requestId ++
    text "` cannot recover its stored EVM transaction: " ++ reason))

def removeRecoveryFailedRequest : ControllerProgram Bool :=
  fallible (perform (Action.removeRecoveryFailed record.requestId record.payloadHash
    record.evmTxHash record.evmRawTx))

def reconcileInvalidRecord (reason : Bytes)
    (mode : SnBnsRecoveryMode) : ControllerProgram SnBnsReconcileAction :=
  match record.evmTxHash with
  | some txHash => do
      let state ← queryTx libraries client txHash
      if state.state = .notFound then do
        let quarantined ← quarantineInvalidRecoveryRecord record reason
        if mode = .requestReplay then do
          let removed ← removeRecoveryFailedRequest quarantined
          if removed then pure .execute
          else throw (recoveryDataError quarantined reason)
        else throw (recoveryDataError quarantined reason)
      else do
        let record ← transitionFromChainState record state.state false
        pure (.record record)
  | none => do
      let quarantined ← quarantineInvalidRecoveryRecord record reason
      throw (recoveryDataError quarantined reason)

/-- A submission is never in the other two states. -/
def executionState : BnsWriteRequestState → ControllerProgram BnsTxExecutionState
  | .pending => pure .pending
  | .succeeded => pure .succeeded
  | .reverted => pure .reverted
  | .sending | .failed => throw (.store (text "recovered submission returned an invalid state"))

def recoverPreparedRecord (mode : SnBnsRecoveryMode) : ControllerProgram SnBnsReconcileAction := do
  match ← attempt (mapError SnBnsControllerError.bns
        (recoverPreparedTx libraries client record.requestId prepared)) with
  | .ok submission => do
      let state ← executionState (submissionState submission)
      let record ← transitionFromChainState record state false
      pure (.record record)
  | .error error =>
    if error.code = evmTxRevertedCode then do
      let record ← transitionFromChainState record .reverted false
      pure (.record record)
    else if error.code = serializationErrorCode then
      reconcileInvalidRecord libraries client record error.message mode
    else throw error

/-- Complete the metadata of a record whose raw transaction decodes. -/
def repairRecord (storedRawTx : Bytes)
    (decoded : BnsEvmPreparedTx) : ControllerProgram SnBnsWriteRequestRecord :=
  if record.evmTxHash ≠ some decoded.txHash ∨ record.evmRawTx ≠ some decoded.rawTx ∨
      record.evmChainId ≠ some decoded.chainId ∨ record.evmNonce ≠ some decoded.nonce then do
    let repaired : Bool ← fallible (perform (Action.repairPreparedMetadata record.requestId
      record.payloadHash storedRawTx record.evmTxHash decoded))
    if !repaired then
      throw (requestMessage record.requestId "could not repair its prepared transaction metadata")
    else
      pure
        { record with
          evmChainId := some decoded.chainId
          evmNonce := some decoded.nonce
          evmTxHash := some decoded.txHash
          evmRawTx := some decoded.rawTx }
  else pure record

/-- The chain state of a stored hash that is not the hash of the stored transaction. -/
def foreignHashState (decoded : BnsEvmPreparedTx) :
    ControllerProgram (Option BnsTxExecutionState) :=
  match record.evmTxHash with
  | some storedHash =>
    if !eqIgnoreAsciiCase storedHash decoded.txHash then do
      let state ← queryTx libraries client storedHash
      if state.state ≠ .notFound then pure (some state.state) else pure none
    else pure none
  | none => pure none

/-- A record of which some metadata is missing. -/
def reconcileIncompleteRecord (storedRawTx : Bytes)
    (mode : SnBnsRecoveryMode) : ControllerProgram SnBnsReconcileAction :=
  match libraries.fromRawTx storedRawTx with
  | .error error =>
    reconcileInvalidRecord libraries client record
      (text "decode stored raw transaction failed: " ++ error.message) mode
  | .ok decoded => do
      match ← foreignHashState libraries client record decoded with
      | some state => do
          let record ← transitionFromChainState record state false
          pure (.record record)
      | none => do
          let record ← repairRecord record storedRawTx decoded
          recoverPreparedRecord libraries client record decoded mode

def reconcileInflightRecord (mode : SnBnsRecoveryMode) : ControllerProgram SnBnsReconcileAction :=
  match record.evmRawTx, record.evmTxHash, record.evmNonce, record.evmChainId with
  | none, none, _, _ => do
      let removed : Bool ←
        fallible (perform (Action.removeUnprepared record.requestId record.payloadHash))
      if removed then pure .execute
      else
        throw (requestMessage record.requestId "could not remove its legacy pre-broadcast record")
  | none, some _, _, _ =>
    reconcileInvalidRecord libraries client record
      (text "stored transaction hash has no raw transaction") mode
  | some storedRawTx, some txHash, some nonce, some chainId =>
    recoverPreparedRecord libraries client record
      { txHash, rawTx := storedRawTx, fromAddress := [], nonce,
        chainId }
      mode
  | some storedRawTx, _, _, _ => reconcileIncompleteRecord libraries client record storedRawTx mode

def retryRecoveryFailedRecord : ControllerProgram SnBnsReconcileAction :=
  match record.evmTxHash with
  | none => do
      let removed ← removeRecoveryFailedRequest record
      if removed then pure .execute
      else
        throw (requestMessage record.requestId "could not remove its unqueryable recovery failure")
  | some txHash => do
      let state ← queryTx libraries client txHash
      if state.state = .notFound then do
        let removed ← removeRecoveryFailedRequest record
        if removed then pure .execute
        else
          throw (requestMessage record.requestId "could not remove its retryable recovery failure")
      else do
        let record ← transitionFromChainState record state.state true
        pure (.record record)

/-- The answer to a replay, from the record it ended with. -/
def answerExisting (kind : OutputKind) (record : SnBnsWriteRequestRecord) :
    ControllerProgram SnBnsExistingAction :=
  match record.state with
  | .pending | .succeeded =>
    match record.resultJson with
    | none => throw (requestMessage record.requestId "has no provisional result")
    | some output => do
        let output ← computed (output.decode kind)
        pure (.reuse output.markReused)
  | .reverted | .failed =>
    throw (.idempotencyPreviousFailure record.requestId
      (record.errorMessage.getD (text "previous request failed")))
  | .sending => throw (.idempotencyPending record.requestId)

/-- The first half of `handle_existing`. -/
def retryQuarantined : ControllerProgram SnBnsReconcileAction :=
  if record.state = .failed ∧ record.errorCode = some evmTxRecoveryDataInvalid then
    retryRecoveryFailedRecord libraries client record
  else pure (.record record)

def completeInflight : ControllerProgram SnBnsReconcileAction :=
  if record.state.inflight then
    reconcileInflightRecord libraries client record .requestReplay
  else pure (.record record)

def handleExisting (kind : OutputKind) (record : SnBnsWriteRequestRecord) :
    ControllerProgram SnBnsExistingAction := do
  match ← retryQuarantined libraries client record with
  | .execute => pure .execute
  | .record record =>
    match ← completeInflight libraries client record with
    | .execute => pure .execute
    | .record record => answerExisting kind record

/-! ## Operations -/

/-- A write of the controller: its request, and what it decides to write. -/
structure Operation where
  requestId : Bytes
  operation : BnsWriteOperation
  name : Bytes
  docType : Option Bytes
  payload : Payload
  kind : OutputKind
  /-- How often a stale guard is retried. -/
  retries : Nat := 0
  plan : ControllerProgram Write

def baseRecord (payloadHash : Bytes) (now : UInt64) : SnBnsWriteRequestRecord where
  requestId := operation.requestId
  operation := operation.operation
  name := operation.name
  docType := operation.docType
  payloadHash := payloadHash
  state := .sending
  resultJson := none
  errorCode := none
  errorMessage := none
  leaseOwner := none
  evmChainId := none
  evmNonce := none
  evmTxHash := none
  evmRawTx := none
  createdAt := now

def requestIdRequired : SnBnsControllerError := .invalidInput (text "request_id is required")

def checkRequest : SnBnsControllerResult Unit := do
  reject (operation.requestId.isEmpty) requestIdRequired
  let _ ← fromRegistryResult (canonicalBnsName operation.name)
  match operation.docType with
  | some docType => do
      let _ ← fromRegistryResult (canonicalDocType docType)
      pure ()
  | none => pure ()

def executeOperation (payloadHash : Bytes) : ControllerProgram WriteOutput := do
  let now : UInt64 ← effect Action.now
  let base := baseRecord operation payloadHash now
  mapError ExecutionError.error
    (retryStale (executeOnce libraries client base operation.plan) operation.retries)

def existingRequest (requestId payloadHash : Bytes) (kind : OutputKind) :
    ControllerProgram SnBnsExistingAction := do
  let existing : Option SnBnsWriteRequestRecord ←
    fallible (perform (Action.getRequest requestId))
  match existing with
  | none => pure .execute
  | some record =>
    if record.payloadHash ≠ payloadHash then throw (.idempotencyConflict requestId)
    else handleExisting libraries client kind record

def runIdempotent : ControllerProgram WriteOutput :=
  withLock .execution do
    computed (checkRequest operation)
    let payloadHash := hashJson formats operation.payload
    match ← existingRequest libraries client operation.requestId payloadHash operation.kind with
    | .reuse output => pure output
    | .execute => executeOperation libraries client operation payloadHash

structure SnBnsRecoveryFailure where
  requestId : Bytes
  name : Bytes
  txHash : Option Bytes
  errorCode : Bytes
  errorMessage : Bytes
  deriving DecidableEq

structure SnBnsRecoveryReport where
  scanned : Nat := 0
  recovered : Nat := 0
  failures : List SnBnsRecoveryFailure := []
  deriving DecidableEq

/-- The loop over the records in flight. -/
def recoverRecords : List SnBnsWriteRequestRecord → SnBnsRecoveryReport →
    ControllerProgram SnBnsRecoveryReport
  | [], report => pure report
  | record :: records, report => do
      match ← attempt (reconcileInflightRecord libraries client record .startup) with
      | .ok _ => recoverRecords records { report with recovered := report.recovered + 1 }
      | .error error =>
        recoverRecords records
          { report with
            failures := report.failures ++
              [⟨record.requestId, record.name, record.evmTxHash, error.code, error.message⟩] }

def recoverInflightRequests : ControllerProgram SnBnsRecoveryReport :=
  withLock .execution do
    let records : Rows ← fallible (perform Action.listInflight)
    recoverRecords libraries client records { scanned := records.length }

def receiptState : Except SnBnsControllerError BnsEvmTxReceipt → Option BnsWriteRequestState
  | .ok receipt => some (if receipt.status = some 0 then .reverted else .succeeded)
  | .error error => if error.code = evmTxRevertedCode then some .reverted else none

/-- Move the request of a transaction to the state its receipt reports. -/
def recordReceipt (txHash : Bytes) (state : BnsWriteRequestState) : ControllerProgram Unit := do
  let records : Rows ← fallible (perform Action.listInflight)
  match records.find? fun record => record.evmTxHash = some txHash with
  | none => pure ()
  | some record => do
      let record := chainRecord record state
      let updated ← updateInflightRequest record
      if !updated then do
        let _ ← acceptLatest record.requestId (sameOutcome record)
          "disappeared after receipt" "lost its receipt state transition"
        pure ()
      else pure ()

def waitForEvmReceipt (txHash : Bytes) (config : BnsEvmReceiptWaitConfig) :
    ControllerProgram BnsEvmTxReceipt := do
  let result ← attempt (mapError .bns (waitForReceipt libraries client txHash config))
  match receiptState result with
  | some state => do
      recordReceipt txHash state
      computed result
  | none => computed result

end CyfsGateway.SnIdempotency
