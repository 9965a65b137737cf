import CyfsGateway.Indexer.Model

/-!
# Write requests of the SN controller

Errors, records and the SQLite store of `bns-client/src/sn_bns_controller.rs` and
`sn_bns_store.rs`.  The store is a list of rows with one row per request id;
every function below is one SQL statement.  A Rust `String` is its UTF-8 bytes.
-/

namespace CyfsGateway.SnRequests

open Evm BnsTypes BnsModel

def eqIgnoreAsciiCase (left right : Bytes) : Bool :=
  let lower := fun byte : UInt8 => if 65 ≤ byte ∧ byte ≤ 90 then byte + 32 else byte
  left.map lower = right.map lower

inductive BnsClientError
  | registry (code message : Bytes)
  | transport (message : Bytes)
  | serialization (message : Bytes)
  | invalidResponse (message : Bytes)
  deriving DecidableEq

def serializationErrorCode : Bytes := text "SERIALIZATION_ERROR"
def evmTxRevertedCode : Bytes := text "EVM_TX_REVERTED"

def evmTxRecoveryDataInvalid : Bytes := text "EVM_TX_RECOVERY_DATA_INVALID"

def BnsClientError.code : BnsClientError → Bytes
  | .registry code _ => code
  | .transport _ => text "RPC_TRANSPORT_ERROR"
  | .serialization _ => serializationErrorCode
  | .invalidResponse _ => text "INVALID_RESPONSE"

/-- The message of `Display`; the text around a registry error is left out. -/
def BnsClientError.message : BnsClientError → Bytes
  | .registry _ message => message
  | .transport message => text "BNS RPC transport error: " ++ message
  | .serialization message => text "BNS RPC serialization error: " ++ message
  | .invalidResponse message => text "BNS RPC response error: " ++ message

abbrev BnsClientResult (Value : Type) := Except BnsClientError Value

inductive SnBnsControllerError
  | bns (error : BnsClientError)
  | invalidInput (message : Bytes)
  | idempotencyConflict (requestId : Bytes)
  | idempotencyPending (requestId : Bytes)
  | idempotencyPreviousFailure (requestId message : Bytes)
  | store (message : Bytes)
  | ownerDocumentHashConflict (expected actual : Bytes)
  | zoneNotBound (zoneDid : Bytes)
  | serialization (message : Bytes)
  deriving DecidableEq

def SnBnsControllerError.code : SnBnsControllerError → Bytes
  | .bns error => error.code
  | .invalidInput _ => text "INVALID_INPUT"
  | .idempotencyConflict _ => text "IDEMPOTENCY_CONFLICT"
  | .idempotencyPending _ => text "IDEMPOTENCY_PENDING"
  | .idempotencyPreviousFailure .. => text "IDEMPOTENCY_PREVIOUS_FAILURE"
  | .store _ => text "IDEMPOTENCY_STORE_ERROR"
  | .ownerDocumentHashConflict .. => text "OWNER_DOCUMENT_HASH_CONFLICT"
  | .zoneNotBound _ => text "ZONE_NOT_BOUND"
  | .serialization _ => serializationErrorCode

def SnBnsControllerError.message : SnBnsControllerError → Bytes
  | .bns error => text "BNS client error: " ++ error.message
  | .invalidInput message => text "invalid SN-BNS controller input: " ++ message
  | .idempotencyConflict requestId =>
    text "idempotency conflict for request `" ++ requestId ++ text "`"
  | .idempotencyPending requestId => text "request `" ++ requestId ++ text "` is still pending"
  | .idempotencyPreviousFailure requestId message =>
    text "request `" ++ requestId ++ text "` failed previously: " ++ message
  | .store message => text "idempotency store error: " ++ message
  | .ownerDocumentHashConflict expected actual =>
    text "owner document hash conflict: expected " ++ expected ++ text ", actual " ++ actual
  | .zoneNotBound zoneDid => text "owner document is not bound to zone `" ++ zoneDid ++ text "`"
  | .serialization message => text "serialization error: " ++ message

def SnBnsControllerError.isStaleGuard : SnBnsControllerError → Bool
  | .bns (.registry code _) => code = text "STALE_DOCUMENT_VERSION" || code = text "STALE_NAME_SEQ"
  | _ => false

/-! ## Records -/

inductive BnsWriteOperation
  | registerName
  | publishDocument
  | bindZoneDocuments
  | removeBoundZone
  | publishDeviceMiniDoc
  | upsertDnsTxt
  | publishRelayAssignment
  deriving DecidableEq

structure BnsWriteReceipt where
  requestId : Bytes
  name : Bytes
  operation : BnsWriteOperation
  nameSeq : UInt64
  docType : Option Bytes
  documentVersion : Option UInt64
  contentHash : Option Bytes
  documentStateHash : Option Bytes
  authoritySeq : UInt64
  authorityRoot : Bytes
  controllerPolicyHash : Option Bytes
  evmChainId : Option UInt64
  evmNonce : Option UInt64
  evmTxHash : Option Bytes
  evmRawTx : Option Bytes
  createdOrReused : Bool
  deriving DecidableEq

/-- The results of the operations: `BnsWriteReceipt`, `BnsMultiWriteReceipt`,
`RegisterNameOutput` and `RemoveBoundZoneOutput`. -/
inductive WriteOutput
  | single (receipt : BnsWriteReceipt)
  | multi (requestId name : Bytes) (evmChainId evmNonce : Option UInt64)
      (evmTxHash evmRawTx : Option Bytes) (receipts : List BnsWriteReceipt)
      (createdOrReused : Bool)
  | register (receipt : BnsWriteReceipt)
  | removeZone (receipt : BnsWriteReceipt) (sourceOwnerHash resultOwnerHash : Bytes)
      (sourceVersion targetVersion : UInt64)
  deriving DecidableEq

inductive OutputKind
  | single | multi | register | removeZone
  deriving DecidableEq

def WriteOutput.kind : WriteOutput → OutputKind
  | .single _ => .single
  | .multi .. => .multi
  | .register _ => .register
  | .removeZone .. => .removeZone

def BnsWriteReceipt.markReused (receipt : BnsWriteReceipt) : BnsWriteReceipt :=
  { receipt with createdOrReused := true }

def WriteOutput.markReused : WriteOutput → WriteOutput
  | .single receipt => .single receipt.markReused
  | .multi requestId name chainId nonce txHash rawTx receipts _ =>
    .multi requestId name chainId nonce txHash rawTx (receipts.map BnsWriteReceipt.markReused) true
  | .register receipt => .register receipt.markReused
  | .removeZone receipt source result sourceVersion targetVersion =>
    .removeZone receipt.markReused source result sourceVersion targetVersion

/-- `serde_json::from_value` of a stored result: it fails when the stored value is
of another type. -/
def WriteOutput.decode (kind : OutputKind) (output : WriteOutput) :
    Except SnBnsControllerError WriteOutput :=
  if output.kind = kind then .ok output
  else .error (.serialization (text "result of another operation"))

inductive BnsWriteRequestState
  | sending | pending | succeeded | reverted | failed
  deriving DecidableEq

/-- The states `IN ('sending', 'pending')`. -/
def BnsWriteRequestState.inflight : BnsWriteRequestState → Bool
  | .sending | .pending => true
  | .succeeded | .reverted | .failed => false

structure SnBnsWriteRequestRecord where
  requestId : Bytes
  operation : BnsWriteOperation
  name : Bytes
  docType : Option Bytes
  payloadHash : Bytes
  state : BnsWriteRequestState
  resultJson : Option WriteOutput
  errorCode : Option Bytes
  errorMessage : Option Bytes
  leaseOwner : Option Bytes
  evmChainId : Option UInt64
  evmNonce : Option UInt64
  evmTxHash : Option Bytes
  evmRawTx : Option Bytes
  createdAt : UInt64
  deriving DecidableEq

/-- A signed transaction that has not necessarily been broadcast. -/
structure BnsEvmPreparedTx where
  txHash : Bytes
  rawTx : Bytes
  fromAddress : Bytes
  nonce : UInt64
  chainId : UInt64
  deriving DecidableEq

/-! ## The store -/

abbrev Rows := List SnBnsWriteRequestRecord

/-- An unsigned integer through a column of type INTEGER: written `as i64`, read
back as `value.max(0) as u64`. -/
def sqliteInteger (value : UInt64) : UInt64 :=
  if value.toNat < 2 ^ 63 then value else 0

variable (record row : SnBnsWriteRequestRecord)

def SnBnsWriteRequestRecord.stored :
    SnBnsWriteRequestRecord :=
  { record with
    evmChainId := record.evmChainId.map sqliteInteger
    evmNonce := record.evmNonce.map sqliteInteger
    createdAt := sqliteInteger record.createdAt }

def getRow (requestId : Bytes) (rows : Rows) : Option SnBnsWriteRequestRecord :=
  rows.find? fun row => row.requestId = requestId

inductive SnBnsTryBeginResult
  | acquired
  | existing (record : SnBnsWriteRequestRecord)
  deriving DecidableEq

/-- `INSERT … ON CONFLICT(request_id) DO NOTHING`. -/
def tryBegin (rows : Rows) : Except SnBnsControllerError (SnBnsTryBeginResult × Rows) :=
  if record.state ≠ .sending ∨ record.resultJson = none ∨ record.evmChainId = none ∨
      record.evmNonce = none ∨ record.evmTxHash = none ∨ record.evmRawTx = none then
    .error (.store (text "try_begin requires a fully prepared sending record"))
  else
    match getRow record.requestId rows with
    | none => .ok (.acquired, rows ++ [record.stored])
    | some existing => .ok (.existing existing, rows)

/-- `ORDER BY created_at, request_id`. -/
def rowOrder (left right : SnBnsWriteRequestRecord) : Bool :=
  left.createdAt < right.createdAt ||
    (left.createdAt = right.createdAt && (left.requestId ≤ right.requestId))

def listInflight (rows : Rows) : Rows :=
  (rows.filter fun row => row.state.inflight).mergeSort rowOrder

/-- `UPDATE … WHERE`, and whether it changed a row. -/
def updateRows (condition : SnBnsWriteRequestRecord → Bool)
    (change : SnBnsWriteRequestRecord → SnBnsWriteRequestRecord) (rows : Rows) : Bool × Rows :=
  (rows.any condition, rows.map fun row => if condition row then change row else row)

/-- `DELETE … WHERE`, and whether it deleted a row. -/
def deleteRows (condition : SnBnsWriteRequestRecord → Bool) (rows : Rows) : Bool × Rows :=
  (rows.any condition, rows.filter fun row => !condition row)

/-- The row is that of the request and still carries the transaction read. -/
def sameTransaction : Bool :=
  row.requestId = record.requestId && row.payloadHash = record.payloadHash &&
    row.evmTxHash = record.evmTxHash && row.evmRawTx = record.evmRawTx

/-- The `WHERE` of `update_inflight`. -/
def hitsInflight : Bool :=
  sameTransaction record row && row.state.inflight && row.leaseOwner = record.leaseOwner

/-- The `SET` of `update_inflight`. -/
def setInflight : SnBnsWriteRequestRecord :=
  { row with
    operation := record.operation
    name := record.name
    docType := record.docType
    state := record.state
    resultJson := record.resultJson
    errorCode := record.errorCode
    errorMessage := record.errorMessage
    evmChainId := record.evmChainId.map sqliteInteger
    evmNonce := record.evmNonce.map sqliteInteger }

def updateInflight (rows : Rows) : Except SnBnsControllerError (Bool × Rows) :=
  if record.state = .sending then
    .error (.store (text "update_inflight cannot transition back to sending"))
  else .ok (updateRows (hitsInflight record) (setInflight record) rows)

def repairPreparedMetadata (requestId payloadHash expectedRawTx : Bytes)
    (expectedTxHash : Option Bytes) (prepared : BnsEvmPreparedTx) (rows : Rows) : Bool × Rows :=
  updateRows (fun row => row.requestId = requestId && row.payloadHash = payloadHash &&
      row.state.inflight && row.evmRawTx = some expectedRawTx &&
      row.evmTxHash = expectedTxHash)
    (fun row =>
      { row with
        evmChainId := some (sqliteInteger prepared.chainId)
        evmNonce := some (sqliteInteger prepared.nonce)
        evmTxHash := some prepared.txHash
        evmRawTx := some prepared.rawTx })
    rows

def recoveryFailed (requestId payloadHash : Bytes) (txHash rawTx : Option Bytes)
    (row : SnBnsWriteRequestRecord) : Bool :=
  row.requestId = requestId && row.payloadHash = payloadHash && row.state = .failed &&
    row.errorCode = some evmTxRecoveryDataInvalid && row.evmTxHash = txHash &&
    row.evmRawTx = rawTx

def resolveRecoveryFailed (rows : Rows) : Except SnBnsControllerError (Bool × Rows) :=
  match record.state with
  | .pending | .succeeded | .reverted =>
    .ok (updateRows
      (recoveryFailed record.requestId record.payloadHash record.evmTxHash record.evmRawTx)
      (fun row =>
        { row with
          state := record.state
          errorCode := record.errorCode
          errorMessage := record.errorMessage })
      rows)
  | .sending | .failed =>
    .error (.store (text "resolve_recovery_failed requires a chain-derived state"))

def removeRecoveryFailed (requestId payloadHash : Bytes) (txHash rawTx : Option Bytes)
    (rows : Rows) : Bool × Rows :=
  deleteRows (recoveryFailed requestId payloadHash txHash rawTx) rows

def removeUnprepared (requestId payloadHash : Bytes) (rows : Rows) : Bool × Rows :=
  deleteRows (fun row => row.requestId = requestId && row.payloadHash = payloadHash &&
      row.state.inflight && row.evmTxHash = none && row.evmRawTx = none)
    rows

end CyfsGateway.SnRequests
