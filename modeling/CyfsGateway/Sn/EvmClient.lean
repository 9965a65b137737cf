import CyfsGateway.Sn.Actions

/-!
# The EVM client of the SN controller

`BnsEvmControllerClient` of `bns-client/src/evm.rs`: nonces, signing, broadcast,
lookup and receipts.  A poisoned lock of the nonce cache is left out; it takes a
panic while the cache is held.
-/

namespace CyfsGateway.SnEvmClient

open Evm Tasks BnsModel SnRequests SnActions Action

abbrev EvmProgram (Value : Type) := Program Answer BnsClientError Value

variable {Error Value : Type}

/-- Run under a lock that is given back on every way out. -/
def withLock (lock : Lock) (body : Program Answer Error Value) : Program Answer Error Value :=
  ExceptT.mk do
    let _ ← perform (acquire lock)
    let outcome ← body.run
    let _ ← perform (release lock)
    pure outcome

/-! ## Clients -/

inductive BnsEvmRawTxSubmitter
  | chainRpc | bnsServer
  deriving DecidableEq

/-- `BnsEvmReceiptWaitConfig`, whose times decide how often a wait polls. -/
structure BnsEvmReceiptWaitConfig where
  confirmations : UInt64
  requireSuccess : Bool
  deriving DecidableEq

structure BnsEvmControllerClient where
  id : Nat
  chainId : UInt64
  contractAddress : Bytes
  rawTxSubmitter : BnsEvmRawTxSubmitter
  receiptWait : Option BnsEvmReceiptWaitConfig
  dynamicTxParams : Bool
  deriving DecidableEq

structure BnsEvmTxSubmission where
  txHash : Bytes
  rawTx : Bytes
  fromAddress : Bytes
  nonce : UInt64
  chainId : UInt64
  receiptStatus : Option UInt64
  deriving DecidableEq

structure BnsEvmTxReceipt where
  status : Option UInt64
  blockNumber : UInt64
  confirmations : UInt64
  deriving DecidableEq

def preparedSubmission (prepared : BnsEvmPreparedTx) : BnsEvmTxSubmission where
  txHash := prepared.txHash
  rawTx := prepared.rawTx
  fromAddress := prepared.fromAddress
  nonce := prepared.nonce
  chainId := prepared.chainId
  receiptStatus := none

def txReverted (txHash : Bytes) : BnsClientError :=
  .registry evmTxRevertedCode (text "BNS EVM tx " ++ txHash ++ text " reverted")

def invalidAddress (field : String) (value : Bytes) : BnsClientError :=
  .serialization (text "invalid " ++ text field ++ text " address `" ++ value ++ text "`")

def invalidB256 (field : String) (value : Bytes) : BnsClientError :=
  .serialization (text "invalid " ++ text field ++ text " bytes32 `" ++ value ++ text "`")

section Client

variable (libraries : Libraries) (client : BnsEvmControllerClient) (prepared : BnsEvmPreparedTx)
  (signer txHash : Bytes)

def nextNonce : EvmProgram UInt64 := do
  let cached : Option UInt64 ← effect (takeNonce client.id signer)
  match cached with
  | some nonce => pure nonce
  | none =>
    let chainNonce : UInt64 ← fallible (perform (transactionCount signer))
    effect (fillNonce client.id signer chainNonce)

def resetNonce : EvmProgram Unit := effect (Action.resetNonce client.id signer)

/-- The transaction to sign.  An error of the inner result costs the client its
cached nonce; an error before a nonce is reserved does not. -/
def unsignedTx (calldata : Bytes) (call : WriteRequest) : EvmProgram (BnsClientResult UnsignedTx) :=
  match client.rawTxSubmitter with
  | .bnsServer => do
      let resp : BnsPrepareTxResp ← fallible (perform (prepareTx signer calldata))
      if libraries.parsesAddress resp.contractAddress then
        let nonce : UInt64 ← effect (reserveNonce client.id signer resp.nonce)
        pure (.ok ⟨call, resp.chainId, nonce⟩)
      else throw (invalidAddress "contract_address" resp.contractAddress)
  | .chainRpc => do
      let nonce ← nextNonce client signer
      if !libraries.parsesAddress client.contractAddress then
        pure (.error (invalidAddress "contract_address" client.contractAddress))
      else if client.dynamicTxParams then
        let suggestion : BnsClientResult Unit ← effect (suggestTx signer calldata)
        pure (suggestion.map fun _ => ⟨call, client.chainId, nonce⟩)
      else pure (.ok ⟨call, client.chainId, nonce⟩)

def signedBy (tx : UnsignedTx) : EvmProgram BnsEvmPreparedTx := do
  let signature : BnsClientResult SignedTx ← effect (signTransaction client.id tx)
  match signature with
  | .error error => do
      resetNonce client signer
      throw error
  | .ok signed =>
    if signed.signer ≠ signer then do
      resetNonce client signer
      throw (.serialization (text "BNS EVM key manager signed as " ++ signed.signer ++
        text ", expected " ++ signer))
    else
      pure
        { txHash := signed.txHash
          rawTx := signed.rawTx
          fromAddress := signed.signer
          nonce := signed.nonce
          chainId := signed.chainId }

def prepareWithRequest (call : WriteRequest) : EvmProgram BnsEvmPreparedTx := do
  let calldata ← computed (libraries.encodeCall call)
  let signer : Bytes ← fallible (perform (signerAddress client.id call))
  withLock (.submission client.id) do
    let tx ← unsignedTx libraries client signer calldata call
    match tx with
    | .error error => do
        resetNonce client signer
        throw error
    | .ok tx => signedBy client signer tx

def abandonPreparedTx : Program Answer Error Unit :=
  if libraries.parsesAddress prepared.fromAddress then
    effect (Action.resetNonce client.id prepared.fromAddress)
  else pure ()

/-! ## Lookup and receipts -/

/-- `latest.saturating_sub(block_number) + 1`. -/
def receiptConfirmations (blockNumber : UInt64) : EvmProgram UInt64 := do
  let latest : UInt64 ← fallible (perform Action.blockNumber)
  pure (if blockNumber ≤ latest then latest - blockNumber + 1 else 1)

/-- A receipt that is not in a block yet has no confirmations. -/
def blockConfirmations : Option UInt64 → EvmProgram UInt64
  | some block => receiptConfirmations block
  | none => pure 0

def queryPreparedTxState : EvmProgram BnsTxState :=
  match client.rawTxSubmitter with
  | .bnsServer => fallible (perform (queryTxState txHash))
  | .chainRpc =>
    if !libraries.parsesB256 txHash then throw (invalidB256 "tx_hash" txHash)
    else do
      let receipt : Option EthReceipt ←
        fallible (perform (transactionReceipt txHash))
      match receipt with
      | some receipt =>
        let confirmations ← blockConfirmations receipt.blockNumber
        pure
          { state := if receipt.status = some 0 then .reverted else .succeeded
            blockNumber := receipt.blockNumber
            confirmations }
      | none =>
        let present : Bool ← fallible (perform (transactionByHash txHash))
        pure
          { state := if present then .pending else .notFound
            blockNumber := none
            confirmations := 0 }

def receiptTimeout : BnsClientError :=
  .transport (text "timed out waiting for BNS EVM tx receipt " ++ txHash)

def pollServer (required : UInt64) (later : EvmProgram BnsEvmTxReceipt) :
    EvmProgram BnsEvmTxReceipt := do
  let state : BnsTxState ← fallible (perform (queryTxState txHash))
  match state.state with
  | .succeeded =>
    if required ≤ state.confirmations then
      pure ⟨some 1, state.blockNumber.getD 0, state.confirmations⟩
    else later
  | .reverted => throw (txReverted txHash)
  | .pending | .notFound => later

def pollNode (required : UInt64) (requireSuccess : Bool)
    (later : EvmProgram BnsEvmTxReceipt) : EvmProgram BnsEvmTxReceipt := do
  let receipt : Option EthReceipt ← fallible (perform (transactionReceipt txHash))
  match receipt with
  | some ⟨status, some block⟩ =>
    let confirmations ← receiptConfirmations block
    if required ≤ confirmations then
      if requireSuccess && status = some 0 then throw (txReverted txHash)
      else pure ⟨status, block, confirmations⟩
    else later
  | some ⟨_, none⟩ | none => later

/-- A loop that gives up at its deadline. -/
def pollUntil {Value : Type} (turn : EvmProgram Value → EvmProgram Value)
    (timeout : EvmProgram Value) : Nat → EvmProgram Value
  | 0 => turn timeout
  | polls + 1 => turn (pollUntil turn timeout polls)

def waitForReceipt (config : BnsEvmReceiptWaitConfig) : EvmProgram BnsEvmTxReceipt := do
  let required := max config.confirmations 1
  let polls : Nat ← effect pollsBeforeDeadline
  let timeout : EvmProgram BnsEvmTxReceipt := throw (receiptTimeout txHash)
  match client.rawTxSubmitter with
  | .bnsServer => pollUntil (pollServer txHash required) timeout polls
  | .chainRpc =>
    if !libraries.parsesB256 txHash then throw (invalidB256 "tx_hash" txHash)
    else pollUntil (pollNode txHash required config.requireSuccess) timeout polls

def validatedRawTxBytes : BnsClientResult Bytes := do
  let decoded ← libraries.fromRawTx prepared.rawTx
  if !eqIgnoreAsciiCase decoded.txHash prepared.txHash then
    .error (.serialization (text "prepared tx hash " ++ prepared.txHash ++
      text " does not match raw transaction hash " ++ decoded.txHash))
  else if decoded.chainId ≠ prepared.chainId ∨ decoded.nonce ≠ prepared.nonce then
    .error (.serialization (text "prepared tx metadata does not match raw transaction"))
  else .ok decoded.rawTx

/-- The answer to a transaction the node knows. -/
def knownSubmission (state : BnsTxState)
    (unknown : EvmProgram BnsEvmTxSubmission) : EvmProgram BnsEvmTxSubmission :=
  match state.state with
  | .pending => pure (preparedSubmission prepared)
  | .succeeded => pure { preparedSubmission prepared with receiptStatus := some 1 }
  | .reverted => throw (txReverted prepared.txHash)
  | .notFound => unknown

/-- A hash in the answer that differs from the prepared one is only logged. -/
def submitPreparedTx (requestId : Bytes) (prepared : BnsEvmPreparedTx) :
    EvmProgram BnsEvmTxSubmission := do
  let rawTx ← computed (validatedRawTxBytes libraries prepared)
  let submitted : BnsClientResult Bytes ← effect (submitRawTx requestId rawTx)
  match submitted with
  | .error submitError =>
    match ← attempt (queryPreparedTxState libraries client prepared.txHash) with
    | .ok state => knownSubmission prepared state (throw submitError)
    | .error _ => throw submitError
  | .ok _ =>
    match client.receiptWait with
    | some config =>
      let receipt ← waitForReceipt libraries client prepared.txHash config
      pure { preparedSubmission prepared with receiptStatus := receipt.status }
    | none => pure (preparedSubmission prepared)

/-- A transaction the lookup does not find, or cannot look up, is sent again byte for
byte. -/
def recoverPreparedTx (requestId : Bytes) (prepared : BnsEvmPreparedTx) :
    EvmProgram BnsEvmTxSubmission := do
  match ← attempt (queryPreparedTxState libraries client prepared.txHash) with
  | .ok state =>
    knownSubmission prepared state (submitPreparedTx libraries client requestId prepared)
  | .error _ => submitPreparedTx libraries client requestId prepared

end Client

end CyfsGateway.SnEvmClient
