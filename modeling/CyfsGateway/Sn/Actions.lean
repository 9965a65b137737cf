import CyfsGateway.Sn.Requests
import CyfsGateway.Core.Tasks

/-!
# What the SN controller talks to

The actions of the controller: its locks, its request store, the nonce cache of
an EVM client, the key manager, the node and the indexer.  Every action is one
await point or one atomic step between two of them.  The world holds what
outlives an action; the last fields only record what was signed, handed to the
network, taken by it and reported by receipts.
-/

namespace CyfsGateway.SnActions

open Evm Tasks
open BnsTypes (AuthorityRole MutationGuard DocumentStatus)
open BnsModel SnRequests

structure DocumentUpdate where
  docType : Bytes
  expectedVersion : UInt64
  document : DocumentRef
  controller : Principal
  beneficiary : Principal
  paymentTarget : Bytes
  expireAt : UInt64
  controllerPolicyHash : Bytes
  paymentPolicyHash : Bytes
  splitPolicyHash : Bytes
  pricePolicyHash : Bytes
  rightsPolicyHash : Bytes
  deriving DecidableEq

structure CallAuthority where
  role : AuthorityRole
  actor : Principal
  kid : Bytes
  deriving DecidableEq

structure RegisterOptions where
  duration : UInt64
  gracePeriod : UInt64
  renewable : Bool
  transferable : Bool
  initialSemanticOwner : Principal
  allowDelegatedSubnames : Bool
  initialPaymentTarget : Bytes
  initialPaymentPolicyHash : Bytes
  initialNamespacePolicyHash : Bytes
  deriving DecidableEq

structure BnsRegisterNameReq where
  name : Bytes
  assetOwner : Bytes
  options : RegisterOptions
  authorityKeyUpdates : List (AuthorityKey × Bool)
  semanticOwnerAfterAuthority : Option Principal
  controllerPolicy : List ControllerRule
  controllerPolicyHash : Bytes
  initialDocuments : List DocumentUpdate
  authority : CallAuthority
  guard : MutationGuard
  deriving DecidableEq

structure BnsPublishDocumentReq where
  name : Bytes
  update : DocumentUpdate
  authority : CallAuthority
  guard : MutationGuard
  deriving DecidableEq

/-- The controller only combines documents; it never updates keys or policies. -/
structure BnsApplyMutationsReq where
  name : Bytes
  documents : List DocumentUpdate
  authority : CallAuthority
  guard : MutationGuard
  deriving DecidableEq

inductive WriteRequest
  | registerName (req : BnsRegisterNameReq)
  | applyMutations (req : BnsApplyMutationsReq)
  | publishDocument (req : BnsPublishDocumentReq)
  deriving DecidableEq

/-- The transaction a key manager signs, without its fees and gas limit. -/
structure UnsignedTx where
  call : WriteRequest
  chainId : UInt64
  nonce : UInt64
  deriving DecidableEq

structure SignedTx where
  signer : Bytes
  txHash : Bytes
  rawTx : Bytes
  nonce : UInt64
  chainId : UInt64
  deriving DecidableEq

inductive BnsTxExecutionState
  | notFound | pending | succeeded | reverted
  deriving DecidableEq

structure BnsTxState where
  state : BnsTxExecutionState
  blockNumber : Option UInt64
  confirmations : UInt64
  deriving DecidableEq

structure EthReceipt where
  status : Option UInt64
  blockNumber : Option UInt64
  deriving DecidableEq

/-- `BnsPrepareTxResp`, without its fees and gas limit. -/
structure BnsPrepareTxResp where
  nonce : UInt64
  chainId : UInt64
  contractAddress : Bytes
  deriving DecidableEq

/-- `ResolveResult`, of which the controller reads two fields. -/
structure ResolveResult where
  documentState : DocumentState
  status : DocumentStatus
  deriving DecidableEq

/-! ## Actions -/

inductive Lock
  | execution
  | submission (client : Nat)
  deriving DecidableEq

inductive Action
  | acquire (lock : Lock)
  | release (lock : Lock)
  | now
  | getRequest (requestId : Bytes)
  | tryBegin (record : SnBnsWriteRequestRecord)
  | listInflight
  | updateInflight (record : SnBnsWriteRequestRecord)
  | repairPreparedMetadata (requestId payloadHash expectedRawTx : Bytes)
      (expectedTxHash : Option Bytes) (prepared : BnsEvmPreparedTx)
  | resolveRecoveryFailed (record : SnBnsWriteRequestRecord)
  | removeRecoveryFailed (requestId payloadHash : Bytes) (txHash rawTx : Option Bytes)
  | removeUnprepared (requestId payloadHash : Bytes)
  | takeNonce (client : Nat) (signer : Bytes)
  | fillNonce (client : Nat) (signer : Bytes) (chainNonce : UInt64)
  | reserveNonce (client : Nat) (signer : Bytes) (suggested : UInt64)
  | resetNonce (client : Nat) (signer : Bytes)
  | signerAddress (client : Nat) (call : WriteRequest)
  | prepareTx (signer calldata : Bytes)
  | transactionCount (signer : Bytes)
  | suggestTx (signer calldata : Bytes)
  | signTransaction (client : Nat) (tx : UnsignedTx)
  /-- The request id only records for whom a transaction is handed over. -/
  | submitRawTx (requestId rawTx : Bytes)
  | queryTxState (txHash : Bytes)
  | transactionReceipt (txHash : Bytes)
  | blockNumber
  | transactionByHash (txHash : Bytes)
  /-- How many times a receipt wait polls before its deadline. -/
  | pollsBeforeDeadline
  | resolveDocument (name docType : Bytes)
  | queryNameState (name : Bytes)
  | getAuthoritySet (name : Bytes)

abbrev StoreResult (Value : Type) := Except SnBnsControllerError Value

def Answer : Action → Type
  | .acquire _ | .release _ | .resetNonce .. => Unit
  | .now => UInt64
  | .getRequest _ => StoreResult (Option SnBnsWriteRequestRecord)
  | .tryBegin _ => StoreResult SnBnsTryBeginResult
  | .listInflight => StoreResult Rows
  | .updateInflight _ | .repairPreparedMetadata .. | .resolveRecoveryFailed _
  | .removeRecoveryFailed .. | .removeUnprepared .. => StoreResult Bool
  | .takeNonce .. => Option UInt64
  | .fillNonce .. | .reserveNonce .. => UInt64
  | .signerAddress .. => BnsClientResult Bytes
  | .prepareTx .. => BnsClientResult BnsPrepareTxResp
  | .transactionCount _ => BnsClientResult UInt64
  | .suggestTx .. => BnsClientResult Unit
  | .signTransaction .. => BnsClientResult SignedTx
  | .submitRawTx .. => BnsClientResult Bytes
  | .queryTxState _ => BnsClientResult BnsTxState
  | .transactionReceipt _ => BnsClientResult (Option EthReceipt)
  | .blockNumber => BnsClientResult UInt64
  | .transactionByHash _ => BnsClientResult Bool
  | .pollsBeforeDeadline => Nat
  | .resolveDocument .. => BnsClientResult ResolveResult
  | .queryNameState _ => BnsClientResult (Option NameState)
  | .getAuthoritySet _ => BnsClientResult AuthoritySetState

/-- Functions of other libraries. -/
structure Libraries where
  /-- `BnsEvmPreparedTx::from_raw_tx`. -/
  fromRawTx : Bytes → BnsClientResult BnsEvmPreparedTx
  /-- The conversions of a request to calldata. -/
  encodeCall : WriteRequest → BnsClientResult Bytes
  /-- `Address::from_str` and `B256::from_str`. -/
  parsesAddress : Bytes → Bool
  parsesB256 : Bytes → Bool

structure Signature where
  tx : UnsignedTx
  signed : SignedTx
  deriving DecidableEq

structure World where
  /-- The SQLite table. -/
  rows : Rows := []
  locks : List Lock := []
  /-- `next_nonces` of each client. -/
  nonces : Nat → Bytes → Option UInt64 := fun _ _ => none
  signatures : List Signature := []
  /-- Request ids and the raw transactions handed to the network for them. -/
  handed : List (Bytes × Bytes) := []
  /-- Raw transactions the node has received. -/
  received : List Bytes := []
  /-- Hashes and whether their receipt said the transaction reverted. -/
  receipts : List (Bytes × Bool) := []

/-- Locks and caches live in the process. -/
def World.reboot (world : World) : World := { world with locks := [], nonces := fun _ _ => none }

inductive Choice
  /-- Nothing is left to decide. -/
  | proceed
  | storeFails (message : Bytes)
  | time (now : UInt64)
  | fails (error : BnsClientError)
  | address (address : Bytes)
  | prepared (resp : BnsPrepareTxResp)
  | number (value : UInt64)
  | signed (tx : SignedTx)
  /-- Whether the node receives the transaction, and what it answers. -/
  | submitted (taken : Bool) (answer : BnsClientResult Bytes)
  | txState (state : BnsTxState)
  | receipt (receipt : Option EthReceipt)
  | known (present : Bool)
  | polls (count : Nat)
  | document (result : ResolveResult)
  | nameState (state : Option NameState)
  | authoritySet (state : AuthoritySetState)

def Choice.proceed? : Choice → Option Unit
  | .proceed => some ()
  | _ => none

def Choice.address? : Choice → Option Bytes
  | .address value => some value
  | _ => none

def Choice.prepared? : Choice → Option BnsPrepareTxResp
  | .prepared resp => some resp
  | _ => none

def Choice.number? : Choice → Option UInt64
  | .number value => some value
  | _ => none

def Choice.txState? : Choice → Option BnsTxState
  | .txState state => some state
  | _ => none

def Choice.receipt? : Choice → Option (Option EthReceipt)
  | .receipt value => some value
  | _ => none

def Choice.known? : Choice → Option Bool
  | .known present => some present
  | _ => none

def Choice.document? : Choice → Option ResolveResult
  | .document result => some result
  | _ => none

def Choice.nameState? : Choice → Option (Option NameState)
  | .nameState state => some state
  | _ => none

def Choice.authoritySet? : Choice → Option AuthoritySetState
  | .authoritySet state => some state
  | _ => none

/-- The transaction a raw transaction decodes to is the one that was signed. -/
def Libraries.Decodes (libraries : Libraries) (signed : SignedTx) : Prop :=
  libraries.fromRawTx signed.rawTx = .ok
    { txHash := signed.txHash
      rawTx := signed.rawTx
      fromAddress := signed.signer
      nonce := signed.nonce
      chainId := signed.chainId } ∧
  libraries.parsesB256 signed.txHash = true

instance (libraries : Libraries) (signed : SignedTx) : Decidable (libraries.Decodes signed) :=
  inferInstanceAs (Decidable (_ ∧ _))

/-! ## Semantics -/

def internally {Value : Type} (choice : Choice) (result : Option (Value × World)) :
    Option (Value × World) :=
  match choice with
  | .proceed => result
  | _ => none

/-- A request to the outside: it fails, or the answer is noted. -/
def ask {Value : Type} (pick : Choice → Option Value) (note : Value → World → World)
    (choice : Choice) (world : World) : Option (BnsClientResult Value × World) :=
  match choice with
  | .fails error => some (.error error, world)
  | choice => (pick choice).map fun value => (.ok value, note value world)

def unnoted {Value : Type} (_ : Value) (world : World) : World := world

def runStatement {Value : Type} (choice : Choice) (world : World)
    (statement : Rows → StoreResult (Value × Rows)) :
    Option (StoreResult Value × World) :=
  match choice with
  | .storeFails message => some (.error (.store message), world)
  | .proceed =>
    match statement world.rows with
    | .ok (value, rows) => some (.ok value, { world with rows })
    | .error error => some (.error error, world)
  | _ => none

def setNonce (client : Nat) (signer : Bytes) (nonce : Option UInt64) (world : World) : World :=
  { world with
    nonces := Function.update world.nonces client
      (Function.update (world.nonces client) signer nonce) }

def noteState (txHash : Bytes) (state : BnsTxState) (world : World) : World :=
  match state.state with
  | .succeeded => { world with receipts := world.receipts ++ [(txHash, false)] }
  | .reverted => { world with receipts := world.receipts ++ [(txHash, true)] }
  | .pending | .notFound => world

def noteReceipt (txHash : Bytes) (receipt : Option EthReceipt) (world : World) : World :=
  match receipt with
  | some receipt =>
    { world with receipts := world.receipts ++ [(txHash, decide (receipt.status = some 0))] }
  | none => world

def handOver (requestId rawTx : Bytes) (taken : Bool) (world : World) : World :=
  { world with
    handed := world.handed ++ [(requestId, rawTx)]
    received :=
      if taken ∧ rawTx ∉ world.received then world.received ++ [rawTx]
      else world.received }

def pickSignature (libraries : Libraries) (tx : UnsignedTx) : Choice → Option SignedTx
  | .signed signed =>
    if libraries.Decodes signed ∧ signed.nonce = tx.nonce ∧ signed.chainId = tx.chainId then
      some signed
    else none
  | _ => none

def noteSignature (tx : UnsignedTx) (signed : SignedTx) (world : World) : World :=
  { world with signatures := world.signatures ++ [⟨tx, signed⟩] }

/-- Take a nonce and leave the next one in the cache. -/
def takeNext (client : Nat) (signer : Bytes) (nonce : UInt64) (world : World) :
    Option (UInt64 × World) := some (nonce, setNonce client signer (some (nonce + 1)) world)

/-- What an action answers and leaves, decided by a choice of its own kind.  A choice of
another kind does not apply, and an action without an answer has to wait. -/
def semantics (libraries : Libraries) : Semantics Answer Choice World
  | .acquire lock, choice, world =>
    internally choice (if lock ∈ world.locks then none
      else some ((), { world with locks := lock :: world.locks }))
  | .release lock, choice, world =>
    internally choice (some ((), { world with locks := world.locks.erase lock }))
  | .now, choice, world =>
    match choice with
    | .time now => some (now, world)
    | _ => none
  | .getRequest requestId, choice, world =>
    runStatement choice world fun rows => .ok (getRow requestId rows, rows)
  | .tryBegin record, choice, world => runStatement choice world (tryBegin record)
  | .listInflight, choice, world =>
    runStatement choice world fun rows => .ok (listInflight rows, rows)
  | .updateInflight record, choice, world => runStatement choice world (updateInflight record)
  | .repairPreparedMetadata requestId payloadHash rawTx txHash prepared, choice, world =>
    runStatement choice world fun rows =>
      .ok (repairPreparedMetadata requestId payloadHash rawTx txHash prepared rows)
  | .resolveRecoveryFailed record, choice, world =>
    runStatement choice world (resolveRecoveryFailed record)
  | .removeRecoveryFailed requestId payloadHash txHash rawTx, choice, world =>
    runStatement choice world fun rows =>
      .ok (removeRecoveryFailed requestId payloadHash txHash rawTx rows)
  | .removeUnprepared requestId payloadHash, choice, world =>
    runStatement choice world fun rows => .ok (removeUnprepared requestId payloadHash rows)
  | .takeNonce client signer, choice, world =>
    internally choice (match world.nonces client signer with
      | some nonce => some (some nonce, setNonce client signer (some (nonce + 1)) world)
      | none => some (none, world))
  | .fillNonce client signer chainNonce, choice, world =>
    internally choice (takeNext client signer ((world.nonces client signer).getD chainNonce) world)
  | .reserveNonce client signer suggested, choice, world =>
    internally choice (takeNext client signer
      (max ((world.nonces client signer).getD suggested) suggested) world)
  | .resetNonce client signer, choice, world =>
    internally choice (some ((), setNonce client signer none world))
  | .signerAddress .., choice, world => ask Choice.address? unnoted choice world
  | .prepareTx .., choice, world => ask Choice.prepared? unnoted choice world
  | .transactionCount _, choice, world => ask Choice.number? unnoted choice world
  | .suggestTx .., choice, world => ask Choice.proceed? unnoted choice world
  | .signTransaction _ tx, choice, world =>
    ask (pickSignature libraries tx) (noteSignature tx) choice world
  | .submitRawTx requestId rawTx, choice, world =>
    match choice with
    | .submitted taken answer => some (answer, handOver requestId rawTx taken world)
    | _ => none
  | .queryTxState txHash, choice, world => ask Choice.txState? (noteState txHash) choice world
  | .transactionReceipt txHash, choice, world =>
    ask Choice.receipt? (noteReceipt txHash) choice world
  | .blockNumber, choice, world => ask Choice.number? unnoted choice world
  | .transactionByHash _, choice, world => ask Choice.known? unnoted choice world
  | .pollsBeforeDeadline, choice, world =>
    match choice with
    | .polls count => some (count, world)
    | _ => none
  | .resolveDocument .., choice, world => ask Choice.document? unnoted choice world
  | .queryNameState _, choice, world => ask Choice.nameState? unnoted choice world
  | .getAuthoritySet _, choice, world => ask Choice.authoritySet? unnoted choice world

section Answers

theorem internally_eq_some {result : Option (Value × World)} {value : Value}
    (hact : internally choice result = some (value, after)) :
    result = some (value, after) := by cases choice <;> simp_all [internally]

theorem ask_eq_some {pick : Choice → Option Value} {note : Value → World → World}
    {answer : BnsClientResult Value}
    (hact : ask pick note choice world = some (answer, after)) :
    (∃ error, choice = .fails error ∧ answer = .error error ∧ after = world) ∨
      ∃ value, pick choice = some value ∧ answer = .ok value ∧ after = note value world := by
  by_cases hfails : ∃ error, choice = .fails error
  · obtain ⟨error, rfl⟩ := hfails
    simp only [ask, Option.some.injEq, Prod.mk.injEq] at hact
    exact .inl ⟨error, rfl, hact.1.symm, hact.2.symm⟩
  · have hask : ask pick note choice world =
        (pick choice).map fun value => (.ok value, note value world) := by
      cases choice <;> simp_all [ask]
    rw [hask, Option.map_eq_some_iff] at hact
    obtain ⟨value, hpick, hanswer⟩ := hact
    rw [Prod.mk.injEq] at hanswer
    exact .inr ⟨value, hpick, hanswer.1.symm, hanswer.2.symm⟩

theorem runStatement_eq_some {statement : Rows → StoreResult (Value × Rows)}
    {answer : StoreResult Value}
    (hact : runStatement choice world statement = some (answer, after)) :
    (∃ error, answer = .error error ∧ after = world) ∨
      ∃ value rows, statement world.rows = .ok (value, rows) ∧ answer = .ok value ∧
        after = { world with rows } := by
  cases choice with
  | storeFails message =>
    simp only [runStatement, Option.some.injEq, Prod.mk.injEq] at hact
    exact .inl ⟨_, hact.1.symm, hact.2.symm⟩
  | proceed =>
    cases hstmt : statement world.rows with
    | error error =>
      simp only [runStatement, hstmt, Option.some.injEq, Prod.mk.injEq] at hact
      exact .inl ⟨error, hact.1.symm, hact.2.symm⟩
    | ok result =>
      simp only [runStatement, hstmt, Option.some.injEq, Prod.mk.injEq] at hact
      exact .inr ⟨result.1, result.2, rfl, hact.1.symm, hact.2.symm⟩
  | _ => simp [runStatement] at hact

theorem pickSignature_eq_some (hpick : pickSignature libraries tx choice = some signed) :
    choice = .signed signed ∧ libraries.Decodes signed ∧ signed.nonce = tx.nonce := by
  cases choice with
  | signed candidate =>
    rw [pickSignature] at hpick
    split at hpick
    · next hvalid =>
      obtain rfl := Option.some.inj hpick
      exact ⟨rfl, hvalid.1, hvalid.2.1⟩
    · cases hpick
  | _ => cases hpick

end Answers

end CyfsGateway.SnActions
