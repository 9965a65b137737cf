import CyfsGateway.Sn.RequestRules

/-!
# What the EVM client guarantees

A prepared transaction is a signed one; a submission says nothing about the state
of a transaction that no receipt has said, and an error that calls a transaction
reverted is backed by a receipt.
-/

namespace CyfsGateway.SnClientRules

open Evm Tasks BnsModel SnRequests SnActions SnEvmClient SnIdempotency SnRequestRules Action

variable {libraries : Libraries} {client : BnsEvmControllerClient} {world after : World}

theorem safe_anything {task : Task Answer Value} (htask : task.Only Quiet) :
    SnSafe libraries Anything task world := safe_quietly (fun _ _ => trivial) htask

/-- A quiet program that only ends with an error. -/
theorem runs_failing {Good : World → Value → Prop} {program : Program Answer Error Unit}
    {error : Error} (hprog : program.run.Only Quiet) :
    SnRuns libraries Good Anything (program >>= fun _ => throw error) world :=
  runs_bind (runs_quietly hprog) fun _ _ _ _ => runs_throw trivial

/-- A lock neither helps nor harms what other tasks cannot break. -/
theorem runs_withLock {Good : World → Value → Prop} {Bad : World → Error → Prop} {lock : Lock}
    {body : Program Answer Error Value}
    (hgood : ∀ {world after value}, Leads world after → Good world value → Good after value)
    (hbad : ∀ {world after error}, Leads world after → Bad world error → Bad after error)
    (hbody : ∀ after, Leads world after → SnRuns libraries Good Bad body after) :
    SnRuns libraries Good Bad (withLock lock body) world := by
  refine safe_bind (safe_anything (only_perform (acquire lock) trivial))
    fun _ acquired hacquired _ => ?_
  refine safe_bind (hbody acquired hacquired) fun outcome ended _ hout => ?_
  refine safe_bind (safe_anything (only_perform (release lock) trivial))
    fun _ released hreleased _ => ?_
  cases outcome with
  | ok value => exact ⟨rfl, hgood hreleased hout⟩
  | error error => exact ⟨rfl, hbad hreleased hout⟩

structure Matches (signed : SignedTx) (prepared : BnsEvmPreparedTx) : Prop where
  txHash : prepared.txHash = signed.txHash
  rawTx : prepared.rawTx = signed.rawTx
  nonce : prepared.nonce = signed.nonce
  chainId : prepared.chainId = signed.chainId

theorem only_nextNonce (signer : Bytes) : (nextNonce client signer).run.Only Quiet := by
  refine only_try (only_effect (takeNonce client.id signer) trivial) fun cached => ?_
  cases cached with
  | some nonce => exact trivial
  | none =>
    exact only_try (only_fallible (only_perform (transactionCount signer) trivial))
      fun _ => only_effect _ trivial

theorem only_unsignedTx (signer calldata : Bytes) (call : WriteRequest) :
    (unsignedTx libraries client signer calldata call).run.Only Quiet := by
  unfold unsignedTx
  split
  · refine only_try (only_fallible (only_perform (prepareTx signer calldata) trivial))
      fun resp => ?_
    split
    · exact only_try (only_effect _ trivial) fun _ => trivial
    · exact trivial
  · refine only_try (only_nextNonce signer) fun nonce => ?_
    split
    · exact trivial
    · split
      · exact only_try (only_effect _ trivial) fun _ => trivial
      · exact trivial

theorem only_resetNonce (signer : Bytes) : (resetNonce client signer).run.Only Quiet :=
  only_effect _ trivial

theorem safe_signTransaction (id : Nat) (tx : UnsignedTx) :
    SnSafe libraries (Outcome (fun _ signed => Genuine libraries signed) Anything)
      (perform (signTransaction id tx) : Task Answer (BnsClientResult SignedTx)) world := by
  refine safe_perform fun now _ hintact => ?_
  refine keeps_quiet trivial hintact fun choice answer after hadmits hact _ => ?_
  rcases ask_eq_some hact with ⟨error, _, rfl, _⟩ | ⟨signed, hpick, rfl, _⟩
  · trivial
  · obtain ⟨rfl, hdecodes, _⟩ := pickSignature_eq_some hpick
    exact ⟨hdecodes, hadmits.1, hadmits.2⟩

def IsSigned (libraries : Libraries) (_ : World) (prepared : BnsEvmPreparedTx) : Prop :=
  ∃ signed, Genuine libraries signed ∧ Matches signed prepared

theorem runs_signedBy (signer : Bytes) (tx : UnsignedTx) :
    SnRuns libraries (IsSigned libraries) Anything (signedBy client signer tx) world := by
  refine runs_bind (runs_effect (safe_signTransaction client.id tx))
    fun signature signed _ hsign => ?_
  cases signature with
  | error error => exact runs_failing (only_resetNonce signer)
  | ok signed =>
    exact runs_ite (fun _ => runs_failing (only_resetNonce signer))
      fun _ => runs_pure ⟨signed, hsign, rfl, rfl, rfl, rfl⟩

theorem runs_prepareWithRequest (call : WriteRequest) :
    SnRuns libraries (IsSigned libraries) Anything (prepareWithRequest libraries client call)
      world := by
  refine runs_bind (runs_computed (outcome_anything _ _)) fun calldata _ _ _ => ?_
  refine runs_bind (runs_quietly (only_fallible (only_perform (signerAddress client.id call)
    trivial))) fun signer _ _ _ => ?_
  refine runs_withLock (fun _ h => h) (fun _ _ => trivial) fun after _ => ?_
  refine runs_bind (runs_quietly (only_unsignedTx signer calldata call)) fun tx _ _ _ => ?_
  cases tx with
  | error error => exact runs_failing (only_resetNonce signer)
  | ok tx => exact runs_signedBy signer tx

/-! ## Lookup and receipts -/

/-- An error about a transaction: it does not blame the data, unless the hash does not
parse, and it calls the transaction reverted only after a receipt. -/
def Excused (libraries : Libraries) (txHash : Bytes) (world : World) (error : BnsClientError) :
    Prop :=
  (libraries.parsesB256 txHash = true → error.code ≠ serializationErrorCode) ∧
    (error.code = evmTxRevertedCode → (txHash, true) ∈ world.receipts)

variable {txHash : Bytes}

theorem excused_of_plain {error : BnsClientError} (hplain : Plain error) :
    Excused libraries txHash world error := ⟨fun _ => hplain.1, fun hcode => (hplain.2 hcode).elim⟩

theorem reverted_ne_serialization : evmTxRevertedCode ≠ serializationErrorCode := by decide

theorem excused_txReverted (hrcpt : (txHash, true) ∈ world.receipts) :
    Excused libraries txHash world (txReverted txHash) :=
  ⟨fun _ => reverted_ne_serialization, fun _ => hrcpt⟩

theorem excused_invalidB256 {field : String} (hparses : libraries.parsesB256 txHash ≠ true) :
    Excused libraries txHash world (invalidB256 field txHash) :=
  ⟨fun hparsed => (hparses hparsed).elim, fun hcode => (reverted_ne_serialization hcode.symm).elim⟩

theorem safe_blockNumber : SnSafe libraries (Outcome Anything fun _ error => Plain error)
      (perform blockNumber : Task Answer (BnsClientResult UInt64)) world := by
  refine safe_perform fun now _ hintact => ?_
  refine keeps_quiet trivial hintact fun choice answer after hadmits hact _ => ?_
  rcases ask_eq_some hact with ⟨error, rfl, rfl, _⟩ | ⟨block, _, rfl, _⟩
  · exact hadmits
  · trivial

theorem safe_transactionByHash : SnSafe libraries (Outcome Anything fun _ error => Plain error)
      (perform (transactionByHash txHash) : Task Answer (BnsClientResult Bool)) world := by
  refine safe_perform fun now _ hintact => ?_
  refine keeps_quiet trivial hintact fun choice answer after hadmits hact _ => ?_
  rcases ask_eq_some hact with ⟨error, rfl, rfl, _⟩ | ⟨present, _, rfl, _⟩
  · exact hadmits
  · trivial

theorem runs_receiptConfirmations (block : UInt64) :
    SnRuns libraries Anything (Excused libraries txHash) (receiptConfirmations block) world := by
  have hblock : SnRuns libraries Anything (fun _ error => Plain error)
      (fallible (perform blockNumber : Task Answer (BnsClientResult UInt64))) world :=
    runs_fallible safe_blockNumber
  exact runs_bind (hblock.weaken (fun _ _ _ h => h) fun _ _ _ => excused_of_plain)
    fun _ _ _ _ => runs_pure trivial

theorem runs_blockConfirmations (block : Option UInt64) :
    SnRuns libraries Anything (Excused libraries txHash) (blockConfirmations block) world := by
  cases block with
  | some block => exact runs_receiptConfirmations block
  | none => exact runs_pure trivial

theorem runs_transactionReceipt : SnRuns libraries
      (fun after receipt => ∀ found, receipt = some found →
        (txHash, decide (found.status = some 0)) ∈ after.receipts)
      (Excused libraries txHash)
      (fallible (perform (transactionReceipt txHash) :
        Task Answer (BnsClientResult (Option EthReceipt)))) world := by
  have hrcpt : SnRuns libraries (fun after receipt => ∀ found, receipt = some found →
        (txHash, decide (found.status = some 0)) ∈ after.receipts)
      (fun _ error => Plain error)
      (fallible (perform (transactionReceipt txHash) :
        Task Answer (BnsClientResult (Option EthReceipt)))) world :=
    runs_fallible (safe_transactionReceipt txHash)
  exact hrcpt.weaken (fun _ _ _ h => h) fun _ _ _ => excused_of_plain

/-- What a lookup reports is backed by a receipt. -/
def LookedUp (txHash : Bytes) (world : World) (state : BnsTxState) : Prop :=
  Reported world.receipts txHash (lookupState state.state)

theorem runs_queryTxState : SnRuns libraries (LookedUp txHash) (Excused libraries txHash)
      (fallible (perform (queryTxState txHash) :
        Task Answer (BnsClientResult BnsTxState))) world := by
  have hquery : SnRuns libraries (LookedUp txHash) (fun _ error => Plain error)
      (fallible (perform (queryTxState txHash) : Task Answer (BnsClientResult BnsTxState))) world :=
    runs_fallible (safe_queryTxState txHash)
  exact hquery.weaken (fun _ _ _ h => h) fun _ _ _ => excused_of_plain

theorem reported_receipt {status : Option UInt64} {receipts : List (Bytes × Bool)}
    (hrcpt : (txHash, decide (status = some 0)) ∈ receipts) :
    Reported receipts txHash (lookupState (if status = some 0 then .reverted else .succeeded)) := by
  by_cases hstat : status = some 0
  · simpa [hstat, lookupState, Reported] using hrcpt
  · simpa [hstat, lookupState, Reported] using hrcpt

theorem runs_queryPreparedTxState : SnRuns libraries (LookedUp txHash) (Excused libraries txHash)
      (queryPreparedTxState libraries client txHash) world := by
  unfold queryPreparedTxState
  split
  · exact runs_queryTxState
  refine runs_ite (fun hparses => runs_throw (excused_invalidB256 (by simpa using hparses)))
    fun _ => ?_
  refine runs_bind runs_transactionReceipt fun receipt seen _ hrcpt => ?_
  cases receipt with
  | some receipt =>
    refine runs_bind (runs_blockConfirmations receipt.blockNumber) fun _ _ hleads _ => runs_pure ?_
    exact reported_receipt (hleads.receipts (hrcpt receipt rfl))
  | none =>
    have hknown : SnRuns libraries Anything (Excused libraries txHash)
        (fallible (perform (transactionByHash txHash) : Task Answer (BnsClientResult Bool))) seen :=
      (runs_fallible safe_transactionByHash).weaken (fun _ _ _ h => h) fun _ _ _ => excused_of_plain
    refine runs_bind hknown fun present _ _ _ => runs_pure ?_
    cases present <;> trivial

def Awaited (txHash : Bytes) (world : World) (receipt : BnsEvmTxReceipt) : Prop :=
  (txHash, decide (receipt.status = some 0)) ∈ world.receipts

section Polls

variable {later : EvmProgram BnsEvmTxReceipt}
  (hlater : ∀ after, SnRuns libraries (Awaited txHash) (Excused libraries txHash) later after)

include hlater

theorem runs_pollServer : SnRuns libraries (Awaited txHash) (Excused libraries txHash)
      (pollServer txHash required later) world := by
  refine runs_bind runs_queryTxState fun state seen _ hstate => ?_
  unfold LookedUp at hstate
  cases hcase : state.state with
  | succeeded =>
    rw [hcase] at hstate
    exact runs_ite (fun _ => runs_pure hstate) fun _ => hlater seen
  | reverted =>
    rw [hcase] at hstate
    exact runs_throw (excused_txReverted hstate)
  | pending | notFound => exact hlater seen

theorem runs_pollNode {requireSuccess : Bool} :
    SnRuns libraries (Awaited txHash) (Excused libraries txHash)
      (pollNode txHash required requireSuccess later) world := by
  refine runs_bind runs_transactionReceipt fun receipt seen _ hrcpt => ?_
  match receipt with
  | none => exact hlater seen
  | some ⟨_, none⟩ => exact hlater seen
  | some ⟨status, some block⟩ =>
    refine runs_bind (runs_receiptConfirmations block) fun confirmations counted hleads _ => ?_
    have hseen : (txHash, decide (status = some 0)) ∈ counted.receipts :=
      hleads.receipts (hrcpt _ rfl)
    refine runs_ite (fun _ => ?_) fun _ => hlater counted
    refine runs_ite (fun hreverted => runs_throw (excused_txReverted ?_)) fun _ => runs_pure hseen
    simp_all

end Polls

theorem runs_pollUntil {Value : Type} {Good : World → Value → Prop}
    {Bad : World → BnsClientError → Prop} {turn : EvmProgram Value → EvmProgram Value}
    {timeout : EvmProgram Value}
    (hturn : ∀ later, (∀ after, SnRuns libraries Good Bad later after) →
      ∀ after, SnRuns libraries Good Bad (turn later) after)
    (htime : ∀ after, SnRuns libraries Good Bad timeout after) (polls : Nat) (world : World) :
    SnRuns libraries Good Bad (pollUntil turn timeout polls) world := by
  induction polls generalizing world with
  | zero => exact hturn timeout htime world
  | succ polls ih => exact hturn _ ih world

theorem runs_waitForReceipt (config : BnsEvmReceiptWaitConfig) :
    SnRuns libraries (Awaited txHash) (Excused libraries txHash)
      (waitForReceipt libraries client txHash config) world := by
  refine runs_bind (runs_effect (safe_anything (only_perform pollsBeforeDeadline trivial)))
    fun polls _ _ _ => ?_
  have hcode : text "RPC_TRANSPORT_ERROR" ≠ serializationErrorCode ∧
    text "RPC_TRANSPORT_ERROR" ≠ evmTxRevertedCode := by decide
  have htime : ∀ after, SnRuns libraries (Awaited txHash) (Excused libraries txHash)
      (throw (receiptTimeout txHash)) after := fun _ => runs_throw (excused_of_plain hcode)
  cases client.rawTxSubmitter with
  | bnsServer => exact runs_pollUntil (fun _ hlater _ => runs_pollServer hlater) htime polls _
  | chainRpc =>
    refine runs_ite (fun hparses => runs_throw (excused_invalidB256 (by simpa using hparses)))
      fun _ => ?_
    exact runs_pollUntil (fun _ hlater _ => runs_pollNode hlater) htime polls _

/-! ## Broadcast -/

/-- A transaction that may be handed over to the chain: the row of its request already
carries it, so a restart finds it. -/
structure Sendable (libraries : Libraries) (signed : SignedTx) (requestId : Bytes)
    (prepared : BnsEvmPreparedTx) (world : World) : Prop where
  genuine : Genuine libraries signed
  corresponds : Matches signed prepared
  known : ∃ record, Known libraries record world ∧ record.requestId = requestId ∧
    record.evmRawTx = some signed.rawTx

theorem Sendable.later (hsend : Sendable libraries signed requestId prepared world)
    (hleads : Leads world after) : Sendable libraries signed requestId prepared after := by
  obtain ⟨record, hknown, hfields⟩ := hsend.known
  exact ⟨hsend.genuine, hsend.corresponds, record, hknown.later hleads, hfields⟩

theorem validatedRawTxBytes_eq (hgen : Genuine libraries signed)
    (hmatch : Matches signed prepared) :
    validatedRawTxBytes libraries prepared = .ok signed.rawTx := by
  have hdec := hgen.decodes.1
  simp [validatedRawTxBytes, hmatch.rawTx, hmatch.txHash, hmatch.nonce, hmatch.chainId,
    hdec, eqIgnoreAsciiCase, bind, Except.bind]

/-- The state a submission leaves its request in is one a receipt has reported. -/
def Submitted (txHash : Bytes) (world : World) (submission : BnsEvmTxSubmission) : Prop :=
  Reported world.receipts txHash (submissionState submission)

theorem submitted_of_awaited {receipt : BnsEvmTxReceipt} {submission : BnsEvmTxSubmission}
    (hawaited : Awaited txHash world receipt)
    (hstat : submission.receiptStatus = receipt.status) :
    Submitted txHash world submission := by
  unfold Awaited at hawaited
  unfold Submitted submissionState
  rw [hstat]
  split
  · next hzero => simpa [hzero, Reported] using hawaited
  · next status hother hsome =>
    have hne : status ≠ 0 := hother
    simpa [hsome, hne, Reported] using hawaited
  · trivial

theorem runs_knownSubmission {state : BnsTxState} {unknown : EvmProgram BnsEvmTxSubmission}
    (hstate : LookedUp prepared.txHash world state)
    (hunknown : SnRuns libraries (Submitted prepared.txHash) (Excused libraries prepared.txHash)
      unknown world) :
    SnRuns libraries (Submitted prepared.txHash) (Excused libraries prepared.txHash)
      (knownSubmission prepared state unknown) world := by
  unfold LookedUp at hstate
  unfold knownSubmission
  cases hcase : state.state with
  | pending => exact runs_pure trivial
  | succeeded =>
    rw [hcase] at hstate
    exact runs_pure hstate
  | reverted =>
    rw [hcase] at hstate
    exact runs_throw (excused_txReverted hstate)
  | notFound => exact hunknown

theorem runs_submitPreparedTx (hsend : Sendable libraries signed requestId prepared world) :
    SnRuns libraries (Submitted prepared.txHash) (Excused libraries prepared.txHash)
      (submitPreparedTx libraries client requestId prepared) world := by
  obtain ⟨record, hknown, hid, hraw⟩ := hsend.known
  unfold submitPreparedTx
  rw [validatedRawTxBytes_eq hsend.genuine hsend.corresponds]
  have hvalid : SnRuns libraries (fun _ rawTx => rawTx = signed.rawTx)
      (Excused libraries prepared.txHash) (computed (.ok signed.rawTx)) world := runs_computed rfl
  refine runs_bind hvalid fun rawTx _ hleads hrawTx => ?_
  subst hrawTx
  refine runs_bind (runs_effect (safe_submitRawTx (hknown.later hleads) hid hraw))
    fun submitted handed _ hsubmitted => ?_
  cases submitted with
  | error submitError =>
    refine runs_bind (runs_attempt runs_queryPreparedTxState) fun lookup seen _ hlook => ?_
    cases lookup with
    | ok state => exact runs_knownSubmission hlook (runs_throw (excused_of_plain hsubmitted))
    | error _ => exact runs_throw (excused_of_plain hsubmitted)
  | ok hash =>
    cases client.receiptWait with
    | some config =>
      exact runs_bind (runs_waitForReceipt config) fun receipt _ _ hrcpt =>
        runs_pure (submitted_of_awaited hrcpt rfl)
    | none => exact runs_pure trivial

theorem runs_recoverPreparedTx (hsend : Sendable libraries signed requestId prepared world) :
    SnRuns libraries (Submitted prepared.txHash) (Excused libraries prepared.txHash)
      (recoverPreparedTx libraries client requestId prepared) world := by
  refine runs_bind (runs_attempt runs_queryPreparedTxState) fun lookup seen hleads hlook => ?_
  have hsubmit : SnRuns libraries (Submitted prepared.txHash) (Excused libraries prepared.txHash)
      (submitPreparedTx libraries client requestId prepared) seen :=
    runs_submitPreparedTx (hsend.later hleads)
  cases lookup with
  | ok state => exact runs_knownSubmission hlook hsubmit
  | error _ => exact hsubmit

end CyfsGateway.SnClientRules
