import CyfsGateway.Sn.Plans

/-!
# What broadcast and recovery leave alone

Broadcast, lookup, receipt waits and the whole recovery of stored requests take no
nonce, sign nothing and begin no request: a stored transaction is resumed, never
replaced.
-/

namespace CyfsGateway.SnFootprints

open Evm Tasks BnsModel SnRequests SnActions SnEvmClient SnDocuments SnIdempotency SnPlans Action

/-- Actions that neither touch the nonce cache nor sign nor begin a request, and leave
the execution lock to others. -/
def Passive : Action → Prop
  | .acquire .execution | .release .execution | .tryBegin _ | .takeNonce .. | .fillNonce ..
  | .reserveNonce .. | .resetNonce .. | .signTransaction .. => False
  | _ => True

theorem passive_of_reads (action : Action) (hreads : Reads action) : Passive action := by
  cases action <;> trivial

variable {libraries : Libraries} {client : BnsEvmControllerClient}
  {record : SnBnsWriteRequestRecord} {prepared : BnsEvmPreparedTx}

/-! ## Broadcast and receipts -/

theorem only_receiptConfirmations (block : UInt64) :
    (receiptConfirmations block).run.Only Passive :=
  only_try (only_fallible (only_perform blockNumber trivial)) fun _ => trivial

variable (txHash : Bytes)

theorem only_queryPreparedTxState :
    (queryPreparedTxState libraries client txHash).run.Only Passive := by
  unfold queryPreparedTxState
  split
  · exact only_fallible (only_perform (queryTxState txHash) trivial)
  refine only_ite trivial ?_
  refine only_try (only_fallible (only_perform (transactionReceipt txHash) trivial))
    fun receipt => ?_
  match receipt with
  | some ⟨_, some block⟩ => exact only_try (only_receiptConfirmations block) fun _ => trivial
  | some ⟨_, none⟩ => exact trivial
  | none =>
    exact only_try (only_fallible (only_perform (transactionByHash txHash) trivial))
      fun _ => trivial

theorem only_pollUntil {Value : Type} {turn timeout}
    (hturn : ∀ later : EvmProgram Value, later.run.Only Passive → (turn later).run.Only Passive)
    (htime : timeout.run.Only Passive) (polls : Nat) :
    (pollUntil turn timeout polls).run.Only Passive := by
  induction polls with
  | zero => exact hturn timeout htime
  | succ polls ih => exact hturn _ ih

theorem only_pollServer (required : UInt64) (later : EvmProgram BnsEvmTxReceipt)
    (hlater : later.run.Only Passive) : (pollServer txHash required later).run.Only Passive := by
  refine only_try (only_fallible (only_perform (queryTxState txHash) trivial)) fun state => ?_
  cases state.state with
  | succeeded => exact only_ite trivial hlater
  | reverted => exact trivial
  | pending | notFound => exact hlater

theorem only_pollNode (required : UInt64) (requireSuccess : Bool)
    (later : EvmProgram BnsEvmTxReceipt) (hlater : later.run.Only Passive) :
    (pollNode txHash required requireSuccess later).run.Only Passive := by
  refine only_try (only_fallible (only_perform (transactionReceipt txHash) trivial))
    fun receipt => ?_
  match receipt with
  | some ⟨_, some block⟩ =>
    exact only_try (only_receiptConfirmations block) fun _ =>
      only_ite (only_ite trivial trivial) hlater
  | some ⟨_, none⟩ => exact hlater
  | none => exact hlater

theorem only_waitForReceipt (config : BnsEvmReceiptWaitConfig) :
    (waitForReceipt libraries client txHash config).run.Only Passive := by
  have htime : (throw (receiptTimeout txHash) : EvmProgram BnsEvmTxReceipt).run.Only Passive :=
    trivial
  refine only_try (only_effect pollsBeforeDeadline trivial) fun polls => ?_
  split
  · exact only_pollUntil (only_pollServer txHash _) htime polls
  · exact only_ite trivial (only_pollUntil (only_pollNode txHash _ _) htime polls)

theorem only_knownSubmission (state : BnsTxState) (hunknown : unknown.run.Only Passive) :
    (knownSubmission prepared state unknown).run.Only Passive := by
  unfold knownSubmission
  split
  · exact trivial
  · exact trivial
  · exact trivial
  · exact hunknown

theorem only_submitPreparedTx (requestId : Bytes) :
    (submitPreparedTx libraries client requestId prepared).run.Only Passive := by
  refine only_try (only_computed _) fun rawTx => ?_
  refine only_try (only_effect (submitRawTx requestId rawTx) trivial) fun submitted => ?_
  match submitted with
  | .error submitError =>
    refine only_try (only_attempt (only_queryPreparedTxState _)) fun lookup => ?_
    cases lookup with
    | ok state => exact only_knownSubmission state trivial
    | error _ => exact trivial
  | .ok _ =>
    cases hwait : client.receiptWait with
    | none => exact trivial
    | some config => exact only_try (only_waitForReceipt _ config) fun _ => trivial

theorem only_recoverPreparedTx (requestId : Bytes) :
    (recoverPreparedTx libraries client requestId prepared).run.Only Passive := by
  refine only_try (only_attempt (only_queryPreparedTxState _)) fun lookup => ?_
  cases lookup with
  | ok state => exact only_knownSubmission state (only_submitPreparedTx requestId)
  | error _ => exact only_submitPreparedTx requestId

theorem only_updateInflightRequest (record : SnBnsWriteRequestRecord) :
    (updateInflightRequest record).run.Only Passive :=
  only_fallible (only_perform (Action.updateInflight record) trivial)

theorem only_acceptLatest : (acceptLatest requestId agrees disappeared lost).run.Only Passive := by
  refine only_try (only_fallible (only_perform (getRequest requestId) trivial)) fun latest => ?_
  cases latest with
  | none => exact trivial
  | some latest => exact only_ite trivial trivial

theorem only_recordSubmission (submission : BnsEvmTxSubmission) :
    (recordSubmission record prepared submission).run.Only Passive :=
  only_try (only_updateInflightRequest _) fun _ => only_ite trivial (only_ite trivial trivial)

theorem only_recordFailedSubmission (error : SnBnsControllerError) :
    (recordFailedSubmission record error).run.Only Passive := by
  refine only_ite (only_try (only_updateInflightRequest _) fun _ => ?_) trivial
  exact only_ite (only_try only_acceptLatest fun _ => trivial) trivial

theorem only_submitPersisted :
    (submitPersisted libraries client record prepared).run.Only Passive := by
  refine only_try (only_attempt (only_mapError (only_submitPreparedTx _))) fun outcome => ?_
  cases outcome with
  | ok submission => exact only_recordSubmission submission
  | error error => exact only_recordFailedSubmission error

theorem only_storeChainRecord (fromRecoveryFailure : Bool) :
    (storeChainRecord record fromRecoveryFailure).run.Only Passive := by
  cases fromRecoveryFailure with
  | true =>
    exact only_try
      (only_fallible (only_perform (Action.resolveRecoveryFailed record) trivial)) fun _ =>
        only_ite trivial only_acceptLatest
  | false =>
    exact only_try (only_updateInflightRequest record) fun _ => only_ite trivial only_acceptLatest

theorem only_transitionFromChainState (state : BnsTxExecutionState) (fromRecoveryFailure : Bool) :
    (transitionFromChainState record state fromRecoveryFailure).run.Only Passive := by
  cases state with
  | notFound => exact trivial
  | pending | succeeded | reverted => exact only_storeChainRecord fromRecoveryFailure

/-! ## Recovery -/

theorem only_quarantine (reason : Bytes) :
    (quarantineInvalidRecoveryRecord record reason).run.Only Passive :=
  only_try (only_updateInflightRequest _) fun _ => only_ite trivial only_acceptLatest

theorem only_removeRecoveryFailedRequest (record : SnBnsWriteRequestRecord) :
    (removeRecoveryFailedRequest record).run.Only Passive :=
  only_fallible (only_perform (Action.removeRecoveryFailed _ _ _ _) trivial)

theorem only_queryTx : (queryTx libraries client txHash).run.Only Passive :=
  only_mapError (only_queryPreparedTxState txHash)

theorem only_reconciled (hprog : program.run.Only Passive) :
    (program >>= fun record => pure (.record record) :
      ControllerProgram SnBnsReconcileAction).run.Only Passive := only_try hprog fun _ => trivial

variable {mode : SnBnsRecoveryMode}

theorem only_reconcileInvalidRecord (reason : Bytes) :
    (reconcileInvalidRecord libraries client record reason mode).run.Only Passive := by
  unfold reconcileInvalidRecord
  split
  · refine only_try (only_queryTx _) fun state => ?_
    refine only_ite (only_try (only_quarantine reason) fun quarantined => ?_)
      (only_reconciled (only_transitionFromChainState _ _))
    refine only_ite ?_ trivial
    exact only_try (only_removeRecoveryFailedRequest quarantined) fun _ => only_ite trivial trivial
  · exact only_try (only_quarantine reason) fun _ => trivial

theorem only_executionState (state : BnsWriteRequestState) :
    (executionState state).run.Only Passive := by cases state <;> exact trivial

theorem only_recoverPreparedRecord :
    (recoverPreparedRecord libraries client record prepared mode).run.Only Passive := by
  refine only_try (only_attempt (only_mapError (only_recoverPreparedTx _))) fun outcome => ?_
  cases outcome with
  | ok submission =>
    exact only_try (only_executionState _) fun state =>
      only_reconciled (only_transitionFromChainState state false)
  | error error =>
    refine only_ite (only_reconciled (only_transitionFromChainState _ _)) ?_
    exact only_ite (only_reconcileInvalidRecord _) trivial

theorem only_repairRecord (decoded : BnsEvmPreparedTx) :
    (repairRecord record storedRawTx decoded).run.Only Passive := by
  refine only_ite (only_try ?_ fun _ => only_ite trivial trivial) trivial
  exact only_fallible (only_perform (Action.repairPreparedMetadata _ _ _ _ decoded) trivial)

theorem only_foreignHashState (decoded : BnsEvmPreparedTx) :
    (foreignHashState libraries client record decoded).run.Only Passive := by
  unfold foreignHashState
  split
  · refine only_ite (only_try (only_queryTx _) fun _ => ?_) trivial
    exact only_ite trivial trivial
  · exact trivial

theorem only_reconcileIncompleteRecord (storedRawTx : Bytes) :
    (reconcileIncompleteRecord libraries client record storedRawTx mode).run.Only Passive := by
  unfold reconcileIncompleteRecord
  split
  · exact only_reconcileInvalidRecord _
  refine only_try (only_foreignHashState _) fun state => ?_
  cases state with
  | some state => exact only_reconciled (only_transitionFromChainState state false)
  | none => exact only_try (only_repairRecord _) fun _ => only_recoverPreparedRecord

theorem only_reconcileInflightRecord :
    (reconcileInflightRecord libraries client record mode).run.Only Passive := by
  unfold reconcileInflightRecord
  split
  · refine only_try ?_ fun _ => only_ite trivial trivial
    exact only_fallible (only_perform (Action.removeUnprepared _ _) trivial)
  · exact only_reconcileInvalidRecord _
  · exact only_recoverPreparedRecord
  · exact only_reconcileIncompleteRecord _

theorem only_retryRecoveryFailedRecord :
    (retryRecoveryFailedRecord libraries client record).run.Only Passive := by
  have hremove : ∀ message : String, (do
      let removed ← removeRecoveryFailedRequest record
      if removed then pure .execute
      else throw (requestMessage record.requestId message) :
        ControllerProgram SnBnsReconcileAction).run.Only Passive := fun _ =>
    only_try (only_removeRecoveryFailedRequest record) fun _ => only_ite trivial trivial
  unfold retryRecoveryFailedRecord
  split
  · exact hremove _
  · refine only_try (only_queryTx _) fun state => ?_
    exact only_ite (hremove _) (only_reconciled (only_transitionFromChainState _ _))

theorem only_answerExisting (kind : OutputKind) :
    (answerExisting kind record).run.Only Passive := by
  unfold answerExisting
  split
  case h_1 | h_2 =>
    split
    · exact trivial
    · exact only_try (only_computed _) fun _ => trivial
  all_goals exact trivial

theorem only_handleExisting (kind : OutputKind) :
    (handleExisting libraries client kind record).run.Only Passive := by
  refine only_try (only_ite only_retryRecoveryFailedRecord trivial) fun retried => ?_
  cases retried with
  | execute => exact trivial
  | record record =>
    refine only_try (only_ite only_reconcileInflightRecord trivial) fun completed => ?_
    cases completed with
    | execute => exact trivial
    | record record => exact only_answerExisting kind

theorem only_existingRequest (kind : OutputKind) :
    (existingRequest libraries client requestId payloadHash kind).run.Only Passive := by
  refine only_try (only_fallible (only_perform (getRequest requestId) trivial)) fun existing => ?_
  cases existing with
  | none => exact trivial
  | some record => exact only_ite trivial (only_handleExisting kind)

theorem only_recoverRecords (records : List SnBnsWriteRequestRecord)
    (report : SnBnsRecoveryReport) :
    (recoverRecords libraries client records report).run.Only Passive := by
  induction records generalizing report with
  | nil => exact trivial
  | cons record records ih =>
    refine only_try (only_attempt only_reconcileInflightRecord) fun outcome => ?_
    cases outcome with
    | ok _ | error _ => exact ih _

theorem only_recordReceipt (txHash : Bytes) (state : BnsWriteRequestState) :
    (recordReceipt txHash state).run.Only Passive := by
  refine only_try (only_fallible (only_perform Action.listInflight trivial)) fun records => ?_
  split
  · exact trivial
  · refine only_try (only_updateInflightRequest _) fun _ => ?_
    exact only_ite (only_try only_acceptLatest fun _ => trivial) trivial

theorem only_waitForEvmReceipt (txHash : Bytes) (config : BnsEvmReceiptWaitConfig) :
    (waitForEvmReceipt libraries client txHash config).run.Only Passive := by
  refine only_try (only_attempt (only_mapError (only_waitForReceipt txHash config)))
    fun result => ?_
  split
  · exact only_try (only_recordReceipt txHash _) fun _ => only_computed result
  · exact only_computed result

end CyfsGateway.SnFootprints
