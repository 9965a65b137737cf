import CyfsGateway.Sn.ClientRules
import CyfsGateway.Sn.Plans

/-!
# A write request is executed at most once

The controller's programs keep the rules of the request store, so every run of
controllers over one store does.  What a call answers is the result stored under
its request id, and what was handed to the network for a request is the one
transaction its row carries.
-/

namespace CyfsGateway.SnAtMostOnce

open Evm Transition Checks Tasks BnsModel SnRequests SnActions SnEvmClient SnDocuments
  SnIdempotency SnController SnRequestRules SnClientRules SnPlans SnBnsControllerError

variable {libraries : Libraries} {client : BnsEvmControllerClient} {world after : World}
  {record old : SnBnsWriteRequestRecord} {signed : SignedTx}

/-- The request a record was read from, possibly in a later state. -/
def Reread (libraries : Libraries) (old : SnBnsWriteRequestRecord) (world : World)
    (record : SnBnsWriteRequestRecord) : Prop :=
  Known libraries record world ∧ SameRequest old record

theorem runs_rereadRequest (hknown : Known libraries old world) :
    SnRuns libraries (fun after found => ∀ record, found = some record →
        Reread libraries old after record) Anything
      (fallible (perform (Action.getRequest old.requestId) :
        Task Answer (StoreResult (Option SnBnsWriteRequestRecord)))) world := by
  refine safe_perform fun now hleads hintact => ?_
  refine keeps_quiet trivial hintact fun choice answer after _ hact hsame => ?_
  refine outcome_of_reading hact fun record hrec => ?_
  obtain ⟨hmem, hid⟩ := mem_of_getRow hrec
  exact ⟨(known_of_mem hintact hmem).later hsame.leads,
    ((hknown.later hleads).continues hintact hmem hid).same⟩

theorem runs_acceptLatest (hknown : Known libraries old world) :
    SnRuns libraries (fun after latest => Reread libraries old after latest ∧
        agrees latest = true) Anything
      (acceptLatest old.requestId agrees disappeared lost) world := by
  refine runs_bind (runs_rereadRequest hknown) fun found seen _ hfound => ?_
  cases found with
  | none => exact runs_throw trivial
  | some latest =>
    exact runs_ite (fun hagrees => runs_pure ⟨hfound latest rfl, hagrees⟩)
      fun _ => runs_throw trivial

theorem runs_updateInflight (hadv : Advances libraries old record world) :
    SnRuns libraries (fun after updated => updated = true → Known libraries record after)
      Anything (updateInflightRequest record) world := runs_fallible (safe_updateInflight hadv)

theorem sameRequest_chainRecord (record : SnBnsWriteRequestRecord) (state : BnsWriteRequestState) :
    SameRequest record (chainRecord record state) ∧ (chainRecord record state).state = state := by
  unfold chainRecord
  split
  · exact ⟨⟨rfl, rfl, rfl, rfl, rfl, rfl, rfl⟩, rfl⟩
  · exact ⟨⟨rfl, rfl, rfl, rfl, rfl, rfl, rfl⟩, rfl⟩

variable {txHash : Bytes} {state : BnsWriteRequestState}

theorem advances_chainRecord
    (hknown : Known libraries record world) (hhash : record.evmTxHash = some txHash)
    (hstate : state = .pending ∨ state = .succeeded ∨ state = .reverted)
    (hrep : Reported world.receipts txHash state) :
    Advances libraries record (chainRecord record state) world := by
  obtain ⟨hsame, hnew⟩ := sameRequest_chainRecord record state
  refine ⟨hknown, hsame, by rwa [hnew], fun signed _ hcarry => ?_⟩
  have hsign : signed.txHash = txHash :=
    Option.some.inj (hcarry.txHash.symm.trans (hsame.evmTxHash.trans hhash))
  rw [hnew, hsign]
  exact hrep

theorem runs_storeChainRecord (hadv : Advances libraries old record world) :
    SnRuns libraries (Reread libraries old) Anything (storeChainRecord record false) world := by
  refine runs_bind (runs_updateInflight hadv) fun updated stored hleads hupd => ?_
  refine runs_ite (fun htrue => runs_pure ⟨hupd htrue, hadv.same⟩) fun _ => ?_
  rw [hadv.same.requestId]
  exact (runs_acceptLatest (hadv.known.later hleads)).weaken (fun _ _ _ h => h.1)
    fun _ _ _ h => h

theorem runs_transitionFromChainState {state} (hknown : Known libraries record world)
    (hhash : record.evmTxHash = some txHash)
    (hrep : Reported world.receipts txHash (lookupState state)) :
    SnRuns libraries (Reread libraries record) Anything
      (transitionFromChainState record state false) world := by
  cases state with
  | notFound => exact runs_throw trivial
  | pending => exact runs_storeChainRecord (advances_chainRecord hknown hhash (.inl rfl) hrep)
  | succeeded =>
    exact runs_storeChainRecord (advances_chainRecord hknown hhash (.inr (.inl rfl)) hrep)
  | reverted =>
    exact runs_storeChainRecord (advances_chainRecord hknown hhash (.inr (.inr rfl)) hrep)

/-- A reconciliation that ends with the record, never with another execution: that would
first have to remove the row, which the source does for a corrupted one only. -/
def Reconciled (libraries : Libraries) (old : SnBnsWriteRequestRecord) (world : World) :
    SnBnsReconcileAction → Prop
  | .record record => Reread libraries old world record
  | .execute => False

theorem runs_reconciled {program : ControllerProgram SnBnsWriteRequestRecord}
    (hprog : SnRuns libraries (Reread libraries old) Anything program world) :
    SnRuns libraries (Reconciled libraries old) Anything
      (program >>= fun record => pure (.record record)) world :=
  runs_bind hprog fun _ _ _ hreread => runs_pure hreread

theorem runs_executionState (state : BnsWriteRequestState) :
    SnRuns libraries (fun _ execution => lookupState execution = state) Anything
      (executionState state) world := by
  cases state with
  | pending | succeeded | reverted => exact runs_pure rfl
  | sending | failed => exact runs_throw trivial

variable {prepared : BnsEvmPreparedTx}

theorem runs_recoverPreparedRecord {mode : SnBnsRecoveryMode}
    (hknown : Known libraries record world) (hgen : Genuine libraries signed)
    (hcarry : Carries signed record) (hmatch : Matches signed prepared) :
    SnRuns libraries (Reconciled libraries record) Anything
      (recoverPreparedRecord libraries client record prepared mode) world := by
  have hsend : Sendable libraries signed record.requestId prepared world :=
    ⟨hgen, hmatch, record, hknown, rfl, hcarry.rawTx⟩
  have hhash : record.evmTxHash = some prepared.txHash := by
    rw [hmatch.txHash]
    exact hcarry.txHash
  have hrecover : SnRuns libraries (Submitted prepared.txHash)
      (fun after error => ∃ cause, error = .bns cause ∧
        Excused libraries prepared.txHash after cause)
      (mapError bns (recoverPreparedTx libraries client record.requestId prepared)) world :=
    runs_mapError ((runs_recoverPreparedTx hsend).weaken (fun _ _ _ h => h)
      fun _ error _ hexcused => ⟨error, rfl, hexcused⟩)
  refine runs_bind (runs_attempt hrecover) fun outcome ended hleads hout => ?_
  have hstill := hknown.later hleads
  cases outcome with
  | ok submission =>
    have hsubmitted : Reported ended.receipts prepared.txHash (submissionState submission) :=
      hout
    refine runs_bind (runs_executionState _) fun execution later hmore hexec => ?_
    rw [← hexec] at hsubmitted
    exact runs_reconciled (runs_transitionFromChainState (hstill.later hmore) hhash
      (hsubmitted.mono hmore.receipts))
  | error error =>
    obtain ⟨cause, rfl, hexcused⟩ := hout
    refine runs_ite (fun hcode => ?_) fun _ => ?_
    · exact runs_reconciled (runs_transitionFromChainState hstill hhash (hexcused.2 hcode))
    · exact runs_ite (fun hcode => (hexcused.1
        (hsend.corresponds.txHash ▸ hsend.genuine.decodes.2) hcode).elim)
        fun _ => runs_throw trivial

theorem runs_reconcileInflightRecord (hknown : Known libraries record world) :
    SnRuns libraries (Reconciled libraries record) Anything
      (reconcileInflightRecord libraries client record mode) world := by
  obtain ⟨_, signed, hgen, hcarry, _⟩ := hknown.intact
  have hcomplete : reconcileInflightRecord libraries client record mode =
      recoverPreparedRecord libraries client record
        { txHash := signed.txHash, rawTx := signed.rawTx, fromAddress := [],
          nonce := signed.nonce, chainId := signed.chainId } mode := by
    simp only [reconcileInflightRecord, hcarry.rawTx, hcarry.txHash, hcarry.nonce,
      hcarry.chainId]
  rw [hcomplete]
  exact runs_recoverPreparedRecord hknown hgen hcarry ⟨rfl, rfl, rfl, rfl⟩

/-- The answer to a request: the result its row stores, as it is or marked as reused. -/
def Answered (requestId payloadHash : Bytes) (world : World) (output : WriteOutput) : Prop :=
  ∃ row ∈ world.rows, row.requestId = requestId ∧ row.payloadHash = payloadHash ∧
    ∃ stored, row.resultJson = some stored ∧ (output = stored ∨ output = stored.markReused)

variable {requestId payloadHash : Bytes} {output : WriteOutput}

theorem Answered.later (hleads : Leads world after)
    (hans : Answered requestId payloadHash world output) :
    Answered requestId payloadHash after output := by
  obtain ⟨row, hrow, hid, hpay, stored, hstored, houtput⟩ := hans
  obtain ⟨next, hnext, hcont⟩ := hleads.rows row hrow
  have hsame := hcont.same
  exact ⟨next, hnext, hsame.requestId.trans hid, hsame.payloadHash.trans hpay, stored,
    hsame.resultJson.trans hstored, houtput⟩

theorem answered_of_known (hknown : Known libraries record world)
    (hstored : record.resultJson = some stored)
    (houtput : output = stored ∨ output = stored.markReused) :
    Answered record.requestId record.payloadHash world output := by
  obtain ⟨row, hrow, hcont⟩ := hknown.row
  have hsame := hcont.same
  exact ⟨row, hrow, hsame.requestId, hsame.payloadHash, stored,
    hsame.resultJson.trans hstored, houtput⟩

/-- A replay that is answered from the store, never executed again. -/
def Reused (old : SnBnsWriteRequestRecord) (world : World) : SnBnsExistingAction → Prop
  | .reuse output => Answered old.requestId old.payloadHash world output
  | .execute => False

theorem decode_eq_ok (hdecode : stored.decode kind = .ok output) : output = stored := by
  rw [WriteOutput.decode] at hdecode
  split at hdecode
  · exact (Except.ok.inj hdecode).symm
  · cases hdecode

theorem runs_answerExisting (kind : OutputKind) (hreread : Reread libraries old world record) :
    SnRuns libraries (Reused old) Anything (answerExisting kind record) world := by
  unfold answerExisting
  split
  case h_1 | h_2 =>
    split
    · exact runs_throw trivial
    next stored hstored =>
    have hdec : SnRuns libraries (fun _ output => output = stored) Anything
        (computed (stored.decode kind)) world := by
      refine runs_computed ?_
      cases hdecode : stored.decode kind with
      | ok output => exact decode_eq_ok hdecode
      | error error => trivial
    refine runs_bind hdec fun output _ hleads houtput => runs_pure ?_
    have hans := answered_of_known (hreread.1.later hleads) hstored (.inr rfl)
    rw [hreread.2.requestId, hreread.2.payloadHash] at hans
    rw [houtput]
    exact hans
  all_goals exact runs_throw trivial

theorem runs_handleExisting (kind : OutputKind) (hknown : Known libraries record world) :
    SnRuns libraries (Reused record) Anything (handleExisting libraries client kind record)
      world := by
  have hlive : ¬ (record.state = .failed ∧
      record.errorCode = some evmTxRecoveryDataInvalid) := fun hfail => hknown.intact.1 hfail.1
  have hretry : SnRuns libraries (fun _ action => action = .record record) Anything
      (retryQuarantined libraries client record) world := by
    rw [retryQuarantined, if_neg hlive]
    exact runs_pure rfl
  refine runs_bind hretry fun action retried hretried haction => ?_
  subst haction
  have hcomplete : SnRuns libraries (Reconciled libraries record) Anything
      (completeInflight libraries client record) retried :=
    runs_ite (fun _ => runs_reconcileInflightRecord (hknown.later hretried))
      fun _ => runs_pure ⟨hknown.later hretried, .refl record⟩
  refine runs_bind hcomplete fun action completed _ haction => ?_
  cases action with
  | execute => exact haction.elim
  | record latest => exact runs_answerExisting kind haction

/-- What the store says about a request: nothing, or its stored result. -/
def Existing (requestId payloadHash : Bytes) (world : World) : SnBnsExistingAction → Prop
  | .reuse output => Answered requestId payloadHash world output
  | .execute => True

theorem runs_existingRequest (kind : OutputKind) :
    SnRuns libraries (Existing requestId payloadHash) Anything
      (existingRequest libraries client requestId payloadHash kind) world := by
  refine runs_bind (runs_fallible (safe_getRequest requestId)) fun found read _ hfound => ?_
  cases found with
  | none => exact runs_pure trivial
  | some record =>
    obtain ⟨hid, hknown⟩ := hfound record rfl
    refine runs_ite (fun _ => runs_throw trivial) fun hpay => ?_
    refine (runs_handleExisting kind hknown).weaken (fun _ action _ haction => ?_) fun _ _ _ h => h
    cases action with
    | execute => exact haction.elim
    | reuse output =>
      rw [← hid, ← not_not.mp hpay]
      exact haction

/-! ## First executions -/

theorem prepared_preparedRecord
    (hgen : Genuine libraries signed) (hmatch : Matches signed prepared) :
    Prepared libraries signed (preparedRecord base prepared output) where
  genuine := hgen
  carries := ⟨congrArg some hmatch.txHash, congrArg some hmatch.rawTx,
    congrArg some hmatch.nonce, congrArg some hmatch.chainId⟩
  sending := rfl

theorem only_abandonPreparedTx {Error : Type} (prepared : BnsEvmPreparedTx) :
    (abandonPreparedTx libraries client prepared : Program Answer Error Unit).run.Only Quiet :=
  only_ite (only_effect (Action.resetNonce client.id prepared.fromAddress) trivial) trivial

theorem runs_persistPrepared (hprep : Prepared libraries signed record) :
    SnRuns libraries (fun after _ => Known libraries record after) Anything
      (persistPrepared libraries client record prepared) world := by
  refine runs_bind (runs_effect (safe_tryBegin hprep)) fun begun stored _ hbegun => ?_
  match begun with
  | .ok .acquired => exact runs_pure (hbegun rfl)
  | .error error => exact runs_failing (only_abandonPreparedTx prepared)
  | .ok (.existing existing) =>
    refine runs_bind (runs_quietly (only_abandonPreparedTx prepared)) fun _ _ _ _ => ?_
    exact runs_ite (fun _ => runs_throw trivial) fun _ => runs_throw trivial

theorem reported_of_carries (hhash : record.evmTxHash = some txHash)
    (hrep : Reported world.receipts txHash state) (hcarry : Carries carried record) :
    Reported world.receipts carried.txHash state := by
  rw [Option.some.inj (hcarry.txHash.symm.trans hhash)]
  exact hrep

theorem submissionState_final (submission : BnsEvmTxSubmission) :
    submissionState submission = .pending ∨ submissionState submission = .succeeded ∨
      submissionState submission = .reverted := by
  unfold submissionState
  split <;> simp

theorem runs_submitPersisted
    (hprep : Prepared libraries signed record) (hmatch : Matches signed prepared)
    (hknown : Known libraries record world) :
    SnRuns libraries Anything Anything (submitPersisted libraries client record prepared)
      world := by
  have hhash : record.evmTxHash = some prepared.txHash := by
    rw [hmatch.txHash]
    exact hprep.carries.txHash
  have hsend : Sendable libraries signed record.requestId prepared world :=
    ⟨hprep.genuine, hmatch, record, hknown, rfl, hprep.carries.rawTx⟩
  have hsubmit : SnRuns libraries (Submitted prepared.txHash)
      (fun after error => ∃ cause, error = .bns cause ∧
        Excused libraries prepared.txHash after cause)
      (mapError bns (submitPreparedTx libraries client record.requestId prepared)) world :=
    runs_mapError ((runs_submitPreparedTx hsend).weaken (fun _ _ _ h => h)
      fun _ error _ hexcused => ⟨error, rfl, hexcused⟩)
  refine runs_bind (runs_attempt hsubmit) fun outcome ended hleads hout => ?_
  have hstill := hknown.later hleads
  cases outcome with
  | ok submission =>
    have hadv : Advances libraries record
        { record with
          state := submissionState submission, errorCode := none, errorMessage := none }
        ended :=
      ⟨hstill, ⟨rfl, rfl, rfl, rfl, rfl, rfl, rfl⟩, submissionState_final submission,
        fun _ _ hcarry => reported_of_carries hhash hout
          ⟨hcarry.txHash, hcarry.rawTx, hcarry.nonce, hcarry.chainId⟩⟩
    refine runs_bind (runs_updateInflight hadv) fun _ _ _ _ => ?_
    refine runs_ite (fun _ => runs_throw trivial) fun _ => ?_
    exact runs_ite (fun _ => runs_throw trivial) fun _ => runs_pure trivial
  | error error =>
    obtain ⟨cause, rfl, hexcused⟩ := hout
    refine runs_ite (fun hcode => ?_) fun _ => runs_throw trivial
    have hreverted : Reported ended.receipts prepared.txHash .reverted := hexcused.2 hcode
    have hadv : Advances libraries record
        { record with
          state := .reverted
          errorCode := some (bns cause).code
          errorMessage := some (bns cause).message }
        ended :=
      ⟨hstill, ⟨rfl, rfl, rfl, rfl, rfl, rfl, rfl⟩, .inr (.inr rfl),
        fun _ _ hcarry => reported_of_carries hhash hreverted
          ⟨hcarry.txHash, hcarry.rawTx, hcarry.nonce, hcarry.chainId⟩⟩
    refine runs_bind (runs_updateInflight hadv) fun _ updated hmore _ => ?_
    refine runs_ite (fun _ => ?_) fun _ => runs_throw trivial
    exact runs_bind ((runs_acceptLatest (hstill.later hmore)).weaken
      (fun _ _ _ _ => trivial) fun _ _ _ h => h) fun _ _ _ _ => runs_throw trivial

theorem runs_persistAndSubmit
    (hgen : Genuine libraries signed) (hmatch : Matches signed prepared) :
    SnRuns libraries
      (fun after _ => Known libraries (preparedRecord base prepared output) after) Anything
      (persistAndSubmit libraries client base prepared output) world := by
  have hprep : Prepared libraries signed (preparedRecord base prepared output) :=
    prepared_preparedRecord hgen hmatch
  refine runs_bind (runs_mapError (runs_persistPrepared hprep)) fun _ _ _ hknown => ?_
  refine runs_mapError ?_
  exact (runs_submitPersisted hprep hmatch hknown).weaken
    (fun _ _ hleads _ => hknown.later hleads) fun _ _ _ _ => trivial

theorem quiet_of_reads (action : Action) (hreads : Reads action) : Quiet action := by
  cases action <;> trivial

theorem runs_executeOnce (hplan : ReadsOnly plan) :
    SnRuns libraries (Answered base.requestId base.payloadHash) Anything
      (executeOnce libraries client base plan) world := by
  refine runs_bind (runs_mapError (runs_quietly (hplan.mono quiet_of_reads))) fun write _ _ _ => ?_
  refine runs_bind (runs_mapError (runs_prepareWithRequest write.request))
    fun prepared _ _ hsign => ?_
  obtain ⟨signed, hgen, hmatch⟩ := hsign
  refine runs_bind (runs_persistAndSubmit hgen hmatch) fun _ _ _ hknown => runs_pure ?_
  have hans := answered_of_known hknown rfl (.inl rfl)
  exact hans

theorem runs_retryStale {Mode : Type} {rules : Rules Action Choice World Mode} {mode : Mode}
    {Good : World → WriteOutput → Prop} {once : Program Answer ExecutionError WriteOutput}
    (honce : ∀ after, Runs (semantics libraries) rules mode Good Anything once after)
    (retries : Nat) (world : World) :
    Runs (semantics libraries) rules mode Good Anything (retryStale once retries) world := by
  induction retries generalizing world with
  | zero => exact honce world
  | succ retries ih =>
    refine runs_bind (runs_attempt (honce world)) fun outcome ended _ hout => ?_
    cases outcome with
    | ok output => exact runs_pure hout
    | error error => exact runs_ite (fun _ => ih ended) fun _ => runs_throw trivial

theorem runs_executeOperation {operation : Operation} (hplan : ReadsOnly operation.plan) :
    SnRuns libraries (Answered operation.requestId payloadHash) Anything
      (executeOperation libraries client operation payloadHash) world := by
  refine runs_bind (runs_effect (safe_anything (only_perform Action.now trivial)))
    fun now _ _ _ => ?_
  exact runs_mapError ((runs_retryStale (fun _ => runs_executeOnce hplan) _ _).weaken
    (fun _ _ _ h => h) fun _ _ _ _ => trivial)

theorem runs_runIdempotent {formats} (hplan : ReadsOnly operation.plan) :
    SnRuns libraries (Answered operation.requestId (hashJson formats operation.payload)) Anything
      (runIdempotent libraries formats client operation) world := by
  refine runs_withLock (fun hleads h => h.later hleads) (fun _ _ => trivial) fun locked _ => ?_
  refine runs_bind (runs_computed (outcome_anything _ _)) fun _ _ _ _ => ?_
  refine runs_bind (runs_existingRequest operation.kind) fun action _ _ haction => ?_
  cases action with
  | reuse output => exact runs_pure haction
  | execute => exact runs_executeOperation hplan

theorem runs_recoverRecords (report : SnBnsRecoveryReport)
    (hknown : ∀ record ∈ records, Known libraries record world) :
    SnRuns libraries Anything Anything (recoverRecords libraries client records report) world := by
  induction records generalizing report world with
  | nil => exact runs_pure trivial
  | cons record records ih =>
    rw [List.forall_mem_cons] at hknown
    refine runs_bind (runs_attempt (runs_reconcileInflightRecord hknown.1))
      fun outcome ended hleads _ => ?_
    have hothers : ∀ other ∈ records, Known libraries other ended := fun other hother =>
      (hknown.2 other hother).later hleads
    cases outcome with
    | ok _ | error _ => exact ih _ hothers

theorem runs_recoverInflightRequests :
    SnRuns libraries Anything Anything (recoverInflightRequests libraries client) world := by
  refine runs_withLock (fun _ _ => trivial) (fun _ _ => trivial) fun locked _ => ?_
  refine runs_bind (runs_fallible safe_listInflight) fun records _ _ hrecs => ?_
  exact runs_recoverRecords _ fun record hrec => (hrecs record hrec).2

theorem runs_recordReceipt (hstate : state = .succeeded ∨ state = .reverted)
    (hrep : Reported world.receipts txHash state) :
    SnRuns libraries Anything Anything (recordReceipt txHash state) world := by
  refine runs_bind (runs_fallible safe_listInflight) fun records listed hleads hrecs => ?_
  have hstill := hrep.mono hleads.receipts
  cases hfind : records.find? fun record => record.evmTxHash = some txHash with
  | none => exact runs_pure trivial
  | some record =>
    have hknown := (hrecs record (List.mem_of_find?_eq_some hfind)).2
    have hhash : record.evmTxHash = some txHash := by simpa using List.find?_some hfind
    have hadv := advances_chainRecord hknown hhash (.inr hstate) hstill
    refine runs_bind (runs_updateInflight hadv) fun updated _ hmore _ => ?_
    refine runs_ite (fun _ => ?_) fun _ => runs_pure trivial
    rw [hadv.same.requestId]
    exact runs_bind ((runs_acceptLatest (hknown.later hmore)).weaken (fun _ _ _ _ => trivial)
      fun _ _ _ h => h) fun _ _ _ _ => runs_pure trivial

theorem receiptState_reported
    (hres : Outcome (Awaited txHash) (fun after error => ∃ cause, error = .bns cause ∧
      Excused libraries txHash after cause) world result)
    (hstate : receiptState result = some state) :
    (state = .succeeded ∨ state = .reverted) ∧ Reported world.receipts txHash state := by
  cases result with
  | ok receipt =>
    have hawaited : (txHash, decide (receipt.status = some 0)) ∈ world.receipts := hres
    rw [receiptState, Option.some.injEq] at hstate
    subst hstate
    by_cases hstat : receipt.status = some 0
    · rw [decide_eq_true hstat] at hawaited
      rw [if_pos hstat]
      exact ⟨.inr rfl, hawaited⟩
    · rw [decide_eq_false hstat] at hawaited
      rw [if_neg hstat]
      exact ⟨.inl rfl, hawaited⟩
  | error error =>
    obtain ⟨cause, rfl, hexcused⟩ := hres
    rw [receiptState] at hstate
    split at hstate
    · next hcode =>
      obtain rfl := Option.some.inj hstate
      exact ⟨.inr rfl, hexcused.2 hcode⟩
    · cases hstate

theorem runs_waitForEvmReceipt (config : BnsEvmReceiptWaitConfig) :
    SnRuns libraries Anything Anything (waitForEvmReceipt libraries client txHash config)
      world := by
  have hwait : SnRuns libraries (Awaited txHash)
      (fun after error => ∃ cause, error = .bns cause ∧ Excused libraries txHash after cause)
      (mapError bns (waitForReceipt libraries client txHash config)) world :=
    runs_mapError ((runs_waitForReceipt config).weaken (fun _ _ _ h => h)
      fun _ error _ hexcused => ⟨error, rfl, hexcused⟩)
  refine runs_bind (runs_attempt hwait) fun result ended _ hres => ?_
  cases hstate : receiptState result with
  | none => exact runs_computed (outcome_anything _ _)
  | some state =>
    obtain ⟨hfinal, hrep⟩ := receiptState_reported hres hstate
    exact runs_bind (runs_recordReceipt hfinal hrep)
      fun _ _ _ _ => runs_computed (outcome_anything _ _)

/-! ## Runs -/

def AnswersStored (formats : Formats) :
    ControllerCall → World → SnBnsControllerResult CallResult → Prop
  | .write controller call, world, .ok (.written output) =>
    ∃ operation, call.operation formats controller.config = .ok operation ∧
      Answered operation.requestId (hashJson formats operation.payload) world output
  | .replayRemoveBoundZone _ params, world, .ok (.replayed (some output)) =>
    Answered params.requestId (hashJson formats (.removeBoundZone params)) world output
  | _, _, _ => True

variable {formats : Formats}

theorem stable_answersStored (call : ControllerCall) :
    (requestRules libraries).Stable () (AnswersStored formats call) := by
  intro world after value hleads hstored
  match call, value with
  | .write _ _, .ok (.written _) =>
    obtain ⟨operation, hop, hans⟩ := hstored
    exact ⟨operation, hop, hans.later hleads⟩
  | .replayRemoveBoundZone _ _, .ok (.replayed (some _)) => exact Answered.later hleads hstored
  | .write _ _, .ok (.replayed _) | .write _ _, .ok (.receipt _)
  | .write _ _, .ok (.recovered _) | .write _ _, .error _ => trivial
  | .replayRemoveBoundZone _ _, .ok (.replayed none)
  | .replayRemoveBoundZone _ _, .ok (.written _) | .replayRemoveBoundZone _ _, .ok (.receipt _)
  | .replayRemoveBoundZone _ _, .ok (.recovered _) | .replayRemoveBoundZone _ _, .error _ => trivial
  | .waitForEvmReceipt .., _ => trivial
  | .recoverInflightRequests _, _ => trivial

theorem runs_write (controller : SnBnsController) (call : WriteCall) : SnRuns libraries
      (fun after output => ∃ operation, call.operation formats controller.config = .ok operation ∧
        Answered operation.requestId (hashJson formats operation.payload) after output)
      Anything (write libraries formats controller call) world := by
  have hop : SnRuns libraries
      (fun _ operation => call.operation formats controller.config = .ok operation) Anything
      (computed (call.operation formats controller.config)) world := by
    refine runs_computed ?_
    cases call.operation formats controller.config with
    | ok operation => exact rfl
    | error error => trivial
  refine runs_bind hop fun operation _ _ hyields => ?_
  exact (runs_runIdempotent (readsOnly_operation operation hyields)).weaken
    (fun _ _ _ hans => ⟨operation, hyields, hans⟩) fun _ _ _ h => h

theorem runs_replayRemoveBoundZone (controller : SnBnsController) (params : RemoveBoundZoneParams) :
    SnRuns libraries (fun after output => ∀ stored, output = some stored →
        Answered params.requestId (hashJson formats (.removeBoundZone params)) after stored)
      Anything (replayRemoveBoundZone libraries formats controller params) world := by
  refine runs_ite (fun _ => runs_throw trivial) fun _ => ?_
  refine runs_withLock (fun hleads h stored hstored => (h stored hstored).later hleads)
    (fun _ _ => trivial) fun locked _ => ?_
  refine runs_bind (runs_existingRequest .removeZone) fun action _ _ haction => ?_
  cases action with
  | reuse output =>
    refine runs_pure fun stored hstored => ?_
    obtain rfl := Option.some.inj hstored
    exact haction
  | execute => exact runs_pure fun _ hstored => (Option.some_ne_none _ hstored.symm).elim

theorem safe_program (call : ControllerCall) (world : World) :
    SnSafe libraries (AnswersStored formats call)
      ((controllers libraries formats).program call) world := by
  cases call with
  | write controller call =>
    exact safe_of_runs (runs_bind ((runs_write controller call).weaken (fun _ _ _ h => h)
      fun _ _ _ _ => trivial) fun _ _ _ hans => runs_pure hans)
  | replayRemoveBoundZone controller params =>
    refine safe_of_runs (runs_bind ((runs_replayRemoveBoundZone controller params).weaken
      (fun _ _ _ h => h) fun _ _ _ _ => trivial) fun output _ _ hans => runs_pure ?_)
    cases output with
    | none => trivial
    | some stored => exact hans stored rfl
  | waitForEvmReceipt controller txHash config =>
    exact safe_of_runs (runs_bind ((runs_waitForEvmReceipt config).weaken (fun _ _ _ h => h)
      fun _ _ _ _ => trivial) fun _ _ _ _ => runs_pure trivial)
  | recoverInflightRequests controller =>
    exact safe_of_runs (runs_bind (runs_recoverInflightRequests.weaken (fun _ _ _ h => h)
      fun _ _ _ _ => trivial) fun _ _ _ _ => runs_pure trivial)

theorem sameRequests_reboot (world : World) : SameRequests world world.reboot := ⟨rfl, rfl, rfl⟩

/-- A step of controllers over one store, with an answer of the environment under
which they keep their requests. -/
abbrev ControllerStep (libraries : Libraries) (formats : Formats) :=
  StepMeeting (controllers libraries formats) fun _ => Admitted

abbrev ControllerSystem := System ControllerCall Answer (SnBnsControllerResult CallResult) World

/-- At most one transaction was handed to the network for a request. -/
def OneTransaction (world : World) : Prop :=
  ∀ requestId first second, (requestId, first) ∈ world.handed →
    (requestId, second) ∈ world.handed → first = second

theorem oneTransaction_of_intact (hintact : Intact libraries world) : OneTransaction world := by
  intro requestId first second hfirst hsnd
  obtain ⟨row, hrow, hid, hraw⟩ := hintact.handed _ hfirst
  obtain ⟨other, hother, hotherId, hotherRaw⟩ := hintact.handed _ hsnd
  have hsame : row = other :=
    List.inj_on_of_nodup_map hintact.unique hrow hother (hid.trans hotherId.symm)
  subst hsame
  exact Option.some.inj (hraw.symm.trans hotherRaw)

/-- A write that succeeded has the payload of every row of its request. -/
def RejectsOthers (formats : Formats) (system : ControllerSystem) : Prop :=
  ∀ job ∈ system.jobs, ∀ controller call operation output, job.call = .write controller call →
    call.operation formats controller.config = .ok operation →
    job.task = .done (.ok (.written output)) →
    ∀ row ∈ system.world.rows, row.requestId = operation.requestId →
      row.payloadHash = hashJson formats operation.payload

/-- Requests need no modes: their tasks rely on what they guarantee. -/
def requestModes (libraries : Libraries) (formats : Formats) :
    Discipline (controllers libraries formats).semantics (requestRules libraries) := .uniform

/-- Every job keeps the requests and is answered with what is stored. -/
abbrev SoundRequests (libraries : Libraries) (formats : Formats) : ControllerSystem → Prop :=
  Sound (controllers libraries formats) (AnswersStored formats) (requestModes libraries formats)

theorem soundRequests_run (hsound : SoundRequests libraries formats first)
    (htrace : Trace (ControllerStep libraries formats) first moves next) :
    SoundRequests libraries formats next ∧ Leads first.world next.world :=
  sound_run stable_answersStored safe_program
    (fun world hworld => ⟨(sameRequests_reboot world).intact hworld,
      (sameRequests_reboot world).leads⟩) hsound
    (htrace.mono fun _ _ _ _ hstep => admitted_of_meets _ _ hstep fun _ _ hadm => hadm)

theorem rejectsOthers_of_sound (hsound : SoundRequests libraries formats system) :
    RejectsOthers formats system := by
  intro job hjob controller call operation output hcall hop htask row hrow hid
  have hends := hsound.finished hjob htask
  rw [hcall] at hends
  obtain ⟨found, hfound, answered, hans, hansweredId, hpay, _⟩ := hends
  obtain rfl := Except.ok.inj (hop.symm.trans hfound)
  have hsame : row = answered :=
    List.inj_on_of_nodup_map hsound.invariant.unique hrow hans (hid.trans hansweredId.symm)
  rw [hsame]
  exact hpay

/-- Runs of controllers over one store of uncorrupted rows: for a request at most one
transaction is handed to the network; a call that succeeds is answered with the
result stored for its payload; rows keep their payload, result and transaction and
their states move forward; a final state is one a receipt has reported. -/
theorem requests_execute_once {start middle last : ControllerSystem}
    {before rest : List (Move ControllerCall Choice)} (hidle : start.jobs = [])
    (hintact : Intact libraries start.world)
    (hbefore : Trace (ControllerStep libraries formats) start before middle)
    (hrest : Trace (ControllerStep libraries formats) middle rest last) :
    OneTransaction last.world ∧ (∀ job ∈ last.jobs, ∀ result, job.task = .done result →
        AnswersStored formats job.call last.world result) ∧
      RejectsOthers formats last ∧
      (∀ row ∈ middle.world.rows, ∃ next ∈ last.world.rows, Continues row next) ∧
      (∀ row ∈ last.world.rows, IntactRow libraries last.world.receipts row) := by
  have hstart : SoundRequests libraries formats start := by
    obtain ⟨world, jobs⟩ := start
    subst hidle
    exact sound_idle hintact
  obtain ⟨hmid, _⟩ := soundRequests_run hstart hbefore
  obtain ⟨hlast, hleads⟩ := soundRequests_run hmid hrest
  exact ⟨oneTransaction_of_intact hlast.invariant,
    fun job hjob result htask => hlast.finished hjob htask, rejectsOthers_of_sound hlast,
    hleads.rows, hlast.invariant.rows⟩

/-- Raw transactions that begin with their nonce and are their own hash. -/
def sampleSigned (nonce : UInt8) (data : Bytes) : SignedTx where
  signer := text "0x01"
  txHash := nonce :: data
  rawTx := nonce :: data
  nonce := nonce.toUInt64
  chainId := 1

def sampleLibraries : Libraries where
  fromRawTx
    | nonce :: data => .ok
        { txHash := nonce :: data, rawTx := nonce :: data, fromAddress := text "0x01",
          nonce := nonce.toUInt64, chainId := 1 }
    | [] => .error (.serialization [])
  encodeCall _ := .ok []
  parsesAddress _ := true
  parsesB256 _ := true

def sampleFormats : Formats where
  chain :=
    { keccak256 := fun _ => ⟨List.replicate 32 0, rfl⟩
      sha256 := fun _ => ⟨List.replicate 32 0, rfl⟩
      chainId := 1
      self := .ofByte 1 }
  toVec _ := text "json"
  fromSlice _ := .ok .null
  jcs _ := []
  txtToVec _ := []
  txtFromSlice _ := .ok []
  devicesFromSlice _ := .ok {}
  payloadToVec _ := []
  rulesToVec _ := []
  web3Bridge _ := none

def sampleController : SnBnsController where
  config :=
    { snControllerPrincipal := { kind := .chainAccount, value := text "0x01" }
      snControllerKid := []
      allowedControllerDocTypes := [[]]
      maxInlineDocumentSize := 4096
      writeRetryLimit := 2 }
  client :=
    { id := 0
      chainId := 1
      contractAddress := text "0x02"
      rawTxSubmitter := .bnsServer
      receiptWait := none
      dynamicTxParams := true }

def sampleWrite (requestId : Bytes) : ControllerCall :=
  .write sampleController (.registerName
    { requestId
      name := text "alice"
      assetOwner := text "0x03"
      registerOptions :=
        { duration := 0, gracePeriod := 0, renewable := true, transferable := true,
          initialSemanticOwner := {}, allowDelegatedSubnames := false,
          initialPaymentTarget := [], initialPaymentPolicyHash := [],
          initialNamespacePolicyHash := [] }
      ownerConfig := .object []
      ownerAuthorityKeys := []
      semanticOwnerAfterAuthority := none
      initialDocuments := []
      authority := ⟨.none, {}, []⟩
      guard := ⟨0, 0⟩ })

/-- A call takes its nonce, the node having suggested one. -/
def sampleNumbering (index : Nat) (suggested : UInt64) : List (Move ControllerCall Choice) :=
  [.time 0, .address (text "0x01"), .proceed, .prepared ⟨suggested, 1, text "0x02"⟩,
    .proceed].map (.step index)

/-- A call prepares, signs and persists a transaction of this nonce. -/
def samplePreparation (index : Nat) (suggested : UInt64) (signed : SignedTx) :
    List (Move ControllerCall Choice) :=
  sampleNumbering index suggested ++ [.signed signed, .proceed, .proceed].map (.step index)

def sampleLookup : Choice := .txState ⟨.notFound, none, 0⟩

/-- The broadcast of the first call times out although the network takes the
transaction. -/
def sampleTimeout : List (Move ControllerCall Choice) :=
  [.start (sampleWrite (text "r")), .step 0 .proceed, .step 0 .proceed] ++
    samplePreparation 0 1 (sampleSigned 1 []) ++
    [.step 0 (.submitted true (.error (.transport []))), .step 0 sampleLookup, .step 0 .proceed]

def sampleStart : ControllerSystem := { world := {}, jobs := [] }

/-- The request comes again: its transaction is not known to the network, and it is broadcast once
more. -/
def sampleReplay (answer : BnsClientResult Bytes) : List (Move ControllerCall Choice) :=
  [.start (sampleWrite (text "r")), .step 1 .proceed, .step 1 .proceed, .step 1 sampleLookup,
    .step 1 (.submitted true answer)]

/-- Behind the timeout the request comes again and succeeds; the network was handed one
transaction, twice. -/
theorem requests_execute_once_timeout :
    ∃ last, Trace (ControllerStep sampleLibraries sampleFormats) sampleStart
        (sampleTimeout ++ (sampleReplay (.ok [1]) ++ [.step 1 .proceed, .step 1 .proceed])) last ∧
      last.world.handed = [(text "r", [1]), (text "r", [1])] ∧ OneTransaction last.world ∧
      ∃ row ∈ last.world.rows, IntactRow sampleLibraries last.world.receipts row := by
  have hmoves : ((sampleStart.movesMeeting (controllers sampleLibraries sampleFormats)
      (fun _ => Admitted) (sampleTimeout ++
        (sampleReplay (.ok [1]) ++ [.step 1 .proceed, .step 1 .proceed]))).map fun last =>
          (last.world.handed, last.world.rows.length)) =
      some ([(text "r", [1]), (text "r", [1])], 1) := by decide +kernel
  obtain ⟨last, hlast, hfacts⟩ := Option.map_eq_some_iff.mp hmoves
  obtain ⟨hhanded, hrows⟩ := Prod.mk.inj hfacts
  have hrun := trace_movesMeeting hlast
  obtain ⟨middle, hbefore, hrest⟩ := trace_append_iff.mp hrun
  obtain ⟨hone, -, -, -, hintact⟩ := requests_execute_once rfl
    ⟨by simp [sampleStart], by simp [sampleStart], by simp [sampleStart]⟩ hbefore hrest
  obtain ⟨row, hrow⟩ := List.length_eq_one_iff.mp hrows
  exact ⟨last, hrun, hhanded, hone, row, by simp [hrow], hintact row (by simp [hrow])⟩

/-- The replay cannot decode the answer to its broadcast. -/
def sampleUndecoded : List (Move ControllerCall Choice) :=
  sampleReplay (.error (.serialization [])) ++ [.step 1 sampleLookup, .step 1 sampleLookup,
    .step 1 .proceed, .step 1 .proceed] ++ samplePreparation 1 2 (sampleSigned 2 []) ++
    [.step 1 (.submitted true (.ok [])), .step 1 .proceed, .step 1 .proceed]

/-- The row is taken for corrupt, deleted, and a second transaction is signed. -/
theorem replay_signs_again :
    ∃ moves last, sampleStart.moves (controllers sampleLibraries sampleFormats) moves = some last ∧
      ¬ OneTransaction last.world := by
  have hhanded : ((sampleStart.moves (controllers sampleLibraries sampleFormats)
      (sampleTimeout ++ sampleUndecoded)).map fun last => last.world.handed) =
        some [(text "r", [1]), (text "r", [1]), (text "r", [2])] := by decide +kernel
  rw [Option.map_eq_some_iff] at hhanded
  obtain ⟨last, hlast, hhanded⟩ := hhanded
  refine ⟨_, last, hlast, fun hone => ?_⟩
  have hsame := hone (text "r") [1] [2] (by rw [hhanded]; decide) (by rw [hhanded]; decide)
  exact absurd hsame (by decide)

end CyfsGateway.SnAtMostOnce
