import CyfsGateway.Bns.Runs

/-!
# Batches of one document

`applyMutations` with a single document does what `publishDocument` does, except that it
reserves `owner` documents to the owner: the bump of the name and the publication are
made in another order, and neither reads what the other writes.
-/

namespace CyfsGateway.BnsBatches

open Evm Reverting BnsTypes BnsValidation BnsStorage BnsCore BnsFacets BnsEffects BnsExecution
  BnsCalls BnsRuns

variable {chain : Deployment} {msg : Message} {machine after : Machine} {hash : Digest}
  {name : Bytes} {update : DocumentUpdate} {authority : CallAuthority}

instance {State Error : Type} : LawfulMonad (Exec State Error) := by
  refine .mk' _ (fun first => ?_) (fun _ _ => rfl) fun first _ _ => ?_ <;>
  · funext state
    simp only [Functor.map, bind]
    cases first state <;> rfl

/-- A publication that bumps the name may do so before. -/
theorem publish_bump_iff :
    publishDocumentInternal chain msg hash name update true machine = .ok (version, after) ↔
      ∃ seq : UInt64, seq.toNat = (machine.storage.names hash).nameSeq.toNat + UInt64.toNat 1 ∧
        publishDocumentInternal chain msg hash name update false { machine with
          storage := updateName hash (fun state => { state with updatedAt := msg.now })
            (updateName hash (fun state => { state with nameSeq := seq }) machine.storage) } =
          .ok (version, after) := by
  have hkey (seq : UInt64) :
      lineageStateKey (updateName hash (fun state => { state with updatedAt := msg.now })
        (updateName hash (fun state => { state with nameSeq := seq }) machine.storage)) hash =
      lineageStateKey machine.storage hash := by
    apply lineageStateKey_congr <;> simp [updateName]
  by_cases howner : update.docType = ownerDocType <;>
    by_cases hlive : lineageStateKey machine.storage hash = hash <;>
    simp only [publishDocumentInternal, bumpNameSeq, touchName, advanceVersion,
      recordOwnerDocument, runIf, howner, hlive, hkey, ne_eq, not_true, not_false_eq_true, if_true,
      if_false, Bool.false_eq_true, bind_assoc, pure_bind, check_bind_ok_iff, load_bind_ok_iff,
      revertIf_bind_ok_iff, store_bind_ok_iff, add_bind_ok_iff] <;>
    simp only [updateName, setCurrentVersion, putDocument, Function.update_self,
      Function.update_idem] <;>
    constructor
  all_goals
    first
    | rintro ⟨_, htype, _, href, _, hfirst, _, hsnd, hold, _, hnew, seq, hseq, hrun⟩
      exact ⟨seq, hseq, _, htype, _, href, _, hfirst, _, hsnd, hold, _, hnew, hrun⟩
    | rintro ⟨seq, hseq, _, htype, _, href, _, hfirst, _, hsnd, hold, _, hnew, hrun⟩
      exact ⟨_, htype, _, href, _, hfirst, _, hsnd, hold, _, hnew, seq, hseq, hrun⟩

/-- An inline document that may be published fits into a batch. -/
theorem validateBatchBounds_single (href : validateDocumentRef chain update.document = .ok ()) :
    validateBatchBounds 0 [update] = .ok () := by
  have hshort : ¬update.document.inlineDocument.length > maxMutationBatchInlineDocuments := by
    unfold validateDocumentRef maxInlineDocument at href
    unfold maxMutationBatchInlineDocuments
    split_ifs at href <;> omega
  simp [validateBatchBounds, maxMutationBatchItems, validateInlineBytes, hshort]

theorem authorizeMutations_single {policy} (hpol : policy.updateMinDocumentIat = false)
    (hplain : update.docType ≠ ownerDocType ∨ authority.role ≠ .controller) :
    authorizeMutations storage msg hash name [] [update] policy authority = .ok () ↔
      authorizeUpdateNoGuard storage msg hash name update.docType permissionPublishDocument
        opPublishDocument authority = .ok () := by
  by_cases howner : update.docType = ownerDocType
  · have hrole := hplain.resolve_left (not_not.mpr howner)
    by_cases hrole' : authority.role = .owner <;>
    simp [authorizeMutations, authorizeUpdateNoGuard, authorizeOwner, containsOwnerDocument,
      howner, hrole, hrole', hpol]
  · cases hauth : authorizeUpdateNoGuard storage msg hash name update.docType
        permissionPublishDocument opPublishDocument authority <;>
      simp [authorizeMutations, containsOwnerDocument, howner, hpol, hauth, bind,
        Except.bind, pure, Except.pure]

variable {guard : MutationGuard} {policy : OwnerPolicyUpdate}

/-- Both calls make the same checks and the same changes, unless a controller
publishes an `owner` document. -/
theorem publish_iff_batch {storage next : Storage} {logs : List BnsEvent}
    (hpolicy : policy.updateMinDocumentIat = false)
    (hplain : update.docType ≠ ownerDocType ∨ authority.role ≠ .controller) :
    runCall chain msg (.publishDocument name update authority guard) storage = .ok (next, logs) ↔
      runCall chain msg (.applyMutations name [] [update] policy authority guard) storage =
        .ok (next, logs) := by
  rw [runCall_ok_iff, runCall_ok_iff]
  simp only [execute, ignoreResult_ok_iff, publishDocument, applyMutations, check_bind_ok_iff,
    revertIf_bind_ok_iff, validateName_ok_iff, requireActiveName_ok_iff, authorizeUpdate_ok_iff,
    checkGuard_ok_iff, publish_bump_iff, hpolicy, authorizeMutations_single hpolicy hplain]
  simp only [runIf, publishDocuments, forEach, ignoreResult, bind_assoc, pure_bind,
    bumpNameSeq, touchName, List.length_nil, List.length_singleton, ne_eq, not_true, one_ne_zero,
    not_false_eq_true, true_or, if_true, if_false, Bool.false_eq_true, load_bind_ok_iff,
    add_bind_ok_iff, store_bind_ok_iff, hpolicy]
  constructor
  · rintro ⟨version, _, ⟨hname, rfl⟩, _, hactive, _, ⟨hguard, hauth⟩, seq, hseq, hrun⟩
    have hchecks := hrun
    simp only [publishDocumentInternal, check_bind_ok_iff] at hchecks
    obtain ⟨_, htype, _, href, -⟩ := hchecks
    have hunique : validateUniqueDocumentTypes [update] = .ok () := by
      simp [validateUniqueDocumentTypes, validateUniqueDocumentTypesFrom, htype, bind, Except.bind]
    exact ⟨_, by simp, (), validateBatchBounds_single href, (), hunique, _, ⟨hname, rfl⟩, (),
      hactive, (), hguard, (), hauth, seq, hseq, bind_ok_iff.mpr ⟨version, _, hrun, rfl⟩⟩
  · rintro ⟨_, -, _, -, _, -, _, ⟨hname, rfl⟩, _, hactive, _, hguard, _, hauth, seq, hseq,
      hrun⟩
    obtain ⟨version, middle, hpub, hrest⟩ := bind_ok_iff.mp hrun
    obtain ⟨-, rfl⟩ := pure_ok_iff.mp hrest
    exact ⟨version, _, ⟨hname, rfl⟩, (), hactive, (), ⟨hguard, hauth⟩, seq, hseq, hpub⟩

/-- What `publishDocument` checks: the name and the guard, the authority, the
document and the version it replaces, and room in the three counters it moves. -/
structure Publishable (chain : Deployment) (msg : Message) (storage : Storage) (name : Bytes)
    (update : DocumentUpdate) (authority : CallAuthority) (guard : MutationGuard) : Prop where
  admitted : Admitted msg storage (.publishDocument name update authority guard)
  docType : validDocType update.docType = true
  document : validateDocumentRef chain update.document = .ok ()
  controller : validatePrincipal update.controller = .ok ()
  beneficiary : validatePrincipal update.beneficiary = .ok ()
  version : currentVersion storage (nameHash name) (.keccak256 update.docType) =
    update.expectedVersion
  versionRoom : (storage.currentDocumentVersions (nameHash name)
    (.keccak256 update.docType)).toNat + 1 < 2 ^ 64
  nameSeqRoom : (storage.names (nameHash name)).nameSeq.toNat + 1 < 2 ^ 64
  eventSeqRoom : storage.globalEventSeq.toNat + 1 < 2 ^ 64

theorem exists_succ_iff {value : UInt64} :
    (∃ total : UInt64, total.toNat = value.toNat + UInt64.toNat 1) ↔ value.toNat + 1 < 2 ^ 64 := by
  constructor
  · rintro ⟨total, htotal⟩
    exact htotal ▸ total.toNat_lt
  · intro hroom
    exact ⟨.ofNat (value.toNat + 1), UInt64.toNat_ofNat_of_lt' hroom⟩

/-- A publication succeeds exactly when its own checks do. -/
theorem publishDocumentInternal_succeeds_iff :
    (∃ version after, publishDocumentInternal chain msg hash name update true machine =
      .ok (version, after)) ↔
      validDocType update.docType = true ∧ validateDocumentRef chain update.document = .ok () ∧
      validatePrincipal update.controller = .ok () ∧
      validatePrincipal update.beneficiary = .ok () ∧
      currentVersion machine.storage hash (.keccak256 update.docType) = update.expectedVersion ∧
      (machine.storage.currentDocumentVersions hash (.keccak256 update.docType)).toNat + 1 <
        2 ^ 64 ∧
      (machine.storage.names hash).nameSeq.toNat + 1 < 2 ^ 64 ∧
      machine.storage.globalEventSeq.toNat + 1 < 2 ^ 64 := by
  by_cases howner : update.docType = ownerDocType <;>
    by_cases hlive : lineageStateKey machine.storage hash = hash <;>
    simp only [publishDocumentInternal, bumpNameSeq, touchName, advanceVersion, commitEvent, emit,
      recordOwnerDocument, runIf, howner, hlive, ne_eq, not_true, not_false_eq_true, if_true,
      if_false, bind_assoc, pure_bind, check_bind_ok_iff, load_bind_ok_iff, revertIf_bind_ok_iff,
      store_bind_ok_iff, add_bind_ok_iff, modify_bind_ok_iff, validateDocType_ok_iff, pure_ok_iff,
      updateName, setCurrentVersion, putDocument, Function.update_self, not_not, currentVersion,
      and_assoc, exists_and_left, exists_eq_left, ← exists_succ_iff, Unique.exists_iff]
  all_goals
    constructor
    · rintro ⟨htype, href, hfirst, hsnd, hver, _, _, _, hnew, _, hseq, _, hevent, -⟩
      exact ⟨htype, href, hfirst, hsnd, hver, ⟨_, hnew⟩, ⟨_, hseq⟩, _, hevent⟩
    · rintro ⟨htype, href, hfirst, hsnd, hver, ⟨_, hnew⟩, ⟨_, hseq⟩, _, hevent⟩
      exact ⟨htype, href, hfirst, hsnd, hver, _, _, _, hnew, _, hseq, _, hevent, rfl, rfl⟩

theorem publish_succeeds_iff {storage : Storage} :
    (∃ next logs, runCall chain msg (.publishDocument name update authority guard) storage =
      .ok (next, logs)) ↔ Publishable chain msg storage name update authority guard := by
  simp only [runCall_ok_iff, execute, ignoreResult_ok_iff, publishDocument, check_bind_ok_iff,
    validateName_ok_iff, requireActiveName_ok_iff, authorizeUpdate_ok_iff]
  constructor
  · rintro ⟨_, _, _, _, ⟨hname, rfl⟩, _, hactive, _, ⟨hguard, hauth⟩, hrun⟩
    obtain ⟨htype, href, hfirst, hsnd, hver, hnew, hseq, hevent⟩ :=
      publishDocumentInternal_succeeds_iff.mp ⟨_, _, hrun⟩
    exact ⟨⟨⟨hname, hactive, hguard⟩, hauth⟩, htype, href, hfirst, hsnd, hver, hnew, hseq, hevent⟩
  · rintro ⟨⟨⟨hname, hactive, hguard⟩, hauth⟩, htype, href, hfirst, hsnd, hver, hnew, hseq, hevent⟩
    obtain ⟨version, after, hrun⟩ : ∃ version after, publishDocumentInternal chain msg
        (nameHash name) name update true { storage, logs := [] } = .ok (version, after) :=
      publishDocumentInternal_succeeds_iff.mpr
        ⟨htype, href, hfirst, hsnd, hver, hnew, hseq, hevent⟩
    exact ⟨_, _, version, _, ⟨hname, rfl⟩, (), hactive, (), ⟨hguard, hauth⟩, hrun⟩

theorem controller_batch_refused {storage next : Storage} {logs : List BnsEvent}
    (howner : update.docType = ownerDocType) (hrole : authority.role = .controller) :
    runCall chain msg (.applyMutations name [] [update] policy authority guard) storage ≠
      .ok (next, logs) := by
  intro hcall
  obtain ⟨⟨-, -, hauth⟩, -⟩ := runCall_performs hcall
  simp [authorizeMutations, containsOwnerDocument, howner, authorizeOwner, hrole] at hauth

/-- A publication and a batch of that one document agree in success, state and
events, unless it is an `owner` document that a controller may publish: that
one, and no other, the batch refuses. -/
theorem one_document_batch_publishes (storage : Storage)
    (hpolicy : policy.updateMinDocumentIat = false) :
    (∀ next logs,
      runCall chain msg (.publishDocument name update authority guard) storage =
          .ok (next, logs) ↔
        runCall chain msg (.applyMutations name [] [update] policy authority guard) storage =
          .ok (next, logs)) ↔
      ¬(update.docType = ownerDocType ∧ authority.role = .controller ∧
        Publishable chain msg storage name update authority guard) := by
  by_cases hplain : update.docType ≠ ownerDocType ∨ authority.role ≠ .controller
  · refine iff_of_true (fun _ _ => publish_iff_batch hpolicy hplain) ?_
    rintro ⟨howner, hrole, -⟩
    exact hplain.elim (· howner) (· hrole)
  · rw [not_or, not_not, not_not] at hplain
    simp only [hplain, true_and, iff_false, controller_batch_refused hplain.1 hplain.2,
      ← publish_succeeds_iff, not_exists]

/-- Account 7 may publish any document of alice. -/
def ruledStorage : Storage :=
  commitAll sampleChain [sampleRegistration "alice" 9, ⟨{ sender := .ofByte 9, now := 5 },
    .setControllerPolicy (text "alice") [{ (default : ControllerRule) with
        controller := chainAccountPrincipal (.ofByte 7)
        permissions := permissionPublishDocument }] .zero (accountAuthority 9)
      { expectedNameSeq := 1, expectedParentNameSeq := 0 }⟩] .initial

def sampleUpdate (batch : Bool) (docType : String) : Attempt where
  msg := { sender := .ofByte 7, now := 6 }
  call :=
    let authority := { accountAuthority 7 with role := .controller }
    let guard := { expectedNameSeq := 2, expectedParentNameSeq := 0 }
    if batch then .applyMutations (text "alice") [] [sampleDocument docType 0]
      ⟨false, 0, .zero⟩ authority guard
    else .publishDocument (text "alice") (sampleDocument docType 0) authority guard

/-- A controller's `boot` document is published by either call. -/
theorem one_document_batch_publishes_boot : ∃ outcome, runCall sampleChain
    (sampleUpdate true "boot").msg (sampleUpdate true "boot").call ruledStorage = .ok outcome := by
  have hsucc : succeeds sampleChain (sampleUpdate false "boot") ruledStorage = true := by
    decide +kernel
  obtain ⟨logs, hpub⟩ := runCall_of_succeeds hsucc
  have hplain : (sampleDocument "boot" 0).docType ≠ ownerDocType := by decide
  exact ⟨_, ((one_document_batch_publishes ruledStorage rfl).mpr
    (fun howner => hplain howner.1) _ _).mp hpub⟩

/-- A controller may publish an `owner` document on its own, but not as a batch. -/
theorem owner_document_batch_refused : Reachable sampleChain ruledStorage ∧
    succeeds sampleChain (sampleUpdate false "owner") ruledStorage = true ∧
    succeeds sampleChain (sampleUpdate true "owner") ruledStorage = false :=
  ⟨reachable_commitAll _ _, by decide +kernel, by decide +kernel⟩

end CyfsGateway.BnsBatches
