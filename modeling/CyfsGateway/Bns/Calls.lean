import CyfsGateway.Bns.Execution

/-!
# Calls as traces of effects

`Admitted` is what an entry point checks about the state before the call and
`CallEffects` the list of effects it performs.  `execute_performsLogged` takes every
entry point apart, once; all later results start from it.
-/

namespace CyfsGateway.BnsCalls

open Evm Reverting Transition BnsTypes BnsValidation BnsStorage BnsCore BnsFacets BnsEffects
  BnsExecution Effect

/-! ## Admission -/

/-- The checks every guarded mutation of an active name shares. -/
def Guarded (msg : Message) (storage : Storage) (name : Bytes) (guard : MutationGuard) :
    Prop :=
  validName name = true ∧ isActiveName msg.now (storage.names (nameHash name)) = true ∧
    (storage.names (nameHash name)).nameSeq = guard.expectedNameSeq

/-- What the contract has checked about the state before a successful call. -/
def Admitted (msg : Message) (storage : Storage) : BnsCall → Prop
  | .registerName name _ _ _ _ _ _ _ authority guard =>
    validName name = true ∧
    ((storage.names (nameHash name)).status = .available ∨
      (storage.names (nameHash name)).status = .released) ∧
    authorizeRegistration storage msg name authority guard = .ok ()
  | .renewName name _ =>
    validName name = true ∧ (storage.names (nameHash name)).status ≠ .available ∧
    (storage.names (nameHash name)).status ≠ .released ∧
    (storage.names (nameHash name)).status ≠ .tombstoned ∧
    (storage.names (nameHash name)).renewable = true
  | .setNameOwner name _ authority guard
  | .releaseName name _ _ authority guard
  | .transferName name _ _ _ authority guard
  | .updateAuthorityKeys name _ authority guard
  | .setMinDocumentIat name _ _ authority guard
  | .setControllerPolicy name _ _ authority guard =>
    Guarded msg storage name guard ∧
    authorizeOwner storage msg (nameHash name) name authority = .ok ()
  | .applyMutations name updates documents policy authority guard =>
    Guarded msg storage name guard ∧
    ¬(updates.length = 0 ∧ documents.length = 0 ∧ policy.updateMinDocumentIat = false) ∧
    authorizeMutations storage msg (nameHash name) name updates documents policy authority = .ok ()
  | .setNamespacePolicy name _ _ authority guard =>
    Guarded msg storage name guard ∧
    authorizeUpdateNoGuard storage msg (nameHash name) name [] permissionSetNamespace
      opSetNamespace authority = .ok ()
  | .publishDocument name update authority guard =>
    Guarded msg storage name guard ∧
    authorizeUpdateNoGuard storage msg (nameHash name) name update.docType
      permissionPublishDocument opPublishDocument authority = .ok ()
  | .revokeDocument name docType _ _ authority guard =>
    Guarded msg storage name guard ∧
    authorizeUpdateNoGuard storage msg (nameHash name) name docType
      permissionRevokeDocument opRevokeDocument authority = .ok ()
  | .setDidAlias name _ _ _ authority guard =>
    Guarded msg storage name guard ∧
    authorizeUpdateNoGuard storage msg (nameHash name) name [] permissionSetAlias
      opSetAlias authority = .ok ()
  | .setPaymentTarget name docType version _ authority guard =>
    Guarded msg storage name guard ∧
    authorizeUpdateNoGuard storage msg (nameHash name) name docType
      permissionSetPayment opSetPayment authority = .ok () ∧
    currentVersion storage (nameHash name) (.keccak256 docType) = version
  | .publishLogCheckpoint .. => True

inductive CallEffects (msg : Message) : BnsCall → List Effect → Prop
  | registerName {name assetOwner options updates owner rules rulesHash documents
      authority guard} (state : NameState) (payload : List AbiValue)
      {parts : List (List Effect)} {keyed owned ruled : List Effect} :
      state.ownerDocumentVersion = 0 →
      List.Forall₂ (PublishEffects msg name false) documents parts →
      Conditionally (updates.length ≠ 0) (KeyEffects msg name updates) keyed →
      Conditionally (owner.kind ≠ .unset) (OwnerEffects msg name owner false) owned →
      Conditionally (rules.length ≠ 0 ∨ rulesHash ≠ .zero)
        (PolicyEffects msg name rules rulesHash false) ruled →
      CallEffects msg (.registerName name assetOwner options updates owner rules rulesHash documents
          authority guard)
        (.register name state :: .log "name_registered" payload
            (.nameRegistered (nameHash name) name assetOwner msg.sender state.expireAt
              state.lineageEpoch state.nameSeq) ::
          (parts.flatten ++ keyed ++ owned ++ ruled))
  | renewName {name duration} (expireAt graceUntil nameSeq : UInt64) (payload : List AbiValue) :
      CallEffects msg (.renewName name duration) [.editName (nameHash name) fun state =>
            { state with
              status := if state.status = .expired then .active else state.status },
          .editName (nameHash name) fun state => { state with expireAt, graceUntil },
          .editName (nameHash name) (touched msg),
          .bumpNameSeq (nameHash name),
          .log "name_renewed" payload
            (.nameRenewed (nameHash name) name msg.sender expireAt nameSeq)]
  | setNameOwner {name owner authority guard effects} : OwnerEffects msg name owner true effects →
      CallEffects msg (.setNameOwner name owner authority guard) effects
  | releaseName {name mode reasonHash authority guard} (nameSeq : UInt64)
      (payload : List AbiValue) :
      CallEffects msg (.releaseName name mode reasonHash authority guard)
        [.release (nameHash name) mode, .bumpNameSeq (nameHash name),
          .editName (nameHash name) (touched msg),
          .log "name_released" payload
            (.nameReleased (nameHash name) name msg.sender mode reasonHash nameSeq)]
  | setNamespacePolicy {name allow policyHash authority guard} (nameSeq : UInt64)
      (payload : List AbiValue) :
      CallEffects msg (.setNamespacePolicy name allow policyHash authority guard)
        [.editName (nameHash name) fun state =>
            { state with
              allowDelegatedSubnames := allow, namespacePolicyHash := policyHash },
          .bumpNameSeq (nameHash name),
          .editName (nameHash name) (touched msg),
          .log "namespace_policy_updated" payload
            (.namespacePolicyUpdated (nameHash name) name msg.sender allow policyHash nameSeq)]
  | transferName {name assetOwner owner documents authority guard}
      (oldAssetOwner : Address) (nameSeq : UInt64) (payload : List AbiValue)
      {announced : List Effect} {parts : List (List Effect)} :
      AnnounceEffects msg name announced →
      List.Forall₂ (PublishEffects msg name false) documents parts →
      CallEffects msg (.transferName name assetOwner owner documents authority guard)
        (.setAssetOwner (nameHash name) assetOwner :: .setSemanticOwner (nameHash name) owner ::
          .bumpNameSeq (nameHash name) ::
          .editName (nameHash name) (touched msg) ::
          .log "name_asset_transferred" payload
            (.nameAssetTransferred (nameHash name) name oldAssetOwner assetOwner false nameSeq) ::
          (announced ++ parts.flatten))
  | applyMutations {name updates documents policy authority guard}
      {keyed bumped floored : List Effect} {parts : List (List Effect)} :
      Conditionally (updates.length ≠ 0) (KeyEffects msg name updates) keyed →
      Conditionally (documents.length ≠ 0 ∨ policy.updateMinDocumentIat = true)
        (· = [.bumpNameSeq (nameHash name), .editName (nameHash name) (touched msg)])
        bumped →
      List.Forall₂ (PublishEffects msg name false) documents parts →
      Conditionally (policy.updateMinDocumentIat = true)
        (FloorEffects msg name policy.minDocumentIat policy.reasonHash false) floored →
      CallEffects msg (.applyMutations name updates documents policy authority guard)
        (keyed ++ bumped ++ parts.flatten ++ floored)
  | updateAuthorityKeys {name updates authority guard effects} :
      KeyEffects msg name updates effects →
      CallEffects msg (.updateAuthorityKeys name updates authority guard) effects
  | setMinDocumentIat {name floor reasonHash authority guard effects} :
      FloorEffects msg name floor reasonHash true effects →
      CallEffects msg (.setMinDocumentIat name floor reasonHash authority guard) effects
  | publishDocument {name update authority guard effects} :
      PublishEffects msg name true update effects →
      CallEffects msg (.publishDocument name update authority guard) effects
  | revokeDocument {name docType version reasonHash authority guard}
      (document : DocumentState) (payload : List AbiValue) :
      document.name = name → document.docType = docType →
      CallEffects msg (.revokeDocument name docType version reasonHash authority guard)
        (versionEffects msg (nameHash name) (.keccak256 docType) document true ++
          [.log "document_revoked" payload (.documentRevoked (nameHash name) name docType msg.sender
              document.previousVersion document.version reasonHash)])
  | setControllerPolicy {name rules policyHash authority guard effects} :
      PolicyEffects msg name rules policyHash true effects →
      CallEffects msg (.setControllerPolicy name rules policyHash authority guard) effects
  | setDidAlias {name targetDid kind proofHash authority guard} (state : AliasState)
      (payload : List AbiValue) :
      state.name = name → state.kind = kind → state.targetDid = targetDid →
      state.proofHash = proofHash →
      CallEffects msg (.setDidAlias name targetDid kind proofHash authority guard)
        [.bumpNameSeq (nameHash name),
          .editName (nameHash name) fun state => { state with aliasStateHash := proofHash },
          .editName (nameHash name) (touched msg),
          .putAlias (nameHash name) state,
          .log "did_alias_set" payload
            (.didAliasSet (nameHash name) name msg.sender targetDid kind proofHash state.nameSeq)]
  | setPaymentTarget {name docType version terms authority guard} (payload : List AbiValue) :
      CallEffects msg (.setPaymentTarget name docType version terms authority guard)
        [.repriceDocument (nameHash name) (.keccak256 docType) terms,
          .editName (nameHash name) fun state =>
            { state with paymentPolicyHash := terms.paymentPolicyHash },
          .bumpNameSeq (nameHash name),
          .editName (nameHash name) (touched msg),
          .log "payment_target_updated" payload
            (.paymentTargetUpdated (nameHash name) name docType msg.sender
              terms.paymentTarget terms.paymentPolicyHash version)]
  | publishLogCheckpoint {issuer anchor} (checkpoint : LogCheckpoint) (payload : List AbiValue) :
      checkpoint.issuer = issuer → checkpoint.externalAnchor = anchor →
      CallEffects msg (.publishLogCheckpoint issuer anchor) [.putCheckpoint checkpoint,
          .log "log_checkpoint_published" payload
            (.logCheckpointPublished checkpoint.logRoot msg.sender checkpoint.lastSeq
              checkpoint.issuedAt anchor)]

variable {storage : Storage} {hash : Digest} {name : Bytes} {result : Unit}

theorem requireActiveName_ok_iff {now} :
    requireActiveName storage now hash name = .ok result ↔
      isActiveName now (storage.names hash) = true := by
  by_cases hactive : isActiveName now (storage.names hash) = true <;>
    simp [requireActiveName, hactive]

theorem requireExistingName_ok_iff : requireExistingName storage hash name = .ok result ↔
      (storage.names hash).status ≠ .available := by
  by_cases hexists : (storage.names hash).status = .available <;>
    simp [requireExistingName, hexists]

theorem checkGuard_ok_iff {state guard} :
    checkGuard state guard name = .ok result ↔ state.nameSeq = guard.expectedNameSeq := by
  by_cases hseq : state.nameSeq = guard.expectedNameSeq <;> simp [checkGuard, hseq]

theorem authorizeUpdate_ok_iff {msg docType permission operation authority guard} :
    authorizeUpdate storage msg hash name docType permission operation authority guard =
        .ok result ↔
      (storage.names hash).nameSeq = guard.expectedNameSeq ∧
      authorizeUpdateNoGuard storage msg hash name docType permission operation
        authority = .ok result := by
  by_cases hseq : (storage.names hash).nameSeq = guard.expectedNameSeq <;>
    simp [authorizeUpdate, checkGuard, hseq, bind, Except.bind]

theorem requireActiveAuthoritySet_updateName {now change principal}
    (hactive : ∀ state, isActiveName now (change state) = isActiveName now state)
    (hepoch : ∀ state, (change state).lineageEpoch = state.lineageEpoch) :
    requireActiveAuthoritySet (updateName hash change storage) now principal =
      requireActiveAuthoritySet storage now principal := by
  have hnames : ∀ other, isActiveName now ((updateName hash change storage).names other) =
      isActiveName now (storage.names other) := by
    intro other
    by_cases hother : other = hash
    · subst hother
      simp [updateName, hactive]
    · simp [updateName, hother]
  have hkeys : ∀ other, lineageStateKey (updateName hash change storage) other =
      lineageStateKey storage other := by
    intro other
    refine lineageStateKey_congr ?_ (fun _ => rfl)
    by_cases hother : other = hash
    · subst hother
      simp [updateName, hepoch]
    · simp [updateName, hother]
  simp only [requireActiveAuthoritySet, hnames, hkeys]
  rfl

/-! ## Inversion of the entry points -/

/-- A call was admitted and its effects lead from one machine to the other. -/
def Performs (chain : Deployment) (msg : Message) (call : BnsCall)
    (machine after : Machine) : Prop :=
  Admitted msg machine.storage call ∧
    ∃ effects, CallEffects msg call effects ∧ Effects chain msg machine effects after

/-- The same, where each log also commits to the event that follows it. -/
def PerformsLogged (chain : Deployment) (msg : Message) (call : BnsCall)
    (machine after : Machine) : Prop :=
  Admitted msg machine.storage call ∧
    ∃ effects, CallEffects msg call effects ∧ LoggedEffects chain msg machine effects after

/-- Whenever a call succeeds, it was admitted and has performed the effects of such a
call, with each log committing to its event. -/
def Performing (chain : Deployment) (msg : Message) (call : BnsCall) : Prop :=
  ∀ ⦃machine result after⦄, execute chain msg call machine = .ok (result, after) →
    PerformsLogged chain msg call machine after

section EntryPoints

variable {chain : Deployment} {msg : Message} {machine after : Machine} {name : Bytes}

theorem guarded_ok {Value : Type} {rest : Digest → Contract Value} {value : Value}
    {authority : CallAuthority} {guard : MutationGuard}
    (hrun : (do
      let hash ← check fun _ => validateName name
      check (requireActiveName · msg.now hash name)
      check fun storage => checkGuard (storage.names hash) guard name
      check (authorizeOwner · msg hash name authority)
      rest hash : Contract Value) machine = .ok (value, after)) :
    (Guarded msg machine.storage name guard ∧
      authorizeOwner machine.storage msg (nameHash name) name authority = .ok ()) ∧
      rest (nameHash name) machine = .ok (value, after) := by
  simp only [check_bind_ok_iff, validateName_ok_iff, requireActiveName_ok_iff,
    checkGuard_ok_iff] at hrun
  obtain ⟨hash, ⟨hname, rfl⟩, _, hactive, _, hguard, _, hauth, hrest⟩ := hrun
  exact ⟨⟨⟨hname, hactive, hguard⟩, hauth⟩, hrest⟩

theorem renewName_performs : Performing chain msg (.renewName name duration) := by
  intro machine _ after hrun
  simp only [execute, ignoreResult_ok_iff, renewName, revertIf_bind_ok_iff, check_bind_ok_iff,
    load_bind_ok_iff, validateName_ok_iff, requireExistingName_ok_iff, store_bind_ok_iff,
    add_bind_ok_iff] at hrun
  obtain ⟨_, -, hash, ⟨hname, rfl⟩, -, hexists, hrenewable, expireAt, -, graceUntil, -,
    hrun⟩ := hrun
  obtain ⟨_, stamped, htouch, hrun⟩ := bind_ok_iff.mp hrun
  obtain ⟨_, bumped, hbump, hrun⟩ := bind_ok_iff.mp hrun
  have hlog := commit_pure hrun ⟨rfl, rfl, trivial⟩
  simp only [not_or, Bool.not_eq_false] at hrenewable
  refine ⟨⟨hname, hexists, hrenewable.2.1, hrenewable.2.2, hrenewable.1⟩, _,
    .renewName expireAt graceUntil _ _, .cons (editName_step ?_) (.cons
      (editName_step ⟨rfl, rfl, rfl, .inl rfl, rfl, rfl⟩)
      (.cons (touchName_step htouch) (.cons (bumpNameSeq_step hbump) (.single hlog))))⟩
  refine ⟨rfl, rfl, rfl, ?_, rfl, rfl⟩
  by_cases hexpired : (machine.storage.names (nameHash name)).status = .expired
  · exact .inr ⟨hexpired, if_pos hexpired⟩
  · exact .inl (if_neg hexpired)

variable {hash : Digest}

theorem semanticOwner_updateName {storage} :
    ((updateName hash (fun state => { state with semanticOwner := owner }) storage).names
      hash).semanticOwner = owner := by simp [updateName]

theorem setSemanticOwner_step (hvalid : validateSemanticOwner owner = .ok ())
    (hactive : requireActiveAuthoritySet machine.storage msg.now owner = .ok ()) :
    LoggedStep chain msg machine (.setSemanticOwner hash owner)
      { machine with
        storage := updateName hash (fun state => { state with semanticOwner := owner })
          machine.storage } := ⟨⟨⟨hvalid, hactive⟩, by simp [perform, write, emits]⟩, trivial⟩

variable {authority : CallAuthority} {guard : MutationGuard}

theorem setNameOwner_performs :
    Performing chain msg (.setNameOwner name owner authority guard) := by
  intro machine _ after hrun
  simp only [execute, ignoreResult_ok_iff, setNameOwner, check_bind_ok_iff, validateName_ok_iff,
    requireActiveName_ok_iff, checkGuard_ok_iff, store_bind_ok_iff] at hrun
  obtain ⟨_, hash, ⟨hname, rfl⟩, _, hvalid, _, hactive, _, hguard, _, hauth, _, husable,
    hrun⟩ := hrun
  obtain ⟨stamped, hstamp, hsame, hrun⟩ := stamp_ok hrun
  simp only [check_bind_ok_iff] at hrun
  obtain ⟨-, -, materialized, hstate, hrun⟩ := hrun
  obtain ⟨_, announced, hanno, hload⟩ := bind_ok_iff.mp hrun
  obtain ⟨-, rfl⟩ := load_ok_iff.mp hload
  have howner := validOwner_materialized hstate (hsame.trans semanticOwner_updateName) hvalid
  obtain ⟨effects, hshape, htrace⟩ := announceOwner_trace howner hanno
  exact ⟨⟨⟨hname, hactive, hguard⟩, hauth⟩, _, .setNameOwner ⟨effects, hshape, rfl⟩,
    .cons (setSemanticOwner_step hvalid husable) (hstamp.append htrace)⟩

theorem releaseName_performs {mode : ReleaseMode} :
    Performing chain msg (.releaseName name mode reasonHash authority guard) := by
  intro machine _ after hrun
  obtain ⟨_, hrun⟩ := ignoreResult_ok_iff.mp hrun
  obtain ⟨hadm, hrun⟩ := guarded_ok hrun
  obtain ⟨stamped, hstamp, -, hrun⟩ := stamp_ok hrun
  have hrel : LoggedStep chain msg machine (.release (nameHash name) mode) _ :=
    ⟨⟨hadm.1.2.1, by simp [perform, write, emits]; rfl⟩, trivial⟩
  exact ⟨hadm, _, .releaseName _ _, .cons hrel
    (hstamp.append (.single (commit_pure hrun ⟨rfl, rfl, trivial⟩)))⟩

theorem setNamespacePolicy_performs {allow} :
    Performing chain msg (.setNamespacePolicy name allow policyHash authority guard) := by
  intro machine _ after hrun
  simp only [execute, ignoreResult_ok_iff, setNamespacePolicy, check_bind_ok_iff,
    validateName_ok_iff, requireActiveName_ok_iff, authorizeUpdate_ok_iff,
    store_bind_ok_iff] at hrun
  obtain ⟨_, hash, ⟨hname, rfl⟩, _, hactive, _, ⟨hguard, hauth⟩, hrun⟩ := hrun
  obtain ⟨stamped, hstamp, -, hrun⟩ := stamp_ok hrun
  exact ⟨⟨⟨hname, hactive, hguard⟩, hauth⟩, _, .setNamespacePolicy _ _,
    .cons (editName_step ⟨rfl, rfl, rfl, .inl rfl, rfl, rfl⟩)
      (hstamp.append (.single (commit_pure hrun ⟨rfl, rfl, trivial⟩)))⟩

theorem transferName_performs :
    Performing chain msg (.transferName name assetOwner owner documents authority guard) := by
  intro machine _ after hrun
  simp only [execute, ignoreResult_ok_iff, transferName, revertIf_bind_ok_iff, check_bind_ok_iff,
    load_bind_ok_iff, validateName_ok_iff, requireActiveName_ok_iff, checkGuard_ok_iff,
    store_bind_ok_iff] at hrun
  obtain ⟨_, hasset, hash, ⟨hname, rfl⟩, _, hvalid, _, hactive, _, hguard, _, hauth, _,
    husable, hrun⟩ := hrun
  obtain ⟨stamped, hstamp, hsame, hrun⟩ := stamp_ok hrun
  simp only [check_bind_ok_iff, load_bind_ok_iff] at hrun
  obtain ⟨-, -, materialized, hstate, hrun⟩ := hrun
  obtain ⟨logged, hlog, hrun⟩ := commit_step hrun ⟨rfl, rfl, trivial⟩
  obtain ⟨_, announced, hanno, hrun⟩ := bind_ok_iff.mp hrun
  obtain ⟨_, published, hpub, hload⟩ := bind_ok_iff.mp hrun
  obtain ⟨-, rfl⟩ := load_ok_iff.mp hload
  have howner := validOwner_materialized hstate (hsame.trans semanticOwner_updateName) hvalid
  obtain ⟨effects, hshape, hann⟩ := announceOwner_trace howner hanno
  obtain ⟨parts, hparts, hpublished⟩ := publishDocuments_trace hpub
  have htransfer : LoggedStep chain msg machine (.setAssetOwner (nameHash name) assetOwner)
      { machine with
        storage := updateName (nameHash name)
          (fun state => { state with assetOwner }) machine.storage } :=
    ⟨⟨hasset, by simp [perform, write, emits]⟩, trivial⟩
  have husable' : requireActiveAuthoritySet
      (updateName (nameHash name) (fun state => { state with assetOwner })
        machine.storage) msg.now owner = .ok () := by
    rw [requireActiveAuthoritySet_updateName]
    · exact husable
    · intro state
      rfl
    · intro state
      rfl
  exact ⟨⟨⟨hname, hactive, hguard⟩, hauth⟩, _, .transferName _ _ _ hshape hparts,
    .cons htransfer (.cons (setSemanticOwner_step hvalid husable')
      (hstamp.append (.cons hlog (hann.append hpublished))))⟩

theorem partIf_trace [Decidable condition] {Value : Type} {part : Contract Value}
    {Shape : List Effect → Prop} (hpart : Traces chain msg Shape part) :
    Traces chain msg (Conditionally condition Shape) (runIf condition (ignoreResult part)) := by
  refine runIf_trace fun machine _ after hbody => ?_
  obtain ⟨value, hvalue⟩ := ignoreResult_ok_iff.mp hbody
  exact hpart hvalue

theorem batchBump_trace [Decidable condition] : Traces chain msg (Conditionally condition
      (· = [.bumpNameSeq hash, .editName hash (touched msg)])) (runIf condition (do
      bumpNameSeq hash
      touchName msg hash)) := by
  refine runIf_trace fun machine _ after hbody => ?_
  obtain ⟨_, middle, hbump, htouch⟩ := bind_ok_iff.mp hbody
  exact ⟨_, rfl, .cons (bumpNameSeq_step hbump) (.single (touchName_step htouch))⟩

theorem applyMutations_performs {policy : OwnerPolicyUpdate} :
    Performing chain msg (.applyMutations name updates documents policy authority guard) := by
  intro machine _ after hrun
  simp only [execute, ignoreResult_ok_iff, applyMutations, revertIf_bind_ok_iff, check_bind_ok_iff,
    validateName_ok_iff, requireActiveName_ok_iff, checkGuard_ok_iff] at hrun
  obtain ⟨_, hnonempty, -, -, -, -, hash, ⟨hname, rfl⟩, _, hactive, _, hguard, _, hauth,
    hrun⟩ := hrun
  obtain ⟨_, keyed, hkeys, hrun⟩ := bind_ok_iff.mp hrun
  obtain ⟨_, bumped, hbump, hrun⟩ := bind_ok_iff.mp hrun
  obtain ⟨_, published, hpub, hrun⟩ := bind_ok_iff.mp hrun
  obtain ⟨_, floored, hfloor, hrun⟩ := bind_ok_iff.mp hrun
  obtain ⟨-, rfl⟩ := pure_ok_iff.mp hrun
  obtain ⟨keyEffects, hkeyShape, hkeyTrace⟩ := partIf_trace applyAuthorityUpdates_trace hkeys
  obtain ⟨bumpEffects, hbumpShape, hbumpTrace⟩ := batchBump_trace hbump
  obtain ⟨parts, hparts, hpublished⟩ := publishDocuments_trace hpub
  obtain ⟨floorEffects, hfloorShape, hfloorTrace⟩ :=
    partIf_trace setMinDocumentIatInternal_trace hfloor
  exact ⟨⟨⟨hname, hactive, hguard⟩, hnonempty, hauth⟩, _,
    .applyMutations hkeyShape hbumpShape hparts hfloorShape,
    ((hkeyTrace.append hbumpTrace).append hpublished).append hfloorTrace⟩

theorem updateAuthorityKeys_performs :
    Performing chain msg (.updateAuthorityKeys name updates authority guard) := by
  intro machine _ after hrun
  obtain ⟨_, hrun⟩ := ignoreResult_ok_iff.mp hrun
  obtain ⟨hadm, hrun⟩ := guarded_ok hrun
  obtain ⟨set, keyed, hkeys, hpure⟩ := bind_ok_iff.mp hrun
  obtain ⟨-, rfl⟩ := pure_ok_iff.mp hpure
  obtain ⟨effects, hshape, htrace⟩ := applyAuthorityUpdates_trace hkeys
  exact ⟨hadm, _, .updateAuthorityKeys hshape, htrace⟩

theorem setMinDocumentIat_performs {floor : UInt64} :
    Performing chain msg (.setMinDocumentIat name floor reasonHash authority guard) := by
  intro machine _ after hrun
  obtain ⟨_, hrun⟩ := ignoreResult_ok_iff.mp hrun
  obtain ⟨hadm, hrun⟩ := guarded_ok hrun
  obtain ⟨effects, hshape, htrace⟩ := setMinDocumentIatInternal_trace hrun
  exact ⟨hadm, _, .setMinDocumentIat hshape, htrace⟩

theorem publishDocument_performs {update} :
    Performing chain msg (.publishDocument name update authority guard) := by
  intro machine _ after hrun
  simp only [execute, ignoreResult_ok_iff, publishDocument, check_bind_ok_iff, validateName_ok_iff,
    requireActiveName_ok_iff, authorizeUpdate_ok_iff] at hrun
  obtain ⟨_, hash, ⟨hname, rfl⟩, _, hactive, _, ⟨hguard, hauth⟩, hrun⟩ := hrun
  obtain ⟨effects, hshape, htrace⟩ := publishDocumentInternal_trace hrun
  exact ⟨⟨⟨hname, hactive, hguard⟩, hauth⟩, _, .publishDocument hshape, htrace⟩

theorem setControllerPolicy_performs :
    Performing chain msg (.setControllerPolicy name rules policyHash authority guard) := by
  intro machine _ after hrun
  obtain ⟨_, hrun⟩ := ignoreResult_ok_iff.mp hrun
  obtain ⟨hadm, hrun⟩ := guarded_ok hrun
  obtain ⟨effects, hshape, htrace⟩ := setControllerPolicyInternal_trace hrun
  exact ⟨hadm, _, .setControllerPolicy hshape, htrace⟩

theorem revokeDocument_performs {docType version} :
    Performing chain msg (.revokeDocument name docType version reasonHash authority guard) := by
  intro machine _ after hrun
  simp only [execute, ignoreResult_ok_iff, revokeDocument, check_bind_ok_iff, load_bind_ok_iff,
    revertIf_bind_ok_iff, validateName_ok_iff, requireActiveName_ok_iff,
    authorizeUpdate_ok_iff] at hrun
  obtain ⟨_, hash, ⟨hname, rfl⟩, docTypeHash, hdoc, _, hactive, _, ⟨hguard, hauth⟩, -,
    hrun⟩ := hrun
  obtain ⟨newVersion, advanced, hadv, hrun⟩ := bind_ok_iff.mp hrun
  rw [load_bind_ok_iff, store_bind_ok_iff] at hrun
  obtain ⟨_, recorded, hrec, hrun⟩ := bind_ok_iff.mp hrun
  obtain ⟨_, bumped, hbump, hrun⟩ := bind_ok_iff.mp hrun
  obtain ⟨_, stamped, htouch, hrun⟩ := bind_ok_iff.mp hrun
  obtain ⟨-, rfl⟩ := validateDocType_ok_iff.mp hdoc
  obtain ⟨logged, hlog, hrun⟩ := commit_step hrun ⟨rfl, rfl, trivial⟩
  obtain ⟨-, rfl⟩ := pure_ok_iff.mp hrun
  have hslot : advanced.storage.documents = machine.storage.documents := by
    rw [(advanceVersion_ok hadv).2]
    split <;> rfl
  rw [hslot] at hrec
  have hdocument : LoggedStep chain msg machine
      (.addDocument _ _ (revokedDocument chain msg name docType newVersion _
        (machine.storage.documents (nameHash name) (.keccak256 docType) newVersion))) _ :=
    addDocument_step hadv rfl hdoc rfl (.inr rfl)
  refine ⟨⟨⟨hname, hactive, hguard⟩, hauth⟩, _, .revokeDocument _ _ rfl rfl,
    .append (.cons hdocument ?_) (.single hlog)⟩
  exact ((recordOwnerDocument_trace hrec).append
    (.single (bumpNameSeq_step hbump))).append (.single (touchName_step htouch))

theorem setDidAlias_performs {targetDid kind proofHash} :
    Performing chain msg (.setDidAlias name targetDid kind proofHash authority guard) := by
  intro machine _ after hrun
  simp only [execute, ignoreResult_ok_iff, setDidAlias, check_bind_ok_iff, validateName_ok_iff,
    requireActiveName_ok_iff, authorizeUpdate_ok_iff] at hrun
  obtain ⟨_, hash, ⟨hname, rfl⟩, _, hactive, _, hdid, _, ⟨hguard, hauth⟩, hrun⟩ := hrun
  obtain ⟨_, bumped, hbump, hrun⟩ := bind_ok_iff.mp hrun
  rw [store_bind_ok_iff] at hrun
  obtain ⟨_, stamped, htouch, hrun⟩ := bind_ok_iff.mp hrun
  have hlog := commit_pure hrun ⟨rfl, rfl, trivial⟩
  have hvalid : kind ≠ .none → validDid targetDid = true := by
    intro hkind
    rw [if_pos hkind] at hdid
    exact validateDid_ok_iff.mp hdid
  have halias : LoggedStep chain msg stamped (.putAlias (nameHash name)
        { name
          kind
          targetDid
          proofHash
          setAt := (stamped.storage.names (nameHash name)).updatedAt
          nameSeq := (stamped.storage.names (nameHash name)).nameSeq }) _ :=
    ⟨⟨⟨rfl, hvalid⟩, by simp only [perform, emits, List.append_nil]; rfl⟩, trivial⟩
  exact ⟨⟨⟨hname, hactive, hguard⟩, hauth⟩, _,
    .setDidAlias _ _ rfl rfl rfl rfl, .cons (bumpNameSeq_step hbump)
      (.cons (editName_step ⟨rfl, rfl, rfl, .inl rfl, rfl, rfl⟩)
        (.cons (touchName_step htouch) (.cons halias (.single hlog))))⟩

theorem setPaymentTarget_performs {docType version terms} :
    Performing chain msg (.setPaymentTarget name docType version terms authority guard) := by
  intro machine _ after hrun
  simp only [execute, ignoreResult_ok_iff, setPaymentTarget, check_bind_ok_iff, load_bind_ok_iff,
    revertIf_bind_ok_iff, validateName_ok_iff, validateDocType_ok_iff, requireActiveName_ok_iff,
    authorizeUpdate_ok_iff, store_bind_ok_iff, not_not] at hrun
  obtain ⟨_, hash, ⟨hname, rfl⟩, _, ⟨hdoc, rfl⟩, _, hbenef, _, hactive, _,
    ⟨hguard, hauth⟩, hcur, hpublished, hrun⟩ := hrun
  obtain ⟨stamped, hstamp, -, hrun⟩ := stamp_ok hrun
  have hlog := commit_pure hrun ⟨rfl, rfl, trivial⟩
  have hreprice : LoggedStep chain msg machine
      (.repriceDocument (nameHash name) (.keccak256 docType) terms) _ :=
    ⟨⟨⟨⟨docType, hdoc, rfl⟩, hpublished, hbenef⟩,
      by simp only [perform, emits, List.append_nil]; rfl⟩, trivial⟩
  rw [hcur] at hlog
  exact ⟨⟨⟨hname, hactive, hguard⟩, hauth, hcur⟩, _, .setPaymentTarget _,
    .cons hreprice (.cons (editName_step ⟨rfl, rfl, rfl, .inl rfl, rfl, rfl⟩)
      (hstamp.append (.single hlog)))⟩

theorem publishLogCheckpoint_performs :
    Performing chain msg (.publishLogCheckpoint issuer anchor) := by
  intro machine _ after hrun
  simp only [execute, ignoreResult_ok_iff, publishLogCheckpoint, check_bind_ok_iff,
    load_bind_ok_iff, store_bind_ok_iff] at hrun
  obtain ⟨_, _, hissuer, hrun⟩ := hrun
  have hlog := commit_pure hrun ⟨rfl, rfl, trivial⟩
  have hcheckpoint : LoggedStep chain msg machine (.putCheckpoint
        { logRoot := machine.storage.currentLogRoot
          lastSeq := machine.storage.globalEventSeq
          issuedAt := msg.now
          issuer
          externalAnchor := anchor }) _ :=
    ⟨⟨⟨hissuer, rfl, rfl, rfl⟩, by simp only [perform, emits, List.append_nil]; rfl⟩, trivial⟩
  exact ⟨trivial, _, .publishLogCheckpoint _ _ rfl rfl, .cons hcheckpoint (.single hlog)⟩

theorem nextLineageEpoch_ok (hrun : nextLineageEpoch existing machine = .ok (lineageEpoch, after)) :
    machine = after ∧ (existing.nameSeq = 0 → lineageEpoch = 0) ∧ (existing.nameSeq ≠ 0 →
        lineageEpoch.toNat = existing.lineageEpoch.toNat + 1) := by
  rw [nextLineageEpoch] at hrun
  split at hrun
  · rename_i hfirst
    obtain ⟨rfl, rfl⟩ := pure_ok_iff.mp hrun
    exact ⟨rfl, fun _ => rfl, fun hlater => absurd hfirst hlater⟩
  · rename_i hlater
    have hadd : (add existing.lineageEpoch 1 >>= pure) machine =
        .ok (lineageEpoch, after) := bind_ok_iff.mpr ⟨_, _, hrun, rfl⟩
    rw [add_bind_ok_iff] at hadd
    obtain ⟨total, htotal, hpure⟩ := hadd
    obtain ⟨rfl, rfl⟩ := pure_ok_iff.mp hpure
    exact ⟨rfl, fun hfirst => absurd hfirst hlater, fun _ => by simpa using htotal⟩

theorem authorizeRegistration_parent
    (hauth : authorizeRegistration storage msg name authority guard = .ok ())
    (hpar : parentName name ≠ []) :
    isActiveName msg.now (storage.names (nameHash (parentName name))) = true ∧
      authorizeOwner storage msg (nameHash (parentName name)) (parentName name)
        authority = .ok () := by
  have hlen : (parentName name).length ≠ 0 := by rwa [ne_eq, List.length_eq_zero_iff]
  simp only [authorizeRegistration, hlen, if_false] at hauth
  cases hactive : requireActiveName storage msg.now (nameHash (parentName name))
      (parentName name) with
  | error error => simp [hactive, bind, Except.bind] at hauth
  | ok result =>
    simp only [hactive, bind, Except.bind] at hauth
    split at hauth
    · simp at hauth
    · exact ⟨requireActiveName_ok_iff.mp hactive, hauth⟩

theorem registerNameHash_trace
    (hrun : registerNameHash chain msg name assetOwner options documents authority guard
      machine = .ok (hash, after)) :
    hash = nameHash name ∧ validName name = true ∧
    ((machine.storage.names (nameHash name)).status = .available ∨
      (machine.storage.names (nameHash name)).status = .released) ∧
    authorizeRegistration machine.storage msg name authority guard = .ok () ∧
    ∃ state payload parts, state.ownerDocumentVersion = 0 ∧
      List.Forall₂ (PublishEffects msg name false) documents parts ∧
      LoggedEffects chain msg machine (.register name state :: .log "name_registered" payload
            (.nameRegistered (nameHash name) name assetOwner msg.sender state.expireAt
              state.lineageEpoch state.nameSeq) :: parts.flatten) after := by
  simp only [registerNameHash, revertIf_bind_ok_iff, check_bind_ok_iff, load_bind_ok_iff,
    validateName_ok_iff, store_bind_ok_iff, add_bind_ok_iff] at hrun
  obtain ⟨hasset, -, _, ⟨hname, rfl⟩, _, hvalid, _, husable, hfree, _, hauth, -, -, nextSeq,
    hnextSeq, hrun⟩ := hrun
  obtain ⟨lineageEpoch, epoched, hepoch, hrun⟩ := bind_ok_iff.mp hrun
  obtain ⟨rfl, hfirst, hlater⟩ := nextLineageEpoch_ok hepoch
  simp only [add_bind_ok_iff, store_bind_ok_iff, check_bind_ok_iff] at hrun
  obtain ⟨expireAt, -, graceUntil, -, -, -, hrun⟩ := hrun
  obtain ⟨logged, hlog, hrun⟩ := commit_step hrun ⟨rfl, rfl, trivial⟩
  obtain ⟨_, published, hpub, hpure⟩ := bind_ok_iff.mp hrun
  obtain ⟨rfl, rfl⟩ := pure_ok_iff.mp hpure
  obtain ⟨parts, hparts, hpublished⟩ := publishDocuments_trace hpub
  have hstat : (machine.storage.names (nameHash name)).status = .available ∨
      (machine.storage.names (nameHash name)).status = .released := by
    revert hfree
    cases (machine.storage.names (nameHash name)).status <;> simp
  have hregister : LoggedStep chain msg machine (.register name
      (registeredState msg name assetOwner options expireAt graceUntil nextSeq lineageEpoch)) _ :=
    ⟨⟨⟨hname, hstat, fun hpar => (authorizeRegistration_parent hauth hpar).1,
      rfl, rfl, hasset, ⟨hvalid, husable⟩, hnextSeq, hfirst, hlater⟩,
      by simp only [perform, emits, List.append_nil]; rfl⟩, trivial⟩
  exact ⟨rfl, hname, hstat, hauth, _, _, parts, rfl, hparts,
    .cons hregister (.cons hlog hpublished)⟩

theorem setOwnerAfterAuthority_trace (hvalid : validateSemanticOwner owner = .ok ()) :
    Traces chain msg (OwnerEffects msg name owner false)
      (setOwnerAfterAuthority chain msg (nameHash name) name owner) := by
  intro machine _ after hrun
  simp only [setOwnerAfterAuthority, check_bind_ok_iff, store_bind_ok_iff] at hrun
  obtain ⟨_, husable, hrun⟩ := hrun
  obtain ⟨_, stamped, htouch, hrun⟩ := bind_ok_iff.mp hrun
  simp only [check_bind_ok_iff] at hrun
  obtain ⟨-, -, materialized, hstate, hanno⟩ := hrun
  have howner := validOwner_materialized hstate
    ((semanticOwner_touchName htouch).trans semanticOwner_updateName) hvalid
  obtain ⟨announced, hshape, htrace⟩ := announceOwner_trace howner hanno
  exact ⟨_, ⟨announced, hshape, rfl⟩, .cons (setSemanticOwner_step hvalid husable)
    (.cons (touchName_step htouch) htrace)⟩

theorem registerName_performs {options : RegisterOptions} {rulesHash : Bytes32} :
    Performing chain msg (.registerName name assetOwner options updates owner rules rulesHash
      documents authority guard) := by
  intro machine _ after hrun
  simp only [execute, ignoreResult_ok_iff, registerName, check_bind_ok_iff] at hrun
  obtain ⟨_, -, -, -, -, hrun⟩ := hrun
  obtain ⟨_, registered, hregister, hrun⟩ := bind_ok_iff.mp hrun
  obtain ⟨rfl, hname, hstat, hauth, state, payload, parts, hfresh, hparts, htrace⟩ :=
    registerNameHash_trace hregister
  obtain ⟨_, keyed, hkeys, hrun⟩ := bind_ok_iff.mp hrun
  rw [check_bind_ok_iff] at hrun
  obtain ⟨_, hvalid, hrun⟩ := hrun
  obtain ⟨_, owned, howner, hrun⟩ := bind_ok_iff.mp hrun
  obtain ⟨_, ruled, hpol, hrun⟩ := bind_ok_iff.mp hrun
  obtain ⟨-, rfl⟩ := pure_ok_iff.mp hrun
  obtain ⟨keyEffects, hkeyShape, hkeyTrace⟩ := partIf_trace applyAuthorityUpdates_trace hkeys
  obtain ⟨ownerEffects, hownerShape, hownerTrace⟩ :=
    runIf_trace (setOwnerAfterAuthority_trace hvalid) howner
  obtain ⟨ruleEffects, hruleShape, hruleTrace⟩ :=
    partIf_trace setControllerPolicyInternal_trace hpol
  exact ⟨⟨hname, hstat, hauth⟩, _,
    .registerName state payload hfresh hparts hkeyShape hownerShape hruleShape,
    ((htrace.append hkeyTrace).append hownerTrace).append hruleTrace⟩

/-- Every successful call was admitted in the state before it and performed
the effects of its shape. -/
theorem execute_performsLogged : Performing chain msg call := by
  cases call
  case registerName => exact registerName_performs
  case renewName => exact renewName_performs
  case setNameOwner => exact setNameOwner_performs
  case releaseName => exact releaseName_performs
  case setNamespacePolicy => exact setNamespacePolicy_performs
  case transferName => exact transferName_performs
  case applyMutations => exact applyMutations_performs
  case updateAuthorityKeys => exact updateAuthorityKeys_performs
  case setMinDocumentIat => exact setMinDocumentIat_performs
  case publishDocument => exact publishDocument_performs
  case revokeDocument => exact revokeDocument_performs
  case setControllerPolicy => exact setControllerPolicy_performs
  case setDidAlias => exact setDidAlias_performs
  case setPaymentTarget => exact setPaymentTarget_performs
  case publishLogCheckpoint => exact publishLogCheckpoint_performs

theorem execute_performs (hrun : execute chain msg call machine = .ok (result, after)) :
    Performs chain msg call machine after := by
  obtain ⟨hadm, effects, hshape, htrace⟩ := execute_performsLogged hrun
  exact ⟨hadm, effects, hshape, htrace.mono fun _ _ _ _ hlogged => hlogged.step⟩

theorem runCall_ok_iff : runCall chain msg call storage = .ok (next, logs) ↔
      execute chain msg call { storage, logs := [] } = .ok ((), { storage := next, logs }) := by
  rw [runCall]
  cases execute chain msg call { storage, logs := [] } with
  | error error => simp
  | ok result =>
    obtain ⟨_, reached⟩ := result
    cases reached
    simp

theorem runCall_performs (hrun : runCall chain msg call storage = .ok (next, logs)) :
    Performs chain msg call { storage, logs := [] } { storage := next, logs } :=
  execute_performs (runCall_ok_iff.mp hrun)

end EntryPoints

end CyfsGateway.BnsCalls
