import CyfsGateway.Bns.WellFormed

/-!
# Access control

A successful call changes the state of its own name only, and only after the
sender was authorized in the state before the call: as the registrant of a
free name, as a renewer, as the effective owner or as a controller in scope.
-/

namespace CyfsGateway.BnsAccess

open Evm Reverting Transition BnsTypes BnsValidation BnsStorage BnsCore BnsFacets BnsEffects
  BnsExecution BnsCalls BnsFrames BnsRuns BnsWellFormed

/-- The sender claims the owner role and authenticates as the effective owner. -/
def OwnerAuthenticates (storage : Storage) (msg : Message) (name : Bytes)
    (authority : CallAuthority) : Prop :=
  authority.role = .owner ∧ ∃ owner, resolveOwner storage msg.now (nameHash name) = .ok owner ∧
      authenticateExpectedPrincipal storage msg.now owner.effectiveOwner authority msg.sender = true

/-- The sender claims the controller role and authenticates as the controller
of a live rule that is in force and covers the document type and permission. -/
def ControllerAuthenticates (storage : Storage) (msg : Message) (name : Bytes)
    (authority : CallAuthority) (docType : Bytes) (permission : UInt32) : Prop :=
  authority.role = .controller ∧
    ∃ rule ∈ storage.controllerPolicies (lineageStateKey storage (nameHash name)),
      rule.permissions &&& permission ≠ 0 ∧
      (rule.docType = [] ∨ rule.docType = docType) ∧
      rule.validFrom ≤ msg.now ∧ (rule.validUntil = 0 ∨ msg.now < rule.validUntil) ∧
      authenticateExpectedPrincipal storage msg.now rule.controller authority msg.sender = true

variable {storage : Storage} {msg : Message} {authority : CallAuthority}

theorem authorizeOwner_ok_iff {name message result} :
    authorizeOwner storage msg (nameHash name) message authority = .ok result ↔
      OwnerAuthenticates storage msg name authority := by
  simp only [authorizeOwner, OwnerAuthenticates]
  by_cases hrole : authority.role = .owner
  · cases hresol : resolveOwner storage msg.now (nameHash name) with
    | error error => simp [hrole]
    | ok owner =>
      by_cases hauth : authenticateExpectedPrincipal storage msg.now
          owner.effectiveOwner authority msg.sender = true <;> simp [hrole, hauth]
  · simp [hrole]

theorem ruleAuthorizes_iff : ruleAuthorizes storage msg docType permission authority rule = true ↔
      rule.permissions &&& permission ≠ 0 ∧
      (rule.docType = [] ∨ rule.docType = docType) ∧
      rule.validFrom ≤ msg.now ∧ (rule.validUntil = 0 ∨ msg.now < rule.validUntil) ∧
      authenticateExpectedPrincipal storage msg.now rule.controller authority
        msg.sender = true := by
  simp only [ruleAuthorizes, docTypeMatches, Bool.and_eq_true, bne_iff_ne, Bool.or_eq_true,
    beq_iff_eq, List.length_eq_zero_iff, Bool.not_eq_true', Bool.or_eq_false_iff,
    decide_eq_false_iff_not, Bool.and_eq_false_iff, bne_eq_false_iff_eq, ge_iff_le,
    gt_iff_lt, UInt64.not_lt, UInt64.not_le, and_assoc]

theorem authorizeUpdateNoGuard_ok_iff {name message docType permission operation result} :
    authorizeUpdateNoGuard storage msg (nameHash name) message docType permission operation
        authority = .ok result ↔
      OwnerAuthenticates storage msg name authority ∨
        ControllerAuthenticates storage msg name authority docType permission := by
  simp only [authorizeUpdateNoGuard, ControllerAuthenticates]
  cases hrole : authority.role with
  | owner => simp [authorizeOwner_ok_iff]
  | none => simp [OwnerAuthenticates, hrole]
  | controller =>
    simp only [OwnerAuthenticates, hrole, reduceCtorEq, if_false, ne_eq, not_true_eq_false,
      false_and, false_or, true_and, ← ruleAuthorizes_iff, ← List.any_eq_true]
    split <;> simp [*]

/-! ## Scope of a call -/

def callAuthority : BnsCall → Option CallAuthority
  | .registerName _ _ _ _ _ _ _ _ authority _ => some authority
  | .setNameOwner _ _ authority _ | .releaseName _ _ _ authority _
  | .setNamespacePolicy _ _ _ authority _ | .transferName _ _ _ _ authority _
  | .applyMutations _ _ _ _ authority _ | .updateAuthorityKeys _ _ authority _
  | .setMinDocumentIat _ _ _ authority _ | .publishDocument _ _ authority _
  | .revokeDocument _ _ _ _ authority _ | .setControllerPolicy _ _ _ authority _
  | .setDidAlias _ _ _ _ authority _ | .setPaymentTarget _ _ _ _ authority _ => some authority
  | .renewName .. | .publishLogCheckpoint .. => none

/-- The document types and permissions a controller needs for a call; `none`
when the call is reserved to the owner. -/
def controllerScope : BnsCall → Option (List (Bytes × UInt32))
  | .publishDocument _ update _ _ => some [(update.docType, permissionPublishDocument)]
  | .revokeDocument _ docType _ _ _ _ => some [(docType, permissionRevokeDocument)]
  | .setPaymentTarget _ docType _ _ _ _ => some [(docType, permissionSetPayment)]
  | .setDidAlias .. => some [([], permissionSetAlias)]
  | .setNamespacePolicy .. => some [([], permissionSetNamespace)]
  | .applyMutations _ updates documents policy _ _ =>
    if updates.length ≠ 0 ∨ policy.updateMinDocumentIat = true ∨
        containsOwnerDocument documents = true then none
    else some (documents.map fun update => (update.docType, permissionPublishDocument))
  | _ => none

/-- A renewal moves the expiry of a name and nothing else. -/
structure OnlyRenewed (name : Bytes) (before after : Storage) : Prop where
  names : after.names (nameHash name) =
    { before.names (nameHash name) with
      expireAt := (after.names (nameHash name)).expireAt
      graceUntil := (after.names (nameHash name)).graceUntil
      updatedAt := (after.names (nameHash name)).updatedAt
      nameSeq := (after.names (nameHash name)).nameSeq }
  documents : after.documents (nameHash name) = before.documents (nameHash name)
  slots : ∀ key, Owns (nameHash name) key → lineageSlots after key = lineageSlots before key

/-- The ways a call may change the state of a name, judged before the call: by registering
a free name, with the parent's owner behind a subname, by extending the term, as the
owner, or as a controller whose rules cover everything the call does. -/
inductive Authorized (msg : Message) (before after : Storage) (name : Bytes) : BnsCall → Prop
  | registration {assetOwner options updates owner rules rulesHash documents authority
      guard} :
      ((before.names (nameHash name)).status = .available ∨
        (before.names (nameHash name)).status = .released) →
      (parentName name ≠ [] →
        isActiveName msg.now (before.names (nameHash (parentName name))) = true ∧
        OwnerAuthenticates before msg (parentName name) authority) →
      Authorized msg before after name
        (.registerName name assetOwner options updates owner rules rulesHash documents
          authority guard)
  | renewal {duration} : OnlyRenewed name before after →
      Authorized msg before after name (.renewName name duration)
  | owner {call authority} : callAuthority call = some authority →
      OwnerAuthenticates before msg name authority →
      Authorized msg before after name call
  | controller {call authority scope} : callAuthority call = some authority →
      controllerScope call = some scope → scope ≠ [] →
      (∀ entry ∈ scope, ControllerAuthenticates before msg name authority entry.1 entry.2) →
      Authorized msg before after name call

/-! ## Admission implies authorization -/

section Admission

theorem authorized_update (hauthority : callAuthority call = some authority)
    (hscope : controllerScope call = some [(docType, permission)])
    (hok : authorizeUpdateNoGuard before msg (nameHash name) name docType permission
      operation authority = .ok ()) : Authorized msg before after name call := by
  rcases authorizeUpdateNoGuard_ok_iff.mp hok with howner | hctrl
  · exact .owner hauthority howner
  · exact .controller hauthority hscope (by simp) (by simpa using hctrl)

theorem authorized_mutations {updates documents policy authority guard}
    (hnonempty : ¬(updates.length = 0 ∧ documents.length = 0 ∧ policy.updateMinDocumentIat = false))
    (hok : authorizeMutations before msg (nameHash name) name updates documents policy
      authority = .ok ()) :
    Authorized msg before after name
      (.applyMutations name updates documents policy authority guard) := by
  rw [authorizeMutations] at hok
  split at hok
  · exact .owner rfl (authorizeOwner_ok_iff.mp hok)
  rename_i howner
  have hscope : controllerScope (.applyMutations name updates documents policy authority guard) =
        some (documents.map fun update => (update.docType, permissionPublishDocument)) :=
    if_neg howner
  have hdocs : documents ≠ [] := by
    rintro rfl
    simp only [not_or, not_not, Bool.not_eq_true] at howner
    exact hnonempty ⟨howner.1, rfl, howner.2.1⟩
  have hall := fun update hupdate => authorizeUpdateNoGuard_ok_iff.mp
    (forM_ok_iff.mp hok update hupdate)
  by_cases hrole : authority.role = .owner
  · obtain ⟨first, hfirst⟩ := List.exists_mem_of_ne_nil documents hdocs
    refine .owner rfl ((hall first hfirst).resolve_right ?_)
    rintro ⟨hctrl, -⟩
    rw [hrole] at hctrl
    exact AuthorityRole.noConfusion hctrl
  · refine .controller rfl hscope (by simpa using hdocs) fun entry hentry => ?_
    obtain ⟨update, hupdate, rfl⟩ := List.mem_map.mp hentry
    exact (hall update hupdate).resolve_left fun howner => hrole howner.1

theorem authorized_of_admitted (hadm : Admitted msg before call)
    (hname : call.name = some name) (hrenewal : ∀ duration, call = .renewName name duration →
      OnlyRenewed name before after) :
    Authorized msg before after name call := by
  cases call <;> simp only [BnsCall.name, Option.some.injEq, reduceCtorEq] at hname <;>
    subst hname
  case registerName =>
    obtain ⟨-, hstat, hpar⟩ := hadm
    refine .registration hstat fun hne => ?_
    obtain ⟨hactive, howner⟩ := authorizeRegistration_parent hpar hne
    exact ⟨hactive, authorizeOwner_ok_iff.mp howner⟩
  case renewName duration => exact .renewal (hrenewal duration rfl)
  case applyMutations => exact authorized_mutations hadm.2.1 hadm.2.2
  case setNamespacePolicy => exact authorized_update rfl rfl hadm.2
  case publishDocument => exact authorized_update rfl rfl hadm.2
  case revokeDocument => exact authorized_update rfl rfl hadm.2
  case setDidAlias => exact authorized_update rfl rfl hadm.2
  case setPaymentTarget => exact authorized_update rfl rfl hadm.2.1
  all_goals exact .owner rfl (authorizeOwner_ok_iff.mp hadm.2)

/-- Without a stored `Expired` status, renewing touches the expiry only. -/
theorem onlyRenewed_of_effects (hstat : (machine.storage.names (nameHash name)).status ≠ .expired)
    (hshape : CallEffects msg (.renewName name duration) effects)
    (htrace : Effects chain msg machine effects next) :
    OnlyRenewed name machine.storage next.storage := by
  obtain ⟨expireAt, graceUntil, nameSeq, payload⟩ := hshape
  simp only [trace_cons_iff, trace_nil_iff, Step] at htrace
  obtain ⟨_, ⟨-, rfl⟩, _, ⟨-, rfl⟩, _, ⟨-, rfl⟩, _, ⟨-, rfl⟩, _, ⟨-, rfl⟩, rfl⟩ := htrace
  refine ⟨?_, rfl, fun key howns => rfl⟩
  simp [Effect.perform, Effect.write, updateName, touched, hstat]

end Admission

/-- Every change of a name is made by a call on that name which was authorized
in the state before it. -/
theorem change_authorized {chain : Deployment} {storage next : Storage}
    (hreach : Reachable chain storage) {msg : Message} {call : BnsCall}
    {logs : List BnsEvent} (hcall : runCall chain msg call storage = .ok (next, logs))
    {name : Bytes} (hchanged : ¬SameName (nameHash name) storage next) :
    call.name = some name ∧ Authorized msg storage next name call := by
  have hperf := runCall_performs hcall
  have hname : call.name = some name := by
    by_contra hother
    exact hchanged (sameName_of_performs hperf hother)
  obtain ⟨hadm, effects, hshape, htrace⟩ := hperf
  refine ⟨hname, authorized_of_admitted hadm hname ?_⟩
  rintro duration rfl
  have hstored := (wellFormed_of_reachable hreach).stored name hadm.2.1
  exact onlyRenewed_of_effects hstored.notExpired hshape htrace

/-- The owner of alice publishes a document: alice changes, and the call was
authorized by the owner's key. -/
theorem change_authorized_publication :
    ∃ storage next, Reachable sampleChain storage ∧
      next = commit sampleChain (samplePublication "alice" 7 1 0) storage ∧
      ¬SameName (nameHash (text "alice")) storage next ∧
      Authorized (samplePublication "alice" 7 1 0).msg storage next (text "alice")
        (samplePublication "alice" 7 1 0).call := by
  have hreach : Reachable sampleChain
      (commit sampleChain (sampleRegistration "alice" 7) .initial) := ⟨_, .single rfl⟩
  have hsucc : succeeds sampleChain (samplePublication "alice" 7 1 0)
      (commit sampleChain (sampleRegistration "alice" 7) .initial) = true := by decide +kernel
  obtain ⟨logs, hcall⟩ := runCall_of_succeeds hsucc
  have hseq : ((commit sampleChain (samplePublication "alice" 7 1 0) (commit sampleChain
      (sampleRegistration "alice" 7) .initial)).names (nameHash (text "alice"))).nameSeq ≠
      ((commit sampleChain (sampleRegistration "alice" 7) .initial).names
        (nameHash (text "alice"))).nameSeq := by decide +kernel
  have hchanged : ¬SameName (nameHash (text "alice"))
      (commit sampleChain (sampleRegistration "alice" 7) .initial)
      (commit sampleChain (samplePublication "alice" 7 1 0) (commit sampleChain
        (sampleRegistration "alice" 7) .initial)) :=
    fun hsame => hseq (congrArg NameState.nameSeq hsame.names)
  exact ⟨_, _, hreach, rfl, hchanged, (change_authorized hreach hcall hchanged).2⟩

end CyfsGateway.BnsAccess
