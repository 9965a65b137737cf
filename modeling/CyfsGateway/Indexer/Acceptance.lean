import CyfsGateway.Bns.Resolver
import CyfsGateway.Indexer.Store
import CyfsGateway.Indexer.Validators

/-!
# Acceptance of contract values

A value the contract holds reaches the store through its conversion and the
check of the statement that writes it.  The store takes it exactly when its
counters and times fit a signed column and, for an alias, when a DID of the
`bns` method carries a canonical name.
-/

namespace CyfsGateway.BnsAcceptance

open Evm Texts Checks Reverting BnsValidation BnsResolver
open BnsValidation (validName validDocType validDid)
open BnsStorage (Storage)
open BnsFacets (runCall)
open BnsCalls BnsRuns BnsWellFormed BnsContents BnsModel BnsConversion BnsStore BnsValidators
open AbiDecoder (lossy)

inductive ContractValue
  | nameState (state : BnsTypes.NameState)
  | documentState (state : BnsTypes.DocumentState)
  | authorityKey (name : Bytes) (update : BnsTypes.AuthorityKeyUpdate)
  | controllerPolicy (name : Bytes) (rules : List BnsTypes.ControllerRule) (policyHash : Bytes32)
  | aliasState (state : BnsTypes.AliasState)
  | checkpoint (checkpoint : BnsTypes.LogCheckpoint)

variable (chain : Deployment)

def Commits (attempt : Attempt) : Prop :=
  ∃ storage, Reachable chain storage ∧
    ∃ result, runCall chain attempt.msg attempt.call storage = .ok result

/-- The value is answered by a view of a reachable storage, or carried by a
call the contract commits. -/
def Held : ContractValue → Prop
  | .nameState state => ∃ storage now name, Reachable chain storage ∧
      queryNameState storage now name = .ok state ∧ state.status ≠ .available
  | .documentState state => ∃ storage name docType version, Reachable chain storage ∧
      getDocumentVersion storage name docType version = .ok state ∧
      state.status ≠ .missing
  | .authorityKey name update => ∃ attempt, Commits chain attempt ∧
      attempt.call.name = some name ∧ update ∈ authorityUpdates attempt.call
  | .controllerPolicy name rules policyHash => ∃ attempt, Commits chain attempt ∧
      attempt.call.name = some name ∧
      BnsContents.controllerPolicy attempt.call = some (rules, policyHash)
  | .aliasState state => ∃ storage name, Reachable chain storage ∧ getAlias storage name = .ok state
  | .checkpoint checkpoint => ∃ storage, Reachable chain storage ∧
      storage.latestCheckpoint = checkpoint

def project [AbiDecoder] (store : Store) : ContractValue → BnsRegistryResult Store
  | .nameState state => do
      let row ← nameStateFromEvm (decodeNameState state)
      putName row store
  | .documentState state => do
      let row ← documentStateFromEvm (decodeDocumentState state)
      putDocument chain row store
  | .authorityKey name update => putAuthorityKey name (authorityKeyUpdateFromEvm update) store
  | .controllerPolicy name rules policyHash => do
      let rows ← (rules.map decodeControllerRule).mapM controllerRuleFromEvm
      putControllerPolicy name rows (hashString policyHash) store
  | .aliasState state => do
      let row ← aliasStateFromEvm (decodeAlias state)
      putAlias row store
  | .checkpoint checkpoint => do
      let row ← checkpointFromEvm checkpoint
      putCheckpoint row store

def Accepted [AbiDecoder] (store : Store) (value : ContractValue) : Prop :=
  ∃ next, project chain store value = .ok next

def FitsI64 (value : UInt64) : Prop := value.toNat ≤ i64Max

instance (value : UInt64) : Decidable (FitsI64 value) := inferInstanceAs (Decidable (_ ≤ _))

/-- What the columns and the DID check of the store leave room for.  The contract counts
in 64 bits without sign, the columns hold 64 bits with sign. -/
def Representable : ContractValue → Prop
  | .nameState state => FitsI64 state.nameSeq ∧ FitsI64 state.updatedAt
  | .documentState state => FitsI64 state.version
  | .authorityKey .. => True
  | .controllerPolicy .. => True
  | .aliasState state => FitsI64 state.nameSeq ∧
      (state.kind ≠ .none → ForeignOrCanonical state.targetDid)
  | .checkpoint checkpoint => FitsI64 checkpoint.lastSeq ∧ FitsI64 checkpoint.issuedAt

/-! ## Each kind of value -/

theorem toI64_ok_iff :
    toI64 value field = .ok column ↔ FitsI64 value ∧ (value.toNat : Int) = column := by
  rw [toI64, rejectIf_ok_iff, Nat.not_lt, Except.ok.injEq, FitsI64]

theorem exists_toI64_iff {Fine : Int → Prop} :
    (∃ column, toI64 value field = .ok column ∧ Fine column) ↔
      FitsI64 value ∧ Fine value.toNat := by
  simp only [toI64_ok_iff, and_assoc, exists_and_left, exists_eq_left']

section Values

variable {chain : Deployment}

theorem putName_ok_iff {row} : (∃ next, putName row store = .ok next) ↔
      row.validate = .ok () ∧ FitsI64 row.nameSeq ∧ FitsI64 row.updatedAt := by
  simp only [putName, then_ok_iff, exists_unit_iff, done_ok_iff, exists_toI64_iff,
    exists_and_left, exists_eq', and_true]

theorem putDocument_ok_iff {row} :
    (∃ next, putDocument chain row store = .ok next) ↔
      row.validate chain = .ok () ∧ FitsI64 row.version := by
  simp only [putDocument, then_ok_iff, exists_unit_iff, done_ok_iff, exists_toI64_iff,
    exists_and_left, exists_eq', and_true]

theorem putAlias_ok_iff {row} : (∃ next, putAlias row store = .ok next) ↔
      row.validate = .ok () ∧ FitsI64 row.nameSeq := by
  simp only [putAlias, then_ok_iff, exists_unit_iff, done_ok_iff, exists_toI64_iff,
    exists_and_left, exists_eq', and_true]

theorem putCheckpoint_ok_iff {row} : (∃ next, putCheckpoint row store = .ok next) ↔
      row.validate = .ok () ∧ FitsI64 row.lastSeq ∧ FitsI64 row.issuedAt := by
  simp only [putCheckpoint, then_ok_iff, exists_unit_iff, done_ok_iff, exists_toI64_iff,
    exists_and_left, exists_eq', and_true]

theorem putControllerPolicy_ok (hname : validName name = true)
    (hchecks : ∀ row ∈ rows, row.validate = .ok ()) (policyHash : Bytes32) :
    ∃ next, putControllerPolicy name rows (hashString policyHash) store = .ok next := by
  have hrules : rows.forM ControllerRule.validate = .ok () := forM_ok_iff.mpr hchecks
  rw [putControllerPolicy, canonicalBnsName_of_validName hname, validateHash_hashString, hrules]
  exact ⟨_, rfl⟩

theorem nameStateFromEvm_ok [AbiDecoder] {state : BnsTypes.NameState}
    (hname : validName state.name = true) (hasset : state.assetOwner ≠ .zero)
    (hsemantic : validateSemanticOwner state.semanticOwner = .ok ())
    (heffective : validatePrincipal state.effectiveOwner = .ok ()) :
    ∃ row, nameStateFromEvm (decodeNameState state) = .ok row ∧ row.validate = .ok () ∧
      row.nameSeq = state.nameSeq ∧ row.updatedAt = state.updatedAt := by
  obtain ⟨semantic, hsemanticRow, hsemanticCheck⟩ :=
    principalFromEvm_of_validateSemanticOwner hsemantic
  obtain ⟨effective, heffectiveRow, heffectiveCheck, -⟩ :=
    principalFromEvm_of_validatePrincipal heffective
  have howner : addressOrEmpty state.assetOwner ≠ [] := by
    apply List.ne_nil_of_length_pos
    rw [length_addressOrEmpty hasset]
    decide
  refine ⟨_, by
    simp only [nameStateFromEvm, decodeNameState, decode_of_validName hname lossy,
      canonicalBnsNameOrEmpty_of_validName hname, hsemanticRow, heffectiveRow]
    rfl, ?_, rfl, rfl⟩
  simp only [NameState.validate, canonicalBnsName_of_validName hname, then_ok_iff,
    exists_unit_iff, rejectIf_ok_iff, validateHash_hashString, List.isEmpty_iff]
  exact ⟨_, rfl, howner, hsemanticCheck, heffectiveCheck, trivial, trivial, trivial⟩

theorem documentStateFromEvm_ok [AbiDecoder] {state} (hsound : SoundDocument chain state) :
    ∃ row, documentStateFromEvm (decodeDocumentState state) = .ok row ∧
      row.validate chain = .ok () ∧ row.version = state.version := by
  obtain ⟨controller, hcontrollerRow, hcontrollerCheck, -⟩ :=
    principalFromEvm_of_validatePrincipal hsound.controller
  obtain ⟨beneficiary, hbeneficiaryRow, hbeneficiaryCheck, -⟩ :=
    principalFromEvm_of_validatePrincipal hsound.beneficiary
  refine ⟨_, by
    simp only [documentStateFromEvm, decodeDocumentState, decode_of_validName hsound.name lossy,
      canonicalBnsNameOrEmpty_of_validName hsound.name,
      canonicalDocTypeOrEmpty_of_validDocType fun _ => hsound.docType, hcontrollerRow,
      hbeneficiaryRow]
    rfl, ?_, rfl⟩
  simp only [DocumentState.validate, canonicalBnsName_of_validName hsound.name,
    canonicalDocType_of_validDocType hsound.docType, then_ok_iff, exists_unit_iff,
    validateHash_hashString]
  exact ⟨_, rfl, _, rfl, validateShape_documentRefFromEvm hsound.documentRef,
    hcontrollerCheck, hbeneficiaryCheck, trivial, trivial, trivial, trivial, trivial, trivial⟩

theorem aliasStateFromEvm_ok [AbiDecoder] {state} (hname : validName state.name = true)
    (hdid : state.kind ≠ .none → validDid state.targetDid = true) :
    ∃ row, aliasStateFromEvm (decodeAlias state) = .ok row ∧ (row.validate = .ok () ↔
        (state.kind ≠ .none → ForeignOrCanonical state.targetDid)) ∧
      row.nameSeq = state.nameSeq := by
  refine ⟨_, by
    simp only [aliasStateFromEvm, decodeAlias, decode_of_validName hname lossy,
      canonicalBnsNameOrEmpty_of_validName hname]
    rfl, ?_, rfl⟩
  by_cases hkind : state.kind = .none
  · simp [AliasState.validate, canonicalBnsName_of_validName hname, then_ok_iff,
      validateHash_hashString, hkind]
  have hcheck := validateDid_decode_iff lossy (hdid hkind)
  simp only [AliasState.validate, canonicalBnsName_of_validName hname, ne_eq, hkind,
    not_false_iff, if_true, then_ok_iff, exists_unit_iff, validateHash_hashString, hcheck]
  simp

theorem checkpointFromEvm_ok {checkpoint} (hissuer : validatePrincipal checkpoint.issuer = .ok ()) :
    ∃ row, checkpointFromEvm checkpoint = .ok row ∧ row.validate = .ok () ∧
      row.lastSeq = checkpoint.lastSeq ∧ row.issuedAt = checkpoint.issuedAt := by
  obtain ⟨issuer, hissuerRow, hissuerCheck, -⟩ := principalFromEvm_of_validatePrincipal hissuer
  refine ⟨_, by
    simp only [checkpointFromEvm, hissuerRow]
    rfl, ?_, rfl, rfl⟩
  simp only [LogCheckpoint.validate, then_ok_iff, exists_unit_iff, validateHash_hashString]
  exact ⟨trivial, hissuerCheck, trivial⟩

theorem validate_authorityKeyUpdateFromEvm (update : BnsTypes.AuthorityKeyUpdate) :
    (authorityKeyUpdateFromEvm update).validate = .ok () := by
  have hkid : validateKid (hashString update.key.kid) = .ok () := by
    rw [validateKid, if_neg, validateHash_hashString]
    simp [hashString, hexMarker, text]
  have hfields : ∀ status, AuthorityKey.validate
      { authorityKeyFromEvm update.key with status } = .ok () := by
    intro status
    simp only [AuthorityKey.validate, authorityKeyFromEvm, then_ok_iff, exists_unit_iff, hkid,
      rejectIf_ok_iff, List.isEmpty_iff, validateHash_hashString]
    exact ⟨trivial, bytes32LabelOrHash_ne_nil _, trivial⟩
  simp only [authorityKeyUpdateFromEvm]
  split
  · split
    · exact hfields _
    · exact hfields (authorityKeyFromEvm update.key).status
  · exact hfields _

end Values

/-! ## All values -/

theorem accepted_of_row {Row : Type} {store row converted}
    (put : Row → Store → BnsRegistryResult Store) (hrow : converted = .ok row) :
    (∃ next, (converted >>= fun value => put value store) = .ok next) ↔
      ∃ next, put row store = .ok next := by
  rw [hrow]
  rfl

section Views

variable {chain : Deployment}

structure SoundName (state : BnsTypes.NameState) : Prop where
  name : validName state.name = true
  assetOwner : state.assetOwner ≠ .zero
  semanticOwner : validateSemanticOwner state.semanticOwner = .ok ()
  effectiveOwner : validatePrincipal state.effectiveOwner = .ok ()

theorem soundName_of_query (hwf : WellFormed storage) {now name state}
    (hquery : queryNameState storage now name = .ok state) (hexists : state.status ≠ .available) :
    SoundName state := by
  simp only [queryNameState, then_ok_iff, validateName_ok_iff] at hquery
  obtain ⟨-, ⟨hvalid, rfl⟩, hquery⟩ := hquery
  split at hquery
  · obtain rfl := done_ok_iff.mp hquery
    exact absurd rfl hexists
  rename_i hreg
  have hstored := hwf.stored name hreg
  rw [BnsStorage.materializeNameState] at hquery
  split at hquery
  · cases hquery
  rename_i owner hresol
  rw [hstored.name_eq] at hresol
  obtain rfl := Except.ok.inj hquery
  exact ⟨by simpa only [hstored.name_eq] using hvalid, hstored.assetOwner,
    hstored.validOwner, validatePrincipal_effectiveOwner hwf hreg hresol⟩

theorem soundDocument_of_query (hsound : SoundStorage chain storage) {name docType version state}
    (hquery : getDocumentVersion storage name docType version = .ok state)
    (hexists : state.status ≠ .missing) : SoundDocument chain state := by
  simp only [getDocumentVersion, then_ok_iff, done_ok_iff,
    validateName_ok_iff, validateDocType_ok_iff] at hquery
  obtain ⟨_, ⟨-, rfl⟩, _, ⟨-, rfl⟩, rfl⟩ := hquery
  split at hexists
  · exact absurd rfl hexists
  rename_i hver
  rw [if_neg hver]
  refine (hsound.documents _ _ _).resolve_left fun hempty => hver ?_
  rw [hempty]

theorem soundAlias_of_query (hsound : SoundStorage chain storage) {name state}
    (hquery : getAlias storage name = .ok state) :
    validName state.name = true ∧ (state.kind ≠ .none → validDid state.targetDid = true) := by
  simp only [getAlias, then_ok_iff, done_ok_iff, validateName_ok_iff] at hquery
  obtain ⟨-, ⟨hvalid, rfl⟩, rfl⟩ := hquery
  have halias := hsound.aliases (BnsStorage.lineageStateKey storage (nameHash name))
  split
  · exact ⟨hvalid, halias.targetDid⟩
  · rename_i hnamed
    have hslot := halias.name.resolve_left fun hnil => hnamed (by rw [hnil]; rfl)
    exact ⟨hslot.1, halias.targetDid⟩

end Views

theorem accepted_controllerPolicy [AbiDecoder] {chain name rules policyHash}
    (hheld : Held chain (.controllerPolicy name rules policyHash)) (store : Store) :
    Accepted chain store (.controllerPolicy name rules policyHash) := by
  obtain ⟨attempt, ⟨storage, hreach, result, hcall⟩, hname, hpol⟩ := hheld
  have hperf := runCall_performs hcall
  have hvalid := validName_of_performs hperf hname
  obtain ⟨rows, hrows, hchecks⟩ := controllerRules_of_validateControllerRule
    fun rule hrule => validateControllerRule_of_performs hperf hpol hrule
  let put := fun values => putControllerPolicy name values (hashString policyHash)
  exact (accepted_of_row put hrows).mpr (putControllerPolicy_ok hvalid hchecks policyHash)

/-- Whatever the contract holds is taken by the store exactly when its counters
and times fit a signed 64-bit column and a DID of the `bns` method in an alias
carries a canonical name. -/
theorem contract_values_accepted_iff [AbiDecoder] {chain : Deployment} {value : ContractValue}
    (hheld : Held chain value) (store : Store) :
    Accepted chain store value ↔ Representable value := by
  cases value with
  | nameState state =>
    obtain ⟨storage, now, name, hreach, hquery, hexists⟩ := hheld
    have hsound := soundName_of_query (wellFormed_of_reachable hreach) hquery hexists
    obtain ⟨row, hrow, hvalid, hseq, hupd⟩ := nameStateFromEvm_ok hsound.name
      hsound.assetOwner hsound.semanticOwner hsound.effectiveOwner
    rw [Accepted, project, accepted_of_row putName hrow, putName_ok_iff, hseq, hupd]
    exact and_iff_right hvalid
  | documentState state =>
    obtain ⟨storage, name, docType, version, hreach, hquery, hexists⟩ := hheld
    have hsound := soundDocument_of_query (soundStorage_of_reachable hreach) hquery hexists
    obtain ⟨row, hrow, hvalid, hver⟩ := documentStateFromEvm_ok hsound
    rw [Accepted, project, accepted_of_row (putDocument chain) hrow, putDocument_ok_iff, hver]
    exact and_iff_right hvalid
  | authorityKey name update =>
    obtain ⟨attempt, ⟨storage, hreach, result, hcall⟩, hname, -⟩ := hheld
    have hvalid := validName_of_performs (runCall_performs hcall) hname
    simp [Accepted, Representable, project, putAuthorityKey,
      canonicalBnsName_of_validName hvalid, validate_authorityKeyUpdateFromEvm, then_ok_iff]
  | controllerPolicy name rules policyHash =>
    exact iff_of_true (accepted_controllerPolicy hheld store) trivial
  | aliasState state =>
    obtain ⟨storage, name, hreach, hquery⟩ := hheld
    obtain ⟨hname, hdid⟩ := soundAlias_of_query (soundStorage_of_reachable hreach) hquery
    obtain ⟨row, hrow, hvalid, hseq⟩ := aliasStateFromEvm_ok hname hdid
    rw [Accepted, project, accepted_of_row putAlias hrow, putAlias_ok_iff, hvalid, hseq]
    exact and_comm
  | checkpoint checkpoint =>
    obtain ⟨storage, hreach, rfl⟩ := hheld
    obtain ⟨row, hrow, hvalid, hseq, hissued⟩ :=
      checkpointFromEvm_ok (soundStorage_of_reachable hreach).issuer
    rw [Accepted, project, accepted_of_row putCheckpoint hrow, putCheckpoint_ok_iff, hseq, hissued]
    exact and_iff_right hvalid

def sampleAlias (targetDid : String) : Attempt where
  msg := { sender := .ofByte 7, now := 6 }
  call := .setDidAlias (text "alice") (text targetDid) .alias .zero (accountAuthority 7)
    { expectedNameSeq := 1, expectedParentNameSeq := 0 }

def sampleAliasState (targetDid : String) : BnsTypes.AliasState where
  name := text "alice"
  kind := .alias
  targetDid := text targetDid
  proofHash := .zero
  setAt := 6
  nameSeq := 2

theorem contract_values_accepted_iff_foreign_did :
    Held sampleChain (.aliasState (sampleAliasState "did:web:alice")) ∧
    Accepted sampleChain {} (.aliasState (sampleAliasState "did:web:alice")) := by
  have hheld : Held sampleChain (.aliasState (sampleAliasState "did:web:alice")) :=
    ⟨_, text "alice", reachable_commitAll sampleChain
      [sampleRegistration "alice" 7, sampleAlias "did:web:alice"], by decide +kernel⟩
  refine ⟨hheld, (contract_values_accepted_iff hheld {}).mpr ⟨by decide, fun _ => ?_⟩⟩
  intro name hname
  have hstart : didBns <+: text "did:web:alice" := ⟨name, hname.symm⟩
  exact absurd hstart (by decide)

/-- The contract stores the DID `did:bns:Alice`; the store refuses it. -/
theorem not_every_value_accepted :
    ∃ value, Held sampleChain value ∧ ¬Accepted sampleChain {} value := by
  refine ⟨.aliasState (sampleAliasState "did:bns:Alice"), ?_, ?_⟩
  · exact ⟨_, text "alice", reachable_commitAll sampleChain
      [sampleRegistration "alice" 7, sampleAlias "did:bns:Alice"], by decide +kernel⟩
  rintro ⟨next, hnext⟩
  have href : project sampleChain {} (.aliasState (sampleAliasState "did:bns:Alice")) =
      .error (.invalidName (text "Alice")
        "only lower-case ASCII letters, digits, '-' and '.' are supported") := by decide +kernel
  cases hnext

end CyfsGateway.BnsAcceptance
