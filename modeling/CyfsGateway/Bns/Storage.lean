import CyfsGateway.Bns.Validation
import CyfsGateway.Core.Reverting

/-!
# Storage of the BNS contract and the views over it

The mappings of `BnsCore.sol` are total functions with the zero value as
default.  State belonging to one lineage of a name is stored under
`lineageStateKey`: the name hash itself in lineage 0 and a derived key later,
recognised by a marker in the document-version mapping.
-/

namespace CyfsGateway.BnsStorage

open Evm BnsTypes BnsValidation

structure Storage where
  names : Digest → NameState := fun _ => {}
  knownNameHash : Digest → Bool := fun _ => false
  nameHashes : List Digest := []
  authoritySets : Digest → AuthoritySetState := fun _ => {}
  authorityKeys : Digest → Bytes32 → AuthorityKey := fun _ _ => {}
  authorityKeyIds : Digest → List Bytes32 := fun _ => []
  knownAuthorityKey : Digest → Bytes32 → Bool := fun _ _ => false
  currentDocumentVersions : Digest → Digest → UInt64 := fun _ _ => 0
  documents : Digest → Digest → UInt64 → DocumentState := fun _ _ _ => {}
  controllerPolicies : Digest → List ControllerRule := fun _ => []
  aliases : Digest → AliasState := fun _ => {}
  latestCheckpoint : LogCheckpoint := {}
  globalEventSeq : UInt64 := 0
  currentLogRoot : Bytes32 := .zero

def Storage.initial : Storage := {}

def lineageStateDomain : Digest := .keccak256 (text "bns.lineage.state.v1")

def lineageStateMarker : Digest := .keccak256 (text "bns.lineage.state.marker.v1")

/-- `keccak256(abi.encode(LINEAGE_STATE_DOMAIN, nameHash, lineageEpoch))`. -/
def lineageKey (nameHash : Digest) (lineageEpoch : UInt64) : Digest :=
  .keccak256Lineage lineageStateDomain nameHash lineageEpoch

variable (storage : Storage) (now : UInt64)

def lineageStateKey (nameHash : Digest) : Digest :=
  let lineageEpoch := (storage.names nameHash).lineageEpoch
  if lineageEpoch = 0 then nameHash
  else if storage.currentDocumentVersions (lineageKey nameHash lineageEpoch)
      lineageStateMarker ≠ lineageEpoch then nameHash
  else lineageKey nameHash lineageEpoch

def effectiveNameStatus (state : NameState) : NameStatus :=
  if state.status = .active ∧ state.expireAt ≠ 0 ∧ state.expireAt ≤ now then .expired
  else state.status

def isActiveName (state : NameState) : Bool :=
  effectiveNameStatus now state == .active

def requireExistingName (nameHash : Digest) (name : Bytes) : Except Revert Unit :=
  if (storage.names nameHash).status = .available then .error (.nameNotFound name)
  else .ok ()

def requireActiveName (nameHash : Digest) (name : Bytes) : Except Revert Unit :=
  if isActiveName now (storage.names nameHash) then .ok ()
  else .error (.nameNotFound name)

/-! ## Authority -/

def isActiveKey (key : AuthorityKey) (purpose : UInt32) (now : UInt64) : Bool :=
  key.status == .active && (key.purposes &&& purpose) != 0 && key.validFrom ≤ now &&
    (key.validUntil == 0 || now < key.validUntil)

def authorityKeyAuthenticates
    (authorityNameHash : Digest) (kid : Bytes32) (signer : Address) : Bool :=
  let key := storage.authorityKeys (lineageStateKey storage authorityNameHash) kid
  if !isActiveKey key keyPurposeAuthentication now then false
  else tryAddressFromBytes key.keyData == some signer

def authenticateExpectedPrincipal
    (expected : Principal) (authority : CallAuthority) (signer : Address) : Bool :=
  match expected.kind with
  | .chainAccount =>
    if authority.actor.kind ≠ .chainAccount then false
    else tryAddressFromBytes expected.value == some signer &&
      tryAddressFromBytes authority.actor.value == some signer
  | .bnsName =>
    if authority.actor.kind ≠ .bnsName then false
    else if nameHash expected.value ≠ nameHash authority.actor.value then false
    else if !isActiveName now (storage.names (nameHash expected.value)) then false
    else authorityKeyAuthenticates storage now (nameHash expected.value) authority.kid signer
  | .unset => false

def requireActiveAuthoritySet (principal : Principal) : Except Revert Unit :=
  if principal.kind = .bnsName ∧
      (isActiveName now (storage.names (nameHash principal.value)) = false ∨ (storage.authoritySets
          (lineageStateKey storage (nameHash principal.value))).activeKeyCount = 0) then
    .error .noConcreteSigner
  else .ok ()

/-- `_resolveOwner`.  The first argument is `MAX_OWNER_REF_DEPTH + 1 - depth`:
the source reverts when `depth` exceeds the maximum. -/
def resolveOwnerFrom (storage : Storage) (now : UInt64) :
    (remaining : Nat) → (hash : Digest) → Except Revert OwnerResolution
  | 0, _ => .error (.ownerGraphTooDeep maxOwnerRefDepth)
  | remaining + 1, hash =>
    let state := storage.names hash
    if state.status = .available then .error (.nameNotFound state.name)
    else if state.semanticOwner.kind = .bnsName then
      let ownerHash := nameHash state.semanticOwner.value
      let set := storage.authoritySets (lineageStateKey storage ownerHash)
      if isActiveName now state ∧ (isActiveName now (storage.names ownerHash) = false ∨
            set.activeKeyCount = 0) then
        .error .noConcreteSigner
      else .ok
        { effectiveOwner := state.semanticOwner
          source := .explicitSemanticOwner
          authorityRoot := set.authorityRoot
          authoritySeq := set.authoritySeq }
    else if (parentName state.name).length = 0 then
      let set := storage.authoritySets (lineageStateKey storage hash)
      .ok
        { effectiveOwner := chainAccountPrincipal state.assetOwner
          source := .assetOwnerFallback
          authorityRoot := set.authorityRoot
          authoritySeq := set.authoritySeq }
    else
      let parentHash := nameHash (parentName state.name)
      if isActiveName now state ∧ isActiveName now (storage.names parentHash) = false then
        .error .noConcreteSigner
      else
        match resolveOwnerFrom storage now remaining parentHash with
        | .ok parentOwner => .ok { parentOwner with source := .parentInherited }
        | .error error => .error error

def resolveOwner (hash : Digest) :
    Except Revert OwnerResolution := resolveOwnerFrom storage now (maxOwnerRefDepth + 1) hash

def materializeNameState (stored : NameState) : Except Revert NameState :=
  match resolveOwner storage now (nameHash stored.name) with
  | .error error => .error error
  | .ok owner =>
    let status := effectiveNameStatus now stored
    .ok
      { stored with
        status
        effectiveOwner := owner.effectiveOwner
        ownerSource := owner.source
        standardTransferEnabled :=
          stored.transferable && status == .active &&
            owner.source == .assetOwnerFallback }

/-- The loop of `_validateOwnerPath`: `remaining` iterations are left before
the depth limit and `visited` holds the hashes of the earlier ones. -/
def validateOwnerPathFrom (storage : Storage) (now : UInt64) :
    (remaining : Nat) → (visited : List Digest) → (current : Digest) → Except Revert Unit
  | 0, _, _ => .error (.ownerGraphTooDeep maxOwnerRefDepth)
  | remaining + 1, visited, current =>
    let state := storage.names current
    if current ∈ visited then .error .ownerGraphCycle
    else if isActiveName now state = false then .error .noConcreteSigner
    else if state.semanticOwner.kind = .bnsName then
      let ownerHash := nameHash state.semanticOwner.value
      if isActiveName now (storage.names ownerHash) = false then
        .error .noConcreteSigner
      else if (storage.authoritySets (lineageStateKey storage ownerHash)).activeKeyCount = 0 then
        .error .noConcreteSigner
      else .ok ()
    else if (parentName state.name).length = 0 then
      if state.assetOwner = .zero then .error .noConcreteSigner else .ok ()
    else validateOwnerPathFrom storage now remaining (visited ++ [current])
      (nameHash (parentName state.name))

def validateOwnerPath (start : Digest) : Except Revert Unit :=
  validateOwnerPathFrom storage now (maxOwnerRefDepth + 1) [] start

/-! ## Authorization of a call -/

def checkGuard (state : NameState) (guard : MutationGuard) (name : Bytes) : Except Revert Unit :=
  if state.nameSeq ≠ guard.expectedNameSeq then
    .error (.staleNameSeq name guard.expectedNameSeq state.nameSeq)
  else .ok ()

def authorizeOwner (msg : Message) (hash : Digest)
    (name : Bytes) (authority : CallAuthority) : Except Revert Unit :=
  if authority.role ≠ .owner then .error (.notEffectiveOwner name)
  else
    match resolveOwner storage msg.now hash with
    | .error error => .error error
    | .ok owner =>
      if authenticateExpectedPrincipal storage msg.now owner.effectiveOwner
          authority msg.sender then .ok ()
      else .error (.notEffectiveOwner name)

def docTypeMatches (ruleDocType docType : Bytes) : Bool :=
  ruleDocType.length == 0 || ruleDocType == docType

def ruleAuthorizes (msg : Message) (docType : Bytes)
    (permission : UInt32) (authority : CallAuthority) (rule : ControllerRule) : Bool :=
  (rule.permissions &&& permission) != 0 && docTypeMatches rule.docType docType &&
    !(rule.validFrom > msg.now || (rule.validUntil != 0 && msg.now ≥ rule.validUntil)) &&
    authenticateExpectedPrincipal storage msg.now rule.controller authority msg.sender

def authorizeUpdateNoGuard (msg : Message) (hash : Digest)
    (name docType : Bytes) (permission : UInt32) (operation : Digest)
    (authority : CallAuthority) : Except Revert Unit :=
  if authority.role = .owner then authorizeOwner storage msg hash name authority
  else if authority.role ≠ .controller then .error (.notEffectiveOwner name)
  else if (storage.controllerPolicies (lineageStateKey storage hash)).any
      (ruleAuthorizes storage msg docType permission authority) then .ok ()
  else .error (.controllerScopeDenied name docType operation)

def authorizeUpdate (msg : Message) (hash : Digest)
    (name docType : Bytes) (permission : UInt32) (operation : Digest)
    (authority : CallAuthority) (guard : MutationGuard) : Except Revert Unit := do
  checkGuard (storage.names hash) guard name
  authorizeUpdateNoGuard storage msg hash name docType permission operation authority

def effectiveDocumentStatus (nameStatus : NameStatus)
    (documentStatus : DocumentStatus) (documentExpireAt : UInt64) : DocumentStatus :=
  if nameStatus = .tombstoned then .tombstoned
  else if documentStatus ≠ .active then documentStatus
  else if nameStatus = .expired ∨ nameStatus = .released ∨
      (documentExpireAt ≠ 0 ∧ documentExpireAt ≤ now) then .expired
  else .active

end CyfsGateway.BnsStorage
