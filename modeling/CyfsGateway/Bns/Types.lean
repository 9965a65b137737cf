import CyfsGateway.Bns.Evm

/-!
# Data types of the BNS contract

The enumerations, structures, custom errors and events of `BnsTypes.sol` and
`BnsEvents.sol`.  Every structure has the zero value of its storage slot as
default, so that an unwritten mapping entry is `default`.
-/

namespace CyfsGateway.BnsTypes

open Evm

inductive NameStatus
  | available | active | expired | released | tombstoned
  deriving DecidableEq, Inhabited

inductive DocumentStatus
  | missing | active | revoked | expired | migrated | tombstoned
  deriving DecidableEq, Inhabited

inductive AliasKind
  | none | alias | migratedTo | canonical
  deriving DecidableEq, Inhabited

inductive ReleaseMode
  | releaseAfterGrace | tombstoneForever
  deriving DecidableEq, Inhabited

inductive PrincipalKind
  | unset | chainAccount | bnsName
  deriving DecidableEq, Inhabited

inductive OwnerSource
  | none | assetOwnerFallback | explicitSemanticOwner | parentInherited
  deriving DecidableEq, Inhabited

inductive AuthorityRole
  | none | owner | controller
  deriving DecidableEq, Inhabited

inductive AuthorityKeyStatus
  | missing | active | revoked | expired
  deriving DecidableEq, Inhabited

structure Principal where
  kind : PrincipalKind := .unset
  value : Bytes := []
  deriving DecidableEq, Inhabited

structure CallAuthority where
  role : AuthorityRole
  actor : Principal
  kid : Bytes32
  deriving DecidableEq, Inhabited

structure MutationGuard where
  expectedNameSeq : UInt64
  expectedParentNameSeq : UInt64
  deriving DecidableEq, Inhabited

structure AuthorityKey where
  kid : Bytes32 := .zero
  verificationMethod : Bytes32 := .zero
  keyData : Bytes := []
  purposes : UInt32 := 0
  validFrom : UInt64 := 0
  validUntil : UInt64 := 0
  status : AuthorityKeyStatus := .missing
  metadataHash : Bytes32 := .zero
  deriving DecidableEq, Inhabited

structure AuthorityKeyUpdate where
  key : AuthorityKey
  active : Bool
  deriving DecidableEq, Inhabited

structure AuthoritySetState where
  name : Bytes := []
  authoritySeq : UInt64 := 0
  authorityRoot : Bytes32 := .zero
  activeKeyCount : UInt32 := 0
  deriving DecidableEq, Inhabited

structure DocumentRef where
  storageType : Bytes32 := .zero
  uri : Bytes := []
  inlineDocument : Bytes := []
  contentHash : Bytes32 := .zero
  schema : Bytes32 := .zero
  codec : Bytes32 := .zero
  extraHash : Bytes32 := .zero
  deriving DecidableEq, Inhabited

structure NameState where
  name : Bytes := []
  assetOwner : Address := .zero
  semanticOwner : Principal := {}
  effectiveOwner : Principal := {}
  ownerSource : OwnerSource := .none
  standardTransferEnabled : Bool := false
  status : NameStatus := .available
  registeredAt : UInt64 := 0
  expireAt : UInt64 := 0
  graceUntil : UInt64 := 0
  updatedAt : UInt64 := 0
  nameSeq : UInt64 := 0
  ownerDocumentVersion : UInt64 := 0
  minDocumentIat : UInt64 := 0
  ownerPolicySeq : UInt64 := 0
  lineageEpoch : UInt64 := 0
  renewable : Bool := false
  transferable : Bool := false
  allowDelegatedSubnames : Bool := false
  namespacePolicyHash : Bytes32 := .zero
  paymentPolicyHash : Bytes32 := .zero
  aliasStateHash : Bytes32 := .zero
  deriving DecidableEq, Inhabited

structure DocumentState where
  name : Bytes := []
  docType : Bytes := []
  version : UInt64 := 0
  previousVersion : UInt64 := 0
  status : DocumentStatus := .missing
  document : DocumentRef := {}
  controller : Principal := {}
  beneficiary : Principal := {}
  paymentTarget : Address := .zero
  validFrom : UInt64 := 0
  expireAt : UInt64 := 0
  revokedAt : UInt64 := 0
  controllerPolicyHash : Bytes32 := .zero
  paymentPolicyHash : Bytes32 := .zero
  splitPolicyHash : Bytes32 := .zero
  pricePolicyHash : Bytes32 := .zero
  rightsPolicyHash : Bytes32 := .zero
  documentStateHash : Bytes32 := .zero
  deriving DecidableEq, Inhabited

structure ControllerRule where
  controller : Principal
  docType : Bytes
  permissions : UInt32
  namespaceScopeHash : Bytes32
  validFrom : UInt64
  validUntil : UInt64
  constraintHash : Bytes32
  deriving DecidableEq, Inhabited

structure RegisterOptions where
  duration : UInt64
  gracePeriod : UInt64
  renewable : Bool
  transferable : Bool
  initialSemanticOwner : Principal
  allowDelegatedSubnames : Bool
  initialPaymentTarget : Address
  initialPaymentPolicyHash : Bytes32
  initialNamespacePolicyHash : Bytes32
  deriving DecidableEq, Inhabited

structure DocumentUpdate where
  docType : Bytes
  expectedVersion : UInt64
  document : DocumentRef
  controller : Principal
  beneficiary : Principal
  paymentTarget : Address
  expireAt : UInt64
  controllerPolicyHash : Bytes32
  paymentPolicyHash : Bytes32
  splitPolicyHash : Bytes32
  pricePolicyHash : Bytes32
  rightsPolicyHash : Bytes32
  deriving DecidableEq, Inhabited

structure OwnerPolicyUpdate where
  updateMinDocumentIat : Bool
  minDocumentIat : UInt64
  reasonHash : Bytes32
  deriving DecidableEq, Inhabited

structure OwnerResolution where
  effectiveOwner : Principal
  source : OwnerSource
  authorityRoot : Bytes32
  authoritySeq : UInt64
  deriving DecidableEq, Inhabited

structure AliasState where
  name : Bytes := []
  kind : AliasKind := .none
  targetDid : Bytes := []
  proofHash : Bytes32 := .zero
  setAt : UInt64 := 0
  nameSeq : UInt64 := 0
  deriving DecidableEq, Inhabited

structure ResolveResult where
  nameState : NameState
  documentState : DocumentState
  owner : OwnerResolution
  effectiveController : Principal
  status : DocumentStatus
  aliasKind : AliasKind
  aliasTargetDid : Bytes
  proofRoot : Bytes32
  deriving DecidableEq, Inhabited

structure PurchaseContext where
  name : Bytes
  docType : Bytes
  documentVersion : UInt64
  beneficiary : Principal
  paymentTarget : Address
  paymentPolicyHash : Bytes32
  splitPolicyHash : Bytes32
  pricePolicyHash : Bytes32
  rightsPolicyHash : Bytes32
  status : DocumentStatus
  proofRoot : Bytes32
  deriving DecidableEq, Inhabited

structure LogCheckpoint where
  logRoot : Bytes32 := .zero
  lastSeq : UInt64 := 0
  issuedAt : UInt64 := 0
  issuer : Principal := {}
  externalAnchor : Bytes32 := .zero
  deriving DecidableEq, Inhabited

/-- The custom errors of the contract, and the compiler's checked-arithmetic
panic. -/
inductive Revert
  | invalidName (name : Bytes)
  | invalidDocType (docType : Bytes)
  | invalidPrincipal
  | invalidKid (kid : Bytes32)
  | nameAlreadyExists (name : Bytes)
  | nameNotFound (name : Bytes)
  | documentNotFound (name docType : Bytes)
  | staleNameSeq (name : Bytes) (expected actual : UInt64)
  | staleParentNameSeq (name : Bytes) (expected actual : UInt64)
  | staleDocumentVersion (name docType : Bytes) (expected actual : UInt64)
  | notEffectiveOwner (name : Bytes)
  | controllerScopeDenied (name docType : Bytes) (operation : Digest)
  | ownerGraphCycle
  | noConcreteSigner
  | ownerGraphTooDeep (maxDepth : Nat)
  | inlineDocumentTooLarge (len max : Nat)
  | invalidMutation (reason : Digest)
  | arithmeticOverflow
  deriving DecidableEq

inductive BnsEvent
  | protocolEvent (seq : UInt64) (eventType : Digest) (actor : Address)
      (previousLogRoot logRoot : Bytes32)
  | nameRegistered (nameHash : Digest) (name : Bytes) (assetOwner actor : Address)
      (expireAt lineageEpoch nameSeq : UInt64)
  | nameRenewed (nameHash : Digest) (name : Bytes) (actor : Address) (expireAt nameSeq : UInt64)
  | nameAssetTransferred (nameHash : Digest) (name : Bytes)
      (oldAssetOwner newAssetOwner : Address) (standardTransfer : Bool)
      (nameSeq : UInt64)
  | nameOwnerUpdated (nameHash : Digest) (name : Bytes) (actor : Address)
      (ownerKind : PrincipalKind) (ownerValue : Bytes) (ownerSource : OwnerSource)
      (standardTransferEnabled : Bool) (nameSeq : UInt64)
  | authorityKeysUpdated (nameHash : Digest) (name : Bytes) (actor : Address)
      (authoritySeq : UInt64) (authorityRoot : Bytes32)
  | nameReleased (nameHash : Digest) (name : Bytes) (actor : Address)
      (mode : ReleaseMode) (reasonHash : Bytes32) (nameSeq : UInt64)
  | documentPublished (nameHash : Digest) (name docType : Bytes)
      (version : UInt64) (actor : Address)
      (contentHash documentStateHash : Bytes32)
  | documentRevoked (nameHash : Digest) (name docType : Bytes) (actor : Address)
      (previousVersion newVersion : UInt64) (reasonHash : Bytes32)
  | ownerDocumentIatFloorUpdated (nameHash : Digest) (name : Bytes)
      (actor : Address) (previousMinDocumentIat newMinDocumentIat : UInt64)
      (ownerPolicySeq nameSeq : UInt64) (reasonHash : Bytes32)
  | controllerPolicyUpdated (nameHash : Digest) (name : Bytes) (actor : Address)
      (policyHash : Bytes32) (nameSeq : UInt64)
  | namespacePolicyUpdated (nameHash : Digest) (name : Bytes) (actor : Address)
      (allowDelegatedSubnames : Bool) (namespacePolicyHash : Bytes32)
      (nameSeq : UInt64)
  | didAliasSet (nameHash : Digest) (name : Bytes) (actor : Address)
      (targetDid : Bytes) (kind : AliasKind) (proofHash : Bytes32)
      (nameSeq : UInt64)
  | paymentTargetUpdated (nameHash : Digest) (name docType : Bytes)
      (actor paymentTarget : Address) (paymentPolicyHash : Bytes32)
      (version : UInt64)
  | logCheckpointPublished (logRoot : Bytes32) (actor : Address)
      (lastSeq issuedAt : UInt64) (externalAnchor : Bytes32)
  deriving DecidableEq

/-- The position of an enumeration value in its declaration, as `abi.encode`
writes it. -/
def PrincipalKind.index : PrincipalKind → Nat
  | .unset => 0
  | .chainAccount => 1
  | .bnsName => 2

@[inherit_doc PrincipalKind.index]
def OwnerSource.index : OwnerSource → Nat
  | .none => 0
  | .assetOwnerFallback => 1
  | .explicitSemanticOwner => 2
  | .parentInherited => 3

@[inherit_doc PrincipalKind.index]
def AuthorityKeyStatus.index : AuthorityKeyStatus → Nat
  | .missing => 0
  | .active => 1
  | .revoked => 2
  | .expired => 3

@[inherit_doc PrincipalKind.index]
def DocumentStatus.index : DocumentStatus → Nat
  | .missing => 0
  | .active => 1
  | .revoked => 2
  | .expired => 3
  | .migrated => 4
  | .tombstoned => 5

@[inherit_doc PrincipalKind.index]
def AliasKind.index : AliasKind → Nat
  | .none => 0
  | .alias => 1
  | .migratedTo => 2
  | .canonical => 3

@[inherit_doc PrincipalKind.index]
def ReleaseMode.index : ReleaseMode → Nat
  | .releaseAfterGrace => 0
  | .tombstoneForever => 1

end CyfsGateway.BnsTypes
