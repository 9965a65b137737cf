import CyfsGateway.Bns.Types
import CyfsGateway.Core.Texts

/-!
# Registry values of the indexer

The types of `bns-client/src/model.rs` and their validators.  A Rust `String`
is its UTF-8 bytes.  The enumerations are those of the contract, which the
bindings reproduce variant by variant.
-/

namespace CyfsGateway.BnsModel

open Evm Texts BnsTypes

/-- The errors of `bns-client/src/error.rs` that the projection raises. -/
inductive BnsRegistryError
  | invalidName (name : Bytes) (reason : String)
  | invalidDocType (docType : Bytes) (reason : String)
  | invalidHash (value : Bytes) (reason : String)
  | invalidPrincipal (value : Bytes) (reason : String)
  | invalidKid (kid : Bytes) (reason : String)
  | nameNotFound (name : Bytes)
  | noConcreteSigner
  | ownerGraphTooDeep (maxDepth : Nat)
  | inlineDocumentTooLarge (len max : Nat)
  | invalidMutation (reason : String)
  | invalidConfig (reason : String)
  | integerOutOfRange (field : String) (value : UInt64)
  /-- A failed request to the node, or an answer that cannot be decoded. -/
  | evm (reason : String)
  /-- A failed statement of the database. -/
  | sqlite
  deriving DecidableEq

abbrev BnsRegistryResult (Value : Type) := Except BnsRegistryError Value

def maxBnsNameLen : Nat := 253
def maxBnsLabelLen : Nat := 126
def maxInlineDocument : Nat := 4 * 1024
def didBns : Bytes := text "did:bns:"

def storageTypeInline : Bytes := text "inline"

def hexMarker : Bytes := text "0x"

def zeroHash : Bytes := hexMarker ++ hexEncode (List.replicate 32 0)

/-- The encodings of the characters `str::trim` removes. -/
def whitespace : List Bytes :=
  [[9], [10], [11], [12], [13], [32], [0xC2, 0x85], [0xC2, 0xA0], [0xE1, 0x9A, 0x80],
    [0xE2, 0x80, 0x80], [0xE2, 0x80, 0x81], [0xE2, 0x80, 0x82], [0xE2, 0x80, 0x83],
    [0xE2, 0x80, 0x84], [0xE2, 0x80, 0x85], [0xE2, 0x80, 0x86], [0xE2, 0x80, 0x87],
    [0xE2, 0x80, 0x88], [0xE2, 0x80, 0x89], [0xE2, 0x80, 0x8A], [0xE2, 0x80, 0xA8],
    [0xE2, 0x80, 0xA9], [0xE2, 0x80, 0xAF], [0xE2, 0x81, 0x9F], [0xE3, 0x80, 0x80]]

variable (name : Bytes)

/-- `name.trim() != name`. -/
def hasOuterWhitespace : Bool :=
  whitespace.any fun space => space.isPrefixOf name || space.isSuffixOf name

def isLowerOrDigit (byte : UInt8) : Bool := (97 ≤ byte && byte ≤ 122) || (48 ≤ byte && byte ≤ 57)

def isLabelByte (byte : UInt8) : Bool := isLowerOrDigit byte || byte == 45

/-- The body of the label loop of `canonical_bns_name`. -/
def validateLabel (label : Bytes) : BnsRegistryResult Unit :=
  if label.isEmpty then .error (.invalidName name "empty label")
  else if label.length > maxBnsLabelLen then
    .error (.invalidName name "label must be at most 126 bytes")
  else if label.head? = some 45 ∨ label.getLast? = some 45 then
    .error (.invalidName name "label must not start or end with '-'")
  else if !label.all isLabelByte then
    .error (.invalidName name "only lower-case ASCII letters, digits, '-' and '.' are supported")
  else .ok ()

def canonicalBnsName : BnsRegistryResult Bytes :=
  if name.isEmpty then .error (.invalidName name "name is empty")
  else if hasOuterWhitespace name then
    .error (.invalidName name "name must not contain leading or trailing whitespace")
  else if didBns.isPrefixOf name then
    .error (.invalidName name "contract names must not include did:bns: prefix")
  else if name.length > maxBnsNameLen then
    .error (.invalidName name "name must be at most 253 bytes")
  else do
    (name.splitOn 46).forM (validateLabel name)
    pure name

def parentName : Option Bytes :=
  match name.dropWhile (· != 46) with
  | [] => none
  | _ :: parent => some parent

def ensureRegisterableDepth : BnsRegistryResult Unit :=
  if (name.splitOn 46).length > 2 then
    .error (.invalidName name "registry only supports first-level and second-level exact names")
  else .ok ()

def canonicalDocType (docType : Bytes) : BnsRegistryResult Bytes :=
  if docType.isEmpty then .error (.invalidDocType docType "doc_type is empty")
  else if docType.length > 32 then
    .error (.invalidDocType docType "doc_type must be at most 32 bytes")
  else if !docType.all fun byte => isLabelByte byte || byte == 95 then
    .error (.invalidDocType docType
      "only lower-case ASCII letters, digits, '-' and '_' are supported")
  else .ok docType

/-- A text that already starts with `did:bns:` goes through `name_from_did_bns`. -/
def validateDid (did : Bytes) : BnsRegistryResult Unit :=
  if didBns.isPrefixOf did then do
    let _ ← canonicalBnsName (did.drop didBns.length)
    pure ()
  else if (text "did:").isPrefixOf did ∧ did.length > 4 then .ok ()
  else .error (.invalidName did "invalid DID")

/-- `value.strip_prefix("0x").unwrap_or(value)`. -/
def stripHexMarker (value : Bytes) : Bytes :=
  if hexMarker.isPrefixOf value then value.drop 2 else value

def validateHash (value : Bytes) : BnsRegistryResult Unit :=
  let hex := stripHexMarker value
  if hex.length ≠ 64 then
    .error (.invalidHash value "bytes32 hash must contain 64 hex chars")
  else if !hex.all isHexDigit then
    .error (.invalidHash value "bytes32 hash must be hex encoded")
  else .ok ()

def validateKid (kid : Bytes) : BnsRegistryResult Unit :=
  if kid.isEmpty then .error (.invalidKid kid "kid must not be empty")
  else validateHash kid

def sha256Hex (chain : Deployment) (bytes : Bytes) : Bytes :=
  hexMarker ++ hexEncode (chain.sha256 bytes).val

/-! ## Registry values -/

structure Principal where
  kind : PrincipalKind := .unset
  value : Bytes := []
  deriving DecidableEq

def Principal.bnsName (value : Bytes) : BnsRegistryResult Principal := do
  let name ← canonicalBnsName value
  pure { kind := .bnsName, value := name }

def Principal.validate (principal : Principal) : BnsRegistryResult Unit :=
  match principal.kind with
  | .unset =>
    if !principal.value.isEmpty then
      .error (.invalidPrincipal principal.value "unset principal must have empty value")
    else .ok ()
  | .chainAccount =>
    if principal.value.isEmpty then
      .error (.invalidPrincipal principal.value "chain account principal must not be empty")
    else .ok ()
  | .bnsName => do
      let _ ← canonicalBnsName principal.value
      pure ()

def validateSemanticOwner (owner : Principal) : BnsRegistryResult Unit :=
  match owner.kind with
  | .unset | .bnsName => owner.validate
  | .chainAccount =>
    .error (.invalidPrincipal owner.value "semantic owner only supports unset or BnsName")

structure AuthorityKey where
  kid : Bytes
  verificationMethod : Bytes
  keyData : Bytes
  purposes : UInt32
  validFrom : UInt64
  validUntil : UInt64
  status : AuthorityKeyStatus
  metadataHash : Bytes
  deriving DecidableEq

def AuthorityKey.validate (key : AuthorityKey) : BnsRegistryResult Unit := do
  validateKid key.kid
  if key.verificationMethod.isEmpty then
    .error (.invalidKid key.kid "verification method must not be empty")
  else validateHash key.metadataHash

structure AuthoritySetState where
  name : Bytes
  authoritySeq : UInt64
  authorityRoot : Bytes
  activeKeyCount : UInt32
  deriving DecidableEq

structure DocumentRef where
  storageType : Bytes
  uri : Bytes
  inlineDocument : Bytes
  contentHash : Bytes
  schema : Bytes
  codec : Bytes
  extraHash : Bytes
  deriving DecidableEq

def DocumentRef.validateShape (chain : Deployment) (document : DocumentRef) :
    BnsRegistryResult Unit := do
  if document.storageType.isEmpty then
    .error (.invalidMutation "document storage_type must not be empty")
  else do
    validateHash document.contentHash
    validateHash document.schema
    validateHash document.codec
    validateHash document.extraHash
    if document.storageType = storageTypeInline then
      if !document.uri.isEmpty then
        .error (.invalidMutation "inline document uri must be empty")
      else if document.inlineDocument.isEmpty then
        .error (.invalidMutation "inline document must not be empty")
      else if document.inlineDocument.length > maxInlineDocument then
        .error (.inlineDocumentTooLarge document.inlineDocument.length maxInlineDocument)
      else if sha256Hex chain document.inlineDocument ≠ document.contentHash then
        .error (.invalidHash document.contentHash
          "inline document content_hash must be sha256(inline_document)")
      else .ok ()
    else if !document.inlineDocument.isEmpty then
      .error (.invalidMutation "inline_document must be empty for non-inline storage")
    else .ok ()

structure NameState where
  name : Bytes
  assetOwner : Bytes
  semanticOwner : Principal
  effectiveOwner : Principal
  ownerSource : OwnerSource
  standardTransferEnabled : Bool
  status : NameStatus
  registeredAt : UInt64
  expireAt : UInt64
  graceUntil : UInt64
  updatedAt : UInt64
  nameSeq : UInt64
  ownerDocumentVersion : UInt64
  minDocumentIat : UInt64
  ownerPolicySeq : UInt64
  lineageEpoch : UInt64
  renewable : Bool
  transferable : Bool
  allowDelegatedSubnames : Bool
  namespacePolicyHash : Bytes
  paymentPolicyHash : Bytes
  aliasStateHash : Bytes
  deriving DecidableEq

def NameState.validate (state : NameState) : BnsRegistryResult Unit := do
  let _ ← canonicalBnsName state.name
  if state.assetOwner.isEmpty then
    .error (.invalidMutation "asset owner must not be empty")
  else do
    validateSemanticOwner state.semanticOwner
    state.effectiveOwner.validate
    validateHash state.namespacePolicyHash
    validateHash state.paymentPolicyHash
    validateHash state.aliasStateHash

structure DocumentState where
  name : Bytes
  docType : Bytes
  version : UInt64
  previousVersion : UInt64
  status : DocumentStatus
  document : DocumentRef
  controller : Principal
  beneficiary : Principal
  paymentTarget : Bytes
  validFrom : UInt64
  expireAt : UInt64
  revokedAt : UInt64
  controllerPolicyHash : Bytes
  paymentPolicyHash : Bytes
  splitPolicyHash : Bytes
  pricePolicyHash : Bytes
  rightsPolicyHash : Bytes
  documentStateHash : Bytes
  deriving DecidableEq

def DocumentState.validate (chain : Deployment) (state : DocumentState) :
    BnsRegistryResult Unit := do
  let _ ← canonicalBnsName state.name
  let _ ← canonicalDocType state.docType
  state.document.validateShape chain
  state.controller.validate
  state.beneficiary.validate
  validateHash state.controllerPolicyHash
  validateHash state.paymentPolicyHash
  validateHash state.splitPolicyHash
  validateHash state.pricePolicyHash
  validateHash state.rightsPolicyHash
  validateHash state.documentStateHash

structure ControllerRule where
  controller : Principal
  docType : Bytes
  permissions : UInt32
  namespaceScopeHash : Bytes
  validFrom : UInt64
  validUntil : UInt64
  constraintHash : Bytes
  deriving DecidableEq

def ControllerRule.validate (rule : ControllerRule) : BnsRegistryResult Unit := do
  rule.controller.validate
  if rule.controller.kind = .unset then
    .error (.invalidPrincipal [] "controller rule cannot use unset principal")
  else do
    if !rule.docType.isEmpty then do
      let _ ← canonicalDocType rule.docType
    validateHash rule.namespaceScopeHash
    validateHash rule.constraintHash

structure AliasState where
  name : Bytes
  kind : AliasKind
  targetDid : Bytes
  proofHash : Bytes
  setAt : UInt64
  nameSeq : UInt64
  deriving DecidableEq

def AliasState.validate (state : AliasState) : BnsRegistryResult Unit := do
  let _ ← canonicalBnsName state.name
  if state.kind ≠ .none then
    validateDid state.targetDid
  validateHash state.proofHash

structure LogCheckpoint where
  logRoot : Bytes
  lastSeq : UInt64
  issuedAt : UInt64
  issuer : Principal
  externalAnchor : Bytes
  deriving DecidableEq

def LogCheckpoint.validate (checkpoint : LogCheckpoint) : BnsRegistryResult Unit := do
  validateHash checkpoint.logRoot
  checkpoint.issuer.validate
  validateHash checkpoint.externalAnchor

/-! ## Event log -/

inductive RegistryEvent
  | nameRegistered (name assetOwner : Bytes) (expireAt lineageEpoch nameSeq : UInt64)
  | nameRenewed (name : Bytes) (expireAt nameSeq : UInt64)
  | nameAssetTransferred (name oldAssetOwner newAssetOwner : Bytes)
      (standardTransfer : Bool) (nameSeq : UInt64)
  | nameOwnerUpdated (name : Bytes) (owner : Principal) (ownerSource : OwnerSource)
      (standardTransferEnabled : Bool) (nameSeq : UInt64)
  | authorityKeysUpdated (name : Bytes) (authoritySeq : UInt64) (authorityRoot : Bytes)
  | nameReleased (name : Bytes) (mode : ReleaseMode) (reasonHash : Bytes) (nameSeq : UInt64)
  | documentPublished (name docType : Bytes) (version : UInt64)
      (contentHash documentStateHash : Bytes)
  | documentRevoked (name docType : Bytes) (previousVersion newVersion : UInt64)
      (reasonHash : Bytes)
  | ownerDocumentIatFloorUpdated (name : Bytes)
      (previousMinDocumentIat newMinDocumentIat ownerPolicySeq nameSeq : UInt64)
      (reasonHash : Bytes)
  | controllerPolicyUpdated (name policyHash : Bytes) (nameSeq : UInt64)
  | namespacePolicyUpdated (name : Bytes) (allowDelegatedSubnames : Bool)
      (namespacePolicyHash : Bytes) (nameSeq : UInt64)
  | didAliasSet (name targetDid : Bytes) (kind : AliasKind) (proofHash : Bytes) (nameSeq : UInt64)
  | paymentTargetUpdated (name docType paymentTarget paymentPolicyHash : Bytes) (version : UInt64)
  | logCheckpointPublished (logRoot : Bytes) (lastSeq issuedAt : UInt64) (externalAnchor : Bytes)
  deriving DecidableEq

def RegistryEvent.eventType : RegistryEvent → String
  | .nameRegistered .. => "name_registered"
  | .nameRenewed .. => "name_renewed"
  | .nameAssetTransferred .. => "name_asset_transferred"
  | .nameOwnerUpdated .. => "name_owner_updated"
  | .authorityKeysUpdated .. => "authority_keys_updated"
  | .nameReleased .. => "name_released"
  | .documentPublished .. => "document_published"
  | .documentRevoked .. => "document_revoked"
  | .ownerDocumentIatFloorUpdated .. => "owner_iat_floor_updated"
  | .controllerPolicyUpdated .. => "controller_policy_updated"
  | .namespacePolicyUpdated .. => "namespace_policy_updated"
  | .didAliasSet .. => "did_alias_set"
  | .paymentTargetUpdated .. => "payment_target_updated"
  | .logCheckpointPublished .. => "log_checkpoint_published"

structure EventLogRecord where
  seq : UInt64
  eventType : String
  observedAt : UInt64
  eventHash : Bytes
  previousLogRoot : Bytes
  logRoot : Bytes
  event : RegistryEvent
  deriving DecidableEq

end CyfsGateway.BnsModel
