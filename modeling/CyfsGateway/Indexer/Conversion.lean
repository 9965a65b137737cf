import CyfsGateway.Core.Reverting
import CyfsGateway.Indexer.Model

/-!
# Conversion of contract values

The ABI decoder turns the `string` fields of a contract value into Rust
strings, replacing what is not UTF-8; the `*_from_evm` functions of
`bns-indexer/src/sync.rs` then build the registry value.
-/

namespace CyfsGateway.BnsConversion

open Evm Texts BnsModel

/-- The ABI library, by what it makes of the bytes of a `string`.  It keeps ASCII as it
is, and what it makes of other bytes begins outside ASCII; the results ask no more of it. -/
class AbiDecoder where
  decodeString : Bytes → Bytes
  lossy : LossyUtf8 decodeString

/-- `String::from_utf8_lossy`, which the library in use calls. -/
instance : AbiDecoder := ⟨fromUtf8Lossy, lossyUtf8_fromUtf8Lossy⟩

open AbiDecoder (decodeString)

section Decoding

variable [AbiDecoder]

def decodeNameState (state : BnsTypes.NameState) : BnsTypes.NameState :=
  { state with name := decodeString state.name }

def decodeDocumentState (state : BnsTypes.DocumentState) : BnsTypes.DocumentState :=
  { state with
    name := decodeString state.name
    docType := decodeString state.docType
    document := { state.document with uri := decodeString state.document.uri } }

def decodeAuthoritySet (state : BnsTypes.AuthoritySetState) : BnsTypes.AuthoritySetState :=
  { state with name := decodeString state.name }

def decodeControllerRule (rule : BnsTypes.ControllerRule) : BnsTypes.ControllerRule :=
  { rule with docType := decodeString rule.docType }

def decodeAlias (state : BnsTypes.AliasState) : BnsTypes.AliasState :=
  { state with
    name := decodeString state.name
    targetDid := decodeString state.targetDid }

end Decoding

def addressOrEmpty (address : Address) : Bytes :=
  if address = .zero then [] else hexMarker ++ hexEncode address.val

def hashString (hash : Bytes32) : Bytes := hexMarker ++ hexEncode hash.val

def isLabelChar (byte : UInt8) : Bool := 32 ≤ byte && byte ≤ 126

/-- A word that holds a text padded with zeros reads as that text. -/
def bytes32LabelOrHash (value : Bytes32) : Bytes :=
  if value = .zero then zeroHash
  else
    let label := value.val.takeWhile (· != 0)
    let padding := value.val.dropWhile (· != 0)
    if label.length > 0 ∧ padding.all (· == 0) ∧ label.all isLabelChar then label
    else hashString value

/-! ## Conversions -/

def canonicalBnsNameOrEmpty (name : Bytes) : BnsRegistryResult Bytes :=
  if name.isEmpty then .ok [] else canonicalBnsName name

def canonicalDocTypeOrEmpty (docType : Bytes) : BnsRegistryResult Bytes :=
  if docType.isEmpty then .ok [] else canonicalDocType docType

/-- The address of a chain account in its 20-byte or 32-byte form. -/
def accountBytes (value : Bytes) : Bytes :=
  if value.length = 20 then value else value.drop 12

def principalFromEvm (principal : BnsTypes.Principal) : BnsRegistryResult Principal :=
  match principal.kind with
  | .unset => .ok {}
  | .chainAccount =>
    if principal.value.length ≠ 20 ∧ principal.value.length ≠ 32 then
      .error (.invalidMutation s!"chain account principal has {principal.value.length} bytes")
    else .ok
      { kind := .chainAccount
        value := hexMarker ++ hexEncode (accountBytes principal.value) }
  | .bnsName =>
    -- `String::from_utf8` accepts exactly the texts lossy decoding leaves alone
    if fromUtf8Lossy principal.value ≠ principal.value then
      .error (.invalidMutation "BnsName principal is not valid UTF-8")
    else Principal.bnsName principal.value

def nameStateFromEvm (state : BnsTypes.NameState) : BnsRegistryResult NameState := do
  let name ← canonicalBnsNameOrEmpty state.name
  let semanticOwner ← principalFromEvm state.semanticOwner
  let effectiveOwner ← principalFromEvm state.effectiveOwner
  pure
    { name
      assetOwner := addressOrEmpty state.assetOwner
      semanticOwner
      effectiveOwner
      ownerSource := state.ownerSource
      standardTransferEnabled := state.standardTransferEnabled
      status := state.status
      registeredAt := state.registeredAt
      expireAt := state.expireAt
      graceUntil := state.graceUntil
      updatedAt := state.updatedAt
      nameSeq := state.nameSeq
      ownerDocumentVersion := state.ownerDocumentVersion
      minDocumentIat := state.minDocumentIat
      ownerPolicySeq := state.ownerPolicySeq
      lineageEpoch := state.lineageEpoch
      renewable := state.renewable
      transferable := state.transferable
      allowDelegatedSubnames := state.allowDelegatedSubnames
      namespacePolicyHash := hashString state.namespacePolicyHash
      paymentPolicyHash := hashString state.paymentPolicyHash
      aliasStateHash := hashString state.aliasStateHash }

def documentRefFromEvm (document : BnsTypes.DocumentRef) : DocumentRef where
  storageType := bytes32LabelOrHash document.storageType
  uri := document.uri
  inlineDocument := document.inlineDocument
  contentHash := hashString document.contentHash
  schema := hashString document.schema
  codec := hashString document.codec
  extraHash := hashString document.extraHash

def documentStateFromEvm (state : BnsTypes.DocumentState) : BnsRegistryResult DocumentState := do
  let name ← canonicalBnsNameOrEmpty state.name
  let docType ← canonicalDocTypeOrEmpty state.docType
  let controller ← principalFromEvm state.controller
  let beneficiary ← principalFromEvm state.beneficiary
  pure
    { name
      docType
      version := state.version
      previousVersion := state.previousVersion
      status := state.status
      document := documentRefFromEvm state.document
      controller
      beneficiary
      paymentTarget := addressOrEmpty state.paymentTarget
      validFrom := state.validFrom
      expireAt := state.expireAt
      revokedAt := state.revokedAt
      controllerPolicyHash := hashString state.controllerPolicyHash
      paymentPolicyHash := hashString state.paymentPolicyHash
      splitPolicyHash := hashString state.splitPolicyHash
      pricePolicyHash := hashString state.pricePolicyHash
      rightsPolicyHash := hashString state.rightsPolicyHash
      documentStateHash := hashString state.documentStateHash }

def authoritySetFromEvm (state : BnsTypes.AuthoritySetState) :
    BnsRegistryResult AuthoritySetState := do
  let name ← canonicalBnsNameOrEmpty state.name
  pure
    { name
      authoritySeq := state.authoritySeq
      authorityRoot := hashString state.authorityRoot
      activeKeyCount := state.activeKeyCount }

def authorityKeyFromEvm (key : BnsTypes.AuthorityKey) : AuthorityKey where
  kid := hashString key.kid
  verificationMethod := bytes32LabelOrHash key.verificationMethod
  keyData := key.keyData
  purposes := key.purposes
  validFrom := key.validFrom
  validUntil := key.validUntil
  status := key.status
  metadataHash := hashString key.metadataHash

def authorityKeyUpdateFromEvm (update : BnsTypes.AuthorityKeyUpdate) : AuthorityKey :=
  let key := authorityKeyFromEvm update.key
  if update.active then
    if key.status = .missing then { key with status := .active } else key
  else { key with status := .revoked }

def controllerRuleFromEvm (rule : BnsTypes.ControllerRule) : BnsRegistryResult ControllerRule := do
  let controller ← principalFromEvm rule.controller
  let docType ← canonicalDocTypeOrEmpty rule.docType
  pure
    { controller
      docType
      permissions := rule.permissions
      namespaceScopeHash := hashString rule.namespaceScopeHash
      validFrom := rule.validFrom
      validUntil := rule.validUntil
      constraintHash := hashString rule.constraintHash }

def aliasStateFromEvm (state : BnsTypes.AliasState) : BnsRegistryResult AliasState := do
  let name ← canonicalBnsNameOrEmpty state.name
  pure
    { name
      kind := state.kind
      targetDid := state.targetDid
      proofHash := hashString state.proofHash
      setAt := state.setAt
      nameSeq := state.nameSeq }

def checkpointFromEvm (checkpoint : BnsTypes.LogCheckpoint) : BnsRegistryResult LogCheckpoint := do
  let issuer ← principalFromEvm checkpoint.issuer
  pure
    { logRoot := hashString checkpoint.logRoot
      lastSeq := checkpoint.lastSeq
      issuedAt := checkpoint.issuedAt
      issuer
      externalAnchor := hashString checkpoint.externalAnchor }

end CyfsGateway.BnsConversion
