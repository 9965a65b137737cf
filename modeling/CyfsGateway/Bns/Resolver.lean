import CyfsGateway.Bns.Facets

/-!
# Read functions of the BNS contract

The views of `BnsResolverFacet.sol` over a storage and a block time.
-/

namespace CyfsGateway.BnsResolver

open Evm BnsTypes BnsValidation BnsStorage

variable (storage : Storage) (now : UInt64) (name docType : Bytes)

def queryNameState : Except Revert NameState := do
  let hash ← validateName name
  if (storage.names hash).status = .available then
    pure { name, status := .available }
  else materializeNameState storage now (storage.names hash)

def getAuthoritySet : Except Revert AuthoritySetState := do
  let hash ← validateName name
  let state := storage.authoritySets (lineageStateKey storage hash)
  pure (if state.name.length = 0 then { state with name } else state)

def getAuthorityKey (kid : Bytes32) : Except Revert AuthorityKey := do
  let hash ← validateName name
  pure (storage.authorityKeys (lineageStateKey storage hash) kid)

/-- The controller of a document: its own, or the effective owner of the name. -/
def effectiveController (owner : OwnerResolution) (document : DocumentState) :
    Principal :=
  if document.controller.kind = .unset then owner.effectiveOwner
  else document.controller

def resolveDocument : Except Revert ResolveResult := do
  let hash ← validateName name
  let docTypeHash ← validateDocType docType
  requireExistingName storage hash name
  let nameState ← materializeNameState storage now (storage.names hash)
  let owner ← BnsStorage.resolveOwner storage now hash
  let stateKey := lineageStateKey storage hash
  let version := storage.currentDocumentVersions stateKey docTypeHash
  if version = 0 then
    pure
      { nameState
        documentState := { name, docType, status := .missing }
        owner
        effectiveController := owner.effectiveOwner
        status := .missing
        aliasKind := .none
        aliasTargetDid := []
        proofRoot := storage.currentLogRoot }
  else
    let document := storage.documents hash docTypeHash version
    pure
      { nameState
        documentState := document
        owner
        effectiveController := effectiveController owner document
        status := effectiveDocumentStatus now nameState.status document.status document.expireAt
        aliasKind := (storage.aliases stateKey).kind
        aliasTargetDid := (storage.aliases stateKey).targetDid
        proofRoot := storage.currentLogRoot }

def getDocumentVersion (version : UInt64) : Except Revert DocumentState := do
  let hash ← validateName name
  let docTypeHash ← validateDocType docType
  let state := storage.documents hash docTypeHash version
  pure (if state.version = 0 then
      { state with name, docType, version, status := .missing }
    else state)

def getAlias : Except Revert AliasState := do
  let hash ← validateName name
  let state := storage.aliases (lineageStateKey storage hash)
  pure (if state.name.length = 0 then { state with name } else state)

def getPurchaseContext : Except Revert PurchaseContext := do
  let hash ← validateName name
  let docTypeHash ← validateDocType docType
  let version := storage.currentDocumentVersions (lineageStateKey storage hash) docTypeHash
  if version = 0 then .error (.documentNotFound name docType)
  else
    let document := storage.documents hash docTypeHash version
    pure
      { name
        docType
        documentVersion := document.version
        beneficiary := document.beneficiary
        paymentTarget := document.paymentTarget
        paymentPolicyHash := document.paymentPolicyHash
        splitPolicyHash := document.splitPolicyHash
        pricePolicyHash := document.pricePolicyHash
        rightsPolicyHash := document.rightsPolicyHash
        status := effectiveDocumentStatus now
          (effectiveNameStatus now (storage.names hash)) document.status document.expireAt
        proofRoot := storage.currentLogRoot }

end CyfsGateway.BnsResolver
