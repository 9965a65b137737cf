import CyfsGateway.Bns.Types

/-!
# Syntactic checks of the BNS contract

The pure validators of `BnsCore.sol`.  Each returns the digest or unit of the
source, or the custom error it reverts with.
-/

namespace CyfsGateway.BnsValidation

open Evm BnsTypes

def maxInlineDocument : Nat := 4 * 1024
def maxMutationBatchItems : Nat := 32
def maxMutationBatchInlineDocuments : Nat := 64 * 1024
def maxOwnerRefDepth : Nat := 8

def keyPurposeAuthentication : UInt32 := 1

def permissionPublishDocument : UInt32 := 1
def permissionRevokeDocument : UInt32 := 2
def permissionSetPayment : UInt32 := 4
def permissionSetAlias : UInt32 := 8
def permissionSetNamespace : UInt32 := 16

/-- `STORAGE_INLINE`: the text `inline` padded with zero bytes. -/
def storageInline : Bytes32 := ⟨text "inline" ++ List.replicate 26 0, by decide⟩

def invalidMutation (reason : String) : Revert := .invalidMutation (.keccak256 (text reason))

/-! ## Names, document types and DIDs -/

def dot : UInt8 := 46
def hyphen : UInt8 := 45
def underscore : UInt8 := 95

def isLowerOrDigit (char : UInt8) : Bool := (97 ≤ char && char ≤ 122) || (48 ≤ char && char ≤ 57)

/-- The loop of `_validateName`.  `previous` is the byte before the current
one, `labelLength` the number of bytes since `labelStart`, `dots` the dots
seen so far. -/
def validateNameLoop : (rest : Bytes) → (previous : UInt8) → (labelLength dots : Nat) → Bool
  | [], previous, labelLength, _ => !(labelLength == 0 || labelLength > 126 || previous == hyphen)
  | char :: rest, previous, labelLength, dots =>
    if char == dot then
      if labelLength == 0 || labelLength > 126 || previous == hyphen then false
      else if dots + 1 > 1 then false
      else validateNameLoop rest char 0 (dots + 1)
    else if labelLength == 0 && char == hyphen then false
    else if !(isLowerOrDigit char || char == hyphen) then false
    else validateNameLoop rest char (labelLength + 1) dots

def validName (name : Bytes) : Bool :=
  !(name.length == 0 || name.length > 253) && validateNameLoop name 0 0 0

def nameHash (name : Bytes) : Digest := .keccak256 name

def validateName (name : Bytes) : Except Revert Digest :=
  if validName name then .ok (nameHash name) else .error (.invalidName name)

def validDocType (docType : Bytes) : Bool :=
  !(docType.length == 0 || docType.length > 32) &&
    docType.all fun char => isLowerOrDigit char || char == hyphen || char == underscore

def validateDocType (docType : Bytes) : Except Revert Digest :=
  if validDocType docType then .ok (.keccak256 docType)
  else .error (.invalidDocType docType)

theorem validateName_ok_iff {name hash} :
    validateName name = .ok hash ↔ validName name = true ∧ hash = nameHash name := by
  by_cases hvalid : validName name = true <;> simp [validateName, hvalid, eq_comm]

/-- Two continuations of a name check agree when they agree on the name's hash. -/
theorem validateName_bind_congr {Value : Type} {name : Bytes}
    {left right : Digest → Except Revert Value}
    (hhash : left (nameHash name) = right (nameHash name)) :
    (validateName name >>= left) = (validateName name >>= right) := by
  rw [validateName]
  split
  · exact hhash
  · rfl

theorem validateDocType_bind_congr {Value : Type} {docType : Bytes}
    {left right : Digest → Except Revert Value}
    (hhash : validDocType docType = true → left (.keccak256 docType) = right (.keccak256 docType)) :
    (validateDocType docType >>= left) = (validateDocType docType >>= right) := by
  rw [validateDocType]
  split
  · rename_i hvalid
    exact hhash hvalid
  · rfl

theorem validateDocType_ok_iff {docType hash} :
    validateDocType docType = .ok hash ↔
      validDocType docType = true ∧ hash = .keccak256 docType := by
  by_cases hvalid : validDocType docType = true <;> simp [validateDocType, hvalid, eq_comm]

def validDid (did : Bytes) : Bool := did.length > 4 && did.take 4 == text "did:"

def validateDid (did : Bytes) : Except Revert Unit :=
  if validDid did then .ok () else .error (invalidMutation "INVALID_DID")

theorem validateDid_ok_iff : validateDid did = .ok result ↔ validDid did = true := by
  by_cases hvalid : validDid did = true <;> simp [validateDid, hvalid]

/-- `_parentName`: what follows the first dot, empty without one. -/
def parentName : Bytes → Bytes
  | [] => []
  | char :: rest => if char == dot then rest else parentName rest

theorem parentName_of_loop (hloop : validateNameLoop rest previous labelLength dots = true) :
    parentName (parentName rest) = [] ∧ (dots ≠ 0 → parentName rest = []) := by
  induction rest generalizing previous labelLength dots with
  | nil => exact ⟨rfl, fun _ => rfl⟩
  | cons char rest ih =>
    simp only [validateNameLoop] at hloop
    split at hloop
    · rename_i hdot
      rw [parentName, if_pos hdot]
      split at hloop
      · simp at hloop
      split at hloop
      · simp at hloop
      · exact ⟨(ih hloop).2 (Nat.succ_ne_zero _), by omega⟩
    · rename_i hdot
      rw [parentName, if_neg hdot]
      split at hloop
      · simp at hloop
      split at hloop
      · simp at hloop
      · exact ih hloop

theorem parentName_parentName (hvalid : validName name = true) :
    parentName (parentName name) = [] := by
  rw [validName, Bool.and_eq_true] at hvalid
  exact (parentName_of_loop hvalid.2).1

/-! ## Principals, document references and batches -/

def validateSemanticOwner (principal : Principal) : Except Revert Unit :=
  match principal.kind with
  | .unset => if principal.value.length ≠ 0 then .error .invalidPrincipal else .ok ()
  | .chainAccount => .error .invalidPrincipal
  | .bnsName => do
      let _ ← validateName principal.value
      pure ()

def validatePrincipal (principal : Principal) : Except Revert Unit :=
  match principal.kind with
  | .unset => if principal.value.length ≠ 0 then .error .invalidPrincipal else .ok ()
  | .chainAccount =>
    match tryAddressFromBytes principal.value with
    | some account => if account = .zero then .error .invalidPrincipal else .ok ()
    | none => .error .invalidPrincipal
  | .bnsName => do
      let _ ← validateName principal.value
      pure ()

def chainAccountPrincipal (account : Address) : Principal :=
  { kind := .chainAccount, value := account.val }

def validateControllerRule (rule : ControllerRule) : Except Revert Unit := do
  validatePrincipal rule.controller
  if rule.controller.kind = .unset then .error .invalidPrincipal
  else if rule.docType.length ≠ 0 then do
    let _ ← validateDocType rule.docType
    pure ()
  else pure ()

def validateDocumentRef (chain : Deployment) (documentRef : DocumentRef) : Except Revert Unit :=
  if documentRef.storageType = .zero then
    .error (invalidMutation "EMPTY_STORAGE_TYPE")
  else if documentRef.storageType = storageInline then
    if documentRef.uri.length ≠ 0 then
      .error (invalidMutation "INLINE_URI_NOT_EMPTY")
    else if documentRef.inlineDocument.length = 0 ∨
        documentRef.inlineDocument.length > maxInlineDocument then
      .error (.inlineDocumentTooLarge documentRef.inlineDocument.length maxInlineDocument)
    else if chain.sha256 documentRef.inlineDocument ≠ documentRef.contentHash then
      .error (invalidMutation "BAD_CONTENT_HASH")
    else .ok ()
  else if documentRef.inlineDocument.length ≠ 0 then
    .error (invalidMutation "NON_INLINE_HAS_BYTES")
  else .ok ()

def validateInlineBytes : (documents : List DocumentUpdate) → (inlineBytes : Nat) →
    Except Revert Unit
  | [], _ => .ok ()
  | update :: rest, inlineBytes =>
    let total := inlineBytes + update.document.inlineDocument.length
    if total > maxMutationBatchInlineDocuments then
      .error (invalidMutation "BATCH_INLINE_TOO_LARGE")
    else validateInlineBytes rest total

def validateBatchBounds (authorityUpdateCount : Nat)
    (documents : List DocumentUpdate) : Except Revert Unit :=
  if authorityUpdateCount + documents.length > maxMutationBatchItems then
    .error (invalidMutation "MUTATION_BATCH_TOO_LARGE")
  else validateInlineBytes documents 0

def validateUniqueDocumentTypesFrom : (documents : List DocumentUpdate) →
    (seen : List Digest) → Except Revert Unit
  | [], _ => .ok ()
  | update :: rest, seen => do
      let docTypeHash ← validateDocType update.docType
      if docTypeHash ∈ seen then .error (invalidMutation "DUPLICATE_DOC_TYPE")
      else validateUniqueDocumentTypesFrom rest (seen ++ [docTypeHash])

def validateUniqueDocumentTypes (documents : List DocumentUpdate) : Except Revert Unit :=
  validateUniqueDocumentTypesFrom documents []

def ownerDocType : Bytes := text "owner"

def containsOwnerDocument (documents : List DocumentUpdate) : Bool :=
  documents.any fun update => update.docType == ownerDocType

end CyfsGateway.BnsValidation
