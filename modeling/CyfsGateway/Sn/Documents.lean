import CyfsGateway.Core.Checks
import CyfsGateway.Core.Json
import CyfsGateway.Sn.Actions

/-!
# Documents the SN controller publishes

The parameters of the controller's operations and the pure functions of
`sn_bns_controller.rs` and `dns_document.rs` that read and build documents.  The
encoders and decoders of `serde_json` and `serde_jcs` are parameters.
-/

namespace CyfsGateway.SnDocuments

open Evm Texts Checks JsonValues
open BnsTypes (AuthorityRole MutationGuard)
open BnsModel SnRequests SnActions

/-- `serde_json::Number`; the sign of a floating zero is left out. -/
inductive Number
  | posInt (value : UInt64)
  | negInt (value : Int)
  | float (value : Rat)
  deriving DecidableEq

abbrev Value := Json Bytes Number

def asU64 : Value → Option UInt64
  | .number (.posInt value) => some value
  | _ => none

def isObject (value : Value) : Bool := value.fields?.isSome

/-- Texts that `trim` leaves empty, within a number of characters. -/
def blankWithin : Nat → Bytes → Bool
  | _, [] => true
  | 0, _ :: _ => false
  | characters + 1, bytes =>
    match whitespace.find? fun space => space.isPrefixOf bytes with
    | some space => blankWithin characters (bytes.drop space.length)
    | none => false

def isBlank (value : Bytes) : Bool := blankWithin value.length value

structure RegisterNameParams where
  requestId : Bytes
  name : Bytes
  assetOwner : Bytes
  registerOptions : RegisterOptions
  ownerConfig : Value
  ownerAuthorityKeys : List (AuthorityKey × Bool)
  semanticOwnerAfterAuthority : Option Principal
  initialDocuments : List DocumentUpdate
  authority : CallAuthority
  guard : MutationGuard

structure PublishOwnerDocumentParams where
  requestId : Bytes
  name : Bytes
  ownerConfig : Value
  authority : CallAuthority
  deriving DecidableEq

structure PublishDocumentParams where
  requestId : Bytes
  name : Bytes
  docType : Bytes
  document : Value
  authority : CallAuthority
  deriving DecidableEq

structure RemoveBoundZoneParams where
  requestId : Bytes
  name : Bytes
  zoneDid : Bytes
  expectedOwnerHash : Bytes
  authority : CallAuthority
  deriving DecidableEq

structure BindZoneDocumentsParams where
  requestId : Bytes
  name : Bytes
  zoneConfig : Value
  bootConfig : Value
  authority : CallAuthority
  deriving DecidableEq

structure PublishDeviceMiniDocParams where
  requestId : Bytes
  name : Bytes
  deviceName : Bytes
  did : Bytes
  deviceMiniDoc : Value
  authority : CallAuthority
  deriving DecidableEq

structure DnsTxtRecord where
  ttl : UInt32
  value : Bytes
  deriving DecidableEq

inductive DnsTxtUpdate
  | add (ttl : UInt32) (value : Bytes)
  | remove (value : Bytes)
  | replace (records : List DnsTxtRecord)
  deriving DecidableEq

structure UpsertDnsTxtParams where
  requestId : Bytes
  name : Bytes
  update : DnsTxtUpdate
  authority : CallAuthority
  deriving DecidableEq

structure PublishRelayAssignmentParams where
  requestId : Bytes
  name : Bytes
  relayAssignment : Value
  authority : CallAuthority
  deriving DecidableEq

/-- What `hash_json` is applied to.  The fields of the types differ, so their JSON
texts do. -/
inductive Payload
  | register (req : BnsRegisterNameReq)
  | publishOwner (params : PublishOwnerDocumentParams)
  | publish (params : PublishDocumentParams)
  | removeBoundZone (params : RemoveBoundZoneParams)
  | bindZone (params : BindZoneDocumentsParams)
  | deviceMiniDoc (params : PublishDeviceMiniDocParams)
  | dnsTxt (params : UpsertDnsTxtParams)
  | relayAssignment (params : PublishRelayAssignmentParams)
  deriving DecidableEq

structure DeviceMiniDocCollection where
  version : UInt32 := 1
  devices : List (Bytes × Value) := []
  deriving DecidableEq

/-- Encodings of other libraries, and what they read from the machine. -/
structure Formats where
  /-- The hash functions. -/
  chain : Deployment
  toVec : Value → Bytes
  fromSlice : Bytes → Except Bytes Value
  /-- `serde_jcs::to_vec`. -/
  jcs : Value → Bytes
  txtToVec : List DnsTxtRecord → Bytes
  txtFromSlice : Bytes → Except Bytes (List DnsTxtRecord)
  devicesFromSlice : Bytes → Except Bytes DeviceMiniDocCollection
  payloadToVec : Payload → Bytes
  rulesToVec : List ControllerRule → Bytes
  /-- The bridges of `BuckyOSMachineConfig`, trimmed and not empty. -/
  web3Bridge : Bytes → Option Bytes

/-! ## Errors and hashes -/

def registryErrorCode : BnsRegistryError → Bytes
  | .invalidName .. => text "INVALID_NAME"
  | .invalidDocType .. => text "INVALID_DOC_TYPE"
  | .invalidHash .. => text "INVALID_HASH"
  | .invalidPrincipal .. => text "INVALID_PRINCIPAL"
  | .invalidKid .. => text "INVALID_KID"
  | .nameNotFound _ => text "NAME_NOT_FOUND"
  | .noConcreteSigner => text "NO_CONCRETE_SIGNER"
  | .ownerGraphTooDeep _ => text "OWNER_GRAPH_TOO_DEEP"
  | .inlineDocumentTooLarge .. => text "INLINE_DOCUMENT_TOO_LARGE"
  | .invalidMutation _ => text "INVALID_MUTATION"
  | .invalidConfig _ => text "INVALID_CONFIG"
  | .integerOutOfRange .. => text "INTEGER_OUT_OF_RANGE"
  | .evm _ => text "EVM_ERROR"
  | .sqlite => text "SQLITE_ERROR"

/-- The message of `Display`; the numbers in it are left out. -/
def registryErrorMessage : BnsRegistryError → Bytes
  | .invalidName name reason => text "invalid BNS name `" ++ name ++ text "`: " ++ text reason
  | .invalidDocType docType reason =>
    text "invalid BNS document type `" ++ docType ++ text "`: " ++ text reason
  | .invalidHash value reason => text "invalid BNS hash `" ++ value ++ text "`: " ++ text reason
  | .invalidPrincipal value reason =>
    text "invalid BNS principal `" ++ value ++ text "`: " ++ text reason
  | .invalidKid kid reason => text "invalid authority key `" ++ kid ++ text "`: " ++ text reason
  | .nameNotFound name => text "name `" ++ name ++ text "` was not found"
  | .noConcreteSigner => text "semantic owner graph has no reachable concrete signer"
  | .ownerGraphTooDeep _ => text "semantic owner graph exceeds max depth"
  | .inlineDocumentTooLarge .. => text "inline document exceeds max bytes"
  | .invalidMutation reason => text "invalid mutation: " ++ text reason
  | .invalidConfig reason => text "invalid BNS indexer config: " ++ text reason
  | .integerOutOfRange field _ =>
    text "integer value for `" ++ text field ++ text "` is outside sqlite INTEGER range"
  | .evm reason => text "EVM RPC/ABI error: " ++ text reason
  | .sqlite => text "sqlite error"

def fromRegistry (error : BnsRegistryError) : SnBnsControllerError :=
  .bns (.registry (registryErrorCode error) (registryErrorMessage error))

def jsonError (message : Bytes) : SnBnsControllerError :=
  .bns (.registry (text "JSON_ERROR") (text "json error: " ++ message))

abbrev SnBnsControllerResult (Value : Type) := Except SnBnsControllerError Value

def fromRegistryResult {Value : Type} (result : BnsRegistryResult Value) :
    SnBnsControllerResult Value := result.mapError fromRegistry

/-- A natural number a double holds exactly. -/
def exactlyRepresentable (value : Nat) : Bool := value % 2 ^ (Nat.log2 value - 52) = 0

mutual

def validNumbers : Value → Bool
  | .number (.posInt value) => exactlyRepresentable value.toNat
  | .number (.negInt value) => exactlyRepresentable value.natAbs
  | .array items => validItems items
  | .object fields => validFields fields
  | .null | .bool _ | .number (.float _) | .string _ => true

def validItems : List Value → Bool
  | [] => true
  | item :: items => validNumbers item && validItems items

def validFields : List (Bytes × Value) → Bool
  | [] => true
  | (_, value) :: fields => validNumbers value && validFields fields

end

section Formats

variable (formats : Formats)

def hashJson (payload : Payload) : Bytes := sha256Hex formats.chain (formats.payloadToVec payload)

def policyHashFromRules (rules : List ControllerRule) : Bytes :=
  sha256Hex formats.chain (formats.rulesToVec rules)

def canonicalJsonSha256 (value : Value) : BnsRegistryResult Bytes :=
  if validNumbers value then
    .ok (text "sha256:" ++ hexEncode (formats.chain.sha256 (formats.jcs value)).val)
  else .error (.invalidMutation "JSON number is not an exact IEEE-754 value")

def ownerDocType : Bytes := text "owner"
def zoneDocType : Bytes := text "zone"
def bootDocType : Bytes := text "boot"
def deviceMiniDocType : Bytes := text "device_mini_doc"
def relayAssignmentDocType : Bytes := text "relay_assignment"
def dnsTxtDocType : Bytes := text "dns_txt"

def inlineRef (bytes : Bytes) : DocumentRef where
  storageType := storageTypeInline
  uri := []
  inlineDocument := bytes
  contentHash := sha256Hex formats.chain bytes
  schema := zeroHash
  codec := zeroHash
  extraHash := zeroHash

def defaultDocumentUpdate (docType : Bytes) (expectedVersion : UInt64)
    (document : DocumentRef) : BnsRegistryResult DocumentUpdate := do
  let docType ← canonicalDocType docType
  pure
    { docType, expectedVersion, document
      controller := {}
      beneficiary := {}
      paymentTarget := []
      expireAt := 0
      controllerPolicyHash := zeroHash
      paymentPolicyHash := zeroHash
      splitPolicyHash := zeroHash
      pricePolicyHash := zeroHash
      rightsPolicyHash := zeroHash }

/-- The numbers of the message are left out. -/
def inlineTooLarge (docType : Bytes) : SnBnsControllerError :=
  .invalidInput (text "inline document `" ++ docType ++ text "` is too large")

def inlineJsonUpdate (maxSize : Nat) (docType : Bytes) (expectedVersion : UInt64)
    (document : Value) : SnBnsControllerResult DocumentUpdate := do
  let _ ← fromRegistryResult (canonicalDocType docType)
  let bytes := formats.toVec document
  reject (bytes.isEmpty ∨ bytes.length > maxSize) (inlineTooLarge docType)
  fromRegistryResult (defaultDocumentUpdate docType expectedVersion (inlineRef formats bytes))

def contentBytes (document : Value) : SnBnsControllerResult Bytes :=
  match document with
  | .object fields => .ok (formats.toVec (.object fields))
  | .string value =>
    if isBlank value then
      .error (.invalidInput (text "document must be a JSON object or non-empty text string"))
    else .ok value
  | _ => .error (.invalidInput (text "document must be a JSON object or non-empty text string"))

def inlineContentUpdate (maxSize : Nat) (docType : Bytes) (expectedVersion : UInt64)
    (document : Value) : SnBnsControllerResult DocumentUpdate := do
  let _ ← fromRegistryResult (canonicalDocType docType)
  let bytes ← contentBytes formats document
  reject (bytes.length > maxSize) (inlineTooLarge docType)
  fromRegistryResult (defaultDocumentUpdate docType expectedVersion (inlineRef formats bytes))

def dnsTxtUpdate (maxSize : Nat) (expectedVersion : UInt64) (records : List DnsTxtRecord) :
    SnBnsControllerResult DocumentUpdate := do
  let bytes := formats.txtToVec records
  reject (bytes.length > maxSize) (inlineTooLarge dnsTxtDocType)
  fromRegistryResult (defaultDocumentUpdate dnsTxtDocType expectedVersion (inlineRef formats bytes))

/-- `parse_inline_document` with the decoder of the type it is used at. -/
def parseInlineDocument {Result : Type} (decode : Bytes → Except Bytes Result)
    (state : DocumentState) : SnBnsControllerResult Result :=
  if state.document.storageType ≠ storageTypeInline then
    .error (.invalidInput (text "document `" ++ state.name ++ text "/" ++ state.docType ++
      text "` is not inline"))
  else (decode state.document.inlineDocument).mapError .serialization

/-! ## TXT records and devices -/

def txtRecordsFromDocument (state : DocumentState) : SnBnsControllerResult (List DnsTxtRecord) :=
  if state.docType ≠ dnsTxtDocType then
    .error (fromRegistry (.invalidMutation "expected doc_type=dns_txt"))
  else if state.document.storageType ≠ storageTypeInline then
    .error (fromRegistry (.invalidMutation "DNS TXT helper can only update inline documents"))
  else (formats.txtFromSlice state.document.inlineDocument).mapError jsonError

end Formats

def checkTxtValue (value : Bytes) : SnBnsControllerResult Unit :=
  if value.isEmpty then
    .error (fromRegistry (.invalidMutation "DNS TXT record value must not be empty"))
  else .ok ()

def applyTxtUpdate (records : List DnsTxtRecord) :
    DnsTxtUpdate → SnBnsControllerResult (List DnsTxtRecord)
  | .add ttl value => do
      checkTxtValue value
      if records.any fun record => record.value = value then pure records
      else pure (records ++ [⟨ttl, value⟩])
  | .remove value => .ok (records.filter fun record => record.value ≠ value)
  | .replace next => do
      next.forM fun record => checkTxtValue record.value
      pure next

def normalizeDeviceMiniDocEntry (did : Bytes) (deviceMiniDoc : Value) :
    SnBnsControllerResult Value :=
  match deviceMiniDoc with
  | .object fields =>
    match fields.lookup (text "did") with
    | some (.string existing) =>
      if existing = did then .ok (.object fields)
      else .error (.invalidInput (text "device_mini_doc did `" ++ existing ++
        text "` does not match `" ++ did ++ text "`"))
    | some _ => .error (.invalidInput (text "device_mini_doc did must be a string"))
    | none => .ok (.object (insertField (text "did") (.string did) fields))
  | _ => .error (.invalidInput (text "device_mini_doc must be a JSON object"))

def DeviceMiniDocCollection.toValue (collection : DeviceMiniDocCollection) : Value :=
  .object [(text "devices", .object collection.devices),
      (text "version", .number (.posInt collection.version.toUInt64))]

def validateDeviceName (deviceName : Bytes) : SnBnsControllerResult Unit :=
  if deviceName.isEmpty ∨ deviceName.length > 64 then
    .error (.invalidInput (text "device_name must be 1..64 bytes"))
  else if !deviceName.all fun byte => isLabelByte byte || byte == 95 then
    .error (.invalidInput
      (text "device_name only supports lower-case ASCII letters, digits, '-' and '_'"))
  else .ok ()

def validateOwnerDocumentHash (value : Bytes) : SnBnsControllerResult Unit :=
  let marker := text "sha256:"
  let hex := value.drop marker.length
  if marker.isPrefixOf value ∧ hex.length = 64 ∧
      hex.all (fun byte => isHexDigit byte && !(65 ≤ byte && byte ≤ 90)) then .ok ()
  else .error (.invalidInput
    (text "expected_owner_hash must use the sha256:<64 lowercase hex> format"))

variable (formats : Formats)

def zoneDidHostname (zoneDid : Bytes) : SnBnsControllerResult Bytes :=
  let invalid : SnBnsControllerError :=
    .invalidInput (text "invalid zone DID `" ++ zoneDid ++ text "`")
  match zoneDid.splitOn 58 with
  | scheme :: method :: hostname :: _ =>
    if scheme ≠ text "did" ∨ method.isEmpty ∨ hostname.isEmpty then .error invalid
    else if method = text "web" then .ok hostname
    else
      match formats.web3Bridge method with
      | some bridge => .ok (hostname ++ text "." ++ bridge)
      | none => .ok (hostname ++ text "." ++ method ++ text ".did")
  | _ => .error invalid

def ownerDid (name : Bytes) : Bytes := text "did:bns:" ++ name

def zoneBindingModelVersionKey : Bytes := text "zone_binding_model_version"
def bindedZoneListKey : Bytes := text "binded_zone_list"
def serviceKey : Bytes := text "service"

/-- The version of the zone bindings, which is 2 once it is set. -/
def checkBindingVersion (fields : List (Bytes × Value)) : SnBnsControllerResult Unit :=
  match fields.lookup zoneBindingModelVersionKey with
  | none => .ok ()
  | some value =>
    match asU64 value with
    | some version =>
      if version = 2 then .ok ()
      else .error (.invalidInput (text "unsupported zone_binding_model_version"))
    | none => .error (.invalidInput (text "zone_binding_model_version must be an unsigned integer"))

/-- An array of an object, empty if it is missing. -/
def arrayField (key : Bytes) (message : String) (fields : List (Bytes × Value)) :
    SnBnsControllerResult (List Value) :=
  match fields.lookup key with
  | none => .ok []
  | some (.array items) => .ok items
  | some _ => .error (.invalidInput (text message))

/-- Write an array back; an empty one is left out. -/
def setArrayField (key : Bytes) (items : List Value) (fields : List (Bytes × Value)) :
    List (Bytes × Value) :=
  if items.isEmpty then eraseField key fields else insertField key (.array items) fields

def remainingZones (name zoneDid : Bytes) (allowLegacy : Bool)
    (fields : List (Bytes × Value)) : SnBnsControllerResult (List Value) := do
  let zones ← arrayField bindedZoneListKey "binded_zone_list must be an array" fields
  reject (zones.any fun zone => zone.text?.isNone)
    (.invalidInput (text "binded_zone_list entries must be DID strings"))
  let remaining := zones.filter fun zone => zone.text? ≠ some zoneDid
  reject (remaining.length = zones.length ∧ !allowLegacy) (.zoneNotBound zoneDid)
  let isLegacy := (fields.lookup zoneBindingModelVersionKey).isNone
  reject (allowLegacy ∧ (!isLegacy ∨ zones.length ≠ 0 ∨ zoneDid ≠ ownerDid name)) (.invalidInput
      (text "legacy implicit binding bypass is only valid for an empty same-name legacy owner"))
  pure remaining

/-- The service that resolves the owner document through its first zone. -/
def lastDocService (name zoneDid : Bytes) : SnBnsControllerResult Value := do
  let hostname ← zoneDidHostname formats zoneDid
  pure (.object [(text "id", .string (ownerDid name ++ text "#lastDoc")), (text "serviceEndpoint",
        .string (text "https://" ++ hostname ++ text "/resolve/" ++ ownerDid name)),
      (text "type", .string (text "DIDDoc"))])

def remainingServices (name : Bytes) (zones : List Value)
    (fields : List (Bytes × Value)) : SnBnsControllerResult (List Value) := do
  let services ← arrayField serviceKey "owner document service must be an array" fields
  let others := services.filter fun service =>
    (service.get? (text "id")).bind Json.text? ≠ some (ownerDid name ++ text "#lastDoc")
  match zones.head?.bind Json.text? with
  | some zoneDid => do
      let service ← lastDocService formats name zoneDid
      pure (others ++ [service])
  | none => pure others

def removeOwnerBoundZone (document : Value) (name zoneDid : Bytes)
    (allowLegacy : Bool) : SnBnsControllerResult Value :=
  match document with
  | .object fields => do
      reject ((fields.lookup (text "id")).bind Json.text? ≠ some (ownerDid name))
        (.invalidInput (text "owner document id must be `" ++ ownerDid name ++ text "`"))
      checkBindingVersion fields
      let zones ← remainingZones name zoneDid allowLegacy fields
      let services ← remainingServices formats name zones fields
      pure (.object (setArrayField serviceKey services (setArrayField bindedZoneListKey zones
          (insertField zoneBindingModelVersionKey (.number (.posInt 2)) fields))))
  | _ => .error (.invalidInput (text "owner document must be a JSON object"))

def legacyImplicitSameNameCandidate (document : Value) (name zoneDid : Bytes) : Bool :=
  match document with
  | .object fields =>
    (fields.lookup zoneBindingModelVersionKey).isNone && zoneDid = ownerDid name &&
      match fields.lookup bindedZoneListKey with
      | none => true
      | some (.array zones) => zones.isEmpty
      | some _ => false
  | _ => false

inductive Segment
  | field (key : Bytes)
  | item (index : Nat)

def valueAtPath (value : Value) : List Segment → Option Value
  | [] => some value
  | .field key :: path => (value.get? key).bind fun found => valueAtPath found path
  | .item index :: path =>
    (value.items?.bind fun items => items[index]?).bind fun found => valueAtPath found path

def ownerIdentityPaths : List (String × List Segment) :=
  [("public_key", [.field (text "public_key")]), ("owner_key", [.field (text "owner_key")]),
    ("default_key", [.field (text "default_key")]),
    ("key", [.field (text "key")]),
    ("verificationMethod[0].publicKeyJwk",
      [.field (text "verificationMethod"), .item 0, .field (text "publicKeyJwk")])]

def ensureOwnerIdentityFieldsUnchanged (current next : Value) : SnBnsControllerResult Unit :=
  ownerIdentityPaths.forM fun (label, path) =>
    match valueAtPath current path with
    | none => .ok ()
    | some existing =>
      if valueAtPath next path ≠ some existing then
        .error (.invalidInput (text "owner identity field `" ++ text label ++
          text "` cannot be changed or removed"))
      else .ok ()

end CyfsGateway.SnDocuments
