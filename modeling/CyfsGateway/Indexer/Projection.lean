import CyfsGateway.Bns.Resolver
import CyfsGateway.Indexer.Conversion
import CyfsGateway.Indexer.Store

/-!
# Projection of contract events

`bns-indexer/src/evm_projection.rs` turns the logs of the contract into event
records; `bns-indexer/src/sync.rs` turns a record into the rows it writes.
Names, documents, authority sets and aliases are read from the contract at the
last block of a batch; keys, controller rules and the issuer of a checkpoint
come from the call the transaction's input decodes to.
-/

namespace CyfsGateway.BnsProjection

open Evm Texts
open BnsTypes (BnsEvent)
open BnsStorage (Storage)
open BnsFacets (BnsCall)
open BnsModel BnsConversion BnsStore
open AbiDecoder (decodeString)

/-- The logs of the proxy: those of the registry, and those of its router and
its upgrades. -/
inductive ContractEvent
  | registry (event : BnsEvent)
  | router
  | infrastructure
  deriving DecidableEq

variable [AbiDecoder]

/-- The `string` fields of an event as the ABI decoder returns them. -/
def decodeEvent : BnsEvent → BnsEvent
  | .nameRegistered hash name assetOwner actor expireAt lineageEpoch nameSeq =>
    .nameRegistered hash (decodeString name) assetOwner actor expireAt lineageEpoch nameSeq
  | .nameRenewed hash name actor expireAt nameSeq =>
    .nameRenewed hash (decodeString name) actor expireAt nameSeq
  | .nameAssetTransferred hash name oldOwner newOwner standardTransfer nameSeq =>
    .nameAssetTransferred hash (decodeString name) oldOwner newOwner standardTransfer nameSeq
  | .nameOwnerUpdated hash name actor kind value source enabled nameSeq =>
    .nameOwnerUpdated hash (decodeString name) actor kind value source enabled nameSeq
  | .authorityKeysUpdated hash name actor authoritySeq authorityRoot =>
    .authorityKeysUpdated hash (decodeString name) actor authoritySeq authorityRoot
  | .nameReleased hash name actor mode reasonHash nameSeq =>
    .nameReleased hash (decodeString name) actor mode reasonHash nameSeq
  | .documentPublished hash name docType version actor contentHash stateHash =>
    .documentPublished hash (decodeString name) (decodeString docType) version actor
      contentHash stateHash
  | .documentRevoked hash name docType actor previousVersion newVersion reasonHash =>
    .documentRevoked hash (decodeString name) (decodeString docType) actor
      previousVersion newVersion reasonHash
  | .ownerDocumentIatFloorUpdated hash name actor previous next policySeq nameSeq reasonHash =>
      .ownerDocumentIatFloorUpdated hash (decodeString name) actor previous next policySeq
        nameSeq reasonHash
  | .controllerPolicyUpdated hash name actor policyHash nameSeq =>
    .controllerPolicyUpdated hash (decodeString name) actor policyHash nameSeq
  | .namespacePolicyUpdated hash name actor allow policyHash nameSeq =>
    .namespacePolicyUpdated hash (decodeString name) actor allow policyHash nameSeq
  | .didAliasSet hash name actor targetDid kind proofHash nameSeq =>
    .didAliasSet hash (decodeString name) actor (decodeString targetDid) kind proofHash nameSeq
  | .paymentTargetUpdated hash name docType actor target policyHash version =>
    .paymentTargetUpdated hash (decodeString name) (decodeString docType) actor target
      policyHash version
  | event => event

/-- `{address:#x}`: unlike `address_or_empty`, the zero address is written out. -/
def addressString (address : Address) : Bytes := hexMarker ++ hexEncode address.val

/-- As `principal_from_evm`, but an unset principal must be empty. -/
def principalFromContract (kind : BnsTypes.PrincipalKind) (value : Bytes) :
    BnsRegistryResult Principal :=
  if kind = .unset ∧ !value.isEmpty then
    .error (.invalidMutation "unset contract principal has non-empty value")
  else principalFromEvm { kind, value }

def registryEventFromContractEvent : BnsEvent → BnsRegistryResult RegistryEvent
  | .protocolEvent .. =>
    .error (.invalidMutation "ProtocolEvent cannot be projected as a registry event")
  | .nameRegistered _ name assetOwner _ expireAt lineageEpoch nameSeq =>
    .ok (.nameRegistered name (addressString assetOwner) expireAt lineageEpoch nameSeq)
  | .nameRenewed _ name _ expireAt nameSeq => .ok (.nameRenewed name expireAt nameSeq)
  | .nameAssetTransferred _ name oldOwner newOwner standardTransfer nameSeq =>
    .ok (.nameAssetTransferred name (addressString oldOwner) (addressString newOwner)
      standardTransfer nameSeq)
  | .nameOwnerUpdated _ name _ kind value source enabled nameSeq => do
      let owner ← principalFromContract kind value
      pure (.nameOwnerUpdated name owner source enabled nameSeq)
  | .authorityKeysUpdated _ name _ authoritySeq authorityRoot =>
    .ok (.authorityKeysUpdated name authoritySeq (hashString authorityRoot))
  | .nameReleased _ name _ mode reasonHash nameSeq =>
    .ok (.nameReleased name mode (hashString reasonHash) nameSeq)
  | .documentPublished _ name docType version _ contentHash stateHash =>
    .ok (.documentPublished name docType version (hashString contentHash) (hashString stateHash))
  | .documentRevoked _ name docType _ previousVersion newVersion reasonHash =>
    .ok (.documentRevoked name docType previousVersion newVersion (hashString reasonHash))
  | .ownerDocumentIatFloorUpdated _ name _ previous next policySeq nameSeq reasonHash =>
    .ok (.ownerDocumentIatFloorUpdated name previous next policySeq nameSeq (hashString reasonHash))
  | .controllerPolicyUpdated _ name _ policyHash nameSeq =>
    .ok (.controllerPolicyUpdated name (hashString policyHash) nameSeq)
  | .namespacePolicyUpdated _ name _ allow policyHash nameSeq =>
    .ok (.namespacePolicyUpdated name allow (hashString policyHash) nameSeq)
  | .didAliasSet _ name _ targetDid kind proofHash nameSeq =>
    .ok (.didAliasSet name targetDid kind (hashString proofHash) nameSeq)
  | .paymentTargetUpdated _ name docType _ target policyHash version =>
    .ok (.paymentTargetUpdated name docType (addressString target) (hashString policyHash) version)
  | .logCheckpointPublished logRoot _ lastSeq issuedAt externalAnchor =>
    .ok (.logCheckpointPublished (hashString logRoot) lastSeq issuedAt (hashString externalAnchor))

structure ContractProtocolEvent where
  seq : UInt64
  eventTypeHash : Digest
  previousLogRoot : Bytes
  logRoot : Bytes
  deriving DecidableEq

/-- `hash_json` of the fields an event record is identified by. -/
abbrev EventHasher := ContractProtocolEvent → RegistryEvent → Bytes

def eventRecord (hashEvent : EventHasher) (protocol : ContractProtocolEvent)
    (event : RegistryEvent) (observedAt : UInt64) : EventLogRecord where
  seq := protocol.seq
  eventType := event.eventType
  observedAt := observedAt
  eventHash := hashEvent protocol event
  previousLogRoot := protocol.previousLogRoot
  logRoot := protocol.logRoot
  event := event

def protocolEvent (seq : UInt64) (eventType : Digest) (previousLogRoot logRoot : Bytes32) :
    ContractProtocolEvent where
  seq := seq
  eventTypeHash := eventType
  previousLogRoot := hashString previousLogRoot
  logRoot := hashString logRoot

/-- `ContractEventProjector::project_log`: protocol events wait in a queue for
the events they announce. -/
def projectEvent (hashEvent : EventHasher) (pending : List ContractProtocolEvent)
    (event : ContractEvent) (observedAt : UInt64) :
    BnsRegistryResult (Option EventLogRecord × List ContractProtocolEvent) :=
  match event with
  | .router | .infrastructure => .ok (none, pending)
  | .registry (.protocolEvent seq eventType _ previousLogRoot logRoot) =>
    .ok (none, pending ++ [protocolEvent seq eventType previousLogRoot logRoot])
  | .registry event => do
      let registryEvent ← registryEventFromContractEvent (decodeEvent event)
      match pending with
      | [] => .error (.invalidMutation ("contract event `" ++ registryEvent.eventType ++
          "` has no preceding ProtocolEvent"))
      | protocol :: rest =>
        pure (some (eventRecord hashEvent protocol registryEvent observedAt), rest)

/-! ## Reads at the last block of a batch -/

inductive ProjectionReadKey
  | name (name : Bytes)
  | document (name docType : Bytes) (version : UInt64)
  | authoritySet (name : Bytes)
  | aliasState (name : Bytes)
  | latestCheckpoint
  deriving DecidableEq

inductive ContractOutput
  | nameState (state : BnsTypes.NameState)
  | documentState (state : BnsTypes.DocumentState)
  | authoritySet (state : BnsTypes.AuthoritySetState)
  | aliasState (state : BnsTypes.AliasState)
  | checkpoint (checkpoint : BnsTypes.LogCheckpoint)

/-- The view a read calls, on the storage and time of a block. -/
def ProjectionReadKey.call (storage : Storage) (now : UInt64) :
    ProjectionReadKey → Except BnsTypes.Revert ContractOutput
  | .name read => do
      let state ← BnsResolver.queryNameState storage now read
      pure (.nameState (decodeNameState state))
  | .document read docType version => do
      let state ← BnsResolver.getDocumentVersion storage read docType version
      pure (.documentState (decodeDocumentState state))
  | .authoritySet read => do
      let state ← BnsResolver.getAuthoritySet storage read
      pure (.authoritySet (decodeAuthoritySet state))
  | .aliasState read => do
      let state ← BnsResolver.getAlias storage read
      pure (.aliasState (decodeAlias state))
  | .latestCheckpoint => .ok (.checkpoint storage.latestCheckpoint)

inductive SnapshotValue
  | name (state : Option NameState)
  | document (state : Option DocumentState)
  | authoritySet (state : AuthoritySetState)
  | aliasState (state : AliasState)
  | checkpoint (checkpoint : LogCheckpoint)

/-- The conversion in `ProjectionSnapshot::insert`.  A name or document that
does not exist is kept as such. -/
def ContractOutput.convert : ContractOutput → BnsRegistryResult SnapshotValue
  | .nameState state => do
      let row ← nameStateFromEvm state
      pure (.name (if row.status ≠ .available then some row else none))
  | .documentState state => do
      let row ← documentStateFromEvm state
      pure (.document (if row.status ≠ .missing then some row else none))
  | .authoritySet state => do
      let row ← authoritySetFromEvm state
      pure (.authoritySet row)
  | .aliasState state => do
      let row ← aliasStateFromEvm state
      pure (.aliasState row)
  | .checkpoint latest => do
      let row ← checkpointFromEvm latest
      pure (.checkpoint row)

abbrev ProjectionSnapshot := List (ProjectionReadKey × SnapshotValue)

def missingProjectionRead (detail : String) : BnsRegistryError :=
  .invalidConfig ("BNS projection batch is missing " ++ detail)

/-- `BnsCall` of the bindings: a call of the contract's ABI. -/
inductive AbiCall
  | mutation (call : BnsCall)
  /-- A read function or an administrative one. -/
  | other
  deriving DecidableEq

/-- `decode_bns_call`.  An input shorter than a selector does not decode. -/
structure CallDecoder where
  decode : Bytes → Option AbiCall
  short : ∀ input, input.length < 4 → decode input = none

def projectionReadsForRecord (event : RegistryEvent) (decodedCall : Option AbiCall) :
    List ProjectionReadKey :=
  match event with
  | .nameRegistered name .. | .nameRenewed name .. | .nameAssetTransferred name ..
  | .nameOwnerUpdated name .. | .nameReleased name ..
  | .ownerDocumentIatFloorUpdated name .. | .namespacePolicyUpdated name ..
  | .controllerPolicyUpdated name .. => [.name name]
  | .documentPublished name docType version _ _
  | .paymentTargetUpdated name docType _ _ version
  | .documentRevoked name docType _ version _ => [.name name, .document name docType version]
  | .authorityKeysUpdated name .. => [.authoritySet name]
  | .didAliasSet name .. => [.name name, .aliasState name]
  | .logCheckpointPublished .. =>
    match decodedCall with
    | some (.mutation (.publishLogCheckpoint ..)) => []
    | _ => [.latestCheckpoint]

/-- `decoded_call_for_hash` on the transaction the node returns. -/
def decodedCallForTransaction (decoder : CallDecoder) (input : Option Bytes) :
    BnsRegistryResult (Option AbiCall) :=
  match input with
  | none => .ok none
  | some input =>
    match decoder.decode input with
    | some call => .ok (some call)
    | none => .error (.evm "BNS ABI error")

def recordNeedsDecodedCall : RegistryEvent → Bool
  | .authorityKeysUpdated .. | .controllerPolicyUpdated ..
  | .logCheckpointPublished .. => true
  | _ => false

def decodedCallForRecord (decoder : CallDecoder) (event : RegistryEvent)
    (input : Option Bytes) : BnsRegistryResult (Option AbiCall) :=
  if recordNeedsDecodedCall event then decodedCallForTransaction decoder input else .ok none

def authorityKeysFromCall (decodedCall : Option AbiCall) (name : Bytes) : List AuthorityKey :=
  match decodedCall with
  | none => []
  | some (.mutation (.registerName callName _ _ updates ..))
  | some (.mutation (.updateAuthorityKeys callName updates ..))
  | some (.mutation (.applyMutations callName updates ..)) =>
    if callName = name then updates.map authorityKeyUpdateFromEvm else []
  | some _ => []

def controllerRulesFromCall (decodedCall : Option AbiCall) (name : Bytes) :
    BnsRegistryResult (Option (List ControllerRule)) :=
  match decodedCall with
  | none => .ok none
  | some (.mutation (.registerName callName _ _ _ _ rules ..))
  | some (.mutation (.setControllerPolicy callName rules ..)) =>
    if callName = name then do
      let rows ← rules.mapM controllerRuleFromEvm
      pure (some rows)
    else .ok none
  | some _ => .ok none

def checkpointFromEventAndCall (event : RegistryEvent) (decodedCall : Option AbiCall) :
    BnsRegistryResult (Option LogCheckpoint) :=
  match event, decodedCall with
  | .logCheckpointPublished logRoot lastSeq issuedAt externalAnchor,
      some (.mutation (.publishLogCheckpoint issuer anchor)) =>
      if hashString anchor ≠ externalAnchor then
        .error (.invalidMutation
          "checkpoint event external anchor does not match transaction calldata")
      else do
        let issuer ← principalFromEvm issuer
        pure (some
          { logRoot
            lastSeq
            issuedAt
            issuer
            externalAnchor })
  | _, _ => .ok none

/-! ## The rows a record writes -/

structure ContractProjectionWrite where
  lineageResets : List Bytes := []
  names : List NameState := []
  documents : List DocumentState := []
  authoritySets : List AuthoritySetState := []
  authorityKeys : List (Bytes × AuthorityKey) := []
  controllerPolicies : List (Bytes × List ControllerRule × Bytes) := []
  aliases : List AliasState := []
  checkpoints : List LogCheckpoint := []

variable (snapshot : ProjectionSnapshot)

/-- `push_name`: the name state, unless the name does not exist. -/
def snapshotName (name : Bytes) : BnsRegistryResult (List NameState) :=
  match snapshot.lookup (.name name) with
  | some (.name state) => .ok state.toList
  | _ => .error (missingProjectionRead "name state")

def snapshotDocument (name docType : Bytes)
    (version : UInt64) : BnsRegistryResult (List DocumentState) :=
  match snapshot.lookup (.document name docType version) with
  | some (.document state) => .ok state.toList
  | _ => .error (missingProjectionRead "document")

def snapshotAuthoritySet (name : Bytes) : BnsRegistryResult AuthoritySetState :=
  match snapshot.lookup (.authoritySet name) with
  | some (.authoritySet state) => .ok state
  | _ => .error (missingProjectionRead "authority set")

def snapshotAlias (name : Bytes) : BnsRegistryResult AliasState :=
  match snapshot.lookup (.aliasState name) with
  | some (.aliasState state) => .ok state
  | _ => .error (missingProjectionRead "alias")

def snapshotCheckpoint : BnsRegistryResult LogCheckpoint :=
  match snapshot.lookup .latestCheckpoint with
  | some (.checkpoint checkpoint) => .ok checkpoint
  | _ => .error (missingProjectionRead "latest checkpoint")

def projectionForRecord (event : RegistryEvent)
    (decodedCall : Option AbiCall) : BnsRegistryResult ContractProjectionWrite :=
  match event with
  | .nameRegistered name .. => do
      let name ← canonicalBnsName name
      let names ← snapshotName snapshot name
      pure { lineageResets := [name], names }
  | .nameRenewed name .. | .nameAssetTransferred name .. | .nameOwnerUpdated name ..
  | .nameReleased name .. | .ownerDocumentIatFloorUpdated name ..
  | .namespacePolicyUpdated name .. => do
      let names ← snapshotName snapshot name
      pure { names }
  | .documentPublished name docType version _ _
  | .documentRevoked name docType _ version _
  | .paymentTargetUpdated name docType _ _ version => do
      let names ← snapshotName snapshot name
      let documents ← snapshotDocument snapshot name docType version
      pure { names, documents }
  | .authorityKeysUpdated name .. => do
      let set ← snapshotAuthoritySet snapshot name
      let keys := authorityKeysFromCall decodedCall name
      let keyed ← keys.mapM fun key => do
        let name ← canonicalBnsName name
        pure (name, key)
      pure { authoritySets := [set], authorityKeys := keyed }
  | .controllerPolicyUpdated name policyHash _ => do
      let names ← snapshotName snapshot name
      let rules ← controllerRulesFromCall decodedCall name
      match rules with
      | none => pure { names }
      | some rules =>
        let name ← canonicalBnsName name
        pure { names, controllerPolicies := [(name, rules, policyHash)] }
  | .didAliasSet name .. => do
      let names ← snapshotName snapshot name
      let state ← snapshotAlias snapshot name
      pure { names, aliases := [state] }
  | .logCheckpointPublished .. => do
      let published ← checkpointFromEventAndCall event decodedCall
      match published with
      | some checkpoint => pure { checkpoints := [checkpoint] }
      | none => do
          let checkpoint ← snapshotCheckpoint snapshot
          pure { checkpoints := [checkpoint] }

def putAll {Item : Type} (put : Item → Store → BnsRegistryResult Store)
    (items : List Item) (store : Store) : BnsRegistryResult Store :=
  items.foldlM (fun reached item => put item reached) store

def ContractProjectionWrite.apply (chain : Deployment) (write : ContractProjectionWrite)
    (store : Store) : BnsRegistryResult Store := do
  let store ← putAll resetNameLineage write.lineageResets store
  let store ← putAll putName write.names store
  let store ← putAll (putDocument chain) write.documents store
  let store ← putAll putAuthoritySet write.authoritySets store
  let store ← putAll (fun entry => putAuthorityKey entry.1 entry.2) write.authorityKeys store
  let store ← putAll (fun entry => putControllerPolicy entry.1 entry.2.1 entry.2.2)
    write.controllerPolicies store
  let store ← putAll putAlias write.aliases store
  putAll putCheckpoint write.checkpoints store

def snapshotOf (outputs : List (ProjectionReadKey × ContractOutput)) :
    BnsRegistryResult ProjectionSnapshot :=
  outputs.mapM fun entry => do
    let value ← entry.2.convert
    pure (entry.1, value)

def storeRecord (chain : Deployment) (record : EventLogRecord)
    (write : ContractProjectionWrite) (store : Store) : BnsRegistryResult Store := do
  let store ← putEventRecord record store
  write.apply chain store

end CyfsGateway.BnsProjection
