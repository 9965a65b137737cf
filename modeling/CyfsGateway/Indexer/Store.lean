import CyfsGateway.Core.Tables
import CyfsGateway.Indexer.Model

/-!
# The registry store

The tables of `bns-indexer/src/sqlite.rs` and the statements of a store
transaction.  A row holds the value its `payload_json` column encodes; the
other columns repeat fields of it.  A statement that fails leaves the
transaction to be rolled back, so each returns the next store or an error.
-/

namespace CyfsGateway.BnsStore

open Evm Tables BnsModel

structure DocumentKey where
  name : Bytes
  docType : Bytes
  version : UInt64
  deriving DecidableEq

structure DocumentRow where
  state : DocumentState
  isCurrent : Bool
  deriving DecidableEq

structure PolicyRow where
  rules : List ControllerRule
  policyHash : Bytes
  deriving DecidableEq

structure Store where
  names : Table Bytes NameState := []
  documents : Table DocumentKey DocumentRow := []
  /-- Under name and kid. -/
  authorityKeys : Table (Bytes × Bytes) AuthorityKey := []
  authoritySets : Table Bytes AuthoritySetState := []
  controllerPolicies : Table Bytes PolicyRow := []
  aliases : Table Bytes AliasState := []
  events : Table UInt64 EventLogRecord := []
  /-- Under `last_seq`. -/
  checkpoints : Table UInt64 LogCheckpoint := []
  deriving DecidableEq

def i64Max : Nat := 2 ^ 63 - 1

def toI64 (value : UInt64) (field : String) : BnsRegistryResult Int :=
  if value.toNat > i64Max then .error (.integerOutOfRange field value)
  else .ok value.toNat

/-! ## Names -/

def putName (state : NameState) (store : Store) : BnsRegistryResult Store := do
  state.validate
  let _ ← toI64 state.nameSeq "name_seq"
  let _ ← toI64 state.updatedAt "updated_at"
  pure { store with names := upsert state.name state store.names }

/-- `SELECT MAX(version) …`, `-1` without a row. -/
def maxVersion (store : Store) (name docType : Bytes) : Int :=
  store.documents.foldl (fun highest entry =>
      if entry.1.name = name ∧ entry.1.docType = docType then
        max highest entry.1.version.toNat
      else highest)
    (-1)

def unmark (row : DocumentRow) : DocumentRow := { row with isCurrent := false }

def putDocument (chain : Deployment) (state : DocumentState) (store : Store) :
    BnsRegistryResult Store := do
  state.validate chain
  let incomingVersion ← toI64 state.version "version"
  let isCurrent := decide (incomingVersion ≥ maxVersion store state.name state.docType)
  let documents :=
    if isCurrent then
      updateWhere (fun key => key.name = state.name ∧ key.docType = state.docType) unmark
        store.documents
    else store.documents
  pure
    { store with
      documents := upsert ⟨state.name, state.docType, state.version⟩
        { state, isCurrent } documents }

def putAuthorityKey (name : Bytes) (key : AuthorityKey) (store : Store) :
    BnsRegistryResult Store := do
  let name ← canonicalBnsName name
  key.validate
  pure { store with authorityKeys := upsert (name, key.kid) key store.authorityKeys }

def putAuthoritySet (state : AuthoritySetState) (store : Store) : BnsRegistryResult Store := do
  let _ ← canonicalBnsName state.name
  validateHash state.authorityRoot
  let _ ← toI64 state.authoritySeq "authority_seq"
  let _ ← toI64 state.activeKeyCount.toUInt64 "active_key_count"
  pure { store with authoritySets := upsert state.name state store.authoritySets }

/-! ## Controller policies and aliases -/

def putControllerPolicy (name : Bytes) (rules : List ControllerRule)
    (policyHash : Bytes) (store : Store) : BnsRegistryResult Store := do
  let name ← canonicalBnsName name
  validateHash policyHash
  rules.forM ControllerRule.validate
  pure
    { store with
      controllerPolicies := upsert name { rules, policyHash } store.controllerPolicies }

def putAlias (state : AliasState) (store : Store) : BnsRegistryResult Store := do
  state.validate
  let _ ← toI64 state.nameSeq "name_seq"
  pure { store with aliases := upsert state.name state store.aliases }

def resetNameLineage (name : Bytes) (store : Store) : BnsRegistryResult Store := do
  let name ← canonicalBnsName name
  pure
    { store with
      documents := updateWhere (fun key => key.name = name) unmark store.documents
      authorityKeys := deleteWhere (fun key => key.1 = name) store.authorityKeys
      authoritySets := deleteWhere (fun key => key = name) store.authoritySets
      controllerPolicies := deleteWhere (fun key => key = name) store.controllerPolicies
      aliases := deleteWhere (fun key => key = name) store.aliases }

def putEventRecord (record : EventLogRecord) (store : Store) : BnsRegistryResult Store := do
  let _ ← toI64 record.seq "seq"
  let _ ← toI64 record.observedAt "observed_at"
  pure { store with events := upsert record.seq record store.events }

def putCheckpoint (checkpoint : LogCheckpoint) (store : Store) : BnsRegistryResult Store := do
  checkpoint.validate
  let _ ← toI64 checkpoint.lastSeq "last_seq"
  let _ ← toI64 checkpoint.issuedAt "issued_at"
  pure { store with checkpoints := upsert checkpoint.lastSeq checkpoint store.checkpoints }

end CyfsGateway.BnsStore
