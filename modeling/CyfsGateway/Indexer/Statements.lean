import CyfsGateway.Indexer.Acceptance
import CyfsGateway.Indexer.Projection

/-!
# What the statements of a transaction do

Each statement of the store succeeds on the values it accepts and then changes
one table.  The transaction of a record is taken apart into such changes.
-/

namespace CyfsGateway.BnsStatements

open Evm Checks Reverting Tables BnsModel BnsStore BnsProjection BnsValidators BnsAcceptance

/-! ## Single statements -/

section Statements

theorem putName_eq_ok_iff : putName row store = .ok next ↔
      (row.validate = .ok () ∧ FitsI64 row.nameSeq ∧ FitsI64 row.updatedAt) ∧
        next = { store with names := upsert row.name row store.names } := by
  simp only [putName, then_ok_iff, exists_unit_iff, done_ok_iff, exists_toI64_iff, and_assoc,
    eq_comm (a := next)]

theorem putEventRecord_eq_ok_iff :
    putEventRecord record store = .ok next ↔ (FitsI64 record.seq ∧ FitsI64 record.observedAt) ∧
        next = { store with events := upsert record.seq record store.events } := by
  simp only [putEventRecord, then_ok_iff, done_ok_iff, exists_toI64_iff, and_assoc,
    eq_comm (a := next)]

theorem fitsI64_toUInt64 (count : UInt32) : FitsI64 count.toUInt64 := by
  have hbound := count.toNat_lt
  rw [FitsI64, UInt32.toNat_toUInt64, i64Max]
  omega

theorem putAuthoritySet_eq_ok_iff : putAuthoritySet row store = .ok next ↔
      ((∃ name, canonicalBnsName row.name = .ok name) ∧
        validateHash row.authorityRoot = .ok () ∧ FitsI64 row.authoritySeq) ∧
        next = { store with authoritySets := upsert row.name row store.authoritySets } := by
  simp only [putAuthoritySet, then_ok_iff, exists_unit_iff, done_ok_iff, exists_toI64_iff,
    fitsI64_toUInt64, true_and, and_assoc, eq_comm (a := next)]
  exact exists_and_right

theorem putAuthorityKey_eq_ok_iff :
    putAuthorityKey name key store = .ok next ↔ (IsCanonical name ∧ key.validate = .ok ()) ∧
        next = { store with
          authorityKeys := upsert (name, key.kid) key store.authorityKeys } := by
  simp only [putAuthorityKey, then_ok_iff, exists_unit_iff, done_ok_iff, canonicalBnsName_ok_iff]
  constructor
  · rintro ⟨_, ⟨hname, rfl⟩, hvalid, rfl⟩
    exact ⟨⟨hname, hvalid⟩, rfl⟩
  · rintro ⟨⟨hname, hvalid⟩, rfl⟩
    exact ⟨name, ⟨hname, rfl⟩, hvalid, rfl⟩

theorem putControllerPolicy_eq_ok_iff : putControllerPolicy name rules policyHash store = .ok next ↔
      (IsCanonical name ∧ validateHash policyHash = .ok () ∧
        ∀ rule ∈ rules, rule.validate = .ok ()) ∧
        next = { store with
          controllerPolicies :=
            upsert name { rules, policyHash }
              store.controllerPolicies } := by
  have hrules : rules.forM ControllerRule.validate = .ok () ↔
      ∀ rule ∈ rules, rule.validate = .ok () := forM_ok_iff
  simp only [putControllerPolicy, then_ok_iff, exists_unit_iff, done_ok_iff,
    canonicalBnsName_ok_iff, hrules]
  constructor
  · rintro ⟨_, ⟨hname, rfl⟩, hhash, hchecks, rfl⟩
    exact ⟨⟨hname, hhash, hchecks⟩, rfl⟩
  · rintro ⟨⟨hname, hhash, hchecks⟩, rfl⟩
    exact ⟨name, ⟨hname, rfl⟩, hhash, hchecks, rfl⟩

/-- The keys of one name, written one after the other. -/
theorem putKeys_eq_ok_iff (hname : IsCanonical name) {keys : List AuthorityKey}
    (hvalid : ∀ key ∈ keys, key.validate = .ok ()) :
    putAll (fun entry => putAuthorityKey entry.1 entry.2) (keys.map (name, ·)) store = .ok next ↔
      next = { store with
        authorityKeys := keys.foldl (fun table key => upsert (name, key.kid) key table)
          store.authorityKeys } := by
  induction keys generalizing store with
  | nil =>
    rw [putAll, List.map_nil, List.foldlM_nil, done_ok_iff, eq_comm]
    rfl
  | cons key keys ih =>
    rw [List.forall_mem_cons] at hvalid
    rw [putAll, List.map_cons, List.foldlM_cons, then_ok_iff]
    constructor
    · rintro ⟨middle, hput, hrest⟩
      obtain ⟨-, rfl⟩ := putAuthorityKey_eq_ok_iff.mp hput
      exact (ih hvalid.2).mp hrest
    · rintro rfl
      exact ⟨_, putAuthorityKey_eq_ok_iff.mpr ⟨⟨hname, hvalid.1⟩, rfl⟩, (ih hvalid.2).mpr rfl⟩

end Statements

end CyfsGateway.BnsStatements
