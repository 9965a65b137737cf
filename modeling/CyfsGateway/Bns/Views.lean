import CyfsGateway.Bns.Access
import CyfsGateway.Bns.Resolver

/-!
# What a view reads

Owner resolution and authorization read the name state and the live lineage of
the names they consult, and nothing else.  Two storages that agree on those
names answer alike.
-/

namespace CyfsGateway.BnsViews

open Evm BnsTypes BnsValidation BnsStorage BnsCore BnsFrames BnsWellFormed

/-- Two storages agree on the state and the live lineage of a name.  Authorization and the
search for the effective owner read nothing else of it. -/
structure AgreeOn (storage other : Storage) (name : Bytes) : Prop where
  names : other.names (nameHash name) = storage.names (nameHash name)
  key : lineageStateKey other (nameHash name) = lineageStateKey storage (nameHash name)
  slots : lineageSlots other (lineageStateKey storage (nameHash name)) =
    lineageSlots storage (lineageStateKey storage (nameHash name))

theorem agreeOn_of_sameName {storage other name} (hsame : SameName (nameHash name) storage other) :
    AgreeOn storage other name where
  names := hsame.names
  key := hsame.lineageStateKey_eq
  slots := hsame.slots _ (owns_lineageStateKey storage _)

section Slots

variable {storage other : Storage} {name : Bytes} (hagree : AgreeOn storage other name)

include hagree

theorem AgreeOn.authoritySet : other.authoritySets (lineageStateKey other (nameHash name)) =
      storage.authoritySets (lineageStateKey storage (nameHash name)) := by
  rw [hagree.key]
  exact congrArg LineageSlots.authoritySet hagree.slots

theorem AgreeOn.authorityKeys : other.authorityKeys (lineageStateKey other (nameHash name)) =
      storage.authorityKeys (lineageStateKey storage (nameHash name)) := by
  rw [hagree.key]
  exact congrArg LineageSlots.authorityKeys hagree.slots

theorem AgreeOn.controllerPolicy :
    other.controllerPolicies (lineageStateKey other (nameHash name)) =
      storage.controllerPolicies (lineageStateKey storage (nameHash name)) := by
  rw [hagree.key]
  exact congrArg LineageSlots.controllerPolicy hagree.slots

theorem AgreeOn.aliasState : other.aliases (lineageStateKey other (nameHash name)) =
      storage.aliases (lineageStateKey storage (nameHash name)) := by
  rw [hagree.key]
  exact congrArg LineageSlots.aliasState hagree.slots

theorem AgreeOn.currentDocumentVersions :
    other.currentDocumentVersions (lineageStateKey other (nameHash name)) =
      storage.currentDocumentVersions (lineageStateKey storage (nameHash name)) := by
  rw [hagree.key]
  exact congrArg LineageSlots.currentDocumentVersions hagree.slots

end Slots

/-! ## Owner resolution -/

/-- The names whose state decides the effective owner of a name: itself, the
semantic owner it names, and for an inheriting subname those of its parent. -/
inductive Consults (storage : Storage) : Bytes → Bytes → Prop
  | self (name : Bytes) : Consults storage name name
  | owner {name : Bytes} : (storage.names (nameHash name)).semanticOwner.kind = .bnsName →
      Consults storage name (storage.names (nameHash name)).semanticOwner.value
  | parent {name consulted : Bytes} :
      (storage.names (nameHash name)).semanticOwner.kind ≠ .bnsName →
      parentName (storage.names (nameHash name)).name ≠ [] →
      Consults storage (parentName (storage.names (nameHash name)).name) consulted →
      Consults storage name consulted

section Resolution

theorem resolveOwnerFrom_congr
    (hagree : ∀ consulted, Consults storage name consulted → AgreeOn storage other consulted) :
    resolveOwnerFrom other now remaining (nameHash name) =
      resolveOwnerFrom storage now remaining (nameHash name) := by
  induction remaining generalizing name with
  | zero => rfl
  | succ remaining ih =>
    have hself := hagree name (.self name)
    simp only [resolveOwnerFrom, hself.names]
    split
    · rfl
    split
    · rename_i hkind
      have howner := hagree _ (.owner hkind)
      rw [howner.authoritySet, howner.names]
    · rename_i hkind
      split
      · rw [hself.authoritySet]
      have hpar : parentName (storage.names (nameHash name)).name ≠ [] := by
        rwa [ne_eq, ← List.length_eq_zero_iff]
      have hconsulted := fun consulted hcons =>
        hagree consulted (.parent hkind hpar hcons)
      rw [(hconsulted _ (.self _)).names, ih hconsulted]

theorem resolveOwner_congr (hagree : ∀ consulted, Consults storage name consulted →
      AgreeOn storage other consulted) :
    resolveOwner other now (nameHash name) = resolveOwner storage now (nameHash name) :=
  resolveOwnerFrom_congr hagree

theorem consults_effectiveOwner
    (hresol : resolveOwnerFrom storage now remaining (nameHash name) = .ok owner)
    (hkind : owner.effectiveOwner.kind = .bnsName) :
    Consults storage name owner.effectiveOwner.value := by
  induction remaining generalizing name owner with
  | zero => simp [resolveOwnerFrom] at hresol
  | succ remaining ih =>
    simp only [resolveOwnerFrom] at hresol
    split at hresol
    · simp at hresol
    split at hresol
    · rename_i howner
      split at hresol
      · simp at hresol
      · obtain rfl := Except.ok.inj hresol
        exact .owner howner
    · rename_i howner
      split at hresol
      · obtain rfl := Except.ok.inj hresol
        simp [chainAccountPrincipal] at hkind
      split at hresol
      · simp at hresol
      split at hresol
      · rename_i parentOwner hpar
        obtain rfl := Except.ok.inj hresol
        have hcons : Consults storage _ parentOwner.effectiveOwner.value := ih hpar hkind
        refine .parent howner ?_ hcons
        rwa [ne_eq, ← List.length_eq_zero_iff]
      · simp at hresol

end Resolution

/-! ## Authorization -/

section Authorization

theorem authenticateExpectedPrincipal_congr {now}
    (hagree : expected.kind = .bnsName → AgreeOn storage other expected.value) :
    authenticateExpectedPrincipal other now expected authority signer =
      authenticateExpectedPrincipal storage now expected authority signer := by
  simp only [authenticateExpectedPrincipal]
  split
  · rfl
  · rename_i hkind
    have hname := hagree hkind
    simp only [authorityKeyAuthenticates, hname.names, hname.authorityKeys]
  · rfl

theorem authorizeOwner_congr (hagree : ∀ consulted, Consults storage name consulted →
      AgreeOn storage other consulted) :
    authorizeOwner other msg (nameHash name) message authority =
      authorizeOwner storage msg (nameHash name) message authority := by
  simp only [authorizeOwner, resolveOwner_congr hagree]
  split
  · rfl
  cases hresol : resolveOwner storage msg.now (nameHash name) with
  | error error => rfl
  | ok owner =>
    have hauthenticate : authenticateExpectedPrincipal other msg.now
        owner.effectiveOwner authority msg.sender =
          authenticateExpectedPrincipal storage msg.now owner.effectiveOwner authority
            msg.sender :=
      authenticateExpectedPrincipal_congr fun hkind =>
        hagree _ (consults_effectiveOwner hresol hkind)
    simp only [hauthenticate]

/-- What a controller may do depends on the rules of the name and on the names
that are controllers in them, and not on the owner of the name. -/
theorem authorizeController_congr (hself : AgreeOn storage other name)
    (hrules : ∀ rule ∈ storage.controllerPolicies (lineageStateKey storage (nameHash name)),
      rule.controller.kind = .bnsName → AgreeOn storage other rule.controller.value)
    (hrole : authority.role ≠ .owner) :
    authorizeUpdateNoGuard other msg (nameHash name) message docType permission operation
        authority =
      authorizeUpdateNoGuard storage msg (nameHash name) message docType permission
        operation authority := by
  have hany : (storage.controllerPolicies (lineageStateKey storage (nameHash name))).any
        (ruleAuthorizes other msg docType permission authority) =
      (storage.controllerPolicies (lineageStateKey storage (nameHash name))).any
        (ruleAuthorizes storage msg docType permission authority) := by
    rw [Bool.eq_iff_iff, List.any_eq_true, List.any_eq_true]
    refine exists_congr fun rule => and_congr_right fun hrule => ?_
    simp only [ruleAuthorizes, authenticateExpectedPrincipal_congr (hrules rule hrule)]
  simp only [authorizeUpdateNoGuard, hrole, if_false, hself.controllerPolicy, hany]

theorem authorizeUpdateNoGuard_congr
    (hagree : ∀ consulted, Consults storage name consulted → AgreeOn storage other consulted)
    (hrules : ∀ rule ∈ storage.controllerPolicies (lineageStateKey storage (nameHash name)),
      rule.controller.kind = .bnsName → AgreeOn storage other rule.controller.value) :
    authorizeUpdateNoGuard other msg (nameHash name) message docType permission operation
        authority =
      authorizeUpdateNoGuard storage msg (nameHash name) message docType permission
        operation authority := by
  by_cases hrole : authority.role = .owner
  · simp only [authorizeUpdateNoGuard, hrole, if_true, authorizeOwner_congr hagree]
  · exact authorizeController_congr (hagree name (.self name)) hrules hrole

end Authorization

end CyfsGateway.BnsViews
