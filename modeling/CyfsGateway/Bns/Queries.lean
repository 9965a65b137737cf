import CyfsGateway.Bns.Resolver
import CyfsGateway.Bns.WellFormed

/-!
# When the queries answer

`queryNameState` and `resolveDocument` recompute the effective owner of the
name.  The contract refuses to name an owner that nobody can sign for, so the
queries revert exactly on names whose owner is such a one.
-/

namespace CyfsGateway.BnsQueries

open Evm BnsTypes BnsValidation BnsStorage BnsCore BnsResolver BnsRuns BnsWellFormed

def OwnedByName (state : NameState) : Prop := state.semanticOwner.kind = .bnsName

/-- An active name whose semantic owner is not active or has no active key. -/
def DeadOwner (storage : Storage) (now : UInt64) (state : NameState) : Prop :=
  OwnedByName state ∧ isActiveName now state = true ∧
    (isActiveName now (storage.names (nameHash state.semanticOwner.value)) = false ∨
      (storage.authoritySets (lineageStateKey storage
        (nameHash state.semanticOwner.value))).activeKeyCount = 0)

/-- A subname that inherits its owner from a parent that is no longer active,
or whose own owner is dead. -/
def DeadParent (storage : Storage) (now : UInt64) (name : Bytes) : Prop :=
  ¬OwnedByName (storage.names (nameHash name)) ∧ parentName name ≠ [] ∧
    ((isActiveName now (storage.names (nameHash name)) = true ∧
        isActiveName now (storage.names (nameHash (parentName name))) = false) ∨
      DeadOwner storage now (storage.names (nameHash (parentName name))))

/-- A name nobody can sign for: the owner it names is dead, or it inherits from a parent
that is no longer active or whose own owner is dead. -/
def Unsigned (storage : Storage) (now : UInt64) (name : Bytes) : Prop :=
  DeadOwner storage now (storage.names (nameHash name)) ∨ DeadParent storage now name

/-! ## Owner resolution -/

/-- A resolution that fails for want of a signer when `Dead` holds, and answers
otherwise. -/
structure FailsWhen (Dead : Prop) {Value : Type} (result : Except Revert Value) : Prop where
  fails : Dead → result = .error .noConcreteSigner
  answers : ¬Dead → ∃ value, result = .ok value

section Resolution

variable {storage : Storage} {name : Bytes}

theorem resolveOwnerFrom_owned (hregistered : Registered storage name)
    (howned : OwnedByName (storage.names (nameHash name))) :
    FailsWhen (DeadOwner storage now (storage.names (nameHash name)))
      (resolveOwnerFrom storage now (remaining + 1) (nameHash name)) := by
  have hkind : (storage.names (nameHash name)).semanticOwner.kind = .bnsName := howned
  rw [resolveOwnerFrom, if_neg hregistered, if_pos hkind]
  refine ⟨fun hdead => if_pos hdead.2, fun halive => ?_⟩
  rw [if_neg fun hdead => halive ⟨howned, hdead⟩]
  exact ⟨_, rfl⟩

section Owners

variable (hwf : WellFormed storage) (hregistered : Registered storage name)

include hwf hregistered

theorem resolveOwnerFrom_root (hroot : parentName name = []) :
    FailsWhen (DeadOwner storage now (storage.names (nameHash name)))
      (resolveOwnerFrom storage now (remaining + 1) (nameHash name)) := by
  by_cases howned : OwnedByName (storage.names (nameHash name))
  · exact resolveOwnerFrom_owned hregistered howned
  have hkind : (storage.names (nameHash name)).semanticOwner.kind ≠ .bnsName := howned
  have hlen : (parentName (storage.names (nameHash name)).name).length = 0 := by
    rw [(hwf.stored name hregistered).name_eq, hroot, List.length_nil]
  refine ⟨fun hdead => absurd hdead.1 howned, fun _ => ?_⟩
  rw [resolveOwnerFrom, if_neg hregistered, if_neg hkind, if_pos hlen]
  exact ⟨_, rfl⟩

theorem resolveOwnerFrom_inherited (hname : validName name = true)
    (howned : ¬OwnedByName (storage.names (nameHash name))) (hpar : parentName name ≠ []) :
    FailsWhen (DeadParent storage now name)
      (resolveOwnerFrom storage now (remaining + 2) (nameHash name)) := by
  have hstored := hwf.stored name hregistered
  have hkind : (storage.names (nameHash name)).semanticOwner.kind ≠ .bnsName := howned
  have hlen : (parentName (storage.names (nameHash name)).name).length ≠ 0 := by
    rwa [hstored.name_eq, ne_eq, List.length_eq_zero_iff]
  have hroot : FailsWhen (DeadOwner storage now (storage.names (nameHash (parentName name))))
      (resolveOwnerFrom storage now (remaining + 1) (nameHash (parentName name))) :=
    resolveOwnerFrom_root hwf (hstored.parent hpar) (parentName_parentName hname)
  rw [resolveOwnerFrom, if_neg hregistered, if_neg hkind, if_neg hlen, hstored.name_eq]
  dsimp only
  constructor
  · rintro ⟨-, -, hinactive | hdead⟩
    · exact if_pos hinactive
    · rw [hroot.fails hdead]
      exact ite_self _
  · intro halive
    rw [if_neg fun hinactive => halive ⟨howned, hpar, .inl hinactive⟩]
    obtain ⟨owner, howner⟩ := hroot.answers fun hdead => halive ⟨howned, hpar, .inr hdead⟩
    rw [howner]
    exact ⟨_, rfl⟩

theorem resolveOwner_failsWhen (hname : validName name = true) :
    FailsWhen (Unsigned storage now name)
      (BnsStorage.resolveOwner storage now (nameHash name)) := by
  by_cases howned : OwnedByName (storage.names (nameHash name))
  · have hresol : FailsWhen _ (BnsStorage.resolveOwner storage now (nameHash name)) :=
      resolveOwnerFrom_owned hregistered howned
    exact ⟨fun huns => hresol.fails (huns.resolve_right fun hdead =>
      hdead.1 howned), fun hsign => hresol.answers fun hdead => hsign (.inl hdead)⟩
  by_cases hpar : parentName name = []
  · have hresol : FailsWhen _ (BnsStorage.resolveOwner storage now (nameHash name)) :=
      resolveOwnerFrom_root hwf hregistered hpar
    exact ⟨fun huns => hresol.fails (huns.resolve_right fun hdead =>
      hdead.2.1 hpar), fun hsign => hresol.answers fun hdead => hsign (.inl hdead)⟩
  · have hresol : FailsWhen _ (BnsStorage.resolveOwner storage now (nameHash name)) :=
      resolveOwnerFrom_inherited hwf hregistered hname howned hpar
    exact ⟨fun huns => hresol.fails (huns.resolve_left fun hdead =>
      howned hdead.1), fun hsign => hresol.answers fun hdead => hsign (.inr hdead)⟩

end Owners

end Resolution

/-! ## Queries -/

section Queries

variable {storage : Storage} {name : Bytes}

section Named

variable (hwf : WellFormed storage) (hname : validName name = true)

include hwf hname

theorem materializeNameState_failsWhen (hregistered : Registered storage name) :
    FailsWhen (Unsigned storage now name)
      (materializeNameState storage now (storage.names (nameHash name))) := by
  have howner : FailsWhen _ (BnsStorage.resolveOwner storage now (nameHash name)) :=
    resolveOwner_failsWhen hwf hregistered hname
  simp only [materializeNameState, (hwf.stored name hregistered).name_eq]
  constructor
  · intro huns
    rw [howner.fails huns]
  · intro hsign
    obtain ⟨owner, hresolved⟩ := howner.answers hsign
    rw [hresolved]
    exact ⟨_, rfl⟩

theorem queryNameState_failsWhen : FailsWhen (Registered storage name ∧ Unsigned storage now name)
      (queryNameState storage now name) := by
  have hvalid : validateName name = .ok (nameHash name) := validateName_ok_iff.mpr ⟨hname, rfl⟩
  have hquery : queryNameState storage now name =
      if (storage.names (nameHash name)).status = .available then
        pure { name, status := .available }
      else materializeNameState storage now (storage.names (nameHash name)) := by
    rw [queryNameState, hvalid]
    rfl
  rw [hquery]
  by_cases hregistered : Registered storage name
  · have hstate : FailsWhen _ (materializeNameState storage now (storage.names (nameHash name))) :=
      materializeNameState_failsWhen hwf hname hregistered
    rw [if_neg hregistered]
    exact ⟨fun hdead => hstate.fails hdead.2,
      fun halive => hstate.answers fun huns => halive ⟨hregistered, huns⟩⟩
  · have havailable : (storage.names (nameHash name)).status = .available := not_not.mp hregistered
    rw [if_pos havailable]
    exact ⟨fun hdead => absurd hdead.1 hregistered, fun _ => ⟨_, rfl⟩⟩

theorem resolveDocument_failsWhen (hregistered : Registered storage name)
    (hdoc : validDocType docType = true) :
    FailsWhen (Unsigned storage now name)
      (BnsResolver.resolveDocument storage now name docType) := by
  have hvalid : validateName name = .ok (nameHash name) := validateName_ok_iff.mpr ⟨hname, rfl⟩
  have htype : validateDocType docType = .ok (.keccak256 docType) :=
    validateDocType_ok_iff.mpr ⟨hdoc, rfl⟩
  have hexists : requireExistingName storage (nameHash name) name = .ok () := if_neg hregistered
  have hstate : FailsWhen _ (materializeNameState storage now (storage.names (nameHash name))) :=
    materializeNameState_failsWhen hwf hname hregistered
  simp only [resolveDocument, bind, Except.bind, hvalid, htype, hexists]
  constructor
  · intro huns
    rw [hstate.fails huns]
  · intro hsign
    obtain ⟨state, hmaterialized⟩ := hstate.answers hsign
    obtain ⟨owner, hresolved⟩ := (resolveOwner_failsWhen hwf hregistered hname).answers hsign
    rw [hmaterialized, hresolved]
    dsimp only
    split
    · exact ⟨_, rfl⟩
    · exact ⟨_, rfl⟩

end Named

end Queries

/-- On every reachable storage and at every time, the queries about a valid name
answer, except that both fail with `NoConcreteSigner` for a registered name
nobody can sign for. -/
theorem queries_answer_unless_unsigned {chain : Deployment} {storage : Storage}
    (hreach : Reachable chain storage) (now : UInt64) {name : Bytes}
    (hname : validName name = true) :
    FailsWhen (Registered storage name ∧ Unsigned storage now name)
      (queryNameState storage now name) ∧
    (Registered storage name → ∀ docType, validDocType docType = true →
      FailsWhen (Unsigned storage now name)
        (BnsResolver.resolveDocument storage now name docType)) := by
  have hwf := wellFormed_of_reachable hreach
  exact ⟨queryNameState_failsWhen hwf hname, fun hregistered docType hdoc =>
      resolveDocument_failsWhen hwf hname hregistered hdoc⟩

/-- Nobody can sign for alice once bob is gone, and the query says so. -/
theorem queries_answer_unless_unsigned_abandoned : Reachable sampleChain orphanedStorage ∧
      Unsigned orphanedStorage 7 (text "alice") ∧
      queryNameState orphanedStorage 7 (text "alice") = .error .noConcreteSigner := by
  have hreach : Reachable sampleChain orphanedStorage := reachable_commitAll _ _
  have howned : (orphanedStorage.names (nameHash (text "alice"))).semanticOwner.kind =
      .bnsName := by decide +kernel
  have huns : Unsigned orphanedStorage 7 (text "alice") := by
    refine .inl ⟨howned, ?_, .inl ?_⟩ <;> decide +kernel
  have hregistered : (orphanedStorage.names (nameHash (text "alice"))).status ≠
      .available := by decide +kernel
  refine ⟨hreach, huns, ?_⟩
  apply (queries_answer_unless_unsigned hreach 7 (by decide)).1.fails
  exact ⟨hregistered, huns⟩

/-- A registered name may stop being queryable. -/
theorem not_all_queries_answer :
    ¬∀ (chain : Deployment) (storage : Storage), Reachable chain storage →
      ∀ (now : UInt64) (name : Bytes), validName name = true →
        ∃ state, queryNameState storage now name = .ok state := by
  intro hanswers
  have hreach : Reachable sampleChain orphanedStorage := reachable_commitAll _ _
  obtain ⟨state, hstate⟩ := hanswers sampleChain _ hreach 7 (text "alice") (by decide)
  have hfails : queryNameState orphanedStorage 7 (text "alice") = .error .noConcreteSigner := by
    decide +kernel
  cases hstate

end CyfsGateway.BnsQueries
