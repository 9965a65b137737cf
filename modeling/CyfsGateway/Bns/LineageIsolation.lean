import CyfsGateway.Bns.DocumentHistory
import CyfsGateway.Bns.Views

/-!
# Lineage isolation

A name that was released and registered again starts a new lineage on untouched
slots.  What the contract reads for the name afterwards was written by the
registration that started the lineage or later, and whatever an earlier lineage
left behind decides nothing.
-/

namespace CyfsGateway.BnsLineageIsolation

open Evm Transition BnsTypes BnsValidation BnsStorage BnsCore BnsFacets BnsEffects BnsCalls
  BnsFrames BnsRuns BnsWellFormed BnsLineages BnsDocumentRecords BnsDocumentHistory BnsViews
  BnsResolver

/-! ## What an earlier lineage leaves behind -/

/-- Two storages that differ at most in what earlier lineages of `name` left
behind: the slots of lineages other than the live one, and the documents of
`name` that were stored when the live lineage started. -/
structure HidesEarlier (name : Bytes) (start storage other : Storage) : Prop where
  names : other.names = storage.names
  slots : ∀ key, ¬Owns (nameHash name) key ∨ key = lineageStateKey storage (nameHash name) →
    lineageSlots other key = lineageSlots storage key
  documents : ∀ hash docTypeHash version,
    hash ≠ nameHash name ∨ start.documents hash docTypeHash version = {} →
    other.documents hash docTypeHash version = storage.documents hash docTypeHash version
  logRoot : other.currentLogRoot = storage.currentLogRoot

section Hidden

variable {name : Bytes} {start storage other : Storage}
  (hhides : HidesEarlier name start storage other) (hwf : WellFormed storage)

include hhides hwf

theorem HidesEarlier.agreeOn (consulted : Bytes) : AgreeOn storage other consulted := by
  have hlive : lineageSlots other (lineageStateKey storage (nameHash consulted)) =
      lineageSlots storage (lineageStateKey storage (nameHash consulted)) := by
    apply hhides.slots
    by_cases hname : consulted = name
    · exact .inr (by rw [hname])
    · exact .inl (not_owns_of_ne hname (owns_lineageStateKey storage _))
  refine ⟨by rw [hhides.names], lineageStateKey_congr (by rw [hhides.names]) ?_, hlive⟩
  intro (hepoch : epoch storage consulted ≠ 0)
  rw [hwf.lineageStateKey_eq, if_neg hepoch] at hlive
  exact congrFun (congrArg LineageSlots.currentDocumentVersions hlive) lineageStateMarker

structure SameAnswers (name : Bytes) (storage other : Storage) : Prop where
  getAuthoritySet : getAuthoritySet other name = getAuthoritySet storage name
  getAuthorityKey : ∀ kid, getAuthorityKey other name kid = getAuthorityKey storage name kid
  resolveDocument : ∀ now docType, resolveDocument other now name docType =
      resolveDocument storage now name docType
  getPurchaseContext : ∀ now docType, getPurchaseContext other now name docType =
      getPurchaseContext storage now name docType
  getAlias : getAlias other name = getAlias storage name
  authorizeOwner : ∀ msg authority,
    BnsStorage.authorizeOwner other msg (nameHash name) name authority =
      BnsStorage.authorizeOwner storage msg (nameHash name) name authority
  authorizeUpdate : ∀ msg docType permission operation authority guard,
    BnsStorage.authorizeUpdate other msg (nameHash name) name docType permission operation
        authority guard =
      BnsStorage.authorizeUpdate storage msg (nameHash name) name docType permission
        operation authority guard
  authorizeMutations : ∀ msg updates documents policy authority,
    BnsFacets.authorizeMutations other msg (nameHash name) name updates documents policy authority =
      BnsFacets.authorizeMutations storage msg (nameHash name) name updates documents policy
        authority

theorem HidesEarlier.materializeNameState_eq (now : UInt64) (state : NameState) :
    materializeNameState other now state = materializeNameState storage now state := by
  have howner : resolveOwner other now (nameHash state.name) =
      resolveOwner storage now (nameHash state.name) :=
    resolveOwner_congr fun consulted _ => hhides.agreeOn hwf consulted
  simp only [materializeNameState, howner]

/-- Storages that differ only in what earlier lineages of a name left behind
give the same answers about it, as no current pointer leads to an earlier
lineage. -/
theorem HidesEarlier.sameAnswers (hcurrent : ∀ docType, validDocType docType = true →
      documentPointer storage name docType ≠ 0 →
      documentAt start name docType (documentPointer storage name docType) = {}) :
    SameAnswers name storage other := by
  have hagree := hhides.agreeOn hwf
  have hself := hagree name
  have hdocument : ∀ docType, validDocType docType = true →
      storage.currentDocumentVersions (lineageStateKey storage (nameHash name))
        (.keccak256 docType) ≠ 0 →
      other.documents (nameHash name) (.keccak256 docType)
          (storage.currentDocumentVersions (lineageStateKey storage (nameHash name))
            (.keccak256 docType)) =
        storage.documents (nameHash name) (.keccak256 docType)
          (storage.currentDocumentVersions (lineageStateKey storage (nameHash name))
            (.keccak256 docType)) :=
    fun docType hvalid hpointer => hhides.documents _ _ _ (.inr (hcurrent docType hvalid hpointer))
  have hupdate : ∀ msg docType permission operation authority,
      authorizeUpdateNoGuard other msg (nameHash name) name docType permission operation authority =
        authorizeUpdateNoGuard storage msg (nameHash name) name docType permission
          operation authority :=
    fun msg docType permission operation authority => authorizeUpdateNoGuard_congr
      (fun consulted _ => hagree consulted) (fun rule _ _ => hagree rule.controller.value)
  have howner : ∀ msg authority, authorizeOwner other msg (nameHash name) name authority =
        authorizeOwner storage msg (nameHash name) name authority :=
    fun msg authority => authorizeOwner_congr fun consulted _ => hagree consulted
  constructor
  case getAuthoritySet =>
    refine validateName_bind_congr ?_
    rw [hself.authoritySet]
  case getAuthorityKey =>
    intro kid
    refine validateName_bind_congr ?_
    rw [hself.authorityKeys]
  case getAlias =>
    refine validateName_bind_congr ?_
    rw [hself.aliasState]
  case getPurchaseContext =>
    intro now docType
    refine validateName_bind_congr (validateDocType_bind_congr fun hvalid => ?_)
    simp only [hself.currentDocumentVersions, hself.names, hhides.logRoot]
    split
    · rfl
    · rename_i hpointer
      rw [hdocument docType hvalid hpointer]
  case resolveDocument =>
    intro now docType
    refine validateName_bind_congr (validateDocType_bind_congr fun hvalid => ?_)
    have hresol : resolveOwner other now (nameHash name) =
        resolveOwner storage now (nameHash name) :=
      resolveOwner_congr fun consulted _ => hagree consulted
    simp only [requireExistingName, hself.currentDocumentVersions, hself.aliasState,
      hself.names, hhides.materializeNameState_eq hwf, hresol, hhides.logRoot]
    by_cases hpointer : storage.currentDocumentVersions
        (lineageStateKey storage (nameHash name)) (.keccak256 docType) = 0
    · simp only [hpointer, if_true]
    · simp only [hpointer, if_false, hdocument docType hvalid hpointer]
  case authorizeOwner => exact howner
  case authorizeUpdate =>
    intro msg docType permission operation authority guard
    simp only [authorizeUpdate, hself.names, hupdate]
  case authorizeMutations =>
    intro msg updates documents policy authority
    simp only [authorizeMutations, howner, hupdate]

end Hidden

/-! ## Isolation -/

/-- What `read` gives in `storage` was written in the run from `start`: one of
its attempts changed it to what it is now. -/
def WrittenSince {Value : Type} (chain : Deployment) (start : Storage) (attempts : List Attempt)
    (storage : Storage) (read : Storage → Value) : Prop :=
  ∃ since attempt rest before after, attempts = since ++ attempt :: rest ∧
    Run chain start since before ∧ AttemptStep chain before attempt after ∧
    Run chain after rest storage ∧ read before ≠ read storage ∧ read after = read storage

/-- A version above those stored when the lineage started was not stored then. -/
theorem current_not_earlier
    (hstarted : Started chain name attempts storage earlier registration later start begun)
    (hdoc : validDocType docType = true) (hpointer : documentPointer storage name docType ≠ 0) :
    documentAt start name docType (documentPointer storage name docType) = {} ∧
      documentAt storage name docType (documentPointer storage name docType) ≠ {} := by
  have hlive := (liveHistory_of_started hstarted hdoc).pointer.resolve_left hpointer
  have hreach : Reachable chain storage := ⟨_, hstarted.before.append hstarted.run⟩
  obtain ⟨old, hold⟩ := exists_records ⟨_, hstarted.before⟩ hdoc name
  obtain ⟨chronicle, hrecords⟩ := exists_records hreach hdoc name
  constructor
  · by_contra hstored
    have hcounted := ((storedVersions_of_records hold).stored_iff _).mp hstored
    exact absurd hlive.1 (UInt64.not_lt.mpr hcounted.2)
  · rw [(storedVersions_of_records hrecords).stored_iff]
    exact ⟨UInt64.pos_iff_ne_zero.mpr hpointer, hlive.2⟩

/-- In every run that leaves a name in a lineage after its first: the run holds
the registration that started the lineage, and the slots of the lineage were
empty at that point.  Every component of them, and every document that a current
pointer names, was given its value by that registration or a later attempt.  No
answer about the name depends on what an earlier lineage stored. -/
theorem lineage_isolated {chain : Deployment} {attempts : List Attempt}
    {storage : Storage} {name : Bytes} (hrun : Run chain .initial attempts storage)
    (hlater : epoch storage name ≠ 0) :
    ∃ earlier registration later start begun,
      Started chain name attempts storage earlier registration later start begun ∧
      lineageSlots start (lineageStateKey storage (nameHash name)) = {} ∧
      (∀ {Value : Type} (component : LineageSlots → Value),
        component (lineageSlots storage (lineageStateKey storage (nameHash name))) ≠ component {} →
        WrittenSince chain start (registration :: later) storage fun state =>
          component (lineageSlots state (lineageStateKey storage (nameHash name)))) ∧
      (∀ docType, validDocType docType = true → documentPointer storage name docType ≠ 0 →
        documentAt start name docType (documentPointer storage name docType) = {} ∧
        WrittenSince chain start (registration :: later) storage fun state =>
          documentAt state name docType (documentPointer storage name docType)) ∧
      ∀ other, HidesEarlier name start storage other → SameAnswers name storage other := by
  obtain ⟨earlier, registration, later, start, begun, hstart⟩ :=
    exists_started hrun (registered_of_epoch_ne (wellFormed_of_reachable ⟨attempts, hrun⟩) hlater)
  have hempty := hstart.slots_empty hlater
  refine ⟨earlier, registration, later, start, begun, hstart, hempty, ?_, ?_, ?_⟩
  · intro Value component hwritten
    refine hstart.run.exists_last_change (fun state =>
      component (lineageSlots state (lineageStateKey storage (nameHash name)))) ?_
    simp only [hempty]
    exact Ne.symm hwritten
  · intro docType hdoc hpointer
    obtain ⟨hnew, hstored⟩ := current_not_earlier hstart hdoc hpointer
    refine ⟨hnew, hstart.run.exists_last_change (fun state =>
      documentAt state name docType (documentPointer storage name docType)) ?_⟩
    simp only [hnew]
    exact Ne.symm hstored
  · intro other hhides
    exact hhides.sameAnswers (wellFormed_of_reachable ⟨attempts, hrun⟩)
      fun docType hdoc hpointer => (current_not_earlier hstart hdoc hpointer).1

/-- A document in each of two lineages of alice. -/
def republished : List Attempt :=
  [sampleRegistration "alice" 7, samplePublication "alice" 7 1 0, sampleRelease "alice" 7 2,
    sampleRegistration "alice" 9, samplePublication "alice" 9 4 0]

/-- After the release and the registration with another key the old key is gone,
and the current version was published in the second lineage. -/
theorem lineage_isolated_reregistered :
    ∃ storage, Run sampleChain .initial republished storage ∧
      epoch storage (text "alice") = 1 ∧
      getAuthorityKey storage (text "alice") (.ofByte 7) = .ok {} ∧
      documentPointer storage (text "alice") (text "boot") = 2 ∧
      ∃ earlier registration later start begun,
        Started sampleChain (text "alice") republished storage earlier registration later start
          begun ∧
        WrittenSince sampleChain start (registration :: later) storage fun state =>
          documentAt state (text "alice") (text "boot")
            (documentPointer storage (text "alice") (text "boot")) := by
  have hrun : Run sampleChain .initial republished (commitAll sampleChain republished .initial) :=
    run_commitAll _ _ _
  have hepoch : epoch (commitAll sampleChain republished .initial) (text "alice") = 1 := by
    decide +kernel
  have hkey : getAuthorityKey (commitAll sampleChain republished .initial) (text "alice")
      (.ofByte 7) = .ok {} := by decide +kernel
  have hpointer : documentPointer (commitAll sampleChain republished .initial) (text "alice")
      (text "boot") = 2 := by decide +kernel
  obtain ⟨earlier, registration, later, start, begun, hstart, -, -, hdocuments, -⟩ :=
    lineage_isolated hrun (by rw [hepoch]; decide)
  have hwritten := (hdocuments (text "boot") (by decide) (by rw [hpointer]; decide)).2
  exact ⟨_, hrun, hepoch, hkey, hpointer, earlier, registration, later, start, begun, hstart,
    hwritten⟩

end CyfsGateway.BnsLineageIsolation
