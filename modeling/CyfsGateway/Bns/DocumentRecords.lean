import CyfsGateway.Bns.WellFormed
import CyfsGateway.Core.Chronicles

/-!
# Document records

The versions of a document type of a name form one chronicle over the whole
life of the name.  A registration closes the period of the earlier lineage,
publications and revocations add entries, and a new payment target amends the
current entry.
-/

namespace CyfsGateway.BnsDocumentRecords

open Evm Chronicles BnsTypes BnsValidation BnsStorage BnsCore BnsFacets BnsEffects BnsFrames
  BnsRuns BnsWellFormed Effect Chronicle

/-! ## The chronicle of a document type -/

def documentCount (storage : Storage) (name docType : Bytes) : UInt64 :=
  storage.currentDocumentVersions (nameHash name) (.keccak256 docType)

def documentPointer (storage : Storage) (name docType : Bytes) : UInt64 :=
  currentVersion storage (nameHash name) (.keccak256 docType)

def documentAt (storage : Storage) (name docType : Bytes) (version : UInt64) :
    DocumentState := storage.documents (nameHash name) (.keccak256 docType) version

structure StoredAs (name docType : Bytes) (version : Nat) (document : DocumentState) : Prop where
  version : document.version.toNat = version
  name : document.name = name
  docType : document.docType = docType

/-- The storage holds the documents of a chronicle: the count is that of all periods, the
pointer is that of the current one, and every version in it points to the one before. -/
structure Records (storage : Storage) (name docType : Bytes)
    (chronicle : Chronicle DocumentState) : Prop where
  count : (documentCount storage name docType).toNat = chronicle.entries.length
  pointer : (documentPointer storage name docType).toNat = chronicle.current
  documents : ∀ version,
    documentAt storage name docType version = (chronicle.lookup version.toNat).getD {}
  indexed : chronicle.Indexed (StoredAs name docType)
  linked : chronicle.Linked (·.previousVersion.toNat)

theorem records_initial (name docType : Bytes) : Records .initial name docType {} where
  count := rfl
  pointer := rfl
  documents version := by
    rw [lookup_eq_none_iff.mpr]
    · rfl
    · exact (Nat.eq_zero_or_pos _)
  indexed := indexed_empty
  linked := linked_empty

def record (chain : Deployment) (name docType : Bytes)
    (chronicle : Chronicle DocumentState) (effect : Effect) : Chronicle DocumentState :=
  match effect with
  | .register registered _ => if registered = name then chronicle.restart else chronicle
  | .addDocument hash docTypeHash document =>
    if hash = nameHash name ∧ docTypeHash = .keccak256 docType then
      chronicle.add document
    else chronicle
  | .repriceDocument hash docTypeHash terms =>
    if hash = nameHash name ∧ docTypeHash = .keccak256 docType then
      chronicle.amend (repricedDocument chain terms)
    else chronicle
  | _ => chronicle

/-! ## Effects record -/

theorem versions_appendDocument {hash docTypeHash document} (key other : Digest) :
    (appendDocument hash docTypeHash document storage).currentDocumentVersions key other =
      if other = docTypeHash ∧ (key = hash ∨ key = lineageStateKey storage hash) then
        document.version
      else storage.currentDocumentVersions key other := by
  simp only [appendDocument, putDocument, setCurrentVersion]
  by_cases hother : other = docTypeHash <;> by_cases hhash : key = hash <;>
    by_cases hkey : key = lineageStateKey storage hash <;> split <;>
    simp_all

theorem versions_register (chain : Deployment) {name state} (key : Digest)
    (hne : docTypeHash ≠ lineageStateMarker) :
    ((register name state).write chain storage).currentDocumentVersions key docTypeHash =
      storage.currentDocumentVersions key docTypeHash := by
  have hremember : (rememberNameHash (nameHash name) storage).currentDocumentVersions =
      storage.currentDocumentVersions := by
    simp only [rememberNameHash]
    split <;> rfl
  simp only [write, activateLineageState, updateName]
  split
  · rw [hremember]
  · simp only [hremember]
    by_cases hkey : key = lineageKey (nameHash name) state.lineageEpoch <;>
      simp [hkey, hne]

section Step

variable {chain : Deployment} {msg : Message} {before after : Machine} {name : Bytes}

theorem Records.frame {storage other} (hrecs : Records storage name docType chronicle)
    (hkey : lineageStateKey other (nameHash name) = lineageStateKey storage (nameHash name))
    (hvers : ∀ key, Owns (nameHash name) key →
      other.currentDocumentVersions key (.keccak256 docType) =
        storage.currentDocumentVersions key (.keccak256 docType))
    (hdocs : other.documents (nameHash name) (.keccak256 docType) =
      storage.documents (nameHash name) (.keccak256 docType)) :
    Records other name docType chronicle where
  count := by rw [← hrecs.count, documentCount, hvers _ (.inl rfl), documentCount]
  pointer := by
    rw [← hrecs.pointer, documentPointer, documentPointer, currentVersion,
      currentVersion, hkey, hvers _ (owns_lineageStateKey storage _)]
  documents version := by rw [← hrecs.documents, documentAt, documentAt, hdocs]
  indexed := hrecs.indexed
  linked := hrecs.linked

theorem Records.of_sameName {storage other} (hrecs : Records storage name docType chronicle)
    (hsame : SameName (nameHash name) storage other) :
    Records other name docType chronicle := by
  refine hrecs.frame hsame.lineageStateKey_eq (fun key howns => ?_) ?_
  · exact congrFun (congrArg LineageSlots.currentDocumentVersions (hsame.slots key howns)) _
  · rw [hsame.documents]

section Registrations

variable {state : NameState} (hwf : WellFormed before.storage)
  (hlive : LiveStep chain msg before (.register name state) after)

include hwf hlive

theorem slots_registered :
    lineageSlots before.storage (lineageStateKey after.storage (nameHash name)) = {} := by
  have hafter := wellFormed_step hlive hwf
  obtain ⟨hepoch, ⟨hunregistered, -⟩ | ⟨-, hnext⟩⟩ := epoch_register hwf hlive.1
  · exact (hwf.unregistered name hunregistered).2.2 _ (owns_lineageStateKey _ _)
  have hlater : epoch before.storage name < epoch after.storage name := by
    rw [hepoch, UInt64.lt_iff_toNat_lt]
    omega
  rw [hafter.lineageStateKey_eq, if_neg]
  · exact hwf.future name _ hlater
  · intro hzero
    rw [hzero] at hlater
    exact absurd hlater UInt64.not_lt_zero

theorem records_register (hdoc : validDocType docType = true)
    (hrecs : Records before.storage name docType chronicle) :
    Records after.storage name docType chronicle.restart := by
  have hslots := slots_registered hwf hlive
  have hvers : ∀ key, after.storage.currentDocumentVersions key (.keccak256 docType) =
      before.storage.currentDocumentVersions key (.keccak256 docType) := by
    intro key
    rw [hlive.1.2]
    exact versions_register chain key (docType_ne_marker hdoc)
  refine ⟨?_, ?_, ?_, hrecs.indexed.restart, Linked.restart⟩
  · rw [entries_restart, ← hrecs.count, documentCount, hvers, documentCount]
  · have hempty := congrFun (congrArg LineageSlots.currentDocumentVersions hslots)
      (.keccak256 docType)
    rw [documentPointer, currentVersion, hvers, current_restart]
    exact congrArg UInt64.toNat hempty
  · intro version
    rw [lookup, entries_restart]
    refine Eq.trans ?_ (hrecs.documents version)
    rw [hlive.1.2]
    simp [documentAt, perform, write, updateName]

end Registrations

theorem records_addDocument {document} (hstep : Step chain msg before
      (.addDocument (nameHash name) (.keccak256 docType) document) after)
    (hrecs : Records before.storage name docType chronicle) :
    Records after.storage name docType (chronicle.add document) := by
  have hkey : lineageStateKey after.storage (nameHash name) =
      lineageStateKey before.storage (nameHash name) := lineageStateKey_step hstep (by simp)
  obtain ⟨⟨hname, htype, -, hver, hprev, -⟩, rfl⟩ := hstep
  have hnext : document.version.toNat = chronicle.entries.length + 1 := by
    rw [hver, ← hrecs.count, documentCount]
  have hstored : StoredAs name docType (chronicle.entries.length + 1) document :=
    ⟨hnext, by simpa [nameHash, eq_comm] using hname, by simpa [eq_comm] using htype⟩
  refine ⟨?_, ?_, ?_, hrecs.indexed.add hstored, hrecs.linked.add ?_⟩
  · rw [documentCount, perform, write, versions_appendDocument,
      if_pos ⟨rfl, .inl rfl⟩, hnext, entries_add, List.length_append,
      List.length_singleton]
  · rw [documentPointer, currentVersion, hkey, perform, write,
      versions_appendDocument, if_pos ⟨rfl, .inr rfl⟩, hnext, current_add]
  · intro version
    have hhere : version = document.version ↔ version.toNat = chronicle.entries.length + 1 := by
      rw [← hnext, UInt64.toNat_inj]
    rw [lookup_add, documentAt, perform, write, documents_appendDocument]
    by_cases heq : version = document.version
    · rw [if_pos (hhere.mp heq), heq]
      simp [putDocument]
    · rw [if_neg (mt hhere.mpr heq), ← hrecs.documents, documentAt]
      simp [putDocument, heq]
  · rw [hprev, ← hrecs.pointer, documentPointer]

theorem records_repriceDocument {terms} (hstep : Step chain msg before
      (.repriceDocument (nameHash name) (.keccak256 docType) terms) after)
    (hrecs : Records before.storage name docType chronicle) :
    Records after.storage name docType (chronicle.amend (repricedDocument chain terms)) := by
  have hkey : lineageStateKey after.storage (nameHash name) =
      lineageStateKey before.storage (nameHash name) := lineageStateKey_step hstep (by simp)
  obtain ⟨⟨-, hcur, -⟩, rfl⟩ := hstep
  refine ⟨?_, ?_, ?_, hrecs.indexed.amend ?_, hrecs.linked.amend fun _ => rfl⟩
  · rw [length_entries_amend, ← hrecs.count]
    rfl
  · rw [current_amend, ← hrecs.pointer, documentPointer, currentVersion, hkey]
    rfl
  · intro version
    have hhere : version = currentVersion before.storage (nameHash name)
        (.keccak256 docType) ↔ version.toNat = chronicle.current := by
      rw [← hrecs.pointer, documentPointer, UInt64.toNat_inj]
    have hsame := hrecs.documents version
    rw [documentAt] at hsame
    rw [lookup_amend, documentAt, perform, write]
    by_cases heq : version = currentVersion before.storage (nameHash name) (.keccak256 docType)
    · have hpos : chronicle.current ≠ 0 := by
        rw [← hhere.mp heq]
        exact fun hzero => hcur (heq ▸ UInt64.toNat_inj.mp hzero)
      obtain ⟨document, hdocument⟩ := lookup_current hpos
      rw [if_pos (hhere.mp heq), hhere.mp heq, hdocument, Option.map_some, Option.getD_some]
      rw [hhere.mp heq, hdocument, Option.getD_some] at hsame
      rw [← heq, hsame]
      simp [putDocument]
    · rw [if_neg (mt hhere.mpr heq), ← hsame]
      simp [putDocument, heq]
  · intro position entry hentry
    exact ⟨hentry.version, hentry.name, hentry.docType⟩

theorem record_of_target_ne (htgt : effect.target ≠ some (nameHash name)) :
    record chain name docType chronicle effect = chronicle := by
  cases effect with
  | register registered state => exact if_neg fun heq => htgt (by rw [heq, target])
  | addDocument | repriceDocument => exact if_neg fun heq => htgt (by rw [target, heq.1])
  | _ => rfl

/-- Every effect does to the documents what it does to their chronicle. -/
theorem records_step (hwf : WellFormed before.storage)
    (hlive : LiveStep chain msg before effect after) (hdoc : validDocType docType = true)
    (hrecs : Records before.storage name docType chronicle) :
    Records after.storage name docType (record chain name docType chronicle effect) := by
  by_cases htgt : effect.target = some (nameHash name)
  case neg =>
    rw [record_of_target_ne htgt, hlive.1.2]
    refine hrecs.of_sameName (sameName_write fun hash hhash => ?_)
    obtain ⟨other, rfl, -⟩ := hlive.2 hash hhash
    exact ⟨other, fun heq => htgt (heq ▸ hhash), rfl⟩
  have hkey : (∀ state, effect ≠ .register name state) →
      lineageStateKey after.storage (nameHash name) =
        lineageStateKey before.storage (nameHash name) := lineageStateKey_step hlive.1
  cases effect <;> simp only [target, Option.some.injEq, reduceCtorEq] at htgt
  case register registered state =>
    obtain rfl : name = registered := by simpa [nameHash, eq_comm] using htgt
    rw [record, if_pos rfl]
    exact records_register hwf hlive hdoc hrecs
  case addDocument hash docTypeHash document =>
    subst htgt
    by_cases htype : docTypeHash = .keccak256 docType
    · subst htype
      rw [record, if_pos ⟨rfl, rfl⟩]
      exact records_addDocument hlive.1 hrecs
    · rw [record, if_neg fun heq => htype heq.2]
      refine hrecs.frame (hkey (by simp)) (fun key _ => ?_) ?_ <;>
        rw [hlive.1.2, perform, write]
      · rw [versions_appendDocument, if_neg fun heq => htype heq.1.symm]
      · rw [documents_appendDocument]
        simp [putDocument, Ne.symm htype]
  case repriceDocument hash docTypeHash terms =>
    subst htgt
    by_cases htype : docTypeHash = .keccak256 docType
    · subst htype
      rw [record, if_pos ⟨rfl, rfl⟩]
      exact records_repriceDocument hlive.1 hrecs
    · rw [record, if_neg fun heq => htype heq.2]
      refine hrecs.frame (hkey (by simp)) (fun key _ => ?_) ?_ <;>
        rw [hlive.1.2, perform, write]
      · rfl
      · simp [putDocument, Ne.symm htype]
  case putKey hash update =>
    refine hrecs.frame (hkey (by simp)) (fun key _ => ?_) ?_ <;>
      rw [hlive.1.2, perform, write]
    · rw [putAuthorityKey_versions]
    · rw [documents_putAuthorityKey]
  all_goals
    refine hrecs.frame (hkey (by simp)) (fun key _ => ?_) ?_ <;>
      rw [hlive.1.2] <;> rfl

end Step

theorem exists_records {chain docType} (hreach : Reachable chain storage)
    (hdoc : validDocType docType = true) (name : Bytes) :
    ∃ chronicle, Records storage name docType chronicle := by
  have hboth : WellFormed storage ∧ ∃ chronicle, Records storage name docType chronicle := by
    refine hreach.invariant (fun state =>
      WellFormed state ∧ ∃ chronicle, Records state name docType chronicle) ?_
      ⟨wellFormed_initial, {}, records_initial name docType⟩
    rintro msg before effect after hlive ⟨hwf, chronicle, hrecs⟩
    exact ⟨wellFormed_step hlive hwf, _, records_step hwf hlive hdoc hrecs⟩
  exact hboth.2

end CyfsGateway.BnsDocumentRecords
