import CyfsGateway.Bns.Announcements

/-!
# Integrity of stored documents

Every function that writes a document seals it: the state hash is taken last,
over the fields as they are.  The `owner` pointer of a name state lags behind
the version counters inside a publication; a call is made of blocks after each
of which the two agree again.
-/

namespace CyfsGateway.BnsIntegrity

open Evm Transition BnsTypes BnsValidation BnsStorage BnsCore BnsFacets BnsEffects BnsExecution
  BnsCalls BnsFrames BnsRuns BnsWellFormed BnsDocumentRecords BnsContents BnsCells
  BnsAnnouncements Effect

def Sealed (chain : Deployment) (document : DocumentState) : Prop :=
  document.documentStateHash = hashDocumentState chain document

theorem sealed_sealDocument (chain : Deployment) (document : DocumentState) :
    Sealed chain (sealDocument chain document) := rfl

variable {chain : Deployment} {msg : Message} {effects : List Effect} {name : Bytes}

theorem sealed_composed {msg slot document} (hcomp : Composed chain msg slot document) :
    Sealed chain document := by
  rcases hcomp with ⟨update, -, -, -, hdocument⟩ | hdocument
  · rw [hdocument]
    exact sealed_sealDocument chain _
  · rw [hdocument]
    exact sealed_sealDocument chain _

def AllSealed (chain : Deployment) (storage : Storage) : Prop :=
  ∀ hash docTypeHash version, storage.documents hash docTypeHash version = {} ∨
    Sealed chain (storage.documents hash docTypeHash version)

variable {storage : Storage}

theorem allSealed_putDocument {hash docTypeHash version document} (hsealed : Sealed chain document)
    (hall : AllSealed chain storage) :
    AllSealed chain (putDocument hash docTypeHash version document storage) := by
  intro other otherType written
  by_cases hhash : other = hash
  · subst hhash
    by_cases hslot : otherType = docTypeHash ∧ written = version
    · obtain ⟨rfl, rfl⟩ := hslot
      simp only [putDocument, Function.update_self]
      exact .inr hsealed
    · rw [documents_putDocument_of_slot_ne hslot]
      exact hall other otherType written
  · rw [documents_putDocument_of_ne hhash]
    exact hall other otherType written

theorem allSealed_step {msg before after effect} (hstep : Step chain msg before effect after)
    (hall : AllSealed chain before.storage) : AllSealed chain after.storage := by
  obtain ⟨hallow, rfl⟩ := hstep
  cases effect with
  | addDocument hash docTypeHash document =>
    obtain ⟨-, -, -, -, -, hcomp⟩ := hallow
    intro other otherType version
    rw [perform, write, documents_appendDocument]
    exact allSealed_putDocument (sealed_composed hcomp) hall other otherType version
  | repriceDocument hash docTypeHash terms =>
    exact allSealed_putDocument (sealed_sealDocument chain _) hall
  | register name state =>
    intro other otherType version
    simp only [perform, write, documents_activateLineageState, updateName,
      documents_rememberNameHash]
    exact hall other otherType version
  | putKey hash update =>
    intro other otherType version
    rw [perform, write, documents_putAuthorityKey]
    exact hall other otherType version
  | _ => exact hall

theorem allSealed_of_reachable
    (hreach : Reachable chain storage) : AllSealed chain storage :=
  hreach.invariant (AllSealed chain) (fun hlive => allSealed_step hlive.1) fun _ _ _ => .inl rfl

def ownerVersion (storage : Storage) (name : Bytes) : UInt64 :=
  (storage.names (nameHash name)).ownerDocumentVersion

/-- The recorded version is the one the live lineage points at. -/
def OwnerAgrees (name : Bytes) (storage : Storage) : Prop :=
  ownerVersion storage name = documentPointer storage name ownerDocType

def Quiet : Effect → Prop
  | .addDocument .. | .register .. => False
  | .editName _ change => ∀ state, (change state).ownerDocumentVersion = state.ownerDocumentVersion
  | _ => True

section Blocks

variable {machine after : Machine} {effect : Effect}

theorem ownerVersion_step (hlive : LiveStep chain msg machine effect after)
    (hquiet : Quiet effect) (name : Bytes) :
    ownerVersion after.storage name = ownerVersion machine.storage name := by
  obtain ⟨-, rfl⟩ := hlive.1
  rw [ownerVersion, ownerVersion, perform, names_write]
  split
  case isFalse => rfl
  case isTrue =>
    cases effect with
    | register | addDocument => exact hquiet.elim
    | editName => exact hquiet _
    | _ => rfl

theorem agrees_quiet (hlive : LiveStep chain msg machine effect after)
    (hquiet : Quiet effect) (hagrees : OwnerAgrees name machine.storage) :
    OwnerAgrees name after.storage := by
  have hptr : (Cell.pointer name ownerDocType).Same machine.storage after.storage := by
    apply same_step hlive
    cases effect <;> simp_all [Changes, Quiet]
  rw [OwnerAgrees, ownerVersion_step hlive hquiet name, hptr]
  exact hagrees

theorem agrees_quiet_trace (hquiet : ∀ effect ∈ effects, Quiet effect)
    (htrace : Trace (LiveStep chain msg) machine effects after)
    (hagrees : OwnerAgrees name machine.storage) : OwnerAgrees name after.storage :=
  htrace.preserves (fun state => OwnerAgrees name state.storage)
    (fun effect heff _ _ hstep => agrees_quiet hstep (hquiet effect heff)) hagrees

variable {document : DocumentState}

theorem ownerVersion_addDocument {hash docTypeHash}
    (hlive : LiveStep chain msg machine (.addDocument hash docTypeHash document) after) :
    ownerVersion after.storage name = ownerVersion machine.storage name := by
  obtain ⟨-, rfl⟩ := hlive.1
  rw [ownerVersion, ownerVersion, perform, write, names_appendDocument]

theorem agrees_ownerDocument (hadd : LiveStep chain msg machine
      (.addDocument (nameHash name) (.keccak256 ownerDocType) document) added)
    (hedit : LiveStep chain msg added (.editName (nameHash name) fun state =>
      { state with ownerDocumentVersion := document.version }) after) :
    OwnerAgrees name after.storage := by
  have hptr : (Cell.pointer name ownerDocType).Same added.storage after.storage :=
    same_step hedit id
  rw [OwnerAgrees, hptr, documentPointer_addDocument hadd]
  obtain ⟨-, rfl⟩ := hedit.1
  rw [ownerVersion, perform, write, names_updateName_self]

theorem agrees_otherDocument {docType} (hother : docType ≠ ownerDocType)
    (hadd : LiveStep chain msg machine
      (.addDocument (nameHash name) (.keccak256 docType) document) after)
    (hagrees : OwnerAgrees name machine.storage) : OwnerAgrees name after.storage := by
  have hptr : (Cell.pointer name ownerDocType).Same machine.storage after.storage := by
    apply same_step hadd
    rintro ⟨-, htype⟩
    exact hother (Digest.keccak256.inj htype)
  rw [OwnerAgrees, hptr, ownerVersion_addDocument hadd]
  exact hagrees

theorem agrees_version {bump} (htrace : Trace (LiveStep chain msg) machine
      (versionEffects msg (nameHash name) (.keccak256 document.docType) document bump) after)
    (hagrees : OwnerAgrees name machine.storage) : OwnerAgrees name after.storage := by
  obtain ⟨added, hadd, hrest⟩ := trace_cons_iff.mp htrace
  rw [List.append_assoc] at hrest
  obtain ⟨recorded, hedit, hlast⟩ := trace_append_iff.mp hrest
  have hrecorded : OwnerAgrees name recorded.storage := by
    by_cases howner : document.docType = ownerDocType
    · rw [if_pos howner] at hedit
      obtain ⟨_, hstep, hnil⟩ := trace_cons_iff.mp hedit
      obtain rfl := trace_nil_iff.mp hnil
      exact agrees_ownerDocument (howner ▸ hadd) hstep
    · rw [if_neg howner] at hedit
      obtain rfl := trace_nil_iff.mp hedit
      exact agrees_otherDocument howner hadd hagrees
  apply agrees_quiet_trace ?_ hlast hrecorded
  intro effect heff
  cases bump <;> simp only [bumpEffects, Bool.false_eq_true, reduceIte, List.nil_append,
    List.mem_append, List.mem_singleton] at heff
  · rw [heff]
    exact fun _ => rfl
  · rcases heff with rfl | rfl
    · trivial
    · exact fun _ => rfl

/-- Effects in blocks after each of which the record and the pointer agree.  Inside a
block they need not: a version is stored before its number is recorded. -/
inductive Blocks (msg : Message) (name : Bytes) : List Effect → Prop
  | nil : Blocks msg name []
  | quiet {effect : Effect} {effects : List Effect} :
      Quiet effect → Blocks msg name effects → Blocks msg name (effect :: effects)
  | version {effects : List Effect} (document : DocumentState) (bump : Bool) :
      Blocks msg name effects →
      Blocks msg name (versionEffects msg (nameHash name) (.keccak256 document.docType)
        document bump ++ effects)

theorem Blocks.append (hblocks : Blocks msg name effects) (hmore : Blocks msg name more) :
    Blocks msg name (effects ++ more) := by
  induction hblocks with
  | nil => exact hmore
  | quiet hquiet _ ih => exact .quiet hquiet ih
  | version document bump _ ih =>
    rw [List.append_assoc]
    exact .version document bump ih

theorem blocks_of_quiet (hquiet : ∀ effect ∈ effects, Quiet effect) : Blocks msg name effects := by
  induction effects with
  | nil => exact .nil
  | cons effect effects ih =>
    rw [List.forall_mem_cons] at hquiet
    exact .quiet hquiet.1 (ih hquiet.2)

theorem agrees_blocks (hblocks : Blocks msg name effects)
    (htrace : Trace (LiveStep chain msg) machine effects after)
    (hagrees : OwnerAgrees name machine.storage) : OwnerAgrees name after.storage := by
  induction hblocks generalizing machine with
  | nil =>
    obtain rfl := trace_nil_iff.mp htrace
    exact hagrees
  | quiet hquiet _ ih =>
    obtain ⟨middle, hstep, hrest⟩ := trace_cons_iff.mp htrace
    exact ih hrest (agrees_quiet hstep hquiet hagrees)
  | version document bump _ ih =>
    obtain ⟨middle, hver, hrest⟩ := trace_append_iff.mp htrace
    exact ih hrest (agrees_version hver hagrees)

end Blocks

/-! ## Calls -/

section Shapes

theorem quiet_bumpEffects {hash effect} (heff : effect ∈ bumpEffects hash bump) :
    Quiet effect := by
  cases bump <;> simp only [bumpEffects, Bool.false_eq_true, reduceIte, List.not_mem_nil,
    List.mem_singleton] at heff
  rw [heff]
  trivial

theorem blocks_bumpEffects : Blocks msg name (bumpEffects (nameHash name) bump) :=
  blocks_of_quiet fun _ => quiet_bumpEffects

theorem blocks_publish (hshape : PublishEffects msg name bump update effects) :
    Blocks msg name effects := by
  obtain ⟨document, payload, -, hdoc, rfl⟩ := hshape
  rw [← hdoc]
  exact .version document bump (.quiet trivial .nil)

theorem blocks_published (hparts : List.Forall₂ (PublishEffects msg name bump) updates parts) :
    Blocks msg name parts.flatten := by
  induction hparts with
  | nil => exact .nil
  | cons hhead _ ih => exact (blocks_publish hhead).append ih

theorem blocks_keys (hshape : KeyEffects msg name updates effects) : Blocks msg name effects := by
  obtain ⟨set, payload, -, rfl⟩ := hshape
  refine Blocks.append (blocks_of_quiet fun effect heff => ?_)
    (.quiet trivial (.quiet trivial .nil))
  obtain ⟨update, -, rfl⟩ := List.mem_map.mp heff
  trivial

theorem blocks_policy (hshape : PolicyEffects msg name rules policyHash bump effects) :
    Blocks msg name effects := by
  obtain ⟨nameSeq, payload, rfl⟩ := hshape
  exact .quiet trivial (blocks_bumpEffects.append (.quiet (fun _ => rfl) (.quiet trivial .nil)))

theorem blocks_floor (hshape : FloorEffects msg name floor reasonHash bump effects) :
    Blocks msg name effects := by
  obtain ⟨previous, policySeq, nameSeq, payload, rfl⟩ := hshape
  exact blocks_bumpEffects.append
    (.quiet (fun _ => rfl) (.quiet (fun _ => rfl) (.quiet trivial .nil)))

theorem blocks_announce (hshape : AnnounceEffects msg name effects) : Blocks msg name effects := by
  obtain ⟨state, payload, rfl⟩ := hshape
  exact .quiet trivial .nil

theorem blocks_owner (hshape : OwnerEffects msg name owner bump effects) :
    Blocks msg name effects := by
  obtain ⟨announced, hann, rfl⟩ := hshape
  exact .quiet trivial
    (blocks_bumpEffects.append (.quiet (fun _ => rfl) (blocks_announce hann)))

theorem blocks_call {call} (hshape : CallEffects msg call effects) (hname : call.name = some name)
    (hregs : call.registers = none) :
    Blocks msg name effects := by
  cases hshape <;> simp only [BnsCall.name, Option.some.injEq, reduceCtorEq] at hname <;>
    subst hname
  case registerName => cases hregs
  case transferName hann hparts =>
    exact .quiet trivial (.quiet trivial (.quiet trivial (.quiet (fun _ => rfl)
      (.quiet trivial ((blocks_announce hann).append (blocks_published hparts))))))
  case applyMutations hkeys hbump hparts hfloor =>
    refine Blocks.append (.append (.append (hkeys.elim .nil blocks_keys) ?_)
      (blocks_published hparts)) (hfloor.elim .nil blocks_floor)
    refine hbump.elim .nil fun hbatch => ?_
    rw [hbatch]
    exact .quiet trivial (.quiet (fun _ => rfl) .nil)
  case setNameOwner howner => exact blocks_owner howner
  case updateAuthorityKeys hkeys => exact blocks_keys hkeys
  case setMinDocumentIat hfloor => exact blocks_floor hfloor
  case publishDocument hpub => exact blocks_publish hpub
  case setControllerPolicy hpol => exact blocks_policy hpol
  case revokeDocument document payload hdocument hdoc =>
    rw [← hdoc]
    exact .version document true (.quiet trivial .nil)
  all_goals
    refine blocks_of_quiet fun effect heff => ?_
    simp only [List.mem_cons, List.not_mem_nil, or_false] at heff
    rcases heff with rfl | rfl | rfl | rfl | rfl <;>
      first
        | trivial
        | exact fun _ => rfl

theorem blocks_registration {call} (hshape : CallEffects msg call effects)
    (hregs : call.registers = some name) :
    ∃ state rest, effects = .register name state :: rest ∧
      state.ownerDocumentVersion = 0 ∧ Blocks msg name rest := by
  cases hshape <;>
    simp only [BnsCall.registers, Option.some.injEq, reduceCtorEq] at hregs
  case registerName hfresh hparts hkeys howner hrules =>
    subst hregs
    refine ⟨_, _, rfl, hfresh, .quiet trivial ?_⟩
    exact (((blocks_published hparts).append (hkeys.elim .nil blocks_keys)).append
      (howner.elim .nil blocks_owner)).append
      (hrules.elim .nil blocks_policy)

end Shapes

section Calls

theorem agrees_register {name} (hwf : WellFormed machine.storage)
    (hlive : LiveStep chain msg machine (.register name state) after)
    (hfresh : state.ownerDocumentVersion = 0) : OwnerAgrees name after.storage := by
  have hptr : documentPointer after.storage name ownerDocType = 0 := by
    have hdoc : validDocType ownerDocType = true := by decide
    rw [documentPointer, currentVersion, hlive.1.2, perform,
      versions_register chain _ (docType_ne_marker hdoc)]
    have hslots := slots_registered hwf hlive
    rw [hlive.1.2] at hslots
    exact congrFun (congrArg LineageSlots.currentDocumentVersions hslots) _
  rw [OwnerAgrees, hptr, ownerVersion, names_register hlive.1, hfresh]

theorem agrees_performs (hwf : WellFormed machine.storage)
    (hperf : Performs chain msg call machine after) {name}
    (hagrees : OwnerAgrees name machine.storage) : OwnerAgrees name after.storage := by
  by_cases hname : call.name = some name
  case neg =>
    have hsame := sameName_of_performs hperf hname
    have hptr : (Cell.pointer name ownerDocType).Same machine.storage after.storage :=
      Cell.same_of_sameName rfl hsame
    rw [OwnerAgrees, hptr, ownerVersion, hsame.names]
    exact hagrees
  obtain ⟨effects, hshape, htrace⟩ := performs_live hperf
  cases hregs : call.registers with
  | none => exact agrees_blocks (blocks_call hshape hname hregs) htrace hagrees
  | some other =>
    rw [name_of_registers hregs, Option.some.injEq] at hname
    subst hname
    obtain ⟨state, rest, rfl, hfresh, hblocks⟩ := blocks_registration hshape hregs
    obtain ⟨registered, hregister, hrest⟩ := trace_cons_iff.mp htrace
    exact agrees_blocks hblocks hrest (agrees_register hwf hregister hfresh)

theorem agrees_of_reachable {storage} (hreach : Reachable chain storage) (name : Bytes) :
    OwnerAgrees name storage := by
  obtain ⟨attempts, hrun⟩ := hreach
  have hboth : WellFormed storage ∧ OwnerAgrees name storage := by
    refine Trace.preserves hrun (fun state => WellFormed state ∧ OwnerAgrees name state)
      ?_ ⟨wellFormed_initial, rfl⟩
    rintro attempt - before next rfl ⟨hwf, hagrees⟩
    refine ⟨commit_preserves WellFormed wellFormed_step hwf, ?_⟩
    cases hcall : runCall chain attempt.msg attempt.call before with
    | error error => rwa [commit_error hcall]
    | ok result =>
      have hfirst : WellFormed ({ storage := before, logs := [] } : Machine).storage := hwf
      rw [commit_ok hcall]
      exact agrees_performs hfirst (runCall_performs hcall) hagrees
  exact hboth.2

end Calls

/-! ## Integrity -/

/-- The reference of a document: an inline one holds its own bytes, any other
holds none. -/
structure RefIntegrity (chain : Deployment) (documentRef : DocumentRef) : Prop where
  inlined : documentRef.storageType = storageInline →
    documentRef.uri = [] ∧ 1 ≤ documentRef.inlineDocument.length ∧
      documentRef.inlineDocument.length ≤ 4096 ∧
      documentRef.contentHash = chain.sha256 documentRef.inlineDocument
  linked : documentRef.storageType ≠ storageInline → documentRef.inlineDocument = []

theorem refIntegrity_of_soundRef (hsound : SoundRef chain documentRef) :
    RefIntegrity chain documentRef := by
  rcases hsound with hvalid | rfl
  · rw [validateDocumentRef, Checks.rejectIf_ok_iff] at hvalid
    obtain ⟨-, hvalid⟩ := hvalid
    constructor
    · intro hinline
      rw [if_pos hinline] at hvalid
      simp only [Checks.rejectIf_ok_iff, not_or, not_not, Nat.not_lt, and_true] at hvalid
      obtain ⟨huri, ⟨hnonempty, hsize⟩, hhash⟩ := hvalid
      exact ⟨List.eq_nil_of_length_eq_zero huri, Nat.pos_of_ne_zero hnonempty, hsize, hhash.symm⟩
    · intro hlinked
      rw [if_neg hlinked, Checks.rejectIf_ok_iff, not_not] at hvalid
      exact List.eq_nil_of_length_eq_zero hvalid.1
  · exact ⟨fun hinline => absurd hinline (by decide), fun _ => rfl⟩

/-- A version between 1 and the number of versions of its type is a stored one. -/
theorem documentAt_ne_empty {name} (hreach : Reachable chain storage)
    (hdoc : validDocType docType = true) (hpos : version ≠ 0)
    (hle : version ≤ documentCount storage name docType) :
    documentAt storage name docType version ≠ {} := by
  obtain ⟨chronicle, hrecs⟩ := exists_records hreach hdoc name
  have hnz : version.toNat ≠ 0 := fun hzero => hpos (UInt64.toNat_inj.mp hzero)
  have hlook : chronicle.lookup version.toNat ≠ none := by
    rw [ne_eq, Chronicles.Chronicle.lookup_eq_none_iff, ← hrecs.count, not_or, Nat.not_lt]
    exact ⟨hnz, UInt64.le_iff_toNat_le.mp hle⟩
  obtain ⟨document, hdocument⟩ := Option.ne_none_iff_exists'.mp hlook
  intro hempty
  rw [hrecs.documents, hdocument, Option.getD_some] at hempty
  have hver := (hrecs.indexed _ _ hdocument).version
  rw [hempty] at hver
  exact hnz hver.symm

/-- Every version of a document type is stored; every stored document carries the
hash of its fields and a reference in order; and the `owner` version of every
name is the one its live lineage points at. -/
theorem documents_sealed_pointers_agree {chain : Deployment} {storage : Storage}
    (hreach : Reachable chain storage) :
    (∀ name docType version, validDocType docType = true → version ≠ 0 →
      version ≤ documentCount storage name docType →
      documentAt storage name docType version ≠ {}) ∧
    (∀ hash docTypeHash version, storage.documents hash docTypeHash version ≠ {} →
      Sealed chain (storage.documents hash docTypeHash version) ∧
      RefIntegrity chain (storage.documents hash docTypeHash version).document) ∧
    ∀ name, OwnerAgrees name storage := by
  refine ⟨fun name docType version => documentAt_ne_empty hreach, ?_, agrees_of_reachable hreach⟩
  intro hash docTypeHash version hstored
  have hsealed := (allSealed_of_reachable hreach hash docTypeHash version).resolve_left hstored
  have hsound := ((soundStorage_of_reachable hreach).documents hash docTypeHash
    version).resolve_left hstored
  exact ⟨hsealed, refIntegrity_of_soundRef hsound.documentRef⟩

theorem documents_sealed_pointers_agree_published :
    let storage := commitAll sampleChain
      [sampleRegistration "alice" 7,
        { samplePublication "alice" 7 1 0 with
          call := .publishDocument (text "alice") (sampleDocument "owner" 0)
            (accountAuthority 7) { expectedNameSeq := 1, expectedParentNameSeq := 0 } }]
      .initial
    ownerVersion storage (text "alice") = 1 ∧
      Sealed sampleChain (documentAt storage (text "alice") ownerDocType 1) ∧
      OwnerAgrees (text "alice") storage := by
  intro storage
  have hsound := documents_sealed_pointers_agree (reachable_commitAll sampleChain _ :
    Reachable sampleChain storage)
  refine ⟨by decide +kernel, (hsound.2.1 _ _ _ ?_).1, hsound.2.2 _⟩
  exact hsound.1 _ ownerDocType 1 (by decide) (by decide) (by decide +kernel)

end CyfsGateway.BnsIntegrity
