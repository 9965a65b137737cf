import CyfsGateway.Bns.DocumentRecords
import CyfsGateway.Core.Checks

/-!
# Contents of the storage

Every value in a reachable storage has passed the contract's checks: documents,
aliases and checkpoints by an invariant of the effects, effective owners by
following the owners they are resolved from, keys and rules by the call that
carries them.
-/

namespace CyfsGateway.BnsContents

open Evm Transition BnsTypes BnsValidation BnsStorage BnsCore BnsFacets BnsEffects BnsExecution
  BnsCalls BnsFrames BnsRuns BnsWellFormed BnsDocumentRecords Effect

/-! ## Documents, aliases and checkpoints -/

/-- The reference of a stored document: a checked one, or the empty one of a
revocation. -/
def SoundRef (chain : Deployment) (documentRef : DocumentRef) : Prop :=
  validateDocumentRef chain documentRef = .ok () ∨ documentRef = {}

structure SoundDocument (chain : Deployment) (document : DocumentState) : Prop where
  name : validName document.name = true
  docType : validDocType document.docType = true
  documentRef : SoundRef chain document.document
  controller : validatePrincipal document.controller = .ok ()
  beneficiary : validatePrincipal document.beneficiary = .ok ()

/-- The name written in a slot: none in a slot never written, otherwise the one that owns
the slot's key. -/
def SlotName (key : Digest) (name : Bytes) : Prop :=
  name = [] ∨ (validName name = true ∧ Owns (nameHash name) key)

theorem SlotName.eq_of_owns (hslot : SlotName key name)
    (howns : Owns (nameHash owner) key) : name = [] ∨ name = owner := by
  refine hslot.imp id fun hnamed => ?_
  by_contra hne
  exact not_owns_of_ne hne hnamed.2 howns

structure SoundAlias (key : Digest) (state : AliasState) : Prop where
  name : SlotName key state.name
  targetDid : state.kind ≠ .none → validDid state.targetDid = true

structure SoundStorage (chain : Deployment) (storage : Storage) : Prop where
  documents : ∀ hash docTypeHash version, storage.documents hash docTypeHash version = {} ∨
      SoundDocument chain (storage.documents hash docTypeHash version)
  aliases : ∀ key, SoundAlias key (storage.aliases key)
  authoritySets : ∀ key, SlotName key (storage.authoritySets key).name
  issuer : validatePrincipal storage.latestCheckpoint.issuer = .ok ()

theorem soundStorage_initial (chain : Deployment) : SoundStorage chain .initial where
  documents _ _ _ := .inl rfl
  aliases _ := ⟨.inl rfl, fun hkind => absurd rfl hkind⟩
  authoritySets _ := .inl rfl
  issuer := rfl

section Step

variable {chain : Deployment} {msg : Message} {before after : Machine} {effect : Effect}

theorem soundDocument_composed {slot document} (hname : validName document.name = true)
    (hdoc : validDocType document.docType = true) (hslot : slot = {} ∨ SoundDocument chain slot)
    (hcomp : Composed chain msg slot document) : SoundDocument chain document := by
  rcases hcomp with ⟨update, href, hctrl, hbenef, hdocument⟩ | hdocument
  · refine ⟨hname, hdoc, ?_, ?_, ?_⟩ <;>
      rw [hdocument] <;> simp only [publishedDocument, sealDocument]
    · exact .inl href
    · exact hctrl
    · exact hbenef
  · refine ⟨hname, hdoc, ?_, ?_, ?_⟩ <;>
      rw [hdocument] <;> simp only [revokedDocument, sealDocument]
    · rcases hslot with rfl | hsound
      · exact .inr rfl
      · exact hsound.documentRef
    · rcases hslot with rfl | hsound
      · rfl
      · exact hsound.controller
    · rcases hslot with rfl | hsound
      · rfl
      · exact hsound.beneficiary

theorem soundDocument_repriced {terms document}
    (hbenef : validatePrincipal terms.beneficiary = .ok ())
    (hsound : SoundDocument chain document) :
    SoundDocument chain (repricedDocument chain terms document) :=
  ⟨hsound.name, hsound.docType, hsound.documentRef, hsound.controller, hbenef⟩

theorem current_ne_empty {storage name docType chronicle}
    (hrecs : Records storage name docType chronicle)
    (hcur : documentPointer storage name docType ≠ 0) :
    documentAt storage name docType (documentPointer storage name docType) ≠ {} := by
  have hpos : chronicle.current ≠ 0 := by
    rw [← hrecs.pointer]
    exact fun hzero => hcur (UInt64.toNat_inj.mp hzero)
  obtain ⟨document, hdocument⟩ := Chronicles.Chronicle.lookup_current hpos
  intro hempty
  rw [hrecs.documents, hrecs.pointer, hdocument, Option.getD_some] at hempty
  have hver := (hrecs.indexed _ _ hdocument).version
  rw [hempty] at hver
  exact hpos hver.symm

theorem documents_putDocument_of_slot_ne
    {storage hash typeHash docTypeHash document written version}
    (hslot : ¬(docTypeHash = typeHash ∧ version = written)) :
    (putDocument hash typeHash written document storage).documents hash docTypeHash version =
      storage.documents hash docTypeHash version := by
  by_cases htype : docTypeHash = typeHash
  · have hver : version ≠ written := fun heq => hslot ⟨htype, heq⟩
    simp [putDocument, htype, hver]
  · simp [putDocument, htype]

variable (hwf : WellFormed before.storage) (hlive : LiveStep chain msg before effect after)

include hwf hlive

theorem slotName_live (htgt : effect.target = some (nameHash name))
    (hother : ∀ state, effect ≠ .register name state) :
    SlotName (lineageStateKey before.storage (nameHash name)) name := by
  obtain ⟨registered, hname, hexists | ⟨state, hstate⟩⟩ := hlive.2 _ htgt
  all_goals rw [nameHash, nameHash, Digest.keccak256.injEq] at hname
  · rw [← hname] at hexists
    exact .inr ⟨(hwf.stored name hexists).valid, owns_lineageStateKey _ _⟩
  · exact absurd (hname ▸ hstate) (hother state)

variable (hsound : SoundStorage chain before.storage)

include hsound

theorem documents_step (hrecs : ∀ name docType, validDocType docType = true →
      ∃ chronicle, Records before.storage name docType chronicle)
    (hash docTypeHash : Digest) (version : UInt64) :
    after.storage.documents hash docTypeHash version = {} ∨
      SoundDocument chain (after.storage.documents hash docTypeHash version) := by
  have hbefore := hsound.documents hash docTypeHash version
  by_cases htgt : effect.target = some hash
  case neg =>
    rw [hlive.1.2]
    simp only [perform, documents_write_of_ne htgt]
    exact hbefore
  have hreg := hlive.2
  obtain ⟨hallow, rfl⟩ := hlive.1
  cases effect <;> simp only [target, Option.some.injEq, reduceCtorEq] at htgt
  case addDocument target typeHash document =>
    subst htgt
    rw [perform, write, documents_appendDocument]
    by_cases hslot : docTypeHash = typeHash ∧ version = document.version
    · obtain ⟨rfl, rfl⟩ := hslot
      obtain ⟨hhash, -, hdoc, -, -, hcomp⟩ := hallow
      obtain ⟨name, hname, hexists | ⟨state, hstate⟩⟩ := hreg _ rfl
      · rw [hhash, nameHash, nameHash, Digest.keccak256.injEq] at hname
        have hvalid := (hwf.stored name hexists).valid
        rw [← hname] at hvalid
        refine .inr ?_
        simp only [putDocument, Function.update_self]
        exact soundDocument_composed hvalid hdoc (hsound.documents _ _ _) hcomp
      · cases hstate
    · rwa [documents_putDocument_of_slot_ne hslot]
  case repriceDocument target typeHash terms =>
    subst htgt
    rw [perform, write]
    by_cases hslot : docTypeHash = typeHash ∧
        version = currentVersion before.storage target typeHash
    · obtain ⟨rfl, rfl⟩ := hslot
      obtain ⟨⟨docType, hdoc, rfl⟩, hcur, hbenef⟩ := hallow
      obtain ⟨name, rfl, -⟩ := hreg _ rfl
      obtain ⟨chronicle, hchronicle⟩ := hrecs name docType hdoc
      have hdocument := hbefore.resolve_left (current_ne_empty hchronicle hcur)
      refine .inr ?_
      simp only [putDocument, Function.update_self]
      exact soundDocument_repriced hbenef hdocument
    · simp only
      rwa [documents_putDocument_of_slot_ne hslot]
  case register name state =>
    have hsame : ((register name state).write chain before.storage).documents =
        before.storage.documents := by simp [write, updateName]
    rw [perform, hsame]
    exact hbefore
  case putKey =>
    rw [perform, write, documents_putAuthorityKey]
    exact hbefore
  all_goals exact hbefore

theorem aliases_step (key : Digest) : SoundAlias key (after.storage.aliases key) := by
  have hbefore := hsound.aliases key
  obtain ⟨hallow, hafter⟩ := hlive.1
  rw [hafter, perform]
  by_cases hput : ∃ hash state, effect = .putAlias hash state
  · obtain ⟨hash, state, rfl⟩ := hput
    obtain ⟨rfl, hdid⟩ := hallow
    by_cases hkey : key = lineageStateKey before.storage (nameHash state.name)
    · simp only [write, BnsCore.putAlias, hkey, Function.update_self]
      exact ⟨slotName_live hwf hlive rfl (fun _ => by simp), hdid⟩
    · simpa [write, BnsCore.putAlias, hkey] using hbefore
  · push Not at hput
    rw [keepsOthers_write.aliases hput]
    exact hbefore

theorem authoritySets_step (key : Digest) :
    SlotName key (after.storage.authoritySets key).name := by
  have hbefore := hsound.authoritySets key
  obtain ⟨hallow, hafter⟩ := hlive.1
  rw [hafter, perform]
  by_cases hput : ∃ hash set, effect = .putSet hash set
  · obtain ⟨hash, set, rfl⟩ := hput
    obtain ⟨-, rfl, -⟩ := hallow
    by_cases hkey : key = lineageStateKey before.storage (nameHash set.name)
    · simp only [write, putAuthoritySet, hkey, Function.update_self]
      exact slotName_live hwf hlive rfl (fun _ => by simp)
    · simpa [write, putAuthoritySet, hkey] using hbefore
  · push Not at hput
    rw [keepsOthers_write.authoritySets hput]
    exact hbefore

omit hwf in
theorem issuer_step : validatePrincipal after.storage.latestCheckpoint.issuer = .ok () := by
  obtain ⟨hallow, rfl⟩ := hlive.1
  rw [perform]
  by_cases hput : ∃ checkpoint, effect = .putCheckpoint checkpoint
  · obtain ⟨checkpoint, rfl⟩ := hput
    exact hallow.1
  · push Not at hput
    rw [keepsOthers_write.latestCheckpoint hput]
    exact hsound.issuer

end Step

theorem soundStorage_of_reachable {chain storage} (hreach : Reachable chain storage) :
    SoundStorage chain storage := by
  let Invariant : Storage → Prop := fun state =>
    WellFormed state ∧ (∀ name docType, validDocType docType = true →
      ∃ chronicle, Records state name docType chronicle) ∧ SoundStorage chain state
  have hall : Invariant storage := by
    refine hreach.invariant Invariant ?_ ⟨wellFormed_initial,
      fun name docType _ => ⟨{}, records_initial name docType⟩, soundStorage_initial chain⟩
    rintro msg before effect after hlive ⟨hwf, hrecs, hsound⟩
    refine ⟨wellFormed_step hlive hwf, fun name docType hdoc => ?_, ?_⟩
    · obtain ⟨chronicle, hchronicle⟩ := hrecs name docType hdoc
      exact ⟨_, records_step hwf hlive hdoc hchronicle⟩
    · exact ⟨documents_step hwf hlive hsound hrecs, aliases_step hwf hlive hsound,
        authoritySets_step hwf hlive hsound, issuer_step hlive hsound⟩
  exact hall.2.2

/-! ## Owners -/

theorem validatePrincipal_effectiveOwner {storage} (hwf : WellFormed storage)
    (hreg : Registered storage name)
    (hresol : resolveOwnerFrom storage now remaining (nameHash name) = .ok owner) :
    validatePrincipal owner.effectiveOwner = .ok () := by
  induction remaining generalizing name owner with
  | zero => simp [resolveOwnerFrom] at hresol
  | succ remaining ih =>
    have hstored := hwf.stored name hreg
    have hname := hstored.name_eq
    rw [resolveOwnerFrom] at hresol
    rw [if_neg hreg] at hresol
    split at hresol
    · rename_i hkind
      simp only [Checks.rejectIf_ok_iff] at hresol
      obtain rfl := Except.ok.inj hresol.2
      have hvalid := hstored.validOwner
      simp only [validateSemanticOwner, hkind] at hvalid
      simpa only [validatePrincipal, hkind] using hvalid
    split at hresol
    · obtain rfl := Except.ok.inj hresol
      simp [validatePrincipal, chainAccountPrincipal, hstored.assetOwner]
    rename_i hpar
    rw [hname] at hresol hpar
    simp only [Checks.rejectIf_ok_iff] at hresol
    obtain ⟨-, hresol⟩ := hresol
    split at hresol
    · rename_i parentOwner hresolved
      obtain rfl := Except.ok.inj hresol
      have hexists := hstored.parent fun hnil => hpar (by rw [hnil]; rfl)
      have hvalid := ih hexists hresolved
      exact hvalid
    · cases hresol

def authorityUpdates : BnsCall → List AuthorityKeyUpdate
  | .registerName _ _ _ updates .. => updates
  | .updateAuthorityKeys _ updates .. => updates
  | .applyMutations _ updates .. => updates
  | _ => []

def controllerPolicy : BnsCall → Option (List ControllerRule × Bytes32)
  | .registerName _ _ _ _ _ rules policyHash .. => some (rules, policyHash)
  | .setControllerPolicy _ rules policyHash .. => some (rules, policyHash)
  | _ => none

section Calls

theorem allowed_of_mem {effect} (htrace : Effects chain msg machine effects after)
    (hmem : effect ∈ effects) :
    ∃ storage, effect.Allowed chain msg storage := by
  induction htrace with
  | nil => cases hmem
  | cons hstep _ ih =>
    rcases List.mem_cons.mp hmem with rfl | hrest
    · exact ⟨_, hstep.1⟩
    · exact ih hrest

theorem validName_of_performs (hperf : Performs chain msg call machine after)
    (hname : call.name = some name) : validName name = true := by
  obtain ⟨hadm, -⟩ := hperf
  cases call <;> simp only [BnsCall.name, Option.some.injEq, reduceCtorEq] at hname <;>
    subst hname
  case registerName => exact hadm.1
  case renewName => exact hadm.1
  all_goals exact hadm.1.1

theorem validateControllerRule_of_performs (hperf : Performs chain msg call machine after)
    (hpol : controllerPolicy call = some (rules, policyHash))
    (hrule : rule ∈ rules) : validateControllerRule rule = .ok () := by
  obtain ⟨-, effects, hshape, htrace⟩ := hperf
  have hput : ∃ hash, putPolicy hash rules ∈ effects := by
    cases hshape <;>
      simp only [controllerPolicy, Option.some.injEq, Prod.mk.injEq, reduceCtorEq] at hpol
    case registerName hruled =>
      obtain ⟨rfl, rfl⟩ := hpol
      rcases hruled with ⟨-, nameSeq, payload, rfl⟩ | ⟨hnone, -⟩
      · exact ⟨_, List.mem_cons_of_mem _ (List.mem_cons_of_mem _
          (List.mem_append_right _ List.mem_cons_self))⟩
      · have hpos := List.length_pos_of_mem hrule
        exact absurd (.inl (Nat.ne_of_gt hpos)) hnone
    case setControllerPolicy hruled =>
      obtain ⟨rfl, rfl⟩ := hpol
      obtain ⟨nameSeq, payload, rfl⟩ := hruled
      exact ⟨_, List.mem_cons_self⟩
  obtain ⟨hash, hmem⟩ := hput
  obtain ⟨storage, hallow⟩ := allowed_of_mem htrace hmem
  exact (hallow rule hrule).1

end Calls

end CyfsGateway.BnsContents
