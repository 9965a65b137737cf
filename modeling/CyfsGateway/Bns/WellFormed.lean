import CyfsGateway.Bns.Runs

/-!
# Well-formed storage

What holds of every reachable storage: names that were never registered are
empty, registered ones keep the identity and the references they were checked
with, and the slots of lineages that have not started are untouched.
-/

namespace CyfsGateway.BnsWellFormed

open Evm Transition BnsTypes BnsValidation BnsStorage BnsCore BnsFacets BnsEffects BnsCalls
  BnsFrames BnsRuns Effect UInt64

/-- The change of a name state by anything but a registration. -/
structure NameChange (storage : Storage) (now : UInt64) (before after : NameState) : Prop where
  name : after.name = before.name
  lineageEpoch : after.lineageEpoch = before.lineageEpoch
  nameSeq : before.nameSeq.toNat ≤ after.nameSeq.toNat
  assetOwner : after.assetOwner = before.assetOwner ∨ after.assetOwner ≠ .zero
  semanticOwner : after.semanticOwner = before.semanticOwner ∨
    UsableOwner storage now after.semanticOwner
  status : after.status = before.status ∨ (before.status = .expired ∧ after.status = .active) ∨
    after.status = .released ∨ after.status = .tombstoned

theorem NameChange.refl (storage : Storage) (now : UInt64) (state : NameState) :
    NameChange storage now state state := ⟨rfl, rfl, Nat.le_refl _, .inl rfl, .inl rfl, .inl rfl⟩

section Changes

theorem nameChange_step (hstep : Step chain msg before effect after)
    (hother : ∀ state, effect ≠ .register name state) :
    NameChange before.storage msg.now (before.storage.names (nameHash name))
      (after.storage.names (nameHash name)) := by
  obtain ⟨hallow, rfl⟩ := hstep
  rw [perform, names_write]
  split
  case isFalse => exact .refl _ _ _
  case isTrue htgt =>
    cases effect with
    | register other state =>
      have hname : other = name := by simpa [target, nameHash] using htgt
      exact absurd (by rw [hname]) (hother state)
    | editName hash change =>
      obtain rfl := Option.some.inj htgt
      exact ⟨hallow.name, hallow.lineageEpoch, Nat.le_of_eq (by rw [nextState, hallow.nameSeq]),
        .inl hallow.assetOwner, .inl hallow.semanticOwner, hallow.status.imp_right .inl⟩
    | bumpNameSeq hash =>
      obtain rfl := Option.some.inj htgt
      refine ⟨rfl, rfl, ?_, .inl rfl, .inl rfl, .inl rfl⟩
      rw [nextState, UInt64.toNat_add, toNat_one, Nat.mod_eq_of_lt hallow]
      exact Nat.le_succ _
    | setSemanticOwner => exact ⟨rfl, rfl, Nat.le_refl _, .inl rfl, .inr hallow, .inl rfl⟩
    | setAssetOwner => exact ⟨rfl, rfl, Nat.le_refl _, .inr hallow, .inl rfl, .inl rfl⟩
    | release hash mode =>
      refine ⟨rfl, rfl, Nat.le_refl _, .inl rfl, .inl rfl, .inr (.inr ?_)⟩
      cases mode <;> simp [nextState, releasedStatus]
    | _ => exact .refl _ _ _

theorem names_register (hstep : Step chain msg before (.register name state) after) :
    after.storage.names (nameHash name) = state := by
  obtain ⟨-, rfl⟩ := hstep
  simp [perform, write]

theorem docType_ne_marker (hvalid : validDocType docType = true) :
    Digest.keccak256 docType ≠ lineageStateMarker := by
  intro heq
  have hmarker : docType = text "bns.lineage.state.marker.v1" := by
    simpa [lineageStateMarker] using heq
  rw [hmarker] at hvalid
  revert hvalid
  decide

theorem marker_setCurrentVersion (hne : docTypeHash ≠ lineageStateMarker) :
    (setCurrentVersion stateKey docTypeHash version storage).currentDocumentVersions key
        lineageStateMarker =
      storage.currentDocumentVersions key lineageStateMarker := by
  by_cases hkey : key = stateKey
  · subst hkey
    simp [setCurrentVersion, Ne.symm hne]
  · simp [setCurrentVersion, hkey]

theorem marker_step (hstep : Step chain msg before effect after)
    (hother : ∀ name state, effect ≠ .register name state) (key : Digest) :
    after.storage.currentDocumentVersions key lineageStateMarker =
      before.storage.currentDocumentVersions key lineageStateMarker := by
  obtain ⟨hallow, rfl⟩ := hstep
  cases effect with
  | register name state => exact absurd rfl (hother name state)
  | addDocument hash docTypeHash document =>
    obtain ⟨-, rfl, hvalid, -⟩ := hallow
    have hne := docType_ne_marker hvalid
    simp only [perform, write, appendDocument, putDocument]
    split
    · rw [marker_setCurrentVersion hne, marker_setCurrentVersion hne]
    · rw [marker_setCurrentVersion hne]
  | putKey hash update => simp only [perform, write, putAuthorityKey_versions]
  | _ => rfl

theorem marker_register (hstep : Step chain msg before (.register name state) after)
    (key : Digest) :
    after.storage.currentDocumentVersions key lineageStateMarker =
      if key = lineageKey (nameHash name) state.lineageEpoch ∧ state.lineageEpoch ≠ 0 then
        state.lineageEpoch
      else before.storage.currentDocumentVersions key lineageStateMarker := by
  obtain ⟨-, rfl⟩ := hstep
  have hremember : (rememberNameHash (nameHash name)
      before.storage).currentDocumentVersions = before.storage.currentDocumentVersions := by
    simp only [rememberNameHash]
    split <;> rfl
  simp only [perform, write, activateLineageState]
  by_cases hepoch : state.lineageEpoch = 0
  · simp [hepoch, updateName, hremember]
  · by_cases hkey : key = lineageKey (nameHash name) state.lineageEpoch
    · simp [hepoch, hkey, updateName]
    · simp [hepoch, hkey, updateName, hremember]

theorem lineageStateKey_step (hstep : Step chain msg before effect after)
    (hother : ∀ state, effect ≠ .register name state) :
    lineageStateKey after.storage (nameHash name) =
      lineageStateKey before.storage (nameHash name) := by
  refine lineageStateKey_congr (nameChange_step hstep hother).lineageEpoch (fun _ => ?_)
  by_cases hregister : ∃ other state, effect = .register other state
  · obtain ⟨other, state, rfl⟩ := hregister
    have hne : other ≠ name := fun heq => hother state (by rw [heq])
    rw [marker_register hstep, if_neg]
    rintro ⟨hkey, -⟩
    have hhash := (Digest.keccak256Lineage.inj hkey).2.1
    exact hne (by simpa [nameHash, eq_comm] using hhash)
  · push Not at hregister
    exact marker_step hstep hregister _

end Changes

/-- What the contract knows of a registered name: it is stored under its own hash, and its
owner and its parent, where it has them, are registered as well. -/
structure StoredName (storage : Storage) (name : Bytes) : Prop where
  name_eq : (storage.names (nameHash name)).name = name
  valid : validName name = true
  nameSeq : (storage.names (nameHash name)).nameSeq ≠ 0
  assetOwner : (storage.names (nameHash name)).assetOwner ≠ .zero
  notExpired : (storage.names (nameHash name)).status ≠ .expired
  validOwner : validateSemanticOwner (storage.names (nameHash name)).semanticOwner = .ok ()
  owner : (storage.names (nameHash name)).semanticOwner.kind = .bnsName →
    Registered storage (storage.names (nameHash name)).semanticOwner.value
  parent : parentName name ≠ [] → Registered storage (parentName name)

def epoch (storage : Storage) (name : Bytes) : UInt64 :=
  (storage.names (nameHash name)).lineageEpoch

structure WellFormed (storage : Storage) : Prop where
  /-- A name nobody registered has no state. -/
  unregistered : ∀ name, ¬Registered storage name → storage.names (nameHash name) = {} ∧
    storage.documents (nameHash name) = (fun _ _ => {}) ∧
    ∀ key, Owns (nameHash name) key → lineageSlots storage key = {}
  stored : ∀ name, Registered storage name → StoredName storage name
  /-- Controllers of stored rules exist. -/
  controllers : ∀ key, ∀ rule ∈ storage.controllerPolicies key,
    rule.controller.kind = .bnsName → Registered storage rule.controller.value
  /-- Lineages that have not started are empty. -/
  future : ∀ name lineageEpoch, epoch storage name < lineageEpoch →
    lineageSlots storage (lineageKey (nameHash name) lineageEpoch) = {}
  /-- Lineages that have started are marked. -/
  marker : ∀ name lineageEpoch, lineageEpoch ≠ 0 → lineageEpoch ≤ epoch storage name →
    storage.currentDocumentVersions (lineageKey (nameHash name) lineageEpoch)
      lineageStateMarker = lineageEpoch

theorem lineageStateKey_eq_or (storage : Storage) (hash : Digest) :
    lineageStateKey storage hash = hash ∨ lineageStateKey storage hash =
        lineageKey hash (storage.names hash).lineageEpoch := by
  simp only [lineageStateKey]
  split
  · exact .inl rfl
  · split
    · exact .inl rfl
    · exact .inr rfl

theorem WellFormed.lineageStateKey_eq (hwf : WellFormed storage) (name : Bytes) :
    lineageStateKey storage (nameHash name) = if epoch storage name = 0 then nameHash name
      else lineageKey (nameHash name) (epoch storage name) := by
  by_cases hepoch : epoch storage name = 0
  · rw [if_pos hepoch]
    exact if_pos hepoch
  have hmarker := hwf.marker name _ hepoch (UInt64.le_refl _)
  rw [epoch] at hepoch hmarker
  simp [lineageStateKey, epoch, hepoch, hmarker]

theorem wellFormed_initial : WellFormed .initial where
  unregistered _ _ := ⟨rfl, rfl, fun _ _ => rfl⟩
  stored _ hreg := absurd rfl hreg
  controllers _ _ hrule := by simp [Storage.initial] at hrule
  future _ _ _ := rfl
  marker name lineageEpoch hepoch hle := by
    have hzero : epoch .initial name = 0 := rfl
    exact absurd (UInt64.le_zero_iff.mp hle) hepoch

/-! ## Preservation -/

theorem registered_of_usableOwner
    (husable : requireActiveAuthoritySet storage now owner = .ok ())
    (hkind : owner.kind = .bnsName) :
    Registered storage owner.value := by
  simp only [requireActiveAuthoritySet, hkind, true_and] at husable
  split at husable
  · simp at husable
  · rename_i hactive
    rw [not_or, Bool.not_eq_false] at hactive
    exact registered_of_isActiveName hactive.1

section Preservation

variable {chain : Deployment} {msg : Message} {before after : Machine} {effect : Effect}
  {name : Bytes}

theorem sameName_of_unregistered (hlive : LiveStep chain msg before effect after)
    (hafter : ¬Registered after.storage name) :
    SameName (nameHash name) before.storage after.storage := by
  obtain ⟨hstep, hreg⟩ := hlive
  have htgts : ∀ hash, effect.target = some hash →
      ∃ other, other ≠ name ∧ hash = nameHash other := by
    intro hash htgt
    obtain ⟨other, hhash, hexists⟩ := hreg hash htgt
    refine ⟨other, ?_, hhash⟩
    rintro rfl
    rcases hexists with hbefore | ⟨state, rfl⟩
    · exact hafter (registered_step hstep hbefore)
    · exact hafter (registered_register hstep)
  rw [hstep.2]
  exact sameName_write htgts

theorem registered_before (hlive : LiveStep chain msg before effect after)
    (hother : ∀ state, effect ≠ .register name state)
    (hafter : Registered after.storage name) : Registered before.storage name := by
  intro hbefore
  have htgt : effect.target ≠ some (nameHash name) := by
    intro htgt
    obtain ⟨other, hhash, hexists⟩ := hlive.2 _ htgt
    obtain rfl : name = other := by simpa [nameHash] using hhash
    rcases hexists with hreg | ⟨state, heff⟩
    · exact hreg hbefore
    · exact hother state heff
  apply hafter
  rw [hlive.1.2, perform, names_write_of_ne htgt]
  exact hbefore

theorem storedName_register (hstep : Step chain msg before (.register name state) after) :
    StoredName after.storage name := by
  have hnames := names_register hstep
  have hreg : ∀ {other}, Registered before.storage other →
      Registered after.storage other := registered_step hstep
  obtain ⟨⟨hvalid, -, hpar, hname, hstat, hasset, husable, hseq, -⟩, -⟩ := hstep
  refine ⟨?_, hvalid, ?_, ?_, ?_, ?_, ?_, ?_⟩
  · rw [hnames, hname]
  · rw [hnames]
    intro hzero
    rw [hzero] at hseq
    simp at hseq
  · rw [hnames]
    exact hasset
  · rw [hnames, hstat]
    simp
  · rw [hnames]
    exact husable.1
  · rw [hnames]
    exact fun hkind => hreg (registered_of_usableOwner husable.2 hkind)
  · exact fun hne => hreg (registered_of_isActiveName (hpar hne))

theorem storedName_change (hstep : Step chain msg before effect after)
    (hother : ∀ state, effect ≠ .register name state)
    (hstored : StoredName before.storage name) : StoredName after.storage name := by
  have hchange := nameChange_step hstep hother
  have hreg : ∀ {other}, Registered before.storage other →
      Registered after.storage other := registered_step hstep
  refine ⟨hchange.name.trans hstored.name_eq, hstored.valid, ?_, ?_, ?_, ?_, ?_,
    fun hne => hreg (hstored.parent hne)⟩
  · intro hzero
    have hle := hchange.nameSeq
    rw [hzero, UInt64.toNat_zero, Nat.le_zero] at hle
    exact hstored.nameSeq (UInt64.toNat_inj.mp hle)
  · rcases hchange.assetOwner with hsame | hnz
    · rw [hsame]
      exact hstored.assetOwner
    · exact hnz
  · rcases hchange.status with hsame | ⟨-, hactive⟩ | hreleased | htombstoned
    · rw [hsame]
      exact hstored.notExpired
    all_goals simp [*]
  · rcases hchange.semanticOwner with hsame | husable
    · rw [hsame]
      exact hstored.validOwner
    · exact husable.1
  · rcases hchange.semanticOwner with hsame | husable
    · rw [hsame]
      exact fun hkind => hreg (hstored.owner hkind)
    · exact fun hkind => hreg (registered_of_usableOwner husable.2 hkind)

theorem policies_step (hstep : Step chain msg before effect after)
    (hrule : rule ∈ after.storage.controllerPolicies key) :
    rule ∈ before.storage.controllerPolicies key ∨
      requireActiveAuthoritySet before.storage msg.now rule.controller = .ok () := by
  obtain ⟨hallow, rfl⟩ := hstep
  by_cases hput : ∃ hash rules, effect = .putPolicy hash rules
  · obtain ⟨hash, rules, rfl⟩ := hput
    by_cases hkey : key = lineageStateKey before.storage hash
    · simp only [perform, write, putControllerPolicy, hkey, Function.update_self] at hrule
      exact .inr (hallow rule hrule).2
    · simp only [perform, write, putControllerPolicy, ne_eq, hkey,
        not_false_eq_true, Function.update_of_ne] at hrule
      exact .inl hrule
  · push Not at hput
    rw [perform, keepsOthers_write.controllerPolicies hput] at hrule
    exact .inl hrule

/-- The epoch of a name moves by its registrations, by one after the first. -/
theorem epoch_register (hwf : WellFormed before.storage)
    (hstep : Step chain msg before (.register name state) after) :
    epoch after.storage name = state.lineageEpoch ∧
      ((¬Registered before.storage name ∧ state.lineageEpoch = 0 ∧ epoch before.storage name = 0) ∨
      (Registered before.storage name ∧
        state.lineageEpoch.toNat = (epoch before.storage name).toNat + 1)) := by
  refine ⟨by rw [epoch, names_register hstep], ?_⟩
  obtain ⟨⟨-, -, -, -, -, -, -, -, hfirst, hlater⟩, -⟩ := hstep
  by_cases hreg : Registered before.storage name
  · exact .inr ⟨hreg, hlater (hwf.stored name hreg).nameSeq⟩
  · have hempty := (hwf.unregistered name hreg).1
    exact .inl ⟨hreg, hfirst (by rw [hempty]), by rw [epoch, hempty]⟩

theorem epoch_step (hstep : Step chain msg before effect after)
    (hother : ∀ state, effect ≠ .register name state) :
    epoch after.storage name = epoch before.storage name :=
  (nameChange_step hstep hother).lineageEpoch

theorem epoch_mono (hwf : WellFormed before.storage)
    (hstep : Step chain msg before effect after) (name : Bytes) :
    epoch before.storage name ≤ epoch after.storage name := by
  by_cases hregister : ∃ state, effect = .register name state
  · obtain ⟨state, rfl⟩ := hregister
    obtain ⟨hafter, ⟨-, -, hzero⟩ | ⟨-, hnext⟩⟩ := epoch_register hwf hstep
    · rw [hzero]
      exact UInt64.zero_le
    · rw [hafter, le_iff_toNat_le, hnext]
      exact Nat.le_succ _
  · push Not at hregister
    rw [epoch_step hstep hregister]
    exact UInt64.le_refl _

/-- A lineage that has not started after an effect was not written by it. -/
theorem not_writes_future (hwf : WellFormed before.storage)
    (hlive : LiveStep chain msg before effect after)
    (hfuture : epoch after.storage name < lineageEpoch) :
    ¬Writes before.storage effect (lineageKey (nameHash name) lineageEpoch) := by
  obtain ⟨hstep, hreg⟩ := hlive
  have hbefore : epoch before.storage name < lineageEpoch :=
    UInt64.lt_of_le_of_lt (epoch_mono hwf hstep name) hfuture
  rintro (⟨hash, htgt, hkey⟩ | ⟨other, state, rfl, hkey⟩)
  · obtain ⟨other, rfl, -⟩ := hreg hash htgt
    rcases hkey with hkey | hkey
    · exact Digest.noConfusion hkey
    rcases lineageStateKey_eq_or before.storage (nameHash other) with hlive | hlive
    · exact Digest.noConfusion (hkey.trans hlive)
    · obtain ⟨-, hhash, hepoch⟩ := Digest.keccak256Lineage.inj (hkey.trans hlive)
      rw [← hhash] at hepoch
      exact absurd hepoch.symm (UInt64.ne_of_lt hbefore)
  · obtain ⟨-, hhash, hepoch⟩ := Digest.keccak256Lineage.inj hkey
    obtain rfl : name = other := by simpa [nameHash] using hhash
    rw [(epoch_register hwf hstep).1, hepoch] at hfuture
    exact absurd hfuture (UInt64.lt_irrefl _)

theorem marker_live (hwf : WellFormed before.storage) (hstep : Step chain msg before effect after)
    (hnz : lineageEpoch ≠ 0) (hle : lineageEpoch ≤ epoch after.storage name) :
    after.storage.currentDocumentVersions (lineageKey (nameHash name) lineageEpoch)
      lineageStateMarker = lineageEpoch := by
  by_cases hregister : ∃ other state, effect = .register other state
  · obtain ⟨other, state, rfl⟩ := hregister
    rw [marker_register hstep]
    split
    · rename_i hkey
      exact (Digest.keccak256Lineage.inj hkey.1).2.2.symm
    rename_i hkey
    apply hwf.marker name lineageEpoch hnz
    by_cases hname : name = other
    · subst hname
      obtain ⟨hafter, ⟨-, hzero, -⟩ | ⟨-, hnext⟩⟩ := epoch_register hwf hstep
      · rw [hafter, hzero] at hle
        exact absurd (UInt64.le_zero_iff.mp hle) hnz
      have hne : lineageEpoch ≠ state.lineageEpoch := by
        rintro rfl
        exact hkey ⟨rfl, hnz⟩
      rw [hafter, le_iff_toNat_le] at hle
      rw [ne_eq, ← UInt64.toNat_inj] at hne
      rw [le_iff_toNat_le]
      omega
    · rw [epoch_step hstep] at hle
      · exact hle
      · intro other heq
        exact hname (register.inj heq).1.symm
  · push Not at hregister
    rw [marker_step hstep hregister]
    rw [epoch_step hstep (hregister name)] at hle
    exact hwf.marker name lineageEpoch hnz hle

theorem wellFormed_step (hlive : LiveStep chain msg before effect after)
    (hwf : WellFormed before.storage) : WellFormed after.storage where
  unregistered name hafter := by
    have hsame := sameName_of_unregistered hlive hafter
    have hbefore : ¬Registered before.storage name :=
      fun hreg => hafter (registered_step hlive.1 hreg)
    obtain ⟨hnames, hdocs, hslots⟩ := hwf.unregistered name hbefore
    exact ⟨hsame.names.trans hnames, hsame.documents.trans hdocs,
      fun key howns => (hsame.slots key howns).trans (hslots key howns)⟩
  stored name hafter := by
    by_cases hregister : ∃ state, effect = .register name state
    · obtain ⟨state, rfl⟩ := hregister
      exact storedName_register hlive.1
    · push Not at hregister
      exact storedName_change hlive.1 hregister
        (hwf.stored name (registered_before hlive hregister hafter))
  controllers key rule hrule hkind := by
    apply registered_step hlive.1
    rcases policies_step hlive.1 hrule with hold | hnew
    · exact hwf.controllers key rule hold hkind
    · exact registered_of_usableOwner hnew hkind
  future name lineageEpoch hfuture := by
    have hbefore : epoch before.storage name < lineageEpoch :=
      UInt64.lt_of_le_of_lt (epoch_mono hwf hlive.1 name) hfuture
    rw [hlive.1.2, perform, slots_write_of_not_writes (not_writes_future hwf hlive hfuture)]
    exact hwf.future name lineageEpoch hbefore
  marker name lineageEpoch := marker_live hwf hlive.1

end Preservation

/-! ## Epochs along calls -/

section Epochs

theorem epoch_trace (htrace : Effects chain msg machine effects after)
    (hregister : ∀ effect ∈ effects, ∀ state, effect ≠ .register name state) :
    epoch after.storage name = epoch machine.storage name := by
  refine htrace.preserves (fun next => epoch next.storage name = epoch machine.storage name) ?_ rfl
  intro effect heff before next hstep hbefore
  rw [epoch_step hstep (hregister effect heff), hbefore]

/-- A registration starts the first lineage of a new name and the next one of a
released name. -/
theorem epoch_registration (hwf : WellFormed machine.storage)
    (hperf : Performs chain msg call machine after) (hregister : call.registers = some name) :
    (¬Registered machine.storage name ∧ epoch after.storage name = 0) ∨
      (Registered machine.storage name ∧ (epoch after.storage name).toNat =
        (epoch machine.storage name).toNat + 1) := by
  obtain ⟨-, effects, hshape, htrace⟩ := hperf
  obtain ⟨state, rest, rfl, hrout⟩ := registration_effects hshape hregister
  obtain ⟨middle, hfirst, hrest⟩ := trace_cons_iff.mp htrace
  obtain ⟨hmid, hcases⟩ := epoch_register hwf hfirst
  rw [epoch_trace hrest fun effect heff => (hrout effect heff).ne_register name, hmid]
  exact hcases.imp (fun hnew => ⟨hnew.1, hnew.2.1⟩) id

theorem epoch_performs (hperf : Performs chain msg call machine after)
    (hregister : call.registers ≠ some name) :
    epoch after.storage name = epoch machine.storage name := by
  obtain ⟨-, effects, hshape, htrace⟩ := hperf
  refine epoch_trace htrace fun effect heff state heq => ?_
  exact hregister (registers_of_mem hshape (heq ▸ heff))

end Epochs

theorem wellFormed_of_reachable (hreach : Reachable chain storage) : WellFormed storage :=
  hreach.invariant WellFormed wellFormed_step wellFormed_initial

end CyfsGateway.BnsWellFormed
