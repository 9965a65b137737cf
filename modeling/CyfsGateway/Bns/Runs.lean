import CyfsGateway.Bns.Frames

/-!
# Runs of the BNS contract

A run is a sequence of call attempts by arbitrary senders at arbitrary block
times; a reverted attempt leaves the storage as it was.  `Reachable.invariant`
is the induction rule: a property of the fresh storage that every allowed
effect on a registered name preserves holds in every reachable storage.
-/

namespace CyfsGateway.BnsRuns

open Evm Transition BnsTypes BnsValidation BnsStorage BnsCore BnsFacets BnsEffects BnsExecution
  BnsCalls BnsFrames BnsCall Effect

structure Attempt where
  msg : Message
  call : BnsCall
  deriving DecidableEq

variable (chain : Deployment)

def commit (attempt : Attempt) (storage : Storage) : Storage :=
  match runCall chain attempt.msg attempt.call storage with
  | .ok (next, _) => next
  | .error _ => storage

def AttemptStep (before : Storage) (attempt : Attempt)
    (after : Storage) : Prop := after = commit chain attempt before

abbrev Run : Storage → List Attempt → Storage → Prop :=
  Trace (AttemptStep chain)

/-- A storage some run from deployment leads to. -/
def Reachable (storage : Storage) : Prop :=
  ∃ attempts, Run chain .initial attempts storage

def commitAll (attempts : List Attempt) (storage : Storage) :
    Storage := attempts.foldl (fun reached attempt => commit chain attempt reached) storage

theorem run_commitAll (attempts : List Attempt) (storage : Storage) :
    Run chain storage attempts (commitAll chain attempts storage) := by
  induction attempts generalizing storage with
  | nil => exact .nil storage
  | cons attempt attempts ih => exact .cons rfl (ih (commit chain attempt storage))

theorem reachable_commitAll (attempts : List Attempt) :
    Reachable chain (commitAll chain attempts .initial) :=
  ⟨attempts, run_commitAll chain attempts .initial⟩

theorem Reachable.initial : Reachable chain .initial := ⟨[], .nil _⟩

variable {chain : Deployment} {name : Bytes} {msg : Message} {effects : List Effect}

theorem Reachable.run (hreach : Reachable chain storage)
    (hrun : Run chain storage attempts last) : Reachable chain last := by
  obtain ⟨earlier, hearlier⟩ := hreach
  exact ⟨_, hearlier.append hrun⟩

variable {attempt : Attempt}

theorem commit_ok (hcall : runCall chain attempt.msg attempt.call storage = .ok (next, logs)) :
    commit chain attempt storage = next := by rw [commit, hcall]

variable {storage : Storage}

theorem commit_error (hcall : runCall chain attempt.msg attempt.call storage = .error error) :
    commit chain attempt storage = storage := by rw [commit, hcall]

def succeeds (chain : Deployment) (attempt : Attempt) (storage : Storage) : Bool :=
  match runCall chain attempt.msg attempt.call storage with
  | .ok _ => true
  | .error _ => false

theorem runCall_of_succeeds (hsucc : succeeds chain attempt storage = true) :
    ∃ logs, runCall chain attempt.msg attempt.call storage =
      .ok (commit chain attempt storage, logs) := by
  cases hcall : runCall chain attempt.msg attempt.call storage with
  | error error => simp [succeeds, hcall] at hsucc
  | ok result =>
    obtain ⟨next, logs⟩ := result
    exact ⟨logs, by rw [commit_ok hcall]⟩

theorem commit_of_not_succeeds (hfails : succeeds chain attempt storage = false) :
    commit chain attempt storage = storage := by
  cases hcall : runCall chain attempt.msg attempt.call storage with
  | error error => exact commit_error hcall
  | ok result => simp [succeeds, hcall] at hfails

def emitted (chain : Deployment) (attempt : Attempt) (storage : Storage) : List BnsEvent :=
  match runCall chain attempt.msg attempt.call storage with
  | .ok (_, logs) => logs
  | .error _ => []

theorem runCall_emitted (hsucc : succeeds chain attempt storage = true) :
    runCall chain attempt.msg attempt.call storage =
      .ok (commit chain attempt storage, emitted chain attempt storage) := by
  obtain ⟨logs, hcall⟩ := runCall_of_succeeds hsucc
  simp only [emitted, hcall]

/-! ## Effects a call may contain -/

def eventName : BnsEvent → Option Bytes
  | .nameRegistered _ name .. | .nameRenewed _ name .. | .nameAssetTransferred _ name ..
  | .nameOwnerUpdated _ name .. | .authorityKeysUpdated _ name .. | .nameReleased _ name ..
  | .documentPublished _ name .. | .documentRevoked _ name ..
  | .ownerDocumentIatFloorUpdated _ name .. | .controllerPolicyUpdated _ name ..
  | .namespacePolicyUpdated _ name .. | .didAliasSet _ name ..
  | .paymentTargetUpdated _ name .. => some name
  | .protocolEvent .. | .logCheckpointPublished .. => none

/-- The effects that any mutation of a name may perform.  They are all on the name itself;
the others are those of one kind of call each. -/
def IsRoutine (name : Bytes) : Effect → Prop
  | .editName hash _ | .bumpNameSeq hash | .setSemanticOwner hash _
  | .addDocument hash _ _ | .putKey hash _ | .putSet hash _ | .putPolicy hash _ =>
    hash = nameHash name
  | .log _ _ event => eventName event = some name
  | .register .. | .setAssetOwner .. | .release .. | .repriceDocument .. | .putAlias ..
  | .putCheckpoint .. => False

/-- The effects that only one kind of call performs. -/
def IsSpecific : BnsCall → Effect → Prop
  | .registerName name .., .register other _ => other = name
  | .releaseName name .., .release hash _ => hash = nameHash name
  | .transferName name .., .setAssetOwner hash _ => hash = nameHash name
  | .setDidAlias name .., .putAlias hash _ => hash = nameHash name
  | .setPaymentTarget name docType _ terms _ _, .repriceDocument hash docTypeHash repriced =>
    hash = nameHash name ∧ docTypeHash = .keccak256 docType ∧ repriced = terms
  | .publishLogCheckpoint .., .putCheckpoint _ => True
  | .publishLogCheckpoint .., .log _ _ event => eventName event = none
  | _, _ => False

variable {effect : Effect}

theorem IsRoutine.target_eq (hrout : IsRoutine name effect) {hash}
    (htgt : effect.target = some hash) : hash = nameHash name := by
  cases effect <;> simp_all [target, IsRoutine]

theorem IsRoutine.ne_register
    (hrout : IsRoutine name effect) (other : Bytes) (state : NameState) :
    effect ≠ .register other state := by
  rintro rfl
  exact hrout

def Routine (name : Bytes) (effects : List Effect) : Prop :=
  ∀ effect ∈ effects, IsRoutine name effect

@[simp]
theorem routine_nil : Routine name [] := by simp [Routine]

@[simp]
theorem routine_cons :
    Routine name (effect :: effects) ↔ IsRoutine name effect ∧ Routine name effects := by
  simp [Routine]

@[simp]
theorem routine_append : Routine name (left ++ right) ↔ Routine name left ∧ Routine name right := by
  simp only [Routine, List.forall_mem_append]

/-- The fields of a name that decide who signs for it. -/
def standing (state : NameState) : Bytes × Address × Principal × NameStatus × UInt64 :=
  (state.name, state.assetOwner, state.semanticOwner, state.status, state.expireAt)

/-- The routine effects that change neither keys nor the standing of a name. -/
def IsPlain (name : Bytes) : Effect → Prop
  | .editName hash change =>
    hash = nameHash name ∧ ∀ state, standing (change state) = standing state
  | .bumpNameSeq hash | .addDocument hash _ _ | .putPolicy hash _ => hash = nameHash name
  | .log _ _ event => eventName event = some name
  | _ => False

def Plain (name : Bytes) (effects : List Effect) : Prop := ∀ effect ∈ effects, IsPlain name effect

@[simp]
theorem plain_nil : Plain name [] := by simp [Plain]

@[simp]
theorem plain_cons :
    Plain name (effect :: effects) ↔ IsPlain name effect ∧ Plain name effects := by simp [Plain]

@[simp]
theorem plain_append : Plain name (left ++ right) ↔ Plain name left ∧ Plain name right := by
  simp only [Plain, List.forall_mem_append]

@[simp]
theorem plain_bumpEffects : Plain name (bumpEffects (nameHash name) bump) := by
  cases bump <;> simp [bumpEffects, IsPlain]

@[simp]
theorem standing_touched : standing (touched msg state) = standing state := rfl

theorem Plain.routine (hplain : Plain name effects) : Routine name effects := by
  intro effect heff
  have hthis := hplain effect heff
  cases effect <;> simp_all [IsPlain, IsRoutine]

section Shapes

theorem plain_version :
    Plain name (versionEffects msg (nameHash name) docTypeHash document bump) := by
  rw [versionEffects]
  split <;> simp [IsPlain, standing, touched]

theorem plain_publish (hshape : PublishEffects msg name bump update effects) :
    Plain name effects := by
  obtain ⟨document, payload, -, -, rfl⟩ := hshape
  simp [plain_version, IsPlain, eventName]

theorem plain_published (hparts : List.Forall₂ (PublishEffects msg name bump) updates parts) :
    Plain name parts.flatten := by
  induction hparts with
  | nil => exact plain_nil
  | cons hhead _ ih => exact plain_append.mpr ⟨plain_publish hhead, ih⟩

theorem routine_keys (hshape : KeyEffects msg name updates effects) : Routine name effects := by
  obtain ⟨set, payload, -, rfl⟩ := hshape
  have hkeys : Routine name (updates.map (.putKey (nameHash name))) := by simp [Routine, IsRoutine]
  simp [hkeys, IsRoutine, eventName]

theorem plain_policy
    (hshape : PolicyEffects msg name rules policyHash bump effects) : Plain name effects := by
  obtain ⟨nameSeq, payload, rfl⟩ := hshape
  simp [IsPlain, eventName]

theorem plain_floor
    (hshape : FloorEffects msg name floor reasonHash bump effects) : Plain name effects := by
  obtain ⟨previous, policySeq, nameSeq, payload, rfl⟩ := hshape
  simp [IsPlain, standing, touched, eventName]

theorem plain_announce (hshape : AnnounceEffects msg name effects) : Plain name effects := by
  obtain ⟨state, payload, rfl⟩ := hshape
  simp [IsPlain, eventName]

theorem plain_owner (hshape : OwnerEffects msg name owner bump effects) :
    ∃ rest, effects = .setSemanticOwner (nameHash name) owner :: rest ∧ Plain name rest := by
  obtain ⟨announced, hann, rfl⟩ := hshape
  exact ⟨_, rfl, by simp [plain_announce hann, IsPlain]⟩

theorem routine_owner (hshape : OwnerEffects msg name owner bump effects) :
    Routine name effects := by
  obtain ⟨rest, rfl, hplain⟩ := plain_owner hshape
  simp [hplain.routine, IsRoutine]

theorem plain_batch (hshape : effects = [.bumpNameSeq (nameHash name),
      .editName (nameHash name) (touched msg)]) : Plain name effects := by simp [hshape, IsPlain]

end Shapes

variable {call : BnsCall}

theorem name_of_registers {name} (hregister : call.registers = some name) :
    call.name = some name := by
  cases call <;> simp_all [registers, BnsCall.name]

section Calls

variable (hshape : CallEffects msg call effects)

include hshape

/-- A registration starts a lineage of its name and then writes to it. -/
theorem registration_effects {name} (hregister : call.registers = some name) :
    ∃ state rest, effects = .register name state :: rest ∧ Routine name rest := by
  cases hshape <;>
    simp only [registers, Option.some.injEq, reduceCtorEq] at hregister
  case registerName hparts hkeys howner hrules =>
    subst hregister
    simp [(plain_published hparts).routine, hkeys.elim routine_nil routine_keys,
      howner.elim routine_nil routine_owner, (hrules.elim plain_nil plain_policy).routine,
      IsRoutine, eventName]

/-- Every effect of a call is a routine one on its name or specific to it. -/
theorem effect_of_call (heff : effect ∈ effects) :
    (∃ name, call.name = some name ∧ IsRoutine name effect) ∨ IsSpecific call effect := by
  have hrout : ∀ {name}, call.name = some name → Routine name effects →
      (∃ name, call.name = some name ∧ IsRoutine name effect) ∨ IsSpecific call effect :=
    fun hname hall => .inl ⟨_, hname, hall effect heff⟩
  have hcall := hshape
  cases hshape
  case registerName =>
    obtain ⟨state, rest, heffs, hrest⟩ := registration_effects hcall rfl
    rw [heffs, List.mem_cons] at heff
    rcases heff with rfl | hmem
    · exact .inr rfl
    · exact .inl ⟨_, rfl, hrest effect hmem⟩
  case transferName hanno hparts =>
    rcases List.mem_cons.mp heff with rfl | hmem
    · exact .inr rfl
    · refine .inl ⟨_, rfl, (?_ : Routine _ _) effect hmem⟩
      simp [(plain_announce hanno).routine, (plain_published hparts).routine, IsRoutine,
        eventName]
  case applyMutations hkeys hbump hparts hfloor =>
    refine hrout rfl ?_
    simp [hkeys.elim routine_nil routine_keys, (hbump.elim plain_nil plain_batch).routine,
      (plain_published hparts).routine, (hfloor.elim plain_nil plain_floor).routine]
  case setNameOwner howner => exact hrout rfl (routine_owner howner)
  case updateAuthorityKeys hkeys => exact hrout rfl (routine_keys hkeys)
  case setMinDocumentIat hfloor => exact hrout rfl (plain_floor hfloor).routine
  case publishDocument hpub => exact hrout rfl (plain_publish hpub).routine
  case setControllerPolicy hpol => exact hrout rfl (plain_policy hpol).routine
  case revokeDocument => exact hrout rfl (by simp [plain_version.routine, IsRoutine, eventName])
  case renewName => exact hrout rfl (by simp [IsRoutine, eventName])
  case setNamespacePolicy => exact hrout rfl (by simp [IsRoutine, eventName])
  all_goals
    simp only [List.mem_cons, List.not_mem_nil, or_false] at heff
    rcases heff with rfl | rfl | rfl | rfl | rfl <;>
      first
        | exact .inl ⟨_, rfl, rfl⟩
        | exact .inl ⟨_, rfl, trivial⟩
        | exact .inr rfl
        | exact .inr trivial
        | exact .inr ⟨rfl, rfl, rfl⟩

theorem target_call (heff : effect ∈ effects) {hash} (htgt : effect.target = some hash) :
    ∃ name, call.name = some name ∧ hash = nameHash name := by
  rcases effect_of_call hshape heff with ⟨name, hname, hrout⟩ | hspecific
  · exact ⟨name, hname, hrout.target_eq htgt⟩
  · cases effect <;> cases call <;> simp_all [target, IsSpecific, BnsCall.name]

theorem registers_of_mem (hmem : register name state ∈ effects) : call.registers = some name := by
  rcases effect_of_call hshape hmem with ⟨other, -, hrout⟩ | hspecific
  · exact absurd rfl (hrout.ne_register name state)
  · cases call <;> simp_all [IsSpecific, registers]

theorem eventName_of_call (hlog : .log eventType payload event ∈ effects) :
    eventName event = call.name := by
  rcases effect_of_call hshape hlog with ⟨name, hname, hrout⟩ | hspecific
  · rw [hname]
    exact hrout
  · cases call <;> simp_all [IsSpecific, BnsCall.name]

end Calls

theorem sameName_of_performs {msg machine after} (hperf : Performs chain msg call machine after)
    {name} (hname : call.name ≠ some name) :
    SameName (nameHash name) machine.storage after.storage := by
  obtain ⟨-, effects, hshape, htrace⟩ := hperf
  refine htrace.relates (fun before next => SameName (nameHash name) before.storage next.storage)
    (fun before => .refl _ before.storage) .trans ?_
  rintro effect heff before next ⟨-, rfl⟩
  refine sameName_write fun hash htgt => ?_
  obtain ⟨other, hcall, hhash⟩ := target_call hshape heff htgt
  exact ⟨other, fun heq => hname (heq ▸ hcall), hhash⟩

/-! ## Effects on registered names -/

/-- A name that has been registered at least once. -/
def Registered (storage : Storage) (name : Bytes) : Prop :=
  (storage.names (nameHash name)).status ≠ .available

theorem registered_of_isActiveName
    (hactive : isActiveName now (storage.names (nameHash name)) = true) :
    Registered storage name := by
  intro havailable
  simp [isActiveName, effectiveNameStatus, havailable] at hactive

/-- A registration, or a write to a registered name. -/
def OnRegistered (storage : Storage) (effect : Effect) : Prop :=
  ∀ hash, effect.target = some hash → ∃ name, hash = nameHash name ∧
    (Registered storage name ∨ ∃ state, effect = .register name state)

theorem status_of_sameIdentity (hsame : SameIdentity before after)
    (hreg : before.status ≠ .available) :
    after.status ≠ .available := by
  rcases hsame.status with hstat | ⟨-, hstat⟩
  · rwa [hstat]
  · simp [hstat]

variable {after : Machine}

theorem registered_step (hstep : Step chain msg machine effect after)
    (hreg : Registered machine.storage name) :
    Registered after.storage name := by
  obtain ⟨hallow, rfl⟩ := hstep
  rw [Registered, perform, names_write]
  split
  case isFalse => exact hreg
  case isTrue htgt =>
    cases effect with
    | register other state =>
      obtain ⟨-, -, -, -, hstat, -⟩ := hallow
      simp [nextState, hstat]
    | editName hash change =>
      obtain rfl := Option.some.inj htgt
      exact status_of_sameIdentity hallow hreg
    | release hash mode => cases mode <;> simp [nextState, releasedStatus]
    | _ => exact hreg

theorem registered_register {state} (hstep : Step chain msg machine (.register name state) after) :
    Registered after.storage name := by
  obtain ⟨⟨-, -, -, -, hstat, -⟩, rfl⟩ := hstep
  simp [Registered, perform, write, hstat]

/-- An allowed effect on a registered name, or the registration of one.  Only such steps
happen in a run, which is what keeps the slots of unknown names empty. -/
def LiveStep (chain : Deployment) (msg : Message) (before : Machine) (effect : Effect)
    (after : Machine) : Prop :=
  Step chain msg before effect after ∧ OnRegistered before.storage effect

section Live

theorem trace_live (htrace : Effects chain msg machine effects after)
    (htgts : ∀ effect ∈ effects, ∀ hash, effect.target = some hash → hash = nameHash name)
    (hreg : Registered machine.storage name) :
    Trace (LiveStep chain msg) machine effects after := by
  induction htrace with
  | nil state => exact .nil state
  | cons hstep _ ih =>
    rw [List.forall_mem_cons] at htgts
    refine .cons ⟨hstep, fun hash htgt => ?_⟩ (ih htgts.2 (registered_step hstep hreg))
    exact ⟨name, htgts.1 hash htgt, .inl hreg⟩

theorem admitted_registered {storage call} (hadm : Admitted msg storage call)
    (hname : call.name = some name) (hregister : call.registers = none) :
    Registered storage name := by
  cases call <;> simp only [BnsCall.name, Option.some.injEq, reduceCtorEq] at hname <;>
    subst hname
  case registerName => simp [registers] at hregister
  case renewName => exact hadm.2.1
  all_goals exact registered_of_isActiveName hadm.1.2.1

theorem performs_live {call} (hperf : Performs chain msg call machine after) :
    ∃ effects, CallEffects msg call effects ∧ Trace (LiveStep chain msg) machine effects after := by
  obtain ⟨hadm, effects, hshape, htrace⟩ := hperf
  refine ⟨effects, hshape, ?_⟩
  cases hcall : call.name with
  | none =>
    refine htrace.mono fun effect heff before next hstep => ⟨hstep, ?_⟩
    intro hash htgt
    obtain ⟨name, hname, -⟩ := target_call hshape heff htgt
    rw [hcall] at hname
    cases hname
  | some name =>
    have htgts : ∀ effect ∈ effects, ∀ hash, effect.target = some hash →
        hash = nameHash name := by
      intro effect heff hash htgt
      obtain ⟨other, hother, hhash⟩ := target_call hshape heff htgt
      rw [hcall, Option.some.injEq] at hother
      rwa [hother]
    by_cases hregister : call.registers = none
    · exact trace_live htrace htgts (admitted_registered hadm hcall hregister)
    obtain ⟨other, hregs⟩ := Option.ne_none_iff_exists'.mp hregister
    rw [name_of_registers hregs, Option.some.injEq] at hcall
    subst hcall
    obtain ⟨state, rest, rfl, -⟩ := registration_effects hshape hregs
    obtain ⟨middle, hfirst, hrest⟩ := trace_cons_iff.mp htrace
    refine .cons ⟨hfirst, fun hash htgt => ?_⟩
      (trace_live hrest (List.forall_mem_cons.mp htgts).2 (registered_register hfirst))
    exact ⟨other, (Option.some.inj htgt).symm, .inr ⟨state, rfl⟩⟩

end Live

section Induction

section Invariants

variable (Invariant : Storage → Prop)
  (hstep : ∀ {msg before effect after}, LiveStep chain msg before effect after →
    Invariant before.storage → Invariant after.storage)

include hstep

/-- What every effect on a registered name preserves, every call preserves. -/
theorem commit_preserves (hstorage : Invariant storage) :
    Invariant (commit chain attempt storage) := by
  cases hcall : runCall chain attempt.msg attempt.call storage with
  | error error => rwa [commit_error hcall]
  | ok result =>
    obtain ⟨effects, -, htrace⟩ := performs_live (runCall_performs hcall)
    rw [commit_ok hcall]
    exact htrace.preserves (fun machine => Invariant machine.storage)
      (fun effect _ before after => hstep) hstorage

theorem Run.preserves (hrun : Run chain storage attempts last) (hstorage : Invariant storage) :
    Invariant last := by
  refine Trace.preserves hrun Invariant (fun attempt _ before after hattempt => ?_) hstorage
  rw [hattempt]
  exact commit_preserves Invariant hstep

theorem Reachable.invariant (hreach : Reachable chain storage) (hinitial : Invariant .initial) :
    Invariant storage := by
  obtain ⟨attempts, hrun⟩ := hreach
  exact Run.preserves Invariant hstep hrun hinitial

end Invariants

end Induction

/-! ## A sample deployment

Concrete calls for the instances of the theorems below.  Every account is the
address of one byte and every key authenticates the account it is named after. -/

def sampleChain : Deployment where
  keccak256 _ := .zero
  sha256 _ := .zero
  chainId := 1
  self := .zero

def sampleOptions : RegisterOptions where
  duration := 1000
  gracePeriod := 10
  renewable := true
  transferable := true
  initialSemanticOwner := {}
  allowDelegatedSubnames := true
  initialPaymentTarget := .zero
  initialPaymentPolicyHash := .zero
  initialNamespacePolicyHash := .zero

def sampleKey (account : UInt8) : AuthorityKeyUpdate where
  key :=
    { kid := .ofByte account
      verificationMethod := .ofByte 1
      keyData := (Address.ofByte account).val
      purposes := keyPurposeAuthentication }
  active := true

def accountAuthority (account : UInt8) : CallAuthority where
  role := .owner
  actor := chainAccountPrincipal (.ofByte account)
  kid := .zero

/-- The owner role claimed through a key of a name. -/
def nameAuthority (name : String) (account : UInt8) : CallAuthority where
  role := .owner
  actor := { kind := .bnsName, value := text name }
  kid := .ofByte account

/-- `account` registers a root name with one key of its own. -/
def sampleRegistration (name : String) (account : UInt8) : Attempt where
  msg := { sender := .ofByte account, now := 5 }
  call := .registerName (text name) (.ofByte account) sampleOptions [sampleKey account] {}
    [] .zero [] { role := .none, actor := {}, kid := .zero }
    { expectedNameSeq := 0, expectedParentNameSeq := 0 }

/-- The account that owns a root name releases it at sequence number `seq`. -/
def sampleRelease (name : String) (account : UInt8) (seq : UInt64) : Attempt where
  msg := { sender := .ofByte account, now := 6 }
  call := .releaseName (text name) .releaseAfterGrace .zero (accountAuthority account)
    { expectedNameSeq := seq, expectedParentNameSeq := 0 }

/-- The account that owns a root name hands it to the keys of another name. -/
def sampleDelegation (name owner : String) (account : UInt8) (seq : UInt64) : Attempt where
  msg := { sender := .ofByte account, now := 6 }
  call := .setNameOwner (text name) { kind := .bnsName, value := text owner }
    (accountAuthority account) { expectedNameSeq := seq, expectedParentNameSeq := 0 }

/-- Alice hands her name to the keys of bob, and bob is released: nobody can
sign for alice, and whoever registers bob again will. -/
def orphanedStorage : Storage :=
  commitAll sampleChain [sampleRegistration "bob" 7, sampleRegistration "alice" 9,
      sampleDelegation "alice" "bob" 9 1, sampleRelease "bob" 7 1] .initial

def sampleDocument (docType : String) (version : UInt64) : DocumentUpdate where
  docType := text docType
  expectedVersion := version
  document := { storageType := .ofByte 1 }
  controller := {}
  beneficiary := {}
  paymentTarget := .zero
  expireAt := 0
  controllerPolicyHash := .zero
  paymentPolicyHash := .zero
  splitPolicyHash := .zero
  pricePolicyHash := .zero
  rightsPolicyHash := .zero

/-- The account that owns a root name publishes a document over `version`. -/
def samplePublication (name : String) (account : UInt8) (seq version : UInt64) : Attempt where
  msg := { sender := .ofByte account, now := 6 }
  call := .publishDocument (text name) (sampleDocument "boot" version)
    (accountAuthority account) { expectedNameSeq := seq, expectedParentNameSeq := 0 }

end CyfsGateway.BnsRuns
