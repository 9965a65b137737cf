import CyfsGateway.Bns.WellFormed

/-!
# Sequence numbers

`nameSeq` counts the mutations of a name over all its lineages and
`authoritySeq` the key updates of the live one.  Each effect advances the two
counters by a fixed amount; summing over the shape of a call shows that a
mutation takes exactly one `nameSeq`, so that a guard admits one mutation.
-/

namespace CyfsGateway.BnsSequencing

open Evm Transition BnsTypes BnsValidation BnsStorage BnsCore BnsFacets BnsEffects BnsExecution
  BnsCalls BnsFrames BnsRuns BnsWellFormed Effect

def nameSeq (storage : Storage) (name : Bytes) : Nat :=
  (storage.names (nameHash name)).nameSeq.toNat

def authoritySeq (storage : Storage) (name : Bytes) : Nat :=
  (storage.authoritySets (lineageStateKey storage (nameHash name))).authoritySeq.toNat

/-- Calls that update authority keys and nothing else. -/
def authorityOnly : BnsCall → Bool
  | .updateAuthorityKeys .. => true
  | .applyMutations _ _ documents policy _ _ =>
    documents.length == 0 && !policy.updateMinDocumentIat
  | _ => false

def seqBump (hash : Digest) : Effect → Nat
  | .register name _ => if nameHash name = hash then 1 else 0
  | .bumpNameSeq target => if target = hash then 1 else 0
  | _ => 0

def setBump (hash : Digest) : Effect → Nat
  | .putSet target _ => if target = hash then 1 else 0
  | _ => 0

section Steps

theorem nameSeq_step (hstep : Step chain msg before effect after) (name : Bytes) :
    nameSeq after.storage name = nameSeq before.storage name + seqBump (nameHash name) effect := by
  obtain ⟨hallow, rfl⟩ := hstep
  rw [nameSeq, nameSeq, perform, names_write]
  split
  case isFalse htgt => cases effect <;> simp_all [seqBump, target]
  case isTrue htgt =>
    cases effect with
    | register other state =>
      obtain ⟨-, -, -, -, -, -, -, hseq, -⟩ := hallow
      simp_all [nextState, seqBump, target]
    | bumpNameSeq hash =>
      obtain rfl := Option.some.inj htgt
      rw [nextState, UInt64.toNat_add, UInt64.toNat_one, Nat.mod_eq_of_lt hallow]
      simp [seqBump]
    | editName hash change =>
      obtain rfl := Option.some.inj htgt
      rw [nextState, hallow.nameSeq]
      rfl
    | _ => rfl

theorem authoritySeq_step (hstep : Step chain msg before effect after) {name}
    (htgt : ∀ hash, effect.target = some hash → hash = nameHash name)
    (hother : ∀ state, effect ≠ .register name state) :
    authoritySeq after.storage name =
      authoritySeq before.storage name + setBump (nameHash name) effect := by
  have hlive := lineageStateKey_step hstep hother
  obtain ⟨hallow, rfl⟩ := hstep
  simp only [authoritySeq, hlive]
  by_cases hset : ∃ hash set, effect = .putSet hash set
  · obtain ⟨hash, set, rfl⟩ := hset
    obtain rfl := htgt hash rfl
    have hseq := (recomputeAuthoritySet_ok hallow.1).2
    simp [perform, write, putAuthoritySet, setBump, hseq]
  · push Not at hset
    have hzero : setBump (nameHash name) effect = 0 := by cases effect <;> simp_all [setBump]
    rw [perform, keepsOthers_write.authoritySets hset, hzero, Nat.add_zero]

end Steps

def seqBumps (hash : Digest) (effects : List Effect) : Nat := (effects.map (seqBump hash)).sum

variable {hash : Digest}

@[simp]
theorem seqBumps_nil : seqBumps hash [] = 0 := rfl

@[simp]
theorem seqBumps_cons {effect effects} :
    seqBumps hash (effect :: effects) = seqBump hash effect + seqBumps hash effects := by
  simp [seqBumps]

@[simp]
theorem seqBumps_append :
    seqBumps hash (left ++ right) = seqBumps hash left + seqBumps hash right := by simp [seqBumps]

@[simp]
theorem seqBumps_bumpEffects {bump} :
    seqBumps hash (bumpEffects hash bump) = bump.toNat := by
  cases bump <;> simp [bumpEffects, seqBump]

section Shapes

variable {msg : Message} {name : Bytes} {bump : Bool} {effects : List Effect}

theorem seqBumps_conditionally (hshape : Shape effects → seqBumps hash effects = 0)
    (heffs : Conditionally condition Shape effects) : seqBumps hash effects = 0 := by
  apply heffs.elim
  · rfl
  · exact hshape

theorem seqBumps_version :
    seqBumps (nameHash name) (versionEffects msg (nameHash name) docTypeHash document bump) =
      bump.toNat := by
  rw [versionEffects]
  split <;> simp [seqBump]

theorem seqBumps_publish (hshape : PublishEffects msg name bump update effects) :
    seqBumps (nameHash name) effects = bump.toNat := by
  obtain ⟨document, payload, -, -, rfl⟩ := hshape
  simp [seqBumps_version, seqBump]

theorem seqBumps_published {updates}
    (hparts : List.Forall₂ (PublishEffects msg name false) updates parts) :
    seqBumps (nameHash name) parts.flatten = 0 := by
  induction hparts with
  | nil => rfl
  | cons hhead _ ih => simp [seqBumps_publish hhead, ih]

theorem seqBumps_keys (hshape : KeyEffects msg name updates effects) :
    seqBumps (nameHash name) effects = 0 := by
  obtain ⟨set, payload, -, rfl⟩ := hshape
  simp [seqBumps, seqBump, Function.comp_def]

theorem setBumps_keys (hshape : KeyEffects msg name updates effects) :
    (effects.map (setBump (nameHash name))).sum = 1 := by
  obtain ⟨set, payload, -, rfl⟩ := hshape
  simp [setBump, Function.comp_def]

theorem seqBumps_policy (hshape : PolicyEffects msg name rules policyHash bump effects) :
    seqBumps (nameHash name) effects = bump.toNat := by
  obtain ⟨nameSeq, payload, rfl⟩ := hshape
  simp [seqBump]

theorem seqBumps_floor (hshape : FloorEffects msg name floor reasonHash bump effects) :
    seqBumps (nameHash name) effects = bump.toNat := by
  obtain ⟨previous, policySeq, nameSeq, payload, rfl⟩ := hshape
  simp [seqBump]

theorem seqBumps_announce (hshape : AnnounceEffects msg name effects) :
    seqBumps (nameHash name) effects = 0 := by
  obtain ⟨state, payload, rfl⟩ := hshape
  simp [seqBump]

theorem seqBumps_owner (hshape : OwnerEffects msg name owner bump effects) :
    seqBumps (nameHash name) effects = bump.toNat := by
  obtain ⟨announced, hann, rfl⟩ := hshape
  simp [seqBumps_announce hann, seqBump]

end Shapes

/-! ## Calls -/

section Calls

variable {msg : Message} {call : BnsCall} {name : Bytes}

theorem seqBumps_call {effects} (hshape : CallEffects msg call effects)
    (hname : call.name = some name) :
    seqBumps (nameHash name) effects = if authorityOnly call then 0 else 1 := by
  cases hshape <;> simp only [BnsCall.name, Option.some.injEq, reduceCtorEq] at hname <;>
    subst hname
  case registerName hparts hkeys howner hrules =>
    simp [seqBumps_published hparts, seqBumps_conditionally seqBumps_keys hkeys,
      seqBumps_conditionally seqBumps_owner howner,
      seqBumps_conditionally seqBumps_policy hrules, seqBump, authorityOnly]
  case setNameOwner howner => simp [seqBumps_owner howner, authorityOnly]
  case transferName hanno hparts =>
    simp [seqBumps_announce hanno, seqBumps_published hparts, seqBump, authorityOnly]
  case applyMutations hkeys hbump hparts hfloor =>
    rw [seqBumps_append, seqBumps_append, seqBumps_append, seqBumps_published hparts,
      seqBumps_conditionally seqBumps_keys hkeys,
      seqBumps_conditionally seqBumps_floor hfloor]
    rcases hbump with ⟨hmutates, rfl⟩ | ⟨hkeysOnly, rfl⟩
    · rw [if_neg]
      · simp [seqBump]
      · rcases hmutates with hdocs | hpol
        · simp [authorityOnly, List.length_eq_zero_iff.not.mp hdocs]
        · simp [authorityOnly, hpol]
    · rw [not_or, not_not, Bool.not_eq_true] at hkeysOnly
      simp [authorityOnly, hkeysOnly.1, hkeysOnly.2]
  case updateAuthorityKeys hkeys => simp [seqBumps_keys hkeys, authorityOnly]
  case setMinDocumentIat hfloor => simp [seqBumps_floor hfloor, authorityOnly]
  case publishDocument hpub => simp [seqBumps_publish hpub, authorityOnly]
  case revokeDocument => simp [seqBumps_version, seqBump, authorityOnly]
  case setControllerPolicy hpol => simp [seqBumps_policy hpol, authorityOnly]
  all_goals simp [seqBump, authorityOnly]

theorem nameSeq_performs {after} (hperf : Performs chain msg call machine after)
    (hname : call.name = some name) :
    nameSeq after.storage name =
      nameSeq machine.storage name + if authorityOnly call then 0 else 1 := by
  obtain ⟨-, effects, hshape, htrace⟩ := hperf
  rw [← seqBumps_call hshape hname]
  exact htrace.counts (nameSeq ·.storage name) (seqBump (nameHash name))
    fun effect _ before next hstep => nameSeq_step hstep name

/-- The effects of an authority-only call are those of one key update. -/
theorem keyEffects_of_authorityOnly {effects} (hadm : Admitted msg storage call)
    (hshape : CallEffects msg call effects) (hname : call.name = some name)
    (honly : authorityOnly call = true) :
    ∃ updates, KeyEffects msg name updates effects := by
  cases hshape <;> simp only [authorityOnly, reduceCtorEq] at honly <;>
    obtain rfl := Option.some.inj hname
  case updateAuthorityKeys hkeys => exact ⟨_, hkeys⟩
  case applyMutations hkeys hbump hparts hfloor =>
    rw [Bool.and_eq_true, beq_iff_eq, Bool.not_eq_true'] at honly
    obtain ⟨hdocs, hpol⟩ := honly
    obtain rfl := List.length_eq_zero_iff.mp hdocs
    obtain rfl := List.forall₂_nil_left_iff.mp hparts
    have hupds := hadm.2.1
    simp only [hpol, List.length_nil, and_true] at hupds
    obtain rfl := (hbump.resolve_left (by simp [hpol])).2
    obtain rfl := (hfloor.resolve_left (by simp [hpol])).2
    have hperformed := (hkeys.resolve_right (by simp [hupds])).2
    exact ⟨_, by simpa using hperformed⟩

theorem authoritySeq_performs {after} (hperf : Performs chain msg call machine after)
    (hname : call.name = some name) (honly : authorityOnly call = true) :
    authoritySeq after.storage name = authoritySeq machine.storage name + 1 := by
  obtain ⟨hadm, effects, hshape, htrace⟩ := hperf
  obtain ⟨updates, hkeys⟩ := keyEffects_of_authorityOnly hadm hshape hname honly
  rw [← setBumps_keys hkeys]
  refine htrace.counts (authoritySeq ·.storage name) (setBump (nameHash name))
    fun effect heff before next hstep => ?_
  have hrout := routine_keys hkeys effect heff
  exact authoritySeq_step hstep (fun _ => hrout.target_eq) (hrout.ne_register name)

theorem nameSeq_mono_commit (chain : Deployment) (attempt : Attempt) (storage : Storage)
    (name : Bytes) :
    nameSeq storage name ≤ nameSeq (commit chain attempt storage) name := by
  cases hcall : runCall chain attempt.msg attempt.call storage with
  | error error =>
    rewrite [commit_error hcall]
    exact Nat.le_refl _
  | ok result =>
    have hperf := runCall_performs hcall
    rw [commit_ok hcall]
    by_cases hname : attempt.call.name = some name
    · rw [nameSeq_performs hperf hname]
      exact Nat.le_add_right _ _
    · rewrite [nameSeq, nameSeq, (sameName_of_performs hperf hname).names]
      exact Nat.le_refl _

end Calls

/-! ## Guards over a run -/

def guardedSeq : BnsCall → Option UInt64
  | .setNameOwner _ _ _ guard | .releaseName _ _ _ _ guard
  | .setNamespacePolicy _ _ _ _ guard | .transferName _ _ _ _ _ guard
  | .applyMutations _ _ _ _ _ guard | .updateAuthorityKeys _ _ _ guard
  | .setMinDocumentIat _ _ _ _ guard | .publishDocument _ _ _ guard
  | .revokeDocument _ _ _ _ _ guard | .setControllerPolicy _ _ _ _ guard
  | .setDidAlias _ _ _ _ _ guard | .setPaymentTarget _ _ _ _ _ guard => some guard.expectedNameSeq
  | .registerName .. | .renewName .. | .publishLogCheckpoint .. => none

theorem nameSeq_of_guarded {msg call name} (hadm : Admitted msg storage call)
    (hname : call.name = some name) (hguard : guardedSeq call = some seq) :
    nameSeq storage name = seq.toNat := by
  cases call <;> simp only [guardedSeq, Option.some.injEq, reduceCtorEq] at hguard <;>
    obtain rfl := Option.some.inj hname <;> subst hguard <;>
    exact congrArg UInt64.toNat hadm.1.2.2

/-- A committed mutation of `name` that was guarded by `seq` and touches more
than authority keys. -/
def acceptsAt (chain : Deployment) (name : Bytes) (seq : UInt64) (storage : Storage)
    (attempt : Attempt) : Bool :=
  succeeds chain attempt storage && attempt.call.name == some name &&
    guardedSeq attempt.call == some seq && !authorityOnly attempt.call

/-- How many such mutations a sequence of attempts commits. -/
def acceptedAt (chain : Deployment) (name : Bytes) (seq : UInt64) : Storage → List Attempt → Nat
  | _, [] => 0
  | storage, attempt :: rest =>
    (acceptsAt chain name seq storage attempt).toNat +
      acceptedAt chain name seq (commit chain attempt storage) rest

theorem nameSeq_of_acceptsAt {chain name}
    (haccepts : acceptsAt chain name seq storage attempt = true) :
    nameSeq storage name = seq.toNat ∧
      nameSeq (commit chain attempt storage) name = seq.toNat + 1 := by
  simp only [acceptsAt, Bool.and_eq_true, beq_iff_eq, Bool.not_eq_true'] at haccepts
  obtain ⟨⟨⟨hsucc, hname⟩, hguard⟩, honly⟩ := haccepts
  obtain ⟨logs, hcall⟩ := runCall_of_succeeds hsucc
  have hperf := runCall_performs hcall
  have hbefore := nameSeq_of_guarded hperf.1 hname hguard
  have hafter := nameSeq_performs hperf hname
  simp only [honly] at hafter
  exact ⟨hbefore, hafter.trans (by rw [hbefore]; rfl)⟩

/-- Once the sequence number of a name has passed `seq`, no guard on `seq` is
accepted any more; before that, one is. -/
theorem acceptedAt_le (chain : Deployment) (name : Bytes) (seq : UInt64)
    (storage : Storage) (attempts : List Attempt) :
    acceptedAt chain name seq storage attempts ≤
      if nameSeq storage name ≤ seq.toNat then 1 else 0 := by
  induction attempts generalizing storage with
  | nil => simp [acceptedAt]
  | cons attempt rest ih =>
    have hrest := ih (commit chain attempt storage)
    rw [acceptedAt]
    cases haccepts : acceptsAt chain name seq storage attempt with
    | false =>
      have hmono := nameSeq_mono_commit chain attempt storage name
      simp only [Bool.toNat_false, Nat.zero_add]
      split_ifs at hrest ⊢ <;> omega
    | true =>
      obtain ⟨hbefore, hafter⟩ := nameSeq_of_acceptsAt haccepts
      rw [hafter, if_neg (by omega)] at hrest
      rw [hbefore, if_pos (Nat.le_refl _), Bool.toNat_true]
      omega

theorem nameSeq_mono {chain} (hrun : Run chain storage attempts last) (name : Bytes) :
    nameSeq storage name ≤ nameSeq last name := by
  refine hrun.relates (fun before after => nameSeq before name ≤ nameSeq after name)
    (fun before => Nat.le_refl _) Nat.le_trans ?_
  rintro attempt - before after rfl
  exact nameSeq_mono_commit chain attempt before name

/-- From any storage: a committed call on a name takes exactly one sequence
number, or one authority sequence number if it only updates keys; a reverted
call changes nothing; no run takes a number back, and a run accepts at most one
mutation for each expected number. -/
theorem sequence_numbers_order_changes (chain : Deployment) (storage : Storage)
    (attempts : List Attempt) (name : Bytes) :
    (∀ msg call next logs, runCall chain msg call storage = .ok (next, logs) →
      call.name = some name → if authorityOnly call then
          nameSeq next name = nameSeq storage name ∧
            authoritySeq next name = authoritySeq storage name + 1
        else nameSeq next name = nameSeq storage name + 1) ∧
    (∀ msg call error, runCall chain msg call storage = .error error →
      commit chain { msg, call } storage = storage) ∧
    (∀ last, Run chain storage attempts last → nameSeq storage name ≤ nameSeq last name) ∧
    (∀ seq, acceptedAt chain name seq storage attempts ≤ 1) := by
  refine ⟨?_, fun msg call error herror => by simp [commit, herror],
    fun last hrun => nameSeq_mono hrun name, fun seq => ?_⟩
  · intro msg call next logs hcall hname
    have hperf := runCall_performs hcall
    have hseq := nameSeq_performs hperf hname
    split
    · rename_i honly
      rw [if_pos honly] at hseq
      exact ⟨hseq, authoritySeq_performs hperf hname honly⟩
    · rename_i hmutates
      rw [if_neg hmutates] at hseq
      exact hseq
  · refine Nat.le_trans (acceptedAt_le chain name seq storage attempts) ?_
    split <;> omega

/-- A registration followed by two releases guarded by the same number: the
second release is not accepted. -/
theorem sequence_numbers_order_changes_release :
    ∃ attempts storage, Run sampleChain .initial attempts storage ∧
      attempts.length = 3 ∧ nameSeq storage (text "alice") = 2 ∧
      acceptedAt sampleChain (text "alice") 1 .initial attempts = 1 ∧
      ∀ seq, acceptedAt sampleChain (text "alice") seq .initial attempts ≤ 1 := by
  have hrun : Run sampleChain .initial
      [sampleRegistration "alice" 7, sampleRelease "alice" 7 1, sampleRelease "alice" 7 1]
      _ := .cons rfl (.cons rfl (.single rfl))
  refine ⟨_, _, hrun, rfl, ?_, ?_,
    (sequence_numbers_order_changes sampleChain .initial _ (text "alice")).2.2.2⟩
  · decide +kernel
  · decide +kernel

end CyfsGateway.BnsSequencing
