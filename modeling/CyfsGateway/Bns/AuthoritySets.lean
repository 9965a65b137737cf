import CyfsGateway.Bns.Reporting
import CyfsGateway.Core.Rosters

/-!
# Authority sets

The keys of a lineage form a roster.  Every batch of updates enters its keys and
then recomputes the set from the whole roster at the time of the call, unless
that would leave a set with a usable key without one.  The history of a lineage
is the list of its batches; `Recorded` says that the storage is what the history
makes of an empty roster.
-/

namespace CyfsGateway.BnsAuthoritySets

open Evm Transition Rosters BnsTypes BnsValidation BnsStorage BnsCore BnsFacets BnsEffects
  BnsExecution BnsCalls BnsFrames BnsRuns BnsWellFormed BnsContents BnsReporting List

/-- The keys recorded under a storage key, in the order of their first update. -/
def keyRing (storage : Storage) (key : Digest) : Roster Bytes32 AuthorityKey where
  ids := storage.authorityKeyIds key
  value := storage.authorityKeys key

def ringEntry (update : AuthorityKeyUpdate) : Bytes32 × AuthorityKey :=
  (update.key.kid, storedKey update)

/-- Nothing under a storage key that belongs to its authority changed. -/
structure SameAuthority (key : Digest) (before after : Storage) : Prop where
  ring : keyRing after key = keyRing before key
  set : after.authoritySets key = before.authoritySets key

theorem SameAuthority.refl (key : Digest) (storage : Storage) : SameAuthority key storage storage :=
  ⟨rfl, rfl⟩

theorem SameAuthority.trans {key first second third} (hleft : SameAuthority key first second)
    (hright : SameAuthority key second third) :
    SameAuthority key first third := ⟨hright.ring.trans hleft.ring, hright.set.trans hleft.set⟩

theorem sameAuthority_of_slots {key before after}
    (hslots : lineageSlots after key = lineageSlots before key) :
    SameAuthority key before after where
  ring := by
    rw [keyRing, keyRing, Roster.mk.injEq]
    exact ⟨congrArg LineageSlots.authorityKeyIds hslots, congrArg LineageSlots.authorityKeys hslots⟩
  set := congrArg LineageSlots.authoritySet hslots

/-- A key id is marked as known exactly when it is listed. -/
def KnownListed (storage : Storage) : Prop :=
  ∀ key kid, storage.knownAuthorityKey key kid = true ↔ kid ∈ storage.authorityKeyIds key

def KeepsKeys : Effect → Prop
  | .putKey .. | .putSet .. => False
  | _ => True

def Keyless (effects : List Effect) : Prop := ∀ effect ∈ effects, KeepsKeys effect

@[simp]
theorem keyless_nil : Keyless [] := by simp [Keyless]

@[simp]
theorem keyless_cons {effect effects} :
    Keyless (effect :: effects) ↔ KeepsKeys effect ∧ Keyless effects := by
  simp only [Keyless, forall_mem_cons]

@[simp]
theorem keyless_append : Keyless (left ++ right) ↔ Keyless left ∧ Keyless right := by
  simp only [Keyless, forall_mem_append]

theorem keyless_of_plain {name effects} (hplain : Plain name effects) :
    Keyless effects := by
  intro effect heff
  have hthis := hplain effect heff
  cases effect <;> simp_all [IsPlain, KeepsKeys]

variable {chain : Deployment} {msg : Message} {machine after : Machine} {effects : List Effect}
  {name : Bytes} {storage : Storage} {call : BnsCall} {updates : List AuthorityKeyUpdate}

section Steps

variable {effect : Effect}

theorem keyIds_write (hother : ∀ hash update, effect ≠ .putKey hash update) :
    (effect.write chain storage).knownAuthorityKey = storage.knownAuthorityKey ∧
      (effect.write chain storage).authorityKeyIds = storage.authorityKeyIds := by
  cases effect with
  | register name state =>
    simp only [Effect.write, activateLineageState, rememberNameHash, updateName]
    split <;> split <;> exact ⟨rfl, rfl⟩
  | addDocument hash docTypeHash document =>
    simp only [Effect.write, appendDocument]
    split <;> exact ⟨rfl, rfl⟩
  | putKey hash update => exact absurd rfl (hother hash update)
  | _ => exact ⟨rfl, rfl⟩

theorem sameAuthority_write (hkeyless : KeepsKeys effect) (key : Digest) :
    SameAuthority key storage (effect.write chain storage) := by
  have hkeys : ∀ hash update, effect ≠ .putKey hash update := by
    rintro hash update rfl
    exact hkeyless
  have hsets : ∀ hash set, effect ≠ .putSet hash set := by
    rintro hash set rfl
    exact hkeyless
  have hothers : KeepsOthers effect storage (effect.write chain storage) := keepsOthers_write
  constructor
  · rw [keyRing, keyRing, (keyIds_write hkeys).2, hothers.authorityKeys hkeys]
  · rw [hothers.authoritySets hsets]

theorem keyRing_putAuthorityKey (hlisted : KnownListed storage) (stateKey : Digest)
    (update : AuthorityKeyUpdate) :
    keyRing (putAuthorityKey stateKey update storage) stateKey =
      (keyRing storage stateKey).enter (ringEntry update) := by
  have hknown := hlisted stateKey update.key.kid
  by_cases hmem : update.key.kid ∈ storage.authorityKeyIds stateKey
  · simp [keyRing, Roster.enter, ringEntry, putAuthorityKey, rememberAuthorityKey,
      hknown.mpr hmem, hmem]
  have hunknown : storage.knownAuthorityKey stateKey update.key.kid = false := by
    rw [← Bool.not_eq_true, hknown]
    exact hmem
  simp [keyRing, Roster.enter, ringEntry, putAuthorityKey, rememberAuthorityKey, hunknown, hmem]

theorem knownListed_rememberAuthorityKey (hlisted : KnownListed storage) (stateKey : Digest)
    (kid : Bytes32) : KnownListed (rememberAuthorityKey stateKey kid storage) := by
  rw [rememberAuthorityKey]
  split
  · exact hlisted
  intro key other
  by_cases hkey : key = stateKey
  · subst hkey
    by_cases hkid : other = kid
    · simp [hkid]
    · simp [hkid, hlisted key other]
  · simp [hkey, hlisted key other]

theorem knownListed_step (hstep : Step chain msg machine effect after)
    (hlisted : KnownListed machine.storage) : KnownListed after.storage := by
  obtain ⟨-, rfl⟩ := hstep
  by_cases hput : ∃ hash update, effect = .putKey hash update
  · obtain ⟨hash, update, rfl⟩ := hput
    exact knownListed_rememberAuthorityKey hlisted _ update.key.kid
  push Not at hput
  intro key kid
  rw [Effect.perform, (keyIds_write hput).1, (keyIds_write hput).2]
  exact hlisted key kid

theorem knownListed_of_reachable (hreach : Reachable chain storage) : KnownListed storage :=
  hreach.invariant KnownListed (fun hlive => knownListed_step hlive.1)
    (by simp [KnownListed, Storage.initial])

/-- What the storage keeps along every run of calls, those that revert among them. -/
theorem storage_invariants (hreach : Reachable chain storage) :
    WellFormed storage ∧ SoundStorage chain storage ∧ KnownListed storage :=
  ⟨wellFormed_of_reachable hreach, soundStorage_of_reachable hreach,
    knownListed_of_reachable hreach⟩

theorem storage_invariants_registered :
    WellFormed (commitAll sampleChain [sampleRegistration "alice" 9] .initial) :=
  (storage_invariants (reachable_commitAll _ _)).1

theorem sameAuthority_trace (hkeyless : Keyless effects)
    (htrace : Trace (LiveStep chain msg) machine effects after) (key : Digest) :
    SameAuthority key machine.storage after.storage := by
  refine htrace.relates (fun before next => SameAuthority key before.storage next.storage)
    (fun before => .refl key before.storage) .trans ?_
  rintro effect heff before next ⟨⟨-, rfl⟩, -⟩
  exact sameAuthority_write (hkeyless effect heff) key

theorem lineageStateKey_trace (hrout : Routine name effects)
    (htrace : Trace (LiveStep chain msg) machine effects after) :
    lineageStateKey after.storage (nameHash name) =
      lineageStateKey machine.storage (nameHash name) := by
  refine htrace.preserves (fun next => lineageStateKey next.storage (nameHash name) =
    lineageStateKey machine.storage (nameHash name)) ?_ rfl
  intro effect heff before next hlive hbefore
  rw [← hbefore]
  exact lineageStateKey_step hlive.1 ((hrout effect heff).ne_register name)

theorem keyRing_putKeys {updates : List AuthorityKeyUpdate} (hlisted : KnownListed machine.storage)
    (htrace : Trace (LiveStep chain msg) machine (updates.map (.putKey (nameHash name)))
      after) {stateKey} (hkey : lineageStateKey machine.storage (nameHash name) = stateKey) :
    keyRing after.storage stateKey =
        (keyRing machine.storage stateKey).enterAll (updates.map ringEntry) ∧
      after.storage.authoritySets = machine.storage.authoritySets ∧
      ∀ key ≠ stateKey, SameAuthority key machine.storage after.storage := by
  induction updates generalizing machine with
  | nil =>
    obtain rfl := trace_nil_iff.mp htrace
    exact ⟨rfl, rfl, fun key _ => .refl key _⟩
  | cons update updates ih =>
    obtain ⟨middle, hlive, hrest⟩ := trace_cons_iff.mp htrace
    have hlive_key := (lineageStateKey_step hlive.1 (by simp)).trans hkey
    obtain ⟨hring, hsets, hothers⟩ := ih (knownListed_step hlive.1 hlisted) hrest hlive_key
    obtain ⟨-, rfl⟩ := hlive.1
    rw [Effect.perform, Effect.write, hkey] at hring hsets hothers
    refine ⟨?_, ?_, fun key hne => ?_⟩
    · rw [hring, keyRing_putAuthorityKey hlisted]
      rfl
    · rw [hsets]
      simp only [putAuthorityKey, rememberAuthorityKey]
      split <;> rfl
    · exact .trans (sameAuthority_of_slots (slots_putAuthorityKey_of_ne hne)) (hothers key hne)

end Steps

/-! ## Batches of updates -/

/-- A set computed from a ring at a given time: its root folds all keys in the order they
were first entered, its count is that of the keys that may authenticate then. -/
structure Counted (chain : Deployment) (now : UInt64) (ring : Roster Bytes32 AuthorityKey)
    (set : AuthoritySetState) : Prop where
  root : set.authorityRoot = (ring.ids.map ring.value).foldl (extendAuthorityRoot chain) .zero
  active : set.activeKeyCount.toNat = (ring.ids.map ring.value).countP fun key =>
    isActiveKey key keyPurposeAuthentication now

/-- What a batch of updates does to the keys under a storage key.  A set with an active
key keeps one, and the keys of all other lineages stay as they are. -/
structure Updated (chain : Deployment) (now : UInt64) (updates : List AuthorityKeyUpdate)
    (stateKey : Digest) (before after : Storage) : Prop where
  ring : keyRing after stateKey = (keyRing before stateKey).enterAll (updates.map ringEntry)
  counted : Counted chain now (keyRing after stateKey) (after.authoritySets stateKey)
  latched : 0 < (before.authoritySets stateKey).activeKeyCount →
    0 < (after.authoritySets stateKey).activeKeyCount
  others : ∀ key ≠ stateKey, SameAuthority key before after

theorem Updated.between {chain now updates stateKey first second third fourth}
    (hbefore : ∀ key, SameAuthority key first second)
    (hupd : Updated chain now updates stateKey second third)
    (hafter : ∀ key, SameAuthority key third fourth) :
    Updated chain now updates stateKey first fourth where
  ring := by rw [(hafter stateKey).ring, hupd.ring, (hbefore stateKey).ring]
  counted := by
    rw [(hafter stateKey).ring, (hafter stateKey).set]
    exact hupd.counted
  latched := by
    rw [(hafter stateKey).set, ← (hbefore stateKey).set]
    exact hupd.latched
  others key hne := ((hbefore key).trans (hupd.others key hne)).trans (hafter key)

theorem counted_of_recompute {chain storage now hash name set}
    (hset : recomputeAuthoritySet chain storage now hash name = .ok set) :
    Counted chain now (keyRing storage (lineageStateKey storage hash)) set := by
  simp only [recomputeAuthoritySet] at hset
  split at hset
  · rename_i hbound
    split at hset
    · obtain rfl := Except.ok.inj hset
      exact ⟨rfl, UInt32.toNat_ofNat_of_lt' hbound⟩
    · cases hset
  · cases hset

section Batches

theorem updated_keys (hlisted : KnownListed machine.storage)
    (hshape : KeyEffects msg name updates effects)
    (htrace : Trace (LiveStep chain msg) machine effects after) :
    Updated chain msg.now updates (lineageStateKey machine.storage (nameHash name))
      machine.storage after.storage := by
  obtain ⟨set, payload, hname, rfl⟩ := hshape
  obtain ⟨entered, hputs, hlast⟩ := trace_append_iff.mp htrace
  obtain ⟨stored, hset, hlogged⟩ := trace_cons_iff.mp hlast
  have hsame : ∀ key, SameAuthority key stored.storage after.storage :=
    sameAuthority_trace (by simp [KeepsKeys]) hlogged
  obtain ⟨hring, hsets, hothers⟩ := keyRing_putKeys hlisted hputs rfl
  have hkey : lineageStateKey entered.storage (nameHash name) =
      lineageStateKey machine.storage (nameHash name) :=
    lineageStateKey_trace (by simp [Routine, IsRoutine]) hputs
  obtain ⟨⟨hrecompute, -, hlatch⟩, rfl⟩ := hset.1
  have hcount := counted_of_recompute hrecompute
  rw [hkey] at hcount hlatch
  rw [hsets, not_and] at hlatch
  refine Updated.between (fun key => .refl key _) ?_ hsame
  rw [Effect.perform, Effect.write, hkey]
  refine ⟨hring, ?_, fun hpos => ?_, fun key hne => ?_⟩
  · simp only [putAuthoritySet, Function.update_self]
    exact hcount
  · simp only [putAuthoritySet, Function.update_self]
    rw [UInt32.pos_iff_ne_zero]
    intro hzero
    exact hlatch hzero hpos
  · exact (hothers key hne).trans (sameAuthority_of_slots (slots_putAuthoritySet_of_ne hne))

/-- The batch of updates a call applies.  A registration and a combined mutation
skip an empty one. -/
def keyBatch : BnsCall → Option (List AuthorityKeyUpdate)
  | .updateAuthorityKeys _ updates .. => some updates
  | .registerName _ _ _ updates .. => if updates.length ≠ 0 then some updates else none
  | .applyMutations _ updates .. => if updates.length ≠ 0 then some updates else none
  | _ => none

inductive KeyedAt (msg : Message) (name : Bytes) :
    Option (List AuthorityKeyUpdate) → List Effect → Prop
  | nowhere {effects : List Effect} : Keyless effects → KeyedAt msg name none effects
  | between {updates : List AuthorityKeyUpdate} {earlier keyed later : List Effect} :
      Keyless earlier → KeyEffects msg name updates keyed →
      Keyless later → Routine name later →
      KeyedAt msg name (some updates) (earlier ++ keyed ++ later)

end Batches

section Shapes

theorem keyless_owner (hshape : OwnerEffects msg name owner bump effects) : Keyless effects := by
  obtain ⟨rest, rfl, hplain⟩ := plain_owner hshape
  simp [keyless_of_plain hplain, KeepsKeys]

theorem keyedAt_conditionally {updates}
    (hkeyed : Conditionally (updates.length ≠ 0) (KeyEffects msg name updates) keyed)
    (hearlier : Keyless earlier) (hlater : Keyless later) (hrout : Routine name later) :
    KeyedAt msg name (if updates.length ≠ 0 then some updates else none)
      (earlier ++ keyed ++ later) := by
  rcases hkeyed with ⟨hsome, hperformed⟩ | ⟨hnone, rfl⟩
  · rw [if_pos hsome]
    exact .between hearlier hperformed hlater hrout
  · rw [if_neg hnone]
    exact .nowhere (by simp [hearlier, hlater])

theorem keyedAt_call {call} (hshape : CallEffects msg call effects)
    (hname : call.name = some name) :
    KeyedAt msg name (keyBatch call) effects := by
  cases hshape <;> simp only [BnsCall.name, Option.some.injEq, reduceCtorEq] at hname <;>
    subst hname
  case registerName hfresh hparts hkeys howner hrules =>
    have hruled := hrules.elim plain_nil plain_policy
    have hlater := forall_mem_append.mpr
      ⟨howner.elim keyless_nil keyless_owner, keyless_of_plain hruled⟩
    have hrout := forall_mem_append.mpr ⟨howner.elim routine_nil routine_owner, hruled.routine⟩
    rw [append_assoc]
    simp only [← cons_append]
    apply keyedAt_conditionally hkeys ?_ hlater hrout
    simp [KeepsKeys, keyless_of_plain (plain_published hparts)]
  case applyMutations hkeys hbump hparts hfloor =>
    rw [append_assoc, append_assoc, ← nil_append (_ ++ _), ← append_assoc]
    have hplain := plain_append.mpr ⟨hbump.elim plain_nil plain_batch,
      plain_append.mpr ⟨plain_published hparts, hfloor.elim plain_nil plain_floor⟩⟩
    exact keyedAt_conditionally hkeys keyless_nil (keyless_of_plain hplain) hplain.routine
  case updateAuthorityKeys hkeys =>
    rw [← append_nil effects]
    exact .between keyless_nil hkeys keyless_nil routine_nil
  all_goals refine .nowhere ?_
  case transferName hann hparts =>
    simp [KeepsKeys, keyless_of_plain (plain_announce hann),
      keyless_of_plain (plain_published hparts)]
  case setNameOwner howner => exact keyless_owner howner
  case setMinDocumentIat hfloor => exact keyless_of_plain (plain_floor hfloor)
  case publishDocument hpub => exact keyless_of_plain (plain_publish hpub)
  case setControllerPolicy hpol => exact keyless_of_plain (plain_policy hpol)
  case revokeDocument => simp [keyless_of_plain plain_version, KeepsKeys]
  all_goals simp [KeepsKeys]

end Shapes

section Performed

theorem sameAuthority_performs (hperf : Performs chain msg call machine after)
    (hname : call.name = some name) (hbatch : keyBatch call = none) (key : Digest) :
    SameAuthority key machine.storage after.storage := by
  obtain ⟨effects, hshape, htrace⟩ := performs_live hperf
  have hkeyed := keyedAt_call hshape hname
  rw [hbatch] at hkeyed
  cases hkeyed with
  | nowhere hkeyless => exact sameAuthority_trace hkeyless htrace key

theorem updated_performs (hlisted : KnownListed machine.storage)
    (hperf : Performs chain msg call machine after) (hname : call.name = some name)
    (hbatch : keyBatch call = some updates) :
    Updated chain msg.now updates (lineageStateKey after.storage (nameHash name))
      machine.storage after.storage := by
  obtain ⟨effects, hshape, htrace⟩ := performs_live hperf
  have hkeyed := keyedAt_call hshape hname
  rw [hbatch] at hkeyed
  cases hkeyed with
  | between hearlier hkeys hlater hrout =>
    obtain ⟨third, hfront, hback⟩ := trace_append_iff.mp htrace
    obtain ⟨second, hopening, hmid⟩ := trace_append_iff.mp hfront
    have hlisted_second : KnownListed second.storage :=
      hopening.preserves (fun state => KnownListed state.storage)
        (fun _ _ _ _ hlive => knownListed_step hlive.1) hlisted
    rw [lineageStateKey_trace hrout hback, lineageStateKey_trace (routine_keys hkeys) hmid]
    exact .between (sameAuthority_trace hearlier hopening)
      (updated_keys hlisted_second hkeys hmid) (sameAuthority_trace hlater hback)

end Performed

/-! ## Histories -/

def lineageSlot (name : Bytes) (lineageEpoch : UInt64) : Digest :=
  if lineageEpoch = 0 then nameHash name else lineageKey (nameHash name) lineageEpoch

structure KeyBatch where
  now : UInt64
  updates : List AuthorityKeyUpdate
  deriving DecidableEq

def batchOf (chain : Deployment) (name : Bytes) (lineageEpoch : UInt64) (storage : Storage)
    (attempt : Attempt) : Option KeyBatch :=
  if succeeds chain attempt storage = true ∧ attempt.call.name = some name ∧
      epoch (commit chain attempt storage) name = lineageEpoch then
    (keyBatch attempt.call).map (KeyBatch.mk attempt.msg.now)
  else none

def keyHistory (chain : Deployment) (name : Bytes) (lineageEpoch : UInt64) :
    List Attempt → Storage → List KeyBatch
  | [], _ => []
  | attempt :: attempts, storage =>
    (batchOf chain name lineageEpoch storage attempt).toList ++
      keyHistory chain name lineageEpoch attempts (commit chain attempt storage)

def updatesOf (history : List KeyBatch) : List AuthorityKeyUpdate :=
  history.flatMap KeyBatch.updates

def ringOf (history : List KeyBatch) : Roster Bytes32 AuthorityKey :=
  (Roster.empty {}).enterAll ((updatesOf history).map ringEntry)

/-- Ring and set of a lineage are what its history makes them.  The set is as old as the
last batch: keys that expired since are still counted in it. -/
structure Recorded (chain : Deployment) (key : Digest) (history : List KeyBatch)
    (storage : Storage) : Prop where
  ring : keyRing storage key = ringOf history
  unset : history = [] → storage.authoritySets key = {}
  counted : ∀ batch, history.getLast? = some batch →
    Counted chain batch.now (keyRing storage key) (storage.authoritySets key)

section Histories

variable {last : Storage} {attempt : Attempt} {attempts : List Attempt} {lineageEpoch : UInt64}
  {key : Digest} {history : List KeyBatch} {batch : KeyBatch}

theorem Recorded.same (hrecorded : Recorded chain key history storage)
    (hsame : SameAuthority key storage last) : Recorded chain key history last where
  ring := hsame.ring.trans hrecorded.ring
  unset hnone := hsame.set.trans (hrecorded.unset hnone)
  counted := by
    rw [hsame.ring, hsame.set]
    exact hrecorded.counted

theorem Recorded.updated (hrecorded : Recorded chain key history storage)
    (hupd : Updated chain batch.now batch.updates key storage last) :
    Recorded chain key (history ++ [batch]) last where
  ring := by
    rw [hupd.ring, hrecorded.ring, ringOf, ringOf, ← enterAll_append, ← map_append]
    simp [updatesOf]
  unset hnone := absurd hnone (by simp)
  counted other hlast := by
    rw [getLast?_concat, Option.some.injEq] at hlast
    rw [← hlast]
    exact hupd.counted

theorem lineageSlot_inj (heq : lineageSlot name lineageEpoch = lineageSlot name other) :
    lineageEpoch = other := by
  simp only [lineageSlot, lineageKey, nameHash] at heq
  split at heq <;> split at heq <;> simp_all

theorem owns_lineageSlot (name : Bytes) (lineageEpoch : UInt64) :
    Owns (nameHash name) (lineageSlot name lineageEpoch) := by
  rw [lineageSlot]
  split
  · exact .inl rfl
  · exact .inr ⟨lineageEpoch, rfl⟩

/-- What an attempt does to a lineage: it applies a batch or changes nothing. -/
def Applies (chain : Deployment) (key : Digest) (before after : Storage) : Option KeyBatch → Prop
  | some batch => Updated chain batch.now batch.updates key before after
  | none => SameAuthority key before after

section Listed

variable (hwf : WellFormed storage) (hlisted : KnownListed storage)

include hwf hlisted

theorem applies_attempt :
    Applies chain (lineageSlot name lineageEpoch) storage (commit chain attempt storage)
      (batchOf chain name lineageEpoch storage attempt) := by
  cases hsucc : succeeds chain attempt storage with
  | false =>
    rw [batchOf, if_neg (by simp [hsucc]), commit_of_not_succeeds hsucc]
    exact .refl _ storage
  | true =>
    have hwf_next : WellFormed (commit chain attempt storage) :=
      commit_preserves WellFormed wellFormed_step hwf
    obtain ⟨logs, hcall⟩ := runCall_of_succeeds hsucc
    have hperf := runCall_performs hcall
    by_cases hname : attempt.call.name = some name
    case neg =>
      rw [batchOf, if_neg (by simp [hname])]
      exact sameAuthority_of_slots ((sameName_of_performs hperf hname).slots _
        (owns_lineageSlot name lineageEpoch))
    cases hbatch : keyBatch attempt.call with
    | none =>
      have hnone : batchOf chain name lineageEpoch storage attempt = none := by
        simp [batchOf, hbatch]
      rw [hnone]
      exact sameAuthority_performs hperf hname hbatch _
    | some updates =>
      have hupd := updated_performs hlisted hperf hname hbatch
      have hlive := hwf_next.lineageStateKey_eq name
      rw [hlive] at hupd
      by_cases hepoch : epoch (commit chain attempt storage) name = lineageEpoch
      · rw [batchOf, if_pos ⟨hsucc, hname, hepoch⟩, hbatch, ← hepoch]
        exact hupd
      · rw [batchOf, if_neg (by simp [hepoch])]
        exact hupd.others _ fun heq => hepoch (lineageSlot_inj heq).symm

/-- A run records in every lineage the history it applies to it. -/
theorem recorded_run (hrun : Run chain storage attempts last)
    (hrecorded : Recorded chain (lineageSlot name lineageEpoch) history storage) :
    Recorded chain (lineageSlot name lineageEpoch)
      (history ++ keyHistory chain name lineageEpoch attempts storage) last := by
  induction attempts generalizing storage history with
  | nil =>
    obtain rfl := trace_nil_iff.mp hrun
    rw [keyHistory, append_nil]
    exact hrecorded
  | cons attempt attempts ih =>
    obtain ⟨next, rfl, hrest⟩ := trace_cons_iff.mp hrun
    rw [keyHistory, ← append_assoc]
    refine ih (commit_preserves WellFormed wellFormed_step hwf)
      (commit_preserves KnownListed (fun hlive => knownListed_step hlive.1) hlisted) hrest ?_
    have happlies := @applies_attempt chain name storage attempt lineageEpoch hwf hlisted
    cases hbatch : batchOf chain name lineageEpoch storage attempt with
    | none =>
      rw [hbatch] at happlies
      rw [Option.toList_none, append_nil]
      exact hrecorded.same happlies
    | some batch =>
      rw [hbatch] at happlies
      exact hrecorded.updated happlies

/-- A lineage that once had an active key keeps a positive count. -/
theorem latched_run (hrun : Run chain storage attempts last)
    (hpos : 0 < (storage.authoritySets (lineageSlot name lineageEpoch)).activeKeyCount) :
    0 < (last.authoritySets (lineageSlot name lineageEpoch)).activeKeyCount := by
  have hall : WellFormed last ∧ KnownListed last ∧
      0 < (last.authoritySets (lineageSlot name lineageEpoch)).activeKeyCount := by
    refine Trace.preserves hrun (fun state => WellFormed state ∧ KnownListed state ∧
      0 < (state.authoritySets (lineageSlot name lineageEpoch)).activeKeyCount) ?_
      ⟨hwf, hlisted, hpos⟩
    rintro attempt - before next rfl ⟨hwf, hlisted, hpos⟩
    refine ⟨commit_preserves WellFormed wellFormed_step hwf,
      commit_preserves KnownListed (fun hlive => knownListed_step hlive.1) hlisted, ?_⟩
    have happlies := @applies_attempt chain name before attempt lineageEpoch hwf hlisted
    cases hbatch : batchOf chain name lineageEpoch before attempt with
    | none =>
      rw [hbatch] at happlies
      rw [happlies.set]
      exact hpos
    | some batch =>
      rw [hbatch] at happlies
      exact happlies.latched hpos
  exact hall.2.2

end Listed

theorem lastValue_ringEntry (updates : List AuthorityKeyUpdate) (kid : Bytes32) :
    lastValue (updates.map ringEntry) kid = keyAfter updates kid := by
  rw [lastValue, keyAfter, ← map_reverse, find?_map, Option.map_map]
  rfl

end Histories

/-- In every lineage of every name: the recorded key ids are those ever updated,
each once and in the order of their first update; every key has the value of its
last update; root and count are those of the keys at the time of the last batch;
and a positive count stays positive in every continuation of the run. -/
theorem authority_sets_follow_updates {chain : Deployment} {attempts : List Attempt}
    {storage : Storage} (hrun : Run chain .initial attempts storage) (name : Bytes)
    (lineageEpoch : UInt64) :
    let key := lineageSlot name lineageEpoch
    let history := keyHistory chain name lineageEpoch attempts .initial
    let updates := updatesOf history
    let ids := storage.authorityKeyIds key
    let keys := ids.map (storage.authorityKeys key)
    let set := storage.authoritySets key
    ids.Nodup ∧ (∀ kid, kid ∈ ids ↔ ∃ update ∈ updates, update.key.kid = kid) ∧
    ids = (updates.map fun update => update.key.kid).eraseDups ∧
    (∀ kid ∈ ids, keyAfter updates kid = some (storage.authorityKeys key kid)) ∧
    (history = [] → set = {}) ∧
    (∀ batch, history.getLast? = some batch →
      set.authorityRoot = keys.foldl (extendAuthorityRoot chain) .zero ∧
      set.activeKeyCount.toNat =
        keys.countP fun key => isActiveKey key keyPurposeAuthentication batch.now) ∧
    ∀ more last, Run chain storage more last → 0 < set.activeKeyCount →
      0 < (last.authoritySets key).activeKeyCount := by
  intro key history updates ids keys set
  have hreach : Reachable chain storage := ⟨attempts, hrun⟩
  have hrecorded : Recorded chain key history storage :=
    recorded_run wellFormed_initial (knownListed_of_reachable (.initial chain)) hrun
      (⟨rfl, fun _ => rfl, by simp⟩ : Recorded chain key [] .initial)
  have hids : ids = (ringOf history).ids := congrArg Roster.ids hrecorded.ring
  have hkids : (updates.map ringEntry).map Prod.fst = updates.map fun update => update.key.kid :=
    map_map
  have hmem : ∀ kid, kid ∈ ids ↔ ∃ update ∈ updates, update.key.kid = kid := by
    intro kid
    rw [hids, ringOf, ids_enterAll_empty, mem_eraseDups, hkids, mem_map]
  refine ⟨?_, hmem, ?_, ?_, hrecorded.unset, ?_, ?_⟩
  · rw [hids]
    exact nodup_enterAll nodup_nil
  · rw [hids, ringOf, ids_enterAll_empty, hkids]
  · intro kid hkid
    obtain ⟨update, hupdate, hkid⟩ := (hmem kid).mp hkid
    have hvalue : storage.authorityKeys key kid = (ringOf history).value kid :=
      congrFun (congrArg Roster.value hrecorded.ring) kid
    have hsome : (keyAfter updates kid).isSome = true := by
      rw [keyAfter, Option.isSome_map, find?_isSome]
      exact ⟨update, mem_reverse.mpr hupdate, by simpa using hkid⟩
    obtain ⟨stored, hstored⟩ := Option.isSome_iff_exists.mp hsome
    rw [hvalue, ringOf, value_enterAll, lastValue_ringEntry]
    rw [show updatesOf history = updates from rfl, hstored, Option.getD_some]
  · intro batch hbatch
    have hcount := hrecorded.counted batch hbatch
    exact ⟨hcount.root, hcount.active⟩
  · intro more last hmore hpos
    exact latched_run (wellFormed_of_reachable hreach) (knownListed_of_reachable hreach) hmore
      hpos

theorem authority_sets_follow_updates_replaced : let attempts := [sampleRegistration "alice" 7,
      { msg := { sender := .ofByte 7, now := 6 }
        call := .updateAuthorityKeys (text "alice")
          [sampleKey 8, { sampleKey 7 with active := false }] (accountAuthority 7)
          { expectedNameSeq := 1, expectedParentNameSeq := 0 } }]
    let storage := commitAll sampleChain attempts .initial
    let key := lineageSlot (text "alice") 0
    keyHistory sampleChain (text "alice") 0 attempts .initial =
        [⟨5, [sampleKey 7]⟩, ⟨6, [sampleKey 8, { sampleKey 7 with active := false }]⟩] ∧
      storage.authorityKeyIds key = [.ofByte 7, .ofByte 8] ∧
      (storage.authoritySets key).activeKeyCount = 1 ∧
      ∀ more last, Run sampleChain storage more last →
        0 < (last.authoritySets key).activeKeyCount := by
  intro attempts storage key
  have hfollow := authority_sets_follow_updates
    (run_commitAll sampleChain attempts .initial) (text "alice") 0
  refine ⟨by decide +kernel, by decide +kernel, by decide +kernel, fun more last hmore => ?_⟩
  exact hfollow.2.2.2.2.2.2 more last hmore (by decide +kernel)

end CyfsGateway.BnsAuthoritySets
