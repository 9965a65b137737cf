import CyfsGateway.Bns.Views

/-!
# Registration and authority over other names

Owners and controllers that are names are resolved by name.  Registering a name
leaves the authority over every other name as it was, except over names that
refer to a released name which is registered again.
-/

namespace CyfsGateway.BnsDelegation

open Evm BnsTypes BnsValidation BnsStorage BnsCore BnsFacets BnsEffects BnsCalls BnsFrames
  BnsRuns BnsWellFormed BnsAccess BnsViews Transition

/-- An account that passes the owner authorization of a name, with whatever proof of
authority it chooses to present. -/
def ActsAsOwner (storage : Storage) (now : UInt64) (account : Address) (name : Bytes) :
    Prop :=
  ∃ authority, authorizeOwner storage { sender := account, now } (nameHash name) name
    authority = .ok ()

/-- An account that passes the controller authorization of a name for an
operation on a document type. -/
def ActsAsController (storage : Storage) (now : UInt64) (account : Address) (name : Bytes)
    (docType : Bytes) (permission : UInt32) (operation : Digest) : Prop :=
  ∃ authority, authority.role = .controller ∧
    authorizeUpdateNoGuard storage { sender := account, now } (nameHash name) name
      docType permission operation authority = .ok ()

def IsName (principal : Principal) (name : Bytes) : Prop :=
  principal.kind = .bnsName ∧ principal.value = name

/-- The owner of `name` may come from `target`: it is the owner `name` names,
or the parent that `name` inherits from, or the owner that this parent names. -/
inductive OwnedThrough (storage : Storage) (name target : Bytes) : Prop
  | owner : IsName (storage.names (nameHash name)).semanticOwner target →
      OwnedThrough storage name target
  | parent : (storage.names (nameHash name)).semanticOwner.kind ≠ .bnsName →
      parentName name ≠ [] → parentName name = target → OwnedThrough storage name target
  | parentOwner : (storage.names (nameHash name)).semanticOwner.kind ≠ .bnsName →
      parentName name ≠ [] →
      IsName (storage.names (nameHash (parentName name))).semanticOwner target →
      OwnedThrough storage name target

/-- `target` is the controller of a rule in the live policy of `name`. -/
def ControlledThrough (storage : Storage) (name target : Bytes) : Prop :=
  ∃ rule ∈ storage.controllerPolicies (lineageStateKey storage (nameHash name)),
    IsName rule.controller target

section Refers

/-- A root name or an explicitly owned one consults itself and its owner only. -/
theorem consults_root (hroot : (storage.names (nameHash name)).name = name)
    (hpar : parentName name = []) (hcons : Consults storage name target) :
    target = name ∨ IsName (storage.names (nameHash name)).semanticOwner target := by
  cases hcons with
  | self => exact .inl rfl
  | owner hkind => exact .inr ⟨hkind, rfl⟩
  | parent _ hinherits _ =>
    rw [hroot] at hinherits
    exact absurd hpar hinherits

/-- Whatever is consulted about the owner of a name is the name itself or one
that its owner may come from. -/
theorem ownedThrough_of_consults (hwf : WellFormed storage)
    (hreg : Registered storage name) (hcons : Consults storage name target) :
    target = name ∨ OwnedThrough storage name target := by
  have hstored := hwf.stored name hreg
  cases hcons with
  | self => exact .inl rfl
  | owner hkind => exact .inr (.owner ⟨hkind, rfl⟩)
  | parent hkind hinherits hpar =>
    rw [hstored.name_eq] at hinherits hpar
    have hparentStored := hwf.stored _ (hstored.parent hinherits)
    rcases consults_root hparentStored.name_eq (parentName_parentName hstored.valid)
      hpar with hself | howner
    · exact .inr (.parent hkind hinherits hself.symm)
    · exact .inr (.parentOwner hkind hinherits howner)

/-- No registered name is owned through one that was never registered. -/
theorem registered_of_ownedThrough (hwf : WellFormed storage)
    (hreg : Registered storage name) (howned : OwnedThrough storage name target) :
    Registered storage target := by
  have hstored := hwf.stored name hreg
  cases howned with
  | owner hname =>
    rw [← hname.2]
    exact hstored.owner hname.1
  | parent _ hinherits htgt =>
    rw [← htgt]
    exact hstored.parent hinherits
  | parentOwner _ hinherits hname =>
    rw [← hname.2]
    exact (hwf.stored _ (hstored.parent hinherits)).owner hname.1

theorem registered_of_controlledThrough (hwf : WellFormed storage)
    (hcontrolled : ControlledThrough storage name target) : Registered storage target := by
  obtain ⟨rule, hrule, hname⟩ := hcontrolled
  rw [← hname.2]
  exact hwf.controllers _ rule hrule hname.1

end Refers

section Registration

theorem released_of_registration (hperf : Performs chain msg call machine after)
    (hregister : call.registers = some target) (hreg : Registered machine.storage target) :
    (machine.storage.names (nameHash target)).status = .released := by
  obtain ⟨-, effects, hshape, htrace⟩ := hperf
  obtain ⟨state, rest, rfl, -⟩ := registration_effects hshape hregister
  obtain ⟨middle, ⟨⟨-, hstat, -⟩, -⟩, -⟩ := trace_cons_iff.mp htrace
  exact hstat.resolve_left hreg

theorem agreeOn_of_performs (hperf : Performs chain msg call machine after)
    (hcall : call.name = some target) (hne : name ≠ target) :
    AgreeOn machine.storage after.storage name := by
  apply agreeOn_of_sameName
  apply sameName_of_performs hperf
  rw [hcall]
  exact fun heq => hne (Option.some.inj heq).symm

/-- A call leaves the owner of a name that is not owned through the called one
as it was. -/
theorem owner_unchanged (hwf : WellFormed machine.storage)
    (hperf : Performs chain msg call machine after) (hcall : call.name = some target)
    (hreg : Registered machine.storage name) (hne : name ≠ target)
    (howned : ¬OwnedThrough machine.storage name target) (request : Message)
    (authority : CallAuthority) :
    authorizeOwner after.storage request (nameHash name) name authority =
      authorizeOwner machine.storage request (nameHash name) name authority := by
  apply authorizeOwner_congr
  intro consulted hcons
  apply agreeOn_of_performs hperf hcall
  rintro rfl
  rcases ownedThrough_of_consults hwf hreg hcons with hself | hthrough
  · exact hne hself.symm
  · exact howned hthrough

/-- A call leaves the controllers of a name that none of them is the called
one as they were. -/
theorem controllers_unchanged (hperf : Performs chain msg call machine after)
    (hcall : call.name = some target) (hne : name ≠ target)
    (hcontrolled : ¬ControlledThrough machine.storage name target)
    (hrole : authority.role = .controller) :
    authorizeUpdateNoGuard after.storage request (nameHash name) name docType permission
        operation authority =
      authorizeUpdateNoGuard machine.storage request (nameHash name) name docType permission
        operation authority := by
  apply authorizeController_congr (agreeOn_of_performs hperf hcall hne)
  · intro rule hrule hkind
    apply agreeOn_of_performs hperf hcall
    exact fun heq => hcontrolled ⟨rule, hrule, hkind, heq⟩
  · simp [hrole]

end Registration

/-- After a successful registration an account acts as owner of another active
name only if it could before, unless the registered name had been released and
the other is owned through it; and as controller only if it could before, unless
the registered name had been released and is a controller of the other. -/
theorem registration_grants_nothing_else {chain : Deployment} {storage next : Storage}
    (hreach : Reachable chain storage) {msg : Message} {call : BnsCall}
    {logs : List BnsEvent} (hcall : runCall chain msg call storage = .ok (next, logs))
    {registered : Bytes} (hregister : call.registers = some registered) {name : Bytes}
    (hne : name ≠ registered)
    (hactive : isActiveName msg.now (storage.names (nameHash name)) = true)
    (now : UInt64) (account : Address) :
    (¬((storage.names (nameHash registered)).status = .released ∧
        OwnedThrough storage name registered) →
      ActsAsOwner next now account name → ActsAsOwner storage now account name) ∧
    (¬((storage.names (nameHash registered)).status = .released ∧
        ControlledThrough storage name registered) →
      ∀ docType permission operation,
        ActsAsController next now account name docType permission operation →
          ActsAsController storage now account name docType permission operation) := by
  have hwf := wellFormed_of_reachable hreach
  have hperf := runCall_performs hcall
  have hreg := registered_of_isActiveName hactive
  have hname := name_of_registers hregister
  constructor
  · rintro hclear ⟨authority, hauth⟩
    have howned : ¬OwnedThrough storage name registered := fun hthrough =>
      hclear ⟨released_of_registration hperf hregister
        (registered_of_ownedThrough hwf hreg hthrough), hthrough⟩
    refine ⟨authority, ?_⟩
    rw [← owner_unchanged hwf hperf hname hreg hne howned]
    exact hauth
  · rintro hclear docType permission operation ⟨authority, hrole, hauth⟩
    have hcontrolled : ¬ControlledThrough storage name registered := fun hthrough =>
      hclear ⟨released_of_registration hperf hregister
        (registered_of_controlledThrough hwf hthrough), hthrough⟩
    refine ⟨authority, hrole, ?_⟩
    rw [← controllers_unchanged hperf hname hne hcontrolled hrole]
    exact hauth

/-- Registering carol leaves the owner of alice alone, and registering the
released bob, whom alice was handed to, leaves the controllers of alice alone. -/
theorem registration_grants_nothing_else_samples :
    (∃ storage, Reachable sampleChain storage ∧
      isActiveName 5 (storage.names (nameHash (text "alice"))) = true ∧
      ∀ now account,
        ActsAsOwner (commit sampleChain (sampleRegistration "carol" 7) storage) now account
          (text "alice") → ActsAsOwner storage now account (text "alice")) ∧
    ∀ now account docType permission operation,
      ActsAsController (commit sampleChain (sampleRegistration "bob" 11) orphanedStorage) now
          account (text "alice") docType permission operation →
        ActsAsController orphanedStorage now account (text "alice") docType permission
          operation := by
  constructor
  · have hreach : Reachable sampleChain
        (commit sampleChain (sampleRegistration "alice" 9) .initial) := ⟨_, .single rfl⟩
    have hsucc : succeeds sampleChain (sampleRegistration "carol" 7)
        (commit sampleChain (sampleRegistration "alice" 9) .initial) = true := by decide +kernel
    obtain ⟨logs, hcall⟩ := runCall_of_succeeds hsucc
    have hactive : isActiveName 5 ((commit sampleChain (sampleRegistration "alice" 9)
        .initial).names (nameHash (text "alice"))) = true := by decide +kernel
    have hfresh : ((commit sampleChain (sampleRegistration "alice" 9) .initial).names
        (nameHash (text "carol"))).status ≠ .released := by decide +kernel
    refine ⟨_, hreach, hactive, fun now account => ?_⟩
    exact (registration_grants_nothing_else hreach hcall rfl (by decide) hactive
      now account).1 fun hboth => hfresh hboth.1
  · intro now account
    have hsucc : succeeds sampleChain (sampleRegistration "bob" 11) orphanedStorage = true := by
      decide +kernel
    obtain ⟨logs, hcall⟩ := runCall_of_succeeds hsucc
    have hnone : orphanedStorage.controllerPolicies
        (lineageStateKey orphanedStorage (nameHash (text "alice"))) = [] := by decide +kernel
    have hreach : Reachable sampleChain orphanedStorage := reachable_commitAll _ _
    have hactive : isActiveName 5 (orphanedStorage.names (nameHash (text "alice"))) = true := by
      decide +kernel
    refine (registration_grants_nothing_else hreach hcall rfl (by decide) hactive now
      account).2 ?_
    rintro ⟨-, rule, hrule, -⟩
    simp [hnone] at hrule

/-- Whoever registers bob again owns alice. -/
theorem reregistration_grants_delegated_name :
    ¬∀ (chain : Deployment) (storage : Storage), Reachable chain storage →
      ∀ (msg : Message) (call : BnsCall) (next : Storage) (logs : List BnsEvent),
        runCall chain msg call storage = .ok (next, logs) →
        ∀ registered, call.registers = some registered → ∀ name, name ≠ registered →
          isActiveName msg.now (storage.names (nameHash name)) = true →
          ∀ account, ActsAsOwner next msg.now account name →
            ActsAsOwner storage msg.now account name := by
  intro hall
  have hreach : Reachable sampleChain orphanedStorage := reachable_commitAll _ _
  have hsucc : succeeds sampleChain (sampleRegistration "bob" 11) orphanedStorage =
      true := by decide +kernel
  obtain ⟨logs, hcall⟩ := runCall_of_succeeds hsucc
  have hactive : isActiveName 5 (orphanedStorage.names (nameHash (text "alice"))) = true := by
    decide +kernel
  have hafter : ActsAsOwner
      (commit sampleChain (sampleRegistration "bob" 11) orphanedStorage) 5 (.ofByte 11)
      (text "alice") := ⟨nameAuthority "bob" 11, by decide +kernel⟩
  obtain ⟨authority, hbefore⟩ := hall sampleChain _ hreach _ _ _ logs hcall (text "bob") rfl
    (text "alice") (by decide) hactive _ hafter
  have huns : resolveOwner orphanedStorage 5 (nameHash (text "alice")) =
      .error .noConcreteSigner := by decide +kernel
  obtain ⟨-, owner, howner, -⟩ := authorizeOwner_ok_iff.mp hbefore
  cases huns.symm.trans howner

end CyfsGateway.BnsDelegation
