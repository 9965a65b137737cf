import CyfsGateway.Bns.WellFormed

/-!
# Lineages along runs

The live lineage of a registered name was started by one registration in the
run.  Later attempts stay in the lineage, and before its registration the slots
of the lineage were empty.
-/

namespace CyfsGateway.BnsLineages

open Evm Transition BnsTypes BnsValidation BnsStorage BnsCore BnsFacets BnsEffects BnsCalls
  BnsFrames BnsRuns BnsWellFormed

/-! ## The registration that started a lineage -/

/-- A run splits at the registration after which the live lineage of a name
began. -/
structure Started (chain : Deployment) (name : Bytes) (attempts : List Attempt)
    (storage : Storage) (earlier : List Attempt) (registration : Attempt)
    (later : List Attempt) (start begun : Storage) : Prop where
  attempts_eq : attempts = earlier ++ registration :: later
  before : Run chain .initial earlier start
  registers : registration.call.registers = some name
  committed : ∃ logs, runCall chain registration.msg registration.call start = .ok (begun, logs)
  after : Run chain begun later storage
  live : epoch begun name = epoch storage name

section Started

variable {chain : Deployment} {name : Bytes} {attempts : List Attempt} {storage : Storage}

/-- The live lineage of a name, if the name was ever registered.  A released name keeps
its last lineage until it is registered again. -/
def liveLineage (storage : Storage) (name : Bytes) : Option UInt64 :=
  if (storage.names (nameHash name)).status = .available then none
  else some (epoch storage name)

theorem liveLineage_eq_some : liveLineage storage name = some lineageEpoch ↔
      Registered storage name ∧ epoch storage name = lineageEpoch := by
  rw [liveLineage, Registered]
  split <;> simp_all

theorem registered_of_epoch_ne (hwf : WellFormed storage)
    (hlater : epoch storage name ≠ 0) : Registered storage name := by
  by_contra hunregistered
  exact hlater (by rw [epoch, (hwf.unregistered name hunregistered).1])

theorem liveLineage_performs {msg call machine after}
    (hperf : Performs chain msg call machine after) (hregister : call.registers ≠ some name) :
    liveLineage after.storage name = liveLineage machine.storage name := by
  have hepoch := epoch_performs hperf hregister
  obtain ⟨effects, hshape, htrace⟩ := performs_live hperf
  have hreg : Registered after.storage name ↔ Registered machine.storage name := by
    refine htrace.preserves (fun next =>
      Registered next.storage name ↔ Registered machine.storage name) ?_ Iff.rfl
    intro effect heff before next hlive hbefore
    rw [← hbefore]
    refine ⟨registered_before hlive fun state heq => ?_, registered_step hlive.1⟩
    exact hregister (registers_of_mem hshape (heq ▸ heff))
  rw [Registered, Registered, not_iff_not] at hreg
  simp only [liveLineage, hreg, hepoch]

/-- An attempt that moves the lineage of a name is a registration of it. -/
theorem registers_of_liveLineage_ne {start}
    (hne : liveLineage (commit chain attempt start) name ≠ liveLineage start name) :
    attempt.call.registers = some name ∧ ∃ logs, runCall chain attempt.msg attempt.call start =
        .ok (commit chain attempt start, logs) := by
  cases hcall : runCall chain attempt.msg attempt.call start with
  | error error => exact absurd (by rw [commit_error hcall]) hne
  | ok result =>
    obtain ⟨next, logs⟩ := result
    rw [commit_ok hcall] at hne ⊢
    refine ⟨?_, logs, rfl⟩
    by_contra hother
    exact hne (liveLineage_performs (runCall_performs hcall) hother)

theorem exists_started (hrun : Run chain .initial attempts storage)
    (hreg : Registered storage name) :
    ∃ earlier registration later start begun,
      Started chain name attempts storage earlier registration later start begun := by
  have hlive : liveLineage storage name = some (epoch storage name) :=
    liveLineage_eq_some.mpr ⟨hreg, rfl⟩
  have hchanged : liveLineage .initial name ≠ liveLineage storage name := by
    rw [hlive]
    exact Option.some_ne_none _ ∘ Eq.symm
  obtain ⟨earlier, registration, later, start, begun, hattempts, hbefore, rfl, hafter,
    hbegins, hsame⟩ := hrun.exists_last_change (liveLineage · name) hchanged
  have hne : liveLineage (commit chain registration start) name ≠ liveLineage start name := by
    rw [hsame]
    exact hbegins.symm
  obtain ⟨hregs, hcommitted⟩ := registers_of_liveLineage_ne hne
  rw [hlive] at hsame
  exact ⟨earlier, registration, later, start, _, hattempts, hbefore, hregs,
    hcommitted, hafter, (liveLineage_eq_some.mp hsame).2⟩

variable {earlier later : List Attempt} {registration : Attempt} {start begun : Storage}

section Lineage

variable (hstarted : Started chain name attempts storage earlier registration later start begun)

include hstarted

theorem Started.epoch_lt
    (hlater : epoch storage name ≠ 0) : epoch start name < epoch storage name := by
  obtain ⟨logs, hcall⟩ := hstarted.committed
  have hwf : WellFormed start := wellFormed_of_reachable ⟨_, hstarted.before⟩
  rw [← hstarted.live] at hlater ⊢
  rcases epoch_registration hwf (runCall_performs hcall) hstarted.registers with
    ⟨-, hzero⟩ | ⟨-, hnext⟩
  · exact absurd hzero hlater
  · rw [UInt64.lt_iff_toNat_lt]
    simp only at hnext
    omega

theorem Started.run : Run chain start (registration :: later) storage := by
  obtain ⟨logs, hcall⟩ := hstarted.committed
  exact .cons (commit_ok hcall).symm hstarted.after

/-- The slots of the live lineage were empty when it started. -/
theorem Started.slots_empty (hlater : epoch storage name ≠ 0) :
    lineageSlots start (lineageStateKey storage (nameHash name)) = {} := by
  have hstart : WellFormed start := wellFormed_of_reachable ⟨_, hstarted.before⟩
  have hreach : Reachable chain storage := ⟨_, hstarted.before.append hstarted.run⟩
  rw [(wellFormed_of_reachable hreach).lineageStateKey_eq name, if_neg hlater]
  exact hstart.future name _ (hstarted.epoch_lt hlater)

end Lineage

end Started

/-! ## Attempts within a lineage -/

section Within

variable {chain : Deployment}

section Performed

variable {msg : Message} {machine after : Machine} {call : BnsCall}
  (hperf : Performs chain msg call machine after)

include hperf

theorem registered_performs
    (hreg : Registered machine.storage name) : Registered after.storage name := by
  obtain ⟨-, effects, -, htrace⟩ := hperf
  exact htrace.preserves (fun next => Registered next.storage name)
    (fun _ _ _ _ hstep => registered_step hstep) hreg

theorem registered_registration
    (hregister : call.registers = some name) : Registered after.storage name := by
  obtain ⟨-, effects, hshape, htrace⟩ := hperf
  obtain ⟨state, rest, rfl, -⟩ := registration_effects hshape hregister
  obtain ⟨middle, hfirst, hrest⟩ := trace_cons_iff.mp htrace
  exact hrest.preserves (fun next => Registered next.storage name)
    (fun _ _ _ _ hstep => registered_step hstep) (registered_register hfirst)

end Performed

/-- While the epoch of a registered name stays, the name is not registered
again: what every other call preserves holds at the end. -/
theorem preserves_within_lineage (Invariant : Storage → Prop)
    (hbegun : Reachable chain begun) (hreg : Registered begun name)
    (hrun : Run chain begun attempts storage) (hlive : epoch begun name = epoch storage name)
    (hstep : ∀ {msg call before after}, Reachable chain before.storage →
      Performs chain msg call before after → call.registers ≠ some name →
      Invariant before.storage → Invariant after.storage)
    (hfirst : Invariant begun) : Invariant storage := by
  have hall : (Reachable chain storage ∧ Registered storage name ∧
      epoch begun name ≤ epoch storage name) ∧
      (epoch begun name = epoch storage name → Invariant storage) := by
    refine Trace.preserves hrun (fun state => (Reachable chain state ∧
      Registered state name ∧ epoch begun name ≤ epoch state name) ∧
      (epoch begun name = epoch state name → Invariant state)) ?_
      ⟨⟨hbegun, hreg, UInt64.le_refl _⟩, fun _ => hfirst⟩
    rintro attempt - before after rfl ⟨⟨hreach, hexists, hle⟩, hinv⟩
    have hnext : Reachable chain (commit chain attempt before) := hreach.run (.single rfl)
    cases hcall : runCall chain attempt.msg attempt.call before with
    | error error =>
      rw [commit_error hcall]
      exact ⟨⟨hreach, hexists, hle⟩, hinv⟩
    | ok result =>
      obtain ⟨next, logs⟩ := result
      have hperf := runCall_performs hcall
      rw [commit_ok hcall] at hnext ⊢
      have hstays : Registered next name := registered_performs hperf hexists
      by_cases hregister : attempt.call.registers = some name
      · rcases epoch_registration (wellFormed_of_reachable hreach) hperf hregister
          with ⟨hnew, -⟩ | ⟨-, hmoved⟩
        · exact absurd hexists hnew
        · simp only at hmoved
          rw [UInt64.le_iff_toNat_le] at hle ⊢
          refine ⟨⟨hnext, hstays, by omega⟩, fun hsame => ?_⟩
          rw [← UInt64.toNat_inj] at hsame
          omega
      · have hsame : epoch next name = epoch before name := epoch_performs hperf hregister
        rw [hsame]
        exact ⟨⟨hnext, hstays, hle⟩, fun heq => hstep hreach hperf hregister (hinv heq)⟩
  exact hall.2 hlive

end Within

end CyfsGateway.BnsLineages
