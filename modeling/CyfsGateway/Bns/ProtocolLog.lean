import CyfsGateway.Bns.Runs
import CyfsGateway.Core.HashChains

/-!
# The protocol log

Every business event follows a `ProtocolEvent` that numbers it and extends the
log root by its type and payload.  The payload is a function of the event, so
the entries of the log can be read off the logs of a run.  Each effect of a call
extends the log by a whole entry or by none; a run extends the empty log.
-/

namespace CyfsGateway.BnsProtocolLog

open Evm Transition HashChains BnsTypes BnsStorage BnsCore BnsFacets BnsEffects BnsExecution
  BnsCalls BnsRuns

structure LogEntry where
  seq : UInt64
  eventType : Digest
  actor : Address
  previousLogRoot : Bytes32
  logRoot : Bytes32
  event : BnsEvent
  deriving DecidableEq

def LogEntry.logs (entry : LogEntry) : List BnsEvent :=
  [.protocolEvent entry.seq entry.eventType entry.actor entry.previousLogRoot entry.logRoot,
    entry.event]

/-- Read a log as entries, as far as it consists of them. -/
def entriesOf : List BnsEvent → List LogEntry
  | .protocolEvent seq eventType actor previousLogRoot logRoot :: event :: rest =>
    ⟨seq, eventType, actor, previousLogRoot, logRoot, event⟩ :: entriesOf rest
  | _ => []

theorem entriesOf_flatMap_logs (entries : List LogEntry) :
    entriesOf (entries.flatMap LogEntry.logs) = entries := by
  induction entries with
  | nil => rfl
  | cons entry entries ih =>
    rw [List.flatMap_cons, LogEntry.logs, List.cons_append, List.singleton_append, entriesOf, ih]

/-- What an entry commits to: its number, the type and the hash of the payload. -/
structure Commitment where
  seq : UInt64
  eventType : Digest
  payloadHash : Bytes32
  deriving DecidableEq

variable (chain : Deployment)

def LogEntry.commitment (entry : LogEntry) : Commitment where
  seq := entry.seq
  eventType := entry.eventType
  payloadHash := chain.keccak256 (.encode (eventPayload entry.event))

def linkPreimage (root : Bytes32) (entry : Commitment) : Preimage :=
  .encodePacked [.bytes32 root, .uint256 chain.chainId, .address chain.self, .uint64 entry.seq,
      .digest entry.eventType, .bytes32 entry.payloadHash]

def link (root : Bytes32) (entry : Commitment) : Bytes32 :=
  chain.keccak256 (linkPreimage chain root entry)

/-- The position of the log: its root and the number of its last entry. -/
structure LogPosition where
  root : Bytes32
  seq : UInt64

def position (storage : Storage) : LogPosition where
  root := storage.currentLogRoot
  seq := storage.globalEventSeq

structure LogStep (chain : Deployment) (before : LogPosition) (entry : LogEntry)
    (after : LogPosition) : Prop where
  seq : entry.seq.toNat = before.seq.toNat + 1
  previousLogRoot : entry.previousLogRoot = before.root
  logRoot : entry.logRoot = link chain before.root (entry.commitment chain)
  eventType : ∃ name, eventTypeOf entry.event = some name ∧ entry.eventType = eventHash name
  owner : ReportsOwner entry.event
  root_after : after.root = entry.logRoot
  seq_after : after.seq = entry.seq

/-- A running call has appended whole entries to the log, each of them linked to the root
before it. -/
def Extends (first last : Machine) : Prop :=
  ∃ entries, last.logs = first.logs ++ entries.flatMap LogEntry.logs ∧
    Trace (LogStep chain) (position first.storage) entries (position last.storage)

instance (chain : Deployment) : IsPreorder Machine (Extends chain) where
  refl machine := ⟨[], by simp, .nil _⟩
  trans := by
    rintro first second third ⟨entries, hlogs, hentries⟩ ⟨more, hmoreLogs, hmore⟩
    refine ⟨entries ++ more, ?_, hentries.append hmore⟩
    rw [hmoreLogs, hlogs, List.flatMap_append, List.append_assoc]

/-! ## Stretches of the log -/

section Stretches

variable {chain : Deployment} {first last : LogPosition} {entries : List LogEntry}

section Traces

variable (htrace : Trace (LogStep chain) first entries last)

include htrace

theorem seq_of_trace : last.seq.toNat = first.seq.toNat + entries.length ∧
      entries.map (·.seq.toNat) = List.range' (first.seq.toNat + 1) entries.length := by
  induction htrace with
  | nil => simp
  | cons hstep _ ih =>
    obtain ⟨hlast, hrest⟩ := ih
    rw [hstep.seq_after, hstep.seq] at hlast hrest
    refine ⟨by rw [hlast, List.length_cons]; omega, ?_⟩
    rw [List.map_cons, hrest, hstep.seq, List.length_cons, List.range'_succ]

theorem previousLogRoots_of_trace :
    entries.map (·.previousLogRoot) = (first.root :: entries.map (·.logRoot)).dropLast := by
  induction htrace with
  | nil => rfl
  | cons hstep _ ih =>
    rw [List.map_cons, ih, hstep.previousLogRoot, hstep.root_after, List.map_cons,
      List.dropLast_cons_cons]

theorem commitments_of_trace :
    last.root = head (link chain) first.root (entries.map (·.commitment chain)) := by
  induction htrace with
  | nil => rfl
  | cons hstep _ ih =>
    rw [ih, hstep.root_after, hstep.logRoot]
    rfl

structure EntrySound (chain : Deployment) (entry : LogEntry) : Prop where
  logRoot : entry.logRoot = link chain entry.previousLogRoot (entry.commitment chain)
  eventType : ∃ name, eventTypeOf entry.event = some name ∧ entry.eventType = eventHash name
  owner : ReportsOwner entry.event

theorem entrySound_of_trace : ∀ entry ∈ entries, EntrySound chain entry := by
  induction htrace with
  | nil => simp
  | cons hstep _ ih =>
    refine List.forall_mem_cons.mpr ⟨⟨?_, hstep.eventType, hstep.owner⟩, ih⟩
    rw [hstep.logRoot, hstep.previousLogRoot]

end Traces

end Stretches

/-! ## Effects of a call -/

section Effects

variable {chain : Deployment}

theorem position_write {effect : Effect} (hquiet : ∀ eventType payload event,
      effect ≠ .log eventType payload event) (storage : Storage) :
    position (effect.write chain storage) = position storage := by
  cases effect with
  | log eventType payload event => exact absurd rfl (hquiet eventType payload event)
  | register name state =>
    simp only [Effect.write, activateLineageState, rememberNameHash]
    split <;> split <;> rfl
  | addDocument hash docTypeHash document =>
    simp only [Effect.write, appendDocument]
    split <;> rfl
  | putKey hash update =>
    simp only [Effect.write, putAuthorityKey, rememberAuthorityKey]
    split <;> rfl
  | _ => rfl

theorem extends_step {effect : Effect} (hstep : LoggedStep chain msg machine effect after) :
    Extends chain machine after := by
  obtain ⟨⟨hallow, rfl⟩, hanns⟩ := hstep
  by_cases hlog : ∃ eventType payload event, effect = .log eventType payload event
  · obtain ⟨eventType, payload, event, rfl⟩ := hlog
    obtain ⟨htype, hpay, howner⟩ := hanns
    refine ⟨[⟨machine.storage.globalEventSeq + 1, eventHash eventType, msg.sender,
      machine.storage.currentLogRoot, nextLogRoot chain eventType payload machine.storage,
      event⟩], rfl, .single ⟨?_, rfl, ?_, ⟨eventType, htype, rfl⟩, howner, rfl, rfl⟩⟩
    · exact (UInt64.toNat_add _ _).trans (Nat.mod_eq_of_lt hallow)
    · rw [hpay]
      rfl
  · have hquiet : ∀ eventType payload event, effect ≠ .log eventType payload event :=
      fun _ _ _ hsame => hlog ⟨_, _, _, hsame⟩
    refine ⟨[], ?_, ?_⟩
    · cases effect <;> first | exact absurd rfl (hquiet _ _ _) | rfl
    · rw [Effect.perform, position_write hquiet]
      exact .nil _

theorem extends_execute (hrun : execute chain msg call machine = .ok (result, after)) :
    Extends chain machine after := by
  obtain ⟨-, effects, -, htrace⟩ := execute_performsLogged hrun
  exact htrace.relates (Extends chain) refl (IsTrans.trans _ _ _)
    fun _ _ _ _ hstep => extends_step hstep

end Effects

section Runs

variable {chain : Deployment}

def runLogs (chain : Deployment) : List Attempt → Storage → List BnsEvent
  | [], _ => []
  | attempt :: attempts, storage =>
    emitted chain attempt storage ++ runLogs chain attempts (commit chain attempt storage)

theorem attempt_extends (attempt : Attempt) (storage : Storage) :
    ∃ entries, emitted chain attempt storage = entries.flatMap LogEntry.logs ∧
      Trace (LogStep chain) (position storage) entries
        (position (commit chain attempt storage)) := by
  rw [emitted, commit, runCall]
  cases hrun : execute chain attempt.msg attempt.call { storage, logs := [] } with
  | error error => exact ⟨[], rfl, .nil _⟩
  | ok result =>
    obtain ⟨entries, hlogs, htrace⟩ := extends_execute hrun
    exact ⟨entries, hlogs, htrace⟩

theorem run_extends {first last} (hrun : Run chain first attempts last) :
    ∃ entries, runLogs chain attempts first = entries.flatMap LogEntry.logs ∧
      Trace (LogStep chain) (position first) entries (position last) := by
  induction hrun with
  | nil state => exact ⟨[], rfl, .nil _⟩
  | @cons first middle last attempt attempts hstep _ ih =>
    obtain rfl := hstep
    obtain ⟨entries, hlogs, htrace⟩ := attempt_extends attempt first
    obtain ⟨more, hmoreLogs, hmore⟩ := ih
    refine ⟨entries ++ more, ?_, htrace.append hmore⟩
    rw [runLogs, hlogs, hmoreLogs, List.flatMap_append]

end Runs

end CyfsGateway.BnsProtocolLog
