import CyfsGateway.Bns.ProtocolLog
import CyfsGateway.Indexer.Projection
import CyfsGateway.Indexer.Validators

/-!
# Pairing of events with their protocol events

`ContractEventProjector` keeps protocol events in a queue and hands the oldest
one to the next business event.  On the log of the contract the queue never
holds more than one, so every event gets the protocol event that announced it.
-/

namespace CyfsGateway.BnsPairing

open Evm Checks Transition HashChains
open BnsTypes (BnsEvent)
open BnsStorage (Storage)
open BnsCore (eventHash)
open BnsRuns BnsProtocolLog BnsModel BnsConversion BnsProjection BnsValidators

/-- A log of the proxy and the time it is observed. -/
abbrev ObservedLog := ContractEvent × UInt64

section Decoding

variable [AbiDecoder]

def projectLogs (hashEvent : EventHasher) : List ObservedLog → List ContractProtocolEvent →
    BnsRegistryResult (List EventLogRecord × List ContractProtocolEvent)
  | [], pending => .ok ([], pending)
  | (event, observedAt) :: rest, pending => do
      let (record, waiting) ← projectEvent hashEvent pending event observedAt
      let (records, left) ← projectLogs hashEvent rest waiting
      pure (record.toList ++ records, left)

def registryLogs (logs : List ObservedLog) : List BnsEvent :=
  logs.filterMap fun log =>
    match log.1 with
    | .registry event => some event
    | .router | .infrastructure => none

def announcement (entry : LogEntry) : ContractProtocolEvent :=
  protocolEvent entry.seq entry.eventType entry.previousLogRoot entry.logRoot

def Paired (hashEvent : EventHasher) (entry : LogEntry) (record : EventLogRecord) : Prop :=
  ∃ event observedAt, registryEventFromContractEvent (decodeEvent entry.event) = .ok event ∧
    record = eventRecord hashEvent (announcement entry) event observedAt

/-! ## Events of the contract have records -/

theorem registryEvent_ok (htype : eventTypeOf event = some name) (howner : ReportsOwner event) :
    ∃ converted, registryEventFromContractEvent (decodeEvent event) = .ok converted := by
  cases event <;> try exact ⟨_, rfl⟩
  case protocolEvent => cases htype
  case nameOwnerUpdated hash owned actor kind value source enabled nameSeq =>
    obtain ⟨row, hrow, -⟩ := principalFromEvm_of_validateSemanticOwner howner
    have hempty : ¬(kind = .unset ∧ !value.isEmpty) := by
      rintro ⟨rfl, hvalue⟩
      simp only [ReportsOwner, BnsValidation.validateSemanticOwner, rejectIf_ok_iff] at howner
      simp_all
    have hprin : principalFromContract kind value = .ok row := by
      rw [principalFromContract, if_neg hempty, hrow]
    simp only [decodeEvent, registryEventFromContractEvent, hprin]
    exact ⟨_, rfl⟩

section Projector

theorem projectEvent_protocol (entry : LogEntry) (pending : List ContractProtocolEvent)
    (observedAt : UInt64) :
    projectEvent hashEvent pending (.registry (.protocolEvent entry.seq entry.eventType entry.actor
          entry.previousLogRoot entry.logRoot)) observedAt =
      .ok (none, pending ++ [announcement entry]) := rfl

theorem projectEvent_business (htype : eventTypeOf entry.event = some name)
    (hevent : registryEventFromContractEvent (decodeEvent entry.event) = .ok event)
    (observedAt : UInt64) :
    projectEvent hashEvent [announcement entry] (.registry entry.event) observedAt =
      .ok (some (eventRecord hashEvent (announcement entry) event observedAt), []) := by
  cases hentry : entry.event <;> rw [hentry] at htype hevent
  case protocolEvent => cases htype
  all_goals
    simp only [projectEvent, hevent]
    rfl

def Recordable (entry : LogEntry) : Prop :=
  ∃ name event, eventTypeOf entry.event = some name ∧
    registryEventFromContractEvent (decodeEvent entry.event) = .ok event

theorem projectLogs_cons
    (hevent : projectEvent hashEvent pending event observedAt = .ok (record, waiting))
    (hlogs : projectLogs hashEvent logs waiting = .ok (records, left)) :
    projectLogs hashEvent ((event, observedAt) :: logs) pending =
      .ok (record.toList ++ records, left) := by
  simp only [projectLogs, hevent, bind, Except.bind, hlogs]
  rfl

/-- The projector between two entries, or inside the one that is waiting. -/
theorem projectLogs_entries (logs : List ObservedLog) (waiting : Option LogEntry)
    (entries : List LogEntry) (hrecordable : ∀ entry ∈ waiting.toList ++ entries,
      Recordable entry) (hlogs : registryLogs logs =
      waiting.toList.map (·.event) ++ entries.flatMap LogEntry.logs) :
    ∃ records, projectLogs hashEvent logs (waiting.toList.map announcement) = .ok (records, []) ∧
      List.Forall₂ (Paired hashEvent) (waiting.toList ++ entries) records := by
  induction logs generalizing waiting entries with
  | nil => cases waiting <;> cases entries <;> first | exact ⟨[], rfl, .nil⟩ | cases hlogs
  | cons log logs ih =>
    obtain ⟨event, observedAt⟩ := log
    cases event with
    | router | infrastructure =>
      obtain ⟨records, hrun, hpaired⟩ := ih waiting entries hrecordable hlogs
      exact ⟨Option.toList none ++ records, projectLogs_cons rfl hrun, hpaired⟩
    | registry event =>
      have hhead : event :: registryLogs logs =
          waiting.toList.map (·.event) ++ entries.flatMap LogEntry.logs := hlogs
      cases waiting with
      | none =>
        cases entries with
        | nil => cases hhead
        | cons entry entries =>
          obtain ⟨rfl, hrest⟩ := List.cons.inj hhead
          obtain ⟨records, hrun, hpaired⟩ := ih (some entry) entries hrecordable hrest
          exact ⟨records,
            projectLogs_cons (projectEvent_protocol entry [] observedAt) hrun, hpaired⟩
      | some entry =>
        obtain ⟨rfl, hrest⟩ := List.cons.inj hhead
        obtain ⟨name, converted, htype, hconverted⟩ := hrecordable entry (by simp)
        obtain ⟨records, hrun, hpaired⟩ := ih none entries
          (fun other hother => hrecordable other (List.mem_append_right _ hother)) hrest
        exact ⟨_, projectLogs_cons (projectEvent_business htype hconverted observedAt) hrun,
          .cons ⟨converted, observedAt, hconverted, rfl⟩ hpaired⟩

end Projector

/-! ## The log of a run -/

section Main

variable {chain : Deployment} {attempts : List Attempt} {last : Storage}

def runEntries (chain : Deployment) (attempts : List Attempt) : List LogEntry :=
  entriesOf (runLogs chain attempts .initial)

def runCommitments (chain : Deployment) (attempts : List Attempt) : List Commitment :=
  (runEntries chain attempts).map (·.commitment chain)

/-- The log is a sequence of pairs of a protocol event and the business event it
announces, numbered from 1 and linked from the zero root. -/
structure LogSound (chain : Deployment) (attempts : List Attempt) (last : Storage) : Prop where
  logs : runLogs chain attempts .initial = (runEntries chain attempts).flatMap LogEntry.logs
  seq : (runEntries chain attempts).map (·.seq.toNat) =
    List.range' 1 (runEntries chain attempts).length
  previousLogRoots : (runEntries chain attempts).map (·.previousLogRoot) =
    (.zero :: (runEntries chain attempts).map (·.logRoot)).dropLast
  entries : ∀ entry ∈ runEntries chain attempts, EntrySound chain entry
  globalEventSeq : last.globalEventSeq.toNat = (runEntries chain attempts).length
  currentLogRoot : last.currentLogRoot = head (link chain) .zero (runCommitments chain attempts)

omit [AbiDecoder] in
theorem logSound_of_run (hrun : Run chain .initial attempts last) :
    LogSound chain attempts last := by
  obtain ⟨entries, hlogs, htrace⟩ := run_extends hrun
  have hents : runEntries chain attempts = entries := by
    rw [runEntries, hlogs, entriesOf_flatMap_logs]
  obtain ⟨hseq, hnumbers⟩ := seq_of_trace htrace
  have hstart : (position .initial).seq.toNat = 0 := rfl
  rw [hstart, Nat.zero_add] at hseq hnumbers
  constructor
  · rw [hents, hlogs]
  · rw [hents, hnumbers]
  · rw [hents, previousLogRoots_of_trace htrace]
    rfl
  · rw [hents]
    exact entrySound_of_trace htrace
  · rw [hents]
    exact hseq
  · rw [runCommitments, hents]
    exact commitments_of_trace htrace

/-- The protocol log commits to the whole history: it is numbered and linked
without gap, the projector gives every business event its own protocol event,
and a log root with its number determines what was committed. -/
theorem protocol_log_commits (hrun : Run chain .initial attempts last) :
    LogSound chain attempts last ∧
    (∀ (hashEvent : EventHasher) (logs : List ObservedLog),
      registryLogs logs = runLogs chain attempts .initial →
      ∃ records, projectLogs hashEvent logs [] = .ok (records, []) ∧
        List.Forall₂ (Paired hashEvent) (runEntries chain attempts) records) ∧
    (∀ (others : List Attempt) (other : Storage), Run chain .initial others other →
      NoCollision (link chain) .zero (runCommitments chain attempts) (runCommitments chain others) →
      other.currentLogRoot = last.currentLogRoot →
      other.globalEventSeq = last.globalEventSeq →
      runCommitments chain others = runCommitments chain attempts) := by
  have hsound := logSound_of_run hrun
  refine ⟨hsound, ?_, ?_⟩
  · intro hashEvent logs hlogs
    have hrecordable : ∀ entry ∈ runEntries chain attempts, Recordable entry := by
      intro entry hentry
      obtain ⟨name, htype, -⟩ := (hsound.entries entry hentry).eventType
      obtain ⟨event, hevent⟩ := registryEvent_ok htype (hsound.entries entry hentry).owner
      exact ⟨name, event, htype, hevent⟩
    apply projectLogs_entries logs none (runEntries chain attempts) hrecordable
    rw [hlogs, hsound.logs]
    rfl
  · intro others other hother hfree hroot hseq
    have hothers := logSound_of_run hother
    symm
    apply eq_of_head_eq ?_ hfree
    · rw [← hsound.currentLogRoot, ← hothers.currentLogRoot, hroot]
    · rw [runCommitments, runCommitments, List.length_map, List.length_map,
        ← hsound.globalEventSeq, ← hothers.globalEventSeq, hseq]

end Main

end Decoding

/-- A chain whose hash of a log entry is the number of the entry. -/
def numberingChain : Deployment where
  keccak256
    | .encodePacked [_, _, _, .uint64 seq, _, _] => .ofByte seq.toUInt8
    | _ => .zero
  sha256 _ := .zero
  chainId := 1
  self := .zero

/-- A registration with a key commits to two events; a reverted attempt after it
commits to nothing. -/
theorem protocol_log_commits_registration :
    (runCommitments numberingChain [sampleRegistration "alice" 7]).length = 2 ∧
      LogSound numberingChain [sampleRegistration "alice" 7]
        (commitAll numberingChain [sampleRegistration "alice" 7] .initial) ∧
      runCommitments numberingChain [sampleRegistration "alice" 7, sampleRegistration "alice" 9] =
        runCommitments numberingChain [sampleRegistration "alice" 7] := by
  have hcommits := protocol_log_commits
    (run_commitAll numberingChain [sampleRegistration "alice" 7] .initial)
  refine ⟨by decide +kernel, hcommits.1, ?_⟩
  refine hcommits.2.2 _ _ (run_commitAll numberingChain
    [sampleRegistration "alice" 7, sampleRegistration "alice" 9] .initial) ?_ ?_ ?_
  · unfold NoCollision
    decide +kernel
  · decide +kernel
  · decide +kernel

end CyfsGateway.BnsPairing
