import CyfsGateway.Bns.Cells
import CyfsGateway.Core.Journals

/-!
# What the logs report

Every change of the contract's state is announced by a log of the same call.
An event concerns some cells, and some events fix what a cell holds: a
registration empties the slots of the new lineage, an update of keys or rules
writes those the call carries, a publication moves the pointer of its document
type.  A stretch of a call follows its reports when each cell is as the last
report about it says, or unchanged if there is none.
-/

namespace CyfsGateway.BnsReporting

open Evm Transition Journals BnsTypes BnsValidation BnsStorage BnsCore BnsFacets BnsEffects
  BnsExecution BnsCalls BnsFrames BnsRuns BnsWellFormed BnsDocumentRecords BnsContents BnsCells

/-! ## Reports -/

structure Report where
  call : BnsCall
  seq : UInt64
  eventType : Digest
  actor : Address
  previousLogRoot : Bytes32
  logRoot : Bytes32
  event : BnsEvent
  deriving DecidableEq

def Report.logs (report : Report) : List BnsEvent :=
  [.protocolEvent report.seq report.eventType report.actor report.previousLogRoot report.logRoot,
    report.event]

def keyAfter (updates : List AuthorityKeyUpdate) (kid : Bytes32) : Option AuthorityKey :=
  (updates.reverse.find? fun update => update.key.kid = kid).map storedKey

/-- The cells an event of a call is about. -/
def concerns (call : BnsCall) (event : BnsEvent) : Cell → Bool
  | .nameState name =>
    match event with
    | .nameRegistered _ other .. | .nameRenewed _ other ..
    | .nameAssetTransferred _ other .. | .nameOwnerUpdated _ other ..
    | .nameReleased _ other .. | .documentPublished _ other ..
    | .documentRevoked _ other .. | .ownerDocumentIatFloorUpdated _ other ..
    | .controllerPolicyUpdated _ other .. | .namespacePolicyUpdated _ other ..
    | .didAliasSet _ other .. | .paymentTargetUpdated _ other .. => other = name
    | _ => false
  | .authoritySet name =>
    match event with
    | .nameRegistered _ other .. | .authorityKeysUpdated _ other .. => other = name
    | _ => false
  | .authorityKey name kid =>
    match event with
    | .nameRegistered _ other .. => other = name
    | .authorityKeysUpdated _ other .. =>
      other = name && (keyAfter (authorityUpdates call) kid).isSome
    | _ => false
  | .controllerPolicy name =>
    match event with
    | .nameRegistered _ other .. | .controllerPolicyUpdated _ other .. => other = name
    | _ => false
  | .aliasState name =>
    match event with
    | .nameRegistered _ other .. | .didAliasSet _ other .. => other = name
    | _ => false
  | .document name docType version =>
    match event with
    | .documentPublished _ other otherType written ..
    | .documentRevoked _ other otherType _ _ written _
    | .paymentTargetUpdated _ other otherType _ _ _ written =>
      other = name ∧ otherType = docType ∧ written = version
    | _ => false
  | .pointer name docType =>
    match event with
    | .nameRegistered _ other .. => other = name
    | .documentPublished _ other otherType ..
    | .documentRevoked _ other otherType ..
    | .paymentTargetUpdated _ other otherType .. => other = name ∧ otherType = docType
    | _ => false
  | .checkpoint =>
    match event with
    | .logCheckpointPublished .. => true
    | _ => false

/-- What an event of a call fixes about a cell it is about.  The updates of keys and the
rules of a policy are not in the event itself but in the calldata of the call. -/
def Settles (call : BnsCall) (event : BnsEvent) (cell : Cell) (storage : Storage) : Prop :=
  match cell with
  | .nameState _ | .document .. => True
  | .authoritySet name =>
    match event with
    | .nameRegistered .. => liveSet storage name = {}
    | _ => True
  | .authorityKey name kid =>
    match event with
    | .nameRegistered .. => liveKey storage name kid = {}
    | .authorityKeysUpdated .. =>
      keyAfter (authorityUpdates call) kid = some (liveKey storage name kid)
    | _ => True
  | .controllerPolicy name =>
    match event with
    | .nameRegistered .. => livePolicy storage name = []
    | .controllerPolicyUpdated _ _ _ policyHash _ =>
      controllerPolicy call = some (livePolicy storage name, policyHash)
    | _ => True
  | .aliasState name =>
    match event with
    | .nameRegistered .. => liveAlias storage name = {}
    | _ => True
  | .pointer name docType =>
    match event with
    | .nameRegistered .. => validDocType docType = true → documentPointer storage name docType = 0
    | .documentPublished _ _ _ version .. | .documentRevoked _ _ _ _ _ version _
    | .paymentTargetUpdated _ _ _ _ _ _ version =>
      documentPointer storage name docType = version
    | _ => True
  | .checkpoint =>
    match event with
    | .logCheckpointPublished logRoot _ lastSeq issuedAt externalAnchor =>
      ∃ issuer, call = .publishLogCheckpoint issuer externalAnchor ∧ storage.latestCheckpoint =
          { logRoot
            lastSeq
            issuedAt
            issuer
            externalAnchor }
    | _ => True

theorem settles_congr {call event} (hsettles : Settles call event cell before)
    (hsame : cell.Same before after) : Settles call event cell after := by
  cases cell <;> simp only [Settles, Cell.Same] at hsettles hsame ⊢ <;> rw [hsame] <;>
    exact hsettles

/-- A cell and the reports about it. -/
def cellJournal (cell : Cell) : Journal Storage Report where
  concerns report := concerns report.call report.event cell
  Same := cell.Same
  Settles report := Settles report.call report.event cell
  refl := cell.same_refl
  trans := Cell.same_trans
  keeps := settles_congr

/-! ## Stretches of a call -/

/-- Between two states of a running call, the logs are those of the reports,
numbered one after the other, and every cell follows them. -/
structure Segment (call : BnsCall) (first : Machine) (reports : List Report)
    (last : Machine) : Prop where
  logs : last.logs = first.logs ++ reports.flatMap Report.logs
  seq : last.storage.globalEventSeq.toNat = first.storage.globalEventSeq.toNat + reports.length
  numbered : reports.map (·.seq.toNat) =
    List.range' (first.storage.globalEventSeq.toNat + 1) reports.length
  call_eq : ∀ report ∈ reports, report.call = call
  cells : ∀ cell, (cellJournal cell).Follows first.storage reports last.storage

section Segments

variable {chain : Deployment} {msg : Message} {call : BnsCall} {first third : Machine}

theorem Segment.refl (call : BnsCall) (machine : Machine) : Segment call machine [] machine where
  logs := by simp
  seq := rfl
  numbered := rfl
  call_eq := by simp
  cells cell := .nil (cell.same_refl machine.storage)

theorem Segment.append (hleft : Segment call first reports second)
    (hright : Segment call second more third) :
    Segment call first (reports ++ more) third where
  logs := by rw [hright.logs, hleft.logs, List.flatMap_append, List.append_assoc]
  seq := by rw [hright.seq, hleft.seq, List.length_append, Nat.add_assoc]
  numbered := by
    rw [List.map_append, hleft.numbered, hright.numbered, hleft.seq, List.length_append,
      ← List.range'_append_1, Nat.add_right_comm]
  call_eq := List.forall_mem_append.mpr ⟨hleft.call_eq, hright.call_eq⟩
  cells cell := (hleft.cells cell).append (hright.cells cell)

def Silent (effect : Effect) : Prop :=
  ∀ eventType payload event, effect ≠ .log eventType payload event

theorem silent_step (hsilent : Silent effect) (hlive : LiveStep chain msg first effect second) :
    second.logs = first.logs ∧ second.storage.globalEventSeq = first.storage.globalEventSeq := by
  obtain ⟨-, rfl⟩ := hlive.1
  cases effect with
  | log eventType payload event => exact absurd rfl (hsilent eventType payload event)
  | register name state =>
    simp only [Effect.perform, Effect.emits, List.append_nil, Effect.write,
      activateLineageState, rememberNameHash, updateName, true_and]
    split <;> split <;> rfl
  | addDocument hash docTypeHash document =>
    simp only [Effect.perform, Effect.emits, List.append_nil, Effect.write,
      appendDocument, true_and]
    split <;> rfl
  | putKey hash update =>
    simp only [Effect.perform, Effect.emits, List.append_nil, Effect.write,
      putAuthorityKey, rememberAuthorityKey, true_and]
    split <;> rfl
  | _ => exact ⟨List.append_nil _, rfl⟩

theorem silent_trace (hsilent : ∀ effect ∈ effects, Silent effect)
    (htrace : Trace (LiveStep chain msg) first effects second) :
    second.logs = first.logs ∧ second.storage.globalEventSeq = first.storage.globalEventSeq :=
  htrace.relates (fun before after => after.logs = before.logs ∧
      after.storage.globalEventSeq = before.storage.globalEventSeq)
    (fun _ => ⟨rfl, rfl⟩)
    (fun hleft hright => ⟨hright.1.trans hleft.1, hright.2.trans hleft.2⟩)
    (fun effect heff _ _ hstep => silent_step (hsilent effect heff) hstep)

variable {eventType : String} {payload : List AbiValue} {event : BnsEvent}

theorem same_log
    (hlive : LiveStep chain msg first (.log eventType payload event) second) (cell : Cell) :
    cell.Same first.storage second.storage := by
  refine same_step hlive ?_
  cases cell <;> exact id

section Logged

variable {body : List Effect} (call : BnsCall)
  (htrace : Trace (LiveStep chain msg) first (body ++ [.log eventType payload event]) third)

include htrace

theorem segment_logged (hsilent : ∀ effect ∈ body, Silent effect)
    (hquiet : ∀ second, Trace (LiveStep chain msg) first body second → ∀ cell,
      concerns call event cell = false → cell.Same first.storage second.storage)
    (hsettles : ∀ second, Trace (LiveStep chain msg) first body second → ∀ cell,
      concerns call event cell = true → Settles call event cell second.storage) :
    ∃ report, report.event = event ∧ Segment call first [report] third := by
  obtain ⟨second, hbody, hlast⟩ := trace_append_iff.mp htrace
  obtain ⟨_, hlog, hnil⟩ := trace_cons_iff.mp hlast
  obtain rfl := trace_nil_iff.mp hnil
  obtain ⟨hlogs, hseq⟩ := silent_trace hsilent hbody
  obtain ⟨hbound, hact⟩ := hlog.1
  have hnext : (second.storage.globalEventSeq + 1).toNat =
      second.storage.globalEventSeq.toNat + 1 := by
    rw [UInt64.toNat_add, UInt64.toNat_one, Nat.mod_eq_of_lt hbound]
  refine ⟨⟨call, second.storage.globalEventSeq + 1, eventHash eventType, msg.sender,
    second.storage.currentLogRoot, nextLogRoot chain eventType payload second.storage,
    event⟩, rfl, ?_, ?_, ?_, by simp, fun cell => .single ?_ ?_⟩
  · rw [hact, ← hlogs]
    rfl
  · rw [hact, ← hseq]
    exact hnext
  · rw [← hseq]
    exact congrArg (fun seq => [seq]) hnext
  · exact fun hother => Cell.same_trans (hquiet second hbody cell hother) (same_log hlog cell)
  · exact fun hconcerned =>
      settles_congr (hsettles second hbody cell hconcerned) (same_log hlog cell)

/-- An effect whose every change an event announces, whatever the storage it is performed
on. -/
structure Announced (call : BnsCall) (event : BnsEvent) (effect : Effect) : Prop where
  silent : Silent effect
  covered : ∀ storage cell, Changes storage effect cell → concerns call event cell = true

theorem segment_announced (hann : ∀ effect ∈ body, Announced call event effect)
    (hsettles : ∀ second, Trace (LiveStep chain msg) first body second → ∀ cell,
      concerns call event cell = true → Settles call event cell second.storage) :
    ∃ report, report.event = event ∧ Segment call first [report] third := by
  refine segment_logged call htrace (fun effect heff => (hann effect heff).silent)
    (fun second hbody cell hother => ?_) hsettles
  refine same_trace hbody fun effect heff storage hchg => ?_
  rw [(hann effect heff).covered storage cell hchg] at hother
  cases hother

end Logged

end Segments

end CyfsGateway.BnsReporting
