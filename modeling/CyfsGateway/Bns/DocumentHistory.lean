import CyfsGateway.Bns.DocumentRecords
import CyfsGateway.Bns.Lineages

/-!
# Document history

What calls and runs do to the chronicle of a document type: entries are only
added, the current one may be repriced, and what an earlier lineage closed
stays closed.
-/

namespace CyfsGateway.BnsDocumentHistory

open Evm Transition Chronicles BnsTypes BnsValidation BnsStorage BnsCore BnsFacets BnsEffects
  BnsCalls BnsFrames BnsRuns BnsWellFormed BnsLineages BnsDocumentRecords Chronicle UInt64

variable {chain : Deployment} {name docType : Bytes} {chronicle : Chronicle DocumentState}

section Calls

variable {call : BnsCall} {after : Machine} {effects : List Effect}

theorem records_trace (hwf : WellFormed machine.storage)
    (htrace : Trace (LiveStep chain msg) machine effects after)
    (hdoc : validDocType docType = true)
    (hrecords : Records machine.storage name docType chronicle) :
    Records after.storage name docType (effects.foldl (record chain name docType) chronicle) := by
  have hboth : WellFormed after.storage ∧ Records after.storage name docType
      (effects.foldl (record chain name docType) chronicle) := by
    refine htrace.refines (fun next model =>
      WellFormed next.storage ∧ Records next.storage name docType model) _ ?_
      ⟨hwf, hrecords⟩
    intro effect _ before next model hlive hbefore
    exact ⟨wellFormed_step hlive hbefore.1, records_step hbefore.1 hlive hdoc hbefore.2⟩
  exact hboth.2

theorem closed_recorded (hregister : ∀ effect ∈ effects, ∀ state, effect ≠ .register name state) :
    (effects.foldl (record chain name docType) chronicle).closed = chronicle.closed := by
  induction effects generalizing chronicle with
  | nil => rfl
  | cons effect effects ih =>
    rw [List.forall_mem_cons] at hregister
    rw [List.foldl_cons, ih hregister.2]
    cases effect with
    | register registered state =>
      have hne : registered ≠ name := fun heq => hregister.1 state (by rw [heq])
      rw [record, if_neg hne]
    | addDocument | repriceDocument =>
      rw [record]
      split <;> rfl
    | _ => rfl

theorem entries_recorded (hreprice : ∀ effect ∈ effects, ∀ terms,
      effect ≠ .repriceDocument (nameHash name) (.keccak256 docType) terms) :
    chronicle.entries <+: (effects.foldl (record chain name docType) chronicle).entries := by
  induction effects generalizing chronicle with
  | nil => exact List.prefix_rfl
  | cons effect effects ih =>
    rw [List.forall_mem_cons] at hreprice
    refine List.IsPrefix.trans ?_ (ih hreprice.2)
    cases effect with
    | register registered state =>
      rw [record]
      split
      · rewrite [entries_restart]
        exact List.prefix_rfl
      · exact List.prefix_rfl
    | addDocument hash docTypeHash document =>
      rw [record]
      split
      · rw [entries_add]
        exact List.prefix_append _ _
      · exact List.prefix_rfl
    | repriceDocument hash docTypeHash terms =>
      rewrite [record, if_neg]
      · exact List.prefix_rfl
      · rintro ⟨rfl, rfl⟩
        exact hreprice.1 terms rfl
    | _ => exact List.prefix_rfl

theorem reprices_of_mem (hshape : CallEffects msg call effects) {hash docTypeHash terms}
    (hmem : Effect.repriceDocument hash docTypeHash terms ∈ effects) :
    ∃ repriced repricedType version authority guard,
      call = .setPaymentTarget repriced repricedType version terms authority guard ∧
      hash = nameHash repriced ∧ docTypeHash = .keccak256 repricedType := by
  rcases effect_of_call hshape hmem with ⟨_, -, hrout⟩ | hspecific
  · exact absurd hrout id
  · cases call <;> simp only [IsSpecific] at hspecific
    obtain ⟨rfl, rfl, rfl⟩ := hspecific
    exact ⟨_, _, _, _, _, rfl, rfl, rfl⟩

structure Keeps (name docType : Bytes) (before after : Storage) : Prop where
  count_le : documentCount before name docType ≤ documentCount after name docType
  documents : ∀ version, version ≤ documentCount before name docType →
    documentAt after name docType version = documentAt before name docType version

/-- Only the payment terms of the current document change. -/
structure Reprices (chain : Deployment) (terms : PaymentTerms) (name docType : Bytes)
    (before after : Storage) : Prop where
  count : documentCount after name docType = documentCount before name docType
  pointer : documentPointer after name docType = documentPointer before name docType
  current : documentAt after name docType (documentPointer before name docType) =
    repricedDocument chain terms
      (documentAt before name docType (documentPointer before name docType))
  others : ∀ version, version ≠ documentPointer before name docType →
    documentAt after name docType version = documentAt before name docType version

theorem keeps_of_records {before next later} (hbefore : Records before name docType chronicle)
    (hafter : Records next name docType later) (hgrown : chronicle.entries <+: later.entries) :
    Keeps name docType before next where
  count_le := by
    rw [le_iff_toNat_le, hbefore.count, hafter.count]
    exact hgrown.length_le
  documents version hstored := by
    rw [le_iff_toNat_le, hbefore.count] at hstored
    rw [hbefore.documents, hafter.documents, lookup_of_grown hgrown hstored]

theorem reprices_of_records {terms before next} (hbefore : Records before name docType chronicle)
    (hafter : Records next name docType (chronicle.amend (repricedDocument chain terms)))
    (hcur : documentPointer before name docType ≠ 0) :
    Reprices chain terms name docType before next where
  count := by rw [← UInt64.toNat_inj, hafter.count, hbefore.count, length_entries_amend]
  pointer := by rw [← UInt64.toNat_inj, hafter.pointer, hbefore.pointer, current_amend]
  current := by
    have hpos : chronicle.current ≠ 0 := by
      rw [← hbefore.pointer]
      exact fun hzero => hcur (UInt64.toNat_inj.mp hzero)
    obtain ⟨document, hdocument⟩ := lookup_current hpos
    rw [hafter.documents, hbefore.documents, hbefore.pointer, lookup_amend,
      if_pos rfl, hdocument, Option.map_some, Option.getD_some, Option.getD_some]
  others version hother := by
    have hne : version.toNat ≠ chronicle.current := by
      rw [← hbefore.pointer]
      exact fun heq => hother (UInt64.toNat_inj.mp heq)
    rw [hafter.documents, hbefore.documents, lookup_amend, if_neg hne]

def HistoryStep (chain : Deployment) (name docType : Bytes) (call : BnsCall)
    (before after : Storage) : Prop :=
  match call with
  | .setPaymentTarget repriced repricedType _ terms _ _ =>
    if repriced = name ∧ repricedType = docType then
      Reprices chain terms name docType before after
    else Keeps name docType before after
  | _ => Keeps name docType before after

theorem historyStep_of_performs (hwf : WellFormed machine.storage)
    (hdoc : validDocType docType = true)
    (hrecords : Records machine.storage name docType chronicle)
    (hperf : Performs chain msg call machine after) :
    HistoryStep chain name docType call machine.storage after.storage := by
  obtain ⟨effects, hshape, htrace⟩ := performs_live hperf
  have hafter := records_trace hwf htrace hdoc hrecords
  by_cases hreprice : ∃ version terms authority guard,
      call = .setPaymentTarget name docType version terms authority guard
  · obtain ⟨version, terms, authority, guard, rfl⟩ := hreprice
    cases hshape
    obtain ⟨middle, ⟨⟨⟨-, hcur, -⟩, -⟩, -⟩, -⟩ := trace_cons_iff.mp htrace
    rw [HistoryStep, if_pos ⟨rfl, rfl⟩]
    simp only [List.foldl_cons, List.foldl_nil, record, and_self, if_true] at hafter
    exact reprices_of_records hrecords hafter hcur
  · have hkeeps : Keeps name docType machine.storage after.storage := by
      refine keeps_of_records hrecords hafter (entries_recorded ?_)
      rintro effect heff terms rfl
      obtain ⟨repriced, repricedType, version, authority, guard, rfl, hname, htype⟩ :=
        reprices_of_mem hshape heff
      obtain rfl : name = repriced := by simpa [nameHash] using hname
      obtain rfl : docType = repricedType := by simpa using htype
      exact hreprice ⟨version, terms, authority, guard, rfl⟩
    cases call with
    | setPaymentTarget repriced repricedType version terms authority guard =>
      rw [HistoryStep, if_neg]
      · exact hkeeps
      · rintro ⟨rfl, rfl⟩
        exact hreprice ⟨version, terms, authority, guard, rfl⟩
    | _ => exact hkeeps

end Calls

/-! ## Runs -/

section Runs

variable {attempts : List Attempt} {storage : Storage}

theorem closed_registration {msg call machine after} (hwf : WellFormed machine.storage)
    (hperf : Performs chain msg call machine after) (hregister : call.registers = some name)
    (hdoc : validDocType docType = true)
    (hrecords : Records machine.storage name docType chronicle) :
    ∃ later, Records after.storage name docType later ∧ later.closed = chronicle.entries := by
  obtain ⟨effects, hshape, htrace⟩ := performs_live hperf
  refine ⟨_, records_trace hwf htrace hdoc hrecords, ?_⟩
  obtain ⟨state, rest, rfl, hrout⟩ := registration_effects hshape hregister
  rw [List.foldl_cons, closed_recorded fun effect heff =>
    (hrout effect heff).ne_register name]
  rw [record, if_pos rfl]
  rfl

theorem closed_run (hbegun : Reachable chain begun) (hreg : Registered begun name)
    (hrun : Run chain begun attempts storage) (hlive : epoch begun name = epoch storage name)
    (hdoc : validDocType docType = true) (hrecords : Records begun name docType chronicle) :
    ∃ later, Records storage name docType later ∧ later.closed = chronicle.closed := by
  refine preserves_within_lineage (fun state => ∃ later,
    Records state name docType later ∧ later.closed = chronicle.closed) hbegun hreg
    hrun hlive ?_ ⟨chronicle, hrecords, rfl⟩
  rintro msg call before after hreach hperf hregister ⟨reached, hreached, hclosed⟩
  obtain ⟨effects, hshape, htrace⟩ := performs_live hperf
  refine ⟨_, records_trace (wellFormed_of_reachable hreach) htrace hdoc hreached, ?_⟩
  rw [closed_recorded, hclosed]
  exact fun effect heff state heq => hregister (registers_of_mem hshape (heq ▸ heff))

/-! ## The history of a document type -/

structure StoredVersions (storage : Storage) (name docType : Bytes) : Prop where
  stored_iff : ∀ version, documentAt storage name docType version ≠ {} ↔
    0 < version ∧ version ≤ documentCount storage name docType
  storedAs : ∀ version, 0 < version → version ≤ documentCount storage name docType →
    StoredAs name docType version.toNat (documentAt storage name docType version)

/-- The number of versions stored when the live lineage of a name started.  A later
lineage counts on from there, since a registration does not delete documents. -/
def CountedBefore (chain : Deployment) (attempts : List Attempt) (storage : Storage)
    (name docType : Bytes) (count : UInt64) : Prop :=
  (¬Registered storage name ∧ count = 0) ∨ ∃ earlier registration later start begun,
      Started chain name attempts storage earlier registration later start begun ∧
        count = documentCount start name docType

def previousVersion (storage : Storage) (name docType : Bytes) (version : UInt64) :
    UInt64 := (documentAt storage name docType version).previousVersion

/-- From the current version the history leads back through versions above
`count` only, and it ends. -/
structure LiveHistory (storage : Storage) (name docType : Bytes) (count : UInt64) : Prop where
  pointer : documentPointer storage name docType = 0 ∨
    (count < documentPointer storage name docType ∧
      documentPointer storage name docType ≤ documentCount storage name docType)
  walk : ∀ steps version, version = (previousVersion storage name docType)^[steps]
      (documentPointer storage name docType) →
    version = 0 ∨ (count < version ∧ version ≤ documentCount storage name docType ∧
      previousVersion storage name docType version < version)
  ends : (previousVersion storage name docType)^[
    (documentPointer storage name docType).toNat] (documentPointer storage name docType) = 0

section History

section Recorded

variable (hrecords : Records storage name docType chronicle)

include hrecords

theorem storedVersions_of_records : StoredVersions storage name docType := by
  have hpresent : ∀ version, 0 < version → version ≤ documentCount storage name docType →
      ∃ document, chronicle.lookup version.toNat = some document := by
    intro version hpos hcount
    rw [← Option.ne_none_iff_exists', ne_eq, lookup_eq_none_iff, ← hrecords.count]
    rw [lt_iff_toNat_lt, UInt64.toNat_zero] at hpos
    rw [le_iff_toNat_le] at hcount
    omega
  have hstored : ∀ version, 0 < version → version ≤ documentCount storage name docType →
      StoredAs name docType version.toNat (documentAt storage name docType version) := by
    intro version hpos hcount
    obtain ⟨document, hdocument⟩ := hpresent version hpos hcount
    rw [hrecords.documents, hdocument, Option.getD_some]
    exact hrecords.indexed _ _ hdocument
  refine ⟨fun version => ⟨fun hne => ?_, fun ⟨hpos, hcount⟩ hempty => ?_⟩, hstored⟩
  · rw [lt_iff_toNat_lt, le_iff_toNat_le, hrecords.count, UInt64.toNat_zero]
    have hsome : chronicle.lookup version.toNat ≠ none := by
      intro hnone
      rw [hrecords.documents, hnone] at hne
      exact hne rfl
    rw [ne_eq, lookup_eq_none_iff] at hsome
    omega
  · have hver := (hstored version hpos hcount).version
    rw [hempty] at hver
    rw [lt_iff_toNat_lt, ← hver] at hpos
    exact absurd hpos (Nat.lt_irrefl _)

theorem previousVersion_toNat (version : UInt64) :
    (previousVersion storage name docType version).toNat =
      back (·.previousVersion.toNat) chronicle version.toNat := by
  rw [previousVersion, hrecords.documents, back]
  cases chronicle.lookup version.toNat <;> rfl

theorem walk_toNat (steps : Nat) :
    ((previousVersion storage name docType)^[steps] (documentPointer storage name docType)).toNat =
      (back (·.previousVersion.toNat) chronicle)^[steps] chronicle.current := by
  induction steps with
  | zero => exact hrecords.pointer
  | succ steps ih =>
    rw [Function.iterate_succ_apply', Function.iterate_succ_apply',
      previousVersion_toNat hrecords, ih]

theorem liveHistory_of_records (hcount : count.toNat = chronicle.closed.length) :
    LiveHistory storage name docType count where
  pointer := by
    simp only [← UInt64.toNat_inj, lt_iff_toNat_lt, le_iff_toNat_le,
      hrecords.pointer, hrecords.count, hcount]
    exact chronicle.current_eq_zero_or.imp_right fun hlive => ⟨hlive, chronicle.current_le⟩
  walk steps version hver := by
    have hposition : version.toNat = _ := hver ▸ walk_toNat hrecords steps
    simp only [← UInt64.toNat_inj, lt_iff_toNat_lt, le_iff_toNat_le,
      hrecords.count, hcount, previousVersion_toNat hrecords]
    have hvisited := hrecords.linked.walk_live steps
    rw [← hposition] at hvisited
    exact hvisited.imp_right fun ⟨hlive, hstored⟩ =>
      ⟨hlive, hstored, (hrecords.linked.back_lt hlive hstored).1⟩
  ends := by
    have hbound := hrecords.linked.walk_le (documentPointer storage name docType).toNat
    rw [← walk_toNat hrecords, hrecords.pointer, Nat.sub_self] at hbound
    rw [← UInt64.toNat_inj, hrecords.pointer]
    exact Nat.le_zero.mp hbound

end Recorded

/-- The current version and what it leads back to were published after the
registration that started the live lineage. -/
theorem liveHistory_of_started {earlier later registration start begun}
    (hstarted : Started chain name attempts storage earlier registration later start begun)
    (hdoc : validDocType docType = true) :
    LiveHistory storage name docType (documentCount start name docType) := by
  have hstart : Reachable chain start := ⟨_, hstarted.before⟩
  obtain ⟨old, hold⟩ := exists_records hstart hdoc name
  obtain ⟨logs, hcall⟩ := hstarted.committed
  have hperf := runCall_performs hcall
  obtain ⟨opened, hopened, hclosed⟩ := closed_registration (wellFormed_of_reachable hstart)
    hperf hstarted.registers hdoc hold
  have hbegun : Reachable chain begun := hstart.run (.single (commit_ok hcall).symm)
  obtain ⟨reached, hreached, hsame⟩ := closed_run hbegun
    (registered_registration hperf hstarted.registers) hstarted.after hstarted.live hdoc hopened
  apply liveHistory_of_records hreached
  rw [hsame, hclosed, hold.count]

end History

end Runs

/-- In every run from deployment and for every document type of every name: the
stored versions are the counted ones, the next call only adds versions or
reprices the current one, and the current version leads back through versions of
the live lineage to its beginning. -/
theorem document_history_append_only {chain : Deployment} {attempts : List Attempt}
    {storage : Storage} {docType : Bytes} (hrun : Run chain .initial attempts storage)
    (hdocType : validDocType docType = true) (name : Bytes) :
    StoredVersions storage name docType ∧
    (∀ msg call after logs, runCall chain msg call storage = .ok (after, logs) →
      HistoryStep chain name docType call storage after) ∧
    ∃ count, CountedBefore chain attempts storage name docType count ∧
      LiveHistory storage name docType count := by
  have hreach : Reachable chain storage := ⟨attempts, hrun⟩
  have hwf := wellFormed_of_reachable hreach
  obtain ⟨chronicle, hrecords⟩ := exists_records hreach hdocType name
  refine ⟨storedVersions_of_records hrecords, ?_, ?_⟩
  · intro msg call after logs hcall
    exact historyStep_of_performs hwf hdocType hrecords (runCall_performs hcall)
  by_cases hreg : Registered storage name
  · obtain ⟨earlier, registration, later, start, begun, hstarted⟩ := exists_started hrun hreg
    exact ⟨documentCount start name docType,
      .inr ⟨earlier, registration, later, start, begun, hstarted, rfl⟩,
      liveHistory_of_started hstarted hdocType⟩
  · refine ⟨0, .inl ⟨hreg, rfl⟩, liveHistory_of_records hrecords ?_⟩
    have hempty : documentCount storage name docType = 0 :=
      congrFun (congrArg LineageSlots.currentDocumentVersions
        ((hwf.unregistered name hreg).2.2 _ (.inl rfl))) _
    have hcount := hrecords.count
    rw [hempty, chronicle.length_entries] at hcount
    rw [UInt64.toNat_zero] at hcount ⊢
    omega

theorem document_history_append_only_reregistered :
    ∃ attempts storage, Run sampleChain .initial attempts storage ∧
      documentCount storage (text "alice") (text "boot") = 2 ∧
      documentPointer storage (text "alice") (text "boot") = 2 ∧
      previousVersion storage (text "alice") (text "boot") 2 = 0 ∧
      ∃ count, CountedBefore sampleChain attempts storage (text "alice") (text "boot") count ∧
        LiveHistory storage (text "alice") (text "boot") count := by
  have hrun : Run sampleChain .initial
      [sampleRegistration "alice" 7, samplePublication "alice" 7 1 0,
        sampleRelease "alice" 7 2, sampleRegistration "alice" 9,
        samplePublication "alice" 9 4 0]
      _ := .cons rfl (.cons rfl (.cons rfl (.cons rfl (.single rfl))))
  obtain ⟨-, -, hhistory⟩ := document_history_append_only hrun
    (show validDocType (text "boot") = true by decide) (text "alice")
  refine ⟨_, _, hrun, ?_, ?_, ?_, hhistory⟩ <;> decide +kernel

end CyfsGateway.BnsDocumentHistory
