import CyfsGateway.Bns.Reporting

/-!
# Calls announce what they do

The internal mutations and the calls one by one: each is a sequence of
stretches that end with the event about them.  `reported_of_performs` is the
result for every call.
-/

namespace CyfsGateway.BnsAnnouncements

open Evm Transition Journals BnsTypes BnsValidation BnsStorage BnsCore BnsFacets BnsEffects
  BnsExecution BnsCalls BnsFrames BnsRuns BnsWellFormed BnsDocumentRecords BnsContents BnsCells
  BnsReporting List

/-! ## Announcements of the shapes -/

def startsLineage : BnsEvent → Bool
  | .nameRegistered .. => true
  | _ => false

def Continues (call : BnsCall) (first last : Machine) : Prop :=
  ∃ reports, (∀ report ∈ reports, startsLineage report.event = false) ∧
    Segment call first reports last

theorem Continues.refl (call : BnsCall) (machine : Machine) : Continues call machine machine :=
  ⟨[], by simp, .refl call machine⟩

theorem Continues.trans {call} (hleft : Continues call first second)
    (hright : Continues call second third) :
    Continues call first third := by
  obtain ⟨reports, hreports, hfirst⟩ := hleft
  obtain ⟨more, hmore, hsnd⟩ := hright
  exact ⟨reports ++ more, forall_mem_append.mpr ⟨hreports, hmore⟩, hfirst.append hsnd⟩

theorem Continues.of_event {call event}
    (hreport : ∃ report, report.event = event ∧ Segment call first [report] last)
    (hevent : startsLineage event = false) : Continues call first last := by
  obtain ⟨report, rfl, hseg⟩ := hreport
  exact ⟨[report], by simpa using hevent, hseg⟩

variable {chain : Deployment} {msg : Message} {call : BnsCall} {name : Bytes}
  {machine after : Machine} {storage : Storage}

section Shapes

variable {bump : Bool}

def EditsName (name : Bytes) : Effect → Prop
  | .editName hash _ | .bumpNameSeq hash | .setSemanticOwner hash _
  | .setAssetOwner hash _ | .release hash _ => hash = nameHash name
  | _ => False

variable {effect : Effect}

theorem EditsName.silent (hedits : EditsName name effect) : Silent effect := by
  rintro eventType payload event rfl
  exact hedits

variable {cell : Cell}

theorem EditsName.changes_iff (hedits : EditsName name effect) :
    Changes storage effect cell ↔ cell = .nameState name := by
  cases effect <;> simp only [EditsName] at hedits <;> subst hedits <;>
    cases cell <;> simp [Changes, nameHash, eq_comm]

theorem EditsName.announced (hedits : EditsName name effect)
    (hconc : concerns call event (.nameState name) = true) :
    Announced call event effect where
  silent := hedits.silent
  covered storage cell hchg := by
    rw [hedits.changes_iff.mp hchg]
    exact hconc

theorem editsName_bumpEffects :
    ∀ effect ∈ bumpEffects (nameHash name) bump, EditsName name effect := by
  cases bump <;> simp [bumpEffects, EditsName]

theorem editsName_bumped (edit : NameState → NameState) :
    ∀ effect ∈ bumpEffects (nameHash name) bump ++ [.editName (nameHash name) edit],
      EditsName name effect :=
  forall_mem_append.mpr ⟨editsName_bumpEffects, by simp [EditsName]⟩

variable {payload : List AbiValue}

theorem segment_edits (call : BnsCall) (name : Bytes)
    (htrace : Trace (LiveStep chain msg) machine (body ++ [.log eventType payload event]) after)
    (hedits : ∀ effect ∈ body, EditsName name effect)
    (hconc : ∀ cell, concerns call event cell = true ↔ cell = .nameState name) :
    ∃ report, report.event = event ∧ Segment call machine [report] after := by
  refine segment_announced call htrace
    (fun effect heff => (hedits effect heff).announced ((hconc _).mpr rfl)) ?_
  intro second _ cell hconcerned
  rw [(hconc cell).mp hconcerned]
  trivial

theorem versionEffects_eq (msg : Message) (name : Bytes) (docTypeHash : Digest)
    (document : DocumentState) (bump : Bool) :
    ∃ edits, versionEffects msg (nameHash name) docTypeHash document bump =
        .addDocument (nameHash name) docTypeHash document :: edits ∧
      ∀ effect ∈ edits, EditsName name effect := by
  refine ⟨_, rfl, ?_⟩
  rw [append_assoc]
  refine forall_mem_append.mpr ⟨?_, editsName_bumped _⟩
  split <;> simp [EditsName]

variable {docType : Bytes}

theorem changes_addDocument_iff :
    Changes storage (.addDocument (nameHash name) (.keccak256 docType) document) cell ↔
      cell = .document name docType document.version ∨ cell = .pointer name docType := by
  cases cell <;> simp [Changes, nameHash, eq_comm]

theorem documentPointer_addDocument (hlive : LiveStep chain msg machine
      (.addDocument (nameHash name) (.keccak256 docType) document) after) :
    documentPointer after.storage name docType = document.version := by
  rw [documentPointer, currentVersion, lineageStateKey_step hlive.1 (fun _ => by simp)]
  obtain ⟨-, rfl⟩ := hlive.1
  rw [Effect.perform, Effect.write, versions_appendDocument, if_pos ⟨rfl, .inr rfl⟩]

theorem segment_version (call : BnsCall) (htrace : Trace (LiveStep chain msg) machine
      (versionEffects msg (nameHash name) (.keccak256 docType) document bump ++
        [.log eventType payload event]) after)
    (hconc : ∀ cell, concerns call event cell = true ↔ cell = .nameState name ∨
      cell = .document name docType document.version ∨ cell = .pointer name docType)
    (hptr : ∀ storage, documentPointer storage name docType = document.version →
      Settles call event (.pointer name docType) storage) :
    ∃ report, report.event = event ∧ Segment call machine [report] after := by
  obtain ⟨edits, hver, hedits⟩ := versionEffects_eq msg name (.keccak256 docType) document bump
  rw [hver] at htrace
  refine segment_announced call htrace (forall_mem_cons.mpr ⟨⟨by simp [Silent], ?_⟩, ?_⟩) ?_
  · exact fun storage cell hchg =>
      (hconc cell).mpr (.inr (changes_addDocument_iff.mp hchg))
  · exact fun effect heff => (hedits effect heff).announced ((hconc _).mpr (.inl rfl))
  · intro second hbody cell hconcerned
    rcases (hconc cell).mp hconcerned with rfl | rfl | rfl
    · trivial
    · trivial
    · obtain ⟨added, hadd, hrest⟩ := trace_cons_iff.mp hbody
      refine settles_congr (hptr _ (documentPointer_addDocument hadd))
        (same_trace hrest fun effect heff storage hchg => ?_)
      cases (hedits effect heff).changes_iff.mp hchg

variable {updates : List AuthorityKeyUpdate}

theorem keyAfter_cons : keyAfter (update :: updates) kid = (keyAfter updates kid).or
        (if update.key.kid = kid then some (storedKey update) else none) := by
  simp only [keyAfter, reverse_cons, find?_append, Option.map_or]
  by_cases hkid : update.key.kid = kid <;> simp [hkid]

theorem changes_putKey_iff : Changes storage (.putKey (nameHash name) update) cell ↔
      cell = .authorityKey name update.key.kid := by
  cases cell <;> simp [Changes, nameHash, eq_comm]

theorem liveKey_putKey (hlive : LiveStep chain msg machine (.putKey (nameHash name) update) after) :
    liveKey after.storage name update.key.kid = storedKey update := by
  rw [liveKey, lineageStateKey_step hlive.1 (fun _ => by simp)]
  obtain ⟨-, rfl⟩ := hlive.1
  simp [Effect.perform, Effect.write, putAuthorityKey]

/-- The keys after a list of updates: the last update of each key id counts. -/
theorem liveKey_putKeys
    (htrace : Trace (LiveStep chain msg) machine (updates.map (.putKey (nameHash name))) after) :
    liveKey after.storage name kid =
      (keyAfter updates kid).getD (liveKey machine.storage name kid) := by
  induction updates generalizing machine with
  | nil =>
    obtain rfl := trace_nil_iff.mp htrace
    rfl
  | cons update updates ih =>
    obtain ⟨middle, hput, hrest⟩ := trace_cons_iff.mp htrace
    rw [ih hrest, keyAfter_cons]
    cases keyAfter updates kid with
    | some key => rfl
    | none =>
      by_cases hkid : update.key.kid = kid
      · subst hkid
        simpa using liveKey_putKey hput
      have hsame : Cell.Same (.authorityKey name kid) machine.storage
          middle.storage := by
        refine same_step hput fun hchg => hkid ?_
        cases changes_putKey_iff.mp hchg
        rfl
      simp only [hkid, if_false, Option.or_none]
      exact hsame

theorem keyAfter_isSome_iff :
    (keyAfter updates kid).isSome = true ↔ ∃ update ∈ updates, update.key.kid = kid := by
  simp [keyAfter]

theorem segment_keys
    (hshape : KeyEffects msg name updates effects) (hupds : authorityUpdates call = updates)
    (htrace : Trace (LiveStep chain msg) machine effects after) :
    Continues call machine after := by
  obtain ⟨set, payload, rfl, rfl⟩ := hshape
  rw [append_cons] at htrace
  refine .of_event (segment_announced call htrace ?_ ?_) rfl
  · intro effect heff
    rcases mem_append.mp heff with hput | hset
    · obtain ⟨update, hupdate, rfl⟩ := mem_map.mp hput
      refine ⟨by simp [Silent], fun storage cell hchg => ?_⟩
      rw [changes_putKey_iff.mp hchg]
      have hsome := keyAfter_isSome_iff.mpr ⟨update, hupdate, rfl⟩
      simp [concerns, hupds, hsome]
    · rw [mem_singleton.mp hset]
      refine ⟨by simp [Silent], fun storage cell hchg => ?_⟩
      cases cell <;> simp_all [Changes, concerns, nameHash]
  · intro second hbody cell hconcerned
    obtain ⟨stored, hput, hset⟩ := trace_append_iff.mp hbody
    cases cell with
    | authorityKey other kid =>
      simp only [concerns, Bool.and_eq_true, decide_eq_true_eq] at hconcerned
      obtain ⟨rfl, hsome⟩ := hconcerned
      obtain ⟨key, hkey⟩ := Option.isSome_iff_exists.mp hsome
      have hsame : Cell.Same (.authorityKey set.name kid) stored.storage second.storage :=
        same_trace hset (by simp [Changes])
      rw [Settles, hkey, hsame, liveKey_putKeys hput, ← hupds, hkey]
      rfl
    | _ => trivial

theorem segment_publish (call : BnsCall) {update}
    (hshape : PublishEffects msg name bump update effects)
    (htrace : Trace (LiveStep chain msg) machine effects after) :
    ∃ report, startsLineage report.event = false ∧
      concerns call report.event (.nameState name) = true ∧
      Segment call machine [report] after := by
  obtain ⟨document, payload, rfl, -, rfl⟩ := hshape
  refine (segment_version call htrace (fun cell => ?_) fun _ hptr => hptr).imp
    fun report hreport => ?_
  · cases cell <;> grind [concerns]
  · rw [hreport.1]
    exact ⟨rfl, by simp [concerns], hreport.2⟩

theorem segment_published (call : BnsCall) {updates}
    (hparts : Forall₂ (PublishEffects msg name bump) updates parts)
    (htrace : Trace (LiveStep chain msg) machine parts.flatten after) :
    ∃ reports, (∀ report ∈ reports, startsLineage report.event = false) ∧
      (updates ≠ [] → ∃ report ∈ reports, concerns call report.event (.nameState name) = true) ∧
      Segment call machine reports after := by
  induction hparts generalizing machine with
  | nil =>
    obtain rfl := trace_nil_iff.mp htrace
    exact ⟨[], by simp, by simp, .refl call machine⟩
  | cons hpub _ ih =>
    obtain ⟨middle, hfirst, hrest⟩ := trace_append_iff.mp htrace
    obtain ⟨report, hevent, hconc, hseg⟩ := segment_publish call hpub hfirst
    obtain ⟨reports, hevents, -, hsegments⟩ := ih hrest
    exact ⟨report :: reports, forall_mem_cons.mpr ⟨hevent, hevents⟩,
      fun _ => ⟨report, mem_cons_self, hconc⟩, hseg.append hsegments⟩

theorem changes_putPolicy_iff :
    Changes storage (.putPolicy (nameHash name) rules) cell ↔ cell = .controllerPolicy name := by
  cases cell <;> simp [Changes, nameHash, eq_comm]

theorem livePolicy_putPolicy
    (hlive : LiveStep chain msg machine (.putPolicy (nameHash name) rules) after) :
    livePolicy after.storage name = rules := by
  rw [livePolicy, lineageStateKey_step hlive.1 (fun _ => by simp)]
  obtain ⟨-, rfl⟩ := hlive.1
  simp [Effect.perform, Effect.write, putControllerPolicy]

theorem segment_policy (hshape : PolicyEffects msg name rules policyHash bump effects)
    (hpol : controllerPolicy call = some (rules, policyHash))
    (htrace : Trace (LiveStep chain msg) machine effects after) :
    Continues call machine after := by
  obtain ⟨nameSeq, payload, rfl⟩ := hshape
  rw [append_cons, ← cons_append] at htrace
  have hedits : ∀ effect ∈ bumpEffects (nameHash name) bump ++ [_], EditsName name effect :=
    editsName_bumped (touched msg)
  refine .of_event (segment_announced call htrace (forall_mem_cons.mpr
    ⟨⟨by simp [Silent], fun storage cell hchg => ?_⟩, fun effect heff => ?_⟩) ?_) rfl
  · rw [changes_putPolicy_iff.mp hchg]
    simp [concerns]
  · exact (hedits effect heff).announced (by simp [concerns])
  · intro second hbody cell hconcerned
    cases cell with
    | controllerPolicy other =>
      simp only [concerns, decide_eq_true_eq] at hconcerned
      subst hconcerned
      obtain ⟨stored, hput, hrest⟩ := trace_cons_iff.mp hbody
      have hsame : Cell.Same (.controllerPolicy name) stored.storage second.storage := by
        refine same_trace hrest fun effect heff storage hchg => ?_
        cases (hedits effect heff).changes_iff.mp hchg
      rw [Settles, hsame, livePolicy_putPolicy hput]
      exact hpol
    | _ => trivial

theorem segment_floor (call : BnsCall)
    (hshape : FloorEffects msg name floor reasonHash bump effects)
    (htrace : Trace (LiveStep chain msg) machine effects after) :
    ∃ report, startsLineage report.event = false ∧
      concerns call report.event (.nameState name) = true ∧
      Segment call machine [report] after := by
  obtain ⟨previous, ownerPolicySeq, nameSeq, payload, rfl⟩ := hshape
  rw [append_cons, append_cons] at htrace
  refine (segment_edits call name htrace (forall_mem_append.mpr
    ⟨editsName_bumped _, by simp [EditsName]⟩) fun cell => ?_).imp fun report hreport => ?_
  · cases cell <;> grind [concerns]
  · rw [hreport.1]
    exact ⟨rfl, by simp [concerns], hreport.2⟩

theorem segment_announce (call : BnsCall) (hshape : AnnounceEffects msg name effects)
    (hedits : ∀ effect ∈ edits, EditsName name effect)
    (htrace : Trace (LiveStep chain msg) machine (edits ++ effects) after) :
    Continues call machine after := by
  obtain ⟨state, payload, rfl⟩ := hshape
  refine .of_event (segment_edits call name htrace hedits fun cell => ?_) rfl
  cases cell <;> grind [concerns]

theorem segment_owner (call : BnsCall) (hshape : OwnerEffects msg name owner bump effects)
    (htrace : Trace (LiveStep chain msg) machine effects after) :
    Continues call machine after := by
  obtain ⟨announced, hanno, rfl⟩ := hshape
  rw [append_cons, ← cons_append] at htrace
  refine segment_announce call hanno (forall_mem_cons.mpr ⟨?_, editsName_bumped _⟩) htrace
  rfl

theorem settles_register (hwf : WellFormed machine.storage)
    (hlive : LiveStep chain msg machine (.register name state) after)
    (howner : cell.owner = some name) :
    Settles call (.nameRegistered (nameHash name) name assetOwner actor expireAt lineageEpoch
      nameSeq) cell after.storage := by
  have hempty := slots_registered hwf hlive
  have hkeeps : KeepsOthers (.register name state) machine.storage after.storage := by
    rw [hlive.1.2]
    exact @keepsOthers_write chain _ _
  cases cell <;> simp only [Cell.owner, Option.some.injEq, reduceCtorEq] at howner <;>
    subst howner
  case nameState => trivial
  case document => trivial
  case authoritySet =>
    rw [Settles, liveSet, hkeeps.authoritySets (by simp)]
    exact congrArg LineageSlots.authoritySet hempty
  case authorityKey =>
    rw [Settles, liveKey, hkeeps.authorityKeys (by simp)]
    exact congrFun (congrArg LineageSlots.authorityKeys hempty) _
  case controllerPolicy =>
    rw [Settles, livePolicy, hkeeps.controllerPolicies (by simp)]
    exact congrArg LineageSlots.controllerPolicy hempty
  case aliasState =>
    rw [Settles, liveAlias, hkeeps.aliases (by simp)]
    exact congrArg LineageSlots.aliasState hempty
  case pointer docType =>
    intro hdoc
    rw [documentPointer, currentVersion]
    have hvers := congrFun (congrArg LineageSlots.currentDocumentVersions hempty)
      (.keccak256 docType)
    refine Eq.trans ?_ hvers
    nth_rewrite 1 [hlive.1.2]
    exact versions_register chain _ (docType_ne_marker hdoc)

theorem segment_register (call : BnsCall) (hwf : WellFormed machine.storage)
    (htrace : Trace (LiveStep chain msg) machine
      ([.register name state] ++ [.log "name_registered" payload
        (.nameRegistered (nameHash name) name assetOwner msg.sender state.expireAt
          state.lineageEpoch state.nameSeq)]) after) :
    ∃ report, Segment call machine [report] after := by
  refine (segment_announced call htrace ?_ ?_).imp fun report hreport => hreport.2
  · intro effect heff
    rw [mem_singleton.mp heff]
    refine ⟨by simp [Silent], fun storage cell hchg => ?_⟩
    cases cell <;> simp_all [Changes, concerns]
  · intro second hbody cell hconcerned
    obtain ⟨_, hregister, hnil⟩ := trace_cons_iff.mp hbody
    obtain rfl := trace_nil_iff.mp hnil
    refine settles_register hwf hregister ?_
    cases cell <;> simp_all [concerns, Cell.owner]

theorem segment_conditionally (heffs : Conditionally condition Shape effects)
    (hshape : Shape effects → Continues call machine after)
    (htrace : Trace (LiveStep chain msg) machine effects after) :
    Continues call machine after := by
  rcases heffs with ⟨-, hperformed⟩ | ⟨-, rfl⟩
  · exact hshape hperformed
  · obtain rfl := trace_nil_iff.mp htrace
    exact .refl call machine

end Shapes

/-! ## Calls -/

section Calls

variable {effects : List Effect}

/-- The reports of a call.  At most the first of them starts a lineage, so the later ones
are all about the lineage that is live at the end. -/
def Reported (call : BnsCall) (machine : Machine) (reports : List Report)
    (after : Machine) : Prop :=
  (∀ report ∈ reports.tail, startsLineage report.event = false) ∧ Segment call machine reports after

theorem reported_of_continues (hcont : Continues call machine after) :
    ∃ reports, Reported call machine reports after := by
  obtain ⟨reports, hquiet, hseg⟩ := hcont
  exact ⟨reports, fun report hreport => hquiet report (mem_of_mem_tail hreport), hseg⟩

theorem segment_after_edits (name : Bytes) (hseg : Segment call edited reports after)
    (htrace : Trace (LiveStep chain msg) machine edits edited)
    (hedits : ∀ effect ∈ edits, EditsName name effect) (hnamed : edits ≠ [] → ∃ report ∈ reports,
      concerns call report.event (.nameState name) = true) :
    Segment call machine reports after := by
  obtain ⟨hlogs, hseq⟩ := silent_trace (fun effect heff => (hedits effect heff).silent) htrace
  refine ⟨hlogs ▸ hseg.logs, hseq ▸ hseg.seq, hseq ▸ hseg.numbered,
    hseg.call_eq, fun cell => ?_⟩
  by_cases hcell : cell = .nameState name ∧ edits ≠ []
  · obtain ⟨rfl, hnonempty⟩ := hcell
    obtain ⟨report, hreport, hconc⟩ := hnamed hnonempty
    refine .of_trivial (fun _ _ => trivial) hreport ?_
    exact hconc
  · refine (Journal.Follows.nil (same_trace htrace ?_)).append (hseg.cells cell)
    refine fun effect heff storage hchg => hcell ⟨?_, ne_nil_of_mem heff⟩
    exact (hedits effect heff).changes_iff.mp hchg

theorem changes_repriceDocument_iff {storage name docType cell} :
    Changes storage (.repriceDocument (nameHash name) (.keccak256 docType) terms) cell ↔
      cell = .document name docType (documentPointer storage name docType) := by
  cases cell <;> grind [Changes, nameHash, documentPointer]

section Shaped

variable (hshape : CallEffects msg call effects)
  (htrace : Trace (LiveStep chain msg) machine effects after)

include hshape htrace

theorem reported_registration {name} (hregs : call.registers = some name)
    (hwf : WellFormed machine.storage) :
    ∃ reports, Reported call machine reports after := by
  cases hshape <;> simp only [BnsCall.registers, reduceCtorEq] at hregs
  case registerName hparts hkeys howner hrules =>
    generalize hcall : BnsCall.registerName _ _ _ _ _ _ _ _ _ _ = call
    have hupds := (congrArg authorityUpdates hcall).symm
    have hpol := (congrArg controllerPolicy hcall).symm
    obtain ⟨registered, hregister, hrest⟩ : ∃ registered,
        Trace (LiveStep chain msg) machine ([_] ++ [_]) registered ∧
          Trace (LiveStep chain msg) registered _ after := trace_append_iff.mp htrace
    obtain ⟨_, hrest, hruled⟩ := trace_append_iff.mp hrest
    obtain ⟨_, hrest, howned⟩ := trace_append_iff.mp hrest
    obtain ⟨_, hpub, hkeyed⟩ := trace_append_iff.mp hrest
    obtain ⟨report, hfirst⟩ := segment_register call hwf hregister
    obtain ⟨published, hquiet, -, hpublished⟩ := segment_published call hparts hpub
    have hcont : Continues call registered after :=
      (Continues.trans ⟨published, hquiet, hpublished⟩
        (segment_conditionally hkeys (segment_keys · hupds hkeyed) hkeyed)).trans
        ((segment_conditionally howner (segment_owner call · howned) howned).trans
          (segment_conditionally hrules (segment_policy · hpol hruled) hruled))
    obtain ⟨reports, hreports, hseg⟩ := hcont
    exact ⟨report :: reports, hreports, hfirst.append hseg⟩

variable {authority : CallAuthority} {guard : MutationGuard}

/-- A batch takes its sequence number before the events that announce it. -/
theorem continues_applyMutations {name updates}
    (hcall : call = .applyMutations name updates documents policy authority guard) :
    Continues call machine after := by
  subst hcall
  cases hshape with
  | applyMutations hkeys hbump hparts hfloor =>
    obtain ⟨published, hrest, hfloored⟩ := trace_append_iff.mp htrace
    obtain ⟨stamped, hrest, hpub⟩ := trace_append_iff.mp hrest
    obtain ⟨started, hkeyed, hbumped⟩ := trace_append_iff.mp hrest
    refine (segment_conditionally hkeys (segment_keys · rfl hkeyed) hkeyed).trans ?_
    obtain ⟨reports, hquiet, hnamed, hseg⟩ := segment_published _ hparts hpub
    obtain ⟨more, hfloorQuiet, hfloorNamed, hfloorSegment⟩ :
        ∃ more, (∀ report ∈ more, startsLineage report.event = false) ∧
          (policy.updateMinDocumentIat = true → ∃ report ∈ more,
            concerns (.applyMutations name updates documents policy authority guard)
              report.event (.nameState name) = true) ∧
          Segment (.applyMutations name updates documents policy authority guard)
            published more after := by
      rcases hfloor with ⟨-, hfloor⟩ | ⟨hskipped, rfl⟩
      · obtain ⟨report, hevent, hconc, hfloors⟩ := segment_floor _ hfloor hfloored
        exact ⟨[report], by simpa using hevent, fun _ => ⟨report, by simp, hconc⟩, hfloors⟩
      · obtain rfl := trace_nil_iff.mp hfloored
        exact ⟨[], by simp, fun hupdate => absurd hupdate hskipped, .refl _ published⟩
    refine ⟨reports ++ more, forall_mem_append.mpr ⟨hquiet, hfloorQuiet⟩,
      segment_after_edits name (hseg.append hfloorSegment) hbumped ?_ ?_⟩
    · rcases hbump with ⟨-, rfl⟩ | ⟨-, rfl⟩
      · simp [EditsName]
      · simp
    · intro hnonempty
      rcases hbump with ⟨hdocs | hupdate, -⟩ | ⟨-, hempty⟩
      · obtain ⟨report, hreport, hconc⟩ :=
          hnamed (length_pos_iff.mp (Nat.pos_of_ne_zero hdocs))
        exact ⟨report, mem_append_left _ hreport, hconc⟩
      · obtain ⟨report, hreport, hconc⟩ := hfloorNamed hupdate
        exact ⟨report, mem_append_right _ hreport, hconc⟩
      · exact absurd hempty hnonempty

/-- New payment terms are about the version the pointer shows. -/
theorem continues_setPaymentTarget {name docType}
    (hcall : call = .setPaymentTarget name docType version terms authority guard)
    (hcur : documentPointer machine.storage name docType = version) :
    Continues call machine after := by
  subst hcall
  obtain ⟨payload⟩ := hshape
  have hedits : ∀ effect ∈ [Effect.editName (nameHash name) fun state =>
        { state with paymentPolicyHash := terms.paymentPolicyHash },
      .bumpNameSeq (nameHash name), .editName (nameHash name) (touched msg)],
      EditsName name effect := by simp [EditsName]
  have hsplit : Trace (LiveStep chain msg) machine ([_, _, _, _] ++ [_]) after := htrace
  refine .of_event (segment_logged _ hsplit ?_ ?_ ?_) rfl
  · exact forall_mem_cons.mpr ⟨by simp [Silent], fun effect heff =>
      (hedits effect heff).silent⟩
  · intro second hbody cell hother
    obtain ⟨repriced, hreprice, hrest⟩ := trace_cons_iff.mp hbody
    refine Cell.same_trans (same_step hreprice fun hchg => ?_)
      (same_trace hrest fun effect heff storage hchg => ?_)
    · rw [changes_repriceDocument_iff.mp hchg, hcur] at hother
      simp [concerns] at hother
    · rw [(hedits effect heff).changes_iff.mp hchg] at hother
      simp [concerns] at hother
  · intro second hbody cell hconcerned
    cases cell with
    | pointer other otherType =>
      simp only [concerns, decide_eq_true_eq] at hconcerned
      obtain ⟨rfl, rfl⟩ := hconcerned
      have hsame : Cell.Same (.pointer name docType) machine.storage second.storage :=
        same_trace hbody (by simp [Changes])
      rw [Settles, hsame, hcur]
    | _ => trivial

theorem continues_setDidAlias {name}
    (hcall : call = .setDidAlias name targetDid kind proofHash authority guard) :
    Continues call machine after := by
  subst hcall
  obtain ⟨state, payload, -, -, -, -⟩ := hshape
  have hsplit : Trace (LiveStep chain msg) machine ([_, _, _, _] ++ [_]) after := htrace
  refine .of_event (segment_announced _ hsplit ?_ ?_) rfl
  · intro effect heff
    simp only [mem_cons, not_mem_nil, or_false] at heff
    rcases heff with rfl | rfl | rfl | rfl
    all_goals first
      | exact EditsName.announced rfl (by simp [concerns])
      | refine ⟨by simp [Silent], fun storage cell hchg => ?_⟩
    cases cell <;> simp_all [Changes, concerns, nameHash]
  · intro second _ cell _
    cases cell <;> trivial

theorem continues_publishLogCheckpoint (hcall : call = .publishLogCheckpoint issuer anchor) :
    Continues call machine after := by
  subst hcall
  cases hshape with
  | publishLogCheckpoint checkpoint payload hissuer hanchor =>
    have hsplit : Trace (LiveStep chain msg) machine ([_] ++ [_]) after := htrace
    refine .of_event (segment_announced _ hsplit ?_ ?_) rfl
    · intro effect heff
      rw [mem_singleton.mp heff]
      refine ⟨by simp [Silent], fun storage cell hchg => ?_⟩
      cases cell <;> simp_all [Changes, concerns]
    · intro second hbody cell hconcerned
      obtain ⟨_, hput, hnil⟩ := trace_cons_iff.mp hbody
      obtain rfl := trace_nil_iff.mp hnil
      cases cell with
      | checkpoint =>
        subst hissuer hanchor
        exact ⟨_, rfl, by rw [hput.1.2]; rfl⟩
      | _ => trivial

theorem continues_transferName {name}
    (hcall : call = .transferName name assetOwner owner documents authority guard) :
    Continues call machine after := by
  subst hcall
  cases hshape with
  | transferName oldAssetOwner nameSeq payload hanno hparts =>
    obtain ⟨transferred, htransfer, hrest⟩ : ∃ transferred,
        Trace (LiveStep chain msg) machine ([_, _, _, _] ++ [_]) transferred ∧
          Trace (LiveStep chain msg) transferred _ after := trace_append_iff.mp htrace
    obtain ⟨announced, hann, hpub⟩ := trace_append_iff.mp hrest
    obtain ⟨published, hquiet, -, hpublished⟩ := segment_published _ hparts hpub
    refine Continues.trans (.of_event (segment_edits _ name htransfer ?_ fun cell => ?_) rfl)
      (.trans (segment_announce _ hanno (forall_mem_nil _) hann)
        ⟨published, hquiet, hpublished⟩)
    · simp [EditsName]
    · cases cell <;> grind [concerns]

end Shaped

theorem reported_of_performs (hwf : WellFormed machine.storage)
    (hperf : Performs chain msg call machine after) :
    ∃ reports, Reported call machine reports after := by
  have hadm := hperf.1
  obtain ⟨effects, hshape, htrace⟩ := performs_live hperf
  have hcall := hshape
  cases hshape
  case registerName => exact reported_registration hcall htrace rfl hwf
  all_goals refine reported_of_continues ?_
  case applyMutations => exact continues_applyMutations hcall htrace rfl
  case setPaymentTarget => exact continues_setPaymentTarget hcall htrace rfl hadm.2.2
  case setDidAlias => exact continues_setDidAlias hcall htrace rfl
  case publishLogCheckpoint => exact continues_publishLogCheckpoint hcall htrace rfl
  case transferName => exact continues_transferName hcall htrace rfl
  case setNameOwner howner => exact segment_owner _ howner htrace
  case updateAuthorityKeys hkeys => exact segment_keys hkeys rfl htrace
  case setControllerPolicy hpol => exact segment_policy hpol rfl htrace
  case setMinDocumentIat hfloor =>
    obtain ⟨report, hevent, -, hseg⟩ := segment_floor _ hfloor htrace
    exact ⟨[report], by simpa using hevent, hseg⟩
  case publishDocument hpub =>
    obtain ⟨report, hevent, -, hseg⟩ := segment_publish _ hpub htrace
    exact ⟨[report], by simpa using hevent, hseg⟩
  case revokeDocument =>
    refine .of_event (segment_version _ htrace (fun cell => ?_) fun _ hptr => hptr) rfl
    cases cell <;> grind [concerns]
  case renewName name _ _ _ _ _ =>
    have hsplit : Trace (LiveStep chain msg) machine ([_, _, _, _] ++ [_]) after := htrace
    refine .of_event (segment_edits _ name hsplit (by simp [EditsName]) fun cell => ?_) rfl
    cases cell <;> grind [concerns]
  case releaseName name _ _ _ _ _ _ | setNamespacePolicy name _ _ _ _ _ _ =>
    have hsplit : Trace (LiveStep chain msg) machine ([_, _, _] ++ [_]) after := htrace
    refine .of_event (segment_edits _ name hsplit (by simp [EditsName]) fun cell => ?_) rfl
    cases cell <;> grind [concerns]

theorem eventName_of_logs (hperf : Performs chain msg call machine after) {event}
    (hevent : event ∈ after.logs) :
    event ∈ machine.logs ∨ (∃ seq eventType actor previousLogRoot logRoot,
      event = .protocolEvent seq eventType actor previousLogRoot logRoot) ∨
      eventName event = call.name := by
  obtain ⟨-, effects, hshape, htrace⟩ := hperf
  let Known : Machine → Prop := fun state => event ∈ state.logs →
    event ∈ machine.logs ∨ (∃ seq eventType actor previousLogRoot logRoot,
      event = .protocolEvent seq eventType actor previousLogRoot logRoot) ∨
      eventName event = call.name
  refine (htrace.preserves Known ?_ .inl : Known after) hevent
  rintro effect heff before next ⟨-, rfl⟩ hknown hnext
  rcases mem_append.mp hnext with hold | hnew
  · exact hknown hold
  cases effect with
  | log eventType payload logged =>
    simp only [Effect.emits, mem_cons, not_mem_nil, or_false] at hnew
    rcases hnew with rfl | rfl
    · exact .inr (.inl ⟨_, _, _, _, _, rfl⟩)
    · exact .inr (.inr (eventName_of_call hshape heff))
  | _ => cases hnew

end Calls

section Committed

variable {attempt : Attempt} {next : Storage} {logs : List BnsEvent}

theorem exists_reported (hwf : WellFormed storage)
    (hcall : runCall chain attempt.msg attempt.call storage = .ok (next, logs)) :
    ∃ reports, Reported attempt.call { storage, logs := [] } reports
      { storage := next, logs } := reported_of_performs hwf (runCall_performs hcall)

/-- What a report that starts no lineage says holds after the call. -/
theorem Reported.settles {call machine after}
    (hrep : Reported call machine reports after) (hreport : report ∈ reports) (cell : Cell)
    (hquiet : startsLineage report.event = false)
    (hconc : concerns call report.event cell = true) :
    ∃ event, startsLineage event = false ∧ concerns call event cell = true ∧
      Settles call event cell after.storage := by
  obtain ⟨htail, hseg⟩ := hrep
  obtain ⟨earlier, rest, rfl⟩ := append_of_mem hreport
  have hconcerned : (cellJournal cell).concerns report = true := by
    rw [← hseg.call_eq report hreport] at hconc
    exact hconc
  obtain ⟨later, hlater, hsett⟩ := (hseg.cells cell).settled hconcerned
  have hcall := hseg.call_eq later (mem_append_right _ hlater)
  refine ⟨later.event, ?_, hcall ▸ hsett⟩
  rcases mem_cons.mp hlater with rfl | hrest
  · exact hquiet
  refine htail later ?_
  cases earlier with
  | nil => exact hrest
  | cons head earlier => exact mem_append_right _ (mem_cons_of_mem _ hrest)

theorem Reported.of_logs {call event} (hrep : Reported call { storage, logs := [] } reports
      { storage := next, logs }) (hevent : event ∈ logs) (hname : eventName event ≠ none) :
    ∃ report ∈ reports, report.event = event := by
  have hlogs := hrep.2.logs
  subst hlogs
  obtain ⟨report, hreport, hlogged⟩ := mem_flatMap.mp hevent
  simp only [Report.logs, mem_cons, not_mem_nil, or_false] at hlogged
  rcases hlogged with rfl | rfl
  · exact absurd rfl hname
  · exact ⟨report, hreport, rfl⟩

section Committed

variable (hcall : runCall chain attempt.msg attempt.call storage = .ok (next, logs))

include hcall

theorem name_of_event {event} (hevent : event ∈ logs) (hname : eventName event = some name) :
    attempt.call.name = some name := by
  rcases eventName_of_logs (runCall_performs hcall) hevent with hold | ⟨_, _, _, _, _, rfl⟩ | hnamed
  · cases hold
  · cases hname
  · rw [← hnamed, hname]

theorem liveKey_of_event (hwf : WellFormed storage) {hash actor authoritySeq authorityRoot}
    (hevent : .authorityKeysUpdated hash name actor authoritySeq authorityRoot ∈ logs) {kid key}
    (hkey : keyAfter (authorityUpdates attempt.call) kid = some key) :
    liveKey next name kid = key := by
  obtain ⟨reports, hrep⟩ := exists_reported hwf hcall
  obtain ⟨report, hreport, hreportEvent⟩ := hrep.of_logs hevent (by simp [eventName])
  obtain ⟨event, hquiet, hconcerned, hsett⟩ :=
    hrep.settles hreport (.authorityKey name kid) (by rw [hreportEvent]; rfl)
      (by rw [hreportEvent]; simp [concerns, hkey])
  cases event <;> simp only [concerns, Bool.false_eq_true, startsLineage, reduceCtorEq]
    at hconcerned hquiet
  rw [Settles, hkey, Option.some.injEq] at hsett
  exact hsett.symm

theorem livePolicy_of_event (hwf : WellFormed storage) {hash actor policyHash nameSeq}
    (hevent : .controllerPolicyUpdated hash name actor policyHash nameSeq ∈ logs) :
    ∃ applied, controllerPolicy attempt.call = some (livePolicy next name, applied) := by
  obtain ⟨reports, hrep⟩ := exists_reported hwf hcall
  obtain ⟨report, hreport, hreportEvent⟩ := hrep.of_logs hevent (by simp [eventName])
  obtain ⟨event, hquiet, hconcerned, hsett⟩ :=
    hrep.settles hreport (.controllerPolicy name) (by rw [hreportEvent]; rfl)
      (by rw [hreportEvent]; simp [concerns])
  cases event <;> simp only [concerns, Bool.false_eq_true, startsLineage, reduceCtorEq]
    at hconcerned hquiet
  exact ⟨_, hsett⟩

end Committed

end Committed

end CyfsGateway.BnsAnnouncements
