import CyfsGateway.Rtcp.TunnelPlaces

/-!
# The newest revision of a name

Documents are verified when a handshake begins and published when it ends.  If
every document that is published is at least as new as those published before it,
the live tunnels of a name carry one revision, the newest.  The map itself does not
compare a candidate with newer tunnels of its name.
-/

namespace CyfsGateway.Rtcp

open Tables Transition RTcpTunnelMapState

namespace RTcpTunnelMap

variable {system after : RTcpTunnelMap} {tunnel : Nat} {logicalDid : String}

/-- The revisions of a name that were published, the last first. -/
def published (logicalDid : String) : List TunnelEvent → List DocRevision
  | [] => []
  | .admitted _ (some (name, revision)) :: rest =>
    if name = logicalDid then revision :: published logicalDid rest
    else published logicalDid rest
  | _ :: rest => published logicalDid rest

/-- A live tunnel in the index of a name carries this revision of the document.  A closed
tunnel may stay in the index until it is removed. -/
def Carries (system : RTcpTunnelMap) (logicalDid : String) (tunnel : Nat)
    (revision : DocRevision) : Prop :=
  tunnel ∉ system.closed ∧ ∃ entry,
    (system.state.verifiedEntries logicalDid).lookup tunnel = some entry ∧
      entry.documentRevision = revision

/-- The live tunnels of a name carry one revision, and none that was published is
newer. -/
structure Newest (system : RTcpTunnelMap) : Prop where
  known : ∀ logicalDid tunnel revision, system.Carries logicalDid tunnel revision →
    revision ∈ published logicalDid system.log
  greatest : ∀ logicalDid tunnel revision, system.Carries logicalDid tunnel revision →
    ∀ earlier ∈ published logicalDid system.log, earlier.iat ≤ revision.iat
  same : ∀ logicalDid left right leftRevision rightRevision,
    system.Carries logicalDid left leftRevision →
      system.Carries logicalDid right rightRevision → leftRevision = rightRevision

/-- Nothing was published; documents were lost at most. -/
structure Fewer (before after : RTcpTunnelMap) : Prop where
  entries : ∀ logicalDid tunnel entry,
    (after.state.verifiedEntries logicalDid).lookup tunnel = some entry →
      (before.state.verifiedEntries logicalDid).lookup tunnel = some entry
  closed : before.closed ⊆ after.closed
  published : ∀ logicalDid, published logicalDid after.log = published logicalDid before.log

theorem Newest.fewer (hnewest : Newest system) (hfewer : Fewer system after) : Newest after := by
  have hcarry : ∀ name tunnel revision, after.Carries name tunnel revision →
      system.Carries name tunnel revision := by
    rintro name tunnel revision ⟨hlive, entry, hentry, hrevision⟩
    exact ⟨fun hclosed => hlive (hfewer.closed hclosed), entry,
      hfewer.entries name tunnel entry hentry, hrevision⟩
  refine ⟨?_, ?_, ?_⟩
  · intro name tunnel revision hafter
    rw [hfewer.published]
    exact hnewest.known name tunnel revision (hcarry _ _ _ hafter)
  · intro name tunnel revision hafter
    rw [hfewer.published]
    exact hnewest.greatest name tunnel revision (hcarry _ _ _ hafter)
  · intro name left right leftRevision rightRevision hleft hright
    exact hnewest.same name left right _ _ (hcarry _ _ _ hleft) (hcarry _ _ _ hright)

end RTcpTunnelMap

namespace RTcpTunnelMapState

variable {state after : RTcpTunnelMapState} {tunnel : Nat}

def Documents (before after : RTcpTunnelMapState) : Prop :=
  ∀ logicalDid tunnel entry, (after.verifiedEntries logicalDid).lookup tunnel = some entry →
      (before.verifiedEntries logicalDid).lookup tunnel = some entry

theorem Pruned.documents (hpruned : Pruned removed state after) : state.Documents after := by
  intro logicalDid tunnel entry hentry
  rw [hpruned.entry, Option.ite_none_left_eq_some] at hentry
  exact hentry.2

theorem Documents.trans {before middle : RTcpTunnelMapState}
    (hfirst : before.Documents middle) (hsnd : middle.Documents after) :
    before.Documents after := fun _ _ _ hentry => hfirst _ _ _ (hsnd _ _ _ hentry)

theorem documents_recordBinding : state.Documents (state.recordBinding tunnel name key) := by
  cases name <;> exact fun _ _ _ hentry => hentry

theorem Outbound.documents (hout : Outbound naming closed key name views state after) :
    state.Documents after := by
  cases hout with
  | pruned hpruned => exact hpruned.documents
  | bound hready | inserted hready =>
    obtain ⟨removed, hpruned⟩ := hready.pruned
    exact hpruned.documents.trans documents_recordBinding

/-- The documents behind a publication: the new one, and those that are not
outdated by it. -/
theorem document_publishInbound {logicalDid} (hlinked : state.Linked naming)
    (hkey : key = naming.keyOf tunnel) (hname : named.canonicalDevDid = naming.deviceOf key)
    (hfree : state.Free (VerifiedTunnelIdentity.binding named))
    (hentry : ((state.publishInbound key tunnel (some named) views).2.1.verifiedEntries
      logicalDid).lookup other = some entry) :
    (logicalDid = named.logicalDid ∧ entry.documentRevision = named.documentRevision) ∨
      (state.verifiedEntries logicalDid).lookup other = some entry ∧
        (logicalDid = named.logicalDid → other ∉ views.scan →
          named.documentRevision.iat ≤ entry.documentRevision.iat) := by
  obtain ⟨hplaced, displaced, hdisplaced⟩ := hlinked.displace hkey
  have hidx := hplaced.indexVerified ⟨hkey, hname⟩ (hfree.displace hlinked hkey)
  obtain ⟨-, hpruned, -⟩ := hidx.dropStale
  have hfound := hentry
  simp only [publishInbound] at hfound
  rw [hpruned.entry, Option.ite_none_left_eq_some] at hfound
  obtain ⟨hkept, hfound⟩ := hfound
  rw [entry_indexVerified] at hfound
  split at hfound
  · rename_i hnew
    cases hfound
    exact .inl ⟨hnew.1, rfl⟩
  rename_i hold
  refine .inr ⟨hdisplaced.documents _ _ _ hfound, fun hlog hlive => ?_⟩
  by_contra holder
  refine hkept (List.mem_map.mpr ⟨(other, entry), mem_staleEntries.mpr ⟨?_, ?_, .inr ?_⟩, rfl⟩)
  · rw [entry_indexVerified, if_neg fun hboth => hold ⟨hlog, hboth.2⟩, ← hlog]
    exact hfound
  · exact fun hsame => hold ⟨hlog, hsame⟩
  · exact decide_eq_true (Nat.not_le.mp holder)

/-- A live document of the same iat that passed the check is the same one. -/
theorem revision_eq_of_agrees (hagrees : state.revisionConflict named closed = false)
    (hentry : (state.verifiedEntries named.logicalDid).lookup other = some entry)
    (hlive : other ∉ closed) (hiat : entry.documentRevision.iat = named.documentRevision.iat) :
    entry.documentRevision = named.documentRevision := by
  by_contra hne
  have hconf : state.revisionConflict named closed = true :=
    List.any_eq_true.mpr ⟨(other, entry), mem_rows_iff.mpr hentry, by simp [hlive, hiat, hne]⟩
  exact Bool.false_ne_true (hagrees.symm.trans hconf)

/-- The same from the state before, for a tunnel that was live to the end of the section: a
document of the name that stays is a newer one, or the very one that is published. -/
theorem Cleared.document_publishInbound {cleared : RTcpTunnelMapState} {logicalDid}
    (hclear : Cleared naming closed key (some named) views state cleared)
    (hviews : Ascending closed views) (hkey : key = naming.keyOf tunnel)
    (hname : named.canonicalDevDid = naming.deviceOf key)
    (hentry : ((cleared.publishInbound key tunnel (some named) views).2.1.verifiedEntries
      logicalDid).lookup other = some entry) (hlive : other ∉ views.scan) :
    (logicalDid = named.logicalDid ∧ entry.documentRevision = named.documentRevision) ∨
      (state.verifiedEntries logicalDid).lookup other = some entry ∧
        (logicalDid = named.logicalDid →
          named.documentRevision.iat ≤ entry.documentRevision.iat ∧
            (entry.documentRevision.iat = named.documentRevision.iat →
              entry.documentRevision = named.documentRevision)) := by
  rcases RTcpTunnelMapState.document_publishInbound hclear.sound.linked hkey hname
    (hclear.free _ rfl) hentry with hnew | ⟨hkept, hnewer⟩
  · exact .inl hnew
  obtain ⟨removed, -, hpruned⟩ := hclear.pruned
  refine .inr ⟨hpruned.documents _ _ _ hkept, fun hsame => ⟨hnewer hsame hlive, fun hiat => ?_⟩⟩
  subst hsame
  exact revision_eq_of_agrees (hclear.agrees _ rfl) hkept
    (fun hmem => hlive (hviews.scan (hviews.existing hmem))) hiat

end RTcpTunnelMapState

namespace RTcpTunnelMap

variable {naming : Naming} {system after : RTcpTunnelMap} {tunnel : Nat} {logicalDid : String}
  {exits : Views}

/-! ## Registrations -/

/-- A candidate finds a live tunnel under its key, or it is at least as new as what
was published of its name. -/
def ordered (naming : Naming) (tunnel : Nat) (logicalDid : String) (revision : DocRevision)
    (exits : Views) (system : RTcpTunnelMap) : Bool :=
  ((system.state.tunnels.lookup (naming.keyOf tunnel)).any fun existing =>
      decide (existing ∉ (system.views exits).existing)) ||
    (published logicalDid system.log).all fun earlier => decide (earlier.iat ≤ revision.iat)

theorem ordered_iff : system.ordered naming tunnel logicalDid revision exits = true ↔
      (∃ existing, system.state.tunnels.lookup (naming.keyOf tunnel) = some existing ∧
          existing ∉ (system.views exits).existing) ∨
        ∀ earlier ∈ published logicalDid system.log, earlier.iat ≤ revision.iat := by
  simp [ordered, Option.any_eq_true]

/-- The live tunnels that may carry a document behind its publication.  Of the name itself
these are the new one, and those with the same revision or a newer one. -/
def Republishes (before after : RTcpTunnelMap) (logicalDid : String)
    (revision : DocRevision) : Prop :=
  ∀ name other found, after.Carries name other found → name = logicalDid ∧ found = revision ∨
      before.Carries name other found ∧ (name = logicalDid →
        revision.iat ≤ found.iat ∧ (found.iat = revision.iat → found = revision))

/-- A publication that is at least as new as those before it.  What stays live of
the name has the published revision. -/
theorem Newest.publish (hnewest : Newest system)
    (hlog : after.log = .admitted tunnel (some (logicalDid, revision)) :: system.log)
    (hord : ∀ earlier ∈ published logicalDid system.log, earlier.iat ≤ revision.iat)
    (hcarry : Republishes system after logicalDid revision) : Newest after := by
  have hown : ∀ other found, after.Carries logicalDid other found → found = revision := by
    intro other found hfound
    rcases hcarry logicalDid other found hfound with ⟨-, rfl⟩ | ⟨hbefore, hnewer⟩
    · rfl
    · obtain ⟨hle, heq⟩ := hnewer rfl
      exact heq (Nat.le_antisymm (hord found (hnewest.known _ _ _ hbefore)) hle)
  have hothers : ∀ name other found, name ≠ logicalDid → after.Carries name other found →
      system.Carries name other found := by
    intro name other found hname hfound
    rcases hcarry name other found hfound with ⟨hsame, -⟩ | ⟨hbefore, -⟩
    · exact absurd hsame hname
    · exact hbefore
  have hpublished : ∀ name, published name after.log =
      if logicalDid = name then revision :: published name system.log
      else published name system.log := fun name => by rw [hlog, published]
  refine ⟨?_, ?_, ?_⟩
  · intro name other found hfound
    rw [hpublished]
    by_cases hname : name = logicalDid
    · subst hname
      rw [if_pos rfl, hown other found hfound]
      exact List.mem_cons_self ..
    · rw [if_neg (Ne.symm hname)]
      exact hnewest.known name other found (hothers name other found hname hfound)
  · intro name other found hfound
    rw [hpublished]
    by_cases hname : name = logicalDid
    · subst hname
      rw [if_pos rfl, hown other found hfound]
      exact List.forall_mem_cons.mpr ⟨Nat.le_refl _, hord⟩
    · rw [if_neg (Ne.symm hname)]
      exact hnewest.greatest name other found (hothers name other found hname hfound)
  · intro name left right leftFound rightFound hleft hright
    by_cases hname : name = logicalDid
    · subst hname
      rw [hown left leftFound hleft, hown right rightFound hright]
    · exact hnewest.same name left right _ _ (hothers _ _ _ hname hleft)
        (hothers _ _ _ hname hright)

/-- What the registration of an inbound tunnel can do: refuse it, publish it
without a document, or publish its document. -/
inductive Arbitrated (naming : Naming) (system : RTcpTunnelMap) (tunnel : Nat)
    (exits : Views) : Option (String × DocRevision) → RTcpTunnelMap → Prop
  | refused {document after} (hfewer : Fewer system after)
      (hlog : after.log = .refused tunnel :: system.log)
      (hrejected : ∃ registration ∈ after.finishing, registration.rejected = some tunnel) :
      Arbitrated naming system tunnel exits document after
  | unnamed {document after} (hfewer : Fewer system after)
      (hdead : ∀ existing, system.state.tunnels.lookup (naming.keyOf tunnel) = some existing →
        existing ∈ (system.views exits).existing) :
      Arbitrated naming system tunnel exits document after
  | named {logicalDid revision after}
      (hlog : after.log = .admitted tunnel (some (logicalDid, revision)) :: system.log)
      (hdead : ∀ existing, system.state.tunnels.lookup (naming.keyOf tunnel) = some existing →
        existing ∈ (system.views exits).existing)
      (hcarries : Republishes system after logicalDid revision) :
      Arbitrated naming system tunnel exits (some (logicalDid, revision)) after

variable {document : Option (String × DocRevision)}

theorem arbitrated (hsound : Sound naming system) (document : Option (String × DocRevision)) :
    Arbitrated naming system tunnel exits document
      (system.arbitrateInbound naming tunnel document exits) := by
  have hscan : (system.views exits).scan ⊆
      (system.arbitrateInbound naming tunnel document exits).closed := List.subset_append_left ..
  have hclosed : system.closed ⊆ (system.arbitrateInbound naming tunnel document exits).closed :=
    fun _ hmem => hscan (ascending_views.all hmem)
  rcases hsound.replace_cases (naming.keyOf tunnel) tunnel
      ((document.filter fun document => naming.isNamed document.1).map fun document =>
        ⟨document.1, naming.deviceOf (naming.keyOf tunnel), document.2⟩)
      (system.views exits) with href | ⟨cleared, hclear, hpub⟩
  · obtain ⟨removed, -, hpruned⟩ := href.pruned
    obtain ⟨reason, hreject⟩ := href.refused
    have hlog : (system.arbitrateInbound naming tunnel document exits).log =
        .refused tunnel :: system.log := by
      simp only [arbitrateInbound, settle, hreject]
      rfl
    exact .refused ⟨hpruned.documents, hclosed, fun name => by rw [hlog]; rfl⟩ hlog
      ⟨_, List.mem_cons_self .., by rw [hreject]; rfl⟩
  obtain ⟨removed, hremoved, hpruned⟩ := hclear.pruned
  have hdead : ∀ existing, system.state.tunnels.lookup (naming.keyOf tunnel) = some existing →
      existing ∈ (system.views exits).existing := by
    rw [← hclear.tunnels]
    exact hclear.dead
  cases hidx : document.filter fun document => naming.isNamed document.1 with
  | none =>
    rw [hidx] at hpub
    have hlog : (system.arbitrateInbound naming tunnel document exits).log =
        .admitted tunnel none :: system.log := by
      simp only [arbitrateInbound, settle, hidx, hpub]
      rfl
    have hstate : (system.arbitrateInbound naming tunnel document exits).state =
        (cleared.displace (naming.keyOf tunnel) tunnel).1 := by
      simp only [arbitrateInbound, settle, hidx, hpub]
      rfl
    refine .unnamed ⟨?_, hclosed, fun name => by rw [hlog]; rfl⟩ hdead
    rw [hstate]
    obtain ⟨-, displaced, hdisplaced⟩ := hclear.sound.linked.displace rfl
    exact hpruned.documents.trans hdisplaced.documents
  | some indexed =>
    obtain ⟨rfl, -⟩ := Option.filter_eq_some_iff.mp hidx
    rw [hidx] at hpub hclear
    refine .named ?_ hdead ?_
    · simp only [arbitrateInbound, settle, hidx, hpub]
      rfl
    rintro name other found ⟨hlive, entry, hentry, rfl⟩
    simp only [arbitrateInbound, settle, hidx, hpub] at hentry
    rcases hclear.document_publishInbound ascending_views rfl rfl hentry
      fun hmem => hlive (hscan hmem) with hnew | ⟨hkept, hnewer⟩
    · exact .inl hnew
    · exact .inr ⟨⟨fun hmem => hlive (hclosed hmem), entry, hkept, rfl⟩, hnewer⟩

theorem Newest.arbitrateInbound (hsound : Sound naming system) (hnewest : Newest system)
    (hord : ∀ logicalDid revision, document = some (logicalDid, revision) →
      system.ordered naming tunnel logicalDid revision exits = true) :
    Newest (system.arbitrateInbound naming tunnel document exits) := by
  have harbitrated : Arbitrated naming system tunnel exits document
      (system.arbitrateInbound naming tunnel document exits) := arbitrated hsound document
  cases harbitrated with
  | refused hfewer | unnamed hfewer => exact hnewest.fewer hfewer
  | named hlog hdead hcarry =>
    rcases ordered_iff.mp (hord _ _ rfl) with ⟨existing, hexist, hlive⟩ | hnewer
    · exact absurd (hdead existing hexist) hlive
    · exact hnewest.publish hlog hnewer hcarry

/-! ## Runs -/

def inOrder (naming : Naming) (system : RTcpTunnelMap) : TunnelMove → Bool
  | .proceed exits =>
    match system.commit with
    | some (.inboundChecked tunnel logicalDid revision) =>
      system.ordered naming tunnel logicalDid revision exits
    | _ => true
  | _ => true

def moveInOrder (naming : Naming) (system : RTcpTunnelMap) (move : TunnelMove) :
    Option RTcpTunnelMap :=
  if system.inOrder naming move then system.move naming move else none

def OrderedStep (naming : Naming) (before : RTcpTunnelMap) (move : TunnelMove)
    (after : RTcpTunnelMap) : Prop := before.moveInOrder naming move = some after

theorem OrderedStep.step {move} (hstep : OrderedStep naming system move after) :
    system.inOrder naming move = true ∧ Step naming system move after := by
  exact Option.ite_none_right_eq_some.mp hstep

theorem Fewer.release {commit} (hfewer : Fewer system after) :
    Fewer system { after with commit } := ⟨hfewer.entries, hfewer.closed, hfewer.published⟩

end RTcpTunnelMap

end CyfsGateway.Rtcp
