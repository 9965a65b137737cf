import CyfsGateway.Rtcp.TunnelPlaces

/-!
# Effects of the steps on names

What each step of the tunnel map can do to the bindings of a name, to its
confirmation and to the commit lock.  A section binds tunnels to the name that its
operation took the lock for and to no other.
-/

namespace CyfsGateway.Rtcp

open Tables VerifiedTunnelIdentity RTcpTunnelMapState

namespace RTcpTunnelMapState

variable {naming : Naming} {state after : RTcpTunnelMapState} {key : String} {tunnel : Nat}
  {name : Option String} {identity : Option VerifiedTunnelIdentity}

/-- A section binds tunnels to its own name only, and only while the map runs.  A map that
stops running has no binding left. -/
structure Binds (name : Option String) (before after : RTcpTunnelMapState) : Prop where
  lifecycle : before.lifecycle = .running →
    after.lifecycle = .running ∨ ∀ tunnel, after.bindingByInstance.lookup tunnel = none
  binding : ∀ tunnel binding, after.bindingByInstance.lookup tunnel = some binding →
    before.bindingByInstance.lookup tunnel = some binding ∨
      before.lifecycle = .running ∧ name = some binding.logicalDid

theorem binds_refl : Binds name state state := ⟨.inl, fun _ _ hbind => .inl hbind⟩

theorem Pruned.binds (hpruned : Pruned removed state after) : Binds name state after := by
  refine ⟨fun hrunning => .inl (hpruned.lifecycle.trans hrunning),
    fun tunnel binding hbind => .inl ?_⟩
  rw [hpruned.binding, Option.ite_none_left_eq_some] at hbind
  exact hbind.2

theorem Pruned.binds_trans (hpruned : Pruned removed state middle)
    (hbinds : Binds name middle after) :
    Binds name state after := by
  have hfirst : Binds name state middle := hpruned.binds
  refine ⟨?_, fun tunnel binding hbind => ?_⟩
  · rw [← hpruned.lifecycle]
    exact hbinds.lifecycle
  rcases hbinds.binding tunnel binding hbind with hbefore | hnew
  · exact hfirst.binding tunnel binding hbefore
  · rw [hpruned.lifecycle] at hnew
    exact .inr hnew

theorem Binds.pruned (hbinds : Binds name state middle)
    (hpruned : Pruned removed middle after) : Binds name state after := by
  refine ⟨?_, fun tunnel binding hbind => ?_⟩
  · rw [hpruned.lifecycle]
    refine fun hrunning => (hbinds.lifecycle hrunning).imp_right fun hnone tunnel => ?_
    rw [hpruned.binding, hnone, ite_self]
  · rw [hpruned.binding, Option.ite_none_left_eq_some] at hbind
    exact hbinds.binding tunnel binding hbind.2

theorem binds_recordInstanceBinding (binding : OutboundNameBinding)
    (hrunning : state.lifecycle = .running) :
    Binds (some binding.logicalDid) state (state.recordInstanceBinding tunnel binding key) := by
  refine ⟨.inl, fun other bound hbound => ?_⟩
  rw [binding_recordInstanceBinding] at hbound
  split at hbound
  · cases hbound
    exact .inr ⟨hrunning, rfl⟩
  · exact .inl hbound

theorem binds_recordBinding (hrunning : state.lifecycle = .running) :
    Binds (target.map OutboundNameBinding.logicalDid) state
      (state.recordBinding tunnel target key) := by
  cases target with
  | none => exact binds_refl
  | some binding => exact binds_recordInstanceBinding binding hrunning

theorem Binds.place (hbinds : Binds name state after) :
    Binds name state { after with tunnels := upsert key tunnel after.tunnels } :=
  ⟨hbinds.lifecycle, hbinds.binding⟩

theorem Outbound.binds (hout : Outbound naming closed key target views state after) :
    Binds (target.map OutboundNameBinding.logicalDid) state after := by
  cases hout with
  | pruned hpruned => exact hpruned.binds
  | bound hready =>
    obtain ⟨removed, hpruned⟩ := hready.pruned
    exact hpruned.binds_trans (binds_recordBinding (hpruned.lifecycle.trans hready.running))
  | inserted hready =>
    obtain ⟨removed, hpruned⟩ := hready.pruned
    exact hpruned.binds_trans (binds_recordBinding (hpruned.lifecycle.trans hready.running)).place

section Published

variable (hkey : key = naming.keyOf tunnel)
  (hname : ∀ named ∈ identity, named.canonicalDevDid = naming.deviceOf key)

include hkey hname

theorem binds_publishInbound (hlinked : state.Linked naming) (hrunning : state.lifecycle = .running)
    (hfree : ∀ named ∈ identity, state.Free (VerifiedTunnelIdentity.binding named)) :
    Binds (identity.map logicalDid) state (state.publishInbound key tunnel identity views).2.1 := by
  obtain ⟨hplaced, removed, hpruned⟩ := hlinked.displace hkey
  cases identity with
  | none => exact hpruned.binds
  | some named =>
    have hidx := hplaced.indexVerified ⟨hkey, hname named rfl⟩
      ((hfree named rfl).displace hlinked hkey)
    have hbinds : Binds (some named.logicalDid) (state.displace key tunnel).1
        ((state.displace key tunnel).1.indexVerified key tunnel named) := by
      have hrecorded : Binds (some named.logicalDid) (state.displace key tunnel).1
          ((state.displace key tunnel).1.recordInstanceBinding tunnel
            (VerifiedTunnelIdentity.binding named) key) :=
        binds_recordInstanceBinding (VerifiedTunnelIdentity.binding named)
          (hpruned.lifecycle.trans hrunning)
      exact ⟨hrecorded.lifecycle, hrecorded.binding⟩
    obtain ⟨-, hstale, -⟩ := hidx.dropStale
    exact hpruned.binds_trans (hbinds.pruned hstale)

theorem binds_replaceAuthenticatedInbound (hsound : state.Sound naming closed) :
    Binds (identity.map logicalDid) state
      (state.replaceAuthenticatedInbound key tunnel identity views).2.1 := by
  rcases hsound.replace_cases key tunnel identity views with
    href | ⟨after, hclear, hpub⟩
  · obtain ⟨removed, -, hpruned⟩ := href.pruned
    exact hpruned.binds
  obtain ⟨removed, -, hpruned⟩ := hclear.pruned
  rw [hpub]
  exact hpruned.binds_trans (binds_publishInbound hkey hname hclear.sound.linked
    (hpruned.lifecycle.trans hclear.running) hclear.free)

end Published

def Unbound (logicalDid : String) (state : RTcpTunnelMapState) : Prop :=
  ∀ tunnel binding, state.bindingByInstance.lookup tunnel = some binding →
    binding.logicalDid ≠ logicalDid

theorem Unbound.binds {logicalDid} (hunb : state.Unbound logicalDid)
    (hbinds : Binds name state after) (hother : name ≠ some logicalDid) :
    after.Unbound logicalDid := by
  rintro tunnel binding hbind rfl
  rcases hbinds.binding tunnel binding hbind with hbefore | ⟨-, hname⟩
  · exact hunb tunnel binding hbefore rfl
  · exact hother hname

theorem unbound_detach (logicalDid : String) (hlinked : state.Linked naming) :
    Binds none state (state.detachVerifiedIdentityInstances logicalDid).1 ∧
      (state.detachVerifiedIdentityInstances logicalDid).1.Unbound logicalDid := by
  obtain ⟨-, hpruned, -⟩ := hlinked.dropAll
  refine ⟨hpruned.binds, ?_⟩
  rintro tunnel binding hbind rfl
  unfold detachVerifiedIdentityInstances at hbind
  rw [hpruned.binding, Option.ite_none_left_eq_some] at hbind
  obtain ⟨hkept, hbind⟩ := hbind
  refine hkept (List.mem_map.mpr ⟨(tunnel, binding), List.mem_filter.mpr ⟨?_, ?_⟩, rfl⟩)
  · exact mem_rows_iff.mpr hbind
  · exact decide_eq_true rfl

theorem tunnels_dropAll {bound : Table Nat InstanceNameBinding}
    (hkeys : ∀ row ∈ bound, row.2.canonicalKey = naming.keyOf row.1) :
    ∀ {state : RTcpTunnelMapState}, state.Linked naming →
      (bound.foldl (fun state row => state.drop row.2.canonicalKey row.1)
          state).tunnels.lookup place = some found →
        state.tunnels.lookup place = some found ∧ found ∉ bound.map Prod.fst := by
  induction bound with
  | nil => exact fun _ hfound => ⟨hfound, List.not_mem_nil⟩
  | cons row rest ih =>
    intro state hlinked hfound
    obtain ⟨hrow, hrest⟩ := List.forall_mem_cons.mp hkeys
    rw [List.foldl_cons, hrow] at hfound
    obtain ⟨hdropped, hkept⟩ := ih hrest hlinked.drop hfound
    obtain ⟨hbefore, hother⟩ := ((RTcpTunnelMap.onlyLost_drop hlinked).places _ _).mp hdropped
    rw [List.map_cons, List.mem_cons, not_or]
    exact ⟨hbefore, hother, hkept⟩

/-- The tunnels of a detached name are marked closed and lose their places. -/
theorem detached_detach (hlinked : state.Linked naming)
    (hbound : state.bindingByInstance.lookup tunnel = some binding) :
    tunnel ∈ (state.detachVerifiedIdentityInstances binding.logicalDid).2 ∧
      ∀ place, (state.detachVerifiedIdentityInstances binding.logicalDid).1.tunnels.lookup place ≠
        some tunnel := by
  have hmem : tunnel ∈ (state.detachVerifiedIdentityInstances binding.logicalDid).2 :=
    List.mem_map.mpr ⟨(tunnel, binding),
      List.mem_filter.mpr ⟨mem_rows_iff.mpr hbound, decide_eq_true rfl⟩, rfl⟩
  refine ⟨hmem, fun place hplace => (tunnels_dropAll (fun row hrow => ?_) hlinked hplace).2 hmem⟩
  exact (hlinked.keyed row.1 row.2 (mem_rows_iff.mp (List.mem_filter.mp hrow).1)).1

end RTcpTunnelMapState

/-! ## What a step can do -/

/-- The name whose check the section has passed. -/
def CommitSection.serves : CommitSection → Option String
  | .acquireChecked _ logicalDid => some logicalDid
  | .registerChecked _ logicalDid => some logicalDid
  | .inboundChecked _ logicalDid _ => some logicalDid
  | _ => none

/-- The name a tunnel was handed out or published for. -/
def TunnelEvent.serves : TunnelEvent → Option String
  | .acquired _ name => name
  | .registered _ name => name
  | .admitted _ document => document.map Prod.fst
  | _ => none

def TunnelEvent.confirms : TunnelEvent → Bool
  | .began .. | .completed .. | .cleared .. => true
  | _ => false

namespace RTcpTunnelMap

variable {system after : RTcpTunnelMap} {logicalDid : String} {name : Option String}

def serving (system : RTcpTunnelMap) : Option String := system.commit.bind CommitSection.serves

/-- A section of the map on behalf of a name; the confirmations stay. -/
structure Serves (name : Option String) (before after : RTcpTunnelMap) : Prop where
  binds : Binds name before.state after.state
  table : after.authorityConfirmations = before.authorityConfirmations
  events : ∃ events, after.log = events ++ before.log ∧ ∀ event ∈ events,
    event.confirms = false ∧ ∀ logicalDid, event.serves = some logicalDid → name = some logicalDid

/-- How the commit lock moves on: a section of a name is entered behind its check,
and a denial is left when its tunnels are detached or the map has stopped. -/
structure Hands (before after : RTcpTunnelMap) : Prop where
  checked : ∀ logicalDid, after.serving = some logicalDid →
    before.serving = some logicalDid ∨ before.isNegative logicalDid = false
  pending : ∀ logicalDid, before.commit = some (.detach logicalDid) →
    after.commit = some (.detach logicalDid) ∨ after.state.Unbound logicalDid ∨
      before.state.lifecycle ≠ .running

/-- The changes of a confirmation, and what is reported of them. -/
inductive Confirms (system : RTcpTunnelMap) (logicalDid : String) :
    AuthorityConfirmationState → TunnelEvent → Prop
  | begins {ticket} (hidle : ∀ current,
        system.authorityConfirmations.lookup logicalDid ≠ some (.inFlight current))
      (hnegative : system.isNegative logicalDid = false) :
      Confirms system logicalDid (.inFlight ticket) (.began logicalDid ticket)
  | confirmed {ticket completedAt} (hcurrent : system.isCurrent logicalDid ticket = true) :
      Confirms system logicalDid (.confirmed completedAt ticket.documentRevision)
        (.completed logicalDid ticket)
  | unavailable {ticket completedAt} (hcurrent : system.isCurrent logicalDid ticket = true) :
      Confirms system logicalDid (.unavailable completedAt ticket.documentRevision)
        (.completed logicalDid ticket)
  | denied {ticket negative} (hcurrent : system.isCurrent logicalDid ticket = true) :
      Confirms system logicalDid (.negative negative) (.completed logicalDid ticket)
  | clears {negative completedAt revision}
      (hnegative : system.authorityConfirmations.lookup logicalDid = some (.negative negative)) :
      Confirms system logicalDid (.confirmed completedAt revision)
        (.cleared logicalDid negative.generation)

/-- What a step does: a section of the map for a name that the commit lock was
taken for, a change of one confirmation, or a completion that is ignored. -/
inductive Effect (before after : RTcpTunnelMap) : Prop
  | serves (name : Option String) (hserves : Serves name before after)
      (hname : ∀ logicalDid, name = some logicalDid → before.serving = some logicalDid)
      (hhands : Hands before after)
  | changes (logicalDid : String) (confirmation : AuthorityConfirmationState)
      (event : TunnelEvent) (hconfirms : Confirms before logicalDid confirmation event)
      (hdetach : ∀ negative, confirmation = .negative negative →
        after.commit = some (.detach logicalDid))
      (hstate : after.state = before.state)
      (htable : after.authorityConfirmations =
        upsert logicalDid confirmation before.authorityConfirmations)
      (hlog : after.log = event :: before.log) (hhands : Hands before after)
  | ignores (logicalDid : String) (ticket : AuthorityConfirmationTicket)
      (hstale : before.isCurrent logicalDid ticket = false)
      (hstate : after.state = before.state)
      (htable : after.authorityConfirmations = before.authorityConfirmations)
      (hlog : after.log = .completed logicalDid ticket :: before.log)
      (hhands : Hands before after)

theorem hands_of_eq (hcom : after.commit = system.commit) : Hands system after where
  checked := fun _ hserv => .inl (by rwa [serving, ← hcom])
  pending := fun _ hpend => .inl (hcom.trans hpend)

/-- A section that is not a denial ends, or it is followed by one that needs no
check. -/
theorem hands_of_serving_none (hserv : after.serving = none)
    (hother : ∀ logicalDid, system.commit ≠ some (.detach logicalDid)) :
    Hands system after where
  checked := fun _ hsome => nomatch hserv.symm.trans hsome
  pending := fun _ hpend => absurd hpend (hother _)

theorem hands_of_checked (hserv : after.serving = some logicalDid)
    (hneg : system.isNegative logicalDid = false)
    (hother : ∀ logicalDid, system.commit ≠ some (.detach logicalDid)) :
    Hands system after where
  checked := by
    intro other hsome
    rw [hserv] at hsome
    cases hsome
    exact .inr hneg
  pending := fun _ hpend => absurd hpend (hother _)

theorem effect_of_eq (hstate : after.state = system.state)
    (htable : after.authorityConfirmations = system.authorityConfirmations)
    (hlog : after.log = system.log) (hhands : Hands system after) : Effect system after := by
  refine .serves none ⟨?_, htable, [], hlog, List.forall_mem_nil _⟩ nofun hhands
  rw [hstate]
  exact binds_refl

theorem serves_settle {next marked events finishing} (hnext : Binds name system.state next)
    (hevents : ∀ event ∈ events, event.confirms = false ∧
      ∀ logicalDid, event.serves = some logicalDid → name = some logicalDid) :
    Serves name system { system.settle exits next marked events with finishing } :=
  ⟨hnext, rfl, events, rfl, hevents⟩

theorem Serves.release (hserves : Serves name system after) : Serves name system after.release :=
  ⟨hserves.binds, hserves.table, hserves.events⟩

theorem name_nameBinding :
    (nameBinding naming key name).map OutboundNameBinding.logicalDid = name := by cases name <;> rfl

theorem serves_acquireOutbound (hsound : Sound naming system) :
    Serves name system (system.acquireOutbound naming key name exits) := by
  apply serves_settle
  · have hbinds := (RTcpTunnelMapState.Sound.acquire_cases hsound key
      (nameBinding naming key name) (system.views exits)).1.binds
    rwa [name_nameBinding] at hbinds
  · split
    · exact List.forall_mem_singleton.mpr ⟨rfl, fun _ hname => hname⟩
    · exact List.forall_mem_nil _

theorem serves_registerOutbound (hsound : Sound naming system) :
    Serves name system (system.registerOutbound naming tunnel name exits) := by
  apply serves_settle
  · have hbinds := (RTcpTunnelMapState.Sound.register_cases hsound
      (rfl : _ = naming.keyOf tunnel) (nameBinding naming (naming.keyOf tunnel) name)
      (system.views exits)).1.binds
    rwa [name_nameBinding] at hbinds
  · split
    · exact List.forall_mem_singleton.mpr ⟨rfl, fun _ hname => hname⟩
    · exact List.forall_mem_nil _

/-- An identity that is not a name is served as an unnamed one. -/
theorem serves_arbitrateInbound (document : Option (String × DocRevision))
    (hsound : Sound naming system) :
    Serves ((document.filter fun document => naming.isNamed document.1).map Prod.fst) system
      (system.arbitrateInbound naming tunnel document exits) := by
  apply serves_settle
  · have hbinds : Binds _ system.state
        (system.state.replaceAuthenticatedInbound (naming.keyOf tunnel) tunnel
          ((document.filter fun document => naming.isNamed document.1).map fun document =>
            ⟨document.1, naming.deviceOf (naming.keyOf tunnel), document.2⟩)
          (system.views exits)).2.1 := binds_replaceAuthenticatedInbound rfl device_identity hsound
    rw [Option.map_map] at hbinds
    exact hbinds
  · rw [List.forall_mem_singleton]
    split
    · exact ⟨rfl, fun _ hname => hname⟩
    · exact ⟨rfl, nofun⟩

theorem name_of_filter {document : Option (String × DocRevision)}
    (hname : (document.filter keep).map Prod.fst = some logicalDid) :
    document.map Prod.fst = some logicalDid := by
  obtain ⟨kept, hkept, rfl⟩ := Option.map_eq_some_iff.mp hname
  rw [(Option.filter_eq_some_iff.mp hkept).1]
  rfl

theorem effect_complete (hconf : system.isCurrent logicalDid ticket = true →
      Confirms system logicalDid confirmation (.completed logicalDid ticket))
    (hstate : after.state = system.state) (htable : after.authorityConfirmations =
      (system.complete logicalDid ticket confirmation).authorityConfirmations)
    (hlog : after.log = .completed logicalDid ticket :: system.log)
    (hdetach : system.isCurrent logicalDid ticket = true →
      ∀ negative, confirmation = .negative negative → after.commit = some (.detach logicalDid))
    (hhands : Hands system after) : Effect system after := by
  cases hcur : system.isCurrent logicalDid ticket with
  | true =>
    refine .changes logicalDid confirmation _ (hconf hcur) (hdetach hcur) hstate
      ?_ hlog hhands
    rw [htable, complete, hcur]
    rfl
  | false =>
    refine .ignores logicalDid ticket hcur hstate ?_ hlog hhands
    rw [htable, complete, hcur]
    rfl

theorem log_complete : (system.complete logicalDid ticket confirmation).log =
      .completed logicalDid ticket :: system.log := by
  unfold complete
  split <;> rfl

theorem state_complete : (system.complete logicalDid ticket confirmation).state = system.state := by
  unfold complete
  split <;> rfl

theorem commit_complete :
    (system.complete logicalDid ticket confirmation).commit = system.commit := by
  unfold complete
  split <;> rfl

theorem effect_clearNegative (hother : ∀ logicalDid, system.commit ≠ some (.detach logicalDid)) :
    Effect system (system.clearNegative logicalDid generation revision completedAt).release := by
  have hhands : ∀ after : RTcpTunnelMap, Hands system after.release := fun _ =>
    hands_of_serving_none rfl hother
  unfold clearNegative
  split
  · rename_i negative hneg
    split
    · rename_i hgeneration
      subst hgeneration
      exact .changes logicalDid _ _ (.clears hneg) nofun rfl rfl
        rfl (hhands _)
    · exact effect_of_eq rfl rfl rfl (hhands _)
  · exact effect_of_eq rfl rfl rfl (hhands _)

theorem effect_beginConfirmation {revision now maxAge} :
    Effect system (system.beginConfirmation logicalDid revision now maxAge) := by
  unfold beginConfirmation
  split
  · rename_i hstart
    refine .changes logicalDid _ _ (.begins ?_ ?_) nofun rfl rfl rfl
      (hands_of_eq rfl)
    · intro current hcur
      rw [hcur] at hstart
      cases hstart
    · unfold isNegative
      split
      · rename_i hneg
        rw [hneg] at hstart
        cases hstart
      · rfl
  · exact effect_of_eq rfl rfl rfl (hands_of_eq rfl)

theorem effect_proceed {next : CommitSection} (hsound : Sound naming system)
    (hcom : system.commit = some next) :
    Effect system (system.proceed naming exits next) := by
  by_cases hdetach : ∃ logicalDid, next = .detach logicalDid
  · obtain ⟨logicalDid, rfl⟩ := hdetach
    obtain ⟨hbinds, hunb⟩ := unbound_detach logicalDid hsound.linked
    refine .serves none ⟨hbinds, rfl, [], rfl, List.forall_mem_nil _⟩ nofun ⟨nofun, ?_⟩
    intro other hpend
    rw [hcom] at hpend
    cases hpend
    exact .inr (.inl hunb)
  -- Only a denial has a second section that must not be left early.
  have hother : ∀ logicalDid, system.commit ≠ some (.detach logicalDid) := by
    intro logicalDid hpend
    exact hdetach ⟨logicalDid, Option.some.inj (hcom.symm.trans hpend)⟩
  have hserv : system.serving = next.serves := by rw [serving, hcom]; rfl
  have hends {after : RTcpTunnelMap} (hnone : after.serving = none) : Hands system after :=
    hands_of_serving_none hnone hother
  cases next with
  | acquire key name | register tunnel name =>
    rw [proceed]
    split
    · exact effect_of_eq rfl rfl rfl (hends rfl)
    · rename_i hneg
      exact effect_of_eq rfl rfl rfl
        (hands_of_checked rfl (Bool.not_eq_true _ ▸ hneg) hother)
  | inbound tunnel name revision =>
    rw [proceed]
    split
    · exact .serves none ⟨binds_refl, rfl, [.refused tunnel], rfl,
        List.forall_mem_singleton.mpr ⟨rfl, nofun⟩⟩ nofun (hends rfl)
    · rename_i hneg
      exact effect_of_eq rfl rfl rfl
        (hands_of_checked rfl (Bool.not_eq_true _ ▸ hneg) hother)
  | acquireChecked key name =>
    exact .serves (some name) (serves_acquireOutbound hsound).release
      (fun _ hname => hserv.trans hname) (hends rfl)
  | registerChecked tunnel name =>
    exact .serves (some name) (serves_registerOutbound hsound).release
      (fun _ hname => hserv.trans hname) (hends rfl)
  | inboundChecked tunnel name revision =>
    exact .serves _ (serves_arbitrateInbound _ hsound).release
      (fun _ hname => hserv.trans (name_of_filter hname)) (hends rfl)
  | confirm name ticket completedAt =>
    rw [proceed]
    split
    · exact effect_complete .confirmed state_complete rfl log_complete nofun (hends rfl)
    · exact effect_complete .confirmed state_complete rfl log_complete nofun (hends rfl)
  | upgrade name revision => exact effect_of_eq rfl rfl rfl (hends rfl)
  | deny name ticket completedAt reason =>
    rw [proceed]
    split
    · exact effect_complete .denied state_complete rfl log_complete (fun _ _ _ => rfl) (hends rfl)
    · rename_i hstale
      exact effect_complete .denied state_complete rfl log_complete
        (fun hcur => absurd hcur hstale) (hends rfl)
  | detach name => exact absurd ⟨name, rfl⟩ hdetach
  | clear name generation revision completedAt => exact effect_clearNegative hother

theorem effect_step {move} (hsound : Sound naming system) (hstep : Step naming system move after) :
    Effect system after := by
  have hnone : ∀ logicalDid, none = some logicalDid → system.serving = some logicalDid :=
    by rintro _ ⟨⟩
  cases move with
  | exit tunnel =>
    cases hstep
    exact effect_of_eq rfl rfl rfl (hands_of_eq rfl)
  | remove tunnel =>
    cases hstep
    exact .serves none ⟨hsound.linked.pruned_drop.binds, rfl, [], rfl, List.forall_mem_nil _⟩ hnone
      (hands_of_eq rfl)
  | findConflictingBinding binding exits =>
    cases hstep
    refine .serves none (serves_settle ?_ (List.forall_mem_nil _)) hnone (hands_of_eq rfl)
    rcases hsound.linked.conflictingLogicalBinding binding (system.views exits).conflict with
      ⟨bound, hconf⟩ | ⟨removed, next, hconf, -, -, -, hpruned, -⟩
    · rw [hconf]
      exact binds_refl
    · rw [hconf]
      exact hpruned.binds
  | acquireUnnamed key exits =>
    cases hstep
    exact .serves none (serves_acquireOutbound hsound) hnone (hands_of_eq rfl)
  | registerUnnamed tunnel exits =>
    cases hstep
    exact .serves none (serves_registerOutbound hsound) hnone (hands_of_eq rfl)
  | inboundUnnamed tunnel exits =>
    cases hstep
    exact .serves none (serves_arbitrateInbound none hsound) hnone (hands_of_eq rfl)
  | finish registration =>
    obtain ⟨-, rfl⟩ : _ ∧ system.finish registration = after := by
      simpa [Step, RTcpTunnelMap.move] using hstep
    exact effect_of_eq rfl rfl rfl (hands_of_eq rfl)
  | beginConfirmation name revision now maxAge =>
    cases hstep
    exact effect_beginConfirmation
  | completeUnavailable name ticket completedAt =>
    cases hstep
    exact effect_complete .unavailable state_complete rfl log_complete
      (by rintro _ _ ⟨⟩) (hands_of_eq commit_complete)
  | enter first =>
    obtain ⟨⟨hfree, hfirst⟩, rfl⟩ :
        (system.commit = none ∧ first.isFirst = true) ∧ system.hold first = after := by
      simpa [Step, RTcpTunnelMap.move] using hstep
    refine effect_of_eq rfl rfl rfl (hands_of_serving_none ?_ ?_)
    · cases first <;> first | rfl | cases hfirst
    · intro _ hpend
      cases hfree.symm.trans hpend
  | proceed exits =>
    obtain ⟨next, hcom, rfl⟩ := Option.map_eq_some_iff.mp hstep
    exact effect_proceed hsound hcom
  | abandon =>
    have hrel := eq_release_of_abandon hstep
    subst hrel
    refine effect_of_eq rfl rfl rfl ⟨by rintro _ ⟨⟩, ?_⟩
    intro logicalDid hpend
    rw [Step, RTcpTunnelMap.move, hpend] at hstep
    exact .inr (.inr fun hrunning => by simp [hrunning] at hstep)
  | beginShutdown =>
    cases hstep
    exact .serves none ⟨⟨fun _ => .inr fun _ => rfl, by rintro _ _ ⟨⟩⟩, rfl, [], rfl,
      List.forall_mem_nil _⟩ hnone (hands_of_eq rfl)
  | finishShutdown =>
    obtain ⟨hstop, rfl⟩ := stopping_of_finishShutdown hstep
    exact .serves none ⟨⟨fun hrunning => absurd hrunning hstop,
      fun _ _ hbind => .inl hbind⟩, rfl, [], rfl, List.forall_mem_nil _⟩ hnone
      (hands_of_eq rfl)

end RTcpTunnelMap

end CyfsGateway.Rtcp
