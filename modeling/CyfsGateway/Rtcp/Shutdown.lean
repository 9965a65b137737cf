import CyfsGateway.Rtcp.TunnelPlaces

/-!
# Shutdown of the tunnel map

`begin_shutdown` drains the map under its lock and closes what it finds.  The other
sections read the lifecycle under the same lock, so none of them publishes or hands
out a tunnel behind it.
-/

namespace CyfsGateway.Rtcp

open Tables Transition RTcpTunnelMapState

namespace RTcpTunnelMapState

variable {state : RTcpTunnelMapState} {key : String} {tunnel : Nat}

/-- All indexes are empty, and the map does not run any more. -/
structure Drained (state : RTcpTunnelMapState) : Prop where
  stopping : state.lifecycle ≠ .running
  tunnels : state.tunnels = []
  documents : state.verifiedByLogicalDid = []
  instances : state.bindingByInstance = []
  devices : state.bindingByCanonicalDev = []

theorem drained_beginShutdown : state.beginShutdown.1.Drained := by
  refine ⟨?_, rfl, rfl, rfl, rfl⟩
  unfold beginShutdown
  split
  · rintro ⟨⟩
  · assumption

section Kept

variable (hdrained : state.Drained)

include hdrained

theorem Drained.drop : state.drop key tunnel = state := by
  simp [RTcpTunnelMapState.drop, removePrimaryIfInstance, removeInstanceBinding,
    hdrained.tunnels, hdrained.instances]

theorem Drained.conflictingLogicalBinding (binding : OutboundNameBinding) :
    state.conflictingLogicalBinding binding closed = (none, state) := by
  simp [RTcpTunnelMapState.conflictingLogicalBinding, hdrained.devices]

theorem Drained.acquireOutbound : state.acquireOutbound key name views = (.error .stopped, state) :=
  if_pos hdrained.stopping

theorem Drained.registerOutboundIfAbsent :
    state.registerOutboundIfAbsent key tunnel name views = (.error .stopped, state, [tunnel]) :=
  if_pos hdrained.stopping

theorem Drained.replaceAuthenticatedInbound :
    state.replaceAuthenticatedInbound key tunnel identity views =
      (.reject tunnel "RTCP stack is stopping or stopped", state, [tunnel]) :=
  if_pos hdrained.stopping

theorem Drained.detach (logicalDid : String) :
    state.detachVerifiedIdentityInstances logicalDid = (state, []) := by
  simp [detachVerifiedIdentityInstances, hdrained.instances, rows]

end Kept

/-- A candidate that is accepted is published, and every tunnel stays in its place,
is found closed or is marked closed. -/
theorem places_replaceAuthenticatedInbound (key : String) (views : Views)
    (hsound : state.Sound naming closed) (hviews : Ascending closed views)
    (hkey : key = naming.keyOf tunnel)
    (hname : ∀ named ∈ identity, named.canonicalDevDid = naming.deviceOf key) :
    ((state.replaceAuthenticatedInbound key tunnel identity views).1.accepted = true →
        (state.replaceAuthenticatedInbound key tunnel identity views).2.1.tunnels.lookup key =
          some tunnel) ∧
      ∀ place found, state.tunnels.lookup place = some found →
        (state.replaceAuthenticatedInbound key tunnel identity views).2.1.tunnels.lookup
          place = some found ∨ found ∈ views.scan ∨
          found ∈ (state.replaceAuthenticatedInbound key tunnel identity views).2.2 := by
  rcases hsound.replace_cases key tunnel identity views with
    href | ⟨after, hclear, hpub⟩
  · refine ⟨fun hacc => ?_, fun place found hplace => ?_⟩
    · obtain ⟨reason, hreject⟩ := href.refused
      rw [hreject] at hacc
      cases hacc
    · refine (href.places place found hplace).imp_right fun hown => .inl ?_
      exact hviews.scan (hviews.existing (hviews.documents (hviews.conflict hown.2)))
  · obtain ⟨hown, hplaces⟩ :=
      places_publishInbound views hclear.sound.linked hkey hname hclear.free
    rw [hpub, ← hclear.tunnels]
    exact ⟨fun _ => hown, hplaces⟩

end RTcpTunnelMapState

namespace RTcpTunnelMap

variable {naming : Naming} {system after : RTcpTunnelMap} {tunnel : Nat} {key : String}
  {exits : Views}

/-! ## Tunnels that were handed out -/

/-- The tunnel stands in the map or is closed. -/
def Held (tunnel : Nat) (system : RTcpTunnelMap) : Prop :=
  (∃ key, system.state.tunnels.lookup key = some tunnel) ∨ tunnel ∈ system.closed

/-- No tunnel that stood in the map gets lost, and what is handed out to a caller stands
in it, so a shutdown that closes what stands there misses nothing. -/
structure Keeps (before after : RTcpTunnelMap) : Prop where
  held : ∀ tunnel, before.Held tunnel → after.Held tunnel
  handed : ∃ events, after.log = events ++ before.log ∧
    ∀ event ∈ events, ∀ tunnel, event.handedOut = some tunnel → after.Held tunnel

variable {commit : Option CommitSection} {finishing : List InboundTunnelRegistration}

theorem keeps_settle {next marked events}
    (hplaces : ∀ place found, system.state.tunnels.lookup place = some found →
      next.tunnels.lookup place = some found ∨ found ∈ (system.views exits).scan ∨
        found ∈ marked) (hevents : ∀ event ∈ events, ∀ tunnel, event.handedOut = some tunnel →
      ∃ key, next.tunnels.lookup key = some tunnel) :
    Keeps system { system.settle exits next marked events with commit, finishing } := by
  refine ⟨?_, events, rfl, fun event hevent tunnel hhanded =>
    .inl (hevents event hevent tunnel hhanded)⟩
  rintro tunnel (⟨key, hplace⟩ | hclosed)
  · rcases hplaces key tunnel hplace with hstays | hgone
    · exact .inl ⟨key, hstays⟩
    · exact .inr (List.mem_append.mpr hgone)
  · exact .inr (List.mem_append_left _ (ascending_views.all hclosed))

/-- The steps before shutdown: `run`, the rollback guard and the other callers of
`remove_if_current` close the tunnel first.  Only a task that shutdown kept from
starting removes an open one. -/
def OrderlyStep (naming : Naming) (before : RTcpTunnelMap) (move : TunnelMove)
    (after : RTcpTunnelMap) : Prop :=
  Step naming before move after ∧ ∀ tunnel, move = .remove tunnel → tunnel ∈ before.closed

theorem keeps_acquireOutbound {name} (hsound : Sound naming system) :
    Keeps system { system.acquireOutbound naming key name exits with commit } := by
  obtain ⟨hout, hown⟩ := RTcpTunnelMapState.Sound.acquire_cases hsound key
    (nameBinding naming key name) (system.views exits)
  apply keeps_settle
  · exact fun place found hplace =>
      (hout.places hplace).imp_right fun hclosed => .inl (ascending_views.scan hclosed)
  split
  · rename_i found hfound
    intro event hevent tunnel hhanded
    cases List.mem_singleton.mp hevent
    cases hhanded
    exact ⟨key, hown _ hfound⟩
  · rintro _ ⟨⟩

theorem keeps_registerOutbound {name} (hsound : Sound naming system) :
    Keeps system { system.registerOutbound naming tunnel name exits with commit } := by
  obtain ⟨hout, -, hown⟩ := RTcpTunnelMapState.Sound.register_cases hsound rfl
    (nameBinding naming (naming.keyOf tunnel) name) (system.views exits)
  apply keeps_settle
  · exact fun place found hplace =>
      (hout.places hplace).imp_right fun hclosed => .inl (ascending_views.scan hclosed)
  split
  · rename_i hok
    intro event hevent other hhanded
    cases List.mem_singleton.mp hevent
    cases hhanded
    exact ⟨_, hown hok⟩
  · rintro _ ⟨⟩

theorem keeps_arbitrateInbound {document} (hsound : Sound naming system) :
    Keeps system
      { system.arbitrateInbound naming tunnel document exits with commit } := by
  obtain ⟨hown, hplaces⟩ := places_replaceAuthenticatedInbound
    (naming.keyOf tunnel) (system.views exits) hsound ascending_views rfl device_identity
  apply keeps_settle hplaces
  intro event hevent other hhanded
  rw [List.mem_singleton] at hevent
  split at hevent
  · rename_i hacc
    subst hevent
    cases hhanded
    exact ⟨_, hown hacc⟩
  · subst hevent
    cases hhanded

theorem keeps_step {move} (hstep : OrderlyStep naming system move after)
    (hsound : Sound naming system) : Keeps system after := by
  have hturn := turn_step hstep.1
  generalize system.candidate move = registering at hturn
  cases hturn with
  | rests events hclosed hquiet =>
    refine ⟨fun tunnel hheld => hheld.imp_right (hclosed ·), events, rfl,
      fun event hevent tunnel hhanded => ?_⟩
    cases (hquiet event hevent).symm.trans hhanded
  | @removes removed =>
    refine ⟨fun tunnel hheld => ?_, [], rfl, nofun⟩
    rcases hheld with ⟨key, hplace⟩ | hclosed
    · by_cases hsame : tunnel = removed
      · exact .inr (hsame ▸ hstep.2 removed rfl)
      · exact .inl ⟨key, tunnels_drop_of_ne hplace hsame⟩
    · exact .inr hclosed
  | @finds _ binding exits =>
    refine keeps_settle (fun place found hplace => .inl ?_) nofun
    rcases hsound.linked.conflictingLogicalBinding binding (system.views exits).conflict with
      ⟨bound, hconf⟩ | ⟨removed, next, hconf, -, -, htuns, -, -⟩
    · rw [hconf]
      exact hplace
    · rw [hconf, htuns]
      exact hplace
  | acquires => exact keeps_acquireOutbound hsound
  | registers => exact keeps_registerOutbound hsound
  | arbitrates => exact keeps_arbitrateInbound hsound
  | detaches =>
    obtain ⟨-, -, hplaces⟩ := hsound.linked.dropAll
    refine ⟨fun tunnel hheld => ?_, [], rfl, nofun⟩
    rcases hheld with ⟨key, hplace⟩ | hclosed
    · exact (em _).elim (fun hbound => .inr (List.mem_append_right _ hbound)) fun hother =>
        .inl ⟨key, hplaces key tunnel hplace hother⟩
    · exact .inr (List.mem_append_left _ hclosed)
  | begins =>
    refine ⟨fun tunnel hheld => .inr ?_, [], rfl, nofun⟩
    rcases hheld with ⟨key, hplace⟩ | hclosed
    · exact List.mem_append_right _ (List.mem_map.mpr ⟨_, mem_rows_iff.mpr hplace, rfl⟩)
    · exact List.mem_append_left _ hclosed
  | finishes hstop => exact ⟨fun _ hheld => hheld, [], rfl, nofun⟩

/-! ## Behind `begin_shutdown` -/

def handouts (log : List TunnelEvent) : List Nat := log.filterMap TunnelEvent.handedOut

/-- Behind the shutdown a step leaves the indexes empty and hands out nothing, and
it closes the tunnel it was to register. -/
theorem drained_step {move} (hdrained : system.state.Drained)
    (hstep : Step naming system move after) :
    after.state.Drained ∧ handouts after.log = handouts system.log ∧
      ∀ registering, system.candidate move = some registering →
        registering.tunnel ∈ after.closed := by
  have hturn := turn_step hstep
  generalize system.candidate move = candidate at hturn
  cases hturn with
  | rests events hclosed hquiet =>
    refine ⟨hdrained, ?_, nofun⟩
    rw [handouts, List.filterMap_append, List.filterMap_eq_nil_iff.mpr hquiet]
    rfl
  | removes =>
    refine ⟨?_, rfl, nofun⟩
    rw [removeIfCurrent, hdrained.drop]
    exact hdrained
  | finds =>
    refine ⟨?_, rfl, nofun⟩
    rw [settle, hdrained.conflictingLogicalBinding]
    exact hdrained
  | acquires =>
    simp only [acquireOutbound, settle, hdrained.acquireOutbound]
    exact ⟨hdrained, rfl, nofun⟩
  | registers =>
    simp only [registerOutbound, settle, hdrained.registerOutboundIfAbsent]
    exact ⟨hdrained, rfl, by rintro _ ⟨⟩; simp⟩
  | arbitrates =>
    simp only [arbitrateInbound, settle, hdrained.replaceAuthenticatedInbound]
    exact ⟨hdrained, rfl, by rintro _ ⟨⟩; simp⟩
  | detaches =>
    refine ⟨?_, rfl, nofun⟩
    rw [detach, hdrained.detach]
    exact hdrained
  | begins => exact ⟨drained_beginShutdown, rfl, nofun⟩
  | finishes hstop =>
    exact ⟨⟨nofun, hdrained.tunnels, hdrained.documents, hdrained.instances,
      hdrained.devices⟩, rfl, nofun⟩

theorem held_run {moves} (hrun : Trace (OrderlyStep naming) new moves system) :
    Sound naming system ∧ ∀ tunnel ∈ handouts system.log, system.Held tunnel := by
  apply hrun.preserves fun system =>
    Sound naming system ∧ ∀ tunnel ∈ handouts system.log, system.Held tunnel
  · rintro _ _ before next hstep ⟨hsound, hheld⟩
    have hkeeps := keeps_step hstep hsound
    refine ⟨sound_step hstep.1 hsound, fun tunnel htunnel => ?_⟩
    obtain ⟨events, hlog, hhanded⟩ := hkeeps.handed
    rw [hlog, handouts, List.filterMap_append, List.mem_append] at htunnel
    rcases htunnel with hnew | hold
    · obtain ⟨event, hevent, hout⟩ := List.mem_filterMap.mp hnew
      exact hhanded event hevent tunnel hout
    · exact hkeeps.held tunnel (hheld tunnel hold)
  · exact ⟨sound_new, nofun⟩

/-- `begin_shutdown` is a point in every run: what was published or handed out
before it is closed behind it, and from then on the indexes stay empty, nothing is
handed out, and a candidate is closed by the registration that is refused. -/
theorem shutdown_closes {moves later : List TunnelMove} {begun last : RTcpTunnelMap}
    (hrun : Trace (OrderlyStep naming) new moves system)
    (hbegin : Step naming system .beginShutdown begun)
    (hlater : Trace (Step naming) begun later last) :
    (∀ tunnel ∈ handouts last.log, tunnel ∈ begun.closed) ∧ last.state.Drained ∧
      handouts last.log = handouts system.log ∧
      ∀ move next, Step naming last move next →
        next.state.Drained ∧ handouts next.log = handouts last.log ∧
          ∀ registering, last.candidate move = some registering →
            registering.tunnel ∈ next.closed := by
  obtain ⟨hsound, hheld⟩ := held_run hrun
  have hkeeps := keeps_step ⟨hbegin, nofun⟩ hsound
  cases hbegin
  obtain ⟨hdrained, hlog⟩ := hlater.preserves
    (fun state => state.state.Drained ∧ handouts state.log = handouts system.log)
    (fun _ _ _ _ hstep hbefore => by
      obtain ⟨hafter, hsame, -⟩ := drained_step hbefore.1 hstep
      exact ⟨hafter, hsame.trans hbefore.2⟩)
    ⟨drained_beginShutdown, rfl⟩
  refine ⟨fun tunnel htunnel => ?_, hdrained, hlog, fun _ _ hstep => drained_step hdrained hstep⟩
  rw [hlog] at htunnel
  rcases hkeeps.held tunnel (hheld tunnel htunnel) with ⟨_, ⟨⟩⟩ | hclosed
  exact hclosed

/-- A tunnel of `alice` is published; another one is checked before the shutdown
and refused behind it. -/
theorem shutdown_closes_alice : ∃ system last, runs (move twoDevices) new (aliceInbound 1 10 ++
        [.enter (.inbound 2 "alice" ⟨20, ""⟩), .proceed quiet]) = some system ∧
      runs (move twoDevices) system [.beginShutdown, .proceed quiet] = some last ∧
      handouts last.log = [1] ∧ last.closed = [1, 2] ∧ last.state.Drained := by
  have hrun : ((runs (move twoDevices) new (aliceInbound 1 10 ++
      [.enter (.inbound 2 "alice" ⟨20, ""⟩), .proceed quiet])).bind fun system =>
        (runs (move twoDevices) system [.beginShutdown, .proceed quiet]).map fun last =>
          (handouts last.log, last.closed)) = some ([1], [1, 2]) := by decide +kernel
  obtain ⟨system, hsystem, hrest⟩ := Option.bind_eq_some_iff.mp hrun
  obtain ⟨last, hlast, hparts⟩ := Option.map_eq_some_iff.mp hrest
  obtain ⟨hhanded, hclosed⟩ := Prod.mk.inj hparts
  obtain ⟨begun, hbegin, hlater⟩ := trace_cons_iff.mp (trace_runs hlast)
  have hord : Trace (OrderlyStep twoDevices) new _ system :=
    (trace_runs hsystem).mono fun label hlabel before after hstep =>
      ⟨hstep, by rintro _ rfl; simp [aliceInbound] at hlabel⟩
  exact ⟨system, last, hsystem, hlast, hhanded, hclosed,
    (shutdown_closes hord hbegin hlater).2.1⟩

end RTcpTunnelMap

end CyfsGateway.Rtcp
