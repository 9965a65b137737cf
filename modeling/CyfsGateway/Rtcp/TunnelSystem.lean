import CyfsGateway.Core.Transition
import CyfsGateway.Rtcp.TunnelMap

/-!
# The tunnel map under concurrent use

`RTcpTunnelMap` has three locks: the map, the commit lock and the confirmation
table.  One move is one critical section of the map or of the table.  What goes on
between the sections of an operation that keeps the commit lock is recorded as the
section the holder has reached; an operation that waits for the lock has done
nothing yet.
-/

namespace CyfsGateway.Rtcp

open Tables RTcpTunnelMapState

structure AuthorityConfirmationTicket where
  generation : Nat
  documentRevision : DocRevision
  deriving DecidableEq

structure AuthorityNegativeState where
  completedAt : Nat
  generation : Nat
  reason : String
  rejectedRevision : Option DocRevision
  deriving DecidableEq

inductive AuthorityConfirmationState
  | inFlight (ticket : AuthorityConfirmationTicket)
  | confirmed (completedAt : Nat) (documentRevision : DocRevision)
  | negative (state : AuthorityNegativeState)
  | unavailable (completedAt : Nat) (documentRevision : DocRevision)
  deriving DecidableEq

/-- `begin_authority_confirmation` starts a confirmation in this state of the
name. -/
def shouldStartConfirmation (revision : DocRevision) (now : Nat) (maxAge : Option Nat) :
    Option AuthorityConfirmationState → Bool
  | none => true
  | some (.inFlight _) => false
  | some (.negative _) => false
  | some (.confirmed completedAt confirmed) =>
    decide (confirmed ≠ revision) || maxAge.any fun age => decide (age ≤ now - completedAt)
  | some (.unavailable completedAt confirmed) =>
    decide (confirmed ≠ revision) || maxAge.any fun age => decide (age ≤ now - completedAt)

/-- How callers name things: the key a tunnel was created for, the device of a key
and the DIDs that are names. -/
structure Naming where
  keyOf : Nat → String
  deviceOf : String → String
  isNamed : String → Bool

inductive CommitSection
  | acquire (key logicalDid : String)
  | acquireChecked (key logicalDid : String)
  | register (tunnel : Nat) (logicalDid : String)
  | registerChecked (tunnel : Nat) (logicalDid : String)
  | inbound (tunnel : Nat) (logicalDid : String) (revision : DocRevision)
  | inboundChecked (tunnel : Nat) (logicalDid : String) (revision : DocRevision)
  | confirm (logicalDid : String) (ticket : AuthorityConfirmationTicket) (completedAt : Nat)
  | upgrade (logicalDid : String) (revision : DocRevision)
  | deny (logicalDid : String) (ticket : AuthorityConfirmationTicket) (completedAt : Nat)
      (reason : String)
  | detach (logicalDid : String)
  | clear (logicalDid : String) (generation : Nat) (revision : DocRevision) (completedAt : Nat)
  deriving DecidableEq

def CommitSection.isFirst : CommitSection → Bool
  | .acquireChecked .. | .registerChecked .. | .inboundChecked .. | .upgrade .. => false
  | _ => true

inductive TunnelEvent
  /-- A tunnel was handed out, for a named target or an unnamed one. -/
  | acquired (tunnel : Nat) (logicalDid : Option String)
  | registered (tunnel : Nat) (logicalDid : Option String)
  /-- An inbound tunnel was published, with the document of a named peer. -/
  | admitted (tunnel : Nat) (document : Option (String × DocRevision))
  | refused (tunnel : Nat)
  | began (logicalDid : String) (ticket : AuthorityConfirmationTicket)
  | completed (logicalDid : String) (ticket : AuthorityConfirmationTicket)
  | cleared (logicalDid : String) (generation : Nat)
  deriving DecidableEq

def TunnelEvent.handedOut : TunnelEvent → Option Nat
  | .acquired tunnel _ | .registered tunnel _ | .admitted tunnel _ => some tunnel
  | _ => none

structure RTcpTunnelMap where
  state : RTcpTunnelMapState
  /-- The tunnels whose closed flag is set. -/
  closed : List Nat
  commit : Option CommitSection
  authorityConfirmations : Table String AuthorityConfirmationState
  authorityStateGeneration : Nat
  /-- What operations reported so far, the last first. -/
  log : List TunnelEvent
  /-- The registrations of inbound tunnels whose callers have still to finish them. -/
  finishing : List InboundTunnelRegistration

inductive TunnelMove
  /-- A tunnel closes by itself. -/
  | exit (tunnel : Nat)
  /-- `remove_if_current` of a tunnel. -/
  | remove (tunnel : Nat)
  | findConflictingBinding (binding : OutboundNameBinding) (exits : Views)
  | acquireUnnamed (key : String) (exits : Views)
  | registerUnnamed (tunnel : Nat) (exits : Views)
  | inboundUnnamed (tunnel : Nat) (exits : Views)
  /-- The caller of a registration closes the tunnels that it names, outside of all locks. -/
  | finish (registration : InboundTunnelRegistration)
  | beginConfirmation (logicalDid : String) (revision : DocRevision) (now : Nat)
      (maxAge : Option Nat)
  | completeUnavailable (logicalDid : String) (ticket : AuthorityConfirmationTicket)
      (completedAt : Nat)
  | enter (first : CommitSection)
  | proceed (exits : Views)
  /-- The holder of the commit lock is cancelled while it waits.  Shutdown cancels
  the tasks that deny a name only behind `begin_shutdown`. -/
  | abandon
  | beginShutdown
  | finishShutdown

namespace RTcpTunnelMap

def new : RTcpTunnelMap := ⟨.empty, [], none, [], 1, [], []⟩

variable (naming : Naming) (exits : Views) (logicalDid : String) (system : RTcpTunnelMap)

/-- What a section finds closed, given what closes by itself before each pass. -/
def views : Views :=
  let candidate := system.closed ++ exits.candidate
  let conflict := candidate ++ exits.conflict
  let documents := conflict ++ exits.documents
  let existing := documents ++ exits.existing
  ⟨candidate, conflict, documents, existing, existing ++ exits.scan⟩

def settle (after : RTcpTunnelMapState) (marked : List Nat)
    (events : List TunnelEvent) (system : RTcpTunnelMap) : RTcpTunnelMap :=
  { system with
    state := after
    closed := (system.views exits).scan ++ marked
    log := events ++ system.log }

def release : RTcpTunnelMap := { system with commit := none }

def hold (next : CommitSection) (system : RTcpTunnelMap) : RTcpTunnelMap :=
  { system with commit := some next }

def setConfirmation (state : AuthorityConfirmationState) (system : RTcpTunnelMap) : RTcpTunnelMap :=
  { system with
    authorityConfirmations := upsert logicalDid state system.authorityConfirmations }

def report (event : TunnelEvent) (system : RTcpTunnelMap) : RTcpTunnelMap :=
  { system with log := event :: system.log }

def isNegative : Bool :=
  match system.authorityConfirmations.lookup logicalDid with
  | some (.negative _) => true
  | _ => false

def isCurrent (ticket : AuthorityConfirmationTicket) (system : RTcpTunnelMap) : Bool :=
  decide (system.authorityConfirmations.lookup logicalDid = some (.inFlight ticket))

def nameBinding (key : String) (logicalDid : Option String) :
    Option OutboundNameBinding := logicalDid.map fun logicalDid => ⟨logicalDid, naming.deviceOf key⟩

/-! ## Sections of the map -/

def acquireOutbound (key : String) (logicalDid : Option String)
    (exits : Views) (system : RTcpTunnelMap) : RTcpTunnelMap :=
  let outcome := system.state.acquireOutbound key (nameBinding naming key logicalDid)
    (system.views exits)
  system.settle exits outcome.2 [] (match outcome.1 with
      | .ok (some tunnel) => [.acquired tunnel logicalDid]
      | _ => [])

def registerOutbound (tunnel : Nat) (logicalDid : Option String)
    (exits : Views) (system : RTcpTunnelMap) : RTcpTunnelMap :=
  let key := naming.keyOf tunnel
  let outcome := system.state.registerOutboundIfAbsent key tunnel
    (nameBinding naming key logicalDid) (system.views exits)
  system.settle exits outcome.2.1 outcome.2.2 (match outcome.1 with
      | .ok () => [.registered tunnel logicalDid]
      | .error _ => [])

/-- `arbitrate_authenticated_inbound` of an accepted document: an identity that is
not a name is not indexed. -/
def arbitrateInbound (tunnel : Nat)
    (document : Option (String × DocRevision)) (exits : Views) (system : RTcpTunnelMap) :
    RTcpTunnelMap :=
  let key := naming.keyOf tunnel
  let indexed := document.filter fun document => naming.isNamed document.1
  let identity := indexed.map fun document =>
    (⟨document.1, naming.deviceOf key, document.2⟩ : VerifiedTunnelIdentity)
  let outcome := system.state.replaceAuthenticatedInbound key tunnel identity (system.views exits)
  { system.settle exits outcome.2.1 outcome.2.2
      [if outcome.1.accepted then .admitted tunnel indexed else .refused tunnel] with
    finishing := outcome.1 :: system.finishing }

def detach : RTcpTunnelMap :=
  let outcome := system.state.detachVerifiedIdentityInstances logicalDid
  { system with state := outcome.1, closed := system.closed ++ outcome.2 }

def beginConfirmation (revision : DocRevision) (now : Nat)
    (maxAge : Option Nat) (system : RTcpTunnelMap) : RTcpTunnelMap :=
  if shouldStartConfirmation revision now maxAge
      (system.authorityConfirmations.lookup logicalDid) then
    let ticket : AuthorityConfirmationTicket := ⟨system.authorityStateGeneration, revision⟩
    let started := (system.setConfirmation logicalDid (.inFlight ticket)).report
      (.began logicalDid ticket)
    { started with authorityStateGeneration := system.authorityStateGeneration + 1 }
  else system

/-- A completion takes effect only with the ticket in flight. -/
def complete (ticket : AuthorityConfirmationTicket)
    (state : AuthorityConfirmationState) (system : RTcpTunnelMap) : RTcpTunnelMap :=
  (if system.isCurrent logicalDid ticket then system.setConfirmation logicalDid state
    else system).report (.completed logicalDid ticket)

def clearNegative (generation : Nat) (revision : DocRevision)
    (completedAt : Nat) (system : RTcpTunnelMap) : RTcpTunnelMap :=
  match system.authorityConfirmations.lookup logicalDid with
  | some (.negative negative) =>
    if negative.generation = generation then
      (system.setConfirmation logicalDid (.confirmed completedAt revision)).report
        (.cleared logicalDid generation)
    else system
  | _ => system

/-- `mark_tunnels_closed` and `finish_authenticated_registration`. -/
def finish (registration : InboundTunnelRegistration) (system : RTcpTunnelMap) : RTcpTunnelMap :=
  { system with
    closed := registration.tunnels ++ system.closed
    finishing := system.finishing.erase registration }

/-- The next section of the holder of the commit lock.  A denied candidate is closed at once. -/
def proceed : CommitSection → RTcpTunnelMap
  | .acquire key logicalDid =>
    if system.isNegative logicalDid then system.release
    else system.hold (.acquireChecked key logicalDid)
  | .acquireChecked key logicalDid =>
    (system.acquireOutbound naming key (some logicalDid) exits).release
  | .register tunnel logicalDid =>
    if system.isNegative logicalDid then system.release
    else system.hold (.registerChecked tunnel logicalDid)
  | .registerChecked tunnel logicalDid =>
    (system.registerOutbound naming tunnel (some logicalDid) exits).release
  | .inbound tunnel logicalDid revision =>
    if system.isNegative logicalDid then
      { (system.release.report (.refused tunnel)) with closed := tunnel :: system.closed }
    else system.hold (.inboundChecked tunnel logicalDid revision)
  | .inboundChecked tunnel logicalDid revision =>
    (system.arbitrateInbound naming tunnel (some (logicalDid, revision)) exits).release
  | .confirm logicalDid ticket completedAt =>
    let confirmed := system.complete logicalDid ticket
      (.confirmed completedAt ticket.documentRevision)
    if system.isCurrent logicalDid ticket then
      confirmed.hold (.upgrade logicalDid ticket.documentRevision)
    else confirmed.release
  | .upgrade _ _ => system.release
  | .deny logicalDid ticket completedAt reason =>
    let denied := system.complete logicalDid ticket (.negative
      ⟨completedAt, ticket.generation, reason, some ticket.documentRevision⟩)
    if system.isCurrent logicalDid ticket then denied.hold (.detach logicalDid)
    else denied.release
  | .detach logicalDid => (system.detach logicalDid).release
  | .clear logicalDid generation revision completedAt =>
    (system.clearNegative logicalDid generation revision completedAt).release

def move : TunnelMove → Option RTcpTunnelMap
  | .exit tunnel => some { system with closed := tunnel :: system.closed }
  | .remove tunnel =>
    some { system with state := system.state.removeIfCurrent (naming.keyOf tunnel) tunnel }
  | .findConflictingBinding binding exits =>
    some (system.settle exits (system.state.conflictingLogicalBinding binding
      (system.views exits).conflict).2 [] [])
  | .acquireUnnamed key exits => some (system.acquireOutbound naming key none exits)
  | .registerUnnamed tunnel exits => some (system.registerOutbound naming tunnel none exits)
  | .inboundUnnamed tunnel exits => some (system.arbitrateInbound naming tunnel none exits)
  | .finish registration =>
    if registration ∈ system.finishing then some (system.finish registration) else none
  | .beginConfirmation logicalDid revision now maxAge =>
    some (system.beginConfirmation logicalDid revision now maxAge)
  | .completeUnavailable logicalDid ticket completedAt =>
    some (system.complete logicalDid ticket (.unavailable completedAt ticket.documentRevision))
  | .enter first =>
    if system.commit = none ∧ first.isFirst then some (system.hold first) else none
  | .proceed exits => system.commit.map fun section_ => system.proceed naming exits section_
  | .abandon =>
    match system.commit with
    | none => none
    | some (.detach _) =>
      if system.state.lifecycle = .running then none else some system.release
    | some _ => some system.release
  | .beginShutdown =>
    let outcome := system.state.beginShutdown
    some { system with state := outcome.1, closed := system.closed ++ outcome.2 }
  | .finishShutdown =>
    if system.state.lifecycle = .running then none
    else some { system with state := system.state.finishShutdown }

def Step (before : RTcpTunnelMap) (move : TunnelMove)
    (after : RTcpTunnelMap) : Prop := before.move naming move = some after

/-! ## What a step can do -/

/-- What a registration is about: the candidate and the document of a named peer. -/
structure Candidate where
  tunnel : Nat
  document : Option (String × DocRevision)
  exits : Views

def candidate : TunnelMove → Option Candidate
  | .registerUnnamed tunnel exits => some ⟨tunnel, none, exits⟩
  | .inboundUnnamed tunnel exits => some ⟨tunnel, none, exits⟩
  | .proceed exits =>
    match system.commit with
    | some (.registerChecked tunnel _) => some ⟨tunnel, none, exits⟩
    | some (.inboundChecked tunnel logicalDid revision) =>
      some ⟨tunnel, some (logicalDid, revision), exits⟩
    | _ => none
  | _ => none

/-- What a step does to the map and the closed flags, and what it reports: one
section of the map, of the candidate if it registers one, or none. -/
inductive Turn (naming : Naming) (system : RTcpTunnelMap) :
    TunnelMove → Option Candidate → RTcpTunnelMap → Prop
  | rests {move closed commit table generation finishing} (events : List TunnelEvent)
      (hclosed : system.closed ⊆ closed) (hquiet : ∀ event ∈ events, event.handedOut = none)
      (hfinishing : ∀ registration ∈ system.finishing,
        registration ∈ finishing ∨ registration.tunnels ⊆ closed) :
      Turn naming system move none
        ⟨system.state, closed, commit, table, generation, events ++ system.log, finishing⟩
  | removes {tunnel} : Turn naming system (.remove tunnel) none
        { system with state := system.state.removeIfCurrent (naming.keyOf tunnel) tunnel }
  | finds {move binding exits} :
      Turn naming system move none (system.settle exits (system.state.conflictingLogicalBinding
        binding (system.views exits).conflict).2 [] [])
  | acquires {move key name exits commit} : Turn naming system move none
        { system.acquireOutbound naming key name exits with commit }
  | registers {move tunnel name exits commit} : Turn naming system move (some ⟨tunnel, none, exits⟩)
        { system.registerOutbound naming tunnel name exits with commit }
  | arbitrates {move tunnel document exits commit} :
      Turn naming system move (some ⟨tunnel, document, exits⟩)
        { system.arbitrateInbound naming tunnel document exits with commit }
  | detaches {move logicalDid commit} :
      Turn naming system move none { system.detach logicalDid with commit }
  | begins : Turn naming system .beginShutdown none
      { system with
        state := system.state.beginShutdown.1
        closed := system.closed ++ system.state.beginShutdown.2 }
  | finishes (hstopping : system.state.lifecycle ≠ .running) :
      Turn naming system .finishShutdown none { system with state := system.state.finishShutdown }

variable {naming : Naming} {system after : RTcpTunnelMap} {move : TunnelMove} {exits : Views}

theorem eq_release_of_abandon (hstep : Step naming system .abandon after) :
    after = system.release := by
  rw [Step, RTcpTunnelMap.move] at hstep
  split at hstep
  · cases hstep
  · split at hstep <;> cases hstep
    rfl
  · cases hstep
    rfl

theorem stopping_of_finishShutdown (hstep : Step naming system .finishShutdown after) :
    system.state.lifecycle ≠ .running ∧
      after = { system with state := system.state.finishShutdown } := by
  obtain ⟨hstop, hstep⟩ := Option.ite_none_left_eq_some.mp hstep
  cases hstep
  exact ⟨hstop, rfl⟩

variable {table : Table String AuthorityConfirmationState} {generation : Nat}
  {commit : Option CommitSection}

theorem turn_same {move} :
    Turn naming system move none ⟨system.state, system.closed, commit, table, generation,
      system.log, system.finishing⟩ := .rests [] (List.Subset.refl _) nofun fun _ => .inl

theorem turn_reports (hquiet : event.handedOut = none) :
    Turn naming system move none ⟨system.state, system.closed, commit, table, generation,
      event :: system.log, system.finishing⟩ :=
  .rests [event] (List.Subset.refl _) (List.forall_mem_singleton.mpr hquiet) fun _ => .inl

theorem turn_closes (events : List TunnelEvent)
    (hquiet : ∀ event ∈ events, event.handedOut = none) :
    Turn naming system move none ⟨system.state, tunnel :: system.closed, commit, table, generation,
      events ++ system.log, system.finishing⟩ :=
  .rests events (List.subset_cons_self ..) hquiet fun _ => .inl

theorem turn_proceed (hcom : system.commit = some next) :
    Turn naming system (.proceed exits) (system.candidate (.proceed exits))
      (system.proceed naming exits next) := by
  simp only [candidate, hcom]
  cases next with
  | acquire key name | register tunnel name =>
    dsimp only [proceed]
    split <;> exact turn_same
  | acquireChecked key name => exact .acquires
  | registerChecked tunnel name => exact .registers
  | inbound tunnel name revision =>
    dsimp only [proceed]
    split
    · exact turn_closes [.refused tunnel] (List.forall_mem_singleton.mpr rfl)
    · exact turn_same
  | inboundChecked tunnel name revision => exact .arbitrates
  | confirm name ticket completedAt | deny name ticket completedAt reason =>
    dsimp only [proceed, complete]
    split <;> exact turn_reports rfl
  | upgrade name revision => exact turn_same
  | detach name => exact .detaches
  | clear name generation revision completedAt =>
    dsimp only [proceed, clearNegative]
    split
    · split
      · exact turn_reports rfl
      · exact turn_same
    · exact turn_same

theorem turn_step (hstep : Step naming system move after) :
    Turn naming system move (system.candidate move) after := by
  cases move with
  | exit tunnel =>
    cases hstep
    exact turn_closes [] nofun
  | remove tunnel =>
    cases hstep
    exact .removes
  | findConflictingBinding binding exits =>
    cases hstep
    exact .finds
  | acquireUnnamed key exits =>
    cases hstep
    exact .acquires
  | registerUnnamed tunnel exits =>
    cases hstep
    exact .registers
  | inboundUnnamed tunnel exits =>
    cases hstep
    exact .arbitrates
  | finish registration =>
    obtain ⟨-, rfl⟩ : _ ∧ system.finish registration = after := by
      simpa [Step, RTcpTunnelMap.move] using hstep
    refine .rests [] (List.subset_append_right ..) nofun fun other hother => ?_
    by_cases hsame : other = registration
    · exact .inr (hsame ▸ List.subset_append_left ..)
    · exact .inl ((List.mem_erase_of_ne hsame).mpr hother)
  | beginConfirmation name revision now maxAge =>
    cases hstep
    unfold beginConfirmation
    split
    · exact turn_reports rfl
    · exact turn_same
  | completeUnavailable name ticket completedAt =>
    cases hstep
    unfold complete
    split <;> exact turn_reports rfl
  | enter first =>
    obtain ⟨-, rfl⟩ : _ ∧ system.hold first = after := by
      simpa [Step, RTcpTunnelMap.move] using hstep
    exact turn_same
  | proceed exits =>
    obtain ⟨next, hcom, rfl⟩ := Option.map_eq_some_iff.mp hstep
    exact turn_proceed hcom
  | abandon =>
    rw [eq_release_of_abandon hstep]
    exact turn_same
  | beginShutdown =>
    cases hstep
    exact .begins
  | finishShutdown =>
    obtain ⟨hstop, rfl⟩ := stopping_of_finishShutdown hstep
    exact .finishes hstop

end RTcpTunnelMap

end CyfsGateway.Rtcp
