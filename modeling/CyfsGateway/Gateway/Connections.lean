import CyfsGateway.Core.Tables
import CyfsGateway.Core.Transition

/-!
# The connection manager

Every stack hands its connections to one table, keyed by the printed source and
destination.  Revoking reads that table, so it reaches a connection only as long
as no later one has taken its key.
-/

namespace CyfsGateway.Gateway

open Tables Transition

inductive StackProtocol
  | tcp
  | udp
  | quic
  | rtcp
  | tls
  | extension (name : String)
  deriving DecidableEq

structure ConnectionInfo where
  source : String
  destination : String
  protocol : StackProtocol
  peerDeviceId : Option String
  destPort : Option UInt16

namespace ConnectionInfo

def new (source destination : String) (protocol : StackProtocol) : ConnectionInfo :=
  ⟨source, destination, protocol, none, none⟩

def withStreamTarget (info : ConnectionInfo) (peerDeviceId : Option String)
    (destPort : UInt16) : ConnectionInfo := { info with peerDeviceId, destPort := some destPort }

def connectionId (info : ConnectionInfo) : String := info.source ++ " -> " ++ info.destination

def losesAccess (destPort : UInt16) (keep : List String) (info : ConnectionInfo) : Bool :=
  info.protocol = .rtcp && info.destPort = some destPort &&
    !info.peerDeviceId.any fun peer => peer ∈ keep

end ConnectionInfo

/-- What a stack brings to the manager: the RTCP stack a stream or a datagram session
of a peer, every other stack a connection of its own protocol. -/
inductive Arrival
  | onNewStream (remoteAddr localAddr peer : String) (destPort : UInt16)
  | onNewDatagram (remoteAddr localAddr peer : String) (destPort : UInt16)
  | other (source destination : String) (protocol : StackProtocol)
  deriving DecidableEq

/-- A connection that was added; the number stands for its pointer. -/
structure Connection where
  number : Nat
  arrival : Arrival
  deriving DecidableEq

namespace Connection

def info (connection : Connection) : ConnectionInfo :=
  match connection.arrival with
  | .onNewStream remoteAddr localAddr peer destPort =>
    (ConnectionInfo.new remoteAddr localAddr .rtcp).withStreamTarget (some peer) destPort
  -- The session's peer and port are known here too, but only streams are tagged.
  | .onNewDatagram remoteAddr localAddr _ _ => .new remoteAddr localAddr .rtcp
  | .other source destination protocol => .new source destination protocol

def IsStream (connection : Connection) : Prop :=
  ∃ remoteAddr localAddr peer destPort,
    connection.arrival = .onNewStream remoteAddr localAddr peer destPort

/-- An RTCP stream or datagram session to a port, from a peer that may not keep it. -/
def Revoked (destPort : UInt16) (keep : List String) (connection : Connection) : Prop :=
  ∃ remoteAddr localAddr, ∃ peer ∉ keep,
    connection.arrival = .onNewStream remoteAddr localAddr peer destPort ∨
      connection.arrival = .onNewDatagram remoteAddr localAddr peer destPort

theorem losesAccess_iff {connection : Connection} : connection.info.losesAccess destPort keep ↔
      connection.Revoked destPort keep ∧ connection.IsStream := by
  obtain ⟨number, arrival⟩ := connection
  cases arrival <;>
    simp [ConnectionInfo.losesAccess, info, Revoked, IsStream, ConnectionInfo.new,
      ConnectionInfo.withStreamTarget, and_comm]

end Connection

/-- The manager, every connection that was added to it, the newest first, and what
became of them. -/
structure ConnectionManager where
  connections : Table String Connection
  added : List Connection
  ended : List Connection
  stopped : List Connection

namespace ConnectionManager

def new : ConnectionManager := ⟨[], [], [], []⟩

variable (manager : ConnectionManager)

def addConnection (arrival : Arrival) : ConnectionManager :=
  let connection : Connection := ⟨manager.added.length, arrival⟩
  { manager with
    connections := upsert connection.info.connectionId connection manager.connections
    added := connection :: manager.added }

def values : List Connection :=
  (rows manager.connections).map Prod.snd

/-- The selection is made under the lock and stopped from a copy, so nothing that
happens in between changes what is stopped. -/
def stopConnectionsWhere (pred : ConnectionInfo → Bool) : ConnectionManager × Nat :=
  let selected := manager.values.filter fun connection => pred connection.info
  ({ manager with stopped := selected ++ manager.stopped }, selected.length)

def stopAllConnections : ConnectionManager :=
  { manager with stopped := manager.values ++ manager.stopped }

def closeConnections (destPort : UInt16) (keep : List String) : ConnectionManager × Nat :=
  manager.stopConnectionsWhere (ConnectionInfo.losesAccess destPort keep)

/-- The task that waits for a connection removes its entry, unless a later connection
has taken the key. -/
def remove (connection : Connection) : ConnectionManager :=
  let id := connection.info.connectionId
  if manager.connections.lookup id = some connection then
    { manager with connections := deleteWhere (fun key => decide (key = id)) manager.connections }
  else manager

inductive Event
  | addConnection (arrival : Arrival)
  /-- A connection ends on its own. -/
  | finish (connection : Connection)
  /-- The task that waits for a connection sees that it ended or was stopped. -/
  | wake (connection : Connection)
  | stopConnectionsWhere (pred : ConnectionInfo → Bool)
  | stopAllConnections

def move : Event → Option ConnectionManager
  | .addConnection arrival => some (manager.addConnection arrival)
  | .finish connection =>
    if connection ∈ manager.added then
      some { manager with ended := connection :: manager.ended }
    else none
  | .wake connection =>
    if connection ∈ manager.ended ++ manager.stopped then some (manager.remove connection)
    else none
  | .stopConnectionsWhere pred => some (manager.stopConnectionsWhere pred).1
  | .stopAllConnections => some manager.stopAllConnections

abbrev Step (event : Event) (after : ConnectionManager) : Prop :=
  manager.move event = some after

def Live (connection : Connection) : Prop :=
  connection ∈ manager.added ∧ connection ∉ manager.ended ++ manager.stopped

def latest (id : String) : Option Connection :=
  manager.added.find? fun connection => connection.info.connectionId = id

/-- No later connection came with the same source and destination. -/
def Latest (connection : Connection) : Prop :=
  manager.latest connection.info.connectionId = some connection

/-- The table holds the latest connection of every id until it is over.  An earlier
connection of the same id ends without touching the entry. -/
def Sound : Prop :=
  ∀ id, manager.connections.lookup id = manager.latest id ∨ manager.connections.lookup id = none ∧
      ∀ connection, manager.latest id = some connection →
        connection ∈ manager.ended ++ manager.stopped

variable {manager after : ConnectionManager} {connection : Connection}

theorem Sound.addConnection (hsound : Sound manager) (arrival : Arrival) :
    Sound (manager.addConnection arrival) := by
  intro id
  simp only [ConnectionManager.addConnection, lookup_upsert, latest, List.find?_cons]
  split
  · next hid => exact .inl (by simp [hid])
  · next hid =>
    rw [decide_eq_false (Ne.symm hid)]
    exact hsound id

theorem Sound.remove (hsound : Sound manager)
    (hover : connection ∈ manager.ended ++ manager.stopped) :
    Sound (manager.remove connection) := by
  unfold ConnectionManager.remove
  dsimp only
  split
  · next hown =>
    intro id
    rw [lookup_deleteWhere]
    by_cases hid : id = connection.info.connectionId
    · -- The entry was the latest of its id, and it is over.
      refine .inr ⟨by simp [hid], fun found hfound => ?_⟩
      rw [← hid] at hown
      rcases hsound id with hlatest | ⟨hnone, -⟩
      · cases hown.symm.trans (hlatest.trans hfound)
        exact hover
      · cases hown.symm.trans hnone
    · rw [if_neg (by simpa using hid)]
      exact hsound id
  · exact hsound

theorem Sound.over (hsound : Sound manager) (ended stopped : List Connection) :
    Sound { manager with
      ended := ended ++ manager.ended
      stopped := stopped ++ manager.stopped } := by
  intro id
  refine (hsound id).imp_right fun hgone => ⟨hgone.1, fun found hfound => ?_⟩
  have hover := hgone.2 found hfound
  simp only [List.mem_append] at hover ⊢
  tauto

theorem Sound.step (hsound : Sound manager) (hstep : Step manager event after) : Sound after := by
  cases event with
  | addConnection arrival =>
    cases hstep
    exact hsound.addConnection arrival
  | finish connection =>
    rw [Step, move] at hstep
    split at hstep
    · cases hstep
      exact hsound.over [connection] []
    · cases hstep
  | wake connection =>
    rw [Step, move] at hstep
    split at hstep
    · next hover =>
      cases hstep
      exact hsound.remove hover
    · cases hstep
  | stopConnectionsWhere pred | stopAllConnections =>
    cases hstep
    exact hsound.over [] _

theorem sound_run (hrun : Trace Step new events manager) : Sound manager := by
  apply hrun.preserves Sound
  · exact fun _ _ _ _ hstep hsound => hsound.step hstep
  · exact fun _ => .inl rfl

theorem Sound.mem_values_iff (hsound : Sound manager) (hlive : manager.Live connection) :
    connection ∈ manager.values ↔ manager.Latest connection := by
  constructor
  · intro hvalue
    obtain ⟨⟨id, _⟩, hrow, rfl⟩ := List.mem_map.mp hvalue
    have hlook := mem_rows_iff.mp hrow
    rcases hsound id with hlatest | ⟨hnone, -⟩
    · have hfound := hlatest.symm.trans hlook
      have hid := List.find?_some hfound
      rw [Latest, of_decide_eq_true hid]
      exact hfound
    · cases hlook.symm.trans hnone
  · intro hlatest
    rcases hsound connection.info.connectionId with hlook | ⟨-, hover⟩
    · exact List.mem_map.mpr ⟨_, mem_rows_iff.mpr (hlook.trans hlatest), rfl⟩
    · exact absurd (hover connection hlatest) hlive.2

theorem Live.not_stopped (hlive : manager.Live connection) : connection ∉ manager.stopped :=
  fun hstop => hlive.2 (List.mem_append_right _ hstop)

variable {pred : ConnectionInfo → Bool}

theorem mem_stopConnectionsWhere_iff : connection ∈ (manager.stopConnectionsWhere pred).1.stopped ↔
      (connection ∈ manager.values ∧ pred connection.info) ∨ connection ∈ manager.stopped := by
  rw [stopConnectionsWhere, List.mem_append, List.mem_filter]

/-- A revocation reaches the live connections it is meant for. -/
def Reaches (manager after : ConnectionManager) (meant : Connection → Prop) : Prop :=
  ∀ connection, manager.Live connection → meant connection → connection ∈ after.stopped

/-- A revocation stops no connection that it is not meant for. -/
def Spares (manager after : ConnectionManager) (meant : Connection → Prop) : Prop :=
  ∀ connection ∈ after.stopped, connection ∈ manager.stopped ∨ meant connection

theorem spares_stopConnectionsWhere :
    Spares manager (manager.stopConnectionsWhere pred).1 fun connection => pred connection.info :=
  fun _ hstop => (mem_stopConnectionsWhere_iff.mp hstop).symm.imp_right And.right

/-- After any run a revocation reaches every live connection it is meant for exactly if
none of them shares its addresses with a later one and, for `close_connections`, none is
a datagram session; it stops no other connection. -/
theorem revocation_reaches_iff {events : List Event} (hrun : Trace Step new events manager) :
    (∀ pred : ConnectionInfo → Bool,
      (Reaches manager (manager.stopConnectionsWhere pred).1 (fun found => pred found.info) ↔
        ∀ found, manager.Live found → pred found.info → manager.Latest found) ∧
      Spares manager (manager.stopConnectionsWhere pred).1 fun found => pred found.info) ∧
    (Reaches manager manager.stopAllConnections (fun _ => True) ↔
      ∀ found, manager.Live found → manager.Latest found) ∧
    ∀ destPort keep, (Reaches manager (manager.closeConnections destPort keep).1
          (Connection.Revoked destPort keep) ↔
        ∀ found, manager.Live found → found.Revoked destPort keep →
          found.IsStream ∧ manager.Latest found) ∧
      Spares manager (manager.closeConnections destPort keep).1
        (Connection.Revoked destPort keep) := by
  have hsound := sound_run hrun
  have hstops {found pred} (hlive : manager.Live found) :
      found ∈ (manager.stopConnectionsWhere pred).1.stopped ↔
        pred found.info ∧ manager.Latest found := by
    rw [mem_stopConnectionsWhere_iff, hsound.mem_values_iff hlive,
      or_iff_left hlive.not_stopped, and_comm]
  refine ⟨fun pred => ⟨?_, spares_stopConnectionsWhere⟩, ?_, fun destPort keep => ⟨?_, ?_⟩⟩
  · apply forall_congr'
    exact fun found => forall₂_congr fun hlive hpred => by rw [hstops hlive, and_iff_right hpred]
  · apply forall_congr'
    refine fun found => forall_congr' fun hlive => ?_
    rw [forall_const, stopAllConnections, List.mem_append, or_iff_left hlive.not_stopped,
      hsound.mem_values_iff hlive]
  · apply forall_congr'
    refine fun found => forall₂_congr fun hlive hrevoked => ?_
    rw [closeConnections, hstops hlive, Connection.losesAccess_iff, and_iff_right hrevoked]
  · intro found hstop
    apply (spares_stopConnectionsWhere found hstop).imp_right
    exact fun hpred => (Connection.losesAccess_iff.mp hpred).1

def sshStream (remoteAddr peer : String) : Event :=
  .addConnection (.onNewStream remoteAddr "10.0.0.1:2980" peer 22)

def aliceStream : Event := sshStream "192.0.2.7:2980" "alice"

/-- A stream of `alice` is over when another takes its addresses; a further one of `alice` and one
of `bob` come from elsewhere. -/
def sshStreams : List Event :=
  [aliceStream, .finish ⟨0, .onNewStream "192.0.2.7:2980" "10.0.0.1:2980" "alice" 22⟩, aliceStream,
    sshStream "192.0.2.8:2980" "alice", sshStream "192.0.2.9:2980" "bob"]

/-- Both live streams of `alice` are closed, and that of `bob` is not. -/
theorem revocation_reaches_iff_alice : ∃ manager, runs move new sshStreams = some manager ∧
      Reaches manager (manager.closeConnections 22 ["bob"]).1 (Connection.Revoked 22 ["bob"]) ∧
      (manager.closeConnections 22 ["bob"]).1.stopped.map Connection.number = [2, 1] := by
  have hrun : runs move new sshStreams = some _ := rfl
  refine ⟨_, hrun, ((revocation_reaches_iff (trace_runs hrun)).2.2 22 ["bob"]).1.mpr ?_,
    by decide +kernel⟩
  rintro found ⟨hadded, hnotOver⟩ -
  simp only [Latest, addConnection, new, List.mem_cons, List.not_mem_nil, or_false] at hadded ⊢
  rcases hadded with rfl | rfl | rfl | rfl
  · exact ⟨⟨_, _, _, _, rfl⟩, by decide +kernel⟩
  · exact ⟨⟨_, _, _, _, rfl⟩, by decide +kernel⟩
  · exact ⟨⟨_, _, _, _, rfl⟩, by decide +kernel⟩
  · exact absurd (by decide +kernel) hnotOver

/-- `close_connections` leaves the first of two streams with equal addresses and a
datagram session. -/
theorem revoked_sessions_survive :
    ∃ manager, runs move new [aliceStream, aliceStream, .addConnection
        (.onNewDatagram "192.0.2.7:2981" "10.0.0.1:2980" "alice" 22)] = some manager ∧
      ∃ session stream later, manager.added = [session, later, stream] ∧
        (∀ found ∈ manager.added, manager.Live found ∧ found.Revoked 22 []) ∧
        (manager.closeConnections 22 []).1.stopped = [later] := by
  refine ⟨_, rfl, _, _, _, rfl, ?_, by decide +kernel⟩
  intro found hfound
  refine ⟨⟨hfound, List.not_mem_nil⟩, ?_⟩
  simp only [addConnection, new, List.mem_cons, List.not_mem_nil, or_false] at hfound
  rcases hfound with rfl | rfl | rfl
  · exact ⟨_, _, "alice", List.not_mem_nil, .inr rfl⟩
  · exact ⟨_, _, "alice", List.not_mem_nil, .inl rfl⟩
  · exact ⟨_, _, "alice", List.not_mem_nil, .inl rfl⟩

end ConnectionManager

end CyfsGateway.Gateway
