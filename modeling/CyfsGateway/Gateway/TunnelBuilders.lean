import CyfsGateway.Core.Tables
import CyfsGateway.Core.Transition

/-!
# Owned tunnel builders

The tunnel manager keeps the builders of a protocol by owner in one map, and the one the
protocol resolves to in another.  A call locks the first, then the second, and other calls
may run in between.  Registrations may; two removals that overlap, or two live instances
with one owner id, leave the protocol with a builder of no live instance or with none.
-/

namespace CyfsGateway.Gateway

open Tables Transition

/-- A runtime instance; the number stands for the pointer of its builder. -/
structure Runtime where
  number : Nat
  owner : String
  deriving DecidableEq

/-- A call between its two locks. -/
inductive TunnelBuilderCall
  | registerOwned (builder : Runtime)
  | removeOwned (builder : Runtime) (remaining : Option Runtime)
  deriving DecidableEq

/-- The entries of one protocol in the two maps and the calls in progress.  `live` are the
instances that have registered their builder and not removed it. -/
structure TunnelBuilders where
  ownedTunnelBuilderManager : Table String Runtime := []
  tunnelBuilderManager : Option Runtime := none
  calls : List TunnelBuilderCall := []
  registered : List Runtime := []
  live : List Runtime := []

namespace TunnelBuilders

/-- What the first lock is taken for, or the second. -/
inductive Turn
  | registerOwned (builder : Runtime)
  | removeOwned (builder : Runtime) (remaining : Option Runtime)
  | second (call : TunnelBuilderCall)

/-- What `values().next()` may return: the order of the map is not known. -/
def next (byOwner : Table String Runtime) : List (Option Runtime) :=
  if byOwner = [] then [none] else byOwner.map fun entry => some entry.2

variable (builders : TunnelBuilders)

def takeSecond : TunnelBuilderCall → Option Runtime
  | .registerOwned builder => some builder
  | .removeOwned builder remaining =>
    if builders.tunnelBuilderManager = some builder then remaining
    else builders.tunnelBuilderManager

/-- An instance registers once, and removes once when its registration has returned. -/
def move : Turn → Option TunnelBuilders
  | .registerOwned builder =>
    if builder ∈ builders.registered then none
    else some { builders with
      ownedTunnelBuilderManager := upsert builder.owner builder builders.ownedTunnelBuilderManager
      calls := .registerOwned builder :: builders.calls
      registered := builder :: builders.registered
      live := builder :: builders.live }
  | .removeOwned builder remaining =>
    let byOwner := deleteWhere (fun owner => decide (owner = builder.owner))
      builders.ownedTunnelBuilderManager
    let live := builders.live.filter (· ≠ builder)
    if builder ∉ builders.live ∨ .registerOwned builder ∈ builders.calls then none
    -- Nobody owns a builder of the protocol: the call returns without the second lock.
    else if builders.ownedTunnelBuilderManager = [] then some { builders with live }
    else if remaining ∈ next byOwner then
      some { builders with
        ownedTunnelBuilderManager := byOwner
        calls := .removeOwned builder remaining :: builders.calls
        live }
    else none
  | .second call =>
    if call ∈ builders.calls then
      some { builders with
        tunnelBuilderManager := builders.takeSecond call
        calls := builders.calls.erase call }
    else none

abbrev Step (turn : Turn) (after : TunnelBuilders) : Prop :=
  builders.move turn = some after

/-- The protocol may resolve to this: a live instance's builder, or nothing if there is none. -/
def Resolves (builder : Option Runtime) : Prop :=
  ∀ runtime, (builder = some runtime → runtime ∈ builders.live) ∧
    (builder = none → runtime ∉ builders.live)

/-- A removal begins when no other one is between its locks, and no live instance has the owner
id of one that registers. -/
def Separate : Turn → Prop
  | .registerOwned builder => ∀ other ∈ builders.live, other.owner ≠ builder.owner
  | .removeOwned _ _ => ∀ other remaining, .removeOwned other remaining ∉ builders.calls
  | .second _ => True

abbrev SeparateStep (turn : Turn) (after : TunnelBuilders) : Prop :=
  builders.Separate turn ∧ Step builders turn after

/-- The calls in progress are registrations of live instances and at most one removal. The
instance that is removed is no longer live, and the one it falls back to is. -/
structure InProgress (builders : TunnelBuilders) : Prop where
  nodup : builders.calls.Nodup
  registering : ∀ builder, .registerOwned builder ∈ builders.calls → builder ∈ builders.live
  removing : ∀ builder remaining, .removeOwned builder remaining ∈ builders.calls →
    builder ∈ builders.registered ∧ builder ∉ builders.live ∧
      ∀ other, remaining = some other → other ∈ builders.live
  oneRemoval : ∀ builder remaining other others, .removeOwned builder remaining ∈ builders.calls →
    .removeOwned other others ∈ builders.calls → builder = other ∧ remaining = others

/-- The owners' map holds exactly the live instances.  The protocol resolves to one of them or
to one that is being removed; where it resolves to none, or is about to, all live instances
are still registering. -/
structure Owned (builders : TunnelBuilders) : Prop extends InProgress builders where
  mem_iff : ∀ owner builder, (owner, builder) ∈ builders.ownedTunnelBuilderManager ↔
    builder.owner = owner ∧ builder ∈ builders.live
  unique : ∀ first ∈ builders.live, ∀ second ∈ builders.live,
    first.owner = second.owner → first = second
  registered : ∀ builder ∈ builders.live, builder ∈ builders.registered
  resolves : ∀ builder, builders.tunnelBuilderManager = some builder →
    builder ∈ builders.live ∨ ∃ remaining, .removeOwned builder remaining ∈ builders.calls
  unresolved : builders.tunnelBuilderManager = none →
    ∀ other ∈ builders.live, .registerOwned other ∈ builders.calls
  lastRemoved : ∀ builder, builders.tunnelBuilderManager = some builder →
    .removeOwned builder none ∈ builders.calls →
    ∀ other ∈ builders.live, .registerOwned other ∈ builders.calls

variable {builders after : TunnelBuilders}

theorem Owned.registerOwned (howned : Owned builders)
    (hseparate : builders.Separate (.registerOwned builder))
    (hstep : Step builders (.registerOwned builder) after) : Owned after := by
  rw [Step, move] at hstep
  split at hstep
  · cases hstep
  next hnew =>
  cases hstep
  obtain ⟨⟨hnodup, hregistering, hremoving, hone⟩, hmem, hunique, hregistered, hresolves,
    hunresolved, hlast⟩ := howned
  rw [Separate] at hseparate
  have hmem' (owner : String) (other : Runtime) :
      (owner, other) ∈ upsert builder.owner builder builders.ownedTunnelBuilderManager ↔
        other.owner = owner ∧ other ∈ builder :: builders.live := by
    have hother := hmem owner other
    have howner := hseparate other
    simp only [upsert, List.mem_cons, List.mem_filter, Prod.mk.injEq, hother, ne_eq,
      decide_not, Bool.not_eq_eq_eq_not, Bool.not_true, decide_eq_false_iff_not]
    grind
  refine ⟨⟨?_, ?_, ?_, ?_⟩, hmem', ?_, ?_, ?_, ?_, ?_⟩ <;> grind

theorem Owned.removeOwned (howned : Owned builders)
    (hseparate : builders.Separate (.removeOwned builder remaining))
    (hstep : Step builders (.removeOwned builder remaining) after) :
    Owned after := by
  obtain ⟨⟨hnodup, hregistering, hremoving, hone⟩, hmem, hunique, hregistered, hresolves,
    hunresolved, hlast⟩ := howned
  rw [Separate] at hseparate
  rw [Step, move] at hstep
  split at hstep
  · cases hstep
  next hbuilder =>
  have hlive : builder ∈ builders.live := by tauto
  have hentry := (hmem builder.owner builder).mpr ⟨rfl, hlive⟩
  rw [if_neg (List.ne_nil_of_mem hentry)] at hstep
  split at hstep
  swap
  · cases hstep
  next hremaining =>
  cases hstep
  have hmem' (owner : String) (other : Runtime) :
      (owner, other) ∈ deleteWhere (fun owner => decide (owner = builder.owner))
          builders.ownedTunnelBuilderManager ↔
        other.owner = owner ∧ other ∈ builders.live.filter (· ≠ builder) := by
    have hother := hmem owner other
    have hsame := hunique other
    simp only [deleteWhere, List.mem_filter, hother]
    grind
  -- what remains is live, and nothing remains only if nobody else is
  have hleft : ∀ other, (remaining = some other → other ∈ builders.live.filter (· ≠ builder)) ∧
      (remaining = none → other ∉ builders.live.filter (· ≠ builder)) := by
    intro other
    have hother := hmem' other.owner other
    grind [next]
  refine ⟨⟨?_, ?_, ?_, ?_⟩, hmem', ?_, ?_, ?_, ?_, ?_⟩ <;> grind

theorem Owned.second (howned : Owned builders) (hstep : Step builders (.second call) after) :
    Owned after := by
  rw [Step, move] at hstep
  split at hstep
  swap
  · cases hstep
  next hcall =>
  cases hstep
  obtain ⟨⟨hnodup, hregistering, hremoving, hone⟩, hmem, hunique, hregistered, hresolves,
    hunresolved, hlast⟩ := howned
  have hleft : ∀ other, other ∈ builders.calls.erase call ↔ other ≠ call ∧ other ∈ builders.calls :=
    fun _ => hnodup.mem_erase_iff
  cases call with
  | registerOwned builder =>
    refine ⟨⟨hnodup.erase _, ?_, ?_, ?_⟩, hmem, hunique, hregistered, ?_, ?_, ?_⟩ <;>
      grind [takeSecond]
  | removeOwned builder remaining =>
    refine ⟨⟨hnodup.erase _, ?_, ?_, ?_⟩, hmem, hunique, hregistered, ?_, ?_, ?_⟩ <;>
      grind [takeSecond]

/-- Where removals do not overlap and live instances have different owner ids, the protocol
resolves to the builder of a live instance whenever no call is in progress, and to none if
there is no live instance. -/
theorem protocol_resolves {turns : List Turn}
    (hrun : Trace SeparateStep {} turns builders) (hcalls : builders.calls = []) :
    builders.Resolves builders.tunnelBuilderManager := by
  have howned : Owned builders := by
    apply hrun.preserves Owned
    · rintro (builder | ⟨builder, remaining⟩ | call) - before after ⟨hseparate, hstep⟩ howned
      · exact howned.registerOwned hseparate hstep
      · exact howned.removeOwned hseparate hstep
      · exact howned.second hstep
    · exact ⟨⟨.nil, by simp, by simp, by simp⟩, by simp, by simp, by simp, by simp, by simp,
        by simp⟩
  have hresolves := howned.resolves
  have hunresolved := howned.unresolved
  intro runtime
  simp only [hcalls, List.not_mem_nil, exists_false, or_false] at hresolves hunresolved
  exact ⟨hresolves runtime, fun hnone => hunresolved hnone runtime⟩

def registers (builder : Runtime) : List Turn :=
  [.registerOwned builder, .second (.registerOwned builder)]

def removes (builder : Runtime) (remaining : Option Runtime) : List Turn :=
  [.removeOwned builder remaining, .second (.removeOwned builder remaining)]

/-- Two registrations overlap, and the removal of one instance overlaps the registration of a
third. -/
def overlapping : List Turn :=
  [.registerOwned ⟨1, "a"⟩, .registerOwned ⟨2, "b"⟩, .second (.registerOwned ⟨2, "b"⟩),
    .second (.registerOwned ⟨1, "a"⟩), .removeOwned ⟨1, "a"⟩ (some ⟨2, "b"⟩),
    .registerOwned ⟨3, "c"⟩, .second (.registerOwned ⟨3, "c"⟩),
    .second (.removeOwned ⟨1, "a"⟩ (some ⟨2, "b"⟩))]

theorem protocol_resolves_overlapping : ∃ builders, runs move {} overlapping = some builders ∧
      builders.live = [⟨3, "c"⟩, ⟨2, "b"⟩] ∧
      builders.Resolves builders.tunnelBuilderManager :=
  have hrun : Trace SeparateStep {} overlapping _ :=
    .cons ⟨by simp [Separate], rfl⟩ (.cons ⟨by simp [Separate], rfl⟩ (.cons ⟨trivial, rfl⟩
      (.cons ⟨trivial, rfl⟩ (.cons ⟨by simp [Separate], rfl⟩ (.cons ⟨by simp [Separate], rfl⟩
        (.cons ⟨trivial, rfl⟩ (.cons ⟨trivial, rfl⟩ (.nil _))))))))
  ⟨_, rfl, rfl, protocol_resolves hrun rfl⟩

/-- An instance that ends removes the entry of a later one with its owner id, which a third
does not find when it ends.  And a removal that waits for the second lock activates the
builder of an instance that has ended meanwhile. -/
theorem protocol_resolves_to_no_live_builder :
    (∃ builders, runs move {} (registers ⟨1, "a"⟩ ++ registers ⟨2, "a"⟩ ++
        removes ⟨1, "a"⟩ none ++ registers ⟨3, "c"⟩ ++ removes ⟨3, "c"⟩ none) = some builders ∧
      builders.calls = [] ∧ builders.live = [⟨2, "a"⟩] ∧
      builders.tunnelBuilderManager = none) ∧
    ∃ builders, runs move {} (registers ⟨2, "b"⟩ ++ registers ⟨1, "a"⟩ ++
        .removeOwned ⟨1, "a"⟩ (some ⟨2, "b"⟩) :: removes ⟨2, "b"⟩ none ++
        [.second (.removeOwned ⟨1, "a"⟩ (some ⟨2, "b"⟩))]) = some builders ∧
      builders.calls = [] ∧ builders.live = [] ∧
      builders.tunnelBuilderManager = some ⟨2, "b"⟩ :=
  ⟨⟨_, rfl, rfl, rfl, rfl⟩, _, rfl, rfl, rfl, rfl⟩

end TunnelBuilders

end CyfsGateway.Gateway
