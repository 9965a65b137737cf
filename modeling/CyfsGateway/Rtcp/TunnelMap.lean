import CyfsGateway.Core.Tables
import CyfsGateway.Rtcp.Identity

/-!
# The tunnel map

`RTcpTunnelMapState` and the critical sections of `RTcpTunnelMap` under its map
lock.  A tunnel is named by its instance id.  Tunnels close by themselves at any
time, so a section is told which tunnels it finds closed at each of its passes
over their flags; `Views` holds one answer for each pass.  A section also yields
the tunnels it marks closed itself.
-/

namespace CyfsGateway.Rtcp

open Tables

inductive RTcpLifecycle
  | running
  | stopping
  | stopped
  deriving DecidableEq

structure VerifiedTunnelIndexEntry where
  canonicalKey : String
  documentRevision : DocRevision
  deriving DecidableEq

structure InstanceNameBinding where
  logicalDid : String
  canonicalDevDid : String
  canonicalKey : String
  deriving DecidableEq

structure CanonicalDevBinding where
  logicalDid : String
  instances : List Nat
  deriving DecidableEq

structure RTcpTunnelMapState where
  lifecycle : RTcpLifecycle
  tunnels : Table String Nat
  verifiedByLogicalDid : Table String (Table Nat VerifiedTunnelIndexEntry)
  bindingByInstance : Table Nat InstanceNameBinding
  bindingByCanonicalDev : Table String CanonicalDevBinding

/-- A logical name and the device it was resolved to. -/
structure OutboundNameBinding where
  logicalDid : String
  canonicalDevDid : String
  deriving DecidableEq

/-- The tunnels found closed: the candidate of a registration, the pass over the
instances of a device, the pass over the documents of a name, the tunnel under a
key and the final scan, in the order in which the flags are read. -/
structure Views where
  candidate : List Nat
  conflict : List Nat
  documents : List Nat
  existing : List Nat
  scan : List Nat

namespace RTcpTunnelMapState

def empty : RTcpTunnelMapState := ⟨.running, [], [], [], []⟩

/-! ## Bindings -/

variable (key : String) (tunnel : Nat) (identity : VerifiedTunnelIdentity) (closed : List Nat)
  (state : RTcpTunnelMapState)

def removeInstanceBinding : RTcpTunnelMapState :=
  match state.bindingByInstance.lookup tunnel with
  | none => state
  | some binding =>
    { state with
      bindingByInstance :=
        deleteWhere (fun other => decide (other = tunnel)) state.bindingByInstance
      verifiedByLogicalDid :=
        shrink binding.logicalDid (deleteWhere fun other => decide (other = tunnel))
          List.isEmpty state.verifiedByLogicalDid
      bindingByCanonicalDev :=
        shrink binding.canonicalDevDid
          (fun bucket => { bucket with instances := bucket.instances.filter (· ≠ tunnel) })
          (fun bucket => bucket.instances.isEmpty) state.bindingByCanonicalDev }

def removeInstanceBindings (tunnels : List Nat) (state : RTcpTunnelMapState) :
    RTcpTunnelMapState :=
  tunnels.foldl (fun state tunnel => state.removeInstanceBinding tunnel) state

def recordInstanceBinding (binding : OutboundNameBinding) (key : String)
    (state : RTcpTunnelMapState) : RTcpTunnelMapState :=
  let bucket := (state.bindingByCanonicalDev.lookup binding.canonicalDevDid).getD
    ⟨binding.logicalDid, []⟩
  { state with
    bindingByInstance := upsert tunnel
      ⟨binding.logicalDid, binding.canonicalDevDid, key⟩ state.bindingByInstance
    bindingByCanonicalDev := upsert binding.canonicalDevDid
      { bucket with instances := bucket.instances.insert tunnel }
      state.bindingByCanonicalDev }

/-- The binding of a named target; an unnamed one has none. -/
def recordBinding (binding : Option OutboundNameBinding) (key : String)
    (state : RTcpTunnelMapState) : RTcpTunnelMapState :=
  match binding with
  | some binding => state.recordInstanceBinding tunnel binding key
  | none => state

/-- The name that a live tunnel of the device is bound to, if it is another one.
A binding whose tunnels are all closed is dropped. -/
def conflictingLogicalBinding (binding : OutboundNameBinding) (closed : List Nat)
    (state : RTcpTunnelMapState) : Option String × RTcpTunnelMapState :=
  match state.bindingByCanonicalDev.lookup binding.canonicalDevDid with
  | none => (none, state)
  | some bucket =>
    if bucket.logicalDid = binding.logicalDid then (none, state)
    else if bucket.instances.any fun tunnel =>
        (state.bindingByInstance.lookup tunnel).isSome && decide (tunnel ∉ closed) then
      (some bucket.logicalDid, state)
    else (none, state.removeInstanceBindings bucket.instances)

def bindingConflictMessage (binding : OutboundNameBinding) (bound : String) : String :=
  "canonical device " ++ binding.canonicalDevDid ++
    " is already bound to verified logical name " ++ bound ++
    "; one-to-one binding rejects logical name " ++ binding.logicalDid

def bindingConflict (binding : Option OutboundNameBinding) (closed : List Nat)
    (state : RTcpTunnelMapState) : Option String × RTcpTunnelMapState :=
  match binding with
  | none => (none, state)
  | some binding =>
    let (bound, after) := state.conflictingLogicalBinding binding closed
    (bound.map (bindingConflictMessage binding), after)

def removePrimaryIfInstance :
    RTcpTunnelMapState :=
  if state.tunnels.lookup key = some tunnel then
    { state with tunnels := deleteWhere (fun other => decide (other = key)) state.tunnels }
  else state

def drop : RTcpTunnelMapState :=
  (state.removePrimaryIfInstance key tunnel).removeInstanceBinding tunnel

inductive OutboundAcquireError
  | stopped
  | authorityNegative (reason : String)
  | bindingConflict (reason : String)
  deriving DecidableEq

inductive OutboundRegisterError
  | existing (tunnel : Nat)
  | bindingConflict (reason : String)
  | stopped
  | authorityNegative (reason : String)
  deriving DecidableEq

def acquireOutbound (binding : Option OutboundNameBinding) (views : Views)
    (state : RTcpTunnelMapState) :
    Except OutboundAcquireError (Option Nat) × RTcpTunnelMapState :=
  if state.lifecycle ≠ .running then (.error .stopped, state)
  else
    match state.bindingConflict binding views.conflict with
    | (some reason, after) => (.error (.bindingConflict reason), after)
    | (none, after) =>
      match after.tunnels.lookup key with
      | none => (.ok none, after)
      | some existing =>
        if existing ∈ views.existing then (.ok none, after.drop key existing)
        else (.ok (some existing), after.recordBinding existing binding key)

/-- `register_outbound_if_absent` under the map lock, and what it marks closed. -/
def registerOutboundIfAbsent
    (binding : Option OutboundNameBinding) (views : Views) (state : RTcpTunnelMapState) :
    Except OutboundRegisterError Unit × RTcpTunnelMapState × List Nat :=
  if state.lifecycle ≠ .running then (.error .stopped, state, [tunnel])
  else
    match state.bindingConflict binding views.conflict with
    | (some reason, after) => (.error (.bindingConflict reason), after, [])
    | (none, after) =>
      let insert := fun (state : RTcpTunnelMapState) =>
        let bound := state.recordBinding tunnel binding key
        { bound with tunnels := upsert key tunnel bound.tunnels }
      match after.tunnels.lookup key with
      | none => (.ok (), insert after, [])
      | some existing =>
        if existing ∈ views.existing then
          (.ok (), insert (after.removeInstanceBinding existing), [])
        else (.error (.existing existing), after.recordBinding existing binding key, [])

/-! ## Inbound tunnels -/

structure InboundTunnelRegistration where
  accepted : Bool
  rejectionReason : Option String
  replaced : Option Nat
  superseded : List Nat
  rejected : Option Nat
  deriving DecidableEq

def InboundTunnelRegistration.reject (reason : String) :
    InboundTunnelRegistration := ⟨false, some reason, none, [], some tunnel⟩

/-- The tunnels that `mark_tunnels_closed` and `finish_authenticated_registration` close. -/
def InboundTunnelRegistration.tunnels (registration : InboundTunnelRegistration) : List Nat :=
  registration.rejected.toList ++ registration.replaced.toList ++ registration.superseded

def VerifiedTunnelIdentity.binding :
    OutboundNameBinding := ⟨identity.logicalDid, identity.canonicalDevDid⟩

def verifiedEntries (logicalDid : String) (state : RTcpTunnelMapState) :
    Table Nat VerifiedTunnelIndexEntry := (state.verifiedByLogicalDid.lookup logicalDid).getD []

/-- A live tunnel of the same name whose document has the same iat and another
content. -/
def revisionConflict : Bool :=
  (rows (state.verifiedEntries identity.logicalDid)).any fun row =>
    decide (row.1 ∉ closed) &&
      decide (row.2.documentRevision.iat = identity.documentRevision.iat) &&
      decide (row.2.documentRevision ≠ identity.documentRevision)

def isStrictlyOlder (candidate current : DocRevision) : Bool := candidate.iat < current.iat

/-- The other tunnels of a name that a new revision drops: those found closed and
those with a strictly older document. -/
def staleEntries : Table Nat VerifiedTunnelIndexEntry :=
  (rows (state.verifiedEntries identity.logicalDid)).filter fun row =>
    decide (row.1 ≠ tunnel) && (decide (row.1 ∈ closed) ||
        isStrictlyOlder row.2.documentRevision identity.documentRevision)

def dropStale (stale : Table Nat VerifiedTunnelIndexEntry) (state : RTcpTunnelMapState) :
    RTcpTunnelMapState :=
  (stale.foldl (fun state row => state.removePrimaryIfInstance row.2.canonicalKey row.1)
    state).removeInstanceBindings (stale.map Prod.fst)

def indexVerified : RTcpTunnelMapState :=
  let entries := upsert tunnel ⟨key, identity.documentRevision⟩
    (state.verifiedEntries identity.logicalDid)
  let indexed := { state with
    verifiedByLogicalDid := upsert identity.logicalDid entries state.verifiedByLogicalDid }
  indexed.recordInstanceBinding tunnel (VerifiedTunnelIdentity.binding identity) key

def displace : RTcpTunnelMapState × Option Nat :=
  let inserted := { state with tunnels := upsert key tunnel state.tunnels }
  match state.tunnels.lookup key with
  | some old => (inserted.removeInstanceBinding old, some old)
  | none => (inserted, none)

/-- The accepted candidate is published, and the tunnels of older documents of its
name are marked closed. -/
def publishInbound (identity : Option VerifiedTunnelIdentity)
    (views : Views) (state : RTcpTunnelMapState) :
    InboundTunnelRegistration × RTcpTunnelMapState × List Nat :=
  let (placed, replaced) := state.displace key tunnel
  match identity with
  | none => (⟨true, none, replaced, [], none⟩, placed, replaced.toList)
  | some identity =>
    let indexed := placed.indexVerified key tunnel identity
    let stale := indexed.staleEntries tunnel identity views.scan
    let superseded := (stale.filter fun row => decide (row.1 ∉ views.scan)).map Prod.fst
    (⟨true, none, replaced, superseded, none⟩, indexed.dropStale stale,
      replaced.toList ++ superseded)

/-- `replace_authenticated_inbound`, and what it marks closed. -/
def replaceAuthenticatedInbound
    (identity : Option VerifiedTunnelIdentity) (views : Views) (state : RTcpTunnelMapState) :
    InboundTunnelRegistration × RTcpTunnelMapState × List Nat :=
  if state.lifecycle ≠ .running then
    (.reject tunnel "RTCP stack is stopping or stopped", state, [tunnel])
  else if tunnel ∈ views.candidate then
    (.reject tunnel "candidate tunnel is already closed", state.drop key tunnel, [])
  else
    match state.bindingConflict (identity.map VerifiedTunnelIdentity.binding) views.conflict with
    | (some reason, after) => (.reject tunnel reason, after, [])
    | (none, after) =>
      if identity.any fun identity => after.revisionConflict identity views.documents then
        (.reject tunnel ((identity.map fun identity =>
          s!"verified document for {identity.logicalDid} conflicts at revision " ++
            s!"{identity.documentRevision.iat}").getD ""), after, [])
      else
        match after.tunnels.lookup key with
        | some existing =>
          if existing ∉ views.existing then
            (.reject tunnel (s!"tunnel {key} already has active instance {existing}; " ++
              "first accepted tunnel wins"), after, [])
          else after.publishInbound key tunnel identity views
        | none => after.publishInbound key tunnel identity views

def removeIfCurrent :
    RTcpTunnelMapState := state.drop key tunnel

/-- `detach_verified_identity_instances`, and what it marks closed. -/
def detachVerifiedIdentityInstances (logicalDid : String) (state : RTcpTunnelMapState) :
    RTcpTunnelMapState × List Nat :=
  let bound := (rows state.bindingByInstance).filter fun row =>
    decide (row.2.logicalDid = logicalDid)
  (bound.foldl (fun state row => state.drop row.2.canonicalKey row.1) state, bound.map Prod.fst)

/-- `begin_shutdown`, and what it marks closed. -/
def beginShutdown : RTcpTunnelMapState × List Nat :=
  (⟨if state.lifecycle = .running then .stopping else state.lifecycle, [], [], [], []⟩,
    (rows state.tunnels).map Prod.snd)

def finishShutdown : RTcpTunnelMapState :=
  { state with lifecycle := .stopped }

end RTcpTunnelMapState

end CyfsGateway.Rtcp
