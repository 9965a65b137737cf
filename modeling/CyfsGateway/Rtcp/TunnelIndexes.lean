import CyfsGateway.Rtcp.TunnelSystem

/-!
# The indexes of the tunnel map

The bindings by instance and by device are one relation, every indexed document
belongs to a tunnel bound to its name, and every live bound tunnel is the current
one of its key.
-/

namespace CyfsGateway.Rtcp

open Tables Transition RTcpTunnelMapState List Option

namespace RTcpTunnelMapState

variable {naming : Naming} {state : RTcpTunnelMapState} {tunnel other : Nat} {key : String}
  {closed : List Nat}

/-- The indexes describe one relation between tunnels, names and devices. -/
structure Linked (naming : Naming) (state : RTcpTunnelMapState) : Prop where
  forward : ∀ tunnel binding, state.bindingByInstance.lookup tunnel = some binding →
    ∃ bucket, state.bindingByCanonicalDev.lookup binding.canonicalDevDid = some bucket ∧
      tunnel ∈ bucket.instances ∧ bucket.logicalDid = binding.logicalDid
  backward : ∀ dev bucket, state.bindingByCanonicalDev.lookup dev = some bucket →
    bucket.instances ≠ [] ∧ ∀ tunnel ∈ bucket.instances, ∃ binding,
      state.bindingByInstance.lookup tunnel = some binding ∧ binding.canonicalDevDid = dev
  indexed : ∀ logicalDid tunnel entry,
    (state.verifiedEntries logicalDid).lookup tunnel = some entry →
      entry.canonicalKey = naming.keyOf tunnel ∧ ∃ binding,
        state.bindingByInstance.lookup tunnel = some binding ∧ binding.logicalDid = logicalDid
  keyed : ∀ tunnel binding, state.bindingByInstance.lookup tunnel = some binding →
    binding.canonicalKey = naming.keyOf tunnel ∧
      binding.canonicalDevDid = naming.deviceOf (naming.keyOf tunnel)
  placed : ∀ key tunnel, state.tunnels.lookup key = some tunnel → naming.keyOf tunnel = key

/-- Every live bound tunnel is the current one of its key. -/
def Current (naming : Naming) (closed : List Nat) (state : RTcpTunnelMapState) : Prop :=
  ∀ tunnel binding, state.bindingByInstance.lookup tunnel = some binding → tunnel ∉ closed →
    state.tunnels.lookup (naming.keyOf tunnel) = some tunnel

theorem linked_empty : Linked naming empty :=
  ⟨by simp [empty], by simp [empty], by simp [empty, verifiedEntries], by simp [empty],
    by simp [empty]⟩

@[simp]
theorem tunnels_removeInstanceBinding :
    (state.removeInstanceBinding tunnel).tunnels = state.tunnels := by
  unfold removeInstanceBinding
  split <;> rfl

@[simp]
theorem lifecycle_removeInstanceBinding :
    (state.removeInstanceBinding tunnel).lifecycle = state.lifecycle := by
  unfold removeInstanceBinding
  split <;> rfl

@[simp]
theorem binding_removeInstanceBinding :
    (state.removeInstanceBinding tunnel).bindingByInstance.lookup other =
      if other = tunnel then none else state.bindingByInstance.lookup other := by
  unfold removeInstanceBinding
  split
  · rename_i hnone
    by_cases hother : other = tunnel
    · rw [if_pos hother, hother]
      exact hnone
    · rw [if_neg hother]
  · rw [lookup_deleteWhere]
    by_cases hother : other = tunnel <;> simp [hother]

theorem bucket_removeInstanceBinding (hlinked : state.Linked naming)
    (hbuck : (state.removeInstanceBinding tunnel).bindingByCanonicalDev.lookup dev =
      some bucket) :
    ∃ before, state.bindingByCanonicalDev.lookup dev = some before ∧
      bucket.logicalDid = before.logicalDid ∧ bucket.instances ≠ [] ∧
      bucket.instances = before.instances.filter (· ≠ tunnel) := by
  -- a bucket without the tunnel stays as it is
  have hkept (hbuck : state.bindingByCanonicalDev.lookup dev = some bucket)
      (hother : ∀ binding ∈ state.bindingByInstance.lookup tunnel, dev ≠ binding.canonicalDevDid) :
      ∃ before, state.bindingByCanonicalDev.lookup dev = some before ∧
        bucket.logicalDid = before.logicalDid ∧ bucket.instances ≠ [] ∧
        bucket.instances = before.instances.filter (· ≠ tunnel) := by
    obtain ⟨hsome, hall⟩ := hlinked.backward dev bucket hbuck
    refine ⟨bucket, hbuck, rfl, hsome, (filter_eq_self.mpr fun found hfound => ?_).symm⟩
    obtain ⟨binding, hbound, hdev⟩ := hall found hfound
    rw [decide_eq_true_iff]
    rintro rfl
    exact hother binding hbound hdev.symm
  unfold removeInstanceBinding at hbuck
  cases hbind : state.bindingByInstance.lookup tunnel with
  | none =>
    rw [hbind] at hbuck hkept
    exact hkept hbuck nofun
  | some binding =>
    rw [hbind] at hbuck hkept
    rw [lookup_shrink] at hbuck
    split at hbuck
    · rename_i hdev
      obtain ⟨before, hbefore, hleft⟩ := bind_eq_some_iff.mp hbuck
      obtain ⟨hsome, hleft⟩ := ite_none_left_eq_some.mp hleft
      cases hleft
      refine ⟨before, hdev ▸ hbefore, rfl, ?_, rfl⟩
      intro hempty
      exact hsome (by rw [hempty]; rfl)
    · rename_i hdev
      exact hkept hbuck fun _ hsome => Option.some.inj hsome ▸ hdev

theorem bucket_removeInstanceBinding_of_mem
    (hbuck : state.bindingByCanonicalDev.lookup dev = some bucket)
    (hmem : other ∈ bucket.instances) (hother : other ≠ tunnel) :
    ∃ after, (state.removeInstanceBinding tunnel).bindingByCanonicalDev.lookup dev =
      some after ∧ other ∈ after.instances ∧ after.logicalDid = bucket.logicalDid := by
  unfold removeInstanceBinding
  split
  · exact ⟨bucket, hbuck, hmem, rfl⟩
  rw [lookup_shrink]
  have hkept : other ∈ bucket.instances.filter (· ≠ tunnel) :=
    mem_filter.mpr ⟨hmem, decide_eq_true hother⟩
  split
  · rename_i hdev
    rw [← hdev, hbuck, bind_some, if_neg]
    · exact ⟨_, rfl, hkept, rfl⟩
    intro hempty
    have hnil : bucket.instances.filter (· ≠ tunnel) = [] := isEmpty_iff.mp hempty
    rw [hnil] at hkept
    cases hkept
  · exact ⟨bucket, hbuck, hmem, rfl⟩

variable {logicalDid : String}

theorem entry_removeInstanceBinding_of_ne (hother : other ≠ tunnel) :
    ((state.removeInstanceBinding tunnel).verifiedEntries logicalDid).lookup other =
      (state.verifiedEntries logicalDid).lookup other := by
  unfold removeInstanceBinding
  split
  · rfl
  rename_i binding hbind
  rw [verifiedEntries, lookup_shrink, verifiedEntries]
  split
  · rename_i hname
    rw [hname]
    cases hents : state.verifiedByLogicalDid.lookup binding.logicalDid with
    | none => rfl
    | some entries =>
      rw [bind_some]
      have hkept : (deleteWhere (fun row => decide (row = tunnel)) entries).lookup other =
          entries.lookup other := by rw [lookup_deleteWhere, if_neg (by simpa using hother)]
      split
      · rename_i hempty
        rw [isEmpty_iff.mp hempty] at hkept
        exact hkept
      · exact hkept
  · rfl

theorem entry_removeInstanceBinding (hlinked : state.Linked naming) :
    ((state.removeInstanceBinding tunnel).verifiedEntries logicalDid).lookup other =
      if other = tunnel then none else (state.verifiedEntries logicalDid).lookup other := by
  split
  case isFalse hother => exact entry_removeInstanceBinding_of_ne hother
  rename_i hother
  subst hother
  cases hentry : ((state.removeInstanceBinding other).verifiedEntries logicalDid).lookup other with
  | none => rfl
  | some entry =>
    exfalso
    unfold removeInstanceBinding at hentry
    cases hbind : state.bindingByInstance.lookup other with
    | none =>
      rw [hbind] at hentry
      obtain ⟨-, binding, hbound, -⟩ := hlinked.indexed _ _ _ hentry
      rw [hbind] at hbound
      cases hbound
    | some binding =>
      rw [hbind] at hentry
      rw [verifiedEntries, lookup_shrink] at hentry
      split at hentry
      · cases hents : state.verifiedByLogicalDid.lookup binding.logicalDid with
        | none => rw [hents] at hentry; cases hentry
        | some entries =>
          rw [hents, bind_some] at hentry
          split at hentry
          · cases hentry
          · rw [getD_some, lookup_deleteWhere, if_pos (by simp)] at hentry
            cases hentry
      · rename_i hname
        obtain ⟨-, found, hbound, hfound⟩ := hlinked.indexed _ _ _ hentry
        rw [hbind] at hbound
        cases hbound
        exact hname hfound.symm

theorem Linked.removeInstanceBinding (hlinked : state.Linked naming) :
    (state.removeInstanceBinding tunnel).Linked naming where
  forward := by
    intro other binding hbind
    rw [binding_removeInstanceBinding, ite_none_left_eq_some] at hbind
    obtain ⟨hother, hbind⟩ := hbind
    obtain ⟨bucket, hbuck, hmem, hname⟩ := hlinked.forward other binding hbind
    obtain ⟨after, hafter, hkept, hlog⟩ :=
      bucket_removeInstanceBinding_of_mem hbuck hmem hother
    exact ⟨after, hafter, hkept, hlog.trans hname⟩
  backward := by
    intro dev bucket hbuck
    obtain ⟨before, hbefore, -, hsome, hinstances⟩ := bucket_removeInstanceBinding hlinked hbuck
    refine ⟨hsome, fun other hother => ?_⟩
    rw [hinstances] at hother
    obtain ⟨hmem, hne⟩ := mem_filter.mp hother
    obtain ⟨binding, hbind, hdev⟩ := (hlinked.backward dev before hbefore).2 other hmem
    refine ⟨binding, ?_, hdev⟩
    rw [binding_removeInstanceBinding, if_neg (of_decide_eq_true hne)]
    exact hbind
  indexed := by
    intro logicalDid other entry hentry
    rw [entry_removeInstanceBinding hlinked, ite_none_left_eq_some] at hentry
    obtain ⟨hother, hentry⟩ := hentry
    obtain ⟨hkey, binding, hbind, hname⟩ := hlinked.indexed _ _ _ hentry
    refine ⟨hkey, binding, ?_, hname⟩
    rw [binding_removeInstanceBinding, if_neg hother]
    exact hbind
  keyed := by
    intro other binding hbind
    rw [binding_removeInstanceBinding, ite_none_left_eq_some] at hbind
    exact hlinked.keyed other binding hbind.2
  placed := by
    rw [tunnels_removeInstanceBinding]
    exact hlinked.placed

/-- The other parts of the map, and the bindings and documents of every tunnel that
is not in the list. -/
structure Pruned (removed : List Nat) (before after : RTcpTunnelMapState) : Prop where
  lifecycle : after.lifecycle = before.lifecycle
  binding : ∀ tunnel, after.bindingByInstance.lookup tunnel =
    if tunnel ∈ removed then none else before.bindingByInstance.lookup tunnel
  entry : ∀ logicalDid tunnel, (after.verifiedEntries logicalDid).lookup tunnel =
    if tunnel ∈ removed then none else (before.verifiedEntries logicalDid).lookup tunnel

theorem pruned_nil : Pruned [] state state := ⟨rfl, by simp, by simp⟩

theorem Linked.pruned_remove (hlinked : state.Linked naming) :
    Pruned [tunnel] state (state.removeInstanceBinding tunnel) where
  lifecycle := lifecycle_removeInstanceBinding
  binding := by
    intro other
    simp only [binding_removeInstanceBinding, mem_singleton]
  entry := by
    intro logicalDid other
    simp only [entry_removeInstanceBinding hlinked, mem_singleton]

theorem Pruned.trans {after} (hfirst : Pruned first before middle)
    (hsnd : Pruned second middle after) :
    Pruned (first ++ second) before after where
  lifecycle := hsnd.lifecycle.trans hfirst.lifecycle
  binding := by
    intro tunnel
    rw [hsnd.binding, hfirst.binding]
    by_cases hmem : tunnel ∈ second <;> by_cases hmem' : tunnel ∈ first <;>
      simp [hmem, hmem']
  entry := by
    intro logicalDid tunnel
    rw [hsnd.entry, hfirst.entry]
    by_cases hmem : tunnel ∈ second <;> by_cases hmem' : tunnel ∈ first <;>
      simp [hmem, hmem']

theorem Linked.removeInstanceBindings (removed : List Nat) :
    ∀ {state : RTcpTunnelMapState}, state.Linked naming →
      (state.removeInstanceBindings removed).Linked naming ∧
        (state.removeInstanceBindings removed).tunnels = state.tunnels ∧
        Pruned removed state (state.removeInstanceBindings removed) := by
  induction removed with
  | nil => exact fun hlinked => ⟨hlinked, rfl, pruned_nil⟩
  | cons first rest ih =>
    intro state hlinked
    have hfirst : (state.removeInstanceBinding first).Linked naming := hlinked.removeInstanceBinding
    obtain ⟨hafter, htuns, hpruned⟩ := ih hfirst
    exact ⟨hafter, htuns.trans tunnels_removeInstanceBinding,
      hlinked.pruned_remove.trans hpruned⟩

theorem tunnels_removePrimaryIfInstance {other} :
    (state.removePrimaryIfInstance key tunnel).tunnels.lookup other =
      if other = key ∧ state.tunnels.lookup key = some tunnel then none
      else state.tunnels.lookup other := by
  unfold removePrimaryIfInstance
  split
  · rename_i hcur
    rw [lookup_deleteWhere]
    by_cases hother : other = key <;> simp [hother, hcur]
  · rename_i hcur
    rw [if_neg fun hboth => hcur hboth.2]

theorem pruned_removePrimaryIfInstance :
    Pruned [] state (state.removePrimaryIfInstance key tunnel) := by
  unfold removePrimaryIfInstance
  split
  · exact ⟨rfl, by simp, by simp [verifiedEntries]⟩
  · exact pruned_nil

theorem Linked.removePrimaryIfInstance (hlinked : state.Linked naming) :
    (state.removePrimaryIfInstance key tunnel).Linked naming := by
  unfold RTcpTunnelMapState.removePrimaryIfInstance
  split
  · refine ⟨hlinked.forward, hlinked.backward, hlinked.indexed, hlinked.keyed, ?_⟩
    intro other found hfound
    rw [lookup_deleteWhere, ite_none_left_eq_some] at hfound
    exact hlinked.placed other found hfound.2
  · exact hlinked

theorem Linked.drop (hlinked : state.Linked naming) : (state.drop key tunnel).Linked naming :=
  hlinked.removePrimaryIfInstance.removeInstanceBinding

theorem Linked.pruned_drop (hlinked : state.Linked naming) :
    Pruned [tunnel] state (state.drop key tunnel) :=
  pruned_removePrimaryIfInstance.trans hlinked.removePrimaryIfInstance.pruned_remove

theorem tunnels_drop_of_ne (hfound : state.tunnels.lookup place = some found)
    (hne : found ≠ tunnel) :
    (state.drop key tunnel).tunnels.lookup place = some found := by
  rw [drop, tunnels_removeInstanceBinding, tunnels_removePrimaryIfInstance, if_neg]
  · exact hfound
  · rintro ⟨rfl, hcur⟩
    rw [hcur] at hfound
    exact hne (some.inj hfound).symm

/-! ## New bindings -/

variable {binding : OutboundNameBinding}

def Free (binding : OutboundNameBinding) (state : RTcpTunnelMapState) : Prop :=
  ∀ bucket, state.bindingByCanonicalDev.lookup binding.canonicalDevDid = some bucket →
    bucket.logicalDid = binding.logicalDid

def Fits (naming : Naming) (tunnel : Nat) (binding : OutboundNameBinding) (key : String) :
    Prop := key = naming.keyOf tunnel ∧ binding.canonicalDevDid = naming.deviceOf key

theorem binding_recordInstanceBinding :
    (state.recordInstanceBinding tunnel binding key).bindingByInstance.lookup other =
      if other = tunnel then
        some ⟨binding.logicalDid, binding.canonicalDevDid, key⟩
      else state.bindingByInstance.lookup other := lookup_upsert ..

section Links

variable (hlinked : state.Linked naming)

include hlinked

/-- A tunnel of a free device that is bound already is bound to the same name. -/
theorem Linked.sameName (hfits : Fits naming tunnel binding key)
    (hfree : state.Free binding) (hbound : state.bindingByInstance.lookup tunnel = some bound) :
    bound.logicalDid = binding.logicalDid := by
  obtain ⟨bucket, hbuck, -, hname⟩ := hlinked.forward tunnel bound hbound
  rw [(hlinked.keyed tunnel bound hbound).2, ← hfits.1, ← hfits.2] at hbuck
  exact hname.symm.trans (hfree bucket hbuck)

theorem Free.removeInstanceBinding (hfree : state.Free binding) :
    (state.removeInstanceBinding tunnel).Free binding := by
  intro bucket hbuck
  obtain ⟨before, hbefore, hname, -⟩ := bucket_removeInstanceBinding hlinked hbuck
  exact hname.trans (hfree before hbefore)

theorem Linked.recordInstanceBinding
    (hfits : Fits naming tunnel binding key) (hfree : state.Free binding) :
    (state.recordInstanceBinding tunnel binding key).Linked naming := by
  have hname : ((state.bindingByCanonicalDev.lookup binding.canonicalDevDid).getD
      ⟨binding.logicalDid, []⟩).logicalDid = binding.logicalDid := by
    cases hbuck : state.bindingByCanonicalDev.lookup binding.canonicalDevDid with
    | none => rfl
    | some bucket => exact hfree bucket hbuck
  constructor
  case forward =>
    intro other bound hbound
    rw [binding_recordInstanceBinding] at hbound
    simp only [RTcpTunnelMapState.recordInstanceBinding, lookup_upsert]
    split at hbound
    · rename_i hother
      cases hbound
      exact ⟨_, if_pos rfl, hother ▸ mem_insert_self, hname⟩
    · obtain ⟨bucket, hbuck, hmem, hlog⟩ := hlinked.forward other bound hbound
      by_cases hdev : bound.canonicalDevDid = binding.canonicalDevDid
      · rw [hdev] at hbuck
        rw [if_pos hdev, hbuck]
        exact ⟨_, rfl, mem_insert_of_mem hmem, hlog⟩
      · rw [if_neg hdev]
        exact ⟨bucket, hbuck, hmem, hlog⟩
  case backward =>
    intro dev bucket hbuck
    simp only [RTcpTunnelMapState.recordInstanceBinding, lookup_upsert] at hbuck
    split at hbuck
    · rename_i hdev
      cases hbuck
      refine ⟨ne_nil_of_mem mem_insert_self, fun other hother => ?_⟩
      rw [binding_recordInstanceBinding]
      by_cases hsame : other = tunnel
      · exact ⟨_, if_pos hsame, hdev.symm⟩
      rw [if_neg hsame]
      have hmem := (mem_insert_iff.mp hother).resolve_left hsame
      cases hold : state.bindingByCanonicalDev.lookup binding.canonicalDevDid with
      | none => rw [hold] at hmem; cases hmem
      | some old =>
        rw [hold] at hmem
        obtain ⟨bound, hbound, hfound⟩ := (hlinked.backward _ old hold).2 other hmem
        exact ⟨bound, hbound, hfound.trans hdev.symm⟩
    · rename_i hdev
      obtain ⟨hsome, hall⟩ := hlinked.backward dev bucket hbuck
      refine ⟨hsome, fun other hother => ?_⟩
      obtain ⟨bound, hbound, hfound⟩ := hall other hother
      rw [binding_recordInstanceBinding]
      have hne : other ≠ tunnel := by
        rintro rfl
        have hdevice := (hlinked.keyed other bound hbound).2
        rw [hfound, ← hfits.1, ← hfits.2] at hdevice
        exact hdev hdevice
      exact ⟨bound, (if_neg hne).trans hbound, hfound⟩
  case indexed =>
    intro logicalDid other entry hentry
    obtain ⟨hkey, bound, hbound, hlog⟩ := hlinked.indexed logicalDid other entry hentry
    refine ⟨hkey, ?_⟩
    rw [binding_recordInstanceBinding]
    by_cases hsame : other = tunnel
    · subst hsame
      exact ⟨_, if_pos rfl, (hlinked.sameName hfits hfree hbound).symm.trans hlog⟩
    · exact ⟨bound, (if_neg hsame).trans hbound, hlog⟩
  case keyed =>
    intro other bound hbound
    rw [binding_recordInstanceBinding] at hbound
    split at hbound
    · rename_i hother
      cases hbound
      exact ⟨hother ▸ hfits.1, hother ▸ hfits.1 ▸ hfits.2⟩
    · exact hlinked.keyed other bound hbound
  case placed => exact hlinked.placed

theorem Linked.indexVerified {identity}
    (hfits : Fits naming tunnel (VerifiedTunnelIdentity.binding identity) key)
    (hfree : state.Free (VerifiedTunnelIdentity.binding identity)) :
    (state.indexVerified key tunnel identity).Linked naming := by
  have hrecorded := hlinked.recordInstanceBinding hfits hfree
  refine ⟨hrecorded.forward, hrecorded.backward, ?_, hrecorded.keyed, hrecorded.placed⟩
  intro logicalDid other entry hentry
  simp only [RTcpTunnelMapState.indexVerified, RTcpTunnelMapState.recordInstanceBinding,
    verifiedEntries, lookup_upsert] at hentry
  by_cases hnew : logicalDid = identity.logicalDid ∧ other = tunnel
  · obtain ⟨rfl, rfl⟩ := hnew
    rw [if_pos rfl, getD_some, lookup_upsert, if_pos rfl] at hentry
    cases hentry
    exact ⟨hfits.1, _, binding_recordInstanceBinding.trans (if_pos rfl), rfl⟩
  · refine hrecorded.indexed logicalDid other entry ?_
    split at hentry
    · rename_i hlog
      rw [getD_some, lookup_upsert, if_neg fun hother => hnew ⟨hlog, hother⟩] at hentry
      rw [hlog]
      exact hentry
    · exact hentry

/-- The rejection-only arbitration: either the device is bound to another name by
a live tunnel and nothing changes, or it is free, and only bindings of closed
tunnels were dropped. -/
theorem Linked.conflictingLogicalBinding (binding : OutboundNameBinding) (closed : List Nat) :
    (∃ bound, state.conflictingLogicalBinding binding closed = (some bound, state)) ∨
      ∃ removed after, state.conflictingLogicalBinding binding closed = (none, after) ∧
        (∀ tunnel ∈ removed, tunnel ∈ closed) ∧ after.Linked naming ∧
        after.tunnels = state.tunnels ∧ Pruned removed state after ∧ after.Free binding := by
  unfold RTcpTunnelMapState.conflictingLogicalBinding
  split
  · rename_i hnone
    refine .inr ⟨[], state, rfl, by simp, hlinked, rfl, pruned_nil, ?_⟩
    intro bucket hbuck
    rw [hnone] at hbuck
    cases hbuck
  · rename_i bucket hbuck
    split
    · rename_i hname
      refine .inr ⟨[], state, rfl, by simp, hlinked, rfl, pruned_nil, ?_⟩
      intro found hfound
      rw [hbuck] at hfound
      cases hfound
      exact hname
    split
    · exact .inl ⟨_, rfl⟩
    rename_i hdead
    obtain ⟨hafter, htuns, hpruned⟩ := Linked.removeInstanceBindings bucket.instances hlinked
    refine .inr ⟨bucket.instances, _, rfl, ?_, hafter, htuns, hpruned, ?_⟩
    · intro tunnel htunnel
      obtain ⟨bound, hbound, -⟩ := (hlinked.backward _ bucket hbuck).2 tunnel htunnel
      by_contra hlive
      exact hdead (any_eq_true.mpr ⟨tunnel, htunnel, by rw [hbound]; simpa using hlive⟩)
    · -- every tunnel of the device was in the bucket, so the bucket is gone
      intro left hleft
      obtain ⟨hsome, hall⟩ := hafter.backward _ left hleft
      obtain ⟨first, rest, hcons⟩ := exists_cons_of_ne_nil hsome
      obtain ⟨bound, hbound, hdev⟩ := hall first (hcons ▸ mem_cons_self ..)
      rw [hpruned.binding, ite_none_left_eq_some] at hbound
      obtain ⟨hkept, hbound⟩ := hbound
      obtain ⟨found, hfound, hmem, -⟩ := hlinked.forward first bound hbound
      rw [hdev, hbuck] at hfound
      cases hfound
      exact absurd hmem hkept

theorem Linked.place (hkey : key = naming.keyOf tunnel) :
    ({ state with tunnels := upsert key tunnel state.tunnels } : RTcpTunnelMapState).Linked
      naming := by
  refine ⟨hlinked.forward, hlinked.backward, hlinked.indexed, hlinked.keyed, ?_⟩
  intro place found hfound
  rw [lookup_upsert] at hfound
  split at hfound
  · rename_i hplace
    cases hfound
    exact (hplace.trans hkey).symm
  · exact hlinked.placed place found hfound

end Links

/-- The invariant of the map, given the tunnels that are closed. -/
structure Sound (naming : Naming) (closed : List Nat) (state : RTcpTunnelMapState) : Prop where
  linked : state.Linked naming
  current : state.Current naming closed

variable {removed marked : List Nat} {after : RTcpTunnelMapState}

section Kept

variable (hsound : state.Sound naming closed)

include hsound

theorem Sound.close (hlater : closed ⊆ later) : state.Sound naming later :=
  ⟨hsound.linked, fun tunnel binding hbind hlive =>
    hsound.current tunnel binding hbind fun hclosed => hlive (hlater hclosed)⟩

/-- Bindings of some tunnels are gone; every other tunnel stayed in its place. -/
theorem Sound.pruned (hlinked : after.Linked naming) (hpruned : Pruned removed state after)
    (hplaces : ∀ place found, state.tunnels.lookup place = some found → found ∉ removed →
      after.tunnels.lookup place = some found) : after.Sound naming closed := by
  refine ⟨hlinked, fun tunnel binding hbind hlive => ?_⟩
  rw [hpruned.binding, ite_none_left_eq_some] at hbind
  exact hplaces _ _ (hsound.current tunnel binding hbind.2 hlive) hbind.1

theorem Sound.drop : (state.drop key tunnel).Sound naming closed :=
  hsound.pruned hsound.linked.drop hsound.linked.pruned_drop fun _ _ hfound hkept =>
    tunnels_drop_of_ne hfound fun hsame => hkept (mem_singleton.mpr hsame)

theorem Sound.removeInstanceBinding : (state.removeInstanceBinding tunnel).Sound naming closed :=
  hsound.pruned hsound.linked.removeInstanceBinding hsound.linked.pruned_remove
    fun _ _ hfound _ => by rw [tunnels_removeInstanceBinding]; exact hfound

theorem Sound.recordInstanceBinding
    (hfits : Fits naming tunnel binding key) (hfree : state.Free binding)
    (hplace : tunnel ∉ closed → state.tunnels.lookup key = some tunnel) :
    (state.recordInstanceBinding tunnel binding key).Sound naming closed := by
  refine ⟨hsound.linked.recordInstanceBinding hfits hfree, ?_⟩
  intro other bound hbound hlive
  rw [binding_recordInstanceBinding] at hbound
  split at hbound
  · rename_i hother
    subst hother
    rw [← hfits.1]
    exact hplace hlive
  · exact hsound.current other bound hbound hlive

/-- A tunnel takes the place of its key, which no other live bound tunnel holds. -/
theorem Sound.place (hkey : key = naming.keyOf tunnel)
    (hvacant : ∀ other binding, state.bindingByInstance.lookup other = some binding →
      other ∉ closed → state.tunnels.lookup key = some other → other = tunnel) :
    ({ state with tunnels := upsert key tunnel state.tunnels } : RTcpTunnelMapState).Sound
      naming closed := by
  refine ⟨hsound.linked.place hkey, ?_⟩
  intro other binding hbind hlive
  have hplace := hsound.current other binding hbind hlive
  rw [lookup_upsert]
  by_cases hsame : naming.keyOf other = key
  · rw [if_pos hsame]
    rw [hsame] at hplace
    rw [hvacant other binding hbind hlive hplace]
  · rw [if_neg hsame]
    exact hplace

theorem Sound.bindingConflict (binding : Option OutboundNameBinding) (later : List Nat) :
    (∃ reason, state.bindingConflict binding later = (some reason, state)) ∨
      ∃ removed after, state.bindingConflict binding later = (none, after) ∧
        removed ⊆ later ∧ after.Sound naming closed ∧ after.tunnels = state.tunnels ∧
        Pruned removed state after ∧ ∀ named ∈ binding, after.Free named := by
  cases binding with
  | none => exact .inr ⟨[], state, rfl, by simp, hsound, rfl, pruned_nil, by simp⟩
  | some named =>
    rcases hsound.linked.conflictingLogicalBinding named later with
      ⟨bound, hconf⟩ | ⟨removed, after, hconf, hclosed, hlinked, htuns, hpruned, hfree⟩
    · refine .inl ⟨bindingConflictMessage named bound, ?_⟩
      simp only [RTcpTunnelMapState.bindingConflict, hconf, map_some]
    refine .inr ⟨removed, after, ?_, hclosed, ?_, htuns, hpruned, ?_⟩
    · simp only [RTcpTunnelMapState.bindingConflict, hconf, map_none]
    · refine hsound.pruned hlinked hpruned fun place found hfound _ => ?_
      rw [htuns]
      exact hfound
    · rintro _ ⟨⟩
      exact hfree

theorem Sound.recordBinding {binding} (hfits : ∀ named ∈ binding, Fits naming tunnel named key)
    (hfree : ∀ named ∈ binding, state.Free named)
    (hplace : tunnel ∉ closed → state.tunnels.lookup key = some tunnel) :
    (state.recordBinding tunnel binding key).Sound naming closed := by
  cases binding with
  | none => exact hsound
  | some named => exact hsound.recordInstanceBinding (hfits named rfl) (hfree named rfl) hplace

end Kept

variable {name : Option OutboundNameBinding} {views : Views}

theorem tunnels_recordBinding : (state.recordBinding tunnel name key).tunnels = state.tunnels := by
  cases name <;> rfl

/-- An outbound target passed the arbitration. -/
structure Ready (naming : Naming) (closed : List Nat) (name : Option OutboundNameBinding)
    (state base : RTcpTunnelMapState) : Prop where
  running : state.lifecycle = .running
  pruned : ∃ removed, Pruned removed state base
  sound : base.Sound naming closed
  tunnels : base.tunnels = state.tunnels
  free : ∀ named ∈ name, base.Free named

/-- What `acquire_outbound` and `register_outbound_if_absent` leave behind: a pruned
map, the tunnel under the key bound to the name, or a new tunnel in the place of a
closed one. -/
inductive Outbound (naming : Naming) (closed : List Nat) (key : String)
    (name : Option OutboundNameBinding) (views : Views) (state : RTcpTunnelMapState) :
    RTcpTunnelMapState → Prop
  | pruned {next : RTcpTunnelMapState} {removed : List Nat} :
      Pruned removed state next → next.Sound naming closed →
      (∀ place found, state.tunnels.lookup place = some found →
        next.tunnels.lookup place = some found ∨ found ∈ views.existing) →
      Outbound naming closed key name views state next
  | bound {base : RTcpTunnelMapState} {existing : Nat} :
      Ready naming closed name state base → base.tunnels.lookup key = some existing →
      Outbound naming closed key name views state (base.recordBinding existing name key)
  | inserted {base : RTcpTunnelMapState} {tunnel : Nat} :
      Ready naming closed name state base → key = naming.keyOf tunnel →
      (∀ other, base.tunnels.lookup key = some other →
        base.bindingByInstance.lookup other = none ∧ other ∈ views.existing) →
      Outbound naming closed key name views state
        { base.recordBinding tunnel name key with
          tunnels := upsert key tunnel (base.recordBinding tunnel name key).tunnels }

theorem Sound.acquire_cases (hsound : state.Sound naming closed) (key : String)
    (name : Option OutboundNameBinding) (views : Views) :
    Outbound naming closed key name views state (state.acquireOutbound key name views).2 ∧
      ∀ found, (state.acquireOutbound key name views).1 = .ok (some found) →
        (state.acquireOutbound key name views).2.tunnels.lookup key = some found := by
  have hkept : Outbound naming closed key name views state state :=
    .pruned pruned_nil hsound fun _ _ hplace => .inl hplace
  unfold acquireOutbound
  split
  · exact ⟨hkept, nofun⟩
  rename_i hrunning
  rcases hsound.bindingConflict name views.conflict with
    ⟨reason, hconf⟩ | ⟨removed, after, hconf, -, hafter, htuns, hpruned, hfree⟩
  · rw [hconf]
    exact ⟨hkept, nofun⟩
  rw [hconf]
  dsimp only
  split
  · exact ⟨.pruned hpruned hafter fun _ _ hplace => .inl (htuns ▸ hplace), nofun⟩
  rename_i existing hexist
  split
  · rename_i hdead
    refine ⟨.pruned (hpruned.trans hafter.linked.pruned_drop) hafter.drop
      fun place found hplace => ?_, nofun⟩
    by_cases hsame : found = existing
    · exact .inr (hsame ▸ hdead)
    · exact .inl (tunnels_drop_of_ne (htuns ▸ hplace) hsame)
  · refine ⟨.bound ⟨not_not.mp hrunning, ⟨removed, hpruned⟩, hafter, htuns, hfree⟩ hexist, ?_⟩
    rintro _ ⟨⟩
    rw [tunnels_recordBinding]
    exact hexist

theorem Sound.insert (hsound : state.Sound naming closed) (hkey : key = naming.keyOf tunnel)
    (hname : ∀ named ∈ name, named.canonicalDevDid = naming.deviceOf key)
    (hfree : ∀ named ∈ name, state.Free named)
    (hvacant : ∀ other binding, state.bindingByInstance.lookup other = some binding →
      other ∉ closed → state.tunnels.lookup key = some other → other = tunnel) :
    ({ state.recordBinding tunnel name key with
        tunnels := upsert key tunnel (state.recordBinding tunnel name key).tunnels } :
      RTcpTunnelMapState).Sound naming closed := by
  have hplaced := hsound.place hkey hvacant
  have hfits : ∀ named ∈ name, Fits naming tunnel named key :=
    fun named hnamed => ⟨hkey, hname named hnamed⟩
  cases name with
  | none => exact hplaced
  | some named =>
    have hlook : ({ state with tunnels := upsert key tunnel state.tunnels } :
        RTcpTunnelMapState).tunnels.lookup key = some tunnel := by rw [lookup_upsert, if_pos rfl]
    exact hplaced.recordInstanceBinding (hfits named rfl) (hfree named rfl) fun _ => hlook

/-- `register_outbound_if_absent`: it marks no other tunnel closed, and an accepted
tunnel is under its key. -/
theorem Sound.register_cases (hsound : state.Sound naming closed)
    (hkey : key = naming.keyOf tunnel) (name : Option OutboundNameBinding) (views : Views) :
    Outbound naming closed key name views state
        (state.registerOutboundIfAbsent key tunnel name views).2.1 ∧
      (state.registerOutboundIfAbsent key tunnel name views).2.2 ⊆ [tunnel] ∧
      ((state.registerOutboundIfAbsent key tunnel name views).1 = .ok () →
        (state.registerOutboundIfAbsent key tunnel name views).2.1.tunnels.lookup key =
          some tunnel) := by
  have hkept : Outbound naming closed key name views state state :=
    .pruned pruned_nil hsound fun _ _ hplace => .inl hplace
  unfold registerOutboundIfAbsent
  split
  · exact ⟨hkept, Subset.refl _, nofun⟩
  rename_i hrunning
  rcases hsound.bindingConflict name views.conflict with
    ⟨reason, hconf⟩ | ⟨removed, after, hconf, -, hafter, htuns, hpruned, hfree⟩
  · rw [hconf]
    exact ⟨hkept, nil_subset _, nofun⟩
  rw [hconf]
  have hready : Ready naming closed name state after :=
    ⟨not_not.mp hrunning, ⟨removed, hpruned⟩, hafter, htuns, hfree⟩
  have hown {table : Table String Nat} : (upsert key tunnel table).lookup key = some tunnel := by
    rw [lookup_upsert, if_pos rfl]
  dsimp only
  split
  · rename_i hnone
    refine ⟨.inserted hready hkey fun other hother => ?_, nil_subset _, fun _ => hown⟩
    rw [hnone] at hother
    cases hother
  · rename_i existing hexist
    split
    · rename_i hdead
      refine ⟨.inserted ⟨hready.running, ⟨_, hpruned.trans hafter.linked.pruned_remove⟩,
        hafter.removeInstanceBinding, tunnels_removeInstanceBinding.trans htuns,
        fun named hnamed => (hfree named hnamed).removeInstanceBinding hafter.linked⟩ hkey
        fun other hother => ?_, nil_subset _, fun _ => hown⟩
      rw [tunnels_removeInstanceBinding, hexist] at hother
      cases hother
      exact ⟨by rw [binding_removeInstanceBinding, if_pos rfl], hdead⟩
    · exact ⟨.bound hready hexist, nil_subset _, nofun⟩

theorem Outbound.sound (hout : Outbound naming closed key name views state after)
    (hname : ∀ named ∈ name, named.canonicalDevDid = naming.deviceOf key) :
    after.Sound naming closed := by
  cases hout with
  | pruned _ hsound => exact hsound
  | bound hready hexist =>
    have hkey := (hready.sound.linked.placed key _ hexist).symm
    exact hready.sound.recordBinding (fun named hnamed => ⟨hkey, hname named hnamed⟩)
      hready.free fun _ => hexist
  | inserted hready hkey hvacant =>
    refine hready.sound.insert hkey hname hready.free fun other binding hbind _ hplace => ?_
    rw [(hvacant other hplace).1] at hbind
    cases hbind

theorem Outbound.places (hout : Outbound naming closed key name views state after)
    (hplace : state.tunnels.lookup place = some found) :
    after.tunnels.lookup place = some found ∨ found ∈ views.existing := by
  cases hout with
  | pruned _ _ hplaces => exact hplaces place found hplace
  | bound hready =>
    rw [tunnels_recordBinding, hready.tunnels]
    exact .inl hplace
  | inserted hready _ hvacant =>
    rw [tunnels_recordBinding, lookup_upsert]
    split
    · next hkey => exact .inr (hvacant found (by rw [← hkey, hready.tunnels]; exact hplace)).2
    · exact .inl (by rw [hready.tunnels]; exact hplace)

/-! ## Inbound tunnels -/

variable {identity : Option VerifiedTunnelIdentity} {stale : Table Nat VerifiedTunnelIndexEntry}

theorem tunnels_removePrimaries : ∀ {state : RTcpTunnelMapState},
      state.tunnels.lookup place = some found → found ∉ stale.map Prod.fst →
        (stale.foldl (fun state row => state.removePrimaryIfInstance row.2.canonicalKey row.1)
          state).tunnels.lookup place = some found := by
  induction stale with
  | nil => exact fun hfound _ => hfound
  | cons row rest ih =>
    intro state hfound hkept
    rw [map_cons, mem_cons, not_or] at hkept
    refine ih ?_ hkept.2
    rw [tunnels_removePrimaryIfInstance, if_neg]
    · exact hfound
    · rintro ⟨rfl, hcur⟩
      rw [hcur] at hfound
      exact hkept.1 (some.inj hfound).symm

theorem Linked.removePrimaries (stale : Table Nat VerifiedTunnelIndexEntry) :
    ∀ {state : RTcpTunnelMapState}, state.Linked naming →
      (stale.foldl (fun state row => state.removePrimaryIfInstance row.2.canonicalKey row.1)
          state).Linked naming ∧
        Pruned [] state (stale.foldl
          (fun state row => state.removePrimaryIfInstance row.2.canonicalKey row.1) state) := by
  induction stale with
  | nil => exact fun hlinked => ⟨hlinked, pruned_nil⟩
  | cons row rest ih =>
    intro state hlinked
    obtain ⟨hafter, hpruned⟩ := ih hlinked.removePrimaryIfInstance
    exact ⟨hafter, pruned_removePrimaryIfInstance.trans hpruned⟩

theorem Linked.dropStale (hlinked : state.Linked naming) : (state.dropStale stale).Linked naming ∧
      Pruned (stale.map Prod.fst) state (state.dropStale stale) ∧
      ∀ place found, state.tunnels.lookup place = some found → found ∉ stale.map Prod.fst →
        (state.dropStale stale).tunnels.lookup place = some found := by
  obtain ⟨hmid, hfirst⟩ := Linked.removePrimaries stale hlinked
  obtain ⟨hafter, htuns, hsnd⟩ := Linked.removeInstanceBindings (stale.map Prod.fst) hmid
  refine ⟨hafter, hfirst.trans hsnd, fun place found hfound hkept => ?_⟩
  rw [RTcpTunnelMapState.dropStale, htuns]
  exact tunnels_removePrimaries hfound hkept

/-- The candidate takes the place of its key; the tunnel before it is closed. -/
theorem Sound.displace (hsound : state.Sound naming closed) (hkey : key = naming.keyOf tunnel)
    (hdead : ∀ existing, state.tunnels.lookup key = some existing → existing ∈ closed) :
    (state.displace key tunnel).1.Sound naming closed ∧
      (state.displace key tunnel).1.tunnels.lookup key = some tunnel := by
  have hplaced := hsound.place hkey fun other binding _ hlive hplace =>
    absurd (hdead other hplace) hlive
  unfold RTcpTunnelMapState.displace
  split
  · exact ⟨hplaced.removeInstanceBinding, by
      rw [tunnels_removeInstanceBinding, lookup_upsert, if_pos rfl]⟩
  · exact ⟨hplaced, by rw [lookup_upsert, if_pos rfl]⟩

theorem Linked.displace (hlinked : state.Linked naming) (hkey : key = naming.keyOf tunnel) :
    (state.displace key tunnel).1.Linked naming ∧
      ∃ removed, Pruned removed state (state.displace key tunnel).1 := by
  have hplaced : Pruned [] state { state with tunnels := upsert key tunnel state.tunnels } :=
    ⟨rfl, by simp, by simp [verifiedEntries]⟩
  have hlinkedPlaced := hlinked.place hkey
  unfold RTcpTunnelMapState.displace
  split
  · exact ⟨hlinkedPlaced.removeInstanceBinding, _, hplaced.trans hlinkedPlaced.pruned_remove⟩
  · exact ⟨hlinkedPlaced, _, hplaced⟩

theorem Free.displace (hfree : state.Free binding) (hlinked : state.Linked naming)
    (hkey : key = naming.keyOf tunnel) : (state.displace key tunnel).1.Free binding := by
  have hplaced : ({ state with tunnels := upsert key tunnel state.tunnels } :
      RTcpTunnelMapState).Free binding := hfree
  unfold RTcpTunnelMapState.displace
  split
  · exact hplaced.removeInstanceBinding (hlinked.place hkey)
  · exact hplaced

theorem Sound.indexVerified {identity} (hsound : state.Sound naming closed)
    (hfits : Fits naming tunnel (VerifiedTunnelIdentity.binding identity) key)
    (hfree : state.Free (VerifiedTunnelIdentity.binding identity))
    (hplace : state.tunnels.lookup key = some tunnel) :
    (state.indexVerified key tunnel identity).Sound naming closed :=
  ⟨hsound.linked.indexVerified hfits hfree,
    (hsound.recordInstanceBinding hfits hfree fun _ => hplace).current⟩

theorem Sound.publishInbound (hsound : state.Sound naming closed) (hkey : key = naming.keyOf tunnel)
    (hname : ∀ named ∈ identity, named.canonicalDevDid = naming.deviceOf key)
    (hfree : ∀ named ∈ identity, state.Free (VerifiedTunnelIdentity.binding named))
    (hdead : ∀ existing, state.tunnels.lookup key = some existing → existing ∈ closed) :
    (state.publishInbound key tunnel identity views).2.1.Sound naming closed := by
  obtain ⟨hplaced, hplace⟩ := hsound.displace hkey hdead
  cases identity with
  | none => exact hplaced
  | some named =>
    have hidx := hplaced.indexVerified ⟨hkey, hname named rfl⟩
      ((hfree named rfl).displace hsound.linked hkey) hplace
    obtain ⟨hlinked, hpruned, hplaces⟩ := hidx.linked.dropStale
    exact hidx.pruned hlinked hpruned hplaces

/-- The views of a section, in the order of its passes. -/
structure Ascending (closed : List Nat) (views : Views) : Prop where
  candidate : closed ⊆ views.candidate
  conflict : views.candidate ⊆ views.conflict
  documents : views.conflict ⊆ views.documents
  existing : views.documents ⊆ views.existing
  scan : views.existing ⊆ views.scan

theorem Ascending.all (hviews : Ascending closed views) : closed ⊆ views.scan :=
  fun _ hclosed => hviews.scan (hviews.existing (hviews.documents (hviews.conflict
    (hviews.candidate hclosed))))

structure Refused (naming : Naming) (closed : List Nat) (tunnel : Nat) (views : Views)
    (state : RTcpTunnelMapState)
    (outcome : InboundTunnelRegistration × RTcpTunnelMapState × List Nat) : Prop where
  refused : ∃ reason, outcome.1 = .reject tunnel reason
  marked : outcome.2.2 ⊆ [tunnel]
  pruned : ∃ removed, removed ⊆ tunnel :: views.conflict ∧ Pruned removed state outcome.2.1
  sound : outcome.2.1.Sound naming closed
  places : ∀ place found, state.tunnels.lookup place = some found →
    outcome.2.1.tunnels.lookup place = some found ∨ found = tunnel ∧ found ∈ views.candidate

structure Cleared (naming : Naming) (closed : List Nat) (key : String)
    (identity : Option VerifiedTunnelIdentity) (views : Views)
    (state after : RTcpTunnelMapState) : Prop where
  running : state.lifecycle = .running
  pruned : ∃ removed, removed ⊆ views.conflict ∧ Pruned removed state after
  sound : after.Sound naming closed
  tunnels : after.tunnels = state.tunnels
  free : ∀ named ∈ identity, after.Free (VerifiedTunnelIdentity.binding named)
  agrees : ∀ named ∈ identity, after.revisionConflict named views.documents = false
  dead : ∀ existing, after.tunnels.lookup key = some existing → existing ∈ views.existing

theorem Sound.replace_cases (hsound : state.Sound naming closed) (key : String)
    (tunnel : Nat) (identity : Option VerifiedTunnelIdentity) (views : Views) :
    Refused naming closed tunnel views state
        (state.replaceAuthenticatedInbound key tunnel identity views) ∨
      ∃ after, Cleared naming closed key identity views state after ∧
        state.replaceAuthenticatedInbound key tunnel identity views =
          after.publishInbound key tunnel identity views := by
  unfold replaceAuthenticatedInbound
  split
  · exact .inl ⟨⟨_, rfl⟩, Subset.refl _, ⟨[], nil_subset _, pruned_nil⟩, hsound,
      fun _ _ hplace => .inl hplace⟩
  rename_i hrunning
  have hrunning := not_not.mp hrunning
  split
  · rename_i hclosed
    refine .inl ⟨⟨_, rfl⟩, nil_subset _, ⟨[tunnel], by simp, hsound.linked.pruned_drop⟩,
      hsound.drop, fun place found hplace => ?_⟩
    by_cases hown : found = tunnel
    · exact .inr ⟨hown, hown ▸ hclosed⟩
    · exact .inl (tunnels_drop_of_ne hplace hown)
  rcases hsound.bindingConflict (identity.map VerifiedTunnelIdentity.binding) views.conflict with
    ⟨reason, hconf⟩ | ⟨removed, after, hconf, hremoved, hafter, htuns, hpruned, hfree⟩
  · rw [hconf]
    exact .inl ⟨⟨_, rfl⟩, nil_subset _, ⟨[], nil_subset _, pruned_nil⟩, hsound,
      fun _ _ hplace => .inl hplace⟩
  rw [hconf]
  have href : ∀ reason, Refused naming closed tunnel views state
      (InboundTunnelRegistration.reject tunnel reason, after, []) := fun reason =>
    ⟨⟨_, rfl⟩, nil_subset _, ⟨removed, fun _ hmem => mem_cons_of_mem _ (hremoved hmem),
      hpruned⟩, hafter, fun _ _ hplace => .inl (by rw [htuns]; exact hplace)⟩
  have hfreeAll : ∀ named ∈ identity, after.Free (VerifiedTunnelIdentity.binding named) :=
    fun named hnamed => hfree _ (by rw [mem_def.mp hnamed]; rfl)
  dsimp only
  split
  · exact .inl (href _)
  rename_i hagrees
  have hagreesAll : ∀ named ∈ identity, after.revisionConflict named views.documents = false := by
    rintro named hnamed
    rw [mem_def.mp hnamed] at hagrees
    simpa using hagrees
  have hclear := @Cleared.mk naming closed key identity views state after hrunning
    ⟨removed, hremoved, hpruned⟩ hafter htuns hfreeAll hagreesAll
  split
  · rename_i existing hexist
    split
    · exact .inl (href _)
    rename_i hdead
    refine .inr ⟨after, hclear fun found hfound => ?_, rfl⟩
    rw [hexist] at hfound
    exact some.inj hfound ▸ not_not.mp hdead
  · rename_i hnone
    refine .inr ⟨after, hclear fun found hfound => ?_, rfl⟩
    rw [hnone] at hfound
    cases hfound

theorem Sound.replaceAuthenticatedInbound (hsound : state.Sound naming closed)
    (hviews : Ascending closed views) (hkey : key = naming.keyOf tunnel)
    (hname : ∀ named ∈ identity, named.canonicalDevDid = naming.deviceOf key) :
    (state.replaceAuthenticatedInbound key tunnel identity views).2.1.Sound naming
      views.scan := by
  rcases hsound.replace_cases key tunnel identity views with
    href | ⟨after, hclear, hpub⟩
  · exact href.sound.close hviews.all
  · rw [hpub]
    exact (hclear.sound.close hviews.all).publishInbound hkey hname hclear.free
      fun existing hexist => hviews.scan (hclear.dead existing hexist)

theorem Linked.dropAll {bound : Table Nat InstanceNameBinding} :
    ∀ {state : RTcpTunnelMapState}, state.Linked naming →
      (bound.foldl (fun state row => state.drop row.2.canonicalKey row.1) state).Linked naming ∧
        Pruned (bound.map Prod.fst) state
          (bound.foldl (fun state row => state.drop row.2.canonicalKey row.1) state) ∧
        ∀ place found, state.tunnels.lookup place = some found → found ∉ bound.map Prod.fst →
          (bound.foldl (fun state row => state.drop row.2.canonicalKey row.1)
            state).tunnels.lookup place = some found := by
  induction bound with
  | nil => exact fun hlinked => ⟨hlinked, pruned_nil, fun _ _ hfound _ => hfound⟩
  | cons row rest ih =>
    intro state hlinked
    have hdropped : (state.drop row.2.canonicalKey row.1).Linked naming := hlinked.drop
    obtain ⟨hafter, hpruned, hplaces⟩ := ih hdropped
    refine ⟨hafter, hlinked.pruned_drop.trans hpruned, fun place found hfound hkept => ?_⟩
    rw [map_cons, mem_cons, not_or] at hkept
    exact hplaces place found (tunnels_drop_of_ne hfound hkept.1) hkept.2

theorem Sound.detach (hsound : state.Sound naming closed) :
    (state.detachVerifiedIdentityInstances logicalDid).1.Sound naming closed := by
  obtain ⟨hlinked, hpruned, hplaces⟩ := hsound.linked.dropAll
  exact hsound.pruned hlinked hpruned hplaces

theorem sound_beginShutdown : state.beginShutdown.1.Sound naming closed :=
  ⟨⟨by simp [beginShutdown], by simp [beginShutdown],
    by simp [beginShutdown, verifiedEntries], by simp [beginShutdown],
    by simp [beginShutdown]⟩, by simp [Current, beginShutdown]⟩

end RTcpTunnelMapState

namespace RTcpTunnelMap

variable {naming : Naming} {system after : RTcpTunnelMap} {exits : Views}

theorem ascending_views : Ascending system.closed (system.views exits) where
  candidate := subset_append_left ..
  conflict := subset_append_left ..
  documents := subset_append_left ..
  existing := subset_append_left ..
  scan := subset_append_left ..

theorem closed_step {move} (hstep : Step naming system move after) :
    system.closed ⊆ after.closed := by
  have hturn := turn_step hstep
  have hsettled {exits marked} : system.closed ⊆ (system.views exits).scan ++ marked :=
    fun _ hmem => mem_append_left _ (ascending_views.all hmem)
  generalize system.candidate move = registering at hturn
  cases hturn with
  | rests _ hclosed => exact hclosed
  | removes | finishes => exact Subset.refl _
  | finds | acquires | registers | arbitrates => exact hsettled
  | detaches | begins => exact subset_append_left ..

abbrev Sound (naming : Naming) (system : RTcpTunnelMap) : Prop :=
  system.state.Sound naming system.closed

theorem sound_new : Sound naming new := ⟨linked_empty, nofun⟩

theorem device_nameBinding :
    ∀ named ∈ nameBinding naming key logicalDid, named.canonicalDevDid = naming.deviceOf key := by
  intro named hnamed
  obtain ⟨_, -, rfl⟩ := map_eq_some_iff.mp hnamed
  rfl

theorem device_identity {indexed : Option (String × DocRevision)} :
    ∀ named ∈ indexed.map fun document =>
        (⟨document.1, naming.deviceOf key, document.2⟩ : VerifiedTunnelIdentity),
      named.canonicalDevDid = naming.deviceOf key := by
  intro named hnamed
  obtain ⟨_, -, rfl⟩ := map_eq_some_iff.mp hnamed
  rfl

theorem Sound.settle {next marked events} (hnext : next.Sound naming (system.views exits).scan) :
    Sound naming (system.settle exits next marked events) := hnext.close (subset_append_left ..)

theorem Sound.acquireOutbound (hsound : Sound naming system) :
    Sound naming (system.acquireOutbound naming key logicalDid exits) :=
  Sound.settle (((RTcpTunnelMapState.Sound.acquire_cases hsound key
    (nameBinding naming key logicalDid) _).1.sound device_nameBinding).close ascending_views.all)

theorem Sound.registerOutbound (hsound : Sound naming system) :
    Sound naming (system.registerOutbound naming tunnel logicalDid exits) :=
  Sound.settle (((RTcpTunnelMapState.Sound.register_cases hsound rfl
    (nameBinding naming _ logicalDid) _).1.sound device_nameBinding).close ascending_views.all)

theorem Sound.arbitrateInbound (hsound : Sound naming system) :
    Sound naming (system.arbitrateInbound naming tunnel document exits) :=
  (RTcpTunnelMapState.Sound.replaceAuthenticatedInbound hsound ascending_views
    rfl device_identity).close (subset_append_left ..)

theorem Sound.detach {name} (hsound : Sound naming system) :
    Sound naming (system.detach name) :=
  (RTcpTunnelMapState.Sound.detach hsound).close (subset_append_left ..)

theorem sound_step {move} (hstep : Step naming system move after) (hsound : Sound naming system) :
    Sound naming after := by
  have hturn := turn_step hstep
  generalize system.candidate move = registering at hturn
  cases hturn with
  | rests events hclosed hquiet => exact hsound.close hclosed
  | removes => exact RTcpTunnelMapState.Sound.drop hsound
  | @finds _ binding exits =>
    refine Sound.settle ?_
    have hviews : Ascending system.closed (system.views exits) := ascending_views
    have hclose := hsound.close hviews.all
    rcases hclose.linked.conflictingLogicalBinding binding (system.views exits).conflict with
      ⟨bound, hconf⟩ | ⟨removed, next, hconf, -, hlinked, htuns, hpruned, -⟩
    · rw [hconf]
      exact hclose
    rw [hconf]
    refine hclose.pruned hlinked hpruned fun place found hfound _ => ?_
    rw [htuns]
    exact hfound
  | acquires => exact hsound.acquireOutbound
  | registers => exact hsound.registerOutbound
  | arbitrates => exact hsound.arbitrateInbound
  | detaches => exact hsound.detach
  | begins => exact sound_beginShutdown
  | finishes hstop =>
    exact ⟨⟨hsound.linked.forward, hsound.linked.backward, hsound.linked.indexed,
      hsound.linked.keyed, hsound.linked.placed⟩, hsound.current⟩

theorem sound_run (hrun : Trace (Step naming) new moves system) : Sound naming system :=
  hrun.preserves (Sound naming) (fun _ _ _ _ hstep hsound => sound_step hstep hsound) sound_new

end RTcpTunnelMap

end CyfsGateway.Rtcp
