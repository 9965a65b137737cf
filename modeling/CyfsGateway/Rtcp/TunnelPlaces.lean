import CyfsGateway.Rtcp.TunnelIndexes

/-!
# Places of tunnels

A registration does not displace a live tunnel, except those of a strictly older
document of the same name, and a tunnel that exits takes nothing but its own
entries with it.
-/

namespace CyfsGateway.Rtcp

open Tables Transition RTcpTunnelMapState

namespace RTcpTunnelMapState

variable {state : RTcpTunnelMapState} {tunnel found : Nat} {key : String}
  {identity : Option VerifiedTunnelIdentity}

def Outdated (identity : VerifiedTunnelIdentity) (found : Nat) (state : RTcpTunnelMapState) :
    Prop :=
  ∃ entry, (state.verifiedEntries identity.logicalDid).lookup found = some entry ∧
    isStrictlyOlder entry.documentRevision identity.documentRevision

theorem tunnels_displace (hne : place ≠ key) :
    (state.displace key tunnel).1.tunnels.lookup place = state.tunnels.lookup place := by
  unfold displace
  split
  · rw [tunnels_removeInstanceBinding, lookup_upsert, if_neg hne]
  · rw [lookup_upsert, if_neg hne]

theorem tunnels_displace_self : (state.displace key tunnel).1.tunnels.lookup key = some tunnel := by
  unfold displace
  split
  · rw [tunnels_removeInstanceBinding, lookup_upsert, if_pos rfl]
  · rw [lookup_upsert, if_pos rfl]

theorem replaced_displace : (state.displace key tunnel).2 = state.tunnels.lookup key := by
  unfold displace
  split
  · rename_i hsome
    exact hsome.symm
  · rename_i hnone
    exact hnone.symm

theorem entry_displace (hdead : state.tunnels.lookup key ≠ some found) :
    ((state.displace key tunnel).1.verifiedEntries logicalDid).lookup found =
      (state.verifiedEntries logicalDid).lookup found := by
  unfold displace
  split
  · rename_i old hold
    refine entry_removeInstanceBinding_of_ne ?_
    rintro rfl
    exact hdead hold
  · rfl

theorem entry_indexVerified {identity} :
    ((state.indexVerified key tunnel identity).verifiedEntries logicalDid).lookup found =
      if logicalDid = identity.logicalDid ∧ found = tunnel then
        some ⟨key, identity.documentRevision⟩
      else (state.verifiedEntries logicalDid).lookup found := by
  simp only [indexVerified, recordInstanceBinding, verifiedEntries, lookup_upsert]
  by_cases hname : logicalDid = identity.logicalDid
  · rw [if_pos hname, Option.getD_some, lookup_upsert]
    by_cases hsame : found = tunnel <;> simp [hname, hsame]
  · rw [if_neg hname, if_neg fun hboth => hname hboth.1]

theorem mem_staleEntries {identity} : (found, entry) ∈ state.staleEntries tunnel identity closed ↔
      (state.verifiedEntries identity.logicalDid).lookup found = some entry ∧
        found ≠ tunnel ∧ (found ∈ closed ∨
          isStrictlyOlder entry.documentRevision identity.documentRevision) := by
  simp [staleEntries, List.mem_filter, mem_rows_iff]

/-- The candidate is published, and every other tunnel stays in its place, is found
closed or is marked closed. -/
theorem places_publishInbound (views : Views) (hlinked : state.Linked naming)
    (hkey : key = naming.keyOf tunnel)
    (hname : ∀ named ∈ identity, named.canonicalDevDid = naming.deviceOf key)
    (hfree : ∀ named ∈ identity, state.Free (VerifiedTunnelIdentity.binding named)) :
    (state.publishInbound key tunnel identity views).2.1.tunnels.lookup key = some tunnel ∧
      ∀ place found, state.tunnels.lookup place = some found →
        (state.publishInbound key tunnel identity views).2.1.tunnels.lookup place =
          some found ∨ found ∈ views.scan ∨
          found ∈ (state.publishInbound key tunnel identity views).2.2 := by
  have hplaced : ∀ place found, state.tunnels.lookup place = some found →
      (state.displace key tunnel).1.tunnels.lookup place = some found ∨
        found ∈ (state.displace key tunnel).2.toList := by
    intro place found hplace
    by_cases hsame : place = key
    · rw [replaced_displace, ← hsame, hplace]
      exact .inr (List.mem_singleton_self found)
    · exact .inl ((tunnels_displace hsame).trans hplace)
  cases identity with
  | none =>
    exact ⟨tunnels_displace_self, fun place found hplace => (hplaced place found hplace).imp_right
      .inr⟩
  | some named =>
    have hidx := (hlinked.displace hkey).1.indexVerified ⟨hkey, hname named rfl⟩
      ((hfree named rfl).displace hlinked hkey)
    obtain ⟨-, -, hplaces⟩ := hidx.dropStale
    refine ⟨hplaces key tunnel tunnels_displace_self ?_, fun place found hplace => ?_⟩
    · intro hmem
      obtain ⟨⟨_, entry⟩, hrow, rfl⟩ := List.mem_map.mp hmem
      exact (mem_staleEntries.mp hrow).2.1 rfl
    rcases hplaced place found hplace with hstays | hreplaced
    · by_cases hstale : found ∈ (((state.displace key tunnel).1.indexVerified key tunnel
          named).staleEntries tunnel named views.scan).map Prod.fst
      · by_cases hclosed : found ∈ views.scan
        · exact .inr (.inl hclosed)
        · obtain ⟨row, hrow, rfl⟩ := List.mem_map.mp hstale
          exact .inr (.inr (List.mem_append_right _ (List.mem_map.mpr ⟨row,
            List.mem_filter.mpr ⟨hrow, decide_eq_true hclosed⟩, rfl⟩)))
      · exact .inl (hplaces place found hstays hstale)
    · exact .inr (.inr (List.mem_append_left _ hreplaced))

/-- A live tunnel that is not under the key of the candidate and carries no older
document of its name is not marked closed. -/
theorem unmarked_publishInbound
    (hdead : ∀ existing, state.tunnels.lookup key = some existing → existing ∈ views.scan)
    (hlive : found ∉ views.scan) (hcur : ∀ named ∈ identity, ¬state.Outdated named found) :
    found ∉ (state.publishInbound key tunnel identity views).2.2 := by
  have hnotOld : state.tunnels.lookup key ≠ some found := fun hold => hlive (hdead found hold)
  have hreplaced : found ∉ (state.displace key tunnel).2.toList := by
    rw [replaced_displace, Option.mem_toList]
    exact hnotOld
  cases identity with
  | none => exact hreplaced
  | some named =>
    intro hmarked
    rcases List.mem_append.mp hmarked with hold | hsuperseded
    · exact hreplaced hold
    have hstale : found ∈ (((state.displace key tunnel).1.indexVerified key tunnel
        named).staleEntries tunnel named views.scan).map Prod.fst := by
      obtain ⟨row, hrow, hsame⟩ := List.mem_map.mp hsuperseded
      exact List.mem_map.mpr ⟨row, (List.mem_filter.mp hrow).1, hsame⟩
    obtain ⟨⟨_, entry⟩, hrow, rfl⟩ := List.mem_map.mp hstale
    obtain ⟨hentry, hother, hclosed | holder⟩ := mem_staleEntries.mp hrow
    · exact hlive hclosed
    · rw [entry_indexVerified, if_neg fun hboth => hother hboth.2, entry_displace hnotOld] at hentry
      exact hcur named rfl ⟨entry, hentry, holder⟩

theorem stays_replaceAuthenticatedInbound (identity : Option VerifiedTunnelIdentity)
    (hsound : state.Sound naming closed) (hviews : Ascending closed views)
    (hkey : key = naming.keyOf tunnel)
    (hname : ∀ named ∈ identity, named.canonicalDevDid = naming.deviceOf key)
    (hplace : state.tunnels.lookup place = some found) (hlive : found ∉ views.scan)
    (hother : found ≠ tunnel) (hcur : ∀ named ∈ identity, ¬state.Outdated named found) :
    (state.replaceAuthenticatedInbound key tunnel identity views).2.1.tunnels.lookup place =
        some found ∧
      found ∉ (state.replaceAuthenticatedInbound key tunnel identity views).2.2 := by
  rcases hsound.replace_cases key tunnel identity views with
    href | ⟨after, hclear, hpub⟩
  · exact ⟨(href.places place found hplace).resolve_right fun hown => hother hown.1,
      fun hmarked => hother (List.mem_singleton.mp (href.marked hmarked))⟩
  obtain ⟨removed, hremoved, hpruned⟩ := hclear.pruned
  have hkept : found ∉ removed := fun hmem =>
    hlive (hviews.scan (hviews.existing (hviews.documents (hremoved hmem))))
  rw [hpub]
  rw [← hclear.tunnels] at hplace
  have hunmarked : found ∉ (after.publishInbound key tunnel identity views).2.2 := by
    refine unmarked_publishInbound
      (fun existing hexist => hviews.scan (hclear.dead existing hexist)) hlive ?_
    rintro named hnamed ⟨entry, hentry, holder⟩
    rw [hpruned.entry, if_neg hkept] at hentry
    exact hcur named hnamed ⟨entry, hentry, holder⟩
  have hplaces := (places_publishInbound views hclear.sound.linked hkey hname
    hclear.free).2 place found hplace
  exact ⟨hplaces.resolve_right fun hgone => hgone.elim hlive hunmarked, hunmarked⟩

end RTcpTunnelMapState

namespace RTcpTunnelMap

variable {naming : Naming} {system after : RTcpTunnelMap} {tunnel found : Nat} {place : String}

/-! ## Candidates and exits -/

def Outdated (system : RTcpTunnelMap) (document : Option (String × DocRevision))
    (found : Nat) : Prop :=
  ∃ logicalDid revision entry, document = some (logicalDid, revision) ∧
    (system.state.verifiedEntries logicalDid).lookup found = some entry ∧
    isStrictlyOlder entry.documentRevision revision

section Stays

variable (hsound : Sound naming system) (hplace : system.state.tunnels.lookup place = some found)

include hsound hplace

theorem stays_registerOutbound {logicalDid} (hlive : found ∉ (system.views exits).scan)
    (hother : found ≠ tunnel) :
    (system.registerOutbound naming tunnel logicalDid exits).state.tunnels.lookup place =
        some found ∧
      found ∉ (system.registerOutbound naming tunnel logicalDid exits).closed := by
  obtain ⟨hout, hmarked, -⟩ := RTcpTunnelMapState.Sound.register_cases hsound rfl
    (nameBinding naming (naming.keyOf tunnel) logicalDid) (system.views exits)
  refine ⟨(hout.places hplace).resolve_right fun hclosed =>
      hlive (ascending_views.scan hclosed),
    fun hclosed => (List.mem_append.mp hclosed).elim hlive fun hmem => ?_⟩
  exact hother (List.mem_singleton.mp (hmarked hmem))

theorem stays_arbitrateInbound {document} (hlive : found ∉ (system.views exits).scan)
    (hother : found ≠ tunnel) (hcur : ¬system.Outdated document found) :
    (system.arbitrateInbound naming tunnel document exits).state.tunnels.lookup place = some found ∧
      found ∉ (system.arbitrateInbound naming tunnel document exits).closed := by
  obtain ⟨hstays, hunmarked⟩ := stays_replaceAuthenticatedInbound
    ((document.filter fun document => naming.isNamed document.1).map
      fun document => ⟨document.1, naming.deviceOf (naming.keyOf tunnel), document.2⟩)
    hsound ascending_views rfl device_identity hplace hlive hother (by
      rintro named hnamed ⟨entry, hentry, holder⟩
      obtain ⟨⟨logicalDid, revision⟩, hdocument, rfl⟩ := Option.map_eq_some_iff.mp hnamed
      exact hcur ⟨logicalDid, revision, entry, (Option.filter_eq_some_iff.mp hdocument).1,
        hentry, holder⟩)
  exact ⟨hstays, fun hclosed => (List.mem_append.mp hclosed).elim hlive hunmarked⟩

/-- A live tunnel keeps its place and stays open when another candidate registers,
unless it carries an older revision of the candidate's document. -/
theorem stays_candidate {move registering} (hstep : Step naming system move after)
    (hcand : system.candidate move = some registering)
    (hlive : found ∉ (system.views registering.exits).scan) (hother : found ≠ registering.tunnel)
    (hcur : ¬system.Outdated registering.document found) :
    after.state.tunnels.lookup place = some found ∧ found ∉ after.closed := by
  have hturn := turn_step hstep
  rw [hcand] at hturn
  cases hturn with
  | registers => exact stays_registerOutbound hsound hplace hlive hother
  | arbitrates => exact stays_arbitrateInbound hsound hplace hlive hother hcur

end Stays

/-- The device's bucket lists the tunnel under the name. -/
def Lists (state : RTcpTunnelMapState) (dev logicalDid : String) (tunnel : Nat) : Prop :=
  ∃ bucket, state.bindingByCanonicalDev.lookup dev = some bucket ∧
    tunnel ∈ bucket.instances ∧ bucket.logicalDid = logicalDid

/-- All entries of one tunnel are gone, and nothing else changed: this is what a removal
means, whichever of the indexes the source goes through. -/
structure OnlyLost (tunnel : Nat) (before after : RTcpTunnelMapState) : Prop where
  places : ∀ place found, after.tunnels.lookup place = some found ↔
    before.tunnels.lookup place = some found ∧ found ≠ tunnel
  bindings : ∀ found, after.bindingByInstance.lookup found =
    if found = tunnel then none else before.bindingByInstance.lookup found
  devices : ∀ dev logicalDid found,
    Lists after dev logicalDid found ↔ Lists before dev logicalDid found ∧ found ≠ tunnel
  documents : ∀ logicalDid found, (after.verifiedEntries logicalDid).lookup found =
    if found = tunnel then none else (before.verifiedEntries logicalDid).lookup found

/-- The two directions of the bindings are one relation of tunnels, devices and names. -/
theorem bound_iff_lists {state : RTcpTunnelMapState} (hlinked : state.Linked naming)
    (tunnel : Nat) (dev logicalDid : String) :
    (∃ binding, state.bindingByInstance.lookup tunnel = some binding ∧
        binding.canonicalDevDid = dev ∧ binding.logicalDid = logicalDid) ↔
      Lists state dev logicalDid tunnel := by
  constructor
  · rintro ⟨binding, hbind, rfl, rfl⟩
    exact hlinked.forward tunnel binding hbind
  · rintro ⟨bucket, hbuck, hmem, rfl⟩
    obtain ⟨binding, hbind, rfl⟩ := (hlinked.backward dev bucket hbuck).2 tunnel hmem
    obtain ⟨_, hsame, -, hname⟩ := hlinked.forward tunnel binding hbind
    cases hbuck.symm.trans hsame
    exact ⟨binding, hbind, rfl, hname.symm⟩

theorem onlyLost_drop {state : RTcpTunnelMapState} (hlinked : state.Linked naming) :
    OnlyLost tunnel state (state.drop (naming.keyOf tunnel) tunnel) := by
  obtain ⟨-, hbindings, hdocuments⟩ : Pruned [tunnel] state
    (state.drop (naming.keyOf tunnel) tunnel) := hlinked.pruned_drop
  simp only [List.mem_singleton] at hbindings hdocuments
  refine ⟨fun place found => ?_, hbindings, fun dev logicalDid found => ?_, hdocuments⟩
  · rw [drop, tunnels_removeInstanceBinding, tunnels_removePrimaryIfInstance,
      Option.ite_none_left_eq_some, and_comm, and_congr_right_iff]
    intro hplace
    -- the place of a tunnel is its own key
    have hkey := hlinked.placed place found hplace
    refine not_congr ⟨?_, ?_⟩
    · rintro ⟨hown, hcur⟩
      rw [← hown, hplace] at hcur
      exact Option.some.inj hcur
    · rintro rfl
      exact ⟨hkey.symm, hkey ▸ hplace⟩
  · rw [← bound_iff_lists hlinked.drop, ← bound_iff_lists hlinked, hbindings found]
    by_cases hfound : found = tunnel <;> simp [hfound]

/-! ## The representation -/

/-- The indexes of the map, in the words of their purpose.  The bindings are one relation,
read by tunnel or by device, and the other indexes agree with it. -/
structure Represents (system : RTcpTunnelMap) : Prop where
  oneRelation : ∀ tunnel dev logicalDid,
    (∃ binding, system.state.bindingByInstance.lookup tunnel = some binding ∧
        binding.canonicalDevDid = dev ∧ binding.logicalDid = logicalDid) ↔
      Lists system.state dev logicalDid tunnel
  noEmptyBucket : ∀ dev bucket,
    system.state.bindingByCanonicalDev.lookup dev = some bucket → bucket.instances ≠ []
  documentsBound : ∀ logicalDid tunnel entry,
    (system.state.verifiedEntries logicalDid).lookup tunnel = some entry →
      ∃ binding, system.state.bindingByInstance.lookup tunnel = some binding ∧
        binding.logicalDid = logicalDid
  oneName : ∀ left right leftBinding rightBinding,
    system.state.bindingByInstance.lookup left = some leftBinding →
      system.state.bindingByInstance.lookup right = some rightBinding →
        leftBinding.canonicalDevDid = rightBinding.canonicalDevDid →
          leftBinding.logicalDid = rightBinding.logicalDid
  current : ∀ tunnel binding,
    system.state.bindingByInstance.lookup tunnel = some binding → tunnel ∉ system.closed →
      system.state.tunnels.lookup binding.canonicalKey = some tunnel

theorem Sound.represents (hsound : Sound naming system) : Represents system where
  oneRelation := bound_iff_lists hsound.linked
  noEmptyBucket := fun dev bucket hbuck => (hsound.linked.backward dev bucket hbuck).1
  documentsBound := fun logicalDid tunnel entry hentry =>
    (hsound.linked.indexed logicalDid tunnel entry hentry).2
  oneName := by
    intro left right leftBinding rightBinding hleft hright hdev
    obtain ⟨bucket, hbuck, -, hname⟩ := hsound.linked.forward left leftBinding hleft
    obtain ⟨other, hother, -, hsame⟩ := hsound.linked.forward right rightBinding hright
    rw [hdev, hother] at hbuck
    cases hbuck
    exact hname.symm.trans hsame
  current := by
    intro tunnel binding hbind hlive
    rw [(hsound.linked.keyed tunnel binding hbind).1]
    exact hsound.current tunnel binding hbind hlive

/-- In every run the indexes represent one relation; a candidate displaces no live
tunnel but those of an older revision of its document, and a tunnel that exits
loses all its own entries and takes no other with it. -/
theorem tunnelMap_represents {moves : List TunnelMove}
    (hrun : Trace (Step naming) new moves system) :
    Represents system ∧ (∀ move registering after place found, Step naming system move after →
        system.candidate move = some registering →
        system.state.tunnels.lookup place = some found →
        found ∉ (system.views registering.exits).scan → found ≠ registering.tunnel →
        ¬system.Outdated registering.document found →
          after.state.tunnels.lookup place = some found ∧ found ∉ after.closed) ∧
      ∀ tunnel after, Step naming system (.remove tunnel) after →
        OnlyLost tunnel system.state after.state := by
  have hsound := sound_run hrun
  refine ⟨hsound.represents, ?_, ?_⟩
  · intro move registering after place found hstep hcand hplace hlive hother hcur
    exact stays_candidate hsound hplace hstep hcand hlive hother hcur
  · intro tunnel after hstep
    cases hstep
    exact onlyLost_drop hsound.linked

/-- Tunnels with odd numbers go to one device, the others to another one. -/
def twoDevices : Naming where
  keyOf := fun tunnel => if tunnel % 2 = 1 then "odd" else "even"
  deviceOf := id
  isNamed := fun _ => true

/-- Nothing closes by itself. -/
def quiet : Views := ⟨[], [], [], [], []⟩

/-- An inbound tunnel of `alice` with a document of the given iat. -/
def aliceInbound (tunnel iat : Nat) : List TunnelMove :=
  [.enter (.inbound tunnel "alice" ⟨iat, ""⟩), .proceed quiet, .proceed quiet]

/-- A newer document of `alice` names another device. -/
theorem tunnelMap_represents_moved :
    ∃ system, runs (move twoDevices) new (aliceInbound 1 10 ++ aliceInbound 2 20) =
        some system ∧ system.state.tunnels = [("even", 2)] ∧ system.closed = [1] ∧
      Represents system := by
  have hrun : (runs (move twoDevices) new (aliceInbound 1 10 ++ aliceInbound 2 20)).map
      (fun system => (system.state.tunnels, system.closed)) = some ([("even", 2)], [1]) := by
    decide +kernel
  obtain ⟨system, hsystem, hparts⟩ := Option.map_eq_some_iff.mp hrun
  obtain ⟨htuns, hclosed⟩ := Prod.mk.inj hparts
  exact ⟨system, hsystem, htuns, hclosed, (tunnelMap_represents (trace_runs hsystem)).1⟩

end RTcpTunnelMap

end CyfsGateway.Rtcp
