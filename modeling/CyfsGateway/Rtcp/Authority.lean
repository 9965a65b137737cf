import CyfsGateway.Rtcp.Effects

/-!
# Denied names

A name that its authority denied has no tunnel in the map, from the moment the
denial has detached them until that very denial is cleared.  The denial holds the
commit lock while it detaches, so no operation on the name runs before it is done.
Confirmations of one name never overlap.
-/

namespace CyfsGateway.Rtcp

open Tables Transition

namespace RTcpTunnelMap

variable {naming : Naming} {system after : RTcpTunnelMap} {logicalDid : String}
  {name : Option String}

/-! ## The invariant -/

/-- The confirmations of a name that were begun and have not been completed, as the log
tells it.  The log is newest first, so the recursion runs from the latest event back. -/
def inFlight (logicalDid : String) : List TunnelEvent → List AuthorityConfirmationTicket
  | [] => []
  | .began name ticket :: rest =>
    if name = logicalDid then ticket :: inFlight logicalDid rest
    else inFlight logicalDid rest
  | .completed name ticket :: rest =>
    if name = logicalDid then (inFlight logicalDid rest).filter (· ≠ ticket)
    else inFlight logicalDid rest
  | _ :: rest => inFlight logicalDid rest

def pendingTicket : Option AuthorityConfirmationState → List AuthorityConfirmationTicket
  | some (.inFlight ticket) => [ticket]
  | _ => []

/-- Where tunnels were handed out or published for a name. -/
def served (logicalDid : String) (log : List TunnelEvent) : List TunnelEvent :=
  log.filter fun event => decide (event.serves = some logicalDid)

def clearings (logicalDid : String) (generation : Nat) (log : List TunnelEvent) : Nat :=
  log.count (.cleared logicalDid generation)

variable {events log : List TunnelEvent}

theorem inFlight_append (hevents : ∀ event ∈ events, event.confirms = false) :
    inFlight logicalDid (events ++ log) = inFlight logicalDid log := by
  induction events with
  | nil => rfl
  | cons event events ih =>
    obtain ⟨hevent, hrest⟩ := List.forall_mem_cons.mp hevents
    rw [List.cons_append, ← ih hrest]
    cases event <;> first | rfl | cases hevent

/-- The invariant of denials and confirmations.  A denied name is not being served and has
no binding, except while the section that detaches it is still to come. -/
structure Guarded (system : RTcpTunnelMap) : Prop where
  checked : ∀ logicalDid, system.serving = some logicalDid → system.isNegative logicalDid = false
  detached : ∀ logicalDid, system.isNegative logicalDid = true →
    system.commit = some (.detach logicalDid) ∨ system.state.Unbound logicalDid
  stopped : system.state.lifecycle ≠ .running →
    ∀ tunnel, system.state.bindingByInstance.lookup tunnel = none
  flight : ∀ logicalDid, inFlight logicalDid system.log =
    pendingTicket (system.authorityConfirmations.lookup logicalDid)

theorem guarded_new : Guarded new where
  checked := nofun
  detached := nofun
  stopped := fun _ _ => rfl
  flight := fun _ => rfl

theorem isNegative_congr (htable : after.authorityConfirmations.lookup logicalDid =
      system.authorityConfirmations.lookup logicalDid) :
    after.isNegative logicalDid = system.isNegative logicalDid := by
  rw [isNegative, isNegative, htable]

/-- A map that only serves names whose check it has passed keeps denied names out. -/
theorem Guarded.serves (hguard : Guarded system) (hserves : Serves name system after)
    (hname : ∀ logicalDid, name = some logicalDid → system.serving = some logicalDid)
    (hneg : system.isNegative logicalDid = true)
    (hunb : system.state.Unbound logicalDid) : after.state.Unbound logicalDid := by
  refine hunb.binds hserves.binds fun hsame => ?_
  rw [hguard.checked logicalDid (hname logicalDid hsame)] at hneg
  cases hneg

theorem Guarded.unbound_of_stopped (hguard : Guarded system)
    (hstop : system.state.lifecycle ≠ .running) : system.state.Unbound logicalDid :=
  fun tunnel _ hbind => nomatch (hguard.stopped hstop tunnel).symm.trans hbind

variable {ticket : AuthorityConfirmationTicket}

theorem inFlight_completed : inFlight logicalDid (.completed logicalDid ticket :: log) =
      (inFlight logicalDid log).filter (· ≠ ticket) := if_pos rfl

section Flight

variable (hflight : inFlight logicalDid system.log =
    pendingTicket (system.authorityConfirmations.lookup logicalDid))

include hflight

theorem inFlight_current (hcur : system.isCurrent logicalDid ticket = true) :
    inFlight logicalDid (.completed logicalDid ticket :: system.log) = [] := by
  rw [inFlight_completed, hflight, of_decide_eq_true hcur]
  simp [pendingTicket]

theorem inFlight_stale (hstale : system.isCurrent logicalDid ticket = false) :
    inFlight logicalDid (.completed logicalDid ticket :: system.log) =
      inFlight logicalDid system.log := by
  rw [inFlight_completed, List.filter_eq_self, hflight]
  intro current hmem
  apply decide_eq_true
  rintro rfl
  refine of_decide_eq_false hstale ?_
  unfold pendingTicket at hmem
  split at hmem
  · rename_i found hfound
    rw [List.mem_singleton.mp hmem]
    exact hfound
  · cases hmem

end Flight

variable {confirmation : AuthorityConfirmationState} {event : TunnelEvent}

theorem Confirms.inFlight_of_ne (hconf : Confirms system logicalDid confirmation event)
    (hother : other ≠ logicalDid) :
    inFlight other (event :: log) = inFlight other log := by
  cases hconf with
  | clears => rfl
  | _ => exact if_neg (Ne.symm hother)

/-- What a change does to the confirmations in flight. -/
theorem Confirms.flight (hconf : Confirms system logicalDid confirmation event)
    (hflight : ∀ name, inFlight name system.log =
      pendingTicket (system.authorityConfirmations.lookup name)) (name : String) :
    inFlight name (event :: system.log) =
      pendingTicket ((upsert logicalDid confirmation system.authorityConfirmations).lookup
        name) := by
  rw [lookup_upsert]
  by_cases hname : name = logicalDid
  · subst hname
    rw [if_pos rfl]
    cases hconf with
    | begins hidle _ =>
      have hnone : inFlight name system.log = [] := by
        rw [hflight]
        unfold pendingTicket
        split
        · rename_i current hcur
          exact absurd hcur (hidle current)
        · rfl
      rw [inFlight, if_pos rfl, hnone]
      rfl
    | confirmed hcur | unavailable hcur | denied hcur =>
      exact inFlight_current (hflight name) hcur
    | clears hneg =>
      rw [inFlight, hflight, hneg]
      · rfl
      all_goals nofun
  · rw [if_neg hname, hconf.inFlight_of_ne hname]
    exact hflight name

section Guards

variable (hguard : Guarded system)

include hguard

theorem Guarded.stopped_of_binds (hbinds : RTcpTunnelMapState.Binds name system.state after.state)
    (hstop : after.state.lifecycle ≠ .running) (tunnel : Nat) :
    after.state.bindingByInstance.lookup tunnel = none := by
  by_cases hrunning : system.state.lifecycle = .running
  · exact (hbinds.lifecycle hrunning).resolve_left hstop tunnel
  refine Option.eq_none_iff_forall_not_mem.mpr fun binding hbind => ?_
  rcases hbinds.binding tunnel binding hbind with hbefore | ⟨hrunning', -⟩
  · exact nomatch (hguard.stopped hrunning tunnel).symm.trans hbefore
  · exact hrunning hrunning'

theorem Guarded.unbound_effect (heff : Effect system after)
    (hneg : system.isNegative logicalDid = true)
    (hunb : system.state.Unbound logicalDid) : after.state.Unbound logicalDid := by
  cases heff with
  | serves name hserves hname _ => exact hguard.serves hserves hname hneg hunb
  | changes _ _ _ _ _ hstate _ _ _ | ignores _ _ _ hstate _ _ _ =>
    rw [hstate]
    exact hunb

theorem Guarded.detached_effect (heff : Effect system after)
    (hhands : Hands system after) (hneg : system.isNegative logicalDid = true) :
    after.commit = some (.detach logicalDid) ∨ after.state.Unbound logicalDid := by
  rcases hguard.detached logicalDid hneg with hpend | hunb
  · rcases hhands.pending logicalDid hpend with hstill | hunb | hstop
    · exact .inl hstill
    · exact .inr hunb
    · exact .inr (hguard.unbound_effect heff hneg (hguard.unbound_of_stopped hstop))
  · exact .inr (hguard.unbound_effect heff hneg hunb)

theorem Hands.not_negative (hhands : Hands system after)
    (hserv : after.serving = some logicalDid) : system.isNegative logicalDid = false :=
  (hhands.checked logicalDid hserv).elim (hguard.checked logicalDid) id

theorem guarded_effect (heff : Effect system after) : Guarded after := by
  have heffect' := heff
  cases heff with
  | serves name hserves hname hhands =>
    have hsame : ∀ logicalDid, after.isNegative logicalDid = system.isNegative logicalDid :=
      fun _ => isNegative_congr (by rw [hserves.table])
    obtain ⟨events, hlog, hevents⟩ := hserves.events
    refine ⟨?_, ?_, hguard.stopped_of_binds hserves.binds, ?_⟩
    · intro logicalDid hserv
      rw [hsame]
      exact hhands.not_negative hguard hserv
    · intro logicalDid hneg
      rw [hsame] at hneg
      exact hguard.detached_effect heffect' hhands hneg
    · intro logicalDid
      rw [hlog, inFlight_append fun event hevent => (hevents event hevent).1, hserves.table]
      exact hguard.flight logicalDid
  | changes logicalDid confirmation event hconf hdetach hstate htable hlog hhands =>
    have hother : ∀ name, name ≠ logicalDid →
        after.isNegative name = system.isNegative name := fun name hname =>
      isNegative_congr (by rw [htable, lookup_upsert, if_neg hname])
    -- The changed name is denied afterwards only by a denial, which goes on to detach.
    have hown : after.isNegative logicalDid = true → after.commit = some (.detach logicalDid) := by
      intro hneg
      rw [isNegative, htable, lookup_upsert, if_pos rfl] at hneg
      cases confirmation with
      | negative negative => exact hdetach negative rfl
      | inFlight | confirmed | unavailable => cases hneg
    refine ⟨?_, ?_, ?_, ?_⟩
    · intro name hserv
      by_cases hname : name = logicalDid
      · subst hname
        by_contra hneg
        have hcom := hown (Bool.not_eq_false _ ▸ hneg)
        rw [serving, hcom] at hserv
        cases hserv
      · rw [hother name hname]
        exact hhands.not_negative hguard hserv
    · intro name hneg
      by_cases hname : name = logicalDid
      · subst hname
        exact .inl (hown hneg)
      · rw [hother name hname] at hneg
        exact hguard.detached_effect heffect' hhands hneg
    · rw [hstate]
      exact hguard.stopped
    · intro name
      rw [hlog, htable]
      exact hconf.flight hguard.flight name
  | ignores logicalDid ticket hstale hstate htable hlog hhands =>
    have hsame : ∀ name, after.isNegative name = system.isNegative name :=
      fun _ => isNegative_congr (by rw [htable])
    refine ⟨?_, ?_, ?_, ?_⟩
    · intro name hserv
      rw [hsame]
      exact hhands.not_negative hguard hserv
    · intro name hneg
      rw [hsame] at hneg
      exact hguard.detached_effect heffect' hhands hneg
    · rw [hstate]
      exact hguard.stopped
    · intro name
      rw [hlog, htable, ← hguard.flight name]
      by_cases hname : logicalDid = name
      · subst hname
        exact inFlight_stale (hguard.flight logicalDid) hstale
      · exact if_neg hname

end Guards

structure Safe (naming : Naming) (system : RTcpTunnelMap) : Prop where
  sound : Sound naming system
  guarded : Guarded system

theorem safe_new : Safe naming new := ⟨sound_new, guarded_new⟩

theorem Safe.step {move} (hsafe : Safe naming system) (hstep : Step naming system move after) :
    Safe naming after :=
  ⟨sound_step hstep hsafe.sound, guarded_effect hsafe.guarded (effect_step hsafe.sound hstep)⟩

theorem safe_run (hrun : Trace (Step naming) new moves system) : Safe naming system :=
  hrun.preserves (Safe naming) (fun _ _ _ _ hstep hsafe => hsafe.step hstep) safe_new

/-! ## Denied names -/

theorem clearings_append {generation} (hevents : ∀ event ∈ events, event.confirms = false) :
    clearings logicalDid generation (events ++ log) = clearings logicalDid generation log := by
  have hnone : events.count (.cleared logicalDid generation) = 0 := by
    refine List.count_eq_zero.mpr fun hmem => ?_
    cases hevents _ hmem
  rw [clearings, List.count_append, hnone, Nat.zero_add, clearings]

theorem Effect.clearings_le {generation} (heff : Effect system after) :
    clearings logicalDid generation system.log ≤ clearings logicalDid generation after.log := by
  cases heff with
  | serves name hserves _ _ =>
    obtain ⟨events, hlog, hevents⟩ := hserves.events
    rewrite [hlog, clearings_append fun event hevent => (hevents event hevent).1]
    exact Nat.le_refl _
  | changes _ _ _ _ _ _ _ hlog _ | ignores _ _ _ _ _ hlog _ =>
    rw [hlog]
    exact (List.sublist_cons_self ..).count_le _

/-- A denied name stays denied and unserved until its denial is cleared; what is not bound
to it does not get bound. -/
structure Kept (logicalDid : String) (before after : RTcpTunnelMap) : Prop where
  state : after.authorityConfirmations.lookup logicalDid =
    before.authorityConfirmations.lookup logicalDid
  served : served logicalDid after.log = served logicalDid before.log
  unbound : before.state.Unbound logicalDid → after.state.Unbound logicalDid

variable {negative : AuthorityNegativeState}

theorem served_append (hevents : ∀ event ∈ events, event.serves ≠ some logicalDid) :
    served logicalDid (events ++ log) = served logicalDid log := by
  have hnone : events.filter (fun event => decide (event.serves = some logicalDid)) = [] :=
    List.filter_eq_nil_iff.mpr fun event hevent => by simpa using hevents event hevent
  rw [served, List.filter_append, hnone, List.nil_append, served]

theorem Confirms.serves
    (hconf : Confirms system logicalDid confirmation event) : event.serves = none := by
  cases hconf <;> rfl

section Denied

variable (hlookup : system.authorityConfirmations.lookup logicalDid = some (.negative negative))

include hlookup

theorem isNegative_of_lookup : system.isNegative logicalDid = true := by rw [isNegative, hlookup]

theorem not_current_of_negative : system.isCurrent logicalDid ticket = false := by
  apply decide_eq_false
  rw [hlookup]
  nofun

theorem Confirms.clears_of_negative (hconf : Confirms system logicalDid confirmation event) :
    event = .cleared logicalDid negative.generation := by
  have hstale : ∀ ticket, system.isCurrent logicalDid ticket ≠ true := fun ticket =>
    Bool.eq_false_iff.mp (not_current_of_negative hlookup)
  cases hconf with
  | begins _ hneg =>
    exact absurd (isNegative_of_lookup hlookup) (Bool.eq_false_iff.mp hneg)
  | confirmed hcur | unavailable hcur | denied hcur => exact absurd hcur (hstale _)
  | clears hfound =>
    rw [hlookup] at hfound
    cases hfound
    rfl

section Uncleared

variable (hclearings : clearings logicalDid negative.generation after.log =
    clearings logicalDid negative.generation system.log)

include hclearings

theorem Guarded.kept_effect (hguard : Guarded system) (heff : Effect system after) :
    Kept logicalDid system after := by
  have hneg := isNegative_of_lookup hlookup
  have hunb := hguard.unbound_effect heff hneg
  cases heff with
  | serves name hserves hname _ =>
    obtain ⟨events, hlog, hevents⟩ := hserves.events
    refine ⟨by rw [hserves.table], ?_, hunb⟩
    rw [hlog]
    refine served_append fun event hevent hserved => ?_
    have hserv := hname logicalDid ((hevents event hevent).2 logicalDid hserved)
    rw [hguard.checked logicalDid hserv] at hneg
    cases hneg
  | changes name confirmation event hconf _ _ htable hlog _ =>
    have hother : logicalDid ≠ name := by
      rintro rfl
      rw [hlog, hconf.clears_of_negative hlookup, clearings, List.count_cons_self] at hclearings
      exact absurd hclearings (Nat.succ_ne_self _)
    refine ⟨by rw [htable, lookup_upsert, if_neg hother], ?_, hunb⟩
    rw [hlog]
    exact List.filter_cons_of_neg (by simp [hconf.serves])
  | ignores name ticket _ _ htable hlog _ =>
    refine ⟨by rw [htable], ?_, hunb⟩
    rw [hlog]
    rfl

theorem Safe.kept_run (hsafe : Safe naming system) (hrun : Trace (Step naming) system moves after) :
    Kept logicalDid system after := by
  obtain ⟨-, -, hkept⟩ := hrun.preserves (fun state => Safe naming state ∧
      clearings logicalDid negative.generation system.log ≤
        clearings logicalDid negative.generation state.log ∧
      (clearings logicalDid negative.generation state.log =
        clearings logicalDid negative.generation system.log → Kept logicalDid system state))
    (by
      rintro move - before next hstep ⟨hbefore, hle, hkept⟩
      have heff := effect_step hbefore.sound hstep
      have hmore : clearings logicalDid negative.generation before.log ≤
          clearings logicalDid negative.generation next.log := heff.clearings_le
      refine ⟨hbefore.step hstep, Nat.le_trans hle hmore, fun hsame => ?_⟩
      have hequal : clearings logicalDid negative.generation before.log =
          clearings logicalDid negative.generation system.log := Nat.le_antisymm (hsame ▸ hmore) hle
      have hfirst := hkept hequal
      have hsnd := hbefore.guarded.kept_effect (hfirst.state.trans hlookup)
        (hsame.trans hequal.symm) heff
      exact ⟨hsnd.state.trans hfirst.state, hsnd.served.trans hfirst.served,
        fun hunb => hsnd.unbound (hfirst.unbound hunb)⟩)
    ⟨hsafe, Nat.le_refl _, fun _ => ⟨rfl, rfl, id⟩⟩
  exact hkept hclearings

end Uncleared

end Denied

/-- Nothing of a name is in the map or its indexes. -/
structure Absent (logicalDid : String) (state : RTcpTunnelMapState) : Prop where
  bindings : ∀ tunnel binding, state.bindingByInstance.lookup tunnel = some binding →
    binding.logicalDid ≠ logicalDid
  documents : ∀ tunnel, (state.verifiedEntries logicalDid).lookup tunnel = none
  devices : ∀ dev bucket, state.bindingByCanonicalDev.lookup dev = some bucket →
    bucket.logicalDid ≠ logicalDid

theorem absent_of_unbound {state} (hlinked : state.Linked naming)
    (hunb : state.Unbound logicalDid) : Absent logicalDid state where
  bindings := hunb
  documents := by
    intro tunnel
    refine Option.eq_none_iff_forall_not_mem.mpr fun entry hentry => ?_
    obtain ⟨-, binding, hbind, hname⟩ := hlinked.indexed logicalDid tunnel entry hentry
    exact hunb tunnel binding hbind hname
  devices := by
    rintro dev bucket hbuck rfl
    obtain ⟨hnonempty, hbound⟩ := hlinked.backward dev bucket hbuck
    obtain ⟨tunnel, hmem⟩ := List.exists_mem_of_ne_nil _ hnonempty
    obtain ⟨binding, hbind, rfl⟩ := hbound tunnel hmem
    obtain ⟨other, hother, -, hname⟩ := hlinked.forward tunnel binding hbind
    rw [hbuck] at hother
    cases hother
    exact hunb tunnel binding hbind hname.symm

/-- The tunnels bound to the name before have no place any more, and they stay closed. -/
def Detached (naming : Naming) (logicalDid : String) (before after : RTcpTunnelMap) : Prop :=
  ∀ tunnel binding, before.state.bindingByInstance.lookup tunnel = some binding →
    binding.logicalDid = logicalDid → (∀ place, after.state.tunnels.lookup place ≠ some tunnel) ∧
      ∀ moves later, Trace (Step naming) after moves later → tunnel ∈ later.closed

theorem detached_proceed (hsound : Sound naming system)
    (hcom : system.commit = some (.detach logicalDid))
    (hstep : Step naming system (.proceed exits) after) :
    Detached naming logicalDid system after := by
  obtain ⟨next, hnext, rfl⟩ := Option.map_eq_some_iff.mp hstep
  cases hcom.symm.trans hnext
  rintro tunnel binding hbound rfl
  obtain ⟨hmarked, hplaces⟩ := RTcpTunnelMapState.detached_detach hsound.linked hbound
  refine ⟨hplaces, fun moves later hrun => ?_⟩
  exact hrun.preserves (tunnel ∈ ·.closed) (fun _ _ _ _ hstep hclosed => closed_step hstep hclosed)
    (List.mem_append_right _ hmarked)

def completion (system : RTcpTunnelMap) : TunnelMove → Option (String × AuthorityConfirmationTicket)
  | .completeUnavailable logicalDid ticket _ => some (logicalDid, ticket)
  | .proceed _ =>
    match system.commit with
    | some (.confirm logicalDid ticket _) => some (logicalDid, ticket)
    | some (.deny logicalDid ticket _ _) => some (logicalDid, ticket)
    | _ => none
  | _ => none

theorem table_complete_of_stale (hstale : system.isCurrent logicalDid ticket = false) :
    (system.complete logicalDid ticket confirmation).authorityConfirmations =
      system.authorityConfirmations := by
  rw [complete, hstale]
  rfl

theorem table_of_stale_completion {move} (hstep : Step naming system move after)
    (hcompl : system.completion move = some (logicalDid, ticket))
    (hstale : system.isCurrent logicalDid ticket = false) :
    after.authorityConfirmations = system.authorityConfirmations := by
  cases move with
  | completeUnavailable name ticket completedAt =>
    cases hstep
    cases hcompl
    exact table_complete_of_stale hstale
  | proceed exits =>
    obtain ⟨next, hcom, rfl⟩ := Option.map_eq_some_iff.mp hstep
    simp only [completion, hcom] at hcompl
    split at hcompl
    · rename_i hnext
      cases hnext
      cases hcompl
      rw [proceed, if_neg (Bool.eq_false_iff.mp hstale)]
      exact table_complete_of_stale hstale
    · rename_i hnext
      cases hnext
      cases hcompl
      rw [proceed, if_neg (Bool.eq_false_iff.mp hstale)]
      exact table_complete_of_stale hstale
    · cases hcompl
  | _ => cases hcompl

/-- In every run: a denied name has nothing in the map once its denial has detached
its tunnels, which are closed then, and it stays denied and unserved until that denial is
cleared; stale completions change nothing; and confirmations of a name do not overlap. -/
theorem denied_until_cleared {moves : List TunnelMove}
    (hrun : Trace (Step naming) new moves system) :
    (∀ logicalDid negative,
      system.authorityConfirmations.lookup logicalDid = some (.negative negative) →
        (system.commit = some (.detach logicalDid) ∨ Absent logicalDid system.state) ∧
        (∀ exits after, system.commit = some (.detach logicalDid) →
          Step naming system (.proceed exits) after → Detached naming logicalDid system after) ∧
        ∀ more after, Trace (Step naming) system more after →
          clearings logicalDid negative.generation after.log =
            clearings logicalDid negative.generation system.log →
          after.authorityConfirmations.lookup logicalDid = some (.negative negative) ∧
            served logicalDid after.log = served logicalDid system.log ∧
            (Absent logicalDid system.state → Absent logicalDid after.state)) ∧
      (∀ logicalDid ticket move after, Step naming system move after →
        system.completion move = some (logicalDid, ticket) →
        system.isCurrent logicalDid ticket = false →
          after.authorityConfirmations = system.authorityConfirmations) ∧
      ∀ logicalDid, (inFlight logicalDid system.log).length ≤ 1 := by
  have hsafe := safe_run hrun
  refine ⟨?_, ?_, ?_⟩
  · intro logicalDid negative hlookup
    refine ⟨?_, fun _ _ hcom hstep => detached_proceed hsafe.sound hcom hstep,
      fun more after hmore hclearings => ?_⟩
    · exact (hsafe.guarded.detached logicalDid (isNegative_of_lookup hlookup)).imp_right
        fun hunb => absent_of_unbound hsafe.sound.linked hunb
    have hkept := hsafe.kept_run hlookup hclearings hmore
    have hafter : Safe naming after :=
      hmore.preserves (Safe naming) (fun _ _ _ _ hstep hbefore => hbefore.step hstep) hsafe
    exact ⟨hkept.state.trans hlookup, hkept.served, fun habsent =>
      absent_of_unbound hafter.sound.linked (hkept.unbound habsent.bindings)⟩
  · exact fun logicalDid ticket move after hstep hcompl hstale =>
      table_of_stale_completion hstep hcompl hstale
  · intro logicalDid
    rw [hsafe.guarded.flight]
    unfold pendingTicket
    split <;> simp

def aliceDenied : List TunnelMove :=
  aliceInbound 1 10 ++ [.beginConfirmation "alice" ⟨10, ""⟩ 0 none,
    .enter (.deny "alice" ⟨1, ⟨10, ""⟩⟩ 5 "revoked"), .proceed quiet]

/-- The denial is complete: nothing of `alice` is left, and its tunnel is closed. -/
theorem denied_until_cleared_alice :
    ∃ system after, runs (move twoDevices) new aliceDenied = some system ∧
      move twoDevices system (.proceed quiet) = some after ∧
      after.isNegative "alice" = true ∧ Absent "alice" after.state ∧
      (∀ place, after.state.tunnels.lookup place ≠ some 1) ∧ 1 ∈ after.closed := by
  have hrun : ((runs (move twoDevices) new aliceDenied).bind fun system =>
      (move twoDevices system (.proceed quiet)).map fun after =>
        (system.authorityConfirmations.lookup "alice", system.commit,
          system.state.bindingByInstance.lookup 1,
          after.authorityConfirmations.lookup "alice", after.commit)) =
      some (some (.negative ⟨5, 1, "revoked", some ⟨10, ""⟩⟩), some (.detach "alice"),
        some ⟨"alice", "odd", "odd"⟩,
        some (.negative ⟨5, 1, "revoked", some ⟨10, ""⟩⟩), none) := by decide +kernel
  obtain ⟨system, hsystem, hrest⟩ := Option.bind_eq_some_iff.mp hrun
  obtain ⟨after, hafter, hparts⟩ := Option.map_eq_some_iff.mp hrest
  simp only [Prod.mk.injEq] at hparts
  obtain ⟨hlookup, hcom, hbound, hnext, hdone⟩ := hparts
  have htrace := trace_runs hsystem
  obtain ⟨-, hdetached, -⟩ := (denied_until_cleared htrace).1 "alice" _ hlookup
  obtain ⟨hplaces, hclosed⟩ := hdetached quiet after hcom hafter 1 _ hbound rfl
  obtain ⟨habsent, -⟩ :=
    (denied_until_cleared (htrace.append (.single hafter))).1 "alice" _ hnext
  refine ⟨system, after, hsystem, hafter, isNegative_of_lookup hnext,
    habsent.resolve_left fun hpend => ?_, hplaces, hclosed [] after (.nil after)⟩
  rw [hdone] at hpend
  cases hpend

/-- Between the two sections of a denial the name is denied, and its tunnel is
still in the map, live and bound to it. -/
theorem denied_name_still_bound : ∃ system, runs (move twoDevices) new aliceDenied = some system ∧
      system.isNegative "alice" = true ∧ system.closed = [] ∧
      system.state.tunnels.lookup "odd" = some 1 ∧
      system.state.bindingByInstance.lookup 1 = some ⟨"alice", "odd", "odd"⟩ := by
  have hrun : (runs (move twoDevices) new aliceDenied).map (fun system =>
      (system.isNegative "alice", system.closed, system.state.tunnels.lookup "odd",
        system.state.bindingByInstance.lookup 1)) =
      some (true, [], some 1, some ⟨"alice", "odd", "odd"⟩) := by decide +kernel
  obtain ⟨system, hsystem, hparts⟩ := Option.map_eq_some_iff.mp hrun
  simp only [Prod.mk.injEq] at hparts
  exact ⟨system, hsystem, hparts⟩

end RTcpTunnelMap

end CyfsGateway.Rtcp
