import CyfsGateway.Core.Reverting

/-!
# Traces of labelled transition systems

A trace is a finite sequence of steps together with the labels they carry.
The rules below turn a fact about one step into a fact about a whole trace:
an invariant, a relation between the two ends, or a counter that every label
advances by its own weight.
-/

namespace CyfsGateway.Transition

open Reverting

variable {State Label : Type}

/-- `Trace Step first labels last`: the labels of consecutive steps from
`first` to `last`. -/
inductive Trace (Step : State → Label → State → Prop) : State → List Label → State → Prop
  | nil (state : State) : Trace Step state [] state
  | cons {first middle last : State} {label : Label} {labels : List Label} :
      Step first label middle → Trace Step middle labels last →
        Trace Step first (label :: labels) last

variable {Step : State → Label → State → Prop} {first last : State} {label : Label}
  {labels : List Label}

@[simp]
theorem trace_nil_iff : Trace Step first [] last ↔ first = last := by
  constructor
  · rintro ⟨⟩
    rfl
  · rintro rfl
    exact .nil first

theorem trace_cons_iff : Trace Step first (label :: labels) last ↔
      ∃ middle, Step first label middle ∧ Trace Step middle labels last := by
  constructor
  · rintro (_ | ⟨hstep, hrest⟩)
    exact ⟨_, hstep, hrest⟩
  · rintro ⟨_, hstep, hrest⟩
    exact .cons hstep hrest

theorem Trace.single (hstep : Step first label last) : Trace Step first [label] last :=
  .cons hstep (.nil last)

theorem Trace.append (hleft : Trace Step first labels middle)
    (hright : Trace Step middle more last) :
    Trace Step first (labels ++ more) last := by
  induction hleft with
  | nil => exact hright
  | cons hstep _ ih => exact .cons hstep (ih hright)

theorem trace_append_iff : Trace Step first (labels ++ more) last ↔
      ∃ middle, Trace Step first labels middle ∧ Trace Step middle more last := by
  constructor
  · intro htrace
    induction labels generalizing first with
    | nil => exact ⟨first, .nil first, htrace⟩
    | cons label labels ih =>
      obtain ⟨next, hstep, hrest⟩ := trace_cons_iff.mp htrace
      obtain ⟨middle, hleft, hright⟩ := ih hrest
      exact ⟨middle, .cons hstep hleft, hright⟩
  · rintro ⟨_, hleft, hright⟩
    exact hleft.append hright

section Runs

variable (htrace : Trace Step first labels last)

include htrace

theorem Trace.mono (hstep : ∀ label ∈ labels, ∀ before after, Step before label after →
      Other before label after) : Trace Other first labels last := by
  induction htrace with
  | nil state => exact .nil state
  | cons hhead _ ih =>
    exact .cons (hstep _ List.mem_cons_self _ _ hhead)
      (ih fun other hother => hstep other (List.mem_cons_of_mem _ hother))

/-- What every step preserves, every trace preserves.  A step may use that its
label occurs in the trace. -/
theorem Trace.preserves (Invariant : State → Prop)
    (hstep : ∀ label ∈ labels, ∀ {before after}, Step before label after →
      Invariant before → Invariant after) (hfirst : Invariant first) : Invariant last := by
  induction htrace with
  | nil => exact hfirst
  | cons hhead _ ih =>
    have hmid := hstep _ List.mem_cons_self hhead hfirst
    exact ih (fun other hother => hstep other (List.mem_cons_of_mem _ hother)) hmid

/-- A reflexive and transitive relation that holds across every step holds
across the trace. -/
theorem Trace.relates (Related : State → State → Prop) (hrefl : ∀ state, Related state state)
    (htrans : ∀ {left middle right}, Related left middle → Related middle right →
      Related left right) (hstep : ∀ label ∈ labels, ∀ {before after}, Step before label after →
      Related before after) : Related first last :=
  htrace.preserves (fun state => Related first state)
    (fun label hlabel _ _ hnext hsofar => htrans hsofar (hstep label hlabel hnext))
    (hrefl first)

/-- A relation to an abstract state that moves along with every step holds at the end of a
run, with the abstract state that the labels of the run lead to. -/
theorem Trace.refines {Abstract : Type} (Refines : State → Abstract → Prop)
    (next : Abstract → Label → Abstract)
    (hstep : ∀ label ∈ labels, ∀ {before after model}, Step before label after →
      Refines before model → Refines after (next model label)) {model}
    (hfirst : Refines first model) :
    Refines last (labels.foldl next model) := by
  induction htrace generalizing model with
  | nil => exact hfirst
  | cons hhead _ ih =>
    have hmid := hstep _ List.mem_cons_self hhead hfirst
    exact ih (fun other hother => hstep other (List.mem_cons_of_mem _ hother)) hmid

/-- A counter that each step advances by the weight of its label. -/
theorem Trace.counts (measure : State → Nat) (weight : Label → Nat)
    (hstep : ∀ label ∈ labels, ∀ {before after}, Step before label after →
      measure after = measure before + weight label) :
    measure last = measure first + (labels.map weight).sum := by
  induction htrace with
  | nil => simp
  | cons hhead _ ih =>
    have hrest := ih fun other hother => hstep other (List.mem_cons_of_mem _ hother)
    rw [hrest, hstep _ List.mem_cons_self hhead, List.map_cons, List.sum_cons, Nat.add_assoc]

/-- If an observation differs between the ends of a trace, some step of the
trace gave it its final value. -/
theorem Trace.exists_last_change {Value : Type}
    (observe : State → Value) (hchanged : observe first ≠ observe last) :
    ∃ earlier label later before after, labels = earlier ++ label :: later ∧
      Trace Step first earlier before ∧ Step before label after ∧
      Trace Step after later last ∧ observe before ≠ observe last ∧
      observe after = observe last := by
  induction htrace with
  | nil state => exact absurd rfl hchanged
  | @cons first middle last label labels hstep hrest ih =>
    by_cases hmid : observe middle = observe last
    · exact ⟨[], label, labels, first, middle, rfl, .nil first, hstep, hrest, hchanged, hmid⟩
    obtain ⟨earlier, chosen, later, before, after, rfl, hearlier, hchosen, hlater,
      hbefore, hafter⟩ := ih hmid
    exact ⟨label :: earlier, chosen, later, before, after, rfl, .cons hstep hearlier,
      hchosen, hlater, hbefore, hafter⟩

end Runs

/-- The state behind consecutive moves of a system whose steps are a function. -/
def runs (move : State → Label → Option State) (state : State) : List Label → Option State
  | [] => some state
  | label :: rest => (move state label).bind fun next => runs move next rest

theorem trace_runs (hruns : runs move first labels = some last) :
    Trace (fun before label after => move before label = some after) first labels last := by
  induction labels generalizing first with
  | nil =>
    cases hruns
    exact .nil _
  | cons label rest ih =>
    obtain ⟨next, hmove, hrest⟩ := Option.bind_eq_some_iff.mp hruns
    exact .cons hmove (ih hrest)

/-- A loop whose iterations are traces is the concatenation of them. -/
theorem forEach_trace {Error Item : Type} {body : Item → Exec State Error Unit}
    {items : List Item} {Performs : Item → List Label → Prop}
    (hbody : ∀ item ∈ items, ∀ {before after}, body item before = .ok ((), after) →
        ∃ labels, Performs item labels ∧ Trace Step before labels after)
    {result : Unit} (hrun : forEach body items first = .ok (result, last)) :
    ∃ parts, List.Forall₂ Performs items parts ∧ Trace Step first parts.flatten last := by
  induction items generalizing first with
  | nil =>
    obtain ⟨-, rfl⟩ := pure_ok_iff.mp hrun
    exact ⟨[], .nil, .nil first⟩
  | cons item rest ih =>
    obtain ⟨middle, hitem, hrest⟩ := forEach_cons_ok_iff.mp hrun
    obtain ⟨labels, hperf, hleft⟩ := hbody item List.mem_cons_self hitem
    obtain ⟨parts, hparts, hright⟩ :=
      ih (fun other hother => hbody other (List.mem_cons_of_mem _ hother)) hrest
    exact ⟨labels :: parts, .cons hperf hparts, hleft.append hright⟩

end CyfsGateway.Transition
