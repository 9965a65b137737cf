import CyfsGateway.Core.Transition

/-!
# Concurrent tasks

A task is a program that stops at every action and goes on with the answer; a
system interleaves any number of tasks over one world and may lose them all at
any moment.  What an action does is decided by the world and a choice of the
environment.  `Safe` is a rely-guarantee triple: whatever the other tasks do in
between, every action of the task keeps the invariant and moves the world
forward, and the value it ends with satisfies the postcondition.
-/

namespace CyfsGateway.Tasks

open Transition Function

inductive Task {Action : Type} (Answer : Action → Type) (Value : Type) : Type
  | done (value : Value)
  | act (action : Action) (next : Answer action → Task Answer Value)

variable {Action Choice World Call Value Next Error Mode : Type} {Answer : Action → Type}

def Task.bind : Task Answer Value → (Value → Task Answer Next) → Task Answer Next
  | .done value, next => next value
  | .act action rest, next => .act action fun answer => (rest answer).bind next

instance : Monad (Task Answer) where
  pure := .done
  bind := .bind

variable (action : Action)

def perform : Task Answer (Answer action) := .act action .done

@[simp]
theorem bind_done (value : Value) (next : Value → Task Answer Next) :
    ((.done value : Task Answer Value) >>= next) = next value := rfl

@[simp]
theorem bind_act (rest : Answer action → Task Answer Value) (next : Value → Task Answer Next) :
    (.act action rest >>= next) = .act action fun answer => rest answer >>= next := rfl

@[simp]
theorem bind_perform (next : Answer action → Task Answer Next) :
    (perform action >>= next) = .act action next := rfl

abbrev Program (Answer : Action → Type) (Error Value : Type) := ExceptT Error (Task Answer) Value

def effect : Program Answer Error (Answer action) := ExceptT.lift (perform action)

def fallible (task : Task Answer (Except Error Value)) : Program Answer Error Value :=
  ExceptT.mk task

def computed (result : Except Error Value) : Program Answer Error Value := ExceptT.mk (pure result)

def attempt {Other : Type} (program : Program Answer Error Value) :
    Program Answer Other (Except Error Value) := ExceptT.lift program.run

def mapError {Other : Type} (convert : Error → Other) (program : Program Answer Error Value) :
    Program Answer Other Value :=
  ExceptT.mk (program.run >>= fun outcome => pure (outcome.mapError convert))

/-- What an action answers and the world it leaves; `none` if the choice is not
open to the environment. -/
abbrev Semantics (Answer : Action → Type) (Choice World : Type) :=
  (action : Action) → Choice → World → Option (Answer action × World)

def Task.step (semantics : Semantics Answer Choice World) (choice : Choice) (world : World) :
    Task Answer Value → Option (Task Answer Value × World)
  | .done _ => none
  | .act action next => (semantics action choice world).map fun result => (next result.1, result.2)

structure Job (Call : Type) {Action : Type} (Answer : Action → Type) (Value : Type) where
  call : Call
  task : Task Answer Value

structure System (Call : Type) {Action : Type} (Answer : Action → Type) (Value World : Type) where
  world : World
  jobs : List (Job Call Answer Value)

inductive Move (Call Choice : Type)
  | start (call : Call)
  /-- One action of one job. -/
  | step (index : Nat) (choice : Choice)
  /-- The process stops and starts again: all jobs are lost. -/
  | stop

/-- The code a system runs, what its actions do and what survives a stop.  The program of
a call is a tree of actions; what an action answers depends on a choice of the
environment. -/
structure Platform (Call : Type) {Action : Type} (Answer : Action → Type)
    (Value Choice World : Type) where
  program : Call → Task Answer Value
  semantics : Semantics Answer Choice World
  reboot : World → World

variable (platform : Platform Call Answer Value Choice World)

def System.move :
    Move Call Choice → System Call Answer Value World → Option (System Call Answer Value World)
  | .start call, system =>
    some { system with jobs := system.jobs ++ [⟨call, platform.program call⟩] }
  | .step index choice, system => do
      let job ← system.jobs[index]?
      let (task, world) ← job.task.step platform.semantics choice system.world
      some { world, jobs := system.jobs.set index { job with task } }
  | .stop, system => some { world := platform.reboot system.world, jobs := [] }

variable (Condition : World → Action → Choice → Prop) (before : System Call Answer Value World)

def SystemStep (move : Move Call Choice)
    (after : System Call Answer Value World) : Prop := before.move platform move = some after

def System.action? (system : System Call Answer Value World) (index : Nat) : Option Action :=
  system.jobs[index]?.bind fun job =>
    match job.task with
    | .act action _ => some action
    | .done _ => none

/-- A condition on the world, the action and the choice of a move. -/
def Meets : Move Call Choice → Prop
  | .step index choice => ∀ action ∈ before.action? index, Condition before.world action choice
  | .start _ | .stop => True

instance (Condition : World → Action → Choice → Prop)
    [∀ world action choice, Decidable (Condition world action choice)]
    (before : System Call Answer Value World) :
    (move : Move Call Choice) → Decidable (Meets Condition before move)
  | .step index choice =>
    inferInstanceAs (Decidable (∀ action ∈ before.action? index,
      Condition before.world action choice))
  | .start _ | .stop => inferInstanceAs (Decidable True)

def StepMeeting (move : Move Call Choice) (after : System Call Answer Value World) : Prop :=
  SystemStep platform before move after ∧ Meets Condition before move

def System.moves (platform : Platform Call Answer Value Choice World)
    (moves : List (Move Call Choice)) (system : System Call Answer Value World) :
    Option (System Call Answer Value World) :=
  moves.foldlM (fun reached move => reached.move platform move) system

/-- The system after a list of moves, if all of them are possible and meet a
condition. -/
def System.movesMeeting [∀ world action choice, Decidable (Condition world action choice)]
    (moves : List (Move Call Choice)) (system : System Call Answer Value World) :
    Option (System Call Answer Value World) :=
  moves.foldlM (fun reached move =>
    if Meets Condition reached move then reached.move platform move else none) system

theorem trace_movesMeeting {platform : Platform Call Answer Value Choice World}
    {Condition : World → Action → Choice → Prop}
    [∀ world action choice, Decidable (Condition world action choice)]
    {moves : List (Move Call Choice)} {system last : System Call Answer Value World}
    (hmoves : system.movesMeeting platform Condition moves = some last) :
    Trace (StepMeeting platform Condition) system moves last := by
  induction moves generalizing system with
  | nil =>
    obtain rfl := Option.some.inj hmoves
    exact .nil system
  | cons move moves ih =>
    rw [System.movesMeeting, List.foldlM_cons, Option.bind_eq_bind,
      Option.bind_eq_some_iff] at hmoves
    obtain ⟨middle, hmove, hrest⟩ := hmoves
    split at hmove
    case isTrue hmeets => exact .cons ⟨hmove, hmeets⟩ (ih hrest)
    case isFalse => cases hmove

theorem stepMeeting_mono {platform : Platform Call Answer Value Choice World}
    {Condition Weaker : World → Action → Choice → Prop} {move : Move Call Choice}
    {before after : System Call Answer Value World}
    (hstep : StepMeeting platform Condition before move after)
    (hweaker : ∀ {world action choice}, Condition world action choice →
      Weaker world action choice) : StepMeeting platform Weaker before move after := by
  refine ⟨hstep.1, ?_⟩
  cases move with
  | step index choice => exact fun action haction => hweaker (hstep.2 action haction)
  | start call | stop => exact trivial

/-! ## Rely and guarantee -/

/-- What the tasks of a system rely on and guarantee.  A task is in a mode, which its
own actions change, for instance by taking a lock.  `Rely` is what other tasks may do
between two of its actions, `Guarantee` what one of its actions does; `Admits`
restricts the choices of the environment. -/
structure Rules (Action Choice World Mode : Type) where
  Invariant : World → Prop
  Admits : World → Action → Choice → World → Prop
  Leads : World → World → Prop
  Rely : Mode → World → World → Prop
  Guarantee : Mode → World → World → Prop
  turn : Mode → Action → Mode
  refl : ∀ world, Leads world world
  trans : ∀ {first second third}, Leads first second → Leads second third → Leads first third
  rely_refl : ∀ mode world, Rely mode world world
  rely_trans : ∀ {mode first second third}, Rely mode first second →
    Rely mode second third → Rely mode first third
  rely_leads : ∀ {mode world after}, Rely mode world after → Leads world after
  guarantee_leads : ∀ {mode world after}, Guarantee mode world after → Leads world after

section Safety

variable (semantics : Semantics Answer Choice World) (rules : Rules Action Choice World Mode)

/-- One action keeps the rules and leads to `Then`, for every choice the environment may
make. -/
def Rules.Keeps (mode : Mode) (action : Action) (now : World)
    (Then : Answer action → World → Prop) : Prop :=
  ∀ choice answer after, rules.Admits now action choice after →
    semantics action choice now = some (answer, after) →
    rules.Invariant after ∧ rules.Guarantee mode now after ∧ Then answer after

/-- From a mode, the task keeps the rules and ends in mode `finish` with `Post`.  Before
each of its actions other tasks may change the world as the mode allows. -/
def Safe (finish : Mode) (Post : World → Value → Prop) : Mode → Task Answer Value → World → Prop
  | mode, .done value, world => mode = finish ∧ Post world value
  | mode, .act action next, world =>
    ∀ now, rules.Rely mode world now → rules.Invariant now →
      rules.Keeps semantics mode action now fun answer after =>
        Safe finish Post (rules.turn mode action) (next answer) after

def Rules.Stable (mode : Mode) (Post : World → Value → Prop) : Prop :=
  ∀ {world after value}, rules.Rely mode world after → Post world value → Post after value

end Safety

variable {semantics : Semantics Answer Choice World} {rules : Rules Action Choice World Mode}
  {world after : World} {task : Task Answer Value} {mode : Mode}

theorem Safe.later (hstable : rules.Stable finish Post)
    (hsafe : Safe semantics rules finish Post mode task world)
    (hrely : rules.Rely mode world after) :
    Safe semantics rules finish Post mode task after := by
  cases task with
  | done value =>
    obtain ⟨rfl, hpost⟩ := hsafe
    exact ⟨rfl, hstable hrely hpost⟩
  | act action next => exact fun now hnow => hsafe now (rules.rely_trans hrely hnow)

theorem Rules.leads_of_action (hrely : rules.Rely mode world now)
    (hguar : rules.Guarantee mode now after) : rules.Leads world after :=
  rules.trans (rules.rely_leads hrely) (rules.guarantee_leads hguar)

theorem Safe.mono (hsafe : Safe semantics rules finish Middle mode task world)
    (hpost : ∀ after value, rules.Leads world after → Middle after value → Post after value) :
    Safe semantics rules finish Post mode task world := by
  induction task generalizing world mode with
  | done value => exact ⟨hsafe.1, hpost world value (rules.refl world) hsafe.2⟩
  | act action next ih =>
    intro now hrely hinv choice answer after hadmits hact
    obtain ⟨hafter, hguar, hnext⟩ := hsafe now hrely hinv choice answer after hadmits hact
    exact ⟨hafter, hguar, ih answer hnext fun last value hlast =>
      hpost last value (rules.trans (rules.leads_of_action hrely hguar) hlast)⟩

theorem safe_bind (htask : Safe semantics rules middle Middle mode task world)
    (hnext : ∀ value after, rules.Leads world after → Middle after value →
      Safe semantics rules finish Last middle (next value) after) :
    Safe semantics rules finish Last mode (task >>= next) world := by
  induction task generalizing world mode with
  | done value =>
    obtain ⟨rfl, hmid⟩ := htask
    exact hnext value world (rules.refl world) hmid
  | act action rest ih =>
    intro now hrely hinv choice answer after hadmits hact
    obtain ⟨hafter, hguar, hrest⟩ := htask now hrely hinv choice answer after hadmits hact
    exact ⟨hafter, hguar, ih answer hrest fun value last hlast =>
      hnext value last (rules.trans (rules.leads_of_action hrely hguar) hlast)⟩

theorem safe_perform {action After}
    (hkeeps : ∀ now, rules.Rely mode world now → rules.Invariant now →
      rules.Keeps semantics mode action now fun answer after => After after answer) :
    Safe semantics rules (rules.turn mode action) After mode (perform action) world := by
  intro now hrely hinv choice answer after hadmits hact
  obtain ⟨hafter, hguar, hpost⟩ := hkeeps now hrely hinv choice answer after hadmits hact
  exact ⟨hafter, hguar, rfl, hpost⟩

/-- A postcondition for each of the two ways a program ends. -/
def Outcome (Good : World → Value → Prop) (Bad : World → Error → Prop) (world : World) :
    Except Error Value → Prop
  | .ok value => Good world value
  | .error error => Bad world error

/-- The program is safe and stays in its mode; its values satisfy `Good` and its
errors `Bad`. -/
abbrev Runs (semantics : Semantics Answer Choice World) (rules : Rules Action Choice World Mode)
    (mode : Mode) (Good : World → Value → Prop) (Bad : World → Error → Prop)
    (program : Program Answer Error Value) (world : World) : Prop :=
  Safe semantics rules mode (Outcome Good Bad) mode program.run world

section Programs

variable {Good : World → Value → Prop} {Bad : World → Error → Prop}
  {program : Program Answer Error Value}

theorem runs_pure (hgood : Good world value) :
    Runs semantics rules mode Good Bad (pure value) world := ⟨rfl, hgood⟩

theorem runs_throw (hbad : Bad world error) :
    Runs semantics rules mode Good Bad (throw error) world := ⟨rfl, hbad⟩

theorem runs_ite [Decidable condition]
    (hthen : condition → Runs semantics rules mode Good Bad program world)
    (helse : ¬ condition → Runs semantics rules mode Good Bad other world) :
    Runs semantics rules mode Good Bad (if condition then program else other) world := by
  by_cases hcond : condition
  · rw [if_pos hcond]
    exact hthen hcond
  · rw [if_neg hcond]
    exact helse hcond

theorem runs_bind (hfirst : Runs semantics rules mode Good Bad program world)
    (hnext : ∀ value after, rules.Leads world after → Good after value →
      Runs semantics rules mode Finally Bad (next value) after) :
    Runs semantics rules mode Finally Bad (program >>= next) world := by
  refine safe_bind hfirst fun outcome after hleads hout => ?_
  cases outcome with
  | ok value => exact hnext value after hleads hout
  | error error => exact ⟨rfl, hout⟩

theorem Runs.weaken (hruns : Runs semantics rules mode Better Worse program world)
    (hgood : ∀ after value, rules.Leads world after → Better after value → Good after value)
    (hbad : ∀ after error, rules.Leads world after → Worse after error → Bad after error) :
    Runs semantics rules mode Good Bad program world := by
  refine Safe.mono hruns fun after outcome hleads hout => ?_
  cases outcome with
  | ok value => exact hgood after value hleads hout
  | error error => exact hbad after error hleads hout

theorem safe_of_runs {Ends}
    (hruns : Runs semantics rules mode (fun after value => Ends after (.ok value))
      (fun after error => Ends after (.error error)) program world) :
    Safe semantics rules mode Ends mode program.run world := by
  refine Safe.mono hruns fun after outcome _ hout => ?_
  cases outcome with
  | ok value | error error => exact hout

theorem runs_effect {action After}
    (hsafe : Safe semantics rules mode After mode (perform action) world) :
    Runs semantics rules mode After Bad (effect action) world :=
  safe_bind hsafe fun _ _ _ hafter => ⟨rfl, hafter⟩

theorem runs_fallible {task}
    (hsafe : Safe semantics rules mode (Outcome Good Bad) mode task world) :
    Runs semantics rules mode Good Bad (fallible task) world := hsafe

theorem runs_computed (hres : Outcome Good Bad world result) :
    Runs semantics rules mode Good Bad (computed result) world := ⟨rfl, hres⟩

theorem runs_attempt {Other : Type} {Spoilt : World → Other → Prop}
    (hruns : Runs semantics rules mode Good Bad program world) :
    Runs semantics rules mode (Outcome Good Bad) Spoilt (attempt program) world :=
  safe_bind hruns fun _ _ _ hout => ⟨rfl, hout⟩

theorem runs_mapError {Other : Type} {convert : Error → Other} {Spoilt : World → Other → Prop}
    (hruns : Runs semantics rules mode Good (fun after error => Spoilt after (convert error))
      program world) :
    Runs semantics rules mode Good Spoilt (mapError convert program) world := by
  refine safe_bind hruns fun outcome after _ hout => ?_
  cases outcome with
  | ok value | error error => exact ⟨rfl, hout⟩

end Programs

def Task.Only (Allowed : Action → Prop) : Task Answer Value → Prop
  | .done _ => True
  | .act action next => Allowed action ∧ ∀ answer, (next answer).Only Allowed

section Restricted

variable {Allowed : Action → Prop}

theorem only_bind {next : Value → Task Answer Next} (htask : task.Only Allowed)
    (hnext : ∀ value, (next value).Only Allowed) : (task >>= next).Only Allowed := by
  induction task with
  | done value => exact hnext value
  | act action rest ih => exact ⟨htask.1, fun answer => ih answer (htask.2 answer)⟩

variable {program : Program Answer Error Value}

theorem only_try {next : Value → Program Answer Error Next} (hprog : program.run.Only Allowed)
    (hnext : ∀ value, (next value).run.Only Allowed) : (program >>= next).run.Only Allowed := by
  refine only_bind hprog fun outcome => ?_
  cases outcome with
  | ok value => exact hnext value
  | error error => exact trivial

theorem only_ite [Decidable condition] {program other : Task Answer Value}
    (hthen : program.Only Allowed) (helse : other.Only Allowed) :
    (if condition then program else other).Only Allowed := by
  by_cases hcond : condition
  · rwa [if_pos hcond]
  · rwa [if_neg hcond]

theorem only_mapError {Other : Type} {convert : Error → Other} (hprog : program.run.Only Allowed) :
    (mapError convert program).run.Only Allowed := only_bind hprog fun _ => trivial

theorem only_attempt {Other : Type} (hprog : program.run.Only Allowed) :
    (attempt program : Program Answer Other (Except Error Value)).run.Only Allowed :=
  only_bind hprog fun _ => trivial

theorem only_perform (action : Action) (hallow : Allowed action) :
    (perform action : Task Answer (Answer action)).Only Allowed := ⟨hallow, fun _ => trivial⟩

theorem only_effect (action : Action) (hallow : Allowed action) :
    (effect action : Program Answer Error (Answer action)).run.Only Allowed :=
  ⟨hallow, fun _ => trivial⟩

theorem only_fallible {task : Task Answer (Except Error Value)} (htask : task.Only Allowed) :
    (fallible task).run.Only Allowed := htask

theorem only_computed (result : Except Error Value) :
    (computed result : Program Answer Error Value).run.Only Allowed := trivial

theorem Task.Only.mono {Wider} (htask : task.Only Allowed)
    (hwider : ∀ action, Allowed action → Wider action) : task.Only Wider := by
  induction task with
  | done value => trivial
  | act action next ih => exact ⟨hwider action htask.1, fun answer => ih answer (htask.2 answer)⟩

/-- A fact that neither the other tasks nor the allowed actions break. -/
theorem safe_keeping {Fact : World → Prop} (hworld : Fact world)
    (hrely : ∀ {world now}, rules.Rely mode world now → Fact world → Fact now)
    (hturn : ∀ action, Allowed action → rules.turn mode action = mode)
    (hkeeps : ∀ action now, Allowed action → rules.Invariant now → Fact now →
      rules.Keeps semantics mode action now fun _ after => Fact after)
    (htask : task.Only Allowed) :
    Safe semantics rules mode (fun after _ => Fact after) mode task world := by
  induction task generalizing world with
  | done value => exact ⟨rfl, hworld⟩
  | act action next ih =>
    intro now hnow hinv choice answer after hadmits hact
    obtain ⟨hafter, hguar, hfact⟩ := hkeeps action now htask.1 hinv (hrely hnow hworld)
      choice answer after hadmits hact
    refine ⟨hafter, hguar, ?_⟩
    rw [hturn action htask.1]
    exact ih answer hfact (htask.2 answer)

theorem safe_only (hturn : ∀ action, Allowed action → rules.turn mode action = mode)
    (hkeeps : ∀ action now, Allowed action → rules.Invariant now →
      rules.Keeps semantics mode action now fun _ _ => True)
    (hpost : ∀ after value, Post after value) (htask : task.Only Allowed) :
    Safe semantics rules mode Post mode task world := by
  have hkept : Safe semantics rules mode (fun _ _ => True) mode task world :=
    safe_keeping trivial (fun _ _ => trivial) hturn
      (fun action now hallow hinv _ => hkeeps action now hallow hinv) htask
  exact hkept.mono fun after value _ _ => hpost after value

end Restricted

/-! ## Soundness -/

/-- Modes that can meet.  What an action guarantees is what the other tasks rely on,
and no action brings two tasks into modes that exclude each other. -/
structure Discipline (semantics : Semantics Answer Choice World)
    (rules : Rules Action Choice World Mode) where
  idle : Mode
  Compatible : Mode → Mode → Prop
  /-- What a task in this mode knows of the world. -/
  Owns : Mode → World → Prop
  symm : ∀ {mode other}, Compatible mode other → Compatible other mode
  idle_compatible : ∀ mode, Compatible idle mode
  idle_owns : ∀ world, Owns idle world
  guarantee_rely : ∀ {mode other world after}, Compatible mode other →
    rules.Guarantee mode world after → rules.Rely other world after
  owns_turn : ∀ {mode action choice answer world after}, Owns mode world →
    semantics action choice world = some (answer, after) →
    rules.Guarantee mode world after → Owns (rules.turn mode action) after
  owns_other : ∀ {mode other world after}, Owns other world → Compatible mode other →
    rules.Guarantee mode world after → Owns other after
  compatible_turn : ∀ {mode other action choice answer world after}, Owns other world →
    Compatible mode other → semantics action choice world = some (answer, after) →
    Compatible (rules.turn mode action) other

section Soundness

variable (platform : Platform Call Answer Value Choice World)
  (rules : Rules Action Choice World Mode) (Ends : Call → World → Value → Prop)

def AdmitsMove (before : System Call Answer Value World) :
    Move Call Choice → System Call Answer Value World → Prop
  | .step index choice, after => ∀ action ∈ before.action? index,
      rules.Admits before.world action choice after.world
  | .start _, _ | .stop, _ => True

def AdmittedStep (before : System Call Answer Value World) (move : Move Call Choice)
    (after : System Call Answer Value World) : Prop :=
  SystemStep platform before move after ∧ AdmitsMove rules before move after

theorem admitted_of_meets {Condition before after move}
    (hstep : StepMeeting platform Condition before move after)
    (hadmits : ∀ action choice, Condition before.world action choice →
      rules.Admits before.world action choice after.world) :
    AdmittedStep platform rules before move after := by
  refine ⟨hstep.1, ?_⟩
  cases move with
  | step index choice => exact fun action haction => hadmits action choice (hstep.2 action haction)
  | start call | stop => exact trivial

variable {rules} (discipline : Discipline platform.semantics rules)

/-- The invariant holds and every job is safe from here on, each in a mode that the
modes of the others allow. -/
structure SoundIn (modes : Nat → Mode) (system : System Call Answer Value World) : Prop where
  invariant : rules.Invariant system.world
  compatible : ∀ first second, first ≠ second → discipline.Compatible (modes first) (modes second)
  owns : ∀ index, discipline.Owns (modes index) system.world
  waiting : ∀ index, system.jobs.length ≤ index → modes index = discipline.idle
  jobs : ∀ index job, system.jobs[index]? = some job →
    Safe platform.semantics rules discipline.idle (Ends job.call) (modes index) job.task
      system.world

def Sound (system : System Call Answer Value World) : Prop :=
  ∃ modes, SoundIn platform Ends discipline modes system

end Soundness

section SoundRuns

variable {platform : Platform Call Answer Value Choice World}
  {discipline : Discipline platform.semantics rules}
  {Ends : Call → World → Value → Prop} {system last : System Call Answer Value World}
  {move : Move Call Choice} {moves : List (Move Call Choice)} {modes : Nat → Mode}

theorem Sound.invariant (hsound : Sound platform Ends discipline system) :
    rules.Invariant system.world := by
  obtain ⟨_, hmodes⟩ := hsound
  exact hmodes.invariant

theorem Sound.finished (hsound : Sound platform Ends discipline system)
    (hjob : job ∈ system.jobs) (htask : job.task = .done value) :
    Ends job.call system.world value := by
  obtain ⟨_, hmodes⟩ := hsound
  obtain ⟨index, hindex⟩ := List.mem_iff_getElem?.mp hjob
  have hsafe := hmodes.jobs index job hindex
  rw [htask] at hsafe
  exact hsafe.2

theorem compatible_update {index action choice answer}
    (hsound : SoundIn platform Ends discipline modes system)
    (hact : platform.semantics action choice system.world = some (answer, after))
    (first second : Nat) (hne : first ≠ second) :
    discipline.Compatible (update modes index (rules.turn (modes index) action) first)
      (update modes index (rules.turn (modes index) action) second) := by
  have hturn : ∀ other, other ≠ index →
      discipline.Compatible (rules.turn (modes index) action) (modes other) := fun other hother =>
    discipline.compatible_turn (hsound.owns other) (hsound.compatible _ _ hother.symm) hact
  by_cases hfirst : first = index
  · subst hfirst
    rw [update_self, update_of_ne hne.symm]
    exact hturn second hne.symm
  · by_cases hsnd : second = index
    · subst hsnd
      rw [update_self, update_of_ne hne]
      exact discipline.symm (hturn first hne)
    · rw [update_of_ne hfirst, update_of_ne hsnd]
      exact hsound.compatible first second hne

theorem sound_step {index choice} (hstable : ∀ call, rules.Stable discipline.idle (Ends call))
    (hsound : Sound platform Ends discipline system)
    (hstep : AdmittedStep platform rules system (.step index choice) last) :
    Sound platform Ends discipline last ∧ ∃ mode, rules.Guarantee mode system.world last.world := by
  obtain ⟨modes, hsound⟩ := hsound
  obtain ⟨hmove, hadmits⟩ := hstep
  simp only [SystemStep, System.move, Option.bind_eq_bind, Option.bind_eq_some_iff] at hmove
  obtain ⟨job, hjob, ⟨task, world⟩, htask, hlast⟩ := hmove
  obtain rfl := Option.some.inj hlast
  cases hbody : job.task with
  | done value =>
    rw [hbody] at htask
    cases htask
  | act action next =>
    rw [hbody, Task.step, Option.map_eq_some_iff] at htask
    obtain ⟨⟨answer, after⟩, hact, hnext⟩ := htask
    obtain ⟨rfl, rfl⟩ := hnext
    have hsafe := hsound.jobs index job hjob
    rw [hbody] at hsafe
    obtain ⟨hinv, hguar, hrest⟩ := hsafe system.world (rules.rely_refl _ _)
      hsound.invariant choice answer after
      (hadmits action (by simp [System.action?, hjob, hbody])) hact
    have hothers : ∀ other, other ≠ index → discipline.Compatible (modes index) (modes other) :=
      fun other hother => hsound.compatible index other hother.symm
    refine ⟨⟨update modes index (rules.turn (modes index) action), hinv,
      compatible_update hsound hact, fun other => ?_, fun other hother => ?_,
      fun other found hfound => ?_⟩, modes index, hguar⟩
    · by_cases hother : other = index
      · subst hother
        rw [update_self]
        exact discipline.owns_turn (hsound.owns other) hact hguar
      · rw [update_of_ne hother]
        exact discipline.owns_other (hsound.owns other) (hothers other hother) hguar
    · rw [List.length_set] at hother
      have hindex : index < system.jobs.length := (List.getElem?_eq_some_iff.mp hjob).1
      rw [update_of_ne (by omega)]
      exact hsound.waiting other hother
    · by_cases hother : other = index
      · subst hother
        rw [List.getElem?_set_self (List.getElem?_eq_some_iff.mp hjob).1] at hfound
        obtain rfl := Option.some.inj hfound
        rw [update_self]
        exact hrest
      · rw [List.getElem?_set_ne (Ne.symm hother)] at hfound
        rw [update_of_ne hother]
        exact (hsound.jobs other found hfound).later (hstable found.call)
          (discipline.guarantee_rely (hothers other hother) hguar)

theorem sound_start {call}
    (hprog : ∀ call world, Safe platform.semantics rules discipline.idle (Ends call)
      discipline.idle (platform.program call) world)
    (hsound : Sound platform Ends discipline system) :
    Sound platform Ends discipline
      { system with jobs := system.jobs ++ [⟨call, platform.program call⟩] } := by
  obtain ⟨modes, hsound⟩ := hsound
  refine ⟨modes, hsound.invariant, hsound.compatible, hsound.owns, fun index hindex => ?_,
    fun index job hjob => ?_⟩
  · rw [List.length_append] at hindex
    exact hsound.waiting index (Nat.le_of_add_right_le hindex)
  rw [List.getElem?_append] at hjob
  split at hjob
  case isTrue hlt => exact hsound.jobs index job hjob
  case isFalse hge =>
    obtain rfl := List.mem_singleton.mp (List.mem_of_getElem? hjob)
    rw [hsound.waiting index (Nat.le_of_not_lt hge)]
    exact hprog call system.world

theorem sound_idle {world} (hinv : rules.Invariant world) :
    Sound platform Ends discipline { world, jobs := [] } :=
  ⟨fun _ => discipline.idle, hinv, fun _ _ _ => discipline.idle_compatible _,
    fun _ => discipline.idle_owns _, fun _ _ => rfl, by simp⟩

variable (hstable : ∀ call, rules.Stable discipline.idle (Ends call))
  (hprog : ∀ call world, Safe platform.semantics rules discipline.idle (Ends call)
    discipline.idle (platform.program call) world)
  (hreboot : ∀ world, rules.Invariant world →
    rules.Invariant (platform.reboot world) ∧ rules.Leads world (platform.reboot world))
  (hsound : Sound platform Ends discipline system)

include hstable hprog hreboot hsound

/-- What holds of the code task by task holds of every system that runs it. -/
theorem sound_move (hstep : AdmittedStep platform rules system move last) :
    Sound platform Ends discipline last ∧ rules.Leads system.world last.world := by
  cases move with
  | step index choice =>
    obtain ⟨hlast, _, hguar⟩ := sound_step hstable hsound hstep
    exact ⟨hlast, rules.guarantee_leads hguar⟩
  | start call =>
    obtain rfl := Option.some.inj hstep.1
    exact ⟨sound_start hprog hsound, rules.refl _⟩
  | stop =>
    obtain rfl := Option.some.inj hstep.1
    obtain ⟨hinv, hleads⟩ := hreboot system.world hsound.invariant
    exact ⟨sound_idle hinv, hleads⟩

theorem sound_run (hrun : Trace (AdmittedStep platform rules) system moves last) :
    Sound platform Ends discipline last ∧ rules.Leads system.world last.world := by
  induction hrun with
  | nil system => exact ⟨hsound, rules.refl _⟩
  | cons hstep _ ih =>
    obtain ⟨hmid, hfirst⟩ := sound_move hstable hprog hreboot hsound hstep
    obtain ⟨hlast, hrest⟩ := ih hmid
    exact ⟨hlast, rules.trans hfirst hrest⟩

end SoundRuns

section Uniform

/-- Rules under which every task relies on what every task guarantees.  They need no
modes, and hold for any number of tasks at once. -/
def Rules.uniform (Invariant : World → Prop) (Leads : World → World → Prop)
    (Admits : World → Action → Choice → World → Prop) (refl : ∀ world, Leads world world)
    (trans : ∀ {first second third}, Leads first second → Leads second third →
      Leads first third) : Rules Action Choice World Unit where
  Invariant := Invariant
  Admits := Admits
  Leads := Leads
  Rely _ := Leads
  Guarantee _ := Leads
  turn _ _ := ()
  refl := refl
  trans := trans
  rely_refl _ := refl
  rely_trans := trans
  rely_leads := id
  guarantee_leads := id

def Discipline.uniform {Invariant : World → Prop} {Leads : World → World → Prop}
    {Admits : World → Action → Choice → World → Prop} {refl : ∀ world, Leads world world}
    {trans : ∀ {first second third}, Leads first second → Leads second third →
      Leads first third} :
    Discipline semantics (Rules.uniform Invariant Leads Admits refl trans) where
  idle := ()
  Compatible _ _ := True
  Owns _ _ := True
  symm := id
  idle_compatible _ := trivial
  idle_owns _ := trivial
  guarantee_rely _ := id
  owns_turn _ _ _ := trivial
  owns_other _ _ _ := trivial
  compatible_turn _ _ _ := trivial

end Uniform

end CyfsGateway.Tasks
