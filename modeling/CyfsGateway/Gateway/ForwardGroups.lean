import Mathlib

/-!
# Forward groups

A stream, a datagram, a UDP packet and an HTTP request walk the candidates of a plan in loops
of their own.  The UDP loop takes a connect timeout for an error and does not order the
candidates by latency; `Parts` says when it shows.  The other three loops agree.
-/

namespace CyfsGateway.Gateway

inductive NextUpstreamCondition
  | error | timeout | http5xx | http502 | http503 | http504 | invalidHeader | nonIdempotent
  deriving DecidableEq

structure NextUpstreamPolicy where
  conditions : List NextUpstreamCondition
  tries : Nat

def NextUpstreamPolicy.isEnabled (policy : NextUpstreamPolicy) : Bool :=
  !policy.conditions.isEmpty && decide (1 < policy.tries)

def NextUpstreamPolicy.allows (policy : NextUpstreamPolicy) (cond : NextUpstreamCondition) : Bool :=
  policy.conditions.contains cond ||
    policy.conditions.contains .http5xx && [.http502, .http503, .http504].contains cond

structure ForwardTarget where
  url : String
  maxFails : Nat
  failTimeout : Nat

structure ForwardPlan where
  /-- The `failure_state_key`, which does not depend on the order of the candidates. -/
  groupKey : String
  /-- Whether the `balance` is `LeastTime`. -/
  leastTime : Bool
  candidates : List ForwardTarget
  nextUpstream : NextUpstreamPolicy

/-- What comes of opening a candidate; for UDP that includes sending the packet. -/
inductive Opening
  | opened | connectTimeout | failed | invalidUrl
  deriving DecidableEq

def Opening.condition : Opening → NextUpstreamCondition
  | .connectTimeout => .timeout
  | _ => .error

/-- What the loops find outside of the plan. -/
structure ForwardWorld (Registry : Type) where
  opening : ForwardTarget → Opening
  leastTimeOrder : List ForwardTarget → List ForwardTarget
  leastTimeOrder_perm : ∀ candidates, (leastTimeOrder candidates).Perm candidates
  /-- Whether the time of the policy is over before an attempt. -/
  expired : Nat → Bool
  recordSuccess : String → String → Registry → Registry
  recordFailure : String → String → Nat → Nat → Registry → Registry

/-- The attempts in their order, the choice, and the failure registry behind them. -/
@[ext]
structure GroupWalk (Registry : Type) where
  attempts : List ForwardTarget
  chosen : Option ForwardTarget
  registry : Registry

namespace ForwardGroups

variable {Registry : Type} (world : ForwardWorld Registry)

/-- The loop over the candidates, with the time it looks at and the failures behind which it
goes on. -/
def walkGroup (groupKey : String) (maxAttempts : Nat) (expired : Nat → Bool)
    (goesOn : Nat → Opening → Bool) :
    Nat → List ForwardTarget → Registry → GroupWalk Registry
  | _, [], registry => ⟨[], none, registry⟩
  | idx, candidate :: rest, registry =>
    if maxAttempts ≤ idx ∨ expired idx = true then ⟨[], none, registry⟩
    else if world.opening candidate = .opened then
      ⟨[candidate], some candidate, world.recordSuccess groupKey candidate.url registry⟩
    else
      let registry := world.recordFailure groupKey candidate.url candidate.maxFails
        candidate.failTimeout registry
      if goesOn idx (world.opening candidate) then
        let walk := walkGroup groupKey maxAttempts expired goesOn (idx + 1) rest registry
        { walk with attempts := candidate :: walk.attempts }
      else ⟨[candidate], none, registry⟩

def policyMaxAttempts (policy : NextUpstreamPolicy) (candidateCount : Nat) : Nat :=
  if !policy.isEnabled then max (min candidateCount 1) 1
  else if policy.tries = 0 then candidateCount
  else min policy.tries candidateCount

def shouldContinue (policy : NextUpstreamPolicy) (attemptedIdx maxAttempts : Nat)
    (cond : NextUpstreamCondition) : Bool :=
  if !policy.isEnabled then false
  else if !policy.allows cond then false
  else decide (attemptedIdx + 1 < maxAttempts)

variable (plan : ForwardPlan) (registry : Registry)

/-- `apply_least_time_via_tunnel_mgr`, if the plan asks for it. -/
def orderedCandidates : List ForwardTarget :=
  if plan.leastTime then world.leastTimeOrder plan.candidates else plan.candidates

def streamForwardGroup : GroupWalk Registry :=
  let policy := plan.nextUpstream
  let candidates := orderedCandidates world plan
  let maxAttempts := policyMaxAttempts policy candidates.length
  walkGroup world plan.groupKey maxAttempts world.expired
    (fun idx opening => shouldContinue policy idx maxAttempts opening.condition) 0 candidates
    registry

def datagramForwardGroup : GroupWalk Registry :=
  let policy := plan.nextUpstream
  let candidates := orderedCandidates world plan
  let maxAttempts := policyMaxAttempts policy candidates.length
  walkGroup world plan.groupKey maxAttempts world.expired
    (fun idx opening => shouldContinue policy idx maxAttempts opening.condition) 0 candidates
    registry

/-- The UDP and the HTTP loop write out the two functions of the policy.  The UDP loop does
not look at the time. -/
def udpForwardGroup : GroupWalk Registry :=
  let policy := plan.nextUpstream
  let maxAttempts := policyMaxAttempts policy plan.candidates.length
  walkGroup world plan.groupKey maxAttempts (fun _ => false)
    (fun idx _ => shouldContinue policy idx maxAttempts .error) 0 plan.candidates registry

/-- A candidate that does not open leaves the request in its slot. -/
def handleForwardGroupConnectOnly : GroupWalk Registry :=
  let policy := plan.nextUpstream
  let maxAttempts := policyMaxAttempts policy plan.candidates.length
  walkGroup world plan.groupKey maxAttempts world.expired
    (fun idx opening => shouldContinue policy idx maxAttempts opening.condition) 0
    plan.candidates registry

/-- The caller of the HTTP loop, for a request whose status is not retried. -/
def handleForwardGroupUpstream : GroupWalk Registry :=
  handleForwardGroupConnectOnly world { plan with candidates := orderedCandidates world plan }
    registry

/-! ## What a walk comes to -/

section Walks

variable {world} (maxAttempts : Nat) (expired : Nat → Bool) (goesOn : Nat → Opening → Bool)

/-- A walk from `idx` comes to the candidate at `place`: it may still try and has time there
and at every earlier one, and each of those failed and let it go on. -/
def ComesTo (world : ForwardWorld Registry) (idx : Nat) (candidates : List ForwardTarget)
    (place : Nat) : Prop :=
  place < candidates.length ∧
  (∀ earlier < place + 1, idx + earlier < maxAttempts ∧ expired (idx + earlier) = false) ∧
  ∀ earlier < place, ∀ candidate ∈ candidates[earlier]?, world.opening candidate ≠ .opened ∧
    goesOn (idx + earlier) (world.opening candidate) = true

variable {maxAttempts expired goesOn} {idx : Nat} {candidate : ForwardTarget}
  {rest : List ForwardTarget}

theorem comesTo_cons_zero : ComesTo maxAttempts expired goesOn world idx (candidate :: rest) 0 ↔
    idx < maxAttempts ∧ expired idx = false := by
  simp [ComesTo]

theorem comesTo_cons_succ {place : Nat} :
    ComesTo maxAttempts expired goesOn world idx (candidate :: rest) (place + 1) ↔
      (idx < maxAttempts ∧ expired idx = false) ∧
      (world.opening candidate ≠ .opened ∧ goesOn idx (world.opening candidate) = true) ∧
      ComesTo maxAttempts expired goesOn world (idx + 1) rest place := by
  simp only [ComesTo, Nat.forall_lt_succ_left, List.length_cons, Nat.add_lt_add_iff_right,
    List.getElem?_cons_zero, List.getElem?_cons_succ, Option.mem_some_iff, forall_eq',
    Nat.add_zero, Nat.add_assoc, Nat.add_comm 1]
  tauto

/-- A walk tries the candidates it comes to, in their order.  It chooses the one that opens,
and the registry holds what came of each attempt. -/
theorem walkGroup_tries (groupKey : String) (candidates : List ForwardTarget) (idx : Nat) :
    let walk := walkGroup world groupKey maxAttempts expired goesOn idx candidates registry
    walk.attempts <+: candidates ∧
      (∀ place, place < walk.attempts.length ↔
        ComesTo maxAttempts expired goesOn world idx candidates place) ∧
      walk.chosen = walk.attempts.find? (world.opening · = .opened) ∧
      walk.registry = walk.attempts.foldl (fun registry candidate =>
        if world.opening candidate = .opened then
          world.recordSuccess groupKey candidate.url registry
        else world.recordFailure groupKey candidate.url candidate.maxFails candidate.failTimeout
          registry) registry := by
  induction candidates generalizing idx registry with
  | nil => simp [walkGroup, ComesTo]
  | cons candidate rest ih =>
    by_cases hroom : idx < maxAttempts ∧ expired idx = false
    · have hgo : ¬(maxAttempts ≤ idx ∨ expired idx = true) := by simpa using hroom
      simp only [walkGroup, hgo, if_false]
      by_cases hopening : world.opening candidate = .opened
      · refine ⟨by simp [hopening], fun place => ?_, by simp [hopening], by simp [hopening]⟩
        cases place <;> simp [comesTo_cons_zero, comesTo_cons_succ, hroom, hopening]
      · obtain ⟨hstart, hcomes, hchosen, hregistry⟩ := ih (world.recordFailure groupKey
          candidate.url candidate.maxFails candidate.failTimeout registry) (idx + 1)
        cases hgoesOn : goesOn idx (world.opening candidate)
        · refine ⟨by simp [hopening], fun place => ?_, by simp [hopening], by simp [hopening]⟩
          cases place <;> simp [comesTo_cons_zero, comesTo_cons_succ, hroom, hopening, hgoesOn]
        · refine ⟨by simp [hopening, hstart], fun place => ?_, by simp [hopening, hchosen],
            by simp [hopening, hregistry]⟩
          cases place <;>
            simp [comesTo_cons_zero, comesTo_cons_succ, hroom, hopening, hgoesOn, hcomes]
    · have hstop : maxAttempts ≤ idx ∨ expired idx = true := by
        by_contra hgo
        exact hroom (by simpa using hgo)
      simp only [walkGroup, hstop, if_true]
      refine ⟨List.nil_prefix, fun place => ?_, rfl, rfl⟩
      cases place <;> simp [comesTo_cons_zero, comesTo_cons_succ, hroom]

end Walks

/-! ## Agreement -/

section Agreement

variable {world plan}

/-- The UDP loop on `plain` and another loop on `ordered` part behind `idx` attempts: they come
to different candidates, or to one that times out and lets only one of them go on, now or
behind further candidates that let both go on. -/
inductive Parts (world : ForwardWorld Registry) (policy : NextUpstreamPolicy) (maxAttempts : Nat) :
    Nat → List ForwardTarget → List ForwardTarget → Prop
  | order {idx candidate other plain ordered} : idx < maxAttempts → candidate ≠ other →
      Parts world policy maxAttempts idx (candidate :: plain) (other :: ordered)
  | timeout {idx candidate plain ordered} : idx + 1 < maxAttempts →
      world.opening candidate = .connectTimeout →
      policy.allows .timeout ≠ policy.allows .error →
      Parts world policy maxAttempts idx (candidate :: plain) (candidate :: ordered)
  | later {idx candidate plain ordered} : world.opening candidate ≠ .opened →
      policy.allows .error = true → policy.allows (world.opening candidate).condition = true →
      Parts world policy maxAttempts (idx + 1) plain ordered →
      Parts world policy maxAttempts idx (candidate :: plain) (candidate :: ordered)

theorem Parts.lt {policy maxAttempts idx plain ordered}
    (hparts : Parts world policy maxAttempts idx plain ordered) : idx < maxAttempts := by
  induction hparts with
  | order hidx _ => exact hidx
  | timeout hidx _ _ => omega
  | later _ _ _ _ ih => omega

theorem head_attempts {groupKey maxAttempts goesOn idx} {candidates : List ForwardTarget}
    (hidx : idx < maxAttempts) : (walkGroup world groupKey maxAttempts (fun _ => false)
      goesOn idx candidates registry).attempts.head? = candidates.head? := by
  cases candidates with
  | nil => rfl
  | cons candidate rest =>
    have hgo : ¬(maxAttempts ≤ idx ∨ false = true) := by simpa using hidx
    simp only [walkGroup, hgo, if_false]
    split_ifs <;> rfl

theorem attempts_ne_nil {groupKey maxAttempts goesOn idx} {candidates : List ForwardTarget}
    (hidx : idx < maxAttempts) (hsome : 0 < candidates.length) :
    (walkGroup world groupKey maxAttempts (fun _ => false) goesOn idx candidates
      registry).attempts ≠ [] := by
  rw [ne_eq, ← List.head?_eq_none_iff, head_attempts registry hidx, List.head?_eq_none_iff]
  exact List.ne_nil_of_length_pos hsome

theorem shouldContinue_eq {policy maxAttempts idx cond}
    (henabled : 1 < maxAttempts → policy.isEnabled = true) :
    shouldContinue policy idx maxAttempts cond =
      (policy.allows cond && decide (idx + 1 < maxAttempts)) := by
  unfold shouldContinue
  by_cases hmore : 1 < maxAttempts
  · cases policy.allows cond <;> simp [henabled hmore]
  · have hlast : ¬idx + 1 < maxAttempts := by omega
    simp [hlast]

theorem parts_of_timeout {policy maxAttempts idx candidate plain ordered}
    (hmore : idx + 1 < maxAttempts)
    (hdiffers : policy.allows (world.opening candidate).condition ≠ policy.allows .error) :
    Parts world policy maxAttempts idx (candidate :: plain) (candidate :: ordered) := by
  cases hopening : world.opening candidate with
  | connectTimeout => exact .timeout hmore hopening (by rwa [hopening] at hdiffers)
  | opened | failed | invalidUrl => simp [hopening, Opening.condition] at hdiffers

theorem stopped_ne {candidate : ForwardTarget} {walk : GroupWalk Registry}
    (hnext : walk.attempts ≠ []) :
    (⟨[candidate], none, registry⟩ : GroupWalk Registry) ≠
      { walk with attempts := candidate :: walk.attempts } := by
  intro heq
  simp only [GroupWalk.mk.injEq, List.cons.injEq, true_and] at heq
  exact hnext heq.1.symm

theorem failed_eq_iff {policy : NextUpstreamPolicy} {maxAttempts idx candidate plain ordered}
    {udp other : GroupWalk Registry} (hudp : udp.attempts ≠ []) (hother : other.attempts ≠ [])
    (hrest : udp = other ↔ ¬Parts world policy maxAttempts (idx + 1) plain ordered)
    (hopened : world.opening candidate ≠ .opened) (hmore : idx + 1 < maxAttempts) :
    (if policy.allows .error = true then { udp with attempts := candidate :: udp.attempts }
        else ⟨[candidate], none, registry⟩) =
      (if policy.allows (world.opening candidate).condition = true then
          { other with attempts := candidate :: other.attempts }
        else ⟨[candidate], none, registry⟩) ↔
      ¬Parts world policy maxAttempts idx (candidate :: plain) (candidate :: ordered) := by
  by_cases hdiffers : policy.allows (world.opening candidate).condition = policy.allows .error
  · have hparts : Parts world policy maxAttempts idx (candidate :: plain) (candidate :: ordered) ↔
        policy.allows .error = true ∧
          Parts world policy maxAttempts (idx + 1) plain ordered := by
      constructor
      · intro hparts
        cases hparts with
        | order _ hne => exact absurd rfl hne
        | timeout _ hopening hne =>
          rw [hopening] at hdiffers
          exact absurd hdiffers hne
        | later _ hallowed _ hparts => exact ⟨hallowed, hparts⟩
      · rintro ⟨hallowed, hparts⟩
        exact .later hopened hallowed (hdiffers.trans hallowed) hparts
    rw [hparts, hdiffers]
    split_ifs with hallowed
    · simp only [hallowed, true_and, ← hrest, GroupWalk.ext_iff, List.cons.injEq]
    · simp [hallowed]
  · refine iff_of_false ?_ (not_not.mpr (parts_of_timeout hmore hdiffers))
    split_ifs with herror hcond hcond
    · exact absurd (hcond.trans herror.symm) hdiffers
    · exact (stopped_ne registry hudp).symm
    · exact stopped_ne registry hother
    · simp_all

/-- The UDP loop and another one do the same exactly unless they part: at candidates they
take in different order, or at a timeout that only one of them goes on after. -/
theorem walkGroup_eq_iff {policy : NextUpstreamPolicy} {groupKey maxAttempts plain ordered}
    (idx : Nat) (hlength : plain.length = ordered.length)
    (hroom : 1 < maxAttempts → maxAttempts ≤ idx + plain.length) :
    walkGroup world groupKey maxAttempts (fun _ => false)
        (fun idx _ => policy.allows .error && decide (idx + 1 < maxAttempts)) idx plain registry =
      walkGroup world groupKey maxAttempts (fun _ => false)
        (fun idx opening => policy.allows opening.condition && decide (idx + 1 < maxAttempts)) idx
        ordered registry ↔ ¬Parts world policy maxAttempts idx plain ordered := by
  induction plain generalizing idx ordered registry with
  | nil =>
    cases List.length_eq_zero_iff.mp hlength.symm
    exact iff_of_true rfl fun hparts => by cases hparts
  | cons candidate plain ih =>
    obtain ⟨other, ordered, rfl⟩ := List.exists_cons_of_length_eq_add_one hlength.symm
    by_cases hidx : idx < maxAttempts
    case neg =>
      have hstop : maxAttempts ≤ idx ∨ false = true := .inl (not_lt.mp hidx)
      exact iff_of_true (by simp only [walkGroup, hstop, if_true]) fun hparts => hidx hparts.lt
    by_cases hsame : candidate = other
    case neg =>
      refine iff_of_false (fun heq => hsame ?_) (not_not.mpr (.order hidx hsame))
      have hheads := congrArg (fun walk => walk.attempts.head?) heq
      simpa only [head_attempts registry hidx, List.head?_cons, Option.some.injEq] using hheads
    subst hsame
    have hgo : ¬(maxAttempts ≤ idx ∨ false = true) := by simpa using hidx
    simp only [walkGroup, hgo, if_false]
    by_cases hopened : world.opening candidate = .opened
    case pos =>
      refine iff_of_true (by simp only [hopened, if_true]) fun hparts => ?_
      cases hparts <;> simp_all
    simp only [hopened, if_false]
    by_cases hmore : idx + 1 < maxAttempts
    case neg =>
      refine iff_of_true (by simp [hmore]) fun hparts => ?_
      cases hparts with
      | order _ hne => exact hne rfl
      | timeout hlater _ _ => exact hmore hlater
      | later _ _ _ hparts => exact hmore hparts.lt
    -- the rest is not empty, so a loop that goes on tries a further candidate
    simp only [List.length_cons, Nat.add_right_cancel_iff] at hlength hroom
    have hleft : maxAttempts ≤ idx + 1 + plain.length := by have := hroom (by omega); omega
    have hplain : 0 < plain.length := by omega
    simp only [hmore, decide_true, Bool.and_true]
    exact failed_eq_iff _ (attempts_ne_nil _ hmore hplain)
      (attempts_ne_nil _ hmore (hlength ▸ hplain)) (ih _ _ hlength fun _ => hleft) hopened hmore

/-- With enough time the streams, the datagrams and the HTTP requests always walk a plan in the
same way, and UDP packets do exactly unless the loops part: where the order by latency or a
connect timeout that the policy does not treat like an error is reached. -/
theorem forward_groups_agree (htime : ∀ idx, world.expired idx = false) :
    datagramForwardGroup world plan registry = streamForwardGroup world plan registry ∧
      handleForwardGroupUpstream world plan registry = streamForwardGroup world plan registry ∧
      (udpForwardGroup world plan registry = streamForwardGroup world plan registry ↔
        ¬Parts world plan.nextUpstream
          (policyMaxAttempts plan.nextUpstream plan.candidates.length) 0 plan.candidates
          (orderedCandidates world plan)) := by
  have hlength : plan.candidates.length = (orderedCandidates world plan).length := by
    rw [orderedCandidates]
    split
    · exact (world.leastTimeOrder_perm _).length_eq.symm
    · rfl
  refine ⟨rfl, rfl, ?_⟩
  rw [udpForwardGroup, streamForwardGroup, funext htime]
  have henabled : 1 < policyMaxAttempts plan.nextUpstream plan.candidates.length →
      plan.nextUpstream.isEnabled = true := by
    intro hmore
    by_contra hdisabled
    rw [policyMaxAttempts, if_pos (by simpa using hdisabled)] at hmore
    omega
  simp only [← hlength, shouldContinue_eq henabled]
  refine walkGroup_eq_iff registry 0 hlength fun hmore => ?_
  unfold policyMaxAttempts at hmore ⊢
  split_ifs at hmore ⊢ <;> omega

end Agreement

def timeoutWorld : ForwardWorld (List String) where
  opening candidate := if candidate.url = "a" then .connectTimeout else .opened
  leastTimeOrder := id
  leastTimeOrder_perm _ := .refl _
  expired _ := false
  recordSuccess _ url := (url :: ·)
  recordFailure _ _ _ _ := id

def timeoutPlan (urls : List String) : ForwardPlan :=
  ⟨"g", false, urls.map fun url => ⟨url, 1, 10⟩, ⟨[.timeout], 2⟩⟩

/-- A connect timeout of the last candidate, which the policy does not treat like an error. -/
theorem forward_groups_agree_timeout : udpForwardGroup timeoutWorld (timeoutPlan ["a"]) [] =
    streamForwardGroup timeoutWorld (timeoutPlan ["a"]) [] := by
  refine (forward_groups_agree [] fun _ => rfl).2.2.mpr fun hparts => ?_
  change Parts _ _ 1 0 [_] [_] at hparts
  cases hparts with
  | order _ hne => exact hne rfl
  | timeout hmore _ _ => exact absurd hmore (by decide)
  | later _ _ _ hparts => exact absurd hparts.lt (by decide)

/-- With a further candidate the stream goes on to it, the packet does not. -/
theorem udpForwardGroup_gives_up :
    (streamForwardGroup timeoutWorld (timeoutPlan ["a", "b"]) []).chosen = some ⟨"b", 1, 10⟩ ∧
      (udpForwardGroup timeoutWorld (timeoutPlan ["a", "b"]) []).chosen = none := ⟨rfl, rfl⟩

end ForwardGroups

end CyfsGateway.Gateway
