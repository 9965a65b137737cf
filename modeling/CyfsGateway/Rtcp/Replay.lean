import CyfsGateway.Core.Tables
import CyfsGateway.Core.Transition
import CyfsGateway.Rtcp.Tokens

/-!
# Replay of Hello tokens

A responder runs any number of handshakes at once.  Each of them verifies its
token at one moment and enters the nonce of the token into the nonce cache at a
later one; the clock does not go back.  A token enters the cache at most once as
long as every entry is made before the token's retention has run out.
-/

namespace CyfsGateway.Rtcp

open Transition

variable {Key Exchange : Type}

abbrev NonceCache := Tables.Table (String × String) Nat

def nonceCacheCap : Nat := 16 * 1024

def soonest : NonceCache → Option (String × String)
  | [] => none
  | entry :: rest =>
    some (rest.foldl (fun least next => if next.2 < least.2 then next else least) entry).1

def insertIfFresh (fromId nonce : String) (retainUntil now : Nat) (seen : NonceCache) :
    Bool × NonceCache :=
  let kept := seen.filter fun entry => decide (now < entry.2)
  if (kept.lookup (fromId, nonce)).isSome then (false, kept)
  else
    let room :=
      if nonceCacheCap ≤ kept.length then
        match soonest kept with
        | some key => Tables.deleteWhere (fun other => decide (other = key)) kept
        | none => kept
      else kept
    (true, Tables.upsert (fromId, nonce) retainUntil room)

section NonceCache

variable {now : Nat}

theorem insertIfFresh_stale (hentry : seen.lookup (fromId, nonce) = some until_)
    (hretained : now < until_) :
    (insertIfFresh fromId nonce retainUntil now seen).1 = false := by
  have hkept : (seen.filter fun entry => decide (now < entry.2)).lookup (fromId, nonce) =
      some until_ := Tables.lookup_filter_kept hentry (decide_eq_true hretained)
  simp [insertIfFresh, hkept]

/-- Below its capacity the cache keeps every entry that is retained. -/
theorem lookup_insertIfFresh_kept (hroom : seen.length < nonceCacheCap)
    (hentry : seen.lookup key = some until_) (hretained : now < until_) :
    (insertIfFresh fromId nonce retainUntil now seen).2.lookup key = some until_ := by
  have hkept : (seen.filter fun entry => decide (now < entry.2)).lookup key = some until_ :=
    Tables.lookup_filter_kept hentry (decide_eq_true hretained)
  have hlen := List.length_filter_le (fun entry => decide (now < entry.2)) seen
  rw [insertIfFresh]
  by_cases hfound : ((seen.filter fun entry => decide (now < entry.2)).lookup
      (fromId, nonce)).isSome
  · rw [if_pos hfound]
    exact hkept
  have hne : key ≠ (fromId, nonce) := by
    rintro rfl
    rw [hkept] at hfound
    exact hfound rfl
  rw [if_neg hfound, if_neg (by omega)]
  rw [Tables.lookup_upsert, if_neg hne]
  exact hkept

theorem lookup_insertIfFresh_entered
    (hfresh : (insertIfFresh fromId nonce retainUntil now seen).1 = true) :
    (insertIfFresh fromId nonce retainUntil now seen).2.lookup (fromId, nonce) =
      some retainUntil := by
  rw [insertIfFresh] at hfresh ⊢
  split
  · rename_i hfound
    rw [if_pos hfound] at hfresh
    cases hfresh
  · rw [Tables.lookup_upsert, if_pos rfl]

end NonceCache

/-- What the steps between the token and the nonce are told: the recovery of a
denied name, the report about the document, the revisions the authority confirmed
and the name that already holds the device. -/
structure Answers where
  recovery : Except String Unit
  verified : Except String VerifyResult
  confirmed : DocRevision → Bool
  boundLogical : Option String

/-- `on_new_tunnel` between the token and the nonce. -/
def identifySource [DecidableEq Key] (lib : NameLib Key) (inner : RTcpInner) (hello : RTcpHelloBody)
    (possession : Possession Key Exchange) (answers : Answers) :
    Except String VerifiedSourceDevice :=
  (if possession.claimedDid.method ≠ "dev" then
      match hello.deviceDocJwt with
      | none => .error "logical identity has no recovery candidate"
      | some _ => answers.recovery
    else .ok ()) >>= fun _ =>
  resolveSourceDeviceInfo lib inner hello possession.claimedDid possession.key
    answers.verified answers.confirmed >>= fun source =>
  (match source.verifiedIdentity, answers.boundLogical with
    | some identity, some bound =>
      .error ("canonical device " ++ identity.canonicalDevDid ++
        " is already bound to verified logical name " ++ bound)
    | _, _ => .ok ()) >>= fun _ =>
  (lib.parseDid source.sourceDeviceId).mapError ("parser remote did error:" ++ ·) >>= fun _ =>
  pure source

inductive Stage (Key Exchange : Type)
  | arrived (hello : RTcpHelloBody)
  | proven (hello : RTcpHelloBody) (possession : Possession Key Exchange)
  | identified (possession : Possession Key Exchange) (source : VerifiedSourceDevice)
  /-- The clock was read for the nonce cache. -/
  | timed (possession : Possession Key Exchange) (source : VerifiedSourceDevice) (now : Nat)
  | over

structure ResponderState (Key Exchange : Type) where
  clock : Nat
  seen : NonceCache
  handshakes : List (Stage Key Exchange)
  /-- What passed the verification of its token and then the nonce cache. -/
  accepted : List (Possession Key Exchange)

inductive ResponderMove
  | tick (seconds : Nat)
  | connect (hello : RTcpHelloBody)
  /-- The clock may advance between its two readings. -/
  | prove (index elapsed : Nat)
  | identify (index : Nat) (answers : Answers)
  | readClock (index : Nat)
  | insert (index : Nat)

/-- The nonce is kept for the full acceptance window of the token. -/
def Possession.retainUntil (possession : Possession Key Exchange) : Nat :=
  saturatingAdd possession.payload.exp jwtLeewaySecs

namespace ResponderState

variable (lib : NameLib Key) (tokens : TokenLib Key Exchange) (inner : RTcpInner)

def idle (clock : Nat) : ResponderState Key Exchange := ⟨clock, [], [], []⟩

def setStage (state : ResponderState Key Exchange) (index : Nat) (stage : Stage Key Exchange) :
    ResponderState Key Exchange := { state with handshakes := state.handshakes.set index stage }

def proceed {Value : Type} (next : Value → Stage Key Exchange) :
    Except String Value → Stage Key Exchange
  | .ok value => next value
  | .error _ => .over

/-- The handshake is over; a fresh nonce makes its token an accepted one. -/
def enterNonce (state : ResponderState Key Exchange) (index : Nat)
    (possession : Possession Key Exchange) (entered : Bool × NonceCache) :
    ResponderState Key Exchange :=
  { state.setStage index .over with
    seen := entered.2
    accepted := if entered.1 then possession :: state.accepted else state.accepted }

variable [DecidableEq Key]

def move (state : ResponderState Key Exchange) :
    ResponderMove → Option (ResponderState Key Exchange)
  | .tick seconds => some { state with clock := state.clock + seconds }
  | .connect hello => some { state with handshakes := state.handshakes ++ [.arrived hello] }
  | .prove index elapsed =>
    match state.handshakes[index]? with
    | some (.arrived hello) =>
      let later := state.clock + elapsed
      some { state.setStage index (proceed (.proven hello)
        (provePossession lib tokens inner state.clock later hello)) with clock := later }
    | _ => none
  | .identify index answers =>
    match state.handshakes[index]? with
    | some (.proven hello possession) =>
      some (state.setStage index (proceed (.identified possession)
        (identifySource lib inner hello possession answers)))
    | _ => none
  | .readClock index =>
    match state.handshakes[index]? with
    | some (.identified possession source) =>
      some (state.setStage index (.timed possession source state.clock))
    | _ => none
  | .insert index =>
    match state.handshakes[index]? with
    | some (.timed possession source now) =>
      some (state.enterNonce index possession
        (insertIfFresh (lib.didText source.canonicalDevDid) possession.payload.nonce
          possession.retainUntil now state.seen))
    | _ => none

/-- A step under a condition, with room left in the nonce cache.  Without room the source
evicts the entry that expires first, and with it the protection against its replay. -/
structure Step (Condition : ResponderState Key Exchange → ResponderMove → Bool)
    (state : ResponderState Key Exchange) (move : ResponderMove)
    (after : ResponderState Key Exchange) : Prop where
  moves : state.move lib tokens inner move = some after
  room : state.seen.length < nonceCacheCap
  meets : Condition state move

def run (Condition : ResponderState Key Exchange → ResponderMove → Bool)
    (state : ResponderState Key Exchange) :
    List ResponderMove → Option (ResponderState Key Exchange)
  | [] => some state
  | first :: rest =>
    if state.seen.length < nonceCacheCap ∧ Condition state first then
      (state.move lib tokens inner first).bind fun next => next.run Condition rest
    else none

theorem trace_run : ∀ {state after : ResponderState Key Exchange},
      state.run lib tokens inner Condition moves = some after →
        Trace (Step lib tokens inner Condition) state moves after := by
  induction moves with
  | nil =>
    intro state after hrun
    cases hrun
    exact .nil _
  | cons first rest ih =>
    intro state after hrun
    rw [run] at hrun
    split at hrun
    case isFalse => cases hrun
    rename_i hmeets
    obtain ⟨next, hmove, hrest⟩ := Option.bind_eq_some_iff.mp hrun
    exact .cons ⟨hmove, hmeets.1, hmeets.2⟩ (ih hrest)

end ResponderState

/-! ## What every step keeps -/

section Invariant

variable {lib : NameLib Key} {tokens : TokenLib Key Exchange} {inner : RTcpInner}
  {state : ResponderState Key Exchange} {clock now index : Nat} {found : Stage Key Exchange}
  {possession other : Possession Key Exchange}

def cacheKey (lib : NameLib Key) (possession : Possession Key Exchange) : String × String :=
  (lib.didText (lib.canonicalDevDid possession.key), possession.payload.nonce)

theorem Possession.Genuine.unique (hgen : possession.Genuine tokens)
    (hother : other.Genuine tokens) (htoken : possession.token = other.token) :
    possession.key = other.key ∧ possession.payload = other.payload := by
  refine ⟨tokens.signedBy_unique other.token _ _ (htoken ▸ hgen.signed) hother.signed, ?_⟩
  have hclaims := hgen.claims
  rw [htoken, hother.claims] at hclaims
  exact (Except.ok.inj hclaims).symm

def Stage.Sound (lib : NameLib Key) (tokens : TokenLib Key Exchange) (clock : Nat) :
    Stage Key Exchange → Prop
  | .arrived _ => True
  | .proven _ possession => possession.Genuine tokens
  | .identified possession source =>
    possession.Genuine tokens ∧ source.canonicalDevDid = lib.canonicalDevDid possession.key
  | .timed possession source now =>
    (possession.Genuine tokens ∧
      source.canonicalDevDid = lib.canonicalDevDid possession.key) ∧ now ≤ clock
  | .over => True

theorem Stage.Sound.later (hsound : found.Sound lib tokens clock) (hlater : clock ≤ now) :
    found.Sound lib tokens now := by
  cases found with
  | timed possession source now => exact ⟨hsound.1, Nat.le_trans hsound.2 hlater⟩
  | proven | identified => exact hsound
  | _ => trivial

/-- The nonce of every accepted token is in the cache while the token is still
valid. -/
structure Guarded (lib : NameLib Key) (tokens : TokenLib Key Exchange)
    (state : ResponderState Key Exchange) : Prop where
  stages : ∀ stage ∈ state.handshakes, stage.Sound lib tokens state.clock
  genuine : ∀ possession ∈ state.accepted, possession.Genuine tokens
  retained : ∀ possession ∈ state.accepted, state.clock < possession.retainUntil →
    state.seen.lookup (cacheKey lib possession) = some possession.retainUntil
  once : (state.accepted.map Possession.token).Nodup

theorem guarded_idle (clock : Nat) : Guarded lib tokens (.idle clock) where
  stages := by simp [ResponderState.idle]
  genuine := by simp [ResponderState.idle]
  retained := by simp [ResponderState.idle]
  once := by simp [ResponderState.idle]

theorem Guarded.soundStage (hguard : Guarded lib tokens state)
    (hstage : state.handshakes[index]? = some found) : found.Sound lib tokens state.clock :=
  hguard.stages found (List.mem_of_getElem? hstage)

theorem Guarded.later (hguard : Guarded lib tokens state) (hlater : state.clock ≤ now) :
    Guarded lib tokens { state with clock := now } where
  stages := fun stage hstage => (hguard.stages stage hstage).later hlater
  genuine := hguard.genuine
  retained := fun possession hpossession hwindow =>
    hguard.retained possession hpossession (Nat.lt_of_le_of_lt hlater hwindow)
  once := hguard.once

theorem Guarded.setStage (hguard : Guarded lib tokens state)
    (hfound : found.Sound lib tokens state.clock) :
    Guarded lib tokens (state.setStage index found) where
  stages := by
    intro stage hstage
    rcases List.mem_or_eq_of_mem_set hstage with hstage | rfl
    · exact hguard.stages stage hstage
    · exact hfound
  genuine := hguard.genuine
  retained := hguard.retained
  once := hguard.once

theorem sound_proceed {Value : Type} {build : Value → Stage Key Exchange}
    {result : Except String Value}
    (hres : ∀ value, result = .ok value → (build value).Sound lib tokens clock) :
    (ResponderState.proceed build result).Sound lib tokens clock := by
  cases result with
  | ok value => exact hres value rfl
  | error message => trivial

/-- A nonce entered while it is retained: a token accepted before is not fresh. -/
theorem Guarded.enterNonce (hguard : Guarded lib tokens state)
    (hroom : state.seen.length < nonceCacheCap) (hgen : possession.Genuine tokens)
    (hnow : now ≤ state.clock) (hwindow : state.clock < possession.retainUntil) :
    Guarded lib tokens (state.enterNonce index possession
      (insertIfFresh (cacheKey lib possession).1 (cacheKey lib possession).2
        possession.retainUntil now state.seen)) := by
  have hkept : ∀ earlier ∈ state.accepted, state.clock < earlier.retainUntil →
      (insertIfFresh (cacheKey lib possession).1 (cacheKey lib possession).2
        possession.retainUntil now state.seen).2.lookup (cacheKey lib earlier) =
        some earlier.retainUntil := fun earlier hearlier hvalid =>
    lookup_insertIfFresh_kept hroom (hguard.retained earlier hearlier hvalid)
      (Nat.lt_of_le_of_lt hnow hvalid)
  have hover : Guarded lib tokens (state.setStage index .over) := hguard.setStage trivial
  have hstages := hover.stages
  cases hfresh : (insertIfFresh (cacheKey lib possession).1 (cacheKey lib possession).2
      possession.retainUntil now state.seen).1 with
  | false =>
    rw [ResponderState.enterNonce, hfresh]
    exact ⟨hstages, hguard.genuine, hkept, hguard.once⟩
  | true =>
    have hnew : possession.token ∉ state.accepted.map Possession.token := by
      intro hmem
      obtain ⟨earlier, hearlier, htoken⟩ := List.mem_map.mp hmem
      obtain ⟨hkey, hpay⟩ := (hguard.genuine earlier hearlier).unique hgen htoken
      have hentry : state.seen.lookup (cacheKey lib possession) = some possession.retainUntil := by
        have hretained := hguard.retained earlier hearlier
        simp only [cacheKey, Possession.retainUntil, hkey, hpay] at hretained
        exact hretained hwindow
      have hstale : (insertIfFresh (cacheKey lib possession).1 (cacheKey lib possession).2
          possession.retainUntil now state.seen).1 = false :=
        insertIfFresh_stale hentry (Nat.lt_of_le_of_lt hnow hwindow)
      exact Bool.false_ne_true (hstale.symm.trans hfresh)
    rw [ResponderState.enterNonce, hfresh]
    refine ⟨hstages, ?_, ?_, ?_⟩
    · exact List.forall_mem_cons.mpr ⟨hgen, hguard.genuine⟩
    · refine List.forall_mem_cons.mpr ⟨fun _ => ?_, hkept⟩
      exact lookup_insertIfFresh_entered hfresh
    · exact List.nodup_cons.mpr ⟨hnew, hguard.once⟩

variable [DecidableEq Key]

theorem canonicalDevDid_identifySource
    (hsrc : identifySource lib inner hello possession answers = .ok source) :
    source.canonicalDevDid = lib.canonicalDevDid possession.key := by
  obtain ⟨_, -, hrest⟩ := Checks.then_ok_iff.mp hsrc
  obtain ⟨resolved, hresolved, hrest⟩ := Checks.then_ok_iff.mp hrest
  obtain ⟨_, -, hrest⟩ := Checks.then_ok_iff.mp hrest
  obtain ⟨_, -, hdone⟩ := Checks.then_ok_iff.mp hrest
  cases hdone
  exact canonicalDevDid_resolveSourceDeviceInfo hresolved

/-- A handshake enters its nonce before the retention of the nonce has run out.  The
source reads the clock before it takes the lock of the cache, and does not check again. -/
def timely (state : ResponderState Key Exchange) : ResponderMove → Bool
  | .insert index =>
    match state.handshakes[index]? with
    | some (.timed possession _ _) => state.clock < possession.retainUntil
    | _ => true
  | _ => true

theorem guarded_step {move : ResponderMove}
    (hstep : ResponderState.Step lib tokens inner timely state move after)
    (hguard : Guarded lib tokens state) : Guarded lib tokens after := by
  have hmove := hstep.moves
  cases move with
  | tick seconds =>
    cases hmove
    exact hguard.later (Nat.le_add_right ..)
  | connect hello =>
    cases hmove
    refine ⟨?_, hguard.genuine, hguard.retained, hguard.once⟩
    intro stage hstage
    rcases List.mem_append.mp hstage with hstage | hstage
    · exact hguard.stages stage hstage
    · rw [List.mem_singleton.mp hstage]
      trivial
  | prove index elapsed =>
    rw [ResponderState.move] at hmove
    split at hmove
    case h_2 => cases hmove
    cases hmove
    exact (hguard.later (Nat.le_add_right state.clock elapsed)).setStage
      (sound_proceed fun possession hprove => genuine_provePossession hprove)
  | identify index answers =>
    rw [ResponderState.move] at hmove
    split at hmove
    case h_2 => cases hmove
    rename_i hstage
    cases hmove
    exact hguard.setStage (sound_proceed fun source hsrc =>
      ⟨hguard.soundStage hstage, canonicalDevDid_identifySource hsrc⟩)
  | readClock index =>
    rw [ResponderState.move] at hmove
    split at hmove
    case h_2 => cases hmove
    rename_i hstage
    cases hmove
    exact hguard.setStage ⟨hguard.soundStage hstage, Nat.le_refl _⟩
  | insert index =>
    rw [ResponderState.move] at hmove
    split at hmove
    case h_2 => cases hmove
    rename_i possession source now hstage
    obtain ⟨⟨hgen, hsrc⟩, hnow⟩ := hguard.soundStage hstage
    have hwindow := hstep.meets
    simp only [timely, hstage, decide_eq_true_eq] at hwindow
    cases hmove
    rw [hsrc]
    exact hguard.enterNonce hstep.room hgen hnow hwindow

/-- In a run whose handshakes enter their nonces in time, no Hello token is
accepted twice. -/
theorem accepted_tokens_nodup {moves : List ResponderMove}
    (hrun : Trace (ResponderState.Step lib tokens inner timely) (.idle clock) moves state) :
    (state.accepted.map Possession.token).Nodup :=
  (hrun.preserves (Guarded lib tokens) (fun _ _ _ _ hstep hguard =>
    guarded_step hstep hguard) (guarded_idle clock)).once

end Invariant

/-! ## The end of the acceptance window -/

/-- Names that are their own texts. -/
def plainNames : NameLib String where
  parseDid := fun text => .ok ⟨"dev", text⟩
  didText := Did.id
  rawHostName := Did.id
  pathFromId := fun _ => none
  authKey := fun did => some did.id
  keyText := id
  decodeDocument := fun _ => .error "no documents"

/-- One token from `alice` to `bob`, valid up to second 160 and for the leeway
behind it. -/
def oneToken : TokenLib String Unit where
  signedBy := fun token key => decide (token = "token" ∧ key = "alice")
  helloClaims := fun _ => .ok ⟨rtcpHelloAud, "bob", "bob", "alice", 2980, "", 100, 160, "nonce"⟩
  decodeX25519PubHex := fun _ => .ok ()
  signedBy_unique := fun _ _ _ hkey hother =>
    (of_decide_eq_true hkey).2.trans (of_decide_eq_true hother).2.symm

def bob : RTcpInner := ⟨⟨"dev", "bob"⟩, ⟨"dev", "bob"⟩, none, none, .reject, .any⟩

def aliceHello : RTcpHelloBody := ⟨"alice", "bob", 2980, some "token", none⟩

def noAnswers : Answers := ⟨.ok (), .error "no documents", fun _ => false, none⟩

/-- The steps of one handshake, with a wait before the nonce. -/
def presentation (index wait : Nat) : List ResponderMove :=
  [.connect aliceHello, .prove index 0, .tick wait, .identify index noAnswers,
    .readClock index, .insert index]

def acceptedTokens (Condition : ResponderState String Unit → ResponderMove → Bool)
    (clock : Nat) (moves : List ResponderMove) : Option (List String) :=
  ((ResponderState.idle clock).run plainNames oneToken bob Condition moves).map fun state =>
    state.accepted.map Possession.token

/-- Presented twice within its window, the token is accepted once. -/
theorem accepted_tokens_nodup_twice :
    acceptedTokens timely 100 (presentation 0 3 ++ presentation 1 5) = some ["token"] ∧
      ∃ state, (ResponderState.idle 100).run plainNames oneToken bob timely
          (presentation 0 3 ++ presentation 1 5) = some state ∧
        (state.accepted.map Possession.token).Nodup := by
  have hacc : acceptedTokens timely 100 (presentation 0 3 ++ presentation 1 5) =
      some ["token"] := by decide +kernel
  obtain ⟨state, hrun, -⟩ := Option.map_eq_some_iff.mp hacc
  exact ⟨hacc, state, hrun, accepted_tokens_nodup (ResponderState.trace_run _ _ _ hrun)⟩

/-- In the last second of its window the token is accepted twice, and so it is if
the second presentation enters its nonce one second after the verification. -/
theorem token_accepted_twice :
    acceptedTokens (fun _ _ => true) 220 (presentation 0 0 ++ presentation 1 0) =
        some ["token", "token"] ∧
      acceptedTokens (fun _ _ => true) 219 (presentation 0 0 ++ [.tick 1] ++ presentation 1 1) =
        some ["token", "token"] := by decide +kernel

end CyfsGateway.Rtcp
