import CyfsGateway.Sn.AtMostOnce
import CyfsGateway.Sn.Footprints

/-!
# Nonces of transactions in flight

A client takes nonces from its cache and, when the cache is empty, from the node;
the records that use them are in the store, which neither of the two reads.  The
execution lock is the mode of a task here: whoever holds it can rely on nobody else
taking a nonce or beginning a request.
-/

namespace CyfsGateway.SnNonces

open Evm Transition Tasks BnsModel SnRequests SnActions SnEvmClient SnDocuments SnIdempotency
  SnController SnPlans SnFootprints SnRequestRules SnClientRules SnAtMostOnce Function List

variable (libraries : Libraries)

def rowSigner (row : SnBnsWriteRequestRecord) : Option Bytes := do
  let rawTx ← row.evmRawTx
  let decoded ← (libraries.fromRawTx rawTx).toOption
  some decoded.fromAddress

/-- A record in flight of this signer. -/
structure Inflight (libraries : Libraries) (signer : Bytes) (row : SnBnsWriteRequestRecord) :
    Prop where
  state : row.state.inflight = true
  signer : rowSigner libraries row = some signer

instance (libraries : Libraries) (signer : Bytes) (row : SnBnsWriteRequestRecord) :
    Decidable (Inflight libraries signer row) :=
  decidable_of_iff (row.state.inflight = true ∧ rowSigner libraries row = some signer)
    ⟨fun h => ⟨h.1, h.2⟩, fun h => ⟨h.1, h.2⟩⟩

/-- Records in flight of one signer and chain have different nonces, or are one record. -/
def NoncesDistinct (world : World) : Prop :=
  ∀ first ∈ world.rows, ∀ second ∈ world.rows, ∀ signer,
    Inflight libraries signer first → Inflight libraries signer second →
    first.evmChainId = second.evmChainId → first.evmNonce = second.evmNonce → first = second

/-- Whatever is signed between two worlds has a nonce no record in flight uses.  A record
in flight may still be mined, and would then compete with the new one. -/
def SignsFresh (before after : World) : Prop :=
  ∀ signature, after.signatures = before.signatures ++ [signature] →
    ∀ row ∈ before.rows, Inflight libraries signature.signed.signer row →
      row.evmChainId = some signature.signed.chainId →
      row.evmNonce ≠ some signature.signed.nonce

/-- The keys that clients sign with, and the chains that they sign for.  Two clients may share a
key, but not on one chain. -/
structure Accounts where
  keyOf : Nat → Bytes
  serves : Nat → UInt64 → Bool
  apart : ∀ {first second chain}, keyOf first = keyOf second → serves first chain →
    serves second chain → first = second

/-- A nonce past every record in flight of the client's key on its chains. -/
def Past (accounts : Accounts) (client : Nat) (nonce : UInt64) (world : World) : Prop :=
  ∀ row ∈ world.rows, Inflight libraries (accounts.keyOf client) row →
    row.evmChainId.all (accounts.serves client) → ∀ used ∈ row.evmNonce, used < nonce

instance (libraries : Libraries) (accounts : Accounts) (client : Nat) (nonce : UInt64)
    (world : World) : Decidable (Past libraries accounts client nonce world) :=
  inferInstanceAs (Decidable (∀ row ∈ world.rows, _ → _))

def Increments (client : Nat) (signer : Bytes) (world : World) : Prop :=
  ∀ cached ∈ world.nonces client signer, cached.toNat < 2 ^ 63

instance (client : Nat) (signer : Bytes) (world : World) :
    Decidable (Increments client signer world) :=
  -- Not by the values of the type, of which there are too many.
  decidable_of_iff ((world.nonces client signer).all (fun cached => cached.toNat < 2 ^ 63) = true)
    (by simp [Increments, Option.all_eq_true])

/-- The answers under which nonces are not used twice: a client signs with its key for its
chains, and a nonce that comes from the node instead of the cache is past every record in
flight of the signer on them. -/
def Ordered (accounts : Accounts) (world : World) : Action → Choice → Prop
  | .signerAddress client _, .address address => address = accounts.keyOf client
  | .signTransaction client _, .signed signed =>
    signed.signer = accounts.keyOf client ∧ accounts.serves client signed.chainId
  | .takeNonce client signer, _ => Increments client signer world
  | .fillNonce client signer nonce, _ | .reserveNonce client signer nonce, _ =>
    Increments client signer world ∧ nonce.toNat < 2 ^ 63 ∧
      (world.nonces client signer = none → Past libraries accounts client nonce world)
  | _, _ => True

def ordered (accounts : Accounts) (world : World) : Action → Choice → Bool
  | .signerAddress client _, .address address => decide (address = accounts.keyOf client)
  | .signTransaction client _, .signed signed =>
    decide (signed.signer = accounts.keyOf client ∧ accounts.serves client signed.chainId)
  | .takeNonce client signer, _ => decide (Increments client signer world)
  | .fillNonce client signer nonce, _ | .reserveNonce client signer nonce, _ =>
    decide (Increments client signer world ∧ nonce.toNat < 2 ^ 63 ∧
      (world.nonces client signer = none → Past libraries accounts client nonce world))
  | _, _ => true

theorem ordered_eq_true_iff (accounts : Accounts) (world : World)
    (action : Action) (choice : Choice) :
    ordered libraries accounts world action choice = true ↔
      Ordered libraries accounts world action choice := by
  unfold ordered Ordered
  split
  case h_6 => exact iff_of_true rfl trivial
  all_goals exact decide_eq_true_iff

instance (libraries : Libraries) (accounts : Accounts) (world : World) (action : Action)
    (choice : Choice) : Decidable (Ordered libraries accounts world action choice) :=
  decidable_of_iff _ (ordered_eq_true_iff libraries accounts world action choice)

/-- No two records use one nonce, and what a client has cached is past them all.  The
second part is what lets a client sign without reading the rows again. -/
structure Orderly (libraries : Libraries) (accounts : Accounts) (world : World) : Prop where
  distinct : NoncesDistinct libraries world
  cached : ∀ client, ∀ next ∈ world.nonces client (accounts.keyOf client),
    Past libraries accounts client next world

/-- Records in flight are only completed, and caches are left alone. -/
structure Still (world after : World) : Prop where
  nonces : after.nonces = world.nonces
  locked : .execution ∈ world.locks → .execution ∈ after.locks
  rows : ∀ row ∈ after.rows, row.state.inflight = true →
    ∃ old ∈ world.rows, Continues old row ∧ old.state.inflight = true

inductive Turn
  /-- The execution lock may be held by somebody else. -/
  | outside
  | inside

variable {libraries : Libraries} {accounts : Accounts} {world after : World}

theorem Still.refl (world : World) : Still world world :=
  ⟨rfl, id, fun row hrow hstate => ⟨row, hrow, .refl row, hstate⟩⟩

theorem Still.trans (hfirst : Still first second)
    (hsnd : Still second third) : Still first third where
  nonces := hsnd.nonces.trans hfirst.nonces
  locked := hsnd.locked ∘ hfirst.locked
  rows row hrow hstate := by
    obtain ⟨middle, hmid, hcont, hmiddleState⟩ := hsnd.rows row hrow hstate
    obtain ⟨old, hold, hagain, holdState⟩ := hfirst.rows middle hmid hmiddleState
    exact ⟨old, hold, hagain.trans hcont, holdState⟩

def turn : Turn → Action → Turn
  | .outside, .acquire .execution => .inside
  | .inside, .release .execution => .outside
  | mode, _ => mode

/-- Only the holder of the execution lock takes nonces and begins requests.  What is
known of every request in every step is admitted, not proved again. -/
def nonceRules (libraries : Libraries) (accounts : Accounts) : Rules Action Choice World Turn where
  Invariant := Orderly libraries accounts
  Admits world action choice after :=
    Admitted action choice ∧ Ordered libraries accounts world action choice ∧
      Intact libraries world ∧ Intact libraries after ∧ Leads world after
  Leads _ _ := True
  Rely
    | .outside => fun _ _ => True
    | .inside => Still
  Guarantee
    | .outside => fun world after => Still world after ∧ SignsFresh libraries world after
    | .inside => SignsFresh libraries
  turn := turn
  refl _ := trivial
  trans _ _ := trivial
  rely_refl mode world := by
    cases mode with
    | outside => trivial
    | inside => exact .refl world
  rely_trans {mode} _ _ _ hfirst hsecond := by
    cases mode with
    | outside => trivial
    | inside => exact Still.trans hfirst hsecond
  rely_leads _ := trivial
  guarantee_leads _ := trivial

section Quietly

variable {old row : SnBnsWriteRequestRecord}

theorem inflight_of_continues (hcont : Continues old row) (hold : old.state.inflight = true)
    (hrow : Inflight libraries signer row) : Inflight libraries signer old := by
  refine ⟨hold, ?_⟩
  rw [rowSigner, ← hcont.same.evmRawTx]
  exact hrow.signer

theorem Past.still (hpast : Past libraries accounts client nonce world)
    (hstill : Still world after) : Past libraries accounts client nonce after := by
  intro row hrow hinflight hchain used hused
  obtain ⟨old, hold, hcont, hstate⟩ := hstill.rows row hrow hinflight.state
  rw [hcont.same.evmNonce] at hused
  rw [hcont.same.evmChainId] at hchain
  exact hpast old hold (inflight_of_continues hcont hstate hinflight) hchain used hused

theorem NoncesDistinct.still (hdist : NoncesDistinct libraries world)
    (hintact : Intact libraries after) (hstill : Still world after) :
    NoncesDistinct libraries after := by
  intro first hfirst second hsnd signer hfirstIn hsecondIn hchain hnonce
  obtain ⟨old, hold, hcont, hstate⟩ := hstill.rows first hfirst hfirstIn.state
  obtain ⟨other, hother, hagain, hotherState⟩ := hstill.rows second hsnd hsecondIn.state
  have hsame : old = other :=
    hdist old hold other hother signer (inflight_of_continues hcont hstate hfirstIn)
      (inflight_of_continues hagain hotherState hsecondIn)
      (by rw [← hcont.same.evmChainId, ← hagain.same.evmChainId, hchain])
      (by rw [← hcont.same.evmNonce, ← hagain.same.evmNonce, hnonce])
  have hid : first.requestId = second.requestId := by
    rw [hcont.same.requestId, hagain.same.requestId, hsame]
  exact inj_on_of_nodup_map hintact.unique hfirst hsnd hid

theorem Orderly.still (hord : Orderly libraries accounts world)
    (hintact : Intact libraries after) (hstill : Still world after) :
    Orderly libraries accounts after where
  distinct := hord.distinct.still hintact hstill
  cached client next hnext := by
    rw [hstill.nonces] at hnext
    exact (hord.cached client next hnext).still hstill

/-- Nothing is signed, cached or begun. -/
structure Untouched (world after : World) : Prop where
  nonces : after.nonces = world.nonces
  signatures : after.signatures = world.signatures
  locked : .execution ∈ world.locks → .execution ∈ after.locks
  ids : ∀ row ∈ after.rows, ∃ old ∈ world.rows, old.requestId = row.requestId

theorem Untouched.refl (world : World) : Untouched world world :=
  ⟨rfl, rfl, id, fun row hrow => ⟨row, hrow, rfl⟩⟩

theorem forward_inflight (hforward : Forward first second)
    (hsnd : second.inflight = true) : first.inflight = true := by
  cases first <;> cases second <;> simp_all [Forward, BnsWriteRequestState.inflight]

/-- Request ids are unique, so a row that is there is the row it continues. -/
theorem Untouched.still (hunt : Untouched world after) (hintact : Intact libraries after)
    (hleads : Leads world after) : Still world after where
  nonces := hunt.nonces
  locked := hunt.locked
  rows row hrow hstate := by
    obtain ⟨old, hold, hid⟩ := hunt.ids row hrow
    obtain ⟨next, hnext, hcont⟩ := hleads.rows old hold
    have hsame : next = row :=
      inj_on_of_nodup_map hintact.unique hnext hrow (hcont.same.requestId.trans hid)
    subst hsame
    exact ⟨old, hold, hcont, forward_inflight hcont.state hstate⟩

theorem Untouched.signsFresh (hunt : Untouched world after) :
    SignsFresh libraries world after := by
  intro signature hsign
  rw [hunt.signatures] at hsign
  exact absurd hsign (by simp)

end Quietly

variable {Value : Type} {choice : Choice}

theorem untouched_ask {pick : Choice → Option Value}
    {note : Value → World → World} {answer : BnsClientResult Value}
    (hnote : ∀ value, Untouched world (note value world))
    (hact : ask pick note choice world = some (answer, after)) : Untouched world after := by
  rcases ask_eq_some hact with ⟨_, _, _, rfl⟩ | ⟨value, _, _, rfl⟩
  · exact .refl _
  · exact hnote value

theorem untouched_statement {statement : Rows → StoreResult (Value × Rows)}
    {answer : StoreResult Value}
    (hact : runStatement choice world statement = some (answer, after))
    (hstmt : ∀ result, statement world.rows = .ok result →
      ∀ row ∈ result.2, ∃ old ∈ world.rows, old.requestId = row.requestId) :
    Untouched world after := by
  rcases runStatement_eq_some hact with ⟨_, _, rfl⟩ | ⟨value, rows, hrows, _, rfl⟩
  · exact .refl _
  · exact ⟨rfl, rfl, id, hstmt (value, rows) hrows⟩

theorem untouched_change (change : Rows → Value × Rows) {answer : StoreResult Value}
    (hact : runStatement choice world (fun rows => .ok (change rows)) = some (answer, after))
    (hids : ∀ row ∈ (change world.rows).2, ∃ old ∈ world.rows,
      old.requestId = row.requestId) : Untouched world after := by
  refine untouched_statement hact fun result hres => ?_
  rw [← Except.ok.inj hres]
  exact hids

theorem ids_updateRows (hchange : ∀ row, (change row).requestId = row.requestId)
    (row : SnBnsWriteRequestRecord) (hrow : row ∈ (updateRows condition change rows).2) :
    ∃ old ∈ rows, old.requestId = row.requestId := by
  obtain ⟨old, hold, rfl⟩ := mem_map.mp hrow
  refine ⟨old, hold, ?_⟩
  split
  · exact (hchange old).symm
  · rfl

theorem ids_deleteRows (row : SnBnsWriteRequestRecord)
    (hrow : row ∈ (deleteRows condition rows).2) :
    ∃ old ∈ rows, old.requestId = row.requestId := ⟨row, (mem_filter.mp hrow).1, rfl⟩

variable {action : Action}

theorem untouched_acquire {lock answer}
    (hact : semantics libraries (.acquire lock) choice world = some (answer, after)) :
    Untouched world after := by
  obtain ⟨-, rfl⟩ := acquire_eq_some _ hact
  exact ⟨rfl, rfl, mem_cons_of_mem _, fun row hrow => ⟨row, hrow, rfl⟩⟩

theorem untouched_passive {answer : Answer action} (hpass : Passive action)
    (hact : semantics libraries action choice world = some (answer, after)) :
    Untouched world after := by
  cases action with
  | acquire lock => exact untouched_acquire hact
  | release lock =>
    cases lock with
    | execution => exact hpass.elim
    | submission client =>
      cases internally_eq_some hact
      exact ⟨rfl, rfl, (mem_erase_of_ne (by simp)).mpr, fun row hrow => ⟨row, hrow, rfl⟩⟩
  | now | pollsBeforeDeadline =>
    cases choice <;> cases hact
    exact .refl _
  | getRequest requestId =>
    exact untouched_change (fun rows => (getRow requestId rows, rows)) hact
      fun row hrow => ⟨row, hrow, rfl⟩
  | listInflight =>
    exact untouched_change (fun rows => (listInflight rows, rows)) hact
      fun row hrow => ⟨row, hrow, rfl⟩
  | repairPreparedMetadata requestId payloadHash rawTx txHash prepared =>
    exact untouched_change (repairPreparedMetadata requestId payloadHash rawTx txHash prepared)
      hact (ids_updateRows fun _ => rfl)
  | removeRecoveryFailed requestId payloadHash txHash rawTx =>
    exact untouched_change (removeRecoveryFailed requestId payloadHash txHash rawTx) hact
      ids_deleteRows
  | removeUnprepared requestId payloadHash =>
    exact untouched_change (removeUnprepared requestId payloadHash) hact ids_deleteRows
  | updateInflight record =>
    refine untouched_statement hact fun result hupdate => ?_
    rw [updateInflight] at hupdate
    split at hupdate
    · cases hupdate
    · rw [← Except.ok.inj hupdate]
      exact ids_updateRows fun _ => rfl
  | resolveRecoveryFailed record =>
    refine untouched_statement hact fun result hresol => ?_
    unfold resolveRecoveryFailed at hresol
    split at hresol <;>
      first
        | cases hresol; done
        | rw [← Except.ok.inj hresol]
          exact ids_updateRows fun _ => rfl
  | submitRawTx requestId rawTx =>
    cases choice <;> cases hact
    exact ⟨rfl, rfl, id, fun row hrow => ⟨row, hrow, rfl⟩⟩
  | queryTxState txHash =>
    refine untouched_ask (fun state => ?_) hact
    unfold noteState
    split
    · exact ⟨rfl, rfl, id, fun row hrow => ⟨row, hrow, rfl⟩⟩
    · exact ⟨rfl, rfl, id, fun row hrow => ⟨row, hrow, rfl⟩⟩
    · exact .refl _
    · exact .refl _
  | transactionReceipt txHash =>
    refine untouched_ask (fun receipt => ?_) hact
    cases receipt with
    | none => exact .refl _
    | some receipt => exact ⟨rfl, rfl, id, fun row hrow => ⟨row, hrow, rfl⟩⟩
  | signerAddress | prepareTx | transactionCount | suggestTx | blockNumber
  | transactionByHash | resolveDocument | queryNameState | getAuthoritySet =>
    exact untouched_ask (fun _ => .refl _) hact
  | tryBegin | takeNonce | fillNonce | reserveNonce | resetNonce | signTransaction =>
    exact hpass.elim

theorem turn_passive (mode : Turn) (hpass : Passive action) : turn mode action = mode := by
  unfold turn
  split
  · exact hpass.elim
  · exact hpass.elim
  · rfl

/-- In every mode an action that touches nothing keeps the rules, and with them what
nobody else can break. -/
theorem keeps_untouched {mode : Turn} {Fact : World → Prop} (hunt : ∀ choice answer after,
      semantics libraries action choice world = some (answer, after) → Untouched world after)
    (hfact : ∀ {after}, Still world after → Fact after)
    (hord : Orderly libraries accounts world) :
    (nonceRules libraries accounts).Keeps (semantics libraries) mode action world
      fun _ after => Fact after := by
  intro choice answer after ⟨_, _, _, hintact, hleads⟩ hact
  have hsame := hunt choice answer after hact
  have hstill := hsame.still hintact hleads
  refine ⟨hord.still hintact hstill, ?_, hfact hstill⟩
  cases mode with
  | outside => exact ⟨hstill, hsame.signsFresh⟩
  | inside => exact hsame.signsFresh

/-- A task of the lock holder keeps the rules and ends with `Post`. -/
abbrev NonceSafe (libraries : Libraries) (accounts : Accounts) {Value : Type}
    (Post : World → Value → Prop) (task : Task Answer Value) (world : World) : Prop :=
  Safe (semantics libraries) (nonceRules libraries accounts) .inside Post .inside task world

abbrev NonceRuns (libraries : Libraries) (accounts : Accounts) (mode : Turn)
    {Value Error : Type} (Good : World → Value → Prop) (Bad : World → Error → Prop)
    (program : Program Answer Error Value) (world : World) : Prop :=
  Runs (semantics libraries) (nonceRules libraries accounts) mode Good Bad program world

theorem runs_passively {Error : Type} {program : Program Answer Error Value}
    (hprog : program.run.Only Passive) :
    NonceRuns libraries accounts mode Anything Anything program world :=
  safe_only (fun _ => turn_passive mode)
    (fun _ _ hpass hord => keeps_untouched (fun _ _ _ => untouched_passive hpass)
      (fun _ => trivial) hord)
    outcome_anything hprog

/-- A passive task of the lock holder keeps what nobody else can break. -/
theorem safe_still {Fact : World → Prop} {task : Task Answer Value} (htask : task.Only Passive)
    (hfact : ∀ {world after}, Still world after → Fact world → Fact after) (hworld : Fact world) :
    NonceSafe libraries accounts (fun after _ => Fact after) task world :=
  safe_keeping hworld hfact (fun _ => turn_passive _)
    (fun _ _ hpass hord hnow => keeps_untouched
      (fun _ _ _ => untouched_passive hpass) (fun hstill => hfact hstill hnow) hord)
    htask

theorem runs_withSubmission {Error : Type} {Good : World → Value → Prop}
    {Bad : World → Error → Prop} {client : Nat} {body : Program Answer Error Value}
    (hgood : ∀ {world after value}, Still world after → Good world value → Good after value)
    (hbad : ∀ {world after error}, Still world after → Bad world error → Bad after error)
    (hbody : ∀ after, NonceRuns libraries accounts .inside Good Bad body after) :
    NonceRuns libraries accounts .inside Good Bad (withLock (.submission client) body) world := by
  have hacquire : NonceSafe libraries accounts
      (fun _ _ => True) (perform (Action.acquire (.submission client))) world :=
    safe_still (only_perform _ trivial) (fun _ _ => trivial) trivial
  refine safe_bind hacquire fun _ acquired _ _ => ?_
  refine safe_bind (hbody acquired) fun outcome ended _ hout => ?_
  have hrel : NonceSafe libraries accounts (fun after _ => Outcome Good Bad after outcome)
      (perform (Action.release (.submission client))) ended := by
    refine safe_still (only_perform _ trivial) (fun hstill hnow => ?_) hout
    cases outcome with
    | ok value => exact hgood hstill hnow
    | error error => exact hbad hstill hnow
  exact safe_bind hrel fun _ _ _ hreleased => ⟨rfl, hreleased⟩

/-! ## Taking a nonce -/

structure Reserved (libraries : Libraries) (accounts : Accounts) (client : Nat)
    (nonce : UInt64) (world : World) : Prop where
  past : Past libraries accounts client nonce world
  cached : ∃ next ∈ world.nonces client (accounts.keyOf client), nonce < next

section Taking

variable {client : Nat} {nonce : UInt64}

theorem Reserved.still (hresv : Reserved libraries accounts client nonce world)
    (hstill : Still world after) : Reserved libraries accounts client nonce after where
  past := hresv.past.still hstill
  cached := by
    rw [hstill.nonces]
    exact hresv.cached

theorem lt_succ_of_small (hsmall : nonce.toNat < 2 ^ 63) : nonce < nonce + 1 := by
  rw [UInt64.lt_iff_toNat_lt, UInt64.toNat_add]
  simp
  omega

theorem Past.mono (hpast : Past libraries accounts client nonce world)
    (hlater : nonce ≤ later) : Past libraries accounts client later world := by
  intro row hrow hinflight hchain used hused
  have hused := hpast row hrow hinflight hchain used hused
  rw [UInt64.lt_iff_toNat_lt] at hused ⊢
  rw [UInt64.le_iff_toNat_le] at hlater
  omega

theorem nonces_setNonce_self (signer : Bytes) (next : Option UInt64) :
    (setNonce client signer next world).nonces client signer = next := by simp [setNonce]

theorem orderly_setNonce {signer next} (hord : Orderly libraries accounts world)
    (hnext : ∀ value ∈ next, Past libraries accounts client value world) :
    Orderly libraries accounts (setNonce client signer next world) where
  distinct := hord.distinct
  cached other value hvalue := by
    by_cases hother : other = client
    · subst hother
      by_cases hsigner : accounts.keyOf other = signer
      · subst hsigner
        rw [nonces_setNonce_self] at hvalue
        exact hnext value hvalue
      · simp only [setNonce, update_self, update_of_ne hsigner] at hvalue
        exact hord.cached other value hvalue
    · simp only [setNonce, update_of_ne hother] at hvalue
      exact hord.cached other value hvalue

theorem signsFresh_setNonce (signer : Bytes) (next : Option UInt64) :
    SignsFresh libraries world (setNonce client signer next world) := by
  intro signature hsign
  exact absurd hsign (by simp [setNonce])

theorem taken_of_past (hord : Orderly libraries accounts world)
    (hpast : Past libraries accounts client nonce world) (hsmall : nonce.toNat < 2 ^ 63) :
    Orderly libraries accounts (setNonce client (accounts.keyOf client) (some (nonce + 1)) world) ∧
      Reserved libraries accounts client nonce
        (setNonce client (accounts.keyOf client) (some (nonce + 1)) world) := by
  have hlater : nonce ≤ nonce + 1 := UInt64.le_of_lt (lt_succ_of_small hsmall)
  refine ⟨orderly_setNonce hord fun value hvalue => ?_, hpast, nonce + 1, ?_,
    lt_succ_of_small hsmall⟩
  · obtain rfl := Option.mem_some.mp hvalue
    exact hpast.mono hlater
  · rw [nonces_setNonce_self]
    exact rfl

/-- What the cache holds, or what the node offers when it holds nothing. -/
theorem past_offered (hord : Orderly libraries accounts world)
    (hsmall : Increments client (accounts.keyOf client) world) (hoffered : offered.toNat < 2 ^ 63)
    (hpast : world.nonces client (accounts.keyOf client) = none →
      Past libraries accounts client offered world) :
    Past libraries accounts client ((world.nonces client (accounts.keyOf client)).getD offered)
        world ∧
      ((world.nonces client (accounts.keyOf client)).getD offered).toNat < 2 ^ 63 := by
  cases hcached : world.nonces client (accounts.keyOf client) with
  | none => exact ⟨hpast hcached, hoffered⟩
  | some cached => exact ⟨hord.cached client cached hcached, hsmall cached hcached⟩

theorem max_small {first second : UInt64} (hfirst : first.toNat < 2 ^ 63)
    (hsnd : second.toNat < 2 ^ 63) :
    first ≤ max first second ∧ (max first second).toNat < 2 ^ 63 := by
  have hmax : max first second = if first ≤ second then second else first := rfl
  rw [hmax]
  split
  · next hle => exact ⟨hle, hsnd⟩
  · exact ⟨UInt64.le_refl first, hfirst⟩

theorem safe_takeNonce (client : Nat) :
    NonceSafe libraries accounts (fun after (taken : Option UInt64) => ∀ nonce ∈ taken,
        Reserved libraries accounts client nonce after)
      (perform (Action.takeNonce client (accounts.keyOf client)) : Task Answer (Option UInt64))
      world := by
  refine safe_perform fun now _ hord choice answer after ⟨_, hsmall, _⟩ hact => ?_
  have hres := internally_eq_some hact
  cases hcached : now.nonces client (accounts.keyOf client) with
  | none =>
    rw [hcached] at hres
    cases hres
    exact ⟨hord, (Untouched.refl now).signsFresh, nofun⟩
  | some cached =>
    rw [hcached] at hres
    cases hres
    obtain ⟨hafter, hresv⟩ := taken_of_past hord
      (hord.cached client cached hcached) (hsmall cached hcached)
    refine ⟨hafter, signsFresh_setNonce _ _, fun nonce hnonce => ?_⟩
    obtain rfl := Option.mem_some.mp hnonce
    exact hresv

theorem safe_fillNonce (client : Nat) (chainNonce : UInt64) :
    NonceSafe libraries accounts (fun after nonce => Reserved libraries accounts client nonce after)
      (perform (Action.fillNonce client (accounts.keyOf client) chainNonce) : Task Answer UInt64)
      world := by
  refine safe_perform fun now _ hord choice answer after ⟨_, hordered, _⟩ hact => ?_
  cases internally_eq_some hact
  obtain ⟨hsmall, hoffered, hempty⟩ := hordered
  obtain ⟨hpast, hnonce⟩ := past_offered hord hsmall hoffered hempty
  obtain ⟨hafter, hresv⟩ := taken_of_past hord hpast hnonce
  exact ⟨hafter, signsFresh_setNonce _ _, hresv⟩

theorem safe_reserveNonce (client : Nat) (suggested : UInt64) :
    NonceSafe libraries accounts (fun after nonce => Reserved libraries accounts client nonce after)
      (perform (Action.reserveNonce client (accounts.keyOf client) suggested) : Task Answer UInt64)
      world := by
  refine safe_perform fun now _ hord choice answer after ⟨_, hordered, _⟩ hact => ?_
  cases internally_eq_some hact
  obtain ⟨hsmall, hoffered, hempty⟩ := hordered
  obtain ⟨hpast, hnonce⟩ := past_offered hord hsmall hoffered hempty
  obtain ⟨hle, hsmaller⟩ := max_small hnonce hoffered
  obtain ⟨hafter, hresv⟩ := taken_of_past hord (hpast.mono hle) hsmaller
  exact ⟨hafter, signsFresh_setNonce _ _, hresv⟩

theorem safe_resetNonce (client : Nat) (signer : Bytes) : NonceSafe libraries accounts Anything
      (perform (Action.resetNonce client signer) : Task Answer Unit) world := by
  refine safe_perform fun now _ hord choice answer after _ hact => ?_
  cases internally_eq_some hact
  exact ⟨orderly_setNonce hord nofun, signsFresh_setNonce _ _, trivial⟩

end Taking

section Preparing

variable {client : BnsEvmControllerClient}

theorem runs_nextNonce : NonceRuns libraries accounts .inside
      (fun after nonce => Reserved libraries accounts client.id nonce after) Anything
      (nextNonce client (accounts.keyOf client.id)) world := by
  refine runs_bind (runs_effect (safe_takeNonce client.id)) fun taken _ _ htaken => ?_
  cases taken with
  | some nonce => exact runs_pure (htaken nonce rfl)
  | none =>
    refine runs_bind (runs_passively (only_fallible
      (only_perform (Action.transactionCount _) trivial))) fun chainNonce _ _ _ => ?_
    exact runs_effect (safe_fillNonce client.id chainNonce)

def Numbered (libraries : Libraries) (accounts : Accounts) (client : Nat) (world : World) :
    BnsClientResult UnsignedTx → Prop
  | .ok tx => Reserved libraries accounts client tx.nonce world
  | .error _ => True

theorem runs_unsignedTx (calldata : Bytes) (call : WriteRequest) :
    NonceRuns libraries accounts .inside (Numbered libraries accounts client.id) Anything
      (unsignedTx libraries client (accounts.keyOf client.id) calldata call) world := by
  unfold unsignedTx
  split
  · refine runs_bind (runs_passively (only_fallible
      (only_perform (Action.prepareTx _ calldata) trivial))) fun resp _ _ _ => ?_
    refine runs_ite (fun _ => ?_) fun _ => runs_throw trivial
    exact runs_bind (runs_effect (safe_reserveNonce client.id resp.nonce))
      fun nonce _ _ hresv => runs_pure hresv
  · refine runs_bind runs_nextNonce fun nonce _ _ hresv => ?_
    refine runs_ite (fun _ => runs_pure trivial) fun _ => ?_
    refine runs_ite (fun _ => ?_) fun _ => runs_pure hresv
    have hsuggest : NonceSafe libraries accounts
        (fun after _ => Reserved libraries accounts client.id nonce after)
        (perform (Action.suggestTx (accounts.keyOf client.id) calldata)) _ :=
      safe_still (only_perform _ trivial) (fun hstill h => h.still hstill) hresv
    refine runs_bind (runs_effect hsuggest) fun suggestion _ _ hkept => runs_pure ?_
    cases suggestion with
    | ok _ => exact hkept
    | error _ => trivial

structure Readied (libraries : Libraries) (accounts : Accounts) (client : Nat) (world : World)
    (signed : SignedTx) : Prop where
  genuine : Genuine libraries signed
  account : signed.signer = accounts.keyOf client ∧ accounts.serves client signed.chainId
  reserved : Reserved libraries accounts client signed.nonce world

theorem Readied.still {id signed} (hreadied : Readied libraries accounts id world signed)
    (hstill : Still world after) :
    Readied libraries accounts id after signed :=
  ⟨hreadied.genuine, hreadied.account, hreadied.reserved.still hstill⟩

theorem safe_signNumbered {id} (hresv : Reserved libraries accounts id tx.nonce world) :
    NonceSafe libraries accounts (Outcome (Readied libraries accounts id) Anything)
      (perform (Action.signTransaction id tx) : Task Answer (BnsClientResult SignedTx)) world := by
  refine safe_perform fun now hstill hord choice answer after ⟨hadm, hordered, _⟩
    hact => ?_
  rcases ask_eq_some hact with ⟨error, _, rfl, rfl⟩ | ⟨signed, hpick, rfl, rfl⟩
  · exact ⟨hord, (Untouched.refl after).signsFresh, trivial⟩
  obtain ⟨rfl, hdecodes, hnonce⟩ := pickSignature_eq_some hpick
  have hnow := hresv.still hstill
  rw [← hnonce] at hnow
  refine ⟨⟨hord.distinct, hord.cached⟩, ?_, ⟨hdecodes, hadm.1, hadm.2⟩,
    hordered, ⟨hnow.past, hnow.cached⟩⟩
  intro signature hsign row hrow hinflight hchain hused
  obtain rfl : ⟨tx, signed⟩ = signature := singleton_inj.mp (append_cancel_left hsign)
  obtain ⟨hsigner, hserves⟩ : signed.signer = accounts.keyOf id ∧ _ := hordered
  rw [hsigner] at hinflight
  exact UInt64.lt_irrefl _ (hnow.past row hrow hinflight (by rw [hchain]; exact hserves)
    signed.nonce hused)

/-- A prepared transaction is a signed one whose nonce is taken. -/
def ReadyToPersist (libraries : Libraries) (accounts : Accounts) (client : Nat) (world : World)
    (prepared : BnsEvmPreparedTx) : Prop :=
  ∃ signed, Readied libraries accounts client world signed ∧ Matches signed prepared

theorem runs_resetNonce {Good : World → BnsEvmPreparedTx → Prop} (signer : Bytes)
    (error : BnsClientError) :
    NonceRuns libraries accounts .inside Good Anything
      (resetNonce client signer >>= fun _ => throw error) world :=
  runs_bind (runs_effect (safe_resetNonce client.id signer)) fun _ _ _ _ => runs_throw trivial

theorem runs_signNumbered {tx : UnsignedTx} (signer : Bytes)
    (hresv : Reserved libraries accounts client.id tx.nonce world) :
    NonceRuns libraries accounts .inside (ReadyToPersist libraries accounts client.id) Anything
      (signedBy client signer tx) world := by
  refine runs_bind (runs_effect (safe_signNumbered hresv)) fun signature _ _ hsign => ?_
  cases signature with
  | error error => exact runs_resetNonce signer error
  | ok signed =>
    exact runs_ite (fun _ => runs_resetNonce signer _)
      fun _ => runs_pure ⟨signed, hsign, rfl, rfl, rfl, rfl⟩

theorem runs_signerAddress (call : WriteRequest) :
    NonceRuns libraries accounts .inside (fun _ signer => signer = accounts.keyOf client.id)
      Anything (fallible (perform (Action.signerAddress client.id call)) : EvmProgram Bytes)
      world := by
  refine safe_perform fun now _ hord choice answer after hadmits hact => ?_
  have hkeeps : (nonceRules libraries accounts).Keeps (semantics libraries) .inside
      (.signerAddress client.id call) now fun _ _ => True :=
    keeps_untouched (fun _ _ _ => untouched_passive trivial) (fun _ => trivial) hord
  obtain ⟨hafter, hfresh, _⟩ := hkeeps choice answer after hadmits hact
  refine ⟨hafter, hfresh, ?_⟩
  rcases ask_eq_some hact with ⟨error, _, rfl, _⟩ | ⟨address, hpick, rfl, _⟩
  · trivial
  · cases choice <;> cases hpick
    exact hadmits.2.1

theorem runs_prepareNumbered (call : WriteRequest) :
    NonceRuns libraries accounts .inside (ReadyToPersist libraries accounts client.id) Anything
      (prepareWithRequest libraries client call) world := by
  refine runs_bind (runs_computed (outcome_anything _ _)) fun calldata _ _ _ => ?_
  refine runs_bind (runs_signerAddress call) fun signer _ _ hsigner => ?_
  subst hsigner
  refine runs_withSubmission (fun hstill ⟨signed, hreadied, hmatch⟩ =>
    ⟨signed, hreadied.still hstill, hmatch⟩) (fun _ _ => trivial) fun after => ?_
  refine runs_bind (runs_unsignedTx calldata call) fun tx _ _ hnumbered => ?_
  cases tx with
  | error error => exact runs_resetNonce _ error
  | ok tx => exact runs_signNumbered _ hnumbered

end Preparing

section Persisting

variable {signed : SignedTx} {record : SnBnsWriteRequestRecord}

theorem rowSigner_of_carries (hgen : Genuine libraries signed)
    (hcarry : Carries signed record) : rowSigner libraries record = some signed.signer := by
  simp [rowSigner, hcarry.rawTx, hgen.decodes.1, Except.toOption]

variable {id : Nat}

section Numbered

variable (hprep : Prepared libraries signed record)
  (hreadied : Readied libraries accounts id world signed)

include hprep hreadied

theorem orderly_insert (hord : Orderly libraries accounts world) :
    Orderly libraries accounts { world with rows := world.rows ++ [record.stored] } := by
  have hcarry := hprep.carries.continues hprep.continues.same
  have hsigner : rowSigner libraries record.stored = some (accounts.keyOf id) := by
    rw [rowSigner_of_carries hprep.genuine hcarry, hreadied.account.1]
  have hfresh : ∀ row ∈ world.rows, ∀ signer, Inflight libraries signer row →
      Inflight libraries signer record.stored → row.evmChainId = record.stored.evmChainId →
      row.evmNonce ≠ record.stored.evmNonce := by
    intro row hrow signer hinflight hstored hchain hnonce
    obtain rfl := Option.some.inj (hsigner.symm.trans hstored.signer)
    rw [hcarry.nonce] at hnonce
    rw [hcarry.chainId] at hchain
    exact UInt64.lt_irrefl _ (hreadied.reserved.past row hrow hinflight
      (by rw [hchain]; exact hreadied.account.2) signed.nonce hnonce)
  constructor
  · intro first hfirst second hsnd signer hfirstIn hsecondIn hchain hnonce
    rw [mem_append, mem_singleton] at hfirst hsnd
    rcases hfirst with hfirst | rfl <;> rcases hsnd with hsnd | rfl
    · exact hord.distinct first hfirst second hsnd signer hfirstIn hsecondIn hchain hnonce
    · exact absurd hnonce (hfresh first hfirst signer hfirstIn hsecondIn hchain)
    · exact absurd hnonce.symm (hfresh second hsnd signer hsecondIn hfirstIn hchain.symm)
    · rfl
  · intro other next hnext row hrow hinflight hchain used hused
    rcases mem_append.mp hrow with hold | hadded
    · exact hord.cached other next hnext row hold hinflight hchain used hused
    obtain rfl := mem_singleton.mp hadded
    rw [hcarry.chainId] at hchain
    obtain rfl := accounts.apart (Option.some.inj (hsigner.symm.trans hinflight.signer))
      hreadied.account.2 hchain
    obtain ⟨cached, hcached, hlt⟩ := hreadied.reserved.cached
    obtain rfl := Option.some.inj (hcached.symm.trans hnext)
    rw [hcarry.nonce] at hused
    obtain rfl := Option.mem_some.mp hused
    exact hlt

theorem safe_beginNumbered : NonceSafe libraries accounts Anything
      (perform (Action.tryBegin record) : Task Answer (StoreResult SnBnsTryBeginResult))
      world := by
  refine safe_perform fun now hstill hord choice answer after _ hact => ?_
  rcases runStatement_eq_some hact with ⟨error, rfl, rfl⟩ | ⟨begun, rows, hbegin, rfl, rfl⟩
  · exact ⟨hord, (Untouched.refl after).signsFresh, trivial⟩
  have hsign : SignsFresh libraries now { now with rows } :=
    fun _ hsign => absurd hsign (by simp)
  rw [tryBegin] at hbegin
  split at hbegin
  · cases hbegin
  split at hbegin
  · rw [Except.ok.injEq, Prod.mk.injEq] at hbegin
    obtain ⟨rfl, rfl⟩ := hbegin
    exact ⟨orderly_insert hprep (hreadied.still hstill) hord, hsign, trivial⟩
  · rw [Except.ok.injEq, Prod.mk.injEq] at hbegin
    obtain ⟨rfl, rfl⟩ := hbegin
    exact ⟨hord, hsign, trivial⟩

end Numbered

theorem runs_abandon : NonceRuns libraries accounts .inside Anything Anything
      (abandonPreparedTx libraries client prepared : ControllerProgram Unit) world :=
  runs_ite (fun _ => runs_effect (safe_resetNonce _ _)) fun _ => runs_pure trivial

theorem runs_persistNumbered (hprep : Prepared libraries signed record)
    (hreadied : Readied libraries accounts id world signed) :
    NonceRuns libraries accounts .inside Anything Anything
      (persistPrepared libraries client record prepared) world := by
  refine runs_bind (runs_effect (safe_beginNumbered hprep hreadied)) fun begun _ _ _ => ?_
  match begun with
  | .ok .acquired => exact runs_pure trivial
  | .error error => exact runs_bind runs_abandon fun _ _ _ _ => runs_throw trivial
  | .ok (.existing existing) =>
    exact runs_bind runs_abandon fun _ _ _ _ =>
      runs_ite (fun _ => runs_throw trivial) fun _ => runs_throw trivial

theorem runs_executeNumbered {base : SnBnsWriteRequestRecord} {plan : ControllerProgram Write}
    (hplan : ReadsOnly plan) :
    NonceRuns libraries accounts .inside Anything Anything
      (executeOnce libraries client base plan) world := by
  refine runs_bind (runs_mapError (runs_passively (hplan.mono passive_of_reads)))
    fun write _ _ _ => ?_
  refine runs_bind (runs_mapError (runs_prepareNumbered write.request))
    fun prepared _ _ hready => ?_
  obtain ⟨signed, hreadied, hmatch⟩ := hready
  have hprep : Prepared libraries signed (preparedRecord base prepared
      (write.output (preparedSubmission prepared))) :=
    prepared_preparedRecord hreadied.genuine hmatch
  have hsubmit : NonceRuns libraries accounts .inside Anything Anything
      (persistAndSubmit libraries client base prepared
        (write.output (preparedSubmission prepared))) _ :=
    runs_bind (runs_mapError (runs_persistNumbered hprep hreadied)) fun _ _ _ _ =>
      runs_mapError (runs_passively only_submitPersisted)
  exact runs_bind hsubmit fun _ _ _ _ => runs_pure trivial

end Persisting

/-! ## The execution lock -/

section Locking

variable {formats : Formats}

/-- Taking the lock is taking the turn. -/
theorem runs_withExecution {Value Error : Type} {body : Program Answer Error Value}
    (hbody : ∀ after, NonceRuns libraries accounts .inside Anything Anything body after) :
    NonceRuns libraries accounts .outside Anything Anything (withLock .execution body) world := by
  have hacquire : Safe (semantics libraries) (nonceRules libraries accounts) .inside
      (fun _ _ => True) .outside (perform (Action.acquire .execution)) world := by
    refine safe_perform fun now _ hord => ?_
    exact keeps_untouched (fun _ _ _ => untouched_acquire) (fun _ => trivial) hord
  have hrel : ∀ ended, Safe (semantics libraries) (nonceRules libraries accounts) .outside
      (fun _ _ => True) .inside (perform (Action.release .execution)) ended := by
    refine fun ended => safe_perform fun now _ hord choice answer after _ hact => ?_
    cases internally_eq_some hact
    exact ⟨⟨hord.distinct, hord.cached⟩, fun _ hsign => absurd hsign (by simp), trivial⟩
  refine safe_bind hacquire fun _ acquired _ _ => ?_
  refine safe_bind (hbody acquired) fun outcome ended _ hout => ?_
  exact safe_bind (hrel ended) fun _ _ _ _ => ⟨rfl, outcome_anything _ _⟩

theorem runs_runNumbered (hplan : ReadsOnly operation.plan) :
    NonceRuns libraries accounts .outside Anything Anything
      (runIdempotent libraries formats client operation) world := by
  refine runs_withExecution fun locked => ?_
  refine runs_bind (runs_computed (outcome_anything _ _)) fun _ _ _ _ => ?_
  refine runs_bind (runs_passively (only_existingRequest operation.kind)) fun action _ _ _ => ?_
  cases action with
  | reuse output => exact runs_pure trivial
  | execute =>
    refine runs_bind (runs_passively (only_effect Action.now trivial)) fun now _ _ _ => ?_
    exact runs_mapError (runs_retryStale (fun _ => runs_executeNumbered hplan) _ _)

theorem safe_numbered (call : ControllerCall) (world : World) :
    Safe (semantics libraries) (nonceRules libraries accounts) .outside (fun _ _ => True) .outside
      ((controllers libraries formats).program call) world := by
  have hends : ∀ {Result : Type} {program : ControllerProgram Result}
      {answer : Result → CallResult},
      NonceRuns libraries accounts .outside Anything Anything program world →
      Safe (semantics libraries) (nonceRules libraries accounts) .outside (fun _ _ => True) .outside
        (program >>= fun result => pure (answer result)).run world := by
    intro Result program answer hprog
    have hanswer : NonceRuns libraries accounts .outside Anything Anything
        (program >>= fun result => pure (answer result)) world :=
      runs_bind hprog fun _ _ _ _ => runs_pure trivial
    exact Safe.mono hanswer fun _ _ _ _ => trivial
  cases call with
  | write controller call =>
    refine hends (runs_bind (runs_computed ?_) fun operation _ _ hplan =>
      runs_runNumbered hplan)
    cases hop : call.operation formats controller.config with
    | ok operation => exact readsOnly_operation operation hop
    | error error => trivial
  | replayRemoveBoundZone controller params =>
    refine hends (runs_ite (fun _ => runs_throw trivial) fun _ => ?_)
    refine runs_withExecution fun locked => ?_
    refine runs_bind (runs_passively (only_existingRequest .removeZone)) fun action _ _ _ => ?_
    cases action with
    | reuse output | execute => exact runs_pure trivial
  | waitForEvmReceipt controller txHash config =>
    exact hends (runs_passively (only_waitForEvmReceipt txHash config))
  | recoverInflightRequests controller =>
    refine hends (runs_withExecution fun locked => ?_)
    exact runs_passively (only_try (only_fallible (only_perform Action.listInflight trivial))
      fun records => only_recoverRecords records _)

theorem locked_after {action choice answer} (haction : action ≠ .release .execution)
    (hlocked : .execution ∈ world.locks)
    (hact : semantics libraries action choice world = some (answer, after)) :
    .execution ∈ after.locks := by
  by_cases hpass : Passive action
  · exact (untouched_passive hpass hact).locked hlocked
  cases action with
  | acquire lock => exact (untouched_acquire hact).locked hlocked
  | release lock =>
    cases lock with
    | execution => exact absurd rfl haction
    | submission client => exact absurd trivial hpass
  | tryBegin record =>
    rcases runStatement_eq_some hact with ⟨_, _, rfl⟩ | ⟨_, _, _, _, rfl⟩
    · exact hlocked
    · exact hlocked
  | takeNonce client signer =>
    have hres := internally_eq_some hact
    split at hres <;> cases hres <;> exact hlocked
  | fillNonce | reserveNonce | resetNonce =>
    cases internally_eq_some hact
    exact hlocked
  | signTransaction client tx =>
    rcases ask_eq_some hact with ⟨_, _, _, rfl⟩ | ⟨_, _, _, rfl⟩
    · exact hlocked
    · exact hlocked
  | _ => exact absurd trivial hpass

theorem turn_eq_inside {mode action} (hturn : turn mode action = .inside) :
    (mode = .outside ∧ action = .acquire .execution) ∨
      (mode = .inside ∧ action ≠ .release .execution) := by
  unfold turn at hturn
  split at hturn
  · exact .inl ⟨rfl, rfl⟩
  · cases hturn
  · next hrel =>
    subst hturn
    exact .inr ⟨rfl, fun haction => hrel rfl haction⟩

/-- At most one task is inside, and it holds the execution lock.  Meanwhile the others
leave the cached nonces alone and begin no request. -/
def nonceModes (libraries : Libraries) (formats : Formats) (accounts : Accounts) :
    Discipline (controllers libraries formats).semantics (nonceRules libraries accounts) where
  idle := .outside
  Compatible mode other := mode = .outside ∨ other = .outside
  Owns mode world := mode = .inside → .execution ∈ world.locks
  symm := Or.symm
  idle_compatible _ := .inl rfl
  idle_owns _ := nofun
  guarantee_rely {mode other _ _} hcompatible hguarantee := by
    cases other with
    | outside => trivial
    | inside =>
      cases mode with
      | outside => exact hguarantee.1
      | inside => simp at hcompatible
  owns_turn hcowns hperform _ hturn := by
    rcases turn_eq_inside hturn with ⟨_, rfl⟩ | ⟨hmode, haction⟩
    · obtain ⟨-, rfl⟩ := acquire_eq_some libraries hperform
      exact mem_cons_self
    · exact locked_after haction (hcowns hmode) hperform
  owns_other {mode other _ _} howns hcompatible hguarantee hother := by
    cases mode with
    | outside => exact hguarantee.1.locked (howns hother)
    | inside => simp [hother] at hcompatible
  compatible_turn {mode other action _ _ _ _} howns hcompatible hperform := by
    cases other with
    | outside => exact .inr rfl
    | inside =>
      cases hturned : turn mode action with
      | outside => exact .inl hturned
      | inside =>
        rcases turn_eq_inside hturned with ⟨_, rfl⟩ | ⟨rfl, _⟩
        · exact absurd (howns rfl) (acquire_eq_some libraries hperform).1
        · simp at hcompatible

end Locking

section Runs

variable {formats : Formats}

/-- A step of controllers over one store under which no nonce is used twice. -/
abbrev NonceStep (libraries : Libraries) (formats : Formats) (accounts : Accounts) :=
  StepMeeting (controllers libraries formats) fun world action choice =>
    Admitted action choice ∧ Ordered libraries accounts world action choice

abbrev SoundNonces (libraries : Libraries) (formats : Formats) (accounts : Accounts) :
    ControllerSystem → Prop :=
  Sound (controllers libraries formats) (fun _ _ _ => True) (nonceModes libraries formats accounts)

variable {system next : ControllerSystem} {move : Move ControllerCall Choice}

/-- What is known of the requests in each step makes it one the rules admit. -/
theorem admitted_of_sound (hreqs : SoundRequests libraries formats system)
    (hstep : NonceStep libraries formats accounts system move next) :
    AdmittedStep (controllers libraries formats) (nonceRules libraries accounts) system move
      next := by
  obtain ⟨hnext, hleads⟩ :=
    soundRequests_run hreqs (.single (stepMeeting_mono hstep And.left))
  exact admitted_of_meets _ _ hstep fun action choice hmeets =>
    ⟨hmeets.1, hmeets.2, hreqs.invariant, hnext.invariant, hleads⟩

theorem soundNonces_move (hreqs : SoundRequests libraries formats system)
    (hsound : SoundNonces libraries formats accounts system)
    (hstep : NonceStep libraries formats accounts system move next) :
    SoundNonces libraries formats accounts next ∧ SignsFresh libraries system.world next.world := by
  have hadm := admitted_of_sound hreqs hstep
  have hstable : ∀ call : ControllerCall,
      (nonceRules libraries accounts).Stable (nonceModes libraries formats accounts).idle
        (fun (_ : World) (_ : SnBnsControllerResult CallResult) => True) :=
    fun _ _ _ _ _ _ => trivial
  refine ⟨(sound_move hstable safe_numbered
    (fun world hord => ⟨⟨hord.distinct, nofun⟩, trivial⟩) hsound hadm).1, ?_⟩
  cases move with
  | step index choice =>
    obtain ⟨_, mode, hguar⟩ := sound_step hstable hsound hadm
    cases mode with
    | outside => exact hguar.2
    | inside => exact hguar
  | start call =>
    obtain rfl := Option.some.inj hstep.1
    exact (Untouched.refl _).signsFresh
  | stop =>
    obtain rfl := Option.some.inj hstep.1
    exact fun _ hsign => absurd hsign (by simp [controllers, World.reboot])

theorem soundNonces_run (hreqs : SoundRequests libraries formats first)
    (hsound : SoundNonces libraries formats accounts first)
    (hrun : Trace (NonceStep libraries formats accounts) first moves last) :
    SoundRequests libraries formats last ∧ SoundNonces libraries formats accounts last := by
  induction hrun with
  | nil system => exact ⟨hreqs, hsound⟩
  | cons hstep _ ih =>
    exact ih (soundRequests_run hreqs (.single (stepMeeting_mono hstep And.left))).1
      (soundNonces_move hreqs hsound hstep).1

/-- Runs of controllers over one store of uncorrupted rows, each with an account of its own, in
which a nonce that comes from the node is past every record in flight:
records in flight never share a nonce, and nothing is signed with the nonce of one. -/
theorem inflight_nonces_distinct {start last : ControllerSystem}
    {moves : List (Move ControllerCall Choice)} (hidle : start.jobs = [])
    (hintact : Intact libraries start.world) (hdistinct : NoncesDistinct libraries start.world)
    (hempty : ∀ client signer, start.world.nonces client signer = none)
    (hrun : Trace (NonceStep libraries formats accounts) start moves last) :
    NoncesDistinct libraries last.world ∧
      ∀ move next, NonceStep libraries formats accounts last move next →
        SignsFresh libraries last.world next.world := by
  obtain ⟨world, jobs⟩ := start
  subst hidle
  have hord : Orderly libraries accounts world :=
    ⟨hdistinct, fun client next hnext => by cases (hempty client _).symm.trans hnext⟩
  obtain ⟨hreqs, hsound⟩ :=
    soundNonces_run (sound_idle hintact) (sound_idle hord) hrun
  exact ⟨hsound.invariant.distinct,
    fun move next hstep => (soundNonces_move hreqs hsound hstep).2⟩

end Runs

/-- All clients sign with one key, each on a chain of its own. -/
def sampleAccounts : Accounts where
  keyOf _ := text "0x01"
  serves client chain := chain.toNat = client + 1
  apart _ hfirst hsnd :=
    Nat.succ.inj ((of_decide_eq_true hfirst).symm.trans (of_decide_eq_true hsnd))

def sampleBegin (index : Nat) (requestId : String) : List (Move ControllerCall Choice) :=
  [.start (sampleWrite (text requestId)), .step index .proceed, .step index .proceed]

/-- A request whose transaction is persisted; the broadcast fails, and whether the node
receives it is left open. -/
def sampleLost (index : Nat) (requestId : String) (suggested : UInt64) (signed : SignedTx)
    (received : Bool) : List (Move ControllerCall Choice) :=
  sampleBegin index requestId ++ samplePreparation index suggested signed ++
    [.submitted received (.error (.transport [])), sampleLookup, .proceed].map (.step index)

/-- How many transactions of the signer the node has received. -/
def pendingCount (libraries : Libraries) (signer : Bytes) (world : World) : Nat :=
  (world.received.filter fun rawTx =>
    (libraries.fromRawTx rawTx).toOption.map (·.fromAddress) = some signer).length

/-- The node counts exactly what it has received. -/
def CountsReceived (libraries : Libraries) (world : World) : Action → Choice → Prop
  | .transactionCount signer, .number count => count.toNat = pendingCount libraries signer world
  | .prepareTx signer _, .prepared resp => resp.nonce.toNat = pendingCount libraries signer world
  | _, _ => True

instance (libraries : Libraries) (world : World) (action : Action) (choice : Choice) :
    Decidable (CountsReceived libraries world action choice) := by
  unfold CountsReceived
  split <;> infer_instance

/-- Two requests in flight, with a node that counts what it has received. -/
theorem inflight_nonces_distinct_pair :
    ∃ last, Trace (StepMeeting (controllers sampleLibraries sampleFormats)
        fun world action choice => (Admitted action choice ∧
          Ordered sampleLibraries sampleAccounts world action choice) ∧
          CountsReceived sampleLibraries world action choice) sampleStart
        (sampleLost 0 "r" 0 (sampleSigned 0 []) true ++ sampleLost 1 "s" 1 (sampleSigned 1 []) true)
        last ∧
      last.world.rows.length = 2 ∧ NoncesDistinct sampleLibraries last.world := by
  have hmoves : ((sampleStart.movesMeeting (controllers sampleLibraries sampleFormats)
      (fun world action choice => (Admitted action choice ∧
        Ordered sampleLibraries sampleAccounts world action choice) ∧
        CountsReceived sampleLibraries world action choice)
      (sampleLost 0 "r" 0 (sampleSigned 0 []) true ++
        sampleLost 1 "s" 1 (sampleSigned 1 []) true)).map
        fun last => last.world.rows.length) = some 2 := by decide +kernel
  rw [Option.map_eq_some_iff] at hmoves
  obtain ⟨last, hlast, hlen⟩ := hmoves
  have hrun := trace_movesMeeting hlast
  refine ⟨last, hrun, hlen, (inflight_nonces_distinct rfl
    ⟨by simp [sampleStart], by simp [sampleStart], by simp [sampleStart]⟩
    (by simp [NoncesDistinct, sampleStart]) (fun _ _ => rfl)
    (hrun.mono fun _ _ _ _ hstep => stepMeeting_mono hstep And.left)).1⟩

/-- The first broadcast never arrives; signing the second request fails, which drops the
cache; the third request is given the nonce of the first. -/
def sampleReuse : List (Move ControllerCall Choice) :=
  sampleLost 0 "r" 0 (sampleSigned 0 []) false ++ (sampleBegin 1 "s" ++ sampleNumbering 1 0 ++
      [.fails (.transport []), .proceed, .proceed, .proceed].map (.step 1)) ++
    sampleLost 2 "t" 0 (sampleSigned 0 [1]) true

/-- Two records of different requests with one signer, chain and nonce. -/
def collides (libraries : Libraries) (first second : SnBnsWriteRequestRecord) : Bool :=
  decide (first.requestId ≠ second.requestId ∧ first.state.inflight = true ∧
    second.state.inflight = true ∧ rowSigner libraries first = some (text "0x01") ∧
    rowSigner libraries second = some (text "0x01") ∧ first.evmChainId = second.evmChainId ∧
    first.evmNonce = second.evmNonce)

theorem nonce_used_twice :
    ∃ moves last, Trace (StepMeeting (controllers sampleLibraries sampleFormats)
        fun world action choice => Admitted action choice ∧
          CountsReceived sampleLibraries world action choice) sampleStart moves last ∧
      ¬ NoncesDistinct sampleLibraries last.world := by
  have hmoves : ((sampleStart.movesMeeting (controllers sampleLibraries sampleFormats)
      (fun world action choice => Admitted action choice ∧
        CountsReceived sampleLibraries world action choice) sampleReuse).map fun last =>
        last.world.rows.any fun first => last.world.rows.any (collides sampleLibraries first)) =
      some true := by decide +kernel
  rw [Option.map_eq_some_iff] at hmoves
  obtain ⟨last, hlast, hcollides⟩ := hmoves
  refine ⟨sampleReuse, last, trace_movesMeeting hlast, fun hdist => ?_⟩
  obtain ⟨first, hfirst, hany⟩ := any_eq_true.mp hcollides
  obtain ⟨second, hsnd, hpair⟩ := any_eq_true.mp hany
  obtain ⟨hid, hfirstState, hsecondState, hfirstSigner, hsecondSigner, hchain, hnonce⟩ :=
    of_decide_eq_true hpair
  exact hid (congrArg _ (hdist first hfirst second hsnd (text "0x01")
    ⟨hfirstState, hfirstSigner⟩ ⟨hsecondState, hsecondSigner⟩ hchain hnonce))

end CyfsGateway.SnNonces
