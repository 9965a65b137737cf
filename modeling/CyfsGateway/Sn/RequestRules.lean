import CyfsGateway.Sn.Controller

/-!
# What the controller keeps about its requests

The invariant of the request store and the relation along which it changes, as
rules for tasks.  A row keeps its payload, its result and its transaction, its
state only moves forward, and whatever was handed to the network is carried by
the row of its request.
-/

namespace CyfsGateway.SnRequestRules

open Evm Tasks SnRequests SnActions List

/-- Sending, then pending, then succeeded or reverted; a step may be skipped.  Nothing
leads out of the last two, and nothing intact leads to `failed`. -/
def Forward (old new : BnsWriteRequestState) : Prop :=
  old = new ∨ (old = .sending ∧ new ≠ .failed) ∨
    (old = .pending ∧ (new = .succeeded ∨ new = .reverted))

theorem Forward.trans {first second third} (hfirst : Forward first second)
    (hsnd : Forward second third) : Forward first third := by
  cases first <;> cases second <;> cases third <;> simp_all [Forward]

/-- The same request: its payload, its result and its transaction. -/
structure SameRequest (old new : SnBnsWriteRequestRecord) : Prop where
  requestId : new.requestId = old.requestId
  payloadHash : new.payloadHash = old.payloadHash
  resultJson : new.resultJson = old.resultJson
  evmChainId : new.evmChainId = old.evmChainId
  evmNonce : new.evmNonce = old.evmNonce
  evmTxHash : new.evmTxHash = old.evmTxHash
  evmRawTx : new.evmRawTx = old.evmRawTx

theorem SameRequest.refl (record : SnBnsWriteRequestRecord) : SameRequest record record :=
  ⟨rfl, rfl, rfl, rfl, rfl, rfl, rfl⟩

theorem SameRequest.symm {old} (hsame : SameRequest old new) : SameRequest new old :=
  ⟨hsame.requestId.symm, hsame.payloadHash.symm, hsame.resultJson.symm,
    hsame.evmChainId.symm, hsame.evmNonce.symm, hsame.evmTxHash.symm, hsame.evmRawTx.symm⟩

theorem SameRequest.trans (hfirst : SameRequest first second) (hsnd : SameRequest second third) :
    SameRequest first third where
  requestId := hsnd.requestId.trans hfirst.requestId
  payloadHash := hsnd.payloadHash.trans hfirst.payloadHash
  resultJson := hsnd.resultJson.trans hfirst.resultJson
  evmChainId := hsnd.evmChainId.trans hfirst.evmChainId
  evmNonce := hsnd.evmNonce.trans hfirst.evmNonce
  evmTxHash := hsnd.evmTxHash.trans hfirst.evmTxHash
  evmRawTx := hsnd.evmRawTx.trans hfirst.evmRawTx

structure Continues (old new : SnBnsWriteRequestRecord) : Prop where
  same : SameRequest old new
  state : Forward old.state new.state

theorem Continues.refl (record : SnBnsWriteRequestRecord) : Continues record record :=
  ⟨.refl record, .inl rfl⟩

theorem Continues.trans (hfirst : Continues first second) (hsnd : Continues second third) :
    Continues first third := ⟨hfirst.same.trans hsnd.same, hfirst.state.trans hsnd.state⟩

/-- A final state is one a receipt has reported. -/
def Reported (receipts : List (Bytes × Bool)) (txHash : Bytes) : BnsWriteRequestState → Prop
  | .succeeded => (txHash, false) ∈ receipts
  | .reverted => (txHash, true) ∈ receipts
  | .sending | .pending | .failed => True

variable {receipts : List (Bytes × Bool)}

theorem Reported.mono (hgrow : receipts ⊆ later)
    (hrep : Reported receipts txHash state) : Reported later txHash state := by
  cases state with
  | succeeded | reverted => exact hgrow hrep
  | sending | pending | failed => trivial

structure Carries (signed : SignedTx) (record : SnBnsWriteRequestRecord) : Prop where
  txHash : record.evmTxHash = some signed.txHash
  rawTx : record.evmRawTx = some signed.rawTx
  nonce : record.evmNonce = some signed.nonce
  chainId : record.evmChainId = some signed.chainId

theorem Carries.continues {signed record next} (hcarry : Carries signed record)
    (hsame : SameRequest record next) : Carries signed next :=
  ⟨hsame.evmTxHash.trans hcarry.txHash, hsame.evmRawTx.trans hcarry.rawTx,
    hsame.evmNonce.trans hcarry.nonce, hsame.evmChainId.trans hcarry.chainId⟩

/-- A signed transaction whose numbers fit the columns of the store. -/
structure Genuine (libraries : Libraries) (signed : SignedTx) : Prop where
  decodes : libraries.Decodes signed
  nonce : signed.nonce.toNat < 2 ^ 63
  chainId : signed.chainId.toNat < 2 ^ 63

/-- An uncorrupted row: its transaction decodes to what the row says about it, and a final
state is the one the chain has reported. -/
def IntactRow (libraries : Libraries) (receipts : List (Bytes × Bool))
    (row : SnBnsWriteRequestRecord) : Prop :=
  row.state ≠ .failed ∧ ∃ signed, Genuine libraries signed ∧ Carries signed row ∧
      Reported receipts signed.txHash row.state

/-! ## The rules -/

structure Intact (libraries : Libraries) (world : World) : Prop where
  unique : (world.rows.map (·.requestId)).Nodup
  rows : ∀ row ∈ world.rows, IntactRow libraries world.receipts row
  handed : ∀ entry ∈ world.handed, ∃ row ∈ world.rows,
    row.requestId = entry.1 ∧ row.evmRawTx = some entry.2

structure Leads (world after : World) : Prop where
  rows : ∀ row ∈ world.rows, ∃ next ∈ after.rows, Continues row next
  handed : world.handed ⊆ after.handed
  receipts : world.receipts ⊆ after.receipts

theorem Leads.refl (world : World) : Leads world world :=
  ⟨fun row hrow => ⟨row, hrow, .refl row⟩, fun _ => id, fun _ => id⟩

theorem Leads.trans {first second third} (hfirst : Leads first second)
    (hsnd : Leads second third) : Leads first third where
  rows row hrow := by
    obtain ⟨middle, hmid, hcont⟩ := hfirst.rows row hrow
    obtain ⟨next, hnext, hagain⟩ := hsnd.rows middle hmid
    exact ⟨next, hnext, hcont.trans hagain⟩
  handed := Subset.trans hfirst.handed hsnd.handed
  receipts := Subset.trans hfirst.receipts hsnd.receipts

/-- An error that neither says that data could not be decoded nor that a transaction
reverted. -/
def Plain (error : BnsClientError) : Prop :=
  error.code ≠ serializationErrorCode ∧ error.code ≠ evmTxRevertedCode

/-- The answers under which the controller keeps its requests: a failed broadcast or
lookup carries neither of the two codes, and signed numbers fit the columns of the
store. -/
def Admitted : Action → Choice → Prop
  | .submitRawTx .., .submitted _ (.error error) => Plain error
  | .queryTxState _, .fails error | .transactionReceipt _, .fails error
  | .blockNumber, .fails error | .transactionByHash _, .fails error => Plain error
  | .signTransaction .., .signed signed =>
    signed.nonce.toNat < 2 ^ 63 ∧ signed.chainId.toNat < 2 ^ 63
  | _, _ => True

instance (error : BnsClientError) : Decidable (Plain error) := inferInstanceAs (Decidable (_ ∧ _))

instance (action : Action) (choice : Choice) : Decidable (Admitted action choice) := by
  unfold Admitted
  split <;> infer_instance

def requestRules (libraries : Libraries) : Rules Action Choice World Unit :=
  .uniform (Intact libraries) Leads (fun _ action choice _ => Admitted action choice)
    Leads.refl Leads.trans

/-- Neither the rows nor what was handed over or reported change. -/
structure SameRequests (world after : World) : Prop where
  rows : after.rows = world.rows
  handed : after.handed = world.handed
  receipts : after.receipts = world.receipts

variable {libraries : Libraries} {world after : World}

theorem SameRequests.leads (hsame : SameRequests world after) : Leads world after where
  rows row hrow := ⟨row, hsame.rows ▸ hrow, .refl row⟩
  handed := by rw [hsame.handed]; exact fun _ => id
  receipts := by rw [hsame.receipts]; exact fun _ => id

theorem SameRequests.intact (hsame : SameRequests world after)
    (hintact : Intact libraries world) : Intact libraries after where
  unique := by rw [hsame.rows]; exact hintact.unique
  rows := by rw [hsame.rows, hsame.receipts]; exact hintact.rows
  handed := by rw [hsame.handed, hsame.rows]; exact hintact.handed

def Quiet : Action → Prop
  | .tryBegin _ | .updateInflight _ | .repairPreparedMetadata .. | .resolveRecoveryFailed _
  | .removeRecoveryFailed .. | .removeUnprepared .. | .submitRawTx .. | .queryTxState _
  | .transactionReceipt _ => False
  | _ => True

theorem SameRequests.refl (world : World) : SameRequests world world := ⟨rfl, rfl, rfl⟩

theorem sameRequests_setNonce (client : Nat) (signer : Bytes) (nonce : Option UInt64)
    (world : World) : SameRequests world (setNonce client signer nonce world) := ⟨rfl, rfl, rfl⟩

variable {Value : Type} {choice : Choice}

theorem sameRequests_ask {pick : Choice → Option Value} {answer : BnsClientResult Value}
    (hact : ask pick unnoted choice world = some (answer, after)) :
    SameRequests world after := by
  rcases ask_eq_some hact with ⟨_, _, _, rfl⟩ | ⟨_, _, _, rfl⟩
  · exact .refl _
  · exact .refl _

theorem sameRequests_read {read : Rows → Value} {answer : StoreResult Value}
    (hact : runStatement choice world (fun rows => .ok (read rows, rows)) =
      some (answer, after)) :
    SameRequests world after := by
  rcases runStatement_eq_some hact with ⟨_, _, rfl⟩ | ⟨_, _, hread, _, rfl⟩
  · exact .refl _
  · rw [Except.ok.injEq, Prod.mk.injEq] at hread
    rw [← hread.2]
    exact .refl _

theorem acquire_eq_some (libraries : Libraries) {answer : Answer (.acquire lock)}
    (hact : semantics libraries (.acquire lock) choice world = some (answer, after)) :
    lock ∉ world.locks ∧ after = { world with locks := lock :: world.locks } := by
  obtain ⟨hfree, hres⟩ := Option.ite_none_left_eq_some.mp (internally_eq_some hact)
  cases hres
  exact ⟨hfree, rfl⟩

theorem sameRequests_of_quiet {action : Action} {answer : Answer action} (hquiet : Quiet action)
    (hact : semantics libraries action choice world = some (answer, after)) :
    SameRequests world after := by
  cases action with
  | acquire lock =>
    obtain ⟨-, rfl⟩ := acquire_eq_some _ hact
    exact ⟨rfl, rfl, rfl⟩
  | release lock =>
    cases internally_eq_some hact
    exact ⟨rfl, rfl, rfl⟩
  | now | pollsBeforeDeadline =>
    cases choice <;> cases hact
    exact .refl _
  | getRequest requestId | listInflight => exact sameRequests_read hact
  | takeNonce client signer =>
    have hres := internally_eq_some hact
    split at hres
    · cases hres
      exact sameRequests_setNonce ..
    · cases hres
      exact .refl _
  | fillNonce client signer chainNonce | reserveNonce client signer suggested
  | resetNonce client signer =>
    cases internally_eq_some hact
    exact sameRequests_setNonce ..
  | signTransaction client tx =>
    rcases ask_eq_some hact with ⟨_, _, _, rfl⟩ | ⟨_, _, _, rfl⟩
    · exact .refl _
    · exact ⟨rfl, rfl, rfl⟩
  | signerAddress | prepareTx | transactionCount | suggestTx | blockNumber
  | transactionByHash | resolveDocument | queryNameState | getAuthoritySet =>
    exact sameRequests_ask hact
  | tryBegin | updateInflight | repairPreparedMetadata | resolveRecoveryFailed
  | removeRecoveryFailed | removeUnprepared | submitRawTx | queryTxState
  | transactionReceipt => exact hquiet.elim

theorem keeps_quiet (hquiet : Quiet action) (hintact : Intact libraries world)
    (hnext : ∀ choice answer after, Admitted action choice →
      semantics libraries action choice world = some (answer, after) →
      SameRequests world after → Next answer after) :
    (requestRules libraries).Keeps (semantics libraries) () action world Next := by
  intro choice answer after hadmits hact
  have hsame := sameRequests_of_quiet hquiet hact
  exact ⟨hsame.intact hintact, hsame.leads, hnext choice answer after hadmits hact hsame⟩

/-- Tasks of quiet actions keep the rules; nothing is known about what they end with. -/
theorem safe_quietly {task : Task Answer Value} (hpost : ∀ after value, Post after value)
    (htask : task.Only Quiet) :
    Safe (semantics libraries) (requestRules libraries) () Post () task world :=
  safe_only (fun _ _ => rfl)
    (fun _ _ hquiet hintact => keeps_quiet hquiet hintact fun _ _ _ _ _ _ => trivial) hpost htask

/-- A record a task has read or written: its row is still there, possibly in a later
state. -/
structure Known (libraries : Libraries) (record : SnBnsWriteRequestRecord) (world : World) :
    Prop where
  row : ∃ row ∈ world.rows, Continues record row
  intact : IntactRow libraries world.receipts record

variable {record old : SnBnsWriteRequestRecord}

theorem IntactRow.mono (hgrow : receipts ⊆ later)
    (hintact : IntactRow libraries receipts record) : IntactRow libraries later record := by
  obtain ⟨hstate, signed, hgen, hcarry, hrep⟩ := hintact
  exact ⟨hstate, signed, hgen, hcarry, hrep.mono hgrow⟩

theorem Known.later (hknown : Known libraries record world) (hleads : Leads world after) :
    Known libraries record after where
  row := by
    obtain ⟨row, hrow, hcont⟩ := hknown.row
    obtain ⟨next, hnext, hagain⟩ := hleads.rows row hrow
    exact ⟨next, hnext, hcont.trans hagain⟩
  intact := hknown.intact.mono hleads.receipts

theorem known_of_mem (hintact : Intact libraries world) (hrow : record ∈ world.rows) :
    Known libraries record world := ⟨⟨record, hrow, .refl record⟩, hintact.rows record hrow⟩

variable {row : SnBnsWriteRequestRecord}

/-- Request ids are unique, so a row of a known request is its row. -/
theorem Known.continues (hknown : Known libraries record world)
    (hintact : Intact libraries world) (hrow : row ∈ world.rows)
    (hid : row.requestId = record.requestId) : Continues record row := by
  obtain ⟨found, hfound, hcont⟩ := hknown.row
  have hsame : row = found :=
    inj_on_of_nodup_map hintact.unique hrow hfound (hid.trans hcont.same.requestId.symm)
  exact hsame ▸ hcont

theorem mem_of_getRow (hrow : getRow requestId rows = some record) :
    record ∈ rows ∧ record.requestId = requestId :=
  ⟨mem_of_find?_eq_some hrow, by simpa using find?_some hrow⟩

/-- A statement that changes the row of a known request to another state keeps the
rules. -/
theorem updateRows_keeps (hintact : Intact libraries world)
    (hchange : ∀ row ∈ world.rows, condition row = true →
      Continues row (change row) ∧ IntactRow libraries world.receipts (change row)) :
    Intact libraries { world with rows := (updateRows condition change world.rows).2 } ∧
      Leads world { world with rows := (updateRows condition change world.rows).2 } := by
  have hmember : ∀ row ∈ world.rows, Continues row (if condition row then change row else row) ∧
        IntactRow libraries world.receipts (if condition row then change row else row) := by
    intro row hrow
    by_cases hcond : condition row = true
    · rw [if_pos hcond]
      exact hchange row hrow hcond
    · rw [if_neg hcond]
      exact ⟨.refl row, hintact.rows row hrow⟩
  have hids : (updateRows condition change world.rows).2.map (·.requestId) =
      world.rows.map (·.requestId) := by
    rw [updateRows, map_map]
    exact map_congr_left fun row hrow => (hmember row hrow).1.same.requestId
  refine ⟨⟨by rw [hids]; exact hintact.unique, ?_, fun entry hentry => ?_⟩,
    ⟨fun row hrow => ⟨_, mem_map_of_mem hrow, (hmember row hrow).1⟩, fun _ => id, fun _ => id⟩⟩
  · intro row hrow
    obtain ⟨before, hbefore, rfl⟩ := mem_map.mp hrow
    exact (hmember before hbefore).2
  · obtain ⟨row, hrow, hid, hraw⟩ := hintact.handed entry hentry
    have hcont := (hmember row hrow).1
    exact ⟨_, mem_map_of_mem hrow, hcont.same.requestId.trans hid,
      hcont.same.evmRawTx.trans hraw⟩

theorem insert_keeps (hintact : Intact libraries world)
    (hnew : getRow record.requestId world.rows = none)
    (hrec : IntactRow libraries world.receipts record) :
    Intact libraries { world with rows := world.rows ++ [record] } ∧
      Leads world { world with rows := world.rows ++ [record] } := by
  refine ⟨⟨?_, ?_, fun entry hentry => ?_⟩,
    ⟨fun row hrow => ⟨row, mem_append_left _ hrow, .refl row⟩, fun _ => id, fun _ => id⟩⟩
  · rw [map_append, map_singleton, nodup_append]
    refine ⟨hintact.unique, nodup_singleton _, ?_⟩
    intro id hid other hother heq
    rw [mem_singleton] at hother
    obtain ⟨row, hrow, hrowId⟩ := mem_map.mp hid
    have hfresh := find?_eq_none.mp hnew row hrow
    exact hfresh (by simp [hrowId, heq, hother])
  · intro row hrow
    rcases mem_append.mp hrow with hold | hadded
    · exact hintact.rows row hold
    · exact mem_singleton.mp hadded ▸ hrec
  · obtain ⟨row, hrow, hfields⟩ := hintact.handed entry hentry
    exact ⟨row, mem_append_left _ hrow, hfields⟩

/-! ## The actions -/

abbrev SnSafe (libraries : Libraries) {Value : Type} (Post : World → Value → Prop)
    (task : Task Answer Value) (world : World) : Prop :=
  Safe (semantics libraries) (requestRules libraries) () Post () task world

abbrev SnRuns (libraries : Libraries) {Value Error : Type} (Good : World → Value → Prop)
    (Bad : World → Error → Prop) (program : Program Answer Error Value) (world : World) : Prop :=
  Runs (semantics libraries) (requestRules libraries) () Good Bad program world

def Anything {Value : Type} (_ : World) (_ : Value) : Prop := True

theorem outcome_anything {Error : Type} (world : World) (outcome : Except Error Value) :
    Outcome Anything Anything world outcome := by cases outcome <;> trivial

theorem runs_quietly {Error : Type} {program : Program Answer Error Value}
    (hprog : program.run.Only Quiet) : SnRuns libraries Anything Anything program world :=
  safe_quietly outcome_anything hprog

theorem outcome_of_reading {choice : Choice} {read : Rows → Value} {answer : StoreResult Value}
    {Good : World → Value → Prop} (hact : runStatement choice world
      (fun rows => .ok (read rows, rows)) = some (answer, after))
    (hgood : Good after (read world.rows)) : Outcome Good Anything after answer := by
  rcases runStatement_eq_some hact with ⟨error, rfl, _⟩ | ⟨found, rows, hread, rfl, _⟩
  · trivial
  · rw [Except.ok.injEq, Prod.mk.injEq] at hread
    exact hread.1 ▸ hgood

theorem safe_getRequest (requestId : Bytes) : SnSafe libraries
      (Outcome (fun after found => ∀ record, found = some record →
        record.requestId = requestId ∧ Known libraries record after) Anything)
      (perform (Action.getRequest requestId) :
        Task Answer (StoreResult (Option SnBnsWriteRequestRecord))) world := by
  refine safe_perform fun now _ hintact => ?_
  refine keeps_quiet trivial hintact fun choice answer after _ hact hsame => ?_
  refine outcome_of_reading hact fun record hrec => ?_
  obtain ⟨hmem, hid⟩ := mem_of_getRow hrec
  exact ⟨hid, (known_of_mem hintact hmem).later hsame.leads⟩

theorem safe_listInflight : SnSafe libraries (Outcome (fun after records => ∀ record ∈ records,
        record.state.inflight = true ∧ Known libraries record after) Anything)
      (perform Action.listInflight : Task Answer (StoreResult Rows)) world := by
  refine safe_perform fun now _ hintact => ?_
  refine keeps_quiet trivial hintact fun choice answer after _ hact hsame => ?_
  refine outcome_of_reading hact fun record hrec => ?_
  rw [listInflight, mem_mergeSort, mem_filter] at hrec
  exact ⟨hrec.2, (known_of_mem hintact hrec.1).later hsame.leads⟩

structure Prepared (libraries : Libraries) (signed : SignedTx)
    (record : SnBnsWriteRequestRecord) : Prop where
  genuine : Genuine libraries signed
  carries : Carries signed record
  sending : record.state = .sending

variable {signed : SignedTx}

theorem sqliteInteger_of_lt (hvalue : value.toNat < 2 ^ 63) :
    sqliteInteger value = value := if_pos hvalue

theorem Prepared.continues (hprep : Prepared libraries signed record) :
    Continues record record.stored := by
  refine ⟨⟨rfl, rfl, rfl, ?_, ?_, rfl, rfl⟩, .inl rfl⟩
  · simp [SnBnsWriteRequestRecord.stored, hprep.carries.chainId,
      sqliteInteger_of_lt hprep.genuine.chainId]
  · simp [SnBnsWriteRequestRecord.stored, hprep.carries.nonce,
      sqliteInteger_of_lt hprep.genuine.nonce]

theorem Prepared.intact (hprep : Prepared libraries signed record)
    (receipts : List (Bytes × Bool)) : IntactRow libraries receipts record := by
  refine ⟨by simp [hprep.sending], signed, hprep.genuine, hprep.carries, ?_⟩
  rw [hprep.sending]
  trivial

theorem IntactRow.continues {new} (hintact : IntactRow libraries receipts record)
    (hsame : SameRequest record new) (hstate : new.state = record.state) :
    IntactRow libraries receipts new := by
  obtain ⟨hlive, signed, hgen, hcarry, hrep⟩ := hintact
  exact ⟨hstate ▸ hlive, signed, hgen, hcarry.continues hsame, hstate ▸ hrep⟩

theorem safe_tryBegin (hprep : Prepared libraries signed record) : SnSafe libraries
      (Outcome (fun after begun => begun = .acquired → Known libraries record after) Anything)
      (perform (Action.tryBegin record) : Task Answer (StoreResult SnBnsTryBeginResult))
      world := by
  refine safe_perform fun now _ hintact choice answer after _ hact => ?_
  rcases runStatement_eq_some hact with ⟨error, rfl, rfl⟩ | ⟨begun, rows, hbegin, rfl, rfl⟩
  · exact ⟨hintact, .refl _, trivial⟩
  rw [tryBegin] at hbegin
  split at hbegin
  · cases hbegin
  split at hbegin
  · next hnone =>
    obtain ⟨rfl, rfl⟩ := hbegin
    have hstored := (hprep.intact now.receipts).continues hprep.continues.same rfl
    have hfresh : getRow record.stored.requestId now.rows = none := hnone
    obtain ⟨hafter, hleads⟩ := insert_keeps hintact hfresh hstored
    refine ⟨hafter, hleads, fun _ => ⟨⟨record.stored, ?_, hprep.continues⟩, ?_⟩⟩
    · exact mem_append_right _ (mem_singleton_self _)
    · exact hprep.intact _
  · rw [Except.ok.injEq, Prod.mk.injEq] at hbegin
    obtain ⟨rfl, rfl⟩ := hbegin
    exact ⟨hintact, .refl _, nofun⟩

/-- The record of a known request in a state that is not a first one and has been
reported. -/
structure Advances (libraries : Libraries) (old record : SnBnsWriteRequestRecord)
    (world : World) : Prop where
  known : Known libraries old world
  same : SameRequest old record
  state : record.state = .pending ∨ record.state = .succeeded ∨ record.state = .reverted
  reported : ∀ signed, Genuine libraries signed → Carries signed record →
    Reported world.receipts signed.txHash record.state

theorem Advances.later (hadv : Advances libraries old record world)
    (hleads : Leads world after) : Advances libraries old record after where
  known := hadv.known.later hleads
  same := hadv.same
  state := hadv.state
  reported signed hgen hcarry :=
    (hadv.reported signed hgen hcarry).mono hleads.receipts

theorem Advances.intactRow (hadv : Advances libraries old record world) :
    IntactRow libraries world.receipts record := by
  obtain ⟨_, signed, hgen, hcarry, _⟩ := hadv.known.intact
  have hnew := hcarry.continues hadv.same
  refine ⟨?_, signed, hgen, hnew, hadv.reported signed hgen hnew⟩
  rcases hadv.state with hstate | hstate | hstate <;> simp [hstate]

theorem forward_of_inflight {first second} (hfirst : first.inflight = true)
    (hsnd : second = .pending ∨ second = .succeeded ∨ second = .reverted) :
    Forward first second := by
  cases first <;> rcases hsnd with rfl | rfl | rfl <;>
    simp_all [Forward, BnsWriteRequestState.inflight]

/-- The numbers that are written back are those that were read. -/
theorem IntactRow.numbers (hintact : IntactRow libraries receipts record) :
    record.evmChainId.map sqliteInteger = record.evmChainId ∧
      record.evmNonce.map sqliteInteger = record.evmNonce := by
  obtain ⟨_, signed, hgen, hcarry, _⟩ := hintact
  rw [hcarry.chainId, hcarry.nonce, Option.map_some, Option.map_some,
    sqliteInteger_of_lt hgen.chainId, sqliteInteger_of_lt hgen.nonce]
  exact ⟨rfl, rfl⟩

/-- The row that is hit is the row of the known request, in flight until now. -/
theorem Advances.hits (hadv : Advances libraries old record world)
    (hintact : Intact libraries world) (hrow : row ∈ world.rows)
    (hhits : hitsInflight record row = true) :
    Continues row (setInflight record row) ∧ SameRequest record (setInflight record row) := by
  simp only [hitsInflight, sameTransaction, Bool.and_eq_true, decide_eq_true_eq] at hhits
  obtain ⟨⟨⟨⟨⟨hid, hpay⟩, hhash⟩, hraw⟩, hinflight⟩, _⟩ := hhits
  have hold := hadv.known.continues hintact hrow (hid.trans hadv.same.requestId)
  have hnew : SameRequest row record := hold.same.symm.trans hadv.same
  obtain ⟨hchain, hnonce⟩ := hadv.intactRow.numbers
  refine ⟨⟨⟨rfl, rfl, hnew.resultJson, ?_, ?_, rfl, rfl⟩,
    forward_of_inflight hinflight hadv.state⟩, ⟨hid, hpay, rfl, hchain, hnonce, hhash, hraw⟩⟩
  · exact hchain.trans hnew.evmChainId
  · exact hnonce.trans hnew.evmNonce

theorem safe_updateInflight (hadv : Advances libraries old record world) : SnSafe libraries
      (Outcome (fun after updated => updated = true → Known libraries record after) Anything)
      (perform (Action.updateInflight record) : Task Answer (StoreResult Bool)) world := by
  refine safe_perform fun now hleads hintact choice answer after _ hact => ?_
  rcases runStatement_eq_some hact with
    ⟨error, rfl, rfl⟩ | ⟨updated, rows, hupdate, rfl, rfl⟩
  · exact ⟨hintact, .refl _, trivial⟩
  replace hadv := hadv.later hleads
  have hrec := hadv.intactRow
  have hnotSending : record.state ≠ .sending := by
    rcases hadv.state with hstate | hstate | hstate <;> simp [hstate]
  rw [updateInflight, if_neg hnotSending, Except.ok.injEq] at hupdate
  have hchange : ∀ row ∈ now.rows, hitsInflight record row = true →
      Continues row (setInflight record row) ∧
        IntactRow libraries now.receipts (setInflight record row) := by
    intro row hrow hhits
    obtain ⟨hcont, hsame⟩ := hadv.hits hintact hrow hhits
    exact ⟨hcont, hrec.continues hsame rfl⟩
  obtain ⟨hafter, hforward⟩ := updateRows_keeps hintact hchange
  rw [hupdate] at hafter hforward
  refine ⟨hafter, hforward, fun hupd => ⟨?_, hrec⟩⟩
  have hany : now.rows.any (hitsInflight record) = true := by
    rw [← hupd]
    exact congrArg Prod.fst hupdate
  obtain ⟨row, hrow, hhits⟩ := any_eq_true.mp hany
  refine ⟨setInflight record row, ?_, (hadv.hits hintact hrow hhits).2, .inl rfl⟩
  rw [← show (updateRows (hitsInflight record) (setInflight record) now.rows).2 = rows from
    congrArg Prod.snd hupdate]
  exact mem_map.mpr ⟨row, hrow, if_pos hhits⟩

theorem safe_submitRawTx (hknown : Known libraries record world)
    (hid : record.requestId = requestId) (hraw : record.evmRawTx = some rawTx) :
    SnSafe libraries (Outcome Anything fun _ error => Plain error)
      (perform (Action.submitRawTx requestId rawTx) : Task Answer (BnsClientResult Bytes))
      world := by
  refine safe_perform fun now hleads hintact choice answer after hadmits hact => ?_
  cases choice with
  | submitted taken reply =>
    obtain rfl : reply = answer := congrArg Prod.fst (Option.some.inj hact)
    obtain rfl : handOver requestId rawTx taken now = after :=
      congrArg Prod.snd (Option.some.inj hact)
    obtain ⟨row, hrow, hcont⟩ := (hknown.later hleads).row
    refine ⟨⟨hintact.unique, hintact.rows, ?_⟩,
      ⟨fun row hrow => ⟨row, hrow, .refl row⟩, subset_append_left _ _, fun _ => id⟩, ?_⟩
    · intro entry hentry
      rcases mem_append.mp hentry with hold | hadded
      · exact hintact.handed entry hold
      · obtain rfl := mem_singleton.mp hadded
        exact ⟨row, hrow, hcont.same.requestId.trans hid, hcont.same.evmRawTx.trans hraw⟩
    · cases reply with
      | ok hash => trivial
      | error error => exact hadmits
  | _ => cases hact

theorem keeps_receipts (hintact : Intact libraries world) :
    Intact libraries { world with receipts := world.receipts ++ receipts } ∧
      Leads world { world with receipts := world.receipts ++ receipts } :=
  ⟨⟨hintact.unique, fun row hrow => (hintact.rows row hrow).mono (subset_append_left _ _),
      hintact.handed⟩,
    ⟨fun row hrow => ⟨row, hrow, .refl row⟩, fun _ => id, subset_append_left _ _⟩⟩

def lookupState : BnsTxExecutionState → BnsWriteRequestState
  | .pending | .notFound => .pending
  | .succeeded => .succeeded
  | .reverted => .reverted

theorem safe_queryTxState (txHash : Bytes) : SnSafe libraries
      (Outcome (fun after state => Reported after.receipts txHash (lookupState state.state))
        fun _ error => Plain error)
      (perform (Action.queryTxState txHash) : Task Answer (BnsClientResult BnsTxState))
      world := by
  refine safe_perform fun now _ hintact choice answer after hadmits hact => ?_
  rcases ask_eq_some hact with ⟨error, rfl, rfl, rfl⟩ | ⟨state, _, rfl, rfl⟩
  · exact ⟨hintact, .refl _, hadmits⟩
  cases hstate : state.state with
  | succeeded | reverted =>
    rw [noteState, hstate]
    obtain ⟨hafter, hleads⟩ := keeps_receipts hintact
    refine ⟨hafter, hleads, ?_⟩
    simp [Outcome, hstate, lookupState, Reported]
  | pending | notFound =>
    rw [noteState, hstate]
    refine ⟨hintact, .refl _, ?_⟩
    simp [Outcome, hstate, lookupState, Reported]

theorem safe_transactionReceipt (txHash : Bytes) : SnSafe libraries
      (Outcome (fun after receipt => ∀ found, receipt = some found →
        (txHash, decide (found.status = some 0)) ∈ after.receipts) fun _ error => Plain error)
      (perform (Action.transactionReceipt txHash) :
        Task Answer (BnsClientResult (Option EthReceipt))) world := by
  refine safe_perform fun now _ hintact choice answer after hadmits hact => ?_
  rcases ask_eq_some hact with ⟨error, rfl, rfl, rfl⟩ | ⟨receipt, _, rfl, rfl⟩
  · exact ⟨hintact, .refl _, hadmits⟩
  cases receipt with
  | none => exact ⟨hintact, .refl _, nofun⟩
  | some receipt =>
    obtain ⟨hafter, hleads⟩ := keeps_receipts hintact
    refine ⟨hafter, hleads, fun found hfound => ?_⟩
    obtain rfl := Option.some.inj hfound
    exact mem_append_right _ (mem_singleton_self _)

end CyfsGateway.SnRequestRules
