import CyfsGateway.Bns.Effects

/-!
# Internal mutations as traces of effects

A successful run of an internal function of the contract performs a list of
allowed effects of a fixed shape.  The primitive actions are inverted first.
-/

namespace CyfsGateway.BnsProtocolLog

open Evm BnsTypes BnsValidation

/-- The type a business event is committed under; a `ProtocolEvent` has none. -/
def eventTypeOf : BnsEvent → Option String
  | .protocolEvent .. => none
  | .nameRegistered .. => some "name_registered"
  | .nameRenewed .. => some "name_renewed"
  | .nameAssetTransferred .. => some "name_asset_transferred"
  | .nameOwnerUpdated .. => some "name_owner_updated"
  | .authorityKeysUpdated .. => some "authority_keys_updated"
  | .nameReleased .. => some "name_released"
  | .documentPublished .. => some "document_published"
  | .documentRevoked .. => some "document_revoked"
  | .ownerDocumentIatFloorUpdated .. => some "owner_iat_floor_updated"
  | .controllerPolicyUpdated .. => some "controller_policy_updated"
  | .namespacePolicyUpdated .. => some "namespace_policy_updated"
  | .didAliasSet .. => some "did_alias_set"
  | .paymentTargetUpdated .. => some "payment_target_updated"
  | .logCheckpointPublished .. => some "log_checkpoint_published"

/-- The fields `_commitEvent` receives the hash of, for the event emitted next. -/
def eventPayload : BnsEvent → List AbiValue
  | .protocolEvent .. => []
  | .nameRegistered hash _ assetOwner _ expireAt lineageEpoch nameSeq =>
    [.digest hash, .address assetOwner, .uint64 expireAt, .uint64 lineageEpoch, .uint64 nameSeq]
  | .nameRenewed hash _ _ expireAt nameSeq => [.digest hash, .uint64 expireAt, .uint64 nameSeq]
  | .nameAssetTransferred hash _ oldAssetOwner newAssetOwner _ nameSeq =>
    [.digest hash, .address oldAssetOwner, .address newAssetOwner, .uint64 nameSeq]
  | .nameOwnerUpdated hash _ _ kind value source enabled nameSeq =>
    [.digest hash, .enumeration kind.index, .bytes value, .enumeration source.index,
      .bool enabled, .uint64 nameSeq]
  | .authorityKeysUpdated hash _ _ authoritySeq authorityRoot =>
    [.digest hash, .uint64 authoritySeq, .bytes32 authorityRoot]
  | .nameReleased hash _ _ mode reasonHash nameSeq =>
    [.digest hash, .enumeration mode.index, .bytes32 reasonHash, .uint64 nameSeq]
  | .documentPublished hash _ docType version _ contentHash stateHash =>
    [.digest hash, .digest (.keccak256 docType), .uint64 version, .bytes32 contentHash,
      .bytes32 stateHash]
  | .documentRevoked hash _ docType _ previousVersion newVersion reasonHash =>
    [.digest hash, .digest (.keccak256 docType), .uint64 previousVersion,
      .uint64 newVersion, .bytes32 reasonHash]
  | .ownerDocumentIatFloorUpdated hash _ _ previous next policySeq nameSeq reasonHash =>
    [.digest hash, .uint64 previous, .uint64 next, .uint64 policySeq, .uint64 nameSeq,
      .bytes32 reasonHash]
  | .controllerPolicyUpdated hash _ _ policyHash nameSeq =>
    [.digest hash, .bytes32 policyHash, .uint64 nameSeq]
  | .namespacePolicyUpdated hash _ _ allow policyHash nameSeq =>
    [.digest hash, .bool allow, .bytes32 policyHash, .uint64 nameSeq]
  | .didAliasSet hash _ _ targetDid kind proofHash nameSeq =>
    [.digest hash, .bytes targetDid, .enumeration kind.index, .bytes32 proofHash, .uint64 nameSeq]
  | .paymentTargetUpdated hash _ docType _ target policyHash version =>
    [.digest hash, .digest (.keccak256 docType), .address target, .bytes32 policyHash,
      .uint64 version]
  | .logCheckpointPublished logRoot _ lastSeq issuedAt externalAnchor =>
    [.bytes32 logRoot, .uint64 lastSeq, .uint64 issuedAt, .bytes32 externalAnchor]

/-- The owner an event reports, if it reports one, is one the contract accepts. -/
def ReportsOwner : BnsEvent → Prop
  | .nameOwnerUpdated _ _ _ kind value .. => validateSemanticOwner { kind, value } = .ok ()
  | _ => True

end CyfsGateway.BnsProtocolLog

namespace CyfsGateway.BnsExecution

open Evm Reverting Transition BnsTypes BnsValidation BnsStorage BnsCore BnsFacets BnsEffects
  BnsProtocolLog

def Announces : Effect → Prop
  | .log eventType payload event =>
    eventTypeOf event = some eventType ∧ payload = eventPayload event ∧ ReportsOwner event
  | _ => True

/-- One allowed effect.  If it is a log, its type and payload are those of the event it is
emitted for. -/
structure LoggedStep (chain : Deployment) (msg : Message) (before : Machine) (effect : Effect)
    (after : Machine) : Prop where
  step : Step chain msg before effect after
  announces : Announces effect

abbrev LoggedEffects (chain : Deployment) (msg : Message) :
    Machine → List Effect → Machine → Prop := Trace (LoggedStep chain msg)

/-! ## Inversion of the primitive actions -/

section Primitives

variable {Value Next : Type} {machine after : Machine} {next : Value → Contract Next}
  {result : Next}

theorem check_bind_ok_iff : (check query >>= next) machine = .ok (result, after) ↔
      ∃ value, query machine.storage = .ok value ∧ next value machine = .ok (result, after) :=
  view_bind_ok_iff

theorem load_bind_ok_iff : (load component >>= next) machine = .ok (result, after) ↔
      next (component machine.storage) machine = .ok (result, after) := by
  rw [load, view_bind_ok_iff]
  simp

theorem load_ok_iff {result} : load component machine = .ok (result, after) ↔
      component machine.storage = result ∧ machine = after := by simp [load]

theorem store_bind_ok_iff {change next} :
    (store change >>= next) machine = .ok (result, after) ↔
      next () { machine with storage := change machine.storage } = .ok (result, after) :=
  modify_bind_ok_iff

theorem add_bind_ok_iff {left right next} :
    (add left right >>= next) machine = .ok (result, after) ↔
      ∃ total, total.toNat = left.toNat + right.toNat ∧
        next total machine = .ok (result, after) := by
  rw [add, view_bind_ok_iff]
  refine exists_congr fun total => and_congr_left fun _ => ?_
  rw [← checkedAdd_eq_some_iff]
  cases checkedAdd left right <;> simp

theorem ignoreResult_ok_iff {body : Contract Value} {result : Unit} :
    ignoreResult body machine = .ok (result, after) ↔
      ∃ value, body machine = .ok (value, after) := by simp [ignoreResult, bind_ok_iff]

end Primitives

theorem succ_of_toNat {seq next : UInt64} (hnext : next.toNat = seq.toNat + 1) :
    next = seq + 1 ∧ seq.toNat + 1 < 2 ^ 64 := by
  have hbound : seq.toNat + 1 < 2 ^ 64 := hnext ▸ next.toNat_lt
  refine ⟨UInt64.toNat_inj.mp ?_, hbound⟩
  rw [UInt64.toNat_add, UInt64.toNat_one, Nat.mod_eq_of_lt hbound, hnext]

section Actions

variable {chain : Deployment} {msg : Message} {machine after : Machine} {hash : Digest}
  {result : Unit}

theorem bumpNameSeq_step (hrun : bumpNameSeq hash machine = .ok (result, after)) :
    LoggedStep chain msg machine (.bumpNameSeq hash) after := by
  rw [bumpNameSeq, load_bind_ok_iff, add_bind_ok_iff] at hrun
  obtain ⟨next, hnext, hstore⟩ := hrun
  obtain ⟨rfl, hbound⟩ := succ_of_toNat (by simpa using hnext)
  obtain rfl := modify_ok_iff.mp hstore
  exact ⟨⟨hbound, by simp [Effect.perform, Effect.write, Effect.emits, updateName]⟩, trivial⟩

theorem log_step {committed : Machine} {result done : Unit}
    (hcom : commitEvent chain msg eventType payload machine = .ok (result, committed))
    (hemit : emit event committed = .ok (done, after))
    (hanns : Announces (.log eventType payload event)) :
    LoggedStep chain msg machine (.log eventType payload event) after := by
  simp only [commitEvent, load_bind_ok_iff, add_bind_ok_iff, store_bind_ok_iff] at hcom
  obtain ⟨seq, hseq, hlog⟩ := hcom
  obtain ⟨rfl, hbound⟩ := succ_of_toNat (by simpa using hseq)
  obtain rfl := modify_ok_iff.mp hlog
  obtain rfl := modify_ok_iff.mp hemit
  exact ⟨⟨hbound, by simp [Effect.perform, Effect.emits, Effect.write, nextLogRoot]⟩, hanns⟩

theorem commit_step {Next : Type} {next : Unit → Contract Next} {result : Next}
    (hrun : (commitEvent chain msg eventType payload >>= fun _ =>
      emit event >>= next) machine = .ok (result, after))
    (hanns : Announces (.log eventType payload event)) :
    ∃ middle, LoggedStep chain msg machine (.log eventType payload event) middle ∧
      next () middle = .ok (result, after) := by
  obtain ⟨_, committed, hcom, hrest⟩ := bind_ok_iff.mp hrun
  obtain ⟨_, middle, hemit, hnext⟩ := bind_ok_iff.mp hrest
  exact ⟨middle, log_step hcom hemit hanns, hnext⟩

theorem commit_pure {Value : Type} {value result : Value}
    (hrun : (commitEvent chain msg eventType payload >>= fun _ =>
      emit event >>= fun _ => pure value) machine = .ok (result, after))
    (hanns : Announces (.log eventType payload event)) :
    LoggedStep chain msg machine (.log eventType payload event) after := by
  obtain ⟨logged, hlog, hpure⟩ := commit_step hrun hanns
  obtain ⟨-, rfl⟩ := pure_ok_iff.mp hpure
  exact hlog

theorem editName_step
    (hsame : SameIdentity (machine.storage.names hash) (change (machine.storage.names hash))) :
    LoggedStep chain msg machine (.editName hash change)
      { machine with storage := updateName hash change machine.storage } :=
  ⟨⟨hsame, by simp [Effect.perform, Effect.write, Effect.emits]⟩, trivial⟩

theorem validOwner_materialized
    (hstate : materializeNameState storage now stored = .ok materialized)
    (hstored : stored.semanticOwner = owner) (howner : validateSemanticOwner owner = .ok ()) :
    validateSemanticOwner materialized.semanticOwner = .ok () := by
  simp only [materializeNameState] at hstate
  split at hstate
  · cases hstate
  · rw [← Except.ok.inj hstate, hstored]
    exact howner

theorem semanticOwner_touchName (hrun : touchName msg hash machine = .ok (result, after)) :
    (after.storage.names hash).semanticOwner = (machine.storage.names hash).semanticOwner := by
  rw [touchName] at hrun
  obtain rfl := modify_ok_iff.mp hrun
  simp [updateName]

end Actions

variable (msg : Message) (name : Bytes)

/-- `updatedAt = _now()`. -/
def touched (state : NameState) : NameState := { state with updatedAt := msg.now }

def bumpEffects (hash : Digest) (bump : Bool) : List Effect :=
  if bump then [.bumpNameSeq hash] else []

def versionEffects (hash docTypeHash : Digest)
    (document : DocumentState) (bump : Bool) : List Effect :=
  .addDocument hash docTypeHash document :: ((if document.docType = ownerDocType then
        [.editName hash fun state => { state with ownerDocumentVersion := document.version }]
      else []) ++
      bumpEffects hash bump ++ [.editName hash (touched msg)])

def PublishEffects (bump : Bool) (update : DocumentUpdate) (effects : List Effect) : Prop :=
  ∃ document payload, document.name = name ∧ document.docType = update.docType ∧ effects =
      versionEffects msg (nameHash name) (.keccak256 update.docType) document bump ++
        [.log "document_published" payload
          (.documentPublished (nameHash name) name update.docType document.version
            msg.sender document.document.contentHash document.documentStateHash)]

def KeyEffects (updates : List AuthorityKeyUpdate) (effects : List Effect) : Prop :=
  ∃ set payload, set.name = name ∧ effects = updates.map (.putKey (nameHash name)) ++
      [.putSet (nameHash name) set, .log "authority_keys_updated" payload
          (.authorityKeysUpdated (nameHash name) name msg.sender set.authoritySeq
            set.authorityRoot)]

def PolicyEffects (rules : List ControllerRule)
    (policyHash : Bytes32) (bump : Bool) (effects : List Effect) : Prop :=
  ∃ nameSeq payload, effects = .putPolicy (nameHash name) rules ::
      (bumpEffects (nameHash name) bump ++ [.editName (nameHash name) (touched msg),
          .log "controller_policy_updated" payload
            (.controllerPolicyUpdated (nameHash name) name msg.sender policyHash nameSeq)])

def FloorEffects (minDocumentIat : UInt64)
    (reasonHash : Bytes32) (bump : Bool) (effects : List Effect) : Prop :=
  ∃ previous ownerPolicySeq nameSeq payload, effects = bumpEffects (nameHash name) bump ++
      [.editName (nameHash name) fun state =>
          { state with
            minDocumentIat, ownerPolicySeq },
        .editName (nameHash name) (touched msg),
        .log "owner_iat_floor_updated" payload
          (.ownerDocumentIatFloorUpdated (nameHash name) name msg.sender previous
            minDocumentIat ownerPolicySeq nameSeq reasonHash)]

def AnnounceEffects (effects : List Effect) : Prop :=
  ∃ (state : NameState) (payload : List AbiValue), effects = [.log "name_owner_updated" payload
      (.nameOwnerUpdated (nameHash name) name msg.sender state.semanticOwner.kind
        state.semanticOwner.value state.ownerSource state.standardTransferEnabled
        state.nameSeq)]

def OwnerEffects (owner : Principal) (bump : Bool) (effects : List Effect) : Prop :=
  ∃ announced, AnnounceEffects msg name announced ∧
    effects = .setSemanticOwner (nameHash name) owner :: (bumpEffects (nameHash name) bump ++
        .editName (nameHash name) (touched msg) :: announced)

/-- The effects of a step that is skipped unless `condition` holds. -/
def Conditionally (condition : Prop) (Performs : List Effect → Prop)
    (effects : List Effect) : Prop := (condition ∧ Performs effects) ∨ (¬condition ∧ effects = [])

/-- What holds of no effects and of those of a step holds when it is optional. -/
theorem Conditionally.elim {condition : Prop} {Shape Holds : List Effect → Prop}
    {effects : List Effect} (heffs : Conditionally condition Shape effects) (hnil : Holds [])
    (hshape : Shape effects → Holds effects) : Holds effects := by
  rcases heffs with ⟨-, hperformed⟩ | ⟨-, rfl⟩
  · exact hshape hperformed
  · exact hnil

/-! ## Traces of the internal mutations -/

/-- Whenever a part of a call succeeds, it performs effects of that shape.  Parts in
sequence then perform the concatenation of theirs. -/
def Traces (chain : Deployment) (msg : Message) (Shape : List Effect → Prop) {Value : Type}
    (part : Contract Value) : Prop :=
  ∀ ⦃machine value after⦄, part machine = .ok (value, after) →
    ∃ effects, Shape effects ∧ LoggedEffects chain msg machine effects after

section Internal

variable {chain : Deployment} {msg : Message} {machine after : Machine} {hash : Digest}
  {result : Unit}

theorem touchName_step (hrun : touchName msg hash machine = .ok (result, after)) :
    LoggedStep chain msg machine (.editName hash (touched msg)) after := by
  rw [touchName] at hrun
  obtain rfl := modify_ok_iff.mp hrun
  exact editName_step ⟨rfl, rfl, rfl, .inl rfl, rfl, rfl⟩

theorem stamp_ok {Next : Type} {next : Unit → Contract Next} {result : Next}
    (hrun : (bumpNameSeq hash >>= fun _ => touchName msg hash >>= next) machine =
      .ok (result, after)) :
    ∃ stamped, LoggedEffects chain msg machine
        [.bumpNameSeq hash, .editName hash (touched msg)] stamped ∧
      (stamped.storage.names hash).semanticOwner = (machine.storage.names hash).semanticOwner ∧
      next () stamped = .ok (result, after) := by
  obtain ⟨_, bumped, hbump, hrest⟩ := bind_ok_iff.mp hrun
  obtain ⟨_, stamped, htouch, hnext⟩ := bind_ok_iff.mp hrest
  have hstep : LoggedStep chain msg machine (.bumpNameSeq hash) bumped := bumpNameSeq_step hbump
  refine ⟨stamped, .cons hstep (.single (touchName_step htouch)), ?_, hnext⟩
  rw [semanticOwner_touchName htouch, hstep.step.2]
  simp [Effect.perform, Effect.write, updateName]

theorem runIf_trace [Decidable condition] (hbody : Traces chain msg Shape body) :
    Traces chain msg (Conditionally condition Shape) (runIf condition body) := by
  intro machine _ after hrun
  rcases runIf_ok_iff.mp hrun with ⟨hcond, hdone⟩ | ⟨hcond, rfl⟩
  · obtain ⟨effects, hperf, htrace⟩ := hbody hdone
    exact ⟨effects, .inl ⟨hcond, hperf⟩, htrace⟩
  · exact ⟨[], .inr ⟨hcond, rfl⟩, .nil machine⟩

variable {bump : Bool}

theorem bumpIf_trace (hrun : runIf (bump = true) (bumpNameSeq hash) machine = .ok (result, after)) :
    LoggedEffects chain msg machine (bumpEffects hash bump) after := by
  rcases runIf_ok_iff.mp hrun with ⟨rfl, hbump⟩ | ⟨hbump, rfl⟩
  · exact .single (bumpNameSeq_step hbump)
  · rw [Bool.not_eq_true] at hbump
    subst hbump
    exact .nil machine

variable {version : UInt64}

theorem recordOwnerDocument_trace
    (hrun : recordOwnerDocument hash docType version machine = .ok (result, after)) :
    LoggedEffects chain msg machine (if docType = ownerDocType then
        [.editName hash fun state => { state with ownerDocumentVersion := version }]
      else []) after := by
  rcases runIf_ok_iff.mp hrun with ⟨howner, hstore⟩ | ⟨howner, rfl⟩
  · obtain rfl := modify_ok_iff.mp hstore
    rw [if_pos howner]
    exact .single (editName_step ⟨rfl, rfl, rfl, .inl rfl, rfl, rfl⟩)
  · rw [if_neg howner]
    exact .nil machine

theorem advanceVersion_ok {docTypeHash}
    (hrun : advanceVersion hash stateKey docTypeHash machine = .ok (version, after)) :
    version.toNat = (machine.storage.currentDocumentVersions hash docTypeHash).toNat + 1 ∧
      after = { machine with
        storage :=
          if stateKey ≠ hash then
            setCurrentVersion stateKey docTypeHash version
              (setCurrentVersion hash docTypeHash version machine.storage)
          else setCurrentVersion hash docTypeHash version machine.storage } := by
  simp only [advanceVersion, load_bind_ok_iff, add_bind_ok_iff, store_bind_ok_iff] at hrun
  obtain ⟨next, hnext, hrest⟩ := hrun
  obtain ⟨_, middle, hpoint, hpure⟩ := bind_ok_iff.mp hrest
  obtain ⟨rfl, rfl⟩ := pure_ok_iff.mp hpure
  refine ⟨by simpa using hnext, ?_⟩
  rcases runIf_ok_iff.mp hpoint with ⟨hkey, hstore⟩ | ⟨hkey, rfl⟩
  · obtain rfl := modify_ok_iff.mp hstore
    rw [if_pos hkey]
  · rw [if_neg hkey]

theorem addDocument_step
    (hadv : advanceVersion hash (lineageStateKey machine.storage hash) docTypeHash
      machine = .ok (document.version, middle)) (hname : hash = nameHash document.name)
    (hdoc : validateDocType document.docType = .ok docTypeHash)
    (hprev : document.previousVersion =
      currentVersion machine.storage hash docTypeHash) (hcomp : Composed chain msg
      (machine.storage.documents hash docTypeHash document.version) document) :
    LoggedStep chain msg machine (.addDocument hash docTypeHash document)
      { middle with
        storage := putDocument hash docTypeHash document.version document
          middle.storage } := by
  obtain ⟨hver, rfl⟩ := advanceVersion_ok hadv
  obtain ⟨hvalid, hhash⟩ := validateDocType_ok_iff.mp hdoc
  refine ⟨⟨⟨hname, hhash, hvalid, hver, hprev, hcomp⟩, ?_⟩, trivial⟩
  simp [Effect.perform, Effect.write, Effect.emits, appendDocument]

variable {name : Bytes}

theorem publishDocumentInternal_trace {update : DocumentUpdate} :
    Traces chain msg (PublishEffects msg name bump update)
      (publishDocumentInternal chain msg (nameHash name) name update bump) := by
  intro machine _ after hrun
  simp only [publishDocumentInternal, check_bind_ok_iff, load_bind_ok_iff,
    revertIf_bind_ok_iff] at hrun
  obtain ⟨docTypeHash, hdoc, _, href, _, hctrl, _, hbenef, -, hrun⟩ := hrun
  obtain ⟨_, advanced, hadv, hrun⟩ := bind_ok_iff.mp hrun
  rw [store_bind_ok_iff] at hrun
  obtain ⟨_, recorded, hrec, hrun⟩ := bind_ok_iff.mp hrun
  obtain ⟨_, bumped, hbump, hrun⟩ := bind_ok_iff.mp hrun
  obtain ⟨_, stamped, htouch, hrun⟩ := bind_ok_iff.mp hrun
  obtain ⟨-, rfl⟩ := validateDocType_ok_iff.mp hdoc
  obtain ⟨logged, hlog, hpure⟩ := commit_step hrun ⟨rfl, rfl, trivial⟩
  obtain ⟨rfl, rfl⟩ := pure_ok_iff.mp hpure
  have hdocument : LoggedStep chain msg machine
      (.addDocument _ _ (publishedDocument chain msg name update _ _)) _ :=
    addDocument_step hadv rfl hdoc rfl (.inl ⟨update, href, hctrl, hbenef, rfl⟩)
  refine ⟨_, ⟨_, _, rfl, rfl, rfl⟩, .append (.cons hdocument ?_) (.single hlog)⟩
  exact ((recordOwnerDocument_trace hrec).append (bumpIf_trace hbump)).append
    (.single (touchName_step htouch))

theorem publishDocuments_trace {updates : List DocumentUpdate}
    (hrun : publishDocuments chain msg (nameHash name) name updates machine = .ok (result, after)) :
    ∃ parts, List.Forall₂ (PublishEffects msg name false) updates parts ∧
      LoggedEffects chain msg machine parts.flatten after := by
  refine forEach_trace (fun update _ before next hupdate => ?_) hrun
  obtain ⟨version, hpub⟩ := ignoreResult_ok_iff.mp hupdate
  exact publishDocumentInternal_trace hpub

/-- The key loop of `_applyAuthorityUpdates`: the state key it computed at the
start stays the live one. -/
theorem putKeys_trace
    (hkey : lineageStateKey machine.storage hash = stateKey) (hrun : forEach (fun update => do
        revertIf (update.key.kid = .zero) (.invalidKid update.key.kid)
        revertIf (update.key.verificationMethod = .zero) (.invalidKid update.key.kid)
        store (putAuthorityKey stateKey update)) updates machine = .ok (result, after)) :
    LoggedEffects chain msg machine (updates.map (.putKey hash)) after ∧
      lineageStateKey after.storage hash = stateKey := by
  induction updates generalizing machine with
  | nil =>
    obtain ⟨-, rfl⟩ := pure_ok_iff.mp hrun
    exact ⟨.nil machine, hkey⟩
  | cons update rest ih =>
    obtain ⟨middle, hitem, hrest⟩ := forEach_cons_ok_iff.mp hrun
    simp only [revertIf_bind_ok_iff] at hitem
    obtain ⟨hkid, hmethod, hstore⟩ := hitem
    obtain rfl := modify_ok_iff.mp hstore
    have hstep : LoggedStep chain msg machine (.putKey hash update)
        { machine with storage := putAuthorityKey stateKey update machine.storage } :=
      ⟨⟨⟨hkid, hmethod⟩, by simp [Effect.perform, Effect.write, Effect.emits, hkey]⟩, trivial⟩
    have hnextKey : lineageStateKey
        (putAuthorityKey stateKey update machine.storage) hash = stateKey := by
      rw [lineageStateKey_putAuthorityKey, hkey]
    obtain ⟨htrace, hafter⟩ := ih hnextKey hrest
    exact ⟨.cons hstep htrace, hafter⟩

theorem applyAuthorityUpdates_trace : Traces chain msg (KeyEffects msg name updates)
    (applyAuthorityUpdates chain msg (nameHash name) name updates) := by
  intro machine _ after hrun
  simp only [applyAuthorityUpdates, revertIf_bind_ok_iff, load_bind_ok_iff] at hrun
  obtain ⟨-, hrun⟩ := hrun
  obtain ⟨_, keyed, hkeys, hrun⟩ := bind_ok_iff.mp hrun
  simp only [check_bind_ok_iff, load_bind_ok_iff, revertIf_bind_ok_iff, store_bind_ok_iff] at hrun
  obtain ⟨computed, hcompute, hlatch, hrun⟩ := hrun
  obtain ⟨logged, hlog, hpure⟩ := commit_step hrun ⟨rfl, rfl, trivial⟩
  obtain ⟨rfl, rfl⟩ := pure_ok_iff.mp hpure
  obtain ⟨htrace, hkey⟩ := putKeys_trace rfl hkeys
  have hname : computed.name = name := (recomputeAuthoritySet_ok hcompute).1
  have hset : LoggedStep chain msg keyed (.putSet (nameHash name) computed)
      { keyed with
        storage := putAuthoritySet (lineageStateKey machine.storage (nameHash name))
          computed keyed.storage } :=
    ⟨⟨⟨by rw [hname]; exact hcompute, by rw [hname], by rw [hkey]; exact hlatch⟩,
      by simp [Effect.perform, Effect.write, Effect.emits, hkey]⟩, trivial⟩
  exact ⟨_, ⟨computed, _, hname, rfl⟩, htrace.append (.cons hset (.single hlog))⟩

/-- The rule loop of `_setControllerPolicyInternal`: `stored` rules are in
place already, and no check of the loop reads them. -/
theorem pushRules_ok {rules stored} (hrun : forEach (fun rule => do
        check fun _ => validateControllerRule rule
        check (requireActiveAuthoritySet · msg.now rule.controller)
        store fun storage =>
          putControllerPolicy stateKey (storage.controllerPolicies stateKey ++ [rule])
            storage) rules
      { machine with storage := putControllerPolicy stateKey stored machine.storage } =
        .ok (result, after)) :
    (∀ rule ∈ rules, validateControllerRule rule = .ok () ∧
      requireActiveAuthoritySet machine.storage msg.now rule.controller = .ok ()) ∧
    after = { machine with
      storage := putControllerPolicy stateKey (stored ++ rules) machine.storage } := by
  induction rules generalizing stored with
  | nil =>
    obtain ⟨-, rfl⟩ := pure_ok_iff.mp hrun
    simp
  | cons rule rest ih =>
    obtain ⟨middle, hitem, hrest⟩ := forEach_cons_ok_iff.mp hrun
    simp only [check_bind_ok_iff] at hitem
    obtain ⟨_, hrule, _, hactive, hstore⟩ := hitem
    obtain rfl := modify_ok_iff.mp hstore
    have hnext : putControllerPolicy stateKey
        ((putControllerPolicy stateKey stored machine.storage).controllerPolicies
          stateKey ++ [rule]) (putControllerPolicy stateKey stored machine.storage) =
        putControllerPolicy stateKey (stored ++ [rule]) machine.storage := by
      simp [putControllerPolicy]
    simp only [hnext] at hrest
    obtain ⟨hrules, rfl⟩ := ih hrest
    refine ⟨List.forall_mem_cons.mpr ⟨⟨hrule, hactive⟩, hrules⟩, ?_⟩
    rw [List.append_assoc, List.singleton_append]

theorem setControllerPolicyInternal_trace {rules : List ControllerRule} {policyHash : Bytes32} :
    Traces chain msg (PolicyEffects msg name rules policyHash bump)
      (setControllerPolicyInternal chain msg (nameHash name) name rules policyHash bump) := by
  intro machine _ after hrun
  simp only [setControllerPolicyInternal, load_bind_ok_iff, store_bind_ok_iff] at hrun
  obtain ⟨_, stored, hrules, hrun⟩ := bind_ok_iff.mp hrun
  obtain ⟨hallow, rfl⟩ := pushRules_ok hrules
  obtain ⟨_, bumped, hbump, hrun⟩ := bind_ok_iff.mp hrun
  obtain ⟨_, stamped, htouch, hrun⟩ := bind_ok_iff.mp hrun
  obtain ⟨logged, hlog, hpure⟩ := commit_step hrun ⟨rfl, rfl, trivial⟩
  obtain ⟨rfl, rfl⟩ := pure_ok_iff.mp hpure
  have hpol : LoggedStep chain msg machine (.putPolicy (nameHash name) rules)
      { machine with
        storage := putControllerPolicy (lineageStateKey machine.storage (nameHash name))
          ([] ++ rules) machine.storage } :=
    ⟨⟨hallow, by simp [Effect.perform, Effect.write, Effect.emits]⟩, trivial⟩
  exact ⟨_, ⟨_, _, rfl⟩, .cons hpol ((bumpIf_trace hbump).append
    (.cons (touchName_step htouch) (.single hlog)))⟩

theorem setMinDocumentIatInternal_trace {floor reasonHash} :
    Traces chain msg (FloorEffects msg name floor reasonHash bump)
      (setMinDocumentIatInternal chain msg (nameHash name) name floor reasonHash bump) := by
  intro machine _ after hrun
  simp only [setMinDocumentIatInternal, load_bind_ok_iff, revertIf_bind_ok_iff] at hrun
  obtain ⟨-, hrun⟩ := hrun
  obtain ⟨_, bumped, hbump, hrun⟩ := bind_ok_iff.mp hrun
  simp only [load_bind_ok_iff, add_bind_ok_iff, store_bind_ok_iff] at hrun
  obtain ⟨ownerPolicySeq, -, hrun⟩ := hrun
  obtain ⟨_, stamped, htouch, hrun⟩ := bind_ok_iff.mp hrun
  exact ⟨_, ⟨_, _, _, _, rfl⟩, (bumpIf_trace hbump).append
    (.cons (editName_step ⟨rfl, rfl, rfl, .inl rfl, rfl, rfl⟩)
      (.cons (touchName_step htouch) (.single (commit_pure hrun ⟨rfl, rfl, trivial⟩))))⟩

theorem announceOwner_trace (howner : validateSemanticOwner state.semanticOwner = .ok ()) :
    Traces chain msg (AnnounceEffects msg name)
      (announceOwner chain msg (nameHash name) name state) := by
  intro machine _ after hrun
  obtain ⟨_, committed, hcom, hemit⟩ := bind_ok_iff.mp hrun
  exact ⟨_, ⟨state, _, rfl⟩, .single (log_step hcom hemit ⟨rfl, rfl, howner⟩)⟩

end Internal

end CyfsGateway.BnsExecution
