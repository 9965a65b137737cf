import CyfsGateway.Bns.Announcements
import CyfsGateway.Bns.Lineages
import CyfsGateway.Indexer.Statements

/-!
# Keys and rules from the transaction's input

Authority keys and controller rules are not read from the contract: the indexer
takes them from the call that the input of the whole transaction decodes to.
A log is projected correctly exactly when that call carries, for the name of
the log, the keys or rules of the call that emitted it.
-/

namespace CyfsGateway.BnsCalldata

open Evm Texts Checks Tables BnsValidation BnsResolver List Except Option
open BnsValidation (validName nameHash)
open BnsStorage (Storage)
open BnsFacets (BnsCall runCall)
open BnsTypes (BnsEvent)
open BnsConversion.AbiDecoder (decodeString lossy)
open BnsRuns BnsWellFormed BnsLineages BnsContents BnsCells BnsReporting BnsAnnouncements
  BnsModel BnsConversion BnsStore BnsProjection BnsValidators BnsAcceptance BnsStatements

/-- The reads of a record at the last block of its batch.  A read that reverts
fails the batch. -/
def readOutputs [AbiDecoder] (storage : Storage) (now : UInt64) (reads : List ProjectionReadKey) :
    BnsRegistryResult (List (ProjectionReadKey × ContractOutput)) :=
  reads.mapM fun read =>
    match read.call storage now with
    | .ok output => .ok (read, output)
    | .error _ => .error (.evm "execution reverted")

/-- What `sync_once` does with one registry log: `input` is the input of its
transaction, `storage` and `now` belong to the last block of the batch. -/
def projectLog [AbiDecoder] (chain : Deployment) (decoder : CallDecoder) (hashEvent : EventHasher)
    (storage : Storage) (now observedAt : UInt64) (input : Bytes)
    (protocol : ContractProtocolEvent) (event : BnsEvent) (store : Store) :
    BnsRegistryResult Store := do
  let registryEvent ← registryEventFromContractEvent (decodeEvent event)
  let decodedCall ← decodedCallForRecord decoder registryEvent (some input)
  let outputs ← readOutputs storage now (projectionReadsForRecord registryEvent decodedCall)
  let snapshot ← snapshotOf outputs
  let write ← projectionForRecord snapshot registryEvent decodedCall
  storeRecord chain (eventRecord hashEvent protocol registryEvent observedAt) write store

theorem authorityKeyFromEvm_injective
    (hequal : authorityKeyFromEvm left = authorityKeyFromEvm right) : left = right := by
  simp only [authorityKeyFromEvm, AuthorityKey.mk.injEq] at hequal
  obtain ⟨hkid, hmethod, hdata, hpurposes, hfrom, huntil, hstat, hmetadata⟩ := hequal
  cases left
  cases right
  simp only [BnsTypes.AuthorityKey.mk.injEq]
  exact ⟨hashString_injective hkid, bytes32LabelOrHash_injective hmethod, hdata, hpurposes,
    hfrom, huntil, hstat, hashString_injective hmetadata⟩

theorem authorityKeyUpdateFromEvm_eq (update : BnsTypes.AuthorityKeyUpdate) :
    authorityKeyUpdateFromEvm update = authorityKeyFromEvm (BnsCore.storedKey update) := by
  simp only [authorityKeyUpdateFromEvm, BnsCore.storedKey, BnsCore.updatedKeyStatus,
    authorityKeyFromEvm]
  cases update.active <;> simp
  split <;> simp_all

variable (outer : AbiCall) (name : Bytes)

def updatesFor : List BnsTypes.AuthorityKeyUpdate :=
  match outer with
  | .mutation call => if call.name = some name then authorityUpdates call else []
  | .other => []

def rulesFor : Option (List BnsTypes.ControllerRule) :=
  match outer with
  | .mutation call =>
    if call.name = some name then (controllerPolicy call).map (·.1) else none
  | .other => none

theorem authorityKeysFromCall_eq : authorityKeysFromCall (some outer) name =
      (updatesFor outer name).map authorityKeyUpdateFromEvm := by
  cases outer with
  | other => rfl
  | mutation call =>
    cases call <;>
      simp only [authorityKeysFromCall, updatesFor, BnsFacets.BnsCall.name,
        authorityUpdates, some.injEq, reduceCtorEq] <;>
      first
        | rfl
        | (split <;> simp)

theorem controllerRulesFromCall_eq :
    controllerRulesFromCall (some outer) name = match rulesFor outer name with
      | none => .ok none
      | some rules => rules.mapM controllerRuleFromEvm >>= fun rows => pure (some rows) := by
  cases outer with
  | other => rfl
  | mutation call =>
    cases call with
    | registerName callName | setControllerPolicy callName =>
      by_cases hname : callName = name <;>
        simp [controllerRulesFromCall, rulesFor, BnsFacets.BnsCall.name, controllerPolicy, hname]
    | _ => simp [controllerRulesFromCall, rulesFor, controllerPolicy]

variable {name : Bytes} {chain : Deployment} {hash : Digest} {actor : Address}

section Keys

/-- The keys of a name after the rows of a list of updates are written. -/
def putKeyRows (name : Bytes) (updates : List BnsTypes.AuthorityKeyUpdate)
    (table : Table (Bytes × Bytes) AuthorityKey) : Table (Bytes × Bytes) AuthorityKey :=
  (updates.map authorityKeyUpdateFromEvm).foldl
    (fun written key => upsert (name, key.kid) key written) table

theorem kid_authorityKeyUpdateFromEvm (update : BnsTypes.AuthorityKeyUpdate) :
    (authorityKeyUpdateFromEvm update).kid = hashString update.key.kid := by
  rw [authorityKeyUpdateFromEvm_eq]
  rfl

theorem lookup_putKeyRows (updates : List BnsTypes.AuthorityKeyUpdate) (kid : Bytes32)
    (table : Table (Bytes × Bytes) AuthorityKey) :
    (putKeyRows name updates table).lookup (name, hashString kid) =
      ((keyAfter updates kid).map authorityKeyFromEvm).or
        (table.lookup (name, hashString kid)) := by
  induction updates generalizing table with
  | nil => rfl
  | cons update updates ih =>
    have hrest := ih (upsert (name, (authorityKeyUpdateFromEvm update).kid)
      (authorityKeyUpdateFromEvm update) table)
    refine hrest.trans ?_
    rw [keyAfter_cons, lookup_upsert, kid_authorityKeyUpdateFromEvm, authorityKeyUpdateFromEvm_eq]
    by_cases hkid : update.key.kid = kid
    · cases keyAfter updates kid <;> simp [hkid]
    · have hne : hashString kid ≠ hashString update.key.kid :=
        fun hequal => hkid (hashString_injective hequal).symm
      cases keyAfter updates kid <;> simp [hkid, hne]

theorem lookup_putKeyRows_of_ne
    (hother : ∀ update ∈ updates, key ≠ (name, hashString update.key.kid))
    (table : Table (Bytes × Bytes) AuthorityKey) :
    (putKeyRows name updates table).lookup key = table.lookup key := by
  induction updates generalizing table with
  | nil => rfl
  | cons update updates ih =>
    rw [forall_mem_cons] at hother
    refine (ih hother.2 _).trans ?_
    rw [← kid_authorityKeyUpdateFromEvm] at hother
    exact (lookup_upsert _ _ _ _).trans (if_neg hother.1)

/-- The rows of `updates` are the keys a call stores, and no other row moves.  Of several
updates of one key the last one counts. -/
def WritesKeys (name : Bytes) (stored : List BnsTypes.AuthorityKeyUpdate)
    (before after : Table (Bytes × Bytes) AuthorityKey) : Prop :=
  (∀ kid key, keyAfter stored kid = some key →
    after.lookup (name, hashString kid) = some (authorityKeyFromEvm key)) ∧
  ∀ row, (∀ kid key, keyAfter stored kid = some key → row ≠ (name, hashString kid)) →
    after.lookup row = before.lookup row

theorem keyAfter_eq_of_writesKeys
    (hwrites : WritesKeys name stored [] (putKeyRows name decoded [])) (kid : Bytes32) :
    keyAfter decoded kid = keyAfter stored kid := by
  have hrow : (putKeyRows name decoded []).lookup (name, hashString kid) =
      (keyAfter decoded kid).map authorityKeyFromEvm :=
    (lookup_putKeyRows decoded kid []).trans (or_none)
  cases hstored : keyAfter stored kid with
  | none =>
    have hkept := hwrites.2 (name, hashString kid) fun other key hother hequal => by
      have hkid := hashString_injective (Prod.mk.inj hequal).2
      rw [← hkid, hstored] at hother
      cases hother
    rw [hrow] at hkept
    exact map_eq_none_iff.mp hkept
  | some key =>
    have hwritten := hwrites.1 kid key hstored
    rw [hrow] at hwritten
    obtain ⟨found, hfound, hequal⟩ := map_eq_some_iff.mp hwritten
    rw [hfound, authorityKeyFromEvm_injective hequal]

theorem writesKeys_of_keyAfter_eq (hsame : ∀ kid, keyAfter decoded kid = keyAfter stored kid)
    (table : Table (Bytes × Bytes) AuthorityKey) :
    WritesKeys name stored table (putKeyRows name decoded table) := by
  refine ⟨fun kid key hkey => ?_, fun row hother => ?_⟩
  · rw [lookup_putKeyRows, hsame, hkey]
    rfl
  refine lookup_putKeyRows_of_ne (fun update hupdate => ?_) table
  obtain ⟨key, hkey⟩ := isSome_iff_exists.mp (keyAfter_isSome_iff.mpr ⟨update, hupdate, rfl⟩)
  exact hother _ key (hsame _ ▸ hkey)

end Keys

def SamePrincipal (decoded stored : BnsTypes.Principal) : Prop :=
  decoded.kind = stored.kind ∧ match stored.kind with
    | .unset => True
    | .chainAccount => (decoded.value.length = 20 ∨ decoded.value.length = 32) ∧
        accountBytes decoded.value = accountBytes stored.value
    | .bnsName => decoded.value = stored.value

structure SameRule (decoded stored : BnsTypes.ControllerRule) : Prop where
  controller : SamePrincipal decoded.controller stored.controller
  docType : decoded.docType = stored.docType
  permissions : decoded.permissions = stored.permissions
  namespaceScopeHash : decoded.namespaceScopeHash = stored.namespaceScopeHash
  validFrom : decoded.validFrom = stored.validFrom
  validUntil : decoded.validUntil = stored.validUntil
  constraintHash : decoded.constraintHash = stored.constraintHash

variable {row : Principal}

theorem bnsName_ok_iff : Principal.bnsName value = .ok row ↔
      IsCanonical value ∧ row = { kind := .bnsName, value } := by
  simp only [Principal.bnsName, then_ok_iff, done_ok_iff, canonicalBnsName_ok_iff]
  constructor
  · rintro ⟨_, ⟨hcanon, rfl⟩, rfl⟩
    exact ⟨hcanon, rfl⟩
  · rintro ⟨hcanon, rfl⟩
    exact ⟨value, ⟨hcanon, rfl⟩, rfl⟩

theorem principalFromEvm_ok_iff :
    principalFromEvm principal = .ok row ↔ (principal.kind = .unset ∧ row = {}) ∨
      (principal.kind = .chainAccount ∧
        (principal.value.length = 20 ∨ principal.value.length = 32) ∧
        row = { kind := .chainAccount
                value := hexMarker ++ hexEncode (accountBytes principal.value) }) ∨
      (principal.kind = .bnsName ∧ IsCanonical principal.value ∧
        row = { kind := .bnsName, value := principal.value }) := by
  rw [principalFromEvm]
  cases principal.kind with
  | unset => simp [eq_comm]
  | chainAccount =>
    simp only [rejectIf_ok_iff, ok.injEq, reduceCtorEq, false_and, false_or, true_and,
      or_false, not_and_or, ne_eq, not_not]
    exact and_congr_right fun _ => eq_comm
  | bnsName =>
    simp only [rejectIf_ok_iff, bnsName_ok_iff, reduceCtorEq, false_and, false_or, true_and]
    constructor
    · exact And.right
    · exact fun hrow => ⟨not_not.mpr (lossyUtf8_fromUtf8Lossy.of_isAscii hrow.1.isAscii), hrow⟩

theorem principalFromEvm_ok_iff_same {decoded stored}
    (hstored : principalFromEvm stored = .ok row) :
    principalFromEvm decoded = .ok row ↔ SamePrincipal decoded stored := by
  rw [principalFromEvm_ok_iff] at hstored ⊢
  rcases hstored with ⟨hkind, rfl⟩ | ⟨hkind, hlen, rfl⟩ | ⟨hkind, hcanon, rfl⟩
  · simp [SamePrincipal, hkind]
  · have hdigits : hexEncode (accountBytes stored.value) = hexEncode (accountBytes decoded.value) ↔
        accountBytes decoded.value = accountBytes stored.value :=
      ⟨fun hequal => (hexEncode_injective hequal).symm, fun hequal => by rw [hequal]⟩
    simp [SamePrincipal, hkind, hdigits]
  · simp only [SamePrincipal, hkind, Principal.mk.injEq, reduceCtorEq, false_and, and_false,
      false_or, true_and]
    constructor
    · exact fun ⟨hdec, _, hvalue⟩ => ⟨hdec, hvalue.symm⟩
    · exact fun ⟨hdec, hvalue⟩ => ⟨hdec, hvalue ▸ hcanon, hvalue.symm⟩

theorem canonicalDocTypeOrEmpty_ok
    (hdoc : canonicalDocTypeOrEmpty docType = .ok result) : result = docType := by
  simp only [canonicalDocTypeOrEmpty, canonicalDocType] at hdoc
  split at hdoc
  · rename_i hempty
    rw [isEmpty_iff.mp hempty, ← ok.inj hdoc]
  · simp only [rejectIf_ok_iff, ok.injEq] at hdoc
    exact hdoc.2.2.symm

theorem controllerRuleFromEvm_ok_iff_same [AbiDecoder] {decoded stored row}
    (hstored : controllerRuleFromEvm (decodeControllerRule stored) = .ok row)
    (hascii : decodeString stored.docType = stored.docType) :
    controllerRuleFromEvm decoded = .ok row ↔ SameRule decoded stored := by
  simp only [controllerRuleFromEvm, decodeControllerRule, then_ok_iff, done_ok_iff, hascii]
    at hstored ⊢
  obtain ⟨controller, hctrl, docType, hdoc, rfl⟩ := hstored
  obtain rfl := canonicalDocTypeOrEmpty_ok hdoc
  simp only [ControllerRule.mk.injEq]
  constructor
  · rintro ⟨_, hdec, _, hother, rfl, rfl, hpermissions, hscope, hfrom, huntil, hconstraint⟩
    exact ⟨(principalFromEvm_ok_iff_same hctrl).mp hdec,
      (canonicalDocTypeOrEmpty_ok hother).symm, hpermissions, hashString_injective hscope,
      hfrom, huntil, hashString_injective hconstraint⟩
  · intro hsame
    refine ⟨controller, (principalFromEvm_ok_iff_same hctrl).mpr hsame.controller,
      stored.docType, hsame.docType ▸ hdoc, rfl, rfl, hsame.permissions, ?_,
      hsame.validFrom, hsame.validUntil, ?_⟩
    · rw [hsame.namespaceScopeHash]
    · rw [hsame.constraintHash]

theorem decodeString_docType [AbiDecoder] {rule} (hvalid : validateControllerRule rule = .ok ()) :
    decodeString rule.docType = rule.docType := by
  by_cases hempty : rule.docType.length = 0
  · rw [eq_nil_of_length_eq_zero hempty, lossy.nil]
  · exact lossy.of_isAscii
      (isAscii_of_validDocType (docType_of_validateControllerRule hvalid hempty))

theorem controllerRules_ok_iff_same [AbiDecoder] {decoded stored rows}
    (hvalid : ∀ rule ∈ stored, validateControllerRule rule = .ok ())
    (hrows : (stored.map decodeControllerRule).mapM controllerRuleFromEvm = .ok rows) :
    decoded.mapM controllerRuleFromEvm = .ok rows ↔ Forall₂ SameRule decoded stored := by
  rw [mapM_ok_iff] at hrows ⊢
  rw [forall₂_map_left_iff] at hrows
  induction hrows generalizing decoded with
  | nil => simp
  | cons hrow _ ih =>
    rw [forall_mem_cons] at hvalid
    have hhead : ∀ rule, _ ↔ SameRule rule _ := fun rule =>
      controllerRuleFromEvm_ok_iff_same hrow (decodeString_docType hvalid.1)
    cases decoded with
    | nil => simp
    | cons rule rules => rw [forall₂_cons, forall₂_cons, hhead, ih hvalid.2]

/-! ## The two kinds of logs -/

def setRow (storage : Storage) (name : Bytes) : AuthoritySetState where
  name := name
  authoritySeq := (liveSet storage name).authoritySeq
  authorityRoot := hashString (liveSet storage name).authorityRoot
  activeKeyCount := (liveSet storage name).activeKeyCount

section Logs

variable {decoder : CallDecoder} {hashEvent : EventHasher} {storage : Storage}
  {now observedAt : UInt64} {input : Bytes} {protocol : ContractProtocolEvent} {store next : Store}
  {outer : AbiCall} {authoritySeq nameSeq : UInt64} {policyHash : Bytes32}

theorem keyed_mapM (hname : IsCanonical name) (keys : List AuthorityKey) : (keys.mapM fun key => do
      let name ← canonicalBnsName name
      pure (name, key)) = .ok (keys.map (name, ·)) := by
  rw [mapM_ok_iff, forall₂_map_right_iff]
  refine forall₂_same.mpr fun key _ => ?_
  rw [canonicalBnsName_ok_iff.mpr ⟨hname, rfl⟩]
  rfl

theorem putAll_nil {Item : Type} {put : Item → Store → BnsRegistryResult Store} :
    putAll put [] store = .ok store := rfl

theorem putAll_single {Item : Type} {put : Item → Store → BnsRegistryResult Store}
    {item : Item} : putAll put [item] store = put item store := by simp [putAll]

theorem projection_policy {row policyHash} (hname : IsCanonical name)
    (hread : snapshot.lookup (.name name) = some (.name (some row))) :
    projectionForRecord snapshot (.controllerPolicyUpdated name policyHash nameSeq) (some outer) =
      controllerRulesFromCall (some outer) name >>= fun rules =>
        .ok
          { names := [row]
            controllerPolicies := rules.toList.map (name, ·, policyHash) } := by
  simp only [projectionForRecord, snapshotName, hread, toList]
  cases controllerRulesFromCall (some outer) name with
  | error error => rfl
  | ok rules =>
    cases rules with
    | none => rfl
    | some rows =>
      simp only [bind, Except.bind, canonicalBnsName_ok_iff.mpr ⟨hname, rfl⟩]
      rfl

theorem projection_keys {row authorityRoot} (hname : IsCanonical name)
    (hread : snapshot.lookup (.authoritySet name) = some (.authoritySet row)) :
    projectionForRecord snapshot (.authorityKeysUpdated name authoritySeq authorityRoot)
        (some outer) =
      .ok
        { authoritySets := [row]
          authorityKeys :=
            ((updatesFor outer name).map authorityKeyUpdateFromEvm).map (name, ·) } := by
  simp only [projectionForRecord, snapshotAuthoritySet, hread, authorityKeysFromCall_eq,
    keyed_mapM hname]
  rfl

theorem storeRecord_keys_iff {record : EventLogRecord}
    {updates : List BnsTypes.AuthorityKeyUpdate} (hvalid : validName name = true) :
    storeRecord chain record
        { authoritySets := [setRow storage name]
          authorityKeys := (updates.map authorityKeyUpdateFromEvm).map (name, ·) } store =
        .ok next ↔
      (FitsI64 record.seq ∧ FitsI64 record.observedAt ∧
        FitsI64 (liveSet storage name).authoritySeq) ∧
      next = { store with
        events := upsert record.seq record store.events
        authoritySets := upsert name (setRow storage name) store.authoritySets
        authorityKeys := putKeyRows name updates store.authorityKeys } := by
  have hkeys : ∀ key ∈ updates.map authorityKeyUpdateFromEvm, key.validate = .ok () := by
    intro key hkey
    obtain ⟨update, -, rfl⟩ := mem_map.mp hkey
    exact validate_authorityKeyUpdateFromEvm update
  have hset : (∃ written, canonicalBnsName (setRow storage name).name = .ok written) ∧
      validateHash (setRow storage name).authorityRoot = .ok () :=
    ⟨⟨name, canonicalBnsName_of_validName hvalid⟩, validateHash_hashString _⟩
  simp only [storeRecord, ContractProjectionWrite.apply, putAll_nil, putAll_single,
    then_ok_iff, putEventRecord_eq_ok_iff, putAuthoritySet_eq_ok_iff,
    putKeys_eq_ok_iff (isCanonical_of_validName hvalid) hkeys, ok.injEq]
  constructor
  · rintro ⟨_, ⟨⟨hseq, hobs⟩, rfl⟩, _, rfl, _, rfl, _, rfl, _, ⟨⟨-, -, hfits⟩, rfl⟩, _,
      rfl, _, rfl, _, rfl, rfl⟩
    exact ⟨⟨hseq, hobs, hfits⟩, rfl⟩
  · rintro ⟨⟨hseq, hobs, hfits⟩, rfl⟩
    exact ⟨_, ⟨⟨hseq, hobs⟩, rfl⟩, _, rfl, _, rfl, _, rfl, _,
      ⟨⟨hset.1, hset.2, hfits⟩, rfl⟩, _, rfl, _, rfl, _, rfl, rfl⟩

/-- A call without rules for the name leaves those that are stored. -/
def policiesAfter (name : Bytes) (policyHash : Bytes32) (rules : Option (List ControllerRule))
    (table : Table Bytes PolicyRow) : Table Bytes PolicyRow :=
  match rules with
  | none => table
  | some rows => upsert name { rules := rows, policyHash := hashString policyHash } table

theorem putPolicies_iff {rules : Option (List ControllerRule)} (hname : IsCanonical name) :
    putAll (fun entry => putControllerPolicy entry.1 entry.2.1 entry.2.2)
        (rules.toList.map (name, ·, hashString policyHash)) store = .ok next ↔
      (∀ rows, rules = some rows → ∀ rule ∈ rows, rule.validate = .ok ()) ∧
      next = { store with
        controllerPolicies :=
          policiesAfter name policyHash rules store.controllerPolicies } := by
  cases rules with
  | none =>
    simp only [toList_none, map_nil, putAll_nil, ok.injEq, reduceCtorEq, false_implies,
      implies_true, true_and]
    exact eq_comm
  | some rows =>
    simp [putAll_single, putControllerPolicy_eq_ok_iff, hname, validateHash_hashString,
      policiesAfter]

theorem storeRecord_policy_iff {record : EventLogRecord} {row : NameState}
    {rules : Option (List ControllerRule)}
    (hname : IsCanonical name) (hrow : row.validate = .ok ()) :
    storeRecord chain record
        { names := [row]
          controllerPolicies := rules.toList.map (name, ·, hashString policyHash) } store =
        .ok next ↔
      (FitsI64 record.seq ∧ FitsI64 record.observedAt ∧ FitsI64 row.nameSeq ∧
        FitsI64 row.updatedAt ∧ ∀ rows, rules = some rows → ∀ rule ∈ rows, rule.validate = .ok ()) ∧
      next = { store with
        events := upsert record.seq record store.events
        names := upsert row.name row store.names
        controllerPolicies :=
          policiesAfter name policyHash rules store.controllerPolicies } := by
  simp only [storeRecord, ContractProjectionWrite.apply, putAll_nil, putAll_single, then_ok_iff,
    putEventRecord_eq_ok_iff, putName_eq_ok_iff, putPolicies_iff hname, ok.injEq]
  constructor
  · rintro ⟨_, ⟨⟨hseq, hobs⟩, rfl⟩, _, rfl, _, ⟨⟨-, hnameSeq, hupd⟩, rfl⟩, _, rfl, _, rfl, _,
      rfl, _, ⟨hrules, rfl⟩, _, rfl, rfl⟩
    exact ⟨⟨hseq, hobs, hnameSeq, hupd, hrules⟩, rfl⟩
  · rintro ⟨⟨hseq, hobs, hnameSeq, hupd, hrules⟩, rfl⟩
    exact ⟨_, ⟨⟨hseq, hobs⟩, rfl⟩, _, rfl, _, ⟨⟨hrow, hnameSeq, hupd⟩, rfl⟩, _, rfl, _, rfl, _,
      rfl, _, ⟨hrules, rfl⟩, _, rfl, rfl⟩

variable [AbiDecoder]

theorem call_authoritySet (now : UInt64) (hvalid : validName name = true)
    (hsound : SoundStorage chain storage) :
    ∃ output, ProjectionReadKey.call storage now (.authoritySet name) = .ok output ∧
      output.convert = .ok (.authoritySet (setRow storage name)) := by
  have hread : BnsResolver.getAuthoritySet storage name =
      .ok { liveSet storage name with name } := by
    have hslot := (hsound.authoritySets _).eq_of_owns
      (BnsFrames.owns_lineageStateKey storage (nameHash name))
    simp only [BnsResolver.getAuthoritySet, validateName, hvalid, if_true]
    rcases hslot with hempty | hnamed
    · exact congrArg ok (if_pos (by rw [hempty]; rfl))
    refine congrArg ok ((if_neg ?_).trans ?_)
    · rw [hnamed]
      exact fun hlen => (isCanonical_of_validName hvalid).nonempty
        (eq_nil_of_length_eq_zero hlen)
    · rw [liveSet]
      exact congrArg (fun written => { storage.authoritySets
        (BnsStorage.lineageStateKey storage (nameHash name)) with name := written }) hnamed
  refine ⟨_, by rw [ProjectionReadKey.call, hread]; rfl, ?_⟩
  simp only [ContractOutput.convert, authoritySetFromEvm, decodeAuthoritySet,
    decode_of_validName hvalid lossy, canonicalBnsNameOrEmpty_of_validName hvalid]
  rfl

theorem snapshot_single {read output value} (hcall : read.call storage now = .ok output)
    (hconvert : output.convert = .ok value) :
    (readOutputs storage now [read] >>= snapshotOf) = .ok [(read, value)] := by
  simp only [readOutputs, mapM_cons, mapM_nil, hcall]
  simp only [then_ok_iff, done_ok_iff, snapshotOf, mapM_ok_iff]
  exact ⟨_, ⟨_, rfl, _, rfl, rfl⟩, .cons ⟨value, hconvert, rfl⟩ .nil⟩

theorem projectLog_eq {event registryEvent decodedCall}
    (hevent : registryEventFromContractEvent (decodeEvent event) = .ok registryEvent)
    (hdec : decodedCallForRecord decoder registryEvent (some input) = .ok decodedCall)
    (hsnapshot : (readOutputs storage now
      (projectionReadsForRecord registryEvent decodedCall) >>= snapshotOf) = .ok snapshot) :
    projectLog chain decoder hashEvent storage now observedAt input protocol event store =
      (projectionForRecord snapshot registryEvent decodedCall >>= fun write =>
        storeRecord chain (eventRecord hashEvent protocol registryEvent observedAt) write
          store) := by
  obtain ⟨outputs, houtputs, hsnapshot⟩ := then_ok_iff.mp hsnapshot
  simp only [projectLog, hevent, hdec, houtputs, hsnapshot, bind, Except.bind]

theorem projectLog_keys_iff {authorityRoot} (hvalid : validName name = true)
    (hsound : SoundStorage chain storage) (hdecode : decoder.decode input = some outer) :
    projectLog chain decoder hashEvent storage now observedAt input protocol
        (.authorityKeysUpdated hash name actor authoritySeq authorityRoot) store = .ok next ↔
      (FitsI64 protocol.seq ∧ FitsI64 observedAt ∧ FitsI64 (liveSet storage name).authoritySeq) ∧
      next = { store with
        events := upsert protocol.seq
          (eventRecord hashEvent protocol
            (.authorityKeysUpdated name authoritySeq (hashString authorityRoot)) observedAt)
          store.events
        authoritySets := upsert name (setRow storage name) store.authoritySets
        authorityKeys := putKeyRows name (updatesFor outer name) store.authorityKeys } := by
  obtain ⟨output, hcall, hconvert⟩ := call_authoritySet now hvalid hsound
  have hevent : registryEventFromContractEvent (decodeEvent
      (.authorityKeysUpdated hash name actor authoritySeq authorityRoot)) =
      .ok (.authorityKeysUpdated name authoritySeq (hashString authorityRoot)) := by
    rw [decodeEvent, decode_of_validName hvalid lossy]
    rfl
  have hdec : decodedCallForRecord decoder
      (.authorityKeysUpdated name authoritySeq (hashString authorityRoot)) (some input) =
      .ok (some outer) := by
    simp [decodedCallForRecord, recordNeedsDecodedCall, decodedCallForTransaction, hdecode]
  have hlook : lookup (.authoritySet name) [(ProjectionReadKey.authoritySet name,
      SnapshotValue.authoritySet (setRow storage name))] =
      some (.authoritySet (setRow storage name)) := by simp
  rw [projectLog_eq hevent hdec (snapshot_single hcall hconvert),
    projection_keys (isCanonical_of_validName hvalid) hlook]
  exact storeRecord_keys_iff hvalid

/-- A transaction that does not decode fails the batch of a log that needs its call. -/
theorem projectLog_undecoded (event : BnsEvent)
    (hevent : registryEventFromContractEvent (decodeEvent event) = .ok registryEvent)
    (hneeds : recordNeedsDecodedCall registryEvent = true) (hdecode : decoder.decode input = none) :
    projectLog chain decoder hashEvent storage now observedAt input protocol event store =
      .error (.evm "BNS ABI error") := by
  simp [projectLog, hevent, hneeds, decodedCallForRecord, decodedCallForTransaction, hdecode,
    bind, Except.bind]

theorem decoded_of_projectLog (event : BnsEvent) {registryEvent projected}
    (hevent : registryEventFromContractEvent (decodeEvent event) = .ok registryEvent)
    (hneeds : recordNeedsDecodedCall registryEvent = true)
    (hrun : projectLog chain decoder hashEvent storage now observedAt input protocol event store =
      .ok projected) : ∃ outer, decoder.decode input = some outer := by
  refine ne_none_iff_exists'.mp fun hdecode => ?_
  rw [projectLog_undecoded event hevent hneeds hdecode] at hrun
  cases hrun

theorem call_name {state} (hwf : WellFormed storage) (hreg : Registered storage name)
    (hquery : queryNameState storage now name = .ok state) :
    ∃ output row, ProjectionReadKey.call storage now (.name name) = .ok output ∧
      output.convert = .ok (.name (some row)) ∧ row.validate = .ok () ∧
      row.nameSeq = state.nameSeq ∧ row.updatedAt = state.updatedAt := by
  have hexists : state.status ≠ .available := by
    simp only [queryNameState, then_ok_iff, validateName_ok_iff] at hquery
    obtain ⟨-, ⟨-, rfl⟩, hquery⟩ := hquery
    rw [if_neg hreg, BnsStorage.materializeNameState] at hquery
    split at hquery
    · cases hquery
    obtain rfl := ok.inj hquery
    simp only [BnsStorage.effectiveNameStatus]
    split
    · decide
    · exact hreg
  have hsound := soundName_of_query hwf hquery hexists
  obtain ⟨row, hrow, hvalid, hseq, hupd⟩ := nameStateFromEvm_ok hsound.name
    hsound.assetOwner hsound.semanticOwner hsound.effectiveOwner
  have hstat : row.status = state.status := by
    simp only [nameStateFromEvm, decodeNameState, then_ok_iff, done_ok_iff] at hrow
    obtain ⟨_, -, _, -, _, -, rfl⟩ := hrow
    rfl
  refine ⟨.nameState (decodeNameState state), row, ?_, ?_, hvalid, hseq, hupd⟩
  · rw [ProjectionReadKey.call, hquery]
    rfl
  rw [ContractOutput.convert, hrow]
  refine congrArg (fun kept => ok (SnapshotValue.name kept)) (if_pos ?_)
  rw [hstat]
  exact hexists

/-- An update of rules, once its transaction decodes: the name must still have
an answer at the last block of the batch. -/
theorem projectLog_policy_iff (hwf : WellFormed storage) (hreg : Registered storage name)
    (hdecode : decoder.decode input = some outer) {table} :
    (∃ next, projectLog chain decoder hashEvent storage now observedAt input protocol
        (.controllerPolicyUpdated hash name actor policyHash nameSeq) store = .ok next ∧
        next.controllerPolicies = table) ↔
      ∃ state rules, queryNameState storage now name = .ok state ∧
        controllerRulesFromCall (some outer) name = .ok rules ∧
        (FitsI64 protocol.seq ∧ FitsI64 observedAt ∧ FitsI64 state.nameSeq ∧
          FitsI64 state.updatedAt ∧ ∀ rows, rules = some rows →
            ∀ rule ∈ rows, rule.validate = .ok ()) ∧
        table = policiesAfter name policyHash rules store.controllerPolicies := by
  have hvalid := (hwf.stored name hreg).valid
  have hname := isCanonical_of_validName hvalid
  have hevent : registryEventFromContractEvent (decodeEvent
      (.controllerPolicyUpdated hash name actor policyHash nameSeq)) =
      .ok (.controllerPolicyUpdated name (hashString policyHash) nameSeq) := by
    rw [decodeEvent, decode_of_validName hvalid lossy]
    rfl
  have hdec : decodedCallForRecord decoder
      (.controllerPolicyUpdated name (hashString policyHash) nameSeq) (some input) =
      .ok (some outer) := by
    simp [decodedCallForRecord, recordNeedsDecodedCall, decodedCallForTransaction, hdecode]
  cases hquery : queryNameState storage now name with
  | error error =>
    have hread : readOutputs storage now (projectionReadsForRecord
        (.controllerPolicyUpdated name (hashString policyHash) nameSeq) (some outer)) =
        .error (.evm "execution reverted") := by
      simp [projectionReadsForRecord, readOutputs, ProjectionReadKey.call, hquery, bind,
        Except.bind]
    simp [projectLog, hevent, hdec, hread, bind, Except.bind]
  | ok state =>
    obtain ⟨output, row, hcall, hconvert, hrow, hseq, hupd⟩ := call_name hwf hreg hquery
    have hlook : lookup (.name name) [(ProjectionReadKey.name name,
        SnapshotValue.name (some row))] = some (.name (some row)) := by simp
    rw [projectLog_eq hevent hdec (snapshot_single hcall hconvert),
      projection_policy hname hlook]
    constructor
    · rintro ⟨next, hrun, rfl⟩
      obtain ⟨_, hprojected, hstored⟩ := then_ok_iff.mp hrun
      obtain ⟨rules, hrules, hwrite⟩ := then_ok_iff.mp hprojected
      obtain rfl := ok.inj hwrite
      obtain ⟨hfits, rfl⟩ := (storeRecord_policy_iff hname hrow).mp hstored
      rw [hseq, hupd] at hfits
      exact ⟨state, rules, rfl, hrules, hfits, rfl⟩
    · rintro ⟨_, rules, hstate, hrules, hfits, rfl⟩
      obtain rfl := ok.inj hstate
      rw [← hseq, ← hupd] at hfits
      refine ⟨_, then_ok_iff.mpr ⟨_, then_ok_iff.mpr ⟨rules, hrules, rfl⟩,
        (storeRecord_policy_iff hname hrow).mpr ⟨hfits, rfl⟩⟩, ?_⟩
      rfl

end Logs

/-! ## Logs of committed calls -/

/-- A committed call and the state of the contract at some later moment, which is when the
indexer may get to read it. -/
structure Emission (chain : Deployment) where
  before : Storage
  attempt : Attempt
  after : Storage
  logs : List BnsEvent
  later : List Attempt
  final : Storage
  reachable : Reachable chain before
  committed : runCall chain attempt.msg attempt.call before = .ok (after, logs)
  run : Run chain after later final

/-- How a log reaches the indexer: `input` is the input of the transaction that
produced it, whatever contract that transaction was sent to. -/
structure Delivery where
  decoder : CallDecoder
  hashEvent : EventHasher
  now : UInt64
  observedAt : UInt64
  input : Bytes
  protocol : ContractProtocolEvent

section Main

variable (emission : Emission chain) (delivery : Delivery)

def Emission.project [AbiDecoder] (event : BnsEvent) (store : Store) : BnsRegistryResult Store :=
  projectLog chain delivery.decoder delivery.hashEvent emission.final delivery.now
    delivery.observedAt delivery.input delivery.protocol event store

/-- The log is stored, and the keys it writes for the name are those the
contract stored in the call that emitted it. -/
def KeysProjected [AbiDecoder] (event : BnsEvent) (name : Bytes) : Prop :=
  ∀ store, ∃ projected, emission.project delivery event store = .ok projected ∧
    (∀ update ∈ authorityUpdates emission.attempt.call,
      projected.authorityKeys.lookup (name, hashString update.key.kid) =
        some (authorityKeyFromEvm (liveKey emission.after name update.key.kid))) ∧
    ∀ row, (∀ update ∈ authorityUpdates emission.attempt.call,
        row ≠ (name, hashString update.key.kid)) →
      projected.authorityKeys.lookup row = store.authorityKeys.lookup row

/-- The log is stored, and the rules it writes for the name are those the
contract stored in the call that emitted it. -/
def RulesProjected [AbiDecoder] (event : BnsEvent) (name : Bytes) : Prop :=
  ∀ store, ∃ projected row, emission.project delivery event store = .ok projected ∧
    projected.controllerPolicies.lookup name = some row ∧
    ((livePolicy emission.after name).map decodeControllerRule).mapM controllerRuleFromEvm =
      .ok row.rules

/-- The transaction decodes to a call with the same final keys for the name. -/
def KeysDecoded (name : Bytes) : Prop :=
  ∃ outer, delivery.decoder.decode delivery.input = some outer ∧
    ∀ kid, keyAfter (updatesFor outer name) kid =
      keyAfter (authorityUpdates emission.attempt.call) kid

/-- The transaction decodes to a call with the same rules for the name. -/
def RulesDecoded (name : Bytes) : Prop :=
  ∃ outer rules policy, delivery.decoder.decode delivery.input = some outer ∧
    rulesFor outer name = some rules ∧
    controllerPolicy emission.attempt.call = some policy ∧
    Forall₂ SameRule rules policy.1

def RecordFits : Prop :=
  FitsI64 delivery.protocol.seq ∧ FitsI64 delivery.observedAt

/-- The name has an answer at the last block of the batch, and it fits. -/
def NameFits (name : Bytes) : Prop :=
  ∃ state, queryNameState emission.final delivery.now name = .ok state ∧
    FitsI64 state.nameSeq ∧ FitsI64 state.updatedAt

variable (emission : Emission chain)

theorem Emission.wellFormed : WellFormed emission.before :=
  wellFormed_of_reachable emission.reachable

theorem Emission.reachable_after : Reachable chain emission.after := by
  have hcom := commit_ok emission.committed
  exact emission.reachable.run (.single hcom.symm)

theorem Emission.reachable_final : Reachable chain emission.final :=
  emission.reachable_after.run emission.run

theorem Emission.validName {name} (hname : emission.attempt.call.name = some name) :
    validName name = true :=
  validName_of_performs (BnsCalls.runCall_performs emission.committed) hname

theorem Emission.registered_final {name} (hname : emission.attempt.call.name = some name) :
    Registered emission.final name := by
  have hperf := BnsCalls.runCall_performs emission.committed
  have hafter : Registered emission.after name := by
    cases hregs : emission.attempt.call.registers with
    | none => exact registered_performs hperf (admitted_registered hperf.1 hname hregs)
    | some other =>
      have hother := name_of_registers hregs
      rw [hname, some.injEq] at hother
      exact registered_registration hperf (hother ▸ hregs)
  exact Run.preserves (fun storage => Registered storage name)
    (fun hlive => registered_step hlive.1) emission.run hafter

theorem writesKeys_iff {name : Bytes} {updates : List BnsTypes.AuthorityKeyUpdate}
    {live : Bytes32 → BnsTypes.AuthorityKey}
    (hlive : ∀ {kid key}, keyAfter updates kid = some key → live kid = key)
    {before after : Table (Bytes × Bytes) AuthorityKey} :
    ((∀ update ∈ updates, after.lookup (name, hashString update.key.kid) =
        some (authorityKeyFromEvm (live update.key.kid))) ∧
      ∀ row, (∀ update ∈ updates, row ≠ (name, hashString update.key.kid)) →
        after.lookup row = before.lookup row) ↔ WritesKeys name updates before after := by
  have hupd : ∀ update ∈ updates, ∃ key, keyAfter updates update.key.kid = some key :=
    fun update hupdate => isSome_iff_exists.mp (keyAfter_isSome_iff.mpr ⟨update, hupdate, rfl⟩)
  have hupdate_of : ∀ kid key, keyAfter updates kid = some key →
      ∃ update ∈ updates, update.key.kid = kid :=
    fun kid key hkey => keyAfter_isSome_iff.mp (by rw [hkey]; rfl)
  constructor
  · rintro ⟨hkeys, hothers⟩
    refine ⟨fun kid key hkey => ?_, fun row hrow => hothers row fun update hupdate => ?_⟩
    · obtain ⟨update, hupdate, rfl⟩ := hupdate_of kid key hkey
      rw [hkeys update hupdate, hlive hkey]
    · obtain ⟨key, hkey⟩ := hupd update hupdate
      exact hrow _ key hkey
  · rintro ⟨hkeys, hothers⟩
    refine ⟨fun update hupdate => ?_, fun row hrow => hothers row fun kid key hkey => ?_⟩
    · obtain ⟨key, hkey⟩ := hupd update hupdate
      rw [hkeys _ key hkey, hlive hkey]
    · obtain ⟨update, hupdate, rfl⟩ := hupdate_of kid key hkey
      exact hrow update hupdate

variable [AbiDecoder]

theorem keysProjected_iff (emission : Emission chain) (delivery : Delivery)
    {name : Bytes} {seq : UInt64} {root : Bytes32}
    (hevent : .authorityKeysUpdated hash name actor seq root ∈ emission.logs) :
    KeysProjected emission delivery (.authorityKeysUpdated hash name actor seq root) name ↔
      KeysDecoded emission delivery name ∧ RecordFits delivery ∧
        FitsI64 (liveSet emission.final name).authoritySeq := by
  have hname := name_of_event emission.committed hevent rfl
  have hvalid := emission.validName hname
  have hsound := soundStorage_of_reachable emission.reachable_final
  have hlive := @liveKey_of_event _ _ _ _ _ _ emission.committed emission.wellFormed _ _ _ _ hevent
  constructor
  · intro hprojected
    obtain ⟨projected, hrun, hkeys, hothers⟩ := hprojected {}
    obtain ⟨outer, hdecode⟩ := decoded_of_projectLog (.authorityKeysUpdated ..) rfl rfl hrun
    obtain ⟨hfits, rfl⟩ := (projectLog_keys_iff hvalid hsound hdecode).mp hrun
    exact ⟨⟨outer, hdecode, keyAfter_eq_of_writesKeys
      ((writesKeys_iff hlive).mp ⟨hkeys, hothers⟩)⟩, ⟨hfits.1, hfits.2.1⟩, hfits.2.2⟩
  · rintro ⟨⟨outer, hdecode, hsame⟩, ⟨hseq, hobs⟩, hset⟩ store
    exact ⟨_, (projectLog_keys_iff hvalid hsound hdecode).mpr ⟨⟨hseq, hobs, hset⟩, rfl⟩,
      (writesKeys_iff hlive).mpr (writesKeys_of_keyAfter_eq hsame _)⟩

theorem rulesProjected_iff (emission : Emission chain) (delivery : Delivery) {name policyHash seq}
    (hevent : .controllerPolicyUpdated hash name actor policyHash seq ∈ emission.logs) :
    RulesProjected emission delivery
        (.controllerPolicyUpdated hash name actor policyHash seq) name ↔
      RulesDecoded emission delivery name ∧ RecordFits delivery ∧
        NameFits emission delivery name := by
  have hname := name_of_event emission.committed hevent rfl
  have hwf := wellFormed_of_reachable emission.reachable_final
  have hreg := emission.registered_final hname
  obtain ⟨applied, hpol⟩ := livePolicy_of_event emission.committed emission.wellFormed hevent
  have hrules : ∀ rule ∈ livePolicy emission.after name,
      validateControllerRule rule = .ok () := fun rule =>
    validateControllerRule_of_performs (BnsCalls.runCall_performs emission.committed) hpol
  obtain ⟨rows, hrows, hchecks⟩ := controllerRules_of_validateControllerRule hrules
  constructor
  · intro hprojected
    obtain ⟨projected, row, hrun, hrow, hstored⟩ := hprojected {}
    obtain ⟨outer, hdecode⟩ := decoded_of_projectLog (.controllerPolicyUpdated ..) rfl rfl hrun
    obtain ⟨state, found, hquery, hfound, ⟨hseq, hobs, hnameSeq, hupd, -⟩,
      htable⟩ := (projectLog_policy_iff hwf hreg hdecode).mp ⟨projected, hrun, rfl⟩
    rw [controllerRulesFromCall_eq] at hfound
    cases hcarried : rulesFor outer name with
    | none =>
      rw [hcarried] at hfound
      obtain rfl := ok.inj hfound
      rw [htable] at hrow
      cases hrow
    | some rules =>
      rw [hcarried] at hfound
      obtain ⟨written, hwritten, hsome⟩ := then_ok_iff.mp hfound
      obtain rfl := done_ok_iff.mp hsome
      rw [htable, policiesAfter, lookup_upsert, if_pos rfl] at hrow
      obtain rfl := some.inj hrow
      exact ⟨⟨outer, rules, _, hdecode, hcarried, hpol,
        (controllerRules_ok_iff_same hrules hstored).mp hwritten⟩,
        ⟨hseq, hobs⟩, state, hquery, hnameSeq, hupd⟩
  · rintro ⟨⟨outer, rules, policy, hdecode, hcarried, happlied, hsame⟩, ⟨hseq, hobs⟩,
      state, hquery, hnameSeq, hupd⟩ store
    obtain rfl := some.inj (hpol.symm.trans happlied)
    have hwritten := (controllerRules_ok_iff_same hrules hrows).mpr hsame
    have hfound : controllerRulesFromCall (some outer) name = .ok (some rows) := by
      rw [controllerRulesFromCall_eq, hcarried]
      exact then_ok_iff.mpr ⟨rows, hwritten, rfl⟩
    obtain ⟨projected, hrun, htable⟩ := (projectLog_policy_iff hwf hreg hdecode).mpr
      ⟨state, some rows, hquery, hfound, ⟨hseq, hobs, hnameSeq, hupd,
        fun _ hsome => some.inj hsome ▸ hchecks⟩, rfl⟩
    refine ⟨projected, { rules := rows, policyHash := hashString policyHash }, hrun, ?_, hrows⟩
    rw [htable, policiesAfter, lookup_upsert, if_pos rfl]

/-- The logs of keys and rules are projected as the contract stored them exactly
when the transaction's input decodes to a call that carries, for the name of
the log, the same keys or rules, and the rows fit the columns. -/
theorem keys_and_rules_as_stored_iff (emission : Emission chain) (delivery : Delivery)
    (hash : Digest) (name : Bytes) (actor : Address) (seq : UInt64) (root : Bytes32) :
    (.authorityKeysUpdated hash name actor seq root ∈ emission.logs →
      (KeysProjected emission delivery (.authorityKeysUpdated hash name actor seq root) name ↔
        KeysDecoded emission delivery name ∧ RecordFits delivery ∧
          FitsI64 (liveSet emission.final name).authoritySeq)) ∧
    (.controllerPolicyUpdated hash name actor root seq ∈ emission.logs →
      (RulesProjected emission delivery (.controllerPolicyUpdated hash name actor root seq) name ↔
        RulesDecoded emission delivery name ∧ RecordFits delivery ∧
          NameFits emission delivery name)) :=
  ⟨keysProjected_iff emission delivery, rulesProjected_iff emission delivery⟩

end Main

def sampleEmission : Emission sampleChain where
  before := .initial
  attempt := sampleRegistration "alice" 7
  after := commit sampleChain (sampleRegistration "alice" 7) .initial
  logs := emitted sampleChain (sampleRegistration "alice" 7) .initial
  later := []
  final := commit sampleChain (sampleRegistration "alice" 7) .initial
  reachable := Reachable.initial sampleChain
  committed := runCall_emitted (by decide +kernel)
  run := .nil _

/-- The words of the arguments of that registration, as numbers. -/
def registrationWords : List Nat :=
  [0x160, 7, 0x1a0, 0x320, 0x4e0, 0x540, 0, 0x560, 0x580, 0, 0,
    -- the name
    5, 0x616c696365 <<< 216,
    -- the options
    1000, 10, 1, 1, 0x120, 1, 0, 0, 0, 0, 0x40, 0,
    -- the key
    1, 0x20, 0x40, 1, 7, 1, 0x100, 1, 0, 0, 0, 0, 20, 7 <<< 96,
    -- the owner, the rules, the documents and the authority
    0, 0x40, 0, 0, 0, 0, 0x60, 0, 0, 0x40, 0]

/-- The calldata of the registration: the selector of `registerName` and the words. -/
def registrationInput : Bytes :=
  0x47 :: 0x45 :: 0x8b :: 0x2a :: registrationWords.flatMap fun word =>
    (List.range 32).map fun index => UInt8.ofNat (word >>> (8 * (31 - index)))

/-- A direct call: the input of the transaction is the calldata of the call itself. -/
def directDelivery : Delivery where
  decoder :=
    { decode := fun input =>
        if input = registrationInput then some (.mutation (sampleRegistration "alice" 7).call)
        else none
      short := fun input hshort => if_neg (by
        rintro rfl
        exact absurd hshort (by decide +kernel)) }
  hashEvent _ _ := []
  now := 5
  observedAt := 5
  input := registrationInput
  protocol := { seq := 2, eventTypeHash := .keccak256 [], previousLogRoot := [], logRoot := [] }

theorem decode_directDelivery : directDelivery.decoder.decode directDelivery.input =
    some (.mutation (sampleRegistration "alice" 7).call) := by
  dsimp only [directDelivery]
  rw [if_pos rfl]

theorem sampleEmission_logs :
    .authorityKeysUpdated (nameHash (text "alice")) (text "alice") (.ofByte 7) 1 .zero ∈
      sampleEmission.logs := by decide +kernel

theorem keys_and_rules_as_stored_iff_direct : KeysProjected sampleEmission directDelivery
      (.authorityKeysUpdated (nameHash (text "alice")) (text "alice") (.ofByte 7) 1 .zero)
      (text "alice") := by
  have hiff := (keys_and_rules_as_stored_iff sampleEmission directDelivery
    (nameHash (text "alice")) (text "alice") (.ofByte 7) 1 .zero).1 sampleEmission_logs
  exact hiff.mpr ⟨⟨_, decode_directDelivery, fun kid => rfl⟩, ⟨by decide, by decide⟩,
    by decide +kernel⟩

/-- A wallet contract called with an empty input registers a name: the batch
that holds its log fails, whatever the decoder accepts. -/
theorem wallet_registration_fails_batch :
    ∃ event ∈ sampleEmission.logs, ∀ delivery : Delivery, delivery.input = [] →
      ∀ store, sampleEmission.project delivery event store = .error (.evm "BNS ABI error") := by
  refine ⟨_, sampleEmission_logs, fun delivery hinput store =>
    projectLog_undecoded (.authorityKeysUpdated ..) rfl rfl ?_⟩
  exact delivery.decoder.short _ (by rw [hinput]; decide)

end CyfsGateway.BnsCalldata
