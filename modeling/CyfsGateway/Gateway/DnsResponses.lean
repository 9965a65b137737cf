import CyfsGateway.Core.Checks

/-!
# DNS responses

The resolve command hands its result to the server through variables of the chain's
environment.  A variable that exists is not written again, so the first resolve that succeeds
decides on the response.
-/

namespace CyfsGateway.DnsResponses

open Checks

structure DnsAuthority where
  zoneApex : String
  primaryNs : String
  responsibleMailbox : String
  soaSerial : UInt32
  soaRefresh : Int32
  soaRetry : Int32
  soaExpire : Int32
  soaMinimum : UInt32
  positiveTtl : UInt32

inductive DnsQueryResult (NameInfo : Type)
  | answer (nameInfo : NameInfo) (authority : Option DnsAuthority)
  | authoritativeNoData (authority : DnsAuthority)
  | authoritativeNxDomain (authority : DnsAuthority)
  | temporaryFailure (cause : String)

/-- The texts that `RESOLVE_DNS_STATUS` holds. -/
inductive DnsStatus
  | authoritativeAnswer | authoritativeNoData | authoritativeNxDomain | temporaryFailure

/-- The variables `RESOLVE_RESP` and so on of the global environment. -/
structure ResolveVars (NameMap : Type) where
  resp : Option NameMap := none
  provider : Option String := none
  status : Option DnsStatus := none
  authority : Option DnsAuthority := none
  failureCause : Option String := none

inductive ResponseCode
  | noError | servFail | nxDomain
  deriving DecidableEq

inductive RecordType
  | ns | soa | other (code : UInt16)

/-- The question, with the text that `to_utf8` gives for its name. -/
structure Query where
  name : String
  queryType : RecordType

/-- The authority's records have data of their own, all others what the library makes. -/
inductive RData (Name Data : Type)
  | ns (name : Name)
  | soa (mname rname : Name) (serial : UInt32) (refresh retry expire : Int32) (minimum : UInt32)
  | other (data : Data)

structure Record (Name Data : Type) where
  name : Name
  ttl : UInt32
  rdata : RData Name Data

structure Response (Name Data : Type) where
  code : ResponseCode
  authoritative : Bool
  answers : List (Record Name Data)
  soa : List (Record Name Data)

/-- What the command and the server take from elsewhere, for one query. -/
structure DnsLibrary (NameInfo NameMap Name Data : Type) where
  nameinfoToMapCollection : NameInfo → Except String NameMap
  /-- The records of `map_collection_to_nameinfo` and `nameinfo_to_rdata`. -/
  mapToRecords : NameMap → Except String (List (Record Name Data))
  /-- `Name::from_str`. -/
  parseName : String → Except String Name

variable {NameInfo NameMap Name Data : Type} (lib : DnsLibrary NameInfo NameMap Name Data)

/-! ## The command -/

/-- `Env::create` inserts into the map where the key is new and else changes nothing. -/
def create {Value : Type} (current : Option Value) (value : Value) : Option Value :=
  current.or (some value)

def storeStructuredDnsResult (vars : ResolveVars NameMap) (status : DnsStatus)
    (authority : Option DnsAuthority) (cause : Option String) : ResolveVars NameMap :=
  { vars with
    status := create vars.status status
    authority := authority.elim vars.authority (create vars.authority)
    failureCause := cause.elim vars.failureCause (create vars.failureCause) }

/-- A provider and its result.  Without one the command fails, and the chain may go on. -/
abbrev Resolve (NameInfo : Type) := String × Option (DnsQueryResult NameInfo)

/-- One run of the command.  An error in the conversion ends the chain. -/
def exec (vars : ResolveVars NameMap) : Resolve NameInfo → Except String (ResolveVars NameMap)
  | (_, none) => .ok vars
  | (_, some (.authoritativeNoData authority)) =>
    .ok (storeStructuredDnsResult vars .authoritativeNoData (some authority) none)
  | (_, some (.authoritativeNxDomain authority)) =>
    .ok (storeStructuredDnsResult vars .authoritativeNxDomain (some authority) none)
  | (_, some (.temporaryFailure cause)) =>
    .ok (storeStructuredDnsResult vars .temporaryFailure none (some cause))
  | (provider, some (.answer nameInfo authority)) => do
    let vars := if authority.isSome then
      storeStructuredDnsResult vars .authoritativeAnswer authority none else vars
    let map ← lib.nameinfoToMapCollection nameInfo
    .ok { vars with resp := create vars.resp map, provider := create vars.provider provider }

def trimEndDots (text : String) : String := .ofList (text.toList.rdropWhile (· == '.'))

def normalizeFqdn (name : String) : String := (trimEndDots name).toLower

def authorityName (value : String) : Except String Name :=
  (lib.parseName s!"{trimEndDots value}.").mapError fun error =>
    s!"invalid authoritative DNS name {value}: {error}"

def zoneNsRecord (authority : DnsAuthority) : Except String (Record Name Data) := do
  .ok ⟨← authorityName lib authority.zoneApex, authority.positiveTtl,
    .ns (← authorityName lib authority.primaryNs)⟩

def zoneSoaRecord (authority : DnsAuthority) (negative : Bool) :
    Except String (Record Name Data) := do
  let ttl := if negative then min authority.positiveTtl authority.soaMinimum
    else authority.positiveTtl
  .ok ⟨← authorityName lib authority.zoneApex, ttl,
    .soa (← authorityName lib authority.primaryNs)
      (← authorityName lib authority.responsibleMailbox) authority.soaSerial
      authority.soaRefresh authority.soaRetry authority.soaExpire authority.soaMinimum⟩

def authoritativeNegativeResponse (code : ResponseCode) (authority : DnsAuthority) :
    Except String (Response Name Data) := do
  .ok ⟨code, true, [], [← zoneSoaRecord lib authority true]⟩

/-- A question for the type NS or SOA is answered from the authority alone: at the zone's apex
with the record, below it with no data. -/
def authoritativeSpecialResponse (query : Query) (authority : DnsAuthority) :
    Option (Except String (Response Name Data)) :=
  let atApex (found : Except String (Record Name Data)) :=
    if normalizeFqdn query.name = authority.zoneApex then
      found.map fun record => ⟨.noError, true, [record], []⟩
    else authoritativeNegativeResponse lib .noError authority
  match query.queryType with
  | .ns => some (atApex (zoneNsRecord lib authority))
  | .soa => some (atApex (zoneSoaRecord lib authority false))
  | .other _ => none

def nameInfoResponse (map : NameMap) (authority : Option DnsAuthority) :
    Except String (Response Name Data) := do
  let records ← lib.mapToRecords map
  match authority with
  | some authority =>
    if records.isEmpty then authoritativeNegativeResponse lib .noError authority
    else .ok ⟨.noError, true, records, []⟩
  | none => .ok ⟨.noError, false, records, []⟩

variable (query : Query)

/-- What `handle_request` makes of the variables when the chain has returned. -/
def handleReturn (vars : ResolveVars NameMap) : Except String (Response Name Data) :=
  let invalid := .error "invalid process chain result"
  let missing := .error "structured authoritative DNS result has no authority metadata"
  match vars.status, vars.authority with
  | some .temporaryFailure, _ => .ok ⟨.servFail, false, [], []⟩
  | some .authoritativeNxDomain, some authority =>
    authoritativeNegativeResponse lib .nxDomain authority
  | some .authoritativeNoData, some authority =>
    (authoritativeSpecialResponse lib query authority).getD
      (authoritativeNegativeResponse lib .noError authority)
  | some .authoritativeAnswer, some authority =>
    (authoritativeSpecialResponse lib query authority).getD
      (vars.resp.elim invalid (nameInfoResponse lib · (some authority)))
  | some _, none => missing
  | none, _ => vars.resp.elim invalid (nameInfoResponse lib · none)

/-! ## The response of one resolve -/

/-- The response that a result stands for. -/
def report : DnsQueryResult NameInfo → Except String (Response Name Data)
  | .authoritativeNoData authority =>
    (authoritativeSpecialResponse lib query authority).getD
      (authoritativeNegativeResponse lib .noError authority)
  | .authoritativeNxDomain authority => authoritativeNegativeResponse lib .nxDomain authority
  | .temporaryFailure _ => .ok ⟨.servFail, false, [], []⟩
  | .answer nameInfo none => do nameInfoResponse lib (← lib.nameinfoToMapCollection nameInfo) none
  | .answer nameInfo (some authority) =>
    (authoritativeSpecialResponse lib query authority).getD do
      nameInfoResponse lib (← lib.nameinfoToMapCollection nameInfo) (some authority)

/-- The variables that the response is made of.  A status decides whether the authority and the
records are looked at; for the types NS and SOA the records of an answer are not. -/
def readVars (vars : ResolveVars NameMap) : ResolveVars NameMap :=
  match vars.status with
  | none => { resp := vars.resp }
  | some .temporaryFailure => { status := vars.status }
  | some .authoritativeAnswer =>
    { status := vars.status, authority := vars.authority,
      resp := match query.queryType with
        | .ns | .soa => none
        | .other _ => vars.resp }
  | some _ => { status := vars.status, authority := vars.authority }

/-- Every variable that the response to a resolve's own variables is made of was left unset by the
earlier resolves, or set to the same.  A plain answer needs the status unset. -/
@[mk_iff]
structure Undisturbed (earlier own : ResolveVars NameMap) : Prop where
  status : ∀ held ∈ earlier.status, own.status = some held
  authority : (readVars query own).authority.isSome →
    ∀ held ∈ earlier.authority, own.authority = some held
  resp : (readVars query own).resp.isSome → ∀ held ∈ earlier.resp, own.resp = some held

theorem handleReturn_readVars (vars : ResolveVars NameMap) :
    handleReturn lib query (readVars query vars) = handleReturn lib query vars := by
  obtain ⟨resp, provider, status, authority, cause⟩ := vars
  obtain _ | _ | _ | _ | _ := status <;> obtain _ | authority := authority
  -- the special response hides the records exactly where the variable is not read
  case some.authoritativeAnswer.some =>
    cases hquery : query.queryType <;>
      simp [readVars, handleReturn, authoritativeSpecialResponse, hquery]
  all_goals rfl

variable {lib query} {resolves before after : List (Resolve NameInfo)}
  {earlier own vars : ResolveVars NameMap}

theorem foldlM_failed (hfailed : ∀ resolve ∈ resolves, resolve.2 = none)
    (vars : ResolveVars NameMap) : resolves.foldlM (exec lib) vars = .ok vars := by
  induction resolves with
  | nil => rfl
  | cons resolve rest ih =>
    obtain ⟨hfirst, hrest⟩ := List.forall_mem_cons.mp hfailed
    obtain ⟨provider, result⟩ := resolve
    cases hfirst
    exact ih hrest

/-- What a resolve leaves of the variables, where the earlier ones had set them. -/
def keepFirst (earlier own : ResolveVars NameMap) : ResolveVars NameMap where
  resp := earlier.resp.or own.resp
  provider := earlier.provider.or own.provider
  status := earlier.status.or own.status
  authority := earlier.authority.or own.authority
  failureCause := earlier.failureCause.or own.failureCause

section Last

variable {provider : String} {result : DnsQueryResult NameInfo}

theorem exec_keepFirst (hexec : exec lib earlier (provider, some result) = .ok vars) :
    ∃ own, exec lib {} (provider, some result) = .ok own ∧ vars = keepFirst earlier own := by
  cases result with
  | authoritativeNoData | authoritativeNxDomain | temporaryFailure =>
    cases hexec
    exact ⟨_, rfl, by simp [keepFirst, storeStructuredDnsResult, create]⟩
  | answer nameInfo authority =>
    obtain ⟨map, hmap, hvars⟩ := then_ok_iff.mp hexec
    cases hvars
    refine ⟨_, then_ok_iff.mpr ⟨map, hmap, rfl⟩, ?_⟩
    cases authority <;> simp [keepFirst, storeStructuredDnsResult, create]

/-- The variables of a resolve alone give the response that its result stands for. -/
theorem handleReturn_own (hown : exec lib {} (provider, some result) = .ok own) :
    handleReturn lib query own = report lib query result := by
  cases result with
  | authoritativeNoData | authoritativeNxDomain | temporaryFailure =>
    cases hown
    rfl
  | answer nameInfo authority =>
    obtain ⟨map, hmap, hvars⟩ := then_ok_iff.mp hown
    cases hvars
    cases authority with
    | none | some =>
      rw [report, hmap]
      rfl

theorem readVars_keepFirst_iff (hown : exec lib {} (provider, some result) = .ok own) :
    readVars query (keepFirst earlier own) = readVars query own ↔
      Undisturbed query earlier own := by
  obtain ⟨resp, provider', status, authority, cause⟩ := earlier
  rw [undisturbed_iff]
  cases result with
  | authoritativeNoData | authoritativeNxDomain | temporaryFailure =>
    cases hown
    obtain _ | _ | _ | _ | _ := status <;> cases authority <;>
      simp [readVars, keepFirst, storeStructuredDnsResult, create, eq_comm]
  | answer nameInfo own =>
    obtain ⟨map, hmap, hvars⟩ := then_ok_iff.mp hown
    cases hvars
    obtain _ | _ | _ | _ | _ := status <;> cases own <;> cases authority <;> cases resp <;>
      cases hquery : query.queryType <;>
      simp [readVars, keepFirst, storeStructuredDnsResult, create, hquery, eq_comm, and_comm]

/-- The last resolve that does not fail is reported where the earlier ones left the variables
that its response is made of, and only there is the response made of what it gave. -/
theorem handleReturn_last_resolve (query : Query)
    (hbefore : before.foldlM (exec lib) {} = .ok earlier)
    (hafter : ∀ resolve ∈ after, resolve.2 = none)
    (hrun : (before ++ (provider, some result) :: after).foldlM (exec lib) {} = .ok vars) :
    ∃ own, exec lib {} (provider, some result) = .ok own ∧
      (readVars query vars = readVars query own ↔ Undisturbed query earlier own) ∧
      (Undisturbed query earlier own → handleReturn lib query vars = report lib query result) := by
  rw [List.foldlM_append, hbefore] at hrun
  obtain ⟨last, hexec, hrest⟩ := then_ok_iff.mp (List.foldlM_cons.symm.trans hrun)
  cases (foldlM_failed hafter last).symm.trans hrest
  obtain ⟨own, hown, rfl⟩ := exec_keepFirst hexec
  refine ⟨own, hown, readVars_keepFirst_iff hown, fun hundisturbed => ?_⟩
  have hread := (readVars_keepFirst_iff hown).mpr hundisturbed
  rw [← handleReturn_readVars, hread, handleReturn_readVars, handleReturn_own hown]

end Last

/-- Names are lists of addresses, and so are the records. -/
def sampleLibrary : DnsLibrary (List Nat) (List Nat) String Nat where
  nameinfoToMapCollection := .ok
  mapToRecords addresses := .ok (addresses.map fun address => ⟨"www.example.org.", 600,
    .other address⟩)
  parseName := .ok

def sampleQuery : Query := ⟨"www.example.org.", .other 1⟩

def sampleAuthority : DnsAuthority :=
  ⟨"example.org", "ns.example.org", "admin.example.org", 1, 7200, 900, 1209600, 300, 600⟩

/-- A plain answer, a failure and then NXDOMAIN: the name is reported as missing. -/
theorem handleReturn_last_resolve_nxDomain :
    handleReturn sampleLibrary sampleQuery
        { resp := some [1], provider := some "a", status := some .authoritativeNxDomain,
          authority := some sampleAuthority } =
      report sampleLibrary sampleQuery (.authoritativeNxDomain sampleAuthority) := by
  have hbefore : [("a", some (DnsQueryResult.answer [1] none)), ("b", none)].foldlM
    (exec sampleLibrary) {} = .ok { resp := some [1], provider := some "a" } := rfl
  have hrun : ([("a", some (DnsQueryResult.answer [1] none)), ("b", none)] ++
      ("c", some (DnsQueryResult.authoritativeNxDomain sampleAuthority)) :: [("d", none)]).foldlM
    (exec sampleLibrary) {} = .ok
      { resp := some [1], provider := some "a", status := some .authoritativeNxDomain,
        authority := some sampleAuthority } := rfl
  obtain ⟨own, hown, -, hreported⟩ := handleReturn_last_resolve sampleQuery hbefore (by simp) hrun
  cases hown
  exact hreported ⟨by simp, by simp, by simp [readVars, storeStructuredDnsResult, create]⟩

/-- A plain answer behind a temporary failure is not delivered, nor is one behind another. -/
theorem handleReturn_first_resolve :
    ([("a", some (.temporaryFailure "down")), ("b", some (.answer [2] none))].foldlM
        (exec sampleLibrary) {} >>= handleReturn sampleLibrary sampleQuery) =
      .ok ⟨.servFail, false, [], []⟩ ∧
    ([("a", some (.answer [1] none)), ("b", some (.answer [2] none))].foldlM
        (exec sampleLibrary) {} >>= handleReturn sampleLibrary sampleQuery) =
      .ok ⟨.noError, false, [⟨"www.example.org.", 600, .other 1⟩], []⟩ :=
  ⟨rfl, rfl⟩

end CyfsGateway.DnsResponses
