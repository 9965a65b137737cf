import CyfsGateway.Core.Checks

/-!
# Identities of RTCP peers

The inbound identity checks of `rtcp.rs`: the candidate key and document a Hello
carries, and what admission makes of the report name-client gives about the
document.  DIDs, document formats and the verification itself belong to name-lib
and name-client and are parameters.
-/

namespace CyfsGateway.Rtcp

variable {Key : Type} [DecidableEq Key]

/-! ## Names and documents -/

structure Did where
  method : String
  id : String
  deriving DecidableEq

structure DocRevision where
  iat : Nat
  hash : String
  deriving DecidableEq

/-- The fields of a device document that RTCP reads.  The default key is the
Ed25519 key of the document or the error of its conversion. -/
structure DeviceDocument (Key : Type) where
  id : Did
  name : String
  owner : Did
  zoneDid : Option Did
  defaultKey : Option (Except String Key)

/-- name-lib. -/
structure NameLib (Key : Type) where
  parseDid : String → Except String Did
  didText : Did → String
  rawHostName : Did → String
  pathFromId : Did → Option String
  authKey : Did → Option Key
  /-- The unpadded base64 of a key. -/
  keyText : Key → String
  decodeDocument : String → Except String (DeviceDocument Key)

def NameLib.canonicalDevDid (lib : NameLib Key) (key : Key) : Did := ⟨"dev", lib.keyText key⟩

def validateRtcpHostnameFormDid (lib : NameLib Key) (did : Did) (context : String) :
    Except String Unit :=
  let host := lib.rawHostName did
  if (lib.pathFromId did).isSome then
    .error (context ++ " " ++ lib.didText did ++
      " is not hostname-form; RTCP does not accept DID URL/path forms")
  else if host.isEmpty || host.toList.any fun c => c = '/' || c = '?' || c = '#' then
    .error (context ++ " " ++ lib.didText did ++ " resolves to invalid RTCP DID hostname '" ++
      host ++ "'")
  else .ok ()

inductive Validity
  | valid
  | invalid
  | unknown
  deriving DecidableEq

inductive DependencyRole
  | currentOwner
  | other
  deriving DecidableEq

inductive SourceTier
  | authority
  | trust
  | other
  deriving DecidableEq

structure PublishEvidence where
  simulated : Bool
  source : String
  deriving DecidableEq

structure VerifyResult where
  validity : Validity
  revision : Option DocRevision
  isBest : Bool
  conflict : Option DocRevision
  hasAuthorityReceipt : Bool
  isPublished : Bool
  publishEvidence : Option PublishEvidence
  sourceId : Option String
  sourceTier : Option SourceTier
  ownerBinding : Option Did
  dependencies : List (DependencyRole × Did)
  reason : String

namespace VerifyResult

def isValid (report : VerifyResult) : Bool := report.validity = .valid

def successCurrent (report : VerifyResult) : Bool := report.isValid && report.isBest

def hasRealEvidence (report : VerifyResult) : Bool :=
  report.publishEvidence.any fun evidence => !evidence.simulated

end VerifyResult

inductive RtcpIdentityTrust
  | dnsTxtBootstrap
  | keyDid
  | trustedHostSnapshot
  | trustedZoneSnapshot
  | methodAuthorityCurrent
  deriving DecidableEq

def trustFromVerified (report : VerifyResult) : RtcpIdentityTrust :=
  if report.hasAuthorityReceipt && report.isPublished && report.hasRealEvidence then
    .methodAuthorityCurrent
  else if (report.publishEvidence.any fun evidence => evidence.source.startsWith "zone-locker") ||
      report.sourceId.any fun source => source.startsWith "zone-locker" then
    .trustedZoneSnapshot
  else .trustedHostSnapshot

/-- The reason for which a valid document is still not used. -/
def freshnessRejection (report : VerifyResult) : Option String :=
  if report.conflict.isSome then some "candidate conflicts with verified at the same iat"
  else if !report.isValid then none
  else if !report.successCurrent then
    some "candidate is older than the accepted best document"
  else none

def verifiedOwner (document : DeviceDocument Key) (report : VerifyResult) : Option Did :=
  match report.dependencies.find? fun dependency => dependency.1 = .currentOwner with
  | some dependency => some dependency.2
  | none =>
    if !report.isValid then none
    else if report.ownerBinding.isSome then report.ownerBinding
    else if report.isPublished && report.hasRealEvidence ||
        report.sourceTier = some .authority || report.sourceTier = some .trust then
      some document.owner
    else none

/-! ## Admission -/

inductive RtcpAnonymousAdmission
  | allow
  | reject
  deriving DecidableEq

inductive RtcpNamedMinRelation
  | sameZone
  | knownOwner
  | any
  deriving DecidableEq

/-- What the checks read of `RTcpInner`. -/
structure RTcpInner where
  thisDeviceDid : Did
  thisDeviceDevDid : Did
  thisOwnerDid : Option Did
  thisZoneDid : Option Did
  anonymous : RtcpAnonymousAdmission
  namedMinRelation : RtcpNamedMinRelation

structure RTcpHelloBody where
  fromId : String
  toId : String
  myPort : Nat
  tunnelToken : Option String
  deviceDocJwt : Option String
  deriving DecidableEq

section Admission

variable (lib : NameLib Key) (inner : RTcpInner)

def defaultKeyOf (context : String) (document : DeviceDocument Key) : Except String Key :=
  match document.defaultKey with
  | none => .error (context ++ " missing default key")
  | some (.error message) => .error ("decode " ++ context ++ " public key failed: " ++ message)
  | some (.ok key) => .ok key

/-- The owner of a candidate is compared as text before anything is resolved. -/
def prefilterOwner (document : DeviceDocument Key) : Except String Unit :=
  if inner.namedMinRelation = .sameZone then
    match inner.thisOwnerDid with
    | none => .error "same_zone admission requires a local owner anchor"
    | some expected =>
      if document.owner ≠ expected then
        .error ("candidate owner " ++ lib.didText document.owner ++
          " does not match local owner " ++ lib.didText expected)
      else .ok ()
  else .ok ()

variable (hello : RTcpHelloBody)

def parseSourceCandidate : Except String (Did × Key × Option (DeviceDocument Key)) :=
  (lib.parseDid hello.fromId).mapError
    (fun e => "hello from_id " ++ hello.fromId ++ " is not a valid DID: " ++ e) >>= fun fromDid =>
  validateRtcpHostnameFormDid lib fromDid "rtcp hello from_id" >>= fun _ =>
  match hello.deviceDocJwt with
  | some jwt =>
    (lib.decodeDocument jwt).mapError
      (fun e => "parse candidate device_doc_jwt failed: " ++ e) >>= fun document =>
    if lib.didText document.id ≠ hello.fromId then
      .error ("hello from_id " ++ hello.fromId ++ " not match device_doc_jwt id " ++
        lib.didText document.id)
    else
      prefilterOwner lib inner document >>= fun _ =>
      defaultKeyOf "candidate device_doc_jwt" document >>= fun key =>
      pure (fromDid, key, some document)
  | none =>
    if fromDid.method ≠ "dev" then
      .error ("hello from_id " ++ hello.fromId ++
        " is a logical name (not did:dev), device_doc_jwt is required")
    else
      match lib.authKey fromDid with
      | none =>
        .error ("did:dev " ++ lib.didText fromDid ++ " does not contain a valid Ed25519 key")
      | some key => .ok (fromDid, key, none)

def validateNamedRelation (document : DeviceDocument Key) (report : VerifyResult) :
    Except String Unit :=
  match inner.namedMinRelation with
  | .any => .ok ()
  | .knownOwner =>
    if (verifiedOwner document report).isNone then
      .error ("verified identity " ++ lib.didText document.id ++ " has no trusted owner evidence")
    else .ok ()
  | .sameZone =>
    match inner.thisOwnerDid, inner.thisZoneDid with
    | none, _ => .error "same_zone admission requires a local owner anchor"
    | some _, none => .error "same_zone admission requires a local zone anchor"
    | some owner, some zone =>
      if verifiedOwner document report ≠ some owner || document.zoneDid ≠ some zone then
        .error ("verified identity " ++ lib.didText document.id ++ " is outside local owner/zone")
      else .ok ()

structure VerifiedTunnelIdentity where
  logicalDid : String
  canonicalDevDid : String
  documentRevision : DocRevision
  deriving DecidableEq

/-- `VerifiedSourceDevice` as far as the handshake uses it. -/
structure VerifiedSourceDevice where
  sourceDeviceId : String
  canonicalDevDid : Did
  identityTrust : RtcpIdentityTrust
  verifiedIdentity : Option VerifiedTunnelIdentity
  deriving DecidableEq

def admitWithoutNamedIdentity (canonicalDevDid : Did)
    (reason : String) : Except String VerifiedSourceDevice :=
  if inner.anonymous = .allow then
    .ok ⟨lib.didText canonicalDevDid, canonicalDevDid, .keyDid, none⟩
  else
    .error ("verify device_doc_jwt for " ++ hello.fromId ++
      " unavailable and anonymous admission is rejected: " ++ reason)

/-- A valid and fresh document makes a named identity.  `confirmed` says whether
the authority confirmed a revision. -/
def admitNamedIdentity (fromDid : Did) (key : Key) (jwt : String)
    (report : VerifyResult) (confirmed : DocRevision → Bool) :
    Except String VerifiedSourceDevice :=
  (lib.decodeDocument jwt).mapError (fun e => "verified device_doc_jwt for " ++ hello.fromId ++
      " is not a DeviceDocument: " ++ e) >>= fun document =>
  if lib.didText document.id ≠ hello.fromId || document.id ≠ fromDid then
    .error ("hello from_id " ++ hello.fromId ++ " not match verified device document id " ++
      lib.didText document.id)
  else
    match report.revision with
    | none => .error ("verified device document " ++ hello.fromId ++ " has no revision")
    | some revision =>
      defaultKeyOf "verified device document" document >>= fun verifiedKey =>
      if verifiedKey ≠ key then .error "verified device key differs from possession key"
      else
        validateNamedRelation lib inner document report >>= fun _ =>
        pure {
          sourceDeviceId := lib.didText document.id
          canonicalDevDid := lib.canonicalDevDid key
          identityTrust :=
            if confirmed revision then .methodAuthorityCurrent else trustFromVerified report
          verifiedIdentity := some ⟨lib.didText document.id,
            lib.didText (lib.canonicalDevDid key), revision⟩ }

/-- `resolve_source_device_info`, given what `verify_document` answered. -/
def resolveSourceDeviceInfo (fromDid : Did) (key : Key)
    (verified : Except String VerifyResult) (confirmed : DocRevision → Bool) :
    Except String VerifiedSourceDevice :=
  match hello.deviceDocJwt with
  | none => .ok ⟨hello.fromId, lib.canonicalDevDid key, .keyDid, none⟩
  | some jwt =>
    match verified with
    | .error e =>
      admitWithoutNamedIdentity lib inner hello (lib.canonicalDevDid key)
        ("verify_document failed: " ++ e)
    | .ok report =>
      if report.validity = .invalid then
        .error ("verify device_doc_jwt for " ++ hello.fromId ++ " rejected: " ++ report.reason)
      else if !report.isValid then
        admitWithoutNamedIdentity lib inner hello (lib.canonicalDevDid key) report.reason
      else
        match freshnessRejection report with
        | some reason =>
          .error ("device_doc_jwt for " ++ hello.fromId ++
            " rejected by freshness policy: " ++ reason)
        | none => admitNamedIdentity lib inner hello fromDid key jwt report confirmed

variable {lib inner} {hello : RTcpHelloBody}

/-- An admitted source is known under the canonical DID of its candidate key. -/
theorem canonicalDevDid_resolveSourceDeviceInfo
    (hsrc : resolveSourceDeviceInfo lib inner hello fromDid key verified confirmed =
      .ok source) : source.canonicalDevDid = lib.canonicalDevDid key := by
  have hanonymous : ∀ reason,
      admitWithoutNamedIdentity lib inner hello (lib.canonicalDevDid key) reason = .ok source →
        source.canonicalDevDid = lib.canonicalDevDid key := by
    intro reason hadmit
    rw [admitWithoutNamedIdentity] at hadmit
    split at hadmit
    · cases hadmit
      rfl
    · cases hadmit
  unfold resolveSourceDeviceInfo at hsrc
  split at hsrc
  · cases hsrc
    rfl
  split at hsrc
  · exact hanonymous _ hsrc
  rw [Checks.rejectIf_ok_iff] at hsrc
  obtain ⟨-, hsrc⟩ := hsrc
  split at hsrc
  · exact hanonymous _ hsrc
  split at hsrc
  · cases hsrc
  obtain ⟨document, -, hsrc⟩ := Checks.then_ok_iff.mp hsrc
  rw [Checks.rejectIf_ok_iff] at hsrc
  obtain ⟨-, hsrc⟩ := hsrc
  split at hsrc
  · cases hsrc
  obtain ⟨verifiedKey, -, hsrc⟩ := Checks.then_ok_iff.mp hsrc
  rw [Checks.rejectIf_ok_iff] at hsrc
  obtain ⟨-, -, hdone⟩ := Checks.then_ok_iff.mp hsrc.2
  cases hdone
  rfl

end Admission

end CyfsGateway.Rtcp
