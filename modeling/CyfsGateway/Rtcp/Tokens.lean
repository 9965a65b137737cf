import CyfsGateway.Rtcp.Identity

/-!
# Handshake tokens

The signed tokens of the version 4 handshake and their verification.  Decoding of
a token and its signature belong to the JWT library; a token is accepted up to
and including `exp` plus the leeway.
-/

namespace CyfsGateway.Rtcp

open Checks

variable {Key Exchange : Type}

def rtcpHelloAud : String := "buckyos-rtcp-v4-hello"

structure TunnelTokenPayload where
  aud : String
  toHost : String
  canonicalTo : String
  fromHost : String
  listenPort : Nat
  xpub : String
  iat : Nat
  exp : Nat
  nonce : String
  deriving DecidableEq

/-- The JWT library and the format of X25519 keys.  A signature is valid under
one key only. -/
structure TokenLib (Key Exchange : Type) where
  signedBy : String → Key → Bool
  helloClaims : String → Except String TunnelTokenPayload
  decodeX25519PubHex : String → Except String Exchange
  signedBy_unique : ∀ token key other, signedBy token key → signedBy token other → key = other

def tunnelTokenExpSecs : Nat := 60

def jwtLeewaySecs : Nat := 60

def saturatingAdd (left right : Nat) : Nat := min (left + right) (2 ^ 64 - 1)

def validateTokenTimes (now iat exp : Nat) : Except String Unit :=
  if exp < iat then .error "token exp is earlier than iat"
  else if tunnelTokenExpSecs < exp - iat then .error "token lifetime exceeds 60 seconds"
  else if saturatingAdd now jwtLeewaySecs < iat then
    .error "token iat is too far in the future"
  else .ok ()

/-! ## Verification -/

section Verification

variable (tokens : TokenLib Key Exchange)

/-- `jsonwebtoken::decode` with the validation of `jwt_validation_for`. -/
def decodeToken {Claims : Type} (claims : String → Except String Claims)
    (audOf : Claims → String) (expOf : Claims → Nat) (aud : String) (now : Nat)
    (token : String) (key : Key) : Except String Claims :=
  if !tokens.signedBy token key then .error "InvalidSignature"
  else
    claims token >>= fun payload =>
    if audOf payload ≠ aud then .error "InvalidAudience"
    else if expOf payload + jwtLeewaySecs < now then .error "ExpiredSignature"
    else .ok payload

/-- `verify_hello_token`.  The clock is read while decoding, and again for the
times. -/
def verifyHelloToken (decodedAt checkedAt : Nat) (token : String) (key : Key)
    (expectedFrom : Option String) : Except String (Exchange × TunnelTokenPayload) :=
  (decodeToken tokens tokens.helloClaims (·.aud) (·.exp) rtcpHelloAud decodedAt token
    key).mapError ("decode hello token error:" ++ ·) >>= fun payload =>
  validateTokenTimes checkedAt payload.iat payload.exp >>= fun _ =>
  if expectedFrom.any fun expected => payload.fromHost ≠ expected then
    .error ("hello token from " ++ payload.fromHost ++ " not match expected " ++
      expectedFrom.getD "")
  else
    tokens.decodeX25519PubHex payload.xpub >>= fun xpub => pure (xpub, payload)

end Verification

section Bindings

variable (lib : NameLib Key)

def validateHelloTarget (tokenTo tokenCanonicalTo helloToId : String) (thisDevDid : Did) :
    Except String Unit :=
  (lib.parseDid helloToId).mapError
    (fun e => "Hello.to_id " ++ helloToId ++ " is not a valid DID: " ++ e) >>= fun helloTo =>
  validateRtcpHostnameFormDid lib helloTo "Hello.to_id" >>= fun _ =>
  if tokenTo ≠ lib.rawHostName helloTo then
    .error ("signed token.to " ++ tokenTo ++ " does not match Hello.to_id " ++ helloToId)
  else
    (lib.parseDid tokenCanonicalTo).mapError
      (fun e => "canonical_to " ++ tokenCanonicalTo ++ " is not a valid DID: " ++ e) >>=
      fun canonicalTo =>
    if canonicalTo ≠ thisDevDid then
      .error ("signed canonical_to " ++ lib.didText canonicalTo ++ " is not this device " ++
        lib.didText thisDevDid)
    else .ok ()

def validateHelloSignedBindings (claims : TunnelTokenPayload) (hello : RTcpHelloBody) :
    Except String Unit :=
  (lib.parseDid hello.fromId).mapError
    (fun e => "invalid Hello.from_id " ++ hello.fromId ++ ": " ++ e) >>= fun fromDid =>
  if claims.fromHost ≠ lib.rawHostName fromDid then
    .error ("token.from " ++ claims.fromHost ++ " does not match Hello.from_id " ++ hello.fromId)
  else if claims.listenPort ≠ hello.myPort then
    .error "signed listen_port does not match Hello.my_port"
  else .ok ()

/-- What the first checks of `on_new_tunnel` establish about a Hello. -/
structure Possession (Key Exchange : Type) where
  token : String
  claimedDid : Did
  key : Key
  xpub : Exchange
  payload : TunnelTokenPayload

/-- `on_new_tunnel` up to the first wait: the signed claims agree with the Hello,
the token proves possession of the candidate key and names this device. -/
def provePossession (tokens : TokenLib Key Exchange) (inner : RTcpInner)
    (decodedAt checkedAt : Nat) (hello : RTcpHelloBody) :
    Except String (Possession Key Exchange) :=
  match hello.tunnelToken with
  | none => .error "hello.body.tunnel_token is none"
  | some token =>
    (tokens.helloClaims token).mapError
      ("parse tunnel_token claims failed: " ++ ·) >>= fun claims =>
    validateHelloSignedBindings lib claims hello >>= fun _ =>
    parseSourceCandidate lib inner hello >>= fun candidate =>
    verifyHelloToken tokens decodedAt checkedAt token candidate.2.1 (some claims.fromHost) >>=
      fun verified =>
    validateHelloTarget lib verified.2.toHost verified.2.canonicalTo hello.toId
      inner.thisDeviceDevDid >>= fun _ =>
    pure ⟨token, candidate.1, candidate.2.1, verified.1, verified.2⟩

end Bindings

/-! ## What an accepted token is -/

section Accepted

variable {tokens : TokenLib Key Exchange} {lib : NameLib Key} {inner : RTcpInner}
  {decodedAt checkedAt : Nat} {hello : RTcpHelloBody} {possession : Possession Key Exchange}

/-- The claims of the token, signed by the key. -/
structure Possession.Genuine (tokens : TokenLib Key Exchange)
    (possession : Possession Key Exchange) : Prop where
  signed : tokens.signedBy possession.token possession.key
  claims : tokens.helloClaims possession.token = .ok possession.payload

theorem mapError_ok_iff {Error Other Value : Type} {convert : Error → Other}
    {result : Except Error Value} {value : Value} :
    result.mapError convert = .ok value ↔ result = .ok value := by
  cases result <;> simp [Except.mapError]

theorem decodeToken_ok_iff {Claims : Type} {claims : String → Except String Claims}
    {audOf : Claims → String} {expOf : Claims → Nat} {aud : String} {now : Nat}
    {token : String} {key : Key} {payload : Claims} :
    decodeToken tokens claims audOf expOf aud now token key = .ok payload ↔
      tokens.signedBy token key = true ∧ claims token = .ok payload ∧ audOf payload = aud ∧
        now ≤ expOf payload + jwtLeewaySecs := by
  simp only [decodeToken, rejectIf_ok_iff, then_ok_iff, Bool.not_eq_true,
    Bool.not_eq_false', ne_eq, not_not, Except.ok.injEq, Nat.not_lt]
  constructor
  · rintro ⟨hsign, payload, hclaims, haud, htime, rfl⟩
    exact ⟨hsign, hclaims, haud, htime⟩
  · rintro ⟨hsign, hclaims, haud, htime⟩
    exact ⟨hsign, payload, hclaims, haud, htime, rfl⟩

theorem genuine_of_verifyHelloToken {token : String} {key : Key} {expected : Option String}
    {xpub : Exchange} {payload : TunnelTokenPayload}
    (hverify : verifyHelloToken tokens decodedAt checkedAt token key expected =
      .ok (xpub, payload)) :
    tokens.signedBy token key = true ∧ tokens.helloClaims token = .ok payload := by
  obtain ⟨decoded, hdecode, hrest⟩ := then_ok_iff.mp hverify
  obtain ⟨_, -, hrest⟩ := then_ok_iff.mp hrest
  rw [rejectIf_ok_iff] at hrest
  obtain ⟨_, -, hdone⟩ := then_ok_iff.mp hrest.2
  cases hdone
  rw [mapError_ok_iff, decodeToken_ok_iff] at hdecode
  exact ⟨hdecode.1, hdecode.2.1⟩

theorem genuine_provePossession
    (hprove : provePossession lib tokens inner decodedAt checkedAt hello = .ok possession) :
    possession.Genuine tokens := by
  unfold provePossession at hprove
  split at hprove
  · cases hprove
  obtain ⟨claims, -, hrest⟩ := then_ok_iff.mp hprove
  obtain ⟨_, -, hrest⟩ := then_ok_iff.mp hrest
  obtain ⟨candidate, -, hrest⟩ := then_ok_iff.mp hrest
  obtain ⟨⟨xpub, payload⟩, hverify, hrest⟩ := then_ok_iff.mp hrest
  obtain ⟨_, -, hdone⟩ := then_ok_iff.mp hrest
  cases hdone
  obtain ⟨hsign, hclaims⟩ := genuine_of_verifyHelloToken hverify
  exact ⟨hsign, hclaims⟩

end Accepted

end CyfsGateway.Rtcp
