import Mathlib

/-!
# Control tokens

The control server issues a token for a login and renews it whenever it is used.  What a
token stands for is the login its chain of renewals starts from, under the credentials that
were configured then: a change of credentials revokes nothing.
-/

namespace CyfsGateway.Gateway

inductive ControlErrorCode
  | expired
  | invalidUserName
  | invalidPassword
  | invalidToken
  | createTokenFailed
  | notSupportLogin

structure LocalTokenCredentials where
  userName : Option String
  password : Option String

/-- The libraries behind the token manager.  `digest` is the hexadecimal SHA-256 of a text;
`verifyByKey` is what the verification of a token asks of it besides its signature. -/
structure TokenLibrary (Token : Type) where
  digest : String → String
  toLowercase : String → String
  exp : Token → Option UInt64
  generateJwtToken : (userName : String) → (now : Int64) → (seed : Nat) → Option Token
  verifyByKey : Token → (now : Int64) → Bool

structure Login where
  userName : String
  password : String
  timestamp : UInt64

/-- The manager with its clock.  Only the manager holds the key, so the tokens with a
valid signature are those it has signed, which `issued` lists. -/
structure LocalTokenManager (Token : Type) where
  credentials : LocalTokenCredentials
  now : Int64
  issued : List Token := []

variable {Token : Type} (library : TokenLibrary Token)

def Login.Hashes (login : Login) (password : String) : Prop :=
  library.toLowercase (library.digest s!"{login.userName}_{password}_{login.timestamp.toNat}") =
    library.toLowercase login.password

instance (login : Login) (password : String) : Decidable (login.Hashes library password) :=
  inferInstanceAs (Decidable (_ = _))

def Login.Presents (login : Login) (credentials : LocalTokenCredentials) : Prop :=
  ∃ password, credentials = ⟨some login.userName, some password⟩ ∧ login.Hashes library password

namespace LocalTokenManager

/-- The time is compared in wrapping arithmetic, as in a release build. -/
def create (manager : LocalTokenManager Token) (login : Login) (seed : Nat) :
    Except ControlErrorCode Token :=
  match manager.credentials with
  | ⟨some userName, some password⟩ =>
    if (manager.now - login.timestamp.toInt64).abs > 120 then .error .expired
    else if login.userName ≠ userName then .error .invalidUserName
    else if ¬login.Hashes library password then .error .invalidPassword
    else (library.generateJwtToken login.userName manager.now seed).elim
      (.error .createTokenFailed) .ok
  | _ => .error .notSupportLogin

variable [DecidableEq Token]

def verifyAndRenew (manager : LocalTokenManager Token) (token : Token) (seed : Nat) :
    Except ControlErrorCode (Option Token) :=
  if token ∉ manager.issued ∨ !library.verifyByKey token manager.now then .error .invalidToken
  else
    match library.exp token with
    | none => .ok none
    | some exp =>
      if exp < manager.now.toUInt64 then .error .expired
      else
        let userName := manager.credentials.userName.getD "root"
        (library.generateJwtToken userName manager.now seed).elim (.error .invalidToken)
          (.ok ∘ some)

inductive Event (Token : Type)
  | create (login : Login) (seed : Nat)
  | verifyAndRenew (token : Token) (seed : Nat)
  | updateCredentials (credentials : LocalTokenCredentials)
  | clock (now : Int64)

def step (manager : LocalTokenManager Token) : Event Token → LocalTokenManager Token
  | .create login seed =>
    match manager.create library login seed with
    | .ok token => { manager with issued := token :: manager.issued }
    | .error _ => manager
  | .verifyAndRenew token seed =>
    match manager.verifyAndRenew library token seed with
    | .ok (some renewed) => { manager with issued := renewed :: manager.issued }
    | _ => manager
  | .updateCredentials credentials => { manager with credentials }
  | .clock now => { manager with now }

/-- The manager after the events of a run, the last of which comes first. -/
def after (start : LocalTokenManager Token) : List (Event Token) → LocalTokenManager Token
  | [] => start
  | event :: past => (after start past).step library event

/-- In a run the token was obtained from a login behind the events `before`, by renewals none
of which used an expired token. -/
inductive Obtained (start : LocalTokenManager Token) (login : Login) (before : List (Event Token)) :
    List (Event Token) → Token → Prop
  | created {seed token} : (after library start before).create library login seed = .ok token →
      Obtained start login before (.create login seed :: before) token
  | renewed {past used seed token} : Obtained start login before past used →
      (∀ exp, library.exp used = some exp → (after library start past).now.toUInt64 ≤ exp) →
      (after library start past).verifyAndRenew library used seed = .ok (some token) →
      Obtained start login before (.verifyAndRenew used seed :: past) token
  | later {past event token} : Obtained start login before past token →
      Obtained start login before (event :: past) token

/-- What the last change of credentials among some events set. -/
def lastUpdate : List (Event Token) → Option LocalTokenCredentials
  | [] => none
  | .updateCredentials credentials :: _ => some credentials
  | _ :: past => lastUpdate past

variable {library} {manager start : LocalTokenManager Token} {token : Token} {seed : Nat}

omit [DecidableEq Token] in
theorem presents_of_create (hcreate : manager.create library login seed = .ok token) :
    login.Presents library manager.credentials := by
  unfold create at hcreate
  split at hcreate
  swap
  · cases hcreate
  next userName password hcred =>
  split at hcreate
  · cases hcreate
  split at hcreate
  · cases hcreate
  next hname =>
  split at hcreate
  · cases hcreate
  next hpassword => exact ⟨password, by rw [hcred, not_not.mp hname], not_not.mp hpassword⟩

theorem accepted_of_verifyAndRenew
    (haccept : manager.verifyAndRenew library token seed = .ok renewed) :
    token ∈ manager.issued ∧ ∀ exp, library.exp token = some exp →
      manager.now.toUInt64 ≤ exp := by
  unfold verifyAndRenew at haccept
  split at haccept
  · cases haccept
  next hissued =>
  refine ⟨by tauto, fun exp hexp => ?_⟩
  rw [hexp] at haccept
  dsimp only at haccept
  split at haccept
  · cases haccept
  next hfresh => exact UInt64.not_lt.mp hfresh

theorem credentials_after (since past : List (Event Token)) :
    (after library start (since ++ past)).credentials =
      (lastUpdate since).getD (after library start past).credentials := by
  induction since with
  | nil => rfl
  | cons event since ih =>
    rw [List.cons_append, after]
    cases event with
    | updateCredentials credentials => rfl
    | clock now => exact ih
    | create | verifyAndRenew =>
      rw [step, lastUpdate, ← ih]
      · split <;> rfl
      · exact fun _ heq => by cases heq

theorem Obtained.split {login : Login} {before past : List (Event Token)}
    (hobtained : Obtained library start login before past token) :
    ∃ since seed, past = since ++ .create login seed :: before := by
  induction hobtained with
  | created => exact ⟨[], _, rfl⟩
  | renewed _ _ _ ih | later _ ih =>
    obtain ⟨since, seed, rfl⟩ := ih
    exact ⟨_ :: since, seed, rfl⟩

/-- The token comes from a login with the credentials configured at the login, directly or
by renewals of tokens that had not expired. -/
def Rooted (library : TokenLibrary Token) (start : LocalTokenManager Token)
    (past : List (Event Token)) (token : Token) : Prop :=
  ∃ login before, Obtained library start login before past token ∧
    login.Presents library (after library start before).credentials

theorem rooted_step (event : Event Token)
    (hpast : ∀ token ∈ (after library start past).issued, Rooted library start past token) :
    ∀ token ∈ (after library start (event :: past)).issued,
      Rooted library start (event :: past) token := by
  have hlater : ∀ token ∈ (after library start past).issued,
      Rooted library start (event :: past) token := by
    intro token htoken
    obtain ⟨login, before, hobtained, hpresents⟩ := hpast token htoken
    exact ⟨login, before, .later hobtained, hpresents⟩
  rw [after]
  cases event with
  | create login seed =>
    rw [step]
    split
    · next token hcreate =>
      exact List.forall_mem_cons.mpr
        ⟨⟨login, past, .created hcreate, presents_of_create hcreate⟩, hlater⟩
    · exact hlater
  | verifyAndRenew used seed =>
    rw [step]
    split
    · next renewed hrenew =>
      obtain ⟨hissued, hexp⟩ := accepted_of_verifyAndRenew hrenew
      obtain ⟨login, before, hobtained, hpresents⟩ := hpast used hissued
      exact List.forall_mem_cons.mpr
        ⟨⟨login, before, .renewed hobtained hexp hrenew, hpresents⟩, hlater⟩
    · exact hlater
  | updateCredentials credentials | clock now => exact hlater

theorem rooted_after (hstart : start.issued = []) (past : List (Event Token)) :
    ∀ token ∈ (after library start past).issued, Rooted library start past token := by
  induction past with
  | nil => simp [after, hstart]
  | cons event past ih => exact rooted_step event ih

/-- An accepted token comes, by renewals of tokens that had not expired, from a login that
presented the credentials configured then.  The login presents those that are configured now
exactly if it presents what the last `update_credentials` since then set, if there was one. -/
theorem accepted_token_of_login (hstart : start.issued = []) (past : List (Event Token))
    (token : Token) (seed : Nat) {renewed : Option Token}
    (haccept : (after library start past).verifyAndRenew library token seed = .ok renewed) :
    ∃ login before since loginSeed, past = since ++ .create login loginSeed :: before ∧
      Obtained library start login before past token ∧
      login.Presents library (after library start before).credentials ∧
      (login.Presents library (after library start past).credentials ↔
        ∀ credentials ∈ lastUpdate since, login.Presents library credentials) := by
  obtain ⟨login, before, hobtained, hpresents⟩ :=
    rooted_after hstart past token (accepted_of_verifyAndRenew haccept).1
  obtain ⟨since, loginSeed, rfl⟩ := hobtained.split
  refine ⟨login, before, since, loginSeed, rfl, hobtained, hpresents, ?_⟩
  have hcreate : (after library start (.create login loginSeed :: before)).credentials =
      (after library start before).credentials := credentials_after [.create login loginSeed] before
  rw [credentials_after, hcreate]
  cases lastUpdate since <;> simp [hpresents]

/-- Tokens that are their own time of expiry, an hour after they are issued. -/
def hourly : TokenLibrary UInt64 :=
  ⟨id, id, some, fun _ now _ => some (now.toUInt64 + 3600), fun _ _ => true⟩

def rootManager : LocalTokenManager UInt64 := ⟨⟨"root", "secret"⟩, 0, []⟩

def rootLogin : Event UInt64 := .create ⟨"root", "root_secret_0", 0⟩ 0

/-- A renewed token, after a change of the password that was taken back. -/
theorem accepted_token_of_login_root :
    ∃ login before since loginSeed,
      [.updateCredentials ⟨"root", "secret"⟩, .updateCredentials ⟨"root", "other"⟩,
        .verifyAndRenew 3600 0, .clock 60, rootLogin] =
          since ++ Event.create login loginSeed :: before ∧
      Obtained hourly rootManager login before
        [.updateCredentials ⟨"root", "secret"⟩, .updateCredentials ⟨"root", "other"⟩,
          .verifyAndRenew 3600 0, .clock 60, rootLogin] 3660 ∧
      login.Presents hourly (after hourly rootManager before).credentials ∧
      (login.Presents hourly ⟨"root", "secret"⟩ ↔
        ∀ credentials ∈ lastUpdate since, login.Presents hourly credentials) :=
  accepted_token_of_login rfl [.updateCredentials ⟨"root", "secret"⟩,
    .updateCredentials ⟨"root", "other"⟩, .verifyAndRenew 3600 0, .clock 60, rootLogin] 3660 0 rfl

/-- A token is accepted and renewed after the credentials were removed, when there is nothing
that a login could present. -/
theorem token_accepted_without_credentials :
    ∃ manager, after hourly rootManager [.updateCredentials ⟨none, none⟩, rootLogin] = manager ∧
      (∃ renewed, manager.verifyAndRenew hourly 3600 0 = .ok (some renewed)) ∧
      ∀ login : Login, ¬login.Presents hourly manager.credentials :=
  ⟨_, rfl, ⟨_, rfl⟩, fun _ ⟨_, hcred, _⟩ => by cases hcred⟩

end LocalTokenManager

end CyfsGateway.Gateway
