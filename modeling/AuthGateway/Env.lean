import AuthGateway.Model.Rows

/-!
# Sessions, requests and the code outside the repository

`Session` is what the signed cookie carries; `Sess` is the session of one
request, with what was saved last.  `Env` is the configuration together with the
libraries the handlers call; nothing is assumed of them here, a result names
what it needs.  `Ctx` is what one request brings: its clock reading, the account
the authentication middleware found, and its random values.
-/

namespace AuthGateway

open Common Model

/-! ### Sessions -/

/-- The values of the session cookie, by their keys. -/
structure Session where
  id : Option Int := none
  username : Option String := none
  role : Option Int := none
  status : Option Int := none
  group : Option String := none
  pendingUsername : Option String := none
  pendingUserId : Option Int := none
  secureVerifiedAt : Option Int := none
  oauthState : Option String := none
  aff : Option String := none
  passkeyLogin : Option String := none
  passkeyVerify : Option String := none
  passkeyRegistration : Option String := none
deriving DecidableEq, Repr

namespace Session

/-- The account as the session knows it. -/
def signIn (user : User) (s : Session) : Session :=
  { s with
    id := some user.id
    username := some user.username
    role := some user.role
    status := some user.status
    group := some user.group }

/-- The session of a user who is to present a second factor. -/
def pend (user : User) (s : Session) : Session :=
  { s with pendingUsername := some user.username, pendingUserId := some user.id }

/-- The session once the second factor has been presented. -/
def unpend (s : Session) : Session := { s with pendingUsername := none, pendingUserId := none }

/-- The session verified at a moment, and no longer. -/
def stamp (verifiedAt : Int) (s : Session) : Session :=
  { s with secureVerifiedAt := some verifiedAt }

def unstamp (s : Session) : Session := { s with secureVerifiedAt := none }

end Session

/-- The session of a request: its values, and those of the cookie the browser
will hold, which change on `Save`. -/
structure Sess where
  cur : Session
  saved : Session

/-- The session as a request finds it. -/
def Sess.ofCookie (s : Session) : Sess := ⟨s, s⟩

/-- `session.Set` and `session.Delete`; nothing is saved yet. -/
def Sess.set (s : Sess) (f : Session → Session) : Sess := { s with cur := f s.cur }

/-! ### Settings of an account -/

structure UserSetting where
  notifyType : String := ""
  quotaWarningThreshold : Rat := 0
  webhookUrl : String := ""
  webhookSecret : String := ""
  notificationEmail : String := ""
  barkUrl : String := ""
  gotifyUrl : String := ""
  gotifyToken : String := ""
  gotifyPriority : Int := 0
  acceptUnsetRatioModel : Bool := false
  recordIpLog : Bool := false
  sidebarModules : String := ""

/-! ### Configuration and libraries -/

/-- The switches of `common` and `system_setting`; the defaults are the source's. -/
structure Config where
  passwordLoginEnabled : Bool := true
  passwordRegisterEnabled : Bool := true
  registerEnabled : Bool := true
  emailVerificationEnabled : Bool := false
  emailDomainRestrictionEnabled : Bool := false
  emailAliasRestrictionEnabled : Bool := false
  emailDomainWhitelist : List String :=
    ["gmail.com", "163.com", "126.com", "qq.com", "outlook.com", "hotmail.com", "icloud.com",
      "yahoo.com", "foxmail.com"]
  gitHubOAuthEnabled : Bool := false
  discordEnabled : Bool := false
  oidcEnabled : Bool := false
  linuxDOOAuthEnabled : Bool := false
  linuxDOMinimumTrustLevel : Int := 0
  weChatAuthEnabled : Bool := false
  telegramOAuthEnabled : Bool := false
  telegramBotToken : String := ""
  passkeyEnabled : Bool := false
  quotaForNewUser : Int := 0
  quotaForInviter : Int := 0
  quotaForInvitee : Int := 0

structure Env where
  cfg : Config
  /-- `bcrypt.CompareHashAndPassword` succeeds. -/
  bcryptCompare : (hash password : String) → Bool
  /-- `totp.Validate` at a moment. -/
  totpValidate : (now : Int) → (passcode secret : String) → Bool
  /-- `Time.Format`. -/
  formatTime : Int → String
  /-- `json.Marshal` of the settings. -/
  settingToJson : UserSetting → Except Err String
  /-- `json.Unmarshal` of the settings; what it leaves in the struct. -/
  settingOfJson : String → UserSetting
  /-- Why the cookie of a session cannot be written, if it cannot. -/
  saveError : Session → Option Err
  /-- The hex HMAC that Telegram signs its data with, under the bot token. -/
  telegramHMAC : (token data : String) → String
  /-- `wa.BeginLogin`: the options and the session data, as JSON. -/
  beginLogin : (challenge : String) → User → PasskeyCredential → Except Err (Json × String)
  /-- `wa.FinishLogin` with the session data and the body of the request. -/
  finishLogin : User → PasskeyCredential → (sessionData body : String) →
    Except Err WebAuthnCredential
  /-- `wa.FinishRegistration` with the session data and the body of the request. -/
  finishRegistration : User → Option PasskeyCredential → (sessionData body : String) →
    Except Err WebAuthnCredential
  /-- The raw id and the user handle that `wa.FinishPasskeyLogin` reads in the body. -/
  passkeyHandles : (body : String) → Except Err (String × String)
  /-- How `wa.FinishPasskeyLogin` reports the error of its callback. -/
  passkeyLookupError : Err → Err
  /-- What `wa.FinishPasskeyLogin` decides about the user its callback named. -/
  finishPasskeyLogin : User → PasskeyCredential → (sessionData body : String) →
    Except Err WebAuthnCredential
  /-- SQL `LIKE`. -/
  like : (value pattern : String) → Bool
  /-- `url.ParseRequestURI` succeeds. -/
  parseRequestURI : String → Bool
  /-- The validator accepts a text as `required,email`. -/
  validEmail : String → Bool

/-- `session.Save()`. -/
def Sess.save (env : Env) (s : Sess) : Option Err × Sess :=
  match env.saveError s.cur with
  | some e => (some e, s)
  | none => (none, ⟨s.cur, s.cur⟩)

theorem Sess.saved_save (env : Env) (s : Sess) :
    (s.save env).2.saved = s.saved ∨ (s.save env).2.saved = s.cur := by
  unfold Sess.save
  split
  · exact Or.inl rfl
  · exact Or.inr rfl

/-- A cookie that can be written is. -/
theorem Sess.saved_save_or (env : Env) (s : Sess) :
    (s.save env).2.saved = s.saved ∨
      env.saveError s.cur = none ∧ (s.save env).2.saved = s.cur := by
  unfold Sess.save
  cases h : env.saveError s.cur with
  | some e => exact Or.inl rfl
  | none => exact Or.inr ⟨rfl, rfl⟩

@[simp] theorem Sess.cur_save (env : Env) (s : Sess) : (s.save env).2.cur = s.cur := by
  unfold Sess.save
  split <;> rfl

/-! ### One request -/

structure Ctx where
  /-- `time.Now()`. -/
  now : Int
  /-- `c.GetInt("id")` and `c.GetInt("role")`. -/
  id : Int := 0
  role : Int := 0
  /-- `common.Password2Hash`, with the salts of this request. -/
  password2Hash : String → Except Err String
  /-- `common.GetRandomString`. -/
  randomString : String := ""
  /-- `common.GenerateRandomKey`. -/
  randomKey : Except Err String
  /-- `common.GenerateBackupCodes`. -/
  backupCodes : Except Err (List String)
  /-- `uuid.New()` without its dashes. -/
  uuid : String := ""
  /-- Why `common.SendEmail` fails, if it does. -/
  sendEmailError : Option Err := none
  /-- Why `passkeysvc.BuildWebAuthn` refuses the request, if it does. -/
  webAuthnError : Option Err := none

/-! ### Answers -/

/-- What a handler leaves behind besides the database: the cookie, the reply,
and what a reader of the model wants to know of the way there: the account
handed to `setupLogin`, and what each validator answered about a code or an
assertion, with the user whose it was. -/
structure Out where
  cookie : Session
  reply : Reply
  login : Option User := none
  checks : List (Int × Except Err Bool) := []

/-- An answer that leaves the cookie as it was last saved. -/
def Sess.answer (s : Sess) (reply : Reply) : Out := { cookie := s.saved, reply := reply }

/-- `common.ApiError`. -/
def Sess.apiError (s : Sess) (e : Err) : Out := s.answer (.failure e.error)

def Sess.fail (s : Sess) (msg : String) : Out := s.answer (.failure msg)

/-- The same answer, with the validators' verdicts. -/
def Out.withChecks (o : Out) (checks : List (Int × Except Err Bool)) : Out :=
  { o with checks := checks }

@[simp] theorem Out.withChecks_cookie (o : Out) (checks : List (Int × Except Err Bool)) :
    (o.withChecks checks).cookie = o.cookie := rfl

@[simp] theorem Out.withChecks_login (o : Out) (checks : List (Int × Except Err Bool)) :
    (o.withChecks checks).login = o.login := rfl

@[simp] theorem Out.withChecks_checks (o : Out) (checks : List (Int × Except Err Bool)) :
    (o.withChecks checks).checks = checks := rfl

@[simp] theorem Sess.answer_cookie (s : Sess) (r : Reply) : (s.answer r).cookie = s.saved := rfl

@[simp] theorem Sess.answer_login (s : Sess) (r : Reply) : (s.answer r).login = none := rfl

@[simp] theorem Sess.answer_checks (s : Sess) (r : Reply) : (s.answer r).checks = [] := rfl

/-! ### A concrete environment -/

/-- Libraries one can compute with: a hash is the password behind a mark, the
TOTP code of a moment is the secret, a body of an assertion is the raw id. -/
def Env.plain : Env where
  cfg := { passkeyEnabled := true, telegramOAuthEnabled := true }
  bcryptCompare hash password := hash == "#" ++ password
  totpValidate _ passcode secret := passcode == secret
  formatTime _ := ""
  settingToJson setting := .ok setting.sidebarModules
  settingOfJson text := { sidebarModules := text }
  saveError _ := none
  telegramHMAC token data := token ++ data
  beginLogin challenge _ _ := .ok (.str challenge, challenge)
  finishLogin _ credential _ body :=
    if body = credential.credential.id then .ok credential.credential
    else .error (.new "assertion refused")
  finishRegistration _ _ _ body := .ok { id := body }
  passkeyHandles body := .ok (body, "")
  passkeyLookupError e := e
  finishPasskeyLogin _ credential _ body :=
    if body = credential.credential.id then .ok credential.credential
    else .error (.new "assertion refused")
  like value pattern := value == pattern
  parseRequestURI _ := true
  validEmail email := email != ""

/-- A request at a moment, in that environment. -/
def Ctx.plain (now : Int) : Ctx where
  now := now
  password2Hash password := .ok ("#" ++ password)
  randomKey := .ok "fresh"
  backupCodes := .ok []

end AuthGateway
