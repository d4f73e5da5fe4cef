import AuthGateway.Lib.Table
import AuthGateway.Common.Constants
import AuthGateway.Common.Json

/-!
# The rows of the database

`model.User`, `model.TwoFA`, `model.TwoFABackupCode` and
`model.PasskeyCredential`, column by column; a missing value in a structure
literal is Go's zero value.  The `Row` instances say which columns are unique.
A row is live when `DeletedAt` is null.
-/

namespace AuthGateway.Model

open Common

/-! ### users -/

structure User where
  id : Int := 0
  username : String := ""
  password : String := ""
  originalPassword : String := ""
  displayName : String := ""
  role : Int := 0
  status : Int := 0
  email : String := ""
  gitHubId : String := ""
  discordId : String := ""
  oidcId : String := ""
  weChatId : String := ""
  telegramId : String := ""
  verificationCode : String := ""
  accessToken : Option String := none
  quota : Int := 0
  usedQuota : Int := 0
  requestCount : Int := 0
  group : String := ""
  affCode : String := ""
  affCount : Int := 0
  affQuota : Int := 0
  affHistoryQuota : Int := 0
  inviterId : Int := 0
  deletedAt : Option Int := none
  linuxDOId : String := ""
  setting : String := ""
  remark : String := ""
  stripeCustomer : String := ""
deriving DecidableEq, Repr

namespace User

def live (u : User) : Bool := u.deletedAt.isNone

def clash (a b : User) : Bool :=
  a.username == b.username || (a.accessToken.isSome && a.accessToken == b.accessToken)
    || a.affCode == b.affCode

theorem clash_comm (a b : User) : a.clash b = b.clash a := by
  have h₁ : (a.username == b.username) = (b.username == a.username) := Bool.beq_comm
  have h₂ : (a.accessToken.isSome && a.accessToken == b.accessToken)
      = (b.accessToken.isSome && b.accessToken == a.accessToken) := by
    by_cases h : a.accessToken = b.accessToken
    · rw [h]
    · have h' : b.accessToken ≠ a.accessToken := fun e => h e.symm
      rw [beq_eq_false_iff_ne.mpr h, beq_eq_false_iff_ne.mpr h', Bool.and_false, Bool.and_false]
  have h₃ : (a.affCode == b.affCode) = (b.affCode == a.affCode) := Bool.beq_comm
  rw [clash, clash, h₁, h₂, h₃]

instance : Row User where
  key := User.id
  withKey k u := { u with id := k }
  clash := User.clash
  key_withKey _ _ := rfl
  clash_comm := User.clash_comm

@[simp] theorem key_eq (u : User) : Row.key u = u.id := rfl

@[simp] theorem clash_eq (a b : User) : Row.clash a b = a.clash b := rfl

/-- The JSON form, by the field tags. -/
def toJson (u : User) : Json := .obj <|
  [("id", .num u.id), ("username", .str u.username), ("password", .str u.password),
    ("original_password", .str u.originalPassword), ("display_name", .str u.displayName),
    ("role", .num u.role), ("status", .num u.status), ("email", .str u.email),
    ("github_id", .str u.gitHubId), ("discord_id", .str u.discordId), ("oidc_id", .str u.oidcId),
    ("wechat_id", .str u.weChatId), ("telegram_id", .str u.telegramId),
    ("verification_code", .str u.verificationCode),
    ("access_token", .ofOption .str u.accessToken), ("quota", .num u.quota),
    ("used_quota", .num u.usedQuota), ("request_count", .num u.requestCount),
    ("group", .str u.group), ("aff_code", .str u.affCode), ("aff_count", .num u.affCount),
    ("aff_quota", .num u.affQuota), ("aff_history_quota", .num u.affHistoryQuota),
    ("inviter_id", .num u.inviterId), ("DeletedAt", .ofOption .num u.deletedAt),
    ("linux_do_id", .str u.linuxDOId), ("setting", .str u.setting)]
  ++ (if u.remark = "" then [] else [("remark", .str u.remark)])
  ++ [("stripe_customer", .str u.stripeCustomer)]

/-- `tx.Updates(newUser)` on one row: every non-zero column of the struct is
written, every other column keeps its value. -/
def overlay (row newUser : User) : User where
  id := row.id
  username := if newUser.username = "" then row.username else newUser.username
  password := if newUser.password = "" then row.password else newUser.password
  originalPassword := row.originalPassword
  displayName := if newUser.displayName = "" then row.displayName else newUser.displayName
  role := if newUser.role = 0 then row.role else newUser.role
  status := if newUser.status = 0 then row.status else newUser.status
  email := if newUser.email = "" then row.email else newUser.email
  gitHubId := if newUser.gitHubId = "" then row.gitHubId else newUser.gitHubId
  discordId := if newUser.discordId = "" then row.discordId else newUser.discordId
  oidcId := if newUser.oidcId = "" then row.oidcId else newUser.oidcId
  weChatId := if newUser.weChatId = "" then row.weChatId else newUser.weChatId
  telegramId := if newUser.telegramId = "" then row.telegramId else newUser.telegramId
  verificationCode := row.verificationCode
  accessToken := if newUser.accessToken = none then row.accessToken else newUser.accessToken
  quota := if newUser.quota = 0 then row.quota else newUser.quota
  usedQuota := if newUser.usedQuota = 0 then row.usedQuota else newUser.usedQuota
  requestCount := if newUser.requestCount = 0 then row.requestCount else newUser.requestCount
  group := if newUser.group = "" then row.group else newUser.group
  affCode := if newUser.affCode = "" then row.affCode else newUser.affCode
  affCount := if newUser.affCount = 0 then row.affCount else newUser.affCount
  affQuota := if newUser.affQuota = 0 then row.affQuota else newUser.affQuota
  affHistoryQuota :=
    if newUser.affHistoryQuota = 0 then row.affHistoryQuota else newUser.affHistoryQuota
  inviterId := if newUser.inviterId = 0 then row.inviterId else newUser.inviterId
  deletedAt := if newUser.deletedAt = none then row.deletedAt else newUser.deletedAt
  linuxDOId := if newUser.linuxDOId = "" then row.linuxDOId else newUser.linuxDOId
  setting := if newUser.setting = "" then row.setting else newUser.setting
  remark := if newUser.remark = "" then row.remark else newUser.remark
  stripeCustomer := if newUser.stripeCustomer = "" then row.stripeCustomer else newUser.stripeCustomer

@[simp] theorem overlay_id (row newUser : User) : (row.overlay newUser).id = row.id := rfl

/-- `Omit("password")`: the one column that is not read. -/
def omitPassword (u : User) : User := { u with password := "" }

/-- `DB.Create(user)`: the columns whose zero value stands for a default of the
table are filled in, in the struct as well. -/
def withDefaults (u : User) : User :=
  { u with
    role := if u.role = 0 then 1 else u.role
    status := if u.status = 0 then 1 else u.status
    group := if u.group = "" then "default" else u.group }

end User

/-! ### two_fas and two_fa_backup_codes -/

structure TwoFA where
  id : Int := 0
  userId : Int := 0
  secret : String := ""
  isEnabled : Bool := false
  failedAttempts : Nat := 0
  lockedUntil : Option Int := none
  lastUsedAt : Option Int := none
  deletedAt : Option Int := none
deriving DecidableEq, Repr

namespace TwoFA

def live (t : TwoFA) : Bool := t.deletedAt.isNone

instance : Row TwoFA where
  key := TwoFA.id
  withKey k t := { t with id := k }
  clash a b := a.userId == b.userId
  key_withKey _ _ := rfl
  clash_comm _ _ := Bool.beq_comm

@[simp] theorem key_eq (t : TwoFA) : Row.key t = t.id := rfl

@[simp] theorem clash_eq (a b : TwoFA) : Row.clash a b = (a.userId == b.userId) := rfl

end TwoFA

structure TwoFABackupCode where
  id : Int := 0
  userId : Int := 0
  codeHash : String := ""
  isUsed : Bool := false
  usedAt : Option Int := none
  deletedAt : Option Int := none
deriving DecidableEq, Repr

namespace TwoFABackupCode

def live (c : TwoFABackupCode) : Bool := c.deletedAt.isNone

instance : Row TwoFABackupCode where
  key := TwoFABackupCode.id
  withKey k c := { c with id := k }
  clash _ _ := false
  key_withKey _ _ := rfl
  clash_comm _ _ := rfl

@[simp] theorem key_eq (c : TwoFABackupCode) : Row.key c = c.id := rfl

@[simp] theorem clash_eq (a b : TwoFABackupCode) : Row.clash a b = false := rfl

end TwoFABackupCode

/-! ### passkey_credentials -/

/-- What the WebAuthn library knows of a credential; byte strings are in the
base64 the table keeps them in. -/
structure WebAuthnCredential where
  id : String := ""
  publicKey : String := ""
  attestationType : String := ""
  aaguid : String := ""
  signCount : Nat := 0
  cloneWarning : Bool := false
  userPresent : Bool := false
  userVerified : Bool := false
  backupEligible : Bool := false
  backupState : Bool := false
  transports : String := ""
  attachment : String := ""
deriving DecidableEq, Repr

structure PasskeyCredential where
  id : Int := 0
  userID : Int := 0
  credential : WebAuthnCredential := {}
  lastUsedAt : Option Int := none
  deletedAt : Option Int := none
deriving DecidableEq, Repr

namespace PasskeyCredential

def live (p : PasskeyCredential) : Bool := p.deletedAt.isNone

/-- The column `credential_id`. -/
def credentialID (p : PasskeyCredential) : String := p.credential.id

def clash (a b : PasskeyCredential) : Bool :=
  a.userID == b.userID || a.credentialID == b.credentialID

theorem clash_comm (a b : PasskeyCredential) : a.clash b = b.clash a := by
  have h₁ : (a.userID == b.userID) = (b.userID == a.userID) := Bool.beq_comm
  have h₂ : (a.credentialID == b.credentialID) = (b.credentialID == a.credentialID) :=
    Bool.beq_comm
  rw [clash, clash, h₁, h₂]

instance : Row PasskeyCredential where
  key := PasskeyCredential.id
  withKey k p := { p with id := k }
  clash := PasskeyCredential.clash
  key_withKey _ _ := rfl
  clash_comm := PasskeyCredential.clash_comm

@[simp] theorem key_eq (p : PasskeyCredential) : Row.key p = p.id := rfl

@[simp] theorem clash_eq (a b : PasskeyCredential) : Row.clash a b = a.clash b := rfl

/-- `NewPasskeyCredentialFromWebAuthn` of a non-nil credential. -/
def ofWebAuthn (userID : Int) (credential : WebAuthnCredential) : PasskeyCredential :=
  { userID := userID, credential := credential }

end PasskeyCredential

end AuthGateway.Model
