import AuthGateway.Common.Verification
import AuthGateway.Controller.User

/-!
# controller/misc.go: codes by e-mail

The handlers that send a code answer the codes that are out next to the reply.
-/

namespace AuthGateway.Controller

open Common Model GoString

/-- What is wrong with the address a code is asked for, if anything. -/
def checkEmail (env : Env) (email : String) : Option String :=
  if !env.validEmail email then some "Invalid parameters"
  else match split '@' email with
    | [localPart, domainPart] =>
      if env.cfg.emailDomainRestrictionEnabled && !env.cfg.emailDomainWhitelist.contains domainPart
      then some "Email domain not in whitelist"
      else if env.cfg.emailAliasRestrictionEnabled
          && (contains localPart '+' || contains localPart '.') then
        some "Email alias restriction enabled, special symbols not allowed"
      else none
    | _ => some "Invalid email address"

/-- Remember a code and send it. -/
def sendCode (ctx : Ctx) (s : Sess) (codes : VerificationMap) (email code purpose : String) :
    Out × VerificationMap :=
  let codes := codes.register ctx.now email code purpose
  match ctx.sendEmailError with
  | some e => (s.apiError e, codes)
  | none => (s.answer (.done ""), codes)

def sendEmailVerification (env : Env) (ctx : Ctx) (s : Sess) (codes : VerificationMap)
    (email : String) : M (Out × VerificationMap) := do
  match checkEmail env email with
  | some msg => return (s.fail msg, codes)
  | none =>
    if ← isEmailAlreadyTaken email then return (s.fail "Email address already taken", codes)
    return sendCode ctx s codes email (generateVerificationCode ctx.uuid 6) emailVerificationPurpose

def sendPasswordResetEmail (env : Env) (ctx : Ctx) (s : Sess) (codes : VerificationMap)
    (email : String) : M (Out × VerificationMap) := do
  if !env.validEmail email then return (s.fail "Invalid parameters", codes)
  if !(← isEmailAlreadyTaken email) then return (s.fail "Email address not registered", codes)
  return sendCode ctx s codes email (generateVerificationCode ctx.uuid 0) passwordResetPurpose

structure PasswordResetRequest where
  email : String
  token : String

def resetPassword (ctx : Ctx) (s : Sess) (codes : VerificationMap)
    (req : Option PasswordResetRequest) : M (Out × VerificationMap) := do
  match req with
  | none => return (s.fail "Invalid parameters", codes)
  | some req =>
    if req.email = "" ∨ req.token = "" then return (s.fail "Invalid parameters", codes)
    if !codes.verify ctx.now req.email req.token passwordResetPurpose then
      return (s.fail "Reset link invalid or expired", codes)
    let password := generateVerificationCode ctx.uuid 12
    match ← resetUserPasswordByEmail ctx req.email password with
    | some e => return (s.apiError e, codes)
    | none =>
      return (s.answer (.apiSuccess (.str password)),
        codes.delete (passwordResetPurpose ++ req.email))

end AuthGateway.Controller
