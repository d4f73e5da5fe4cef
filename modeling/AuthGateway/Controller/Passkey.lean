import AuthGateway.Controller.TwoFA
import AuthGateway.Model.Passkey

/-!
# controller/passkey.go and service/passkey/session.go

The WebAuthn library is in `Env`; `webAuthnError` is `BuildWebAuthn` refusing
the request.  A finished ceremony is booked in `checks` under the user whose
assertion the library accepted.
-/

namespace AuthGateway.Controller

open Common Model GoString

def errSessionNotFound : Err := .new "Passkey 会话不存在或已过期"

/-- The account of the session, read again: it must be there and enabled. -/
def getSessionUser (s : Sess) : M (Except Err User) := do
  match s.cur.id with
  | none => return .error (.new "未登录")
  | some id =>
    let (err, user) ← User.fillUserById { id := id }
    match err with
    | some e => return .error e
    | none =>
      if user.status ≠ userStatusEnabled then return .error (.new "该用户已被禁用")
      return .ok user

theorem getSessionUser_sat (s : Sess) (db : DB) :
    Sat (getSessionUser s) (fun r db' => db' = db ∧ ∀ u, r = .ok u →
      u ∈ db.users ∧ u.live = true ∧ u.status = userStatusEnabled ∧ s.cur.id = some u.id) db := by
  unfold getSessionUser
  cases hid : s.cur.id with
  | none => exact Sat.pure ⟨rfl, fun u hu => nomatch hu⟩
  | some id =>
    refine (fillUserById_sat id db).bind ?_
    rintro ⟨err, u⟩ db' ⟨rfl, hu⟩
    cases err with
    | some e => exact Sat.pure ⟨rfl, fun u hu => nomatch hu⟩
    | none =>
      dsimp only
      split
      · exact Sat.pure ⟨rfl, fun u hu => nomatch hu⟩
      · rename_i hstatus
        rw [not_not] at hstatus
        refine Sat.pure ⟨rfl, fun v hv => ?_⟩
        obtain rfl : u = v := Except.ok.inj hv
        rcases hu with hblank | ⟨row, hmem, hr, hlive, rfl⟩
        · -- an empty struct has status zero
          obtain rfl : u = { id := id } := hblank
          exact absurd hstatus (show (0 : Int) ≠ 1 by decide)
        · obtain rfl : u = row := congrArg Prod.snd hr
          exact ⟨hmem, hlive, hstatus, rfl⟩

/-- `c.JSON(http.StatusUnauthorized, …)`. -/
def unauthorized (s : Sess) (msg : String) : Out := s.answer (.json 401 false msg none)

def passkeyOff (s : Sess) : Out := s.fail "管理员未启用 Passkey 登录"

def passkeyVerifyBegin (env : Env) (ctx : Ctx) (s : Sess) : M Out := do
  if !env.cfg.passkeyEnabled then return passkeyOff s
  match ← getSessionUser s with
  | .error e => return unauthorized s e.error
  | .ok user =>
    match ← getPasskeyByUserID (show User from user).id with
    | .error _ => return s.fail "该用户尚未绑定 Passkey"
    | .ok credential =>
      match ctx.webAuthnError with
      | some e => return s.apiError e
      | none =>
        match env.beginLogin ctx.randomString user credential with
        | .error e => return s.apiError e
        | .ok (assertion, sessionData) =>
          match (s.set fun s => { s with passkeyVerify := some sessionData }).save env with
          | (some e, s) => return s.apiError e
          | (none, s) => return s.answer (.apiSuccess (.obj [("options", assertion)]))

theorem passkeyVerifyBegin_sat (env : Env) (ctx : Ctx) (s : Sess) (db : DB) :
    Sat (passkeyVerifyBegin env ctx s) (fun out _ => out.login = none ∧
      (out.cookie = s.saved ∨ ∃ d, out.cookie = { s.cur with passkeyVerify := d })) db := by
  unfold passkeyVerifyBegin
  split
  · exact Sat.pure ⟨rfl, Or.inl rfl⟩
  · refine (getSessionUser_sat s db).bind ?_
    rintro r db₁ -
    cases r with
    | error e => exact Sat.pure ⟨rfl, Or.inl rfl⟩
    | ok user =>
      refine (getPasskeyByUserID_sat _ db₁).bind ?_
      rintro r db₂ -
      cases r with
      | error e => exact Sat.pure ⟨rfl, Or.inl rfl⟩
      | ok credential =>
        cases ctx.webAuthnError with
        | some e => exact Sat.pure ⟨rfl, Or.inl rfl⟩
        | none =>
          dsimp only
          split
          · exact Sat.pure ⟨rfl, Or.inl rfl⟩
          · rename_i sessionData _
            have hsaved := Sess.saved_save env
              (s.set fun s => { s with passkeyVerify := some sessionData })
            split
            · rename_i hsave
              rw [hsave] at hsaved
              exact Sat.pure ⟨rfl, hsaved.imp_right fun h => ⟨_, h⟩⟩
            · rename_i hsave
              rw [hsave] at hsaved
              exact Sat.pure ⟨rfl, hsaved.imp_right fun h => ⟨_, h⟩⟩

/-- `PopSessionData`: take the ceremony out of the session; that this could not
be saved is ignored. -/
def popVerifySession (env : Env) (s : Sess) : Except Err String × Sess :=
  match s.cur.passkeyVerify with
  | none => (.error errSessionNotFound, s)
  | some data => (.ok data, ((s.set fun s => { s with passkeyVerify := none }).save env).2)

def popLoginSession (env : Env) (s : Sess) : Except Err String × Sess :=
  match s.cur.passkeyLogin with
  | none => (.error errSessionNotFound, s)
  | some data => (.ok data, ((s.set fun s => { s with passkeyLogin := none }).save env).2)

def popRegistrationSession (env : Env) (s : Sess) : Except Err String × Sess :=
  match s.cur.passkeyRegistration with
  | none => (.error errSessionNotFound, s)
  | some data => (.ok data, ((s.set fun s => { s with passkeyRegistration := none }).save env).2)

def passkeyVerifyFinish (env : Env) (ctx : Ctx) (s : Sess) (body : String) : M Out := do
  if !env.cfg.passkeyEnabled then return passkeyOff s
  match ← getSessionUser s with
  | .error e => return unauthorized s e.error
  | .ok user =>
    match ctx.webAuthnError with
    | some e => return s.apiError e
    | none =>
      match ← getPasskeyByUserID (show User from user).id with
      | .error _ => return s.fail "该用户尚未绑定 Passkey"
      | .ok credential =>
        match popVerifySession env s with
        | (.error e, s) => return s.apiError e
        | (.ok sessionData, s) =>
          match env.finishLogin user credential sessionData body with
          | .error e => return s.apiError e
          | .ok _ =>
            let checks := checksOf (show User from user).id [.ok true]
            match ← upsertPasskeyCredential { credential with lastUsedAt := some ctx.now } with
            | some e => return (s.apiError e).withChecks checks
            | none => return (s.answer (.done "Passkey 验证成功")).withChecks checks

theorem popVerifySession_saved (env : Env) (s : Sess) :
    (popVerifySession env s).2.saved = s.saved ∨
      (popVerifySession env s).2.saved = { s.cur with passkeyVerify := none } := by
  unfold popVerifySession
  split
  · exact Or.inl rfl
  · exact Sess.saved_save env _

/-- **What `PasskeyVerifyFinish` can do to the session**: take the ceremony out;
an assertion it accepted is the session user's. -/
theorem passkeyVerifyFinish_sat (env : Env) (ctx : Ctx) (s : Sess) (body : String) (db : DB) :
    Sat (passkeyVerifyFinish env ctx s body) (fun out _ => out.login = none ∧
      (out.cookie = s.saved ∨ out.cookie = { s.cur with passkeyVerify := none })) db := by
  unfold passkeyVerifyFinish
  split
  · exact Sat.pure ⟨rfl, Or.inl rfl⟩
  · refine (getSessionUser_sat s db).bind ?_
    rintro r db₁ -
    cases r with
    | error e => exact Sat.pure ⟨rfl, Or.inl rfl⟩
    | ok user =>
      cases ctx.webAuthnError with
      | some e => exact Sat.pure ⟨rfl, Or.inl rfl⟩
      | none =>
        refine (getPasskeyByUserID_sat _ db₁).bind ?_
        rintro r db₂ -
        cases r with
        | error e => exact Sat.pure ⟨rfl, Or.inl rfl⟩
        | ok credential =>
          have hsaved := popVerifySession_saved env s
          dsimp only
          split
          · rename_i hpop
            rw [hpop] at hsaved
            exact Sat.pure ⟨rfl, hsaved⟩
          · rename_i hpop
            rw [hpop] at hsaved
            split
            · exact Sat.pure ⟨rfl, hsaved⟩
            · refine Sat.perform fun r db₃ _ => ?_
              cases r <;> exact Sat.pure ⟨rfl, hsaved⟩

/-- `wa.BeginDiscoverableLogin` answers the options and the session data. -/
def passkeyLoginBegin (env : Env) (ctx : Ctx) (s : Sess)
    (begun : Except Err (Json × String)) : M Out := do
  if !env.cfg.passkeyEnabled then return passkeyOff s
  match ctx.webAuthnError with
  | some e => return s.apiError e
  | none =>
    match begun with
    | .error e => return s.apiError e
    | .ok (assertion, sessionData) =>
      match (s.set fun s => { s with passkeyLogin := some sessionData }).save env with
      | (some e, s) => return s.apiError e
      | (none, s) => return s.answer (.apiSuccess (.obj [("options", assertion)]))

/-- The callback that names the user of a credential. -/
def passkeyLoginHandler (rawID userHandle : String) : M (Except Err (User × PasskeyCredential)) := do
  match ← getPasskeyByCredentialID rawID with
  | .error e => return .error (.new ("未找到 Passkey 凭证: " ++ e.error))
  | .ok credential =>
    let (err, user) ← User.fillUserById { id := (show PasskeyCredential from credential).userID }
    match err with
    | some e => return .error (.new ("用户信息获取失败: " ++ e.error))
    | none =>
      if user.status ≠ userStatusEnabled then return .error (.new "该用户已被禁用")
      -- a handle that is no number is let through
      if userHandle ≠ "" ∧ (atoi userHandle).2 = none ∧ (atoi userHandle).1 ≠ user.id then
        return .error (.new "用户句柄与凭证不匹配")
      return .ok (user, credential)

def passkeyLoginFinish (env : Env) (ctx : Ctx) (s : Sess) (body : String) : M Out := do
  if !env.cfg.passkeyEnabled then return passkeyOff s
  match ctx.webAuthnError with
  | some e => return s.apiError e
  | none =>
    match popLoginSession env s with
    | (.error e, s) => return s.apiError e
    | (.ok sessionData, s) =>
      match env.passkeyHandles body with
      | .error e => return s.apiError e
      | .ok (rawID, userHandle) =>
        match ← passkeyLoginHandler rawID userHandle with
        | .error e => return s.apiError (env.passkeyLookupError e)
        | .ok (modelUser, credential) =>
          match env.finishPasskeyLogin modelUser credential sessionData body with
          | .error e => return s.apiError e
          | .ok validated =>
            let checks := checksOf modelUser.id [.ok true]
            if modelUser.status ≠ userStatusEnabled then
              return (s.fail "该用户已被禁用").withChecks checks
            let updatedCredential :=
              { PasskeyCredential.ofWebAuthn modelUser.id validated with
                lastUsedAt := some ctx.now }
            match ← upsertPasskeyCredential updatedCredential with
            | some e => return (s.apiError e).withChecks checks
            | none => return (setupLogin env s modelUser).withChecks checks

/-- The credential the user has so far; that there is none is no error. -/
def existingPasskey : Except Err PasskeyCredential → Except Err (Option PasskeyCredential)
  | .ok credential => .ok (some credential)
  | .error .passkeyNotFound => .ok none
  | .error e => .error e

/-- `wa.BeginRegistration` answers the options and the session data; the
credential the user has is excluded. -/
def passkeyRegisterBegin (env : Env) (ctx : Ctx) (s : Sess)
    (beginRegistration : User → Option PasskeyCredential → Except Err (Json × String)) : M Out := do
  if !env.cfg.passkeyEnabled then return passkeyOff s
  match ← getSessionUser s with
  | .error e => return unauthorized s e.error
  | .ok user =>
    match existingPasskey (← getPasskeyByUserID (show User from user).id) with
    | .error e => return s.apiError e
    | .ok credential =>
      match ctx.webAuthnError with
      | some e => return s.apiError e
      | none =>
        match beginRegistration user credential with
        | .error e => return s.apiError e
        | .ok (creation, sessionData) =>
          match (s.set fun s => { s with passkeyRegistration := some sessionData }).save env with
          | (some e, s) => return s.apiError e
          | (none, s) => return s.answer (.apiSuccess (.obj [("options", creation)]))

def passkeyRegisterFinish (env : Env) (ctx : Ctx) (s : Sess) (body : String) : M Out := do
  if !env.cfg.passkeyEnabled then return passkeyOff s
  match ← getSessionUser s with
  | .error e => return unauthorized s e.error
  | .ok user =>
    match ctx.webAuthnError with
    | some e => return s.apiError e
    | none =>
      match existingPasskey (← getPasskeyByUserID (show User from user).id) with
      | .error e => return s.apiError e
      | .ok credentialRecord =>
        match popRegistrationSession env s with
        | (.error e, s) => return s.apiError e
        | (.ok sessionData, s) =>
          match env.finishRegistration user credentialRecord sessionData body with
          | .error e => return s.apiError e
          | .ok credential =>
            match ← upsertPasskeyCredential
                (PasskeyCredential.ofWebAuthn (show User from user).id credential) with
            | some e => return s.apiError e
            | none => return s.answer (.done "Passkey 注册成功")

def passkeyDelete (s : Sess) : M Out := do
  match ← getSessionUser s with
  | .error e => return unauthorized s e.error
  | .ok user =>
    match ← deletePasskeyByUserID (show User from user).id with
    | some e => return s.apiError e
    | none => return s.answer (.done "Passkey 已解绑")

/-- No rank is compared here. -/
def adminResetPasskey (s : Sess) (idParam : String) : M Out := do
  match atoi idParam with
  | (_, some _) => return s.fail "无效的用户 ID"
  | (id, none) =>
    let (err, user) ← User.fillUserById { id := id }
    match err with
    | some e => return s.apiError e
    | none =>
      match ← getPasskeyByUserID user.id with
      | .error .passkeyNotFound => return s.fail "该用户尚未绑定 Passkey"
      | .error e => return s.apiError e
      | .ok _ =>
        match ← deletePasskeyByUserID user.id with
        | some e => return s.apiError e
        | none => return s.answer (.done "Passkey 已重置")

end AuthGateway.Controller
