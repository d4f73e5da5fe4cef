import AuthGateway.Controller.Passkey

/-!
# controller/secure_verification.go

`UniversalVerify` stamps the session with the second in which a verification
succeeded; the stamp is good for `secureVerificationTimeout` seconds.
-/

namespace AuthGateway.Controller

open Common Model

def secureVerificationTimeout : Int := 300

/-- "TOTP or backup code", for a record that is there and enabled; the answers
of the validators that were asked. -/
def validateTwoFactorAuth (env : Env) (ctx : Ctx) (twoFA : Option TwoFA) (code : String) :
    M (List (Except Err Bool)) := do
  match twoFA with
  | none => return []
  | some twoFA => if !twoFA.isEnabled then return [] else tryCode env ctx twoFA code

structure UniversalVerifyRequest where
  method : String
  code : String := ""

/-- Stamp the session and report it. -/
def stamp (env : Env) (ctx : Ctx) (s : Sess) (checks : List (Int × Except Err Bool)) : Out :=
  match (s.set (Session.stamp (unix ctx.now))).save env with
  | (some e, s) => (s.fail ("保存验证状态失败: " ++ e.error)).withChecks checks
  | (none, s) =>
    (s.answer (.json 200 true "验证成功" (some (.obj [("verified", .bool true),
      ("expires_at", .num (unix ctx.now + secureVerificationTimeout))])))).withChecks checks

/-- The branches of the handler on the requested method. -/
def verifyMethod (env : Env) (ctx : Ctx) (s : Sess) (twoFA : Option TwoFA) (hasPasskey : Bool)
    (req : UniversalVerifyRequest) : M Out := do
  if req.method = "2fa" then
    if !twoFA.any TwoFA.isEnabled then return s.fail "用户未启用2FA"
    if req.code = "" then return s.fail "验证码不能为空"
    let answers ← validateTwoFactorAuth env ctx twoFA req.code
    let checks := checksOf ctx.id answers
    if !answers.any isOk then return (s.fail "验证失败，请检查验证码").withChecks checks
    return stamp env ctx s checks
  else if req.method = "passkey" then
    if !hasPasskey then return s.fail "用户未启用Passkey"
    -- the ceremony is taken for granted: that it was finished is not looked up
    return stamp env ctx s []
  else
    return s.fail ("不支持的验证方式: " ++ req.method)

/-- The body comes decoded, or with the error of the binding. -/
def universalVerify (env : Env) (ctx : Ctx) (s : Sess)
    (req : Except Err UniversalVerifyRequest) : M Out := do
  if ctx.id = 0 then return unauthorized s "未登录"
  match req with
  | .error e => return s.fail ("参数错误: " ++ e.error)
  | .ok req =>
    let (err, user) ← User.fillUserById { id := ctx.id }
    match err with
    | some e => return s.fail ("获取用户信息失败: " ++ e.error)
    | none =>
      if user.status ≠ userStatusEnabled then return s.fail "该用户已被禁用"
      let twoFA := (← getTwoFAByUserId ctx.id).toOption.join
      let passkey ← getPasskeyByUserID ctx.id
      let hasPasskey := passkey.toOption.isSome
      if !twoFA.any TwoFA.isEnabled && !hasPasskey then
        return s.fail "用户未启用2FA或Passkey"
      verifyMethod env ctx s twoFA hasPasskey req

/-- What a request needs for the passkey branch to be taken: an enabled account
with a credential. -/
def HasPasskey (db : DB) (userId : Int) : Prop :=
  (∃ u ∈ db.users, u.live = true ∧ u.status = userStatusEnabled ∧ u.id = userId) ∧
    ∃ c ∈ db.passkeys, c.live = true ∧ c.userID = userId

theorem stamp_cookie (env : Env) (ctx : Ctx) (s : Sess) (checks : List (Int × Except Err Bool)) :
    (stamp env ctx s checks).cookie = s.saved ∨
      env.saveError (s.cur.stamp (unix ctx.now)) = none ∧
        (stamp env ctx s checks).cookie = s.cur.stamp (unix ctx.now) := by
  have h := Sess.saved_save_or env (s.set (Session.stamp (unix ctx.now)))
  unfold stamp
  split
  · rename_i hsave
    rw [hsave] at h
    exact h
  · rename_i hsave
    rw [hsave] at h
    exact h

theorem stamp_login (env : Env) (ctx : Ctx) (s : Sess) (checks : List (Int × Except Err Bool)) :
    (stamp env ctx s checks).login = none := by
  unfold stamp
  split <;> rfl

theorem stamp_checks (env : Env) (ctx : Ctx) (s : Sess) (checks : List (Int × Except Err Bool)) :
    (stamp env ctx s checks).checks = checks := by
  unfold stamp
  split <;> rfl

/-- **What `UniversalVerify` can do to the session**: keep it, or stamp it; it
stamps when the user's code was accepted, or for the asking in the passkey
branch. -/
theorem universalVerify_sat (env : Env) (ctx : Ctx) (s : Sess)
    (req : Except Err UniversalVerifyRequest) (db : DB) :
    Sat (universalVerify env ctx s req) (fun out _ => out.login = none ∧
      (out.cookie = s.saved ∨ env.saveError (s.cur.stamp (unix ctx.now)) = none ∧
        out.cookie = s.cur.stamp (unix ctx.now) ∧
        ((ctx.id, .ok true) ∈ out.checks ∨
          (∃ r, req = .ok r ∧ r.method = "passkey") ∧ HasPasskey db ctx.id))) db := by
  unfold universalVerify
  split
  · exact Sat.pure ⟨rfl, Or.inl rfl⟩
  · cases req with
    | error e => exact Sat.pure ⟨rfl, Or.inl rfl⟩
    | ok r =>
      refine (fillUserById_sat ctx.id db).bind ?_
      rintro ⟨err, user⟩ db₁ ⟨rfl, huser⟩
      cases err with
      | some e => exact Sat.pure ⟨rfl, Or.inl rfl⟩
      | none =>
        dsimp only
        split
        · exact Sat.pure ⟨rfl, Or.inl rfl⟩
        · rename_i hstatus
          rw [not_not] at hstatus
          have hrow : ∃ u ∈ db₁.users, u.live = true ∧ u.status = userStatusEnabled ∧
              u.id = ctx.id := by
            rcases huser with hblank | ⟨row, hmem, hr, hlive, hid⟩
            · obtain rfl : user = { id := ctx.id } := hblank
              exact absurd hstatus (show (0 : Int) ≠ 1 by decide)
            · obtain rfl : user = row := congrArg Prod.snd hr
              exact ⟨user, hmem, hlive, hstatus, hid⟩
          refine (getTwoFAByUserId_sat ctx.id db₁).bind ?_
          rintro twoFA db₂ ⟨rfl, -⟩
          refine (getPasskeyByUserID_sat ctx.id db₂).bind ?_
          rintro passkey db₃ ⟨rfl, hpasskey⟩
          split
          · exact Sat.pure ⟨rfl, Or.inl rfl⟩
          · unfold verifyMethod
            split
            · split
              · exact Sat.pure ⟨rfl, Or.inl rfl⟩
              · split
                · exact Sat.pure ⟨rfl, Or.inl rfl⟩
                · have hspares : SparesUsers
                      (validateTwoFactorAuth env ctx twoFA.toOption.join r.code) := by
                    unfold validateTwoFactorAuth
                    split
                    · exact Prog.Only.pure
                    · split
                      · exact Prog.Only.pure
                      · exact tryCode_sparesUsers env ctx _ _
                  refine (hspares.sat db₃).bind ?_
                  rintro answers db₄ -
                  split
                  · exact Sat.pure ⟨rfl, Or.inl rfl⟩
                  · rename_i hok
                    rw [Bool.not_eq_true', Bool.not_eq_false] at hok
                    refine Sat.pure ⟨stamp_login _ _ _ _, ?_⟩
                    rcases stamp_cookie env ctx s (checksOf ctx.id answers) with hc | ⟨hsave, hc⟩
                    · exact Or.inl hc
                    · refine Or.inr ⟨hsave, hc, Or.inl ?_⟩
                      rw [stamp_checks]
                      exact mem_checksOf hok
            · split
              · rename_i hmethod
                split
                · exact Sat.pure ⟨rfl, Or.inl rfl⟩
                · rename_i hhas
                  refine Sat.pure ⟨stamp_login _ _ _ _, ?_⟩
                  rcases stamp_cookie env ctx s [] with hc | ⟨hsave, hc⟩
                  · exact Or.inl hc
                  · refine Or.inr ⟨hsave, hc, Or.inr ⟨⟨r, rfl, hmethod⟩, hrow, ?_⟩⟩
                    cases passkey with
                    | error e => exact absurd rfl hhas
                    | ok c => exact ⟨c, hpasskey c rfl⟩
              · exact Sat.pure ⟨rfl, Or.inl rfl⟩

/-- A read that fails keeps the passkey branch from stamping: that of the
account, or that of the credential, the third one. -/
theorem serve_universalVerify_down (env : Env) (ctx : Ctx) (s : Sess) {r : UniversalVerifyRequest}
    (hmethod : r.method = "passkey") {st : Store} {e : Err}
    (h : st.outages 0 = some e ∨ st.outages 2 = some e) :
    (serve (universalVerify env ctx s (.ok r)) st).1.cookie = s.saved := by
  unfold universalVerify
  by_cases hid : ctx.id = 0
  · rw [if_pos hid]
    rfl
  rw [if_neg hid]
  dsimp only
  rw [serve_bind]
  rcases h with h | h
  · rw [serve_fillUserById_down hid h]
    rfl
  · obtain ⟨hnone, hrest⟩ := serve_fillUserById_rest hid st
    rw [hrest]
    cases hfill : (serve (User.fillUserById { id := ctx.id }) st).1 with
    | mk err user =>
      rw [hfill] at hnone
      obtain rfl : err = none := hnone
      dsimp only
      by_cases hstatus : user.status ≠ userStatusEnabled
      · rw [if_pos hstatus]
        rfl
      rw [if_neg hstatus, serve_bind, serve_getTwoFAByUserId_rest hid, serve_bind,
        serve_getPasskeyByUserID_down (s := st.rest.rest) h]
      split
      · rfl
      · unfold verifyMethod
        rw [hmethod, if_neg (by decide), if_pos rfl]
        rfl

/-! ### Reading the stamp -/

def verificationStatusResponse (verified : Bool) (expiresAt : Int) : Json :=
  .obj ([("verified", .bool verified)]
    ++ if expiresAt = 0 then [] else [("expires_at", .num expiresAt)])

/-- Whether a stamp is still good. -/
def fresh (now verifiedAt : Int) : Bool := unix now - verifiedAt < secureVerificationTimeout

/-- An expired stamp is taken out of the session. -/
def dropStamp (env : Env) (s : Sess) : Sess :=
  ((s.set Session.unstamp).save env).2

theorem dropStamp_saved (env : Env) (s : Sess) :
    (dropStamp env s).saved = s.saved ∨ (dropStamp env s).saved = s.cur.unstamp :=
  Sess.saved_save env _

def getVerificationStatus (env : Env) (ctx : Ctx) (s : Sess) : Out :=
  if ctx.id = 0 then unauthorized s "未登录"
  else match s.cur.secureVerifiedAt with
    | none => s.answer (.apiSuccess (verificationStatusResponse false 0))
    | some verifiedAt =>
      if fresh ctx.now verifiedAt then
        s.answer (.apiSuccess
          (verificationStatusResponse true (verifiedAt + secureVerificationTimeout)))
      else (dropStamp env s).answer (.apiSuccess (verificationStatusResponse false 0))

theorem getVerificationStatus_cookie (env : Env) (ctx : Ctx) (s : Sess) :
    (getVerificationStatus env ctx s).login = none ∧
      ((getVerificationStatus env ctx s).cookie = s.saved ∨
        (getVerificationStatus env ctx s).cookie = s.cur.unstamp) := by
  unfold getVerificationStatus
  split
  · exact ⟨rfl, Or.inl rfl⟩
  · split
    · exact ⟨rfl, Or.inl rfl⟩
    · split
      · exact ⟨rfl, Or.inl rfl⟩
      · exact ⟨rfl, dropStamp_saved env s⟩

/-- `CheckSecureVerification`. -/
def checkSecureVerification (env : Env) (ctx : Ctx) (s : Sess) : Bool × Sess :=
  match s.cur.secureVerifiedAt with
  | none => (false, s)
  | some verifiedAt => if fresh ctx.now verifiedAt then (true, s) else (false, dropStamp env s)

/-! ### A verification by passkey in one request -/

/-- `PasskeyVerifyAndSetSession`; that the session could not be saved is ignored. -/
def passkeyVerifyAndSetSession (env : Env) (ctx : Ctx) (s : Sess) : Sess :=
  ((s.set (Session.stamp (unix ctx.now))).save env).2

def passkeyVerifyForSecure (env : Env) (ctx : Ctx) (s : Sess) (body : String) : M Out := do
  if !env.cfg.passkeyEnabled then return passkeyOff s
  if ctx.id = 0 then return unauthorized s "未登录"
  let (err, user) ← User.fillUserById { id := ctx.id }
  match err with
  | some e => return s.fail ("获取用户信息失败: " ++ e.error)
  | none =>
    if user.status ≠ userStatusEnabled then return s.fail "该用户已被禁用"
    match ← getPasskeyByUserID ctx.id with
    | .error _ => return s.fail "该用户尚未绑定 Passkey"
    | .ok credential =>
      match ctx.webAuthnError with
      | some e => return s.apiError e
      | none =>
        match popVerifySession env s with
        | (.error e, s) => return s.apiError e
        | (.ok sessionData, s) =>
          match env.finishLogin user credential sessionData body with
          | .error e => return s.apiError e
          | .ok _ =>
            let checks := checksOf ctx.id [.ok true]
            match ← upsertPasskeyCredential { credential with lastUsedAt := some ctx.now } with
            | some e => return (s.apiError e).withChecks checks
            | none =>
              return ((passkeyVerifyAndSetSession env ctx s).answer (.json 200 true "Passkey 验证成功"
                (some (.obj [("verified", .bool true),
                  ("expires_at", .num (unix ctx.now + secureVerificationTimeout))])))).withChecks
                checks

end AuthGateway.Controller
