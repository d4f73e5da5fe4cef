import AuthGateway.Controller.User

/-!
# controller/twofa.go

The two-factor handlers.  `tryCode` is the block that `Disable2FA`,
`Verify2FALogin` and `validateTwoFactorAuth` repeat: first the code as a TOTP
code, if it is numeric, then as a backup code, on the copy of the record the
first attempt leaves behind.  It answers what the validators said, in order.
-/

namespace AuthGateway.Controller

open Common Model GoString

/-- A validator accepted. -/
def isOk : Except Err Bool → Bool
  | .ok valid => valid
  | .error _ => false

/-- The code as a TOTP code; not tried when it is not numeric. -/
def tryTOTP (env : Env) (ctx : Ctx) (twoFA : TwoFA) (code : String) :
    M (List (Except Err Bool) × TwoFA) := do
  match validateNumericCode code with
  | .ok cleanCode =>
    let (r, twoFA) ← twoFA.validateTOTPAndUpdateUsage env ctx cleanCode
    return ([r], twoFA)
  | .error _ => return ([], twoFA)

def tryCode (env : Env) (ctx : Ctx) (twoFA : TwoFA) (code : String) :
    M (List (Except Err Bool)) := do
  let (answers, twoFA) ← tryTOTP env ctx twoFA code
  if answers.any isOk then return answers
  let (r, _) ← twoFA.validateBackupCodeAndUpdateUsage env ctx code
  return answers ++ [r]

/-- The answers, each with the user whose record was asked. -/
def checksOf (userId : Int) (answers : List (Except Err Bool)) : List (Int × Except Err Bool) :=
  answers.map fun r => (userId, r)

/-- What the handlers make of the answers: the error of the last one, or
whether any accepted. -/
def verdict (answers : List (Except Err Bool)) : Except Err Bool :=
  match answers.getLast? with
  | some (.error e) => .error e
  | _ => .ok (answers.any isOk)

theorem any_isOk_of_verdict {answers : List (Except Err Bool)} (h : verdict answers = .ok true) :
    answers.any isOk = true := by
  unfold verdict at h
  split at h
  · cases h
  · exact Except.ok.inj h

/-- An accepted code is booked under the user. -/
theorem mem_checksOf {answers : List (Except Err Bool)} {userId : Int}
    (h : answers.any isOk = true) : (userId, .ok true) ∈ checksOf userId answers := by
  obtain ⟨r, hr, hok⟩ := List.any_eq_true.mp h
  refine List.mem_map.mpr ⟨r, hr, ?_⟩
  cases r with
  | error e => exact absurd hok Bool.false_ne_true
  | ok valid => rw [show valid = true from hok]

theorem tryCode_sparesUsers (env : Env) (ctx : Ctx) (twoFA : TwoFA) (code : String) :
    SparesUsers (tryCode env ctx twoFA code) := by
  have htotp : SparesUsers (tryTOTP env ctx twoFA code) := by
    unfold tryTOTP
    split
    · exact (twoFA.validateTOTP_only (fun _ => rfl) env ctx _).bind fun _ => Prog.Only.pure
    · exact Prog.Only.pure
  refine htotp.bind fun r => ?_
  dsimp only
  split
  · exact Prog.Only.pure
  · exact (TwoFA.validateBackup_sparesUsers env ctx _ code).bind fun _ => Prog.Only.pure

/-! ### What an accepted code is -/

/-- The code is the TOTP code of the record at this moment. -/
def IsTOTP (env : Env) (now : Int) (t : TwoFA) (code : String) : Prop :=
  ∃ clean, validateNumericCode code = .ok clean ∧
    validateTOTPCode (env.totpValidate now) t.secret clean = true

/-- The code is an unused backup code of the user. -/
def IsBackupCode (env : Env) (db : DB) (userId : Int) (code : String) : Prop :=
  Common.validateBackupCode code = true ∧ ∃ bc ∈ db.backupCodes, bc.live = true ∧
    bc.userId = userId ∧ bc.isUsed = false ∧
    env.bcryptCompare bc.codeHash (normalizeBackupCode code) = true

/-- The TOTP attempt leaves the backup codes alone and accepts TOTP codes only. -/
theorem tryTOTP_sat (env : Env) (ctx : Ctx) (t : TwoFA) (code : String) (db : DB) :
    Sat (tryTOTP env ctx t code) (fun r db' => db'.backupCodes = db.backupCodes ∧
      r.2.userId = t.userId ∧ (r.1.any isOk = true → IsTOTP env ctx.now t code)) db := by
  unfold tryTOTP
  cases hnum : validateNumericCode code with
  | error e => exact Sat.pure ⟨rfl, rfl, fun h => absurd h Bool.false_ne_true⟩
  | ok clean =>
    refine (TwoFA.validateTOTPAndUpdateUsage_sat env ctx t clean db).bind ?_
    rintro ⟨r, t'⟩ db' ⟨hdb, huser, hok⟩
    refine Sat.pure ⟨hdb, huser, fun h => ⟨clean, hnum, hok ?_⟩⟩
    cases r with
    | error e => exact absurd h Bool.false_ne_true
    | ok valid =>
      rw [List.any_cons, List.any_nil, Bool.or_false] at h
      exact congrArg Except.ok h

/-- **A code that is accepted is the user's**: the TOTP code of the record, or
one of the unused backup codes. -/
theorem tryCode_sat (env : Env) (ctx : Ctx) (t : TwoFA) (code : String) (db : DB) :
    Sat (tryCode env ctx t code) (fun answers _ => answers.any isOk = true →
      IsTOTP env ctx.now t code ∨ IsBackupCode env db t.userId code) db := by
  refine (tryTOTP_sat env ctx t code db).bind ?_
  rintro ⟨answers, t'⟩ db' ⟨hdb, huser, hok⟩
  dsimp only at hdb huser hok ⊢
  split
  · rename_i hany
    exact Sat.pure fun _ => Or.inl (hok hany)
  · rename_i hany
    refine (TwoFA.validateBackupCodeAndUpdateUsage_sat env ctx t' code db').bind ?_
    rintro ⟨r, t''⟩ db'' hr
    refine Sat.pure fun h => Or.inr ?_
    rw [List.any_append, Bool.or_eq_true] at h
    rcases h with h | h
    · exact absurd h hany
    · have hvalid : r = .ok true := by
        cases r with
        | error e => exact absurd h Bool.false_ne_true
        | ok valid =>
          rw [List.any_cons, List.any_nil, Bool.or_false] at h
          exact congrArg Except.ok h
      obtain ⟨hform, bc, hmem, hbc⟩ := hr hvalid
      rw [huser] at hbc
      rw [hdb] at hmem
      exact ⟨hform, bc, hmem, hbc⟩

/-- The record and the code pass on this store: the record is not locked, and the
code is its TOTP code, or a backup code that both statements about it reach. -/
def CodeAccepted (env : Env) (now : Int) (s : Store) (t : TwoFA) (code : String) : Prop :=
  t.isLocked now = false ∧ (IsTOTP env now t code ∨
    IsBackupCode env s.db t.userId code ∧ s.outages 0 = none ∧ s.outages 1 = none)

theorem isTOTP_iff {env : Env} {now : Int} {t : TwoFA} {code clean : String}
    (h : validateNumericCode code = .ok clean) :
    IsTOTP env now t code ↔ validateTOTPCode (env.totpValidate now) t.secret clean = true := by
  constructor
  · rintro ⟨clean', hclean', hvalid⟩
    obtain rfl : clean = clean' := Except.ok.inj (h.symm.trans hclean')
    exact hvalid
  · intro hvalid
    exact ⟨clean, h, hvalid⟩

theorem serve_tryTOTP_numeric (env : Env) (ctx : Ctx) (t : TwoFA) {code clean : String}
    (h : validateNumericCode code = .ok clean) (s : Store) :
    serve (tryTOTP env ctx t code) s
      = (([(serve (t.validateTOTPAndUpdateUsage env ctx clean) s).1.1],
          (serve (t.validateTOTPAndUpdateUsage env ctx clean) s).1.2),
        (serve (t.validateTOTPAndUpdateUsage env ctx clean) s).2) := by
  unfold tryTOTP
  rw [h]
  dsimp only
  rw [serve_bind]
  rfl

theorem serve_tryTOTP_other (env : Env) (ctx : Ctx) (t : TwoFA) {code msg : String}
    (h : validateNumericCode code = .error msg) (s : Store) :
    serve (tryTOTP env ctx t code) s = (([], t), s) := by
  unfold tryTOTP
  rw [h]
  rfl

/-- Once the TOTP validator accepts, the other one is not asked. -/
theorem serve_tryCode_stop {env : Env} {ctx : Ctx} {t t' : TwoFA} {code : String} {s s' : Store}
    {answers : List (Except Err Bool)} (htotp : serve (tryTOTP env ctx t code) s = ((answers, t'), s'))
    (h : answers.any isOk = true) : serve (tryCode env ctx t code) s = (answers, s') := by
  unfold tryCode
  rw [serve_bind, htotp]
  dsimp only
  rw [h, if_pos rfl]
  rfl

theorem serve_tryCode_go {env : Env} {ctx : Ctx} {t t' : TwoFA} {code : String} {s s' : Store}
    {answers : List (Except Err Bool)} (htotp : serve (tryTOTP env ctx t code) s = ((answers, t'), s'))
    (h : answers.any isOk = false) :
    serve (tryCode env ctx t code) s
      = (answers ++ [(serve (t'.validateBackupCodeAndUpdateUsage env ctx code) s').1.1],
        (serve (t'.validateBackupCodeAndUpdateUsage env ctx code) s').2) := by
  unfold tryCode
  rw [serve_bind, htotp]
  dsimp only
  rw [h, if_neg Bool.false_ne_true, serve_bind]
  rfl

/-- What is made of the answers once the last of them is an error. -/
theorem verdict_error (answers : List (Except Err Bool)) (e : Err) :
    verdict (answers ++ [.error e]) = .error e := by
  unfold verdict
  rw [List.getLast?_concat]

/-- A numeric code is no backup code, so it is accepted as a TOTP code or not at all. -/
theorem serve_tryCode_numeric (env : Env) (ctx : Ctx) {t : TwoFA} {code clean : String}
    (hnum : validateNumericCode code = .ok clean) (hlocked : t.isLocked ctx.now = false)
    (s : Store) :
    verdict (serve (tryCode env ctx t code) s).1 = .ok true
      ↔ validateTOTPCode (env.totpValidate ctx.now) t.secret clean = true := by
  have hr := TwoFA.serve_validateTOTP_unlocked env hlocked clean s
  have htotp := serve_tryTOTP_numeric env ctx t hnum s
  rw [hr] at htotp
  cases hvalid : validateTOTPCode (env.totpValidate ctx.now) t.secret clean with
  | true =>
    rw [hvalid] at htotp
    rw [serve_tryCode_stop htotp rfl]
    exact ⟨fun _ => rfl, fun _ => rfl⟩
  | false =>
    rw [hvalid] at htotp
    obtain ⟨e, he⟩ := TwoFA.serve_validateBackup_malformed env ctx
      (serve (t.validateTOTPAndUpdateUsage env ctx clean) s).1.2 (not_both_formats hnum)
      (serve (t.validateTOTPAndUpdateUsage env ctx clean) s).2
    rw [serve_tryCode_go htotp rfl, he, verdict_error]
    constructor
    · intro h
      exact nomatch h
    · intro h
      exact nomatch h

theorem serve_tryCode_other (env : Env) (ctx : Ctx) {t : TwoFA} {code : String} {msg : String}
    (hnum : validateNumericCode code = .error msg) (hlocked : t.isLocked ctx.now = false)
    (s : Store) :
    verdict (serve (tryCode env ctx t code) s).1 = .ok true
      ↔ (serve (Model.validateBackupCode env ctx t.userId code) s).1 = .ok true := by
  rw [serve_tryCode_go (serve_tryTOTP_other env ctx t hnum s) rfl,
    TwoFA.serve_validateBackup_unlocked env hlocked]
  cases (serve (Model.validateBackupCode env ctx t.userId code) s).1 with
  | error e => rw [verdict_error]
  | ok valid => cases valid <;> exact Iff.rfl

/-- A locked record accepts nothing. -/
theorem serve_tryCode_locked (env : Env) (ctx : Ctx) {t : TwoFA} (hlocked : t.isLocked ctx.now = true)
    (code : String) (s : Store) : verdict (serve (tryCode env ctx t code) s).1 ≠ .ok true := by
  have htotp : ∃ answers, serve (tryTOTP env ctx t code) s = ((answers, t), s) ∧
      answers.any isOk = false := by
    cases hnum : validateNumericCode code with
    | ok clean =>
      refine ⟨[.error (t.lockedError env)], ?_, rfl⟩
      rw [serve_tryTOTP_numeric env ctx t hnum, TwoFA.serve_validateTOTP_locked env hlocked]
    | error msg => exact ⟨[], serve_tryTOTP_other env ctx t hnum s, rfl⟩
  obtain ⟨answers, htotp, hnone⟩ := htotp
  rw [serve_tryCode_go htotp hnone, TwoFA.serve_validateBackup_locked env hlocked, verdict_error]
  intro h
  exact nomatch h

/-- **When the two validators together accept.** -/
theorem serve_tryCode (env : Env) (ctx : Ctx) (t : TwoFA) (code : String) (s : Store) :
    verdict (serve (tryCode env ctx t code) s).1 = .ok true
      ↔ CodeAccepted env ctx.now s t code := by
  unfold CodeAccepted
  cases hlocked : t.isLocked ctx.now with
  | true =>
    constructor
    · intro h
      exact absurd h (serve_tryCode_locked env ctx hlocked code s)
    · rintro ⟨hfree, -⟩
      cases hfree
  | false =>
    cases hnum : validateNumericCode code with
    | ok clean =>
      rw [serve_tryCode_numeric env ctx hnum hlocked, isTOTP_iff hnum]
      have hform := not_both_formats hnum
      unfold IsBackupCode
      rw [hform]
      simp
    | error msg =>
      have hno : ¬ IsTOTP env ctx.now t code := by
        rintro ⟨clean, hclean, -⟩
        rw [hnum] at hclean
        cases hclean
      rw [serve_tryCode_other env ctx hnum hlocked, serve_validateBackupCode]
      unfold IsBackupCode
      constructor
      · rintro ⟨hform, hfirst, hsecond, hcode⟩
        exact ⟨rfl, Or.inr ⟨⟨hform, hcode⟩, hfirst, hsecond⟩⟩
      · rintro ⟨-, htotp | ⟨⟨hform, hcode⟩, hfirst, hsecond⟩⟩
        · exact absurd htotp hno
        · exact ⟨hform, hfirst, hsecond, hcode⟩

/-- The record of a user who has two-factor authentication switched on. -/
def enabledTwoFA : Except Err (Option TwoFA) → Except Err TwoFA
  | .error e => .error e
  | .ok (some twoFA) => if twoFA.isEnabled then .ok twoFA else .error (.new "用户未启用2FA")
  | .ok none => .error (.new "用户未启用2FA")

/-- `key` is the secret of `GenerateTOTPSecret` with its QR code data. -/
def setup2FA (ctx : Ctx) (s : Sess) (key : Except Err (String × String)) : M Out := do
  match ← getTwoFAByUserId ctx.id with
  | .error e => return s.apiError e
  | .ok existing =>
    if (existing.any TwoFA.isEnabled) then
      return s.fail "用户已启用2FA，请先禁用后重新设置"
    let err ← match existing with
      | some twoFA => twoFA.delete
      | none => pure none
    match err with
    | some e => return s.apiError e
    | none =>
      match ← getUserById ctx.id false with
      | .error e => return s.apiError e
      | .ok _ =>
        match key, ctx.backupCodes with
        | .error _, _ => return s.fail "生成2FA密钥失败"
        | .ok _, .error _ => return s.fail "生成备用码失败"
        | .ok (secret, qrCodeData), .ok backupCodes =>
          match ← TwoFA.create { userId := ctx.id, secret := secret, isEnabled := false } with
          | some e => return s.apiError e
          | none =>
            match ← createBackupCodes ctx ctx.id backupCodes with
            | some _ => return s.fail "保存备用码失败"
            | none =>
              return s.answer (.json 200 true
                "2FA设置初始化成功，请使用认证器扫描二维码并输入验证码完成设置"
                (some (.obj [("secret", .str secret), ("qr_code_data", .str qrCodeData),
                  ("backup_codes", .arr (backupCodes.map .str))])))

def enable2FA (env : Env) (ctx : Ctx) (s : Sess) (req : Option String) : M Out := do
  match req with
  | none => return s.fail "参数错误"
  | some code =>
    match ← getTwoFAByUserId ctx.id with
    | .error e => return s.apiError e
    | .ok none => return s.fail "请先完成2FA初始化设置"
    | .ok (some twoFA) =>
      if twoFA.isEnabled then return s.fail "2FA已经启用"
      match validateNumericCode code with
      | .error msg => return s.fail msg
      | .ok cleanCode =>
        if !validateTOTPCode (env.totpValidate ctx.now) twoFA.secret cleanCode then
          return s.fail "验证码或备用码错误，请重试"
        match ← twoFA.enable with
        | some e => return s.apiError e
        | none => return s.answer (.done "两步验证启用成功")

def disable2FA (env : Env) (ctx : Ctx) (s : Sess) (req : Option String) : M Out := do
  match req with
  | none => return s.fail "参数错误"
  | some code =>
    match enabledTwoFA (← getTwoFAByUserId ctx.id) with
    | .error e => return s.apiError e
    | .ok twoFA =>
      let answers ← tryCode env ctx twoFA code
      let checks := checksOf ctx.id answers
      match verdict answers with
      | .error e => return (s.apiError e).withChecks checks
      | .ok false => return (s.fail "验证码或备用码错误，请重试").withChecks checks
      | .ok true =>
        match ← disableTwoFA ctx.id with
        | some e => return (s.apiError e).withChecks checks
        | none => return (s.answer (.done "两步验证已禁用")).withChecks checks

/-- Only a TOTP code is taken here. -/
def regenerateBackupCodes (env : Env) (ctx : Ctx) (s : Sess) (req : Option String) : M Out := do
  match req with
  | none => return s.fail "参数错误"
  | some code =>
    match enabledTwoFA (← getTwoFAByUserId ctx.id) with
    | .error e => return s.apiError e
    | .ok twoFA =>
      match validateNumericCode code with
      | .error msg => return s.fail msg
      | .ok cleanCode =>
        let (r, _) ← twoFA.validateTOTPAndUpdateUsage env ctx cleanCode
        let checks := checksOf ctx.id [r]
        match r with
        | .error e => return (s.apiError e).withChecks checks
        | .ok false => return (s.fail "验证码或备用码错误，请重试").withChecks checks
        | .ok true =>
          match ctx.backupCodes with
          | .error _ => return (s.fail "生成备用码失败").withChecks checks
          | .ok backupCodes =>
            match ← createBackupCodes ctx ctx.id backupCodes with
            | some _ => return (s.fail "保存备用码失败").withChecks checks
            | none =>
              return (s.answer (.json 200 true "备用码重新生成成功"
                (some (.obj [("backup_codes", .arr (backupCodes.map .str))])))).withChecks checks

/-- The second step of a password login, for the user the session has pending. -/
def verify2FALogin (env : Env) (ctx : Ctx) (s : Sess) (req : Option String) : M Out := do
  match req with
  | none => return s.fail "参数错误"
  | some code =>
    match s.cur.pendingUserId with
    | none => return s.fail "会话已过期，请重新登录"
    | some userId =>
      match ← getUserById userId false with
      | .error _ => return s.fail "用户不存在"
      | .ok user =>
        match enabledTwoFA (← getTwoFAByUserId (show User from user).id) with
        | .error e => return s.apiError e
        | .ok twoFA =>
          let answers ← tryCode env ctx twoFA code
          let checks := checksOf (show User from user).id answers
          match verdict answers with
          | .error e => return (s.apiError e).withChecks checks
          | .ok false => return (s.fail "验证码或备用码错误，请重试").withChecks checks
          | .ok true =>
            return (setupLogin env ((s.set Session.unpend).save env).2 user).withChecks checks

/-- The code fits the user's enabled record or one of the unused backup codes. -/
def Presents (env : Env) (db : DB) (now userId : Int) (code : String) : Prop :=
  ∃ t ∈ db.twoFAs, t.live = true ∧ t.userId = userId ∧ t.isEnabled = true ∧
    (IsTOTP env now t code ∨ IsBackupCode env db userId code)

theorem enabledTwoFA_ok {found : Except Err (Option TwoFA)} {t : TwoFA}
    (h : enabledTwoFA found = .ok t) : found = .ok (some t) ∧ t.isEnabled = true := by
  unfold enabledTwoFA at h
  split at h
  · cases h
  · split at h
    · rename_i henabled
      obtain rfl := Except.ok.inj h
      exact ⟨rfl, henabled⟩
    · cases h
  · cases h

/-- **What `Verify2FALogin` can do**: refuse and keep the cookie, or sign in the
user whom the session has pending and whose code it accepted. -/
theorem verify2FALogin_sat (env : Env) (ctx : Ctx) (s : Sess) (req : Option String) (db : DB) :
    Sat (verify2FALogin env ctx s req) (fun out db' => db'.users = db.users ∧
      (out.login = none ∧ out.cookie = s.saved ∨
        ∃ row ∈ db.users, row.live = true ∧ s.cur.pendingUserId = some row.id ∧
          (∃ code, req = some code ∧ Presents env db ctx.now row.id code) ∧
          (row.id, .ok true) ∈ out.checks ∧ out.login = some row.omitPassword ∧
          (out.cookie = ((s.set Session.unpend).save env).2.saved ∨
            out.cookie = Session.signIn row.omitPassword s.cur.unpend))) db := by
  unfold verify2FALogin
  cases req with
  | none => exact Sat.pure ⟨rfl, Or.inl ⟨rfl, rfl⟩⟩
  | some code =>
    dsimp only
    cases hpend : s.cur.pendingUserId with
    | none => exact Sat.pure ⟨rfl, Or.inl ⟨rfl, rfl⟩⟩
    | some userId =>
      refine (getUserById_sat userId false db).bind ?_
      rintro r db₁ ⟨rfl, hrow⟩
      cases r with
      | error e => exact Sat.pure ⟨rfl, Or.inl ⟨rfl, rfl⟩⟩
      | ok u =>
        obtain ⟨row, hmem, hlive, rfl, rfl⟩ := hrow u rfl
        refine (getTwoFAByUserId_sat _ db₁).bind ?_
        rintro found db₂ ⟨rfl, hfound⟩
        cases henabled : enabledTwoFA found with
        | error e => exact Sat.pure ⟨rfl, Or.inl ⟨rfl, rfl⟩⟩
        | ok twoFA =>
          obtain ⟨rfl, hon⟩ := enabledTwoFA_ok henabled
          obtain ⟨hmemTwoFA, hliveTwoFA, huser⟩ := hfound twoFA rfl
          refine (((tryCode_sparesUsers env ctx twoFA code).sat db₂).and
            (tryCode_sat env ctx twoFA code db₂)).bind ?_
          rintro answers db₃ ⟨hdb, hcode⟩
          split
          · exact Sat.pure ⟨hdb, Or.inl ⟨rfl, rfl⟩⟩
          · exact Sat.pure ⟨hdb, Or.inl ⟨rfl, rfl⟩⟩
          · rename_i hok
            have hcookie := setupLogin_cookie env ((s.set Session.unpend).save env).2
              row.omitPassword
            rw [Sess.cur_save] at hcookie
            have hpresents : Presents env db₂ ctx.now row.id code := by
              have hcode' := hcode (any_isOk_of_verdict hok)
              rw [huser] at hcode'
              exact ⟨twoFA, hmemTwoFA, hliveTwoFA, huser, hon, hcode'⟩
            exact Sat.pure ⟨hdb, Or.inr ⟨row, hmem, hlive, rfl, ⟨code, rfl, hpresents⟩,
              mem_checksOf (any_isOk_of_verdict hok), setupLogin_login _ _ _, hcookie⟩⟩

/-- A failed read of the account or of the record refuses the login. -/
theorem serve_verify2FALogin_down (env : Env) (ctx : Ctx) (s : Sess) (req : Option String)
    {row : User} {st : Store} (hmem : row ∈ st.db.users) (hlive : row.live = true)
    (hpend : s.cur.pendingUserId = some row.id) {e : Err}
    (h : st.outages 0 = some e ∨ st.outages 1 = some e) :
    (serve (verify2FALogin env ctx s req) st).1.login = none := by
  unfold verify2FALogin
  cases req with
  | none => rfl
  | some code =>
    rw [hpend]
    dsimp only
    rw [serve_bind]
    cases hfirst : st.outages 0 with
    | some e' =>
      have hdown : ∃ e'', (serve (getUserById row.id false) st).1 = .error e'' :=
        serve_getUserById_down hfirst
      obtain ⟨e'', he⟩ := hdown
      rw [he]
      rfl
    | none =>
      have hsecond : st.outages 1 = some e := by
        rcases h with h | h
        · rw [hfirst] at h
          exact nomatch h
        · exact h
      rw [serve_getUserById_up hfirst hmem hlive rfl]
      dsimp only
      rw [serve_bind]
      cases hfound : enabledTwoFA (serve (getTwoFAByUserId (if false = true then row
          else row.omitPassword).id) st.rest).1 with
      | error e' => rfl
      | ok t =>
        have hno : (serve (getTwoFAByUserId row.id) st.rest).1 ≠ .ok (some t) :=
          serve_getTwoFAByUserId_down hsecond t
        exact absurd (enabledTwoFA_ok hfound).1 hno

/-- With the account and the record read, the code decides. -/
theorem serve_verify2FALogin_up (env : Env) (ctx : Ctx) (s : Sess) (code : String) {row : User}
    {t : TwoFA} {st : Store} (hfirst : st.outages 0 = none) (hsecond : st.outages 1 = none)
    (hmem : row ∈ st.db.users) (hlive : row.live = true)
    (hpend : s.cur.pendingUserId = some row.id) (htmem : t ∈ st.db.twoFAs) (htlive : t.live = true)
    (htuser : t.userId = row.id) (hon : t.isEnabled = true) (u : User) :
    (serve (verify2FALogin env ctx s (some code)) st).1.login = some u
      ↔ u = row.omitPassword ∧ CodeAccepted env ctx.now st.rest.rest t code := by
  have hid : t.userId ≠ 0 := by
    rw [htuser]
    exact ne_of_gt (Table.key_pos hmem)
  have hrecord := serve_getTwoFAByUserId_up (s := st.rest) hid hsecond htmem htlive
  rw [htuser] at hrecord
  have henabled : enabledTwoFA (.ok (some t)) = .ok t := if_pos hon
  unfold verify2FALogin
  rw [hpend]
  dsimp only
  rw [serve_bind, serve_getUserById_up hfirst hmem hlive rfl]
  dsimp only
  rw [serve_bind, show (if false = true then row else row.omitPassword).id = row.id from rfl,
    hrecord, henabled]
  dsimp only
  rw [serve_bind, ← serve_tryCode env ctx t code]
  cases verdict (serve (tryCode env ctx t code) st.rest.rest).1 with
  | error e =>
    constructor
    · intro h
      exact nomatch h
    · intro h
      exact nomatch h.2
  | ok accepted =>
    cases accepted with
    | false =>
      constructor
      · intro h
        exact nomatch h
      · intro h
        exact nomatch h.2
    | true =>
      dsimp only
      rw [serve_pure, Out.withChecks_login, setupLogin_login]
      constructor
      · intro h
        exact ⟨(Option.some.inj h).symm, rfl⟩
      · intro h
        rw [h.1]
        rfl

/-- **When `Verify2FALogin` signs in, and whom**: the user pending in the session,
whose row and enabled record are read, and whose code is accepted. -/
theorem serve_verify2FALogin (env : Env) (ctx : Ctx) (s : Sess) (req : Option String) (u : User)
    (st : Store) :
    (serve (verify2FALogin env ctx s req) st).1.login = some u ↔
      st.outages 0 = none ∧ st.outages 1 = none ∧ ∃ code, req = some code ∧
        ∃ row ∈ st.db.users, row.live = true ∧ s.cur.pendingUserId = some row.id ∧
          u = row.omitPassword ∧ ∃ t ∈ st.db.twoFAs, t.live = true ∧ t.userId = row.id ∧
            t.isEnabled = true ∧ CodeAccepted env ctx.now st.rest.rest t code := by
  constructor
  · intro hlogin
    obtain ⟨-, ⟨hnone, -⟩ | ⟨row, hmem, hlive, hpend, ⟨code, rfl, hpresents⟩, -, -, -⟩⟩ :=
      (verify2FALogin_sat env ctx s req st.db).serve
    · rw [hnone] at hlogin
      exact nomatch hlogin
    obtain ⟨t, htmem, htlive, htuser, hon, -⟩ := hpresents
    have hup : ∀ e, ¬ (st.outages 0 = some e ∨ st.outages 1 = some e) := by
      intro e he
      have hnone := serve_verify2FALogin_down env ctx s (some code) hmem hlive hpend he
      rw [hnone] at hlogin
      exact nomatch hlogin
    have hfirst : st.outages 0 = none := by
      cases h : st.outages 0 with
      | none => rfl
      | some e => exact absurd (Or.inl h) (hup e)
    have hsecond : st.outages 1 = none := by
      cases h : st.outages 1 with
      | none => rfl
      | some e => exact absurd (Or.inr h) (hup e)
    obtain ⟨hu, haccepted⟩ := (serve_verify2FALogin_up env ctx s code hfirst hsecond hmem hlive
      hpend htmem htlive htuser hon u).mp hlogin
    exact ⟨hfirst, hsecond, code, rfl, row, hmem, hlive, hpend, hu, t, htmem, htlive, htuser, hon,
      haccepted⟩
  · rintro ⟨hfirst, hsecond, code, rfl, row, hmem, hlive, hpend, hu, t, htmem, htlive, htuser, hon,
      haccepted⟩
    exact (serve_verify2FALogin_up env ctx s code hfirst hsecond hmem hlive hpend htmem htlive
      htuser hon u).mpr ⟨hu, haccepted⟩

def adminDisable2FA (ctx : Ctx) (s : Sess) (idParam : String) : M Out := do
  match atoi idParam with
  | (_, some _) => return s.fail "用户ID格式错误"
  | (userId, none) =>
    match ← getUserById userId false with
    | .error e => return s.apiError e
    | .ok targetUser =>
      if outranked ctx.role (show User from targetUser).role then
        return s.fail "无权操作同级或更高级用户的2FA设置"
      match ← disableTwoFA userId with
      | some .twoFANotEnabled => return s.fail "用户未启用2FA"
      | some e => return s.apiError e
      | none => return s.answer (.done "用户2FA已被强制禁用")

end AuthGateway.Controller
