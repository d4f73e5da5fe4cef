import AuthGateway.Model.TwoFA

/-!
# controller/user.go: accounts

Password login, the handlers an account has for itself, and the handlers an
administrator has for the others.  A handler is a program that ends in an `Out`;
the request body comes decoded, `none` where the decoder refused it.
-/

namespace AuthGateway.Controller

open Common Model GoString

/-! ### Login and logout -/

structure LoginRequest where
  username : String
  password : String

/-- Set up the session and return the public part of the account. -/
def setupLogin (env : Env) (s : Sess) (user : User) : Out :=
  match (s.set (Session.signIn user)).save env with
  | (some _, s) => { s.fail "无法保存会话信息，请重试" with login := some user }
  | (none, s) =>
    let cleanUser : User :=
      { id := user.id
        username := user.username
        displayName := user.displayName
        role := user.role
        status := user.status
        group := user.group }
    { s.answer (.apiSuccess cleanUser.toJson) with login := some user }

@[simp] theorem setupLogin_login (env : Env) (s : Sess) (user : User) :
    (setupLogin env s user).login = some user := by
  unfold setupLogin
  split <;> rfl

@[simp] theorem setupLogin_checks (env : Env) (s : Sess) (user : User) :
    (setupLogin env s user).checks = [] := by
  unfold setupLogin
  split <;> rfl

/-- The cookie after `setupLogin`: as it was last saved, or signed in. -/
theorem setupLogin_cookie (env : Env) (s : Sess) (user : User) :
    (setupLogin env s user).cookie = s.saved ∨
      (setupLogin env s user).cookie = Session.signIn user s.cur := by
  have h := Sess.saved_save env (s.set (Session.signIn user))
  unfold setupLogin
  split
  · rename_i hsave
    rw [hsave] at h
    exact h
  · rename_i hsave
    rw [hsave] at h
    exact h

def login (env : Env) (s : Sess) (req : Option LoginRequest) : M Out := do
  if !env.cfg.passwordLoginEnabled then return s.fail "管理员关闭了密码登录"
  match req with
  | none => return s.fail "无效的参数"
  | some ⟨username, password⟩ =>
    if username = "" ∨ password = "" then return s.fail "无效的参数"
    let (err, user) ← User.validateAndFill env { username := username, password := password }
    match err with
    | some e => return s.apiError e
    | none =>
      if ← isTwoFAEnabled user.id then
        match (s.set (Session.pend user)).save env with
        | (some _, s) => return s.fail "无法保存会话信息，请重试"
        | (none, s) =>
          return s.answer (.json 200 true "请输入两步验证码" (some (.obj [("require_2fa", .bool true)])))
      else
        return setupLogin env s user

/-- `ValidateAndFill` passed for the account `u`. -/
def Validates (env : Env) (s : Store) (r : LoginRequest) (u : User) : Prop :=
  (serve (User.validateAndFill env { username := r.username, password := r.password }) s).1
    = (none, u)

theorem Validates.row {env : Env} {s : Store} {r : LoginRequest} {u : User}
    (h : Validates env s r u) : u ∈ s.db.users ∧ u.live = true ∧ u.status = userStatusEnabled := by
  have hacc := ((serve_validateAndFill env r.username r.password u s).mp h).2
  exact ⟨hacc.row.1, hacc.row.2, hacc.2.2.2.2⟩

/-- **What `Login` does**: refuse; leave a user whose password it checked
pending; or sign that user in, when two-factor authentication is read as off. -/
theorem serve_login (env : Env) (s : Sess) (req : Option LoginRequest) (st : Store) :
    (∃ reply, (serve (login env s req) st).1 = s.answer reply) ∨
      env.cfg.passwordLoginEnabled = true ∧ ∃ r u, req = some r ∧ Validates env st r u ∧
        ((∃ reply, (serve (login env s req) st).1
            = ((s.set (Session.pend u)).save env).2.answer reply) ∨
          (serve (isTwoFAEnabled u.id) st.rest).1 = false ∧
            (serve (login env s req) st).1 = setupLogin env s u) := by
  unfold login
  by_cases hoff : (!env.cfg.passwordLoginEnabled) = true
  · rw [if_pos hoff]
    exact Or.inl ⟨_, rfl⟩
  rw [if_neg hoff]
  rw [Bool.not_eq_true', Bool.not_eq_false] at hoff
  cases req with
  | none => exact Or.inl ⟨_, rfl⟩
  | some r =>
    dsimp only
    by_cases hempty : r.username = "" ∨ r.password = ""
    · rw [if_pos hempty]
      exact Or.inl ⟨_, rfl⟩
    rw [if_neg hempty, serve_bind]
    cases hval : (serve (User.validateAndFill env
        { username := r.username, password := r.password }) st).1 with
    | mk err u =>
      cases err with
      | some e => exact Or.inl ⟨_, rfl⟩
      | none =>
        refine Or.inr ⟨hoff, r, u, rfl, hval, ?_⟩
        dsimp only
        rw [serve_bind, serve_validateAndFill_rest hval]
        cases henabled : (serve (isTwoFAEnabled u.id) st.rest).1 with
        | false => exact Or.inr ⟨rfl, rfl⟩
        | true =>
          refine Or.inl ?_
          rw [if_pos rfl]
          cases hsave : (s.set (Session.pend u)).save env with
          | mk err s' => cases err <;> exact ⟨_, rfl⟩

/-- A request that passes both is signed in. -/
theorem serve_login_of_validates {env : Env} {s : Sess} {r : LoginRequest} {u : User} {st : Store}
    (hon : env.cfg.passwordLoginEnabled = true) (hname : r.username ≠ "")
    (hval : Validates env st r u) (hoff : (serve (isTwoFAEnabled u.id) st.rest).1 = false) :
    (serve (login env s (some r)) st).1 = setupLogin env s u := by
  have hpassword := ((serve_validateAndFill env r.username r.password u st).mp hval).2.2.1
  have hempty : ¬ (r.username = "" ∨ r.password = "") := by
    rw [not_or]
    exact ⟨hname, hpassword⟩
  unfold login
  rw [hon, Bool.not_true, if_neg Bool.false_ne_true]
  dsimp only
  rw [if_neg hempty, serve_bind, show (serve (User.validateAndFill env
    { username := r.username, password := r.password }) st).1 = (none, u) from hval]
  dsimp only
  rw [serve_bind, serve_validateAndFill_rest hval, hoff]
  rfl

/-- `Login` only reads. -/
theorem login_readOnly (env : Env) (s : Sess) (req : Option LoginRequest) :
    ReadOnly (login env s req) := by
  unfold login
  split
  · exact Prog.Only.pure
  · cases req with
    | none => exact Prog.Only.pure
    | some r =>
      dsimp only
      split
      · exact Prog.Only.pure
      · refine (User.validateAndFill_readOnly env _).bind fun r => ?_
        obtain ⟨err, u⟩ := r
        cases err with
        | some e => exact Prog.Only.pure
        | none =>
          refine (isTwoFAEnabled_readOnly u.id).bind fun enabled => ?_
          dsimp only
          split
          · split <;> exact Prog.Only.pure
          · exact Prog.Only.pure

def logout (env : Env) (s : Sess) : Out :=
  match (s.set fun _ => {}).save env with
  | (some e, s) => s.apiError e
  | (none, s) => s.answer (.done "")

/-! ### One's own account -/

def generateAccessToken (ctx : Ctx) (s : Sess) : M Out := do
  match ← getUserById ctx.id true with
  | .error e => return s.apiError e
  | .ok user =>
    match ctx.randomKey with
    | .error _ => return s.fail "生成失败"
    | .ok key =>
      let user : User := { user with accessToken := some key }
      -- the id in the struct is a condition too: only the caller's own row can match
      let (err, user) ← user.first false fun u => u.accessToken == some key
      if err = none then return s.fail "请重试，系统生成的 UUID 竟然重复了！"
      let (err, user) ← user.update ctx false
      match err with
      | some e => return s.apiError e
      | none => return s.answer (.apiSuccess (.ofOption .str user.accessToken))

/-- What the body of `UpdateSelf` asks for: the sidebar, with its text when it
is a string, or the fields of an account. -/
inductive UpdateSelfRequest
  | sidebar (modules : Option String)
  | account (user : User)

def sidebarUpdate (env : Env) (ctx : Ctx) (s : Sess) (modules : Option String) : M Out := do
  match ← getUserById ctx.id false with
  | .error e => return s.apiError e
  | .ok user =>
    let setting := User.getSetting env user
    let setting := match modules with
      | some text => { setting with sidebarModules := text }
      | none => setting
    let (err, _) ← (User.setSetting env user setting).update ctx false
    match err with
    | some e => return s.fail ("更新设置失败: " ++ e.error)
    | none => return s.answer (.done "设置更新成功")

/-! ### Validation of a body -/

/-- A failed field of `common.Validate.Struct`, in the library's words. -/
def fieldError (field tag : String) : String :=
  "Key: 'User." ++ field ++ "' Error:Field validation for '" ++ field ++ "' failed on the '"
    ++ tag ++ "' tag"

def maxTag (field value : String) (bound : Nat) : List String :=
  if bound < value.toList.length then [fieldError field "max"] else []

/-- `common.Validate.Struct(&user)`: the text of its error, if there is one. -/
def validateStruct (u : User) : Option String :=
  match maxTag "Username" u.username 20
    ++ (if u.password.toList.length < 8 then [fieldError "Password" "min"]
        else maxTag "Password" u.password 20)
    ++ maxTag "DisplayName" u.displayName 20 ++ maxTag "Email" u.email 50
    ++ maxTag "Remark" u.remark 255 with
  | [] => none
  | errs => some ("\n".intercalate errs)

/-- Stands for "no new password" while the validator looks at the body. -/
def iLoveU : String := "$I_LOVE_U"

def checkUpdatePassword (env : Env) (originalPassword newPassword : String) (userId : Int) :
    M (Except Err Bool) := do
  match ← getUserById userId true with
  | .error e => return .error e
  | .ok currentUser =>
    if !env.bcryptCompare (show User from currentUser).password originalPassword then
      return .error (.new "原密码错误")
    return .ok (newPassword != "")

def accountUpdate (env : Env) (ctx : Ctx) (s : Sess) (user : User) : M Out := do
  let user := if user.password = "" then { user with password := iLoveU } else user
  match validateStruct user with
  | some text => return s.fail ("输入不合法 " ++ text)
  | none =>
    let password := if user.password = iLoveU then "" else user.password
    let cleanUser : User :=
      { id := ctx.id
        username := user.username
        password := password
        displayName := user.displayName }
    match ← checkUpdatePassword env user.originalPassword password ctx.id with
    | .error e => return s.apiError e
    | .ok updatePassword =>
      let (err, _) ← cleanUser.update ctx updatePassword
      match err with
      | some e => return s.apiError e
      | none => return s.answer (.done "")

def updateSelf (env : Env) (ctx : Ctx) (s : Sess) (req : Option UpdateSelfRequest) : M Out := do
  match req with
  | none => return s.fail "无效的参数"
  | some (.sidebar modules) => sidebarUpdate env ctx s modules
  | some (.account user) => accountUpdate env ctx s user

/-- The code that `EmailBind` checks first is a parameter: whether
`common.VerifyCodeWithKey` accepts it. -/
def emailBind (ctx : Ctx) (s : Sess) (email : String) (codeAccepted : Bool) : M Out := do
  if !codeAccepted then return s.fail "验证码错误或已过期"
  match s.cur.id with
  | none => return s.answer .panicked
  | some id =>
    let (err, user) ← User.fillUserById { id := id }
    match err with
    | some e => return s.apiError e
    | none =>
      let (err, _) ← User.update ctx { user with email := email } false
      match err with
      | some e => return s.apiError e
      | none => return s.answer (.done "")

/-- Whether `common.VerifyCodeWithKey` accepts the code is a parameter again. -/
def register (env : Env) (ctx : Ctx) (s : Sess) (req : Option User) (codeAccepted : Bool) :
    M Out := do
  if !env.cfg.registerEnabled then return s.fail "管理员关闭了新用户注册"
  if !env.cfg.passwordRegisterEnabled then
    return s.fail "管理员关闭了通过密码进行注册，请使用第三方账户验证的形式进行注册"
  match req with
  | none => return s.fail "无效的参数"
  | some user =>
    match validateStruct user with
    | some text => return s.fail ("输入不合法 " ++ text)
    | none =>
      if env.cfg.emailVerificationEnabled && (user.email == "" || user.verificationCode == "") then
        return s.fail "管理员开启了邮箱验证，请输入邮箱地址和验证码"
      if env.cfg.emailVerificationEnabled && !codeAccepted then
        return s.fail "验证码错误或已过期"
      match ← checkUserExistOrDeleted user.username user.email with
      | .error _ => return s.fail "数据库错误，请稍后重试"
      | .ok exist =>
        if exist then return s.fail "用户名已存在，或已注销"
        -- the code in the body is the inviter's
        let inviterId ← getUserIdByAffCode user.affCode
        let cleanUser : User :=
          { username := user.username
            password := user.password
            displayName := user.username
            inviterId := inviterId
            role := roleCommonUser
            email := if env.cfg.emailVerificationEnabled then user.email else "" }
        let (err, _) ← cleanUser.insert env ctx inviterId
        match err with
        | some e => return s.apiError e
        | none => return s.answer (.done "")

def getAffCode (ctx : Ctx) (s : Sess) : M Out := do
  match ← getUserById ctx.id true with
  | .error e => return s.apiError e
  | .ok user =>
    if (show User from user).affCode = "" then
      let (err, user) ← User.update ctx { user with affCode := ctx.randomString } false
      match err with
      | some e => return s.fail e.error
      | none => return s.answer (.apiSuccess (.str user.affCode))
    else return s.answer (.apiSuccess (.str (show User from user).affCode))

/-- The error of the lookup is dropped; only with an id of zero there is no
struct at all. -/
def deleteSelf (ctx : Ctx) (s : Sess) : M Out := do
  if ctx.id = 0 then return s.answer .panicked
  let role ← do
    match ← getUserById ctx.id false with
    | .error _ => pure 0
    | .ok user => pure (show User from user).role
  if role = roleRootUser then return s.fail "不能删除超级管理员账户"
  match ← deleteUserById ctx ctx.id with
  | some e => return s.apiError e
  | none => return s.answer (.done "")

/-! ### Notification settings -/

structure UpdateUserSettingRequest where
  quotaWarningType : String
  quotaWarningThreshold : Rat
  webhookUrl : String := ""
  webhookSecret : String := ""
  notificationEmail : String := ""
  barkUrl : String := ""
  gotifyUrl : String := ""
  gotifyToken : String := ""
  gotifyPriority : Int := 0
  acceptUnsetModelRatioModel : Bool := false
  recordIpLog : Bool := false

def notifyTypeEmail : String := "email"
def notifyTypeWebhook : String := "webhook"
def notifyTypeBark : String := "bark"
def notifyTypeGotify : String := "gotify"

def isHttp (u : String) : Bool := hasPrefix u "https://" || hasPrefix u "http://"

/-- What is wrong with the request, if anything. -/
def checkUserSetting (env : Env) (req : UpdateUserSettingRequest) : Option String :=
  if req.quotaWarningType ≠ notifyTypeEmail ∧ req.quotaWarningType ≠ notifyTypeWebhook
      ∧ req.quotaWarningType ≠ notifyTypeBark ∧ req.quotaWarningType ≠ notifyTypeGotify then
    some "无效的预警类型"
  else if req.quotaWarningThreshold ≤ 0 then some "预警阈值必须大于0"
  else if req.quotaWarningType = notifyTypeWebhook then
    if req.webhookUrl = "" then some "Webhook地址不能为空"
    else if !env.parseRequestURI req.webhookUrl then some "无效的Webhook地址"
    else none
  else if req.quotaWarningType = notifyTypeEmail then
    if req.notificationEmail ≠ "" ∧ !contains req.notificationEmail '@' then some "无效的邮箱地址"
    else none
  else if req.quotaWarningType = notifyTypeBark then
    if req.barkUrl = "" then some "Bark推送URL不能为空"
    else if !env.parseRequestURI req.barkUrl then some "无效的Bark推送URL"
    else if !isHttp req.barkUrl then some "Bark推送URL必须以http://或https://开头"
    else none
  else
    if req.gotifyUrl = "" then some "Gotify服务器地址不能为空"
    else if req.gotifyToken = "" then some "Gotify令牌不能为空"
    else if !env.parseRequestURI req.gotifyUrl then some "无效的Gotify服务器地址"
    else if !isHttp req.gotifyUrl then some "Gotify服务器地址必须以http://或https://开头"
    else none

/-- The settings a request asks for: only those of its own type are taken over. -/
def requestedSetting (req : UpdateUserSettingRequest) : UserSetting :=
  let webhook := req.quotaWarningType = notifyTypeWebhook
  let gotify := req.quotaWarningType = notifyTypeGotify
  { notifyType := req.quotaWarningType
    quotaWarningThreshold := req.quotaWarningThreshold
    acceptUnsetRatioModel := req.acceptUnsetModelRatioModel
    recordIpLog := req.recordIpLog
    webhookUrl := if webhook then req.webhookUrl else ""
    webhookSecret := if webhook then req.webhookSecret else ""
    notificationEmail :=
      if req.quotaWarningType = notifyTypeEmail then req.notificationEmail else ""
    barkUrl := if req.quotaWarningType = notifyTypeBark then req.barkUrl else ""
    gotifyUrl := if gotify then req.gotifyUrl else ""
    gotifyToken := if gotify then req.gotifyToken else ""
    gotifyPriority :=
      if gotify then
        if req.gotifyPriority < 0 ∨ 10 < req.gotifyPriority then 5 else req.gotifyPriority
      else 0 }

def updateUserSetting (env : Env) (ctx : Ctx) (s : Sess)
    (req : Option UpdateUserSettingRequest) : M Out := do
  match req with
  | none => return s.fail "无效的参数"
  | some req =>
    match checkUserSetting env req with
    | some msg => return s.fail msg
    | none =>
      match ← getUserById ctx.id true with
      | .error e => return s.apiError e
      | .ok user =>
        let (err, _) ← (User.setSetting env user (requestedSetting req)).update ctx false
        match err with
        | some e => return s.fail ("更新设置失败: " ++ e.error)
        | none => return s.answer (.done "设置已更新")

/-! ### Administration -/

/-- The rank check of the admin handlers. -/
def outranked (myRole role : Int) : Bool := myRole ≤ role && myRole != roleRootUser

def updateUser (ctx : Ctx) (s : Sess) (req : Option User) : M Out := do
  match req with
  | none => return s.fail "无效的参数"
  | some updatedUser =>
    if updatedUser.id = 0 then return s.fail "无效的参数"
    let updatedUser :=
      if updatedUser.password = "" then { updatedUser with password := iLoveU } else updatedUser
    match validateStruct updatedUser with
    | some text => return s.fail ("输入不合法 " ++ text)
    | none =>
      match ← getUserById updatedUser.id false with
      | .error e => return s.apiError e
      | .ok originUser =>
        if outranked ctx.role (show User from originUser).role then
          return s.fail "无权更新同权限等级或更高权限等级的用户信息"
        if outranked ctx.role updatedUser.role then
          return s.fail "无权将其他用户权限等级提升到大于等于自己的权限等级"
        let updatedUser :=
          if updatedUser.password = iLoveU then { updatedUser with password := "" }
          else updatedUser
        let (err, _) ← updatedUser.edit ctx (updatedUser.password != "")
        match err with
        | some e => return s.apiError e
        | none => return s.answer (.done "")

def createUser (env : Env) (ctx : Ctx) (s : Sess) (req : Option User) : M Out := do
  match req with
  | none => return s.fail "无效的参数"
  | some user =>
    let user := { user with username := trimSpace user.username }
    if user.username = "" ∨ user.password = "" then return s.fail "无效的参数"
    match validateStruct user with
    | some text => return s.fail ("输入不合法 " ++ text)
    | none =>
      if ctx.role ≤ user.role then return s.fail "无法创建权限大于等于自己的用户"
      let cleanUser : User :=
        { username := user.username
          password := user.password
          displayName := if user.displayName = "" then user.username else user.displayName
          role := user.role }
      let (err, _) ← cleanUser.insert env ctx 0
      match err with
      | some e => return s.apiError e
      | none => return s.answer (.done "")

/-- A user may be deleted by a strictly higher rank only, root included; on
success nothing is written to the client. -/
def deleteUser (ctx : Ctx) (s : Sess) (idParam : String) : M Out := do
  match atoi idParam with
  | (_, some e) => return s.fail (e.text idParam)
  | (id, none) =>
    match ← getUserById id false with
    | .error e => return s.apiError e
    | .ok originUser =>
      if ctx.role ≤ (show User from originUser).role then
        return s.fail "无权删除同权限等级或更高权限等级的用户"
      match ← hardDeleteUserById id with
      | some _ => return s.answer (.done "")
      | none => return s.answer .none

structure ManageRequest where
  id : Int
  action : String

/-- What an action makes of the account, or why it is refused; `delete` has its
own branch in the handler, and an unknown action changes nothing. -/
def manageAction (myRole : Int) (user : User) (action : String) : Except String User :=
  if action = "disable" then
    if user.role = roleRootUser then .error "无法禁用超级管理员用户"
    else .ok { user with status := userStatusDisabled }
  else if action = "enable" then .ok { user with status := userStatusEnabled }
  else if action = "delete" then
    if user.role = roleRootUser then .error "无法删除超级管理员用户" else .ok user
  else if action = "promote" then
    if myRole ≠ roleRootUser then .error "普通管理员用户无法提升其他用户为管理员"
    else if roleAdminUser ≤ user.role then .error "该用户已经是管理员"
    else .ok { user with role := roleAdminUser }
  else if action = "demote" then
    if user.role = roleRootUser then .error "无法降级超级管理员用户"
    else if user.role = roleCommonUser then .error "该用户已经是普通用户"
    else .ok { user with role := roleCommonUser }
  else .ok user

/-- The soft delete of the `delete` action. -/
def manageDelete (ctx : Ctx) (user : User) (action : String) : M (Option Err × User) := do
  if action = "delete" then user.delete ctx else return (none, user)

def manageUser (ctx : Ctx) (s : Sess) (req : Option ManageRequest) : M Out := do
  match req with
  | none => return s.fail "无效的参数"
  | some req =>
    -- a zero id is no condition: the first row of the table is taken then
    let (_, user) ← User.first { id := req.id } true fun _ => true
    if user.id = 0 then return s.fail "用户不存在"
    if outranked ctx.role user.role then
      return s.fail "无权更新同权限等级或更高权限等级的用户信息"
    match manageAction ctx.role user req.action with
    | .error msg => return s.fail msg
    | .ok user =>
      let (err, user) ← manageDelete ctx user req.action
      match err with
      | some e => return s.apiError e
      | none =>
        let (err, user) ← user.update ctx false
        match err with
        | some e => return s.apiError e
        | none =>
          let clearUser : User := { role := user.role, status := user.status }
          return s.answer (.apiSuccess clearUser.toJson)

end AuthGateway.Controller
