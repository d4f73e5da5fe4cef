import AuthGateway.Controller.User

/-!
# Logins and bindings through other providers

`controller/github.go`, `discord.go`, `oidc.go`, `linuxdo.go`, `wechat.go` and
`telegram.go`.  The reply of a provider comes with the request; the checks the
code makes on it are here.  The five login handlers share `oauthLogin`, the
binding handlers share `bindAccount`; Telegram has a body of its own for both.
-/

namespace AuthGateway.Controller

open Common Model

/-! ### The shared bodies -/

/-- The state parameter must be the one the session was given. -/
def sameState (s : Sess) (state : String) : Bool := state != "" && s.cur.oauthState == some state

def wrongState (s : Sess) : Out := s.answer (.json 403 false "state is empty or not same" none)

/-- The gate before `setupLogin`. -/
def admitLogin (env : Env) (s : Sess) (user : User) : Out :=
  if user.status ≠ userStatusEnabled then s.fail "用户已被封禁" else setupLogin env s user

/-- Log in with an outside account: fill the row that has it, or register one. -/
def oauthLogin (env : Env) (s : Sess) (taken : M Bool) (fill : M (Option Err × User))
    (checkGone : Bool) (register : M (Option Err × User)) : M Out := do
  if ← taken then
    let (err, user) ← fill
    match err with
    | some e => return s.apiError e
    | none =>
      if checkGone && user.id == 0 then return s.fail "用户已注销"
      return admitLogin env s user
  else
    if !env.cfg.registerEnabled then return s.fail "管理员关闭了新用户注册"
    let (err, user) ← register
    match err with
    | some e => return s.apiError e
    | none => return admitLogin env s user

/-- The inviter named by the session. -/
def sessionInviter (s : Sess) : M Int :=
  match s.cur.aff with
  | none => return 0
  | some affCode => getUserIdByAffCode affCode

theorem sessionInviter_readOnly (s : Sess) : ReadOnly (sessionInviter s) := by
  unfold sessionInviter
  split
  · exact Prog.Only.pure
  · exact getUserIdByAffCode_readOnly _

/-- The name the provider gives, or a numbered one. -/
def usernameOr (preferred stem : String) : M String := do
  if preferred ≠ "" then return preferred
  return stem ++ toString ((← getMaxUserId) + 1)

theorem usernameOr_readOnly (preferred stem : String) : ReadOnly (usernameOr preferred stem) := by
  unfold usernameOr
  split
  · exact Prog.Only.pure
  · exact getMaxUserId_readOnly.bind fun _ => Prog.Only.pure

/-- Give the account of the session an outside identity: `blank` is the struct
the handler starts from, `set` writes the column of the provider. -/
def bindAccount (ctx : Ctx) (s : Sess) (taken : M Bool) (takenMsg : String) (blank : User)
    (set : User → User) (bound : Reply) : M Out := do
  if ← taken then return s.fail takenMsg
  match s.cur.id with
  | none => return s.answer .panicked
  | some id =>
    let (err, user) ← User.fillUserById { blank with id := id }
    match err with
    | some e => return s.apiError e
    | none =>
      let (err, _) ← (set user).update ctx false
      match err with
      | some e => return s.apiError e
      | none => return s.answer bound

/-- The query of a callback. -/
structure OAuthRequest where
  state : String
  code : String

/-- Give the session the state that a callback must show, and the code of the
inviter that the query names. -/
def generateOAuthCode (env : Env) (ctx : Ctx) (s : Sess) (affCode : String) : Out :=
  let s := if affCode ≠ "" then s.set fun c => { c with aff := some affCode } else s
  match (s.set fun c => { c with oauthState := some ctx.randomString }).save env with
  | (some e, s) => s.apiError e
  | (none, s) => s.answer (.apiSuccess (.str ctx.randomString))

/-! ### GitHub -/

structure GitHubUser where
  login : String
  name : String
  email : String

def getGitHubUserInfoByCode (code : String) (answer : Except Err GitHubUser) :
    Except Err GitHubUser :=
  if code = "" then .error (.new "无效的参数")
  else match answer with
    | .error e => .error e
    | .ok u => if u.login = "" then .error (.new "返回值非法，用户字段为空，请稍后重试！") else .ok u

def gitHubOff (s : Sess) : Out := s.fail "管理员未开启通过 GitHub 登录以及注册"

def gitHubBind (env : Env) (ctx : Ctx) (s : Sess) (req : OAuthRequest)
    (answer : Except Err GitHubUser) : M Out := do
  if !env.cfg.gitHubOAuthEnabled then return gitHubOff s
  match getGitHubUserInfoByCode req.code answer with
  | .error e => return s.apiError e
  | .ok githubUser =>
    bindAccount ctx s (isGitHubIdAlreadyTaken githubUser.login) "该 GitHub 账户已被绑定"
      { gitHubId := githubUser.login } (fun u => { u with gitHubId := githubUser.login })
      (.done "bind")

def gitHubOAuth (env : Env) (ctx : Ctx) (s : Sess) (req : OAuthRequest)
    (answer : Except Err GitHubUser) : M Out := do
  if !sameState s req.state then return wrongState s
  if s.cur.username.isSome then gitHubBind env ctx s req answer
  else if !env.cfg.gitHubOAuthEnabled then return gitHubOff s
  else match getGitHubUserInfoByCode req.code answer with
    | .error e => return s.apiError e
    | .ok githubUser =>
      let user : User := { gitHubId := githubUser.login }
      oauthLogin env s (isGitHubIdAlreadyTaken user.gitHubId) user.fillUserByGitHubId true do
        let maxId ← getMaxUserId
        let inviterId ← sessionInviter s
        User.insert env ctx
          { user with
            username := "github_" ++ toString (maxId + 1)
            displayName := if githubUser.name = "" then "GitHub User" else githubUser.name
            email := githubUser.email
            role := roleCommonUser
            status := userStatusEnabled } inviterId

/-! ### Discord -/

/-- `uid` is Discord's `id`, `id` its `username`. -/
structure DiscordUser where
  uid : String
  id : String
  name : String

def getDiscordUserInfoByCode (code : String) (answer : Except Err DiscordUser) :
    Except Err DiscordUser :=
  if code = "" then .error (.new "无效的参数")
  else match answer with
    | .error e => .error e
    | .ok u =>
      if u.uid = "" ∨ u.id = "" then .error (.new "Discord 获取用户信息为空！请检查设置！") else .ok u

def discordOff (s : Sess) : Out := s.fail "管理员未开启通过 Discord 登录以及注册"

def discordBind (env : Env) (ctx : Ctx) (s : Sess) (req : OAuthRequest)
    (answer : Except Err DiscordUser) : M Out := do
  if !env.cfg.discordEnabled then return discordOff s
  match getDiscordUserInfoByCode req.code answer with
  | .error e => return s.apiError e
  | .ok discordUser =>
    bindAccount ctx s (isDiscordIdAlreadyTaken discordUser.uid) "该 Discord 账户已被绑定"
      { discordId := discordUser.uid } (fun u => { u with discordId := discordUser.uid })
      (.done "bind")

/-- No role and no status are set here: the table's defaults fill them in. -/
def discordOAuth (env : Env) (ctx : Ctx) (s : Sess) (req : OAuthRequest)
    (answer : Except Err DiscordUser) : M Out := do
  if !sameState s req.state then return wrongState s
  if s.cur.username.isSome then discordBind env ctx s req answer
  else if !env.cfg.discordEnabled then return discordOff s
  else match getDiscordUserInfoByCode req.code answer with
    | .error e => return s.apiError e
    | .ok discordUser =>
      let user : User := { discordId := discordUser.uid }
      oauthLogin env s (isDiscordIdAlreadyTaken user.discordId) user.fillUserByDiscordId false do
        let username ← usernameOr discordUser.id "discord_"
        User.insert env ctx
          { user with
            username := username
            displayName := if discordUser.name = "" then "Discord User" else discordUser.name } 0

/-! ### OIDC -/

structure OidcUser where
  openID : String
  email : String
  name : String
  preferredUsername : String

def getOidcUserInfoByCode (code : String) (answer : Except Err OidcUser) : Except Err OidcUser :=
  if code = "" then .error (.new "无效的参数")
  else match answer with
    | .error e => .error e
    | .ok u =>
      if u.openID = "" ∨ u.email = "" then .error (.new "OIDC 获取用户信息为空！请检查设置！") else .ok u

def oidcOff (s : Sess) : Out := s.fail "管理员未开启通过 OIDC 登录以及注册"

def oidcBind (env : Env) (ctx : Ctx) (s : Sess) (req : OAuthRequest)
    (answer : Except Err OidcUser) : M Out := do
  if !env.cfg.oidcEnabled then return oidcOff s
  match getOidcUserInfoByCode req.code answer with
  | .error e => return s.apiError e
  | .ok oidcUser =>
    bindAccount ctx s (isOidcIdAlreadyTaken oidcUser.openID) "该 OIDC 账户已被绑定"
      { oidcId := oidcUser.openID } (fun u => { u with oidcId := oidcUser.openID })
      (.done "bind")

def oidcAuth (env : Env) (ctx : Ctx) (s : Sess) (req : OAuthRequest)
    (answer : Except Err OidcUser) : M Out := do
  if !sameState s req.state then return wrongState s
  if s.cur.username.isSome then oidcBind env ctx s req answer
  else if !env.cfg.oidcEnabled then return oidcOff s
  else match getOidcUserInfoByCode req.code answer with
    | .error e => return s.apiError e
    | .ok oidcUser =>
      let user : User := { oidcId := oidcUser.openID }
      oauthLogin env s (isOidcIdAlreadyTaken user.oidcId) user.fillUserByOidcId false do
        let username ← usernameOr oidcUser.preferredUsername "oidc_"
        User.insert env ctx
          { user with
            email := oidcUser.email
            username := username
            displayName := if oidcUser.name = "" then "OIDC User" else oidcUser.name } 0

/-! ### Linux DO -/

structure LinuxdoUser where
  id : Int
  name : String
  trustLevel : Int

def getLinuxdoUserInfoByCode (code : String) (answer : Except Err LinuxdoUser) :
    Except Err LinuxdoUser :=
  if code = "" then .error (.new "invalid code")
  else match answer with
    | .error e => .error e
    | .ok u => if u.id = 0 then .error (.new "invalid user info returned") else .ok u

def linuxDOOff (s : Sess) : Out := s.fail "管理员未开启通过 Linux DO 登录以及注册"

def linuxDoBind (env : Env) (ctx : Ctx) (s : Sess) (req : OAuthRequest)
    (answer : Except Err LinuxdoUser) : M Out := do
  if !env.cfg.linuxDOOAuthEnabled then return linuxDOOff s
  match getLinuxdoUserInfoByCode req.code answer with
  | .error e => return s.apiError e
  | .ok linuxdoUser =>
    let linuxDOId := toString linuxdoUser.id
    bindAccount ctx s (isLinuxDOIdAlreadyTaken linuxDOId) "该 Linux DO 账户已被绑定"
      { linuxDOId := linuxDOId } (fun u => { u with linuxDOId := linuxDOId })
      (.done "bind")

/-- `refusal` is the `error` of the query, with its description. -/
def linuxdoOAuth (env : Env) (ctx : Ctx) (s : Sess) (refusal : Option String)
    (req : OAuthRequest) (answer : Except Err LinuxdoUser) : M Out := do
  match refusal with
  | some errorDescription => return s.fail errorDescription
  | none =>
    if !sameState s req.state then return wrongState s
    if s.cur.username.isSome then linuxDoBind env ctx s req answer
    else if !env.cfg.linuxDOOAuthEnabled then return linuxDOOff s
    else match getLinuxdoUserInfoByCode req.code answer with
      | .error e => return s.apiError e
      | .ok linuxdoUser =>
        let user : User := { linuxDOId := toString linuxdoUser.id }
        oauthLogin env s (isLinuxDOIdAlreadyTaken user.linuxDOId) user.fillUserByLinuxDOId true do
          if linuxdoUser.trustLevel < env.cfg.linuxDOMinimumTrustLevel then
            return (some (.new "Linux DO 信任等级未达到管理员设置的最低信任等级"), user)
          let maxId ← getMaxUserId
          let inviterId ← sessionInviter s
          User.insert env ctx
            { user with
              username := "linuxdo_" ++ toString (maxId + 1)
              displayName := linuxdoUser.name
              role := roleCommonUser
              status := userStatusEnabled } inviterId

/-! ### WeChat -/

def getWeChatIdByCode (code : String) (answer : Except Err String) : Except Err String :=
  if code = "" then .error (.new "无效的参数")
  else match answer with
    | .error e => .error e
    | .ok id => if id = "" then .error (.new "验证码错误或已过期") else .ok id

def weChatOff (s : Sess) : Out := s.fail "管理员未开启通过微信登录以及注册"

def weChatBind (env : Env) (ctx : Ctx) (s : Sess) (code : String) (answer : Except Err String) :
    M Out := do
  if !env.cfg.weChatAuthEnabled then return weChatOff s
  match getWeChatIdByCode code answer with
  | .error e => return s.apiError e
  | .ok wechatId =>
    bindAccount ctx s (isWeChatIdAlreadyTaken wechatId) "该微信账号已被绑定" {}
      (fun u => { u with weChatId := wechatId }) (.done "")

/-- There is no state parameter here, and a session that is logged in is no
reason to bind. -/
def weChatAuth (env : Env) (ctx : Ctx) (s : Sess) (code : String) (answer : Except Err String) :
    M Out := do
  if !env.cfg.weChatAuthEnabled then return weChatOff s
  match getWeChatIdByCode code answer with
  | .error e => return s.apiError e
  | .ok wechatId =>
    let user : User := { weChatId := wechatId }
    oauthLogin env s (isWeChatIdAlreadyTaken wechatId) user.fillUserByWeChatId true do
      let maxId ← getMaxUserId
      User.insert env ctx
        { user with
          username := "wechat_" ++ toString (maxId + 1)
          displayName := "WeChat User"
          role := roleCommonUser
          status := userStatusEnabled } 0

/-! ### Telegram -/

/-- The first value of each query parameter. -/
abbrev Params : Type := List (String × String)

def Params.get (params : Params) (key : String) : Option String :=
  (params.find? fun p => p.1 == key).map Prod.snd

def checkTelegramAuthorization (env : Env) (params : Params) : Bool :=
  let hash := (params.get "hash").getD ""
  let strs := (params.filter fun p => p.1 != "hash").map fun p => p.1 ++ "=" ++ p.2
  let imploded := "\n".intercalate (strs.mergeSort fun a b => decide (a ≤ b))
  hash == env.telegramHMAC env.cfg.telegramBotToken imploded

def telegramOff (s : Sess) : Out := s.fail "管理员未开启通过 Telegram 登录以及注册"

def telegramBind (env : Env) (ctx : Ctx) (s : Sess) (params : Params) : M Out := do
  if !env.cfg.telegramOAuthEnabled then return telegramOff s
  if !checkTelegramAuthorization env params then return s.fail "无效的请求"
  match params.get "id" with
  | none => return s.answer .panicked
  | some telegramId =>
    if ← isTelegramIdAlreadyTaken telegramId then return s.fail "该 Telegram 账户已被绑定"
    match s.cur.id with
    | none => return s.answer .panicked
    | some id =>
      let (err, user) ← User.fillUserById { id := id }
      match err with
      | some e => return s.apiError e
      | none =>
        if user.id = 0 then return s.fail "用户已注销"
        let (err, _) ← User.update ctx { user with telegramId := telegramId } false
        match err with
        | some e => return s.apiError e
        | none => return s.answer (.redirect 302 "/console/personal")

/-- Unlike its siblings it does not look at the status. -/
def telegramLogin (env : Env) (s : Sess) (params : Params) : M Out := do
  if !env.cfg.telegramOAuthEnabled then return telegramOff s
  if !checkTelegramAuthorization env params then return s.fail "无效的请求"
  match params.get "id" with
  | none => return s.answer .panicked
  | some telegramId =>
    let (err, user) ← User.fillUserByTelegramId { telegramId := telegramId }
    match err with
    | some e => return s.apiError e
    | none => return setupLogin env s user

end AuthGateway.Controller
