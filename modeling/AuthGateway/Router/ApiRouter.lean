import AuthGateway.Common.Constants
import AuthGateway.Lib.GoString

/-!
# router/api-router.go and router/web-router.go

The routes as they are registered: a group has the path and the middlewares that
its routes begin with, and `Use` adds one to it.  Nothing but this table says
which middlewares a handler is behind.
-/

namespace AuthGateway.Router

open Common GoString

inductive Method
  | get
  | post
  | put
  | delete
deriving DecidableEq

/-- The middlewares that the routers name. -/
inductive Guard
  | gzip
  | globalAPIRateLimit
  | globalWebRateLimit
  | criticalRateLimit
  | emailVerificationRateLimit
  | turnstileCheck
  | userAuth
  | adminAuth
  | rootAuth
  | cache
deriving DecidableEq

/-- The handlers of `controller`, and what serves every other path. -/
inductive Handler
  | getSetup
  | postSetup
  | getStatus
  | testStatus
  | getNotice
  | getUserAgreement
  | getPrivacyPolicy
  | getAbout
  | getHomePageContent
  | sendEmailVerification
  | sendPasswordResetEmail
  | resetPassword
  | gitHubOAuth
  | discordOAuth
  | oidcAuth
  | linuxdoOAuth
  | generateOAuthCode
  | weChatAuth
  | weChatBind
  | emailBind
  | telegramLogin
  | telegramBind
  | universalVerify
  | getVerificationStatus
  | register
  | login
  | verify2FALogin
  | passkeyLoginBegin
  | passkeyLoginFinish
  | logout
  | getSelf
  | updateSelf
  | deleteSelf
  | generateAccessToken
  | passkeyStatus
  | passkeyRegisterBegin
  | passkeyRegisterFinish
  | passkeyVerifyBegin
  | passkeyVerifyFinish
  | passkeyDelete
  | getAffCode
  | updateUserSetting
  | get2FAStatus
  | setup2FA
  | enable2FA
  | disable2FA
  | regenerateBackupCodes
  | getAllUsers
  | searchUsers
  | getUser
  | createUser
  | manageUser
  | updateUser
  | deleteUser
  | adminResetPasskey
  | admin2FAStats
  | adminDisable2FA
  | getAllGroups
  | getOptions
  | updateOption
  | migrateConsoleSetting
  | noRoute
deriving DecidableEq

structure Route where
  method : Method
  path : String
  chain : List Guard
  handler : Handler

/-! ### Groups -/

/-- `gin.RouterGroup`. -/
structure RouterGroup where
  basePath : String
  handlers : List Guard

/-- The path of a route in a group: the parts between the slashes, and the slash
that the relative path ends with. -/
def joinPaths (absolutePath relativePath : String) : String :=
  let parts := (split '/' absolutePath ++ split '/' relativePath).filter fun part => part ≠ ""
  let finalPath := "/" ++ "/".intercalate parts
  if hasSuffix relativePath "/" && !hasSuffix finalPath "/" then finalPath ++ "/" else finalPath

namespace RouterGroup

/-- The group of the engine, before any `Use`. -/
def engine : RouterGroup := ⟨"/", []⟩

def group (g : RouterGroup) (relativePath : String) : RouterGroup :=
  ⟨joinPaths g.basePath relativePath, g.handlers⟩

def use (g : RouterGroup) (middlewares : List Guard) : RouterGroup :=
  ⟨g.basePath, g.handlers ++ middlewares⟩

def handle (g : RouterGroup) (method : Method) (relativePath : String)
    (middlewares : List Guard) (handler : Handler) : Route :=
  ⟨method, joinPaths g.basePath relativePath, g.handlers ++ middlewares, handler⟩

def get (g : RouterGroup) := g.handle .get
def post (g : RouterGroup) := g.handle .post
def put (g : RouterGroup) := g.handle .put
def delete (g : RouterGroup) := g.handle .delete

end RouterGroup

/-! ### The routes -/

/-- `SetApiRouter`. -/
def apiRoutes : List Route :=
  let apiRouter := (RouterGroup.engine.group "/api").use [.gzip, .globalAPIRateLimit]
  let userRoute := apiRouter.group "/user"
  let selfRoute := (userRoute.group "/").use [.userAuth]
  let adminRoute := (userRoute.group "/").use [.adminAuth]
  let groupRoute := (apiRouter.group "/group").use [.adminAuth]
  let optionRoute := (apiRouter.group "/option").use [.rootAuth]
  [ -- Setup and status endpoints
    apiRouter.get "/setup" [] .getSetup,
    apiRouter.post "/setup" [] .postSetup,
    apiRouter.get "/status" [] .getStatus,
    apiRouter.get "/status/test" [.adminAuth] .testStatus,
    -- Public info endpoints
    apiRouter.get "/notice" [] .getNotice,
    apiRouter.get "/user-agreement" [] .getUserAgreement,
    apiRouter.get "/privacy-policy" [] .getPrivacyPolicy,
    apiRouter.get "/about" [] .getAbout,
    apiRouter.get "/home_page_content" [] .getHomePageContent,
    -- Password reset
    apiRouter.get "/verification" [.emailVerificationRateLimit, .turnstileCheck]
      .sendEmailVerification,
    apiRouter.get "/reset_password" [.criticalRateLimit, .turnstileCheck] .sendPasswordResetEmail,
    apiRouter.post "/user/reset" [.criticalRateLimit] .resetPassword,
    -- OAuth endpoints
    apiRouter.get "/oauth/github" [.criticalRateLimit] .gitHubOAuth,
    apiRouter.get "/oauth/discord" [.criticalRateLimit] .discordOAuth,
    apiRouter.get "/oauth/oidc" [.criticalRateLimit] .oidcAuth,
    apiRouter.get "/oauth/linuxdo" [.criticalRateLimit] .linuxdoOAuth,
    apiRouter.get "/oauth/state" [.criticalRateLimit] .generateOAuthCode,
    apiRouter.get "/oauth/wechat" [.criticalRateLimit] .weChatAuth,
    apiRouter.get "/oauth/wechat/bind" [.criticalRateLimit] .weChatBind,
    apiRouter.get "/oauth/email/bind" [.criticalRateLimit] .emailBind,
    apiRouter.get "/oauth/telegram/login" [.criticalRateLimit] .telegramLogin,
    apiRouter.get "/oauth/telegram/bind" [.criticalRateLimit] .telegramBind,
    -- Universal secure verification routes
    apiRouter.post "/verify" [.userAuth, .criticalRateLimit] .universalVerify,
    apiRouter.get "/verify/status" [.userAuth] .getVerificationStatus,
    -- Public user routes
    userRoute.post "/register" [.criticalRateLimit, .turnstileCheck] .register,
    userRoute.post "/login" [.criticalRateLimit, .turnstileCheck] .login,
    userRoute.post "/login/2fa" [.criticalRateLimit] .verify2FALogin,
    userRoute.post "/passkey/login/begin" [.criticalRateLimit] .passkeyLoginBegin,
    userRoute.post "/passkey/login/finish" [.criticalRateLimit] .passkeyLoginFinish,
    userRoute.get "/logout" [] .logout,
    -- Authenticated user routes
    selfRoute.get "/self" [] .getSelf,
    selfRoute.put "/self" [] .updateSelf,
    selfRoute.delete "/self" [] .deleteSelf,
    selfRoute.get "/token" [] .generateAccessToken,
    selfRoute.get "/passkey" [] .passkeyStatus,
    selfRoute.post "/passkey/register/begin" [] .passkeyRegisterBegin,
    selfRoute.post "/passkey/register/finish" [] .passkeyRegisterFinish,
    selfRoute.post "/passkey/verify/begin" [] .passkeyVerifyBegin,
    selfRoute.post "/passkey/verify/finish" [] .passkeyVerifyFinish,
    selfRoute.delete "/passkey" [] .passkeyDelete,
    selfRoute.get "/aff" [] .getAffCode,
    selfRoute.put "/setting" [] .updateUserSetting,
    selfRoute.get "/2fa/status" [] .get2FAStatus,
    selfRoute.post "/2fa/setup" [] .setup2FA,
    selfRoute.post "/2fa/enable" [] .enable2FA,
    selfRoute.post "/2fa/disable" [] .disable2FA,
    selfRoute.post "/2fa/backup_codes" [] .regenerateBackupCodes,
    -- Admin user management routes
    adminRoute.get "/" [] .getAllUsers,
    adminRoute.get "/search" [] .searchUsers,
    adminRoute.get "/:id" [] .getUser,
    adminRoute.post "/" [] .createUser,
    adminRoute.post "/manage" [] .manageUser,
    adminRoute.put "/" [] .updateUser,
    adminRoute.delete "/:id" [] .deleteUser,
    adminRoute.delete "/:id/reset_passkey" [] .adminResetPasskey,
    adminRoute.get "/2fa/stats" [] .admin2FAStats,
    adminRoute.delete "/:id/2fa" [] .adminDisable2FA,
    -- Group routes (admin only)
    groupRoute.get "/" [] .getAllGroups,
    -- System options (root only)
    optionRoute.get "/" [] .getOptions,
    optionRoute.put "/" [] .updateOption,
    optionRoute.post "/migrate_console_setting" [] .migrateConsoleSetting ]

/-- What `SetWebRouter` puts before the paths that no route has. -/
def webChain : List Guard := [.gzip, .globalWebRateLimit, .cache]

/-- The dispatch of gin, of which only this is used: what it finds was registered. -/
structure Engine where
  find : Method → String → Option Route
  registered : ∀ {method : Method} {path : String} {route : Route},
    find method path = some route → route ∈ apiRoutes

/-- The middlewares and the handler of a request. -/
def Engine.dispatch (E : Engine) (method : Method) (path : String) : List Guard × Handler :=
  match E.find method path with
  | some route => (route.chain, route.handler)
  | none => (webChain, .noRoute)

/-! ### What the table says -/

/-- The role that a middleware asks for, if it is one of `middleware/auth.go`. -/
def Guard.role : Guard → Option Int
  | userAuth => some roleCommonUser
  | adminAuth => some roleAdminUser
  | rootAuth => some roleRootUser
  | _ => none

/-- The least role that a handler is meant for: the options are root's, the
accounts and the groups the administrators', an account of one's own everybody's. -/
def Handler.leastRole : Handler → Option Int
  | getOptions | updateOption | migrateConsoleSetting => some roleRootUser
  | testStatus | getAllUsers | searchUsers | getUser | createUser | manageUser | updateUser
  | deleteUser | adminResetPasskey | admin2FAStats | adminDisable2FA | getAllGroups =>
    some roleAdminUser
  | universalVerify | getVerificationStatus | getSelf | updateSelf | deleteSelf
  | generateAccessToken | passkeyStatus | passkeyRegisterBegin | passkeyRegisterFinish
  | passkeyVerifyBegin | passkeyVerifyFinish | passkeyDelete | getAffCode | updateUserSetting
  | get2FAStatus | setup2FA | enable2FA | disable2FA | regenerateBackupCodes => some roleCommonUser
  | _ => none

/-- The handlers that compare a password, a code or a signature without a login,
ask a provider, send a reset link, or verify somebody anew. -/
def Handler.isCritical : Handler → Bool
  | sendPasswordResetEmail | resetPassword | gitHubOAuth | discordOAuth | oidcAuth | linuxdoOAuth
  | generateOAuthCode | weChatAuth | weChatBind | emailBind | telegramLogin | telegramBind
  | universalVerify | register | login | verify2FALogin | passkeyLoginBegin
  | passkeyLoginFinish => true
  | _ => false

/-- The handlers that a robot is kept away from. -/
def Handler.isTurnstiled : Handler → Bool
  | sendEmailVerification | sendPasswordResetEmail | register | login => true
  | _ => false

/-- **Every handler is behind the authentication that it is meant for**, and
behind no other. -/
theorem chain_roles : ∀ route ∈ apiRoutes,
    route.chain.filterMap Guard.role = route.handler.leastRole.toList := by decide

theorem chain_critical : ∀ route ∈ apiRoutes, route.handler.isCritical = true →
    .criticalRateLimit ∈ route.chain := by decide

theorem chain_turnstile : ∀ route ∈ apiRoutes, route.handler.isTurnstiled = true →
    .turnstileCheck ∈ route.chain := by decide

section

variable (E : Engine) (method : Method) (path : String)

theorem dispatch_roles :
    (E.dispatch method path).1.filterMap Guard.role
      = (E.dispatch method path).2.leastRole.toList := by
  unfold Engine.dispatch
  split
  · rename_i route h
    exact chain_roles route (E.registered h)
  · rfl

theorem dispatch_critical (h : (E.dispatch method path).2.isCritical = true) :
    .criticalRateLimit ∈ (E.dispatch method path).1 := by
  unfold Engine.dispatch at h ⊢
  split at h
  · rename_i route hfind
    exact chain_critical route (E.registered hfind) h
  · exact nomatch h

theorem dispatch_turnstile (h : (E.dispatch method path).2.isTurnstiled = true) :
    .turnstileCheck ∈ (E.dispatch method path).1 := by
  unfold Engine.dispatch at h ⊢
  split at h
  · rename_i route hfind
    exact chain_turnstile route (E.registered hfind) h
  · exact nomatch h

end

/-- A dispatch by the path itself. -/
def Engine.exact : Engine where
  find method path := apiRoutes.find? fun route => route.method = method ∧ route.path = path
  registered h := List.mem_of_find?_eq_some h

end AuthGateway.Router
