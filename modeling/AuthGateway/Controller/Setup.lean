import AuthGateway.Env
import AuthGateway.Model.Option
import AuthGateway.Model.User

/-!
# controller/setup.go
-/

namespace AuthGateway.Controller

open Common Model GoString

structure SetupRequest where
  username : String
  password : String
  confirmPassword : String
  selfUseModeEnabled : Bool := false
  demoSiteEnabled : Bool := false

/-- A process with its database: the options in it, `constant.Setup`, and the
accounts. -/
structure Gateway where
  process : Process
  setup : Bool
  accounts : Store

def boolToString (b : Bool) : String := if b then "true" else "false"

/-- The account that `PostSetup` creates. -/
def rootUser (req : SetupRequest) (hashedPassword : String) : User where
  username := req.username
  password := hashedPassword
  role := roleRootUser
  status := userStatusEnabled
  displayName := "Root User"
  quota := 100000000

/-- Validate the request and create the root account: the refusal, if there is
one. -/
def createRoot (ctx : Ctx) (req : SetupRequest) : M (Option String) := do
  if 12 < len req.username then return some "用户名长度不能超过12个字符"
  if req.password ≠ req.confirmPassword then return some "两次输入的密码不一致"
  if len req.password < 8 then return some "密码长度至少为8个字符"
  match ctx.password2Hash req.password with
  | .error e => return some ("系统错误: " ++ e.error)
  | .ok hashedPassword =>
    match ← perform (.userCreate (rootUser req hashedPassword)) with
    | .error e => return some ("创建管理员账号失败: " ++ e.error)
    | .ok _ => return none

/-- The operation modes, in memory and in the table. -/
def storeModes (req : SetupRequest) (p : Process) : Process :=
  Model.updateOption "DemoSiteEnabled" (boolToString req.demoSiteEnabled)
    (Model.updateOption "SelfUseModeEnabled" (boolToString req.selfUseModeEnabled)
      { p with settings := { p.settings with
          selfUseModeEnabled := req.selfUseModeEnabled
          demoSiteEnabled := req.demoSiteEnabled } })

/-- Store the modes and mark the system as set up. -/
def finishSetup (req : SetupRequest) (g : Gateway) : Reply × Gateway :=
  let process := storeModes req g.process
  match (performOption .setupCreate).run OptionStore.exec process.options with
  | (.error e, options) =>
    (.failure ("系统初始化失败: " ++ e.error), ⟨⟨process.settings, options⟩, true, g.accounts⟩)
  | (.ok _, options) => (.done "系统初始化成功", ⟨⟨process.settings, options⟩, true, g.accounts⟩)

def postSetup (ctx : Ctx) (req : Option SetupRequest) (g : Gateway) : Reply × Gateway :=
  if g.setup then (.failure "系统已经初始化完成", g)
  else
    let (rootExists, accounts) := serve rootUserExists g.accounts
    match req with
    | none => (.failure "请求参数有误", { g with accounts := accounts })
    | some req =>
      if rootExists then finishSetup req { g with accounts := accounts }
      else
        let (refusal, accounts) := serve (createRoot ctx req) accounts
        match refusal with
        | some msg => (.failure msg, { g with accounts := accounts })
        | none => finishSetup req { g with accounts := accounts }

/-- A setup that ends well has stored the modes. -/
theorem postSetup_done {ctx : Ctx} {req : Option SetupRequest} {g : Gateway} {status : Nat}
    {message : String} {data : Option Json}
    (h : (postSetup ctx req g).1 = .json status true message data) :
    ∃ r accounts, req = some r ∧
      postSetup ctx req g = finishSetup r { g with accounts := accounts } := by
  unfold postSetup at h ⊢
  split at h
  · exact nomatch h
  · rename_i hsetup
    rw [if_neg hsetup]
    cases req with
    | none => exact nomatch h
    | some req =>
      dsimp only at h ⊢
      split at h
      · rename_i hroot
        rw [if_pos hroot]
        exact ⟨req, _, rfl, rfl⟩
      · rename_i hroot
        rw [if_neg hroot]
        split at h
        · exact nomatch h
        · rename_i hnone
          exact ⟨req, _, rfl, rfl⟩

end AuthGateway.Controller
