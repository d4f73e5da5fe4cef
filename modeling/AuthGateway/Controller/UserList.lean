import AuthGateway.Controller.User

/-!
# Reading accounts: GetAllUsers, SearchUsers, GetUser

`controller/user.go` with `common/page_info.go` and the queries of
`model/user.go`.
-/

namespace AuthGateway.Controller

open Common Model GoString

/-! ### The page of a request -/

/-- The query of a list request. -/
structure PageQuery where
  p : String := ""
  pageSize : String := ""
  ps : String := ""
  size : String := ""

structure PageInfo where
  page : Int
  pageSize : Int
deriving DecidableEq, Repr

/-- An `int` of the machine. -/
def wrap64 (x : Int) : Int := x.bmod (2 ^ 64)

def PageInfo.getStartIdx (p : PageInfo) : Int := wrap64 (wrap64 (p.page - 1) * p.pageSize)

def itemsPerPage : Int := 10

/-- The value of a parameter; `0` when it is no number. -/
def queryInt (s : String) : Int :=
  match atoi s with
  | (n, none) => n
  | (_, some _) => 0

def getPageQuery (q : PageQuery) : PageInfo :=
  let page := queryInt q.p
  let page :=
    if page < 1 then
      -- here the value of `Atoi` is taken whatever its error
      if (atoi q.p).1 ≠ 0 then (atoi q.p).1 else 1
    else page
  let pageSize := queryInt q.pageSize
  let pageSize := if pageSize = 0 then (atoi q.ps).1 else pageSize
  let pageSize := if pageSize = 0 then (atoi q.size).1 else pageSize
  let pageSize := if pageSize = 0 then itemsPerPage else pageSize
  { page := page, pageSize := if 100 < pageSize then 100 else pageSize }

def PageInfo.toJson (p : PageInfo) (total : Int) (items : List User) : Json :=
  .obj [("page", .num p.page), ("page_size", .num p.pageSize), ("total", .num total),
    ("items", .arr (items.map User.toJson))]

/-! ### The handlers -/

/-- One page of the rows that a query matches. -/
def listUsers (s : Sess) (info : PageInfo) (p : User → Bool) : M Out := do
  match ← perform (.userPage p info.pageSize info.getStartIdx) with
  | .error e => return s.apiError e
  | .ok page =>
    let (users, total) := (show List User × Int from page)
    return s.answer (.apiSuccess (info.toJson total (users.map User.omitPassword)))

def getAllUsers (s : Sess) (q : PageQuery) : M Out := listUsers s (getPageQuery q) fun _ => true

/-- The condition of `SearchUsers`. -/
def searchCondition (env : Env) (keyword group : String) (u : User) : Bool :=
  let pattern := "%" ++ keyword ++ "%"
  let text := env.like u.username pattern || env.like u.email pattern
    || env.like u.displayName pattern
  let byId := match atoi keyword with
    | (n, none) => u.id == n || text
    | (_, some _) => text
  byId && (group == "" || u.group == group)

def searchUsers (env : Env) (s : Sess) (keyword group : String) (q : PageQuery) : M Out :=
  listUsers s (getPageQuery q) (searchCondition env keyword group)

def getUser (ctx : Ctx) (s : Sess) (idParam : String) : M Out := do
  match atoi idParam with
  | (_, some e) => return s.fail (e.text idParam)
  | (id, none) =>
    match ← getUserById id false with
    | .error e => return s.apiError e
    | .ok user =>
      if outranked ctx.role (show User from user).role then
        return s.fail "无权获取同级或更高等级用户的信息"
      return s.answer (.apiSuccess (User.toJson user))

end AuthGateway.Controller
