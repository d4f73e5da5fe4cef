import AuthGateway.Controller.SecureVerification

/-!
# middleware/auth.go and middleware/secure_verification.go
-/

namespace AuthGateway.Middleware

open Common Model GoString

def validUserInfo (username : String) (role : Int) : Bool :=
  trimSpace username != "" && isValidateRole role

/-- What `authHelper` puts into the context for the handlers behind it. -/
structure Auth where
  username : String
  role : Int
  id : Int
  group : Option String
  useAccessToken : Bool
deriving DecidableEq, Repr

def refuse (status : Nat) (msg : String) : Except Reply Auth := .error (.json status false msg none)

/-- The checks on the values found, wherever they came from. -/
def checkRole (minRole : Int) (status : Int) (auth : Auth) : Except Reply Auth :=
  if status = userStatusDisabled then refuse 200 "User has been disabled"
  else if auth.role < minRole then refuse 200 "Insufficient permissions"
  else if !validUserInfo auth.username auth.role then refuse 200 "Invalid user info"
  else .ok auth

/-- `authHelper`: the context of the request, or the reply it is aborted with.
A session that names a user is believed; the table is read for a token only. -/
def authHelper (minRole : Int) (s : Session) (authorization : String) :
    M (Except Reply Auth) := do
  match s.username with
  | some username =>
    match s.role, s.id, s.status with
    | some role, some id, some status =>
      return checkRole minRole status
        { username := username, role := role, id := id, group := s.group, useAccessToken := false }
    | _, _, _ => return .error .panicked
  | none =>
    if authorization = "" then
      return refuse 401 "Unauthorized: not logged in and no access token provided"
    match ← validateAccessToken authorization with
    | none => return refuse 200 "Unauthorized: invalid access token"
    | some user =>
      if user.username = "" then return refuse 200 "Unauthorized: invalid access token"
      if !validUserInfo user.username user.role then
        return refuse 200 "Unauthorized: invalid user info"
      return checkRole minRole user.status
        { username := user.username, role := user.role, id := user.id, group := s.group
          useAccessToken := true }

theorem checkRole_ok {minRole status : Int} {auth a : Auth} (h : checkRole minRole status auth = .ok a) :
    a = auth ∧ status ≠ userStatusDisabled ∧ minRole ≤ auth.role := by
  unfold checkRole at h
  split at h
  · cases h
  · rename_i hstatus
    split at h
    · cases h
    · rename_i hrole
      split at h
      · cases h
      · exact ⟨(Except.ok.inj h).symm, hstatus, by omega⟩

theorem authHelper_only {P : DBOp → Prop} (h : ∀ unscoped p, P (.userFirst unscoped p))
    (minRole : Int) (s : Session) (authorization : String) :
    Prog.Only P (authHelper minRole s authorization) := by
  unfold authHelper
  split
  · split <;> exact Prog.Only.pure
  · split
    · exact Prog.Only.pure
    · refine (validateAccessToken_only h authorization).bind fun r => ?_
      cases r with
      | none => exact Prog.Only.pure
      | some user =>
        dsimp only
        split
        · exact Prog.Only.pure
        · split <;> exact Prog.Only.pure

theorem authHelper_readOnly (minRole : Int) (s : Session) (authorization : String) :
    ReadOnly (authHelper minRole s authorization) :=
  authHelper_only (fun _ _ => rfl) minRole s authorization

/-- Whom `authHelper` lets through on the values of the session. -/
def BySession (s : Session) (minRole : Int) (auth : Auth) : Prop :=
  s.username = some auth.username ∧ s.id = some auth.id ∧ s.role = some auth.role ∧
    (∃ status, s.status = some status ∧ status ≠ userStatusDisabled) ∧ minRole ≤ auth.role

/-- Whom it lets through on an access token. -/
def ByToken (s : Session) (db : DB) (authorization : String) (minRole : Int) (auth : Auth) :
    Prop :=
  s.username = none ∧ ∃ u ∈ db.users, u.live = true ∧ u.id = auth.id ∧ u.role = auth.role ∧
    u.status ≠ userStatusDisabled ∧ minRole ≤ u.role ∧
    u.accessToken = some (replaceOnce "Bearer " authorization)

/-- **Whom `authHelper` lets through.** -/
theorem authHelper_sat (minRole : Int) (s : Session) (authorization : String) (db : DB) :
    Sat (authHelper minRole s authorization) (fun r db' => db' = db ∧ ∀ auth, r = .ok auth →
      BySession s minRole auth ∨ ByToken s db authorization minRole auth) db := by
  unfold authHelper
  split
  · rename_i username husername
    split
    · rename_i role id status hrole hid hstatus
      refine Sat.pure ⟨rfl, fun auth h => Or.inl ?_⟩
      obtain ⟨rfl, hst, hmin⟩ := checkRole_ok h
      exact ⟨husername, hid, hrole, ⟨status, hstatus, hst⟩, hmin⟩
    · exact Sat.pure ⟨rfl, fun auth h => nomatch h⟩
  · rename_i husername
    split
    · exact Sat.pure ⟨rfl, fun auth h => nomatch h⟩
    · refine (validateAccessToken_sat authorization db).bind ?_
      rintro r db' ⟨rfl, hr⟩
      cases r with
      | none => exact Sat.pure ⟨rfl, fun auth h => nomatch h⟩
      | some user =>
        dsimp only
        split
        · exact Sat.pure ⟨rfl, fun auth h => nomatch h⟩
        · split
          · exact Sat.pure ⟨rfl, fun auth h => nomatch h⟩
          · refine Sat.pure ⟨rfl, fun auth h => Or.inr ⟨husername, user, ?_⟩⟩
            obtain ⟨hmem, hlive, -, htoken⟩ := hr user rfl
            obtain ⟨rfl, hst, hmin⟩ := checkRole_ok h
            exact ⟨hmem, hlive, rfl, rfl, hst, hmin, htoken⟩

/-- Whoever is let through has one of the roles, and no lower one than asked for. -/
theorem authHelper_role (minRole : Int) (s : Session) (authorization : String) (db : DB) :
    Sat (authHelper minRole s authorization) (fun r _ => ∀ auth, r = .ok auth →
      minRole ≤ auth.role ∧ isValidateRole auth.role = true) db := by
  have hadmit : ∀ {status : Int} {auth a : Auth}, checkRole minRole status auth = .ok a →
      minRole ≤ a.role ∧ isValidateRole a.role = true := by
    intro status auth a h
    obtain ⟨rfl, -, hmin⟩ := checkRole_ok h
    refine ⟨hmin, ?_⟩
    unfold checkRole at h
    split at h
    · cases h
    · split at h
      · cases h
      · split at h
        · cases h
        · rename_i hinfo
          rw [Bool.not_eq_true', Bool.not_eq_false] at hinfo
          exact (Bool.and_eq_true_iff.mp hinfo).2
  unfold authHelper
  split
  · split
    · exact Sat.pure fun auth h => hadmit h
    · exact Sat.pure fun auth h => nomatch h
  · split
    · exact Sat.pure fun auth h => nomatch h
    · refine (Prog.Holds.trivial _ db).bind ?_
      intro r db' _
      cases r with
      | none => exact Sat.pure fun auth h => nomatch h
      | some user =>
        dsimp only
        split
        · exact Sat.pure fun auth h => nomatch h
        · split
          · exact Sat.pure fun auth h => nomatch h
          · exact Sat.pure fun auth h => hadmit h

/-- `UserAuth()`, `AdminAuth()` and `RootAuth()`. -/
def userAuth : Session → String → M (Except Reply Auth) := authHelper roleCommonUser
def adminAuth : Session → String → M (Except Reply Auth) := authHelper roleAdminUser
def rootAuth : Session → String → M (Except Reply Auth) := authHelper roleRootUser

/-- The context of a request that `authHelper` let through. -/
def Auth.toCtx (auth : Auth) (ctx : Ctx) : Ctx := { ctx with id := auth.id, role := auth.role }

/-- A handler behind `authHelper`. -/
def behind (auth : Session → String → M (Except Reply Auth)) (s : Sess) (authorization : String)
    (ctx : Ctx) (handler : Ctx → M Out) : M Out := do
  match ← auth s.cur authorization with
  | .error reply => return s.answer reply
  | .ok a => handler (a.toCtx ctx)

/-- `SecureVerificationRequired`: `none` lets the request through. -/
def secureVerificationRequired (env : Env) (ctx : Ctx) (s : Sess) : Option Reply × Sess :=
  if ctx.id = 0 then (some (.json 401 false "未登录" none), s)
  else match s.cur.secureVerifiedAt with
    | none => (some (.coded 403 "需要安全验证" "VERIFICATION_REQUIRED"), s)
    | some verifiedAt =>
      if Controller.fresh ctx.now verifiedAt then (none, s)
      else (some (.coded 403 "验证已过期，请重新验证" "VERIFICATION_EXPIRED"),
        Controller.dropStamp env s)

theorem secureVerificationRequired_saved (env : Env) (ctx : Ctx) (s : Sess) :
    (secureVerificationRequired env ctx s).2.saved = s.saved ∨
      (secureVerificationRequired env ctx s).2.saved = s.cur.unstamp := by
  unfold secureVerificationRequired
  split
  · exact Or.inl rfl
  · split
    · exact Or.inl rfl
    · split
      · exact Or.inl rfl
      · exact Controller.dropStamp_saved env s

end AuthGateway.Middleware
