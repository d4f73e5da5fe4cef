import AuthGateway.Controller.Misc
import AuthGateway.Lib.Prog

/-!
# Password resets, step by step

`SendPasswordResetEmail` and `ResetPassword` as they run next to each other: the
map of codes has a lock, which each function of `common/verification.go` takes
and releases; between two of them, and between the statements of the database,
other requests run.  Each of these functions reads the clock under its lock.

Alone, they are the handlers of `controller/misc.go` (`sendPasswordResetEmail_alone`,
`resetPassword_alone`).
-/

namespace AuthGateway.Controller.PasswordReset

open Common Model Prog

/-- The clock, the codes that are out, and the database. -/
structure ResetStore where
  now : Int
  codes : VerificationMap := {}
  database : Store

inductive ResetOp
  | register (key code purpose : String)
  | verify (key code purpose : String)
  | deleteKey (key purpose : String)
  | database (o : DBOp)
  /-- Time passes. -/
  | pass (d : Nat)

abbrev ResetOp.Ans : ResetOp → Type
  | verify _ _ _ => Bool
  | database o => Except Err o.Ans
  | _ => Unit

def resetExec : (o : ResetOp) → ResetStore → o.Ans × ResetStore
  | .register key code purpose, s =>
    ((), { s with codes := s.codes.register s.now key code purpose })
  | .verify key code purpose, s => (s.codes.verify s.now key code purpose, s)
  | .deleteKey key purpose, s => ((), { s with codes := s.codes.delete (purpose ++ key) })
  | .database o, s =>
    ((s.database.exec (fun _ => true) o).1,
      { s with database := (s.database.exec (fun _ => true) o).2 })
  | .pass d, s => ((), { s with now := s.now + d })

abbrev ResetM : Type → Type := Prog ResetOp ResetOp.Ans

def reset (o : ResetOp) : ResetM o.Ans := Prog.perform o

/-- A program of the database alone. -/
def onDatabase {α : Type} (p : M α) : ResetM α := p.embed ResetOp.database fun _ r => r

def sendPasswordResetEmail (env : Env) (ctx : Ctx) (s : Sess) (email : String) : ResetM Out := do
  if !env.validEmail email then return s.fail "Invalid parameters"
  if !(← onDatabase (isEmailAlreadyTaken email)) then
    return s.fail "Email address not registered"
  let code := generateVerificationCode ctx.uuid 0
  reset (.register email code passwordResetPurpose)
  match ctx.sendEmailError with
  | some e => return s.apiError e
  | none => return s.answer (.done "")

def resetPassword (ctx : Ctx) (s : Sess) (req : Option PasswordResetRequest) : ResetM Out := do
  match req with
  | none => return s.fail "Invalid parameters"
  | some req =>
    if req.email = "" ∨ req.token = "" then return s.fail "Invalid parameters"
    if !(← reset (.verify req.email req.token passwordResetPurpose)) then
      return s.fail "Reset link invalid or expired"
    let password := generateVerificationCode ctx.uuid 12
    match ← onDatabase (resetUserPasswordByEmail ctx req.email password) with
    | some e => return s.apiError e
    | none =>
      reset (.deleteKey req.email passwordResetPurpose)
      return s.answer (.apiSuccess (.str password))

/-! ### Alone -/

/-- A program of the database does not see the codes. -/
theorem run_onDatabase {α : Type} (p : M α) (now : Int) (codes : VerificationMap) (store : Store) :
    (onDatabase p).run resetExec ⟨now, codes, store⟩
      = ((serve p store).1, ⟨now, codes, (serve p store).2⟩) := by
  induction p generalizing store with
  | ret a => rfl
  | call o k ih => exact ih _ _

theorem sendPasswordResetEmail_alone (env : Env) (ctx : Ctx) (s : Sess) (email : String)
    (codes : VerificationMap) (store : Store) :
    (sendPasswordResetEmail env ctx s email).run resetExec ⟨ctx.now, codes, store⟩
      = ((serve (Controller.sendPasswordResetEmail env ctx s codes email) store).1.1,
        ⟨ctx.now, (serve (Controller.sendPasswordResetEmail env ctx s codes email) store).1.2,
          (serve (Controller.sendPasswordResetEmail env ctx s codes email) store).2⟩) := by
  unfold sendPasswordResetEmail Controller.sendPasswordResetEmail
  by_cases hvalid : env.validEmail email = true
  · simp only [hvalid, Bool.not_true, Bool.false_eq_true, if_false]
    rw [run_bind, run_onDatabase, serve_bind]
    cases (serve (isEmailAlreadyTaken email) store).1 with
    | false => rfl
    | true =>
      simp only [Bool.not_true, Bool.false_eq_true, if_false, sendCode]
      cases ctx.sendEmailError with
      | none => rfl
      | some e => rfl
  · simp only [Bool.not_eq_true] at hvalid
    simp only [hvalid, Bool.not_false, if_true]
    rfl

theorem resetPassword_alone (ctx : Ctx) (s : Sess) (req : Option PasswordResetRequest)
    (codes : VerificationMap) (store : Store) :
    (resetPassword ctx s req).run resetExec ⟨ctx.now, codes, store⟩
      = ((serve (Controller.resetPassword ctx s codes req) store).1.1,
        ⟨ctx.now, (serve (Controller.resetPassword ctx s codes req) store).1.2,
          (serve (Controller.resetPassword ctx s codes req) store).2⟩) := by
  cases req with
  | none => rfl
  | some req =>
    unfold resetPassword Controller.resetPassword
    by_cases hempty : req.email = "" ∨ req.token = ""
    · simp only [hempty, if_true]
      rfl
    · simp only [hempty, if_false]
      have hverify : (reset (.verify req.email req.token passwordResetPurpose)).run resetExec
          ⟨ctx.now, codes, store⟩
          = (codes.verify ctx.now req.email req.token passwordResetPurpose,
            ⟨ctx.now, codes, store⟩) := rfl
      rw [run_bind, hverify]
      cases codes.verify ctx.now req.email req.token passwordResetPurpose with
      | false => rfl
      | true =>
        simp only [Bool.not_true, Bool.false_eq_true, if_false]
        rw [run_bind, run_onDatabase, serve_bind]
        cases (serve (resetUserPasswordByEmail ctx req.email
          (generateVerificationCode ctx.uuid 12)) store).1 with
        | none => rfl
        | some e => rfl

end AuthGateway.Controller.PasswordReset
