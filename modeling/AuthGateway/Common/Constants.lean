import Mathlib.Algebra.Order.Ring.Int

/-!
# Constants, errors, time

The constants of `common/constants.go` and `common/totp.go` that the models
read, the errors the code tells apart, and the clock: a `time.Time` is its
nanoseconds since the epoch.
-/

namespace AuthGateway.Common

/-! ### Roles and statuses -/

def roleGuestUser : Int := 0
def roleCommonUser : Int := 1
def roleAdminUser : Int := 10
def roleRootUser : Int := 100

def isValidateRole (role : Int) : Bool :=
  role == roleGuestUser || role == roleCommonUser || role == roleAdminUser || role == roleRootUser

def userStatusEnabled : Int := 1
def userStatusDisabled : Int := 2

/-! ### Two-factor limits -/

def backupCodeLength : Nat := 8
def backupCodeCount : Nat := 4
def maxFailAttempts : Nat := 5
/-- In seconds. -/
def lockoutDuration : Int := 300

/-! ### Time -/

/-- `time.Second`. -/
def second : Int := 1000000000

/-- `Time.Unix()`. -/
def unix (t : Int) : Int := t / second

theorem unix_le (t : Int) : unix t * second ≤ t := Int.ediv_mul_le t (by decide)

theorem lt_unix (t : Int) : t < unix t * second + second := by
  have h := Int.lt_ediv_add_one_mul_self t (show 0 < second by decide)
  rw [Int.add_mul, Int.one_mul] at h
  exact h

theorem unix_whole (k : Int) : unix (k * second) = k := Int.mul_ediv_cancel k (by decide)

theorem unix_mono {t t' : Int} (h : t ≤ t') : unix t ≤ unix t' :=
  Int.ediv_le_ediv (by decide) h

/-- Two clock readings less than `n` seconds apart by `Unix()` are less than `n`
seconds apart. -/
theorem sub_lt_of_unix {t p : Int} {n : Int} (h : unix t - unix p < n) : t - p < n * second := by
  have h₁ := lt_unix t
  have h₂ := unix_le p
  have h₃ : (unix t - unix p + 1) * second ≤ n * second :=
    Int.mul_le_mul_of_nonneg_right (by omega) (by decide)
  rw [Int.add_mul, Int.sub_mul, Int.one_mul] at h₃
  omega

/-! ### Errors -/

/-- A Go `error`: the values the code compares against, and all the others by
their text. -/
inductive Err
  | recordNotFound
  | twoFANotEnabled
  | passkeyNotFound
  | new (text : String)
deriving DecidableEq, Repr

/-- `err.Error()`. -/
def Err.error : Err → String
  | recordNotFound => "record not found"
  | twoFANotEnabled => "用户未启用2FA"
  | passkeyNotFound => "passkey credential not found"
  | new text => text

end AuthGateway.Common
