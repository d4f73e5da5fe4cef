import Mathlib

/-!
# web/src/components/auth/TwoFAVerification.jsx

What the form does with the code that was typed in.
-/

namespace AuthGateway.Web

/-- A character beyond U+FFFF is two code units. -/
def utf16Size (c : Char) : Nat := if c.toNat ≤ 0xFFFF then 1 else 2

/-- `length`, of a string in JavaScript. -/
def jsLength (s : String) : Nat := (s.toList.map utf16Size).sum

/-- `/^\d{6}$/`. -/
def testSixDigits (s : String) : Bool :=
  s.toList.length == 6 && s.toList.all fun c => 48 ≤ c.toNat && c.toNat ≤ 57

inductive Submission
  | showError (msg : String)
  /-- The `code` of the request to `/api/user/login/2fa`. -/
  | post (code : String)
  deriving DecidableEq

def handleSubmit (useBackupCode : Bool) (verificationCode : String) : Submission :=
  if verificationCode = "" then .showError "请输入验证码"
  else if useBackupCode ∧ jsLength verificationCode ≠ 8 then .showError "备用码必须是8位"
  else if ¬ useBackupCode ∧ ¬ testSixDigits verificationCode then .showError "验证码必须是6位数字"
  else .post verificationCode

theorem handleSubmit_backup {code : String} :
    handleSubmit true code = .post code ↔ jsLength code = 8 := by
  unfold handleSubmit
  by_cases hempty : code = ""
  · subst hempty
    simp [jsLength]
  · by_cases hlength : jsLength code = 8 <;> simp [hempty, hlength]

theorem handleSubmit_totp {code : String} :
    handleSubmit false code = .post code ↔ testSixDigits code = true := by
  unfold handleSubmit
  by_cases hempty : code = ""
  · subst hempty
    simp [testSixDigits]
  · by_cases hdigits : testSixDigits code <;> simp [hempty, hdigits]

end AuthGateway.Web
