import AuthGateway.Model.User

/-!
# model/passkey.go and the session data of service/passkey
-/

namespace AuthGateway.Model

open Common

def errFriendlyPasskeyNotFound : Err := .new "Passkey 验证失败，请重试或联系管理员"

def getPasskeyByUserID (userID : Int) : M (Except Err PasskeyCredential) := do
  if userID = 0 then return .error errFriendlyPasskeyNotFound
  match ← perform (.passkeyFirst fun c => c.userID == userID) with
  | .ok c => return .ok c
  | .error e =>
    return .error (if e = .recordNotFound then .passkeyNotFound else errFriendlyPasskeyNotFound)

theorem getPasskeyByUserID_only {P : DBOp → Prop} (h : ∀ p, P (.passkeyFirst p)) (userID : Int) :
    Prog.Only P (getPasskeyByUserID userID) := by
  unfold getPasskeyByUserID
  split
  · exact Prog.Only.pure
  · refine only_perform (h _) fun r => ?_
    cases r <;> exact Prog.Only.pure

theorem getPasskeyByUserID_sat (userID : Int) (db : DB) :
    Sat (getPasskeyByUserID userID) (fun r db' => db' = db ∧ ∀ c, r = .ok c →
      c ∈ db.passkeys ∧ c.live = true ∧ c.userID = userID) db := by
  unfold getPasskeyByUserID
  split
  · exact Sat.pure ⟨rfl, fun c hc => nomatch hc⟩
  · refine Sat.perform fun r db' h => ?_
    obtain ⟨rfl, ⟨c, hmem, hlive, -, rfl⟩ | ⟨e, rfl⟩⟩ := h.passkeyFirst
    · refine Sat.pure ⟨rfl, fun c' hc => ?_⟩
      obtain rfl : c = c' := Except.ok.inj hc
      rw [Bool.and_eq_true, beq_iff_eq] at hlive
      exact ⟨hmem, hlive⟩
    · exact Sat.pure ⟨rfl, fun c hc => nomatch hc⟩

/-- A passkey that is there is found. -/
theorem getPasskeyByUserID_ends {userID : Int} (hid : userID ≠ 0) {db : DB} {c : PasskeyCredential}
    (hc : c ∈ db.passkeys) (hlive : c.live = true) (huser : c.userID = userID) :
    Ends (getPasskeyByUserID userID) (fun r db' => db' = db ∧ ∃ c', r = .ok c') db := by
  unfold getPasskeyByUserID
  rw [if_neg hid]
  refine Ends.perform ?_
  simp only [exec]
  cases hfind : db.passkeys.find? (fun c => c.live && c.userID == userID) with
  | some c' => exact Ends.pure ⟨rfl, c', rfl⟩
  | none =>
    have hnot := Table.find?_eq_none.mp hfind c hc
    rw [hlive, huser, beq_self_eq_true] at hnot
    cases hnot

theorem serve_getPasskeyByUserID_down {userID : Int} {s : Store} {e : Err}
    (h : s.outages 0 = some e) :
    (serve (getPasskeyByUserID userID) s).1.toOption = none := by
  unfold getPasskeyByUserID
  by_cases hid : userID = 0
  · rw [if_pos hid]
    rfl
  · rw [if_neg hid, serve_perform, Store.exec_down h rfl]
    rfl

/-- The credential id is the base64 text of the raw id. -/
def getPasskeyByCredentialID (credentialID : String) : M (Except Err PasskeyCredential) := do
  if credentialID = "" then return .error errFriendlyPasskeyNotFound
  match ← perform (.passkeyFirst fun c => c.credentialID == credentialID) with
  | .ok c => return .ok c
  | .error _ => return .error errFriendlyPasskeyNotFound

theorem getPasskeyByCredentialID_only {P : DBOp → Prop} (h : ∀ p, P (.passkeyFirst p))
    (credentialID : String) : Prog.Only P (getPasskeyByCredentialID credentialID) := by
  unfold getPasskeyByCredentialID
  split
  · exact Prog.Only.pure
  · refine only_perform (h _) fun r => ?_
    cases r <;> exact Prog.Only.pure

def upsertPasskeyCredential (credential : PasskeyCredential) : M (Option Err) := do
  match ← perform (.passkeyUpsert credential) with
  | .ok _ => return none
  | .error _ => return some (.new "Passkey 保存失败，请重试")

def deletePasskeyByUserID (userID : Int) : M (Option Err) := do
  if userID = 0 then return some (.new "删除失败，请重试")
  match ← perform (.passkeyDelete userID) with
  | .ok _ => return none
  | .error _ => return some (.new "删除失败，请重试")

end AuthGateway.Model
