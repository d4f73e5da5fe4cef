import AuthGateway.Common.Totp
import AuthGateway.Model.User

/-!
# model/twofa.go

Two-factor records and their backup codes.  A record is read once and then lives
in the request: every method works on that copy and `Save`s all of it.  The
answer of a validator is Go's pair `(bool, error)`: `.ok true` accepted,
`.ok false` compared and refused, `.error` not compared at all.
-/

namespace AuthGateway.Model

open Common

/-! ### The record -/

def getTwoFAByUserId (userId : Int) : M (Except Err (Option TwoFA)) := do
  if userId = 0 then return .error (.new "用户ID不能为空")
  match ← perform (.twoFAFirst userId) with
  | .ok t => return .ok (some t)
  | .error e => return if e = .recordNotFound then .ok none else .error e

theorem getTwoFAByUserId_only {P : DBOp → Prop} (h : ∀ userId, P (.twoFAFirst userId))
    (userId : Int) : Prog.Only P (getTwoFAByUserId userId) := by
  unfold getTwoFAByUserId
  split
  · exact Prog.Only.pure
  · refine only_perform (h _) fun r => ?_
    cases r <;> exact Prog.Only.pure

theorem getTwoFAByUserId_readOnly (userId : Int) : ReadOnly (getTwoFAByUserId userId) :=
  getTwoFAByUserId_only (fun _ => rfl) userId

/-- A record that is answered is the user's live one. -/
theorem getTwoFAByUserId_sat (userId : Int) (db : DB) :
    Sat (getTwoFAByUserId userId) (fun r db' => db' = db ∧ ∀ t, r = .ok (some t) →
      t ∈ db.twoFAs ∧ t.live = true ∧ t.userId = userId) db := by
  unfold getTwoFAByUserId
  split
  · exact Sat.pure ⟨rfl, fun t ht => nomatch ht⟩
  · refine Sat.perform fun r db' h => ?_
    obtain ⟨rfl, ⟨t, hmem, hlive, -, rfl⟩ | ⟨e, rfl⟩⟩ := h.twoFAFirst
    · refine Sat.pure ⟨rfl, fun t' ht => ?_⟩
      obtain rfl : t = t' := Option.some.inj (Except.ok.inj ht)
      rw [Bool.and_eq_true, beq_iff_eq] at hlive
      exact ⟨hmem, hlive⟩
    · refine Sat.pure ⟨rfl, fun t ht => ?_⟩
      split at ht <;> exact nomatch ht

/-- The user has two-factor authentication switched on. -/
def TwoFAOn (db : DB) (userId : Int) : Prop :=
  ∃ t ∈ db.twoFAs, t.live = true ∧ t.userId = userId ∧ t.isEnabled = true

/-- A failed read counts as "not enabled". -/
def isTwoFAEnabled (userId : Int) : M Bool := do
  match ← getTwoFAByUserId userId with
  | .ok (some twoFA) => return twoFA.isEnabled
  | _ => return false

theorem isTwoFAEnabled_readOnly (userId : Int) : ReadOnly (isTwoFAEnabled userId) := by
  refine (getTwoFAByUserId_readOnly userId).bind fun r => ?_
  split <;> exact Prog.Only.pure

/-- The record of a user, of whom there is at most one. -/
theorem find_twoFA_eq_some {db : DB} {userId : Int} {t : TwoFA} :
    db.twoFAs.find? (fun t => t.live && t.userId == userId) = some t
      ↔ t ∈ db.twoFAs ∧ t.live = true ∧ t.userId = userId := by
  have huniq : ∀ a ∈ db.twoFAs, ∀ b ∈ db.twoFAs, (a.live && a.userId == userId) = true →
      (b.live && b.userId == userId) = true → a = b := by
    intro a ha b hb hpa hpb
    rw [Bool.and_eq_true, beq_iff_eq] at hpa hpb
    exact Table.eq_of_clash ha hb (by rw [TwoFA.clash_eq, hpa.2, hpb.2, beq_self_eq_true])
  rw [Table.find?_eq_some_of_unique huniq, Bool.and_eq_true, beq_iff_eq]

theorem serve_getTwoFAByUserId_rest {userId : Int} (hid : userId ≠ 0) (s : Store) :
    (serve (getTwoFAByUserId userId) s).2 = s.rest := by
  unfold getTwoFAByUserId
  rw [if_neg hid, serve_perform]
  cases h : s.outages 0 with
  | none =>
    rw [Store.exec_read_up h rfl]
    simp only [exec]
    cases s.db.twoFAs.find? (fun t => t.live && t.userId == userId) <;> rfl
  | some e =>
    rw [Store.exec_down h rfl]
    rfl

theorem serve_getTwoFAByUserId_up {t : TwoFA} {s : Store} (hid : t.userId ≠ 0)
    (h : s.outages 0 = none) (hmem : t ∈ s.db.twoFAs) (hlive : t.live = true) :
    serve (getTwoFAByUserId t.userId) s = (.ok (some t), s.rest) := by
  unfold getTwoFAByUserId
  rw [if_neg hid, serve_perform, Store.exec_read_up h rfl]
  simp only [exec]
  rw [find_twoFA_eq_some.mpr ⟨hmem, hlive, rfl⟩]
  rfl

/-- No record comes out of a read that fails. -/
theorem serve_getTwoFAByUserId_down {userId : Int} {s : Store} {e : Err} (h : s.outages 0 = some e)
    (t : TwoFA) : (serve (getTwoFAByUserId userId) s).1 ≠ .ok (some t) := by
  unfold getTwoFAByUserId
  by_cases hid : userId = 0
  · rw [if_pos hid]
    intro he
    exact nomatch he
  · rw [if_neg hid, serve_perform, Store.exec_down h rfl]
    by_cases he : e = .recordNotFound
    · simp [he]
    · simp [he]

/-- **On a database that answers, the question is answered truly.** -/
theorem serve_isTwoFAEnabled_up {userId : Int} (hid : userId ≠ 0) {s : Store}
    (h : s.outages 0 = none) : (serve (isTwoFAEnabled userId) s).1 = true ↔ TwoFAOn s.db userId := by
  unfold isTwoFAEnabled getTwoFAByUserId
  rw [if_neg hid, serve_bind, serve_perform, Store.exec_read_up h rfl]
  simp only [exec]
  cases hfind : s.db.twoFAs.find? (fun t => t.live && t.userId == userId) with
  | none =>
    constructor
    · intro he
      exact absurd he Bool.false_ne_true
    · rintro ⟨t, hmem, hlive, huser, -⟩
      rw [find_twoFA_eq_some.mpr ⟨hmem, hlive, huser⟩] at hfind
      cases hfind
  | some t =>
    obtain ⟨hmem, hlive, huser⟩ := find_twoFA_eq_some.mp hfind
    constructor
    · intro he
      exact ⟨t, hmem, hlive, huser, he⟩
    · rintro ⟨t', hmem', hlive', huser', he⟩
      obtain rfl : t' = t := Option.some.inj
        ((find_twoFA_eq_some.mpr ⟨hmem', hlive', huser'⟩).symm.trans hfind)
      exact he

/-- **When the read fails, the answer is no.** -/
theorem serve_isTwoFAEnabled_down (userId : Int) {s : Store} {e : Err}
    (h : s.outages 0 = some e) : (serve (isTwoFAEnabled userId) s).1 = false := by
  unfold isTwoFAEnabled getTwoFAByUserId
  by_cases hid : userId = 0
  · rw [if_pos hid]
    rfl
  · rw [if_neg hid, serve_bind, serve_perform, Store.exec_down h rfl]
    by_cases he : e = .recordNotFound
    · simp only [he, if_true, serve_pure]
    · simp only [he, if_false, serve_pure]

def TwoFA.create (t : TwoFA) : M (Option Err) := do
  match ← getTwoFAByUserId t.userId with
  | .error e => return some e
  | .ok (some _) => return some (.new "用户已存在2FA设置")
  | .ok none =>
    match ← perform (.userFirst false fun u => u.id == t.userId) with
    | .error e => return some (if e = .recordNotFound then .new "用户不存在" else e)
    | .ok _ => return errorOf (← perform (.twoFACreate t))

def TwoFA.update (t : TwoFA) : M (Option Err) := do
  if t.id = 0 then return some (.new "2FA记录ID不能为空")
  return errorOf (← perform (.twoFASave t))

theorem TwoFA.update_only {P : DBOp → Prop} (h : ∀ t, P (.twoFASave t)) (t : TwoFA) :
    Prog.Only P t.update := by
  unfold TwoFA.update
  split
  · exact Prog.Only.pure
  · exact only_perform (h t) fun _ => Prog.Only.pure

def TwoFA.delete (t : TwoFA) : M (Option Err) := do
  if t.id = 0 then return some (.new "2FA记录ID不能为空")
  return errorOf (← perform (.twoFADelete t))

/-- The record after one more failed attempt. -/
def TwoFA.failed (now : Int) (t : TwoFA) : TwoFA :=
  let t := { t with failedAttempts := t.failedAttempts + 1 }
  if maxFailAttempts ≤ t.failedAttempts then
    { t with lockedUntil := some (now + lockoutDuration * second) }
  else t

/-- The record after a success. -/
def TwoFA.succeeded (now : Int) (t : TwoFA) : TwoFA :=
  { t with failedAttempts := 0, lockedUntil := none, lastUsedAt := some now }

def TwoFA.incrementFailedAttempts (ctx : Ctx) (t : TwoFA) : M (Option Err × TwoFA) := do
  let t := t.failed ctx.now
  return (← t.update, t)

def TwoFA.isLocked (now : Int) (t : TwoFA) : Bool :=
  match t.lockedUntil with
  | none => false
  | some lockUntil => now < lockUntil

def TwoFA.enable (t : TwoFA) : M (Option Err) :=
  TwoFA.update { t with isEnabled := true, failedAttempts := 0, lockedUntil := none }

def disableTwoFA (userId : Int) : M (Option Err) := do
  match ← getTwoFAByUserId userId with
  | .error e => return some e
  | .ok none => return some .twoFANotEnabled
  | .ok (some twoFA) => twoFA.delete

theorem disableTwoFA_only {P : DBOp → Prop} (hread : ∀ userId, P (.twoFAFirst userId))
    (hdelete : ∀ t, P (.twoFADelete t)) (userId : Int) : Prog.Only P (disableTwoFA userId) := by
  refine (getTwoFAByUserId_only hread userId).bind fun r => ?_
  split
  · exact Prog.Only.pure
  · exact Prog.Only.pure
  · unfold TwoFA.delete
    split
    · exact Prog.Only.pure
    · exact only_perform (hdelete _) fun _ => Prog.Only.pure

/-! ### Backup codes -/

/-- `common.HashBackupCode` on every code. -/
def hashBackupCodes (ctx : Ctx) : List String → Except Err (List String)
  | [] => .ok []
  | code :: codes =>
    match ctx.password2Hash (normalizeBackupCode code), hashBackupCodes ctx codes with
    | .ok h, .ok hs => .ok (h :: hs)
    | .error e, _ => .error e
    | _, .error e => .error e

def createBackupCodes (ctx : Ctx) (userId : Int) (codes : List String) : M (Option Err) :=
  match hashBackupCodes ctx codes with
  | .error e => return some e
  | .ok hashes => do return errorOf (← perform (.codesReplace userId hashes ctx.now))

/-- The first unused code that the presented one hashes to. -/
def matchCode (env : Env) (code : String) (codes : List TwoFABackupCode) :
    Option TwoFABackupCode :=
  codes.find? fun bc => env.bcryptCompare bc.codeHash (normalizeBackupCode code)

theorem matchCode_eq_some {env : Env} {code : String} {codes : List TwoFABackupCode}
    {bc : TwoFABackupCode} (h : matchCode env code codes = some bc) :
    bc ∈ codes ∧ env.bcryptCompare bc.codeHash (normalizeBackupCode code) = true := by
  unfold matchCode at h
  have hcompare := List.find?_some h
  exact ⟨List.mem_of_find?_eq_some h, hcompare⟩

theorem matchCode_isSome (env : Env) (code : String) (codes : List TwoFABackupCode) :
    (matchCode env code codes).isSome = true ↔
      ∃ bc ∈ codes, env.bcryptCompare bc.codeHash (normalizeBackupCode code) = true := by
  unfold matchCode
  rw [List.find?_isSome]

/-- A code after it has been used. -/
def TwoFABackupCode.used (now : Int) (bc : TwoFABackupCode) : TwoFABackupCode :=
  { bc with isUsed := true, usedAt := some now }

def validateBackupCode (env : Env) (ctx : Ctx) (userId : Int) (code : String) :
    M (Except Err Bool) := do
  if !Common.validateBackupCode code then return .error (.new "验证码或备用码不正确")
  match ← perform (.codesUnused userId) with
  | .error e => return .error e
  | .ok backupCodes =>
    match matchCode env code backupCodes with
    | none => return .ok false
    | some bc =>
      match ← perform (.codeSave (bc.used ctx.now)) with
      | .error e => return .error e
      | .ok _ => return .ok true

theorem validateBackupCode_sparesUsers (env : Env) (ctx : Ctx) (userId : Int) (code : String) :
    SparesUsers (validateBackupCode env ctx userId code) := by
  unfold validateBackupCode
  split
  · exact Prog.Only.pure
  · refine only_perform rfl fun r => ?_
    cases r with
    | error e => exact Prog.Only.pure
    | ok codes =>
      dsimp only
      cases matchCode env code codes with
      | none => exact Prog.Only.pure
      | some bc =>
        refine only_perform rfl fun r => ?_
        cases r <;> exact Prog.Only.pure

/-- Two backup codes never clash, so a code with a key can always be saved. -/
theorem exec_codeSave_ok (db : DB) {bc : TwoFABackupCode} (hpos : 0 < bc.id) :
    (exec (.codeSave bc) db).1 = .ok () := by
  obtain ⟨t, ht⟩ := Table.put_isSome (t := db.backupCodes) (r := bc) (fun _ _ _ => rfl) hpos
  simp only [exec]
  rw [ht]
  rfl

/-- **When a backup code is accepted**: it is well formed, both statements go
through, and an unused code of the user has its hash. -/
theorem serve_validateBackupCode (env : Env) (ctx : Ctx) (userId : Int) (code : String) (s : Store) :
    (serve (validateBackupCode env ctx userId code) s).1 = .ok true ↔
      Common.validateBackupCode code = true ∧ s.outages 0 = none ∧ s.outages 1 = none ∧
        ∃ bc ∈ s.db.backupCodes, bc.live = true ∧ bc.userId = userId ∧ bc.isUsed = false ∧
          env.bcryptCompare bc.codeHash (normalizeBackupCode code) = true := by
  unfold validateBackupCode
  by_cases hform : Common.validateBackupCode code = true
  · rw [hform, Bool.not_true, if_neg Bool.false_ne_true, serve_perform]
    cases hfirst : s.outages 0 with
    | some e =>
      rw [Store.exec_down hfirst rfl]
      simp
    | none =>
      rw [Store.exec_read_up hfirst rfl]
      simp only [exec]
      have hiff := matchCode_isSome env code
        (s.db.backupCodes.select fun c => c.live && c.userId == userId && !c.isUsed)
      simp only [Table.mem_select, Bool.and_eq_true, beq_iff_eq, Bool.not_eq_true'] at hiff
      cases hmatch : matchCode env code
          (s.db.backupCodes.select fun c => c.live && c.userId == userId && !c.isUsed) with
      | none =>
        rw [hmatch] at hiff
        constructor
        · intro h
          cases h
        · rintro ⟨-, -, -, bc, hmem, hlive, huser, hused, hcompare⟩
          have hsome := hiff.mpr ⟨bc, ⟨hmem, ⟨hlive, huser⟩, hused⟩, hcompare⟩
          cases hsome
      | some bc =>
        rw [hmatch] at hiff
        have hpos : 0 < (bc.used ctx.now).id :=
          Table.key_pos (Table.mem_select.mp (matchCode_eq_some hmatch).1).1
        dsimp only
        rw [serve_perform]
        cases hsecond : s.outages 1 with
        | some e =>
          rw [Store.exec_down (s := s.rest) hsecond rfl]
          simp
        | none =>
          rw [Store.exec_up (s := s.rest) hsecond]
          dsimp only
          rw [exec_codeSave_ok s.rest.db hpos]
          obtain ⟨bc', ⟨hmem, ⟨hlive, huser⟩, hused⟩, hcompare⟩ := hiff.mp rfl
          constructor
          · intro _
            exact ⟨trivial, trivial, rfl, bc', hmem, hlive, huser, hused, hcompare⟩
          · intro _
            rfl
  · rw [Bool.not_eq_true] at hform
    rw [hform, Bool.not_false, if_pos rfl]
    simp

/-! ### Validation with bookkeeping -/

/-- Go's message for a locked account. -/
def TwoFA.lockedError (env : Env) (t : TwoFA) : Err :=
  .new ("账户已被锁定，请在" ++ env.formatTime (t.lockedUntil.getD 0) ++ "后重试")

/-- A validator's answer is booked in the record: a success resets it, a failure
counts.  That the record could not be saved is only logged. -/
def TwoFA.book (ctx : Ctx) (t : TwoFA) (valid : Bool) : M (Except Err Bool × TwoFA) := do
  if valid then
    let _ ← (t.succeeded ctx.now).update
    return (.ok true, t.succeeded ctx.now)
  else
    let (_, t) ← t.incrementFailedAttempts ctx
    return (.ok false, t)

def TwoFA.validateTOTPAndUpdateUsage (env : Env) (ctx : Ctx) (t : TwoFA) (code : String) :
    M (Except Err Bool × TwoFA) := do
  if t.isLocked ctx.now then return (.error (t.lockedError env), t)
  t.book ctx (validateTOTPCode (env.totpValidate ctx.now) t.secret code)

def TwoFA.validateBackupCodeAndUpdateUsage (env : Env) (ctx : Ctx) (t : TwoFA) (code : String) :
    M (Except Err Bool × TwoFA) := do
  if t.isLocked ctx.now then return (.error (t.lockedError env), t)
  match ← Model.validateBackupCode env ctx t.userId code with
  | .error e => return (.error e, t)
  | .ok valid => t.book ctx valid

theorem TwoFA.update_sat (t : TwoFA) (db : DB) :
    Sat t.update (fun _ db' => db'.backupCodes = db.backupCodes) db := by
  unfold TwoFA.update
  split
  · exact Sat.pure rfl
  · refine Sat.perform fun r db' h => Sat.pure ?_
    rcases h with ⟨-, rfl⟩ | ⟨-, rfl⟩
    · simp only [exec]
      cases db.twoFAs.put t <;> rfl
    · rfl

/-- Booking keeps the answer, the user and the backup codes. -/
theorem TwoFA.book_sat (ctx : Ctx) (t : TwoFA) (valid : Bool) (db : DB) :
    Sat (t.book ctx valid) (fun r db' => db'.backupCodes = db.backupCodes ∧
      r.2.userId = t.userId ∧ r.1 = .ok valid) db := by
  have hfailed : (t.failed ctx.now).userId = t.userId := by
    unfold TwoFA.failed
    dsimp only
    split <;> rfl
  cases valid with
  | true =>
    refine (TwoFA.update_sat (t.succeeded ctx.now) db).bind ?_
    intro err db' hdb
    exact Sat.pure ⟨hdb, rfl, rfl⟩
  | false =>
    have hinc : Sat (t.incrementFailedAttempts ctx) (fun r db' => db'.backupCodes = db.backupCodes ∧
        r.2 = t.failed ctx.now) db := by
      refine (TwoFA.update_sat (t.failed ctx.now) db).bind ?_
      intro err db' hdb
      exact Sat.pure ⟨hdb, rfl⟩
    refine hinc.bind ?_
    rintro ⟨err, t'⟩ db' ⟨hdb, rfl⟩
    exact Sat.pure ⟨hdb, hfailed, rfl⟩

/-- A TOTP code that is accepted is the record's. -/
theorem TwoFA.validateTOTPAndUpdateUsage_sat (env : Env) (ctx : Ctx) (t : TwoFA) (code : String)
    (db : DB) :
    Sat (t.validateTOTPAndUpdateUsage env ctx code) (fun r db' =>
      db'.backupCodes = db.backupCodes ∧ r.2.userId = t.userId ∧ (r.1 = .ok true →
        validateTOTPCode (env.totpValidate ctx.now) t.secret code = true)) db := by
  unfold TwoFA.validateTOTPAndUpdateUsage
  split
  · exact Sat.pure ⟨rfl, rfl, fun h => nomatch h⟩
  · refine Prog.Holds.mono (t.book_sat ctx _ db) ?_
    rintro r db' ⟨hdb, huser, hr⟩
    refine ⟨hdb, huser, fun h => ?_⟩
    rw [hr] at h
    exact Except.ok.inj h

/-- A backup code that is accepted is well formed and matches an unused one. -/
theorem validateBackupCode_sat (env : Env) (ctx : Ctx) (userId : Int) (code : String) (db : DB) :
    Sat (validateBackupCode env ctx userId code) (fun r _ => r = .ok true →
      Common.validateBackupCode code = true ∧ ∃ bc ∈ db.backupCodes, bc.live = true ∧
        bc.userId = userId ∧ bc.isUsed = false ∧
        env.bcryptCompare bc.codeHash (normalizeBackupCode code) = true) db := by
  unfold validateBackupCode
  split
  · exact Sat.pure fun h => by cases h
  · rename_i hform
    rw [Bool.not_eq_true', Bool.not_eq_false] at hform
    refine Sat.perform fun r db' h => ?_
    obtain ⟨rfl, hr⟩ := h.read rfl
    rcases hr with rfl | ⟨e, rfl⟩
    · simp only [exec]
      cases hmatch : matchCode env code
          (db'.backupCodes.select fun c => c.live && c.userId == userId && !c.isUsed) with
      | none => exact Sat.pure fun h => by cases h
      | some bc =>
        refine Sat.perform fun r db' _ => ?_
        obtain ⟨hselected, hcompare⟩ := matchCode_eq_some hmatch
        have hbc := Table.mem_select.mp hselected
        simp only [Bool.and_eq_true, beq_iff_eq, Bool.not_eq_true'] at hbc
        cases r with
        | error e => exact Sat.pure fun h => by cases h
        | ok _ =>
          exact Sat.pure fun _ =>
            ⟨hform, bc, hbc.1, hbc.2.1.1, hbc.2.1.2, hbc.2.2, hcompare⟩
    · exact Sat.pure fun h => by cases h

theorem TwoFA.validateBackupCodeAndUpdateUsage_sat (env : Env) (ctx : Ctx) (t : TwoFA)
    (code : String) (db : DB) :
    Sat (t.validateBackupCodeAndUpdateUsage env ctx code) (fun r _ => r.1 = .ok true →
      Common.validateBackupCode code = true ∧ ∃ bc ∈ db.backupCodes, bc.live = true ∧
        bc.userId = t.userId ∧ bc.isUsed = false ∧
        env.bcryptCompare bc.codeHash (normalizeBackupCode code) = true) db := by
  unfold TwoFA.validateBackupCodeAndUpdateUsage
  split
  · exact Sat.pure fun h => nomatch h
  · refine (validateBackupCode_sat env ctx t.userId code db).bind ?_
    intro r db' hr
    cases r with
    | error e => exact Sat.pure fun h => nomatch h
    | ok valid =>
      refine Prog.Holds.mono (t.book_sat ctx valid db') ?_
      rintro r db'' ⟨-, -, hbook⟩ h
      rw [hbook] at h
      exact hr h

/-- Booking answers what it books, whether the record could be saved or not. -/
theorem TwoFA.serve_book (ctx : Ctx) (t : TwoFA) (valid : Bool) (s : Store) :
    (serve (t.book ctx valid) s).1.1 = .ok valid := (t.book_sat ctx valid s.db).serve.2.2

theorem TwoFA.serve_validateTOTP_locked (env : Env) {ctx : Ctx} {t : TwoFA}
    (h : t.isLocked ctx.now = true) (code : String) (s : Store) :
    serve (t.validateTOTPAndUpdateUsage env ctx code) s = ((.error (t.lockedError env), t), s) := by
  unfold TwoFA.validateTOTPAndUpdateUsage
  rw [if_pos h]
  rfl

theorem TwoFA.serve_validateTOTP_unlocked (env : Env) {ctx : Ctx} {t : TwoFA}
    (h : t.isLocked ctx.now = false) (code : String) (s : Store) :
    (serve (t.validateTOTPAndUpdateUsage env ctx code) s).1.1
      = .ok (validateTOTPCode (env.totpValidate ctx.now) t.secret code) := by
  unfold TwoFA.validateTOTPAndUpdateUsage
  rw [h, if_neg Bool.false_ne_true]
  exact t.serve_book ctx _ s

theorem TwoFA.serve_validateBackup_locked (env : Env) {ctx : Ctx} {t : TwoFA}
    (h : t.isLocked ctx.now = true) (code : String) (s : Store) :
    serve (t.validateBackupCodeAndUpdateUsage env ctx code) s
      = ((.error (t.lockedError env), t), s) := by
  unfold TwoFA.validateBackupCodeAndUpdateUsage
  rw [if_pos h]
  rfl

theorem TwoFA.serve_validateBackup_unlocked (env : Env) {ctx : Ctx} {t : TwoFA}
    (h : t.isLocked ctx.now = false) (code : String) (s : Store) :
    (serve (t.validateBackupCodeAndUpdateUsage env ctx code) s).1.1
      = (serve (Model.validateBackupCode env ctx t.userId code) s).1 := by
  unfold TwoFA.validateBackupCodeAndUpdateUsage
  rw [h, if_neg Bool.false_ne_true, serve_bind]
  cases (serve (Model.validateBackupCode env ctx t.userId code) s).1 with
  | error e => rfl
  | ok valid => exact t.serve_book ctx valid _

/-- A string that is no backup code is not compared. -/
theorem TwoFA.serve_validateBackup_malformed (env : Env) (ctx : Ctx) (t : TwoFA) {code : String}
    (h : Common.validateBackupCode code = false) (s : Store) :
    ∃ e, serve (t.validateBackupCodeAndUpdateUsage env ctx code) s = ((.error e, t), s) := by
  cases hlocked : t.isLocked ctx.now with
  | true => exact ⟨_, TwoFA.serve_validateBackup_locked env hlocked code s⟩
  | false =>
    unfold TwoFA.validateBackupCodeAndUpdateUsage Model.validateBackupCode
    rw [hlocked, h, if_neg Bool.false_ne_true, Bool.not_false, if_pos rfl]
    exact ⟨_, rfl⟩

theorem TwoFA.book_only {P : DBOp → Prop} (h : ∀ t, P (.twoFASave t)) (ctx : Ctx) (t : TwoFA)
    (valid : Bool) : Prog.Only P (t.book ctx valid) := by
  cases valid with
  | true => exact (TwoFA.update_only h _).bind fun _ => Prog.Only.pure
  | false =>
    have hinc : Prog.Only P (t.incrementFailedAttempts ctx) :=
      (TwoFA.update_only h _).bind fun _ => Prog.Only.pure
    exact hinc.bind fun _ => Prog.Only.pure

theorem TwoFA.validateTOTP_only {P : DBOp → Prop} (h : ∀ t, P (.twoFASave t)) (env : Env)
    (ctx : Ctx) (t : TwoFA) (code : String) :
    Prog.Only P (t.validateTOTPAndUpdateUsage env ctx code) := by
  unfold TwoFA.validateTOTPAndUpdateUsage
  split
  · exact Prog.Only.pure
  · exact t.book_only h ctx _

theorem TwoFA.validateBackup_sparesUsers (env : Env) (ctx : Ctx) (t : TwoFA) (code : String) :
    SparesUsers (t.validateBackupCodeAndUpdateUsage env ctx code) := by
  unfold TwoFA.validateBackupCodeAndUpdateUsage
  split
  · exact Prog.Only.pure
  · refine (validateBackupCode_sparesUsers env ctx _ code).bind fun r => ?_
    cases r with
    | error e => exact Prog.Only.pure
    | ok valid => exact t.book_only (fun _ => rfl) ctx valid

end AuthGateway.Model
