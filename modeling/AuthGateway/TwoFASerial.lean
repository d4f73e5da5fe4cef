import AuthGateway.Lib.Serial
import AuthGateway.Controller.TwoFA

/-!
# The 2FA record, used by several requests at once

Verifications and deactivations of one user run side by side.  Each reads the
record, works on its copy, and saves the whole copy (or deletes the record) with
its last statement, so a count, a lock or a deletion that came in between is
written over.

**When a request that goes on after its read begins only while no other is under
way, the answers and the record are those of a serial order**
(`serialisable_of_orderly`).  Two wrong guesses at once count as one
(`guess_uncounted`).
-/

namespace AuthGateway.TwoFASerial

open Common Model Controller Prog

/-! ### Requests, side by side -/

inductive Request
  | totp (code : String)
  | backupCode (code : String)
  | disable

structure Act where
  request : Request
  env : Env
  ctx : Ctx

/-- Read the record, and validate with that copy. -/
def verify (userId : Int) (validate : TwoFA → M (Except Err Bool × TwoFA)) :
    M (Except Err Bool) := do
  match enabledTwoFA (← getTwoFAByUserId userId) with
  | .error e => return .error e
  | .ok twoFA => return (← validate twoFA).1

def handle (userId : Int) (a : Act) : M (Except Err Bool ⊕ Option Err) :=
  match a.request with
  | .totp code =>
    .inl <$> verify userId fun t => t.validateTOTPAndUpdateUsage a.env a.ctx code
  | .backupCode code =>
    .inl <$> verify userId fun t => t.validateBackupCodeAndUpdateUsage a.env a.ctx code
  | .disable => .inr <$> disableTwoFA userId

variable {ι : Type}

abbrev Requests (ι : Type) : Type :=
  Prog.Config DBOp DBOp.Res (Except Err Bool ⊕ Option Err) DB ι

def start (userId : Int) (acts : ι → Act) (db : DB) : Requests ι :=
  ⟨fun i => handle userId (acts i), db⟩

def record (db : DB) (userId : Int) : Option TwoFA :=
  db.twoFAs.find? fun t => t.live && t.userId == userId

/-- What of the record decides the next verification; `none` when there is no record. -/
def outcome (db : DB) (userId : Int) : Option (Nat × Option Int × Bool) :=
  (record db userId).map fun t => (t.failedAttempts, t.lockedUntil, t.isEnabled)

variable [DecidableEq ι]

/-- **The record and the answers are those of the same requests in some order.** -/
def Serialisable (userId : Int) (c : Requests ι) (sched : List ι) : Prop :=
  ∃ order : List ι, order.Nodup ∧ (∀ i, i ∈ order ↔ i ∈ sched) ∧
    outcome (play exec c sched).store userId = outcome (serial exec c order c.store) userId ∧
    ∀ before i after, order = before ++ i :: after →
      ((play exec c sched).threads i).answer
        = some (run exec (c.threads i) (serial exec c before c.store)).1

/-! ### The shape of the requests -/

/-- The statements that leave the records. -/
def sparesTwoFA : DBOp → Bool
  | .twoFACreate _ | .twoFASave _ | .twoFADelete _ => false
  | _ => true

theorem exec_spares {o : DBOp} (h : sparesTwoFA o = true) (db : DB) :
    (exec o db).2.twoFAs = db.twoFAs := by
  cases o with
  | twoFACreate t => cases h
  | twoFASave t => cases h
  | twoFADelete t => cases h
  | userCreate u => simp only [exec]; cases db.users.create u.withDefaults <;> rfl
  | userUpdates p f => simp only [exec]; cases db.users.update (fun u => u.live && p u) f <;> rfl
  | userSave u => simp only [exec]; cases db.users.put u <;> rfl
  | codeSave c => simp only [exec]; cases db.backupCodes.put c <;> rfl
  | codesReplace v hashes now =>
    simp only [exec]
    cases DB.replaceCodes db.backupCodes v hashes now <;> rfl
  | passkeyUpsert c =>
    simp only [exec]
    cases ((db.passkeys.delete fun x => x.userID == c.userID).create c).map Prod.snd <;> rfl
  | _ => rfl

/-- Only the last statement of the program is a write of a record. -/
abbrev SavesLast {α : Type} (p : M α) : Prop := Until (fun o => sparesTwoFA o = true) p

theorem update_savesLast (t : TwoFA) : SavesLast t.update := by
  unfold TwoFA.update
  split
  · exact .ret
  · exact Until.last _ fun r => ⟨errorOf r, rfl⟩

theorem book_savesLast (ctx : Ctx) (t : TwoFA) (valid : Bool) : SavesLast (t.book ctx valid) := by
  have hfailed : SavesLast (t.incrementFailedAttempts ctx) :=
    (update_savesLast _).bind_pure fun _ => ⟨_, rfl⟩
  cases valid with
  | true => exact (update_savesLast _).bind_pure fun _ => ⟨_, rfl⟩
  | false => exact hfailed.bind_pure fun _ => ⟨_, rfl⟩

theorem validateTOTP_savesLast (env : Env) (ctx : Ctx) (t : TwoFA) (code : String) :
    SavesLast (t.validateTOTPAndUpdateUsage env ctx code) := by
  unfold TwoFA.validateTOTPAndUpdateUsage
  split
  · exact .ret
  · exact book_savesLast ctx t _

theorem validateBackupCode_only (env : Env) (ctx : Ctx) (userId : Int) (code : String) :
    Only (fun o => sparesTwoFA o = true) (Model.validateBackupCode env ctx userId code) := by
  unfold Model.validateBackupCode
  split
  · exact Prog.Only.pure
  · refine only_perform rfl fun r => ?_
    cases r with
    | error e => exact Prog.Only.pure
    | ok codes =>
      dsimp only
      cases matchCode env code codes with
      | none => exact Prog.Only.pure
      | some bc =>
        refine only_perform rfl fun r => ?_
        cases r <;> exact Prog.Only.pure

theorem validateBackup_savesLast (env : Env) (ctx : Ctx) (t : TwoFA) (code : String) :
    SavesLast (t.validateBackupCodeAndUpdateUsage env ctx code) := by
  unfold TwoFA.validateBackupCodeAndUpdateUsage
  split
  · exact .ret
  · refine Until.bind_only (validateBackupCode_only env ctx t.userId code) fun r => ?_
    cases r with
    | error e => exact .ret
    | ok valid => exact book_savesLast ctx t valid

theorem verify_savesLast (userId : Int) {validate : TwoFA → M (Except Err Bool × TwoFA)}
    (h : ∀ t, SavesLast (validate t)) : SavesLast (verify userId validate) := by
  refine Until.bind_only (getTwoFAByUserId_only (fun _ => rfl) userId) fun r => ?_
  cases enabledTwoFA r with
  | error e => exact .ret
  | ok t => exact (h t).bind_pure fun _ => ⟨_, rfl⟩

theorem disableTwoFA_savesLast (userId : Int) : SavesLast (disableTwoFA userId) := by
  refine Until.bind_only (getTwoFAByUserId_only (fun _ => rfl) userId) fun r => ?_
  split
  · exact .ret
  · exact .ret
  · unfold TwoFA.delete
    split
    · exact .ret
    · exact Until.last _ fun r => ⟨errorOf r, rfl⟩

theorem handle_savesLast (userId : Int) (a : Act) : SavesLast (handle userId a) := by
  unfold handle
  cases a.request with
  | totp code =>
    exact (verify_savesLast userId fun t => validateTOTP_savesLast a.env a.ctx t code).bind_pure
      fun _ => ⟨_, rfl⟩
  | backupCode code =>
    exact (verify_savesLast userId fun t => validateBackup_savesLast a.env a.ctx t code).bind_pure
      fun _ => ⟨_, rfl⟩
  | disable => exact (disableTwoFA_savesLast userId).bind_pure fun _ => ⟨_, rfl⟩

/-- Every request begins with its read of the record, or does nothing. -/
theorem handle_first {userId : Int} {a : Act} {o : DBOp}
    {k : DBOp.Res o → M (Except Err Bool ⊕ Option Err)} (h : handle userId a = .call o k) :
    o = .twoFAFirst userId := by
  unfold handle verify disableTwoFA getTwoFAByUserId at h
  by_cases hid : userId = 0
  · rw [if_pos hid] at h
    cases hr : a.request <;> (rw [hr] at h; cases h)
  · rw [if_neg hid] at h
    cases hr : a.request <;> (rw [hr] at h; cases h; rfl)

/-! ### The result -/

/-- **Orderly requests are serialisable**, when they are all over. -/
theorem serialisable_of_orderly (userId : Int) (acts : ι → Act) (db : DB) (sched : List ι)
    (horderly : Runs.Always (Orderly exec (start userId acts db)) sched)
    (hover : ∀ i ∈ sched, ((play exec (start userId acts db) sched).threads i).answer ≠ none) :
    Serialisable userId (start userId acts db) sched := by
  have hglance : ∀ i o k, (start userId acts db).threads i = .call o k → ∀ db₁ db₂ : DB,
      db₂.twoFAs = db₁.twoFAs → exec o db₂ = ((exec o db₁).1, db₂) := by
    intro i o k hi db₁ db₂ hsame
    obtain rfl := handle_first hi
    simp only [exec]
    rw [hsame]
  have hview : ∀ o db, sparesTwoFA o = true → DB.twoFAs (exec o db).2 = DB.twoFAs db :=
    fun _ db h => exec_spares h db
  obtain ⟨order, hserial, hmem, hstore⟩ := serial_of_orderly
    (fun i => handle_savesLast userId (acts i)) hview hglance horderly hover
  refine ⟨order, hserial.nodup, hmem, ?_, ?_⟩
  · rw [hstore]
  · intro before i after he
    rw [hserial.answers before i after he]
    rfl

/-! ### Two guesses at once -/

def karl : TwoFA := { id := 1, userId := 1, secret := "123456", isEnabled := true }

def karlDB : DB where
  users := Table.single { id := 1, username := "karl", role := 1, status := 1 }
  twoFAs := Table.single karl
  backupCodes := Table.empty
  passkeys := Table.empty

/-- A guess, and the right code, of Karl. -/
def guessAndCode : Bool → Act
  | false => { request := .totp "000000", env := Env.plain, ctx := Ctx.plain 0 }
  | true => { request := .totp "123456", env := Env.plain, ctx := Ctx.plain 1 }

theorem guessThenCode_serialisable :
    Serialisable 1 (start 1 guessAndCode karlDB) [false, false, true, true] := by
  apply serialisable_of_orderly
  · -- the code begins when the guess is over
    have hbegun : ∀ pre : List Bool, ∀ i, i ∈ pre →
        Orderly exec (start 1 guessAndCode karlDB) pre i := fun _ _ hi hnot => absurd hi hnot
    have hsecond : Orderly exec (start 1 guessAndCode karlDB) [false, false] true := by
      refine fun _ => Or.inr ?_
      rintro j ⟨hj, hgoing⟩
      obtain rfl : j = false := by simpa using hj
      exact absurd hgoing (by decide)
    have hfirst : Orderly exec (start 1 guessAndCode karlDB) [] false :=
      fun _ => Or.inr fun j h => nomatch h.1
    show Runs.Always _ ([] ++ [false] ++ [false] ++ [true] ++ [true])
    simp only [Runs.always_snoc]
    exact ⟨⟨⟨⟨Runs.always_nil, hfirst⟩, hbegun _ _ (by decide)⟩, hsecond⟩, hbegun _ _ (by decide)⟩
  · decide

/-- Two guesses. -/
def guesses (_ : Bool) : Act := { request := .totp "000000", env := Env.plain, ctx := Ctx.plain 0 }

/-- **Two wrong guesses that both read the record before one of them saves it
count as one**, in no order of them. -/
theorem guess_uncounted :
    (∀ b, ((play exec (start 1 guesses karlDB) [false, true, false, true]).threads b).answer ≠ none)
      ∧ ¬ Serialisable 1 (start 1 guesses karlDB) [false, true, false, true] := by
  refine ⟨by decide, ?_⟩
  rintro ⟨order, hnodup, hmem, houtcome, -⟩
  have hperm : order.Perm [false, true] := by
    refine (List.perm_ext_iff_of_nodup hnodup (by decide)).mpr fun b => ?_
    rw [hmem]
    cases b <;> decide
  obtain ⟨a, b, rfl⟩ := List.length_eq_two.mp hperm.length_eq
  have hone : outcome (play exec (start 1 guesses karlDB) [false, true, false, true]).store 1
      = some (1, none, true) := by decide
  rw [hone] at houtcome
  -- either way round, the second guess counts on from the first
  cases a <;> cases b
  · exact absurd hnodup (by decide)
  · exact absurd houtcome (by decide)
  · exact absurd houtcome (by decide)
  · exact absurd hnodup (by decide)

end AuthGateway.TwoFASerial
