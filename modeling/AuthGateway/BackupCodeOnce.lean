import AuthGateway.Lib.Runs
import AuthGateway.Middleware.Auth
import Mathlib.Data.List.Nodup

/-!
# A backup code, presented at the same time

Any number of requests that take a backup code run side by side, one statement
at a time.  `ValidateBackupCode` selects the unused codes, compares, and saves
the code it found; it returns true exactly when that save goes through
(`validateBackupCode_eq`).  `acceptances` is the list of the rows for which it
does, over a schedule.

Between the select and the save another request can select the same row.  **A
schedule in which no request finds its code in a row that another one is about
to save accepts every row at most once, and a schedule that runs to its end
accepts no row twice only if it is such a one** (`accepted_once_iff`).
-/

namespace AuthGateway.BackupCodeOnce

open Common Model Controller Middleware Prog

/-! ### The requests, side by side -/

inductive Request
  | verify2FALogin (code : Option String)
  | disable2FA (code : Option String)
  | universalVerify (req : Except Err UniversalVerifyRequest)

structure Act where
  request : Request
  cookie : Session := {}
  authorization : String := ""
  ctx : Ctx

def handle (env : Env) (a : Act) : M Out :=
  let s := Sess.ofCookie a.cookie
  match a.request with
  | .verify2FALogin code => verify2FALogin env a.ctx s code
  | .disable2FA code =>
    behind userAuth s a.authorization a.ctx fun ctx => disable2FA env ctx s code
  | .universalVerify req =>
    behind userAuth s a.authorization a.ctx fun ctx => universalVerify env ctx s req

variable {ι : Type}

/-- The requests and the database they share. -/
abbrev Requests (ι : Type) : Type := Prog.Config DBOp DBOp.Res Out DB ι

/-- The requests before their first statement. -/
def start (env : Env) (acts : ι → Act) (db : DB) : Requests ι :=
  ⟨fun i => handle env (acts i), db⟩

/-- The row for which the next statement of request `i` has `ValidateBackupCode`
return true, if it does. -/
def accepts (c : Requests ι) (i : ι) : Option Int :=
  match c.threads i with
  | .call (.codeSave bc) _ =>
    match (exec (.codeSave bc) c.store).1 with
    | .ok _ => some bc.id
    | .error _ => none
  | _ => none

variable [DecidableEq ι]

/-- The rows accepted along a schedule. -/
def acceptances (c : Requests ι) : List ι → List Int
  | [] => []
  | i :: sched => (accepts c i).toList ++ acceptances (step exec c i) sched

/-- The request has found its code in row `r` and is about to save it. -/
def Matched (c : Requests ι) (i : ι) (r : Int) : Prop :=
  ∃ bc k, c.threads i = .call (.codeSave bc) k ∧ bc.id = r

/-- The next statement of request `i` does not find its code in a row that
another request is about to save. -/
def Clear (c : Requests ι) (i : ι) : Prop :=
  ∀ r j, j ≠ i → Matched c j r → ¬ Matched (step exec c i) i r

/-- Every step of a schedule is clear. -/
def ClearRun (c : Requests ι) (sched : List ι) : Prop :=
  Runs.Always (fun pre i => Clear (play exec c pre) i) sched

/-! ### The shape of the requests -/

/-- What `ValidateBackupCode` makes of the answer to its save. -/
def saved : Except Err Unit → M (Except Err Bool)
  | .error e => .ret (.error e)
  | .ok _ => .ret (.ok true)

/-- `ValidateBackupCode` on a well-formed code, statement by statement. -/
theorem validateBackupCode_eq (env : Env) (ctx : Ctx) (u : Int) {code : String}
    (h : Common.validateBackupCode code = true) :
    Model.validateBackupCode env ctx u code
      = .call (.codesUnused u) fun
          | .error e => .ret (.error e)
          | .ok codes =>
            match matchCode env code codes with
            | none => .ret (.ok false)
            | some bc => .call (.codeSave (bc.used ctx.now)) saved := by
  unfold Model.validateBackupCode
  rw [h, Bool.not_true, if_neg Bool.false_ne_true]
  refine congrArg (Prog.call (DBOp.codesUnused u)) (funext fun r => ?_)
  cases r with
  | error e => rfl
  | ok codes =>
    dsimp only [Prog.bind]
    cases matchCode env code codes with
    | none => rfl
    | some bc =>
      refine congrArg (Prog.call (DBOp.codeSave (bc.used ctx.now))) (funext fun r => ?_)
      cases r <;> rfl

/-- The statements that make no code unused, and are not about one. -/
def tame : DBOp → Bool
  | .codesUnused _ | .codeSave _ | .codesReplace _ _ _ => false
  | _ => true

/-- A program that saves a backup code only as used, and only right after it has
selected it. -/
inductive Careful {α : Type} : M α → Prop
  | ret {a : α} : Careful (.ret a)
  | call {o : DBOp} {k : DBOp.Res o → M α} (ho : tame o = true) (hk : ∀ r, Careful (k r)) :
      Careful (.call o k)
  | select {u : Int} {k : Except Err (List TwoFABackupCode) → M α}
      (pick : List TwoFABackupCode → Option TwoFABackupCode) (now : Int)
      (after : List TwoFABackupCode → Except Err Unit → M α)
      (hpick : ∀ codes bc, pick codes = some bc → bc ∈ codes)
      (herror : ∀ e, Careful (k (.error e)))
      (hnone : ∀ codes, pick codes = none → Careful (k (.ok codes)))
      (hsome : ∀ codes bc, pick codes = some bc →
        k (.ok codes) = .call (.codeSave (bc.used now)) (after codes))
      (hafter : ∀ codes r, Careful (after codes r)) : Careful (.call (.codesUnused u) k)

theorem Careful.bind {α β : Type} {p : M α} {f : α → M β} (h : Careful p)
    (hf : ∀ a, Careful (f a)) : Careful (p >>= f) := by
  induction h with
  | ret => exact hf _
  | call ho _ ih => exact .call ho ih
  | select pick now after hpick _ _ hsome _ ihe ihn iha =>
    refine .select pick now (fun codes r => after codes r >>= f) hpick ihe ihn ?_ iha
    intro codes bc hbc
    exact congrArg (fun p => p >>= f) (hsome codes bc hbc)

theorem careful_of_tame {α : Type} {p : M α} (h : Only (fun o => tame o = true) p) : Careful p := by
  induction h with
  | ret => exact .ret
  | call ho _ ih => exact .call ho ih

theorem validateBackupCode_careful (env : Env) (ctx : Ctx) (u : Int) (code : String) :
    Careful (Model.validateBackupCode env ctx u code) := by
  by_cases hform : Common.validateBackupCode code = true
  · rw [validateBackupCode_eq env ctx u hform]
    refine .select (matchCode env code) ctx.now (fun _ => saved) ?_ ?_ ?_ ?_ ?_
    · intro codes bc hbc
      exact (matchCode_eq_some hbc).1
    · intro e
      exact .ret
    · intro codes hnone
      dsimp only
      rw [hnone]
      exact .ret
    · intro codes bc hbc
      dsimp only
      rw [hbc]
    · intro codes r
      cases r <;> exact .ret
  · rw [Bool.not_eq_true] at hform
    unfold Model.validateBackupCode
    rw [hform, Bool.not_false, if_pos rfl]
    exact .ret

theorem tryCode_careful (env : Env) (ctx : Ctx) (t : TwoFA) (code : String) :
    Careful (tryCode env ctx t code) := by
  have htotp : Careful (tryTOTP env ctx t code) := by
    refine careful_of_tame ?_
    unfold tryTOTP
    split
    · exact (t.validateTOTP_only (fun _ => rfl) env ctx _).bind fun _ => Only.pure
    · exact Only.pure
  refine htotp.bind fun r => ?_
  dsimp only
  split
  · exact .ret
  · refine Careful.bind ?_ fun _ => .ret
    unfold TwoFA.validateBackupCodeAndUpdateUsage
    split
    · exact .ret
    · refine (validateBackupCode_careful env ctx _ code).bind fun r => ?_
      cases r with
      | error e => exact .ret
      | ok valid => exact careful_of_tame (TwoFA.book_only (fun _ => rfl) ctx _ valid)

theorem verify2FALogin_careful (env : Env) (ctx : Ctx) (s : Sess) (req : Option String) :
    Careful (verify2FALogin env ctx s req) := by
  unfold verify2FALogin
  cases req with
  | none => exact .ret
  | some code =>
    dsimp only
    cases s.cur.pendingUserId with
    | none => exact .ret
    | some userId =>
      refine (careful_of_tame (getUserById_only (fun _ _ => rfl) userId false)).bind fun r => ?_
      cases r with
      | error e => exact .ret
      | ok user =>
        refine (careful_of_tame (getTwoFAByUserId_only (fun _ => rfl) user.id)).bind fun r => ?_
        cases enabledTwoFA r with
        | error e => exact .ret
        | ok t =>
          refine (tryCode_careful env ctx t code).bind fun answers => ?_
          split <;> exact .ret

theorem disable2FA_careful (env : Env) (ctx : Ctx) (s : Sess) (req : Option String) :
    Careful (disable2FA env ctx s req) := by
  unfold disable2FA
  cases req with
  | none => exact .ret
  | some code =>
    refine (careful_of_tame (getTwoFAByUserId_only (fun _ => rfl) ctx.id)).bind fun r => ?_
    cases enabledTwoFA r with
    | error e => exact .ret
    | ok t =>
      refine (tryCode_careful env ctx t code).bind fun answers => ?_
      split
      · exact .ret
      · exact .ret
      · refine (careful_of_tame (disableTwoFA_only (fun _ => rfl) (fun _ => rfl) ctx.id)).bind
          fun r => ?_
        cases r <;> exact .ret

theorem universalVerify_careful (env : Env) (ctx : Ctx) (s : Sess)
    (req : Except Err UniversalVerifyRequest) : Careful (universalVerify env ctx s req) := by
  unfold universalVerify
  split
  · exact .ret
  cases req with
  | error e => exact .ret
  | ok r =>
    refine (careful_of_tame (User.fillBy_only (fun _ _ => rfl) _ _ _ _)).bind fun filled => ?_
    obtain ⟨err, user⟩ := filled
    cases err with
    | some e => exact .ret
    | none =>
      dsimp only
      split
      · exact .ret
      refine (careful_of_tame (getTwoFAByUserId_only (fun _ => rfl) ctx.id)).bind fun found => ?_
      refine (careful_of_tame (getPasskeyByUserID_only (fun _ => rfl) ctx.id)).bind fun passkey => ?_
      split
      · exact .ret
      unfold verifyMethod
      split
      · split
        · exact .ret
        split
        · exact .ret
        refine Careful.bind ?_ fun answers => ?_
        · unfold validateTwoFactorAuth
          split
          · exact .ret
          · split
            · exact .ret
            · exact tryCode_careful env ctx _ r.code
        · dsimp only
          split <;> exact .ret
      · split
        · split <;> exact .ret
        · exact .ret

theorem handle_careful (env : Env) (a : Act) : Careful (handle env a) := by
  have hbehind : ∀ handler : Ctx → M Out, (∀ ctx, Careful (handler ctx)) →
      Careful (behind userAuth (Sess.ofCookie a.cookie) a.authorization a.ctx handler) := by
    intro handler hhandler
    refine (careful_of_tame (authHelper_only (fun _ _ => rfl) roleCommonUser _ _)).bind fun r => ?_
    cases r with
    | error reply => exact .ret
    | ok auth => exact hhandler _
  unfold handle
  dsimp only
  cases a.request with
  | verify2FALogin code => exact verify2FALogin_careful env a.ctx _ code
  | disable2FA code => exact hbehind _ fun ctx => disable2FA_careful env ctx _ code
  | universalVerify req => exact hbehind _ fun ctx => universalVerify_careful env ctx _ req

/-! ### The invariant -/

/-- A tame statement adds no code. -/
theorem exec_tame {o : DBOp} (h : tame o = true) (db : DB) :
    ∀ bc ∈ (exec o db).2.backupCodes, bc ∈ db.backupCodes := by
  intro bc hbc
  cases o with
  | codesUnused u => exact nomatch h
  | codeSave c => exact nomatch h
  | codesReplace u hashes now => exact nomatch h
  | userCreate u =>
    simp only [exec] at hbc
    cases hcreate : db.users.create u.withDefaults with
    | none => rw [hcreate] at hbc; exact hbc
    | some r => rw [hcreate] at hbc; exact hbc
  | userUpdates p f =>
    simp only [exec] at hbc
    cases hup : db.users.update (fun u => u.live && p u) f with
    | none => rw [hup] at hbc; exact hbc
    | some t => rw [hup] at hbc; exact hbc
  | userSave u =>
    simp only [exec] at hbc
    cases hput : db.users.put u with
    | none => rw [hput] at hbc; exact hbc
    | some t => rw [hput] at hbc; exact hbc
  | twoFACreate t =>
    simp only [exec] at hbc
    cases hcreate : (db.twoFAs.create t).map Prod.snd with
    | none => rw [hcreate] at hbc; exact hbc
    | some t => rw [hcreate] at hbc; exact hbc
  | twoFASave t =>
    simp only [exec] at hbc
    cases hput : db.twoFAs.put t with
    | none => rw [hput] at hbc; exact hbc
    | some t => rw [hput] at hbc; exact hbc
  | twoFADelete t => exact (Table.mem_delete.mp hbc).1
  | passkeyUpsert c =>
    simp only [exec] at hbc
    cases hcreate : ((db.passkeys.delete fun x => x.userID == c.userID).create c).map Prod.snd with
    | none => rw [hcreate] at hbc; exact hbc
    | some t => rw [hcreate] at hbc; exact hbc
  | _ => exact hbc

/-- What request `i` is about to do: something careful, or to save a code. -/
def Ready (c : Requests ι) (i : ι) : Prop :=
  Careful (c.threads i) ∨ ∃ bc k, c.threads i = .call (.codeSave bc) k ∧ bc.isUsed = true ∧
    0 < bc.id ∧ ∀ r, Careful (k r)

omit [DecidableEq ι] in
theorem not_matched_of_careful {c : Requests ι} {i : ι} (h : Careful (c.threads i)) (r : Int) :
    ¬ Matched c i r := by
  rintro ⟨bc, k, hi, -⟩
  rw [hi] at h
  cases h with
  | call ho _ => exact nomatch ho

omit [DecidableEq ι] in
theorem accepts_of_tame {c : Requests ι} {i : ι} {o : DBOp} {k : DBOp.Res o → M Out}
    (hi : c.threads i = .call o k) (ho : tame o = true ∨ o.isRead = true) : accepts c i = none := by
  unfold accepts
  rw [hi]
  cases o with
  | codeSave bc =>
    rcases ho with h | h
    · exact nomatch h
    · exact nomatch h
  | _ => rfl

/-- What a step of request `i` does. -/
inductive Move (c : Requests ι) (i : ι) : Prop
  /-- Nothing is saved; a row that is matched now is unused. -/
  | quiet (haccepts : accepts c i = none) (hnot : ∀ r, ¬ Matched c i r)
      (hsub : ∀ bc ∈ (step exec c i).store.backupCodes, bc ∈ c.store.backupCodes)
      (hmatch : ∀ r, Matched (step exec c i) i r →
        ∃ bc ∈ c.store.backupCodes, bc.id = r ∧ bc.isUsed = false)
  /-- The row that was matched is saved, as used. -/
  | save (r : Int) (hmatched : Matched c i r) (haccepts : accepts c i = some r)
      (hsub : ∀ bc ∈ (step exec c i).store.backupCodes,
        (bc.id = r ∧ bc.isUsed = true) ∨ bc ∈ c.store.backupCodes ∧ bc.id ≠ r)
      (hmatch : ∀ r', ¬ Matched (step exec c i) i r')

theorem move_of_ready {c : Requests ι} {i : ι} (h : Ready c i) :
    Ready (step exec c i) i ∧ Move c i := by
  rcases h with hcareful | ⟨bc, k, hi, hbc, hpos, hk⟩
  · have hnot := not_matched_of_careful hcareful
    generalize hp : c.threads i = p at hcareful
    cases hcareful with
    | ret =>
      have hcareful : Careful (c.threads i) := by
        rw [hp]
        exact .ret
      rw [step_ret exec hp]
      refine ⟨Or.inl hcareful, ?_⟩
      have haccepts : accepts c i = none := by
        unfold accepts
        rw [hp]
      refine .quiet haccepts hnot ?_ ?_
      · rw [step_ret exec hp]
        exact fun bc hbc => hbc
      · intro r hm
        rw [step_ret exec hp] at hm
        exact absurd hm (not_matched_of_careful hcareful r)
    | @call o k ho hk =>
      have hstep := step_call exec hp
      have hthread : (step exec c i).threads i = k (exec o c.store).1 := by
        rw [hstep]
        exact Function.update_self _ _ _
      have hnew : Careful ((step exec c i).threads i) := by
        rw [hthread]
        exact hk _
      refine ⟨Or.inl hnew, .quiet (accepts_of_tame hp (Or.inl ho)) hnot ?_ ?_⟩
      · rw [hstep]
        exact exec_tame ho c.store
      · intro r hm
        exact absurd hm (not_matched_of_careful hnew r)
    | @select u k pick now after hpick herror hnone hsome hafter =>
      have hstep := step_call exec hp
      have hthread : (step exec c i).threads i = k (.ok (c.store.backupCodes.select fun c =>
          c.live && c.userId == u && !c.isUsed)) := by
        rw [hstep]
        exact Function.update_self _ _ _
      have hsub : ∀ bc ∈ (step exec c i).store.backupCodes, bc ∈ c.store.backupCodes := by
        rw [hstep]
        exact fun bc hbc => hbc
      cases hcodes : pick (c.store.backupCodes.select fun c =>
          c.live && c.userId == u && !c.isUsed) with
      | none =>
        have hnew : Careful ((step exec c i).threads i) := by
          rw [hthread]
          exact hnone _ hcodes
        refine ⟨Or.inl hnew, .quiet (accepts_of_tame hp (Or.inr rfl)) hnot hsub ?_⟩
        intro r hm
        exact absurd hm (not_matched_of_careful hnew r)
      | some bc =>
        obtain ⟨hmem, hselected⟩ := Table.mem_select.mp (hpick _ bc hcodes)
        simp only [Bool.and_eq_true, Bool.not_eq_true'] at hselected
        have hnew : (step exec c i).threads i = .call (.codeSave (bc.used now)) (after _) :=
          hthread.trans (hsome _ bc hcodes)
        refine ⟨Or.inr ⟨bc.used now, _, hnew, rfl, Table.key_pos hmem, hafter _⟩,
          .quiet (accepts_of_tame hp (Or.inr rfl)) hnot hsub ?_⟩
        rintro r ⟨bc', k', hi, rfl⟩
        rw [hnew] at hi
        obtain rfl : bc.used now = bc' := by
          injection hi with ho _
          exact DBOp.codeSave.inj ho
        exact ⟨bc, hmem, rfl, hselected.2⟩
  · have hstep := step_call exec hi
    have hthread : (step exec c i).threads i = k (exec (.codeSave bc) c.store).1 := by
      rw [hstep]
      exact Function.update_self _ _ _
    have hnew : Careful ((step exec c i).threads i) := by
      rw [hthread]
      exact hk _
    obtain ⟨table, htable⟩ := Table.put_isSome (t := c.store.backupCodes) (r := bc)
      (fun _ _ _ => rfl) hpos
    have hexec : exec (.codeSave bc) c.store = (.ok (), c.store.setBackupCodes table) := by
      simp only [exec]
      rw [htable]
      rfl
    have haccepts : accepts c i = some bc.id := by
      unfold accepts
      rw [hi]
      dsimp only
      rw [hexec]
    refine ⟨Or.inl hnew, .save bc.id ⟨bc, k, hi, rfl⟩ haccepts ?_ ?_⟩
    · rw [hstep]
      intro x hx
      rw [hexec] at hx
      rcases (Table.mem_put htable).mp hx with rfl | hold
      · exact Or.inl ⟨rfl, hbc⟩
      · exact Or.inr hold
    · intro r
      exact not_matched_of_careful hnew r

/-- The other requests stand where they stood. -/
theorem matched_step_other {c : Requests ι} {i j : ι} (hj : j ≠ i) (r : Int) :
    Matched (step exec c i) j r ↔ Matched c j r := by
  unfold Matched
  rw [step_threads_of_ne exec c hj]

theorem ready_step {c : Requests ι} (h : ∀ j, Ready c j) (i : ι) : ∀ j, Ready (step exec c i) j := by
  intro j
  by_cases hj : j = i
  · rw [hj]
    exact (move_of_ready (h i)).1
  · have hold := h j
    unfold Ready at hold ⊢
    rw [step_threads_of_ne exec c hj]
    exact hold

theorem ready_play {c : Requests ι} (h : ∀ j, Ready c j) (sched : List ι) :
    ∀ j, Ready (play exec c sched) j := by
  induction sched generalizing c with
  | nil => exact h
  | cons i sched ih => exact ih (ready_step h i)

/-- The rows accepted so far are used up, and no row is matched twice. -/
structure Inv (c : Requests ι) (spent : List Int) : Prop where
  ready : ∀ i, Ready c i
  used : ∀ r ∈ spent, ∀ bc ∈ c.store.backupCodes, bc.id = r → bc.isUsed = true
  unmatched : ∀ r ∈ spent, ∀ i, ¬ Matched c i r
  alone : ∀ i j r, Matched c i r → Matched c j r → i = j

/-- No row is matched twice after a clear step. -/
theorem alone_step {c : Requests ι} {spent : List Int} {i : ι} (hinv : Inv c spent)
    (hclear : Clear c i) : ∀ j k r, Matched (step exec c i) j r → Matched (step exec c i) k r →
      j = k := by
  intro j k r hjm hkm
  by_cases hj : j = i
  · by_cases hk : k = i
    · exact hj.trans hk.symm
    · rw [hj] at hjm
      exact absurd hjm (hclear r k hk ((matched_step_other hk r).mp hkm))
  · by_cases hk : k = i
    · rw [hk] at hkm
      exact absurd hkm (hclear r j hj ((matched_step_other hj r).mp hjm))
    · exact hinv.alone j k r ((matched_step_other hj r).mp hjm) ((matched_step_other hk r).mp hkm)

/-- **One step**: it accepts no row that is spent, and keeps the invariant. -/
theorem inv_step {c : Requests ι} {spent : List Int} {i : ι} (hinv : Inv c spent)
    (hclear : Clear c i) : (∀ r, accepts c i = some r → r ∉ spent) ∧
      Inv (step exec c i) ((accepts c i).toList ++ spent) := by
  have hready := ready_step hinv.ready i
  have halone := alone_step hinv hclear
  cases (move_of_ready (hinv.ready i)).2 with
  | quiet haccepts _ hsub hmatch =>
    rw [haccepts]
    refine ⟨(fun r hr => by cases hr), hready, ?_, ?_, halone⟩
    · intro r hr bc hbc
      exact hinv.used r hr bc (hsub bc hbc)
    · intro r hr j hm
      by_cases hj : j = i
      · rw [hj] at hm
        obtain ⟨bc, hbc, hid, hunused⟩ := hmatch r hm
        rw [hinv.used r hr bc hbc hid] at hunused
        cases hunused
      · exact hinv.unmatched r hr j ((matched_step_other hj r).mp hm)
  | save r hmatched haccepts hsub hmatch =>
    rw [haccepts]
    refine ⟨?_, hready, ?_, ?_, halone⟩
    · intro r' hr' hspent
      obtain rfl := Option.some.inj hr'
      exact hinv.unmatched r hspent i hmatched
    · intro r' hr' bc hbc hid
      rcases hsub bc hbc with ⟨-, hused⟩ | ⟨hold, hne⟩
      · exact hused
      · rcases List.mem_cons.mp hr' with rfl | hr'
        · exact absurd hid hne
        · exact hinv.used r' hr' bc hold hid
    · intro r' hr' j hm
      by_cases hj : j = i
      · rw [hj] at hm
        exact hmatch r' hm
      · have hm := (matched_step_other hj r').mp hm
        rcases List.mem_cons.mp hr' with rfl | hr'
        · exact hj (hinv.alone j i r' hm hmatched)
        · exact hinv.unmatched r' hr' j hm

/-- **A clear schedule accepts no row twice, and none that is spent.** -/
theorem nodup_of_clear {sched : List ι} {c : Requests ι} {spent : List Int} (hinv : Inv c spent)
    (hclear : ClearRun c sched) :
    (acceptances c sched).Nodup ∧ ∀ r ∈ acceptances c sched, r ∉ spent := by
  induction sched generalizing c spent with
  | nil => exact ⟨List.nodup_nil, fun r hr => nomatch hr⟩
  | cons i sched ih =>
    obtain ⟨hfresh, hnext⟩ := inv_step hinv (hclear [] i sched rfl)
    have hrest : ClearRun (step exec c i) sched := by
      intro pre j post he
      exact hclear (i :: pre) j post (by rw [he]; rfl)
    obtain ⟨hnodup, hout⟩ := ih hnext hrest
    unfold acceptances
    cases haccepts : accepts c i with
    | none =>
      rw [haccepts] at hout
      exact ⟨hnodup, hout⟩
    | some r =>
      rw [haccepts] at hout
      refine ⟨List.nodup_cons.mpr ⟨fun hr => hout r hr List.mem_cons_self, hnodup⟩, ?_⟩
      intro x hx
      rcases List.mem_cons.mp hx with rfl | hx
      · exact hfresh x haccepts
      · exact fun hs => hout x hx (List.mem_cons_of_mem _ hs)

omit [DecidableEq ι] in
theorem ready_start (env : Env) (acts : ι → Act) (db : DB) : ∀ i, Ready (start env acts db) i :=
  fun i => Or.inl (handle_careful env (acts i))

omit [DecidableEq ι] in
theorem inv_start (env : Env) (acts : ι → Act) (db : DB) : Inv (start env acts db) [] := by
  refine ⟨ready_start env acts db, (fun r hr => nomatch hr), (fun r hr => nomatch hr), ?_⟩
  intro i j r hm
  exact absurd hm (not_matched_of_careful (handle_careful env (acts i)) r)

/-! ### Two that match the same row -/

/-- The request has answered. -/
def Finished (c : Requests ι) (i : ι) : Prop := ((c.threads i).answer).isSome = true

omit [DecidableEq ι] in
theorem not_finished_of_matched {c : Requests ι} {i : ι} {r : Int} (h : Matched c i r) :
    ¬ Finished c i := by
  obtain ⟨bc, k, hi, -⟩ := h
  unfold Finished
  rw [hi]
  exact Bool.false_ne_true

omit [DecidableEq ι] in
theorem matched_unique {c : Requests ι} {i : ι} {r r' : Int} (h : Matched c i r)
    (h' : Matched c i r') : r = r' := by
  obtain ⟨bc, k, hi, rfl⟩ := h
  obtain ⟨bc', k', hi', rfl⟩ := h'
  rw [hi] at hi'
  injection hi' with ho _
  rw [DBOp.codeSave.inj ho]

/-- The step of a request that has matched a row accepts it. -/
theorem accepts_of_matched {c : Requests ι} {i : ι} (hready : Ready c i) {r : Int}
    (hm : Matched c i r) : accepts c i = some r := by
  cases (move_of_ready hready).2 with
  | quiet _ hnot _ _ => exact absurd hm (hnot r)
  | save r' hm' haccepts _ _ =>
    rw [matched_unique hm hm']
    exact haccepts

/-- A request that has matched a row and finishes accepts it. -/
theorem count_pos_of_matched {sched : List ι} {c : Requests ι} (hready : ∀ j, Ready c j) {i : ι}
    {r : Int} (hm : Matched c i r) (hdone : Finished (play exec c sched) i) :
    1 ≤ (acceptances c sched).count r := by
  induction sched generalizing c with
  | nil => exact absurd hdone (not_finished_of_matched hm)
  | cons j sched ih =>
    unfold acceptances
    rw [List.count_append]
    by_cases hj : i = j
    · rw [← hj, accepts_of_matched (hready i) hm, Option.toList_some, List.count_singleton_self]
      omega
    · have hrest := ih (ready_step hready j) ((matched_step_other hj r).mpr hm) hdone
      omega

/-- Two requests that have matched the same row, and finish, accept it twice. -/
theorem count_two_of_matched {sched : List ι} {c : Requests ι} (hready : ∀ j, Ready c j) {i j : ι}
    (hij : i ≠ j) {r : Int} (hi : Matched c i r) (hj : Matched c j r)
    (hdone : ∀ k, Finished (play exec c sched) k) : 2 ≤ (acceptances c sched).count r := by
  induction sched generalizing c with
  | nil => exact absurd (hdone i) (not_finished_of_matched hi)
  | cons k sched ih =>
    unfold acceptances
    rw [List.count_append]
    have hnext := ready_step hready k
    by_cases hik : i = k
    · have hrest := count_pos_of_matched hnext
        ((matched_step_other (fun h => hij (hik.trans h.symm)) r).mpr hj) (hdone j)
      rw [← hik] at hrest ⊢
      rw [accepts_of_matched (hready i) hi, Option.toList_some, List.count_singleton_self]
      omega
    · by_cases hjk : j = k
      · have hrest := count_pos_of_matched hnext ((matched_step_other hik r).mpr hi) (hdone i)
        rw [← hjk] at hrest ⊢
        rw [accepts_of_matched (hready j) hj, Option.toList_some, List.count_singleton_self]
        omega
      · have hrest := ih hnext ((matched_step_other hik r).mpr hi)
          ((matched_step_other hjk r).mpr hj) hdone
        omega

theorem acceptances_append (c : Requests ι) (l₁ l₂ : List ι) :
    acceptances c (l₁ ++ l₂) = acceptances c l₁ ++ acceptances (play exec c l₁) l₂ := by
  induction l₁ generalizing c with
  | nil => rfl
  | cons i l₁ ih =>
    rw [List.cons_append, acceptances, acceptances, ih, List.append_assoc, play_cons]

theorem clear_of_nodup {c : Requests ι} (hready : ∀ j, Ready c j) {sched : List ι}
    (hdone : ∀ k, Finished (play exec c sched) k) (hnodup : (acceptances c sched).Nodup) :
    ClearRun c sched := by
  intro pre i post he r j hj hmj hmi
  rw [he, play_append, play_cons] at hdone
  have htwo := count_two_of_matched (ready_step (ready_play hready pre) i) hj
    ((matched_step_other hj r).mpr hmj) hmi hdone
  have hone := List.nodup_iff_count_le_one.mp hnodup r
  rw [he, acceptances_append, acceptances, List.count_append, List.count_append] at hone
  omega

/-- **Every row is accepted at most once in a clear schedule; and a schedule in
which all requests finish accepts every row at most once only if it is clear.** -/
theorem accepted_once_iff (env : Env) (acts : ι → Act) (db : DB) (sched : List ι) :
    (ClearRun (start env acts db) sched → (acceptances (start env acts db) sched).Nodup) ∧
    ((∀ i, Finished (play exec (start env acts db) sched) i) →
      (acceptances (start env acts db) sched).Nodup → ClearRun (start env acts db) sched) :=
  ⟨fun hclear => (nodup_of_clear (inv_start env acts db) hclear).1,
    fun hdone => clear_of_nodup (ready_start env acts db) hdone⟩

/-! ### One code, twice -/

/-- Erin, with one backup code left. -/
def erinDB : DB where
  users := Table.single { id := 1, username := "erin", role := 1, status := 1 }
  twoFAs := Table.single { id := 1, userId := 1, secret := "123456", isEnabled := true }
  backupCodes := Table.single { id := 1, userId := 1, codeHash := "#ABCD-2345" }
  passkeys := Table.empty

/-- Two sessions, each with her second factor pending and the same code. -/
def twoLogins (_ : Bool) : Act where
  request := .verify2FALogin (some "abcd-2345")
  cookie := { pendingUserId := some 1 }
  ctx := Ctx.plain 0

/-- One after the other, she is let in once. -/
theorem accepted_once_in_turn :
    let sched := List.replicate 5 false ++ List.replicate 4 true
    acceptances (start Env.plain twoLogins erinDB) sched = [1] ∧
      ClearRun (start Env.plain twoLogins erinDB) sched := by
  intro sched
  have honce : acceptances (start Env.plain twoLogins erinDB) sched = [1] := by decide
  refine ⟨honce, (accepted_once_iff Env.plain twoLogins erinDB sched).2 ?_ ?_⟩
  · exact Bool.forall_bool.mpr ⟨rfl, rfl⟩
  · rw [honce]
    decide

/-- Both select her codes before either saves. -/
def racing : List Bool :=
  [false, false, false, true, true, true, false, false, true, true]

/-- **One backup code lets both sessions in.** -/
theorem accepted_twice :
    ¬ (acceptances (start Env.plain twoLogins erinDB) racing).Nodup ∧
      ∀ i, ((play exec (start Env.plain twoLogins erinDB) racing).threads i).answer.bind
        (fun out => out.login.map User.id) = some 1 :=
  ⟨by decide, Bool.forall_bool.mpr ⟨rfl, rfl⟩⟩

end AuthGateway.BackupCodeOnce
