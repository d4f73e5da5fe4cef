import AuthGateway.Lib.Runs
import AuthGateway.Accounts

/-!
# The codes that were issued

The map of codes along the runs of the whole system.  A request that issues a
code remembers it for its purpose and its address and hands it to the mail
server; `Issues` says which code, and under which checks.

**Whatever the map holds was issued in the run** (`entries_after`), so a code
that is accepted was issued for the address it is shown for, less than ten
minutes ago (`issued_of_verify`).
-/

namespace AuthGateway.IssuedCodes

open Common Model Controller Accounts

/-- The address is that of a row, maybe of a deleted one. -/
def Taken (db : DB) (email : String) : Prop := ∃ row ∈ db.users, row.email = email

/-- **The code that a request issues**: to verify an address that the settings
admit and no account has, or to reset the password of an account. -/
inductive Issues (sys : System) (a : Act) : (purpose email code : String) → Prop
  | verification {email : String} (hreq : a.request = .sendEmailVerification email)
      (hcheck : checkEmail a.env email = none) (hfree : ¬ Taken sys.db email) :
      Issues sys a emailVerificationPurpose email (generateVerificationCode a.ctx.uuid 6)
  | reset {email : String} (hreq : a.request = .sendPasswordResetEmail email)
      (hvalid : a.env.validEmail email = true) (htaken : Taken sys.db email) :
      Issues sys a passwordResetPurpose email (generateVerificationCode a.ctx.uuid 0)

/-- The code was issued for the address in the run, at that moment. -/
def Issued (start : System) (acts : List Act) (purpose email code : String) (time : Int) : Prop :=
  Runs.Earlier step start (fun sys a => Issues sys a purpose email code ∧ a.ctx.now = time) acts

/-! ### One step -/

theorem isEmailAlreadyTaken_ends (email : String) (db : DB) :
    Ends (isEmailAlreadyTaken email) (fun r db' => db' = db ∧ (r = true ↔ Taken db email)) db := by
  unfold isEmailAlreadyTaken alreadyTaken Taken
  refine Ends.perform ?_
  simp only [exec]
  cases hfind : db.users.find? (seen true fun u => u.email == email) with
  | some row =>
    have hemail : (row.email == email) = true := by simpa [seen] using Table.find?_holds hfind
    exact Ends.pure ⟨rfl, fun _ => ⟨row, Table.find?_mem hfind, beq_iff_eq.mp hemail⟩, fun _ => rfl⟩
  | none =>
    refine Ends.pure ⟨rfl, fun h => by simp at h, ?_⟩
    rintro ⟨row, hrow, hemail⟩
    have hnot := Table.find?_eq_none.mp hfind row hrow
    simp [seen, hemail] at hnot

theorem mem_sendCode {ctx : Ctx} {s : Sess} {codes : VerificationMap} {email code purpose : String}
    {e : String × VerificationValue} (h : e ∈ (sendCode ctx s codes email code purpose).2.entries) :
    e ∈ codes.entries ∨ e = (purpose ++ email, ⟨code, ctx.now⟩) := by
  have hmem : e ∈ (codes.register ctx.now email code purpose).entries := by
    unfold sendCode at h
    dsimp only at h
    split at h <;> exact h
  rcases VerificationMap.mem_register hmem with he | ⟨he, -⟩
  · exact Or.inr he
  · exact Or.inl he

theorem codes_sendEmailVerification (env : Env) (ctx : Ctx) (s : Sess) (codes : VerificationMap)
    (email : String) (db : DB) :
    Ends (sendEmailVerification env ctx s codes email) (fun r _ => ∀ e ∈ r.2.entries,
      e ∈ codes.entries ∨ (checkEmail env email = none ∧ ¬ Taken db email) ∧
        e = (emailVerificationPurpose ++ email, ⟨generateVerificationCode ctx.uuid 6, ctx.now⟩))
      db := by
  unfold sendEmailVerification
  split
  · exact Ends.pure fun e he => Or.inl he
  · rename_i hcheck
    refine (isEmailAlreadyTaken_ends email db).bind ?_
    rintro isTaken db' ⟨rfl, htaken⟩
    split
    · exact Ends.pure fun e he => Or.inl he
    · rename_i hfree
      refine Ends.pure fun e he => (mem_sendCode he).imp_right fun hissued => ?_
      exact ⟨⟨hcheck, fun h => hfree (htaken.mpr h)⟩, hissued⟩

theorem codes_sendPasswordResetEmail (env : Env) (ctx : Ctx) (s : Sess) (codes : VerificationMap)
    (email : String) (db : DB) :
    Ends (sendPasswordResetEmail env ctx s codes email) (fun r _ => ∀ e ∈ r.2.entries,
      e ∈ codes.entries ∨ (env.validEmail email = true ∧ Taken db email) ∧
        e = (passwordResetPurpose ++ email, ⟨generateVerificationCode ctx.uuid 0, ctx.now⟩))
      db := by
  unfold sendPasswordResetEmail
  split
  · exact Ends.pure fun e he => Or.inl he
  · rename_i hvalid
    rw [Bool.not_eq_true', Bool.not_eq_false] at hvalid
    refine (isEmailAlreadyTaken_ends email db).bind ?_
    rintro isTaken db' ⟨rfl, htaken⟩
    split
    · exact Ends.pure fun e he => Or.inl he
    · rename_i hregistered
      rw [Bool.not_eq_true', Bool.not_eq_false] at hregistered
      refine Ends.pure fun e he => (mem_sendCode he).imp_right fun hissued => ?_
      exact ⟨⟨hvalid, htaken.mp hregistered⟩, hissued⟩

theorem codes_resetPassword (ctx : Ctx) (s : Sess) (codes : VerificationMap)
    (req : Option PasswordResetRequest) (db : DB) :
    Sat (resetPassword ctx s codes req) (fun r _ => ∀ e ∈ r.2.entries, e ∈ codes.entries) db := by
  unfold resetPassword
  cases req with
  | none => exact Sat.pure fun e he => he
  | some req =>
    dsimp only
    split
    · exact Sat.pure fun e he => he
    split
    · exact Sat.pure fun e he => he
    refine (Prog.Holds.trivial _ db).bind fun r db' _ => ?_
    cases r with
    | some err => exact Sat.pure fun e he => he
    | none => exact Sat.pure fun e he => (VerificationMap.mem_delete.mp he).1

/-- **What is in the map after a step** was there, or the request issued it. -/
theorem entries_step (sys : System) (a : Act) {e : String × VerificationValue}
    (h : e ∈ (step sys a).codes.entries) : e ∈ sys.codes.entries ∨ ∃ purpose email code,
      Issues sys a purpose email code ∧ e = (purpose ++ email, ⟨code, a.ctx.now⟩) := by
  unfold step handle at h
  cases hreq : a.request with
  | sendEmailVerification email =>
    rw [hreq] at h
    refine (codes_sendEmailVerification a.env a.ctx (Sess.ofCookie a.cookie) sys.codes email
      sys.db e h).imp_right ?_
    rintro ⟨⟨hcheck, hfree⟩, he⟩
    exact ⟨_, _, _, .verification hreq hcheck hfree, he⟩
  | sendPasswordResetEmail email =>
    rw [hreq] at h
    refine (codes_sendPasswordResetEmail a.env a.ctx (Sess.ofCookie a.cookie) sys.codes email
      sys.db e h).imp_right ?_
    rintro ⟨⟨hvalid, htaken⟩, he⟩
    exact ⟨_, _, _, .reset hreq hvalid htaken, he⟩
  | resetPassword req =>
    rw [hreq] at h
    exact Or.inl ((codes_resetPassword a.ctx (Sess.ofCookie a.cookie) sys.codes req sys.db).run e h)
  | _ =>
    rw [hreq] at h
    dsimp only at h
    first
      | exact Or.inl h
      | rw [Prog.run_bind] at h
        exact Or.inl h

/-! ### Every run -/

/-- **Whatever the map of codes holds was issued in the run**, unless it was there
at its start. -/
theorem entries_after (start : System) (acts : List Act) {e : String × VerificationValue}
    (h : e ∈ (Runs.after step start acts).codes.entries) :
    e ∈ start.codes.entries ∨ ∃ purpose email,
      Issued start acts purpose email e.2.code e.2.time ∧ e.1 = purpose ++ email := by
  induction acts using List.reverseRecOn with
  | nil => exact Or.inl h
  | append_singleton acts a ih =>
    rw [Runs.after_snoc] at h
    rcases entries_step _ a h with hold | ⟨purpose, email, code, hissues, rfl⟩
    · rcases ih hold with hstart | ⟨purpose, email, hissued, he⟩
      · exact Or.inl hstart
      · exact Or.inr ⟨purpose, email, Runs.earlier_snoc.mpr (Or.inl hissued), he⟩
    · exact Or.inr ⟨purpose, email, Runs.earlier_snoc.mpr (Or.inr ⟨hissues, rfl⟩), rfl⟩

theorem key_inj {sys : System} {a : Act} {purpose email code email' : String}
    (h : Issues sys a purpose email code) {purpose' : String}
    (hpurpose : purpose' = emailVerificationPurpose ∨ purpose' = passwordResetPurpose)
    (hkey : purpose' ++ email' = purpose ++ email) : purpose' = purpose ∧ email' = email := by
  have hlist := congrArg String.toList hkey
  rw [String.toList_append, String.toList_append] at hlist
  have hinj : ∀ {s t : String}, s.toList = t.toList → s = t := String.toList_inj.mp
  cases h with
  | verification =>
    rcases hpurpose with rfl | rfl
    · exact ⟨rfl, hinj (List.append_cancel_left hlist)⟩
    · exact absurd (List.head_eq_of_cons_eq hlist) (by decide)
  | reset =>
    rcases hpurpose with rfl | rfl
    · exact absurd (List.head_eq_of_cons_eq hlist) (by decide)
    · exact ⟨rfl, hinj (List.append_cancel_left hlist)⟩

/-- **A code that is accepted was issued for the address it is shown for**, and
not too long ago. -/
theorem issued_of_verify {start : System} (hempty : start.codes.entries = []) {acts : List Act}
    {now : Int} {email code purpose : String}
    (hpurpose : purpose = emailVerificationPurpose ∨ purpose = passwordResetPurpose)
    (h : (Runs.after step start acts).codes.verify now email code purpose = true) :
    ∃ time, Issued start acts purpose email code time ∧
      (now - time).tdiv second < verificationValidMinutes * 60 := by
  unfold VerificationMap.verify at h
  cases hget : (Runs.after step start acts).codes.get? (purpose ++ email) with
  | none => simp [hget] at h
  | some v =>
    simp only [hget, Bool.and_eq_true, Bool.not_eq_true', beq_iff_eq] at h
    obtain ⟨hfresh, rfl⟩ := h
    rcases entries_after start acts (VerificationMap.mem_of_get? hget) with hstart |
      ⟨purpose', email', hissued, hkey⟩
    · rw [hempty] at hstart
      cases hstart
    · obtain ⟨pre, a, post, hacts, hissues, htime⟩ := hissued
      obtain ⟨rfl, rfl⟩ := key_inj hissues hpurpose hkey
      refine ⟨v.time, ⟨pre, a, post, hacts, hissues, htime⟩, ?_⟩
      simpa [VerificationValue.expired] using hfresh

end AuthGateway.IssuedCodes
