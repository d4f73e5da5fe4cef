import AuthGateway.Lib.Threads
import AuthGateway.Middleware.Auth

/-!
# A passkey that was removed

Ceremonies, registrations and deletions of passkeys side by side, one statement
at a time.  A ceremony reads a credential and later stores it again, by
`UpsertPasskeyCredential`, from the copy it read.

`StaysRemoved` says that after a deletion, and until the next registration, the
table holds no credential of the user.  **It holds in a schedule exactly when no
ceremony stores a credential that was deleted since the ceremony read it**
(`stays_removed_iff`).
-/

namespace AuthGateway.PasskeyRemoval

open Common Model Controller Middleware Prog

/-! ### The requests, side by side -/

inductive Request
  | passkeyLoginFinish (body : String)
  | passkeyVerifyFinish (body : String)
  | passkeyVerifyForSecure (body : String)
  | passkeyRegisterFinish (body : String)
  | passkeyDelete
  | adminResetPasskey (idParam : String)

structure Act where
  request : Request
  cookie : Session := {}
  authorization : String := ""
  ctx : Ctx

def Act.registers (a : Act) : Bool :=
  match a.request with
  | .passkeyRegisterFinish _ => true
  | _ => false

def handle (env : Env) (a : Act) : M Out :=
  let s := Sess.ofCookie a.cookie
  match a.request with
  | .passkeyLoginFinish body => passkeyLoginFinish env a.ctx s body
  | .passkeyVerifyFinish body =>
    behind userAuth s a.authorization a.ctx fun ctx => passkeyVerifyFinish env ctx s body
  | .passkeyVerifyForSecure body =>
    behind userAuth s a.authorization a.ctx fun ctx => passkeyVerifyForSecure env ctx s body
  | .passkeyRegisterFinish body =>
    behind userAuth s a.authorization a.ctx fun ctx => passkeyRegisterFinish env ctx s body
  | .passkeyDelete => behind userAuth s a.authorization a.ctx fun _ => passkeyDelete s
  | .adminResetPasskey idParam =>
    behind adminAuth s a.authorization a.ctx fun _ => adminResetPasskey s idParam

variable {ι : Type}

/-- The requests and the database they share. -/
abbrev Requests (ι : Type) : Type := Prog.Config DBOp DBOp.Res Out DB ι

def start (env : Env) (acts : ι → Act) (db : DB) : Requests ι :=
  ⟨fun i => handle env (acts i), db⟩

/-- What has been performed, each statement with its request. -/
abbrev Log (ι : Type) : Type := List (ι × DBOp)

/-! ### What is said of a schedule -/

variable (acts : ι → Act) (u : Int)

/-- A registration of a passkey for the user. -/
def Registered (e : ι × DBOp) : Prop :=
  (acts e.1).registers = true ∧ ∃ c, e.2 = .passkeyUpsert c ∧ c.userID = u

/-- The passkey of the user was deleted, and none has been registered since. -/
def Removed (log : Log ι) : Prop :=
  ∃ before i after, log = before ++ (i, .passkeyDelete u) :: after ∧
    ∀ e ∈ after, ¬ Registered acts u e

/-- The passkey of the user was removed since request `i` read a credential. -/
def Late (i : ι) (log : Log ι) : Prop :=
  ∃ before p after, log = before ++ (i, .passkeyFirst p) :: after ∧ Removed acts u after

variable [DecidableEq ι]

/-- At every moment of the schedule: what was removed is not there. -/
def StaysRemoved (c : Requests ι) (sched : List ι) : Prop :=
  ∀ pre post, sched = pre ++ post → Removed acts u (playLog exec c pre) →
    ∀ row ∈ (play exec c pre).store.passkeys, row.userID ≠ u

/-- If the next statement of request `i` stores a credential of the user that
the request read, the credential was not removed since, or cannot be stored. -/
def Timely (c : Requests ι) (pre : List ι) (i : ι) : Prop :=
  ∀ credential k, (play exec c pre).threads i = .call (.passkeyUpsert credential) k →
    credential.userID = u → (acts i).registers = false →
    (exec (.passkeyUpsert credential) (play exec c pre).store).1 = .ok () →
    ¬ Late acts u i (playLog exec c pre)

variable {acts u}

omit [DecidableEq ι] in
theorem removed_append_left {l₁ l₂ : Log ι} (h : Removed acts u (l₁ ++ l₂)) :
    Removed acts u l₁ ∨ Removed acts u l₂ := by
  obtain ⟨before, i, after, he, hafter⟩ := h
  rcases List.append_eq_append_iff.mp he with ⟨mid, -, hl₂⟩ | ⟨mid, hl₁, hrest⟩
  · exact Or.inr ⟨mid, i, after, hl₂, hafter⟩
  · cases mid with
    | nil => exact Or.inr ⟨[], i, after, hrest.symm, hafter⟩
    | cons e mid =>
      rw [List.cons_append, List.cons.injEq] at hrest
      obtain ⟨rfl, rfl⟩ := hrest
      exact Or.inl ⟨before, i, mid, hl₁, fun e he => hafter e (List.mem_append_left _ he)⟩

omit [DecidableEq ι] in
theorem removed_append_right {l₁ l₂ : Log ι} (h : Removed acts u l₂) :
    Removed acts u (l₁ ++ l₂) := by
  obtain ⟨before, i, after, rfl, hafter⟩ := h
  exact ⟨l₁ ++ before, i, after, by rw [List.append_assoc], hafter⟩

omit [DecidableEq ι] in
theorem not_removed_nil : ¬ Removed acts u ([] : Log ι) := by
  rintro ⟨before, i, after, he, -⟩
  simp at he

omit [DecidableEq ι] in
/-- The last statement removes, or leaves things as they were. -/
theorem removed_snoc {log : Log ι} {e : ι × DBOp} (h : Removed acts u (log ++ [e])) :
    e.2 = .passkeyDelete u ∨ Removed acts u log ∧ ¬ Registered acts u e := by
  obtain ⟨before, i, after, he, hafter⟩ := h
  rcases List.eq_nil_or_concat after with rfl | ⟨after', e', rfl⟩
  · obtain ⟨-, h⟩ := List.append_inj' he rfl
    obtain rfl : e = (i, .passkeyDelete u) := by simpa using h
    exact Or.inl rfl
  · rw [List.concat_eq_append] at he hafter
    rw [← List.cons_append, ← List.append_assoc] at he
    obtain ⟨hlog, h⟩ := List.append_inj' he rfl
    obtain rfl : e = e' := by simpa using h
    refine Or.inr ⟨⟨before, i, after', hlog, ?_⟩, ?_⟩
    · exact fun x hx => hafter x (List.mem_append_left _ hx)
    · exact hafter e (by simp)

omit [DecidableEq ι] in
theorem removed_snoc_of_not_registered {log : Log ι} {e : ι × DBOp} (h : Removed acts u log)
    (he : ¬ Registered acts u e) : Removed acts u (log ++ [e]) := by
  obtain ⟨before, i, after, rfl, hafter⟩ := h
  refine ⟨before, i, after ++ [e], by simp, ?_⟩
  intro x hx
  rcases List.mem_append.mp hx with hx | hx
  · exact hafter x hx
  · rw [List.mem_singleton.mp hx]
    exact he

/-! ### What a request knows -/

/-- Where a request stands: a ceremony searches for a credential, holds one of a
user, and is done; a deletion and a registration stay what they are. -/
inductive Stage
  | searching
  | holding (u : Int)
  | done
  | deleting
  | registering

def writesPasskeys : DBOp → Bool
  | .passkeyUpsert _ | .passkeyDelete _ => true
  | _ => false

/-- What a request may do where it stands. -/
inductive Next : Stage → DB → DBOp → Stage → Prop
  | quiet {l : Stage} {s : DB} {o : DBOp} (h : writesPasskeys o = false) : Next l s o l
  | found {s : DB} {p : PasskeyCredential → Bool} {row : PasskeyCredential}
      (h : row ∈ s.passkeys) : Next .searching s (.passkeyFirst p) (.holding row.userID)
  | save {s : DB} {c : PasskeyCredential} : Next (.holding c.userID) s (.passkeyUpsert c) .done
  | register {s : DB} {c : PasskeyCredential} : Next .registering s (.passkeyUpsert c) .registering
  | delete {s : DB} {v : Int} : Next .deleting s (.passkeyDelete v) .deleting

/-- Nothing is asked of the answer. -/
abbrev Goes (l : Stage) (p : M Out) : Prop := Follows exec Next (fun _ _ => True) p l

theorem follows_quiet {α : Type} {p : M α} (hp : Only (fun o => writesPasskeys o = false) p)
    (l : Stage) : Follows exec Next (fun l' _ => l' = l) p l :=
  Follows.of_only hp fun _ _ h => .quiet h

/-- The credential that a ceremony reads is one of the table. -/
theorem lookup_follows (p : PasskeyCredential → Bool)
    {f : Except Err PasskeyCredential → M (Except Err PasskeyCredential)}
    (hok : ∀ row, f (.ok row) = pure (.ok row)) (herror : ∀ e, ∃ e', f (.error e) = pure (.error e')) :
    Follows exec Next (fun l' r => ∀ c, r = .ok c → l' = .holding c.userID)
      (Model.perform (.passkeyFirst p) >>= f) .searching := by
  refine Follows.perform_bind fun s => ?_
  simp only [exec]
  cases hfind : s.passkeys.find? (fun c => c.live && p c) with
  | none =>
    obtain ⟨e', he'⟩ := herror .recordNotFound
    refine ⟨.searching, .quiet rfl, ?_⟩
    show Follows exec Next _ (f (.error .recordNotFound)) _
    rw [he']
    exact Follows.pure fun c hc => by cases hc
  | some row =>
    refine ⟨.holding row.userID, .found (Table.find?_mem hfind), ?_⟩
    show Follows exec Next _ (f (.ok row)) _
    rw [hok]
    refine Follows.pure fun c hc => ?_
    rw [Except.ok.inj hc]

theorem getPasskeyByUserID_follows (v : Int) :
    Follows exec Next (fun l' r => ∀ c, r = .ok c → l' = .holding c.userID)
      (getPasskeyByUserID v) .searching := by
  unfold getPasskeyByUserID
  split
  · exact Follows.pure fun c hc => nomatch hc
  · exact lookup_follows _ (fun row => rfl) fun e => ⟨_, rfl⟩

theorem getPasskeyByCredentialID_follows (credentialID : String) :
    Follows exec Next (fun l' r => ∀ c, r = .ok c → l' = .holding c.userID)
      (getPasskeyByCredentialID credentialID) .searching := by
  unfold getPasskeyByCredentialID
  split
  · exact Follows.pure fun c hc => nomatch hc
  · exact lookup_follows _ (fun row => rfl) fun e => ⟨_, rfl⟩

/-- Storing the credential that is held. -/
theorem upsert_follows {c : PasskeyCredential} {l : Stage} (h : l = .holding c.userID ∨ l = .registering)
    {f : Option Err → M Out} (hf : ∀ r, ∃ out, f r = pure out) :
    Goes l (upsertPasskeyCredential c >>= f) := by
  have hupsert : Follows exec Next (fun _ _ => True) (upsertPasskeyCredential c) l := by
    refine Follows.perform_bind fun s => ?_
    have hnext : ∃ l', Next l s (.passkeyUpsert c) l' := by
      rcases h with rfl | rfl
      · exact ⟨_, .save⟩
      · exact ⟨_, .register⟩
    obtain ⟨l', hl'⟩ := hnext
    refine ⟨l', hl', ?_⟩
    cases (exec (.passkeyUpsert c) s).1 <;> exact True.intro
  refine hupsert.bind fun r l' _ => ?_
  obtain ⟨out, hout⟩ := hf r
  rw [hout]
  exact True.intro

theorem getSessionUser_quiet (s : Sess) :
    Only (fun o => writesPasskeys o = false) (getSessionUser s) := by
  unfold getSessionUser
  split
  · exact Only.pure
  · refine (User.fillBy_only (fun _ _ => rfl) _ _ _ _).bind fun r => ?_
    obtain ⟨err, user⟩ := r
    cases err with
    | some e => exact Only.pure
    | none =>
      dsimp only
      split <;> exact Only.pure

theorem passkeyVerifyFinish_goes (env : Env) (ctx : Ctx) (s : Sess) (body : String) :
    Goes .searching (passkeyVerifyFinish env ctx s body) := by
  unfold passkeyVerifyFinish
  split
  · exact True.intro
  refine (follows_quiet (getSessionUser_quiet s) .searching).bind ?_
  rintro r l rfl
  cases r with
  | error e => exact True.intro
  | ok user =>
    cases ctx.webAuthnError with
    | some e => exact True.intro
    | none =>
      refine (getPasskeyByUserID_follows user.id).bind fun r l hr => ?_
      cases r with
      | error e => exact True.intro
      | ok credential =>
        dsimp only
        split
        · exact True.intro
        split
        · exact True.intro
        · refine upsert_follows (c := { credential with lastUsedAt := some ctx.now })
            (Or.inl (hr credential rfl)) fun r => ?_
          cases r <;> exact ⟨_, rfl⟩

theorem passkeyVerifyForSecure_goes (env : Env) (ctx : Ctx) (s : Sess) (body : String) :
    Goes .searching (passkeyVerifyForSecure env ctx s body) := by
  unfold passkeyVerifyForSecure
  split
  · exact True.intro
  split
  · exact True.intro
  refine (follows_quiet (User.fillBy_only (fun _ _ => rfl) _ _ _ _) .searching).bind ?_
  rintro ⟨err, user⟩ l rfl
  cases err with
  | some e => exact True.intro
  | none =>
    dsimp only
    split
    · exact True.intro
    refine (getPasskeyByUserID_follows ctx.id).bind fun r l hr => ?_
    cases r with
    | error e => exact True.intro
    | ok credential =>
      cases ctx.webAuthnError with
      | some e => exact True.intro
      | none =>
        dsimp only
        split
        · exact True.intro
        split
        · exact True.intro
        · refine upsert_follows (c := { credential with lastUsedAt := some ctx.now })
            (Or.inl (hr credential rfl)) fun r => ?_
          cases r <;> exact ⟨_, rfl⟩

/-- The user that the callback names is the holder of the credential it read. -/
theorem passkeyLoginHandler_follows (rawID userHandle : String) :
    Follows exec Next (fun l' r => ∀ user c, r = .ok (user, c) → l' = .holding user.id)
      (passkeyLoginHandler rawID userHandle) .searching := by
  unfold passkeyLoginHandler
  refine (getPasskeyByCredentialID_follows rawID).bind fun r l hr => ?_
  cases r with
  | error e => exact Follows.pure fun user c h => nomatch h
  | ok credential =>
    have hl := hr credential rfl
    refine (fillUserById_follows (l := l) (fun _ _ _ => .quiet rfl) credential.userID).bind ?_
    rintro ⟨err, user⟩ l' ⟨rfl, hid⟩
    cases err with
    | some e => exact Follows.pure fun user c h => nomatch h
    | none =>
      dsimp only
      split
      · exact Follows.pure fun user c h => nomatch h
      split
      · exact Follows.pure fun user c h => nomatch h
      · refine Follows.pure fun user' c h => ?_
        obtain ⟨rfl, -⟩ := Prod.mk.inj (Except.ok.inj h)
        rw [hl]
        exact congrArg Stage.holding hid.symm

theorem passkeyLoginFinish_goes (env : Env) (ctx : Ctx) (s : Sess) (body : String) :
    Goes .searching (passkeyLoginFinish env ctx s body) := by
  unfold passkeyLoginFinish
  split
  · exact True.intro
  split
  · exact True.intro
  split
  · exact True.intro
  split
  · exact True.intro
  · rename_i rawID userHandle _
    refine (passkeyLoginHandler_follows rawID userHandle).bind fun r l hr => ?_
    cases r with
    | error e => exact True.intro
    | ok found =>
      obtain ⟨modelUser, credential⟩ := found
      have hl := hr modelUser credential rfl
      dsimp only
      split
      · exact True.intro
      split
      · exact True.intro
      · refine upsert_follows (Or.inl hl) fun r => ?_
        cases r <;> exact ⟨_, rfl⟩

theorem passkeyRegisterFinish_goes (env : Env) (ctx : Ctx) (s : Sess) (body : String) :
    Goes .registering (passkeyRegisterFinish env ctx s body) := by
  unfold passkeyRegisterFinish
  split
  · exact True.intro
  refine (follows_quiet (getSessionUser_quiet s) .registering).bind ?_
  rintro r l rfl
  cases r with
  | error e => exact True.intro
  | ok user =>
    cases ctx.webAuthnError with
    | some e => exact True.intro
    | none =>
      refine (follows_quiet (getPasskeyByUserID_only (fun _ => rfl) user.id) .registering).bind ?_
      rintro r l rfl
      cases existingPasskey r with
      | error e => exact True.intro
      | ok record =>
        dsimp only
        split
        · exact True.intro
        split
        · exact True.intro
        · refine upsert_follows (Or.inr rfl) fun r => ?_
          cases r <;> exact ⟨_, rfl⟩

theorem deletePasskeyByUserID_follows (v : Int) :
    Follows exec Next (fun l' _ => l' = .deleting) (deletePasskeyByUserID v) .deleting := by
  unfold deletePasskeyByUserID
  split
  · exact rfl
  · refine Follows.perform_bind fun s => ⟨.deleting, .delete, ?_⟩
    exact rfl

theorem passkeyDelete_goes (s : Sess) : Goes .deleting (passkeyDelete s) := by
  unfold passkeyDelete
  refine (follows_quiet (getSessionUser_quiet s) .deleting).bind ?_
  rintro r l rfl
  cases r with
  | error e => exact True.intro
  | ok user =>
    refine (deletePasskeyByUserID_follows user.id).bind fun r l _ => ?_
    cases r <;> exact True.intro

theorem adminResetPasskey_goes (s : Sess) (idParam : String) :
    Goes .deleting (adminResetPasskey s idParam) := by
  unfold adminResetPasskey
  split
  · exact True.intro
  · refine (follows_quiet (User.fillBy_only (fun _ _ => rfl) _ _ _ _) .deleting).bind ?_
    rintro ⟨err, user⟩ l rfl
    cases err with
    | some e => exact True.intro
    | none =>
      refine (follows_quiet (getPasskeyByUserID_only (fun _ => rfl) user.id) .deleting).bind ?_
      rintro r l rfl
      split
      · exact True.intro
      · exact True.intro
      · refine (deletePasskeyByUserID_follows user.id).bind fun r l _ => ?_
        cases r <;> exact True.intro

/-- Where a request begins. -/
def Act.stage (a : Act) : Stage :=
  match a.request with
  | .passkeyRegisterFinish _ => .registering
  | .passkeyDelete | .adminResetPasskey _ => .deleting
  | _ => .searching

theorem handle_goes (env : Env) (a : Act) : Goes a.stage (handle env a) := by
  have hbehind : ∀ (minRole : Int) (l : Stage) (handler : Ctx → M Out),
      (∀ ctx, Goes l (handler ctx)) →
      Goes l (behind (authHelper minRole) (Sess.ofCookie a.cookie) a.authorization a.ctx handler) := by
    intro minRole l handler hhandler
    refine (follows_quiet (authHelper_only (fun _ _ => rfl) minRole _ _) l).bind ?_
    rintro r l' rfl
    cases r with
    | error reply => exact True.intro
    | ok auth => exact hhandler _
  unfold handle Act.stage
  dsimp only
  cases a.request with
  | passkeyLoginFinish body => exact passkeyLoginFinish_goes env a.ctx _ body
  | passkeyVerifyFinish body => exact hbehind _ _ _ fun ctx => passkeyVerifyFinish_goes env ctx _ body
  | passkeyVerifyForSecure body =>
    exact hbehind _ _ _ fun ctx => passkeyVerifyForSecure_goes env ctx _ body
  | passkeyRegisterFinish body =>
    exact hbehind _ _ _ fun ctx => passkeyRegisterFinish_goes env ctx _ body
  | passkeyDelete => exact hbehind _ _ _ fun _ => passkeyDelete_goes _
  | adminResetPasskey idParam => exact hbehind _ _ _ fun _ => adminResetPasskey_goes _ idParam

/-! ### The invariant -/

/-- A statement that is not about passkeys leaves them. -/
theorem exec_quiet {o : DBOp} (h : writesPasskeys o = false) (db : DB) :
    (exec o db).2.passkeys = db.passkeys := by
  cases o with
  | passkeyUpsert c => exact nomatch h
  | passkeyDelete v => exact nomatch h
  | userCreate u => simp only [exec]; cases db.users.create u.withDefaults <;> rfl
  | userUpdates p f => simp only [exec]; cases db.users.update (fun u => u.live && p u) f <;> rfl
  | userSave u => simp only [exec]; cases db.users.put u <;> rfl
  | twoFACreate t => simp only [exec]; cases (db.twoFAs.create t).map Prod.snd <;> rfl
  | twoFASave t => simp only [exec]; cases db.twoFAs.put t <;> rfl
  | codeSave c => simp only [exec]; cases db.backupCodes.put c <;> rfl
  | codesReplace v hashes now =>
    simp only [exec]
    cases DB.replaceCodes db.backupCodes v hashes now <;> rfl
  | _ => rfl

/-- What a stored credential leaves in the table: itself under some key, and rows
of other users that were there. -/
theorem exec_upsert (c : PasskeyCredential) (db : DB) :
    ((exec (.passkeyUpsert c) db).2 = db ∧ (exec (.passkeyUpsert c) db).1 ≠ .ok ()) ∨
      (exec (.passkeyUpsert c) db).1 = .ok () ∧
        (∃ row ∈ (exec (.passkeyUpsert c) db).2.passkeys, row.userID = c.userID) ∧
        ∀ row ∈ (exec (.passkeyUpsert c) db).2.passkeys,
          row.userID = c.userID ∨ row ∈ db.passkeys := by
  simp only [exec]
  cases hcreate : (db.passkeys.delete fun x => x.userID == c.userID).create c with
  | none =>
    refine Or.inl ⟨rfl, ?_⟩
    intro h
    cases h
  | some r =>
    obtain ⟨row', table⟩ := r
    have huser : row'.userID = c.userID := by
      rcases Table.eq_of_create hcreate with rfl | rfl <;> rfl
    refine Or.inr ⟨rfl, ⟨row', (Table.mem_create hcreate).mpr (Or.inl rfl), huser⟩, ?_⟩
    intro row hrow
    rcases (Table.mem_create hcreate).mp hrow with rfl | hrow
    · exact Or.inl huser
    · exact Or.inr (Table.mem_delete.mp hrow).1

/-- What is true of a schedule and of where the requests stand. -/
structure Inv (acts : ι → Act) (u : Int) (c : Requests ι) (pre : List ι) (l : ι → Stage) : Prop where
  /-- What was removed is not there. -/
  gone : Removed acts u (playLog exec c pre) →
    ∀ row ∈ (play exec c pre).store.passkeys, row.userID ≠ u
  /-- A ceremony read its credential at a moment when nothing was removed. -/
  read : ∀ i, l i = .holding u → ∃ before p after,
    playLog exec c pre = before ++ (i, .passkeyFirst p) :: after ∧ ¬ Removed acts u before
  /-- Registrations are those that began as such. -/
  registering : ∀ i, l i = .registering ↔ (acts i).registers = true

theorem stage_registering (a : Act) : a.stage = .registering ↔ a.registers = true := by
  unfold Act.stage Act.registers
  cases a.request <;> simp

theorem inv_start (env : Env) (db : DB) :
    Inv acts u (start env acts db) [] (fun i => (acts i).stage) where
  gone h := absurd h not_removed_nil
  read i h := by
    exfalso
    unfold Act.stage at h
    cases hreq : (acts i).request <;> (rw [hreq] at h; exact nomatch h)
  registering i := stage_registering (acts i)

/-- What request `i` has read stays read while the log grows. -/
theorem read_snoc {c : Requests ι} {pre : List ι} {l : ι → Stage} (hinv : Inv acts u c pre l)
    {i : ι} (hi : l i = .holding u) (e : ι × DBOp) : ∃ before p after,
      playLog exec c pre ++ [e] = before ++ (i, .passkeyFirst p) :: after ∧
        ¬ Removed acts u before := by
  obtain ⟨before, p, after, he, hbefore⟩ := hinv.read i hi
  exact ⟨before, p, after ++ [e], by rw [he]; simp, hbefore⟩

/-- **A timely step keeps the invariant.** -/
theorem inv_step {c : Requests ι} {pre : List ι} {i : ι} {l : ι → Stage} {o : DBOp}
    {k : DBOp.Res o → M Out} {l' : Stage} (hinv : Inv acts u c pre l)
    (htimely : Timely acts u c pre i) (hi : (play exec c pre).threads i = .call o k)
    (hnext : Next (l i) (play exec c pre).store o l') :
    Inv acts u c (pre ++ [i]) (Function.update l i l') := by
  have hlog : playLog exec c (pre ++ [i]) = playLog exec c pre ++ [(i, o)] := by
    rw [playLog_snoc, performed_call hi]
  have hstore : (play exec c (pre ++ [i])).store = (exec o (play exec c pre).store).2 := by
    rw [play_append, play_cons, play_nil, step_call exec hi]
  -- a stage that stays leaves what was read and who registers
  have hstay : l' = l i → (Removed acts u (playLog exec c pre ++ [(i, o)]) →
      ∀ row ∈ (exec o (play exec c pre).store).2.passkeys, row.userID ≠ u) →
      Inv acts u c (pre ++ [i]) (Function.update l i l') := by
    intro hl' hgone
    rw [hl', Function.update_eq_self]
    refine ⟨?_, ?_, hinv.registering⟩
    · rw [hlog, hstore]
      exact hgone
    · intro j hj
      rw [hlog]
      exact read_snoc hinv hj _
  generalize hl : l i = stage at hnext
  cases hnext with
  | quiet h =>
    refine hstay hl.symm ?_
    intro hremoved
    rw [exec_quiet h]
    rcases removed_snoc hremoved with hdelete | ⟨hold, -⟩
    · obtain rfl : o = .passkeyDelete u := hdelete
      exact nomatch h
    · exact hinv.gone hold
  | @found s p row hrow =>
    refine ⟨?_, ?_, ?_⟩
    · rw [hlog, hstore]
      intro hremoved
      rcases removed_snoc hremoved with hdelete | ⟨hold, -⟩
      · exact nomatch hdelete
      · exact hinv.gone hold
    · intro j hj
      rw [hlog]
      by_cases hji : j = i
      · rw [hji, Function.update_self] at hj
        obtain rfl : row.userID = u := Stage.holding.inj hj
        refine ⟨playLog exec c pre, p, [], by rw [hji], ?_⟩
        intro hremoved
        exact hinv.gone hremoved row hrow rfl
      · rw [Function.update_of_ne hji] at hj
        exact read_snoc hinv hj _
    · intro j
      by_cases hji : j = i
      · rw [hji, Function.update_self, ← hinv.registering i, hl]
        simp
      · rw [Function.update_of_ne hji]
        exact hinv.registering j
  | @save s credential =>
    have hnot : (acts i).registers = false := by
      rw [← Bool.not_eq_true, ← hinv.registering i, hl]
      intro h
      exact nomatch h
    have hnotRegistered : ¬ Registered acts u (i, DBOp.passkeyUpsert credential) := by
      rintro ⟨h, -⟩
      rw [hnot] at h
      exact nomatch h
    refine ⟨?_, ?_, ?_⟩
    · rw [hlog, hstore]
      intro hremoved
      have hold : Removed acts u (playLog exec c pre) := by
        rcases removed_snoc hremoved with hdelete | ⟨hold, -⟩
        · exact nomatch hdelete
        · exact hold
      rcases exec_upsert credential (play exec c pre).store with ⟨hsame, -⟩ | ⟨hok, -, hrows⟩
      · rw [hsame]
        exact hinv.gone hold
      · intro row hrow
        rcases hrows row hrow with huser | hrow
        · rw [huser]
          intro hu
          -- the credential was read before it was removed, and stored late
          obtain ⟨before, p, after, he, hbefore⟩ := hinv.read i (by rw [hl, hu])
          refine htimely credential k hi hu hnot hok ⟨before, p, after, he, ?_⟩
          rw [he] at hold
          rcases removed_append_left hold with h | h
          · exact absurd h hbefore
          · have hsplit : (i, DBOp.passkeyFirst p) :: after = [(i, DBOp.passkeyFirst p)] ++ after :=
              rfl
            rw [hsplit] at h
            rcases removed_append_left h with h | h
            · have hnil : [(i, DBOp.passkeyFirst p)] = [] ++ [(i, DBOp.passkeyFirst p)] := rfl
              rw [hnil] at h
              rcases removed_snoc h with hdelete | ⟨h, -⟩
              · exact nomatch hdelete
              · exact absurd h not_removed_nil
            · exact h
        · exact hinv.gone hold row hrow
    · intro j hj
      rw [hlog]
      by_cases hji : j = i
      · rw [hji, Function.update_self] at hj
        exact nomatch hj
      · rw [Function.update_of_ne hji] at hj
        exact read_snoc hinv hj _
    · intro j
      by_cases hji : j = i
      · rw [hji, Function.update_self, hnot]
        simp
      · rw [Function.update_of_ne hji]
        exact hinv.registering j
  | @register s credential =>
    refine hstay hl.symm ?_
    intro hremoved
    rcases removed_snoc hremoved with hdelete | ⟨hold, hnot⟩
    · exact nomatch hdelete
    · rcases exec_upsert credential (play exec c pre).store with ⟨hsame, -⟩ | ⟨-, -, hrows⟩
      · rw [hsame]
        exact hinv.gone hold
      · intro row hrow hu
        rcases hrows row hrow with huser | hrow
        · exact hnot ⟨(hinv.registering i).mp hl, credential, rfl, huser.symm.trans hu⟩
        · exact hinv.gone hold row hrow hu
  | @delete s v =>
    refine hstay hl.symm ?_
    intro hremoved row hrow
    obtain ⟨hrow, hne⟩ := Table.mem_delete.mp hrow
    rcases removed_snoc hremoved with hdelete | ⟨hold, -⟩
    · obtain rfl : v = u := DBOp.passkeyDelete.inj hdelete
      exact beq_eq_false_iff_ne.mp hne
    · exact hinv.gone hold row hrow

theorem inv_idle {c : Requests ι} {pre : List ι} {i : ι} {l : ι → Stage} {a : Out}
    (hinv : Inv acts u c pre l) (hi : (play exec c pre).threads i = ret a) :
    Inv acts u c (pre ++ [i]) l := by
  have hsame : play exec c (pre ++ [i]) = play exec c pre := by
    rw [play_append, play_cons, play_nil, step_ret exec hi]
  have hlog : playLog exec c (pre ++ [i]) = playLog exec c pre := by
    rw [playLog_snoc, performed_ret hi, List.append_nil]
  refine ⟨?_, ?_, hinv.registering⟩
  · rw [hlog, hsame]
    exact hinv.gone
  · rw [hlog]
    exact hinv.read

theorem staysRemoved_of_timely (env : Env) (db : DB) {sched : List ι}
    (h : Runs.Always (Timely acts u (start env acts db)) sched) :
    StaysRemoved acts u (start env acts db) sched := by
  rintro pre post rfl
  have hpre : Runs.Always (Timely acts u (start env acts db)) pre := h.of_append
  obtain ⟨l, -, hinv⟩ := ghost_run (I := Inv acts u (start env acts db))
    (fun j => handle_goes env (acts j)) (inv_start env db)
    (fun p i l a hinv hi => inv_idle hinv hi)
    (fun p i l o k l' hinv hC hi hnext => inv_step hinv hC hi hnext) pre hpre
  exact hinv.gone

theorem timely_of_staysRemoved {c : Requests ι} {sched : List ι} (h : StaysRemoved acts u c sched) :
    Runs.Always (Timely acts u c) sched := by
  rintro pre i post rfl credential k hi huser hnot hok ⟨before, p, after, he, hremoved⟩
  have hlog : playLog exec c (pre ++ [i])
      = playLog exec c pre ++ [(i, DBOp.passkeyUpsert credential)] := by
    rw [playLog_snoc, performed_call hi]
  have hnotRegistered : ¬ Registered acts u (i, DBOp.passkeyUpsert credential) := by
    rintro ⟨hr, -⟩
    rw [hnot] at hr
    exact nomatch hr
  have hstill : Removed acts u (playLog exec c (pre ++ [i])) := by
    rw [hlog, he]
    refine removed_snoc_of_not_registered ?_ hnotRegistered
    have hsplit : before ++ (i, DBOp.passkeyFirst p) :: after
        = (before ++ [(i, DBOp.passkeyFirst p)]) ++ after := by simp
    rw [hsplit]
    exact removed_append_right hremoved
  have hgone := h (pre ++ [i]) post (by simp) hstill
  rcases exec_upsert credential (play exec c pre).store with ⟨-, hfail⟩ | ⟨-, ⟨row, hrow, hr⟩, -⟩
  · exact hfail hok
  · have hstore : (play exec c (pre ++ [i])).store
        = (exec (.passkeyUpsert credential) (play exec c pre).store).2 := by
      rw [play_append, play_cons, play_nil, step_call exec hi]
    rw [hstore] at hgone
    exact hgone row hrow (hr.trans huser)

/-- **A removed passkey stays removed throughout a schedule, exactly when no
ceremony of it stores the user's credential after it was removed.** -/
theorem stays_removed_iff (env : Env) (acts : ι → Act) (u : Int) (db : DB) (sched : List ι) :
    StaysRemoved acts u (start env acts db) sched ↔
      Runs.Always (Timely acts u (start env acts db)) sched :=
  ⟨timely_of_staysRemoved, staysRemoved_of_timely env db⟩

/-! ### A ceremony in flight -/

/-- Frank, with a passkey. -/
def frankDB : DB where
  users := Table.single { id := 1, username := "frank", role := 1, status := 1 }
  twoFAs := Table.empty
  backupCodes := Table.empty
  passkeys := Table.single { id := 1, userID := 1, credential := { id := "key" } }

/-- He logs in with it in one browser, and deletes it in another. -/
def inFlight : Bool → Act
  | false =>
    { request := .passkeyLoginFinish "key"
      cookie := { passkeyLogin := some "challenge" }
      ctx := Ctx.plain 0 }
  | true =>
    { request := .passkeyDelete
      cookie := { id := some 1, username := some "frank", role := some 1, status := some 1 }
      ctx := Ctx.plain 0 }

/-- The login reads the credential, the deletion runs, the login stores it. -/
def resurrecting : List Bool := [false, false, true, true, false]

/-- **A ceremony in flight brings a deleted passkey back.** -/
theorem deleted_passkey_returns :
    ¬ StaysRemoved inFlight 1 (start Env.plain inFlight frankDB) resurrecting := by
  intro h
  have hremoved : Removed inFlight 1
      (playLog exec (start Env.plain inFlight frankDB) resurrecting) := by
    refine ⟨playLog exec (start Env.plain inFlight frankDB) [false, false, true], true,
      performed (play exec (start Env.plain inFlight frankDB) [false, false, true, true]) false,
      rfl, ?_⟩
    rintro e he ⟨hr, -⟩
    rw [List.mem_singleton.mp he] at hr
    exact nomatch hr
  have hgone := h resurrecting [] (by simp) hremoved
  have hrow : { id := 2, userID := 1, credential := { id := "key" }, lastUsedAt := some 0 }
      ∈ (play exec (start Env.plain inFlight frankDB) resurrecting).store.passkeys :=
    Table.mem_def.mpr (by decide)
  exact hgone _ hrow rfl

end AuthGateway.PasskeyRemoval
