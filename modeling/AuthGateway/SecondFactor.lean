import AuthGateway.BackupCodeLedger
import AuthGateway.Middleware.Auth
import AuthGateway.TwoFASerial

/-!
# The life of a second factor

Of the records in `two_fas` a user sees three **phases**: there is none, one waits
for its first code, or one is on.  Requests of any users come one after the other,
each behind the authentication of its route, on a database that may fail any
statement; `Moves` says which of them takes a user from which phase to which.

* `refines`: every request makes one such move or none, and nobody else is moved.
* `stays_on`: a second factor that is on stays on, with the same secret, until its
  owner presents an accepted code to switch it off, or an administrator above the
  owner does.
* `switched_on`: a second factor that is on was on at the start, or its owner has
  presented a code that fits its secret, after a setup that made the secret.
-/

namespace AuthGateway.SecondFactor

open Common Model Controller Middleware GoString TwoFASerial

/-! ### Phases -/

inductive Phase
  | off
  | pending (secret : String)
  | on (secret : String)
deriving DecidableEq

def Phase.of : Option TwoFA → Phase
  | none => .off
  | some t => if t.isEnabled then .on t.secret else .pending t.secret

def phase (db : DB) (userId : Int) : Phase := .of (record db userId)

theorem phase_congr {db db' : DB} (h : db'.twoFAs = db.twoFAs) : phase db' = phase db := by
  funext userId
  unfold phase record
  rw [h]

theorem phase_of_mem {db : DB} {t : TwoFA} (ht : t ∈ db.twoFAs) (hlive : t.live = true) :
    phase db t.userId = .of (some t) := congrArg Phase.of (find_twoFA_eq_some.mpr ⟨ht, hlive, rfl⟩)

theorem phase_off {db : DB} {userId : Int} (h : ∀ t ∈ db.twoFAs, t.userId ≠ userId) :
    phase db userId = .off := by
  have hnone : record db userId = none := by
    unfold record
    rw [Table.find?_eq_none]
    intro t ht
    rw [Bool.and_eq_false_iff, beq_eq_false_iff_ne]
    exact Or.inr (h t ht)
  unfold phase
  rw [hnone]
  rfl

theorem record_congr {db db' : DB} {userId : Int}
    (h : ∀ t : TwoFA, t.userId = userId → (t ∈ db'.twoFAs ↔ t ∈ db.twoFAs)) :
    phase db' userId = phase db userId := by
  refine congrArg Phase.of (Option.ext fun t => ?_)
  unfold record
  rw [find_twoFA_eq_some, find_twoFA_eq_some]
  constructor
  · rintro ⟨ht, hlive, huser⟩
    exact ⟨(h t huser).mp ht, hlive, huser⟩
  · rintro ⟨ht, hlive, huser⟩
    exact ⟨(h t huser).mpr ht, hlive, huser⟩

/-- A user whose rows are another's is not moved, so the phases change in one place. -/
theorem phase_update {db db' : DB} {u : Int} {p : Phase} (hself : phase db' u = p)
    (hother : ∀ t : TwoFA, t.userId ≠ u → (t ∈ db'.twoFAs ↔ t ∈ db.twoFAs)) :
    phase db' = Function.update (phase db) u p := by
  funext v
  by_cases hv : v = u
  · subst hv
    rw [Function.update_self]
    exact hself
  · rw [Function.update_of_ne hv]
    exact record_congr fun t ht => hother t (ht ▸ hv)

/-! ### The statements -/

/-- The record that a request works on: the columns that make the phase, and the
key, are those of the table. -/
structure Copy (db : DB) (t : TwoFA) : Prop where
  live : t.live = true
  filed : ∃ r ∈ db.twoFAs, r.id = t.id ∧ r.userId = t.userId
  phase : phase db t.userId = .of (some t)

theorem Copy.of_mem {db : DB} {t : TwoFA} (ht : t ∈ db.twoFAs) (hlive : t.live = true) :
    Copy db t := ⟨hlive, ⟨t, ht, rfl, rfl⟩, phase_of_mem ht hlive⟩

theorem Copy.congr {db db' : DB} {t : TwoFA} (h : Copy db t) (htwoFAs : db'.twoFAs = db.twoFAs) :
    Copy db' t := by
  refine ⟨h.live, ?_, ?_⟩
  · rw [htwoFAs]
    exact h.filed
  · rw [phase_congr htwoFAs]
    exact h.phase

/-- The same record with its counters changed. -/
theorem Copy.counted {db : DB} {t t' : TwoFA} (h : Copy db t) (hid : t'.id = t.id)
    (huser : t'.userId = t.userId) (hdeleted : t'.deletedAt = t.deletedAt)
    (hon : t'.isEnabled = t.isEnabled) (hsecret : t'.secret = t.secret) : Copy db t' := by
  refine ⟨?_, ?_, ?_⟩
  · have hlive := h.live
    unfold TwoFA.live at hlive ⊢
    rw [hdeleted]
    exact hlive
  · obtain ⟨r, hr, hrid, hruser⟩ := h.filed
    exact ⟨r, hr, hrid.trans hid.symm, hruser.trans huser.symm⟩
  · rw [huser, h.phase]
    unfold Phase.of
    dsimp only
    rw [hon, hsecret]

/-- A record that is saved is saved over itself. -/
theorem exec_twoFASave {db : DB} {t : TwoFA} (hlive : t.live = true)
    (hfiled : ∃ r ∈ db.twoFAs, r.id = t.id ∧ r.userId = t.userId) :
    phase (exec (.twoFASave t) db).2 = Function.update (phase db) t.userId (.of (some t)) ∧
      t ∈ (exec (.twoFASave t) db).2.twoFAs := by
  obtain ⟨r, hr, hid, huser⟩ := hfiled
  have hfits : ∀ x ∈ db.twoFAs, Row.key x ≠ Row.key t → Row.clash x t = false := by
    intro x hx hne
    by_contra hclash
    have hsame : x = r := by
      refine Table.eq_of_clash hx hr ?_
      rw [Bool.not_eq_false, TwoFA.clash_eq, beq_iff_eq] at hclash
      rw [TwoFA.clash_eq, beq_iff_eq, hclash, huser]
    rw [hsame] at hne
    exact hne hid
  have hpos : 0 < Row.key t := by
    have hkey := Table.key_pos hr
    rw [TwoFA.key_eq, hid] at hkey
    exact hkey
  obtain ⟨table, hput⟩ := Table.put_isSome hfits hpos
  simp only [exec]
  rw [hput]
  have hmem : t ∈ table := (Table.mem_put hput).mpr (Or.inl rfl)
  refine ⟨phase_update (phase_of_mem hmem hlive) fun x hx => ?_, hmem⟩
  refine (Table.mem_put hput).trans ⟨?_, ?_⟩
  · rintro (rfl | ⟨hx', -⟩)
    · exact absurd rfl hx
    · exact hx'
  · intro hx'
    refine Or.inr ⟨hx', fun hkey => hx ?_⟩
    rw [Table.eq_of_key hx' hr (hkey.trans hid.symm), huser]

/-- A record is created for a user who has none. -/
theorem exec_twoFACreate (db : DB) {t : TwoFA} (hlive : t.live = true) :
    phase (exec (.twoFACreate t) db).2 = phase db ∨ phase db t.userId = .off ∧
      phase (exec (.twoFACreate t) db).2 = Function.update (phase db) t.userId (.of (some t)) := by
  simp only [exec]
  cases hcreate : db.twoFAs.create t with
  | none => exact Or.inl rfl
  | some r =>
    obtain ⟨row, table⟩ := r
    have hrow : row.userId = t.userId ∧ row.live = t.live ∧ Phase.of (some row) = .of (some t) := by
      rcases Table.eq_of_create hcreate with rfl | rfl
      · exact ⟨rfl, rfl, rfl⟩
      · exact ⟨rfl, rfl, rfl⟩
    obtain ⟨huser, hrowlive, hphase⟩ := hrow
    have hmem : row ∈ table := (Table.mem_create hcreate).mpr (Or.inl rfl)
    refine Or.inr ⟨phase_off fun x hx hxuser => ?_, phase_update ?_ fun x hx => ?_⟩
    · have hsame : x = row := by
        refine Table.eq_of_clash ((Table.mem_create hcreate).mpr (Or.inr hx)) hmem ?_
        rw [TwoFA.clash_eq, beq_iff_eq, hxuser, huser]
      exact Table.create_fresh hcreate x hx (congrArg TwoFA.id hsame)
    · have hfound : phase (db.setTwoFAs table) row.userId = .of (some row) :=
        phase_of_mem hmem (hrowlive.trans hlive)
      rw [← hphase, ← huser]
      exact hfound
    · refine (Table.mem_create hcreate).trans ⟨?_, Or.inr⟩
      rintro (rfl | hx')
      · exact absurd huser hx
      · exact hx'

theorem exec_twoFADelete {db : DB} {t : TwoFA} (ht : t ∈ db.twoFAs) :
    phase (exec (.twoFADelete t) db).2 = Function.update (phase db) t.userId .off := by
  have hmem : ∀ x, x ∈ (exec (.twoFADelete t) db).2.twoFAs ↔ x ∈ db.twoFAs ∧ x.id ≠ t.id := by
    intro x
    refine Table.mem_delete.trans ?_
    simp
  refine phase_update ?_ fun x hx => ?_
  · refine phase_off fun x hx huser => ?_
    obtain ⟨hx, hne⟩ := (hmem x).mp hx
    have hsame : x = t := by
      refine Table.eq_of_clash hx ht ?_
      rw [TwoFA.clash_eq, beq_iff_eq, huser]
    exact hne (congrArg TwoFA.id hsame)
  · rw [hmem]
    constructor
    · rintro ⟨hx', -⟩
      exact hx'
    · intro hx'
      exact ⟨hx', fun hid => hx (congrArg TwoFA.userId (Table.eq_of_key hx' ht hid))⟩

/-- A program that leaves the records leaves the phases. -/
theorem spares_sat {α : Type} {p : M α} (h : Prog.Only (fun o => sparesTwoFA o = true) p)
    (db : DB) : Sat p (fun _ db' => db'.twoFAs = db.twoFAs) db := by
  refine h.keeps (I := fun db' : DB => db'.twoFAs = db.twoFAs) ?_ rfl
  intro o db₁ r db₂ ho hmay hkept
  rcases hmay with ⟨-, rfl⟩ | ⟨-, rfl⟩
  · rw [exec_spares ho, hkept]
  · exact hkept

theorem update_sat {t : TwoFA} {db : DB} (hlive : t.live = true)
    (hfiled : ∃ r ∈ db.twoFAs, r.id = t.id ∧ r.userId = t.userId) :
    Sat t.update (fun _ db' => db' = db ∨
      phase db' = Function.update (phase db) t.userId (.of (some t)) ∧ t ∈ db'.twoFAs) db := by
  unfold TwoFA.update
  split
  · exact Sat.pure (Or.inl rfl)
  · refine Sat.perform fun r db' h => Sat.pure ?_
    rcases h with ⟨-, rfl⟩ | ⟨-, rfl⟩
    · exact Or.inr (exec_twoFASave hlive hfiled)
    · exact Or.inl rfl

/-- Saving counters moves nobody. -/
theorem update_counted {t t' : TwoFA} {db : DB} (h : Copy db t) (hid : t'.id = t.id)
    (huser : t'.userId = t.userId) (hdeleted : t'.deletedAt = t.deletedAt)
    (hon : t'.isEnabled = t.isEnabled) (hsecret : t'.secret = t.secret) :
    Sat t'.update (fun _ db' => phase db' = phase db ∧ Copy db' t') db := by
  have hcopy := h.counted hid huser hdeleted hon hsecret
  refine Prog.Holds.mono (update_sat hcopy.live hcopy.filed) ?_
  rintro - db' (rfl | ⟨hphase, hmem⟩)
  · exact ⟨rfl, hcopy⟩
  · rw [← hcopy.phase, Function.update_eq_self] at hphase
    exact ⟨hphase, Copy.of_mem hmem hcopy.live⟩

/-- Booking an answer moves nobody. -/
theorem book_counted {ctx : Ctx} {t : TwoFA} {db : DB} (h : Copy db t) (valid : Bool) :
    Sat (t.book ctx valid) (fun r db' => phase db' = phase db ∧ Copy db' r.2) db := by
  unfold TwoFA.book
  cases valid with
  | true =>
    have hsaved : Sat (t.succeeded ctx.now).update
        (fun _ db' => phase db' = phase db ∧ Copy db' (t.succeeded ctx.now)) db :=
      update_counted h rfl rfl rfl rfl rfl
    refine hsaved.bind ?_
    rintro - db' ⟨hphase, hcopy⟩
    exact Sat.pure ⟨hphase, hcopy⟩
  | false =>
    have hfailed : (t.failed ctx.now).id = t.id ∧ (t.failed ctx.now).userId = t.userId ∧
        (t.failed ctx.now).deletedAt = t.deletedAt ∧
        (t.failed ctx.now).isEnabled = t.isEnabled ∧ (t.failed ctx.now).secret = t.secret := by
      unfold TwoFA.failed
      dsimp only
      split <;> exact ⟨rfl, rfl, rfl, rfl, rfl⟩
    obtain ⟨hid, huser, hdeleted, hon, hsecret⟩ := hfailed
    have hinc : Sat (t.incrementFailedAttempts ctx)
        (fun r db' => phase db' = phase db ∧ Copy db' r.2) db := by
      refine (update_counted h hid huser hdeleted hon hsecret).bind ?_
      rintro err db' ⟨hphase, hcopy⟩
      exact Sat.pure ⟨hphase, hcopy⟩
    refine hinc.bind ?_
    rintro ⟨err, t'⟩ db' ⟨hphase, hcopy⟩
    exact Sat.pure ⟨hphase, hcopy⟩

theorem validateTOTP_counted {env : Env} {ctx : Ctx} {t : TwoFA} {db : DB} (h : Copy db t)
    (code : String) :
    Sat (t.validateTOTPAndUpdateUsage env ctx code)
      (fun r db' => phase db' = phase db ∧ Copy db' r.2) db := by
  unfold TwoFA.validateTOTPAndUpdateUsage
  split
  · exact Sat.pure ⟨rfl, h⟩
  · exact book_counted h _

theorem validateBackup_counted {env : Env} {ctx : Ctx} {t : TwoFA} {db : DB} (h : Copy db t)
    (code : String) :
    Sat (t.validateBackupCodeAndUpdateUsage env ctx code)
      (fun r db' => phase db' = phase db ∧ Copy db' r.2) db := by
  unfold TwoFA.validateBackupCodeAndUpdateUsage
  split
  · exact Sat.pure ⟨rfl, h⟩
  · refine (spares_sat (validateBackupCode_only env ctx t.userId code) db).bind ?_
    intro r db' htwoFAs
    cases r with
    | error e => exact Sat.pure ⟨phase_congr htwoFAs, h.congr htwoFAs⟩
    | ok valid =>
      refine Prog.Holds.mono (book_counted (h.congr htwoFAs) valid) ?_
      rintro r db'' ⟨hphase, hcopy⟩
      exact ⟨hphase.trans (phase_congr htwoFAs), hcopy⟩

theorem tryCode_counted {env : Env} {ctx : Ctx} {t : TwoFA} {db : DB} (h : Copy db t)
    (code : String) : Sat (tryCode env ctx t code) (fun _ db' => phase db' = phase db) db := by
  have htotp : Sat (tryTOTP env ctx t code) (fun r db' => phase db' = phase db ∧ Copy db' r.2) db := by
    unfold tryTOTP
    split
    · refine (validateTOTP_counted h _).bind ?_
      rintro ⟨r, t'⟩ db' hr
      exact Sat.pure hr
    · exact Sat.pure ⟨rfl, h⟩
  refine htotp.bind ?_
  rintro ⟨answers, t'⟩ db' ⟨hphase, hcopy⟩
  dsimp only
  split
  · exact Sat.pure hphase
  · refine (validateBackup_counted hcopy code).bind ?_
    rintro ⟨r, t''⟩ db'' ⟨hphase', -⟩
    exact Sat.pure (hphase'.trans hphase)

theorem delete_off {t : TwoFA} {db : DB} (ht : t ∈ db.twoFAs) :
    Sat t.delete (fun _ db' => phase db' = phase db ∨
      phase db' = Function.update (phase db) t.userId .off) db := by
  unfold TwoFA.delete
  split
  · exact Sat.pure (Or.inl rfl)
  · refine Sat.perform fun r db' h => Sat.pure ?_
    rcases h with ⟨-, rfl⟩ | ⟨-, rfl⟩
    · exact Or.inr (exec_twoFADelete ht)
    · exact Or.inl rfl

theorem disableTwoFA_off (userId : Int) (db : DB) :
    Sat (disableTwoFA userId) (fun _ db' => phase db' = phase db ∨
      phase db' = Function.update (phase db) userId .off) db := by
  unfold disableTwoFA
  refine (getTwoFAByUserId_sat userId db).bind ?_
  rintro r _ ⟨rfl, hfound⟩
  split
  · exact Sat.pure (Or.inl rfl)
  · exact Sat.pure (Or.inl rfl)
  · rename_i t
    obtain ⟨ht, -, rfl⟩ := hfound t rfl
    exact delete_off ht

theorem create_pending (userId : Int) (secret : String) (db : DB) :
    Sat (TwoFA.create { userId := userId, secret := secret, isEnabled := false })
      (fun _ db' => phase db' = phase db ∨ phase db userId = .off ∧
        phase db' = Function.update (phase db) userId (.pending secret)) db := by
  unfold TwoFA.create
  refine ((getTwoFAByUserId_readOnly userId).sat db).bind ?_
  rintro r _ rfl
  split
  · exact Sat.pure (Or.inl rfl)
  · exact Sat.pure (Or.inl rfl)
  · refine Sat.perform fun r db₁ h => ?_
    obtain ⟨rfl, -⟩ := h.userFirst
    split
    · exact Sat.pure (Or.inl rfl)
    · refine Sat.perform fun r db₂ h => Sat.pure ?_
      rcases h with ⟨-, rfl⟩ | ⟨-, rfl⟩
      · exact exec_twoFACreate _ rfl
      · exact Or.inl rfl

/-! ### Requests -/

inductive Request
  | setup2FA (key : Except Err (String × String))
  | enable2FA (code : Option String)
  | disable2FA (code : Option String)
  | regenerateBackupCodes (code : Option String)
  | adminDisable2FA (idParam : String)
  | verify2FALogin (code : Option String)
  | universalVerify (req : Except Err UniversalVerifyRequest)
  /-- Any handler that writes no record. -/
  | rest (handler : Ctx → Sess → M Out)
      (h : ∀ ctx s, Prog.Only (fun o => sparesTwoFA o = true) (handler ctx s))

/-- A request with what it brings along, and the statements that fail under it. -/
structure Act where
  request : Request
  cookie : Session := {}
  authorization : String := ""
  env : Env
  ctx : Ctx
  outages : Nat → Option Err := fun _ => none

def route (env : Env) (s : Sess) (ctx : Ctx) : Request → M Out
  | .setup2FA key => setup2FA ctx s key
  | .enable2FA code => enable2FA env ctx s code
  | .disable2FA code => disable2FA env ctx s code
  | .regenerateBackupCodes code => regenerateBackupCodes env ctx s code
  | .adminDisable2FA idParam => adminDisable2FA ctx s idParam
  | .verify2FALogin code => verify2FALogin env ctx s code
  | .universalVerify req => universalVerify env ctx s req
  | .rest handler _ => handler ctx s

/-- The least role that a route asks for, if it is behind `authHelper`. -/
def minRole : Request → Option Int
  | .adminDisable2FA _ => some roleAdminUser
  | .verify2FALogin _ | .rest _ _ => none
  | _ => some roleCommonUser

def handle (a : Act) : M Out :=
  match minRole a.request with
  | none => route a.env (Sess.ofCookie a.cookie) a.ctx a.request
  | some role => behind (authHelper role) (Sess.ofCookie a.cookie) a.authorization a.ctx fun ctx =>
      route a.env (Sess.ofCookie a.cookie) ctx a.request

def step (db : DB) (a : Act) : DB := (serve (handle a) ⟨db, a.outages⟩).2.db

/-- The context that the handler of a request is given: that of the request, or
what `authHelper` made of it. -/
def Granted (a : Act) (db : DB) (ctx : Ctx) : Prop :=
  match minRole a.request with
  | none => ctx = a.ctx
  | some role => ∃ auth, (BySession a.cookie role auth ∨ ByToken a.cookie db a.authorization role auth) ∧
      ctx = auth.toCtx a.ctx

/-- The code fits the secret at this moment. -/
def Fits (env : Env) (now : Int) (secret code : String) : Prop :=
  ∃ clean, validateNumericCode code = .ok clean ∧
    validateTOTPCode (env.totpValidate now) secret clean = true

/-- **The moves**: which request takes which user to which phase. -/
inductive Moves (env : Env) (ctx : Ctx) (db : DB) : Request → Int → Phase → Prop
  | cleared {key : Except Err (String × String)} (hoff : ∀ secret, phase db ctx.id ≠ .on secret) :
      Moves env ctx db (.setup2FA key) ctx.id .off
  | prepared {secret qrCodeData : String} (hoff : ∀ secret, phase db ctx.id ≠ .on secret) :
      Moves env ctx db (.setup2FA (.ok (secret, qrCodeData))) ctx.id (.pending secret)
  | confirmed {code secret : String} (hphase : phase db ctx.id = .pending secret)
      (hcode : Fits env ctx.now secret code) :
      Moves env ctx db (.enable2FA (some code)) ctx.id (.on secret)
  | disabled {code : String} (hcode : Presents env db ctx.now ctx.id code) :
      Moves env ctx db (.disable2FA (some code)) ctx.id .off
  | overruled {idParam : String} {row : User} (hparam : atoi idParam = (row.id, none))
      (hrow : row ∈ db.users) (hlive : row.live = true)
      (hrank : outranked ctx.role row.role = false) :
      Moves env ctx db (.adminDisable2FA idParam) row.id .off

/-- The request moves nobody, or makes one of its moves. -/
def Moved (env : Env) (ctx : Ctx) (q : Request) (db db' : DB) : Prop :=
  phase db' = phase db ∨
    ∃ u p, Moves env ctx db q u p ∧ phase db' = Function.update (phase db) u p

variable {env : Env} {ctx : Ctx} {db : DB} {s : Sess}

theorem Moved.refl {q : Request} : Moved env ctx q db db := Or.inl rfl

/-- A handler that keeps the phases makes no move. -/
theorem moved_of_same {α : Type} {p : M α} (q : Request)
    (h : Sat p (fun _ db' => phase db' = phase db) db) :
    Sat p (fun _ => Moved env ctx q db) db := Prog.Holds.mono h fun _ _ => Or.inl

theorem createBackupCodes_spares (ctx : Ctx) (userId : Int) (codes : List String) :
    Prog.Only (fun o => sparesTwoFA o = true) (createBackupCodes ctx userId codes) := by
  unfold createBackupCodes
  split
  · exact Prog.Only.pure
  · exact only_perform rfl fun _ => Prog.Only.pure

/-- `Setup2FA` once no record is in the way. -/
theorem newTwoFA_moved {db₁ : DB} (key : Except Err (String × String))
    (hbefore : phase db₁ = phase db ∨ (∀ secret, phase db ctx.id ≠ .on secret) ∧
      phase db₁ = Function.update (phase db) ctx.id .off) :
    Sat (BackupCodeLedger.newTwoFA ctx s key) (fun _ => Moved env ctx (.setup2FA key) db) db₁ := by
  have hmoved : Moved env ctx (.setup2FA key) db db₁ :=
    hbefore.imp_right fun h => ⟨_, _, .cleared h.1, h.2⟩
  unfold BackupCodeLedger.newTwoFA
  refine (getUserById_sat ctx.id false db₁).bind ?_
  rintro r db₁ ⟨rfl, -⟩
  cases r with
  | error e => exact Sat.pure hmoved
  | ok user =>
    dsimp only
    split
    · exact Sat.pure hmoved
    · exact Sat.pure hmoved
    rename_i secret qrCodeData backupCodes _
    refine (create_pending ctx.id secret db₁).bind ?_
    intro err db₂ hcreated
    have hmoved₂ : Moved env ctx (.setup2FA (.ok (secret, qrCodeData))) db db₂ := by
      rcases hcreated with hsame | ⟨hnone, hcreated⟩
      · unfold Moved
        rw [hsame]
        exact hmoved
      · rcases hbefore with hsame | ⟨hnotOn, hgone⟩
        · rw [hsame] at hnone hcreated
          refine Or.inr ⟨_, _, .prepared fun secret => ?_, hcreated⟩
          rw [hnone]
          intro h
          cases h
        · rw [hgone, Function.update_idem] at hcreated
          exact Or.inr ⟨_, _, .prepared hnotOn, hcreated⟩
    cases err with
    | some e => exact Sat.pure hmoved₂
    | none =>
      refine (spares_sat (createBackupCodes_spares ctx ctx.id backupCodes) db₂).bind ?_
      intro err db₃ htwoFAs
      have hmoved₃ : Moved env ctx (.setup2FA (.ok (secret, qrCodeData))) db db₃ := by
        unfold Moved
        rw [phase_congr htwoFAs]
        exact hmoved₂
      cases err <;> exact Sat.pure hmoved₃

/-- From an unconfirmed record, or none, `Setup2FA` goes to a new one, or none. -/
theorem setup2FA_moved (key : Except Err (String × String)) :
    Sat (setup2FA ctx s key) (fun _ => Moved env ctx (.setup2FA key) db) db := by
  unfold setup2FA
  refine (getTwoFAByUserId_sat ctx.id db).bind ?_
  rintro r db₀ ⟨rfl, hfound⟩
  cases r with
  | error e => exact Sat.pure Moved.refl
  | ok existing =>
    dsimp only
    split
    · exact Sat.pure Moved.refl
    rename_i hnotOn
    cases existing with
    | none => exact newTwoFA_moved key (Or.inl rfl)
    | some t =>
      obtain ⟨ht, hlive, huser⟩ := hfound t rfl
      have hoff : ∀ secret, phase db₀ ctx.id ≠ .on secret := by
        intro secret
        rw [← huser, phase_of_mem ht hlive]
        unfold Phase.of
        dsimp only
        rw [if_neg (show ¬ t.isEnabled = true from hnotOn)]
        intro h
        cases h
      refine (delete_off ht).bind ?_
      intro err db₁ hdeleted
      rw [huser] at hdeleted
      have hbefore := hdeleted.imp_right fun h => And.intro hoff h
      cases err with
      | some e =>
        exact Sat.pure (hbefore.imp_right fun h => ⟨_, _, .cleared h.1, h.2⟩)
      | none => exact newTwoFA_moved key hbefore

theorem enable2FA_moved (req : Option String) :
    Sat (enable2FA env ctx s req) (fun _ => Moved env ctx (.enable2FA req) db) db := by
  unfold enable2FA
  cases req with
  | none => exact Sat.pure Moved.refl
  | some code =>
    refine (getTwoFAByUserId_sat ctx.id db).bind ?_
    rintro r db₀ ⟨rfl, hfound⟩
    split
    · exact Sat.pure Moved.refl
    · exact Sat.pure Moved.refl
    rename_i t
    obtain ⟨ht, hlive, huser⟩ := hfound t rfl
    split
    · exact Sat.pure Moved.refl
    rename_i hnotOn
    cases hnum : validateNumericCode code with
    | error msg => exact Sat.pure Moved.refl
    | ok cleanCode =>
      dsimp only
      split
      · exact Sat.pure Moved.refl
      rename_i hvalid
      rw [Bool.not_eq_true', Bool.not_eq_false] at hvalid
      have hpending : phase db₀ ctx.id = .pending t.secret := by
        rw [← huser, phase_of_mem ht hlive]
        exact if_neg hnotOn
      have henabled : Sat t.enable (fun _ => Moved env ctx (.enable2FA (some code)) db₀) db₀ := by
        refine Prog.Holds.mono (update_sat hlive ⟨t, ht, rfl, rfl⟩) ?_
        rintro - db' (rfl | ⟨hphase, -⟩)
        · exact Moved.refl
        · rw [show ({ t with isEnabled := true, failedAttempts := 0, lockedUntil := none } :
            TwoFA).userId = ctx.id from huser] at hphase
          exact Or.inr ⟨_, _, .confirmed hpending ⟨cleanCode, hnum, hvalid⟩, hphase⟩
      refine henabled.bind ?_
      intro err db' hmoved
      cases err <;> exact Sat.pure hmoved

theorem disable2FA_moved (req : Option String) :
    Sat (disable2FA env ctx s req) (fun _ => Moved env ctx (.disable2FA req) db) db := by
  unfold disable2FA
  cases req with
  | none => exact Sat.pure Moved.refl
  | some code =>
    refine (getTwoFAByUserId_sat ctx.id db).bind ?_
    rintro r db₀ ⟨rfl, hfound⟩
    cases henabled : enabledTwoFA r with
    | error e => exact Sat.pure Moved.refl
    | ok t =>
      obtain ⟨rfl, hon⟩ := enabledTwoFA_ok henabled
      obtain ⟨ht, hlive, huser⟩ := hfound t rfl
      refine ((tryCode_counted (Copy.of_mem ht hlive) code).and
        (tryCode_sat env ctx t code db₀)).bind ?_
      rintro answers db₁ ⟨hphase, hcode⟩
      split
      · exact Sat.pure (Or.inl hphase)
      · exact Sat.pure (Or.inl hphase)
      rename_i hok
      have hpresents : Presents env db₀ ctx.now ctx.id code := by
        have hcode' := hcode (any_isOk_of_verdict hok)
        rw [huser] at hcode'
        exact ⟨t, ht, hlive, huser, hon, hcode'⟩
      refine (disableTwoFA_off ctx.id db₁).bind ?_
      intro err db₂ hdisabled
      have hmoved : Moved env ctx (.disable2FA (some code)) db₀ db₂ := by
        rw [hphase] at hdisabled
        exact hdisabled.imp_right fun h => ⟨_, _, .disabled hpresents, h⟩
      cases err <;> exact Sat.pure hmoved

theorem regenerateBackupCodes_same (req : Option String) :
    Sat (regenerateBackupCodes env ctx s req) (fun _ db' => phase db' = phase db) db := by
  unfold regenerateBackupCodes
  cases req with
  | none => exact Sat.pure rfl
  | some code =>
    refine (getTwoFAByUserId_sat ctx.id db).bind ?_
    rintro r db₀ ⟨rfl, hfound⟩
    cases henabled : enabledTwoFA r with
    | error e => exact Sat.pure rfl
    | ok t =>
      obtain ⟨rfl, -⟩ := enabledTwoFA_ok henabled
      obtain ⟨ht, hlive, -⟩ := hfound t rfl
      dsimp only
      split
      · exact Sat.pure rfl
      refine (validateTOTP_counted (Copy.of_mem ht hlive) _).bind ?_
      rintro ⟨r, t'⟩ db₁ ⟨hphase, -⟩
      dsimp only
      split
      · exact Sat.pure hphase
      · exact Sat.pure hphase
      split
      · exact Sat.pure hphase
      rename_i backupCodes _
      refine (spares_sat (createBackupCodes_spares ctx ctx.id backupCodes) db₁).bind ?_
      intro err db₂ htwoFAs
      have hsame : phase db₂ = phase db₀ := (phase_congr htwoFAs).trans hphase
      cases err <;> exact Sat.pure hsame

theorem verify2FALogin_same (req : Option String) :
    Sat (verify2FALogin env ctx s req) (fun _ db' => phase db' = phase db) db := by
  unfold verify2FALogin
  cases req with
  | none => exact Sat.pure rfl
  | some code =>
    dsimp only
    split
    · exact Sat.pure rfl
    rename_i userId _
    refine (getUserById_sat userId false db).bind ?_
    rintro r db₀ ⟨rfl, -⟩
    cases r with
    | error e => exact Sat.pure rfl
    | ok user =>
      refine (getTwoFAByUserId_sat _ db₀).bind ?_
      rintro found db₁ ⟨rfl, hfound⟩
      cases henabled : enabledTwoFA found with
      | error e => exact Sat.pure rfl
      | ok t =>
        obtain ⟨rfl, -⟩ := enabledTwoFA_ok henabled
        obtain ⟨ht, hlive, -⟩ := hfound t rfl
        refine (tryCode_counted (Copy.of_mem ht hlive) code).bind ?_
        intro answers db₂ hphase
        split <;> exact Sat.pure hphase

theorem universalVerify_same (req : Except Err UniversalVerifyRequest) :
    Sat (universalVerify env ctx s req) (fun _ db' => phase db' = phase db) db := by
  unfold universalVerify
  split
  · exact Sat.pure rfl
  cases req with
  | error e => exact Sat.pure rfl
  | ok r =>
    refine (fillUserById_sat ctx.id db).bind ?_
    rintro ⟨err, user⟩ db₀ ⟨rfl, -⟩
    cases err with
    | some e => exact Sat.pure rfl
    | none =>
      dsimp only
      split
      · exact Sat.pure rfl
      refine (getTwoFAByUserId_sat ctx.id db₀).bind ?_
      rintro found db₁ ⟨rfl, hfound⟩
      refine (getPasskeyByUserID_sat ctx.id db₁).bind ?_
      rintro passkey db₂ ⟨rfl, -⟩
      split
      · exact Sat.pure rfl
      unfold verifyMethod
      split
      · split
        · exact Sat.pure rfl
        split
        · exact Sat.pure rfl
        have hvalidated : Sat (validateTwoFactorAuth env ctx found.toOption.join r.code)
            (fun _ db' => phase db' = phase db₂) db₂ := by
          unfold validateTwoFactorAuth
          split
          · exact Sat.pure rfl
          rename_i t hjoin
          split
          · exact Sat.pure rfl
          · have hsome : found = .ok (some t) := by
              cases found with
              | error e => cases hjoin
              | ok found => exact congrArg Except.ok hjoin
            obtain ⟨ht, hlive, -⟩ := hfound t hsome
            exact tryCode_counted (Copy.of_mem ht hlive) r.code
        refine hvalidated.bind ?_
        intro answers db₃ hphase
        split <;> exact Sat.pure hphase
      · split
        · split <;> exact Sat.pure rfl
        · exact Sat.pure rfl

theorem adminDisable2FA_moved (idParam : String) :
    Sat (adminDisable2FA ctx s idParam) (fun _ => Moved env ctx (.adminDisable2FA idParam) db) db := by
  unfold adminDisable2FA
  split
  · exact Sat.pure Moved.refl
  rename_i userId hparam
  refine (getUserById_sat userId false db).bind ?_
  rintro r db₀ ⟨rfl, hfound⟩
  cases r with
  | error e => exact Sat.pure Moved.refl
  | ok user =>
    obtain ⟨row, hrow, hlive, rfl, rfl⟩ := hfound user rfl
    dsimp only
    rw [if_neg Bool.false_ne_true]
    split
    · exact Sat.pure Moved.refl
    rename_i hrank
    rw [Bool.not_eq_true] at hrank
    refine (disableTwoFA_off row.id db₀).bind ?_
    intro err db₁ hdisabled
    have hmoved : Moved env ctx (.adminDisable2FA idParam) db₀ db₁ :=
      hdisabled.imp_right fun h => ⟨_, _, .overruled hparam hrow hlive hrank, h⟩
    split <;> exact Sat.pure hmoved

theorem route_moved (q : Request) : Sat (route env s ctx q) (fun _ => Moved env ctx q db) db := by
  unfold route
  cases q with
  | setup2FA key => exact setup2FA_moved key
  | enable2FA code => exact enable2FA_moved code
  | disable2FA code => exact disable2FA_moved code
  | regenerateBackupCodes code => exact moved_of_same _ (regenerateBackupCodes_same code)
  | adminDisable2FA idParam => exact adminDisable2FA_moved idParam
  | verify2FALogin code => exact moved_of_same _ (verify2FALogin_same code)
  | universalVerify req => exact moved_of_same _ (universalVerify_same req)
  | rest handler h =>
    exact moved_of_same _ (Prog.Holds.mono (spares_sat (h ctx s) db) fun _ _ => phase_congr)

/-- **Every request makes one of its moves, or none**, and moves nobody else. -/
theorem refines (db : DB) (a : Act) : phase (step db a) = phase db ∨ ∃ ctx u p,
    Granted a db ctx ∧ Moves a.env ctx db a.request u p ∧
      phase (step db a) = Function.update (phase db) u p := by
  have hlift : ∀ ctx, Granted a db ctx → ∀ db', Moved a.env ctx a.request db db' →
      phase db' = phase db ∨ ∃ ctx u p, Granted a db ctx ∧ Moves a.env ctx db a.request u p ∧
        phase db' = Function.update (phase db) u p := by
    intro ctx hctx db' hmoved
    refine hmoved.imp_right ?_
    rintro ⟨u, p, hmove, hphase⟩
    exact ⟨ctx, u, p, hctx, hmove, hphase⟩
  have hhandle : Sat (handle a) (fun _ db' => phase db' = phase db ∨ ∃ ctx u p,
      Granted a db ctx ∧ Moves a.env ctx db a.request u p ∧
        phase db' = Function.update (phase db) u p) db := by
    unfold handle
    cases hrole : minRole a.request with
    | none =>
      refine Prog.Holds.mono (route_moved a.request) fun _ => hlift a.ctx ?_
      unfold Granted
      rw [hrole]
    | some role =>
      dsimp only
      unfold behind
      refine (authHelper_sat role a.cookie a.authorization db).bind ?_
      rintro r db₀ ⟨rfl, hauth⟩
      cases r with
      | error reply => exact Sat.pure (Or.inl rfl)
      | ok auth =>
        refine Prog.Holds.mono (route_moved a.request) fun _ => hlift (auth.toCtx a.ctx) ?_
        unfold Granted
        rw [hrole]
        exact ⟨auth, hauth auth rfl, rfl⟩
  exact hhandle.serve (s := ⟨db, a.outages⟩)

/-! ### Runs -/

/-- The request switches the second factor of `u` off, rightfully. -/
inductive Releases (u : Int) (db : DB) (a : Act) : Prop
  | own {ctx : Ctx} {code : String} (hreq : a.request = .disable2FA (some code))
      (hctx : Granted a db ctx) (hid : ctx.id = u) (hcode : Presents a.env db a.ctx.now u code)
  | overruled {ctx : Ctx} {idParam : String} {row : User} (hreq : a.request = .adminDisable2FA idParam)
      (hctx : Granted a db ctx) (hparam : atoi idParam = (row.id, none)) (hid : row.id = u)
      (hrow : row ∈ db.users) (hlive : row.live = true)
      (hrank : outranked ctx.role row.role = false)

/-- The request makes `secret` for `u`. -/
def Prepares (u : Int) (secret : String) (db : DB) (a : Act) : Prop :=
  ∃ ctx qrCodeData, a.request = .setup2FA (.ok (secret, qrCodeData)) ∧ Granted a db ctx ∧ ctx.id = u

/-- The request shows a code that fits the secret of `u`, which waits for one. -/
def Confirms (u : Int) (secret : String) (db : DB) (a : Act) : Prop :=
  ∃ ctx code, a.request = .enable2FA (some code) ∧ Granted a db ctx ∧ ctx.id = u ∧
    phase db u = .pending secret ∧ Fits a.env a.ctx.now secret code

/-- The handlers have the clock of the request. -/
theorem Granted.now {a : Act} {db : DB} {ctx : Ctx} (h : Granted a db ctx) :
    ctx.now = a.ctx.now := by
  unfold Granted at h
  split at h
  · rw [h]
  · obtain ⟨auth, -, rfl⟩ := h
    rfl

theorem on_step {db : DB} {u : Int} {secret : String} (h : phase db u = .on secret) (a : Act) :
    phase (step db a) u = .on secret ∨ Releases u db a := by
  rcases refines db a with hsame | ⟨ctx, v, p, hctx, hmove, hphase⟩
  · rw [hsame]
    exact Or.inl h
  by_cases hv : u = v
  · subst hv
    generalize hreq : a.request = q at hmove
    cases hmove with
    | cleared hoff => exact absurd h (hoff secret)
    | prepared hoff => exact absurd h (hoff secret)
    | confirmed hpending _ =>
      rw [hpending] at h
      cases h
    | disabled hcode =>
      rw [hctx.now] at hcode
      exact Or.inr (.own hreq hctx rfl hcode)
    | overruled hparam hrow hlive hrank =>
      exact Or.inr (.overruled hreq hctx hparam rfl hrow hlive hrank)
  · rw [hphase, Function.update_of_ne hv]
    exact Or.inl h

theorem step_on {db : DB} {u : Int} {secret : String} {a : Act}
    (h : phase (step db a) u = .on secret) : phase db u = .on secret ∨ Confirms u secret db a := by
  rcases refines db a with hsame | ⟨ctx, v, p, hctx, hmove, hphase⟩
  · rw [hsame] at h
    exact Or.inl h
  by_cases hv : u = v
  · subst hv
    rw [hphase, Function.update_self] at h
    generalize hreq : a.request = q at hmove
    cases hmove with
    | confirmed hpending hcode =>
      obtain rfl := Phase.on.inj h
      rw [hctx.now] at hcode
      exact Or.inr ⟨ctx, _, hreq, hctx, rfl, hpending, hcode⟩
    | cleared | prepared | disabled | overruled => cases h
  · rw [hphase, Function.update_of_ne hv] at h
    exact Or.inl h

theorem step_pending {db : DB} {u : Int} {secret : String} {a : Act}
    (h : phase (step db a) u = .pending secret) :
    phase db u = .pending secret ∨ Prepares u secret db a := by
  rcases refines db a with hsame | ⟨ctx, v, p, hctx, hmove, hphase⟩
  · rw [hsame] at h
    exact Or.inl h
  by_cases hv : u = v
  · subst hv
    rw [hphase, Function.update_self] at h
    generalize hreq : a.request = q at hmove
    cases hmove with
    | prepared _ =>
      obtain rfl := Phase.pending.inj h
      exact Or.inr ⟨ctx, _, hreq, hctx, rfl⟩
    | cleared | confirmed | disabled | overruled => cases h
  · rw [hphase, Function.update_of_ne hv] at h
    exact Or.inl h

/-- **A second factor that is on stays on**, with its secret, until its owner
presents an accepted code to switch it off, or an administrator above the owner
does. -/
theorem stays_on {db : DB} {u : Int} {secret : String} (h : phase db u = .on secret)
    (acts : List Act) : phase (Runs.after step db acts) u = .on secret ∨
      Runs.Earlier step db (Releases u) acts := by
  induction acts using List.reverseRecOn with
  | nil => exact Or.inl h
  | append_singleton acts a ih =>
    rw [Runs.after_snoc, Runs.earlier_snoc]
    rcases ih with hon | hreleased
    · exact (on_step hon a).imp_right Or.inr
    · exact Or.inr (Or.inl hreleased)

theorem pending_origin (db : DB) {u : Int} {secret : String} (acts : List Act)
    (h : phase (Runs.after step db acts) u = .pending secret) :
    phase db u = .pending secret ∨ Runs.Earlier step db (Prepares u secret) acts := by
  induction acts using List.reverseRecOn with
  | nil => exact Or.inl h
  | append_singleton acts a ih =>
    rw [Runs.after_snoc] at h
    rw [Runs.earlier_snoc]
    rcases step_pending h with hpending | hprepared
    · exact (ih hpending).imp_right Or.inl
    · exact Or.inr (Or.inr hprepared)

/-- **How a second factor came to be on**: it was on at the start, or its owner
showed a code that fits its secret, and the secret had been waiting since the start
or was made for the owner before. -/
theorem switched_on (db : DB) {u : Int} {secret : String} (acts : List Act)
    (h : phase (Runs.after step db acts) u = .on secret) : phase db u = .on secret ∨
      ∃ pre a post, acts = pre ++ a :: post ∧ Confirms u secret (Runs.after step db pre) a ∧
        (phase db u = .pending secret ∨ Runs.Earlier step db (Prepares u secret) pre) := by
  induction acts using List.reverseRecOn with
  | nil => exact Or.inl h
  | append_singleton acts a ih =>
    rw [Runs.after_snoc] at h
    rcases step_on h with hon | hconfirmed
    · refine (ih hon).imp_right ?_
      rintro ⟨pre, b, post, rfl, hrest⟩
      exact ⟨pre, b, post ++ [a], by simp, hrest⟩
    · have hconfirms := hconfirmed
      obtain ⟨-, -, -, -, -, hpending, -⟩ := hconfirmed
      exact Or.inr ⟨acts, a, [], rfl, hconfirms, pending_origin db acts hpending⟩

/-! ### Switched on and off again -/

def bob : User := { id := 1, username := "bob", role := 1, status := 1, affCode := "B" }

def bobDB : DB where
  users := Table.single bob
  twoFAs := Table.empty
  backupCodes := Table.empty
  passkeys := Table.empty

def bobCookie : Session :=
  { id := some 1, username := some "bob", role := some 1, status := some 1 }

/-- He sets up a second factor, the backup codes cannot be stored, and he confirms. -/
def switchOn : List Act :=
  [{ request := .setup2FA (.ok ("123456", "otpauth"))
     cookie := bobCookie
     env := Env.plain
     ctx := Ctx.plain 0
     outages := fun n => if n = 5 then some (.new "connection lost") else none },
   { request := .enable2FA (some "123456")
     cookie := bobCookie
     env := Env.plain
     ctx := Ctx.plain second }]

theorem switchOn_switched_on : phase bobDB 1 = .on "123456" ∨
    ∃ pre a post, switchOn = pre ++ a :: post ∧
      Confirms 1 "123456" (Runs.after step bobDB pre) a ∧
      (phase bobDB 1 = .pending "123456" ∨
        Runs.Earlier step bobDB (Prepares 1 "123456") pre) :=
  switched_on bobDB switchOn (by decide)

/-- A guess, and then the code, on the database left. -/
def switchOff : List Act :=
  ["654321", "123456"].map fun code =>
    { request := .disable2FA (some code)
      cookie := bobCookie
      env := Env.plain
      ctx := Ctx.plain second }

theorem switchOff_stays_on :
    phase (Runs.after step (Runs.after step bobDB switchOn) switchOff) 1 = .on "123456" ∨
      Runs.Earlier step (Runs.after step bobDB switchOn) (Releases 1) switchOff :=
  stays_on (by decide) switchOff

end AuthGateway.SecondFactor
