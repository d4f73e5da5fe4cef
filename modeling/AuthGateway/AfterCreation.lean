import AuthGateway.Accounts

/-!
# A login right after the account was created

`Register`, `CreateUser` and the root creation of `PostSetup`, each followed by
a `Login` with the user name and the password as they were submitted.

The login trims the name, and takes it for a user name or an e-mail of the first
live row that has it.  `CreateUser` trims as well; the other two store the name
as it is.  **The login signs in the account just created exactly when the
trimmed name addresses it, and no account before it** (`logs_in_iff`).
-/

namespace AuthGateway.AfterCreation

open Common Model Controller Accounts GoString

/-! ### The three creations -/

inductive Creation
  | register (user : User)
  | createUser (user : User)
  | postSetup (req : SetupRequest)

namespace Creation

/-- The user name and the password that are submitted. -/
def login : Creation → LoginRequest
  | register user => ⟨user.username, user.password⟩
  | createUser user => ⟨user.username, user.password⟩
  | postSetup req => ⟨req.username, req.password⟩

/-- The user name that is stored. -/
def username : Creation → String
  | register user => user.username
  | createUser user => trimSpace user.username
  | postSetup req => req.username

/-- The e-mail that is stored. -/
def email (env : Env) : Creation → String
  | register user => if env.cfg.emailVerificationEnabled then user.email else ""
  | _ => ""

end Creation

/-- A creation meets a database, with what it does not bring itself: whether the
e-mail code is accepted, and the process. -/
structure Scene where
  env : Env
  ctx : Ctx
  session : Session
  codeAccepted : Bool
  process : Process
  db : DB

/-- The answer and the database afterwards. -/
def create (sc : Scene) : Creation → Reply × DB
  | .register user =>
    let r := (Controller.register sc.env sc.ctx (Sess.ofCookie sc.session) (some user)
      sc.codeAccepted).run exec sc.db
    (r.1.reply, r.2)
  | .createUser user =>
    let r := (Controller.createUser sc.env sc.ctx (Sess.ofCookie sc.session) (some user)).run exec
      sc.db
    (r.1.reply, r.2)
  | .postSetup req =>
    let r := Controller.postSetup sc.ctx (some req) ⟨sc.process, false, Store.ofDB sc.db⟩
    (r.1, r.2.accounts.db)

/-- The reply says success. -/
def Done (reply : Reply) : Prop := ∃ status message data, reply = .json status true message data

/-- The creation answers success; a setup creates a root only if there is none. -/
def Succeeds (sc : Scene) (c : Creation) : Prop :=
  Done (create sc c).1 ∧ ∀ req, c = .postSetup req → ¬ HasRoot sc.db

/-- The account that was just created. -/
def Created (sc : Scene) (c : Creation) (u : User) : Prop :=
  u ∈ (create sc c).2.users ∧ ∀ x ∈ sc.db.users, x.id ≠ u.id

/-- The login that follows signs in the account just created. -/
def LogsIn (sc : Scene) (c : Creation) : Prop :=
  ∃ u, Created sc c u ∧ ∀ s : Sess,
    (Controller.login sc.env s (some c.login)).run exec (create sc c).2
      = (setupLogin sc.env s u, (create sc c).2)

/-- The trimmed name is a name of the new account and of no account before. -/
def Addressed (sc : Scene) (c : Creation) : Prop :=
  trimSpace c.login.username ≠ "" ∧
    (c.username = trimSpace c.login.username ∨ c.email sc.env = trimSpace c.login.username) ∧
    ∀ x ∈ sc.db.users, x.live = true →
      x.username ≠ trimSpace c.login.username ∧ x.email ≠ trimSpace c.login.username

/-! ### What a creation leaves -/

/-- The new row, and what is behind it. -/
structure Stored (sc : Scene) (c : Creation) (row : User) : Prop where
  mem : row ∈ (create sc c).2.users
  old : ∀ x ∈ (create sc c).2.users, x = row ∨ ∃ y ∈ sc.db.users, x.core = y.core
  kept : ∀ y ∈ sc.db.users, ∃ x ∈ (create sc c).2.users, x.core = y.core
  later : ∀ y ∈ sc.db.users, y.id < row.id
  username : row.username = c.username
  email : row.email = c.email sc.env
  live : row.live = true
  status : row.status = userStatusEnabled
  password : sc.ctx.password2Hash c.login.password = .ok row.password
  nonempty : c.login.password ≠ ""

/-- A body that the validator accepts has a password. -/
theorem password_of_valid {u : User} (h : validateStruct u = none) : u.password ≠ "" := by
  intro hempty
  unfold validateStruct at h
  rw [hempty] at h
  simp only [show ("" : String).toList.length < 8 by decide, if_true] at h
  split at h
  · rename_i hnil
    simp at hnil
  · cases h

/-- A new row in the core of a database is one of its rows. -/
theorem stored_of_create {sc : Scene} {c : Creation} {new : User}
    (hcores : cores (create sc c).2 = (Change.create new).cores sc.db)
    (hlater : ∀ y ∈ sc.db.users, y.id < new.id) (hname : new.username = c.username)
    (hemail : new.email = c.email sc.env) (hlive : new.live = true)
    (hstatus : new.status = userStatusEnabled)
    (hpassword : sc.ctx.password2Hash c.login.password = .ok new.password)
    (hnonempty : c.login.password ≠ "") : ∃ row, Stored sc c row := by
  have hnew : new.core ∈ cores (create sc c).2 := by
    rw [hcores]
    exact Set.mem_insert _ _
  obtain ⟨row, hrow, he⟩ := hnew
  have hrowid : row.id = new.id := (User.core_id he).symm
  refine ⟨row, hrow, ?_, ?_, ?_, ?_, ?_, ?_, ?_, ?_, hnonempty⟩
  · intro x hx
    have hmem : x.core ∈ (Change.create new).cores sc.db := by
      rw [← hcores]
      exact mem_cores hx
    rcases hmem with hx' | ⟨y, hy, hxy⟩
    · exact Or.inl (Table.eq_of_key hx hrow ((User.core_id hx').trans hrowid.symm))
    · exact Or.inr ⟨y, hy, hxy⟩
  · intro y hy
    have hmem : y.core ∈ cores (create sc c).2 := by
      rw [hcores]
      exact Set.mem_insert_of_mem _ (mem_cores hy)
    obtain ⟨x, hx, hxy⟩ := hmem
    exact ⟨x, hx, hxy.symm⟩
  · intro y hy
    rw [hrowid]
    exact hlater y hy
  · exact (User.core_congr (f := User.username) (fun _ => rfl) he.symm).trans hname
  · exact (User.core_congr (f := User.email) (fun _ => rfl) he.symm).trans hemail
  · exact (User.core_congr (f := User.live) (fun _ => rfl) he.symm).trans hlive
  · exact (User.core_congr (f := User.status) (fun _ => rfl) he.symm).trans hstatus
  · rw [User.core_congr (f := User.password) (fun _ => rfl) he.symm]
    exact hpassword

theorem not_done_fail (s : Sess) (msg : String) : ¬ Done (s.fail msg).reply := by
  rintro ⟨status, message, data, h⟩
  cases h

theorem ends_refused {s : Sess} {msg : String} {P : DB → Prop} {db : DB} :
    Ends (pure (s.fail msg)) (fun out db' => Done out.reply → P db') db :=
  Ends.pure fun h => absurd h (not_done_fail s msg)

theorem not_done_apiError (s : Sess) (e : Err) : ¬ Done (s.apiError e).reply := by
  rintro ⟨status, message, data, h⟩
  cases h

/-- The end of a creation: success is answered when the row was stored. -/
theorem insert_ends (env : Env) (ctx : Ctx) (s : Sess) (cleanUser : User) (inviterId : Int)
    (db : DB) :
    Ends (do
      let (err, _) ← cleanUser.insert env ctx inviterId
      match err with
      | some e => return s.apiError e
      | none => return s.answer (.done "")) (fun out db' => Done out.reply →
        ∃ row, New env ctx db cleanUser row ∧ cores db' = (Change.create row).cores db) db := by
  refine (Sat.ends (insert_cores env ctx cleanUser inviterId db)).bind ?_
  rintro ⟨err, row⟩ db' h
  cases err with
  | some e => exact Ends.pure fun hdone => absurd hdone (not_done_apiError s e)
  | none =>
    rcases h with ⟨e, he, -⟩ | ⟨-, newUser, hhash, hnew, hcores⟩
    · cases he
    · exact Ends.pure fun _ => ⟨row, ⟨newUser, hhash, hnew⟩, hcores⟩

theorem register_ends (env : Env) (ctx : Ctx) (s : Sess) (user : User) (codeAccepted : Bool)
    (db : DB) :
    Ends (Controller.register env ctx s (some user) codeAccepted) (fun out db' => Done out.reply →
      validateStruct user = none ∧ ∃ inviterId row, New env ctx db
        { username := user.username
          password := user.password
          displayName := user.username
          inviterId := inviterId
          role := roleCommonUser
          email := if env.cfg.emailVerificationEnabled then user.email else "" } row ∧
        cores db' = (Change.create row).cores db) db := by
  unfold Controller.register
  split
  · exact ends_refused
  split
  · exact ends_refused
  dsimp only
  split
  · exact ends_refused
  rename_i hvalid
  split
  · exact ends_refused
  split
  · exact ends_refused
  refine (checkUserExistOrDeleted_ends user.username user.email db).bind ?_
  rintro r db₁ ⟨rfl, -⟩
  cases r with
  | error e => exact ends_refused
  | ok exist =>
    cases exist with
    | true => exact ends_refused
    | false =>
      refine (Sat.ends ((getUserIdByAffCode_readOnly user.affCode).sat db₁)).bind ?_
      rintro inviterId db₂ rfl
      refine (insert_ends env ctx s _ inviterId db₂).mono fun out db' h hdone => ?_
      obtain ⟨row, hnew, hcores⟩ := h hdone
      exact ⟨hvalid, inviterId, row, hnew, hcores⟩

theorem createUser_ends (env : Env) (ctx : Ctx) (s : Sess) (user : User) (db : DB) :
    Ends (Controller.createUser env ctx s (some user)) (fun out db' => Done out.reply →
      user.password ≠ "" ∧ ∃ row, New env ctx db
        { username := trimSpace user.username
          password := user.password
          displayName := if user.displayName = "" then trimSpace user.username else user.displayName
          role := user.role } row ∧
        cores db' = (Change.create row).cores db) db := by
  unfold Controller.createUser
  dsimp only
  split
  · exact ends_refused
  rename_i hempty
  split
  · exact ends_refused
  split
  · exact ends_refused
  · refine (insert_ends env ctx s _ 0 db).mono fun out db' h hdone => ?_
    obtain ⟨row, hnew, hcores⟩ := h hdone
    exact ⟨fun h => hempty (Or.inr h), row, hnew, hcores⟩

/-- **A creation that succeeds stores the account**, past all others, enabled,
with the password that was submitted. -/
theorem stored_of_succeeds {sc : Scene} {c : Creation} (h : Succeeds sc c) :
    ∃ row, Stored sc c row := by
  obtain ⟨hdone, hroot⟩ := h
  cases c with
  | register user =>
    dsimp only [create] at hdone
    obtain ⟨hvalid, inviterId, row, hnew, hcores⟩ := register_ends sc.env sc.ctx
      (Sess.ofCookie sc.session) user sc.codeAccepted sc.db hdone
    have hnonempty : user.password ≠ "" := password_of_valid hvalid
    have hcreate : cores (create sc (.register user)).2 = (Change.create row).cores sc.db := by
      dsimp only [create]
      exact hcores
    obtain ⟨hlater, hlive, hstatus, hpassword⟩ := hnew.account rfl rfl rfl hnonempty
    exact stored_of_create hcreate hlater hnew.names.1 hnew.names.2 hlive hstatus hpassword
      hnonempty
  | createUser user =>
    dsimp only [create] at hdone
    obtain ⟨hnonempty, row, hnew, hcores⟩ := createUser_ends sc.env sc.ctx
      (Sess.ofCookie sc.session) user sc.db hdone
    have hcreate : cores (create sc (.createUser user)).2 = (Change.create row).cores sc.db := by
      dsimp only [create]
      exact hcores
    obtain ⟨hlater, hlive, hstatus, hpassword⟩ := hnew.account rfl rfl rfl hnonempty
    exact stored_of_create hcreate hlater hnew.names.1 hnew.names.2 hlive hstatus hpassword
      hnonempty
  | postSetup req =>
    obtain ⟨-, ⟨-, hnone⟩ | ⟨-, -, q, row, hq, ⟨⟨-, -, hlen⟩, password, hhash, hnew⟩, hcores⟩⟩ :=
      postSetup_accounts sc.ctx (some req) sc.process false sc.db
    · exfalso
      rcases hnone with hhas | ⟨msg, hmsg⟩
      · exact hroot req rfl hhas
      · obtain ⟨status, message, data, hreply⟩ := hdone
        exact nomatch hmsg.symm.trans hreply
    · obtain rfl := Option.some.inj hq
      have hnonempty : req.password ≠ "" := by
        intro he
        rw [he] at hlen
        exact absurd hlen (by decide)
      obtain ⟨k, hk⟩ := hnew.columns
      refine stored_of_create hcores (hnew.later rfl) hnew.names.1 hnew.names.2 ?_ ?_ ?_ hnonempty
      · rw [hk]
        rfl
      · rw [hk]
        rfl
      · rw [hk]
        exact hhash

/-! ### Whom the name addresses -/

variable {sc : Scene} {c : Creation} {row : User}

/-- **The trimmed name picks the new row exactly when it addresses it**: an older
row with that name would come first. -/
theorem account_iff (h : Stored sc c row) (hname : trimSpace c.login.username ≠ "") :
    account (create sc c).2 c.login.username = some row ↔ Addressed sc c := by
  rw [account_eq_some]
  constructor
  · rintro ⟨-, -, hnamed, hfirst⟩
    rw [Named, h.username, h.email] at hnamed
    refine ⟨hname, hnamed, fun y hy hlive => ?_⟩
    obtain ⟨x, hx, hcore⟩ := h.kept y hy
    have hlt : x.id < row.id := by
      rw [User.core_id hcore]
      exact h.later y hy
    have hxlive : x.live = true := by
      rw [User.core_congr (f := User.live) (fun _ => rfl) hcore]
      exact hlive
    have hnot := hfirst x hx hxlive hlt
    rw [Named, not_or, User.core_congr (f := User.username) (fun _ => rfl) hcore,
      User.core_congr (f := User.email) (fun _ => rfl) hcore] at hnot
    exact hnot
  · rintro ⟨-, hown, hothers⟩
    refine ⟨h.mem, h.live, ?_, fun x hx hxlive hlt hxnamed => ?_⟩
    · rw [Named, h.username, h.email]
      exact hown
    · rcases h.old x hx with rfl | ⟨y, hy, hcore⟩
      · exact absurd hlt (lt_irrefl _)
      · rw [User.core_congr (f := User.live) (fun _ => rfl) hcore] at hxlive
        rw [Named, User.core_congr (f := User.username) (fun _ => rfl) hcore,
          User.core_congr (f := User.email) (fun _ => rfl) hcore] at hxnamed
        obtain ⟨husername, hemail⟩ := hothers y hy hxlive
        rcases hxnamed with he | he
        · exact absurd he husername
        · exact absurd he hemail

/-- The account just created is the stored row. -/
theorem Created.eq_row (h : Stored sc c row) {u : User} (hu : Created sc c u) : u = row := by
  rcases h.old u hu.1 with he | ⟨y, hy, hcore⟩
  · exact he
  · exact absurd (User.core_id hcore).symm (hu.2 y hy)

theorem Stored.created (h : Stored sc c row) : Created sc c row :=
  ⟨h.mem, fun x hx => ne_of_lt (h.later x hx)⟩

/-- Whom a login signs in is the account that its name picks. -/
theorem account_of_login {env : Env} {db : DB} {s : Sess} {r : LoginRequest} {u : User}
    (h : ((Controller.login env s (some r)).run exec db).1.login = some u) :
    trimSpace r.username ≠ "" ∧ account db r.username = some u := by
  have hserve : (serve (Controller.login env s (some r)) (Store.ofDB db)).1.login = some u := by
    rw [serve_ofDB]
    exact h
  rcases serve_login env s (some r) (Store.ofDB db) with
    ⟨reply, he⟩ | ⟨-, r', v, hr, hval, ⟨reply, he⟩ | ⟨-, he⟩⟩
  · rw [he] at hserve
    cases hserve
  · rw [he] at hserve
    cases hserve
  · obtain rfl := Option.some.inj hr
    rw [he, setupLogin_login] at hserve
    obtain rfl := Option.some.inj hserve
    obtain ⟨-, hname, -, haccount, -⟩ := (serve_validateAndFill env r.username r.password v _).mp hval
    exact ⟨hname, haccount⟩

/-- A login whose name picks the stored row signs it in. -/
theorem login_of_account (h : Stored sc c row)
    (hbcrypt : ∀ password hash, sc.ctx.password2Hash password = .ok hash →
      sc.env.bcryptCompare hash password = true)
    (hon : sc.env.cfg.passwordLoginEnabled = true)
    (hno : ∀ t ∈ (create sc c).2.twoFAs, t.userId ≠ row.id)
    (hname : trimSpace c.login.username ≠ "")
    (haccount : account (create sc c).2 c.login.username = some row) (s : Sess) :
    (Controller.login sc.env s (some c.login)).run exec (create sc c).2
      = (setupLogin sc.env s row, (create sc c).2) := by
  have hval : Validates sc.env (Store.ofDB (create sc c).2) c.login row :=
    (serve_validateAndFill sc.env c.login.username c.login.password row _).mpr
      ⟨rfl, hname, h.nonempty, haccount, hbcrypt _ _ h.password, h.status⟩
  have hsubmitted : c.login.username ≠ "" := by
    intro he
    rw [he] at hname
    exact hname rfl
  have hid : row.id ≠ 0 := ne_of_gt (Table.key_pos h.mem)
  have hoff : (serve (isTwoFAEnabled row.id) (Store.ofDB (create sc c).2).rest).1 = false := by
    rw [Bool.eq_false_iff]
    intro htrue
    obtain ⟨t, ht, -, huser, -⟩ := (serve_isTwoFAEnabled_up hid rfl).mp htrue
    exact hno t ht huser
  have hserve := serve_login_of_validates (s := s) hon hsubmitted hval hoff
  rw [serve_ofDB] at hserve
  exact Prod.ext hserve ((login_readOnly sc.env s (some c.login)).sat _).run

/-- **A login right after a creation signs in the new account, exactly when the
trimmed name addresses it.** -/
theorem logs_in_iff (sc : Scene) (c : Creation) (hdone : Succeeds sc c)
    (hbcrypt : ∀ password hash, sc.ctx.password2Hash password = .ok hash →
      sc.env.bcryptCompare hash password = true)
    (hon : sc.env.cfg.passwordLoginEnabled = true)
    (hno : ∀ u, Created sc c u → ∀ t ∈ (create sc c).2.twoFAs, t.userId ≠ u.id) :
    LogsIn sc c ↔ Addressed sc c := by
  obtain ⟨row, hrow⟩ := stored_of_succeeds hdone
  constructor
  · rintro ⟨u, hu, hlogin⟩
    obtain rfl : u = row := hu.eq_row hrow
    have hout : ((Controller.login sc.env (Sess.ofCookie {}) (some c.login)).run exec
        (create sc c).2).1.login = some u := by
      rw [hlogin, setupLogin_login]
    obtain ⟨hname, haccount⟩ := account_of_login hout
    exact (account_iff hrow hname).mp haccount
  · intro haddressed
    have haccount := (account_iff hrow haddressed.1).mpr haddressed
    exact ⟨row, hrow.created, login_of_account hrow hbcrypt hon (hno row hrow.created) haddressed.1
      haccount⟩

/-! ### Two registrations -/

def emptyScene : Scene where
  env := Env.plain
  ctx := Ctx.plain 0
  session := {}
  codeAccepted := false
  process := ⟨Settings.default, ⟨∅, fun _ => none⟩⟩
  db := ⟨Table.empty, Table.empty, Table.empty, Table.empty⟩

def registration (username : String) : Creation :=
  .register { username := username, password := "12345678" }

/-- Bob registers, and logs in. -/
theorem bob_logs_in : LogsIn emptyScene (registration "bob") := by
  refine (logs_in_iff emptyScene (registration "bob") ?_ ?_ rfl ?_).mpr ?_
  · exact ⟨⟨200, "", none, by rfl⟩, fun req h => nomatch h⟩
  · intro password hash h
    obtain rfl := Except.ok.inj h
    exact beq_self_eq_true _
  · intro u _ t ht
    exact nomatch ht
  · exact ⟨by decide, Or.inl (by decide), fun x hx => nomatch hx⟩

/-- **Bob registers with a blank before the name, and cannot log in.** -/
theorem blank_cannot_log_in :
    Succeeds emptyScene (registration " bob") ∧ ¬ LogsIn emptyScene (registration " bob") := by
  have hdone : Succeeds emptyScene (registration " bob") :=
    ⟨⟨200, "", none, by rfl⟩, fun req h => nomatch h⟩
  refine ⟨hdone, ?_⟩
  rintro ⟨u, -, hlogin⟩
  have hnone : ((Controller.login emptyScene.env (Sess.ofCookie {})
      (some (registration " bob").login)).run exec
      (create emptyScene (registration " bob")).2).1.login = none := by
    decide
  rw [hlogin, setupLogin_login] at hnone
  cases hnone

end AuthGateway.AfterCreation
