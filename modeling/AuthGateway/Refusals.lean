import AuthGateway.Accounts

/-!
# What a request is checked for

Registration, the logins at the providers and the bindings have their switches,
callbacks a state, Telegram a signature and Linux DO a least level of trust
(`LetsThrough`); the bodies that name an account or give it a password are
checked before they are stored (`Accepted`).

**A request that is not let through leaves the accounts alone** (`step_kept`),
**and so does one whose body is refused** (`step_refused`).
-/

namespace AuthGateway.Refusals

open Common Model Controller Middleware Accounts GoString

/-! ### The doors -/

/-- **What must hold for a request to write an account.** -/
def LetsThrough (sys : System) (a : Act) : Prop :=
  match a.request with
  | .postSetup _ => sys.setup = false
  | .register _ => a.env.cfg.registerEnabled = true ∧ a.env.cfg.passwordRegisterEnabled = true
  | .login (.gitHubOAuth req _) =>
    a.env.cfg.gitHubOAuthEnabled = true ∧ sameState (Sess.ofCookie a.cookie) req.state = true
  | .login (.discordOAuth req _) =>
    a.env.cfg.discordEnabled = true ∧ sameState (Sess.ofCookie a.cookie) req.state = true
  | .login (.oidcAuth req _) =>
    a.env.cfg.oidcEnabled = true ∧ sameState (Sess.ofCookie a.cookie) req.state = true
  | .login (.linuxdoOAuth _ req answer) =>
    (a.env.cfg.linuxDOOAuthEnabled = true ∧ sameState (Sess.ofCookie a.cookie) req.state = true) ∧
      (a.cookie.username = none → ∀ u, getLinuxdoUserInfoByCode req.code answer = .ok u →
        a.env.cfg.linuxDOMinimumTrustLevel ≤ u.trustLevel)
  | .login (.weChatAuth _ _) | .weChatBind _ _ => a.env.cfg.weChatAuthEnabled = true
  | .telegramBind params =>
    a.env.cfg.telegramOAuthEnabled = true ∧ checkTelegramAuthorization a.env params = true
  | _ => True

/-! ### Closed doors -/

variable {env : Env} {ctx : Ctx} {s : Sess} {codes : VerificationMap} {db : DB}
  {W : Change → Prop}

/-- The beginning of the callbacks: nothing is written where the state is wrong or
the provider is off. -/
theorem kept_callback {state signedIn on : Bool} {wrong off : Out} {bind login : M Out}
    (h : ¬ (on = true ∧ state = true)) :
    Makes W (if !state then Pure.pure wrong
      else if signedIn then (if !on then Pure.pure off else bind)
      else if !on then Pure.pure off else login) db := by
  cases state with
  | false => exact Makes.pure
  | true =>
    obtain rfl : on = false := by simpa using h
    cases signedIn <;> exact Makes.pure

theorem kept_gitHubOAuth {req : OAuthRequest} {answer : Except Err GitHubUser}
    (h : ¬ (env.cfg.gitHubOAuthEnabled = true ∧ sameState s req.state = true)) :
    Makes W (gitHubOAuth env ctx s req answer) db := by
  unfold gitHubOAuth gitHubBind
  exact kept_callback h

theorem kept_discordOAuth {req : OAuthRequest} {answer : Except Err DiscordUser}
    (h : ¬ (env.cfg.discordEnabled = true ∧ sameState s req.state = true)) :
    Makes W (discordOAuth env ctx s req answer) db := by
  unfold discordOAuth discordBind
  exact kept_callback h

theorem kept_oidcAuth {req : OAuthRequest} {answer : Except Err OidcUser}
    (h : ¬ (env.cfg.oidcEnabled = true ∧ sameState s req.state = true)) :
    Makes W (oidcAuth env ctx s req answer) db := by
  unfold oidcAuth oidcBind
  exact kept_callback h

/-- Whoever is not trusted enough may log in, and is not registered. -/
theorem kept_linuxdoOAuth {refusal : Option String} {req : OAuthRequest}
    {answer : Except Err LinuxdoUser}
    (h : ¬ ((env.cfg.linuxDOOAuthEnabled = true ∧ sameState s req.state = true) ∧
      (s.cur.username = none → ∀ u, getLinuxdoUserInfoByCode req.code answer = .ok u →
        env.cfg.linuxDOMinimumTrustLevel ≤ u.trustLevel))) :
    Makes W (linuxdoOAuth env ctx s refusal req answer) db := by
  unfold linuxdoOAuth linuxDoBind
  cases refusal with
  | some errorDescription => exact Makes.pure
  | none =>
    dsimp only
    by_cases hdoor : env.cfg.linuxDOOAuthEnabled = true ∧ sameState s req.state = true
    · obtain ⟨hnobody, linuxdoUser, hinfo, htrust⟩ : s.cur.username = none ∧
          ∃ u, getLinuxdoUserInfoByCode req.code answer = .ok u ∧
            u.trustLevel < env.cfg.linuxDOMinimumTrustLevel := by
        simpa [hdoor] using h
      rw [hdoor.2, hdoor.1, hnobody, hinfo]
      have hregister : Makes W (do
          if linuxdoUser.trustLevel < env.cfg.linuxDOMinimumTrustLevel then
            return (some (.new "Linux DO 信任等级未达到管理员设置的最低信任等级"),
              ({ linuxDOId := toString linuxdoUser.id } : User))
          let maxId ← getMaxUserId
          let inviterId ← sessionInviter s
          User.insert env ctx
            { linuxDOId := toString linuxdoUser.id
              username := "linuxdo_" ++ toString (maxId + 1)
              displayName := linuxdoUser.name
              role := roleCommonUser
              status := userStatusEnabled } inviterId) db := by
        rw [if_pos htrust]
        exact Makes.pure
      exact makes_oauthLogin (isLinuxDOIdAlreadyTaken_ends _ db) (fillUserByLinuxDOId_readOnly _)
        fun _ _ => hregister
    · exact kept_callback hdoor

theorem kept_register {user : Option User} {codeAccepted : Bool}
    (h : ¬ (env.cfg.registerEnabled = true ∧ env.cfg.passwordRegisterEnabled = true)) :
    Makes W (register env ctx s user codeAccepted) db := by
  unfold register
  split
  · exact Makes.pure
  · rename_i hon
    rw [Bool.not_eq_true', Bool.not_eq_false] at hon
    have hpassword : (!env.cfg.passwordRegisterEnabled) = true := by
      simpa [hon] using h
    rw [if_pos hpassword]
    exact Makes.pure

theorem kept_weChat {code : String} {answer : Except Err String}
    (h : ¬ env.cfg.weChatAuthEnabled = true) :
    Makes W (weChatAuth env ctx s code answer) db ∧
      Makes W (weChatBind env ctx s code answer) db := by
  have hoff : (!env.cfg.weChatAuthEnabled) = true := by simpa using h
  unfold weChatAuth weChatBind
  rw [if_pos hoff, if_pos hoff]
  exact ⟨Makes.pure, Makes.pure⟩

theorem kept_telegramBind {params : Params}
    (h : ¬ (env.cfg.telegramOAuthEnabled = true ∧ checkTelegramAuthorization env params = true)) :
    Makes W (telegramBind env ctx s params) db := by
  unfold telegramBind
  split
  · exact Makes.pure
  · rename_i hon
    rw [Bool.not_eq_true', Bool.not_eq_false] at hon
    have hforged : (!checkTelegramAuthorization env params) = true := by
      simpa [hon] using h
    rw [if_pos hforged]
    exact Makes.pure

/-- **A handler whose door is closed writes no account.** -/
theorem route_kept {sys : System} {a : Act} (h : ¬ LetsThrough sys a) (W : Change → Prop)
    (codes : VerificationMap) (ctx : Ctx) :
    Makes W (route a.env codes (Sess.ofCookie a.cookie) ctx a.request) sys.db := by
  unfold LetsThrough at h
  generalize a.request = q at h ⊢
  cases q with
  | register req => exact kept_register h
  | login path =>
    cases path with
    | gitHubOAuth req answer => exact kept_gitHubOAuth h
    | discordOAuth req answer => exact kept_discordOAuth h
    | oidcAuth req answer => exact kept_oidcAuth h
    | linuxdoOAuth refusal req answer => exact kept_linuxdoOAuth h
    | weChatAuth code answer => exact (kept_weChat h).1
    | _ => exact absurd trivial h
  | weChatBind code answer => exact (kept_weChat h).2
  | telegramBind params => exact kept_telegramBind h
  | postSetup req => exact Makes.pure
  | _ => exact absurd trivial h

/-- **A request that is not let through leaves the accounts alone.** -/
theorem step_kept {sys : System} {a : Act} (h : ¬ LetsThrough sys a) :
    cores (step sys a).db = cores sys.db := by
  have hroute : minRole a.request = none → cores ((guarded a sys.codes).run exec sys.db).2
      = cores sys.db := by
    intro hrole
    unfold guarded
    rw [hrole]
    obtain ⟨c, rfl | hfalse, hcores⟩ := route_kept h (fun _ => False) sys.codes a.ctx
    · exact hcores
    · exact hfalse.elim
  have hhandle : minRole a.request = none → (handle a sys.codes).run exec sys.db
      = (do return (← guarded a sys.codes, sys.codes) : M (Out × VerificationMap)).run exec sys.db →
      cores ((handle a sys.codes).run exec sys.db).2 = cores sys.db := by
    intro hrole hrun
    rw [hrun, Prog.run_bind]
    exact hroute hrole
  unfold step
  unfold LetsThrough at h
  cases hq : a.request with
  | postSetup req =>
    rw [hq] at h
    have hdone : sys.setup = true := by simpa using h
    dsimp only
    rw [hdone]
    rfl
  | register req => exact hhandle (by rw [hq]; rfl) (by unfold handle; rw [hq])
  | login path => exact hhandle (by rw [hq]; rfl) (by unfold handle; rw [hq])
  | weChatBind code answer => exact hhandle (by rw [hq]; rfl) (by unfold handle; rw [hq])
  | telegramBind params => exact hhandle (by rw [hq]; rfl) (by unfold handle; rw [hq])
  | _ =>
    rw [hq] at h
    exact absurd trivial h

/-! ### The checks of the body -/

/-- The struct that the validator is given where no password is one. -/
def checked (user : User) : User :=
  if user.password = "" then { user with password := iLoveU } else user

/-- bcrypt takes the password: it refuses those that are too long for it. -/
def Hashes (ctx : Ctx) (password : String) : Prop := ∃ hash, ctx.password2Hash password = .ok hash

/-- The same of a password that may be left out. -/
def HashesNew (ctx : Ctx) (password : String) : Prop :=
  password ≠ "" → password ≠ iLoveU → Hashes ctx password

/-- **The checks that the body of a request passes** before an account is written:
the sizes, the rank of a role that is given, the old password, and bcrypt's. -/
def Accepted (env : Env) (ctx : Ctx) (db : DB) : Request → Prop
  | .postSetup (some req) => SetupChecked req ∧ Hashes ctx req.password
  | .register (some user) => validateStruct user = none ∧
      (env.cfg.emailVerificationEnabled = true → user.email ≠ "" ∧ user.verificationCode ≠ "") ∧
      Hashes ctx user.password
  | .createUser (some user) => trimSpace user.username ≠ "" ∧ user.password ≠ "" ∧
      validateStruct { user with username := trimSpace user.username } = none ∧
      Hashes ctx user.password
  | .updateUser (some user) => validateStruct (checked user) = none ∧
      outranked ctx.role user.role = false ∧ HashesNew ctx user.password
  | .updateSelf (some (.account user)) => validateStruct (checked user) = none ∧
      (∃ row ∈ db.users, row.live = true ∧ row.id = ctx.id ∧
        env.bcryptCompare row.password user.originalPassword = true) ∧
      HashesNew ctx user.password
  | _ => True

theorem hashPassword_error {password : String} (h : ¬ Hashes ctx password) {user : User}
    (huser : user.password = password) : ∃ e, user.hashPassword ctx true = .error e := by
  unfold User.hashPassword
  rw [if_pos rfl, huser]
  cases hhash : ctx.password2Hash password with
  | error e => exact ⟨e, rfl⟩
  | ok hash => exact absurd ⟨hash, hhash⟩ h

theorem insert_refused {user : User} {inviterId : Int} (hset : user.password ≠ "")
    (h : ¬ Hashes ctx user.password) : Makes W (user.insert env ctx inviterId) db := by
  obtain ⟨e, he⟩ := hashPassword_error h rfl
  unfold User.insert
  rw [show (user.password != "") = true from bne_iff_ne.mpr hset, he]
  exact Makes.pure

theorem password_of_validateStruct {user : User} (h : validateStruct user = none) :
    user.password ≠ "" := by
  intro hnone
  unfold validateStruct at h
  rw [hnone] at h
  simp at h

theorem refused_register {user : User} {codeAccepted : Bool}
    (h : ¬ Accepted env ctx db (.register (some user))) :
    Makes W (register env ctx s (some user) codeAccepted) db := by
  unfold register
  split
  · exact Makes.pure
  split
  · exact Makes.pure
  dsimp only
  split
  · exact Makes.pure
  rename_i hvalid
  split
  · exact Makes.pure
  rename_i hblank
  split
  · exact Makes.pure
  have hgiven : env.cfg.emailVerificationEnabled = true →
      user.email ≠ "" ∧ user.verificationCode ≠ "" := by
    intro hon
    simpa [hon, not_or] using hblank
  have hhash : ¬ Hashes ctx user.password := fun hhash => h ⟨hvalid, hgiven, hhash⟩
  have hset : user.password ≠ "" := password_of_validateStruct hvalid
  refine Makes.readOnly (checkUserExistOrDeleted_readOnly _ _) fun r => ?_
  cases r with
  | error e => exact Makes.pure
  | ok exist =>
    cases exist with
    | true => exact Makes.pure
    | false =>
      refine Makes.readOnly (getUserIdByAffCode_readOnly user.affCode) fun inviterId => ?_
      refine Makes.answer (insert_refused hset hhash) fun r => ?_
      obtain ⟨err, u⟩ := r
      cases err <;> exact ⟨_, rfl⟩

theorem refused_createUser {user : User} (h : ¬ Accepted env ctx db (.createUser (some user))) :
    Makes W (createUser env ctx s (some user)) db := by
  unfold createUser
  dsimp only
  split
  · exact Makes.pure
  rename_i hgiven
  rw [not_or] at hgiven
  split
  · exact Makes.pure
  rename_i hvalid
  split
  · exact Makes.pure
  have hhash : ¬ Hashes ctx user.password := fun hhash => h ⟨hgiven.1, hgiven.2, hvalid, hhash⟩
  refine Makes.answer (insert_refused hgiven.2 hhash) fun r => ?_
  obtain ⟨err, u⟩ := r
  cases err <;> exact ⟨_, rfl⟩

theorem given_of_refused {password : String} (h : ¬ HashesNew ctx password) :
    password ≠ "" ∧ password ≠ iLoveU ∧ ¬ Hashes ctx password := by
  unfold HashesNew at h
  rw [Classical.not_imp, Classical.not_imp] at h
  exact h

theorem refused_updateUser {user : User} (h : ¬ Accepted env ctx db (.updateUser (some user))) :
    Makes W (updateUser ctx s (some user)) db := by
  unfold updateUser
  dsimp only
  split
  · exact Makes.pure
  rw [show (if user.password = "" then { user with password := iLoveU } else user)
    = checked user from rfl]
  split
  · exact Makes.pure
  rename_i hvalid
  refine Makes.readOnly (getUserById_only (fun _ _ => rfl) _ _) fun r => ?_
  cases r with
  | error e => exact Makes.pure
  | ok originUser =>
    have hrole : (checked user).role = user.role := by
      unfold checked
      split <;> rfl
    dsimp only
    rw [hrole]
    split
    · exact Makes.pure
    split
    · exact Makes.pure
    rename_i hrank
    rw [Bool.not_eq_true] at hrank
    obtain ⟨hset, hother, hhash⟩ := given_of_refused fun hhash => h ⟨hvalid, hrank, hhash⟩
    have hchecked : checked user = user := if_neg hset
    rw [hchecked, if_neg hother, show (user.password != "") = true from bne_iff_ne.mpr hset]
    have hedit : Makes W (user.edit ctx true) db := by
      obtain ⟨e, he⟩ := hashPassword_error hhash rfl
      unfold User.edit
      rw [he]
      exact Makes.pure
    refine Makes.answer hedit fun r => ?_
    obtain ⟨err, u⟩ := r
    cases err <;> exact ⟨_, rfl⟩

theorem refused_accountUpdate {user : User}
    (h : ¬ Accepted env ctx db (.updateSelf (some (.account user)))) :
    Makes W (accountUpdate env ctx s user) db := by
  unfold accountUpdate
  dsimp only
  rw [show (if user.password = "" then { user with password := iLoveU } else user)
    = checked user from rfl]
  split
  · exact Makes.pure
  rename_i hvalid
  refine Makes.read (checkUpdatePassword_ends env _ _ _ db) fun r hr => ?_
  cases r with
  | error e => exact Makes.pure
  | ok updatePassword =>
    obtain ⟨rfl, row, hrow, hlive, hid, horiginal⟩ := hr updatePassword rfl
    have hsame : (checked user).originalPassword = user.originalPassword := by
      unfold checked
      split <;> rfl
    rw [hsame] at horiginal
    obtain ⟨hset, hother, hhash⟩ := given_of_refused fun hhash =>
      h ⟨hvalid, ⟨row, hrow, hlive, hid, horiginal⟩, hhash⟩
    have hchecked : checked user = user := if_neg hset
    dsimp only
    rw [hchecked, if_neg hother, show (user.password != "") = true from bne_iff_ne.mpr hset]
    let cleanUser : User := { id := ctx.id
                              username := user.username
                              password := user.password
                              displayName := user.displayName }
    obtain ⟨e, he⟩ : ∃ e, cleanUser.hashPassword ctx true = .error e := hashPassword_error hhash rfl
    unfold User.update
    rw [he]
    exact Makes.pure

/-- **A handler whose checks refuse the body writes no account.** -/
theorem route_refused {q : Request} (h : ¬ Accepted env ctx db q) (W : Change → Prop) :
    Makes W (route env codes s ctx q) db := by
  cases q with
  | register req =>
    cases req with
    | none => exact absurd trivial h
    | some user =>
      show Makes W (register env ctx s (some user) _) db
      exact refused_register h
  | createUser req =>
    cases req with
    | none => exact absurd trivial h
    | some user =>
      show Makes W (createUser env ctx s (some user)) db
      exact refused_createUser h
  | updateUser req =>
    cases req with
    | none => exact absurd trivial h
    | some user =>
      show Makes W (updateUser ctx s (some user)) db
      exact refused_updateUser h
  | updateSelf req =>
    cases req with
    | none => exact absurd trivial h
    | some req =>
      cases req with
      | sidebar modules => exact absurd trivial h
      | account user =>
        show Makes W (accountUpdate env ctx s user) db
        exact refused_accountUpdate h
  | postSetup => exact Makes.pure
  | _ => exact absurd trivial h

/-- What the handler is given is what `Granted` says. -/
theorem guarded_granted {a : Act} (hctx : Granted a db ctx) (codes : VerificationMap) :
    (guarded a codes).run exec db
      = (route a.env codes (Sess.ofCookie a.cookie) ctx a.request).run exec db := by
  unfold Granted at hctx
  unfold guarded
  cases hrole : minRole a.request with
  | none =>
    rw [hrole] at hctx
    obtain rfl : ctx = a.ctx := hctx
    rfl
  | some role =>
    rw [hrole] at hctx
    obtain ⟨auth, hauth, rfl⟩ := hctx
    have hrun : (authHelper role (Sess.ofCookie a.cookie).cur a.authorization).run exec db
      = (.ok auth, db) := hauth
    dsimp only
    unfold behind
    rw [Prog.run_bind, hrun]

/-- **A request that its handler refuses leaves the accounts alone.** -/
theorem step_refused {sys : System} {a : Act} (hctx : Granted a sys.db ctx)
    (h : ¬ Accepted a.env ctx sys.db a.request) : cores (step sys a).db = cores sys.db := by
  have hguarded : cores ((guarded a sys.codes).run exec sys.db).2 = cores sys.db := by
    rw [guarded_granted hctx]
    have hkeeps : Makes (fun _ => False)
        (route a.env sys.codes (Sess.ofCookie a.cookie) ctx a.request) sys.db :=
      route_refused h _
    obtain ⟨c, rfl | hfalse, hcores⟩ := hkeeps
    · exact hcores
    · exact hfalse.elim
  have hhandle : (handle a sys.codes).run exec sys.db
      = (do return (← guarded a sys.codes, sys.codes) : M (Out × VerificationMap)).run exec sys.db →
      cores ((handle a sys.codes).run exec sys.db).2 = cores sys.db := by
    intro hrun
    rw [hrun, Prog.run_bind]
    exact hguarded
  unfold step
  unfold Granted at hctx
  cases hq : a.request with
  | postSetup req =>
    rw [hq] at h hctx
    obtain rfl : ctx = a.ctx := hctx
    obtain ⟨-, ⟨hsame, -⟩ | ⟨-, -, q, row, rfl, ⟨hchecked, password, hhash, -⟩, -⟩⟩ :=
      postSetup_accounts a.ctx req sys.process sys.setup sys.db
    · exact congrArg cores hsame
    · exact absurd ⟨hchecked, password, hhash⟩ h
  | sendEmailVerification =>
    rw [hq] at h
    exact absurd trivial h
  | sendPasswordResetEmail =>
    rw [hq] at h
    exact absurd trivial h
  | resetPassword =>
    rw [hq] at h
    exact absurd trivial h
  | _ =>
    refine hhandle ?_
    unfold handle
    rw [hq]

/-! ### What a step that writes has passed -/

/-- **The request passes its own checks**, where its handler is given `ctx`. -/
structure Passes (sys : System) (a : Act) (ctx : Ctx) : Prop where
  granted : Granted a sys.db ctx
  through : LetsThrough sys a
  accepted : Accepted a.env ctx sys.db a.request

/-- What a step may make of the accounts, once the request has passed its checks. -/
inductive Written (sys : System) (a : Act) : Change → Prop
  | handled {ctx : Ctx} {c : Change} (hpasses : Passes sys a ctx)
      (hpermits : Permits a.env ctx a.cookie sys.codes sys.db a.request c) : Written sys a c
  | rootCreated {req : SetupRequest} {row : User} (hpasses : Passes sys a a.ctx)
      (hreq : a.request = .postSetup (some req)) (hsetup : sys.setup = false)
      (hroot : ¬ HasRoot sys.db) (hnew : CreatesRoot a.ctx req sys.db row) :
      Written sys a (.create row)

variable {sys : System} {a : Act}

theorem step_keeps {ctx : Ctx} (hctx : Granted a sys.db ctx) (h : ¬ Passes sys a ctx) :
    cores (step sys a).db = cores sys.db := by
  by_cases hthrough : LetsThrough sys a
  · exact step_refused hctx fun haccepted => h ⟨hctx, hthrough, haccepted⟩
  · exact step_kept hthrough

/-- **What a step makes of the accounts, the request has passed its checks for.** -/
theorem step_written (sys : System) (a : Act) :
    ∃ c, (c = .keep ∨ Written sys a c) ∧ cores (step sys a).db = c.cores sys.db := by
  obtain ⟨c, hc, hcores⟩ := step_changes sys a
  have hkeep : cores (step sys a).db = cores sys.db →
      ∃ c, (c = .keep ∨ Written sys a c) ∧ cores (step sys a).db = c.cores sys.db :=
    fun hsame => ⟨.keep, Or.inl rfl, hsame⟩
  rcases hc with rfl | ⟨ctx, hctx, hpermits⟩ | ⟨hreq, hsetup, hroot, hnew⟩
  · exact hkeep hcores
  · by_cases hpasses : Passes sys a ctx
    · exact ⟨c, Or.inr (.handled hpasses hpermits), hcores⟩
    · exact hkeep (step_keeps hctx hpasses)
  · have hctx : Granted a sys.db a.ctx := by
      unfold Granted
      rw [hreq]
      rfl
    by_cases hpasses : Passes sys a a.ctx
    · exact ⟨_, Or.inr (.rootCreated hpasses hreq hsetup hroot hnew), hcores⟩
    · exact hkeep (step_keeps hctx hpasses)

theorem passes_of_new {ctx : Ctx} (hctx : Granted a sys.db ctx) {row' : User}
    (hrow' : row' ∈ (step sys a).db.users) (hfresh : ∀ x ∈ sys.db.users, x.id ≠ row'.id) :
    Passes sys a ctx := by
  by_contra h
  obtain ⟨x, hx, he⟩ : row'.core ∈ cores sys.db := step_keeps hctx h ▸ mem_cores hrow'
  exact hfresh x hx (User.core_id he).symm

theorem letsThrough_of_new {row' : User} (hrow' : row' ∈ (step sys a).db.users)
    (hfresh : ∀ x ∈ sys.db.users, x.id ≠ row'.id) : LetsThrough sys a := by
  by_contra h
  obtain ⟨x, hx, he⟩ : row'.core ∈ cores sys.db := step_kept h ▸ mem_cores hrow'
  exact hfresh x hx (User.core_id he).symm

theorem letsThrough_of_changed {α : Type} {f : User → α} (hf : ∀ u : User, f u.core = f u)
    {row row' : User} (hrow : row ∈ sys.db.users) (hrow' : row' ∈ (step sys a).db.users)
    (hid : row'.id = row.id) (hne : f row' ≠ f row) : LetsThrough sys a := by
  by_contra h
  obtain ⟨x, hx, he⟩ : row'.core ∈ cores sys.db := step_kept h ▸ mem_cores hrow'
  obtain rfl : x = row := Table.eq_of_key hx hrow ((User.core_id he).symm.trans hid)
  exact hne (User.core_congr hf he)

end AuthGateway.Refusals
