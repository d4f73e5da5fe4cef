import AuthGateway.Model.Account
import AuthGateway.Model.Identity
import AuthGateway.Controller.Misc
import AuthGateway.Controller.Setup
import AuthGateway.AdminRank
import AuthGateway.LoginGate
import AuthGateway.Middleware.Auth

/-!
# The requests that write accounts

Every route whose handler writes `users`, with its authentication, one request
after the other on a database in order.  `Permits` says of each request what it
may make of the accounts, and under which checks; a request of a kind that is
not named there leaves them alone (`rest`).

**A request makes one permitted change or none** (`handle_changes`): what is to
be shown of all requests is shown of the changes.
-/

namespace AuthGateway.Accounts

open Common Model Controller Middleware GoString LoginGate

/-! ### The requests -/

inductive Request
  | postSetup (req : Option SetupRequest)
  | register (req : Option User)
  | createUser (req : Option User)
  | updateUser (req : Option User)
  | manageUser (req : Option ManageRequest)
  | deleteUser (idParam : String)
  | updateSelf (req : Option UpdateSelfRequest)
  | deleteSelf
  | generateAccessToken
  | getAffCode
  | updateUserSetting (req : Option UpdateUserSettingRequest)
  | emailBind (email code : String)
  | weChatBind (code : String) (answer : Except Err String)
  | telegramBind (params : Params)
  | login (path : LoginPath)
  | sendEmailVerification (email : String)
  | sendPasswordResetEmail (email : String)
  | resetPassword (req : Option PasswordResetRequest)
  /-- Any handler that writes no account. -/
  | rest (handler : Ctx → Sess → M Out) (h : ∀ ctx s, SparesUsers (handler ctx s))

/-- A request with what it brings along, and the configuration it meets. -/
structure Act where
  request : Request
  cookie : Session := {}
  authorization : String := ""
  env : Env
  ctx : Ctx

/-- The process with its database; `setup` is `constant.Setup`. -/
structure System where
  process : Process
  setup : Bool
  db : DB
  codes : VerificationMap

/-- A process that has just started. -/
def System.start (setup : Bool) (db : DB) : System :=
  ⟨⟨Settings.default, ⟨∅, fun _ => none⟩⟩, setup, db, {}⟩

/-- Whether the code in the body of a registration is the one that was sent. -/
def codeAccepted (codes : VerificationMap) (now : Int) (user : User) : Bool :=
  codes.verify now user.email user.verificationCode emailVerificationPurpose

/-- The handlers that leave the codes alone. -/
def route (env : Env) (codes : VerificationMap) (s : Sess) (ctx : Ctx) : Request → M Out
  | .register req => register env ctx s req (req.any fun user => codeAccepted codes ctx.now user)
  | .createUser req => createUser env ctx s req
  | .updateUser req => updateUser ctx s req
  | .manageUser req => manageUser ctx s req
  | .deleteUser idParam => deleteUser ctx s idParam
  | .updateSelf req => updateSelf env ctx s req
  | .deleteSelf => deleteSelf ctx s
  | .generateAccessToken => generateAccessToken ctx s
  | .getAffCode => getAffCode ctx s
  | .updateUserSetting req => updateUserSetting env ctx s req
  | .emailBind email code =>
    emailBind ctx s email (codes.verify ctx.now email code emailVerificationPurpose)
  | .weChatBind code answer => weChatBind env ctx s code answer
  | .telegramBind params => telegramBind env ctx s params
  | .login path => LoginGate.handle env ctx s path
  | .rest handler _ => handler ctx s
  | _ => return s.answer .none

/-- The least role that a route asks for, if it is behind `authHelper`. -/
def minRole : Request → Option Int
  | .createUser _ | .updateUser _ | .manageUser _ | .deleteUser _ => some roleAdminUser
  | .updateSelf _ | .deleteSelf | .generateAccessToken | .getAffCode | .updateUserSetting _ =>
    some roleCommonUser
  | _ => none

/-- The handler behind the authentication of its route. -/
def guarded (a : Act) (codes : VerificationMap) : M Out :=
  match minRole a.request with
  | none => route a.env codes (Sess.ofCookie a.cookie) a.ctx a.request
  | some role => behind (authHelper role) (Sess.ofCookie a.cookie) a.authorization a.ctx fun ctx =>
      route a.env codes (Sess.ofCookie a.cookie) ctx a.request

/-- What is answered, with the codes that are out afterwards. -/
def handle (a : Act) (codes : VerificationMap) : M (Out × VerificationMap) :=
  match a.request with
  | .sendEmailVerification email =>
    sendEmailVerification a.env a.ctx (Sess.ofCookie a.cookie) codes email
  | .sendPasswordResetEmail email =>
    sendPasswordResetEmail a.env a.ctx (Sess.ofCookie a.cookie) codes email
  | .resetPassword req => resetPassword a.ctx (Sess.ofCookie a.cookie) codes req
  | _ => do return (← guarded a codes, codes)

def step (sys : System) (a : Act) : System :=
  match a.request with
  | .postSetup req =>
    let g := (postSetup a.ctx req ⟨sys.process, sys.setup, Store.ofDB sys.db⟩).2
    { sys with process := g.process, setup := g.setup, db := g.accounts.db }
  | _ =>
    let result := (handle a sys.codes).run exec sys.db
    { sys with db := result.2, codes := result.1.2 }

/-! ### What a request may make of the accounts -/

/-- What the row of a registered account is. -/
def New (env : Env) (ctx : Ctx) (db : DB) (cleanUser row : User) : Prop :=
  ∃ newUser, cleanUser.hashPassword ctx (cleanUser.password != "") = .ok newUser ∧
    IsNew db (newUser.toInsert env ctx) row

theorem New.names {env : Env} {ctx : Ctx} {db : DB} {cleanUser row : User}
    (h : New env ctx db cleanUser row) :
    row.username = cleanUser.username ∧ row.email = cleanUser.email := by
  obtain ⟨newUser, hhash, hnew⟩ := h
  obtain ⟨password, rfl, -⟩ := hashPassword_fields hhash
  obtain ⟨text, htext⟩ := toInsert_eq env ctx { cleanUser with password := password }
  rw [hnew.names.1, hnew.names.2, htext]
  exact ⟨rfl, rfl⟩

theorem New.role {env : Env} {ctx : Ctx} {db : DB} {cleanUser row : User}
    (h : New env ctx db cleanUser row) :
    row.role = if cleanUser.role = 0 then 1 else cleanUser.role := by
  obtain ⟨newUser, hhash, hnew⟩ := h
  obtain ⟨password, rfl, -⟩ := hashPassword_fields hhash
  obtain ⟨text, htext⟩ := toInsert_eq env ctx { cleanUser with password := password }
  obtain ⟨k, hrow⟩ := hnew.columns
  rw [hrow, htext]
  rfl

theorem New.fresh {env : Env} {ctx : Ctx} {db : DB} {cleanUser row : User}
    (h : New env ctx db cleanUser row) : ∀ x ∈ db.users, x.id ≠ row.id := by
  obtain ⟨_, -, hnew⟩ := h
  exact hnew.fresh

/-- Whose account is new is enabled, and has the password that was given. -/
theorem New.account {env : Env} {ctx : Ctx} {db : DB} {cleanUser row : User}
    (h : New env ctx db cleanUser row) (hid : cleanUser.id = 0)
    (hdeleted : cleanUser.deletedAt = none) (hstatus : cleanUser.status = 0)
    (hpassword : cleanUser.password ≠ "") :
    (∀ x ∈ db.users, x.id < row.id) ∧ row.live = true ∧ row.status = userStatusEnabled ∧
      ctx.password2Hash cleanUser.password = .ok row.password := by
  obtain ⟨newUser, hhash, hnew⟩ := h
  have hhashed : ctx.password2Hash cleanUser.password = .ok newUser.password := by
    unfold User.hashPassword at hhash
    rw [if_pos (bne_iff_ne.mpr hpassword)] at hhash
    split at hhash
    · rename_i hash hok
      rw [← Except.ok.inj hhash]
      exact hok
    · cases hhash
  obtain ⟨password, rfl, -⟩ := hashPassword_fields hhash
  obtain ⟨text, htext⟩ := toInsert_eq env ctx { cleanUser with password := password }
  rw [htext] at hnew
  refine ⟨hnew.later hid, ?_⟩
  obtain ⟨k, rfl⟩ := hnew.columns
  refine ⟨?_, ?_, hhashed⟩
  · show cleanUser.deletedAt.isNone = true
    rw [hdeleted]
    rfl
  · show (if cleanUser.status = 0 then (1 : Int) else cleanUser.status) = 1
    rw [if_pos hstatus]

/-- `GetMaxUserId`, when the read is answered. -/
def maxId (db : DB) : Int := (db.users.rows.getLast?.map User.id).getD 0

/-- No row has this identity, not even a deleted one. -/
def Unclaimed (db : DB) (p : Provider) (externalId : String) : Prop :=
  ∀ row ∈ db.users, p.column row ≠ externalId

/-- What a first login at a provider has passed before it registers an account. -/
def FirstLogin (env : Env) (s : Session) (state : String) : Prop :=
  sameState (Sess.ofCookie s) state = true ∧ s.username = none ∧ env.cfg.registerEnabled = true

/-- The struct that a request may register. -/
inductive Registers (env : Env) (ctx : Ctx) (s : Session) (codes : VerificationMap) (db : DB) :
    Request → User → Prop
  | register {user : User} {inviterId : Int}
      (hcode : env.cfg.emailVerificationEnabled = true → codeAccepted codes ctx.now user = true)
      (hfree : ∀ row ∈ db.users, row.username ≠ user.username ∧
        (user.email ≠ "" → row.email ≠ user.email)) :
      Registers env ctx s codes db (.register (some user))
        { username := user.username
          password := user.password
          displayName := user.username
          inviterId := inviterId
          role := roleCommonUser
          email := if env.cfg.emailVerificationEnabled then user.email else "" }
  | gitHub {req : OAuthRequest} {answer : Except Err GitHubUser} {githubUser : GitHubUser}
      (hfirst : FirstLogin env s req.state)
      (hinfo : getGitHubUserInfoByCode req.code answer = .ok githubUser)
      (hfree : Unclaimed db .gitHub githubUser.login) :
      Registers env ctx s codes db (.login (.gitHubOAuth req answer))
        { gitHubId := githubUser.login
          username := "github_" ++ toString (maxId db + 1)
          displayName := if githubUser.name = "" then "GitHub User" else githubUser.name
          email := githubUser.email
          role := roleCommonUser
          status := userStatusEnabled }
  | discord {req : OAuthRequest} {answer : Except Err DiscordUser} {discordUser : DiscordUser}
      (hfirst : FirstLogin env s req.state)
      (hinfo : getDiscordUserInfoByCode req.code answer = .ok discordUser)
      (hfree : Unclaimed db .discord discordUser.uid) :
      Registers env ctx s codes db (.login (.discordOAuth req answer))
        { discordId := discordUser.uid
          username := discordUser.id
          displayName := if discordUser.name = "" then "Discord User" else discordUser.name }
  | oidc {req : OAuthRequest} {answer : Except Err OidcUser} {oidcUser : OidcUser}
      {username : String} (hfirst : FirstLogin env s req.state)
      (hinfo : getOidcUserInfoByCode req.code answer = .ok oidcUser)
      (hfree : ∀ row ∈ db.users, row.live = true → row.oidcId ≠ oidcUser.openID)
      (hname : username = oidcUser.preferredUsername ∨
        oidcUser.preferredUsername = "" ∧ username = "oidc_" ++ toString (maxId db + 1)) :
      Registers env ctx s codes db (.login (.oidcAuth req answer))
        { oidcId := oidcUser.openID
          email := oidcUser.email
          username := username
          displayName := if oidcUser.name = "" then "OIDC User" else oidcUser.name }
  | linuxdo {req : OAuthRequest} {answer : Except Err LinuxdoUser} {linuxdoUser : LinuxdoUser}
      (hfirst : FirstLogin env s req.state)
      (hinfo : getLinuxdoUserInfoByCode req.code answer = .ok linuxdoUser)
      (hfree : Unclaimed db .linuxDO (toString linuxdoUser.id)) :
      Registers env ctx s codes db (.login (.linuxdoOAuth none req answer))
        { linuxDOId := toString linuxdoUser.id
          username := "linuxdo_" ++ toString (maxId db + 1)
          displayName := linuxdoUser.name
          role := roleCommonUser
          status := userStatusEnabled }
  | weChat {code wechatId : String} {answer : Except Err String}
      (hinfo : getWeChatIdByCode code answer = .ok wechatId)
      (hregister : env.cfg.registerEnabled = true) (hfree : Unclaimed db .weChat wechatId) :
      Registers env ctx s codes db (.login (.weChatAuth code answer))
        { weChatId := wechatId
          username := "wechat_" ++ toString (maxId db + 1)
          displayName := "WeChat User"
          role := roleCommonUser
          status := userStatusEnabled }

/-- The identity that a request may give the account of the session. -/
inductive Binds : Request → Provider → String → Prop
  | gitHub {req : OAuthRequest} {answer : Except Err GitHubUser} {githubUser : GitHubUser}
      (hinfo : getGitHubUserInfoByCode req.code answer = .ok githubUser) :
      Binds (.login (.gitHubOAuth req answer)) .gitHub githubUser.login
  | discord {req : OAuthRequest} {answer : Except Err DiscordUser} {discordUser : DiscordUser}
      (hinfo : getDiscordUserInfoByCode req.code answer = .ok discordUser) :
      Binds (.login (.discordOAuth req answer)) .discord discordUser.uid
  | oidc {req : OAuthRequest} {answer : Except Err OidcUser} {oidcUser : OidcUser}
      (hinfo : getOidcUserInfoByCode req.code answer = .ok oidcUser) :
      Binds (.login (.oidcAuth req answer)) .oidc oidcUser.openID
  | linuxDO {req : OAuthRequest} {answer : Except Err LinuxdoUser} {linuxdoUser : LinuxdoUser}
      (hinfo : getLinuxdoUserInfoByCode req.code answer = .ok linuxdoUser) :
      Binds (.login (.linuxdoOAuth none req answer)) .linuxDO (toString linuxdoUser.id)
  | weChat {code wechatId : String} {answer : Except Err String}
      (hinfo : getWeChatIdByCode code answer = .ok wechatId) :
      Binds (.weChatBind code answer) .weChat wechatId
  | telegram {params : Params} {telegramId : String} (hid : params.get "id" = some telegramId) :
      Binds (.telegramBind params) .telegram telegramId

/-- The columns that `Edit` writes. -/
def editColumns (user : User) (password : Option String) (u : User) : User :=
  { u with
    username := user.username
    displayName := user.displayName
    group := user.group
    quota := user.quota
    remark := user.remark
    password := password.getD u.password }

/-- **What a request may make of the accounts**, where `ctx` is what the handler
is given. -/
inductive Permits (env : Env) (ctx : Ctx) (s : Session) (codes : VerificationMap) (db : DB) :
    Request → Change → Prop
  | registered {q : Request} {cleanUser row : User} (h : Registers env ctx s codes db q cleanUser)
      (hnew : New env ctx db cleanUser row) : Permits env ctx s codes db q (.create row)
  | created {user row : User} (hrole : user.role < ctx.role)
      (hnew : New env ctx db
        { username := trimSpace user.username
          password := user.password
          displayName := if user.displayName = "" then trimSpace user.username else user.displayName
          role := user.role } row) :
      Permits env ctx s codes db (.createUser (some user)) (.create row)
  | edited {user row : User} {password : Option String} (hrow : row ∈ db.users)
      (hlive : row.live = true) (hid : row.id = user.id)
      (hrank : outranked ctx.role row.role = false)
      (hpassword : ∀ hash, password = some hash → ctx.password2Hash user.password = .ok hash) :
      Permits env ctx s codes db (.updateUser (some user))
        (.editId user.id (editColumns user password))
  | selfEdited {user row : User} {password : String} (hrow : row ∈ db.users)
      (hlive : row.live = true) (hid : row.id = ctx.id)
      (horiginal : env.bcryptCompare row.password user.originalPassword = true)
      (hpassword : password = "" ∨ ctx.password2Hash user.password = .ok password) :
      Permits env ctx s codes db (.updateSelf (some (.account user)))
        (.editId ctx.id fun row => row.overlay
          { username := user.username, password := password, displayName := user.displayName })
  | managed {req : ManageRequest} {row user : User} (hrow : row ∈ db.users)
      (hlive : row.live = true) (hid : req.id = 0 ∨ row.id = req.id)
      (hrank : outranked ctx.role row.role = false)
      (haction : manageAction ctx.role row req.action = .ok user) (hdelete : req.action ≠ "delete") :
      Permits env ctx s codes db (.manageUser (some req)) (.editId row.id fun _ => user)
  | managedDelete {req : ManageRequest} {row : User} (hrow : row ∈ db.users)
      (hid : req.id = 0 ∨ row.id = req.id) (hrank : outranked ctx.role row.role = false)
      (hroot : row.role ≠ roleRootUser) (hdelete : req.action = "delete") :
      Permits env ctx s codes db (.manageUser (some req))
        (.editId row.id fun u => { u with deletedAt := some ctx.now })
  | deleted {idParam : String} {row : User} (hrow : row ∈ db.users) (hlive : row.live = true)
      (hid : atoi idParam = (row.id, none)) (hrank : row.role < ctx.role) :
      Permits env ctx s codes db (.deleteUser idParam) (.remove row.id)
  | selfDeleted : Permits env ctx s codes db .deleteSelf
      (.editId ctx.id fun u => { u with deletedAt := some ctx.now })
  | tokenGenerated {key : String} (hkey : ctx.randomKey = .ok key) :
      Permits env ctx s codes db .generateAccessToken
        (.editId ctx.id fun u => { u with accessToken := some key })
  | affCodeGiven : Permits env ctx s codes db .getAffCode
      (.editId ctx.id fun u => u.overlay { affCode := ctx.randomString })
  | emailBound {email code : String} {id : Int} (hid : s.id = some id)
      (hcode : codes.verify ctx.now email code emailVerificationPurpose = true) :
      Permits env ctx s codes db (.emailBind email code)
        (.editId id fun u => u.overlay { email := email })
  | bound {q : Request} {p : Provider} {externalId : String} {id : Int}
      (h : Binds q p externalId) (hid : s.id = some id) :
      Permits env ctx s codes db q (.editId id fun u => u.overlay (p.bind externalId {}))
  | passwordReset {req : PasswordResetRequest} {password : String}
      (hcode : codes.verify ctx.now req.email req.token passwordResetPurpose = true)
      (hpassword : ctx.password2Hash (generateVerificationCode ctx.uuid 12) = .ok password) :
      Permits env ctx s codes db (.resetPassword (some req))
        (.edit (fun u => u.email == req.email) fun u => { u with password := password })

/-! ### Programs and the change they make -/

/-- On a database in order, the program makes one of the changes, or none. -/
def Makes {α : Type} (W : Change → Prop) (p : M α) (db : DB) : Prop :=
  Ends p (fun _ db' => ∃ c, (c = .keep ∨ W c) ∧ cores db' = c.cores db) db

variable {α β : Type} {W : Change → Prop} {db : DB}

theorem Makes.pure {a : α} : Makes W (Pure.pure a) db := ⟨.keep, Or.inl rfl, rfl⟩

/-- A part that leaves the database, and what follows. -/
theorem Makes.read {p : M α} {f : α → M β} {R : α → Prop}
    (hp : Ends p (fun a db' => db' = db ∧ R a) db) (hf : ∀ a, R a → Makes W (f a) db) :
    Makes W (p >>= f) db := by
  refine hp.bind ?_
  rintro a db' ⟨rfl, ha⟩
  exact hf a ha

theorem Makes.readOnly {p : M α} {f : α → M β} (hp : ReadOnly p) (hf : ∀ a, Makes W (f a) db) :
    Makes W (p >>= f) db :=
  Makes.read (R := fun _ => True) (Sat.ends (Prog.Holds.mono (hp.sat db) fun _ _ h => ⟨h, trivial⟩))
    fun a _ => hf a

/-- The part that writes, and an answer. -/
theorem Makes.answer {p : M α} {f : α → M β} (hp : Makes W p db) (hf : ∀ a, ∃ b, f a = Pure.pure b) :
    Makes W (p >>= f) db := by
  refine hp.bind fun a db' h => ?_
  obtain ⟨b, hb⟩ := hf a
  rw [hb]
  exact Ends.pure h

theorem Makes.of_same {p : M α} (hp : Sat p (fun _ db' => cores db' = cores db) db) :
    Makes W p db :=
  Sat.ends (Prog.Holds.mono hp fun _ _ h => ⟨.keep, Or.inl rfl, h⟩)

theorem Makes.spares {p : M α} (hp : SparesUsers p) : Makes W p db :=
  Makes.of_same (Prog.Holds.mono (hp.sat db) fun _ _ h => cores_congr h)

/-- A program that changes no core, or makes one change. -/
theorem Makes.of_cores {p : M α} {c : Change} (hW : W c)
    (hp : Sat p (fun _ db' => cores db' = cores db ∨ cores db' = c.cores db) db) : Makes W p db := by
  refine Sat.ends (Prog.Holds.mono hp fun _ db' h => ?_)
  rcases h with h | h
  · exact ⟨.keep, Or.inl rfl, h⟩
  · exact ⟨c, Or.inr hW, h⟩

/-! ### One's own account -/

variable {env : Env} {ctx : Ctx} {s : Sess} {codes : VerificationMap}

/-- An update whose overlay is the change `g`. -/
theorem makes_update {user : User} {g : User → User} {updatePassword : Bool}
    (hW : W (.editId user.id g))
    (hg : ∀ row ∈ db.users, row.live = true → row.id = user.id → ∀ newUser,
      user.hashPassword ctx updatePassword = .ok newUser →
        (row.overlay newUser).core = (g row).core) :
    Makes W (user.update ctx updatePassword) db :=
  Makes.of_cores hW (update_cores ctx updatePassword hg)

theorem makes_generateAccessToken :
    Makes (Permits env ctx s.cur codes db .generateAccessToken) (generateAccessToken ctx s) db := by
  unfold generateAccessToken
  refine Makes.read (getUserById_sat ctx.id true db).ends fun r hr => ?_
  cases r with
  | error e => exact Makes.pure
  | ok user =>
    obtain ⟨row, hrow, -, hid, huser⟩ := hr user rfl
    rw [if_pos rfl] at huser
    subst huser
    cases hkey : ctx.randomKey with
    | error e => exact Makes.pure
    | ok key =>
      dsimp only
      refine Makes.read ((User.first_sat { user with accessToken := some key } false
        (fun u => u.accessToken == some key) db).ends) fun r hr => ?_
      obtain ⟨err, found⟩ := r
      dsimp only
      split
      · exact Makes.pure
      · rename_i herr
        rcases hr with ⟨e, he⟩ | ⟨row, -, he, -⟩
        · obtain rfl : found = _ := congrArg Prod.snd he
          refine Makes.answer (makes_update (g := fun u => { u with accessToken := some key })
            ?_ ?_) fun r => ?_
          · dsimp only
            rw [hid]
            exact .tokenGenerated hkey
          · intro row hrow' _ hrowid newUser hnew
            obtain rfl : _ = newUser := Except.ok.inj hnew
            obtain rfl : row = user := Table.eq_of_key hrow' hrow hrowid
            simp [User.overlay, User.core]
          · obtain ⟨err, u⟩ := r
            cases err <;> exact ⟨_, rfl⟩
        · exact absurd (congrArg Prod.fst he) herr

theorem makes_getAffCode :
    Makes (Permits env ctx s.cur codes db .getAffCode) (getAffCode ctx s) db := by
  unfold getAffCode
  refine Makes.read (getUserById_sat ctx.id true db).ends fun r hr => ?_
  cases r with
  | error e => exact Makes.pure
  | ok user =>
    obtain ⟨row, hrow, -, hid, huser⟩ := hr user rfl
    rw [if_pos rfl] at huser
    subst huser
    dsimp only
    split
    · refine Makes.answer (makes_update (g := fun u => u.overlay { affCode := ctx.randomString })
        ?_ ?_) fun r => ?_
      · dsimp only
        rw [hid]
        exact .affCodeGiven
      · intro row hrow' _ hrowid newUser hnew
        obtain rfl : _ = newUser := Except.ok.inj hnew
        obtain rfl : row = user := Table.eq_of_key hrow' hrow hrowid
        simp [User.overlay, User.core]
      · obtain ⟨err, u⟩ := r
        cases err <;> exact ⟨_, rfl⟩
    · exact Makes.pure

theorem makes_updateUserSetting (W : Change → Prop) (req : Option UpdateUserSettingRequest) :
    Makes W (updateUserSetting env ctx s req) db := by
  unfold updateUserSetting
  cases req with
  | none => exact Makes.pure
  | some req =>
    dsimp only
    split
    · exact Makes.pure
    · refine Makes.read (getUserById_sat ctx.id true db).ends fun r hr => ?_
      cases r with
      | error e => exact Makes.pure
      | ok user =>
        obtain ⟨row, hrow, -, -, huser⟩ := hr user rfl
        rw [if_pos rfl] at huser
        refine Makes.answer
          (Makes.of_same (setSetting_update_cores env ctx hrow (Or.inl huser) _)) fun r => ?_
        obtain ⟨err, u⟩ := r
        cases err <;> exact ⟨_, rfl⟩

theorem makes_sidebarUpdate (W : Change → Prop) (modules : Option String) :
    Makes W (sidebarUpdate env ctx s modules) db := by
  unfold sidebarUpdate
  refine Makes.read (getUserById_sat ctx.id false db).ends fun r hr => ?_
  cases r with
  | error e => exact Makes.pure
  | ok user =>
    obtain ⟨row, hrow, -, -, huser⟩ := hr user rfl
    rw [if_neg Bool.false_ne_true] at huser
    refine Makes.answer
      (Makes.of_same (setSetting_update_cores env ctx hrow (Or.inr huser) _)) fun r => ?_
    obtain ⟨err, u⟩ := r
    cases err <;> exact ⟨_, rfl⟩

theorem checkUpdatePassword_readOnly (env : Env) (originalPassword newPassword : String)
    (userId : Int) : ReadOnly (checkUpdatePassword env originalPassword newPassword userId) := by
  unfold checkUpdatePassword
  refine (getUserById_only (fun _ _ => rfl) userId true).bind fun r => ?_
  cases r with
  | error e => exact Prog.Only.pure
  | ok user =>
    dsimp only
    split <;> exact Prog.Only.pure

/-- What the check of the original password lets pass. -/
theorem checkUpdatePassword_ends (env : Env) (originalPassword newPassword : String) (userId : Int)
    (db : DB) :
    Ends (checkUpdatePassword env originalPassword newPassword userId) (fun r db' => db' = db ∧
      ∀ b, r = .ok b → b = (newPassword != "") ∧ ∃ row ∈ db.users, row.live = true ∧
        row.id = userId ∧ env.bcryptCompare row.password originalPassword = true) db := by
  unfold checkUpdatePassword
  refine (getUserById_sat userId true db).ends.bind fun r db' hr => ?_
  obtain ⟨rfl, hr⟩ := hr
  cases r with
  | error e => exact Ends.pure ⟨rfl, fun b hb => by cases hb⟩
  | ok user =>
    obtain ⟨row, hrow, hlive, hid, huser⟩ := hr user rfl
    rw [if_pos rfl] at huser
    subst huser
    dsimp only
    cases hcompare : env.bcryptCompare user.password originalPassword with
    | false => exact Ends.pure ⟨rfl, fun b hb => by cases hb⟩
    | true =>
      refine Ends.pure ⟨rfl, fun b hb => ?_⟩
      obtain rfl := Except.ok.inj hb
      exact ⟨rfl, user, hrow, hlive, hid, hcompare⟩

theorem hash_of_hashPassword {user : User} {password : String}
    (h : user.hashPassword ctx true = .ok { user with password := password }) :
    ctx.password2Hash user.password = .ok password := by
  unfold User.hashPassword at h
  rw [if_pos rfl] at h
  cases hhash : ctx.password2Hash user.password with
  | error e =>
    rw [hhash] at h
    cases h
  | ok hash =>
    rw [hhash] at h
    exact congrArg Except.ok (congrArg User.password (Except.ok.inj h))

/-- A password is written hashed, and none where none is given. -/
theorem hash_of_given {user : User} {password : String}
    (h : user.hashPassword ctx (user.password != "") = .ok { user with password := password }) :
    password = "" ∨ user.password ≠ "" ∧ ctx.password2Hash user.password = .ok password := by
  by_cases hnone : user.password = ""
  · unfold User.hashPassword at h
    rw [if_neg (by simp [hnone])] at h
    exact Or.inl ((congrArg User.password (Except.ok.inj h)).symm.trans hnone)
  · rw [show (user.password != "") = true from bne_iff_ne.mpr hnone] at h
    exact Or.inr ⟨hnone, hash_of_hashPassword h⟩

/-- What stands for "no password" in a body is put in for the check, and taken out again. -/
theorem checked_fields (user : User) : ∃ password,
    (if user.password = "" then { user with password := iLoveU } else user)
      = { user with password := password } ∧
    ((if password = iLoveU then "" else password) = "" ∨
      (if password = iLoveU then "" else password) = user.password) := by
  by_cases hnone : user.password = ""
  · rw [if_pos hnone]
    exact ⟨iLoveU, rfl, Or.inl (if_pos rfl)⟩
  · rw [if_neg hnone]
    refine ⟨user.password, rfl, ?_⟩
    split
    · exact Or.inl rfl
    · exact Or.inr rfl

theorem makes_accountUpdate {user : User} :
    Makes (Permits env ctx s.cur codes db (.updateSelf (some (.account user))))
      (accountUpdate env ctx s user) db := by
  unfold accountUpdate
  dsimp only
  obtain ⟨password, hcheck, hgiven⟩ := checked_fields user
  rw [hcheck]
  dsimp only
  generalize (if password = iLoveU then "" else password) = given at hgiven ⊢
  split
  · exact Makes.pure
  · refine Makes.read (checkUpdatePassword_ends env _ _ _ db) fun r hr => ?_
    cases r with
    | error e => exact Makes.pure
    | ok updatePassword =>
      obtain ⟨rfl, row, hrow, hlive, hid, horiginal⟩ := hr updatePassword rfl
      dsimp only
      generalize hclean : ({
          id := ctx.id
          username := user.username
          password := given
          displayName := user.displayName } : User) = cleanUser
      have hpassword : cleanUser.password = given := by rw [← hclean]
      rw [← hpassword]
      cases hhash : cleanUser.hashPassword ctx (cleanUser.password != "") with
      | error e =>
        unfold User.update
        rw [hhash]
        exact Makes.pure
      | ok hashed =>
        obtain ⟨password, rfl, -⟩ := hashPassword_fields hhash
        have hhashed : password = "" ∨ ctx.password2Hash user.password = .ok password := by
          refine (hash_of_given hhash).imp_right ?_
          rw [hpassword]
          rintro ⟨hset, hhashed⟩
          rwa [← hgiven.resolve_left hset]
        subst hclean
        refine Makes.answer (makes_update (g := fun row => row.overlay
          { username := user.username, password := password, displayName := user.displayName })
          ?_ ?_) fun r => ?_
        · exact .selfEdited hrow hlive hid horiginal hhashed
        · intro row _ _ _ newUser hnew
          obtain rfl := Except.ok.inj (hhash.symm.trans hnew)
          rfl
        · obtain ⟨err, u⟩ := r
          cases err <;> exact ⟨_, rfl⟩

theorem makes_updateSelf (req : Option UpdateSelfRequest) :
    Makes (Permits env ctx s.cur codes db (.updateSelf req)) (updateSelf env ctx s req) db := by
  unfold updateSelf
  cases req with
  | none => exact Makes.pure
  | some req =>
    cases req with
    | sidebar modules => exact makes_sidebarUpdate _ modules
    | account user => exact makes_accountUpdate

theorem delete_cores (user : User) (db : DB) :
    Sat (user.delete ctx) (fun _ db' => cores db' = cores db ∨
      cores db' = (Change.editId user.id fun u => { u with deletedAt := some ctx.now }).cores db)
      db := by
  unfold User.delete
  split
  · exact Sat.pure (Or.inl rfl)
  · refine Sat.perform fun r db' h => Sat.pure ?_
    exact cores_userUpdates (f := fun u => { u with deletedAt := some ctx.now })
      (g := fun u => { u with deletedAt := some ctx.now }) (fun _ _ _ _ => rfl) h

theorem makes_deleteUserById {id : Int}
    (hW : W (.editId id fun u => { u with deletedAt := some ctx.now })) :
    Makes W (deleteUserById ctx id) db := by
  unfold deleteUserById
  split
  · exact Makes.pure
  · exact Makes.answer (Makes.of_cores hW (delete_cores { id := id } db)) fun _ => ⟨_, rfl⟩

/-- The end of `DeleteSelf`, when the account was looked up. -/
theorem makes_deleteSelf_end (role : Int) :
    Makes (Permits env ctx s.cur codes db .deleteSelf) (do
      if role = roleRootUser then return s.fail "不能删除超级管理员账户"
      match ← deleteUserById ctx ctx.id with
      | some e => return s.apiError e
      | none => return s.answer (.done "")) db := by
  split
  · exact Makes.pure
  · refine Makes.answer (makes_deleteUserById .selfDeleted) fun r => ?_
    cases r <;> exact ⟨_, rfl⟩

theorem makes_deleteSelf :
    Makes (Permits env ctx s.cur codes db .deleteSelf) (deleteSelf ctx s) db := by
  unfold deleteSelf
  split
  · exact Makes.pure
  · refine Makes.readOnly (getUserById_only (fun _ _ => rfl) ctx.id false) fun r => ?_
    cases r with
    | error e => exact makes_deleteSelf_end 0
    | ok user => exact makes_deleteSelf_end (show User from user).role

theorem makes_emailBind {email code : String} :
    Makes (Permits env ctx s.cur codes db (.emailBind email code))
      (emailBind ctx s email (codes.verify ctx.now email code emailVerificationPurpose)) db := by
  unfold emailBind
  cases hcode : codes.verify ctx.now email code emailVerificationPurpose with
  | false => exact Makes.pure
  | true =>
    rw [Bool.not_true, if_neg Bool.false_ne_true]
    cases hid : s.cur.id with
    | none => exact Makes.pure
    | some id =>
      dsimp only
      refine Makes.read (fillUserById_sat id db).ends fun r hr => ?_
      obtain ⟨err, user⟩ := r
      cases err with
      | some e => exact Makes.pure
      | none =>
        dsimp only at hr ⊢
        have huser : user.id = id := by
          rcases hr with rfl | ⟨row, -, he, -, hrow⟩
          · rfl
          · rw [show user = row from congrArg Prod.snd he]
            exact hrow
        refine Makes.answer (makes_update (g := fun u => u.overlay { email := email }) ?_ ?_)
          fun r => ?_
        · dsimp only
          rw [huser]
          exact .emailBound hid hcode
        · intro row hrow _ hrowid newUser hnew
          obtain rfl : _ = newUser := Except.ok.inj hnew
          rcases hr with rfl | ⟨x, hx, he, -, -⟩
          · rfl
          · obtain rfl : user = x := congrArg Prod.snd he
            obtain rfl : row = user := Table.eq_of_key hrow hx hrowid
            simp [User.overlay, User.core]
        · obtain ⟨err, u⟩ := r
          cases err <;> exact ⟨_, rfl⟩

/-! ### Administration -/

/-- A registration makes the account it was asked for, or none. -/
theorem makes_insert {cleanUser : User} {inviterId : Int}
    (hW : ∀ row, New env ctx db cleanUser row → W (.create row)) :
    Makes W (cleanUser.insert env ctx inviterId) db := by
  refine Sat.ends (Prog.Holds.mono (insert_cores env ctx cleanUser inviterId db) fun r db' h => ?_)
  rcases h with ⟨e, -, hcores⟩ | ⟨-, newUser, hhash, hnew, hcores⟩
  · exact ⟨.keep, Or.inl rfl, hcores⟩
  · exact ⟨_, Or.inr (hW r.2 ⟨newUser, hhash, hnew⟩), hcores⟩

theorem makes_createUser (req : Option User) :
    Makes (Permits env ctx s.cur codes db (.createUser req)) (createUser env ctx s req) db := by
  unfold createUser
  cases req with
  | none => exact Makes.pure
  | some user =>
    dsimp only
    split
    · exact Makes.pure
    split
    · exact Makes.pure
    split
    · exact Makes.pure
    · rename_i hrole
      refine Makes.answer (makes_insert fun row hnew => .created (by omega) hnew) fun r => ?_
      obtain ⟨err, u⟩ := r
      cases err <;> exact ⟨_, rfl⟩

theorem makes_edit {user : User} {updatePassword : Bool}
    (hW : ∀ password, (∀ hash, password = some hash →
        updatePassword = true ∧ ctx.password2Hash user.password = .ok hash) →
      W (.editId user.id (editColumns user password))) :
    Makes W (user.edit ctx updatePassword) db := by
  unfold User.edit
  cases hhash : user.hashPassword ctx updatePassword with
  | error e => exact Makes.pure
  | ok newUser =>
    obtain ⟨password, rfl, -⟩ := hashPassword_fields hhash
    dsimp only
    refine Makes.of_cores (hW (if updatePassword then some password else none) ?_)
      (firstAndUpdates_cores { user with password := password } fun row _ _ _ => ?_)
    · intro hash hsome
      cases updatePassword with
      | false => cases hsome
      | true =>
        obtain rfl := Option.some.inj hsome
        exact ⟨rfl, hash_of_hashPassword hhash⟩
    · unfold editColumns
      cases updatePassword <;> rfl

theorem makes_updateUser (req : Option User) :
    Makes (Permits env ctx s.cur codes db (.updateUser req)) (updateUser ctx s req) db := by
  unfold updateUser
  cases req with
  | none => exact Makes.pure
  | some user =>
    dsimp only
    split
    · exact Makes.pure
    obtain ⟨password, hcheck, hgiven⟩ := checked_fields user
    rw [hcheck]
    split
    · exact Makes.pure
    refine Makes.read (getUserById_sat user.id false db).ends fun r hr => ?_
    cases r with
    | error e => exact Makes.pure
    | ok originUser =>
      obtain ⟨row, hrow, hlive, hid, rfl⟩ := hr originUser rfl
      have hrole : row.omitPassword.role = row.role := rfl
      simp only [Bool.false_eq_true, if_false, hrole]
      by_cases hrank : outranked ctx.role row.role = true
      · rw [if_pos hrank]
        exact Makes.pure
      rw [if_neg hrank]
      by_cases hraise : outranked ctx.role user.role = true
      · rw [if_pos hraise]
        exact Makes.pure
      rw [if_neg hraise]
      have hclean : (if password = iLoveU then { user with password := "" }
          else { user with password := password })
          = { user with password := if password = iLoveU then "" else password } := by
        split <;> rfl
      rw [hclean]
      generalize (if password = iLoveU then "" else password) = given at hgiven ⊢
      refine Makes.answer (makes_edit fun password hpassword => ?_) fun r => ?_
      · refine .edited hrow hlive hid (Bool.not_eq_true _ ▸ hrank) fun hash hsome => ?_
        obtain ⟨hset, hhash⟩ := hpassword hash hsome
        rwa [← hgiven.resolve_left (bne_iff_ne.mp hset)]
      · obtain ⟨err, u⟩ := r
        cases err <;> exact ⟨_, rfl⟩

theorem makes_deleteUser (idParam : String) :
    Makes (Permits env ctx s.cur codes db (.deleteUser idParam)) (deleteUser ctx s idParam) db := by
  unfold deleteUser
  cases hatoi : atoi idParam with
  | mk id err =>
    cases err with
    | some e => exact Makes.pure
    | none =>
      dsimp only
      refine Makes.read (getUserById_sat id false db).ends fun r hr => ?_
      cases r with
      | error e => exact Makes.pure
      | ok originUser =>
        obtain ⟨row, hrow, hlive, rfl, rfl⟩ := hr originUser rfl
        have hrole : row.omitPassword.role = row.role := rfl
        simp only [Bool.false_eq_true, if_false, hrole]
        by_cases hrank : ctx.role ≤ row.role
        · rw [if_pos hrank]
          exact Makes.pure
        rw [if_neg hrank]
        have hdelete : Makes (Permits env ctx s.cur codes db (.deleteUser idParam))
            (hardDeleteUserById row.id) db := by
          unfold hardDeleteUserById
          split
          · exact Makes.pure
          · refine Makes.of_cores (.deleted hrow hlive hatoi (by omega)) ?_
            exact Sat.perform fun r db' h => Sat.pure (cores_userHardDelete h)
        refine Makes.answer hdelete fun r => ?_
        cases r <;> exact ⟨_, rfl⟩

/-- What an action that passes makes of the struct. -/
theorem manageAction_ok {myRole : Int} {user user' : User} {action : String}
    (h : manageAction myRole user action = .ok user') :
    ∃ role status, user' = { user with role := role, status := status } ∧
      (role = user.role ∨
        action = "promote" ∧ myRole = roleRootUser ∧ user.role < roleAdminUser ∧ role = roleAdminUser ∨
        action = "demote" ∧ user.role ≠ roleRootUser ∧ role = roleCommonUser) ∧
      (status = user.status ∨ action = "disable" ∧ status = userStatusDisabled ∨
        action = "enable" ∧ status = userStatusEnabled) ∧
      (action = "delete" → user.role ≠ roleRootUser ∧ user' = user) := by
  unfold manageAction at h
  split_ifs at h with hdisable hroot henable hdelete hroot hpromote hmine hadmin hdemote hroot hcommon
  all_goals obtain rfl := Except.ok.inj h
  · exact ⟨user.role, _, rfl, Or.inl rfl, Or.inr (Or.inl ⟨hdisable, rfl⟩), fun h => by simp_all⟩
  · exact ⟨user.role, _, rfl, Or.inl rfl, Or.inr (Or.inr ⟨henable, rfl⟩), fun h => by simp_all⟩
  · exact ⟨user.role, user.status, rfl, Or.inl rfl, Or.inl rfl, fun _ => ⟨hroot, rfl⟩⟩
  · refine ⟨_, user.status, rfl, Or.inr (Or.inl ⟨hpromote, not_not.mp hmine, by omega, rfl⟩),
      Or.inl rfl, fun h => by simp_all⟩
  · refine ⟨_, user.status, rfl, Or.inr (Or.inr ⟨hdemote, hroot, rfl⟩), Or.inl rfl,
      fun h => by simp_all⟩
  · exact ⟨user.role, user.status, rfl, Or.inl rfl, Or.inl rfl, fun h => absurd h hdelete⟩

/-- What a soft delete answers, and that it leaves no live row. -/
theorem delete_gone (user : User) (db : DB) :
    Sat (user.delete ctx) (fun r db' => r.2.id = user.id ∧
      (r.1 = none → ∀ row ∈ db'.users, row.id = user.id → row.live = false)) db := by
  unfold User.delete
  split
  · exact Sat.pure ⟨rfl, fun h => by cases h⟩
  · refine Sat.perform fun r db' h => Sat.pure ⟨rfl, fun hr row hrow hid => ?_⟩
    rcases h with ⟨rfl, rfl⟩ | ⟨⟨e, rfl⟩, -⟩
    · simp only [exec] at hr hrow
      cases hup : db.users.update (fun u => u.live && u.id == user.id)
          (fun u => { u with deletedAt := some ctx.now }) with
      | none =>
        rw [hup] at hr
        cases hr
      | some t =>
        rw [hup] at hrow
        obtain ⟨x, -, rfl⟩ := (Table.mem_update hup).mp hrow
        unfold Table.touch at hid ⊢
        split
        · rfl
        · rename_i hcond
          rw [if_neg hcond] at hid
          simpa [hid] using hcond
    · cases hr

/-- The change of one row, where the action is not `delete`. -/
theorem overlay_managed {row user : User} {myRole : Int} {action : String}
    (h : manageAction myRole row action = .ok user) : row.overlay user = user := by
  obtain ⟨role, status, rfl, hrole, hstatus, -⟩ := manageAction_ok h
  have hrole' : (if role = 0 then row.role else role) = role := by
    split
    · rename_i hzero
      rcases hrole with he | ⟨-, -, -, he⟩ | ⟨-, -, he⟩
      · exact he.symm
      · exact absurd (he.symm.trans hzero) (by decide)
      · exact absurd (he.symm.trans hzero) (by decide)
    · rfl
  have hstatus' : (if status = 0 then row.status else status) = status := by
    split
    · rename_i hzero
      rcases hstatus with he | ⟨-, he⟩ | ⟨-, he⟩
      · exact he.symm
      · exact absurd (he.symm.trans hzero) (by decide)
      · exact absurd (he.symm.trans hzero) (by decide)
    · rfl
  simp [User.overlay, hrole', hstatus']

/-- What an action writes, on the row it was decided on. -/
theorem makes_manage {req : ManageRequest} {row user : User} (hrow : row ∈ db.users)
    (hid : req.id = 0 ∨ row.id = req.id) (hrank : outranked ctx.role row.role = false)
    (haction : manageAction ctx.role row req.action = .ok user) {f : Option Err × User → M β}
    (hf : ∀ r, ∃ b, f r = Pure.pure b) :
    Makes (Permits env ctx s.cur codes db (.manageUser (some req))) (do
      let r ← manageDelete ctx user req.action
      match r.1 with
      | some e => f (some e, r.2)
      | none =>
        let r ← r.2.update ctx false
        f r) db := by
  have huid : user.id = row.id := AdminRank.manageAction_id haction
  unfold manageDelete
  by_cases hdelete : req.action = "delete"
  · rw [if_pos hdelete]
    obtain ⟨-, -, -, -, -, hsame⟩ := manageAction_ok haction
    obtain ⟨hroot, rfl⟩ := hsame hdelete
    refine Ends.bind (Sat.ends ((delete_cores user db).and (delete_gone user db))) ?_
    rintro ⟨err, gone⟩ db₁ ⟨hcores, hgid, hgone⟩
    have hmade : ∃ c, (c = .keep ∨ Permits env ctx s.cur codes db (.manageUser (some req)) c) ∧
        cores db₁ = c.cores db := by
      rcases hcores with h | h
      · exact ⟨.keep, Or.inl rfl, h⟩
      · exact ⟨_, Or.inr (.managedDelete hrow hid hrank hroot hdelete), h⟩
    cases err with
    | some e =>
      obtain ⟨b, hb⟩ := hf (some e, gone)
      dsimp only
      rw [hb]
      exact Ends.pure hmade
    | none =>
      dsimp only at hgid hgone ⊢
      -- the row is deleted now, and an update does not reach it
      refine (Sat.ends (update_keeps_cores ctx fun x hx hlive hxid => ?_)).bind ?_
      · rw [hgone rfl x hx (hxid.trans hgid)] at hlive
        exact absurd hlive Bool.false_ne_true
      · intro r db₂ h₂
        obtain ⟨b, hb⟩ := hf r
        rw [hb]
        obtain ⟨c, hc, hcores⟩ := hmade
        exact Ends.pure ⟨c, hc, h₂.trans hcores⟩
  · rw [if_neg hdelete]
    refine Makes.answer (f := f) ?_ hf
    by_cases hlive : row.live = true
    · refine makes_update (g := fun _ => user) ?_ ?_
      · rw [huid]
        exact .managed hrow hlive hid hrank haction hdelete
      · intro x hx _ hxid newUser hnew
        obtain rfl : user = newUser := Except.ok.inj hnew
        obtain rfl : x = row := Table.eq_of_key hx hrow (hxid.trans huid)
        rw [overlay_managed haction]
    · refine Makes.of_same (update_keeps_cores ctx fun x hx hxlive hxid => ?_)
      obtain rfl : x = row := Table.eq_of_key hx hrow (hxid.trans huid)
      exact absurd hxlive hlive

/-- Nothing is written for an id that no row has. -/
theorem same_manage {user : User} (hnone : ∀ row ∈ db.users, row.id ≠ user.id) (action : String)
    {f : Option Err × User → M β} (hf : ∀ r, ∃ b, f r = Pure.pure b) :
    Makes W (do
      let r ← manageDelete ctx user action
      match r.1 with
      | some e => f (some e, r.2)
      | none =>
        let r ← r.2.update ctx false
        f r) db := by
  have hdelete : Sat (manageDelete ctx user action)
      (fun r db' => r.2.id = user.id ∧ cores db' = cores db) db := by
    unfold manageDelete
    split
    · refine Prog.Holds.mono ((delete_cores user db).and (delete_gone user db)) ?_
      rintro r db' ⟨hcores | hcores, hid, -⟩
      · exact ⟨hid, hcores⟩
      · refine ⟨hid, hcores.trans (cores_edit_of_core fun row hrow _ hp => ?_)⟩
        exact absurd (beq_iff_eq.mp hp) (hnone row hrow)
    · exact Sat.pure ⟨rfl, rfl⟩
  refine (Sat.ends hdelete).bind ?_
  rintro ⟨err, user'⟩ db₁ ⟨hid, hcores⟩
  cases err with
  | some e =>
    obtain ⟨b, hb⟩ := hf (some e, user')
    dsimp only
    rw [hb]
    exact Ends.pure ⟨.keep, Or.inl rfl, hcores⟩
  | none =>
    dsimp only at hid ⊢
    refine (Sat.ends (update_keeps_cores ctx fun x hx _ hxid => ?_)).bind ?_
    · have hmem : x.core ∈ cores db := by
        rw [← hcores]
        exact mem_cores hx
      obtain ⟨row, hrow, hcore⟩ := hmem
      exact absurd ((User.core_id hcore).symm.trans (hxid.trans hid)) (hnone row hrow)
    · intro r db₂ h₂
      obtain ⟨b, hb⟩ := hf r
      rw [hb]
      exact Ends.pure ⟨.keep, Or.inl rfl, h₂.trans hcores⟩

theorem makes_manageUser (req : Option ManageRequest) :
    Makes (Permits env ctx s.cur codes db (.manageUser req)) (manageUser ctx s req) db := by
  unfold manageUser
  cases req with
  | none => exact Makes.pure
  | some req =>
    dsimp only
    refine Makes.read (User.first_ends { id := req.id } true (fun _ => true) db) fun r hr => ?_
    obtain ⟨err, user⟩ := r
    dsimp only
    split
    · exact Makes.pure
    by_cases hrank : outranked ctx.role user.role = true
    · rw [if_pos hrank]
      exact Makes.pure
    rw [if_neg hrank]
    rw [Bool.not_eq_true] at hrank
    cases haction : manageAction ctx.role user req.action with
    | error msg => exact Makes.pure
    | ok user' =>
      have hanswer : ∀ r : Option Err × User, ∃ b : Out,
          (match r.1 with
            | some e => (pure (s.apiError e) : M Out)
            | none =>
              let clearUser : User := { role := r.2.role, status := r.2.status }
              pure (s.answer (.apiSuccess clearUser.toJson))) = pure b := by
        rintro ⟨err, u⟩
        cases err <;> exact ⟨_, rfl⟩
      rcases hr with ⟨row, hrow, he, -, -, hid⟩ | ⟨he, hnone⟩
      · obtain rfl : user = row := congrArg Prod.snd he
        exact makes_manage hrow hid hrank haction hanswer
      · obtain rfl : user = { id := req.id } := congrArg Prod.snd he
        refine same_manage (fun row hrow => ?_) req.action hanswer
        rw [AdminRank.manageAction_id haction]
        exact (hnone row hrow (Or.inl rfl) rfl).2

/-! ### Registration and outside identities -/

theorem checkUserExistOrDeleted_ends (username email : String) (db : DB) :
    Ends (checkUserExistOrDeleted username email) (fun r db' => db' = db ∧ (r = .ok false →
      ∀ row ∈ db.users, row.username ≠ username ∧ (email ≠ "" → row.email ≠ email))) db := by
  unfold checkUserExistOrDeleted
  refine Ends.perform ?_
  simp only [exec]
  cases hfind : db.users.find? (seen true fun u =>
      u.username == username || (email != "" && u.email == email)) with
  | some row => exact Ends.pure ⟨rfl, fun h => absurd (Except.ok.inj h) (by decide)⟩
  | none =>
    refine Ends.pure ⟨rfl, fun _ row hrow => ?_⟩
    have hnot := Table.find?_eq_none.mp hfind row hrow
    simpa [seen] using hnot

theorem alreadyTaken_ends (unscoped : Bool) (p : User → Bool) (db : DB) :
    Ends (alreadyTaken unscoped p) (fun r db' => db' = db ∧
      (r = false → ∀ row ∈ db.users, (unscoped || row.live) = true → p row = false)) db := by
  unfold alreadyTaken
  refine Ends.perform ?_
  simp only [exec]
  cases hfind : db.users.find? (seen unscoped p) with
  | some row => exact Ends.pure ⟨rfl, fun h => by simp at h⟩
  | none =>
    refine Ends.pure ⟨rfl, fun _ row hrow hseen => ?_⟩
    have hnot := Table.find?_eq_none.mp hfind row hrow
    simpa [seen, hseen] using hnot

theorem isLinuxDOIdAlreadyTaken_ends (linuxDOId : String) (db : DB) :
    Ends (isLinuxDOIdAlreadyTaken linuxDOId) (fun r db' => db' = db ∧
      (r = false → Unclaimed db .linuxDO linuxDOId)) db := by
  unfold isLinuxDOIdAlreadyTaken
  refine Ends.perform ?_
  simp only [exec]
  cases hfind : db.users.find? (seen true fun u => u.linuxDOId == linuxDOId) with
  | some row => exact Ends.pure ⟨rfl, fun h => absurd h (by decide)⟩
  | none =>
    refine Ends.pure ⟨rfl, fun _ row hrow => ?_⟩
    have hnot := Table.find?_eq_none.mp hfind row hrow
    show row.linuxDOId ≠ linuxDOId
    simpa [seen] using hnot

theorem getMaxUserId_ends (db : DB) :
    Ends getMaxUserId (fun r db' => db' = db ∧ r = maxId db) db := by
  unfold getMaxUserId
  refine Ends.perform ?_
  simp only [exec]
  unfold maxId
  cases db.users.rows.getLast? with
  | some row => exact Ends.pure ⟨rfl, rfl⟩
  | none => exact Ends.pure ⟨rfl, rfl⟩

theorem makes_register (req : Option User) :
    Makes (Permits env ctx s.cur codes db (.register req))
      (register env ctx s req (req.any fun user => codeAccepted codes ctx.now user)) db := by
  unfold register
  split
  · exact Makes.pure
  split
  · exact Makes.pure
  cases req with
  | none => exact Makes.pure
  | some user =>
    dsimp only [Option.any_some]
    split
    · exact Makes.pure
    split
    · exact Makes.pure
    split
    · exact Makes.pure
    rename_i hrefused
    have hcode : env.cfg.emailVerificationEnabled = true → codeAccepted codes ctx.now user = true := by
      intro hon
      simpa [hon] using hrefused
    refine Makes.read (checkUserExistOrDeleted_ends user.username user.email db) fun r hr => ?_
    cases r with
    | error e => exact Makes.pure
    | ok exist =>
      cases exist with
      | true => exact Makes.pure
      | false =>
        refine Makes.readOnly (getUserIdByAffCode_readOnly user.affCode) fun inviterId => ?_
        refine Makes.answer (makes_insert fun row hnew =>
          .registered (.register hcode (hr rfl)) hnew) fun r => ?_
        obtain ⟨err, u⟩ := r
        cases err <;> exact ⟨_, rfl⟩

/-- The struct that is filled for binding: the row, or the blank one. -/
theorem fillBlank_ends (id : Int) (p : Provider) (externalId : String) (db : DB) :
    Ends (User.fillUserById { p.bind externalId {} with id := id }) (fun r db' => db' = db ∧
      (r.2 = { p.bind externalId {} with id := id } ∨
        ∃ row ∈ db.users, r.2 = row ∧ row.id = id)) db := by
  refine Sat.ends (Prog.Holds.mono (User.fillBy_sat _ _ _ _ db) fun r db' h => ⟨h.1, ?_⟩)
  rcases h.2 with hr | ⟨row, hrow, rfl, -, hid, -⟩
  · exact Or.inl hr
  · exact Or.inr ⟨row, hrow, rfl, beq_iff_eq.mp hid⟩

/-- Writing an identity into the struct that was filled. -/
theorem makes_bind {user : User} {id : Int} {p : Provider} {externalId : String}
    (hW : W (.editId id fun u => u.overlay (p.bind externalId {})))
    (huser : (user = { id := id } ∨ user = { p.bind externalId {} with id := id }) ∨
      ∃ row ∈ db.users, user = row ∧ row.id = id) :
    Makes W ((p.bind externalId user).update ctx false) db := by
  have hid : (p.bind externalId user).id = id := by
    rw [Provider.bind_id]
    rcases huser with (rfl | rfl) | ⟨row, -, rfl, h⟩
    · rfl
    · rfl
    · exact h
  refine makes_update (g := fun u => u.overlay (p.bind externalId {})) (by rw [hid]; exact hW) ?_
  intro row hrow _ hrowid newUser hnew
  obtain rfl : _ = newUser := Except.ok.inj hnew
  rcases huser with (rfl | rfl) | ⟨x, hx, rfl, -⟩
  · cases p <;> rfl
  · cases p <;> rfl
  · obtain rfl : row = user := Table.eq_of_key hrow hx (hrowid.trans (Provider.bind_id _ _ _))
    rw [Provider.overlay_bind]

theorem makes_bindAccount {p : Provider} {externalId : String} {taken : M Bool} {takenMsg : String}
    {blank : User} {bound : Reply} (htaken : ReadOnly taken)
    (hblank : blank = {} ∨ blank = p.bind externalId {})
    (hW : ∀ id, s.cur.id = some id → W (.editId id fun u => u.overlay (p.bind externalId {}))) :
    Makes W (bindAccount ctx s taken takenMsg blank (fun u => p.bind externalId u) bound) db := by
  unfold bindAccount
  refine Makes.readOnly htaken fun isTaken => ?_
  cases isTaken with
  | true => exact Makes.pure
  | false =>
    rw [if_neg Bool.false_ne_true]
    cases hid : s.cur.id with
    | none => exact Makes.pure
    | some id =>
      dsimp only
      have hanswer : ∀ r : Option Err × User, ∃ b : Out,
          (match r.1 with
            | some e => (pure (s.apiError e) : M Out)
            | none => pure (s.answer bound)) = pure b := by
        rintro ⟨err, u⟩
        cases err <;> exact ⟨_, rfl⟩
      rcases hblank with rfl | rfl
      · refine Makes.read (fillUserById_sat id db).ends fun r hr => ?_
        obtain ⟨err, user⟩ := r
        cases err with
        | some e => exact Makes.pure
        | none =>
          refine Makes.answer (makes_bind (hW id hid) ?_) hanswer
          rcases hr with hr | ⟨row, hrow, hr, -, hrowid⟩
          · exact Or.inl (Or.inl hr)
          · exact Or.inr ⟨row, hrow, congrArg Prod.snd hr, hrowid⟩
      · refine Makes.read (fillBlank_ends id p externalId db) fun r hr => ?_
        obtain ⟨err, user⟩ := r
        cases err with
        | some e => exact Makes.pure
        | none =>
          refine Makes.answer (makes_bind (hW id hid) ?_) hanswer
          rcases hr with hr | hr
          · exact Or.inl (Or.inr hr)
          · exact Or.inr hr

/-! ### The logins -/

theorem makes_oauthLogin {taken : M Bool} {fill register : M (Option Err × User)} {checkGone : Bool}
    {free : Prop} (htaken : Ends taken (fun r db' => db' = db ∧ (r = false → free)) db)
    (hfill : ReadOnly fill)
    (hregister : free → env.cfg.registerEnabled = true → Makes W register db) :
    Makes W (oauthLogin env s taken fill checkGone register) db := by
  unfold oauthLogin
  refine Makes.read htaken fun isTaken hfree => ?_
  cases isTaken with
  | true =>
    rw [if_pos rfl]
    refine Makes.readOnly hfill fun r => ?_
    obtain ⟨err, user⟩ := r
    cases err with
    | some e => exact Makes.pure
    | none =>
      dsimp only
      split <;> exact Makes.pure
  | false =>
    rw [if_neg Bool.false_ne_true]
    split
    · exact Makes.pure
    · rename_i hoff
      rw [Bool.not_eq_true', Bool.not_eq_false] at hoff
      refine Makes.answer (hregister (hfree rfl) hoff) fun r => ?_
      obtain ⟨err, user⟩ := r
      cases err <;> exact ⟨_, rfl⟩

/-- The unscoped query sees every row. -/
theorem unclaimed_ends (p : Provider) (externalId : String) (db : DB) :
    Ends (alreadyTaken true fun u => p.column u == externalId) (fun r db' => db' = db ∧
      (r = false → Unclaimed db p externalId)) db := by
  have hends := alreadyTaken_ends true (fun u => p.column u == externalId) db
  refine ⟨hends.1, fun hr row hrow => ?_⟩
  exact beq_eq_false_iff_ne.mp (hends.2 hr row hrow rfl)

theorem usernameOr_ends (preferred stem : String) (db : DB) :
    Ends (usernameOr preferred stem) (fun r db' => db' = db ∧ (r = preferred ∧ preferred ≠ "" ∨
      preferred = "" ∧ r = stem ++ toString (maxId db + 1))) db := by
  unfold usernameOr
  split
  · rename_i hne
    exact Ends.pure ⟨rfl, Or.inl ⟨rfl, hne⟩⟩
  · rename_i he
    rw [not_not] at he
    refine (getMaxUserId_ends db).bind ?_
    rintro r db' ⟨rfl, rfl⟩
    exact Ends.pure ⟨rfl, Or.inr ⟨he, rfl⟩⟩

theorem firstLogin {state : String} (hstate : ¬ (!sameState s state) = true)
    (hout : ¬ s.cur.username.isSome = true) (hregister : env.cfg.registerEnabled = true) :
    FirstLogin env s.cur state := by
  refine ⟨?_, ?_, hregister⟩
  · rw [Bool.not_eq_true', Bool.not_eq_false] at hstate
    exact hstate
  · rw [Option.not_isSome_iff_eq_none] at hout
    exact hout

theorem makes_gitHubOAuth (req : OAuthRequest) (answer : Except Err GitHubUser) :
    Makes (Permits env ctx s.cur codes db (.login (.gitHubOAuth req answer)))
      (gitHubOAuth env ctx s req answer) db := by
  unfold gitHubOAuth gitHubBind
  split
  · exact Makes.pure
  rename_i hstate
  split
  · split
    · exact Makes.pure
    split
    · exact Makes.pure
    · rename_i hinfo
      exact makes_bindAccount (p := .gitHub) (alreadyTaken_readOnly _ _) (Or.inr rfl)
        fun id hid => .bound (.gitHub hinfo) hid
  rename_i hout
  split
  · exact Makes.pure
  split
  · exact Makes.pure
  · rename_i githubUser hinfo
    refine makes_oauthLogin (unclaimed_ends .gitHub githubUser.login db) (fillBy_readOnly _ _ _ _)
      fun hfree hregister => ?_
    refine Makes.read (getMaxUserId_ends db) fun n hn => ?_
    subst hn
    refine Makes.readOnly (sessionInviter_readOnly s) fun inviterId => ?_
    exact makes_insert fun row hnew =>
      .registered (.gitHub (firstLogin hstate hout hregister) hinfo hfree) hnew

theorem makes_discordOAuth (req : OAuthRequest) (answer : Except Err DiscordUser) :
    Makes (Permits env ctx s.cur codes db (.login (.discordOAuth req answer)))
      (discordOAuth env ctx s req answer) db := by
  unfold discordOAuth discordBind
  split
  · exact Makes.pure
  rename_i hstate
  split
  · split
    · exact Makes.pure
    split
    · exact Makes.pure
    · rename_i hinfo
      exact makes_bindAccount (p := .discord) (alreadyTaken_readOnly _ _) (Or.inr rfl)
        fun id hid => .bound (.discord hinfo) hid
  rename_i hout
  split
  · exact Makes.pure
  split
  · exact Makes.pure
  · rename_i discordUser hinfo
    have hname : discordUser.id ≠ "" := by
      unfold getDiscordUserInfoByCode at hinfo
      split_ifs at hinfo
      split at hinfo
      · cases hinfo
      · split_ifs at hinfo with hempty
        obtain rfl := Except.ok.inj hinfo
        exact fun h => hempty (Or.inr h)
    refine makes_oauthLogin (unclaimed_ends .discord discordUser.uid db) (fillBy_readOnly _ _ _ _)
      fun hfree hregister => ?_
    refine Makes.read (usernameOr_ends discordUser.id "discord_" db) fun username husername => ?_
    obtain ⟨rfl, -⟩ := husername.resolve_right fun h => hname h.1
    exact makes_insert fun row hnew =>
      .registered (.discord (firstLogin hstate hout hregister) hinfo hfree) hnew

theorem makes_oidcAuth (req : OAuthRequest) (answer : Except Err OidcUser) :
    Makes (Permits env ctx s.cur codes db (.login (.oidcAuth req answer)))
      (oidcAuth env ctx s req answer) db := by
  unfold oidcAuth oidcBind
  split
  · exact Makes.pure
  rename_i hstate
  split
  · split
    · exact Makes.pure
    split
    · exact Makes.pure
    · rename_i hinfo
      exact makes_bindAccount (p := .oidc) (alreadyTaken_readOnly _ _) (Or.inr rfl)
        fun id hid => .bound (.oidc hinfo) hid
  rename_i hout
  split
  · exact Makes.pure
  split
  · exact Makes.pure
  · rename_i oidcUser hinfo
    refine makes_oauthLogin (alreadyTaken_ends false _ db) (fillBy_readOnly _ _ _ _)
      fun hfree hregister => ?_
    have hlive : ∀ row ∈ db.users, row.live = true → row.oidcId ≠ oidcUser.openID :=
      fun row hrow hlive => beq_eq_false_iff_ne.mp (hfree row hrow hlive)
    refine Makes.read (usernameOr_ends oidcUser.preferredUsername "oidc_" db)
      fun username husername => ?_
    have hname := husername.imp_left And.left
    exact makes_insert fun row hnew =>
      .registered (.oidc (firstLogin hstate hout hregister) hinfo hlive hname) hnew

theorem makes_linuxdoOAuth (refusal : Option String) (req : OAuthRequest)
    (answer : Except Err LinuxdoUser) :
    Makes (Permits env ctx s.cur codes db (.login (.linuxdoOAuth refusal req answer)))
      (linuxdoOAuth env ctx s refusal req answer) db := by
  unfold linuxdoOAuth linuxDoBind
  cases refusal with
  | some errorDescription => exact Makes.pure
  | none =>
    dsimp only
    split
    · exact Makes.pure
    rename_i hstate
    split
    · split
      · exact Makes.pure
      split
      · exact Makes.pure
      · rename_i hinfo
        exact makes_bindAccount (p := .linuxDO) (isLinuxDOIdAlreadyTaken_readOnly _) (Or.inr rfl)
          fun id hid => .bound (.linuxDO hinfo) hid
    rename_i hout
    split
    · exact Makes.pure
    split
    · exact Makes.pure
    · rename_i linuxdoUser hinfo
      have hfill : ReadOnly
          (User.fillUserByLinuxDOId { linuxDOId := toString linuxdoUser.id }) := by
        unfold User.fillUserByLinuxDOId
        split
        · exact Prog.Only.pure
        · exact User.first_readOnly _ _ _
      refine makes_oauthLogin (isLinuxDOIdAlreadyTaken_ends _ db) hfill fun hfree hregister => ?_
      split
      · exact Makes.pure
      · refine Makes.read (getMaxUserId_ends db) fun n hn => ?_
        subst hn
        refine Makes.readOnly (sessionInviter_readOnly s) fun inviterId => ?_
        exact makes_insert fun row hnew =>
          .registered (.linuxdo (firstLogin hstate hout hregister) hinfo hfree) hnew

theorem makes_weChatAuth (code : String) (answer : Except Err String) :
    Makes (Permits env ctx s.cur codes db (.login (.weChatAuth code answer)))
      (weChatAuth env ctx s code answer) db := by
  unfold weChatAuth
  split
  · exact Makes.pure
  split
  · exact Makes.pure
  · rename_i wechatId hinfo
    refine makes_oauthLogin (unclaimed_ends .weChat wechatId db) (fillBy_readOnly _ _ _ _)
      fun hfree hregister => ?_
    refine Makes.read (getMaxUserId_ends db) fun n hn => ?_
    subst hn
    exact makes_insert fun row hnew => .registered (.weChat hinfo hregister hfree) hnew

theorem makes_weChatBind (code : String) (answer : Except Err String) :
    Makes (Permits env ctx s.cur codes db (.weChatBind code answer))
      (weChatBind env ctx s code answer) db := by
  unfold weChatBind
  split
  · exact Makes.pure
  split
  · exact Makes.pure
  · rename_i hinfo
    exact makes_bindAccount (p := .weChat) (alreadyTaken_readOnly _ _) (Or.inl rfl)
      fun id hid => .bound (.weChat hinfo) hid

theorem makes_telegramBind (params : Params) :
    Makes (Permits env ctx s.cur codes db (.telegramBind params))
      (telegramBind env ctx s params) db := by
  unfold telegramBind
  split
  · exact Makes.pure
  split
  · exact Makes.pure
  split
  · exact Makes.pure
  · rename_i telegramId hparam
    refine Makes.readOnly (alreadyTaken_readOnly _ _) fun isTaken => ?_
    cases isTaken with
    | true => exact Makes.pure
    | false =>
      rw [if_neg Bool.false_ne_true]
      cases hid : s.cur.id with
      | none => exact Makes.pure
      | some id =>
        dsimp only
        refine Makes.read (fillUserById_sat id db).ends fun r hr => ?_
        obtain ⟨err, user⟩ := r
        cases err with
        | some e => exact Makes.pure
        | none =>
          dsimp only
          split
          · exact Makes.pure
          refine Makes.answer (makes_bind (p := .telegram) (.bound (.telegram hparam) hid) ?_)
            fun r => ?_
          · rcases hr with hr | ⟨row, hrow, hr, -, hrowid⟩
            · exact Or.inl (Or.inl hr)
            · exact Or.inr ⟨row, hrow, congrArg Prod.snd hr, hrowid⟩
          · obtain ⟨err, u⟩ := r
            cases err <;> exact ⟨_, rfl⟩

theorem passkeyLoginFinish_cores (env : Env) (ctx : Ctx) (s : Sess) (body : String) (db : DB) :
    Sat (passkeyLoginFinish env ctx s body) (fun _ db' => cores db' = cores db) db := by
  unfold passkeyLoginFinish
  split
  · exact Sat.pure rfl
  split
  · exact Sat.pure rfl
  split
  · exact Sat.pure rfl
  split
  · exact Sat.pure rfl
  · rename_i rawID userHandle _
    refine (passkeyLoginHandler_sat rawID userHandle db).bind ?_
    rintro r db₁ ⟨hdb, -⟩
    have hsame := cores_congr hdb
    cases r with
    | error e => exact Sat.pure hsame
    | ok found =>
      dsimp only
      split
      · exact Sat.pure hsame
      split
      · exact Sat.pure hsame
      · unfold upsertPasskeyCredential
        refine Sat.bind (R := fun _ db₂ => cores db₂ = cores db) ?_ ?_
        · refine Sat.perform fun r db₂ hmay => ?_
          have husers := (cores_congr (hmay.users rfl)).trans hsame
          cases r <;> exact Sat.pure husers
        · intro err db₂ h₂
          cases err <;> exact Sat.pure h₂

theorem makes_login (path : LoginPath) :
    Makes (Permits env ctx s.cur codes db (.login path)) (LoginGate.handle env ctx s path) db := by
  unfold LoginGate.handle
  cases path with
  | login req =>
    exact Makes.of_same (Prog.Holds.mono ((login_readOnly env s req).sat db)
      fun _ _ h => cores_congr (congrArg DB.users h))
  | verify2FALogin code =>
    exact Makes.of_same (Prog.Holds.mono (verify2FALogin_sat env ctx s code db)
      fun _ _ h => cores_congr h.1)
  | passkeyLoginFinish body => exact Makes.of_same (passkeyLoginFinish_cores env ctx s body db)
  | gitHubOAuth req answer => exact makes_gitHubOAuth req answer
  | discordOAuth req answer => exact makes_discordOAuth req answer
  | oidcAuth req answer => exact makes_oidcAuth req answer
  | linuxdoOAuth refusal req answer => exact makes_linuxdoOAuth refusal req answer
  | weChatAuth code answer => exact makes_weChatAuth code answer
  | telegramLogin params =>
    exact Makes.of_same (Prog.Holds.mono ((telegramLogin_readOnly env s params).sat db)
      fun _ _ h => cores_congr (congrArg DB.users h))

/-! ### Every request -/

/-- A handler makes what it may make of the accounts. -/
theorem route_changes (q : Request) :
    Makes (Permits env ctx s.cur codes db q) (route env codes s ctx q) db := by
  unfold route
  cases q with
  | register req => exact makes_register req
  | createUser req => exact makes_createUser req
  | updateUser req => exact makes_updateUser req
  | manageUser req => exact makes_manageUser req
  | deleteUser idParam => exact makes_deleteUser idParam
  | updateSelf req => exact makes_updateSelf req
  | deleteSelf => exact makes_deleteSelf
  | generateAccessToken => exact makes_generateAccessToken
  | getAffCode => exact makes_getAffCode
  | updateUserSetting req => exact makes_updateUserSetting _ req
  | emailBind email code => exact makes_emailBind
  | weChatBind code answer => exact makes_weChatBind code answer
  | telegramBind params => exact makes_telegramBind params
  | login path => exact makes_login path
  | rest handler h => exact Makes.spares (h ctx s)
  | postSetup | sendEmailVerification | sendPasswordResetEmail | resetPassword => exact Makes.pure

/-- The context that the handler of a request is given: that of the request, or
what `authHelper` made of it. -/
def Granted (a : Act) (db : DB) (ctx : Ctx) : Prop :=
  match minRole a.request with
  | none => ctx = a.ctx
  | some role => ∃ auth, (authHelper role a.cookie a.authorization).run exec db = (.ok auth, db) ∧
      ctx = auth.toCtx a.ctx

/-- What a request may make of the accounts, whoever sends it. -/
def Effect (a : Act) (codes : VerificationMap) (db : DB) (c : Change) : Prop :=
  ∃ ctx, Granted a db ctx ∧ Permits a.env ctx a.cookie codes db a.request c

theorem guarded_changes (a : Act) (codes : VerificationMap) (db : DB) :
    Makes (Effect a codes db) (guarded a codes) db := by
  unfold guarded
  cases hrole : minRole a.request with
  | none =>
    have hroute : Makes (Permits a.env a.ctx a.cookie codes db a.request)
        (route a.env codes (Sess.ofCookie a.cookie) a.ctx a.request) db := route_changes a.request
    obtain ⟨c, hc, hcores⟩ := hroute
    refine ⟨c, hc.imp_right fun h => ⟨a.ctx, ?_, h⟩, hcores⟩
    unfold Granted
    rw [hrole]
  | some role =>
    dsimp only
    unfold behind
    have hauth : Ends (authHelper role a.cookie a.authorization) (fun r db' => db' = db ∧
        (authHelper role a.cookie a.authorization).run exec db = (r, db)) db := by
      have hdb := ((authHelper_readOnly role a.cookie a.authorization).sat db).run
      exact ⟨hdb, Prod.ext rfl hdb⟩
    refine Makes.read hauth fun r hr => ?_
    cases r with
    | error reply => exact Makes.pure
    | ok auth =>
      have hroute : Makes (Permits a.env (auth.toCtx a.ctx) a.cookie codes db a.request)
          (route a.env codes (Sess.ofCookie a.cookie) (auth.toCtx a.ctx) a.request) db :=
        route_changes a.request
      obtain ⟨c, hc, hcores⟩ := hroute
      refine ⟨c, hc.imp_right fun h => ⟨auth.toCtx a.ctx, ?_, h⟩, hcores⟩
      unfold Granted
      rw [hrole]
      exact ⟨auth, hr, rfl⟩

theorem makes_resetPassword (req : Option PasswordResetRequest) :
    Makes (Permits env ctx s.cur codes db (.resetPassword req)) (resetPassword ctx s codes req)
      db := by
  unfold resetPassword
  cases req with
  | none => exact Makes.pure
  | some req =>
    dsimp only
    split
    · exact Makes.pure
    by_cases hcode : codes.verify ctx.now req.email req.token passwordResetPurpose = true
    · rw [hcode, Bool.not_true, if_neg Bool.false_ne_true]
      refine Makes.answer ?_ fun r => ?_
      · unfold resetUserPasswordByEmail
        split
        · exact Makes.pure
        split
        · exact Makes.pure
        · rename_i hash hhash
          have hpermits : Permits env ctx s.cur codes db (.resetPassword (some req))
              (.edit (fun u => u.email == req.email) fun u => { u with password := hash }) :=
            .passwordReset hcode hhash
          refine Makes.of_cores hpermits
            (Sat.perform fun r db' h => Sat.pure ?_)
          exact cores_userUpdates (f := fun u => { u with password := hash })
            (g := fun u => { u with password := hash }) (fun _ _ _ _ => rfl) h
      · cases r <;> exact ⟨_, rfl⟩
    · rw [Bool.not_eq_true] at hcode
      rw [hcode]
      exact Makes.pure

/-- **A request makes one permitted change of the accounts, or none.** -/
theorem handle_changes (a : Act) (codes : VerificationMap) (db : DB) :
    Makes (Effect a codes db) (handle a codes) db := by
  have hguarded : Makes (Effect a codes db) (do return (← guarded a codes, codes)) db :=
    Makes.answer (guarded_changes a codes db) fun _ => ⟨_, rfl⟩
  unfold handle
  cases hq : a.request with
  | sendEmailVerification email =>
    dsimp only
    unfold sendEmailVerification
    split
    · exact Makes.pure
    · refine Makes.readOnly (isEmailAlreadyTaken_readOnly email) fun isTaken => ?_
      split <;> exact Makes.pure
  | sendPasswordResetEmail email =>
    dsimp only
    unfold sendPasswordResetEmail
    split
    · exact Makes.pure
    · refine Makes.readOnly (isEmailAlreadyTaken_readOnly email) fun isTaken => ?_
      split <;> exact Makes.pure
  | resetPassword req =>
    have hreset : Makes (Permits a.env a.ctx a.cookie codes db (.resetPassword req))
        (resetPassword a.ctx (Sess.ofCookie a.cookie) codes req) db := makes_resetPassword req
    obtain ⟨c, hc, hcores⟩ := hreset
    refine ⟨c, hc.imp_right fun h => ⟨a.ctx, ?_, ?_⟩, hcores⟩
    · unfold Granted
      rw [hq]
      rfl
    · rw [hq]
      exact h
  | _ => exact hguarded

theorem rootUserExists_ends (db : DB) :
    Ends rootUserExists (fun r db' => db' = db ∧ (r = true ↔ ∃ row ∈ db.users,
      row.live = true ∧ row.role = roleRootUser)) db := by
  unfold rootUserExists
  refine Ends.perform ?_
  simp only [exec]
  cases hfind : db.users.find? (seen false fun u => u.role == roleRootUser) with
  | some row =>
    refine Ends.pure ⟨rfl, fun _ => ⟨row, Table.find?_mem hfind, ?_⟩, fun _ => rfl⟩
    simpa [seen] using Table.find?_holds hfind
  | none =>
    refine Ends.pure ⟨rfl, fun h => absurd h (by decide), ?_⟩
    rintro ⟨row, hrow, hlive, hrole⟩
    have hnot := Table.find?_eq_none.mp hfind row hrow
    simp [seen, hlive, hrole] at hnot

/-- What the form of the setup is checked for. -/
def SetupChecked (req : SetupRequest) : Prop :=
  len req.username ≤ 12 ∧ req.password = req.confirmPassword ∧ 8 ≤ len req.password

/-- The account that a setup creates. -/
def CreatesRoot (ctx : Ctx) (req : SetupRequest) (db : DB) (row : User) : Prop :=
  SetupChecked req ∧ ∃ password, ctx.password2Hash req.password = .ok password ∧
    IsNew db (rootUser req password) row

theorem createRoot_ends (ctx : Ctx) (req : SetupRequest) (db : DB) :
    Ends (createRoot ctx req) (fun r db' => (r ≠ none ∧ db' = db) ∨ (r = none ∧
      ∃ row, CreatesRoot ctx req db row ∧ cores db' = (Change.create row).cores db)) db := by
  unfold createRoot
  split
  · exact Ends.pure (Or.inl ⟨Option.some_ne_none _, rfl⟩)
  rename_i hname
  split
  · exact Ends.pure (Or.inl ⟨Option.some_ne_none _, rfl⟩)
  rename_i hsame
  split
  · exact Ends.pure (Or.inl ⟨Option.some_ne_none _, rfl⟩)
  rename_i hlen
  have hchecked : SetupChecked req := ⟨by omega, not_not.mp hsame, by omega⟩
  cases hhash : ctx.password2Hash req.password with
  | error e => exact Ends.pure (Or.inl ⟨Option.some_ne_none _, rfl⟩)
  | ok password =>
    dsimp only
    obtain ⟨hok, herror⟩ := userCreate_new (may_exec (.userCreate (rootUser req password)) db)
    refine Ends.perform ?_
    cases hr : (exec (.userCreate (rootUser req password)) db).1 with
    | error e => exact Ends.pure (Or.inl ⟨Option.some_ne_none _, herror e hr⟩)
    | ok row =>
      obtain ⟨hnew, hcores⟩ := hok row hr
      exact Ends.pure (Or.inr ⟨rfl, row, ⟨hchecked, password, hhash, hnew⟩, hcores⟩)

theorem finishSetup_accounts (req : SetupRequest) (g : Gateway) :
    (finishSetup req g).2.accounts = g.accounts ∧ (finishSetup req g).2.setup = true := by
  unfold finishSetup
  dsimp only
  split <;> exact ⟨rfl, rfl⟩

/-- The database has a live account of the role of root. -/
def HasRoot (db : DB) : Prop := ∃ row ∈ db.users, row.live = true ∧ row.role = roleRootUser

/-- What `PostSetup` does on a database in order: nothing once the setup is done,
and one new account of the role of root otherwise, if there is none and the
request is not refused. -/
theorem postSetup_accounts (ctx : Ctx) (req : Option SetupRequest) (p : Process) (setup : Bool)
    (db : DB) :
    let r := postSetup ctx req ⟨p, setup, Store.ofDB db⟩
    (setup = true → r.2.setup = true) ∧
      (r.2.accounts.db = db ∧ (HasRoot db ∨ ∃ msg, r.1 = .failure msg) ∨
        setup = false ∧ ¬ HasRoot db ∧ ∃ q row, req = some q ∧ CreatesRoot ctx q db row ∧
          cores r.2.accounts.db = (Change.create row).cores db) := by
  unfold postSetup
  cases setup with
  | true => exact ⟨fun h => h, Or.inl ⟨rfl, Or.inr ⟨_, rfl⟩⟩⟩
  | false =>
    rw [if_neg Bool.false_ne_true, serve_ofDB]
    obtain ⟨hdb, hiff⟩ := rootUserExists_ends db
    refine ⟨fun h => absurd h Bool.false_ne_true, ?_⟩
    cases req with
    | none => exact Or.inl ⟨hdb, Or.inr ⟨_, rfl⟩⟩
    | some req =>
      dsimp only
      cases hroot : (rootUserExists.run exec db).1 with
      | true =>
        rw [if_pos rfl, (finishSetup_accounts req _).1]
        exact Or.inl ⟨hdb, Or.inl (hiff.mp hroot)⟩
      | false =>
        have hnone : ¬ HasRoot db := by
          intro h
          rw [hiff.mpr h] at hroot
          cases hroot
        rw [if_neg Bool.false_ne_true, serve_ofDB, hdb]
        rcases createRoot_ends ctx req db with ⟨hr, hsame⟩ | ⟨hr, row, hnew, hcores⟩
        · cases hrefusal : ((createRoot ctx req).run exec db).1 with
          | none => exact absurd hrefusal hr
          | some msg => exact Or.inl ⟨hsame, Or.inr ⟨msg, rfl⟩⟩
        · rw [hr]
          dsimp only
          rw [(finishSetup_accounts req _).1]
          exact Or.inr ⟨rfl, hnone, req, row, rfl, hnew, hcores⟩

/-- What a step may make of the accounts. -/
inductive Allowed (sys : System) (a : Act) : Change → Prop
  | handled {c : Change} (h : Effect a sys.codes sys.db c) : Allowed sys a c
  | rootCreated {req : SetupRequest} {row : User} (hreq : a.request = .postSetup (some req))
      (hsetup : sys.setup = false)
      (hroot : ¬ HasRoot sys.db) (hnew : CreatesRoot a.ctx req sys.db row) : Allowed sys a (.create row)

/-- **What a step makes of the accounts.** -/
theorem step_changes (sys : System) (a : Act) :
    ∃ c, (c = .keep ∨ Allowed sys a c) ∧ cores (step sys a).db = c.cores sys.db := by
  have hhandle : ∃ c, (c = .keep ∨ Allowed sys a c) ∧
      cores ((handle a sys.codes).run exec sys.db).2 = c.cores sys.db := by
    obtain ⟨c, hc, hcores⟩ := handle_changes a sys.codes sys.db
    exact ⟨c, hc.imp_right .handled, hcores⟩
  unfold step
  cases hq : a.request with
  | postSetup req =>
    dsimp only
    obtain ⟨-, ⟨hsame, -⟩ | ⟨hsetup, hroot, r, row, rfl, hnew, hcores⟩⟩ :=
      postSetup_accounts a.ctx req sys.process sys.setup sys.db
    · exact ⟨.keep, Or.inl rfl, congrArg cores hsame⟩
    · exact ⟨_, Or.inr (.rootCreated hq hsetup hroot hnew), hcores⟩
  | _ => exact hhandle

theorem step_setup {sys : System} (h : sys.setup = true) (a : Act) : (step sys a).setup = true := by
  unfold step
  cases a.request with
  | postSetup req => exact (postSetup_accounts a.ctx req sys.process sys.setup sys.db).1 h
  | _ => exact h

end AuthGateway.Accounts
