import AuthGateway.Controller.OAuth
import AuthGateway.Controller.SecureVerification
import AuthGateway.Model.Account

/-!
# Who may sign in

The nine handlers that reach `setupLogin`.  `Admits` says of one request that
whomever it signs in has, when it does, a live row with status enabled.

The OAuth handlers, the password and the passkey compare the status of the row
they read; an account they register is enabled from the start and stays so
through the rest of the registration (`insert_stands`).  `TelegramLogin` and
`Verify2FALogin` compare nothing, and `Telegram`'s lookup takes a failed read for
a user.  **These two are all there is to it** (`admits_iff`): a request admits
live, enabled accounts only, unless it is one of `Unchecked`.
-/

namespace AuthGateway.LoginGate

open Common Model Controller GoString

/-- The user `id` has a live row with status enabled. -/
def Enabled (db : DB) (id : Int) : Prop :=
  ∃ row ∈ db.users, row.id = id ∧ row.live = true ∧ row.status = userStatusEnabled

/-! ### The handlers -/

inductive LoginPath
  | login (req : Option LoginRequest)
  | verify2FALogin (code : Option String)
  | passkeyLoginFinish (body : String)
  | gitHubOAuth (req : OAuthRequest) (answer : Except Err GitHubUser)
  | discordOAuth (req : OAuthRequest) (answer : Except Err DiscordUser)
  | oidcAuth (req : OAuthRequest) (answer : Except Err OidcUser)
  | linuxdoOAuth (refusal : Option String) (req : OAuthRequest) (answer : Except Err LinuxdoUser)
  | weChatAuth (code : String) (answer : Except Err String)
  | telegramLogin (params : Params)

def handle (env : Env) (ctx : Ctx) (s : Sess) : LoginPath → M Out
  | .login req => login env s req
  | .verify2FALogin code => verify2FALogin env ctx s code
  | .passkeyLoginFinish body => passkeyLoginFinish env ctx s body
  | .gitHubOAuth req answer => gitHubOAuth env ctx s req answer
  | .discordOAuth req answer => discordOAuth env ctx s req answer
  | .oidcAuth req answer => oidcAuth env ctx s req answer
  | .linuxdoOAuth refusal req answer => linuxdoOAuth env ctx s refusal req answer
  | .weChatAuth code answer => weChatAuth env ctx s code answer
  | .telegramLogin params => telegramLogin env s params

/-- Whomever the request signs in is live and enabled. -/
def Admits (env : Env) (ctx : Ctx) (s : Sess) (q : LoginPath) (st : Store) : Prop :=
  ∀ u, (serve (handle env ctx s q) st).1.login = some u →
    Enabled (serve (handle env ctx s q) st).2.db u.id

/-- What a handler that keeps to the gate ends in. -/
abbrev Kept (out : Out) (db : DB) : Prop := ∀ u, out.login = some u → Enabled db u.id

theorem enabled_row {db : DB} {row : User} (hmem : row ∈ db.users) (hlive : row.live = true)
    (hstatus : row.status = userStatusEnabled) : Enabled db row.id :=
  ⟨row, hmem, rfl, hlive, hstatus⟩

/-- A user who is enabled has one row, and that one is enabled. -/
theorem Enabled.of_id {db : DB} {id : Int} (h : Enabled db id) {row : User} (hmem : row ∈ db.users)
    (hid : row.id = id) : row.live = true ∧ row.status = userStatusEnabled := by
  obtain ⟨row', hmem', hid', hlive, hstatus⟩ := h
  have he : row = row' := Table.eq_of_key hmem hmem' (hid.trans hid'.symm)
  rw [he]
  exact ⟨hlive, hstatus⟩

theorem Enabled.users {db db' : DB} {id : Int} (h : Enabled db id) (hdb : db'.users = db.users) :
    Enabled db' id := by
  unfold Enabled
  rw [hdb]
  exact h

/-! ### Whom a handler signs in -/

/-- The account has a live row, with the status and the role of the struct. -/
def Stands (db : DB) (u : User) : Prop :=
  ∃ row ∈ db.users, row.live = true ∧ row.id = u.id ∧ row.status = u.status ∧ row.role = u.role

theorem stands_row {db : DB} {row : User} (hmem : row ∈ db.users) (hlive : row.live = true) :
    Stands db row :=
  ⟨row, hmem, hlive, rfl, rfl, rfl⟩

theorem Stands.users {db db' : DB} {u : User} (h : Stands db u) (hdb : db'.users = db.users) :
    Stands db' u := by
  unfold Stands
  rw [hdb]
  exact h

theorem Stands.enabled {db : DB} {u : User} (h : Stands db u)
    (hstatus : u.status = userStatusEnabled) : Enabled db u.id := by
  obtain ⟨row, hmem, hlive, hid, hrow, -⟩ := h
  exact ⟨row, hmem, hid, hlive, hrow.trans hstatus⟩

/-- The login in the session is the same. -/
def SameLogin (c c' : Session) : Prop :=
  c'.id = c.id ∧ c'.username = c.username ∧ c'.role = c.role ∧ c'.status = c.status

theorem SameLogin.refl (c : Session) : SameLogin c c := ⟨rfl, rfl, rfl, rfl⟩

/-- The cookie has a login that the session had. -/
def Remains (s : Sess) (cookie : Session) : Prop := SameLogin s.saved cookie ∨ SameLogin s.cur cookie

/-- **How a login ends**: with nobody, or with an account that stands; the cookie
has the login from before, or is signed in as that account. -/
inductive Signs (s : Sess) (out : Out) (db : DB) : Prop
  | nobody (hlogin : out.login = none) (hcookie : Remains s out.cookie)
  | somebody (u : User) (hlogin : out.login = some u) (hstands : Stands db u)
      (hcookie : Remains s out.cookie ∨ ∃ c, out.cookie = Session.signIn u c)

/-- Whoever is signed in is enabled as the handler sees it. -/
def Checked (out : Out) : Prop := ∀ u, out.login = some u → u.status = userStatusEnabled

/-- The end of a handler that looks at the status. -/
abbrev Gated (s : Sess) (out : Out) (db : DB) : Prop := Signs s out db ∧ Checked out

theorem gated_answer (s : Sess) (r : Reply) (db : DB) : Gated s (s.answer r) db := by
  refine ⟨.nobody rfl (Or.inl (SameLogin.refl _)), ?_⟩
  intro u hu
  exact nomatch hu

theorem Gated.kept {s : Sess} {out : Out} {db : DB} (h : Gated s out db) : Kept out db := by
  intro u hu
  obtain ⟨hsigns, hchecked⟩ := h
  cases hsigns with
  | nobody hnone =>
    rw [hnone] at hu
    exact nomatch hu
  | somebody v hsome hstands =>
    rw [hsome] at hu
    obtain rfl := Option.some.inj hu
    exact hstands.enabled (hchecked v hsome)

/-- The login of a session whose ceremony was taken out is that of the session. -/
theorem Signs.of_popped {s s' : Sess} {out : Out} {db : DB} (h : Signs s' out db)
    (hcur : SameLogin s.cur s'.cur) (hsaved : Remains s s'.saved) : Signs s out db := by
  have htrans : ∀ {a b c : Session}, SameLogin a b → SameLogin b c → SameLogin a c := by
    rintro a b c ⟨h₁, h₂, h₃, h₄⟩ ⟨g₁, g₂, g₃, g₄⟩
    exact ⟨g₁.trans h₁, g₂.trans h₂, g₃.trans h₃, g₄.trans h₄⟩
  have hremains : Remains s' out.cookie → Remains s out.cookie := by
    rintro (hc | hc)
    · exact hsaved.imp (fun h => htrans h hc) fun h => htrans h hc
    · exact Or.inr (htrans hcur hc)
  cases h with
  | nobody hlogin hcookie => exact .nobody hlogin (hremains hcookie)
  | somebody u hlogin hstands hcookie =>
    exact .somebody u hlogin hstands (hcookie.imp_left hremains)

theorem Signs.withChecks {s : Sess} {out : Out} {db : DB} (h : Signs s out db)
    (checks : List (Int × Except Err Bool)) : Signs s (out.withChecks checks) db := by
  cases h with
  | nobody hlogin hcookie => exact .nobody hlogin hcookie
  | somebody u hlogin hstands hcookie => exact .somebody u hlogin hstands hcookie

theorem Gated.withChecks {s : Sess} {out : Out} {db : DB} (h : Gated s out db)
    (checks : List (Int × Except Err Bool)) : Gated s (out.withChecks checks) db :=
  ⟨h.1.withChecks checks, h.2⟩

theorem signs_setupLogin (env : Env) (s : Sess) {user : User} {db : DB} (h : Stands db user) :
    Signs s (setupLogin env s user) db := by
  refine .somebody user (setupLogin_login env s user) h ?_
  rcases setupLogin_cookie env s user with hcookie | hcookie
  · rw [hcookie]
    exact Or.inl (Or.inl (SameLogin.refl _))
  · exact Or.inr ⟨s.cur, hcookie⟩

theorem checked_setupLogin (env : Env) (s : Sess) {user : User}
    (h : user.status = userStatusEnabled) : Checked (setupLogin env s user) := by
  intro u hu
  rw [setupLogin_login] at hu
  obtain rfl := Option.some.inj hu
  exact h

/-! ### Registration -/

/-- **An account that is registered stands**, at the end of the registration too. -/
theorem insert_stands (env : Env) (ctx : Ctx) {user : User} (hdeleted : user.deletedAt = none)
    (inviterId : Int) (db : DB) :
    Sat (User.insert env ctx user inviterId) (fun r db' => r.1 = none → Stands db' r.2) db := by
  refine Prog.Holds.mono (insert_cores env ctx user inviterId db) ?_
  rintro r db' (⟨e, herror, -⟩ | ⟨-, newUser, hhash, hnew, hcores⟩) hnone
  · rw [herror] at hnone
    cases hnone
  · have hmem : r.2.core ∈ cores db' := by
      rw [hcores]
      exact Set.mem_insert _ _
    obtain ⟨row, hrow, hcore⟩ := hmem
    obtain ⟨password, rfl, -⟩ := hashPassword_fields hhash
    obtain ⟨text, htext⟩ := toInsert_eq env ctx { user with password := password }
    rw [htext] at hnew
    obtain ⟨k, hcolumns⟩ := hnew.columns
    have hlive : r.2.live = true := by
      rw [hcolumns]
      show user.deletedAt.isNone = true
      rw [hdeleted]
      rfl
    refine ⟨row, hrow, ?_, (User.core_id hcore).symm, ?_, (User.core_role hcore).symm⟩
    · rw [← User.core_congr (f := User.live) (fun _ => rfl) hcore]
      exact hlive
    · exact (User.core_congr (f := User.status) (fun _ => rfl) hcore).symm

/-! ### The handlers that compare the status -/

theorem gated_admitLogin (env : Env) (s : Sess) {user : User} {db : DB}
    (h : user.status = userStatusEnabled → Stands db user) :
    Gated s (admitLogin env s user) db := by
  unfold admitLogin
  by_cases hstatus : user.status = userStatusEnabled
  · rw [if_neg (not_not.mpr hstatus)]
    exact ⟨signs_setupLogin env s (h hstatus), checked_setupLogin env s hstatus⟩
  · rw [if_pos hstatus]
    exact gated_answer s _ _

/-- The shared body of the OAuth logins keeps to the gate, when filling a struct
that is enabled means finding its row, and registering one means storing it. -/
theorem oauthLogin_gated (env : Env) (s : Sess) (taken : M Bool)
    {fill register : M (Option Err × User)} (checkGone : Bool)
    (hfill : ∀ db, Sat fill (fun r db' => r.2.status = userStatusEnabled → Stands db' r.2) db)
    (hregister : ∀ db, Sat register (fun r db' => r.1 = none → Stands db' r.2) db) (db : DB) :
    Sat (oauthLogin env s taken fill checkGone register) (Gated s) db := by
  unfold oauthLogin
  refine (Prog.Holds.trivial taken db).bind ?_
  intro isTaken db₁ _
  cases isTaken with
  | true =>
    rw [if_pos rfl]
    refine (hfill db₁).bind ?_
    rintro ⟨err, user⟩ db₂ hr
    cases err with
    | some e => exact Sat.pure (gated_answer s _ _)
    | none =>
      dsimp only
      split
      · exact Sat.pure (gated_answer s _ _)
      · exact Sat.pure (gated_admitLogin env s hr)
  | false =>
    rw [if_neg Bool.false_ne_true]
    split
    · exact Sat.pure (gated_answer s _ _)
    · refine (hregister db₁).bind ?_
      rintro ⟨err, user⟩ db₂ hr
      cases err with
      | some e => exact Sat.pure (gated_answer s _ _)
      | none => exact Sat.pure (gated_admitLogin env s fun _ => hr rfl)

/-- A struct filled by one column is enabled only if its row is: an empty struct
has status zero. -/
theorem fillBy_stands {user : User} (hstatus : user.status = 0) (isEmpty : Bool) (msg : String)
    (p : User → Bool) (db : DB) : Sat (user.fillBy isEmpty msg p) (fun r db' =>
      r.2.status = userStatusEnabled → Stands db' r.2) db := by
  refine Prog.Holds.mono (user.fillBy_sat isEmpty msg p db) ?_
  intro r db' hr henabled
  obtain ⟨rfl, hr⟩ := hr
  rcases hr with he | ⟨row, hmem, rfl, hlive, -, -⟩
  · rw [he, hstatus] at henabled
    exact absurd henabled (by decide)
  · exact stands_row hmem hlive

theorem fillUserByLinuxDOId_stands {user : User} (hstatus : user.status = 0) (db : DB) :
    Sat user.fillUserByLinuxDOId (fun r db' =>
      r.2.status = userStatusEnabled → Stands db' r.2) db := by
  have hblank : user.status ≠ userStatusEnabled := by
    rw [hstatus]
    decide
  unfold User.fillUserByLinuxDOId
  split
  · exact Sat.pure fun henabled => absurd henabled hblank
  · refine Prog.Holds.mono (user.first_sat false _ db) ?_
    intro r db' hr henabled
    obtain ⟨rfl, hr⟩ := hr
    rcases hr with ⟨e, rfl⟩ | ⟨row, hmem, rfl, hlive, -, -⟩
    · exact absurd henabled hblank
    · exact stands_row hmem (by simpa using hlive)

/-- Binding an account to an outside identity signs nobody in. -/
theorem bindAccount_gated (ctx : Ctx) (s : Sess) (taken : M Bool) (takenMsg : String)
    (blank : User) (set : User → User) (bound : Reply) (db : DB) :
    Sat (bindAccount ctx s taken takenMsg blank set bound) (Gated s) db := by
  unfold bindAccount
  refine (Prog.Holds.trivial taken db).bind ?_
  intro isTaken db₁ _
  split
  · exact Sat.pure (gated_answer s _ _)
  · split
    · exact Sat.pure (gated_answer s _ _)
    · refine (Prog.Holds.trivial _ db₁).bind ?_
      rintro ⟨err, user⟩ db₂ -
      cases err with
      | some e => exact Sat.pure (gated_answer s _ _)
      | none =>
        refine (Prog.Holds.trivial _ db₂).bind ?_
        rintro ⟨err, user'⟩ db₃ -
        cases err <;> exact Sat.pure (gated_answer s _ _)

theorem gitHubOAuth_gated (env : Env) (ctx : Ctx) (s : Sess) (req : OAuthRequest)
    (answer : Except Err GitHubUser) (db : DB) :
    Sat (gitHubOAuth env ctx s req answer) (Gated s) db := by
  unfold gitHubOAuth gitHubBind
  split
  · exact Sat.pure (gated_answer s _ _)
  split
  · split
    · exact Sat.pure (gated_answer s _ _)
    split
    · exact Sat.pure (gated_answer s _ _)
    · exact bindAccount_gated _ _ _ _ _ _ _ _
  split
  · exact Sat.pure (gated_answer s _ _)
  split
  · exact Sat.pure (gated_answer s _ _)
  · refine oauthLogin_gated env s _ true (fun db => fillBy_stands rfl _ _ _ db) ?_ db
    intro db
    refine (Prog.Holds.trivial _ db).bind ?_
    intro maxId db₁ _
    refine (Prog.Holds.trivial _ db₁).bind ?_
    intro inviterId db₂ _
    exact insert_stands env ctx rfl inviterId db₂

theorem discordOAuth_gated (env : Env) (ctx : Ctx) (s : Sess) (req : OAuthRequest)
    (answer : Except Err DiscordUser) (db : DB) :
    Sat (discordOAuth env ctx s req answer) (Gated s) db := by
  unfold discordOAuth discordBind
  split
  · exact Sat.pure (gated_answer s _ _)
  split
  · split
    · exact Sat.pure (gated_answer s _ _)
    split
    · exact Sat.pure (gated_answer s _ _)
    · exact bindAccount_gated _ _ _ _ _ _ _ _
  split
  · exact Sat.pure (gated_answer s _ _)
  split
  · exact Sat.pure (gated_answer s _ _)
  · refine oauthLogin_gated env s _ false (fun db => fillBy_stands rfl _ _ _ db) ?_ db
    intro db
    refine (Prog.Holds.trivial _ db).bind ?_
    intro username db₁ _
    exact insert_stands env ctx rfl 0 db₁

theorem oidcAuth_gated (env : Env) (ctx : Ctx) (s : Sess) (req : OAuthRequest)
    (answer : Except Err OidcUser) (db : DB) :
    Sat (oidcAuth env ctx s req answer) (Gated s) db := by
  unfold oidcAuth oidcBind
  split
  · exact Sat.pure (gated_answer s _ _)
  split
  · split
    · exact Sat.pure (gated_answer s _ _)
    split
    · exact Sat.pure (gated_answer s _ _)
    · exact bindAccount_gated _ _ _ _ _ _ _ _
  split
  · exact Sat.pure (gated_answer s _ _)
  split
  · exact Sat.pure (gated_answer s _ _)
  · refine oauthLogin_gated env s _ false (fun db => fillBy_stands rfl _ _ _ db) ?_ db
    intro db
    refine (Prog.Holds.trivial _ db).bind ?_
    intro username db₁ _
    exact insert_stands env ctx rfl 0 db₁

theorem linuxdoOAuth_gated (env : Env) (ctx : Ctx) (s : Sess) (refusal : Option String)
    (req : OAuthRequest) (answer : Except Err LinuxdoUser) (db : DB) :
    Sat (linuxdoOAuth env ctx s refusal req answer) (Gated s) db := by
  unfold linuxdoOAuth linuxDoBind
  cases refusal with
  | some errorDescription => exact Sat.pure (gated_answer s _ _)
  | none =>
    dsimp only
    split
    · exact Sat.pure (gated_answer s _ _)
    split
    · split
      · exact Sat.pure (gated_answer s _ _)
      split
      · exact Sat.pure (gated_answer s _ _)
      · exact bindAccount_gated _ _ _ _ _ _ _ _
    split
    · exact Sat.pure (gated_answer s _ _)
    split
    · exact Sat.pure (gated_answer s _ _)
    · refine oauthLogin_gated env s _ true (fun db => fillUserByLinuxDOId_stands rfl db) ?_ db
      intro db
      split
      · exact Sat.pure fun h => nomatch h
      · refine (Prog.Holds.trivial _ db).bind ?_
        intro maxId db₁ _
        refine (Prog.Holds.trivial _ db₁).bind ?_
        intro inviterId db₂ _
        exact insert_stands env ctx rfl inviterId db₂

theorem weChatAuth_gated (env : Env) (ctx : Ctx) (s : Sess) (code : String)
    (answer : Except Err String) (db : DB) :
    Sat (weChatAuth env ctx s code answer) (Gated s) db := by
  unfold weChatAuth
  split
  · exact Sat.pure (gated_answer s _ _)
  split
  · exact Sat.pure (gated_answer s _ _)
  · refine oauthLogin_gated env s _ true (fun db => fillBy_stands rfl _ _ _ db) ?_ db
    intro db
    refine (Prog.Holds.trivial _ db).bind ?_
    intro maxId db₁ _
    exact insert_stands env ctx rfl 0 db₁

/-- The callback of the passkey login names live, enabled accounts only. -/
theorem passkeyLoginHandler_sat (rawID userHandle : String) (db : DB) :
    Sat (passkeyLoginHandler rawID userHandle) (fun r db' => db'.users = db.users ∧
      ∀ u c, r = .ok (u, c) → Stands db u ∧ u.status = userStatusEnabled) db := by
  unfold passkeyLoginHandler
  have hfind : Sat (getPasskeyByCredentialID rawID) (fun _ db' => db' = db) db := by
    unfold getPasskeyByCredentialID
    split
    · exact Sat.pure rfl
    · refine Sat.perform fun r db' h => ?_
      obtain ⟨rfl, -⟩ := h.passkeyFirst
      cases r <;> exact Sat.pure rfl
  refine hfind.bind ?_
  rintro r db₁ rfl
  cases r with
  | error e => exact Sat.pure ⟨rfl, fun u c h => nomatch h⟩
  | ok credential =>
    dsimp only
    refine (fillUserById_sat _ db₁).bind ?_
    rintro ⟨err, user⟩ db₂ ⟨rfl, hr⟩
    cases err with
    | some e => exact Sat.pure ⟨rfl, fun u c h => nomatch h⟩
    | none =>
      dsimp only at hr ⊢
      by_cases hstatus : user.status = userStatusEnabled
      · rw [if_neg (not_not.mpr hstatus)]
        have hstands : Stands db₂ user := by
          rcases hr with he | ⟨row, hmem, he, hlive, -⟩
          · rw [he] at hstatus
            exact absurd hstatus (show (0 : Int) ≠ 1 by decide)
          · obtain rfl : user = row := congrArg Prod.snd he
            exact stands_row hmem hlive
        split
        · exact Sat.pure ⟨rfl, fun u c h => nomatch h⟩
        · refine Sat.pure ⟨rfl, ?_⟩
          intro u c h
          obtain rfl : user = u := congrArg Prod.fst (Except.ok.inj h)
          exact ⟨hstands, hstatus⟩
      · rw [if_pos hstatus]
        exact Sat.pure ⟨rfl, fun u c h => nomatch h⟩

/-- Taking the ceremony out leaves the login. -/
theorem popLoginSession_remains (env : Env) (s : Sess) :
    SameLogin s.cur (popLoginSession env s).2.cur ∧ Remains s (popLoginSession env s).2.saved := by
  unfold popLoginSession
  split
  · exact ⟨SameLogin.refl _, Or.inl (SameLogin.refl _)⟩
  · refine ⟨?_, ?_⟩
    · rw [Sess.cur_save]
      exact SameLogin.refl _
    · rcases Sess.saved_save env (s.set fun s => { s with passkeyLogin := none }) with h | h
      · rw [h]
        exact Or.inl (SameLogin.refl _)
      · rw [h]
        exact Or.inr (SameLogin.refl _)

theorem passkeyLoginFinish_gated (env : Env) (ctx : Ctx) (s : Sess) (body : String) (db : DB) :
    Sat (passkeyLoginFinish env ctx s body) (Gated s) db := by
  unfold passkeyLoginFinish
  split
  · exact Sat.pure (gated_answer s _ _)
  split
  · exact Sat.pure (gated_answer s _ _)
  obtain ⟨hcur, hsaved⟩ := popLoginSession_remains env s
  have hpopped : ∀ {s' : Sess} {out : Out} {db : DB}, s' = (popLoginSession env s).2 →
      Gated s' out db → Gated s out db := by
    rintro s' out db rfl ⟨hsigns, hchecked⟩
    exact ⟨hsigns.of_popped hcur hsaved, hchecked⟩
  split
  · rename_i s' hpop
    have hs' : s' = (popLoginSession env s).2 := by rw [hpop]
    exact Sat.pure (hpopped hs' (gated_answer s' _ _))
  rename_i s' hpop
  have hs' : s' = (popLoginSession env s).2 := by rw [hpop]
  split
  · exact Sat.pure (hpopped hs' (gated_answer s' _ _))
  · rename_i rawID userHandle _
    refine (passkeyLoginHandler_sat rawID userHandle db).bind ?_
    rintro r db₁ ⟨hdb, hr⟩
    cases r with
    | error e => exact Sat.pure (hpopped hs' (gated_answer s' _ _))
    | ok found =>
      obtain ⟨user, credential⟩ := found
      obtain ⟨hstands, hstatus⟩ := hr user credential rfl
      dsimp only
      split
      · exact Sat.pure (hpopped hs' (gated_answer s' _ _))
      rw [if_neg (not_not.mpr hstatus)]
      have hupsert : ∀ c, Sat (upsertPasskeyCredential c)
          (fun _ db' => db'.users = db₁.users) db₁ := by
        intro c
        unfold upsertPasskeyCredential
        refine Sat.perform fun r db₂ hmay => ?_
        have husers := hmay.users rfl
        cases r <;> exact Sat.pure husers
      refine (hupsert _).bind ?_
      intro err db₂ husers
      cases err with
      | some e => exact Sat.pure (hpopped hs' ((gated_answer s' _ _).withChecks _))
      | none =>
        have hlater := (hstands.users hdb).users husers
        have hgated : Gated s' (setupLogin env s' user) db₂ :=
          ⟨signs_setupLogin env s' hlater, checked_setupLogin env s' hstatus⟩
        exact Sat.pure (hpopped hs' (hgated.withChecks _))

theorem login_gated (env : Env) (s : Sess) (req : Option LoginRequest) (st : Store) :
    Gated s (serve (login env s req) st).1 (serve (login env s req) st).2.db := by
  rw [(login_readOnly env s req).serve]
  rcases serve_login env s req st with ⟨reply, he⟩ | ⟨-, r, u, -, hpass, ⟨reply, he⟩ | ⟨-, he⟩⟩
  · rw [he]
    exact gated_answer s _ _
  · rw [he]
    refine ⟨.nobody rfl ?_, fun u hu => nomatch hu⟩
    rcases Sess.saved_save env (s.set (Session.pend u)) with h | h
    · rw [Sess.answer_cookie, h]
      exact Or.inl (SameLogin.refl _)
    · rw [Sess.answer_cookie, h]
      exact Or.inr (SameLogin.refl _)
  · rw [he]
    exact ⟨signs_setupLogin env s (stands_row hpass.row.1 hpass.row.2.1),
      checked_setupLogin env s hpass.row.2.2⟩

/-! ### The two that do not -/

theorem telegramLogin_readOnly (env : Env) (s : Sess) (params : Params) :
    ReadOnly (telegramLogin env s params) := by
  unfold telegramLogin
  split
  · exact Prog.Only.pure
  split
  · exact Prog.Only.pure
  split
  · exact Prog.Only.pure
  · have hfill : ∀ user : User, ReadOnly user.fillUserByTelegramId := by
      intro user
      unfold User.fillUserByTelegramId
      split
      · exact Prog.Only.pure
      · refine (user.first_readOnly false _).bind fun r => ?_
        obtain ⟨err, row⟩ := r
        dsimp only
        split <;> exact Prog.Only.pure
    refine (hfill _).bind fun r => ?_
    obtain ⟨err, user⟩ := r
    cases err <;> exact Prog.Only.pure

/-- What `fillUserByTelegramId` makes of an id: the row, or, when the read fails
for another reason than that there is none, the struct it was given. -/
theorem serve_fillUserByTelegramId (telegramId : String) (u : User) (s : Store) :
    (serve (User.fillUserByTelegramId { telegramId := telegramId }) s).1 = (none, u) ↔
      telegramId ≠ "" ∧
        ((s.outages 0 = none ∧
            s.db.users.find? (fun v => v.live && v.telegramId == telegramId) = some u) ∨
          ((∃ e, s.outages 0 = some e ∧ e ≠ .recordNotFound) ∧ u = { telegramId := telegramId })) := by
  unfold User.fillUserByTelegramId
  by_cases hempty : telegramId = ""
  · rw [if_pos hempty, serve_pure]
    constructor
    · intro h
      cases congrArg Prod.fst h
    · intro h
      exact absurd hempty h.1
  rw [if_neg hempty, serve_bind]
  cases hout : s.outages 0 with
  | some e =>
    rw [serve_first_down _ _ _ hout]
    by_cases he : e = .recordNotFound
    · simp only [he, if_true, serve_pure]
      constructor
      · intro h
        cases congrArg Prod.fst h
      · rintro ⟨-, ⟨h, -⟩ | ⟨⟨e', h, hne⟩, -⟩⟩
        · cases h
        · exact absurd (Option.some.inj h).symm hne
    · have hne : ¬ some e = some Err.recordNotFound := fun h => he (Option.some.inj h)
      simp only [hne, if_false, serve_pure]
      constructor
      · intro h
        exact ⟨hempty, Or.inr ⟨⟨e, rfl, he⟩, (congrArg Prod.snd h).symm⟩⟩
      · rintro ⟨-, ⟨h, -⟩ | ⟨-, rfl⟩⟩
        · cases h
        · rfl
  | none =>
    have hcond : (seen false fun v => (v.telegramId == telegramId)
        && (((0 : Int) == 0) || v.id == 0)) = fun v => v.live && v.telegramId == telegramId := by
      funext v
      simp [seen]
    rw [serve_first_up _ _ _ hout, hcond]
    cases s.db.users.find? (fun v => v.live && v.telegramId == telegramId) with
    | none =>
      constructor
      · intro h
        cases congrArg Prod.fst h
      · rintro ⟨-, ⟨-, h⟩ | ⟨⟨e, h, -⟩, -⟩⟩
        · cases h
        · cases h
    | some row =>
      constructor
      · intro h
        exact ⟨hempty, Or.inl ⟨rfl, congrArg some (congrArg Prod.snd h)⟩⟩
      · rintro ⟨-, ⟨-, h⟩ | ⟨⟨e, h, -⟩, -⟩⟩
        · rw [Option.some.inj h]
          rfl
        · cases h

/-- Telegram vouches for the holder of an id. -/
def TelegramVouches (env : Env) (params : Params) (telegramId : String) : Prop :=
  env.cfg.telegramOAuthEnabled = true ∧ checkTelegramAuthorization env params = true ∧
    params.get "id" = some telegramId

theorem serve_telegramLogin (env : Env) (s : Sess) (params : Params) (u : User) (st : Store) :
    (serve (telegramLogin env s params) st).1.login = some u ↔
      ∃ telegramId, TelegramVouches env params telegramId ∧
        (serve (User.fillUserByTelegramId { telegramId := telegramId }) st).1 = (none, u) := by
  unfold telegramLogin TelegramVouches
  by_cases hon : env.cfg.telegramOAuthEnabled = true
  · rw [hon, Bool.not_true, if_neg Bool.false_ne_true]
    by_cases hcheck : checkTelegramAuthorization env params = true
    · rw [hcheck, Bool.not_true, if_neg Bool.false_ne_true]
      cases params.get "id" with
      | none =>
        constructor
        · intro h
          exact nomatch h
        · rintro ⟨_, ⟨-, -, h⟩, -⟩
          exact nomatch h
      | some telegramId =>
        dsimp only
        rw [serve_bind]
        cases hfill : (serve (User.fillUserByTelegramId { telegramId := telegramId }) st).1 with
        | mk err user =>
          cases err with
          | some e =>
            constructor
            · intro h
              exact nomatch h
            · rintro ⟨_, ⟨-, -, hid⟩, h⟩
              obtain rfl := Option.some.inj hid
              rw [hfill] at h
              cases congrArg Prod.fst h
          | none =>
            dsimp only
            rw [serve_pure, setupLogin_login]
            constructor
            · intro h
              obtain rfl := Option.some.inj h
              exact ⟨telegramId, ⟨rfl, rfl, rfl⟩, hfill⟩
            · rintro ⟨_, ⟨-, -, hid⟩, h⟩
              obtain rfl := Option.some.inj hid
              rw [hfill] at h
              exact congrArg some (congrArg Prod.snd h)
    · rw [Bool.not_eq_true] at hcheck
      rw [hcheck, Bool.not_false, if_pos rfl]
      constructor
      · intro h
        exact nomatch h
      · rintro ⟨_, ⟨-, h, -⟩, -⟩
        exact nomatch h
  · rw [Bool.not_eq_true] at hon
    rw [hon, Bool.not_false, if_pos rfl]
    constructor
    · intro h
      exact nomatch h
    · rintro ⟨_, ⟨h, -⟩, -⟩
      exact nomatch h

theorem verify2FALogin_signs (env : Env) (ctx : Ctx) (s : Sess) (code : Option String) (db : DB) :
    Sat (verify2FALogin env ctx s code) (Signs s) db := by
  refine Prog.Holds.mono (verify2FALogin_sat env ctx s code db) ?_
  rintro out db' ⟨hdb, ⟨hlogin, hcookie⟩ | ⟨row, hmem, hlive, -, -, -, hlogin, hcookie⟩⟩
  · refine .nobody hlogin ?_
    rw [hcookie]
    exact Or.inl (SameLogin.refl _)
  · have hstands : Stands db row.omitPassword := ⟨row, hmem, hlive, rfl, rfl, rfl⟩
    refine .somebody row.omitPassword hlogin (hstands.users hdb) ?_
    rcases hcookie with h | h
    · left
      rw [h]
      rcases Sess.saved_save env (s.set Session.unpend) with h | h
      · rw [h]
        exact Or.inl (SameLogin.refl _)
      · rw [h]
        exact Or.inr (SameLogin.refl _)
    · exact Or.inr ⟨_, h⟩

theorem telegramLogin_answers (env : Env) (s : Sess) (params : Params) (db : DB) :
    Sat (telegramLogin env s params) (fun out _ =>
      (∃ reply, out = s.answer reply) ∨ ∃ u, out = setupLogin env s u) db := by
  unfold telegramLogin
  split
  · exact Sat.pure (Or.inl ⟨_, rfl⟩)
  split
  · exact Sat.pure (Or.inl ⟨_, rfl⟩)
  split
  · exact Sat.pure (Or.inl ⟨_, rfl⟩)
  · refine (Prog.Holds.trivial _ db).bind ?_
    rintro ⟨err, user⟩ db₁ -
    cases err with
    | some e => exact Sat.pure (Or.inl ⟨_, rfl⟩)
    | none => exact Sat.pure (Or.inr ⟨user, rfl⟩)

/-- On a database in order, whom Telegram vouches for is found. -/
theorem telegramLogin_signs (env : Env) (s : Sess) (params : Params) (db : DB) :
    Ends (telegramLogin env s params) (Signs s) db := by
  have hserve := serve_ofDB (telegramLogin env s params) db
  have hdb : ((telegramLogin env s params).run exec db).2 = db :=
    ((telegramLogin_readOnly env s params).sat db).run
  show Signs s ((telegramLogin env s params).run exec db).1 _
  rw [hdb]
  rcases (telegramLogin_answers env s params db).run with ⟨reply, h⟩ | ⟨u, h⟩
  · rw [h]
    exact (gated_answer s reply db).1
  · rw [h]
    have hlogin : (serve (telegramLogin env s params) (Store.ofDB db)).1.login = some u := by
      rw [hserve, h, setupLogin_login]
    obtain ⟨telegramId, -, hfill⟩ := (serve_telegramLogin env s params u _).mp hlogin
    obtain ⟨-, ⟨-, hrow⟩ | ⟨⟨e, hdown, -⟩, -⟩⟩ :=
      (serve_fillUserByTelegramId telegramId u _).mp hfill
    · have hholds := Table.find?_holds hrow
      rw [Bool.and_eq_true] at hholds
      exact signs_setupLogin env s (stands_row (Table.find?_mem hrow) hholds.1)
    · cases hdown

/-- **Every login ends so**, on a database in order. -/
theorem handle_signs (env : Env) (ctx : Ctx) (s : Sess) (q : LoginPath) (db : DB) :
    Ends (handle env ctx s q) (Signs s) db := by
  unfold handle
  cases q with
  | login req =>
    have hgated := login_gated env s req (Store.ofDB db)
    rw [serve_ofDB] at hgated
    exact hgated.1
  | verify2FALogin code => exact (verify2FALogin_signs env ctx s code db).ends
  | passkeyLoginFinish body => exact (passkeyLoginFinish_gated env ctx s body db).ends.1
  | gitHubOAuth req answer => exact (gitHubOAuth_gated env ctx s req answer db).ends.1
  | discordOAuth req answer => exact (discordOAuth_gated env ctx s req answer db).ends.1
  | oidcAuth req answer => exact (oidcAuth_gated env ctx s req answer db).ends.1
  | linuxdoOAuth refusal req answer =>
    exact (linuxdoOAuth_gated env ctx s refusal req answer db).ends.1
  | weChatAuth code answer => exact (weChatAuth_gated env ctx s code answer db).ends.1
  | telegramLogin params => exact telegramLogin_signs env s params db

/-- The requests that sign in somebody nobody has checked. -/
inductive Unchecked (env : Env) (ctx : Ctx) (s : Sess) (st : Store) : LoginPath → Prop
  /-- Telegram vouches for an account that is not enabled. -/
  | telegram (params : Params) (telegramId : String) (row : User)
      (hvouches : TelegramVouches env params telegramId) (hid : telegramId ≠ "")
      (hup : st.outages 0 = none)
      (hrow : st.db.users.find? (fun v => v.live && v.telegramId == telegramId) = some row)
      (hstatus : row.status ≠ userStatusEnabled) : Unchecked env ctx s st (.telegramLogin params)
  /-- Telegram vouches for somebody, and the lookup fails. -/
  | telegramDown (params : Params) (telegramId : String) (e : Err)
      (hvouches : TelegramVouches env params telegramId) (hid : telegramId ≠ "")
      (hdown : st.outages 0 = some e) (he : e ≠ .recordNotFound) :
      Unchecked env ctx s st (.telegramLogin params)
  /-- The pending user is not enabled, and the code is accepted. -/
  | secondFactor (code : String) (row : User) (t : TwoFA) (hfirst : st.outages 0 = none)
      (hsecond : st.outages 1 = none) (hrow : row ∈ st.db.users) (hlive : row.live = true)
      (hpend : s.cur.pendingUserId = some row.id) (hstatus : row.status ≠ userStatusEnabled)
      (ht : t ∈ st.db.twoFAs) (htlive : t.live = true) (htuser : t.userId = row.id)
      (hon : t.isEnabled = true) (hcode : CodeAccepted env ctx.now st.rest.rest t code) :
      Unchecked env ctx s st (.verify2FALogin (some code))

theorem verify2FALogin_users (env : Env) (ctx : Ctx) (s : Sess) (code : Option String) (st : Store) :
    (serve (verify2FALogin env ctx s code) st).2.db.users = st.db.users :=
  (verify2FALogin_sat env ctx s code st.db).serve.1

theorem admits_of_not_unchecked {env : Env} {ctx : Ctx} {s : Sess} {q : LoginPath} {st : Store}
    (h : ¬ Unchecked env ctx s st q) : Admits env ctx s q st := by
  unfold Admits handle
  cases q with
  | login req => exact (login_gated env s req st).kept
  | passkeyLoginFinish body => exact (passkeyLoginFinish_gated env ctx s body st.db).serve.kept
  | gitHubOAuth req answer => exact (gitHubOAuth_gated env ctx s req answer st.db).serve.kept
  | discordOAuth req answer => exact (discordOAuth_gated env ctx s req answer st.db).serve.kept
  | oidcAuth req answer => exact (oidcAuth_gated env ctx s req answer st.db).serve.kept
  | linuxdoOAuth refusal req answer =>
    exact (linuxdoOAuth_gated env ctx s refusal req answer st.db).serve.kept
  | weChatAuth code answer => exact (weChatAuth_gated env ctx s code answer st.db).serve.kept
  | verify2FALogin code =>
    intro u hu
    obtain ⟨hfirst, hsecond, code', rfl, row, hrow, hlive, hpend, rfl, t, ht, htlive, htuser, hon,
      hcode⟩ := (serve_verify2FALogin env ctx s code u st).mp hu
    by_cases hstatus : row.status = userStatusEnabled
    · exact (enabled_row hrow hlive hstatus).users (verify2FALogin_users env ctx s _ st)
    · exact absurd (.secondFactor code' row t hfirst hsecond hrow hlive hpend hstatus ht htlive
        htuser hon hcode) h
  | telegramLogin params =>
    intro u hu
    rw [(telegramLogin_readOnly env s params).serve]
    obtain ⟨telegramId, hvouches, hfill⟩ := (serve_telegramLogin env s params u st).mp hu
    obtain ⟨hid, ⟨hup, hrow⟩ | ⟨⟨e, hdown, he⟩, -⟩⟩ :=
      (serve_fillUserByTelegramId telegramId u st).mp hfill
    · by_cases hstatus : u.status = userStatusEnabled
      · have hholds := Table.find?_holds hrow
        rw [Bool.and_eq_true] at hholds
        exact enabled_row (Table.find?_mem hrow) hholds.1 hstatus
      · exact absurd (.telegram params telegramId u hvouches hid hup hrow hstatus) h
    · exact absurd (.telegramDown params telegramId e hvouches hid hdown he) h

theorem not_admits_of_unchecked {env : Env} {ctx : Ctx} {s : Sess} {q : LoginPath} {st : Store}
    (h : Unchecked env ctx s st q) : ¬ Admits env ctx s q st := by
  intro hadmits
  cases h with
  | telegram params telegramId row hvouches hid hup hrow hstatus =>
    have hlogin := (serve_telegramLogin env s params row st).mpr
      ⟨telegramId, hvouches, (serve_fillUserByTelegramId telegramId row st).mpr
        ⟨hid, Or.inl ⟨hup, hrow⟩⟩⟩
    have henabled := hadmits row hlogin
    unfold handle at henabled
    rw [(telegramLogin_readOnly env s params).serve] at henabled
    exact hstatus (henabled.of_id (Table.find?_mem hrow) rfl).2
  | telegramDown params telegramId e hvouches hid hdown he =>
    have hlogin := (serve_telegramLogin env s params { telegramId := telegramId } st).mpr
      ⟨telegramId, hvouches, (serve_fillUserByTelegramId telegramId _ st).mpr
        ⟨hid, Or.inr ⟨⟨e, hdown, he⟩, rfl⟩⟩⟩
    -- the struct has id zero, which no row has
    obtain ⟨row, hrow, hzero, -⟩ := hadmits _ hlogin
    have hpos : 0 < row.id := Table.key_pos hrow
    rw [hzero] at hpos
    exact absurd hpos (lt_irrefl 0)
  | secondFactor code row t hfirst hsecond hrow hlive hpend hstatus ht htlive htuser hon hcode =>
    have hlogin := (serve_verify2FALogin env ctx s (some code) row.omitPassword st).mpr
      ⟨hfirst, hsecond, code, rfl, row, hrow, hlive, hpend, rfl, t, ht, htlive, htuser, hon, hcode⟩
    have henabled := (hadmits _ hlogin).users (verify2FALogin_users env ctx s (some code) st).symm
    exact hstatus (henabled.of_id hrow rfl).2

/-- **A login request admits live, enabled accounts only, exactly when it is not
one of the unchecked ones.** -/
theorem admits_iff (env : Env) (ctx : Ctx) (s : Sess) (q : LoginPath) (st : Store) :
    Admits env ctx s q st ↔ ¬ Unchecked env ctx s st q :=
  ⟨fun h hunchecked => not_admits_of_unchecked hunchecked h, admits_of_not_unchecked⟩

/-! ### A banned account, by Telegram -/

/-- Mallory, who is banned. -/
def mallory : User :=
  { id := 1, username := "mallory", role := 1, status := 2, telegramId := "42" }

def malloryDB : DB where
  users := Table.single mallory
  twoFAs := Table.empty
  backupCodes := Table.empty
  passkeys := Table.empty

/-- What Telegram signs for her. -/
def malloryParams : Params := [("id", "42"), ("hash", "id=42")]

/-- **Telegram signs in an account that is banned.** -/
theorem telegram_admits_banned : ¬ Admits Env.plain (Ctx.plain 0) (Sess.ofCookie {})
    (.telegramLogin malloryParams) (Store.ofDB malloryDB) := by
  have hvouches : TelegramVouches Env.plain malloryParams "42" :=
    ⟨rfl, by decide +kernel, by decide⟩
  have hrow : malloryDB.users.find? (fun v => v.live && v.telegramId == "42") = some mallory := by
    decide
  exact not_admits_of_unchecked
    (.telegram malloryParams "42" mallory hvouches (by decide) rfl hrow (by decide))

end AuthGateway.LoginGate
