import AuthGateway.Authority
import AuthGateway.Refusals

/-!
# Where credentials come from

The password, the e-mail address and the access token of an account, traced back
along the runs of the whole system, from the start of the process.

* `password_origin`: a password that was not there at the start is that of a new
  account, was set by its owner who knew the old one, by an administrator above
  the account, or by whoever had a code from its mailbox.
* `email_origin`: an address that was not there at the start was shown a code
  that had been mailed to it, or a provider vouches for it.
* `token_origin`: an access token that was not there at the start was made for
  the owner, on a request of the owner's.
-/

namespace AuthGateway.CredentialOrigins

open Common Model Controller Middleware Accounts IssuedCodes Authority Refusals

/-! ### The origin of a column -/

/-- **A request of the run created the account**, with what it has in the column
`f`, and satisfied `C`. -/
def Arose {α : Type} (start : System) (acts : List Act) (f : User → α) (row' : User)
    (C : List Act → Act → Prop) : Prop :=
  ∃ pre a post, acts = pre ++ a :: post ∧
    (∀ x ∈ (Runs.after step start pre).db.users, x.id ≠ row'.id) ∧
    (∃ new ∈ (step (Runs.after step start pre) a).db.users,
      new.id = row'.id ∧ f new = f row') ∧ C pre a

/-- **A request of the run changed the column `f` of the account** to what it has
there, and satisfied `C`, of the row before it. -/
def Caused {α : Type} (start : System) (acts : List Act) (f : User → α) (row' : User)
    (C : List Act → Act → User → Prop) : Prop :=
  ∃ pre a post, acts = pre ++ a :: post ∧
    ∃ old ∈ (Runs.after step start pre).db.users, old.id = row'.id ∧ f old ≠ f row' ∧
      (∃ new ∈ (step (Runs.after step start pre) a).db.users,
        new.id = row'.id ∧ f new = f row') ∧ C pre a old

section Origin

variable {α : Type} {f : User → α} {start : System} {acts : List Act} {row row' : User}

theorem Arose.snoc {C : List Act → Act → Prop} (h : Arose start acts f row C)
    (hid : row.id = row'.id) (hsame : f row = f row') (a : Act) :
    Arose start (acts ++ [a]) f row' C := by
  unfold Arose at h
  rw [hid, hsame] at h
  obtain ⟨pre, b, post, rfl, hnew⟩ := h
  exact ⟨pre, b, post ++ [a], by simp, hnew⟩

theorem Caused.snoc {C : List Act → Act → User → Prop} (h : Caused start acts f row C)
    (hid : row.id = row'.id) (hsame : f row = f row') (a : Act) :
    Caused start (acts ++ [a]) f row' C := by
  unfold Caused at h
  rw [hid, hsame] at h
  obtain ⟨pre, b, post, rfl, hold⟩ := h
  exact ⟨pre, b, post ++ [a], by simp, hold⟩

end Origin

/-- **What is in a column of an account after a run** was there at the start, or
came with the account, or by the request that changed it. -/
theorem column_origin {α : Type} {f : User → α} (hf : ∀ u : User, f u.core = f u)
    (start : System) {N : List Act → Act → α → Prop} {C : List Act → Act → User → α → Prop}
    (hnew : ∀ pre a row', row' ∈ (step (Runs.after step start pre) a).db.users →
      (∀ x ∈ (Runs.after step start pre).db.users, x.id ≠ row'.id) →
      Creation (Runs.after step start pre) a row' → N pre a (f row'))
    (hedit : ∀ pre a row row', row ∈ (Runs.after step start pre).db.users →
      row' ∈ (step (Runs.after step start pre) a).db.users → row'.id = row.id →
      Edit (Runs.after step start pre) a row row' → f row' ≠ f row → C pre a row (f row'))
    (acts : List Act) {row' : User} (hrow' : row' ∈ (Runs.after step start acts).db.users) :
    (∃ row ∈ start.db.users, row.id = row'.id ∧ f row = f row') ∨
      Arose start acts f row' (fun pre a => N pre a (f row')) ∨
      Caused start acts f row' (fun pre a row => C pre a row (f row')) := by
  induction acts using List.reverseRecOn generalizing row' with
  | nil => exact Or.inl ⟨row', hrow', rfl, rfl⟩
  | append_singleton acts a ih =>
    rw [Runs.after_snoc] at hrow'
    by_cases hold : ∃ row ∈ (Runs.after step start acts).db.users, row.id = row'.id
    · obtain ⟨row, hrow, hid⟩ := hold
      by_cases hsame : f row = f row'
      · have hrest := ih hrow
        rw [hid, hsame] at hrest
        exact hrest.imp_right (Or.imp (fun h => h.snoc hid hsame a) fun h => h.snoc hid hsame a)
      · rcases edit_of_step _ a hrow hrow' hid.symm with he | ⟨-, hmade⟩
        · exact absurd (User.core_congr hf he).symm hsame
        · exact Or.inr (Or.inr ⟨acts, a, [], rfl, row, hrow, hid, hsame, ⟨row', hrow', rfl, rfl⟩,
            hedit acts a row row' hrow hrow' hid.symm hmade fun he => hsame he.symm⟩)
    · have hfresh : ∀ x ∈ (Runs.after step start acts).db.users, x.id ≠ row'.id :=
        fun x hx hid => hold ⟨x, hx, hid⟩
      exact Or.inr (Or.inl ⟨acts, a, [], rfl, hfresh, ⟨row', hrow', rfl, rfl⟩,
        hnew acts a row' hrow' hfresh (creation_of_step _ a hrow' hfresh)⟩)

theorem overlay_password {row u : User} (h : u.password = "") :
    (row.overlay u).password = row.password := if_pos h

theorem overlay_email {row u : User} (h : u.email = "") : (row.overlay u).email = row.email :=
  if_pos h

theorem overlay_accessToken {row u : User} (h : u.accessToken = none) :
    (row.overlay u).accessToken = row.accessToken := if_pos h

theorem bind_blank (p : Provider) (externalId : String) :
    (p.bind externalId {}).password = "" ∧ (p.bind externalId {}).email = "" ∧
      (p.bind externalId {}).accessToken = none := by
  cases p <;> exact ⟨rfl, rfl, rfl⟩

/-- The columns of a new row that a registration leaves as they are given. -/
theorem New.given {env : Env} {ctx : Ctx} {db : DB} {cleanUser row : User}
    (h : New env ctx db cleanUser row) : row.accessToken = cleanUser.accessToken ∧
      (row.password = "" ∧ cleanUser.password = "" ∨
        cleanUser.password ≠ "" ∧ ctx.password2Hash cleanUser.password = .ok row.password) := by
  obtain ⟨newUser, hhash, hnew⟩ := h
  obtain ⟨password, rfl, hkept⟩ := hashPassword_fields hhash
  obtain ⟨text, htext⟩ := toInsert_eq env ctx { cleanUser with password := password }
  obtain ⟨k, rfl⟩ := hnew.columns
  rw [htext]
  refine ⟨rfl, ?_⟩
  show password = "" ∧ cleanUser.password = "" ∨
    cleanUser.password ≠ "" ∧ ctx.password2Hash cleanUser.password = .ok password
  by_cases hnone : cleanUser.password = ""
  · exact Or.inl ⟨(hkept (by simp [hnone])).trans hnone, hnone⟩
  · rw [show (cleanUser.password != "") = true from bne_iff_ne.mpr hnone] at hhash
    exact Or.inr ⟨hnone, hash_of_hashPassword hhash⟩

/-! ### Passwords -/

/-- **The password of a new account**: that of the request, or none where somebody
comes from outside. -/
inductive FirstPassword (a : Act) (password : String) : Prop
  | outside {path : LoginGate.LoginPath} (hreq : a.request = .login path) (hnone : password = "")
  | register {user : User} (hreq : a.request = .register (some user))
      (hhash : a.ctx.password2Hash user.password = .ok password)
  | create {user : User} (hreq : a.request = .createUser (some user))
      (hhash : a.ctx.password2Hash user.password = .ok password)
  | root {req : SetupRequest} (hreq : a.request = .postSetup (some req))
      (hhash : a.ctx.password2Hash req.password = .ok password)

/-- **How a request comes to give an account another password.** -/
inductive SetsPassword (start : System) (pre : List Act) (a : Act) (row : User)
    (password : String) : Prop
  | own {user : User} {ctx : Ctx} (hreq : a.request = .updateSelf (some (.account user)))
      (hctx : Granted a (Runs.after step start pre).db ctx) (hid : ctx.id = row.id)
      (horiginal : a.env.bcryptCompare row.password user.originalPassword = true)
      (hhash : a.ctx.password2Hash user.password = .ok password)
  | byAdmin {user : User} {ctx : Ctx} (hreq : a.request = .updateUser (some user))
      (hctx : Granted a (Runs.after step start pre).db ctx) (hid : row.id = user.id)
      (hrank : AdminRank.Outranks ctx.role row.role)
      (hhash : a.ctx.password2Hash user.password = .ok password)
  | reset {req : PasswordResetRequest} {time : Int}
      (hreq : a.request = .resetPassword (some req)) (hemail : row.email = req.email)
      (hissued : Issued start pre passwordResetPurpose req.email req.token time)
      (hfresh : (a.ctx.now - time).tdiv second < verificationValidMinutes * 60)
      (hhash : a.ctx.password2Hash (generateVerificationCode a.ctx.uuid 12) = .ok password)

theorem firstPassword_of_creation {sys : System} {a : Act} {row' : User}
    (hrow' : row' ∈ (step sys a).db.users) (hfresh : ∀ x ∈ sys.db.users, x.id ≠ row'.id)
    (h : Creation sys a row') : FirstPassword a row'.password := by
  have hcongr : ∀ {row : User}, row'.core = row.core → row'.password = row.password :=
    fun he => User.core_congr (f := User.password) (fun _ => rfl) he
  cases h with
  | @registered cleanUser row ctx hctx hregisters hnew hcore =>
    have haccepted := (passes_of_new hctx hrow' hfresh).accepted
    have hgiven := (New.given hnew).2
    rw [Granted.password2Hash hctx] at hgiven
    rw [hcongr hcore]
    generalize hq : a.request = q at hregisters haccepted
    have houtside : ∀ {path : LoginGate.LoginPath}, q = .login path → cleanUser.password = "" →
        FirstPassword a row.password := by
      intro path hlogin hnone
      rcases hgiven with ⟨he, -⟩ | ⟨hset, -⟩
      · exact .outside (hq.trans hlogin) he
      · exact absurd hnone hset
    cases hregisters with
    | @register user _ _ _ =>
      have hset : user.password ≠ "" := password_of_validateStruct haccepted.1
      rcases hgiven with ⟨-, hnone⟩ | ⟨-, hhash⟩
      · exact absurd hnone hset
      · exact .register hq hhash
    | gitHub => exact houtside rfl rfl
    | discord => exact houtside rfl rfl
    | oidc => exact houtside rfl rfl
    | linuxdo => exact houtside rfl rfl
    | weChat => exact houtside rfl rfl
  | created hreq hctx _ hnew hcore =>
    have haccepted := (passes_of_new hctx hrow' hfresh).accepted
    rw [hreq] at haccepted
    have hgiven := (New.given hnew).2
    rw [Granted.password2Hash hctx] at hgiven
    rw [hcongr hcore]
    rcases hgiven with ⟨-, hnone⟩ | ⟨-, hhash⟩
    · exact absurd hnone haccepted.2.1
    · exact .create hreq hhash
  | root hreq hnew hcore =>
    obtain ⟨-, password, hhash, hnew⟩ := hnew
    obtain ⟨k, rfl⟩ := hnew.columns
    rw [hcongr hcore]
    exact .root hreq hhash

/-- An edit that changes the password is one of those. -/
theorem setsPassword_of_edit {start : System} (hempty : start.codes.entries = []) {pre : List Act}
    {a : Act} {row row' : User} (h : Edit (Runs.after step start pre) a row row')
    (hne : row'.password ≠ row.password) : SetsPassword start pre a row row'.password := by
  have hcongr : ∀ {u : User}, row'.core = u.core → row'.password = u.password :=
    fun he => User.core_congr (f := User.password) (fun _ => rfl) he
  have hsame : ∀ {u : User}, row'.core = u.core → u.password = row.password → False :=
    fun he hu => hne ((hcongr he).trans hu)
  cases h with
  | @adminEdited user ctx password hreq hctx hid hrank hpassword hcore =>
    cases password with
    | none => exact (hsame hcore rfl).elim
    | some hash =>
      rw [hcongr hcore]
      exact .byAdmin hreq hctx hid hrank (hpassword hash rfl)
  | @selfEdited user ctx password hreq hctx hid horiginal hpassword hcore =>
    have hset : password ≠ "" := fun hnone => hsame hcore (overlay_password hnone)
    have hgiven : row'.password = password := (hcongr hcore).trans (if_neg hset)
    rw [hgiven]
    exact .own hreq hctx hid horiginal (hpassword.resolve_left hset)
  | passwordReset hreq hemail hcode hpassword hcore =>
    obtain ⟨time, hissued, hfresh⟩ := issued_of_verify hempty (Or.inr rfl) hcode
    rw [hcongr hcore]
    exact .reset hreq hemail hissued hfresh hpassword
  | managed _ _ _ hcore => exact (hsame hcore rfl).elim
  | selfDeleted _ _ _ hcore => exact (hsame hcore rfl).elim
  | tokenGenerated _ _ _ _ hcore => exact (hsame hcore rfl).elim
  | affCodeGiven _ _ _ hcore => exact (hsame hcore (overlay_password rfl)).elim
  | emailBound _ _ _ hcore => exact (hsame hcore (overlay_password rfl)).elim
  | bound _ _ hcore => exact (hsame hcore (overlay_password (bind_blank _ _).1)).elim

/-- **Where a password is from.**  Whatever password an account has after a run of
the process, it had at the start, or the request that created the account brought
it, or one of the requests of `SetsPassword` set it. -/
theorem password_origin (setup : Bool) (db : DB) (acts : List Act) {row' : User}
    (hrow' : row' ∈ (Runs.after step (System.start setup db) acts).db.users) :
    (∃ row ∈ db.users, row.id = row'.id ∧ row.password = row'.password) ∨
      Arose (System.start setup db) acts User.password row' (fun _ a =>
        FirstPassword a row'.password) ∨
      Caused (System.start setup db) acts User.password row' (fun pre a row =>
        SetsPassword (System.start setup db) pre a row row'.password) :=
  column_origin (f := User.password) (fun _ => rfl) (System.start setup db)
    (fun _ _ _ hnew hfresh h => firstPassword_of_creation hnew hfresh h)
    (fun _ _ _ _ _ _ _ h hne => setsPassword_of_edit rfl h hne) acts hrow'

/-! ### E-mail addresses -/

/-- A code that had been issued for the address, which the settings admitted then,
was shown with it, not too late. -/
def Proves (start : System) (pre : List Act) (a : Act) (email code : String) : Prop :=
  ∃ time, Issued start pre emailVerificationPurpose email code time ∧
    (a.ctx.now - time).tdiv second < verificationValidMinutes * 60

/-- What vouches for the address of a new account. -/
inductive FirstEmail (start : System) (pre : List Act) (a : Act) (email : String) : Prop
  | none (h : email = "")
  | proved {user : User} (hreq : a.request = .register (some user)) (hemail : user.email = email)
      (hcode : Proves start pre a email user.verificationCode)
  | gitHub {req : OAuthRequest} {answer : Except Err GitHubUser} {githubUser : GitHubUser}
      (hreq : a.request = .login (.gitHubOAuth req answer))
      (hfirst : FirstLogin a.env a.cookie req.state)
      (hinfo : getGitHubUserInfoByCode req.code answer = .ok githubUser)
      (hemail : githubUser.email = email)
  | oidc {req : OAuthRequest} {answer : Except Err OidcUser} {oidcUser : OidcUser}
      (hreq : a.request = .login (.oidcAuth req answer))
      (hfirst : FirstLogin a.env a.cookie req.state)
      (hinfo : getOidcUserInfoByCode req.code answer = .ok oidcUser)
      (hemail : oidcUser.email = email)

/-- How a request comes to give an account another address. -/
def BindsEmail (start : System) (pre : List Act) (a : Act) (row : User) (email : String) : Prop :=
  ∃ code, a.request = .emailBind email code ∧ a.cookie.id = some row.id ∧
    Proves start pre a email code

theorem firstEmail_of_creation {start : System} (hempty : start.codes.entries = [])
    {pre : List Act} {a : Act} {row' : User}
    (h : Creation (Runs.after step start pre) a row') : FirstEmail start pre a row'.email := by
  have hcongr : ∀ {row : User}, row'.core = row.core → row'.email = row.email :=
    fun he => User.core_congr (f := User.email) (fun _ => rfl) he
  cases h with
  | registered hctx hregisters hnew hcore =>
    rw [hcongr hcore, (New.names hnew).2]
    have hctx' := hctx
    unfold Granted at hctx'
    generalize hq : a.request = q at hregisters hctx'
    cases hregisters with
    | @register user inviterId hcode hfree =>
      obtain rfl : _ = a.ctx := hctx'
      dsimp only
      split
      · rename_i hon
        exact .proved hq rfl (issued_of_verify hempty (Or.inl rfl) (hcode hon))
      · exact .none rfl
    | gitHub hfirst hinfo _ => exact .gitHub hq hfirst hinfo rfl
    | oidc hfirst hinfo _ _ => exact .oidc hq hfirst hinfo rfl
    | discord => exact .none rfl
    | linuxdo => exact .none rfl
    | weChat => exact .none rfl
  | created _ _ _ hnew hcore =>
    rw [hcongr hcore, (New.names hnew).2]
    exact .none rfl
  | root _ hnew hcore =>
    obtain ⟨-, password, -, hnew⟩ := hnew
    rw [hcongr hcore, hnew.names.2]
    exact .none rfl

theorem bindsEmail_of_edit {start : System} (hempty : start.codes.entries = []) {pre : List Act}
    {a : Act} {row row' : User} (h : Edit (Runs.after step start pre) a row row')
    (hne : row'.email ≠ row.email) : BindsEmail start pre a row row'.email := by
  have hcongr : ∀ {u : User}, row'.core = u.core → row'.email = u.email :=
    fun he => User.core_congr (f := User.email) (fun _ => rfl) he
  have hsame : ∀ {u : User}, row'.core = u.core → u.email = row.email → False :=
    fun he hu => hne ((hcongr he).trans hu)
  cases h with
  | @emailBound email code hreq hid hcode hcore =>
    have hset : email ≠ "" := fun he => hsame hcore (overlay_email he)
    have hemail : row'.email = email := (hcongr hcore).trans (if_neg hset)
    rw [hemail]
    exact ⟨code, hreq, hid, issued_of_verify hempty (Or.inl rfl) hcode⟩
  | adminEdited _ _ _ _ _ hcore => exact (hsame hcore rfl).elim
  | passwordReset _ _ _ _ hcore => exact (hsame hcore rfl).elim
  | selfEdited _ _ _ _ _ hcore => exact (hsame hcore (overlay_email rfl)).elim
  | managed _ _ _ hcore => exact (hsame hcore rfl).elim
  | selfDeleted _ _ _ hcore => exact (hsame hcore rfl).elim
  | tokenGenerated _ _ _ _ hcore => exact (hsame hcore rfl).elim
  | affCodeGiven _ _ _ hcore => exact (hsame hcore (overlay_email rfl)).elim
  | bound _ _ hcore => exact (hsame hcore (overlay_email (bind_blank _ _).2.1)).elim

/-- **Every e-mail address was proved.**  Whatever address an account has after a
run of the process, it had at the start, or a provider vouched for it when the
account was new, or a code mailed to it was shown. -/
theorem email_origin (setup : Bool) (db : DB) (acts : List Act) {row' : User}
    (hrow' : row' ∈ (Runs.after step (System.start setup db) acts).db.users) :
    (∃ row ∈ db.users, row.id = row'.id ∧ row.email = row'.email) ∨
      Arose (System.start setup db) acts User.email row' (fun pre a =>
        FirstEmail (System.start setup db) pre a row'.email) ∨
      Caused (System.start setup db) acts User.email row' (fun pre a row =>
        BindsEmail (System.start setup db) pre a row row'.email) :=
  column_origin (f := User.email) (fun _ => rfl) (System.start setup db)
    (fun _ _ _ _ _ h => firstEmail_of_creation rfl h)
    (fun _ _ _ _ _ _ _ h hne => bindsEmail_of_edit rfl h hne) acts hrow'

/-! ### Access tokens -/

/-- The request makes a token for the account, and it is the account's own. -/
def MakesToken (start : System) (pre : List Act) (a : Act) (row : User) (token : Option String) :
    Prop :=
  a.request = .generateAccessToken ∧ ∃ ctx key, Granted a (Runs.after step start pre).db ctx ∧
    ctx.id = row.id ∧ a.ctx.randomKey = .ok key ∧ token = some key

theorem noToken_of_creation {sys : System} {a : Act} {row' : User} (h : Creation sys a row') :
    row'.accessToken = none := by
  have hcongr : ∀ {row : User}, row'.core = row.core → row'.accessToken = row.accessToken :=
    fun he => User.core_congr (f := User.accessToken) (fun _ => rfl) he
  cases h with
  | registered _ hregisters hnew hcore =>
    rw [hcongr hcore, (New.given hnew).1]
    generalize a.request = q at hregisters
    cases hregisters <;> rfl
  | created _ _ _ hnew hcore => rw [hcongr hcore, (New.given hnew).1]
  | root _ hnew hcore =>
    obtain ⟨-, password, -, hnew⟩ := hnew
    obtain ⟨k, rfl⟩ := hnew.columns
    rw [hcongr hcore]
    rfl

theorem Granted.randomKey {a : Act} {db : DB} {ctx : Ctx} (h : Granted a db ctx) :
    ctx.randomKey = a.ctx.randomKey := by
  unfold Granted at h
  split at h
  · rw [h]
  · obtain ⟨auth, -, rfl⟩ := h
    rfl

theorem makesToken_of_edit {start : System} {pre : List Act} {a : Act} {row row' : User}
    (h : Edit (Runs.after step start pre) a row row') (hne : row'.accessToken ≠ row.accessToken) :
    MakesToken start pre a row row'.accessToken := by
  have hcongr : ∀ {u : User}, row'.core = u.core → row'.accessToken = u.accessToken :=
    fun he => User.core_congr (f := User.accessToken) (fun _ => rfl) he
  have hsame : ∀ {u : User}, row'.core = u.core → u.accessToken = row.accessToken → False :=
    fun he hu => hne ((hcongr he).trans hu)
  cases h with
  | @tokenGenerated ctx key hreq hctx hid hkey hcore =>
    rw [Granted.randomKey hctx] at hkey
    exact ⟨hreq, ctx, key, hctx, hid, hkey, hcongr hcore⟩
  | adminEdited _ _ _ _ _ hcore => exact (hsame hcore rfl).elim
  | passwordReset _ _ _ _ hcore => exact (hsame hcore rfl).elim
  | selfEdited _ _ _ _ _ hcore => exact (hsame hcore (overlay_accessToken rfl)).elim
  | managed _ _ _ hcore => exact (hsame hcore rfl).elim
  | selfDeleted _ _ _ hcore => exact (hsame hcore rfl).elim
  | affCodeGiven _ _ _ hcore => exact (hsame hcore (overlay_accessToken rfl)).elim
  | emailBound _ _ _ hcore => exact (hsame hcore (overlay_accessToken rfl)).elim
  | bound _ _ hcore => exact (hsame hcore (overlay_accessToken (bind_blank _ _).2.2)).elim

/-- **An access token is made by its owner.**  Whatever token an account has after
a run of the process, it had at the start, or the account came without one, or a
request of its own made it. -/
theorem token_origin (setup : Bool) (db : DB) (acts : List Act) {row' : User}
    (hrow' : row' ∈ (Runs.after step (System.start setup db) acts).db.users) :
    (∃ row ∈ db.users, row.id = row'.id ∧ row.accessToken = row'.accessToken) ∨
      Arose (System.start setup db) acts User.accessToken row' (fun _ _ =>
        row'.accessToken = none) ∨
      Caused (System.start setup db) acts User.accessToken row' (fun pre a row =>
        MakesToken (System.start setup db) pre a row row'.accessToken) :=
  column_origin (f := User.accessToken) (N := fun _ _ token => token = none) (fun _ => rfl)
    (System.start setup db) (fun _ _ _ _ _ h => noToken_of_creation h)
    (fun _ _ _ _ _ _ _ h hne => makesToken_of_edit h hne) acts hrow'

/-! ### Bob forgets his password -/

def bobDB : DB where
  users := Table.single { id := 1, username := "bob", password := "#old", affCode := "b"
                          role := 1, status := 1, email := "bob@example.com" }
  twoFAs := Table.empty
  backupCodes := Table.empty
  passkeys := Table.empty

def bobCookie : Session :=
  { id := some 1, username := some "bob", role := some 1, status := some 1 }

/-- He has a code mailed to him, is given a password, and binds a new address and
makes a token with it. -/
def recovery : List Act :=
  [{ request := .sendPasswordResetEmail "bob@example.com"
     env := Env.plain
     ctx := { Ctx.plain 0 with uuid := "token" } },
   { request := .resetPassword (some ⟨"bob@example.com", "token"⟩)
     env := Env.plain
     ctx := { Ctx.plain second with uuid := "secret" } },
   { request := .sendEmailVerification "bob@new.org"
     env := Env.plain
     ctx := { Ctx.plain second with uuid := "123456" } },
   { request := .emailBind "bob@new.org" "123456"
     cookie := bobCookie
     env := Env.plain
     ctx := Ctx.plain (2 * second) },
   { request := .generateAccessToken
     cookie := bobCookie
     env := Env.plain
     ctx := Ctx.plain (3 * second) }]

def recovered : User :=
  { id := 1, username := "bob", password := "#secret", affCode := "b", role := 1, status := 1
    email := "bob@new.org", accessToken := some "fresh" }

theorem mem_recovered :
    recovered ∈ (Runs.after step (System.start true bobDB) recovery).db.users := by
  have hrows :
      (Runs.after step (System.start true bobDB) recovery).db.users.rows = [recovered] := by decide
  rw [Table.mem_def, hrows]
  exact List.mem_singleton_self _

theorem recovered_password :
    (∃ row ∈ bobDB.users, row.id = recovered.id ∧ row.password = recovered.password) ∨
      Arose (System.start true bobDB) recovery User.password recovered (fun _ a =>
        FirstPassword a recovered.password) ∨
      Caused (System.start true bobDB) recovery User.password recovered (fun pre a row =>
        SetsPassword (System.start true bobDB) pre a row recovered.password) :=
  password_origin true bobDB recovery mem_recovered

theorem recovered_email :
    (∃ row ∈ bobDB.users, row.id = recovered.id ∧ row.email = recovered.email) ∨
      Arose (System.start true bobDB) recovery User.email recovered (fun pre a =>
        FirstEmail (System.start true bobDB) pre a recovered.email) ∨
      Caused (System.start true bobDB) recovery User.email recovered (fun pre a row =>
        BindsEmail (System.start true bobDB) pre a row recovered.email) :=
  email_origin true bobDB recovery mem_recovered

theorem recovered_token :
    (∃ row ∈ bobDB.users, row.id = recovered.id ∧ row.accessToken = recovered.accessToken) ∨
      Arose (System.start true bobDB) recovery User.accessToken recovered (fun _ _ =>
        recovered.accessToken = none) ∨
      Caused (System.start true bobDB) recovery User.accessToken recovered (fun pre a row =>
        MakesToken (System.start true bobDB) pre a row recovered.accessToken) :=
  token_origin true bobDB recovery mem_recovered

end AuthGateway.CredentialOrigins
