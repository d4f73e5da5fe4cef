import AuthGateway.CredentialOrigins
import AuthGateway.IdentityRace
import AuthGateway.Privilege

/-!
# What the settings let in

Where the accounts and their identities at the providers come from, along the
runs of the whole system.

* `account_origin`: every account that a run adds was created through a door that
  the settings left open at that moment.
* `identity_origin`: every outside identity was reported by a provider that was
  switched on, to the login that created the account or to a session of the account.
-/

namespace AuthGateway.Admission

open Common Model Controller Accounts Authority IssuedCodes CredentialOrigins Refusals
open IdentityRace (column_overlay)

/-! ### Accounts -/

variable {env : Env} {ctx : Ctx} {db : DB} {a : Act}

/-- **A first login at a provider**, with the identity that it reports: registration
is on, no account has the identity, and, but at WeChat, which has a handler of its
own for binding, nobody is signed in. -/
inductive FirstAt (db : DB) (a : Act) : Provider → String → Prop
  | gitHub {req : OAuthRequest} {answer : Except Err GitHubUser} {githubUser : GitHubUser}
      (hreq : a.request = .login (.gitHubOAuth req answer))
      (hfirst : FirstLogin a.env a.cookie req.state)
      (hinfo : getGitHubUserInfoByCode req.code answer = .ok githubUser)
      (hfree : Unclaimed db .gitHub githubUser.login) : FirstAt db a .gitHub githubUser.login
  | discord {req : OAuthRequest} {answer : Except Err DiscordUser} {discordUser : DiscordUser}
      (hreq : a.request = .login (.discordOAuth req answer))
      (hfirst : FirstLogin a.env a.cookie req.state)
      (hinfo : getDiscordUserInfoByCode req.code answer = .ok discordUser)
      (hfree : Unclaimed db .discord discordUser.uid) : FirstAt db a .discord discordUser.uid
  | oidc {req : OAuthRequest} {answer : Except Err OidcUser} {oidcUser : OidcUser}
      (hreq : a.request = .login (.oidcAuth req answer))
      (hfirst : FirstLogin a.env a.cookie req.state)
      (hinfo : getOidcUserInfoByCode req.code answer = .ok oidcUser)
      (hfree : ∀ row ∈ db.users, row.live = true → row.oidcId ≠ oidcUser.openID) :
      FirstAt db a .oidc oidcUser.openID
  | linuxDO {req : OAuthRequest} {answer : Except Err LinuxdoUser} {linuxdoUser : LinuxdoUser}
      (hreq : a.request = .login (.linuxdoOAuth none req answer))
      (hfirst : FirstLogin a.env a.cookie req.state)
      (hinfo : getLinuxdoUserInfoByCode req.code answer = .ok linuxdoUser)
      (hfree : Unclaimed db .linuxDO (toString linuxdoUser.id)) :
      FirstAt db a .linuxDO (toString linuxdoUser.id)
  | weChat {code wechatId : String} {answer : Except Err String}
      (hreq : a.request = .login (.weChatAuth code answer))
      (hregister : a.env.cfg.registerEnabled = true)
      (hinfo : getWeChatIdByCode code answer = .ok wechatId)
      (hfree : Unclaimed db .weChat wechatId) : FirstAt db a .weChat wechatId

/-- **The doors through which an account comes in.** -/
inductive Admitted (start : System) (pre : List Act) (a : Act) : Prop
  /-- The one root of a system that is not set up. -/
  | setup {req : SetupRequest} (hreq : a.request = .postSetup (some req))
      (hopen : (Runs.after step start pre).setup = false)
  /-- An administrator makes an account below his own. -/
  | administrator {user : User} {ctx : Ctx} (hreq : a.request = .createUser (some user))
      (hctx : Granted a (Runs.after step start pre).db ctx) (hadmin : roleAdminUser ≤ ctx.role)
      (hbelow : user.role < ctx.role)
  /-- The form, with an address that was admitted and proved where that is asked for. -/
  | form {user : User} (hreq : a.request = .register (some user))
      (hopen : LetsThrough (Runs.after step start pre) a)
      (hproved : a.env.cfg.emailVerificationEnabled = true →
        Proves start pre a user.email user.verificationCode)
  | provider {p : Provider} {externalId : String}
      (hfirst : FirstAt (Runs.after step start pre).db a p externalId)
      (hopen : LetsThrough (Runs.after step start pre) a)

theorem admitted_of_creation {start : System} (hempty : start.codes.entries = []) {pre : List Act}
    {row' : User} (hopen : LetsThrough (Runs.after step start pre) a)
    (h : Creation (Runs.after step start pre) a row') : Admitted start pre a := by
  cases h with
  | registered hctx hregisters hnew hcore =>
    unfold Granted at hctx
    generalize hq : a.request = q at hregisters hctx
    cases hregisters with
    | register hcode _ =>
      obtain rfl : _ = a.ctx := hctx
      exact .form hq hopen fun hon => issued_of_verify hempty (Or.inl rfl) (hcode hon)
    | gitHub hfirst hinfo hfree => exact .provider (.gitHub hq hfirst hinfo hfree) hopen
    | discord hfirst hinfo hfree => exact .provider (.discord hq hfirst hinfo hfree) hopen
    | oidc hfirst hinfo hfree _ => exact .provider (.oidc hq hfirst hinfo hfree) hopen
    | linuxdo hfirst hinfo hfree => exact .provider (.linuxDO hq hfirst hinfo hfree) hopen
    | weChat hinfo hregister hfree => exact .provider (.weChat hq hregister hinfo hfree) hopen
  | created hreq hctx hbelow _ _ =>
    have hadmin : minRole a.request = some roleAdminUser := by rw [hreq]; rfl
    exact .administrator hreq hctx (Privilege.Granted.role hctx hadmin).1 hbelow
  | root hreq _ _ =>
    unfold LetsThrough at hopen
    rw [hreq] at hopen
    exact .setup hreq hopen

/-- **Every account came in through an open door.**  After a run of a process, an
account that was not there at the start was created by a request of `Admitted`. -/
theorem account_origin (setup : Bool) (db : DB) (acts : List Act) {row' : User}
    (hrow' : row' ∈ (Runs.after step (System.start setup db) acts).db.users) :
    (∃ row ∈ db.users, row.id = row'.id) ∨
      Arose (System.start setup db) acts User.id row' (Admitted (System.start setup db)) := by
  have horigin := column_origin (f := User.id) (N := fun pre a _ => Admitted _ pre a)
    (C := fun _ _ _ _ => False) (fun _ => rfl) (System.start setup db)
    (fun _ _ _ hnew hfresh h => admitted_of_creation rfl (letsThrough_of_new hnew hfresh) h)
    (fun _ _ _ _ _ _ hid _ hne => hne hid) acts hrow'
  rcases horigin with ⟨row, hrow, hid, -⟩ | harose | ⟨_, _, _, _, _, _, _, _, _, hfalse⟩
  · exact Or.inl ⟨row, hrow, hid⟩
  · exact Or.inr harose
  · exact hfalse.elim

/-! ### Outside identities -/

/-- **The identity at a provider of a new account**: none, or what the provider
reported to the first login. -/
def FirstIdentity (p : Provider) (start : System) (pre : List Act) (a : Act) (externalId : String) :
    Prop :=
  externalId = "" ∨ FirstAt (Runs.after step start pre).db a p externalId ∧
    LetsThrough (Runs.after step start pre) a

/-- How a request comes to give an account another identity at a provider. -/
def BindsIdentity (p : Provider) (start : System) (pre : List Act) (a : Act) (row : User)
    (externalId : String) : Prop :=
  Binds a.request p externalId ∧ a.cookie.id = some row.id ∧
    LetsThrough (Runs.after step start pre) a

theorem column_core (p : Provider) (u : User) : p.column u.core = p.column u := by
  cases p <;> rfl

theorem New.column {cleanUser row : User} (h : New env ctx db cleanUser row) (p : Provider) :
    p.column row = p.column cleanUser := by
  obtain ⟨newUser, hhash, hnew⟩ := h
  obtain ⟨password, rfl, -⟩ := hashPassword_fields hhash
  obtain ⟨text, htext⟩ := toInsert_eq env ctx { cleanUser with password := password }
  obtain ⟨k, rfl⟩ := hnew.columns
  rw [htext]
  cases p <;> rfl

theorem column_blank (p q : Provider) (externalId : String) (h : q ≠ p) :
    q.column (p.bind externalId {}) = "" := by
  rw [Provider.column_bind_of_ne h]
  cases q <;> rfl

theorem firstIdentity_of_creation {start : System} {pre : List Act} {row' : User} (p : Provider)
    (hopen : LetsThrough (Runs.after step start pre) a)
    (h : Creation (Runs.after step start pre) a row') :
    FirstIdentity p start pre a (p.column row') := by
  have hcongr : ∀ {row : User}, row'.core = row.core → p.column row' = p.column row :=
    fun he => User.core_congr (column_core p) he
  cases h with
  | registered hctx hregisters hnew hcore =>
    rw [hcongr hcore, New.column hnew]
    generalize hq : a.request = q at hregisters
    have hreported : ∀ {p' : Provider} {externalId : String},
        FirstAt (Runs.after step start pre).db a p' externalId →
        FirstIdentity p' start pre a externalId := fun hfirst => Or.inr ⟨hfirst, hopen⟩
    cases hregisters with
    | register => cases p <;> exact Or.inl rfl
    | gitHub hfirst hinfo hfree =>
      cases p with
      | gitHub => exact hreported (.gitHub hq hfirst hinfo hfree)
      | _ => exact Or.inl rfl
    | discord hfirst hinfo hfree =>
      cases p with
      | discord => exact hreported (.discord hq hfirst hinfo hfree)
      | _ => exact Or.inl rfl
    | oidc hfirst hinfo hfree _ =>
      cases p with
      | oidc => exact hreported (.oidc hq hfirst hinfo hfree)
      | _ => exact Or.inl rfl
    | linuxdo hfirst hinfo hfree =>
      cases p with
      | linuxDO => exact hreported (.linuxDO hq hfirst hinfo hfree)
      | _ => exact Or.inl rfl
    | weChat hinfo hregister hfree =>
      cases p with
      | weChat => exact hreported (.weChat hq hregister hinfo hfree)
      | _ => exact Or.inl rfl
  | created _ _ _ hnew hcore =>
    rw [hcongr hcore, New.column hnew]
    cases p <;> exact Or.inl rfl
  | root _ hnew hcore =>
    obtain ⟨-, password, -, hnew⟩ := hnew
    obtain ⟨k, rfl⟩ := hnew.columns
    rw [hcongr hcore]
    cases p <;> exact Or.inl rfl

theorem bindsIdentity_of_edit {start : System} {pre : List Act} {row row' : User} (p : Provider)
    (hopen : LetsThrough (Runs.after step start pre) a)
    (h : Edit (Runs.after step start pre) a row row') (hne : p.column row' ≠ p.column row) :
    BindsIdentity p start pre a row (p.column row') := by
  have hcongr : ∀ {u : User}, row'.core = u.core → p.column row' = p.column u :=
    fun he => User.core_congr (column_core p) he
  have hsame : ∀ {u : User}, row'.core = u.core → p.column u = p.column row → False :=
    fun he hu => hne ((hcongr he).trans hu)
  have hoverlay : ∀ {u : User}, row'.core = (row.overlay u).core → p.column u ≠ "" := by
    intro u he hempty
    refine hsame he ?_
    rw [column_overlay, if_pos hempty]
  cases h with
  | @bound q externalId hbinds hid hcore =>
    have hset := hoverlay hcore
    obtain rfl : p = q := by
      by_contra hother
      exact hset (column_blank q p externalId hother)
    rw [hcongr hcore, column_overlay, if_neg hset, Provider.column_bind]
    exact ⟨hbinds, hid, hopen⟩
  | adminEdited _ _ _ _ _ hcore => exact (hsame hcore (by cases p <;> rfl)).elim
  | passwordReset _ _ _ _ hcore => exact (hsame hcore (by cases p <;> rfl)).elim
  | selfEdited _ _ _ _ _ hcore => exact (hoverlay hcore (by cases p <;> rfl)).elim
  | managed _ _ _ hcore => exact (hsame hcore (by cases p <;> rfl)).elim
  | selfDeleted _ _ _ hcore => exact (hsame hcore (by cases p <;> rfl)).elim
  | tokenGenerated _ _ _ _ hcore => exact (hsame hcore (by cases p <;> rfl)).elim
  | affCodeGiven _ _ _ hcore => exact (hoverlay hcore (by cases p <;> rfl)).elim
  | emailBound _ _ _ hcore => exact (hoverlay hcore (by cases p <;> rfl)).elim

/-- **Every outside identity was reported by its provider.**  Whatever identity an
account has at a provider after a run of the process, it had at the start, or the
account came with it, or a session of the account bound it, and the provider was
switched on. -/
theorem identity_origin (p : Provider) (setup : Bool) (db : DB) (acts : List Act) {row' : User}
    (hrow' : row' ∈ (Runs.after step (System.start setup db) acts).db.users) :
    (∃ row ∈ db.users, row.id = row'.id ∧ p.column row = p.column row') ∨
      Arose (System.start setup db) acts p.column row' (fun pre a =>
        FirstIdentity p (System.start setup db) pre a (p.column row')) ∨
      Caused (System.start setup db) acts p.column row' (fun pre a row =>
        BindsIdentity p (System.start setup db) pre a row (p.column row')) :=
  column_origin (f := p.column) (column_core p) (System.start setup db)
    (fun _ _ _ hnew hfresh h =>
      firstIdentity_of_creation p (letsThrough_of_new hnew hfresh) h)
    (fun _ _ _ _ hrow hrow' hid h hne =>
      bindsIdentity_of_edit p (letsThrough_of_changed (column_core p) hrow hrow' hid hne) h hne)
    acts hrow'

/-! ### Alice comes from GitHub -/

def doors : Env :=
  { Env.plain with
    cfg := { Env.plain.cfg with gitHubOAuthEnabled := true, weChatAuthEnabled := true } }

def nobody : DB := ⟨Table.empty, Table.empty, Table.empty, Table.empty⟩

/-- She logs in at GitHub, and binds her WeChat account. -/
def arrival : List Act :=
  [{ request := .login (.gitHubOAuth ⟨"state", "code"⟩
       (.ok ⟨"alice", "Alice", "alice@example.com"⟩))
     cookie := { oauthState := some "state" }
     env := doors
     ctx := Ctx.plain 0 },
   { request := .weChatBind "code" (.ok "wx")
     cookie := { id := some 1, username := some "github_1", role := some 1, status := some 1 }
     env := doors
     ctx := Ctx.plain 0 }]

/-- Her row. -/
def alice : User := (Runs.after step (System.start true nobody) arrival).db.users.rows.headD {}

theorem mem_arrival : alice ∈ (Runs.after step (System.start true nobody) arrival).db.users := by
  have hne : (Runs.after step (System.start true nobody) arrival).db.users.rows ≠ [] := by decide
  rw [Table.mem_def, alice, List.headD_eq_head?_getD, List.head?_eq_some_head hne]
  exact List.head_mem hne

theorem alice_admitted :
    (∃ row ∈ nobody.users, row.id = alice.id) ∨
      Arose (System.start true nobody) arrival User.id alice
        (Admitted (System.start true nobody)) :=
  account_origin true nobody arrival mem_arrival

theorem alice_bound :
    (∃ row ∈ nobody.users, row.id = alice.id ∧
        Provider.weChat.column row = Provider.weChat.column alice) ∨
      Arose (System.start true nobody) arrival Provider.weChat.column alice (fun pre a =>
        FirstIdentity .weChat (System.start true nobody) pre a (Provider.weChat.column alice)) ∨
      Caused (System.start true nobody) arrival Provider.weChat.column alice (fun pre a row =>
        BindsIdentity .weChat (System.start true nobody) pre a row
          (Provider.weChat.column alice)) :=
  identity_origin .weChat true nobody arrival mem_arrival

example : alice.gitHubId = "alice" ∧ alice.weChatId = "wx" := by decide

end AuthGateway.Admission
