import AuthGateway.Lib.Runs
import AuthGateway.Privilege

/-!
# The root account

Deleting, disabling and demoting root is refused by three checks of three
handlers, each on a row that the handler has just read.  `DeleteSelf` and
`ManageUser` drop the error of that read and decide on an empty struct when it
fails.

Here every request meets a database of its own that may fail any of its
statements.  `KeepsRoot` is what the handlers have in common: **whatever fails,
an account that is live, enabled and of role 100 stays so**.  Two handlers need
their first read for it, and in every run in which no request decides blindly
(`Blind`) root stays (`root_stays`).
-/

namespace AuthGateway.RootAccount

open Common Model Controller Middleware Accounts Privilege LoginGate

/-! ### Root -/

/-- The row is that of an account which is live, enabled and of role 100. -/
def IsRoot (r : Int) (u : User) : Prop :=
  u.id = r ∧ u.live = true ∧ u.status = userStatusEnabled ∧ u.role = roleRootUser

/-- **The account `r` is a root that can be used.** -/
def RootAt (r : Int) (db : DB) : Prop := ∃ row ∈ db.users, IsRoot r row

theorem rootAt_iff {r : Int} {db : DB} : RootAt r db ↔ ∃ u ∈ cores db, IsRoot r u := by
  constructor
  · rintro ⟨row, hrow, hroot⟩
    exact ⟨row.core, mem_cores hrow, hroot⟩
  · rintro ⟨-, ⟨row, hrow, rfl⟩, hroot⟩
    exact ⟨row, hrow, hroot⟩

theorem RootAt.congr {r : Int} {db db' : DB} (h : RootAt r db) (hcores : cores db' = cores db) :
    RootAt r db' := by
  rw [rootAt_iff] at h ⊢
  rw [hcores]
  exact h

/-- The one row with that id is root's. -/
theorem RootAt.row {r : Int} {db : DB} (h : RootAt r db) {row : User} (hrow : row ∈ db.users)
    (hid : row.id = r) : IsRoot r row := by
  obtain ⟨root, hmem, hroot⟩ := h
  obtain rfl : row = root := Table.eq_of_key hrow hmem (hid.trans hroot.1.symm)
  exact hroot

/-- An edit that leaves root what it is. -/
theorem RootAt.edit {r : Int} {db db' : DB} {p : User → Bool} {g : User → User} (h : RootAt r db)
    (hg : ∀ row, p row = true → IsRoot r row → IsRoot r (g row))
    (hcores : cores db' = cores db ∨ cores db' = (Change.edit p g).cores db) : RootAt r db' := by
  rcases hcores with hcores | hcores
  · exact h.congr hcores
  obtain ⟨root, hmem, hroot⟩ := h
  rw [rootAt_iff, hcores]
  refine ⟨_, ⟨root, hmem, rfl⟩, ?_⟩
  unfold Table.touch
  split
  · rename_i hp
    exact hg root (Bool.and_eq_true_iff.mp hp).2 hroot
  · exact hroot

/-! ### Programs that keep root -/

/-- Whichever statements fail, root stays. -/
def KeepsRoot {α : Type} (r : Int) (p : M α) : Prop :=
  ∀ db, RootAt r db → Sat p (fun _ db' => RootAt r db') db

variable {α β : Type} {r : Int}

theorem KeepsRoot.pure {a : α} : KeepsRoot r (Pure.pure a : M α) := fun _ h => Sat.pure h

theorem KeepsRoot.bind {p : M α} {f : α → M β} (hp : KeepsRoot r p)
    (hf : ∀ a, KeepsRoot r (f a)) : KeepsRoot r (p >>= f) := by
  intro db h
  refine (hp db h).bind ?_
  intro a db' h'
  exact hf a db' h'

/-- A part that reads, and what the answer is where root is in the table. -/
theorem KeepsRoot.read {p : M α} {f : α → M β} {R : α → Prop}
    (hp : ∀ db, RootAt r db → Sat p (fun a db' => db' = db ∧ R a) db)
    (hf : ∀ a, R a → KeepsRoot r (f a)) : KeepsRoot r (p >>= f) := by
  intro db h
  refine (hp db h).bind ?_
  rintro a db' ⟨rfl, ha⟩
  exact hf a ha db' h

theorem KeepsRoot.readOnly {p : M α} (hp : ReadOnly p) : KeepsRoot r p := by
  intro db h
  refine Prog.Holds.mono (hp.sat db) fun _ db' he => ?_
  rw [he]
  exact h

theorem KeepsRoot.of_cores {p : M α}
    (hp : ∀ db, RootAt r db → Sat p (fun _ db' => cores db' = cores db) db) : KeepsRoot r p := by
  intro db h
  exact Prog.Holds.mono (hp db h) fun _ _ hcores => h.congr hcores

theorem KeepsRoot.spares {p : M α} (hp : SparesUsers p) : KeepsRoot r p :=
  KeepsRoot.of_cores fun db _ => Prog.Holds.mono (hp.sat db) fun _ _ h => cores_congr h

/-! ### What is written -/

/-- An update with the struct leaves root what it is: a field that is zero is
not written. -/
def Harmless (r : Int) (u : User) : Prop :=
  u.id = r → (u.role = 0 ∨ u.role = roleRootUser) ∧ (u.status = 0 ∨ u.status = userStatusEnabled) ∧
    u.deletedAt = none

theorem IsRoot.harmless {u : User} (h : u.id = r → IsRoot r u) : Harmless r u := by
  intro hid
  obtain ⟨-, hlive, hstatus, hrole⟩ := h hid
  exact ⟨Or.inr hrole, Or.inr hstatus, Option.isNone_iff_eq_none.mp hlive⟩

theorem Harmless.overlay {user row : User} (h : Harmless r user) (hid : user.id = r)
    (hroot : IsRoot r row) : IsRoot r (row.overlay user) := by
  obtain ⟨hrole, hstatus, hdeleted⟩ := h hid
  obtain ⟨hrowid, hlive, hrowstatus, hrowrole⟩ := hroot
  refine ⟨hrowid, ?_, ?_, ?_⟩
  · simpa [User.live, User.overlay, hdeleted] using hlive
  · rcases hstatus with hstatus | hstatus
    · simpa [User.overlay, hstatus] using hrowstatus
    · simpa [User.overlay, hstatus] using fun _ => hrowstatus
  · rcases hrole with hrole | hrole
    · simpa [User.overlay, hrole] using hrowrole
    · simpa [User.overlay, hrole] using fun _ => hrowrole

theorem keeps_firstAndUpdates {newUser : User} {f : User → User}
    (hf : ∀ row, row.id = newUser.id → IsRoot r row → IsRoot r (f row)) :
    KeepsRoot r (newUser.firstAndUpdates f) := by
  intro db h
  refine Prog.Holds.mono (firstAndUpdates_cores newUser (g := f) fun _ _ _ _ => rfl) ?_
  intro _ db' hcores
  exact h.edit (fun row hp hroot => hf row (beq_iff_eq.mp hp) hroot) hcores

theorem keeps_update (ctx : Ctx) {user : User} (updatePassword : Bool) (h : Harmless r user) :
    KeepsRoot r (user.update ctx updatePassword) := by
  unfold User.update
  cases hhash : user.hashPassword ctx updatePassword with
  | error e => exact KeepsRoot.pure
  | ok newUser =>
    obtain ⟨password, rfl, -⟩ := hashPassword_fields hhash
    refine keeps_firstAndUpdates fun row hid hroot => ?_
    have hharmless : Harmless r { user with password := password } := h
    exact hharmless.overlay (hid.symm.trans hroot.1) hroot

/-- `Edit` writes no role and no status. -/
theorem keeps_edit (ctx : Ctx) (user : User) (updatePassword : Bool) :
    KeepsRoot r (user.edit ctx updatePassword) := by
  unfold User.edit
  cases user.hashPassword ctx updatePassword with
  | error e => exact KeepsRoot.pure
  | ok newUser => exact keeps_firstAndUpdates fun _ _ hroot => hroot

/-- A new account is another one. -/
theorem keeps_insert (env : Env) (ctx : Ctx) (user : User) (inviterId : Int) :
    KeepsRoot r (user.insert env ctx inviterId) := by
  intro db h
  refine Prog.Holds.mono (insert_cores env ctx user inviterId db) ?_
  rintro a db' (⟨e, -, hcores⟩ | ⟨-, newUser, -, -, hcores⟩)
  · exact h.congr hcores
  · rw [rootAt_iff] at h ⊢
    obtain ⟨u, hu, hroot⟩ := h
    rw [hcores]
    exact ⟨u, Or.inr hu, hroot⟩

theorem keeps_delete (ctx : Ctx) {user : User} (hid : user.id ≠ r) :
    KeepsRoot r (user.delete ctx) := by
  intro db h
  refine Prog.Holds.mono (delete_cores user db) fun _ db' hcores => h.edit ?_ hcores
  intro row hp hroot
  exact absurd ((beq_iff_eq.mp hp).symm.trans hroot.1) hid

theorem keeps_userUpdates {p : User → Bool} {f : User → User}
    (hf : ∀ row, IsRoot r row → IsRoot r (f row)) {db db' : DB} {a : Except Err Unit}
    (h : RootAt r db) (hmay : May (.userUpdates p f) db a db') : RootAt r db' :=
  h.edit (fun row _ => hf row) (cores_userUpdates (g := f) (fun _ _ _ _ => rfl) hmay)

/-! ### What is read -/

/-- A struct that was read as the account `r` is root. -/
theorem getUserById_root (id : Int) (selectAll : Bool) (db : DB) (h : RootAt r db) :
    Sat (getUserById id selectAll) (fun a db' => db' = db ∧ ∀ u, a = .ok u →
      u.id = id ∧ (u.id = r → IsRoot r u)) db := by
  refine Prog.Holds.mono (getUserById_sat id selectAll db) ?_
  rintro a db' ⟨rfl, ha⟩
  refine ⟨rfl, fun u hu => ?_⟩
  obtain ⟨row, hrow, -, hid, rfl⟩ := ha u hu
  have hroot : row.id = r → IsRoot r row := fun hr => h.row hrow hr
  cases selectAll with
  | true => exact ⟨hid, hroot⟩
  | false => exact ⟨hid, hroot⟩

theorem first_root (user : User) (unscoped : Bool) (p : User → Bool) (db : DB) (h : RootAt r db) :
    Sat (user.first unscoped p) (fun a db' => db' = db ∧
      (a.2 = user ∨ (a.2.id = r → IsRoot r a.2))) db := by
  refine Prog.Holds.mono (user.first_sat unscoped p db) ?_
  rintro a db' ⟨rfl, ⟨e, rfl⟩ | ⟨row, hrow, rfl, -⟩⟩
  · exact ⟨rfl, Or.inl rfl⟩
  · exact ⟨rfl, Or.inr fun hid => h.row hrow hid⟩

theorem fillUserById_harmless {user : User} (huser : Harmless r user) (db : DB)
    (h : RootAt r db) :
    Sat (user.fillUserById) (fun a db' => db' = db ∧ Harmless r a.2) db := by
  refine Prog.Holds.mono (User.fillBy_sat _ _ _ _ db) ?_
  rintro a db' ⟨rfl, ha | ⟨row, hrow, rfl, -⟩⟩
  · rw [ha]
    exact ⟨rfl, huser⟩
  · exact ⟨rfl, IsRoot.harmless fun hid => h.row hrow hid⟩

/-! ### One's own account -/

variable {env : Env} {ctx : Ctx} {s : Sess} {codes : VerificationMap}

/-- A write, and an answer. -/
theorem KeepsRoot.answer {p : M α} {f : α → M β} (hp : KeepsRoot r p)
    (hf : ∀ a, ∃ b, f a = Pure.pure b) : KeepsRoot r (p >>= f) := by
  refine hp.bind fun a => ?_
  obtain ⟨b, hb⟩ := hf a
  rw [hb]
  exact KeepsRoot.pure

theorem keeps_generateAccessToken : KeepsRoot r (generateAccessToken ctx s) := by
  unfold generateAccessToken
  refine KeepsRoot.read (getUserById_root ctx.id true) fun a ha => ?_
  cases a with
  | error e => exact KeepsRoot.pure
  | ok user =>
    obtain ⟨-, hroot⟩ := ha user rfl
    cases ctx.randomKey with
    | error e => exact KeepsRoot.pure
    | ok key =>
      dsimp only
      have hgiven : Harmless r { user with accessToken := some key } := IsRoot.harmless hroot
      refine KeepsRoot.read (first_root _ _ _) fun a ha => ?_
      have hfound : Harmless r a.2 := by
        rcases ha with ha | ha
        · rw [ha]
          exact hgiven
        · exact IsRoot.harmless ha
      obtain ⟨err, found⟩ := a
      dsimp only
      split
      · exact KeepsRoot.pure
      · refine (keeps_update ctx false hfound).answer fun a => ?_
        obtain ⟨err, u⟩ := a
        cases err <;> exact ⟨_, rfl⟩

theorem keeps_getAffCode : KeepsRoot r (getAffCode ctx s) := by
  unfold getAffCode
  refine KeepsRoot.read (getUserById_root ctx.id true) fun a ha => ?_
  cases a with
  | error e => exact KeepsRoot.pure
  | ok user =>
    obtain ⟨-, hroot⟩ := ha user rfl
    dsimp only
    split
    · have hgiven : Harmless r { user with affCode := ctx.randomString } := IsRoot.harmless hroot
      refine (keeps_update ctx false hgiven).answer fun a => ?_
      obtain ⟨err, u⟩ := a
      cases err <;> exact ⟨_, rfl⟩
    · exact KeepsRoot.pure

/-- A struct that was read is written back with other settings. -/
theorem keeps_setSetting {user : User} (hroot : user.id = r → IsRoot r user)
    (setting : UserSetting) : KeepsRoot r ((user.setSetting env setting).update ctx false) := by
  obtain ⟨text, htext⟩ := setSetting_eq env user setting
  rw [htext]
  exact keeps_update ctx false (IsRoot.harmless hroot)

theorem keeps_updateUserSetting (req : Option UpdateUserSettingRequest) :
    KeepsRoot r (updateUserSetting env ctx s req) := by
  unfold updateUserSetting
  cases req with
  | none => exact KeepsRoot.pure
  | some req =>
    dsimp only
    split
    · exact KeepsRoot.pure
    · refine KeepsRoot.read (getUserById_root ctx.id true) fun a ha => ?_
      cases a with
      | error e => exact KeepsRoot.pure
      | ok user =>
        refine (keeps_setSetting (ha user rfl).2 _).answer fun a => ?_
        obtain ⟨err, u⟩ := a
        cases err <;> exact ⟨_, rfl⟩

theorem keeps_sidebarUpdate (modules : Option String) :
    KeepsRoot r (sidebarUpdate env ctx s modules) := by
  unfold sidebarUpdate
  refine KeepsRoot.read (getUserById_root ctx.id false) fun a ha => ?_
  cases a with
  | error e => exact KeepsRoot.pure
  | ok user =>
    refine (keeps_setSetting (ha user rfl).2 _).answer fun a => ?_
    obtain ⟨err, u⟩ := a
    cases err <;> exact ⟨_, rfl⟩

theorem keeps_accountUpdate (user : User) : KeepsRoot r (accountUpdate env ctx s user) := by
  unfold accountUpdate
  dsimp only
  split
  · exact KeepsRoot.pure
  · refine (KeepsRoot.readOnly (checkUpdatePassword_readOnly env _ _ _)).bind fun a => ?_
    cases a with
    | error e => exact KeepsRoot.pure
    | ok updatePassword =>
      refine (keeps_update ctx _ fun _ => ⟨Or.inl rfl, Or.inl rfl, rfl⟩).answer fun a => ?_
      obtain ⟨err, u⟩ := a
      cases err <;> exact ⟨_, rfl⟩

theorem keeps_updateSelf (req : Option UpdateSelfRequest) :
    KeepsRoot r (updateSelf env ctx s req) := by
  unfold updateSelf
  cases req with
  | none => exact KeepsRoot.pure
  | some req =>
    cases req with
    | sidebar modules => exact keeps_sidebarUpdate modules
    | account user => exact keeps_accountUpdate user

theorem keeps_emailBind (email : String) (codeAccepted : Bool) :
    KeepsRoot r (emailBind ctx s email codeAccepted) := by
  unfold emailBind
  split
  · exact KeepsRoot.pure
  cases s.cur.id with
  | none => exact KeepsRoot.pure
  | some id =>
    dsimp only
    refine KeepsRoot.read (fillUserById_harmless fun _ => ⟨Or.inl rfl, Or.inl rfl, rfl⟩)
      fun a ha => ?_
    obtain ⟨err, user⟩ := a
    cases err with
    | some e => exact KeepsRoot.pure
    | none =>
      have hgiven : Harmless r { user with email := email } := ha
      refine (keeps_update ctx false hgiven).answer fun a => ?_
      obtain ⟨err, u⟩ := a
      cases err <;> exact ⟨_, rfl⟩

/-! ### Registration and outside identities -/

theorem keeps_register (req : Option User) (codeAccepted : Bool) :
    KeepsRoot r (register env ctx s req codeAccepted) := by
  unfold register
  split
  · exact KeepsRoot.pure
  split
  · exact KeepsRoot.pure
  cases req with
  | none => exact KeepsRoot.pure
  | some user =>
    dsimp only
    split
    · exact KeepsRoot.pure
    split
    · exact KeepsRoot.pure
    split
    · exact KeepsRoot.pure
    refine (KeepsRoot.readOnly (checkUserExistOrDeleted_readOnly _ _)).bind fun a => ?_
    cases a with
    | error e => exact KeepsRoot.pure
    | ok exist =>
      dsimp only
      split
      · exact KeepsRoot.pure
      refine (KeepsRoot.readOnly (getUserIdByAffCode_readOnly user.affCode)).bind fun inviterId => ?_
      refine (keeps_insert env ctx _ inviterId).answer fun a => ?_
      obtain ⟨err, u⟩ := a
      cases err <;> exact ⟨_, rfl⟩

/-- The column of a provider is written into the struct that was filled. -/
theorem keeps_bindAccount {p : Provider} {externalId : String} {taken : M Bool} {takenMsg : String}
    {blank : User} {bound : Reply} (htaken : ReadOnly taken)
    (hblank : blank = {} ∨ blank = p.bind externalId {}) :
    KeepsRoot r (bindAccount ctx s taken takenMsg blank (fun u => p.bind externalId u) bound) := by
  have hbind : ∀ u : User, Harmless r u → Harmless r (p.bind externalId u) := by
    intro u hu
    cases p <;> exact hu
  unfold bindAccount
  refine (KeepsRoot.readOnly htaken).bind fun isTaken => ?_
  split
  · exact KeepsRoot.pure
  cases s.cur.id with
  | none => exact KeepsRoot.pure
  | some id =>
    dsimp only
    have hharmless : Harmless r { blank with id := id } := by
      rcases hblank with rfl | rfl
      · exact fun _ => ⟨Or.inl rfl, Or.inl rfl, rfl⟩
      · cases p <;> exact fun _ => ⟨Or.inl rfl, Or.inl rfl, rfl⟩
    refine KeepsRoot.read (fillUserById_harmless hharmless) fun a ha => ?_
    obtain ⟨err, user⟩ := a
    cases err with
    | some e => exact KeepsRoot.pure
    | none =>
      refine (keeps_update ctx false (hbind user ha)).answer fun a => ?_
      obtain ⟨err, u⟩ := a
      cases err <;> exact ⟨_, rfl⟩

theorem keeps_oauthLogin {taken : M Bool} {fill register : M (Option Err × User)}
    {checkGone : Bool} (htaken : ReadOnly taken) (hfill : ReadOnly fill)
    (hregister : KeepsRoot r register) :
    KeepsRoot r (oauthLogin env s taken fill checkGone register) := by
  unfold oauthLogin
  refine (KeepsRoot.readOnly htaken).bind fun isTaken => ?_
  split
  · refine (KeepsRoot.readOnly hfill).bind fun a => ?_
    obtain ⟨err, user⟩ := a
    cases err with
    | some e => exact KeepsRoot.pure
    | none =>
      dsimp only
      split <;> exact KeepsRoot.pure
  · split
    · exact KeepsRoot.pure
    · refine hregister.answer fun a => ?_
      obtain ⟨err, user⟩ := a
      cases err <;> exact ⟨_, rfl⟩

/-- A name is made up, and the account inserted. -/
theorem keeps_named {name : M String} {user : String → User} {inviterId : Int}
    (hname : ReadOnly name) :
    KeepsRoot r (name >>= fun username => (user username).insert env ctx inviterId) :=
  (KeepsRoot.readOnly hname).bind fun username => keeps_insert env ctx (user username) inviterId

theorem keeps_numbered {user : Int → User} :
    KeepsRoot r (do
      let maxId ← getMaxUserId
      let inviterId ← sessionInviter s
      (user maxId).insert env ctx inviterId) := by
  refine (KeepsRoot.readOnly getMaxUserId_readOnly).bind fun maxId => ?_
  refine (KeepsRoot.readOnly (sessionInviter_readOnly s)).bind fun inviterId => ?_
  exact keeps_insert env ctx (user maxId) inviterId

theorem keeps_gitHubOAuth (req : OAuthRequest) (answer : Except Err GitHubUser) :
    KeepsRoot r (gitHubOAuth env ctx s req answer) := by
  unfold gitHubOAuth gitHubBind
  split
  · exact KeepsRoot.pure
  split
  · split
    · exact KeepsRoot.pure
    split
    · exact KeepsRoot.pure
    · exact keeps_bindAccount (p := .gitHub) (alreadyTaken_readOnly _ _) (Or.inr rfl)
  split
  · exact KeepsRoot.pure
  split
  · exact KeepsRoot.pure
  · exact keeps_oauthLogin (alreadyTaken_readOnly _ _) (fillBy_readOnly _ _ _ _) keeps_numbered

theorem keeps_discordOAuth (req : OAuthRequest) (answer : Except Err DiscordUser) :
    KeepsRoot r (discordOAuth env ctx s req answer) := by
  unfold discordOAuth discordBind
  split
  · exact KeepsRoot.pure
  split
  · split
    · exact KeepsRoot.pure
    split
    · exact KeepsRoot.pure
    · exact keeps_bindAccount (p := .discord) (alreadyTaken_readOnly _ _) (Or.inr rfl)
  split
  · exact KeepsRoot.pure
  split
  · exact KeepsRoot.pure
  · exact keeps_oauthLogin (alreadyTaken_readOnly _ _) (fillBy_readOnly _ _ _ _)
      (keeps_named (usernameOr_readOnly _ _))

theorem keeps_oidcAuth (req : OAuthRequest) (answer : Except Err OidcUser) :
    KeepsRoot r (oidcAuth env ctx s req answer) := by
  unfold oidcAuth oidcBind
  split
  · exact KeepsRoot.pure
  split
  · split
    · exact KeepsRoot.pure
    split
    · exact KeepsRoot.pure
    · exact keeps_bindAccount (p := .oidc) (alreadyTaken_readOnly _ _) (Or.inr rfl)
  split
  · exact KeepsRoot.pure
  split
  · exact KeepsRoot.pure
  · exact keeps_oauthLogin (alreadyTaken_readOnly _ _) (fillBy_readOnly _ _ _ _)
      (keeps_named (usernameOr_readOnly _ _))

theorem keeps_linuxdoOAuth (refusal : Option String) (req : OAuthRequest)
    (answer : Except Err LinuxdoUser) : KeepsRoot r (linuxdoOAuth env ctx s refusal req answer) := by
  unfold linuxdoOAuth linuxDoBind
  cases refusal with
  | some errorDescription => exact KeepsRoot.pure
  | none =>
    dsimp only
    split
    · exact KeepsRoot.pure
    split
    · split
      · exact KeepsRoot.pure
      split
      · exact KeepsRoot.pure
      · exact keeps_bindAccount (p := .linuxDO) (isLinuxDOIdAlreadyTaken_readOnly _) (Or.inr rfl)
    split
    · exact KeepsRoot.pure
    split
    · exact KeepsRoot.pure
    · rename_i linuxdoUser hinfo
      have hfill : ReadOnly
          (User.fillUserByLinuxDOId { linuxDOId := toString linuxdoUser.id }) := by
        unfold User.fillUserByLinuxDOId
        split
        · exact Prog.Only.pure
        · exact User.first_readOnly _ _ _
      refine keeps_oauthLogin (isLinuxDOIdAlreadyTaken_readOnly _) hfill ?_
      split
      · exact KeepsRoot.pure
      · exact keeps_numbered

theorem keeps_weChatAuth (code : String) (answer : Except Err String) :
    KeepsRoot r (weChatAuth env ctx s code answer) := by
  unfold weChatAuth
  split
  · exact KeepsRoot.pure
  split
  · exact KeepsRoot.pure
  · refine keeps_oauthLogin (alreadyTaken_readOnly _ _) (fillBy_readOnly _ _ _ _) ?_
    refine (KeepsRoot.readOnly getMaxUserId_readOnly).bind fun maxId => ?_
    exact keeps_insert env ctx _ _

theorem keeps_weChatBind (code : String) (answer : Except Err String) :
    KeepsRoot r (weChatBind env ctx s code answer) := by
  unfold weChatBind
  split
  · exact KeepsRoot.pure
  split
  · exact KeepsRoot.pure
  · exact keeps_bindAccount (p := .weChat) (alreadyTaken_readOnly _ _) (Or.inl rfl)

theorem keeps_telegramBind (params : Params) : KeepsRoot r (telegramBind env ctx s params) := by
  unfold telegramBind
  split
  · exact KeepsRoot.pure
  split
  · exact KeepsRoot.pure
  split
  · exact KeepsRoot.pure
  · refine (KeepsRoot.readOnly (alreadyTaken_readOnly _ _)).bind fun isTaken => ?_
    split
    · exact KeepsRoot.pure
    cases s.cur.id with
    | none => exact KeepsRoot.pure
    | some id =>
      dsimp only
      refine KeepsRoot.read (fillUserById_harmless fun _ => ⟨Or.inl rfl, Or.inl rfl, rfl⟩)
        fun a ha => ?_
      obtain ⟨err, user⟩ := a
      cases err with
      | some e => exact KeepsRoot.pure
      | none =>
        dsimp only
        split
        · exact KeepsRoot.pure
        refine (keeps_update ctx false ?_).answer fun a => ?_
        · exact ha
        · obtain ⟨err, u⟩ := a
          cases err <;> exact ⟨_, rfl⟩

theorem keeps_login (path : LoginPath) :
    KeepsRoot r (LoginGate.handle env ctx s path) := by
  unfold LoginGate.handle
  cases path with
  | login req => exact KeepsRoot.readOnly (login_readOnly env s req)
  | verify2FALogin code =>
    refine KeepsRoot.of_cores fun db _ => ?_
    exact Prog.Holds.mono (verify2FALogin_sat env ctx s code db) fun _ _ h => cores_congr h.1
  | passkeyLoginFinish body =>
    exact KeepsRoot.of_cores fun db _ => passkeyLoginFinish_cores env ctx s body db
  | gitHubOAuth req answer => exact keeps_gitHubOAuth req answer
  | discordOAuth req answer => exact keeps_discordOAuth req answer
  | oidcAuth req answer => exact keeps_oidcAuth req answer
  | linuxdoOAuth refusal req answer => exact keeps_linuxdoOAuth refusal req answer
  | weChatAuth code answer => exact keeps_weChatAuth code answer
  | telegramLogin params => exact KeepsRoot.readOnly (telegramLogin_readOnly env s params)

/-! ### Administration -/

theorem keeps_createUser (req : Option User) : KeepsRoot r (createUser env ctx s req) := by
  unfold createUser
  cases req with
  | none => exact KeepsRoot.pure
  | some user =>
    dsimp only
    split
    · exact KeepsRoot.pure
    split
    · exact KeepsRoot.pure
    split
    · exact KeepsRoot.pure
    · refine (keeps_insert env ctx _ 0).answer fun a => ?_
      obtain ⟨err, u⟩ := a
      cases err <;> exact ⟨_, rfl⟩

theorem keeps_updateUser (req : Option User) : KeepsRoot r (updateUser ctx s req) := by
  unfold updateUser
  cases req with
  | none => exact KeepsRoot.pure
  | some user =>
    dsimp only
    split
    · exact KeepsRoot.pure
    generalize (if user.password = "" then { user with password := iLoveU } else user) = given
    split
    · exact KeepsRoot.pure
    refine KeepsRoot.read (getUserById_root _ false) fun a _ => ?_
    cases a with
    | error e => exact KeepsRoot.pure
    | ok originUser =>
      dsimp only
      split
      · exact KeepsRoot.pure
      split
      · exact KeepsRoot.pure
      refine (keeps_edit ctx _ _).answer fun a => ?_
      obtain ⟨err, u⟩ := a
      cases err <;> exact ⟨_, rfl⟩

/-- Nobody has a role above root, and a read that fails is an error here. -/
theorem keeps_deleteUser (idParam : String) (hrole : ctx.role ≤ roleRootUser) :
    KeepsRoot r (deleteUser ctx s idParam) := by
  unfold deleteUser
  cases GoString.atoi idParam with
  | mk id err =>
    cases err with
    | some e => exact KeepsRoot.pure
    | none =>
      dsimp only
      refine KeepsRoot.read (getUserById_root id false) fun a ha => ?_
      cases a with
      | error e => exact KeepsRoot.pure
      | ok user =>
        obtain ⟨hid, hroot⟩ := ha user rfl
        dsimp only
        split
        · exact KeepsRoot.pure
        rename_i hrank
        have hne : id ≠ r := by
          intro he
          have hadmin : user.role = roleRootUser := (hroot (hid.trans he)).2.2.2
          rw [hadmin] at hrank
          exact hrank hrole
        refine KeepsRoot.answer ?_ fun a => ?_
        · unfold hardDeleteUserById
          split
          · exact KeepsRoot.pure
          · intro db h
            refine Sat.perform fun a db' hmay => Sat.pure ?_
            rcases cores_userHardDelete hmay with hcores | hcores
            · exact h.congr hcores
            · rw [rootAt_iff] at h ⊢
              obtain ⟨u, hu, hroot⟩ := h
              rw [hcores]
              refine ⟨u, ⟨hu, ?_⟩, hroot⟩
              rw [hroot.1]
              exact hne.symm
        · cases a <;> exact ⟨_, rfl⟩

/-- What takes root out of use when it is decided on an empty struct. -/
def Strips (myRole : Int) (action : String) : Prop :=
  action = "disable" ∨ action = "delete" ∨ action = "demote" ∨
    action = "promote" ∧ myRole = roleRootUser

/-- An action that passes on root's own row, or is none of those, is harmless. -/
theorem manageAction_harmless {myRole : Int} {user user' : User} {action : String}
    (huser : user.id = r → IsRoot r user ∨ user = { id := r } ∧ ¬ Strips myRole action)
    (h : manageAction myRole user action = .ok user') :
    Harmless r user' ∧ (action = "delete" → user'.id ≠ r) := by
  have hid : user'.id = user.id := AdminRank.manageAction_id h
  obtain ⟨role, status, rfl, hrole, hstatus, hdelete⟩ := manageAction_ok h
  by_cases hr : user.id = r
  · rcases huser hr with hroot | ⟨rfl, hnot⟩
    · obtain ⟨-, hlive, hon, hadmin⟩ := hroot
      refine ⟨fun _ => ⟨?_, ?_, Option.isNone_iff_eq_none.mp hlive⟩, fun he => ?_⟩
      · rcases hrole with he | ⟨-, -, hbelow, -⟩ | ⟨-, hne, -⟩
        · exact Or.inr (he.trans hadmin)
        · rw [hadmin] at hbelow
          exact absurd hbelow (by decide)
        · exact absurd hadmin hne
      · rcases hstatus with he | ⟨he, rfl⟩ | ⟨-, he⟩
        · exact Or.inr (he.trans hon)
        · unfold manageAction at h
          rw [if_pos he, if_pos hadmin] at h
          cases h
        · exact Or.inr he
      · exact absurd hadmin (hdelete he).1
    · unfold Strips at hnot
      simp only [not_or] at hnot
      refine ⟨fun _ => ⟨?_, ?_, rfl⟩, fun he => absurd he hnot.2.1⟩
      · rcases hrole with he | ⟨he, hmine, -⟩ | ⟨he, -⟩
        · exact Or.inl he
        · exact absurd ⟨he, hmine⟩ hnot.2.2.2
        · exact absurd he hnot.2.2.1
      · rcases hstatus with he | ⟨he, -⟩ | ⟨-, he⟩
        · exact Or.inl he
        · exact absurd he hnot.1
        · exact Or.inr he
  · have hne : user.id ≠ r := hr
    exact ⟨fun he => absurd he hne, fun _ => hne⟩

/-- What the action writes. -/
theorem keeps_managed {user : User} {action : String} {f : Option Err × User → M β}
    (hharmless : Harmless r user) (hdelete : action = "delete" → user.id ≠ r)
    (hf : ∀ a, ∃ b, f a = Pure.pure b) :
    KeepsRoot r (do
      let a ← manageDelete ctx user action
      match a.1 with
      | some e => f (some e, a.2)
      | none =>
        let a ← a.2.update ctx false
        f a) := by
  have hpart : ∀ db, RootAt r db → Sat (manageDelete ctx user action)
      (fun a db' => RootAt r db' ∧ Harmless r a.2) db := by
    intro db h
    unfold manageDelete
    split
    · rename_i he
      have hne : user.id ≠ r := hdelete he
      refine Prog.Holds.mono ((keeps_delete ctx hne db h).and (delete_gone user db)) ?_
      rintro a db' ⟨hroot, hid, -⟩
      exact ⟨hroot, fun hr => absurd (hid.symm.trans hr) hne⟩
    · exact Sat.pure ⟨h, hharmless⟩
  intro db h
  refine (hpart db h).bind ?_
  rintro ⟨err, user'⟩ db' ⟨h', hharmless'⟩
  cases err with
  | some e =>
    obtain ⟨b, hb⟩ := hf (some e, user')
    dsimp only
    rw [hb]
    exact Sat.pure h'
  | none => exact (keeps_update ctx false hharmless').answer hf db' h'

/-! ### The two that need their first read -/

/-- A read, and what follows. -/
theorem RootAt.serve_read {p : M α} {f : α → M β} {st : Store} (h : RootAt r st.db)
    (hp : ReadOnly p) (hf : KeepsRoot r (f (serve p st).1)) :
    RootAt r (serve (p >>= f) st).2.db := by
  rw [serve_bind]
  refine (hf _ ?_).serve
  rw [hp.serve]
  exact h

/-- The struct that `ManageUser` decides on: root's row, where it is answered. -/
theorem first_decides (id : Int) (decided : Prop) {st : Store} (h : RootAt r st.db)
    (hread : id = r → decided ∨ st.outages 0 = none) :
    let user := (serve (User.first { id := id } true fun _ => true) st).1.2
    user.id = r → IsRoot r user ∨ user = { id := r } ∧ decided := by
  intro user hid
  rcases ((first_root { id := id } true (fun _ => true) st.db h).serve).2 with he | hroot
  · have huser : user = { id := id } := he
    rw [huser] at hid
    have hkey : id = r := hid
    subst hkey
    rcases hread rfl with hdecided | hup
    · exact Or.inr ⟨huser, hdecided⟩
    · -- the read is answered, and root's row is in the table
      left
      obtain ⟨root, hmem, hroot⟩ := h
      have hsome : (st.db.users.find? (seen true fun u => true && (id == 0 || u.id == id))).isSome
          = true := by
        by_contra hnone
        rw [Option.not_isSome_iff_eq_none] at hnone
        have hnot := Table.find?_eq_none.mp hnone root hmem
        simp [seen, hroot.1] at hnot
      obtain ⟨row, hrow⟩ := Option.isSome_iff_exists.mp hsome
      have hserve := serve_first_up { id := id } true (fun _ => true) hup
      dsimp only at hserve
      rw [hrow] at hserve
      have hfound : user = row := congrArg (fun a => a.1.2) hserve
      rw [hfound]
      have hrowid : row.id = id := by
        rw [← hfound, huser]
      exact RootAt.row ⟨root, hmem, hroot⟩ (Table.find?_mem hrow) hrowid
  · exact Or.inl (hroot hid)

theorem manageUser_keeps {req : Option ManageRequest} {st : Store} (h : RootAt r st.db)
    (hread : ∀ q, req = some q → q.id = r → Strips ctx.role q.action → st.outages 0 = none) :
    RootAt r (serve (manageUser ctx s req) st).2.db := by
  unfold manageUser
  cases req with
  | none => exact h
  | some q =>
    have hanswered : q.id = r → ¬ Strips ctx.role q.action ∨ st.outages 0 = none := by
      intro hid
      by_cases hstrips : Strips ctx.role q.action
      · exact Or.inr (hread q rfl hid hstrips)
      · exact Or.inl hstrips
    have hdecides := first_decides q.id (¬ Strips ctx.role q.action) h hanswered
    dsimp only at hdecides ⊢
    refine h.serve_read (User.first_readOnly _ _ _) ?_
    generalize (serve (User.first { id := q.id } true fun _ => true) st).1 = a at hdecides ⊢
    obtain ⟨err, user⟩ := a
    dsimp only at hdecides ⊢
    split
    · exact KeepsRoot.pure
    split
    · exact KeepsRoot.pure
    cases haction : manageAction ctx.role user q.action with
    | error msg => exact KeepsRoot.pure
    | ok user' =>
      have hanswer : ∀ a : Option Err × User, ∃ b : Out,
          (match a.1 with
            | some e => (pure (s.apiError e) : M Out)
            | none =>
              let clearUser : User := { role := a.2.role, status := a.2.status }
              pure (s.answer (.apiSuccess clearUser.toJson))) = pure b := by
        rintro ⟨err, u⟩
        cases err <;> exact ⟨_, rfl⟩
      obtain ⟨hharmless, hdelete⟩ := manageAction_harmless hdecides haction
      exact keeps_managed hharmless hdelete hanswer

theorem deleteSelf_keeps {st : Store} (h : RootAt r st.db)
    (hread : ctx.id = r → st.outages 0 = none) :
    RootAt r (serve (deleteSelf ctx s) st).2.db := by
  have hdelete : ∀ role : Int, (ctx.id = r → role = roleRootUser) → KeepsRoot r (do
      if role = roleRootUser then return s.fail "不能删除超级管理员账户"
      match ← deleteUserById ctx ctx.id with
      | some e => return s.apiError e
      | none => return s.answer (.done "")) := by
    intro role hrole
    split
    · exact KeepsRoot.pure
    · rename_i hnot
      have hne : ctx.id ≠ r := fun hid => hnot (hrole hid)
      refine KeepsRoot.answer ?_ fun a => ?_
      · unfold deleteUserById
        split
        · exact KeepsRoot.pure
        · exact (keeps_delete ctx hne).answer fun _ => ⟨_, rfl⟩
      · cases a <;> exact ⟨_, rfl⟩
  unfold deleteSelf
  split
  · exact h
  refine h.serve_read (getUserById_only (fun _ _ => rfl) ctx.id false) ?_
  have hread' := (getUserById_root ctx.id false st.db h).serve
  cases hfound : (serve (getUserById ctx.id false) st).1 with
  | ok user =>
    refine hdelete (show User from user).role fun hid => ?_
    obtain ⟨huid, hroot⟩ := hread'.2 user hfound
    exact (hroot (huid.trans hid)).2.2.2
  | error e =>
    refine hdelete 0 fun hid => ?_
    obtain ⟨root, hmem, hroot⟩ := h
    have hup : serve (getUserById ctx.id false) st = (.ok root.omitPassword, st.rest) :=
      serve_getUserById_up (hread hid) hmem hroot.2.1 (hroot.1.trans hid.symm)
    rw [hup] at hfound
    cases hfound

/-! ### Every request -/

/-- A request with the outages of the database it meets. -/
structure Call where
  act : Act
  outages : Nat → Option Err

/-- A request served on a database that may fail any of its statements. -/
def serveStep (sys : System) (c : Call) : System :=
  match c.act.request with
  | .postSetup req =>
    let g := (postSetup c.act.ctx req ⟨sys.process, sys.setup, ⟨sys.db, c.outages⟩⟩).2
    { sys with process := g.process, setup := g.setup, db := g.accounts.db }
  | _ =>
    let result := serve (Accounts.handle c.act sys.codes) ⟨sys.db, c.outages⟩
    { sys with db := result.2.db, codes := result.1.2 }

/-- On a database in order this is `step`. -/
theorem serveStep_up (sys : System) (a : Act) :
    serveStep sys ⟨a, fun _ => none⟩ = step sys a := by
  have hserve := serve_ofDB (Accounts.handle a sys.codes) sys.db
  unfold Store.ofDB at hserve
  unfold serveStep step
  cases a.request with
  | postSetup req =>
    unfold Store.ofDB
    dsimp only
  | _ =>
    dsimp only
    rw [hserve]

/-- The handlers that decide on what they have read, or on nothing. -/
def Deciding : Request → Prop
  | .manageUser _ | .deleteSelf => False
  | _ => True

theorem keeps_route {q : Request} (hq : Deciding q)
    (hrole : minRole q = some roleAdminUser → ctx.role ≤ roleRootUser) :
    KeepsRoot r (route env codes s ctx q) := by
  unfold route
  cases q with
  | register req => exact keeps_register req _
  | createUser req => exact keeps_createUser req
  | updateUser req => exact keeps_updateUser req
  | manageUser req => exact hq.elim
  | deleteUser idParam => exact keeps_deleteUser idParam (hrole rfl)
  | updateSelf req => exact keeps_updateSelf req
  | deleteSelf => exact hq.elim
  | generateAccessToken => exact keeps_generateAccessToken
  | getAffCode => exact keeps_getAffCode
  | updateUserSetting req => exact keeps_updateUserSetting req
  | emailBind email code => exact keeps_emailBind email _
  | weChatBind code answer => exact keeps_weChatBind code answer
  | telegramBind params => exact keeps_telegramBind params
  | login path => exact keeps_login path
  | rest handler h => exact KeepsRoot.spares (h ctx s)
  | postSetup | sendEmailVerification | sendPasswordResetEmail | resetPassword =>
    exact KeepsRoot.pure

/-- What the handler is given when the authentication lets the request through:
its context, and the database with the outages that are left. -/
def Reaches (sys : System) (c : Call) (ctx : Ctx) (st : Store) : Prop :=
  ∃ role auth, minRole c.act.request = some role ∧
    serve (authHelper role c.act.cookie c.act.authorization) ⟨sys.db, c.outages⟩ = (.ok auth, st) ∧
    ctx = auth.toCtx c.act.ctx

/-- **A request that decides about the account `r` without having read it**: the
first read of its handler fails. -/
def Blind (sys : System) (c : Call) (r : Int) : Prop :=
  ∃ ctx st e, Reaches sys c ctx st ∧ st.outages 0 = some e ∧
    match c.act.request with
    | .deleteSelf => ctx.id = r
    | .manageUser (some q) => q.id = r ∧ Strips ctx.role q.action
    | _ => False

theorem keeps_guarded {sys : System} {c : Call} (h : RootAt r sys.db) (hseen : ¬ Blind sys c r)
    (codes : VerificationMap) :
    RootAt r (serve (guarded c.act codes) ⟨sys.db, c.outages⟩).2.db := by
  unfold guarded
  cases hmin : minRole c.act.request with
  | none =>
    have hq : Deciding c.act.request := by
      cases hreq : c.act.request with
      | manageUser req =>
        rw [hreq] at hmin
        exact nomatch hmin
      | deleteSelf =>
        rw [hreq] at hmin
        exact nomatch hmin
      | _ => exact trivial
    have hrole : minRole c.act.request = some roleAdminUser → c.act.ctx.role ≤ roleRootUser := by
      rw [hmin]
      exact fun he => nomatch he
    exact Sat.serve (s := ⟨sys.db, c.outages⟩) (keeps_route hq hrole sys.db h)
  | some role =>
    dsimp only
    unfold behind
    rw [serve_bind]
    have hauth := (authHelper_role role c.act.cookie c.act.authorization sys.db).serve
      (s := ⟨sys.db, c.outages⟩)
    have hdb : (serve (authHelper role c.act.cookie c.act.authorization)
        ⟨sys.db, c.outages⟩).2.db = sys.db := (authHelper_readOnly _ _ _).serve _
    have hcur : (Sess.ofCookie c.act.cookie).cur = c.act.cookie := rfl
    rw [hcur]
    cases hserve : serve (authHelper role c.act.cookie c.act.authorization)
        ⟨sys.db, c.outages⟩ with
    | mk a st =>
      rw [hserve] at hauth hdb
      dsimp only at hauth hdb ⊢
      have hroot : RootAt r st.db := by
        rw [hdb]
        exact h
      cases a with
      | error reply => exact hroot
      | ok auth =>
        obtain ⟨-, hvalid⟩ := hauth auth rfl
        have hreach : Reaches sys c (auth.toCtx c.act.ctx) st := ⟨role, auth, hmin, hserve, rfl⟩
        have hfirst : ∀ e, st.outages 0 = some e →
            ¬ match c.act.request with
              | .deleteSelf => (auth.toCtx c.act.ctx).id = r
              | .manageUser (some q) => q.id = r ∧ Strips (auth.toCtx c.act.ctx).role q.action
              | _ => False :=
          fun e he hblind => hseen ⟨_, st, e, hreach, he, hblind⟩
        have hup : (¬ ∃ e, st.outages 0 = some e) → st.outages 0 = none := by
          intro hnot
          rw [← Option.not_isSome_iff_eq_none, Option.isSome_iff_exists]
          exact hnot
        dsimp only
        cases hreq : c.act.request with
        | manageUser req =>
          rw [hreq] at hfirst
          refine manageUser_keeps hroot fun q hq hid hstrips => hup ?_
          rintro ⟨e, he⟩
          subst hq
          exact hfirst e he ⟨hid, hstrips⟩
        | deleteSelf =>
          rw [hreq] at hfirst
          refine deleteSelf_keeps hroot fun hid => hup ?_
          rintro ⟨e, he⟩
          exact hfirst e he hid
        | _ =>
          refine (keeps_route ?_ (fun _ => le_root hvalid) st.db hroot).serve
          exact trivial

theorem keeps_resetPassword (req : Option PasswordResetRequest) :
    KeepsRoot r (resetPassword ctx s codes req) := by
  unfold resetPassword
  cases req with
  | none => exact KeepsRoot.pure
  | some req =>
    dsimp only
    split
    · exact KeepsRoot.pure
    split
    · exact KeepsRoot.pure
    refine KeepsRoot.answer ?_ fun a => ?_
    · unfold resetUserPasswordByEmail
      split
      · exact KeepsRoot.pure
      split
      · exact KeepsRoot.pure
      · rename_i hash _
        intro db h
        refine Sat.perform fun a db' hmay => Sat.pure ?_
        exact keeps_userUpdates (f := fun u => { u with password := hash })
          (fun _ hroot => hroot) h hmay
    · cases a <;> exact ⟨_, rfl⟩

theorem keeps_sendEmailVerification (email : String) :
    KeepsRoot r (sendEmailVerification env ctx s codes email) := by
  unfold sendEmailVerification
  split
  · exact KeepsRoot.pure
  · refine (KeepsRoot.readOnly (isEmailAlreadyTaken_readOnly email)).bind fun isTaken => ?_
    split <;> exact KeepsRoot.pure

theorem keeps_sendPasswordResetEmail (email : String) :
    KeepsRoot r (sendPasswordResetEmail env ctx s codes email) := by
  unfold sendPasswordResetEmail
  split
  · exact KeepsRoot.pure
  · refine (KeepsRoot.readOnly (isEmailAlreadyTaken_readOnly email)).bind fun isTaken => ?_
    split <;> exact KeepsRoot.pure

theorem rootUserExists_readOnly : ReadOnly rootUserExists := by
  unfold rootUserExists
  refine only_perform rfl fun a => ?_
  cases a <;> exact Prog.Only.pure

theorem keeps_createRoot (req : SetupRequest) : KeepsRoot r (createRoot ctx req) := by
  unfold createRoot
  split
  · exact KeepsRoot.pure
  split
  · exact KeepsRoot.pure
  split
  · exact KeepsRoot.pure
  cases ctx.password2Hash req.password with
  | error e => exact KeepsRoot.pure
  | ok password =>
    dsimp only
    intro db h
    refine Sat.perform fun a db' hmay => ?_
    have hroot : RootAt r db' := by
      obtain ⟨hok, herror⟩ := userCreate_new hmay
      cases a with
      | error e =>
        rw [herror e rfl]
        exact h
      | ok row =>
        obtain ⟨-, hcores⟩ := hok row rfl
        rw [rootAt_iff] at h ⊢
        obtain ⟨u, hu, hroot⟩ := h
        rw [hcores]
        exact ⟨u, Or.inr hu, hroot⟩
    cases a <;> exact Sat.pure hroot

theorem keeps_postSetup (req : Option SetupRequest) (g : Gateway) (h : RootAt r g.accounts.db) :
    RootAt r (postSetup ctx req g).2.accounts.db := by
  have hread : RootAt r (serve rootUserExists g.accounts).2.db := by
    rw [rootUserExists_readOnly.serve]
    exact h
  unfold postSetup
  split
  · exact h
  · dsimp only
    cases req with
    | none => exact hread
    | some req =>
      dsimp only
      split
      · rw [(finishSetup_accounts req _).1]
        exact hread
      · have hkeeps : KeepsRoot r (createRoot ctx req) := keeps_createRoot req
        have hcreated := (hkeeps _ hread).serve
        split
        · exact hcreated
        · rw [(finishSetup_accounts req _).1]
          exact hcreated

/-- **A request that has read root before it decides leaves root as it is**,
whichever of its other statements fail. -/
theorem root_step {sys : System} {c : Call} (h : RootAt r sys.db) (hseen : ¬ Blind sys c r) :
    RootAt r (serveStep sys c).db := by
  have hguarded : RootAt r (serve (do return (← guarded c.act sys.codes, sys.codes) :
      M (Out × VerificationMap)) ⟨sys.db, c.outages⟩).2.db := by
    rw [serve_bind]
    exact keeps_guarded h hseen sys.codes
  have hhandle : ∀ {p : M (Out × VerificationMap)}, Accounts.handle c.act sys.codes = p → KeepsRoot r p →
      RootAt r (serve (Accounts.handle c.act sys.codes) ⟨sys.db, c.outages⟩).2.db := by
    intro p hp hkeeps
    rw [hp]
    exact Sat.serve (s := ⟨sys.db, c.outages⟩) (hkeeps sys.db h)
  unfold serveStep
  cases hreq : c.act.request with
  | postSetup req => exact keeps_postSetup req _ h
  | sendEmailVerification email =>
    refine hhandle (by unfold Accounts.handle; rw [hreq]) (keeps_sendEmailVerification email)
  | sendPasswordResetEmail email =>
    refine hhandle (by unfold Accounts.handle; rw [hreq]) (keeps_sendPasswordResetEmail email)
  | resetPassword req =>
    refine hhandle (by unfold Accounts.handle; rw [hreq]) (keeps_resetPassword req)
  | _ =>
    have hrest : Accounts.handle c.act sys.codes = (do return (← guarded c.act sys.codes, sys.codes)) := by
      unfold Accounts.handle
      rw [hreq]
    dsimp only
    rw [hrest]
    exact hguarded

/-- **Root stays.**  In every run in which no request decides about the account
`r` without having read it, `r` is live, enabled and of role 100 at every moment,
whatever the database fails besides. -/
theorem root_stays (sys : System) (r : Int) (h : RootAt r sys.db) (calls : List Call)
    (hseen : Runs.Always (fun pre c => ¬ Blind (Runs.after serveStep sys pre) c r) calls) :
    RootAt r (Runs.after serveStep sys calls).db := by
  refine Runs.run_induction (P := fun calls => RootAt r (Runs.after serveStep sys calls).db) h ?_
    calls hseen
  intro calls c _ hcalls hseen
  rw [Runs.after_snoc]
  exact root_step hcalls hseen

/-! ### A read that fails -/

def lockedDatabase : Err := .new "database is locked"

/-- Root wants to leave. -/
def resign : Act where
  request := .deleteSelf
  cookie := { username := some "root", id := some 1, role := some 100, status := some 1 }
  env := Env.plain
  ctx := Ctx.plain 0

/-- Bob, whom root has promoted, wants root disabled. -/
def disableRoot : Act where
  request := .manageUser (some ⟨1, "disable"⟩)
  cookie := { username := some "bob", id := some 2, role := some 10, status := some 1 }
  env := Env.plain
  ctx := Ctx.plain 0

/-- Every statement fails. -/
def down : Nat → Option Err := fun _ => some lockedDatabase

/-- The first statement fails. -/
def firstDown : Nat → Option Err
  | 0 => some lockedDatabase
  | _ => none

/-- A promotion that is not written, and a resignation that is refused. -/
theorem root_stays_company :
    RootAt 1 (Runs.after serveStep company [⟨promoteBob, down⟩, ⟨resign, fun _ => none⟩]).db := by
  have hroot : RootAt 1 company.db := by
    refine ⟨{ id := 1, username := "root", affCode := "a", role := 100, status := 1 }, ?_, rfl, rfl,
      rfl, rfl⟩
    rw [Table.mem_def]
    exact List.mem_cons_self
  refine root_stays company 1 hroot [⟨promoteBob, down⟩, ⟨resign, fun _ => none⟩] ?_
  have hsplit : [(⟨promoteBob, down⟩ : Call), ⟨resign, fun _ => none⟩]
      = [] ++ [⟨promoteBob, down⟩] ++ [⟨resign, fun _ => none⟩] := rfl
  rw [hsplit, Runs.always_snoc, Runs.always_snoc]
  refine ⟨⟨Runs.always_nil, ?_⟩, ?_⟩
  · rintro ⟨ctx, st, e, -, -, hid, -⟩
    exact absurd hid (by decide)
  · rintro ⟨ctx, st, e, ⟨role, auth, -, hserve, -⟩, hdown, -⟩
    have hstore := serve_ofDB (authHelper role resign.cookie resign.authorization)
      (Runs.after serveStep company ([] ++ [⟨promoteBob, down⟩])).db
    have hst : st = Store.ofDB _ := (congrArg Prod.snd (hserve.symm.trans hstore))
    rw [hst] at hdown
    exact nomatch hdown

/-- **The first read fails, and root is deleted, or disabled by an administrator.** -/
theorem root_lost :
    (∀ r, ¬ RootAt r (Runs.after serveStep company [⟨resign, firstDown⟩]).db) ∧
      ∀ r, ¬ RootAt r (Runs.after serveStep company
        [⟨promoteBob, fun _ => none⟩, ⟨disableRoot, firstDown⟩]).db := by
  have hnone : ∀ db : DB, db.users.rows.all (fun u =>
      !(u.live && u.status == userStatusEnabled && u.role == roleRootUser)) = true →
      ∀ r, ¬ RootAt r db := by
    rintro db hall r ⟨row, hrow, -, hlive, hstatus, hrole⟩
    have hno := List.all_eq_true.mp hall row hrow
    simp [hlive, hstatus, hrole] at hno
  exact ⟨hnone _ (by decide), hnone _ (by decide)⟩

end AuthGateway.RootAccount
