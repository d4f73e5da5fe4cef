import AuthGateway.AdminRank
import AuthGateway.IssuedCodes

/-!
# Who changes an account

An account changes by the requests of its owner, by those of an administrator
above it, and by a reset of its password with a code from its mailbox
(`Authorized`).  `Edit` lists what each of them makes of a row.

**A run changes no account but so** (`changed_by_authority`), whoever else sends
what; and a deleted account is the same after every run (`deleted_stays`).
-/

namespace AuthGateway.Authority

open Common Model Controller Middleware Accounts IssuedCodes

/-! ### Authority -/

/-- The routes without `authHelper` that write into the account of the session. -/
def Binding : Request → Prop
  | .emailBind _ _ | .weChatBind _ _ | .telegramBind _ | .login (.gitHubOAuth _ _)
  | .login (.discordOAuth _ _) | .login (.oidcAuth _ _) | .login (.linuxdoOAuth _ _ _) => True
  | _ => False

/-- **Whose request may change an account.** -/
inductive Authorized (sys : System) (a : Act) (row : User) : Prop
  | owner {ctx : Ctx} (hroute : minRole a.request = some roleCommonUser)
      (hctx : Granted a sys.db ctx) (hid : ctx.id = row.id)
  | session (hbinding : Binding a.request) (hid : a.cookie.id = some row.id)
  | admin {ctx : Ctx} (hroute : minRole a.request = some roleAdminUser)
      (hctx : Granted a sys.db ctx) (hrank : AdminRank.Outranks ctx.role row.role)
  | mailed {req : PasswordResetRequest} (hreq : a.request = .resetPassword (some req))
      (hemail : row.email = req.email)
      (hcode : sys.codes.verify a.ctx.now req.email req.token passwordResetPurpose = true)

/-- **What a request may make of an account** that is there. -/
inductive Edit (sys : System) (a : Act) (row row' : User) : Prop
  | adminEdited {user : User} {ctx : Ctx} {password : Option String}
      (hreq : a.request = .updateUser (some user)) (hctx : Granted a sys.db ctx)
      (hid : row.id = user.id) (hrank : AdminRank.Outranks ctx.role row.role)
      (hpassword : ∀ hash, password = some hash → a.ctx.password2Hash user.password = .ok hash)
      (hcore : row'.core = (editColumns user password row).core)
  | managed {req : ManageRequest} {ctx : Ctx} {role status : Int} {deletedAt : Option Int}
      (hreq : a.request = .manageUser (some req)) (hctx : Granted a sys.db ctx)
      (hrank : AdminRank.Outranks ctx.role row.role)
      (hcore : row'.core
        = User.core { row with role := role, status := status, deletedAt := deletedAt })
  | selfEdited {user : User} {ctx : Ctx} {password : String}
      (hreq : a.request = .updateSelf (some (.account user))) (hctx : Granted a sys.db ctx)
      (hid : ctx.id = row.id)
      (horiginal : a.env.bcryptCompare row.password user.originalPassword = true)
      (hpassword : password = "" ∨ a.ctx.password2Hash user.password = .ok password)
      (hcore : row'.core = (row.overlay
        { username := user.username, password := password, displayName := user.displayName }).core)
  | selfDeleted {ctx : Ctx} {deletedAt : Option Int} (hreq : a.request = .deleteSelf)
      (hctx : Granted a sys.db ctx) (hid : ctx.id = row.id)
      (hcore : row'.core = User.core { row with deletedAt := deletedAt })
  | tokenGenerated {ctx : Ctx} {key : String} (hreq : a.request = .generateAccessToken)
      (hctx : Granted a sys.db ctx) (hid : ctx.id = row.id) (hkey : ctx.randomKey = .ok key)
      (hcore : row'.core = User.core { row with accessToken := some key })
  | affCodeGiven {ctx : Ctx} (hreq : a.request = .getAffCode) (hctx : Granted a sys.db ctx)
      (hid : ctx.id = row.id)
      (hcore : row'.core = (row.overlay { affCode := ctx.randomString }).core)
  | emailBound {email code : String} (hreq : a.request = .emailBind email code)
      (hid : a.cookie.id = some row.id)
      (hcode : sys.codes.verify a.ctx.now email code emailVerificationPurpose = true)
      (hcore : row'.core = (row.overlay { email := email }).core)
  | bound {p : Provider} {externalId : String} (hbinds : Binds a.request p externalId)
      (hid : a.cookie.id = some row.id)
      (hcore : row'.core = (row.overlay (p.bind externalId {})).core)
  | passwordReset {req : PasswordResetRequest} {password : String}
      (hreq : a.request = .resetPassword (some req)) (hemail : row.email = req.email)
      (hcode : sys.codes.verify a.ctx.now req.email req.token passwordResetPurpose = true)
      (hpassword : a.ctx.password2Hash (generateVerificationCode a.ctx.uuid 12) = .ok password)
      (hcore : row'.core = User.core { row with password := password })

theorem Binds.binding {q : Request} {p : Provider} {externalId : String}
    (h : Binds q p externalId) : Binding q := by
  cases h <;> exact True.intro

theorem Edit.authorized {sys : System} {a : Act} {row row' : User} (h : Edit sys a row row') :
    Authorized sys a row := by
  cases h with
  | adminEdited hreq hctx _ hrank => exact .admin (by rw [hreq]; rfl) hctx hrank
  | managed hreq hctx hrank => exact .admin (by rw [hreq]; rfl) hctx hrank
  | selfEdited hreq hctx hid => exact .owner (by rw [hreq]; rfl) hctx hid
  | selfDeleted hreq hctx hid => exact .owner (by rw [hreq]; rfl) hctx hid
  | tokenGenerated hreq hctx hid => exact .owner (by rw [hreq]; rfl) hctx hid
  | affCodeGiven hreq hctx hid => exact .owner (by rw [hreq]; rfl) hctx hid
  | emailBound hreq hid => exact .session (by rw [hreq]; exact True.intro) hid
  | bound hbinds hid => exact .session (Binds.binding hbinds) hid
  | passwordReset hreq hemail hcode => exact .mailed hreq hemail hcode

/-! ### The row of an account after a change -/

section Rows

variable {db : DB} {row row' : User}

/-- The row that a core is from. -/
theorem core_of_mem (hrow : row ∈ db.users) (hid : row'.id = row.id)
    (h : row'.core ∈ cores db) : row'.core = row.core := by
  obtain ⟨x, hx, he⟩ := h
  obtain rfl : x = row := Table.eq_of_key hx hrow ((User.core_id he).symm.trans hid)
  exact he

theorem core_of_create {new : User} (hrow : row ∈ db.users) (hid : row'.id = row.id)
    (hfresh : ∀ x ∈ db.users, x.id ≠ new.id) (h : row'.core ∈ (Change.create new).cores db) :
    row'.core = row.core := by
  rcases h with he | h
  · exact absurd (hid.symm.trans (User.core_id he)) (hfresh row hrow)
  · exact core_of_mem hrow hid h

/-- An edit that keeps the id leaves the row, or makes of it what it is to make. -/
theorem core_of_edit {p : User → Bool} {g : User → User} (hrow : row ∈ db.users)
    (hid : row'.id = row.id) (h : row'.core ∈ (Change.edit p g).cores db)
    (hg : ∀ x ∈ db.users, p x = true → (g x).id = x.id) : row'.core = row.core ∨
      row.live = true ∧ p row = true ∧ row'.core = (g row).core := by
  obtain ⟨x, hx, he | ⟨hlive, hp, he⟩⟩ := mem_cores_edit h
  · obtain rfl : x = row := Table.eq_of_key hx hrow ((User.core_id he).symm.trans hid)
    exact Or.inl he
  · have hxid : x.id = row.id := (hg x hx hp).symm.trans ((User.core_id he).symm.trans hid)
    obtain rfl : x = row := Table.eq_of_key hx hrow hxid
    exact Or.inr ⟨hlive, hp, he⟩

theorem core_of_editId {id : Int} {g : User → User} (hrow : row ∈ db.users)
    (hid : row'.id = row.id) (h : row'.core ∈ (Change.editId id g).cores db)
    (hg : ∀ x ∈ db.users, x.id = id → (g x).id = x.id) : row'.core = row.core ∨
      row.live = true ∧ row.id = id ∧ row'.core = (g row).core := by
  rcases core_of_edit hrow hid h fun x hx hp => hg x hx (beq_iff_eq.mp hp) with he |
    ⟨hlive, hp, he⟩
  · exact Or.inl he
  · exact Or.inr ⟨hlive, beq_iff_eq.mp hp, he⟩

end Rows

/-! ### One step -/

theorem Granted.password2Hash {a : Act} {db : DB} {ctx : Ctx} (h : Granted a db ctx) :
    ctx.password2Hash = a.ctx.password2Hash := by
  unfold Granted at h
  split at h
  · rw [h]
  · obtain ⟨auth, -, rfl⟩ := h
    rfl

/-- **A step leaves the row of an account, or makes one of the edits of a live one.** -/
theorem edit_of_step (sys : System) (a : Act) {row row' : User} (hrow : row ∈ sys.db.users)
    (hrow' : row' ∈ (step sys a).db.users) (hid : row'.id = row.id) :
    row'.core = row.core ∨ row.live = true ∧ Edit sys a row row' := by
  obtain ⟨c, hc, hcores⟩ := step_changes sys a
  have hmem : row'.core ∈ c.cores sys.db := by
    rw [← hcores]
    exact mem_cores hrow'
  rcases hc with rfl | hc
  · exact Or.inl (core_of_mem hrow hid hmem)
  cases hc with
  | rootCreated _ _ _ hnew =>
    obtain ⟨-, password, -, hnew⟩ := hnew
    exact Or.inl (core_of_create hrow hid hnew.fresh hmem)
  | handled heffect =>
    obtain ⟨ctx, hctx, hpermits⟩ := heffect
    generalize hq : a.request = q at hpermits
    cases hpermits with
    | registered _ hnew => exact Or.inl (core_of_create hrow hid (New.fresh hnew) hmem)
    | created _ hnew => exact Or.inl (core_of_create hrow hid (New.fresh hnew) hmem)
    | edited hx _ hxid hrank hpassword =>
      refine (core_of_editId hrow hid hmem fun _ _ _ => rfl).imp_right ?_
      rintro ⟨hlive, hkey, he⟩
      obtain rfl := Table.eq_of_key hx hrow (hxid.trans hkey.symm)
      rw [Granted.password2Hash hctx] at hpassword
      exact ⟨hlive,
        .adminEdited hq hctx hkey (AdminRank.outranks_of_not_outranked hrank) hpassword he⟩
    | selfEdited hx _ hxid horiginal hpassword =>
      refine (core_of_editId hrow hid hmem fun _ _ _ => rfl).imp_right ?_
      rintro ⟨hlive, hkey, he⟩
      obtain rfl := Table.eq_of_key hx hrow (hxid.trans hkey.symm)
      rw [Granted.password2Hash hctx] at hpassword
      exact ⟨hlive, .selfEdited hq hctx hkey.symm horiginal hpassword he⟩
    | managed hx _ _ hrank haction _ =>
      obtain ⟨role, status, rfl, -⟩ := manageAction_ok haction
      refine (core_of_editId hrow hid hmem fun _ _ hkey => hkey.symm).imp_right ?_
      rintro ⟨hlive, hkey, he⟩
      obtain rfl := Table.eq_of_key hx hrow hkey.symm
      exact ⟨hlive, .managed hq hctx (AdminRank.outranks_of_not_outranked hrank) he⟩
    | managedDelete hx _ hrank _ _ =>
      refine (core_of_editId hrow hid hmem fun _ _ _ => rfl).imp_right ?_
      rintro ⟨hlive, hkey, he⟩
      obtain rfl := Table.eq_of_key hx hrow hkey.symm
      exact ⟨hlive, .managed hq hctx (AdminRank.outranks_of_not_outranked hrank) he⟩
    | deleted => exact Or.inl (core_of_mem hrow hid hmem.1)
    | selfDeleted =>
      refine (core_of_editId hrow hid hmem fun _ _ _ => rfl).imp_right ?_
      rintro ⟨hlive, hkey, he⟩
      exact ⟨hlive, .selfDeleted hq hctx hkey.symm he⟩
    | tokenGenerated hkey =>
      refine (core_of_editId hrow hid hmem fun _ _ _ => rfl).imp_right ?_
      rintro ⟨hlive, hid, he⟩
      exact ⟨hlive, .tokenGenerated hq hctx hid.symm hkey he⟩
    | affCodeGiven =>
      refine (core_of_editId hrow hid hmem fun _ _ _ => rfl).imp_right ?_
      rintro ⟨hlive, hkey, he⟩
      exact ⟨hlive, .affCodeGiven hq hctx hkey.symm he⟩
    | emailBound hcookie hcode =>
      refine (core_of_editId hrow hid hmem fun _ _ _ => rfl).imp_right ?_
      rintro ⟨hlive, hkey, he⟩
      have hown : ctx = a.ctx := by
        unfold Granted at hctx
        rw [hq] at hctx
        exact hctx
      rw [hown] at hcode
      exact ⟨hlive, .emailBound hq (hkey ▸ hcookie) hcode he⟩
    | bound hbinds hcookie =>
      refine (core_of_editId hrow hid hmem fun _ _ _ => rfl).imp_right ?_
      rintro ⟨hlive, hkey, he⟩
      exact ⟨hlive, .bound (hq ▸ hbinds) (hkey ▸ hcookie) he⟩
    | passwordReset hcode hpassword =>
      refine (core_of_edit hrow hid hmem fun _ _ _ => rfl).imp_right ?_
      rintro ⟨hlive, hemail, he⟩
      have hown : ctx = a.ctx := by
        unfold Granted at hctx
        rw [hq] at hctx
        exact hctx
      rw [hown] at hcode hpassword
      exact ⟨hlive, .passwordReset hq (beq_iff_eq.mp hemail) hcode hpassword he⟩

/-- **How a step comes to a row of a new account.** -/
inductive Creation (sys : System) (a : Act) (row' : User) : Prop
  | registered {cleanUser row : User} {ctx : Ctx} (hctx : Granted a sys.db ctx)
      (hregisters : Registers a.env ctx a.cookie sys.codes sys.db a.request cleanUser)
      (hnew : New a.env ctx sys.db cleanUser row) (hcore : row'.core = row.core)
  | created {user row : User} {ctx : Ctx} (hreq : a.request = .createUser (some user))
      (hctx : Granted a sys.db ctx) (hrole : user.role < ctx.role)
      (hnew : New a.env ctx sys.db
        { username := GoString.trimSpace user.username
          password := user.password
          displayName := if user.displayName = "" then GoString.trimSpace user.username
            else user.displayName
          role := user.role } row) (hcore : row'.core = row.core)
  | root {req : SetupRequest} {row : User} (hreq : a.request = .postSetup (some req))
      (hnew : CreatesRoot a.ctx req sys.db row) (hcore : row'.core = row.core)

theorem creation_of_step (sys : System) (a : Act) {row' : User}
    (hrow' : row' ∈ (step sys a).db.users) (hfresh : ∀ x ∈ sys.db.users, x.id ≠ row'.id) :
    Creation sys a row' := by
  obtain ⟨c, hc, hcores⟩ := step_changes sys a
  have hmem : row'.core ∈ c.cores sys.db := by
    rw [← hcores]
    exact mem_cores hrow'
  have hnot : ∀ {v : User}, v ∈ cores sys.db → row'.core = v → False := by
    rintro v ⟨x, hx, rfl⟩ he
    exact hfresh x hx (User.core_id he).symm
  have hedited : ∀ {p g}, c = .edit p g → (∀ x ∈ sys.db.users, p x = true → (g x).id = x.id) →
      Creation sys a row' := by
    rintro p g rfl hg
    obtain ⟨x, hx, he | ⟨-, hp, he⟩⟩ := mem_cores_edit hmem
    · exact (hnot (mem_cores hx) he).elim
    · exact absurd ((hg x hx hp).symm.trans (User.core_id he).symm) (hfresh x hx)
  have heditedId : ∀ {id g}, c = .editId id g →
      (∀ x ∈ sys.db.users, x.id = id → (g x).id = x.id) → Creation sys a row' :=
    fun he hg => hedited he fun x hx hp => hg x hx (beq_iff_eq.mp hp)
  rcases hc with rfl | hc
  · exact (hnot hmem rfl).elim
  cases hc with
  | rootCreated hreq _ _ hnew =>
    rcases hmem with he | hmem
    · exact .root hreq hnew he
    · exact (hnot hmem rfl).elim
  | handled heffect =>
    obtain ⟨ctx, hctx, hpermits⟩ := heffect
    generalize hq : a.request = q at hpermits
    cases hpermits with
    | registered hregisters hnew =>
      rcases hmem with he | hmem
      · exact .registered hctx (hq ▸ hregisters) hnew he
      · exact (hnot hmem rfl).elim
    | created hrole hnew =>
      rcases hmem with he | hmem
      · exact .created hq hctx hrole hnew he
      · exact (hnot hmem rfl).elim
    | deleted => exact (hnot hmem.1 rfl).elim
    | managed _ _ _ _ haction _ =>
      obtain ⟨role, status, rfl, -⟩ := manageAction_ok haction
      exact heditedId rfl fun _ _ hkey => hkey.symm
    | edited => exact heditedId rfl fun _ _ _ => rfl
    | selfEdited => exact heditedId rfl fun _ _ _ => rfl
    | managedDelete => exact heditedId rfl fun _ _ _ => rfl
    | selfDeleted => exact heditedId rfl fun _ _ _ => rfl
    | tokenGenerated => exact heditedId rfl fun _ _ _ => rfl
    | affCodeGiven => exact heditedId rfl fun _ _ _ => rfl
    | emailBound => exact heditedId rfl fun _ _ _ => rfl
    | bound => exact heditedId rfl fun _ _ _ => rfl
    | passwordReset => exact hedited rfl fun _ _ _ => rfl

/-- A step takes away a live row only, and only on the word of an administrator above it. -/
theorem removed_of_step (sys : System) (a : Act) {row : User} (hrow : row ∈ sys.db.users)
    (hgone : ∀ row' ∈ (step sys a).db.users, row'.id ≠ row.id) :
    row.live = true ∧ Authorized sys a row := by
  obtain ⟨c, hc, hcores⟩ := step_changes sys a
  have hnot : ∀ v ∈ c.cores sys.db, v.id ≠ row.id := by
    rw [← hcores]
    rintro v ⟨x, hx, rfl⟩
    exact hgone x hx
  have hcore : row.core ∉ c.cores sys.db := fun h => hnot _ h rfl
  have hkept : ∀ {p g}, c = .edit p g → (∀ x ∈ sys.db.users, p x = true → (g x).id = x.id) →
      row.live = true ∧ Authorized sys a row := by
    rintro p g rfl hg
    refine absurd ?_ (hnot _ ⟨row, hrow, rfl⟩)
    unfold Table.touch
    split
    · rename_i hp
      exact hg row hrow (Bool.and_eq_true_iff.mp hp).2
    · rfl
  have hkeptId : ∀ {id g}, c = .editId id g → (∀ x ∈ sys.db.users, x.id = id → (g x).id = x.id) →
      row.live = true ∧ Authorized sys a row :=
    fun he hg => hkept he fun x hx hp => hg x hx (beq_iff_eq.mp hp)
  rcases hc with rfl | hc
  · exact absurd (mem_cores hrow) hcore
  cases hc with
  | rootCreated => exact absurd (Set.mem_insert_of_mem _ (mem_cores hrow)) hcore
  | handled heffect =>
    obtain ⟨ctx, hctx, hpermits⟩ := heffect
    generalize hq : a.request = q at hpermits
    cases hpermits with
    | registered => exact absurd (Set.mem_insert_of_mem _ (mem_cores hrow)) hcore
    | created => exact absurd (Set.mem_insert_of_mem _ (mem_cores hrow)) hcore
    | @deleted idParam x hx hlive _ hrank =>
      by_cases hkey : x.id = row.id
      · obtain rfl := Table.eq_of_key hx hrow hkey
        exact ⟨hlive, .admin (by rw [hq]; rfl) hctx (Or.inl hrank)⟩
      · exact absurd ⟨mem_cores hrow, fun he => hkey he.symm⟩ hcore
    | managed _ _ _ _ haction _ =>
      obtain ⟨role, status, rfl, -⟩ := manageAction_ok haction
      exact hkeptId rfl fun _ _ hkey => hkey.symm
    | edited => exact hkeptId rfl fun _ _ _ => rfl
    | selfEdited => exact hkeptId rfl fun _ _ _ => rfl
    | managedDelete => exact hkeptId rfl fun _ _ _ => rfl
    | selfDeleted => exact hkeptId rfl fun _ _ _ => rfl
    | tokenGenerated => exact hkeptId rfl fun _ _ _ => rfl
    | affCodeGiven => exact hkeptId rfl fun _ _ _ => rfl
    | emailBound => exact hkeptId rfl fun _ _ _ => rfl
    | bound => exact hkeptId rfl fun _ _ _ => rfl
    | passwordReset => exact hkept rfl fun _ _ _ => rfl

/-- **After a step an account is the same, or its row was live and the request
had authority over it.** -/
theorem same_or_authorized (sys : System) (a : Act) {row : User} (hrow : row ∈ sys.db.users) :
    (∃ row' ∈ (step sys a).db.users, row'.core = row.core) ∨
      row.live = true ∧ Authorized sys a row := by
  by_cases hthere : ∃ row' ∈ (step sys a).db.users, row'.id = row.id
  · obtain ⟨row', hrow', hid⟩ := hthere
    rcases edit_of_step sys a hrow hrow' hid with he | ⟨hlive, hedit⟩
    · exact Or.inl ⟨row', hrow', he⟩
    · exact Or.inr ⟨hlive, hedit.authorized⟩
  · exact Or.inr (removed_of_step sys a hrow fun row' hrow' hid => hthere ⟨row', hrow', hid⟩)

/-! ### Every run -/

/-- **An account changes on authority only.**  After every run it is what it was,
or some request of the run had authority over it, while it was live. -/
theorem changed_by_authority (sys : System) {row : User} (hrow : row ∈ sys.db.users)
    (acts : List Act) :
    (∃ row' ∈ (Runs.after step sys acts).db.users, row'.core = row.core) ∨
      Runs.Earlier step sys (fun s a => ∃ x ∈ s.db.users, x.id = row.id ∧ x.live = true ∧
        Authorized s a x) acts := by
  induction acts using List.reverseRecOn with
  | nil => exact Or.inl ⟨row, hrow, rfl⟩
  | append_singleton acts a ih =>
    rcases ih with ⟨x, hx, he⟩ | hearlier
    · rcases same_or_authorized (Runs.after step sys acts) a hx with ⟨row', hrow', he'⟩ |
        ⟨hlive, hauthorized⟩
      · refine Or.inl ⟨row', ?_, he'.trans he⟩
        rw [Runs.after_snoc]
        exact hrow'
      · exact Or.inr (Runs.earlier_snoc.mpr
          (Or.inr ⟨x, hx, User.core_id he, hlive, hauthorized⟩))
    · exact Or.inr (Runs.earlier_snoc.mpr (Or.inl hearlier))

/-- **A deleted account stays what it is**, in every run: nobody revives it, and
nothing of it is given away. -/
theorem deleted_stays (sys : System) {row : User} (hrow : row ∈ sys.db.users)
    (hdead : row.live = false) (acts : List Act) :
    ∃ row' ∈ (Runs.after step sys acts).db.users, row'.core = row.core := by
  induction acts using List.reverseRecOn with
  | nil => exact ⟨row, hrow, rfl⟩
  | append_singleton acts a ih =>
    obtain ⟨x, hx, he⟩ := ih
    have hxdead : x.live = false := (User.core_congr (fun _ => rfl) he).trans hdead
    rcases same_or_authorized (Runs.after step sys acts) a hx with ⟨row', hrow', he'⟩ | ⟨hlive, -⟩
    · refine ⟨row', ?_, he'.trans he⟩
      rw [Runs.after_snoc]
      exact hrow'
    · rw [hxdead] at hlive
      cases hlive

/-! ### Bob leaves -/

/-- Root, and Bob, who has deleted his account. -/
def without : System := System.start true
  { users := Table.pair { id := 1, username := "root", affCode := "a", role := 100, status := 1 }
      { id := 2, username := "bob", affCode := "b", email := "bob@example.com", role := 1, status := 1
        deletedAt := some 5 } (by decide)
    twoFAs := Table.empty
    backupCodes := Table.empty
    passkeys := Table.empty }

def bob : User :=
  { id := 2, username := "bob", affCode := "b", email := "bob@example.com", role := 1, status := 1
    deletedAt := some 5 }

/-- Root enables him, and he asks for his password. -/
def revival : List Act :=
  [{ request := .manageUser (some ⟨2, "enable"⟩)
     cookie := { username := some "root", id := some 1, role := some 100, status := some 1 }
     env := Env.plain
     ctx := Ctx.plain 10 },
   { request := .sendPasswordResetEmail "bob@example.com", env := Env.plain, ctx := Ctx.plain 11 }]

theorem mem_without : bob ∈ without.db.users :=
  List.mem_cons_of_mem _ (List.mem_singleton_self bob)

theorem bob_changed_by_authority :
    (∃ row' ∈ (Runs.after step without revival).db.users, row'.core = bob.core) ∨
      Runs.Earlier step without (fun s a => ∃ x ∈ s.db.users, x.id = bob.id ∧ x.live = true ∧
        Authorized s a x) revival :=
  changed_by_authority without mem_without revival

theorem bob_stays :
    ∃ row' ∈ (Runs.after step without revival).db.users, row'.core = bob.core :=
  deleted_stays without mem_without rfl revival

end AuthGateway.Authority
