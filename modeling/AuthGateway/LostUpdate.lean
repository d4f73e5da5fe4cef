import AuthGateway.Model.Account
import AuthGateway.Model.Identity
import AuthGateway.Controller.OAuth

/-!
# Updates of one account, side by side

A binding, a new access token or a new setting reads the account and later writes
the whole struct back (`User.Update`), to change one column.  What is written is
every non-zero field of that copy, so a ban, a demotion, a new password or a
quota that came in between is written over.

* `Snapshot`: the row that a request works on, as it was when it was read.
* `Fresh`: when the request writes, the row still has what the request carries.
* `NoLostUpdate`: such a request changes no column but its own, and the role, the
  status, the password and the quota stay as the others leave them.

**A schedule loses no update exactly when its steps are fresh** (`noLostUpdate_iff`).
-/

namespace AuthGateway.LostUpdate

open Common Model Controller Prog

/-! ### Requests, side by side -/

inductive Request
  | emailBind (email : String) (codeAccepted : Bool)
  | gitHubBind (req : OAuthRequest) (answer : Except Err GitHubUser)
  | discordBind (req : OAuthRequest) (answer : Except Err DiscordUser)
  | oidcBind (req : OAuthRequest) (answer : Except Err OidcUser)
  | linuxDoBind (req : OAuthRequest) (answer : Except Err LinuxdoUser)
  | weChatBind (code : String) (answer : Except Err String)
  | telegramBind (params : Params)
  | generateAccessToken
  | updateUserSetting (req : Option UpdateUserSettingRequest)
  | sidebarUpdate (modules : Option String)
  | manageUser (req : Option ManageRequest)
  | resetUserPasswordByEmail (email password : String)
  | increaseUserQuota (id quota : Int)
  | decreaseUserQuota (id quota : Int)

/-- A column that a request changes for itself. -/
inductive Column
  | email
  | provider (p : Provider)
  | accessToken
  | setting

/-- The row without the column. -/
def Column.clear : Column → User → User
  | email, u => { u with email := "" }
  | provider p, u => p.bind "" u
  | accessToken, u => { u with accessToken := none }
  | setting, u => { u with setting := "" }

namespace Request

/-- The column of a request that writes back what it read; the others mean to
change the columns they write. -/
def own : Request → Option Column
  | emailBind _ _ => some .email
  | gitHubBind _ _ => some (.provider .gitHub)
  | discordBind _ _ => some (.provider .discord)
  | oidcBind _ _ => some (.provider .oidc)
  | linuxDoBind _ _ => some (.provider .linuxDO)
  | weChatBind _ _ => some (.provider .weChat)
  | telegramBind _ => some (.provider .telegram)
  | generateAccessToken => some .accessToken
  | updateUserSetting _ => some .setting
  | sidebarUpdate _ => some .setting
  | manageUser _ => none
  | resetUserPasswordByEmail _ _ => none
  | increaseUserQuota _ _ => none
  | decreaseUserQuota _ _ => none

/-- What of the row that it reads the request carries: the sidebar is read
without the password. -/
def carries : Request → User → User
  | sidebarUpdate _, row => row.omitPassword
  | _, row => row

end Request

structure Act where
  request : Request
  cookie : Session := {}
  env : Env
  ctx : Ctx

def handle (a : Act) : M (Out ⊕ Option Err) :=
  let s := Sess.ofCookie a.cookie
  match a.request with
  | .emailBind email codeAccepted => .inl <$> emailBind a.ctx s email codeAccepted
  | .gitHubBind req answer => .inl <$> gitHubBind a.env a.ctx s req answer
  | .discordBind req answer => .inl <$> discordBind a.env a.ctx s req answer
  | .oidcBind req answer => .inl <$> oidcBind a.env a.ctx s req answer
  | .linuxDoBind req answer => .inl <$> linuxDoBind a.env a.ctx s req answer
  | .weChatBind code answer => .inl <$> weChatBind a.env a.ctx s code answer
  | .telegramBind params => .inl <$> telegramBind a.env a.ctx s params
  | .generateAccessToken => .inl <$> generateAccessToken a.ctx s
  | .updateUserSetting req => .inl <$> updateUserSetting a.env a.ctx s req
  | .sidebarUpdate modules => .inl <$> sidebarUpdate a.env a.ctx s modules
  | .manageUser req => .inl <$> manageUser a.ctx s req
  | .resetUserPasswordByEmail email password =>
    .inr <$> resetUserPasswordByEmail a.ctx email password
  | .increaseUserQuota id quota => .inr <$> increaseUserQuota id quota
  | .decreaseUserQuota id quota => .inr <$> decreaseUserQuota id quota

variable {ι : Type}

abbrev Requests (ι : Type) : Type := Prog.Config DBOp DBOp.Res (Out ⊕ Option Err) DB ι

def start (acts : ι → Act) (db : DB) : Requests ι := ⟨fun i => handle (acts i), db⟩

/-- The column of its own of a request, if it is one of those. -/
def ownOf (acts : ι → Act) (i : ι) : Option Column := (acts i).request.own

/-- The next statement of the request looks up a live account, which is `r`. -/
def ReadsAt (c : Requests ι) (i : ι) (r : Option User) : Prop :=
  ∃ q k, c.threads i = .call (.userFirst false q) k ∧ r = c.store.users.find? (seen false q)

variable [DecidableEq ι]

/-! ### What is said of a schedule -/

/-- The request has looked up no account so far. -/
def Unread (c : Requests ι) (pre : List ι) (i : ι) : Prop :=
  ∀ before since r, pre = before ++ i :: since → ¬ ReadsAt (play exec c before) i r

/-- **What the request works on**: the account, as it was when it was looked up first. -/
def Snapshot (c : Requests ι) (pre : List ι) (i : ι) (r : Option User) : Prop :=
  ∃ before since, pre = before ++ i :: since ∧ ReadsAt (play exec c before) i r ∧
    Unread c before i

/-- Every column that is carried, but for the own one and the empty ones, has
the same value in the row. -/
def Agrees (own : Column) (carried row : User) : Prop := row.overlay (own.clear carried) = row

/-- **If the next statement of the request writes its account, the account still
has what the request carries.** -/
def Fresh (acts : ι → Act) (c : Requests ι) (pre : List ι) (i : ι) : Prop :=
  ∀ own q f k r, ownOf acts i = some own →
    (play exec c pre).threads i = .call (.userUpdates q f) k →
    (exec (.userUpdates q f) (play exec c pre).store).1 = .ok () → Snapshot c pre i (some r) →
    ∀ row ∈ (play exec c pre).store.users, row.live = true → row.id = r.id →
      Agrees own ((acts i).request.carries r) row

/-- The two rows are the same but for the column. -/
def SameBut (own : Column) (r r' : Option User) : Prop := r.map own.clear = r'.map own.clear

/-- A request with a column of its own changes no other. -/
def OnlyOwn (acts : ι → Act) (c : Requests ι) (sched : List ι) : Prop :=
  ∀ pre i post own, sched = pre ++ i :: post → ownOf acts i = some own → ∀ id,
    SameBut own ((play exec c (pre ++ [i])).store.users.get? id)
      ((play exec c pre).store.users.get? id)

/-- The columns that only the others mean to change. -/
def guarded (u : User) : Int × Int × String × Int := (u.role, u.status, u.password, u.quota)

/-- From the last statement of the others on, these columns stay. -/
def Settled (acts : ι → Act) (c : Requests ι) (sched : List ι) : Prop :=
  ∀ pre post, sched = pre ++ post → (∀ j ∈ post, ownOf acts j ≠ none) → ∀ id,
    ((play exec c sched).store.users.get? id).map guarded
      = ((play exec c pre).store.users.get? id).map guarded

/-- **No update is lost.** -/
def NoLostUpdate (acts : ι → Act) (c : Requests ι) (sched : List ι) : Prop :=
  OnlyOwn acts c sched ∧ Settled acts c sched

/-! ### Columns -/

/-- The row with the column of another. -/
def Column.copy : Column → User → User → User
  | email, u, v => { v with email := u.email }
  | provider p, u, v => p.bind (p.column u) v
  | accessToken, u, v => { v with accessToken := u.accessToken }
  | setting, u, v => { v with setting := u.setting }

@[simp] theorem copy_clear (own : Column) (u : User) : own.copy u (own.clear u) = u := by
  cases own with
  | provider p => cases p <;> rfl
  | _ => rfl

@[simp] theorem clear_id (own : Column) (u : User) : (own.clear u).id = u.id := by
  cases own with
  | provider p => cases p <;> rfl
  | _ => rfl

@[simp] theorem carries_id (q : Request) (u : User) : (q.carries u).id = u.id := by
  cases q <;> rfl

@[simp] theorem guarded_clear (own : Column) (u : User) : guarded (own.clear u) = guarded u := by
  cases own with
  | provider p => cases p <;> rfl
  | _ => rfl

/-- What is written into the own column does not show in the others. -/
theorem clear_overlay (own : Column) (row u : User) :
    own.clear (row.overlay u) = own.clear (row.overlay (own.clear u)) := by
  cases own with
  | provider p => cases p <;> rfl
  | _ => rfl

/-- A row agrees with what is carried when writing that changes no other column. -/
theorem agrees_iff (own : Column) (carried row : User) :
    Agrees own carried row ↔ own.clear (row.overlay carried) = own.clear row := by
  have hcopy : ∀ v, own.copy (row.overlay (own.clear carried)) v = own.copy row v := by
    intro v
    cases own with
    | provider p => cases p <;> simp [Column.copy, Column.clear, User.overlay, Provider.bind, Provider.column]
    | _ => simp [Column.copy, Column.clear, User.overlay]
  unfold Agrees
  rw [clear_overlay]
  constructor
  · intro h
    rw [h]
  · intro h
    rw [← copy_clear own (row.overlay (own.clear carried)), h, hcopy, copy_clear]

/-- Writing an empty struct changes nothing. -/
theorem overlay_blank (row : User) (id : Int) : row.overlay { id := id } = row := by
  simp [User.overlay]

/-! ### The write -/

/-- The struct is what was read, but for the own column, or blank. -/
def Carried (q : Request) (own : Column) (r : Option User) (u : User) : Prop :=
  own.clear u = own.clear ((r.map q.carries).getD { id := u.id })

/-- The statement that writes the struct. -/
abbrev writeBack (u : User) : DBOp :=
  .userUpdates (fun row => row.id == u.id) fun row => row.overlay u

/-- **What the write of a struct does to each row**: nothing, or it is laid over
the live row with its id. -/
theorem get?_writeBack (u : User) (db : DB) (id : Int) :
    ((exec (writeBack u) db).1 ≠ .ok () ∧
      (exec (writeBack u) db).2.users.get? id = db.users.get? id) ∨
    ((exec (writeBack u) db).1 = .ok () ∧ (exec (writeBack u) db).2.users.get? id
      = (db.users.get? id).map (Table.touch (fun row => row.live && row.id == u.id)
          fun row => row.overlay u)) := by
  simp only [exec]
  cases hup : db.users.update (fun row => row.live && row.id == u.id) fun row => row.overlay u with
  | none => exact Or.inl ⟨fun h => (by cases h), rfl⟩
  | some t => exact Or.inr ⟨rfl, Table.get?_update hup (fun _ => rfl) id⟩

/-- **A write leaves the other columns exactly when the row still has what is
carried.** -/
theorem sameBut_writeBack_iff {q : Request} {own : Column} {r : Option User} {u : User}
    (hcarried : Carried q own r u) (db : DB) :
    (∀ id, SameBut own ((exec (writeBack u) db).2.users.get? id) (db.users.get? id)) ↔
      ((exec (writeBack u) db).1 = .ok () → ∀ v, r = some v →
        ∀ row ∈ db.users, row.live = true → row.id = v.id → Agrees own (q.carries v) row) := by
  have hid : ∀ v, r = some v → u.id = v.id := by
    rintro v rfl
    have h := congrArg User.id hcarried
    simpa using h
  -- the struct is laid over a row: the carried one, as far as the other columns go
  have hover : ∀ v, r = some v → ∀ row : User,
      own.clear (row.overlay u) = own.clear row ↔ Agrees own (q.carries v) row := by
    rintro v rfl row
    rw [agrees_iff, clear_overlay own row u, clear_overlay own row (q.carries v), hcarried]
    rfl
  constructor
  · rintro hsame hok v rfl row hrow hlive hrowid
    rcases get?_writeBack u db row.id with ⟨hfail, -⟩ | ⟨-, hget⟩
    · exact absurd hok hfail
    · have hkeep := hsame row.id
      have hcond : (row.live && row.id == u.id) = true := by
        rw [hlive, hrowid, hid v rfl, beq_self_eq_true]
        rfl
      have hfound : db.users.get? row.id = some row := Table.get?_eq_some.mpr ⟨hrow, rfl⟩
      rw [hget, SameBut, hfound] at hkeep
      simp only [Option.map_some, Table.touch, hcond, if_true, Option.some.injEq] at hkeep
      exact (hover v rfl row).mp hkeep
  · intro hagrees id
    rcases get?_writeBack u db id with ⟨-, hget⟩ | ⟨hok, hget⟩
    · rw [hget]
      rfl
    · rw [hget, SameBut]
      cases hrow : db.users.get? id with
      | none => rfl
      | some row =>
        obtain ⟨hmem, -⟩ := Table.get?_eq_some.mp hrow
        simp only [Option.map_some, Option.some.injEq, Table.touch]
        split
        · rename_i hcond
          obtain ⟨hlive, hrowid⟩ := Bool.and_eq_true_iff.mp hcond
          cases r with
          | none =>
            have hblank : own.clear u = own.clear { id := u.id } := hcarried
            rw [clear_overlay, hblank, ← clear_overlay, overlay_blank]
          | some v =>
            refine (hover v rfl row).mpr (hagrees hok v rfl row hmem hlive ?_)
            rw [← hid v rfl]
            exact beq_iff_eq.mp hrowid
        · rfl

/-! ### What a request has read -/

/-- A request, and what it found when it first looked up an account. -/
abbrev Look : Type := Request × Option (Option User)

/-- What a request may do next. -/
inductive Next : Look → DB → DBOp → Look → Prop
  | other {q : Request} {l : Option (Option User)} {db : DB} {o : DBOp} (h : q.own = none) :
      Next (q, l) db o (q, l)
  | quiet {q : Request} {l : Option (Option User)} {db : DB} {o : DBOp} (h : o.isRead = true)
      (hnot : ∀ p, o ≠ .userFirst false p) : Next (q, l) db o (q, l)
  | reads {q : Request} {db : DB} {p : User → Bool} :
      Next (q, none) db (.userFirst false p) (q, some (db.users.find? (seen false p)))
  | rereads {q : Request} {r : Option User} {db : DB} {p : User → Bool} :
      Next (q, some r) db (.userFirst false p) (q, some r)
  | write {q : Request} {own : Column} {r : Option User} {u : User} {db : DB}
      (hown : q.own = some own) (h : Carried q own r u) :
      Next (q, some r) db (writeBack u) (q, some r)

abbrev Goes {α : Type} (fin : Look → α → Prop) (p : M α) (l : Look) : Prop :=
  Follows exec Next fin p l

/-- Whatever the request has read in the end. -/
abbrev Any {α : Type} (_ : Look) (_ : α) : Prop := True

/-- A program that looks up no account. -/
abbrev Blind {α : Type} (p : M α) : Prop :=
  Only (fun o => o.isRead = true ∧ ∀ q, o ≠ .userFirst false q) p

theorem goes_blind {α : Type} {p : M α} (hp : Blind p) (l : Look) : Goes (fun l' _ => l' = l) p l :=
  Follows.of_only hp fun _ _ ho => .quiet ho.1 ho.2

/-- A request without a column of its own may do anything. -/
theorem goes_other {α : Type} {q : Request} (hq : q.own = none) (p : M α) :
    Goes Any p (q, none) := by
  induction p with
  | ret a => exact trivial
  | call o k ih => exact fun db => ⟨_, .other hq, ih _⟩

variable {q : Request} {own : Column}

/-- The first lookup of an account. -/
theorem first_goes (user : User) (p : User → Bool) :
    Goes (fun l' r => ∃ row : Option User, l' = (q, some row) ∧ r.2 = row.getD user ∧
      ∀ v, row = some v → p v = true) (user.first false p) (q, none) := by
  unfold User.first
  refine Follows.perform_bind fun db => ⟨_, .reads, ?_⟩
  simp only [exec]
  cases hfind : db.users.find? (seen false fun u => p u && (user.id == 0 || u.id == user.id)) with
  | none => exact ⟨none, rfl, rfl, fun v hv => by cases hv⟩
  | some row =>
    refine ⟨some row, rfl, rfl, ?_⟩
    rintro v ⟨⟩
    have hholds := Table.find?_holds hfind
    simp only [seen, Bool.and_eq_true] at hholds
    exact hholds.2.1

theorem fillUserById_goes (user : User) :
    Goes (fun l' r => r.1 = none → ∃ row : Option User, l' = (q, some row) ∧
      r.2 = row.getD user) user.fillUserById (q, none) := by
  unfold User.fillUserById User.fillBy
  split
  · intro h
    cases h
  · refine (first_goes user _).bind ?_
    rintro r l' ⟨row, hl, hr, -⟩ -
    exact ⟨row, hl, hr⟩

theorem getUserById_goes (id : Int) (selectAll : Bool) :
    Goes (fun l' r => ∀ u, r = .ok u → ∃ row : User, l' = (q, some (some row)) ∧
      u = if selectAll then row else row.omitPassword) (getUserById id selectAll) (q, none) := by
  unfold getUserById
  by_cases hid : id = 0
  · rw [if_pos hid]
    intro u hu
    cases hu
  · rw [if_neg hid]
    refine Follows.perform_bind fun db => ⟨_, .reads, ?_⟩
    simp only [exec]
    cases hfind : db.users.find? (seen false fun u => u.id == id) with
    | none =>
      intro u hu
      cases hu
    | some row =>
      intro u hu
      exact ⟨row, rfl, (Except.ok.inj hu).symm⟩

theorem next_first (q : Request) (r : Option User) (db : DB) (unscoped : Bool) (p : User → Bool) :
    Next (q, some r) db (.userFirst unscoped p) (q, some r) := by
  cases unscoped with
  | true => exact .quiet rfl fun p h => nomatch h
  | false => exact .rereads

/-- `User.Update` with the struct that the request works on. -/
theorem update_goes {r : Option User} {u : User} (hown : q.own = some own)
    (hcarried : Carried q own r u) (ctx : Ctx) : Goes Any (u.update ctx false) (q, some r) := by
  have hhash : u.hashPassword ctx false = .ok u := rfl
  unfold User.update
  rw [hhash]
  dsimp only
  unfold User.firstAndUpdates
  refine (User.first_follows (next_first q r) u false).bind ?_
  rintro ⟨err, row⟩ l' ⟨rfl, hid⟩
  dsimp only at hid ⊢
  rw [hid]
  split
  · exact trivial
  · refine Follows.perform_bind fun db => ⟨_, .write hown hcarried, ?_⟩
    split <;> exact trivial

/-! ### The handlers -/

theorem goes_map {α β : Type} {p : M α} {l : Look} (h : Goes Any p l) (f : α → β) :
    Goes Any (f <$> p) l := by
  rw [map_eq_pure_bind]
  exact h.bind fun _ _ _ => trivial

/-- What is made of the account that was filled, but for the own column. -/
theorem carried_filled (blank : User) {r : Option User} {u : User} (hq : ∀ v, q.carries v = v)
    (hblank : own.clear blank = own.clear { id := blank.id })
    (hu : own.clear u = own.clear (r.getD blank)) : Carried q own r u := by
  have hid : u.id = (r.getD blank).id := by simpa using congrArg User.id hu
  unfold Carried
  rw [hu]
  cases r with
  | none =>
    have hblankid : u.id = blank.id := hid
    rw [hblankid]
    exact hblank
  | some row => rw [Option.map_some, Option.getD_some, Option.getD_some, hq]

theorem clear_bind (p : Provider) (x : String) (u : User) :
    (Column.provider p).clear (p.bind x u) = (Column.provider p).clear u := by
  cases p <;> rfl

theorem emailBind_goes (hown : q.own = some .email) (hq : ∀ v, q.carries v = v) (ctx : Ctx)
    (s : Sess) (email : String) (codeAccepted : Bool) :
    Goes Any (emailBind ctx s email codeAccepted) (q, none) := by
  unfold emailBind
  split
  · exact trivial
  split
  · exact trivial
  · rename_i id _
    refine (fillUserById_goes { id := id }).bind ?_
    rintro ⟨err, user⟩ l' hfill
    cases err with
    | some e => exact trivial
    | none =>
      obtain ⟨row, rfl, rfl⟩ := hfill rfl
      have hcarried : Carried q .email row { row.getD { id := id } with email := email } :=
        carried_filled { id := id } hq rfl rfl
      refine (update_goes hown hcarried ctx).bind fun r _ _ => ?_
      obtain ⟨err, u⟩ := r
      cases err <;> exact trivial

/-- A binding, whatever struct it starts from. -/
theorem bindAccount_goes {p : Provider} {x : String} (hown : q.own = some (.provider p))
    (hq : ∀ v, q.carries v = v) {taken : M Bool} (htaken : Blind taken) (ctx : Ctx) (s : Sess)
    (takenMsg : String) {blank : User} (hblank : blank = {} ∨ blank = p.bind x {}) (bound : Reply) :
    Goes Any (bindAccount ctx s taken takenMsg blank (fun u => p.bind x u) bound) (q, none) := by
  unfold bindAccount
  refine (goes_blind htaken (q, none)).bind ?_
  rintro isTaken l rfl
  cases isTaken with
  | true => exact trivial
  | false =>
    rw [if_neg Bool.false_ne_true]
    cases s.cur.id with
    | none => exact trivial
    | some id =>
      refine (fillUserById_goes { blank with id := id }).bind ?_
      rintro ⟨err, user⟩ l' hfill
      cases err with
      | some e => exact trivial
      | none =>
        obtain ⟨row, rfl, rfl⟩ := hfill rfl
        have hblank' : (Column.provider p).clear { blank with id := id }
            = (Column.provider p).clear { id := id } := by
          rcases hblank with rfl | rfl
          · rfl
          · cases p <;> rfl
        have hcarried : Carried q (.provider p) row
            (p.bind x (row.getD { blank with id := id })) :=
          carried_filled _ hq hblank' (clear_bind p x _)
        refine (update_goes hown hcarried ctx).bind fun r _ _ => ?_
        obtain ⟨err, u⟩ := r
        cases err <;> exact trivial

theorem alreadyTaken_blind (unscoped : Bool) (p : User → Bool) : Blind (alreadyTaken unscoped p) := by
  unfold alreadyTaken
  refine only_perform ⟨rfl, fun q h => nomatch h⟩ fun r => ?_
  cases r <;> exact Prog.Only.pure

theorem isLinuxDOIdAlreadyTaken_blind (linuxDOId : String) :
    Blind (isLinuxDOIdAlreadyTaken linuxDOId) := by
  unfold isLinuxDOIdAlreadyTaken
  refine only_perform ⟨rfl, fun q h => nomatch h⟩ fun r => ?_
  cases r <;> exact Prog.Only.pure

theorem telegramBind_goes (hown : q.own = some (.provider .telegram)) (hq : ∀ v, q.carries v = v)
    (env : Env) (ctx : Ctx) (s : Sess) (params : Params) :
    Goes Any (telegramBind env ctx s params) (q, none) := by
  unfold telegramBind
  split
  · exact trivial
  split
  · exact trivial
  split
  · exact trivial
  · rename_i telegramId _
    refine (goes_blind (alreadyTaken_blind _ _) (q, none)).bind ?_
    rintro isTaken l rfl
    cases isTaken with
    | true => exact trivial
    | false =>
      rw [if_neg Bool.false_ne_true]
      cases s.cur.id with
      | none => exact trivial
      | some id =>
        refine (fillUserById_goes { id := id }).bind ?_
        rintro ⟨err, user⟩ l' hfill
        cases err with
        | some e => exact trivial
        | none =>
          obtain ⟨row, rfl, rfl⟩ := hfill rfl
          dsimp only
          split
          · exact trivial
          · have hcarried : Carried q (.provider .telegram) row
                { row.getD { id := id } with telegramId := telegramId } :=
              carried_filled { id := id } hq rfl (clear_bind .telegram telegramId _)
            refine (update_goes hown hcarried ctx).bind fun r _ _ => ?_
            obtain ⟨err, u⟩ := r
            cases err <;> exact trivial

/-- The lookup by the new key finds no account, or the request ends. -/
theorem generateAccessToken_goes (hown : q.own = some .accessToken) (hq : ∀ v, q.carries v = v)
    (ctx : Ctx) (s : Sess) : Goes Any (generateAccessToken ctx s) (q, none) := by
  unfold generateAccessToken
  refine (getUserById_goes ctx.id true).bind ?_
  intro r l' hr
  cases r with
  | error e => exact trivial
  | ok user =>
    obtain ⟨row, rfl, huser⟩ := hr user rfl
    obtain rfl : user = row := huser
    dsimp only
    cases ctx.randomKey with
    | error e => exact trivial
    | ok key =>
      have hagain : Goes (fun l' r => l' = (q, some (some user)) ∧
          (r.1 = none ∨ r.2 = { user with accessToken := some key }))
          (User.first { user with accessToken := some key } false
            fun u => u.accessToken == some key) (q, some (some user)) := by
        unfold User.first
        refine Follows.perform_bind fun db => ⟨_, next_first q _ db false _, ?_⟩
        simp only [exec]
        cases db.users.find? (seen false fun u => u.accessToken == some key &&
            (user.id == 0 || u.id == user.id)) with
        | none => exact ⟨rfl, Or.inr rfl⟩
        | some u => exact ⟨rfl, Or.inl rfl⟩
      refine hagain.bind ?_
      rintro ⟨err, again⟩ l' ⟨rfl, hr⟩
      dsimp only at hr ⊢
      split
      · exact trivial
      · rename_i herr
        obtain rfl : again = { user with accessToken := some key } := hr.resolve_left herr
        have hcarried : Carried q .accessToken (some user)
            { user with accessToken := some key } :=
          carried_filled {} hq rfl rfl
        refine (update_goes hown hcarried ctx).bind fun r _ _ => ?_
        obtain ⟨err, u⟩ := r
        cases err <;> exact trivial

/-- What a request carries with other settings. -/
theorem carried_setting {row user : User} (huser : user = q.carries row) (env : Env)
    (setting : UserSetting) :
    Carried q .setting (some row) (User.setSetting env user setting) := by
  obtain ⟨text, htext⟩ := setSetting_eq env user setting
  unfold Carried
  rw [htext, huser]
  rfl

theorem updateUserSetting_goes (hown : q.own = some .setting) (hq : ∀ v, q.carries v = v)
    (env : Env) (ctx : Ctx) (s : Sess) (req : Option UpdateUserSettingRequest) :
    Goes Any (updateUserSetting env ctx s req) (q, none) := by
  unfold updateUserSetting
  split
  · exact trivial
  split
  · exact trivial
  · refine (getUserById_goes ctx.id true).bind ?_
    intro r l' hr
    cases r with
    | error e => exact trivial
    | ok user =>
      obtain ⟨row, rfl, huser⟩ := hr user rfl
      obtain rfl : user = row := huser
      refine (update_goes hown (carried_setting (hq user).symm env _) ctx).bind fun r _ _ => ?_
      obtain ⟨err, u⟩ := r
      cases err <;> exact trivial

theorem sidebarUpdate_goes (hown : q.own = some .setting)
    (hq : ∀ v, q.carries v = v.omitPassword) (env : Env) (ctx : Ctx) (s : Sess)
    (modules : Option String) : Goes Any (sidebarUpdate env ctx s modules) (q, none) := by
  unfold sidebarUpdate
  refine (getUserById_goes ctx.id false).bind ?_
  intro r l' hr
  cases r with
  | error e => exact trivial
  | ok user =>
    obtain ⟨row, rfl, rfl⟩ := hr user rfl
    refine (update_goes hown (carried_setting (hq row).symm env _) ctx).bind fun r _ _ => ?_
    obtain ⟨err, u⟩ := r
    cases err <;> exact trivial

theorem handle_goes (a : Act) : Goes Any (handle a) (a.request, none) := by
  have hbind : ∀ {p : Provider} {x : String} {taken : M Bool} {takenMsg : String} {blank : User}
      {bound : Reply}, a.request.own = some (.provider p) → (∀ v, a.request.carries v = v) →
      Blind taken → (blank = {} ∨ blank = p.bind x {}) →
      Goes Any (bindAccount a.ctx (Sess.ofCookie a.cookie) taken takenMsg blank
        (fun u => p.bind x u) bound) (a.request, none) :=
    fun hown hq htaken hblank => bindAccount_goes hown hq htaken a.ctx _ _ hblank _
  unfold handle
  dsimp only
  generalize hrequest : a.request = q at hbind ⊢
  cases q with
  | emailBind email codeAccepted =>
    exact goes_map (emailBind_goes rfl (fun _ => rfl) a.ctx _ email codeAccepted) _
  | gitHubBind req answer =>
    refine goes_map ?_ _
    unfold gitHubBind
    split
    · exact trivial
    split
    · exact trivial
    · exact hbind (p := .gitHub) rfl (fun _ => rfl) (alreadyTaken_blind _ _) (Or.inr rfl)
  | discordBind req answer =>
    refine goes_map ?_ _
    unfold discordBind
    split
    · exact trivial
    split
    · exact trivial
    · exact hbind (p := .discord) rfl (fun _ => rfl) (alreadyTaken_blind _ _) (Or.inr rfl)
  | oidcBind req answer =>
    refine goes_map ?_ _
    unfold oidcBind
    split
    · exact trivial
    split
    · exact trivial
    · exact hbind (p := .oidc) rfl (fun _ => rfl) (alreadyTaken_blind _ _) (Or.inr rfl)
  | linuxDoBind req answer =>
    refine goes_map ?_ _
    unfold linuxDoBind
    split
    · exact trivial
    split
    · exact trivial
    · exact hbind (p := .linuxDO) rfl (fun _ => rfl) (isLinuxDOIdAlreadyTaken_blind _) (Or.inr rfl)
  | weChatBind code answer =>
    refine goes_map ?_ _
    unfold weChatBind
    split
    · exact trivial
    split
    · exact trivial
    · exact hbind (p := .weChat) rfl (fun _ => rfl) (alreadyTaken_blind _ _) (Or.inl rfl)
  | telegramBind params =>
    exact goes_map (telegramBind_goes rfl (fun _ => rfl) a.env a.ctx _ params) _
  | generateAccessToken => exact goes_map (generateAccessToken_goes rfl (fun _ => rfl) a.ctx _) _
  | updateUserSetting req =>
    exact goes_map (updateUserSetting_goes rfl (fun _ => rfl) a.env a.ctx _ req) _
  | sidebarUpdate modules =>
    exact goes_map (sidebarUpdate_goes rfl (fun _ => rfl) a.env a.ctx _ modules) _
  | manageUser req => exact goes_other rfl _
  | resetUserPasswordByEmail email password => exact goes_other rfl _
  | increaseUserQuota id quota => exact goes_other rfl _
  | decreaseUserQuota id quota => exact goes_other rfl _

/-! ### What is known of a request on the way -/

/-- What a request found first, or that it has looked up nothing. -/
def Known (c : Requests ι) (pre : List ι) (i : ι) : Option (Option User) → Prop
  | none => Unread c pre i
  | some r => Snapshot c pre i r

theorem Known.snoc {c : Requests ι} {pre : List ι} {i j : ι} {k : Option (Option User)}
    (h : Known c pre j k) (hnot : j = i → k = none → ∀ r, ¬ ReadsAt (play exec c pre) i r) :
    Known c (pre ++ [i]) j k := by
  cases k with
  | some r =>
    obtain ⟨before, since, rfl, hread, hunread⟩ := h
    exact ⟨before, since ++ [i], by simp, hread, hunread⟩
  | none =>
    intro before since r he hread
    rcases Runs.eq_snoc_split he with ⟨rfl, rfl, -⟩ | ⟨since', -, he'⟩
    · exact hnot rfl rfl r hread
    · exact h before since' r he' hread

/-- The first lookup is one. -/
theorem snapshot_unique {c : Requests ι} {pre : List ι} {i : ι} {r r' : Option User}
    (h : Snapshot c pre i r) (h' : Snapshot c pre i r') : r = r' := by
  obtain ⟨before, since, hpre, hread, hunread⟩ := h
  obtain ⟨before', since', hpre', hread', hunread'⟩ := h'
  have he : before ++ i :: since = before' ++ i :: since' := hpre.symm.trans hpre'
  rcases List.append_eq_append_iff.mp he with ⟨mid, hb, hrest⟩ | ⟨mid, hb, hrest⟩
  · cases mid with
    | nil =>
      rw [List.append_nil] at hb
      subst hb
      obtain ⟨q, k, hi, rfl⟩ := hread
      obtain ⟨q', k', hi', rfl⟩ := hread'
      rw [hi] at hi'
      cases hi'
      rfl
    | cons a mid =>
      rw [List.cons_append, List.cons.injEq] at hrest
      obtain ⟨rfl, -⟩ := hrest
      exact absurd hread (hunread' before mid r hb)
  · cases mid with
    | nil =>
      rw [List.append_nil] at hb
      subst hb
      obtain ⟨q, k, hi, rfl⟩ := hread
      obtain ⟨q', k', hi', rfl⟩ := hread'
      rw [hi] at hi'
      cases hi'
      rfl
    | cons a mid =>
      rw [List.cons_append, List.cons.injEq] at hrest
      obtain ⟨rfl, -⟩ := hrest
      exact absurd hread' (hunread before' mid r' hb)

/-- Every request stands where its history says. -/
def Inv (acts : ι → Act) (c : Requests ι) (pre : List ι) (l : ι → Look) : Prop :=
  ∀ j, (l j).1 = (acts j).request ∧ (ownOf acts j ≠ none → Known c pre j (l j).2)

/-- A step of request `i` that leaves what it knows. -/
theorem Inv.snoc {acts : ι → Act} {c : Requests ι} {pre : List ι} {l : ι → Look}
    (h : Inv acts c pre l) {i : ι}
    (hnot : ownOf acts i ≠ none → (l i).2 = none → ∀ r, ¬ ReadsAt (play exec c pre) i r) :
    Inv acts c (pre ++ [i]) l := by
  intro j
  refine ⟨(h j).1, fun hj => ((h j).2 hj).snoc ?_⟩
  rintro rfl hnone
  exact hnot hj hnone

theorem inv_step {acts : ι → Act} {c : Requests ι} {pre : List ι} {l : ι → Look}
    (h : Inv acts c pre l) {i : ι} {o : DBOp} {k : DBOp.Res o → M (Out ⊕ Option Err)}
    (hi : (play exec c pre).threads i = .call o k) {l' : Look}
    (hnext : Next (l i) (play exec c pre).store o l') :
    Inv acts c (pre ++ [i]) (Function.update l i l') := by
  -- where the look stays, only a first lookup could be a change
  have hstay : l' = l i → ((l i).2 = none → ∀ p, o ≠ .userFirst false p) →
      Inv acts c (pre ++ [i]) (Function.update l i l') := by
    intro hl' hnot
    rw [hl', Function.update_eq_self]
    refine h.snoc fun _ hnone r hread => ?_
    obtain ⟨p, k', hi', -⟩ := hread
    rw [hi] at hi'
    cases hi'
    exact hnot hnone p rfl
  obtain ⟨hrequest, hknown⟩ := h i
  generalize hl : l i = look at hnext hrequest hknown
  cases hnext with
  | other hother =>
    rw [← hl, Function.update_eq_self]
    refine h.snoc fun hown => absurd ?_ hown
    unfold ownOf
    rw [← hrequest]
    exact hother
  | quiet hread hnot => exact hstay hl.symm fun _ => hnot
  | rereads => exact hstay hl.symm fun hnone => by rw [hl] at hnone; cases hnone
  | write hown hcarried => exact hstay hl.symm fun hnone => by rw [hl] at hnone; cases hnone
  | reads =>
    intro j
    by_cases hj : j = i
    · subst hj
      rw [Function.update_self]
      exact ⟨hrequest, fun hown => ⟨pre, [], rfl, ⟨_, k, hi, rfl⟩, hknown hown⟩⟩
    · rw [Function.update_of_ne hj]
      refine ⟨(h j).1, fun hown => ((h j).2 hown).snoc fun he => absurd he hj⟩

/-- Where every request stands, after any schedule. -/
theorem stands (acts : ι → Act) (db : DB) (pre : List ι) :
    ∃ l : ι → Look, (∀ j, Goes Any ((play exec (start acts db) pre).threads j) (l j)) ∧
      Inv acts (start acts db) pre l := by
  have hstart : Inv acts (start acts db) [] fun j => ((acts j).request, none) := by
    intro j
    refine ⟨rfl, fun _ before since r he => ?_⟩
    simp at he
  refine ghost_run (C := fun _ _ => True) (fun j => handle_goes (acts j)) hstart ?_ ?_ pre
    fun _ _ _ _ => trivial
  · intro pre i l a h hi
    refine h.snoc fun _ _ r hread => ?_
    obtain ⟨p, k, hi', -⟩ := hread
    rw [hi] at hi'
    cases hi'
  · intro pre i l o k l' h _ hi hnext
    exact inv_step h hi hnext

/-! ### The result -/

/-- **A step changes no other column exactly when it is fresh.** -/
theorem sameBut_step_iff (acts : ι → Act) (db : DB) (pre : List ι) {i : ι} {own : Column}
    (hown : ownOf acts i = some own) :
    (∀ id, SameBut own ((play exec (start acts db) (pre ++ [i])).store.users.get? id)
        ((play exec (start acts db) pre).store.users.get? id)) ↔
      Fresh acts (start acts db) pre i := by
  obtain ⟨l, hfollows, hinv⟩ := stands acts db pre
  generalize start acts db = c at hfollows hinv ⊢
  obtain ⟨hrequest, hknown⟩ := hinv i
  have hread := hknown (by rw [hown]; exact Option.some_ne_none own)
  rw [play_append, play_cons, play_nil]
  cases hi : (play exec c pre).threads i with
  | ret a =>
    rw [step_ret exec hi]
    refine ⟨fun _ own' q f k r _ hcall => ?_, fun _ id => rfl⟩
    rw [hi] at hcall
    cases hcall
  | call o k =>
    rw [step_call exec hi]
    have hself := hfollows i
    rw [hi] at hself
    obtain ⟨l', hnext, -⟩ := hself (play exec c pre).store
    -- a read changes nothing and writes nothing
    have hquiet : o.isRead = true → ((∀ id, SameBut own
        ((exec o (play exec c pre).store).2.users.get? id)
        ((play exec c pre).store.users.get? id)) ↔ Fresh acts c pre i) := by
      intro ho
      rw [exec_read ho]
      refine ⟨fun _ own' q f k' r _ hcall => ?_, fun _ id => rfl⟩
      rw [hi] at hcall
      cases hcall
      cases ho
    generalize hl : l i = look at hnext hrequest hread
    cases hnext with
    | other hother =>
      unfold ownOf at hown
      rw [← hrequest, hother] at hown
      cases hown
    | quiet ho hnot => exact hquiet ho
    | reads => exact hquiet rfl
    | rereads => exact hquiet rfl
    | @write q own' r u _ hown' hcarried =>
      obtain rfl : q = (acts i).request := hrequest
      obtain rfl : own' = own := Option.some.inj (hown'.symm.trans hown)
      rw [sameBut_writeBack_iff hcarried]
      constructor
      · intro hagrees own p f k' r' hown hcall hok hsnapshot
        rw [hi] at hcall
        cases hcall
        obtain rfl : own' = own := Option.some.inj (hown'.symm.trans hown)
        obtain rfl : r = some r' := snapshot_unique hread hsnapshot
        exact hagrees hok r' rfl
      · rintro hfresh hok v rfl
        exact hfresh own' _ _ k v hown hi hok hread

/-- What changes one column of its own leaves the guarded ones. -/
theorem settled_of_onlyOwn {acts : ι → Act} {c : Requests ι} {sched : List ι}
    (h : OnlyOwn acts c sched) : Settled acts c sched := by
  intro pre post
  induction post using List.reverseRecOn generalizing sched with
  | nil =>
    rintro rfl - id
    rw [List.append_nil]
  | append_singleton post j ih =>
    rintro rfl hpost id
    have hpre : OnlyOwn acts c (pre ++ post) := by
      intro before i since own he
      refine h before i (since ++ [j]) own ?_
      rw [← List.append_assoc, he, List.append_assoc, List.cons_append]
    have hbefore := ih hpre rfl (fun i hi => hpost i (List.mem_append_left _ hi)) id
    obtain ⟨own, hown⟩ := Option.ne_none_iff_exists'.mp (hpost j (by simp))
    have hlast := h (pre ++ post) j [] own (by simp) hown id
    rw [← hbefore, ← List.append_assoc]
    have hguarded := congrArg (Option.map guarded) hlast
    simpa [SameBut, Function.comp_def] using hguarded

/-- **No update is lost exactly when every request that writes an account back
finds it as it read it**, but for its own column and for what was empty. -/
theorem noLostUpdate_iff (acts : ι → Act) (db : DB) (sched : List ι) :
    NoLostUpdate acts (start acts db) sched ↔
      Runs.Always (Fresh acts (start acts db)) sched := by
  constructor
  · rintro ⟨honly, -⟩ pre i post he
    intro own q f k r hown
    exact (sameBut_step_iff acts db pre hown).mp (honly pre i post own he hown) own q f k r hown
  · intro hfresh
    have honly : OnlyOwn acts (start acts db) sched := fun pre i post own he hown =>
      (sameBut_step_iff acts db pre hown).mpr (hfresh pre i post he)
    exact ⟨honly, settled_of_onlyOwn honly⟩

/-! ### A ban that does not last -/

def judy : User := { id := 1, username := "judy", role := 1, status := 1, affCode := "j" }

def judyDB : DB where
  users := Table.single judy
  twoFAs := Table.empty
  backupCodes := Table.empty
  passkeys := Table.empty

/-- Judy binds an email address; root disables her account. -/
def banning : Bool → Act
  | false =>
    { request := .emailBind "judy@example.com" true
      cookie := { id := some 1, username := some "judy", role := some 1, status := some 1 }
      env := Env.plain
      ctx := Ctx.plain 0 }
  | true =>
    { request := .manageUser (some { id := 1, action := "disable" })
      env := Env.plain
      ctx := { Ctx.plain 0 with id := 9, role := roleRootUser } }

/-- The binding reads the account, the ban runs, the binding goes on. -/
def bindingAround : List Bool := [false, true, true, true, false, false]

/-- **A ban is undone by a binding that was under way**: both requests are over,
and the account is enabled. -/
theorem ban_lost :
    (∀ b, ((play exec (start banning judyDB) bindingAround).threads b).answer.isSome = true) ∧
      ¬ NoLostUpdate banning (start banning judyDB) bindingAround := by
  refine ⟨by decide, ?_⟩
  rintro ⟨-, hsettled⟩
  have hstatus := hsettled [false, true, true, true] [false, false] rfl (by decide) 1
  have hbefore : ((play exec (start banning judyDB)
      [false, true, true, true]).store.users.get? 1).map guarded = some (1, 2, "", 0) := by decide
  have hafter : ((play exec (start banning judyDB) bindingAround).store.users.get? 1).map guarded
      = some (1, 1, "", 0) := by decide
  rw [hbefore, hafter] at hstatus
  exact absurd hstatus (by decide)

end AuthGateway.LostUpdate
