import AuthGateway.Lib.Runs
import AuthGateway.Accounts

/-!
# Authorization and the accounts as they are

`authHelper` believes a session: it compares the status and the role that the
login put there, while an administrator changes the table.  Only a token is
looked up.

`Reflects` says of one request that whomever `authHelper` lets through has a
live, enabled row of a sufficient role at that moment.  `Outdates`: a request
disables, demotes or deletes an account that a cookie still names.  **As long as
no request outdates a cookie, every request reflects the accounts**
(`reflects_of_current`), and the cookie of a banned user is let through
(`banned_let_through`).
-/

namespace AuthGateway.FreshAuthorization

open Common Model Controller Middleware Accounts LoginGate GoString

/-! ### Requests, cookies and the gateway -/

/-- `secured` is any route behind `authHelper` that writes no account. -/
inductive Request
  | login (path : LoginPath)
  | manageUser (req : Option ManageRequest)
  | deleteUser (idParam : String)
  | generateAccessToken
  | secured (minRole : Int)

def Request.account : Request → Accounts.Request
  | .login path => .login path
  | .manageUser req => .manageUser req
  | .deleteUser idParam => .deleteUser idParam
  | .generateAccessToken => .generateAccessToken
  | .secured _ => .rest (fun _ s => return s.answer (.done "")) fun _ _ => Prog.Only.pure

/-- The role that the route asks of `authHelper`, if it is behind it. -/
def Request.minRole : Request → Option Int
  | .secured minRole => some minRole
  | q => Accounts.minRole q.account

/-- A request, with the cookie it sends: one that was issued, or none. -/
structure Act where
  request : Request
  resends : Option Nat
  authorization : String := ""
  env : Env
  ctx : Ctx

/-- The system, and the cookies it has issued so far. -/
structure Gateway where
  sys : System
  issued : List Session := []

def sent (g : Gateway) (a : Act) : Session := (a.resends.bind fun i => g.issued[i]?).getD {}

def Act.account (a : Act) (cookie : Session) : Accounts.Act where
  request := a.request.account
  cookie := cookie
  authorization := a.authorization
  env := a.env
  ctx := a.ctx

def answer (g : Gateway) (a : Act) : Out :=
  ((handle (a.account (sent g a)) g.sys.codes).run exec g.sys.db).1.1

def step (g : Gateway) (a : Act) : Gateway where
  sys := Accounts.step g.sys (a.account (sent g a))
  issued := g.issued ++ [(answer g a).cookie]

/-- **Whomever `authHelper` lets through** is live and enabled and has the role
that was asked for; a token that was presented is theirs. -/
def Reflects (g : Gateway) (a : Act) : Prop :=
  ∀ minRole auth, a.request.minRole = some minRole →
    ((authHelper minRole (sent g a) a.authorization).run exec g.sys.db).1 = .ok auth →
      ∃ row ∈ g.sys.db.users, row.live = true ∧ row.id = auth.id ∧
        row.status = userStatusEnabled ∧ minRole ≤ row.role ∧
        ((sent g a).username = none →
          row.accessToken = some (replaceOnce "Bearer " a.authorization) ∧
            replaceOnce "Bearer " a.authorization ≠ "")

/-! ### Requests that outdate a cookie -/

/-- The cookie is of a login as this account, which was not disabled then. -/
def Names (s : Session) (id : Int) : Prop :=
  s.username ≠ none ∧ s.id = some id ∧ s.status ≠ some userStatusDisabled

/-- An administrator whom the rank check lets through disables, deletes or
demotes the account that the cookie names. -/
inductive Outdates (g : Gateway) (a : Act) (s : Session) : Prop
  | managed {req : ManageRequest} {ctx : Ctx} {row user : User}
      (hreq : a.request = .manageUser (some req))
      (hctx : Granted (a.account (sent g a)) g.sys.db ctx) (hrow : row ∈ g.sys.db.users)
      (hid : req.id = 0 ∨ row.id = req.id) (hrank : outranked ctx.role row.role = false)
      (haction : manageAction ctx.role row req.action = .ok user) (hnames : Names s row.id)
      (hlower : user.status ≠ userStatusEnabled ∨ req.action = "delete" ∨
        ∃ role, s.role = some role ∧ user.role < role)
  | deleted {idParam : String} {ctx : Ctx} {row : User} (hreq : a.request = .deleteUser idParam)
      (hctx : Granted (a.account (sent g a)) g.sys.db ctx) (hrow : row ∈ g.sys.db.users)
      (hlive : row.live = true) (hid : atoi idParam = (row.id, none)) (hrank : row.role < ctx.role)
      (hnames : Names s row.id)

/-! ### Rows as the gateway writes them -/

/-- The status is one of the two, and a token that is set is not empty. -/
def Regular (u : User) : Prop :=
  (u.status = userStatusEnabled ∨ u.status = userStatusDisabled) ∧ u.accessToken ≠ some ""

theorem Regular.congr {u v : User} (h : u.core = v.core) (hv : Regular v) : Regular u := by
  have hstatus : u.status = v.status := User.core_congr (f := User.status) (fun _ => rfl) h
  have htoken : u.accessToken = v.accessToken :=
    User.core_congr (f := User.accessToken) (fun _ => rfl) h
  unfold Regular
  rw [hstatus, htoken]
  exact hv

/-- A new account is enabled, and has no token. -/
theorem New.regular {env : Env} {ctx : Ctx} {db : DB} {cleanUser row : User}
    (h : New env ctx db cleanUser row)
    (hstatus : cleanUser.status = 0 ∨ cleanUser.status = userStatusEnabled)
    (htoken : cleanUser.accessToken = none) : Regular row := by
  obtain ⟨newUser, hhash, hnew⟩ := h
  obtain ⟨password, rfl, -⟩ := hashPassword_fields hhash
  obtain ⟨text, htext⟩ := toInsert_eq env ctx { cleanUser with password := password }
  rw [htext] at hnew
  obtain ⟨k, rfl⟩ := hnew.columns
  refine ⟨Or.inl ?_, ?_⟩
  · show (if cleanUser.status = 0 then (1 : Int) else cleanUser.status) = 1
    rcases hstatus with h | h
    · rw [if_pos h]
    · rw [h]
      rfl
  · show cleanUser.accessToken ≠ some ""
    rw [htoken]
    intro he
    cases he

theorem Registers.regular {env : Env} {ctx : Ctx} {s : Session} {codes : VerificationMap}
    {db : DB} {q : Accounts.Request} {cleanUser row : User}
    (h : Registers env ctx s codes db q cleanUser) (hnew : New env ctx db cleanUser row) :
    Regular row := by
  cases h with
  | register | discord | oidc => exact New.regular hnew (Or.inl rfl) rfl
  | gitHub | linuxdo | weChat => exact New.regular hnew (Or.inr rfl) rfl

theorem manageAction_regular {myRole : Int} {row user : User} {action : String}
    (h : manageAction myRole row action = .ok user) (hrow : Regular row) : Regular user := by
  obtain ⟨role, status, rfl, -, hstatus, -⟩ := manageAction_ok h
  refine ⟨?_, hrow.2⟩
  rcases hstatus with h | ⟨-, h⟩ | ⟨-, h⟩
  · rw [h]
    exact hrow.1
  · exact Or.inr h
  · exact Or.inl h

/-- An overlay that sets neither column. -/
theorem Regular.overlay {row user : User} (h : Regular row) (hstatus : user.status = 0)
    (htoken : user.accessToken = none) : Regular (row.overlay user) := by
  have hstatus' : (row.overlay user).status = row.status := by
    simp [User.overlay, hstatus]
  have htoken' : (row.overlay user).accessToken = row.accessToken := by
    simp [User.overlay, htoken]
  unfold Regular
  rw [hstatus', htoken']
  exact h

theorem regular_edit {db : DB} {p : User → Bool} {g : User → User} {v : User}
    (hdb : ∀ row ∈ db.users, Regular row) (h : v.core ∈ (Change.edit p g).cores db)
    (hg : ∀ u, Regular u → Regular (g u)) : Regular v := by
  obtain ⟨row, hrow, he | ⟨-, -, he⟩⟩ := mem_cores_edit h
  · exact (hdb row hrow).congr he
  · exact (hg row (hdb row hrow)).congr he

theorem regular_create {db : DB} {row v : User} (hdb : ∀ row ∈ db.users, Regular row)
    (hnew : Regular row) (h : v.core ∈ (Change.create row).cores db) : Regular v := by
  rcases h with he | ⟨x, hx, he⟩
  · exact hnew.congr he
  · exact (hdb x hx).congr he

theorem Granted.randomKey {a : Accounts.Act} {db : DB} {ctx : Ctx} (h : Granted a db ctx) :
    ctx.randomKey = a.ctx.randomKey := by
  unfold Granted at h
  cases hrole : Accounts.minRole a.request with
  | none =>
    rw [hrole] at h
    rw [h]
  | some role =>
    rw [hrole] at h
    obtain ⟨auth, -, rfl⟩ := h
    rfl

/-- **Every request leaves the rows regular.** -/
theorem regular_step {sys : System} {a : Accounts.Act} (hdb : ∀ row ∈ sys.db.users, Regular row)
    (hkey : a.ctx.randomKey ≠ .ok "") {v : User} (hv : v ∈ (Accounts.step sys a).db.users) :
    Regular v := by
  obtain ⟨c, hc, hcores⟩ := step_changes sys a
  have hmem : v.core ∈ c.cores sys.db := by
    rw [← hcores]
    exact mem_cores hv
  rcases hc with rfl | hc
  · obtain ⟨row, hrow, he⟩ := hmem
    exact (hdb row hrow).congr he
  · cases hc with
    | rootCreated _ _ _ hnew =>
      obtain ⟨-, password, -, hnew⟩ := hnew
      obtain ⟨k, rfl⟩ := hnew.columns
      exact regular_create hdb ⟨Or.inl rfl, fun he => Option.some_ne_none _ he.symm⟩ hmem
    | handled heffect =>
      obtain ⟨ctx, hctx, hpermits⟩ := heffect
      generalize a.request = q at hpermits
      cases hpermits with
      | registered hregisters hnew =>
        exact regular_create hdb (Registers.regular hregisters hnew) hmem
      | created _ hnew => exact regular_create hdb (New.regular hnew (Or.inl rfl) rfl) hmem
      | edited => exact regular_edit hdb hmem fun _ hu => hu
      | selfEdited => exact regular_edit hdb hmem fun _ hu => hu.overlay rfl rfl
      | managed hrow _ _ _ haction _ =>
        obtain ⟨x, hx, he | ⟨-, -, he⟩⟩ := mem_cores_edit hmem
        · exact (hdb x hx).congr he
        · exact (manageAction_regular haction (hdb _ hrow)).congr he
      | managedDelete => exact regular_edit hdb hmem fun _ hu => hu
      | deleted =>
        obtain ⟨⟨row, hrow, he⟩, -⟩ := hmem
        exact (hdb row hrow).congr he
      | selfDeleted => exact regular_edit hdb hmem fun _ hu => hu
      | @tokenGenerated key hgenerated =>
        refine regular_edit hdb hmem fun u hu => ⟨hu.1, ?_⟩
        intro he
        obtain rfl : key = "" := Option.some.inj he
        rw [Granted.randomKey hctx] at hgenerated
        exact hkey hgenerated
      | affCodeGiven => exact regular_edit hdb hmem fun _ hu => hu.overlay rfl rfl
      | emailBound => exact regular_edit hdb hmem fun _ hu => hu.overlay rfl rfl
      | bound hbinds =>
        refine regular_edit hdb hmem fun _ hu => hu.overlay ?_ ?_
        · cases hbinds <;> rfl
        · cases hbinds <;> rfl
      | passwordReset => exact regular_edit hdb hmem fun _ hu => hu

/-! ### Cookies that the table backs -/

/-- The account that the cookie names is there, enabled, and of no lower role. -/
def Backed (db : DB) (s : Session) : Prop :=
  ∃ row ∈ db.users, row.live = true ∧ s.id = some row.id ∧ row.status = userStatusEnabled ∧
    ∃ role, s.role = some role ∧ role ≤ row.role

/-- The row behind a cookie, after a change of its core. -/
theorem Backed.of_core {db : DB} {s : Session} {v : User} (hv : v.core ∈ cores db)
    (hlive : v.live = true) (hid : s.id = some v.id) (hstatus : v.status = userStatusEnabled)
    (hrole : ∃ role, s.role = some role ∧ role ≤ v.role) : Backed db s := by
  obtain ⟨row, hrow, he⟩ := hv
  refine ⟨row, hrow, ?_, ?_, ?_, ?_⟩
  · rw [← User.core_congr (f := User.live) (fun _ => rfl) he]
    exact hlive
  · rw [hid, User.core_id he]
  · rw [← User.core_congr (f := User.status) (fun _ => rfl) he]
    exact hstatus
  · obtain ⟨role, hs, hle⟩ := hrole
    exact ⟨role, hs, by rw [← User.core_role he]; exact hle⟩

/-- An edit that leaves the named row enabled and of no lower role. -/
theorem Backed.edit {db db' : DB} {s : Session} {p : User → Bool} {g : User → User}
    (h : Backed db s) (hcores : cores db' = (Change.edit p g).cores db)
    (hg : ∀ row ∈ db.users, row.live = true → p row = true → s.id = some row.id →
      (g row).live = true ∧ (g row).id = row.id ∧
        (row.status = userStatusEnabled → (g row).status = userStatusEnabled) ∧
        ∀ role, s.role = some role → role ≤ row.role → role ≤ (g row).role) : Backed db' s := by
  obtain ⟨row, hrow, hlive, hid, hstatus, role, hrole, hle⟩ := h
  have hmem : (Table.touch (fun u => u.live && p u) g row).core ∈ cores db' := by
    rw [hcores]
    exact ⟨row, hrow, rfl⟩
  unfold Table.touch at hmem
  by_cases hp : p row = true
  · obtain ⟨hglive, hgid, hgstatus, hgrole⟩ := hg row hrow hlive hp hid
    have hboth : (row.live && p row) = true := by rw [hlive, hp]; rfl
    rw [if_pos hboth] at hmem
    refine Backed.of_core hmem hglive ?_ (hgstatus hstatus) ⟨role, hrole, hgrole role hrole hle⟩
    rw [hgid]
    exact hid
  · have hnot : ¬ (row.live && p row) = true := by rw [hlive]; exact hp
    rw [if_neg hnot] at hmem
    exact Backed.of_core hmem hlive hid hstatus ⟨role, hrole, hle⟩

theorem Backed.create {db db' : DB} {s : Session} {row : User} (h : Backed db s)
    (hcores : cores db' = (Change.create row).cores db) : Backed db' s := by
  obtain ⟨x, hx, hlive, hid, hstatus, hrole⟩ := h
  have hmem : x.core ∈ cores db' := by
    rw [hcores]
    exact Set.mem_insert_of_mem _ (mem_cores hx)
  exact Backed.of_core hmem hlive hid hstatus hrole

/-- What leaves the columns alone that a login looks at. -/
theorem Backed.edit_kept {db db' : DB} {s : Session} {p : User → Bool} {g : User → User}
    (h : Backed db s) (hcores : cores db' = (Change.edit p g).cores db)
    (hg : ∀ row, (g row).live = row.live ∧ (g row).id = row.id ∧ (g row).status = row.status ∧
      (g row).role = row.role) : Backed db' s := by
  refine h.edit hcores fun row _ hlive _ _ => ?_
  obtain ⟨hglive, hgid, hgstatus, hgrole⟩ := hg row
  refine ⟨hglive.trans hlive, hgid, fun hstatus => hgstatus.trans hstatus, ?_⟩
  intro role _ hle
  rw [hgrole]
  exact hle

/-- **A cookie that is not outdated stays backed.** -/
theorem backed_step {g : Gateway} {a : Act} {s : Session} (hbacked : Backed g.sys.db s)
    (huser : s.username ≠ none) (hstatus : s.status ≠ some userStatusDisabled)
    (hcurrent : ¬ Outdates g a s) : Backed (step g a).sys.db s := by
  obtain ⟨c, hc, hcores⟩ := step_changes g.sys (a.account (sent g a))
  have hcores' : cores (step g a).sys.db = c.cores g.sys.db := hcores
  rcases hc with rfl | hc
  · obtain ⟨row, hrow, hlive, hid, hon, hrole⟩ := hbacked
    have hmem : row.core ∈ cores (step g a).sys.db := by
      rw [hcores']
      exact mem_cores hrow
    exact Backed.of_core hmem hlive hid hon hrole
  cases hc with
  | rootCreated => exact hbacked.create hcores'
  | handled heffect =>
    obtain ⟨ctx, hctx, hpermits⟩ := heffect
    generalize hq : (a.account (sent g a)).request = q at hpermits
    have hreq : a.request.account = q := hq
    cases hpermits with
    | registered => exact hbacked.create hcores'
    | created => exact hbacked.create hcores'
    | edited => exact hbacked.edit_kept hcores' fun _ => ⟨rfl, rfl, rfl, rfl⟩
    | selfEdited => exact hbacked.edit_kept hcores' fun _ => ⟨rfl, rfl, rfl, rfl⟩
    | @managed req row user hrow hlive hid hrank haction hdelete =>
      have hmanage : a.request = .manageUser (some req) := by
        cases ha : a.request <;> rw [ha] at hreq <;> cases hreq
        rfl
      obtain ⟨role', status', huser', -, -, -⟩ := manageAction_ok haction
      refine hbacked.edit hcores' fun x hx hxlive hp hsid => ?_
      obtain rfl : x = row := Table.eq_of_key hx hrow (beq_iff_eq.mp hp)
      have hnames : Names s x.id := ⟨huser, hsid, hstatus⟩
      refine ⟨?_, ?_, ?_, ?_⟩
      · rw [huser']
        exact hxlive
      · rw [huser']
      · intro _
        by_contra hoff
        exact hcurrent (.managed hmanage hctx hrow hid hrank haction hnames (Or.inl hoff))
      · intro role hrole _
        by_contra hlt
        exact hcurrent (.managed hmanage hctx hrow hid hrank haction hnames
          (Or.inr (Or.inr ⟨role, hrole, not_le.mp hlt⟩)))
    | @managedDelete req row hrow hid hrank hroot hdelete =>
      have hmanage : a.request = .manageUser (some req) := by
        cases ha : a.request <;> rw [ha] at hreq <;> cases hreq
        rfl
      have haction : manageAction ctx.role row req.action = .ok row := by
        unfold manageAction
        rw [hdelete]
        simp [hroot]
      refine hbacked.edit hcores' fun x hx _ hp hsid => ?_
      obtain rfl : x = row := Table.eq_of_key hx hrow (beq_iff_eq.mp hp)
      exact absurd (.managed hmanage hctx hrow hid hrank haction ⟨huser, hsid, hstatus⟩
        (Or.inr (Or.inl hdelete))) hcurrent
    | @deleted idParam row hrow hlive hid hrank =>
      have hdelete : a.request = .deleteUser idParam := by
        cases ha : a.request <;> rw [ha] at hreq <;> cases hreq
        rfl
      obtain ⟨x, hx, hxlive, hsid, hon, hrole⟩ := hbacked
      have hne : x.id ≠ row.id := by
        intro he
        rw [he] at hsid
        exact hcurrent (.deleted hdelete hctx hrow hlive hid hrank ⟨huser, hsid, hstatus⟩)
      have hmem : x.core ∈ cores (step g a).sys.db := by
        rw [hcores']
        exact ⟨mem_cores hx, hne⟩
      exact Backed.of_core hmem hxlive hsid hon hrole
    | selfDeleted => cases ha : a.request <;> rw [ha] at hreq <;> cases hreq
    | tokenGenerated => exact hbacked.edit_kept hcores' fun _ => ⟨rfl, rfl, rfl, rfl⟩
    | affCodeGiven => exact hbacked.edit_kept hcores' fun _ => ⟨rfl, rfl, rfl, rfl⟩
    | emailBound => exact hbacked.edit_kept hcores' fun _ => ⟨rfl, rfl, rfl, rfl⟩
    | bound hbinds =>
      refine hbacked.edit_kept hcores' fun row => ?_
      cases hbinds <;> exact ⟨rfl, rfl, rfl, rfl⟩
    | passwordReset => exact hbacked.edit_kept hcores' fun _ => ⟨rfl, rfl, rfl, rfl⟩

/-! ### Cookies that are issued -/

theorem manageUser_cookie (ctx : Ctx) (s : Sess) (req : Option ManageRequest) (db : DB) :
    Sat (manageUser ctx s req) (fun out _ => out.cookie = s.saved) db := by
  unfold manageUser
  cases req with
  | none => exact Sat.pure rfl
  | some req =>
    dsimp only
    refine (Prog.Holds.trivial _ db).bind ?_
    rintro ⟨err, user⟩ db₁ -
    dsimp only
    split
    · exact Sat.pure rfl
    split
    · exact Sat.pure rfl
    split
    · exact Sat.pure rfl
    refine (Prog.Holds.trivial _ db₁).bind ?_
    rintro ⟨err, user⟩ db₂ -
    cases err with
    | some e => exact Sat.pure rfl
    | none =>
      refine (Prog.Holds.trivial _ db₂).bind ?_
      rintro ⟨err, user⟩ db₃ -
      cases err <;> exact Sat.pure rfl

theorem deleteUser_cookie (ctx : Ctx) (s : Sess) (idParam : String) (db : DB) :
    Sat (deleteUser ctx s idParam) (fun out _ => out.cookie = s.saved) db := by
  unfold deleteUser
  split
  · exact Sat.pure rfl
  · refine (Prog.Holds.trivial _ db).bind ?_
    intro found db₁ _
    cases found with
    | error e => exact Sat.pure rfl
    | ok user =>
      dsimp only
      split
      · exact Sat.pure rfl
      · refine (Prog.Holds.trivial _ db₁).bind ?_
        intro err db₂ _
        cases err <;> exact Sat.pure rfl

theorem generateAccessToken_cookie (ctx : Ctx) (s : Sess) (db : DB) :
    Sat (generateAccessToken ctx s) (fun out _ => out.cookie = s.saved) db := by
  unfold generateAccessToken
  refine (Prog.Holds.trivial _ db).bind ?_
  intro found db₁ _
  cases found with
  | error e => exact Sat.pure rfl
  | ok user =>
    dsimp only
    split
    · exact Sat.pure rfl
    · refine (Prog.Holds.trivial _ db₁).bind ?_
      rintro ⟨err, user⟩ db₂ -
      dsimp only
      split
      · exact Sat.pure rfl
      · refine (Prog.Holds.trivial _ db₂).bind ?_
        rintro ⟨err, user⟩ db₃ -
        cases err <;> exact Sat.pure rfl

/-- A handler that keeps the cookie does so behind `authHelper`. -/
theorem behind_cookie {handler : Ctx → M Out} {s : Sess} (auth : Session → String → M (Except Reply Auth))
    (h : ∀ ctx db, Sat (handler ctx) (fun out _ => out.cookie = s.saved) db)
    (authorization : String) (ctx : Ctx) (db : DB) :
    Sat (behind auth s authorization ctx handler) (fun out _ => out.cookie = s.saved) db := by
  unfold behind
  refine (Prog.Holds.trivial _ db).bind ?_
  intro found db₁ _
  cases found with
  | error reply => exact Sat.pure rfl
  | ok a => exact h _ db₁

/-- Codes are no business of these requests. -/
theorem answer_guarded (g : Gateway) (a : Act) :
    answer g a = ((guarded (a.account (sent g a)) g.sys.codes).run exec g.sys.db).1 ∧
      (step g a).sys.db = ((guarded (a.account (sent g a)) g.sys.codes).run exec g.sys.db).2 := by
  unfold answer step Accounts.step Accounts.handle
  cases hreq : a.request <;> simp [Act.account, hreq, Request.account]

/-- **A cookie that is issued** has the login of the one that was sent, or names an
account that stands. -/
theorem issued_cookie (g : Gateway) (a : Act) :
    SameLogin (sent g a) (answer g a).cookie ∨ ∃ u c, Stands (step g a).sys.db u ∧
      (answer g a).cookie = Session.signIn u c := by
  obtain ⟨hanswer, hdb⟩ := answer_guarded g a
  rw [hanswer, hdb]
  have hkept : ∀ {db' : DB} {out : Out}, out.cookie = (Sess.ofCookie (sent g a)).saved →
      SameLogin (sent g a) out.cookie ∨ ∃ u c, Stands db' u ∧
        out.cookie = Session.signIn u c := by
    intro db' out h
    rw [h]
    exact Or.inl (SameLogin.refl _)
  unfold guarded
  cases hreq : a.request with
  | login path =>
    simp only [Act.account, hreq, Request.account, Accounts.minRole, Accounts.route]
    have hsigns := handle_signs a.env a.ctx (Sess.ofCookie (sent g a)) path g.sys.db
    cases hsigns with
    | nobody _ hcookie => exact Or.inl (hcookie.elim id id)
    | somebody u _ hstands hcookie =>
      rcases hcookie with hcookie | ⟨c, hcookie⟩
      · exact Or.inl (hcookie.elim id id)
      · exact Or.inr ⟨u, c, hstands, hcookie⟩
  | manageUser req =>
    simp only [Act.account, hreq, Request.account, Accounts.minRole, Accounts.route]
    exact hkept (behind_cookie _ (fun ctx db => manageUser_cookie ctx _ req db) _ _ g.sys.db).run
  | deleteUser idParam =>
    simp only [Act.account, hreq, Request.account, Accounts.minRole, Accounts.route]
    exact hkept (behind_cookie _ (fun ctx db => deleteUser_cookie ctx _ idParam db) _ _ g.sys.db).run
  | generateAccessToken =>
    simp only [Act.account, hreq, Request.account, Accounts.minRole, Accounts.route]
    exact hkept (behind_cookie _ (fun ctx db => generateAccessToken_cookie ctx _ db) _ _ g.sys.db).run
  | secured minRole =>
    simp only [Act.account, hreq, Request.account, Accounts.minRole, Accounts.route]
    exact hkept rfl

/-! ### Every run -/

structure Inv (g : Gateway) : Prop where
  regular : ∀ row ∈ g.sys.db.users, Regular row
  backed : ∀ s ∈ g.issued, s.username ≠ none → s.status ≠ some userStatusDisabled →
    Backed g.sys.db s

/-- The cookie of a request is empty or was issued. -/
theorem sent_issued {g : Gateway} {a : Act} (h : (sent g a).username ≠ none) :
    sent g a ∈ g.issued := by
  unfold sent at h ⊢
  cases hi : a.resends.bind fun i => g.issued[i]? with
  | none =>
    rw [hi] at h
    exact absurd rfl h
  | some c =>
    obtain ⟨i, -, hc⟩ := Option.bind_eq_some_iff.mp hi
    exact List.mem_of_getElem? hc

/-- No cookie is outdated by the request, and a token it draws is not empty. -/
def Current (g : Gateway) (a : Act) : Prop :=
  (∀ s ∈ g.issued, ¬ Outdates g a s) ∧ a.ctx.randomKey ≠ .ok ""

theorem inv_step {g : Gateway} {a : Act} (h : Inv g) (hcurrent : Current g a) : Inv (step g a) := by
  have hregular : ∀ row ∈ (step g a).sys.db.users, Regular row :=
    fun row hrow => regular_step h.regular hcurrent.2 hrow
  refine ⟨hregular, ?_⟩
  intro s hs huser hstatus
  have hold : ∀ s ∈ g.issued, s.username ≠ none → s.status ≠ some userStatusDisabled →
      Backed (step g a).sys.db s :=
    fun s hs huser hstatus => backed_step (h.backed s hs huser hstatus) huser hstatus
      (hcurrent.1 s hs)
  rcases List.mem_append.mp hs with hs | hs
  · exact hold s hs huser hstatus
  obtain rfl := List.mem_singleton.mp hs
  rcases issued_cookie g a with ⟨hid, hname, hrole, hstat⟩ | ⟨u, c, hstands, hcookie⟩
  · rw [hname] at huser
    rw [hstat] at hstatus
    obtain ⟨row, hrow, hlive, hsid, hon, hle⟩ :=
      hold (sent g a) (sent_issued huser) huser hstatus
    refine ⟨row, hrow, hlive, hid.trans hsid, hon, ?_⟩
    rw [hrole]
    exact hle
  · rw [hcookie] at hstatus ⊢
    obtain ⟨row, hrow, hlive, hid, hsame, hrole⟩ := hstands
    have hon : row.status = userStatusEnabled := by
      rcases (hregular row hrow).1 with hon | hoff
      · exact hon
      · exact absurd (congrArg some (hsame.symm.trans hoff)) hstatus
    exact ⟨row, hrow, hlive, congrArg some hid.symm, hon, u.role, rfl, le_of_eq hrole.symm⟩

theorem reflects_of_inv {g : Gateway} (h : Inv g) (a : Act) : Reflects g a := by
  intro minRole auth _ hauth
  have hsat := (authHelper_sat minRole (sent g a) a.authorization g.sys.db).run
  rcases hsat.2 auth hauth with ⟨hname, hid, hrole, ⟨status, hstatus, hon⟩, hmin⟩ |
      ⟨hname, u, hu, hlive, hid, hrole, hon, hmin, htoken⟩
  · have huser : (sent g a).username ≠ none := by
      rw [hname]
      exact Option.some_ne_none _
    have hnot : (sent g a).status ≠ some userStatusDisabled := by
      rw [hstatus]
      exact fun he => hon (Option.some.inj he)
    obtain ⟨row, hrow, hlive, hsid, hrowon, role, hsrole, hle⟩ :=
      h.backed _ (sent_issued huser) huser hnot
    obtain rfl : auth.role = role := Option.some.inj (hrole.symm.trans hsrole)
    refine ⟨row, hrow, hlive, (Option.some.inj (hid.symm.trans hsid)).symm, hrowon, ?_, ?_⟩
    · exact le_trans hmin hle
    · intro hnone
      exact absurd hnone huser
  · have hregular := h.regular u hu
    refine ⟨u, hu, hlive, hid, ?_, hmin, fun _ => ⟨htoken, ?_⟩⟩
    · exact hregular.1.resolve_right hon
    · intro hempty
      rw [hempty] at htoken
      exact hregular.2 htoken

/-- **Authorization reflects the accounts as they are**, in every run that
outdates no cookie. -/
theorem reflects_of_current (sys : System) (hregular : ∀ row ∈ sys.db.users, Regular row)
    (acts : List Act)
    (h : Runs.Always (fun pre a => Current (Runs.after step ⟨sys, []⟩ pre) a) acts) :
    Runs.Always (fun pre a => Reflects (Runs.after step ⟨sys, []⟩ pre) a) acts := by
  refine Runs.always_of_invariant (P := fun acts => Inv (Runs.after step ⟨sys, []⟩ acts))
    ⟨hregular, fun s hs => nomatch hs⟩ ?_ ?_ acts h
  · intro acts a _ hinv hcurrent
    rw [Runs.after_snoc]
    exact inv_step hinv hcurrent
  · intro acts a hinv _
    exact reflects_of_inv hinv a

/-! ### A gateway with an administrator -/

def root : User :=
  { id := 1, username := "root", password := "#r", affCode := "a", role := 100, status := 1 }

/-- An administrator. -/
def bob : User :=
  { id := 2, username := "bob", password := "#pw", affCode := "b", role := 10, status := 1 }

def company : System := System.start true
  { users := Table.pair root bob (by decide)
    twoFAs := Table.empty
    backupCodes := Table.empty
    passkeys := Table.empty }

theorem company_regular : ∀ row ∈ company.db.users, Regular row := by
  intro row hrow
  have hrows : row ∈ [root, bob] := hrow
  rcases List.mem_cons.mp hrows with rfl | hrest
  · exact ⟨Or.inl rfl, fun he => nomatch he⟩
  · obtain rfl := List.mem_singleton.mp hrest
    exact ⟨Or.inl rfl, fun he => nomatch he⟩

def visit (resends : Option Nat) (request : Request) (authorization : String) : Act where
  request := request
  resends := resends
  authorization := authorization
  env := Env.plain
  ctx := Ctx.plain 0

def logsIn (username password : String) : Act :=
  visit none (.login (.login (some { username := username, password := password }))) ""

theorem visit_current {g : Gateway} {resends : Option Nat} {request : Request}
    {authorization : String} (hmanage : ∀ req, request ≠ .manageUser req)
    (hdelete : ∀ idParam, request ≠ .deleteUser idParam) :
    Current g (visit resends request authorization) := by
  refine ⟨fun s _ h => ?_, fun he => nomatch Except.ok.inj he⟩
  cases h with
  | managed hreq => exact hmanage _ hreq
  | deleted hreq => exact hdelete _ hreq

/-- Bob draws a token and presents it. -/
def byToken : List Act :=
  [logsIn "bob" "pw", visit (some 0) .generateAccessToken "",
    visit none (.secured roleAdminUser) "Bearer fresh"]

theorem byToken_reflects :
    Runs.Always (fun pre a => Reflects (Runs.after step ⟨company, []⟩ pre) a) byToken := by
  refine reflects_of_current company company_regular byToken ?_
  have hsplit : byToken = [] ++ [logsIn "bob" "pw"] ++ [visit (some 0) .generateAccessToken ""]
      ++ [visit none (.secured roleAdminUser) "Bearer fresh"] := rfl
  rw [hsplit, Runs.always_snoc, Runs.always_snoc, Runs.always_snoc]
  refine ⟨⟨⟨Runs.always_nil, ?_⟩, ?_⟩, ?_⟩
  · exact visit_current (fun _ h => nomatch h) fun _ h => nomatch h
  · exact visit_current (fun _ h => nomatch h) fun _ h => nomatch h
  · exact visit_current (fun _ h => nomatch h) fun _ h => nomatch h

/-- Bob logs in, and then root bans him. -/
def banned : List Act :=
  [logsIn "root" "r", logsIn "bob" "pw", visit (some 0) (.manageUser (some ⟨2, "disable"⟩)) ""]

/-- **A banned administrator is let through** with the cookie he has. -/
theorem banned_let_through :
    ¬ ∀ acts, Runs.Always (fun pre a => Reflects (Runs.after step ⟨company, []⟩ pre) a) acts := by
  intro h
  have hreflects := h (banned ++ [visit (some 1) (.secured roleAdminUser) ""]) banned
    (visit (some 1) (.secured roleAdminUser) "") [] rfl
  obtain ⟨row, hrow, -, hid, hstatus, -⟩ :=
    hreflects roleAdminUser ⟨"bob", 10, 2, some "", false⟩ rfl rfl
  have hoff : ∀ row ∈ (Runs.after step ⟨company, []⟩ banned).sys.db.users.rows,
      row.id = 2 → row.status ≠ 1 := by
    decide
  exact hoff row hrow hid hstatus

end AuthGateway.FreshAuthorization
