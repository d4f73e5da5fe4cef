import AuthGateway.Lib.GoString
import AuthGateway.Lib.Threads
import AuthGateway.Env
import AuthGateway.Model.Store

/-!
# model/user.go

The functions of `model/user.go` that the handlers call, as programs over the
database.  A method with a pointer receiver answers the struct it leaves behind
next to its error.  Redis is off, so the user cache is not touched, and log
records are left out.
-/

namespace AuthGateway.Model

open Common GoString

/-! ### Settings -/

def User.getSetting (env : Env) (user : User) : UserSetting :=
  if user.setting = "" then {} else env.settingOfJson user.setting

def User.setSetting (env : Env) (user : User) (setting : UserSetting) : User :=
  match env.settingToJson setting with
  | .ok s => { user with setting := s }
  | .error _ => user

def sidebarCommon : String :=
  "\"chat\":\x7b\"chat\":true,\"enabled\":true,\"playground\":true\x7d,\"console\":\x7b\"detail\":true,\"enabled\":true,\"log\":true,\"midjourney\":true,\"task\":true,\"token\":true\x7d,\"personal\":\x7b\"enabled\":true,\"personal\":true,\"topup\":true\x7d"

def generateDefaultSidebarConfigForRole (userRole : Int) : String :=
  if userRole = roleAdminUser then
    "\x7b\"admin\":\x7b\"channel\":true,\"enabled\":true,\"models\":true,\"redemption\":true,\"setting\":false,\"user\":true\x7d,"
      ++ sidebarCommon ++ "\x7d"
  else if userRole = roleRootUser then
    "\x7b\"admin\":\x7b\"channel\":true,\"enabled\":true,\"models\":true,\"redemption\":true,\"setting\":true,\"user\":true\x7d,"
      ++ sidebarCommon ++ "\x7d"
  else "\x7b" ++ sidebarCommon ++ "\x7d"

/-! ### Reading an account -/

/-- `First(user)` into a struct: a primary key in the struct is a condition of
its own, and a query that finds nothing leaves the struct as it is. -/
def User.first (user : User) (unscoped : Bool) (p : User → Bool) : M (Option Err × User) := do
  match ← perform (.userFirst unscoped fun u => p u && (user.id == 0 || u.id == user.id)) with
  | .ok row => return (none, row)
  | .error e => return (some e, user)

/-- `GetUserById`; without `selectAll` the password stays empty. -/
def getUserById (id : Int) (selectAll : Bool) : M (Except Err User) := do
  if id = 0 then return .error (.new "id 为空！")
  match ← perform (.userFirst false fun u => u.id == id) with
  | .ok row => return .ok (if selectAll then row else User.omitPassword row)
  | .error e => return .error e

/-- What `First` into a struct leaves there: a row of the table that meets the
condition, or the struct as it was. -/
theorem User.first_sat (user : User) (unscoped : Bool) (p : User → Bool) (db : DB) :
    Sat (user.first unscoped p) (fun r db' => db' = db ∧
      ((∃ e, r = (some e, user)) ∨ ∃ row ∈ db.users, r = (none, row) ∧
        (unscoped = true ∨ row.live = true) ∧ p row = true ∧ (user.id = 0 ∨ row.id = user.id)))
      db := by
  refine Sat.perform fun r db' h => ?_
  obtain ⟨rfl, ⟨row, hmem, hseen, -, rfl⟩ | ⟨e, rfl⟩⟩ := h.userFirst
  · refine Sat.pure ⟨rfl, Or.inr ⟨row, hmem, rfl, ?_⟩⟩
    simpa [seen] using hseen
  · exact Sat.pure ⟨rfl, Or.inl ⟨e, rfl⟩⟩

/-- `First` on a database in order: the row, or the struct when there is none. -/
theorem User.first_ends (user : User) (unscoped : Bool) (p : User → Bool) (db : DB) :
    Ends (user.first unscoped p) (fun r db' => db' = db ∧
      ((∃ row ∈ db.users, r = (none, row) ∧ (unscoped = true ∨ row.live = true) ∧ p row = true ∧
          (user.id = 0 ∨ row.id = user.id)) ∨
        r = (some .recordNotFound, user) ∧ ∀ row ∈ db.users,
          (unscoped = true ∨ row.live = true) → p row = true → user.id ≠ 0 ∧ row.id ≠ user.id)) db := by
  refine Ends.perform ?_
  simp only [exec]
  cases hfind : db.users.find? (seen unscoped fun u => p u && (user.id == 0 || u.id == user.id)) with
  | some row =>
    have hholds := Table.find?_holds hfind
    refine Ends.pure ⟨rfl, Or.inl ⟨row, Table.find?_mem hfind, rfl, ?_⟩⟩
    simpa [seen] using hholds
  | none =>
    refine Ends.pure ⟨rfl, Or.inr ⟨rfl, ?_⟩⟩
    intro row hrow hlive hp
    have hnot := Table.find?_eq_none.mp hfind row hrow
    simpa [seen, hlive, hp] using hnot

/-- The one statement of `First` is a lookup in `users`. -/
theorem User.first_only {P : DBOp → Prop} (h : ∀ unscoped p, P (.userFirst unscoped p))
    (user : User) (unscoped : Bool) (p : User → Bool) : Prog.Only P (user.first unscoped p) := by
  refine only_perform (h _ _) fun r => ?_
  cases r <;> exact Prog.Only.pure

theorem User.first_readOnly (user : User) (unscoped : Bool) (p : User → Bool) :
    ReadOnly (user.first unscoped p) := user.first_only (fun _ _ => rfl) unscoped p

theorem getUserById_only {P : DBOp → Prop} (h : ∀ unscoped p, P (.userFirst unscoped p)) (id : Int)
    (selectAll : Bool) : Prog.Only P (getUserById id selectAll) := by
  unfold getUserById
  split
  · exact Prog.Only.pure
  · refine only_perform (h _ _) fun r => ?_
    cases r <;> exact Prog.Only.pure

/-- A `First` on a database that answers. -/
theorem serve_first_up (user : User) (unscoped : Bool) (p : User → Bool) {s : Store}
    (h : s.outages 0 = none) :
    serve (user.first unscoped p) s
      = (match s.db.users.find? (seen unscoped fun u => p u && (user.id == 0 || u.id == user.id)) with
          | some row => (none, row)
          | none => (some .recordNotFound, user), s.rest) := by
  unfold User.first
  rw [serve_perform, Store.exec_read_up h rfl]
  simp only [exec]
  cases s.db.users.find? (seen unscoped fun u => p u && (user.id == 0 || u.id == user.id)) with
  | none => rfl
  | some row => rfl

theorem serve_first_down (user : User) (unscoped : Bool) (p : User → Bool) {s : Store} {e : Err}
    (h : s.outages 0 = some e) : serve (user.first unscoped p) s = ((some e, user), s.rest) := by
  unfold User.first
  rw [serve_perform, Store.exec_down h rfl]
  rfl

theorem getUserById_sat (id : Int) (selectAll : Bool) (db : DB) :
    Sat (getUserById id selectAll) (fun r db' => db' = db ∧ ∀ u, r = .ok u →
      ∃ row ∈ db.users, row.live = true ∧ row.id = id ∧
        u = if selectAll then row else row.omitPassword) db := by
  unfold getUserById
  split
  · exact Sat.pure ⟨rfl, fun u hu => nomatch hu⟩
  · refine Sat.perform fun r db' h => ?_
    obtain ⟨rfl, ⟨row, hmem, hseen, -, rfl⟩ | ⟨e, rfl⟩⟩ := h.userFirst
    · refine Sat.pure ⟨rfl, fun u hu => ⟨row, hmem, ?_, ?_, (Except.ok.inj hu).symm⟩⟩
      · exact (Bool.and_eq_true_iff.mp hseen).1
      · exact beq_iff_eq.mp (Bool.and_eq_true_iff.mp hseen).2
    · exact Sat.pure ⟨rfl, fun u hu => nomatch hu⟩

theorem serve_getUserById_down {id : Int} {selectAll : Bool} {s : Store} {e : Err}
    (h : s.outages 0 = some e) : ∃ e', (serve (getUserById id selectAll) s).1 = .error e' := by
  unfold getUserById
  by_cases hid : id = 0
  · rw [if_pos hid]
    exact ⟨_, rfl⟩
  · rw [if_neg hid, serve_perform, Store.exec_down h rfl]
    exact ⟨e, rfl⟩

/-- The live row with an id, of which there is at most one. -/
theorem find_user_eq_some {db : DB} {id : Int} {u : User} :
    db.users.find? (seen false fun u => u.id == id) = some u
      ↔ u ∈ db.users ∧ u.live = true ∧ u.id = id := by
  have huniq : ∀ a ∈ db.users, ∀ b ∈ db.users, seen false (fun u => u.id == id) a = true →
      seen false (fun u => u.id == id) b = true → a = b := by
    intro a ha b hb hpa hpb
    unfold seen at hpa hpb
    rw [Bool.and_eq_true, beq_iff_eq] at hpa hpb
    exact Table.eq_of_key ha hb (hpa.2.trans hpb.2.symm)
  rw [Table.find?_eq_some_of_unique huniq]
  unfold seen
  rw [Bool.false_or, Bool.and_eq_true, beq_iff_eq]

/-- The row of a user who is not deleted. -/
def liveRow (db : DB) (id : Int) : Option User := (db.users.get? id).filter User.live

theorem liveRow_eq_some {db : DB} {id : Int} {row : User} :
    liveRow db id = some row ↔ db.users.get? id = some row ∧ row.live = true := by
  unfold liveRow
  exact Option.filter_eq_some_iff

/-- `First` by an id finds the live row. -/
theorem find_liveRow (db : DB) (id : Int) :
    db.users.find? (seen false fun u => u.id == id) = liveRow db id := by
  apply Option.ext
  intro row
  rw [find_user_eq_some, liveRow_eq_some, Table.get?_eq_some]
  constructor
  · rintro ⟨hmem, hlive, hid⟩
    exact ⟨⟨hmem, hid⟩, hlive⟩
  · rintro ⟨⟨hmem, hid⟩, hlive⟩
    exact ⟨hmem, hlive, hid⟩

/-- A read that is answered finds the live row. -/
theorem serve_getUserById_up {id : Int} {selectAll : Bool} {s : Store} (h : s.outages 0 = none)
    {row : User} (hmem : row ∈ s.db.users) (hlive : row.live = true) (hrow : row.id = id) :
    serve (getUserById id selectAll) s = (.ok (if selectAll then row else row.omitPassword), s.rest) := by
  have hid : id ≠ 0 := by
    rw [← hrow]
    exact ne_of_gt (Table.key_pos hmem)
  unfold getUserById
  rw [if_neg hid, serve_perform, Store.exec_read_up h rfl]
  simp only [exec]
  rw [find_user_eq_some.mpr ⟨hmem, hlive, hrow⟩]
  rfl

def getMaxUserId : M Int := do
  match ← perform .userLast with
  | .ok row => return row.id
  | .error _ => return 0

theorem getMaxUserId_readOnly : ReadOnly getMaxUserId := by
  unfold getMaxUserId
  refine only_perform rfl fun r => ?_
  cases r <;> exact Prog.Only.pure

/-- The inviter's id; `0` when there is none. -/
def getUserIdByAffCode (affCode : String) : M Int := do
  if affCode = "" then return 0
  match ← perform (.userFirst false fun u => u.affCode == affCode) with
  | .ok row => return row.id
  | .error _ => return 0

theorem getUserIdByAffCode_readOnly (affCode : String) : ReadOnly (getUserIdByAffCode affCode) := by
  unfold getUserIdByAffCode
  split
  · exact Prog.Only.pure
  · refine only_perform rfl fun r => ?_
    cases r <;> exact Prog.Only.pure

/-- The `FillUserBy…` methods: refuse an empty value, then `First` with that one
condition, whose failure is not reported. -/
def User.fillBy (user : User) (isEmpty : Bool) (msg : String) (p : User → Bool) :
    M (Option Err × User) := do
  if isEmpty then return (some (.new msg), user)
  let (_, row) ← user.first false p
  return (none, row)

theorem User.fillBy_sat (user : User) (isEmpty : Bool) (msg : String) (p : User → Bool) (db : DB) :
    Sat (user.fillBy isEmpty msg p) (fun r db' => db' = db ∧
      (r.2 = user ∨ ∃ row ∈ db.users, r = (none, row) ∧ row.live = true ∧ p row = true ∧
        (user.id = 0 ∨ row.id = user.id))) db := by
  unfold User.fillBy
  split
  · exact Sat.pure ⟨rfl, Or.inl rfl⟩
  · refine (user.first_sat false p db).bind ?_
    rintro r db' ⟨rfl, ⟨e, rfl⟩ | ⟨row, hmem, rfl, hlive, hp, hid⟩⟩
    · exact Sat.pure ⟨rfl, Or.inl rfl⟩
    · exact Sat.pure ⟨rfl, Or.inr ⟨row, hmem, rfl, by simpa using hlive, hp, hid⟩⟩

theorem User.fillBy_only {P : DBOp → Prop} (h : ∀ unscoped p, P (.userFirst unscoped p))
    (user : User) (isEmpty : Bool) (msg : String) (p : User → Bool) :
    Prog.Only P (user.fillBy isEmpty msg p) := by
  unfold User.fillBy
  split
  · exact Prog.Only.pure
  · exact (user.first_only h false p).bind fun _ => Prog.Only.pure

theorem fillBy_readOnly (user : User) (isEmpty : Bool) (msg : String) (p : User → Bool) :
    ReadOnly (user.fillBy isEmpty msg p) := User.fillBy_only (fun _ _ => rfl) user isEmpty msg p

def User.fillUserById (user : User) : M (Option Err × User) :=
  user.fillBy (user.id == 0) "id 为空！" fun u => u.id == user.id

/-- The account with an id, as the handlers read it: the live row, or an empty
struct with that id. -/
theorem fillUserById_sat (id : Int) (db : DB) :
    Sat (User.fillUserById { id := id }) (fun r db' => db' = db ∧
      (r.2 = { id := id } ∨ ∃ row ∈ db.users, r = (none, row) ∧ row.live = true ∧ row.id = id))
      db := by
  refine Prog.Holds.mono (User.fillBy_sat _ _ _ _ db) fun r db' h => ⟨h.1, ?_⟩
  rcases h.2 with hr | ⟨row, hmem, hr, hlive, hid, -⟩
  · exact Or.inl hr
  · exact Or.inr ⟨row, hmem, hr, hlive, beq_iff_eq.mp hid⟩

/-- `First` by the id of the struct: whatever the others do, it keeps that id. -/
theorem User.first_follows {L : Type} {next : L → DB → DBOp → L → Prop} {l : L}
    (hread : ∀ s unscoped p, next l s (.userFirst unscoped p) l) (user : User) (unscoped : Bool) :
    Prog.Follows exec next (fun l' r => l' = l ∧ r.2.id = user.id)
      (user.first unscoped fun u => u.id == user.id) l := by
  unfold User.first
  refine Prog.Follows.perform_bind fun s => ⟨l, hread s _ _, ?_⟩
  simp only [exec]
  cases hfind : s.users.find?
      (seen unscoped fun u => u.id == user.id && (user.id == 0 || u.id == user.id)) with
  | none => exact ⟨rfl, rfl⟩
  | some row =>
    have hholds := Table.find?_holds hfind
    unfold seen at hholds
    simp only [Bool.and_eq_true, beq_iff_eq] at hholds
    exact ⟨rfl, hholds.2.1⟩

/-- Whatever the others do, the struct keeps the id. -/
theorem fillUserById_follows {L : Type} {next : L → DB → DBOp → L → Prop} {l : L}
    (hread : ∀ s unscoped p, next l s (.userFirst unscoped p) l) (id : Int) :
    Prog.Follows exec next (fun l' r => l' = l ∧ r.2.id = id) (User.fillUserById { id := id }) l := by
  unfold User.fillUserById User.fillBy
  split
  · exact ⟨rfl, rfl⟩
  · refine (User.first_follows hread { id := id } false).bind ?_
    intro r l' h
    exact h

/-- It reports no error of its own, and the struct keeps the id. -/
theorem fillUserById_ends {id : Int} (hid : id ≠ 0) (db : DB) :
    Ends (User.fillUserById { id := id }) (fun r db' => db' = db ∧ r.1 = none ∧ r.2.id = id) db := by
  unfold User.fillUserById User.fillBy
  rw [beq_false_of_ne hid, if_neg Bool.false_ne_true]
  refine (User.first_ends _ _ _ db).bind ?_
  intro r db' hr
  obtain ⟨rfl, ⟨row, -, rfl, -, hrow, -⟩ | ⟨rfl, -⟩⟩ := hr
  · exact Ends.pure ⟨rfl, rfl, beq_iff_eq.mp hrow⟩
  · exact Ends.pure ⟨rfl, rfl, rfl⟩

/-- When its read fails, the struct keeps its empty fields, and no error is
reported. -/
theorem serve_fillUserById_down {id : Int} (hid : id ≠ 0) {s : Store} {e : Err}
    (h : s.outages 0 = some e) :
    serve (User.fillUserById { id := id }) s = ((none, { id := id }), s.rest) := by
  unfold User.fillUserById User.fillBy
  rw [beq_false_of_ne hid, if_neg Bool.false_ne_true, serve_bind, serve_first_down _ _ _ h]
  rfl

theorem serve_fillUserById_rest {id : Int} (hid : id ≠ 0) (s : Store) :
    (serve (User.fillUserById { id := id }) s).1.1 = none ∧
      (serve (User.fillUserById { id := id }) s).2 = s.rest := by
  cases h : s.outages 0 with
  | some e =>
    rw [serve_fillUserById_down hid h]
    exact ⟨rfl, rfl⟩
  | none =>
    unfold User.fillUserById User.fillBy
    rw [beq_false_of_ne hid, if_neg Bool.false_ne_true, serve_bind, serve_first_up _ _ _ h]
    exact ⟨rfl, rfl⟩

def User.fillUserByGitHubId (user : User) : M (Option Err × User) :=
  user.fillBy (user.gitHubId == "") "GitHub id 为空！" fun u => u.gitHubId == user.gitHubId

def User.fillUserByDiscordId (user : User) : M (Option Err × User) :=
  user.fillBy (user.discordId == "") "discord id 为空！" fun u => u.discordId == user.discordId

def User.fillUserByOidcId (user : User) : M (Option Err × User) :=
  user.fillBy (user.oidcId == "") "oidc id 为空！" fun u => u.oidcId == user.oidcId

def User.fillUserByWeChatId (user : User) : M (Option Err × User) :=
  user.fillBy (user.weChatId == "") "WeChat id 为空！" fun u => u.weChatId == user.weChatId

/-- Unlike its siblings it reports that no row was found. -/
def User.fillUserByTelegramId (user : User) : M (Option Err × User) := do
  if user.telegramId = "" then return (some (.new "Telegram id 为空！"), user)
  let (err, row) ← user.first false fun u => u.telegramId == user.telegramId
  if err = some .recordNotFound then return (some (.new "该 Telegram 账户未绑定"), row)
  return (none, row)

/-- Unlike its siblings it reports every error. -/
def User.fillUserByLinuxDOId (user : User) : M (Option Err × User) := do
  if user.linuxDOId = "" then return (some (.new "linux do id is empty"), user)
  user.first false fun u => u.linuxDOId == user.linuxDOId

theorem fillUserByLinuxDOId_readOnly (user : User) : ReadOnly user.fillUserByLinuxDOId := by
  unfold User.fillUserByLinuxDOId
  split
  · exact Prog.Only.pure
  · exact user.first_readOnly false _

/-- The `Is…AlreadyTaken` functions: `RowsAffected == 1`. -/
def alreadyTaken (unscoped : Bool) (p : User → Bool) : M Bool := do
  match ← perform (.userFind unscoped p) with
  | .ok n => return (show Int from n) == 1
  | .error _ => return false

theorem alreadyTaken_readOnly (unscoped : Bool) (p : User → Bool) :
    ReadOnly (alreadyTaken unscoped p) := by
  unfold alreadyTaken
  refine only_perform rfl fun r => ?_
  cases r <;> exact Prog.Only.pure

def isGitHubIdAlreadyTaken (githubId : String) : M Bool :=
  alreadyTaken true fun u => u.gitHubId == githubId

def isDiscordIdAlreadyTaken (discordId : String) : M Bool :=
  alreadyTaken true fun u => u.discordId == discordId

def isOidcIdAlreadyTaken (oidcId : String) : M Bool :=
  alreadyTaken false fun u => u.oidcId == oidcId

def isWeChatIdAlreadyTaken (wechatId : String) : M Bool :=
  alreadyTaken true fun u => u.weChatId == wechatId

def isTelegramIdAlreadyTaken (telegramId : String) : M Bool :=
  alreadyTaken true fun u => u.telegramId == telegramId

/-- Every error but "record not found" counts as taken. -/
def isLinuxDOIdAlreadyTaken (linuxDOId : String) : M Bool := do
  match ← perform (.userFirst true fun u => u.linuxDOId == linuxDOId) with
  | .ok _ => return true
  | .error e => return e != .recordNotFound

theorem isLinuxDOIdAlreadyTaken_readOnly (linuxDOId : String) :
    ReadOnly (isLinuxDOIdAlreadyTaken linuxDOId) := by
  unfold isLinuxDOIdAlreadyTaken
  refine only_perform rfl fun r => ?_
  cases r <;> exact Prog.Only.pure

/-- `ValidateAndFill`: check the password and the status, and fill the struct. -/
def User.validateAndFill (env : Env) (user : User) : M (Option Err × User) := do
  let password := user.password
  let username := trimSpace user.username
  if username = "" ∨ password = "" then return (some (.new "用户名或密码为空"), user)
  let (_, row) ← user.first false fun u => u.username == username || u.email == username
  if !env.bcryptCompare row.password password || row.status != userStatusEnabled then
    return (some (.new "用户名或密码错误，或用户已被封禁"), row)
  return (none, row)

theorem User.validateAndFill_readOnly (env : Env) (user : User) :
    ReadOnly (user.validateAndFill env) := by
  unfold User.validateAndFill
  dsimp only
  split
  · exact Prog.Only.pure
  · refine (user.first_readOnly false _).bind fun r => ?_
    split <;> exact Prog.Only.pure

/-- The row that the name of a login picks: by user name or by email address. -/
def account (db : DB) (username : String) : Option User :=
  db.users.find? fun u =>
    u.live && (u.username == trimSpace username || u.email == trimSpace username)

/-- What a login asks for: the user name or the e-mail address. -/
def Named (name : String) (u : User) : Prop :=
  u.username = trimSpace name ∨ u.email = trimSpace name

/-- It is the first live row that the name is of. -/
theorem account_eq_some {db : DB} {name : String} {u : User} :
    account db name = some u ↔ u ∈ db.users ∧ u.live = true ∧ Named name u ∧
      ∀ x ∈ db.users, x.live = true → x.id < u.id → ¬ Named name x := by
  have hholds : ∀ x : User, (x.live && (x.username == trimSpace name ||
      x.email == trimSpace name)) = true ↔ x.live = true ∧ Named name x := by
    intro x
    simp [Named]
  unfold account
  constructor
  · intro h
    have hu := Table.find?_holds h
    obtain ⟨hlive, hnamed⟩ := (hholds u).mp hu
    refine ⟨Table.find?_mem h, hlive, hnamed, fun x hx hxlive hlt hxnamed => ?_⟩
    have hle : u.id ≤ x.id := Table.find?_le h hx ((hholds x).mpr ⟨hxlive, hxnamed⟩)
    omega
  · rintro ⟨hmem, hlive, hnamed, hfirst⟩
    cases hfind : db.users.find? fun x => x.live &&
        (x.username == trimSpace name || x.email == trimSpace name) with
    | none =>
      have hnot := Table.find?_eq_none.mp hfind u hmem
      rw [(hholds u).mpr ⟨hlive, hnamed⟩] at hnot
      cases hnot
    | some x =>
      have hxmem := Table.find?_mem hfind
      have hx := Table.find?_holds hfind
      obtain ⟨hxlive, hxnamed⟩ := (hholds x).mp hx
      have hle : x.id ≤ u.id := Table.find?_le hfind hmem ((hholds u).mpr ⟨hlive, hnamed⟩)
      have hge : ¬ x.id < u.id := fun hlt => hfirst x hxmem hxlive hlt hxnamed
      have hkey : x.id = u.id := by omega
      rw [Table.eq_of_key hxmem hmem hkey]

/-- The account that a name and a password are of: the row is live and enabled,
and the password fits its hash. -/
def Accepted (env : Env) (db : DB) (username password : String) (u : User) : Prop :=
  trimSpace username ≠ "" ∧ password ≠ "" ∧ account db username = some u ∧
    env.bcryptCompare u.password password = true ∧ u.status = userStatusEnabled

theorem Accepted.row {env : Env} {db : DB} {username password : String} {u : User}
    (h : Accepted env db username password u) : u ∈ db.users ∧ u.live = true := by
  have hfind := h.2.2.1
  unfold account at hfind
  have hholds := Table.find?_holds hfind
  rw [Bool.and_eq_true] at hholds
  exact ⟨Table.find?_mem hfind, hholds.1⟩

/-- The struct `ValidateAndFill` looks at: the row, or what it was given. -/
theorem serve_validateAndFill_ok (env : Env) (user u : User) (s : Store) :
    (serve (user.validateAndFill env) s).1 = (none, u) ↔
      trimSpace user.username ≠ "" ∧ user.password ≠ "" ∧
        (serve (user.first false fun v => v.username == trimSpace user.username
          || v.email == trimSpace user.username) s).1.2 = u ∧
        env.bcryptCompare u.password user.password = true ∧ u.status = userStatusEnabled := by
  unfold User.validateAndFill
  dsimp only
  by_cases hempty : trimSpace user.username = "" ∨ user.password = ""
  · rw [if_pos hempty, serve_pure]
    constructor
    · intro h
      exact nomatch congrArg Prod.fst h
    · intro h
      rcases hempty with he | he
      · exact absurd he h.1
      · exact absurd he h.2.1
  · rw [if_neg hempty, serve_bind]
    rw [not_or] at hempty
    generalize (serve (user.first false fun v => v.username == trimSpace user.username
      || v.email == trimSpace user.username) s) = first
    obtain ⟨⟨err, row⟩, s'⟩ := first
    by_cases hok : env.bcryptCompare row.password user.password = true ∧
        row.status = userStatusEnabled
    · simp only [hok.1, hok.2, Bool.not_true, bne_self_eq_false, Bool.or_false,
        Bool.false_eq_true, if_false, serve_pure]
      constructor
      · intro h
        obtain rfl : row = u := congrArg Prod.snd h
        exact ⟨hempty.1, hempty.2, rfl, hok⟩
      · intro h
        rw [h.2.2.1]
    · have hbad : (!env.bcryptCompare row.password user.password
          || row.status != userStatusEnabled) = true := by
        rw [Bool.or_eq_true, Bool.not_eq_true', bne_iff_ne]
        rw [not_and_or, Bool.not_eq_true] at hok
        exact hok
      simp only [hbad, if_true, serve_pure]
      constructor
      · intro h
        exact nomatch congrArg Prod.fst h
      · rintro ⟨-, -, rfl, h⟩
        exact absurd h hok

/-- **When `ValidateAndFill` passes, and for whom**: its read is answered, and
the row it finds is the account that name and password are of. -/
theorem serve_validateAndFill (env : Env) (username password : String) (u : User) (s : Store) :
    (serve (User.validateAndFill env { username := username, password := password }) s).1 = (none, u)
      ↔ s.outages 0 = none ∧ Accepted env s.db username password u := by
  rw [serve_validateAndFill_ok]
  cases hout : s.outages 0 with
  | some e =>
    rw [serve_first_down _ _ _ hout]
    constructor
    · -- the struct comes back as it was, with no status
      rintro ⟨-, -, rfl, -, hstatus⟩
      exact absurd hstatus (show (0 : Int) ≠ 1 by decide)
    · intro h
      exact nomatch h.1
  | none =>
    have hcond : (seen false fun v => (v.username == trimSpace username
        || v.email == trimSpace username) && (((0 : Int) == 0) || v.id == 0))
        = fun v => v.live && (v.username == trimSpace username
          || v.email == trimSpace username) := by
      funext v
      simp [seen]
    rw [serve_first_up _ _ _ hout, hcond]
    have hrow : account s.db username = s.db.users.find? fun v =>
        v.live && (v.username == trimSpace username || v.email == trimSpace username) := rfl
    unfold Accepted
    rw [hrow]
    cases s.db.users.find? fun v =>
        v.live && (v.username == trimSpace username || v.email == trimSpace username) with
    | none =>
      constructor
      · rintro ⟨-, -, rfl, -, hstatus⟩
        exact absurd hstatus (show (0 : Int) ≠ 1 by decide)
      · rintro ⟨-, -, -, h, -⟩
        exact nomatch h
    | some row =>
      constructor
      · rintro ⟨hname, hpassword, hu, h⟩
        exact ⟨rfl, hname, hpassword, congrArg some hu, h⟩
      · rintro ⟨-, hname, hpassword, hu, h⟩
        exact ⟨hname, hpassword, Option.some.inj hu, h⟩

/-- It performs one read when it passes. -/
theorem serve_validateAndFill_rest {env : Env} {user u : User} {s : Store}
    (h : (serve (user.validateAndFill env) s).1 = (none, u)) :
    (serve (user.validateAndFill env) s).2 = s.rest := by
  have hname := (serve_validateAndFill_ok env user u s).mp h
  have hempty : ¬ (trimSpace user.username = "" ∨ user.password = "") := by
    rw [not_or]
    exact ⟨hname.1, hname.2.1⟩
  have hfirst : (serve (user.first false fun v => v.username == trimSpace user.username
      || v.email == trimSpace user.username) s).2 = s.rest := by
    cases hout : s.outages 0 with
    | none => rw [serve_first_up _ _ _ hout]
    | some e => rw [serve_first_down _ _ _ hout]
  unfold User.validateAndFill
  dsimp only
  rw [if_neg hempty, serve_bind, hfirst]
  split <;> rfl

/-- The owner of an access token. -/
def validateAccessToken (token : String) : M (Option User) := do
  if token = "" then return none
  let token := replaceOnce "Bearer " token
  match ← perform (.userFirst false fun u => u.accessToken == some token) with
  | .ok row => return some row
  | .error _ => return none

theorem validateAccessToken_only {P : DBOp → Prop} (h : ∀ unscoped p, P (.userFirst unscoped p))
    (token : String) : Prog.Only P (validateAccessToken token) := by
  unfold validateAccessToken
  split
  · exact Prog.Only.pure
  · refine only_perform (h _ _) fun r => ?_
    cases r <;> exact Prog.Only.pure

/-- The owner of a token is the live row that has it. -/
theorem validateAccessToken_sat (token : String) (db : DB) :
    Sat (validateAccessToken token) (fun r db' => db' = db ∧ ∀ u, r = some u →
      u ∈ db.users ∧ u.live = true ∧ token ≠ "" ∧
        u.accessToken = some (replaceOnce "Bearer " token)) db := by
  unfold validateAccessToken
  split
  · exact Sat.pure ⟨rfl, fun u hu => nomatch hu⟩
  · rename_i htoken
    refine Sat.perform fun r db' h => ?_
    obtain ⟨rfl, ⟨row, hmem, hseen, -, rfl⟩ | ⟨e, rfl⟩⟩ := h.userFirst
    · refine Sat.pure ⟨rfl, fun u hu => ?_⟩
      obtain rfl : row = u := Option.some.inj hu
      have hseen' := Bool.and_eq_true_iff.mp hseen
      exact ⟨hmem, hseen'.1, htoken, beq_iff_eq.mp hseen'.2⟩
    · exact Sat.pure ⟨rfl, fun u hu => nomatch hu⟩

/-! ### Writing an account -/

/-- The error of a statement without its answer. -/
def errorOf {A : Type} : Except Err A → Option Err
  | .ok _ => none
  | .error e => some e

/-- `user.Password, err = Password2Hash(user.Password)`, if asked for. -/
def User.hashPassword (ctx : Ctx) (user : User) (updatePassword : Bool) : Except Err User :=
  if updatePassword then
    match ctx.password2Hash user.password with
    | .ok h => .ok { user with password := h }
    | .error e => .error e
  else .ok user

/-- `DB.First(&user, user.Id)` and `DB.Model(user).Updates(…)`, on one struct. -/
def User.firstAndUpdates (newUser : User) (f : User → User) : M (Option Err × User) := do
  let (_, user) ← newUser.first false fun u => u.id == newUser.id
  if user.id = 0 then return (some (.new "WHERE conditions required"), user)
  match ← perform (.userUpdates (fun u => u.id == user.id) f) with
  | .ok _ => return (none, f user)
  | .error e => return (some e, user)

/-- No key and no indexed column is written. -/
structure User.Plain (f : User → User) : Prop where
  id : ∀ u, (f u).id = u.id
  clash : ∀ u v, (f u).clash v = u.clash v

/-- **A plain update is accepted**, and changes each row under its own id. -/
theorem exec_plain {f : User → User} (hf : User.Plain f) (p : User → Bool) (db : DB) :
    (exec (.userUpdates p f) db).1 = .ok () ∧
      ∀ id, (exec (.userUpdates p f) db).2.users.get? id
        = (db.users.get? id).map (Table.touch (fun u => u.live && p u) f) := by
  have htouch : ∀ u v : User,
      (Table.touch (fun u => u.live && p u) f u).clash v = u.clash v := by
    intro u v
    unfold Table.touch
    split
    · exact hf.clash u v
    · rfl
  obtain ⟨t, ht⟩ : ∃ t, db.users.update (fun u => u.live && p u) f = some t := by
    refine Table.update_isSome hf.id ?_
    intro a ha b hb hne
    have hapart := (Table.eq_or_apart ha hb).resolve_left fun he => hne (congrArg Row.key he)
    rw [User.clash_eq, htouch, User.clash_comm, htouch, User.clash_comm]
    exact hapart.2
  simp only [exec, ht, DB.written, true_and]
  exact Table.get?_update ht hf.id

/-- A whole row that is saved. -/
theorem saved (u : User) (db : DB) :
    ((exec (.userSave u) db).1 = .ok () ∧ ∀ id, (exec (.userSave u) db).2.users.get? id
        = if u.id = id then some u else db.users.get? id) ∨
      ∃ e, (exec (.userSave u) db).1 = .error e ∧ (exec (.userSave u) db).2 = db := by
  simp only [exec]
  cases hput : db.users.put u with
  | none => exact Or.inr ⟨_, rfl, rfl⟩
  | some t =>
    refine Or.inl ⟨rfl, fun id => ?_⟩
    show t.get? id = _
    by_cases hid : u.id = id
    · rw [if_pos hid, ← hid]
      exact Table.get?_put_self hput
    · rw [if_neg hid]
      exact Table.get?_put_of_ne hput (Ne.symm hid)

/-- `User.Update`: every non-zero field of the caller's struct is written. -/
def User.update (ctx : Ctx) (user : User) (updatePassword : Bool) : M (Option Err × User) :=
  match user.hashPassword ctx updatePassword with
  | .error e => return (some e, user)
  | .ok newUser => newUser.firstAndUpdates fun row => row.overlay newUser

/-- `User.Edit`: a fixed list of columns is written. -/
def User.edit (ctx : Ctx) (user : User) (updatePassword : Bool) : M (Option Err × User) :=
  match user.hashPassword ctx updatePassword with
  | .error e => return (some e, user)
  | .ok newUser => newUser.firstAndUpdates fun row =>
      { row with
        username := newUser.username
        displayName := newUser.displayName
        group := newUser.group
        quota := newUser.quota
        remark := newUser.remark
        password := if updatePassword then newUser.password else row.password }

/-- `User.Delete`, a soft delete. -/
def User.delete (ctx : Ctx) (user : User) : M (Option Err × User) := do
  if user.id = 0 then return (some (.new "id 为空！"), user)
  let r ← perform (.userUpdates (fun u => u.id == user.id) fun u =>
    { u with deletedAt := some ctx.now })
  return (errorOf r, { user with deletedAt := some ctx.now })

def deleteUserById (ctx : Ctx) (id : Int) : M (Option Err) := do
  if id = 0 then return some (.new "id 为空！")
  let (err, _) ← User.delete ctx { id := id }
  return err

def hardDeleteUserById (id : Int) : M (Option Err) := do
  if id = 0 then return some (.new "id 为空！")
  return errorOf (← perform (.userHardDelete id))

def increaseUserQuota (id quota : Int) : M (Option Err) := do
  if quota < 0 then return some (.new "quota 不能为负数！")
  return errorOf (← perform (.userUpdates (fun u => u.id == id) fun u =>
    { u with quota := u.quota + quota }))

def decreaseUserQuota (id quota : Int) : M (Option Err) := do
  if quota < 0 then return some (.new "quota 不能为负数！")
  return errorOf (← perform (.userUpdates (fun u => u.id == id) fun u =>
    { u with quota := u.quota - quota }))

def resetUserPasswordByEmail (ctx : Ctx) (email password : String) : M (Option Err) := do
  if email = "" ∨ password = "" then return some (.new "邮箱地址或密码为空！")
  match ctx.password2Hash password with
  | .error e => return some e
  | .ok hashedPassword =>
    return errorOf (← perform (.userUpdates (fun u => u.email == email) fun u =>
      { u with password := hashedPassword }))

def inviteUser (env : Env) (inviterId : Int) : M Unit := do
  match ← getUserById inviterId true with
  | .error _ => return ()
  | .ok user =>
    let _ ← perform (.userSave
      { user with
        affCount := user.affCount + 1
        affQuota := user.affQuota + env.cfg.quotaForInviter
        affHistoryQuota := user.affHistoryQuota + env.cfg.quotaForInviter })
    return ()

/-- `QuotaPerUnit`, a whole number. -/
def quotaPerUnit : Int := 500 * 1000

/-- `TransferAffQuotaToQuota`, one transaction.  Its `First` locks nothing, and what
it saves is there when it commits; `logQuota` is how the logger writes a quota. -/
def User.transferAffQuotaToQuota (logQuota : Int → String) (user : User) (quota : Int) :
    M (Option Err) := do
  if quota < quotaPerUnit then
    return some (.new ("转移额度最小为" ++ logQuota quotaPerUnit ++ "！"))
  let (err, user) ← user.first false fun u => u.id == user.id
  match err with
  | some e => return some e
  | none =>
    if user.affQuota < quota then return some (.new "邀请额度不足！")
    return errorOf (← perform (.userSave
      { user with affQuota := user.affQuota - quota, quota := user.quota + quota }))

/-- The sidebar of a new account, written once its role is known. -/
def initSidebar (env : Env) (ctx : Ctx) (username : String) : M Unit := do
  match ← perform (.userFirst false fun u => u.username == username) with
  | .error _ => return ()
  | .ok createdUser =>
    let currentSetting := User.getSetting env createdUser
    let createdUser := User.setSetting env createdUser { currentSetting with
      sidebarModules := generateDefaultSidebarConfigForRole (show User from createdUser).role }
    let _ ← createdUser.update ctx false
    return ()

/-- The struct that `User.Insert` creates. -/
def User.toInsert (env : Env) (ctx : Ctx) (user : User) : User :=
  let user := { user with quota := env.cfg.quotaForNewUser, affCode := ctx.randomString }
  if user.setting = "" then user.setSetting env {} else user

/-- The quota for having been invited. -/
def rewardInvitee (env : Env) (id : Int) : M Unit := do
  if 0 < env.cfg.quotaForInvitee then
    let _ ← increaseUserQuota id env.cfg.quotaForInvitee
    return ()
  else return ()

/-- The quota for having invited. -/
def rewardInviter (env : Env) (inviterId : Int) : M Unit :=
  if 0 < env.cfg.quotaForInviter then inviteUser env inviterId else return ()

/-- `CheckUserExistOrDeleted`; an empty e-mail is not looked for. -/
def checkUserExistOrDeleted (username email : String) : M (Except Err Bool) := do
  match ← perform (.userFirst true fun u =>
      u.username == username || (email != "" && u.email == email)) with
  | .ok _ => return .ok true
  | .error .recordNotFound => return .ok false
  | .error e => return .error e

theorem checkUserExistOrDeleted_readOnly (username email : String) :
    ReadOnly (checkUserExistOrDeleted username email) := by
  unfold checkUserExistOrDeleted
  refine only_perform rfl fun a => ?_
  cases a with
  | ok row => exact Prog.Only.pure
  | error e => split <;> exact Prog.Only.pure

def isEmailAlreadyTaken (email : String) : M Bool := alreadyTaken true fun u => u.email == email

theorem isEmailAlreadyTaken_readOnly (email : String) : ReadOnly (isEmailAlreadyTaken email) :=
  alreadyTaken_readOnly _ _

/-- `User.Insert`. -/
def User.insert (env : Env) (ctx : Ctx) (user : User) (inviterId : Int) :
    M (Option Err × User) := do
  match user.hashPassword ctx (user.password != "") with
  | .error e => return (some e, user)
  | .ok user =>
    match ← perform (.userCreate (user.toInsert env ctx)) with
    | .error e => return (some e, user)
    | .ok row =>
      initSidebar env ctx user.username
      if inviterId ≠ 0 then
        rewardInvitee env (show User from row).id
        rewardInviter env inviterId
      return (none, row)

def rootUserExists : M Bool := do
  match ← perform (.userFirst false fun u => u.role == roleRootUser) with
  | .ok _ => return true
  | .error _ => return false

end AuthGateway.Model
