import AuthGateway.UsableAccounts

/-!
# The names of first logins

GitHub, WeChat and Linux DO register an account under a name that no one chose:
the name of the provider with the number after the greatest id.  Nothing
reserves these names, and every other name is chosen by whoever writes it.

`Chooses` lists the names that a request gives by choice, each with the greatest
number that may stand in it: the id of the account, or the number after the
greatest id where the account is yet to be created.  **Where no name carries a
greater number, a first login finds its name free** (`findsName_of_modest`), and
one registration under the right name is enough to refuse them all
(`name_taken`).
-/

namespace AuthGateway.FreshNames

open Common Model Controller Middleware Accounts UsableAccounts Refusals GoString

/-! ### The generated names -/

/-- What the generated names begin with. -/
def stems : List String := ["github_", "wechat_", "linuxdo_"]

/-- The logins that register under a generated name. -/
def Generates : Request → Prop
  | .login (.gitHubOAuth _ _) | .login (.linuxdoOAuth _ _ _) | .login (.weChatAuth _ _) => True
  | _ => False

/-- If the name is a generated one, its number is at most `n`. -/
def Fits (n : Int) (name : String) : Prop :=
  ∀ stem ∈ stems, ∀ k : Int, name = stem ++ toString k → k ≤ n

/-- **No row has the name of a later account**, not even a deleted row. -/
def Numbered (db : DB) : Prop := ∀ row ∈ db.users, Fits row.id row.username

/-- The same of the rows without what no name depends on. -/
def NumberedCores (accounts : Set User) : Prop := ∀ u ∈ accounts, Fits u.id u.username

theorem numbered_iff {db : DB} : Numbered db ↔ NumberedCores (cores db) := by
  constructor
  · rintro h - ⟨row, hrow, rfl⟩
    exact h row hrow
  · intro h row hrow
    exact h row.core (mem_cores hrow)

theorem Fits.mono {m n : Int} {name : String} (h : Fits m name) (hle : m ≤ n) : Fits n name :=
  fun stem hstem k hk => (h stem hstem k hk).trans hle

theorem toString_eq_itoa (k : Int) : toString k = itoa k := by
  cases k <;> rfl

theorem generated_inj {stem stem' : String} (hstem : stem ∈ stems) (hstem' : stem' ∈ stems)
    {k k' : Int} (h : stem ++ toString k = stem' ++ toString k') : k = k' := by
  rw [toString_eq_itoa, toString_eq_itoa] at h
  have hlist := congrArg String.toList h
  simp only [stems, List.mem_cons, List.not_mem_nil, or_false] at hstem hstem'
  rcases hstem with rfl | rfl | rfl <;> rcases hstem' with rfl | rfl | rfl <;>
    simp at hlist
  all_goals exact itoa_injective (String.toList_inj.mp hlist)

theorem fits_generated {stem : String} (hstem : stem ∈ stems) (k : Int) :
    Fits k (stem ++ toString k) :=
  fun _ hother _ h => le_of_eq (generated_inj hother hstem h.symm)

/-! ### The greatest id -/

theorem id_le_maxId {db : DB} {row : User} (h : row ∈ db.users) : row.id ≤ maxId db := by
  have hne : db.users.rows ≠ [] := List.ne_nil_of_mem h
  unfold maxId
  rw [List.getLast?_eq_getLast_of_ne_nil hne]
  show row.id ≤ (db.users.rows.getLast hne).id
  have hsplit := List.dropLast_append_getLast hne
  have hsorted := db.users.apart
  rw [← hsplit, List.pairwise_append] at hsorted
  rw [Table.mem_def, ← hsplit, List.mem_append] at h
  rcases h with h | h
  · exact le_of_lt (hsorted.2.2 row h _ (List.mem_singleton.mpr rfl)).1
  · rw [List.mem_singleton.mp h]

theorem maxId_cases (db : DB) : maxId db = 0 ∨ ∃ row ∈ db.users, maxId db = row.id := by
  unfold maxId
  cases hlast : db.users.rows.getLast? with
  | none => exact Or.inl rfl
  | some row => exact Or.inr ⟨row, List.mem_of_getLast? hlast, rfl⟩

/-- A row that is given its key is past all others. -/
theorem IsNew.past {db : DB} {u row : User} (h : IsNew db u row) (hid : u.id = 0)
    (hpos : 0 < row.id) : maxId db + 1 ≤ row.id := by
  rcases maxId_cases db with hzero | ⟨last, hlast, hmax⟩
  · omega
  · have hlt : last.id < row.id := h.later hid last hlast
    omega

theorem New.past {env : Env} {ctx : Ctx} {db : DB} {cleanUser row : User}
    (h : New env ctx db cleanUser row) (hid : cleanUser.id = 0) (hpos : 0 < row.id) :
    maxId db + 1 ≤ row.id := by
  obtain ⟨newUser, hhash, hnew⟩ := h
  obtain ⟨password, rfl, -⟩ := hashPassword_fields hhash
  obtain ⟨text, htext⟩ := toInsert_eq env ctx { cleanUser with password := password }
  rw [htext] at hnew
  exact IsNew.past hnew hid hpos

/-! ### The names that are chosen -/

/-- The names that a request gives by choice, each with the greatest number that
it leaves to no later account. -/
inductive Chooses (sys : System) (a : Act) (ctx : Ctx) : String → Int → Prop
  | root {req : SetupRequest} (hreq : a.request = .postSetup (some req))
      (hsetup : sys.setup = false) (hroot : ¬ HasRoot sys.db) :
      Chooses sys a ctx req.username (maxId sys.db + 1)
  | registered {cleanUser : User}
      (h : Registers a.env ctx a.cookie sys.codes sys.db a.request cleanUser)
      (hchosen : ¬ Generates a.request) :
      Chooses sys a ctx cleanUser.username (maxId sys.db + 1)
  | created {user : User} (hreq : a.request = .createUser (some user))
      (hrole : user.role < ctx.role) :
      Chooses sys a ctx (trimSpace user.username) (maxId sys.db + 1)
  | edited {user row : User} (hreq : a.request = .updateUser (some user))
      (hrow : row ∈ sys.db.users) (hlive : row.live = true) (hid : row.id = user.id)
      (hrank : outranked ctx.role row.role = false) : Chooses sys a ctx user.username row.id
  | selfEdited {user row : User} (hreq : a.request = .updateSelf (some (.account user)))
      (hrow : row ∈ sys.db.users) (hlive : row.live = true) (hid : row.id = ctx.id)
      (hname : user.username ≠ "") : Chooses sys a ctx user.username row.id

/-- What the request gives by choice, once it has passed its checks, is no name
of a later account. -/
def Modest (sys : System) (a : Act) : Prop :=
  ∀ ctx, Passes sys a ctx →
    ∀ name n, Chooses sys a ctx name n → Fits n name

variable {env : Env} {ctx : Ctx} {s : Session} {codes : VerificationMap} {db : DB}

theorem Registers.id_eq {q : Request} {cleanUser : User}
    (h : Registers env ctx s codes db q cleanUser) :
    cleanUser.id = 0 ∧ cleanUser.accessToken = none := by
  cases h <;> exact ⟨rfl, rfl⟩

/-- What the three logins register. -/
theorem Registers.generated {q : Request} {cleanUser : User}
    (h : Registers env ctx s codes db q cleanUser) (hq : Generates q) :
    cleanUser.password = "" ∧
      ∃ stem ∈ stems, cleanUser.username = stem ++ toString (maxId db + 1) := by
  cases h with
  | gitHub => exact ⟨rfl, "github_", by simp [stems], rfl⟩
  | linuxdo => exact ⟨rfl, "linuxdo_", by simp [stems], rfl⟩
  | weChat => exact ⟨rfl, "wechat_", by simp [stems], rfl⟩
  | register => exact hq.elim
  | discord => exact hq.elim
  | oidc => exact hq.elim

/-! ### One step -/

theorem numbered_edit {p : User → Bool} {g : User → User} (h : NumberedCores (cores db))
    (hg : ∀ row ∈ db.users, row.live = true → p row = true → Fits row.id row.username →
      Fits (g row).id (g row).username) :
    NumberedCores ((Change.edit p g).cores db) := by
  intro u hu
  obtain ⟨row, hrow, rfl | ⟨hlive, hp, rfl⟩⟩ := mem_cores_edit hu
  · exact h row.core (mem_cores hrow)
  · exact hg row hrow hlive hp (h row.core (mem_cores hrow))

theorem numbered_edit_same {p : User → Bool} {g : User → User} (h : NumberedCores (cores db))
    (hg : ∀ row, (g row).id = row.id ∧ (g row).username = row.username) :
    NumberedCores ((Change.edit p g).cores db) := by
  refine numbered_edit h fun row _ _ _ hrow => ?_
  rw [(hg row).1, (hg row).2]
  exact hrow

theorem numbered_create {row : User} (h : NumberedCores (cores db))
    (hrow : Fits row.id row.username) : NumberedCores ((Change.create row).cores db) := by
  rintro u (rfl | hu)
  · exact hrow
  · exact h u hu

/-- **What a permitted change makes of the names**, where a new row is past the
start of the keys. -/
theorem numbered_permits {sys : System} {a : Act} {ctx : Ctx} {c : Change}
    (hmodest : ∀ name n, Chooses sys a ctx name n → Fits n name)
    (hpos : ∀ row, c = .create row → 0 < row.id)
    (hpermits : Permits a.env ctx a.cookie sys.codes sys.db a.request c)
    (h : NumberedCores (cores sys.db)) : NumberedCores (c.cores sys.db) := by
  generalize hq : a.request = q at hpermits
  cases hpermits with
  | registered hregisters hnew =>
    rw [← hq] at hregisters
    have hpast := New.past hnew (Registers.id_eq hregisters).1 (hpos _ rfl)
    refine numbered_create h (Fits.mono ?_ hpast)
    rw [(New.names hnew).1]
    by_cases hgenerates : Generates a.request
    · obtain ⟨-, stem, hstem, hname⟩ := Registers.generated hregisters hgenerates
      rw [hname]
      exact fits_generated hstem _
    · exact hmodest _ _ (.registered hregisters hgenerates)
  | created hrole hnew =>
    refine numbered_create h (Fits.mono ?_ (New.past hnew rfl (hpos _ rfl)))
    rw [(New.names hnew).1]
    exact hmodest _ _ (.created hq hrole)
  | @edited user row password hrow hlive hid hrank =>
    refine numbered_edit h fun x hx _ hp _ => ?_
    obtain rfl : x = row := Table.eq_of_key hx hrow ((beq_iff_eq.mp hp).trans hid.symm)
    show Fits x.id user.username
    exact hmodest _ _ (.edited hq hrow hlive hid hrank)
  | @selfEdited user password =>
    refine numbered_edit h fun row hrow hlive hp hfits => ?_
    show Fits row.id (if user.username = "" then row.username else user.username)
    split
    · exact hfits
    · rename_i hname
      exact hmodest _ _ (.selfEdited hq hrow hlive (beq_iff_eq.mp hp) hname)
  | managed hrow _ _ _ haction =>
    refine numbered_edit h fun x hx _ hp hfits => ?_
    obtain rfl := Table.eq_of_key hx hrow (beq_iff_eq.mp hp)
    obtain ⟨role, status, rfl, -⟩ := manageAction_ok haction
    exact hfits
  | managedDelete => exact numbered_edit_same h fun _ => ⟨rfl, rfl⟩
  | deleted =>
    intro u hu
    exact h u hu.1
  | selfDeleted => exact numbered_edit_same h fun _ => ⟨rfl, rfl⟩
  | tokenGenerated => exact numbered_edit_same h fun _ => ⟨rfl, rfl⟩
  | affCodeGiven => exact numbered_edit_same h fun _ => ⟨rfl, rfl⟩
  | emailBound => exact numbered_edit_same h fun _ => ⟨rfl, rfl⟩
  | bound hbinds =>
    refine numbered_edit_same h fun _ => ?_
    cases hbinds <;> exact ⟨rfl, rfl⟩
  | passwordReset => exact numbered_edit_same h fun _ => ⟨rfl, rfl⟩

theorem pos_of_created {sys : System} {a : Act} {row : User}
    (hcores : cores (step sys a).db = (Change.create row).cores sys.db) : 0 < row.id := by
  have hmem : row.core ∈ cores (step sys a).db := by
    rw [hcores]
    exact Set.mem_insert _ _
  obtain ⟨x, hx, hcore⟩ := hmem
  rw [User.core_id hcore]
  exact Table.key_pos hx

/-- **A step whose names are modest** leaves the names of later accounts free. -/
theorem numbered_step {sys : System} {a : Act} (hmodest : Modest sys a) (h : Numbered sys.db) :
    Numbered (step sys a).db := by
  rw [numbered_iff] at h ⊢
  obtain ⟨c, hc, hcores⟩ := step_written sys a
  have hpos : ∀ row, c = .create row → 0 < row.id := by
    rintro row rfl
    exact pos_of_created hcores
  rw [hcores]
  rcases hc with rfl | ⟨hpasses, hpermits⟩ | ⟨hpasses, hreq, hsetup, hroot, -, password, -, hnew⟩
  · exact h
  · exact numbered_permits (hmodest _ hpasses) hpos hpermits h
  · refine numbered_create h (Fits.mono ?_ (IsNew.past hnew rfl (hpos _ rfl)))
    rw [hnew.names.1]
    exact hmodest _ hpasses _ _ (.root hreq hsetup hroot)

theorem numbered_run (sys : System) (h : Numbered sys.db) (acts : List Act)
    (hmodest : Runs.Always (fun pre a => Modest (Runs.after step sys pre) a) acts) :
    Numbered (Runs.after step sys acts).db := by
  refine Runs.run_induction (P := fun acts => Numbered (Runs.after step sys acts).db) h ?_ acts
    hmodest
  intro acts a _ hacts hmodest
  rw [Runs.after_snoc]
  exact numbered_step hmodest hacts

/-! ### The first login -/

/-- **A first login finds a free name**: no row has the name that it generates,
and what it registers is stored, unless its invitation code is that of another
account. -/
def FindsName (sys : System) : Prop :=
  ∀ env ctx s q cleanUser, Generates q → Registers env ctx s sys.codes sys.db q cleanUser →
    (∀ row ∈ sys.db.users, row.username ≠ cleanUser.username) ∧
      ∀ inviterId, (∀ row ∈ sys.db.users, row.affCode ≠ ctx.randomString) →
        ((cleanUser.insert env ctx inviterId).run exec sys.db).1.1 = none

/-- A registration is stored when nothing that is unique is taken. -/
theorem insert_stored {cleanUser : User} (env : Env) (ctx : Ctx) (inviterId : Int) {db : DB}
    (hpassword : cleanUser.password = "") (hid : cleanUser.id = 0)
    (htoken : cleanUser.accessToken = none)
    (hname : ∀ row ∈ db.users, row.username ≠ cleanUser.username)
    (haff : ∀ row ∈ db.users, row.affCode ≠ ctx.randomString) :
    ((cleanUser.insert env ctx inviterId).run exec db).1.1 = none := by
  have hhash : cleanUser.hashPassword ctx (cleanUser.password != "") = .ok cleanUser := by
    unfold User.hashPassword
    rw [hpassword]
    rfl
  obtain ⟨text, htext⟩ := toInsert_eq env ctx cleanUser
  have hcreate : ∃ row t, db.users.create (cleanUser.toInsert env ctx).withDefaults
      = some (row, t) := by
    rw [htext]
    refine Table.create_isSome hid fun k x hx => ?_
    have hx₁ := hname x hx
    have hx₂ := haff x hx
    simp [User.clash, User.withDefaults, Row.withKey, hx₁, hx₂, htoken]
  obtain ⟨row, t, hcreate⟩ := hcreate
  show Ends (cleanUser.insert env ctx inviterId) (fun r _ => r.1 = none) db
  unfold User.insert
  rw [hhash]
  dsimp only
  refine Ends.perform ?_
  simp only [exec, hcreate]
  refine Ends.bind (R := fun _ _ => True) trivial fun _ _ _ => ?_
  split
  · exact Ends.bind (R := fun _ _ => True) trivial fun _ _ _ =>
      Ends.bind (R := fun _ _ => True) trivial fun _ _ _ => Ends.pure rfl
  · exact Ends.pure rfl

theorem Numbered.findsName {sys : System} (h : Numbered sys.db) : FindsName sys := by
  intro env ctx s q cleanUser hq hregisters
  obtain ⟨hpassword, stem, hstem, hname⟩ := Registers.generated hregisters hq
  obtain ⟨hid, htoken⟩ := Registers.id_eq hregisters
  have hfree : ∀ row ∈ sys.db.users, row.username ≠ cleanUser.username := by
    intro row hrow htaken
    have hle : maxId sys.db + 1 ≤ row.id := h row hrow stem hstem _ (htaken.trans hname)
    have hmax := id_le_maxId hrow
    omega
  exact ⟨hfree, fun inviterId haff =>
    insert_stored env ctx inviterId hpassword hid htoken hfree haff⟩

/-- **In every run whose names are modest, a first login at GitHub, WeChat or
Linux DO finds a free name in every state reached.** -/
theorem findsName_of_modest (sys : System) (h : Numbered sys.db) (acts : List Act)
    (hmodest : Runs.Always (fun pre a => Modest (Runs.after step sys pre) a) acts) :
    FindsName (Runs.after step sys acts) :=
  (numbered_run sys h acts hmodest).findsName

theorem findsName_signUp : FindsName (Runs.after step unopened [setUp, signUp "github_2"]) := by
  refine findsName_of_modest unopened (fun u hu => nomatch hu) [setUp, signUp "github_2"] ?_
  have hsplit : [setUp, signUp "github_2"] = [] ++ [setUp] ++ [signUp "github_2"] := rfl
  rw [hsplit, Runs.always_snoc, Runs.always_snoc]
  refine ⟨⟨Runs.always_nil, ?_⟩, ?_⟩
  · intro ctx _ name n hchooses
    cases hchooses with
    | root hreq =>
      cases hreq
      intro stem hstem k hk
      simp only [stems, List.mem_cons, List.not_mem_nil, or_false] at hstem
      have hhead := congrArg (fun text => text.toList.head?) hk
      rcases hstem with rfl | rfl | rfl <;> simp at hhead
    | registered hregisters => cases hregisters
    | created hreq => cases hreq
    | edited hreq => cases hreq
    | selfEdited hreq => cases hreq
  · intro ctx _ name n hchooses
    cases hchooses with
    | registered hregisters =>
      have hmax : maxId (Runs.after step unopened ([] ++ [setUp])).db + 1 = 2 := by decide
      have hname : "github_2" = "github_" ++ toString (2 : Int) := by decide
      cases hregisters
      rw [hmax]
      show Fits 2 "github_2"
      rw [hname]
      exact fits_generated (by simp [stems]) 2
    | created hreq => cases hreq
    | root hreq => cases hreq
    | edited hreq => cases hreq
    | selfEdited hreq => cases hreq

/-- Somebody signs in at GitHub for the first time. -/
def firstLogin : Act where
  request := .login (.gitHubOAuth ⟨"s", "c"⟩ (.ok ⟨"alice", "Alice", ""⟩))
  cookie := { oauthState := some "s" }
  env := { Env.plain with cfg := { gitHubOAuthEnabled := true } }
  ctx := { Ctx.plain 0 with randomString := "d" }

/-- **The next name is taken**: the user 2 has registered as `github_3`, and the
first login at GitHub makes no account. -/
theorem name_taken :
    ¬ FindsName (Runs.after step unopened [setUp, signUp "github_3"]) ∧
      (Runs.after step unopened [setUp, signUp "github_3", firstLogin]).db.users.rows.map
        User.username = ["root", "github_3"] := by
  refine ⟨fun h => ?_, by decide⟩
  have hmax : maxId (Runs.after step unopened [setUp, signUp "github_3"]).db + 1 = 3 := by decide
  have htaken : "github_3" ∈ (Runs.after step unopened
      [setUp, signUp "github_3"]).db.users.rows.map User.username := by decide
  have hnone : ∀ row ∈ (Runs.after step unopened [setUp, signUp "github_3"]).db.users.rows,
      row.gitHubId = "" := by decide
  generalize Runs.after step unopened [setUp, signUp "github_3"] = sys at h hmax htaken hnone
  have hunclaimed : Unclaimed sys.db .gitHub "alice" := by
    intro row hrow
    show row.gitHubId ≠ "alice"
    rw [hnone row hrow]
    decide
  obtain ⟨user, hregisters, hname⟩ : ∃ user, Registers firstLogin.env firstLogin.ctx
      firstLogin.cookie sys.codes sys.db firstLogin.request user ∧
      user.username = "github_" ++ toString (maxId sys.db + 1) :=
    ⟨_, .gitHub ⟨rfl, rfl, rfl⟩ rfl hunclaimed, rfl⟩
  obtain ⟨row, hrow, hrowname⟩ := List.mem_map.mp htaken
  refine (h _ _ _ _ _ (show Generates firstLogin.request from trivial) hregisters).1 row hrow ?_
  rw [hrowname, hname, hmax]
  decide

end AuthGateway.FreshNames
