import AuthGateway.Lib.Runs
import AuthGateway.Privilege
import AuthGateway.Refusals

/-!
# The accounts that can be used

`validUserInfo` is the last check of `authHelper`: an account that it refuses can
be signed in to and does nothing.  It is asked when an account is read;
`Usable` says that whoever writes one has seen to it.

Only `CreateUser` refuses a blank name, and nothing asks for one of the four
roles.  `Gives` lists the names and the roles that a request which passes its
own checks gives an account; **where all of them are valid, the accounts stay
usable** (`usable_of_proper`), and an administrator is enough to make one that
is not (`unknown_role`).
-/

namespace AuthGateway.UsableAccounts

open Common Model Controller Middleware Accounts Privilege Refusals GoString

/-! ### Usable accounts -/

/-- **Every live account passes the check of its next request.** -/
def Usable (db : DB) : Prop :=
  ∀ row ∈ db.users, row.live = true → validUserInfo row.username row.role = true

/-- The same of the rows without what no check reads. -/
def Valid (accounts : Set User) : Prop :=
  ∀ u ∈ accounts, u.live = true → validUserInfo u.username u.role = true

theorem usable_iff {db : DB} : Usable db ↔ Valid (cores db) := by
  constructor
  · rintro h - ⟨row, hrow, rfl⟩ hlive
    exact h row hrow hlive
  · intro h row hrow hlive
    exact h row.core (mem_cores hrow) hlive

theorem validUserInfo_iff {username : String} {role : Int} :
    validUserInfo username role = true ↔ trimSpace username ≠ "" ∧ isValidateRole role = true := by
  unfold validUserInfo
  rw [Bool.and_eq_true, bne_iff_ne]

theorem valid_edit {db : DB} {p : User → Bool} {g : User → User} (h : Valid (cores db))
    (hg : ∀ row ∈ db.users, row.live = true → p row = true →
      validUserInfo row.username row.role = true →
      validUserInfo (g row).username (g row).role = true) :
    Valid ((Change.edit p g).cores db) := by
  intro u hu hlive
  obtain ⟨row, hrow, rfl | ⟨hrowlive, hp, rfl⟩⟩ := mem_cores_edit hu
  · exact h row.core (mem_cores hrow) hlive
  · exact hg row hrow hrowlive hp (h row.core (mem_cores hrow) hrowlive)

theorem valid_edit_same {db : DB} {p : User → Bool} {g : User → User} (h : Valid (cores db))
    (hg : ∀ row, (g row).username = row.username ∧ (g row).role = row.role) :
    Valid ((Change.edit p g).cores db) := by
  refine valid_edit h fun row _ _ _ hrow => ?_
  rw [(hg row).1, (hg row).2]
  exact hrow

theorem valid_create {db : DB} {row : User} (h : Valid (cores db))
    (hrow : validUserInfo row.username row.role = true) :
    Valid ((Change.create row).cores db) := by
  rintro u (rfl | hu) hlive
  · exact hrow
  · exact h u hu hlive

/-! ### What a request gives -/

/-- The name and the role that a request gives an account, the role being the
account's own where the request leaves it. -/
inductive Gives (sys : System) (a : Act) (ctx : Ctx) : String → Int → Prop
  | root {req : SetupRequest} (hreq : a.request = .postSetup (some req))
      (hsetup : sys.setup = false) (hroot : ¬ HasRoot sys.db) :
      Gives sys a ctx req.username roleRootUser
  | registered {cleanUser : User}
      (h : Registers a.env ctx a.cookie sys.codes sys.db a.request cleanUser) :
      Gives sys a ctx cleanUser.username roleCommonUser
  | created {user : User} (hreq : a.request = .createUser (some user))
      (hrole : user.role < ctx.role) : Gives sys a ctx (trimSpace user.username) user.role
  | edited {user row : User} (hreq : a.request = .updateUser (some user))
      (hrow : row ∈ sys.db.users) (hlive : row.live = true) (hid : row.id = user.id)
      (hrank : outranked ctx.role row.role = false) : Gives sys a ctx user.username row.role
  | selfEdited {user row : User} (hreq : a.request = .updateSelf (some (.account user)))
      (hrow : row ∈ sys.db.users) (hlive : row.live = true) (hid : row.id = ctx.id)
      (hname : user.username ≠ "") : Gives sys a ctx user.username row.role

/-- What the request gives, once it has passed its checks, is valid. -/
def Proper (sys : System) (a : Act) : Prop :=
  ∀ ctx, Passes sys a ctx →
    ∀ name role, Gives sys a ctx name role → validUserInfo name role = true

/-- The logins that make up the name are given none that is blank. -/
theorem valid_prefixed {c : Char} (hc : isSpace c = false) {text rest : String}
    (htext : text.toList.head? = some c) :
    validUserInfo (text ++ rest) roleCommonUser = true := by
  rw [validUserInfo_iff, trimSpace_ne_empty]
  refine ⟨⟨c, ?_, hc⟩, rfl⟩
  rw [String.toList_append, List.mem_append]
  exact Or.inl (List.mem_of_head? htext)

theorem manageAction_valid {myRole : Int} {row user : User} {action : String}
    (haction : manageAction myRole row action = .ok user)
    (h : validUserInfo row.username row.role = true) :
    validUserInfo user.username user.role = true := by
  obtain ⟨role, status, rfl, hrole, -, -⟩ := manageAction_ok haction
  rw [validUserInfo_iff] at h ⊢
  refine ⟨h.1, ?_⟩
  show isValidateRole role = true
  rcases hrole with rfl | ⟨-, -, -, rfl⟩ | ⟨-, -, rfl⟩
  · exact h.2
  · rfl
  · rfl

theorem valid_permits {sys : System} {a : Act} {ctx : Ctx} {c : Change}
    (hgives : ∀ name role, Gives sys a ctx name role → validUserInfo name role = true)
    (hpermits : Permits a.env ctx a.cookie sys.codes sys.db a.request c)
    (h : Valid (cores sys.db)) : Valid (c.cores sys.db) := by
  generalize hq : a.request = q at hpermits
  cases hpermits with
  | registered hregisters hnew =>
    rw [← hq] at hregisters
    refine valid_create h ?_
    rw [(New.names hnew).1, Registers.role hregisters hnew]
    exact hgives _ _ (.registered hregisters)
  | created hrole hnew =>
    have hgiven := validUserInfo_iff.mp (hgives _ _ (.created hq hrole))
    refine valid_create h (validUserInfo_iff.mpr ⟨?_, ?_⟩)
    · rw [(New.names hnew).1]
      exact hgiven.1
    · rw [New.role hnew]
      dsimp only
      split
      · rfl
      · exact hgiven.2
  | @edited user row password hrow hlive hid hrank =>
    refine valid_edit h fun x hx _ hp _ => ?_
    obtain rfl : x = row := Table.eq_of_key hx hrow ((beq_iff_eq.mp hp).trans hid.symm)
    show validUserInfo user.username x.role = true
    exact hgives _ _ (.edited hq hrow hlive hid hrank)
  | @selfEdited user password =>
    refine valid_edit h fun row hrow hlive hp hvalid => ?_
    show validUserInfo (if user.username = "" then row.username else user.username) row.role = true
    split
    · exact hvalid
    · rename_i hname
      exact hgives _ _ (.selfEdited hq hrow hlive (beq_iff_eq.mp hp) hname)
  | managed hrow _ _ _ haction =>
    refine valid_edit h fun x hx _ hp hvalid => ?_
    obtain rfl := Table.eq_of_key hx hrow (beq_iff_eq.mp hp)
    exact manageAction_valid haction hvalid
  | managedDelete => exact valid_edit_same h fun _ => ⟨rfl, rfl⟩
  | deleted =>
    intro u hu
    exact h u hu.1
  | selfDeleted => exact valid_edit_same h fun _ => ⟨rfl, rfl⟩
  | tokenGenerated => exact valid_edit_same h fun _ => ⟨rfl, rfl⟩
  | affCodeGiven => exact valid_edit_same h fun _ => ⟨rfl, rfl⟩
  | emailBound => exact valid_edit_same h fun _ => ⟨rfl, rfl⟩
  | bound hbinds =>
    refine valid_edit_same h fun _ => ?_
    cases hbinds <;> exact ⟨rfl, rfl⟩
  | passwordReset => exact valid_edit_same h fun _ => ⟨rfl, rfl⟩

theorem login_proper {sys : System} {a : Act} {path : LoginGate.LoginPath}
    (hreq : a.request = .login path)
    (hdiscord : ∀ req answer, path ≠ .discordOAuth req answer)
    (hoidc : ∀ req answer, path ≠ .oidcAuth req answer) : Proper sys a := by
  intro ctx _ name role hgives
  cases hgives with
  | registered hregisters =>
    rw [hreq] at hregisters
    cases hregisters with
    | gitHub => exact valid_prefixed (c := 'g') (by decide) rfl
    | discord => exact absurd rfl (hdiscord _ _)
    | oidc => exact absurd rfl (hoidc _ _)
    | linuxdo => exact valid_prefixed (c := 'l') (by decide) rfl
    | weChat => exact valid_prefixed (c := 'w') (by decide) rfl
  | root hother => exact nomatch hreq.symm.trans hother
  | created hother => exact nomatch hreq.symm.trans hother
  | edited hother => exact nomatch hreq.symm.trans hother
  | selfEdited hother => exact nomatch hreq.symm.trans hother

/-! ### Every run -/

/-- **A step that gives nothing but what is valid** keeps the accounts usable. -/
theorem usable_step {sys : System} {a : Act} (hproper : Proper sys a) (h : Usable sys.db) :
    Usable (step sys a).db := by
  rw [usable_iff] at h ⊢
  obtain ⟨c, hc, hcores⟩ := step_written sys a
  rw [hcores]
  rcases hc with rfl | ⟨hpasses, hpermits⟩ | ⟨hpasses, hreq, hsetup, hroot, -, password, -, hnew⟩
  · exact h
  · exact valid_permits (hproper _ hpasses) hpermits h
  · refine valid_create h ?_
    obtain ⟨k, rfl⟩ := hnew.columns
    exact hproper _ hpasses _ _ (.root hreq hsetup hroot)

/-- **In every run whose requests give nothing but what is valid, every live
account passes the check of its next request.** -/
theorem usable_of_proper (sys : System) (h : Usable sys.db) (acts : List Act)
    (hproper : Runs.Always (fun pre a => Proper (Runs.after step sys pre) a) acts) :
    Usable (Runs.after step sys acts).db := by
  refine Runs.run_induction (P := fun acts => Usable (Runs.after step sys acts).db) h ?_ acts
    hproper
  intro acts a _ hacts hproper
  rw [Runs.after_snoc]
  exact usable_step hproper hacts

/-! ### What an administrator and a stranger write -/

/-- Nobody has set up the system yet. -/
def unopened : System :=
  System.start false ⟨Table.empty, Table.empty, Table.empty, Table.empty⟩

def setUp : Act where
  request := .postSetup (some ⟨"root", "password", "password", false, false⟩)
  env := Env.plain
  ctx := { Ctx.plain 0 with randomString := "a" }

/-- Root creates an account of this name and role. -/
def hire (name : String) (role : Int) : Act where
  request := .createUser (some { username := name, password := "password", role := role })
  cookie := { username := some "root", id := some 1, role := some 100, status := some 1 }
  env := Env.plain
  ctx := { Ctx.plain 0 with randomString := "b" }

/-- Anybody registers under this name. -/
def signUp (name : String) : Act where
  request := .register (some { username := name, password := "password" })
  env := Env.plain
  ctx := { Ctx.plain 0 with randomString := "c" }

theorem usable_hire : Usable (Runs.after step unopened [setUp, hire "bob" 10]).db := by
  refine usable_of_proper unopened (fun u hu => nomatch hu) [setUp, hire "bob" 10] ?_
  have hsplit : [setUp, hire "bob" 10] = [] ++ [setUp] ++ [hire "bob" 10] := rfl
  rw [hsplit, Runs.always_snoc, Runs.always_snoc]
  refine ⟨⟨Runs.always_nil, ?_⟩, ?_⟩
  · intro ctx _ name role hgives
    cases hgives with
    | root hreq =>
      cases hreq
      decide
    | registered hregisters => cases hregisters
    | created hreq => cases hreq
    | edited hreq => cases hreq
    | selfEdited hreq => cases hreq
  · intro ctx _ name role hgives
    cases hgives with
    | created hreq =>
      cases hreq
      decide
    | registered hregisters => cases hregisters
    | root hreq => cases hreq
    | edited hreq => cases hreq
    | selfEdited hreq => cases hreq

/-- **An account of role 5, and one whose name is a space.** -/
theorem unusable_accounts :
    ¬ Usable (Runs.after step unopened [setUp, hire "bob" 5]).db ∧
      ¬ Usable (Runs.after step unopened [setUp, signUp " "]).db := by
  have hlocked : ∀ db : DB, ∀ name role,
      (name, role, true) ∈ db.users.rows.map (fun u => (u.username, u.role, u.live)) →
      validUserInfo name role = false → ¬ Usable db := by
    intro db name role hmem hinvalid h
    obtain ⟨row, hrow, he⟩ := List.mem_map.mp hmem
    simp only [Prod.mk.injEq] at he
    obtain ⟨rfl, rfl, hlive⟩ := he
    rw [h row hrow hlive] at hinvalid
    cases hinvalid
  refine ⟨hlocked _ "bob" 5 (by decide) (by decide), hlocked _ " " 1 (by decide) (by decide)⟩

end AuthGateway.UsableAccounts
