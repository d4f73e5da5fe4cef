import AuthGateway.Lib.Runs
import AuthGateway.Accounts

/-!
# Who has which role

Once the system is set up, a row has its role from before, or from one of four
sources: a promotion by root, a demotion by somebody above, a registration, or a
creation by an administrator below their own rank.

`role_origin` says so of one step, by the change the step makes.  **No run has
another source, and in none does a row come to role 100** (`no_escalation`).
-/

namespace AuthGateway.Privilege

open Common Model Controller Middleware Accounts

/-! ### The sources of a role -/

/-- The requests that register an account: `Register`, and the logins at a
provider. -/
def Registration : Request → Prop
  | .register _ | .login _ => True
  | _ => False

/-- Where a row of a step has its role from. -/
inductive Origin (sys : System) (a : Act) (row' : User) : Prop
  | kept {row : User} (hrow : row ∈ sys.db.users) (hid : row'.id = row.id)
      (hrole : row'.role = row.role)
  | promoted {row : User} {req : ManageRequest} {ctx : Ctx} (hrow : row ∈ sys.db.users)
      (hid : row'.id = row.id) (hreq : a.request = .manageUser (some req))
      (haction : req.action = "promote") (hctx : Granted a sys.db ctx)
      (hactor : ctx.role = roleRootUser) (hbelow : row.role < roleAdminUser)
      (hrole : row'.role = roleAdminUser)
  | demoted {row : User} {req : ManageRequest} {ctx : Ctx} (hrow : row ∈ sys.db.users)
      (hid : row'.id = row.id) (hreq : a.request = .manageUser (some req))
      (haction : req.action = "demote") (hctx : Granted a sys.db ctx)
      (hactor : row.role < ctx.role ∨ ctx.role = roleRootUser) (hrole : row'.role = roleCommonUser)
  | registered (hnew : ∀ x ∈ sys.db.users, x.id ≠ row'.id) (hreq : Registration a.request)
      (hrole : row'.role = roleCommonUser)
  | created {req : Option User} {ctx : Ctx} (hnew : ∀ x ∈ sys.db.users, x.id ≠ row'.id)
      (hreq : a.request = .createUser req) (hctx : Granted a sys.db ctx)
      (hrole : row'.role < ctx.role)

/-! ### New accounts -/

/-- Whoever registers is a common user: the role is set, or the default of the
table. -/
theorem Registers.role {env : Env} {ctx : Ctx} {s : Session} {codes : VerificationMap} {db : DB}
    {q : Request} {cleanUser row : User} (h : Registers env ctx s codes db q cleanUser)
    (hnew : New env ctx db cleanUser row) : row.role = roleCommonUser := by
  rw [New.role hnew]
  cases h <;> rfl

theorem Registers.registration {env : Env} {ctx : Ctx} {s : Session} {codes : VerificationMap}
    {db : DB} {q : Request} {cleanUser : User} (h : Registers env ctx s codes db q cleanUser) :
    Registration q := by
  cases h <;> exact True.intro

/-- The actor of an administrative request has one of the roles, and no lower
one than an administrator's. -/
theorem Granted.role {a : Act} {db : DB} {ctx : Ctx} {role : Int} (h : Granted a db ctx)
    (hrole : minRole a.request = some role) :
    role ≤ ctx.role ∧ isValidateRole ctx.role = true := by
  unfold Granted at h
  rw [hrole] at h
  obtain ⟨auth, hauth, rfl⟩ := h
  exact (authHelper_role role a.cookie a.authorization db).run auth (congrArg Prod.fst hauth)

/-! ### One step -/

theorem kept_of_edit {sys : System} {a : Act} {row' : User} {p : User → Bool} {g : User → User}
    (h : row'.core ∈ (Change.edit p g).cores sys.db)
    (hg : ∀ u, (g u).id = u.id ∧ (g u).role = u.role) : Origin sys a row' := by
  obtain ⟨row, hrow, he | ⟨-, -, he⟩⟩ := mem_cores_edit h
  · exact .kept hrow (User.core_id he) (User.core_role he)
  · exact .kept hrow ((User.core_id he).trans (hg row).1)
      ((User.core_role he).trans (hg row).2)

theorem origin_of_create {sys : System} {a : Act} {row row' : User}
    (hnew : ∀ u : User, u.id = row.id → u.role = row.role → Origin sys a u)
    (h : row'.core ∈ (Change.create row).cores sys.db) : Origin sys a row' := by
  rcases h with he | ⟨x, hx, he⟩
  · exact hnew row' (User.core_id he) (User.core_role he)
  · exact .kept hx (User.core_id he) (User.core_role he)

theorem origin_of_manage {sys : System} {a : Act} {row user row' : User} {req : ManageRequest}
    {ctx : Ctx} (hq : a.request = .manageUser (some req)) (hctx : Granted a sys.db ctx)
    (hrow : row ∈ sys.db.users) (hrank : outranked ctx.role row.role = false)
    (haction : manageAction ctx.role row req.action = .ok user)
    (h : row'.core ∈ (Change.editId row.id fun _ => user).cores sys.db) : Origin sys a row' := by
  obtain ⟨x, hx, he | ⟨-, hp, he⟩⟩ := mem_cores_edit h
  · exact .kept hx (User.core_id he) (User.core_role he)
  · obtain ⟨role, status, rfl, hrole, -, -⟩ := manageAction_ok haction
    have hid : row'.id = row.id := (User.core_id he).trans rfl
    have hrole' : row'.role = role := (User.core_role he).trans rfl
    rcases hrole with hsame | ⟨hpromote, hmine, hbelow, hadmin⟩ | ⟨hdemote, -, hcommon⟩
    · exact .kept hrow hid (hrole'.trans hsame)
    · exact .promoted hrow hid hq hpromote hctx hmine hbelow (hrole'.trans hadmin)
    · exact .demoted hrow hid hq hdemote hctx (AdminRank.outranks_of_not_outranked hrank)
        (hrole'.trans hcommon)

/-- **Where a row has its role from after a step** of a system that is set up. -/
theorem role_origin {sys : System} (hsetup : sys.setup = true) (a : Act) {row' : User}
    (hrow' : row' ∈ (step sys a).db.users) : Origin sys a row' := by
  obtain ⟨c, hc, hcores⟩ := step_changes sys a
  have hmem : row'.core ∈ c.cores sys.db := by
    rw [← hcores]
    exact mem_cores hrow'
  rcases hc with rfl | hc
  · obtain ⟨row, hrow, he⟩ := hmem
    exact .kept hrow (User.core_id he) (User.core_role he)
  · cases hc with
    | rootCreated _ hoff =>
      rw [hsetup] at hoff
      cases hoff
    | handled heffect =>
      obtain ⟨ctx, hctx, hpermits⟩ := heffect
      generalize hq : a.request = q at hpermits
      cases hpermits with
      | registered hregisters hnew =>
        refine origin_of_create (fun u hid hrole => ?_) hmem
        refine .registered ?_ (hq ▸ Registers.registration hregisters)
          (hrole.trans (Registers.role hregisters hnew))
        rw [hid]
        exact New.fresh hnew
      | created hbelow hnew =>
        have hadmin : minRole a.request = some roleAdminUser := by rw [hq]; rfl
        obtain ⟨hmin, -⟩ := Granted.role hctx hadmin
        -- the default of the table is below every administrator
        have hdefault : ∀ r : Int, r < ctx.role → (if r = 0 then 1 else r) < ctx.role := by
          intro r hr
          split
          · exact lt_of_lt_of_le (by decide) hmin
          · exact hr
        refine origin_of_create (fun u hid hrole => ?_) hmem
        refine .created ?_ hq hctx ?_
        · rw [hid]
          exact New.fresh hnew
        · rw [hrole, New.role hnew]
          exact hdefault _ hbelow
      | edited => exact kept_of_edit hmem fun _ => ⟨rfl, rfl⟩
      | selfEdited => exact kept_of_edit hmem fun _ => ⟨rfl, rfl⟩
      | managed hrow _ _ hrank haction _ => exact origin_of_manage hq hctx hrow hrank haction hmem
      | managedDelete => exact kept_of_edit hmem fun _ => ⟨rfl, rfl⟩
      | deleted =>
        obtain ⟨⟨row, hrow, he⟩, -⟩ := hmem
        exact .kept hrow (User.core_id he) (User.core_role he)
      | selfDeleted => exact kept_of_edit hmem fun _ => ⟨rfl, rfl⟩
      | tokenGenerated => exact kept_of_edit hmem fun _ => ⟨rfl, rfl⟩
      | affCodeGiven => exact kept_of_edit hmem fun _ => ⟨rfl, rfl⟩
      | emailBound => exact kept_of_edit hmem fun _ => ⟨rfl, rfl⟩
      | bound hbinds =>
        refine kept_of_edit hmem fun u => ⟨rfl, ?_⟩
        cases hbinds <;> rfl
      | passwordReset => exact kept_of_edit hmem fun _ => ⟨rfl, rfl⟩

/-! ### Every run -/

theorem le_root {role : Int} (h : isValidateRole role = true) : role ≤ roleRootUser := by
  unfold isValidateRole at h
  simp only [Bool.or_eq_true, beq_iff_eq] at h
  rcases h with ((h | h) | h) | h <;> rw [h] <;> decide

theorem Origin.root {sys : System} {a : Act} {row' : User} (h : Origin sys a row')
    (hroot : row'.role = roleRootUser) :
    ∃ row ∈ sys.db.users, row.id = row'.id ∧ row.role = roleRootUser := by
  cases h with
  | kept hrow hid hrole => exact ⟨_, hrow, hid.symm, hrole.symm.trans hroot⟩
  | promoted _ _ _ _ _ _ _ hrole => exact absurd (hrole.symm.trans hroot) (by decide)
  | demoted _ _ _ _ _ _ hrole => exact absurd (hrole.symm.trans hroot) (by decide)
  | registered _ _ hrole => exact absurd (hrole.symm.trans hroot) (by decide)
  | created _ hreq hctx hrole =>
    have hadmin : minRole a.request = some roleAdminUser := by rw [hreq]; rfl
    obtain ⟨-, hvalid⟩ := Granted.role hctx hadmin
    rw [hroot] at hrole
    exact absurd hrole (not_lt.mpr (le_root hvalid))

theorem setup_after {sys : System} (hsetup : sys.setup = true) (acts : List Act) :
    (Runs.after step sys acts).setup = true :=
  Runs.invariant (I := fun sys : System => sys.setup = true) hsetup (fun _ a h => step_setup h a) acts

/-- **No privilege escalation.**  In every run from a system that is set up, each
step leaves every row a role of a lawful origin, and whatever row has role 100
at the end had it at the start. -/
theorem no_escalation (sys : System) (hsetup : sys.setup = true) (acts : List Act) :
    (∀ a, ∀ row' ∈ (step (Runs.after step sys acts) a).db.users,
      Origin (Runs.after step sys acts) a row') ∧
    ∀ row' ∈ (Runs.after step sys acts).db.users, row'.role = roleRootUser →
      ∃ row ∈ sys.db.users, row.id = row'.id ∧ row.role = roleRootUser := by
  refine ⟨fun a row' hrow' => role_origin (setup_after hsetup acts) a hrow', ?_⟩
  induction acts using List.reverseRecOn with
  | nil => exact fun row' hrow' hroot => ⟨row', hrow', rfl, hroot⟩
  | append_singleton acts a ih =>
    intro row' hrow' hroot
    rw [Runs.after_snoc] at hrow'
    obtain ⟨row, hrow, hid, hrole⟩ := (role_origin (setup_after hsetup acts) a hrow').root hroot
    obtain ⟨x, hx, hxid, hxrole⟩ := ih row hrow hrole
    exact ⟨x, hx, hxid.trans hid, hxrole⟩

/-! ### A promotion -/

def company : System := System.start true
  { users := Table.pair { id := 1, username := "root", affCode := "a", role := 100, status := 1 }
      { id := 2, username := "bob", affCode := "b", role := 1, status := 1 } (by decide)
    twoFAs := Table.empty
    backupCodes := Table.empty
    passkeys := Table.empty }

/-- Root makes Bob an administrator. -/
def promoteBob : Act where
  request := .manageUser (some ⟨2, "promote"⟩)
  cookie := { username := some "root", id := some 1, role := some 100, status := some 1 }
  env := Env.plain
  ctx := Ctx.plain 0

theorem no_escalation_company :
    (∀ a, ∀ row' ∈ (step (Runs.after step company [promoteBob]) a).db.users,
      Origin (Runs.after step company [promoteBob]) a row') ∧
    ∀ row' ∈ (Runs.after step company [promoteBob]).db.users, row'.role = roleRootUser →
      ∃ row ∈ company.db.users, row.id = row'.id ∧ row.role = roleRootUser :=
  no_escalation company rfl [promoteBob]

example : (Runs.after step company [promoteBob]).db.users.rows.map User.role = [100, 10] := by
  decide

end AuthGateway.Privilege
