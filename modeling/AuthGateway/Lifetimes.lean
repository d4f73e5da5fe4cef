import AuthGateway.RootAccount

/-!
# The setup over the life of a database

A process that starts looks into `setups`, and where it sees no row there it looks
for a root.  `PostSetup` marks its process as set up before it writes that row, so
the row may be missing from a system that is set up.

Here the processes of one database follow each other: an event is a request to the
process of the time, or a restart.  Statements on `setups` and `options` may fail
at any time, those on the accounts are answered.  **The first setup that goes
through makes the one root there ever is, and no restart takes the setup back**
(`one_root_ever`).
-/

namespace AuthGateway.Lifetimes

open Common Model Controller Accounts Privilege RootAccount

/-! ### Processes of one database -/

/-- The process of the time, and whether `setups` has a row. -/
structure Installation where
  system : System
  setups : Bool

/-- How a new process finds the database: whether its two statements on `setups`
are answered, and the statements that it makes later. -/
structure Boot where
  first : Option Err := none
  create : Option Err := none
  outages : Nat → Option Err := fun _ => none

/-- `GetSetup() != nil`: an error passes for a table without a row. -/
def getSetup (b : Boot) (setups : Bool) : Bool := b.first.isNone && setups

/-- `CheckSetup`: what `constant.Setup` is, and whether `setups` has a row. -/
def checkSetup (b : Boot) (setups : Bool) (db : DB) : Bool × Bool :=
  if getSetup b setups then (true, setups)
  else if (rootUserExists.run exec db).1 then (true, setups || b.create.isNone)
  else (false, setups)

/-- A new process: `CheckSetup`, then `InitOptionMap`. -/
def restart (b : Boot) (i : Installation) : Installation where
  system :=
    { process := initOptionMap ⟨Settings.default, ⟨i.system.process.options.table, b.outages⟩⟩
      setup := (checkSetup b i.setups i.system.db).1
      db := (rootUserExists.run exec i.system.db).2
      codes := {} }
  setups := (checkSetup b i.setups i.system.db).2

def succeeded : Reply → Bool
  | .json _ success _ _ => success
  | _ => false

/-- Whether the request writes a row of `setups`, which is what `PostSetup` answers. -/
def records (sys : System) (a : Act) : Bool :=
  match a.request with
  | .postSetup req =>
    succeeded (postSetup a.ctx req ⟨sys.process, sys.setup, Store.ofDB sys.db⟩).1
  | _ => false

inductive Event
  | request (a : Act)
  | restart (b : Boot)

def live (i : Installation) : Event → Installation
  | .request a => ⟨step i.system a, i.setups || records i.system a⟩
  | .restart b => restart b i

/-! ### Before and after the setup -/

/-- Nobody has set up the system, and no row has the role of root, deleted or not. -/
structure Unopened (i : Installation) : Prop where
  setup : i.system.setup = false
  setups : i.setups = false
  roles : ∀ row ∈ i.system.db.users, row.role ≠ roleRootUser

/-- **The system is set up, and `r` is its root**: a usable account, and the only
row of that role. -/
structure Owned (r : Int) (i : Installation) : Prop where
  setup : i.system.setup = true
  root : RootAt r i.system.db
  only : ∀ row ∈ i.system.db.users, row.role = roleRootUser → row.id = r

/-- The request that opens the system, and the account it creates. -/
def Opens (sys : System) (a : Act) (row : User) : Prop :=
  ∃ req, a.request = .postSetup (some req) ∧ CreatesRoot a.ctx req sys.db row

variable {i : Installation} {r : Int}

theorem Unopened.no_root (h : Unopened i) : ¬ HasRoot i.system.db := by
  rintro ⟨row, hrow, -, hrole⟩
  exact h.roles row hrow hrole

theorem Owned.hasRoot (h : Owned r i) : HasRoot i.system.db := by
  obtain ⟨row, hrow, -, hlive, -, hrole⟩ := h.root
  exact ⟨row, hrow, hlive, hrole⟩

/-! ### A restart -/

theorem run_rootUserExists (db : DB) :
    (rootUserExists.run exec db).2 = db ∧ ((rootUserExists.run exec db).1 = true ↔ HasRoot db) :=
  rootUserExists_ends db

/-- A process finds the setup done if there is a root, whatever `setups` answers. -/
theorem checkSetup_of_root (b : Boot) (setups : Bool) {db : DB} (h : HasRoot db) :
    (checkSetup b setups db).1 = true := by
  unfold checkSetup
  split
  · rfl
  · rw [if_pos ((run_rootUserExists db).2.mpr h)]

theorem checkSetup_of_none (b : Boot) {db : DB} (h : ¬ HasRoot db) :
    checkSetup b false db = (false, false) := by
  have hseen : ¬ getSetup b false = true := by simp [getSetup]
  have hroot : ¬ (rootUserExists.run exec db).1 = true := fun hr =>
    h ((run_rootUserExists db).2.mp hr)
  unfold checkSetup
  rw [if_neg hseen, if_neg hroot]

theorem unopened_restart (h : Unopened i) (b : Boot) : Unopened (restart b i) := by
  have hcheck : checkSetup b i.setups i.system.db = (false, false) := by
    rw [h.setups]
    exact checkSetup_of_none b h.no_root
  refine ⟨congrArg Prod.fst hcheck, congrArg Prod.snd hcheck, ?_⟩
  show ∀ row ∈ (rootUserExists.run exec i.system.db).2.users, row.role ≠ roleRootUser
  rw [(run_rootUserExists i.system.db).1]
  exact h.roles

theorem owned_restart (h : Owned r i) (b : Boot) : Owned r (restart b i) := by
  have hdb : (restart b i).system.db = i.system.db := (run_rootUserExists i.system.db).1
  refine ⟨checkSetup_of_root b i.setups h.hasRoot, ?_, ?_⟩
  · rw [hdb]
    exact h.root
  · rw [hdb]
    exact h.only

/-! ### A request to a system that is set up -/

theorem owned_request (h : Owned r i) (a : Act) : Owned r (live i (.request a)) := by
  have hseen : ¬ Blind i.system ⟨a, fun _ => none⟩ r := by
    rintro ⟨ctx, st, e, ⟨role, auth, -, hserve, -⟩, hdown, -⟩
    have hst : st = Store.ofDB _ :=
      congrArg Prod.snd (hserve.symm.trans (serve_ofDB _ i.system.db))
    rw [hst] at hdown
    cases hdown
  have hroot := root_step (c := ⟨a, fun _ => none⟩) h.root hseen
  rw [serveStep_up] at hroot
  refine ⟨step_setup h.setup a, hroot, fun row' hrow' hrole => ?_⟩
  obtain ⟨row, hrow, hid, hrole'⟩ := (role_origin h.setup a hrow').root hrole
  exact hid.symm.trans (h.only row hrow hrole')

theorem owned_live (h : Owned r i) (e : Event) : Owned r (live i e) := by
  cases e with
  | request a => exact owned_request h a
  | restart b => exact owned_restart h b

/-! ### A request to a system that is not set up -/

/-- The handler of a setup in full: refused, or the one root is created. -/
theorem postSetup_unopened (ctx : Ctx) (req : Option SetupRequest) (p : Process) {db : DB}
    (hroot : ¬ HasRoot db) :
    let result := postSetup ctx req ⟨p, false, Store.ofDB db⟩
    (result.2.setup = false ∧ succeeded result.1 = false ∧ result.2.accounts.db = db) ∨
      (result.2.setup = true ∧ ∃ q row, req = some q ∧ CreatesRoot ctx q db row ∧
        cores result.2.accounts.db = (Change.create row).cores db) := by
  obtain ⟨hdb, hiff⟩ := run_rootUserExists db
  have hnone : ¬ (rootUserExists.run exec db).1 = true := fun h => hroot (hiff.mp h)
  unfold postSetup
  rw [if_neg Bool.false_ne_true, serve_ofDB]
  cases req with
  | none => exact Or.inl ⟨rfl, rfl, hdb⟩
  | some req =>
    dsimp only
    rw [if_neg hnone, serve_ofDB, hdb]
    rcases createRoot_ends ctx req db with ⟨hr, hsame⟩ | ⟨hr, row, hnew, hcores⟩
    · cases hrefusal : ((createRoot ctx req).run exec db).1 with
      | none => exact absurd hrefusal hr
      | some msg => exact Or.inl ⟨rfl, rfl, hsame⟩
    · rw [hr]
      dsimp only
      obtain ⟨haccounts, hsetup⟩ := finishSetup_accounts req
        ⟨p, false, Store.ofDB ((createRoot ctx req).run exec db).2⟩
      refine Or.inr ⟨hsetup, req, row, rfl, hnew, ?_⟩
      rw [haccounts]
      exact hcores

/-- No other request sees whether the system is set up. -/
theorem step_setup_irrelevant (sys : System) (b : Bool) {a : Act}
    (h : ∀ req, a.request ≠ .postSetup req) :
    step { sys with setup := b } a = { step sys a with setup := b } := by
  unfold step
  cases hreq : a.request with
  | postSetup req => exact absurd hreq (h req)
  | _ => rfl

theorem unopened_other (h : Unopened i) {a : Act} (ha : ∀ req, a.request ≠ .postSetup req) :
    Unopened (live i (.request a)) := by
  have hsame := step_setup_irrelevant i.system i.system.setup ha
  refine ⟨(congrArg System.setup hsame).trans h.setup, ?_, fun row' hrow' hrole => ?_⟩
  · show (i.setups || records i.system a) = false
    rw [h.setups, Bool.false_or]
    unfold records
    cases hreq : a.request with
    | postSetup req => exact absurd hreq (ha req)
    | _ => rfl
  · have hopened : row' ∈ (step { i.system with setup := true } a).db.users := by
      rw [step_setup_irrelevant i.system true ha]
      exact hrow'
    obtain ⟨row, hrow, -, hrole'⟩ := (role_origin rfl a hopened).root hrole
    exact h.roles row hrow hrole'

/-- The new root is the only one. -/
theorem owned_of_created (h : Unopened i) {ctx : Ctx} {req : SetupRequest} {row : User}
    {j : Installation} (hnew : CreatesRoot ctx req i.system.db row) (hsetup : j.system.setup = true)
    (hcores : cores j.system.db = (Change.create row).cores i.system.db) : Owned row.id j := by
  obtain ⟨-, password, -, hrow⟩ := hnew
  refine ⟨hsetup, ?_, fun row' hrow' hrole => ?_⟩
  · rw [rootAt_iff, hcores]
    refine ⟨row.core, Or.inl rfl, rfl, ?_⟩
    obtain ⟨k, rfl⟩ := hrow.columns
    exact ⟨rfl, rfl, rfl⟩
  · have hmem := mem_cores hrow'
    rw [hcores] at hmem
    rcases hmem with he | ⟨x, hx, he⟩
    · exact User.core_id he
    · exact absurd ((User.core_role he).symm.trans hrole) (h.roles x hx)

/-- **A request leaves the system as it was, or opens it.** -/
theorem unopened_request (h : Unopened i) (a : Act) :
    Unopened (live i (.request a)) ∨
      ∃ row, Opens i.system a row ∧ Owned row.id (live i (.request a)) := by
  by_cases ha : ∀ req, a.request ≠ .postSetup req
  · exact Or.inl (unopened_other h ha)
  obtain ⟨req, hreq⟩ : ∃ req, a.request = .postSetup req := by simpa using ha
  have hstep : step i.system a =
      let g := (postSetup a.ctx req ⟨i.system.process, false, Store.ofDB i.system.db⟩).2
      { i.system with process := g.process, setup := g.setup, db := g.accounts.db } := by
    unfold step
    rw [hreq, ← h.setup]
  rcases postSetup_unopened a.ctx req i.system.process h.no_root with
    ⟨hsetup, hreply, hdb⟩ | ⟨hsetup, q, row, rfl, hnew, hcores⟩
  · refine Or.inl ⟨?_, ?_, ?_⟩
    · show (step i.system a).setup = false
      rw [hstep]
      exact hsetup
    · show (i.setups || records i.system a) = false
      unfold records
      rw [hreq, h.setups, h.setup]
      exact hreply
    · show ∀ row ∈ (step i.system a).db.users, row.role ≠ roleRootUser
      rw [hstep]
      dsimp only
      rw [hdb]
      exact h.roles
  · refine Or.inr ⟨row, ⟨q, hreq, hnew⟩, owned_of_created h hnew ?_ ?_⟩
    · show (step i.system a).setup = true
      rw [hstep]
      exact hsetup
    · show cores (step i.system a).db = _
      rw [hstep]
      exact hcores

/-! ### Every life -/

theorem owned_stays (h : Owned r i) (events : List Event) :
    Owned r (Runs.after live i events) :=
  Runs.invariant (I := Owned r) h (fun _ e hi => owned_live hi e) events

theorem after_append (i : Installation) (events more : List Event) :
    Runs.after live i (events ++ more) = Runs.after live (Runs.after live i events) more :=
  List.foldl_append

/-- **One root, once and for all.**  A database without a root stays without one
until some `PostSetup` creates it; from that request on, over all requests and
restarts, the system is set up, that account is a usable root, and no other row
has its role. -/
theorem one_root_ever (i : Installation) (h : Unopened i) (events : List Event) :
    Unopened (Runs.after live i events) ∨
      ∃ pre a row post, events = pre ++ .request a :: post ∧ Unopened (Runs.after live i pre) ∧
        Opens (Runs.after live i pre).system a row ∧
        ∀ more, Owned row.id (Runs.after live i (pre ++ .request a :: more)) := by
  induction events using List.reverseRecOn with
  | nil => exact Or.inl h
  | append_singleton events e ih =>
    rcases ih with hclosed | ⟨pre, a, row, post, rfl, hclosed, hopens, howned⟩
    · rw [Runs.after_snoc]
      cases e with
      | restart b => exact Or.inl (unopened_restart hclosed b)
      | request a =>
        rcases unopened_request hclosed a with hstill | ⟨row, hopens, howned⟩
        · exact Or.inl hstill
        · refine Or.inr ⟨events, a, row, [], rfl, hclosed, hopens, fun more => ?_⟩
          rw [after_append]
          exact owned_stays howned more
    · refine Or.inr ⟨pre, a, row, post ++ [e], ?_, hclosed, hopens, howned⟩
      rw [List.append_assoc, List.cons_append]

/-! ### An installation -/

/-- A process on an empty database. -/
def fresh : Installation :=
  ⟨System.start false ⟨Table.empty, Table.empty, Table.empty, Table.empty⟩, false⟩

def openUp : Act where
  request := .postSetup (some ⟨"root", "password", "password", false, false⟩)
  env := Env.plain
  ctx := { Ctx.plain 0 with randomString := "a" }

/-- No statement on `setups` and `options` is answered. -/
def unread : Boot := ⟨some lockedDatabase, some lockedDatabase, fun _ => some lockedDatabase⟩

/-- A setup whose row is lost, a restart that sees none, and a setup that is
refused. -/
def years : List Event :=
  [.restart unread, .request openUp, .restart unread, .request openUp]

theorem one_root_of_years :
    Unopened (Runs.after live fresh years) ∨
      ∃ pre a row post, years = pre ++ .request a :: post ∧ Unopened (Runs.after live fresh pre) ∧
        Opens (Runs.after live fresh pre).system a row ∧
        ∀ more, Owned row.id (Runs.after live fresh (pre ++ .request a :: more)) :=
  one_root_ever fresh ⟨rfl, rfl, fun row hrow => by cases hrow⟩ years

example : (Runs.after live fresh years).system.setup = true := by decide

end AuthGateway.Lifetimes
