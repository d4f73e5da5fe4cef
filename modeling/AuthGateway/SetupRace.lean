import AuthGateway.Lib.Threads
import AuthGateway.Accounts

/-!
# Setups side by side

`PostSetup` has no authentication, looks whether there is a root, and creates one
if there is none.  Nothing holds the table between the look and the creation, and
no index is on the role.

`postSetup` is the handler step by step; alone it is the one of
`controller/setup.go` (`postSetup_alone`).  **From an empty table no schedule
makes two accounts of role 100** (`one_root`): a root is created without an
invitation code, the codes have a unique index, and the empty one is taken by the
first.
-/

namespace AuthGateway.SetupRace

open Common Model Controller Prog

/-! ### The handler, step by step -/

inductive SetupOp
  | readSetup
  | database (o : DBOp)
  /-- The two variables of `operation_setting`. -/
  | setModes (selfUse demoSite : Bool)
  | updateOption (key value : String)
  | markSetup
  /-- `DB.Create(&setup)`. -/
  | createSetup

abbrev SetupOp.Ans : SetupOp → Type
  | readSetup => Bool
  | database o => Except Err o.Ans
  | createSetup => Except Err Unit
  | _ => Unit

/-- The driver may fail any statement. -/
def setupExec : (o : SetupOp) → Gateway → o.Ans × Gateway
  | .readSetup, g => (g.setup, g)
  | .database o, g =>
    ((g.accounts.exec (fun _ => true) o).1,
      { g with accounts := (g.accounts.exec (fun _ => true) o).2 })
  | .setModes selfUse demoSite, g =>
    ((), { g with process := { g.process with settings := { g.process.settings with
      selfUseModeEnabled := selfUse, demoSiteEnabled := demoSite } } })
  | .updateOption key value, g =>
    ((), { g with process := Model.updateOption key value g.process })
  | .markSetup, g => ((), { g with setup := true })
  | .createSetup, g =>
    ((OptionStore.exec .setupCreate g.process.options).1,
      { g with process := ⟨g.process.settings,
        (OptionStore.exec .setupCreate g.process.options).2⟩ })

abbrev SetupM : Type → Type := Prog SetupOp SetupOp.Ans

def setup (o : SetupOp) : SetupM o.Ans := Prog.perform o

/-- A program of the database alone. -/
def onDatabase {α : Type} (p : M α) : SetupM α := p.embed SetupOp.database fun _ r => r

/-- Store the modes and mark the system as set up. -/
def finishSetup (req : SetupRequest) : SetupM Reply := do
  setup (.setModes req.selfUseModeEnabled req.demoSiteEnabled)
  setup (.updateOption "SelfUseModeEnabled" (boolToString req.selfUseModeEnabled))
  setup (.updateOption "DemoSiteEnabled" (boolToString req.demoSiteEnabled))
  setup .markSetup
  match ← setup .createSetup with
  | .error e => return .failure ("系统初始化失败: " ++ e.error)
  | .ok _ => return .done "系统初始化成功"

def postSetup (ctx : Ctx) (req : Option SetupRequest) : SetupM Reply := do
  if ← setup .readSetup then return .failure "系统已经初始化完成"
  let rootExists ← onDatabase rootUserExists
  match req with
  | none => return .failure "请求参数有误"
  | some req =>
    if rootExists then finishSetup req
    else
      match ← onDatabase (createRoot ctx req) with
      | some msg => return .failure msg
      | none => finishSetup req

/-! ### Alone -/

theorem run_onDatabase {α : Type} (p : M α) (g : Gateway) :
    (onDatabase p).run setupExec g
      = ((serve p g.accounts).1, { g with accounts := (serve p g.accounts).2 }) := by
  induction p generalizing g with
  | ret a => rfl
  | call o k ih => exact ih _ _

theorem finishSetup_alone (req : SetupRequest) (g : Gateway) :
    (finishSetup req).run setupExec g = Controller.finishSetup req g := by
  have hcreate : ∀ s : OptionStore,
      (performOption .setupCreate).run OptionStore.exec s = OptionStore.exec .setupCreate s :=
    fun _ => rfl
  unfold finishSetup Controller.finishSetup
  simp only [setup, run_bind, run_perform, setupExec, hcreate, storeModes]
  generalize OptionStore.exec .setupCreate _ = created
  obtain ⟨r, options⟩ := created
  cases r with
  | error e => rfl
  | ok a => rfl

/-- **A request that runs alone** is the handler of the model. -/
theorem postSetup_alone (ctx : Ctx) (req : Option SetupRequest) (g : Gateway) :
    (postSetup ctx req).run setupExec g = Controller.postSetup ctx req g := by
  obtain ⟨process, isSetup, accounts⟩ := g
  unfold postSetup Controller.postSetup
  rw [run_bind]
  show Prog.run setupExec (if isSetup then _ else _) ⟨process, isSetup, accounts⟩ = _
  cases isSetup with
  | true => rfl
  | false =>
    rw [if_neg Bool.false_ne_true, if_neg Bool.false_ne_true, run_bind, run_onDatabase]
    cases req with
    | none => rfl
    | some req =>
      dsimp only
      cases (serve rootUserExists accounts).1 with
      | true =>
        rw [if_pos rfl, if_pos rfl]
        exact finishSetup_alone req _
      | false =>
        rw [if_neg Bool.false_ne_true, if_neg Bool.false_ne_true, run_bind, run_onDatabase]
        dsimp only
        cases (serve (createRoot ctx req) (serve rootUserExists accounts).2).1 with
        | some msg => rfl
        | none => exact finishSetup_alone req _

/-! ### Side by side -/

/-- What a request does to the rows: it may add a root. -/
def Adds : SetupOp → Prop
  | .database o => o.writesUsers = false ∨ ∃ req password, o = .userCreate (rootUser req password)
  | _ => True

theorem finishSetup_adds (req : SetupRequest) : Only Adds (finishSetup req) := by
  unfold finishSetup
  refine Only.perform_bind trivial fun _ => ?_
  refine Only.perform_bind trivial fun _ => ?_
  refine Only.perform_bind trivial fun _ => ?_
  refine Only.perform_bind trivial fun _ => ?_
  refine Only.perform_bind trivial fun a => ?_
  cases a with
  | error e => exact Only.pure
  | ok a => exact Only.pure

theorem createRoot_adds (ctx : Ctx) (req : SetupRequest) :
    Only Adds (onDatabase (createRoot ctx req)) := by
  unfold createRoot
  split
  · exact Only.pure
  split
  · exact Only.pure
  split
  · exact Only.pure
  cases ctx.password2Hash req.password with
  | error e => exact Only.pure
  | ok password =>
    refine Only.perform_bind (Or.inr ⟨req, password, rfl⟩) fun a => ?_
    cases a with
    | error e => exact Only.pure
    | ok row => exact Only.pure

theorem postSetup_adds (ctx : Ctx) (req : Option SetupRequest) :
    Only Adds (postSetup ctx req) := by
  have hlook : Only Adds (onDatabase rootUserExists) := by
    refine Only.perform_bind (Or.inl rfl) fun a => ?_
    cases a with
    | error e => exact Only.pure
    | ok row => exact Only.pure
  unfold postSetup
  refine Only.perform_bind trivial fun isSetup => ?_
  split
  · exact Only.pure
  refine hlook.bind fun rootExists => ?_
  cases req with
  | none => exact Only.pure
  | some req =>
    dsimp only
    split
    · exact finishSetup_adds req
    refine (createRoot_adds ctx req).bind fun refusal => ?_
    cases refusal with
    | some msg => exact Only.pure
    | none => exact finishSetup_adds req

/-- Nobody has an invitation code. -/
def Uncoded (db : DB) : Prop := ∀ row ∈ db.users, row.affCode = ""

theorem uncoded_exec {o : DBOp}
    (ho : o.writesUsers = false ∨ ∃ req password, o = .userCreate (rootUser req password)) {db : DB}
    (h : Uncoded db) : Uncoded (exec o db).2 := by
  rcases ho with hspares | ⟨req, password, rfl⟩
  · unfold Uncoded
    rw [exec_users hspares]
    exact h
  · simp only [exec]
    cases hcreate : db.users.create (rootUser req password).withDefaults with
    | none => exact h
    | some created =>
      obtain ⟨row, t⟩ := created
      intro x hx
      rcases (Table.mem_create hcreate).mp hx with rfl | hold
      · rcases Table.eq_of_create hcreate with he | he
        · rw [he]
          rfl
        · rw [he]
          rfl
      · exact h x hold

/-- A step adds no row with a code. -/
theorem uncoded_step (o : SetupOp) (g : Gateway) (ho : Adds o) (h : Uncoded g.accounts.db) :
    Uncoded (setupExec o g).2.accounts.db := by
  cases o with
  | database o =>
    show Uncoded (g.accounts.exec (fun _ => true) o).2.db
    rcases may_storeExec (fun _ => true) o g.accounts with ⟨-, hdb⟩ | ⟨-, hdb⟩
    · rw [hdb]
      exact uncoded_exec ho h
    · rw [hdb]
      exact h
  | _ => exact h

/-- Two rows without a code are one. -/
theorem Uncoded.one {db : DB} (h : Uncoded db) {u v : User} (hu : u ∈ db.users)
    (hv : v ∈ db.users) : u = v := by
  rcases Table.eq_or_apart hu hv with he | ⟨-, hclash⟩
  · exact he
  · have hsame : u.clash v = true := by
      simp [User.clash, h u hu, h v hv]
    rw [show u.clash v = false from hclash] at hsame
    cases hsame

/-- **No two accounts have role 100**, deleted ones included. -/
def OneRoot (db : DB) : Prop :=
  ∀ u ∈ db.users, ∀ v ∈ db.users, u.role = roleRootUser → v.role = roleRootUser → u = v

variable {ι : Type}

/-- The requests before their first step. -/
def start (acts : ι → Ctx × Option SetupRequest) (g : Gateway) :
    Prog.Config SetupOp SetupOp.Ans Reply Gateway ι :=
  ⟨fun i => postSetup (acts i).1 (acts i).2, g⟩

/-- **From an empty table no schedule of setups makes two accounts of role 100**,
whichever statements fail on the way. -/
theorem one_root [DecidableEq ι] (acts : ι → Ctx × Option SetupRequest) (g : Gateway)
    (hempty : g.accounts.db.users.rows = []) (sched : List ι) :
    OneRoot (play setupExec (start acts g) sched).store.accounts.db := by
  have hstart : Uncoded g.accounts.db := by
    intro row hrow
    rw [Table.mem_def, hempty] at hrow
    cases hrow
  have hadds : ∀ i, Only Adds ((start acts g).threads i) :=
    fun i => postSetup_adds (acts i).1 (acts i).2
  have huncoded : Uncoded (play setupExec (start acts g) sched).store.accounts.db :=
    play_invariant (I := fun g : Gateway => Uncoded g.accounts.db) uncoded_step hadds hstart sched
  intro u hu v hv _ _
  exact huncoded.one hu hv

/-! ### Two strangers -/

def unopened : Gateway := ⟨⟨Settings.default, ⟨∅, fun _ => none⟩⟩, false,
  Store.ofDB ⟨Table.empty, Table.empty, Table.empty, Table.empty⟩⟩

/-- Alice and Bob set the system up, each for itself. -/
def strangers (isAlice : Bool) : Ctx × Option SetupRequest :=
  (Ctx.plain 0, some ⟨if isAlice then "alice" else "bob", "password", "password", false, false⟩)

/-- Both look before either creates. -/
theorem one_root_strangers : OneRoot
    (play setupExec (start strangers unopened)
      [true, true, false, false, true, false]).store.accounts.db :=
  one_root strangers unopened rfl [true, true, false, false, true, false]

example : (play setupExec (start strangers unopened)
    [true, true, false, false, true, false]).store.accounts.db.users.rows.map User.username
      = ["alice"] := by decide

end AuthGateway.SetupRace
