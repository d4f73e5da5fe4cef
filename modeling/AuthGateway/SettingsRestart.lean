import AuthGateway.Controller.Option
import AuthGateway.Controller.Setup
import AuthGateway.Lib.Runs

/-!
# Settings over a restart

A process writes a setting to its memory and to the table, and one that starts
again has what the table says: `Reproduced`.  `PostSetup` sets two variables that
no row brings back, `UpdateOption` drops what its statements report, and an empty
key is the key of no row.  **In a run of requests that succeed, over a table in
order, with non-empty keys and without the two modes, a restart reproduces every
state** (`reproduced_of_durable`).
-/

namespace AuthGateway.SettingsRestart

open Common Model Controller Replay

/-! ### The system -/

inductive Request
  | postSetup (ctx : Ctx) (req : Option SetupRequest)
  | updateOption (req : Option OptionUpdateRequest)

/-- A request, and how the driver fares meanwhile. -/
structure Act where
  request : Request
  outages : Nat → Option Err := fun _ => none

def handle (request : Request) (g : Gateway) : Reply × Gateway :=
  match request with
  | .postSetup ctx req => postSetup ctx req g
  | .updateOption req =>
    ((Controller.updateOption req g.process).1,
      { g with process := (Controller.updateOption req g.process).2 })

/-- The gateway with the driver as it fares during a request. -/
def during (outages : Nat → Option Err) (g : Gateway) : Gateway :=
  { g with process := ⟨g.process.settings, ⟨g.process.options.table, outages⟩⟩ }

def respond (g : Gateway) (a : Act) : Reply × Gateway := handle a.request (during a.outages g)

def step (g : Gateway) (a : Act) : Gateway := (respond g a).2

/-- A gateway that has just started on a table. -/
def start (table : OptionTable) (setup : Bool) (accounts : Store) : Gateway :=
  ⟨initOptionMap ⟨Settings.default, ⟨table, fun _ => none⟩⟩, setup, accounts⟩

/-! ### The property and the condition -/

/-- **A restart reproduces the settings**, whatever the order of the rows. -/
def Reproduced (g : Gateway) : Prop :=
  ∀ rows, rows.Perm g.process.options.table.entries → restarted rows = g.process.settings

def Succeeds (g : Gateway) (a : Act) : Prop :=
  ∃ status message data, (respond g a).1 = .json status true message data

/-- The driver works, a key is not empty, and no mode is asked for. -/
structure Durable (a : Act) : Prop where
  up : ∀ n, a.outages n = none
  key : ∀ option, a.request = .updateOption (some option) → option.key ≠ ""
  modes : ∀ ctx r, a.request = .postSetup ctx (some r) →
    r.selfUseModeEnabled = false ∧ r.demoSiteEnabled = false

/-! ### One step -/

/-- The settings are those of a process that starts on the table. -/
def Followed (p : Process) : Prop := p.settings = restarted p.options.table.entries

theorem followed_updateOption {p : Process} (h : Followed p) (hup : p.options.Up) {key : String}
    (hkey : key ≠ "") (value : String) :
    Followed (Model.updateOption key value p) ∧ (Model.updateOption key value p).options.Up := by
  obtain ⟨-, htable, hup'⟩ := OptionStore.run_up (storeOption key value) hup
  refine ⟨?_, hup'⟩
  unfold Followed Model.updateOption
  dsimp only
  rw [htable, run_storeOption hkey, restarted_insert, ← h]

/-- The modes of a process that starts are off. -/
theorem restarted_modes (rows : List (Σ _ : String, String)) :
    (restarted rows).selfUseModeEnabled = false ∧ (restarted rows).demoSiteEnabled = false := by
  have hkeep : ∀ r ∈ rows, ∀ s : Settings,
      s.selfUseModeEnabled = false ∧ s.demoSiteEnabled = false →
        (updateOptionMap r.1 r.2 s).selfUseModeEnabled = false ∧
          (updateOptionMap r.1 r.2 s).demoSiteEnabled = false := by
    intro r _ s hs
    rw [(updateOptionMap_modes _ _ _).1, (updateOptionMap_modes _ _ _).2]
    exact hs
  exact replay_keeps rows hkeep ⟨rfl, rfl⟩

theorem followed_finishSetup {r : SetupRequest}
    (hmodes : r.selfUseModeEnabled = false ∧ r.demoSiteEnabled = false) {g : Gateway}
    (h : Followed g.process) (hup : g.process.options.Up) :
    Followed (finishSetup r g).2.process := by
  have hoff : (g.process.settings).selfUseModeEnabled = false ∧
      (g.process.settings).demoSiteEnabled = false := by
    rw [h]
    exact restarted_modes _
  have hsame : { g.process.settings with
      selfUseModeEnabled := r.selfUseModeEnabled
      demoSiteEnabled := r.demoSiteEnabled } = g.process.settings := by
    rw [hmodes.1, hmodes.2]
    ext1 <;> first | rfl | exact hoff.1.symm | exact hoff.2.symm
  have hmode : Followed (storeModes r g.process) ∧ (storeModes r g.process).options.Up := by
    unfold storeModes
    rw [hsame]
    have hkey : "SelfUseModeEnabled" ≠ "" := by decide
    obtain ⟨h₁, hup₁⟩ := followed_updateOption h hup hkey (boolToString r.selfUseModeEnabled)
    exact followed_updateOption h₁ hup₁ (by decide) _
  obtain ⟨hfollowed, hup'⟩ := hmode
  have hexec : (storeModes r g.process).options.exec .setupCreate
      = (.ok (), ⟨(storeModes r g.process).options.table,
          fun n => (storeModes r g.process).options.outages (n + 1)⟩) := by
    unfold OptionStore.exec
    rw [hup' 0]
    rfl
  unfold finishSetup
  dsimp only
  rw [performOption, Prog.run_perform, hexec]
  exact hfollowed

theorem followed_step {g : Gateway} {a : Act} (h : Followed g.process) (hdone : Succeeds g a)
    (hdurable : Durable a) : Followed (step g a).process := by
  have hup : (during a.outages g).process.options.Up := hdurable.up
  unfold step respond handle
  cases hrequest : a.request with
  | postSetup ctx req =>
    obtain ⟨status, message, data, hreply⟩ := hdone
    unfold respond handle at hreply
    rw [hrequest] at hreply
    obtain ⟨r, accounts, rfl, hfinish⟩ := postSetup_done hreply
    dsimp only
    rw [hfinish]
    exact followed_finishSetup (hdurable.modes ctx r hrequest) h hup
  | updateOption req =>
    dsimp only
    unfold Controller.updateOption
    cases req with
    | none => exact h
    | some option =>
      dsimp only
      split
      · exact h
      · exact (followed_updateOption (p := (during a.outages g).process) h hup
          (hdurable.key option hrequest) _).1

theorem Followed.reproduced {g : Gateway} (h : Followed g.process) : Reproduced g := by
  intro rows hperm
  have hnodup := (List.perm_nodupKeys hperm).mpr g.process.options.table.nodupKeys
  rw [h]
  exact replay_perm overwrites hnodup hperm _

/-! ### Runs -/

/-- **A restart reproduces every state of a run whose requests succeed and are
durable.** -/
theorem reproduced_of_durable (table : OptionTable) (setup : Bool) (accounts : Store)
    (acts : List Act)
    (hdone : Runs.Always
      (fun pre a => Succeeds (Runs.after step (start table setup accounts) pre) a) acts)
    (hdurable : ∀ a ∈ acts, Durable a) (pre post : List Act) (he : acts = pre ++ post) :
    Reproduced (Runs.after step (start table setup accounts) pre) := by
  have hstart : Followed (start table setup accounts).process := by
    unfold Followed start
    dsimp only
    rw [initOptionMap_default (fun _ => rfl)]
    rfl
  have hpre : Runs.Always
      (fun pre a => Succeeds (Runs.after step (start table setup accounts) pre) a ∧ Durable a)
      pre := by
    intro p a q hp
    refine ⟨hdone p a (q ++ post) ?_, hdurable a ?_⟩
    · rw [he, hp, List.append_assoc]
      rfl
    · rw [he, hp]
      simp
  refine Followed.reproduced (Runs.run_induction
    (P := fun acts => Followed (Runs.after step (start table setup accounts) acts).process)
    hstart ?_ pre hpre)
  intro acts a _ hfollowed ⟨hdone, hdurable⟩
  rw [Runs.after_snoc]
  exact followed_step hfollowed hdone hdurable

/-! ### Two runs -/

def emptyStore : Store := Store.ofDB ⟨Table.empty, Table.empty, Table.empty, Table.empty⟩

def setFooter : Act := ⟨.updateOption (some ⟨"Footer", .string "powered"⟩), fun _ => none⟩

/-- A footer survives a restart. -/
theorem footer_reproduced :
    Reproduced (Runs.after step (start ∅ false emptyStore) [setFooter]) := by
  refine reproduced_of_durable ∅ false emptyStore [setFooter] ?_ ?_ [setFooter] []
    (List.append_nil _).symm
  · have hsplit : [setFooter] = [] ++ [setFooter] := rfl
    rw [hsplit, Runs.always_snoc]
    exact ⟨Runs.always_nil, 200, "", none, rfl⟩
  · intro a ha
    obtain rfl := List.mem_singleton.mp ha
    refine ⟨fun _ => rfl, fun option ho => ?_, fun ctx r h => nomatch h⟩
    obtain rfl := Option.some.inj (Request.updateOption.inj ho)
    decide

def rootRequest : SetupRequest :=
  { username := "root", password := "12345678", confirmPassword := "12345678"
    selfUseModeEnabled := true }

def setUp : Act := ⟨.postSetup (Ctx.plain 0) (some rootRequest), fun _ => none⟩

/-- **A mode that was set up is gone after a restart.** -/
theorem mode_not_reproduced :
    Runs.Always (fun pre a => Succeeds (Runs.after step (start ∅ false emptyStore) pre) a)
        [setUp] ∧
      ¬ Reproduced (Runs.after step (start ∅ false emptyStore) [setUp]) := by
  have hsplit : [setUp] = [] ++ [setUp] := rfl
  refine ⟨?_, fun h => ?_⟩
  · rw [hsplit, Runs.always_snoc]
    exact ⟨Runs.always_nil, 200, "系统初始化成功", none, rfl⟩
  · have hsame := congrArg Settings.selfUseModeEnabled (h _ (List.Perm.refl _))
    rw [(restarted_modes _).1] at hsame
    exact Bool.false_ne_true hsame

end AuthGateway.SettingsRestart
