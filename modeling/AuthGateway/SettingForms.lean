import AuthGateway.Lib.Runs
import AuthGateway.Model.Live
import AuthGateway.Model.UserSetting
import AuthGateway.Controller.User

/-!
# The two forms of the settings

`UpdateUserSetting` and the sidebar request of `UpdateSelf` write the same JSON
text of an account.  The sidebar request decodes it, changes one field and
encodes it again.  The notification request encodes a struct of its own, in which
the modules of the sidebar are empty.

* `Kept`: after a run the account has the modules of its last sidebar request and
  the other fields of its last notification request.
* `Spared`: every notification request comes before a later sidebar request, or
  at a moment when no modules are set.

**A run of requests that succeed keeps what both forms said exactly when the
modules are spared**, and the two forms commute exactly when the modules of the
sidebar request are empty (`kept_iff`).
-/

namespace AuthGateway.SettingForms

open Common Model Controller

inductive Form
  | notification (req : UpdateUserSettingRequest)
  | sidebar (modules : Option String)

/-- A request of the account `ctx.id`, and what the driver fails on its way. -/
structure Act where
  form : Form
  ctx : Ctx
  cookie : Session := {}
  outages : Nat → Option Err := fun _ => none

def handle (env : Env) (a : Act) : M Out :=
  let s := Sess.ofCookie a.cookie
  match a.form with
  | .notification req => updateUserSetting env a.ctx s (some req)
  | .sidebar modules => updateSelf env a.ctx s (some (.sidebar modules))

def respond (env : Env) (db : DB) (a : Act) : Out × Store := serve (handle env a) ⟨db, a.outages⟩

def step (env : Env) (db : DB) (a : Act) : DB := (respond env db a).2.db

/-! ### The property and the condition -/

def Done (o : Out) : Prop := ∃ status message data, o.reply = .json status true message data

instance (o : Out) : Decidable (Done o) :=
  match h : o.reply with
  | .json status true message data => isTrue ⟨status, message, data, h⟩
  | .json _ false _ _ => isFalse fun ⟨_, _, _, h'⟩ => nomatch h.symm.trans h'
  | .coded _ _ _ => isFalse fun ⟨_, _, _, h'⟩ => nomatch h.symm.trans h'
  | .redirect _ _ => isFalse fun ⟨_, _, _, h'⟩ => nomatch h.symm.trans h'
  | .none => isFalse fun ⟨_, _, _, h'⟩ => nomatch h.symm.trans h'
  | .panicked => isFalse fun ⟨_, _, _, h'⟩ => nomatch h.symm.trans h'

def Succeeds (env : Env) (db : DB) (a : Act) : Prop := Done (respond env db a).1

/-- Every request of the run succeeds. -/
def AllSucceed (env : Env) (db : DB) (acts : List Act) : Prop :=
  Runs.Always (fun pre a => Succeeds env (Runs.after (step env) db pre) a) acts

theorem allSucceed_snoc {env : Env} {db : DB} {acts : List Act} {a : Act} :
    AllSucceed env db (acts ++ [a])
      ↔ AllSucceed env db acts ∧ Succeeds env (Runs.after (step env) db acts) a :=
  Runs.always_snoc

/-- The settings of an account. -/
def stored (env : Env) (db : DB) (id : Int) : Option UserSetting :=
  (liveRow db id).map (User.getSetting env)

/-- The forms that an account has sent. -/
def sent (id : Int) (acts : List Act) : List Form :=
  (acts.filter fun a => a.ctx.id == id).map Act.form

/-- The modules of the last sidebar request that has some, or those there were. -/
def lastModules (modules : String) (forms : List Form) : String :=
  forms.foldl (fun modules form =>
    match form with
    | .sidebar (some text) => text
    | _ => modules) modules

/-- The settings of the last notification request, or those there were. -/
def lastNotification (setting : UserSetting) (forms : List Form) : UserSetting :=
  forms.foldl (fun setting form =>
    match form with
    | .notification req => requestedSetting req
    | _ => setting) setting

/-- What both forms said. -/
def said (setting : UserSetting) (forms : List Form) : UserSetting :=
  { lastNotification setting forms with
    sidebarModules := lastModules setting.sidebarModules forms }

/-- **Neither form has erased what the other said.** -/
def Kept (env : Env) (db : DB) (acts : List Act) (id : Int) : Prop :=
  stored env (Runs.after (step env) db acts) id
    = (stored env db id).map fun setting => said setting (sent id acts)

/-- Every notification request comes before a later sidebar request, or when no
modules are set. -/
def Spared (modules : String) (forms : List Form) : Prop :=
  ∀ pre req post, forms = pre ++ .notification req :: post →
    (∃ text, Form.sidebar (some text) ∈ post) ∨ lastModules modules pre = ""

/-- The order of two requests makes no difference to the settings. -/
def Commute (env : Env) (db : DB) (a b : Act) : Prop :=
  ∀ id, stored env (Runs.after (step env) db [a, b]) id
    = stored env (Runs.after (step env) db [b, a]) id

/-! ### One request -/

/-- The settings that a request stores, from those it finds. -/
def Form.apply : Form → UserSetting → UserSetting
  | .notification req, _ => requestedSetting req
  | .sidebar (some text), setting => { setting with sidebarModules := text }
  | .sidebar none, setting => setting

/-- The settings after some forms. -/
def applied (setting : UserSetting) (forms : List Form) : UserSetting :=
  forms.foldl (fun setting form => form.apply setting) setting

theorem applied_snoc (setting : UserSetting) (forms : List Form) (form : Form) :
    applied setting (forms ++ [form]) = form.apply (applied setting forms) := by
  simp [applied]

/-- A row that was read and is written back with a text. -/
theorem overlay_setting (row : User) {user : User} (huser : user = row ∨ user = row.omitPassword)
    {text : String} (htext : text ≠ "") :
    row.overlay { user with setting := text } = { row with setting := text } := by
  rcases huser with rfl | rfl
  · simp [User.overlay, htext]
  · show row.overlay { row with password := "", setting := text } = { row with setting := text }
    simp [User.overlay, htext]

/-- Storing a text: refused and without an effect, or it is the text of that row. -/
theorem update_setting_sat (ctx : Ctx) {db : DB} {row user : User}
    (hrow : liveRow db row.id = some row) (huser : user = row ∨ user = row.omitPassword)
    {text : String} (htext : text ≠ "") :
    Sat (User.update ctx { user with setting := text } false) (fun r db' =>
      (r.1 ≠ none ∧ db' = db) ∨ r.1 = none ∧ ∀ id, liveRow db' id
        = if id = row.id then some { row with setting := text } else liveRow db id) db := by
  have hid : user.id = row.id := by
    rcases huser with rfl | rfl
    · rfl
    · rfl
  have hpos : row.id ≠ 0 := by
    have := liveRow_pos hrow
    omega
  show Sat (User.firstAndUpdates { user with setting := text }
    fun x => x.overlay { user with setting := text }) _ db
  unfold User.firstAndUpdates
  refine (User.first_sat _ false _ db).bind ?_
  rintro found db₁ ⟨rfl, hfound⟩
  have hkey : found.2.id = row.id := by
    rcases hfound with ⟨e, rfl⟩ | ⟨x, -, rfl, -, hxid, -⟩
    · exact hid
    · exact (beq_iff_eq.mp hxid).trans hid
  dsimp only
  rw [hkey, if_neg hpos]
  refine Sat.perform fun r db₂ h => ?_
  rcases h with ⟨rfl, rfl⟩ | ⟨⟨e, rfl⟩, rfl⟩
  · rcases liveRow_userUpdates (f := fun x => x.overlay { user with setting := text })
      (fun _ => rfl) row.id db₁ with ⟨e, he, hsame⟩ | ⟨hok, hrows⟩
    · rw [he, hsame]
      exact Sat.pure (Or.inl ⟨by simp, rfl⟩)
    · rw [hok]
      refine Sat.pure (Or.inr ⟨rfl, fun id => ?_⟩)
      rw [hrows]
      by_cases hne : id = row.id
      · have hlive : row.live = true := liveRow_live hrow
        have hstill : User.live { row with setting := text } = true := hlive
        rw [if_pos hne, if_pos hne, hne, hrow, Option.map_some, overlay_setting row huser htext,
          Option.filter_some, if_pos hstill]
      · rw [if_neg hne, if_neg hne]
  · exact Sat.pure (Or.inl ⟨by simp, rfl⟩)

/-- What a request comes to: an answer without success and without an effect, or
the settings that its form makes of those the account had. -/
def Serves (env : Env) (db : DB) (id : Int) (form : Form) (o : Out) (db' : DB) : Prop :=
  (¬ Done o ∧ db' = db) ∨ ∃ setting, stored env db id = some setting ∧
    ∀ k, stored env db' k = if k = id then some (form.apply setting) else stored env db k

theorem serves_refused {env : Env} {db : DB} {id : Int} {form : Form} (s : Sess) (message : String) :
    Serves env db id form (s.fail message) db := by
  refine Or.inl ⟨?_, rfl⟩
  rintro ⟨status, text, data, h⟩
  cases h

section Codec

variable {env : Env} {write : JsonText.Members → String}
  {read : String → Option JsonText.Members} (hjson : Marshals env write read)

include hjson

/-- The same of a struct that is encoded. -/
theorem update_encoded_sat (ctx : Ctx) {db : DB} {row user : User}
    (hrow : liveRow db row.id = some row) (huser : user = row ∨ user = row.omitPassword)
    (setting : UserSetting) :
    Sat (User.update ctx (User.setSetting env user setting) false) (fun r db' =>
      (r.1 ≠ none ∧ db' = db) ∨ r.1 = none ∧ ∀ id, stored env db' id
        = if id = row.id then some setting else stored env db id) db := by
  obtain ⟨text, htext, hset, hget⟩ := hjson.stored user setting
  rw [hset]
  refine Prog.Holds.mono (update_setting_sat ctx hrow huser htext) fun r db' h => ?_
  rcases h with hrefused | ⟨hnone, hrows⟩
  · exact Or.inl hrefused
  · refine Or.inr ⟨hnone, fun id => ?_⟩
    unfold stored
    rw [hrows]
    by_cases hne : id = row.id
    · rw [if_pos hne, if_pos hne, Option.map_some, hget _ rfl]
    · rw [if_neg hne, if_neg hne]

/-- The write at the end of both requests. -/
theorem serves_written (ctx : Ctx) (form : Form) {db : DB} {row user : User} {id : Int}
    (hid : row.id = id) (hrow : liveRow db row.id = some row)
    (huser : user = row ∨ user = row.omitPassword) (s : Sess) (done failed : String) :
    Sat (do
        let (err, _) ← (User.setSetting env user (form.apply (User.getSetting env row))).update
          ctx false
        match err with
        | some e => return s.fail (failed ++ e.error)
        | none => return s.answer (.done done)) (Serves env db id form) db := by
  refine (update_encoded_sat hjson ctx hrow huser _).bind ?_
  rintro ⟨err, user'⟩ db' (⟨herr, rfl⟩ | ⟨herr, hrows⟩)
  · cases err with
    | none => exact absurd rfl herr
    | some e => exact Sat.pure (serves_refused s _)
  · obtain rfl : err = none := herr
    refine Sat.pure (Or.inr ⟨User.getSetting env row, ?_, ?_⟩)
    · rw [stored, ← hid, hrow, Option.map_some]
    · rw [← hid]
      exact hrows

theorem handle_sat (a : Act) (db : DB) :
    Sat (handle env a) (Serves env db a.ctx.id a.form) db := by
  obtain ⟨form, ctx, cookie, outages⟩ := a
  cases form with
  | notification req =>
    show Sat (updateUserSetting env ctx (Sess.ofCookie cookie) (some req)) _ db
    unfold updateUserSetting
    dsimp only
    cases checkUserSetting env req with
    | some message => exact Sat.pure (serves_refused _ _)
    | none =>
      refine (getUserById_sat ctx.id true db).bind ?_
      rintro (e | user) db₁ ⟨rfl, hread⟩
      · exact Sat.pure (serves_refused _ _)
      · obtain ⟨row, hmem, hlive, hid, huser⟩ := hread user rfl
        have hrow : liveRow db₁ row.id = some row :=
          liveRow_eq_some.mpr ⟨Table.get?_eq_some.mpr ⟨hmem, rfl⟩, hlive⟩
        exact serves_written hjson ctx (.notification req) hid hrow (Or.inl huser) _ _ _
  | sidebar modules =>
    show Sat (sidebarUpdate env ctx (Sess.ofCookie cookie) modules) _ db
    unfold sidebarUpdate
    refine (getUserById_sat ctx.id false db).bind ?_
    rintro (e | user) db₁ ⟨rfl, hread⟩
    · exact Sat.pure (serves_refused _ _)
    · obtain ⟨row, hmem, hlive, hid, huser⟩ := hread user rfl
      have hrow : liveRow db₁ row.id = some row :=
        liveRow_eq_some.mpr ⟨Table.get?_eq_some.mpr ⟨hmem, rfl⟩, hlive⟩
      have hsame : User.getSetting env user = User.getSetting env row := by
        rw [huser]
        rfl
      have hwritten := serves_written hjson ctx (.sidebar modules) hid hrow (Or.inr huser)
        (Sess.ofCookie cookie) "设置更新成功" "更新设置失败: "
      dsimp only
      rw [hsame]
      cases modules with
      | none => exact hwritten
      | some text => exact hwritten

/-- **A request that succeeds** stores what its form makes of the settings. -/
theorem stored_step {a : Act} {db : DB} (hdone : Succeeds env db a) (id : Int) :
    stored env (step env db a) id
      = if id = a.ctx.id then (stored env db id).map a.form.apply else stored env db id := by
  have hserves : Serves env db a.ctx.id a.form (respond env db a).1 (respond env db a).2.db :=
    (handle_sat hjson a db).serve
  rcases hserves with ⟨hnot, -⟩ | ⟨setting, hsetting, hrows⟩
  · exact absurd hdone hnot
  · refine (hrows id).trans ?_
    by_cases hid : id = a.ctx.id
    · rw [if_pos hid, if_pos hid, hid, hsetting, Option.map_some]
    · rw [if_neg hid, if_neg hid]

/-- **After a run** the forms have been applied in their order. -/
theorem stored_after {db : DB} {acts : List Act} (hdone : AllSucceed env db acts) (id : Int) :
    stored env (Runs.after (step env) db acts) id
      = (stored env db id).map fun setting => applied setting (sent id acts) := by
  refine Runs.run_induction (P := fun acts => stored env (Runs.after (step env) db acts) id
    = (stored env db id).map fun setting => applied setting (sent id acts)) ?_ ?_ acts hdone
  · simp [sent, applied]
  · intro acts a _ ih hlast
    rw [Runs.after_snoc, stored_step hjson hlast id, ih]
    by_cases hid : id = a.ctx.id
    · have hsent : sent id (acts ++ [a]) = sent id acts ++ [a.form] := by simp [sent, hid]
      rw [if_pos hid, hsent, Option.map_map]
      simp [applied_snoc, Function.comp_def]
    · have hsent : sent id (acts ++ [a]) = sent id acts := by simp [sent, Ne.symm hid]
      rw [if_neg hid, hsent]

/-- Only an account that is there has a request that succeeds. -/
theorem exists_stored {a : Act} {db : DB} (hdone : Succeeds env db a) :
    ∃ setting, stored env db a.ctx.id = some setting := by
  have hserves : Serves env db a.ctx.id a.form (respond env db a).1 (respond env db a).2.db :=
    (handle_sat hjson a db).serve
  rcases hserves with ⟨hnot, -⟩ | ⟨setting, hsetting, -⟩
  · exact absurd hdone hnot
  · exact ⟨setting, hsetting⟩

end Codec

/-! ### What the forms add up to -/

theorem lastModules_append (modules : String) (pre post : List Form) :
    lastModules modules (pre ++ post) = lastModules (lastModules modules pre) post :=
  List.foldl_append

/-- Without a sidebar request that has modules, they stay. -/
theorem lastModules_of_none {forms : List Form} (h : ∀ text, Form.sidebar (some text) ∉ forms)
    (modules : String) : lastModules modules forms = modules := by
  induction forms generalizing modules with
  | nil => rfl
  | cons form forms ih =>
    have hrest : ∀ text, Form.sidebar (some text) ∉ forms := fun text hmem =>
      h text (List.mem_cons_of_mem _ hmem)
    cases form with
    | notification req => exact ih hrest modules
    | sidebar given =>
      cases given with
      | none => exact ih hrest modules
      | some text => exact absurd List.mem_cons_self (h text)

/-- **The notification fields** are those of the last notification request. -/
theorem applied_fields (setting : UserSetting) (forms : List Form) (modules : String) :
    { applied setting forms with sidebarModules := modules }
      = { lastNotification setting forms with sidebarModules := modules } := by
  induction forms using List.reverseRecOn with
  | nil => rfl
  | append_singleton forms form ih =>
    have hlast : lastNotification setting (forms ++ [form])
        = match form with
          | .notification req => requestedSetting req
          | .sidebar _ => lastNotification setting forms := by
      cases form <;> simp [lastNotification]
    rw [applied_snoc, hlast]
    cases form with
    | notification req => rfl
    | sidebar given =>
      cases given with
      | none => exact ih
      | some text => exact ih

theorem spared_nil (modules : String) : Spared modules [] := by
  intro pre req post h
  simp at h

/-- A sidebar request that has modules makes up for what was lost before it. -/
theorem spared_snoc_some (modules text : String) (forms : List Form) :
    Spared modules (forms ++ [.sidebar (some text)]) := by
  intro pre req post h
  rcases Runs.eq_snoc_split h with ⟨-, hform, -⟩ | ⟨post', rfl, -⟩
  · cases hform
  · exact Or.inl ⟨text, by simp⟩

theorem spared_snoc_none (modules : String) (forms : List Form) :
    Spared modules (forms ++ [.sidebar none]) ↔ Spared modules forms := by
  constructor
  · intro h pre req post hforms
    rcases h pre req (post ++ [.sidebar none]) (by simp [hforms]) with ⟨text, hmem⟩ | hempty
    · exact Or.inl ⟨text, by simpa using hmem⟩
    · exact Or.inr hempty
  · intro h pre req post hforms
    rcases Runs.eq_snoc_split hforms with ⟨-, hform, -⟩ | ⟨post', rfl, hsplit⟩
    · cases hform
    · rcases h pre req post' hsplit with ⟨text, hmem⟩ | hempty
      · exact Or.inl ⟨text, by simp [hmem]⟩
      · exact Or.inr hempty

/-- A notification request spares the modules only if there are none. -/
theorem spared_snoc_notification (modules : String) (forms : List Form)
    (req : UpdateUserSettingRequest) :
    Spared modules (forms ++ [.notification req]) ↔ lastModules modules forms = "" := by
  constructor
  · intro h
    rcases h forms req [] rfl with ⟨text, hmem⟩ | hempty
    · exact absurd hmem List.not_mem_nil
    · exact hempty
  · intro hempty pre req' post hforms
    rcases Runs.eq_snoc_split hforms with ⟨rfl, -, -⟩ | ⟨post', rfl, rfl⟩
    · exact Or.inr hempty
    · by_cases hnone : ∃ text, Form.sidebar (some text) ∈ post'
      · obtain ⟨text, hmem⟩ := hnone
        exact Or.inl ⟨text, by simp [hmem]⟩
      · have hstay : ∀ text, Form.sidebar (some text) ∉ Form.notification req' :: post' := by
          intro text hmem
          exact hnone ⟨text, by simpa using hmem⟩
        rw [lastModules_append, lastModules_of_none hstay] at hempty
        exact Or.inr hempty

/-- **The modules** are those of the last sidebar request exactly when they are spared. -/
theorem applied_modules_iff (setting : UserSetting) (forms : List Form) :
    (applied setting forms).sidebarModules = lastModules setting.sidebarModules forms
      ↔ Spared setting.sidebarModules forms := by
  induction forms using List.reverseRecOn with
  | nil => exact ⟨fun _ => spared_nil _, fun _ => rfl⟩
  | append_singleton forms form ih =>
    rw [applied_snoc, lastModules_append]
    cases form with
    | notification req =>
      rw [spared_snoc_notification]
      show "" = lastModules setting.sidebarModules forms ↔ _
      exact eq_comm
    | sidebar given =>
      cases given with
      | none =>
        rw [spared_snoc_none]
        exact ih
      | some text => exact ⟨fun _ => spared_snoc_some _ _ _, fun _ => rfl⟩

theorem applied_eq_said_iff (setting : UserSetting) (forms : List Form) :
    applied setting forms = said setting forms ↔ Spared setting.sidebarModules forms := by
  rw [← applied_modules_iff]
  constructor
  · intro h
    rw [h]
    rfl
  · intro h
    calc applied setting forms
        = { applied setting forms with
            sidebarModules := lastModules setting.sidebarModules forms } := by rw [← h]
      _ = said setting forms := applied_fields setting forms _

/-! ### The result -/

section Result

variable {env : Env} {write : JsonText.Members → String}
  {read : String → Option JsonText.Members} (hjson : Marshals env write read)

include hjson

theorem kept_iff_spared {db : DB} {acts : List Act} (hdone : AllSucceed env db acts) {id : Int}
    {setting : UserSetting} (hsetting : stored env db id = some setting) :
    Kept env db acts id ↔ Spared setting.sidebarModules (sent id acts) := by
  unfold Kept
  rw [stored_after hjson hdone, hsetting, Option.map_some, Option.map_some, Option.some.injEq]
  exact applied_eq_said_iff setting _

/-- A sidebar request and a notification request of one account. -/
theorem commute_iff_empty {db : DB} {a b : Act} {modules : Option String}
    {req : UpdateUserSettingRequest} (ha : a.form = .sidebar modules)
    (hb : b.form = .notification req) (hab : AllSucceed env db [a, b])
    (hba : AllSucceed env db [b, a]) :
    Commute env db a b ↔ (a.ctx.id = b.ctx.id → modules.getD "" = "") := by
  have hfirst : Succeeds env db a := hab [] a [b] rfl
  obtain ⟨setting, hsetting⟩ := exists_stored hjson hfirst
  have hafter : ∀ id, stored env (Runs.after (step env) db [a, b]) id
      = stored env (Runs.after (step env) db [b, a]) id
        ↔ (stored env db id).map (fun setting => applied setting (sent id [a, b]))
          = (stored env db id).map (fun setting => applied setting (sent id [b, a])) := by
    intro id
    rw [stored_after hjson hab, stored_after hjson hba]
  unfold Commute
  by_cases hsame : a.ctx.id = b.ctx.id
  · have hboth : ∀ id, id ≠ a.ctx.id → sent id [a, b] = sent id [b, a] := by
      intro id hid
      simp [sent, ← hsame, Ne.symm hid]
    have hown : applied setting (sent a.ctx.id [a, b]) = requestedSetting req := by
      simp [sent, ← hsame, applied, ha, hb, Form.apply]
    have hown' : applied setting (sent a.ctx.id [b, a])
        = { requestedSetting req with sidebarModules := modules.getD "" } := by
      cases modules with
      | none =>
        simp [sent, ← hsame, applied, ha, hb, Form.apply]
        rfl
      | some text => simp [sent, ← hsame, applied, ha, hb, Form.apply]
    constructor
    · intro h _
      have heq := (hafter a.ctx.id).mp (h a.ctx.id)
      rw [hsetting, Option.map_some, Option.map_some, hown, hown', Option.some.injEq] at heq
      exact (congrArg UserSetting.sidebarModules heq).symm
    · intro h id
      rw [hafter]
      by_cases hid : id = a.ctx.id
      · rw [hid, hsetting, Option.map_some, Option.map_some, hown, hown', h hsame]
        rfl
      · rw [hboth id hid]
  · have hboth : ∀ id, sent id [a, b] = sent id [b, a] := by
      intro id
      by_cases hid : a.ctx.id = id
      · have hne : b.ctx.id ≠ id := fun h => hsame (hid.trans h.symm)
        simp [sent, hid, hne]
      · simp [sent, hid, List.filter_cons]
    constructor
    · intro _ h
      exact absurd h hsame
    · intro _ id
      rw [hafter, hboth]

/-- **The two forms keep what the other said** in a run of requests that succeed
exactly when the modules of the sidebar are spared, and they commute exactly when
the sidebar request leaves no modules. -/
theorem kept_iff :
    (∀ db acts id setting, AllSucceed env db acts → stored env db id = some setting →
      (Kept env db acts id ↔ Spared setting.sidebarModules (sent id acts))) ∧
    ∀ db a b modules req, a.form = .sidebar modules → b.form = .notification req →
      AllSucceed env db [a, b] → AllSucceed env db [b, a] →
      (Commute env db a b ↔ (a.ctx.id = b.ctx.id → modules.getD "" = "")) :=
  ⟨fun _ _ _ _ hdone hsetting => kept_iff_spared hjson hdone hsetting,
    fun _ _ _ _ _ ha hb hab hba => commute_iff_empty hjson ha hb hab hba⟩

end Result

/-- The settings of a new account, and its row. -/
def newSetting : UserSetting :=
  { sidebarModules := generateDefaultSidebarConfigForRole roleCommonUser }

def dora : User where
  id := 1
  username := "dora"
  role := 1
  status := 1
  affCode := "d"
  setting := JsonText.write newSetting.members

def doraDB : DB where
  users := Table.single dora
  twoFAs := Table.empty
  backupCodes := Table.empty
  passkeys := Table.empty

/-- Dora asks for warnings by e-mail. -/
def doraWarned : Act where
  form := .notification { quotaWarningType := "email", quotaWarningThreshold := 1000 }
  ctx := { Ctx.plain 0 with id := 1 }

/-- Dora chooses her sidebar. -/
def doraArranged : Act where
  form := .sidebar (some "chat")
  ctx := { Ctx.plain 0 with id := 1 }

theorem dora_stored : stored Env.json doraDB 1 = some newSetting := by
  have hrow : liveRow doraDB 1 = some dora := rfl
  have hsetting : User.getSetting Env.json dora = newSetting := Env.json_marshals.getSetting rfl
  rw [stored, hrow, Option.map_some, hsetting]

theorem warned : AllSucceed Env.json doraDB [doraWarned] := by
  have hdone : Succeeds Env.json doraDB doraWarned := by
    unfold Succeeds
    decide +kernel
  exact allSucceed_snoc.mpr ⟨Runs.always_nil, hdone⟩

theorem warned_then_arranged : AllSucceed Env.json doraDB ([doraWarned] ++ [doraArranged]) := by
  rw [allSucceed_snoc]
  refine ⟨warned, ?_⟩
  unfold Succeeds
  decide +kernel

theorem arranged_then_warned : AllSucceed Env.json doraDB ([doraArranged] ++ [doraWarned]) := by
  have hfirst : Succeeds Env.json doraDB doraArranged := by
    unfold Succeeds
    decide +kernel
  rw [allSucceed_snoc]
  refine ⟨allSucceed_snoc.mpr ⟨Runs.always_nil, hfirst⟩, ?_⟩
  unfold Succeeds
  decide +kernel

/-- Dora is warned, and arranges her sidebar afterwards; the other order differs. -/
theorem kept_dora :
    (Kept Env.json doraDB ([doraWarned] ++ [doraArranged]) 1 ↔
      Spared newSetting.sidebarModules (sent 1 ([doraWarned] ++ [doraArranged]))) ∧
    (Commute Env.json doraDB doraArranged doraWarned ↔
      (doraArranged.ctx.id = doraWarned.ctx.id → (some "chat").getD "" = "")) :=
  ⟨(kept_iff Env.json_marshals).1 _ _ _ _ warned_then_arranged dora_stored,
    (kept_iff Env.json_marshals).2 _ _ _ _ _ rfl rfl arranged_then_warned warned_then_arranged⟩

/-- Dora asks for warnings, and the sidebar of her new account is gone. -/
theorem dora_erased :
    AllSucceed Env.json doraDB [doraWarned] ∧ ¬ Kept Env.json doraDB [doraWarned] 1 := by
  refine ⟨warned, fun h => ?_⟩
  have hspared := (kept_iff_spared Env.json_marshals warned dora_stored).mp h
  rcases hspared [] _ [] rfl with ⟨text, hmem⟩ | hempty
  · exact absurd hmem List.not_mem_nil
  · exact absurd hempty (by decide)

end AuthGateway.SettingForms
