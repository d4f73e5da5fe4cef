import Mathlib.Data.Set.Insert
import AuthGateway.Model.User

/-!
# What becomes of the accounts

The core of a row is all of it but the columns that are written in passing: the
settings, the quota and the counters of invitations.  `cores db` is the set of
the cores of all rows, and a `Change` is what a request makes of it.

Every statement of a handler that writes `users` is one change (`cores_userUpdates`
and its siblings); what a registration does besides creating the row changes no
core, so `insert_cores` says what an account is when the request is over.
-/

namespace AuthGateway.Model

open Common

/-! ### Cores -/

/-- The row without what is written in passing. -/
def User.core (u : User) : User :=
  { u with setting := "", quota := 0, affCount := 0, affQuota := 0, affHistoryQuota := 0 }

/-- A column that the core has is the same in rows of the same core. -/
theorem User.core_congr {α : Type} {f : User → α} (hf : ∀ u : User, f u.core = f u) {u v : User}
    (h : u.core = v.core) : f u = f v := by
  rw [← hf u, ← hf v, h]

section
variable {u v : User} (h : u.core = v.core)
include h

theorem User.core_id : u.id = v.id := core_congr (fun _ => rfl) h

theorem User.core_role : u.role = v.role := core_congr (fun _ => rfl) h

end

def cores (db : DB) : Set User := {v | ∃ row ∈ db.users, v = row.core}

/-- What becomes of the accounts. -/
inductive Change
  | keep
  /-- The live rows with `p` become what `g` makes of them. -/
  | edit (p : User → Bool) (g : User → User)
  | create (u : User)
  | remove (id : Int)

/-- The cores after a change. -/
def Change.cores (db : DB) : Change → Set User
  | keep => Model.cores db
  | edit p g => {v | ∃ row ∈ db.users, v = (Table.touch (fun u => u.live && p u) g row).core}
  | create u => insert u.core (Model.cores db)
  | remove id => {v ∈ Model.cores db | v.id ≠ id}

/-- The change of one user's row. -/
def Change.editId (id : Int) (g : User → User) : Change := .edit (fun u => u.id == id) g

theorem cores_congr {db db' : DB} (h : db'.users = db.users) : cores db' = cores db := by
  unfold cores
  rw [h]

theorem mem_cores {db : DB} {row : User} (h : row ∈ db.users) : row.core ∈ cores db := ⟨row, h, rfl⟩

/-- An edit that changes no core. -/
theorem cores_edit_of_core {db : DB} {p : User → Bool} {g : User → User}
    (h : ∀ row ∈ db.users, row.live = true → p row = true → (g row).core = row.core) :
    (Change.edit p g).cores db = cores db := by
  have htouch : ∀ row ∈ db.users,
      (Table.touch (fun u => u.live && p u) g row).core = row.core := by
    intro row hrow
    unfold Table.touch
    split
    · rename_i hp
      obtain ⟨hlive, hp⟩ := Bool.and_eq_true_iff.mp hp
      exact h row hrow hlive hp
    · rfl
  ext v
  constructor
  · rintro ⟨row, hrow, rfl⟩
    exact ⟨row, hrow, htouch row hrow⟩
  · rintro ⟨row, hrow, rfl⟩
    exact ⟨row, hrow, (htouch row hrow).symm⟩

/-- Where a row comes from after an edit. -/
theorem mem_cores_edit {db : DB} {p : User → Bool} {g : User → User} {v : User}
    (h : v ∈ (Change.edit p g).cores db) : ∃ row ∈ db.users, v = row.core ∨
      row.live = true ∧ p row = true ∧ v = (g row).core := by
  obtain ⟨row, hrow, rfl⟩ := h
  refine ⟨row, hrow, ?_⟩
  unfold Table.touch
  split
  · rename_i hp
    obtain ⟨hlive, hp⟩ := Bool.and_eq_true_iff.mp hp
    exact Or.inr ⟨hlive, hp, rfl⟩
  · exact Or.inl rfl

/-! ### The statements -/

theorem cores_userUpdates {p : User → Bool} {f g : User → User} {db db' : DB} {r : Except Err Unit}
    (hg : ∀ row ∈ db.users, row.live = true → p row = true → (f row).core = (g row).core)
    (h : May (.userUpdates p f) db r db') :
    cores db' = cores db ∨ cores db' = (Change.edit p g).cores db := by
  have htouch : ∀ row ∈ db.users, (Table.touch (fun u => u.live && p u) f row).core
      = (Table.touch (fun u => u.live && p u) g row).core := by
    intro row hrow
    unfold Table.touch
    split
    · rename_i hp
      obtain ⟨hlive, hp⟩ := Bool.and_eq_true_iff.mp hp
      exact hg row hrow hlive hp
    · rfl
  rcases h with ⟨-, rfl⟩ | ⟨-, rfl⟩
  · simp only [exec]
    cases hup : db.users.update (fun u => u.live && p u) f with
    | none => exact Or.inl rfl
    | some t =>
      right
      ext v
      constructor
      · rintro ⟨row', hrow', rfl⟩
        obtain ⟨row, hrow, rfl⟩ := (Table.mem_update hup).mp hrow'
        exact ⟨row, hrow, htouch row hrow⟩
      · rintro ⟨row, hrow, rfl⟩
        exact ⟨_, (Table.mem_update hup).mpr ⟨row, hrow, rfl⟩, (htouch row hrow).symm⟩
  · exact Or.inl rfl

/-- A row saved with the core that it has. -/
theorem cores_userSave {u row : User} {db db' : DB} {r : Except Err Unit} (hrow : row ∈ db.users)
    (hid : row.id = u.id) (hcore : row.core = u.core) (h : May (.userSave u) db r db') :
    cores db' = cores db := by
  rcases h with ⟨-, rfl⟩ | ⟨-, rfl⟩
  · simp only [exec]
    cases hput : db.users.put u with
    | none => rfl
    | some t =>
      ext v
      constructor
      · rintro ⟨x, hx, rfl⟩
        rcases (Table.mem_put hput).mp hx with rfl | ⟨hx, -⟩
        · exact ⟨row, hrow, hcore.symm⟩
        · exact mem_cores hx
      · rintro ⟨x, hx, rfl⟩
        by_cases hkey : Row.key x = Row.key u
        · obtain rfl : x = row := Table.eq_of_key hx hrow (hkey.trans hid.symm)
          exact ⟨u, (Table.mem_put hput).mpr (Or.inl rfl), hcore⟩
        · exact ⟨x, (Table.mem_put hput).mpr (Or.inr ⟨hx, hkey⟩), rfl⟩
  · rfl

theorem cores_userHardDelete {id : Int} {db db' : DB} {r : Except Err Unit}
    (h : May (.userHardDelete id) db r db') :
    cores db' = cores db ∨ cores db' = (Change.remove id).cores db := by
  rcases h with ⟨-, rfl⟩ | ⟨-, rfl⟩
  · right
    ext v
    constructor
    · rintro ⟨row, hrow, rfl⟩
      obtain ⟨hrow, hne⟩ := Table.mem_delete.mp hrow
      exact ⟨mem_cores hrow, beq_eq_false_iff_ne.mp hne⟩
    · rintro ⟨⟨row, hrow, rfl⟩, hne⟩
      exact ⟨row, Table.mem_delete.mpr ⟨hrow, beq_eq_false_iff_ne.mpr hne⟩, rfl⟩
  · exact Or.inl rfl

/-- **What a new row is**: the struct with its defaults, under an id that no row
had, and apart from every row. -/
structure IsNew (db : DB) (u row : User) : Prop where
  columns : ∃ k, row = { u.withDefaults with id := k }
  fresh : ∀ x ∈ db.users, x.id ≠ row.id
  later : u.id = 0 → ∀ x ∈ db.users, x.id < row.id
  apart : ∀ x ∈ db.users, x.clash row = false

theorem IsNew.names {db : DB} {u row : User} (h : IsNew db u row) :
    row.username = u.username ∧ row.email = u.email := by
  obtain ⟨k, rfl⟩ := h.columns
  exact ⟨rfl, rfl⟩

theorem userCreate_new {u : User} {db db' : DB} {r : Except Err User}
    (h : May (.userCreate u) db r db') :
    (∀ row, r = .ok row → IsNew db u row ∧ cores db' = (Change.create row).cores db) ∧
      ∀ e, r = .error e → db' = db := by
  rcases h with ⟨rfl, rfl⟩ | ⟨⟨e, rfl⟩, rfl⟩
  · simp only [exec]
    cases hcreate : db.users.create u.withDefaults with
    | none => exact ⟨fun row h => (by cases h), fun _ _ => rfl⟩
    | some created =>
      obtain ⟨row, t⟩ := created
      have hmem : ∀ x, x ∈ t ↔ x = row ∨ x ∈ db.users := fun x => Table.mem_create hcreate
      have hfresh := Table.create_fresh hcreate
      refine ⟨fun row' hrow' => ?_, fun e he => by cases he⟩
      obtain rfl : row = row' := Except.ok.inj hrow'
      refine ⟨⟨?_, hfresh, fun hid => Table.create_later hcreate hid, fun x hx => ?_⟩,
        ?_⟩
      · rcases Table.eq_of_create hcreate with he | he
        · exact ⟨u.id, he⟩
        · exact ⟨_, he⟩
      · rcases Table.eq_or_apart ((hmem x).mpr (Or.inr hx)) ((hmem row).mpr (Or.inl rfl)) with he | he
        · exact absurd (congrArg User.id he) (hfresh x hx)
        · exact he.2
      · ext v
        constructor
        · rintro ⟨x, hx, rfl⟩
          rcases (hmem x).mp hx with rfl | hx
          · exact Set.mem_insert _ _
          · exact Set.mem_insert_of_mem _ (mem_cores hx)
        · rintro (rfl | ⟨x, hx, rfl⟩)
          · exact ⟨row, (hmem row).mpr (Or.inl rfl), rfl⟩
          · exact ⟨x, (hmem x).mpr (Or.inr hx), rfl⟩
  · exact ⟨fun row h => (by cases h), fun _ _ => rfl⟩

/-! ### Writing an account -/

theorem hashPassword_fields {ctx : Ctx} {user newUser : User} {updatePassword : Bool}
    (h : user.hashPassword ctx updatePassword = .ok newUser) :
    ∃ password, newUser = { user with password := password } ∧
      (updatePassword = false → password = user.password) := by
  unfold User.hashPassword at h
  split at h
  · rename_i hupdate
    split at h
    · rename_i hash _
      exact ⟨hash, (Except.ok.inj h).symm, fun hf => absurd hupdate (by rw [hf]; exact Bool.false_ne_true)⟩
    · cases h
  · exact ⟨user.password, (Except.ok.inj h).symm, fun _ => rfl⟩

theorem firstAndUpdates_cores (newUser : User) {f g : User → User} {db : DB}
    (hg : ∀ row ∈ db.users, row.live = true → row.id = newUser.id → (f row).core = (g row).core) :
    Sat (newUser.firstAndUpdates f) (fun _ db' =>
      cores db' = cores db ∨ cores db' = (Change.editId newUser.id g).cores db) db := by
  unfold User.firstAndUpdates
  refine (newUser.first_sat false _ db).bind ?_
  intro r db₁ hr
  obtain ⟨rfl, hr⟩ := hr
  have hid : r.2.id = newUser.id := by
    rcases hr with ⟨e, rfl⟩ | ⟨row, -, rfl, -, hrow, -⟩
    · rfl
    · exact beq_iff_eq.mp hrow
  obtain ⟨err, user⟩ := r
  dsimp only at hid ⊢
  split
  · exact Sat.pure (Or.inl rfl)
  · refine Sat.perform fun r db₂ h => ?_
    rw [hid] at h
    have hcores := cores_userUpdates (g := g)
      (fun row hrow hlive hp => hg row hrow hlive (beq_iff_eq.mp hp)) h
    cases r <;> exact Sat.pure hcores

/-- `User.Update`: the row becomes what `g` makes of it, if the overlay of the
struct does. -/
theorem update_cores {user : User} {g : User → User} {db : DB} (ctx : Ctx) (updatePassword : Bool)
    (hg : ∀ row ∈ db.users, row.live = true → row.id = user.id → ∀ newUser,
      user.hashPassword ctx updatePassword = .ok newUser →
        (row.overlay newUser).core = (g row).core) :
    Sat (user.update ctx updatePassword) (fun _ db' =>
      cores db' = cores db ∨ cores db' = (Change.editId user.id g).cores db) db := by
  unfold User.update
  cases hhash : user.hashPassword ctx updatePassword with
  | error e => exact Sat.pure (Or.inl rfl)
  | ok newUser =>
    obtain ⟨password, rfl, -⟩ := hashPassword_fields hhash
    exact firstAndUpdates_cores { user with password := password }
      fun row hrow hlive hid => hg row hrow hlive hid _ hhash

/-- An update whose overlay changes no core. -/
theorem update_keeps_cores {user : User} {db : DB} (ctx : Ctx)
    (h : ∀ row ∈ db.users, row.live = true → row.id = user.id →
      (row.overlay user).core = row.core) :
    Sat (user.update ctx false) (fun _ db' => cores db' = cores db) db := by
  refine Prog.Holds.mono (update_cores (g := id) ctx false ?_) fun _ db' hcores => ?_
  · intro row hrow hlive hid newUser hhash
    obtain rfl : user = newUser := Except.ok.inj hhash
    exact h row hrow hlive hid
  · rcases hcores with hcores | hcores
    · exact hcores
    · exact hcores.trans (cores_edit_of_core fun _ _ _ _ => rfl)

/-! ### What is written in passing -/

theorem setSetting_eq (env : Env) (user : User) (setting : UserSetting) :
    ∃ text, user.setSetting env setting = { user with setting := text } := by
  unfold User.setSetting
  split
  · exact ⟨_, rfl⟩
  · exact ⟨user.setting, rfl⟩

/-- Overlaying a row with itself, but for the settings and with or without the
password, changes no core. -/
theorem overlay_setting_core (row : User) (password text : String)
    (h : password = row.password ∨ password = "") :
    (row.overlay { row with password := password, setting := text }).core = row.core := by
  rcases h with rfl | rfl <;> simp [User.overlay, User.core]

/-- A row that was read and is written back with other settings. -/
theorem setSetting_update_cores (env : Env) (ctx : Ctx) {user row : User} {db : DB}
    (hrow : row ∈ db.users) (huser : user = row ∨ user = row.omitPassword) (setting : UserSetting) :
    Sat ((user.setSetting env setting).update ctx false) (fun _ db' => cores db' = cores db) db := by
  obtain ⟨text, htext⟩ := setSetting_eq env user setting
  rw [htext]
  have hid : user.id = row.id := by
    rcases huser with rfl | rfl <;> rfl
  refine update_keeps_cores ctx fun x hx _ hxid => ?_
  rw [Table.eq_of_key hx hrow (hxid.trans hid)]
  rcases huser with rfl | rfl
  · exact overlay_setting_core user user.password text (Or.inl rfl)
  · exact overlay_setting_core row "" text (Or.inr rfl)

theorem initSidebar_cores (env : Env) (ctx : Ctx) (username : String) (db : DB) :
    Sat (initSidebar env ctx username) (fun _ db' => cores db' = cores db) db := by
  unfold initSidebar
  refine Sat.perform fun r db₁ h => ?_
  obtain ⟨rfl, ⟨row, hrow, -, -, rfl⟩ | ⟨e, rfl⟩⟩ := h.userFirst
  · dsimp only
    refine (setSetting_update_cores env ctx hrow (Or.inl rfl) _).bind ?_
    intro _ db₂ hcores
    exact Sat.pure hcores
  · exact Sat.pure rfl

theorem increaseUserQuota_cores (id quota : Int) (db : DB) :
    Sat (increaseUserQuota id quota) (fun _ db' => cores db' = cores db) db := by
  unfold increaseUserQuota
  split
  · exact Sat.pure rfl
  · refine Sat.perform fun r db' h => Sat.pure ?_
    rcases cores_userUpdates (f := fun u => { u with quota := u.quota + quota }) (g := fun u => u)
      (fun _ _ _ _ => rfl) h with hcores | hcores
    · exact hcores
    · exact hcores.trans (cores_edit_of_core fun _ _ _ _ => rfl)

theorem inviteUser_cores (env : Env) (inviterId : Int) (db : DB) :
    Sat (inviteUser env inviterId) (fun _ db' => cores db' = cores db) db := by
  unfold inviteUser
  refine (getUserById_sat inviterId true db).bind ?_
  rintro r db₁ ⟨rfl, hr⟩
  cases r with
  | error e => exact Sat.pure rfl
  | ok user =>
    obtain ⟨row, hrow, -, -, huser⟩ := hr user rfl
    rw [if_pos rfl] at huser
    dsimp only
    refine Sat.perform fun r db₂ h => Sat.pure ?_
    refine cores_userSave hrow ?_ ?_ h
    · rw [← huser]
    · rw [← huser]
      rfl

theorem rewardInvitee_cores (env : Env) (id : Int) (db : DB) :
    Sat (rewardInvitee env id) (fun _ db' => cores db' = cores db) db := by
  unfold rewardInvitee
  split
  · refine (increaseUserQuota_cores id _ db).bind ?_
    intro _ db' hcores
    exact Sat.pure hcores
  · exact Sat.pure rfl

theorem rewardInviter_cores (env : Env) (inviterId : Int) (db : DB) :
    Sat (rewardInviter env inviterId) (fun _ db' => cores db' = cores db) db := by
  unfold rewardInviter
  split
  · exact inviteUser_cores env inviterId db
  · exact Sat.pure rfl

/-! ### A new account -/

theorem toInsert_eq (env : Env) (ctx : Ctx) (user : User) :
    ∃ text, user.toInsert env ctx = { user with
      quota := env.cfg.quotaForNewUser, affCode := ctx.randomString, setting := text } := by
  unfold User.toInsert
  dsimp only
  split
  · exact setSetting_eq env _ _
  · exact ⟨user.setting, rfl⟩

/-- **What `User.Insert` makes of the accounts**: nothing, when it fails, and one
new account otherwise. -/
theorem insert_cores (env : Env) (ctx : Ctx) (user : User) (inviterId : Int) (db : DB) :
    Sat (user.insert env ctx inviterId) (fun r db' =>
      (∃ e, r.1 = some e ∧ cores db' = cores db) ∨
      r.1 = none ∧ ∃ newUser, user.hashPassword ctx (user.password != "") = .ok newUser ∧
        IsNew db (newUser.toInsert env ctx) r.2 ∧ cores db' = (Change.create r.2).cores db) db := by
  unfold User.insert
  cases hhash : user.hashPassword ctx (user.password != "") with
  | error e => exact Sat.pure (Or.inl ⟨e, rfl, rfl⟩)
  | ok newUser =>
    refine Sat.perform fun r db₁ h => ?_
    obtain ⟨hok, herror⟩ := userCreate_new h
    cases r with
    | error e => exact Sat.pure (Or.inl ⟨e, rfl, cores_congr (congrArg DB.users (herror e rfl))⟩)
    | ok row =>
      obtain ⟨hnew, hcores⟩ := hok row rfl
      refine (initSidebar_cores env ctx newUser.username db₁).bind ?_
      intro _ db₂ h₂
      have hdone : ∀ db', cores db' = cores db₂ → cores db' = (Change.create row).cores db :=
        fun db' h => h.trans (h₂.trans hcores)
      by_cases hinviter : inviterId ≠ 0
      · rw [if_pos hinviter]
        refine (rewardInvitee_cores env (show User from row).id db₂).bind ?_
        intro _ db₃ h₃
        refine (rewardInviter_cores env inviterId db₃).bind ?_
        intro _ db₄ h₄
        exact Sat.pure (Or.inr ⟨rfl, newUser, rfl, hnew, hdone db₄ (h₄.trans h₃)⟩)
      · rw [if_neg hinviter]
        exact Sat.pure (Or.inr ⟨rfl, newUser, rfl, hnew, hdone db₂ rfl⟩)

end AuthGateway.Model
