import AuthGateway.Lib.JsonText
import AuthGateway.Model.User

/-!
# dto/user_settings.go

The JSON of the settings of an account.  Every field but the priority of Gotify
has `omitempty`: an empty value is left out of the object, and a member that is
not there leaves its field empty, so nothing is lost (`ofMembers_members`).
-/

namespace AuthGateway

open JsonText Model

namespace UserSetting

/-- A field with `omitempty`. -/
def omitEmpty {α : Type} [DecidableEq α] (key : String) (empty : α) (f : α → Scalar) (v : α) :
    Members := if v = empty then [] else [(key, f v)]

def members (s : UserSetting) : Members :=
  List.flatten
    [omitEmpty "notify_type" "" .str s.notifyType,
      omitEmpty "quota_warning_threshold" 0 .num s.quotaWarningThreshold,
      omitEmpty "webhook_url" "" .str s.webhookUrl,
      omitEmpty "webhook_secret" "" .str s.webhookSecret,
      omitEmpty "notification_email" "" .str s.notificationEmail,
      omitEmpty "bark_url" "" .str s.barkUrl,
      omitEmpty "gotify_url" "" .str s.gotifyUrl,
      omitEmpty "gotify_token" "" .str s.gotifyToken,
      [("gotify_priority", .num s.gotifyPriority)],
      omitEmpty "accept_unset_model_ratio_model" false .bool s.acceptUnsetRatioModel,
      omitEmpty "record_ip_log" false .bool s.recordIpLog,
      omitEmpty "sidebar_modules" "" .str s.sidebarModules]

def textOf (ms : Members) (key : String) : String :=
  match ms.lookup key with
  | some (.str s) => s
  | _ => ""

def numberOf (ms : Members) (key : String) : Rat :=
  match ms.lookup key with
  | some (.num q) => q
  | _ => 0

def switchOf (ms : Members) (key : String) : Bool :=
  match ms.lookup key with
  | some (.bool b) => b
  | _ => false

/-- What an object leaves in an empty struct. -/
def ofMembers (ms : Members) : UserSetting where
  notifyType := textOf ms "notify_type"
  quotaWarningThreshold := numberOf ms "quota_warning_threshold"
  webhookUrl := textOf ms "webhook_url"
  webhookSecret := textOf ms "webhook_secret"
  notificationEmail := textOf ms "notification_email"
  barkUrl := textOf ms "bark_url"
  gotifyUrl := textOf ms "gotify_url"
  gotifyToken := textOf ms "gotify_token"
  gotifyPriority := (numberOf ms "gotify_priority").num
  acceptUnsetRatioModel := switchOf ms "accept_unset_model_ratio_model"
  recordIpLog := switchOf ms "record_ip_log"
  sidebarModules := textOf ms "sidebar_modules"

/-! ### Reading what was written -/

/-- The member with a key: the value of its own field, unless that is empty. -/
theorem lookup_omitEmpty {α : Type} [DecidableEq α] (key name : String) (empty v : α)
    (f : α → Scalar) (l : List Members) : (omitEmpty name empty f v :: l).flatten.lookup key
      = if key = name ∧ v ≠ empty then some (f v) else l.flatten.lookup key := by
  unfold omitEmpty
  by_cases hv : v = empty
  · simp [hv]
  · by_cases hkey : key = name
    · simp [hv, hkey]
    · have hne : (key == name) = false := by simp [hkey]
      simp [hv, hkey, List.lookup_cons, hne]

theorem lookup_member (key name : String) (v : Scalar) (l : List Members) :
    ([(name, v)] :: l).flatten.lookup key
      = if key = name then some v else l.flatten.lookup key := by
  by_cases hkey : key = name
  · simp [hkey]
  · have hne : (key == name) = false := by simp [hkey]
    simp [hkey, List.lookup_cons, hne]

theorem textOf_eq {ms : Members} {key v : String}
    (h : ms.lookup key = if v = "" then none else some (.str v)) : textOf ms key = v := by
  unfold textOf
  by_cases hv : v = ""
  · simp [h, hv]
  · simp [h, hv]

theorem numberOf_eq {ms : Members} {key : String} {v : Rat}
    (h : ms.lookup key = if v = 0 then none else some (.num v)) : numberOf ms key = v := by
  unfold numberOf
  by_cases hv : v = 0
  · simp [h, hv]
  · simp [h, hv]

theorem switchOf_eq {ms : Members} {key : String} {v : Bool}
    (h : ms.lookup key = if v = true then some (.bool v) else none) : switchOf ms key = v := by
  unfold switchOf
  cases v with
  | true => simp [h]
  | false => simp [h]

/-- **No setting is lost on the way to JSON and back.** -/
theorem ofMembers_members (s : UserSetting) : ofMembers s.members = s := by
  have hpriority : numberOf s.members "gotify_priority" = s.gotifyPriority := by
    simp [numberOf, members, lookup_omitEmpty, lookup_member, -List.flatten_cons]
  cases s
  simp only [ofMembers, hpriority, mk.injEq]
  refine ⟨textOf_eq ?_, numberOf_eq ?_, textOf_eq ?_, textOf_eq ?_, textOf_eq ?_, textOf_eq ?_,
    textOf_eq ?_, textOf_eq ?_, rfl, switchOf_eq ?_, switchOf_eq ?_, textOf_eq ?_⟩
  all_goals simp [members, lookup_omitEmpty, lookup_member, -List.flatten_cons]

end UserSetting

/-! ### The library -/

/-- What the settings rely on of `encoding/json`: an object is written as a text
that is not empty, and is read back from it. -/
structure Marshals (env : Env) (write : Members → String) (read : String → Option Members) :
    Prop where
  settingToJson : ∀ s, env.settingToJson s = .ok (write s.members)
  settingOfJson : ∀ text ms, read text = some ms → env.settingOfJson text = .ofMembers ms
  read_write : ∀ s : UserSetting, read (write s.members) = some s.members
  write_ne_empty : ∀ ms, write ms ≠ ""

namespace Marshals

variable {env : Env} {write : Members → String} {read : String → Option Members}

theorem getSetting (h : Marshals env write read) {row : User} {s : UserSetting}
    (hrow : row.setting = write s.members) : User.getSetting env row = s := by
  have hne : row.setting ≠ "" := by
    rw [hrow]
    exact h.write_ne_empty _
  have hread : read row.setting = some s.members := by
    rw [hrow]
    exact h.read_write s
  rw [User.getSetting, if_neg hne, h.settingOfJson _ _ hread, UserSetting.ofMembers_members]

/-- **What is stored is a text, and is read as it was stored.** -/
theorem stored (h : Marshals env write read) (user : User) (s : UserSetting) :
    ∃ text, text ≠ "" ∧ User.setSetting env user s = { user with setting := text } ∧
      ∀ row : User, row.setting = text → User.getSetting env row = s := by
  refine ⟨write s.members, h.write_ne_empty _, ?_, fun row hrow => h.getSetting hrow⟩
  simp [User.setSetting, h.settingToJson]

end Marshals

/-- An environment with that JSON. -/
def Env.json : Env :=
  { Env.plain with
    settingToJson := fun s => .ok (JsonText.write s.members)
    settingOfJson := fun text => ((JsonText.read text).map UserSetting.ofMembers).getD {} }

theorem Env.json_marshals : Marshals Env.json JsonText.write JsonText.read where
  settingToJson _ := rfl
  settingOfJson text ms h := by simp [Env.json, h]
  read_write s := JsonText.read_write s.members
  write_ne_empty := JsonText.write_ne_empty

end AuthGateway
