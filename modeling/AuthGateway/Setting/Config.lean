import AuthGateway.Lib.GoString
import AuthGateway.Common.Json

/-!
# setting/config and the modules registered with it

A module is the struct that was registered, field by field under its JSON key.
`FieldValue.parse` is how `updateConfigFromMap` reads a text for a field; the
text is parsed for the type of the value that is there.
-/

namespace AuthGateway.Setting

open Common GoString

/-- The value of an exported field, by the kind of its type. -/
inductive FieldValue
  | string (s : String)
  | bool (b : Bool)
  | int (n : Int)
  /-- A `float64`, by its bits. -/
  | float (bits : BitVec 64)
  /-- A slice or a map of the Go type that is named. -/
  | json (goType : String) (value : Json)

/-- What the standard library reads in a text. -/
structure Formats where
  /-- `strconv.ParseFloat`. -/
  parseFloat : String → Option (BitVec 64)
  /-- `json.Unmarshal` into a zero value of a Go type. -/
  unmarshal : (goType text : String) → Option Json

/-- The value that a text has for a field of this type, if it has one. -/
def FieldValue.parse (formats : Formats) (text : String) : FieldValue → Option FieldValue
  | .string _ => some (.string text)
  | .bool _ => (parseBool text).map .bool
  | .int _ =>
    match atoi text with
    | (n, none) => some (.int n)
    | (_, some _) => none
  | .float _ => (formats.parseFloat text).map .float
  | .json goType _ => (formats.unmarshal goType text).map (.json goType)

structure ConfigModule where
  name : String
  fields : List (String × FieldValue)

/-- The value of a field, by its JSON key. -/
def ConfigModule.field? (m : ConfigModule) (key : String) : Option FieldValue := m.fields.lookup key

/-! ### The registered modules, with their defaults -/

def defaultDiscordSettings : ConfigModule where
  name := "discord"
  fields := [("enabled", .bool false), ("client_id", .string ""), ("client_secret", .string "")]

def defaultFetchSetting : ConfigModule where
  name := "fetch_setting"
  fields :=
    [("enable_ssrf_protection", .bool true), ("allow_private_ip", .bool false),
      ("domain_filter_mode", .bool false), ("ip_filter_mode", .bool false),
      ("domain_list", .json "[]string" (.arr [])), ("ip_list", .json "[]string" (.arr [])),
      ("allowed_ports",
        .json "[]string" (.arr [.str "80", .str "443", .str "8080", .str "8443"])),
      ("apply_ip_filter_for_domain", .bool false)]

def defaultLegalSettings : ConfigModule where
  name := "legal"
  fields := [("user_agreement", .string ""), ("privacy_policy", .string "")]

def defaultOIDCSettings : ConfigModule where
  name := "oidc"
  fields :=
    [("enabled", .bool false), ("client_id", .string ""), ("client_secret", .string ""),
      ("well_known", .string ""), ("authorization_endpoint", .string ""),
      ("token_endpoint", .string ""), ("user_info_endpoint", .string "")]

/-- `RPDisplayName` is `common.SystemName` as it was initialised. -/
def defaultPasskeySettings : ConfigModule where
  name := "passkey"
  fields :=
    [("enabled", .bool false), ("rp_display_name", .string "Auth Gateway"), ("rp_id", .string ""),
      ("origins", .string ""), ("allow_insecure_origin", .bool false),
      ("user_verification", .string "preferred"), ("attachment_preference", .string "")]

def generalSetting : ConfigModule where
  name := "general_setting"
  fields :=
    [("docs_link", .string ""), ("ping_interval_enabled", .bool false),
      ("ping_interval_seconds", .int 60), ("quota_display_type", .string "USD"),
      ("custom_currency_symbol", .string "¤"),
      ("custom_currency_exchange_rate", .float 0x3FF0000000000000#64)]

def monitorSetting : ConfigModule where
  name := "monitor_setting"
  fields :=
    [("auto_test_channel_enabled", .bool false),
      ("auto_test_channel_minutes", .float 0x4024000000000000#64)]

def paymentSetting : ConfigModule where
  name := "payment_setting"
  fields :=
    [("amount_options",
        .json "[]int" (.arr [.num 10, .num 20, .num 50, .num 100, .num 200, .num 500])),
      ("amount_discount", .json "map[int]float64" (.obj []))]

def quotaSetting : ConfigModule where
  name := "quota_setting"
  fields := [("enable_free_model_pre_consume", .bool true)]

/-- What `config.GlobalConfig` holds when every `init` has run. -/
def globalConfig : List ConfigModule :=
  [defaultDiscordSettings, defaultFetchSetting, defaultLegalSettings, defaultOIDCSettings,
    defaultPasskeySettings, generalSetting, monitorSetting, paymentSetting, quotaSetting]

/-- `GlobalConfig.Get`, and a field of what it returns. -/
def field? (modules : List ConfigModule) (name key : String) : Option FieldValue :=
  (modules.find? fun m => m.name == name).bind fun m => m.field? key

/-! ### Writing a field -/

/-- An assignment to a field of the struct. -/
def ConfigModule.setField (m : ConfigModule) (key : String) (value : FieldValue) : ConfigModule :=
  { m with fields := m.fields.map fun f => if f.1 = key then (f.1, value) else f }

def setField (modules : List ConfigModule) (name key : String) (value : FieldValue) :
    List ConfigModule :=
  modules.map fun m => if m.name = name then m.setField key value else m

theorem ConfigModule.field?_setField (m : ConfigModule) (key : String) (value : FieldValue)
    (k : String) : (m.setField key value).field? k
      = if k = key then (m.field? k).map fun _ => value else m.field? k := by
  unfold ConfigModule.setField ConfigModule.field?
  induction m.fields with
  | nil => simp
  | cons f fields ih =>
    obtain ⟨key', value'⟩ := f
    by_cases hk : k = key'
    · subst hk
      by_cases hkey : k = key <;> simp [hkey]
    · have hne : (k == key') = false := beq_false_of_ne hk
      by_cases hkey : key' = key
      · subst hkey
        simpa [List.lookup_cons, hne] using ih
      · simpa [List.lookup_cons, hne, hkey] using ih

/-- A field that is written has the value; the others have what they had. -/
theorem field?_setField (modules : List ConfigModule) (name key : String) (value : FieldValue)
    (k : String) : field? (setField modules name key value) name k
      = if k = key then (field? modules name k).map fun _ => value else field? modules name k := by
  have hname : ((fun m : ConfigModule => m.name == name) ∘
      fun m => if m.name = name then m.setField key value else m) = fun m => m.name == name := by
    funext m
    by_cases h : m.name = name <;> simp [h, ConfigModule.setField]
  unfold field? setField
  rw [List.find?_map, hname]
  cases hfind : modules.find? fun m => m.name == name with
  | none => simp
  | some m =>
    have hm : m.name = name := by simpa using List.find?_some hfind
    simp [hm, ConfigModule.field?_setField]

end AuthGateway.Setting
