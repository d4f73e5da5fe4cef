import AuthGateway.Lib.Float64
import AuthGateway.Model.Option

/-!
# controller/option.go

The value of a request comes decoded; a number is the text that `%f` prints.
-/

namespace AuthGateway.Controller

open Common GoString Model Setting

/-! ### GetOptions -/

/-- The keys that are passed over. -/
def isHidden (key : String) : Bool :=
  hasSuffix key "Token" || hasSuffix key "Secret" || hasSuffix key "Key"

/-- The options that are listed, in the order in which the map is gone through. -/
def listedOptions (order : List String) (optionMap : String → Option String) : List OptionRow :=
  order.filterMap fun k =>
    if isHidden k then none else (optionMap k).map fun v => { key := k, value := v }

def getOptions (order : List String) (s : Settings) : Reply :=
  let options := listedOptions order s.optionMap
  .json 200 true "" (some (if options.isEmpty then .null
    else .arr (options.map fun o => .obj [("key", .str o.key), ("value", .str o.value)])))

/-! ### UpdateOption -/

/-- A decoded JSON value. -/
inductive OptionValue
  | bool (b : Bool)
  | float64 (printed : String)
  | string (s : String)
  | null
  /-- An array or an object, as `%v` prints it. -/
  | other (printed : String)

/-- `common.Interface2String` and `fmt.Sprintf("%v", …)`. -/
def OptionValue.print : OptionValue → String
  | bool b => if b then "true" else "false"
  | float64 printed => printed
  | string s => s
  | null => "<nil>"
  | other printed => printed

/-- A JSON number in a field of type `any`, if it is in range. -/
def OptionValue.ofNumber (l : Float64.Literal) : Option OptionValue :=
  (Float64.parse l).map fun x => .float64 (String.ofList (Float64.format x.1 x.2))

structure OptionUpdateRequest where
  key : String
  value : OptionValue

/-- A field of a module that is a string. -/
def textField (s : Settings) (name key : String) : String :=
  match field? s.modules name key with
  | some (.string text) => text
  | _ => ""

/-- The validation of the options that switch a login on: the refusal, if there
is one. -/
def checkOption (s : Settings) (key value : String) : Option String :=
  match key with
  | "GitHubOAuthEnabled" =>
    if value = "true" ∧ s.texts .gitHubClientId = "" then
      some "Cannot enable GitHub OAuth, please configure GitHub Client Id and Secret first!"
    else none
  | "discord.enabled" =>
    if value = "true" ∧ textField s "discord" "client_id" = "" then
      some "Cannot enable Discord OAuth, please configure Discord Client Id and Secret first!"
    else none
  | "oidc.enabled" =>
    if value = "true" ∧ textField s "oidc" "client_id" = "" then
      some "Cannot enable OIDC, please configure OIDC Client Id and Secret first!"
    else none
  | "LinuxDOOAuthEnabled" =>
    if value = "true" ∧ s.texts .linuxDOClientId = "" then
      some "Cannot enable LinuxDO OAuth, please configure LinuxDO Client Id and Secret first!"
    else none
  | "EmailDomainRestrictionEnabled" =>
    if value = "true" ∧ s.emailDomainWhitelist.length = 0 then
      some "Cannot enable email domain restriction, please configure allowed domains first!"
    else none
  | "WeChatAuthEnabled" =>
    if value = "true" ∧ s.texts .weChatServerAddress = "" then
      some "Cannot enable WeChat login, please configure WeChat settings first!"
    else none
  | "TurnstileCheckEnabled" =>
    if value = "true" ∧ s.texts .turnstileSiteKey = "" then
      some "Cannot enable Turnstile, please configure Turnstile Site Key first!"
    else none
  | "TelegramOAuthEnabled" =>
    if value = "true" ∧ s.texts .telegramBotToken = "" then
      some "Cannot enable Telegram OAuth, please configure Telegram Bot Token first!"
    else none
  | _ => none

def updateOption (req : Option OptionUpdateRequest) (p : Process) : Reply × Process :=
  match req with
  | none => (.json 400 false "Invalid parameters" none, p)
  | some option =>
    match checkOption p.settings option.key option.value.print with
    | some msg => (.failure msg, p)
    | none => (.done "", Model.updateOption option.key option.value.print p)

end AuthGateway.Controller
