import AuthGateway.Lib.JsonAny
import AuthGateway.Model.Option

/-!
# controller/console_migrate.go

The old keys of the console become keys of `console_setting`.  A decoded slice is `none` where
it is nil, and so is a decoded map.
-/

namespace AuthGateway.Controller

open Common Model

/-! ### Decoded arrays -/

/-- A `map[string]interface{}`, in the order of its keys. -/
abbrev ConsoleItem : Type := Option (List (String × JsonTree))

namespace ConsoleItem

def toTree : ConsoleItem → JsonTree
  | none => .null
  | some members => .obj members

/-- `item[name].(string)`, and the zero value if it is no string. -/
def text (item : ConsoleItem) (name : String) : String :=
  match item.bind (List.lookup name) with
  | some (.str s) => s
  | _ => ""

def question (item : ConsoleItem) : String :=
  if item.text "question" = "" then item.text "title" else item.text "question"

def answer (item : ConsoleItem) : String :=
  if item.text "answer" = "" then item.text "content" else item.text "answer"

end ConsoleItem

def marshalItems : Option (List ConsoleItem) → String
  | none => JsonTree.null.toText
  | some items => (JsonTree.arr (items.map ConsoleItem.toTree)).toText

section
variable (lib : GoLibrary)

/-- A document in a map that is nil; `none` is a type error. -/
def consoleItem : JsonTree → Option ConsoleItem
  | .null => some none
  | .obj members => (JsonTree.plainMembers lib members).map fun ms => some (JsonTree.sortMembers ms)
  | _ => none

/-- `json.Unmarshal` into a `[]map[string]interface{}` that is nil; `none` is its error. -/
def unmarshalItems (text : String) : Option (Option (List ConsoleItem)) :=
  match JsonTree.document text with
  | some .null => some none
  | some (.arr trees) => (convertAll (consoleItem lib) trees).map some
  | _ => none

/-! ### The old keys -/

def migrateApiInfo (v : String) (p : Process) : Process :=
  if v = "" then p
  else
    let p := match unmarshalItems lib v with
      | some arr =>
        Model.updateOption "console_setting.api_info" (marshalItems (arr.map (List.take 50))) p
      | none => p
    Model.updateOption "ApiInfo" "" p

def migrateAnnouncements (v : String) (p : Process) : Process :=
  if v = "" then p
  else
    let p := Model.updateOption "console_setting.announcements" v p
    Model.updateOption "Announcements" "" p

/-- The items of the new form; one without a question or without an answer is left out. -/
def convertFAQ (items : List ConsoleItem) : List ConsoleItem :=
  items.filterMap fun item =>
    if item.question ≠ "" ∧ item.answer ≠ "" then
      some (some [("answer", .str item.answer), ("question", .str item.question)])
    else none

def migrateFAQ (v : String) (p : Process) : Process :=
  if v = "" then p
  else
    let p := match unmarshalItems lib v with
      | some arr =>
        Model.updateOption "console_setting.faq"
          (marshalItems (some ((convertFAQ (arr.getD [])).take 50))) p
      | none => p
    Model.updateOption "FAQ" "" p

/-- The one group that a URL and a slug become. -/
def uptimeGroup (url slug : String) : ConsoleItem :=
  some [("categoryName", .str "old"), ("description", .str ""), ("id", .num "1"),
    ("slug", .str slug), ("url", .str url)]

def migrateUptimeKuma (url slug : String) (p : Process) : Process :=
  let p := if url ≠ "" ∧ slug ≠ "" then
      Model.updateOption "console_setting.uptime_kuma_groups"
        (marshalItems (some [uptimeGroup url slug])) p
    else p
  let p := if url ≠ "" then Model.updateOption "UptimeKumaUrl" "" p else p
  if slug ≠ "" then Model.updateOption "UptimeKumaSlug" "" p else p

/-! ### MigrateConsoleSetting -/

def oldKeys : List String :=
  ["ApiInfo", "Announcements", "FAQ", "UptimeKumaUrl", "UptimeKumaSlug"]

/-- `DB.Where("key IN ?", keys).Delete(&Option{})`; the error is dropped. -/
def deleteOptions (keys : List String) (s : OptionStore) : OptionStore where
  table := if s.outages 0 = none then keys.foldl (fun t key => t.erase key) s.table else s.table
  outages n := s.outages (n + 1)

def valMap (opts : List (Σ _ : String, String)) : String → String :=
  opts.foldl (fun valMap o => Function.update valMap o.1 o.2) fun _ => ""

def migrateConsoleSetting (p : Process) : Reply × Process :=
  match (performOption .all).run OptionStore.exec p.options with
  | (.error e, store) => (.json 500 false e.error none, ⟨p.settings, store⟩)
  | (.ok opts, store) =>
    let valMap := valMap (show List (Σ _ : String, String) from opts)
    let p := migrateApiInfo lib (valMap "ApiInfo") ⟨p.settings, store⟩
    let p := migrateAnnouncements (valMap "Announcements") p
    let p := migrateFAQ lib (valMap "FAQ") p
    let p := migrateUptimeKuma (valMap "UptimeKumaUrl") (valMap "UptimeKumaSlug") p
    (.done "migrated", initOptionMap ⟨p.settings, deleteOptions oldKeys p.options⟩)

end

end AuthGateway.Controller
