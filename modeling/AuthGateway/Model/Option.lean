import AuthGateway.Lib.Replay
import AuthGateway.Model.Store
import AuthGateway.Setting.Config

/-!
# model/option.go and the variables it sets

A variable of `common` or `system_setting` is one of a `Flag`, a `Text`, a
`Number` or the whitelist, by the case of `updateOptionMap` that assigns it;
`Settings` holds their values with the option map.  The table `options` has its
own operations, as `Model.Store` has those of the accounts, and a driver that
may fail each of them.

**A setting is written under its own key and no other** (`overwrites`), so what
is known of `Lib.Replay` holds of the loader.
-/

namespace AuthGateway.Model

open Common GoString Setting Replay

/-! ### The variables -/

/-- The variables that the first switch of `updateOptionMap` assigns. -/
inductive Flag
  | passwordRegisterEnabled
  | passwordLoginEnabled
  | emailVerificationEnabled
  | gitHubOAuthEnabled
  | linuxDOOAuthEnabled
  | weChatAuthEnabled
  | telegramOAuthEnabled
  | turnstileCheckEnabled
  | registerEnabled
  | emailDomainRestrictionEnabled
  | emailAliasRestrictionEnabled
  | smtpSSLEnabled
deriving DecidableEq, Repr

namespace Flag

def key : Flag → String
  | passwordRegisterEnabled => "PasswordRegisterEnabled"
  | passwordLoginEnabled => "PasswordLoginEnabled"
  | emailVerificationEnabled => "EmailVerificationEnabled"
  | gitHubOAuthEnabled => "GitHubOAuthEnabled"
  | linuxDOOAuthEnabled => "LinuxDOOAuthEnabled"
  | weChatAuthEnabled => "WeChatAuthEnabled"
  | telegramOAuthEnabled => "TelegramOAuthEnabled"
  | turnstileCheckEnabled => "TurnstileCheckEnabled"
  | registerEnabled => "RegisterEnabled"
  | emailDomainRestrictionEnabled => "EmailDomainRestrictionEnabled"
  | emailAliasRestrictionEnabled => "EmailAliasRestrictionEnabled"
  | smtpSSLEnabled => "SMTPSSLEnabled"

def all : List Flag :=
  [passwordRegisterEnabled, passwordLoginEnabled, emailVerificationEnabled, gitHubOAuthEnabled,
    linuxDOOAuthEnabled, weChatAuthEnabled, telegramOAuthEnabled, turnstileCheckEnabled,
    registerEnabled, emailDomainRestrictionEnabled, emailAliasRestrictionEnabled, smtpSSLEnabled]

/-- `switch key`. -/
def ofKey (k : String) : Option Flag := all.find? fun f => f.key == k

theorem ofKey_eq_some {k : String} {f : Flag} (h : ofKey k = some f) : k = f.key :=
  (beq_iff_eq.mp (List.find?_some (p := fun f : Flag => f.key == k) h)).symm

theorem ofKey_key (f : Flag) : ofKey f.key = some f := by
  cases f <;> decide

theorem hasSuffix_key (f : Flag) : hasSuffix f.key "Enabled" = true := by
  cases f <;> decide

end Flag

/-- The strings that the second switch assigns. -/
inductive Text
  | smtpServer
  | smtpAccount
  | smtpFrom
  | smtpToken
  | serverAddress
  | gitHubClientId
  | gitHubClientSecret
  | linuxDOClientId
  | linuxDOClientSecret
  | footer
  | systemName
  | logo
  | weChatServerAddress
  | weChatServerToken
  | weChatAccountQRCodeImageURL
  | telegramBotToken
  | telegramBotName
  | turnstileSiteKey
  | turnstileSecretKey
deriving DecidableEq, Repr

def Text.key : Text → String
  | smtpServer => "SMTPServer"
  | smtpAccount => "SMTPAccount"
  | smtpFrom => "SMTPFrom"
  | smtpToken => "SMTPToken"
  | serverAddress => "ServerAddress"
  | gitHubClientId => "GitHubClientId"
  | gitHubClientSecret => "GitHubClientSecret"
  | linuxDOClientId => "LinuxDOClientId"
  | linuxDOClientSecret => "LinuxDOClientSecret"
  | footer => "Footer"
  | systemName => "SystemName"
  | logo => "Logo"
  | weChatServerAddress => "WeChatServerAddress"
  | weChatServerToken => "WeChatServerToken"
  | weChatAccountQRCodeImageURL => "WeChatAccountQRCodeImageURL"
  | telegramBotToken => "TelegramBotToken"
  | telegramBotName => "TelegramBotName"
  | turnstileSiteKey => "TurnstileSiteKey"
  | turnstileSecretKey => "TurnstileSecretKey"

/-- The integers. -/
inductive Number
  | smtpPort
  | linuxDOMinimumTrustLevel
  | quotaForNewUser
  | quotaForInviter
  | quotaForInvitee
deriving DecidableEq, Repr

def Number.key : Number → String
  | smtpPort => "SMTPPort"
  | linuxDOMinimumTrustLevel => "LinuxDOMinimumTrustLevel"
  | quotaForNewUser => "QuotaForNewUser"
  | quotaForInviter => "QuotaForInviter"
  | quotaForInvitee => "QuotaForInvitee"

/-- The variables that the second switch assigns. -/
inductive Assigned
  | emailDomainWhitelist
  | text (t : Text)
  | number (n : Number)
deriving DecidableEq, Repr

namespace Assigned

def key : Assigned → String
  | emailDomainWhitelist => "EmailDomainWhitelist"
  | text t => t.key
  | number n => n.key

def all : List Assigned :=
  [emailDomainWhitelist, text .smtpServer, number .smtpPort, text .smtpAccount, text .smtpFrom,
    text .smtpToken, text .serverAddress, text .gitHubClientId, text .gitHubClientSecret,
    text .linuxDOClientId, text .linuxDOClientSecret, number .linuxDOMinimumTrustLevel,
    text .footer, text .systemName, text .logo, text .weChatServerAddress, text .weChatServerToken,
    text .weChatAccountQRCodeImageURL, text .telegramBotToken, text .telegramBotName,
    text .turnstileSiteKey, text .turnstileSecretKey, number .quotaForNewUser,
    number .quotaForInviter, number .quotaForInvitee]

/-- `switch key`. -/
def ofKey (k : String) : Option Assigned := all.find? fun a => a.key == k

theorem ofKey_eq_some {k : String} {a : Assigned} (h : ofKey k = some a) : k = a.key :=
  (beq_iff_eq.mp (List.find?_some (p := fun a : Assigned => a.key == k) h)).symm

def text? : Assigned → Option Text
  | text t => some t
  | _ => none

def number? : Assigned → Option Number
  | number n => some n
  | _ => none

theorem text?_eq_some {a : Assigned} {t : Text} (h : a.text? = some t) : a = text t := by
  cases a with
  | text t' =>
    obtain rfl := Option.some.inj h
    rfl
  | _ => exact nomatch h

theorem number?_eq_some {a : Assigned} {n : Number} (h : a.number? = some n) : a = number n := by
  cases a with
  | number n' =>
    obtain rfl := Option.some.inj h
    rfl
  | _ => exact nomatch h

theorem ofKey_key (a : Assigned) : ofKey a.key = some a := by
  cases a with
  | emailDomainWhitelist => decide
  | text t => cases t <;> decide
  | number n => cases n <;> decide

end Assigned

/-- The settings of a process. -/
@[ext] structure Settings where
  flags : Flag → Bool
  texts : Text → String
  numbers : Number → Int
  emailDomainWhitelist : List String
  selfUseModeEnabled : Bool
  demoSiteEnabled : Bool
  modules : List ConfigModule
  optionMap : String → Option String

/-- The variables as they are initialised. -/
def Settings.default : Settings where
  flags
    | .passwordRegisterEnabled | .passwordLoginEnabled | .registerEnabled => true
    | _ => false
  texts
    | .serverAddress => "http://localhost:3000"
    | .systemName => "Auth Gateway"
    | _ => ""
  numbers
    | .smtpPort => 587
    | _ => 0
  emailDomainWhitelist :=
    ["gmail.com", "163.com", "126.com", "qq.com", "outlook.com", "hotmail.com", "icloud.com",
      "yahoo.com", "foxmail.com"]
  selfUseModeEnabled := false
  demoSiteEnabled := false
  modules := globalConfig
  optionMap _ := none

/-! ### updateOptionMap -/

/-- The first switch, which only keys that end in `Enabled` reach. -/
def assignFlag (key value : String) (s : Settings) : Settings :=
  if hasSuffix key "Enabled" then
    match Flag.ofKey key with
    | some f => { s with flags := Function.update s.flags f (value == "true") }
    | none => s
  else s

/-- The second switch. -/
def assignOther (key value : String) (s : Settings) : Settings :=
  match Assigned.ofKey key with
  | some .emailDomainWhitelist => { s with emailDomainWhitelist := split ',' value }
  | some (.text t) => { s with texts := Function.update s.texts t value }
  | some (.number n) => { s with numbers := Function.update s.numbers n (atoi value).1 }
  | none => s

def updateOptionMap (key value : String) (s : Settings) : Settings :=
  assignOther key value (assignFlag key value
    { s with optionMap := Function.update s.optionMap key (some value) })

section
variable (key value : String) (s : Settings)

theorem updateOptionMap_optionMap : (updateOptionMap key value s).optionMap
    = select some (fun _ v => some v) key value s.optionMap := by
  unfold updateOptionMap assignOther assignFlag
  split <;> split <;> (try split) <;> rfl

theorem updateOptionMap_modules : (updateOptionMap key value s).modules = s.modules := by
  unfold updateOptionMap assignOther assignFlag
  split <;> split <;> (try split) <;> rfl

theorem updateOptionMap_modes :
    (updateOptionMap key value s).selfUseModeEnabled = s.selfUseModeEnabled ∧
      (updateOptionMap key value s).demoSiteEnabled = s.demoSiteEnabled := by
  unfold updateOptionMap assignOther assignFlag
  split <;> split <;> (try split) <;> exact ⟨rfl, rfl⟩

theorem updateOptionMap_flags : (updateOptionMap key value s).flags
    = select Flag.ofKey (fun _ v => v == "true") key value s.flags := by
  have hother : ∀ s', (assignOther key value s').flags = s'.flags := by
    intro s'
    unfold assignOther
    split <;> rfl
  unfold updateOptionMap
  rw [hother]
  unfold assignFlag select
  cases hkey : Flag.ofKey key with
  | none => split <;> rfl
  | some f => rw [Flag.ofKey_eq_some hkey, if_pos f.hasSuffix_key]

theorem assignFlag_others :
    (assignFlag key value s).texts = s.texts ∧ (assignFlag key value s).numbers = s.numbers ∧
      (assignFlag key value s).emailDomainWhitelist = s.emailDomainWhitelist := by
  unfold assignFlag
  split <;> (try split) <;> exact ⟨rfl, rfl, rfl⟩

theorem updateOptionMap_texts : (updateOptionMap key value s).texts
    = select (fun k => (Assigned.ofKey k).bind Assigned.text?) (fun _ v => v) key value s.texts := by
  unfold updateOptionMap assignOther select
  obtain ⟨h, -, -⟩ := assignFlag_others key value
    { s with optionMap := Function.update s.optionMap key (some value) }
  dsimp only
  cases Assigned.ofKey key with
  | none => exact h
  | some a =>
    cases a with
    | emailDomainWhitelist => exact h
    | text t => exact congrArg (fun b => Function.update b t value) h
    | number n => exact h

theorem updateOptionMap_numbers : (updateOptionMap key value s).numbers
    = select (fun k => (Assigned.ofKey k).bind Assigned.number?) (fun _ v => (atoi v).1) key value
        s.numbers := by
  unfold updateOptionMap assignOther select
  obtain ⟨-, h, -⟩ := assignFlag_others key value
    { s with optionMap := Function.update s.optionMap key (some value) }
  dsimp only
  cases Assigned.ofKey key with
  | none => exact h
  | some a =>
    cases a with
    | emailDomainWhitelist => exact h
    | text t => exact h
    | number n => exact congrArg (fun b => Function.update b n (atoi value).1) h

theorem updateOptionMap_whitelist : (updateOptionMap key value s).emailDomainWhitelist
    = if Assigned.ofKey key = some .emailDomainWhitelist then split ',' value
      else s.emailDomainWhitelist := by
  unfold updateOptionMap assignOther
  obtain ⟨-, -, h⟩ := assignFlag_others key value
    { s with optionMap := Function.update s.optionMap key (some value) }
  cases Assigned.ofKey key with
  | none => exact h
  | some a =>
    cases a with
    | emailDomainWhitelist => rfl
    | text t => exact h
    | number n => exact h

theorem updateOptionMap_flag (f : Flag) : (updateOptionMap key value s).flags f
    = if key = f.key then value == "true" else s.flags f := by
  rw [updateOptionMap_flags, select]
  by_cases h : key = f.key
  · rw [if_pos h, h, Flag.ofKey_key]
    exact Function.update_self _ _ _
  · rw [if_neg h]
    cases hkey : Flag.ofKey key with
    | none => rfl
    | some f' =>
      refine Function.update_of_ne ?_ _ _
      rintro rfl
      exact h (Flag.ofKey_eq_some hkey)

theorem updateOptionMap_text (t : Text) : (updateOptionMap key value s).texts t
    = if key = t.key then value else s.texts t := by
  rw [updateOptionMap_texts, select]
  by_cases h : key = t.key
  · have hkey : Assigned.ofKey key = some (.text t) := by
      rw [h]
      exact Assigned.ofKey_key (.text t)
    rw [if_pos h, hkey]
    exact Function.update_self _ _ _
  · rw [if_neg h]
    cases hkey : (Assigned.ofKey key).bind Assigned.text? with
    | none => rfl
    | some t' =>
      obtain ⟨a, ha, hat⟩ := Option.bind_eq_some_iff.mp hkey
      refine Function.update_of_ne ?_ _ _
      rintro rfl
      cases a with
      | text t' =>
        obtain rfl := Option.some.inj hat
        exact h (Assigned.ofKey_eq_some ha)
      | emailDomainWhitelist => exact nomatch hat
      | number n => exact nomatch hat

theorem updateOptionMap_number (n : Number) :
    (updateOptionMap n.key value s).numbers n = (atoi value).1 := by
  have hkey : Assigned.ofKey n.key = some (.number n) := Assigned.ofKey_key (.number n)
  rw [updateOptionMap_numbers, select, hkey]
  exact Function.update_self _ _ _

theorem updateOptionMap_emailDomainWhitelist : (updateOptionMap key value s).emailDomainWhitelist
    = if key = Assigned.emailDomainWhitelist.key then split ',' value
      else s.emailDomainWhitelist := by
  rw [updateOptionMap_whitelist]
  by_cases h : key = Assigned.emailDomainWhitelist.key
  · rw [if_pos h, h, if_pos (Assigned.ofKey_key _)]
  · rw [if_neg h, if_neg fun hkey => h (Assigned.ofKey_eq_some hkey)]

end

/-- **A setting is written under its own key and no other.** -/
theorem overwrites : Overwrites updateOptionMap := by
  have hflags : Overwrites (select Flag.ofKey fun _ (v : String) => v == "true") :=
    overwrites_select fun h h' => (Flag.ofKey_eq_some h).trans (Flag.ofKey_eq_some h').symm
  have hkey : ∀ {A : Type} {sub : Assigned → Option A} {k k' : String} {r : A},
      (∀ a a', sub a = some r → sub a' = some r → a = a') →
        (Assigned.ofKey k).bind sub = some r → (Assigned.ofKey k').bind sub = some r → k = k' := by
    intro A sub k k' r hsub h h'
    obtain ⟨a, ha, har⟩ := Option.bind_eq_some_iff.mp h
    obtain ⟨a', ha', har'⟩ := Option.bind_eq_some_iff.mp h'
    obtain rfl := hsub a a' har har'
    exact (Assigned.ofKey_eq_some ha).trans (Assigned.ofKey_eq_some ha').symm
  have htexts : Overwrites (select (fun k => (Assigned.ofKey k).bind Assigned.text?)
      fun _ (v : String) => v) := by
    refine overwrites_select (hkey ?_)
    intro a a' h h'
    rw [Assigned.text?_eq_some h, Assigned.text?_eq_some h']
  have hnumbers : Overwrites (select (fun k => (Assigned.ofKey k).bind Assigned.number?)
      fun _ (v : String) => (atoi v).1) := by
    refine overwrites_select (hkey ?_)
    intro a a' h h'
    rw [Assigned.number?_eq_some h, Assigned.number?_eq_some h']
  have hmap : Overwrites (select (K := String) some fun _ (v : String) => some v) :=
    overwrites_select fun h h' => (Option.some.inj h).trans (Option.some.inj h').symm
  have hmodes := updateOptionMap_modes
  refine ⟨fun {k k'} hne v v' s => ?_, fun k v v' s => ?_⟩
  · ext1
    · rw [updateOptionMap_flags, updateOptionMap_flags, updateOptionMap_flags,
        updateOptionMap_flags, hflags.comm hne]
    · rw [updateOptionMap_texts, updateOptionMap_texts, updateOptionMap_texts,
        updateOptionMap_texts, htexts.comm hne]
    · rw [updateOptionMap_numbers, updateOptionMap_numbers, updateOptionMap_numbers,
        updateOptionMap_numbers, hnumbers.comm hne]
    · rw [updateOptionMap_whitelist, updateOptionMap_whitelist, updateOptionMap_whitelist,
        updateOptionMap_whitelist]
      by_cases h : Assigned.ofKey k = some .emailDomainWhitelist
      · have h' : Assigned.ofKey k' ≠ some .emailDomainWhitelist := fun h' =>
          hne ((Assigned.ofKey_eq_some h).trans (Assigned.ofKey_eq_some h').symm)
        rw [if_pos h, if_neg h', if_pos h]
      · rw [if_neg h, if_neg h]
    · rw [(hmodes _ _ _).1, (hmodes _ _ _).1, (hmodes _ _ _).1, (hmodes _ _ _).1]
    · rw [(hmodes _ _ _).2, (hmodes _ _ _).2, (hmodes _ _ _).2, (hmodes _ _ _).2]
    · rw [updateOptionMap_modules, updateOptionMap_modules, updateOptionMap_modules,
        updateOptionMap_modules]
    · rw [updateOptionMap_optionMap, updateOptionMap_optionMap, updateOptionMap_optionMap,
        updateOptionMap_optionMap, hmap.comm hne]
  · ext1
    · rw [updateOptionMap_flags, updateOptionMap_flags, updateOptionMap_flags, hflags.last]
    · rw [updateOptionMap_texts, updateOptionMap_texts, updateOptionMap_texts, htexts.last]
    · rw [updateOptionMap_numbers, updateOptionMap_numbers, updateOptionMap_numbers, hnumbers.last]
    · rw [updateOptionMap_whitelist, updateOptionMap_whitelist, updateOptionMap_whitelist]
      split <;> rfl
    · rw [(hmodes _ _ _).1, (hmodes _ _ _).1, (hmodes _ _ _).1]
    · rw [(hmodes _ _ _).2, (hmodes _ _ _).2, (hmodes _ _ _).2]
    · rw [updateOptionMap_modules, updateOptionMap_modules, updateOptionMap_modules]
    · rw [updateOptionMap_optionMap, updateOptionMap_optionMap, updateOptionMap_optionMap, hmap.last]

/-! ### The table -/

structure OptionRow where
  key : String
  value : String := ""

abbrev OptionTable : Type := AList fun _ : String => String

/-- The least key, which `ORDER BY key LIMIT 1` finds. -/
def firstKey (t : OptionTable) : Option String :=
  t.keys.find? fun k => t.keys.all fun k' => decide (k ≤ k')

/-- The statements on `options`, and the one on `setups`. -/
inductive OptionOp
  /-- The query of `FirstOrCreate`; an empty key makes no condition. -/
  | first (key : String)
  | create (option : OptionRow)
  | update (option : OptionRow)
  /-- `INSERT … ON CONFLICT UPDATE`. -/
  | upsert (option : OptionRow)
  | all
  | setupCreate

namespace OptionOp

def Ans : OptionOp → Type
  | first _ => Option OptionRow
  | update _ => Nat
  | all => List (Σ _ : String, String)
  | _ => Unit

abbrev Res (o : OptionOp) : Type := Except Err o.Ans

end OptionOp

/-- Programs over the options. -/
abbrev OM : Type → Type := Prog OptionOp OptionOp.Res

def performOption (o : OptionOp) : OM (Except Err o.Ans) := Prog.perform o

def execOption : (o : OptionOp) → OptionTable → Except Err o.Ans × OptionTable
  | .first key, t =>
    (.ok ((if key = "" then firstKey t else some key).bind fun k =>
      (t.lookup k).map fun v => { key := k, value := v }), t)
  | .create option, t =>
    if option.key ∈ t then (.error uniqueViolation, t)
    else (.ok (), t.insert option.key option.value)
  | .update option, t =>
    if option.key ∈ t then (.ok (1 : Nat), t.insert option.key option.value) else (.ok (0 : Nat), t)
  | .upsert option, t => (.ok (), t.insert option.key option.value)
  | .all, t => (.ok t.entries, t)
  | .setupCreate, t => (.ok (), t)

/-- The table behind a driver that may fail. -/
structure OptionStore where
  table : OptionTable
  outages : Nat → Option Err

def OptionStore.exec (o : OptionOp) (s : OptionStore) : Except Err o.Ans × OptionStore :=
  match s.outages 0 with
  | some e => (.error e, ⟨s.table, fun n => s.outages (n + 1)⟩)
  | none => ((execOption o s.table).1, ⟨(execOption o s.table).2, fun n => s.outages (n + 1)⟩)

/-- The driver works throughout. -/
def OptionStore.Up (s : OptionStore) : Prop := ∀ n, s.outages n = none

/-- On a table in order, the statements do what they do. -/
theorem OptionStore.run_up {α : Type} (p : OM α) {s : OptionStore} (h : s.Up) :
    (p.run OptionStore.exec s).1 = (p.run execOption s.table).1 ∧
      (p.run OptionStore.exec s).2.table = (p.run execOption s.table).2 ∧
      (p.run OptionStore.exec s).2.Up := by
  induction p generalizing s with
  | ret a => exact ⟨rfl, rfl, h⟩
  | call o k ih =>
    have hexec : s.exec o
        = ((execOption o s.table).1, ⟨(execOption o s.table).2, fun n => s.outages (n + 1)⟩) := by
      unfold OptionStore.exec
      rw [h 0]
    rw [Prog.run_call, Prog.run_call, hexec]
    exact ih _ fun n => h (n + 1)

/-! ### UpdateOption -/

/-- `DB.FirstOrCreate(&option, Option{Key: key})`; the error is dropped. -/
def firstOrCreate (key : String) : OM OptionRow := do
  match ← performOption (.first key) with
  | .error _ => return { key := key }
  | .ok found =>
    match (show Option OptionRow from found) with
    | some option => return option
    | none =>
      let _ ← performOption (.create { key := key })
      return { key := key }

/-- `DB.Save(&option)`, an insert when the primary key is zero; the error is
dropped. -/
def saveOption (option : OptionRow) : OM Unit := do
  if option.key = "" then
    let _ ← performOption (.create option)
    return ()
  match ← performOption (.update option) with
  | .error _ => return ()
  | .ok rowsAffected =>
    if (show Nat from rowsAffected) = 0 then
      let _ ← performOption (.upsert option)
      return ()

/-- The two statements of `UpdateOption`. -/
def storeOption (key value : String) : OM Unit := do
  let option ← firstOrCreate key
  saveOption { option with value := value }

/-- The options of a process: what it holds in memory, and the table. -/
structure Process where
  settings : Settings
  options : OptionStore

/-- `UpdateOption` answers nil whatever the database did. -/
def updateOption (key value : String) (p : Process) : Process where
  settings := updateOptionMap key value p.settings
  options := ((storeOption key value).run OptionStore.exec p.options).2

/-- **An option of a non-empty key is stored**, on a table in order. -/
theorem run_storeOption {key : String} (hkey : key ≠ "") (value : String) (t : OptionTable) :
    ((storeOption key value).run execOption t).2 = t.insert key value := by
  have hsave : ∀ t : OptionTable, key ∈ t →
      ((saveOption { key := key, value := value }).run execOption t).2 = t.insert key value := by
    intro t ht
    have hupdate : execOption (.update { key := key, value := value }) t
        = (.ok (1 : Nat), t.insert key value) := if_pos ht
    unfold saveOption
    rw [if_neg hkey, Prog.run_bind, performOption, Prog.run_perform, hupdate]
    rfl
  have hfirst : (execOption (.first key) t).1
      = .ok ((t.lookup key).map fun v => { key := key, value := v }) := by
    simp only [execOption, if_neg hkey, Option.bind_some]
  unfold storeOption firstOrCreate
  rw [Prog.run_bind, Prog.run_bind, performOption, Prog.run_perform, hfirst]
  cases hlookup : t.lookup key with
  | some v => exact hsave t (AList.lookup_isSome.mp (Option.isSome_of_eq_some hlookup))
  | none =>
    have hnot : key ∉ t := AList.lookup_eq_none.mp hlookup
    have hcreate : execOption (.create { key := key }) t = (.ok (), t.insert key "") := if_neg hnot
    have hmem : key ∈ t.insert key "" := (AList.mem_insert t).mpr (Or.inl rfl)
    have hrun := hsave (t.insert key "") hmem
    rw [AList.insert_insert] at hrun
    show ((saveOption { key := key, value := value }).run execOption
      (execOption (.create { key := key }) t).2).2 = t.insert key value
    rw [hcreate]
    exact hrun

/-! ### InitOptionMap and the loader -/

/-- What `InitOptionMap` puts into the map before it loads the table. -/
def initialOptions (s : Settings) : List (String × String) :=
  let formatBool (f : Flag) : String × String := (f.key, if s.flags f then "true" else "false")
  let itoa (n : Number) : String × String := (n.key, toString (s.numbers n))
  [formatBool .passwordLoginEnabled, formatBool .passwordRegisterEnabled,
    formatBool .emailVerificationEnabled, formatBool .gitHubOAuthEnabled,
    formatBool .linuxDOOAuthEnabled, formatBool .telegramOAuthEnabled,
    formatBool .weChatAuthEnabled, formatBool .turnstileCheckEnabled, formatBool .registerEnabled,
    formatBool .emailDomainRestrictionEnabled, formatBool .emailAliasRestrictionEnabled,
    ("EmailDomainWhitelist", ",".intercalate s.emailDomainWhitelist),
    ("SMTPServer", ""), ("SMTPFrom", ""), itoa .smtpPort, ("SMTPAccount", ""), ("SMTPToken", ""),
    formatBool .smtpSSLEnabled,
    ("Notice", ""), ("About", ""), ("HomePageContent", ""), ("Footer", s.texts .footer),
    ("SystemName", s.texts .systemName), ("Logo", s.texts .logo), ("ServerAddress", ""),
    ("GitHubClientId", ""), ("GitHubClientSecret", ""), ("TelegramBotToken", ""),
    ("TelegramBotName", ""), ("WeChatServerAddress", ""), ("WeChatServerToken", ""),
    ("WeChatAccountQRCodeImageURL", ""), ("TurnstileSiteKey", ""), ("TurnstileSecretKey", ""),
    itoa .quotaForNewUser, itoa .quotaForInviter, itoa .quotaForInvitee]

/-- The settings that `InitOptionMap` begins with. -/
def freshOptionMap (s : Settings) : Settings :=
  { s with optionMap := fun k => (initialOptions s).lookup k }

/-- `loadOptionsFromDatabase`; a failed query loads nothing. -/
def loadOptionsFromDatabase (p : Process) : Process :=
  match (performOption .all).run OptionStore.exec p.options with
  | (.ok options, store) => ⟨replay updateOptionMap (show List _ from options) p.settings, store⟩
  | (.error _, store) => ⟨p.settings, store⟩

def initOptionMap (p : Process) : Process :=
  loadOptionsFromDatabase { p with settings := freshOptionMap p.settings }

/-- The settings of a process that starts with this table: the variables as they
are initialised, then `InitOptionMap`. -/
def restarted (options : List (Σ _ : String, String)) : Settings :=
  replay updateOptionMap options (freshOptionMap Settings.default)

/-- A process that starts on a table in order. -/
theorem initOptionMap_default {store : OptionStore} (h : store.Up) :
    (initOptionMap ⟨Settings.default, store⟩).settings = restarted store.table.entries := by
  have hexec : store.exec .all
      = (.ok store.table.entries, ⟨store.table, fun n => store.outages (n + 1)⟩) := by
    unfold OptionStore.exec
    rw [h 0]
    rfl
  unfold initOptionMap loadOptionsFromDatabase
  rw [performOption, Prog.run_perform]
  dsimp only
  rw [hexec]
  rfl

/-- **A process that stores what it writes is reproduced by its table.** -/
theorem restarted_insert (t : OptionTable) (key value : String) :
    restarted (t.insert key value).entries = updateOptionMap key value (restarted t.entries) :=
  replay_insert overwrites t key value _

end AuthGateway.Model
