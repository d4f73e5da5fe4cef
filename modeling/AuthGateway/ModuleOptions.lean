import AuthGateway.Model.Option

/-!
# Options of configuration modules

A module of `config.GlobalConfig` is to follow the options `name.key`.  Neither
`updateOptionMap` nor `InitOptionMap` writes a module: `LoadFromDB`, which would,
is called by nobody.  **An option of a module takes effect exactly when the field
has that value already, in the process and by default** (`takes_effect_iff`).
-/

namespace AuthGateway.ModuleOptions

open Common Model Setting Replay

/-- The key of the options table. -/
def optionKey (name key : String) : String := name ++ "." ++ key

/-- **The option `name.key` takes effect**: with a value that parses for the
field, the field has that value at once, and after a restart over a table that
holds the row. -/
def TakesEffect (formats : Formats) (p : Process) (name key : String) (default : Setting.FieldValue)
    (text : String) : Prop :=
  ∀ v, default.parse formats text = some v →
    field? (updateOption (optionKey name key) text p).settings.modules name key = some v ∧
      ∀ table : OptionTable, table.lookup (optionKey name key) = some text →
        field? (restarted table.entries).modules name key = some v

theorem modules_updateOption (key value : String) (p : Process) :
    (updateOption key value p).settings.modules = p.settings.modules :=
  updateOptionMap_modules key value p.settings

theorem modules_restarted (rows : List (Σ _ : String, String)) :
    (restarted rows).modules = globalConfig := by
  have hkeep : ∀ r ∈ rows, ∀ s : Settings, s.modules = globalConfig →
      (updateOptionMap r.1 r.2 s).modules = globalConfig := by
    intro r _ s hs
    rw [updateOptionMap_modules, hs]
  exact replay_keeps rows hkeep rfl

/-- **An option of a module takes effect exactly when the field has the value
already**, in the running process and as it is initialised. -/
theorem takes_effect_iff (formats : Formats) (p : Process) (m : ConfigModule)
    (hm : m ∈ globalConfig) (key : String) (default : Setting.FieldValue)
    (hfield : m.field? key = some default) (text : String) :
    TakesEffect formats p m.name key default text ↔
      ∀ v, default.parse formats text = some v →
        field? p.settings.modules m.name key = some v ∧ default = v := by
  have hdefault : field? globalConfig m.name key = some default := by
    have huniq : ∀ m ∈ globalConfig, globalConfig.find? (fun m' => m'.name == m.name) = some m := by
      simp only [globalConfig, List.mem_cons, List.not_mem_nil, or_false]
      rintro m (rfl | rfl | rfl | rfl | rfl | rfl | rfl | rfl | rfl) <;> rfl
    rw [field?, huniq m hm, Option.bind_some, hfield]
  unfold TakesEffect
  refine forall_congr' fun v => imp_congr_right fun _ => ?_
  rw [modules_updateOption]
  constructor
  · rintro ⟨hlive, hrestart⟩
    have h := hrestart (AList.insert (optionKey m.name key) text ∅) (AList.lookup_insert _)
    rw [modules_restarted, hdefault] at h
    exact ⟨hlive, Option.some.inj h⟩
  · rintro ⟨hlive, rfl⟩
    refine ⟨hlive, fun table _ => ?_⟩
    rw [modules_restarted]
    exact hdefault

/-- A process that has just started on an empty table. -/
def fresh : Process := ⟨restarted [], ⟨∅, fun _ => none⟩⟩

def noFormats : Formats := ⟨fun _ => none, fun _ _ => none⟩

theorem takes_effect_passkey_off :
    TakesEffect noFormats fresh "passkey" "enabled" (.bool false) "false" := by
  refine (takes_effect_iff noFormats fresh defaultPasskeySettings (by simp [globalConfig])
    "enabled" (.bool false) rfl "false").mpr ?_
  intro v hv
  obtain rfl : Setting.FieldValue.bool false = v := Option.some.inj hv
  exact ⟨rfl, rfl⟩

/-- **Passkeys cannot be switched on.** -/
theorem passkey_not_enabled :
    ¬ TakesEffect noFormats fresh "passkey" "enabled" (.bool false) "true" := by
  intro h
  obtain ⟨hlive, -⟩ := h (.bool true) rfl
  rw [modules_updateOption] at hlive
  have hoff : field? fresh.settings.modules "passkey" "enabled" = some (.bool false) := rfl
  rw [hoff] at hlive
  exact absurd (Setting.FieldValue.bool.inj (Option.some.inj hlive)) Bool.false_ne_true

end AuthGateway.ModuleOptions
