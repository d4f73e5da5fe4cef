import AuthGateway.Controller.Option

/-!
# Secrets in the list of options

`GetOptions` passes over the keys that end in `Token`, `Secret` or `Key`, in just
these letters, and the map holds whatever key was stored.  The secrets of the
modules have keys like `discord.client_secret`: **what two maps keep secret stays
out of the list exactly when the keys that differ have such an ending**
(`same_list_iff`).
-/

namespace AuthGateway.SecretOptions

open Common GoString Model Controller

/-! ### Keys -/

/-- The key has `secret`, `token` or `key` in it, in any letters. -/
def NamesSecret (key : String) : Prop :=
  ∃ word ∈ ["secret", "token", "key"], word.toList <:+: key.toList.map Char.toLower

/-- **The maps have the same keys, and differ only under keys that name a secret.** -/
structure DifferInSecrets (m m' : String → Option String) : Prop where
  keys : ∀ k, (m k).isSome = (m' k).isSome
  values : ∀ k, m k ≠ m' k → NamesSecret k

/-- The order goes through the keys of the map. -/
def GoesThrough (order : List String) (m : String → Option String) : Prop :=
  order.Nodup ∧ ∀ k, k ∈ order ↔ (m k).isSome

/-! ### The list -/

theorem mem_listedOptions {order : List String} {m : String → Option String} {o : OptionRow} :
    o ∈ listedOptions order m ↔ o.key ∈ order ∧ isHidden o.key = false ∧ m o.key = some o.value := by
  unfold listedOptions
  rw [List.mem_filterMap]
  constructor
  · rintro ⟨k, hk, h⟩
    cases hhidden : isHidden k with
    | true => rw [hhidden] at h; exact nomatch h
    | false =>
      rw [hhidden, if_neg Bool.false_ne_true] at h
      obtain ⟨v, hv, rfl⟩ := Option.map_eq_some_iff.mp h
      exact ⟨hk, hhidden, hv⟩
  · rintro ⟨hk, hhidden, hv⟩
    refine ⟨o.key, hk, ?_⟩
    rw [hhidden, if_neg Bool.false_ne_true, hv]
    rfl

/-- **What may differ without a trace in the list.** -/
theorem listedOptions_eq_iff {order : List String} {m m' : String → Option String}
    (hkeys : ∀ k, (m k).isSome = (m' k).isSome) (horder : ∀ k, k ∈ order ↔ (m k).isSome) :
    listedOptions order m = listedOptions order m' ↔ ∀ k, m k ≠ m' k → isHidden k = true := by
  constructor
  · intro h k hne
    by_contra hhidden
    rw [Bool.not_eq_true] at hhidden
    cases hv : m k with
    | none =>
      have hnone := hkeys k
      rw [hv] at hnone
      exact hne (hv.trans (Option.isNone_iff_eq_none.mp (Option.isSome_eq_false_iff.mp hnone.symm)).symm)
    | some v =>
      have hmem : { key := k, value := v } ∈ listedOptions order m :=
        mem_listedOptions.mpr ⟨(horder k).mpr (by rw [hv]; rfl), hhidden, hv⟩
      rw [h] at hmem
      exact hne (hv.trans (mem_listedOptions.mp hmem).2.2.symm)
  · intro h
    apply List.filterMap_congr
    intro k _
    by_cases hsame : m k = m' k
    · rw [hsame]
    · rw [h k hsame, if_pos rfl, if_pos rfl]

/-- The reply tells the list. -/
theorem getOptions_eq_iff {order : List String} {s s' : Settings} :
    getOptions order s = getOptions order s' ↔
      listedOptions order s.optionMap = listedOptions order s'.optionMap := by
  constructor
  · intro h
    have hinj : ∀ o o' : OptionRow,
        Json.obj [("key", .str o.key), ("value", .str o.value)]
          = Json.obj [("key", .str o'.key), ("value", .str o'.value)] → o = o' := by
      rintro ⟨k, v⟩ ⟨k', v'⟩ heq
      simpa using heq
    unfold getOptions at h
    dsimp only at h
    injection h with _ _ _ hdata
    injection hdata with hdata
    generalize listedOptions order s.optionMap = options at hdata ⊢
    generalize listedOptions order s'.optionMap = options' at hdata ⊢
    cases options with
    | nil =>
      cases options' with
      | nil => rfl
      | cons o' rest' => exact nomatch hdata
    | cons o rest =>
      cases options' with
      | nil => exact nomatch hdata
      | cons o' rest' =>
        injection hdata with hlist
        exact List.map_injective_iff.mpr (fun a b => hinj a b) hlist
  · intro h
    unfold getOptions
    rw [h]

/-! ### Updates -/

/-- The process after a sequence of updates. -/
def updated (p : Process) (updates : List (String × String)) : Process :=
  updates.foldl (fun p u => Model.updateOption u.1 u.2 p) p

/-- Updates of the same keys, to the same values but where the key names a secret. -/
def SameButSecrets (u u' : String × String) : Prop := u.1 = u'.1 ∧ (u.2 = u'.2 ∨ NamesSecret u.1)

theorem optionMap_updateOption (key value : String) (p : Process) :
    (Model.updateOption key value p).settings.optionMap
      = Function.update p.settings.optionMap key (some value) :=
  updateOptionMap_optionMap key value p.settings

/-- An update keeps to what may differ. -/
theorem DifferInSecrets.update {m m' : String → Option String} (h : DifferInSecrets m m')
    {u u' : String × String} (hsame : SameButSecrets u u') :
    DifferInSecrets (Function.update m u.1 (some u.2)) (Function.update m' u'.1 (some u'.2)) := by
  obtain ⟨key, value⟩ := u
  obtain ⟨key', value'⟩ := u'
  obtain ⟨hkey, hvalue⟩ := hsame
  obtain rfl : key = key' := hkey
  constructor
  · intro k
    by_cases hk : k = key
    · rw [hk, Function.update_self, Function.update_self]
      rfl
    · rw [Function.update_of_ne hk, Function.update_of_ne hk]
      exact h.keys k
  · intro k hne
    by_cases hk : k = key
    · rw [hk, Function.update_self, Function.update_self] at hne
      rw [hk]
      exact hvalue.resolve_left fun hv => hne (congrArg some hv)
    · rw [Function.update_of_ne hk, Function.update_of_ne hk] at hne
      exact h.values k hne

/-- **And so does a sequence of updates.** -/
theorem DifferInSecrets.updated {p p' : Process}
    (h : DifferInSecrets p.settings.optionMap p'.settings.optionMap)
    {updates updates' : List (String × String)}
    (hsame : List.Forall₂ SameButSecrets updates updates') :
    DifferInSecrets (updated p updates).settings.optionMap
      (updated p' updates').settings.optionMap := by
  induction hsame generalizing p p' with
  | nil => exact h
  | cons hu _ ih =>
    apply ih
    rw [optionMap_updateOption, optionMap_updateOption]
    exact h.update hu

/-- **The list is the same exactly when the keys that differ end in `Token`, `Secret` or
`Key`**, after any updates that are the same but for secrets. -/
theorem same_list_iff {p p' : Process}
    (hstart : DifferInSecrets p.settings.optionMap p'.settings.optionMap)
    {updates updates' : List (String × String)}
    (hsame : List.Forall₂ SameButSecrets updates updates') {order : List String}
    (horder : GoesThrough order (updated p updates).settings.optionMap) :
    getOptions order (updated p updates).settings = getOptions order (updated p' updates').settings ↔
      ∀ k, (updated p updates).settings.optionMap k ≠ (updated p' updates').settings.optionMap k →
        isHidden k = true := by
  have hend := hstart.updated hsame
  rw [getOptions_eq_iff]
  exact listedOptions_eq_iff hend.keys horder.2

/-- A process that has just started on an empty table, before it fills its map. -/
def bareProcess : Process := ⟨Settings.default, ⟨∅, fun _ => none⟩⟩

theorem namesSecret_of_suffix {key word : String} (hword : word ∈ ["secret", "token", "key"])
    (h : word.toList <:+ key.toList.map Char.toLower) : NamesSecret key :=
  ⟨word, hword, h.isInfix⟩

theorem differInSecrets_refl (m : String → Option String) : DifferInSecrets m m :=
  ⟨fun _ => rfl, fun _ h => absurd rfl h⟩

/-- Two tokens of the mail server. -/
theorem smtpToken_not_listed :
    getOptions ["SMTPToken"] (updated bareProcess [("SMTPToken", "a")]).settings
      = getOptions ["SMTPToken"] (updated bareProcess [("SMTPToken", "b")]).settings := by
  have hsecret : NamesSecret "SMTPToken" :=
    namesSecret_of_suffix (show "token" ∈ _ by decide) (by decide)
  have hsame : List.Forall₂ SameButSecrets [("SMTPToken", "a")] [("SMTPToken", "b")] :=
    .cons ⟨rfl, Or.inr hsecret⟩ .nil
  have hmap : ∀ v, (updated bareProcess [("SMTPToken", v)]).settings.optionMap
      = Function.update (fun _ => none) "SMTPToken" (some v) := fun v =>
    optionMap_updateOption "SMTPToken" v bareProcess
  have horder : GoesThrough ["SMTPToken"]
      (updated bareProcess [("SMTPToken", "a")]).settings.optionMap := by
    rw [hmap]
    refine ⟨by simp, fun k => ?_⟩
    by_cases hk : k = "SMTPToken" <;> simp [hk]
  refine (same_list_iff (differInSecrets_refl _) hsame horder).mpr ?_
  intro k hne
  rw [hmap, hmap] at hne
  by_cases hk : k = "SMTPToken"
  · rw [hk]
    decide
  · rw [Function.update_of_ne hk, Function.update_of_ne hk] at hne
    exact absurd rfl hne

/-- **The secret of Discord is listed.** -/
theorem discord_secret_listed :
    DifferInSecrets (updated bareProcess [("discord.client_secret", "a")]).settings.optionMap
      (updated bareProcess [("discord.client_secret", "b")]).settings.optionMap ∧
    getOptions ["discord.client_secret"]
        (updated bareProcess [("discord.client_secret", "a")]).settings
      ≠ getOptions ["discord.client_secret"]
        (updated bareProcess [("discord.client_secret", "b")]).settings := by
  have hsecret : NamesSecret "discord.client_secret" :=
    namesSecret_of_suffix (show "secret" ∈ _ by decide) (by decide)
  constructor
  · exact (differInSecrets_refl _).updated (.cons ⟨rfl, Or.inr hsecret⟩ .nil)
  · intro h
    have hvalues := congrArg (List.map OptionRow.value) (getOptions_eq_iff.mp h)
    exact absurd hvalues (by decide)

end AuthGateway.SecretOptions
