import AuthGateway.Lib.GoRoundTrip

/-!
# setting/config: configurations as texts

A configuration is a struct with a text for each of its fields under the key of the field.
`configToMap` writes the texts and `updateConfigFromMap` reads them into a configuration that
is there already; the manager keeps them as options, under the name of the module, a dot and
the key.

`reads_texts`: **the texts of one configuration make another one equal to it exactly when
nothing of the other shows through in JSON**.
-/

namespace AuthGateway.Setting

open GoString

/-! ### Fields -/

section Fields

variable (lib : GoLibrary)

/-- The text of a field; `none` is the error of `json.Marshal`. -/
def fieldText : (t : GoType) → t.Val → Option String
  | .string, s => some s
  | .bool, b => some (formatBool b)
  | .int _, n => some (itoa (Subtype.val n))
  | .uint _, n => some (itoa (Int.ofNat (Subtype.val n)))
  | .float .f32, f => some (lib.formatFloat (lib.widen f))
  | .float .f64, f => some (lib.formatFloat f)
  | .ptr t, v =>
    match v with
    | none => some "null"
    | some v => (t.marshal lib v).map JsonTree.toText
  | .map k t, v => ((GoType.map k t).marshal lib v).map JsonTree.toText
  | .slice t, v => ((GoType.slice t).marshal lib v).map JsonTree.toText
  | .struct fields, v => ((GoType.struct fields).marshal lib v).map JsonTree.toText

/-- `json.Unmarshal`, whose error the caller drops. -/
def unmarshal (t : GoType) (text : String) (v : t.Val) : t.Val :=
  match JsonTree.read text with
  | some tree => t.decode lib tree v
  | none => v

/-- A field after a text was written to it: a text that does not parse leaves it. -/
def writeField : (t : GoType) → String → t.Val → t.Val
  | .string, text, _ => text
  | .bool, text, v => (parseBool text).getD v
  | .int w, text, v => ((KeyType.parseSigned text).map (IntOf.wrap w)).getD v
  | .uint w, text, v => ((KeyType.parseUnsigned text).map (UintOf.wrap w)).getD v
  | .float .f32, text, v => ((lib.parseFloat .f64 text).map lib.narrow).getD v
  | .float .f64, text, v => (lib.parseFloat .f64 text).getD v
  | .ptr t, text, v =>
    if text = "null" then none else some (unmarshal lib t text (Option.getD v t.zero))
  | .map k t, text, v => unmarshal lib (.map k t) text v
  | .slice t, text, v => unmarshal lib (.slice t) text v
  | .struct fields, text, v => unmarshal lib (.struct fields) text v

/-! ### Configurations -/

/-- The loop over the fields of `configToMap`. -/
def addTexts : (fields : GoFields) → fields.Val → SortedMap String String →
    Option (SortedMap String String)
  | .nil, _, result => some result
  | .cons key t rest, v, result =>
    (fieldText lib t v.1).bind fun strValue => addTexts rest v.2 (result.insert key strValue)

def configToMap (fields : GoFields) (v : fields.Val) : Option (SortedMap String String) :=
  addTexts lib fields v SortedMap.empty

def updateConfigFromMap : (fields : GoFields) → fields.Val → SortedMap String String → fields.Val
  | .nil, v, _ => v
  | .cons key t rest, v, configMap =>
    (match configMap.get? key with
      | some strValue => writeField lib t strValue v.1
      | none => v.1,
      updateConfigFromMap rest v.2 configMap)

end Fields

/-! ### A field is read back -/

section Restored

variable {lib : GoLibrary}

theorem unmarshal_toText {t : GoType} {tree : JsonTree} (h : tree.Literal) (v : t.Val) :
    unmarshal lib t tree.toText v = t.decode lib tree v := by
  rw [unmarshal, JsonTree.read_toText tree h]

/-- A field that is written in JSON is decoded in place. -/
theorem writeField_marshal (hlib : lib.Lawful) {t : GoType} (ht : t.Named) {c d : t.Val}
    {text : String} (htext : (t.marshal lib c).map JsonTree.toText = some text) :
    t.visible (unmarshal lib t text d) = t.visible c ↔ t.Restores c d := by
  obtain ⟨tree, htree, rfl⟩ := Option.map_eq_some_iff.mp htext
  rw [unmarshal_toText (GoType.marshal_literal hlib t c tree htree)]
  exact GoType.decode_marshal_iff hlib t ht c d tree htree

/-- A pointer is decoded as in JSON, where `null` makes it nil. -/
theorem writeField_ptr (lib : GoLibrary) {t : GoType} {tree : JsonTree} (h : tree.Literal) (d : Option t.Val) :
    writeField lib (.ptr t) tree.toText d = (GoType.ptr t).decode lib tree d := by
  by_cases hnull : tree = .null
  · subst hnull
    rfl
  · rw [GoType.decode_ptr t hnull, ← unmarshal_toText h]
    exact if_neg fun htext => hnull ((JsonTree.toText_eq_null h).mp htext)

/-- **The text of a field makes another one equal to it exactly when nothing shows through.** -/
theorem writeField_iff (hlib : lib.Lawful) (t : GoType) (ht : t.Named) (c d : t.Val)
    {text : String} (htext : fieldText lib t c = some text) :
    t.visible (writeField lib t text d) = t.visible c ↔ t.Restores c d := by
  match t with
  | .string =>
    obtain rfl := Option.some.inj htext
    exact iff_of_true rfl trivial
  | .bool =>
    obtain rfl := Option.some.inj htext
    have hread := parseBool_formatBool c
    exact iff_of_true (congrArg (fun read : Option Bool => read.getD d) hread) trivial
  | .int w =>
    obtain rfl := Option.some.inj htext
    have hread : (KeyType.parseSigned (itoa (Subtype.val c))).map (IntOf.wrap w) = some c := by
      rw [KeyType.parseSigned_itoa (show IntOf w from c)]
      exact congrArg some (IntOf.wrap_val (show IntOf w from c))
    exact iff_of_true (congrArg (fun read : Option (IntOf w) => read.getD d) hread) trivial
  | .uint w =>
    obtain rfl := Option.some.inj htext
    have hread : (KeyType.parseUnsigned (itoa (Int.ofNat (Subtype.val c)))).map (UintOf.wrap w) =
        some c := by
      have hparse := KeyType.parseUnsigned_itoa (show UintOf w from c)
      exact (congrArg (Option.map (UintOf.wrap w)) hparse).trans
        (congrArg some (UintOf.wrap_val (show UintOf w from c)))
    exact iff_of_true (congrArg (fun read : Option (UintOf w) => read.getD d) hread) trivial
  | .float .f32 =>
    obtain rfl := Option.some.inj htext
    have hread : (lib.parseFloat .f64 (lib.formatFloat (lib.widen c))).map lib.narrow = some c := by
      rw [hlib.parseFloat_format, Option.map_some]
      exact congrArg some (hlib.narrow_widen c)
    exact iff_of_true (congrArg (fun read : Option (FloatOf .f32) => read.getD d) hread) trivial
  | .float .f64 =>
    obtain rfl := Option.some.inj htext
    have hread := hlib.parseFloat_format c
    exact iff_of_true (congrArg (fun read : Option (FloatOf .f64) => read.getD d) hread) trivial
  | .ptr t =>
    match c with
    | none =>
      obtain rfl := Option.some.inj htext
      exact iff_of_true rfl trivial
    | some c =>
      obtain ⟨tree, htree, rfl⟩ := Option.map_eq_some_iff.mp htext
      have hwrite := writeField_ptr lib (GoType.marshal_literal hlib t c tree htree) d
      have hdecode := GoType.decode_marshal_iff hlib (.ptr t) ht (some c) d tree htree
      rw [← hwrite] at hdecode
      exact hdecode
  | .map k t => exact writeField_marshal hlib ht htext
  | .slice t => exact writeField_marshal hlib ht htext
  | .struct fields => exact writeField_marshal hlib ht htext

/-! ### A configuration is read back -/

/-- Every field finds its own text under its key. -/
def HasTexts (lib : GoLibrary) : (fields : GoFields) → fields.Val → (String → Option String) → Prop
  | .nil, _, _ => True
  | .cons key t rest, v, texts =>
    (∃ text, fieldText lib t v.1 = some text ∧ texts key = some text) ∧ HasTexts lib rest v.2 texts

theorem HasTexts.congr {texts texts' : String → Option String} : (fields : GoFields) →
    (v : fields.Val) → (∀ key ∈ fields.names, texts' key = texts key) →
    HasTexts lib fields v texts → HasTexts lib fields v texts'
  | .nil, _, _, _ => trivial
  | .cons key t rest, v, hsame, h => by
    obtain ⟨⟨text, htext, hkey⟩, hrest⟩ := h
    refine ⟨⟨text, htext, ?_⟩, ?_⟩
    · rw [hsame key List.mem_cons_self, hkey]
    · exact HasTexts.congr rest v.2 (fun k hk => hsame k (List.mem_cons_of_mem _ hk)) hrest

/-- The loop leaves other keys alone. -/
theorem get?_addTexts : (fields : GoFields) → (v : fields.Val) →
    {result texts : SortedMap String String} → addTexts lib fields v result = some texts →
    ∀ key, key ∉ fields.names → texts.get? key = result.get? key
  | .nil, _, result, texts, h, key, _ => by
    obtain rfl := Option.some.inj h
    rfl
  | .cons key t rest, v, result, texts, h, k, hk => by
    obtain ⟨text, -, hrest⟩ := Option.bind_eq_some_iff.mp h
    rw [GoFields.names, List.mem_cons, not_or] at hk
    rw [get?_addTexts rest v.2 hrest k hk.2, SortedMap.get?_insert, if_neg hk.1]

theorem hasTexts_addTexts : (fields : GoFields) → fields.Named → (v : fields.Val) →
    {result texts : SortedMap String String} → addTexts lib fields v result = some texts →
    HasTexts lib fields v texts.get?
  | .nil, _, _, _, _, _ => trivial
  | .cons key t rest, hnamed, v, result, texts, h => by
    obtain ⟨text, htext, hrest⟩ := Option.bind_eq_some_iff.mp h
    refine ⟨⟨text, htext, ?_⟩, hasTexts_addTexts rest hnamed.2.2 v.2 hrest⟩
    rw [get?_addTexts rest v.2 hrest key hnamed.1, SortedMap.get?_insert, if_pos rfl]

/-- Only the fields have texts. -/
theorem key_of_configToMap {fields : GoFields} {v : fields.Val} {texts : SortedMap String String}
    (h : configToMap lib fields v = some texts) {key text : String}
    (hkey : texts.get? key = some text) : key ∈ fields.names := by
  by_contra hnot
  rw [get?_addTexts fields v h key hnot, SortedMap.get?_empty] at hkey
  exact nomatch hkey

theorem HasTexts.exists_text {texts : String → Option String} : (fields : GoFields) →
    (v : fields.Val) → HasTexts lib fields v texts → ∀ key ∈ fields.names,
    ∃ text, texts key = some text
  | .nil, _, _, key, hkey => absurd hkey List.not_mem_nil
  | .cons _ t rest, v, h, k, hk => by
    obtain ⟨⟨text, -, hkey⟩, hrest⟩ := h
    rcases List.mem_cons.mp hk with rfl | hk
    · exact ⟨text, hkey⟩
    · exact HasTexts.exists_text rest v.2 hrest k hk

/-- **The texts of one configuration make another one equal to it exactly when nothing of the
other shows through.** -/
theorem reads_texts (hlib : lib.Lawful) {configMap : SortedMap String String} :
    (fields : GoFields) → fields.Named → (c d : fields.Val) →
    HasTexts lib fields c configMap.get? →
    (fields.visible (updateConfigFromMap lib fields d configMap) = fields.visible c ↔
      fields.Restores c d)
  | .nil, _, _, _, _ => iff_of_true rfl trivial
  | .cons key t rest, hnamed, (c, cs), (d, ds), h => by
    obtain ⟨⟨text, htext, hkey⟩, hrest⟩ := h
    have hfield := writeField_iff hlib t hnamed.2.1 c d htext
    have hfields := reads_texts hlib rest hnamed.2.2 cs ds hrest
    have hupdate : updateConfigFromMap lib (.cons key t rest) (d, ds) configMap =
        (writeField lib t text d, updateConfigFromMap lib rest ds configMap) := by
      show (match configMap.get? key with
        | some strValue => writeField lib t strValue d
        | none => d, updateConfigFromMap lib rest ds configMap) = _
      rw [hkey]
    refine Iff.trans ?_ (and_congr hfield hfields)
    rw [hupdate, ← Prod.mk.injEq]
    exact Iff.rfl

/-- Without a text nothing is written. -/
theorem updateConfigFromMap_empty : (fields : GoFields) → (d : fields.Val) →
    updateConfigFromMap lib fields d SortedMap.empty = d
  | .nil, _ => rfl
  | .cons _ _ rest, d => congrArg (Prod.mk d.1) (updateConfigFromMap_empty rest d.2)

end Restored

/-! ### The manager -/

/-- The modules that are registered, with the types of their configurations.  No option belongs
to two modules. -/
structure ConfigManager where
  configs : SortedMap String GoFields
  named : ∀ m ∈ configs.entries, m.2.Named
  option_ne : ∀ m ∈ configs.entries, ∀ m' ∈ configs.entries, m.1 ≠ m'.1 →
    ∀ key ∈ m.2.names, ∀ key' ∈ m'.2.names, m.1 ++ "." ++ key ≠ m'.1 ++ "." ++ key'

namespace ConfigManager

def names (cm : ConfigManager) : List String := cm.configs.entries.map Prod.fst

def type (cm : ConfigManager) (name : String) : GoFields := (cm.configs.get? name).getD .nil

/-- The configurations that the modules point to. -/
def Configs (cm : ConfigManager) : Type := (name : String) → (cm.type name).Val

end ConfigManager

/-! ### The registered modules -/

def discordFields : GoFields :=
  .cons "enabled" .bool <| .cons "client_id" .string <| .cons "client_secret" .string .nil

def fetchFields : GoFields :=
  .cons "enable_ssrf_protection" .bool <| .cons "allow_private_ip" .bool <|
    .cons "domain_filter_mode" .bool <| .cons "ip_filter_mode" .bool <|
    .cons "domain_list" (.slice .string) <| .cons "ip_list" (.slice .string) <|
    .cons "allowed_ports" (.slice .string) <| .cons "apply_ip_filter_for_domain" .bool .nil

def generalFields : GoFields :=
  .cons "docs_link" .string <| .cons "ping_interval_enabled" .bool <|
    .cons "ping_interval_seconds" (.int .w64) <| .cons "quota_display_type" .string <|
    .cons "custom_currency_symbol" .string <|
    .cons "custom_currency_exchange_rate" (.float .f64) .nil

def legalFields : GoFields :=
  .cons "user_agreement" .string <| .cons "privacy_policy" .string .nil

def monitorFields : GoFields :=
  .cons "auto_test_channel_enabled" .bool <|
    .cons "auto_test_channel_minutes" (.float .f64) .nil

def oidcFields : GoFields :=
  .cons "enabled" .bool <| .cons "client_id" .string <| .cons "client_secret" .string <|
    .cons "well_known" .string <| .cons "authorization_endpoint" .string <|
    .cons "token_endpoint" .string <| .cons "user_info_endpoint" .string .nil

def passkeyFields : GoFields :=
  .cons "enabled" .bool <| .cons "rp_display_name" .string <| .cons "rp_id" .string <|
    .cons "origins" .string <| .cons "allow_insecure_origin" .bool <|
    .cons "user_verification" .string <| .cons "attachment_preference" .string .nil

def paymentFields : GoFields :=
  .cons "amount_options" (.slice (.int .w64)) <|
    .cons "amount_discount" (.map (.int .w64) (.float .f64)) .nil

def quotaFields : GoFields := .cons "enable_free_model_pre_consume" .bool .nil

/-- The modules that are registered, by their names. -/
def registeredModules : SortedMap String GoFields where
  entries :=
    [("discord", discordFields), ("fetch_setting", fetchFields),
      ("general_setting", generalFields), ("legal", legalFields),
      ("monitor_setting", monitorFields), ("oidc", oidcFields),
      ("passkey", passkeyFields), ("payment_setting", paymentFields),
      ("quota_setting", quotaFields)]
  sorted := by decide

theorem named_registeredModules : ∀ m ∈ registeredModules.entries, m.2.Named := by
  simp [registeredModules, discordFields, fetchFields, generalFields, legalFields, monitorFields,
    oidcFields, passkeyFields, paymentFields, quotaFields, GoFields.Named, GoType.Named,
    GoFields.names]

theorem option_ne_registeredModules :
    ∀ m ∈ registeredModules.entries, ∀ m' ∈ registeredModules.entries, m.1 ≠ m'.1 →
      ∀ key ∈ m.2.names, ∀ key' ∈ m'.2.names, m.1 ++ "." ++ key ≠ m'.1 ++ "." ++ key' := by
  decide +kernel

/-- `config.GlobalConfig`. -/
def registered : ConfigManager where
  configs := registeredModules
  named := named_registeredModules
  option_ne := option_ne_registeredModules

/-! ### Saving and loading -/

/-- The options of a module, under the keys of its fields. -/
def moduleOptions (options : SortedMap String String) (name : String) : SortedMap String String :=
  options.entries.foldl
    (fun configMap option =>
      if hasPrefix option.1 (name ++ ".") then
        configMap.insert (trimPrefix option.1 (name ++ ".")) option.2
      else configMap)
    SortedMap.empty

def loadFromDB (lib : GoLibrary) (cm : ConfigManager) (options : SortedMap String String)
    (configs : cm.Configs) : cm.Configs := fun name =>
  if name ∈ cm.names ∧ 0 < (moduleOptions options name).entries.length then
    updateConfigFromMap lib (cm.type name) (configs name) (moduleOptions options name)
  else configs name

inductive SaveError (ε : Type)
  | marshal
  | update (e : ε)

section Save

variable {σ ε : Type} (updateFunc : String → String → σ → σ × Option ε)

/-- One call for each text, up to the first that fails. -/
def saveTexts (name : String) : List (String × String) → σ → σ × Option ε
  | [], s => (s, none)
  | (key, value) :: rest, s =>
    match updateFunc (name ++ "." ++ key) value s with
    | (s, none) => saveTexts name rest s
    | (s, some e) => (s, some e)

/-- `SaveToDB` over the modules in some order; `range` is the order of the texts of each. -/
def saveToDB (lib : GoLibrary) (cm : ConfigManager) (configs : cm.Configs)
    (range : SortedMap String String → List (String × String)) :
    List String → σ → σ × Option (SaveError ε)
  | [], s => (s, none)
  | name :: names, s =>
    match configToMap lib (cm.type name) (configs name) with
    | none => (s, some .marshal)
    | some configMap =>
      match saveTexts updateFunc name (range configMap) s with
      | (s, none) => saveToDB lib cm configs range names s
      | (s, some e) => (s, some (.update e))

end Save

/-! ### Options of the modules -/

theorem ConfigManager.names_nodup (cm : ConfigManager) : cm.names.Nodup :=
  List.pairwise_map.mpr (cm.configs.sorted.imp fun hlt => ne_of_lt hlt)

theorem ConfigManager.mem_entries {cm : ConfigManager} {name : String} (h : name ∈ cm.names) :
    (name, cm.type name) ∈ cm.configs.entries := by
  obtain ⟨⟨n, fields⟩, hmem, rfl⟩ := List.mem_map.mp h
  have htype : cm.type n = fields := by
    rw [ConfigManager.type, SortedMap.get?_eq_some.mpr hmem, Option.getD_some]
  rw [htype]
  exact hmem

theorem option_injective (name : String) {key key' : String}
    (h : name ++ "." ++ key = name ++ "." ++ key') : key = key' := by
  rw [← String.toList_inj] at h ⊢
  simpa using h

/-- The loop over the options picks out those of the module. -/
theorem get?_moduleOptions (options : SortedMap String String) (name key : String) :
    (moduleOptions options name).get? key = options.get? (name ++ "." ++ key) := by
  have hloop : ∀ (l : List (String × String)), (l.Pairwise fun a b => a.1 < b.1) →
      ∀ m : SortedMap String String,
      (l.foldl (fun configMap option =>
        if hasPrefix option.1 (name ++ ".") then
          configMap.insert (trimPrefix option.1 (name ++ ".")) option.2
        else configMap) m).get? key = (l.lookup (name ++ "." ++ key)).or (m.get? key) := by
    intro l
    induction l with
    | nil => exact fun _ m => rfl
    | cons option l ih =>
      obtain ⟨k, v⟩ := option
      intro hsorted m
      obtain ⟨hhead, htail⟩ := List.pairwise_cons.mp hsorted
      rw [List.foldl_cons, ih htail, SortedMap.lookup_cons_eq]
      by_cases hprefix : hasPrefix k (name ++ ".") = true
      · rw [if_pos hprefix, SortedMap.get?_insert]
        by_cases hk : name ++ "." ++ key = k
        · have hnone : l.lookup k = none := by
            cases hlookup : l.lookup k with
            | none => rfl
            | some v' =>
              exact absurd (hhead _ ((SortedMap.lookup_eq_some htail).mp hlookup)) (lt_irrefl k)
          rw [if_pos ((trimPrefix_eq_iff hprefix).mpr hk.symm).symm, if_pos hk, hk, hnone]
          rfl
        · rw [if_neg hk, if_neg fun h => hk ((trimPrefix_eq_iff hprefix).mp h.symm).symm]
      · have hk : name ++ "." ++ key ≠ k := by
          rintro rfl
          exact hprefix (hasPrefix_append _ _)
        rw [if_neg hprefix, if_neg hk]
  rw [moduleOptions, hloop options.entries options.sorted, SortedMap.get?_empty, Option.or_none]
  rfl

/-- A module without options is left as it is. -/
theorem loadFromDB_module (lib : GoLibrary) {cm : ConfigManager} {name : String}
    (h : name ∈ cm.names) (options : SortedMap String String) (configs : cm.Configs) :
    loadFromDB lib cm options configs name =
      updateConfigFromMap lib (cm.type name) (configs name) (moduleOptions options name) := by
  rw [loadFromDB]
  split
  · rfl
  · rename_i hnone
    have hempty : moduleOptions options name = SortedMap.empty := by
      have hlength : ¬ 0 < (moduleOptions options name).entries.length := fun hpos => hnone ⟨h, hpos⟩
      have hentries := List.eq_nil_of_length_eq_zero (Nat.eq_zero_of_not_pos hlength)
      apply SortedMap.ext_get?
      intro key
      rw [SortedMap.get?, hentries]
      rfl
    rw [hempty, updateConfigFromMap_empty]

/-! ### What is saved -/

section Saved

variable {σ ε : Type} {updateFunc : String → String → σ → σ × Option ε}
  {rows : σ → SortedMap String String} {lib : GoLibrary}

/-- A call that succeeds writes its row and leaves the others. -/
def Stores (updateFunc : String → String → σ → σ × Option ε) (rows : σ → SortedMap String String) :
    Prop :=
  ∀ key value s s', updateFunc key value s = (s', none) →
    ∀ k, (rows s').get? k = if k = key then some value else (rows s).get? k

theorem saveTexts_cons {name key value : String} {rest : List (String × String)} {s s' : σ}
    (h : saveTexts updateFunc name ((key, value) :: rest) s = (s', none)) :
    ∃ s₁, updateFunc (name ++ "." ++ key) value s = (s₁, none) ∧
      saveTexts updateFunc name rest s₁ = (s', none) := by
  rw [saveTexts] at h
  split at h
  · rename_i s₁ hcall
    exact ⟨s₁, hcall, h⟩
  · exact nomatch (Prod.mk.inj h).2

theorem get?_saveTexts_of_ne (hstores : Stores updateFunc rows) {name : String}
    {texts : List (String × String)} {s s' : σ}
    (h : saveTexts updateFunc name texts s = (s', none)) {k : String}
    (hk : ∀ p ∈ texts, k ≠ name ++ "." ++ p.1) : (rows s').get? k = (rows s).get? k := by
  induction texts generalizing s with
  | nil =>
    obtain rfl := (Prod.mk.inj h).1
    rfl
  | cons p texts ih =>
    obtain ⟨s₁, hcall, hrest⟩ := saveTexts_cons h
    rw [ih hrest fun q hq => hk q (List.mem_cons_of_mem _ hq), hstores _ _ _ _ hcall,
      if_neg (hk p List.mem_cons_self)]

theorem get?_saveTexts (hstores : Stores updateFunc rows) {name : String}
    {texts : List (String × String)} {s s' : σ}
    (h : saveTexts updateFunc name texts s = (s', none)) (hnodup : (texts.map Prod.fst).Nodup)
    {p : String × String} (hp : p ∈ texts) :
    (rows s').get? (name ++ "." ++ p.1) = some p.2 := by
  induction texts generalizing s with
  | nil => exact nomatch hp
  | cons q texts ih =>
    obtain ⟨s₁, hcall, hrest⟩ := saveTexts_cons h
    rw [List.map_cons, List.nodup_cons] at hnodup
    rcases List.mem_cons.mp hp with rfl | hp
    · have hother : ∀ q ∈ texts, name ++ "." ++ p.1 ≠ name ++ "." ++ q.1 := by
        intro q hq heq
        rw [option_injective name heq] at hnodup
        exact hnodup.1 (List.mem_map_of_mem hq)
      rw [get?_saveTexts_of_ne hstores hrest hother, hstores _ _ _ _ hcall, if_pos rfl]
    · exact ih hrest hnodup.2 hp

/-- Every field of the modules has its text among the options, and other options stay. -/
structure Saved (lib : GoLibrary) (cm : ConfigManager) (configs : cm.Configs)
    (old new : SortedMap String String) (names : List String) : Prop where
  texts : ∀ name ∈ names,
    HasTexts lib (cm.type name) (configs name) fun key => new.get? (name ++ "." ++ key)
  rest : ∀ k, (∀ name ∈ names, ∀ key ∈ (cm.type name).names, k ≠ name ++ "." ++ key) →
    new.get? k = old.get? k

theorem saveToDB_cons {cm : ConfigManager} {configs : cm.Configs}
    {range : SortedMap String String → List (String × String)} {name : String}
    {names : List String} {s s' : σ}
    (h : saveToDB updateFunc lib cm configs range (name :: names) s = (s', none)) :
    ∃ configMap s₁, configToMap lib (cm.type name) (configs name) = some configMap ∧
      saveTexts updateFunc name (range configMap) s = (s₁, none) ∧
      saveToDB updateFunc lib cm configs range names s₁ = (s', none) := by
  rw [saveToDB] at h
  split at h
  · exact nomatch (Prod.mk.inj h).2
  · rename_i configMap hmap
    split at h
    · rename_i s₁ hcalls
      exact ⟨configMap, s₁, hmap, hcalls, h⟩
    · exact nomatch (Prod.mk.inj h).2

/-- **A run of `SaveToDB` that succeeds has saved every field.** -/
theorem saved_saveToDB (hstores : Stores updateFunc rows) {cm : ConfigManager}
    {configs : cm.Configs} {range : SortedMap String String → List (String × String)}
    (hrange : ∀ texts, (range texts).Perm texts.entries) {names : List String}
    (hnames : ∀ name ∈ names, name ∈ cm.names) (hnodup : names.Nodup) {s s' : σ}
    (h : saveToDB updateFunc lib cm configs range names s = (s', none)) :
    Saved lib cm configs (rows s) (rows s') names := by
  induction names generalizing s with
  | nil =>
    obtain rfl := (Prod.mk.inj h).1
    exact ⟨fun _ hmem => absurd hmem List.not_mem_nil, fun _ _ => rfl⟩
  | cons name names ih =>
    obtain ⟨configMap, s₁, hmap, hcalls, hrest⟩ := saveToDB_cons h
    obtain ⟨hnot, hnodup⟩ := List.nodup_cons.mp hnodup
    have hname := hnames name List.mem_cons_self
    have hnames' : ∀ n ∈ names, n ∈ cm.names := fun n hn => hnames n (List.mem_cons_of_mem _ hn)
    obtain ⟨htexts, hstay⟩ := ih hnames' hnodup hrest
    have hkeys : ((range configMap).map Prod.fst).Nodup :=
      ((hrange configMap).map Prod.fst).nodup_iff.mpr
        (List.pairwise_map.mpr (configMap.sorted.imp fun hlt => ne_of_lt hlt))
    have hfield : ∀ p ∈ range configMap, p.1 ∈ (cm.type name).names := fun p hp =>
      key_of_configToMap hmap (SortedMap.get?_eq_some.mpr ((hrange configMap).mem_iff.mp hp))
    refine ⟨fun n hn => ?_, fun k hk => ?_⟩
    · rcases List.mem_cons.mp hn with rfl | hn
      · have hhas := hasTexts_addTexts _ (cm.named _ (cm.mem_entries hname)) _ hmap
        refine hhas.congr _ _ ?_
        intro key hkey
        have hother : ∀ n' ∈ names, ∀ key' ∈ (cm.type n').names,
            n ++ "." ++ key ≠ n' ++ "." ++ key' := by
          intro n' hn' key' hkey'
          have hne : n ≠ n' := fun heq => hnot (heq ▸ hn')
          exact cm.option_ne _ (cm.mem_entries hname) _ (cm.mem_entries (hnames' n' hn')) hne key
            hkey key' hkey'
        obtain ⟨text, htext⟩ := hhas.exists_text _ _ key hkey
        have hmem : (key, text) ∈ range configMap :=
          (hrange configMap).mem_iff.mpr (SortedMap.get?_eq_some.mp htext)
        rw [hstay _ hother, htext]
        exact get?_saveTexts hstores hcalls hkeys hmem
      · exact htexts n hn
    · rw [hstay k fun n hn => hk n (List.mem_cons_of_mem _ hn)]
      exact get?_saveTexts_of_ne hstores hcalls
        fun p hp => hk name List.mem_cons_self p.1 (hfield p hp)

end Saved

end AuthGateway.Setting
