import AuthGateway.Setting.ConfigMap

/-!
# Import does not undo export

`json.Unmarshal` decodes into the value that is there, and `updateConfigFromMap` hands it the
old field.  A map keeps its old entries, so a discount that the saved settings do not have
survives the import.

**The import gives back what was exported exactly when nothing of the old values shows
through**, field by field and for all modules together (`import_undoes_export_iff`).  Of the
modules that are registered, only `payment_setting` can fail, by a discount too many
(`restores_registered`, `paymentFields_restores_iff`).
-/

namespace AuthGateway.Setting

/-- **An import makes a configuration equal to the exported one exactly when nothing shows
through**; and so it is for all of them after `SaveToDB` and `LoadFromDB`, in whatever order
the maps are gone through and whatever was stored before. -/
theorem import_undoes_export_iff {lib : GoLibrary} (hlib : lib.Lawful) (cm : ConfigManager) :
    (∀ name ∈ cm.names, ∀ (c d : (cm.type name).Val) (texts : SortedMap String String),
      configToMap lib (cm.type name) c = some texts →
      ((cm.type name).visible (updateConfigFromMap lib (cm.type name) d texts) =
          (cm.type name).visible c ↔ (cm.type name).Restores c d)) ∧
    ∀ {σ ε : Type} (updateFunc : String → String → σ → σ × Option ε)
      (rows : σ → SortedMap String String), Stores updateFunc rows →
      ∀ range : SortedMap String String → List (String × String),
      (∀ texts, (range texts).Perm texts.entries) → ∀ order : List String, order.Perm cm.names →
      ∀ (c d : cm.Configs) (s s' : σ), saveToDB updateFunc lib cm c range order s = (s', none) →
      ((∀ name ∈ cm.names, (cm.type name).visible (loadFromDB lib cm (rows s') d name) =
          (cm.type name).visible (c name)) ↔
        ∀ name ∈ cm.names, (cm.type name).Restores (c name) (d name)) := by
  constructor
  · intro name hname c d texts htexts
    have hnamed := cm.named _ (cm.mem_entries hname)
    exact reads_texts hlib _ hnamed c d (hasTexts_addTexts _ hnamed c htexts)
  · intro σ ε updateFunc rows hstores range hrange order horder c d s s' hsave
    have hsaved := saved_saveToDB hstores hrange (fun name hname => horder.mem_iff.mp hname)
      (horder.nodup_iff.mpr cm.names_nodup) hsave
    refine forall₂_congr fun name hname => ?_
    have hnamed := cm.named _ (cm.mem_entries hname)
    rw [loadFromDB_module lib hname]
    have htexts := HasTexts.congr _ (c name)
      (fun key _ => get?_moduleOptions (rows s') name key)
      (hsaved.texts name (horder.mem_iff.mpr hname))
    exact reads_texts hlib _ hnamed (c name) (d name) htexts

/-! ### Which modules are concerned -/

/-- **Every module but `payment_setting` is always restored.** -/
theorem restores_registered {name : String} (hname : name ∈ registered.names)
    (hne : name ≠ "payment_setting") (c d : (registered.type name).Val) :
    (registered.type name).Restores c d := by
  apply GoFields.restores_of_replaces
  have hall : ∀ name ∈ registered.names, name ≠ "payment_setting" →
      (registered.type name).replaces = true := by decide +kernel
  exact hall name hname hne

/-- `AmountDiscount`, the discounts by amount. -/
def amountDiscount (v : paymentFields.Val) :
    Option (SortedMap (KeyType.int .w64).Key (FloatOf .f64)) := v.2.1

/-- The payment settings are restored when the discounts of the saved ones are nil, or when the
old ones have no amount more. -/
theorem paymentFields_restores_iff (c d : paymentFields.Val) :
    paymentFields.Restores c d ↔ ∀ m, amountDiscount c = some m → ∀ amount,
      m.get? amount = none → ((amountDiscount d).getD SortedMap.empty).get? amount = none := by
  obtain ⟨options, discounts, ⟨⟩⟩ := c
  have hoptions : (GoType.slice (.int .w64)).Restores options d.1 :=
    GoType.restores_of_replaces _ rfl options d.1
  cases discounts with
  | none => exact iff_of_true ⟨hoptions, trivial, trivial⟩ nofun
  | some m =>
    constructor
    · rintro ⟨-, ⟨hkeys, -⟩, -⟩ m' hm
      obtain rfl := Option.some.inj hm
      exact hkeys
    · intro hkeys
      exact ⟨hoptions, ⟨hkeys m rfl, fun _ _ _ => trivial⟩, trivial⟩

/-! ### A discount too many -/

/-- The number of these bits, if they are a number's or those of `NaN`. -/
def ofBits? (w : FloatWidth) (b : BitVec w.bits) : Option (FloatOf w) :=
  if h : isNaN w b = true → b.toNat = w.topExponent * 2 ^ w.fraction + 2 ^ (w.fraction - 1) then
    some ⟨b, h⟩
  else none

def ofNumber? (w : FloatWidth) (n : Nat) : Option (FloatOf w) := ofBits? w (BitVec.ofNat w.bits n)

theorem ofNumber?_toNat {w : FloatWidth} (f : FloatOf w) : ofNumber? w f.bits.toNat = some f := by
  rw [ofNumber?, BitVec.ofNat_toNat, BitVec.setWidth_eq]
  exact dif_pos f.oneNaN

def nineTenthsBits : Nat := 0x3FECCCCCCCCCCCCD

def nineTenths : FloatOf .f64 := ⟨BitVec.ofNat 64 nineTenthsBits, by decide⟩

/-- Nine tenths as they are written in Go; any other number by its bits. -/
def spell (w : FloatWidth) (f : FloatOf w) : String :=
  if f.bits.toNat = nineTenthsBits then "0.9" else GoString.itoa (Int.ofNat f.bits.toNat)

def unspell (w : FloatWidth) (text : String) : Option (FloatOf w) :=
  if text = "0.9" then ofNumber? w nineTenthsBits
  else (KeyType.parseUnsigned text).bind (ofNumber? w)

def spellingLibrary : GoLibrary where
  formatFloat := spell .f64
  parseFloat := unspell
  literal := spell
  widen f := (ofNumber? .f64 f.bits.toNat).getD (FloatOf.zero .f64)
  narrow f := (ofNumber? .f32 f.bits.toNat).getD (FloatOf.zero .f32)
  foldName name := name

theorem unspell_spell (w : FloatWidth) (f : FloatOf w) : unspell w (spell w f) = some f := by
  by_cases hbits : f.bits.toNat = nineTenthsBits
  · rw [spell, if_pos hbits, unspell, if_pos rfl, ← hbits, ofNumber?_toNat]
  · have hlt : f.bits.toNat < 2 ^ Width.bits .w64 := by
      have hlt := f.bits.isLt
      cases w with
      | f32 => exact lt_trans hlt (by decide)
      | f64 => exact hlt
    have hdot : GoString.itoa (Int.ofNat f.bits.toNat) ≠ "0.9" := by
      intro h
      have hmem : '.' ∈ (GoString.itoa (Int.ofNat f.bits.toNat)).toList := by
        rw [h]
        decide
      rw [GoString.toList_itoa_ofNat] at hmem
      exact absurd (JsonTree.isDigit_toDigits hmem) (by decide)
    have hparse := KeyType.parseUnsigned_itoa (w := .w64) ⟨f.bits.toNat, hlt⟩
    rw [spell, if_neg hbits, unspell, if_neg hdot]
    exact (congrArg (Option.bind · (ofNumber? w)) hparse).trans (ofNumber?_toNat f)

theorem literal_spell (w : FloatWidth) (f : FloatOf w) : (JsonTree.num (spell w f)).Literal := by
  rw [spell]
  split
  · rw [JsonTree.Literal]
    exact ⟨by decide, List.forall_iff_forall_mem.mp (by decide)⟩
  · exact JsonTree.literal_itoa _

/-- A number that is small enough has an exponent of zero. -/
theorem ofNumber?_small {n : Nat} (hn : n < 2 ^ 32) :
    ∃ f, ofNumber? .f64 n = some f ∧ f.bits.toNat = n := by
  have htoNat : (BitVec.ofNat (FloatWidth.bits .f64) n).toNat = n := by
    rw [BitVec.toNat_ofNat]
    exact Nat.mod_eq_of_lt (lt_trans hn (by decide))
  have hexponent : exponentOf .f64 (BitVec.ofNat (FloatWidth.bits .f64) n) = 0 := by
    rw [exponentOf, htoNat]
    show n / 2 ^ 52 % 2048 = 0
    omega
  have hnumber : isNaN .f64 (BitVec.ofNat (FloatWidth.bits .f64) n) = false := by
    show (exponentOf .f64 (BitVec.ofNat (FloatWidth.bits .f64) n) == _ && _) = false
    rw [hexponent]
    rfl
  exact ⟨⟨_, fun h => absurd (hnumber.symm.trans h) Bool.false_ne_true⟩, dif_pos _, htoNat⟩

theorem narrow_widen (f : FloatOf .f32) :
    spellingLibrary.narrow (spellingLibrary.widen f) = f := by
  have hlt : f.bits.toNat < 2 ^ 32 := f.bits.isLt
  obtain ⟨g, hg, hbits⟩ := ofNumber?_small hlt
  have hwiden : spellingLibrary.widen f = g := congrArg (·.getD (FloatOf.zero .f64)) hg
  show (ofNumber? .f32 (spellingLibrary.widen f).bits.toNat).getD (FloatOf.zero .f32) = f
  rw [hwiden, hbits, ofNumber?_toNat]
  rfl

theorem spellingLibrary_lawful : spellingLibrary.Lawful where
  parseFloat_format := unspell_spell .f64
  narrow_widen := narrow_widen
  parseFloat_literal w f _ := unspell_spell w f
  literal_isNumber w f _ := by
    have h := literal_spell w f
    rw [JsonTree.Literal] at h
    exact h.1
  literal_isNumeric w f _ := by
    have h := literal_spell w f
    rw [JsonTree.Literal] at h
    exact h.2

/-- Payment settings with these discounts, and the amounts that are there from the start. -/
def payment (discounts : SortedMap (KeyType.int .w64).Key (FloatOf .f64)) : paymentFields.Val :=
  (some { items := [10, 20, 50, 100, 200, 500].map (IntOf.wrap .w64) }, some discounts, ())

/-- Nine tenths for a hundred. -/
def hundredForNinety : SortedMap (KeyType.int .w64).Key (FloatOf .f64) :=
  SortedMap.empty.insert (IntOf.wrap .w64 100) nineTenths

/-- The texts of the payment settings without a discount. -/
def paymentTexts : SortedMap String String where
  entries := [("amount_discount", "\x7b\x7d"), ("amount_options", "[10,20,50,100,200,500]")]
  sorted := by decide

/-- **The exported settings have no discount; one that was there before the import stays.** -/
theorem discount_survives_import :
    configToMap spellingLibrary paymentFields (payment SortedMap.empty) = some paymentTexts ∧
      amountDiscount (updateConfigFromMap spellingLibrary paymentFields
        (payment hundredForNinety) paymentTexts) = some hundredForNinety ∧
      paymentFields.visible (updateConfigFromMap spellingLibrary paymentFields
          (payment hundredForNinety) paymentTexts) ≠
        paymentFields.visible (payment SortedMap.empty) := by
  refine ⟨?_, ?_, ?_⟩
  · rfl
  · rfl
  · intro h
    have hkeys := congrArg (fun v => (amountDiscount v).map fun m => m.entries.length) h
    exact absurd hkeys (by decide +kernel)

def zeroConfigs : registered.Configs := fun name => (registered.type name).zero

/-- Payment settings with a discount, and zero values in the other modules. -/
def savedConfigs : registered.Configs := fun name =>
  if h : name = "payment_setting" then
    h ▸ (show (registered.type "payment_setting").Val from payment hundredForNinety)
  else (registered.type name).zero

def storeRow (key value : String) (rows : SortedMap String String) :
    SortedMap String String × Option Unit := (rows.insert key value, none)

theorem stores_storeRow : Stores storeRow id := by
  intro key value s s' h k
  obtain rfl := (Prod.mk.inj h).1
  exact SortedMap.get?_insert s key value k

theorem savedConfigs_saved : ∃ rows, saveToDB storeRow spellingLibrary registered savedConfigs
    SortedMap.entries registered.names SortedMap.empty = (rows, none) := by
  have hnone : (saveToDB storeRow spellingLibrary registered savedConfigs SortedMap.entries
      registered.names SortedMap.empty).2.isNone = true := by decide +kernel
  generalize saveToDB storeRow spellingLibrary registered savedConfigs SortedMap.entries
    registered.names SortedMap.empty = run at hnone ⊢
  exact ⟨run.1, Prod.ext rfl (Option.isNone_iff_eq_none.mp hnone)⟩

theorem restores_zeroConfigs {name : String} (hname : name ∈ registered.names) :
    (registered.type name).Restores (savedConfigs name) (zeroConfigs name) := by
  by_cases hpayment : name = "payment_setting"
  · subst hpayment
    exact (paymentFields_restores_iff (payment hundredForNinety) paymentFields.zero).mpr
      fun _ _ _ _ => rfl
  · exact restores_registered hname hpayment _ _

/-- Zero values become the settings that were saved. -/
theorem saved_settings_restored :
    (∃ texts, configToMap spellingLibrary (registered.type "payment_setting")
        (savedConfigs "payment_setting") = some texts ∧
      (registered.type "payment_setting").visible (updateConfigFromMap spellingLibrary
          (registered.type "payment_setting") (zeroConfigs "payment_setting") texts) =
        (registered.type "payment_setting").visible (savedConfigs "payment_setting")) ∧
    ∃ rows, saveToDB storeRow spellingLibrary registered savedConfigs SortedMap.entries
        registered.names SortedMap.empty = (rows, none) ∧
      ∀ name ∈ registered.names,
        (registered.type name).visible (loadFromDB spellingLibrary registered rows zeroConfigs
            name) =
          (registered.type name).visible (savedConfigs name) := by
  have himport := import_undoes_export_iff spellingLibrary_lawful registered
  have hname : "payment_setting" ∈ registered.names := by decide
  have hsome : (configToMap spellingLibrary (registered.type "payment_setting")
      (savedConfigs "payment_setting")).isSome = true := by decide +kernel
  obtain ⟨texts, htexts⟩ := Option.isSome_iff_exists.mp hsome
  obtain ⟨rows, hrows⟩ := savedConfigs_saved
  refine ⟨⟨texts, htexts, ?_⟩, rows, hrows, ?_⟩
  · exact (himport.1 _ hname _ _ _ htexts).mpr (restores_zeroConfigs hname)
  · exact (himport.2 storeRow id stores_storeRow SortedMap.entries (fun _ => List.Perm.refl _) _
      (List.Perm.refl _) savedConfigs zeroConfigs SortedMap.empty rows
      hrows).mpr fun name hname => restores_zeroConfigs hname

end AuthGateway.Setting
