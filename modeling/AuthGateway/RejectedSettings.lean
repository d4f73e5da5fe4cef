import AuthGateway.ConfigImport
import AuthGateway.Setting.JsonSettings

/-!
# A rejected setting does not leave the old one

The maps with a lock, the groups, their limits and the ways of paying are emptied before the text
is decoded, so that a rejected text leaves **what its own members and items say and nothing of
the old setting**.  A field of a configuration is decoded in place and **the parts of a rejected
text that come before and after the wrong one are written to it**; only a text that is no
document, or is of another kind altogether, leaves it.

`unchanged_iff` says of each setter when the old setting stays all the same.
-/

namespace AuthGateway.RejectedSettings

open Setting

/-! ### When nothing changes -/

/-- The map has the entries of the text's members, and no others. -/
def OnlyMembers {V : Type} (d : Decoder V) (k : KeyType) (text : String)
    (v : Option (SortedMap k.Key V)) : Prop :=
  ∃ m, v = some m ∧ ∀ key, (m.get? key).map d.visible =
    ((d.entries k (Decoder.members text)).reverse.lookup key).map d.visible

/-- The slice has the items of the text, and no others. -/
def OnlyItems (lib : GoLibrary) (t : GoType) (text : String) (v : Option (Cells t.Val)) : Prop :=
  ∃ s, v = some s ∧ s.items.map t.visible =
    (Decoder.items text).map fun tree => t.visible (t.decode lib tree t.zero)

/-- What the text says of a variable is there already: the entries of an object in a map, an item
for each place of a slice, and for each field of a struct its own members. -/
def Agrees (lib : GoLibrary) : (t : GoType) → Option JsonTree → t.Val → Prop
  | .map k t, document, v =>
    match document with
    | some (.obj members) => ∃ m, v = some m ∧ ∀ key x,
        ((t.decoder lib).entries k members).reverse.lookup key = some x →
        (m.get? key).map t.visible = some (t.visible x)
    | _ => True
  | .slice t, document, v =>
    match document with
    | some (.arr items) => ∃ s, v = some s ∧
        List.Forall₂ (fun tree x => t.visible (t.decode lib tree x) = t.visible x) items
          (Cells.items s)
    | _ => True
  | .struct fields, document, v =>
    match document with
    | some (.obj members) =>
      fields.Settled lib (members.map fun m => (fields.resolve lib m.1, m.2)) v
    | _ => True
  | _, _, _ => True

/-- The types that `updateConfigFromMap` reads in JSON. -/
def IsComposite : GoType → Prop
  | .map _ _ | .slice _ | .struct _ => True
  | _ => False

/-- What holds of each field, its old value and its new one. -/
def EachField (P : String → (t : GoType) → t.Val → t.Val → Prop) :
    (fields : GoFields) → fields.Val → fields.Val → Prop
  | .nil, _, _ => True
  | .cons key t rest, old, new => P key t old.1 new.1 ∧ EachField P rest old.2 new.2

/-! ### Settings that are emptied first -/

/-- A map that is emptied first is left exactly when it has what the text says. -/
theorem emptied_map_iff {V : Type} {d : Decoder V} {k : KeyType} {text : String}
    (h : (d.map k).error? text ≠ none) (v : Option (SortedMap k.Key V)) :
    (d.map k).visible ((d.map k).unmarshal text (some SortedMap.empty)).1 = (d.map k).visible v ↔
      OnlyMembers d k text v := by
  rw [Decoder.unmarshal_map_empty h]
  cases v with
  | none =>
    refine iff_of_false nofun ?_
    rintro ⟨m, hm, -⟩
    exact nomatch hm
  | some m =>
    show some (SortedMap.mapValues d.visible _) = some (SortedMap.mapValues d.visible m) ↔ _
    rw [Option.some.injEq, SortedMap.mapValues_insertAll_eq_iff]
    have hentry : ∀ key, (((d.entries k (Decoder.members text)).reverse.lookup key).or
        (SortedMap.empty.get? key)).map d.visible = (m.get? key).map d.visible ↔
        (m.get? key).map d.visible =
          ((d.entries k (Decoder.members text)).reverse.lookup key).map d.visible := by
      intro key
      rw [SortedMap.get?_empty, Option.or_none]
      exact eq_comm
    constructor
    · intro h
      exact ⟨m, rfl, fun key => (hentry key).mp (h key)⟩
    · rintro ⟨m', hm, h⟩
      obtain rfl := Option.some.inj hm
      exact fun key => (hentry key).mpr (h key)

theorem emptied_seen_map_iff {V : Type} {d : Decoder V} (hd : ∀ v, d.visible v = v) {k : KeyType}
    {text : String} (h : (d.map k).error? text ≠ none) (v : Option (SortedMap k.Key V)) :
    ((d.map k).unmarshal text (some SortedMap.empty)).1 = v ↔ OnlyMembers d k text v := by
  rw [← emptied_map_iff h v, Decoder.visible_map hd, Decoder.visible_map hd]

theorem emptied_slice_iff (lib : GoLibrary) {t : GoType} {text : String}
    (h : ((GoType.slice t).decoder lib).error? text ≠ none) (v : Option (Cells t.Val)) :
    (GoType.slice t).visible
        (((GoType.slice t).decoder lib).unmarshal text (some (Cells.mk [] []))).1 =
      (GoType.slice t).visible v ↔ OnlyItems lib t text v := by
  obtain ⟨s, hs, hitems⟩ := Decoder.unmarshal_slice_empty lib h
  rw [hs]
  have hvisible : s.items.map t.visible =
      (Decoder.items text).map fun tree => t.visible (t.decode lib tree t.zero) := by
    rw [hitems, List.map_map]
    rfl
  cases v with
  | none =>
    refine iff_of_false nofun ?_
    rintro ⟨s, hs, -⟩
    exact nomatch hs
  | some old =>
    show some (Cells.mk (s.items.map t.visible) []) =
      some (Cells.mk (old.items.map t.visible) []) ↔ _
    rw [Option.some.injEq, Cells.mk.injEq, hvisible]
    constructor
    · intro h
      exact ⟨old, rfl, h.1.symm⟩
    · rintro ⟨s', hs', h⟩
      obtain rfl := Option.some.inj hs'
      exact ⟨h.symm, rfl⟩

/-! ### Fields that are decoded in place -/

theorem map_in_place_iff (lib : GoLibrary) (k : KeyType) (t : GoType) (tree : JsonTree)
    (h : (GoType.map k t).accepts lib tree = false) (v : (GoType.map k t).Val) :
    (GoType.map k t).visible ((GoType.map k t).decode lib tree v) = (GoType.map k t).visible v ↔
      Agrees lib (.map k t) (some tree) v := by
  cases tree with
  | null => exact nomatch h
  | obj members =>
    cases v with
    | none =>
      refine iff_of_false nofun ?_
      rintro ⟨m, hm, -⟩
      exact nomatch hm
    | some m =>
      show some (SortedMap.mapValues t.visible (SortedMap.insertAll m
        ((t.decoder lib).entries k members))) = some (SortedMap.mapValues t.visible m) ↔ _
      rw [Option.some.injEq, SortedMap.mapValues_insertAll_eq_iff]
      constructor
      · intro h
        refine ⟨m, rfl, fun key x hx => ?_⟩
        rw [← h key, hx]
        rfl
      · rintro ⟨m', hm, h⟩ key
        obtain rfl := Option.some.inj hm
        cases hx : ((t.decoder lib).entries k members).reverse.lookup key with
        | none => rfl
        | some x => exact (h key x hx).symm
  | _ => exact iff_of_true rfl trivial

theorem slice_in_place_iff (lib : GoLibrary) (t : GoType) (tree : JsonTree)
    (h : (GoType.slice t).accepts lib tree = false) (v : (GoType.slice t).Val) :
    (GoType.slice t).visible ((GoType.slice t).decode lib tree v) = (GoType.slice t).visible v ↔
      Agrees lib (.slice t) (some tree) v := by
  cases tree with
  | null => cases h
  | arr items =>
    cases v with
    | none =>
      refine iff_of_false (Option.some_ne_none _) ?_
      rintro ⟨s, hs, -⟩
      cases hs
    | some s =>
      show some (Cells.mk ((decodeCells (t.decode lib) t.zero items
        (s.items ++ s.spare)).map t.visible) []) = some (Cells.mk (s.items.map t.visible) []) ↔ _
      rw [Option.some.injEq, Cells.mk.injEq, map_decodeCells_eq_iff]
      constructor
      · intro h
        exact ⟨s, rfl, h.1⟩
      · rintro ⟨s', hs', h⟩
        obtain rfl := Option.some.inj hs'
        exact ⟨h, rfl⟩
  | str text =>
    have hnone : (Base64.decodeString? text).bind t.ofBytes? = none := by
      change ((Base64.decodeString? text).bind t.ofBytes?).isSome = false at h
      rwa [Option.isSome_eq_false_iff, Option.isNone_iff_eq_none] at h
    have hdecode : (GoType.slice t).decode lib (.str text) v = v := by
      rw [GoType.decode_slice_str, hnone]
    exact iff_of_true (congrArg _ hdecode) trivial
  | _ => exact iff_of_true rfl trivial

theorem struct_in_place_iff (lib : GoLibrary) (fields : GoFields) (tree : JsonTree)
    (v : (GoType.struct fields).Val) :
    (GoType.struct fields).visible ((GoType.struct fields).decode lib tree v) =
        (GoType.struct fields).visible v ↔
      Agrees lib (.struct fields) (some tree) v := by
  cases tree with
  | obj members =>
    exact fields.visible_foldl_iff lib (members.map fun m => (fields.resolve lib m.1, m.2)) v
  | _ => exact iff_of_true rfl trivial

/-- **A field is left exactly when it agrees with what the rejected text says.** -/
theorem writeField_unchanged_iff (lib : GoLibrary) {t : GoType} (ht : IsComposite t)
    {text : String} (h : (t.decoder lib).error? text ≠ none) (v : t.Val) :
    t.visible (writeField lib t text v) = t.visible v ↔ Agrees lib t (JsonTree.read text) v := by
  match t with
  | .map k t =>
    show (GoType.map k t).visible (unmarshal lib (.map k t) text v) = _ ↔ _
    unfold unmarshal
    cases hread : JsonTree.read text with
    | none => exact iff_of_true rfl trivial
    | some tree => exact map_in_place_iff lib k t tree (Decoder.accepts_of_error h hread) v
  | .slice t =>
    show (GoType.slice t).visible (unmarshal lib (.slice t) text v) = _ ↔ _
    unfold unmarshal
    cases hread : JsonTree.read text with
    | none => exact iff_of_true rfl trivial
    | some tree => exact slice_in_place_iff lib t tree (Decoder.accepts_of_error h hread) v
  | .struct fields =>
    show (GoType.struct fields).visible (unmarshal lib (.struct fields) text v) = _ ↔ _
    unfold unmarshal
    cases hread : JsonTree.read text with
    | none => exact iff_of_true rfl trivial
    | some tree => exact struct_in_place_iff lib fields tree v

/-- One field after the other is written from its own text. -/
theorem eachField_update (lib : GoLibrary) {P : String → (t : GoType) → t.Val → t.Val → Prop}
    {configMap : SortedMap String String}
    (hP : ∀ key t v, P key t v (match configMap.get? key with
      | some strValue => writeField lib t strValue v
      | none => v)) :
    (fields : GoFields) → (v : fields.Val) →
    EachField P fields v (updateConfigFromMap lib fields v configMap)
  | .nil, _ => trivial
  | .cons key t rest, v => ⟨hP key t v.1, eachField_update lib hP rest v.2⟩

/-! ### Every setter -/

/-- One group without a description. -/
def namelessGroup : Groups := some (SortedMap.empty.insert (show KeyType.string.Key from "a") "")

/-- One group without requests. -/
def noRequests : GroupLimits :=
  some (SortedMap.empty.insert (show KeyType.string.Key from "a")
    (IntOf.zero .w64, IntOf.zero .w64))

/-- One way of paying of which nothing is known. -/
def unknownMethod : payMethodsType.Val :=
  some (Cells.mk (V := (GoType.map .string .string).Val) [none] [])

/-- Payment settings with one amount to choose. -/
def oneAmount (n : Int) : paymentFields.Val :=
  (some (Cells.mk [IntOf.wrap .w64 n] []), none, ())

/-- A text for the amounts to choose from. -/
def amountTexts (text : String) : SortedMap String String :=
  SortedMap.empty.insert "amount_options" text

/-- A number where a description belongs. -/
def numberForName : JsonTree := .obj [("a", .num "1")]

/-- A word where the first limit belongs. -/
def wordForLimit : JsonTree := .obj [("a", .arr [.str "x"])]

/-- A number where a way of paying belongs. -/
def numberForMethod : JsonTree := .arr [.num "1"]

/-- A word where an amount belongs. -/
def wordForAmount : JsonTree := .arr [.str "x"]

/-- An amount, and a word for the next one. -/
def amountAndWord : JsonTree := .arr [.num "1", .str "x"]

theorem literal_documents : numberForName.Literal ∧ wordForLimit.Literal ∧
    numberForMethod.Literal ∧ wordForAmount.Literal ∧ amountAndWord.Literal := by
  have hone : JsonTree.isNumber "1".toList = true ∧
      ∀ c ∈ "1".toList, JsonTree.isNumeric c = true :=
    ⟨by decide, List.forall_iff_forall_mem.mp (by decide)⟩
  refine ⟨?_, ?_, ?_, ?_, ?_⟩
  · simpa [numberForName, JsonTree.Literal, JsonTree.LiteralMembers] using hone
  · simp [wordForLimit, JsonTree.Literal, JsonTree.LiteralMembers, JsonTree.LiteralItems]
  · simpa [numberForMethod, JsonTree.Literal, JsonTree.LiteralItems] using hone
  · simp [wordForAmount, JsonTree.Literal, JsonTree.LiteralItems]
  · simpa [amountAndWord, JsonTree.Literal, JsonTree.LiteralItems] using hone

theorem read_oops : JsonTree.read "oops" = none := by
  have hnone : (JsonTree.read "oops").isNone = true := by decide +kernel
  exact Option.isNone_iff_eq_none.mp hnone

theorem decode_amountAndWord (v : (GoType.int .w64).Val) :
    (GoType.slice (.int .w64)).decode spellingLibrary amountAndWord (some (Cells.mk [v] [])) =
      some (Cells.mk [(IntOf.wrap .w64 1 : (GoType.int .w64).Val), IntOf.zero .w64] []) := by
  have hone : (KeyType.parseSigned "1").bind (IntOf.of? .w64) = some (IntOf.wrap .w64 1) := by
    decide +kernel
  have hnumber : (GoType.int .w64).decode spellingLibrary (.num "1") v = IntOf.wrap .w64 1 := by
    show ((KeyType.parseSigned "1").bind (IntOf.of? .w64)).getD v = IntOf.wrap .w64 1
    rw [hone]
    rfl
  show some (Cells.mk [(GoType.int .w64).decode spellingLibrary (.num "1") v,
    (IntOf.zero .w64 : (GoType.int .w64).Val)] []) = _
  rw [hnumber]
  rfl

theorem get?_amountTexts (text : String) :
    (amountTexts text).get? "amount_options" = some text := by
  rw [amountTexts, SortedMap.get?_insert, if_pos rfl]

/-- The amounts are written from their text. -/
theorem update_amountTexts (text : String) (config : paymentFields.Val) :
    (updateConfigFromMap spellingLibrary paymentFields config (amountTexts text)).1 =
      unmarshal spellingLibrary (.slice (.int .w64)) text config.1 := by
  show (match (amountTexts text).get? "amount_options" with
    | some strValue => writeField spellingLibrary (.slice (.int .w64)) strValue config.1
    | none => config.1) = _
  rw [get?_amountTexts]
  rfl

end AuthGateway.RejectedSettings
