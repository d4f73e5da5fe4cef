import AuthGateway.Lib.GoRoundTrip

/-!
# What decoding rejects

`json.Unmarshal` reports a text that is no document, and otherwise the first part that does not
fit its type; it goes on behind such a part all the same.  A `Decoder` is what it does to
variables of one type, with the documents that it `accepts` without a report.

**What a rejected text leaves is told part by part**: a map is set to the entries that the
members make, of which the last one of a name counts (`SortedMap.mapValues_insertAll_eq_iff`), a
slice to the items (`map_decodeCells_eq_iff`), and a field of a struct to what its own members
make of it (`GoFields.visible_foldl_iff`).
-/

namespace SortedMap

variable {K V : Type} [LinearOrder K]

/-- **The last entry of a key counts**, whatever the order of the entries. -/
theorem get?_insertAll_reverse (l : List (K × V)) (m : SortedMap K V) (k : K) :
    (m.insertAll l).get? k = (l.reverse.lookup k).or (m.get? k) := by
  induction l generalizing m with
  | nil => rfl
  | cons p l ih =>
    show ((m.insert p.1 p.2).insertAll l).get? k = _
    rw [ih, get?_insert, List.reverse_cons, List.lookup_append, Option.or_assoc]
    congr 1
    show _ = (List.lookup k [(p.1, p.2)]).or (m.get? k)
    rw [lookup_cons_eq]
    by_cases hk : k = p.1
    · rw [if_pos hk, if_pos hk]
      rfl
    · rw [if_neg hk, if_neg hk]
      rfl

theorem mapValues_insertAll_eq_iff (visible : V → V) (l : List (K × V)) (m m' : SortedMap K V) :
    (m.insertAll l).mapValues visible = m'.mapValues visible ↔
      ∀ k, ((l.reverse.lookup k).or (m.get? k)).map visible = (m'.get? k).map visible := by
  constructor
  · intro h k
    rw [← get?_insertAll_reverse, ← get?_mapValues, h, get?_mapValues]
  · intro h
    apply ext_get?
    intro k
    rw [get?_mapValues, get?_mapValues, get?_insertAll_reverse, h k]

end SortedMap

/-! ### Items and cells -/

section Cells

variable {V : Type} {decode : JsonTree → V → V} {visible : V → V} {zero : V}

theorem decodeCells_nil (items : List JsonTree) :
    decodeCells decode zero items [] = items.map fun tree => decode tree zero := by
  induction items with
  | nil => rfl
  | cons tree items ih =>
    show decode tree zero :: decodeCells decode zero items [] = _
    rw [ih, List.map_cons]

/-- **The items leave a slice as it is exactly when there is one for each place and every place
is left.** -/
theorem map_decodeCells_eq_iff (items : List JsonTree) (old spare : List V) :
    (decodeCells decode zero items (old ++ spare)).map visible = old.map visible ↔
      List.Forall₂ (fun tree v => visible (decode tree v) = visible v) items old := by
  induction items generalizing old with
  | nil =>
    cases old with
    | nil => exact iff_of_true rfl List.Forall₂.nil
    | cons v old => exact iff_of_false nofun nofun
  | cons tree items ih =>
    cases old with
    | nil => exact iff_of_false nofun nofun
    | cons v old =>
      show visible (decode tree v) :: (decodeCells decode zero items (old ++ spare)).map visible =
        visible v :: old.map visible ↔ _
      rw [List.cons.injEq, List.forall₂_cons, ih]

end Cells

/-! ### What fits a type -/

section
variable (lib : GoLibrary)

mutual

/-- Decoding the document reports nothing. -/
def GoType.accepts : (t : GoType) → JsonTree → Bool
  | .string, tree =>
    match tree with
    | .null | .str _ => true
    | _ => false
  | .bool, tree =>
    match tree with
    | .null | .bool _ => true
    | _ => false
  | .int w, tree =>
    match tree with
    | .null => true
    | .num literal => ((KeyType.parseSigned literal).bind (IntOf.of? w)).isSome
    | _ => false
  | .uint w, tree =>
    match tree with
    | .null => true
    | .num literal => ((KeyType.parseUnsigned literal).bind (UintOf.of? w)).isSome
    | _ => false
  | .float w, tree =>
    match tree with
    | .null => true
    | .num literal => (lib.parseFloat w literal).isSome
    | _ => false
  | .ptr t, tree =>
    match tree with
    | .null => true
    | tree => t.accepts tree
  | .map k t, tree =>
    match tree with
    | .null => true
    | .obj members => members.all fun m => (k.ofText m.1).isSome && t.accepts m.2
    | _ => false
  | .slice t, tree =>
    match tree with
    | .null => true
    | .arr items => items.all fun item => t.accepts item
    | .str s => ((Base64.decodeString? s).bind t.ofBytes?).isSome
    | _ => false
  | .struct fields, tree =>
    match tree with
    | .null => true
    | .obj members => members.all fun m => fields.acceptsMember (fields.resolve lib m.1) m.2
    | _ => false

/-- A member that no field has the name of is passed over. -/
def GoFields.acceptsMember : (fields : GoFields) → String → JsonTree → Bool
  | .nil, _, _ => true
  | .cons name t rest, key, tree =>
    if key = name then t.accepts tree else rest.acceptsMember key tree

end

end

/-! ### Fields and members -/

/-- One variable after the documents of several members, one after another. -/
def GoType.decodeAll (lib : GoLibrary) (t : GoType) (trees : List JsonTree) (v : t.Val) : t.Val :=
  trees.foldl (fun v tree => t.decode lib tree v) v

/-- Every field is left by the members that go to it. -/
def GoFields.Settled (lib : GoLibrary) : (fields : GoFields) → List (String × JsonTree) →
    fields.Val → Prop
  | .nil, _, _ => True
  | .cons name t rest, members, v =>
    t.visible (t.decodeAll lib ((members.filter (·.1 = name)).map Prod.snd) v.1) =
        t.visible v.1 ∧
      rest.Settled lib (members.filter (·.1 ≠ name)) v.2

/-- The members of the first field go there, and the others to the rest. -/
theorem GoFields.foldl_cons (lib : GoLibrary) {name : String} {t : GoType} {rest : GoFields}
    (members : List (String × JsonTree)) (v : t.Val) (vs : rest.Val) :
    members.foldl (fun v m => (GoFields.cons name t rest).decodeMember lib m.1 m.2 v)
        (show (GoFields.cons name t rest).Val from (v, vs)) =
      (t.decodeAll lib ((members.filter (·.1 = name)).map Prod.snd) v,
        (members.filter (·.1 ≠ name)).foldl (fun v m => rest.decodeMember lib m.1 m.2 v) vs) := by
  induction members generalizing v vs with
  | nil => rfl
  | cons m members ih =>
    by_cases hname : m.1 = name
    · have hstep : (GoFields.cons name t rest).decodeMember lib m.1 m.2 (v, vs) =
          (t.decode lib m.2 v, vs) := if_pos hname
      show members.foldl (fun v m => (GoFields.cons name t rest).decodeMember lib m.1 m.2 v)
        ((GoFields.cons name t rest).decodeMember lib m.1 m.2 (v, vs)) = _
      rw [hstep, List.filter_cons_of_pos (by simpa using hname),
        List.filter_cons_of_neg (by simpa using hname)]
      exact ih (t.decode lib m.2 v) vs
    · have hstep : (GoFields.cons name t rest).decodeMember lib m.1 m.2 (v, vs) =
          (v, rest.decodeMember lib m.1 m.2 vs) := if_neg hname
      show members.foldl (fun v m => (GoFields.cons name t rest).decodeMember lib m.1 m.2 v)
        ((GoFields.cons name t rest).decodeMember lib m.1 m.2 (v, vs)) = _
      rw [hstep, List.filter_cons_of_neg (by simpa using hname),
        List.filter_cons_of_pos (by simpa using hname)]
      exact ih v (rest.decodeMember lib m.1 m.2 vs)

/-- **The members leave a struct as it is exactly when each field is left by its own.** -/
theorem GoFields.visible_foldl_iff (lib : GoLibrary) : (fields : GoFields) →
    (members : List (String × JsonTree)) → (v : fields.Val) →
    (fields.visible (members.foldl (fun v m => fields.decodeMember lib m.1 m.2 v) v) =
        fields.visible v ↔ fields.Settled lib members v)
  | .nil, _, _ => iff_of_true rfl trivial
  | .cons name t rest, members, (v, vs) => by
    rw [GoFields.foldl_cons]
    have hrest := GoFields.visible_foldl_iff lib rest (members.filter (·.1 ≠ name)) vs
    refine Iff.trans ?_ (and_congr Iff.rfl hrest)
    rw [← Prod.mk.injEq]
    exact Iff.rfl

/-! ### Decoders -/

/-- What decoding does to variables of one type. -/
structure Decoder (V : Type) where
  zero : V
  /-- What can be seen of a value. -/
  visible : V → V
  decode : JsonTree → V → V
  accepts : JsonTree → Bool

def GoType.decoder (lib : GoLibrary) (t : GoType) : Decoder t.Val :=
  ⟨t.zero, t.visible, t.decode lib, t.accepts lib⟩

inductive UnmarshalError
  | syntaxError
  | unmarshalTypeError
deriving DecidableEq

namespace Decoder

variable {V : Type} (d : Decoder V)

/-- The error of `json.Unmarshal`. -/
def error? (text : String) : Option UnmarshalError :=
  match JsonTree.read text with
  | some tree => if d.accepts tree then none else some .unmarshalTypeError
  | none => some .syntaxError

/-- `json.Unmarshal` into a variable: what is there afterwards, and the error. -/
def unmarshal (text : String) (v : V) : V × Option UnmarshalError :=
  (match JsonTree.read text with
    | some tree => d.decode tree v
    | none => v,
    d.error? text)

/-- The entries that the members of an object make: a value that does not fit is zero. -/
def entries (k : KeyType) (members : List (String × JsonTree)) : List (k.Key × V) :=
  members.filterMap fun m => (k.ofText m.1).map fun key => (key, d.decode m.2 d.zero)

/-- A `map[K]V`. -/
def map (k : KeyType) : Decoder (Option (SortedMap k.Key V)) where
  zero := none
  visible v := v.map (SortedMap.mapValues d.visible)
  decode tree v :=
    match tree with
    | .null => none
    | .obj members => some ((v.getD SortedMap.empty).insertAll (d.entries k members))
    | _ => v
  accepts tree :=
    match tree with
    | .null => true
    | .obj members => members.all fun m => (k.ofText m.1).isSome && d.accepts m.2
    | _ => false

/-- A `[2]V`: items that are left over are passed over, and a place without one is zeroed. -/
def pair : Decoder (V × V) where
  zero := (d.zero, d.zero)
  visible v := (d.visible v.1, d.visible v.2)
  decode tree v :=
    match tree with
    | .arr [] => (d.zero, d.zero)
    | .arr [a] => (d.decode a v.1, d.zero)
    | .arr (a :: b :: _) => (d.decode a v.1, d.decode b v.2)
    | _ => v
  accepts tree :=
    match tree with
    | .null => true
    | .arr items => (items.take 2).all d.accepts
    | _ => false

theorem decoder_map (lib : GoLibrary) (k : KeyType) (t : GoType) :
    (GoType.map k t).decoder lib = (t.decoder lib).map k := by
  unfold GoType.decoder map
  congr 1

variable {d}

theorem visible_map (h : ∀ v, d.visible v = v) {k : KeyType} (v : Option (SortedMap k.Key V)) :
    (d.map k).visible v = v := by
  cases v with
  | none => rfl
  | some m =>
    refine congrArg some (SortedMap.ext_get? fun key => ?_)
    rw [SortedMap.get?_mapValues, funext h]
    exact Option.map_id'

/-! ### Rejected texts -/

theorem accepts_of_error {text : String} (h : d.error? text ≠ none) {tree : JsonTree}
    (htree : JsonTree.read text = some tree) : d.accepts tree = false := by
  unfold error? at h
  rw [htree] at h
  exact Bool.eq_false_iff.mpr fun haccepts => h (if_pos haccepts)

theorem error_of_read {text : String} {tree : JsonTree} (htree : JsonTree.read text = some tree)
    (h : d.accepts tree = false) : d.error? text = some .unmarshalTypeError := by
  unfold error?
  rw [htree]
  exact if_neg (ne_true_of_eq_false h)

theorem rejects_of_read {text : String} {tree : JsonTree} (htree : JsonTree.read text = some tree)
    (h : d.accepts tree = false) : d.error? text ≠ none := by
  rw [error_of_read htree h]
  exact nofun

/-- The members of a text that is an object. -/
def members (text : String) : List (String × JsonTree) :=
  match JsonTree.read text with
  | some (.obj members) => members
  | _ => []

/-- The items of a text that is an array. -/
def items (text : String) : List JsonTree :=
  match JsonTree.read text with
  | some (.arr items) => items
  | _ => []

theorem members_of_read {text : String} {l : List (String × JsonTree)}
    (h : JsonTree.read text = some (.obj l)) : members text = l := by
  unfold members
  rw [h]

theorem items_of_read {text : String} {l : List JsonTree}
    (h : JsonTree.read text = some (.arr l)) : items text = l := by
  unfold items
  rw [h]

/-- **A rejected text makes an empty map into the entries of its members.** -/
theorem unmarshal_map_empty {k : KeyType} {text : String} (h : (d.map k).error? text ≠ none) :
    ((d.map k).unmarshal text (some SortedMap.empty)).1 =
      some (SortedMap.empty.insertAll (d.entries k (members text))) := by
  unfold unmarshal members
  cases hread : JsonTree.read text with
  | none => rfl
  | some tree =>
    cases tree with
    | null => exact nomatch accepts_of_error h hread
    | obj members => rfl
    | _ => rfl

/-- **A rejected text makes an empty slice into its items.** -/
theorem unmarshal_slice_empty (lib : GoLibrary) {t : GoType} {text : String}
    (h : ((GoType.slice t).decoder lib).error? text ≠ none) :
    ∃ s : Cells t.Val, (((GoType.slice t).decoder lib).unmarshal text
        (some (Cells.mk [] []))).1 = some s ∧
      s.items = (items text).map fun tree => t.decode lib tree t.zero := by
  unfold unmarshal items
  cases hread : JsonTree.read text with
  | none => exact ⟨⟨[], []⟩, rfl, rfl⟩
  | some tree =>
    have haccepts := accepts_of_error h hread
    cases tree with
    | null => cases haccepts
    | arr items => exact ⟨_, rfl, decodeCells_nil items⟩
    | str s =>
      have hnone : (Base64.decodeString? s).bind t.ofBytes? = none := by
        change ((Base64.decodeString? s).bind t.ofBytes?).isSome = false at haccepts
        rwa [Option.isSome_eq_false_iff, Option.isNone_iff_eq_none] at haccepts
      have hdecode : (GoType.slice t).decode lib (.str s) (some (Cells.mk [] [])) =
          some (Cells.mk [] []) := (GoType.decode_slice_str t s _).trans (by rw [hnone])
      exact ⟨⟨[], []⟩, hdecode, rfl⟩
    | _ => exact ⟨⟨[], []⟩, rfl, rfl⟩

end Decoder
