import AuthGateway.Lib.GoJson

/-!
# What decoding restores

Decoding what was marshalled gives the value back only if nothing of the old value shows
through.  `GoType.Restores c d` says so of the value `c` and the old value `d`, from the type:
no map of `d` has a key that the map of `c` in its place lacks, and no pointer of `c` leads to
something that is written as `null`.

**Decoding the document of `c` into `d` gives `c` exactly when that holds**
(`GoType.decode_marshal_iff`).
-/

/-! ### Numbers in documents -/

namespace JsonTree

theorem isNumeric_of_isDigit {c : Char} (h : c.isDigit = true) : isNumeric c = true := by
  simp [isNumeric, h]

theorem isDigit_toDigits {n : Nat} {c : Char} (h : c ∈ Nat.toDigits 10 n) : c.isDigit = true :=
  Nat.isDigit_of_mem_toDigits (by decide) (by decide) h

/-- Only the number zero begins with the digit zero. -/
theorem toDigits_head_ne_zero {n : Nat} (hn : n ≠ 0) :
    ∃ c l, Nat.toDigits 10 n = c :: l ∧ c ≠ '0' := by
  induction n using Nat.strongRecOn with
  | ind n ih =>
    by_cases hlt : n < 10
    · refine ⟨n.digitChar, [], Nat.toDigits_of_lt_base hlt, ?_⟩
      have hall : ∀ n < 10, n ≠ 0 → n.digitChar ≠ '0' := by decide
      exact hall n hlt hn
    · obtain ⟨c, l, hl, hc⟩ := ih (n / 10) (by omega) (by omega)
      refine ⟨c, l ++ [(n % 10).digitChar], ?_, hc⟩
      rw [Nat.toDigits_of_base_le (by omega) (by omega), hl, List.cons_append]

theorem unsigned_toDigits (n : Nat) : unsigned (Nat.toDigits 10 n) = true := by
  by_cases hn : n = 0
  · rw [hn]
    decide
  · obtain ⟨c, l, hl, hc⟩ := toDigits_head_ne_zero hn
    have hdigits : ∀ x ∈ c :: l, x.isDigit = true := fun x hx => isDigit_toDigits (by rwa [hl])
    have hwhole : whole (c :: l) = some [] := by
      have hrest : l.dropWhile Char.isDigit = [] := by
        rw [List.dropWhile_eq_nil_iff]
        exact fun x hx => hdigits x (List.mem_cons_of_mem _ hx)
      have hdigit := hdigits c List.mem_cons_self
      simp [whole, hc, digits, hdigit, hrest]
    rw [hl, unsigned, hwhole]
    rfl

theorem isNumber_toDigits (n : Nat) : isNumber (Nat.toDigits 10 n) = true := by
  have hunsigned := unsigned_toDigits n
  obtain ⟨c, l, hl, hc⟩ := GoString.toDigits_head n
  rw [hl] at hunsigned ⊢
  have hminus : c ≠ '-' := by
    rintro rfl
    exact absurd hc (by decide)
  simpa [isNumber, hminus] using hunsigned

/-- The text of an integer is a number. -/
theorem literal_itoa (n : Int) : Literal (num (GoString.itoa n)) := by
  rw [Literal]
  cases n with
  | ofNat n =>
    rw [GoString.toList_itoa_ofNat]
    exact ⟨isNumber_toDigits n, fun c hc => isNumeric_of_isDigit (isDigit_toDigits hc)⟩
  | negSucc n =>
    rw [GoString.toList_itoa_negSucc]
    refine ⟨unsigned_toDigits (n + 1), fun c hc => ?_⟩
    rcases List.mem_cons.mp hc with rfl | hc
    · decide
    · exact isNumeric_of_isDigit (isDigit_toDigits hc)

theorem literalItems_iff {items : List JsonTree} :
    LiteralItems items ↔ ∀ t ∈ items, Literal t := by
  induction items with
  | nil => simp [LiteralItems]
  | cons t items ih => simp [LiteralItems, ih]

theorem literalMembers_iff {members : List (String × JsonTree)} :
    LiteralMembers members ↔ ∀ m ∈ members, Literal m.2 := by
  induction members with
  | nil => simp [LiteralMembers]
  | cons m members ih =>
    obtain ⟨key, t⟩ := m
    simp [LiteralMembers, ih]

end JsonTree

/-! ### Lists -/

theorem convertAll_cons {α β : Type} {f : α → Option β} {a : α} {l : List α} {bs : List β}
    (h : convertAll f (a :: l) = some bs) :
    ∃ b rest, f a = some b ∧ convertAll f l = some rest ∧ bs = b :: rest := by
  rw [convertAll] at h
  cases ha : f a with
  | none => simp [ha] at h
  | some b =>
    cases hl : convertAll f l with
    | none => simp [ha, hl] at h
    | some rest =>
      rw [ha, hl] at h
      exact ⟨b, rest, rfl, rfl, (Option.some.inj h).symm⟩

theorem convertAll_mem {α β : Type} {f : α → Option β} {l : List α} {bs : List β}
    (h : convertAll f l = some bs) {b : β} (hb : b ∈ bs) : ∃ a ∈ l, f a = some b := by
  induction l generalizing bs with
  | nil =>
    obtain rfl := Option.some.inj h
    exact nomatch hb
  | cons a l ih =>
    obtain ⟨b', rest, ha, hl, rfl⟩ := convertAll_cons h
    rcases List.mem_cons.mp hb with rfl | hb
    · exact ⟨a, List.mem_cons_self, ha⟩
    · obtain ⟨x, hx, hfx⟩ := ih hl hb
      exact ⟨x, List.mem_cons_of_mem _ hx, hfx⟩

/-- Cell by cell, the old cells give way to the items. -/
def RestoresCells {V : Type} (R : V → V → Prop) (zero : V) : List V → List V → Prop
  | [], _ => True
  | v :: items, cells => R v (cells.headD zero) ∧ RestoresCells R zero items cells.tail

section Parts

variable {V : Type} {marshal : V → Option JsonTree} {decode : JsonTree → V → V} {visible : V → V}
  {R : V → V → Prop} {zero : V}

theorem decodeCells_iff (zero : V)
    (h : ∀ c d tree, marshal c = some tree → (visible (decode tree d) = visible c ↔ R c d))
    {items : List V} {trees : List JsonTree} (ht : convertAll marshal items = some trees)
    (cells : List V) :
    (decodeCells decode zero trees cells).map visible = items.map visible ↔
      RestoresCells R zero items cells := by
  induction items generalizing trees cells with
  | nil =>
    obtain rfl := Option.some.inj ht
    simp [decodeCells, RestoresCells]
  | cons v items ih =>
    obtain ⟨tree, rest, hv, hrest, rfl⟩ := convertAll_cons ht
    rw [decodeCells, List.map_cons, List.map_cons, List.cons.injEq, RestoresCells,
      h v _ tree hv, ih hrest]

/-- A value that went through a document, starting from the zero value. -/
def throughDocument (marshal : V → Option JsonTree) (decode : JsonTree → V → V) (zero v : V) : V :=
  match marshal v with
  | some tree => decode tree zero
  | none => v

/-- The entries that an object of a map is read as. -/
theorem entries_of_members (k : KeyType) {l : List (k.Key × V)} {members : List (String × JsonTree)}
    (h : convertAll (fun p => (marshal p.2).map fun tree => (k.text p.1, tree)) l = some members) :
    members.filterMap (fun m => (k.ofText m.1).map fun key => (key, decode m.2 zero)) =
      l.map fun p => (p.1, throughDocument marshal decode zero p.2) := by
  induction l generalizing members with
  | nil =>
    obtain rfl := Option.some.inj h
    rfl
  | cons p l ih =>
    obtain ⟨m, rest, hp, hrest, rfl⟩ := convertAll_cons h
    obtain ⟨tree, htree, rfl⟩ := Option.map_eq_some_iff.mp hp
    rw [List.filterMap_cons, KeyType.ofText_text, ih hrest, List.map_cons]
    rw [throughDocument, htree]
    rfl

/-- **A map is restored exactly when the old one has no key more**, and its values are
restored from the zero value. -/
theorem decodeMap_iff (k : KeyType) (zero : V) (old : SortedMap k.Key V)
    (h : ∀ c d tree, marshal c = some tree → (visible (decode tree d) = visible c ↔ R c d))
    {m : SortedMap k.Key V} {members : List (String × JsonTree)}
    (ht : convertAll (fun p => (marshal p.2).map fun tree => (k.text p.1, tree)) m.entries =
      some members) :
    (old.insertAll (members.filterMap fun m =>
        (k.ofText m.1).map fun key => (key, decode m.2 zero))).mapValues visible =
      m.mapValues visible ↔
    (∀ key, m.get? key = none → old.get? key = none) ∧
      ∀ key v, m.get? key = some v → R v zero := by
  have hsorted : (m.entries.map fun p =>
      (p.1, throughDocument marshal decode zero p.2)).Pairwise fun a b => a.1 < b.1 :=
    List.pairwise_map.mpr m.sorted
  have hget : ∀ key, (old.insertAll (members.filterMap fun m =>
      (k.ofText m.1).map fun key => (key, decode m.2 zero))).get? key =
      ((m.get? key).map (throughDocument marshal decode zero)).or (old.get? key) := by
    intro key
    rw [entries_of_members k ht, SortedMap.get?_insertAll hsorted, SortedMap.lookup_map]
    rfl
  have hvalue : ∀ key v, m.get? key = some v →
      (visible (throughDocument marshal decode zero v) = visible v ↔ R v zero) := by
    intro key v hv
    have hmem := SortedMap.get?_eq_some.mp hv
    have hsome : ∃ tree, marshal v = some tree := by
      clear hget hsorted
      generalize m.entries = l at ht hmem
      induction l generalizing members with
      | nil => exact nomatch hmem
      | cons p l ih =>
        obtain ⟨b, rest, hp, hrest, -⟩ := convertAll_cons ht
        rcases List.mem_cons.mp hmem with rfl | hmem
        · obtain ⟨tree, htree, -⟩ := Option.map_eq_some_iff.mp hp
          exact ⟨tree, htree⟩
        · exact ih hrest hmem
    obtain ⟨tree, htree⟩ := hsome
    rw [throughDocument, htree]
    exact h v zero tree htree
  constructor
  · intro heq
    have hlookups : ∀ key, (((m.get? key).map (throughDocument marshal decode zero)).or
        (old.get? key)).map visible = (m.get? key).map visible := by
      intro key
      rw [← hget key, ← SortedMap.get?_mapValues, heq, SortedMap.get?_mapValues]
    refine ⟨fun key hnone => ?_, fun key v hv => ?_⟩
    · have hkey := hlookups key
      rw [hnone] at hkey
      simpa using hkey
    · have hkey := hlookups key
      rw [hv] at hkey
      exact (hvalue key v hv).mp (by simpa using hkey)
  · rintro ⟨hkeys, hvalues⟩
    apply SortedMap.ext_get?
    intro key
    rw [SortedMap.get?_mapValues, SortedMap.get?_mapValues, hget]
    cases hkey : m.get? key with
    | none => simp [hkeys key hkey]
    | some v => simpa using (hvalue key v hkey).mpr (hvalues key v hkey)

end Parts

/-! ### What is written as null -/

/-- The value is a nil pointer, map or slice, or a pointer to one. -/
def GoType.isNull : (t : GoType) → t.Val → Bool
  | .ptr t, v =>
    match v with
    | none => true
    | some v => t.isNull v
  | .map _ _, v => Option.isNone v
  | .slice _, v => Option.isNone v
  | _, _ => false

variable {lib : GoLibrary}

theorem GoType.marshal_slice (t : GoType) (s : Cells t.Val) :
    (GoType.slice t).marshal lib (some s) =
      match t.bytes? (Cells.items s) with
      | some bytes => some (.str (Base64.encodeToString bytes))
      | none => (convertAll (t.marshal lib) (Cells.items s)).map .arr := rfl

/-- A text is the items of a slice in base64. -/
theorem GoType.decode_slice_str (t : GoType) (text : String) (v : (GoType.slice t).Val) :
    (GoType.slice t).decode lib (.str text) v =
      match (Base64.decodeString? text).bind t.ofBytes? with
      | some items => some { items := items }
      | none => v := rfl

theorem GoType.marshal_eq_null : (t : GoType) → (v : t.Val) → {tree : JsonTree} →
    t.marshal lib v = some tree → (tree = .null ↔ t.isNull v = true)
  | .string, v, tree, h => by
    obtain rfl := Option.some.inj h
    exact iff_of_false (by simp) Bool.false_ne_true
  | .bool, v, tree, h => by
    obtain rfl := Option.some.inj h
    exact iff_of_false (by simp) Bool.false_ne_true
  | .int w, v, tree, h => by
    obtain rfl := Option.some.inj h
    exact iff_of_false (by simp) Bool.false_ne_true
  | .uint w, v, tree, h => by
    obtain rfl := Option.some.inj h
    exact iff_of_false (by simp) Bool.false_ne_true
  | .float w, v, tree, h => by
    rw [GoType.marshal] at h
    split at h
    · obtain rfl := Option.some.inj h
      exact iff_of_false (by simp) Bool.false_ne_true
    · cases h
  | .ptr t, none, tree, h => by
    obtain rfl := Option.some.inj h
    exact iff_of_true rfl rfl
  | .ptr t, some v, tree, h => GoType.marshal_eq_null t v h
  | .map k t, none, tree, h => by
    obtain rfl := Option.some.inj h
    exact iff_of_true rfl rfl
  | .map k t, some m, tree, h => by
    obtain ⟨members, -, rfl⟩ := Option.map_eq_some_iff.mp h
    exact iff_of_false (by simp) Bool.false_ne_true
  | .slice t, none, tree, h => by
    obtain rfl := Option.some.inj h
    exact iff_of_true rfl rfl
  | .slice t, some s, tree, h => by
    rw [GoType.marshal_slice] at h
    split at h
    · obtain rfl := Option.some.inj h
      exact iff_of_false (by simp) Bool.false_ne_true
    · obtain ⟨items, -, rfl⟩ := Option.map_eq_some_iff.mp h
      exact iff_of_false (by simp) Bool.false_ne_true
  | .struct fields, v, tree, h => by
    obtain ⟨members, -, rfl⟩ := Option.map_eq_some_iff.mp h
    exact iff_of_false (by simp) Bool.false_ne_true

theorem GoFields.marshal_pair (name : String) (t : GoType) (rest : GoFields) (v : t.Val)
    (vs : rest.Val) :
    (GoFields.cons name t rest).marshal lib (v, vs) =
      match t.marshal lib v, rest.marshal lib vs with
      | some tree, some members => some ((name, tree) :: members)
      | _, _ => none := rfl

theorem GoFields.marshal_cons {name : String} {t : GoType} {rest : GoFields} {v : t.Val}
    {vs : rest.Val} {members : List (String × JsonTree)}
    (h : (GoFields.cons name t rest).marshal lib (v, vs) = some members) :
    ∃ tree more, t.marshal lib v = some tree ∧ rest.marshal lib vs = some more ∧
      members = (name, tree) :: more := by
  rw [GoFields.marshal_pair] at h
  cases hv : t.marshal lib v with
  | none => simp [hv] at h
  | some tree =>
    cases hvs : rest.marshal lib vs with
    | none => simp [hv, hvs] at h
    | some more =>
      simp only [hv, hvs] at h
      exact ⟨tree, more, rfl, rfl, (Option.some.inj h).symm⟩

/-! ### The documents are written with numbers -/

theorem JsonTree.literal_obj {members : List (String × JsonTree)} :
    Literal (obj members) ↔ ∀ m ∈ members, Literal m.2 := by
  rw [Literal, literalMembers_iff]

theorem JsonTree.literal_arr {items : List JsonTree} :
    Literal (arr items) ↔ ∀ t ∈ items, Literal t := by
  rw [Literal, literalItems_iff]

mutual

theorem GoType.marshal_literal (hlib : lib.Lawful) : (t : GoType) → (v : t.Val) →
    (tree : JsonTree) → t.marshal lib v = some tree → tree.Literal
  | .string, v, tree, h => by
    obtain rfl := Option.some.inj h
    simp [JsonTree.Literal]
  | .bool, v, tree, h => by
    obtain rfl := Option.some.inj h
    simp [JsonTree.Literal]
  | .int w, v, tree, h => by
    obtain rfl := Option.some.inj h
    exact JsonTree.literal_itoa _
  | .uint w, v, tree, h => by
    obtain rfl := Option.some.inj h
    exact JsonTree.literal_itoa _
  | .float w, v, tree, h => by
    rw [GoType.marshal] at h
    split at h
    · rename_i hfinite
      obtain rfl := Option.some.inj h
      rw [JsonTree.Literal]
      exact ⟨hlib.literal_isNumber w v hfinite, hlib.literal_isNumeric w v hfinite⟩
    · exact nomatch h
  | .ptr t, none, tree, h => by
    obtain rfl := Option.some.inj h
    simp [JsonTree.Literal]
  | .ptr t, some v, tree, h => GoType.marshal_literal hlib t v tree h
  | .map k t, none, tree, h => by
    obtain rfl := Option.some.inj h
    simp [JsonTree.Literal]
  | .map k t, some m, tree, h => by
    obtain ⟨members, hmembers, rfl⟩ := Option.map_eq_some_iff.mp h
    rw [JsonTree.literal_obj]
    intro m hm
    obtain ⟨p, -, hp⟩ := convertAll_mem hmembers hm
    obtain ⟨tree, htree, rfl⟩ := Option.map_eq_some_iff.mp hp
    exact GoType.marshal_literal hlib t p.2 tree htree
  | .slice t, none, tree, h => by
    obtain rfl := Option.some.inj h
    simp [JsonTree.Literal]
  | .slice t, some s, tree, h => by
    rw [GoType.marshal_slice] at h
    split at h
    · obtain rfl := Option.some.inj h
      simp [JsonTree.Literal]
    · obtain ⟨items, hitems, rfl⟩ := Option.map_eq_some_iff.mp h
      rw [JsonTree.literal_arr]
      intro tree hmem
      obtain ⟨v, -, hv⟩ := convertAll_mem hitems hmem
      exact GoType.marshal_literal hlib t v tree hv
  | .struct fields, v, tree, h => by
    obtain ⟨members, hmembers, rfl⟩ := Option.map_eq_some_iff.mp h
    rw [JsonTree.literal_obj]
    exact GoFields.marshal_literal hlib fields v members hmembers

theorem GoFields.marshal_literal (hlib : lib.Lawful) : (fields : GoFields) → (v : fields.Val) →
    (members : List (String × JsonTree)) → fields.marshal lib v = some members →
    ∀ m ∈ members, m.2.Literal
  | .nil, v, members, h => by
    obtain rfl := Option.some.inj h
    exact fun m hm => nomatch hm
  | .cons name t rest, (v, vs), members, h => by
    obtain ⟨tree, more, htree, hmore, rfl⟩ := GoFields.marshal_cons h
    intro m hm
    rcases List.mem_cons.mp hm with rfl | hm
    · exact GoType.marshal_literal hlib t v tree htree
    · exact GoFields.marshal_literal hlib rest vs more hmore m hm

end

/-! ### What is restored -/

mutual

/-- Nothing of the second value is left when the first is decoded into it: the maps of the
second have no key more, and what is written as `null` stands behind no pointer. -/
def GoType.Restores : (t : GoType) → t.Val → t.Val → Prop
  | .ptr t, c, d =>
    match c with
    | none => True
    | some c => t.isNull c = false ∧ t.Restores c (Option.getD d t.zero)
  | .map _ t, c, d =>
    match c with
    | none => True
    | some m =>
      (∀ key, SortedMap.get? m key = none → (Option.getD d SortedMap.empty).get? key = none) ∧
        ∀ key v, SortedMap.get? m key = some v → t.Restores v t.zero
  | .slice t, c, d =>
    match c with
    | none => True
    | some s =>
      (t.bytes? (Cells.items s)).isSome = true ∨
        RestoresCells t.Restores t.zero (Cells.items s) (Cells.all d)
  | .struct fields, c, d => fields.Restores c d
  | _, _, _ => True

def GoFields.Restores : (fields : GoFields) → fields.Val → fields.Val → Prop
  | .nil, _, _ => True
  | .cons _ t rest, c, d => t.Restores c.1 d.1 ∧ rest.Restores c.2 d.2

end

/-- The members of a struct have the names of its fields. -/
theorem GoFields.names_marshal : (fields : GoFields) → (v : fields.Val) →
    {members : List (String × JsonTree)} → fields.marshal lib v = some members →
    members.map Prod.fst = fields.names
  | .nil, v, members, h => by
    obtain rfl := Option.some.inj h
    rfl
  | .cons name t rest, (v, vs), members, h => by
    obtain ⟨tree, more, -, hmore, rfl⟩ := GoFields.marshal_cons h
    rw [List.map_cons, GoFields.names, GoFields.names_marshal rest vs hmore]

/-- Members of other names leave the first field. -/
theorem GoFields.decode_rest (lib : GoLibrary) {name : String} {t : GoType} {rest : GoFields}
    {members : List (String × JsonTree)} (h : name ∉ members.map Prod.fst) (v : t.Val)
    (vs : rest.Val) :
    members.foldl (fun v m => (GoFields.cons name t rest).decodeMember lib m.1 m.2 v) (v, vs) =
      (v, members.foldl (fun v m => rest.decodeMember lib m.1 m.2 v) vs) := by
  induction members generalizing vs with
  | nil => rfl
  | cons m members ih =>
    rw [List.map_cons, List.mem_cons, not_or] at h
    have hstep : (GoFields.cons name t rest).decodeMember lib m.1 m.2 (v, vs) =
        (v, rest.decodeMember lib m.1 m.2 vs) := if_neg (Ne.symm h.1)
    have hmembers := ih h.2 (rest.decodeMember lib m.1 m.2 vs)
    rw [← hstep] at hmembers
    exact hmembers

/-- The names of the fields are found as they are. -/
theorem GoFields.resolve_names (lib : GoLibrary) {fields : GoFields}
    {members : List (String × JsonTree)}
    (h : members.map Prod.fst = fields.names) :
    (members.map fun m => (fields.resolve lib m.1, m.2)) = members := by
  refine (List.map_congr_left fun m hm => ?_).trans (List.map_id members)
  have hname : m.1 ∈ fields.names := by
    rw [← h]
    exact List.mem_map_of_mem hm
  show (fields.resolve lib m.1, m.2) = m
  rw [GoFields.resolve, if_pos hname]

/-- What a pointer leads to takes up a document that is not `null`. -/
theorem GoType.decode_ptr (t : GoType) {tree : JsonTree} (h : tree ≠ .null) (d : Option t.Val) :
    (GoType.ptr t).decode lib tree d = some (t.decode lib tree (d.getD t.zero)) := by
  cases tree with
  | null => exact absurd rfl h
  | _ => rfl

theorem GoType.visible_ptr (t : GoType) (v w : t.Val) :
    (GoType.ptr t).visible (some v) = (GoType.ptr t).visible (some w) ↔
      t.visible v = t.visible w :=
  ⟨fun h => Option.some.inj h, fun h => congrArg some h⟩

/-- Bytes are the items that they were made of. -/
theorem GoType.ofBytes?_bytes? {t : GoType} {items : List t.Val} {bytes : List UInt8}
    (h : t.bytes? items = some bytes) : t.ofBytes? bytes = some items := by
  cases t with
  | uint w =>
    cases w with
    | w8 =>
      obtain rfl := Option.some.inj h
      have hbyte : ∀ n : UintOf .w8,
          (⟨(UInt8.ofNat n.val).toNat, (UInt8.ofNat n.val).toNat_lt⟩ : UintOf .w8) = n := by
        intro n
        apply Subtype.ext
        exact Nat.mod_eq_of_lt n.property
      refine congrArg some ?_
      clear h
      induction items with
      | nil => rfl
      | cons n items ih => exact congrArg₂ List.cons (hbyte n) ih
    | _ => exact nomatch h
  | _ => exact nomatch h

/-- Two slices look alike when their items do. -/
theorem GoType.visible_slice (t : GoType) (s s' : Cells t.Val) :
    (GoType.slice t).visible (some s) = (GoType.slice t).visible (some s') ↔
      s.items.map t.visible = s'.items.map t.visible :=
  ⟨fun h => congrArg Cells.items (Option.some.inj h),
    fun h => congrArg (fun items => some (Cells.mk items [])) h⟩

mutual

/-- **Decoding a document restores the value exactly when nothing shows through.** -/
theorem GoType.decode_marshal_iff (hlib : lib.Lawful) : (t : GoType) → t.Named →
    (c d : t.Val) → (tree : JsonTree) → t.marshal lib c = some tree →
    (t.visible (t.decode lib tree d) = t.visible c ↔ t.Restores c d)
  | .string, _, c, d, tree, h => by
    obtain rfl := Option.some.inj h
    exact iff_of_true rfl trivial
  | .bool, _, c, d, tree, h => by
    obtain rfl := Option.some.inj h
    exact iff_of_true rfl trivial
  | .int w, _, c, d, tree, h => by
    obtain rfl := Option.some.inj h
    refine iff_of_true ?_ trivial
    have hread := KeyType.readSigned_itoa (show IntOf w from c)
    exact congrArg (fun read : Option (IntOf w) => read.getD d) hread
  | .uint w, _, c, d, tree, h => by
    obtain rfl := Option.some.inj h
    refine iff_of_true ?_ trivial
    have hread := KeyType.readUnsigned_itoa (show UintOf w from c)
    exact congrArg (fun read : Option (UintOf w) => read.getD d) hread
  | .float w, _, c, d, tree, h => by
    rw [GoType.marshal] at h
    split at h
    · rename_i hfinite
      obtain rfl := Option.some.inj h
      refine iff_of_true ?_ trivial
      show (lib.parseFloat w (lib.literal w c)).getD d = c
      rw [hlib.parseFloat_literal w c hfinite]
      rfl
    · exact nomatch h
  | .ptr t, hnamed, none, d, tree, h => by
    obtain rfl := Option.some.inj h
    exact iff_of_true rfl trivial
  | .ptr t, hnamed, some c, d, tree, h => by
    have hnull := GoType.marshal_eq_null t c h
    have ih := GoType.decode_marshal_iff hlib t hnamed c (Option.getD d t.zero) tree h
    by_cases htree : tree = .null
    · subst htree
      refine iff_of_false ?_ ?_
      · exact nofun
      · rintro ⟨hc, -⟩
        rw [hnull.mp rfl] at hc
        exact nomatch hc
    · have hc : t.isNull c = false := by simpa [hnull] using htree
      have hvisible := GoType.visible_ptr t (t.decode lib tree (Option.getD d t.zero)) c
      rw [← GoType.decode_ptr t htree d] at hvisible
      exact hvisible.trans (ih.trans ⟨fun hrestores => ⟨hc, hrestores⟩, fun h => h.2⟩)
  | .map k t, hnamed, none, d, tree, h => by
    obtain rfl := Option.some.inj h
    exact iff_of_true rfl trivial
  | .map k t, hnamed, some m, d, tree, h => by
    obtain ⟨members, hmembers, rfl⟩ := Option.map_eq_some_iff.mp h
    have hmap := decodeMap_iff k t.zero (Option.getD d SortedMap.empty)
      (GoType.decode_marshal_iff hlib t hnamed) hmembers
    exact Iff.trans ⟨fun h => Option.some.inj h, fun h => congrArg some h⟩ hmap
  | .slice t, hnamed, none, d, tree, h => by
    obtain rfl := Option.some.inj h
    exact iff_of_true rfl trivial
  | .slice t, hnamed, some s, d, tree, h => by
    rw [GoType.marshal_slice] at h
    split at h
    · rename_i bytes hbytes
      obtain rfl := Option.some.inj h
      have hread : (Base64.decodeString? (Base64.encodeToString bytes)).bind t.ofBytes? =
          some (Cells.items s) := by
        rw [Base64.decodeString?_encodeToString]
        exact GoType.ofBytes?_bytes? hbytes
      have hdecode : (GoType.slice t).decode lib (.str (Base64.encodeToString bytes)) d =
          some (Cells.mk (Cells.items s) []) := by
        rw [GoType.decode_slice_str, hread]
      refine iff_of_true ?_ (Or.inl (by rw [hbytes]; rfl))
      exact (congrArg (GoType.slice t).visible hdecode).trans
        ((GoType.visible_slice t _ s).mpr rfl)
    · rename_i hbytes
      obtain ⟨items, hitems, rfl⟩ := Option.map_eq_some_iff.mp h
      have hcells := decodeCells_iff t.zero (GoType.decode_marshal_iff hlib t hnamed) hitems
        (Cells.all d)
      refine (GoType.visible_slice t _ s).trans (Iff.trans hcells ⟨Or.inr, ?_⟩)
      rintro (hsome | hrestores)
      · rw [hbytes] at hsome
        exact nomatch hsome
      · exact hrestores
  | .struct fields, hnamed, c, d, tree, h => by
    obtain ⟨members, hmembers, rfl⟩ := Option.map_eq_some_iff.mp h
    have hnames := GoFields.names_marshal fields c hmembers
    have hfields := GoFields.decode_marshal_iff hlib fields hnamed c d members hmembers
    rw [← GoFields.resolve_names lib hnames] at hfields
    exact hfields

theorem GoFields.decode_marshal_iff (hlib : lib.Lawful) : (fields : GoFields) → fields.Named →
    (c d : fields.Val) → (members : List (String × JsonTree)) →
    fields.marshal lib c = some members →
    (fields.visible (members.foldl (fun v m => fields.decodeMember lib m.1 m.2 v) d) =
      fields.visible c ↔ fields.Restores c d)
  | .nil, _, c, d, members, h => by
    obtain rfl := Option.some.inj h
    exact iff_of_true rfl trivial
  | .cons name t rest, hnamed, (c, cs), (d, ds), members, h => by
    obtain ⟨tree, more, htree, hmore, rfl⟩ := GoFields.marshal_cons h
    have hname : name ∉ more.map Prod.fst := by
      rw [GoFields.names_marshal rest cs hmore]
      exact hnamed.1
    have hhead := GoType.decode_marshal_iff hlib t hnamed.2.1 c d tree htree
    have htail := GoFields.decode_marshal_iff hlib rest hnamed.2.2 cs ds more hmore
    have hstep : (GoFields.cons name t rest).decodeMember lib name tree (d, ds) =
        (t.decode lib tree d, ds) := if_pos rfl
    have hall := GoFields.decode_rest lib hname (t.decode lib tree d) ds
    rw [← hstep] at hall
    refine Iff.trans ?_ (and_congr hhead htail)
    rw [← Prod.mk.injEq]
    exact Eq.congr_left (congrArg (GoFields.cons name t rest).visible hall)

end

/-! ### Types without maps and pointers -/

mutual

/-- Every value of the type gives way to what is decoded. -/
def GoType.replaces : GoType → Bool
  | .ptr _ => false
  | .map _ _ => false
  | .slice t => t.replaces
  | .struct fields => fields.replaces
  | _ => true

def GoFields.replaces : GoFields → Bool
  | .nil => true
  | .cons _ t rest => t.replaces && rest.replaces

end

theorem restoresCells_of_forall {V : Type} {R : V → V → Prop} (h : ∀ v w, R v w) (zero : V)
    (items cells : List V) : RestoresCells R zero items cells := by
  induction items generalizing cells with
  | nil => trivial
  | cons v items ih => exact ⟨h _ _, ih _⟩

mutual

theorem GoType.restores_of_replaces : (t : GoType) → t.replaces = true → ∀ c d, t.Restores c d
  | .string, _, _, _ => trivial
  | .bool, _, _, _ => trivial
  | .int _, _, _, _ => trivial
  | .uint _, _, _, _ => trivial
  | .float _, _, _, _ => trivial
  | .slice _, _, none, _ => trivial
  | .slice t, h, some _, d =>
    Or.inr (restoresCells_of_forall (GoType.restores_of_replaces t h) t.zero _ (Cells.all d))
  | .struct fields, h, c, d => GoFields.restores_of_replaces fields h c d

theorem GoFields.restores_of_replaces : (fields : GoFields) → fields.replaces = true →
    ∀ c d, fields.Restores c d
  | .nil, _, _, _ => trivial
  | .cons _ t rest, h, c, d => by
    obtain ⟨ht, hrest⟩ := Bool.and_eq_true_iff.mp h
    exact ⟨GoType.restores_of_replaces t ht c.1 d.1,
      GoFields.restores_of_replaces rest hrest c.2 d.2⟩

end
