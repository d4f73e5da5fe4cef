import AuthGateway.Lib.Base64
import AuthGateway.Lib.GoValue
import AuthGateway.Lib.JsonTree

/-!
# encoding/json on values of Go

`marshal` is the document of a value, `decode` what decoding a document into a variable
leaves there.  Decoding goes on behind a part that does not fit its type, and such a part
changes nothing.

**Decoding is in place**: a map keeps the entries that the document does not name, a pointer
what it points to, and a slice takes up its old cells again.
-/

/-- What is used of `strconv` and `encoding/json` on floating-point numbers and names. -/
structure GoLibrary where
  /-- `strconv.FormatFloat(f, 'f', -1, 64)`. -/
  formatFloat : FloatOf .f64 → String
  /-- `strconv.ParseFloat`, with the size of the result. -/
  parseFloat : (w : FloatWidth) → String → Option (FloatOf w)
  /-- The number that `json.Marshal` writes. -/
  literal : (w : FloatWidth) → FloatOf w → String
  widen : FloatOf .f32 → FloatOf .f64
  narrow : FloatOf .f64 → FloatOf .f32
  /-- The spelling in which names of fields are compared. -/
  foldName : String → String

/-- What is relied on: the texts say the number exactly, and the ones in JSON are numbers. -/
structure GoLibrary.Lawful (lib : GoLibrary) : Prop where
  parseFloat_format : ∀ f, lib.parseFloat .f64 (lib.formatFloat f) = some f
  narrow_widen : ∀ f, lib.narrow (lib.widen f) = f
  parseFloat_literal : ∀ w f, isFinite w f.bits = true →
    lib.parseFloat w (lib.literal w f) = some f
  literal_isNumber : ∀ w f, isFinite w f.bits = true →
    JsonTree.isNumber (lib.literal w f).toList = true
  literal_isNumeric : ∀ w f, isFinite w f.bits = true →
    ∀ c ∈ (lib.literal w f).toList, JsonTree.isNumeric c = true

/-- `f` of every item, when each has one. -/
def convertAll {α β : Type} (f : α → Option β) : List α → Option (List β)
  | [] => some []
  | a :: l =>
    match f a, convertAll f l with
    | some b, some l => some (b :: l)
    | _, _ => none

namespace GoType

/-- The bytes of the items of a `[]byte`. -/
def bytes? : (t : GoType) → List t.Val → Option (List UInt8)
  | .uint .w8, items => some (items.map fun n : UintOf .w8 => UInt8.ofNat n.val)
  | _, _ => none

/-- Bytes as the items of a `[]byte`. -/
def ofBytes? : (t : GoType) → List UInt8 → Option (List t.Val)
  | .uint .w8, bytes => some (bytes.map fun b => (⟨b.toNat, b.toNat_lt⟩ : UintOf .w8))
  | _, _ => none

end GoType

variable (lib : GoLibrary)

/-! ### Marshalling -/

mutual

/-- `json.Marshal`; `none` is its error on a float that is not finite. -/
def GoType.marshal : (t : GoType) → t.Val → Option JsonTree
  | .string, s => some (.str s)
  | .bool, b => some (.bool b)
  | .int _, n => some (.num (GoString.itoa (Subtype.val n)))
  | .uint _, n => some (.num (GoString.itoa (Int.ofNat (Subtype.val n))))
  | .float w, f =>
    if isFinite w (FloatOf.bits f) then some (.num (lib.literal w f)) else none
  | .ptr t, v =>
    match v with
    | none => some .null
    | some v => t.marshal v
  | .map k t, v =>
    match v with
    | none => some .null
    | some m =>
      (convertAll (fun p => (t.marshal p.2).map fun tree => (k.text p.1, tree))
        (SortedMap.entries m)).map .obj
  | .slice t, v =>
    match v with
    | none => some .null
    | some s =>
      match t.bytes? (Cells.items s) with
      | some bytes => some (.str (Base64.encodeToString bytes))
      | none => (convertAll t.marshal (Cells.items s)).map .arr
  | .struct fields, v => (fields.marshal v).map .obj

/-- The members of a struct, in the order of its fields. -/
def GoFields.marshal : (fields : GoFields) → fields.Val → Option (List (String × JsonTree))
  | .nil, _ => some []
  | .cons name t rest, v =>
    match t.marshal v.1, rest.marshal v.2 with
    | some tree, some members => some ((name, tree) :: members)
    | _, _ => none

end

/-! ### Decoding -/

/-- The items of an array go into the cells one by one, and into new ones behind them. -/
def decodeCells {V : Type} (decode : JsonTree → V → V) (zero : V) :
    List JsonTree → List V → List V
  | [], _ => []
  | tree :: items, cells =>
    decode tree (cells.headD zero) :: decodeCells decode zero items cells.tail

/-- The slice after an array: an empty one is made anew. -/
def decodeArray {V : Type} (decode : JsonTree → V → V) (zero : V) (items : List JsonTree)
    (v : Option (Cells V)) : Cells V where
  items := decodeCells decode zero items (Cells.all v)
  spare := if items.isEmpty then [] else (Cells.all v).drop items.length

/-- The name of the field that a member goes to: the same name, or else the first one that is
spelled like it. -/
def GoFields.resolve (fields : GoFields) (name : String) : String :=
  if name ∈ fields.names then name
  else (fields.names.find? fun n => lib.foldName n == lib.foldName name).getD name

mutual

/-- `json.Unmarshal` of a document into a variable. -/
def GoType.decode : (t : GoType) → JsonTree → t.Val → t.Val
  | .string, tree, v =>
    match tree with
    | .str s => s
    | _ => v
  | .bool, tree, v =>
    match tree with
    | .bool b => b
    | _ => v
  | .int w, tree, v =>
    match tree with
    | .num literal => ((KeyType.parseSigned literal).bind (IntOf.of? w)).getD v
    | _ => v
  | .uint w, tree, v =>
    match tree with
    | .num literal => ((KeyType.parseUnsigned literal).bind (UintOf.of? w)).getD v
    | _ => v
  | .float w, tree, v =>
    match tree with
    | .num literal => (lib.parseFloat w literal).getD v
    | _ => v
  | .ptr t, tree, v =>
    match tree with
    | .null => none
    | tree => some (t.decode tree (Option.getD v t.zero))
  | .map k t, tree, v =>
    match tree with
    | .null => none
    | .obj members =>
      some ((Option.getD v SortedMap.empty).insertAll
        (members.filterMap fun m => (k.ofText m.1).map fun key => (key, t.decode m.2 t.zero)))
    | _ => v
  | .slice t, tree, v =>
    match tree with
    | .null => none
    | .arr items => some (decodeArray t.decode t.zero items v)
    | .str s =>
      match (Base64.decodeString? s).bind t.ofBytes? with
      | some items => some { items := items }
      | none => v
    | _ => v
  | .struct fields, tree, v =>
    match tree with
    | .obj members =>
      (members.map fun m => (fields.resolve lib m.1, m.2)).foldl
        (fun v m => fields.decodeMember m.1 m.2 v) v
    | _ => v

/-- A member goes to the field of its name. -/
def GoFields.decodeMember : (fields : GoFields) → String → JsonTree → fields.Val → fields.Val
  | .nil, _, _, v => v
  | .cons name t rest, key, tree, v =>
    if key = name then (t.decode tree v.1, v.2) else (v.1, rest.decodeMember key tree v.2)

end
