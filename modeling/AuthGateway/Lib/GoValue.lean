import AuthGateway.Lib.GoString
import AuthGateway.Lib.SortedMap
import Mathlib.Data.String.Basic
import Mathlib.Order.Basic

/-!
# Types of Go and their values

The types that `encoding/json` takes apart field by field: strings, switches, numbers,
pointers, maps, slices and structs.  `GoType.Val` is what a variable of a type holds.

A slice has its items and the spare cells of its array behind them, as far as they are not
zero; nobody reads them, but decoding into the slice uses them again.
-/

/-! ### Numbers -/

inductive Width
  | w8 | w16 | w32 | w64
deriving DecidableEq

def Width.bits : Width → Nat
  | w8 => 8
  | w16 => 16
  | w32 => 32
  | w64 => 64

/-- The integers of a signed type. -/
def IntOf (w : Width) : Type := { n : Int // -2 ^ (w.bits - 1) ≤ n ∧ n < 2 ^ (w.bits - 1) }

/-- The integers of an unsigned type. -/
def UintOf (w : Width) : Type := { n : Nat // n < 2 ^ w.bits }

instance (w : Width) : DecidableEq (IntOf w) := inferInstanceAs (DecidableEq (Subtype _))

instance (w : Width) : DecidableEq (UintOf w) := inferInstanceAs (DecidableEq (Subtype _))

def IntOf.zero (w : Width) : IntOf w := ⟨0, by cases w <;> decide⟩

def UintOf.zero (w : Width) : UintOf w := ⟨0, by cases w <;> decide⟩

/-- A number that fits the type. -/
def IntOf.of? (w : Width) (n : Int) : Option (IntOf w) :=
  if h : -2 ^ (w.bits - 1) ≤ n ∧ n < 2 ^ (w.bits - 1) then some ⟨n, h⟩ else none

def UintOf.of? (w : Width) (n : Nat) : Option (UintOf w) :=
  if h : n < 2 ^ w.bits then some ⟨n, h⟩ else none

theorem IntOf.of?_val {w : Width} (n : IntOf w) : of? w n.val = some n := dif_pos n.property

theorem UintOf.of?_val {w : Width} (n : UintOf w) : of? w n.val = some n := dif_pos n.property

/-- What `SetInt` leaves of a number: its low bits. -/
def IntOf.wrap (w : Width) (n : Int) : IntOf w := (of? w (n.bmod (2 ^ w.bits))).getD (zero w)

def UintOf.wrap (w : Width) (n : Nat) : UintOf w := (of? w (n % 2 ^ w.bits)).getD (zero w)

theorem IntOf.wrap_val {w : Width} (n : IntOf w) : wrap w n.val = n := by
  have hbounds := n.property
  have hmod : n.val.bmod (2 ^ w.bits) = n.val := by
    apply Int.bmod_eq_of_le
    · cases w <;> simp only [Width.bits] at hbounds ⊢ <;> omega
    · cases w <;> simp only [Width.bits] at hbounds ⊢ <;> omega
  rw [wrap, hmod, of?_val, Option.getD_some]

theorem UintOf.wrap_val {w : Width} (n : UintOf w) : wrap w n.val = n := by
  rw [wrap, Nat.mod_eq_of_lt n.property, of?_val, Option.getD_some]

inductive FloatWidth
  | f32 | f64
deriving DecidableEq

namespace FloatWidth

def bits : FloatWidth → Nat
  | f32 => 32
  | f64 => 64

/-- The bits of the fraction. -/
def fraction : FloatWidth → Nat
  | f32 => 23
  | f64 => 52

/-- The largest exponent, of the infinities and of what is no number. -/
def topExponent : FloatWidth → Nat
  | f32 => 0xFF
  | f64 => 0x7FF

end FloatWidth

def exponentOf (w : FloatWidth) (b : BitVec w.bits) : Nat :=
  b.toNat / 2 ^ w.fraction % (w.topExponent + 1)

def isFinite (w : FloatWidth) (b : BitVec w.bits) : Bool := exponentOf w b != w.topExponent

def isNaN (w : FloatWidth) (b : BitVec w.bits) : Bool :=
  exponentOf w b == w.topExponent && b.toNat % 2 ^ w.fraction != 0

/-- A floating-point number by its bits; all that are no number count as one, `NaN`. -/
structure FloatOf (w : FloatWidth) where
  bits : BitVec w.bits
  oneNaN : isNaN w bits = true → bits.toNat = w.topExponent * 2 ^ w.fraction + 2 ^ (w.fraction - 1)
deriving DecidableEq

def FloatOf.zero (w : FloatWidth) : FloatOf w := ⟨0, by cases w <;> decide⟩

/-! ### Keys of a map -/

/-- The types of keys that JSON has texts for. -/
inductive KeyType
  | string
  | int (w : Width)
  | uint (w : Width)

namespace KeyType

def Key : KeyType → Type
  | string => String
  | int w => IntOf w
  | uint w => UintOf w

open GoString

/-- The text of a key. -/
def text : (k : KeyType) → k.Key → String
  | string, s => s
  | int _, n => itoa n.val
  | uint _, n => itoa n.val

/-- `strconv.ParseUint`. -/
def parseUnsigned (s : String) : Option Nat :=
  if s.toList.isEmpty then none else (parseUint 0 s.toList).toOption

/-- `strconv.ParseInt`. -/
def parseSigned (s : String) : Option Int :=
  match atoi s with
  | (n, none) => some n
  | (_, some _) => none

/-- The key that a text stands for. -/
def ofText : (k : KeyType) → String → Option k.Key
  | string, s => some s
  | int w, s => (parseSigned s).bind (IntOf.of? w)
  | uint w, s => (parseUnsigned s).bind (UintOf.of? w)

theorem parseSigned_itoa {w : Width} (n : IntOf w) : parseSigned (itoa n.val) = some n.val := by
  have hbounds := n.property
  have hlow : -2 ^ 63 ≤ n.val := by
    cases w <;> simp only [Width.bits] at hbounds <;> omega
  have hhigh : n.val < 2 ^ 63 := by
    cases w <;> simp only [Width.bits] at hbounds <;> omega
  rw [parseSigned, atoi_itoa hlow hhigh]

theorem parseUnsigned_itoa {w : Width} (n : UintOf w) :
    parseUnsigned (itoa n.val) = some n.val := by
  have hbound := n.property
  have hhigh : n.val < 2 ^ 64 := by
    cases w <;> simp only [Width.bits] at hbound <;> omega
  have hne : (Nat.toDigits 10 n.val).isEmpty = false := by simp [Nat.toDigits_ne_nil]
  have htext : (itoa (n.val : Int)).toList = Nat.toDigits 10 n.val := toList_itoa_ofNat n.val
  rw [parseUnsigned, htext, hne, parseUint_toDigits hhigh]
  rfl

theorem readSigned_itoa {w : Width} (n : IntOf w) :
    (parseSigned (itoa n.val)).bind (IntOf.of? w) = some n := by
  rw [parseSigned_itoa, Option.bind_some, IntOf.of?_val]

theorem readUnsigned_itoa {w : Width} (n : UintOf w) :
    (parseUnsigned (itoa n.val)).bind (UintOf.of? w) = some n := by
  rw [parseUnsigned_itoa, Option.bind_some, UintOf.of?_val]

/-- **A key is found again by its text.** -/
theorem ofText_text (k : KeyType) (key : k.Key) : k.ofText (k.text key) = some key := by
  cases k with
  | string => rfl
  | int w => exact readSigned_itoa (show IntOf w from key)
  | uint w => exact readUnsigned_itoa (show UintOf w from key)

theorem text_injective (k : KeyType) : Function.Injective k.text := by
  intro a b h
  have hkeys := congrArg k.ofText h
  rw [ofText_text, ofText_text] at hkeys
  exact Option.some.inj hkeys

/-- Keys are in the order of their texts. -/
instance (k : KeyType) : LinearOrder k.Key := LinearOrder.lift' k.text k.text_injective

end KeyType

/-! ### Types -/

mutual

inductive GoType
  | string
  | bool
  | int (w : Width)
  | uint (w : Width)
  | float (w : FloatWidth)
  | ptr (t : GoType)
  | map (k : KeyType) (t : GoType)
  | slice (t : GoType)
  | struct (fields : GoFields)

/-- The exported fields of a struct. -/
inductive GoFields
  | nil
  | cons (name : String) (t : GoType) (rest : GoFields)

end

/-- A slice that is not nil. -/
structure Cells (V : Type) where
  items : List V
  spare : List V := []

mutual

def GoType.Val : GoType → Type
  | .string => String
  | .bool => Bool
  | .int w => IntOf w
  | .uint w => UintOf w
  | .float w => FloatOf w
  | .ptr t => Option t.Val
  | .map k t => Option (SortedMap k.Key t.Val)
  | .slice t => Option (Cells t.Val)
  | .struct fields => fields.Val

def GoFields.Val : GoFields → Type
  | .nil => Unit
  | .cons _ t rest => t.Val × rest.Val

end

/-- All the cells of a slice. -/
def Cells.all {V : Type} : Option (Cells V) → List V
  | none => []
  | some s => s.items ++ s.spare

namespace GoFields

def names : GoFields → List String
  | nil => []
  | cons name _ rest => name :: rest.names

end GoFields

mutual

/-- The zero value. -/
def GoType.zero : (t : GoType) → t.Val
  | .string => ""
  | .bool => false
  | .int w => IntOf.zero w
  | .uint w => UintOf.zero w
  | .float w => FloatOf.zero w
  | .ptr _ => none
  | .map _ _ => none
  | .slice _ => none
  | .struct fields => fields.zero

def GoFields.zero : (fields : GoFields) → fields.Val
  | .nil => ()
  | .cons _ t rest => (t.zero, rest.zero)

end

mutual

/-- What can be seen of a value: a slice without its spare cells. -/
def GoType.visible : (t : GoType) → t.Val → t.Val
  | .string, v => v
  | .bool, v => v
  | .int _, v => v
  | .uint _, v => v
  | .float _, v => v
  | .ptr t, v => v.map t.visible
  | .map _ t, v => v.map (SortedMap.mapValues t.visible)
  | .slice t, v => v.map fun s => ⟨s.items.map t.visible, []⟩
  | .struct fields, v => fields.visible v

def GoFields.visible : (fields : GoFields) → fields.Val → fields.Val
  | .nil, _ => ()
  | .cons _ t rest, v => (t.visible v.1, rest.visible v.2)

end

mutual

/-- The fields of every struct in the type have different names. -/
def GoType.Named : GoType → Prop
  | .ptr t => t.Named
  | .map _ t => t.Named
  | .slice t => t.Named
  | .struct fields => fields.Named
  | _ => True

def GoFields.Named : GoFields → Prop
  | .nil => True
  | .cons name t rest => name ∉ rest.names ∧ t.Named ∧ rest.Named

end
