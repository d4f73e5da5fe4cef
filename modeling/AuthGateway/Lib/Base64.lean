import Mathlib.Data.List.Basic

/-!
# Base64

`encodeToString` and `decodeString` of Go's `base64.StdEncoding`, with padding.  The
decoder skips line breaks and keeps what it has decoded before an error; its error is
not part of the result here.  `decodeString?` is the result for a caller who drops
everything on an error.

**Whatever is encoded is decoded again** (`decodeString_encodeToString`).
-/

namespace Base64

def alphabet : List Char := "ABCDEFGHIJKLMNOPQRSTUVWXYZabcdefghijklmnopqrstuvwxyz0123456789+/".toList

/-- The digit for six bits. -/
def digit (n : Nat) : Char := alphabet.getD n 'A'

def digit? (c : Char) : Option Nat := alphabet.idxOf? c

/-- Three bytes are four digits; at the end two bytes are three digits, and one byte is two. -/
def encode : List UInt8 → List Char
  | [] => []
  | [a] => [digit (a.toNat / 4), digit (a.toNat % 4 * 16), '=', '=']
  | [a, b] =>
    [digit (a.toNat / 4), digit (a.toNat % 4 * 16 + b.toNat / 16), digit (b.toNat % 16 * 4), '=']
  | a :: b :: c :: rest =>
    digit (a.toNat / 4) :: digit (a.toNat % 4 * 16 + b.toNat / 16) ::
      digit (b.toNat % 16 * 4 + c.toNat / 64) :: digit (c.toNat % 64) :: encode rest

/-- The bytes of two, three or four digits. -/
def bytes2 (w x : Nat) : List UInt8 := [UInt8.ofNat (w * 4 + x / 16)]

def bytes3 (w x y : Nat) : List UInt8 := bytes2 w x ++ [UInt8.ofNat (x % 16 * 16 + y / 4)]

def bytes4 (w x y z : Nat) : List UInt8 := bytes3 w x y ++ [UInt8.ofNat (y % 4 * 64 + z)]

/-- The bytes up to the end or to the first error. -/
def decode : List Char → List UInt8
  | a :: b :: c :: d :: rest =>
    match digit? a, digit? b with
    | some w, some x =>
      match digit? c with
      | some y =>
        match digit? d with
        | some z => bytes4 w x y z ++ decode rest
        | none => if d = '=' then bytes3 w x y else []
      | none => if c = '=' ∧ d = '=' then bytes2 w x else []
    | _, _ => []
  | _ => []

/-- The bytes, unless there is an error. -/
def decode? : List Char → Option (List UInt8)
  | [] => some []
  | a :: b :: c :: d :: rest =>
    match digit? a, digit? b with
    | some w, some x =>
      match digit? c with
      | some y =>
        match digit? d with
        | some z => (decode? rest).map fun bytes => bytes4 w x y z ++ bytes
        | none => if d = '=' ∧ rest = [] then some (bytes3 w x y) else none
      | none => if c = '=' ∧ d = '=' ∧ rest = [] then some (bytes2 w x) else none
    | _, _ => none
  | _ => none

def encodeToString (bytes : List UInt8) : String := String.ofList (encode bytes)

def decodeString (text : String) : List UInt8 :=
  decode (text.toList.filter fun c => c ≠ '\r' ∧ c ≠ '\n')

def decodeString? (text : String) : Option (List UInt8) :=
  decode? (text.toList.filter fun c => c ≠ '\r' ∧ c ≠ '\n')

/-! ### The round trip -/

theorem digit?_digit : ∀ n < 64, digit? (digit n) = some n := by decide +kernel

theorem digit?_pad : digit? '=' = none := by decide +kernel

theorem digit_printed : ∀ n < 64, digit n ≠ '\r' ∧ digit n ≠ '\n' := by decide +kernel

theorem byte_eq {n : Nat} {a : UInt8} (h : n = a.toNat) : UInt8.ofNat n = a := by
  rw [h, UInt8.ofNat_toNat]

theorem decode_encode : ∀ bytes, decode (encode bytes) = bytes
  | [] => rfl
  | [a] => by
    have ha := a.toNat_lt
    rw [encode, decode, digit?_digit _ (by omega), digit?_digit _ (by omega), digit?_pad]
    simp only [and_self, if_true, bytes2]
    rw [byte_eq (a := a) (by omega)]
  | [a, b] => by
    have ha := a.toNat_lt
    have hb := b.toNat_lt
    rw [encode, decode, digit?_digit _ (by omega), digit?_digit _ (by omega),
      digit?_digit _ (by omega), digit?_pad]
    simp only [if_true, bytes3, bytes2]
    rw [byte_eq (a := a) (by omega), byte_eq (a := b) (by omega)]
    rfl
  | a :: b :: c :: rest => by
    have ha := a.toNat_lt
    have hb := b.toNat_lt
    have hc := c.toNat_lt
    rw [encode, decode, digit?_digit _ (by omega), digit?_digit _ (by omega),
      digit?_digit _ (by omega), digit?_digit _ (by omega)]
    simp only [bytes4, bytes3, bytes2]
    rw [byte_eq (a := a) (by omega), byte_eq (a := b) (by omega), byte_eq (a := c) (by omega),
      decode_encode rest]
    rfl

theorem decode?_encode : ∀ bytes, decode? (encode bytes) = some bytes
  | [] => rfl
  | [a] => by
    have ha := a.toNat_lt
    rw [encode, decode?, digit?_digit _ (by omega), digit?_digit _ (by omega), digit?_pad]
    simp only [and_self, if_true, bytes2]
    rw [byte_eq (a := a) (by omega)]
  | [a, b] => by
    have ha := a.toNat_lt
    have hb := b.toNat_lt
    rw [encode, decode?, digit?_digit _ (by omega), digit?_digit _ (by omega),
      digit?_digit _ (by omega), digit?_pad]
    simp only [and_self, if_true, bytes3, bytes2]
    rw [byte_eq (a := a) (by omega), byte_eq (a := b) (by omega)]
    rfl
  | a :: b :: c :: rest => by
    have ha := a.toNat_lt
    have hb := b.toNat_lt
    have hc := c.toNat_lt
    rw [encode, decode?, digit?_digit _ (by omega), digit?_digit _ (by omega),
      digit?_digit _ (by omega), digit?_digit _ (by omega), decode?_encode rest]
    simp only [Option.map_some, bytes4, bytes3, bytes2]
    rw [byte_eq (a := a) (by omega), byte_eq (a := b) (by omega), byte_eq (a := c) (by omega)]
    rfl

/-- There are no line breaks in the text. -/
theorem encode_printed : ∀ bytes, ∀ c ∈ encode bytes, c ≠ '\r' ∧ c ≠ '\n'
  | [] => by simp [encode]
  | [a] => by
    have ha := a.toNat_lt
    simp only [encode, List.forall_mem_cons, List.not_mem_nil, false_imp_iff, implies_true,
      and_true]
    exact ⟨digit_printed _ (by omega), digit_printed _ (by omega), by decide, by decide⟩
  | [a, b] => by
    have ha := a.toNat_lt
    have hb := b.toNat_lt
    simp only [encode, List.forall_mem_cons, List.not_mem_nil, false_imp_iff, implies_true,
      and_true]
    exact ⟨digit_printed _ (by omega), digit_printed _ (by omega), digit_printed _ (by omega),
      by decide⟩
  | a :: b :: c :: rest => by
    have ha := a.toNat_lt
    have hb := b.toNat_lt
    have hc := c.toNat_lt
    simp only [encode, List.forall_mem_cons]
    exact ⟨digit_printed _ (by omega), digit_printed _ (by omega), digit_printed _ (by omega),
      digit_printed _ (by omega), encode_printed rest⟩

theorem filter_encode (bytes : List UInt8) :
    (encode bytes).filter (fun c => c ≠ '\r' ∧ c ≠ '\n') = encode bytes := by
  rw [List.filter_eq_self]
  intro c hc
  simpa using encode_printed bytes c hc

/-- **What is encoded is decoded again.** -/
theorem decodeString_encodeToString (bytes : List UInt8) :
    decodeString (encodeToString bytes) = bytes := by
  rw [decodeString, encodeToString, String.toList_ofList, filter_encode, decode_encode]

theorem decodeString?_encodeToString (bytes : List UInt8) :
    decodeString? (encodeToString bytes) = some bytes := by
  rw [decodeString?, encodeToString, String.toList_ofList, filter_encode, decode?_encode]

theorem encodeToString_injective {bytes bytes' : List UInt8}
    (h : encodeToString bytes = encodeToString bytes') : bytes = bytes' := by
  rw [← decodeString_encodeToString bytes, h, decodeString_encodeToString]

theorem encodeToString_eq_empty {bytes : List UInt8} : encodeToString bytes = "" ↔ bytes = [] := by
  constructor
  · intro h
    exact encodeToString_injective h
  · rintro rfl
    rfl

end Base64
