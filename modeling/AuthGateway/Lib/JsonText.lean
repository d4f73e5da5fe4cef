import Mathlib.Data.List.Basic
import Mathlib.Data.Rat.Lemmas

/-!
# Flat JSON objects as text

An object whose members are texts, numbers and switches, written out and read
back.  Every reader takes what it needs from the front of its input and returns
the rest, so its law is about a value followed by anything that may follow it:

    scalar (writeScalar v ++ rest) = some (v, rest).

The number of members bounds the loop of `readTail`, and the text that is read
has at least as many characters.  **What is written is read back** (`read_write`).
-/

namespace JsonText

inductive Scalar
  | str (s : String)
  | bool (b : Bool)
  | num (q : Rat)
  deriving DecidableEq

/-- The members of an object, in their order. -/
abbrev Members : Type := List (String × Scalar)

/-! ### Writing -/

def escape (c : Char) : List Char := if c = '"' ∨ c = '\\' then ['\\', c] else [c]

/-- A text in quotes. -/
def quoted (s : List Char) : List Char := '"' :: (s.flatMap escape ++ ['"'])

/-- A number; one that is not whole is a fraction. -/
def writeNumber (q : Rat) : List Char :=
  (if q.num < 0 then ['-'] else []) ++ Nat.toDigits 10 q.num.natAbs
    ++ if q.den = 1 then [] else '/' :: Nat.toDigits 10 q.den

def writeScalar : Scalar → List Char
  | .str s => quoted s.toList
  | .bool true => ['t', 'r', 'u', 'e']
  | .bool false => ['f', 'a', 'l', 's', 'e']
  | .num q => writeNumber q

def writeMember (m : String × Scalar) : List Char := quoted m.1.toList ++ ':' :: writeScalar m.2

/-- The members, each behind a comma, and the bracket. -/
def writeTail : Members → List Char
  | [] => ['\x7d']
  | m :: ms => ',' :: (writeMember m ++ writeTail ms)

def write : Members → String
  | [] => String.ofList ['\x7b', '\x7d']
  | m :: ms => String.ofList ('\x7b' :: (writeMember m ++ writeTail ms))

/-! ### Reading -/

/-- What is left of a text in quotes, and what follows it. -/
def unquote : List Char → Option (List Char × List Char)
  | [] => none
  | '"' :: l => some ([], l)
  | '\\' :: c :: l => (unquote l).map fun p => (c :: p.1, p.2)
  | c :: l => (unquote l).map fun p => (c :: p.1, p.2)

def natural (l : List Char) : Nat × List Char :=
  (Nat.ofDigitChars 10 (l.takeWhile Char.isDigit) 0, l.dropWhile Char.isDigit)

/-- A number without its sign. -/
def fraction (l : List Char) : Rat × List Char :=
  match natural l with
  | (n, '/' :: l) => (mkRat n (natural l).1, (natural l).2)
  | (n, l) => (n, l)

def number : List Char → Rat × List Char
  | '-' :: l => (-(fraction l).1, (fraction l).2)
  | l => fraction l

def scalar : List Char → Option (Scalar × List Char)
  | '"' :: l => (unquote l).map fun p => (.str (String.ofList p.1), p.2)
  | 't' :: 'r' :: 'u' :: 'e' :: l => some (.bool true, l)
  | 'f' :: 'a' :: 'l' :: 's' :: 'e' :: l => some (.bool false, l)
  | l => some (.num (number l).1, (number l).2)

def member : List Char → Option ((String × Scalar) × List Char)
  | '"' :: l =>
    match unquote l with
    | some (key, ':' :: l) => (scalar l).map fun p => ((String.ofList key, p.1), p.2)
    | _ => none
  | _ => none

def readTail : Nat → List Char → Option Members
  | 0, _ => none
  | n + 1, l =>
    if l = ['\x7d'] then some []
    else
      match l with
      | ',' :: l =>
        match member l with
        | some (m, l) => (readTail n l).map (m :: ·)
        | none => none
      | _ => none

def read (text : String) : Option Members :=
  match text.toList with
  | '\x7b' :: l =>
    if l = ['\x7d'] then some [] else readTail (l.length + 1) (',' :: l)
  | _ => none

/-! ### Each reader undoes its writer -/

theorem unquote_quoted (s rest : List Char) :
    unquote (s.flatMap escape ++ '"' :: rest) = some (s, rest) := by
  induction s with
  | nil => simp [unquote]
  | cons c s ih =>
    by_cases hc : c = '"' ∨ c = '\\'
    · simp [escape, hc, unquote, ih]
    · rw [not_or] at hc
      simp [escape, hc, unquote, ih]

/-- Digits, and then something else. -/
theorem natural_toDigits (n : Nat) {rest : List Char} (h : ∀ c ∈ rest.head?, c.isDigit = false) :
    natural (Nat.toDigits 10 n ++ rest) = (n, rest) := by
  have hdigits : ∀ c ∈ Nat.toDigits 10 n, c.isDigit = true := fun c hc =>
    Nat.isDigit_of_mem_toDigits (by decide) (by decide) hc
  have htake : rest.takeWhile Char.isDigit = [] := by
    cases rest with
    | nil => rfl
    | cons c rest => simp [h c rfl]
  have hdrop : rest.dropWhile Char.isDigit = rest := by
    cases rest with
    | nil => rfl
    | cons c rest => simp [h c rfl]
  unfold natural
  rw [List.takeWhile_append_of_pos hdigits, List.dropWhile_append_of_pos hdigits, htake, hdrop,
    List.append_nil, Nat.ofDigitChars_toDigits (by decide) (by decide)]

/-- What may follow a value: a comma or the bracket. -/
def Ended (rest : List Char) : Prop := ∃ l, rest = ',' :: l ∨ rest = '\x7d' :: l

theorem fraction_written (n d : Nat) {rest : List Char} (h : Ended rest) :
    fraction (Nat.toDigits 10 n ++ ((if d = 1 then [] else '/' :: Nat.toDigits 10 d) ++ rest))
      = (mkRat n d, rest) := by
  have hrest : ∀ c ∈ rest.head?, c.isDigit = false := by
    obtain ⟨l, rfl | rfl⟩ := h <;> simp
  unfold fraction
  by_cases hd : d = 1
  · rw [if_pos hd, List.nil_append, natural_toDigits n hrest, hd, Rat.mkRat_one]
    obtain ⟨l, rfl | rfl⟩ := h <;> simp
  · rw [if_neg hd, List.cons_append, natural_toDigits n (by simp)]
    simp [natural_toDigits d hrest]

theorem toDigits_head (n : Nat) :
    ∃ c l, Nat.toDigits 10 n = c :: l ∧ c.isDigit = true := by
  cases h : Nat.toDigits 10 n with
  | nil => exact absurd h Nat.toDigits_ne_nil
  | cons c l =>
    have hc : c ∈ Nat.toDigits 10 n := by simp [h]
    exact ⟨c, l, rfl, Nat.isDigit_of_mem_toDigits (by decide) (by decide) hc⟩

theorem number_written (q : Rat) {rest : List Char} (h : Ended rest) :
    number (writeNumber q ++ rest) = (q, rest) := by
  have hwhole := fraction_written q.num.natAbs q.den h
  unfold writeNumber
  by_cases hneg : q.num < 0
  · have hq : -mkRat q.num.natAbs q.den = q := by
      rw [Rat.neg_mkRat, Int.ofNat_natAbs_of_nonpos (by omega), Int.neg_neg, Rat.mkRat_self]
    simp only [if_pos hneg, List.append_assoc, List.cons_append, List.nil_append, number, hwhole, hq]
  · have hq : mkRat q.num.natAbs q.den = q := by
      rw [Int.natAbs_of_nonneg (by omega), Rat.mkRat_self]
    obtain ⟨c, l, hl, hc⟩ := toDigits_head q.num.natAbs
    rw [hl] at hwhole ⊢
    have hsign : c ≠ '-' := by
      rintro rfl
      exact absurd hc (by decide)
    simp only [if_neg hneg, List.append_assoc, List.cons_append, List.nil_append] at hwhole ⊢
    rw [hq] at hwhole
    simp [number, hsign, hwhole]

/-- A number begins with its sign or a digit. -/
theorem writeNumber_head (q : Rat) :
    ∃ c l, writeNumber q = c :: l ∧ (c = '-' ∨ c.isDigit = true) := by
  obtain ⟨c, l, hl, hc⟩ := toDigits_head q.num.natAbs
  unfold writeNumber
  by_cases hneg : q.num < 0
  · rw [if_pos hneg]
    exact ⟨'-', _, rfl, Or.inl rfl⟩
  · rw [if_neg hneg, hl]
    exact ⟨c, _, rfl, Or.inr hc⟩

theorem scalar_written (v : Scalar) {rest : List Char} (h : Ended rest) :
    scalar (writeScalar v ++ rest) = some (v, rest) := by
  cases v with
  | str s => simp [writeScalar, quoted, scalar, unquote_quoted]
  | bool b => cases b <;> simp [writeScalar, scalar]
  | num q =>
    have hnumber := number_written q h
    obtain ⟨c, l, hl, hc⟩ := writeNumber_head q
    have hquote : c ≠ '"' := by
      rintro rfl
      exact absurd hc (by decide)
    have htrue : c ≠ 't' := by
      rintro rfl
      exact absurd hc (by decide)
    have hfalse : c ≠ 'f' := by
      rintro rfl
      exact absurd hc (by decide)
    rw [hl, List.cons_append] at hnumber
    rw [writeScalar, hl, List.cons_append]
    simp [scalar, hquote, htrue, hfalse, hnumber]

theorem member_written (m : String × Scalar) {rest : List Char} (h : Ended rest) :
    member (writeMember m ++ rest) = some (m, rest) := by
  obtain ⟨key, v⟩ := m
  simp [writeMember, quoted, member, unquote_quoted, scalar_written v h]

theorem ended_writeTail (ms : Members) : Ended (writeTail ms) := by
  cases ms with
  | nil => exact ⟨[], Or.inr rfl⟩
  | cons m ms => exact ⟨_, Or.inl rfl⟩

theorem readTail_written (ms : Members) {n : Nat} (hn : ms.length < n) :
    readTail n (writeTail ms) = some ms := by
  induction ms generalizing n with
  | nil =>
    obtain ⟨k, rfl⟩ : ∃ k, n = k + 1 := ⟨n - 1, by simp at hn; omega⟩
    simp [writeTail, readTail]
  | cons m ms ih =>
    obtain ⟨k, rfl⟩ : ∃ k, n = k + 1 := ⟨n - 1, by omega⟩
    have hk : ms.length < k := by
      simp only [List.length_cons] at hn
      omega
    simp [writeTail, readTail, member_written m (ended_writeTail ms), ih hk]

theorem length_writeTail (ms : Members) : ms.length < (writeTail ms).length := by
  induction ms with
  | nil => simp [writeTail]
  | cons m ms ih =>
    simp only [writeTail, List.length_cons, List.length_append]
    omega

/-- **What is written is read back.** -/
theorem read_write (ms : Members) : read (write ms) = some ms := by
  cases ms with
  | nil => simp [read, write]
  | cons m ms =>
    have hlength := length_writeTail (m :: ms)
    have hopen : writeMember m ++ writeTail ms ≠ ['\x7d'] := by
      simp [writeMember, quoted]
    simp only [read, write, String.toList_ofList, if_neg hopen]
    exact readTail_written (m :: ms) hlength

theorem write_ne_empty (ms : Members) : write ms ≠ "" := by
  cases ms with
  | nil => decide
  | cons m ms =>
    intro h
    have hlist := congrArg String.toList h
    simp [write] at hlist

end JsonText
