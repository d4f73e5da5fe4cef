import AuthGateway.Lib.Hex
import Mathlib.Data.List.Basic

/-!
# JSON strings and lists of strings

How Go's `encoding/json` writes a string (`escape`, with the escapes for HTML) and reads
one (`unquote`, with surrogate pairs), and the two for a list of strings.

**A list of strings is read back as it was written** (`readStrings_writeStrings`).
-/

namespace JsonString

/-! ### Writing -/

/-- Four hexadecimal digits. -/
def u4 (n : Nat) : List Char :=
  [(n / 4096).digitChar, (n / 256 % 16).digitChar, (n / 16 % 16).digitChar, (n % 16).digitChar]

/-- The runes that are written by number: the control characters without a name of their
own, the ones that mean something in HTML, and the line separators of JavaScript. -/
def byNumber (c : Char) : Bool :=
  c.toNat < 0x20 || c == '<' || c == '>' || c == '&' || c.toNat == 0x2028 || c.toNat == 0x2029

/-- The letter of an escape, and the rune that it stands for. -/
def named : List (Char × Char) :=
  [('"', '"'), ('\\', '\\'), ('b', '\x08'), ('f', '\x0c'), ('n', '\n'), ('r', '\r'), ('t', '\t')]

def escape (c : Char) : List Char :=
  match named.find? fun p => p.2 == c with
  | some (letter, _) => ['\\', letter]
  | none => if byNumber c then '\\' :: 'u' :: u4 c.toNat else [c]

/-- A string in quotes. -/
def quoted (s : List Char) : List Char := '"' :: (s.flatMap escape ++ ['"'])

/-- The rest of a list, each string behind a comma, and the bracket. -/
def writeTail : List String → List Char
  | [] => [']']
  | s :: rest => ',' :: (quoted s.toList ++ writeTail rest)

/-- `json.Marshal` of a list of strings that is not nil. -/
def writeStrings : List String → String
  | [] => "[]"
  | s :: rest => String.ofList ('[' :: (quoted s.toList ++ writeTail rest))

/-! ### Reading -/

def hexVal (c : Char) : Option Nat :=
  if '0'.toNat ≤ c.toNat && c.toNat ≤ '9'.toNat then some (c.toNat - '0'.toNat)
  else if 'a'.toNat ≤ c.toNat && c.toNat ≤ 'f'.toNat then some (c.toNat - 'a'.toNat + 10)
  else if 'A'.toNat ≤ c.toNat && c.toNat ≤ 'F'.toNat then some (c.toNat - 'A'.toNat + 10)
  else none

/-- The number behind `\u`. -/
def getU4 : List Char → Option (Nat × List Char)
  | a :: b :: c :: d :: l =>
    match hexVal a, hexVal b, hexVal c, hexVal d with
    | some w, some x, some y, some z => some (((w * 16 + x) * 16 + y) * 16 + z, l)
    | _, _, _, _ => none
  | _ => none

/-- The second half of a surrogate pair. -/
def lowSurrogate : List Char → Option (Nat × List Char)
  | '\\' :: 'u' :: l =>
    match getU4 l with
    | some (n, l) => if 0xDC00 ≤ n && n < 0xE000 then some (n, l) else none
    | none => none
  | _ => none

/-- The rune of an escape by number; half of a pair is U+FFFD. -/
def rune (n : Nat) (l : List Char) : Char × List Char :=
  if 0xD800 ≤ n && n < 0xDC00 then
    match lowSurrogate l with
    | some (m, l) => (Char.ofNat ((n - 0xD800) * 0x400 + (m - 0xDC00) + 0x10000), l)
    | none => ('\uFFFD', l)
  else if 0xDC00 ≤ n && n < 0xE000 then ('\uFFFD', l)
  else (Char.ofNat n, l)

/-- The letters that an escape may have: those of `named`, and the slash. -/
def nameOf (letter : Char) : Option Char :=
  if letter = '/' then some '/' else (named.find? fun p => p.1 == letter).map Prod.snd

/-- The front of a string: one rune, written out or escaped. -/
def next : List Char → Option (Char × List Char)
  | '\\' :: 'u' :: l => (getU4 l).map fun p => rune p.1 p.2
  | '\\' :: letter :: l => (nameOf letter).map fun c => (c, l)
  | ['\\'] => none
  | c :: l => if c.toNat < 0x20 then none else some (c, l)
  | [] => none

/-- A string up to its closing quote, and what follows it; the text bounds the loop. -/
def unquote : Nat → List Char → Option (List Char × List Char)
  | 0, _ => none
  | n + 1, l =>
    match l with
    | '"' :: l => some ([], l)
    | l =>
      match next l with
      | some (c, l) => (unquote n l).map fun p => (c :: p.1, p.2)
      | none => none

def isBlank (c : Char) : Bool := c == ' ' || c == '\t' || c == '\r' || c == '\n'

def skipBlanks (l : List Char) : List Char := l.dropWhile isBlank

/-- A string of the list; `null` leaves it empty. -/
def element : List Char → Option (String × List Char)
  | '"' :: l => (unquote (l.length + 1) l).map fun p => (String.ofList p.1, p.2)
  | 'n' :: 'u' :: 'l' :: 'l' :: l => some ("", l)
  | _ => none

/-- The strings up to the closing bracket, which only blanks follow. -/
def elements : Nat → List Char → Option (List String)
  | 0, _ => none
  | n + 1, l =>
    match element l with
    | none => none
    | some (s, l) =>
      match skipBlanks l with
      | ',' :: l => (elements n (skipBlanks l)).map fun rest => s :: rest
      | ']' :: l => if skipBlanks l = [] then some [s] else none
      | _ => none

/-- `json.Unmarshal` into a list of strings; `none` is an error. -/
def readStrings (text : String) : Option (List String) :=
  match skipBlanks text.toList with
  | 'n' :: 'u' :: 'l' :: 'l' :: l => if skipBlanks l = [] then some [] else none
  | '[' :: l =>
    match skipBlanks l with
    | ']' :: l => if skipBlanks l = [] then some [] else none
    | l => elements (l.length + 1) l
  | _ => none

/-! ### Each reader undoes its writer -/

theorem hexVal_digitChar : ∀ n < 16, hexVal n.digitChar = some n := by decide

theorem getU4_u4 {n : Nat} (hn : n < 65536) (rest : List Char) :
    getU4 (u4 n ++ rest) = some (n, rest) := by
  simp only [u4, List.cons_append, List.nil_append, getU4]
  rw [hexVal_digitChar _ (by omega), hexVal_digitChar _ (by omega), hexVal_digitChar _ (by omega),
    hexVal_digitChar _ (by omega)]
  simp only [Option.some.injEq, Prod.mk.injEq, and_true]
  omega

theorem byNumber_small {c : Char} (h : byNumber c = true) : c.toNat < 0xD800 := by
  simp only [byNumber, Bool.or_eq_true, decide_eq_true_eq, beq_iff_eq] at h
  rcases h with ((((h | rfl) | rfl) | rfl) | h) | h
  · omega
  · decide
  · decide
  · decide
  · omega
  · omega

/-- **An escaped rune is read as itself**, and is no closing quote. -/
theorem next_escape (c : Char) (rest : List Char) :
    next (escape c ++ rest) = some (c, rest) ∧ ∀ l, escape c ++ rest ≠ '"' :: l := by
  rw [escape]
  cases hnamed : named.find? fun p => p.2 == c with
  | some p =>
    obtain ⟨letter, c'⟩ := p
    have hc : c' = c := by simpa using List.find?_some hnamed
    have hmem := List.mem_of_find?_eq_some hnamed
    subst hc
    simp only [named, List.mem_cons, Prod.mk.injEq, List.not_mem_nil, or_false] at hmem
    rcases hmem with ⟨rfl, rfl⟩ | ⟨rfl, rfl⟩ | ⟨rfl, rfl⟩ | ⟨rfl, rfl⟩ | ⟨rfl, rfl⟩ | ⟨rfl, rfl⟩ |
      ⟨rfl, rfl⟩ <;> exact ⟨rfl, by simp⟩
  | none =>
    dsimp only
    cases hnumber : byNumber c with
    | true =>
      have hsmall := byNumber_small hnumber
      rw [if_pos rfl]
      constructor
      · simp only [List.cons_append, next]
        rw [getU4_u4 (by omega)]
        simp only [Option.map_some, rune]
        rw [if_neg (by simp; omega), if_neg (by simp; omega), Char.ofNat_toNat]
      · simp
    | false =>
      rw [if_neg Bool.false_ne_true]
      have hquote : c ≠ '"' := by
        rintro rfl
        revert hnamed
        decide
      have hslash : c ≠ '\\' := by
        rintro rfl
        revert hnamed
        decide
      have hlarge : ¬ c.toNat < 0x20 := by
        intro hlt
        simp [byNumber, hlt] at hnumber
      exact ⟨by simp [next, hslash, hlarge], by simp [hquote]⟩

theorem unquote_quoted (s rest : List Char) {n : Nat} (hn : s.length < n) :
    unquote n (s.flatMap escape ++ '"' :: rest) = some (s, rest) := by
  induction s generalizing n with
  | nil =>
    cases n with
    | zero => simp at hn
    | succ n => rfl
  | cons c s ih =>
    cases n with
    | zero => simp at hn
    | succ n =>
      have hlen : s.length < n := by
        rw [List.length_cons] at hn
        omega
      obtain ⟨hnext, hquote⟩ := next_escape c (s.flatMap escape ++ '"' :: rest)
      rw [List.flatMap_cons, List.append_assoc, unquote]
      · simp [hnext, ih hlen]
      · exact fun l h => hquote l h

theorem length_escape (s : List Char) : s.length ≤ (s.flatMap escape).length := by
  induction s with
  | nil => simp
  | cons c s ih =>
    have hescape : 1 ≤ (escape c).length := by
      rw [escape]
      split
      · simp
      · split <;> simp
    rw [List.flatMap_cons, List.length_append, List.length_cons]
    omega

theorem element_quoted (s : String) (rest : List Char) :
    element (quoted s.toList ++ rest) = some (s, rest) := by
  have hlen := length_escape s.toList
  have hroom : s.toList.length < (s.toList.flatMap escape ++ '"' :: rest).length + 1 := by
    rw [List.length_append]
    omega
  simp only [quoted, List.cons_append, List.append_assoc, List.nil_append, element]
  rw [unquote_quoted _ _ hroom, Option.map_some, String.ofList_toList]

theorem skipBlanks_of_head {c : Char} {l : List Char} (h : isBlank c = false) :
    skipBlanks (c :: l) = c :: l := by
  simp [skipBlanks, h]

theorem elements_written (s : String) (rest : List String) {n : Nat} (hn : rest.length < n) :
    elements n (quoted s.toList ++ writeTail rest) = some (s :: rest) := by
  induction rest generalizing s n with
  | nil =>
    cases n with
    | zero => simp at hn
    | succ n =>
      rw [elements, element_quoted]
      rfl
  | cons s' rest ih =>
    cases n with
    | zero => simp at hn
    | succ n =>
      have hlen : rest.length < n := by
        rw [List.length_cons] at hn
        omega
      have hquoted : skipBlanks (quoted s'.toList ++ writeTail rest) =
          quoted s'.toList ++ writeTail rest := skipBlanks_of_head (by decide)
      have hcomma : skipBlanks (writeTail (s' :: rest)) = writeTail (s' :: rest) :=
        skipBlanks_of_head (by decide)
      rw [elements, element_quoted]
      dsimp only
      rw [hcomma, writeTail]
      show (elements n (skipBlanks _)).map _ = _
      rw [hquoted, ih s' hlen, Option.map_some]

theorem length_writeTail (rest : List String) : rest.length < (writeTail rest).length := by
  induction rest with
  | nil => simp [writeTail]
  | cons s rest ih =>
    simp only [writeTail, List.length_cons, List.length_append]
    omega

/-- **A list of strings is read back as it was written.** -/
theorem readStrings_writeStrings (strings : List String) :
    readStrings (writeStrings strings) = some strings := by
  cases strings with
  | nil => decide +kernel
  | cons s rest =>
    have hlen := length_writeTail rest
    have hopen : skipBlanks ('[' :: (quoted s.toList ++ writeTail rest)) =
        '[' :: (quoted s.toList ++ writeTail rest) := skipBlanks_of_head (by decide)
    have hquoted : skipBlanks (quoted s.toList ++ writeTail rest) =
        quoted s.toList ++ writeTail rest := skipBlanks_of_head (by decide)
    rw [writeStrings, readStrings, String.toList_ofList, hopen]
    show (match skipBlanks (quoted s.toList ++ writeTail rest) with
      | ']' :: l => if skipBlanks l = [] then some [] else none
      | l => elements (l.length + 1) l) = _
    rw [hquoted]
    have hread := elements_written s rest (n := (quoted s.toList ++ writeTail rest).length + 1)
      (by rw [List.length_append]; omega)
    exact hread

end JsonString
