import AuthGateway.Lib.JsonString

/-!
# JSON documents

A document is a tree; a number is kept as the literal that stands in the text.  `write`
puts no blanks between the tokens, `read` allows them and refuses what is no document.

Every reader takes what it needs from the front and returns the rest.  The length of the
text bounds the loops.  **What is written is read back** (`read_toText`).
-/

inductive JsonTree
  | null
  | bool (b : Bool)
  | num (literal : String)
  | str (s : String)
  | arr (items : List JsonTree)
  | obj (members : List (String × JsonTree))

namespace JsonTree

open JsonString

/-! ### Writing -/

mutual

def write : JsonTree → List Char
  | null => ['n', 'u', 'l', 'l']
  | bool true => ['t', 'r', 'u', 'e']
  | bool false => ['f', 'a', 'l', 's', 'e']
  | num literal => literal.toList
  | str s => quoted s.toList
  | arr [] => ['[', ']']
  | arr (t :: rest) => '[' :: (write t ++ writeItems rest)
  | obj [] => ['\x7b', '\x7d']
  | obj ((key, t) :: rest) =>
    '\x7b' :: (quoted key.toList ++ ':' :: (write t ++ writeMembers rest))

/-- More items, each behind a comma, and the bracket. -/
def writeItems : List JsonTree → List Char
  | [] => [']']
  | t :: rest => ',' :: (write t ++ writeItems rest)

def writeMembers : List (String × JsonTree) → List Char
  | [] => ['\x7d']
  | (key, t) :: rest => ',' :: (quoted key.toList ++ ':' :: (write t ++ writeMembers rest))

end

def toText (t : JsonTree) : String := String.ofList t.write

/-! ### Numbers -/

/-- The characters of a number. -/
def isNumeric (c : Char) : Bool :=
  c.isDigit || c == '-' || c == '+' || c == '.' || c == 'e' || c == 'E'

/-- One digit or more, and what follows them. -/
def digits : List Char → Option (List Char)
  | c :: l => if c.isDigit then some (l.dropWhile Char.isDigit) else none
  | [] => none

/-- The digits before the point: no zero in front of another digit. -/
def whole : List Char → Option (List Char)
  | '0' :: l => some l
  | l => digits l

def fraction : List Char → Option (List Char)
  | '.' :: l => digits l
  | l => some l

def exponent : List Char → Option (List Char)
  | 'e' :: '+' :: l | 'e' :: '-' :: l | 'E' :: '+' :: l | 'E' :: '-' :: l => digits l
  | 'e' :: l | 'E' :: l => digits l
  | l => some l

def unsigned (l : List Char) : Bool := ((whole l).bind fraction).bind exponent == some []

/-- The grammar of numbers. -/
def isNumber : List Char → Bool
  | '-' :: l => unsigned l
  | l => unsigned l

/-! ### Reading -/

def number (l : List Char) : Option (JsonTree × List Char) :=
  if isNumber (l.takeWhile isNumeric) then
    some (num (String.ofList (l.takeWhile isNumeric)), l.dropWhile isNumeric)
  else none

mutual

def value : Nat → List Char → Option (JsonTree × List Char)
  | 0, _ => none
  | n + 1, l =>
    match skipBlanks l with
    | '"' :: l => (unquote (l.length + 1) l).map fun p => (str (String.ofList p.1), p.2)
    | '[' :: l =>
      match skipBlanks l with
      | ']' :: l => some (arr [], l)
      | l => (valueItems n l).map fun p => (arr p.1, p.2)
    | '\x7b' :: l =>
      match skipBlanks l with
      | '\x7d' :: l => some (obj [], l)
      | l => (valueMembers n l).map fun p => (obj p.1, p.2)
    | 'n' :: 'u' :: 'l' :: 'l' :: l => some (null, l)
    | 't' :: 'r' :: 'u' :: 'e' :: l => some (bool true, l)
    | 'f' :: 'a' :: 'l' :: 's' :: 'e' :: l => some (bool false, l)
    | l => number l

/-- The items up to the bracket, one at least. -/
def valueItems : Nat → List Char → Option (List JsonTree × List Char)
  | 0, _ => none
  | n + 1, l =>
    match value n l with
    | none => none
    | some (t, l) =>
      match skipBlanks l with
      | ',' :: l => (valueItems n l).map fun p => (t :: p.1, p.2)
      | ']' :: l => some ([t], l)
      | _ => none

def valueMembers : Nat → List Char → Option (List (String × JsonTree) × List Char)
  | 0, _ => none
  | n + 1, l =>
    match skipBlanks l with
    | '"' :: l =>
      match unquote (l.length + 1) l with
      | none => none
      | some (key, l) =>
        match skipBlanks l with
        | ':' :: l =>
          match value n l with
          | none => none
          | some (t, l) =>
            match skipBlanks l with
            | ',' :: l => (valueMembers n l).map fun p => ((String.ofList key, t) :: p.1, p.2)
            | '\x7d' :: l => some ([(String.ofList key, t)], l)
            | _ => none
        | _ => none
    | _ => none

end

/-- The document that a text is; `none` is a syntax error. -/
def read (text : String) : Option JsonTree :=
  match value (text.toList.length + 1) text.toList with
  | some (t, l) => if skipBlanks l = [] then some t else none
  | none => none

/-! ### Documents that are written -/

mutual

/-- Every number of the document is a literal of one. -/
def Literal : JsonTree → Prop
  | num literal => isNumber literal.toList = true ∧ ∀ c ∈ literal.toList, isNumeric c = true
  | arr items => LiteralItems items
  | obj members => LiteralMembers members
  | _ => True

def LiteralItems : List JsonTree → Prop
  | [] => True
  | t :: rest => Literal t ∧ LiteralItems rest

def LiteralMembers : List (String × JsonTree) → Prop
  | [] => True
  | (_, t) :: rest => Literal t ∧ LiteralMembers rest

end

/-- What may follow a value: nothing that belongs to a number. -/
def Ended (rest : List Char) : Prop := ∀ c ∈ rest.head?, isNumeric c = false

theorem ended_nil : Ended [] := by simp [Ended]

theorem ended_writeItems (items : List JsonTree) (rest : List Char) :
    Ended (writeItems items ++ rest) := by
  cases items <;> simp [writeItems, Ended] <;> decide

theorem ended_writeMembers (members : List (String × JsonTree)) (rest : List Char) :
    Ended (writeMembers members ++ rest) := by
  cases members with
  | nil => simp [writeMembers, Ended]; decide
  | cons m members =>
    obtain ⟨key, t⟩ := m
    simp [writeMembers, Ended]
    decide

/-! ### The reader undoes the writer -/

theorem number_written {literal : String} {rest : List Char}
    (h : isNumber literal.toList = true ∧ ∀ c ∈ literal.toList, isNumeric c = true)
    (hrest : Ended rest) : number (literal.toList ++ rest) = some (num literal, rest) := by
  have htake : rest.takeWhile isNumeric = [] := by
    cases rest with
    | nil => rfl
    | cons c rest => simp [hrest c rfl]
  have hdrop : rest.dropWhile isNumeric = rest := by
    cases rest with
    | nil => rfl
    | cons c rest => simp [hrest c rfl]
  rw [number, List.takeWhile_append_of_pos h.2, List.dropWhile_append_of_pos h.2, htake, hdrop,
    List.append_nil, if_pos h.1, String.ofList_toList]

theorem not_isBlank {c : Char} (hc : isNumeric c = true) : isBlank c = false := by
  by_contra h
  simp only [isBlank, Bool.not_eq_false, Bool.or_eq_true, beq_iff_eq] at h
  rcases h with ((rfl | rfl) | rfl) | rfl <;> exact absurd hc (by decide)

/-- A value that begins like a number is one. -/
theorem value_numeric {c : Char} (hc : isNumeric c = true) (n : Nat) (l : List Char) :
    value (n + 1) (c :: l) = number (c :: l) := by
  rw [value, skipBlanks_of_head (not_isBlank hc)]
  split
  case h_7 => rfl
  all_goals
    rename_i heq
    rw [(List.cons.inj heq).1] at hc
    exact absurd hc (by decide)

theorem literal_head {literal : String}
    (h : isNumber literal.toList = true ∧ ∀ c ∈ literal.toList, isNumeric c = true) :
    ∃ c l, literal.toList = c :: l ∧ isNumeric c = true := by
  cases hl : literal.toList with
  | nil =>
    rw [hl] at h
    exact absurd h.1 (by decide)
  | cons c l => exact ⟨c, l, rfl, h.2 c (by rw [hl]; exact List.mem_cons_self)⟩

/-- A string in quotes, and what follows it. -/
theorem unquote_written (s : String) (rest : List Char) :
    unquote ((s.toList.flatMap escape ++ '"' :: rest).length + 1)
      (s.toList.flatMap escape ++ '"' :: rest) = some (s.toList, rest) := by
  apply unquote_quoted
  have hlen := length_escape s.toList
  rw [List.length_append]
  omega

theorem quoted_append (s : String) (rest : List Char) :
    quoted s.toList ++ rest = '"' :: (s.toList.flatMap escape ++ '"' :: rest) := by
  simp [quoted]

/-- A value begins with neither a blank nor a closing bracket. -/
theorem write_head (t : JsonTree) (ht : Literal t) :
    ∃ c l, t.write = c :: l ∧ isBlank c = false ∧ c ≠ ']' := by
  match t with
  | null => exact ⟨_, _, rfl, by decide, by decide⟩
  | bool true => exact ⟨_, _, rfl, by decide, by decide⟩
  | bool false => exact ⟨_, _, rfl, by decide, by decide⟩
  | num literal =>
    rw [Literal] at ht
    obtain ⟨c, l, hl, hc⟩ := literal_head ht
    refine ⟨c, l, by rw [write, hl], not_isBlank hc, ?_⟩
    rintro rfl
    exact absurd hc (by decide)
  | str s => exact ⟨'"', _, by rw [write, quoted], by decide, by decide⟩
  | arr [] => exact ⟨_, _, rfl, by decide, by decide⟩
  | arr (t :: items) => exact ⟨'[', _, by rw [write], by decide, by decide⟩
  | obj [] => exact ⟨_, _, rfl, by decide, by decide⟩
  | obj ((key, t) :: members) => exact ⟨'\x7b', _, by rw [write], by decide, by decide⟩

theorem skipBlanks_write (t : JsonTree) (ht : Literal t) (l : List Char) :
    skipBlanks (t.write ++ l) = t.write ++ l := by
  obtain ⟨c, cs, hc, hblank, -⟩ := write_head t ht
  rw [hc]
  exact skipBlanks_of_head hblank

/-- An array that is not empty. -/
theorem value_items {n : Nat} {t : JsonTree} {l : List Char} (ht : Literal t) :
    value (n + 1) ('[' :: (t.write ++ l)) =
      (valueItems n (t.write ++ l)).map fun p => (arr p.1, p.2) := by
  rw [value, skipBlanks_of_head (by decide)]
  show (match skipBlanks (t.write ++ l) with
    | ']' :: l => some (arr [], l)
    | l => (valueItems n l).map fun p : List JsonTree × List Char => (arr p.1, p.2)) = _
  rw [skipBlanks_write t ht]
  obtain ⟨c, cs, hc, -, hclose⟩ := write_head t ht
  rw [hc, List.cons_append]
  split
  case h_1 heq => exact absurd (List.cons.inj heq).1 hclose
  case h_2 => rfl

/-- A member behind its key. -/
theorem valueMembers_member (key : String) (n : Nat) (l : List Char) :
    valueMembers (n + 1) (quoted key.toList ++ ':' :: l) =
      match value n l with
      | none => none
      | some (t, l) =>
        match skipBlanks l with
        | ',' :: l => (valueMembers n l).map fun p => ((key, t) :: p.1, p.2)
        | '\x7d' :: l => some ([(key, t)], l)
        | _ => none := by
  rw [quoted_append, valueMembers, skipBlanks_of_head (by decide)]
  show (match unquote _ _ with
    | none => none
    | some (key, l) => _) = _
  rw [unquote_written]
  dsimp only
  rw [skipBlanks_of_head (by decide), String.ofList_toList]
  rfl

/-- An object that is not empty. -/
theorem value_members {n : Nat} (key : String) (l : List Char) :
    value (n + 1) ('\x7b' :: (quoted key.toList ++ l)) =
      (valueMembers n (quoted key.toList ++ l)).map fun p => (obj p.1, p.2) := by
  rw [value, skipBlanks_of_head (by decide), quoted_append]
  show (match skipBlanks ('"' :: _) with
    | '\x7d' :: l => some (obj [], l)
    | l => (valueMembers n l).map
        fun p : List (String × JsonTree) × List Char => (obj p.1, p.2)) = _
  rw [skipBlanks_of_head (by decide)]
  rfl

theorem length_writeItems (items : List JsonTree) : 0 < (writeItems items).length := by
  cases items <;> simp [writeItems]

theorem length_writeMembers (members : List (String × JsonTree)) :
    0 < (writeMembers members).length := by
  cases members <;> simp [writeMembers]

/-- What the three readers have to do within a bound. -/
structure Reads (n : Nat) : Prop where
  value : ∀ t rest, Literal t → Ended rest → t.write.length < n →
    value n (t.write ++ rest) = some (t, rest)
  items : ∀ t items rest, Literal t → LiteralItems items →
    (t.write ++ writeItems items).length < n →
    valueItems n (t.write ++ (writeItems items ++ rest)) = some (t :: items, rest)
  members : ∀ key t members rest, Literal t → LiteralMembers members →
    (quoted key.toList ++ ':' :: (t.write ++ writeMembers members)).length < n →
    valueMembers n (quoted key.toList ++ ':' :: (t.write ++ (writeMembers members ++ rest))) =
      some ((key, t) :: members, rest)

theorem value_step {n : Nat} (ih : Reads n) (t : JsonTree) (rest : List Char) (ht : Literal t)
    (hrest : Ended rest) (hn : t.write.length < n + 1) :
    value (n + 1) (t.write ++ rest) = some (t, rest) := by
  match t with
  | null => rfl
  | bool true => rfl
  | bool false => rfl
  | num literal =>
    rw [Literal] at ht
    obtain ⟨c, l, hl, hc⟩ := literal_head ht
    have hnumber := number_written ht hrest
    rw [write]
    rw [hl, List.cons_append] at hnumber ⊢
    rw [value_numeric hc, hnumber]
  | str s =>
    rw [write, quoted_append, JsonTree.value, skipBlanks_of_head (by decide)]
    show (unquote _ _).map _ = _
    rw [unquote_written, Option.map_some, String.ofList_toList]
  | arr [] => rfl
  | arr (t :: items) =>
    rw [Literal, LiteralItems] at ht
    rw [write, List.length_cons] at hn
    rw [write, List.cons_append, List.append_assoc, value_items ht.1,
      ih.items t items rest ht.1 ht.2 (by omega)]
    rfl
  | obj [] => rfl
  | obj ((key, t) :: members) =>
    rw [Literal, LiteralMembers] at ht
    rw [write, List.length_cons] at hn
    have hassoc : (quoted key.toList ++ ':' :: (t.write ++ writeMembers members)) ++ rest =
        quoted key.toList ++ ':' :: (t.write ++ (writeMembers members ++ rest)) := by simp
    rw [write, List.cons_append, hassoc, value_members,
      ih.members key t members rest ht.1 ht.2 (by omega)]
    rfl

theorem valueItems_step {n : Nat} (ih : Reads n) (t : JsonTree) (items : List JsonTree)
    (rest : List Char) (ht : Literal t) (hitems : LiteralItems items)
    (hn : (t.write ++ writeItems items).length < n + 1) :
    valueItems (n + 1) (t.write ++ (writeItems items ++ rest)) = some (t :: items, rest) := by
  have hlen := length_writeItems items
  rw [List.length_append] at hn
  rw [valueItems, ih.value t _ ht (ended_writeItems items rest) (by omega)]
  match items with
  | [] => rfl
  | u :: items =>
    rw [LiteralItems] at hitems
    rw [writeItems, List.length_cons] at hn
    rw [writeItems, List.cons_append]
    dsimp only
    rw [skipBlanks_of_head (by decide), List.append_assoc]
    show (valueItems n _).map _ = _
    rw [ih.items u items rest hitems.1 hitems.2 (by omega)]
    rfl

theorem valueMembers_step {n : Nat} (ih : Reads n) (key : String) (t : JsonTree)
    (members : List (String × JsonTree)) (rest : List Char) (ht : Literal t)
    (hmembers : LiteralMembers members)
    (hn : (quoted key.toList ++ ':' :: (t.write ++ writeMembers members)).length < n + 1) :
    valueMembers (n + 1)
      (quoted key.toList ++ ':' :: (t.write ++ (writeMembers members ++ rest))) =
      some ((key, t) :: members, rest) := by
  have hlen := length_writeMembers members
  rw [List.length_append, List.length_cons, List.length_append] at hn
  rw [valueMembers_member, ih.value t _ ht (ended_writeMembers members rest) (by omega)]
  match members with
  | [] => rfl
  | (key', u) :: members =>
    rw [LiteralMembers] at hmembers
    rw [writeMembers, List.length_cons] at hn
    have hassoc : (quoted key'.toList ++ ':' :: (u.write ++ writeMembers members)) ++ rest =
        quoted key'.toList ++ ':' :: (u.write ++ (writeMembers members ++ rest)) := by simp
    rw [writeMembers, List.cons_append]
    dsimp only
    rw [skipBlanks_of_head (by decide), hassoc]
    show (valueMembers n _).map _ = _
    rw [ih.members key' u members rest hmembers.1 hmembers.2 (by omega)]
    rfl

theorem reads (n : Nat) : Reads n := by
  induction n with
  | zero =>
    refine ⟨?_, ?_, ?_⟩
    · intro t rest _ _ hn
      omega
    · intro t items rest _ _ hn
      omega
    · intro key t members rest _ _ hn
      omega
  | succ n ih => exact ⟨value_step ih, valueItems_step ih, valueMembers_step ih⟩

/-- **A document is read back as it was written.** -/
theorem read_toText (t : JsonTree) (ht : Literal t) : read t.toText = some t := by
  have hvalue := (reads (t.write.length + 1)).value t [] ht ended_nil (by omega)
  rw [List.append_nil] at hvalue
  rw [read, toText, String.toList_ofList, hvalue]
  rfl

/-- The text `null` is the document `null` only. -/
theorem toText_eq_null {t : JsonTree} (ht : Literal t) : t.toText = "null" ↔ t = null := by
  constructor
  · intro h
    have hread := read_toText t ht
    rw [h] at hread
    have hnull : read "null" = some null := rfl
    exact Option.some.inj (hread.symm.trans hnull)
  · rintro rfl
    rfl

end JsonTree
