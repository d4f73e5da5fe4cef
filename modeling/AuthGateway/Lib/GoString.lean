import Mathlib

/-!
# Go strings

What the standard library of Go does with a string, on lists of runes.  A
string is valid UTF-8 here, so its length in bytes is the sum of its runes'.

`atoi_sound`: a string that `strconv.Atoi` accepts consists of decimal digits
after at most one sign, so all of it is ASCII and `strings.ToUpper` leaves it as
it is (`toUpper_of_numeric`).  `atoi_itoa`: what `strconv.Itoa` writes is read back.
-/

namespace GoString

/-! ### Length and search -/

/-- `len(s)`, in bytes. -/
def len (s : String) : Nat := (s.toList.map Char.utf8Size).sum

/-- `strings.ReplaceAll(s, c, "")` for a single rune `c`. -/
def removeAll (c : Char) (s : String) : String := String.ofList (s.toList.filter fun x => x != c)

/-- The list without the first occurrence of a pattern. -/
def removeFirst (pat : List Char) : List Char → List Char
  | [] => []
  | c :: cs => if pat.isPrefixOf (c :: cs) then (c :: cs).drop pat.length
      else c :: removeFirst pat cs

/-- `strings.Replace(s, pat, "", 1)` for a non-empty pattern. -/
def replaceOnce (pat s : String) : String := String.ofList (removeFirst pat.toList s.toList)

/-- `strings.HasPrefix`. -/
def hasPrefix (s p : String) : Bool := p.toList.isPrefixOf s.toList

/-- `strings.HasSuffix`. -/
def hasSuffix (s p : String) : Bool := p.toList.isSuffixOf s.toList

/-- `strings.TrimPrefix`. -/
def trimPrefix (s p : String) : String :=
  if hasPrefix s p then String.ofList (s.toList.drop p.toList.length) else s

theorem hasPrefix_iff {s p : String} : hasPrefix s p = true ↔ p.toList <+: s.toList :=
  List.isPrefixOf_iff_prefix

theorem hasSuffix_iff {s p : String} : hasSuffix s p = true ↔ p.toList <:+ s.toList :=
  List.isSuffixOf_iff_suffix

theorem hasPrefix_append (p s : String) : hasPrefix (p ++ s) p = true := by
  rw [hasPrefix_iff, String.toList_append]
  exact List.prefix_append _ _

/-- Only the whole text behind the prefix is left of it. -/
theorem trimPrefix_eq_iff {s p rest : String} (h : hasPrefix s p = true) :
    trimPrefix s p = rest ↔ s = p ++ rest := by
  obtain ⟨l, hl⟩ := hasPrefix_iff.mp h
  rw [trimPrefix, if_pos h, ← hl, List.drop_left, ← String.toList_inj, String.toList_ofList,
    ← String.toList_inj, String.toList_append, ← hl, List.append_cancel_left_eq]

/-- `strings.Split(s, c)` for a single rune `c`. -/
def split (c : Char) (s : String) : List String := (s.toList.splitOn c).map String.ofList

/-- `strings.Contains(s, c)` for a single rune `c`. -/
def contains (s : String) (c : Char) : Bool := s.toList.contains c

/-- `unicode.IsSpace`. -/
def isSpace (c : Char) : Bool :=
  c == ' ' || (9 ≤ c.toNat && c.toNat ≤ 13) || c.toNat == 0x85 || c.toNat == 0xA0
    || c.toNat == 0x1680 || (0x2000 ≤ c.toNat && c.toNat ≤ 0x200A) || c.toNat == 0x2028
    || c.toNat == 0x2029 || c.toNat == 0x202F || c.toNat == 0x205F || c.toNat == 0x3000

/-- `strings.TrimSpace`. -/
def trimSpace (s : String) : String :=
  String.ofList ((s.toList.dropWhile isSpace).reverse.dropWhile isSpace).reverse

/-- `unicode.ToUpper` on the runes whose upper case is an ASCII letter: the
ASCII letters, the dotless i and the long s.  Every other rune goes to a rune
outside `A`–`Z`, which stays as it is here; no caller tells them apart. -/
def upperRune (c : Char) : Char :=
  if 97 ≤ c.toNat && c.toNat ≤ 122 then Char.ofNat (c.toNat - 32)
  else if c.toNat == 0x131 then 'I'
  else if c.toNat == 0x17F then 'S'
  else c

/-- `strings.ToUpper`. -/
def toUpper (s : String) : String := String.ofList (s.toList.map upperRune)

/-- `strings.ToLower`, where `lower` is `unicode.ToLower`. -/
def toLower (lower : Char → Char) (s : String) : String := String.ofList (s.toList.map lower)

/-! ### Joining -/

/-- **Texts that are joined by a rune are read back**, when none of them has it. -/
theorem split_intercalate {c : Char} {texts : List String} (hne : texts ≠ [])
    (h : ∀ text ∈ texts, c ∉ text.toList) :
    split c ((String.singleton c).intercalate texts) = texts := by
  have hchars : ∀ l ∈ texts.map String.toList, c ∉ l := by
    intro l hl
    obtain ⟨text, htext, rfl⟩ := List.mem_map.mp hl
    exact h text htext
  have hsplit : ([c].intercalate (texts.map String.toList)).splitOn c = texts.map String.toList :=
    List.splitOn_intercalate c hchars (by simpa using hne)
  rw [split, String.toList_intercalate, String.toList_singleton, hsplit, List.map_map]
  simp [Function.comp_def]

/-! ### Blank strings -/

theorem all_dropWhile {p : Char → Bool} {l : List Char} (h : ∀ c ∈ l.dropWhile p, p c = true) :
    ∀ c ∈ l, p c = true := by
  induction l with
  | nil =>
    intro c hc
    cases hc
  | cons x l ih =>
    by_cases hx : p x = true
    · rw [List.dropWhile_cons, if_pos hx] at h
      intro c hc
      rcases List.mem_cons.mp hc with rfl | hc
      · exact hx
      · exact ih h c hc
    · rw [List.dropWhile_cons, if_neg hx] at h
      exact h

/-- **What `TrimSpace` leaves is empty when every rune is a space.** -/
theorem trimSpace_eq_empty {s : String} : trimSpace s = "" ↔ ∀ c ∈ s.toList, isSpace c = true := by
  have hempty : trimSpace s = ""
      ↔ (s.toList.dropWhile isSpace).reverse.dropWhile isSpace = [] := by
    rw [trimSpace, ← String.toList_inj, String.toList_ofList]
    simp
  rw [hempty, List.dropWhile_eq_nil_iff]
  constructor
  · intro h
    apply all_dropWhile
    intro c hc
    exact h c (List.mem_reverse.mpr hc)
  · intro h c hc
    exact h c (List.dropWhile_subset _ (List.mem_reverse.mp hc))

/-- A string with a rune that is no space. -/
theorem trimSpace_ne_empty {s : String} : trimSpace s ≠ "" ↔ ∃ c ∈ s.toList, isSpace c = false := by
  rw [ne_eq, trimSpace_eq_empty]
  simp

/-! ### Numbers -/

inductive NumError
  | invalidSyntax
  | range
deriving DecidableEq, Repr

/-- The text of the error of `Atoi`. -/
def NumError.text (s : String) : NumError → String
  | .invalidSyntax => "strconv.Atoi: parsing " ++ s.quote ++ ": invalid syntax"
  | .range => "strconv.Atoi: parsing " ++ s.quote ++ ": value out of range"

def digit? (c : Char) : Option Nat :=
  if 48 ≤ c.toNat && c.toNat ≤ 57 then some (c.toNat - 48) else none

/-- `strconv.ParseUint` in base 10: digit by digit, stopping at the first rune
that is no digit or takes the value past 64 bits. -/
def parseUint : Nat → List Char → Except NumError Nat
  | n, [] => .ok n
  | n, c :: cs =>
    match digit? c with
    | none => .error .invalidSyntax
    | some d => if 2 ^ 64 ≤ 10 * n + d then .error .range else parseUint (10 * n + d) cs

def isSign (c : Char) : Bool := c == '+' || c == '-'

/-- `strconv.ParseInt`: the value and the error, from what is left after the
sign.  On a range error the value is the bound that was passed. -/
def signed (neg : Bool) : Except NumError Nat → Int × Option NumError
  | .error .invalidSyntax => (0, some .invalidSyntax)
  | .error .range => (if neg then -2 ^ 63 else 2 ^ 63 - 1, some .range)
  | .ok n =>
    if neg then if 2 ^ 63 < n then (-2 ^ 63, some .range) else (-(n : Int), none)
    else if 2 ^ 63 ≤ n then (2 ^ 63 - 1, some .range) else ((n : Int), none)

/-- The digits of a number: all of it, less one sign in front. -/
def unsign (l : List Char) : List Char := if l.head?.any isSign then l.tail else l

/-- `strconv.Atoi`: the value it returns and its error. -/
def atoi (s : String) : Int × Option NumError :=
  signed (s.toList.head? == some '-')
    (if (unsign s.toList).isEmpty then .error .invalidSyntax else parseUint 0 (unsign s.toList))

/-- `strconv.ParseBool`. -/
def parseBool (s : String) : Option Bool :=
  if s ∈ ["1", "t", "T", "TRUE", "true", "True"] then some true
  else if s ∈ ["0", "f", "F", "FALSE", "false", "False"] then some false
  else none

/-- `strconv.FormatBool`. -/
def formatBool (b : Bool) : String := if b then "true" else "false"

theorem parseBool_formatBool (b : Bool) : parseBool (formatBool b) = some b := by
  cases b <;> decide

/-! ### What `atoi` accepts -/

/-- A rune that can stand in a number: a digit or a sign. -/
def Numeric (c : Char) : Prop := (48 ≤ c.toNat ∧ c.toNat ≤ 57) ∨ c = '+' ∨ c = '-'

theorem digit?_numeric {c : Char} {d : Nat} (h : digit? c = some d) : Numeric c := by
  unfold digit? at h
  split at h
  · rename_i hc
    left
    simpa using hc
  · cases h

theorem parseUint_numeric : ∀ (cs : List Char) (n v : Nat), parseUint n cs = .ok v →
    ∀ c ∈ cs, Numeric c := by
  intro cs
  induction cs with
  | nil => intro n v _ c hc; cases hc
  | cons x cs ih =>
    intro n v h c hc
    rw [parseUint] at h
    cases hd : digit? x with
    | none => simp [hd] at h
    | some d =>
      simp only [hd] at h
      split at h
      · cases h
      · rcases List.mem_cons.mp hc with rfl | hc
        · exact digit?_numeric hd
        · exact ih _ _ h c hc

theorem signed_ok {neg : Bool} {r : Except NumError Nat} (h : (signed neg r).2 = none) :
    ∃ n, r = .ok n := by
  cases r with
  | ok n => exact ⟨n, rfl⟩
  | error e => cases e <;> exact absurd h (by simp [signed])

theorem numeric_of_unsign {l : List Char} (h : ∀ c ∈ unsign l, Numeric c) :
    ∀ c ∈ l, Numeric c := by
  cases l with
  | nil => intro c hc; cases hc
  | cons x cs =>
    intro c hc
    by_cases hx : isSign x = true
    · rcases List.mem_cons.mp hc with rfl | hc
      · right
        simpa [isSign] using hx
      · exact h c (by simpa [unsign, hx] using hc)
    · exact h c (by simpa [unsign, hx] using hc)

/-- **What `Atoi` accepts consists of digits and signs.** -/
theorem atoi_sound {s : String} (h : (atoi s).2 = none) : ∀ c ∈ s.toList, Numeric c := by
  obtain ⟨n, hn⟩ := signed_ok h
  refine numeric_of_unsign ?_
  split at hn
  · cases hn
  · exact parseUint_numeric _ 0 n hn

/-! ### Writing a number -/

/-- `strconv.Itoa`, and what `fmt` makes of an integer. -/
def itoa : Int → String
  | .ofNat n => n.repr
  | .negSucc n => "-" ++ (n + 1).repr

theorem digit?_digitChar : ∀ d, d < 10 → digit? d.digitChar = some d := by decide

theorem parseUint_append {l : List Char} {n m : Nat} (h : parseUint n l = .ok m) (l' : List Char) :
    parseUint n (l ++ l') = parseUint m l' := by
  induction l generalizing n with
  | nil =>
    obtain rfl := Except.ok.inj h
    rfl
  | cons c l ih =>
    rw [List.cons_append, parseUint]
    rw [parseUint] at h
    cases hd : digit? c with
    | none => simp [hd] at h
    | some d =>
      simp only [hd] at h ⊢
      split at h
      · cases h
      · rename_i hlt
        rw [if_neg hlt]
        exact ih h

/-- **The digits of a number are read back.** -/
theorem parseUint_toDigits {n : Nat} (h : n < 2 ^ 64) : parseUint 0 (Nat.toDigits 10 n) = .ok n := by
  induction n using Nat.strongRecOn with
  | ind n ih =>
    by_cases hn : n < 10
    · rw [Nat.toDigits_of_lt_base hn, parseUint, digit?_digitChar n hn]
      simp only [Nat.mul_zero, Nat.zero_add]
      rw [if_neg (by omega), parseUint]
    · have hdiv : parseUint 0 (Nat.toDigits 10 (n / 10)) = .ok (n / 10) := ih _ (by omega) (by omega)
      have hlast : 10 * (n / 10) + n % 10 = n := Nat.div_add_mod n 10
      rw [Nat.toDigits_of_base_le (by omega) (by omega), parseUint_append hdiv, parseUint,
        digit?_digitChar _ (Nat.mod_lt _ (by omega))]
      simp only [hlast]
      rw [if_neg (by omega), parseUint]

theorem not_isSign_of_isDigit {c : Char} (h : c.isDigit = true) : isSign c = false := by
  cases hs : isSign c with
  | false => rfl
  | true =>
    have hc : c = '+' ∨ c = '-' := by simpa [isSign] using hs
    rcases hc with rfl | rfl
    · exact absurd h (by decide)
    · exact absurd h (by decide)

theorem toDigits_head (n : Nat) : ∃ c cs, Nat.toDigits 10 n = c :: cs ∧ isSign c = false := by
  cases h : Nat.toDigits 10 n with
  | nil => exact absurd h Nat.toDigits_ne_nil
  | cons c cs =>
    have hc : c ∈ Nat.toDigits 10 n := by simp [h]
    exact ⟨c, cs, rfl, not_isSign_of_isDigit (Nat.isDigit_of_mem_toDigits (by decide) (by decide) hc)⟩

theorem toList_itoa_ofNat (n : Nat) : (itoa (.ofNat n)).toList = Nat.toDigits 10 n :=
  Nat.toList_repr

theorem toList_itoa_negSucc (n : Nat) :
    (itoa (.negSucc n)).toList = '-' :: Nat.toDigits 10 (n + 1) := by
  rw [itoa, String.toList_append, Nat.toList_repr]
  rfl

theorem signed_ofNat {n : Nat} (h : n < 2 ^ 63) : signed false (.ok n) = ((n : Int), none) := by
  rw [signed, if_neg (by decide), if_neg (by omega)]

theorem signed_neg {n : Nat} (h : n ≤ 2 ^ 63) : signed true (.ok n) = (-(n : Int), none) := by
  rw [signed, if_pos rfl, if_neg (by omega)]

/-- **`Atoi` reads back what was written**, for every 64-bit integer. -/
theorem atoi_itoa {n : Int} (hlow : -2 ^ 63 ≤ n) (hhigh : n < 2 ^ 63) :
    atoi (itoa n) = (n, none) := by
  cases n with
  | ofNat n =>
    have hn : n < 2 ^ 63 := by
      simp only [Int.ofNat_eq_natCast] at hhigh
      omega
    obtain ⟨c, cs, hdigits, hc⟩ := toDigits_head n
    have hhead : ((c :: cs).head? == some '-') = false := by
      simp only [isSign, Bool.or_eq_false_iff] at hc
      simp [hc.2]
    have hunsign : unsign (c :: cs) = c :: cs := by simp [unsign, hc]
    have hparse := parseUint_toDigits (n := n) (by omega)
    rw [hdigits] at hparse
    rw [atoi, toList_itoa_ofNat, hdigits, hunsign, hhead, hparse]
    exact signed_ofNat hn
  | negSucc n =>
    have hn : n + 1 ≤ 2 ^ 63 := by omega
    have hunsign : unsign ('-' :: Nat.toDigits 10 (n + 1)) = Nat.toDigits 10 (n + 1) := rfl
    have hne : (Nat.toDigits 10 (n + 1)).isEmpty = false := by
      simp [Nat.toDigits_ne_nil]
    have hparse := parseUint_toDigits (n := n + 1) (by omega)
    rw [atoi, toList_itoa_negSucc, hunsign, hne, hparse]
    exact signed_neg hn

theorem toDigits_injective {m n : Nat} (h : Nat.toDigits 10 m = Nat.toDigits 10 n) : m = n := by
  rw [← Nat.ofDigitChars_ten_toDigits (n := m), h, Nat.ofDigitChars_ten_toDigits]

theorem itoa_ofNat_ne_negSucc (m n : Nat) : itoa (.ofNat m) ≠ itoa (.negSucc n) := by
  intro h
  obtain ⟨c, cs, hdigits, hc⟩ := toDigits_head m
  have hlist := congrArg String.toList h
  rw [toList_itoa_ofNat, toList_itoa_negSucc, hdigits] at hlist
  rw [(List.cons.inj hlist).1] at hc
  exact absurd hc (by decide)

theorem itoa_injective {m n : Int} (h : itoa m = itoa n) : m = n := by
  have hlist := congrArg String.toList h
  cases m with
  | ofNat m =>
    cases n with
    | ofNat n =>
      rw [toList_itoa_ofNat, toList_itoa_ofNat] at hlist
      rw [toDigits_injective hlist]
    | negSucc n => exact absurd h (itoa_ofNat_ne_negSucc m n)
  | negSucc m =>
    cases n with
    | ofNat n => exact absurd h.symm (itoa_ofNat_ne_negSucc n m)
    | negSucc n =>
      rw [toList_itoa_negSucc, toList_itoa_negSucc] at hlist
      have hdigits := toDigits_injective (List.cons.inj hlist).2
      rw [Nat.succ.inj hdigits]

/-! ### Length of numeric strings -/

theorem Numeric.toNat_lt {c : Char} (h : Numeric c) : c.toNat < 97 := by
  rcases h with h | rfl | rfl
  · omega
  · decide
  · decide

theorem Numeric.upperRune {c : Char} (h : Numeric c) : upperRune c = c := by
  have hlt := h.toNat_lt
  have h1 : (decide (97 ≤ c.toNat)) = false := decide_eq_false (by omega)
  have h2 : (c.toNat == 0x131) = false := by rw [beq_eq_false_iff_ne]; omega
  have h3 : (c.toNat == 0x17F) = false := by rw [beq_eq_false_iff_ne]; omega
  simp [GoString.upperRune, h1, h2, h3]

/-- Upper case leaves a string of digits and signs as it is. -/
theorem toUpper_of_numeric {s : String} (h : ∀ c ∈ s.toList, Numeric c) : toUpper s = s := by
  rw [toUpper, List.map_congr_left (g := id) fun c hc => (h c hc).upperRune, List.map_id,
    String.ofList_toList]

theorem sum_filter_le (p : Char → Bool) (l : List Char) :
    ((l.filter p).map Char.utf8Size).sum ≤ (l.map Char.utf8Size).sum := by
  induction l with
  | nil => exact Nat.le_refl _
  | cons c l ih =>
    rw [List.filter_cons]
    cases p c with
    | true => simp only [if_true, List.map_cons, List.sum_cons]; omega
    | false =>
      simp only [Bool.false_eq_true, if_false, List.map_cons, List.sum_cons]
      omega

/-- Removing a rune makes no string longer. -/
theorem len_removeAll_le (c : Char) (s : String) : len (removeAll c s) ≤ len s := by
  rw [len, len, removeAll, String.toList_ofList]
  exact sum_filter_le _ _

theorem mem_removeAll {c x : Char} {s : String} :
    x ∈ (removeAll c s).toList ↔ x ∈ s.toList ∧ x ≠ c := by
  rw [removeAll, String.toList_ofList, List.mem_filter, bne_iff_ne]

/-- A string without the rune is left as it is. -/
theorem removeAll_of_not_mem {c : Char} {s : String} (h : c ∉ s.toList) : removeAll c s = s := by
  rw [removeAll, List.filter_eq_self.mpr, String.ofList_toList]
  intro x hx
  rw [bne_iff_ne]
  rintro rfl
  exact h hx

end GoString
