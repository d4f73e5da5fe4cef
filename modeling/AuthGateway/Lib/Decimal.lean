import AuthGateway.Lib.GoString

/-!
# Decimal integers

`IsInteger text n` says that a text is the integer `n` in decimal: digits, with a
sign in front or not, and leading zeros at will.

**`Atoi` reads exactly the integers of 64 bits** (`atoi_eq_iff`).
-/

namespace Decimal

open GoString

def IsDigit (c : Char) : Prop := 48 ≤ c.toNat ∧ c.toNat ≤ 57

/-- The digits read from left to right, behind the number `n`. -/
def readOn (n : Nat) (digits : List Char) : Nat :=
  digits.foldl (fun n c => 10 * n + (c.toNat - 48)) n

def value (digits : List Char) : Nat := readOn 0 digits

/-- At least one character, and digits only. -/
def Digits (text : List Char) : Prop := text ≠ [] ∧ ∀ c ∈ text, IsDigit c

inductive IsInteger : List Char → Int → Prop
  | plain {digits : List Char} : Digits digits → IsInteger digits (value digits)
  | plus {digits : List Char} : Digits digits → IsInteger ('+' :: digits) (value digits)
  | minus {digits : List Char} : Digits digits → IsInteger ('-' :: digits) (-(value digits : Int))

theorem le_readOn (n : Nat) (digits : List Char) : n ≤ readOn n digits := by
  induction digits generalizing n with
  | nil => exact Nat.le_refl n
  | cons c cs ih =>
    have hle := ih (10 * n + (c.toNat - 48))
    simp only [readOn, List.foldl_cons] at hle ⊢
    omega

theorem readOn_lt {digits : List Char} (h : ∀ c ∈ digits, IsDigit c) (n : Nat) :
    readOn n digits < (n + 1) * 10 ^ digits.length := by
  induction digits generalizing n with
  | nil =>
    show n < (n + 1) * 1
    omega
  | cons c cs ih =>
    have hc : IsDigit c := h c (by simp)
    have hlt := ih (fun d hd => h d (by simp [hd])) (10 * n + (c.toNat - 48))
    have hstep : (10 * n + (c.toNat - 48) + 1) * 10 ^ cs.length
        ≤ (10 * (n + 1)) * 10 ^ cs.length := by
      apply Nat.mul_le_mul_right
      unfold IsDigit at hc
      omega
    calc readOn n (c :: cs) = readOn (10 * n + (c.toNat - 48)) cs := rfl
      _ < (10 * n + (c.toNat - 48) + 1) * 10 ^ cs.length := hlt
      _ ≤ (10 * (n + 1)) * 10 ^ cs.length := hstep
      _ = (n + 1) * 10 ^ (c :: cs).length := by
        rw [List.length_cons, Nat.pow_succ, Nat.mul_comm 10, Nat.mul_assoc, Nat.mul_comm 10]

/-- So few digits are a number that `Atoi` can hold. -/
theorem value_lt_of_length {digits : List Char} (h : ∀ c ∈ digits, IsDigit c)
    (hlength : digits.length ≤ 18) : value digits < 2 ^ 63 := by
  calc value digits < (0 + 1) * 10 ^ digits.length := readOn_lt h 0
    _ = 10 ^ digits.length := Nat.one_mul _
    _ ≤ 10 ^ 18 := Nat.pow_le_pow_right (by decide) hlength
    _ < 2 ^ 63 := by decide

theorem digit?_eq {c : Char} (h : IsDigit c) : digit? c = some (c.toNat - 48) := by
  obtain ⟨hlow, hhigh⟩ := h
  simp [digit?, hlow, hhigh]

theorem digit?_eq_none {c : Char} (h : ¬ IsDigit c) : digit? c = none := by
  rw [digit?, if_neg]
  intro hc
  apply h
  simpa [IsDigit] using hc

theorem not_isDigit_of_isSign {c : Char} (h : isSign c = true) : ¬ IsDigit c := by
  have hsign : c = '+' ∨ c = '-' := by simpa [isSign] using h
  rcases hsign with rfl | rfl <;> simp [IsDigit]

theorem parseUint_eq_ok_iff {n v : Nat} {text : List Char} (hn : n < 2 ^ 64) :
    parseUint n text = .ok v ↔ (∀ c ∈ text, IsDigit c) ∧ readOn n text = v ∧ v < 2 ^ 64 := by
  induction text generalizing n with
  | nil =>
    have hnil : readOn n [] = n := rfl
    simp only [parseUint, hnil, Except.ok.injEq, List.not_mem_nil, false_imp_iff, implies_true,
      true_and]
    constructor
    · intro h
      exact ⟨h, h ▸ hn⟩
    · intro h
      exact h.1
  | cons c cs ih =>
    by_cases hc : IsDigit c
    · have hcons : readOn n (c :: cs) = readOn (10 * n + (c.toNat - 48)) cs := rfl
      simp only [parseUint, digit?_eq hc, hcons, List.mem_cons, forall_eq_or_imp, hc, true_and]
      by_cases hlarge : 2 ^ 64 ≤ 10 * n + (c.toNat - 48)
      · have hle := le_readOn (10 * n + (c.toNat - 48)) cs
        rw [if_pos hlarge]
        constructor
        · intro h
          simp at h
        · intro h
          omega
      · rw [if_neg hlarge]
        exact ih (by omega)
    · simp only [parseUint, digit?_eq_none hc, reduceCtorEq, List.mem_cons, forall_eq_or_imp, hc,
        false_and]

theorem parseUint_value {v : Nat} {text : List Char} :
    (if text.isEmpty then .error .invalidSyntax else parseUint 0 text) = .ok v ↔
      Digits text ∧ value text = v ∧ v < 2 ^ 64 := by
  cases text with
  | nil => simp [Digits]
  | cons c cs =>
    rw [List.isEmpty_cons, if_neg Bool.false_ne_true, parseUint_eq_ok_iff (by decide)]
    simp [Digits, value]

theorem signed_eq_iff {neg : Bool} {r : Except NumError Nat} {n : Int} :
    signed neg r = (n, none) ↔
      ∃ v, r = .ok v ∧ (if neg then n = -(v : Int) ∧ v ≤ 2 ^ 63 else n = v ∧ v < 2 ^ 63) := by
  constructor
  · intro h
    obtain ⟨v, rfl⟩ := signed_ok (congrArg Prod.snd h)
    refine ⟨v, rfl, ?_⟩
    cases neg with
    | false =>
      by_cases hv : 2 ^ 63 ≤ v
      · have hrange : signed false (.ok v) = (2 ^ 63 - 1, some .range) := if_pos hv
        rw [hrange] at h
        exact nomatch congrArg Prod.snd h
      · rw [signed_ofNat (by omega)] at h
        simp only [Prod.mk.injEq, and_true] at h
        simp [← h]
        omega
    | true =>
      by_cases hv : 2 ^ 63 < v
      · have hrange : signed true (.ok v) = (-2 ^ 63, some .range) := if_pos hv
        rw [hrange] at h
        exact nomatch congrArg Prod.snd h
      · rw [signed_neg (by omega)] at h
        simp only [Prod.mk.injEq, and_true] at h
        simp [← h]
        omega
  · rintro ⟨v, rfl, h⟩
    cases neg with
    | false =>
      obtain ⟨rfl, hv⟩ : n = v ∧ v < 2 ^ 63 := h
      exact signed_ofNat hv
    | true =>
      obtain ⟨rfl, hv⟩ : n = -(v : Int) ∧ v ≤ 2 ^ 63 := h
      exact signed_neg hv

/-- **`Atoi` succeeds with `n` exactly on the decimal texts of `n`**, in 64 bits. -/
theorem atoi_eq_iff {s : String} {n : Int} :
    atoi s = (n, none) ↔ IsInteger s.toList n ∧ -2 ^ 63 ≤ n ∧ n < 2 ^ 63 := by
  rw [atoi, signed_eq_iff]
  simp only [parseUint_value]
  generalize s.toList = text
  constructor
  · rintro ⟨v, ⟨hdigits, rfl, -⟩, hn⟩
    cases text with
    | nil => exact absurd rfl hdigits.1
    | cons c cs =>
      by_cases hplus : c = '+'
      · subst hplus
        obtain ⟨rfl, hv⟩ : n = value cs ∧ value cs < 2 ^ 63 := hn
        exact ⟨.plus hdigits, by omega, by omega⟩
      · by_cases hminus : c = '-'
        · subst hminus
          obtain ⟨rfl, hv⟩ : n = -(value cs : Int) ∧ value cs ≤ 2 ^ 63 := hn
          exact ⟨.minus hdigits, by omega, by omega⟩
        · have hsign : isSign c = false := by simp [isSign, hplus, hminus]
          have hunsign : unsign (c :: cs) = c :: cs := by simp [unsign, hsign]
          rw [hunsign] at hdigits hn
          obtain ⟨rfl, hv⟩ : n = value (c :: cs) ∧ value (c :: cs) < 2 ^ 63 := by
            simpa [hminus] using hn
          exact ⟨.plain hdigits, by omega, by omega⟩
  · rintro ⟨h, hlow, hhigh⟩
    cases h with
    | plain h =>
      cases text with
      | nil => exact absurd rfl h.1
      | cons c cs =>
        have hsign : isSign c = false := by
          by_contra hc
          exact not_isDigit_of_isSign (by simpa using hc) (h.2 c (by simp))
        have hunsign : unsign (c :: cs) = c :: cs := by simp [unsign, hsign]
        have hminus : c ≠ '-' := by
          rintro rfl
          simp [isSign] at hsign
        have hv : value (c :: cs) < 2 ^ 63 := by omega
        rw [hunsign]
        exact ⟨_, ⟨h, rfl, by omega⟩, by simpa [hminus] using hv⟩
    | @plus digits h =>
      have hunsign : unsign ('+' :: digits) = digits := rfl
      have hv : value digits < 2 ^ 63 := by omega
      rw [hunsign]
      exact ⟨_, ⟨h, rfl, by omega⟩, by simpa using hv⟩
    | @minus digits h =>
      have hunsign : unsign ('-' :: digits) = digits := rfl
      rw [hunsign]
      refine ⟨_, ⟨h, rfl, by omega⟩, ?_⟩
      show -(value digits : Int) = -(value digits : Int) ∧ value digits ≤ 2 ^ 63
      omega

end Decimal
