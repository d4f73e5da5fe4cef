import AuthGateway.Common.Totp
import AuthGateway.Lib.Decimal
import AuthGateway.Web.TwoFAVerification

/-!
# The formats of codes in the form and on the server

The server takes a backup code with dashes and without, the form counts eight
characters: of the codes that the server would take **the form keeps back those
with a dash** (`dashed_kept_back`), which is how a code is displayed.  A numeric
code goes through `Atoi`, to which a sign and five digits are a number as well
(`validateNumericCode_iff`).
-/

namespace AuthGateway.CodeFormats

open Common GoString Decimal Web

/-! ### Backup codes -/

/-- What upper case takes to `A`–`Z` or `0`–`9`: the ASCII letters and digits, and
the dotless i and the long s. -/
def IsCodeLetter (c : Char) : Prop :=
  (97 ≤ c.toNat ∧ c.toNat ≤ 122) ∨ (65 ≤ c.toNat ∧ c.toNat ≤ 90) ∨
    (48 ≤ c.toNat ∧ c.toNat ≤ 57) ∨ c.toNat = 0x131 ∨ c.toNat = 0x17F

/-- Without its dashes, eight letters and digits. -/
def EightLetters (s : String) : Prop :=
  (removeAll '-' s).toList.length = 8 ∧ ∀ c ∈ (removeAll '-' s).toList, IsCodeLetter c

theorem isBackupCodeChar_upperRune {c : Char} :
    isBackupCodeChar (upperRune c) = true ↔ IsCodeLetter c := by
  have hlower : ∀ n : Nat, n < 123 → 97 ≤ n → isBackupCodeChar (Char.ofNat (n - 32)) = true := by
    decide
  unfold upperRune IsCodeLetter
  by_cases h : 97 ≤ c.toNat ∧ c.toNat ≤ 122
  · have hchar := hlower c.toNat (by omega) h.1
    simp [h, hchar]
  · rw [if_neg (by simpa using h)]
    by_cases hi : c.toNat = 0x131
    · simp [hi, isBackupCodeChar]
    · rw [if_neg (by simpa using hi)]
      by_cases hs : c.toNat = 0x17F
      · simp [hs, isBackupCodeChar]
      · rw [if_neg (by simpa using hs)]
        simp only [isBackupCodeChar, Bool.or_eq_true, Bool.and_eq_true, decide_eq_true_eq]
        omega

/-- **What the server takes for a backup code.** -/
theorem validateBackupCode_iff_letters {s : String} :
    validateBackupCode s = true ↔ EightLetters s := by
  have hlist : (cleanBackupCode s).toList = (removeAll '-' s).toList.map upperRune := by
    rw [cleanBackupCode, toUpper, String.toList_ofList]
  rw [validateBackupCode_iff]
  constructor
  · rintro ⟨hlength, hchars⟩
    rw [hlist] at hlength hchars
    rw [List.length_map] at hlength
    refine ⟨hlength, ?_⟩
    intro c hc
    exact isBackupCodeChar_upperRune.mp (hchars _ (List.mem_map_of_mem hc))
  · rintro ⟨hlength, hchars⟩
    refine ⟨by rw [hlist, List.length_map, hlength]; rfl, ?_⟩
    intro c hc
    rw [hlist] at hc
    obtain ⟨d, hd, rfl⟩ := List.mem_map.mp hc
    exact isBackupCodeChar_upperRune.mpr (hchars d hd)

theorem utf16Size_of_isCodeLetter {c : Char} (h : IsCodeLetter c) : utf16Size c = 1 := by
  unfold IsCodeLetter at h
  exact if_pos (by omega)

theorem length_le_jsLength (s : String) : s.toList.length ≤ jsLength s := by
  unfold jsLength
  induction s.toList with
  | nil => exact Nat.le_refl 0
  | cons c cs ih =>
    have hone : 1 ≤ utf16Size c := by
      unfold utf16Size
      split <;> omega
    rw [List.map_cons, List.sum_cons, List.length_cons]
    omega

theorem jsLength_of_letters {s : String} (h : ∀ c ∈ s.toList, IsCodeLetter c) :
    jsLength s = s.toList.length := by
  have hone : s.toList.map utf16Size = s.toList.map fun _ => 1 :=
    List.map_congr_left fun c hc => utf16Size_of_isCodeLetter (h c hc)
  rw [jsLength, hone]
  simp

/-- **The form keeps back what has a dash.** -/
theorem dashed_kept_back {s : String} (h : EightLetters s) :
    handleSubmit true s = .post s ↔ '-' ∉ s.toList := by
  rw [handleSubmit_backup]
  constructor
  · intro hlength hdash
    have hfewer : (removeAll '-' s).toList.length < s.toList.length := by
      rw [removeAll, String.toList_ofList, List.length_filter_lt_length_iff_exists]
      exact ⟨'-', hdash, by decide⟩
    have hall := length_le_jsLength s
    have height := h.1
    omega
  · intro hdash
    have hsame : removeAll '-' s = s := removeAll_of_not_mem hdash
    obtain ⟨hlength, hchars⟩ := h
    rw [hsame] at hlength hchars
    rw [jsLength_of_letters hchars, hlength]

/-! ### Numeric codes -/

def SixDigits (text : List Char) : Prop := text.length = 6 ∧ ∀ c ∈ text, IsDigit c

/-- A sign and five digits. -/
def SignedFive (text : List Char) : Prop :=
  ∃ sign digits, text = sign :: digits ∧ isSign sign = true ∧ digits.length = 5 ∧
    ∀ c ∈ digits, IsDigit c

theorem testSixDigits_iff {s : String} : testSixDigits s = true ↔ SixDigits s.toList := by
  simp [testSixDigits, SixDigits, IsDigit]

/-- **Of six characters, `Atoi` takes six digits and a sign with five.** -/
theorem atoi_six_iff {s : String} (hlength : s.toList.length = 6) :
    (atoi s).2 = none ↔ SixDigits s.toList ∨ SignedFive s.toList := by
  have hpair : (atoi s).2 = none ↔ ∃ n, atoi s = (n, none) := by
    constructor
    · intro h
      exact ⟨(atoi s).1, Prod.ext rfl h⟩
    · rintro ⟨n, h⟩
      rw [h]
  rw [hpair]
  constructor
  · rintro ⟨n, h⟩
    obtain ⟨hinteger, -, -⟩ := atoi_eq_iff.mp h
    generalize s.toList = text at hinteger hlength
    cases hinteger with
    | plain hdigits => exact Or.inl ⟨hlength, hdigits.2⟩
    | @plus digits hdigits =>
      exact Or.inr ⟨'+', digits, rfl, rfl, by simpa using hlength, hdigits.2⟩
    | @minus digits hdigits =>
      exact Or.inr ⟨'-', digits, rfl, rfl, by simpa using hlength, hdigits.2⟩
  · rintro (⟨-, hdigits⟩ | ⟨sign, digits, htext, hsign, hfive, hdigits⟩)
    · have hne : s.toList ≠ [] := by
        intro hnil
        rw [hnil] at hlength
        exact absurd hlength (by decide)
      have hlt := value_lt_of_length hdigits (by omega)
      exact ⟨value s.toList, atoi_eq_iff.mpr ⟨.plain ⟨hne, hdigits⟩, by omega, by omega⟩⟩
    · have hne : digits ≠ [] := by
        rintro rfl
        exact absurd hfive (by decide)
      have hlt := value_lt_of_length hdigits (by omega)
      have hcases : sign = '+' ∨ sign = '-' := by simpa [isSign] using hsign
      obtain rfl | rfl := hcases
      · refine ⟨value digits, atoi_eq_iff.mpr ⟨?_, by omega, by omega⟩⟩
        rw [htext]
        exact .plus ⟨hne, hdigits⟩
      · refine ⟨-(value digits : Int), atoi_eq_iff.mpr ⟨?_, by omega, by omega⟩⟩
        rw [htext]
        exact .minus ⟨hne, hdigits⟩

/-- A text of as many bytes as digits and signs. -/
theorem len_of_numeric {s : String} (h : ∀ c ∈ s.toList, Numeric c) : len s = s.toList.length := by
  have hone : s.toList.map Char.utf8Size = s.toList.map fun _ => 1 := by
    apply List.map_congr_left
    intro c hc
    have hlt := (h c hc).toNat_lt
    rw [Char.utf8Size, if_pos]
    rw [UInt32.le_iff_toNat_le]
    exact le_trans hlt.le (by decide)
  rw [len, hone]
  simp

theorem numeric_of_sixDigits {text : List Char} (h : SixDigits text ∨ SignedFive text) :
    text.length = 6 ∧ ∀ c ∈ text, Numeric c := by
  obtain ⟨hlength, hdigits⟩ | ⟨sign, digits, rfl, hsign, hfive, hdigits⟩ := h
  · exact ⟨hlength, fun c hc => Or.inl (hdigits c hc)⟩
  · refine ⟨by simp [hfive], ?_⟩
    intro c hc
    obtain rfl | hc := List.mem_cons.mp hc
    · exact Or.inr (by simpa [isSign] using hsign)
    · exact Or.inl (hdigits c hc)

/-- **What the server takes for a numeric code.** -/
theorem validateNumericCode_iff {s : String} :
    (∃ clean, validateNumericCode s = .ok clean) ↔
      SixDigits (removeAll ' ' s).toList ∨ SignedFive (removeAll ' ' s).toList := by
  constructor
  · rintro ⟨clean, h⟩
    obtain ⟨rfl, hlen, hatoi⟩ := validateNumericCode_ok h
    have hlength : (removeAll ' ' s).toList.length = 6 := by
      rw [← len_of_numeric (atoi_sound hatoi), hlen]
    exact (atoi_six_iff hlength).mp hatoi
  · intro h
    obtain ⟨hlength, hnumeric⟩ := numeric_of_sixDigits h
    have hatoi := (atoi_six_iff hlength).mpr h
    have hlen : len (removeAll ' ' s) = 6 := by rw [len_of_numeric hnumeric, hlength]
    refine ⟨removeAll ' ' s, ?_⟩
    unfold validateNumericCode
    simp only [hlen, hatoi, ne_eq, not_true_eq_false, if_false, Option.isSome_none,
      Bool.false_eq_true]

theorem not_sixDigits_of_signedFive {text : List Char} (h : SignedFive text) : ¬ SixDigits text := by
  obtain ⟨sign, digits, rfl, hsign, -, -⟩ := h
  intro hsix
  exact not_isDigit_of_isSign hsign (hsix.2 sign (by simp))

/-! ### Agreement -/

/-- **The form and the server agree on `s`.** -/
structure Agree (s : String) : Prop where
  /-- What the server takes for a backup code is submitted. -/
  backup : validateBackupCode s = true → handleSubmit true s = .post s
  /-- The server takes six digits, with spaces anywhere. -/
  numeric : (∃ clean, validateNumericCode s = .ok clean) ↔ SixDigits (removeAll ' ' s).toList
  /-- The form requires the same. -/
  totp : handleSubmit false s = .post s ↔ SixDigits s.toList

/-- **The form and the server agree but on a backup code with a dash and on a sign before five
digits.** -/
theorem agree_iff (s : String) : Agree s ↔
    ¬ (EightLetters s ∧ '-' ∈ s.toList) ∧ ¬ SignedFive (removeAll ' ' s).toList := by
  constructor
  · rintro ⟨hbackup, hnumeric, -⟩
    constructor
    · rintro ⟨hletters, hdash⟩
      have hpost := hbackup (validateBackupCode_iff_letters.mpr hletters)
      exact (dashed_kept_back hletters).mp hpost hdash
    · intro hsigned
      have hsix := hnumeric.mp (validateNumericCode_iff.mpr (Or.inr hsigned))
      exact not_sixDigits_of_signedFive hsigned hsix
  · rintro ⟨hdash, hsigned⟩
    refine ⟨?_, ?_, ?_⟩
    · intro hvalid
      have hletters := validateBackupCode_iff_letters.mp hvalid
      exact (dashed_kept_back hletters).mpr fun hmem => hdash ⟨hletters, hmem⟩
    · rw [validateNumericCode_iff]
      exact or_iff_left hsigned
    · rw [handleSubmit_totp, testSixDigits_iff]

/-- **A code as it is displayed is kept back, and `+12345` is taken.** -/
theorem formats_disagree : ¬ Agree "AB12-CD34" ∧ ¬ Agree "+12345" := by
  constructor
  · intro h
    exact absurd (h.backup (by decide)) (by decide)
  · intro h
    have hsix := h.numeric.mp ⟨"+12345", by rfl⟩
    have hplus : IsDigit '+' := hsix.2 '+' (by decide)
    exact absurd hplus.1 (by decide)

end AuthGateway.CodeFormats
