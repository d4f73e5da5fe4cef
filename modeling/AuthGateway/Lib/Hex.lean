import Mathlib.Data.Nat.Notation
import Mathlib.Tactic.Cases

/-!
# Numbers in base 16

`hex n` is `n` in lower-case hexadecimal, without leading zeros, as `%x` prints it.
-/

/-- `n` in base 16. -/
def hex (n : ℕ) : List Char := Nat.toDigits 16 n

theorem hex_of_lt {n : ℕ} (h : n < 16) : hex n = [n.digitChar] := Nat.toDigits_of_lt_base h

theorem hex_of_le {n : ℕ} (h : 16 ≤ n) : hex n = hex (n / 16) ++ [(n % 16).digitChar] :=
  Nat.toDigits_of_base_le (by decide) h

theorem hex_ne_nil (n : ℕ) : hex n ≠ [] := Nat.toDigits_ne_nil

theorem digitChar_injective : ∀ m < 16, ∀ n < 16, Nat.digitChar m = Nat.digitChar n → m = n := by
  decide

theorem hex_injective {m n : ℕ} (h : hex m = hex n) : m = n := by
  induction m using Nat.strongRecOn generalizing n with
  | ind m ih =>
    have hlength : ∀ k, (hex k).length ≠ 0 := fun k => by simp [hex_ne_nil]
    by_cases hm : m < 16 <;> by_cases hn : n < 16
    · rw [hex_of_lt hm, hex_of_lt hn] at h
      exact digitChar_injective m hm n hn (by simpa using h)
    · rw [hex_of_lt hm, hex_of_le (Nat.le_of_not_lt hn)] at h
      have hlen := congrArg List.length h
      have := hlength (n / 16)
      simp at hlen
      simp_all
    · rw [hex_of_lt hn, hex_of_le (Nat.le_of_not_lt hm)] at h
      have hlen := congrArg List.length h
      have := hlength (m / 16)
      simp at hlen
      simp_all
    · rw [hex_of_le (Nat.le_of_not_lt hm), hex_of_le (Nat.le_of_not_lt hn)] at h
      obtain ⟨hhigh, hlow⟩ := List.append_inj' h rfl
      have hdiv := ih (m / 16) (by omega) hhigh
      have hmod := digitChar_injective (m % 16) (by omega) (n % 16) (by omega) (by simpa using hlow)
      omega

/-! ### Numbers of 16 bits -/

theorem hex_two {n : ℕ} (hlow : 16 ≤ n) (hhigh : n < 256) :
    hex n = [(n / 16).digitChar, (n % 16).digitChar] := by
  rw [hex_of_le hlow, hex_of_lt (by omega)]
  rfl

theorem hex_three {n : ℕ} (hlow : 256 ≤ n) (hhigh : n < 4096) :
    hex n = [(n / 256).digitChar, (n / 16 % 16).digitChar, (n % 16).digitChar] := by
  rw [hex_of_le (by omega), hex_two (by omega) (by omega), Nat.div_div_eq_div_mul]
  rfl

theorem hex_four {n : ℕ} (hlow : 4096 ≤ n) (hhigh : n < 65536) :
    hex n = [(n / 4096).digitChar, (n / 256 % 16).digitChar, (n / 16 % 16).digitChar,
      (n % 16).digitChar] := by
  rw [hex_of_le (by omega), hex_three (by omega) (by omega), Nat.div_div_eq_div_mul,
    Nat.div_div_eq_div_mul]
  rfl

theorem digitChar_eq_iff {m n : ℕ} (hm : m < 16) (hn : n < 16) :
    m.digitChar = n.digitChar ↔ m = n := by
  constructor
  · exact digitChar_injective m hm n hn
  · intro h
    rw [h]

theorem digitChar_ne_colon : ∀ n < 16, n.digitChar ≠ ':' := by decide

/-- **Two digits in front of a colon-terminated number of 16 bits** say what its highest
digits are, but not where they stand. -/
theorem prefix_hex_iff {n d e : ℕ} (hn : n < 65536) (hd : 0 < d) (hd' : d < 16) (he : e < 16)
    (rest : List Char) :
    [d.digitChar, e.digitChar] <+: hex n ++ ':' :: rest ↔
      n = 16 * d + e ∨ n / 16 = 16 * d + e ∨ n / 256 = 16 * d + e := by
  have hsecond := digitChar_ne_colon e he
  by_cases h16 : n < 16
  · rw [hex_of_lt h16]
    simp only [List.cons_append, List.nil_append, List.cons_prefix_cons, hsecond, false_and,
      and_false, false_iff]
    omega
  · by_cases h256 : n < 256
    · rw [hex_two (by omega) h256]
      simp only [List.cons_append, List.cons_prefix_cons, List.nil_prefix, and_true]
      rw [digitChar_eq_iff hd' (by omega), digitChar_eq_iff he (by omega)]
      omega
    · by_cases h4096 : n < 4096
      · rw [hex_three (by omega) h4096]
        simp only [List.cons_append, List.cons_prefix_cons, List.nil_prefix, and_true]
        rw [digitChar_eq_iff hd' (by omega), digitChar_eq_iff he (by omega)]
        omega
      · rw [hex_four (by omega) hn]
        simp only [List.cons_append, List.cons_prefix_cons, List.nil_prefix, and_true]
        rw [digitChar_eq_iff hd' (by omega), digitChar_eq_iff he (by omega)]
        omega

/-! ### Numbers that end at a colon -/

theorem colon_not_mem_hex (n : ℕ) : ':' ∉ hex n := by
  induction n using Nat.strongRecOn with
  | ind n ih =>
    by_cases hn : n < 16
    · rw [hex_of_lt hn, List.mem_singleton]
      exact (digitChar_ne_colon n hn).symm
    · rw [hex_of_le (Nat.le_of_not_lt hn), List.mem_append, List.mem_singleton, not_or]
      exact ⟨ih (n / 16) (by omega), (digitChar_ne_colon (n % 16) (by omega)).symm⟩

theorem takeWhile_hex (n : ℕ) (rest : List Char) :
    (hex n ++ ':' :: rest).takeWhile (fun c => c ≠ ':') = hex n := by
  rw [List.takeWhile_append_of_pos]
  · simp
  · intro c hc
    have hne : c ≠ ':' := fun he => colon_not_mem_hex n (he ▸ hc)
    simp [hne]

theorem hex_colon_prefix_iff {m n : ℕ} {rest : List Char} :
    hex m ++ [':'] <+: hex n ++ ':' :: rest ↔ m = n := by
  constructor
  · rintro ⟨tail, h⟩
    have htake := congrArg (fun l => l.takeWhile fun c => c ≠ ':') h
    simp only [List.append_assoc, List.singleton_append, takeWhile_hex] at htake
    exact hex_injective htake
  · rintro rfl
    exact ⟨rest, by simp⟩
