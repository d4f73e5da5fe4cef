import Mathlib.Algebra.Order.Floor.Ring
import Mathlib.Data.Int.Log
import Mathlib.Data.Rat.Floor
import Mathlib.Tactic.Linarith
import Mathlib.Tactic.Positivity

/-!
# Numbers in double precision

A finite double is its value, a rational number with 53 binary digits.  An
operation gives the double **nearest** to the exact result, and of two that are
as near the one whose last digit is even.  **A whole number below `2 ^ 53` is
kept as it is** (`nearest_intCast`), and nothing from `2 ^ 53` on falls below it
(`le_nearest`).
-/

namespace Float64

/-! ### To a whole number -/

/-- The nearest whole number, the even one of two. -/
def roundEven (x : ℚ) : ℤ :=
  if x - ⌊x⌋ < 1 / 2 then ⌊x⌋
  else if 1 / 2 < x - ⌊x⌋ then ⌊x⌋ + 1
  else if ⌊x⌋ % 2 = 0 then ⌊x⌋
  else ⌊x⌋ + 1

@[simp]
theorem roundEven_intCast (n : ℤ) : roundEven n = n := by
  unfold roundEven
  rw [Int.floor_intCast, sub_self, if_pos (by norm_num)]

theorem floor_le_roundEven (x : ℚ) : ⌊x⌋ ≤ roundEven x := by
  unfold roundEven
  split_ifs <;> omega

theorem roundEven_le_floor (x : ℚ) : roundEven x ≤ ⌊x⌋ + 1 := by
  unfold roundEven
  split_ifs <;> omega

theorem le_roundEven {n : ℤ} {x : ℚ} (h : (n : ℚ) ≤ x) : n ≤ roundEven x :=
  le_trans (Int.le_floor.mpr h) (floor_le_roundEven x)

theorem roundEven_le {n : ℤ} {x : ℚ} (h : x ≤ n) : roundEven x ≤ n := by
  by_cases heq : x = n
  · rw [heq, roundEven_intCast]
  · have hlt : x < n := lt_of_le_of_ne h heq
    have hfloor : ⌊x⌋ < n := Int.floor_lt.mpr hlt
    have hnext := roundEven_le_floor x
    omega

theorem roundEven_mono {x y : ℚ} (h : x ≤ y) : roundEven x ≤ roundEven y := by
  by_cases hfloor : ⌊x⌋ = ⌊y⌋
  · unfold roundEven
    rw [hfloor]
    have hfrac : x - ⌊y⌋ ≤ y - ⌊y⌋ := by linarith
    split_ifs <;> first | omega | (exfalso; linarith)
  · have hlt : ⌊x⌋ < ⌊y⌋ := lt_of_le_of_ne (Int.floor_mono h) hfloor
    calc roundEven x ≤ ⌊x⌋ + 1 := roundEven_le_floor x
      _ ≤ ⌊y⌋ := hlt
      _ ≤ roundEven y := floor_le_roundEven y

/-! ### To 53 digits -/

/-- The weight of the last of the 53 digits, and no less than that of the least
double. -/
def exponent (x : ℚ) : ℤ := max (Int.log 2 |x| - 52) (-1074)

/-- The double nearest to `x`, if there is no largest one. -/
def nearest (x : ℚ) : ℚ := roundEven (x / 2 ^ exponent x) * 2 ^ exponent x

/-- **The double nearest to `x`**, if `x` is not too large. -/
def ofRat (x : ℚ) : Option ℚ := if |nearest x| < 2 ^ 1024 then some (nearest x) else none

theorem two_zpow_pos (e : ℤ) : (0 : ℚ) < 2 ^ e := zpow_pos (by norm_num) e

theorem lt_two_zpow {x : ℚ} (h : 0 < x) : x < 2 ^ (exponent x + 53) := by
  have hlog : x < 2 ^ (Int.log 2 x + 1) := by
    exact_mod_cast Int.lt_zpow_succ_log_self (b := 2) (by norm_num) x
  have hexp : Int.log 2 x + 1 ≤ exponent x + 53 := by
    have hmax := le_max_left (Int.log 2 |x| - 52) (-1074)
    rw [abs_of_pos h] at hmax
    unfold exponent
    rw [abs_of_pos h]
    omega
  exact lt_of_lt_of_le hlog (zpow_le_zpow_right₀ (by norm_num) hexp)

theorem two_zpow_le {x : ℚ} (h : 0 < x) (hexp : -1074 < exponent x) :
    2 ^ (exponent x + 52) ≤ x := by
  have heq : exponent x + 52 = Int.log 2 x := by
    unfold exponent at hexp ⊢
    rw [abs_of_pos h] at hexp ⊢
    omega
  rw [heq]
  exact_mod_cast Int.zpow_log_le_self (b := 2) (by norm_num) h

/-- A whole number of few digits has its last one at the unit or below. -/
theorem exponent_intCast {n : ℤ} (h : |n| < 2 ^ 53) : exponent n ≤ 0 := by
  unfold exponent
  have hlog : Int.log 2 |(n : ℚ)| ≤ 52 := by
    by_cases hzero : n = 0
    · simp [hzero]
    · have hpos : (0 : ℚ) < |(n : ℚ)| := abs_pos.mpr (by exact_mod_cast hzero)
      have hle : ((2 : ℕ) : ℚ) ^ Int.log 2 |(n : ℚ)| ≤ |(n : ℚ)| :=
        Int.zpow_log_le_self (by norm_num) hpos
      have hlt : |(n : ℚ)| < 2 ^ (53 : ℤ) := by exact_mod_cast h
      have hpow : (2 : ℚ) ^ Int.log 2 |(n : ℚ)| < 2 ^ (53 : ℤ) := by
        exact lt_of_le_of_lt (by exact_mod_cast hle) hlt
      have := (zpow_lt_zpow_iff_right₀ (by norm_num : (1 : ℚ) < 2)).mp hpow
      omega
  omega

/-- **A whole number below `2 ^ 53` is a double.** -/
theorem nearest_intCast {n : ℤ} (h : |n| < 2 ^ 53) : nearest n = n := by
  unfold nearest
  obtain ⟨k, hk⟩ := Int.eq_ofNat_of_zero_le (neg_nonneg.mpr (exponent_intCast h))
  have hexp : exponent (n : ℚ) = -(k : ℤ) := by omega
  have hscaled : (n : ℚ) / 2 ^ exponent (n : ℚ) = ((n * 2 ^ k : ℤ) : ℚ) := by
    rw [hexp, zpow_neg, zpow_natCast, div_inv_eq_mul]
    push_cast
    rfl
  rw [show roundEven ((n : ℚ) / 2 ^ exponent (n : ℚ)) = n * 2 ^ k from
    (congrArg roundEven hscaled).trans (roundEven_intCast _), ← hscaled]
  exact div_mul_cancel₀ _ (two_zpow_pos _).ne'

@[simp]
theorem nearest_zero : nearest 0 = 0 := by
  have h : nearest ((0 : ℤ) : ℚ) = ((0 : ℤ) : ℚ) := nearest_intCast (by norm_num)
  exact_mod_cast h

theorem two_zpow_shift (e : ℤ) (k : ℕ) : ((2 ^ k : ℤ) : ℚ) * 2 ^ e = 2 ^ (e + k) := by
  rw [add_comm, zpow_add₀ (by norm_num), zpow_natCast]
  push_cast
  rfl

/-- The digits of a number that is not too small start with a one. -/
theorem two_zpow_le_nearest {x : ℚ} (h : 0 < x) (hexp : -1074 < exponent x) :
    2 ^ (exponent x + 52) ≤ nearest x := by
  have hscaled : ((2 ^ 52 : ℤ) : ℚ) ≤ x / 2 ^ exponent x := by
    rw [le_div_iff₀ (two_zpow_pos _), two_zpow_shift]
    exact two_zpow_le h hexp
  calc (2 : ℚ) ^ (exponent x + 52) = ((2 ^ 52 : ℤ) : ℚ) * 2 ^ exponent x :=
        (two_zpow_shift _ _).symm
    _ ≤ nearest x :=
        mul_le_mul_of_nonneg_right (by exact_mod_cast le_roundEven hscaled) (two_zpow_pos _).le

theorem nearest_le_two_zpow {x : ℚ} (h : 0 < x) : nearest x ≤ 2 ^ (exponent x + 53) := by
  have hscaled : x / 2 ^ exponent x ≤ ((2 ^ 53 : ℤ) : ℚ) := by
    rw [div_le_iff₀ (two_zpow_pos _), two_zpow_shift]
    exact (lt_two_zpow h).le
  calc nearest x ≤ ((2 ^ 53 : ℤ) : ℚ) * 2 ^ exponent x :=
        mul_le_mul_of_nonneg_right (by exact_mod_cast roundEven_le hscaled) (two_zpow_pos _).le
    _ = 2 ^ (exponent x + 53) := two_zpow_shift _ _

/-- Nothing falls below `2 ^ 53`. -/
theorem le_nearest {x : ℚ} (h : 2 ^ 53 ≤ x) : 2 ^ 53 ≤ nearest x := by
  have hpos : 0 < x := lt_of_lt_of_le (by norm_num) h
  have hexp : 1 ≤ exponent x := by
    have hlt : (2 : ℚ) ^ (53 : ℤ) < 2 ^ (exponent x + 53) :=
      lt_of_le_of_lt (by exact_mod_cast h) (lt_two_zpow hpos)
    have := (zpow_lt_zpow_iff_right₀ (by norm_num : (1 : ℚ) < 2)).mp hlt
    omega
  calc (2 : ℚ) ^ 53 = 2 ^ (53 : ℤ) := by norm_num
    _ ≤ 2 ^ (exponent x + 52) := zpow_le_zpow_right₀ (by norm_num) (by omega)
    _ ≤ nearest x := two_zpow_le_nearest hpos (by omega)

/-- A whole number stays one. -/
theorem exists_nearest_intCast (n : ℤ) : ∃ m : ℤ, nearest n = m := by
  by_cases h : |n| < 2 ^ 53
  · exact ⟨n, nearest_intCast h⟩
  · have hpos : (0 : ℚ) < |(n : ℚ)| := by
      have hint : (0 : ℤ) < |n| := by omega
      exact_mod_cast hint
    have hexp : 0 ≤ exponent (n : ℚ) := by
      have hle : ((2 : ℚ) ^ (53 : ℤ)) ≤ |(n : ℚ)| := by
        have hint : (2 : ℤ) ^ 53 ≤ |n| := by omega
        exact_mod_cast hint
      have hlt := lt_of_le_of_lt hle (lt_two_zpow hpos)
      have := (zpow_lt_zpow_iff_right₀ (by norm_num : (1 : ℚ) < 2)).mp hlt
      unfold exponent at this ⊢
      rw [abs_abs] at this
      omega
    obtain ⟨k, hk⟩ := Int.eq_ofNat_of_zero_le hexp
    refine ⟨roundEven ((n : ℚ) / 2 ^ exponent (n : ℚ)) * 2 ^ k, ?_⟩
    unfold nearest
    rw [hk]
    push_cast
    rfl

/-! ### In order -/

theorem nearest_nonneg {x : ℚ} (h : 0 ≤ x) : 0 ≤ nearest x := by
  have hscaled : ((0 : ℤ) : ℚ) ≤ x / 2 ^ exponent x := by
    exact_mod_cast div_nonneg h (two_zpow_pos _).le
  have hround : (0 : ℚ) ≤ roundEven (x / 2 ^ exponent x) := by exact_mod_cast le_roundEven hscaled
  exact mul_nonneg hround (two_zpow_pos _).le

/-- **Rounding keeps the order.** -/
theorem nearest_mono {x y : ℚ} (hx : 0 ≤ x) (h : x ≤ y) : nearest x ≤ nearest y := by
  obtain hzero | hpos := hx.eq_or_lt
  · rw [← hzero, nearest_zero]
    exact nearest_nonneg (hx.trans h)
  · have hexp : exponent x ≤ exponent y := by
      unfold exponent
      rw [abs_of_pos hpos, abs_of_pos (hpos.trans_le h)]
      have := Int.log_mono_right (b := 2) hpos h
      omega
    obtain heq | hlt := hexp.eq_or_lt
    · unfold nearest
      rw [heq]
      have hscaled : x / 2 ^ exponent y ≤ y / 2 ^ exponent y :=
        div_le_div_of_nonneg_right h (two_zpow_pos _).le
      exact mul_le_mul_of_nonneg_right (by exact_mod_cast roundEven_mono hscaled)
        (two_zpow_pos _).le
    · have hleast : -1074 ≤ exponent x := le_max_right _ _
      calc nearest x ≤ 2 ^ (exponent x + 53) := nearest_le_two_zpow hpos
        _ ≤ 2 ^ (exponent y + 52) := zpow_le_zpow_right₀ (by norm_num) (by omega)
        _ ≤ nearest y := two_zpow_le_nearest (hpos.trans_le h) (by omega)

/-! ### Exact below `2 ^ 53` -/

/-- **The number tells the whole number `n`** when `n` is below `2 ^ 53`, and
otherwise that it is not. -/
def Tells (x : ℚ) (n : ℤ) : Prop := (x = n ∧ n < 2 ^ 53) ∨ (2 ^ 53 ≤ x ∧ 2 ^ 53 ≤ n)

theorem tells_intCast (n : ℤ) : Tells n n := by
  obtain hsmall | hlarge := lt_or_ge n (2 ^ 53)
  · exact Or.inl ⟨rfl, hsmall⟩
  · exact Or.inr ⟨by exact_mod_cast hlarge, hlarge⟩

theorem Tells.nearest {x : ℚ} {n : ℤ} (h : Tells x n) (hn : 0 ≤ n) : Tells (nearest x) n := by
  obtain ⟨rfl, hsmall⟩ | ⟨hx, hlarge⟩ := h
  · exact Or.inl ⟨nearest_intCast (by rwa [abs_of_nonneg hn]), hsmall⟩
  · exact Or.inr ⟨le_nearest hx, hlarge⟩

theorem Tells.nonneg {x : ℚ} {n : ℤ} (h : Tells x n) (hn : 0 ≤ n) : 0 ≤ x := by
  obtain ⟨rfl, -⟩ | ⟨hx, -⟩ := h
  · exact_mod_cast hn
  · exact le_trans (by norm_num) hx

theorem Tells.one_le {x : ℚ} {n : ℤ} (h : Tells x n) (hn : 1 ≤ n) : 1 ≤ x := by
  obtain ⟨rfl, -⟩ | ⟨hx, -⟩ := h
  · exact_mod_cast hn
  · exact le_trans (by norm_num) hx

theorem Tells.add {x y : ℚ} {m n : ℤ} (hx : Tells x m) (hy : Tells y n) (hm : 0 ≤ m)
    (hn : 0 ≤ n) : Tells (x + y) (m + n) := by
  have hx0 := hx.nonneg hm
  have hy0 := hy.nonneg hn
  obtain ⟨rfl, hmsmall⟩ | ⟨hxl, hml⟩ := hx
  · obtain ⟨rfl, hnsmall⟩ | ⟨hyl, hnl⟩ := hy
    · rw [← Int.cast_add]
      exact tells_intCast (m + n)
    · exact Or.inr ⟨by linarith, by omega⟩
  · exact Or.inr ⟨by linarith, by omega⟩

theorem Tells.mul {x y : ℚ} {m n : ℤ} (hx : Tells x m) (hy : Tells y n) (hm : 0 ≤ m)
    (hn : 0 ≤ n) : Tells (x * y) (m * n) := by
  obtain rfl | hmpos := hm.eq_or_lt
  · obtain ⟨rfl, -⟩ | ⟨-, hlarge⟩ := hx
    · simpa using tells_intCast 0
    · exact absurd hlarge (by norm_num)
  · obtain rfl | hnpos := hn.eq_or_lt
    · obtain ⟨rfl, -⟩ | ⟨-, hlarge⟩ := hy
      · simpa using tells_intCast 0
      · exact absurd hlarge (by norm_num)
    · have hx1 := hx.one_le hmpos
      have hy1 := hy.one_le hnpos
      obtain ⟨rfl, hmsmall⟩ | ⟨hxl, hml⟩ := hx
      · obtain ⟨rfl, hnsmall⟩ | ⟨hyl, hnl⟩ := hy
        · rw [← Int.cast_mul]
          exact tells_intCast (m * n)
        · exact Or.inr ⟨by nlinarith, by nlinarith⟩
      · exact Or.inr ⟨by nlinarith, by nlinarith⟩

/-- **A bound below `2 ^ 53` is all that shows.** -/
theorem Tells.min_eq {x : ℚ} {c n : ℤ} (h : Tells x n) (hc : c < 2 ^ 53) :
    min (c : ℚ) x = ((min c n : ℤ) : ℚ) := by
  obtain ⟨rfl, -⟩ | ⟨hx, hlarge⟩ := h
  · rw [Int.cast_min]
  · have hcx : (c : ℚ) ≤ x := le_trans (by exact_mod_cast hc.le) hx
    rw [min_eq_left hcx, min_eq_left (by omega)]

theorem Tells.le_iff {x : ℚ} {c n : ℤ} (h : Tells x n) (hc : c < 2 ^ 53) :
    x ≤ c ↔ n ≤ c := by
  obtain ⟨rfl, -⟩ | ⟨hx, hlarge⟩ := h
  · exact Int.cast_le
  · have hcx : (c : ℚ) < x := lt_of_lt_of_le (by exact_mod_cast hc) hx
    exact ⟨fun hle => absurd hle (not_le.mpr hcx), fun hle => absurd hle (by omega)⟩

/-! ### Text -/

/-- A number in decimal: its sign, its digits without the point, and the power of
ten that they count. -/
structure Literal where
  negative : Bool
  digits : Nat
  exponent : Int

def Literal.magnitude (l : Literal) : ℚ := l.digits * 10 ^ l.exponent

def Literal.value (l : Literal) : ℚ := if l.negative then -l.magnitude else l.magnitude

/-- `strconv.ParseFloat`, the sign and the magnitude; nothing of a number out of
range. -/
def parse (l : Literal) : Option (Bool × ℚ) := (ofRat l.magnitude).map fun x => (l.negative, x)

/-- Six digits. -/
def sixDigits (k : Nat) : List Char :=
  List.replicate (6 - (Nat.toDigits 10 k).length) '0' ++ Nat.toDigits 10 k

/-- `%f`: the exact value in six decimals, the last one even between two. -/
def format (negative : Bool) (x : ℚ) : List Char :=
  (if negative then ['-'] else []) ++
    (Nat.toDigits 10 ((roundEven (x * 10 ^ 6)).toNat / 10 ^ 6) ++
      '.' :: sixDigits ((roundEven (x * 10 ^ 6)).toNat % 10 ^ 6))

/-- **A whole number is printed with a point and six zeros.** -/
theorem format_natCast (negative : Bool) (n : Nat) : format negative n
    = (if negative then ['-'] else []) ++ (Nat.toDigits 10 n ++ ".000000".toList) := by
  have hround : (roundEven ((n : ℚ) * 10 ^ 6)).toNat = n * 10 ^ 6 := by
    have hint : roundEven ((n : ℚ) * 10 ^ 6) = ((n * 10 ^ 6 : ℕ) : ℤ) := by
      rw [← roundEven_intCast ((n * 10 ^ 6 : ℕ) : ℤ)]
      push_cast
      rfl
    rw [hint, Int.toNat_natCast]
  unfold format
  rw [hround, Nat.mul_div_cancel _ (by decide), Nat.mul_mod_left]
  rfl

/-- **A whole number below `2 ^ 53` is parsed as it is**, however it is written. -/
theorem parse_of_value {l : Literal} {n : ℤ} (hvalue : l.value = n) (hn : |n| < 2 ^ 53) :
    parse l = some (l.negative, (n.natAbs : ℚ)) := by
  have hnonneg : 0 ≤ l.magnitude :=
    mul_nonneg (Nat.cast_nonneg _) (zpow_nonneg (by norm_num) _)
  have hmagnitude : l.magnitude = ((n.natAbs : ℤ) : ℚ) := by
    have habs : |l.value| = l.magnitude := by
      unfold Literal.value
      split
      · rw [abs_neg, abs_of_nonneg hnonneg]
      · exact abs_of_nonneg hnonneg
    rw [← habs, hvalue, Int.natCast_natAbs, Int.cast_abs]
  have hsmall : |((n.natAbs : ℕ) : ℤ)| < 2 ^ 53 := by
    rw [Int.natCast_natAbs, abs_abs]
    exact hn
  have hnearest : nearest l.magnitude = ((n.natAbs : ℤ) : ℚ) := by
    rw [hmagnitude]
    exact nearest_intCast hsmall
  have hlt : |(((n.natAbs : ℕ) : ℤ) : ℚ)| < 2 ^ 1024 := by
    have hcast : |(((n.natAbs : ℕ) : ℤ) : ℚ)| < 2 ^ 53 := by exact_mod_cast hsmall
    exact hcast.trans (pow_lt_pow_right₀ (by norm_num) (by norm_num))
  unfold parse ofRat
  rw [hnearest, if_pos hlt]
  rfl

end Float64
