import Mathlib.Data.List.Basic

/-!
# Runes of a byte string

How Go reads a byte string as UTF-8: `decodeRune` is `utf8.DecodeRune`, and
`runes` is what `for i, c := range s` goes through.  A byte that begins no valid
encoding is the rune U+FFFD, one byte wide.

A rune below 0x80 is its byte.  **A rune from 0x80 to 0xFF takes two bytes, the
second of which is a continuation byte**, the rune itself when it is below 0xC0
(`decodeRune_latin`).
-/

namespace Utf8

/-! ### Encoding -/

theorem flatMap_utf8EncodeChar_injective {l l' : List Char}
    (h : l.flatMap String.utf8EncodeChar = l'.flatMap String.utf8EncodeChar) : l = l' := by
  have hencode : l.utf8Encode = l'.utf8Encode := by rw [List.utf8Encode, h, List.utf8Encode]
  rw [← String.toByteArray_ofList, ← String.toByteArray_ofList] at hencode
  simpa using congrArg String.toList (String.toByteArray_inj.mp hencode)

/-- **Only the rune NUL is written with a zero.** -/
theorem zero_mem_utf8EncodeChar {c : Char} : 0 ∈ String.utf8EncodeChar c ↔ c = '\x00' := by
  constructor
  · intro h
    have hzero : c.val.toNat = 0 := by
      unfold String.utf8EncodeChar at h
      dsimp only at h
      split_ifs at h <;>
        simp only [List.mem_cons, List.not_mem_nil, or_false, ← UInt8.toNat_inj,
          UInt8.toNat_ofNat', UInt8.toNat_zero] at h <;> omega
    exact Char.toNat_inj.mp hzero
  · rintro rfl
    decide

/-! ### Decoding -/

/-- `utf8.RuneError`. -/
def runeError : Nat := 0xFFFD

/-- A continuation byte. -/
def isTail (b : UInt8) : Bool := 0x80 ≤ b.toNat && b.toNat ≤ 0xBF

/-- `utf8.DecodeRune` at a first byte: the rune, and how many bytes it takes. -/
def decodeRune (b : UInt8) (rest : List UInt8) : Nat × Nat :=
  let n := b.toNat
  if n < 0x80 then (n, 1)
  else if 0xC2 ≤ n && n ≤ 0xDF then
    match rest with
    | b₁ :: _ =>
      if isTail b₁ then ((n - 0xC0) * 0x40 + (b₁.toNat - 0x80), 2) else (runeError, 1)
    | _ => (runeError, 1)
  else if 0xE0 ≤ n && n ≤ 0xEF then
    match rest with
    | b₁ :: b₂ :: _ =>
      if isTail b₁ && isTail b₂ && (n != 0xE0 || 0xA0 ≤ b₁.toNat) && (n != 0xED || b₁.toNat ≤ 0x9F)
      then ((n - 0xE0) * 0x1000 + (b₁.toNat - 0x80) * 0x40 + (b₂.toNat - 0x80), 3)
      else (runeError, 1)
    | _ => (runeError, 1)
  else if 0xF0 ≤ n && n ≤ 0xF4 then
    match rest with
    | b₁ :: b₂ :: b₃ :: _ =>
      if isTail b₁ && isTail b₂ && isTail b₃ && (n != 0xF0 || 0x90 ≤ b₁.toNat)
        && (n != 0xF4 || b₁.toNat ≤ 0x8F)
      then ((n - 0xF0) * 0x40000 + (b₁.toNat - 0x80) * 0x1000 + (b₂.toNat - 0x80) * 0x40
        + (b₃.toNat - 0x80), 4)
      else (runeError, 1)
    | _ => (runeError, 1)
  else (runeError, 1)

/-- The runes of the bytes from position `i` on, past `skip` bytes that belong to
the rune before, with their positions. -/
def runesFrom : (skip i : Nat) → List UInt8 → List (Nat × Nat)
  | _, _, [] => []
  | skip + 1, i, _ :: bs => runesFrom skip (i + 1) bs
  | 0, i, b :: bs => (i, (decodeRune b bs).1) :: runesFrom ((decodeRune b bs).2 - 1) (i + 1) bs

/-- `for i, c := range s`. -/
def runes (s : List UInt8) : List (Nat × Nat) := runesFrom 0 0 s

theorem decodeRune_ascii {b : UInt8} (h : b.toNat < 0x80) (rest : List UInt8) :
    decodeRune b rest = (b.toNat, 1) := if_pos h

/-- **A rune from 0x80 to 0xFF has a continuation byte behind its first byte.** -/
theorem decodeRune_latin {b : UInt8} {rest : List UInt8} (hlow : 0x80 ≤ (decodeRune b rest).1)
    (hhigh : (decodeRune b rest).1 ≤ 0xFF) :
    ∃ b₁ tail, rest = b₁ :: tail ∧ 0x80 ≤ b₁.toNat ∧ b₁.toNat ≤ 0xBF ∧
      ((decodeRune b rest).1 < 0xC0 → b₁.toNat = (decodeRune b rest).1) := by
  have htail : ∀ {x : UInt8}, isTail x = true → 0x80 ≤ x.toNat ∧ x.toNat ≤ 0xBF := by
    intro x hx
    simpa [isTail] using hx
  unfold decodeRune at hlow hhigh ⊢
  dsimp only at hlow hhigh ⊢
  split at hlow
  · omega
  rename_i hn
  rw [if_neg hn] at hhigh ⊢
  split at hlow
  · -- two bytes
    rename_i htwo
    rw [if_pos htwo] at hhigh ⊢
    simp only [Bool.and_eq_true, decide_eq_true_eq] at htwo
    cases rest with
    | nil => simp [runeError] at hhigh
    | cons b₁ tail =>
      dsimp only at hlow hhigh ⊢
      split at hhigh
      · rename_i hb
        rw [if_pos hb]
        obtain ⟨hb₁, hb₂⟩ := htail hb
        refine ⟨b₁, tail, rfl, hb₁, hb₂, fun hlt => ?_⟩
        dsimp only at hhigh hlt ⊢
        omega
      · simp [runeError] at hhigh
  rename_i htwo
  rw [if_neg htwo] at hhigh ⊢
  exfalso
  split at hhigh
  · -- three bytes
    rename_i hthree
    simp only [Bool.and_eq_true, decide_eq_true_eq] at hthree
    split at hhigh
    · split at hhigh
      · rename_i b₁ b₂ _ hvalid
        simp only [Bool.and_eq_true, Bool.or_eq_true, bne_iff_ne, decide_eq_true_eq] at hvalid
        obtain ⟨⟨⟨hb₁, hb₂⟩, hlong⟩, -⟩ := hvalid
        have := htail hb₁
        dsimp only at hhigh
        omega
      · simp [runeError] at hhigh
    · simp [runeError] at hhigh
  · split at hhigh
    · -- four bytes
      rename_i hfour
      simp only [Bool.and_eq_true, decide_eq_true_eq] at hfour
      split at hhigh
      · split at hhigh
        · rename_i b₁ b₂ b₃ _ hvalid
          simp only [Bool.and_eq_true, Bool.or_eq_true, bne_iff_ne, decide_eq_true_eq] at hvalid
          obtain ⟨⟨⟨⟨hb₁, hb₂⟩, hb₃⟩, hlong⟩, -⟩ := hvalid
          have := htail hb₁
          dsimp only at hhigh
          omega
        · simp [runeError] at hhigh
      · simp [runeError] at hhigh
    · simp [runeError] at hhigh

/-- What is found at a position is decoded there. -/
theorem mem_runesFrom {skip i p c : Nat} {s : List UInt8} (h : (p, c) ∈ runesFrom skip i s) :
    i ≤ p ∧ ∃ b rest, s.drop (p - i) = b :: rest ∧ (decodeRune b rest).1 = c := by
  induction s generalizing skip i with
  | nil =>
    cases skip <;> simp [runesFrom] at h
  | cons b bs ih =>
    have hnext : ∀ {skip}, (p, c) ∈ runesFrom skip (i + 1) bs →
        i ≤ p ∧ ∃ b' rest, (b :: bs).drop (p - i) = b' :: rest ∧ (decodeRune b' rest).1 = c := by
      intro skip hmem
      obtain ⟨hip, b', rest, hdrop, hc⟩ := ih hmem
      refine ⟨by omega, b', rest, ?_, hc⟩
      rw [show p - i = p - (i + 1) + 1 by omega, List.drop_succ_cons]
      exact hdrop
    cases skip with
    | succ skip => exact hnext h
    | zero =>
      rw [runesFrom] at h
      rcases List.mem_cons.mp h with he | hmem
      · obtain ⟨rfl, rfl⟩ := Prod.mk.inj he
        exact ⟨Nat.le_refl p, b, bs, by simp, rfl⟩
      · exact hnext hmem

theorem mem_runes {p c : Nat} {s : List UInt8} (h : (p, c) ∈ runes s) :
    ∃ b rest, s.drop p = b :: rest ∧ (decodeRune b rest).1 = c := by
  obtain ⟨-, hdecode⟩ := mem_runesFrom h
  exact hdecode

/-- The positions go up. -/
theorem runesFrom_sorted (skip i : Nat) (s : List UInt8) :
    (runesFrom skip i s).Pairwise fun a b => a.1 < b.1 := by
  induction s generalizing skip i with
  | nil => cases skip <;> exact List.Pairwise.nil
  | cons b bs ih =>
    cases skip with
    | succ skip => exact ih skip (i + 1)
    | zero =>
      apply List.pairwise_cons.mpr
      refine ⟨?_, ih _ _⟩
      rintro ⟨p, c⟩ hmem
      have hp := (mem_runesFrom hmem).1
      dsimp only
      omega

/-- Bytes below 0x80 are their own runes. -/
theorem mem_runesFrom_ascii {s : List UInt8} (h : ∀ b ∈ s, b.toNat < 0x80) {k : Nat} {b : UInt8}
    (hk : s[k]? = some b) (i : Nat) : (i + k, b.toNat) ∈ runesFrom 0 i s := by
  induction s generalizing i k with
  | nil => simp at hk
  | cons b' bs ih =>
    have hb' := decodeRune_ascii (h b' (by simp)) bs
    rw [runesFrom, hb']
    cases k with
    | zero =>
      obtain rfl : b' = b := by simpa using hk
      simp
    | succ k =>
      have hrest := ih (fun b hb => h b (by simp [hb])) (by simpa using hk) (i + 1)
      rw [show i + (k + 1) = i + 1 + k by omega]
      exact List.mem_cons_of_mem _ hrest

theorem mem_runes_ascii {s : List UInt8} (h : ∀ b ∈ s, b.toNat < 0x80) {k : Nat} {b : UInt8}
    (hk : s[k]? = some b) : (k, b.toNat) ∈ runes s := by
  have hmem := mem_runesFrom_ascii h hk 0
  rw [Nat.zero_add] at hmem
  exact hmem

end Utf8
