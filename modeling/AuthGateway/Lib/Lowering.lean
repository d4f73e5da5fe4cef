import AuthGateway.Lib.GoString

/-!
# Lower case

`Lowering` is `unicode.ToLower`, as far as it matters for ASCII: the ASCII letters, and
that of the other runes only İ and the Kelvin sign have an ASCII letter for their lower
case.  **A text in lower case stays as it is in its ASCII letters**, `i` and `k` apart,
so it is a given ASCII word once it is lowered only if it is that word before.
-/

namespace GoString

structure Lowering where
  rune : Char → Char
  ascii : ∀ c : Char, c.toNat < 128 → rune c = c.toLower
  beyond : ∀ c : Char, 128 ≤ c.toNat → rune c = 'i' ∨ rune c = 'k' ∨ 128 ≤ (rune c).toNat

namespace Lowering

variable (lower : Lowering)

/-- No upper case letter is in lower case. -/
theorem toLower_rune {c : Char} (h : (lower.rune c).toNat < 128) :
    (lower.rune c).toLower = lower.rune c := by
  by_cases hc : c.toNat < 128
  · have hall : ∀ n < 128, (Char.ofNat n).toLower.toLower = (Char.ofNat n).toLower := by decide
    have hn := hall c.toNat hc
    rw [Char.ofNat_toNat] at hn
    rw [lower.ascii c hc, hn]
  · rcases lower.beyond c (by omega) with hi | hk | hlarge
    · rw [hi]
      decide
    · rw [hk]
      decide
    · omega

/-- **What is lowered already is an ASCII character only if it was one**, `i` and `k`
apart. -/
theorem rune_rune {c d : Char} (hd : d.toNat < 128) (hi : d ≠ 'i') (hk : d ≠ 'k')
    (h : lower.rune (lower.rune c) = d) : lower.rune c = d := by
  by_cases hc : (lower.rune c).toNat < 128
  · rw [lower.ascii _ hc, lower.toLower_rune hc] at h
    exact h
  · rcases lower.beyond (lower.rune c) (by omega) with he | he | he
    · exact absurd (h.symm.trans he) hi
    · exact absurd (h.symm.trans he) hk
    · rw [h] at he
      omega

theorem map_rune_rune {text word : List Char}
    (hword : ∀ d ∈ word, d.toNat < 128 ∧ d ≠ 'i' ∧ d ≠ 'k')
    (h : (text.map lower.rune).map lower.rune = word) : text.map lower.rune = word := by
  rw [← h, List.map_map]
  apply List.map_congr_left
  intro c hc
  have hmem : lower.rune (lower.rune c) ∈ word := by
    rw [← h]
    exact List.mem_map_of_mem (List.mem_map_of_mem hc)
  obtain ⟨hd, hi, hk⟩ := hword _ hmem
  exact lower.rune_rune hd hi hk rfl

end Lowering

end GoString
