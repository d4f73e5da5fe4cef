import AuthGateway.Service.Str

/-!
# `SundaySearch` and substrings

A pattern of ASCII characters is found in every text that has it.  **A pattern with
any other byte is missed in some text**: the byte behind the window is looked up as
a rune, so the window jumps past the pattern.
-/

namespace AuthGateway.TextSearch

open Service SkipSearch

/-- The search ends without an access out of range, and says whether the pattern
is a part of the text. -/
def Finds (text pattern : List UInt8) : Prop :=
  ∃ found, sundaySearch text pattern = some found ∧ (found = true ↔ pattern <:+: text)

/-- **The search is right on every text exactly for ASCII patterns.**  For the
others it still ends, and finds nothing that is not there. -/
theorem finds_iff_ascii (pattern : List UInt8) :
    ((∀ text, Finds text pattern) ↔ ∀ b ∈ pattern, b.toNat < 0x80) ∧
      ∀ text, ∃ found, sundaySearch text pattern = some found ∧
        (found = true → pattern <:+: text) := by
  have : Nontrivial UInt8 := ⟨⟨0, 1, by decide⟩⟩
  have hsound := fun text => search_sound (jump_moving pattern) text pattern
  have hcomplete := search_complete_iff (jump_moving pattern) (jump_le pattern)
  refine ⟨?_, hsound⟩
  constructor
  · intro h b hmem
    by_contra hb
    obtain ⟨k, c, hk, hpast⟩ := exists_jump_past hmem (not_lt.mp hb)
    have hle : k + jump pattern c ≤ pattern.length := by
      apply hcomplete.mp
      · intro text hpart
        obtain ⟨found, hsearch, hfound⟩ := h text
        rw [← hfound.mpr hpart]
        exact hsearch
      · exact hk
    omega
  · intro h text
    obtain ⟨found, hsearch, hfound⟩ := hsound text
    refine ⟨found, hsearch, hfound, fun hpart => ?_⟩
    have htrue := hcomplete.mpr (fun k c hk => jump_ascii h hk) text hpart
    exact Option.some.inj (hsearch.symm.trans htrue)

/-- The bytes of 中 in those of a中. -/
theorem chinese_word_missed : ¬ ∀ text pattern, Finds text pattern := by
  intro h
  obtain ⟨found, hsearch, hfound⟩ := h [0x61, 0xE4, 0xB8, 0xAD] [0xE4, 0xB8, 0xAD]
  have hmissed : sundaySearch [0x61, 0xE4, 0xB8, 0xAD] [0xE4, 0xB8, 0xAD] = some false := by
    decide +kernel
  rw [hmissed] at hsearch
  rw [← Option.some.inj hsearch] at hfound
  exact absurd (hfound.mpr ⟨[0x61], [], rfl⟩) Bool.false_ne_true

end AuthGateway.TextSearch
