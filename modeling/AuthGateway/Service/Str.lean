import AuthGateway.Lib.SkipSearch
import AuthGateway.Lib.Utf8
import Mathlib.Data.Nat.Find
import Mathlib.Logic.Function.Basic

/-!
# service/str.go: `SundaySearch`

The search goes through the text byte by byte, but its table is keyed by the runes
of the pattern.  A byte of the text is looked up in it as if it were a rune.
-/

namespace AuthGateway.Service

open SkipSearch

/-- `offset[c] = len(pattern) - i`, for a pattern of length `m`. -/
def note (m : Nat) (table : Nat → Option Nat) (ic : Nat × Nat) : Nat → Option Nat :=
  Function.update table ic.2 (some (m - ic.1))

/-- `offset`, after the loop over the runes of the pattern. -/
def offset (pattern : List UInt8) : Nat → Option Nat :=
  (Utf8.runes pattern).foldl (note pattern.length) fun _ => none

/-- How far the window moves, given the byte behind it. -/
def jump (pattern : List UInt8) (next : UInt8) : Nat :=
  match offset pattern next.toNat with
  | some val => val
  | none => pattern.length + 1

/-- `none` is an access out of range, or a loop that does not end. -/
def sundaySearch (text pattern : List UInt8) : Option Bool := search (jump pattern) text pattern

/-! ### The table -/

/-- The table holds the last place of a rune. -/
theorem foldl_offset {m : Nat} {l : List (Nat × Nat)} {c : Nat}
    (hsorted : l.Pairwise fun a b => a.1 < b.1) :
    (∀ v, l.foldl (note m) (fun _ => none) c = some v → ∃ p, (p, c) ∈ l ∧ v = m - p) ∧
      ∀ p, (p, c) ∈ l → ∃ q, p ≤ q ∧ l.foldl (note m) (fun _ => none) c = some (m - q) := by
  induction l using List.reverseRecOn with
  | nil => simp
  | append_singleton l ic ih =>
    obtain ⟨q, d⟩ := ic
    obtain ⟨hl, -, hlast⟩ := List.pairwise_append.mp hsorted
    obtain ⟨hvalue, hfound⟩ := ih hl
    rw [List.foldl_append, List.foldl_cons, List.foldl_nil, note]
    by_cases hcd : c = d
    · subst hcd
      dsimp only
      rw [Function.update_self]
      constructor
      · intro v hv
        exact ⟨q, by simp, (Option.some.inj hv).symm⟩
      · intro p hp
        refine ⟨q, ?_, rfl⟩
        rcases List.mem_append.mp hp with hp | hp
        · have hlt := hlast (p, c) hp (q, c) (by simp)
          exact Nat.le_of_lt hlt
        · obtain rfl : p = q := by simpa using hp
          exact Nat.le_refl p
    · dsimp only
      rw [Function.update_of_ne hcd]
      constructor
      · intro v hv
        obtain ⟨p, hp, hvp⟩ := hvalue v hv
        exact ⟨p, by simp [hp], hvp⟩
      · intro p hp
        rcases List.mem_append.mp hp with hp | hp
        · exact hfound p hp
        · exact absurd (by simpa using hp : p = q ∧ c = d).2 hcd

theorem offset_some {pattern : List UInt8} {c v : Nat} (h : offset pattern c = some v) :
    ∃ p, (p, c) ∈ Utf8.runes pattern ∧ v = pattern.length - p :=
  (foldl_offset (Utf8.runesFrom_sorted 0 0 pattern)).1 v h

theorem offset_of_mem {pattern : List UInt8} {c p : Nat} (h : (p, c) ∈ Utf8.runes pattern) :
    ∃ q, p ≤ q ∧ offset pattern c = some (pattern.length - q) :=
  (foldl_offset (Utf8.runesFrom_sorted 0 0 pattern)).2 p h

/-- A rune begins within the pattern. -/
theorem lt_of_mem_runes {pattern : List UInt8} {c p : Nat} (h : (p, c) ∈ Utf8.runes pattern) :
    p < pattern.length := by
  obtain ⟨b, rest, hdrop, -⟩ := Utf8.mem_runes h
  by_contra hge
  rw [List.drop_eq_nil_of_le (not_lt.mp hge)] at hdrop
  cases hdrop

/-! ### The jumps -/

theorem jump_moving (pattern : List UInt8) : Moving (jump pattern) := by
  intro next
  unfold jump
  split
  · rename_i v hv
    obtain ⟨p, hp, rfl⟩ := offset_some hv
    have hlt := lt_of_mem_runes hp
    omega
  · omega

theorem jump_le (pattern : List UInt8) (next : UInt8) : jump pattern next ≤ pattern.length + 1 := by
  unfold jump
  split
  · rename_i v hv
    obtain ⟨p, -, rfl⟩ := offset_some hv
    omega
  · exact Nat.le_refl _

/-- A byte below 0x80 is looked up at its last place. -/
theorem jump_ascii {pattern : List UInt8} (h : ∀ b ∈ pattern, b.toNat < 0x80) {k : Nat} {b : UInt8}
    (hk : pattern[k]? = some b) : k + jump pattern b ≤ pattern.length := by
  obtain ⟨q, hkq, hq⟩ := offset_of_mem (Utf8.mem_runes_ascii h hk)
  have hlt : k < pattern.length := by
    by_contra hge
    rw [List.getElem?_eq_none (not_lt.mp hge)] at hk
    cases hk
  unfold jump
  rw [hq]
  dsimp only
  omega

/-- **A byte from 0x80 on is looked up in the wrong place**, for some byte of the pattern. -/
theorem exists_jump_past {pattern : List UInt8} {b : UInt8} (hmem : b ∈ pattern)
    (hb : 0x80 ≤ b.toNat) :
    ∃ k c, pattern[k]? = some c ∧ pattern.length < k + jump pattern c := by
  -- what the table holds for a byte from 0x80 on is the place before a continuation byte
  have hlatin : ∀ {c : UInt8} {p : Nat}, 0x80 ≤ c.toNat → (p, c.toNat) ∈ Utf8.runes pattern →
      ∃ t, pattern[p + 1]? = some t ∧ 0x80 ≤ t.toNat ∧ t.toNat ≤ 0xBF ∧
        (c.toNat < 0xC0 → t = c) := by
    intro c p hc hp
    obtain ⟨b, rest, hdrop, hdecode⟩ := Utf8.mem_runes hp
    have hhigh : c.toNat ≤ 0xFF := Nat.le_of_lt_succ c.toNat_lt
    rw [← hdecode] at hc hhigh
    obtain ⟨t, tail, rfl, ht, ht', hsame⟩ := Utf8.decodeRune_latin hc hhigh
    refine ⟨t, ?_, ht, ht', ?_⟩
    · have hget : (pattern.drop p)[1]? = some t := by simp [hdrop]
      rw [← hget, List.getElem?_drop]
    · intro hlt
      rw [← hdecode] at hlt
      exact UInt8.toNat_inj.mp ((hsame hlt).trans hdecode)
  -- a byte that is not in the table, or whose rune stands before it
  have hpast : ∀ {c : UInt8} {k : Nat}, pattern[k]? = some c →
      (∀ p, (p, c.toNat) ∈ Utf8.runes pattern → p < k) →
      pattern.length < k + jump pattern c := by
    intro c k hk hbefore
    unfold jump
    split
    · rename_i v hv
      obtain ⟨p, hp, rfl⟩ := offset_some hv
      have hlt := hbefore p hp
      omega
    · omega
  by_cases htail : ∃ t ∈ pattern, 0x80 ≤ t.toNat ∧ t.toNat ≤ 0xBF
  · -- the last place of a continuation byte
    obtain ⟨t, ht, hlow, hhigh⟩ := htail
    obtain ⟨k, hk⟩ := List.mem_iff_getElem?.mp ht
    have hle : ∀ {k}, pattern[k]? = some t → k ≤ pattern.length := by
      intro k hk
      by_contra hge
      rw [List.getElem?_eq_none (by omega)] at hk
      cases hk
    have hlast : pattern[Nat.findGreatest (fun k => pattern[k]? = some t) pattern.length]? = some t :=
      Nat.findGreatest_spec (P := fun k => pattern[k]? = some t) (hle hk) hk
    refine ⟨_, t, hlast, hpast hlast fun p hp => ?_⟩
    obtain ⟨t', ht', -, -, hsame⟩ := hlatin hlow hp
    rw [hsame (by omega)] at ht'
    exact Nat.le_findGreatest (P := fun k => pattern[k]? = some t) (hle ht') ht'
  · obtain ⟨k, hk⟩ := List.mem_iff_getElem?.mp hmem
    refine ⟨k, b, hk, hpast hk fun p hp => ?_⟩
    obtain ⟨t, ht, hlow, hhigh, -⟩ := hlatin hb hp
    exact absurd ⟨t, List.mem_of_getElem? ht, hlow, hhigh⟩ htail

end AuthGateway.Service
