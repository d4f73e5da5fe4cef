import AuthGateway.Lib.Utf8
import Mathlib.Data.List.TakeWhile

/-!
# What bcrypt reads of a password

bcrypt ends the password with a zero byte, goes through it from the beginning
again and again, and reads 72 bytes: its key.  A password that is no longer than
that and has no NUL is `Plain`.

A password with a NUL may have the key of a plain one, which then is what stands
before the NUL: it `Repeats` it.  **No other plain password has the key of one that
repeats none** (`alone_iff`).
-/

namespace Bcrypt

/-- The bytes of the password. -/
def bytes (password : String) : List UInt8 := password.toList.flatMap String.utf8EncodeChar

/-- **The 72 bytes that the cipher is keyed with.** -/
def key (password : String) : List UInt8 :=
  (List.replicate 72 (bytes password ++ [0])).flatten.take 72

/-- A password that bcrypt reads to its end, and once. -/
def Plain (password : String) : Prop := (bytes password).length ≤ 72 ∧ '\x00' ∉ password.toList

/-- What stands before the first NUL. -/
def stem (password : String) : String := String.ofList (password.toList.takeWhile (· ≠ '\x00'))

/-- To bcrypt the password is another one, which it has before its first NUL. -/
def Repeats (password : String) : Prop :=
  stem password ≠ "" ∧ stem password ≠ password ∧ key (stem password) = key password

instance (password : String) : Decidable (Repeats password) :=
  inferInstanceAs (Decidable (_ ∧ _ ∧ _))

variable {password other : String}

theorem bytes_injective (h : bytes password = bytes other) : password = other :=
  String.toList_inj.mp (Utf8.flatMap_utf8EncodeChar_injective h)

theorem not_mem_toList_stem : '\x00' ∉ (stem password).toList := by
  intro h
  rw [stem, String.toList_ofList] at h
  simpa using List.mem_takeWhile_imp h

theorem stem_eq_self (h : '\x00' ∉ password.toList) : stem password = password := by
  have hall : password.toList.takeWhile (· ≠ '\x00') = password.toList := by
    refine List.takeWhile_eq_self_iff.mpr fun c hc => ?_
    exact decide_eq_true fun he => h (he ▸ hc)
  rw [stem, hall, String.ofList_toList]

theorem bytes_stem : bytes (stem password) = (bytes password).takeWhile (· ≠ 0) := by
  unfold bytes stem
  rw [String.toList_ofList]
  induction password.toList with
  | nil => rfl
  | cons c rest ih =>
    by_cases hc : c = '\x00'
    · subst hc
      rfl
    · have hbytes : ∀ b ∈ String.utf8EncodeChar c, decide (b ≠ 0) = true := by
        intro b hb
        exact decide_eq_true fun he => hc (Utf8.zero_mem_utf8EncodeChar.mp (he ▸ hb))
      have hfirst : (c :: rest).takeWhile (· ≠ '\x00') = c :: rest.takeWhile (· ≠ '\x00') :=
        List.takeWhile_cons_of_pos (decide_eq_true hc)
      rw [hfirst, List.flatMap_cons, List.flatMap_cons,
        List.takeWhile_append_of_pos hbytes, ih]

/-- **The key shows the password up to its first NUL.** -/
theorem takeWhile_key (h : (bytes password).length ≤ 72) :
    (key password).takeWhile (· ≠ 0) = bytes (stem password) := by
  have hrest : (List.replicate 72 (bytes password ++ [0])).flatten
      = bytes password ++ 0 :: (List.replicate 71 (bytes password ++ [0])).flatten := by
    rw [List.replicate_succ, List.flatten_cons, List.append_assoc]
    rfl
  have hbefore : (bytes password ++
      0 :: (List.replicate 71 (bytes password ++ [0])).flatten).takeWhile (· ≠ 0) =
        (bytes password).takeWhile (· ≠ 0) := by
    rw [List.takeWhile_append]
    split
    · rename_i hwhole
      have hprefix : (bytes password).takeWhile (· ≠ 0) = bytes password :=
        (List.takeWhile_prefix _).eq_of_length hwhole
      rw [List.takeWhile_cons_of_neg (by simp), List.append_nil, hprefix]
    · rfl
  have hlength : ((bytes password).takeWhile (· ≠ 0)).length ≤ 72 :=
    Nat.le_trans (List.takeWhile_sublist _).length_le h
  rw [key, ← List.take_takeWhile, hrest, hbefore, List.take_of_length_le hlength, bytes_stem]

theorem plain_stem (h : (bytes password).length ≤ 72) : Plain (stem password) := by
  refine ⟨?_, not_mem_toList_stem⟩
  rw [bytes_stem]
  exact Nat.le_trans (List.takeWhile_sublist _).length_le h

/-- A plain password with the key of another one is what that one begins with. -/
theorem eq_stem_of_key (hother : Plain other) (h : (bytes password).length ≤ 72)
    (hkey : key other = key password) : other = stem password := by
  rw [← stem_eq_self hother.2]
  apply bytes_injective
  rw [← takeWhile_key hother.1, ← takeWhile_key h, hkey]

/-- **No other plain password has the key of this one, unless it repeats one.** -/
theorem alone_iff (h : (bytes password).length ≤ 72) :
    (∀ other, Plain other → other ≠ "" → key other = key password → other = password) ↔
      ¬ Repeats password := by
  constructor
  · rintro halone ⟨hne, hother, hkey⟩
    exact hother (halone _ (plain_stem h) hne hkey)
  · intro hnot other hother hne hkey
    obtain rfl := eq_stem_of_key hother h hkey
    by_contra hdiffers
    exact hnot ⟨hne, hdiffers, hkey⟩

theorem not_repeats (h : '\x00' ∉ password.toList) : ¬ Repeats password :=
  fun hrepeats => hrepeats.2.1 (stem_eq_self h)

example : Repeats "a\x00a" ∧ ¬ Repeats "a\x00b" := by decide

end Bcrypt
