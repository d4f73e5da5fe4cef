import AuthGateway.Lib.GoString
import AuthGateway.Common.Constants
import Mathlib.Data.List.Forall2

/-!
# The formats of one-time codes

`common/totp.go`: which strings are TOTP codes and which are backup codes.  The
two formats are read off the same request field one after the other, and
**no string has both** (`not_both_formats`): a numeric code has six bytes once
its spaces are gone and a backup code eight once its dashes are, and a string
without spaces that `Atoi` accepts keeps its bytes under `ToUpper`.

A backup code is generated as eight random characters with a dash in the middle.
`BackupBody` are the eight characters: the validator accepts just what comes down
to them without dashes and in upper case (`validateBackupCode_iff`), and **a code
comes down to its own, however it is spelled** (`Spells.clean`).
-/

namespace AuthGateway.Common

open GoString

/-- The error is the message of the reply. -/
def validateNumericCode (code : String) : Except String String :=
  let code := removeAll ' ' code
  if len code ≠ 6 then .error "验证码必须是6位数字"
  else if (atoi code).2.isSome then .error "验证码只能包含数字"
  else .ok code

/-- The code without dashes, in upper case. -/
def cleanBackupCode (code : String) : String := toUpper (removeAll '-' code)

def validateBackupCode (code : String) : Bool :=
  len (cleanBackupCode code) == backupCodeLength &&
    (cleanBackupCode code).toList.all fun c =>
      (65 ≤ c.toNat && c.toNat ≤ 90) || (48 ≤ c.toNat && c.toNat ≤ 57)

def normalizeBackupCode (code : String) : String :=
  if len (cleanBackupCode code) = backupCodeLength then
    String.ofList ((cleanBackupCode code).toList.take 4) ++ "-"
      ++ String.ofList ((cleanBackupCode code).toList.drop 4)
  else code

/-- `common.ValidateTOTPCode`, over the validator of the TOTP library. -/
def validateTOTPCode (validate : String → String → Bool) (secret code : String) : Bool :=
  if len (removeAll ' ' code) ≠ 6 then false else validate (removeAll ' ' code) secret

/-! ### The formats are disjoint -/

theorem validateNumericCode_ok {code clean : String} (h : validateNumericCode code = .ok clean) :
    clean = removeAll ' ' code ∧ len clean = 6 ∧ (atoi clean).2 = none := by
  unfold validateNumericCode at h
  simp only at h
  split at h
  · cases h
  · rename_i hlen
    split at h
    · cases h
    · rename_i hatoi
      obtain rfl : removeAll ' ' code = clean := Except.ok.inj h
      exact ⟨rfl, by simpa using hlen, by simpa using hatoi⟩

/-- A well-formed backup code has no space in it. -/
theorem space_not_mem_of_validateBackupCode {code : String} (h : validateBackupCode code = true) :
    ' ' ∉ code.toList := by
  intro hmem
  have hclean : ' ' ∈ (cleanBackupCode code).toList := by
    rw [cleanBackupCode, toUpper, String.toList_ofList, List.mem_map]
    exact ⟨' ', mem_removeAll.mpr ⟨hmem, by decide⟩, by decide⟩
  rw [validateBackupCode, Bool.and_eq_true, List.all_eq_true] at h
  exact absurd (h.2 ' ' hclean) (by decide)

/-- **No string is well formed for both validators.** -/
theorem not_both_formats {code clean : String} (h : validateNumericCode code = .ok clean) :
    validateBackupCode code = false := by
  obtain ⟨rfl, hlen, hatoi⟩ := validateNumericCode_ok h
  by_contra hb
  rw [Bool.not_eq_false] at hb
  have hclean : removeAll ' ' code = code :=
    removeAll_of_not_mem (space_not_mem_of_validateBackupCode hb)
  rw [hclean] at hlen hatoi
  have hnum := atoi_sound hatoi
  -- upper case changes nothing, so the backup code has at most six bytes
  have hup : cleanBackupCode code = removeAll '-' code :=
    toUpper_of_numeric fun c hc => hnum c (mem_removeAll.mp hc).1
  have hle := len_removeAll_le '-' code
  rw [validateBackupCode, Bool.and_eq_true, beq_iff_eq, hup, backupCodeLength] at hb
  omega

/-- The numeric code handed to the TOTP library is compared there as it is. -/
theorem validateTOTPCode_numeric {validate : String → String → Bool} {secret code clean : String}
    (h : validateNumericCode code = .ok clean) :
    validateTOTPCode validate secret clean = validate clean secret := by
  obtain ⟨rfl, hlen, -⟩ := validateNumericCode_ok h
  have hid : removeAll ' ' (removeAll ' ' code) = removeAll ' ' code :=
    removeAll_of_not_mem fun hc => (mem_removeAll.mp hc).2 rfl
  rw [validateTOTPCode, hid, if_neg (by simpa using hlen)]

/-! ### Generating backup codes -/

def backupCodeCharset : List Char := "ABCDEFGHIJKLMNOPQRSTUVWXYZ0123456789".toList

/-- `charset[int(randomBytes[0])%len(charset)]`. -/
def backupCodeChar (b : UInt8) : Char :=
  backupCodeCharset.get ⟨b.toNat % backupCodeCharset.length, Nat.mod_lt _ (by decide)⟩

/-- `fmt.Sprintf("%s-%s", code[:4], code[4:])`. -/
def displayBackupCode (code : String) : String :=
  String.ofList (code.toList.take 4) ++ "-" ++ String.ofList (code.toList.drop 4)

variable {ε : Type}

/-- `k` bytes from `rand.Read`, one a call, from the `n`-th call on. -/
def readBytes (rand : Nat → Except ε UInt8) (n : Nat) : (k : Nat) → Except ε (List UInt8)
  | 0 => .ok []
  | k + 1 =>
    match rand n with
    | .error e => .error e
    | .ok b => (readBytes rand (n + 1) k).map (b :: ·)

def generateRandomBackupCode (rand : Nat → Except ε UInt8) (n : Nat) : Except ε String :=
  (readBytes rand n backupCodeLength).map fun bytes =>
    displayBackupCode (String.ofList (bytes.map backupCodeChar))

/-- `k` codes, from the `n`-th call of `rand.Read` on. -/
def generateFrom (rand : Nat → Except ε UInt8) (n : Nat) : (k : Nat) → Except ε (List String)
  | 0 => .ok []
  | k + 1 =>
    match generateRandomBackupCode rand n with
    | .error e => .error e
    | .ok code => (generateFrom rand (n + backupCodeLength) k).map (code :: ·)

def generateBackupCodes (rand : Nat → Except ε UInt8) : Except ε (List String) :=
  generateFrom rand 0 backupCodeCount

/-! ### The format of backup codes -/

/-- A character of a backup code: `A`–`Z` or `0`–`9`. -/
def isBackupCodeChar (c : Char) : Bool :=
  (65 ≤ c.toNat && c.toNat ≤ 90) || (48 ≤ c.toNat && c.toNat ≤ 57)

/-- What a code is without its dash. -/
structure BackupBody (body : String) : Prop where
  length : body.toList.length = backupCodeLength
  chars : ∀ c ∈ body.toList, isBackupCodeChar c = true

/-- The body of a code that is displayed. -/
def bodyOf (code : String) : String := removeAll '-' code

theorem isBackupCodeChar_backupCodeChar (b : UInt8) : isBackupCodeChar (backupCodeChar b) = true := by
  have hall : ∀ c ∈ backupCodeCharset, isBackupCodeChar c = true :=
    List.all_eq_true.mp (by decide)
  exact hall _ (List.get_mem _ _)

theorem length_readBytes {rand : Nat → Except ε UInt8} {n k : Nat} {bytes : List UInt8}
    (h : readBytes rand n k = .ok bytes) : bytes.length = k := by
  induction k generalizing n bytes with
  | zero =>
    obtain rfl := Except.ok.inj h
    rfl
  | succ k ih =>
    rw [readBytes] at h
    cases hrand : rand n with
    | error e => simp [hrand] at h
    | ok b =>
      rw [hrand] at h
      cases hrest : readBytes rand (n + 1) k with
      | error e => simp [hrest, Except.map] at h
      | ok rest =>
        simp only [hrest, Except.map, Except.ok.injEq] at h
        rw [← h, List.length_cons, ih hrest]

theorem generateRandomBackupCode_ok {rand : Nat → Except ε UInt8} {n : Nat} {code : String}
    (h : generateRandomBackupCode rand n = .ok code) :
    ∃ body, BackupBody body ∧ code = displayBackupCode body := by
  unfold generateRandomBackupCode at h
  cases hbytes : readBytes rand n backupCodeLength with
  | error e => simp [hbytes, Except.map] at h
  | ok bytes =>
    simp only [hbytes, Except.map, Except.ok.injEq] at h
    refine ⟨String.ofList (bytes.map backupCodeChar), ⟨?_, ?_⟩, h.symm⟩
    · simp [length_readBytes hbytes]
    · intro c hc
      rw [String.toList_ofList] at hc
      obtain ⟨b, -, rfl⟩ := List.mem_map.mp hc
      exact isBackupCodeChar_backupCodeChar b

/-- **Every code that is generated is a body with its dash.** -/
theorem generateFrom_ok {rand : Nat → Except ε UInt8} {n k : Nat} {codes : List String}
    (h : generateFrom rand n k = .ok codes) :
    ∀ code ∈ codes, ∃ body, BackupBody body ∧ code = displayBackupCode body := by
  induction k generalizing n codes with
  | zero =>
    obtain rfl := Except.ok.inj h
    simp
  | succ k ih =>
    rw [generateFrom] at h
    cases hcode : generateRandomBackupCode rand n with
    | error e => simp [hcode] at h
    | ok code =>
      rw [hcode] at h
      cases hrest : generateFrom rand (n + backupCodeLength) k with
      | error e => simp [hrest, Except.map] at h
      | ok rest =>
        simp only [hrest, Except.map, Except.ok.injEq] at h
        intro code' hcode'
        rw [← h] at hcode'
        rcases List.mem_cons.mp hcode' with rfl | hcode'
        · exact generateRandomBackupCode_ok hcode
        · exact ih hrest code' hcode'

theorem isBackupCodeChar_ne_dash {c : Char} (h : isBackupCodeChar c = true) : c ≠ '-' := by
  rintro rfl
  exact absurd h (by decide)

theorem utf8Size_of_isBackupCodeChar {c : Char} (h : isBackupCodeChar c = true) :
    c.utf8Size = 1 := by
  have hle : c.toNat ≤ 90 := by
    simp only [isBackupCodeChar, Bool.or_eq_true, Bool.and_eq_true, decide_eq_true_eq] at h
    omega
  rw [Char.utf8Size, if_pos]
  rw [UInt32.le_iff_toNat_le]
  exact le_trans hle (by decide)

theorem upperRune_of_isBackupCodeChar {c : Char} (h : isBackupCodeChar c = true) :
    upperRune c = c := by
  simp only [isBackupCodeChar, Bool.or_eq_true, Bool.and_eq_true, decide_eq_true_eq] at h
  have h1 : (decide (97 ≤ c.toNat)) = false := decide_eq_false (by omega)
  have h2 : (c.toNat == 0x131) = false := by rw [beq_eq_false_iff_ne]; omega
  have h3 : (c.toNat == 0x17F) = false := by rw [beq_eq_false_iff_ne]; omega
  simp [upperRune, h1, h2, h3]

/-- A body has as many bytes as characters. -/
theorem len_of_chars {body : String} (h : ∀ c ∈ body.toList, isBackupCodeChar c = true) :
    len body = body.toList.length := by
  rw [len, List.map_congr_left (g := fun _ => 1) fun c hc => utf8Size_of_isBackupCodeChar (h c hc)]
  simp

/-- **The validator accepts what becomes a body without dashes, in upper case.** -/
theorem validateBackupCode_iff {code : String} :
    validateBackupCode code = true ↔ BackupBody (cleanBackupCode code) := by
  have hchars : ((cleanBackupCode code).toList.all fun c =>
      (65 ≤ c.toNat && c.toNat ≤ 90) || (48 ≤ c.toNat && c.toNat ≤ 57)) = true
      ↔ ∀ c ∈ (cleanBackupCode code).toList, isBackupCodeChar c = true := List.all_eq_true
  rw [validateBackupCode, Bool.and_eq_true, beq_iff_eq, hchars]
  constructor
  · rintro ⟨hlen, hall⟩
    exact ⟨by rw [← len_of_chars hall, hlen], hall⟩
  · rintro ⟨hlength, hall⟩
    exact ⟨by rw [len_of_chars hall, hlength], hall⟩

/-- A code that is displayed has its body once the dash is gone. -/
theorem bodyOf_display {body : String} (h : BackupBody body) :
    bodyOf (displayBackupCode body) = body := by
  have hkeep : ∀ l : List Char, (∀ c ∈ l, c ∈ body.toList) → l.filter (fun c => c != '-') = l := by
    intro l hl
    apply List.filter_eq_self.mpr
    intro c hc
    rw [bne_iff_ne]
    exact isBackupCodeChar_ne_dash (h.chars c (hl c hc))
  have hlist : (displayBackupCode body).toList
      = body.toList.take 4 ++ '-' :: body.toList.drop 4 := by
    simp [displayBackupCode]
  have htake := hkeep (body.toList.take 4) fun c hc => List.mem_of_mem_take hc
  have hdrop := hkeep (body.toList.drop 4) fun c hc => List.mem_of_mem_drop hc
  rw [bodyOf, removeAll, hlist, List.filter_append, List.filter_cons_of_neg (by decide), htake,
    hdrop, List.take_append_drop, String.ofList_toList]

/-- The body of a displayed code is in upper case already. -/
theorem cleanBackupCode_of_body {code : String} (h : BackupBody (bodyOf code)) :
    cleanBackupCode code = bodyOf code := by
  have hupper : (bodyOf code).toList.map upperRune = (bodyOf code).toList.map id :=
    List.map_congr_left fun c hc => upperRune_of_isBackupCodeChar (h.chars c hc)
  rw [cleanBackupCode, toUpper, ← bodyOf, hupper, List.map_id, String.ofList_toList]

theorem normalizeBackupCode_of_clean {code : String} (h : BackupBody (cleanBackupCode code)) :
    normalizeBackupCode code = displayBackupCode (cleanBackupCode code) := by
  rw [normalizeBackupCode, if_pos (by rw [len_of_chars h.chars, h.length])]
  rfl

/-- A code that is displayed is normal. -/
theorem normalizeBackupCode_display {body : String} (h : BackupBody body) :
    normalizeBackupCode (displayBackupCode body) = displayBackupCode body := by
  have hbody := bodyOf_display h
  have hclean : cleanBackupCode (displayBackupCode body) = body := by
    rw [cleanBackupCode_of_body (by rw [hbody]; exact h), hbody]
  rw [normalizeBackupCode_of_clean (by rw [hclean]; exact h), hclean]

/-- **Different bodies are displayed differently.** -/
theorem displayBackupCode_inj {body body' : String} (h : BackupBody body) (h' : BackupBody body') :
    displayBackupCode body = displayBackupCode body' ↔ body = body' := by
  constructor
  · intro he
    rw [← bodyOf_display h, he, bodyOf_display h']
  · rintro rfl
    rfl

/-! ### Letter case and dashes -/

/-- The text is the code with dashes put in or left out, and any of its letters
in lower case. -/
def Spells (code text : String) : Prop :=
  List.Forall₂ (fun x c => x = c ∨ x = c.toLower) (removeAll '-' text).toList (bodyOf code).toList

theorem Spells.refl (code : String) : Spells code code :=
  List.forall₂_same.mpr fun _ _ => Or.inl rfl

/-- **However it is spelled, a code comes out as its body.** -/
theorem Spells.clean {code text : String} (h : Spells code text) (hbody : BackupBody (bodyOf code)) :
    cleanBackupCode text = bodyOf code := by
  have hlower : ∀ c, isBackupCodeChar c = true → upperRune c.toLower = c := by
    intro c hc
    have hcases : ∀ n : Nat, n < 91 → isBackupCodeChar (Char.ofNat n) = true →
        upperRune (Char.ofNat n).toLower = Char.ofNat n := by decide
    have hlt : c.toNat < 91 := by
      simp only [isBackupCodeChar, Bool.or_eq_true, Bool.and_eq_true, decide_eq_true_eq] at hc
      omega
    have hof : Char.ofNat c.toNat = c := Char.ofNat_toNat c
    have hcase := hcases c.toNat hlt
    rw [hof] at hcase
    exact hcase hc
  have hmap : ∀ l l' : List Char, List.Forall₂ (fun x c => x = c ∨ x = c.toLower) l l' →
      (∀ c ∈ l', isBackupCodeChar c = true) → l.map upperRune = l' := by
    intro l l' hspells
    induction hspells with
    | nil => simp
    | @cons x c l l' hx _ ih =>
      intro hchars
      have hc := hchars c (by simp)
      have hrest := ih fun d hd => hchars d (by simp [hd])
      have hupper : upperRune x = c := by
        rcases hx with rfl | rfl
        · exact upperRune_of_isBackupCodeChar hc
        · exact hlower c hc
      rw [List.map_cons, hupper, hrest]
  rw [cleanBackupCode, toUpper, hmap _ _ h hbody.chars, String.ofList_toList]

end AuthGateway.Common
