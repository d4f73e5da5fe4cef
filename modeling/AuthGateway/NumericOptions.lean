import AuthGateway.Controller.Option

/-!
# Options that are numbers

`Interface2String` prints a number with six decimals, and `Atoi` reads no point:
**a JSON number sets the option to zero** (`number_sets_zero`), where a string of
its digits sets it to the number.
-/

namespace AuthGateway.NumericOptions

open Common Model Controller GoString Float64

theorem atoi_point {s : String} {n : Nat} (hn : n < 2 ^ 64) {negative : Bool} {rest : List Char}
    (h : s.toList = (if negative then ['-'] else []) ++ (Nat.toDigits 10 n ++ '.' :: rest)) :
    (atoi s).1 = 0 := by
  obtain ⟨c, cs, hdigits, hsign⟩ := toDigits_head n
  have hparse : parseUint 0 (Nat.toDigits 10 n ++ '.' :: rest) = .error .invalidSyntax := by
    rw [parseUint_append (parseUint_toDigits hn)]
    rfl
  have hunsign : unsign s.toList = Nat.toDigits 10 n ++ '.' :: rest := by
    rw [h]
    cases negative with
    | true => rfl
    | false =>
      show unsign (Nat.toDigits 10 n ++ '.' :: rest) = _
      rw [hdigits]
      simp [unsign, hsign]
  have hne : (Nat.toDigits 10 n ++ '.' :: rest).isEmpty = false := by
    rw [hdigits]
    rfl
  unfold atoi
  rw [hunsign, hne, hparse]
  rfl

/-- The request to set an option to a JSON number. -/
def numberRequest (key : String) (l : Literal) : Option OptionUpdateRequest :=
  (OptionValue.ofNumber l).map fun value => { key := key, value := value }

/-- The request to set it to a string. -/
def stringRequest (key value : String) : Option OptionUpdateRequest :=
  some { key := key, value := .string value }

/-- The value of the number after a request. -/
def valueAfter (k : Number) (req : Option OptionUpdateRequest) (p : Process) : Int :=
  (Controller.updateOption req p).2.settings.numbers k

theorem checkOption_number (k : Number) (s : Settings) (value : String) :
    checkOption s k.key value = none := by
  cases k <;> rfl

theorem valueAfter_eq (k : Number) (value : OptionValue) (p : Process) :
    valueAfter k (some { key := k.key, value := value }) p = (atoi value.print).1 := by
  have hsaved : Controller.updateOption (some { key := k.key, value := value }) p
      = (.done "", Model.updateOption k.key value.print p) := by
    unfold Controller.updateOption
    dsimp only
    rw [checkOption_number]
  unfold valueAfter
  rw [hsaved]
  exact updateOptionMap_number value.print p.settings k

theorem string_sets {n : Int} (hn : |n| < 2 ^ 53) (k : Number) (p : Process) :
    valueAfter k (stringRequest k.key (itoa n)) p = n := by
  obtain ⟨hlow, hhigh⟩ := abs_lt.mp hn
  unfold stringRequest
  rw [valueAfter_eq]
  show (atoi (itoa n)).1 = n
  rw [atoi_itoa (by omega) (by omega)]

/-- **A JSON number sets the option to zero.** -/
theorem number_sets_zero {l : Literal} {n : Int} (hvalue : l.value = n) (hn : |n| < 2 ^ 53)
    (k : Number) (p : Process) : valueAfter k (numberRequest k.key l) p = 0 := by
  have hrequest : numberRequest k.key l = some { key := k.key, value := .float64 (String.ofList
      (format l.negative n.natAbs)) } := by
    unfold numberRequest OptionValue.ofNumber
    rw [parse_of_value hvalue hn]
    rfl
  have hsmall : n.natAbs < 2 ^ 64 := by
    rw [Int.abs_eq_natAbs] at hn
    omega
  rw [hrequest, valueAfter_eq]
  apply atoi_point hsmall
  show (String.ofList _).toList = _
  rw [String.toList_ofList, format_natCast]
  rfl

/-- **A JSON number sets the option to its value, as the string of its digits does.** -/
def KeepsValue (k : Number) (l : Literal) (n : Int) (p : Process) : Prop :=
  valueAfter k (numberRequest k.key l) p = n ∧ valueAfter k (stringRequest k.key (itoa n)) p = n

/-- **Only zero is kept.** -/
theorem keepsValue_iff {l : Literal} {n : Int} (hvalue : l.value = n) (hn : |n| < 2 ^ 53)
    (k : Number) (p : Process) : KeepsValue k l n p ↔ n = 0 := by
  unfold KeepsValue
  rw [number_sets_zero hvalue hn k p, string_sets hn k p]
  constructor
  · exact fun h => h.1.symm
  · exact fun h => ⟨h.symm, rfl⟩

/-- A process that has just started on an empty table. -/
def freshProcess : Process := ⟨Settings.default, ⟨∅, fun _ => none⟩⟩

theorem zero_kept : KeepsValue .quotaForNewUser ⟨true, 0, 0⟩ 0 freshProcess :=
  (keepsValue_iff (by norm_num [Literal.value, Literal.magnitude]) (by norm_num) _ _).mpr rfl

/-- **`{"key": "SMTPPort", "value": 465}` sets the port to 0.** -/
theorem port_lost : ¬ KeepsValue .smtpPort ⟨false, 465, 0⟩ 465 freshProcess := by
  intro h
  exact absurd h.1 (by decide +kernel)

end AuthGateway.NumericOptions
