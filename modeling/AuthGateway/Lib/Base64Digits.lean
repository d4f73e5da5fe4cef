import AuthGateway.Lib.Base64
import Mathlib.Data.List.DropRight
import Mathlib.Tactic.IntervalCases

/-!
# Base64 without padding

Bytes and the digits for them, as numbers below 64, with `forgivingDecode`, the decoder of the
browser: it skips blanks, and a text may have its padding or not.

**The digits of some bytes are those that `Canonical` allows**: never one more than a multiple of
four, and no bit of the last digit is lost (`canonical_sextets`, `sextets_ofSextets`).
-/

namespace Base64

/-! ### Digits as numbers -/

/-- The digits of some bytes. -/
def sextets : List UInt8 → List Nat
  | [] => []
  | [a] => [a.toNat / 4, a.toNat % 4 * 16]
  | [a, b] => [a.toNat / 4, a.toNat % 4 * 16 + b.toNat / 16, b.toNat % 16 * 4]
  | a :: b :: c :: rest =>
    a.toNat / 4 :: (a.toNat % 4 * 16 + b.toNat / 16) :: (b.toNat % 16 * 4 + c.toNat / 64) ::
      c.toNat % 64 :: sextets rest

/-- The bytes of some digits; the bits that are left over are dropped. -/
def ofSextets : List Nat → List UInt8
  | w :: x :: y :: z :: rest => bytes4 w x y z ++ ofSextets rest
  | [w, x, y] => bytes3 w x y
  | [w, x] => bytes2 w x
  | _ => []

/-- The digits that some bytes have: no bit is left over. -/
def Canonical : List Nat → Prop
  | w :: x :: y :: z :: rest => w < 64 ∧ x < 64 ∧ y < 64 ∧ z < 64 ∧ Canonical rest
  | [w, x, y] => w < 64 ∧ x < 64 ∧ y < 64 ∧ y % 4 = 0
  | [w, x] => w < 64 ∧ x < 64 ∧ x % 16 = 0
  | [_] => False
  | [] => True

theorem canonical_sextets : ∀ bytes, Canonical (sextets bytes)
  | [] => trivial
  | [a] => by
    have ha := a.toNat_lt
    exact ⟨by omega, by omega, by omega⟩
  | [a, b] => by
    have ha := a.toNat_lt
    have hb := b.toNat_lt
    exact ⟨by omega, by omega, by omega, by omega⟩
  | a :: b :: c :: rest => by
    have ha := a.toNat_lt
    have hb := b.toNat_lt
    have hc := c.toNat_lt
    exact ⟨by omega, by omega, by omega, by omega, canonical_sextets rest⟩

theorem ofSextets_sextets : ∀ bytes, ofSextets (sextets bytes) = bytes
  | [] => rfl
  | [a] => by
    have ha := a.toNat_lt
    rw [sextets, ofSextets, bytes2, byte_eq (a := a) (by omega)]
  | [a, b] => by
    have ha := a.toNat_lt
    have hb := b.toNat_lt
    rw [sextets, ofSextets, bytes3, bytes2, byte_eq (a := a) (by omega),
      byte_eq (a := b) (by omega)]
    rfl
  | a :: b :: c :: rest => by
    have ha := a.toNat_lt
    have hb := b.toNat_lt
    have hc := c.toNat_lt
    rw [sextets, ofSextets, bytes4, bytes3, bytes2, byte_eq (a := a) (by omega),
      byte_eq (a := b) (by omega), byte_eq (a := c) (by omega), ofSextets_sextets rest]
    rfl

theorem toNat_ofNat {n : Nat} (h : n < 256) : (UInt8.ofNat n).toNat = n := by
  rw [UInt8.toNat_ofNat']
  exact Nat.mod_eq_of_lt h

/-- **No digit is lost.** -/
theorem sextets_ofSextets : ∀ ns, Canonical ns → sextets (ofSextets ns) = ns
  | w :: x :: y :: z :: rest, h => by
    obtain ⟨hw, hx, hy, hz, hrest⟩ := h
    show sextets (UInt8.ofNat (w * 4 + x / 16) :: UInt8.ofNat (x % 16 * 16 + y / 4) ::
      UInt8.ofNat (y % 4 * 64 + z) :: ofSextets rest) = _
    rw [sextets, toNat_ofNat (by omega), toNat_ofNat (by omega), toNat_ofNat (by omega),
      sextets_ofSextets rest hrest]
    have hfirst : (w * 4 + x / 16) / 4 = w := by omega
    have hsecond : (w * 4 + x / 16) % 4 * 16 + (x % 16 * 16 + y / 4) / 16 = x := by omega
    have hthird : (x % 16 * 16 + y / 4) % 16 * 4 + (y % 4 * 64 + z) / 64 = y := by omega
    have hfourth : (y % 4 * 64 + z) % 64 = z := by omega
    rw [hfirst, hsecond, hthird, hfourth]
  | [w, x, y], h => by
    obtain ⟨hw, hx, hy, hlast⟩ := h
    show sextets [UInt8.ofNat (w * 4 + x / 16), UInt8.ofNat (x % 16 * 16 + y / 4)] = _
    rw [sextets, toNat_ofNat (by omega), toNat_ofNat (by omega)]
    have hfirst : (w * 4 + x / 16) / 4 = w := by omega
    have hsecond : (w * 4 + x / 16) % 4 * 16 + (x % 16 * 16 + y / 4) / 16 = x := by omega
    have hthird : (x % 16 * 16 + y / 4) % 16 * 4 = y := by omega
    rw [hfirst, hsecond, hthird]
  | [w, x], h => by
    obtain ⟨hw, hx, hlast⟩ := h
    show sextets [UInt8.ofNat (w * 4 + x / 16)] = _
    rw [sextets, toNat_ofNat (by omega)]
    have hfirst : (w * 4 + x / 16) / 4 = w := by omega
    have hsecond : (w * 4 + x / 16) % 4 * 16 = x := by omega
    rw [hfirst, hsecond]
  | [_], h => h.elim
  | [], _ => rfl

theorem Canonical.length : ∀ {ns}, Canonical ns → ns.length % 4 ≠ 1
  | _ :: _ :: _ :: _ :: rest, h => by
    have hrest := h.2.2.2.2.length
    rw [List.length_cons, List.length_cons, List.length_cons, List.length_cons]
    omega
  | [_, _, _], _ => by simp
  | [_, _], _ => by simp
  | [_], h => h.elim
  | [], _ => by simp

theorem Canonical.lt : ∀ {ns}, Canonical ns → ∀ n ∈ ns, n < 64
  | _ :: _ :: _ :: _ :: rest, ⟨hw, hx, hy, hz, hrest⟩ => by
    simp only [List.forall_mem_cons]
    exact ⟨hw, hx, hy, hz, hrest.lt⟩
  | [_, _, _], ⟨hw, hx, hy, _⟩ => by simp [hw, hx, hy]
  | [_, _], ⟨hw, hx, _⟩ => by simp [hw, hx]
  | [_], h => h.elim
  | [], _ => by simp

theorem getLast?_append_of_mem {l : List Nat} (front : List Nat) {n : Nat} (h : n ∈ l.getLast?) :
    n ∈ (front ++ l).getLast? := by
  rw [List.getLast?_append, Option.mem_def.mp h]
  rfl

/-- **The last digit decides**, when the number of digits and their size are right. -/
theorem canonical_of_last : ∀ {ns : List Nat}, (∀ n ∈ ns, n < 64) → ns.length % 4 ≠ 1 →
    (ns.length % 4 = 2 → ∀ n ∈ ns.getLast?, n % 16 = 0) →
    (ns.length % 4 = 3 → ∀ n ∈ ns.getLast?, n % 4 = 0) → Canonical ns
  | w :: x :: y :: z :: rest, hlt, hlength, htwo, hthree => by
    simp only [List.forall_mem_cons] at hlt
    obtain ⟨hw, hx, hy, hz, hrest⟩ := hlt
    have hlong : (w :: x :: y :: z :: rest).length % 4 = rest.length % 4 :=
      Nat.add_mod_right rest.length 4
    rw [hlong] at hlength htwo hthree
    refine ⟨hw, hx, hy, hz, canonical_of_last hrest hlength ?_ ?_⟩
    · intro h n hn
      exact htwo h n (getLast?_append_of_mem [w, x, y, z] hn)
    · intro h n hn
      exact hthree h n (getLast?_append_of_mem [w, x, y, z] hn)
  | [w, x, y], hlt, _, _, hthree => by
    simp only [List.forall_mem_cons] at hlt
    exact ⟨hlt.1, hlt.2.1, hlt.2.2.1, hthree rfl y rfl⟩
  | [w, x], hlt, _, htwo, _ => by
    simp only [List.forall_mem_cons] at hlt
    exact ⟨hlt.1, hlt.2.1, htwo rfl x rfl⟩
  | [_], _, hlength, _, _ => absurd rfl hlength
  | [], _, _, _, _ => trivial

/-! ### Texts -/

/-- The padding behind so many digits. -/
def padding (length : Nat) : List Char := List.replicate ((4 - length % 4) % 4) '='

/-- A text is its digits and the padding. -/
theorem encode_eq : ∀ bytes,
    encode bytes = (sextets bytes).map digit ++ padding (sextets bytes).length
  | [] => rfl
  | [_] => rfl
  | [_, _] => rfl
  | a :: b :: c :: rest => by
    have hpadding : padding ((sextets rest).length + 4) = padding (sextets rest).length := by
      rw [padding, Nat.add_mod_right, padding]
    rw [encode, encode_eq rest, sextets]
    show _ = digit _ :: digit _ :: digit _ :: digit _ ::
      ((sextets rest).map digit ++ padding ((sextets rest).length + 4))
    rw [hpadding]

/-! ### The decoder of the browser -/

/-- ASCII whitespace. -/
def isBlank (c : Char) : Bool := c == '\t' || c == '\n' || c == '\x0c' || c == '\r' || c == ' '

/-- One or two signs of padding at the end are dropped. -/
def dropPadding (l : List Char) : List Char :=
  match l.reverse with
  | '=' :: '=' :: rest => rest.reverse
  | '=' :: rest => rest.reverse
  | _ => l

/-- Every character as its digit. -/
def digits? : List Char → Option (List Nat)
  | [] => some []
  | c :: l => (digit? c).bind fun n => (digits? l).map fun ns => n :: ns

/-- Padding is dropped where it makes the length a multiple of four. -/
def unpadded (data : List Char) : List Char :=
  if data.length % 4 = 0 then dropPadding data else data

def decodeUnpadded (data : List Char) : Option (List UInt8) :=
  if data.length % 4 = 1 then none else (digits? data).map ofSextets

/-- The forgiving-base64 decode of a text. -/
def forgivingDecode (text : List Char) : Option (List UInt8) :=
  decodeUnpadded (unpadded (text.filter fun c => !isBlank c))

theorem digits?_map : ∀ ns, (∀ n ∈ ns, n < 64) → digits? (ns.map digit) = some ns
  | [], _ => rfl
  | n :: ns, h => by
    rw [List.forall_mem_cons] at h
    rw [List.map_cons, digits?, digit?_digit n h.1, digits?_map ns h.2]
    rfl

theorem digit_ne : ∀ n < 64, isBlank (digit n) = false ∧ digit n ≠ '=' := by decide +kernel

/-- No digit is dropped with the padding. -/
theorem dropPadding_append {l : List Char} (hl : ∀ c ∈ l, c ≠ '=') {k : Nat} (hk : k ≤ 2) :
    dropPadding (l ++ List.replicate k '=') = l := by
  have hnone : dropPadding l = l := by
    unfold dropPadding
    split
    · rename_i rest hreverse
      have hmem : '=' ∈ l.reverse := hreverse ▸ List.mem_cons_self
      exact absurd rfl (hl _ (List.mem_reverse.mp hmem))
    · rename_i rest hreverse
      have hmem : '=' ∈ l.reverse := hreverse ▸ List.mem_cons_self
      exact absurd rfl (hl _ (List.mem_reverse.mp hmem))
    · rfl
  have hone : dropPadding (l ++ ['=']) = l := by
    unfold dropPadding
    rw [List.reverse_append]
    show (match '=' :: l.reverse with
      | '=' :: '=' :: rest => rest.reverse
      | '=' :: rest => rest.reverse
      | _ => l ++ ['=']) = l
    split
    · rename_i rest hreverse
      have hmem : '=' ∈ l.reverse := by
        rw [(List.cons.inj hreverse).2]
        exact List.mem_cons_self
      exact absurd rfl (hl _ (List.mem_reverse.mp hmem))
    · rename_i rest _ hreverse
      rw [← (List.cons.inj hreverse).2, List.reverse_reverse]
    · rename_i hfalse
      exact absurd rfl (hfalse _)
  interval_cases k
  · rw [List.replicate_zero, List.append_nil, hnone]
  · exact hone
  · unfold dropPadding
    rw [List.reverse_append]
    show l.reverse.reverse = l
    rw [List.reverse_reverse]

/-- **Digits are decoded with their padding.** -/
theorem forgivingDecode_padded {ns : List Nat} (h : Canonical ns) :
    forgivingDecode (ns.map digit ++ padding ns.length) = some (ofSextets ns) := by
  have hlength := h.length
  have hdigit : ∀ c ∈ ns.map digit, isBlank c = false ∧ c ≠ '=' := by
    intro c hc
    obtain ⟨n, hn, rfl⟩ := List.mem_map.mp hc
    exact digit_ne n (h.lt n hn)
  have hfilter : (ns.map digit ++ padding ns.length).filter (fun c => !isBlank c) =
      ns.map digit ++ padding ns.length := by
    rw [List.filter_eq_self]
    intro c hc
    rcases List.mem_append.mp hc with hc | hc
    · rw [(hdigit c hc).1]
      rfl
    · rw [List.eq_of_mem_replicate hc]
      rfl
  have hmultiple : (ns.map digit ++ padding ns.length).length % 4 = 0 := by
    rw [List.length_append, List.length_map, padding, List.length_replicate]
    omega
  have hunpadded : unpadded (ns.map digit ++ padding ns.length) = ns.map digit := by
    rw [unpadded, if_pos hmultiple]
    exact dropPadding_append (fun c hc => (hdigit c hc).2) (by omega)
  rw [forgivingDecode, hfilter, hunpadded, decodeUnpadded, List.length_map, if_neg hlength,
    digits?_map ns h.lt]
  rfl

/-- What is encoded is decoded by the browser. -/
theorem forgivingDecode_encode (bytes : List UInt8) :
    forgivingDecode (encode bytes) = some bytes := by
  rw [encode_eq, forgivingDecode_padded (canonical_sextets bytes), ofSextets_sextets]

end Base64
