import AuthGateway.Common.SsrfProtection

/-!
# Private addresses

`Restricted` says by number which addresses must not be reached from outside; it knows
nothing of masks or texts.  **`isPrivateIP` agrees with it except for two kinds of
address** (`exact_iff`): it lets the unspecified addresses through, and it takes for
unique-local every IPv6 address whose first group is written `fc` or `fd`, alone or
with one more digit, as in `fc::1` or `fd0::1`.
-/

namespace AuthGateway.PrivateAddresses

open Common Net GoString

/-! ### By number -/

/-- The number is in the block of `net` with a prefix of `ones` bits, among `bits`. -/
def InBlock (bits net ones n : Nat) : Prop := n / 2 ^ (bits - ones) = net / 2 ^ (bits - ones)

/-- An IPv4 number in `a.b.c.d/ones`. -/
def InV4 (a b c d : UInt8) (ones n : Nat) : Prop := InBlock 32 (value [a, b, c, d]) ones n

/-- Loopback, unspecified, private, link-local, multicast or reserved. -/
def RestrictedV4 (n : Nat) : Prop :=
  InV4 127 0 0 0 8 n ∨ n = 0 ∨ InV4 10 0 0 0 8 n ∨ InV4 172 16 0 0 12 n ∨ InV4 192 168 0 0 16 n ∨
    InV4 169 254 0 0 16 n ∨ InV4 224 0 0 0 4 n ∨ InV4 240 0 0 0 4 n

/-- Loopback, unspecified, link-local (`fe80::/10`, and multicast of that scope) or
unique-local (`fc00::/7`). -/
def RestrictedV6 (n : Nat) : Prop :=
  n = 1 ∨ n = 0 ∨ InBlock 128 (0xfe80 * 2 ^ 112) 10 n ∨
    (InBlock 128 (0xff * 2 ^ 120) 8 n ∧ n / 2 ^ 112 % 16 = 2) ∨ InBlock 128 (0xfc00 * 2 ^ 112) 7 n

/-- An IPv4-mapped address is the IPv4 address. -/
def Restricted (ip : IP) : Prop :=
  match ip.to4 with
  | some ip4 => RestrictedV4 (value ip4)
  | none => RestrictedV6 (value ip.bytes)

/-- The test is right on the address, and a restricted one passes under no configuration
that does not allow private addresses. -/
def Exact (net : NetLib) (ip : IP) : Prop :=
  (isPrivateIP ip = true ↔ Restricted ip) ∧
    ∀ p : SSRFProtection, p.allowPrivateIp = false → Restricted ip →
      p.isIPAccessAllowed net ip = false

/-- 0.0.0.0 and `::`. -/
def Unspecified (ip : IP) : Prop := value (ip.to4.getD ip.bytes) = 0

/-- An IPv6 address whose first group is `fc`, `fd`, `fc0` to `fcf`, or `fd0` to `fdf`. -/
def LooksLocal (ip : IP) : Prop :=
  ip.to4 = none ∧ (ip.firstGroup = 0xfc ∨ ip.firstGroup = 0xfd ∨ ip.firstGroup / 16 = 0xfc ∨
    ip.firstGroup / 16 = 0xfd)

/-! ### IPv4 -/

theorem inV4_iff {a b c d : UInt8} {ones n : Nat} : InV4 a b c d ones n ↔
    n / 2 ^ (32 - ones) =
      (256 * (256 * (256 * a.toNat + b.toNat) + c.toNat) + d.toNat) / 2 ^ (32 - ones) := by
  simp [InV4, InBlock, value]

/-- **On an IPv4 address the test asks for the blocks**, and nothing more. -/
theorem isPrivateIP_v4 {ip : IP} {ip4 : List UInt8} (h : ip.to4 = some ip4) :
    isPrivateIP ip = true ↔ RestrictedV4 (value ip4) ∧ value ip4 ≠ 0 := by
  have hblock : ∀ (a b c d : UInt8) (ones : Nat), ones ≤ 32 →
      IPNet.numberAndMask ⟨ipv4 a b c d, cidrMask ones 4⟩ = some ([a, b, c, d], cidrMask ones 4) →
      (IPNet.contains ⟨ipv4 a b c d, cidrMask ones 4⟩ ip = true ↔
        InV4 a b c d ones (value ip4)) :=
    fun a b c d ones hones hnet => IPNet.contains_iff hnet rfl hones h
  have hnets : (privateNets.any fun n => n.contains ip) = true ↔
      InV4 10 0 0 0 8 (value ip4) ∨ InV4 172 16 0 0 12 (value ip4) ∨
        InV4 192 168 0 0 16 (value ip4) ∨ InV4 127 0 0 0 8 (value ip4) ∨
        InV4 169 254 0 0 16 (value ip4) ∨ InV4 224 0 0 0 4 (value ip4) ∨
        InV4 240 0 0 0 4 (value ip4) := by
    simp only [privateNets, List.any_cons, List.any_nil, Bool.or_false, Bool.or_eq_true,
      hblock 10 0 0 0 8 (by decide) rfl, hblock 172 16 0 0 12 (by decide) rfl,
      hblock 192 168 0 0 16 (by decide) rfl, hblock 127 0 0 0 8 (by decide) rfl,
      hblock 169 254 0 0 16 (by decide) rfl, hblock 224 0 0 0 4 (by decide) rfl,
      hblock 240 0 0 0 4 (by decide) rfl]
  have hkinds : isPrivateIP ip = true ↔ (ip.isLoopback || ip.isLinkLocalUnicast ||
      ip.isLinkLocalMulticast) = true ∨ (privateNets.any fun n => n.contains ip) = true := by
    rw [isPrivateIP, h]
    cases ip.isLoopback || ip.isLinkLocalUnicast || ip.isLinkLocalMulticast <;>
      cases privateNets.any fun n => n.contains ip <;> simp
  have hlen := IP.length_to4 h
  match ip4, hlen with
  | [a, b, c, d], _ =>
    have ha := a.toNat_lt
    have hb := b.toNat_lt
    have hc := c.toNat_lt
    have hd := d.toNat_lt
    have hvalue : value [a, b, c, d] =
        256 * (256 * (256 * a.toNat + b.toNat) + c.toNat) + d.toNat := by simp [value]
    have hloopback : ip.isLoopback = true ↔ a.toNat = 127 := by
      simp [IP.isLoopback, h, ← UInt8.toNat_inj]
    have hunicast : ip.isLinkLocalUnicast = true ↔ a.toNat = 169 ∧ b.toNat = 254 := by
      simp [IP.isLinkLocalUnicast, h, ← UInt8.toNat_inj]
    have hmulticast : ip.isLinkLocalMulticast = true ↔
        a.toNat = 224 ∧ b.toNat = 0 ∧ c.toNat = 0 := by
      simp [IP.isLinkLocalMulticast, h, ← UInt8.toNat_inj, and_assoc]
    rw [hkinds, hnets]
    simp only [Bool.or_eq_true, hloopback, hunicast, hmulticast, RestrictedV4, inV4_iff, hvalue]
    simp only [UInt8.toNat_ofNat, Nat.reduceMul, Nat.reduceAdd, Nat.reduceSub, Nat.reducePow,
      Nat.reduceDiv, Nat.reduceMod]
    omega

/-! ### IPv6 -/

theorem and_high : ∀ n < 256, UInt8.ofNat n &&& 0xc0 = 0x80 ↔ n / 64 = 2 := by decide +kernel

theorem and_low : ∀ n < 256, UInt8.ofNat n &&& 0x0f = 0x02 ↔ n % 16 = 2 := by decide +kernel

/-- A test for two digits at the front of the text. -/
theorem string_prefix_iff {ip : IP} (h : ip.to4 = none) {e : Nat} (he : e < 16) :
    hasPrefix ip.string (String.ofList ['f', e.digitChar]) = true ↔ ip.firstGroup = 0xf0 + e ∨
      ip.firstGroup / 16 = 0xf0 + e ∨ ip.firstGroup / 256 = 0xf0 + e := by
  obtain ⟨hlt, hfront⟩ := IP.string_front h
  rw [hasPrefix, List.isPrefixOf_iff_prefix, String.toList_ofList]
  rcases hfront with ⟨rest, hrest⟩ | ⟨hzero, rest, hrest⟩
  · rw [hrest]
    exact prefix_hex_iff (d := 15) hlt (by decide) (by decide) he rest
  · rw [hrest, hzero]
    simp
    omega

theorem string_fe80_iff {ip : IP} (h : ip.to4 = none) :
    hasPrefix ip.string "fe80:" = true ↔ ip.firstGroup = 0xfe80 := by
  obtain ⟨-, hfront⟩ := IP.string_front h
  rw [hasPrefix, List.isPrefixOf_iff_prefix]
  rcases hfront with ⟨rest, hrest⟩ | ⟨hzero, rest, hrest⟩
  · have htext : "fe80:".toList = hex 0xfe80 ++ [':'] := by decide +kernel
    rw [hrest, htext, hex_colon_prefix_iff, eq_comm]
  · rw [hrest, hzero]
    simp

/-- **On an IPv6 address the test asks for ::1 and for the first group.** -/
theorem isPrivateIP_v6 {ip : IP} (h : ip.to4 = none) :
    isPrivateIP ip = true ↔ value ip.bytes = 1 ∨ ip.firstGroup / 64 = 0xfe80 / 64 ∨
      (ip.firstGroup / 256 = 0xff ∧ ip.firstGroup % 16 = 2) ∨
      (ip.firstGroup = 0xfc ∨ ip.firstGroup / 16 = 0xfc ∨ ip.firstGroup / 256 = 0xfc) ∨
      (ip.firstGroup = 0xfd ∨ ip.firstGroup / 16 = 0xfd ∨ ip.firstGroup / 256 = 0xfd) := by
  have hlen := IP.length_of_to4 h
  have hloopback : ip.equal ipv6loopback = true ↔ value ip.bytes = 1 := by
    have hsame : ip.bytes.length = ipv6loopback.bytes.length := hlen
    rw [IP.equal, if_pos hsame, beq_iff_eq]
    constructor
    · intro heq
      rw [heq]
      rfl
    · intro hvalue
      exact value_injective hsame hvalue
  have hnets : (privateNets.any fun n => n.contains ip) = false := by
    rw [List.any_eq_false]
    intro n hn
    simp only [privateNets, List.mem_cons, List.not_mem_nil, or_false] at hn
    rcases hn with rfl | rfl | rfl | rfl | rfl | rfl | rfl <;>
      rw [IPNet.not_contains rfl rfl h] <;> decide
  have hfe80 := string_fe80_iff h
  have hfc := string_prefix_iff h (e := 12) (by decide)
  have hfd := string_prefix_iff h (e := 13) (by decide)
  change hasPrefix ip.string "fc" = true ↔ _ at hfc
  change hasPrefix ip.string "fd" = true ↔ _ at hfd
  have hbytes : (ip.isLinkLocalUnicast = true ↔ ip.firstGroup / 64 = 0xfe80 / 64) ∧
      (ip.isLinkLocalMulticast = true ↔ ip.firstGroup / 256 = 0xff ∧ ip.firstGroup % 16 = 2) := by
    match hb : ip.bytes, hlen with
    | x :: y :: rest, hlen =>
      have hrest : rest.length = 14 := by simpa using hlen
      have hfirst := value_cons_cons_div x y rest
      rw [hrest, ← hb] at hfirst
      have hgroup : ip.firstGroup = 256 * x.toNat + y.toNat := hfirst
      have hhigh := and_high y.toNat y.toNat_lt
      have hlow := and_low y.toNat y.toNat_lt
      rw [UInt8.ofNat_toNat] at hhigh hlow
      have hx := x.toNat_lt
      have hy := y.toNat_lt
      constructor
      · simp only [IP.isLinkLocalUnicast, h, hb, List.getElem?_cons_zero, List.getElem?_cons_succ,
          Option.map_some, Bool.and_eq_true, beq_iff_eq, Option.some.injEq, hhigh, hgroup,
          ← UInt8.toNat_inj, UInt8.toNat_ofNat, Nat.reducePow, Nat.reduceMod]
        omega
      · simp only [IP.isLinkLocalMulticast, h, hb, List.getElem?_cons_zero,
          List.getElem?_cons_succ, Option.map_some, Bool.and_eq_true, beq_iff_eq,
          Option.some.injEq, hlow, hgroup, ← UInt8.toNat_inj, UInt8.toNat_ofNat, Nat.reducePow,
          Nat.reduceMod]
        omega
  have hloopback' : ip.isLoopback = ip.equal ipv6loopback := by
    rw [IP.isLoopback, h]
  have hkinds : isPrivateIP ip = true ↔ (ip.isLoopback || ip.isLinkLocalUnicast ||
      ip.isLinkLocalMulticast) = true ∨ ip.equal ipv6loopback = true ∨
      hasPrefix ip.string "fe80:" = true ∨ hasPrefix ip.string "fc" = true ∨
      hasPrefix ip.string "fd" = true := by
    rw [isPrivateIP, h, hnets]
    cases ip.isLoopback || ip.isLinkLocalUnicast || ip.isLinkLocalMulticast <;>
      cases ip.equal ipv6loopback <;> cases hasPrefix ip.string "fe80:" <;> simp
  rw [hkinds, hloopback']
  simp only [Bool.or_eq_true, hloopback, hbytes.1, hbytes.2, hfe80, hfc, hfd]
  omega

/-! ### The agreement -/

theorem firstGroup_eq (ip : IP) (ones : Nat) (hones : ones ≤ 16) (net n : Nat)
    (hn : n = value ip.bytes) : InBlock 128 (net * 2 ^ 112) ones n ↔
      ip.firstGroup / 2 ^ (16 - ones) = net / 2 ^ (16 - ones) := by
  have hpow : (2 : Nat) ^ (128 - ones) = 2 ^ 112 * 2 ^ (16 - ones) := by
    rw [← Nat.pow_add]
    congr 1
    omega
  rw [InBlock, IP.firstGroup, hpow, ← Nat.div_div_eq_div_mul, ← Nat.div_div_eq_div_mul,
    Nat.mul_div_cancel _ (by decide), hn]

/-- **The test is exact but for the unspecified addresses and for those that look
unique-local.** -/
theorem exact_iff (net : NetLib) (ip : IP) : Exact net ip ↔ ¬ Unspecified ip ∧ ¬ LooksLocal ip := by
  have hlists : (isPrivateIP ip = true ↔ Restricted ip) → ∀ p : SSRFProtection,
      p.allowPrivateIp = false → Restricted ip → p.isIPAccessAllowed net ip = false := by
    intro hexact p hp hrestricted
    simp [SSRFProtection.isIPAccessAllowed, hexact.mpr hrestricted, hp]
  have hfirst : Exact net ip ↔ (isPrivateIP ip = true ↔ Restricted ip) :=
    ⟨And.left, fun h => ⟨h, hlists h⟩⟩
  rw [hfirst]
  cases h : ip.to4 with
  | some ip4 =>
    rw [isPrivateIP_v4 h]
    simp only [Restricted, h, Unspecified, LooksLocal, Option.getD_some, reduceCtorEq, false_and,
      not_false_eq_true, and_true]
    have hzero : value ip4 = 0 → RestrictedV4 (value ip4) := fun hz => Or.inr (Or.inl hz)
    constructor
    · intro hiff hz
      exact (hiff.mpr (hzero hz)).2 hz
    · intro hz
      exact ⟨And.left, fun hr => ⟨hr, hz⟩⟩
  | none =>
    have hone : value ip.bytes < 2 → ip.firstGroup = 0 := by
      intro hlt
      exact Nat.div_eq_of_lt (by omega)
    rw [isPrivateIP_v6 h]
    simp only [Restricted, RestrictedV6, h, Unspecified, LooksLocal, Option.getD_none, true_and]
    rw [firstGroup_eq ip 10 (by decide) _ _ rfl, firstGroup_eq ip 7 (by decide) _ _ rfl,
      show 0xff * 2 ^ 120 = 0xff00 * 2 ^ 112 by rfl, firstGroup_eq ip 8 (by decide) _ _ rfl]
    have hgroup : value ip.bytes / 2 ^ 112 = ip.firstGroup := rfl
    rw [hgroup]
    generalize ip.firstGroup = g at hone
    generalize value ip.bytes = n at hone
    simp only [Nat.reduceSub, Nat.reducePow, Nat.reduceDiv]
    omega

/-- 0.0.0.0 is not restricted by the test. -/
theorem unspecified_passes : ¬ ∀ net ip, Exact net ip := by
  intro hall
  have hexact := (hall ⟨fun _ => .error "", fun _ => none, fun _ => none, fun _ => .error ""⟩
    (ipv4 0 0 0 0)).1
  have hrestricted : Restricted (ipv4 0 0 0 0) := Or.inr (Or.inl rfl)
  have hprivate : isPrivateIP (ipv4 0 0 0 0) = false := by decide +kernel
  rw [hprivate] at hexact
  exact absurd (hexact.mpr hrestricted) Bool.false_ne_true

end AuthGateway.PrivateAddresses
