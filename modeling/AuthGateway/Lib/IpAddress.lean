import AuthGateway.Lib.GoString
import AuthGateway.Lib.Hex
import Mathlib.Tactic.Ring
import Mathlib.Tactic.Positivity

/-!
# IP addresses

`net.IP` as its bytes, four of them or sixteen, with the methods of Go's `net`
package, and CIDR blocks.

**A block is an interval of numbers**: an address is in `net/ones` exactly when the
two numbers agree in their first `ones` bits (`prefix_agree_iff`).
-/

namespace Net

/-- The number that the bytes are in big-endian order. -/
def value (bytes : List UInt8) : Nat := bytes.foldl (fun n b => 256 * n + b.toNat) 0

/-- `net.IP`, in one of its two lengths. -/
structure IP where
  bytes : List UInt8
  size : bytes.length = 4 ∨ bytes.length = 16
deriving DecidableEq

def v4InV6Prefix : List UInt8 := [0, 0, 0, 0, 0, 0, 0, 0, 0, 0, 0xff, 0xff]

/-- `net.IPv4`. -/
def ipv4 (a b c d : UInt8) : IP := ⟨v4InV6Prefix ++ [a, b, c, d], Or.inr rfl⟩

/-- `net.IPv6loopback`. -/
def ipv6loopback : IP := ⟨[0, 0, 0, 0, 0, 0, 0, 0, 0, 0, 0, 0, 0, 0, 0, 1], Or.inr rfl⟩

/-- `ip.To4()`. -/
def IP.to4 (ip : IP) : Option (List UInt8) :=
  if ip.bytes.length = 4 then some ip.bytes
  else if ip.bytes.take 12 = v4InV6Prefix then some (ip.bytes.drop 12)
  else none

/-- `ip.Equal(x)`. -/
def IP.equal (ip x : IP) : Bool :=
  if ip.bytes.length = x.bytes.length then ip.bytes == x.bytes
  else if ip.bytes.length = 4 then v4InV6Prefix ++ ip.bytes == x.bytes
  else v4InV6Prefix ++ x.bytes == ip.bytes

/-- `ip.IsLoopback()`. -/
def IP.isLoopback (ip : IP) : Bool :=
  match ip.to4 with
  | some ip4 => ip4[0]? == some 127
  | none => ip.equal ipv6loopback

/-- `ip.IsLinkLocalUnicast()`. -/
def IP.isLinkLocalUnicast (ip : IP) : Bool :=
  match ip.to4 with
  | some ip4 => ip4[0]? == some 169 && ip4[1]? == some 254
  | none => ip.bytes[0]? == some 0xfe && ip.bytes[1]?.map (fun b => b &&& 0xc0) == some 0x80

/-- `ip.IsLinkLocalMulticast()`. -/
def IP.isLinkLocalMulticast (ip : IP) : Bool :=
  match ip.to4 with
  | some ip4 => ip4[0]? == some 224 && ip4[1]? == some 0 && ip4[2]? == some 0
  | none => ip.bytes[0]? == some 0xff && ip.bytes[1]?.map (fun b => b &&& 0x0f) == some 0x02

/-! ### Blocks -/

/-- `net.IPNet`. -/
structure IPNet where
  ip : IP
  mask : List UInt8

/-- `^byte(0xff >> n)`: the `n` highest bits. -/
def highBits (n : Nat) : UInt8 := ~~~ (0xff >>> UInt8.ofNat n)

/-- `net.CIDRMask`, for a mask of so many bytes. -/
def cidrMask : (ones bytes : Nat) → List UInt8
  | _, 0 => []
  | n, l + 1 => if 8 ≤ n then 0xff :: cidrMask (n - 8) l else highBits n :: cidrMask 0 l

/-- The bytes agree under the mask. -/
def agree : (mask xs ys : List UInt8) → Bool
  | m :: ms, x :: xs, y :: ys => x &&& m == y &&& m && agree ms xs ys
  | _, _, _ => true

/-- `networkNumberAndMask`. -/
def IPNet.numberAndMask (n : IPNet) : Option (List UInt8 × List UInt8) :=
  let number := n.ip.to4.getD n.ip.bytes
  if n.mask.length = 4 then if number.length = 4 then some (number, n.mask) else none
  else if n.mask.length = 16 then
    some (number, if number.length = 4 then n.mask.drop 12 else n.mask)
  else none

/-- `n.Contains(ip)`. -/
def IPNet.contains (n : IPNet) (ip : IP) : Bool :=
  match n.numberAndMask with
  | none => false
  | some (number, mask) =>
    let bytes := ip.to4.getD ip.bytes
    bytes.length == number.length && agree mask number bytes

/-! ### Text -/

/-- The 16 bit groups of an address. -/
def groups : List UInt8 → List Nat
  | a :: b :: rest => (a.toNat * 256 + b.toNat) :: groups rest
  | _ => []

/-- How many zero groups there are from `i` on. -/
def zerosAt (gs : List Nat) (i : Nat) : Nat := ((gs.drop i).takeWhile fun g => g == 0).length

/-- `zeroStart` and `zeroEnd`: the first longest run of at least two zero groups. -/
def zeroRun (gs : List Nat) : Nat × Nat :=
  (List.range 8).foldl
    (fun run i =>
      if 2 ≤ zerosAt gs i ∧ run.2 - run.1 < zerosAt gs i then (i, i + zerosAt gs i) else run)
    (255, 255)

/-- The groups from number `i` on, the zero run written as `::`. -/
def writeGroups (run : Nat × Nat) : Nat → List Nat → List Char
  | _, [] => []
  | i, g :: gs =>
    if run.1 ≤ i ∧ i < run.2 then (if i = run.1 then [':', ':'] else []) ++ writeGroups run (i + 1) gs
    else (if 0 < i ∧ i ≠ run.2 then [':'] else []) ++ hex g ++ writeGroups run (i + 1) gs

/-- `ip.String()`. -/
def IP.string (ip : IP) : String :=
  match ip.to4 with
  | some ip4 => ".".intercalate (ip4.map fun b => GoString.itoa b.toNat)
  | none => String.ofList (writeGroups (zeroRun (groups ip.bytes)) 0 (groups ip.bytes))

/-! ### Bytes and numbers -/

theorem foldl_value (bytes : List UInt8) (n : Nat) :
    bytes.foldl (fun n b => 256 * n + b.toNat) n = 2 ^ (8 * bytes.length) * n + value bytes := by
  induction bytes generalizing n with
  | nil => simp [value]
  | cons b bs ih =>
    have hvalue : value (b :: bs) = 2 ^ (8 * bs.length) * (256 * 0 + b.toNat) + value bs := ih _
    rw [List.foldl_cons, ih, hvalue, List.length_cons, Nat.mul_succ, Nat.pow_add]
    ring

theorem value_cons (b : UInt8) (bs : List UInt8) :
    value (b :: bs) = 2 ^ (8 * bs.length) * b.toNat + value bs := by
  rw [value, List.foldl_cons, foldl_value, Nat.mul_zero, Nat.zero_add]

theorem value_lt (bytes : List UInt8) : value bytes < 2 ^ (8 * bytes.length) := by
  induction bytes with
  | nil => simp [value]
  | cons b bs ih =>
    have hb : b.toNat + 1 ≤ 2 ^ 8 := b.toNat_lt
    rw [value_cons, List.length_cons, Nat.mul_succ, Nat.pow_add]
    calc 2 ^ (8 * bs.length) * b.toNat + value bs
        < 2 ^ (8 * bs.length) * (b.toNat + 1) := by rw [Nat.mul_succ]; omega
      _ ≤ 2 ^ (8 * bs.length) * 2 ^ 8 := Nat.mul_le_mul_left _ hb

/-- The highest bits are those of the first byte. -/
theorem value_cons_div (b : UInt8) (bs : List UInt8) (k : Nat) :
    value (b :: bs) / 2 ^ (8 * bs.length + k) = b.toNat / 2 ^ k := by
  rw [value_cons, Nat.pow_add, ← Nat.div_div_eq_div_mul, Nat.mul_add_div (by positivity),
    Nat.div_eq_of_lt (value_lt bs), Nat.add_zero]

/-- The first byte and the bits of the others, behind one another. -/
theorem value_cons_div_low (b : UInt8) (bs : List UInt8) {k : Nat} (h : k ≤ 8 * bs.length) :
    value (b :: bs) / 2 ^ (8 * bs.length - k) =
      2 ^ k * b.toNat + value bs / 2 ^ (8 * bs.length - k) := by
  have hpow : 2 ^ (8 * bs.length) = 2 ^ (8 * bs.length - k) * 2 ^ k := by
    rw [← Nat.pow_add, Nat.sub_add_cancel h]
  rw [value_cons, hpow, Nat.mul_assoc, Nat.mul_add_div (by positivity)]

theorem value_div_lt (bs : List UInt8) {k : Nat} (h : k ≤ 8 * bs.length) :
    value bs / 2 ^ (8 * bs.length - k) < 2 ^ k := by
  apply Nat.div_lt_of_lt_mul
  rw [← Nat.pow_add, Nat.sub_add_cancel h]
  exact value_lt bs

theorem mul_add_inj {q x y r s : Nat} (hr : r < q) (hs : s < q) :
    q * x + r = q * y + s ↔ x = y ∧ r = s := by
  constructor
  · intro h
    have hq : 0 < q := by omega
    have hx := congrArg (fun n => n / q) h
    have hrem := congrArg (fun n => n % q) h
    simp only [Nat.mul_add_div hq, Nat.div_eq_of_lt hr, Nat.div_eq_of_lt hs, Nat.add_zero,
      Nat.mul_add_mod, Nat.mod_eq_of_lt hr, Nat.mod_eq_of_lt hs] at hx hrem
    exact ⟨hx, hrem⟩
  · rintro ⟨rfl, rfl⟩
    rfl

theorem highBits_and : ∀ n < 8, ∀ x < 256, (UInt8.ofNat x &&& highBits n).toNat =
    x / 2 ^ (8 - n) * 2 ^ (8 - n) := by decide +kernel

theorem and_highBits_eq_iff {n : Nat} (h : n < 8) {x y : UInt8} :
    x &&& highBits n = y &&& highBits n ↔ x.toNat / 2 ^ (8 - n) = y.toNat / 2 ^ (8 - n) := by
  have hx := highBits_and n h x.toNat x.toNat_lt
  have hy := highBits_and n h y.toNat y.toNat_lt
  rw [UInt8.ofNat_toNat] at hx hy
  rw [← UInt8.toNat_inj, hx, hy]
  exact Nat.mul_left_inj (by positivity)

theorem agree_zero : ∀ {l : Nat} {xs ys : List UInt8}, agree (cidrMask 0 l) xs ys = true
  | 0, _, _ => by simp [cidrMask, agree]
  | l + 1, [], _ => by simp [cidrMask, agree]
  | l + 1, _ :: _, [] => by simp [cidrMask, agree]
  | l + 1, x :: xs, y :: ys => by
    have hzero : x &&& highBits 0 = y &&& highBits 0 := by
      rw [and_highBits_eq_iff (by decide), Nat.div_eq_of_lt x.toNat_lt, Nat.div_eq_of_lt y.toNat_lt]
    simp [cidrMask, agree, hzero, agree_zero]

/-- **To agree under the mask of `ones` bits is to agree in the first `ones` bits.** -/
theorem prefix_agree_iff {ones : Nat} {xs ys : List UInt8} (hlen : xs.length = ys.length)
    (hones : ones ≤ 8 * ys.length) :
    agree (cidrMask ones ys.length) xs ys = true ↔
      value xs / 2 ^ (8 * ys.length - ones) = value ys / 2 ^ (8 * ys.length - ones) := by
  induction ys generalizing xs ones with
  | nil =>
    obtain rfl := List.length_eq_zero_iff.mp hlen
    simp [cidrMask, agree]
  | cons y ys ih =>
    cases xs with
    | nil => simp at hlen
    | cons x xs =>
      have hlen' : xs.length = ys.length := by simpa using hlen
      rw [List.length_cons] at hones
      by_cases hlarge : 8 ≤ ones
      · have hsub : 8 * (ys.length + 1) - ones = 8 * ys.length - (ones - 8) := by omega
        have hbyte : x &&& 0xff = y &&& 0xff ↔ x.toNat = y.toNat := by
          rw [show (0xff : UInt8) = -1 by rfl, UInt8.and_neg_one, UInt8.and_neg_one, UInt8.toNat_inj]
        have hx := value_cons_div_low x xs (k := ones - 8) (by omega)
        have hxlt := value_div_lt xs (k := ones - 8) (by omega)
        rw [hlen'] at hx hxlt
        rw [List.length_cons, cidrMask, if_pos hlarge, agree, Bool.and_eq_true, beq_iff_eq, hbyte,
          ih hlen' (by omega), hsub, hx, value_cons_div_low y ys (by omega),
          mul_add_inj hxlt (value_div_lt ys (by omega))]
      · have hsub : 8 * (ys.length + 1) - ones = 8 * ys.length + (8 - ones) := by omega
        rw [List.length_cons, cidrMask, if_neg hlarge, agree, agree_zero, Bool.and_true, beq_iff_eq,
          and_highBits_eq_iff (by omega), hsub, value_cons_div, ← hlen', value_cons_div]

/-- **The number says which bytes there are.** -/
theorem value_injective {xs ys : List UInt8} (hlen : xs.length = ys.length)
    (h : value xs = value ys) : xs = ys := by
  induction ys generalizing xs with
  | nil => exact List.length_eq_zero_iff.mp hlen
  | cons y ys ih =>
    cases xs with
    | nil => simp at hlen
    | cons x xs =>
      have hlen' : xs.length = ys.length := by simpa using hlen
      have hx := value_lt xs
      rw [hlen'] at hx
      rw [value_cons, value_cons, hlen', mul_add_inj hx (value_lt ys)] at h
      rw [UInt8.toNat_inj.mp h.1, ih hlen' h.2]

/-- The first two bytes. -/
theorem value_cons_cons_div (a b : UInt8) (bs : List UInt8) :
    value (a :: b :: bs) / 2 ^ (8 * bs.length) = 256 * a.toNat + b.toNat := by
  have hlen : 8 * (b :: bs).length - 8 = 8 * bs.length := by
    rw [List.length_cons]
    omega
  have hsecond : value (b :: bs) / 2 ^ (8 * bs.length) = b.toNat := by
    simpa using value_cons_div b bs 0
  have hfirst := value_cons_div_low a (b :: bs) (k := 8) (by simp)
  rw [hlen, hsecond] at hfirst
  exact hfirst

theorem IP.length_to4 {ip : IP} {ip4 : List UInt8} (h : ip.to4 = some ip4) : ip4.length = 4 := by
  rw [IP.to4] at h
  by_cases hfour : ip.bytes.length = 4
  · simp only [hfour, if_true, Option.some.injEq] at h
    rw [← h, hfour]
  · rw [if_neg hfour] at h
    by_cases hmapped : ip.bytes.take 12 = v4InV6Prefix
    · simp only [hmapped, if_true, Option.some.injEq] at h
      rw [← h, List.length_drop, ip.size.resolve_left hfour]
    · simp [hmapped] at h

theorem IP.length_of_to4 {ip : IP} (h : ip.to4 = none) : ip.bytes.length = 16 := by
  refine ip.size.resolve_left fun hfour => ?_
  simp [IP.to4, hfour] at h

/-- **An IPv4 block has the IPv4 addresses that agree with it in the first bits.** -/
theorem IPNet.contains_iff {n : IPNet} {number ip4 : List UInt8} {ones : Nat} {ip : IP}
    (hnet : n.numberAndMask = some (number, cidrMask ones 4)) (hnumber : number.length = 4)
    (hones : ones ≤ 32) (hip : ip.to4 = some ip4) :
    n.contains ip = true ↔ value ip4 / 2 ^ (32 - ones) = value number / 2 ^ (32 - ones) := by
  have hfour := IP.length_to4 hip
  have hagree : agree (cidrMask ones ip4.length) number ip4 = true ↔
      value number / 2 ^ (8 * ip4.length - ones) = value ip4 / 2 ^ (8 * ip4.length - ones) :=
    prefix_agree_iff (by rw [hfour, hnumber]) (by rw [hfour]; exact hones)
  rw [hfour] at hagree
  rw [IPNet.contains, hnet, hip]
  simp only [Option.getD_some, hfour, hnumber, beq_self_eq_true, Bool.true_and, hagree]
  exact eq_comm

/-- An IPv4 block has no other addresses. -/
theorem IPNet.not_contains {n : IPNet} {number mask : List UInt8} {ip : IP}
    (hnet : n.numberAndMask = some (number, mask)) (hnumber : number.length = 4)
    (hip : ip.to4 = none) : n.contains ip = false := by
  rw [IPNet.contains, hnet, hip]
  simp [IP.length_of_to4 hip, hnumber]

/-! ### The front of the text -/

/-- A run of zeros starts with a zero, and is at least two long. -/
def ZeroRun (gs : List Nat) (run : Nat × Nat) : Prop :=
  run = (255, 255) ∨ (2 ≤ zerosAt gs run.1 ∧ run.2 = run.1 + zerosAt gs run.1)

theorem zeroRun_isRun (gs : List Nat) : ZeroRun gs (zeroRun gs) := by
  have hstep : ∀ (l : List Nat) (run : Nat × Nat), ZeroRun gs run → ZeroRun gs (l.foldl
      (fun run i =>
        if 2 ≤ zerosAt gs i ∧ run.2 - run.1 < zerosAt gs i then (i, i + zerosAt gs i) else run)
      run) := by
    intro l
    induction l with
    | nil => exact fun run h => h
    | cons i is ih =>
      intro run h
      rw [List.foldl_cons]
      apply ih
      by_cases hlong : 2 ≤ zerosAt gs i ∧ run.2 - run.1 < zerosAt gs i
      · rw [if_pos hlong]
        exact Or.inr ⟨hlong.1, rfl⟩
      · rw [if_neg hlong]
        exact h
  exact hstep _ _ (Or.inl rfl)

/-- **The text starts with the first group and a colon**, or with a colon when that
group is zero. -/
theorem writeGroups_front (g g' : Nat) (gs : List Nat) :
    (∃ rest, writeGroups (zeroRun (g :: g' :: gs)) 0 (g :: g' :: gs) = hex g ++ ':' :: rest) ∨
      g = 0 ∧ ∃ rest, writeGroups (zeroRun (g :: g' :: gs)) 0 (g :: g' :: gs) = ':' :: rest := by
  have hrun := zeroRun_isRun (g :: g' :: gs)
  generalize zeroRun (g :: g' :: gs) = run at hrun
  have hend : run.1 = 255 ∧ run.2 = 255 ∨ run.1 + 2 ≤ run.2 := by
    rcases hrun with rfl | ⟨hlong, hend⟩
    · exact Or.inl ⟨rfl, rfl⟩
    · exact Or.inr (by omega)
  by_cases hzero : run.1 = 0
  · right
    constructor
    · rcases hrun with rfl | ⟨hlong, -⟩
      · simp at hzero
      · rw [hzero, zerosAt, List.drop_zero] at hlong
        by_contra hg
        simp [hg] at hlong
    · refine ⟨':' :: writeGroups run 1 (g' :: gs), ?_⟩
      rw [writeGroups, if_pos (by omega), if_pos hzero.symm]
      rfl
  · left
    have hsecond : ∃ rest, writeGroups run 1 (g' :: gs) = ':' :: rest := by
      by_cases hone : run.1 = 1
      · refine ⟨':' :: writeGroups run 2 gs, ?_⟩
        rw [writeGroups, if_pos (by omega), if_pos hone.symm]
        rfl
      · refine ⟨hex g' ++ writeGroups run 2 gs, ?_⟩
        rw [writeGroups, if_neg (by omega), if_pos (by omega)]
        rfl
    obtain ⟨rest, hrest⟩ := hsecond
    refine ⟨rest, ?_⟩
    rw [writeGroups, if_neg (by omega), if_neg (by omega), hrest]
    rfl

/-- The first group of an IPv6 address. -/
def IP.firstGroup (ip : IP) : Nat := value ip.bytes / 2 ^ 112

/-- **The text of an IPv6 address starts with its first group.** -/
theorem IP.string_front {ip : IP} (h : ip.to4 = none) : ip.firstGroup < 65536 ∧
    ((∃ rest, ip.string.toList = hex ip.firstGroup ++ ':' :: rest) ∨
      ip.firstGroup = 0 ∧ ∃ rest, ip.string.toList = ':' :: rest) := by
  have hlen := IP.length_of_to4 h
  rw [IP.string, h]
  dsimp only
  rw [String.toList_ofList, IP.firstGroup]
  match hbytes : ip.bytes, hlen with
  | a :: b :: a' :: b' :: rest, hlen =>
    have hrest : rest.length = 12 := by simpa using hlen
    have hfirst := value_cons_cons_div a b (a' :: b' :: rest)
    rw [List.length_cons, List.length_cons, hrest] at hfirst
    have ha := a.toNat_lt
    have hb := b.toNat_lt
    rw [show 2 ^ 112 = 2 ^ (8 * (12 + 1 + 1)) by rfl, hfirst, Nat.mul_comm 256]
    refine ⟨by omega, ?_⟩
    rw [groups, groups]
    exact writeGroups_front _ _ _

end Net
