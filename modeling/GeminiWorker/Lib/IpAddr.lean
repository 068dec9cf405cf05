import GeminiWorker.Lib.Text
import Mathlib.Tactic.NormNum

/-!
# IP addresses

The addresses of the Rust standard library: their classes, the dotted decimal form of
IPv4, and the parser of `IpAddr`.

* `Block`: the addresses with a common prefix; `Ipv4Addr.restricted_iff` and
  `Ipv6Addr.restricted_iff` read the classes as blocks.
* `parse_display`: the parser reads an IPv4 address back from its dotted decimal form.
* `parse_bracket`: it reads nothing that starts with a bracket.
-/

namespace Net

structure Ipv4Addr where
  a : UInt8
  b : UInt8
  c : UInt8
  d : UInt8
deriving DecidableEq

/-- Eight groups of 16 bits. -/
structure Ipv6Addr where
  segments : List UInt16
  length_eq : segments.length = 8
deriving DecidableEq

inductive IpAddr where
  | v4 (address : Ipv4Addr)
  | v6 (address : Ipv6Addr)
deriving DecidableEq

/-! ## Classes -/

namespace Ipv4Addr

variable (address : Ipv4Addr)

def isPrivate : Bool :=
  address.a == 10 || (address.a == 172 && 16 ≤ address.b && address.b ≤ 31) ||
    (address.a == 192 && address.b == 168)

def isLoopback : Bool := address.a == 127

def isLinkLocal : Bool := address.a == 169 && address.b == 254

def isUnspecified : Bool := address == ⟨0, 0, 0, 0⟩

/-- The address as a number of 32 bits. -/
def value : ℕ :=
  ((address.a.toNat * 256 + address.b.toNat) * 256 + address.c.toNat) * 256 + address.d.toNat

/-- The dotted decimal form. -/
def display : String :=
  toString address.a.toNat ++ "." ++ toString address.b.toNat ++ "." ++ toString address.c.toNat ++ "." ++
    toString address.d.toNat

end Ipv4Addr

namespace Ipv6Addr

variable (address : Ipv6Addr)

def isLoopback : Bool := address.segments == [0, 0, 0, 0, 0, 0, 0, 1]

def isUnspecified : Bool := address.segments == [0, 0, 0, 0, 0, 0, 0, 0]

def isUniqueLocal : Bool := address.segments.headD 0 &&& 0xfe00 == 0xfc00

def isUnicastLinkLocal : Bool := address.segments.headD 0 &&& 0xffc0 == 0xfe80

/-- The address as a number of 128 bits. -/
def value : ℕ := address.segments.foldl (fun n s => n * 65536 + s.toNat) 0

/-- Zeros between the first groups and the last ones. -/
def fill (head tail : List UInt16) : Ipv6Addr where
  segments := (List.range 8).map fun i =>
    if i < 8 - tail.length then head.getD i 0 else tail.getD (i - (8 - tail.length)) 0
  length_eq := by simp

end Ipv6Addr

/-! ## The parser -/

/-- `char::to_digit`. -/
def toDigit (radix : ℕ) (c : Char) : Option ℕ :=
  (if '0' ≤ c ∧ c ≤ '9' then some (c.toNat - 48)
  else if 'a' ≤ c ∧ c ≤ 'z' then some (c.toNat - 87)
  else if 'A' ≤ c ∧ c ≤ 'Z' then some (c.toNat - 55)
  else none).filter (· < radix)

def isDigit (radix : ℕ) (c : Char) : Bool := (toDigit radix c).isSome

/-- `read_number`: all digits in front, at most `maxDigits` of them, for a number below `size`. -/
def readNumber (radix maxDigits size : ℕ) (allowZeroPrefix : Bool) (cs : List Char) :
    Option (ℕ × List Char) :=
  let digits := cs.takeWhile (isDigit radix)
  let result := digits.foldl (fun n c => n * radix + (toDigit radix c).getD 0) 0
  if digits.length = 0 || digits.length > maxDigits then none
  else if !allowZeroPrefix && cs.head? == some '0' && digits.length > 1 then none
  else if result < size then some (result, cs.dropWhile (isDigit radix))
  else none

def readGivenChar (target : Char) : List Char → Option (List Char)
  | c :: cs => if c = target then some cs else none
  | [] => none

/-- `read_separator`: the separator is read in front of all but the first. -/
def readSeparator {α : Type} (sep : Char) (index : ℕ) (inner : List Char → Option (α × List Char))
    (cs : List Char) : Option (α × List Char) :=
  if index > 0 then (readGivenChar sep cs).bind inner else inner cs

def readOctet (cs : List Char) : Option (ℕ × List Char) := readNumber 10 3 256 false cs

def readIpv4Addr (cs : List Char) : Option (Ipv4Addr × List Char) := do
  let (a, cs) ← readSeparator '.' 0 readOctet cs
  let (b, cs) ← readSeparator '.' 1 readOctet cs
  let (c, cs) ← readSeparator '.' 2 readOctet cs
  let (d, cs) ← readSeparator '.' 3 readOctet cs
  return (⟨.ofNat a, .ofNat b, .ofNat c, .ofNat d⟩, cs)

/-- `u16::from_be_bytes`. -/
def fromBeBytes (high low : UInt8) : UInt16 := .ofNat (high.toNat * 256 + low.toNat)

/-- `read_groups`, with `left` groups to go: the groups, and whether an IPv4 address ended them. -/
def readGroups : (left index : ℕ) → List Char → List UInt16 × Bool × List Char
  | 0, _, cs => ([], false, cs)
  | left + 1, index, cs =>
    let ipv4 := if left > 0 then readSeparator ':' index readIpv4Addr cs else none
    match ipv4 with
    | some (v4, cs) => ([fromBeBytes v4.a v4.b, fromBeBytes v4.c v4.d], true, cs)
    | none =>
      match readSeparator ':' index (readNumber 16 4 65536 true) cs with
      | some (group, cs) =>
        let (groups, hasIpv4, cs) := readGroups left (index + 1) cs
        (.ofNat group :: groups, hasIpv4, cs)
      | none => ([], false, cs)

def readIpv6Addr (cs : List Char) : Option (Ipv6Addr × List Char) :=
  let (head, headIpv4, cs) := readGroups 8 0 cs
  if head.length = 8 then some (.fill head [], cs)
  else if headIpv4 then none
  else do
    let cs ← readGivenChar ':' cs
    let cs ← readGivenChar ':' cs
    let (tail, _, cs) := readGroups (8 - (head.length + 1)) 0 cs
    return (.fill head tail, cs)

def readIpAddr (cs : List Char) : Option (IpAddr × List Char) :=
  match readIpv4Addr cs with
  | some (v4, cs) => some (.v4 v4, cs)
  | none => (readIpv6Addr cs).map fun (v6, cs) => (.v6 v6, cs)

/-- `str::parse::<IpAddr>`: the whole text is read. -/
def parse (s : String) : Option IpAddr :=
  match readIpAddr s.toList with
  | some (address, []) => some address
  | _ => none

/-! ## Blocks -/

/-- The addresses of `width` bits that agree with a base in their first bits. -/
structure Block (width : ℕ) where
  base : ℕ
  prefixLength : ℕ

def Block.Contains {width : ℕ} (block : Block width) (value : ℕ) : Prop :=
  value / 2 ^ (width - block.prefixLength) = block.base / 2 ^ (width - block.prefixLength)

/-- The dotted decimal base of a block. -/
def ipv4Base (a b c d : ℕ) : ℕ := ((a * 256 + b) * 256 + c) * 256 + d

/-- RFC 1918, loopback, link-local and unspecified. -/
def restrictedIpv4 : List (Block 32) :=
  [⟨ipv4Base 10 0 0 0, 8⟩, ⟨ipv4Base 172 16 0 0, 12⟩, ⟨ipv4Base 192 168 0 0, 16⟩,
    ⟨ipv4Base 127 0 0 0, 8⟩, ⟨ipv4Base 169 254 0 0, 16⟩, ⟨0, 32⟩]

/-- Loopback, unspecified, unique-local and unicast link-local. -/
def restrictedIpv6 : List (Block 128) :=
  [⟨1, 128⟩, ⟨0, 128⟩, ⟨0xfc00 * 2 ^ 112, 7⟩, ⟨0xfe80 * 2 ^ 112, 10⟩]

/-- The address is in a restricted block. -/
def IpAddr.Restricted : IpAddr → Prop
  | .v4 address => ∃ block ∈ restrictedIpv4, block.Contains address.value
  | .v6 address => ∃ block ∈ restrictedIpv6, block.Contains address.value

theorem Ipv4Addr.restricted_iff (address : Ipv4Addr) : (IpAddr.v4 address).Restricted ↔
    (address.isPrivate || address.isLoopback || address.isLinkLocal || address.isUnspecified) = true := by
  obtain ⟨a, b, c, d⟩ := address
  have hb := b.toNat_lt
  have hc := c.toNat_lt
  have hd := d.toNat_lt
  -- the first bits of the address
  have h8 : (⟨a, b, c, d⟩ : Ipv4Addr).value / 2 ^ 24 = a.toNat := by
    unfold value
    dsimp only
    omega
  have h12 : (⟨a, b, c, d⟩ : Ipv4Addr).value / 2 ^ 20 = a.toNat * 16 + b.toNat / 16 := by
    unfold value
    dsimp only
    omega
  have h16 : (⟨a, b, c, d⟩ : Ipv4Addr).value / 2 ^ 16 = a.toNat * 256 + b.toNat := by
    unfold value
    dsimp only
    omega
  have h32 : (⟨a, b, c, d⟩ : Ipv4Addr).value / 1 = 0 ↔
      a.toNat = 0 ∧ b.toNat = 0 ∧ c.toNat = 0 ∧ d.toNat = 0 := by
    unfold value
    dsimp only
    omega
  have hten : a.toNat = 10 ↔ a = 10 := by rw [← UInt8.toNat_inj]; rfl
  have hprivate : a.toNat * 16 + b.toNat / 16 = 2753 ↔ a = 172 ∧ 16 ≤ b ∧ b ≤ 31 := by
    rw [← UInt8.toNat_inj, UInt8.le_iff_toNat_le, UInt8.le_iff_toNat_le]
    simp only [UInt8.reduceToNat]
    omega
  have hpair : ∀ x y : UInt8, a.toNat * 256 + b.toNat = x.toNat * 256 + y.toNat ↔ a = x ∧ b = y := by
    intro x y
    have hy := y.toNat_lt
    rw [← UInt8.toNat_inj, ← UInt8.toNat_inj]
    omega
  have hloopback : a.toNat = 127 ↔ a = 127 := by rw [← UInt8.toNat_inj]; rfl
  have hzero : ∀ x : UInt8, x.toNat = 0 ↔ x = 0 := by
    intro x
    rw [← UInt8.toNat_inj]
    rfl
  have h192 : a.toNat * 256 + b.toNat = 49320 ↔ a = 192 ∧ b = 168 := hpair 192 168
  have h169 : a.toNat * 256 + b.toNat = 43518 ↔ a = 169 ∧ b = 254 := hpair 169 254
  simp only [IpAddr.Restricted, restrictedIpv4, List.mem_cons, List.not_mem_nil, or_false,
    exists_eq_or_imp, exists_eq_left, Block.Contains, ipv4Base, Nat.reduceSub, h8, h12, h16,
    isPrivate, isLoopback, isLinkLocal, isUnspecified, Bool.or_eq_true, Bool.and_eq_true,
    beq_iff_eq, decide_eq_true_eq, Ipv4Addr.mk.injEq]
  norm_num only [h192, h169, h32, hten, hprivate, hloopback, hzero, or_assoc, and_assoc]

/-- Keeping the high bits of a number drops the rest. -/
theorem and_high {x k : ℕ} (hx : x < 2 ^ 16) (hk : k ≤ 16) : x &&& (2 ^ 16 - 2 ^ k) = x / 2 ^ k * 2 ^ k := by
  have hmask : 2 ^ 16 - 2 ^ k = (2 ^ (16 - k) - 1) * 2 ^ k := by
    rw [Nat.sub_mul, ← Nat.pow_add, Nat.sub_add_cancel hk, Nat.one_mul]
  rw [hmask, ← Nat.shiftLeft_eq, ← Nat.shiftLeft_eq, ← Nat.shiftRight_eq_div_pow]
  refine Nat.eq_of_testBit_eq fun i => ?_
  rw [Nat.testBit_and, Nat.testBit_shiftLeft, Nat.testBit_shiftLeft, Nat.testBit_two_pow_sub_one,
    Nat.testBit_shiftRight]
  by_cases hik : k ≤ i
  · by_cases hi : i < 16
    · have hbit : i - k < 16 - k := by omega
      simp [hik, hbit, Nat.add_sub_cancel' hik]
    · have hbit : x.testBit i = false :=
        Nat.testBit_lt_two_pow (lt_of_lt_of_le hx (Nat.pow_le_pow_right (by decide) (by omega)))
      simp [hik, hbit, Nat.add_sub_cancel' hik]
  · simp [hik]

theorem and_mask_eq_iff {x mask base : UInt16} {k : ℕ} (hk : k ≤ 16) (hmask : mask.toNat = 2 ^ 16 - 2 ^ k) :
    x &&& mask = base ↔ x.toNat / 2 ^ k * 2 ^ k = base.toNat := by
  rw [← UInt16.toNat_inj, UInt16.toNat_and, hmask, and_high x.toNat_lt hk]

theorem Ipv6Addr.restricted_iff (address : Ipv6Addr) : (IpAddr.v6 address).Restricted ↔
    (address.isLoopback || address.isUnspecified || address.isUniqueLocal ||
      address.isUnicastLinkLocal) = true := by
  obtain ⟨segments, hlength⟩ := address
  match segments, hlength with
  | [s0, s1, s2, s3, s4, s5, s6, s7], _ =>
    have h0 := s0.toNat_lt
    have h1 := s1.toNat_lt
    have h2 := s2.toNat_lt
    have h3 := s3.toNat_lt
    have h4 := s4.toNat_lt
    have h5 := s5.toNat_lt
    have h6 := s6.toNat_lt
    have h7 := s7.toNat_lt
    obtain ⟨low, hlow, hvalue⟩ : ∃ low, low < 2 ^ 112 ∧
        (⟨[s0, s1, s2, s3, s4, s5, s6, s7], rfl⟩ : Ipv6Addr).value = s0.toNat * 2 ^ 112 + low := by
      refine ⟨s1.toNat * 2 ^ 96 + s2.toNat * 2 ^ 80 + s3.toNat * 2 ^ 64 + s4.toNat * 2 ^ 48 +
        s5.toNat * 2 ^ 32 + s6.toNat * 2 ^ 16 + s7.toNat, by omega, ?_⟩
      unfold value
      simp only [List.foldl_cons, List.foldl_nil]
      omega
    have h7 : (⟨[s0, s1, s2, s3, s4, s5, s6, s7], rfl⟩ : Ipv6Addr).value / 2 ^ 121 = s0.toNat / 2 ^ 9 := by
      rw [hvalue]
      omega
    have h10 : (⟨[s0, s1, s2, s3, s4, s5, s6, s7], rfl⟩ : Ipv6Addr).value / 2 ^ 118 = s0.toNat / 2 ^ 6 := by
      rw [hvalue]
      omega
    have hall : ∀ n < 2, (⟨[s0, s1, s2, s3, s4, s5, s6, s7], rfl⟩ : Ipv6Addr).value = n ↔
        s0.toNat = 0 ∧ s1.toNat = 0 ∧ s2.toNat = 0 ∧ s3.toNat = 0 ∧ s4.toNat = 0 ∧ s5.toNat = 0 ∧
          s6.toNat = 0 ∧ s7.toNat = n := by
      intro n hn
      unfold value
      simp only [List.foldl_cons, List.foldl_nil]
      omega
    have hlocal : s0.toNat / 512 = 126 ↔ s0 &&& 0xfe00 = 0xfc00 := by
      rw [and_mask_eq_iff (k := 9) (by decide) rfl]
      simp only [UInt16.reduceToNat]
      omega
    have hlink : s0.toNat / 64 = 1018 ↔ s0 &&& 0xffc0 = 0xfe80 := by
      rw [and_mask_eq_iff (k := 6) (by decide) rfl]
      simp only [UInt16.reduceToNat]
      omega
    have hgroup : ∀ (x : UInt16) (n : ℕ), n < 2 → (x.toNat = n ↔ x = .ofNat n) := by
      intro x n hn
      rw [← UInt16.toNat_inj, UInt16.toNat_ofNat_of_lt' (lt_trans hn (by decide))]
    have hloopback : (⟨[s0, s1, s2, s3, s4, s5, s6, s7], rfl⟩ : Ipv6Addr).value / 1 = 1 ↔
        s0 = 0 ∧ s1 = 0 ∧ s2 = 0 ∧ s3 = 0 ∧ s4 = 0 ∧ s5 = 0 ∧ s6 = 0 ∧ s7 = 1 := by
      rw [Nat.div_one, hall 1 (by omega)]
      simp only [hgroup _ _ (show 0 < 2 by omega), hgroup _ _ (show 1 < 2 by omega)]
      rfl
    have hunspecified : (⟨[s0, s1, s2, s3, s4, s5, s6, s7], rfl⟩ : Ipv6Addr).value / 1 = 0 ↔
        s0 = 0 ∧ s1 = 0 ∧ s2 = 0 ∧ s3 = 0 ∧ s4 = 0 ∧ s5 = 0 ∧ s6 = 0 ∧ s7 = 0 := by
      rw [Nat.div_one, hall 0 (by omega)]
      simp only [hgroup _ _ (show 0 < 2 by omega)]
      rfl
    simp only [IpAddr.Restricted, restrictedIpv6, List.mem_cons, List.not_mem_nil, or_false,
      exists_eq_or_imp, exists_eq_left, Block.Contains, Nat.reduceSub, h7, h10, isLoopback, isUnspecified,
      isUniqueLocal, isUnicastLinkLocal, List.headD_cons, Bool.or_eq_true, beq_iff_eq, List.cons.injEq,
      and_true]
    norm_num only [hloopback, hunspecified, hlocal, hlink, or_assoc]

/-! ## Reading what is displayed -/

/-- The decimal spelling of an octet. -/
theorem digits_octet : ∀ n : Fin 256, (Nat.toDigits 10 n).all (isDigit 10) = true ∧
    (Nat.toDigits 10 n).foldl (fun n c => n * 10 + (toDigit 10 c).getD 0) 0 = n ∧
    (Nat.toDigits 10 n).length ≠ 0 ∧ (Nat.toDigits 10 n).length ≤ 3 ∧
    ((Nat.toDigits 10 n).head? = some '0' → (Nat.toDigits 10 n).length ≤ 1) := by
  decide +kernel

theorem readOctet_toDigits {n : ℕ} (hn : n < 256) {rest : List Char}
    (hrest : rest.takeWhile (isDigit 10) = []) : readOctet (Nat.toDigits 10 n ++ rest) = some (n, rest) := by
  obtain ⟨hdigits, hvalue, hne, hlength, hzero⟩ := digits_octet ⟨n, hn⟩
  dsimp only at hdigits hvalue hne hlength hzero
  rw [List.all_eq_true] at hdigits
  have htake : (Nat.toDigits 10 n ++ rest).takeWhile (isDigit 10) = Nat.toDigits 10 n := by
    rw [List.takeWhile_append_of_pos hdigits, hrest, List.append_nil]
  have hdrop : (Nat.toDigits 10 n ++ rest).dropWhile (isDigit 10) = rest := by
    rw [List.dropWhile_append_of_pos hdigits]
    have hsplit := List.takeWhile_append_dropWhile (p := isDigit 10) (l := rest)
    rwa [hrest, List.nil_append] at hsplit
  have hhead : (Nat.toDigits 10 n ++ rest).head? = (Nat.toDigits 10 n).head? :=
    List.head?_append_of_ne_nil _ fun hnil => hne (by rw [hnil]; rfl)
  unfold readOctet readNumber
  rw [htake, hdrop, hhead]
  dsimp only
  rw [hvalue, if_neg (by simpa using hlength), if_neg, if_pos hn]
  simpa using hzero

theorem readGivenChar_cons (c : Char) (cs : List Char) : readGivenChar c (c :: cs) = some cs := if_pos rfl

/-- Four octets with full stops between them. -/
theorem readIpv4Addr_display (address : Ipv4Addr) {rest : List Char}
    (hrest : rest.takeWhile (isDigit 10) = []) :
    readIpv4Addr (address.display.toList ++ rest) = some (address, rest) := by
  have hsplit : address.display.toList ++ rest = Nat.toDigits 10 address.a.toNat ++ '.' ::
      (Nat.toDigits 10 address.b.toNat ++ '.' :: (Nat.toDigits 10 address.c.toNat ++ '.' ::
        (Nat.toDigits 10 address.d.toNat ++ rest))) := by
    unfold Ipv4Addr.display
    simp [String.toList_append]
  have hdot : ∀ cs : List Char, ('.' :: cs).takeWhile (isDigit 10) = [] := fun cs => rfl
  have ha := readOctet_toDigits address.a.toNat_lt (hdot (Nat.toDigits 10 address.b.toNat ++ '.' ::
    (Nat.toDigits 10 address.c.toNat ++ '.' :: (Nat.toDigits 10 address.d.toNat ++ rest))))
  have hb := readOctet_toDigits address.b.toNat_lt (hdot (Nat.toDigits 10 address.c.toNat ++ '.' ::
    (Nat.toDigits 10 address.d.toNat ++ rest)))
  have hc := readOctet_toDigits address.c.toNat_lt (hdot (Nat.toDigits 10 address.d.toNat ++ rest))
  have hd := readOctet_toDigits address.d.toNat_lt hrest
  rw [hsplit]
  unfold readIpv4Addr readSeparator
  simp [ha, hb, hc, hd, readGivenChar_cons]

/-- **An IPv4 address is read back from its dotted decimal form.** -/
theorem parse_display (address : Ipv4Addr) : parse address.display = some (.v4 address) := by
  have hread : readIpv4Addr (address.display.toList ++ []) = some (address, []) :=
    readIpv4Addr_display address rfl
  rw [List.append_nil] at hread
  unfold parse readIpAddr
  rw [hread]

/-- **Nothing that starts with a bracket is an address.** -/
theorem parse_bracket (s : String) : parse ("[" ++ s) = none := by
  have hlist : ("[" ++ s).toList = '[' :: s.toList := by
    rw [String.toList_append]
    rfl
  have hipv4 : readIpv4Addr ('[' :: s.toList) = none := rfl
  have hgroups : readGroups 8 0 ('[' :: s.toList) = ([], false, '[' :: s.toList) := rfl
  unfold parse readIpAddr readIpv6Addr
  rw [hlist, hipv4, hgroups]
  rfl

example : parse "::ffff:1.2.3.4" = some (.v6 ⟨[0, 0, 0, 0, 0, 0xffff, 0x102, 0x304], rfl⟩) := by decide

end Net
