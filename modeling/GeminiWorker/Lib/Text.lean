import Mathlib.Algebra.GroupWithZero.Nat
import Mathlib.Data.List.DropRight
import Mathlib.Data.List.Infix
import Mathlib.Data.Nat.Notation

/-!
# Text operations

The string operations of the Rust standard library that the proxy uses, over the
characters of a `String`: trimming Unicode whitespace, ASCII case folding,
splitting at a separator, prefixes and substrings, and the UTF-8 bytes of a text.

* `fromUtf8Lossy`: the lossy decoding of arbitrary bytes, one replacement
  character for each maximal ill-formed subsequence.
* `fromUtf8Lossy_bytes`: text is decoded from its bytes.
-/

namespace Text

/-- Unicode `White_Space`, what `char::is_whitespace` tests. -/
def isWhitespace (c : Char) : Bool :=
  let n := c.toNat
  (0x09 ≤ n && n ≤ 0x0D) || n == 0x20 || n == 0x85 || n == 0xA0 || n == 0x1680 ||
    (0x2000 ≤ n && n ≤ 0x200A) || n == 0x2028 || n == 0x2029 || n == 0x202F || n == 0x205F ||
    n == 0x3000

/-- `str::trim`. -/
def trim (s : String) : String :=
  String.ofList ((s.toList.dropWhile isWhitespace).rdropWhile isWhitespace)

/-- `str::trim_start`. -/
def trimStart (s : String) : String := String.ofList (s.toList.dropWhile isWhitespace)

/-- `str::trim_start_matches` with a character. -/
def trimStartMatches (sep : Char) (s : String) : String := String.ofList (s.toList.dropWhile (· == sep))

/-- `str::trim_end_matches` with a character. -/
def trimEndMatches (sep : Char) (s : String) : String := String.ofList (s.toList.rdropWhile (· == sep))

/-- `str::trim_matches` with a character. -/
def trimMatches (sep : Char) (s : String) : String := trimEndMatches sep (trimStartMatches sep s)

/-- `char::to_ascii_lowercase`. -/
def toAsciiLower (c : Char) : Char :=
  if 'A' ≤ c ∧ c ≤ 'Z' then Char.ofNat (c.toNat + 32) else c

/-- `str::to_ascii_lowercase`. -/
def toAsciiLowercase (s : String) : String := String.ofList (s.toList.map toAsciiLower)

/-- `str::to_ascii_uppercase`. -/
def toAsciiUppercase (s : String) : String :=
  String.ofList (s.toList.map fun c => if 'a' ≤ c ∧ c ≤ 'z' then Char.ofNat (c.toNat - 32) else c)

/-- `str::eq_ignore_ascii_case`. -/
def eqIgnoreAsciiCase (s t : String) : Bool := toAsciiLowercase s == toAsciiLowercase t

/-- `str::contains` for a character. -/
def containsChar (sep : Char) (s : String) : Bool := decide (sep ∈ s.toList)

/-- `str::contains` for a text. -/
def contains (needle s : String) : Bool := decide (needle.toList <:+: s.toList)

/-- `str::split_once` at the first occurrence of a character. -/
def splitOnce (sep : Char) (s : String) : Option (String × String) :=
  if containsChar sep s then
    some (String.ofList (s.toList.takeWhile (· != sep)),
      String.ofList (s.toList.dropWhile (· != sep)).tail)
  else none

/-- `str::split` at a character. -/
def split (sep : Char) (s : String) : List String := (s.toList.splitOn sep).map String.ofList

/-- `str::lines`: a line ends at a newline, with a carriage return before it or not; what follows the last
newline is a line unless it is empty. -/
def lines (s : String) : List String :=
  let parts := s.toList.splitOn '\n'
  let last := parts.getLast?.getD []
  let ended := parts.dropLast.map fun part => if part.getLast? = some '\r' then part.dropLast else part
  (ended ++ if last = [] then [] else [last]).map String.ofList

example : lines "a\r\n\nb\rc\nd\r" = ["a", "", "b\rc", "d\r"] := by decide +kernel

/-- `str::starts_with`. -/
def startsWith (pre s : String) : Bool := pre.toList.isPrefixOf s.toList

/-- `str::ends_with`. -/
def endsWith (suf s : String) : Bool := suf.toList.isSuffixOf s.toList

/-- `str::strip_prefix`. -/
def stripPrefix (pre s : String) : Option String :=
  if startsWith pre s then some (String.ofList (s.toList.drop pre.length)) else none

/-- `str::strip_suffix`. -/
def stripSuffix (suf s : String) : Option String :=
  if endsWith suf s then some (String.ofList (s.toList.take (s.length - suf.length))) else none

/-- `join` of texts. -/
def join (sep : String) (texts : List String) : String := String.ofList (sep.toList.intercalate (texts.map String.toList))

/-- `str::as_bytes`. -/
def bytes (s : String) : List UInt8 := s.toList.flatMap String.utf8EncodeChar

theorem bytes_append (s t : String) : bytes (s ++ t) = bytes s ++ bytes t := by
  simp [bytes, String.toList_append]

theorem bytes_ofList_append (cs ds : List Char) :
    bytes (String.ofList (cs ++ ds)) = bytes (String.ofList cs) ++ bytes (String.ofList ds) := by
  simp [bytes]

/-! ## Lossy decoding -/

/-- A UTF-8 continuation byte. -/
def isTail (b : UInt8) : Bool := 0x80 ≤ b && b ≤ 0xBF

/-- The second byte admitted after a three-byte lead. -/
def isSecond3 (b0 b1 : UInt8) : Bool :=
  (b0 == 0xE0 && 0xA0 ≤ b1 && b1 ≤ 0xBF) || (0xE1 ≤ b0 && b0 ≤ 0xEC && isTail b1) ||
    (b0 == 0xED && 0x80 ≤ b1 && b1 ≤ 0x9F) || (0xEE ≤ b0 && b0 ≤ 0xEF && isTail b1)

/-- The second byte admitted after a four-byte lead. -/
def isSecond4 (b0 b1 : UInt8) : Bool :=
  (b0 == 0xF0 && 0x90 ≤ b1 && b1 ≤ 0xBF) || (0xF1 ≤ b0 && b0 ≤ 0xF3 && isTail b1) ||
    (b0 == 0xF4 && 0x80 ≤ b1 && b1 ≤ 0x8F)

/-- The six payload bits of a continuation byte. -/
def tailBits (b : UInt8) : ℕ := b.toNat % 64

/-- `String::from_utf8_lossy`: each maximal prefix of a well-formed sequence that
cannot be continued becomes one replacement character. -/
def lossyChars : List UInt8 → List Char
  | [] => []
  | b0 :: rest =>
    if b0 < 0x80 then Char.ofNat b0.toNat :: lossyChars rest
    else if 0xC2 ≤ b0 && b0 ≤ 0xDF then
      match rest with
      | b1 :: rest1 =>
        if isTail b1 then Char.ofNat (b0.toNat % 32 * 64 + tailBits b1) :: lossyChars rest1
        else '\uFFFD' :: lossyChars (b1 :: rest1)
      | [] => ['\uFFFD']
    else if 0xE0 ≤ b0 && b0 ≤ 0xEF then
      match rest with
      | b1 :: rest1 =>
        if isSecond3 b0 b1 then
          match rest1 with
          | b2 :: rest2 =>
            if isTail b2 then
              Char.ofNat (b0.toNat % 16 * 4096 + tailBits b1 * 64 + tailBits b2) :: lossyChars rest2
            else '\uFFFD' :: lossyChars (b2 :: rest2)
          | [] => ['\uFFFD']
        else '\uFFFD' :: lossyChars (b1 :: rest1)
      | [] => ['\uFFFD']
    else if 0xF0 ≤ b0 && b0 ≤ 0xF4 then
      match rest with
      | b1 :: rest1 =>
        if isSecond4 b0 b1 then
          match rest1 with
          | b2 :: rest2 =>
            if isTail b2 then
              match rest2 with
              | b3 :: rest3 =>
                if isTail b3 then
                  Char.ofNat (b0.toNat % 8 * 262144 + tailBits b1 * 4096 + tailBits b2 * 64 +
                    tailBits b3) :: lossyChars rest3
                else '\uFFFD' :: lossyChars (b3 :: rest3)
              | [] => ['\uFFFD']
            else '\uFFFD' :: lossyChars (b2 :: rest2)
          | [] => ['\uFFFD']
        else '\uFFFD' :: lossyChars (b1 :: rest1)
      | [] => ['\uFFFD']
    else '\uFFFD' :: lossyChars rest

/-- `String::from_utf8_lossy`. -/
def fromUtf8Lossy (bs : List UInt8) : String := String.ofList (lossyChars bs)

example : fromUtf8Lossy (bytes "输入 a" ++ [0xE4, 0xB8, 0x41, 0xFF]) = "输入 a\uFFFDA\uFFFD" := by
  decide +kernel

/-! ## Decoding what is well formed -/

theorem toNat_ofNat {n : ℕ} (hn : n < 256) : (UInt8.ofNat n).toNat = n := UInt8.toNat_ofNat_of_lt' hn

theorem isTail_iff {b : UInt8} : isTail b = true ↔ 0x80 ≤ b.toNat ∧ b.toNat ≤ 0xBF := by
  simp only [isTail, Bool.and_eq_true, decide_eq_true_eq, UInt8.le_iff_toNat_le, UInt8.reduceToNat]

theorem lossyChars_one {b0 : UInt8} (h : b0.toNat < 0x80) (rest : List UInt8) :
    lossyChars (b0 :: rest) = Char.ofNat b0.toNat :: lossyChars rest := by
  have hascii : b0 < 0x80 := by rwa [UInt8.lt_iff_toNat_lt]
  rw [lossyChars.eq_def]
  exact if_pos hascii

theorem lossyChars_two {b0 b1 : UInt8} (hlow : 0xC2 ≤ b0.toNat) (hhigh : b0.toNat ≤ 0xDF)
    (h1 : isTail b1 = true) (rest : List UInt8) :
    lossyChars (b0 :: b1 :: rest) =
      Char.ofNat (b0.toNat % 32 * 64 + tailBits b1) :: lossyChars rest := by
  have hascii : ¬ b0 < 0x80 := by
    simp only [UInt8.lt_iff_toNat_lt, UInt8.reduceToNat]
    omega
  have hlead : (0xC2 ≤ b0 && b0 ≤ 0xDF) = true := by
    simp only [Bool.and_eq_true, decide_eq_true_eq, UInt8.le_iff_toNat_le, UInt8.reduceToNat]
    omega
  rw [lossyChars.eq_def]
  dsimp only
  rw [if_neg hascii, if_pos hlead, if_pos h1]

theorem lossyChars_three {b0 b1 b2 : UInt8} (hlow : 0xE0 ≤ b0.toNat) (hhigh : b0.toNat ≤ 0xEF)
    (h1 : isSecond3 b0 b1 = true) (h2 : isTail b2 = true) (rest : List UInt8) :
    lossyChars (b0 :: b1 :: b2 :: rest) =
      Char.ofNat (b0.toNat % 16 * 4096 + tailBits b1 * 64 + tailBits b2) :: lossyChars rest := by
  have hascii : ¬ b0 < 0x80 := by
    simp only [UInt8.lt_iff_toNat_lt, UInt8.reduceToNat]
    omega
  have htwo : ¬ (0xC2 ≤ b0 && b0 ≤ 0xDF) = true := by
    simp only [Bool.and_eq_true, decide_eq_true_eq, UInt8.le_iff_toNat_le, UInt8.reduceToNat]
    omega
  have hlead : (0xE0 ≤ b0 && b0 ≤ 0xEF) = true := by
    simp only [Bool.and_eq_true, decide_eq_true_eq, UInt8.le_iff_toNat_le, UInt8.reduceToNat]
    omega
  rw [lossyChars.eq_def]
  dsimp only
  rw [if_neg hascii, if_neg htwo, if_pos hlead, if_pos h1, if_pos h2]

theorem lossyChars_four {b0 b1 b2 b3 : UInt8} (hlow : 0xF0 ≤ b0.toNat) (hhigh : b0.toNat ≤ 0xF4)
    (h1 : isSecond4 b0 b1 = true) (h2 : isTail b2 = true) (h3 : isTail b3 = true) (rest : List UInt8) :
    lossyChars (b0 :: b1 :: b2 :: b3 :: rest) =
      Char.ofNat (b0.toNat % 8 * 262144 + tailBits b1 * 4096 + tailBits b2 * 64 + tailBits b3) ::
        lossyChars rest := by
  have hascii : ¬ b0 < 0x80 := by
    simp only [UInt8.lt_iff_toNat_lt, UInt8.reduceToNat]
    omega
  have htwo : ¬ (0xC2 ≤ b0 && b0 ≤ 0xDF) = true := by
    simp only [Bool.and_eq_true, decide_eq_true_eq, UInt8.le_iff_toNat_le, UInt8.reduceToNat]
    omega
  have hthree : ¬ (0xE0 ≤ b0 && b0 ≤ 0xEF) = true := by
    simp only [Bool.and_eq_true, decide_eq_true_eq, UInt8.le_iff_toNat_le, UInt8.reduceToNat]
    omega
  have hlead : (0xF0 ≤ b0 && b0 ≤ 0xF4) = true := by
    simp only [Bool.and_eq_true, decide_eq_true_eq, UInt8.le_iff_toNat_le, UInt8.reduceToNat]
    omega
  rw [lossyChars.eq_def]
  dsimp only
  rw [if_neg hascii, if_neg htwo, if_neg hthree, if_pos hlead, if_pos h1, if_pos h2, if_pos h3]

/-- The second byte of the encoding of a character of three bytes. -/
theorem isSecond3_ofNat {v : ℕ} (hlow : 0x800 ≤ v) (hvalid : v < 0xD800 ∨ 0xDFFF < v) (hhigh : v ≤ 0xFFFF) :
    isSecond3 (UInt8.ofNat (v / 4096 % 16 + 0xE0)) (UInt8.ofNat (v / 64 % 64 + 0x80)) = true := by
  have h0 : (UInt8.ofNat (v / 4096 % 16 + 0xE0)).toNat = v / 4096 % 16 + 0xE0 :=
    toNat_ofNat (by omega)
  have h1 : (UInt8.ofNat (v / 64 % 64 + 0x80)).toNat = v / 64 % 64 + 0x80 :=
    toNat_ofNat (by omega)
  generalize UInt8.ofNat (v / 4096 % 16 + 0xE0) = b0 at h0
  generalize UInt8.ofNat (v / 64 % 64 + 0x80) = b1 at h1
  unfold isSecond3
  simp only [Bool.or_eq_true, Bool.and_eq_true, decide_eq_true_eq, beq_iff_eq, isTail_iff, UInt8.le_iff_toNat_le,
    ← UInt8.toNat_inj, h0, h1, UInt8.reduceToNat]
  omega

theorem isSecond4_ofNat {v : ℕ} (hlow : 0xFFFF < v) (hhigh : v < 0x110000) :
    isSecond4 (UInt8.ofNat (v / 262144 % 8 + 0xF0)) (UInt8.ofNat (v / 4096 % 64 + 0x80)) = true := by
  have h0 : (UInt8.ofNat (v / 262144 % 8 + 0xF0)).toNat = v / 262144 % 8 + 0xF0 :=
    toNat_ofNat (by omega)
  have h1 : (UInt8.ofNat (v / 4096 % 64 + 0x80)).toNat = v / 4096 % 64 + 0x80 :=
    toNat_ofNat (by omega)
  generalize UInt8.ofNat (v / 262144 % 8 + 0xF0) = b0 at h0
  generalize UInt8.ofNat (v / 4096 % 64 + 0x80) = b1 at h1
  unfold isSecond4
  simp only [Bool.or_eq_true, Bool.and_eq_true, decide_eq_true_eq, beq_iff_eq, isTail_iff, UInt8.le_iff_toNat_le,
    ← UInt8.toNat_inj, h0, h1, UInt8.reduceToNat]
  omega

theorem toNat_ofNat_tail (n : ℕ) : (UInt8.ofNat (n % 64 + 0x80)).toNat = n % 64 + 0x80 :=
  toNat_ofNat (by omega)

theorem isTail_ofNat (n : ℕ) : isTail (UInt8.ofNat (n % 64 + 0x80)) = true := by
  rw [isTail_iff, toNat_ofNat_tail]
  omega

theorem tailBits_ofNat (n : ℕ) : tailBits (UInt8.ofNat (n % 64 + 0x80)) = n % 64 := by
  rw [tailBits, toNat_ofNat_tail]
  omega

/-- The bytes of a character are decoded to it, whatever follows. -/
theorem lossyChars_utf8EncodeChar (c : Char) (rest : List UInt8) :
    lossyChars (String.utf8EncodeChar c ++ rest) = c :: lossyChars rest := by
  have hvalid : c.toNat < 0xD800 ∨ 0xDFFF < c.toNat ∧ c.toNat < 0x110000 := c.valid
  have hc : Char.ofNat c.toNat = c := Char.ofNat_toNat c
  unfold String.utf8EncodeChar
  change lossyChars ((if c.toNat ≤ 0x7f then [UInt8.ofNat c.toNat] else if c.toNat ≤ 0x7ff then
    [UInt8.ofNat (c.toNat / 64 % 32 + 192), UInt8.ofNat (c.toNat % 64 + 128)]
    else if c.toNat ≤ 0xffff then [UInt8.ofNat (c.toNat / 4096 % 16 + 224), UInt8.ofNat (c.toNat / 64 % 64 + 128),
      UInt8.ofNat (c.toNat % 64 + 128)]
    else [UInt8.ofNat (c.toNat / 262144 % 8 + 240), UInt8.ofNat (c.toNat / 4096 % 64 + 128),
      UInt8.ofNat (c.toNat / 64 % 64 + 128), UInt8.ofNat (c.toNat % 64 + 128)]) ++ rest) = _
  generalize c.toNat = v at hvalid hc
  split
  · have h0 : (UInt8.ofNat v).toNat = v := toNat_ofNat (by omega)
    rw [List.singleton_append, lossyChars_one (by omega), h0, hc]
  · split
    · have h0 : (UInt8.ofNat (v / 64 % 32 + 192)).toNat = v / 64 % 32 + 192 := toNat_ofNat (by omega)
      have hv : (v / 64 % 32 + 192) % 32 * 64 + v % 64 = v := by omega
      rw [List.cons_append, List.singleton_append, lossyChars_two (by omega) (by omega) (isTail_ofNat v), h0,
        tailBits_ofNat, hv, hc]
    · split
      · have h0 : (UInt8.ofNat (v / 4096 % 16 + 224)).toNat = v / 4096 % 16 + 224 :=
          toNat_ofNat (by omega)
        have hv : (v / 4096 % 16 + 224) % 16 * 4096 + v / 64 % 64 * 64 + v % 64 = v := by omega
        rw [List.cons_append, List.cons_append, List.singleton_append, lossyChars_three (by omega) (by omega)
          (isSecond3_ofNat (by omega) (by omega) (by omega)) (isTail_ofNat v), h0, tailBits_ofNat, tailBits_ofNat,
          hv, hc]
      · have h0 : (UInt8.ofNat (v / 262144 % 8 + 240)).toNat = v / 262144 % 8 + 240 :=
          toNat_ofNat (by omega)
        have hv : (v / 262144 % 8 + 240) % 8 * 262144 + v / 4096 % 64 * 4096 + v / 64 % 64 * 64 + v % 64 = v := by
          omega
        rw [List.cons_append, List.cons_append, List.cons_append, List.singleton_append,
          lossyChars_four (by omega) (by omega) (isSecond4_ofNat (by omega) (by omega)) (isTail_ofNat _)
            (isTail_ofNat v), h0, tailBits_ofNat, tailBits_ofNat, tailBits_ofNat, hv, hc]

/-- **Text is decoded from its bytes.** -/
theorem fromUtf8Lossy_bytes (s : String) : fromUtf8Lossy (bytes s) = s := by
  have hchars : ∀ cs : List Char, lossyChars (cs.flatMap String.utf8EncodeChar) = cs := by
    intro cs
    induction cs with
    | nil => rfl
    | cons c cs ih => rw [List.flatMap_cons, lossyChars_utf8EncodeChar, ih]
  rw [fromUtf8Lossy, bytes, hchars, String.ofList_toList]

end Text
