import GeminiWorker.Lib.TextSearch

/-!
# Numbers in text

* `parseUnsigned`: an unsigned number below a bound, as it is read.
* `parseUnsigned_toString`: what is written is read back.
-/

namespace Text

/-- `str::parse` for an unsigned type with `size` values. A sign may stand before the digits. -/
def parseUnsigned (size : ℕ) (s : String) : Option ℕ :=
  let digits := match s.toList with
    | '+' :: digits => digits
    | digits => digits
  if digits = [] ∨ digits.all Char.isDigit = false then none
  else if Nat.ofDigitChars 10 digits 0 < size then some (Nat.ofDigitChars 10 digits 0) else none

theorem toList_toString (n : ℕ) : (toString n).toList = Nat.toDigits 10 n := Nat.toList_repr

theorem isDigit_of_mem_toString {n : ℕ} {c : Char} (h : c ∈ (toString n).toList) : c.isDigit = true := by
  rw [toList_toString] at h
  exact Nat.isDigit_of_mem_toDigits (by omega) le_rfl h

theorem toString_ne_empty (n : ℕ) : toString n ≠ "" := by
  intro h
  have hchars : Nat.toDigits 10 n = [] := by rw [← toList_toString, h, String.toList_empty]
  exact Nat.toDigits_ne_nil hchars

/-- **What is written is read back.** -/
theorem parseUnsigned_toString {size n : ℕ} (h : n < size) : parseUnsigned size (toString n) = some n := by
  have hdigits : (toString n).toList.all Char.isDigit = true :=
    List.all_eq_true.mpr fun c hc => isDigit_of_mem_toString hc
  have hsign : (match (toString n).toList with
      | '+' :: digits => digits
      | digits => digits) = (toString n).toList := by
    split
    · rename_i digits heq
      have hplus := isDigit_of_mem_toString (n := n) (c := '+') (heq ▸ List.mem_cons_self)
      exact absurd hplus (by decide)
    · rfl
  unfold parseUnsigned
  rw [hsign]
  dsimp only
  rw [if_neg, toList_toString, Nat.ofDigitChars_ten_toDigits, if_pos h]
  rintro (hnil | hall)
  · rw [toList_toString] at hnil
    exact Nat.toDigits_ne_nil hnil
  · rw [hdigits] at hall
    cases hall

/-- A digit is neither white space nor a letter. -/
theorem toAsciiLower_digit {c : Char} (h : c.isDigit = true) : isWhitespace c = false ∧ toAsciiLower c = c := by
  have hrange : 48 ≤ c.toNat ∧ c.toNat ≤ 57 := by
    simp only [Char.isDigit, Bool.and_eq_true, decide_eq_true_eq, ge_iff_le, UInt32.le_iff_toNat_le] at h
    exact h
  constructor
  · simp only [isWhitespace, Bool.or_eq_false_iff, Bool.and_eq_false_iff, decide_eq_false_iff_not, beq_eq_false_iff_ne]
    omega
  · have hletter : ¬ ('A' ≤ c ∧ c ≤ 'Z') := by
      rintro ⟨hle, -⟩
      have hnat : 65 ≤ c.toNat := UInt32.le_iff_toNat_le.mp hle
      omega
    rw [toAsciiLower, if_neg hletter]

theorem trimmed_toString (n : ℕ) : Trimmed (toString n) := by
  rw [trimmed_iff]
  refine ⟨fun c hc => ?_, fun c hc => ?_⟩
  · exact (toAsciiLower_digit (isDigit_of_mem_toString (List.mem_of_mem_head? hc))).1
  · exact (toAsciiLower_digit (isDigit_of_mem_toString (List.mem_of_getLast? hc))).1

theorem toAsciiLowercase_toString (n : ℕ) : toAsciiLowercase (toString n) = toString n := by
  have hmap : (toString n).toList.map toAsciiLower = (toString n).toList := by
    refine (List.map_congr_left fun c hc => ?_).trans (List.map_id _)
    exact (toAsciiLower_digit (isDigit_of_mem_toString hc)).2
  rw [toAsciiLowercase, hmap, String.ofList_toList]

end Text
