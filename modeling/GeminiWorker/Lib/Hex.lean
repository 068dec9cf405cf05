import Mathlib.Algebra.GroupWithZero.Nat
import Mathlib.Data.List.Basic
import Mathlib.Data.Nat.Basic
import Mathlib.Logic.Function.Basic

/-!
# Hexadecimal text

Bytes written with two digits each, and that nothing else is written.
-/

namespace Hex

def encodeByte (b : UInt8) : List Char := [Nat.digitChar (b.toNat / 16), Nat.digitChar (b.toNat % 16)]

/-- `hex::encode`. -/
def encode (bytes : List UInt8) : String := String.ofList (bytes.flatMap encodeByte)

example : encode [0, 31, 171, 255] = "001fabff" := by decide

/-- The value of a digit. -/
def digitValue (c : Char) : ℕ := if c.isDigit then c.toNat - 48 else c.toNat - 87

theorem digitValue_digitChar : ∀ n < 16, digitValue (Nat.digitChar n) = n := by decide

theorem isAlphanum_digitChar : ∀ n < 16, (Nat.digitChar n).isAlphanum = true := by decide

theorem encodeByte_inj {b b' : UInt8} (h : encodeByte b = encodeByte b') : b = b' := by
  have hb := b.toNat_lt
  have hb' := b'.toNat_lt
  simp only [encodeByte, List.cons.injEq, and_true] at h
  have hhigh := congrArg digitValue h.1
  have hlow := congrArg digitValue h.2
  rw [digitValue_digitChar _ (by omega), digitValue_digitChar _ (by omega)] at hhigh hlow
  exact UInt8.toNat_inj.mp (by omega)

theorem encode_injective : Function.Injective encode := by
  intro bytes bytes' h
  have htext := String.ofList_injective h
  clear h
  induction bytes generalizing bytes' with
  | nil =>
    rcases bytes' with _ | ⟨b', bytes'⟩
    · rfl
    · cases htext
  | cons b bytes ih =>
    rcases bytes' with _ | ⟨b', bytes'⟩
    · cases htext
    · rw [List.flatMap_cons, List.flatMap_cons] at htext
      obtain ⟨hbyte, hrest⟩ := List.append_inj htext rfl
      rw [encodeByte_inj hbyte, ih hrest]

theorem isAlphanum_of_mem_encode {bytes : List UInt8} {c : Char} (hc : c ∈ (encode bytes).toList) :
    c.isAlphanum = true := by
  rw [encode, String.toList_ofList, List.mem_flatMap] at hc
  obtain ⟨b, -, hb⟩ := hc
  have hlt := b.toNat_lt
  rcases List.mem_pair.mp hb with rfl | rfl
  · exact isAlphanum_digitChar _ (by omega)
  · exact isAlphanum_digitChar _ (by omega)

end Hex
