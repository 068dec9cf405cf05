import Mathlib.Algebra.GroupWithZero.Nat
import Mathlib.Data.List.Basic

/-!
# Readers

An asynchronous reader delivers its contents in pieces of its own choosing: each read
returns between one byte and the length of the buffer, and nothing at the end.
-/

/-- How a reader with a buffer of `n` bytes splits what it delivers. -/
structure Reader (n : ℕ) where
  split : List UInt8 → List (List UInt8)
  flatten_split : ∀ bytes, (split bytes).flatten = bytes
  ne_nil_of_mem_split : ∀ bytes, ∀ piece ∈ split bytes, piece ≠ []
  length_le_of_mem_split : ∀ bytes, ∀ piece ∈ split bytes, piece.length ≤ n

/-- The reader that delivers one byte at a time. -/
def Reader.bytewise {n : ℕ} (hn : 0 < n) : Reader n where
  split bytes := bytes.map fun b => [b]
  flatten_split bytes := by
    induction bytes with
    | nil => rfl
    | cons b bytes ih => rw [List.map_cons, List.flatten_cons, ih]; rfl
  ne_nil_of_mem_split bytes piece h := by
    obtain ⟨b, -, rfl⟩ := List.mem_map.1 h
    exact List.cons_ne_nil _ _
  length_le_of_mem_split bytes piece h := by
    obtain ⟨b, -, rfl⟩ := List.mem_map.1 h
    exact hn
