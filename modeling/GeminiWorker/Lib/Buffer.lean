import Mathlib.Algebra.GroupWithZero.Nat
import Mathlib.Data.List.Basic

/-!
# Buffers of fixed length

A buffer keeps its length. What a slice index or a copy out of its bounds would panic at is
`none` here.

* `Buffer.slice`: the part between two indices.
* `Buffer.write`: a part written over, from an index on.
* `Buffer.take_write`, `Buffer.take_copyWithin`: what stands at the front after a write behind it,
  and after a part was copied there.
-/

structure Buffer (α : Type) (capacity : ℕ) where
  items : List α
  length_items : items.length = capacity

namespace Buffer

variable {α : Type} {capacity : ℕ} (buffer : Buffer α capacity)

def replicate (capacity : ℕ) (item : α) : Buffer α capacity := ⟨.replicate capacity item, List.length_replicate⟩

/-- `&buffer[start..stop]`. -/
def slice (start stop : ℕ) : Option (List α) :=
  if start ≤ stop ∧ stop ≤ capacity then some ((buffer.items.drop start).take (stop - start)) else none

/-- `buffer[start..start + written.len()]` is written over. -/
def write (start : ℕ) (written : List α) : Option (Buffer α capacity) :=
  if h : start + written.length ≤ capacity then
    some ⟨buffer.items.take start ++ written ++ buffer.items.drop (start + written.length), by
      simp only [List.length_append, List.length_take, List.length_drop, buffer.length_items]
      omega⟩
  else none

/-- `buffer.copy_within(start..stop, target)`. -/
def copyWithin (start stop target : ℕ) : Option (Buffer α capacity) :=
  (buffer.slice start stop).bind fun copied => buffer.write target copied

variable {buffer}

theorem slice_of_le {start stop : ℕ} (hstart : start ≤ stop) (hstop : stop ≤ capacity) :
    buffer.slice start stop = some ((buffer.items.drop start).take (stop - start)) := if_pos ⟨hstart, hstop⟩

theorem slice_zero {stop : ℕ} (hstop : stop ≤ capacity) : buffer.slice 0 stop = some (buffer.items.take stop) :=
  slice_of_le (Nat.zero_le stop) hstop

/-- After a write there is what was in front of it, and it. -/
theorem take_write {start : ℕ} {written : List α} (h : start + written.length ≤ capacity) :
    ∃ after : Buffer α capacity, buffer.write start written = some after ∧
      after.items.take (start + written.length) = buffer.items.take start ++ written := by
  refine ⟨_, dif_pos h, ?_⟩
  have hlength : (buffer.items.take start ++ written).length = start + written.length := by
    rw [List.length_append, List.length_take, buffer.length_items]
    omega
  exact List.take_left' hlength

/-- A part that is copied to the front is the front. -/
theorem take_copyWithin {start stop : ℕ} (hstart : start ≤ stop) (hstop : stop ≤ capacity) :
    ∃ after : Buffer α capacity, buffer.copyWithin start stop 0 = some after ∧
      after.items.take (stop - start) = (buffer.items.take stop).drop start := by
  have hlength : ((buffer.items.drop start).take (stop - start)).length = stop - start := by
    rw [List.length_take, List.length_drop, buffer.length_items]
    omega
  obtain ⟨after, hafter, htake⟩ := @take_write α capacity buffer 0
    ((buffer.items.drop start).take (stop - start)) (by omega)
  refine ⟨after, ?_, ?_⟩
  · rw [copyWithin, slice_of_le hstart hstop, Option.bind_some, hafter]
  · rw [Nat.zero_add, hlength, List.take_zero, List.nil_append] at htake
    rw [htake, List.drop_take]

end Buffer
