import Mathlib.Algebra.GroupWithZero.Nat
import Mathlib.Data.List.Perm.Basic

/-!
# Logs of bounded length

A log has its newest entry in front and drops entries at the back while it has too many.

* `trim_eq_take`: what the loop that drops entries leaves.
* `KeepsTop`: a log that has kept the highest of all entries, in order.
* `keepsTop_take_iff`: it has done so exactly where every entry it keeps is higher than all
  entries behind it, kept or dropped.
-/

namespace BoundedLog

variable {α : Type} {capacity : ℕ} {log all : List α} {higher : α → α → Prop}

/-- Entries go from the back while there are too many. -/
def trim (capacity : ℕ) (log : List α) : List α :=
  if capacity < log.length then trim capacity log.dropLast else log
termination_by log.length
decreasing_by
  rw [List.length_dropLast]
  omega

theorem trim_eq_take (capacity : ℕ) (log : List α) : trim capacity log = log.take capacity := by
  fun_induction trim capacity log with
  | case1 log hfull ih => rw [ih, List.dropLast_eq_take, List.take_take, Nat.min_eq_left (by omega)]
  | case2 log hroom => rw [List.take_of_length_le (Nat.not_lt.mp hroom)]

/-- A new entry in front of a trimmed log, trimmed again. -/
theorem trim_cons_take (capacity : ℕ) (entry : α) (log : List α) :
    trim capacity (entry :: log.take capacity) = (entry :: log).take capacity := by
  rw [trim_eq_take]
  rcases capacity with _ | capacity
  · rfl
  · rw [List.take_succ_cons, List.take_succ_cons, List.take_take, Nat.min_eq_left (Nat.le_succ capacity)]

theorem getElem?_take_eq_some {i : ℕ} {entry : α} :
    (log.take capacity)[i]? = some entry ↔ i < capacity ∧ log[i]? = some entry := by
  rw [List.getElem?_take]
  by_cases hi : i < capacity
  · rw [if_pos hi, and_iff_right hi]
  · rw [if_neg hi]
    exact ⟨nofun, fun hkept => absurd hkept.1 hi⟩

/-- The entries kept are the highest of all, as many as there is room for, in order. -/
structure KeepsTop (higher : α → α → Prop) (capacity : ℕ) (kept all : List α) : Prop where
  length : kept.length = min all.length capacity
  sorted : kept.Pairwise higher
  top : ∃ dropped, all.Perm (kept ++ dropped) ∧ ∀ entry ∈ kept, ∀ entry' ∈ dropped, higher entry entry'

/-- **A trimmed log keeps the top exactly where each entry it keeps is higher than the entries
behind it.** -/
theorem keepsTop_take_iff (hall : all.Perm log) :
    KeepsTop higher capacity (log.take capacity) all ↔
      ∀ i j entry entry', i < j → i < capacity → log[i]? = some entry → log[j]? = some entry' →
        higher entry entry' := by
  constructor
  · rintro ⟨-, hsorted, dropped, hperm, htop⟩ i j entry entry' hij hi hentry hentry'
    -- what the log has dropped is what is not kept
    have hdropped : dropped.Perm (log.drop capacity) := by
      have hlog := hperm.symm.trans hall
      nth_rewrite 2 [← List.take_append_drop capacity log] at hlog
      exact (List.perm_append_left_iff _).mp hlog
    have hkept := getElem?_take_eq_some.mpr ⟨hi, hentry⟩
    by_cases hj : j < capacity
    · have hkept' := getElem?_take_eq_some.mpr ⟨hj, hentry'⟩
      obtain ⟨hlength, rfl⟩ := List.getElem?_eq_some_iff.mp hkept
      obtain ⟨hlength', rfl⟩ := List.getElem?_eq_some_iff.mp hkept'
      exact List.pairwise_iff_getElem.mp hsorted i j hlength hlength' hij
    · apply htop entry (List.mem_of_getElem? hkept) entry' (hdropped.mem_iff.mpr _)
      have hbehind : (log.drop capacity)[j - capacity]? = some entry' := by
        rw [List.getElem?_drop]
        rwa [Nat.add_sub_cancel' (Nat.not_lt.mp hj)]
      exact List.mem_of_getElem? hbehind
  · intro hhigher
    refine ⟨?_, ?_, log.drop capacity, ?_, ?_⟩
    · rw [List.length_take, hall.length_eq, Nat.min_comm]
    · rw [List.pairwise_iff_getElem]
      intro i j hi hj hij
      have hentry := getElem?_take_eq_some.mp (List.getElem?_eq_getElem hi)
      have hentry' := getElem?_take_eq_some.mp (List.getElem?_eq_getElem hj)
      exact hhigher i j _ _ hij hentry.1 hentry.2 hentry'.2
    · rwa [List.take_append_drop]
    · intro entry hentry entry' hentry'
      obtain ⟨i, hi⟩ := List.mem_iff_getElem?.mp hentry
      obtain ⟨j, hj⟩ := List.mem_iff_getElem?.mp hentry'
      rw [List.getElem?_drop] at hj
      obtain ⟨hkept, hi⟩ := getElem?_take_eq_some.mp hi
      exact hhigher i (capacity + j) entry entry' (by omega) hkept hi hj

/-- The same, of the entries in the order in which they were pushed. -/
theorem keepsTop_pushed_iff {pushed : List α} (hall : all.Perm pushed) :
    KeepsTop higher capacity (pushed.reverse.take capacity) all ↔
      ∀ i j entry entry', i < j → pushed.length ≤ j + capacity → pushed[i]? = some entry →
        pushed[j]? = some entry' → higher entry' entry := by
  rw [keepsTop_take_iff (hall.trans (List.reverse_perm pushed).symm)]
  constructor
  · intro hhigher i j entry entry' hij hrecent hentry hentry'
    have hlength := (List.getElem?_eq_some_iff.mp hentry').1
    refine hhigher (pushed.length - 1 - j) (pushed.length - 1 - i) entry' entry (by omega) (by omega) ?_ ?_
    · rw [List.getElem?_reverse (by omega), Nat.sub_sub_self (by omega), hentry']
    · rw [List.getElem?_reverse (by omega), Nat.sub_sub_self (by omega), hentry]
  · intro hhigher i j entry entry' hij hi hentry hentry'
    have hlength := (List.getElem?_eq_some_iff.mp hentry').1
    rw [List.length_reverse] at hlength
    rw [List.getElem?_reverse (by omega)] at hentry hentry'
    exact hhigher (pushed.length - 1 - j) (pushed.length - 1 - i) entry' entry (by omega) (by omega) hentry'
      hentry

end BoundedLog
