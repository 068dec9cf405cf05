import Mathlib.Algebra.GroupWithZero.Nat
import Mathlib.Order.Nat

/-!
# Evicting from the front

Entries go one after the other until a counter of what is left is within a limit. The counter
stops at zero.

* `sum_kept_le` and `lt_sum_rest`: with a right counter the shortest beginning goes with which the rest fits.
* `lt_sum_kept_of_lost`: with a counter that misses more than any entry has, the rest never fits.
-/

namespace Evict

variable {α : Type} (size : α → ℕ) (limit : ℕ)

def evicted : ℕ → List α → List α
  | _, [] => []
  | total, a :: as => if total ≤ limit then [] else a :: evicted (total - size a) as

def kept : ℕ → List α → List α
  | _, [] => []
  | total, a :: as => if total ≤ limit then a :: as else kept (total - size a) as

variable {size limit}

theorem evicted_append_kept (total : ℕ) (as : List α) : evicted size limit total as ++ kept size limit total as = as := by
  induction as generalizing total with
  | nil => rfl
  | cons a as ih =>
    rw [evicted, kept]
    split
    · rfl
    · rw [List.cons_append, ih]

theorem evicted_of_le {total : ℕ} (h : total ≤ limit) (as : List α) : evicted size limit total as = [] := by
  cases as with
  | nil => rfl
  | cons a as => rw [evicted, if_pos h]

theorem kept_of_le {total : ℕ} (h : total ≤ limit) (as : List α) : kept size limit total as = as := by
  cases as with
  | nil => rfl
  | cons a as => rw [kept, if_pos h]

/-- What is kept fits. -/
theorem sum_kept_le (as : List α) : ((kept size limit (as.map size).sum as).map size).sum ≤ limit := by
  induction as with
  | nil => exact Nat.zero_le _
  | cons a as ih =>
    rw [List.map_cons, List.sum_cons, kept]
    split
    · rwa [List.map_cons, List.sum_cons]
    · rw [Nat.add_sub_cancel_left]
      exact ih

/-- **With fewer entries gone the rest does not fit.** -/
theorem lt_sum_rest {as fewer rest : List α} (hsplit : as = fewer ++ rest)
    (hfewer : fewer.length < (evicted size limit (as.map size).sum as).length) : limit < (rest.map size).sum := by
  induction as generalizing fewer with
  | nil => cases hfewer
  | cons a as ih =>
    rw [evicted] at hfewer
    split at hfewer
    · cases hfewer
    · rename_i hover
      rcases fewer with _ | ⟨b, fewer⟩
      · rw [List.nil_append] at hsplit
        rw [← hsplit]
        omega
      · obtain ⟨rfl, hrest⟩ := List.cons.inj hsplit
        rw [List.map_cons, List.sum_cons, Nat.add_sub_cancel_left, List.length_cons, List.length_cons] at hfewer
        exact ih hrest (by omega)

/-- **With a counter that misses more than any entry has, what is kept never fits.** -/
theorem lt_sum_kept_of_lost {lost total : ℕ} {as : List α} (hsize : ∀ a ∈ as, size a < lost) (hlimit : limit < lost)
    (h : total + lost ≤ (as.map size).sum) : limit < ((kept size limit total as).map size).sum := by
  induction as generalizing total with
  | nil =>
    rw [List.map_nil, List.sum_nil] at h
    omega
  | cons a as ih =>
    have ha := hsize a (List.mem_cons_self ..)
    rw [List.map_cons, List.sum_cons] at h
    rw [kept]
    split
    · rw [List.map_cons, List.sum_cons]
      omega
    · by_cases hle : size a ≤ total
      · exact ih (fun b hb => hsize b (List.mem_cons_of_mem _ hb)) (by omega)
      · -- the counter stops at zero, before the entries are gone
        rw [kept_of_le (by omega)]
        omega

end Evict
