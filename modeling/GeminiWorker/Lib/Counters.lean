import GeminiWorker.Lib.Transition
import Mathlib.Algebra.BigOperators.Group.List.Basic
import Mathlib.Logic.Function.Basic

/-!
# Counters that are added to

Counters by name, to which parties add one amount after the other. A counter has what was added to it
(`fetchAdd_apply`), and what a party has still to add leaves its list as it goes into the counter
(`added_flatMap_set`), so that the two together stay what they are to be.
-/

namespace Counters

variable {κ α β : Type} [DecidableEq κ] [AddCommMonoid α]

/-- One addition, which is atomic. -/
def fetchAdd (counters : κ → α) (key : κ) (amount : α) : κ → α :=
  Function.update counters key (counters key + amount)

/-- What a list of additions adds to a counter. -/
def added (adds : List (κ × α)) (key : κ) : α := (adds.map fun add => if add.1 = key then add.2 else 0).sum

theorem added_cons (add : κ × α) (adds : List (κ × α)) (key : κ) :
    added (add :: adds) key = added [add] key + added adds key := by
  simp only [added, List.map_cons, List.map_nil, List.sum_cons, List.sum_nil, add_zero]

theorem added_append (adds adds' : List (κ × α)) (key : κ) :
    added (adds ++ adds') key = added adds key + added adds' key := by
  simp only [added, List.map_append, List.sum_append]

theorem fetchAdd_apply (counters : κ → α) (key : κ) (amount : α) (other : κ) :
    fetchAdd counters key amount other = counters other + added [(key, amount)] other := by
  simp only [fetchAdd, added, List.map_cons, List.map_nil, List.sum_cons, List.sum_nil, add_zero]
  by_cases hsame : key = other
  · subst hsame
    rw [Function.update_self, if_pos rfl]
  · rw [Function.update_of_ne (Ne.symm hsame), if_neg hsame, add_zero]

theorem added_flatMap (l : List β) (f : β → List (κ × α)) (key : κ) :
    added (l.flatMap f) key = (l.map fun x => added (f x) key).sum := by
  induction l with
  | nil => rfl
  | cons x l ih => rw [List.flatMap_cons, added_append, ih, List.map_cons, List.sum_cons]

/-- What one party has to add goes in for what it had to. -/
theorem added_flatMap_set {l : List β} {i : ℕ} {x : β} (f : β → List (κ × α)) (h : l[i]? = some x) (y : β) (key : κ) :
    ∃ rest, added (l.flatMap f) key = added (f x) key + rest ∧
      added ((l.set i y).flatMap f) key = added (f y) key + rest := by
  have hold := ((Transition.perm_cons_eraseIdx h).map fun x => added (f x) key).sum_eq
  have hnew := ((Transition.set_perm_cons h y).map fun x => added (f x) key).sum_eq
  rw [← added_flatMap, List.map_cons, List.sum_cons] at hold hnew
  exact ⟨_, hold, hnew⟩

/-- A party that makes its next addition moves it into the counter. -/
theorem fetchAdd_flatMap_set {l : List β} {i : ℕ} {x y : β} {f : β → List (κ × α)} {add : κ × α}
    (h : l[i]? = some x) (hnext : f x = add :: f y) (counters : κ → α) (key : κ) :
    fetchAdd counters add.1 add.2 key + added ((l.set i y).flatMap f) key =
      counters key + added (l.flatMap f) key := by
  obtain ⟨rest, hold, hnew⟩ := added_flatMap_set f h y key
  rw [fetchAdd_apply, hold, hnew, hnext, added_cons add (f y), add_assoc, add_assoc]

end Counters
