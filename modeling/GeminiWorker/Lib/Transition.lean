import Mathlib.Algebra.GroupWithZero.Nat
import Mathlib.Data.List.Perm.Basic

/-!
# Systems that take step after step

* `Reach`: what a system reaches by steps that each meet a condition, which may look at the
  state the step starts from.
* `Reach.invariant`: what holds at first and is kept by every such step holds throughout.
* `run_reach`: the states of a run over given events are reached.
* `filterMap_set_perm` and `sum_map_set`: what one entry of a list of parties contributes.
-/

namespace Transition

variable {σ ε : Type} {step : σ → ε → Option σ} {meets : σ → ε → Prop} {s t u : σ}

/-- `t` is reached from `s` by steps that meet the condition. -/
inductive Reach (step : σ → ε → Option σ) (meets : σ → ε → Prop) (s : σ) : σ → Prop
  | refl : Reach step meets s s
  | tail {t u : σ} {event : ε} (before : Reach step meets s t) (hmeets : meets t event)
      (hnext : step t event = some u) : Reach step meets s u

/-- The condition that every step meets. -/
def Any (_ : σ) (_ : ε) : Prop := True

theorem Reach.invariant {inv : σ → Prop} (h : Reach step meets s t) (hinit : inv s)
    (hstep : ∀ t event u, inv t → meets t event → step t event = some u → inv u) : inv t := by
  induction h with
  | refl => exact hinit
  | tail _ hmeets hnext ih => exact hstep _ _ _ ih hmeets hnext

theorem Reach.single {event : ε} (hmeets : meets s event) (hnext : step s event = some t) :
    Reach step meets s t := .tail .refl hmeets hnext

theorem Reach.trans (hst : Reach step meets s t) (htu : Reach step meets t u) : Reach step meets s u := by
  induction htu with
  | refl => exact hst
  | tail _ hmeets hnext ih => exact .tail ih hmeets hnext

theorem Reach.any (h : Reach step meets s t) : Reach step Any s t := by
  induction h with
  | refl => exact .refl
  | tail _ _ hnext ih => exact .tail ih trivial hnext

/-- A run over the events given. -/
def run (step : σ → ε → Option σ) : σ → List ε → Option σ
  | s, [] => some s
  | s, event :: events => (step s event).bind fun t => run step t events

theorem run_append (s : σ) (events events' : List ε) :
    run step s (events ++ events') = (run step s events).bind fun t => run step t events' := by
  induction events generalizing s with
  | nil => rfl
  | cons event events ih =>
    rw [List.cons_append, run, run]
    rcases step s event with _ | t
    · rfl
    · exact ih t

theorem run_reach {events : List ε} (h : run step s events = some t) : Reach step Any s t := by
  induction events generalizing s with
  | nil =>
    obtain rfl := Option.some.inj h
    exact .refl
  | cons event events ih =>
    obtain ⟨u, hu, hrun⟩ := Option.bind_eq_some_iff.mp h
    exact (Reach.single trivial hu).trans (ih hrun)

/-- A run over the events given, as long as every step meets the condition. -/
def runMeeting (step : σ → ε → Option σ) (meets : σ → ε → Prop) [∀ s event, Decidable (meets s event)] :
    σ → List ε → Option σ
  | s, [] => some s
  | s, event :: events =>
    if meets s event then (step s event).bind fun t => runMeeting step meets t events else none

theorem runMeeting_reach [∀ s event, Decidable (meets s event)] {events : List ε}
    (h : runMeeting step meets s events = some t) : Reach step meets s t := by
  induction events generalizing s with
  | nil =>
    obtain rfl := Option.some.inj h
    exact .refl
  | cons event events ih =>
    rw [runMeeting] at h
    split at h
    · rename_i hmeets
      obtain ⟨u, hu, hrun⟩ := Option.bind_eq_some_iff.mp h
      exact (Reach.single hmeets hu).trans (ih hrun)
    · cases h

/-! ## Lists of parties -/

variable {α β : Type} {l : List α} {i : ℕ} {x y : α}

theorem perm_cons_eraseIdx (h : l[i]? = some x) : l.Perm (x :: l.eraseIdx i) := by
  obtain ⟨hi, rfl⟩ := List.getElem?_eq_some_iff.mp h
  exact (List.getElem_cons_eraseIdx_perm hi).symm

theorem set_perm_cons (h : l[i]? = some x) (y : α) : (l.set i y).Perm (y :: l.eraseIdx i) :=
  List.set_perm_cons_eraseIdx (List.getElem?_eq_some_iff.mp h).1 y

/-- The other entries stay. -/
theorem mem_set_of_mem {z : α} (h : l[i]? = some x) (hz : z ∈ l) (y : α) : z = x ∨ z ∈ l.set i y := by
  obtain ⟨j, hj⟩ := List.mem_iff_getElem?.mp hz
  by_cases hsame : j = i
  · subst hsame
    exact Or.inl (Option.some.inj (hj.symm.trans h))
  · refine Or.inr (List.mem_iff_getElem?.mpr ⟨j, ?_⟩)
    rwa [List.getElem?_set_ne (Ne.symm hsame)]

/-- What an entry contributes to a list goes in for what the old one contributed. -/
theorem filterMap_set_perm (f : α → Option β) (h : l[i]? = some x) :
    ∃ rest, (l.filterMap f).Perm ((f x).toList ++ rest) ∧
      ∀ y, ((l.set i y).filterMap f).Perm ((f y).toList ++ rest) := by
  have hcons : ∀ y l, List.filterMap f (y :: l) = (f y).toList ++ l.filterMap f := by
    intro y l
    rw [List.filterMap_cons]
    rcases f y with _ | z <;> rfl
  refine ⟨(l.eraseIdx i).filterMap f, ?_, fun y => ?_⟩
  · rw [← hcons]
    exact (perm_cons_eraseIdx h).filterMap f
  · rw [← hcons]
    exact (set_perm_cons h y).filterMap f

/-- What an entry contributes to a sum goes in for what the old one contributed. -/
theorem sum_map_set (f : α → ℕ) (h : l[i]? = some x) (y : α) :
    ((l.set i y).map f).sum + f x = (l.map f).sum + f y := by
  have hold := ((perm_cons_eraseIdx h).map f).sum_nat
  have hnew := ((set_perm_cons h y).map f).sum_nat
  simp only [List.map_cons, List.sum_cons] at hold hnew
  omega

/-- An entry is counted for the old one. -/
theorem countP_set (p : α → Bool) (h : l[i]? = some x) (y : α) :
    (l.set i y).countP p + (if p x = true then 1 else 0) = l.countP p + if p y = true then 1 else 0 := by
  have hold := (perm_cons_eraseIdx h).countP_eq p
  have hnew := (set_perm_cons h y).countP_eq p
  rw [List.countP_cons] at hold hnew
  omega

theorem le_sum_map (f : α → ℕ) (h : l[i]? = some x) : f x ≤ (l.map f).sum := by
  have hold := ((perm_cons_eraseIdx h).map f).sum_nat
  simp only [List.map_cons, List.sum_cons] at hold
  omega

end Transition
