import Mathlib.Algebra.GroupWithZero.Nat
import Mathlib.Data.List.Forall2

/-!
# Fallible computations

Rules for peeling a successful `Except` computation apart.
-/

namespace Except

variable {ε α β : Type}

theorem ok_bind (a : α) (f : α → Except ε β) : (.ok a >>= f) = f a := rfl

/-- A bind succeeds when both parts do. -/
theorem bind_eq_ok {x : Except ε α} {f : α → Except ε β} {b : β} :
    (x >>= f) = .ok b ↔ ∃ a, x = .ok a ∧ f a = .ok b := by
  cases x with
  | error e => constructor <;> intro h <;> simp_all [bind, Except.bind]
  | ok a => simp [bind, Except.bind]

theorem pure_eq_ok {a b : α} : (pure a : Except ε α) = .ok b ↔ a = b := by
  simp [pure, Except.pure]

/-- A computation goes on where the check before it throws nothing. -/
theorem ite_throw_eq_ok {p : Prop} [Decidable p] {e : ε} {f : β → Except ε α} {x : Except ε α} {a : α} :
    (if p then (throw e : Except ε β) >>= f else x) = .ok a ↔ ¬ p ∧ x = .ok a := by
  split
  · rename_i hp
    exact ⟨fun h => (by cases h), fun h => absurd hp h.1⟩
  · rename_i hp
    exact ⟨fun h => ⟨hp, h⟩, fun h => h.2⟩

/-- A pointwise successful `mapM` succeeds with the pointwise results. -/
theorem mapM_eq_ok {f : α → Except ε β} {g : α → β} :
    ∀ {l : List α}, (∀ a ∈ l, f a = .ok (g a)) → l.mapM f = .ok (l.map g)
  | [], _ => rfl
  | a :: l, h => by
    rw [List.mapM_cons, h a (by simp), mapM_eq_ok (fun b hb => h b (by simp [hb]))]
    rfl

/-- A `mapM` succeeds with the results of the elements, in their order. -/
theorem mapM_eq_ok_iff {f : α → Except ε β} : ∀ {l : List α} {bs : List β},
    l.mapM f = .ok bs ↔ List.Forall₂ (fun a b => f a = .ok b) l bs
  | [], bs => by
    rw [List.mapM_nil, pure_eq_ok, List.forall₂_nil_left_iff]
    exact eq_comm
  | a :: l, bs => by
    rw [List.mapM_cons, bind_eq_ok, List.forall₂_cons_left_iff]
    constructor
    · rintro ⟨b, hb, hrest⟩
      obtain ⟨rest, hl, hbs⟩ := bind_eq_ok.mp hrest
      exact ⟨b, rest, hb, mapM_eq_ok_iff.mp hl, (pure_eq_ok.mp hbs).symm⟩
    · rintro ⟨b, rest, hb, hl, rfl⟩
      exact ⟨b, hb, bind_eq_ok.mpr ⟨rest, mapM_eq_ok_iff.mpr hl, rfl⟩⟩

/-- A `mapM` that meets a failing element fails. -/
theorem mapM_ne_ok {f : α → Except ε β} {a : α} (ha : ∀ b, f a ≠ .ok b) :
    ∀ {l : List α}, a ∈ l → ∀ bs, l.mapM f ≠ .ok bs
  | c :: l, hmem, bs, h => by
    rw [List.mapM_cons] at h
    obtain ⟨b, hb, h⟩ := bind_eq_ok.1 h
    obtain ⟨cs, hcs, -⟩ := bind_eq_ok.1 h
    rcases List.mem_cons.1 hmem with rfl | hl
    · exact ha b hb
    · exact mapM_ne_ok ha hl cs hcs

/-- The computations fail alike, or succeed with related results. -/
inductive Related {β' : Type} (R : β → β' → Prop) : Except ε β → Except ε β' → Prop
  | error (e : ε) : Related R (.error e) (.error e)
  | ok {b : β} {b' : β'} (h : R b b') : Related R (.ok b) (.ok b')

theorem Related.mapM {α' β' : Type} {R : β → β' → Prop} {f : α → Except ε β} {g : α' → Except ε β'} {l : List α}
    {l' : List α'} (h : List.Forall₂ (fun a a' => Related R (f a) (g a')) l l') :
    Related (List.Forall₂ R) (l.mapM f) (l'.mapM g) := by
  induction h with
  | nil => exact .ok .nil
  | @cons a a' l l' hhead _ ih =>
    rw [List.mapM_cons, List.mapM_cons]
    generalize f a = head, g a' = head' at hhead
    generalize l.mapM f = rest, l'.mapM g = rest' at ih
    cases hhead with
    | error e => exact .error e
    | ok hb =>
      cases ih with
      | error e => exact .error e
      | ok hrest => exact .ok (.cons hb hrest)

end Except
