import GeminiWorker.Lib.Transition

/-!
# Runs on record

A system together with a record of what its steps bring in. The steps add to the record and do not look
at it.

* `Reach.recorded`: what a step keeps, once what it brings in is on record, holds in every state.
-/

namespace Transition

variable {σ ε α : Type} {step : σ → ε → Option σ} {brings : σ → ε → List α} {meets : σ → ε → Prop} {s t : σ}
  {record record' : List α}

/-- The latest goes first. -/
def recording (step : σ → ε → Option σ) (brings : σ → ε → List α) (r : σ × List α) (event : ε) :
    Option (σ × List α) :=
  (step r.1 event).map fun t => (t, brings r.1 event ++ r.2)

/-- A condition that does not look at the record. -/
def OnState (meets : σ → ε → Prop) (r : σ × List α) (event : ε) : Prop := meets r.1 event

instance instDecidableOnState (meets : σ → ε → Prop) [∀ s event, Decidable (meets s event)] (r : σ × List α)
    (event : ε) : Decidable (OnState meets r event) :=
  inferInstanceAs (Decidable (meets r.1 event))

/-- The record only grows, and a step is taken with what it brings in already there. -/
theorem Reach.recorded {inv : List α → σ → Prop}
    (h : Reach (recording step brings) (OnState meets) (s, record) (t, record')) (hinit : inv record s)
    (hgrows : ∀ record record' s, record ⊆ record' → inv record s → inv record' s)
    (hstep : ∀ record s event t, inv record s → brings s event ⊆ record → meets s event → step s event = some t →
      inv record t) : inv record' t := by
  have hall : ∀ r r' : σ × List α, Reach (recording step brings) (OnState meets) r r' → inv r.2 r.1 → inv r'.2 r'.1 := by
    intro r r' h hr
    refine @Reach.invariant _ _ _ _ _ _ (fun r : σ × List α => inv r.2 r.1) h hr ?_
    intro before event after hbefore hmeets hnext
    obtain ⟨t, ht, rfl⟩ := Option.map_eq_some_iff.mp hnext
    have hgrown := hgrows _ (brings before.1 event ++ before.2) _ (List.subset_append_right _ _) hbefore
    exact hstep _ _ _ _ hgrown (List.subset_append_left _ _) hmeets ht
  exact hall _ _ h hinit

end Transition
