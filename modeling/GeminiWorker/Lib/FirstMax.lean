import Mathlib.Algebra.GroupWithZero.Nat
import Mathlib.Data.List.Basic
import Mathlib.Data.List.Induction
import Mathlib.Order.Nat

/-!
# The first of the largest

A scan over a list for the first item of the greatest weight, where items may have no weight, and the
list in which it alone is left of the items with a weight. An item of weight zero is never chosen.

* `scan_spec`: what the scan has found, or that there is nothing to find.
* `keep_split`: what is left around an item.
* `select_spec`, `select_of_weightless`: the list afterwards.
* `select_select`: selecting twice is selecting once.
-/

namespace FirstMax

variable {α : Type} (weigh : α → Option ℕ)

/-- One round of the scan: the index and the weight of the best item so far. -/
def round (best : Option ℕ × ℕ) (entry : α × ℕ) : Option ℕ × ℕ :=
  match weigh entry.1 with
  | none => best
  | some weight => if weight > best.2 then (some entry.2, weight) else best

def scan (items : List α) : Option ℕ × ℕ := items.zipIdx.foldl (round weigh) (none, 0)

/-- The items that are not dropped, and the one at the index. -/
def keep (drop : α → Bool) (items : List α) (index : ℕ) : List α :=
  (items.zipIdx.filter fun entry => !drop entry.1 || entry.2 == index).map Prod.fst

/-- The list in which the item found is the only one left of those to drop. -/
def select (drop : α → Bool) (items : List α) : List α :=
  match (scan weigh items).1 with
  | none => items
  | some index => keep drop items index

/-- `x` weighs more than what is before it, and no less than what is after it. -/
structure Leads (before : List α) (x : α) (weight : ℕ) (after : List α) : Prop where
  weighs : weigh x = some weight
  pos : 0 < weight
  before : ∀ y ∈ before, ∀ n, weigh y = some n → n < weight
  after : ∀ y ∈ after, ∀ n, weigh y = some n → n ≤ weight

/-- No item has a weight but zero. -/
def Weightless (items : List α) : Prop := ∀ y ∈ items, ∀ n, weigh y = some n → n = 0

variable {weigh}

theorem scan_concat (items : List α) (x : α) :
    scan weigh (items ++ [x]) = round weigh (scan weigh items) (x, items.length) := by
  rw [scan, List.zipIdx_append, List.foldl_append, Nat.zero_add]
  rfl

/-- **What the scan has found.** -/
theorem scan_spec (items : List α) :
    (scan weigh items = (none, 0) ∧ Weightless weigh items) ∨
      ∃ before x weight after, items = before ++ x :: after ∧ Leads weigh before x weight after ∧
        scan weigh items = (some before.length, weight) := by
  induction items using List.reverseRec with
  | nil => exact .inl ⟨rfl, nofun⟩
  | append_singleton items y ih =>
    rw [scan_concat]
    rcases hy : weigh y with _ | n
    · -- an item without a weight changes nothing
      have hround : ∀ best, round weigh best (y, items.length) = best := by
        intro best
        rw [round, hy]
      have hnone : ∀ m, weigh y ≠ some m := fun m hm => by rw [hy] at hm; cases hm
      rcases ih with ⟨hscan, hless⟩ | ⟨before, x, weight, after, rfl, hleads, hscan⟩
      · refine .inl ⟨by rw [hround, hscan], fun z hz m hm => ?_⟩
        rcases List.mem_append.mp hz with hz | hz
        · exact hless z hz m hm
        · exact absurd (List.mem_singleton.mp hz ▸ hm) (hnone m)
      · refine .inr ⟨before, x, weight, after ++ [y], by simp, ⟨hleads.weighs, hleads.pos, hleads.before,
          fun z hz m hm => ?_⟩, by rw [hround, hscan]⟩
        rcases List.mem_append.mp hz with hz | hz
        · exact hleads.after z hz m hm
        · exact absurd (List.mem_singleton.mp hz ▸ hm) (hnone m)
    · have hround : ∀ best, round weigh best (y, items.length) =
          if n > best.2 then (some items.length, n) else best := by
        intro best
        rw [round, hy]
      rcases ih with ⟨hscan, hless⟩ | ⟨before, x, weight, after, rfl, hleads, hscan⟩
      · rw [hround, hscan]
        by_cases hn : n > 0
        · refine .inr ⟨items, y, n, [], by simp, ⟨hy, hn, fun z hz m hm => ?_, nofun⟩, if_pos hn⟩
          rw [hless z hz m hm]
          exact hn
        · refine .inl ⟨if_neg hn, fun z hz m hm => ?_⟩
          rcases List.mem_append.mp hz with hz | hz
          · exact hless z hz m hm
          · rw [List.mem_singleton.mp hz, hy, Option.some.injEq] at hm
            omega
      · rw [hround, hscan]
        by_cases hn : n > weight
        · refine .inr ⟨before ++ x :: after, y, n, [], by simp, ⟨hy, by omega, fun z hz m hm => ?_, nofun⟩,
            if_pos hn⟩
          rcases List.mem_append.mp hz with hz | hz
          · have hlt := hleads.before z hz m hm
            omega
          · rcases List.mem_cons.mp hz with rfl | hz
            · have hm' := hleads.weighs
              rw [hm, Option.some.injEq] at hm'
              omega
            · have hle := hleads.after z hz m hm
              omega
        · refine .inr ⟨before, x, weight, after ++ [y], by simp, ⟨hleads.weighs, hleads.pos, hleads.before,
            fun z hz m hm => ?_⟩, if_neg hn⟩
          rcases List.mem_append.mp hz with hz | hz
          · exact hleads.after z hz m hm
          · rw [List.mem_singleton.mp hz, hy, Option.some.injEq] at hm
            omega

/-! ## What is left -/

/-- Away from the index, what is dropped goes. -/
theorem keep_away (drop : α → Bool) (items : List α) (index : ℕ) : ∀ start,
    index < start ∨ start + items.length ≤ index →
    ((items.zipIdx start).filter fun entry => !drop entry.1 || entry.2 == index).map Prod.fst =
      items.filter fun y => !drop y := by
  induction items with
  | nil => exact fun _ _ => rfl
  | cons y items ih =>
    intro start h
    rw [List.length_cons] at h
    have hne : (start == index) = false := by
      rw [beq_eq_false_iff_ne]
      omega
    have hrest := ih (start + 1) (by omega)
    rw [List.zipIdx_cons, List.filter_cons, List.filter_cons]
    dsimp only
    rw [hne, Bool.or_false]
    split
    · rw [List.map_cons, hrest]
    · exact hrest

/-- **What is left around an item.** -/
theorem keep_split (drop : α → Bool) (before : List α) (x : α) (after : List α) :
    keep drop (before ++ x :: after) before.length =
      before.filter (fun y => !drop y) ++ x :: after.filter fun y => !drop y := by
  have hbefore := keep_away drop before before.length 0 (.inr (by omega))
  have hafter := keep_away drop after before.length (before.length + 1) (.inl (by omega))
  rw [keep, List.zipIdx_append, List.filter_append, List.map_append, hbefore, Nat.zero_add, List.zipIdx_cons,
    List.filter_cons_of_pos (by simp), List.map_cons, hafter]

theorem select_of_weightless (drop : α → Bool) {items : List α} (h : Weightless weigh items) :
    select weigh drop items = items := by
  rcases scan_spec items with ⟨hscan, -⟩ | ⟨before, x, weight, after, rfl, hleads, -⟩
  · rw [select, hscan]
  · have hzero := h x (by simp) weight hleads.weighs
    have hpos := hleads.pos
    omega

/-- **The list afterwards**, where an item has a weight. -/
theorem select_spec (drop : α → Bool) {items : List α} (h : ¬ Weightless weigh items) :
    ∃ before x weight after, items = before ++ x :: after ∧ Leads weigh before x weight after ∧
      select weigh drop items = before.filter (fun y => !drop y) ++ x :: after.filter fun y => !drop y := by
  rcases scan_spec items with ⟨-, hless⟩ | ⟨before, x, weight, after, rfl, hleads, hscan⟩
  · exact absurd hless h
  · refine ⟨before, x, weight, after, rfl, hleads, ?_⟩
    rw [select, hscan]
    exact keep_split drop before x after

/-- **Selecting twice is selecting once**, where all items with a weight are to drop. -/
theorem select_select {drop : α → Bool} (hdrop : ∀ y, drop y = (weigh y).isSome) (items : List α) :
    select weigh drop (select weigh drop items) = select weigh drop items := by
  by_cases hless : Weightless weigh items
  · rw [select_of_weightless drop hless, select_of_weightless drop hless]
  · obtain ⟨before, x, weight, after, -, hleads, hselect⟩ := select_spec drop hless
    have hx : drop x = true := by
      rw [hdrop, hleads.weighs]
      rfl
    have hlight : ∀ l : List α, ∀ y ∈ l.filter (fun y => !drop y), drop y = false := by
      intro l y hy
      simpa using (List.mem_filter.mp hy).2
    have hsplit : ¬ Weightless weigh (select weigh drop items) := by
      intro hall
      have hzero := hall x (by rw [hselect]; simp) weight hleads.weighs
      have hpos := hleads.pos
      omega
    -- the item that is found again is the only one to drop, so that nothing goes around it
    obtain ⟨before', x', weight', after', heq, hleads', hselect'⟩ := select_spec drop hsplit
    have hx' : drop x' = true := by
      rw [hdrop, hleads'.weighs]
      rfl
    have hcount : (select weigh drop items).countP drop = 1 := by
      rw [hselect, List.countP_append, List.countP_cons_of_pos hx,
        List.countP_eq_zero.mpr fun y hy => by rw [hlight _ y hy]; exact Bool.false_ne_true,
        List.countP_eq_zero.mpr fun y hy => by rw [hlight _ y hy]; exact Bool.false_ne_true]
    rw [heq, List.countP_append, List.countP_cons_of_pos hx'] at hcount
    have hnone : ∀ l : List α, l.countP drop = 0 → l.filter (fun y => !drop y) = l := by
      intro l hl
      rw [List.filter_eq_self]
      intro y hy
      simpa using List.countP_eq_zero.mp hl y hy
    rw [hselect', hnone before' (by omega), hnone after' (by omega), ← heq]

end FirstMax
