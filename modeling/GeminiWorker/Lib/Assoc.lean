import Mathlib.Algebra.GroupWithZero.Nat
import Mathlib.Data.List.Nodup
import Mathlib.Data.Nat.Notation

/-!
# Association lists

Lookup by key, the entries of other keys, and lists whose keys are distinct.
-/

namespace Assoc

variable {κ α : Type} [DecidableEq κ]

/-- The entries of other keys. -/
def others (key : κ) (entries : List (κ × α)) : List (κ × α) := entries.filter fun e => e.1 ≠ key

theorem mem_others {key : κ} {entries : List (κ × α)} {e : κ × α} :
    e ∈ others key entries ↔ e ∈ entries ∧ e.1 ≠ key := by
  simp [others]

theorem nodup_others {key : κ} {entries : List (κ × α)} (h : (entries.map Prod.fst).Nodup) :
    ((others key entries).map Prod.fst).Nodup :=
  h.sublist (List.Sublist.map _ List.filter_sublist)

theorem notMem_others (key : κ) (entries : List (κ × α)) :
    key ∉ (others key entries).map Prod.fst := by
  intro h
  obtain ⟨e, he, rfl⟩ := List.mem_map.1 h
  exact (mem_others.1 he).2 rfl

theorem lookup_cons {key key' : κ} {a : α} {entries : List (κ × α)} :
    ((key, a) :: entries).lookup key' = if key' = key then some a else entries.lookup key' := by
  rw [List.lookup_cons]
  by_cases h : key' = key
  · simp [h]
  · rw [if_neg h, beq_false_of_ne h]

theorem lookup_others_of_ne {key key' : κ} (h : key' ≠ key) (entries : List (κ × α)) :
    (others key entries).lookup key' = entries.lookup key' := by
  unfold others
  induction entries with
  | nil => rfl
  | cons e entries ih =>
    obtain ⟨k, a⟩ := e
    rw [List.filter_cons]
    by_cases hk : k = key
    · subst hk
      rw [if_neg (by simp), ih, lookup_cons, if_neg h]
    · rw [if_pos (by simpa using hk), lookup_cons, lookup_cons, ih]

theorem lookup_eq_none_iff {key : κ} {entries : List (κ × α)} :
    entries.lookup key = none ↔ key ∉ entries.map Prod.fst := by
  rw [List.lookup_eq_none_iff, List.mem_map]
  constructor
  · rintro h ⟨e, he, rfl⟩
    simpa using h e he
  · intro h e he
    simpa using fun heq : key = e.1 => h ⟨e, he, heq.symm⟩

theorem length_others_lt {key : κ} {entries : List (κ × α)} (h : key ∈ entries.map Prod.fst) :
    (others key entries).length < entries.length := by
  obtain ⟨e, he, rfl⟩ := List.mem_map.1 h
  refine List.length_filter_lt_length_iff_exists.2 ⟨e, he, by simp⟩

theorem mem_of_lookup {κ : Type} [BEq κ] [LawfulBEq κ] {entries : List (κ × α)} {key : κ} {a : α}
    (h : entries.lookup key = some a) : (key, a) ∈ entries := by
  obtain ⟨before, after, rfl, -⟩ := List.lookup_eq_some_iff.1 h
  exact List.mem_append_right _ List.mem_cons_self

/-- With distinct keys, an entry is found under its key. -/
theorem lookup_eq_some_iff_mem {κ : Type} [BEq κ] [LawfulBEq κ] {entries : List (κ × α)}
    (hnodup : (entries.map Prod.fst).Nodup) {key : κ} {a : α} :
    entries.lookup key = some a ↔ (key, a) ∈ entries := by
  constructor
  · exact mem_of_lookup
  · intro h
    obtain ⟨before, after, rfl⟩ := List.append_of_mem h
    refine List.lookup_eq_some_iff.2 ⟨before, after, rfl, ?_⟩
    intro g hg
    rw [List.map_append, List.map_cons, List.nodup_append] at hnodup
    obtain ⟨-, -, hdisjoint⟩ := hnodup
    have hne : g.1 ≠ key := hdisjoint _ (List.mem_map_of_mem hg) _ (List.mem_cons_self ..)
    simpa using Ne.symm hne

end Assoc
