import GeminiWorker.Lib.Json
import Mathlib.Data.List.Sort

/-!
# JSON values up to the order of keys

* `Value.SameUpToOrder`: two values that differ at most in the order of the members of their
  objects, at any depth.
* `Map.ext`: a map is its keys in their order and what they lead to.
* `mergeSort_eq_iff`: sorting forgets the order and nothing else.
-/

namespace Json

/-- The same value up to the order of object keys at every depth. -/
inductive Value.SameUpToOrder : Value → Value → Prop
  | null : SameUpToOrder .null .null
  | bool (b : Bool) : SameUpToOrder (.bool b) (.bool b)
  | number (spelling : String) : SameUpToOrder (.number spelling) (.number spelling)
  | string (s : String) : SameUpToOrder (.string s) (.string s)
  | array {items items' : List Value} (length_eq : items.length = items'.length)
      (item : ∀ (i : ℕ) v v', items[i]? = some v → items'[i]? = some v' → SameUpToOrder v v') :
      SameUpToOrder (.array items) (.array items')
  | object {members members' : Map}
      (keys : ∀ key, key ∈ Map.keys members ↔ key ∈ Map.keys members')
      (member : ∀ key v v', Map.get members key = some v → Map.get members' key = some v' →
        SameUpToOrder v v') :
      SameUpToOrder (.object members) (.object members')

namespace Map

/-- A map is its keys in their order and what they lead to. -/
theorem ext {m n : Map} (hm : (keys m).Nodup) (hkeys : keys m = keys n)
    (hget : ∀ key, get m key = get n key) : m = n := by
  have hn : (keys n).Nodup := hkeys ▸ hm
  have hlength : m.length = n.length := by
    have hlengths := congrArg List.length hkeys
    simpa only [keys, List.length_map] using hlengths
  apply List.ext_getElem hlength
  intro i hi hi'
  have hkey : m[i].1 = n[i].1 := by
    have hkeyAt : (keys m)[i]? = (keys n)[i]? := by rw [hkeys]
    simpa [keys, List.getElem?_eq_getElem hi, List.getElem?_eq_getElem hi'] using hkeyAt
  have hleft : get m m[i].1 = some m[i].2 := (get_eq_some_iff hm).2 (List.getElem_mem hi)
  have hright : get n n[i].1 = some n[i].2 := (get_eq_some_iff hn).2 (List.getElem_mem hi')
  rw [hget, hkey, hright] at hleft
  exact Prod.ext hkey (Option.some.inj hleft).symm

/-- The members that some keys have in a map, inserted one after another. -/
theorem foldl_insert_get (canonical : Map) {ks : List String} (hks : ks.Nodup) (acc : Map)
    (hacc : ∀ key ∈ ks, key ∉ keys acc) :
    ks.foldl (fun sorted key => match get canonical key with
      | some v => insert sorted key v
      | none => sorted) acc =
        acc ++ ks.filterMap fun key => (get canonical key).map fun v => (key, v) := by
  induction ks generalizing acc with
  | nil => rw [List.foldl_nil, List.filterMap_nil, List.append_nil]
  | cons key ks ih =>
    obtain ⟨hkey, hrest⟩ := List.nodup_cons.mp hks
    rw [List.foldl_cons, List.filterMap_cons]
    rcases get canonical key with _ | v <;> dsimp only [Option.map_none, Option.map_some]
    · exact ih hrest acc fun key' hkey' => hacc key' (List.mem_cons_of_mem _ hkey')
    · have habsent : key ∉ keys acc := hacc key List.mem_cons_self
      rw [insert_of_not_mem habsent, ih hrest, List.append_assoc]
      · rfl
      intro key' hkey' hmem
      rw [keys, List.map_append, List.mem_append] at hmem
      rcases hmem with hold | hnew
      · exact hacc key' (List.mem_cons_of_mem _ hkey') hold
      · have heq : key' = key := by simpa using hnew
        exact hkey (heq ▸ hkey')

end Map

/-! ## Sorted keys -/

def sortKeys (ks : List String) : List String := ks.mergeSort fun a b => decide (a ≤ b)

theorem sortKeys_perm (ks : List String) : (sortKeys ks).Perm ks := List.mergeSort_perm _ _

theorem pairwise_sortKeys (ks : List String) : (sortKeys ks).Pairwise (· ≤ ·) :=
  List.pairwise_mergeSort' (· ≤ ·) ks

/-- Sorting forgets the order of keys and nothing else. -/
theorem sortKeys_eq_iff {ks ks' : List String} (hks : ks.Nodup) (hks' : ks'.Nodup) :
    sortKeys ks = sortKeys ks' ↔ ∀ key, key ∈ ks ↔ key ∈ ks' := by
  constructor
  · intro h key
    rw [← (sortKeys_perm ks).mem_iff, h, (sortKeys_perm ks').mem_iff]
  · intro h
    have hperm : ks.Perm ks' := (List.perm_ext_iff_of_nodup hks hks').mpr h
    have hsorted : (sortKeys ks).Perm (sortKeys ks') :=
      (sortKeys_perm ks).trans (hperm.trans (sortKeys_perm ks').symm)
    exact hsorted.eq_of_pairwise' (pairwise_sortKeys ks) (pairwise_sortKeys ks')

end Json
