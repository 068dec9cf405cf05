import GeminiWorker.Lib.Assoc
import Mathlib.Data.Finset.Card
import Mathlib.Order.Nat

/-!
# A cache that evicts the least recently used entry

The entries stand in the order of their last use, the latest first. Keys are distinct and
there are at most as many entries as the capacity.

* `peek_get`, `peek_pop_of_ne`, `peek_put_self`: what the operations leave under a key.
* `peek_put_of_ne`: an entry is lost to a `put` of another key only if it is the one evicted.
* `Recent`: the entries stand in the order of their last use; `get`, `pop` and `put` keep it.
* `evicted_ne`: a key is not evicted as long as fewer other keys than the capacity are used after it.
-/

structure Lru (κ α : Type) where
  capacity : ℕ
  entries : List (κ × α)
  nodup : (entries.map Prod.fst).Nodup
  length_le : entries.length ≤ capacity

namespace Lru

open Assoc (others mem_others nodup_others notMem_others lookup_cons lookup_others_of_ne
  lookup_eq_none_iff length_others_lt)

variable {κ α : Type} [DecidableEq κ]

def empty (capacity : ℕ) : Lru κ α := ⟨capacity, [], List.nodup_nil, Nat.zero_le _⟩

def keys (cache : Lru κ α) : List κ := cache.entries.map Prod.fst

/-- What is under a key, without using it. -/
def peek (cache : Lru κ α) (key : κ) : Option α := cache.entries.lookup key

/-- `LruCache::pop`. -/
def pop (cache : Lru κ α) (key : κ) : Lru κ α :=
  ⟨cache.capacity, others key cache.entries, nodup_others cache.nodup,
    (List.length_filter_le _ _).trans cache.length_le⟩

/-- `LruCache::get`: a key that is found becomes the latest. -/
def get (cache : Lru κ α) (key : κ) : Option (α × Lru κ α) :=
  match h : cache.peek key with
  | none => none
  | some a => some (a, ⟨cache.capacity, (key, a) :: others key cache.entries,
      List.nodup_cons.2 ⟨notMem_others key _, nodup_others cache.nodup⟩, by
        have hmem : key ∈ cache.entries.map Prod.fst := by
          by_contra hnot
          rw [peek, lookup_eq_none_iff.2 hnot] at h
          cases h
        have hlt := length_others_lt hmem
        have hle := cache.length_le
        rw [List.length_cons]
        omega⟩)

/-- The entries that stay when a key is put: all but its own and, where the cache is full,
the last. -/
def kept (cache : Lru κ α) (key : κ) : List (κ × α) :=
  if key ∈ cache.keys then others key cache.entries
  else if cache.entries.length < cache.capacity then cache.entries
  else cache.entries.dropLast

theorem kept_sublist (cache : Lru κ α) (key : κ) : (cache.kept key).Sublist cache.entries := by
  unfold kept
  split
  · exact List.filter_sublist
  split
  · exact List.Sublist.refl _
  · exact List.dropLast_sublist _

/-- `LruCache::put`, of a cache with room for an entry. -/
def put (cache : Lru κ α) (hcapacity : 0 < cache.capacity) (key : κ) (a : α) : Lru κ α :=
  ⟨cache.capacity, (key, a) :: cache.kept key, by
    refine List.nodup_cons.2 ⟨fun h => ?_, cache.nodup.sublist ((cache.kept_sublist key).map _)⟩
    unfold kept at h
    split at h
    · exact notMem_others key _ h
    · rename_i hnot
      refine hnot ?_
      split at h
      · exact h
      · exact ((List.dropLast_sublist _).map _).subset h, by
    have hle := cache.length_le
    unfold kept
    rw [List.length_cons]
    split
    · rename_i hmem
      have hlt := length_others_lt hmem
      omega
    split
    · omega
    · rw [List.length_dropLast]
      omega⟩

/-- The key that a `put` evicts. -/
def evicted (cache : Lru κ α) (key : κ) : Option κ :=
  if key ∈ cache.keys then none
  else if cache.entries.length < cache.capacity then none
  else cache.keys.getLast?

theorem get_eq_none_iff {cache : Lru κ α} {key : κ} :
    cache.get key = none ↔ cache.peek key = none := by
  unfold get
  split
  · rename_i h
    simp [h]
  · rename_i h
    simp [h]

theorem get_eq_some {cache cache' : Lru κ α} {key : κ} {a : α}
    (h : cache.get key = some (a, cache')) :
    cache.peek key = some a ∧ cache'.capacity = cache.capacity ∧
      cache'.entries = (key, a) :: others key cache.entries := by
  unfold get at h
  split at h
  · cases h
  · rename_i b hb
    obtain ⟨rfl, rfl⟩ := Prod.mk.inj (Option.some.inj h)
    exact ⟨hb, rfl, rfl⟩

/-- **Using a key changes nothing under any key.** -/
theorem peek_get {cache cache' : Lru κ α} {key : κ} {a : α} (h : cache.get key = some (a, cache'))
    (key' : κ) : cache'.peek key' = cache.peek key' := by
  obtain ⟨ha, -, hentries⟩ := get_eq_some h
  unfold peek at ha ⊢
  rw [hentries, lookup_cons]
  by_cases hkey : key' = key
  · rw [if_pos hkey, hkey, ha]
  · rw [if_neg hkey, lookup_others_of_ne hkey]

theorem get_of_peek {cache : Lru κ α} {key : κ} {a : α} (h : cache.peek key = some a) :
    ∃ cache', cache.get key = some (a, cache') := by
  cases hget : cache.get key with
  | none =>
    rw [get_eq_none_iff.1 hget] at h
    cases h
  | some found =>
    obtain ⟨b, cache'⟩ := found
    have hb := (get_eq_some hget).1
    rw [h] at hb
    obtain rfl := Option.some.inj hb
    exact ⟨cache', rfl⟩

theorem peek_pop_of_ne {cache : Lru κ α} {key key' : κ} (h : key' ≠ key) :
    (cache.pop key).peek key' = cache.peek key' :=
  lookup_others_of_ne h _

@[simp] theorem peek_put_self (cache : Lru κ α) (hcapacity : 0 < cache.capacity) (key : κ) (a : α) :
    (cache.put hcapacity key a).peek key = some a := by
  unfold peek put
  rw [lookup_cons, if_pos rfl]

/-- **What a `put` leaves under another key**, unless that key is evicted. -/
theorem peek_put_of_ne {cache : Lru κ α} (hcapacity : 0 < cache.capacity) {key key' : κ} (a : α)
    (hne : key' ≠ key) (hkept : cache.evicted key ≠ some key') :
    (cache.put hcapacity key a).peek key' = cache.peek key' := by
  unfold peek put
  dsimp only
  rw [lookup_cons, if_neg hne]
  unfold kept
  unfold evicted at hkept
  split
  · exact lookup_others_of_ne hne _
  rename_i hmem
  rw [if_neg hmem] at hkept
  split
  · rfl
  rename_i hfull
  rw [if_neg hfull] at hkept
  -- the last entry is not of this key
  rcases List.eq_nil_or_concat cache.entries with hnil | ⟨entries, last, hsplit⟩
  · rw [hnil]
    rfl
  · unfold keys at hkept
    rw [hsplit, List.concat_eq_append, List.map_append, List.map_singleton, List.getLast?_concat] at hkept
    have hlast : key' ≠ last.1 := fun he => hkept (congrArg some he.symm)
    rw [hsplit, List.concat_eq_append, List.dropLast_concat, List.lookup_append]
    obtain ⟨k, b⟩ := last
    rw [lookup_cons, if_neg hlast]
    simp

omit [DecidableEq κ] in
theorem length_keys (cache : Lru κ α) : cache.keys.length = cache.entries.length := List.length_map _

theorem keys_pop_sublist (cache : Lru κ α) (key : κ) : (cache.pop key).keys.Sublist cache.keys :=
  List.filter_sublist.map _

/-- A key that is used and removed leaves the other keys as they were. -/
theorem keys_pop_get_sublist {cache cache' : Lru κ α} {key : κ} {a : α} (h : cache.get key = some (a, cache')) :
    (cache'.pop key).keys.Sublist cache.keys := by
  change ((others key cache'.entries).map Prod.fst).Sublist (cache.entries.map Prod.fst)
  rw [(get_eq_some h).2.2]
  unfold others
  rw [List.filter_cons_of_neg (by simp), List.filter_filter]
  exact List.filter_sublist.map _

theorem mem_keys_of_peek {cache : Lru κ α} {key : κ} {a : α} (h : cache.peek key = some a) : key ∈ cache.keys := by
  by_contra hnot
  rw [peek, lookup_eq_none_iff.mpr hnot] at h
  cases h

/-- A removal leaves nothing else than what was there. -/
theorem peek_of_peek_pop {cache : Lru κ α} {key key' : κ} {a : α} (h : (cache.pop key).peek key' = some a) :
    cache.peek key' = some a := by
  have hne : key' ≠ key := by
    rintro rfl
    exact notMem_others key' cache.entries (mem_keys_of_peek h)
  rwa [peek_pop_of_ne hne] at h

/-- A `put` leaves nothing else under another key than what was there. -/
theorem peek_of_peek_put {cache : Lru κ α} (hcapacity : 0 < cache.capacity) {key key' : κ} {a b : α}
    (h : (cache.put hcapacity key a).peek key' = some b) (hne : key' ≠ key) : cache.peek key' = some b := by
  unfold peek put at h
  rw [lookup_cons, if_neg hne] at h
  have hmem := (cache.kept_sublist key).subset (Assoc.mem_of_lookup h)
  exact (Assoc.lookup_eq_some_iff_mem cache.nodup).mpr hmem

theorem entries_foldl_pop (removed : List κ) (cache : Lru κ α) :
    (removed.foldl pop cache).entries = cache.entries.filter fun e => e.1 ∉ removed := by
  induction removed generalizing cache with
  | nil => exact (List.filter_eq_self.mpr fun _ _ => by simp).symm
  | cons key removed ih =>
    rw [List.foldl_cons, ih]
    change ((cache.entries.filter fun e => e.1 ≠ key).filter fun e => e.1 ∉ removed) = _
    rw [List.filter_filter]
    refine List.filter_congr fun e _ => ?_
    simp [Bool.and_comm]

/-! ## The order of the last uses -/

/-- The keys stand in the order of their last use: a key that stands before another was used after the other's last
use. The uses are listed from the last one back. -/
def Recent (keys uses : List κ) : Prop := keys.Pairwise fun x y => x ∈ uses.takeWhile (· ≠ y)

/-- The other keys that are used after the last use of this one. -/
def usedSince (uses : List κ) (key : κ) : Finset κ := (uses.takeWhile (· ≠ key)).toFinset

variable {keys keys' uses : List κ} {key key' : κ}

theorem usedSince_cons_of_ne (uses : List κ) (h : key' ≠ key) :
    usedSince (key' :: uses) key = insert key' (usedSince uses key) := by
  unfold usedSince
  rw [List.takeWhile_cons_of_pos (by simpa using h), List.toFinset_cons]

theorem Recent.sublist (h : Recent keys uses) (hsub : keys'.Sublist keys) : Recent keys' uses :=
  List.Pairwise.sublist hsub h

/-- **A use moves its key to the front.** -/
theorem Recent.use (h : Recent keys uses) (hkey : key ∉ keys) : Recent (key :: keys) (key :: uses) := by
  refine List.pairwise_cons.mpr ⟨fun y hy => ?_, List.Pairwise.imp_of_mem (fun {x y} _ hy hxy => ?_) h⟩
  · have hne : key ≠ y := fun heq => hkey (heq ▸ hy)
    rw [List.takeWhile_cons_of_pos (by simpa using hne)]
    exact List.mem_cons_self
  · have hne : key ≠ y := fun heq => hkey (heq ▸ hy)
    rw [List.takeWhile_cons_of_pos (by simpa using hne)]
    exact List.mem_cons_of_mem _ hxy

theorem Recent.pop {cache : Lru κ α} (h : Recent cache.keys uses) (key : κ) : Recent (cache.pop key).keys uses :=
  h.sublist (cache.keys_pop_sublist key)

theorem Recent.get {cache cache' : Lru κ α} {a : α} (h : Recent cache.keys uses)
    (hget : cache.get key = some (a, cache')) : Recent cache'.keys (key :: uses) := by
  obtain ⟨-, -, hentries⟩ := get_eq_some hget
  have hkeys : cache'.keys = key :: (cache.pop key).keys := by
    unfold keys
    rw [hentries]
    rfl
  rw [hkeys]
  exact (h.pop key).use (notMem_others key cache.entries)

theorem Recent.put {cache : Lru κ α} (h : Recent cache.keys uses) (hcapacity : 0 < cache.capacity) (key : κ) (a : α) :
    Recent (cache.put hcapacity key a).keys (key :: uses) := by
  have hnodup := (cache.put hcapacity key a).nodup
  have hkeys : (cache.put hcapacity key a).keys = key :: (cache.kept key).map Prod.fst := rfl
  rw [hkeys]
  refine Recent.use (h.sublist ((cache.kept_sublist key).map _)) ?_
  exact (List.nodup_cons.mp hnodup).1

/-- **No key is evicted as long as fewer other keys than the capacity are used after it**, the one that is put among
them. -/
theorem evicted_ne {cache : Lru κ α} (h : Recent cache.keys uses) (hne : key' ≠ key)
    (hfew : (usedSince (key' :: uses) key).card < cache.capacity) : cache.evicted key' ≠ some key := by
  intro hevicted
  unfold evicted at hevicted
  split at hevicted
  · cases hevicted
  rename_i habsent
  split at hevicted
  · cases hevicted
  rename_i hfull
  -- the key stands last, behind `capacity - 1` others
  obtain ⟨before, hsplit⟩ := List.getLast?_eq_some_iff.mp hevicted
  have hnodup : cache.keys.Nodup := cache.nodup
  rw [hsplit] at hnodup
  have hbefore : ∀ x ∈ before, x ∈ usedSince uses key := by
    intro x hx
    unfold Recent at h
    rw [hsplit] at h
    exact List.mem_toFinset.mpr ((List.pairwise_append.mp h).2.2 x hx key (List.mem_singleton_self key))
  have hnew : key' ∉ before := by
    intro hmem
    rw [hsplit] at habsent
    exact habsent (List.mem_append_left _ hmem)
  have hsubset : insert key' before.toFinset ⊆ usedSince (key' :: uses) key := by
    rw [usedSince_cons_of_ne uses hne]
    exact Finset.insert_subset_insert _ fun x hx => hbefore x (List.mem_toFinset.mp hx)
  have hcard : (insert key' before.toFinset).card = before.length + 1 := by
    rw [Finset.card_insert_of_notMem (fun hmem => hnew (List.mem_toFinset.mp hmem)),
      List.toFinset_card_of_nodup (List.nodup_append.mp hnodup).1]
  have hle := Finset.card_le_card hsubset
  have hlength : before.length + 1 = cache.entries.length := by
    rw [← cache.length_keys, hsplit, List.length_append, List.length_singleton]
  omega

/-- Nothing is evicted while there is room. -/
theorem evicted_of_lt {cache : Lru κ α} (h : cache.entries.length < cache.capacity) (key : κ) :
    cache.evicted key = none := by
  unfold evicted
  rw [if_pos h, ite_self]

end Lru
