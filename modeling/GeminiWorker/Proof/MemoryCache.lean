import GeminiWorker.Spec.MemoryCache

/-!
# What the memory cache holds under a URL

* `lookup_get`: a lookup changes what is under no URL.
* `lookup_set_self`: an image that is small enough is found after it was set.
* `mem_get` and `mem_set`: what is there afterwards was there before, or is what was set.
-/

namespace GeminiWorker

namespace MemoryCache

open Assoc (others lookup_others_of_ne lookup_eq_none_iff notMem_others)

variable {cache cache' : MemoryCache} {url url' : String} {hit value : CachedInlineData}

/-- What is appended under a key, of which nothing else is left. -/
theorem lookup_others_append (items : List (String × MemoryEntry)) (item : MemoryEntry) :
    (others url items ++ [(url, item)]).lookup url' = if url' = url then some item else items.lookup url' := by
  rw [List.lookup_append]
  by_cases h : url' = url
  · subst h
    rw [lookup_eq_none_iff.mpr (notMem_others url' items), if_pos rfl, Option.none_or, Assoc.lookup_cons, if_pos rfl]
  · rw [lookup_others_of_ne h, if_neg h, Assoc.lookup_cons, if_neg h, List.lookup_nil, Option.or_none]

theorem get_eq_some (h : cache.get url = some (hit, cache')) : ∃ item, cache.items.lookup url = some item ∧
    hit = ⟨item.mimeType, item.bytes⟩ ∧ cache'.maxBytes = cache.maxBytes ∧
    cache'.items = others url cache.items ++ [(url, item)] := by
  obtain ⟨item, hitem, heq⟩ := Option.map_eq_some_iff.mp h
  obtain ⟨rfl, rfl⟩ := Prod.mk.inj heq
  exact ⟨item, hitem, rfl, rfl, rfl⟩

theorem lookup_get (h : cache.get url = some (hit, cache')) (url' : String) :
    cache'.items.lookup url' = cache.items.lookup url' := by
  obtain ⟨item, hitem, -, -, hitems⟩ := get_eq_some h
  rw [hitems, lookup_others_append]
  split
  · rename_i heq
    rw [heq, hitem]
  · rfl

theorem get_eq_none (h : cache.get url = none) : cache.items.lookup url = none := Option.map_eq_none_iff.mp h

@[simp] theorem maxBytes_set (cache : MemoryCache) (url : String) (value : CachedInlineData) :
    (cache.set url value).maxBytes = cache.maxBytes := by
  unfold MemoryCache.set
  dsimp only
  split <;> rfl

/-- **What is small enough is there after it was set.** -/
theorem lookup_set_self (hfits : value.bytes.length ≤ cache.maxBytes) :
    (cache.set url value).items.lookup url = some ⟨value.mimeType, value.bytes, value.bytes.length⟩ := by
  unfold MemoryCache.set
  dsimp only
  rw [if_neg (Nat.not_lt.mpr hfits)]
  dsimp only
  rw [lookup_others_append, if_pos rfl]

/-! ## Entries come from somewhere -/

/-- What is evicted is a first part. -/
theorem evict_suffix (maxBytes size curBytes : ℕ) (items : List (String × MemoryEntry)) :
    (evict maxBytes size curBytes items).2 <:+ items := by
  induction items generalizing curBytes with
  | nil => exact List.suffix_rfl
  | cons oldest items ih =>
    rw [evict]
    split
    · exact (ih _).trans (List.suffix_cons _ _)
    · exact List.suffix_rfl

theorem mem_get {e : String × MemoryEntry} (h : cache.get url = some (hit, cache')) (he : e ∈ cache'.items) :
    e ∈ cache.items := by
  obtain ⟨item, hitem, -, -, hitems⟩ := get_eq_some h
  rw [hitems] at he
  rcases List.mem_append.mp he with he | he
  · exact (Assoc.mem_others.mp he).1
  · rw [List.mem_singleton.mp he]
    exact Assoc.mem_of_lookup hitem

theorem mem_set {e : String × MemoryEntry} (he : e ∈ (cache.set url value).items) :
    e ∈ cache.items ∨ e = (url, ⟨value.mimeType, value.bytes, value.bytes.length⟩) := by
  unfold MemoryCache.set at he
  dsimp only at he
  split at he
  · exact .inl he
  · rcases List.mem_append.mp he with he | he
    · have hkept := (evict_suffix _ _ _ _).subset (Assoc.mem_others.mp he).1
      exact .inl (Assoc.mem_others.mp hkept).1
    · exact .inr (List.mem_singleton.mp he)

end MemoryCache

end GeminiWorker
