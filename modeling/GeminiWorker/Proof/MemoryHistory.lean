import GeminiWorker.Proof.MemoryCache
import Mathlib.Algebra.BigOperators.Group.List.Basic
import Mathlib.Algebra.Order.BigOperators.Group.List

/-!
# The memory cache over any sequence of lookups and sets

* `MemoryCache.Accounted`: the counter is the sum of the sizes, and keeps to the limit.
* `evict_spec`: what the loop of `set` evicts, and that it never subtracts too much.
* `memoryCache_accounted`: both hold at every time, and the entries stand in the order of their last use.
* `Fresh` and `fresh_iff`: what is found is what was set last, if and only if no set is refused while an
  older image is there.
-/

namespace GeminiWorker

namespace MemoryCache

open Assoc (others mem_others)

inductive MemoryOp where
  | get (url : String)
  | set (url : String) (value : CachedInlineData)
deriving DecidableEq

def apply (cache : MemoryCache) : MemoryOp → MemoryCache
  | .get url =>
    match cache.get url with
    | some (_, cache) => cache
    | none => cache
  | .set url value => cache.set url value

def runOps (cache : MemoryCache) (ops : List MemoryOp) : MemoryCache := ops.foldl apply cache

/-- The URL that is used: one that is found, or that an image is stored under. -/
def used (cache : MemoryCache) : MemoryOp → Option String
  | .get url => if (cache.items.lookup url).isSome then some url else none
  | .set url value => if value.bytes.length ≤ cache.maxBytes then some url else none

/-- The URLs that were used, the latest last. -/
def uses : MemoryCache → List MemoryOp → List String
  | _, [] => []
  | cache, op :: ops => (cache.used op).toList ++ uses (cache.apply op) ops

def totalSize (items : List (String × MemoryEntry)) : ℕ := (items.map fun e => e.2.size).sum

/-- What the counter has to do with the entries. -/
structure Accounted (cache : MemoryCache) : Prop where
  curBytes : cache.curBytes = totalSize cache.items
  le : cache.curBytes ≤ cache.maxBytes
  size : ∀ e ∈ cache.items, e.2.size = e.2.bytes.length
  nodup : (cache.items.map Prod.fst).Nodup

/-- No subtraction of the loop clips. -/
def NeverClips (maxBytes size : ℕ) : ℕ → List (String × MemoryEntry) → Prop
  | _, [] => True
  | curBytes, oldest :: items =>
    curBytes + size > maxBytes → oldest.2.size ≤ curBytes ∧ NeverClips maxBytes size (curBytes - oldest.2.size) items

/-! ## Sums of sizes -/

variable {cache : MemoryCache} {url : String} {value : CachedInlineData} {items : List (String × MemoryEntry)}

@[simp] theorem totalSize_nil : totalSize [] = 0 := rfl

@[simp] theorem totalSize_cons (e : String × MemoryEntry) (items : List (String × MemoryEntry)) :
    totalSize (e :: items) = e.2.size + totalSize items := rfl

theorem totalSize_append (items items' : List (String × MemoryEntry)) :
    totalSize (items ++ items') = totalSize items + totalSize items' := by
  simp [totalSize]

/-- The size of what is there under a URL. -/
def sizeOf (items : List (String × MemoryEntry)) (url : String) : ℕ := ((items.lookup url).map (·.size)).getD 0

/-- The entry of a URL and the others. -/
theorem totalSize_others (hnodup : (items.map Prod.fst).Nodup) (url : String) :
    totalSize items = totalSize (others url items) + sizeOf items url := by
  induction items with
  | nil => rfl
  | cons e items ih =>
    obtain ⟨key, entry⟩ := e
    obtain ⟨hnot, hnodup⟩ := List.nodup_cons.mp hnodup
    by_cases h : url = key
    · subst h
      -- there is no other entry of the URL
      have hothers : others url ((url, entry) :: items) = items := by
        rw [others, List.filter_cons_of_neg (by simp)]
        exact List.filter_eq_self.mpr fun e he => by
          have hmem : e.1 ∈ items.map Prod.fst := List.mem_map_of_mem he
          exact decide_eq_true fun heq => hnot (heq ▸ hmem)
      rw [hothers, sizeOf, Assoc.lookup_cons, if_pos rfl, totalSize_cons]
      exact Nat.add_comm _ _
    · have hothers : others url ((key, entry) :: items) = (key, entry) :: others url items := by
        rw [others, List.filter_cons_of_pos (by simpa using Ne.symm h)]
        rfl
      have hsize : sizeOf ((key, entry) :: items) url = sizeOf items url := by
        rw [sizeOf, Assoc.lookup_cons, if_neg h]
        rfl
      rw [hothers, hsize, totalSize_cons, totalSize_cons, ih hnodup]
      exact (Nat.add_assoc _ _ _).symm

/-! ## The loop of `set` -/

/-- **What the loop evicts is the shortest first part without which there is room.** -/
theorem evict_spec {maxBytes size : ℕ} (hsize : size ≤ maxBytes) {curBytes : ℕ} (hcur : curBytes = totalSize items) :
    ∃ n, (evict maxBytes size curBytes items).2 = items.drop n ∧
      (evict maxBytes size curBytes items).1 = totalSize (items.drop n) ∧
      totalSize (items.drop n) + size ≤ maxBytes ∧
      ∀ m < n, maxBytes < totalSize (items.drop m) + size := by
  induction items generalizing curBytes with
  | nil =>
    rw [totalSize_nil] at hcur
    exact ⟨0, rfl, hcur, by rw [List.drop_zero, totalSize_nil]; omega, fun m hm => absurd hm (Nat.not_lt_zero m)⟩
  | cons oldest items ih =>
    rw [totalSize_cons] at hcur
    rw [evict]
    split
    · rename_i hfull
      obtain ⟨n, hitems, hbytes, hfits, hfirst⟩ := @ih (curBytes - oldest.2.size) (by omega)
      refine ⟨n + 1, hitems, hbytes, hfits, fun m hm => ?_⟩
      rcases m with _ | m
      · rw [List.drop_zero, totalSize_cons]
        omega
      · exact hfirst m (by omega)
    · rename_i hfits
      refine ⟨0, rfl, hcur, ?_, fun m hm => absurd hm (Nat.not_lt_zero m)⟩
      rw [List.drop_zero, totalSize_cons]
      omega

theorem neverClips {maxBytes size curBytes : ℕ} (hcur : curBytes = totalSize items) :
    NeverClips maxBytes size curBytes items := by
  induction items generalizing curBytes with
  | nil => trivial
  | cons oldest items ih =>
    rw [totalSize_cons] at hcur
    exact fun _ => ⟨by omega, ih (by omega)⟩

/-- What is counted of the other URLs. -/
theorem Accounted.others (h : cache.Accounted) (url : String) :
    sizeOf cache.items url ≤ cache.curBytes ∧
      cache.curBytes - sizeOf cache.items url = totalSize (others url cache.items) := by
  have hsum := totalSize_others h.nodup url
  have hcur := h.curBytes
  omega

/-- `set`, where there is room for the image at all. -/
theorem set_eq (hfits : value.bytes.length ≤ cache.maxBytes) (url : String) :
    cache.set url value =
      let kept := evict cache.maxBytes value.bytes.length (cache.curBytes - sizeOf cache.items url)
        (Assoc.others url cache.items)
      { cache with
        items := Assoc.others url kept.2 ++ [(url, ⟨value.mimeType, value.bytes, value.bytes.length⟩)]
        curBytes := kept.1 + value.bytes.length } := by
  unfold MemoryCache.set sizeOf
  dsimp only
  rw [if_neg (Nat.not_lt.mpr hfits)]
  rcases cache.items.lookup url with _ | previous <;> rfl

/-- What a set leaves, where there is room for the image at all. -/
structure SetExact (cache : MemoryCache) (url : String) (value : CachedInlineData) (n : ℕ) : Prop where
  items : (cache.set url value).items =
    (Assoc.others url cache.items).drop n ++ [(url, ⟨value.mimeType, value.bytes, value.bytes.length⟩)]
  curBytes : (cache.set url value).curBytes =
    totalSize ((Assoc.others url cache.items).drop n) + value.bytes.length
  fits : totalSize ((Assoc.others url cache.items).drop n) + value.bytes.length ≤ cache.maxBytes
  shortest : ∀ m < n, cache.maxBytes < totalSize ((Assoc.others url cache.items).drop m) + value.bytes.length

theorem Accounted.setExact (h : cache.Accounted) (hfits : value.bytes.length ≤ cache.maxBytes) (url : String) :
    ∃ n, cache.SetExact url value n := by
  obtain ⟨-, hcur⟩ := h.others url
  obtain ⟨n, hitems, hbytes, hroom, hshortest⟩ := evict_spec hfits hcur
  have hset := set_eq hfits url
  dsimp only at hset
  rw [hitems, hbytes] at hset
  -- none of what is left has the URL
  have hothers : Assoc.others url ((Assoc.others url cache.items).drop n) = (Assoc.others url cache.items).drop n := by
    refine List.filter_eq_self.mpr fun e he => ?_
    have hmem := (List.drop_subset n _) he
    exact decide_eq_true (mem_others.mp hmem).2
  rw [hothers] at hset
  exact ⟨n, by rw [hset], by rw [hset], hroom, hshortest⟩

theorem set_of_too_large (h : cache.maxBytes < value.bytes.length) (url : String) : cache.set url value = cache := by
  unfold MemoryCache.set
  dsimp only
  rw [if_pos h]

/-! ## Every operation keeps the account -/

theorem Accounted.new (maxBytes : ℕ) : (MemoryCache.new maxBytes).Accounted :=
  ⟨rfl, Nat.zero_le _, List.forall_mem_nil _, List.nodup_nil⟩

theorem Accounted.set (h : cache.Accounted) (url : String) (value : CachedInlineData) :
    (cache.set url value).Accounted := by
  by_cases hfits : value.bytes.length ≤ cache.maxBytes
  · obtain ⟨n, hexact⟩ := h.setExact hfits url
    have hdrop : (Assoc.others url cache.items).drop n ⊆ cache.items :=
      fun e he => (mem_others.mp (List.drop_subset n _ he)).1
    refine ⟨?_, ?_, fun e he => ?_, ?_⟩
    · rw [hexact.items, hexact.curBytes, totalSize_append]
      rfl
    · rw [hexact.curBytes, maxBytes_set]
      exact hexact.fits
    · rw [hexact.items] at he
      rcases List.mem_append.mp he with he | he
      · exact h.size e (hdrop he)
      · rw [List.mem_singleton.mp he]
    · rw [hexact.items, List.map_append, List.nodup_append]
      refine ⟨?_, List.nodup_singleton _, ?_⟩
      · exact (Assoc.nodup_others h.nodup).sublist ((List.drop_sublist n _).map _)
      · intro key hkey key' hkey' heq
        obtain ⟨e, he, rfl⟩ := List.mem_map.mp hkey
        have hne := (mem_others.mp (List.drop_subset n _ he)).2
        exact hne (heq.trans (List.mem_singleton.mp hkey'))
  · rw [set_of_too_large (Nat.lt_of_not_le hfits)]
    exact h

/-- A lookup moves an entry to the end. -/
theorem Accounted.get (h : cache.Accounted) {hit : CachedInlineData} {cache' : MemoryCache}
    (hget : cache.get url = some (hit, cache')) : cache'.Accounted := by
  obtain ⟨item, hitem, heq⟩ := Option.map_eq_some_iff.mp hget
  obtain ⟨-, rfl⟩ := Prod.mk.inj heq
  have hsum := totalSize_others h.nodup url
  have hsize : sizeOf cache.items url = item.size := by
    rw [sizeOf, hitem]
    rfl
  rw [hsize] at hsum
  refine ⟨?_, h.le, fun e he => ?_, ?_⟩
  · have hcur := h.curBytes
    have hmoved : totalSize (Assoc.others url cache.items ++ [(url, item)]) =
        totalSize (Assoc.others url cache.items) + item.size := totalSize_append _ _
    exact hcur.trans (hsum.trans hmoved.symm)
  · exact h.size e (mem_get hget he)
  · rw [List.map_append, List.nodup_append]
    refine ⟨Assoc.nodup_others h.nodup, List.nodup_singleton _, fun key hkey key' hkey' heq => ?_⟩
    obtain rfl := heq.trans (List.mem_singleton.mp hkey')
    exact Assoc.notMem_others _ _ hkey

theorem Accounted.apply (h : cache.Accounted) (op : MemoryOp) : (cache.apply op).Accounted := by
  cases op with
  | get url =>
    rw [MemoryCache.apply]
    rcases hget : cache.get url with _ | ⟨hit, cache'⟩
    · exact h
    · exact h.get hget
  | set url value => exact h.set url value

theorem Accounted.runOps (h : cache.Accounted) (ops : List MemoryOp) : (cache.runOps ops).Accounted := by
  induction ops generalizing cache with
  | nil => exact h
  | cons op ops ih => exact ih (h.apply op)

@[simp] theorem maxBytes_apply (cache : MemoryCache) (op : MemoryOp) : (cache.apply op).maxBytes = cache.maxBytes := by
  cases op with
  | get url =>
    rw [MemoryCache.apply]
    rcases hget : cache.get url with _ | ⟨hit, cache'⟩
    · rfl
    · exact (get_eq_some hget).choose_spec.2.2.1
  | set url value => exact maxBytes_set cache url value

theorem maxBytes_runOps (cache : MemoryCache) (ops : List MemoryOp) : (cache.runOps ops).maxBytes = cache.maxBytes := by
  induction ops generalizing cache with
  | nil => rfl
  | cons op ops ih => exact (ih (cache.apply op)).trans (maxBytes_apply cache op)

/-! ## The order of the entries -/

/-- A URL becomes the one used last. -/
def useLast (urls : List String) (url : String) : List String := urls.filter (· ≠ url) ++ [url]

theorem map_fst_others (url : String) (items : List (String × MemoryEntry)) :
    (others url items).map Prod.fst = (items.map Prod.fst).filter (· ≠ url) := by
  rw [others, List.filter_map]
  rfl

/-- The entries are in the order in which their URLs were used last, and so is what a step leaves. -/
theorem keys_apply (h : cache.Accounted) {urls : List String} (horder : (cache.items.map Prod.fst).Sublist urls)
    (op : MemoryOp) :
    ((cache.apply op).items.map Prod.fst).Sublist ((cache.used op).toList.foldl useLast urls) := by
  cases op with
  | get url =>
    rw [MemoryCache.apply, used]
    rcases hget : cache.get url with _ | ⟨hit, cache'⟩
    · rw [get_eq_none hget]
      exact horder
    · obtain ⟨item, hitem, -, -, hitems⟩ := get_eq_some hget
      rw [hitem, hitems, List.map_append, map_fst_others]
      exact (horder.filter _).append (List.Sublist.refl _)
  | set url value =>
    rw [MemoryCache.apply, used]
    by_cases hfits : value.bytes.length ≤ cache.maxBytes
    · obtain ⟨n, hexact⟩ := h.setExact hfits url
      rw [if_pos hfits, hexact.items, List.map_append]
      have hdrop : (((others url cache.items).drop n).map Prod.fst).Sublist ((others url cache.items).map Prod.fst) :=
        (List.drop_sublist n _).map _
      rw [map_fst_others] at hdrop
      exact (hdrop.trans (horder.filter _)).append (List.Sublist.refl _)
    · rw [if_neg hfits, set_of_too_large (Nat.lt_of_not_le hfits)]
      exact horder

theorem keys_runOps (h : cache.Accounted) {urls : List String} (horder : (cache.items.map Prod.fst).Sublist urls)
    (ops : List MemoryOp) :
    ((cache.runOps ops).items.map Prod.fst).Sublist ((cache.uses ops).foldl useLast urls) := by
  induction ops generalizing cache urls with
  | nil => exact horder
  | cons op ops ih =>
    rw [uses, List.foldl_append]
    exact ih (h.apply op) (keys_apply h horder op)

/-- **The counter is the sum of the sizes and keeps to the limit, no subtraction clips, an image that is small enough
is found after it was set, and what makes room for it is the shortest run of the entries used least recently.** -/
theorem memoryCache_accounted (maxBytes : ℕ) (ops : List MemoryOp) :
    let cache := (MemoryCache.new maxBytes).runOps ops
    cache.curBytes = totalSize cache.items ∧ (∀ e ∈ cache.items, e.2.size = e.2.bytes.length) ∧
      cache.curBytes ≤ maxBytes ∧
      (cache.items.map Prod.fst).Sublist (((MemoryCache.new maxBytes).uses ops).foldl useLast []) ∧
      ∀ url value,
        sizeOf cache.items url ≤ cache.curBytes ∧
        NeverClips maxBytes value.bytes.length (cache.curBytes - sizeOf cache.items url) (others url cache.items) ∧
        (maxBytes < value.bytes.length → cache.set url value = cache) ∧
        (value.bytes.length ≤ maxBytes → (((cache.set url value).get url).map Prod.fst = some value ∧
          ∃ n, cache.SetExact url value n)) := by
  intro cache
  have hmax : cache.maxBytes = maxBytes := maxBytes_runOps _ ops
  have haccounted : cache.Accounted := (Accounted.new maxBytes).runOps ops
  have horder := keys_runOps (Accounted.new maxBytes) (List.nil_sublist []) ops
  refine ⟨haccounted.curBytes, haccounted.size, hmax ▸ haccounted.le, horder, fun url value => ?_⟩
  obtain ⟨hprevious, hothers⟩ := haccounted.others url
  refine ⟨hprevious, neverClips hothers, fun h => set_of_too_large (hmax.symm ▸ h) url, fun hfits => ⟨?_, ?_⟩⟩
  · have hroom : value.bytes.length ≤ cache.maxBytes := hmax.symm ▸ hfits
    have hlookup : (cache.set url value).items.lookup url = some ⟨value.mimeType, value.bytes, value.bytes.length⟩ :=
      lookup_set_self hroom
    rw [MemoryCache.get, hlookup]
    rfl
  · exact haccounted.setExact (hmax.symm ▸ hfits) url

/-! ## What was set last -/

/-- The value that a URL was set to last. -/
def latestSet (ops : List MemoryOp) (url : String) : Option CachedInlineData :=
  ops.foldl (fun latest op =>
    match op with
    | .set url' value => if url' = url then some value else latest
    | .get _ => latest) none

/-- A lookup finds nothing, or what was set last. -/
def Fresh (maxBytes : ℕ) (ops : List MemoryOp) : Prop :=
  ∀ url hit cache, ((MemoryCache.new maxBytes).runOps ops).get url = some (hit, cache) → latestSet ops url = some hit

/-- An image that is too large is not set where there is an older one. -/
def Replaces (cache : MemoryCache) : MemoryOp → Prop
  | .get _ => True
  | .set url value => value.bytes.length ≤ cache.maxBytes ∨ cache.items.lookup url = none

theorem latestSet_concat (ops : List MemoryOp) (op : MemoryOp) (url : String) :
    latestSet (ops ++ [op]) url =
      match op with
      | .set url' value => if url' = url then some value else latestSet ops url
      | .get _ => latestSet ops url := by
  rw [latestSet, List.foldl_append]
  rfl

theorem runOps_concat (cache : MemoryCache) (ops : List MemoryOp) (op : MemoryOp) :
    cache.runOps (ops ++ [op]) = (cache.runOps ops).apply op := by
  rw [runOps, List.foldl_append]
  rfl

/-- What is under a URL after an operation was there before, or is what was set. -/
theorem lookup_apply {op : MemoryOp} {item : MemoryEntry} (h : (cache.apply op).items.lookup url = some item)
    (hnodup : (cache.items.map Prod.fst).Nodup) :
    cache.items.lookup url = some item ∨
      ∃ value, op = .set url value ∧ value.bytes.length ≤ cache.maxBytes ∧
        item = ⟨value.mimeType, value.bytes, value.bytes.length⟩ := by
  cases op with
  | get url' =>
    rw [MemoryCache.apply] at h
    rcases hget : cache.get url' with _ | ⟨hit, cache'⟩
    · rw [hget] at h
      exact .inl h
    · rw [hget] at h
      exact .inl ((lookup_get hget url).symm.trans h)
  | set url' value =>
    rw [MemoryCache.apply] at h
    by_cases hfits : value.bytes.length ≤ cache.maxBytes
    · rcases mem_set (Assoc.mem_of_lookup h) with hbefore | hnew
      · exact .inl ((Assoc.lookup_eq_some_iff_mem hnodup).mpr hbefore)
      · obtain ⟨rfl, rfl⟩ := Prod.mk.inj hnew
        exact .inr ⟨value, rfl, hfits, rfl⟩
    · rw [set_of_too_large (Nat.lt_of_not_le hfits)] at h
      exact .inl h

theorem fresh_iff_lookup {maxBytes : ℕ} {ops : List MemoryOp} :
    Fresh maxBytes ops ↔ ∀ url item, ((MemoryCache.new maxBytes).runOps ops).items.lookup url = some item →
      latestSet ops url = some ⟨item.mimeType, item.bytes⟩ := by
  constructor
  · intro h url item hlookup
    exact h url _ _ (by rw [MemoryCache.get, hlookup]; rfl)
  · intro h url hit cache hget
    obtain ⟨item, hlookup, rfl, -, -⟩ := get_eq_some hget
    exact h url item hlookup

theorem Fresh.concat {maxBytes : ℕ} {ops : List MemoryOp} {op : MemoryOp} (h : Fresh maxBytes ops)
    (hreplaces : Replaces ((MemoryCache.new maxBytes).runOps ops) op) : Fresh maxBytes (ops ++ [op]) := by
  have haccounted := (Accounted.new maxBytes).runOps ops
  rw [fresh_iff_lookup] at h ⊢
  intro url item hlookup
  rw [runOps_concat] at hlookup
  rw [latestSet_concat]
  have hfrom := lookup_apply hlookup haccounted.nodup
  cases op with
  | get url' =>
    rcases hfrom with hbefore | ⟨value, heq, -, -⟩
    · exact h url item hbefore
    · cases heq
  | set url' value =>
    dsimp only
    by_cases hurl : url' = url
    · subst hurl
      rw [if_pos rfl]
      rcases hreplaces with hfits | hnone
      · have hself : (MemoryCache.set _ url' value).items.lookup url' = some ⟨value.mimeType, value.bytes, value.bytes.length⟩ :=
          lookup_set_self hfits
        obtain rfl := Option.some.inj (hself.symm.trans hlookup)
        rfl
      · -- nothing is there, and nothing is stored
        rcases hfrom with hbefore | ⟨value', heq, -, rfl⟩
        · rw [hnone] at hbefore
          cases hbefore
        · obtain ⟨-, rfl⟩ := MemoryOp.set.inj heq
          rfl
    · rw [if_neg hurl]
      rcases hfrom with hbefore | ⟨value', heq, -, -⟩
      · exact h url item hbefore
      · exact absurd (MemoryOp.set.inj heq).1 hurl

/-- An image that is refused leaves the older one to be found. -/
theorem Fresh.replaces {maxBytes : ℕ} {ops : List MemoryOp} {op : MemoryOp} (h : Fresh maxBytes (ops ++ [op])) :
    Replaces ((MemoryCache.new maxBytes).runOps ops) op := by
  have haccounted := (Accounted.new maxBytes).runOps ops
  cases op with
  | get url => trivial
  | set url value =>
    by_cases hfits : value.bytes.length ≤ ((MemoryCache.new maxBytes).runOps ops).maxBytes
    · exact .inl hfits
    refine .inr ?_
    rcases hlookup : ((MemoryCache.new maxBytes).runOps ops).items.lookup url with _ | item
    · rfl
    have hsame : (MemoryCache.new maxBytes).runOps (ops ++ [.set url value]) = (MemoryCache.new maxBytes).runOps ops := by
      rw [runOps_concat]
      exact set_of_too_large (Nat.lt_of_not_le hfits) url
    have hlatest := fresh_iff_lookup.mp h url item (by rw [hsame, hlookup])
    rw [latestSet_concat] at hlatest
    dsimp only at hlatest
    rw [if_pos rfl] at hlatest
    obtain rfl := Option.some.inj hlatest
    -- what is stored fits
    have hsize : item.size = item.bytes.length := haccounted.size _ (Assoc.mem_of_lookup hlookup)
    have hle := (haccounted.others url).1
    rw [sizeOf, hlookup] at hle
    have hmax := haccounted.le
    exact absurd (hsize ▸ hle.trans hmax) hfits

/-- **What is found is at every time what was set last, if and only if nothing that is too large is set where there is
an older image.** -/
theorem fresh_iff (maxBytes : ℕ) (ops : List MemoryOp) :
    (∀ n, Fresh maxBytes (ops.take n)) ↔
      ∀ n op, ops[n]? = some op → Replaces ((MemoryCache.new maxBytes).runOps (ops.take n)) op := by
  constructor
  · intro h n op hop
    have hnext := h (n + 1)
    rw [List.take_add_one, hop] at hnext
    exact hnext.replaces
  · intro h n
    induction n with
    | zero => exact fun url hit cache hget => by cases hget
    | succ n ih =>
      rw [List.take_add_one]
      rcases hop : ops[n]? with _ | op
      · rw [Option.toList_none, List.append_nil]
        exact ih
      · exact ih.concat (h n op hop)

/-- A second image of a URL that is too large is refused, and the first is found. -/
theorem refusedSet_stale : ¬ ∀ maxBytes ops, Fresh maxBytes ops := by
  intro h
  have hold := h 2 [.set "http://a/i.png" ⟨"image/png", [1]⟩, .set "http://a/i.png" ⟨"image/png", [2, 2, 2]⟩]
    "http://a/i.png" ⟨"image/png", [1]⟩ _ rfl
  exact absurd hold (by decide)

end MemoryCache

end GeminiWorker
