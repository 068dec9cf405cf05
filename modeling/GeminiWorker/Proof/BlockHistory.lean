import GeminiWorker.Proof.BlockReplay

/-!
# The cache of blocked requests as a map with lifetimes

* `runOps_history`: over any run the entries are those of the latest insertions, in the order of their last use, and
  an entry is there as long as it has not expired and fewer other keys than the capacity were used after it.
* `blockCache_refines`: a lookup returns the response of the latest insertion within its lifetime and only this, the
  entries never exceed the capacity, and no insertion evicts a live entry while an expired one is there.
-/

namespace GeminiWorker

open Lru (usedSince Recent)

/-- An operation of the cache. -/
inductive BlockOp where
  | get (key : UpstreamBlockCacheKey)
  | insert (key : UpstreamBlockCacheKey) (response : CachedBlockResponse)
deriving DecidableEq

/-- The hit that returns a response. -/
def CachedBlockResponse.toHit (response : CachedBlockResponse) : BlockCacheHit :=
  ⟨response.status, response.upstreamStatus, response.contentType, response.body, response.reason⟩

/-- The latest insertion under a key, with its time. -/
def latestInsert (ops : List (ℕ × BlockOp)) (key : UpstreamBlockCacheKey) : Option (ℕ × CachedBlockResponse) :=
  ops.foldl (fun latest op =>
    match op with
    | (now, .insert key' response) => if key' = key then some (now, response) else latest
    | (_, .get _) => latest) none

theorem latestInsert_concat (ops : List (ℕ × BlockOp)) (op : ℕ × BlockOp) (key : UpstreamBlockCacheKey) :
    latestInsert (ops ++ [op]) key =
      match op with
      | (now, .insert key' response) => if key' = key then some (now, response) else latestInsert ops key
      | (_, .get _) => latestInsert ops key :=
  List.foldl_concat _ _ _ _

namespace UpstreamBlockCache

/-- An operation at its time. -/
def apply (cache : UpstreamBlockCache) : ℕ × BlockOp → UpstreamBlockCache
  | (now, .get key) => (cache.get now key).2
  | (now, .insert key response) => cache.insert now key response

/-- The key that an operation uses: the one it inserts, or finds. -/
def usedKey (cache : UpstreamBlockCache) : ℕ × BlockOp → Option UpstreamBlockCacheKey
  | (now, .get key) => if (cache.get now key).1.isSome then some key else none
  | (_, .insert key _) => some key

theorem usedKey_get (cache : UpstreamBlockCache) (now : ℕ) (key : UpstreamBlockCacheKey) :
    cache.usedKey (now, .get key) = if (cache.get now key).1.isSome then some key else none :=
  rfl

def runOps (cache : UpstreamBlockCache) (ops : List (ℕ × BlockOp)) : UpstreamBlockCache := ops.foldl apply cache

/-- The keys that a run uses, from the last use back. -/
def uses (cache : UpstreamBlockCache) (ops : List (ℕ × BlockOp)) : List UpstreamBlockCacheKey :=
  (ops.foldl (fun (reached : UpstreamBlockCache × List UpstreamBlockCacheKey) op =>
    (reached.1.apply op, (reached.1.usedKey op).toList ++ reached.2)) (cache, [])).2

theorem runOps_concat (cache : UpstreamBlockCache) (ops : List (ℕ × BlockOp)) (op : ℕ × BlockOp) :
    cache.runOps (ops ++ [op]) = (cache.runOps ops).apply op :=
  List.foldl_concat _ _ _ _

theorem uses_concat (cache : UpstreamBlockCache) (ops : List (ℕ × BlockOp)) (op : ℕ × BlockOp) :
    cache.uses (ops ++ [op]) = ((cache.runOps ops).usedKey op).toList ++ cache.uses ops := by
  have hrun : ∀ (ops : List (ℕ × BlockOp)) (cache : UpstreamBlockCache) (used : List UpstreamBlockCacheKey),
      (ops.foldl (fun (reached : UpstreamBlockCache × List UpstreamBlockCacheKey) op =>
        (reached.1.apply op, (reached.1.usedKey op).toList ++ reached.2)) (cache, used)).1 = cache.runOps ops := by
    intro ops
    induction ops with
    | nil => exact fun _ _ => rfl
    | cons op ops ih => exact fun cache used => ih _ _
  unfold uses
  rw [List.foldl_concat, hrun]

/-! ## One operation -/

/-- What a lookup does: nothing, or it uses the entry, which is removed if it has expired. -/
theorem get_cases (cache : UpstreamBlockCache) (now : ℕ) (key : UpstreamBlockCacheKey) :
    (cache.entries.peek key = none ∧ cache.get now key = (none, cache)) ∨
    ∃ entry entries, cache.entries.get key = some (entry, entries) ∧ (cache.get now key).2.ttl = cache.ttl ∧
      (entry.expiresAt ≤ now ∧ (cache.get now key).1 = none ∧ (cache.get now key).2.entries = entries.pop key ∨
        now < entry.expiresAt ∧ (cache.get now key).1 = some entry.response.toHit ∧
          (cache.get now key).2.entries = entries) := by
  unfold get
  split
  · rename_i hnone
    exact Or.inl ⟨Lru.get_eq_none_iff.mp hnone, rfl⟩
  · rename_i entry entries hsome
    refine Or.inr ⟨entry, entries, hsome, ?_⟩
    dsimp only
    by_cases hexpired : entry.expiresAt ≤ now
    · rw [if_pos hexpired]
      exact ⟨rfl, Or.inl ⟨hexpired, rfl, rfl⟩⟩
    · rw [if_neg hexpired]
      exact ⟨rfl, Or.inr ⟨Nat.lt_of_not_le hexpired, rfl, rfl⟩⟩

/-- Pruning keeps what has not expired, in its order. -/
theorem entries_prune (entries : Lru UpstreamBlockCacheKey StoredBlockResponse) (now : ℕ) :
    (pruneExpiredEntries entries now).entries = entries.entries.filter fun e => now < e.2.expiresAt := by
  unfold pruneExpiredEntries
  dsimp only
  rw [Lru.entries_foldl_pop]
  refine List.filter_congr fun e he => ?_
  rw [decide_eq_decide]
  constructor
  · intro hkept
    by_contra hexpired
    refine hkept (List.mem_map.mpr ⟨e, List.mem_filter.mpr ⟨he, ?_⟩, rfl⟩)
    exact decide_eq_true (Nat.le_of_not_lt hexpired)
  · intro hfresh hmem
    obtain ⟨e', he', hkey⟩ := List.mem_map.mp hmem
    obtain ⟨he', hexpired⟩ := List.mem_filter.mp he'
    -- keys are distinct
    obtain rfl : e' = e := List.inj_on_of_nodup_map entries.nodup he' he hkey
    have hle := of_decide_eq_true hexpired
    omega

theorem prune_sublist (entries : Lru UpstreamBlockCacheKey StoredBlockResponse) (now : ℕ) :
    (pruneExpiredEntries entries now).keys.Sublist entries.keys := by
  unfold Lru.keys
  rw [entries_prune]
  exact List.filter_sublist.map _

theorem peek_of_peek_prune {entries : Lru UpstreamBlockCacheKey StoredBlockResponse} {now : ℕ}
    {key : UpstreamBlockCacheKey} {entry : StoredBlockResponse}
    (h : (pruneExpiredEntries entries now).peek key = some entry) : entries.peek key = some entry := by
  have hmem := Assoc.mem_of_lookup h
  rw [entries_prune] at hmem
  exact (Assoc.lookup_eq_some_iff_mem entries.nodup).mpr (List.mem_filter.mp hmem).1

theorem capacity_prune (entries : Lru UpstreamBlockCacheKey StoredBlockResponse) (now : ℕ) :
    (pruneExpiredEntries entries now).capacity = entries.capacity :=
  capacity_foldl_pop _ entries

/-- **No insertion evicts while an expired entry is there**: that entry makes room. -/
theorem insert_keeps_live {cache : UpstreamBlockCache} {now : ℕ} {key expired : UpstreamBlockCacheKey}
    {old : StoredBlockResponse} (hold : cache.entries.peek expired = some old) (hexpired : old.expiresAt ≤ now)
    (response : CachedBlockResponse) {k : UpstreamBlockCacheKey} {entry : StoredBlockResponse}
    (hpeek : cache.entries.peek k = some entry) (hfresh : now < entry.expiresAt) (hne : k ≠ key) :
    (cache.insert now key response).entries.peek k = some entry := by
  have hroom : (pruneExpiredEntries cache.entries now).entries.length <
      (pruneExpiredEntries cache.entries now).capacity := by
    rw [entries_prune, capacity_prune]
    have hlt : (cache.entries.entries.filter fun e => now < e.2.expiresAt).length < cache.entries.entries.length := by
      refine List.length_filter_lt_length_iff_exists.mpr ⟨(expired, old), Assoc.mem_of_lookup hold, ?_⟩
      simpa using hexpired
    have hle := cache.entries.length_le
    omega
  refine insert_keeps response hpeek hfresh hne ?_
  rw [Lru.evicted_of_lt hroom]
  exact Option.some_ne_none k |>.symm

/-! ## A run -/

/-- What the operations so far, and the keys that they used, leave in the cache. -/
structure History (ttl maxEntries : ℕ) (ops : List (ℕ × BlockOp)) (used : List UpstreamBlockCacheKey)
    (cache : UpstreamBlockCache) : Prop where
  ttl_eq : cache.ttl = ttl
  capacity_eq : cache.entries.capacity = maxEntries
  latest : ∀ key entry, cache.entries.peek key = some entry →
    ∃ t0, latestInsert ops key = some (t0, entry.response) ∧ entry.expiresAt = t0 + ttl
  recent : Recent cache.entries.keys used
  kept : ∀ key t0 response, latestInsert ops key = some (t0, response) → (∀ op ∈ ops, op.1 < t0 + ttl) →
    (usedSince used key).card < maxEntries → cache.entries.peek key = some ⟨response, t0 + ttl⟩

variable {ttl maxEntries now : ℕ} {ops : List (ℕ × BlockOp)} {used : List UpstreamBlockCacheKey}
  {cache : UpstreamBlockCache}

/-- Fewer keys are used before an operation than after it. -/
theorem card_usedSince_le {key key' : UpstreamBlockCacheKey} (hne : key' ≠ key) :
    (usedSince used key).card ≤ (usedSince (key' :: used) key).card := by
  rw [Lru.usedSince_cons_of_ne used hne]
  exact Finset.card_le_card (Finset.subset_insert _ _)

/-- **A lookup keeps the history.** -/
theorem History.get (h : History ttl maxEntries ops used cache) (now : ℕ) (key : UpstreamBlockCacheKey) :
    History ttl maxEntries (ops ++ [(now, .get key)]) ((cache.usedKey (now, .get key)).toList ++ used)
      (cache.get now key).2 := by
  have hlatest : ∀ k, latestInsert (ops ++ [(now, .get key)]) k = latestInsert ops k :=
    fun k => latestInsert_concat ops _ k
  -- a live entry survives, as long as it was there before
  have hkept : ∀ k t0 response, latestInsert ops k = some (t0, response) →
      (∀ op ∈ ops ++ [(now, BlockOp.get key)], op.1 < t0 + ttl) → (usedSince used k).card < maxEntries →
      (cache.get now key).2.entries.peek k = some ⟨response, t0 + ttl⟩ := by
    intro k t0 response hk htimes hfew
    have hbefore := h.kept k t0 response hk (fun op hop => htimes op (List.mem_append_left _ hop)) hfew
    exact get_keeps hbefore (htimes _ (List.mem_append_right _ (List.mem_singleton_self _)))
  rcases get_cases cache now key with ⟨-, hsame⟩ | ⟨entry, entries, hget, httl, ⟨-, hmiss, hentries⟩ | ⟨-, hhit, hentries⟩⟩
  · have hused : cache.usedKey (now, .get key) = none := by
      rw [usedKey_get, hsame]
      rfl
    rw [hused, hsame]
    rw [hsame] at hkept
    refine ⟨h.ttl_eq, h.capacity_eq, fun k found hfound => ?_, h.recent, fun k t0 response hk htimes hfew => ?_⟩
    · rw [hlatest]
      exact h.latest k found hfound
    · rw [hlatest] at hk
      exact hkept k t0 response hk htimes hfew
  · have hused : cache.usedKey (now, .get key) = none := by
      rw [usedKey_get, hmiss]
      rfl
    rw [hused]
    have hcapacity := (Lru.get_eq_some hget).2.1
    refine ⟨httl.trans h.ttl_eq, ?_, fun k found hfound => ?_, ?_, fun k t0 response hk htimes hfew => ?_⟩
    · rw [hentries]
      exact hcapacity.trans h.capacity_eq
    · rw [hentries] at hfound
      have hbefore := Lru.peek_of_peek_pop hfound
      rw [Lru.peek_get hget] at hbefore
      rw [hlatest]
      exact h.latest k found hbefore
    · rw [hentries]
      exact h.recent.sublist (Lru.keys_pop_get_sublist hget)
    · rw [hlatest] at hk
      exact hkept k t0 response hk htimes hfew
  · have hused : cache.usedKey (now, .get key) = some key := by
      rw [usedKey_get, hhit]
      rfl
    rw [hused]
    have hcapacity := (Lru.get_eq_some hget).2.1
    refine ⟨httl.trans h.ttl_eq, ?_, fun k found hfound => ?_, ?_, fun k t0 response hk htimes hfew => ?_⟩
    · rw [hentries]
      exact hcapacity.trans h.capacity_eq
    · rw [hentries, Lru.peek_get hget] at hfound
      rw [hlatest]
      exact h.latest k found hfound
    · rw [hentries]
      exact h.recent.get hget
    · rw [hlatest] at hk
      by_cases hkey : k = key
      · -- what is found is the latest insertion
        subst hkey
        obtain ⟨t1, hlast, hexpires⟩ := h.latest k entry (Lru.get_eq_some hget).1
        rw [hk] at hlast
        obtain ⟨rfl, rfl⟩ := Prod.mk.inj (Option.some.inj hlast)
        rw [hentries, Lru.peek_get hget, (Lru.get_eq_some hget).1, ← hexpires]
      · have hle := @card_usedSince_le used k key (Ne.symm hkey)
        exact hkept k t0 response hk htimes (lt_of_le_of_lt hle hfew)

/-- **An insertion keeps the history.** -/
theorem History.insert (h : History ttl maxEntries ops used cache) (now : ℕ) (key : UpstreamBlockCacheKey)
    (response : CachedBlockResponse) :
    History ttl maxEntries (ops ++ [(now, .insert key response)]) (key :: used) (cache.insert now key response) := by
  have hlatest : ∀ k, latestInsert (ops ++ [(now, .insert key response)]) k =
      if key = k then some (now, response) else latestInsert ops k :=
    fun k => latestInsert_concat ops _ k
  have hself := peek_insert_self cache now key response
  rw [h.ttl_eq] at hself
  have hpruned : Recent (pruneExpiredEntries cache.entries now).keys used := h.recent.sublist (prune_sublist _ now)
  have hcapacity := (capacity_prune cache.entries now).trans h.capacity_eq
  have hroom : 0 < (pruneExpiredEntries cache.entries now).capacity := by
    rw [capacity_prune]
    exact cache.capacity_pos
  refine ⟨h.ttl_eq, hcapacity, fun k found hfound => ?_, hpruned.put hroom key _, fun k t0 r hk htimes hfew => ?_⟩
  · rw [hlatest]
    by_cases hkey : key = k
    · subst hkey
      rw [hself] at hfound
      obtain rfl := Option.some.inj hfound
      exact ⟨now, if_pos rfl, rfl⟩
    · rw [if_neg hkey]
      exact h.latest k found (peek_of_peek_prune (Lru.peek_of_peek_put hroom hfound (Ne.symm hkey)))
  · rw [hlatest] at hk
    by_cases hkey : key = k
    · subst hkey
      rw [if_pos rfl] at hk
      obtain ⟨rfl, rfl⟩ := Prod.mk.inj (Option.some.inj hk)
      exact hself
    · rw [if_neg hkey] at hk
      have hle := @card_usedSince_le used k key hkey
      have hbefore := h.kept k t0 r hk (fun op hop => htimes op (List.mem_append_left _ hop)) (lt_of_le_of_lt hle hfew)
      have hfresh : now < t0 + ttl := htimes _ (List.mem_append_right _ (List.mem_singleton_self _))
      refine insert_keeps response hbefore hfresh (Ne.symm hkey) (Lru.evicted_ne hpruned hkey ?_)
      rw [hcapacity]
      exact hfew

/-- **A run keeps the history.** -/
theorem runOps_history (h : History ttl maxEntries [] [] cache) (ops : List (ℕ × BlockOp)) :
    History ttl maxEntries ops (cache.uses ops) (cache.runOps ops) := by
  induction ops using List.reverseRecOn with
  | nil => exact h
  | append_singleton ops op ih =>
    rw [runOps_concat, uses_concat]
    obtain ⟨now, key | ⟨key, response⟩⟩ := op
    · exact ih.get now key
    · exact ih.insert now key response

/-- A new cache has no history. -/
theorem new_history (httl : 0 < ttl) (hmax : 0 < maxEntries) :
    ∃ cache, new ttl maxEntries = some cache ∧ History ttl maxEntries [] [] cache := by
  refine ⟨⟨ttl, Lru.empty maxEntries, hmax⟩, ?_, rfl, rfl, nofun, List.Pairwise.nil, nofun⟩
  unfold new
  rw [if_neg (Nat.pos_iff_ne_zero.mp httl), dif_pos hmax]

end UpstreamBlockCache

open UpstreamBlockCache in
/-- **The cache is a map with lifetimes and evicts what was used last the longest ago.** -/
theorem blockCache_refines {ttl maxEntries : ℕ} (httl : 0 < ttl) (hmax : 0 < maxEntries) :
    ∃ start, new ttl maxEntries = some start ∧ ∀ ops : List (ℕ × BlockOp),
      let cache := start.runOps ops
      cache.entries.entries.length ≤ maxEntries ∧
      (∀ now key hit, (cache.get now key).1 = some hit →
        ∃ t0 response, latestInsert ops key = some (t0, response) ∧ hit = response.toHit ∧ now < t0 + ttl) ∧
      (∀ now key t0 response, (∀ op ∈ ops, op.1 ≤ now) → latestInsert ops key = some (t0, response) →
        now < t0 + ttl → (usedSince (start.uses ops) key).card < maxEntries →
          (cache.get now key).1 = some response.toHit) ∧
      ∀ now key response expired old k entry, cache.entries.peek expired = some old → old.expiresAt ≤ now →
        cache.entries.peek k = some entry → now < entry.expiresAt → k ≠ key →
          (cache.insert now key response).entries.peek k = some entry := by
  obtain ⟨start, hnew, hstart⟩ := new_history httl hmax
  refine ⟨start, hnew, fun ops => ?_⟩
  intro cache
  have hhistory : History ttl maxEntries ops (start.uses ops) cache := runOps_history hstart ops
  refine ⟨hhistory.capacity_eq ▸ cache.entries.length_le, fun now key hit hhit => ?_,
    fun now key t0 response htimes hlast hfresh hfew => ?_,
    fun now key response expired old k entry hold hexpired hpeek hfresh hne =>
      insert_keeps_live hold hexpired response hpeek hfresh hne⟩
  · rcases get_cases cache now key with ⟨-, hsame⟩ | ⟨entry, entries, hget, -, ⟨-, hmiss, -⟩ | ⟨hfresh, hfound, -⟩⟩
    · rw [hsame] at hhit
      cases hhit
    · rw [hmiss] at hhit
      cases hhit
    · rw [hfound] at hhit
      obtain rfl := Option.some.inj hhit
      obtain ⟨t0, hlast, hexpires⟩ := hhistory.latest key entry (Lru.get_eq_some hget).1
      exact ⟨t0, entry.response, hlast, rfl, hexpires ▸ hfresh⟩
  · have hbefore : ∀ op ∈ ops, op.1 < t0 + ttl := fun op hop => lt_of_le_of_lt (htimes op hop) hfresh
    exact get_hit (hhistory.kept key t0 response hlast hbefore hfew) hfresh

def blockedResponse : CachedBlockResponse := ⟨badGateway, badGateway, [], [], "content_blocked"⟩

theorem blockCache_example : ∃ start, UpstreamBlockCache.new 60000 2 = some start ∧
    ((start.runOps [(0, .insert "a" blockedResponse), (1, .insert "b" blockedResponse), (2, .get "a"),
      (3, .insert "c" blockedResponse)]).get 4 "a").1 = some blockedResponse.toHit := by
  obtain ⟨start, hnew, hall⟩ := @blockCache_refines 60000 2 (by decide) (by decide)
  refine ⟨start, hnew, ?_⟩
  obtain rfl := Option.some.inj (show some _ = some start from hnew)
  exact (hall _).2.2.1 4 "a" 0 blockedResponse (by decide) rfl (by decide) (by decide +kernel)

end GeminiWorker
