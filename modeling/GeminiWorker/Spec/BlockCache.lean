import GeminiWorker.Lib.Json
import GeminiWorker.Lib.Lru

/-!
# The cache of blocked requests

`upstream_block_cache.rs`: what an upstream answers to an input that it blocks is kept for
a while and replayed. Instants are milliseconds of a monotonic clock.
-/

namespace GeminiWorker

open Json (Value Map)

abbrev StatusCode := ℕ

/-- A header value, which need not be text. -/
abbrev HeaderValue := List UInt8

abbrev UpstreamBlockCacheKey := String

structure CachedBlockResponse where
  status : StatusCode
  upstreamStatus : StatusCode
  contentType : HeaderValue
  body : List UInt8
  reason : String
deriving DecidableEq

structure BlockCacheHit where
  status : StatusCode
  upstreamStatus : StatusCode
  contentType : HeaderValue
  body : List UInt8
  reason : String
deriving DecidableEq

structure StoredBlockResponse where
  response : CachedBlockResponse
  expiresAt : ℕ

mutual
def canonicalizeJson : Value → Value
  | .array items => .array (canonicalizeItems items)
  | .object map =>
    let canonical := canonicalizeMembers map
    let keys := (Map.keys map).mergeSort fun a b => decide (a ≤ b)
    .object (keys.foldl (fun sorted key =>
      match Map.get canonical key with
      | some v => Map.insert sorted key v
      | none => sorted) [])
  | value => value
def canonicalizeItems : List Value → List Value
  | [] => []
  | v :: items => canonicalizeJson v :: canonicalizeItems items
/-- The members with their values canonical. -/
def canonicalizeMembers : List (String × Value) → List (String × Value)
  | [] => []
  | (key, v) :: map => (key, canonicalizeJson v) :: canonicalizeMembers map
end

/-- `UpstreamBlockCacheKey::new`; `sha256Hex` is the digest in hexadecimal. -/
def UpstreamBlockCacheKey.new (sha256Hex : List UInt8 → String) (path upstreamBaseUrl : String)
    (requestBody : Value) : UpstreamBlockCacheKey :=
  let bodyHash := sha256Hex (Json.print (canonicalizeJson requestBody))
  path ++ "\n" ++ upstreamBaseUrl ++ "\n" ++ bodyHash

/-- The cache; `UpstreamBlockCache::new` makes none without a lifetime or without room. -/
structure UpstreamBlockCache where
  ttl : ℕ
  entries : Lru UpstreamBlockCacheKey StoredBlockResponse
  capacity_pos : 0 < entries.capacity

namespace UpstreamBlockCache

def new (ttl maxEntries : ℕ) : Option UpstreamBlockCache :=
  if ttl = 0 then none
  else if h : 0 < maxEntries then some ⟨ttl, Lru.empty maxEntries, h⟩
  else none

/-- `UpstreamBlockCache::get` at `now`. -/
def get (cache : UpstreamBlockCache) (now : ℕ) (key : UpstreamBlockCacheKey) :
    Option BlockCacheHit × UpstreamBlockCache :=
  match h : cache.entries.get key with
  | none => (none, cache)
  | some (entry, entries) =>
    have hcapacity : 0 < entries.capacity := by
      rw [(Lru.get_eq_some h).2.1]
      exact cache.capacity_pos
    if entry.expiresAt ≤ now then (none, ⟨cache.ttl, entries.pop key, hcapacity⟩)
    else
      let response := entry.response
      (some ⟨response.status, response.upstreamStatus, response.contentType, response.body,
        response.reason⟩, ⟨cache.ttl, entries, hcapacity⟩)

/-- `prune_expired_entries`: the expired keys are collected, then removed one by one. -/
def pruneExpiredEntries (entries : Lru UpstreamBlockCacheKey StoredBlockResponse) (now : ℕ) :
    Lru UpstreamBlockCacheKey StoredBlockResponse :=
  let expiredKeys := (entries.entries.filter fun e => e.2.expiresAt ≤ now).map Prod.fst
  expiredKeys.foldl Lru.pop entries

theorem capacity_foldl_pop (keys : List UpstreamBlockCacheKey)
    (entries : Lru UpstreamBlockCacheKey StoredBlockResponse) :
    (keys.foldl Lru.pop entries).capacity = entries.capacity := by
  induction keys generalizing entries with
  | nil => rfl
  | cons key keys ih => exact ih (entries.pop key)

/-- `UpstreamBlockCache::insert` at `now`. -/
def insert (cache : UpstreamBlockCache) (now : ℕ) (key : UpstreamBlockCacheKey)
    (response : CachedBlockResponse) : UpstreamBlockCache :=
  have hcapacity : 0 < (pruneExpiredEntries cache.entries now).capacity := by
    unfold pruneExpiredEntries
    rw [capacity_foldl_pop]
    exact cache.capacity_pos
  ⟨cache.ttl, (pruneExpiredEntries cache.entries now).put hcapacity key ⟨response, now + cache.ttl⟩,
    hcapacity⟩

end UpstreamBlockCache

def badRequest : StatusCode := 400

def badGateway : StatusCode := 502

def classifyBlockableUpstreamError (status : StatusCode) (body : List UInt8) : Option String :=
  if status ≠ badRequest ∧ status ≠ badGateway then none
  else
    let text := Text.toAsciiLowercase (Text.fromUtf8Lossy body)
    if Text.contains "image_unsafe" text then some "image_unsafe"
    else if Text.contains "upstream moderation triggered" text then some "upstream_moderation"
    else if Text.contains "content blocked" text then some "content_blocked"
    else if Text.contains "请求无法用于生成图像" text then some "content_blocked"
    else none

end GeminiWorker
