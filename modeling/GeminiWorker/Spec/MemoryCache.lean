import GeminiWorker.Lib.Assoc

/-!
# The memory cache

`MemoryCache` of `cache.rs`: images by URL up to a number of bytes. The entries stand in the order of their
last use, the latest last.
-/

namespace GeminiWorker

structure CachedInlineData where
  mimeType : String
  bytes : List UInt8
deriving DecidableEq

structure MemoryEntry where
  mimeType : String
  bytes : List UInt8
  size : ℕ
deriving DecidableEq

/-- The counters are natural numbers: `cur_bytes` is the size of the images that are held in memory, so that the sum
with one more image fits into a `u64`. -/
structure MemoryCache where
  items : List (String × MemoryEntry)
  maxBytes : ℕ
  curBytes : ℕ
deriving DecidableEq

namespace MemoryCache

def new (maxBytes : ℕ) : MemoryCache := ⟨[], maxBytes, 0⟩

/-- A URL that is found becomes the latest. -/
def get (cache : MemoryCache) (url : String) : Option (CachedInlineData × MemoryCache) :=
  (cache.items.lookup url).map fun item =>
    (⟨item.mimeType, item.bytes⟩, { cache with items := Assoc.others url cache.items ++ [(url, item)] })

/-- The loop of `set`: the oldest entries are evicted until the new one fits or none is left. -/
def evict (maxBytes size : ℕ) : ℕ → List (String × MemoryEntry) → ℕ × List (String × MemoryEntry)
  | curBytes, [] => (curBytes, [])
  | curBytes, oldest :: items =>
    if curBytes + size > maxBytes then evict maxBytes size (curBytes - oldest.2.size) items
    else (curBytes, oldest :: items)

/-- Subtraction is `saturating_sub`. -/
def set (cache : MemoryCache) (url : String) (value : CachedInlineData) : MemoryCache :=
  let size := value.bytes.length
  if size > cache.maxBytes then cache
  else
    let curBytes := match cache.items.lookup url with
      | some previous => cache.curBytes - previous.size
      | none => cache.curBytes
    let (curBytes, items) := evict cache.maxBytes size curBytes (Assoc.others url cache.items)
    { cache with
      items := Assoc.others url items ++ [(url, ⟨value.mimeType, value.bytes, size⟩)]
      curBytes := curBytes + size }

end MemoryCache

end GeminiWorker
