import GeminiWorker.Spec.DiskCache
import GeminiWorker.Spec.ImageFetch

/-!
# The two fetch services of the router

`build_router` makes a fetch service for the images of requests and one for those of responses, of one
configuration. They have memory caches of their own and share the directory of the disk cache.

A step is one of a service, or of a call of the disk cache that a service is waiting for.
-/

namespace GeminiWorker

/-- The part of `Config` that the services are made of; durations in milliseconds. -/
structure InlineDataUrlConfig where
  cacheDir : String
  cacheTtl : ℕ
  cacheMaxBytes : ℕ
  memoryCacheMaxBytes : ℕ
  backgroundFetchTotalTimeout : ℕ
  backgroundFetchMaxInflight : ℕ
  enableRequestImageWebpOptimization : Bool

structure InlineDataUrlFetchService where
  maxImageBytes : ℕ
  optimizeLargePngAsWebp : Bool
  memoryCache : Option MemoryCache
  hasDiskCache : Bool
  maxInflight : ℕ
  enableBackgroundBridge : Bool

namespace InlineDataUrlConfig

variable (config : InlineDataUrlConfig)

def hasCacheDir : Bool := Text.trim config.cacheDir ≠ ""

def diskCacheConfig (codec : DiskCodec) : DiskCacheConfig :=
  ⟨codec, UInt64.ofNat config.cacheTtl, UInt64.ofNat config.cacheMaxBytes⟩

def fromConfigWithPngOptimization (maxImageBytes : ℕ) (optimizeLargePngAsWebp : Bool) (maxInflight : ℕ)
    (enableBackgroundBridge : Bool) : Option InlineDataUrlFetchService :=
  if !config.hasCacheDir ∧ config.backgroundFetchTotalTimeout = 0 ∧ config.memoryCacheMaxBytes = 0 then none
  else some {
    maxImageBytes
    optimizeLargePngAsWebp
    memoryCache := if config.memoryCacheMaxBytes > 0 then some (.new config.memoryCacheMaxBytes) else none
    hasDiskCache := config.hasCacheDir && config.cacheTtl ≠ 0 && decide (config.cacheMaxBytes > 0)
    maxInflight
    enableBackgroundBridge }

def fromConfig (maxImageBytes : ℕ) : Option InlineDataUrlFetchService :=
  config.fromConfigWithPngOptimization maxImageBytes config.enableRequestImageWebpOptimization
    config.backgroundFetchMaxInflight true

def fromResponseConfig (maxImageBytes : ℕ) : Option InlineDataUrlFetchService :=
  config.fromConfigWithPngOptimization maxImageBytes false (max config.backgroundFetchMaxInflight 1) false

/-- What `build_router` makes. -/
def service : Side → Option InlineDataUrlFetchService
  | .request => config.fromConfig requestMaxImageBytes
  | .response => config.fromResponseConfig defaultMaxImageBytes

end InlineDataUrlConfig

def InlineDataUrlFetchService.fetchConfig (service : InlineDataUrlFetchService)
    (encodeWebp : List UInt8 → Option (List UInt8)) : FetchConfig ImageExchange where
  enableBackgroundBridge := service.enableBackgroundBridge
  maxInflight := service.maxInflight
  hasDiskCache := service.hasDiskCache
  download := directFetch encodeWebp service.maxImageBytes service.optimizeLargePngAsWebp

structure FetchServices where
  fetches : Side → FetchState
  disk : DiskState

inductive ServicesEvent where
  | fetch (side : Side) (event : FetchEvent ImageExchange)
  | disk (event : DiskEvent)

/-- What a step of a service takes from a call of the disk cache: the answer, or that it has returned. -/
inductive DiskUse where
  | got (url : String) (answer : Except String (Option CachedInlineData))
  | set (url : String) (value : CachedInlineData)
deriving DecidableEq

def FetchState.diskUse (s : FetchState) : FetchEvent ImageExchange → Option DiskUse
  | .diskAnswer c answer => s.calls[c]?.map fun call => .got call.url answer
  | .advance c => s.calls[c]?.bind fun call =>
      match call.phase with
      | .storingDisk cached => some (.set call.url cached)
      | _ => none
  | .run t => s.tasks[t]?.bind fun task =>
      match task.phase with
      | .storingDisk hit => some (.set task.url hit)
      | _ => none
  | _ => none

def DiskCall.use : DiskCall → Option DiskUse
  | .get url (.returned answer) => some (.got url answer)
  | .set url value (.returned _) => some (.set url value)
  | _ => none

/-- Whether one of the service's calls or tasks is where it calls the disk cache. -/
def FetchState.mayStart (s : FetchState) : DiskEvent → Bool
  | .get _ url => s.calls.any fun call => call.url = url && call.phase = .disk
  | .set _ url value =>
    (s.calls.any fun call => call.url = url && call.phase = .storingDisk value) ||
      s.tasks.any fun task => task.url = url && task.polling && task.phase = .storingDisk value
  | _ => true

def DiskEvent.side : DiskEvent → Side
  | .get side _ | .set side _ _ | .advance side _ | .write side _ | .listDir side _ | .fail side _ | .release side =>
    side

namespace FetchServices

variable (config : InlineDataUrlConfig) (codec : DiskCodec) (encodeWebp : List UInt8 → Option (List UInt8))

def step (s : FetchServices) : ServicesEvent → Option FetchServices
  | .fetch side event => (config.service side).bind fun service =>
      let next := ((s.fetches side).step (service.fetchConfig encodeWebp) event).map fun fetch =>
        { s with fetches := Function.update s.fetches side fetch }
      match (s.fetches side).diskUse event with
      | none => next
      | some use =>
        if service.hasDiskCache then
          -- the call of the disk cache must have returned, and lets its lock go
          if (s.disk.holder side).bind DiskCall.use = some use then
            next.map fun s => { s with disk := s.disk.setHolder side none }
          else none
        else next
  | .disk event => (config.service event.side).bind fun service =>
      if service.hasDiskCache && (s.fetches event.side).mayStart event then
        (s.disk.step (config.diskCacheConfig codec) event).map fun disk => { s with disk }
      else none

/-- The services after their start, over a directory that holds what was stored before. -/
def start (dir : Disk) (stored : List (String × CachedInlineData)) : FetchServices :=
  ⟨fun side => .init ((config.service side).bind (·.memoryCache)), .start dir stored⟩

end FetchServices

/-- `max_image_bytes` of a service. -/
def Side.maxImageBytes : Side → ℕ
  | .request => requestMaxImageBytes
  | .response => defaultMaxImageBytes

end GeminiWorker
