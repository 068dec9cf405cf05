import GeminiWorker.Lib.Decimal
import GeminiWorker.Spec.GeminiResponse
import GeminiWorker.Spec.OpenaiResponse
import GeminiWorker.Spec.Uploader

/-!
# The configuration

`config.rs`: the settings of the proxy, each of which is read from an environment variable. A setting that is
missing or cannot be read has a default; only the settings of the image host are refused.

Durations are in milliseconds.
-/

namespace GeminiWorker

structure BlobBudgetDefaults where
  inlineMaxBytes : UInt64
  requestHotBudgetBytes : UInt64
  globalHotBudgetBytes : UInt64
deriving DecidableEq

@[ext]
structure Config extends UploaderConfig, GeminiResponseConfig, OpenaiOutputConfig where
  port : UInt16
  upstreamBaseUrl : String
  upstreamApiKey : String
  upstreamTimeout : UInt64
  upstreamConnectTimeout : UInt64
  upstreamInsecureSkipVerify : Bool
  upstreamTcpKeepalive : UInt64
  upstreamPoolIdleTimeout : UInt64
  upstreamBlockCacheTtl : UInt64
  upstreamBlockCacheMaxEntries : UInt64
  allowedProxyDomains : List String
  slowLogThreshold : UInt64
  enableRequestImageWebpOptimization : Bool
  adminPassword : String
  imageFetchTimeout : UInt64
  imageTlsHandshakeTimeout : UInt64
  imageFetchInsecureSkipVerify : Bool
  imageFetchExternalProxyDomains : List String
  openaiImageB64JsonUpstreamDomains : List String
  openaiImageEditsUpstreamDomains : List String
  inlineDataUrlCacheDir : String
  inlineDataUrlCacheTtl : UInt64
  inlineDataUrlCacheMaxBytes : UInt64
  inlineDataUrlMemoryCacheMaxBytes : UInt64
  inlineDataUrlBackgroundFetchWaitTimeout : UInt64
  inlineDataUrlBackgroundFetchTotalTimeout : UInt64
  inlineDataUrlBackgroundFetchMaxInflight : UInt64
  blobInlineMaxBytes : UInt64
  blobRequestHotBudgetBytes : UInt64
  blobGlobalHotBudgetBytes : UInt64
  blobSpillDir : String
  uploadTimeout : UInt64
  uploadTlsHandshakeTimeout : UInt64
  uploadInsecureSkipVerify : Bool

def defaultInstanceMemoryBytes : UInt64 := 2 * 1024 * 1024 * 1024

def defaultLegacyUguuUploadUrl : String := "https://uguu.se/upload"

def defaultLegacyKefanUploadUrl : String := "https://ai.kefan.cn/api/upload/local"

def blobBudgetDefaultsForMemory (memoryBytes : UInt64) : BlobBudgetDefaults :=
  if memoryBytes ≥ 8 * 1024 * 1024 * 1024 then ⟨16 * 1024 * 1024, 64 * 1024 * 1024, 1536 * 1024 * 1024⟩
  else if memoryBytes ≥ 4 * 1024 * 1024 * 1024 then ⟨12 * 1024 * 1024, 40 * 1024 * 1024, 768 * 1024 * 1024⟩
  else ⟨8 * 1024 * 1024, 24 * 1024 * 1024, 384 * 1024 * 1024⟩

/-! ## Reading one setting -/

/-- `str::parse::<u64>`, and `usize`. -/
def parseU64 (raw : String) : Option UInt64 := (Text.parseUnsigned (2 ^ 64) raw).map UInt64.ofNat

def parsePort (raw : String) : Option UInt16 :=
  let trimmed := Text.trim raw
  if trimmed = "" then none else (Text.parseUnsigned (2 ^ 16) trimmed).map UInt16.ofNat

/-- A text that is not blank. -/
def trimmedOr (defaultValue : String) (value : Option String) : String :=
  ((value.map Text.trim).filter (· != "")).getD defaultValue

def parsePositiveU64WithDefault (defaultValue : UInt64) (value : Option String) : UInt64 :=
  match value.bind fun raw => parseU64 (Text.trim raw) with
  | some parsed => if parsed > 0 then parsed else defaultValue
  | none => defaultValue

def parseNonNegativeU64WithDefault (defaultValue : UInt64) (value : Option String) : UInt64 :=
  (value.bind fun raw => parseU64 (Text.trim raw)).getD defaultValue

def parseNonNegativeUsizeWithDefault (defaultValue : UInt64) (value : Option String) : UInt64 :=
  (value.bind fun raw => parseU64 (Text.trim raw)).getD defaultValue

def parseWaitTimeoutMs (defaultValue : UInt64) (value : Option String) : UInt64 :=
  (value.bind fun raw => parseU64 (Text.trim raw)).getD defaultValue

def parseJpegQuality (defaultValue : UInt8) (value : Option String) : UInt8 :=
  match value.bind fun raw => (Text.parseUnsigned (2 ^ 8) (Text.trim raw)).map UInt8.ofNat with
  | some parsed => if 1 ≤ parsed ∧ parsed ≤ 100 then parsed else defaultValue
  | none => defaultValue

def isDisabledValue (raw : String) : Bool :=
  Text.toAsciiLowercase (Text.trim raw) ∈ ["", "0", "false", "no", "n", "off", "disable", "disabled", "none"]

def parseCacheBytes (defaultValue : UInt64) (value : Option String) : UInt64 :=
  match value.map Text.trim with
  | some raw => if isDisabledValue raw then 0 else (parseU64 raw).getD defaultValue
  | none => defaultValue

def parseCsv (raw : String) : List String := ((Text.split ',' raw).map Text.trim).filter (· != "")

def parseOptionalStringWithDisabled (raw : String) : String :=
  if isDisabledValue raw then "" else Text.trim raw

def parseBool (defaultValue : Bool) (value : Option String) : Bool :=
  match value.map fun v => Text.toAsciiLowercase (Text.trim v) with
  | some v =>
    if v ∈ ["1", "true", "yes", "y", "on", "enable", "enabled"] then true
    else if v ∈ ["0", "false", "no", "n", "off", "disable", "disabled", "none"] then false
    else defaultValue
  | none => defaultValue

def defaultAllowedProxyDomains : List String := ["ai.kefan.cn", "uguu.se", ".uguu.se", ".aitohumanize.com"]

def defaultOpenaiImageEditsUpstreamDomains : List String := ["happyapi.org", "www.happyapi.org"]

section

/- `Url::parse`, with its error as text, and `Url::to_string`. -/
variable (parse : String → Except String Url) (toText : Url → String)

def normalizeOptionalHttpBaseUrl (raw : String) : String :=
  if isDisabledValue raw then ""
  else match parseHttpBaseUrl parse raw "PUBLIC_BASE_URL" with
    | .ok parsed => Text.trimEndMatches '/' (toText parsed)
    | .error _ => ""

/-! ## Reading all -/

def Config.fromEnvMap (envMap : String → Option String) : Except String Config := do
  let blobBudgetDefaults := blobBudgetDefaultsForMemory
    (parseNonNegativeU64WithDefault defaultInstanceMemoryBytes (envMap "INSTANCE_MEMORY_BYTES"))
  let imageFetchTimeoutMsRaw := parsePositiveU64WithDefault 20000 (envMap "IMAGE_FETCH_TIMEOUT_MS")
  let publicBaseUrl := ((envMap "PUBLIC_BASE_URL").map (normalizeOptionalHttpBaseUrl parse toText)).getD ""
  let externalImageProxyPrefix := ((envMap "EXTERNAL_IMAGE_PROXY_PREFIX").map parseOptionalStringWithDisabled).getD ""
  let proxyStandardOutputUrls := parseBool true (envMap "PROXY_STANDARD_OUTPUT_URLS")
  let proxyR2OutputUrls := match envMap "PROXY_R2_OUTPUT_URLS" with
    | some value => parseBool false (some value)
    | none => proxyStandardOutputUrls &&
        (Text.trim externalImageProxyPrefix != "" || Text.trim publicBaseUrl != "")
  let r2Config ← R2Config.fromEnvMap parse envMap
  return {
    toR2Config := r2Config
    port := ((envMap "PORT").bind parsePort).getD 8787
    upstreamBaseUrl := trimmedOr "https://magic666.top" (envMap "UPSTREAM_BASE_URL")
    upstreamApiKey := (envMap "UPSTREAM_API_KEY").getD ""
    upstreamTimeout := parsePositiveU64WithDefault 600000 (envMap "UPSTREAM_TIMEOUT_MS")
    upstreamConnectTimeout := parsePositiveU64WithDefault 30000 (envMap "UPSTREAM_CONNECT_TIMEOUT_MS")
    upstreamInsecureSkipVerify := parseBool false (envMap "UPSTREAM_INSECURE_SKIP_VERIFY")
    upstreamTcpKeepalive := parsePositiveU64WithDefault 30000 (envMap "UPSTREAM_TCP_KEEPALIVE_MS")
    upstreamPoolIdleTimeout := parsePositiveU64WithDefault 15000 (envMap "UPSTREAM_POOL_IDLE_TIMEOUT_MS")
    upstreamBlockCacheTtl := parseNonNegativeU64WithDefault 300000 (envMap "UPSTREAM_BLOCK_CACHE_TTL_MS")
    upstreamBlockCacheMaxEntries :=
      parseNonNegativeUsizeWithDefault 1024 (envMap "UPSTREAM_BLOCK_CACHE_MAX_ENTRIES")
    allowedProxyDomains := (((envMap "ALLOWED_PROXY_DOMAINS").map parseCsv).filter (· != [])).getD
      defaultAllowedProxyDomains
    publicBaseUrl
    externalImageProxyPrefix
    slowLogThreshold := parseNonNegativeU64WithDefault 100000 (envMap "SLOW_LOG_THRESHOLD_MS")
    proxyStandardOutputUrls
    proxyR2OutputUrls
    proxySpecialUpstreamUrls := parseBool true (envMap "PROXY_SPECIAL_UPSTREAM_URLS")
    openaiImageUpstreamUrlProxyPrefix :=
      ((envMap "OPENAI_IMAGE_UPSTREAM_URL_PROXY_PREFIX").map parseOptionalStringWithDisabled).getD ""
    enableImageCompression := parseBool false (envMap "ENABLE_IMAGE_COMPRESSION")
    enableRequestImageWebpOptimization := parseBool false (envMap "ENABLE_REQUEST_IMAGE_WEBP_OPTIMIZATION")
    imageCompressionJpegQuality := parseJpegQuality 97 (envMap "IMAGE_COMPRESSION_JPEG_QUALITY")
    adminPassword := ((envMap "ADMIN_PASSWORD").map parseOptionalStringWithDisabled).getD ""
    imageFetchTimeout := imageFetchTimeoutMsRaw
    imageTlsHandshakeTimeout := parsePositiveU64WithDefault 15000 (envMap "IMAGE_TLS_HANDSHAKE_TIMEOUT_MS")
    imageFetchInsecureSkipVerify := parseBool false (envMap "IMAGE_FETCH_INSECURE_SKIP_VERIFY")
    imageFetchExternalProxyDomains := ((envMap "IMAGE_FETCH_EXTERNAL_PROXY_DOMAINS").map parseCsv).getD []
    openaiImageB64JsonUpstreamDomains :=
      (((envMap "OPENAI_IMAGE_B64_JSON_UPSTREAM_DOMAINS").map parseCsv).getD []).map Text.toAsciiLowercase
    openaiImageEditsUpstreamDomains :=
      (((envMap "OPENAI_IMAGE_EDITS_UPSTREAM_DOMAINS").map parseCsv).getD
        defaultOpenaiImageEditsUpstreamDomains).map Text.toAsciiLowercase
    inlineDataUrlCacheDir := ((envMap "INLINE_DATA_URL_CACHE_DIR").map parseOptionalStringWithDisabled).getD ""
    inlineDataUrlCacheTtl := parseNonNegativeU64WithDefault 3600000 (envMap "INLINE_DATA_URL_CACHE_TTL_MS")
    inlineDataUrlCacheMaxBytes :=
      parseNonNegativeU64WithDefault (1 <<< (30 : UInt64)) (envMap "INLINE_DATA_URL_CACHE_MAX_BYTES")
    inlineDataUrlMemoryCacheMaxBytes :=
      parseCacheBytes (100 * 1024 * 1024) (envMap "INLINE_DATA_URL_MEMORY_CACHE_MAX_BYTES")
    inlineDataUrlBackgroundFetchWaitTimeout :=
      parseWaitTimeoutMs imageFetchTimeoutMsRaw (envMap "INLINE_DATA_URL_BACKGROUND_FETCH_WAIT_TIMEOUT_MS")
    inlineDataUrlBackgroundFetchTotalTimeout :=
      parseNonNegativeU64WithDefault 90000 (envMap "INLINE_DATA_URL_BACKGROUND_FETCH_TOTAL_TIMEOUT_MS")
    inlineDataUrlBackgroundFetchMaxInflight :=
      parseNonNegativeUsizeWithDefault 128 (envMap "INLINE_DATA_URL_BACKGROUND_FETCH_MAX_INFLIGHT")
    blobInlineMaxBytes :=
      parseNonNegativeU64WithDefault blobBudgetDefaults.inlineMaxBytes (envMap "BLOB_INLINE_MAX_BYTES")
    blobRequestHotBudgetBytes := parseNonNegativeU64WithDefault blobBudgetDefaults.requestHotBudgetBytes
      (envMap "BLOB_REQUEST_HOT_BUDGET_BYTES")
    blobGlobalHotBudgetBytes := parseNonNegativeU64WithDefault blobBudgetDefaults.globalHotBudgetBytes
      (envMap "BLOB_GLOBAL_HOT_BUDGET_BYTES")
    blobSpillDir := (((envMap "BLOB_SPILL_DIR").map parseOptionalStringWithDisabled).filter (· != "")).getD
      "/tmp/rust-sync-proxy-blobs"
    uploadTimeout := parsePositiveU64WithDefault 20000 (envMap "UPLOAD_TIMEOUT_MS")
    uploadTlsHandshakeTimeout := parsePositiveU64WithDefault 10000 (envMap "UPLOAD_TLS_HANDSHAKE_TIMEOUT_MS")
    uploadInsecureSkipVerify := parseBool false (envMap "UPLOAD_INSECURE_SKIP_VERIFY")
    legacyUguuUploadUrl := defaultLegacyUguuUploadUrl
    legacyKefanUploadUrl := defaultLegacyKefanUploadUrl }

end

end GeminiWorker
