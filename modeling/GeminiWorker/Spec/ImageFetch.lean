import GeminiWorker.Lib.Text
import GeminiWorker.Spec.FetchService

/-!
# Downloading an image

`fetch_image_as_inline_data_with_options` of `image_io.rs` and `direct_fetch` of `cache.rs`, with the
re-encoding of large PNG images.

What comes from outside is an `ImageExchange`: what became of the URL, and of each of the two attempts.
-/

namespace GeminiWorker

def defaultMaxImageBytes : ℕ := 35 * 1024 * 1024

def requestMaxImageBytes : ℕ := 20 * 1024 * 1024

def requestPngWebpThresholdBytes : ℕ := 10 * 1024 * 1024

/-- An error of an attempt, with what `should_retry_fetch_error` looks at. -/
inductive ImageFetchError where
  | totalTimeout
  | status (code : ℕ) (text : String)
  | client (isConnect isRequest isBody isDecode : Bool) (text : String)
  | other (text : String)
deriving DecidableEq

namespace ImageFetchError

/-- `to_string`. -/
def text : ImageFetchError → String
  | .totalTimeout => "inlineData 图片抓取超时"
  | .status _ text => "image fetch failed with status " ++ text
  | .client _ _ _ _ text | .other text => text

def tooLarge (actual limit : ℕ) : ImageFetchError := .other s!"image too large: {actual} > {limit}"

/-- `should_retry_fetch_error`. -/
def shouldRetry (err : ImageFetchError) : Bool :=
  err.text ≠ "inlineData 图片抓取超时" &&
    match err with
    | .status code _ => code ∈ [408, 425, 429, 500, 502, 503, 504]
    | .client isConnect isRequest isBody isDecode _ => !(isBody || isDecode) && (isConnect || isRequest)
    | .totalTimeout | .other _ => false

end ImageFetchError

structure ImageResponse where
  status : ℕ
  /-- The status as it is displayed. -/
  statusText : String
  contentLength : Option ℕ
  contentType : Option String
  /-- What `chunk` returns, until it returns nothing. -/
  chunks : List (Except ImageFetchError (List UInt8))

/-- What becomes of the re-encoding. -/
inductive OptimizeOutcome where
  | finished
  | timedOut
  | taskFailed (text : String)
deriving DecidableEq

inductive ImageAttempt where
  /-- The URL is refused, or there is no response. -/
  | failed (error : ImageFetchError)
  | totalTimeout
  | received (response : ImageResponse) (optimizing : OptimizeOutcome)

structure ImageExchange where
  /-- What `maybe_wrap_external_proxy_url` makes of the URL. -/
  fetchUrl : Except String String
  first : ImageAttempt
  second : ImageAttempt

/-- `split(';').next()`. -/
def beforeSemicolon (text : String) : String := String.ofList (text.toList.takeWhile (· ≠ ';'))

def guessImageMimeTypeFromUrl (rawUrl : String) : String :=
  let lower := Text.toAsciiLowercase rawUrl
  if Text.endsWith ".jpg" lower || Text.endsWith ".jpeg" lower then "image/jpeg"
  else if Text.endsWith ".webp" lower then "image/webp"
  else if Text.endsWith ".gif" lower then "image/gif"
  else "image/png"

def normalizeImageMimeType (contentType : Option String) (rawUrl : String) : String :=
  let normalized := Text.toAsciiLowercase (Text.trim (beforeSemicolon (contentType.getD "image/png")))
  if normalized = "application/octet-stream" ∨ normalized = "" then guessImageMimeTypeFromUrl rawUrl
  else normalized

/-- The loop over `chunk`. -/
def readChunks (maxImageBytes : ℕ) : ℕ → List UInt8 → List (Except ImageFetchError (List UInt8)) →
    Except ImageFetchError (List UInt8)
  | _, bytes, [] => .ok bytes
  | _, _, .error err :: _ => .error err
  | totalBytes, bytes, .ok chunk :: chunks =>
    let totalBytes := totalBytes + chunk.length
    if totalBytes > maxImageBytes then .error (.tooLarge totalBytes maxImageBytes)
    else readChunks maxImageBytes totalBytes (bytes ++ chunk) chunks

/-- `fetch_image_as_inline_data_with_options`, once there is a response. -/
def ImageResponse.fetch (response : ImageResponse) (rawUrl : String) (maxImageBytes : ℕ) :
    Except ImageFetchError CachedInlineData :=
  if ¬ (200 ≤ response.status ∧ response.status < 300) then .error (.status response.status response.statusText)
  else if maxImageBytes < response.contentLength.getD 0 then
    .error (.tooLarge (response.contentLength.getD 0) maxImageBytes)
  else (readChunks maxImageBytes 0 [] response.chunks).map fun bytes =>
    ⟨normalizeImageMimeType response.contentType rawUrl, bytes⟩

/-- `maybe_convert_png_bytes_to_lossless_webp_with_threshold`. The encoder gives nothing for what cannot be
decoded. -/
def convertPngToLosslessWebp (encodeWebp : List UInt8 → Option (List UInt8)) (fetched : CachedInlineData)
    (thresholdBytes : ℕ) : Option CachedInlineData :=
  let normalizedMime := Text.toAsciiLowercase (Text.trim fetched.mimeType)
  if normalizedMime ≠ "image/png" ∨ fetched.bytes.length ≤ thresholdBytes then some ⟨normalizedMime, fetched.bytes⟩
  else (encodeWebp fetched.bytes).map fun encoded =>
    if encoded.length ≥ fetched.bytes.length then ⟨normalizedMime, fetched.bytes⟩ else ⟨"image/webp", encoded⟩

/-- `maybe_convert_large_png_to_lossless_webp_with_timeout`. -/
def maybeConvertLargePngToLosslessWebp (encodeWebp : List UInt8 → Option (List UInt8)) (fetched : CachedInlineData) :
    OptimizeOutcome → Except ImageFetchError CachedInlineData
  | .finished => .ok ((convertPngToLosslessWebp encodeWebp fetched requestPngWebpThresholdBytes).getD fetched)
  | .timedOut => .ok fetched
  | .taskFailed text => .error (.other ("request image optimization task failed: " ++ text))

section

variable (encodeWebp : List UInt8 → Option (List UInt8)) (maxImageBytes : ℕ) (optimizeLargePngAsWebp : Bool)

def fetchOnce (fetchUrl : String) : ImageAttempt → Except ImageFetchError CachedInlineData
  | .failed err => .error err
  | .totalTimeout => .error .totalTimeout
  | .received response optimizing => do
    let fetched ← response.fetch fetchUrl maxImageBytes
    if optimizeLargePngAsWebp then maybeConvertLargePngToLosslessWebp encodeWebp fetched optimizing
    else .ok fetched

/-- `direct_fetch`, with the text of its error. -/
def directFetch (exchange : ImageExchange) : Published := do
  let fetchUrl ← exchange.fetchUrl
  match fetchOnce encodeWebp maxImageBytes optimizeLargePngAsWebp fetchUrl exchange.first with
  | .ok fetched => .ok fetched
  | .error err =>
    if err.shouldRetry then
      (fetchOnce encodeWebp maxImageBytes optimizeLargePngAsWebp fetchUrl exchange.second).mapError ImageFetchError.text
    else .error err.text

end

end GeminiWorker
