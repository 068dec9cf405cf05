import GeminiWorker.Lib.Base64
import GeminiWorker.Lib.Base64Decode
import GeminiWorker.Lib.FormUrlencoded
import GeminiWorker.Spec.R2Upload
import GeminiWorker.Spec.RequestScan

/-!
# The images of a response

`response_materialize.rs`: one walk collects the distinct `inlineData` pairs of a
response, another writes into the objects that hold them, after an upload
(`finalize_output_urls`) or a compression (`optimize_inline_data_images`).

The uploader is any process with a state; the image codecs are any functions that
may fail.
-/

namespace GeminiWorker

open Json (Value Map)

structure InlineDataEntry where
  mimeType : String
  data : String
deriving DecidableEq

structure InlineDataReplacement where
  mimeType : String
  data : Option String

def isUrlLike (value : String) : Bool :=
  Text.startsWith "http://" value || Text.startsWith "https://" value || Text.startsWith "/proxy/image" value

/-- The pair of an object with both strings. -/
def inlineDataEntry (inlineData : Map) : Option InlineDataEntry :=
  match Map.get inlineData "data", Map.get inlineData "mimeType" with
  | some (.string data), some (.string mimeType) => some ⟨mimeType, data⟩
  | _, _ => none

/-! ## Collecting -/

/-- What the walk adds for the `inlineData` of an object. -/
def pushInlineData (map : Map) (entries : List InlineDataEntry) : List InlineDataEntry :=
  match ((Map.get map "inlineData").bind Value.asObject).bind inlineDataEntry with
  | some entry => if isUrlLike entry.data || entries.contains entry then entries else entries ++ [entry]
  | none => entries

mutual
def walkInlineData (node : Value) (entries : List InlineDataEntry) : List InlineDataEntry :=
  match node with
  | .object map => walkInlineDataMembers map (pushInlineData map entries)
  | .array items => walkInlineDataItems items entries
  | _ => entries
def walkInlineDataMembers : List (String × Value) → List InlineDataEntry → List InlineDataEntry
  | [], entries => entries
  | (_, child) :: map, entries => walkInlineDataMembers map (walkInlineData child entries)
def walkInlineDataItems : List Value → List InlineDataEntry → List InlineDataEntry
  | [], entries => entries
  | child :: items, entries => walkInlineDataItems items (walkInlineData child entries)
end

def scanInlineDataBase64Entries (node : Value) : List InlineDataEntry := walkInlineData node []

/-! ## Writing -/

/-- What is inserted into an object, if anything. -/
structure InlineDataWrite where
  mimeType : Option String
  data : Option String

def insertString (key : String) (value : Option String) (inlineData : Map) : Map :=
  match value with
  | some value => Map.insert inlineData key (.string value)
  | none => inlineData

/-- The mime type first, then the data. -/
def InlineDataWrite.apply (write : InlineDataWrite) (inlineData : Map) : Map :=
  insertString "data" write.data (insertString "mimeType" write.mimeType inlineData)

section

/- What is written over a pair. -/
variable (writes : InlineDataEntry → InlineDataWrite)

/-- The writes into the value under `inlineData`. -/
def patchInlineData (node : Value) : Value :=
  match node with
  | .object inlineData =>
    match inlineDataEntry inlineData with
    | some entry => .object ((writes entry).apply inlineData)
    | none => .object inlineData
  | node => node

/-- The child under a key of an object. -/
def patchMember (key : String) (child : Value) : Value :=
  if key = "inlineData" then patchInlineData writes child else child

mutual
/-- The walk that writes. The source writes into the `inlineData` of an object before it
goes down into its members; the writes are strings, so `patchNode_object` has it that way. -/
def patchNode (node : Value) : Value :=
  match node with
  | .object map => .object (patchMembers map)
  | .array items => .array (patchItems items)
  | node => node
def patchMembers : List (String × Value) → List (String × Value)
  | [] => []
  | (key, child) :: map => (key, patchMember writes key (patchNode child)) :: patchMembers map
def patchItems : List Value → List Value
  | [] => []
  | child :: items => patchNode child :: patchItems items
end

end

def patchInlineDataBase64 (node : Value)
    (replacements : List (InlineDataEntry × InlineDataReplacement)) : Value :=
  patchNode (fun entry => match replacements.lookup entry with
    | some replacement => ⟨some replacement.mimeType, replacement.data⟩
    | none => ⟨none, none⟩) node

/-! ## Uploading -/

structure OutputUrlConfig where
  externalImageProxyPrefix : String
  publicBaseUrl : String
  proxyStandardOutputUrls : Bool
  proxyR2OutputUrls : Bool

namespace OutputUrlConfig

variable (config : OutputUrlConfig)

def resolvedExternalImageProxyPrefix : String :=
  let externalPrefix := Text.trim config.externalImageProxyPrefix
  if externalPrefix != "" then externalPrefix
  else
    let publicBaseUrl := Text.trimEndMatches '/' (Text.trim config.publicBaseUrl)
    if publicBaseUrl = "" then "" else publicBaseUrl ++ "/proxy/image?url="

def shouldProxyUploadedOutputUrl (provider : String) : Bool :=
  if Text.eqIgnoreAsciiCase provider "r2" then config.proxyR2OutputUrls
  else config.proxyStandardOutputUrls

end OutputUrlConfig

def wrapExternalProxyUrl (externalProxyPrefix targetUrl : String) : String :=
  Text.trim externalProxyPrefix ++
    Text.fromUtf8Lossy (FormUrlencoded.serialize (Text.bytes targetUrl))

/-- The URL that stands for an upload. -/
def finalUrl (config : OutputUrlConfig) (result : UploadResult) : String :=
  if !config.shouldProxyUploadedOutputUrl result.provider ||
      Text.trim config.resolvedExternalImageProxyPrefix = "" then
    result.url
  else wrapExternalProxyUrl config.resolvedExternalImageProxyPrefix result.url

section

variable {σ ε : Type}

/- `upload_inline_data_base64`, over the state of the uploader. -/
variable (upload : InlineDataEntry → σ → Except ε UploadResult × σ) (config : OutputUrlConfig)

end

/-! ## Compressing -/

/-- `RgbImage`. -/
structure RgbImage where
  width : UInt32
  height : UInt32
  raw : List UInt8

structure ImageCodec where
  /-- `load_from_memory_with_format` as PNG, then `to_rgb8`. -/
  decodePng : List UInt8 → Except String RgbImage
  /-- `JpegEncoder::encode` at a quality, 4:4:4. -/
  encodeJpeg : UInt8 → RgbImage → Except String (List UInt8)

inductive ImageOptimizationResult where
  | unchanged (mimeType : String)
  | reencoded (mimeType : String) (bytes : List UInt8)

/-- `u16::try_from` of a side. -/
def checkSide (side : UInt32) (message : String) : Except String Unit :=
  if side.toNat < 2 ^ 16 then .ok () else .error message

section

variable (codec : ImageCodec) (enabled : Bool) (thresholdBytes : ℕ) (jpegQuality : UInt8)

def maybeCompressPngBytesResult (bytes : List UInt8) (mimeType : String) :
    Except String ImageOptimizationResult :=
  let normalizedMime := Text.toAsciiLowercase (Text.trim mimeType)
  if !enabled || normalizedMime != "image/png" || bytes.length ≤ thresholdBytes then
    .ok (.unchanged normalizedMime)
  else do
    let rgb ← codec.decodePng bytes
    checkSide rgb.width "image width too large"
    checkSide rgb.height "image height too large"
    let encoded ← codec.encodeJpeg jpegQuality rgb
    if encoded.length ≥ bytes.length then return .unchanged normalizedMime
    else return .reencoded "image/jpeg" encoded

/-- The loop over the entries, with the latest replacement first. -/
def optimizeEntries : List InlineDataEntry → List (InlineDataEntry × InlineDataReplacement) →
    Except String (List (InlineDataEntry × InlineDataReplacement))
  | [], replacements => .ok replacements
  | entry :: entries, replacements =>
    match Base64.decode (Text.bytes entry.data) with
    | none => optimizeEntries entries replacements
    | some imageBytes => do
      match ← maybeCompressPngBytesResult codec enabled thresholdBytes jpegQuality imageBytes
          entry.mimeType with
      | .unchanged mimeType =>
        if mimeType = entry.mimeType then optimizeEntries entries replacements
        else optimizeEntries entries ((entry, ⟨mimeType, none⟩) :: replacements)
      | .reencoded mimeType bytes =>
        optimizeEntries entries ((entry, ⟨mimeType, some (Base64.encodeText bytes)⟩) :: replacements)

def optimizeInlineDataImagesWithOptions (body : Value) : Except String Value :=
  if !enabled then .ok body
  else do
    let replacements ← optimizeEntries codec enabled thresholdBytes jpegQuality
      (scanInlineDataBase64Entries body) []
    return patchInlineDataBase64 body replacements

end

end GeminiWorker
