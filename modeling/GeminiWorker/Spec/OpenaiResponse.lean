import GeminiWorker.Spec.GrsaiResponse
import GeminiWorker.Spec.ResponseMaterialize
import GeminiWorker.Spec.Uploader
import GeminiWorker.Spec.Url

/-!
# The images of an OpenAI response

`handle_openai_image_response` of `router.rs` once the upstream has answered with a success, and the
response side of `openai_image.rs`: every image of the answer becomes a URL. What is sent as base64 is
uploaded first, and the first image that fails ends the request.
-/

namespace GeminiWorker

open Json (Value Map)

def MSG_DECODE_UPSTREAM_B64_FAILED : String := "解码上游图片数据失败，请稍后再试"

def MSG_OPENAI_IMAGE_MISSING_DATA : String := "上游服务没有返回可用的图片数据，请稍后再试"

def MSG_OPENAI_IMAGE_MISSING_PAYLOAD : String := "上游服务返回的图片数据不完整，请稍后再试"

structure StructuredProxyError where
  message : String
  stage : String
  kind : String
  detail : String
deriving DecidableEq

/-- Why a response is not turned into URLs. -/
inductive OpenaiImageError where
  | proxy (error : StructuredProxyError)
  | upload (error : HostError)

/-! ## What an item holds -/

inductive OpenAiImageItem where
  | b64Json (base64Image : String)
  | dataUrl (mimeType dataBase64 : String)
  | url (url : String)
deriving DecidableEq

structure ParsedOpenAiImageDataUrl where
  mimeType : String
  dataBase64 : String
deriving DecidableEq

/-- A round of the loop over the segments of the metadata, with their indices. -/
def readSegment (state : Option String × Bool) (e : String × ℕ) : Option String × Bool :=
  let segment := Text.trim e.1
  if segment = "" then state
  else if e.2 = 0 ∧ Text.containsChar '/' segment then (some (Text.toAsciiLowercase segment), state.2)
  else if Text.eqIgnoreAsciiCase segment "base64" then (state.1, true)
  else state

def parseOpenaiImageDataUrl (raw : String) : Option ParsedOpenAiImageDataUrl := do
  let payload ← Text.stripPrefix "data:" raw
  let (metadata, dataBase64) ← Text.splitOnce ',' payload
  let dataBase64 := Text.trim dataBase64
  if dataBase64 = "" then none
  else
    let (mimeType, isBase64) := (Text.split ';' metadata).zipIdx.foldl readSegment (none, false)
    if !isBase64 then none
    else
      let mimeType := mimeType.getD "image/png"
      if !Text.startsWith "image/" mimeType then none else some ⟨mimeType, dataBase64⟩

/-- The item of an element of `data`. -/
def openaiImageItem (item : Value) : Except StructuredProxyError OpenAiImageItem :=
  match ((item.get "b64_json").bind Value.asStr).filter (Text.trim · != "") with
  | some value => .ok (.b64Json value)
  | none =>
    match (((item.get "url").bind Value.asStr).map Text.trim).filter (· != "") with
    | some value => .ok (match parseOpenaiImageDataUrl value with
      | some parsed => .dataUrl parsed.mimeType parsed.dataBase64
      | none => .url value)
    | none => .error ⟨MSG_OPENAI_IMAGE_MISSING_PAYLOAD, "rewrite_openai_image_response", "missing_image_payload",
        "上游响应缺少 data[].b64_json 或 data[].url"⟩

def extractOpenaiImageItems (body : Value) : Except StructuredProxyError (List OpenAiImageItem) :=
  match (body.get "data").bind Value.asArray with
  | none => .error ⟨MSG_OPENAI_IMAGE_MISSING_DATA, "rewrite_openai_image_response", "missing_data",
      "上游响应缺少 data 数组"⟩
  | some [] => .error ⟨MSG_OPENAI_IMAGE_MISSING_DATA, "rewrite_openai_image_response", "missing_data",
      "上游响应 data 数组为空"⟩
  | some data => data.mapM openaiImageItem

def sniffImageMimeType (bytes : List UInt8) : Option String :=
  if [0x89, 80, 78, 71, 0x0D, 0x0A, 0x1A, 0x0A].isPrefixOf bytes then some "image/png"
  else if [0xFF, 0xD8, 0xFF].isPrefixOf bytes then some "image/jpeg"
  else if 12 ≤ bytes.length ∧ bytes.take 4 = Text.bytes "RIFF" ∧ (bytes.drop 8).take 4 = Text.bytes "WEBP" then
    some "image/webp"
  else if (Text.bytes "GIF87a").isPrefixOf bytes || (Text.bytes "GIF89a").isPrefixOf bytes then some "image/gif"
  else none

/-! ## The URLs -/

structure OpenaiOutputConfig extends OutputUrlConfig where
  openaiImageUpstreamUrlProxyPrefix : String
  proxySpecialUpstreamUrls : Bool

/-- What the response depends on outside of the uploads. -/
structure OpenaiResponseEnv where
  parse : UrlParser
  /-- `serde_json::from_slice`. -/
  fromSlice : List UInt8 → Except String Value
  /-- What the decoder says of a text that is no base64. -/
  decodeError : List UInt8 → String
  /-- `PrimitiveDateTime::parse` with `AIAPIDEV_TIMESTAMP_FORMAT`, as UTC. -/
  parseTimestamp : String → Option Int
  config : OpenaiOutputConfig

structure UploadedImage where
  url : String
deriving DecidableEq

section

variable (env : OpenaiResponseEnv)

/-- An `http` URL of `tianyue.xyz` or below it. -/
def isSpecialUpstreamUrl (targetUrl : String) : Bool :=
  (env.parse targetUrl).any fun url =>
    url.isHttp && url.hostStr.any fun host => host == "tianyue.xyz" || Text.endsWith ".tianyue.xyz" host

def buildOpenaiImageOutputUrl (provider targetUrl : String) : String :=
  let externalProxyPrefix := env.config.resolvedExternalImageProxyPrefix
  if Text.eqIgnoreAsciiCase provider "direct" then
    let openaiProxyPrefix := Text.trim env.config.openaiImageUpstreamUrlProxyPrefix
    if openaiProxyPrefix != "" then wrapExternalProxyUrl openaiProxyPrefix targetUrl
    else if env.config.proxySpecialUpstreamUrls && isSpecialUpstreamUrl env targetUrl && externalProxyPrefix != "" then
      wrapExternalProxyUrl externalProxyPrefix targetUrl
    else targetUrl
  else if env.config.shouldProxyUploadedOutputUrl provider && Text.trim externalProxyPrefix != "" then
    wrapExternalProxyUrl externalProxyPrefix targetUrl
  else targetUrl

/-! ## The payload -/

def parseAiapidevTimestamp (raw : String) : Option Int := env.parseTimestamp (Text.trim raw)

def extractCreatedTimestamp (upstreamBody : Value) (fallbackCreated : Int) : Int :=
  match (upstreamBody.get "created").bind asI64 with
  | some created => created
  | none =>
    (["finishedTime", "submittedTime", "createTime"].findSome? fun key =>
      ((upstreamBody.get key).bind Value.asStr).bind (parseAiapidevTimestamp env)).getD fallbackCreated

def buildFixedUsage : Value :=
  .object [("input_tokens", .number "1024"),
    ("input_tokens_details", .object [("image_tokens", .number "1000"), ("text_tokens", .number "24")]),
    ("output_tokens", .number "1024"),
    ("total_tokens", .number "2048"),
    ("output_tokens_details", .object [("image_tokens", .number "1024"), ("text_tokens", .number "0")])]

def UploadedImage.toJson (image : UploadedImage) : Value := .object [("url", .string image.url)]

def buildResponsePayloadFromUploaded (uploaded : List UploadedImage) (created : Int) : Value :=
  .object [("created", .number (toString created)), ("data", .array (uploaded.map UploadedImage.toJson)),
    ("usage", buildFixedUsage)]

/-- The same, with the time that the upstream gives. -/
def buildResponsePayload (upstreamBody : Value) (uploaded : List UploadedImage) (fallbackCreated : Int) : Value :=
  buildResponsePayloadFromUploaded uploaded (extractCreatedTimestamp env upstreamBody fallbackCreated)

/-! ## The loop over the items -/

abbrev OpenaiImageUpload (α : Type) := Dialogue UploadRequest UploadAnswer (Except OpenaiImageError α)

/- What each upload depends on: its time and its random bytes are its own. -/
variable (uploads : ℕ → UploaderEnv) (config : UploaderConfig)

/-- The upload of a payload, under the type of the image found in it. -/
def uploadOpenaiImage (upload : UploaderEnv) (stage declaredMimeType dataBase64 : String) :
    OpenaiImageUpload UploadedImage :=
  match Base64.decode (Text.bytes dataBase64) with
  | none => .done (.error (.proxy ⟨MSG_DECODE_UPSTREAM_B64_FAILED, stage, "invalid_base64",
      env.decodeError (Text.bytes dataBase64)⟩))
  | some decoded =>
    let mimeType := (sniffImageMimeType decoded).getD declaredMimeType
    (uploadInlineDataBase64 upload config mimeType dataBase64).map fun result =>
      (result.map fun uploadResult =>
        ⟨buildOpenaiImageOutputUrl env uploadResult.provider uploadResult.url⟩).mapError .upload

/-- A round of the loop, over an item and its index. -/
def serveOpenaiImageItem (e : OpenAiImageItem × ℕ) : OpenaiImageUpload UploadedImage :=
  match e.1 with
  | .b64Json base64Image => uploadOpenaiImage env config (uploads e.2) "decode_b64_json" "image/png" base64Image
  | .dataUrl mimeType dataBase64 => uploadOpenaiImage env config (uploads e.2) "decode_data_url" mimeType dataBase64
  | .url url => .done (.ok ⟨buildOpenaiImageOutputUrl env "direct" url⟩)

/-- `handle_openai_image_response` behind a success: what `handleOpenaiImageResponse` finishes with. -/
def finishOpenaiImageResponse (bodyBytes : List UInt8) (fallbackCreated : Int) : OpenaiImageUpload Response :=
  match env.fromSlice bodyBytes with
  | .error err => .done (.error (.proxy ⟨MSG_PARSE_UPSTREAM_JSON_FAILED, "parse_upstream_response", "invalid_json", err⟩))
  | .ok upstreamBody =>
    match extractOpenaiImageItems upstreamBody with
    | .error error => .done (.error (.proxy error))
    | .ok imageItems =>
      (Dialogue.inTurn (serveOpenaiImageItem env uploads config) imageItems.zipIdx).map fun uploaded =>
        uploaded.map fun uploaded => jsonResponse 200 (buildResponsePayload env upstreamBody uploaded fallbackCreated)

end

/-! ## What becomes of an item -/

/-- The base64 text of an item that has one, and the type it goes under unless another is found in it. -/
def OpenAiImageItem.payload : OpenAiImageItem → Option (String × String)
  | .b64Json base64Image => some (base64Image, "image/png")
  | .dataUrl mimeType dataBase64 => some (dataBase64, mimeType)
  | .url _ => none

section

variable (env : OpenaiResponseEnv) (uploads : ℕ → UploaderEnv) (config : UploaderConfig)

/-- What is asked for an item, and what becomes of it. A URL is taken as it is, and the image that a text encodes
is uploaded. -/
inductive ItemServed : OpenAiImageItem × ℕ → (ℕ → UploadAnswer) → List UploadRequest →
    Except OpenaiImageError UploadedImage → Prop
  | direct (url : String) (i : ℕ) (answers : ℕ → UploadAnswer) :
      ItemServed (.url url, i) answers [] (.ok ⟨buildOpenaiImageOutputUrl env "direct" url⟩)
  | undecodable {item : OpenAiImageItem} {dataBase64 mimeType : String} (i : ℕ) (answers : ℕ → UploadAnswer)
      (error : StructuredProxyError) (payload : item.payload = some (dataBase64, mimeType))
      (undecoded : Base64.decode (Text.bytes dataBase64) = none) (kind : error.kind = "invalid_base64") :
      ItemServed (item, i) answers [] (.error (.proxy error))
  | uploaded {item : OpenAiImageItem} {dataBase64 mimeType : String} {data : List UInt8} {requests : List UploadRequest}
      (i : ℕ) (answers : ℕ → UploadAnswer) (payload : item.payload = some (dataBase64, mimeType))
      (decoded : Base64.decode (Text.bytes dataBase64) = some data)
      (alike : List.Forall₂ SameUpload requests
        ((uploadImage (uploads i) config ((sniffImageMimeType data).getD mimeType) data).run answers).1) :
      ItemServed (item, i) answers requests
        ((((uploadImage (uploads i) config ((sniffImageMimeType data).getD mimeType) data).run answers).2.map
          fun result => ⟨buildOpenaiImageOutputUrl env result.provider result.url⟩).mapError .upload)

end

end GeminiWorker
