import GeminiWorker.Lib.Dialogue
import GeminiWorker.Spec.BlobRuntime
import GeminiWorker.Spec.R2Upload

/-!
# The uploader

`Uploader` of `upload.rs`: an image is uploaded to R2 or to one of two legacy hosts, from bytes,
from a blob or from base64 text, and another host is tried where one fails. An upload is a
program that asks HTTP requests.
-/

namespace GeminiWorker

inductive ImageHostMode where
  | legacy
  | r2
  | r2ThenLegacy
deriving DecidableEq

structure UploaderConfig extends R2Config where
  legacyUguuUploadUrl : String
  legacyKefanUploadUrl : String

def UPLOAD_USER_AGENT : String := "ComfyUI-Banana/1.0"

/-! ## Requests -/

/-- The body of a request: bytes, what the reader of a blob delivers, or text that is decoded
while it is sent. -/
inductive UploadBody where
  | bytes (data : List UInt8)
  | blob (contents : List UInt8)
  | decoded (reader : Base64DecodedReader)

/-- A multipart form with an image as its only part. -/
structure UploadForm where
  targetUrl : String
  userAgent : String
  acceptJson : Bool
  fieldName : String
  fileName : String
  mimeType : String
  contentLength : ℕ
  body : UploadBody

inductive UploadRequest where
  | put (request : PutRequest UploadBody)
  | form (form : UploadForm)

/-- A response, of which the body is read as text. -/
structure UploadResponse where
  isSuccess : Bool
  status : String
  text : Except String String

/-- What comes of a request: it cannot be sent, or it is answered. -/
abbrev UploadAnswer := Except String UploadResponse

/-- Why a host has not taken an image. -/
inductive HostError where
  | mode (message : String)
  | r2 (error : UploadError)
  /-- `mime_str`. -/
  | mimeType (err : String)
  /-- The body cannot be read or decoded. -/
  | body
  | send (err : String)
  | text (err : String)
  | host (message : String)

structure UguuResponse where
  success : Bool
  /-- The `url` of each of the `files`. -/
  files : List String

structure KefanResponse where
  success : Bool
  data : String

/-- What the uploads depend on outside: the typed readers of the two JSON answers and the
parser of mime types, and what the uploads to R2 need. -/
structure UploaderEnv extends UploadEnv where
  mimeStr : String → Except String Unit
  uguuResponse : String → Except String UguuResponse
  kefanResponse : String → Except String KefanResponse

abbrev HostAttempt := Dialogue.Attempt UploadRequest UploadAnswer HostError UploadResult

abbrev Upload := Dialogue UploadRequest UploadAnswer (Except HostError UploadResult)

section

variable (env : UploaderEnv) (config : UploaderConfig) (mimeType : String)

/-- The form of `send_streaming_multipart_reader`, and of the uploads from bytes. -/
def uploadForm (targetUrl fieldName : String) (acceptJson : Bool) (payload : Except HostError (ℕ × UploadBody)) :
    Except HostError UploadRequest := do
  let (contentLength, body) ← payload
  (env.mimeStr mimeType).mapError HostError.mimeType
  return .form ⟨targetUrl, UPLOAD_USER_AGENT, acceptJson, fieldName, "image" ++ extensionFromMime mimeType, mimeType,
    contentLength, body⟩

/-- What `upload_to_uguu` makes of the answer. -/
def uguuUrl (answer : UploadAnswer) : Except HostError String := do
  let response ← answer.mapError HostError.send
  let body ← response.text.mapError HostError.text
  if !response.isSuccess then throw (.host ("uguu status " ++ response.status ++ ": " ++ Text.trim body))
  let parsed ← (env.uguuResponse body).mapError fun err =>
    .host ("uguu invalid json: " ++ err ++ ": " ++ Text.trim body)
  match parsed.files with
  | url :: _ =>
    if !parsed.success || Text.trim url = "" then throw (.host ("uguu upload failed: " ++ Text.trim body))
    return url
  | [] => throw (.host ("uguu upload failed: " ++ Text.trim body))

/-- What `upload_to_kefan` makes of the answer, whatever its status. -/
def kefanUrl (answer : UploadAnswer) : Except HostError String := do
  let response ← answer.mapError HostError.send
  let body ← response.text.mapError HostError.text
  let parsed ← (env.kefanResponse body).mapError fun err =>
    .host ("kefan invalid json: " ++ err ++ ": " ++ Text.trim body)
  if !parsed.success || Text.trim parsed.data = "" then
    throw (.host ("kefan upload failed: " ++ Text.trim body))
  return parsed.data

/-- `put_object` with the body that is streamed. -/
def PutRequest.mapBody {α β : Type} (f : α → β) (request : PutRequest α) : PutRequest β :=
  { objectUrl := request.objectUrl, contentType := request.contentType, contentLength := request.contentLength
    payloadHash := request.payloadHash, amzDate := request.amzDate, authorization := request.authorization
    body := f request.body, signed := request.signed }

def r2Attempt (request : Except UploadError (PutRequest UploadBody)) : HostAttempt where
  request := (request.map UploadRequest.put).mapError HostError.r2
  accept answer := (env.putResult config.toR2Config mimeType (answer.map fun response =>
    ⟨response.isSuccess, response.status, response.text.toOption.getD ""⟩)).mapError HostError.r2

def uguuAttempt (payload : Except HostError (ℕ × UploadBody)) : HostAttempt where
  request := uploadForm env mimeType config.legacyUguuUploadUrl "files[]" true payload
  accept answer := (uguuUrl env answer).map fun url => ⟨url, "legacy"⟩

def kefanAttempt (payload : Except HostError (ℕ × UploadBody)) : HostAttempt where
  request := uploadForm env mimeType config.legacyKefanUploadUrl "file" false payload
  accept answer := (kefanUrl env answer).map fun url => ⟨url, "legacy"⟩

/-- What an image is uploaded from: the request to R2, and the length and the body of a form. -/
structure UploadSource where
  r2 : Except UploadError (PutRequest UploadBody)
  payload : Except HostError (ℕ × UploadBody)

/-- `upload_legacy`. -/
def uploadLegacy (source : UploadSource) : Upload :=
  Dialogue.firstOk (uguuAttempt env config mimeType source.payload) [kefanAttempt env config mimeType source.payload]

def parseImageHostMode (raw : String) : Except HostError ImageHostMode :=
  let lower := Text.toAsciiLowercase (Text.trim raw)
  if lower = "" ∨ lower = "legacy" then .ok .legacy
  else if lower = "r2" then .ok .r2
  else if lower = "r2_then_legacy" then .ok .r2ThenLegacy
  else .error (.mode ("unsupported IMAGE_HOST_MODE " ++ lower))

/-- The common body of the three uploads. -/
def uploadWithMode (source : UploadSource) : Upload :=
  match parseImageHostMode config.imageHostMode with
  | .error error => .done (.error error)
  | .ok .legacy => uploadLegacy env config mimeType source
  | .ok .r2 => (r2Attempt env config mimeType source.r2).dialogue
  | .ok .r2ThenLegacy =>
    Dialogue.orElse (uploadLegacy env config mimeType source) (r2Attempt env config mimeType source.r2).dialogue

def uploadImage (data : List UInt8) : Upload :=
  uploadWithMode env config mimeType
    ⟨(env.uploadR2Request config.toR2Config mimeType data).map (PutRequest.mapBody .bytes),
      .ok (data.length, .bytes data)⟩

def uploadBlob (runtime : BlobRuntime) (blob : BlobHandle) : Upload :=
  uploadWithMode env config mimeType
    ⟨(env.uploadR2BlobRequest config.toR2Config mimeType blob.blobMeta.sizeBytes (runtime.openReader blob)).map
        (PutRequest.mapBody .blob),
      match runtime.openReader blob with
      | some contents => .ok (blob.blobMeta.sizeBytes, .blob contents)
      | none => .error .body⟩

def uploadInlineDataBase64 (dataBase64 : String) : Upload :=
  uploadWithMode env config mimeType
    ⟨(env.uploadR2Base64Request config.toR2Config mimeType dataBase64).map (PutRequest.mapBody .decoded),
      match decodedBase64Len dataBase64 with
      | some contentLength => .ok (contentLength, .decoded (.new dataBase64))
      | none => .error .body⟩

end

/-! ## Hosts and bodies -/

inductive ImageHost where
  | r2
  | uguu
  | kefan
deriving DecidableEq

/-- The hosts that are tried, in this order. -/
def ImageHostMode.hosts : ImageHostMode → List ImageHost
  | .legacy => [.uguu, .kefan]
  | .r2 => [.r2]
  | .r2ThenLegacy => [.r2, .uguu, .kefan]

def UploadSource.attempt (source : UploadSource) (env : UploaderEnv) (config : UploaderConfig) (mimeType : String) :
    ImageHost → HostAttempt
  | .r2 => r2Attempt env config mimeType source.r2
  | .uguu => uguuAttempt env config mimeType source.payload
  | .kefan => kefanAttempt env config mimeType source.payload

/-- What the client reads of a body, however much it takes at a time. -/
def UploadBody.Delivers (body : UploadBody) (data : List UInt8) : Prop :=
  match body with
  | .bytes contents | .blob contents => contents = data
  | .decoded reader => ∀ capacity : ℕ → ℕ, (∀ i, 0 < capacity i) →
      ∃ reads, reader.readToEnd capacity reads = some (some data)

def UploadRequest.body : UploadRequest → UploadBody
  | .put request => request.body
  | .form multipart => multipart.body

def UploadRequest.contentLength : UploadRequest → ℕ
  | .put request => request.contentLength
  | .form multipart => multipart.contentLength

def UploadRequest.withBody (body : UploadBody) : UploadRequest → UploadRequest
  | .put request => .put { request with body }
  | .form multipart => .form { multipart with body }

/-- The requests differ in how their body is held only, and the length they declare is its own. -/
def SameUpload (request whole : UploadRequest) : Prop :=
  ∃ data, request.body.Delivers data ∧ request.contentLength = data.length ∧ request.withBody (.bytes data) = whole

end GeminiWorker
