import GeminiWorker.Lib.Dialogue
import GeminiWorker.Lib.TextSearch
import GeminiWorker.Spec.FetchService
import GeminiWorker.Spec.HttpUrl
import GeminiWorker.Spec.OpenaiImage

/-!
# Image requests with reference images

`forward_openai_image_request` of `router.rs` up to the request to a transparent upstream, and
`build_happyapi_image_edit_form`: an upstream that edits images is sent a form with the fetched reference images
instead of the JSON body.
-/

namespace GeminiWorker

open Json (Value Map)

def MAX_OPENAI_REFERENCE_IMAGES : ℕ := 6

def OPENAI_IMAGE_REFERENCE_FIELDS : List String := ["image", "images", "reference_images"]

def openaiImageReferenceImageCount (requestBody : Value) : ℕ :=
  ((OPENAI_IMAGE_REFERENCE_FIELDS.filterMap fun field => (requestBody.get field).bind Value.asArray).map List.length).sum

def openaiImageRequestHasImages (requestBody : Value) : Bool := decide (0 < openaiImageReferenceImageCount requestBody)

/-- A part of `reqwest::multipart::Form`. -/
inductive FormPart where
  | text (name value : String)
  | file (name fileName mimeType : String) (bytes : List UInt8)
deriving DecidableEq

def multipartTextValue : Value → String
  | .string text => text
  | .number spelling => spelling
  | .bool boolean => if boolean then "true" else "false"
  | .null => ""
  | value => Text.fromUtf8Lossy (Json.print value)

structure ImageEditEnv where
  /-- `Url::parse`. -/
  parseUrl : String → Except String Url
  /-- What `Part::mime_str` fails with. -/
  mimeError : String → Option String
  openaiImageB64JsonUpstreamDomains : List String
  openaiImageEditsUpstreamDomains : List String

/-- `Url::parse`, where only the scheme and the host are looked at. -/
def ImageEditEnv.parse (env : ImageEditEnv) : UrlParser := fun raw => (env.parseUrl raw).toOption.map Url.toParsedUrl

def upstreamDomainPatternMatchesHost (pattern host : String) : Bool :=
  let pattern := Text.trim pattern
  if pattern = "" then false
  else if Text.startsWith "." pattern then Text.endsWith pattern host
  else host == pattern

section

variable (env : ImageEditEnv)

/-- Whether the host of the URL is under one of the domains. -/
def domainsMatch (domains : List String) (baseUrl : String) : Bool :=
  match ((env.parse baseUrl).bind ParsedUrl.hostStr).map Text.toAsciiLowercase with
  | none => false
  | some host => domains.any fun pattern => upstreamDomainPatternMatchesHost pattern host

def shouldForceOpenaiImageB64JsonForUpstream (baseUrl : String) : Bool :=
  domainsMatch env env.openaiImageB64JsonUpstreamDomains baseUrl

def shouldUseOpenaiImageEditsForUpstream (baseUrl : String) : Bool :=
  domainsMatch env env.openaiImageEditsUpstreamDomains baseUrl

/-- The last segment of the path, if there is one. -/
def filenameFromUrl (rawUrl : String) : Option String :=
  match env.parseUrl rawUrl with
  | .error _ => none
  | .ok parsed =>
    (Text.stripPrefix "/" (Text.fromUtf8Lossy parsed.path)).bind fun remainder =>
      (((Text.split '/' remainder).getLast?).map Text.trim).filter (· != "")

/-- The loop over `OPENAI_IMAGE_REFERENCE_FIELDS`. -/
def collectFormImages : List String → Map → Except String (List Value)
  | [], _ => .ok []
  | field :: fields, object =>
    match object.get field with
    | none => collectFormImages fields object
    | some value =>
      match value.asArray with
      | none => .error (field ++ " 必须是数组，请检查后再试")
      | some array => (collectFormImages fields object).map (array ++ ·)

/-- A fetched image as a part. -/
def imageFormPart (imageUrl : String) (published : Published) : Except String FormPart :=
  match published with
  | .error err => .error err
  | .ok fetched =>
    match env.mimeError fetched.mimeType with
    | some err => .error err
    | none => .ok (.file "image" ((filenameFromUrl env imageUrl).getD "image.png") fetched.mimeType fetched.bytes)

/-- A round of the loop over the images. -/
def serveFormImage (image : Value) : Dialogue String Published (Except String FormPart) :=
  match image.asStr with
  | none => .done (.error "image 中的图片地址必须是字符串")
  | some imageUrl => Dialogue.once imageUrl (imageFormPart env imageUrl)

def formTexts (object : Map) : List FormPart :=
  (object.filter fun m => !OPENAI_IMAGE_REFERENCE_FIELDS.contains m.1).map fun m => .text m.1 (multipartTextValue m.2)

def buildHappyapiImageEditForm (requestBody : Value) : Dialogue String Published (Except String (List FormPart)) :=
  match requestBody.asObject with
  | none => .done (.error "请求内容必须是 JSON 对象，请检查后再试")
  | some object =>
    match collectFormImages OPENAI_IMAGE_REFERENCE_FIELDS object with
    | .error err => .done (.error err)
    | .ok [] => .done (.error "image 必须是数组，请检查后再试")
    | .ok imageUrls =>
      (Dialogue.inTurn (serveFormImage env) imageUrls).map fun files => files.map (formTexts object ++ ·)

/-- What the upstream is sent: a body for `/v1/images/generations` or a form for `/v1/images/edits`. -/
inductive OpenaiImageUpstreamBody where
  | json (requestBody : Value)
  | form (parts : List FormPart)

inductive OpenaiImageRequestError where
  | invalid (message : String)
  | tooManyReferenceImages
  | form (err : String)

/-- What becomes of the body of a request. -/
def openaiImageUpstreamBody (baseUrl : String) (body : Value) :
    Dialogue String Published (Except OpenaiImageRequestError OpenaiImageUpstreamBody) :=
  match normalizeRequestBodyForUpstream env.parse body (shouldForceOpenaiImageB64JsonForUpstream env baseUrl) baseUrl with
  | .error err => .done (.error (.invalid err))
  | .ok requestBody =>
    if openaiImageReferenceImageCount requestBody > MAX_OPENAI_REFERENCE_IMAGES then
      .done (.error .tooManyReferenceImages)
    else if shouldUseOpenaiImageEditsForUpstream env baseUrl && openaiImageRequestHasImages requestBody then
      (buildHappyapiImageEditForm env requestBody).map fun form => (form.map .form).mapError .form
    else .done (.ok (.json requestBody))

end

end GeminiWorker
