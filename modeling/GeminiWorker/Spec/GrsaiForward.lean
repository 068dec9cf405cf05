import GeminiWorker.Lib.Dialogue
import GeminiWorker.Spec.AdminState
import GeminiWorker.Spec.MarkdownRewrite
import GeminiWorker.Spec.OpenaiResponse
import GeminiWorker.Spec.OutputMode
import GeminiWorker.Spec.Upstream

/-!
# Requests forwarded to grsai

The parameters that `grsai.rs` reads from a Gemini request, and `forward_grsai_gemini_request` and
`forward_grsai_openai_image_request` of `router.rs`: the one request sent, and what becomes of its answer.
-/

namespace GeminiWorker

open Json (Value Map)

/-! ## The parameters of a Gemini request -/

def pickGeminiContent (object : Map) : Option Value := do
  let contents ← (object.get "contents").bind Value.asArray
  (contents.find? fun content => (content.get "role").bind Value.asStr == some "user").or contents.head?

def extractPartUrl (part : Value) : Option String :=
  ((((part.pointer "/inlineData/data").or (part.pointer "/inline_data/data")).bind Value.asStr).map Text.trim).filter
    (· != "")

def parseQueryMap (query : Option (List UInt8)) : List (String × String) := (query.map FormUrlencoded.parse).getD []

/-- The first pair with the name whose value is not blank; its value trimmed. -/
def pickQueryText (queryMap : List (String × String)) (key : String) : Option String :=
  (queryMap.find? fun pair => pair.1 == key && Text.trim pair.2 != "").map fun pair => Text.trim pair.2

def pickStringOverride (queryMap : List (String × String)) (queryKeys : List String) (object : Option Value)
    (objectKeys : List String) (default : String) : String :=
  match queryKeys.findSome? (pickQueryText queryMap) with
  | some text => text
  | none =>
    (((object.bind fun value => objectKeys.findSome? fun key => (value.get key).bind Value.asStr).map Text.trim).filter
      (· != "")).getD default

def extractGeminiParams (body : Value) (rawModel : String) (query : Option (List UInt8)) :
    Except GrsaiError GrsaiImageParams :=
  match body.asObject with
  | none => .error (invalidRequest "请求内容必须是 JSON 对象")
  | some object =>
    match pickGeminiContent object with
    | none => .error (invalidRequest "Gemini 请求缺少 contents 字段或内容为空")
    | some content =>
      match (content.get "parts").bind Value.asArray with
      | none => .error (invalidRequest "Gemini 请求缺少 parts 数组")
      | some parts =>
        let imageConfig := (body.pointer "/generationConfig/imageConfig").or (body.pointer "/generation_config/image_config")
        let queryMap := parseQueryMap query
        .ok {
          model := normalizeModel rawModel .gemini
          prompt := Text.join "\n" (((parts.filterMap fun part => (part.get "text").bind Value.asStr).map Text.trim).filter
            (· != ""))
          urls := parts.filterMap extractPartUrl
          aspectRatio := pickStringOverride queryMap ["aspectRatio", "aspect_ratio"] imageConfig
            ["aspectRatio", "aspect_ratio"] "auto"
          imageSize := pickStringOverride queryMap ["imageSize", "image_size"] imageConfig ["imageSize", "image_size"] "1K"
          output := pickStringOverride queryMap ["output"] imageConfig ["output"] "" }

/-! ## What an answer is read as -/

/-- A failure that is reported to the client and in the log. -/
structure ProxyFailure where
  status : StatusCode
  message : String
  stage : String
  kind : String
  detail : String

/-- What the routes depend on. -/
structure GrsaiEnv extends OpenaiResponseEnv where
  reader : JsonReader
  /-- `StatusCode::canonical_reason`. -/
  canonicalReason : StatusCode → Option String
  /-- `{:?}` of a text that may be missing. -/
  debug : Option String → String
  /-- `build_upstream_url`. -/
  parseUrl : String → Except String Url
  urlText : Url → String
  fetch : String → Published
  adminEnabled : Bool
  upstreamBuildMs : Int64
  responseProcessMs : Int64
  now : Int

section

variable (env : GrsaiEnv)

def GrsaiEnv.special : SpecialUpstreamConfig := ⟨env.config.toOutputUrlConfig, env.config.proxySpecialUpstreamUrls⟩

def statusNotSucceeded (parsed : GrsaiResult) : ProxyFailure where
  status := badGateway
  message := MSG_UPSTREAM_REQUEST_FAILED
  stage := "parse_upstream_response"
  kind := "upstream_status_not_succeeded"
  detail := "grsai status not succeeded: status=" ++ parsed.status ++ ", failure_reason=" ++ env.debug parsed.failureReason ++
    ", error_detail=" ++ env.debug parsed.errorDetail

def missingImageUrl : ProxyFailure :=
  ⟨badGateway, MSG_UPSTREAM_REQUEST_FAILED, "parse_upstream_response", "missing_image_url", "grsai response missing image url"⟩

/-- The answer and the first image that it names. -/
def readGrsaiAnswer (status : StatusCode) (body : List UInt8) : Except ProxyFailure (GrsaiResult × String) :=
  match parseGrsaiResponse env.reader env.canonicalReason status body with
  | .error err => .error ⟨err.httpStatus, downstreamGrsaiErrorMessage err, "parse_upstream_response", grsaiErrorKind err,
      err.message⟩
  | .ok parsed =>
    if !Text.eqIgnoreAsciiCase parsed.status "succeeded" then .error (statusNotSucceeded env parsed)
    else match parsed.imageUrls with
      | [] => .error missingImageUrl
      | imageUrl :: _ => .ok (parsed, imageUrl)

/-! ## Reporting a failure -/

def AdminLogRecord.withFailure (entry : AdminLogRecord) (failure : ProxyFailure) : AdminLogRecord :=
  { entry with
    statusCode := failure.status
    errorSource := "proxy"
    errorStage := failure.stage
    errorKind := failure.kind
    errorMessage := failure.message
    errorDetail := failure.detail }

def grsaiProxyErrorResponse (entry : AdminLogRecord) (failure : ProxyFailure) : Response × AdminLogRecord :=
  (proxyErrorResponse failure.status failure.message failure.stage failure.kind, entry.withFailure failure)

def openaiUpstreamErrorJson (status : StatusCode) (message stage kind : String) : Value :=
  let code := if kind = "upstream_auth_failed" then "auth_error" else "upstream_http_" ++ toString status
  .object [("error", .object [("code", .string code), ("message", .string message), ("type", .string "banana_error"),
    ("param", .null), ("source", .string "proxy"), ("stage", .string stage), ("kind", .string kind)])]

def openaiUpstreamErrorResponse (status : StatusCode) (message stage kind : String) : Response :=
  jsonResponse status (openaiUpstreamErrorJson status message stage kind)

def grsaiOpenaiProxyErrorResponse (entry : AdminLogRecord) (failure : ProxyFailure) : Response × AdminLogRecord :=
  let response :=
    if failure.stage = "parse_upstream_response" ∧
        failure.kind ∈ ["upstream_auth_failed", "upstream_rate_limited", "upstream_request_failed"] then
      openaiUpstreamErrorResponse failure.status failure.message failure.stage failure.kind
    else proxyErrorResponse failure.status failure.message failure.stage failure.kind
  (response, entry.withFailure failure)

/-! ## Forwarding -/

/-- What is sent to grsai, beside the type of its body. -/
structure GrsaiRequest where
  url : String
  apiKey : String
  body : Value

/-- What sending it comes to: an answer with its body, if that can be read. -/
inductive GrsaiAnswer where
  | unsent (err : String)
  | answered (status : StatusCode) (body : Except String (List UInt8))

/-- What a request fails with that is not answered here. -/
inductive ForwardError where
  | url (err : String)
  | send (err : String)
  | proxy (error : StructuredProxyError)
  | image (err : String)
deriving DecidableEq

abbrev GrsaiForward := Dialogue GrsaiRequest GrsaiAnswer (Except (ForwardError × AdminLogRecord) (Response × AdminLogRecord))

def IMAGE_GENERATION_PATH : List UInt8 := Text.bytes "/v1/draw/nano-banana"

/-- The entry once the request is sent. -/
def logRequestSent (requestBody : Value) (entry : AdminLogRecord) : AdminLogRecord :=
  let requestUpstream :=
    maybeSanitizeJsonForLog (fun bytes => (env.fromSlice bytes).toOption) (Json.print requestBody) env.adminEnabled
  { entry with
    upstreamBuildMs := env.upstreamBuildMs
    requestUpstream := (requestUpstream.map SanitizedAdminLog.pretty).getD ""
    requestUpstreamImages := (requestUpstream.map SanitizedAdminLog.imageUrls).getD [] }

def logResponse (response : Response) (entry : AdminLogRecord) : AdminLogRecord :=
  { entry with statusCode := response.status, responseProcessMs := env.responseProcessMs }

/-- What both routes do with parameters: `fail` reports a failure, `respond` makes the response for an image. -/
def forwardGrsaiParams (resolved : ResolvedUpstream) (query : Option (List UInt8)) (params : GrsaiImageParams)
    (fail : AdminLogRecord → ProxyFailure → Response × AdminLogRecord)
    (respond : GrsaiResult → String → Except String Response) (entry : AdminLogRecord) : GrsaiForward :=
  let requestBody := buildGrsaiRequestBody params
  match buildUpstreamUrl env.parseUrl env.urlText resolved.baseUrl IMAGE_GENERATION_PATH query with
  | .error err => .done (.error (.url err, entry))
  | .ok url => .ask ⟨url, resolved.apiKey, requestBody⟩ fun answer => .done <|
    match answer with
    | .unsent err => .error (.send err, entry)
    | .answered status body =>
      let entry := logRequestSent env requestBody entry
      match body with
      | .error err => .error (.proxy ⟨MSG_READ_UPSTREAM_BODY_FAILED, "read_upstream_body", "body_truncated", err⟩, entry)
      | .ok body =>
        match readGrsaiAnswer env status body with
        | .error failure => .ok (fail entry failure)
        | .ok (parsed, imageUrl) =>
          match respond parsed imageUrl with
          | .error err => .error (.image err, entry)
          | .ok response => .ok (response, logResponse env response entry)

/-! ### For a Gemini client -/

def geminiImagePayload (mimeType data : String) : Value :=
  .object [
    ("candidates", .array [.object [
      ("content", .object [("role", .string "model"), ("parts", .array [
        .object [("inlineData", .object [("mimeType", .string mimeType), ("data", .string data)])]])]),
      ("finishReason", .string "STOP"), ("safetyRatings", .array [])]]),
    ("usageMetadata", .object [("promptTokenCount", .number "1"), ("candidatesTokenCount", .number "1"),
      ("totalTokenCount", .number "2")])]

def buildGrsaiGeminiResponse (outputMode : OutputMode) (imageUrl : String) : Except String Response :=
  match outputMode with
  | .url =>
    let externalProxyPrefix := env.special.resolvedExternalImageProxyPrefix
    let finalUrl :=
      if env.special.proxySpecialUpstreamUrls && externalProxyPrefix != "" then
        wrapExternalProxyUrl externalProxyPrefix imageUrl
      else imageUrl
    .ok (jsonResponse 200 (geminiImagePayload (normalizeImageMimeType none imageUrl) finalUrl))
  | .base64 => (env.fetch imageUrl).map fun fetched =>
    jsonResponse 200 (geminiImagePayload fetched.mimeType (Base64.encodeText fetched.bytes))

/-- `strip_prefix("/v1beta/models/")`, then `strip_suffix(":generateContent")`. -/
def rawModelOf (targetPath : String) : String :=
  ((Text.stripPrefix "/v1beta/models/" targetPath).bind (Text.stripSuffix ":generateContent")).getD ""

def MSG_EMPTY_PROMPT : String := "请求内容不能为空，请检查后再试"

def forwardGrsaiGeminiRequest (resolved : ResolvedUpstream) (requestQuery : Option (List UInt8)) (targetPath : String)
    (body : Value) (outputMode : OutputMode) (entry : AdminLogRecord) : GrsaiForward :=
  match extractGeminiParams body (rawModelOf targetPath) requestQuery with
  | .error err =>
    .done (.ok (grsaiProxyErrorResponse entry
      (if err.httpStatus = badRequest then ⟨badRequest, err.message, "validate_request", "invalid_request", err.bodyText⟩
      else ⟨err.httpStatus, downstreamGrsaiErrorMessage err, "parse_upstream_response", "invalid_request", err.message⟩)))
  | .ok params =>
    if Text.trim params.prompt = "" then
      .done (.ok (grsaiProxyErrorResponse entry
        ⟨badRequest, MSG_EMPTY_PROMPT, "validate_request", "invalid_request", "Gemini prompt is empty"⟩))
    else forwardGrsaiParams env resolved none params grsaiProxyErrorResponse
      (fun _ imageUrl => buildGrsaiGeminiResponse env outputMode imageUrl) entry

/-! ### For an OpenAI client -/

def buildGrsaiOpenaiResponse (parsed : GrsaiResult) (imageUrl : String) : Response :=
  let finalUrl := buildOpenaiImageOutputUrl env.toOpenaiResponseEnv "grsai" imageUrl
  jsonResponse 200 (buildResponsePayloadFromUploaded [⟨finalUrl⟩] ((parsed.endTime.or parsed.startTime).getD env.now))

def forwardGrsaiOpenaiImageRequest (resolved : ResolvedUpstream) (requestBody : Value) (requestQuery : Option (List UInt8))
    (entry : AdminLogRecord) : GrsaiForward :=
  match extractOpenaiParams requestBody with
  | .error err =>
    .done (.ok (grsaiOpenaiProxyErrorResponse entry
      (if err.httpStatus = badRequest then ⟨badRequest, err.message, "validate_request", "invalid_request", err.message⟩
      else ⟨err.httpStatus, downstreamGrsaiErrorMessage err, "validate_request", "invalid_request", err.message⟩)))
  | .ok params =>
    if Text.trim params.prompt = "" then
      .done (.ok (grsaiOpenaiProxyErrorResponse entry
        ⟨badRequest, MSG_EMPTY_PROMPT, "validate_request", "invalid_request", "OpenAI prompt is empty"⟩))
    else forwardGrsaiParams env resolved requestQuery params grsaiOpenaiProxyErrorResponse
      (fun parsed imageUrl => .ok (buildGrsaiOpenaiResponse env parsed imageUrl)) entry

end

end GeminiWorker
