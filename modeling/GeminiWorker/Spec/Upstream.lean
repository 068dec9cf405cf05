import GeminiWorker.Lib.Json
import GeminiWorker.Spec.Url

/-!
# Upstream resolution

`upstream.rs`: which upstream a request goes to and with which API key. A request
header may carry a token that overrides the defaults of the configuration: an API
key, one `<baseUrl>|<apiKey>` pair, or two pairs of which the second serves 4K
requests.
-/

namespace GeminiWorker

open Json (Value)

structure ResolvedUpstream where
  baseUrl : String
  apiKey : String
deriving DecidableEq

inductive ResolveUpstreamErrorKind where
  | missingApiKey
  | invalidOverride
deriving DecidableEq

structure ResolveUpstreamError where
  kind : ResolveUpstreamErrorKind
  message : String
deriving DecidableEq

namespace ResolveUpstreamError

def missingApiKey : ResolveUpstreamError :=
  ⟨.missingApiKey, "缺少上游服务 API Key，请检查请求头或服务配置"⟩

def invalidOverride (message : String) : ResolveUpstreamError := ⟨.invalidOverride, message⟩

def statusCode (e : ResolveUpstreamError) : ℕ :=
  match e.kind with
  | .missingApiKey => 401
  | .invalidOverride => 400

end ResolveUpstreamError

structure UpstreamOverride where
  baseUrl : Option String
  apiKey : Option String
deriving DecidableEq

/-- The two header values that may carry a token: the last non-blank one of each name. -/
structure TokenHeaders where
  xGoogApiKey : Option String
  authorization : Option String

/-- One round of the header loop of `resolve_upstream_for_request`. -/
def TokenHeaders.read (h : TokenHeaders) (header : String × String) : TokenHeaders :=
  let value := Text.trim header.2
  if Text.eqIgnoreAsciiCase header.1 "x-goog-api-key" && value != "" then
    { h with xGoogApiKey := some value }
  else if Text.eqIgnoreAsciiCase header.1 "authorization" && value != "" then
    { h with authorization := some value }
  else h

/-- The header token; `x-goog-api-key` wins over a bearer token. -/
def headerToken (headers : List (String × String)) : Option String :=
  let h := headers.foldl TokenHeaders.read ⟨none, none⟩
  h.xGoogApiKey.or (h.authorization.bind (Text.stripPrefix "Bearer "))

def requestTargets4k (requestBody : Value) : Bool :=
  (((requestBody.pointer "/generationConfig/imageConfig/imageSize").or
    (requestBody.pointer "/generation_config/image_config/image_size")).bind Value.asStr).any
      fun value => Text.eqIgnoreAsciiCase (Text.trim value) "4k"

section

variable (parse : UrlParser)

def validateHttpBaseUrl (raw : String) : Except ResolveUpstreamError Unit :=
  match parse raw with
  | none => .error (.invalidOverride "上游地址格式不正确，请检查后再试")
  | some parsed =>
    if !parsed.isHttp then .error (.invalidOverride "上游地址必须使用 http 或 https")
    else if parsed.hostStr.getD "" == "" then
      .error (.invalidOverride "上游地址缺少主机名，请检查后再试")
    else .ok ()

/-- The lenient parser of a token without a comma: either half of a pair may be blank. -/
def parseSingleUpstreamToken (token : String) : Except ResolveUpstreamError UpstreamOverride :=
  match Text.splitOnce '|' token with
  | some (customBase, customKey) => do
    let customBase := Text.trim customBase
    let customKey := Text.trim customKey
    if customBase != "" then validateHttpBaseUrl parse customBase
    return ⟨if customBase != "" then some customBase else none,
      if customKey != "" then some customKey else none⟩
  | none => .ok ⟨none, some (Text.trim token)⟩

def parseStrictUpstreamPair (token : String) : Except ResolveUpstreamError UpstreamOverride :=
  match Text.splitOnce '|' token with
  | none => .error (.invalidOverride "上游配置格式不正确：每组都必须是 <baseUrl>|<apiKey>")
  | some (customBase, customKey) => do
    let customBase := Text.trim customBase
    let customKey := Text.trim customKey
    if customBase == "" || customKey == "" then
      throw (.invalidOverride "上游配置格式不正确：baseUrl 和 apiKey 都不能为空")
    validateHttpBaseUrl parse customBase
    return ⟨some customBase, some customKey⟩

/-- The comma-separated parts of a token, trimmed, blank ones dropped. -/
def tokenParts (token : String) : List String :=
  ((Text.split ',' token).map Text.trim).filter (· != "")

def parseDualUpstreamToken (token : String) (requestBody : Value) :
    Except ResolveUpstreamError UpstreamOverride :=
  match tokenParts token with
  | [part0, part1] => do
    let first ← parseStrictUpstreamPair parse part0
    let second ← parseStrictUpstreamPair parse part1
    return if requestTargets4k requestBody then second else first
  | _ => .error (.invalidOverride "上游配置格式不正确：需要提供两组 <baseUrl>|<apiKey>")

/-- The override a token asks for. -/
def tokenOverride (token : String) (requestBody : Value) :
    Except ResolveUpstreamError UpstreamOverride :=
  if Text.containsChar ',' token then parseDualUpstreamToken parse token requestBody
  else parseSingleUpstreamToken parse token

def resolveUpstreamForRequest (headers : List (String × String)) (requestBody : Value)
    (defaultBaseUrl defaultApiKey : String) : Except ResolveUpstreamError ResolvedUpstream := do
  let baseUrl := Text.trim defaultBaseUrl
  let apiKey := Text.trim defaultApiKey
  let override ← match headerToken headers with
    | some token => tokenOverride parse token requestBody
    | none => pure ⟨none, none⟩
  let baseUrl := override.baseUrl.getD baseUrl
  let apiKey := override.apiKey.getD apiKey
  if apiKey == "" then throw .missingApiKey
  return ⟨baseUrl, apiKey⟩

end

end GeminiWorker
