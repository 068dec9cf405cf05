import GeminiWorker.Spec.BlockCache

/-!
# Upstream errors and their replay

The parts of `router.rs` that answer an upstream error: an answer to a blocked input is
rewritten, stored in the block cache and replayed to requests with the same key. The
aiapidev flows are here as far as they use the cache; what a flow answers without it is a
parameter. Admin logging copies the answers and does not change them.
-/

namespace GeminiWorker

open Json (Value Map)

structure Response where
  status : StatusCode
  contentType : HeaderValue
  body : List UInt8
  /-- The `OriginalUpstreamStatus` extension, which is not sent. -/
  originalUpstreamStatus : Option StatusCode
deriving DecidableEq

def applicationJson : HeaderValue := Text.bytes "application/json"

def MSG_UPSTREAM_BLOCKED_INPUT : String :=
  "输入内容触发上游违规提示，请调整输入提示词和参考图或尝试更换模型。"

def MSG_READ_UPSTREAM_BODY_FAILED : String := "读取上游服务响应失败，请稍后再试"

def MSG_UPSTREAM_URL_INVALID : String := "上游服务地址配置有误，请检查后再试"

def MSG_AIAPIDEV_CREATE_PARSE_FAILED : String := "解析任务创建响应失败，请稍后再试"

def MSG_AIAPIDEV_MISSING_REQUEST_ID : String := "任务创建响应缺少请求 ID，请稍后再试"

def MSG_AIAPIDEV_TASK_FAILED : String := "上游任务处理失败，请稍后再试"

def MSG_AIAPIDEV_POLL_TIMEOUT : String := "等待上游任务完成超时，请稍后再试"

def MSG_AIAPIDEV_POLL_PARSE_FAILED : String := "解析任务轮询响应失败，请稍后再试"

def maxUpstreamBlockCacheBodyBytes : ℕ := 64 * 1024

/-- In nanoseconds, as the clock readings of the polls. -/
def aiapidevMaxPollTime : ℕ := 450 * 10 ^ 9

def aiapidevMaxConsecutivePollFailures : ℕ := 5

def isSuccess (status : StatusCode) : Bool := 200 ≤ status && status < 300

/-- `json!` of a status code. -/
def statusNumber (status : StatusCode) : Value := .number (toString status)

/-- `(status, Json(value)).into_response()`. -/
def jsonResponse (status : StatusCode) (value : Value) : Response :=
  ⟨status, applicationJson, Json.print value, none⟩

def proxyErrorJson (code : StatusCode) (message source stage kind : String) : Value :=
  .object [("error", .object [("code", statusNumber code), ("message", .string message),
    ("source", .string source), ("stage", .string stage), ("kind", .string kind)])]

def proxyErrorResponse (status : StatusCode) (message stage kind : String) : Response :=
  jsonResponse status (proxyErrorJson status message "proxy" stage kind)

/-- `json!({"error": {"code": code, "message": message}})`. -/
def errorJson (code : StatusCode) (message : String) : Value :=
  .object [("error", .object [("code", statusNumber code), ("message", .string message)])]

def unavailableForLegalReasons : StatusCode := 451

def blockErrorResponseStatus (status : StatusCode) (body : List UInt8) : StatusCode :=
  if (classifyBlockableUpstreamError status body).isSome then unavailableForLegalReasons else status

/-- `Map::entry(key).or_insert_with(|| value)`. -/
def orInsert (key : String) (value : Value) (map : Map) : Map :=
  if Map.containsKey map key then map else Map.insert map key value

section

/- `serde_json::from_slice`. -/
variable (fromSlice : List UInt8 → Option Value)

def annotateUpstreamErrorJson (status : StatusCode) (bodyBytes : List UInt8) : Option (List UInt8) := do
  let body ← fromSlice bodyBytes
  let map ← body.asObject
  let error ← (Map.get map "error").bind Value.asObject
  let error := orInsert "code" (statusNumber status) error
  let error := orInsert "source" (.string "upstream") error
  let error := orInsert "stage" (.string "upstream_response") error
  let error := orInsert "kind" (.string "upstream_error") error
  return Json.print (.object (Map.insert map "error" (.object error)))

/-- The document with the message in its error object, else in itself. -/
def withBlockedMessage (value : Value) : Option Value := do
  let map ← value.asObject
  match (Map.get map "error").bind Value.asObject with
  | some error => return .object (Map.insert map "error"
      (.object (Map.insert error "message" (.string MSG_UPSTREAM_BLOCKED_INPUT))))
  | none => return .object (Map.insert map "message" (.string MSG_UPSTREAM_BLOCKED_INPUT))

def blockErrorResponseBody (status : StatusCode) (body : List UInt8) : List UInt8 :=
  if (classifyBlockableUpstreamError status body).isNone then body
  else match (fromSlice body).bind withBlockedMessage with
    | some value => Json.print value
    | none => Text.bytes MSG_UPSTREAM_BLOCKED_INPUT

def rawResponseWithBody (status : StatusCode) (contentType : HeaderValue) (bodyBytes : List UInt8) :
    Response :=
  ⟨status, contentType, bodyBytes, none⟩

def rawResponseWithUpstreamStatus (status upstreamStatus : StatusCode) (contentType : HeaderValue)
    (bodyBytes : List UInt8) : Response :=
  let bodyBytes := blockErrorResponseBody fromSlice upstreamStatus bodyBytes
  { rawResponseWithBody status contentType bodyBytes with originalUpstreamStatus := some upstreamStatus }

def responseFromBlockCacheHit (hit : BlockCacheHit) : Response :=
  rawResponseWithUpstreamStatus fromSlice hit.status hit.upstreamStatus hit.contentType hit.body

/-- The block cache, the key of the request, and the instant at which it is answered. The
cache is absent where it is disabled, and the key with it. -/
structure BlockScope where
  cache : Option UpstreamBlockCache
  key : Option UpstreamBlockCacheKey
  now : ℕ

/-- What `maybe_store_upstream_block_error` stores, if anything. -/
def blockResponseToStore (status : StatusCode) (contentType : HeaderValue) (body : List UInt8) :
    Option CachedBlockResponse :=
  if body.length > maxUpstreamBlockCacheBodyBytes then none
  else (classifyBlockableUpstreamError status body).map fun reason =>
    ⟨blockErrorResponseStatus status body, status, contentType,
      blockErrorResponseBody fromSlice status body, reason⟩

def maybeStoreUpstreamBlockError (scope : BlockScope) (status : StatusCode)
    (contentType : HeaderValue) (body : List UInt8) : Option UpstreamBlockCache :=
  match scope.cache, scope.key with
  | some cache, some key =>
    match blockResponseToStore fromSlice status contentType body with
    | some response => some (cache.insert scope.now key response)
    | none => some cache
  | cache, _ => cache

/-- `handle_non_stream_response` up to a success, which `finish` answers. -/
def handleNonStreamResponse (finish : List UInt8 → Response) (scope : BlockScope)
    (status : StatusCode) (contentType : Option HeaderValue) (bodyBytes : List UInt8) :
    Response × Option UpstreamBlockCache :=
  let contentType := contentType.getD applicationJson
  if !isSuccess status then
    let responseBodyBytes := (annotateUpstreamErrorJson fromSlice status bodyBytes).getD bodyBytes
    let responseStatus := blockErrorResponseStatus status responseBodyBytes
    let cache := maybeStoreUpstreamBlockError fromSlice scope status contentType responseBodyBytes
    (rawResponseWithUpstreamStatus fromSlice responseStatus status contentType responseBodyBytes, cache)
  else (finish bodyBytes, scope.cache)

/-- `handle_openai_image_response` up to a success, which `finish` answers. -/
def handleOpenaiImageResponse (finish : List UInt8 → Response) (scope : BlockScope)
    (status : StatusCode) (contentType : Option HeaderValue) (bodyBytes : List UInt8) :
    Response × Option UpstreamBlockCache :=
  let contentType := contentType.getD applicationJson
  if !isSuccess status then
    let cache := maybeStoreUpstreamBlockError fromSlice scope status contentType bodyBytes
    (rawResponseWithUpstreamStatus fromSlice (blockErrorResponseStatus status bodyBytes) status
      contentType bodyBytes, cache)
  else (finish bodyBytes, scope.cache)

/-- `raw_reqwest_response`; there is no body where reading it fails. -/
def rawReqwestResponse (scope : BlockScope) (status : StatusCode)
    (contentType : Option HeaderValue) (body : Option (List UInt8)) :
    Response × Option UpstreamBlockCache :=
  let contentType := contentType.getD applicationJson
  match body with
  | none => (jsonResponse badGateway (errorJson badGateway MSG_READ_UPSTREAM_BODY_FAILED), scope.cache)
  | some bodyBytes =>
    let cache := maybeStoreUpstreamBlockError fromSlice scope status contentType bodyBytes
    (rawResponseWithUpstreamStatus fromSlice (blockErrorResponseStatus status bodyBytes) status
      contentType bodyBytes, cache)

def upstreamBlockCacheJsonErrorResponse (scope : BlockScope) (status : StatusCode) (value : Value) :
    Response × Option UpstreamBlockCache :=
  let body := Json.print value
  let cache := maybeStoreUpstreamBlockError fromSlice scope status applicationJson body
  let responseStatus := blockErrorResponseStatus status body
  (rawResponseWithUpstreamStatus fromSlice responseStatus status applicationJson body, cache)

def isAiapidevTerminalStatus (status : String) : Bool :=
  status ∈ ["succeeded", "failed", "error", "cancelled", "canceled", "timeout"]

def isAiapidevRetryablePollStatus (status : StatusCode) : Bool :=
  status ∈ [408, 425, 429, 500, 502, 503, 504]

/-- How a request to the upstream ends: it cannot be sent (with the message for it), or it
is answered; there is no body where reading it fails. -/
inductive UpstreamOutcome where
  | sendFailed (message : String)
  | answered (status : StatusCode) (contentType : Option HeaderValue) (body : Option (List UInt8))

/-- A poll, and the clock where the deadline is checked after it. -/
structure Poll where
  outcome : UpstreamOutcome
  clock : ℕ

/-- What one turn of the loop decides. -/
inductive PollTurn where
  | again (consecutiveFailures : ℕ)
  | done (result : Except Response Value)

/-- `task_body.get("status")` as lowercase text, empty where there is none. -/
def taskStatus (taskBody : Value) : String :=
  Text.toAsciiLowercase (((taskBody.get "status").bind Value.asStr).getD "")

/-- The body of the polling loop once the task URL is built. -/
def pollTurn (scope : BlockScope) (deadline consecutiveFailures : ℕ) (poll : Poll) :
    PollTurn × Option UpstreamBlockCache :=
  let timeout := proxyErrorResponse badGateway MSG_AIAPIDEV_POLL_TIMEOUT "aiapidev_poll_task" "timeout"
  match poll.outcome with
  | .sendFailed message =>
    let consecutiveFailures := consecutiveFailures + 1
    if consecutiveFailures ≥ aiapidevMaxConsecutivePollFailures then
      (.done (.error (jsonResponse badGateway (errorJson badGateway message))), scope.cache)
    else if poll.clock ≥ deadline then (.done (.error timeout), scope.cache)
    else (.again consecutiveFailures, scope.cache)
  | .answered status contentType body =>
    if !isSuccess status then
      let contentType := contentType.getD applicationJson
      match body with
      | none => (.done (.error (jsonResponse badGateway
          (errorJson badGateway MSG_READ_UPSTREAM_BODY_FAILED))), scope.cache)
      | some bodyBytes =>
        let isBlockable := (classifyBlockableUpstreamError status bodyBytes).isSome
        let cache := maybeStoreUpstreamBlockError fromSlice scope status contentType bodyBytes
        if isBlockable then
          (.done (.error (rawResponseWithUpstreamStatus fromSlice
            (blockErrorResponseStatus status bodyBytes) status contentType bodyBytes)), cache)
        else if !isAiapidevRetryablePollStatus status then
          (.done (.error (rawResponseWithBody status contentType bodyBytes)), cache)
        else
          let consecutiveFailures := consecutiveFailures + 1
          if consecutiveFailures ≥ aiapidevMaxConsecutivePollFailures then
            let cache := maybeStoreUpstreamBlockError fromSlice { scope with cache } status contentType
              bodyBytes
            (.done (.error (rawResponseWithBody status contentType bodyBytes)), cache)
          else if poll.clock ≥ deadline then (.done (.error timeout), cache)
          else (.again consecutiveFailures, cache)
    else match body.bind fromSlice with
      | none => (.done (.error (proxyErrorResponse badGateway MSG_AIAPIDEV_POLL_PARSE_FAILED
          "aiapidev_parse_task_response" "invalid_json")), scope.cache)
      | some taskBody =>
        if isAiapidevTerminalStatus (taskStatus taskBody) then (.done (.ok taskBody), scope.cache)
        else if poll.clock ≥ deadline then (.done (.error timeout), scope.cache)
        else (.again 0, scope.cache)

/-- The polling loop; nothing if it still polls after the polls given. -/
def pollLoop (scope : BlockScope) (deadline : ℕ) : ℕ → List Poll →
    Option (Except Response Value × Option UpstreamBlockCache)
  | _, [] => none
  | consecutiveFailures, poll :: polls =>
    match pollTurn fromSlice scope deadline consecutiveFailures poll with
    | (.done result, cache) => some (result, cache)
    | (.again consecutiveFailures, cache) => pollLoop { scope with cache } deadline consecutiveFailures polls

/-- `poll_aiapidev_task` from the instant `start`. The task URL is built anew in every turn,
always from the same parts. -/
def pollAiapidevTask (buildUpstreamUrl : String → Option String) (scope : BlockScope)
    (requestId : String) (start : ℕ) (polls : List Poll) :
    Option (Except Response Value × Option UpstreamBlockCache) :=
  match buildUpstreamUrl ("/v1beta/tasks/" ++ requestId) with
  | none => some (.error (jsonResponse badGateway (errorJson badGateway MSG_UPSTREAM_URL_INVALID)),
      scope.cache)
  | some _ => pollLoop fromSlice scope (start + aiapidevMaxPollTime) 0 polls

def pollAiapidevOpenaiImageTask (buildUpstreamUrl : String → Option String) (scope : BlockScope)
    (requestId : String) (start : ℕ) (polls : List Poll) :
    Option (Except Response Value × Option UpstreamBlockCache) :=
  match buildUpstreamUrl ("/v1/tasks/" ++ requestId) with
  | none => some (.error (jsonResponse badGateway (errorJson badGateway MSG_UPSTREAM_URL_INVALID)),
      scope.cache)
  | some _ => pollLoop fromSlice scope (start + aiapidevMaxPollTime) 0 polls

/-- A text under a key of the task that is not blank. -/
def nonBlankText (value : Value) (key : String) : Option String :=
  ((value.get key).bind Value.asStr).filter fun text => Text.trim text ≠ ""

/-- The common steps of the aiapidev flows: a task is created, polled and, once it has
succeeded, finished. -/
def handleAiapidevTask
    (pollTask : String → Option (Except Response Value × Option UpstreamBlockCache))
    (finish : Value → Response) (scope : BlockScope) (upstreamUrl : Option String)
    (create : UpstreamOutcome) : Option (Response × Option UpstreamBlockCache) :=
  match upstreamUrl, create with
  | none, _ => some (jsonResponse badGateway (errorJson badGateway MSG_UPSTREAM_URL_INVALID), scope.cache)
  | some _, .sendFailed message => some (jsonResponse badGateway (errorJson badGateway message), scope.cache)
  | some _, .answered status contentType body =>
    if !isSuccess status then some (rawReqwestResponse fromSlice scope status contentType body)
    else match body.bind fromSlice with
      | none => some (proxyErrorResponse badGateway MSG_AIAPIDEV_CREATE_PARSE_FAILED
          "aiapidev_create_task" "invalid_json", scope.cache)
      | some createdTask =>
        match nonBlankText createdTask "requestId" with
        | none => some (jsonResponse badGateway (errorJson badGateway MSG_AIAPIDEV_MISSING_REQUEST_ID),
            scope.cache)
        | some requestId =>
          match pollTask requestId with
          | none => none
          | some (.error response, cache) => some (response, cache)
          | some (.ok taskBody, cache) =>
            if taskStatus taskBody ≠ "succeeded" then
              let message := ((nonBlankText taskBody "errorMessage").or
                (nonBlankText taskBody "errorCode")).getD MSG_AIAPIDEV_TASK_FAILED
              some (upstreamBlockCacheJsonErrorResponse fromSlice { scope with cache } badGateway
                (errorJson badGateway message))
            else some (finish taskBody, cache)

/-- What an aiapidev flow meets: the URLs that its paths give, the creation of its task, the
polls from the instant `start`, and what it makes of a task that has succeeded. -/
structure AiapidevRun where
  buildUpstreamUrl : String → Option String
  create : UpstreamOutcome
  start : ℕ
  polls : List Poll
  finish : Value → Response

def handleAiapidevResponse (scope : BlockScope) (targetPath : String) (run : AiapidevRun) :
    Option (Response × Option UpstreamBlockCache) :=
  handleAiapidevTask fromSlice
    (fun requestId => pollAiapidevTask fromSlice run.buildUpstreamUrl scope requestId run.start run.polls)
    run.finish scope (run.buildUpstreamUrl targetPath) run.create

def handleAiapidevOpenaiImageResponse (scope : BlockScope) (run : AiapidevRun) :
    Option (Response × Option UpstreamBlockCache) :=
  handleAiapidevTask fromSlice
    (fun requestId =>
      pollAiapidevOpenaiImageTask fromSlice run.buildUpstreamUrl scope requestId run.start run.polls)
    run.finish scope (run.buildUpstreamUrl "/v1/images/generations") run.create

/-- How the forwarding of a request goes: what the upstream answers and, where it answers a
success, what is made of it. -/
inductive Forwarding where
  | transparentGemini (status : StatusCode) (contentType : Option HeaderValue) (body : List UInt8)
      (finish : List UInt8 → Response)
  | transparentOpenaiImage (status : StatusCode) (contentType : Option HeaderValue)
      (body : List UInt8) (finish : List UInt8 → Response)
  | aiapidevGemini (targetPath : String) (run : AiapidevRun)
  | aiapidevOpenaiImage (run : AiapidevRun)
  /-- It ends without the cache. -/
  | other (response : Response)

/-- The forwarding to its end, which is when it uses the cache. -/
def forward (scope : BlockScope) : Forwarding → Option (Response × Option UpstreamBlockCache)
  | .transparentGemini status contentType body finish =>
    some (handleNonStreamResponse fromSlice finish scope status contentType body)
  | .transparentOpenaiImage status contentType body finish =>
    some (handleOpenaiImageResponse fromSlice finish scope status contentType body)
  | .aiapidevGemini targetPath run => handleAiapidevResponse fromSlice scope targetPath run
  | .aiapidevOpenaiImage run => handleAiapidevOpenaiImageResponse fromSlice scope run
  | .other response => some (response, scope.cache)

/-! ## The proxy -/

/-- The block cache and the requests that are being forwarded, with their keys. -/
structure Proxy where
  cache : Option UpstreamBlockCache
  forwarding : List (ℕ × Option UpstreamBlockCacheKey)

/-- What happens to a request: it arrives, or its forwarding ends. -/
inductive ProxyEvent where
  | arrives (id : ℕ) (path baseUrl : String) (body : Value)
  | answered (id : ℕ) (forwarding : Forwarding)

/-- A request is answered, or an upstream call is made for it. -/
inductive ProxyEffect where
  | replies (id : ℕ) (response : Response)
  | calls (id : ℕ)

variable (sha256Hex : List UInt8 → String)

/-- `model_action` and `openai_image_generations`, from the lookup to the forwarding and from
there to the answer. -/
def Proxy.step (proxy : Proxy) (now : ℕ) : ProxyEvent → Option (Proxy × ProxyEffect)
  | .arrives id path baseUrl body =>
    match proxy.cache with
    | none => some ({ proxy with forwarding := (id, none) :: proxy.forwarding }, .calls id)
    | some cache =>
      let key := UpstreamBlockCacheKey.new sha256Hex path baseUrl body
      match cache.get now key with
      | (some hit, cache) =>
        some ({ proxy with cache := some cache }, .replies id (responseFromBlockCacheHit fromSlice hit))
      | (none, cache) => some (⟨some cache, (id, some key) :: proxy.forwarding⟩, .calls id)
  | .answered id forwarding =>
    match proxy.forwarding.lookup id with
    | none => none
    | some key =>
      match forward fromSlice ⟨proxy.cache, key, now⟩ forwarding with
      | none => none
      | some (response, cache) =>
        some (⟨cache, proxy.forwarding.filter fun waiting => waiting.1 ≠ id⟩, .replies id response)

/-- A run of the proxy over events and their instants. -/
def Proxy.run : Proxy → List (ℕ × ProxyEvent) → Option Proxy
  | proxy, [] => some proxy
  | proxy, (now, event) :: events =>
    match proxy.step fromSlice sha256Hex now event with
    | some (proxy, _) => Proxy.run proxy events
    | none => none

end

end GeminiWorker
