import GeminiWorker.Lib.Except
import GeminiWorker.Spec.BlockReplay
import GeminiWorker.Spec.Grsai

/-!
# What grsai answers

`grsai.rs`, response side: the payload is the body or the last event of a stream, and the HTTP status, the
business code and the fields of the payload are looked at in this order. And what the router makes of an error.
-/

namespace GeminiWorker

open Json (Value Map)

def MSG_PARSE_UPSTREAM_FAILED : String := "解析上游服务响应失败，请稍后再试"

structure GrsaiResult where
  status : String
  imageUrls : List String
  failureReason : Option String
  errorDetail : Option String
  startTime : Option Int
  endTime : Option Int
  rawData : Value

/-- `serde_json::from_str`. White space around a text does not matter, and the text of an object or array
starts with its bracket. -/
structure JsonReader where
  fromStr : String → Except String Value
  fromStr_trimmed : ∀ text value, fromStr text = .ok value →
    fromStr (Text.trimStart text) = .ok value ∧ fromStr (Text.trim text) = .ok value
  fromStr_container : ∀ text value, fromStr text = .ok value → value.asObject.isSome ∨ value.asArray.isSome →
    (Text.startsWith "\x7b" (Text.trimStart text) || Text.startsWith "[" (Text.trimStart text)) = true

/-- `Value::as_i64`, of a number as the library writes it. -/
def asI64 : Value → Option Int
  | .number spelling =>
    match spelling.toList with
    | [] | ['-'] => none
    | '-' :: digits => (Json.parseDigits digits 0).bind fun n => if n ≤ 2 ^ 63 then some (-(n : Int)) else none
    | digits => (Json.parseDigits digits 0).bind fun n => if n < 2 ^ 63 then some (n : Int) else none
  | _ => none

def parseError (message bodyText : String) (rawJson : Option Value) : GrsaiError :=
  ⟨502, MSG_PARSE_UPSTREAM_FAILED ++ ": " ++ message, none, none, bodyText, rawJson⟩

/-- The first of several keys that holds a string; its trimmed text unless blank. -/
def objectString (object : Map) (keys : List String) : Option String :=
  ((keys.findSome? fun key => (object.get key).bind Value.asStr).map Text.trim).filter (· != "")

def extractPayloadText (body : List UInt8) (bodyText : String) : Except GrsaiError String :=
  if body = [] ∨ Text.trim bodyText = "" then .error (parseError "响应体为空" bodyText none)
  else
    let trimmed := Text.trimStart bodyText
    if Text.startsWith "\x7b" trimmed || Text.startsWith "[" trimmed then .ok trimmed
    else
      match (((Text.lines bodyText).filterMap (Text.stripPrefix "data:")).map Text.trim).reverse.find?
          fun line => line != "" && line != "[DONE]" with
      | some line => .ok line
      | none => .error (parseError "未找到可解析的数据段" bodyText none)

def guessBusinessStatus (code : Int) (message : String) : ℕ :=
  if code ∈ [400, 401, 403, 404, 409, 422, 429] then code.toNat
  else
    let lower := Text.toAsciiLowercase message
    if Text.contains "api key" lower || Text.contains "unauthorized" lower || Text.contains "auth" lower ||
      Text.contains "token" lower || Text.contains "invalid key" lower then 401
    else 502

/-- `object.get("msg").or_else(|| object.get("message"))`, where it is a string. -/
def upstreamMessage (object : Map) : Option String := ((object.get "msg").or (object.get "message")).bind Value.asStr

/-- The payload and its business code; the text of its message is not used by the caller. -/
def unwrapPayload (rawJson : Value) (bodyText : String) : Except GrsaiError (Value × Option Int) :=
  match rawJson.asObject with
  | none => .ok (rawJson, none)
  | some object =>
    let message := (upstreamMessage object).getD ""
    match (object.get "code").bind asI64 with
    | some code =>
      if code ≠ 0 then
        .error {
          httpStatus := guessBusinessStatus code message
          message := if Text.trim message = "" then "上游服务返回业务错误" else message
          upstreamCode := some code
          failureReason := ((object.get "data").bind Value.asObject).bind fun data => objectString data ["failure_reason"]
          bodyText := bodyText
          rawJson := some (.object object) }
      else
        match object.get "data" with
        | some data => .ok (data, some code)
        | none => .error (parseError "缺少 data 字段" bodyText (some (.object object)))
    | none => .ok (.object object, none)

section

/- `StatusCode::canonical_reason`. -/
variable (reader : JsonReader) (canonicalReason : ℕ → Option String)

def httpErrorMessage (status : ℕ) (rawJson : Value) : String :=
  (((rawJson.asObject.bind upstreamMessage).map Text.trim).filter (· != "")).getD
    ((canonicalReason status).getD "upstream error")

def buildHttpError (status : ℕ) (bodyText : String) (rawJson : Value) : GrsaiError where
  httpStatus := status
  message := httpErrorMessage canonicalReason status rawJson
  upstreamCode := (rawJson.asObject.bind fun map => map.get "code").bind asI64
  failureReason := ((rawJson.asObject.bind fun map => map.get "data").bind Value.asObject).bind fun data =>
    objectString data ["failure_reason"]
  bodyText := bodyText
  rawJson := some rawJson

/-- The fields of a payload. -/
def readPayload (bodyText : String) (payload : Value) (code : Option Int) : Except GrsaiError GrsaiResult :=
  match payload.asObject with
  | none => .error ⟨502, MSG_PARSE_UPSTREAM_FAILED ++ ": 响应 data 不是对象", code, none, bodyText, some payload⟩
  | some object =>
    match (((object.get "status").bind Value.asStr).map Text.trim).filter (· != "") with
    | none => .error ⟨502, MSG_PARSE_UPSTREAM_FAILED ++ ": 缺少 status 字段", code,
        objectString object ["failure_reason"], bodyText, some payload⟩
    | some statusText => .ok {
        status := statusText
        imageUrls := (((object.get "results").bind Value.asArray).getD []).filterMap fun item =>
          (item.get "url").bind Value.asStr
        failureReason := objectString object ["failure_reason"]
        errorDetail := objectString object ["error_detail", "errorDetail", "detail"]
        startTime := (object.get "start_time").bind asI64
        endTime := (object.get "end_time").bind asI64
        rawData := payload }

/-- What follows once the payload is read as JSON. -/
def readJson (status : ℕ) (bodyText : String) (rawJson : Value) : Except GrsaiError GrsaiResult :=
  if !isSuccess status then .error (buildHttpError canonicalReason status bodyText rawJson)
  else do
    let (payload, code) ← unwrapPayload rawJson bodyText
    readPayload bodyText payload code

def parseGrsaiResponse (status : ℕ) (body : List UInt8) : Except GrsaiError GrsaiResult := do
  let bodyText := Text.fromUtf8Lossy body
  let payloadText ← extractPayloadText body bodyText
  match reader.fromStr payloadText with
  | .error err => .error (parseError err bodyText none)
  | .ok rawJson => readJson canonicalReason status bodyText rawJson

end

/-! ## In the router -/

def MSG_PARSE_UPSTREAM_JSON_FAILED : String := "解析上游服务响应失败，请稍后再试"

def MSG_UPSTREAM_REQUEST_FAILED : String := "请求上游服务失败，请稍后再试"

/-- The kind of an error of `parse_grsai_response`, in `forward_grsai_gemini_request`. -/
def grsaiErrorKind (err : GrsaiError) : String :=
  if Text.contains "解析上游服务响应失败" err.message then "invalid_json"
  else if err.httpStatus = 401 then "upstream_auth_failed"
  else if err.httpStatus = 429 then "upstream_rate_limited"
  else "upstream_request_failed"

def downstreamGrsaiErrorMessage (err : GrsaiError) : String :=
  if err.httpStatus = 401 then "上游服务鉴权失败，请检查密钥后再试"
  else if err.httpStatus = 429 then "上游服务限流，请稍后再试"
  else if Text.contains "解析上游服务响应失败" err.message then MSG_PARSE_UPSTREAM_JSON_FAILED
  else MSG_UPSTREAM_REQUEST_FAILED

/-- The part of a proxy error response that an error of grsai decides. -/
structure GrsaiErrorResponse where
  status : ℕ
  message : String
  kind : String
deriving DecidableEq

def grsaiErrorResponse (err : GrsaiError) : GrsaiErrorResponse :=
  ⟨err.httpStatus, downstreamGrsaiErrorMessage err, grsaiErrorKind err⟩

end GeminiWorker
