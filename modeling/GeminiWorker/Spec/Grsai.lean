import GeminiWorker.Lib.Json

/-!
# The grsai provider

`grsai.rs`, request side: the parameters read from an OpenAI image body and the
body sent to `/v1/draw/nano-banana`.
-/

namespace GeminiWorker

open Json (Value Map)

def defaultModel : String := "nano-banana-fast"

inductive GrsaiSource where
  | gemini
  | openAi
deriving DecidableEq

structure GrsaiImageParams where
  model : String
  prompt : String
  urls : List String
  aspectRatio : String
  imageSize : String
  output : String

structure GrsaiError where
  httpStatus : ℕ
  message : String
  upstreamCode : Option Int
  failureReason : Option String
  bodyText : String
  rawJson : Option Value

def invalidRequest (message : String) : GrsaiError := ⟨400, message, none, none, "", none⟩

def normalizeModel (rawModel : String) (source : GrsaiSource) : String :=
  let model := Text.trim rawModel
  if model == "" then defaultModel
  else match source with
    | .gemini =>
      if model == "gemini-3-pro-image-preview" then "nano-banana-pro"
      else if model == "gemini-2.5-flash-image" then defaultModel
      else if model == "gemini-3.1-flash-image-preview" then "nano-banana-2"
      else model
    | .openAi => model

/-- The first of several keys that holds a string; its trimmed text unless blank. -/
def pickObjectString (object : Map) (keys : List String) (default : String) : String :=
  (((keys.findSome? fun key => (object.get key).bind Value.asStr).map Text.trim).filter
    (· != "")).getD default

/-- The trimmed texts of an array of non-blank strings. -/
def extractStringArray (value : Value) : Except GrsaiError (List String) :=
  match value.asArray with
  | none => .error (invalidRequest "图片 URL 字段必须是字符串数组")
  | some array => array.mapM fun item =>
    match (item.asStr.map Text.trim).filter (· != "") with
    | some text => .ok text
    | none => .error (invalidRequest "图片 URL 字段必须是字符串数组")

def extractOpenaiParams (body : Value) : Except GrsaiError GrsaiImageParams :=
  match body.asObject with
  | none => .error (invalidRequest "请求内容必须是 JSON 对象")
  | some object => do
    let model := (((object.get "model").bind Value.asStr).or
      ((object.get "model_name").bind Value.asStr)).getD ""
    let prompt := ((object.get "prompt").bind Value.asStr).getD ""
    let urls ← match (object.get "urls").or (object.get "images") with
      | some value => extractStringArray value
      | none => .ok []
    return {
      model := normalizeModel model .openAi
      prompt := prompt
      urls := urls
      aspectRatio := pickObjectString object ["aspect_ratio", "aspectRatio"] "auto"
      imageSize := pickObjectString object ["image_size", "imageSize"] "1K"
      output := pickObjectString object ["output"] "url" }

def buildGrsaiRequestBody (params : GrsaiImageParams) : Value :=
  .object [("model", .string params.model), ("prompt", .string params.prompt),
    ("urls", .array (params.urls.map .string)), ("aspectRatio", .string params.aspectRatio),
    ("imageSize", .string params.imageSize), ("shutProgress", .bool true)]

end GeminiWorker
