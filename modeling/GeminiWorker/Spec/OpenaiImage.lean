import GeminiWorker.Lib.Json
import GeminiWorker.Spec.Url

/-!
# OpenAI image requests

`openai_image.rs`, request side: checking the body of `POST /v1/images/generations`
and merging the three aliases of the reference-image field into one.
-/

namespace GeminiWorker

open Json (Value Map)

def imageFieldAliases : List String := ["reference_images", "images", "image"]

section

variable (parse : UrlParser)

def validateReferenceImageUrl (raw : String) : Except String Unit :=
  match parse raw with
  | none => .error "参考图片必须是完整 URL"
  | some parsed =>
    if !parsed.isHttp then .error "参考图片 URL 必须使用 http 或 https"
    else if Text.trim (parsed.hostStr.getD "") == "" then
      .error "参考图片 URL 缺少主机名，请检查后再试"
    else .ok ()

/-- The inner loop of `collect_reference_images`, over the items of one alias. -/
def collectItems (field : String) : List Value → Except String (List String)
  | [] => .ok []
  | item :: items =>
    match item.asStr with
    | none => .error (field ++ " 中的图片地址必须是字符串")
    | some raw => do
      validateReferenceImageUrl parse raw
      let images ← collectItems field items
      return raw :: images

/-- The outer loop of `collect_reference_images`; each alias leaves the object. -/
def collectAliases : List String → Map → Except String (List String × Map)
  | [], object => .ok ([], object)
  | field :: aliases, object =>
    match object.get field with
    | none => collectAliases aliases object
    | some value =>
      match value.asArray with
      | none => .error (field ++ " 必须是数组，请检查后再试")
      | some items => do
        let images ← collectItems parse field items
        let (more, object) ← collectAliases aliases (object.remove field)
        return (images ++ more, object)

/-- The merged images under the last present alias, and the object without aliases. -/
def collectReferenceImages (object : Map) :
    Except String (Option (String × List String) × Map) := do
  let targetAlias := imageFieldAliases.reverse.find? object.containsKey
  let (images, object) ← collectAliases parse imageFieldAliases object
  return (targetAlias.map (·, images), object)

def normalizeRequestBody (body : Value) (forceB64Json : Bool) : Except String Value :=
  match body.asObject with
  | none => .error "请求内容必须是 JSON 对象，请检查后再试"
  | some object =>
    let responseFormat := ((object.get "response_format").bind Value.asStr).getD "url"
    if !Text.eqIgnoreAsciiCase responseFormat "url" then
      .error "response_format 只支持 url，请调整后再试"
    else do
      let (imageField, object) ← collectReferenceImages parse object
      let object := match imageField with
        | some (fieldName, images) => object.insert fieldName (.array (images.map .string))
        | none => object
      let format := if forceB64Json then "b64_json" else "url"
      return .object (object.insert "response_format" (.string format))

/-- The seedream rewrite of the model name for `api.tianyue.xyz`. -/
def rewriteTianyueModel (object : Map) : Map :=
  match (object.get "size").bind Value.asStr with
  | some size =>
    if (object.get "model").bind Value.asStr == some "seedream-5-pro" &&
        (Text.eqIgnoreAsciiCase size "1K" || Text.eqIgnoreAsciiCase size "2K") then
      object.insert "model" (.string ("GZ-seedream-5-pro-" ++ Text.toAsciiUppercase size))
    else object
  | none => object

/-- One round of the renaming loop for `api.tianyue.xyz`. -/
def renameToImages (object : Map) (field : String) : Map :=
  match object.get field with
  | some images => (object.remove field).insert "images" images
  | none => object

def normalizeRequestBodyForUpstream (body : Value) (forceB64Json : Bool) (baseUrl : String) :
    Except String Value := do
  let body ← normalizeRequestBody parse body forceB64Json
  if ((parse baseUrl).bind ParsedUrl.hostStr) == some "api.tianyue.xyz" then
    match body with
    | .object object =>
      return .object (["image", "reference_images"].foldl renameToImages (rewriteTianyueModel object))
    | body => return body
  else return body

end

end GeminiWorker
