import GeminiWorker.Lib.TextSearch
import GeminiWorker.Spec.ImageFetch
import GeminiWorker.Spec.OutputMode
import GeminiWorker.Spec.RequestScan
import GeminiWorker.Spec.ResponseMaterialize

/-!
# Images linked from the text of a response

`response_rewrite.rs`: a response without `inlineData` whose text links an image gets
that image as its only part. What a fetch of the image returns is a parameter.
-/

namespace GeminiWorker

open Json (Value Map)

mutual
def containsInlineData (node : Value) : Bool :=
  match node with
  | .object map => Map.containsKey map "inlineData" || anyMemberContainsInlineData map
  | .array items => anyItemContainsInlineData items
  | _ => false
def anyMemberContainsInlineData : List (String × Value) → Bool
  | [] => false
  | (_, child) :: map => containsInlineData child || anyMemberContainsInlineData map
def anyItemContainsInlineData : List Value → Bool
  | [] => false
  | child :: items => containsInlineData child || anyItemContainsInlineData items
end

def extractMarkdownImageUrl (text : String) : Option String := do
  let (_, rest) ← Text.splitAtFirst [']', '('] text.toList
  let (candidate, _) ← Text.splitAtFirst [')'] rest
  let candidate := Text.trim (String.ofList candidate)
  if isHttpUrl candidate then some candidate else none

def extractFirstMarkdownImageUrlFromParts : List Value → Option String
  | [] => none
  | part :: parts =>
    match (part.get "text").bind Value.asStr with
    | none => extractFirstMarkdownImageUrlFromParts parts
    | some text =>
      let text := Text.trim text
      if text = "" then extractFirstMarkdownImageUrlFromParts parts
      else
        match extractMarkdownImageUrl text with
        | some url => some url
        | none => extractFirstMarkdownImageUrlFromParts parts

structure SpecialUpstreamConfig extends OutputUrlConfig where
  proxySpecialUpstreamUrls : Bool

/-- The value that stands for an image URL. -/
def specialImageInlineData (fetch : String → Published) (config : SpecialUpstreamConfig)
    (outputMode : OutputMode) (imageUrl : String) : Except String Value :=
  match outputMode with
  | .url =>
    let externalProxyPrefix := config.resolvedExternalImageProxyPrefix
    let data :=
      if config.proxySpecialUpstreamUrls && externalProxyPrefix != "" then
        wrapExternalProxyUrl externalProxyPrefix imageUrl
      else imageUrl
    .ok (.object [("mimeType", .string (guessImageMimeTypeFromUrl imageUrl)), ("data", .string data)])
  | .base64 => (fetch imageUrl).map fun fetched =>
    .object [("mimeType", .string fetched.mimeType), ("data", .string (Base64.encodeText fetched.bytes))]

def normalizeSpecialMarkdownImageResponse (fetch : String → Published) (config : SpecialUpstreamConfig)
    (outputMode : OutputMode) (body : Value) : Except String Value :=
  if containsInlineData body then .ok body
  else
    match (body.pointer "/candidates/0/content/parts").bind Value.asArray with
    | none => .ok body
    | some parts =>
      match extractFirstMarkdownImageUrlFromParts parts with
      | none => .ok body
      | some imageUrl => do
        let inlineData ← specialImageInlineData fetch config outputMode imageUrl
        return body.modifyPointer "/candidates/0/content/parts" fun _ =>
          .array [.object [("inlineData", inlineData)]]

end GeminiWorker
