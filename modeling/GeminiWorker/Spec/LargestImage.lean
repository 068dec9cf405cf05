import GeminiWorker.Lib.FirstMax
import GeminiWorker.Spec.ResponseMaterialize

/-!
# The largest image of a candidate

`keep_largest_inline_image` of `response_rewrite.rs`: of the images that a candidate has as base64, the
largest one stays.
-/

namespace GeminiWorker

open Json (Value Map)

def inlineDataPayload (part : Value) : Option String :=
  (((part.get "inlineData").bind Value.asObject).bind fun inlineData => inlineData.get "data").bind Value.asStr

def isBase64InlineImagePart (part : Value) : Bool := (inlineDataPayload part).any fun data => !isUrlLike data

/-- `data.len()`, where the loop looks at it. -/
def base64InlineSize (part : Value) : Option ℕ :=
  (inlineDataPayload part).bind fun data => if isUrlLike data then none else some (Text.bytes data).length

/-- What is done with the parts of a candidate. -/
def keepLargestPart (parts : List Value) : List Value :=
  FirstMax.select base64InlineSize isBase64InlineImagePart parts

/-- Goes on where there is an array. -/
def onArray (f : List Value → List Value) : Value → Value
  | .array items => .array (f items)
  | value => value

def keepLargestInCandidate (candidate : Value) : Value :=
  candidate.modifyChild "content" fun content => content.modifyChild "parts" (onArray keepLargestPart)

def keepLargestInlineImage (body : Value) : Value :=
  body.modifyChild "candidates" (onArray fun candidates => candidates.map keepLargestInCandidate)

end GeminiWorker
