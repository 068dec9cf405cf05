import GeminiWorker.Lib.Json
import GeminiWorker.Spec.HttpUrl

/-!
# The output directive

`http/router.rs`: where a request asks for URLs instead of base64 data, and the URL that it is forwarded
to, of which the directive is taken out of the query.
-/

namespace GeminiWorker

open Json (Value)

inductive OutputMode where
  | base64
  | url
deriving DecidableEq

/-- `value.trim().eq_ignore_ascii_case("url")`. -/
def asksForUrl (value : String) : Bool := Text.eqIgnoreAsciiCase (Text.trim value) "url"

def queryContainsOutputUrl (query : Option (List UInt8)) : Bool :=
  ((query.map FormUrlencoded.parse).getD []).any fun (key, value) => key == "output" && asksForUrl value

def getOutputMode (query : Option (List UInt8)) (body : Value) : OutputMode :=
  if queryContainsOutputUrl query then .url
  else if ((body.get "output").bind Value.asStr).any asksForUrl then .url
  else if ((body.pointer "/generationConfig/imageConfig/output").bind Value.asStr).any asksForUrl then .url
  else if ((body.pointer "/generation_config/image_config/output").bind Value.asStr).any asksForUrl then .url
  else .base64

/-- One round of the loop of `filter_query_without_output`: the serializer, and `has_any`. -/
def keepPair (state : List UInt8 × Bool) (pair : String × String) : List UInt8 × Bool :=
  if pair.1 = "output" then state else (FormUrlencoded.appendPair state.1 pair, true)

def filterQueryWithoutOutput (query : Option (List UInt8)) : Option (List UInt8) :=
  query.bind fun query =>
    let (serializer, hasAny) := (FormUrlencoded.parse query).foldl keepPair ([], false)
    if hasAny then some serializer else none

section

variable (parse : String → Except String Url) (toText : Url → String)

/-- The URL that `build_upstream_url` makes. -/
def upstreamUrlOf (baseUrl : String) (path : List UInt8) (query : Option (List UInt8)) : Except String Url := do
  let parsed ← parse baseUrl
  return (parsed.setPath path).setQuery (filterQueryWithoutOutput query)

def buildUpstreamUrl (baseUrl : String) (path : List UInt8) (query : Option (List UInt8)) : Except String String :=
  (upstreamUrlOf parse baseUrl path query).map toText

end

end GeminiWorker
