import GeminiWorker.Lib.FormUrlencoded
import GeminiWorker.Spec.RequestEncode
import GeminiWorker.Spec.RequestScan

/-!
# The body for aiapidev

`request_rewrite.rs`: the output directive is taken out, inline data become file data or get the names of
the upstream, and keys are written in snake case.
-/

namespace GeminiWorker

open Json (Value Map)

/-- What `maybe_wrap_aiapidev_file_uri` reads of a parsed URL: its host, and its text without query and
fragment. -/
structure FileUrl where
  hostStr : Option String
  stripped : String

/-- `hostname_matches_domain_patterns`. -/
def hostnameMatchesDomainPatterns (hostname : String) (patterns : List String) : Bool :=
  let hostname := Text.toAsciiLowercase (Text.trim hostname)
  if hostname = "" then false
  else patterns.any fun pattern =>
    let pattern := Text.toAsciiLowercase (Text.trim pattern)
    if pattern = "" then false
    else match Text.stripPrefix "." pattern with
      | some suffix => hostname == suffix || Text.endsWith pattern hostname
      | none => hostname == pattern

def rewriteAiapidevKey (key : String) : String :=
  if key = "generationConfig" then "generation_config"
  else if key = "imageConfig" then "image_config"
  else if key = "responseModalities" then "response_modalities"
  else if key = "aspectRatio" then "aspect_ratio"
  else if key = "imageSize" then "image_size"
  else key

def stripOutputFields (body : Value) : Value :=
  ["/generationConfig/imageConfig", "/generation_config/image_config"].foldl
    (fun body pointer => body.modifyPointer pointer (Value.removeKey "output")) (body.removeKey "output")

section

/- `Url::parse`, the prefix of the external proxy and the domains that go through it. -/
variable (parse : String → Option FileUrl) (externalProxyPrefix : String) (externalProxyDomains : List String)

def maybeWrapAiapidevFileUri (rawUrl : String) : String :=
  if externalProxyPrefix = "" || externalProxyDomains.isEmpty || Text.startsWith externalProxyPrefix rawUrl then rawUrl
  else match parse rawUrl with
    | none => rawUrl
    | some parsed =>
      if !hostnameMatchesDomainPatterns (parsed.hostStr.getD "") externalProxyDomains then rawUrl
      else externalProxyPrefix ++
        Text.fromUtf8Lossy (FormUrlencoded.serialize (Text.bytes parsed.stripped))

def rewriteInlineDataPayload (map : Map) : Option (String × Value) := do
  let inlineData ← ((map.get "inlineData").or (map.get "inline_data")).bind Value.asObject
  let data ← (inlineData.get "data").bind Value.asStr
  let mimeType := (((inlineData.get "mimeType").or (inlineData.get "mime_type")).bind Value.asStr).getD "image/png"
  if isHttpUrl data then
    some ("file_data", .object
      [("file_uri", .string (maybeWrapAiapidevFileUri parse externalProxyPrefix externalProxyDomains data)),
        ("mime_type", .string mimeType)])
  else some ("inline_data", .object [("data", .string data), ("mime_type", .string mimeType)])

/-- The order in which the rewritten members are inserted: within the contents the role and the parts
come first. No other key is rewritten to one of these. -/
def insertionOrder (path : String) (members : List (String × Value)) : List (String × Value) :=
  if Text.startsWith "/contents/" path then
    members.filter (fun e => e.1 == "role") ++ members.filter (fun e => e.1 == "parts") ++
      members.filter (fun e => !(e.1 == "role" || e.1 == "parts"))
  else members

def insertAll (members : List (String × Value)) : Map :=
  members.foldl (fun out e => out.insert e.1 e.2) []

mutual
/-- `rewrite_aiapidev_value`, and `rewrite_aiapidev_object` on an object. -/
def rewriteAiapidevValue (path : String) (value : Value) : Value :=
  match value with
  | .object map =>
    match rewriteInlineDataPayload parse externalProxyPrefix externalProxyDomains map with
    | some (key, payload) => .object [(key, payload)]
    | none => .object (insertAll (insertionOrder path (rewriteMembers path map)))
  | .array items => .array (rewriteItems path 0 items)
  | primitive => primitive
/-- The members under their rewritten keys. -/
def rewriteMembers (path : String) : List (String × Value) → List (String × Value)
  | [] => []
  | (key, child) :: map =>
    let rewrittenKey := rewriteAiapidevKey key
    let childPath := path ++ "/" ++ escapeJsonPointerToken rewrittenKey
    (rewrittenKey, rewriteAiapidevValue childPath child) :: rewriteMembers path map
def rewriteItems (path : String) (index : ℕ) : List Value → List Value
  | [] => []
  | item :: items =>
    rewriteAiapidevValue (path ++ "/" ++ toString index) item :: rewriteItems path (index + 1) items
end

def rewriteAiapidevRequestBody (body : Value) : Value :=
  rewriteAiapidevValue parse externalProxyPrefix externalProxyDomains "" (stripOutputFields body)

end

end GeminiWorker
