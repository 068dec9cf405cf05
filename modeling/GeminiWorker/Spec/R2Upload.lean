import GeminiWorker.Lib.Except
import GeminiWorker.Lib.Hex
import GeminiWorker.Spec.HttpUrl
import GeminiWorker.Spec.UploadBase64

/-!
# Uploads to R2

`upload.rs` and the part of `config.rs` it depends on: the object that an image is uploaded to, the
canonical request that is signed, and the `PUT` request that is sent.
-/

namespace GeminiWorker

/-- The settings of the image host. -/
structure R2Config where
  imageHostMode : String
  r2Endpoint : String
  r2Bucket : String
  r2AccessKeyId : String
  r2SecretAccessKey : String
  r2PublicBaseUrl : String
  r2ObjectPrefix : String
deriving DecidableEq

structure UploadResult where
  url : String
  provider : String

/-- What `OffsetDateTime::now_utc()` is read as. -/
structure UtcTime where
  year : ℕ
  month : ℕ
  day : ℕ
  hour : ℕ
  minute : ℕ
  second : ℕ
  unixTimestampNanos : ℕ

/-- A number written with at least `width` digits. -/
def padded (width n : ℕ) : String := String.ofList ((toString n).toList.leftpad width '0')

section

/- `Url::parse`, with its error as text, and `Url::to_string`. -/
variable (parse : String → Except String Url) (toText : Url → String)

/-- `parse_http_base_url`; the text of the URL that it returns is not used by `validate`. -/
def parseHttpBaseUrl (raw envName : String) : Except String Url := do
  let trimmed := Text.trim raw
  if trimmed = "" then throw (envName ++ " is empty")
  let parsed ← match parse trimmed with
    | .ok parsed => pure parsed
    | .error err => throw ("parse " ++ envName ++ ": " ++ err)
  if !parsed.isHttp then throw (envName ++ " must use http or https")
  if Text.trim (parsed.hostStr.getD "") = "" then throw (envName ++ " host is empty")
  return parsed

/-- The settings that must not be blank, in the order they are checked. -/
def R2Config.required (config : R2Config) : List (String × String) :=
  [("R2_ENDPOINT", config.r2Endpoint), ("R2_BUCKET", config.r2Bucket),
    ("R2_ACCESS_KEY_ID", config.r2AccessKeyId), ("R2_SECRET_ACCESS_KEY", config.r2SecretAccessKey),
    ("R2_PUBLIC_BASE_URL", config.r2PublicBaseUrl)]

def validate (config : R2Config) : Except String Unit := do
  if ¬ config.imageHostMode ∈ ["", "legacy", "r2", "r2_then_legacy"] then
    throw ("IMAGE_HOST_MODE must be one of legacy, r2, r2_then_legacy, got " ++ config.imageHostMode)
  if config.imageHostMode ∈ ["r2", "r2_then_legacy"] then
    match config.required.find? fun (_, value) => Text.trim value == "" with
    | some (name, _) => throw (name ++ " is required when IMAGE_HOST_MODE is r2 or r2_then_legacy")
    | none => pure ()
    match parseHttpBaseUrl parse config.r2Endpoint "R2_ENDPOINT" with
    | .ok _ => pure ()
    | .error err => throw ("R2_ENDPOINT is invalid: " ++ err)
    discard (parseHttpBaseUrl parse config.r2PublicBaseUrl "R2_PUBLIC_BASE_URL")

/-- `Config::from_env_map`, as far as these settings go. -/
def R2Config.fromEnvMap (envMap : String → Option String) : Except String R2Config := do
  let trimmed (name : String) : String := ((envMap name).map Text.trim).getD ""
  let config : R2Config :=
    { imageHostMode := Text.toAsciiLowercase
        ((((envMap "IMAGE_HOST_MODE").map Text.trim).filter (· != "")).getD "legacy")
      r2Endpoint := trimmed "R2_ENDPOINT"
      r2Bucket := trimmed "R2_BUCKET"
      r2AccessKeyId := trimmed "R2_ACCESS_KEY_ID"
      r2SecretAccessKey := trimmed "R2_SECRET_ACCESS_KEY"
      r2PublicBaseUrl := trimmed "R2_PUBLIC_BASE_URL"
      r2ObjectPrefix := (((envMap "R2_OBJECT_PREFIX").map fun value =>
        Text.trimMatches '/' (Text.trim value)).filter (· != "")).getD "images" }
  validate parse config
  return config

/-- `extension_from_mime`. -/
def extensionFromMime (mimeType : String) : String :=
  if mimeType = "image/jpeg" then ".jpg"
  else if mimeType = "image/webp" then ".webp"
  else if mimeType = "image/gif" then ".gif"
  else ".png"

def buildR2ObjectKey (objectPrefix mimeType : String) (now : UtcTime) (randomHex : String) : String :=
  let objectPrefix := Text.trimMatches '/' (Text.trim objectPrefix)
  let objectPrefix := if objectPrefix = "" then "images" else objectPrefix
  objectPrefix ++ "/" ++ padded 4 now.year ++ "/" ++ padded 2 now.month ++ "/" ++ padded 2 now.day ++ "/" ++
    toString (now.unixTimestampNanos / 1000000) ++ "-" ++ randomHex ++ "." ++
    Text.trimStartMatches '.' (extensionFromMime mimeType)

/-- The URL of an object, below the path of the endpoint. -/
def objectUrlOf (endpoint : Url) (bucket key : String) : Url :=
  let plainPath := "/" ++ bucket ++ "/" ++ key
  endpoint.setPath (endpoint.path.rdropWhile (· == 47) ++ Text.bytes plainPath)

/-- `build_r2_object_url`: the text of the object's URL, and the canonical URI. -/
def buildR2ObjectUrl (endpoint : Url) (bucket key : String) : String × List UInt8 :=
  let bucket := Text.trim bucket
  let key := Text.trimStartMatches '/' (Text.trim key)
  let canonicalUri := [47] ++ FormUrlencoded.serialize (Text.bytes bucket) ++ [47] ++
    [47].intercalate ((Text.split '/' key).map fun part => FormUrlencoded.serialize (Text.bytes part))
  (toText (objectUrlOf endpoint bucket key), canonicalUri)

end

/-- The parts of the canonical request. The headers end with a line of their own. -/
structure CanonicalRequest where
  uri : List UInt8
  query : List UInt8
  contentType : String
  host : String
  payloadHash : String
  amzDate : String

namespace CanonicalRequest

def signedHeaders : String := "content-type;host;x-amz-content-sha256;x-amz-date"

def canonicalHeaders (request : CanonicalRequest) : String :=
  "content-type:" ++ request.contentType ++ "\nhost:" ++ request.host ++ "\nx-amz-content-sha256:" ++
    request.payloadHash ++ "\nx-amz-date:" ++ request.amzDate ++ "\n"

def text (request : CanonicalRequest) : List UInt8 :=
  Text.bytes "PUT\n" ++ request.uri ++ Text.bytes "\n" ++ request.query ++ Text.bytes "\n" ++
    Text.bytes request.canonicalHeaders ++ Text.bytes "\n" ++ Text.bytes signedHeaders ++ Text.bytes "\n" ++
    Text.bytes request.payloadHash

end CanonicalRequest

section

/- The hash and the keyed hash of the signature. -/
variable (sha256 : List UInt8 → List UInt8) (hmacSha256 : List UInt8 → String → List UInt8)

def sha256Hex (data : List UInt8) : String := Hex.encode (sha256 data)

def deriveAwsV4SigningKey (secretAccessKey dateStamp region service : String) : List UInt8 :=
  let kDate := hmacSha256 (Text.bytes ("AWS4" ++ secretAccessKey)) dateStamp
  let kRegion := hmacSha256 kDate region
  let kService := hmacSha256 kRegion service
  hmacSha256 kService "aws4_request"

/-- The `Authorization` header, a signature of the canonical request. -/
def authorization (config : R2Config) (dateStamp : String) (request : CanonicalRequest) : String :=
  let credentialScope := dateStamp ++ "/auto/s3/aws4_request"
  let stringToSign := "AWS4-HMAC-SHA256\n" ++ request.amzDate ++ "\n" ++ credentialScope ++ "\n" ++
    sha256Hex sha256 request.text
  let signingKey := deriveAwsV4SigningKey hmacSha256 config.r2SecretAccessKey dateStamp "auto" "s3"
  let signature := Hex.encode (hmacSha256 signingKey stringToSign)
  "AWS4-HMAC-SHA256 Credential=" ++ config.r2AccessKeyId ++ "/" ++ credentialScope ++ ", SignedHeaders=" ++
    CanonicalRequest.signedHeaders ++ ", Signature=" ++ signature

end

/-- The `PUT` request of an upload, and the canonical request that its authorization signs. -/
structure PutRequest (β : Type) where
  objectUrl : String
  contentType : String
  contentLength : ℕ
  payloadHash : String
  amzDate : String
  authorization : String
  body : β
  signed : CanonicalRequest

inductive UploadError where
  | endpoint (err : String)
  /-- The body cannot be read or decoded. -/
  | body
  | send (err : String)
  | status (message : String)

/-- What the client reports of a response. -/
structure PutResponse where
  isSuccess : Bool
  status : String
  body : String

/-- What the uploads depend on outside: URLs, hashes, the clock when the key is built and when the
request is signed, and the random part of the key. -/
structure UploadEnv where
  parse : String → Except String Url
  toText : Url → String
  sha256 : List UInt8 → List UInt8
  hmacSha256 : List UInt8 → String → List UInt8
  keyTime : UtcTime
  signTime : UtcTime
  random : List UInt8

namespace UploadEnv

variable (env : UploadEnv) (config : R2Config) (mimeType : String)

def objectKey : String :=
  buildR2ObjectKey config.r2ObjectPrefix mimeType env.keyTime (Hex.encode env.random)

/-- What the three uploads have in common before they send: the request for a body of which the
hash and the length are known, unless it cannot be read. -/
def putRequest {β : Type} (payload : Option (String × ℕ × β)) : Except UploadError (PutRequest β) := do
  let endpoint ← (env.parse config.r2Endpoint).mapError UploadError.endpoint
  let (objectUrl, canonicalUri) :=
    buildR2ObjectUrl env.toText endpoint config.r2Bucket (env.objectKey config mimeType)
  let dateStamp := padded 4 env.signTime.year ++ padded 2 env.signTime.month ++ padded 2 env.signTime.day
  let amzDate := dateStamp ++ "T" ++ padded 2 env.signTime.hour ++ padded 2 env.signTime.minute ++
    padded 2 env.signTime.second ++ "Z"
  match payload with
  | none => .error .body
  | some (payloadHash, contentLength, body) =>
    let signed : CanonicalRequest := ⟨canonicalUri, [], mimeType, endpoint.hostStr.getD "", payloadHash, amzDate⟩
    return ⟨objectUrl, mimeType, contentLength, payloadHash, amzDate,
      GeminiWorker.authorization env.sha256 env.hmacSha256 config dateStamp signed, body, signed⟩

/-- What the three uploads have in common after the response. -/
def putResult (response : Except String PutResponse) : Except UploadError UploadResult := do
  let response ← response.mapError UploadError.send
  if !response.isSuccess then
    throw (.status ("r2 put object failed: status " ++ response.status ++ ": " ++ Text.trim response.body))
  return ⟨Text.trimEndMatches '/' config.r2PublicBaseUrl ++ "/" ++ env.objectKey config mimeType, "r2"⟩

/-- The request of `upload_r2`; the client adds the length. -/
def uploadR2Request (data : List UInt8) : Except UploadError (PutRequest (List UInt8)) :=
  env.putRequest config mimeType (some (sha256Hex env.sha256 data, data.length, data))

/-- The request of `upload_r2_blob`, of a blob of `sizeBytes` of which the contents can be read, or not. -/
def uploadR2BlobRequest (sizeBytes : ℕ) (contents : Option (List UInt8)) :
    Except UploadError (PutRequest (List UInt8)) :=
  env.putRequest config mimeType (contents.map fun contents => (sha256Hex env.sha256 contents, sizeBytes, contents))

/-- The request of `upload_r2_base64`. -/
def uploadR2Base64Request (dataBase64 : String) : Except UploadError (PutRequest Base64DecodedReader) :=
  env.putRequest config mimeType do
    let payloadHash ← sha256HexBase64 env.sha256 dataBase64
    let contentLength ← decodedBase64Len dataBase64
    return (payloadHash, contentLength, .new dataBase64)

end UploadEnv

end GeminiWorker
