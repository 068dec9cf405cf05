import GeminiWorker.Lib.Base64Decode
import GeminiWorker.Lib.Counters
import GeminiWorker.Lib.JsonLayout
import GeminiWorker.Lib.TextSearch
import GeminiWorker.Spec.AdminLogs
import GeminiWorker.Spec.AdminRedaction
import GeminiWorker.Spec.BlockReplay
import Mathlib.Data.Int.Basic

/-!
# The admin state

`AdminState` of `admin.rs` and `finalize_admin_response` of `router.rs`: how a request is counted and
logged, what its entry says of the answer, and who may read it.
-/

namespace GeminiWorker

open Json (Value Map Layout)

/-- The additions of `AtomicI64`, which wrap. -/
instance addCommMonoidInt64 : AddCommMonoid Int64 where
  add_assoc := Int64.add_assoc
  zero_add := Int64.zero_add
  add_zero := Int64.add_zero
  add_comm := Int64.add_comm
  nsmul := nsmulRec

/-! ## Entries -/

/-- `AdminLogEntry` without its id: what the answer or the statistics have to do with. -/
structure AdminLogRecord where
  statusCode : StatusCode
  durationMs : Int64
  requestParseMs : Int64
  requestImagePrepareMs : Int64
  requestImageMaterializeMs : Int64
  requestImageFetchWorkMs : Int64
  requestImageStoreWorkMs : Int64
  requestEncodeMs : Int64
  upstreamBuildMs : Int64
  responseProcessMs : Int64
  uploadMs : Int64
  finishReason : String
  requestRaw : String
  requestRawImages : List String
  requestRawImageCacheHits : List String
  requestUpstream : String
  requestUpstreamImages : List String
  responseDownstream : String
  responseImages : List String
  errorSource : String
  errorStage : String
  errorKind : String
  errorMessage : String
  errorDetail : String
  upstreamStatusCode : StatusCode
  upstreamErrorBody : String

/-- `AdminLogEntry::default()`. -/
def AdminLogRecord.default : AdminLogRecord :=
  ⟨0, 0, 0, 0, 0, 0, 0, 0, 0, 0, 0, "", "", [], [], "", [], "", [], "", "", "", "", "", 0, ""⟩

/-! ## Statistics -/

inductive AdminCounter where
  | totalRequests
  | errorRequests
  | totalDurationMs
  | requestParseMs
  | requestImagePrepareMs
  | requestImageMaterializeMs
  | requestImageFetchWorkMs
  | requestImageStoreWorkMs
  | requestEncodeMs
  | upstreamBuildMs
  | responseProcessMs
  | uploadMs
  | cacheHits
deriving DecidableEq

abbrev AdminStats := AdminCounter → Int64

/-- The additions of `apply_admin_stats`, in the order in which they are made. -/
def applyAdminStats (entry : AdminLogRecord) : List (AdminCounter × Int64) :=
  (.totalRequests, 1) :: ((if 400 ≤ entry.statusCode then [(.errorRequests, 1)] else []) ++
    [(.totalDurationMs, entry.durationMs),
     (.requestParseMs, entry.requestParseMs),
     (.requestImagePrepareMs, entry.requestImagePrepareMs),
     (.requestImageMaterializeMs, entry.requestImageMaterializeMs),
     (.requestImageFetchWorkMs, entry.requestImageFetchWorkMs),
     (.requestImageStoreWorkMs, entry.requestImageStoreWorkMs),
     (.requestEncodeMs, entry.requestEncodeMs),
     (.upstreamBuildMs, entry.upstreamBuildMs),
     (.responseProcessMs, entry.responseProcessMs),
     (.uploadMs, entry.uploadMs)])

/-- The end of a call of `finalize_admin_response`: it makes its additions one after the other, and then calls
`record`, which draws an id. -/
inductive FinalizeCall where
  | counting (entry : AdminLogRecord) (left : List (AdminCounter × Int64))
  | recording (entry : AdminLogRecord)

def FinalizeCall.entry : FinalizeCall → AdminLogRecord
  | .counting entry _ => entry
  | .recording entry => entry

def FinalizeCall.left : FinalizeCall → List (AdminCounter × Int64)
  | .counting _ left => left
  | .recording _ => []

/-- The entry of a call that has made all its additions. -/
def FinalizeCall.counted (call : FinalizeCall) : Option AdminLogRecord :=
  if call.left = [] then some call.entry else none

/-- The statistics and the log, and the calls that write them. -/
structure AdminCalls where
  stats : AdminStats
  logs : AdminLogs AdminLogRecord
  calls : List FinalizeCall

inductive AdminEvent where
  /-- A call has its entry and starts to count. -/
  | finalizes (entry : AdminLogRecord)
  | adds (call : ℕ)
  | records (call : ℕ)
  /-- A call of `record` is let into the critical section. -/
  | enters (recordCall : ℕ)
  | drops (recordCall : ℕ)
  /-- The cache observer of a request is told of a hit. -/
  | hitsCache

namespace AdminCalls

def init : AdminCalls := ⟨fun _ => 0, .init, []⟩

def step (state : AdminCalls) : AdminEvent → Option AdminCalls
  | .finalizes entry => some { state with calls := state.calls ++ [.counting entry (applyAdminStats entry)] }
  | .adds call =>
    match state.calls[call]? with
    | some (.counting entry (add :: left)) =>
      some { state with
        stats := Counters.fetchAdd state.stats add.1 add.2
        calls := state.calls.set call (.counting entry left) }
    | _ => none
  | .records call =>
    match state.calls[call]? with
    | some (.counting entry []) =>
      (state.logs.step (.draws ⟨0, entry⟩)).map fun logs =>
        { state with logs, calls := state.calls.set call (.recording entry) }
    | _ => none
  | .enters recordCall => (state.logs.step (.enters recordCall)).map fun logs => { state with logs }
  | .drops recordCall => (state.logs.step (.drops recordCall)).map fun logs => { state with logs }
  | .hitsCache => some { state with stats := Counters.fetchAdd state.stats .cacheHits 1 }

/-- The entries of the calls that have made all their additions. -/
def counted (state : AdminCalls) : List AdminLogRecord :=
  state.calls.filterMap FinalizeCall.counted

end AdminCalls

/-! ## What is logged of a body -/

structure SanitizedAdminLog where
  pretty : String
  imageUrls : List String
deriving DecidableEq

def ADMIN_MAX_BODY_BYTES_PER_ENTRY : ℕ := 64 * 1024

/-- The loop over `char_indices`: the last index of a character that is not above the limit. -/
def lastBoundary (maxBytes : ℕ) : ℕ → ℕ → List Char → ℕ
  | _, boundary, [] => boundary
  | index, boundary, c :: cs =>
    if maxBytes < index then boundary else lastBoundary maxBytes (index + c.utf8Size) index cs

/-- `&input[..boundary]`, where the boundary is one of the characters. -/
def slicedTo (boundary : ℕ) : List Char → List Char
  | [] => []
  | c :: cs => if c.utf8Size ≤ boundary then c :: slicedTo (boundary - c.utf8Size) cs else []

def truncatedSuffix : String := "\n...[truncated]"

def truncateForAdminLog (input : String) (maxBytes : ℕ) : String :=
  if input.utf8ByteSize ≤ maxBytes then input
  else String.ofList (slicedTo (lastBoundary maxBytes 0 0 input.toList) input.toList) ++ truncatedSuffix

/-- `serde_json::to_string_pretty`. -/
def toStringPretty (value : Value) : String := String.ofList (Layout.pretty.text 0 value)

section

/- `serde_json::from_slice`. -/
variable (fromSlice : List UInt8 → Option Value)

def sanitizeJsonForLog (raw : List UInt8) : SanitizedAdminLog :=
  if raw = [] then ⟨"", []⟩
  else match fromSlice raw with
    | none => ⟨truncateForAdminLog (Text.fromUtf8Lossy raw) ADMIN_MAX_BODY_BYTES_PER_ENTRY, []⟩
    | some root =>
      let redacted := AdminRedaction.redactInlineDataAndCollectImageUrls root
      ⟨truncateForAdminLog (toStringPretty redacted.1) ADMIN_MAX_BODY_BYTES_PER_ENTRY, redacted.2⟩

def maybeSanitizeJsonForLog (raw : List UInt8) (enabled : Bool) : Option SanitizedAdminLog :=
  if enabled then some (sanitizeJsonForLog fromSlice raw) else none

/-- `RequestLogSnapshot`. -/
structure RequestLogSnapshot where
  requestRaw : Option SanitizedAdminLog

def RequestLogSnapshot.applyToEntry (log : RequestLogSnapshot) (entry : AdminLogRecord) : AdminLogRecord :=
  match log.requestRaw with
  | some value => { entry with requestRaw := value.pretty, requestRawImages := value.imageUrls }
  | none => entry

def RequestLogSnapshot.baseEntry (log : RequestLogSnapshot) : AdminLogRecord := log.applyToEntry .default

/-! ## The entry of an answer -/

def blockCacheHitEntry (requestLog : RequestLogSnapshot) (hit : BlockCacheHit) : AdminLogRecord :=
  { requestLog.baseEntry with
    statusCode := hit.status
    upstreamStatusCode := hit.upstreamStatus
    errorSource := "proxy"
    errorStage := "upstream_block_cache"
    errorKind := "cache_hit"
    errorMessage := "upstream block cache hit"
    errorDetail := "upstream_block_cache_hit:" ++ hit.reason }

def preservesAdminErrorFields (entry : AdminLogRecord) : Bool :=
  entry.errorSource == "proxy" && entry.errorStage == "upstream_block_cache" && entry.errorKind == "cache_hit"

/-- `error.get(key).and_then(Value::as_str).unwrap_or_default()`. -/
def textOrDefault (error : Map) (key : String) : String := ((Map.get error key).bind Value.asStr).getD ""

def applyAdminErrorFields (entry : AdminLogRecord) (status : StatusCode) (responseJson : Value)
    (sanitizedResponse : String) : AdminLogRecord :=
  match (responseJson.get "error").bind Value.asObject with
  | none => entry
  | some error =>
    let entry := { entry with
      errorSource := textOrDefault error "source"
      errorStage := textOrDefault error "stage"
      errorKind := textOrDefault error "kind"
      errorMessage := textOrDefault error "message" }
    if entry.errorSource == "upstream" then
      { entry with upstreamStatusCode := status, upstreamErrorBody := sanitizedResponse }
    else entry

def extractFinishReason (body : Value) : Option String := do
  let candidates ← (body.get "candidates").bind Value.asArray
  let candidate ← candidates.head?
  let finishReason ← candidate.get "finishReason"
  finishReason.asStr

/-- The part of `finalize_admin_response` that reads the status of the upstream. -/
def AdminLogRecord.readUpstreamStatus (entry : AdminLogRecord) (response : Response) : AdminLogRecord :=
  match response.originalUpstreamStatus with
  | some status => { entry with upstreamStatusCode := status }
  | none => entry

/-- The part that reads a body, which is not empty. -/
def AdminLogRecord.readBody (entry : AdminLogRecord) (response : Response) : AdminLogRecord :=
  let sanitized := sanitizeJsonForLog fromSlice response.body
  let entry := { entry with responseImages := sanitized.imageUrls, responseDownstream := sanitized.pretty }
  match fromSlice response.body with
  | none => entry
  | some value =>
    let entry := { entry with finishReason := (extractFinishReason value).getD "" }
    if preservesAdminErrorFields entry then entry
    else
      let upstreamStatus := response.originalUpstreamStatus.getD response.status
      applyAdminErrorFields entry upstreamStatus value sanitized.pretty

/-- What `finalize_admin_response` writes into the entry of an answer, which is sent as it is. -/
def finalizeEntry (response : Response) (entry : AdminLogRecord) : AdminLogRecord :=
  let entry := entry.readUpstreamStatus response
  let entry := if response.body = [] then entry else entry.readBody fromSlice response
  { entry with statusCode := response.status }

end

/-! ## Who may read -/

/-- `HeaderValue::to_str`: visible ASCII and the tab. -/
def headerToStr (value : HeaderValue) : Option String :=
  if value.all fun b => 32 ≤ b && b < 127 || b = 9 then some (String.ofList (value.map fun b => Char.ofNat b.toNat))
  else none

/-- `String::from_utf8`. -/
def stringFromUtf8 (bytes : List UInt8) : Option String :=
  bytes.toByteArray.utf8Decode?.map fun cs => String.ofList cs.toList

/-- The password of an `AdminState`. -/
structure AdminPassword where
  password : String

def AdminPassword.enabled (admin : AdminPassword) : Bool := Text.trim admin.password != ""

/-- `check_basic_auth`, with the first `authorization` header. -/
def AdminPassword.checkBasicAuth (admin : AdminPassword) (authorization : Option HeaderValue) : Bool :=
  if !admin.enabled then false
  else match do
    let raw ← authorization
    let raw ← headerToStr raw
    let encoded ← Text.stripPrefix "Basic " raw
    let decoded ← Base64.decode (Text.bytes (Text.trim encoded))
    let decoded ← stringFromUtf8 decoded
    Text.splitOnce ':' decoded with
  | some (_, password) => password == admin.password
  | none => false

end GeminiWorker
