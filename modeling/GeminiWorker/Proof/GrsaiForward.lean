import GeminiWorker.Proof.AdminEntry
import GeminiWorker.Proof.DiskMeta
import GeminiWorker.Proof.GrsaiParams
import GeminiWorker.Proof.GrsaiResponse
import GeminiWorker.Spec.AiapidevResponse

/-!
# One request to grsai, two routes

* `finalizeEntry_reported`: a failure is logged the same way whichever error body the client is sent.
* `grsaiRoutes_alike`: a Gemini request to grsai fares as the OpenAI request with its parameters does.
-/

namespace GeminiWorker

open Json (Value Map)

/-! ## Failures -/

/-- What the log says of a failure. -/
structure LogsFailure (failure : ProxyFailure) (logged : AdminLogRecord) : Prop where
  statusCode : logged.statusCode = failure.status
  source : logged.errorSource = "proxy"
  stage : logged.errorStage = failure.stage
  kind : logged.errorKind = failure.kind
  message : logged.errorMessage = failure.message
  detail : logged.errorDetail = failure.detail

/-- A reader of the documents that are printed. -/
def ReadsPrinted (fromSlice : List UInt8 → Except String Value) : Prop :=
  ∀ value : Value, value.WellFormed → fromSlice (Json.print value) = .ok value

/-- The error object of an error body. -/
def errorObject (value : Value) : Option Map := (value.get "error").bind Value.asObject

/-- An error body that says what a failure is. -/
structure TellsFailure (failure : ProxyFailure) (value : Value) (error : Map) : Prop where
  wellFormed : value.WellFormed
  isObject : ∃ members, value = .object members
  object : errorObject value = some error
  source : textOrDefault error "source" = "proxy"
  stage : textOrDefault error "stage" = failure.stage
  kind : textOrDefault error "kind" = failure.kind
  message : textOrDefault error "message" = failure.message

theorem wellFormed_statusNumber (status : StatusCode) : (statusNumber status).WellFormed := by
  have hdigits : (toString status).toList = Nat.toDigits 10 status := Nat.toList_repr
  refine ⟨trivial, ?_⟩
  show Json.isNumber (toString status).toList = true
  rw [hdigits]
  exact DiskMeta.isNumber_toDigits status

theorem tellsFailure_proxyErrorJson (failure : ProxyFailure) : ∃ error, TellsFailure failure
    (proxyErrorJson failure.status failure.message "proxy" failure.stage failure.kind) error := by
  have hnumber := wellFormed_statusNumber failure.status
  refine ⟨_, ⟨?_, ?_⟩, ⟨_, rfl⟩, rfl, rfl, rfl, rfl, rfl⟩
  · simp [proxyErrorJson, Map.keys, hnumber.1]
  · simp [proxyErrorJson, Value.numeric_object, hnumber.2]

theorem tellsFailure_openaiUpstreamErrorJson (failure : ProxyFailure) : ∃ error, TellsFailure failure
    (openaiUpstreamErrorJson failure.status failure.message failure.stage failure.kind) error := by
  refine ⟨_, ⟨?_, ?_⟩, ⟨_, rfl⟩, rfl, rfl, rfl, rfl, rfl⟩
  · have hnull : Value.null.Distinct := trivial
    simp [openaiUpstreamErrorJson, Map.keys, hnull]
  · have hnull : Value.null.Numeric := trivial
    simp [openaiUpstreamErrorJson, Value.numeric_object, hnull]

section

variable {env : GrsaiEnv}

/-- How the admin log reads a body. -/
def GrsaiEnv.readLog (env : GrsaiEnv) (bytes : List UInt8) : Option Value := (env.fromSlice bytes).toOption

/-- **What the log says of a failure does not depend on the body that tells it.** -/
theorem finalizeEntry_reported (hread : ReadsPrinted env.fromSlice) {failure : ProxyFailure} {value : Value} {error : Map}
    (htells : TellsFailure failure value error) (hstage : failure.stage ≠ "upstream_block_cache") (entry : AdminLogRecord) :
    LogsFailure failure (finalizeEntry env.readLog (jsonResponse failure.status value) (entry.withFailure failure)) := by
  have hpreserves : preservesAdminErrorFields (entry.withFailure failure) = false := by
    simp [preservesAdminErrorFields, AdminLogRecord.withFailure, hstage]
  have hbody : (jsonResponse failure.status value).body ≠ [] := by
    obtain ⟨members, rfl⟩ := htells.isObject
    exact print_object_ne_nil members
  have hvalue : env.readLog (jsonResponse failure.status value).body = some value := by
    rw [GrsaiEnv.readLog, jsonResponse, hread value htells.wellFormed]
    rfl
  have hlogs := @finalizeEntry_error env.readLog _ (entry.withFailure failure) _ _ hbody hvalue htells.object hpreserves
  refine ⟨hlogs.statusCode, hlogs.source.trans htells.source, hlogs.stage.trans htells.stage,
    hlogs.kind.trans htells.kind, hlogs.message.trans htells.message, ?_⟩
  have hkeeps := (@readBody_keeps env.readLog ((entry.withFailure failure).readUpstreamStatus
    (jsonResponse failure.status value)) (jsonResponse failure.status value)).2.2.1
  rw [finalizeEntry, if_neg hbody]
  exact hkeeps.trans (readUpstreamStatus_preserves (entry.withFailure failure) _).2.1

/-- Both routes report a failure alike. -/
structure ReportsAlike (env : GrsaiEnv) (failure : ProxyFailure) (reported : Response × AdminLogRecord) : Prop where
  status : reported.1.status = failure.status
  body : ∃ value error, TellsFailure failure value error ∧ reported.1.body = Json.print value
  logged : LogsFailure failure (finalizeEntry env.readLog reported.1 reported.2)

theorem reports_gemini (hread : ReadsPrinted env.fromSlice) {failure : ProxyFailure}
    (hstage : failure.stage ≠ "upstream_block_cache") (entry : AdminLogRecord) :
    ReportsAlike env failure (grsaiProxyErrorResponse entry failure) := by
  obtain ⟨error, htells⟩ := tellsFailure_proxyErrorJson failure
  exact ⟨rfl, ⟨_, _, htells, rfl⟩, finalizeEntry_reported hread htells hstage entry⟩

theorem reports_openai (hread : ReadsPrinted env.fromSlice) {failure : ProxyFailure}
    (hstage : failure.stage ≠ "upstream_block_cache") (entry : AdminLogRecord) :
    ReportsAlike env failure (grsaiOpenaiProxyErrorResponse entry failure) := by
  unfold grsaiOpenaiProxyErrorResponse
  split
  · obtain ⟨error, htells⟩ := tellsFailure_openaiUpstreamErrorJson failure
    exact ⟨rfl, ⟨_, _, htells, rfl⟩, finalizeEntry_reported hread htells hstage entry⟩
  · exact reports_gemini hread hstage entry

theorem stage_readGrsaiAnswer {status : StatusCode} {body : List UInt8} {failure : ProxyFailure}
    (h : readGrsaiAnswer env status body = .error failure) : failure.stage = "parse_upstream_response" := by
  unfold readGrsaiAnswer at h
  split at h
  · obtain rfl := Except.error.inj h
    rfl
  · split at h
    · obtain rfl := Except.error.inj h
      rfl
    · split at h
      · obtain rfl := Except.error.inj h
        rfl
      · cases h

/-! ## Links -/

theorem trim_resolvedExternalImageProxyPrefix (config : OutputUrlConfig) :
    Text.trim config.resolvedExternalImageProxyPrefix = "" ↔ config.resolvedExternalImageProxyPrefix = "" := by
  refine ⟨fun h => ?_, fun h => by rw [h]; rfl⟩
  unfold OutputUrlConfig.resolvedExternalImageProxyPrefix at h ⊢
  dsimp only at h ⊢
  split
  · rename_i hexternal
    rw [if_pos hexternal, Text.trimmed_trim] at h
    exact h
  · rename_i hexternal
    rw [if_neg hexternal] at h
    split
    · rfl
    · rename_i hbase
      rw [if_neg hbase] at h
      refine absurd h (Text.trim_ne_empty (c := '/') ?_ (by decide))
      rw [String.toList_append]
      exact List.mem_append_right _ (by decide)

/-- The routes give the same link where the configuration treats both kinds of URLs alike. -/
theorem grsai_links (h : env.config.proxySpecialUpstreamUrls = env.config.proxyStandardOutputUrls) (imageUrl : String) :
    buildOpenaiImageOutputUrl env.toOpenaiResponseEnv "grsai" imageUrl = specialImageLink env.special imageUrl := by
  have hprovider : Text.eqIgnoreAsciiCase "grsai" "direct" = false ∧ Text.eqIgnoreAsciiCase "grsai" "r2" = false := by decide
  have htrim := trim_resolvedExternalImageProxyPrefix env.config.toOutputUrlConfig
  have hbne : (Text.trim env.config.resolvedExternalImageProxyPrefix != "") =
      (env.config.resolvedExternalImageProxyPrefix != "") := by
    rw [Bool.eq_iff_iff, bne_iff_ne, bne_iff_ne, Ne, Ne, htrim]
  unfold buildOpenaiImageOutputUrl specialImageLink
  simp only [hprovider.1, Bool.false_eq_true, if_false, OutputUrlConfig.shouldProxyUploadedOutputUrl, hprovider.2, hbne,
    GrsaiEnv.special, h]

/-! ## Both routes -/

/-- Both requests end alike, against this answer. -/
inductive EndAlike (env : GrsaiEnv) (answer : GrsaiAnswer) :
    Except (ForwardError × AdminLogRecord) (Response × AdminLogRecord) →
    Except (ForwardError × AdminLogRecord) (Response × AdminLogRecord) → Prop
  /-- With the same error, before an answer is read. -/
  | failed (failure : ForwardError × AdminLogRecord) : EndAlike env answer (.error failure) (.error failure)
  /-- With a report of the failure that the answer is read as. -/
  | reported {status : StatusCode} {body : List UInt8} (hanswer : answer = .answered status (.ok body))
      {failure : ProxyFailure} (hfailure : readGrsaiAnswer env status body = .error failure)
      {gemini openai : Response × AdminLogRecord} (hgemini : ReportsAlike env failure gemini)
      (hopenai : ReportsAlike env failure openai) : EndAlike env answer (.ok gemini) (.ok openai)
  /-- With links to the image that the answer names first, each as the configuration wraps it for the client. -/
  | served {status : StatusCode} {body : List UInt8} (hanswer : answer = .answered status (.ok body))
      {parsed : GrsaiResult} {imageUrl : String} (hfound : readGrsaiAnswer env status body = .ok (parsed, imageUrl))
      (logged : AdminLogRecord)
      (hlinks : env.config.proxySpecialUpstreamUrls = env.config.proxyStandardOutputUrls →
        buildOpenaiImageOutputUrl env.toOpenaiResponseEnv "grsai" imageUrl = specialImageLink env.special imageUrl) :
      EndAlike env answer
        (.ok (jsonResponse 200 (geminiImagePayload (normalizeImageMimeType none imageUrl)
          (specialImageLink env.special imageUrl)), logged))
        (.ok (jsonResponse 200 (buildResponsePayloadFromUploaded
          [⟨buildOpenaiImageOutputUrl env.toOpenaiResponseEnv "grsai" imageUrl⟩]
          ((parsed.endTime.or parsed.startTime).getD env.now)), logged))

/-- At most one request is sent, with these parameters. -/
structure SendsParams (resolved : ResolvedUpstream) (params : GrsaiImageParams) (requests : List GrsaiRequest) : Prop where
  single : requests.length ≤ 1
  sent : ∀ request ∈ requests, request.apiKey = resolved.apiKey ∧ request.body = buildGrsaiRequestBody params

/-- The answer is read alike. -/
theorem forwardGrsaiParams_alike (hread : ReadsPrinted env.fromSlice) (resolved : ResolvedUpstream)
    (query : Option (List UInt8)) {params params' : GrsaiImageParams}
    (hbody : buildGrsaiRequestBody params' = buildGrsaiRequestBody params) (entry : AdminLogRecord)
    (answers : ℕ → GrsaiAnswer) :
    let gemini := (forwardGrsaiParams env resolved query params grsaiProxyErrorResponse
      (fun _ imageUrl => buildGrsaiGeminiResponse env .url imageUrl) entry).run answers
    let openai := (forwardGrsaiParams env resolved query params' grsaiOpenaiProxyErrorResponse
      (fun parsed imageUrl => .ok (buildGrsaiOpenaiResponse env parsed imageUrl)) entry).run answers
    gemini.1 = openai.1 ∧ SendsParams resolved params gemini.1 ∧ EndAlike env (answers 0) gemini.2 openai.2 := by
  unfold forwardGrsaiParams
  rw [hbody]
  rcases buildUpstreamUrl env.parseUrl env.urlText resolved.baseUrl IMAGE_GENERATION_PATH query with err | url
  · refine ⟨rfl, ⟨Nat.zero_le 1, fun request hrequest => ?_⟩, .failed _⟩
    cases hrequest
  · refine ⟨rfl, ⟨Nat.le_refl 1, fun request hrequest => ?_⟩, ?_⟩
    · obtain rfl := List.mem_singleton.mp hrequest
      exact ⟨rfl, rfl⟩
    · dsimp only [Dialogue.run]
      rcases hgiven : answers 0 with err | ⟨status, err | body⟩
      · exact .failed _
      · exact .failed _
      · dsimp only
        cases hanswer : readGrsaiAnswer env status body with
        | error failure =>
          have hstage : failure.stage ≠ "upstream_block_cache" := by
            rw [stage_readGrsaiAnswer hanswer]
            decide
          exact .reported rfl hanswer (reports_gemini hread hstage _) (reports_openai hread hstage _)
        | ok found =>
          exact .served rfl hanswer _ fun hconfig => grsai_links hconfig found.2

/-- **A Gemini request to grsai fares as the OpenAI request with its parameters**: the same request is sent, and against
every answer both fail with the same error, report the same failure or link to the same image. -/
theorem grsaiRoutes_alike (hread : ReadsPrinted env.fromSlice) (resolved : ResolvedUpstream)
    {requestQuery : Option (List UInt8)} {targetPath : String} {body : Value} {params : GrsaiImageParams}
    (hparams : extractGeminiParams body (rawModelOf targetPath) requestQuery = .ok params)
    (hprompt : Text.trim params.prompt ≠ "") (entry : AdminLogRecord) (answers : ℕ → GrsaiAnswer) :
    let gemini := (forwardGrsaiGeminiRequest env resolved requestQuery targetPath body .url entry).run answers
    let openai := (forwardGrsaiOpenaiImageRequest env resolved (openaiRequestOf { params with output := "url" }) none
      entry).run answers
    gemini.1 = openai.1 ∧ SendsParams resolved params gemini.1 ∧ EndAlike env (answers 0) gemini.2 openai.2 := by
  have hfrom := (extractGeminiParams_wellFormed hparams).wellFormed
  have hopenai : extractOpenaiParams (openaiRequestOf { params with output := "url" }) = .ok { params with output := "url" } :=
    extractOpenaiParams_openaiRequestOf ⟨hfrom.model, hfrom.urls, hfrom.aspectRatio, hfrom.imageSize⟩ filled_defaults.2.2
  unfold forwardGrsaiGeminiRequest forwardGrsaiOpenaiImageRequest
  simp only [hparams, hopenai, if_neg hprompt]
  exact forwardGrsaiParams_alike hread resolved none (by rfl) entry answers

end

def parseDocument (bytes : List UInt8) : Except String Value :=
  match Json.parse bytes with
  | some value => .ok value
  | none => .error "expected value at line 1 column 1"

def exampleGrsaiText : String :=
  "\x7b\"status\":\"succeeded\",\"results\":[\x7b\"url\":\"https://file.example.com/1.png\"\x7d]\x7d"

def exampleGrsaiMembers : Map :=
  [("status", .string "succeeded"), ("results", .array [.object [("url", .string "https://file.example.com/1.png")]])]

/-- The URLs of the upstream, of the proxy and of the image. -/
def parseExampleUrl (raw : String) : Except String Url :=
  if raw = "https://grsai.dakka.com.cn" then
    .ok ⟨⟨"https", some "grsai.dakka.com.cn"⟩, none, [47], none, fun _ => rfl, by decide +kernel⟩
  else if raw = "https://proxy.example.com" then
    .ok ⟨⟨"https", some "proxy.example.com"⟩, none, [47], none, fun _ => rfl, by decide +kernel⟩
  else if raw = "https://file.example.com/1.png" then
    .ok ⟨⟨"https", some "file.example.com"⟩, none, Text.bytes "/1.png", none, fun _ => (by decide +kernel), by decide +kernel⟩
  else .error "relative URL without a base"

/-- A URL without user and port. -/
def exampleUrlText (url : Url) : String :=
  url.scheme ++ "://" ++ url.hostStr.getD "" ++ Text.fromUtf8Lossy url.path ++
    (url.query.elim "" fun query => "?" ++ Text.fromUtf8Lossy query)

/-- An environment whose upstream is at the root of a host. -/
def exampleGrsaiEnv : GrsaiEnv where
  parse := fun raw => (parseExampleUrl raw).toOption.map Url.toParsedUrl
  fromSlice := parseDocument
  decodeError := fun _ => ""
  parseTimestamp := fun _ => none
  config := ⟨⟨"", "https://proxy.example.com", true, false⟩, "", true⟩
  reader := oneObjectReader exampleGrsaiText exampleGrsaiMembers (by decide +kernel) (by decide +kernel) (by decide +kernel)
  canonicalReason := fun status => if status = 200 then some "OK" else if status = 429 then some "Too Many Requests" else none
  debug := fun text => text.elim "None" fun text => "Some(\"" ++ text ++ "\")"
  parseUrl := parseExampleUrl
  urlText := exampleUrlText
  fetch := fun _ => .error "timeout"
  adminEnabled := true
  upstreamBuildMs := 1
  responseProcessMs := 1
  now := 0

def exampleGrsaiParams : GrsaiImageParams := ⟨"nano-banana-pro", "a cat", [], "auto", "1K", ""⟩

/-- Both routes with these parameters, against this answer. -/
def ExampleAlike (answer : GrsaiAnswer) : Prop :=
  let resolved : ResolvedUpstream := ⟨"https://grsai.dakka.com.cn", "key"⟩
  let gemini := (forwardGrsaiGeminiRequest exampleGrsaiEnv resolved none "/v1beta/models/nano-banana-pro:generateContent"
    (geminiRequestOf exampleGrsaiParams) .url .default).run fun _ => answer
  let openai := (forwardGrsaiOpenaiImageRequest exampleGrsaiEnv resolved
    (openaiRequestOf { exampleGrsaiParams with output := "url" }) none .default).run fun _ => answer
  gemini.1 = openai.1 ∧ SendsParams resolved exampleGrsaiParams gemini.1 ∧ EndAlike exampleGrsaiEnv answer gemini.2 openai.2

/-- A task that has succeeded, and a body that is no JSON. -/
theorem grsaiRoutes_alike_example : ExampleAlike (.answered 200 (.ok (Text.bytes exampleGrsaiText))) ∧
    ExampleAlike (.answered 429 (.ok (Text.bytes "too many requests"))) := by
  have hread : ReadsPrinted exampleGrsaiEnv.fromSlice := by
    intro value hvalue
    show parseDocument (Json.print value) = .ok value
    rw [parseDocument, Json.parse_print hvalue.1 hvalue.2]
  have hfrom : exampleGrsaiParams.FromGemini := by
    obtain ⟨hauto, hone, -⟩ := filled_defaults
    exact ⟨⟨filled_literal (by decide +kernel), fun url hurl => (by cases hurl), hauto, hone⟩,
      (filled_literal (by decide +kernel)).trimmed, rfl, by decide⟩
  have hmodel : rawModelOf "/v1beta/models/nano-banana-pro:generateContent" = exampleGrsaiParams.model := by decide +kernel
  have hparams := extractGeminiParams_geminiRequestOf hfrom none
  rw [← hmodel] at hparams
  have hprompt : Text.trim exampleGrsaiParams.prompt ≠ "" := by decide +kernel
  have halike : ∀ answer, ExampleAlike answer := fun answer =>
    grsaiRoutes_alike hread _ hparams hprompt _ fun _ => answer
  exact ⟨halike _, halike _⟩

end GeminiWorker
