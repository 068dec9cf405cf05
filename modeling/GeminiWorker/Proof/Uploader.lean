import GeminiWorker.Proof.BlobRuntime
import GeminiWorker.Proof.R2Signature
import GeminiWorker.Proof.UploadBase64
import GeminiWorker.Spec.Uploader

/-!
# What an upload sends, and to whom

* `uploadWithMode_eq`: an upload tries the hosts of its mode, one after the other.
* `uploads_alike`: from base64 text and from a blob, the same is sent as from the bytes.
* `upload_tries`: how far an upload gets, under a configuration that was accepted.
-/

namespace GeminiWorker

open Dialogue (Attempt firstOk requestsOf)

section

variable {env : UploaderEnv} {config : UploaderConfig} {mimeType : String}

/-! ## The mode -/

/-- A mode that the configuration accepts is one that the uploads know. -/
theorem parseImageHostMode_of_mem {raw : String} (h : raw ∈ ["", "legacy", "r2", "r2_then_legacy"]) :
    ∃ mode, parseImageHostMode raw = .ok mode := by
  have hall : ∀ raw ∈ ["", "legacy", "r2", "r2_then_legacy"],
      Text.toAsciiLowercase (Text.trim raw) = raw := by
    decide +kernel
  have hlower := hall raw h
  simp only [List.mem_cons, List.not_mem_nil, or_false] at h
  unfold parseImageHostMode
  rw [hlower]
  rcases h with rfl | rfl | rfl | rfl
  · exact ⟨.legacy, rfl⟩
  · exact ⟨.legacy, rfl⟩
  · exact ⟨.r2, rfl⟩
  · exact ⟨.r2ThenLegacy, rfl⟩

theorem imageHostMode_of_validate {parse : String → Except String Url} {config : R2Config}
    (h : validate parse config = .ok ()) : config.imageHostMode ∈ ["", "legacy", "r2", "r2_then_legacy"] := by
  by_contra hmode
  unfold validate at h
  rw [if_pos hmode] at h
  cases h

/-- A configuration that was accepted has a mode. -/
theorem parseImageHostMode_of_fromEnvMap {parse : String → Except String Url} {envMap : String → Option String}
    {config : R2Config} (h : R2Config.fromEnvMap parse envMap = .ok config) :
    ∃ mode, parseImageHostMode config.imageHostMode = .ok mode := by
  unfold R2Config.fromEnvMap at h
  dsimp only at h
  obtain ⟨⟨⟩, hvalid, hconfig⟩ := Except.bind_eq_ok.mp h
  obtain rfl := Except.pure_eq_ok.mp hconfig
  exact parseImageHostMode_of_mem (imageHostMode_of_validate hvalid)

/-- An upload tries the hosts of its mode, one after the other. -/
theorem uploadWithMode_eq (source : UploadSource) {mode : ImageHostMode}
    (h : parseImageHostMode config.imageHostMode = .ok mode) :
    ∃ first rest, mode.hosts = first :: rest ∧ uploadWithMode env config mimeType source =
      firstOk (source.attempt env config mimeType first) (rest.map (source.attempt env config mimeType)) := by
  unfold uploadWithMode
  rw [h]
  cases mode with
  | legacy => exact ⟨.uguu, [.kefan], rfl, rfl⟩
  | r2 => exact ⟨.r2, [], rfl, rfl⟩
  | r2ThenLegacy => exact ⟨.r2, [.uguu, .kefan], rfl, rfl⟩

/-! ## What is sent -/

/-- The sources send the same: the requests they make differ in how the body is held. -/
structure UploadSource.Same (source whole : UploadSource) (data : List UInt8) : Prop where
  r2 : (∃ request request', source.r2 = .ok request ∧ whole.r2 = .ok request' ∧
      SameUpload (.put request) (.put request')) ∨
    ∃ error, source.r2 = .error error ∧ whole.r2 = .error error
  payload : ∃ body, source.payload = .ok (data.length, body) ∧ body.Delivers data
  whole : whole.payload = .ok (data.length, .bytes data)

theorem UploadSource.Same.attempt {source whole : UploadSource} {data : List UInt8} (h : source.Same whole data)
    (host : ImageHost) :
    Attempt.Alike SameUpload (source.attempt env config mimeType host) (whole.attempt env config mimeType host) := by
  obtain ⟨body, hpayload, hdelivers⟩ := h.payload
  have hform : ∀ targetUrl fieldName acceptJson,
      (∃ request request', uploadForm env mimeType targetUrl fieldName acceptJson source.payload = .ok request ∧
        uploadForm env mimeType targetUrl fieldName acceptJson whole.payload = .ok request' ∧
        SameUpload request request') ∨
      ∃ error, uploadForm env mimeType targetUrl fieldName acceptJson source.payload = .error error ∧
        uploadForm env mimeType targetUrl fieldName acceptJson whole.payload = .error error := by
    intro targetUrl fieldName acceptJson
    unfold uploadForm
    rw [hpayload, h.whole]
    rcases env.mimeStr mimeType with err | accepted
    · exact Or.inr ⟨.mimeType err, rfl, rfl⟩
    · exact Or.inl ⟨_, _, rfl, rfl, data, hdelivers, rfl, rfl⟩
  cases host with
  | r2 =>
    refine ⟨?_, rfl⟩
    -- both sign the same request, or neither does
    rcases h.r2 with ⟨request, request', hr2, hwhole, hsame⟩ | ⟨error, hr2, hwhole⟩
    · refine Or.inl ⟨.put request, .put request', ?_, ?_, hsame⟩
      · simp only [UploadSource.attempt, r2Attempt, hr2, Except.map, Except.mapError]
      · simp only [UploadSource.attempt, r2Attempt, hwhole, Except.map, Except.mapError]
    · refine Or.inr ⟨.r2 error, ?_, ?_⟩
      · simp only [UploadSource.attempt, r2Attempt, hr2, Except.map, Except.mapError]
      · simp only [UploadSource.attempt, r2Attempt, hwhole, Except.map, Except.mapError]
  | uguu => exact ⟨hform _ _ _, rfl⟩
  | kefan => exact ⟨hform _ _ _, rfl⟩

/-- What two uploads are compared by: the requests, and the result. -/
def SameRun (upload whole : Upload) (answers : ℕ → UploadAnswer) : Prop :=
  List.Forall₂ SameUpload (upload.run answers).1 (whole.run answers).1 ∧ (upload.run answers).2 = (whole.run answers).2

theorem UploadSource.Same.run {source whole : UploadSource} {data : List UInt8} (h : source.Same whole data)
    (answers : ℕ → UploadAnswer) :
    SameRun (uploadWithMode env config mimeType source) (uploadWithMode env config mimeType whole) answers := by
  rcases hmode : parseImageHostMode config.imageHostMode with error | mode
  · unfold uploadWithMode
    rw [hmode]
    exact ⟨.nil, rfl⟩
  · obtain ⟨first, rest, hhosts, hupload⟩ := @uploadWithMode_eq env config mimeType source mode hmode
    obtain ⟨first', rest', hhosts', hwhole⟩ := @uploadWithMode_eq env config mimeType whole mode hmode
    obtain ⟨rfl, rfl⟩ := List.cons.inj (hhosts.symm.trans hhosts')
    rw [hupload, hwhole]
    refine Dialogue.Alike.run (Dialogue.Alike.firstOk (h.attempt first) ?_) answers
    rw [List.forall₂_map_left_iff, List.forall₂_map_right_iff, List.forall₂_same]
    exact fun host _ => h.attempt host

/-- The requests to R2 for payloads of one length and hash differ in the body. -/
theorem putRequest_same (env : UploadEnv) (config : R2Config) (mimeType payloadHash : String) {β : Type} (held : β → UploadBody)
    (body : β) {data : List UInt8} (hbody : (held body).Delivers data) :
    let source := (env.putRequest config mimeType (some (payloadHash, data.length, body))).map (PutRequest.mapBody held)
    let whole := (env.putRequest config mimeType (some (payloadHash, data.length, data))).map
      (PutRequest.mapBody UploadBody.bytes)
    (∃ request request', source = .ok request ∧ whole = .ok request' ∧ SameUpload (.put request) (.put request')) ∨
      ∃ error, source = .error error ∧ whole = .error error := by
  dsimp only [UploadEnv.putRequest]
  rcases env.parse config.r2Endpoint with err | endpoint
  · exact Or.inr ⟨.endpoint err, rfl, rfl⟩
  · exact Or.inl ⟨_, _, rfl, rfl, data, hbody, rfl, rfl⟩

theorem Delivers_decoded {dataBase64 : String} {data : List UInt8}
    (h : Base64.decode (Text.bytes dataBase64) = some data) : (UploadBody.decoded (.new dataBase64)).Delivers data :=
  fun _ hcapacity => Base64DecodedReader.readToEnd_new (decodeChunks_of_decode h) hcapacity

theorem uploadInlineDataBase64_alike {data : List UInt8} {dataBase64 : String}
    (htext : Base64.decode (Text.bytes dataBase64) = some data) (answers : ℕ → UploadAnswer) :
    SameRun (uploadInlineDataBase64 env config mimeType dataBase64) (uploadImage env config mimeType data) answers := by
  refine @UploadSource.Same.run env config mimeType _ _ data ⟨?_, ?_, rfl⟩ answers
  · have hhash : sha256HexBase64 env.sha256 dataBase64 = some (sha256Hex env.sha256 data) := by
      have hchunks : hashChunks (Text.bytes dataBase64) 0 [] = some data := decodeChunks_of_decode htext
      rw [sha256HexBase64, hchunks, Option.map_some, sha256Hex]
    rw [UploadEnv.uploadR2Base64Request, hhash, decodedBase64Len_of_decode htext]
    exact putRequest_same _ _ _ _ _ _ (Delivers_decoded htext)
  · rw [decodedBase64Len_of_decode htext]
    exact ⟨_, rfl, Delivers_decoded htext⟩

/-- **From base64 text and from a blob, the same is uploaded as from the bytes themselves**: the same requests in
the same order, whatever the hosts answer, with bodies that deliver the bytes and lengths that are theirs. -/
theorem uploads_alike (env : UploaderEnv) (config : UploaderConfig) (mimeType : String) {data : List UInt8}
    {dataBase64 : String} (htext : Base64.decode (Text.bytes dataBase64) = some data) {runtime : BlobRuntime}
    {blob : BlobHandle} (hblob : runtime.StoredAs blob data) (answers : ℕ → UploadAnswer) :
    SameRun (uploadInlineDataBase64 env config mimeType dataBase64) (uploadImage env config mimeType data) answers ∧
      SameRun (uploadBlob env config mimeType runtime blob) (uploadImage env config mimeType data) answers := by
  constructor
  · exact uploadInlineDataBase64_alike htext answers
  · have hread : runtime.openReader blob = some data := hblob.bytes_eq
    refine @UploadSource.Same.run env config mimeType _ _ data ⟨?_, ?_, rfl⟩ answers
    · rw [UploadEnv.uploadR2BlobRequest, hread, hblob.size_eq]
      exact putRequest_same _ _ _ _ _ _ rfl
    · rw [hread, hblob.size_eq]
      exact ⟨.blob data, rfl, rfl⟩

def exampleUploaderEnv : UploaderEnv where
  toUploadEnv := exampleEnv "images"
  mimeStr _ := .ok ()
  uguuResponse _ := .error "expected value at line 1 column 1"
  kefanResponse _ := .error "expected value at line 1 column 1"

def exampleUploaderConfig : UploaderConfig where
  toR2Config := exampleConfig "images"
  legacyUguuUploadUrl := "https://uguu.se/upload"
  legacyKefanUploadUrl := "https://ai.kefan.cn/api/upload/local"

theorem uploads_alike_example :
    SameRun (uploadInlineDataBase64 exampleUploaderEnv exampleUploaderConfig "image/png" "Zm9v")
        (uploadImage exampleUploaderEnv exampleUploaderConfig "image/png" [102, 111, 111]) (fun _ => .error "timeout") ∧
      SameRun (uploadBlob exampleUploaderEnv exampleUploaderConfig "image/png"
          ((BlobRuntime.new ⟨1024, 1024, 1024, "/tmp"⟩ fun _ => none).storeExternalSharedBytes [102, 111, 111] "image/png").2
          ((BlobRuntime.new ⟨1024, 1024, 1024, "/tmp"⟩ fun _ => none).storeExternalSharedBytes [102, 111, 111] "image/png").1)
        (uploadImage exampleUploaderEnv exampleUploaderConfig "image/png" [102, 111, 111]) fun _ => .error "timeout" := by
  have htext : Base64.decode (Text.bytes "Zm9v") = some [102, 111, 111] := by decide +kernel
  obtain ⟨handle, runtime, hstore, hstored, -⟩ := BlobRuntime.storeExternalSharedBytes_eq [102, 111, 111] "image/png"
    (BlobRuntime.new ⟨1024, 1024, 1024, "/tmp"⟩ fun _ => none)
  rw [hstore]
  exact uploads_alike _ _ _ htext hstored _

/-! ## How far an upload gets -/

theorem provider_of_putResult {env : UploadEnv} {config : R2Config} {mimeType : String} {response : Except String PutResponse}
    {result : UploadResult} (h : env.putResult config mimeType response = .ok result) : result.provider = "r2" := by
  unfold UploadEnv.putResult at h
  obtain ⟨response, -, hresult⟩ := Except.bind_eq_ok.mp h
  by_cases hsuccess : (!response.isSuccess) = true
  · rw [if_pos hsuccess] at hresult
    cases hresult
  · rw [if_neg hsuccess] at hresult
    obtain rfl := Except.pure_eq_ok.mp hresult
    rfl

theorem provider_of_legacy {outcome : Except HostError String} {result : UploadResult}
    (h : (outcome.map fun url => (⟨url, "legacy"⟩ : UploadResult)) = .ok result) : result.provider = "legacy" := by
  rcases outcome with error | url
  · cases h
  · obtain rfl := Except.ok.inj h
    rfl

/-- What an accepted upload reports is the host it went to. -/
theorem provider_of_attempt {source : UploadSource} {host : ImageHost} {answer : UploadAnswer} {result : UploadResult}
    (h : (source.attempt env config mimeType host).outcome answer = .ok result) : result.provider = "r2" ↔ host = .r2 := by
  obtain ⟨request, -, haccept⟩ := Except.bind_eq_ok.mp h
  cases host with
  | r2 =>
    rcases hput : env.putResult config.toR2Config mimeType (answer.map fun response =>
        ⟨response.isSuccess, response.status, response.text.toOption.getD ""⟩) with error | uploaded
    · simp only [UploadSource.attempt, r2Attempt, hput, Except.mapError] at haccept
      cases haccept
    · simp only [UploadSource.attempt, r2Attempt, hput, Except.mapError] at haccept
      obtain rfl := Except.ok.inj haccept
      simp [provider_of_putResult hput]
  | uguu =>
    have hlegacy := @provider_of_legacy (uguuUrl env answer) result haccept
    simp [hlegacy]
  | kefan =>
    have hlegacy := @provider_of_legacy (kefanUrl env answer) result haccept
    simp [hlegacy]

/-- The upload gets as far as `last`: the hosts before it have been asked in turn and have failed, and those after
it are not asked. The answers are counted by the requests made before. -/
structure GetsTo (attempt : ImageHost → HostAttempt) (upload : Upload) (answers : ℕ → UploadAnswer)
    (before : List ImageHost) (last : ImageHost) : Prop where
  run : upload.run answers = (requestsOf ((before ++ [last]).map attempt),
    (attempt last).outcome (answers (requestsOf (before.map attempt)).length))
  failed : ∀ earlier host later, before = earlier ++ host :: later →
    ∃ error, (attempt host).outcome (answers (requestsOf (earlier.map attempt)).length) = .error error

/-- **An upload asks the hosts of its mode in turn, up to the first that takes the image**: it names that host as the
provider, and fails only when all of them have failed. -/
theorem upload_tries {envMap : String → Option String}
    (haccepted : R2Config.fromEnvMap env.parse envMap = .ok config.toR2Config) (source : UploadSource)
    (answers : ℕ → UploadAnswer) :
    ∃ mode before last after, parseImageHostMode config.imageHostMode = .ok mode ∧
      mode.hosts = before ++ last :: after ∧
      GetsTo (source.attempt env config mimeType) (uploadWithMode env config mimeType source) answers before last ∧
      (∀ error, ((uploadWithMode env config mimeType source).run answers).2 = .error error → after = []) ∧
      ∀ result, ((uploadWithMode env config mimeType source).run answers).2 = .ok result →
        (result.provider = "r2" ↔ last = .r2) := by
  obtain ⟨mode, hmode⟩ := parseImageHostMode_of_fromEnvMap haccepted
  obtain ⟨first, rest, hhosts, hupload⟩ := @uploadWithMode_eq env config mimeType source mode hmode
  let attempt := source.attempt env config mimeType
  obtain ⟨triedBefore, triedLast, triedAfter, hsplit, hrun, hfailed, hlast⟩ :=
    Dialogue.run_firstOk (attempt first) (rest.map attempt) answers
  -- the attempts are those at the hosts of the mode
  rw [← List.map_cons, List.map_eq_append_iff] at hsplit
  obtain ⟨before, others, hboth, rfl, hothers⟩ := hsplit
  obtain ⟨last, after, rfl, rfl, rfl⟩ := List.map_eq_cons_iff.mp hothers
  have hrequests : (uploadWithMode env config mimeType source).run answers =
      (requestsOf ((before ++ [last]).map attempt),
        (attempt last).outcome (answers (requestsOf (before.map attempt)).length)) := by
    rw [hupload, List.map_append]
    exact hrun
  refine ⟨mode, before, last, after, hmode, hhosts.trans hboth, ⟨hrequests, ?_⟩, ?_, ?_⟩
  · rintro earlier host later rfl
    exact hfailed (earlier.map attempt) (attempt host) (later.map attempt) (by rw [List.map_append, List.map_cons])
  · intro error herror
    rw [hrequests] at herror
    exact List.map_eq_nil_iff.mp (hlast error herror)
  · intro result hresult
    rw [hrequests] at hresult
    exact provider_of_attempt hresult

def exampleFallbackEnvMap (name : String) : Option String :=
  if name = "IMAGE_HOST_MODE" then some "r2_then_legacy" else exampleEnvMap "images" name

def exampleFallbackConfig : UploaderConfig := { exampleUploaderConfig with imageHostMode := "r2_then_legacy" }

def exampleUguuText : String := "\x7b\"success\":true,\"files\":[\x7b\"url\":\"https://d.uguu.se/abc.png\"\x7d]\x7d"

/-- A reader that knows one answer. -/
def exampleFallbackEnv : UploaderEnv :=
  { exampleUploaderEnv with
    uguuResponse := fun text => if text = exampleUguuText then .ok ⟨true, ["https://d.uguu.se/abc.png"]⟩
      else .error "expected value at line 1 column 1" }

/-- R2 does not answer in time, and the next host takes the image. -/
def exampleFallbackAnswers : ℕ → UploadAnswer
  | 0 => .error "timeout"
  | _ => .ok ⟨true, "200 OK", .ok exampleUguuText⟩

/-- What `uploadImage` uploads. -/
def exampleSource : UploadSource where
  r2 := (exampleFallbackEnv.uploadR2Request exampleFallbackConfig.toR2Config "image/png" [102, 111, 111]).map
    (PutRequest.mapBody .bytes)
  payload := .ok (3, .bytes [102, 111, 111])

theorem upload_tries_example : ∃ before last after result,
    ImageHostMode.r2ThenLegacy.hosts = before ++ last :: after ∧ last ≠ .r2 ∧
      GetsTo (exampleSource.attempt exampleFallbackEnv exampleFallbackConfig "image/png")
        (uploadImage exampleFallbackEnv exampleFallbackConfig "image/png" [102, 111, 111]) exampleFallbackAnswers before
        last ∧
      ((uploadImage exampleFallbackEnv exampleFallbackConfig "image/png" [102, 111, 111]).run
        exampleFallbackAnswers).1.length = 2 ∧
      ((uploadImage exampleFallbackEnv exampleFallbackConfig "image/png" [102, 111, 111]).run
        exampleFallbackAnswers).2 = .ok result ∧ result.url = "https://d.uguu.se/abc.png" := by
  have haccepted : R2Config.fromEnvMap exampleFallbackEnv.parse exampleFallbackEnvMap =
      .ok exampleFallbackConfig.toR2Config := rfl
  have hmode : parseImageHostMode exampleFallbackConfig.imageHostMode = .ok .r2ThenLegacy := rfl
  have hresult : ((uploadImage exampleFallbackEnv exampleFallbackConfig "image/png" [102, 111, 111]).run
      exampleFallbackAnswers).2 = .ok ⟨"https://d.uguu.se/abc.png", "legacy"⟩ := rfl
  have hasked : ((uploadImage exampleFallbackEnv exampleFallbackConfig "image/png" [102, 111, 111]).run
      exampleFallbackAnswers).1.length = 2 := rfl
  obtain ⟨mode, before, last, after, hread, hhosts, hgets, -, hprovider⟩ :=
    @upload_tries exampleFallbackEnv exampleFallbackConfig "image/png" _ haccepted exampleSource exampleFallbackAnswers
  obtain rfl := Except.ok.inj (hmode.symm.trans hread)
  -- the image is not at R2, so that the upload went past it
  refine ⟨before, last, after, _, hhosts, fun hlast => ?_, hgets, hasked, hresult, rfl⟩
  have hnamed := (hprovider _ hresult).mpr hlast
  exact absurd hnamed (by decide)

end

end GeminiWorker
