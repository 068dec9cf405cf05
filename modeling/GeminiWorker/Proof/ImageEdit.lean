import GeminiWorker.Proof.ImageNormalization
import GeminiWorker.Spec.ImageEdit

/-!
# The reference images of an edit form

* `formImages_normalized`: after the normalization the form has the images of the client, in order.
* `imageEdit_exact`: when a form is sent, and what is in it.
-/

namespace GeminiWorker

open Json (Value Map)

section

variable {parse : UrlParser}

/-! ## The images of a normalized body -/

/-- The images are under one of the fields, or there are none. -/
theorem aliasAfter_cases {object members : Map} {forceB64Json : Bool} {baseUrl : String}
    (h : Normalized parse object forceB64Json baseUrl members) :
    (∃ target ∈ OPENAI_IMAGE_REFERENCE_FIELDS, ∀ field ∈ OPENAI_IMAGE_REFERENCE_FIELDS, members.get field =
        if field = target then some (.array ((clientReferenceImages object).map .string)) else none) ∨
      (clientReferenceImages object = [] ∧ ∀ field ∈ OPENAI_IMAGE_REFERENCE_FIELDS, members.get field = none) := by
  have hfields : ∀ field ∈ OPENAI_IMAGE_REFERENCE_FIELDS, field ∈ imageFieldAliases := by decide
  have himages := fun field hfield => h.images field (hfields field hfield)
  rw [← clientReferenceImages_eq] at himages
  rcases halias : aliasAfter parse baseUrl object with _ | target
  · -- the client has used none of the names
    right
    rw [halias] at himages
    refine ⟨?_, fun field hfield => (himages field hfield).trans (if_neg (by simp))⟩
    have hnone : ["image", "images", "reference_images"].find? object.containsKey = none := by
      rw [aliasAfter, Option.map_eq_none_iff] at halias
      exact halias
    have habsent : ∀ field ∈ imageFieldAliases, object.get field = none := by
      intro field hfield
      have hkey := List.find?_eq_none.mp hnone field (by revert hfield; revert field; decide)
      rw [← Option.not_isSome_iff_eq_none, Map.get_isSome_iff, ← Map.containsKey_iff]
      exact hkey
    rw [clientReferenceImages, List.flatMap_eq_nil_iff]
    intro field hfield
    rw [referenceImagesAt, habsent field hfield]
  · left
    have htarget : target ∈ OPENAI_IMAGE_REFERENCE_FIELDS := by
      obtain ⟨first, hfirst, rfl⟩ := Option.map_eq_some_iff.mp halias
      split
      · decide
      · exact List.mem_of_find?_eq_some hfirst
    refine ⟨target, htarget, fun field hfield => ?_⟩
    rw [himages field hfield, halias]
    by_cases heq : field = target
    · rw [if_pos (congrArg some heq.symm), if_pos heq]
    · rw [if_neg (fun hsame => heq (Option.some.inj hsame).symm), if_neg heq]

theorem count_normalized {object members : Map} {forceB64Json : Bool} {baseUrl : String}
    (h : Normalized parse object forceB64Json baseUrl members) :
    openaiImageReferenceImageCount (.object members) = (clientReferenceImages object).length := by
  have hcount : openaiImageReferenceImageCount (.object members) =
      (([members.get "image", members.get "images", members.get "reference_images"].filterMap fun value =>
        value.bind Value.asArray).map List.length).sum := rfl
  rw [hcount]
  rcases aliasAfter_cases h with ⟨target, htarget, hfields⟩ | ⟨hempty, hfields⟩
  · rw [hfields "image" (by decide), hfields "images" (by decide), hfields "reference_images" (by decide)]
    simp only [OPENAI_IMAGE_REFERENCE_FIELDS, List.mem_cons, List.not_mem_nil, or_false] at htarget
    rcases htarget with rfl | rfl | rfl <;> simp [Value.asArray]
  · rw [hfields "image" (by decide), hfields "images" (by decide), hfields "reference_images" (by decide), hempty]
    rfl

/-- **The form has the images of the client**, in the order of the normalization. -/
theorem formImages_normalized {object members : Map} {forceB64Json : Bool} {baseUrl : String}
    (h : Normalized parse object forceB64Json baseUrl members) :
    collectFormImages OPENAI_IMAGE_REFERENCE_FIELDS members = .ok ((clientReferenceImages object).map .string) := by
  simp only [OPENAI_IMAGE_REFERENCE_FIELDS, collectFormImages]
  rcases aliasAfter_cases h with ⟨target, htarget, hfields⟩ | ⟨hempty, hfields⟩
  · rw [hfields "image" (by decide), hfields "images" (by decide), hfields "reference_images" (by decide)]
    simp only [OPENAI_IMAGE_REFERENCE_FIELDS, List.mem_cons, List.not_mem_nil, or_false] at htarget
    rcases htarget with rfl | rfl | rfl <;> simp [Value.asArray, Except.map]
  · rw [hfields "image" (by decide), hfields "images" (by decide), hfields "reference_images" (by decide), hempty]
    rfl

end

section

variable {env : ImageEditEnv}

/-- A part with the image that was fetched for an entry: its URL and its place. -/
def IsImagePart (env : ImageEditEnv) (answers : ℕ → Published) (entry : String × ℕ) (part : FormPart) : Prop :=
  ∃ fetched, answers entry.2 = .ok fetched ∧ env.mimeError fetched.mimeType = none ∧
    part = .file "image" ((filenameFromUrl env entry.1).getD "image.png") fetched.mimeType fetched.bytes

theorem imageFormPart_eq_ok {imageUrl : String} {published : Published} {part : FormPart} :
    imageFormPart env imageUrl published = .ok part ↔ ∃ fetched, published = .ok fetched ∧
      env.mimeError fetched.mimeType = none ∧
      part = .file "image" ((filenameFromUrl env imageUrl).getD "image.png") fetched.mimeType fetched.bytes := by
  unfold imageFormPart
  rcases published with err | fetched
  · simp
  · dsimp only
    rcases hmime : env.mimeError fetched.mimeType with _ | err
    · constructor
      · intro h
        exact ⟨fetched, rfl, hmime, (Except.ok.inj h).symm⟩
      · rintro ⟨fetched', hfetched, -, rfl⟩
        obtain rfl := Except.ok.inj hfetched
        rfl
    · constructor
      · intro h
        cases h
      · rintro ⟨fetched', hfetched, hnone, -⟩
        obtain rfl := Except.ok.inj hfetched
        rw [hmime] at hnone
        cases hnone

/-- The images of a form are fetched in turn. -/
theorem run_serveFormImages (images : List String) (answers : ℕ → Published) :
    let run := (Dialogue.inTurn (serveFormImage env) (images.map .string)).run answers
    run.1 <+: images ∧ (∀ files, run.2 = .ok files → run.1 = images) ∧
      ∀ files, run.2 = .ok files ↔ List.Forall₂ (IsImagePart env answers) images.zipIdx files := by
  have hserve : Dialogue.inTurn (serveFormImage env) (images.map .string) =
      Dialogue.inTurn (fun image => Dialogue.once image (imageFormPart env image)) images := by
    induction images with
    | nil => rfl
    | cons image images ih =>
      have hitem : serveFormImage env (.string image) = Dialogue.once image (imageFormPart env image) := rfl
      rw [List.map_cons, Dialogue.inTurn, Dialogue.inTurn, hitem, ih]
  obtain ⟨hasked, hdone, hresults⟩ := Dialogue.run_inTurn_once id (imageFormPart env) images answers
  rw [List.map_id] at hasked hdone
  rw [hserve]
  refine ⟨hasked, hdone, fun files => (hresults files).trans ?_⟩
  constructor
  · exact fun h => h.imp fun entry part => imageFormPart_eq_ok.mp
  · exact fun h => h.imp fun entry part => imageFormPart_eq_ok.mpr

/-- What a request with an edit form is like. -/
structure SendsForm (env : ImageEditEnv) (baseUrl : String) (object : Map) (answers : ℕ → Published) (parts : List FormPart) :
    Prop where
  edits : shouldUseOpenaiImageEditsForUpstream env baseUrl = true
  nonempty : clientReferenceImages object ≠ []
  bounded : (clientReferenceImages object).length ≤ MAX_OPENAI_REFERENCE_IMAGES
  parts : ∃ normalized files, Normalized env.parse object (shouldForceOpenaiImageB64JsonForUpstream env baseUrl) baseUrl
      normalized ∧
    normalizeRequestBodyForUpstream env.parse (.object object) (shouldForceOpenaiImageB64JsonForUpstream env baseUrl) baseUrl =
      .ok (.object normalized) ∧
    List.Forall₂ (IsImagePart env answers) (clientReferenceImages object).zipIdx files ∧
    parts = formTexts normalized ++ files

theorem run_buildHappyapiImageEditForm {parse : UrlParser} {object members : Map} {forceB64Json : Bool} {baseUrl : String}
    (h : Normalized parse object forceB64Json baseUrl members) (hne : clientReferenceImages object ≠ [])
    (answers : ℕ → Published) :
    let run := (buildHappyapiImageEditForm env (.object members)).run answers
    run.1 <+: clientReferenceImages object ∧ (∀ parts, run.2 = .ok parts → run.1 = clientReferenceImages object) ∧
      ∀ parts, run.2 = .ok parts ↔ ∃ files,
        List.Forall₂ (IsImagePart env answers) (clientReferenceImages object).zipIdx files ∧
          parts = formTexts members ++ files := by
  obtain ⟨hasked, hdone, hfiles⟩ := @run_serveFormImages env (clientReferenceImages object) answers
  have hform : buildHappyapiImageEditForm env (.object members) =
      (Dialogue.inTurn (serveFormImage env) ((clientReferenceImages object).map .string)).map fun files =>
        files.map (formTexts members ++ ·) := by
    unfold buildHappyapiImageEditForm
    simp only [Value.asObject, formImages_normalized h]
    split
    · rename_i herror
      cases herror
    · rename_i hempty
      exact absurd (List.map_eq_nil_iff.mp (Except.ok.inj hempty)) hne
    · rename_i imageUrls _ himages
      rw [Except.ok.inj himages]
  intro run
  have hrun : run = _ := congrArg (fun p => p.run answers) hform
  rw [Dialogue.run_map] at hrun
  rw [hrun]
  rcases houtcome : ((Dialogue.inTurn (serveFormImage env) ((clientReferenceImages object).map .string)).run answers).2 with
    err | files
  · -- an image fails, and the form with it
    rw [houtcome] at hfiles
    refine ⟨hasked, fun parts h => (by cases h), fun parts => ⟨fun h => (by cases h), ?_⟩⟩
    rintro ⟨files, hall, -⟩
    cases (hfiles files).mpr hall
  · rw [houtcome] at hdone hfiles
    refine ⟨hasked, fun _ _ => hdone files rfl, fun parts => ⟨fun h => ?_, ?_⟩⟩
    · exact ⟨files, (hfiles files).mp rfl, (Except.ok.inj h).symm⟩
    · rintro ⟨files', hall, rfl⟩
      obtain rfl := Except.ok.inj ((hfiles files').mpr hall)
      rfl

/-! ## The other fields -/

theorem nodup_normalized {parse : UrlParser} {object members : Map} (hobject : Value.Distinct (.object object))
    {forceB64Json : Bool} {baseUrl : String}
    (h : normalizeRequestBodyForUpstream parse (.object object) forceB64Json baseUrl = .ok (.object members)) :
    members.keys.Nodup := by
  rw [normalizeRequestBodyForUpstream_eq] at h
  obtain ⟨body, hbody, h⟩ := Except.bind_eq_ok.mp h
  obtain ⟨-, images, rest, hmerge, rfl⟩ := normalizeRequestBody_eq_ok.mp hbody
  have hkeys := (Value.distinct_object.mp hobject).1
  have hmerged := @nodup_merged object _ (collectAliases_ok (by decide) hkeys hmerge).2.1 images forceB64Json
  split at h
  · obtain rfl := Value.object.inj (Except.ok.inj h)
    exact nodup_renameToImages (nodup_renameToImages (nodup_rewriteTianyueModel hmerged) "image") "reference_images"
  · obtain rfl := Value.object.inj (Except.ok.inj h)
    exact hmerged

theorem mem_formTexts {members : Map} (hkeys : members.keys.Nodup) {key value : String} :
    FormPart.text key value ∈ formTexts members ↔
      key ∉ imageFieldAliases ∧ ∃ v, members.get key = some v ∧ value = multipartTextValue v := by
  have hfields : ∀ key : String, OPENAI_IMAGE_REFERENCE_FIELDS.contains key = false ↔ key ∉ imageFieldAliases := by
    intro key
    simp only [OPENAI_IMAGE_REFERENCE_FIELDS, imageFieldAliases, List.contains_eq_mem, List.mem_cons, List.not_mem_nil]
    grind
  rw [formTexts, List.mem_map]
  constructor
  · rintro ⟨⟨name, v⟩, hmem, hpart⟩
    obtain ⟨hm, hkept⟩ := List.mem_filter.mp hmem
    obtain ⟨rfl, rfl⟩ := FormPart.text.inj hpart
    exact ⟨(hfields name).mp (by simpa using hkept), v, (Map.get_eq_some_iff hkeys).mpr hm, rfl⟩
  · rintro ⟨hkey, v, hv, rfl⟩
    refine ⟨(key, v), List.mem_filter.mpr ⟨Map.mem_of_get hv, ?_⟩, rfl⟩
    rw [(hfields key).mpr hkey]
    rfl

theorem text_not_mem_files {answers : ℕ → Published} {entries : List (String × ℕ)} {files : List FormPart}
    (h : List.Forall₂ (IsImagePart env answers) entries files) (key value : String) : FormPart.text key value ∉ files := by
  induction h with
  | nil => exact List.not_mem_nil
  | cons hpart _ ih =>
    obtain ⟨fetched, -, -, rfl⟩ := hpart
    intro hmem
    rcases List.mem_cons.mp hmem with heq | hmem
    · cases heq
    · exact ih hmem

/-- What the texts of a form have of the fields of the client; its model is another one where the host has one of its
own for the size. -/
structure KeepsFields (env : ImageEditEnv) (baseUrl : String) (object : Map) (parts : List FormPart) : Prop where
  images : ∀ key ∈ imageFieldAliases, ∀ value, .text key value ∉ parts
  format : ∀ value, .text "response_format" value ∈ parts ↔
    value = if shouldForceOpenaiImageB64JsonForUpstream env baseUrl then "b64_json" else "url"
  model : ∀ size, isTianyue env.parse baseUrl = true → IsSizedSeedream object size → ∀ value,
    .text "model" value ∈ parts ↔ value = "GZ-seedream-5-pro-" ++ Text.toAsciiUppercase size
  modelKept : (isTianyue env.parse baseUrl = false ∨ ∀ size, ¬ IsSizedSeedream object size) → ∀ value,
    .text "model" value ∈ parts ↔ ∃ v, object.get "model" = some v ∧ value = multipartTextValue v
  others : ∀ key ∉ imageFieldAliases, key ≠ "response_format" → key ≠ "model" → ∀ value,
    .text key value ∈ parts ↔ ∃ v, object.get key = some v ∧ value = multipartTextValue v

theorem SendsForm.keepsFields {baseUrl : String} {object : Map} (hobject : Value.Distinct (.object object))
    {answers : ℕ → Published} {parts : List FormPart} (h : SendsForm env baseUrl object answers parts) :
    KeepsFields env baseUrl object parts := by
  obtain ⟨members, files, hnormalized, hmembers, hfiles, rfl⟩ := h.parts
  have hmem : ∀ key value, .text key value ∈ formTexts members ++ files ↔
      key ∉ imageFieldAliases ∧ ∃ v, members.get key = some v ∧ value = multipartTextValue v := by
    intro key value
    rw [List.mem_append, mem_formTexts (nodup_normalized hobject hmembers)]
    exact or_iff_left (text_not_mem_files hfiles key value)
  -- a field that is a string in the normalized body
  have hstring : ∀ key text, key ∉ imageFieldAliases → members.get key = some (.string text) → ∀ value,
      .text key value ∈ formTexts members ++ files ↔ value = text := by
    intro key text hkey hget value
    rw [hmem, hget]
    constructor
    · rintro ⟨-, v, hv, rfl⟩
      obtain rfl := Option.some.inj hv
      rfl
    · rintro rfl
      exact ⟨hkey, _, rfl, rfl⟩
  have hkept : ∀ key, key ∉ imageFieldAliases → members.get key = object.get key → ∀ value,
      .text key value ∈ formTexts members ++ files ↔ ∃ v, object.get key = some v ∧ value = multipartTextValue v := by
    intro key hkey hget value
    rw [hmem, hget]
    exact and_iff_right hkey
  constructor
  · intro key hkey value hvalue
    exact ((hmem key value).mp hvalue).1 hkey
  · exact hstring _ _ (by decide) hnormalized.format
  · intro size htianyue hsized
    exact hstring _ _ (by decide) (hnormalized.model size htianyue hsized)
  · intro hother
    exact hkept _ (by decide) (hnormalized.modelKept hother)
  · intro key hkey hformat hmodel
    exact hkept key hkey (hnormalized.others key hkey hformat hmodel)

/-! ## The request -/

/-- What a request with a JSON body is like: it is the normalized one, and nothing in it is for an edit. -/
structure SendsJson (env : ImageEditEnv) (baseUrl : String) (object : Map) (requestBody : Value) : Prop where
  normalized : normalizeRequestBodyForUpstream env.parse (.object object)
    (shouldForceOpenaiImageB64JsonForUpstream env baseUrl) baseUrl = .ok requestBody
  bounded : (clientReferenceImages object).length ≤ MAX_OPENAI_REFERENCE_IMAGES
  unedited : shouldUseOpenaiImageEditsForUpstream env baseUrl = true → clientReferenceImages object = []

/-- What is fetched and sent of a request, the answers being what is fetched; what is sent neither as a form nor as JSON
is refused. -/
structure EditRun (env : ImageEditEnv) (baseUrl : String) (object : Map) (answers : ℕ → Published)
    (run : List String × Except OpenaiImageRequestError OpenaiImageUpstreamBody) : Prop where
  /-- Images of the client and no other, in order. -/
  asked : run.1 <+: clientReferenceImages object
  /-- Nothing is fetched where no form can be sent. -/
  asks : run.1 ≠ [] → shouldUseOpenaiImageEditsForUpstream env baseUrl = true ∧
    (clientReferenceImages object).length ≤ MAX_OPENAI_REFERENCE_IMAGES
  form : ∀ parts, run.2 = .ok (.form parts) ↔ SendsForm env baseUrl object answers parts
  fetched : ∀ parts, run.2 = .ok (.form parts) → run.1 = clientReferenceImages object ∧ KeepsFields env baseUrl object parts
  json : ∀ requestBody, run.2 = .ok (.json requestBody) ↔ SendsJson env baseUrl object requestBody

theorem editRun_error {baseUrl : String} {object : Map} {answers : ℕ → Published} (err : OpenaiImageRequestError)
    (hform : ∀ parts, ¬ SendsForm env baseUrl object answers parts)
    (hjson : ∀ requestBody, ¬ SendsJson env baseUrl object requestBody) :
    EditRun env baseUrl object answers ([], .error err) where
  asked := List.nil_prefix
  asks hasked := absurd rfl hasked
  form parts := ⟨fun hparts => (by cases hparts), fun hparts => absurd hparts (hform parts)⟩
  fetched parts hparts := by cases hparts
  json requestBody := ⟨fun hbody => (by cases hbody), fun hbody => absurd hbody (hjson requestBody)⟩

theorem editRun_json {baseUrl : String} {object : Map} {answers : ℕ → Published} {requestBody : Value}
    (h : SendsJson env baseUrl object requestBody) : EditRun env baseUrl object answers ([], .ok (.json requestBody)) where
  asked := List.nil_prefix
  asks hasked := absurd rfl hasked
  form parts := ⟨fun hparts => (by cases hparts), fun hparts => absurd (h.unedited hparts.edits) hparts.nonempty⟩
  fetched parts hparts := by cases hparts
  json other := by
    constructor
    · intro hother
      obtain rfl := OpenaiImageUpstreamBody.json.inj (Except.ok.inj hother)
      exact h
    · intro hother
      rw [Except.ok.inj (h.normalized.symm.trans hother.normalized)]

theorem editRun_form {baseUrl : String} {object members : Map} (hobject : Value.Distinct (.object object))
    (hmembers : normalizeRequestBodyForUpstream env.parse (.object object)
      (shouldForceOpenaiImageB64JsonForUpstream env baseUrl) baseUrl = .ok (.object members))
    (hedits : shouldUseOpenaiImageEditsForUpstream env baseUrl = true) (hne : clientReferenceImages object ≠ [])
    (hbounded : (clientReferenceImages object).length ≤ MAX_OPENAI_REFERENCE_IMAGES) (answers : ℕ → Published) :
    EditRun env baseUrl object answers (((buildHappyapiImageEditForm env (.object members)).map fun form =>
      (form.map OpenaiImageUpstreamBody.form).mapError OpenaiImageRequestError.form).run answers) := by
  obtain ⟨members', hsame, hnormalized⟩ := normalized_of_ok hobject hmembers
  obtain rfl := Value.object.inj hsame
  obtain ⟨hasked, hdone, hparts⟩ := @run_buildHappyapiImageEditForm env _ _ _ _ _ hnormalized hne answers
  have hsends : ∀ parts, SendsForm env baseUrl object answers parts ↔
      ((buildHappyapiImageEditForm env (.object members)).run answers).2 = .ok parts := by
    intro parts
    rw [hparts]
    constructor
    · intro h
      obtain ⟨other, files, -, hother, hfiles, heq⟩ := h.parts
      rw [hmembers] at hother
      obtain rfl := Value.object.inj (Except.ok.inj hother)
      exact ⟨files, hfiles, heq⟩
    · rintro ⟨files, hfiles, heq⟩
      exact ⟨hedits, hne, hbounded, members, files, hnormalized, hmembers, hfiles, heq⟩
  have hjson : ∀ requestBody, ¬ SendsJson env baseUrl object requestBody := fun _ h => hne (h.unedited hedits)
  rw [Dialogue.run_map]
  rcases houtcome : (buildHappyapiImageEditForm env (.object members)).run answers with ⟨asked, err | parts⟩
  · rw [houtcome] at hasked hsends
    refine ⟨hasked, fun _ => ⟨hedits, hbounded⟩, fun parts => ⟨fun h => (by cases h), fun h => ?_⟩,
      fun parts h => (by cases h), fun requestBody => ⟨fun h => (by cases h), fun h => absurd h (hjson requestBody)⟩⟩
    cases (hsends parts).mp h
  · rw [houtcome] at hasked hdone hsends
    have hsent := (hsends parts).mpr rfl
    refine ⟨hasked, fun _ => ⟨hedits, hbounded⟩, fun parts' => ⟨fun h => ?_, fun h => ?_⟩,
      fun parts' h => ⟨hdone parts rfl, ?_⟩, fun requestBody => ⟨fun h => (by cases h), fun h => absurd h (hjson requestBody)⟩⟩
    · obtain rfl := OpenaiImageUpstreamBody.form.inj (Except.ok.inj h)
      exact hsent
    · obtain rfl := Except.ok.inj ((hsends parts').mp h)
      rfl
    · obtain rfl := OpenaiImageUpstreamBody.form.inj (Except.ok.inj h)
      exact hsent.keepsFields hobject

/-- **Whatever is fetched, only images of the client are, in order; a form is sent exactly if the upstream edits images,
the client has some and not too many, and all of them are fetched, and the normalized body exactly if the upstream does
not edit images or the client has none.** -/
theorem imageEdit_exact (env : ImageEditEnv) (baseUrl : String) {object : Map} (hobject : Value.Distinct (.object object))
    (answers : ℕ → Published) :
    EditRun env baseUrl object answers ((openaiImageUpstreamBody env baseUrl (.object object)).run answers) := by
  unfold openaiImageUpstreamBody
  cases hbody : normalizeRequestBodyForUpstream env.parse (.object object)
      (shouldForceOpenaiImageB64JsonForUpstream env baseUrl) baseUrl with
  | error err =>
    -- neither body can be made of what is not accepted
    refine editRun_error _ (fun parts h => ?_) fun requestBody h => ?_
    · obtain ⟨members, -, -, hmembers, -⟩ := h.parts
      rw [hbody] at hmembers
      cases hmembers
    · cases hbody.symm.trans h.normalized
  | ok requestBody =>
    obtain ⟨members, rfl, hnormalized⟩ := normalized_of_ok hobject hbody
    have hcount := count_normalized hnormalized
    dsimp only
    rw [hcount]
    by_cases hmany : (clientReferenceImages object).length > MAX_OPENAI_REFERENCE_IMAGES
    · rw [if_pos hmany]
      exact editRun_error _ (fun parts h => absurd h.bounded (by omega)) fun _ h => absurd h.bounded (by omega)
    · rw [if_neg hmany]
      have hhas : openaiImageRequestHasImages (.object members) = true ↔ clientReferenceImages object ≠ [] := by
        rw [openaiImageRequestHasImages, decide_eq_true_iff, hcount, List.length_pos_iff]
      split
      · rename_i hboth
        obtain ⟨hedits, himages⟩ := Bool.and_eq_true_iff.mp hboth
        exact editRun_form hobject hbody hedits (hhas.mp himages) (by omega) answers
      · rename_i hnot
        refine editRun_json ⟨hbody, by omega, fun hedits => ?_⟩
        by_contra hne
        exact hnot (Bool.and_eq_true_iff.mpr ⟨hedits, hhas.mpr hne⟩)

end

/-- An environment whose edits go to one host. -/
def exampleImageEditEnv : ImageEditEnv where
  parseUrl := fun raw =>
    if raw = "https://e.com/a.png" then
      .ok ⟨⟨"https", some "e.com"⟩, none, Text.bytes "/a.png", none, fun _ => (by decide +kernel), by decide +kernel⟩
    else if raw = "https://happyapi.org" then
      .ok ⟨⟨"https", some "happyapi.org"⟩, none, [47], none, fun _ => rfl, by decide +kernel⟩
    else .error "relative URL without a base"
  mimeError := fun _ => none
  openaiImageB64JsonUpstreamDomains := []
  openaiImageEditsUpstreamDomains := ["happyapi.org"]

def editedObject : Map := [("prompt", .string "a cat"), ("images", .array [.string "https://e.com/a.png"])]

theorem imageEdit_exact_example : SendsForm exampleImageEditEnv "https://happyapi.org" editedObject
    (fun _ => .ok ⟨"image/png", [1]⟩) [.text "prompt" "a cat", .text "response_format" "url",
      .file "image" "a.png" "image/png" [1]] := by
  have hobject : Value.Distinct (.object editedObject) := by
    simp [editedObject, Map.keys]
  have hname : filenameFromUrl exampleImageEditEnv "https://e.com/a.png" = some "a.png" := by decide +kernel
  have hfile : imageFormPart exampleImageEditEnv "https://e.com/a.png" (.ok ⟨"image/png", [1]⟩) =
      .ok (.file "image" "a.png" "image/png" [1]) := by
    rw [imageFormPart, hname]
    rfl
  refine ((imageEdit_exact exampleImageEditEnv "https://happyapi.org" hobject _).form _).mp ?_
  have hrun : ((openaiImageUpstreamBody exampleImageEditEnv "https://happyapi.org" (.object editedObject)).run
      fun _ => .ok ⟨"image/png", [1]⟩).2 =
      ((imageFormPart exampleImageEditEnv "https://e.com/a.png" (.ok ⟨"image/png", [1]⟩)).map fun file =>
        .form [.text "prompt" "a cat", .text "response_format" "url", file]).mapError .form := by
    rfl
  rw [hrun, hfile]
  rfl

end GeminiWorker
