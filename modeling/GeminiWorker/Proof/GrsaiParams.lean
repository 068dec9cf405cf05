import GeminiWorker.Proof.ReferenceImages
import GeminiWorker.Spec.GrsaiForward

/-!
# The parameters of a request to grsai

* `GrsaiImageParams.WellFormed`: what parameters are like that a request was read as.
* `extractGeminiParams_geminiRequestOf`, `extractOpenaiParams_openaiRequestOf`: parameters are read back from a request
  that is written from them, in either format.
* `grsaiParams_exact`: the parameters that either format has.
-/

namespace GeminiWorker

open Json (Value Map)

/-- A text with something in it and nothing to trim. -/
structure Filled (text : String) : Prop where
  trimmed : Text.Trimmed text
  nonempty : text ≠ ""

structure GrsaiImageParams.WellFormed (params : GrsaiImageParams) : Prop where
  model : Filled params.model
  urls : ∀ url ∈ params.urls, Filled url
  aspectRatio : Filled params.aspectRatio
  imageSize : Filled params.imageSize

/-- The Gemini models that have another name at grsai. -/
def renamedModels : List String :=
  ["gemini-3-pro-image-preview", "gemini-2.5-flash-image", "gemini-3.1-flash-image-preview"]

/-! ## Texts -/

theorem filled_literal {text : String} (h : Text.trim text = text ∧ text ≠ "") : Filled text := ⟨h.1, h.2⟩

theorem filled_defaults : Filled "auto" ∧ Filled "1K" ∧ Filled "url" :=
  ⟨filled_literal (by decide +kernel), filled_literal (by decide +kernel), filled_literal (by decide +kernel)⟩

theorem Filled.trim {text : String} (h : Text.trim text ≠ "") : Filled (Text.trim text) := ⟨Text.trimmed_trim text, h⟩

/-- A text that is kept only if it is not blank. -/
theorem filter_trim_eq_some {found : Option String} {text : String} :
    (found.map Text.trim).filter (· != "") = some text ↔ ∃ raw, found = some raw ∧ Text.trim raw = text ∧ text ≠ "" := by
  rcases found with _ | raw
  · simp
  · rw [Option.map_some, Option.filter_eq_some_iff]
    constructor
    · rintro ⟨htext, hne⟩
      exact ⟨raw, rfl, Option.some.inj htext, by simpa using hne⟩
    · rintro ⟨raw', hraw, htext, hne⟩
      obtain rfl := Option.some.inj hraw
      exact ⟨congrArg some htext, by simpa using hne⟩

theorem filled_of_filter_trim {found : Option String} {text : String}
    (h : (found.map Text.trim).filter (· != "") = some text) : Filled text := by
  obtain ⟨raw, -, rfl, hne⟩ := filter_trim_eq_some.mp h
  exact Filled.trim hne

theorem Filled.filter_trim {text : String} (h : Filled text) : ((some text).map Text.trim).filter (· != "") = some text :=
  filter_trim_eq_some.mpr ⟨text, rfl, h.trimmed, h.nonempty⟩

/-- A text or its default. -/
theorem filter_trim_getD {P : String → Prop} {found : Option String} {default : String} (hdefault : P default)
    (h : ∀ text, Filled text → P text) : P (((found.map Text.trim).filter (· != "")).getD default) := by
  rcases hfound : (found.map Text.trim).filter (· != "") with _ | text
  · exact hdefault
  · exact h text (filled_of_filter_trim hfound)

theorem pickObjectString_spec {P : String → Prop} {object : Map} {keys : List String} {default : String}
    (hdefault : P default) (h : ∀ text, Filled text → P text) : P (pickObjectString object keys default) :=
  filter_trim_getD hdefault h

theorem pickStringOverride_spec {P : String → Prop} {queryMap : List (String × String)} {queryKeys : List String}
    {object : Option Value} {objectKeys : List String} {default : String} (hdefault : P default)
    (h : ∀ text, Filled text → P text) : P (pickStringOverride queryMap queryKeys object objectKeys default) := by
  unfold pickStringOverride
  split
  · rename_i text htext
    obtain ⟨key, -, hkey⟩ := List.exists_of_findSome?_eq_some htext
    obtain ⟨pair, hpair, rfl⟩ := Option.map_eq_some_iff.mp hkey
    have hfound := List.find?_some hpair
    rw [Bool.and_eq_true, bne_iff_ne] at hfound
    exact h _ (Filled.trim hfound.2)
  · exact filter_trim_getD hdefault h

/-! ## Models -/

theorem filled_normalizeModel (rawModel : String) (source : GrsaiSource) : Filled (normalizeModel rawModel source) := by
  have hliterals : Filled defaultModel ∧ Filled "nano-banana-pro" ∧ Filled "nano-banana-2" :=
    ⟨filled_literal (by decide +kernel), filled_literal (by decide +kernel), filled_literal (by decide +kernel)⟩
  unfold normalizeModel
  dsimp only
  split
  · exact hliterals.1
  · rename_i hne
    have hmodel : Filled (Text.trim rawModel) := Filled.trim (by simpa using hne)
    cases source with
    | gemini =>
      dsimp only
      repeat' split
      · exact hliterals.2.1
      · exact hliterals.1
      · exact hliterals.2.2
      · exact hmodel
    | openAi => exact hmodel

theorem normalizeModel_gemini_not_renamed (rawModel : String) : normalizeModel rawModel .gemini ∉ renamedModels := by
  unfold normalizeModel
  dsimp only
  repeat' split
  · decide
  · decide
  · decide
  · decide
  · rename_i hpro hflash hnext
    simp only [beq_iff_eq] at hpro hflash hnext
    simp [renamedModels, hpro, hflash, hnext]

theorem normalizeModel_of_filled {model : String} {source : GrsaiSource} (h : Filled model)
    (hsource : source = .gemini → model ∉ renamedModels) : normalizeModel model source = model := by
  have hne : (model == "") = false := beq_eq_false_iff_ne.mpr h.nonempty
  unfold normalizeModel
  rw [h.trimmed]
  dsimp only
  rw [hne, if_neg Bool.false_ne_true]
  cases source with
  | gemini =>
    have hother := hsource rfl
    simp only [renamedModels, List.mem_cons, List.not_mem_nil, or_false, not_or] at hother
    simp [hother.1, hother.2.1, hother.2.2]
  | openAi => rfl

/-! ## Reading -/

theorem extractStringArray_filled {value : Value} {urls : List String} (h : extractStringArray value = .ok urls) :
    ∀ url ∈ urls, Filled url := by
  unfold extractStringArray at h
  split at h
  · cases h
  · rename_i array harray
    rw [Except.mapM_eq_ok_iff] at h
    intro url hurl
    obtain ⟨i, hi, rfl⟩ := List.mem_iff_getElem.mp hurl
    have hitem := (List.forall₂_iff_get.mp h).2 i (h.length_eq ▸ hi) hi
    split at hitem
    · rename_i text htext
      rw [Except.ok.injEq] at hitem
      have hfilled := filled_of_filter_trim htext
      rw [hitem] at hfilled
      exact hfilled
    · cases hitem

theorem extractOpenaiParams_wellFormed {body : Value} {params : GrsaiImageParams}
    (h : extractOpenaiParams body = .ok params) : params.WellFormed ∧ Filled params.output := by
  unfold extractOpenaiParams at h
  split at h
  · cases h
  · rename_i object hobject
    have hread : ∃ urls, (∀ url ∈ urls, Filled url) ∧ params.model = normalizeModel
        ((((object.get "model").bind Value.asStr).or ((object.get "model_name").bind Value.asStr)).getD "") .openAi ∧
        params.urls = urls ∧ params.aspectRatio = pickObjectString object ["aspect_ratio", "aspectRatio"] "auto" ∧
        params.imageSize = pickObjectString object ["image_size", "imageSize"] "1K" ∧
        params.output = pickObjectString object ["output"] "url" := by
      dsimp only at h
      split at h
      · obtain ⟨urls, hurls, hparams⟩ := Except.bind_eq_ok.mp h
        obtain rfl := Except.pure_eq_ok.mp hparams
        exact ⟨urls, extractStringArray_filled hurls, rfl, rfl, rfl, rfl, rfl⟩
      · obtain ⟨urls, hurls, hparams⟩ := Except.bind_eq_ok.mp h
        obtain rfl := Except.pure_eq_ok.mp hparams
        obtain rfl := Except.ok.inj hurls
        exact ⟨[], fun url hurl => (by cases hurl), rfl, rfl, rfl, rfl, rfl⟩
    obtain ⟨urls, hfilled, hmodel, rfl, hratio, hsize, hout⟩ := hread
    obtain ⟨hauto, hone, hurl⟩ := filled_defaults
    refine ⟨⟨?_, hfilled, ?_, ?_⟩, ?_⟩
    · rw [hmodel]
      exact filled_normalizeModel _ _
    · rw [hratio]
      exact pickObjectString_spec hauto fun _ => id
    · rw [hsize]
      exact pickObjectString_spec hone fun _ => id
    · rw [hout]
      exact pickObjectString_spec hurl fun _ => id

/-- What the parameters of a Gemini request are like. -/
structure GrsaiImageParams.FromGemini (params : GrsaiImageParams) : Prop where
  wellFormed : params.WellFormed
  prompt : Text.Trimmed params.prompt
  output : Text.Trimmed params.output
  model : params.model ∉ renamedModels

theorem extractGeminiParams_wellFormed {body : Value} {rawModel : String} {query : Option (List UInt8)}
    {params : GrsaiImageParams} (h : extractGeminiParams body rawModel query = .ok params) : params.FromGemini := by
  unfold extractGeminiParams at h
  split at h
  · cases h
  · split at h
    · cases h
    · split at h
      · cases h
      · rename_i parts hparts
        obtain rfl := Except.ok.inj h
        have hurls : ∀ url ∈ parts.filterMap extractPartUrl, Filled url := by
          intro url hurl
          obtain ⟨part, -, hpart⟩ := List.mem_filterMap.mp hurl
          exact filled_of_filter_trim hpart
        obtain ⟨hauto, hone, -⟩ := filled_defaults
        refine ⟨⟨filled_normalizeModel rawModel .gemini, hurls, ?_, ?_⟩, ?_, ?_, normalizeModel_gemini_not_renamed rawModel⟩
        · dsimp only
          exact pickStringOverride_spec hauto fun _ => id
        · dsimp only
          exact pickStringOverride_spec hone fun _ => id
        · refine Text.trimmed_join _ fun text htext => ?_
          obtain ⟨hmem, hne⟩ := List.mem_filter.mp htext
          obtain ⟨raw, -, rfl⟩ := List.mem_map.mp hmem
          exact ⟨Text.trimmed_trim raw, by simpa using hne⟩
        · have hempty : Text.Trimmed "" := rfl
          dsimp only
          exact pickStringOverride_spec (P := Text.Trimmed) hempty fun _ => Filled.trimmed

/-! ## Writing -/

def openaiRequestOf (params : GrsaiImageParams) : Value :=
  .object [("model", .string params.model), ("prompt", .string params.prompt), ("urls", .array (params.urls.map .string)),
    ("aspect_ratio", .string params.aspectRatio), ("image_size", .string params.imageSize), ("output", .string params.output)]

theorem extractOpenaiParams_openaiRequestOf {params : GrsaiImageParams} (h : params.WellFormed) (houtput : Filled params.output) :
    extractOpenaiParams (openaiRequestOf params) = .ok params := by
  have hurls : extractStringArray (.array (params.urls.map .string)) = .ok params.urls := by
    have htrim : params.urls.map Text.trim = params.urls := by
      conv_rhs => rw [← List.map_id params.urls]
      exact List.map_congr_left fun url hurl => (h.urls url hurl).trimmed
    rw [extractStringArray_strings, htrim]
    exact ⟨fun hempty => (h.urls "" hempty).nonempty rfl, rfl⟩
  have hmodel := @normalizeModel_of_filled _ .openAi h.model (fun hsource => by cases hsource)
  have hratio := h.aspectRatio.filter_trim
  have hsize := h.imageSize.filter_trim
  have hout := houtput.filter_trim
  have hbody : extractOpenaiParams (openaiRequestOf params) = (extractStringArray (.array (params.urls.map .string)) >>=
      fun urls => pure {
        model := normalizeModel params.model .openAi
        prompt := params.prompt
        urls := urls
        aspectRatio := (((some params.aspectRatio).map Text.trim).filter (· != "")).getD "auto"
        imageSize := (((some params.imageSize).map Text.trim).filter (· != "")).getD "1K"
        output := (((some params.output).map Text.trim).filter (· != "")).getD "url" }) := rfl
  rw [hbody, hurls, hmodel, hratio, hsize, hout]
  rfl

/-- The parts of a Gemini request with the prompt and the images. -/
def geminiParts (params : GrsaiImageParams) : List Value :=
  .object [("text", .string params.prompt)] ::
    params.urls.map fun url => .object [("inlineData", .object [("data", .string url)])]

def geminiRequestOf (params : GrsaiImageParams) : Value :=
  .object [("contents", .array [.object [("parts", .array (geminiParts params))]]),
    ("generationConfig", .object [("imageConfig", .object [("aspectRatio", .string params.aspectRatio),
      ("imageSize", .string params.imageSize), ("output", .string params.output)])])]

theorem geminiParts_prompt {params : GrsaiImageParams} (h : Text.Trimmed params.prompt) :
    Text.join "\n" ((((geminiParts params).filterMap fun part => (part.get "text").bind Value.asStr).map Text.trim).filter
      (· != "")) = params.prompt := by
  have himages : (params.urls.map fun url => Value.object [("inlineData", .object [("data", .string url)])]).filterMap
      (fun part => (part.get "text").bind Value.asStr) = [] := by
    rw [List.filterMap_eq_nil_iff]
    intro part hpart
    obtain ⟨url, -, rfl⟩ := List.mem_map.mp hpart
    rfl
  have htext : (Value.object [("text", .string params.prompt)]).get "text" = some (.string params.prompt) := rfl
  rw [geminiParts, List.filterMap_cons, himages, htext]
  simp only [Option.bind_some, Value.asStr, List.map_cons, List.map_nil]
  rw [h]
  by_cases hprompt : params.prompt = ""
  · rw [hprompt]
    rfl
  · rw [List.filter_cons_of_pos (by simpa using hprompt), List.filter_nil, Text.join, List.map_cons, List.map_nil,
      List.intercalate_singleton, String.ofList_toList]

theorem geminiParts_urls {params : GrsaiImageParams} (h : ∀ url ∈ params.urls, Filled url) :
    (geminiParts params).filterMap extractPartUrl = params.urls := by
  have htext : extractPartUrl (.object [("text", .string params.prompt)]) = none := rfl
  have himage : ∀ url ∈ params.urls,
      extractPartUrl (.object [("inlineData", .object [("data", .string url)])]) = some url := by
    intro url hurl
    have hpart : extractPartUrl (.object [("inlineData", .object [("data", .string url)])]) =
        ((some url).map Text.trim).filter (· != "") := rfl
    rw [hpart, (h url hurl).filter_trim]
  rw [geminiParts, List.filterMap_cons, htext, List.filterMap_map]
  conv_rhs => rw [← List.filterMap_some (l := params.urls)]
  exact List.filterMap_congr himage

/-- What a query asks for under one of the names. -/
def askedFor (query : Option (List UInt8)) (keys : List String) : Option String :=
  keys.findSome? (pickQueryText (parseQueryMap query))

theorem pickStringOverride_eq {query : Option (List UInt8)} {queryKeys : List String} {object : Option Value}
    {objectKeys : List String} {default text : String}
    (h : (((object.bind fun value => objectKeys.findSome? fun key => (value.get key).bind Value.asStr).map Text.trim).filter
      (· != "")).getD default = text) :
    pickStringOverride (parseQueryMap query) queryKeys object objectKeys default = (askedFor query queryKeys).getD text := by
  unfold pickStringOverride askedFor
  rcases queryKeys.findSome? (pickQueryText (parseQueryMap query)) with _ | asked
  · exact h
  · rfl

/-- **The parameters are read back from the request, but for what the query asks for.** -/
theorem extractGeminiParams_geminiRequestOf {params : GrsaiImageParams} (h : params.FromGemini) (query : Option (List UInt8)) :
    extractGeminiParams (geminiRequestOf params) params.model query = .ok { params with
      aspectRatio := (askedFor query ["aspectRatio", "aspect_ratio"]).getD params.aspectRatio
      imageSize := (askedFor query ["imageSize", "image_size"]).getD params.imageSize
      output := (askedFor query ["output"]).getD params.output } := by
  let imageConfig : Option Value := some (.object [("aspectRatio", .string params.aspectRatio),
    ("imageSize", .string params.imageSize), ("output", .string params.output)])
  have hbody : extractGeminiParams (geminiRequestOf params) params.model query = .ok {
      model := normalizeModel params.model .gemini
      prompt := Text.join "\n" ((((geminiParts params).filterMap fun part => (part.get "text").bind Value.asStr).map
        Text.trim).filter (· != ""))
      urls := (geminiParts params).filterMap extractPartUrl
      aspectRatio := pickStringOverride (parseQueryMap query) ["aspectRatio", "aspect_ratio"] imageConfig
        ["aspectRatio", "aspect_ratio"] "auto"
      imageSize := pickStringOverride (parseQueryMap query) ["imageSize", "image_size"] imageConfig
        ["imageSize", "image_size"] "1K"
      output := pickStringOverride (parseQueryMap query) ["output"] imageConfig ["output"] "" } := rfl
  have hratio : pickStringOverride (parseQueryMap query) ["aspectRatio", "aspect_ratio"] imageConfig
      ["aspectRatio", "aspect_ratio"] "auto" =
        (askedFor query ["aspectRatio", "aspect_ratio"]).getD params.aspectRatio := by
    refine pickStringOverride_eq ?_
    show (((some params.aspectRatio).map Text.trim).filter (· != "")).getD "auto" = params.aspectRatio
    rw [h.wellFormed.aspectRatio.filter_trim, Option.getD_some]
  have hsize : pickStringOverride (parseQueryMap query) ["imageSize", "image_size"] imageConfig
      ["imageSize", "image_size"] "1K" = (askedFor query ["imageSize", "image_size"]).getD params.imageSize := by
    refine pickStringOverride_eq ?_
    show (((some params.imageSize).map Text.trim).filter (· != "")).getD "1K" = params.imageSize
    rw [h.wellFormed.imageSize.filter_trim, Option.getD_some]
  have houtput : pickStringOverride (parseQueryMap query) ["output"] imageConfig ["output"] "" =
      (askedFor query ["output"]).getD params.output := by
    refine pickStringOverride_eq ?_
    show (((some params.output).map Text.trim).filter (· != "")).getD "" = params.output
    by_cases hempty : params.output = ""
    · rw [hempty]
      rfl
    · rw [(Filled.mk h.output hempty).filter_trim, Option.getD_some]
  rw [hbody, geminiParts_prompt h.prompt, geminiParts_urls h.wellFormed.urls, hratio, hsize, houtput,
    normalizeModel_of_filled h.wellFormed.model fun _ => h.model]

/-- **The parameters that either format has**: those that a request can be written from, and the query of a Gemini request
goes before its body. -/
theorem grsaiParams_exact (params : GrsaiImageParams) :
    ((∃ body rawModel query, extractGeminiParams body rawModel query = .ok params) ↔ params.FromGemini) ∧
      ((∃ body, extractOpenaiParams body = .ok params) ↔ params.WellFormed ∧ Filled params.output) ∧
      (params.FromGemini → ∀ query, extractGeminiParams (geminiRequestOf params) params.model query = .ok { params with
        aspectRatio := (askedFor query ["aspectRatio", "aspect_ratio"]).getD params.aspectRatio
        imageSize := (askedFor query ["imageSize", "image_size"]).getD params.imageSize
        output := (askedFor query ["output"]).getD params.output }) := by
  refine ⟨⟨?_, fun h => ⟨geminiRequestOf params, params.model, none, extractGeminiParams_geminiRequestOf h none⟩⟩,
    ⟨?_, fun h => ⟨openaiRequestOf params, extractOpenaiParams_openaiRequestOf h.1 h.2⟩⟩,
    extractGeminiParams_geminiRequestOf⟩
  · rintro ⟨body, rawModel, query, h⟩
    exact extractGeminiParams_wellFormed h
  · rintro ⟨body, h⟩
    exact extractOpenaiParams_wellFormed h

end GeminiWorker
