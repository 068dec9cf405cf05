import GeminiWorker.Lib.Except
import GeminiWorker.Lib.JsonParse
import GeminiWorker.Spec.OpenaiImage
import GeminiWorker.Spec.Provider
import GeminiWorker.Spec.Grsai

/-!
# Reference images on the way to grsai

The normalized body carries all reference images under one alias; the grsai request
reads `urls` or else `images`. The images arrive exactly when these two choices meet.

* `collectAliases_ok`: what merging the aliases collects, and what it leaves.
* `normalizeRequestBody_ok`: the fields of a normalized body.
* `referenceImagesSurvive_iff`: the images reach the `urls` of the grsai request if
  and only if the client used `images` (and not `image` or `urls`), or repeated them
  in `urls`, or sent none.
-/

namespace GeminiWorker

open Json (Value Map)

variable {parse : UrlParser}

/-- The strings of the array at one alias. -/
def referenceImagesAt (object : Map) (field : String) : List String :=
  match object.get field with
  | some (.array items) => items.filterMap Value.asStr
  | _ => []

/-- The reference images a client gave, in the normalized order. -/
def clientReferenceImages (object : Map) : List String :=
  imageFieldAliases.flatMap (referenceImagesAt object)

/-- The `urls` of a grsai request body. -/
def grsaiUrls (body : Value) : List String :=
  ((body.get "urls").bind Value.asArray).getD [] |>.filterMap Value.asStr

@[simp] theorem grsaiUrls_build (params : GrsaiImageParams) :
    grsaiUrls (buildGrsaiRequestBody params) = params.urls := by
  have hget : (buildGrsaiRequestBody params).get "urls" =
      some (.array (params.urls.map .string)) := rfl
  simp only [grsaiUrls, hget, Option.bind_some, Value.asArray, Option.getD_some]
  induction params.urls with
  | nil => rfl
  | cons u us ih => simpa [Value.asStr] using ih

theorem collectItems_ok {field : String} {items : List Value} :
    ∀ {images : List String}, collectItems parse field items = .ok images →
      items.filterMap Value.asStr = images := by
  induction items with
  | nil => intro images h; simpa [collectItems] using h
  | cons item items ih =>
    intro images h
    unfold collectItems at h
    split at h
    · cases h
    · rename_i raw hraw
      obtain ⟨-, -, h⟩ := Except.bind_eq_ok.1 h
      obtain ⟨rest, hrest, h⟩ := Except.bind_eq_ok.1 h
      rw [Except.pure_eq_ok] at h
      rw [List.filterMap_cons, hraw, ih hrest, ← h]

/-- **Merging the aliases** collects their strings in order and removes exactly them. -/
theorem collectAliases_ok {fields : List String} :
    ∀ {object : Map} {images : List String} {rest : Map}, fields.Nodup → object.keys.Nodup →
      collectAliases parse fields object = .ok (images, rest) →
      images = fields.flatMap (referenceImagesAt object) ∧ rest.keys.Nodup ∧
        ∀ key, rest.get key = if key ∈ fields then none else object.get key := by
  induction fields with
  | nil =>
    intro object images rest _ hd h
    simp only [collectAliases, Except.ok.injEq, Prod.mk.injEq] at h
    obtain ⟨rfl, rfl⟩ := h
    exact ⟨rfl, hd, by simp⟩
  | cons field fields ih =>
    intro object images rest hn hd h
    obtain ⟨hnot, hn⟩ := List.nodup_cons.1 hn
    unfold collectAliases at h
    split at h
    · -- an absent alias is skipped
      rename_i hget
      obtain ⟨himg, hrd, hrest⟩ := ih hn hd h
      refine ⟨by rw [himg, List.flatMap_cons]; simp [referenceImagesAt, hget], hrd, fun key => ?_⟩
      rw [hrest key]
      by_cases hk : key = field
      · subst hk; simp [hget]
      · simp [hk]
    · rename_i value hget
      split at h
      · cases h
      · rename_i items hitems
        obtain ⟨own, hown, h⟩ := Except.bind_eq_ok.1 h
        obtain ⟨⟨more, rest'⟩, hmore, h⟩ := Except.bind_eq_ok.1 h
        rw [Except.pure_eq_ok, Prod.mk.injEq] at h
        obtain ⟨rfl, rfl⟩ := h
        obtain ⟨himg, hrd, hrest⟩ := ih hn (Map.nodup_remove hd field) hmore
        have hval : value = .array items := by
          cases value <;> simp_all [Value.asArray]
        have hsame : fields.flatMap (referenceImagesAt (object.remove field)) =
            fields.flatMap (referenceImagesAt object) := by
          apply List.flatMap_congr
          intro other hother
          have hne : other ≠ field := fun he => hnot (he ▸ hother)
          simp [referenceImagesAt, Map.get_remove hd, hne]
        refine ⟨?_, hrd, fun key => ?_⟩
        · rw [List.flatMap_cons, himg, hsame]
          simp [referenceImagesAt, hget, hval, collectItems_ok hown]
        · rw [hrest key, Map.get_remove hd]
          by_cases hk : key = field <;> simp [hk]

/-- The alias a normalized body keeps: the first present one of `image`, `images`,
`reference_images`. -/
def targetAlias (object : Map) : Option String :=
  imageFieldAliases.reverse.find? object.containsKey

/-- **The fields of a normalized body.** -/
theorem normalizeRequestBody_ok {body normalized : Value} {forceB64Json : Bool}
    (hb : body.Distinct) (h : normalizeRequestBody parse body forceB64Json = .ok normalized) :
    ∃ (object out : Map), body = .object object ∧ normalized = .object out ∧
      object.keys.Nodup ∧
      (∀ key, key ∉ imageFieldAliases → key ≠ "response_format" → Map.get out key = object.get key) ∧
      ∀ field ∈ imageFieldAliases, Map.get out field =
        if targetAlias object = some field then
          some (.array ((clientReferenceImages object).map .string)) else none := by
  unfold normalizeRequestBody at h
  split at h
  · cases h
  rename_i object hobj
  have hbody : body = .object object := by cases body <;> simp_all [Value.asObject]
  have hd : object.keys.Nodup := by rw [hbody, Value.distinct_object] at hb; exact hb.1
  dsimp only at h
  split at h
  · cases h
  obtain ⟨⟨field?, rest⟩, hcol, h⟩ := Except.bind_eq_ok.1 h
  unfold collectReferenceImages at hcol
  obtain ⟨⟨images, rest'⟩, hmerge, hcol⟩ := Except.bind_eq_ok.1 hcol
  simp only [Except.pure_eq_ok, Prod.mk.injEq] at h hcol
  obtain ⟨rfl, rfl⟩ := hcol
  obtain ⟨rfl, -, hrest⟩ := collectAliases_ok (by decide) hd hmerge
  refine ⟨object, _, hbody, h.symm, hd, fun key hkey hrf => ?_, fun field hfield => ?_⟩
  · rw [Map.get_insert, if_neg hrf]
    cases ht : imageFieldAliases.reverse.find? object.containsKey with
    | none => simp [hrest key, hkey]
    | some t =>
      have htm : t ∈ imageFieldAliases := by simpa using List.mem_of_find?_eq_some ht
      have hne : key ≠ t := fun he => hkey (he ▸ htm)
      simp [Map.get_insert, hne, hrest key, hkey]
  · have hrf : field ≠ "response_format" := by
      intro he; subst he; revert hfield; decide
    rw [Map.get_insert, if_neg hrf]
    unfold targetAlias clientReferenceImages
    cases ht : imageFieldAliases.reverse.find? object.containsKey with
    | none => simp [hrest field, hfield]
    | some t =>
      simp only [Option.map_some, Map.get_insert, Option.some.injEq]
      by_cases he : field = t
      · simp [he]
      · rw [if_neg he, if_neg (Ne.symm he), hrest field, if_pos hfield]

/-- An array of texts is extracted trimmed, and rejected exactly for a blank one. -/
theorem extractStringArray_strings {texts out : List String} :
    extractStringArray (.array (texts.map .string)) = .ok out ↔
      "" ∉ texts.map Text.trim ∧ out = texts.map Text.trim := by
  have hok : "" ∉ texts.map Text.trim →
      extractStringArray (.array (texts.map .string)) = .ok (texts.map Text.trim) := by
    intro hne
    unfold extractStringArray
    simp only [Value.asArray]
    rw [Except.mapM_eq_ok (g := fun v => Text.trim (v.asStr.getD ""))]
    · simp [List.map_map, Function.comp_def, Value.asStr]
    · intro v hv
      obtain ⟨t, ht, rfl⟩ := List.mem_map.1 hv
      have htrim : Text.trim t ≠ "" := fun he => hne (he ▸ List.mem_map_of_mem ht)
      simp [Value.asStr, Option.filter, htrim]
  constructor
  · intro hout
    have hne : "" ∉ texts.map Text.trim := by
      intro hne
      obtain ⟨t, ht, htrim⟩ := List.mem_map.1 hne
      unfold extractStringArray at hout
      simp only [Value.asArray] at hout
      refine Except.mapM_ne_ok (a := Value.string t) ?_ (List.mem_map_of_mem ht) out hout
      intro b hb
      simp [Value.asStr, Option.filter, htrim] at hb
    rw [hok hne] at hout
    exact ⟨hne, (Except.ok.inj hout).symm⟩
  · rintro ⟨hne, rfl⟩
    exact hok hne

/-- What is extracted is an array of texts, none of them blank. -/
theorem extractStringArray_eq_ok {value : Value} {out : List String} :
    extractStringArray value = .ok out ↔
      ∃ texts : List String, value = .array (texts.map .string) ∧ "" ∉ texts.map Text.trim ∧ out = texts.map Text.trim := by
  constructor
  · intro h
    obtain ⟨texts, rfl⟩ : ∃ texts : List String, value = .array (texts.map .string) := by
      unfold extractStringArray at h
      split at h
      · cases h
      · rename_i array harray
        -- one item that is no text, and nothing is extracted
        have hstring : ∀ item ∈ array, Value.string (item.asStr.getD "") = item := by
          intro item hitem
          rcases hread : item.asStr with _ | text
          · refine absurd h (Except.mapM_ne_ok (fun b hb => ?_) hitem out)
            rw [hread] at hb
            cases hb
          · cases item <;> cases hread
            rfl
        refine ⟨array.map fun item => item.asStr.getD "", ?_⟩
        have hmap : (array.map fun item => item.asStr.getD "").map Value.string = array := by
          rw [List.map_map]
          exact (List.map_congr_left (g := id) hstring).trans (List.map_id array)
        rw [hmap]
        cases value <;> cases harray
        rfl
    exact ⟨texts, rfl, extractStringArray_strings.mp h⟩
  · rintro ⟨texts, rfl, hout⟩
    exact extractStringArray_strings.mpr hout

theorem targetAlias_images {object : Map} :
    targetAlias object = some "images" ↔
      object.containsKey "image" = false ∧ object.containsKey "images" = true := by
  unfold targetAlias
  have hrev : imageFieldAliases.reverse = ["image", "images", "reference_images"] := by decide
  rw [hrev]
  cases himage : object.containsKey "image" <;> cases himages : object.containsKey "images" <;>
    cases hrefs : object.containsKey "reference_images" <;> simp [List.find?, *]

/-- The `urls` of the extracted parameters, from the fields of the object alone. -/
theorem extractOpenaiParams_urls {object : Map} {urls : List String} :
    (∃ params, extractOpenaiParams (.object object) = .ok params ∧ params.urls = urls) ↔
      (match (object.get "urls").or (object.get "images") with
        | some value => extractStringArray value
        | none => .ok []) = .ok urls := by
  unfold extractOpenaiParams
  simp only [Value.asObject]
  cases (object.get "urls").or (object.get "images") with
  | none =>
    constructor
    · rintro ⟨params, h, rfl⟩
      rw [← Except.ok.inj h]
    · intro h
      exact ⟨_, rfl, Except.ok.inj h⟩
  | some value =>
    constructor
    · rintro ⟨params, h, rfl⟩
      obtain ⟨urls, hurls, h⟩ := Except.bind_eq_ok.1 h
      rw [← Except.ok.inj h]
      exact hurls
    · intro h
      exact ⟨_, Except.bind_eq_ok.2 ⟨urls, h, rfl⟩, rfl⟩

/-- A base URL of grsai is not the host whose bodies are renamed. -/
theorem host_ne_tianyue_of_grsai {baseUrl : String}
    (h : resolveProvider parse baseUrl = .grsai) :
    (parse baseUrl).bind ParsedUrl.hostStr ≠ some "api.tianyue.xyz" := by
  intro hhost
  have hgrsai : isGrsaiBaseUrl parse baseUrl = true := by
    by_contra hnot
    unfold resolveProvider at h
    rw [if_neg hnot] at h
    split at h <;> cases h
  unfold isGrsaiBaseUrl parseHost at hgrsai
  rw [hhost] at hgrsai
  revert hgrsai
  decide

/-- The images the client gave arrive, none lost and in order, in the grsai request
built from the normalized body, whenever one is built. -/
def ReferenceImagesSurvive (body normalized : Value) : Prop :=
  ∀ params, extractOpenaiParams normalized = .ok params →
    (clientReferenceImages (body.asObject.getD [])).Sublist
      (grsaiUrls (buildGrsaiRequestBody params))

/-- The alias the images are merged into is the one grsai reads: there are none, or
`urls` repeats them where it is an array of texts that are not blank (any other is
rejected), or without `urls` they stay under `images` (and trimming them changes nothing,
or a blank one is rejected). -/
def ImagesUnderReadField (object : Map) : Prop :=
  let images := clientReferenceImages object
  images = [] ∨
    match object.get "urls" with
    | some value => ∀ texts : List String, value = .array (texts.map .string) → "" ∉ texts.map Text.trim →
        images.Sublist (texts.map Text.trim)
    | none => object.containsKey "image" = false ∧ object.containsKey "images" = true ∧
        (images.map Text.trim = images ∨ "" ∈ images.map Text.trim)

/-- **Reference images on the way to grsai, exactly.** The images of an accepted body reach
the grsai request if and only if the client put them where grsai reads them. -/
theorem referenceImagesSurvive_iff (parse : UrlParser) (body : Json.Document)
    (normalized : Value) (forceB64Json : Bool) (baseUrl : String)
    (hgrsai : resolveProvider parse baseUrl = .grsai)
    (haccepted : normalizeRequestBodyForUpstream parse body forceB64Json baseUrl =
      .ok normalized) :
    ReferenceImagesSurvive body normalized ↔
      ImagesUnderReadField (body.val.asObject.getD []) := by
  obtain ⟨body, hdistinct, _⟩ := body
  have hnorm : normalizeRequestBody parse body forceB64Json = .ok normalized := by
    unfold normalizeRequestBodyForUpstream at haccepted
    obtain ⟨out, hout, h⟩ := Except.bind_eq_ok.1 haccepted
    rw [if_neg (by simpa using host_ne_tianyue_of_grsai hgrsai)] at h
    rw [hout, ← Except.pure_eq_ok.1 h]
  obtain ⟨object, out, rfl, rfl, -, hother, halias⟩ := normalizeRequestBody_ok hdistinct hnorm
  have hurls : Map.get out "urls" = object.get "urls" := hother _ (by decide) (by decide)
  have himages := halias "images" (by decide)
  simp only [Value.asObject, Option.getD_some]
  -- what arrives, as a statement about the fields of the normalized object
  have hsurvive : ReferenceImagesSurvive (.object object) (.object out) ↔
      ∀ urls, (match (Map.get out "urls").or (Map.get out "images") with
        | some value => extractStringArray value
        | none => .ok []) = .ok urls → (clientReferenceImages object).Sublist urls := by
    unfold ReferenceImagesSurvive
    constructor
    · intro h urls hread
      obtain ⟨params, hparams, rfl⟩ := extractOpenaiParams_urls.2 hread
      simpa [Value.asObject] using h params hparams
    · intro h params hparams
      have := h params.urls (extractOpenaiParams_urls.1 ⟨params, hparams, rfl⟩)
      simpa [Value.asObject] using this
  rw [hsurvive, hurls, himages]
  unfold ImagesUnderReadField
  dsimp only
  generalize hI : clientReferenceImages object = images
  cases hu : object.get "urls" with
  | some value =>
    simp only [Option.some_or]
    simp only [extractStringArray_eq_ok]
    constructor
    · intro h
      exact Or.inr fun texts hvalue hblank => h _ ⟨texts, hvalue, hblank, rfl⟩
    · rintro (rfl | h) urls ⟨texts, hvalue, hblank, rfl⟩
      · exact List.nil_sublist _
      · exact h texts hvalue hblank
  | none =>
    simp only [Option.none_or]
    rw [← and_assoc, ← targetAlias_images]
    by_cases ht : targetAlias object = some "images"
    · simp only [ht, if_true, true_and, extractStringArray_strings]
      constructor
      · intro h
        by_cases hblank : "" ∈ images.map Text.trim
        · exact Or.inr (Or.inr hblank)
        · -- a sublist of its own trimmed list has the same length, so it is that list
          have hsub := h _ ⟨hblank, rfl⟩
          exact Or.inr (Or.inl (hsub.eq_of_length (by simp)).symm)
      · rintro (rfl | htrim | hblank) urls ⟨hnoblank, rfl⟩
        · exact List.nil_sublist _
        · rw [htrim]
        · exact absurd hblank hnoblank
    · simp only [ht, if_false, false_and, or_false]
      constructor
      · intro h
        exact List.sublist_nil.1 (h [] rfl)
      · rintro rfl urls _
        exact List.nil_sublist _

/-- The parser at the two URLs of the examples. -/
def parseGrsaiExample : UrlParser := fun raw =>
  if raw = "https://grsai.com" then some ⟨"https", some "grsai.com"⟩
  else if raw = "https://e.com/a.png" then some ⟨"https", some "e.com"⟩
  else none

/-- A body that gives one reference image under the named field. -/
def imageBody (field : String) : Json.Document :=
  ⟨.object [(field, .array [.string "https://e.com/a.png"])], by simp [Map.keys]⟩

/-- Its normalized form. -/
def normalizedImageBody (field : String) : Value :=
  .object [(field, .array [.string "https://e.com/a.png"]), ("response_format", .string "url")]

/-- Under `images`, the reference image arrives. -/
theorem images_alias_keeps_reference_image :
    ReferenceImagesSurvive (imageBody "images") (normalizedImageBody "images") := by
  refine (referenceImagesSurvive_iff parseGrsaiExample (imageBody "images") _ false
    "https://grsai.com" (by decide +kernel) rfl).2 (Or.inr ?_)
  exact ⟨by decide, by decide, Or.inl (by decide +kernel)⟩

/-- **Under `image`, the reference image is lost.** -/
theorem image_alias_loses_reference_image :
    resolveProvider parseGrsaiExample "https://grsai.com" = .grsai ∧
      normalizeRequestBodyForUpstream parseGrsaiExample (imageBody "image").val false
        "https://grsai.com" = .ok (normalizedImageBody "image") ∧
      ¬ ReferenceImagesSurvive (imageBody "image") (normalizedImageBody "image") := by
  refine ⟨by decide +kernel, rfl, fun h => ?_⟩
  have hsub := h _ rfl
  rw [grsaiUrls_build] at hsub
  have hlen := hsub.length_le
  revert hlen
  decide

end GeminiWorker
