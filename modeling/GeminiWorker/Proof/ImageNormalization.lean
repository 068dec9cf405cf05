import GeminiWorker.Proof.ReferenceImages

/-!
# Normalized image requests

Which bodies `normalize_request_body_for_upstream` accepts, and what it makes of them.

* `collectAliases_isOk`: merging succeeds exactly if every alias is an array of image URLs.
* `normalizeRequestBody_eq_ok`: the body before the renaming for one host.
* `renameToImages_one`: the renaming moves the one alias there is to `images`.
* `normalizes`: what is accepted, and every field of the result.
-/

namespace GeminiWorker

open Json (Value Map)

section

variable {parse : UrlParser}

/-! ## What is accepted -/

/-- An http or https URL with a host. -/
def IsReferenceUrl (parse : UrlParser) (raw : String) : Prop :=
  ∃ parsed, parse raw = some parsed ∧ parsed.isHttp = true ∧ Text.trim (parsed.hostStr.getD "") ≠ ""

/-- An array of such URLs. -/
def IsReferenceArray (parse : UrlParser) (value : Value) : Prop :=
  ∃ urls : List String, value = .array (urls.map .string) ∧ ∀ raw ∈ urls, IsReferenceUrl parse raw

structure Acceptable (parse : UrlParser) (object : Map) : Prop where
  format : ∀ text, object.get "response_format" = some (.string text) → Text.eqIgnoreAsciiCase text "url" = true
  images : ∀ field ∈ imageFieldAliases, ∀ value, object.get field = some value → IsReferenceArray parse value

theorem validateReferenceImageUrl_eq_ok {raw : String} :
    validateReferenceImageUrl parse raw = .ok () ↔ IsReferenceUrl parse raw := by
  unfold validateReferenceImageUrl IsReferenceUrl
  rcases parse raw with _ | parsed
  · simp
  · dsimp only
    rcases hhttp : parsed.isHttp
    · simp [hhttp]
    · by_cases hhost : Text.trim (parsed.hostStr.getD "") = ""
      · simp [hhost]
      · simp [hhttp, hhost]

theorem collectItems_isOk {field : String} {items : List Value} :
    (∃ images, collectItems parse field items = .ok images) ↔ IsReferenceArray parse (.array items) := by
  induction items with
  | nil => exact ⟨fun _ => ⟨[], rfl, nofun⟩, fun _ => ⟨[], rfl⟩⟩
  | cons item items ih =>
    constructor
    · rintro ⟨images, h⟩
      unfold collectItems at h
      split at h
      · cases h
      · rename_i raw hraw
        obtain ⟨⟨⟩, hvalid, h⟩ := Except.bind_eq_ok.mp h
        obtain ⟨rest, hrest, -⟩ := Except.bind_eq_ok.mp h
        obtain ⟨urls, hurls, hall⟩ := ih.mp ⟨rest, hrest⟩
        have hitem : item = .string raw := by
          cases item <;> cases hraw
          rfl
        refine ⟨raw :: urls, ?_, fun r hr => ?_⟩
        · rw [hitem, List.map_cons, ← Value.array.inj hurls]
        · rcases List.mem_cons.mp hr with rfl | hr
          · exact validateReferenceImageUrl_eq_ok.mp hvalid
          · exact hall r hr
    · rintro ⟨_ | ⟨raw, urls⟩, hurls, hall⟩
      · cases hurls
      · obtain ⟨rfl, hitems⟩ := List.cons.inj (Value.array.inj hurls)
        obtain ⟨rest, hrest⟩ := ih.mpr ⟨urls, congrArg Value.array hitems, fun r hr => hall r (by simp [hr])⟩
        have hvalid := validateReferenceImageUrl_eq_ok.mpr (hall raw List.mem_cons_self)
        refine ⟨raw :: rest, ?_⟩
        show (do validateReferenceImageUrl parse raw; let images ← collectItems parse field items
                 return raw :: images : Except String (List String)) = _
        rw [hvalid, hrest]
        rfl

/-- **Merging succeeds exactly if every alias that is there is an array of image URLs.** -/
theorem collectAliases_isOk {fields : List String} : ∀ {object : Map}, fields.Nodup → object.keys.Nodup →
    ((∃ result, collectAliases parse fields object = .ok result) ↔
      ∀ field ∈ fields, ∀ value, object.get field = some value → IsReferenceArray parse value) := by
  induction fields with
  | nil => exact fun _ _ => ⟨fun _ => nofun, fun _ => ⟨_, rfl⟩⟩
  | cons field fields ih =>
    intro object hnodup hkeys
    obtain ⟨hnot, hnodup⟩ := List.nodup_cons.mp hnodup
    unfold collectAliases
    rcases hget : object.get field with _ | value
    · dsimp only
      rw [ih hnodup hkeys, List.forall_mem_cons, hget]
      simp
    · dsimp only
      -- removing one alias leaves the others
      have hothers : (∀ other ∈ fields, ∀ v, (object.remove field).get other = some v → IsReferenceArray parse v) ↔
          ∀ other ∈ fields, ∀ v, object.get other = some v → IsReferenceArray parse v := by
        refine forall₂_congr fun other hother => ?_
        have hne : other ≠ field := fun heq => hnot (heq ▸ hother)
        rw [Map.get_remove hkeys, if_neg hne]
      have hfield : (∀ v, object.get field = some v → IsReferenceArray parse v) ↔ IsReferenceArray parse value := by
        rw [hget]
        simp
      rw [List.forall_mem_cons, hfield, ← hothers, ← ih hnodup (Map.nodup_remove hkeys field)]
      cases value with
      | array items =>
        rw [← @collectItems_isOk parse field items]
        constructor
        · rintro ⟨result, h⟩
          obtain ⟨images, himages, h⟩ := Except.bind_eq_ok.mp h
          obtain ⟨rest, hrest, -⟩ := Except.bind_eq_ok.mp h
          exact ⟨⟨images, himages⟩, rest, hrest⟩
        · rintro ⟨⟨images, himages⟩, ⟨more, rest⟩, hrest⟩
          exact ⟨(images ++ more, rest), Except.bind_eq_ok.mpr ⟨images, himages,
            Except.bind_eq_ok.mpr ⟨(more, rest), hrest, rfl⟩⟩⟩
      | null | bool | number | string | object =>
        constructor
        · rintro ⟨result, h⟩
          cases h
        · rintro ⟨⟨urls, hurls, -⟩, -⟩
          cases hurls

/-! ## The body before the renaming -/

/-- The object with the images merged and the response format set. -/
def merged (object rest : Map) (images : List String) (forceB64Json : Bool) : Map :=
  let withImages := match targetAlias object with
    | some field => Map.insert rest field (.array (images.map .string))
    | none => rest
  Map.insert withImages "response_format" (.string (if forceB64Json then "b64_json" else "url"))

theorem responseFormat_iff (object : Map) :
    Text.eqIgnoreAsciiCase (((object.get "response_format").bind Value.asStr).getD "url") "url" = true ↔
      ∀ text, object.get "response_format" = some (.string text) → Text.eqIgnoreAsciiCase text "url" = true := by
  have hdefault : Text.eqIgnoreAsciiCase "url" "url" = true := beq_self_eq_true _
  rcases object.get "response_format" with _ | value
  · exact ⟨fun _ => nofun, fun _ => hdefault⟩
  · cases value with
    | string text =>
      constructor
      · intro h t ht
        obtain rfl := Value.string.inj (Option.some.inj ht)
        exact h
      · exact fun h => h text rfl
    | null | bool | number | array | object =>
      constructor
      · intro _ text htext
        cases htext
      · exact fun _ => hdefault

theorem normalizeRequestBody_eq_ok {object : Map} {forceB64Json : Bool} {normalized : Value} :
    normalizeRequestBody parse (.object object) forceB64Json = .ok normalized ↔
      (∀ text, object.get "response_format" = some (.string text) → Text.eqIgnoreAsciiCase text "url" = true) ∧
      ∃ images rest, collectAliases parse imageFieldAliases object = .ok (images, rest) ∧
        normalized = .object (merged object rest images forceB64Json) := by
  rw [← responseFormat_iff]
  unfold normalizeRequestBody
  simp only [Value.asObject]
  by_cases hformat : Text.eqIgnoreAsciiCase (((object.get "response_format").bind Value.asStr).getD "url") "url" = true
  · rw [hformat, Bool.not_true, if_neg Bool.false_ne_true]
    unfold collectReferenceImages merged targetAlias
    constructor
    · intro h
      obtain ⟨⟨field?, rest⟩, hcollect, h⟩ := Except.bind_eq_ok.mp h
      obtain ⟨⟨images, rest'⟩, hmerge, hcollect⟩ := Except.bind_eq_ok.mp hcollect
      rw [Except.pure_eq_ok, Prod.mk.injEq] at hcollect
      obtain ⟨rfl, rfl⟩ := hcollect
      refine ⟨rfl, images, rest', hmerge, ?_⟩
      rw [← Except.pure_eq_ok.mp h]
      rcases imageFieldAliases.reverse.find? object.containsKey with _ | field <;> rfl
    · rintro ⟨-, images, rest, hmerge, rfl⟩
      refine Except.bind_eq_ok.mpr ⟨_, Except.bind_eq_ok.mpr ⟨_, hmerge, rfl⟩, ?_⟩
      rcases imageFieldAliases.reverse.find? object.containsKey with _ | field <;> rfl
  · rw [Bool.eq_false_iff.mpr hformat]
    constructor
    · intro h
      cases h
    · rintro ⟨h, -⟩
      cases h

theorem normalizeRequestBody_isOk {object : Map} (hkeys : object.keys.Nodup) (forceB64Json : Bool) :
    (∃ normalized, normalizeRequestBody parse (.object object) forceB64Json = .ok normalized) ↔
      Acceptable parse object := by
  constructor
  · rintro ⟨normalized, h⟩
    obtain ⟨hformat, images, rest, hmerge, -⟩ := normalizeRequestBody_eq_ok.mp h
    exact ⟨hformat, (collectAliases_isOk (by decide) hkeys).mp ⟨_, hmerge⟩⟩
  · intro h
    obtain ⟨⟨images, rest⟩, hmerge⟩ := (collectAliases_isOk (by decide) hkeys).mpr h.images
    exact ⟨_, normalizeRequestBody_eq_ok.mpr ⟨h.format, images, rest, hmerge, rfl⟩⟩

theorem nodup_merged {object rest : Map} (hrest : rest.keys.Nodup) (images : List String) (forceB64Json : Bool) :
    (merged object rest images forceB64Json).keys.Nodup := by
  unfold merged
  apply Map.nodup_insert
  split
  · exact Map.nodup_insert hrest _ _
  · exact hrest

theorem format_merged (object rest : Map) (images : List String) (forceB64Json : Bool) :
    (merged object rest images forceB64Json).get "response_format" =
      some (.string (if forceB64Json then "b64_json" else "url")) := by
  unfold merged
  rw [Map.get_insert, if_pos rfl]

/-! ## The renaming for one host -/

theorem get_rewriteTianyueModel {object : Map} {key : String} (hkey : key ≠ "model") :
    (rewriteTianyueModel object).get key = object.get key := by
  unfold rewriteTianyueModel
  split
  · split
    · rw [Map.get_insert, if_neg hkey]
    · rfl
  · rfl

theorem nodup_rewriteTianyueModel {object : Map} (h : object.keys.Nodup) : (rewriteTianyueModel object).keys.Nodup := by
  unfold rewriteTianyueModel
  split
  · split
    · exact Map.nodup_insert h _ _
    · exact h
  · exact h

theorem get_renameToImages {object : Map} (h : object.keys.Nodup) (field key : String) :
    (renameToImages object field).get key =
      if (object.get field).isSome then (if key = "images" then object.get field
        else if key = field then none else object.get key)
      else object.get key := by
  unfold renameToImages
  rcases hfield : object.get field with _ | images
  · rfl
  · dsimp only
    rw [Map.get_insert, Map.get_remove h, Option.isSome_some, if_pos rfl]

theorem nodup_renameToImages {object : Map} (h : object.keys.Nodup) (field : String) :
    (renameToImages object field).keys.Nodup := by
  unfold renameToImages
  split
  · exact Map.nodup_insert (Map.nodup_remove h field) _ _
  · exact h

/-- The images are under the one alias, if under any. -/
def UnderAlias (object : Map) (field? : Option String) (images : Value) : Prop :=
  ∀ field ∈ imageFieldAliases, object.get field = if field? = some field then some images else none

/-- **A round of the renaming** moves the images if they are under its field. -/
theorem UnderAlias.renameToImages {object : Map} {field? : Option String} {images : Value} {field : String}
    (h : UnderAlias object field? images) (hkeys : object.keys.Nodup) (hfield : field ∈ imageFieldAliases) :
    UnderAlias (renameToImages object field) (if field? = some field then some "images" else field?) images ∧
      ∀ key ∉ imageFieldAliases, (GeminiWorker.renameToImages object field).get key = object.get key := by
  have hget := h field hfield
  by_cases hmoved : field? = some field
  · rw [if_pos hmoved] at hget
    refine ⟨fun other hother => ?_, fun key hkey => ?_⟩
    · rw [get_renameToImages hkeys, hget, Option.isSome_some, if_pos rfl, if_pos hmoved]
      by_cases himages : other = "images"
      · rw [if_pos himages, if_pos (congrArg some himages.symm)]
      · rw [if_neg himages, if_neg (fun heq => himages (Option.some.inj heq).symm), h other hother, hmoved]
        by_cases hsame : other = field
        · rw [if_pos hsame]
        · rw [if_neg hsame, if_neg (fun heq => hsame (Option.some.inj heq).symm)]
    · have himages : key ≠ "images" := fun heq => hkey (heq ▸ by decide)
      have hother : key ≠ field := fun heq => hkey (heq ▸ hfield)
      rw [get_renameToImages hkeys, hget, Option.isSome_some, if_pos rfl, if_neg himages, if_neg hother]
  · rw [if_neg hmoved] at hget
    have hsame : ∀ key, (GeminiWorker.renameToImages object field).get key = object.get key := by
      intro key
      rw [get_renameToImages hkeys, hget, Option.isSome_none, if_neg Bool.false_ne_true]
    refine ⟨fun other hother => ?_, fun key _ => hsame key⟩
    rw [hsame, if_neg hmoved]
    exact h other hother

/-! ## The result -/

/-- The one host for which fields are renamed. -/
def isTianyue (parse : UrlParser) (baseUrl : String) : Bool :=
  (parse baseUrl).bind ParsedUrl.hostStr == some "api.tianyue.xyz"

/-- The first alias that is there, or `images` in its stead. -/
def aliasAfter (parse : UrlParser) (baseUrl : String) (object : Map) : Option String :=
  (["image", "images", "reference_images"].find? object.containsKey).map fun first =>
    if isTianyue parse baseUrl then "images" else first

/-- The model is one that the host has in two sizes. -/
def IsSizedSeedream (object : Map) (size : String) : Prop :=
  object.get "model" = some (.string "seedream-5-pro") ∧ object.get "size" = some (.string size) ∧
    (Text.eqIgnoreAsciiCase size "1K" = true ∨ Text.eqIgnoreAsciiCase size "2K" = true)

/-- The fields of a normalized body. -/
structure Normalized (parse : UrlParser) (object : Map) (forceB64Json : Bool) (baseUrl : String) (out : Map) : Prop where
  images : ∀ field ∈ imageFieldAliases, out.get field = if aliasAfter parse baseUrl object = some field then
      some (.array ((referenceImagesAt object "reference_images" ++ referenceImagesAt object "images" ++
        referenceImagesAt object "image").map .string))
    else none
  format : out.get "response_format" = some (.string (if forceB64Json then "b64_json" else "url"))
  model : ∀ size, isTianyue parse baseUrl = true → IsSizedSeedream object size →
    out.get "model" = some (.string ("GZ-seedream-5-pro-" ++ Text.toAsciiUppercase size))
  modelKept : (isTianyue parse baseUrl = false ∨ ∀ size, ¬ IsSizedSeedream object size) →
    out.get "model" = object.get "model"
  others : ∀ key ∉ imageFieldAliases, key ≠ "response_format" → key ≠ "model" → out.get key = object.get key

theorem clientReferenceImages_eq (object : Map) : clientReferenceImages object =
    referenceImagesAt object "reference_images" ++ referenceImagesAt object "images" ++
      referenceImagesAt object "image" := by
  unfold clientReferenceImages imageFieldAliases
  rw [List.flatMap_cons, List.flatMap_cons, List.flatMap_cons, List.flatMap_nil, List.append_nil, List.append_assoc]

theorem model_rewriteTianyueModel {object : Map} {size : String} (h : IsSizedSeedream object size) :
    (rewriteTianyueModel object).get "model" =
      some (.string ("GZ-seedream-5-pro-" ++ Text.toAsciiUppercase size)) := by
  obtain ⟨hmodel, hsize, hcase⟩ := h
  have hboth : (Text.eqIgnoreAsciiCase size "1K" || Text.eqIgnoreAsciiCase size "2K") = true := by
    rwa [Bool.or_eq_true]
  unfold rewriteTianyueModel
  rw [hsize, hmodel]
  show (if (true && _) = true then _ else _ : Map).get "model" = _
  rw [Bool.true_and, hboth, if_pos rfl, Map.get_insert, if_pos rfl]

theorem model_rewriteTianyueModel_of_not {object : Map} (h : ∀ size, ¬ IsSizedSeedream object size) :
    rewriteTianyueModel object = object := by
  unfold rewriteTianyueModel
  rcases hsize : (object.get "size").bind Value.asStr with _ | size
  · rfl
  · dsimp only
    rw [if_neg]
    intro hcond
    obtain ⟨hmodel, hcase⟩ := Bool.and_eq_true_iff.mp hcond
    obtain ⟨value, hvalue, htext⟩ := Option.bind_eq_some_iff.mp hsize
    obtain ⟨value', hvalue', htext'⟩ := Option.bind_eq_some_iff.mp (eq_of_beq hmodel)
    have hstring : ∀ {v : Value} {t : String}, v.asStr = some t → v = .string t := by
      intro v t hv
      cases v <;> cases hv
      rfl
    rw [hstring htext] at hvalue
    rw [hstring htext'] at hvalue'
    exact h size ⟨hvalue', hvalue, Bool.or_eq_true_iff.mp hcase⟩

/-- What the renaming for the one host makes of an object with its images under one alias. -/
theorem renamed {object : Map} {field? : Option String} {images : Value} (h : UnderAlias object field? images)
    (hkeys : object.keys.Nodup) (hfield : ∀ field ∈ field?, field ∈ imageFieldAliases) :
    let out := ["image", "reference_images"].foldl renameToImages object
    UnderAlias out (field?.map fun _ => "images") images ∧ ∀ key ∉ imageFieldAliases, Map.get out key = object.get key := by
  have hfirst := h.renameToImages hkeys (by decide : "image" ∈ imageFieldAliases)
  have hsecond := hfirst.1.renameToImages (nodup_renameToImages hkeys "image")
    (by decide : "reference_images" ∈ imageFieldAliases)
  refine ⟨?_, fun key hkey => (hsecond.2 key hkey).trans (hfirst.2 key hkey)⟩
  have hmoved : (field?.map fun _ => "images") =
      if (if field? = some "image" then some "images" else field?) = some "reference_images" then some "images"
      else if field? = some "image" then some "images" else field? := by
    rcases field? with _ | field
    · rfl
    · have hcases := hfield field rfl
      simp only [imageFieldAliases, List.mem_cons, List.not_mem_nil, or_false] at hcases
      rcases hcases with rfl | rfl | rfl <;> decide
  rw [hmoved]
  exact hsecond.1

theorem normalizeRequestBodyForUpstream_eq (object : Map) (forceB64Json : Bool) (baseUrl : String) :
    normalizeRequestBodyForUpstream parse (.object object) forceB64Json baseUrl =
      (normalizeRequestBody parse (.object object) forceB64Json).bind fun body =>
        if isTianyue parse baseUrl then
          match body with
          | .object object =>
            .ok (.object (["image", "reference_images"].foldl renameToImages (rewriteTianyueModel object)))
          | body => .ok body
        else .ok body := rfl

/-- **The fields of a normalized body**, whatever the upstream. -/
theorem normalized_of_ok {object : Map} (hobject : Value.Distinct (.object object)) {forceB64Json : Bool}
    {baseUrl : String} {out : Value}
    (h : normalizeRequestBodyForUpstream parse (.object object) forceB64Json baseUrl = .ok out) :
    ∃ members, out = .object members ∧ Normalized parse object forceB64Json baseUrl members := by
  rw [normalizeRequestBodyForUpstream_eq] at h
  obtain ⟨body, hbody, h⟩ := Except.bind_eq_ok.mp h
  obtain ⟨-, images, rest, hmerge, hmerged⟩ := normalizeRequestBody_eq_ok.mp hbody
  obtain ⟨object', out', hsame, hout, hkeys, hothers, haliases⟩ := normalizeRequestBody_ok hobject hbody
  obtain rfl := Value.object.inj hsame
  obtain rfl : out' = merged object rest images forceB64Json := Value.object.inj (hout.symm.trans hmerged)
  have hrest := (collectAliases_ok (by decide) hkeys hmerge).2.1
  have hunder : UnderAlias (merged object rest images forceB64Json) (targetAlias object)
      (.array ((clientReferenceImages object).map .string)) := haliases
  have hformat := format_merged object rest images forceB64Json
  have hnodup := @nodup_merged object _ hrest images forceB64Json
  have htarget : ["image", "images", "reference_images"].find? object.containsKey = targetAlias object := rfl
  have hmodel := hothers "model" (by decide) (by decide)
  have hsize := hothers "size" (by decide) (by decide)
  have hsized : ∀ size, IsSizedSeedream (merged object rest images forceB64Json) size ↔ IsSizedSeedream object size := by
    intro size
    unfold IsSizedSeedream
    rw [hmodel, hsize]
  rw [hout] at h
  dsimp only at h
  rcases htianyue : isTianyue parse baseUrl
  · -- another upstream: the merged object is the result
    rw [htianyue, if_neg Bool.false_ne_true] at h
    refine ⟨_, (Except.ok.inj h).symm, ?_, hformat, ?_, fun _ => hmodel, fun key hkey hformat _ => hothers key hkey hformat⟩
    · intro field hfield
      have halias : aliasAfter parse baseUrl object = targetAlias object := by
        rw [aliasAfter, htarget, htianyue]
        simp
      rw [halias, ← clientReferenceImages_eq]
      exact hunder field hfield
    · intro size htrue
      rw [htianyue] at htrue
      cases htrue
  · rw [htianyue, if_pos rfl] at h
    have hkept : UnderAlias (rewriteTianyueModel (merged object rest images forceB64Json)) (targetAlias object)
        (.array ((clientReferenceImages object).map .string)) := by
      intro field hfield
      rw [get_rewriteTianyueModel (fun heq => absurd (heq ▸ hfield) (by decide))]
      exact hunder field hfield
    obtain ⟨himages, hrenamed⟩ := renamed hkept (nodup_rewriteTianyueModel hnodup)
      fun field hfield => by simpa using List.mem_of_find?_eq_some hfield
    refine ⟨_, (Except.ok.inj h).symm, ?_, ?_, ?_, ?_, ?_⟩
    · intro field hfield
      have halias : aliasAfter parse baseUrl object = (targetAlias object).map fun _ => "images" := by
        rw [aliasAfter, htarget, htianyue]
        rfl
      rw [halias, ← clientReferenceImages_eq]
      exact himages field hfield
    · rw [hrenamed _ (by decide), get_rewriteTianyueModel (by decide), hformat]
    · intro size _ hsize
      rw [hrenamed _ (by decide), model_rewriteTianyueModel ((hsized size).mpr hsize)]
    · rintro (hfalse | hnone)
      · rw [htianyue] at hfalse
        cases hfalse
      · rw [hrenamed _ (by decide), model_rewriteTianyueModel_of_not fun size hsize => hnone size ((hsized size).mp hsize),
          hmodel]
    · intro key hkey hformat hmodel
      rw [hrenamed key hkey, get_rewriteTianyueModel hmodel, hothers key hkey hformat]

end

/-- **A body is accepted exactly if its images and its response format are, and is normalized then.** -/
theorem normalizes (parse : UrlParser) (body : Json.Document) {object : Map} (hbody : body.val = .object object)
    (forceB64Json : Bool) (baseUrl : String) :
    ((∃ out, normalizeRequestBodyForUpstream parse body.val forceB64Json baseUrl = .ok out) ↔ Acceptable parse object) ∧
      ∀ out, normalizeRequestBodyForUpstream parse body.val forceB64Json baseUrl = .ok out →
        ∃ members, out = .object members ∧ Normalized parse object forceB64Json baseUrl members := by
  have hdistinct : Value.Distinct (.object object) := hbody ▸ body.property.1
  rw [hbody]
  refine ⟨?_, fun out h => normalized_of_ok hdistinct h⟩
  rw [← normalizeRequestBody_isOk (Value.distinct_object.mp hdistinct).1 forceB64Json]
  constructor
  · rintro ⟨out, h⟩
    rw [normalizeRequestBodyForUpstream_eq] at h
    obtain ⟨normalized, hnormalized, -⟩ := Except.bind_eq_ok.mp h
    exact ⟨normalized, hnormalized⟩
  · rintro ⟨normalized, h⟩
    rw [normalizeRequestBodyForUpstream_eq, h]
    show ∃ out, (if isTianyue parse baseUrl = true then _ else _ : Except String Value) = .ok out
    split
    · split <;> exact ⟨_, rfl⟩
    · exact ⟨_, rfl⟩

/-- The parser at the host that fields are renamed for. -/
def parseTianyueExample : UrlParser := fun raw =>
  if raw = "https://api.tianyue.xyz" then some ⟨"https", some "api.tianyue.xyz"⟩
  else if raw = "https://e.com/a.png" then some ⟨"https", some "e.com"⟩
  else none

theorem normalizes_example : ∃ members, Normalized parseTianyueExample
    [("image", .array [.string "https://e.com/a.png"])] true "https://api.tianyue.xyz" members := by
  obtain ⟨hiff, hfields⟩ := normalizes parseTianyueExample (imageBody "image") rfl true "https://api.tianyue.xyz"
  have hurl : IsReferenceUrl parseTianyueExample "https://e.com/a.png" :=
    ⟨⟨"https", some "e.com"⟩, by decide, by decide, by decide +kernel⟩
  obtain ⟨out, hout⟩ := hiff.mpr ⟨nofun, by
    intro field hfield value hvalue
    have hmem := Map.mem_of_get hvalue
    obtain ⟨-, rfl⟩ := Prod.mk.inj (List.mem_singleton.mp hmem)
    exact ⟨["https://e.com/a.png"], rfl, fun raw hraw => List.mem_singleton.mp hraw ▸ hurl⟩⟩
  obtain ⟨members, -, hnormalized⟩ := hfields out hout
  exact ⟨members, hnormalized⟩

end GeminiWorker
