import GeminiWorker.Lib.JsonParse
import GeminiWorker.Proof.AdminWalk

/-!
# What the admin log shows of a document

* `shapeAt_mapMembers`: what stands at each path of the redacted document.
* `mem_urls_iff`: the URLs found are those of all the places.
* `redact_spec`: no payload is left, nothing else is changed, and no URL is missed.
-/

namespace GeminiWorker.AdminRedaction

open Json (Value Map)

/-! ## What is shown at a path -/

/-- The path of the data of an object under a key of inline data. -/
def isInlinePath : List String → Bool
  | [] => false
  | token :: path => decide (token ∈ inlineKeys ∧ path = ["data"]) || isInlinePath path

theorem isInlinePath_iff {path : List String} :
    isInlinePath path = true ↔ ∃ parent, ∃ key ∈ inlineKeys, path = parent ++ [key, "data"] := by
  induction path with
  | nil =>
    refine ⟨nofun, ?_⟩
    rintro ⟨parent, key, -, hpath⟩
    exact absurd hpath.symm (List.append_ne_nil_of_right_ne_nil _ (List.cons_ne_nil _ _))
  | cons token path ih =>
    rw [isInlinePath, Bool.or_eq_true, decide_eq_true_eq, ih]
    constructor
    · rintro (⟨hkey, rfl⟩ | ⟨parent, key, hkey, rfl⟩)
      · exact ⟨[], token, hkey, rfl⟩
      · exact ⟨token :: parent, key, hkey, rfl⟩
    · rintro ⟨_ | ⟨token', parent⟩, key, hkey, hpath⟩
      · obtain ⟨rfl, rfl⟩ := List.cons.inj hpath
        exact .inl ⟨hkey, rfl⟩
      · obtain ⟨-, rfl⟩ := List.cons.inj hpath
        exact .inr ⟨parent, key, hkey, rfl⟩

def shownText (text : String) : String := if Harmless text then text else omitted text

def shownShape : Json.Shape → Json.Shape
  | .string text => .string (shownText text)
  | shape => shape

theorem shapeAt_omitData (v : Value) (path : List String) :
    (omitData v).shapeAt path = (v.shapeAt path).map (if path = ["data"] then shownShape else id) := by
  rcases omitData_cases v with ⟨hsame, hharmless⟩ | ⟨inline, data, rfl, hdata, hpayload, hredacted⟩
  · rw [hsame]
    split
    · rename_i hpath
      rw [hpath]
      rcases hshape : v.shapeAt ["data"] with _ | shape
      · rfl
      · cases shape with
        | string text =>
          -- what stands there is harmless
          have htext := textAt_eq_some.mpr (Value.at?_eq_string_iff.mpr hshape)
          rw [Option.map_some, shownShape, shownText, if_pos (hharmless text htext)]
        | null | bool | number | array | object => rfl
    · rw [Option.map_id, id_eq]
  · have hkey : "data" ∈ Map.keys inline := by
      rw [← Map.get_isSome_iff, hdata]
      rfl
    rw [hredacted]
    rcases path with _ | ⟨token, path⟩
    · rw [if_neg (by decide), Option.map_id, id_eq]
      refine congrArg some (congrArg Json.Shape.object ?_)
      rw [Map.keys_insert, if_pos hkey]
    · rw [Value.shapeAt_cons, Value.shapeAt_cons]
      unfold Value.child
      dsimp only
      rw [Map.get_insert]
      by_cases htoken : token = "data"
      · subst htoken
        rw [if_pos rfl, hdata, Option.bind_some, Option.bind_some]
        rcases path with _ | ⟨token, path⟩
        · rw [if_pos rfl]
          simp only [Value.shapeAt_nil, Value.shape, Option.map_some, shownShape, shownText, if_neg hpayload]
        · rfl
      · rw [if_neg htoken, if_neg (fun hpath => htoken (List.cons.inj hpath).1), Option.map_id, id_eq]

/-- **What stands at each path after the walk.** -/
theorem shapeAt_mapMembers (path : List String) : ∀ v : Value,
    (Value.mapMembers redactMember v).shapeAt path =
      (v.shapeAt path).map (if isInlinePath path then shownShape else id) := by
  induction path with
  | nil =>
    intro v
    exact congrArg some (Value.shape_mapMembers redactMember v)
  | cons token path ih =>
    intro v
    rw [Value.shapeAt_cons, Value.shapeAt_cons, Value.child_mapMembers redactMember redactMember_of_index]
    rcases v.child token with _ | w
    · rfl
    rw [Option.map_some, Option.bind_some, Option.bind_some, isInlinePath]
    by_cases hkey : token ∈ inlineKeys
    · rw [redactMember, if_pos hkey, shapeAt_omitData, ih]
      by_cases hpath : path = ["data"]
      · subst hpath
        have hinner : isInlinePath ["data"] = false := by decide
        rw [if_pos rfl, hinner, if_neg Bool.false_ne_true, Option.map_id, id_eq,
          if_pos (by simp only [hkey, and_self, decide_true, Bool.true_or])]
      · simp only [hkey, hpath, and_false, decide_false, Bool.false_or, if_false, Option.map_id, id_eq]
    · rw [redactMember, if_neg hkey, ih]
      simp only [hkey, false_and, decide_false, Bool.false_or]

/-! ## Where the texts are found -/

variable {v : Value} {text : String}

theorem mem_walkTexts_below (hv : v.Distinct) : text ∈ textsBelow walkTexts v ↔
    (∃ path, IsInlineText v path text) ∨
      ∃ path, v.at? (path ++ ["file_data", "file_uri"]) = some (.string text) := by
  rw [mem_textsBelow hv]
  have hmem : ∀ w, text ∈ walkTexts w ↔ w.at? ["inlineData", "data"] = some (.string text) ∨
      w.at? ["inline_data", "data"] = some (.string text) ∨
      w.at? ["file_data", "file_uri"] = some (.string text) := by
    intro w
    simp only [walkTexts, List.mem_filterMap, List.mem_cons, List.not_mem_nil, or_false, or_and_right, exists_or,
      exists_eq_left, textAt_eq_some]
  constructor
  · rintro ⟨path, w, hpath, htext⟩
    have hbelow : ∀ tail, v.at? (path ++ tail) = w.at? tail := by
      intro tail
      rw [Value.at?_append, hpath, Option.bind_some]
    rcases (hmem w).mp htext with hcamel | hsnake | hfile
    · exact .inl ⟨_, ⟨path, "inlineData", by decide, rfl⟩, (hbelow _).trans hcamel⟩
    · exact .inl ⟨_, ⟨path, "inline_data", by decide, rfl⟩, (hbelow _).trans hsnake⟩
    · exact .inr ⟨path, (hbelow _).trans hfile⟩
  · rintro (⟨_, ⟨path, key, hkey, rfl⟩, htext⟩ | ⟨path, htext⟩)
    · rw [Value.at?_append] at htext
      obtain ⟨w, hpath, htext⟩ := Option.bind_eq_some_iff.mp htext
      refine ⟨path, w, hpath, (hmem w).mpr ?_⟩
      rcases List.mem_pair.mp hkey with rfl | rfl
      · exact .inl htext
      · exact .inr (.inl htext)
    · rw [Value.at?_append] at htext
      obtain ⟨w, hpath, htext⟩ := Option.bind_eq_some_iff.mp htext
      exact ⟨path, w, hpath, (hmem w).mpr (.inr (.inr htext))⟩

theorem mem_typedTexts_below (hv : v.Distinct) : text ∈ textsBelow typedTexts v ↔
    ∃ path kind, v.at? (path ++ ["type"]) = some (.string kind) ∧ Text.eqIgnoreAsciiCase kind "image" = true ∧
      v.at? (path ++ ["url"]) = some (.string text) := by
  rw [mem_textsBelow hv]
  have hmem : ∀ w, text ∈ typedTexts w ↔ ∃ kind, w.at? ["type"] = some (.string kind) ∧
      Text.eqIgnoreAsciiCase kind "image" = true ∧ w.at? ["url"] = some (.string text) := by
    intro w
    unfold typedTexts
    simp only [← textAt_eq_some]
    rcases textAt ["type"] w with _ | kind
    · rw [Option.any_none, if_neg Bool.false_ne_true]
      refine ⟨nofun, ?_⟩
      rintro ⟨kind, hkind, -⟩
      cases hkind
    · simp only [Option.any_some, Option.some.injEq, exists_eq_left']
      split
      · rw [Option.mem_toList, and_iff_right ‹_›]
      · exact ⟨nofun, fun himage => absurd himage.1 ‹_›⟩
  constructor
  · rintro ⟨path, w, hpath, htext⟩
    have hbelow : ∀ tail, v.at? (path ++ tail) = w.at? tail := by
      intro tail
      rw [Value.at?_append, hpath, Option.bind_some]
    obtain ⟨kind, hkind, himage, hurl⟩ := (hmem w).mp htext
    exact ⟨path, kind, (hbelow _).trans hkind, himage, (hbelow _).trans hurl⟩
  · rintro ⟨path, kind, hkind, himage, hurl⟩
    rw [Value.at?_append] at hkind hurl
    obtain ⟨w, hpath, hkind⟩ := Option.bind_eq_some_iff.mp hkind
    rw [hpath, Option.bind_some] at hurl
    exact ⟨path, w, hpath, (hmem w).mpr ⟨kind, hkind, himage, hurl⟩⟩

/-- The URLs of the items of the root data. -/
def dataTexts (root : Value) : List String :=
  match (root.get "data").bind Value.asArray with
  | some items => items.flatMap fun item => (textUnder "url" item).toList
  | none => []

theorem Collected.collectDataItems (h : Collected texts found) (root : Value) :
    Collected (texts ++ dataTexts root) (collectDataItems root found) := by
  unfold AdminRedaction.collectDataItems dataTexts
  rcases (root.get "data").bind Value.asArray with _ | items
  · exact (List.append_nil texts).symm ▸ h
  · exact Collected.foldl (fun item _ _ _ h => h.pushTextUnder "url" item) h

theorem textUnder_eq_some {key : String} {item : Value} :
    textUnder key item = some text ↔ item.get key = some (.string text) := by
  unfold textUnder
  constructor
  · intro htext
    obtain ⟨w, hw, htext⟩ := Option.bind_eq_some_iff.mp htext
    exact hw.trans ((@textAt_eq_some [] w text).mp htext)
  · intro htext
    rw [htext]
    rfl

theorem mem_dataTexts : text ∈ dataTexts v ↔ ∃ items item, v.get "data" = some (.array items) ∧ item ∈ items ∧
    item.get "url" = some (.string text) := by
  unfold dataTexts
  constructor
  · intro htext
    split at htext
    · rename_i items hitems
      obtain ⟨w, hw, hitems⟩ := Option.bind_eq_some_iff.mp hitems
      obtain ⟨item, hitem, hurl⟩ := List.mem_flatMap.mp htext
      cases w with
      | array items' =>
        obtain rfl := Option.some.inj hitems
        exact ⟨_, item, hw, hitem, textUnder_eq_some.mp (Option.mem_toList.mp hurl)⟩
      | null | bool | number | string | object => cases hitems
    · cases htext
  · rintro ⟨items, item, hitems, hitem, htext⟩
    rw [hitems]
    exact List.mem_flatMap.mpr ⟨item, hitem, Option.mem_toList.mpr (textUnder_eq_some.mpr htext)⟩

/-- A text is among those that are looked at where it has a place for the URL of an image. -/
theorem mem_texts_iff (hv : v.Distinct) :
    text ∈ dataTexts v ++ textsBelow typedTexts v ++ textsBelow walkTexts v ↔ ImageText v text := by
  rw [List.mem_append, List.mem_append, mem_dataTexts, mem_typedTexts_below hv, mem_walkTexts_below hv]
  constructor
  · rintro ((⟨items, item, hitems, hitem, hurl⟩ | ⟨path, kind, hkind, himage, hurl⟩) | ⟨path, hinline⟩ | ⟨path, hfile⟩)
    · exact .data items item hitems hitem hurl
    · exact .typed path kind hkind himage hurl
    · exact .inlineData path hinline
    · exact .fileUri path hfile
  · rintro (⟨path, hinline⟩ | ⟨path, hfile⟩ | ⟨path, kind, hkind, himage, hurl⟩ | ⟨items, item, hitems, hitem, hurl⟩)
    · exact .inr (.inl ⟨path, hinline⟩)
    · exact .inr (.inr ⟨path, hfile⟩)
    · exact .inl (.inr ⟨path, kind, hkind, himage, hurl⟩)
    · exact .inl (.inl ⟨items, item, hitems, hitem, hurl⟩)

/-! ## The log -/

/-- What the three passes find, and the document that is left. -/
theorem redact_passes {root : Value} (hroot : root.Distinct) :
    (redactInlineDataAndCollectImageUrls root).1 = Value.mapMembers redactMember root ∧
      ∃ found, (redactInlineDataAndCollectImageUrls root).2 = found.urls ∧
        Collected (dataTexts root ++ textsBelow typedTexts root ++ textsBelow walkTexts root) found := by
  have hwalks := walks_of_height _ root rfl hroot
  have hcollected := (collected_empty.collectDataItems root).explicit root
  rw [List.nil_append] at hcollected
  exact ⟨(hwalks _).1, _, rfl, (hwalks _).2 _ hcollected⟩

theorem nodup_urls {root : Value} (hroot : root.Distinct) :
    (redactInlineDataAndCollectImageUrls root).2.Nodup := by
  obtain ⟨-, found, hurls, hcollected⟩ := redact_passes hroot
  rw [hurls]
  exact hcollected.nodup

/-- The URLs found are those in the places for them. -/
theorem mem_urls_iff {root : Value} (hroot : root.Distinct) (url : String) :
    url ∈ (redactInlineDataAndCollectImageUrls root).2 ↔
      isImageUrl url = true ∧ ∃ text, ImageText root text ∧ Text.trim text = url := by
  obtain ⟨-, found, hurls, hcollected⟩ := redact_passes hroot
  rw [hurls, hcollected.mem]
  simp only [mem_texts_iff hroot]

theorem shapeAt_redact {root : Value} (hroot : root.Distinct) (path : List String) :
    (redactInlineDataAndCollectImageUrls root).1.shapeAt path =
      (root.shapeAt path).map (if isInlinePath path then shownShape else id) := by
  rw [(redact_passes hroot).1]
  exact shapeAt_mapMembers path root

theorem at?_redact_of_inline {root : Value} (hroot : root.Distinct) {path : List String} {text : String}
    (hinline : IsInlineText root path text) :
    (redactInlineDataAndCollectImageUrls root).1.at? path = some (.string (shownText text)) := by
  obtain ⟨hpath, htext⟩ := hinline
  rw [Value.at?_eq_string_iff, shapeAt_redact hroot, Value.at?_eq_string_iff.mp htext,
    if_pos (isInlinePath_iff.mpr hpath)]
  rfl

/-- What is no text of inline data stays. -/
theorem shapeAt_redact_of_other {root : Value} (hroot : root.Distinct) {path : List String}
    (hother : ∀ text, ¬ IsInlineText root path text) :
    (redactInlineDataAndCollectImageUrls root).1.shapeAt path = root.shapeAt path := by
  rw [shapeAt_redact hroot]
  split
  · rename_i hpath
    rcases hshape : root.shapeAt path with _ | shape
    · rfl
    · cases shape with
      | string text => exact absurd ⟨isInlinePath_iff.mp hpath, Value.at?_eq_string_iff.mpr hshape⟩ (hother text)
      | null | bool | number | array | object => rfl
  · rw [Option.map_id, id_eq]

/-- **The admin log shows no payload and no other change, and finds the URLs of the images.** -/
theorem redact_spec (root : Json.Document) :
    let result := redactInlineDataAndCollectImageUrls root.val
    (∀ parent, ∀ key ∈ inlineKeys, ∀ data, result.1.at? (parent ++ [key, "data"]) = some (.string data) →
      ∃ original, root.val.at? (parent ++ [key, "data"]) = some (.string original) ∧
        (data = original ∧ Harmless data ∨ data = omitted original)) ∧
    (∀ path text, IsInlineText root.val path text → ∃ data, result.1.at? path = some (.string data)) ∧
    (∀ path, (∀ text, ¬ IsInlineText root.val path text) → result.1.shapeAt path = root.val.shapeAt path) ∧
    result.2.Nodup ∧
    (∀ url, url ∈ result.2 ↔ isImageUrl url = true ∧ ∃ text, ImageText root.val text ∧ Text.trim text = url) := by
  intro result
  have hroot : root.val.Distinct := root.property.1
  refine ⟨fun parent key hkey data hdata => ?_, fun path text htext => ⟨_, at?_redact_of_inline hroot htext⟩,
    fun path => shapeAt_redact_of_other hroot, nodup_urls hroot, mem_urls_iff hroot⟩
  by_cases htext : ∃ text, IsInlineText root.val (parent ++ [key, "data"]) text
  · obtain ⟨original, htext⟩ := htext
    refine ⟨original, htext.2, ?_⟩
    rw [at?_redact_of_inline hroot htext, Option.some.injEq, Value.string.injEq, shownText] at hdata
    split at hdata
    · rename_i hharmless
      subst hdata
      exact .inl ⟨rfl, hharmless⟩
    · exact .inr hdata.symm
  · -- a text that was not there before cannot be there now
    rw [Value.at?_eq_string_iff, shapeAt_redact_of_other hroot (not_exists.mp htext),
      ← Value.at?_eq_string_iff] at hdata
    exact absurd ⟨data, ⟨parent, key, hkey, rfl⟩, hdata⟩ htext

/-- An object of inline data without data, and an image whose type is not in lower case. -/
def emptyInlineData : Json.Document :=
  ⟨.object [("inlineData", .object []), ("type", .string "Image"), ("url", .string "http://x")], by
    simp [Map.keys]⟩

/-- The object still has no data, and the image is found. -/
theorem emptyInlineData_redacted :
    let result := redactInlineDataAndCollectImageUrls emptyInlineData.val
    (∃ inline, result.1.at? ["inlineData"] = some (.object inline) ∧ Map.get inline "data" = none) ∧
      "http://x" ∈ result.2 := by
  intro result
  have hroot := emptyInlineData.property.1
  constructor
  · refine ⟨[], ?_, rfl⟩
    have hredacted : result.1 = emptyInlineData.val := (redact_passes hroot).1
    rw [hredacted]
    rfl
  · exact (mem_urls_iff hroot "http://x").mpr
      ⟨by decide +kernel, "http://x", .typed [] "Image" rfl (by decide +kernel) rfl, by decide +kernel⟩

end GeminiWorker.AdminRedaction
