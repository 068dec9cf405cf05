import GeminiWorker.Spec.AdminRedaction

/-!
# The walks of the admin log

What the three passes over a document find, and what the last one makes of it.

* `Collected`: what was found is the URLs among some texts, each once.
* `Collected.explicit`: the second pass adds the texts of the typed images.
* `mapMembers_omitData`: it makes no difference that the walk redacts an object before it goes
  down into it.
* `walks_of_height`: the walk adds the texts of its places, and redacts the inline members.
-/

namespace GeminiWorker.AdminRedaction

open Json (Value Map)

/-! ## The URLs found -/

/-- What was found is the URLs among some texts, each once. -/
structure Collected (texts : List String) (found : ImageUrls) : Prop where
  nodup : found.urls.Nodup
  seen : ∀ url, url ∈ found.seen ↔ url ∈ found.urls
  mem : ∀ url, url ∈ found.urls ↔ isImageUrl url = true ∧ ∃ text ∈ texts, Text.trim text = url

variable {texts : List String} {found : ImageUrls}

theorem collected_empty : Collected [] ⟨[], ∅⟩ where
  nodup := List.nodup_nil
  seen url := by simp only [Finset.notMem_empty, List.not_mem_nil]
  mem url := by simp only [List.not_mem_nil, false_and, exists_false, and_false]

theorem Collected.insert (h : Collected texts found) {raw : String} (hurl : isImageUrl (Text.trim raw) = true) :
    Collected (texts ++ [raw]) (found.insert (Text.trim raw)) := by
  have hmem : ∀ url, (isImageUrl url = true ∧ ∃ text ∈ texts ++ [raw], Text.trim text = url) ↔
      url ∈ found.urls ∨ url = Text.trim raw := by
    intro url
    simp only [h.mem url, List.mem_append, List.mem_singleton, or_and_right, exists_or, exists_eq_left]
    constructor
    · rintro ⟨hurl', htext | rfl⟩
      · exact .inl ⟨hurl', htext⟩
      · exact .inr rfl
    · rintro (⟨hurl', htext⟩ | rfl)
      · exact ⟨hurl', .inl htext⟩
      · exact ⟨hurl, .inr rfl⟩
  unfold ImageUrls.insert
  by_cases hseen : Text.trim raw ∈ found.seen
  · rw [if_pos hseen]
    refine ⟨h.nodup, h.seen, fun url => ?_⟩
    rw [hmem]
    constructor
    · exact .inl
    · rintro (hfound | rfl)
      · exact hfound
      · exact (h.seen _).mp hseen
  · rw [if_neg hseen]
    have hnew : Text.trim raw ∉ found.urls := fun hurls => hseen ((h.seen _).mpr hurls)
    refine ⟨?_, fun url => ?_, fun url => ?_⟩
    · rw [List.nodup_append]
      refine ⟨h.nodup, List.nodup_singleton _, ?_⟩
      rintro url hurls _ hraw rfl
      rw [List.mem_singleton] at hraw
      exact hnew (hraw ▸ hurls)
    · rw [Finset.mem_insert, h.seen, List.mem_append, List.mem_singleton]
      exact or_comm
    · rw [hmem, List.mem_append, List.mem_singleton]

theorem Collected.skip (h : Collected texts found) {raw : String} (hurl : ¬ isImageUrl (Text.trim raw) = true) :
    Collected (texts ++ [raw]) found := by
  refine ⟨h.nodup, h.seen, fun url => ?_⟩
  rw [h.mem]
  simp only [List.mem_append, List.mem_singleton, or_and_right, exists_or, exists_eq_left]
  refine and_congr_right fun hurl' => ⟨.inl, ?_⟩
  rintro (htext | rfl)
  · exact htext
  · exact absurd hurl' hurl

theorem Collected.pushImageUrl (h : Collected texts found) (raw : String) :
    Collected (texts ++ [raw]) (pushImageUrl raw found) := by
  unfold AdminRedaction.pushImageUrl
  dsimp only
  split
  · exact h.insert ‹_›
  · exact h.skip ‹_›

theorem Collected.pushTextUnder (h : Collected texts found) (key : String) (value : Value) :
    Collected (texts ++ (textUnder key value).toList) (pushTextUnder key value found) := by
  unfold AdminRedaction.pushTextUnder
  rcases textUnder key value with _ | text
  · rw [Option.toList_none, List.append_nil]
    exact h
  · exact h.pushImageUrl text

/-- What each of some values adds, all of them add. -/
theorem Collected.foldl {α : Type} {step : α → ImageUrls → ImageUrls} {textsOf : α → List String} :
    ∀ {children : List α} {texts : List String} {found : ImageUrls},
      (∀ child ∈ children, ∀ texts found, Collected texts found →
        Collected (texts ++ textsOf child) (step child found)) →
      Collected texts found →
      Collected (texts ++ children.flatMap textsOf) (children.foldl (fun found child => step child found) found)
  | [], _, _, _, h => by rwa [List.flatMap_nil, List.append_nil]
  | child :: children, _, _, hstep, h => by
    rw [List.flatMap_cons, ← List.append_assoc]
    exact Collected.foldl (fun child hchild => hstep child (List.mem_cons_of_mem _ hchild))
      (hstep child List.mem_cons_self _ _ h)

/-! ## The texts of the nodes -/

/-- The text at a path, if there is one. -/
def textAt (path : List String) (v : Value) : Option String := (v.at? path).bind Value.asStr

theorem textAt_eq_some {path : List String} {v : Value} {text : String} :
    textAt path v = some text ↔ v.at? path = some (.string text) := by
  unfold textAt
  rcases v.at? path with _ | w
  · exact ⟨nofun, nofun⟩
  · cases w with
    | string s =>
      rw [Option.bind_some, Option.some.injEq, Value.string.injEq]
      exact Option.some.injEq s text ▸ Iff.rfl
    | null | bool | number | array | object => exact ⟨nofun, nofun⟩

theorem textAt_array {key : String} (hkey : Json.parseIndex key = none) (path : List String) (items : List Value) :
    textAt (key :: path) (.array items) = none := by
  unfold textAt
  rw [Value.at?, Value.child_array_of_none hkey]
  rfl

theorem textUnder_eq {key : String} (hkey : Json.parseIndex key = none) (v : Value) :
    textUnder key v = textAt [key] v := by
  cases v with
  | array items => exact (textAt_array hkey [] items).symm
  | null | bool | number | string => rfl
  | object map =>
    unfold textUnder textAt
    rw [Value.at?_singleton]
    rfl

/-- The texts that a node has as a typed image. -/
def typedTexts (node : Value) : List String :=
  if (textAt ["type"] node).any fun kind => Text.eqIgnoreAsciiCase kind "image" then (textAt ["url"] node).toList
  else []

/-- The texts that the walk looks at in a node. -/
def walkTexts (node : Value) : List String :=
  [["inlineData", "data"], ["inline_data", "data"], ["file_data", "file_uri"]].filterMap fun path => textAt path node

/-- The texts of all nodes of a document. -/
def textsBelow (textsOf : Value → List String) (v : Value) : List String := v.nodes.flatMap textsOf

theorem textsBelow_eq (textsOf : Value → List String) (v : Value) :
    textsBelow textsOf v = textsOf v ++ v.children.flatMap (textsBelow textsOf) := by
  unfold textsBelow
  rw [Value.nodes_eq, List.flatMap_cons, List.flatMap_assoc]

theorem mem_textsBelow {textsOf : Value → List String} {v : Value} (hv : v.Distinct) {text : String} :
    text ∈ textsBelow textsOf v ↔ ∃ path w, v.at? path = some w ∧ text ∈ textsOf w := by
  unfold textsBelow
  rw [List.mem_flatMap]
  constructor
  · rintro ⟨w, hw, htext⟩
    obtain ⟨path, hpath⟩ := (Value.mem_nodes hv).mp hw
    exact ⟨path, w, hpath, htext⟩
  · rintro ⟨path, w, hpath, htext⟩
    exact ⟨w, (Value.mem_nodes hv).mpr ⟨path, hpath⟩, htext⟩

/-! ## The root data and the typed images -/

theorem collectFromMembers_eq (map : Map) : ∀ found, collectFromMembers map found =
    (map.map Prod.snd).foldl (fun found child => collectExplicitUrlImageItems child found) found := by
  induction map with
  | nil => exact fun _ => rfl
  | cons m map ih => exact fun found => ih (collectExplicitUrlImageItems m.2 found)

theorem collectFromItems_eq (items : List Value) : ∀ found, collectFromItems items found =
    items.foldl (fun found child => collectExplicitUrlImageItems child found) found := by
  induction items with
  | nil => exact fun _ => rfl
  | cons child items ih => exact fun found => ih (collectExplicitUrlImageItems child found)

theorem Collected.typedImage (h : Collected texts found) (map : Map) :
    Collected (texts ++ typedTexts (.object map))
      (if isTypedImage map then AdminRedaction.pushTextUnder "url" (.object map) found else found) := by
  unfold isTypedImage typedTexts
  rw [textUnder_eq (by decide)]
  split
  · rw [← textUnder_eq (by decide)]
    exact h.pushTextUnder "url" (.object map)
  · rw [List.append_nil]
    exact h

theorem Collected.explicit (v : Value) : ∀ {texts : List String} {found : ImageUrls}, Collected texts found →
    Collected (texts ++ textsBelow typedTexts v) (collectExplicitUrlImageItems v found) := by
  induction v using Value.children_induction with
  | step v ih =>
    intro texts found h
    have hstep : ∀ child ∈ v.children, ∀ texts found, Collected texts found →
        Collected (texts ++ textsBelow typedTexts child) (collectExplicitUrlImageItems child found) :=
      fun child hchild _ _ => ih child hchild
    rw [textsBelow_eq, ← List.append_assoc]
    cases v with
    | object map =>
      rw [collectExplicitUrlImageItems, collectFromMembers_eq]
      exact Collected.foldl hstep (h.typedImage map)
    | array items =>
      rw [collectExplicitUrlImageItems, collectFromItems_eq]
      have hnone : typedTexts (.array items) = [] := by
        unfold typedTexts
        rw [textAt_array (by decide), textAt_array (by decide)]
        exact if_neg Bool.false_ne_true
      rw [hnone, List.append_nil]
      exact Collected.foldl hstep h
    | null | bool | number | string =>
      change Collected (texts ++ [] ++ []) found
      rwa [List.append_nil, List.append_nil]

/-! ## Redacted members -/

/-- An object of inline data as it is after the walk, but for what lies in it. -/
def omitData (v : Value) : Value :=
  match v with
  | .object inline =>
    match Map.get inline "data" with
    | some (.string data) =>
      if isImageUrl (Text.trim data) then v
      else if Text.trim data ≠ "" then .object (Map.insert inline "data" (.string (omitted data)))
      else v
    | _ => v
  | _ => v

def redactMember (key : String) (v : Value) : Value := if key ∈ inlineKeys then omitData v else v

variable {map : Map}

theorem textAt_object {key key' : String} (map : Map) :
    textAt [key, key'] (.object map) = (Map.get map key).bind (textAt [key']) := by
  unfold textAt
  rw [Value.at?, Option.bind_assoc]
  rfl

/-- The data of an object of inline data. -/
theorem exists_of_textAt_data {v : Value} {data : String} (h : textAt ["data"] v = some data) :
    ∃ inline, v = .object inline ∧ Map.get inline "data" = some (.string data) := by
  rw [textAt_eq_some, Value.at?_singleton] at h
  cases v with
  | object inline => exact ⟨inline, rfl, h⟩
  | array items =>
    rw [Value.child_array_of_none (by decide)] at h
    cases h
  | null | bool | number | string => cases h

theorem omitData_of_none {v : Value} (h : textAt ["data"] v = none) : omitData v = v := by
  unfold omitData
  split
  · split
    · rename_i inline data hdata
      rw [textAt, Value.at?_singleton, Value.child, hdata] at h
      cases h
    · rfl
  · rfl

theorem omitData_of_harmless {inline : Map} {data : String} (hdata : Map.get inline "data" = some (.string data))
    (h : Harmless data) : omitData (.object inline) = .object inline := by
  unfold omitData
  dsimp only
  rw [hdata]
  dsimp only
  rcases h with hblank | hurl
  · rw [if_neg (not_not.mpr hblank), ite_self]
  · rw [if_pos hurl]

theorem omitData_of_payload {inline : Map} {data : String} (hdata : Map.get inline "data" = some (.string data))
    (h : ¬ Harmless data) :
    omitData (.object inline) = .object (Map.insert inline "data" (.string (omitted data))) := by
  unfold omitData
  dsimp only
  rw [hdata]
  dsimp only
  rw [if_neg (fun hurl => h (.inr hurl)), if_pos (fun hblank => h (.inl hblank))]

/-- What a turn of the loop does: nothing where there is no data; else it is redacted, and its
URL found if it is one. -/
theorem redactInline_cases (hnodup : (Map.keys map).Nodup) (key : String) (found : ImageUrls) :
    (textAt [key, "data"] (.object map) = none ∧ redactInline key map found = (map, found)) ∨
    ∃ data w, Map.get map key = some w ∧ textAt ["data"] w = some data ∧
      redactInline key map found = (Map.insert map key (omitData w),
        if isImageUrl (Text.trim data) then found.insert (Text.trim data) else found) := by
  rw [textAt_object]
  rcases hget : Map.get map key with _ | w
  · left
    unfold redactInline
    rw [hget]
    exact ⟨rfl, rfl⟩
  rw [Option.bind_some]
  rcases htext : textAt ["data"] w with _ | data
  · left
    refine ⟨rfl, ?_⟩
    unfold redactInline
    rw [hget]
    cases w with
    | object inline =>
      dsimp only
      split
      · rename_i data hdata
        rw [textAt, Value.at?_singleton, Value.child, hdata] at htext
        cases htext
      · rfl
    | null | bool | number | string | array => rfl
  · right
    refine ⟨data, w, rfl, htext, ?_⟩
    obtain ⟨inline, rfl, hdata⟩ := exists_of_textAt_data htext
    unfold redactInline
    rw [hget]
    dsimp only
    rw [hdata]
    dsimp only
    by_cases hharmless : Harmless data
    · rw [omitData_of_harmless hdata hharmless, Map.insert_of_get hnodup hget]
      rcases hharmless with hblank | hurl
      · rw [if_neg (not_not.mpr hblank)]
        split <;> rfl
      · rw [if_pos hurl, if_pos hurl]
    · have hurl : ¬ isImageUrl (Text.trim data) = true := fun hurl => hharmless (.inr hurl)
      rw [omitData_of_payload hdata hharmless, if_neg hurl, if_neg hurl,
        if_pos (fun hblank => hharmless (.inl hblank))]

theorem redactInline_fst (hnodup : (Map.keys map).Nodup) (key : String) (found : ImageUrls) :
    (redactInline key map found).1 = map.map fun m => (m.1, if m.1 = key then omitData m.2 else m.2) := by
  rw [Map.map_member hnodup]
  rcases redactInline_cases hnodup key found with ⟨hnone, hsame⟩ | ⟨data, w, hget, -, hredacted⟩
  · rw [hsame]
    rw [textAt_object] at hnone
    rcases hget : Map.get map key with _ | w
    · rfl
    · rw [hget, Option.bind_some] at hnone
      dsimp only
      rw [omitData_of_none hnone, Map.insert_of_get hnodup hget]
  · rw [hredacted, hget]

theorem Collected.redactInline (h : Collected texts found) (hnodup : (Map.keys map).Nodup) (key : String) :
    Collected (texts ++ (textAt [key, "data"] (.object map)).toList) (redactInline key map found).2 := by
  rcases redactInline_cases hnodup key found with ⟨hnone, hsame⟩ | ⟨data, w, hget, hdata, hredacted⟩
  · rw [hnone, hsame, Option.toList_none, List.append_nil]
    exact h
  · rw [textAt_object, hget, Option.bind_some, hdata, hredacted]
    dsimp only
    split
    · exact h.insert ‹_›
    · exact h.skip ‹_›

theorem Collected.collectFileUri (h : Collected texts found) (map : Map) :
    Collected (texts ++ (textAt ["file_data", "file_uri"] (.object map)).toList) (collectFileUri map found) := by
  rw [textAt_object]
  unfold AdminRedaction.collectFileUri
  rcases Map.get map "file_data" with _ | w
  · exact (List.append_nil texts).symm ▸ h
  rw [Option.bind_some, ← textUnder_eq (by decide)]
  cases w with
  | object fileData => exact h.pushTextUnder "file_uri" (.object fileData)
  | null | bool | number | string | array => exact (List.append_nil texts).symm ▸ h

/-- The two turns of the loop redact the members. -/
theorem redactInline_redactInline_fst (hnodup : (Map.keys map).Nodup) (found found' : ImageUrls) :
    (redactInline "inline_data" (redactInline "inlineData" map found).1 found').1 =
      map.map fun m => (m.1, redactMember m.1 m.2) := by
  have hkeys : (Map.keys (redactInline "inlineData" map found).1).Nodup := by
    rw [redactInline_fst hnodup, Map.keys_map map fun key v => if key = "inlineData" then omitData v else v]
    exact hnodup
  rw [redactInline_fst hkeys, redactInline_fst hnodup, List.map_map]
  apply List.map_congr_left
  intro m _
  rw [Function.comp_apply, redactMember]
  by_cases hcamel : m.1 = "inlineData"
  · rw [hcamel]
    rfl
  · by_cases hsnake : m.1 = "inline_data"
    · rw [hsnake]
      rfl
    · have hkey : m.1 ∉ inlineKeys := by
        simp only [inlineKeys, List.mem_cons, hcamel, hsnake, List.not_mem_nil, or_self, not_false_eq_true]
      rw [if_neg hcamel, if_neg hsnake, if_neg hkey]

/-! ## What redacting leaves as it is -/

theorem omitData_cases (v : Value) :
    (omitData v = v ∧ ∀ data, textAt ["data"] v = some data → Harmless data) ∨
    ∃ inline data, v = .object inline ∧ Map.get inline "data" = some (.string data) ∧ ¬ Harmless data ∧
      omitData v = .object (Map.insert inline "data" (.string (omitted data))) := by
  rcases htext : textAt ["data"] v with _ | data
  · exact .inl ⟨omitData_of_none htext, nofun⟩
  · obtain ⟨inline, rfl, hdata⟩ := exists_of_textAt_data htext
    by_cases hharmless : Harmless data
    · refine .inl ⟨omitData_of_harmless hdata hharmless, fun data' hdata' => ?_⟩
      rwa [← Option.some.inj hdata']
    · exact .inr ⟨inline, data, rfl, hdata, hharmless, omitData_of_payload hdata hharmless⟩

/-- The redacted data in place. -/
theorem insert_data_eq {inline : Map} (hnodup : (Map.keys inline).Nodup) {data : String}
    (hdata : Map.get inline "data" = some (.string data)) (text : String) :
    Map.insert inline "data" (.string text) =
      inline.map fun m => (m.1, if m.1 = "data" then .string text else m.2) := by
  have hmap := Map.map_member hnodup "data" fun _ => .string text
  rw [hdata] at hmap
  exact hmap.symm

theorem Distinct.omitData {v : Value} (hv : v.Distinct) : (omitData v).Distinct := by
  rcases omitData_cases v with ⟨hsame, -⟩ | ⟨inline, data, rfl, -, -, hredacted⟩
  · rwa [hsame]
  · rw [hredacted]
    exact hv.insert (Value.distinct_string _) "data"

theorem textsBelow_omitData {v : Value} (hv : v.Distinct) :
    textsBelow walkTexts (omitData v) = textsBelow walkTexts v := by
  rcases omitData_cases v with ⟨hsame, -⟩ | ⟨inline, data, rfl, hdata, -, hredacted⟩
  · rw [hsame]
  have hnodup := (Value.distinct_object.mp hv).1
  have hown : walkTexts (.object (Map.insert inline "data" (.string (omitted data)))) =
      walkTexts (.object inline) := by
    have hget : ∀ key ≠ "data", Map.get (Map.insert inline "data" (.string (omitted data))) key =
        Map.get inline key := by
      intro key hkey
      rw [Map.get_insert, if_neg hkey]
    simp only [walkTexts, List.filterMap_cons, List.filterMap_nil, textAt_object, hget "inlineData" (by decide),
      hget "inline_data" (by decide), hget "file_data" (by decide)]
  rw [hredacted, textsBelow_eq, textsBelow_eq, hown, insert_data_eq hnodup hdata]
  congr 1
  simp only [Value.children, List.map_map, List.flatMap_map]
  apply List.flatMap_congr
  intro m hm
  dsimp only [Function.comp_apply]
  split
  · -- a text has no texts below it, before and after
    rename_i hkey
    have hm' := (Map.get_eq_some_iff hnodup).mpr hm
    rw [hkey, hdata, Option.some.injEq] at hm'
    rw [← hm']
    rfl
  · rfl

theorem redactMember_data (v : Value) : redactMember "data" v = v := if_neg (by decide)

/-- The member of an array index is left alone. -/
theorem redactMember_of_index (token : String) (v : Value) (htoken : (Json.parseIndex token).isSome = true) :
    redactMember token v = v := by
  unfold redactMember inlineKeys
  rw [if_neg]
  simp only [List.mem_cons, List.not_mem_nil, or_false]
  rintro (rfl | rfl) <;> revert htoken <;> decide

theorem asStr_mapMembers (f : String → Value → Value) (v : Value) : (Value.mapMembers f v).asStr = v.asStr := by
  cases v <;> rfl

theorem textAt_data_mapMembers (v : Value) :
    textAt ["data"] (Value.mapMembers redactMember v) = textAt ["data"] v := by
  unfold textAt
  rw [Value.at?_singleton, Value.at?_singleton, Value.child_mapMembers redactMember redactMember_of_index]
  rcases v.child "data" with _ | w
  · rfl
  · rw [Option.map_some, Option.bind_some, Option.bind_some, redactMember_data, asStr_mapMembers]

/-- Redacting the inner members and redacting the data go together in either order. -/
theorem mapMembers_omitData {v : Value} (hv : v.Distinct) :
    Value.mapMembers redactMember (omitData v) = omitData (Value.mapMembers redactMember v) := by
  rcases omitData_cases v with ⟨hsame, hharmless⟩ | ⟨inline, data, rfl, hdata, hharmless, hredacted⟩
  · rw [hsame]
    rcases omitData_cases (Value.mapMembers redactMember v) with ⟨hsame', -⟩ | ⟨inline, data, hv', hdata, hpayload, -⟩
    · exact hsame'.symm
    · have htext : textAt ["data"] (Value.mapMembers redactMember v) = some data := by
        rw [hv', textAt_eq_some, Value.at?_singleton]
        exact hdata
      rw [textAt_data_mapMembers] at htext
      exact absurd (hharmless data htext) hpayload
  · have hnodup := (Value.distinct_object.mp hv).1
    have hdata' : Map.get (inline.map fun m => (m.1, redactMember m.1 (Value.mapMembers redactMember m.2))) "data" =
        some (.string data) := by
      rw [Map.get_map inline fun key w => redactMember key (Value.mapMembers redactMember w), hdata, Option.map_some,
        redactMember_data]
      rfl
    have hnodup' : (Map.keys (inline.map fun m =>
        (m.1, redactMember m.1 (Value.mapMembers redactMember m.2)))).Nodup := by
      rw [Map.keys_map inline fun key w => redactMember key (Value.mapMembers redactMember w)]
      exact hnodup
    rw [hredacted, Value.mapMembers_object, Value.mapMembers_object, omitData_of_payload hdata' hharmless,
      insert_data_eq hnodup hdata, insert_data_eq hnodup' hdata', List.map_map, List.map_map]
    refine congrArg Value.object (List.map_congr_left fun m _ => ?_)
    dsimp only [Function.comp_apply]
    split
    · rename_i hkey
      rw [hkey, redactMember_data]
      rfl
    · rfl

/-! ## The walk -/

theorem walkMembers_fst (map : Map) {rewrite : Value → Value}
    (h : ∀ m ∈ map, ∀ found, (walk m.2 found).1 = rewrite m.2) :
    ∀ found, (walkMembers map found).1 = map.map fun m => (m.1, rewrite m.2) := by
  induction map with
  | nil =>
    intro found
    rw [walkMembers]
    rfl
  | cons m map ih =>
    intro found
    rw [walkMembers, List.map_cons]
    dsimp only
    rw [h m List.mem_cons_self, ih (fun m hm => h m (List.mem_cons_of_mem _ hm))]

theorem walkMembers_snd (map : Map) : ∀ found, (walkMembers map found).2 =
    (map.map Prod.snd).foldl (fun found child => (walk child found).2) found := by
  induction map with
  | nil =>
    intro found
    rw [walkMembers]
    rfl
  | cons m map ih =>
    intro found
    rw [walkMembers]
    exact ih _

theorem walkItems_fst (items : List Value) {rewrite : Value → Value}
    (h : ∀ v ∈ items, ∀ found, (walk v found).1 = rewrite v) :
    ∀ found, (walkItems items found).1 = items.map rewrite := by
  induction items with
  | nil =>
    intro found
    rw [walkItems]
    rfl
  | cons v items ih =>
    intro found
    rw [walkItems, List.map_cons]
    dsimp only
    rw [h v List.mem_cons_self, ih (fun v hv => h v (List.mem_cons_of_mem _ hv))]

theorem walkItems_snd (items : List Value) : ∀ found, (walkItems items found).2 =
    items.foldl (fun found child => (walk child found).2) found := by
  induction items with
  | nil =>
    intro found
    rw [walkItems]
    rfl
  | cons v items ih =>
    intro found
    rw [walkItems]
    exact ih _

/-- What the walk makes of a document, and what it finds in it. -/
def Walks (v : Value) : Prop :=
  ∀ found, (walk v found).1 = Value.mapMembers redactMember v ∧
    ∀ texts, Collected texts found → Collected (texts ++ textsBelow walkTexts v) (walk v found).2

theorem Distinct.redactMember {v : Value} (hv : v.Distinct) (key : String) : (redactMember key v).Distinct := by
  unfold AdminRedaction.redactMember
  split
  · exact Distinct.omitData hv
  · exact hv

theorem mapMembers_redactMember {v : Value} (hv : v.Distinct) (key : String) :
    Value.mapMembers redactMember (redactMember key v) = redactMember key (Value.mapMembers redactMember v) := by
  by_cases hkey : key ∈ inlineKeys
  · rw [redactMember, redactMember, if_pos hkey, if_pos hkey, mapMembers_omitData hv]
  · rw [redactMember, redactMember, if_neg hkey, if_neg hkey]

theorem textsBelow_redactMember {v : Value} (hv : v.Distinct) (key : String) :
    textsBelow walkTexts (redactMember key v) = textsBelow walkTexts v := by
  unfold redactMember
  split
  · exact textsBelow_omitData hv
  · rfl

/-- The turns of the loop and the file find the texts of the object itself. -/
theorem Collected.ownTexts (h : Collected texts found) (hnodup : (Map.keys map).Nodup) :
    let camel := AdminRedaction.redactInline "inlineData" map found
    let snake := AdminRedaction.redactInline "inline_data" camel.1 camel.2
    Collected (texts ++ walkTexts (.object map)) (AdminRedaction.collectFileUri snake.1 snake.2) := by
  intro camel snake
  have hcamel : camel.1 = map.map fun m => (m.1, if m.1 = "inlineData" then omitData m.2 else m.2) :=
    redactInline_fst hnodup "inlineData" found
  have hkeys : (Map.keys camel.1).Nodup := by
    rw [hcamel, Map.keys_map map fun key v => if key = "inlineData" then omitData v else v]
    exact hnodup
  have hsnake : snake.1 = map.map fun m => (m.1, redactMember m.1 m.2) :=
    redactInline_redactInline_fst hnodup found camel.2
  have hfound := ((h.redactInline hnodup "inlineData").redactInline hkeys "inline_data").collectFileUri snake.1
  -- redacting the members under one key leaves the texts under the others
  have hdata : textAt ["inline_data", "data"] (.object camel.1) = textAt ["inline_data", "data"] (.object map) := by
    rw [textAt_object, textAt_object, hcamel,
      Map.get_map map fun key v => if key = "inlineData" then omitData v else v]
    simp only [String.reduceEq, if_false, Option.map_id']
  have hfile : textAt ["file_data", "file_uri"] (.object snake.1) =
      textAt ["file_data", "file_uri"] (.object map) := by
    rw [textAt_object, textAt_object, hsnake, Map.get_map map redactMember]
    have hkey : redactMember "file_data" = id := funext fun v => if_neg (by decide)
    rw [hkey, Option.map_id, id_eq]
  have htexts : walkTexts (.object map) = (textAt ["inlineData", "data"] (.object map)).toList ++
      (textAt ["inline_data", "data"] (.object map)).toList ++
      (textAt ["file_data", "file_uri"] (.object map)).toList := by
    unfold walkTexts
    simp only [List.filterMap_cons, List.filterMap_nil]
    rcases textAt ["inlineData", "data"] (.object map) with _ | _ <;>
      rcases textAt ["inline_data", "data"] (.object map) with _ | _ <;>
      rcases textAt ["file_data", "file_uri"] (.object map) with _ | _ <;> rfl
  rw [hdata, hfile] at hfound
  rw [htexts, ← List.append_assoc, ← List.append_assoc]
  exact hfound

theorem walks_of_height (n : ℕ) : ∀ v : Value, v.height = n → v.Distinct → Walks v := by
  induction n using Nat.strong_induction_on with
  | h n ih =>
    intro v hn hv found
    cases v with
    | object map =>
      obtain ⟨hnodup, hmembers⟩ := Value.distinct_object.mp hv
      let camel := redactInline "inlineData" map found
      let snake := redactInline "inline_data" camel.1 camel.2
      have hsnake : snake.1 = map.map fun m => (m.1, redactMember m.1 m.2) :=
        redactInline_redactInline_fst hnodup found camel.2
      -- the walk goes down into the redacted members
      have hwalks : ∀ m ∈ snake.1, Walks m.2 := by
        intro m hm
        have hheight : m.2.height < n := by
          have hle := (height_redactInline_le "inline_data" camel.1 camel.2).trans
            (height_redactInline_le "inlineData" map found)
          have hlt := Value.heightMembers_lt map
          have hmember := Value.heightMembers_le_iff.mp hle m hm
          omega
        refine ih _ hheight m.2 rfl ?_
        rw [hsnake] at hm
        obtain ⟨m', hm', rfl⟩ := List.mem_map.mp hm
        exact Distinct.redactMember (hmembers m' hm') m'.1
      rw [walk]
      dsimp only
      constructor
      · have hfst := walkMembers_fst snake.1 (fun m hm found => (hwalks m hm found).1)
          (collectFileUri snake.1 snake.2)
        rw [Value.mapMembers_object, hfst, hsnake, List.map_map]
        refine congrArg Value.object (List.map_congr_left fun m hm => ?_)
        exact congrArg (Prod.mk m.1) (mapMembers_redactMember (hmembers m hm) m.1)
      · intro texts h
        have hchildren : ∀ child ∈ snake.1.map Prod.snd, ∀ texts found, Collected texts found →
            Collected (texts ++ textsBelow walkTexts child) (walk child found).2 := by
          intro child hchild texts found
          obtain ⟨m, hm, rfl⟩ := List.mem_map.mp hchild
          exact (hwalks m hm found).2 texts
        have hfound := Collected.foldl hchildren (h.ownTexts hnodup)
        rw [← walkMembers_snd] at hfound
        have htexts : (snake.1.map Prod.snd).flatMap (textsBelow walkTexts) =
            (map.map Prod.snd).flatMap (textsBelow walkTexts) := by
          rw [hsnake, List.map_map, List.flatMap_map, List.flatMap_map]
          exact List.flatMap_congr fun m hm => textsBelow_redactMember (hmembers m hm) m.1
        rw [htexts] at hfound
        rw [textsBelow_eq, ← List.append_assoc]
        exact hfound
    | array items =>
      have hwalks : ∀ v ∈ items, Walks v := by
        intro child hchild
        have hlt := Value.heightItems_lt items
        have hitem := Value.heightItems_le_iff.mp le_rfl child hchild
        exact ih _ (by omega) child rfl (Value.distinct_array.mp hv child hchild)
      rw [walk]
      dsimp only
      constructor
      · rw [Value.mapMembers_array, walkItems_fst items fun v hv found => (hwalks v hv found).1]
      · intro texts h
        have hnone : walkTexts (.array items) = [] := by
          simp only [walkTexts, List.filterMap_cons, List.filterMap_nil,
            textAt_array (show Json.parseIndex "inlineData" = none by decide),
            textAt_array (show Json.parseIndex "inline_data" = none by decide),
            textAt_array (show Json.parseIndex "file_data" = none by decide)]
        rw [textsBelow_eq, hnone, List.nil_append, walkItems_snd]
        exact Collected.foldl (fun child hchild _ _ => (hwalks child hchild _).2 _) h
    | null | bool | number | string =>
      rw [walk]
      · refine ⟨rfl, fun texts h => ?_⟩
        exact (List.append_nil texts).symm ▸ h
      · intro map hmap
        cases hmap
      · intro items hitems
        cases hitems

end GeminiWorker.AdminRedaction
