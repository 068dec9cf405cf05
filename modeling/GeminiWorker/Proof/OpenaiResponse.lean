import GeminiWorker.Lib.JsonLayout
import GeminiWorker.Lib.TextSearch
import GeminiWorker.Proof.Uploader
import GeminiWorker.Spec.OpenaiResponse

/-!
# What becomes of the images of an OpenAI response

* `parseOpenaiImageDataUrl_eq_some_iff`: which URLs are read as data URLs.
* `openaiImages_served`: the images are served in their order, up to the first that fails.
* `imageForms_alike`: an image is served alike as base64 text and as a data URL.
-/

namespace GeminiWorker

open Json (Value Map)
open Dialogue (InTurn)

/-! ## Data URLs -/

/-- The type in front of the parameters. -/
def typeSegment (metadata : String) : Option String :=
  ((Text.split ';' metadata).head?.map Text.trim).filter (Text.containsChar '/')

def isBase64Segment (segment : String) : Bool := Text.eqIgnoreAsciiCase (Text.trim segment) "base64"

/-- The type that a data URL declares, with the default of the source. -/
def declaredMimeType (metadata : String) : String :=
  ((typeSegment metadata).map Text.toAsciiLowercase).getD "image/png"

theorem not_slash_of_base64 {segment : String} (h : Text.eqIgnoreAsciiCase segment "base64" = true) :
    Text.containsChar '/' segment = false := by
  unfold Text.containsChar
  rw [decide_eq_false_iff_not]
  intro hslash
  have hlower : Text.toAsciiLowercase segment = "base64" := by
    have hsame := eq_of_beq h
    rwa [show Text.toAsciiLowercase "base64" = "base64" by decide +kernel] at hsame
  -- the slash stays in lower case
  have hmem : '/' ∈ (Text.toAsciiLowercase segment).toList := by
    unfold Text.toAsciiLowercase
    rw [String.toList_ofList]
    exact List.mem_map.mpr ⟨'/', hslash, by decide⟩
  rw [hlower] at hmem
  exact absurd hmem (by decide)

/-- Behind the first segment only the flag can change. -/
theorem foldl_readSegment (segments : List String) : ∀ (i : ℕ) (state : Option String × Bool), 0 < i →
    (segments.zipIdx i).foldl readSegment state = (state.1, state.2 || segments.any isBase64Segment) := by
  induction segments with
  | nil =>
    intro i state _
    simp
  | cons segment segments ih =>
    intro i state hi
    have hround : readSegment state (segment, i) = (state.1, state.2 || isBase64Segment segment) := by
      have hi : i ≠ 0 := by omega
      unfold readSegment isBase64Segment
      dsimp only
      by_cases hblank : Text.trim segment = ""
      · have hempty : Text.eqIgnoreAsciiCase "" "base64" = false := by decide +kernel
        rw [if_pos hblank, hblank, hempty, Bool.or_false]
      · rw [if_neg hblank, if_neg (fun h => hi h.1)]
        by_cases hbase64 : Text.eqIgnoreAsciiCase (Text.trim segment) "base64" = true
        · rw [if_pos hbase64, hbase64, Bool.or_true]
        · rw [if_neg hbase64, Bool.eq_false_iff.mpr hbase64, Bool.or_false]
    rw [List.zipIdx_cons, List.foldl_cons, hround, ih (i + 1) _ (by omega), List.any_cons, Bool.or_assoc]

theorem readSegments_eq (metadata : String) :
    (Text.split ';' metadata).zipIdx.foldl readSegment (none, false) =
      ((typeSegment metadata).map Text.toAsciiLowercase, (Text.split ';' metadata).any isBase64Segment) := by
  unfold typeSegment
  rcases Text.split ';' metadata with _ | ⟨first, segments⟩
  · simp
  · have hround : readSegment (none, false) (first, 0) =
        (((some (Text.trim first)).filter (Text.containsChar '/')).map Text.toAsciiLowercase, isBase64Segment first) := by
      unfold readSegment isBase64Segment
      dsimp only
      by_cases hblank : Text.trim first = ""
      · have hempty : Text.eqIgnoreAsciiCase "" "base64" = false ∧ Text.containsChar '/' "" = false := by decide +kernel
        rw [if_pos hblank, hblank, hempty.1, Option.filter_some, if_neg (by simp [hempty.2]), Option.map_none]
      · rw [if_neg hblank]
        by_cases hslash : Text.containsChar '/' (Text.trim first) = true
        · have hflag : Text.eqIgnoreAsciiCase (Text.trim first) "base64" = false := by
            by_contra hbase64
            rw [Bool.not_eq_false] at hbase64
            rw [not_slash_of_base64 hbase64] at hslash
            cases hslash
          rw [if_pos ⟨rfl, hslash⟩, hflag, Option.filter_some, if_pos hslash, Option.map_some]
        · rw [if_neg (fun h => hslash h.2), Option.filter_some, if_neg hslash, Option.map_none]
          by_cases hbase64 : Text.eqIgnoreAsciiCase (Text.trim first) "base64" = true
          · rw [if_pos hbase64, hbase64]
          · rw [if_neg hbase64, Bool.eq_false_iff.mpr hbase64]
    rw [List.zipIdx_cons, List.foldl_cons, hround, foldl_readSegment segments _ _ (by omega), List.any_cons,
      List.head?_cons, Option.map_some]

/-- A data URL of an image has a base64 parameter, and text behind the first comma. -/
structure DataUrlOf (raw : String) (parsed : ParsedOpenAiImageDataUrl) (metadata text : String) : Prop where
  written : raw = "data:" ++ (metadata ++ "," ++ text)
  comma : ',' ∉ metadata.toList
  data : Text.trim text = parsed.dataBase64
  ne_empty : parsed.dataBase64 ≠ ""
  base64 : (Text.split ';' metadata).any isBase64Segment = true
  mimeType : declaredMimeType metadata = parsed.mimeType
  image : Text.startsWith "image/" parsed.mimeType = true

theorem parseOpenaiImageDataUrl_eq_some_iff {raw : String} {parsed : ParsedOpenAiImageDataUrl} :
    parseOpenaiImageDataUrl raw = some parsed ↔ ∃ metadata text, DataUrlOf raw parsed metadata text := by
  have hsplit : ∀ payload metadata text : String, Text.splitOnce ',' payload = some (metadata, text) ↔
      ',' ∉ metadata.toList ∧ payload = metadata ++ "," ++ text := by
    intro payload metadata text
    rw [Text.splitOnce_eq_some_iff, ← String.toList_inj]
    simp
  constructor
  · intro h
    obtain ⟨payload, hpayload, hrest⟩ := Option.bind_eq_some_iff.mp h
    obtain ⟨⟨metadata, text⟩, hparts, hparsed⟩ := Option.bind_eq_some_iff.mp hrest
    obtain ⟨hcomma, rfl⟩ := (hsplit payload metadata text).mp hparts
    clear h hrest
    dsimp only at hparsed
    rw [readSegments_eq] at hparsed
    by_cases hempty : Text.trim text = ""
    · rw [if_pos hempty] at hparsed
      cases hparsed
    · rw [if_neg hempty] at hparsed
      by_cases hbase64 : (Text.split ';' metadata).any isBase64Segment = true
      · rw [if_neg (by simp [hbase64])] at hparsed
        by_cases himage : Text.startsWith "image/" (declaredMimeType metadata) = true
        · rw [if_neg (by simpa [declaredMimeType] using himage)] at hparsed
          obtain rfl := Option.some.inj hparsed
          exact ⟨metadata, text, Text.stripPrefix_eq_some_iff.mp hpayload, hcomma, rfl, hempty, hbase64, rfl, himage⟩
        · rw [if_pos (by simpa [declaredMimeType] using himage)] at hparsed
          cases hparsed
      · rw [if_pos (by simp [Bool.eq_false_iff.mpr hbase64])] at hparsed
        cases hparsed
  · rintro ⟨metadata, text, hraw, hcomma, hdata, hne, hbase64, hmimeType, himage⟩
    have hpayload := Text.stripPrefix_eq_some_iff.mpr hraw
    have hparts := (hsplit _ metadata text).mpr ⟨hcomma, rfl⟩
    obtain ⟨mimeType, dataBase64⟩ := parsed
    dsimp only at hdata hne hmimeType himage
    unfold parseOpenaiImageDataUrl
    rw [hpayload, Option.bind_eq_bind, Option.bind_some, hparts, Option.bind_eq_bind, Option.bind_some]
    dsimp only
    rw [readSegments_eq, hdata, if_neg hne, if_neg (by simp [hbase64])]
    unfold declaredMimeType at hmimeType
    rw [if_neg (by simp [hmimeType, himage]), hmimeType]

/-! ## The images in their order -/

section

variable (env : OpenaiResponseEnv) (uploads : ℕ → UploaderEnv) (config : UploaderConfig)

theorem uploadOpenaiImage_of_decode {upload : UploaderEnv} {stage declaredMimeType dataBase64 : String} {data : List UInt8}
    (h : Base64.decode (Text.bytes dataBase64) = some data) :
    uploadOpenaiImage env config upload stage declaredMimeType dataBase64 =
      (uploadInlineDataBase64 upload config ((sniffImageMimeType data).getD declaredMimeType) dataBase64).map fun result =>
        (result.map fun uploadResult =>
          ⟨buildOpenaiImageOutputUrl env uploadResult.provider uploadResult.url⟩).mapError .upload := by
  unfold uploadOpenaiImage
  rw [h]

theorem uploadOpenaiImage_of_not_decode {upload : UploaderEnv} {stage declaredMimeType dataBase64 : String}
    (h : Base64.decode (Text.bytes dataBase64) = none) :
    uploadOpenaiImage env config upload stage declaredMimeType dataBase64 =
      .done (.error (.proxy ⟨MSG_DECODE_UPSTREAM_B64_FAILED, stage, "invalid_base64",
        env.decodeError (Text.bytes dataBase64)⟩)) := by
  unfold uploadOpenaiImage
  rw [h]

variable {env uploads config}

theorem itemServed_upload {item : OpenAiImageItem} {dataBase64 mimeType : String} (stage : String)
    (hpayload : item.payload = some (dataBase64, mimeType)) (i : ℕ) (answers : ℕ → UploadAnswer) :
    ItemServed env uploads config (item, i) answers
      ((uploadOpenaiImage env config (uploads i) stage mimeType dataBase64).run answers).1
      ((uploadOpenaiImage env config (uploads i) stage mimeType dataBase64).run answers).2 := by
  rcases hdata : Base64.decode (Text.bytes dataBase64) with _ | data
  · rw [uploadOpenaiImage_of_not_decode env config hdata, Dialogue.run]
    exact .undecodable i answers _ hpayload hdata rfl
  · obtain ⟨hrequests, hresult⟩ := @uploadInlineDataBase64_alike (uploads i) config
      ((sniffImageMimeType data).getD mimeType) data dataBase64 hdata answers
    rw [uploadOpenaiImage_of_decode env config hdata, Dialogue.run_map, hresult]
    dsimp only
    exact .uploaded i answers hpayload hdata hrequests

theorem itemServed_of_run {e : OpenAiImageItem × ℕ} {answers : ℕ → UploadAnswer} {requests : List UploadRequest}
    {outcome : Except OpenaiImageError UploadedImage}
    (h : (serveOpenaiImageItem env uploads config e).run answers = (requests, outcome)) :
    ItemServed env uploads config e answers requests outcome := by
  obtain ⟨item, i⟩ := e
  have hserved : ItemServed env uploads config (item, i) answers
      ((serveOpenaiImageItem env uploads config (item, i)).run answers).1
      ((serveOpenaiImageItem env uploads config (item, i)).run answers).2 := by
    cases item with
    | b64Json base64Image => exact itemServed_upload "decode_b64_json" rfl i answers
    | dataUrl mimeType dataBase64 => exact itemServed_upload "decode_data_url" rfl i answers
    | url url => exact .direct url i answers
  rwa [h] at hserved

/-- The body is a document whose `data` holds these items. -/
def HoldsItems (env : OpenaiResponseEnv) (bodyBytes : List UInt8) (upstreamBody : Value) (items : List OpenAiImageItem) :
    Prop :=
  env.fromSlice bodyBytes = .ok upstreamBody ∧ ∃ elements, upstreamBody.get "data" = some (.array elements) ∧
    elements ≠ [] ∧ List.Forall₂ (fun element item => openaiImageItem element = .ok item) elements items

theorem extractOpenaiImageItems_eq_ok_iff {body : Value} {items : List OpenAiImageItem} :
    extractOpenaiImageItems body = .ok items ↔ ∃ elements, body.get "data" = some (.array elements) ∧
      elements ≠ [] ∧ List.Forall₂ (fun element item => openaiImageItem element = .ok item) elements items := by
  have hdata : ∀ elements, (body.get "data").bind Value.asArray = some elements ↔
      body.get "data" = some (.array elements) := by
    intro elements
    rw [Option.bind_eq_some_iff]
    constructor
    · rintro ⟨value, hvalue, harray⟩
      cases value with
      | array items =>
        obtain rfl := Option.some.inj harray
        exact hvalue
      | _ => cases harray
    · exact fun h => ⟨.array elements, h, rfl⟩
  unfold extractOpenaiImageItems
  rcases hget : (body.get "data").bind Value.asArray with _ | elements
  · constructor
    · intro h
      cases h
    · rintro ⟨elements, helements, -⟩
      rw [(hdata elements).mpr helements] at hget
      cases hget
  · have hvalue := (hdata elements).mp hget
    rcases elements with _ | ⟨element, elements⟩
    · constructor
      · intro h
        cases h
      · rintro ⟨elements, helements, hne, -⟩
        rw [hvalue] at helements
        cases helements
        exact absurd rfl hne
    · dsimp only
      rw [Except.mapM_eq_ok_iff]
      constructor
      · exact fun h => ⟨_, hvalue, List.cons_ne_nil element elements, h⟩
      · rintro ⟨others, hothers, -, hitems⟩
        rw [hvalue] at hothers
        cases hothers
        exact hitems

/-- What a response comes to: with the items in `served` and then those in `rest`, whose first fails. -/
structure ServedUpTo (env : OpenaiResponseEnv) (uploads : ℕ → UploaderEnv) (config : UploaderConfig) (answers : ℕ → UploadAnswer)
    (run : List UploadRequest × Except OpenaiImageError Response) (respond : List UploadedImage → Response)
    (served rest : List (OpenAiImageItem × ℕ)) (requests : List (List UploadRequest)) (images : List UploadedImage) : Prop where
  served : InTurn (fun e answers requests image => ItemServed env uploads config e answers requests (.ok image)) served
    answers requests images
  done : rest = [] → run = (requests.flatten, .ok (respond images))
  failed : ∀ item later, rest = item :: later → ∃ last error,
    ItemServed env uploads config item (fun i => answers (requests.flatten.length + i)) last (.error error) ∧
      run = (requests.flatten ++ last, .error error)

/-- **Every image becomes a URL, in its place, and the first that fails ends the response**: the images before it are
uploaded one after the other, each with the bytes that its text encodes and under the type found in them, and none
behind it. For a body without images nothing is asked. -/
theorem openaiImages_served (bodyBytes : List UInt8) (fallbackCreated : Int) (answers : ℕ → UploadAnswer) :
    ((∀ upstreamBody items, ¬ HoldsItems env bodyBytes upstreamBody items) ∧
      ∃ error, (finishOpenaiImageResponse env uploads config bodyBytes fallbackCreated).run answers =
        ([], .error (.proxy error))) ∨
    ∃ upstreamBody items served rest requests images, HoldsItems env bodyBytes upstreamBody items ∧
      items.zipIdx = served ++ rest ∧
      ServedUpTo env uploads config answers
        ((finishOpenaiImageResponse env uploads config bodyBytes fallbackCreated).run answers)
        (fun images => jsonResponse 200 (buildResponsePayload env upstreamBody images fallbackCreated))
        served rest requests images := by
  unfold finishOpenaiImageResponse
  rcases hbody : env.fromSlice bodyBytes with err | upstreamBody
  · refine Or.inl ⟨fun upstreamBody items h => ?_, _, rfl⟩
    rw [HoldsItems, hbody] at h
    cases h.1
  dsimp only
  rcases hitems : extractOpenaiImageItems upstreamBody with error | items
  · refine Or.inl ⟨fun other items h => ?_, error, rfl⟩
    obtain ⟨hother, helements⟩ := h
    rw [hbody] at hother
    obtain rfl := Except.ok.inj hother
    rw [extractOpenaiImageItems_eq_ok_iff.mpr helements] at hitems
    cases hitems
  · obtain ⟨served, rest, requests, images, hsplit, hserved, hdone, hfailed⟩ :=
      Dialogue.run_inTurn (serveOpenaiImageItem env uploads config) items.zipIdx answers
    refine Or.inr ⟨upstreamBody, items, served, rest, requests, images,
      ⟨hbody, extractOpenaiImageItems_eq_ok_iff.mp hitems⟩, hsplit, ?_, fun h => ?_, fun item later h => ?_⟩
    · exact hserved.mono fun e answers requests image hrun => itemServed_of_run hrun
    · dsimp only
      rw [Dialogue.run_map, hdone h]
      rfl
    · obtain ⟨last, error, hlast, hrun⟩ := hfailed item later h
      refine ⟨last, error, itemServed_of_run hlast, ?_⟩
      dsimp only
      rw [Dialogue.run_map, hrun]
      rfl

/-! ## Base64 text and data URLs -/

/-- An element of `data` that gives the image with these bytes. -/
inductive GivesImage (bytes : List UInt8) (element : Value) : Prop
  | b64Json (text : (element.get "b64_json").bind Value.asStr = some (Base64.encodeText bytes))
  | dataUrl {target metadata text : String} {parsed : ParsedOpenAiImageDataUrl}
      (absent : ∀ value, (element.get "b64_json").bind Value.asStr = some value → Text.trim value = "")
      (url : (element.get "url").bind Value.asStr = some target) (parses : DataUrlOf (Text.trim target) parsed metadata text)
      (data : parsed.dataBase64 = Base64.encodeText bytes)

theorem GivesImage.item {bytes : List UInt8} {element : Value} (h : GivesImage bytes element) (hne : bytes ≠ []) :
    ∃ item mimeType, openaiImageItem element = .ok item ∧ item.payload = some (Base64.encodeText bytes, mimeType) := by
  unfold openaiImageItem
  rcases h with htext | ⟨habsent, hurl, hparses, hdata⟩
  · refine ⟨.b64Json (Base64.encodeText bytes), "image/png", ?_, rfl⟩
    rw [htext, Option.filter_some, if_pos (by simpa using Base64.trim_encodeText_ne_empty hne)]
  · rename_i target metadata text parsed
    have hnone : ((element.get "b64_json").bind Value.asStr).filter (Text.trim · != "") = none := by
      rw [Option.filter_eq_none_iff]
      intro value hvalue
      simp [habsent value hvalue]
    have hurl_ne : Text.trim target ≠ "" := by
      intro hempty
      have hwritten := congrArg String.toList hparses.written
      rw [hempty] at hwritten
      simp at hwritten
    have hparsed := parseOpenaiImageDataUrl_eq_some_iff.mpr ⟨metadata, text, hparses⟩
    refine ⟨.dataUrl parsed.mimeType parsed.dataBase64, parsed.mimeType, ?_, by rw [OpenAiImageItem.payload, hdata]⟩
    rw [hnone, hurl, Option.map_some, Option.filter_some, if_pos (by simpa using hurl_ne)]
    dsimp only
    rw [hparsed]

theorem serveOpenaiImageItem_of_payload {item : OpenAiImageItem} {bytes : List UInt8} {declared mimeType : String}
    (hpayload : item.payload = some (Base64.encodeText bytes, declared)) (hsniffed : sniffImageMimeType bytes = some mimeType)
    (i : ℕ) :
    serveOpenaiImageItem env uploads config (item, i) =
      (uploadInlineDataBase64 (uploads i) config mimeType (Base64.encodeText bytes)).map fun result =>
        (result.map fun uploadResult =>
          ⟨buildOpenaiImageOutputUrl env uploadResult.provider uploadResult.url⟩).mapError .upload := by
  have hdecode : Base64.decode (Text.bytes (Base64.encodeText bytes)) = some bytes := by
    rw [Base64.bytes_encodeText, Base64.decode_encode]
  unfold serveOpenaiImageItem
  cases item with
  | b64Json base64Image =>
    obtain ⟨rfl, rfl⟩ := Prod.mk.inj (Option.some.inj hpayload)
    dsimp only
    rw [uploadOpenaiImage_of_decode env config hdecode, hsniffed, Option.getD_some]
  | dataUrl declared dataBase64 =>
    obtain ⟨rfl, rfl⟩ := Prod.mk.inj (Option.some.inj hpayload)
    dsimp only
    rw [uploadOpenaiImage_of_decode env config hdecode, hsniffed, Option.getD_some]
  | url url => cases hpayload

/-- The elements are the same, or give the same image, of a type that is recognized. -/
def SameElement (element element' : Value) : Prop :=
  element = element' ∨ ∃ bytes mimeType, sniffImageMimeType bytes = some mimeType ∧ GivesImage bytes element ∧
    GivesImage bytes element'

theorem ne_nil_of_sniff {bytes : List UInt8} {mimeType : String} (h : sniffImageMimeType bytes = some mimeType) :
    bytes ≠ [] := by
  rintro rfl
  have hnone : sniffImageMimeType [] = none := by decide +kernel
  rw [hnone] at h
  cases h

theorem SameElement.items {element element' : Value} (h : SameElement element element') :
    Except.Related (fun item item' => ∀ i, serveOpenaiImageItem env uploads config (item, i) =
      serveOpenaiImageItem env uploads config (item', i)) (openaiImageItem element) (openaiImageItem element') := by
  rcases h with rfl | ⟨bytes, mimeType, hsniffed, hgives, hgives'⟩
  · rcases openaiImageItem element with error | item
    · exact .error error
    · exact .ok fun i => rfl
  · obtain ⟨item, declared, hitem, hpayload⟩ := hgives.item (ne_nil_of_sniff hsniffed)
    obtain ⟨item', declared', hitem', hpayload'⟩ := hgives'.item (ne_nil_of_sniff hsniffed)
    rw [hitem, hitem']
    refine .ok fun i => ?_
    rw [serveOpenaiImageItem_of_payload hpayload hsniffed, serveOpenaiImageItem_of_payload hpayload' hsniffed]

theorem forall₂_zipIdx {α β : Type} {R : α → β → Prop} {l : List α} {l' : List β} (h : List.Forall₂ R l l') (n : ℕ) :
    List.Forall₂ (fun e e' => R e.1 e'.1 ∧ e.2 = e'.2) (l.zipIdx n) (l'.zipIdx n) := by
  induction h generalizing n with
  | nil => exact .nil
  | cons hhead _ ih =>
    rw [List.zipIdx_cons, List.zipIdx_cons]
    exact .cons ⟨hhead, rfl⟩ (ih (n + 1))

theorem extractOpenaiImageItems_related {members : Map} {elements elements' : List Value}
    (h : List.Forall₂ SameElement elements elements') :
    Except.Related (List.Forall₂ fun item item' => ∀ i, serveOpenaiImageItem env uploads config (item, i) =
      serveOpenaiImageItem env uploads config (item', i))
      (extractOpenaiImageItems (.object (members.insert "data" (.array elements))))
      (extractOpenaiImageItems (.object (members.insert "data" (.array elements')))) := by
  have hdata : ∀ elements, (Value.get (.object (members.insert "data" (.array elements))) "data").bind Value.asArray =
      some elements := by
    intro elements
    unfold Value.get Value.asObject
    rw [Option.bind_some, Map.get_insert, if_pos rfl]
    rfl
  unfold extractOpenaiImageItems
  rw [hdata, hdata]
  cases h with
  | nil => exact .error _
  | cons hhead htail =>
    have hitems := List.Forall₂.cons hhead htail
    exact Except.Related.mapM (hitems.imp fun _ _ h => h.items)

theorem extractCreatedTimestamp_insert (members : Map) (elements elements' : List Value) (fallbackCreated : Int) :
    extractCreatedTimestamp env (.object (members.insert "data" (.array elements))) fallbackCreated =
      extractCreatedTimestamp env (.object (members.insert "data" (.array elements'))) fallbackCreated := by
  have hget : ∀ key ∈ ["created", "finishedTime", "submittedTime", "createTime"], ∀ elements,
      Value.get (.object (members.insert "data" (.array elements))) key = Map.get members key := by
    intro key hkey elements
    have hne : key ≠ "data" := by
      rintro rfl
      simp at hkey
    unfold Value.get Value.asObject
    rw [Option.bind_some, Map.get_insert, if_neg hne]
  unfold extractCreatedTimestamp
  simp only [List.findSome?_cons, List.findSome?_nil]
  simp only [hget "created" (by simp), hget "finishedTime" (by simp), hget "submittedTime" (by simp),
    hget "createTime" (by simp)]

/-- **An image is served alike as base64 text and as a data URL**: the same is asked, with the same answers the
response is the same, and so is what fails. -/
theorem imageForms_alike {members : Map} {elements elements' : List Value} {bodyBytes bodyBytes' : List UInt8}
    (hbody : env.fromSlice bodyBytes = .ok (.object (members.insert "data" (.array elements))))
    (hbody' : env.fromSlice bodyBytes' = .ok (.object (members.insert "data" (.array elements'))))
    (hsame : List.Forall₂ SameElement elements elements') (fallbackCreated : Int) :
    finishOpenaiImageResponse env uploads config bodyBytes fallbackCreated =
      finishOpenaiImageResponse env uploads config bodyBytes' fallbackCreated := by
  have hitems := @extractOpenaiImageItems_related env uploads config members elements elements' hsame
  have hcreated := @extractCreatedTimestamp_insert env members elements elements' fallbackCreated
  unfold finishOpenaiImageResponse buildResponsePayload
  rw [hbody, hbody']
  dsimp only
  rw [hcreated]
  generalize extractOpenaiImageItems (.object (members.insert "data" (.array elements))) = items,
    extractOpenaiImageItems (.object (members.insert "data" (.array elements'))) = items' at hitems
  cases hitems with
  | error error => rfl
  | ok hserve =>
    dsimp only
    rw [Dialogue.inTurn_congr]
    refine (forall₂_zipIdx hserve 0).imp fun e e' h => ?_
    obtain ⟨item, i⟩ := e
    obtain ⟨item', i'⟩ := e'
    obtain ⟨hitem, rfl⟩ := h
    exact hitem i

end

def exampleResponseEnv : OpenaiResponseEnv where
  parse _ := none
  fromSlice bytes := (Json.parse bytes).elim (.error "expected value at line 1 column 1") .ok
  decodeError _ := "Invalid padding"
  parseTimestamp _ := none
  config := ⟨⟨"", "", false, false⟩, "", false⟩

/-- The signature of a PNG, as base64 text and as a data URL. -/
def pngElements : Value × Value :=
  (.object [("b64_json", .string "iVBORw0KGgo=")], .object [("url", .string "data:image/png;base64,iVBORw0KGgo=")])

theorem imageForms_alike_example :
    finishOpenaiImageResponse exampleResponseEnv (fun _ => exampleUploaderEnv) exampleUploaderConfig
        (Json.print (.object (Map.insert [] "data" (.array [pngElements.1])))) 0 =
      finishOpenaiImageResponse exampleResponseEnv (fun _ => exampleUploaderEnv) exampleUploaderConfig
        (Json.print (.object (Map.insert [] "data" (.array [pngElements.2])))) 0 := by
  have hread : ∀ element : Value, element.Distinct → element.Numeric →
      exampleResponseEnv.fromSlice (Json.print (.object (Map.insert [] "data" (.array [element])))) =
        .ok (.object (Map.insert [] "data" (.array [element]))) := by
    intro element hdistinct hnumeric
    unfold exampleResponseEnv
    dsimp only
    rw [Json.parse_print, Option.elim_some]
    · simpa [Map.insert, Map.containsKey, Map.keys] using hdistinct
    · simpa [Map.insert, Map.containsKey, Map.keys] using hnumeric
  have htext : Base64.encodeText [0x89, 80, 78, 71, 0x0D, 0x0A, 0x1A, 0x0A] = "iVBORw0KGgo=" := by decide +kernel
  have hparsed : parseOpenaiImageDataUrl (Text.trim "data:image/png;base64,iVBORw0KGgo=") =
      some ⟨"image/png", "iVBORw0KGgo="⟩ := by decide +kernel
  obtain ⟨metadata, text, hurl⟩ := parseOpenaiImageDataUrl_eq_some_iff.mp hparsed
  apply imageForms_alike (hread _ _ _) (hread _ _ _)
  · refine .cons (Or.inr ⟨_, "image/png", ?_, .b64Json ?_, .dataUrl ?_ rfl hurl htext.symm⟩) .nil
    · decide +kernel
    · rw [htext]
      rfl
    · intro value hvalue
      cases hvalue
  · simp [pngElements, Map.keys]
  · simp [pngElements]
  · simp [pngElements, Map.keys]
  · simp [pngElements]

end GeminiWorker
