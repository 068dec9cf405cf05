import GeminiWorker.Lib.JsonParse
import GeminiWorker.Lib.JsonShape
import GeminiWorker.Spec.LargestImage

/-!
# What is left of a candidate's images

The scan for the largest image and the removal of the others look at the parts with two predicates.

* `isBase64InlineImagePart_eq`: what may be removed is what has a size.
* `shapeAt_keepLargest`: nothing changes but the parts of the candidates.
* `largestKept`: each candidate keeps the first of its largest images, and all parts that are none.
-/

namespace GeminiWorker

open Json (Value Map)

/-- An image as base64 that is not empty. -/
def IsBase64Image (part : Value) : Prop := ∃ data, inlineDataPayload part = some data ∧ data ≠ "" ∧ isUrlLike data = false

theorem length_bytes_eq_zero {s : String} : (Text.bytes s).length = 0 ↔ s = "" := by
  constructor
  · intro h
    rcases hs : s.toList with _ | ⟨c, cs⟩
    · exact String.toList_inj.mp hs
    · rw [Text.bytes, hs, List.flatMap_cons, List.length_append, String.length_utf8EncodeChar] at h
      have hpos := c.utf8Size_pos
      omega
  · rintro rfl
    rfl

/-! ## Parts -/

/-- **What may be removed is what the scan looks at.** -/
theorem isBase64InlineImagePart_eq (part : Value) :
    isBase64InlineImagePart part = (base64InlineSize part).isSome := by
  unfold isBase64InlineImagePart base64InlineSize
  rcases inlineDataPayload part with _ | data
  · rfl
  · rw [Option.any_some, Option.bind_some]
    rcases isUrlLike data
    · rfl
    · rfl

theorem base64InlineSize_eq_some {part : Value} {n : ℕ} : base64InlineSize part = some n ↔
    ∃ data, inlineDataPayload part = some data ∧ isUrlLike data = false ∧ (Text.bytes data).length = n := by
  unfold base64InlineSize
  rw [Option.bind_eq_some_iff]
  refine exists_congr fun data => and_congr_right fun _ => ?_
  rcases isUrlLike data
  · simp
  · simp

theorem not_weightless_iff {parts : List Value} :
    ¬ FirstMax.Weightless base64InlineSize parts ↔ ∃ part ∈ parts, IsBase64Image part := by
  unfold FirstMax.Weightless IsBase64Image
  constructor
  · intro h
    push Not at h
    obtain ⟨part, hpart, n, hsize, hn⟩ := h
    obtain ⟨data, hdata, hurl, rfl⟩ := base64InlineSize_eq_some.mp hsize
    exact ⟨part, hpart, data, hdata, fun hempty => hn (length_bytes_eq_zero.mpr hempty), hurl⟩
  · rintro ⟨part, hpart, data, hdata, hempty, hurl⟩ h
    exact hempty (length_bytes_eq_zero.mp (h part hpart _ (base64InlineSize_eq_some.mpr ⟨data, hdata, hurl, rfl⟩)))

theorem keepLargestPart_keepLargestPart (parts : List Value) :
    keepLargestPart (keepLargestPart parts) = keepLargestPart parts :=
  FirstMax.select_select isBase64InlineImagePart_eq parts

/-! ## Candidates -/

theorem onArray_onArray {f : List Value → List Value} (hf : ∀ l, f (f l) = f l) (v : Value) :
    onArray f (onArray f v) = onArray f v := by
  cases v with
  | array items => exact congrArg Value.array (hf items)
  | null | bool | number | string | object => rfl

def partsPath : List String := ["content", "parts"]

theorem keepLargestInCandidate_eq (candidate : Value) :
    keepLargestInCandidate candidate = candidate.modifyAt partsPath (onArray keepLargestPart) := rfl

theorem keepLargestInlineImage_eq (body : Value) : keepLargestInlineImage body =
    body.modifyAt ["candidates"] (onArray fun candidates => candidates.map keepLargestInCandidate) := rfl

theorem keepLargestInCandidate_again (candidate : Value) :
    keepLargestInCandidate (keepLargestInCandidate candidate) = keepLargestInCandidate candidate := by
  simp only [keepLargestInCandidate_eq]
  exact Value.modifyAt_modifyAt partsPath (onArray_onArray keepLargestPart_keepLargestPart) candidate

theorem keepLargestInlineImage_again (body : Value) :
    keepLargestInlineImage (keepLargestInlineImage body) = keepLargestInlineImage body := by
  simp only [keepLargestInlineImage_eq]
  refine Value.modifyAt_modifyAt ["candidates"] (onArray_onArray fun candidates => ?_) body
  rw [List.map_map]
  exact List.map_congr_left fun candidate _ => keepLargestInCandidate_again candidate

/-- The path is that of the parts of a candidate, or below it. -/
def UnderParts (body : Value) (path : List String) : Prop :=
  ∃ candidates, body.get "candidates" = some (.array candidates) ∧
    ∃ i : ℕ, ["candidates", toString i, "content", "parts"] <+: path

theorem child_candidates (body : Value) : body.child "candidates" = body.get "candidates" := by
  cases body with
  | object members => rfl
  | array items =>
    have hindex : Json.parseIndex "candidates" = none := by decide +kernel
    simp [Value.child, hindex, Value.get, Value.asObject]
  | null | bool | number | string => rfl

/-- **Nothing changes but the parts of the candidates.** -/
theorem shapeAt_keepLargest {body : Value} {path : List String} (h : ¬ UnderParts body path) :
    (keepLargestInlineImage body).shapeAt path = body.shapeAt path := by
  by_cases hcandidates : ["candidates"] <+: path
  · obtain ⟨path, rfl⟩ := hcandidates
    rw [keepLargestInlineImage_eq, Value.shapeAt, Value.at?_modifyAt, Value.shapeAt, Value.at?_append,
      Value.at?_singleton, child_candidates]
    rcases hbody : body.get "candidates" with _ | w
    · rfl
    · rw [Option.bind_some, Option.bind_some]
      cases w with
      | array candidates =>
        rcases path with _ | ⟨token, path⟩
        · exact congrArg (fun n => some (Json.Shape.array n)) (List.length_map _)
        · show Value.shapeAt (.array (candidates.map keepLargestInCandidate)) (token :: path) =
            Value.shapeAt (.array candidates) (token :: path)
          rw [Value.shapeAt_cons, Value.shapeAt_cons]
          rcases htoken : Json.parseIndex token with _ | i
          · simp [Value.child, htoken]
          · obtain rfl := Json.parseIndex_eq_some_iff.mp htoken
            rw [Json.child_index, Json.child_index, List.getElem?_map]
            rcases candidates[i]? with _ | candidate
            · rfl
            · rw [Option.map_some, Option.bind_some, Option.bind_some, keepLargestInCandidate_eq]
              -- the path leaves that of the parts within the candidate
              refine Value.shapeAt_modifyAt _ candidate fun hparts => h ⟨candidates, hbody, i, ?_⟩
              obtain ⟨rest, rfl⟩ := hparts
              exact ⟨rest, rfl⟩
      | null | bool | number | string | object => rfl
  · rw [keepLargestInlineImage_eq]
    exact Value.shapeAt_modifyAt _ body hcandidates

/-- A candidate of the rewritten body. -/
theorem at?_candidate {body : Value} {candidates : List Value} (hbody : body.get "candidates" = some (.array candidates))
    (i : ℕ) (path : List String) : (keepLargestInlineImage body).at? ("candidates" :: toString i :: path) =
      candidates[i]?.bind fun candidate => (keepLargestInCandidate candidate).at? path := by
  have hat := Value.at?_modifyAt ["candidates"] (onArray fun candidates => candidates.map keepLargestInCandidate)
    (toString i :: path) body
  rw [← keepLargestInlineImage_eq, Value.at?_singleton, child_candidates, hbody, Option.bind_some] at hat
  rw [List.singleton_append] at hat
  rw [hat]
  show Value.at? (.array (candidates.map keepLargestInCandidate)) (toString i :: path) = _
  rw [Value.at?, Json.child_index, List.getElem?_map, Option.bind_map]
  rfl

/-- What the function promises: of the images of a candidate only the first of the largest is left. -/
structure LargestKept (body out : Value) : Prop where
  frame : ∀ path, ¬ UnderParts body path → out.shapeAt path = body.shapeAt path
  chosen : ∀ candidates (i : ℕ) candidate parts, body.get "candidates" = some (.array candidates) →
    candidates[i]? = some candidate → candidate.at? partsPath = some (.array parts) →
    (∃ part ∈ parts, IsBase64Image part) →
    ∃ before largest size after, parts = before ++ largest :: after ∧
      FirstMax.Leads base64InlineSize before largest size after ∧
      out.at? ("candidates" :: toString i :: partsPath) = some (.array
        (before.filter (fun part => !isBase64InlineImagePart part) ++ largest ::
          after.filter fun part => !isBase64InlineImagePart part))
  others : ∀ candidates (i : ℕ) candidate, body.get "candidates" = some (.array candidates) →
    candidates[i]? = some candidate →
    (∀ parts, candidate.at? partsPath = some (.array parts) → ¬ ∃ part ∈ parts, IsBase64Image part) →
    out.at? ["candidates", toString i] = some candidate
  again : keepLargestInlineImage out = out

/-- A candidate without such an image is left as it is. -/
theorem keepLargestInCandidate_of_none {candidate : Value} (hcandidate : candidate.Distinct)
    (h : ∀ parts, candidate.at? partsPath = some (.array parts) → ¬ ∃ part ∈ parts, IsBase64Image part) :
    keepLargestInCandidate candidate = candidate := by
  rw [keepLargestInCandidate_eq]
  refine Value.modifyAt_of_fixed partsPath hcandidate fun v hv => ?_
  cases v with
  | array parts =>
    have hless : FirstMax.Weightless base64InlineSize parts := by
      by_contra hnot
      exact h parts hv (not_weightless_iff.mp hnot)
    exact congrArg Value.array (FirstMax.select_of_weightless _ hless)
  | null | bool | number | string | object => rfl

/-- **Of the images of a candidate the first of the largest is kept**, and nothing else changes. -/
theorem largestKept (body : Json.Document) : LargestKept body.val (keepLargestInlineImage body.val) := by
  obtain ⟨body, hdistinct, -⟩ := body
  refine ⟨fun path => shapeAt_keepLargest, ?_, ?_, keepLargestInlineImage_again body⟩
  · intro candidates i candidate parts hbody hcandidate hparts himage
    obtain ⟨before, largest, size, after, hsplit, hleads, hselect⟩ :=
      FirstMax.select_spec isBase64InlineImagePart (not_weightless_iff.mpr himage)
    refine ⟨before, largest, size, after, hsplit, hleads, ?_⟩
    have hat := Value.at?_modifyAt partsPath (onArray keepLargestPart) [] candidate
    rw [List.append_nil, hparts, Option.bind_some] at hat
    rw [at?_candidate hbody, hcandidate, Option.bind_some, keepLargestInCandidate_eq, hat, ← hselect]
    rfl
  · intro candidates i candidate hbody hcandidate hnone
    have hchild : body.child "candidates" = some (.array candidates) := (child_candidates body).trans hbody
    have hitem : candidate.Distinct :=
      Value.distinct_array.mp (hdistinct.child hchild) candidate (List.mem_of_getElem? hcandidate)
    rw [at?_candidate hbody, hcandidate, Option.bind_some, keepLargestInCandidate_of_none hitem hnone]
    rfl

end GeminiWorker
