import GeminiWorker.Lib.JsonRemove
import GeminiWorker.Spec.BlockReplay
import GeminiWorker.Spec.LargestImage
import GeminiWorker.Spec.MarkdownRewrite

/-!
# What a Gemini client is answered with

The last steps of `handle_non_stream_response` in `router.rs`, with the parts of `response_rewrite.rs` that they
use: a linked image is inserted, signatures and all but the largest image go, what is left is compressed, and
uploaded where URLs are asked for.
-/

namespace GeminiWorker

open Json (Value Map)

structure GeminiResponseConfig extends SpecialUpstreamConfig where
  enableImageCompression : Bool
  imageCompressionJpegQuality : UInt8

section

/- `serde_json::from_slice`, the fetch service and the image codecs. -/
variable (fromSlice : List UInt8 → Option Value) (fetch : String → Published) (codec : ImageCodec)
  (config : GeminiResponseConfig)

variable {σ ε : Type} (upload : InlineDataEntry → σ → Except ε UploadResult × σ)

end

end GeminiWorker
