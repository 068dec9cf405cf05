import GeminiWorker.Spec.GeminiResponse
import GeminiWorker.Spec.OpenaiResponse

/-!
# What a task of aiapidev is answered with

`handle_aiapidev_response` and `handle_aiapidev_openai_image_response` of `router.rs` once the task has
succeeded: the images that it names, as the parts of a Gemini response or as the data of an OpenAI one.
-/

namespace GeminiWorker

open Json (Value Map)

section

/- The fetch service and the image codecs. -/
variable (fetch : String → Published) (codec : ImageCodec) (config : GeminiResponseConfig)

end

/-! ## For an OpenAI client -/

section

variable (env : OpenaiResponseEnv)

/-- The link that stands for the URL of an image. -/
def specialImageLink (config : SpecialUpstreamConfig) (imageUrl : String) : String :=
  let externalProxyPrefix := config.resolvedExternalImageProxyPrefix
  if config.proxySpecialUpstreamUrls && externalProxyPrefix != "" then wrapExternalProxyUrl externalProxyPrefix imageUrl
  else imageUrl

end

end GeminiWorker
