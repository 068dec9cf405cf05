import GeminiWorker.Spec.RequestScan

/-!
# Fetching the images of a request

`request_materialize.rs`: every distinct URL is fetched and stored by a task of its
own; the tasks complete in any order. What a fetch returns is a parameter.
-/

namespace GeminiWorker

open Json (Value)

structure FetchedImage where
  mimeType : String
  bytes : List UInt8
  fromCache : Bool

structure FetchedBlob where
  mimeType : String
  blob : BlobHandle

structure MaterializedRequestImages where
  request : Value
  replacements : List RequestReplacement

inductive MaterializeError where
  | scan (error : ScanError)
  | fetch (url : String)
  | store (url : String)
  | missingFetchedBlob (url : String)
deriving DecidableEq

/-- The order in which the fetch tasks complete. -/
structure CompletionOrder where
  arrange : List String → List String
  perm : ∀ urls, (arrange urls).Perm urls

/-- `unique_urls`, with `seen_urls` so far. -/
def uniqueUrls : List RequestImageRef → List String → List String
  | [], _ => []
  | imageRef :: refs, seen =>
    if imageRef.url ∈ seen then uniqueUrls refs seen
    else imageRef.url :: uniqueUrls refs (imageRef.url :: seen)

section

/- The fetch of a URL, and how a spill write for it ends. -/
variable (fetch : String → Option FetchedImage) (io : String → WriteOutcome)

def fetchRequestImage (url : String) (runtime : BlobRuntime) :
    Except MaterializeError FetchedBlob × BlobRuntime :=
  match fetch url with
  | none => (.error (.fetch url), runtime)
  | some fetched =>
    if fetched.fromCache then
      let (blob, runtime) := runtime.storeExternalSharedBytes fetched.bytes fetched.mimeType
      (.ok ⟨fetched.mimeType, blob⟩, runtime)
    else
      match runtime.storeSharedBytes (io url) fetched.bytes fetched.mimeType with
      | (some blob, runtime) => (.ok ⟨fetched.mimeType, blob⟩, runtime)
      | (none, runtime) => (.error (.store url), runtime)

/-- The `join_next` loop over the tasks in the order they complete: the URLs fetched, and
`fetched_by_url` with the latest first. -/
def joinFetches : List String → List (String × FetchedBlob) → BlobRuntime →
    List String × Except MaterializeError (List (String × FetchedBlob) × BlobRuntime)
  | [], fetchedByUrl, runtime => ([], .ok (fetchedByUrl, runtime))
  | url :: urls, fetchedByUrl, runtime =>
    match fetchRequestImage fetch io url runtime with
    | (.error e, _) => ([url], .error e)
    | (.ok fetched, runtime) =>
      let (fetches, result) := joinFetches urls ((url, fetched) :: fetchedByUrl) runtime
      (url :: fetches, result)

def buildReplacements (fetchedByUrl : List (String × FetchedBlob)) (refs : List RequestImageRef) :
    Except MaterializeError (List RequestReplacement) :=
  refs.mapM fun imageRef =>
    match fetchedByUrl.lookup imageRef.url with
    | none => .error (.missingFetchedBlob imageRef.url)
    | some fetched => .ok ⟨imageRef.jsonPointer, fetched.mimeType, fetched.blob⟩

/-- The URLs fetched, and the result. -/
def materializeRequestImages (order : CompletionOrder) (request : Value) (runtime : BlobRuntime) :
    List String × Except MaterializeError (MaterializedRequestImages × BlobRuntime) :=
  match scanRequestImageUrls request with
  | .error e => ([], .error (.scan e))
  | .ok refs =>
    match joinFetches fetch io (order.arrange (uniqueUrls refs [])) [] runtime with
    | (fetches, .error e) => (fetches, .error e)
    | (fetches, .ok (fetchedByUrl, runtime)) =>
      (fetches, do
        let replacements ← buildReplacements fetchedByUrl refs
        return (⟨request, replacements⟩, runtime))

inductive PipelineError where
  | materialize (error : MaterializeError)
  | encode (error : EncodeError)
deriving DecidableEq

/-- The image stages of `forward_gemini_request`: materialize, then encode. -/
def requestImagePipeline (order : CompletionOrder) (readers : String → Reader chunkBytes)
    (pipe : Reader streamChunkBytes) (bodyIo : WriteOutcome) (request : Value)
    (runtime : BlobRuntime) :
    List String × Except PipelineError (EncodedRequestBody × BlobRuntime) :=
  match materializeRequestImages fetch io order request runtime with
  | (fetches, .error e) => (fetches, .error (.materialize e))
  | (fetches, .ok (materialized, runtime)) =>
    (fetches, (encodeRequestBody bodyIo readers pipe materialized.request materialized.replacements
      runtime).mapError .encode)

end

end GeminiWorker
