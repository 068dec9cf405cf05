import GeminiWorker.Spec.RequestMaterialize

/-!
# The blobs of one Gemini request

The steps of `forward_gemini_request` on the transparent provider that store or remove
blobs. How each fetch, each file operation and each await ends is a parameter of the run;
an await ends the call when the caller is cancelled there.

The runtime a run works on holds what is stored on behalf of this call alone: its hot bytes
are the reservations of the call, its files those of the call. What other requests have
reserved when the call reserves is a parameter too.
-/

namespace GeminiWorker

open Json (Value)

/-- An operation of the call while other requests hold `others` hot bytes. -/
def BlobRuntime.amid {α : Type} (others : ℕ) (op : BlobRuntime → α × BlobRuntime)
    (runtime : BlobRuntime) : α × BlobRuntime :=
  let (a, runtime) := op { runtime with globalHotBytes := runtime.globalHotBytes + others }
  (a, { runtime with globalHotBytes := runtime.globalHotBytes - others })

/-- The runtime of a call that has stored nothing yet. -/
def BlobRuntime.unused (cfg : BlobRuntimeConfig) (nextId : ℕ) : BlobRuntime :=
  { BlobRuntime.new cfg (fun _ => none) with nextId }

/-- How the task of one URL runs: what its fetch returns (nothing where it fails, or where
the task is aborted before it stores), and how its store goes. -/
structure TaskRun where
  fetched : Option FetchedImage
  others : ℕ
  io : WriteOutcome

/-- How the store task of the encoder ends when no handle of it is returned: it stores what
it has received, and the handle is dropped; or it is aborted after some reads. -/
inductive StoreEnd where
  | finished (reads : List (List UInt8)) (others : ℕ) (io : WriteOutcome)
  | aborted (reads : List (List UInt8))

/-- How `encode_request_body` ends: it returns the body, or an error or a cancellation
leaves its store task to itself. -/
inductive EncodeRun where
  | returned (readers : String → Reader chunkBytes) (pipe : Reader streamChunkBytes) (others : ℕ)
  | ended (store : StoreEnd)

/-- How the deletion of a spill file ends; when it is cancelled the file may still go. -/
inductive Deletion where
  | deleted
  | failed
  | cancelled (deleted : Bool)
deriving DecidableEq

inductive SendRun where
  | ok
  | failed
  | cancelled
deriving DecidableEq

structure ForwardRun where
  order : CompletionOrder
  tasks : String → TaskRun
  materializeCancelled : Bool
  encode : EncodeRun
  deletes : ℕ → Deletion
  adminEnabled : Bool
  /-- `read_bytes` fails or is cancelled. -/
  readBytesEnds : Bool
  upstreamUrlFails : Bool
  /-- `open_reader` fails or is cancelled. -/
  openReaderEnds : Bool
  send : SendRun

def StoreEnd.leaves (store : StoreEnd) (runtime : BlobRuntime) : BlobRuntime :=
  match store with
  | .finished reads others io => (runtime.amid others (BlobRuntime.storeStream io reads "application/json")).2
  | .aborted reads => runtime.abortStream reads

namespace ForwardRun

variable (run : ForwardRun)

/-- The fetch tasks in the order in which they use the runtime. A task that fails ends the
call, but tasks that are under way may still store their image. -/
def runTasks : List String → List (String × FetchedBlob) → BlobRuntime →
    Option (List (String × FetchedBlob)) × BlobRuntime
  | [], fetchedByUrl, runtime => (some fetchedByUrl, runtime)
  | url :: urls, fetchedByUrl, runtime =>
    match runtime.amid (run.tasks url).others (fetchRequestImage (fun url => (run.tasks url).fetched)
      (fun url => (run.tasks url).io) url) with
    | (.ok fetched, runtime) => runTasks urls ((url, fetched) :: fetchedByUrl) runtime
    | (.error _, runtime) => (none, (runTasks urls fetchedByUrl runtime).2)

/-- `materialize_request_images_with_services`, or nothing if the call ends in it. -/
def materializeStage (request : Value) (runtime : BlobRuntime) :
    Option MaterializedRequestImages × BlobRuntime :=
  match scanRequestImageUrls request with
  | .error _ => (none, runtime)
  | .ok refs =>
    match run.runTasks (run.order.arrange (uniqueUrls refs [])) [] runtime with
    | (none, runtime) => (none, runtime)
    | (some fetchedByUrl, runtime) =>
      if run.materializeCancelled then (none, runtime)
      else match buildReplacements fetchedByUrl refs with
        | .error _ => (none, runtime)
        | .ok replacements => (some ⟨request, replacements⟩, runtime)

/-- `encode_request_body`, or nothing if the call ends in it. -/
def encodeStage (materialized : MaterializedRequestImages) (runtime : BlobRuntime) :
    Option EncodedRequestBody × BlobRuntime :=
  match run.encode with
  | .returned readers pipe others => runtime.amid others fun runtime =>
      match encodeRequestBody .completed readers pipe materialized.request
        materialized.replacements runtime with
      | .ok (encoded, runtime) => (some encoded, runtime)
      | .error _ => (none, runtime)
  | .ended store => (none, store.leaves runtime)

/-- One `remove`, and whether the call goes on. Only the deletion of a file is awaited. -/
def removeBlob (handle : BlobHandle) (runtime : BlobRuntime) : Bool × BlobRuntime :=
  match run.deletes handle.id, handle.storage with
  | .failed, _ => runtime.remove true handle
  | .cancelled deleted, .spilled _ =>
    if handle.id ∈ runtime.removed then (true, runtime)
    else (false, (runtime.remove (!deleted) handle).2)
  | _, _ => runtime.remove false handle

/-- The loop that removes the images once they are encoded. -/
def removeReplacements : List RequestReplacement → BlobRuntime → Bool × BlobRuntime
  | [], runtime => (true, runtime)
  | replacement :: replacements, runtime =>
    match run.removeBlob replacement.blob runtime with
    | (true, runtime) => removeReplacements replacements runtime
    | (false, runtime) => (false, runtime)

/-- From the encoded body to the end of the call. Reading the response stores no blob. -/
def sendStage (encoded : EncodedRequestBody) (runtime : BlobRuntime) : BlobRuntime :=
  if run.adminEnabled && run.readBytesEnds then runtime
  else if run.upstreamUrlFails then runtime
  else if run.openReaderEnds then runtime
  else match run.send with
    | .cancelled => runtime
    | .ok | .failed => (run.removeBlob encoded.bodyBlob runtime).2

/-- What follows the encoder: the images are removed, and the body is sent. -/
def removeAndSend (encoded : EncodedRequestBody) (replacements : List RequestReplacement)
    (runtime : BlobRuntime) : BlobRuntime :=
  match run.removeReplacements replacements runtime with
  | (false, runtime) => runtime
  | (true, runtime) => run.sendStage encoded runtime

/-- The runtime once the call has ended. -/
def forwardGeminiRequest (request : Value) (runtime : BlobRuntime) : BlobRuntime :=
  match run.materializeStage request runtime with
  | (none, runtime) => runtime
  | (some materialized, runtime) =>
    match run.encodeStage materialized runtime with
    | (none, runtime) => runtime
    | (some encoded, runtime) => run.removeAndSend encoded materialized.replacements runtime

end ForwardRun

end GeminiWorker
