import GeminiWorker.Lib.Transition
import GeminiWorker.Spec.RequestMaterialize

/-!
# The tasks that fetch the images of a request

`materialize_request_images_with_services` with its tasks as they run: a task for each URL, which
waits for a permit, fetches, stores and gives the permit back. The results are joined as they come,
and the first one that is an error ends the request; the other tasks are then aborted where they wait.
-/

namespace GeminiWorker

open Json (Value)

def MAX_CONCURRENT_REQUEST_IMAGE_FETCHES : ℕ := 4

/-- How far a task is. It has its permit from the fetch on, until it has stored. -/
inductive FetchTaskPhase where
  | waiting
  | fetching
  | storing (fetched : FetchedImage)
  | finished (result : Except MaterializeError FetchedBlob)
  | joined
  | aborted

def FetchTaskPhase.holdsPermit : FetchTaskPhase → Bool
  | .fetching | .storing _ => true
  | _ => false

structure RequestImageTask where
  url : String
  phase : FetchTaskPhase

structure FetchTasks where
  /-- The URLs that no task has been spawned for yet. -/
  unspawned : List String
  tasks : List RequestImageTask
  permits : ℕ
  runtime : BlobRuntime
  /-- The latest first. -/
  fetchedByUrl : List (String × FetchedBlob)
  /-- What the request has failed with. -/
  failed : Option MaterializeError

inductive TaskEvent where
  | spawns
  | acquires (task : ℕ)
  | fetches (task : ℕ)
  | stores (task : ℕ)
  | joins (task : ℕ)
  | aborts (task : ℕ)
deriving DecidableEq

/-- The URLs that tasks have begun to fetch, where the tasks are spawned for `urls`. -/
def fetchedUrls (urls : List String) (events : List TaskEvent) : List String :=
  events.filterMap fun
    | .fetches task => urls[task]?
    | _ => none

namespace FetchTasks

def init (urls : List String) (runtime : BlobRuntime) : FetchTasks :=
  ⟨urls, [], max MAX_CONCURRENT_REQUEST_IMAGE_FETCHES 1, runtime, [], none⟩

def setPhase (tasks : FetchTasks) (task : ℕ) (url : String) (phase : FetchTaskPhase) : FetchTasks :=
  { tasks with tasks := tasks.tasks.set task ⟨url, phase⟩ }

/-- A task ends, and its permit is given back. -/
def finish (tasks : FetchTasks) (task : ℕ) (url : String) (result : Except MaterializeError FetchedBlob) : FetchTasks :=
  { tasks.setPhase task url (.finished result) with permits := tasks.permits + 1 }

section

/- The fetch of a URL, and how a spill write for it ends. -/
variable (fetch : String → Option FetchedImage) (io : String → WriteOutcome)

/-- The store at the end of `fetch_request_image`. -/
def storeFetched (url : String) (fetched : FetchedImage) (runtime : BlobRuntime) :
    Except MaterializeError FetchedBlob × BlobRuntime :=
  if fetched.fromCache then
    let (blob, runtime) := runtime.storeExternalSharedBytes fetched.bytes fetched.mimeType
    (.ok ⟨fetched.mimeType, blob⟩, runtime)
  else
    match runtime.storeSharedBytes (io url) fetched.bytes fetched.mimeType with
    | (some blob, runtime) => (.ok ⟨fetched.mimeType, blob⟩, runtime)
    | (none, runtime) => (.error (.store url), runtime)

def step (tasks : FetchTasks) : TaskEvent → Option FetchTasks
  | .spawns =>
    match tasks.unspawned with
    | [] => none
    | url :: unspawned => some { tasks with unspawned, tasks := tasks.tasks ++ [⟨url, .waiting⟩] }
  | .acquires task =>
    match tasks.tasks[task]? with
    | some ⟨url, .waiting⟩ =>
      if tasks.permits = 0 then none
      else some { tasks.setPhase task url .fetching with permits := tasks.permits - 1 }
    | _ => none
  | .fetches task =>
    match tasks.tasks[task]? with
    | some ⟨url, .fetching⟩ =>
      match fetch url with
      | some fetched => some (tasks.setPhase task url (.storing fetched))
      | none => some (tasks.finish task url (.error (.fetch url)))
    | _ => none
  | .stores task =>
    match tasks.tasks[task]? with
    | some ⟨url, .storing fetched⟩ =>
      let (result, runtime) := storeFetched io url fetched tasks.runtime
      some { tasks.finish task url result with runtime }
    | _ => none
  | .joins task =>
    if tasks.unspawned ≠ [] ∨ tasks.failed.isSome then none
    else
      match tasks.tasks[task]? with
      | some ⟨url, .finished (.ok fetched)⟩ =>
        some { tasks.setPhase task url .joined with fetchedByUrl := (url, fetched) :: tasks.fetchedByUrl }
      | some ⟨url, .finished (.error error)⟩ =>
        some { tasks.setPhase task url .joined with failed := some error }
      | _ => none
  | .aborts task =>
    if tasks.failed.isNone then none
    else
      match tasks.tasks[task]? with
      | some ⟨url, .waiting⟩ => some (tasks.setPhase task url .aborted)
      | some ⟨url, .fetching⟩ | some ⟨url, .storing _⟩ =>
        some { tasks.setPhase task url .aborted with permits := tasks.permits + 1 }
      | _ => none

end

/-- All tasks are joined. -/
def Joined (tasks : FetchTasks) : Prop := tasks.unspawned = [] ∧ ∀ task ∈ tasks.tasks, task.phase = .joined

/-- What the request returns, once it does. -/
inductive Returns (tasks : FetchTasks) (request : Value) (refs : List RequestImageRef) :
    Except MaterializeError (MaterializedRequestImages × BlobRuntime) → Prop
  | failed (error : MaterializeError) (h : tasks.failed = some error) : Returns tasks request refs (.error error)
  | joined (hfailed : tasks.failed = none) (h : tasks.Joined) :
      Returns tasks request refs (do
        let replacements ← buildReplacements tasks.fetchedByUrl refs
        return (⟨request, replacements⟩, tasks.runtime))

/-- The fetches and stores that are going on. -/
def working (tasks : FetchTasks) : ℕ := tasks.tasks.countP fun task => task.phase.holdsPermit

end FetchTasks

end GeminiWorker
