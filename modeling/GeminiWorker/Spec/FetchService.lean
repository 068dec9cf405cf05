import GeminiWorker.Lib.Except
import GeminiWorker.Lib.Transition
import GeminiWorker.Spec.MemoryCache

/-!
# The fetch service, step by step

`InlineDataUrlFetchService` of `cache.rs`: calls of `fetch` that share one download for each URL. Each
critical section and each access to an atomic is a step, and so is what a call does between two of
them. A call may be cancelled where it is suspended.

What a response becomes, and what the disk answers, is up to the environment.
-/

namespace GeminiWorker

structure FetchResult where
  mimeType : String
  bytes : List UInt8
  fromCache : Bool
deriving DecidableEq

inductive FetchError where
  | message (text : String)
  | waitTimeout
  /-- "background fetch finished without result". -/
  | withoutResult
deriving DecidableEq

/-- What a task publishes. -/
abbrev Published := Except String CachedInlineData

def CachedInlineData.toResult (hit : CachedInlineData) (fromCache : Bool) : FetchResult :=
  ⟨hit.mimeType, hit.bytes, fromCache⟩

inductive FetchOutcome where
  | returned (result : Except FetchError FetchResult)
  | cancelled
deriving DecidableEq

/-- Where a call of `fetch` stands, with the task that it holds. -/
inductive CallPhase where
  /-- Before the lookup in the memory cache. -/
  | memory
  /-- Before the lookup on disk. -/
  | disk
  /-- Found on disk, before it goes to the memory cache. -/
  | diskHit (hit : CachedInlineData)
  /-- Before the first lookup in the inflight map. -/
  | lookup
  /-- Before the second. -/
  | insert
  /-- `direct_fetch`, with too many downloads in flight. -/
  | direct
  | storingMemory (cached : CachedInlineData)
  | storingDisk (cached : CachedInlineData)
  /-- Has spawned a task, whose abort handle is not stored. -/
  | spawned (task : ℕ)
  /-- Before it is registered as a waiter. -/
  | joined (task : ℕ)
  | registered (task : ℕ)
  /-- With a `Notified` future made after `seen` calls of `notify_waiters`, before the result is read. -/
  | checking (task seen : ℕ)
  | waiting (task seen : ℕ)
  | timedOut (task : ℕ)
  | woken (task : ℕ)
  /-- The waiter is dropped: before its number is subtracted, -/
  | leaving (task : ℕ) (outcome : FetchOutcome)
  /-- as the last one, before the abort handle is taken, -/
  | aborting (task : ℕ) (outcome : FetchOutcome)
  /-- and before `try_lock`. -/
  | removing (task : ℕ) (outcome : FetchOutcome)
  | ended (task : Option ℕ) (outcome : FetchOutcome)
deriving DecidableEq

structure Call where
  url : String
  phase : CallPhase
deriving DecidableEq

/-- Where the spawned part of a task stands. -/
inductive TaskPhase where
  | downloading
  | publishing (result : Published)
  | notifying (result : Published)
  | removing (result : Published)
  | storingMemory (hit : CachedInlineData)
  | storingDisk (hit : CachedInlineData)
  | finished
deriving DecidableEq

structure FetchTask where
  url : String
  /-- How often `notify_waiters` was called. -/
  notifyCalls : ℕ
  result : Option Published
  waiterCount : ℕ
  /-- Whether there is a handle to take. -/
  abortHandle : Bool
  aborted : Bool
  /-- Whether the spawned part is being polled; an aborted one is not polled again. -/
  polling : Bool
  phase : TaskPhase
deriving DecidableEq

def FetchTask.new (url : String) : FetchTask := ⟨url, 0, none, 0, false, false, false, .downloading⟩

structure FetchConfig (Response : Type) where
  enableBackgroundBridge : Bool
  maxInflight : ℕ
  hasDiskCache : Bool
  /-- What `direct_fetch` makes of a response. -/
  download : Response → Published

structure FetchState where
  calls : List Call
  tasks : List FetchTask
  inflight : List (String × ℕ)
  /-- Spawned to remove a task that could not be removed at once. -/
  helpers : List (String × ℕ)
  memoryCache : Option MemoryCache
deriving DecidableEq

inductive FetchEvent (Response : Type) where
  | fetch (url : String)
  /-- A call takes its next step, where it waits for no one. -/
  | advance (call : ℕ)
  | diskAnswer (call : ℕ) (answer : Except String (Option CachedInlineData))
  | directResponse (call : ℕ) (response : Response)
  | waitTimeout (call : ℕ)
  | tryLock (call : ℕ) (acquired : Bool)
  | cancel (call : ℕ)
  | helper (index : ℕ)
  | poll (task : ℕ)
  | suspend (task : ℕ)
  | response (task : ℕ) (response : Response)
  /-- The spawned part takes its next step. -/
  | run (task : ℕ)

/-- `published_result`. -/
def publishedResult : Published → Except FetchError FetchResult
  | .ok hit => .ok (hit.toResult false)
  | .error text => .error (.message text)

namespace FetchState

def setPhase (s : FetchState) (c : ℕ) (call : Call) (phase : CallPhase) : FetchState :=
  { s with calls := s.calls.set c { call with phase } }

def setTask (s : FetchState) (t : ℕ) (task : FetchTask) : FetchState := { s with tasks := s.tasks.set t task }

def setMemory (s : FetchState) (url : String) (hit : CachedInlineData) : FetchState :=
  { s with memoryCache := s.memoryCache.map (·.set url hit) }

/-- Takes a task out of the inflight map, if it is there. -/
def removeTask (s : FetchState) (url : String) (t : ℕ) : FetchState :=
  if s.inflight.lookup url = some t then { s with inflight := Assoc.others url s.inflight } else s

end FetchState

section

variable {Response : Type} (cfg : FetchConfig Response) (s : FetchState)

/-- The next step of a call, where it waits for no one. -/
def advanceCall (c : ℕ) (call : Call) : Option FetchState :=
  match call.phase with
  | .memory =>
    match s.memoryCache.bind (·.get call.url) with
    | some (hit, cache) => some ({ s with memoryCache := some cache }.setPhase c call
        (.ended none (.returned (.ok (hit.toResult true)))))
    | none => some (s.setPhase c call .disk)
  | .disk => if cfg.hasDiskCache then none else some (s.setPhase c call .lookup)
  | .diskHit hit => some ((s.setMemory call.url hit).setPhase c call
      (.ended none (.returned (.ok (hit.toResult true)))))
  | .lookup =>
    match s.inflight.lookup call.url with
    | some t => some (s.setPhase c call (.joined t))
    | none => some (s.setPhase c call .insert)
  | .insert =>
    match s.inflight.lookup call.url with
    | some t => some (s.setPhase c call (.joined t))
    | none =>
      if s.inflight.length ≥ cfg.maxInflight then some (s.setPhase c call .direct)
      else
        let t := s.tasks.length
        some ({ s with
          tasks := s.tasks ++ [FetchTask.new call.url]
          inflight := (call.url, t) :: s.inflight }.setPhase c call (.spawned t))
  | .direct => none
  | .storingMemory cached => some ((s.setMemory call.url cached).setPhase c call (.storingDisk cached))
  | .storingDisk cached => some (s.setPhase c call (.ended none (.returned (.ok (cached.toResult false)))))
  | .spawned t => s.tasks[t]?.map fun task =>
      (s.setTask t { task with abortHandle := true }).setPhase c call (.joined t)
  | .joined t => s.tasks[t]?.map fun task =>
      (s.setTask t { task with waiterCount := task.waiterCount + 1 }).setPhase c call (.registered t)
  | .registered t => s.tasks[t]?.map fun task => s.setPhase c call (.checking t task.notifyCalls)
  | .checking t seen => s.tasks[t]?.map fun task =>
      match task.result with
      | some published => s.setPhase c call (.leaving t (.returned (publishedResult published)))
      | none => s.setPhase c call (.waiting t seen)
  | .waiting t seen => s.tasks[t]?.bind fun task =>
      if seen < task.notifyCalls then some (s.setPhase c call (.woken t)) else none
  | .timedOut t => s.tasks[t]?.map fun task =>
      match task.result with
      | some published => s.setPhase c call (.leaving t (.returned (publishedResult published)))
      | none => s.setPhase c call (.leaving t (.returned (.error .waitTimeout)))
  | .woken t => s.tasks[t]?.map fun task =>
      match task.result with
      | some published => s.setPhase c call (.leaving t (.returned (publishedResult published)))
      | none => s.setPhase c call (.leaving t (.returned (.error .withoutResult)))
  | .leaving t outcome => s.tasks[t]?.map fun task =>
      let next := if task.waiterCount ≠ 1 || cfg.enableBackgroundBridge then .ended (some t) outcome
        else .aborting t outcome
      (s.setTask t { task with waiterCount := task.waiterCount - 1 }).setPhase c call next
  | .aborting t outcome => s.tasks[t]?.map fun task =>
      (s.setTask t { task with abortHandle := false, aborted := task.aborted || task.abortHandle }).setPhase c call
        (.removing t outcome)
  | .removing _ _ => none
  | .ended _ _ => none

/-- What cancelling a call leads to, where it is suspended. -/
def cancelledPhase : CallPhase → Option CallPhase
  | .memory | .disk | .diskHit _ | .lookup | .insert | .direct | .storingMemory _ | .storingDisk _ =>
    some (.ended none .cancelled)
  | .checking t _ | .waiting t _ | .timedOut t | .woken t => some (.leaving t .cancelled)
  | .spawned _ | .joined _ | .registered _ | .leaving _ _ | .aborting _ _ | .removing _ _ | .ended _ _ => none

/-- The next step of the spawned part. -/
def runTask (t : ℕ) (task : FetchTask) : Option FetchState :=
  match task.phase with
  | .downloading => none
  | .publishing result => some (s.setTask t { task with result := some result, phase := .notifying result })
  | .notifying result =>
    some (s.setTask t { task with notifyCalls := task.notifyCalls + 1, phase := .removing result })
  | .removing result =>
    let phase := match result with
      | .ok hit => .storingMemory hit
      | .error _ => .finished
    some ({ s with inflight := Assoc.others task.url s.inflight }.setTask t { task with phase })
  | .storingMemory hit => some ((s.setMemory task.url hit).setTask t { task with phase := .storingDisk hit })
  | .storingDisk _ => some (s.setTask t { task with phase := .finished })
  | .finished => none

def FetchState.step : FetchEvent Response → Option FetchState
  | .fetch url => some { s with calls := s.calls ++ [⟨url, .memory⟩] }
  | .advance c => s.calls[c]?.bind fun call => advanceCall cfg s c call
  | .diskAnswer c answer => s.calls[c]?.bind fun call =>
      if call.phase = .disk ∧ cfg.hasDiskCache = true then
        match answer with
        | .error text => some (s.setPhase c call (.ended none (.returned (.error (.message text)))))
        | .ok (some hit) => some (s.setPhase c call (.diskHit hit))
        | .ok none => some (s.setPhase c call .lookup)
      else none
  | .directResponse c response => s.calls[c]?.bind fun call =>
      if call.phase = .direct then
        match cfg.download response with
        | .ok cached => some (s.setPhase c call (.storingMemory cached))
        | .error text => some (s.setPhase c call (.ended none (.returned (.error (.message text)))))
      else none
  | .waitTimeout c => s.calls[c]?.bind fun call =>
      match call.phase with
      | .waiting t _ => if cfg.enableBackgroundBridge then some (s.setPhase c call (.timedOut t)) else none
      | _ => none
  | .tryLock c acquired => s.calls[c]?.bind fun call =>
      match call.phase with
      | .removing t outcome =>
        if acquired then some ((s.removeTask call.url t).setPhase c call (.ended (some t) outcome))
        else some ({ s with helpers := s.helpers ++ [(call.url, t)] }.setPhase c call (.ended (some t) outcome))
      | _ => none
  | .cancel c => s.calls[c]?.bind fun call => (cancelledPhase call.phase).map (s.setPhase c call)
  | .helper index => s.helpers[index]?.map fun (url, t) =>
      { s.removeTask url t with helpers := s.helpers.eraseIdx index }
  | .poll t => s.tasks[t]?.bind fun task =>
      if task.polling ∨ task.aborted ∨ task.phase = .finished then none
      else some (s.setTask t { task with polling := true })
  | .suspend t => s.tasks[t]?.bind fun task =>
      match task.phase with
      | .notifying _ | .finished => none
      | _ => if task.polling then some (s.setTask t { task with polling := false }) else none
  | .response t response => s.tasks[t]?.bind fun task =>
      if task.polling ∧ task.phase = .downloading then
        some (s.setTask t { task with phase := .publishing (cfg.download response) })
      else none
  | .run t => s.tasks[t]?.bind fun task => if task.polling then runTask s t task else none

end

/-- The service after its start. -/
def FetchState.init (memoryCache : Option MemoryCache) : FetchState := ⟨[], [], [], [], memoryCache⟩

end GeminiWorker
