import GeminiWorker.Spec.FetchService
import Mathlib.Data.List.Count
import Mathlib.Order.Nat

/-!
# What a step of the fetch service does

* `Moved`: the steps, each with what it looks at and what it changes.
* `step_moved`: there are no others.
* `Role`: what a call is to the task that it holds; only the steps named in `Moved` change it.
-/

namespace GeminiWorker

open FetchState (setPhase setTask setMemory removeTask)

section

variable {Response : Type} (cfg : FetchConfig Response) (s : FetchState)

/-- The steps of call `c` that change nothing but its phase, and leave it the task that it holds. -/
inductive PhaseStep (c : ℕ) (url : String) : FetchEvent Response → CallPhase → CallPhase → Prop
  | memoryMiss (h : s.memoryCache.bind (·.get url) = none) : PhaseStep c url (.advance c) .memory .disk
  | noDisk (h : cfg.hasDiskCache = false) : PhaseStep c url (.advance c) .disk .lookup
  | diskFailed (text : String) : PhaseStep c url (.diskAnswer c (.error text)) .disk
      (.ended none (.returned (.error (.message text))))
  | diskFound (hit : CachedInlineData) : PhaseStep c url (.diskAnswer c (.ok (some hit))) .disk (.diskHit hit)
  | diskMiss : PhaseStep c url (.diskAnswer c (.ok none)) .disk .lookup
  | absent (h : s.inflight.lookup url = none) : PhaseStep c url (.advance c) .lookup .insert
  | full (h : s.inflight.lookup url = none) (hfull : cfg.maxInflight ≤ s.inflight.length) :
      PhaseStep c url (.advance c) .insert .direct
  | fetched {response : Response} {cached : CachedInlineData} (h : cfg.download response = .ok cached) :
      PhaseStep c url (.directResponse c response) .direct (.storingMemory cached)
  | failed {response : Response} {text : String} (h : cfg.download response = .error text) :
      PhaseStep c url (.directResponse c response) .direct (.ended none (.returned (.error (.message text))))
  | stored (cached : CachedInlineData) : PhaseStep c url (.advance c) (.storingDisk cached)
      (.ended none (.returned (.ok (cached.toResult false))))
  | notified {t : ℕ} {task : FetchTask} (h : s.tasks[t]? = some task) :
      PhaseStep c url (.advance c) (.registered t) (.checking t task.notifyCalls)
  | published {t : ℕ} {task : FetchTask} {phase : CallPhase} {published : Published} (h : s.tasks[t]? = some task)
      (hresult : task.result = some published)
      (hphase : (∃ seen, phase = .checking t seen) ∨ phase = .timedOut t ∨ phase = .woken t) :
      PhaseStep c url (.advance c) phase (.leaving t (.returned (publishedResult published)))
  | unpublished {t seen : ℕ} {task : FetchTask} (h : s.tasks[t]? = some task) (hresult : task.result = none) :
      PhaseStep c url (.advance c) (.checking t seen) (.waiting t seen)
  | gaveUp {t : ℕ} {task : FetchTask} (h : s.tasks[t]? = some task) (hresult : task.result = none) :
      PhaseStep c url (.advance c) (.timedOut t) (.leaving t (.returned (.error .waitTimeout)))
  | withoutResult {t : ℕ} {task : FetchTask} (h : s.tasks[t]? = some task) (hresult : task.result = none) :
      PhaseStep c url (.advance c) (.woken t) (.leaving t (.returned (.error .withoutResult)))
  | wake {t seen : ℕ} {task : FetchTask} (h : s.tasks[t]? = some task) (hseen : seen < task.notifyCalls) :
      PhaseStep c url (.advance c) (.waiting t seen) (.woken t)
  | waitTimeout {t seen : ℕ} (h : cfg.enableBackgroundBridge = true) :
      PhaseStep c url (.waitTimeout c) (.waiting t seen) (.timedOut t)
  | cancel {phase next : CallPhase} (h : cancelledPhase phase = some next) :
      PhaseStep c url (.cancel c) phase next

/-- The steps of the spawned part of task `t` that change nothing else. -/
inductive SpawnedStep (t : ℕ) (task : FetchTask) : FetchEvent Response → FetchTask → Prop
  | poll (hpolling : task.polling = false) (haborted : task.aborted = false) :
      SpawnedStep t task (.poll t) { task with polling := true }
  | suspend (hpolling : task.polling = true) : SpawnedStep t task (.suspend t) { task with polling := false }
  | response (response : Response) (hpolling : task.polling = true) (hphase : task.phase = .downloading) :
      SpawnedStep t task (.response t response) { task with phase := .publishing (cfg.download response) }
  | publish {result : Published} (hpolling : task.polling = true) (hphase : task.phase = .publishing result) :
      SpawnedStep t task (.run t) { task with result := some result, phase := .notifying result }
  | notify {result : Published} (hpolling : task.polling = true) (hphase : task.phase = .notifying result) :
      SpawnedStep t task (.run t) { task with notifyCalls := task.notifyCalls + 1, phase := .removing result }
  | stored {hit : CachedInlineData} (hpolling : task.polling = true) (hphase : task.phase = .storingDisk hit) :
      SpawnedStep t task (.run t) { task with phase := .finished }

/-- The phase after the removal from the inflight map. -/
def phaseAfterRemoval : Published → TaskPhase
  | .ok hit => .storingMemory hit
  | .error _ => .finished

/-- The steps. -/
inductive Moved : FetchEvent Response → FetchState → Prop
  | fetch (url : String) : Moved (.fetch url) { s with calls := s.calls ++ [⟨url, .memory⟩] }
  | phase {event : FetchEvent Response} {c : ℕ} {call : Call} {next : CallPhase} (hcall : s.calls[c]? = some call)
      (hstep : PhaseStep cfg s c call.url event call.phase next) : Moved event (s.setPhase c call next)
  | memoryHit {c : ℕ} {call : Call} {hit : CachedInlineData} {cache : MemoryCache} (hcall : s.calls[c]? = some call)
      (hphase : call.phase = .memory) (hget : s.memoryCache.bind (·.get call.url) = some (hit, cache)) :
      Moved (.advance c) ({ s with memoryCache := some cache }.setPhase c call
        (.ended none (.returned (.ok (hit.toResult true)))))
  | keepDiskHit {c : ℕ} {call : Call} {hit : CachedInlineData} (hcall : s.calls[c]? = some call)
      (hphase : call.phase = .diskHit hit) :
      Moved (.advance c) ((s.setMemory call.url hit).setPhase c call
        (.ended none (.returned (.ok (hit.toResult true)))))
  | storeMemory {c : ℕ} {call : Call} {cached : CachedInlineData} (hcall : s.calls[c]? = some call)
      (hphase : call.phase = .storingMemory cached) :
      Moved (.advance c) ((s.setMemory call.url cached).setPhase c call (.storingDisk cached))
  | join {c : ℕ} {call : Call} {t : ℕ} (hcall : s.calls[c]? = some call)
      (hphase : call.phase = .lookup ∨ call.phase = .insert) (hfound : s.inflight.lookup call.url = some t) :
      Moved (.advance c) (s.setPhase c call (.joined t))
  | insert {c : ℕ} {call : Call} (hcall : s.calls[c]? = some call) (hphase : call.phase = .insert)
      (habsent : s.inflight.lookup call.url = none) (hroom : s.inflight.length < cfg.maxInflight) :
      Moved (.advance c) ({ s with
        tasks := s.tasks ++ [FetchTask.new call.url]
        inflight := (call.url, s.tasks.length) :: s.inflight }.setPhase c call (.spawned s.tasks.length))
  | storeHandle {c : ℕ} {call : Call} {t : ℕ} {task : FetchTask} (hcall : s.calls[c]? = some call)
      (hphase : call.phase = .spawned t) (htask : s.tasks[t]? = some task) :
      Moved (.advance c) ((s.setTask t { task with abortHandle := true }).setPhase c call (.joined t))
  | register {c : ℕ} {call : Call} {t : ℕ} {task : FetchTask} (hcall : s.calls[c]? = some call)
      (hphase : call.phase = .joined t) (htask : s.tasks[t]? = some task) :
      Moved (.advance c) ((s.setTask t { task with waiterCount := task.waiterCount + 1 }).setPhase c call
        (.registered t))
  | leave {c : ℕ} {call : Call} {t : ℕ} {task : FetchTask} {outcome : FetchOutcome}
      (hcall : s.calls[c]? = some call) (hphase : call.phase = .leaving t outcome) (htask : s.tasks[t]? = some task)
      (hstays : task.waiterCount ≠ 1 ∨ cfg.enableBackgroundBridge = true) :
      Moved (.advance c) ((s.setTask t { task with waiterCount := task.waiterCount - 1 }).setPhase c call
        (.ended (some t) outcome))
  | leaveLast {c : ℕ} {call : Call} {t : ℕ} {task : FetchTask} {outcome : FetchOutcome}
      (hcall : s.calls[c]? = some call) (hphase : call.phase = .leaving t outcome) (htask : s.tasks[t]? = some task)
      (hlast : task.waiterCount = 1) (hbridge : cfg.enableBackgroundBridge = false) :
      Moved (.advance c) ((s.setTask t { task with waiterCount := task.waiterCount - 1 }).setPhase c call
        (.aborting t outcome))
  | abort {c : ℕ} {call : Call} {t : ℕ} {task : FetchTask} {outcome : FetchOutcome}
      (hcall : s.calls[c]? = some call) (hphase : call.phase = .aborting t outcome) (htask : s.tasks[t]? = some task) :
      Moved (.advance c) ((s.setTask t
        { task with abortHandle := false, aborted := task.aborted || task.abortHandle }).setPhase c call
          (.removing t outcome))
  | locked {c : ℕ} {call : Call} {t : ℕ} {outcome : FetchOutcome} (hcall : s.calls[c]? = some call)
      (hphase : call.phase = .removing t outcome) :
      Moved (.tryLock c true) ((s.removeTask call.url t).setPhase c call (.ended (some t) outcome))
  | contended {c : ℕ} {call : Call} {t : ℕ} {outcome : FetchOutcome} (hcall : s.calls[c]? = some call)
      (hphase : call.phase = .removing t outcome) :
      Moved (.tryLock c false) ({ s with helpers := s.helpers ++ [(call.url, t)] }.setPhase c call
        (.ended (some t) outcome))
  | helper {index : ℕ} {url : String} {t : ℕ} (hhelper : s.helpers[index]? = some (url, t)) :
      Moved (.helper index) { s.removeTask url t with helpers := s.helpers.eraseIdx index }
  | task {event : FetchEvent Response} {t : ℕ} {task next : FetchTask} (htask : s.tasks[t]? = some task)
      (hstep : SpawnedStep cfg t task event next) : Moved event (s.setTask t next)
  | remove {t : ℕ} {task : FetchTask} {result : Published} (htask : s.tasks[t]? = some task)
      (hpolling : task.polling = true) (hphase : task.phase = .removing result) :
      Moved (.run t) ({ s with inflight := Assoc.others task.url s.inflight }.setTask t
        { task with phase := phaseAfterRemoval result })
  | storeTaskMemory {t : ℕ} {task : FetchTask} {hit : CachedInlineData} (htask : s.tasks[t]? = some task)
      (hpolling : task.polling = true) (hphase : task.phase = .storingMemory hit) :
      Moved (.run t) ((s.setMemory task.url hit).setTask t { task with phase := .storingDisk hit })

end

section

variable {Response : Type} {cfg : FetchConfig Response} {s s' : FetchState}

theorem advanceCall_moved {c : ℕ} {call : Call} (hcall : s.calls[c]? = some call)
    (h : advanceCall cfg s c call = some s') : Moved cfg s (.advance c) s' := by
  obtain ⟨url, phase⟩ := call
  unfold advanceCall at h
  cases phase with
  | memory =>
    dsimp only at h
    split at h
    · rename_i hit cache hget
      obtain rfl := Option.some.inj h
      exact .memoryHit hcall rfl hget
    · rename_i hget
      obtain rfl := Option.some.inj h
      exact .phase hcall (.memoryMiss hget)
  | disk =>
    dsimp only at h
    split at h
    · cases h
    · rename_i hdisk
      obtain rfl := Option.some.inj h
      exact .phase hcall (.noDisk (Bool.eq_false_iff.mpr hdisk))
  | diskHit hit =>
    obtain rfl := Option.some.inj h
    exact .keepDiskHit hcall rfl
  | lookup =>
    dsimp only at h
    split at h
    · rename_i t hfound
      obtain rfl := Option.some.inj h
      exact .join hcall (.inl rfl) hfound
    · rename_i habsent
      obtain rfl := Option.some.inj h
      exact .phase hcall (.absent habsent)
  | insert =>
    dsimp only at h
    split at h
    · rename_i t hfound
      obtain rfl := Option.some.inj h
      exact .join hcall (.inr rfl) hfound
    · rename_i habsent
      split at h
      · rename_i hfull
        obtain rfl := Option.some.inj h
        exact .phase hcall (.full habsent hfull)
      · rename_i hroom
        obtain rfl := Option.some.inj h
        exact .insert hcall rfl habsent (Nat.lt_of_not_le hroom)
  | direct => cases h
  | storingMemory cached =>
    obtain rfl := Option.some.inj h
    exact .storeMemory hcall rfl
  | storingDisk cached =>
    obtain rfl := Option.some.inj h
    exact .phase hcall (.stored cached)
  | spawned t =>
    obtain ⟨task, htask, rfl⟩ := Option.map_eq_some_iff.mp h
    exact .storeHandle hcall rfl htask
  | joined t =>
    obtain ⟨task, htask, rfl⟩ := Option.map_eq_some_iff.mp h
    exact .register hcall rfl htask
  | registered t =>
    obtain ⟨task, htask, rfl⟩ := Option.map_eq_some_iff.mp h
    exact .phase hcall (.notified htask)
  | checking t seen =>
    obtain ⟨task, htask, rfl⟩ := Option.map_eq_some_iff.mp h
    rcases hresult : task.result with _ | published
    · exact .phase hcall (.unpublished htask hresult)
    · exact .phase hcall (.published htask hresult (.inl ⟨seen, rfl⟩))
  | waiting t seen =>
    obtain ⟨task, htask, h⟩ := Option.bind_eq_some_iff.mp h
    split at h
    · rename_i hseen
      obtain rfl := Option.some.inj h
      exact .phase hcall (.wake htask hseen)
    · cases h
  | timedOut t =>
    obtain ⟨task, htask, rfl⟩ := Option.map_eq_some_iff.mp h
    rcases hresult : task.result with _ | published
    · exact .phase hcall (.gaveUp htask hresult)
    · exact .phase hcall (.published htask hresult (.inr (.inl rfl)))
  | woken t =>
    obtain ⟨task, htask, rfl⟩ := Option.map_eq_some_iff.mp h
    rcases hresult : task.result with _ | published
    · exact .phase hcall (.withoutResult htask hresult)
    · exact .phase hcall (.published htask hresult (.inr (.inr rfl)))
  | leaving t outcome =>
    obtain ⟨task, htask, rfl⟩ := Option.map_eq_some_iff.mp h
    dsimp only
    split
    · rename_i hstays
      exact .leave hcall rfl htask (by simpa using hstays)
    · rename_i hlast
      have hlast' : task.waiterCount = 1 ∧ cfg.enableBackgroundBridge = false := by simpa using hlast
      exact .leaveLast hcall rfl htask hlast'.1 hlast'.2
  | aborting t outcome =>
    obtain ⟨task, htask, rfl⟩ := Option.map_eq_some_iff.mp h
    exact .abort hcall rfl htask
  | removing t outcome => cases h
  | ended t outcome => cases h

theorem runTask_moved {t : ℕ} {task : FetchTask} (htask : s.tasks[t]? = some task) (hpolling : task.polling = true)
    (h : runTask s t task = some s') : Moved cfg s (.run t) s' := by
  unfold runTask at h
  rcases hphase : task.phase with _ | result | result | result | hit | hit | _
  · rw [hphase] at h
    cases h
  · rw [hphase] at h
    obtain rfl := Option.some.inj h
    exact .task htask (.publish hpolling hphase)
  · rw [hphase] at h
    obtain rfl := Option.some.inj h
    exact .task htask (.notify hpolling hphase)
  · rw [hphase] at h
    obtain rfl := Option.some.inj h
    rcases result with text | hit
    · exact .remove htask hpolling hphase
    · exact .remove htask hpolling hphase
  · rw [hphase] at h
    obtain rfl := Option.some.inj h
    exact .storeTaskMemory htask hpolling hphase
  · rw [hphase] at h
    obtain rfl := Option.some.inj h
    exact .task htask (.stored hpolling hphase)
  · rw [hphase] at h
    cases h

/-- **There are no other steps.** -/
theorem step_moved {event : FetchEvent Response} (h : s.step cfg event = some s') : Moved cfg s event s' := by
  cases event with
  | fetch url =>
    obtain rfl := Option.some.inj h
    exact .fetch url
  | advance c =>
    obtain ⟨call, hcall, h⟩ := Option.bind_eq_some_iff.mp h
    exact advanceCall_moved hcall h
  | diskAnswer c answer =>
    obtain ⟨⟨url, phase⟩, hcall, h⟩ := Option.bind_eq_some_iff.mp h
    dsimp only at h
    split at h
    · rename_i hdisk
      obtain ⟨rfl, -⟩ := hdisk
      rcases answer with text | _ | hit
      · obtain rfl := Option.some.inj h
        exact .phase hcall (.diskFailed text)
      · obtain rfl := Option.some.inj h
        exact .phase hcall .diskMiss
      · obtain rfl := Option.some.inj h
        exact .phase hcall (.diskFound hit)
    · cases h
  | directResponse c response =>
    obtain ⟨⟨url, phase⟩, hcall, h⟩ := Option.bind_eq_some_iff.mp h
    dsimp only at h
    split at h
    · rename_i hdirect
      obtain rfl := hdirect
      split at h
      · rename_i cached hdownload
        obtain rfl := Option.some.inj h
        exact .phase hcall (.fetched hdownload)
      · rename_i text hdownload
        obtain rfl := Option.some.inj h
        exact .phase hcall (.failed hdownload)
    · cases h
  | waitTimeout c =>
    obtain ⟨⟨url, phase⟩, hcall, h⟩ := Option.bind_eq_some_iff.mp h
    dsimp only at h
    split at h
    · rename_i t seen
      split at h
      · rename_i hbridge
        obtain rfl := Option.some.inj h
        exact .phase hcall (.waitTimeout hbridge)
      · cases h
    · cases h
  | tryLock c acquired =>
    obtain ⟨⟨url, phase⟩, hcall, h⟩ := Option.bind_eq_some_iff.mp h
    dsimp only at h
    split at h
    · rename_i t outcome
      rcases acquired with _ | _
      · obtain rfl := Option.some.inj h
        exact .contended hcall rfl
      · obtain rfl := Option.some.inj h
        exact .locked hcall rfl
    · cases h
  | cancel c =>
    obtain ⟨call, hcall, h⟩ := Option.bind_eq_some_iff.mp h
    obtain ⟨next, hnext, rfl⟩ := Option.map_eq_some_iff.mp h
    exact .phase hcall (.cancel hnext)
  | helper index =>
    obtain ⟨⟨url, t⟩, hhelper, rfl⟩ := Option.map_eq_some_iff.mp h
    exact .helper hhelper
  | poll t =>
    obtain ⟨task, htask, h⟩ := Option.bind_eq_some_iff.mp h
    split at h
    · cases h
    · rename_i hpoll
      obtain rfl := Option.some.inj h
      have hidle : task.polling = false ∧ task.aborted = false := by
        rw [not_or, not_or] at hpoll
        exact ⟨Bool.eq_false_iff.mpr hpoll.1, Bool.eq_false_iff.mpr hpoll.2.1⟩
      exact .task htask (.poll hidle.1 hidle.2)
  | suspend t =>
    obtain ⟨task, htask, h⟩ := Option.bind_eq_some_iff.mp h
    split at h
    · cases h
    · cases h
    · split at h
      · rename_i hpolling
        obtain rfl := Option.some.inj h
        exact .task htask (.suspend hpolling)
      · cases h
  | response t response =>
    obtain ⟨task, htask, h⟩ := Option.bind_eq_some_iff.mp h
    split at h
    · rename_i hdownload
      obtain rfl := Option.some.inj h
      exact .task htask (.response response hdownload.1 hdownload.2)
    · cases h
  | run t =>
    obtain ⟨task, htask, h⟩ := Option.bind_eq_some_iff.mp h
    split at h
    · rename_i hpolling
      exact runTask_moved htask hpolling h
    · cases h

/-! ## Calls and tasks after a step -/

theorem mem_calls_setPhase {c : ℕ} {call call' : Call} {phase : CallPhase} (h : call' ∈ (s.setPhase c call phase).calls) :
    call' ∈ s.calls ∨ call' = { call with phase } :=
  List.mem_or_eq_of_mem_set h

theorem tasks_setTask {t t' : ℕ} {task task' : FetchTask} (h : (s.setTask t task).tasks[t']? = some task') :
    t' = t ∧ task' = task ∨ t' ≠ t ∧ s.tasks[t']? = some task' := by
  have hset : (s.tasks.set t task)[t']? = some task' := h
  rw [List.getElem?_set] at hset
  split at hset
  · rename_i heq
    split at hset
    · exact .inl ⟨heq.symm, (Option.some.inj hset).symm⟩
    · cases hset
  · rename_i hne
    exact .inr ⟨Ne.symm hne, hset⟩

theorem tasks_setTask_self {t : ℕ} {task task' : FetchTask} (h : s.tasks[t]? = some task) :
    (s.setTask t task').tasks[t]? = some task' :=
  List.getElem?_set_self (List.getElem?_eq_some_iff.mp h).1

theorem tasks_setTask_of_ne {t t' : ℕ} (h : t' ≠ t) (task : FetchTask) :
    (s.setTask t task).tasks[t']? = s.tasks[t']? :=
  List.getElem?_set_ne (Ne.symm h)

/-- A task is there before, or it is the one that an insertion appends. -/
theorem tasks_append {t : ℕ} {task new : FetchTask} (h : (s.tasks ++ [new])[t]? = some task) :
    s.tasks[t]? = some task ∨ t = s.tasks.length ∧ task = new := by
  rw [List.getElem?_append] at h
  split at h
  · exact .inl h
  · rename_i hge
    rw [List.getElem?_singleton] at h
    split at h
    · exact .inr ⟨by omega, (Option.some.inj h).symm⟩
    · cases h

/-- What stays of a task. -/
structure FetchTask.Later (task task' : FetchTask) : Prop where
  url : task'.url = task.url
  result : ∀ published, task.result = some published → task'.result = some published
  notifyCalls : task.notifyCalls ≤ task'.notifyCalls
  aborted : task.aborted = true → task'.aborted = true

theorem FetchTask.Later.refl (task : FetchTask) : task.Later task := ⟨rfl, fun _ h => h, le_rfl, fun h => h⟩

theorem FetchTask.Later.trans {task task' task'' : FetchTask} (h : task.Later task') (h' : task'.Later task'') :
    task.Later task'' :=
  ⟨h'.url.trans h.url, fun published hresult => h'.result published (h.result published hresult),
    h.notifyCalls.trans h'.notifyCalls, fun haborted => h'.aborted (h.aborted haborted)⟩

theorem later_setTask {t : ℕ} {task next : FetchTask} (htask : s.tasks[t]? = some task) (hlater : task.Later next)
    {t' : ℕ} {old : FetchTask} (hold : s.tasks[t']? = some old) :
    ∃ new, (s.setTask t next).tasks[t']? = some new ∧ old.Later new := by
  by_cases ht : t' = t
  · subst ht
    obtain rfl := Option.some.inj (htask.symm.trans hold)
    exact ⟨next, tasks_setTask_self htask, hlater⟩
  · exact ⟨old, by rw [tasks_setTask_of_ne ht, hold], .refl old⟩

theorem removeTask_tasks (url : String) (t : ℕ) : (s.removeTask url t).tasks = s.tasks := by
  unfold FetchState.removeTask
  split <;> rfl

theorem removeTask_calls (url : String) (t : ℕ) : (s.removeTask url t).calls = s.calls := by
  unfold FetchState.removeTask
  split <;> rfl

theorem SpawnedStep.later {t : ℕ} {task next : FetchTask} {event : FetchEvent Response}
    (h : SpawnedStep cfg t task event next) (hfresh : ∀ published, task.phase = .publishing published → task.result = none) :
    task.Later next := by
  cases h with
  | poll | suspend | response | stored => exact ⟨rfl, fun _ h => h, le_rfl, fun h => h⟩
  | publish hpolling hphase =>
    refine ⟨rfl, ?_, le_rfl, fun h => h⟩
    intro published hresult
    rw [hfresh _ hphase] at hresult
    cases hresult
  | notify => exact ⟨rfl, fun _ h => h, Nat.le_succ _, fun h => h⟩

/-- No task is lost, and what stays of each. -/
theorem Moved.later {event : FetchEvent Response} (h : Moved cfg s event s')
    (hfresh : ∀ (t : ℕ) (task : FetchTask) (published : Published), s.tasks[t]? = some task →
      task.phase = .publishing published → task.result = none)
    {t : ℕ} {task : FetchTask} (htask : s.tasks[t]? = some task) :
    ∃ task', s'.tasks[t]? = some task' ∧ task.Later task' := by
  have hsame : ∃ task', s.tasks[t]? = some task' ∧ task.Later task' := ⟨task, htask, .refl task⟩
  cases h with
  | fetch | phase | memoryHit | keepDiskHit | storeMemory | join | contended => exact hsame
  | locked | helper =>
    obtain ⟨task', htask', hlater⟩ := hsame
    refine ⟨task', ?_, hlater⟩
    show (s.removeTask _ _).tasks[t]? = some task'
    rw [removeTask_tasks, htask']
  | insert =>
    refine ⟨task, ?_, .refl task⟩
    show (s.tasks ++ _)[t]? = some task
    rw [List.getElem?_append_left (List.getElem?_eq_some_iff.mp htask).1, htask]
  | storeHandle hcall hphase hold
  | register hcall hphase hold
  | leave hcall hphase hold
  | leaveLast hcall hphase hold =>
    refine later_setTask hold ?_ htask
    exact ⟨rfl, fun _ h => h, le_rfl, fun h => h⟩
  | abort hcall hphase hold =>
    refine later_setTask hold ?_ htask
    refine ⟨rfl, fun _ h => h, le_rfl, fun haborted => ?_⟩
    show (_ || _) = true
    rw [haborted, Bool.true_or]
  | task hold hstep => exact later_setTask hold (hstep.later fun published => hfresh _ _ published hold) htask
  | remove hold hpolling hphase =>
    refine @later_setTask { s with inflight := _ } _ _ _ hold ?_ _ _ htask
    exact ⟨rfl, fun _ h => h, le_rfl, fun h => h⟩
  | storeTaskMemory hold hpolling hphase =>
    refine @later_setTask (s.setMemory _ _) _ _ _ hold ?_ _ _ htask
    exact ⟨rfl, fun _ h => h, le_rfl, fun h => h⟩

end

/-- The task that a call holds or held. -/
def CallPhase.task : CallPhase → Option ℕ
  | .spawned t | .joined t | .registered t | .checking t _ | .waiting t _ | .timedOut t | .woken t | .leaving t _
  | .aborting t _ | .removing t _ => some t
  | .ended t _ => t
  | _ => none

end GeminiWorker
