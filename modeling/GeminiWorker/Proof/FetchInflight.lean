import GeminiWorker.Proof.FetchWait
import Mathlib.Data.List.Perm.Subperm

/-!
# The inflight map and the downloads

A download that runs is the task under its URL in the inflight map, as long as tasks are taken out of the map
in the order in which they were put there.

* `FetchTask.isLive`, `FetchTask.mayRemove`: downloads that run, and tasks that may yet take their URL out.
* `mapClean`: a task is only inserted when no older one may yet remove its URL, and a last waiter aborts what
  it takes out. With the background bridge every step is clean.
* `Owned`: what clean steps keep.
* `inflight_exact`: the map and the downloads agree.
-/

namespace GeminiWorker

open Transition (Reach)
open FetchState (setPhase setTask setMemory removeTask)

/-- A download that has neither published a result nor been aborted. -/
def FetchTask.isLive (task : FetchTask) : Bool := task.result.isNone && !task.aborted

/-- A task whose spawned part has yet to take its URL out of the map. -/
def FetchTask.beforeRemoval (task : FetchTask) : Bool :=
  match task.phase with
  | .downloading | .publishing _ | .notifying _ | .removing _ => true
  | .storingMemory _ | .storingDisk _ | .finished => false

/-- It may still do so: one that is aborted only runs on while it is polled. -/
def FetchTask.mayRemove (task : FetchTask) : Bool := task.beforeRemoval && (task.polling || !task.aborted)

section

variable {Response : Type}

/-- What keeps tasks in order without the background bridge: the last waiter finds the abort handle of a
download that runs, and a task is inserted when no older one of its URL may yet remove that. -/
def mapClean (cfg : FetchConfig Response) (s : FetchState) : FetchEvent Response → Bool
  | .advance c =>
    cfg.enableBackgroundBridge || match s.calls[c]? with
      | some ⟨_, .aborting t _⟩ => s.tasks[t]?.all fun task => task.abortHandle || !task.isLive
      | some ⟨url, .insert⟩ => (s.inflight.lookup url).isSome || decide (cfg.maxInflight ≤ s.inflight.length) ||
          s.tasks.all fun task => !(task.url == url && task.mayRemove)
      | _ => true
  | _ => true

variable {cfg : FetchConfig Response} {s s' : FetchState} {event : FetchEvent Response}

structure Owned (s : FetchState) : Prop where
  mayRemove : ∀ (t : ℕ) (task : FetchTask), s.tasks[t]? = some task → task.mayRemove = true →
    ∀ t', (task.url, t') ∈ s.inflight → t' = t
  live : ∀ (t : ℕ) (task : FetchTask), s.tasks[t]? = some task → task.isLive = true → (task.url, t) ∈ s.inflight
  removing : ∀ call ∈ s.calls, ∀ t outcome, call.phase = .removing t outcome → ∀ task, s.tasks[t]? = some task →
    task.isLive = false
  helpers : ∀ url t, (url, t) ∈ s.helpers → ∀ task, s.tasks[t]? = some task → task.isLive = false

/-- With the background bridge nothing is aborted, and each task removes its own URL. -/
structure Bridged (s : FetchState) : Prop where
  calls : ∀ call ∈ s.calls, ∀ t outcome, call.phase ≠ .aborting t outcome ∧ call.phase ≠ .removing t outcome
  helpers : s.helpers = []
  aborted : ∀ task ∈ s.tasks, task.aborted = false
  entries : ∀ (t : ℕ) (task : FetchTask), s.tasks[t]? = some task → task.beforeRemoval = true →
    (task.url, t) ∈ s.inflight

theorem not_live_of_result {task : FetchTask} {published : Published} (h : task.result = some published) :
    task.isLive = false := by
  rw [FetchTask.isLive, h]
  rfl

theorem PhaseStep.next_ne {c : ℕ} {url : String} {phase next : CallPhase} (h : PhaseStep cfg s c url event phase next)
    (t : ℕ) (outcome : FetchOutcome) : next ≠ .aborting t outcome ∧ next ≠ .removing t outcome := by
  cases h with
  | memoryMiss | noDisk | diskFailed | diskFound | diskMiss | absent | full | fetched | failed | stored | notified
  | published | unpublished | gaveUp | withoutResult | wake | waitTimeout =>
    exact ⟨fun heq => (by cases heq), fun heq => (by cases heq)⟩
  | cancel hcancel =>
    cases phase with
    | spawned | joined | registered | leaving | aborting | removing | ended => cases hcancel
    | memory | disk | diskHit | lookup | insert | direct | storingMemory | storingDisk | checking | waiting | timedOut
    | woken =>
      obtain rfl := Option.some.inj hcancel
      exact ⟨fun heq => (by cases heq), fun heq => (by cases heq)⟩

/-- A step after which a task that may remove its URL, or runs, was one before. -/
structure FetchTask.Older (task next : FetchTask) : Prop where
  url : next.url = task.url
  mayRemove : next.mayRemove = true → task.mayRemove = true
  isLive : next.isLive = true → task.isLive = true

theorem FetchTask.Older.refl (task : FetchTask) : task.Older task := ⟨rfl, id, id⟩

theorem SpawnedStep.older {t : ℕ} {task next : FetchTask} (h : SpawnedStep cfg t task event next) : task.Older next := by
  cases h with
  | poll hpolling haborted =>
    refine ⟨rfl, fun hmay => ?_, id⟩
    have hbefore : task.beforeRemoval = true := ((Bool.and_eq_true _ _).mp hmay).1
    rw [FetchTask.mayRemove, hbefore, haborted, Bool.not_false, Bool.or_true, Bool.and_true]
  | suspend hpolling =>
    refine ⟨rfl, fun hmay => ?_, id⟩
    have hbefore : task.beforeRemoval = true := ((Bool.and_eq_true _ _).mp hmay).1
    rw [FetchTask.mayRemove, hbefore, hpolling, Bool.true_or, Bool.and_true]
  | response response hpolling hphase =>
    refine ⟨rfl, fun _ => ?_, id⟩
    rw [FetchTask.mayRemove, FetchTask.beforeRemoval, hphase, hpolling]
    rfl
  | publish hpolling hphase =>
    refine ⟨rfl, fun _ => ?_, fun hlive => by cases hlive⟩
    rw [FetchTask.mayRemove, FetchTask.beforeRemoval, hphase, hpolling]
    rfl
  | notify hpolling hphase =>
    refine ⟨rfl, fun _ => ?_, id⟩
    rw [FetchTask.mayRemove, FetchTask.beforeRemoval, hphase, hpolling]
    rfl
  | stored hpolling hphase => exact ⟨rfl, fun hmay => (by cases hmay), id⟩

/-- A step that changes neither the map nor what calls remove. -/
theorem Owned.frame (h : Owned s) (hinflight : s'.inflight = s.inflight) (hhelpers : s'.helpers = s.helpers)
    (hcalls : ∀ call ∈ s'.calls, ∀ t outcome, call.phase = .removing t outcome → call ∈ s.calls)
    (htasks : ∀ (t : ℕ) (task' : FetchTask), s'.tasks[t]? = some task' →
      ∃ task, s.tasks[t]? = some task ∧ task.Older task') : Owned s' := by
  have hdone : ∀ t : ℕ, (∀ task : FetchTask, s.tasks[t]? = some task → task.isLive = false) →
      ∀ task' : FetchTask, s'.tasks[t]? = some task' → task'.isLive = false := by
    intro t hnot task' htask'
    obtain ⟨task, htask, holder⟩ := htasks t task' htask'
    by_contra hlive
    have hbefore := holder.isLive (by simpa using hlive)
    rw [hnot task htask] at hbefore
    cases hbefore
  refine ⟨?_, ?_, ?_, ?_⟩
  · intro t task' htask' hmay t' hmem
    obtain ⟨task, htask, holder⟩ := htasks t task' htask'
    rw [hinflight, holder.url] at hmem
    exact h.mayRemove t task htask (holder.mayRemove hmay) t' hmem
  · intro t task' htask' hlive
    obtain ⟨task, htask, holder⟩ := htasks t task' htask'
    rw [hinflight, holder.url]
    exact h.live t task htask (holder.isLive hlive)
  · intro call hcall t outcome hphase
    exact hdone t (h.removing call (hcalls call hcall t outcome hphase) t outcome hphase)
  · intro url t hmem
    rw [hhelpers] at hmem
    exact hdone t (h.helpers url t hmem)

theorem older_setTask {t : ℕ} {old next : FetchTask} (hold : s.tasks[t]? = some old) (holder : old.Older next)
    (t' : ℕ) (task' : FetchTask) (h : (s.setTask t next).tasks[t']? = some task') :
    ∃ task, s.tasks[t']? = some task ∧ task.Older task' := by
  rcases tasks_setTask h with ⟨rfl, rfl⟩ | ⟨-, htask⟩
  · exact ⟨old, hold, holder⟩
  · exact ⟨task', htask, .refl task'⟩

/-- Taking out a task whose download does not run. -/
theorem Owned.removeTask (h : Owned s) (hsound : Sound s) {url : String} {t : ℕ}
    (hdone : ∀ task, s.tasks[t]? = some task → task.isLive = false) : Owned (s.removeTask url t) := by
  refine ⟨?_, ?_, ?_, ?_⟩
  · intro t' task htask hmay t'' hmem
    rw [removeTask_tasks] at htask
    exact h.mayRemove t' task htask hmay t'' ((removeTask_sublist url t).subset hmem)
  · intro t' task htask hlive
    rw [removeTask_tasks] at htask
    have hmem := h.live t' task htask hlive
    unfold FetchState.removeTask
    split
    · rename_i hlookup
      refine Assoc.mem_others.mpr ⟨hmem, fun hurl => ?_⟩
      -- under that URL there is only the task that is taken out
      have hsame : task.url = url := hurl
      rw [hsame] at hmem
      have hfound := (Assoc.lookup_eq_some_iff_mem hsound.distinct).mpr hmem
      obtain rfl := Option.some.inj (hlookup.symm.trans hfound)
      rw [hdone task htask] at hlive
      cases hlive
    · exact hmem
  · intro call hcall t' outcome hphase task htask
    rw [removeTask_calls] at hcall
    rw [removeTask_tasks] at htask
    exact h.removing call hcall t' outcome hphase task htask
  · intro url' t' hmem task htask
    rw [removeTask_helpers] at hmem
    rw [removeTask_tasks] at htask
    exact h.helpers url' t' hmem task htask

theorem mem_setPhase_removing {c : ℕ} {call : Call} {next : CallPhase}
    (hnext : ∀ t outcome, next ≠ .removing t outcome) :
    ∀ call' ∈ (s.setPhase c call next).calls, ∀ t outcome, call'.phase = .removing t outcome → call' ∈ s.calls := by
  intro call' hcall' t outcome hphase
  rcases mem_calls_setPhase hcall' with hmem | rfl
  · exact hmem
  · exact absurd hphase (hnext t outcome)

/-- A step that only moves a call on. -/
theorem Owned.setPhase (h : Owned s) {c : ℕ} {call : Call} {next : CallPhase}
    (hnext : ∀ t outcome, next ≠ .removing t outcome) : Owned (s.setPhase c call next) :=
  h.frame rfl rfl (mem_setPhase_removing hnext) fun _ task htask => ⟨task, htask, .refl task⟩

/-- A step that only changes a task. -/
theorem Owned.setTask (h : Owned s) {t : ℕ} {old next : FetchTask} (hold : s.tasks[t]? = some old)
    (holder : old.Older next) : Owned (s.setTask t next) :=
  h.frame rfl rfl (fun _ hcall _ _ _ => hcall) (older_setTask hold holder)

theorem Owned.setMemory (h : Owned s) (url : String) (hit : CachedInlineData) : Owned (s.setMemory url hit) :=
  h.frame rfl rfl (fun _ hcall _ _ _ => hcall) fun _ task htask => ⟨task, htask, .refl task⟩

/-- **A clean step keeps the map in order.** -/
theorem Moved.owned (h : Moved cfg s event s') (hsound : Sound s) (howned : Owned s)
    (hinsert : ∀ (c : ℕ) (call : Call), event = .advance c → s.calls[c]? = some call → call.phase = .insert →
      s.inflight.lookup call.url = none → s.inflight.length < cfg.maxInflight →
      ∀ task ∈ s.tasks, task.url = call.url → task.mayRemove = false)
    (habort : ∀ (c : ℕ) (call : Call) (t : ℕ) (outcome : FetchOutcome) (task : FetchTask), event = .advance c →
      s.calls[c]? = some call → call.phase = .aborting t outcome → s.tasks[t]? = some task →
      task.abortHandle = true ∨ task.isLive = false) : Owned s' := by
  cases h with
  | fetch url =>
    refine howned.frame rfl rfl (fun call hcall t outcome hphase => ?_) fun _ task htask => ⟨task, htask, .refl task⟩
    rcases List.mem_append.mp hcall with hcall | hcall
    · exact hcall
    · obtain rfl := List.mem_singleton.mp hcall
      cases hphase
  | phase hcall hstep => exact howned.setPhase fun t outcome => (hstep.next_ne t outcome).2
  | @memoryHit c call hit cache hcall hphase hget =>
    refine @Owned.setPhase { s with memoryCache := some cache } ?_ _ _ _ fun _ _ heq => by cases heq
    exact howned.frame rfl rfl (fun _ hcall _ _ _ => hcall) fun _ task htask => ⟨task, htask, .refl task⟩
  | keepDiskHit hcall hphase | storeMemory hcall hphase => exact (howned.setMemory _ _).setPhase fun _ _ heq => by cases heq
  | join hcall hphase hfound => exact howned.setPhase fun _ _ heq => by cases heq
  | @insert c call hcall hphase habsent hroom =>
    have hfresh : s.tasks[s.tasks.length]? = none := List.getElem?_eq_none le_rfl
    have hold : ∀ t (task : FetchTask), (s.tasks ++ [FetchTask.new call.url])[t]? = some task →
        s.tasks[t]? = some task ∨ t = s.tasks.length ∧ task = FetchTask.new call.url := fun t task => tasks_append
    have hinserted : Owned { s with
        tasks := s.tasks ++ [FetchTask.new call.url]
        inflight := (call.url, s.tasks.length) :: s.inflight } := by
      refine ⟨?_, ?_, ?_, ?_⟩
      · intro t task htask hmay t' hmem
        rcases hold t task htask with htask | ⟨rfl, rfl⟩
        · rcases List.mem_cons.mp hmem with heq | hmem
          · -- an older task of the URL may not remove it any more
            have hnot := hinsert c call rfl hcall hphase habsent hroom task (List.mem_of_getElem? htask)
              (Prod.mk.inj heq).1
            rw [hnot] at hmay
            cases hmay
          · exact howned.mayRemove t task htask hmay t' hmem
        · rcases List.mem_cons.mp hmem with heq | hmem
          · exact (Prod.mk.inj heq).2
          · exact absurd (List.mem_map_of_mem hmem) (Assoc.lookup_eq_none_iff.mp habsent)
      · intro t task htask hlive
        rcases hold t task htask with htask | ⟨rfl, rfl⟩
        · exact List.mem_cons_of_mem _ (howned.live t task htask hlive)
        · exact List.mem_cons_self ..
      · intro call' hcall' t outcome hphase' task htask
        rcases hold t task htask with htask | ⟨rfl, rfl⟩
        · exact howned.removing call' hcall' t outcome hphase' task htask
        · obtain ⟨task, htask', -⟩ := hsound.calls call' hcall' s.tasks.length (by rw [hphase']; rfl)
          rw [hfresh] at htask'
          cases htask'
      · intro url t hmem task htask
        rcases hold t task htask with htask | ⟨rfl, rfl⟩
        · exact howned.helpers url t hmem task htask
        · obtain ⟨task, htask', -⟩ := hsound.helpers url s.tasks.length hmem
          rw [hfresh] at htask'
          cases htask'
    exact hinserted.setPhase fun _ _ heq => by cases heq
  | storeHandle hcall hphase htask | register hcall hphase htask | leave hcall hphase htask hstays =>
    refine Owned.setPhase (howned.setTask htask ?_) fun _ _ heq => by cases heq
    exact ⟨rfl, id, id⟩
  | leaveLast hcall hphase htask hlast hbridge =>
    refine Owned.setPhase (howned.setTask htask ?_) fun _ _ heq => by cases heq
    exact ⟨rfl, id, id⟩
  | @abort c call t task outcome hcall hphase htask =>
    have holder : task.Older { task with abortHandle := false, aborted := task.aborted || task.abortHandle } := by
      refine ⟨rfl, fun hmay => ?_, fun hlive => ?_⟩
      · obtain ⟨hbefore, hruns⟩ := (Bool.and_eq_true _ _).mp hmay
        refine (Bool.and_eq_true _ _).mpr ⟨hbefore, ?_⟩
        rcases (Bool.or_eq_true _ _).mp hruns with hpolling | hnot
        · exact (Bool.or_eq_true _ _).mpr (.inl hpolling)
        · refine (Bool.or_eq_true _ _).mpr (.inr ?_)
          simp only [Bool.not_or, Bool.and_eq_true] at hnot
          exact hnot.1
      · obtain ⟨hresult, hnot⟩ := (Bool.and_eq_true _ _).mp hlive
        simp only [Bool.not_or, Bool.and_eq_true] at hnot
        exact (Bool.and_eq_true _ _).mpr ⟨hresult, hnot.1⟩
    have hstopped : FetchTask.isLive { task with abortHandle := false, aborted := task.aborted || task.abortHandle } =
        false := by
      rcases habort c call t outcome task rfl hcall hphase htask with hhandle | hlive
      · show (task.result.isNone && !(task.aborted || task.abortHandle)) = false
        rw [hhandle, Bool.or_true, Bool.not_true, Bool.and_false]
      · by_contra hnot
        rw [holder.isLive (by simpa using hnot)] at hlive
        cases hlive
    have hset := howned.setTask htask holder
    refine ⟨hset.mayRemove, hset.live, ?_, hset.helpers⟩
    intro call' hcall' t' outcome' hphase' task' htask'
    rcases mem_calls_setPhase hcall' with hmem | rfl
    · exact hset.removing call' hmem t' outcome' hphase' task' htask'
    · obtain ⟨rfl, -⟩ := CallPhase.removing.inj hphase'
      obtain rfl := Option.some.inj ((tasks_setTask_self htask).symm.trans htask')
      exact hstopped
  | @locked c call t outcome hcall hphase =>
    have hdone := howned.removing call (List.mem_of_getElem? hcall) t outcome hphase
    exact (howned.removeTask hsound hdone).setPhase fun _ _ heq => by cases heq
  | @contended c call t outcome hcall hphase =>
    have hdone := howned.removing call (List.mem_of_getElem? hcall) t outcome hphase
    refine @Owned.setPhase { s with helpers := s.helpers ++ [(call.url, t)] } ?_ _ _ _ fun _ _ heq => by cases heq
    refine ⟨howned.mayRemove, howned.live, howned.removing, ?_⟩
    intro url t' hmem task htask
    rcases List.mem_append.mp hmem with hmem | hmem
    · exact howned.helpers url t' hmem task htask
    · obtain ⟨-, rfl⟩ := Prod.mk.inj (List.mem_singleton.mp hmem)
      exact hdone task htask
  | @helper index url t hhelper =>
    have hremoved : Owned (s.removeTask url t) :=
      howned.removeTask hsound (howned.helpers url t (List.mem_of_getElem? hhelper))
    refine ⟨hremoved.mayRemove, hremoved.live, hremoved.removing, ?_⟩
    intro url' t' hmem task htask
    have hhelpers : (url', t') ∈ (s.removeTask url t).helpers := by
      rw [removeTask_helpers]
      exact List.mem_of_mem_eraseIdx hmem
    exact hremoved.helpers url' t' hhelpers task htask
  | task htask hstep => exact howned.setTask htask hstep.older
  | @remove t task result htask hpolling hphase =>
    have hmay : task.mayRemove = true := by
      rw [FetchTask.mayRemove, FetchTask.beforeRemoval, hphase, hpolling]
      rfl
    have hresult : task.result = some result := by
      have hrecords := (hsound.tasks t task htask).records
      rwa [hphase] at hrecords
    have hout : Owned { s with inflight := Assoc.others task.url s.inflight } := by
      refine ⟨?_, ?_, howned.removing, howned.helpers⟩
      · intro t' task' htask' hmay' t'' hmem
        exact howned.mayRemove t' task' htask' hmay' t'' (Assoc.mem_others.mp hmem).1
      · intro t' task' htask' hlive
        have hmem := howned.live t' task' htask' hlive
        refine Assoc.mem_others.mpr ⟨hmem, fun hurl => ?_⟩
        -- under its URL the task finds only itself, and it has published
        have hsame : task'.url = task.url := hurl
        rw [hsame] at hmem
        obtain rfl := howned.mayRemove t task htask hmay t' hmem
        obtain rfl := Option.some.inj (htask.symm.trans htask')
        rw [not_live_of_result hresult] at hlive
        cases hlive
    refine hout.setTask htask ⟨rfl, fun hmay' => ?_, id⟩
    exact hmay
  | @storeTaskMemory t task hit htask hpolling hphase =>
    exact (howned.setMemory task.url hit).setTask htask ⟨rfl, fun hmay => (by cases hmay), id⟩

/-! ## With the background bridge -/

/-- A step that only moves a call on. -/
theorem Bridged.setPhase (h : Bridged s) {c : ℕ} {call : Call} {next : CallPhase}
    (hnext : ∀ t outcome, next ≠ .aborting t outcome ∧ next ≠ .removing t outcome) : Bridged (s.setPhase c call next) := by
  refine ⟨?_, h.helpers, h.aborted, h.entries⟩
  intro call' hcall' t outcome
  rcases mem_calls_setPhase hcall' with hmem | rfl
  · exact h.calls call' hmem t outcome
  · exact hnext t outcome

/-- A step that only changes a task. -/
theorem Bridged.setTask (h : Bridged s) {t : ℕ} {old next : FetchTask} (hold : s.tasks[t]? = some old)
    (hurl : next.url = old.url) (haborted : next.aborted = old.aborted)
    (hbefore : next.beforeRemoval = true → old.beforeRemoval = true) : Bridged (s.setTask t next) := by
  refine ⟨h.calls, h.helpers, ?_, ?_⟩
  · intro task htask
    rcases List.mem_or_eq_of_mem_set htask with hmem | rfl
    · exact h.aborted task hmem
    · rw [haborted]
      exact h.aborted old (List.mem_of_getElem? hold)
  · intro t' task htask hyet
    rcases tasks_setTask htask with ⟨rfl, rfl⟩ | ⟨-, htask⟩
    · rw [hurl]
      exact h.entries _ old hold (hbefore hyet)
    · exact h.entries t' task htask hyet

theorem SpawnedStep.bridged {t : ℕ} {task next : FetchTask} (h : SpawnedStep cfg t task event next) :
    next.url = task.url ∧ next.aborted = task.aborted ∧ (next.beforeRemoval = true → task.beforeRemoval = true) := by
  cases h with
  | poll | suspend => exact ⟨rfl, rfl, id⟩
  | response response hpolling hphase | publish hpolling hphase | notify hpolling hphase =>
    refine ⟨rfl, rfl, fun _ => ?_⟩
    rw [FetchTask.beforeRemoval, hphase]
  | stored hpolling hphase => exact ⟨rfl, rfl, fun hbefore => (by cases hbefore)⟩

theorem Moved.bridged (h : Moved cfg s event s') (hbridge : cfg.enableBackgroundBridge = true) (hsound : Sound s)
    (hbridged : Bridged s) : Bridged s' := by
  cases h with
  | fetch url =>
    refine ⟨?_, hbridged.helpers, hbridged.aborted, hbridged.entries⟩
    intro call hcall t outcome
    rcases List.mem_append.mp hcall with hcall | hcall
    · exact hbridged.calls call hcall t outcome
    · obtain rfl := List.mem_singleton.mp hcall
      exact ⟨fun heq => (by cases heq), fun heq => (by cases heq)⟩
  | phase hcall hstep => exact hbridged.setPhase hstep.next_ne
  | memoryHit hcall hphase hget =>
    exact @Bridged.setPhase { s with memoryCache := some _ } ⟨hbridged.calls, hbridged.helpers, hbridged.aborted,
      hbridged.entries⟩ _ _ _ fun _ _ => ⟨fun heq => (by cases heq), fun heq => (by cases heq)⟩
  | keepDiskHit | storeMemory =>
    exact @Bridged.setPhase (s.setMemory _ _) ⟨hbridged.calls, hbridged.helpers, hbridged.aborted,
      hbridged.entries⟩ _ _ _ fun _ _ => ⟨fun heq => (by cases heq), fun heq => (by cases heq)⟩
  | join => exact hbridged.setPhase fun _ _ => ⟨fun heq => (by cases heq), fun heq => (by cases heq)⟩
  | @insert c call hcall hphase habsent hroom =>
    have hinserted : Bridged { s with
        tasks := s.tasks ++ [FetchTask.new call.url]
        inflight := (call.url, s.tasks.length) :: s.inflight } := by
      refine ⟨hbridged.calls, hbridged.helpers, ?_, ?_⟩
      · intro task htask
        rcases List.mem_append.mp htask with htask | htask
        · exact hbridged.aborted task htask
        · obtain rfl := List.mem_singleton.mp htask
          rfl
      · intro t task htask hbefore
        rcases tasks_append htask with htask | ⟨rfl, rfl⟩
        · exact List.mem_cons_of_mem _ (hbridged.entries t task htask hbefore)
        · exact List.mem_cons_self ..
    exact hinserted.setPhase fun _ _ => ⟨fun heq => (by cases heq), fun heq => (by cases heq)⟩
  | storeHandle hcall hphase htask | register hcall hphase htask | leave hcall hphase htask hstays =>
    refine Bridged.setPhase (hbridged.setTask htask ?_ ?_ ?_) fun _ _ =>
      ⟨fun heq => (by cases heq), fun heq => (by cases heq)⟩
    · rfl
    · rfl
    · exact id
  | leaveLast hcall hphase htask hlast hoff =>
    rw [hbridge] at hoff
    cases hoff
  | abort hcall hphase htask => exact absurd hphase (hbridged.calls _ (List.mem_of_getElem? hcall) _ _).1
  | locked hcall hphase => exact absurd hphase (hbridged.calls _ (List.mem_of_getElem? hcall) _ _).2
  | contended hcall hphase => exact absurd hphase (hbridged.calls _ (List.mem_of_getElem? hcall) _ _).2
  | helper hhelper =>
    rw [hbridged.helpers] at hhelper
    cases hhelper
  | task htask hstep =>
    obtain ⟨hurl, haborted, hbefore⟩ := hstep.bridged
    exact hbridged.setTask htask hurl haborted hbefore
  | @remove t task result htask hpolling hphase =>
    have hbefore : task.beforeRemoval = true := by rw [FetchTask.beforeRemoval, hphase]
    refine ⟨hbridged.calls, hbridged.helpers, ?_, ?_⟩
    · intro task' htask'
      rcases List.mem_or_eq_of_mem_set htask' with hmem | rfl
      · exact hbridged.aborted task' hmem
      · exact hbridged.aborted task (List.mem_of_getElem? htask)
    · intro t' task' htask' hyet
      rcases tasks_setTask htask' with ⟨rfl, rfl⟩ | ⟨hne, hold⟩
      · rcases result with text | hit
        · cases hyet
        · cases hyet
      · refine Assoc.mem_others.mpr ⟨hbridged.entries t' task' hold hyet, fun hurl => hne ?_⟩
        -- two tasks of one URL would both be under it
        have hsame : task'.url = task.url := hurl
        have hmem := hbridged.entries t' task' hold hyet
        rw [hsame] at hmem
        have hfound := (Assoc.lookup_eq_some_iff_mem hsound.distinct).mpr hmem
        have hown := (Assoc.lookup_eq_some_iff_mem hsound.distinct).mpr (hbridged.entries t task htask hbefore)
        exact Option.some.inj (hfound.symm.trans hown)
  | @storeTaskMemory t task hit htask hpolling hphase =>
    exact @Bridged.setTask (s.setMemory task.url hit) ⟨hbridged.calls, hbridged.helpers, hbridged.aborted,
      hbridged.entries⟩ _ _ _ htask rfl rfl fun hbefore => (by cases hbefore)

/-! ## What holds in every state -/

/-- With the background bridge no older task of an absent URL may remove it. -/
theorem Bridged.not_mayRemove (h : Bridged s) {url : String} (habsent : s.inflight.lookup url = none) :
    ∀ task ∈ s.tasks, task.url = url → task.mayRemove = false := by
  intro task htask hurl
  by_contra hmay
  obtain ⟨t, ht⟩ := List.getElem?_of_mem htask
  have hmay' : task.mayRemove = true := by simpa using hmay
  have hbefore : task.beforeRemoval = true := ((Bool.and_eq_true _ _).mp hmay').1
  have hmem := h.entries t task ht hbefore
  rw [hurl] at hmem
  exact Assoc.lookup_eq_none_iff.mp habsent (List.mem_map_of_mem hmem)

theorem clean_insert {c : ℕ} {call : Call} (hclean : mapClean cfg s (.advance c) = true)
    (hbridge : cfg.enableBackgroundBridge = false) (hcall : s.calls[c]? = some call) (hphase : call.phase = .insert)
    (habsent : s.inflight.lookup call.url = none) (hroom : s.inflight.length < cfg.maxInflight) :
    ∀ task ∈ s.tasks, task.url = call.url → task.mayRemove = false := by
  obtain ⟨url, phase⟩ := call
  obtain rfl : phase = .insert := hphase
  rw [mapClean, hbridge, Bool.false_or, hcall] at hclean
  dsimp only at hclean habsent
  rw [habsent, Option.isSome_none, Bool.false_or, Bool.or_eq_true, decide_eq_true_iff] at hclean
  rcases hclean with hfull | hall
  · omega
  · intro task htask hurl
    have hnot := List.all_eq_true.mp hall task htask
    rw [beq_iff_eq.mpr hurl, Bool.true_and] at hnot
    simpa using hnot

theorem clean_abort {c : ℕ} {call : Call} {t : ℕ} {outcome : FetchOutcome} {task : FetchTask}
    (hclean : mapClean cfg s (.advance c) = true) (hbridge : cfg.enableBackgroundBridge = false)
    (hcall : s.calls[c]? = some call) (hphase : call.phase = .aborting t outcome) (htask : s.tasks[t]? = some task) :
    task.abortHandle = true ∨ task.isLive = false := by
  obtain ⟨url, phase⟩ := call
  obtain rfl : phase = .aborting t outcome := hphase
  rw [mapClean, hbridge, Bool.false_or, hcall] at hclean
  dsimp only at hclean
  rw [htask, Option.all_some, Bool.or_eq_true, Bool.not_eq_true'] at hclean
  exact hclean

/-- What clean steps keep. -/
structure Ordered (cfg : FetchConfig Response) (s : FetchState) : Prop where
  sound : Sound s
  owned : Owned s
  bridged : cfg.enableBackgroundBridge = true → Bridged s
  bounded : s.inflight.length ≤ cfg.maxInflight

theorem Moved.ordered (h : Moved cfg s event s') (hclean : mapClean cfg s event = true) (hordered : Ordered cfg s) :
    Ordered cfg s' := by
  obtain ⟨hsound, howned, hbridged, hbounded⟩ := hordered
  refine ⟨h.sound hsound, ?_, fun hbridge => h.bridged hbridge hsound (hbridged hbridge), ?_⟩
  · rcases hbridge : cfg.enableBackgroundBridge with _ | _
    · refine h.owned hsound howned ?_ ?_
      · rintro c call rfl hcall hphase habsent hroom
        exact clean_insert hclean hbridge hcall hphase habsent hroom
      · rintro c call t outcome task rfl hcall hphase htask
        exact clean_abort hclean hbridge hcall hphase htask
    · have hb := hbridged hbridge
      refine h.owned hsound howned ?_ ?_
      · intro c call _ _ _ habsent _
        exact hb.not_mayRemove habsent
      · intro c call t outcome task _ hcall hphase _
        exact absurd hphase (hb.calls call (List.mem_of_getElem? hcall) t outcome).1
  · rcases h.inflight with hsub | ⟨url, -, hroom, hinflight, -⟩
    · exact hsub.length_le.trans hbounded
    · rw [hinflight, List.length_cons]
      exact hroom

theorem ordered_init (cfg : FetchConfig Response) (memoryCache : Option MemoryCache) :
    Ordered cfg (.init memoryCache) := by
  refine ⟨sound_init memoryCache, ⟨?_, ?_, ?_, ?_⟩, fun _ => ⟨?_, rfl, ?_, ?_⟩, Nat.zero_le _⟩
  · intro t task htask
    cases htask
  · intro t task htask
    cases htask
  · intro call hcall
    cases hcall
  · intro url t hmem
    cases hmem
  · intro call hcall
    cases hcall
  · intro task htask
    cases htask
  · intro t task htask
    cases htask

/-- The map and the downloads that run. -/
structure InflightExact (cfg : FetchConfig Response) (s : FetchState) : Prop where
  live : ∀ (t : ℕ) (task : FetchTask), s.tasks[t]? = some task → task.isLive = true →
    s.inflight.lookup task.url = some t
  /-- A task that removes its URL removes no other task. -/
  own : ∀ (t : ℕ) (task : FetchTask) (result : Published), s.tasks[t]? = some task → task.polling = true →
    task.phase = .removing result → ∀ t', s.inflight.lookup task.url = some t' → t' = t
  single : ∀ (t t' : ℕ) (task task' : FetchTask), s.tasks[t]? = some task → s.tasks[t']? = some task' →
    task.isLive = true → task'.isLive = true → task.url = task'.url → t = t'
  bounded : s.tasks.countP (·.isLive) ≤ cfg.maxInflight

/-- Each download that runs has an entry of its own. -/
theorem countP_isLive_le (h : Owned s) : s.tasks.countP (·.isLive) ≤ s.inflight.length := by
  have hcount : s.tasks.countP (·.isLive) = ((s.tasks.zipIdx.filter (·.1.isLive)).map Prod.snd).length := by
    rw [List.length_map, ← List.countP_eq_length_filter]
    have hmap : (s.tasks.zipIdx.map Prod.fst).countP (·.isLive) = s.tasks.zipIdx.countP (·.1.isLive) :=
      List.countP_map
    rwa [List.zipIdx_map_fst] at hmap
  have hnodup : ((s.tasks.zipIdx.filter (·.1.isLive)).map Prod.snd).Nodup := by
    refine List.Nodup.sublist (List.filter_sublist.map _) ?_
    rw [List.zipIdx_map_snd]
    exact List.nodup_range'
  have hsub : (s.tasks.zipIdx.filter (·.1.isLive)).map Prod.snd ⊆ s.inflight.map Prod.snd := by
    intro t ht
    obtain ⟨⟨task, t'⟩, hmem, rfl⟩ := List.mem_map.mp ht
    obtain ⟨hzip, hlive⟩ := List.mem_filter.mp hmem
    exact List.mem_map_of_mem (h.live t' task (List.mem_zipIdx_iff_getElem?.mp hzip) hlive)
  rw [hcount]
  have hle := (List.subperm_of_subset hnodup hsub).length_le
  rwa [@List.length_map _ _ s.inflight Prod.snd] at hle

/-- **The map and the downloads agree** in every state that clean steps reach: a download that runs is the one
under its URL, there is one for a URL and no more than allowed, and none removes another. -/
theorem inflight_exact {memoryCache : Option MemoryCache}
    (hreach : Reach (FetchState.step cfg) (fun s event => mapClean cfg s event = true) (.init memoryCache) s) :
    InflightExact cfg s := by
  have hordered : Ordered cfg s := by
    induction hreach with
    | refl => exact ordered_init cfg memoryCache
    | tail _ hclean hnext ih => exact (step_moved hnext).ordered hclean ih
  obtain ⟨hsound, howned, -, hbounded⟩ := hordered
  have hlookup : ∀ (t : ℕ) (task : FetchTask), s.tasks[t]? = some task → task.isLive = true →
      s.inflight.lookup task.url = some t := fun t task htask hlive =>
    (Assoc.lookup_eq_some_iff_mem hsound.distinct).mpr (howned.live t task htask hlive)
  refine ⟨hlookup, ?_, ?_, (countP_isLive_le howned).trans hbounded⟩
  · intro t task result htask hpolling hphase t' hfound
    have hmay : task.mayRemove = true := by
      rw [FetchTask.mayRemove, FetchTask.beforeRemoval, hphase, hpolling]
      rfl
    exact howned.mayRemove t task htask hmay t' (mem_of_lookup hfound)
  · intro t t' task task' htask htask' hlive hlive' hurl
    have hfound := hlookup t task htask hlive
    rw [hurl, hlookup t' task' htask' hlive'] at hfound
    exact (Option.some.inj hfound).symm

end

/-- A cancelled call aborts its download, and another one begins its own. -/
def abortedRun : List (FetchEvent Published) :=
  [.fetch "u", .fetch "u"] ++ List.replicate 8 (.advance 0) ++ [.cancel 0, .advance 0, .advance 0, .tryLock 0 true] ++
    List.replicate 8 (.advance 1)

theorem inflight_exact_example : ∃ s,
    Transition.runMeeting (FetchState.step (plainConfig false 1))
      (fun s event => mapClean (plainConfig false 1) s event = true) (.init none) abortedRun = some s ∧
      s.inflight = [("u", 1)] ∧ s.tasks.map (·.isLive) = [false, true] ∧ InflightExact (plainConfig false 1) s := by
  have hstates : (Transition.runMeeting (FetchState.step (plainConfig false 1))
      (fun s event => mapClean (plainConfig false 1) s event = true) (.init none) abortedRun).map
        (fun s => (s.inflight, s.tasks.map (·.isLive))) = some ([("u", 1)], [false, true]) := by
    decide +kernel
  obtain ⟨s, hrun, hstate⟩ := Option.map_eq_some_iff.mp hstates
  obtain ⟨hinflight, hlive⟩ := Prod.mk.inj hstate
  exact ⟨s, hrun, hinflight, hlive, inflight_exact (Transition.runMeeting_reach hrun)⟩

/-- The second call is cancelled before the first one has stored the abort handle. -/
def earlyRun : List (FetchEvent Published) :=
  [.fetch "u", .fetch "u"] ++ List.replicate 4 (.advance 0) ++ List.replicate 6 (.advance 1) ++
    [.cancel 1, .advance 1, .advance 1, .tryLock 1 true]

/-- The download runs on, and the map does not have it. -/
theorem earlyLeaver_detaches : ¬ ∀ s,
    Reach (FetchState.step (plainConfig false 1)) Transition.Any (.init none) s →
      InflightExact (plainConfig false 1) s := by
  intro h
  have hstates : (Transition.run (FetchState.step (plainConfig false 1)) (.init none) earlyRun).map
      (fun s => (s.inflight, s.tasks.map (·.isLive))) = some ([], [true]) := by
    decide +kernel
  obtain ⟨s, hrun, hstate⟩ := Option.map_eq_some_iff.mp hstates
  obtain ⟨hinflight, htasks⟩ := Prod.mk.inj hstate
  have htask : s.tasks[0]?.map (·.isLive) = some true := by
    rw [← List.getElem?_map, htasks]
    rfl
  obtain ⟨task, htask, hlive⟩ := Option.map_eq_some_iff.mp htask
  have hfound := (h s (Transition.run_reach hrun)).live 0 task htask hlive
  rw [hinflight] at hfound
  cases hfound

end GeminiWorker
