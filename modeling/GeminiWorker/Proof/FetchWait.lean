import GeminiWorker.Proof.FetchService

/-!
# Waiting for a download

* `TaskSound`: what the spawned part has published where it stands.
* `CallPhase.Knows`: what a waiter knows of its task where it stands.
* `reach_sound`: both hold in every state.
* `waiters_agree`: calls that waited return what the task published, and no wakeup is lost.
-/

namespace GeminiWorker

open Transition (Reach)
open FetchState (setPhase setTask setMemory removeTask)

/-- What has been published where the spawned part stands. -/
def TaskPhase.Records (result : Option Published) : TaskPhase → Prop
  | .downloading | .publishing _ => result = none
  | .notifying published | .removing published => result = some published
  | .storingMemory hit | .storingDisk hit => result = some (.ok hit)
  | .finished => result.isSome

structure TaskSound (task : FetchTask) : Prop where
  records : task.phase.Records task.result
  told : 0 < task.notifyCalls → task.result.isSome

/-- A call that is not cut off says what the task published. -/
def Answers (task : FetchTask) (outcome : FetchOutcome) : Prop :=
  outcome = .cancelled ∨ outcome = .returned (.error .waitTimeout) ∨
    ∃ published, task.result = some published ∧ outcome = .returned (publishedResult published)

/-- What a call knows of the task that it holds. -/
def CallPhase.Knows (task : FetchTask) : CallPhase → Prop
  | .checking _ seen => seen ≤ task.notifyCalls
  | .waiting _ seen => seen = 0
  | .woken _ => 0 < task.notifyCalls
  | .leaving _ outcome | .aborting _ outcome | .removing _ outcome | .ended _ outcome => Answers task outcome
  | _ => True

theorem Answers.later {task task' : FetchTask} {outcome : FetchOutcome} (h : Answers task outcome)
    (hlater : task.Later task') : Answers task' outcome := by
  rcases h with hcut | hcut | ⟨published, hresult, hrecords⟩
  · exact .inl hcut
  · exact .inr (.inl hcut)
  · exact .inr (.inr ⟨published, hlater.result published hresult, hrecords⟩)

theorem CallPhase.Knows.later {task task' : FetchTask} {phase : CallPhase} (h : phase.Knows task)
    (hlater : task.Later task') : phase.Knows task' := by
  cases phase with
  | checking t seen => exact le_trans h hlater.notifyCalls
  | woken t => exact lt_of_lt_of_le h hlater.notifyCalls
  | waiting t seen => exact h
  | leaving | aborting | removing | ended => exact Answers.later h hlater
  | _ => trivial

/-- There is a task with this number, for this URL. -/
def FetchState.Has (s : FetchState) (url : String) (t : ℕ) : Prop := ∃ task, s.tasks[t]? = some task ∧ task.url = url

structure Sound (s : FetchState) : Prop where
  tasks : ∀ (t : ℕ) (task : FetchTask), s.tasks[t]? = some task → TaskSound task
  calls : ∀ call ∈ s.calls, ∀ t, call.phase.task = some t →
    ∃ task, s.tasks[t]? = some task ∧ task.url = call.url ∧ call.phase.Knows task
  entries : ∀ url t, (url, t) ∈ s.inflight → s.Has url t
  helpers : ∀ url t, (url, t) ∈ s.helpers → s.Has url t
  distinct : (s.inflight.map Prod.fst).Nodup

theorem mem_of_lookup {inflight : List (String × ℕ)} {url : String} {t : ℕ} (h : inflight.lookup url = some t) :
    (url, t) ∈ inflight := by
  obtain ⟨before, after, rfl, -⟩ := List.lookup_eq_some_iff.mp h
  exact List.mem_append_right _ (List.mem_cons_self ..)

section

variable {Response : Type} {cfg : FetchConfig Response} {s s' : FetchState} {event : FetchEvent Response}

theorem SpawnedStep.sound {t : ℕ} {task next : FetchTask} (h : SpawnedStep cfg t task event next) (hsound : TaskSound task) :
    TaskSound next := by
  obtain ⟨hrecords, htold⟩ := hsound
  cases h with
  | poll | suspend => exact ⟨hrecords, htold⟩
  | response response hpolling hphase =>
    rw [hphase] at hrecords
    exact ⟨hrecords, htold⟩
  | publish hpolling hphase => exact ⟨rfl, fun _ => rfl⟩
  | notify hpolling hphase =>
    rw [hphase] at hrecords
    have hresult : task.result = some _ := hrecords
    exact ⟨hrecords, fun _ => by rw [hresult]; rfl⟩
  | stored hpolling hphase =>
    rw [hphase] at hrecords
    have hresult : task.result = some _ := hrecords
    exact ⟨by rw [TaskPhase.Records, hresult]; rfl, htold⟩

/-- What a call has learnt by its step. -/
theorem PhaseStep.knows {c : ℕ} {url : String} {phase next : CallPhase} (h : PhaseStep cfg s c url event phase next)
    (hsound : Sound s) (hphase : ∀ t, phase.task = some t →
      ∃ task, s.tasks[t]? = some task ∧ task.url = url ∧ phase.Knows task)
    {t : ℕ} (ht : next.task = some t) : ∃ task, s.tasks[t]? = some task ∧ task.url = url ∧ next.Knows task := by
  cases h with
  | memoryMiss | noDisk | diskFailed | diskFound | diskMiss | absent | full | fetched | failed | stored => cases ht
  | notified htask =>
    obtain rfl := Option.some.inj ht
    obtain ⟨task, htask', hurl, -⟩ := hphase _ rfl
    obtain rfl := Option.some.inj (htask.symm.trans htask')
    exact ⟨_, htask, hurl, le_rfl⟩
  | published htask hresult hbefore =>
    obtain rfl := Option.some.inj ht
    obtain ⟨task, htask', hurl, -⟩ := hphase _ (by rcases hbefore with ⟨seen, rfl⟩ | rfl | rfl <;> rfl)
    obtain rfl := Option.some.inj (htask.symm.trans htask')
    exact ⟨_, htask, hurl, .inr (.inr ⟨_, hresult, rfl⟩)⟩
  | @unpublished t seen task htask hresult =>
    obtain rfl := Option.some.inj ht
    obtain ⟨task', htask', hurl, hknows⟩ := hphase _ rfl
    obtain rfl := Option.some.inj (htask.symm.trans htask')
    refine ⟨_, htask, hurl, ?_⟩
    -- nothing is published, so nobody was notified before the call looked
    have hseen : seen ≤ task.notifyCalls := hknows
    have hnot : ¬ 0 < task.notifyCalls := by
      intro htold
      have hsome := (hsound.tasks _ _ htask).told htold
      rw [hresult] at hsome
      cases hsome
    show seen = 0
    omega
  | gaveUp htask hresult =>
    obtain rfl := Option.some.inj ht
    obtain ⟨task, htask', hurl, -⟩ := hphase _ rfl
    obtain rfl := Option.some.inj (htask.symm.trans htask')
    exact ⟨_, htask, hurl, .inr (.inl rfl)⟩
  | withoutResult htask hresult =>
    obtain rfl := Option.some.inj ht
    obtain ⟨task, htask', hurl, hknows⟩ := hphase _ rfl
    obtain rfl := Option.some.inj (htask.symm.trans htask')
    -- whoever is woken was notified, after the result was published
    have hsome := (hsound.tasks _ _ htask).told hknows
    rw [hresult] at hsome
    cases hsome
  | wake htask hseen =>
    obtain rfl := Option.some.inj ht
    obtain ⟨task, htask', hurl, -⟩ := hphase _ rfl
    obtain rfl := Option.some.inj (htask.symm.trans htask')
    exact ⟨_, htask, hurl, Nat.zero_lt_of_lt hseen⟩
  | waitTimeout =>
    obtain rfl := Option.some.inj ht
    obtain ⟨task, htask, hurl, -⟩ := hphase _ rfl
    exact ⟨task, htask, hurl, trivial⟩
  | cancel hcancel =>
    cases phase with
    | memory | disk | diskHit | lookup | insert | direct | storingMemory | storingDisk =>
      obtain rfl := Option.some.inj hcancel
      cases ht
    | checking | waiting | timedOut | woken =>
      obtain rfl := Option.some.inj hcancel
      obtain rfl := Option.some.inj ht
      obtain ⟨task, htask, hurl, -⟩ := hphase _ rfl
      exact ⟨task, htask, hurl, .inl rfl⟩
    | spawned | joined | registered | leaving | aborting | removing | ended => cases hcancel

theorem sound_setTask (h : ∀ (t : ℕ) (task : FetchTask), s.tasks[t]? = some task → TaskSound task) {t : ℕ} {next : FetchTask} (hnext : TaskSound next) :
    ∀ (t' : ℕ) (task' : FetchTask), (s.setTask t next).tasks[t']? = some task' → TaskSound task' := by
  intro t' task' htask'
  rcases tasks_setTask htask' with ⟨-, rfl⟩ | ⟨-, hold⟩
  · exact hnext
  · exact h t' task' hold

/-- Every step keeps the tasks sound. -/
theorem Moved.tasks_sound (h : Moved cfg s event s') (hsound : Sound s) :
    ∀ (t : ℕ) (task : FetchTask), s'.tasks[t]? = some task → TaskSound task := by
  cases h with
  | fetch | phase | memoryHit | keepDiskHit | storeMemory | join | contended => exact hsound.tasks
  | locked | helper =>
    intro t task htask
    have hold : (s.removeTask _ _).tasks[t]? = some task := htask
    rw [removeTask_tasks] at hold
    exact hsound.tasks t task hold
  | insert =>
    intro t task htask
    rcases tasks_append htask with hold | ⟨-, rfl⟩
    · exact hsound.tasks t task hold
    · exact ⟨rfl, fun htold => absurd htold (Nat.lt_irrefl 0)⟩
  | storeHandle hcall hphase htask
  | register hcall hphase htask
  | leave hcall hphase htask
  | leaveLast hcall hphase htask
  | abort hcall hphase htask =>
    have htaskSound := hsound.tasks _ _ htask
    exact sound_setTask hsound.tasks ⟨htaskSound.records, htaskSound.told⟩
  | task htask hstep => exact sound_setTask hsound.tasks (hstep.sound (hsound.tasks _ _ htask))
  | @remove t task result htask hpolling hphase =>
    obtain ⟨hrecords, htold⟩ := hsound.tasks _ _ htask
    rw [hphase] at hrecords
    have hresult : task.result = some result := hrecords
    refine sound_setTask hsound.tasks ⟨?_, htold⟩
    rcases result with text | hit
    · show task.result.isSome = true
      rw [hresult]
      rfl
    · exact hresult
  | storeTaskMemory htask hpolling hphase =>
    obtain ⟨hrecords, htold⟩ := hsound.tasks _ _ htask
    rw [hphase] at hrecords
    exact @sound_setTask (s.setMemory _ _) hsound.tasks _ _ ⟨hrecords, htold⟩

theorem Sound.later (hsound : Sound s) (h : Moved cfg s event s') {t : ℕ} {task : FetchTask}
    (htask : s.tasks[t]? = some task) : ∃ task', s'.tasks[t]? = some task' ∧ task.Later task' :=
  h.later (fun t task published htask hphase => by
    have hrecords := (hsound.tasks t task htask).records
    rwa [hphase] at hrecords) htask

theorem Sound.has_later (hsound : Sound s) (h : Moved cfg s event s') {url : String} {t : ℕ} (hhas : s.Has url t) :
    s'.Has url t := by
  obtain ⟨task, htask, hurl⟩ := hhas
  obtain ⟨task', htask', hlater⟩ := hsound.later h htask
  exact ⟨task', htask', hlater.url.trans hurl⟩

/-- What a call knows when a step has moved it on. -/
theorem sound_setPhase (hsound : Sound s) (h : Moved cfg s event s') {c : ℕ} {old : Call} {next : CallPhase}
    (hcalls : s'.calls = s.calls.set c { old with phase := next })
    (hnext : ∀ t, next.task = some t → ∃ task, s'.tasks[t]? = some task ∧ task.url = old.url ∧ next.Knows task) :
    ∀ call ∈ s'.calls, ∀ t, call.phase.task = some t →
      ∃ task, s'.tasks[t]? = some task ∧ task.url = call.url ∧ call.phase.Knows task := by
  intro call hcall
  rw [hcalls] at hcall
  rcases List.mem_or_eq_of_mem_set hcall with hcall | rfl
  · intro t ht
    obtain ⟨task, htask, hurl, hknows⟩ := hsound.calls call hcall t ht
    obtain ⟨task', htask', hlater⟩ := hsound.later h htask
    exact ⟨task', htask', hlater.url.trans hurl, hknows.later hlater⟩
  · exact hnext

/-- A call that keeps its task, and what it knows of it. -/
theorem sound_keep (hsound : Sound s) (h : Moved cfg s event s') {c : ℕ} {call : Call} (hcall : s.calls[c]? = some call)
    {t : ℕ} (ht : call.phase.task = some t) :
    ∃ task, s'.tasks[t]? = some task ∧ task.url = call.url ∧ call.phase.Knows task := by
  obtain ⟨task, htask, hurl, hknows⟩ := hsound.calls call (List.mem_of_getElem? hcall) t ht
  obtain ⟨task', htask', hlater⟩ := hsound.later h htask
  exact ⟨task', htask', hlater.url.trans hurl, hknows.later hlater⟩

/-- A call that goes on with its task, and knows no more of it than before. -/
theorem sound_next (hsound : Sound s) (h : Moved cfg s event s') {c : ℕ} {old : Call} {next : CallPhase}
    (hcall : s.calls[c]? = some old) (hcalls : s'.calls = s.calls.set c { old with phase := next })
    (htask : next.task = old.phase.task) (hknows : ∀ task, old.phase.Knows task → next.Knows task) :
    ∀ call ∈ s'.calls, ∀ t, call.phase.task = some t →
      ∃ task, s'.tasks[t]? = some task ∧ task.url = call.url ∧ call.phase.Knows task := by
  refine sound_setPhase hsound h hcalls fun t ht => ?_
  obtain ⟨task, hget, hurl, hold⟩ := sound_keep hsound h hcall (htask.symm.trans ht)
  exact ⟨task, hget, hurl, hknows task hold⟩

theorem Moved.calls_sound (h : Moved cfg s event s') (hsound : Sound s) : ∀ call ∈ s'.calls, ∀ t,
    call.phase.task = some t → ∃ task, s'.tasks[t]? = some task ∧ task.url = call.url ∧ call.phase.Knows task := by
  have hmoved := h
  have hnone : ∀ call ∈ s.calls, ∀ t, call.phase.task = some t →
      ∃ task, s'.tasks[t]? = some task ∧ task.url = call.url ∧ call.phase.Knows task := by
    intro call hcall t ht
    obtain ⟨c, hc⟩ := List.getElem?_of_mem hcall
    exact sound_keep hsound hmoved hc ht
  cases h with
  | fetch url =>
    intro call hcall
    rcases List.mem_append.mp hcall with hcall | hcall
    · exact hnone call hcall
    · obtain rfl := List.mem_singleton.mp hcall
      intro t ht
      cases ht
  | phase hcall hstep =>
    exact sound_setPhase hsound hmoved rfl fun t ht =>
      hstep.knows hsound (hsound.calls _ (List.mem_of_getElem? hcall)) ht
  | memoryHit | keepDiskHit | storeMemory => exact sound_setPhase hsound hmoved rfl fun t ht => by cases ht
  | join hcall hphase hfound =>
    refine sound_setPhase hsound hmoved rfl fun t ht => ?_
    obtain rfl := Option.some.inj ht
    obtain ⟨task, htask, hurl⟩ := hsound.entries _ _ (mem_of_lookup hfound)
    exact ⟨task, htask, hurl, trivial⟩
  | @insert c call hcall hphase habsent hroom =>
    refine sound_setPhase hsound hmoved rfl fun t ht => ?_
    obtain rfl := Option.some.inj ht
    exact ⟨FetchTask.new call.url, List.getElem?_concat_length .., rfl, trivial⟩
  | @storeHandle c call t task hcall hphase htask | @register c call t task hcall hphase htask =>
    exact sound_next hsound hmoved hcall rfl (by rw [hphase]; rfl) fun _ _ => trivial
  | leave hcall hphase htask hstays
  | leaveLast hcall hphase htask hlast hbridge
  | abort hcall hphase htask
  | contended hcall hphase =>
    exact sound_next hsound hmoved hcall rfl (by rw [hphase]; rfl) fun _ hknows => by rwa [hphase] at hknows
  | @locked c call t outcome hcall hphase =>
    have hcalls : ((s.removeTask call.url t).setPhase c call (.ended (some t) outcome)).calls =
        s.calls.set c { call with phase := .ended (some t) outcome } := by
      show (s.removeTask call.url t).calls.set c _ = _
      rw [removeTask_calls]
    exact sound_next hsound hmoved hcall hcalls (by rw [hphase]; rfl) fun _ hknows => by rwa [hphase] at hknows
  | @helper index url t hhelper =>
    intro call hcall
    have hold : call ∈ (s.removeTask url t).calls := hcall
    rw [removeTask_calls] at hold
    exact hnone call hold
  | task | remove | storeTaskMemory => exact hnone

theorem removeTask_sublist (url : String) (t : ℕ) : (s.removeTask url t).inflight.Sublist s.inflight := by
  unfold FetchState.removeTask
  split
  · exact List.filter_sublist
  · exact List.Sublist.refl _

theorem removeTask_helpers (url : String) (t : ℕ) : (s.removeTask url t).helpers = s.helpers := by
  unfold FetchState.removeTask
  split <;> rfl

/-- The map changes by removals, but for an insertion. -/
theorem Moved.inflight (h : Moved cfg s event s') :
    s'.inflight.Sublist s.inflight ∨
      ∃ url, s.inflight.lookup url = none ∧ s.inflight.length < cfg.maxInflight ∧
        s'.inflight = (url, s.tasks.length) :: s.inflight ∧ s'.tasks = s.tasks ++ [FetchTask.new url] := by
  cases h with
  | insert hcall hphase habsent hroom => exact .inr ⟨_, habsent, hroom, rfl, rfl⟩
  | locked => exact .inl (removeTask_sublist _ _)
  | helper => exact .inl (removeTask_sublist _ _)
  | remove => exact .inl List.filter_sublist
  | fetch | phase | memoryHit | keepDiskHit | storeMemory | join | storeHandle | register | leave | leaveLast | abort
  | contended | task | storeTaskMemory => exact .inl (List.Sublist.refl _)

theorem Moved.helpers_sound (h : Moved cfg s event s') (hsound : Sound s) :
    ∀ url t, (url, t) ∈ s'.helpers → s'.Has url t := by
  have hmoved := h
  have hkeep : ∀ url t, (url, t) ∈ s.helpers → s'.Has url t := fun url t hmem =>
    hsound.has_later hmoved (hsound.helpers url t hmem)
  cases h with
  | contended hcall hphase =>
    intro url t hmem
    rcases List.mem_append.mp hmem with hmem | hmem
    · exact hkeep url t hmem
    · obtain ⟨rfl, rfl⟩ := Prod.mk.inj (List.mem_singleton.mp hmem)
      obtain ⟨task, htask, hurl, -⟩ := hsound.calls _ (List.mem_of_getElem? hcall) _ (by rw [hphase]; rfl)
      exact hsound.has_later hmoved ⟨task, htask, hurl⟩
  | @locked c call t' outcome =>
    intro url t hmem
    have hold : (url, t) ∈ (s.removeTask call.url t').helpers := hmem
    rw [removeTask_helpers] at hold
    exact hkeep url t hold
  | helper =>
    intro url t hmem
    exact hkeep url t (List.mem_of_mem_eraseIdx hmem)
  | fetch | phase | memoryHit | keepDiskHit | storeMemory | join | insert | storeHandle | register | leave | leaveLast
  | abort | task | remove | storeTaskMemory => exact hkeep

/-- **Every step keeps what calls and tasks know.** -/
theorem Moved.sound (h : Moved cfg s event s') (hsound : Sound s) : Sound s' := by
  refine ⟨h.tasks_sound hsound, h.calls_sound hsound, ?_, h.helpers_sound hsound, ?_⟩
  · intro url t hmem
    rcases h.inflight with hsub | ⟨url', -, -, hinflight, htasks⟩
    · exact hsound.has_later h (hsound.entries url t (hsub.subset hmem))
    · rw [hinflight] at hmem
      rcases List.mem_cons.mp hmem with hnew | hold
      · obtain ⟨rfl, rfl⟩ := Prod.mk.inj hnew
        refine ⟨FetchTask.new url, ?_, rfl⟩
        rw [htasks]
        exact List.getElem?_concat_length ..
      · exact hsound.has_later h (hsound.entries url t hold)
  · rcases h.inflight with hsub | ⟨url, habsent, -, hinflight, -⟩
    · exact hsound.distinct.sublist (hsub.map _)
    · rw [hinflight]
      exact List.nodup_cons.mpr ⟨Assoc.lookup_eq_none_iff.mp habsent, hsound.distinct⟩

theorem sound_init (memoryCache : Option MemoryCache) : Sound (FetchState.init memoryCache) := by
  refine ⟨?_, ?_, ?_, ?_, List.nodup_nil⟩
  · intro t task htask
    cases htask
  · intro call hcall
    cases hcall
  · intro url t hmem
    cases hmem
  · intro url t hmem
    cases hmem

variable {meets : FetchState → FetchEvent Response → Prop} {memoryCache : Option MemoryCache}

theorem reach_sound (h : Reach (FetchState.step cfg) meets (.init memoryCache) s) : Sound s :=
  h.invariant (sound_init memoryCache) fun _ _ _ hsound _ hnext => (step_moved hnext).sound hsound

/-- What is published stays published. -/
theorem reach_later (hsound : Sound s) (h : Reach (FetchState.step cfg) meets s s') {t : ℕ} {task : FetchTask}
    (htask : s.tasks[t]? = some task) : ∃ task', s'.tasks[t]? = some task' ∧ task.Later task' := by
  have hboth : Sound s' ∧ ∃ task', s'.tasks[t]? = some task' ∧ task.Later task' := by
    induction h with
    | refl => exact ⟨hsound, task, htask, .refl task⟩
    | tail _ _ hnext ih =>
      obtain ⟨husound, task', htask', hlater⟩ := ih
      obtain ⟨task'', htask'', hlater'⟩ := husound.later (step_moved hnext) htask'
      exact ⟨(step_moved hnext).sound husound, task'', htask'', hlater.trans hlater'⟩
  exact hboth.2

theorem publishedResult_ne (published : Published) :
    publishedResult published ≠ .error .waitTimeout ∧ publishedResult published ≠ .error .withoutResult := by
  rcases published with text | hit
  · exact ⟨fun h => (by cases h), fun h => (by cases h)⟩
  · exact ⟨fun h => (by cases h), fun h => (by cases h)⟩

/-- A call that neither was cancelled nor gave up waiting. -/
def FetchOutcome.Uncut (outcome : FetchOutcome) : Prop :=
  outcome ≠ .cancelled ∧ outcome ≠ .returned (.error .waitTimeout)

theorem Answers.of_uncut {task : FetchTask} {outcome : FetchOutcome} (h : Answers task outcome) (huncut : outcome.Uncut) :
    ∃ published, task.result = some published ∧ outcome = .returned (publishedResult published) := by
  rcases h with hcut | hcut | hpublished
  · exact absurd hcut huncut.1
  · exact absurd hcut huncut.2
  · exact hpublished

/-- **Calls that waited return what the task published**, and so they agree; what is published stays; a call
that is woken finds it; and a call that waits is woken once the task has notified. -/
theorem waiters_agree (hreach : Reach (FetchState.step cfg) meets (.init memoryCache) s) :
    (∀ call ∈ s.calls, ∀ t outcome, call.phase = .ended (some t) outcome → outcome.Uncut →
      ∃ task published, s.tasks[t]? = some task ∧ task.result = some published ∧
        outcome = .returned (publishedResult published)) ∧
    (∀ call ∈ s.calls, ∀ call' ∈ s.calls, ∀ t outcome outcome', call.phase = .ended (some t) outcome →
      call'.phase = .ended (some t) outcome' → outcome.Uncut → outcome'.Uncut → outcome = outcome') ∧
    (∀ s', Reach (FetchState.step cfg) meets s s' → ∀ (t : ℕ) (task : FetchTask) (published : Published),
      s.tasks[t]? = some task → task.result = some published →
        ∃ task', s'.tasks[t]? = some task' ∧ task'.result = some published) ∧
    (∀ call ∈ s.calls, ∀ t, call.phase = .woken t →
      ∃ task published, s.tasks[t]? = some task ∧ task.result = some published) ∧
    (∀ call ∈ s.calls, ∀ t outcome, call.phase = .ended (some t) outcome →
      outcome ≠ .returned (.error .withoutResult)) ∧
    ∀ (c : ℕ) (call : Call) (t seen : ℕ) (task : FetchTask), s.calls[c]? = some call → call.phase = .waiting t seen →
      s.tasks[t]? = some task → 0 < task.notifyCalls → ∃ s', s.step cfg (.advance c) = some s' := by
  have hsound := reach_sound hreach
  have hanswers : ∀ call ∈ s.calls, ∀ t outcome, call.phase = .ended (some t) outcome →
      ∃ task, s.tasks[t]? = some task ∧ Answers task outcome := by
    intro call hcall t outcome hphase
    obtain ⟨task, htask, -, hknows⟩ := hsound.calls call hcall t (by rw [hphase]; rfl)
    rw [hphase] at hknows
    exact ⟨task, htask, hknows⟩
  refine ⟨?_, ?_, ?_, ?_, ?_, ?_⟩
  · intro call hcall t outcome hphase huncut
    obtain ⟨task, htask, hanswer⟩ := hanswers call hcall t outcome hphase
    obtain ⟨published, hresult, hpublished⟩ := hanswer.of_uncut huncut
    exact ⟨task, published, htask, hresult, hpublished⟩
  · intro call hcall call' hcall' t outcome outcome' hphase hphase' huncut huncut'
    obtain ⟨task, htask, hanswer⟩ := hanswers call hcall t outcome hphase
    obtain ⟨task', htask', hanswer'⟩ := hanswers call' hcall' t outcome' hphase'
    obtain rfl := Option.some.inj (htask.symm.trans htask')
    obtain ⟨published, hresult, hpublished⟩ := hanswer.of_uncut huncut
    obtain ⟨published', hresult', hpublished'⟩ := hanswer'.of_uncut huncut'
    obtain rfl := Option.some.inj (hresult.symm.trans hresult')
    rw [hpublished, hpublished']
  · intro s' hlater t task published htask hresult
    obtain ⟨task', htask', hstays⟩ := reach_later hsound hlater htask
    exact ⟨task', htask', hstays.result published hresult⟩
  · intro call hcall t hphase
    obtain ⟨task, htask, -, hknows⟩ := hsound.calls call hcall t (by rw [hphase]; rfl)
    rw [hphase] at hknows
    obtain ⟨published, hresult⟩ := Option.isSome_iff_exists.mp ((hsound.tasks t task htask).told hknows)
    exact ⟨task, published, htask, hresult⟩
  · intro call hcall t outcome hphase hwithout
    obtain ⟨task, -, hanswer⟩ := hanswers call hcall t outcome hphase
    obtain ⟨published, -, hpublished⟩ := hanswer.of_uncut ⟨by rw [hwithout]; decide, by rw [hwithout]; decide⟩
    rw [hwithout] at hpublished
    exact (publishedResult_ne published).2 (FetchOutcome.returned.inj hpublished).symm
  · intro c call t seen task hcall hphase htask htold
    obtain ⟨_, _, _, hknows⟩ := hsound.calls call (List.mem_of_getElem? hcall) t (by rw [hphase]; rfl)
    rw [hphase] at hknows
    have hseen : seen = 0 := hknows
    have hstep : s.step cfg (.advance c) = advanceCall cfg s c call := by
      show s.calls[c]?.bind _ = _
      rw [hcall]
      rfl
    have hadvance : advanceCall cfg s c call = s.tasks[t]?.bind fun task =>
        if seen < task.notifyCalls then some (s.setPhase c call (.woken t)) else none := by
      unfold advanceCall
      rw [hphase]
    refine ⟨s.setPhase c call (.woken t), ?_⟩
    rw [hstep, hadvance, htask, Option.bind_some, if_pos (by omega)]

end

/-- A service without caches, for a response that is its result. -/
def plainConfig (enableBackgroundBridge : Bool) (maxInflight : ℕ) : FetchConfig Published :=
  ⟨enableBackgroundBridge, maxInflight, false, id⟩

/-- Two calls share a download. -/
def sharedRun : List (FetchEvent Published) :=
  [.fetch "u", .fetch "u"] ++ List.replicate 8 (.advance 0) ++ List.replicate 6 (.advance 1) ++
    [.poll 0, .response 0 (.ok ⟨"image/png", [1]⟩), .run 0, .run 0] ++ List.replicate 3 (.advance 0) ++
    List.replicate 4 (.advance 1) ++ [.tryLock 1 true]

theorem waiters_agree_example : ∃ s task published,
    Transition.run (FetchState.step (plainConfig false 1)) (.init none) sharedRun = some s ∧
      s.tasks[0]? = some task ∧ task.result = some published ∧
      FetchOutcome.returned (.ok ⟨"image/png", [1], false⟩) = .returned (publishedResult published) := by
  have hcalls : (Transition.run (FetchState.step (plainConfig false 1)) (.init none) sharedRun).map (·.calls) =
      some (List.replicate 2 ⟨"u", .ended (some 0) (.returned (.ok ⟨"image/png", [1], false⟩))⟩) := by
    decide +kernel
  obtain ⟨s, hrun, hended⟩ := Option.map_eq_some_iff.mp hcalls
  have hmem : (⟨"u", .ended (some 0) (.returned (.ok ⟨"image/png", [1], false⟩))⟩ : Call) ∈ s.calls := by
    rw [hended]
    exact List.mem_cons_self ..
  obtain ⟨task, published, htask, hresult, hpublished⟩ :=
    (waiters_agree (Transition.run_reach hrun)).1 _ hmem 0 _ rfl ⟨by decide, by decide⟩
  exact ⟨s, task, published, hrun, htask, hresult, hpublished⟩

end GeminiWorker
