import GeminiWorker.Proof.RequestPipeline
import GeminiWorker.Spec.FetchTasks

/-!
# The fetch tasks of a request, in any order of their steps

* `FetchTasks.step_moves`: what a step can be.
* `fetchTasks_bounded`: the permits are conserved, so few tasks fetch at once, and no URL is fetched twice.
* `fetchTasks_end`: every run comes to an end, and only where the request returns.
* `fetchTasks_refines`: what it returns is what it returns if the tasks run one after the other.
-/

namespace GeminiWorker

open Json (Value)
open Transition (run)

namespace FetchTasks

variable {fetch : String → Option FetchedImage} {io : String → WriteOutcome} {tasks tasks' : FetchTasks}

/-! ## One step -/

/-- What a step can be. -/
inductive Moves (fetch : String → Option FetchedImage) (io : String → WriteOutcome) (tasks : FetchTasks) :
    TaskEvent → FetchTasks → Prop
  | spawns (url : String) (unspawned : List String) (h : tasks.unspawned = url :: unspawned) :
      Moves fetch io tasks .spawns { tasks with unspawned, tasks := tasks.tasks ++ [⟨url, .waiting⟩] }
  | acquires (task : ℕ) (url : String) (h : tasks.tasks[task]? = some ⟨url, .waiting⟩) (hpermits : tasks.permits ≠ 0) :
      Moves fetch io tasks (.acquires task) { tasks.setPhase task url .fetching with permits := tasks.permits - 1 }
  | fetches (task : ℕ) (url : String) (fetched : FetchedImage) (h : tasks.tasks[task]? = some ⟨url, .fetching⟩)
      (hfetch : fetch url = some fetched) : Moves fetch io tasks (.fetches task) (tasks.setPhase task url (.storing fetched))
  | fetchFails (task : ℕ) (url : String) (h : tasks.tasks[task]? = some ⟨url, .fetching⟩) (hfetch : fetch url = none) :
      Moves fetch io tasks (.fetches task) (tasks.finish task url (.error (.fetch url)))
  | stores (task : ℕ) (url : String) (fetched : FetchedImage) (h : tasks.tasks[task]? = some ⟨url, .storing fetched⟩)
      (result : Except MaterializeError FetchedBlob) (runtime : BlobRuntime)
      (hstore : storeFetched io url fetched tasks.runtime = (result, runtime)) :
      Moves fetch io tasks (.stores task) { tasks.finish task url result with runtime }
  | joins (task : ℕ) (url : String) (fetched : FetchedBlob) (hspawned : tasks.unspawned = []) (hfailed : tasks.failed = none)
      (h : tasks.tasks[task]? = some ⟨url, .finished (.ok fetched)⟩) :
      Moves fetch io tasks (.joins task)
        { tasks.setPhase task url .joined with fetchedByUrl := (url, fetched) :: tasks.fetchedByUrl }
  | fails (task : ℕ) (url : String) (error : MaterializeError) (hspawned : tasks.unspawned = [])
      (hfailed : tasks.failed = none) (h : tasks.tasks[task]? = some ⟨url, .finished (.error error)⟩) :
      Moves fetch io tasks (.joins task) { tasks.setPhase task url .joined with failed := some error }
  | aborts (task : ℕ) (url : String) (error : MaterializeError) (phase : FetchTaskPhase) (hfailed : tasks.failed = some error)
      (h : tasks.tasks[task]? = some ⟨url, phase⟩) (hphase : phase = .waiting ∨ phase.holdsPermit = true) :
      Moves fetch io tasks (.aborts task)
        { tasks.setPhase task url .aborted with permits := tasks.permits + if phase.holdsPermit then 1 else 0 }

theorem step_moves {event : TaskEvent} (h : tasks.step fetch io event = some tasks') : Moves fetch io tasks event tasks' := by
  cases event with
  | spawns =>
    rcases hurls : tasks.unspawned with _ | ⟨url, unspawned⟩
    · simp only [step, hurls, reduceCtorEq] at h
    · simp only [step, hurls, Option.some.injEq] at h
      rw [← h]
      exact .spawns url unspawned hurls
  | acquires task =>
    simp only [step] at h
    split at h
    · rename_i url htask
      by_cases hpermits : tasks.permits = 0
      · rw [if_pos hpermits] at h
        cases h
      · rw [if_neg hpermits] at h
        rw [← Option.some.inj h]
        exact .acquires task url htask hpermits
    · cases h
  | fetches task =>
    simp only [step] at h
    split at h
    · rename_i url htask
      rcases hfetch : fetch url with _ | fetched
      · simp only [hfetch, Option.some.injEq] at h
        rw [← h]
        exact .fetchFails task url htask hfetch
      · simp only [hfetch, Option.some.injEq] at h
        rw [← h]
        exact .fetches task url fetched htask hfetch
    · cases h
  | stores task =>
    simp only [step] at h
    split at h
    · rename_i url fetched htask
      rw [← Option.some.inj h]
      exact .stores task url fetched htask _ _ rfl
    · cases h
  | joins task =>
    simp only [step] at h
    split at h
    · cases h
    · rename_i hready
      rw [not_or, not_not, Option.not_isSome_iff_eq_none] at hready
      split at h
      · rename_i url fetched htask
        rw [← Option.some.inj h]
        exact .joins task url fetched hready.1 hready.2 htask
      · rename_i url error htask
        rw [← Option.some.inj h]
        exact .fails task url error hready.1 hready.2 htask
      · cases h
  | aborts task =>
    rcases hfailed : tasks.failed with _ | error
    · simp only [step, hfailed, Option.isNone_none, if_true, reduceCtorEq] at h
    · simp only [step, hfailed, Option.isNone_some, Bool.false_eq_true, if_false] at h
      split at h
      · rename_i url htask
        rw [← Option.some.inj h]
        exact .aborts task url error .waiting hfailed htask (Or.inl rfl)
      · rename_i url htask
        rw [← Option.some.inj h]
        exact .aborts task url error .fetching hfailed htask (Or.inr rfl)
      · rename_i url fetched htask
        rw [← Option.some.inj h]
        exact .aborts task url error (.storing fetched) hfailed htask (Or.inr rfl)
      · cases h

/-! ## Permits -/

/-- A task that has been through its fetch. -/
def Past (phase : FetchTaskPhase) : Prop := phase ≠ .waiting ∧ phase ≠ .fetching

/-- What holds of the tasks whatever has been done. -/
structure Permitted (urls : List String) (events : List TaskEvent) (tasks : FetchTasks) : Prop where
  permits : tasks.permits + tasks.working = MAX_CONCURRENT_REQUEST_IMAGE_FETCHES
  spawned : tasks.tasks.map RequestImageTask.url ++ tasks.unspawned = urls
  quiet : tasks.failed = none → ∀ task ∈ tasks.tasks, task.phase ≠ .aborted
  fetched : ∀ task, .fetches task ∈ events → ∃ url phase, tasks.tasks[task]? = some ⟨url, phase⟩ ∧ Past phase
  once : (fetchedUrls urls events).Nodup

theorem permitted_init (urls : List String) (runtime : BlobRuntime) : Permitted urls [] (init urls runtime) where
  permits := rfl
  spawned := rfl
  quiet _ _ htask := absurd htask List.not_mem_nil
  fetched _ htask := absurd htask List.not_mem_nil
  once := List.nodup_nil

theorem fetchedUrls_append (urls : List String) (events events' : List TaskEvent) :
    fetchedUrls urls (events ++ events') = fetchedUrls urls events ++ fetchedUrls urls events' := List.filterMap_append ..

theorem mem_fetchedUrls {urls : List String} {events : List TaskEvent} {url : String} :
    url ∈ fetchedUrls urls events ↔ ∃ task, .fetches task ∈ events ∧ urls[task]? = some url := by
  unfold fetchedUrls
  rw [List.mem_filterMap]
  constructor
  · rintro ⟨event, hevent, hurl⟩
    split at hurl
    · rename_i task
      exact ⟨task, hevent, hurl⟩
    · cases hurl
  · rintro ⟨task, htask, hurl⟩
    exact ⟨.fetches task, htask, hurl⟩

variable {urls : List String} {events : List TaskEvent}

/-- The URL of a task is the one it was spawned for. -/
theorem Permitted.url (h : Permitted urls events tasks) {task : ℕ} {url : String} {phase : FetchTaskPhase}
    (htask : tasks.tasks[task]? = some ⟨url, phase⟩) : urls[task]? = some url := by
  rw [← h.spawned, List.getElem?_append_left, List.getElem?_map, htask, Option.map_some]
  rw [List.length_map]
  exact (List.getElem?_eq_some_iff.mp htask).1

/-- The fetch of a task is the first one of its URL. -/
theorem Permitted.notMem_fetchedUrls (h : Permitted urls events tasks) (hurls : urls.Nodup) {task : ℕ} {url : String}
    (htask : tasks.tasks[task]? = some ⟨url, .fetching⟩) : url ∉ fetchedUrls urls events := by
  intro hmem
  obtain ⟨other, hevent, hother⟩ := mem_fetchedUrls.mp hmem
  obtain ⟨url', phase, hphase, hpast⟩ := h.fetched other hevent
  obtain ⟨hlt, hget⟩ := List.getElem?_eq_some_iff.mp hother
  obtain ⟨hlt', hget'⟩ := List.getElem?_eq_some_iff.mp (h.url htask)
  -- URLs are distinct, so it is the same task
  obtain rfl : other = task := hurls.getElem_inj_iff.mp (hget.trans hget'.symm)
  obtain ⟨-, rfl⟩ := RequestImageTask.mk.inj (Option.some.inj (hphase.symm.trans htask))
  exact hpast.2 rfl

/-- A task takes its next phase. -/
theorem Permitted.move (h : Permitted urls events tasks) (hurls : urls.Nodup) {event : TaskEvent} {task : ℕ} {url : String}
    {phase phase' : FetchTaskPhase} (htask : tasks.tasks[task]? = some ⟨url, phase⟩)
    (htasks : tasks'.tasks = tasks.tasks.set task ⟨url, phase'⟩) (hunspawned : tasks'.unspawned = tasks.unspawned)
    (hpermits : (tasks'.permits + if phase'.holdsPermit then 1 else 0) = tasks.permits + if phase.holdsPermit then 1 else 0)
    (hquiet : tasks'.failed = none → tasks.failed = none ∧ phase' ≠ .aborted) (hpast : Past phase → Past phase')
    (hevent : (∀ other, event ≠ .fetches other) ∨ event = .fetches task ∧ phase = .fetching ∧ Past phase') :
    Permitted urls (events ++ [event]) tasks' where
  permits := by
    have hworking := Transition.countP_set (fun task : RequestImageTask => task.phase.holdsPermit) htask ⟨url, phase'⟩
    have hbefore := h.permits
    unfold working at hbefore ⊢
    rw [htasks]
    simp only at hworking
    omega
  spawned := by
    have hself : (tasks.tasks.map RequestImageTask.url).set task url = tasks.tasks.map RequestImageTask.url := by
      have hurl : (tasks.tasks.map RequestImageTask.url)[task]? = some url := by
        rw [List.getElem?_map, htask, Option.map_some]
      obtain ⟨hlt, heq⟩ := List.getElem?_eq_some_iff.mp hurl
      rw [← heq]
      exact List.set_getElem_self hlt
    rw [htasks, hunspawned, List.map_set, hself, h.spawned]
  quiet hfailed other hother := by
    rw [htasks] at hother
    rcases List.mem_or_eq_of_mem_set hother with hother | rfl
    · exact h.quiet (hquiet hfailed).1 other hother
    · exact (hquiet hfailed).2
  fetched other hother := by
    rw [htasks]
    by_cases hsame : other = task
    · subst hsame
      refine ⟨url, phase', List.getElem?_set_self (List.getElem?_eq_some_iff.mp htask).1, ?_⟩
      rcases hevent with hnone | ⟨-, -, hpast'⟩
      · -- it has been through its fetch before
        rcases List.mem_append.mp hother with hbefore | hlast
        · obtain ⟨url', phase'', hphase, hpast'⟩ := h.fetched other hbefore
          obtain ⟨-, rfl⟩ := RequestImageTask.mk.inj (Option.some.inj (hphase.symm.trans htask))
          exact hpast hpast'
        · exact absurd (List.mem_singleton.mp hlast).symm (hnone other)
      · exact hpast'
    · rw [List.getElem?_set_ne (Ne.symm hsame)]
      rcases List.mem_append.mp hother with hbefore | hlast
      · exact h.fetched other hbefore
      · rcases hevent with hnone | ⟨rfl, -, -⟩
        · exact absurd (List.mem_singleton.mp hlast).symm (hnone other)
        · exact absurd (TaskEvent.fetches.inj (List.mem_singleton.mp hlast)) hsame
  once := by
    rw [fetchedUrls_append]
    rcases hevent with hother | ⟨rfl, rfl, -⟩
    · have hnone : fetchedUrls urls [event] = [] := by
        unfold fetchedUrls
        rcases event with _ | _ | other | _ | _ | _
        · rfl
        · rfl
        · exact absurd rfl (hother other)
        · rfl
        · rfl
        · rfl
      rw [hnone, List.append_nil]
      exact h.once
    · have hone : fetchedUrls urls [.fetches task] = [url] := by
        simp only [fetchedUrls, List.filterMap_cons, List.filterMap_nil, h.url htask]
      rw [hone, List.nodup_append]
      refine ⟨h.once, List.nodup_singleton url, fun other hother same hsame => ?_⟩
      rw [List.mem_singleton] at hsame
      rintro rfl
      exact h.notMem_fetchedUrls hurls htask (hsame ▸ hother)

theorem Permitted.step (h : Permitted urls events tasks) (hurls : urls.Nodup) {event : TaskEvent}
    (hstep : tasks.step fetch io event = some tasks') : Permitted urls (events ++ [event]) tasks' := by
  have hmove := @Permitted.move tasks tasks' urls events h hurls
  cases step_moves hstep with
  | spawns url unspawned hspawn =>
    refine ⟨?_, ?_, ?_, ?_, ?_⟩
    · have hbefore := h.permits
      simp only [working, List.countP_append, List.countP_singleton, FetchTaskPhase.holdsPermit, Bool.false_eq_true, if_false]
        at hbefore ⊢
      omega
    · rw [List.map_append, List.append_assoc, ← h.spawned, hspawn]
      rfl
    · intro hfailed task htask
      rcases List.mem_append.mp htask with htask | htask
      · exact h.quiet hfailed task htask
      · rw [List.mem_singleton.mp htask]
        exact FetchTaskPhase.noConfusion
    · intro task htask
      rw [List.mem_append, List.mem_singleton, or_iff_left TaskEvent.noConfusion] at htask
      obtain ⟨url', phase, hphase, hpast⟩ := h.fetched task htask
      exact ⟨url', phase, by rwa [List.getElem?_append_left (List.getElem?_eq_some_iff.mp hphase).1], hpast⟩
    · rw [fetchedUrls_append]
      simpa [fetchedUrls] using h.once
  | acquires task url htask hpermits =>
    refine hmove htask rfl rfl ?_ (fun hfailed => ⟨hfailed, FetchTaskPhase.noConfusion⟩) (fun hpast => absurd rfl hpast.1)
      (Or.inl fun other => TaskEvent.noConfusion)
    simp only [FetchTaskPhase.holdsPermit, if_true, Bool.false_eq_true, if_false]
    omega
  | fetches task url fetched htask hfetch =>
    exact hmove htask rfl rfl rfl (fun hfailed => ⟨hfailed, FetchTaskPhase.noConfusion⟩)
      (fun _ => ⟨FetchTaskPhase.noConfusion, FetchTaskPhase.noConfusion⟩)
      (Or.inr ⟨rfl, rfl, FetchTaskPhase.noConfusion, FetchTaskPhase.noConfusion⟩)
  | fetchFails task url htask hfetch =>
    exact hmove htask rfl rfl rfl (fun hfailed => ⟨hfailed, FetchTaskPhase.noConfusion⟩)
      (fun _ => ⟨FetchTaskPhase.noConfusion, FetchTaskPhase.noConfusion⟩)
      (Or.inr ⟨rfl, rfl, FetchTaskPhase.noConfusion, FetchTaskPhase.noConfusion⟩)
  | stores task url fetched htask result runtime hstore =>
    exact hmove htask rfl rfl rfl (fun hfailed => ⟨hfailed, FetchTaskPhase.noConfusion⟩)
      (fun _ => ⟨FetchTaskPhase.noConfusion, FetchTaskPhase.noConfusion⟩) (Or.inl fun other => TaskEvent.noConfusion)
  | joins task url fetched hspawned hfailed htask =>
    exact hmove htask rfl rfl rfl (fun hfailed => ⟨hfailed, FetchTaskPhase.noConfusion⟩)
      (fun _ => ⟨FetchTaskPhase.noConfusion, FetchTaskPhase.noConfusion⟩) (Or.inl fun other => TaskEvent.noConfusion)
  | fails task url error hspawned hfailed htask =>
    exact hmove htask rfl rfl rfl (fun hnone => absurd hnone (Option.some_ne_none error))
      (fun _ => ⟨FetchTaskPhase.noConfusion, FetchTaskPhase.noConfusion⟩) (Or.inl fun other => TaskEvent.noConfusion)
  | aborts task url error phase hfailed htask hphase =>
    refine hmove htask rfl rfl ?_ (fun hnone => absurd (hfailed.symm.trans hnone) (Option.some_ne_none error))
      (fun _ => ⟨FetchTaskPhase.noConfusion, FetchTaskPhase.noConfusion⟩) (Or.inl fun other => TaskEvent.noConfusion)
    simp only [FetchTaskPhase.holdsPermit, Bool.false_eq_true, if_false, Nat.add_zero]

theorem permitted_run (hurls : urls.Nodup) (runtime : BlobRuntime)
    (hrun : run (step fetch io) (init urls runtime) events = some tasks) : Permitted urls events tasks := by
  induction events using List.reverseRecOn generalizing tasks with
  | nil =>
    obtain rfl := Option.some.inj hrun
    exact permitted_init urls runtime
  | append_singleton events event ih =>
    rw [Transition.run_append] at hrun
    obtain ⟨before, hbefore, hlast⟩ := Option.bind_eq_some_iff.mp hrun
    obtain ⟨next, hnext, hend⟩ := Option.bind_eq_some_iff.mp hlast
    obtain rfl := Option.some.inj hend
    exact (ih hbefore).step hurls hnext

/-- **At most four tasks fetch or store at once, and no URL is fetched twice**, whatever the order of the steps. The
permits that are not held are there to be taken. -/
theorem fetchTasks_bounded (fetch : String → Option FetchedImage) (io : String → WriteOutcome)
    (refs : List RequestImageRef) (runtime : BlobRuntime)
    (hrun : run (step fetch io) (init (uniqueUrls refs []) runtime) events = some tasks) :
    tasks.permits + tasks.working = MAX_CONCURRENT_REQUEST_IMAGE_FETCHES ∧
      (fetchedUrls (uniqueUrls refs []) events).Nodup :=
  have hpermitted := permitted_run (nodup_uniqueUrls refs []) runtime hrun
  ⟨hpermitted.permits, hpermitted.once⟩

/-- A request with two images, which are fetched at once and stored the other way round. -/
def twoImages : Value :=
  .array [.object [("inlineData", .object [("data", .string "https://a.example/1.png")])],
    .object [("inlineData", .object [("data", .string "https://b.example/2.png")])]]

def twoImageRefs : List RequestImageRef :=
  [⟨"/0/inlineData", "https://a.example/1.png"⟩, ⟨"/1/inlineData", "https://b.example/2.png"⟩]

def twoImageEvents : List TaskEvent :=
  [.spawns, .spawns, .acquires 0, .acquires 1, .fetches 0, .fetches 1, .stores 1, .stores 0, .joins 1, .joins 0]

theorem uniqueUrls_twoImages : uniqueUrls twoImageRefs [] = ["https://a.example/1.png", "https://b.example/2.png"] := by
  decide +kernel

theorem fetchTasks_bounded_example :
    ∃ tasks, run (step (fun _ => some ⟨"image/png", [1], false⟩) fun _ => .completed)
        (init (uniqueUrls twoImageRefs []) (BlobRuntime.new ⟨8, 8, 8, "/tmp"⟩ fun _ => none)) twoImageEvents = some tasks ∧
      tasks.permits + tasks.working = MAX_CONCURRENT_REQUEST_IMAGE_FETCHES ∧
      (fetchedUrls (uniqueUrls twoImageRefs []) twoImageEvents).Nodup := by
  obtain ⟨tasks, hrun⟩ : ∃ tasks, run (step (fun _ => some ⟨"image/png", [1], false⟩) fun _ => .completed)
      (init (uniqueUrls twoImageRefs []) (BlobRuntime.new ⟨8, 8, 8, "/tmp"⟩ fun _ => none)) twoImageEvents = some tasks := by
    rw [uniqueUrls_twoImages]
    exact ⟨_, rfl⟩
  exact ⟨tasks, hrun, fetchTasks_bounded _ _ twoImageRefs _ hrun⟩

/-! ## The end of a run -/

/-- The steps that a task can still take. -/
def stepsLeft : FetchTaskPhase → ℕ
  | .waiting => 4
  | .fetching => 3
  | .storing _ => 2
  | .finished _ => 1
  | .joined | .aborted => 0

def allStepsLeft (tasks : FetchTasks) : ℕ :=
  5 * tasks.unspawned.length + (tasks.tasks.map fun task => stepsLeft task.phase).sum

theorem allStepsLeft_set {task : ℕ} {url : String} {phase phase' : FetchTaskPhase}
    (htask : tasks.tasks[task]? = some ⟨url, phase⟩) (htasks : tasks'.tasks = tasks.tasks.set task ⟨url, phase'⟩)
    (hunspawned : tasks'.unspawned = tasks.unspawned) (hless : stepsLeft phase' < stepsLeft phase) :
    tasks'.allStepsLeft < tasks.allStepsLeft := by
  have hsum := Transition.sum_map_set (fun task : RequestImageTask => stepsLeft task.phase) htask ⟨url, phase'⟩
  unfold allStepsLeft
  rw [htasks, hunspawned]
  simp only at hsum
  omega

/-- Every step is one less to take. -/
theorem allStepsLeft_step {event : TaskEvent} (hstep : tasks.step fetch io event = some tasks') :
    tasks'.allStepsLeft < tasks.allStepsLeft := by
  cases step_moves hstep with
  | spawns url unspawned hspawn =>
    unfold allStepsLeft
    rw [hspawn]
    simp only [List.map_append, List.sum_append, List.length_cons, List.map_cons, List.map_nil, List.sum_cons, List.sum_nil,
      stepsLeft]
    omega
  | acquires task url htask hpermits => exact allStepsLeft_set htask rfl rfl (by decide)
  | fetches task url fetched htask hfetch => exact allStepsLeft_set htask rfl rfl (show 2 < 3 by decide)
  | fetchFails task url htask hfetch => exact allStepsLeft_set htask rfl rfl (show 1 < 3 by decide)
  | stores task url fetched htask result runtime hstore =>
    exact allStepsLeft_set htask rfl rfl (show 1 < 2 by decide)
  | joins task url fetched hspawned hfailed htask => exact allStepsLeft_set htask rfl rfl (show 0 < 1 by decide)
  | fails task url error hspawned hfailed htask => exact allStepsLeft_set htask rfl rfl (show 0 < 1 by decide)
  | aborts task url error phase hfailed htask hphase =>
    refine allStepsLeft_set htask rfl rfl ?_
    rcases hphase with rfl | hholds
    · decide
    · rcases phase with _ | _ | fetched | result | _ | _
      · cases hholds
      · decide
      · exact show 0 < 2 by decide
      · cases hholds
      · cases hholds
      · cases hholds

theorem length_run (hrun : run (step fetch io) tasks events = some tasks') :
    events.length + tasks'.allStepsLeft ≤ tasks.allStepsLeft := by
  induction events generalizing tasks with
  | nil =>
    obtain rfl := Option.some.inj hrun
    simp
  | cons event events ih =>
    obtain ⟨next, hnext, hrest⟩ := Option.bind_eq_some_iff.mp hrun
    have hless := allStepsLeft_step hnext
    have hlength := ih hrest
    rw [List.length_cons]
    omega

/-- A request that has not returned can go on. -/
theorem Permitted.progress (h : Permitted urls events tasks) (hrunning : tasks.failed = none) (hjoined : ¬ tasks.Joined)
    (fetch : String → Option FetchedImage) (io : String → WriteOutcome) : ∃ event, (tasks.step fetch io event).isSome := by
  rcases hspawn : tasks.unspawned with _ | ⟨url, unspawned⟩
  · -- some task is not joined, and if it waits for a permit, another one holds it
    have hstep : ∀ (task : ℕ) (url : String) (phase : FetchTaskPhase), tasks.tasks[task]? = some ⟨url, phase⟩ → phase.holdsPermit = true →
        ∃ event, (tasks.step fetch io event).isSome := by
      intro task url phase htask hholds
      rcases phase with _ | _ | fetched | result | _ | _
      · cases hholds
      · refine ⟨.fetches task, ?_⟩
        simp only [FetchTasks.step, htask]
        rcases fetch url with _ | fetched <;> rfl
      · refine ⟨.stores task, ?_⟩
        simp only [FetchTasks.step, htask, Option.isSome_some]
      · cases hholds
      · cases hholds
      · cases hholds
    obtain ⟨left, hleft, hphase⟩ : ∃ left ∈ tasks.tasks, left.phase ≠ .joined := by
      by_contra hall
      refine hjoined ⟨hspawn, fun task htask => ?_⟩
      by_contra hphase
      exact hall ⟨task, htask, hphase⟩
    obtain ⟨task, htask⟩ := List.mem_iff_getElem?.mp hleft
    obtain ⟨url, phase⟩ := left
    rcases phase with _ | _ | fetched | result | _ | _
    · by_cases hpermits : tasks.permits = 0
      · have hworking : 0 < tasks.working := by
          have hsum := h.permits
          rw [hpermits, Nat.zero_add] at hsum
          rw [hsum]
          decide
        obtain ⟨holder, hmem, hholds⟩ := List.countP_pos_iff.mp hworking
        obtain ⟨other, hother⟩ := List.mem_iff_getElem?.mp hmem
        exact hstep other holder.url holder.phase hother hholds
      · refine ⟨.acquires task, ?_⟩
        simp only [FetchTasks.step, htask, if_neg hpermits, Option.isSome_some]
    · exact hstep task url _ htask rfl
    · exact hstep task url _ htask rfl
    · refine ⟨.joins task, ?_⟩
      have hready : ¬ (tasks.unspawned ≠ [] ∨ tasks.failed.isSome = true) := by
        rw [hspawn, hrunning]
        simp
      rcases result with error | fetched
      · simp only [FetchTasks.step, htask, if_neg hready, Option.isSome_some]
      · simp only [FetchTasks.step, htask, if_neg hready, Option.isSome_some]
    · exact absurd rfl hphase
    · exact absurd rfl (h.quiet hrunning _ hleft)
  · refine ⟨.spawns, ?_⟩
    simp only [FetchTasks.step, hspawn, Option.isSome_some]

/-! ## One after the other -/

theorem fetchRequestImage_eq {url : String} {fetched : FetchedImage} (h : fetch url = some fetched) (runtime : BlobRuntime) :
    fetchRequestImage fetch io url runtime = storeFetched io url fetched runtime := by
  unfold fetchRequestImage
  rw [h]
  rfl

theorem joinFetches_append (front back : List String) (fetchedByUrl : List (String × FetchedBlob)) (runtime : BlobRuntime) :
    joinFetches fetch io (front ++ back) fetchedByUrl runtime =
      match joinFetches fetch io front fetchedByUrl runtime with
      | (fetches, .error error) => (fetches, .error error)
      | (fetches, .ok (fetchedByUrl, runtime)) =>
        (fetches ++ (joinFetches fetch io back fetchedByUrl runtime).1, (joinFetches fetch io back fetchedByUrl runtime).2) := by
  induction front generalizing fetchedByUrl runtime with
  | nil => rfl
  | cons url front ih =>
    rw [List.cons_append, joinFetches, joinFetches]
    rcases fetchRequestImage fetch io url runtime with ⟨error | fetched, runtime'⟩
    · rfl
    · dsimp only
      rw [ih]
      rcases joinFetches fetch io front ((url, fetched) :: fetchedByUrl) runtime' with ⟨fetches, error | stored⟩ <;> rfl

/-- A request whose tasks run one after the other, in this order, ends with the error. -/
def Ends (fetch : String → Option FetchedImage) (io : String → WriteOutcome) (urls : List String) (start : BlobRuntime)
    (error : MaterializeError) : Prop :=
  ∃ order, order.Perm urls ∧ (joinFetches fetch io order [] start).2 = .error error

theorem ends_of_stored {start seq : BlobRuntime} {stored rest : List String} {fetchedByUrl : List (String × FetchedBlob)}
    {url : String} {error : MaterializeError}
    (hrun : joinFetches fetch io stored [] start = (stored, .ok (fetchedByUrl, seq)))
    (hperm : (stored ++ url :: rest).Perm urls) (hfails : (fetchRequestImage fetch io url seq).1 = .error error) :
    Ends fetch io urls start error := by
  refine ⟨stored ++ url :: rest, hperm, ?_⟩
  rw [joinFetches_append, hrun]
  dsimp only
  rw [joinFetches]
  rcases hfetch : fetchRequestImage fetch io url seq with ⟨error' | fetched, runtime⟩
  · rw [hfetch] at hfails
    exact congrArg _ (Except.error.inj hfails)
  · rw [hfetch] at hfails
    cases hfails

/-- The part of a runtime that decides whether a blob is held inline. -/
structure SameHot (runtime runtime' : BlobRuntime) : Prop where
  cfg : runtime.cfg = runtime'.cfg
  hot : runtime.globalHotBytes = runtime'.globalHotBytes

theorem tryInlineReserve_sameHot {runtime runtime' : BlobRuntime} (h : SameHot runtime runtime') (size : ℕ) :
    (runtime.tryInlineReserve size = none ∧ runtime'.tryInlineReserve size = none) ∨
      ∃ reserved reserved', runtime.tryInlineReserve size = some reserved ∧
        runtime'.tryInlineReserve size = some reserved' ∧ SameHot reserved reserved' := by
  unfold BlobRuntime.tryInlineReserve
  rw [← h.cfg, ← h.hot]
  dsimp only
  split
  · exact Or.inl ⟨rfl, rfl⟩
  · split
    · exact Or.inl ⟨rfl, rfl⟩
    · split
      · exact Or.inl ⟨rfl, rfl⟩
      · exact Or.inr ⟨_, _, rfl, rfl, ⟨rfl, rfl⟩⟩

/-- A store without room in the hot memory depends on the write. -/
theorem storeSharedBytes_spills {runtime : BlobRuntime} {bytes : List UInt8}
    (h : runtime.takeId.2.tryInlineReserve bytes.length = none) (io : WriteOutcome) (mimeType : String) :
    ∃ stored after, runtime.storeSharedBytes io bytes mimeType = (stored, after) ∧ SameHot runtime after ∧
      (io = .completed ↔ stored.isSome) := by
  unfold BlobRuntime.storeSharedBytes BlobRuntime.storeBytes BlobRuntime.storeBuffer
  dsimp only
  rw [h]
  rcases io with _ | _ | left
  · exact ⟨_, _, rfl, ⟨rfl, rfl⟩, by simp⟩
  · exact ⟨_, _, rfl, ⟨rfl, rfl⟩, by simp⟩
  · exact ⟨_, _, rfl, ⟨rfl, rfl⟩, by simp⟩

/-- Runtimes that are alike store alike, and an image that is not stored takes no hot memory. -/
theorem storeFetched_sameHot {runtime runtime' : BlobRuntime} (h : SameHot runtime runtime') (url : String)
    (fetched : FetchedImage) :
    (∃ blob blob' after after', storeFetched io url fetched runtime = (.ok blob, after) ∧
        storeFetched io url fetched runtime' = (.ok blob', after') ∧ SameHot after after') ∨
      ∃ after after', storeFetched io url fetched runtime = (.error (.store url), after) ∧
        storeFetched io url fetched runtime' = (.error (.store url), after') ∧ SameHot runtime after' := by
  unfold storeFetched
  by_cases hcache : fetched.fromCache = true
  · rw [if_pos hcache, if_pos hcache]
    exact Or.inl ⟨_, _, _, _, rfl, rfl, h.cfg, h.hot⟩
  · rw [if_neg hcache, if_neg hcache]
    have htaken : SameHot runtime.takeId.2 runtime'.takeId.2 := ⟨h.cfg, h.hot⟩
    rcases tryInlineReserve_sameHot htaken fetched.bytes.length with ⟨hnone, hnone'⟩ | ⟨reserved, reserved', hsome, hsome', hsame⟩
    · obtain ⟨stored, after, hstore, hafter, hcompleted⟩ := storeSharedBytes_spills hnone (io url) fetched.mimeType
      obtain ⟨stored', after', hstore', hafter', hcompleted'⟩ := storeSharedBytes_spills hnone' (io url) fetched.mimeType
      have hboth : stored.isSome ↔ stored'.isSome := hcompleted.symm.trans hcompleted'
      have hsame : SameHot runtime after' := ⟨h.cfg.trans hafter'.cfg, h.hot.trans hafter'.hot⟩
      rw [hstore, hstore']
      rcases stored with _ | blob
      · rcases stored' with _ | blob'
        · exact Or.inr ⟨after, after', rfl, rfl, hsame⟩
        · exact absurd (hboth.mpr rfl) Bool.noConfusion
      · rcases stored' with _ | blob'
        · exact absurd (hboth.mp rfl) Bool.noConfusion
        · exact Or.inl ⟨_, _, after, after', rfl, rfl, hafter.cfg.symm.trans hsame.cfg, hafter.hot.symm.trans hsame.hot⟩
    · have hinline : runtime.storeSharedBytes (io url) fetched.bytes fetched.mimeType =
          (some ⟨runtime.nextId, ⟨fetched.mimeType, fetched.bytes.length⟩, .inline fetched.bytes⟩, reserved) := by
        unfold BlobRuntime.storeSharedBytes BlobRuntime.storeBytes BlobRuntime.storeBuffer
        dsimp only
        rw [hsome]
        rfl
      have hinline' : runtime'.storeSharedBytes (io url) fetched.bytes fetched.mimeType =
          (some ⟨runtime'.nextId, ⟨fetched.mimeType, fetched.bytes.length⟩, .inline fetched.bytes⟩, reserved') := by
        unfold BlobRuntime.storeSharedBytes BlobRuntime.storeBytes BlobRuntime.storeBuffer
        dsimp only
        rw [hsome']
        rfl
      rw [hinline, hinline']
      exact Or.inl ⟨_, _, _, _, rfl, rfl, hsame⟩

/-- The URL of a task that has stored. -/
def storedUrl (task : RequestImageTask) : Option String :=
  match task.phase with
  | .finished (.ok _) | .joined => some task.url
  | _ => none

/-- What the tasks have done so far is what is done if those that have stored run one after the other. Where a task has
failed, only the hot memory is still the same. -/
structure Follows (fetch : String → Option FetchedImage) (io : String → WriteOutcome) (urls : List String)
    (start : BlobRuntime) (tasks : FetchTasks) (stored : List String) (fetchedByUrl : List (String × FetchedBlob))
    (seq : BlobRuntime) : Prop where
  run : joinFetches fetch io stored [] start = (stored, .ok (fetchedByUrl, seq))
  stored : stored.Perm (tasks.tasks.filterMap storedUrl)
  hot : SameHot seq tasks.runtime
  storing : ∀ task ∈ tasks.tasks, ∀ fetched, task.phase = .storing fetched → fetch task.url = some fetched
  errors : ∀ task ∈ tasks.tasks, ∀ error, task.phase = .finished (.error error) → Ends fetch io urls start error
  clean : (∀ task ∈ tasks.tasks, ∀ error, task.phase ≠ .finished (.error error)) → seq = tasks.runtime ∧
    (∀ task ∈ tasks.tasks, ∀ fetched, task.phase = .finished (.ok fetched) → fetchedByUrl.lookup task.url = some fetched) ∧
    ∀ task ∈ tasks.tasks, task.phase = .joined → tasks.fetchedByUrl.lookup task.url = fetchedByUrl.lookup task.url

/-- The tasks follow a run one after the other, and if the request has failed, such a run fails in the same way. -/
structure Refines (fetch : String → Option FetchedImage) (io : String → WriteOutcome) (urls : List String)
    (start : BlobRuntime) (tasks : FetchTasks) : Prop where
  follows : tasks.failed = none → ∃ stored fetchedByUrl seq, Follows fetch io urls start tasks stored fetchedByUrl seq
  ends : ∀ error, tasks.failed = some error → Ends fetch io urls start error

variable {start seq : BlobRuntime} {stored : List String} {fetchedByUrl : List (String × FetchedBlob)}

theorem refines_init (urls : List String) (start : BlobRuntime) : Refines fetch io urls start (init urls start) where
  follows _ := ⟨[], [], start, rfl, .refl _, ⟨rfl, rfl⟩, fun _ htask => absurd htask List.not_mem_nil,
    fun _ htask => absurd htask List.not_mem_nil, fun _ => ⟨rfl, fun _ htask => absurd htask List.not_mem_nil,
      fun _ htask => absurd htask List.not_mem_nil⟩⟩
  ends error h := absurd h.symm (Option.some_ne_none error)

/-- The URLs that are left when those that are stored are taken away. -/
theorem exists_rest (l : List RequestImageTask) : ∃ rest, (l.map RequestImageTask.url).Perm (l.filterMap storedUrl ++ rest) := by
  induction l with
  | nil => exact ⟨[], .refl _⟩
  | cons task l ih =>
    obtain ⟨rest, hrest⟩ := ih
    rcases hstored : storedUrl task with _ | url
    · refine ⟨task.url :: rest, ?_⟩
      rw [List.map_cons, List.filterMap_cons, hstored]
      exact (hrest.cons task.url).trans List.perm_middle.symm
    · have hurl : task.url = url := by
        unfold storedUrl at hstored
        split at hstored
        · exact Option.some.inj hstored
        · exact Option.some.inj hstored
        · cases hstored
      refine ⟨rest, ?_⟩
      rw [List.map_cons, List.filterMap_cons, hstored, hurl]
      exact hrest.cons url

/-- A task that fails when it is run after those that have stored ends the request. -/
theorem Follows.ends (h : Follows fetch io urls start tasks stored fetchedByUrl seq) (hpermitted : Permitted urls events tasks)
    {task : ℕ} {url : String} {phase : FetchTaskPhase} (htask : tasks.tasks[task]? = some ⟨url, phase⟩)
    (hnone : storedUrl ⟨url, phase⟩ = none) {error : MaterializeError}
    (hfails : (fetchRequestImage fetch io url seq).1 = .error error) : Ends fetch io urls start error := by
  have hperm := Transition.perm_cons_eraseIdx htask
  obtain ⟨rest, hrest⟩ := exists_rest (tasks.tasks.eraseIdx task)
  have hstored : stored.Perm ((tasks.tasks.eraseIdx task).filterMap storedUrl) := by
    have hothers := hperm.filterMap storedUrl
    rw [List.filterMap_cons, hnone] at hothers
    exact h.stored.trans hothers
  apply ends_of_stored h.run _ hfails
  · exact rest ++ tasks.unspawned
  · rw [← hpermitted.spawned, ← List.cons_append, ← List.append_assoc]
    refine List.Perm.append_right _ ?_
    -- the URL of the task is among those that are not stored
    have hurls := hperm.map RequestImageTask.url
    rw [List.map_cons] at hurls
    exact List.perm_middle.trans ((((hstored.append_right rest).trans hrest.symm).cons url).trans hurls.symm)

/-- A task takes its next phase, and nothing else changes. -/
theorem Follows.move (h : Follows fetch io urls start tasks stored fetchedByUrl seq) {task : ℕ} {url : String}
    {phase phase' : FetchTaskPhase} (htask : tasks.tasks[task]? = some ⟨url, phase⟩)
    (htasks : tasks'.tasks = tasks.tasks.set task ⟨url, phase'⟩) (hruntime : tasks'.runtime = tasks.runtime)
    (hfetched : tasks'.fetchedByUrl = tasks.fetchedByUrl) (hnone : storedUrl ⟨url, phase⟩ = none)
    (hnone' : storedUrl ⟨url, phase'⟩ = none) (hstoring : ∀ fetched, phase' = .storing fetched → fetch url = some fetched)
    (herrors : ∀ error, phase' = .finished (.error error) → Ends fetch io urls start error)
    (hkeeps : ∀ error, phase ≠ .finished (.error error)) :
    Follows fetch io urls start tasks' stored fetchedByUrl seq := by
  have hmem : ∀ other ∈ tasks'.tasks, other ∈ tasks.tasks ∨ other = ⟨url, phase'⟩ := by
    intro other hother
    rw [htasks] at hother
    exact List.mem_or_eq_of_mem_set hother
  refine ⟨h.run, ?_, hruntime ▸ h.hot, ?_, ?_, ?_⟩
  · obtain ⟨rest, hold, hnew⟩ := Transition.filterMap_set_perm storedUrl htask
    have hset := hnew ⟨url, phase'⟩
    rw [hnone, Option.toList_none, List.nil_append] at hold
    rw [hnone', Option.toList_none, List.nil_append] at hset
    rw [htasks]
    exact h.stored.trans (hold.trans hset.symm)
  · intro other hother fetched hphase
    rcases hmem other hother with hother | rfl
    · exact h.storing other hother fetched hphase
    · exact hstoring fetched hphase
  · intro other hother error hphase
    rcases hmem other hother with hother | rfl
    · exact h.errors other hother error hphase
    · exact herrors error hphase
  · intro hclean
    obtain ⟨hseq, hok, hjoined⟩ := h.clean fun other hother error hphase => by
      rcases Transition.mem_set_of_mem htask hother ⟨url, phase'⟩ with rfl | hother
      · exact hkeeps error hphase
      · exact hclean other (htasks ▸ hother) error hphase
    refine ⟨hseq.trans hruntime.symm, fun other hother fetched hphase => ?_, fun other hother hphase => ?_⟩
    · rcases hmem other hother with hother | rfl
      · exact hok other hother fetched hphase
      · simp only at hphase
        rw [hphase] at hnone'
        cases hnone'
    · rw [hfetched]
      rcases hmem other hother with hother | rfl
      · exact hjoined other hother hphase
      · simp only at hphase
        rw [hphase] at hnone'
        cases hnone'

/-- The other tasks have other URLs. -/
theorem Permitted.others (h : Permitted urls events tasks) (hurls : urls.Nodup) {task : ℕ} {url : String}
    {phase phase' : FetchTaskPhase} (htask : tasks.tasks[task]? = some ⟨url, phase⟩) {other : RequestImageTask}
    (hother : other ∈ tasks.tasks.set task ⟨url, phase'⟩) :
    other = ⟨url, phase'⟩ ∨ other ∈ tasks.tasks ∧ other.url ≠ url := by
  obtain ⟨j, hj⟩ := List.mem_iff_getElem?.mp hother
  by_cases hsame : j = task
  · subst hsame
    rw [List.getElem?_set_self (List.getElem?_eq_some_iff.mp htask).1] at hj
    exact Or.inl (Option.some.inj hj).symm
  · rw [List.getElem?_set_ne (Ne.symm hsame)] at hj
    refine Or.inr ⟨List.mem_of_getElem? hj, fun hurl => hsame ?_⟩
    obtain ⟨hlt, hget⟩ := List.getElem?_eq_some_iff.mp (h.url hj)
    obtain ⟨hlt', hget'⟩ := List.getElem?_eq_some_iff.mp (h.url htask)
    exact hurls.getElem_inj_iff.mp (hget.trans (hurl.trans hget'.symm))

theorem lookup_cons_of_ne {α : Type} {url url' : String} (h : url' ≠ url) (x : α) (l : List (String × α)) :
    List.lookup url' ((url, x) :: l) = List.lookup url' l := by
  rw [List.lookup_cons, beq_false_of_ne h]

/-- A store that succeeds is the next of the run one after the other. -/
theorem Follows.stores (h : Follows fetch io urls start tasks stored fetchedByUrl seq) (hurls : urls.Nodup)
    (hpermitted : Permitted urls events tasks) {task : ℕ} {url : String} {fetched : FetchedImage}
    (htask : tasks.tasks[task]? = some ⟨url, .storing fetched⟩) {blob : FetchedBlob} {runtime : BlobRuntime}
    (hstore : storeFetched io url fetched tasks.runtime = (.ok blob, runtime)) :
    ∃ blob' seq', Follows fetch io urls start { tasks.finish task url (.ok blob) with runtime } (stored ++ [url])
      ((url, blob') :: fetchedByUrl) seq' := by
  have hfetch := h.storing _ (List.mem_of_getElem? htask) fetched rfl
  rcases storeFetched_sameHot h.hot url fetched with ⟨blob', other, after, after', hseq, hruntime, hsame⟩ |
    ⟨after, after', -, hruntime, -⟩
  · obtain ⟨hblob, rfl⟩ := Prod.mk.inj (hstore.symm.trans hruntime)
    obtain rfl := Except.ok.inj hblob
    refine ⟨blob', after, ?_, ?_, hsame, ?_, ?_, ?_⟩
    · have hone : joinFetches fetch io [url] fetchedByUrl seq = ([url], .ok ((url, blob') :: fetchedByUrl, after)) := by
        rw [joinFetches, fetchRequestImage_eq hfetch, hseq]
        rfl
      rw [joinFetches_append, h.run]
      dsimp only
      rw [hone]
    · obtain ⟨rest, hold, hnew⟩ := Transition.filterMap_set_perm storedUrl htask
      have hstored : stored.Perm rest := h.stored.trans hold
      exact (List.perm_append_singleton url stored).trans ((hstored.cons url).trans (hnew ⟨url, .finished (.ok blob)⟩).symm)
    · intro other hother fetched' hphase
      rcases hpermitted.others hurls htask hother with rfl | ⟨hother, -⟩
      · cases hphase
      · exact h.storing other hother fetched' hphase
    · intro other hother error hphase
      rcases hpermitted.others hurls htask hother with rfl | ⟨hother, -⟩
      · cases hphase
      · exact h.errors other hother error hphase
    · intro hclean
      obtain ⟨rfl, hok, hjoined⟩ := h.clean fun other hother error hphase => by
        rcases Transition.mem_set_of_mem htask hother ⟨url, .finished (.ok blob)⟩ with rfl | hother
        · cases hphase
        · exact hclean other hother error hphase
      obtain ⟨hblob, rfl⟩ := Prod.mk.inj (hseq.symm.trans hruntime)
      obtain rfl := Except.ok.inj hblob
      refine ⟨rfl, fun other hother fetched' hphase => ?_, fun other hother hphase => ?_⟩
      · rcases hpermitted.others hurls htask hother with rfl | ⟨hother, hne⟩
        · obtain rfl := Except.ok.inj (FetchTaskPhase.finished.inj hphase)
          exact List.lookup_cons_self
        · rw [lookup_cons_of_ne hne]
          exact hok other hother fetched' hphase
      · rcases hpermitted.others hurls htask hother with rfl | ⟨hother, hne⟩
        · cases hphase
        · rw [lookup_cons_of_ne hne]
          exact hjoined other hother hphase
  · cases hstore.symm.trans hruntime

/-- A store that fails is one that fails when it is the next. -/
theorem Follows.storeFails (h : Follows fetch io urls start tasks stored fetchedByUrl seq)
    (hpermitted : Permitted urls events tasks) {task : ℕ} {url : String} {fetched : FetchedImage}
    (htask : tasks.tasks[task]? = some ⟨url, .storing fetched⟩) {error : MaterializeError} {runtime : BlobRuntime}
    (hstore : storeFetched io url fetched tasks.runtime = (.error error, runtime)) :
    Follows fetch io urls start { tasks.finish task url (.error error) with runtime } stored fetchedByUrl seq := by
  have hfetch := h.storing _ (List.mem_of_getElem? htask) fetched rfl
  rcases storeFetched_sameHot h.hot url fetched with ⟨blob, blob', after, after', -, hruntime, -⟩ |
    ⟨after, after', hseq, hruntime, hsame⟩
  · cases hstore.symm.trans hruntime
  · obtain ⟨herror, rfl⟩ := Prod.mk.inj (hstore.symm.trans hruntime)
    obtain rfl := Except.error.inj herror
    have hends : Ends fetch io urls start (.store url) := by
      refine h.ends hpermitted htask rfl ?_
      rw [fetchRequestImage_eq hfetch, hseq]
    have hmoved := @Follows.move fetch io tasks (tasks.setPhase task url (.finished (.error (.store url)))) urls start seq stored
      fetchedByUrl h task url _ _ htask rfl rfl rfl rfl rfl (fun _ => FetchTaskPhase.noConfusion)
      (fun error herror => Except.error.inj (FetchTaskPhase.finished.inj herror) ▸ hends) fun _ => FetchTaskPhase.noConfusion
    refine ⟨hmoved.run, hmoved.stored, hsame, hmoved.storing, hmoved.errors, fun hclean => ?_⟩
    -- this task has failed
    refine absurd rfl (hclean ⟨url, .finished (.error (.store url))⟩ ?_ (.store url))
    exact List.mem_of_getElem? (List.getElem?_set_self (List.getElem?_eq_some_iff.mp htask).1)

/-- A result that is joined is the one that the task has stored. -/
theorem Follows.joins (h : Follows fetch io urls start tasks stored fetchedByUrl seq) (hurls : urls.Nodup)
    (hpermitted : Permitted urls events tasks) {task : ℕ} {url : String} {fetched : FetchedBlob}
    (htask : tasks.tasks[task]? = some ⟨url, .finished (.ok fetched)⟩) :
    Follows fetch io urls start
      { tasks.setPhase task url .joined with fetchedByUrl := (url, fetched) :: tasks.fetchedByUrl } stored fetchedByUrl
      seq := by
  refine ⟨h.run, ?_, h.hot, ?_, ?_, ?_⟩
  · obtain ⟨rest, hold, hnew⟩ := Transition.filterMap_set_perm storedUrl htask
    exact h.stored.trans (hold.trans (hnew ⟨url, .joined⟩).symm)
  · intro other hother fetched' hphase
    rcases hpermitted.others hurls htask hother with rfl | ⟨hother, -⟩
    · cases hphase
    · exact h.storing other hother fetched' hphase
  · intro other hother error hphase
    rcases hpermitted.others hurls htask hother with rfl | ⟨hother, -⟩
    · cases hphase
    · exact h.errors other hother error hphase
  · intro hclean
    obtain ⟨hseq, hok, hjoined⟩ := h.clean fun other hother error hphase => by
      rcases Transition.mem_set_of_mem htask hother ⟨url, .joined⟩ with rfl | hother
      · cases hphase
      · exact hclean other hother error hphase
    refine ⟨hseq, fun other hother fetched' hphase => ?_, fun other hother hphase => ?_⟩
    · rcases hpermitted.others hurls htask hother with rfl | ⟨hother, -⟩
      · cases hphase
      · exact hok other hother fetched' hphase
    · rcases hpermitted.others hurls htask hother with rfl | ⟨hother, hne⟩
      · exact List.lookup_cons_self.trans (hok _ (List.mem_of_getElem? htask) fetched rfl).symm
      · exact (lookup_cons_of_ne hne fetched tasks.fetchedByUrl).trans (hjoined other hother hphase)

theorem Refines.step (h : Refines fetch io urls start tasks) (hurls : urls.Nodup) (hpermitted : Permitted urls events tasks)
    {event : TaskEvent} (hstep : tasks.step fetch io event = some tasks') : Refines fetch io urls start tasks' := by
  cases step_moves hstep with
  | spawns url unspawned hspawn =>
    refine ⟨fun hfailed => ?_, h.ends⟩
    obtain ⟨stored, fetchedByUrl, seq, hfollows⟩ := h.follows hfailed
    have hmem : ∀ other ∈ tasks.tasks ++ [⟨url, .waiting⟩], other ∈ tasks.tasks ∨ other = ⟨url, .waiting⟩ := by
      intro other hother
      simpa using hother
    refine ⟨stored, fetchedByUrl, seq, hfollows.run, ?_, hfollows.hot, ?_, ?_, fun hclean => ?_⟩
    · have hnone : List.filterMap storedUrl [⟨url, .waiting⟩] = [] := rfl
      rw [List.filterMap_append, hnone, List.append_nil]
      exact hfollows.stored
    · intro other hother fetched hphase
      rcases hmem other hother with hother | rfl
      · exact hfollows.storing other hother fetched hphase
      · cases hphase
    · intro other hother error hphase
      rcases hmem other hother with hother | rfl
      · exact hfollows.errors other hother error hphase
      · cases hphase
    · obtain ⟨hseq, hok, hjoined⟩ := hfollows.clean fun other hother => hclean other (List.mem_append_left _ hother)
      refine ⟨hseq, fun other hother fetched hphase => ?_, fun other hother hphase => ?_⟩
      · rcases hmem other hother with hother | rfl
        · exact hok other hother fetched hphase
        · cases hphase
      · rcases hmem other hother with hother | rfl
        · exact hjoined other hother hphase
        · cases hphase
  | acquires task url htask hpermits =>
    refine ⟨fun hfailed => ?_, h.ends⟩
    obtain ⟨stored, fetchedByUrl, seq, hfollows⟩ := h.follows hfailed
    exact ⟨stored, fetchedByUrl, seq, hfollows.move htask rfl rfl rfl rfl rfl (fun _ => FetchTaskPhase.noConfusion)
      (fun _ => FetchTaskPhase.noConfusion) fun _ => FetchTaskPhase.noConfusion⟩
  | fetches task url fetched htask hfetch =>
    refine ⟨fun hfailed => ?_, h.ends⟩
    obtain ⟨stored, fetchedByUrl, seq, hfollows⟩ := h.follows hfailed
    refine ⟨stored, fetchedByUrl, seq, hfollows.move htask rfl rfl rfl rfl rfl (fun fetched' hphase => ?_)
      (fun _ => FetchTaskPhase.noConfusion) fun _ => FetchTaskPhase.noConfusion⟩
    rw [hfetch, FetchTaskPhase.storing.inj hphase]
  | fetchFails task url htask hfetch =>
    refine ⟨fun hfailed => ?_, h.ends⟩
    obtain ⟨stored, fetchedByUrl, seq, hfollows⟩ := h.follows hfailed
    have hends : Ends fetch io urls start (.fetch url) := by
      refine hfollows.ends hpermitted htask rfl ?_
      unfold fetchRequestImage
      rw [hfetch]
    exact ⟨stored, fetchedByUrl, seq, hfollows.move htask rfl rfl rfl rfl rfl (fun _ => FetchTaskPhase.noConfusion)
      (fun error herror => Except.error.inj (FetchTaskPhase.finished.inj herror) ▸ hends) fun _ => FetchTaskPhase.noConfusion⟩
  | stores task url fetched htask result runtime hstore =>
    refine ⟨fun hfailed => ?_, h.ends⟩
    obtain ⟨stored, fetchedByUrl, seq, hfollows⟩ := h.follows hfailed
    rcases result with error | blob
    · exact ⟨stored, fetchedByUrl, seq, hfollows.storeFails hpermitted htask hstore⟩
    · obtain ⟨blob', seq', hnext⟩ := hfollows.stores hurls hpermitted htask hstore
      exact ⟨_, _, seq', hnext⟩
  | joins task url fetched hspawned hfailed htask =>
    obtain ⟨stored, fetchedByUrl, seq, hfollows⟩ := h.follows hfailed
    exact ⟨fun _ => ⟨stored, fetchedByUrl, seq, hfollows.joins hurls hpermitted htask⟩, h.ends⟩
  | fails task url error hspawned hfailed htask =>
    obtain ⟨stored, fetchedByUrl, seq, hfollows⟩ := h.follows hfailed
    refine ⟨fun hnone => absurd hnone (Option.some_ne_none error), fun error' herror => ?_⟩
    obtain rfl := Option.some.inj herror
    exact hfollows.errors _ (List.mem_of_getElem? htask) error rfl
  | aborts task url error phase hfailed htask hphase =>
    exact ⟨fun hnone => absurd (hfailed.symm.trans hnone) (Option.some_ne_none error), h.ends⟩

theorem refines_run (hurls : urls.Nodup) (start : BlobRuntime)
    (hrun : run (step fetch io) (init urls start) events = some tasks) : Refines fetch io urls start tasks := by
  induction events using List.reverseRecOn generalizing tasks with
  | nil =>
    obtain rfl := Option.some.inj hrun
    exact refines_init urls start
  | append_singleton events event ih =>
    rw [Transition.run_append] at hrun
    obtain ⟨before, hbefore, hlast⟩ := Option.bind_eq_some_iff.mp hrun
    obtain ⟨next, hnext, hend⟩ := Option.bind_eq_some_iff.mp hlast
    obtain rfl := Option.some.inj hend
    exact (ih hbefore).step hurls (permitted_run hurls start hbefore) hnext

/-! ## What the request returns -/

theorem buildReplacements_congr {fetchedByUrl fetchedByUrl' : List (String × FetchedBlob)} {refs : List RequestImageRef}
    (h : ∀ imageRef ∈ refs, fetchedByUrl.lookup imageRef.url = fetchedByUrl'.lookup imageRef.url) :
    buildReplacements fetchedByUrl refs = buildReplacements fetchedByUrl' refs := by
  unfold buildReplacements
  induction refs with
  | nil => rfl
  | cons imageRef refs ih =>
    rw [List.mapM_cons, List.mapM_cons, h imageRef List.mem_cons_self,
      ih fun other hother => h other (List.mem_cons_of_mem _ hother)]

/-- The tasks complete in a given order. -/
def inOrder {urls order : List String} (h : order.Perm urls) : CompletionOrder where
  arrange l := if l = urls then order else l
  perm l := by
    split
    · rename_i hl
      rw [hl]
      exact h
    · exact .refl l

theorem arrange_inOrder {order : List String} (h : order.Perm urls) : (inOrder h).arrange urls = order := if_pos rfl

/-- All tasks have been joined, so all have stored. -/
theorem Follows.perm_of_joined (h : Follows fetch io urls start tasks stored fetchedByUrl seq)
    (hpermitted : Permitted urls events tasks) (hjoined : tasks.Joined) : stored.Perm urls := by
  have hall : ∀ l : List RequestImageTask, (∀ task ∈ l, task.phase = .joined) → l.filterMap storedUrl = l.map RequestImageTask.url := by
    intro l hl
    rw [← List.filterMap_eq_map]
    apply List.filterMap_congr
    intro task htask
    rw [storedUrl, hl task htask]
    rfl
  have hurls : tasks.tasks.map RequestImageTask.url = urls := by
    rw [← hpermitted.spawned, hjoined.1, List.append_nil]
  have hstored := h.stored
  rwa [hall tasks.tasks hjoined.2, hurls] at hstored

/-- **In any order of their steps, the tasks of a request do what they do one after the other.** A run has few steps and
can only stop where the request returns, and what it returns is what it returns if the tasks run one after the other in
some order. -/
theorem fetchTasks_refines (fetch : String → Option FetchedImage) (io : String → WriteOutcome) {request : Value}
    {refs : List RequestImageRef} (hscan : scanRequestImageUrls request = .ok refs) (start : BlobRuntime)
    (hrun : run (step fetch io) (init (uniqueUrls refs []) start) events = some tasks) :
    events.length ≤ 5 * (uniqueUrls refs []).length ∧
      ((∀ event, tasks.step fetch io event = none) → ∃ result, tasks.Returns request refs result) ∧
      ∀ result, tasks.Returns request refs result →
        ∃ order, (materializeRequestImages fetch io order request start).2 = result := by
  have hurls := nodup_uniqueUrls refs []
  have hpermitted := permitted_run hurls start hrun
  have hrefines := refines_run hurls start hrun
  refine ⟨?_, fun hstuck => ?_, fun result hresult => ?_⟩
  · have hlength := length_run hrun
    have hinit : (init (uniqueUrls refs []) start).allStepsLeft = 5 * (uniqueUrls refs []).length := rfl
    omega
  · rcases hfailed : tasks.failed with _ | error
    · by_cases hjoined : tasks.Joined
      · exact ⟨_, .joined hfailed hjoined⟩
      · obtain ⟨event, hevent⟩ := hpermitted.progress hfailed hjoined fetch io
        rw [hstuck event] at hevent
        cases hevent
    · exact ⟨_, .failed error hfailed⟩
  · cases hresult with
    | failed error hfailed =>
      obtain ⟨order, hperm, hends⟩ := hrefines.ends error hfailed
      refine ⟨inOrder hperm, ?_⟩
      unfold materializeRequestImages
      rw [hscan]
      dsimp only
      rw [arrange_inOrder]
      rcases hjoin : joinFetches fetch io order [] start with ⟨fetches, error' | stored⟩
      · rw [hjoin] at hends
        exact congrArg _ (Except.error.inj hends)
      · rw [hjoin] at hends
        cases hends
    | joined hfailed hjoined =>
      obtain ⟨stored, fetchedByUrl, seq, hfollows⟩ := hrefines.follows hfailed
      have hperm := hfollows.perm_of_joined hpermitted hjoined
      obtain ⟨rfl, -, hlookup⟩ := hfollows.clean fun task htask error hphase => by
        cases (hjoined.2 task htask).symm.trans hphase
      refine ⟨inOrder hperm, ?_⟩
      unfold materializeRequestImages
      rw [hscan]
      dsimp only
      rw [arrange_inOrder, hfollows.run]
      dsimp only
      rw [buildReplacements_congr]
      intro imageRef href
      -- the URL of the reference is that of a task
      have hurl : imageRef.url ∈ uniqueUrls refs [] := mem_uniqueUrls.mpr ⟨List.mem_map_of_mem href, List.not_mem_nil⟩
      rw [← hpermitted.spawned, hjoined.1, List.append_nil] at hurl
      obtain ⟨task, htask, hsame⟩ := List.mem_map.mp hurl
      rw [← hsame]
      exact (hlookup task htask (hjoined.2 task htask)).symm

theorem fetchTasks_refines_example :
    ∃ tasks, run (step (fun _ => some ⟨"image/png", [1], false⟩) fun _ => .completed)
        (init (uniqueUrls twoImageRefs []) (BlobRuntime.new ⟨8, 8, 8, "/tmp"⟩ fun _ => none)) twoImageEvents = some tasks ∧
      twoImageEvents.length ≤ 5 * (uniqueUrls twoImageRefs []).length ∧
      ((∀ event, tasks.step (fun _ => some ⟨"image/png", [1], false⟩) (fun _ => .completed) event = none) →
        ∃ result, tasks.Returns twoImages twoImageRefs result) ∧
      ∀ result, tasks.Returns twoImages twoImageRefs result → ∃ order, (materializeRequestImages
        (fun _ => some ⟨"image/png", [1], false⟩) (fun _ => .completed) order twoImages
        (BlobRuntime.new ⟨8, 8, 8, "/tmp"⟩ fun _ => none)).2 = result := by
  have hscan : scanRequestImageUrls twoImages = .ok twoImageRefs := by decide +kernel
  obtain ⟨tasks, hrun⟩ : ∃ tasks, run (step (fun _ => some ⟨"image/png", [1], false⟩) fun _ => .completed)
      (init (uniqueUrls twoImageRefs []) (BlobRuntime.new ⟨8, 8, 8, "/tmp"⟩ fun _ => none)) twoImageEvents = some tasks := by
    rw [uniqueUrls_twoImages]
    exact ⟨_, rfl⟩
  exact ⟨tasks, hrun, fetchTasks_refines _ _ hscan _ hrun⟩

end FetchTasks

end GeminiWorker
