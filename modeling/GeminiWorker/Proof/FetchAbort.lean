import GeminiWorker.Proof.FetchWait

/-!
# Aborting a download that someone waits for

Without the background bridge the last waiter that leaves aborts the download and takes the task out of the
inflight map. A call that found the task before may register with it in between.

* `Stage`, `FetchState.number`: how many calls are about to register with a task, wait for it, or drop it.
* `joinsClean`: no call holds a task without being registered when its last waiter leaves, and none finds
  it while it is dropped.
* `AbortSafe`: what these conditions keep.
* `waiters_not_aborted`: then nobody waits for an aborted download.
-/

namespace GeminiWorker

open Transition (Reach sum_map_set le_sum_map)
open FetchState (setPhase setTask setMemory removeTask)

/-- What a call is to the task that it holds: not yet registered, registered, or the last one to drop it. -/
inductive Stage where
  | holding
  | waiting
  | dropping
deriving DecidableEq

def CallPhase.role : CallPhase → Option (Stage × ℕ)
  | .spawned t | .joined t => some (.holding, t)
  | .registered t | .checking t _ | .waiting t _ | .timedOut t | .woken t | .leaving t _ => some (.waiting, t)
  | .aborting t _ | .removing t _ => some (.dropping, t)
  | _ => none

namespace CallPhase

variable (t : ℕ) (outcome : FetchOutcome)

@[simp] theorem role_spawned : (spawned t).role = some (.holding, t) := rfl

@[simp] theorem role_joined : (joined t).role = some (.holding, t) := rfl

@[simp] theorem role_registered : (registered t).role = some (.waiting, t) := rfl

@[simp] theorem role_leaving : (leaving t outcome).role = some (.waiting, t) := rfl

@[simp] theorem role_aborting : (aborting t outcome).role = some (.dropping, t) := rfl

@[simp] theorem role_removing : (removing t outcome).role = some (.dropping, t) := rfl

@[simp] theorem role_ended (held : Option ℕ) : (ended held outcome).role = none := rfl

end CallPhase

/-- The number of calls that are this to task `t`. -/
def FetchState.number (s : FetchState) (stage : Stage) (t : ℕ) : ℕ :=
  (s.calls.map fun call => if call.phase.role = some (stage, t) then 1 else 0).sum

/-- A task that is dropped, and may yet be taken out of the inflight map. -/
def FetchState.Dropped (s : FetchState) (t : ℕ) : Prop :=
  0 < s.number .dropping t ∨ ∃ url, (url, t) ∈ s.helpers

/-- A task that no call holds. -/
def FetchState.Unmanned (s : FetchState) (t : ℕ) : Prop := s.number .holding t = 0 ∧ s.number .waiting t = 0

def FetchState.isUnpublished (s : FetchState) (t : ℕ) : Bool := s.tasks[t]?.any (·.result.isNone)

def FetchState.isDropped (s : FetchState) (t : ℕ) : Bool :=
  decide (0 < s.number .dropping t) || s.helpers.any (·.2 == t)

section

variable {Response : Type}

/-- The calls of a task come and go in turn: no call holds it without being registered when its last waiter
leaves, and no call finds it while it is dropped. A task with a result is past that. -/
def joinsClean (s : FetchState) : FetchEvent Response → Bool
  | .advance c =>
    match s.calls[c]? with
    | some ⟨_, .leaving t _⟩ =>
      !(s.isUnpublished t && s.tasks[t]?.any (·.waiterCount == 1)) || s.number .holding t == 0
    | some ⟨url, .lookup⟩ | some ⟨url, .insert⟩ =>
      (s.inflight.lookup url).all fun t => !(s.isUnpublished t && s.isDropped t)
    | _ => true
  | _ => true

variable {cfg : FetchConfig Response} {s s' : FetchState} {event : FetchEvent Response}

theorem isDropped_iff {t : ℕ} : s.isDropped t = true ↔ s.Dropped t := by
  unfold FetchState.isDropped FetchState.Dropped
  rw [Bool.or_eq_true, decide_eq_true_iff, List.any_eq_true]
  constructor
  · rintro (hnumber | ⟨⟨url, t'⟩, hmem, ht⟩)
    · exact .inl hnumber
    · obtain rfl : t' = t := by simpa using ht
      exact .inr ⟨url, hmem⟩
  · rintro (hnumber | ⟨url, hmem⟩)
    · exact .inl hnumber
    · exact .inr ⟨(url, t), hmem, beq_iff_eq.mpr rfl⟩

theorem isUnpublished_eq {t : ℕ} {task : FetchTask} (h : s.tasks[t]? = some task) (hresult : task.result = none) :
    s.isUnpublished t = true := by
  rw [FetchState.isUnpublished, h, Option.any_some, hresult]
  rfl

/-! ## Counting calls -/

theorem number_setPhase {c : ℕ} {call : Call} (hcall : s.calls[c]? = some call) (next : CallPhase) (stage : Stage) (t : ℕ) :
    (s.setPhase c call next).number stage t + (if call.phase.role = some (stage, t) then 1 else 0) =
      s.number stage t + if next.role = some (stage, t) then 1 else 0 :=
  sum_map_set (fun call : Call => if call.phase.role = some (stage, t) then 1 else 0) hcall { call with phase := next }

/-- The same for a call of which the role is known. -/
theorem number_moved {c : ℕ} {call : Call} (hcall : s.calls[c]? = some call) {role : Option (Stage × ℕ)}
    (hrole : call.phase.role = role) (next : CallPhase) (stage : Stage) (t : ℕ) :
    (s.setPhase c call next).number stage t + (if role = some (stage, t) then 1 else 0) =
      s.number stage t + if next.role = some (stage, t) then 1 else 0 := by
  rw [← hrole]
  exact number_setPhase hcall next stage t

theorem number_pos {c : ℕ} {call : Call} (hcall : s.calls[c]? = some call) {stage : Stage} {t : ℕ}
    (hrole : call.phase.role = some (stage, t)) : 0 < s.number stage t := by
  have hle := le_sum_map (fun call : Call => if call.phase.role = some (stage, t) then 1 else 0) hcall
  rw [if_pos hrole] at hle
  exact hle

theorem exists_of_number_pos {stage : Stage} {t : ℕ} (h : 0 < s.number stage t) :
    ∃ call ∈ s.calls, call.phase.role = some (stage, t) := by
  unfold FetchState.number at h
  obtain ⟨n, hn, hpos⟩ := List.sum_pos_iff_exists_pos_nat.mp h
  obtain ⟨call, hcall, rfl⟩ := List.mem_map.mp hn
  by_cases hrole : call.phase.role = some (stage, t)
  · exact ⟨call, hcall, hrole⟩
  · rw [if_neg hrole] at hpos
    exact absurd hpos (Nat.lt_irrefl 0)

theorem task_of_role {phase : CallPhase} {stage : Stage} {t : ℕ} (h : phase.role = some (stage, t)) :
    phase.task = some t := by
  cases phase with
  | memory | disk | diskHit | lookup | insert | direct | storingMemory | storingDisk | ended => cases h
  | spawned | joined | registered | checking | waiting | timedOut | woken | leaving | aborting | removing =>
    obtain ⟨-, rfl⟩ := Prod.mk.inj (Option.some.inj h)
    rfl

/-- A task that is not there is held by no call. -/
theorem number_eq_zero (hsound : Sound s) {t : ℕ} (ht : s.tasks[t]? = none) (stage : Stage) : s.number stage t = 0 := by
  by_contra hne
  obtain ⟨call, hcall, hrole⟩ := exists_of_number_pos (Nat.pos_of_ne_zero hne)
  obtain ⟨task, htask, -⟩ := hsound.calls call hcall t (task_of_role hrole)
  rw [ht] at htask
  cases htask

theorem PhaseStep.role {c : ℕ} {url : String} {phase next : CallPhase} (h : PhaseStep cfg s c url event phase next) :
    next.role = phase.role := by
  cases h with
  | memoryMiss | noDisk | diskFailed | diskFound | diskMiss | absent | full | fetched | failed | stored | notified
  | unpublished | gaveUp | withoutResult | wake | waitTimeout => rfl
  | published htask hresult hphase => rcases hphase with ⟨seen, rfl⟩ | rfl | rfl <;> rfl
  | cancel hcancel =>
    cases phase with
    | spawned | joined | registered | leaving | aborting | removing | ended => cases hcancel
    | memory | disk | diskHit | lookup | insert | direct | storingMemory | storingDisk | checking | waiting | timedOut
    | woken =>
      obtain rfl := Option.some.inj hcancel
      rfl

theorem number_setPhase_same {c : ℕ} {call : Call} (hcall : s.calls[c]? = some call) {next : CallPhase}
    (hrole : next.role = call.phase.role) (stage : Stage) (t : ℕ) :
    (s.setPhase c call next).number stage t = s.number stage t := by
  have hnumber := number_setPhase hcall next stage t
  rw [hrole] at hnumber
  omega

/-! ## Dropped and aborted downloads -/

/-- What holds of a task. -/
structure AbortSafeAt (s : FetchState) (t : ℕ) (task : FetchTask) : Prop where
  counted : task.waiterCount = s.number .waiting t
  dropped : task.result = none → s.Dropped t → s.Unmanned t
  aborted : task.result = none → task.aborted = true →
    s.Unmanned t ∧ (s.Dropped t ∨ ∀ url, (url, t) ∉ s.inflight)

def AbortSafe (s : FetchState) : Prop := ∀ (t : ℕ) (task : FetchTask), s.tasks[t]? = some task → AbortSafeAt s t task

/-- What a step keeps of a task whose calls stay what they are. -/
theorem AbortSafeAt.frame {t : ℕ} {task task' : FetchTask} (h : AbortSafeAt s t task)
    (hnumber : ∀ stage, s'.number stage t = s.number stage t)
    (hhelpers : ∀ url, (url, t) ∈ s'.helpers ↔ (url, t) ∈ s.helpers)
    (hinflight : ∀ url, (url, t) ∈ s'.inflight → (url, t) ∈ s.inflight)
    (hcount : task'.waiterCount = task.waiterCount) (hresult : task'.result = none → task.result = none)
    (haborted : task'.aborted = task.aborted) : AbortSafeAt s' t task' := by
  have hdropped : s'.Dropped t ↔ s.Dropped t := by
    unfold FetchState.Dropped
    simp only [hnumber, hhelpers]
  have hunmanned : s.Unmanned t → s'.Unmanned t := fun hunman =>
    ⟨by rw [hnumber, hunman.1], by rw [hnumber, hunman.2]⟩
  refine ⟨?_, ?_, ?_⟩
  · rw [hcount, hnumber, h.counted]
  · intro hnone hdrop
    exact hunmanned (h.dropped (hresult hnone) (hdropped.mp hdrop))
  · intro hnone habort
    obtain ⟨hunman, hrest⟩ := h.aborted (hresult hnone) (haborted ▸ habort)
    refine ⟨hunmanned hunman, ?_⟩
    rcases hrest with hdrop | hout
    · exact .inl (hdropped.mpr hdrop)
    · exact .inr fun url hmem => hout url (hinflight url hmem)

/-- A step that changes no task. -/
theorem AbortSafe.frame (h : AbortSafe s) (hnumber : ∀ stage t, s'.number stage t = s.number stage t)
    (hhelpers : s'.helpers = s.helpers) (hinflight : s'.inflight.Sublist s.inflight) (htasks : s'.tasks = s.tasks) :
    AbortSafe s' := by
  intro t task htask
  rw [htasks] at htask
  refine (h t task htask).frame (fun stage => hnumber stage t) (fun url => ?_) (fun url hmem => hinflight.subset hmem)
    rfl id rfl
  rw [hhelpers]

/-- A step of the spawned part. -/
theorem AbortSafe.setTask (h : AbortSafe s) {t : ℕ} {old next : FetchTask} (hold : s.tasks[t]? = some old)
    (hcount : next.waiterCount = old.waiterCount) (hresult : next.result = none → old.result = none)
    (haborted : next.aborted = old.aborted) : AbortSafe (s.setTask t next) := by
  intro t' task htask
  rcases tasks_setTask htask with ⟨rfl, rfl⟩ | ⟨-, htask⟩
  · exact (h _ old hold).frame (fun _ => rfl) (fun _ => Iff.rfl) (fun _ hmem => hmem) hcount hresult haborted
  · exact (h t' task htask).frame (fun _ => rfl) (fun _ => Iff.rfl) (fun _ hmem => hmem) rfl id rfl

/-- The calls of the other tasks are as before. -/
theorem number_setPhase_of_ne {c : ℕ} {call : Call} (hcall : s.calls[c]? = some call) {next : CallPhase} {stage : Stage}
    {t : ℕ} (hold : call.phase.role ≠ some (stage, t)) (hnext : next.role ≠ some (stage, t)) :
    (s.setPhase c call next).number stage t = s.number stage t := by
  have hnumber := number_setPhase hcall next stage t
  rw [if_neg hold, if_neg hnext] at hnumber
  omega

theorem role_task {stage stage' : Stage} {t t' : ℕ} (h : some (stage, t) = some (stage', t')) : t' = t :=
  (Prod.mk.inj (Option.some.inj h)).2.symm

/-- A step of a call that changes what it is to one task `t`. -/
theorem AbortSafe.ofTask (h : AbortSafe s) {c : ℕ} {call : Call} (hcall : s.calls[c]? = some call) {next : CallPhase}
    {t : ℕ} (hcalls : s'.calls = s.calls.set c { call with phase := next })
    (hold : ∀ stage t', call.phase.role = some (stage, t') → t' = t)
    (hnext : ∀ stage t', next.role = some (stage, t') → t' = t)
    (hhelpers : ∀ url t', t' ≠ t → ((url, t') ∈ s'.helpers ↔ (url, t') ∈ s.helpers))
    (hinflight : ∀ url t', t' ≠ t → (url, t') ∈ s'.inflight → (url, t') ∈ s.inflight)
    (htasks : ∀ t' task, t' ≠ t → s'.tasks[t']? = some task → s.tasks[t']? = some task)
    (hself : ∀ task, s'.tasks[t]? = some task → AbortSafeAt s' t task) : AbortSafe s' := by
  intro t' task htask
  by_cases ht : t' = t
  · subst ht
    exact hself task htask
  · refine (h t' task (htasks t' task ht htask)).frame (fun stage => ?_) (fun url => hhelpers url t' ht)
      (fun url hmem => hinflight url t' ht hmem) rfl id rfl
    have hnumber : s'.number stage t' = (s.setPhase c call next).number stage t' := by
      unfold FetchState.number FetchState.setPhase
      rw [hcalls]
    rw [hnumber]
    exact number_setPhase_of_ne hcall (fun hrole => ht (hold stage t' hrole)) (fun hrole => ht (hnext stage t' hrole))

/-- A step of a call that writes to the task that it has to do with. -/
theorem AbortSafe.ofSetTask (h : AbortSafe s) {c : ℕ} {call : Call} (hcall : s.calls[c]? = some call) {next : CallPhase}
    {stage : Stage} {t : ℕ} (hrole : call.phase.role = some (stage, t)) {task task' : FetchTask}
    (htask : s.tasks[t]? = some task) (hnext : ∀ stage t', next.role = some (stage, t') → t' = t)
    (hself : AbortSafeAt ((s.setTask t task').setPhase c call next) t task') :
    AbortSafe ((s.setTask t task').setPhase c call next) := by
  refine h.ofTask hcall rfl (fun stage t' h => role_task (hrole.symm.trans h)) hnext (fun _ _ _ => Iff.rfl)
    (fun _ _ _ hmem => hmem) (fun t'' task'' ht htask'' => ?_) fun task'' htask'' => ?_
  · exact (tasks_setTask_of_ne ht _).symm.trans htask''
  · obtain rfl := Option.some.inj ((tasks_setTask_self htask).symm.trans htask'')
    exact hself

/-- A task that a call has held or waited for is neither dropped nor aborted. -/
theorem AbortSafeAt.manned {t : ℕ} {task task' : FetchTask} (h : AbortSafeAt s t task) (hmanned : ¬ s.Unmanned t)
    (hcounted : task'.waiterCount = s'.number .waiting t) (hdropped : s'.Dropped t → s.Dropped t)
    (hresult : task'.result = task.result) (haborted : task'.aborted = task.aborted) : AbortSafeAt s' t task' := by
  refine ⟨hcounted, fun hnone hdrop => ?_, fun hnone habort => ?_⟩
  · exact absurd (h.dropped (hresult ▸ hnone) (hdropped hdrop)) hmanned
  · exact absurd (h.aborted (hresult ▸ hnone) (haborted ▸ habort)).1 hmanned

theorem number_removeTask (url : String) (t : ℕ) (stage : Stage) (t' : ℕ) :
    (s.removeTask url t).number stage t' = s.number stage t' := by
  unfold FetchState.number
  rw [removeTask_calls]

/-- What is taken out of the inflight map is out. -/
theorem notMem_removeTask (hsound : Sound s) {url : String} {t : ℕ} (hhas : s.Has url t) (url' : String) :
    (url', t) ∉ (s.removeTask url t).inflight := by
  intro hmem
  have hbefore : (url', t) ∈ s.inflight := (removeTask_sublist url t).subset hmem
  obtain ⟨task, htask, hurl⟩ := hhas
  obtain ⟨task', htask', hurl'⟩ := hsound.entries url' t hbefore
  obtain rfl := Option.some.inj (htask.symm.trans htask')
  obtain rfl : url = url' := hurl.symm.trans hurl'
  unfold FetchState.removeTask at hmem
  rw [if_pos ((Assoc.lookup_eq_some_iff_mem hsound.distinct).mpr hbefore)] at hmem
  exact (Assoc.mem_others.mp hmem).2 rfl

theorem mem_helpers_eraseIdx {index : ℕ} {e e' : String × ℕ} (h : s.helpers[index]? = some e) (hne : e' ≠ e) :
    e' ∈ s.helpers.eraseIdx index ↔ e' ∈ s.helpers := by
  have hperm := Transition.perm_cons_eraseIdx h
  rw [hperm.mem_iff, List.mem_cons]
  constructor
  · exact .inr
  · rintro (heq | hmem)
    · exact absurd heq hne
    · exact hmem

theorem SpawnedStep.keeps {t : ℕ} {task next : FetchTask} (h : SpawnedStep cfg t task event next) :
    next.waiterCount = task.waiterCount ∧ (next.result = none → task.result = none) ∧ next.aborted = task.aborted := by
  cases h with
  | poll | suspend | response | notify | stored => exact ⟨rfl, id, rfl⟩
  | publish => exact ⟨rfl, fun hnone => (by cases hnone), rfl⟩

theorem clean_join {c : ℕ} {call : Call} {t : ℕ} (hcall : s.calls[c]? = some call)
    (hphase : call.phase = .lookup ∨ call.phase = .insert) (hfound : s.inflight.lookup call.url = some t)
    (hclean : joinsClean s (.advance c : FetchEvent Response) = true) (hunpublished : s.isUnpublished t = true) :
    ¬ s.Dropped t := by
  have hall : (s.inflight.lookup call.url).all (fun t => !(s.isUnpublished t && s.isDropped t)) = true := by
    obtain ⟨url, phase⟩ := call
    rw [joinsClean, hcall] at hclean
    rcases hphase with hphase | hphase
    · obtain rfl : phase = .lookup := hphase
      exact hclean
    · obtain rfl : phase = .insert := hphase
      exact hclean
  rw [hfound, Option.all_some, hunpublished, Bool.true_and] at hall
  intro hdrop
  rw [isDropped_iff.mpr hdrop] at hall
  cases hall

theorem clean_leave {c : ℕ} {call : Call} {t : ℕ} {task : FetchTask} {outcome : FetchOutcome}
    (hcall : s.calls[c]? = some call) (hphase : call.phase = .leaving t outcome) (htask : s.tasks[t]? = some task)
    (hlast : task.waiterCount = 1) (hclean : joinsClean s (.advance c : FetchEvent Response) = true)
    (hresult : task.result = none) : s.number .holding t = 0 := by
  obtain ⟨url, phase⟩ := call
  obtain rfl : phase = .leaving t outcome := hphase
  rw [joinsClean, hcall] at hclean
  dsimp only at hclean
  rw [isUnpublished_eq htask hresult, htask, Option.any_some, hlast] at hclean
  simpa using hclean

/-- **A clean step keeps every task safe.** -/
theorem Moved.abortSafe (h : Moved cfg s event s') (hsound : Sound s) (hclean : joinsClean s event = true)
    (hsafe : AbortSafe s) : AbortSafe s' := by
  cases h with
  | fetch url =>
    refine hsafe.frame (fun stage t => ?_) rfl (List.Sublist.refl _) rfl
    unfold FetchState.number
    rw [List.map_append, List.sum_append]
    rfl
  | phase hcall hstep =>
    exact hsafe.frame (number_setPhase_same hcall hstep.role) rfl (List.Sublist.refl _) rfl
  | @memoryHit c call hit cache hcall hphase hget =>
    exact hsafe.frame (@number_setPhase_same { s with memoryCache := some cache } c call hcall _ (by rw [hphase]; rfl))
      rfl (List.Sublist.refl _) rfl
  | @keepDiskHit c call hit hcall hphase =>
    exact hsafe.frame (@number_setPhase_same (s.setMemory call.url hit) c call hcall _ (by rw [hphase]; rfl))
      rfl (List.Sublist.refl _) rfl
  | @storeMemory c call cached hcall hphase =>
    exact hsafe.frame (@number_setPhase_same (s.setMemory call.url cached) c call hcall _ (by rw [hphase]; rfl))
      rfl (List.Sublist.refl _) rfl
  | task htask hstep =>
    obtain ⟨hcount, hresult, haborted⟩ := hstep.keeps
    exact hsafe.setTask htask hcount hresult haborted
  | @remove t task result htask hpolling hphase =>
    have hout : AbortSafe { s with inflight := Assoc.others task.url s.inflight } :=
      hsafe.frame (fun _ _ => rfl) rfl List.filter_sublist rfl
    exact hout.setTask htask rfl id rfl
  | @storeTaskMemory t task hit htask hpolling hphase =>
    have hstored : AbortSafe (s.setMemory task.url hit) := hsafe.frame (fun _ _ => rfl) rfl (List.Sublist.refl _) rfl
    exact hstored.setTask htask rfl id rfl
  | @join c call t hcall hphase hfound =>
    have hrole : call.phase.role = none := by
      rcases hphase with hphase | hphase
      · rw [hphase]
        rfl
      · rw [hphase]
        rfl
    refine hsafe.ofTask hcall rfl (fun stage t' h => by rw [hrole] at h; cases h)
      (fun stage t' h => role_task h) (fun _ _ _ => Iff.rfl) (fun _ _ _ hmem => hmem)
      (fun _ _ _ htask => htask) fun task htask => ?_
    have hat := hsafe t task htask
    have hwaiting : (s.setPhase c call (.joined t)).number .waiting t = s.number .waiting t := by
      simpa using number_moved hcall hrole (.joined t) .waiting t
    have hdropping : (s.setPhase c call (.joined t)).number .dropping t = s.number .dropping t := by
      simpa using number_moved hcall hrole (.joined t) .dropping t
    -- an unpublished task that is found is neither dropped nor aborted
    have hnot : task.result = none → ¬ s.Dropped t := fun hnone =>
      clean_join hcall hphase hfound hclean (isUnpublished_eq htask hnone)
    have hdropped : (s.setPhase c call (.joined t)).Dropped t → s.Dropped t := by
      rintro (hnumber | hhelper)
      · exact .inl (hdropping ▸ hnumber)
      · exact .inr hhelper
    refine ⟨by rw [hat.counted, hwaiting], ?_, ?_⟩
    · intro hnone hdrop
      exact absurd (hdropped hdrop) (hnot hnone)
    · intro hnone habort
      rcases (hat.aborted hnone habort).2 with hdrop | hout
      · exact absurd hdrop (hnot hnone)
      · exact absurd (mem_of_lookup hfound) (hout call.url)
  | @insert c call hcall hphase habsent hroom =>
    have hrole : call.phase.role = none := by rw [hphase]; rfl
    have hfresh : s.tasks[s.tasks.length]? = none := List.getElem?_eq_none le_rfl
    refine hsafe.ofTask hcall rfl (fun stage t' h => by rw [hrole] at h; cases h)
      (fun stage t' h => role_task h) (fun _ _ _ => Iff.rfl) (fun url t' ht hmem => ?_)
      (fun t' task ht htask => ?_) fun task htask => ?_
    · rcases List.mem_cons.mp hmem with heq | hmem
      · exact absurd (Prod.mk.inj heq).2 ht
      · exact hmem
    · rcases tasks_append htask with hold | ⟨rfl, -⟩
      · exact hold
      · exact absurd rfl ht
    · have hnew : task = FetchTask.new call.url := by
        rcases tasks_append htask with hold | ⟨-, rfl⟩
        · rw [hfresh] at hold
          cases hold
        · rfl
      subst hnew
      have hwaiting : (s.setPhase c call (.spawned s.tasks.length)).number .waiting s.tasks.length =
          s.number .waiting s.tasks.length := by
        simpa using number_moved hcall hrole (.spawned s.tasks.length) .waiting s.tasks.length
      have hdropping : (s.setPhase c call (.spawned s.tasks.length)).number .dropping s.tasks.length =
          s.number .dropping s.tasks.length := by
        simpa using number_moved hcall hrole (.spawned s.tasks.length) .dropping s.tasks.length
      refine ⟨?_, fun hnone hdrop => ?_, fun hnone habort => (by cases habort)⟩
      · show 0 = (s.setPhase c call (.spawned s.tasks.length)).number .waiting s.tasks.length
        rw [hwaiting, number_eq_zero hsound hfresh]
      · rcases hdrop with hnumber | ⟨url, hmem⟩
        · have hpos : 0 < (s.setPhase c call (.spawned s.tasks.length)).number .dropping s.tasks.length := hnumber
          rw [hdropping, number_eq_zero hsound hfresh] at hpos
          exact absurd hpos (Nat.lt_irrefl 0)
        · obtain ⟨task, htask, -⟩ := hsound.helpers url _ hmem
          rw [hfresh] at htask
          cases htask
  | @storeHandle c call t task hcall hphase htask =>
    have hstored : AbortSafe (s.setTask t { task with abortHandle := true }) := hsafe.setTask htask rfl id rfl
    exact hstored.frame (@number_setPhase_same (s.setTask t _) c call hcall _ (by rw [hphase]; rfl)) rfl
      (List.Sublist.refl _) rfl
  | @register c call t task hcall hphase htask =>
    have hrole : call.phase.role = some (.holding, t) := by rw [hphase]; rfl
    have hat := hsafe t task htask
    have hholding := number_pos hcall hrole
    have hwaiting : (s.setPhase c call (.registered t)).number .waiting t = s.number .waiting t + 1 := by
      simpa using number_moved hcall hrole (.registered t) .waiting t
    have hdropping : (s.setPhase c call (.registered t)).number .dropping t = s.number .dropping t := by
      simpa using number_moved hcall hrole (.registered t) .dropping t
    -- the call itself held the task
    have hmanned : ¬ s.Unmanned t := fun hunman => Nat.ne_of_gt hholding hunman.1
    refine hsafe.ofSetTask hcall hrole htask (fun stage t' h => role_task h) (hat.manned hmanned ?_ ?_ rfl rfl)
    · show task.waiterCount + 1 = (s.setPhase c call (.registered t)).number .waiting t
      rw [hwaiting, hat.counted]
    · rintro (hnumber | hhelper)
      · exact .inl (hdropping ▸ hnumber)
      · exact .inr hhelper
  | @leave c call t task outcome hcall hphase htask hstays =>
    have hrole : call.phase.role = some (.waiting, t) := by rw [hphase]; rfl
    have hat := hsafe t task htask
    have hpos := number_pos hcall hrole
    have hwaiting : (s.setPhase c call (.ended (some t) outcome)).number .waiting t + 1 = s.number .waiting t := by
      simpa using number_moved hcall hrole (.ended (some t) outcome) .waiting t
    have hdropping : (s.setPhase c call (.ended (some t) outcome)).number .dropping t = s.number .dropping t := by
      simpa using number_moved hcall hrole (.ended (some t) outcome) .dropping t
    have hmanned : ¬ s.Unmanned t := fun hunman => Nat.ne_of_gt hpos hunman.2
    have hcounted := hat.counted
    refine hsafe.ofSetTask hcall hrole htask (fun stage t' h => by cases h) (hat.manned hmanned ?_ ?_ rfl rfl)
    · show task.waiterCount - 1 = (s.setPhase c call (.ended (some t) outcome)).number .waiting t
      omega
    · rintro (hnumber | hhelper)
      · exact .inl (hdropping ▸ hnumber)
      · exact .inr hhelper
  | @leaveLast c call t task outcome hcall hphase htask hlast hbridge =>
    have hrole : call.phase.role = some (.waiting, t) := by rw [hphase]; rfl
    have hat := hsafe t task htask
    have hpos := number_pos hcall hrole
    have hwaiting : (s.setPhase c call (.aborting t outcome)).number .waiting t + 1 = s.number .waiting t := by
      simpa using number_moved hcall hrole (.aborting t outcome) .waiting t
    have hholding : (s.setPhase c call (.aborting t outcome)).number .holding t = s.number .holding t := by
      simpa using number_moved hcall hrole (.aborting t outcome) .holding t
    have hcounted := hat.counted
    refine hsafe.ofSetTask hcall hrole htask (fun stage t' h => role_task h)
      ⟨?_, fun hnone hdrop => ⟨?_, ?_⟩, fun hnone habort => ?_⟩
    · show task.waiterCount - 1 = (s.setPhase c call (.aborting t outcome)).number .waiting t
      omega
    · -- nobody holds it unregistered, and this was the last waiter
      show (s.setPhase c call (.aborting t outcome)).number .holding t = 0
      rw [hholding, clean_leave hcall hphase htask hlast hclean hnone]
    · show (s.setPhase c call (.aborting t outcome)).number .waiting t = 0
      omega
    · exact absurd (hat.aborted hnone habort).1.2 (Nat.ne_of_gt hpos)
  | @abort c call t task outcome hcall hphase htask =>
    have hrole : call.phase.role = some (.dropping, t) := by rw [hphase]; rfl
    have hat := hsafe t task htask
    have hpos := number_pos hcall hrole
    have hsame := @number_setPhase_same s c call hcall (.removing t outcome) hrole.symm
    have hunmanned : task.result = none → (s.setPhase c call (.removing t outcome)).Unmanned t := by
      intro hnone
      have hbefore := hat.dropped hnone (.inl hpos)
      exact ⟨(hsame _ _).trans hbefore.1, (hsame _ _).trans hbefore.2⟩
    refine hsafe.ofSetTask hcall hrole htask (fun stage t' h => role_task h)
      ⟨hat.counted.trans (hsame _ _).symm, fun hnone _ => hunmanned hnone, fun hnone _ => ⟨hunmanned hnone, ?_⟩⟩
    exact .inl (.inl (lt_of_lt_of_eq hpos (hsame _ _).symm))
  | @locked c call t outcome hcall hphase =>
    have hrole : call.phase.role = some (.dropping, t) := by rw [hphase]; rfl
    have hpos := number_pos hcall hrole
    have hmoved : ∀ stage, ((s.removeTask call.url t).setPhase c call (.ended (some t) outcome)).number stage t =
        (s.setPhase c call (.ended (some t) outcome)).number stage t := by
      intro stage
      unfold FetchState.number FetchState.setPhase
      rw [removeTask_calls]
    have hholding : (s.setPhase c call (.ended (some t) outcome)).number .holding t = s.number .holding t := by
      simpa using number_moved hcall hrole (.ended (some t) outcome) .holding t
    have hwaiting : (s.setPhase c call (.ended (some t) outcome)).number .waiting t = s.number .waiting t := by
      simpa using number_moved hcall hrole (.ended (some t) outcome) .waiting t
    have hcalls : ((s.removeTask call.url t).setPhase c call (.ended (some t) outcome)).calls =
        s.calls.set c { call with phase := .ended (some t) outcome } := by
      unfold FetchState.setPhase
      rw [removeTask_calls]
    refine hsafe.ofTask hcall hcalls (fun stage t' h => role_task (hrole.symm.trans h)) (fun stage t' h => by cases h)
      (fun url t' _ => ?_) (fun url t' _ hmem => (removeTask_sublist call.url t).subset hmem)
      (fun t' task' _ htask' => ?_) fun task htask => ?_
    · show (url, t') ∈ (s.removeTask call.url t).helpers ↔ _
      rw [removeTask_helpers]
    · have hold : (s.removeTask call.url t).tasks[t']? = some task' := htask'
      rwa [removeTask_tasks] at hold
    · have hold : (s.removeTask call.url t).tasks[t]? = some task := htask
      rw [removeTask_tasks] at hold
      have hat := hsafe t task hold
      have hhas : s.Has call.url t := by
        obtain ⟨task', htask', hurl, -⟩ := hsound.calls call (List.mem_of_getElem? hcall) t (task_of_role hrole)
        exact ⟨task', htask', hurl⟩
      have hunmanned : s.Unmanned t →
          ((s.removeTask call.url t).setPhase c call (.ended (some t) outcome)).Unmanned t := fun hunman =>
        ⟨by rw [hmoved, hholding, hunman.1], by rw [hmoved, hwaiting, hunman.2]⟩
      refine ⟨by rw [hmoved, hwaiting, hat.counted], fun hnone _ => hunmanned (hat.dropped hnone (.inl hpos)),
        fun hnone _ => ⟨hunmanned (hat.dropped hnone (.inl hpos)), .inr fun url => ?_⟩⟩
      exact notMem_removeTask hsound hhas url
  | @contended c call t outcome hcall hphase =>
    have hrole : call.phase.role = some (.dropping, t) := by rw [hphase]; rfl
    have hpos := number_pos hcall hrole
    have hholding : (s.setPhase c call (.ended (some t) outcome)).number .holding t = s.number .holding t := by
      simpa using number_moved hcall hrole (.ended (some t) outcome) .holding t
    have hwaiting : (s.setPhase c call (.ended (some t) outcome)).number .waiting t = s.number .waiting t := by
      simpa using number_moved hcall hrole (.ended (some t) outcome) .waiting t
    refine hsafe.ofTask hcall rfl (fun stage t' h => role_task (hrole.symm.trans h)) (fun stage t' h => by cases h)
      (fun url t' ht => ?_) (fun _ _ _ hmem => hmem) (fun _ _ _ htask' => htask') fun task htask => ?_
    · show (url, t') ∈ s.helpers ++ [(call.url, t)] ↔ _
      rw [List.mem_append, List.mem_singleton]
      constructor
      · rintro (hmem | heq)
        · exact hmem
        · exact absurd (Prod.mk.inj heq).2 ht
      · exact .inl
    · have hat := hsafe t task htask
      have hunmanned : task.result = none → (s.setPhase c call (.ended (some t) outcome)).Unmanned t := by
        intro hnone
        have hbefore := hat.dropped hnone (.inl hpos)
        exact ⟨hholding.trans hbefore.1, hwaiting.trans hbefore.2⟩
      refine ⟨hat.counted.trans hwaiting.symm, fun hnone _ => hunmanned hnone, fun hnone _ => ⟨hunmanned hnone, ?_⟩⟩
      exact .inl (.inr ⟨call.url, List.mem_append_right _ (List.mem_singleton_self _)⟩)
  | @helper index url t hhelper =>
    intro t' task' htask'
    have hold : (s.removeTask url t).tasks[t']? = some task' := htask'
    rw [removeTask_tasks] at hold
    have hat := hsafe t' task' hold
    have hnumber : ∀ stage, ({ s.removeTask url t with helpers := s.helpers.eraseIdx index } : FetchState).number stage t' =
        s.number stage t' := fun stage => number_removeTask url t stage t'
    by_cases ht : t' = t
    · subst ht
      have hdropped : s.Dropped t' := .inr ⟨url, List.mem_of_getElem? hhelper⟩
      have hunmanned : task'.result = none →
          ({ s.removeTask url t' with helpers := s.helpers.eraseIdx index } : FetchState).Unmanned t' := by
        intro hnone
        have hbefore := hat.dropped hnone hdropped
        exact ⟨(hnumber _).trans hbefore.1, (hnumber _).trans hbefore.2⟩
      refine ⟨hat.counted.trans (hnumber _).symm, fun hnone _ => hunmanned hnone, fun hnone _ => ⟨hunmanned hnone,
        .inr fun url' => ?_⟩⟩
      exact notMem_removeTask hsound (hsound.helpers url t' (List.mem_of_getElem? hhelper)) url'
    · refine hat.frame hnumber (fun url' => ?_) (fun url' hmem => (removeTask_sublist url t).subset hmem) rfl id rfl
      exact mem_helpers_eraseIdx hhelper fun heq => ht (Prod.mk.inj heq).2

theorem abortSafe_init (memoryCache : Option MemoryCache) : AbortSafe (.init memoryCache) := by
  intro t task htask
  cases htask

/-- No call is registered as a waiter of an aborted download that has no result. -/
def NoWaiterAborted (s : FetchState) : Prop :=
  ∀ call ∈ s.calls, ∀ (t : ℕ) (task : FetchTask), call.phase.role = some (.waiting, t) → s.tasks[t]? = some task →
    task.result = none → task.aborted = false

/-- **Nobody waits for an aborted download** in a run of clean steps. -/
theorem waiters_not_aborted {memoryCache : Option MemoryCache}
    (hreach : Reach (FetchState.step cfg) (fun s event => joinsClean s event = true) (.init memoryCache) s) :
    NoWaiterAborted s := by
  have hsafe : Sound s ∧ AbortSafe s := by
    induction hreach with
    | refl => exact ⟨sound_init memoryCache, abortSafe_init memoryCache⟩
    | tail _ hclean hnext ih =>
      obtain ⟨hsound, hsafe⟩ := ih
      exact ⟨(step_moved hnext).sound hsound, (step_moved hnext).abortSafe hsound hclean hsafe⟩
  intro call hcall t task hrole htask hresult
  obtain ⟨c, hc⟩ := List.getElem?_of_mem hcall
  by_contra habort
  have hunmanned := ((hsafe.2 t task htask).aborted hresult (by simpa using habort)).1
  exact absurd hunmanned.2 (Nat.ne_of_gt (number_pos hc hrole))

end

/-- A call is cancelled as the last waiter and aborts its download; another one begins its own. -/
def cleanRun : List (FetchEvent Published) :=
  [.fetch "u", .fetch "u"] ++ List.replicate 8 (.advance 0) ++ [.cancel 0, .advance 0, .advance 0, .tryLock 0 true] ++
    List.replicate 8 (.advance 1)

theorem waiters_not_aborted_example : ∃ s,
    Transition.runMeeting (FetchState.step (plainConfig false 1)) (fun s event => joinsClean s event = true) (.init none)
      cleanRun = some s ∧ s.calls.map (·.phase) = [.ended (some 0) .cancelled, .waiting 1 0] ∧ NoWaiterAborted s := by
  have hphases : (Transition.runMeeting (FetchState.step (plainConfig false 1))
      (fun s event => joinsClean s event = true) (.init none) cleanRun).map (fun s => s.calls.map (·.phase)) =
      some [.ended (some 0) .cancelled, .waiting 1 0] := by
    decide +kernel
  obtain ⟨s, hrun, hphase⟩ := Option.map_eq_some_iff.mp hphases
  exact ⟨s, hrun, hphase, waiters_not_aborted (Transition.runMeeting_reach hrun)⟩

/-- The second call finds the task before the first one, its only waiter, is cancelled. -/
def lateRun : List (FetchEvent Published) :=
  [.fetch "u", .fetch "u"] ++ List.replicate 8 (.advance 0) ++ List.replicate 3 (.advance 1) ++
    [.cancel 0, .advance 0, .advance 0, .tryLock 0 true] ++ List.replicate 3 (.advance 1)

/-- It waits for the download that the first one aborted. -/
theorem lateWaiter_aborted : ¬ ∀ s,
    Reach (FetchState.step (plainConfig false 1)) Transition.Any (.init none) s → NoWaiterAborted s := by
  intro h
  have hstates : (Transition.run (FetchState.step (plainConfig false 1)) (.init none) lateRun).map
      (fun s => (s.calls, s.tasks.map fun task => (task.result, task.aborted))) =
      some ([⟨"u", .ended (some 0) .cancelled⟩, ⟨"u", .waiting 0 0⟩], [(none, true)]) := by
    decide +kernel
  obtain ⟨s, hrun, hstate⟩ := Option.map_eq_some_iff.mp hstates
  obtain ⟨hcalls, htasks⟩ := Prod.mk.inj hstate
  have htask : s.tasks[0]?.map (fun task => (task.result, task.aborted)) = some (none, true) := by
    rw [← List.getElem?_map, htasks]
    rfl
  obtain ⟨task, htask, hfields⟩ := Option.map_eq_some_iff.mp htask
  obtain ⟨hresult, haborted⟩ := Prod.mk.inj hfields
  have hsafe := h s (Transition.run_reach hrun) ⟨"u", .waiting 0 0⟩ (by rw [hcalls]; decide) 0 task rfl htask hresult
  rw [haborted] at hsafe
  cases hsafe

end GeminiWorker
