import GeminiWorker.Proof.FetchWait
import GeminiWorker.Proof.MemoryCache

/-!
# Fetching again what was fetched

A task publishes its image, leaves the inflight map and stores the image in the memory cache, in this order.
A call that looks in the cache before the last step and in the map after the second one finds nothing.

* `StillStores`: the image is in the memory cache, or its task has yet to store it.
* `handedOver`: until then no later call falls in between, and nothing else is stored under the URL.
* `Reusable`: what such steps keep.
* `fetch_reused`: then no later call downloads again, and each returns the same bytes.
-/

namespace GeminiWorker

open Transition (Reach)
open FetchState (setPhase setTask setMemory removeTask)

section

variable {Response : Type}

/-- The image that a step puts in the memory cache. -/
def FetchState.stores (s : FetchState) : FetchEvent Response → Option (String × CachedInlineData)
  | .advance c => s.calls[c]?.bind fun call =>
      match call.phase with
      | .diskHit hit | .storingMemory hit => some (call.url, hit)
      | _ => none
  | .run t => s.tasks[t]?.bind fun task =>
      match task.phase with
      | .storingMemory hit => some (task.url, hit)
      | _ => none
  | _ => none

/-- The URL that a step takes out of the inflight map. -/
def FetchState.removes (s : FetchState) : FetchEvent Response → Option String
  | .run t => s.tasks[t]?.bind fun task =>
      match task.phase with
      | .removing _ => some task.url
      | _ => none
  | .tryLock c true => s.calls[c]?.bind fun call =>
      match call.phase with
      | .removing t _ => if s.inflight.lookup call.url = some t then some call.url else none
      | _ => none
  | .helper index => s.helpers[index]?.bind fun (url, t) =>
      if s.inflight.lookup url = some t then some url else none
  | _ => none

/-- Whether a step ends the spawned part of task `t`: it is aborted where it is suspended, or suspended after
it was aborted. -/
def FetchState.cancels (s : FetchState) (t : ℕ) : FetchEvent Response → Bool
  | .suspend t' => t' == t && s.tasks[t]?.any (·.aborted)
  | .advance c =>
    match s.calls[c]? with
    | some ⟨_, .aborting t' _⟩ => t' == t && s.tasks[t]?.any fun task => task.abortHandle && !task.polling
    | _ => false
  | _ => false

/-- The task has published its image and not stored it. -/
def FetchTask.beforeStore (task : FetchTask) : Bool :=
  match task.phase with
  | .notifying _ | .removing _ | .storingMemory _ => true
  | _ => false

def FetchState.beforeStore (s : FetchState) (t : ℕ) : Bool := s.tasks[t]?.any (·.beforeStore)

/-- Whether a call for the URL, of those from number `n` on, has missed the memory cache and not looked in
the inflight map. -/
def FetchState.anyBetween (s : FetchState) (n : ℕ) (url : String) : Bool :=
  (s.calls.drop n).any fun call => call.url == url && (call.phase == .disk || call.phase == .lookup)

/-- What a call looks up before the task has stored its image: the same bytes, or nothing while the task is
in the inflight map. -/
def FetchState.covers (s : FetchState) (url : String) (t : ℕ) (bytes : List UInt8) : Bool :=
  match s.memoryCache.bind (·.items.lookup url) with
  | some item => item.bytes == bytes
  | none => s.inflight.lookup url == some t

/-- No image of another URL is stored. -/
def undisturbed (url : String) (s : FetchState) (event : FetchEvent Response) : Bool :=
  (s.stores event).all fun (stored, _) => stored == url

/-- The image of task `t` is handed over from the task to the memory cache, so that calls from number `n` on
find one or the other. -/
def handedOver (n : ℕ) (url : String) (t : ℕ) (bytes : List UInt8) (s : FetchState) (event : FetchEvent Response) :
    Bool :=
  (s.stores event).all (fun (stored, hit) => !(stored == url) || hit.bytes == bytes) &&
    !(s.cancels t event && s.beforeStore t) &&
    !(s.removes event == some url && s.anyBetween n url) &&
    match event with
    | .advance c =>
      match s.calls[c]? with
      | some ⟨called, .memory⟩ => !(decide (n ≤ c) && called == url && s.beforeStore t) || s.covers url t bytes
      | _ => true
    | .diskAnswer c answer =>
      match s.calls[c]?, answer with
      | some call, .error _ => !(decide (n ≤ c) && call.url == url)
      | some call, .ok (some hit) => !(decide (n ≤ c) && call.url == url) || hit.bytes == bytes
      | _, _ => true
    | _ => true

/-! ## The memory cache -/

/-- The memory cache has an image of these bytes under the URL. -/
def FetchState.Caches (s : FetchState) (url : String) (bytes : List UInt8) : Prop :=
  ∃ cache item, s.memoryCache = some cache ∧ cache.items.lookup url = some item ∧ item.bytes = bytes

/-- There is a memory cache with room for an image of this size. -/
def FetchState.Fits (s : FetchState) (size : ℕ) : Prop := ∃ cache, s.memoryCache = some cache ∧ size ≤ cache.maxBytes

variable {cfg : FetchConfig Response} {s s' : FetchState} {event : FetchEvent Response}

/-- A step leaves the memory cache as it is, looks something up in it or stores an image. -/
theorem Moved.memory (h : Moved cfg s event s') : s'.memoryCache = s.memoryCache ∨
    (∃ url hit cache, s.memoryCache.bind (·.get url) = some (hit, cache) ∧ s'.memoryCache = some cache) ∨
    ∃ url value, s.stores event = some (url, value) ∧ s'.memoryCache = s.memoryCache.map (·.set url value) := by
  cases h with
  | memoryHit hcall hphase hget => exact .inr (.inl ⟨_, _, _, hget, rfl⟩)
  | @keepDiskHit c call hit hcall hphase =>
    refine .inr (.inr ⟨call.url, hit, ?_, rfl⟩)
    rw [FetchState.stores, hcall, Option.bind_some, hphase]
  | @storeMemory c call cached hcall hphase =>
    refine .inr (.inr ⟨call.url, cached, ?_, rfl⟩)
    rw [FetchState.stores, hcall, Option.bind_some, hphase]
  | @storeTaskMemory t task hit htask hpolling hphase =>
    refine .inr (.inr ⟨task.url, hit, ?_, rfl⟩)
    rw [FetchState.stores, htask, Option.bind_some, hphase]
  | @locked c call t outcome =>
    refine .inl ?_
    show (s.removeTask call.url t).memoryCache = _
    unfold FetchState.removeTask
    split <;> rfl
  | @helper index url t =>
    refine .inl ?_
    show (s.removeTask url t).memoryCache = _
    unfold FetchState.removeTask
    split <;> rfl
  | fetch | phase | join | insert | storeHandle | register | leave | leaveLast | abort | contended | task | remove =>
    exact .inl rfl

theorem Moved.fits (h : Moved cfg s event s') {size : ℕ} (hfits : s.Fits size) : s'.Fits size := by
  obtain ⟨cache, hcache, hsize⟩ := hfits
  rcases h.memory with hsame | ⟨url, hit, cache', hget, hcache'⟩ | ⟨url, value, -, hset⟩
  · exact ⟨cache, hsame.trans hcache, hsize⟩
  · rw [hcache, Option.bind_some] at hget
    obtain ⟨-, -, -, hmax, -⟩ := MemoryCache.get_eq_some hget
    exact ⟨cache', hcache', hmax ▸ hsize⟩
  · rw [hcache, Option.map_some] at hset
    exact ⟨_, hset, by rwa [MemoryCache.maxBytes_set]⟩

/-- What is under the URL stays, as nothing else is stored there and nothing is evicted. -/
theorem Moved.caches (h : Moved cfg s event s') {url : String} {bytes : List UInt8} (hfits : s.Fits bytes.length)
    (hsame : ∀ stored hit, s.stores event = some (stored, hit) → stored = url ∧ hit.bytes = bytes)
    (hcaches : s.Caches url bytes) : s'.Caches url bytes := by
  obtain ⟨cache, item, hcache, hitem, hbytes⟩ := hcaches
  rcases h.memory with hunchanged | ⟨url', hit, cache', hget, hcache'⟩ | ⟨stored, value, hstores, hset⟩
  · exact ⟨cache, item, hunchanged.trans hcache, hitem, hbytes⟩
  · rw [hcache, Option.bind_some] at hget
    exact ⟨cache', item, hcache', by rw [MemoryCache.lookup_get hget, hitem], hbytes⟩
  · obtain ⟨rfl, hvalue⟩ := hsame stored value hstores
    obtain ⟨cache', hcache', hsize⟩ := hfits
    obtain rfl := Option.some.inj (hcache.symm.trans hcache')
    rw [hcache, Option.map_some] at hset
    exact ⟨_, _, hset, MemoryCache.lookup_set_self (by rw [hvalue]; exact hsize), hvalue⟩

/-! ## The inflight map -/

theorem lookup_removeTask {url url' : String} {t t' : ℕ} (hfound : s.inflight.lookup url = some t)
    (hkept : ¬ (s.inflight.lookup url' = some t' ∧ url' = url)) : (s.removeTask url' t').inflight.lookup url = some t := by
  unfold FetchState.removeTask
  split
  · rename_i hlookup
    have hne : url ≠ url' := fun heq => hkept ⟨hlookup, heq.symm⟩
    show (Assoc.others url' s.inflight).lookup url = some t
    rw [Assoc.lookup_others_of_ne hne, hfound]
  · exact hfound

/-- A task stays in the map as long as no step takes its URL out. -/
theorem Moved.lookup_inflight (h : Moved cfg s event s') {url : String} {t : ℕ} (hfound : s.inflight.lookup url = some t)
    (hkept : s.removes event ≠ some url) : s'.inflight.lookup url = some t := by
  cases h with
  | @insert c call hcall hphase habsent hroom =>
    have hne : url ≠ call.url := by
      rintro rfl
      rw [habsent] at hfound
      cases hfound
    show ((call.url, s.tasks.length) :: s.inflight).lookup url = some t
    rw [Assoc.lookup_cons, if_neg hne, hfound]
  | @locked c call t' outcome hcall hphase =>
    refine lookup_removeTask hfound fun hboth => hkept ?_
    rw [FetchState.removes, hcall, Option.bind_some, hphase]
    dsimp only
    rw [if_pos hboth.1, hboth.2]
  | @helper index url' t' hhelper =>
    refine lookup_removeTask hfound fun hboth => hkept ?_
    rw [FetchState.removes, hhelper, Option.bind_some]
    dsimp only
    rw [if_pos hboth.1, hboth.2]
  | @remove t' task result htask hpolling hphase =>
    have hne : url ≠ task.url := by
      rintro rfl
      refine hkept ?_
      rw [FetchState.removes, htask, Option.bind_some, hphase]
    show (Assoc.others task.url s.inflight).lookup url = some t
    rw [Assoc.lookup_others_of_ne hne, hfound]
  | fetch | phase | memoryHit | keepDiskHit | storeMemory | join | storeHandle | register | leave | leaveLast | abort
  | contended | task | storeTaskMemory => exact hfound

/-! ## The task -/

/-- The task has yet to store its image, and it will. -/
def FetchState.Pending (s : FetchState) (t : ℕ) : Prop :=
  ∃ task, s.tasks[t]? = some task ∧ task.beforeStore = true ∧ (task.polling = true ∨ task.aborted = false)

theorem pending_setTask {t t' : ℕ} {old next : FetchTask} (hold : s.tasks[t']? = some old) (hpending : s.Pending t)
    (hnext : t' = t → old.beforeStore = true → (old.polling = true ∨ old.aborted = false) →
      next.beforeStore = true ∧ (next.polling = true ∨ next.aborted = false)) : (s.setTask t' next).Pending t := by
  obtain ⟨task, htask, hbefore, hruns⟩ := hpending
  by_cases ht : t' = t
  · subst ht
    obtain rfl := Option.some.inj (hold.symm.trans htask)
    obtain ⟨hbefore', hruns'⟩ := hnext rfl hbefore hruns
    exact ⟨next, tasks_setTask_self hold, hbefore', hruns'⟩
  · exact ⟨task, by rw [tasks_setTask_of_ne (Ne.symm ht), htask], hbefore, hruns⟩

/-- A task that is not cancelled comes to its store. -/
theorem Moved.pending (h : Moved cfg s event s') (hsound : Sound s) {url : String} {t : ℕ} {hit : CachedInlineData}
    (hhit : ∀ task, s.tasks[t]? = some task → task.url = url ∧ task.result = some (.ok hit))
    (hfits : s.Fits hit.bytes.length) (hkept : s.cancels t event = false) (hpending : s.Pending t) :
    s'.Pending t ∨ s'.Caches url hit.bytes := by
  cases h with
  | fetch | phase | memoryHit | keepDiskHit | storeMemory | join | contended => exact .inl hpending
  | @locked c call t' outcome =>
    obtain ⟨task, htask, hbefore, hruns⟩ := hpending
    refine .inl ⟨task, ?_, hbefore, hruns⟩
    show (s.removeTask call.url t').tasks[t]? = some task
    rw [removeTask_tasks, htask]
  | @helper index url' t' =>
    obtain ⟨task, htask, hbefore, hruns⟩ := hpending
    refine .inl ⟨task, ?_, hbefore, hruns⟩
    show (s.removeTask url' t').tasks[t]? = some task
    rw [removeTask_tasks, htask]
  | insert =>
    obtain ⟨task, htask, hbefore, hruns⟩ := hpending
    refine .inl ⟨task, ?_, hbefore, hruns⟩
    show (s.tasks ++ _)[t]? = some task
    rw [List.getElem?_append_left (List.getElem?_eq_some_iff.mp htask).1, htask]
  | storeHandle hcall hphase hold | register hcall hphase hold | leave hcall hphase hold
  | leaveLast hcall hphase hold => exact .inl (pending_setTask hold hpending fun _ hbefore hruns => ⟨hbefore, hruns⟩)
  | @abort c call t' task outcome hcall hphase hold =>
    refine .inl (pending_setTask hold hpending ?_)
    rintro rfl hbefore hruns
    refine ⟨hbefore, ?_⟩
    obtain ⟨url', phase⟩ := call
    obtain rfl : phase = .aborting t' outcome := hphase
    rw [FetchState.cancels, hcall] at hkept
    dsimp only at hkept
    rw [beq_self_eq_true, Bool.true_and, hold, Option.any_some] at hkept
    rcases hpolling : task.polling with _ | _
    · -- it is not polled, so there was no handle to abort it with
      rw [hpolling, Bool.not_false, Bool.and_true] at hkept
      rw [hpolling] at hruns
      right
      show (task.aborted || task.abortHandle) = false
      rcases hruns with hruns | hruns
      · cases hruns
      · rw [hruns, hkept, Bool.or_false]
    · exact .inl rfl
  | @task event t' old next hold hstep =>
    refine .inl (pending_setTask hold hpending ?_)
    rintro rfl hbefore hruns
    cases hstep with
    | poll hpolling haborted => exact ⟨hbefore, .inl rfl⟩
    | suspend hpolling =>
      refine ⟨hbefore, .inr ?_⟩
      rw [FetchState.cancels, beq_self_eq_true, Bool.true_and, hold, Option.any_some] at hkept
      exact hkept
    | response response hpolling hphase | publish hpolling hphase | stored hpolling hphase =>
      rw [FetchTask.beforeStore, hphase] at hbefore
      cases hbefore
    | notify hpolling hphase => exact ⟨rfl, .inl hpolling⟩
  | @remove t' task result hold hpolling hphase =>
    refine .inl (@pending_setTask { s with inflight := _ } _ _ _ _ hold hpending ?_)
    rintro rfl - -
    have hresult : task.result = some result := by
      have hrecords := (hsound.tasks t' task hold).records
      rwa [hphase] at hrecords
    obtain rfl := Option.some.inj (hresult.symm.trans (hhit task hold).2)
    exact ⟨rfl, .inl hpolling⟩
  | @storeTaskMemory t' task value hold hpolling hphase =>
    by_cases ht : t' = t
    · subst ht
      have hresult : task.result = some (.ok value) := by
        have hrecords := (hsound.tasks t' task hold).records
        rwa [hphase] at hrecords
      obtain ⟨rfl, hhit'⟩ := hhit task hold
      obtain rfl := Except.ok.inj (Option.some.inj (hresult.symm.trans hhit'))
      obtain ⟨cache, hcache, hsize⟩ := hfits
      refine .inr ⟨cache.set task.url value, _, ?_, MemoryCache.lookup_set_self hsize, rfl⟩
      show s.memoryCache.map (·.set task.url value) = _
      rw [hcache]
      rfl
    · refine .inl (@pending_setTask (s.setMemory task.url value) _ _ _ _ hold hpending ?_)
      intro heq
      exact absurd heq ht

/-! ## The later calls -/

/-- The same bytes, or cancelled. -/
def FetchOutcome.Gives (bytes : List UInt8) (outcome : FetchOutcome) : Prop :=
  outcome = .cancelled ∨ ∃ result, outcome = .returned (.ok result) ∧ result.bytes = bytes

/-- Where a call may stand that downloads nothing and returns these bytes. -/
def CallPhase.Reuses (t : ℕ) (bytes : List UInt8) : CallPhase → Prop
  | .memory | .disk | .lookup => True
  | .diskHit hit => hit.bytes = bytes
  | .joined t' | .registered t' | .checking t' _ => t' = t
  | .leaving t' outcome | .aborting t' outcome | .removing t' outcome => t' = t ∧ outcome.Gives bytes
  | .ended _ outcome => outcome.Gives bytes
  | _ => False

/-- A call that has missed the memory cache and not looked in the inflight map. -/
def CallPhase.Between (phase : CallPhase) : Prop := phase = .disk ∨ phase = .lookup

/-- The image is in the memory cache, or its task has yet to store it. -/
def FetchState.StillStores (s : FetchState) (url : String) (t : ℕ) (bytes : List UInt8) : Prop :=
  s.Caches url bytes ∨ s.Pending t

/-- What holds while a completed fetch of the URL may be reused by the calls from number `n` on. -/
structure Reusable (n : ℕ) (url : String) (t : ℕ) (hit : CachedInlineData) (s : FetchState) : Prop where
  task : ∃ task, s.tasks[t]? = some task ∧ task.url = url ∧ task.result = some (.ok hit)
  fits : s.Fits hit.bytes.length
  stores : s.StillStores url t hit.bytes
  calls : ∀ (c : ℕ) (call : Call), n ≤ c → s.calls[c]? = some call → call.url = url →
    call.phase.Reuses t hit.bytes ∧ (call.phase.Between → s.inflight.lookup url = some t)

variable {n : ℕ} {url : String} {t : ℕ} {hit : CachedInlineData}

theorem anyBetween_of_call {c : ℕ} {call : Call} (hc : n ≤ c) (hcall : s.calls[c]? = some call) (hurl : call.url = url)
    (hbetween : call.phase.Between) : s.anyBetween n url = true := by
  refine List.any_eq_true.mpr ⟨call, ?_, ?_⟩
  · refine List.mem_of_getElem? (i := c - n) ?_
    rw [List.getElem?_drop, Nat.add_sub_cancel' hc, hcall]
  · rw [hurl, beq_self_eq_true, Bool.true_and, Bool.or_eq_true, beq_iff_eq, beq_iff_eq]
    exact hbetween

theorem gives_ok (hit : CachedInlineData) (fromCache : Bool) :
    FetchOutcome.Gives hit.bytes (.returned (.ok (hit.toResult fromCache))) :=
  .inr ⟨hit.toResult fromCache, rfl, rfl⟩

/-- What a step that hands over says of each part. -/
theorem handedOver_parts {bytes : List UInt8} (h : handedOver n url t bytes s event = true) :
    (∀ hit, s.stores event = some (url, hit) → hit.bytes = bytes) ∧
      (s.beforeStore t = true → s.cancels t event = false) ∧
      (s.anyBetween n url = true → s.removes event ≠ some url) := by
  unfold handedOver at h
  simp only [Bool.and_eq_true] at h
  obtain ⟨⟨⟨hstores, hcancels⟩, hremoves⟩, -⟩ := h
  refine ⟨?_, ?_, ?_⟩
  · intro hit hstored
    rw [hstored, Option.all_some] at hstores
    simpa using hstores
  · intro hbefore
    rw [hbefore, Bool.and_true] at hcancels
    simpa using hcancels
  · intro hbetween
    rw [hbetween, Bool.and_true] at hremoves
    simpa using hremoves

/-- A later call finds the image in the memory cache or the task in the inflight map. -/
theorem covers_of_memory {c : ℕ} {call : Call} (hreusable : Reusable n url t hit s)
    (hover : handedOver n url t hit.bytes s (.advance c : FetchEvent Response) = true) (hc : n ≤ c)
    (hcall : s.calls[c]? = some call) (hurl : call.url = url) (hphase : call.phase = .memory) :
    s.covers url t hit.bytes = true := by
  by_cases hbefore : s.beforeStore t = true
  · obtain ⟨called, phase⟩ := call
    obtain rfl : phase = .memory := hphase
    obtain rfl : called = url := hurl
    unfold handedOver at hover
    simp only [Bool.and_eq_true] at hover
    have hlast := hover.2
    rw [hcall] at hlast
    dsimp only at hlast
    rw [decide_eq_true hc, beq_self_eq_true, hbefore] at hlast
    simpa using hlast
  · -- the task is past its store, so the image is in the memory cache
    rcases hreusable.stores with ⟨cache, item, hcache, hitem, hbytes⟩ | ⟨task, htask, hyet, -⟩
    · rw [FetchState.covers, hcache, Option.bind_some, hitem]
      exact beq_iff_eq.mpr hbytes
    · refine absurd ?_ hbefore
      rw [FetchState.beforeStore, htask, Option.any_some, hyet]

/-- **Where a step takes a later call.** -/
theorem PhaseStep.reuses {c : ℕ} {call : Call} {next : CallPhase}
    (h : PhaseStep cfg s c call.url event call.phase next) (hreusable : Reusable n url t hit s)
    (hover : handedOver n url t hit.bytes s event = true) (hc : n ≤ c) (hcall : s.calls[c]? = some call)
    (hurl : call.url = url) : next.Reuses t hit.bytes ∧ (next.Between → s.inflight.lookup url = some t) := by
  obtain ⟨hreuses, hbetween⟩ := hreusable.calls c call hc hcall hurl
  obtain ⟨task, htask, -, hresult⟩ := hreusable.task
  have hnone : ∀ phase : CallPhase, (¬ phase.Between) → phase.Between → s.inflight.lookup url = some t :=
    fun phase hnot hyes => absurd hyes hnot
  obtain ⟨called, phase⟩ := call
  obtain rfl : called = url := hurl
  dsimp only at h hreuses hbetween
  cases h with
  | memoryMiss hmiss =>
    have hcovers := covers_of_memory hreusable hover hc hcall rfl rfl
    refine ⟨trivial, fun _ => ?_⟩
    obtain ⟨cache, hcache, -⟩ := hreusable.fits
    rw [hcache, Option.bind_some] at hmiss
    rw [FetchState.covers, hcache, Option.bind_some, MemoryCache.get_eq_none hmiss] at hcovers
    simpa using hcovers
  | noDisk | diskMiss => exact ⟨trivial, fun _ => hbetween (.inl rfl)⟩
  | diskFailed text =>
    unfold handedOver at hover
    simp only [Bool.and_eq_true] at hover
    have hlast := hover.2
    rw [hcall] at hlast
    simp [hc] at hlast
  | diskFound value =>
    unfold handedOver at hover
    simp only [Bool.and_eq_true] at hover
    have hlast := hover.2
    rw [hcall] at hlast
    have hbytes : value.bytes = hit.bytes := by simpa [hc] using hlast
    exact ⟨hbytes, fun hyes => by rcases hyes with hyes | hyes <;> cases hyes⟩
  | absent habsent =>
    rw [hbetween (.inr rfl)] at habsent
    cases habsent
  | full | fetched | failed | stored | gaveUp | withoutResult | wake | waitTimeout => exact hreuses.elim
  | notified htask' => exact ⟨hreuses, fun hyes => by rcases hyes with hyes | hyes <;> cases hyes⟩
  | unpublished htask' hresult' =>
    obtain rfl := hreuses
    obtain rfl := Option.some.inj (htask.symm.trans htask')
    rw [hresult] at hresult'
    cases hresult'
  | published htask' hresult' hphase =>
    rcases hphase with ⟨seen, rfl⟩ | rfl | rfl
    · obtain rfl := hreuses
      obtain rfl := Option.some.inj (htask.symm.trans htask')
      obtain rfl := Option.some.inj (hresult.symm.trans hresult')
      exact ⟨⟨rfl, gives_ok hit false⟩, fun hyes => by rcases hyes with hyes | hyes <;> cases hyes⟩
    · exact hreuses.elim
    · exact hreuses.elim
  | cancel hcancel =>
    cases phase with
    | spawned | joined | registered | leaving | aborting | removing | ended => cases hcancel
    | memory | disk | diskHit | lookup =>
      obtain rfl := Option.some.inj hcancel
      exact ⟨.inl rfl, fun hyes => by rcases hyes with hyes | hyes <;> cases hyes⟩
    | checking =>
      obtain rfl := Option.some.inj hcancel
      exact ⟨⟨hreuses, .inl rfl⟩, fun hyes => by rcases hyes with hyes | hyes <;> cases hyes⟩
    | insert | direct | storingMemory | storingDisk | waiting | timedOut | woken => exact hreuses.elim

/-- The calls after a step: those that it does not move are where they were. -/
theorem calls_reuse_set (h : Moved cfg s event s') (hreusable : Reusable n url t hit s)
    (hover : handedOver n url t hit.bytes s event = true) {c₀ : ℕ} {old : Call} {next : CallPhase}
    (hcalls : s'.calls = s.calls.set c₀ { old with phase := next }) (_ : s.calls[c₀]? = some old)
    (hnext : n ≤ c₀ → old.url = url →
      next.Reuses t hit.bytes ∧ (next.Between → s'.inflight.lookup url = some t)) :
    ∀ (c : ℕ) (call : Call), n ≤ c → s'.calls[c]? = some call → call.url = url →
      call.phase.Reuses t hit.bytes ∧ (call.phase.Between → s'.inflight.lookup url = some t) := by
  intro c call hc hcall hurl
  rw [hcalls, List.getElem?_set] at hcall
  split at hcall
  · rename_i heq
    subst heq
    split at hcall
    · obtain rfl := Option.some.inj hcall
      exact hnext hc hurl
    · cases hcall
  · obtain ⟨hreuses, hbetween⟩ := hreusable.calls c call hc hcall hurl
    refine ⟨hreuses, fun hyes => h.lookup_inflight (hbetween hyes) ?_⟩
    exact (handedOver_parts hover).2.2 (anyBetween_of_call hc hcall hurl hyes)

/-- A step that moves no call. -/
theorem calls_reuse_same (h : Moved cfg s event s') (hreusable : Reusable n url t hit s)
    (hover : handedOver n url t hit.bytes s event = true) (hcalls : s'.calls = s.calls) :
    ∀ (c : ℕ) (call : Call), n ≤ c → s'.calls[c]? = some call → call.url = url →
      call.phase.Reuses t hit.bytes ∧ (call.phase.Between → s'.inflight.lookup url = some t) := by
  intro c call hc hcall hurl
  rw [hcalls] at hcall
  obtain ⟨hreuses, hbetween⟩ := hreusable.calls c call hc hcall hurl
  refine ⟨hreuses, fun hyes => h.lookup_inflight (hbetween hyes) ?_⟩
  exact (handedOver_parts hover).2.2 (anyBetween_of_call hc hcall hurl hyes)

theorem not_between {phase : CallPhase} (h : phase ≠ .disk ∧ phase ≠ .lookup) {P : Prop} : phase.Between → P := by
  rintro (hdisk | hlookup)
  · exact absurd hdisk h.1
  · exact absurd hlookup h.2

/-- What is taken up again of the phase that a call is at. -/
theorem Reusable.reuses (h : Reusable n url t hit s) {c : ℕ} {call : Call} (hc : n ≤ c)
    (hcall : s.calls[c]? = some call) (hurl : call.url = url) {phase : CallPhase} (hphase : call.phase = phase) :
    phase.Reuses t hit.bytes := by
  rw [← hphase]
  exact (h.calls c call hc hcall hurl).1

theorem Moved.calls_reuse (h : Moved cfg s event s') (hreusable : Reusable n url t hit s)
    (hover : handedOver n url t hit.bytes s event = true) : ∀ (c : ℕ) (call : Call), n ≤ c → s'.calls[c]? = some call →
      call.url = url → call.phase.Reuses t hit.bytes ∧ (call.phase.Between → s'.inflight.lookup url = some t) := by
  have hmoved := h
  cases h with
  | fetch url' =>
    intro c call hc hcall hurl
    have happend : (s.calls ++ [⟨url', .memory⟩])[c]? = some call := hcall
    rw [List.getElem?_append] at happend
    split at happend
    · exact hreusable.calls c call hc happend hurl
    · rw [List.getElem?_singleton] at happend
      split at happend
      · obtain rfl := Option.some.inj happend
        exact ⟨trivial, not_between ⟨by simp, by simp⟩⟩
      · cases happend
  | phase hcall hstep =>
    refine calls_reuse_set hmoved hreusable hover rfl hcall fun hc hurl => ?_
    exact hstep.reuses hreusable hover hc hcall hurl
  | @memoryHit c call value cache hcall hphase hget =>
    refine calls_reuse_set hmoved hreusable hover rfl hcall fun hc hurl => ⟨?_, not_between ⟨by simp, by simp⟩⟩
    have hcovers := covers_of_memory hreusable hover hc hcall hurl hphase
    obtain ⟨cache₀, hcache, -⟩ := hreusable.fits
    rw [hcache, Option.bind_some, hurl] at hget
    obtain ⟨item, hitem, rfl, -⟩ := MemoryCache.get_eq_some hget
    rw [FetchState.covers, hcache, Option.bind_some, hitem] at hcovers
    have hbytes : item.bytes = hit.bytes := beq_iff_eq.mp hcovers
    exact .inr ⟨_, rfl, hbytes⟩
  | keepDiskHit hcall hphase =>
    refine calls_reuse_set hmoved hreusable hover rfl hcall fun hc hurl => ⟨?_, not_between ⟨by simp, by simp⟩⟩
    have hreuses := hreusable.reuses hc hcall hurl hphase
    exact .inr ⟨_, rfl, hreuses⟩
  | storeMemory hcall hphase | insert hcall hphase habsent hroom | storeHandle hcall hphase htask =>
    refine calls_reuse_set hmoved hreusable hover rfl hcall fun hc hurl => ?_
    have hreuses := hreusable.reuses hc hcall hurl hphase
    exact hreuses.elim
  | @join c call t' hcall hphase hfound =>
    refine calls_reuse_set hmoved hreusable hover rfl hcall fun hc hurl => ⟨?_, not_between ⟨by simp, by simp⟩⟩
    obtain ⟨hreuses, hbetween⟩ := hreusable.calls _ _ hc hcall hurl
    rcases hphase with hphase | hphase
    · rw [hurl, hbetween (.inr hphase)] at hfound
      exact (Option.some.inj hfound).symm
    · rw [hphase] at hreuses
      exact hreuses.elim
  | register hcall hphase htask | leaveLast hcall hphase htask hlast hbridge | abort hcall hphase htask =>
    refine calls_reuse_set hmoved hreusable hover rfl hcall fun hc hurl => ⟨?_, not_between ⟨by simp, by simp⟩⟩
    have hreuses := hreusable.reuses hc hcall hurl hphase
    exact hreuses
  | leave hcall hphase htask hstays | contended hcall hphase =>
    refine calls_reuse_set hmoved hreusable hover rfl hcall fun hc hurl => ⟨?_, not_between ⟨by simp, by simp⟩⟩
    have hreuses := hreusable.reuses hc hcall hurl hphase
    exact hreuses.2
  | @locked c call t' outcome hcall hphase =>
    have hcalls : ((s.removeTask call.url t').setPhase c call (.ended (some t') outcome)).calls =
        s.calls.set c { call with phase := .ended (some t') outcome } := by
      unfold FetchState.setPhase
      rw [removeTask_calls]
    refine calls_reuse_set hmoved hreusable hover hcalls hcall fun hc hurl => ⟨?_, not_between ⟨by simp, by simp⟩⟩
    have hreuses := hreusable.reuses hc hcall hurl hphase
    exact hreuses.2
  | helper => exact calls_reuse_same hmoved hreusable hover (removeTask_calls _ _)
  | task | remove | storeTaskMemory => exact calls_reuse_same hmoved hreusable hover rfl

/-- **A step that hands over keeps the fetch reusable.** -/
theorem Moved.reusable (h : Moved cfg s event s') (hsound : Sound s) (hreusable : Reusable n url t hit s)
    (hover : handedOver n url t hit.bytes s event = true) (hundisturbed : undisturbed url s event = true) :
    Reusable n url t hit s' := by
  obtain ⟨hsame, hkept, -⟩ := handedOver_parts hover
  obtain ⟨task, htask, hurl, hresult⟩ := hreusable.task
  have honly : ∀ stored value, s.stores event = some (stored, value) → stored = url ∧ value.bytes = hit.bytes := by
    intro stored value hstores
    have hurl' : stored = url := by
      rw [undisturbed, hstores, Option.all_some] at hundisturbed
      simpa using hundisturbed
    exact ⟨hurl', hsame value (by rw [hstores, hurl'])⟩
  refine ⟨?_, h.fits hreusable.fits, ?_, h.calls_reuse hreusable hover⟩
  · obtain ⟨task', htask', hlater⟩ := hsound.later h htask
    exact ⟨task', htask', hlater.url.trans hurl, hlater.result _ hresult⟩
  · rcases hreusable.stores with hcaches | hpending
    · exact .inl (h.caches hreusable.fits honly hcaches)
    · have hcancels : s.cancels t event = false := by
        refine hkept ?_
        obtain ⟨task', htask', hbefore, -⟩ := hpending
        rw [FetchState.beforeStore, htask', Option.any_some, hbefore]
      refine (h.pending hsound (fun task' htask' => ?_) hreusable.fits hcancels hpending).symm
      obtain rfl := Option.some.inj (htask.symm.trans htask')
      exact ⟨hurl, hresult⟩

theorem fits_init (maxBytes : ℕ) : (FetchState.init (some (.new maxBytes))).Fits maxBytes :=
  ⟨.new maxBytes, rfl, le_rfl⟩

/-- **A completed fetch is not repeated**, if its image is still to be stored or in the memory cache when it
returns, and is handed over from there on. -/
theorem fetch_reused {maxBytes : ℕ} {s₁ s₂ : FetchState}
    (hreach : Reach (FetchState.step cfg) Transition.Any (.init (some (.new maxBytes))) s₁) {call₀ : Call}
    (hcall : call₀ ∈ s₁.calls) {t : ℕ} {result : FetchResult}
    (hreturned : call₀.phase = .ended (some t) (.returned (.ok result))) (hfits : result.bytes.length ≤ maxBytes)
    (hstores : s₁.StillStores call₀.url t result.bytes)
    (hrun : Reach (FetchState.step cfg) (fun s event => undisturbed call₀.url s event = true ∧
      handedOver s₁.calls.length call₀.url t result.bytes s event = true) s₁ s₂) :
    ∀ (c : ℕ) (call : Call), s₁.calls.length ≤ c → s₂.calls[c]? = some call → call.url = call₀.url →
      call.phase ≠ .direct ∧ (∀ t', call.phase ≠ .spawned t') ∧
        ∀ held outcome, call.phase = .ended held outcome → outcome.Gives result.bytes := by
  have hsound := reach_sound hreach
  have hroom : s₁.Fits maxBytes :=
    hreach.invariant (fits_init maxBytes) fun _ _ _ hfit _ hnext => (step_moved hnext).fits hfit
  -- what the call returned is what its task published
  obtain ⟨task, htask, hurl, hknows⟩ := hsound.calls call₀ hcall t (by rw [hreturned]; rfl)
  rw [hreturned] at hknows
  obtain ⟨published, hpublished, hsame⟩ := Answers.of_uncut hknows ⟨by simp, by simp⟩
  obtain ⟨hit, rfl, hbytes⟩ : ∃ hit, published = .ok hit ∧ result.bytes = hit.bytes := by
    rcases published with text | hit
    · cases FetchOutcome.returned.inj hsame
    · have hresult : result = hit.toResult false := Except.ok.inj (FetchOutcome.returned.inj hsame)
      exact ⟨hit, rfl, by rw [hresult]; rfl⟩
  rw [hbytes] at hfits hstores hrun ⊢
  have hfirst : Reusable s₁.calls.length call₀.url t hit s₁ := by
    refine ⟨⟨task, htask, hurl, hpublished⟩, ?_, hstores, ?_⟩
    · obtain ⟨cache, hcache, hmax⟩ := hroom
      exact ⟨cache, hcache, hfits.trans hmax⟩
    · intro c call hc hcall'
      have hlt := (List.getElem?_eq_some_iff.mp hcall').1
      omega
  have hlast : Sound s₂ ∧ Reusable s₁.calls.length call₀.url t hit s₂ := by
    induction hrun with
    | refl => exact ⟨hsound, hfirst⟩
    | tail _ hmeets hnext ih =>
      obtain ⟨hs, hreusable⟩ := ih
      exact ⟨(step_moved hnext).sound hs, (step_moved hnext).reusable hs hreusable hmeets.2 hmeets.1⟩
  intro c call hc hcall' hcallUrl
  have hreuses := (hlast.2.calls c call hc hcall' hcallUrl).1
  refine ⟨?_, ?_, ?_⟩
  · intro hphase
    rw [hphase] at hreuses
    exact hreuses
  · intro t' hphase
    rw [hphase] at hreuses
    exact hreuses
  · intro held outcome hphase
    rw [hphase] at hreuses
    exact hreuses

end

/-- A call returns when its task has notified it, before the task leaves the inflight map. -/
def returnedRun : List (FetchEvent Published) :=
  [.fetch "u"] ++ List.replicate 8 (.advance 0) ++ [.poll 0, .response 0 (.ok ⟨"image/png", [1]⟩), .run 0, .run 0] ++
    List.replicate 3 (.advance 0)

/-- The task goes on to its store, and a later call finds the image. -/
theorem fetch_reused_example : ∃ s₁ s₂ call outcome,
    Transition.run (FetchState.step (plainConfig true 1)) (.init (some (.new 8))) returnedRun = some s₁ ∧
      Reach (FetchState.step (plainConfig true 1)) Transition.Any s₁ s₂ ∧ s₂.calls[1]? = some call ∧
      call.phase = .ended none outcome ∧ outcome.Gives [1] := by
  have hstates : (Transition.run (FetchState.step (plainConfig true 1)) (.init (some (.new 8))) returnedRun).map
      (fun s => (s.calls, s.tasks, (Transition.runMeeting (FetchState.step (plainConfig true 1))
        (fun s event => undisturbed "u" s event = true ∧ handedOver 1 "u" 0 [1] s event = true) s
          [.run 0, .run 0, .fetch "u", .advance 1]).map (·.calls[1]?))) =
      some ([⟨"u", .ended (some 0) (.returned (.ok ⟨"image/png", [1], false⟩))⟩],
        [⟨"u", 1, some (.ok ⟨"image/png", [1]⟩), 0, true, false, true, .removing (.ok ⟨"image/png", [1]⟩)⟩],
        some (some ⟨"u", .ended none (.returned (.ok ⟨"image/png", [1], true⟩))⟩)) := by
    decide +kernel
  obtain ⟨s₁, hrun, hstate⟩ := Option.map_eq_some_iff.mp hstates
  obtain ⟨hcalls, hrest⟩ := Prod.mk.inj hstate
  obtain ⟨htasks, hlater⟩ := Prod.mk.inj hrest
  obtain ⟨s₂, hlaterRun, hcall⟩ := Option.map_eq_some_iff.mp hlater
  have hlength : s₁.calls.length = 1 := by rw [hcalls]; rfl
  have hmeets := Transition.runMeeting_reach hlaterRun
  have hpending : s₁.StillStores "u" 0 [1] := .inr ⟨_, by rw [htasks]; rfl, rfl, .inr rfl⟩
  have hfirst : (⟨"u", .ended (some 0) (.returned (.ok ⟨"image/png", [1], false⟩))⟩ : Call) ∈ s₁.calls := by
    rw [hcalls]
    exact List.mem_cons_self ..
  have hreused := fetch_reused (Transition.run_reach hrun) hfirst rfl (by decide) hpending (by rw [hlength]; exact hmeets)
    1 _ (by rw [hlength]) hcall rfl
  exact ⟨s₁, s₂, _, _, hrun, hmeets.any, hcall, rfl, hreused.2.2 none _ rfl⟩

/-- The task leaves the map before the first call returns, and has not stored the image when the second one
looks for it. -/
theorem storeWindow_downloadsAgain : ¬ ∀ (s₁ s₂ : FetchState) (call₀ : Call) (t : ℕ) (result : FetchResult),
    Reach (FetchState.step (plainConfig true 1)) Transition.Any (.init (some (.new 8))) s₁ → call₀ ∈ s₁.calls →
    call₀.phase = .ended (some t) (.returned (.ok result)) → result.bytes.length ≤ 8 →
    Reach (FetchState.step (plainConfig true 1)) (fun s event => undisturbed call₀.url s event = true) s₁ s₂ →
    ∀ (c : ℕ) (call : Call), s₁.calls.length ≤ c → s₂.calls[c]? = some call → call.url = call₀.url →
      ∀ t', call.phase ≠ .spawned t' := by
  intro h
  have hstates : (Transition.run (FetchState.step (plainConfig true 1)) (.init (some (.new 8)))
      (returnedRun ++ [.run 0])).map (fun s => (s.calls,
        (Transition.runMeeting (FetchState.step (plainConfig true 1)) (fun s event => undisturbed "u" s event = true) s
          ([.fetch "u"] ++ List.replicate 4 (.advance 1))).map (·.calls[1]?))) =
      some ([⟨"u", .ended (some 0) (.returned (.ok ⟨"image/png", [1], false⟩))⟩],
        some (some ⟨"u", .spawned 1⟩)) := by
    decide +kernel
  obtain ⟨s₁, hrun, hstate⟩ := Option.map_eq_some_iff.mp hstates
  obtain ⟨hcalls, hlater⟩ := Prod.mk.inj hstate
  obtain ⟨s₂, hlaterRun, hcall⟩ := Option.map_eq_some_iff.mp hlater
  have hfirst : (⟨"u", .ended (some 0) (.returned (.ok ⟨"image/png", [1], false⟩))⟩ : Call) ∈ s₁.calls := by
    rw [hcalls]
    exact List.mem_cons_self ..
  exact h s₁ s₂ _ 0 ⟨"image/png", [1], false⟩ (Transition.run_reach hrun) hfirst rfl (by decide)
    (Transition.runMeeting_reach hlaterRun) 1 _ (by rw [hcalls]; decide) hcall rfl 1 rfl

end GeminiWorker
