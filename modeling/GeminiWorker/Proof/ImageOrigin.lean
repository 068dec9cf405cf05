import GeminiWorker.Lib.History
import GeminiWorker.Proof.DiskPair
import GeminiWorker.Proof.FetchWait
import GeminiWorker.Proof.MemoryCache
import GeminiWorker.Proof.SharedImage

/-!
# Where the images that `fetch` returns come from

An image goes through many hands: a download is published to all calls that wait for it, is stored in the
memory cache and on disk, and is found there by later calls, also of the other service.

* `FetchState.downloads`: what a service has downloaded in a step, and for which URL.
* `FetchState.From`: all images of a service have their origin, each for its own URL.
* `FetchServices.From`: the same of both services and of their disk cache.
* `images_traced`: what `fetch` returns for a URL was downloaded for this URL.
-/

namespace GeminiWorker

open Transition (Reach recording OnState runMeeting runMeeting_reach)

/-- The image without where it was found. -/
def FetchResult.image (result : FetchResult) : CachedInlineData := ⟨result.mimeType, result.bytes⟩

section

variable {Response : Type} (cfg : FetchConfig Response)

def Published.downloaded (url : String) : Published → List (String × CachedInlineData)
  | .ok hit => [(url, hit)]
  | .error _ => []

/-- What a service has downloaded in a step. -/
def FetchState.downloads (s : FetchState) : FetchEvent Response → List (String × CachedInlineData)
  | .directResponse c response =>
    match s.calls[c]? with
    | some call => Published.downloaded call.url (cfg.download response)
    | none => []
  | .response t response =>
    match s.tasks[t]? with
    | some task => Published.downloaded task.url (cfg.download response)
    | none => []
  | _ => []

end

/-! ## The images of a service -/

/-- What an outcome returns. -/
def FetchOutcome.found : FetchOutcome → Option FetchResult
  | .returned (.ok result) => some result
  | _ => none

/-- What a call has found so far. -/
def CallPhase.found : CallPhase → Option FetchResult
  | .diskHit hit => some (hit.toResult true)
  | .storingMemory cached | .storingDisk cached => some (cached.toResult false)
  | .leaving _ outcome | .aborting _ outcome | .removing _ outcome | .ended _ outcome => outcome.found
  | _ => none

def Published.found : Published → Option FetchResult
  | .ok hit => some (hit.toResult false)
  | .error _ => none

def TaskPhase.found : TaskPhase → Option FetchResult
  | .publishing result | .notifying result | .removing result => Published.found result
  | .storingMemory hit | .storingDisk hit => some (hit.toResult false)
  | .downloading | .finished => none

/-- What is found, if anything is, has its origin. -/
def FoundFrom (origin : FetchResult → Prop) (found : Option FetchResult) : Prop :=
  ∀ result, found = some result → origin result

structure FetchTask.From (origin : String → FetchResult → Prop) (task : FetchTask) : Prop where
  phase : FoundFrom (origin task.url) task.phase.found
  result : FoundFrom (origin task.url) (task.result.bind Published.found)

/-- All images of a service have their origin. -/
structure FetchState.From (origin : String → FetchResult → Prop) (s : FetchState) : Prop where
  memory : ∀ cache, s.memoryCache = some cache → ∀ e ∈ cache.items, origin e.1 ⟨e.2.mimeType, e.2.bytes, true⟩
  calls : ∀ call ∈ s.calls, FoundFrom (origin call.url) call.phase.found
  tasks : ∀ (t : ℕ) (task : FetchTask), s.tasks[t]? = some task → task.From origin

theorem foundFrom_none (origin : FetchResult → Prop) : FoundFrom origin none := nofun

theorem foundFrom_some {origin : FetchResult → Prop} {result : FetchResult} :
    FoundFrom origin (some result) ↔ origin result :=
  ⟨fun h => h result rfl, fun h _ heq => Option.some.inj heq ▸ h⟩

theorem FoundFrom.mono {origin origin' : FetchResult → Prop} {found : Option FetchResult} (h : FoundFrom origin found)
    (hle : ∀ result, origin result → origin' result) : FoundFrom origin' found :=
  fun result heq => hle result (h result heq)

theorem found_publishedResult (published : Published) :
    (FetchOutcome.returned (publishedResult published)).found = Published.found published := by
  rcases published with text | hit <;> rfl

section

variable {Response : Type} {cfg : FetchConfig Response} {s s' : FetchState} {event : FetchEvent Response}
  {origin origin' : String → FetchResult → Prop}

theorem foundFrom_downloaded {url : String} {published : Published}
    (h : ∀ e ∈ Published.downloaded url published, origin e.1 (e.2.toResult false)) :
    FoundFrom (origin url) (Published.found published) := by
  rcases published with text | hit
  · exact foundFrom_none _
  · exact foundFrom_some.mpr (h (url, hit) (List.mem_singleton_self _))

theorem PhaseStep.foundFrom {c : ℕ} {call : Call} {next : CallPhase} (hget : s.calls[c]? = some call)
    (h : PhaseStep cfg s c call.url event call.phase next) (hsound : Sound s) (hfrom : s.From origin)
    (hdownload : ∀ e ∈ s.downloads cfg event, origin e.1 (e.2.toResult false))
    (hdisk : ∀ hit, event = .diskAnswer c (.ok (some hit)) → origin call.url (hit.toResult true)) :
    FoundFrom (origin call.url) next.found := by
  have hbefore := hfrom.calls call (List.mem_of_getElem? hget)
  obtain ⟨url, phase⟩ := call
  dsimp only at h hbefore hdisk ⊢
  cases h with
  | diskFound hit => exact foundFrom_some.mpr (hdisk hit rfl)
  | @fetched response cached h =>
    refine foundFrom_some.mpr (hdownload (url, cached) ?_)
    rw [FetchState.downloads, hget]
    dsimp only
    rw [h]
    exact List.mem_singleton_self _
  | stored cached => exact hbefore
  | @published t task phase published htask hresult hphase =>
    -- the task that a call holds is one for its URL
    have hholds : phase.task = some t := by
      rcases hphase with ⟨seen, rfl⟩ | rfl | rfl <;> rfl
    obtain ⟨task', htask', hurl, -⟩ := hsound.calls _ (List.mem_of_getElem? hget) t hholds
    obtain rfl := Option.some.inj (htask.symm.trans htask')
    have hfound := (hfrom.tasks t task htask).result
    have hpublished := found_publishedResult published
    rw [hresult, Option.bind_some, hurl] at hfound
    rw [CallPhase.found, hpublished]
    exact hfound
  | @cancel phase next h =>
    have hcancelled : next.found = none := by
      cases phase <;> first | (obtain rfl := Option.some.inj h; rfl) | cases h
    rw [hcancelled]
    exact foundFrom_none _
  | memoryMiss | noDisk | diskFailed | diskMiss | absent | full | failed | notified | unpublished | gaveUp
    | withoutResult | wake | waitTimeout => exact foundFrom_none _

theorem SpawnedStep.from {t : ℕ} {task next : FetchTask} (hget : s.tasks[t]? = some task)
    (h : SpawnedStep cfg t task event next) (htask : task.From origin)
    (hdownload : ∀ e ∈ s.downloads cfg event, origin e.1 (e.2.toResult false)) : next.From origin := by
  cases h with
  | poll | suspend => exact ⟨htask.phase, htask.result⟩
  | response response _ _ =>
    rw [FetchState.downloads, hget] at hdownload
    exact ⟨foundFrom_downloaded hdownload, htask.result⟩
  | publish _ hphase =>
    have hresult := htask.phase
    rw [hphase] at hresult
    exact ⟨hresult, hresult⟩
  | notify _ hphase =>
    have hresult := htask.phase
    rw [hphase] at hresult
    exact ⟨hresult, htask.result⟩
  | stored => exact ⟨foundFrom_none _, htask.result⟩

namespace FetchState

theorem From.mono (h : s.From origin) (hle : ∀ url result, origin url result → origin' url result) : s.From origin' where
  memory cache hcache e he := hle _ _ (h.memory cache hcache e he)
  calls call hcall := (h.calls call hcall).mono (hle _)
  tasks t task htask := ⟨(h.tasks t task htask).phase.mono (hle _), (h.tasks t task htask).result.mono (hle _)⟩

theorem From.setMemory (h : s.From origin) {url : String} {hit : CachedInlineData} (hhit : origin url (hit.toResult true)) :
    (s.setMemory url hit).From origin := by
  refine ⟨fun cache hcache e he => ?_, h.calls, h.tasks⟩
  obtain ⟨before, hbefore, rfl⟩ := Option.map_eq_some_iff.mp hcache
  rcases MemoryCache.mem_set he with he | rfl
  · exact h.memory before hbefore e he
  · exact hhit

theorem From.setPhase (h : s.From origin) (c : ℕ) (call : Call) {phase : CallPhase}
    (hphase : FoundFrom (origin call.url) phase.found) : (s.setPhase c call phase).From origin := by
  refine ⟨h.memory, fun call' hcall' => ?_, h.tasks⟩
  rcases List.mem_or_eq_of_mem_set hcall' with hcall' | rfl
  · exact h.calls call' hcall'
  · exact hphase

theorem From.setTask (h : s.From origin) (t : ℕ) {task : FetchTask} (htask : task.From origin) :
    (s.setTask t task).From origin := by
  refine ⟨h.memory, h.calls, fun t' task' hget => ?_⟩
  rcases tasks_setTask hget with ⟨-, rfl⟩ | ⟨-, hget⟩
  · exact htask
  · exact h.tasks t' task' hget

/-- A task whose images stay as they are. -/
theorem From.setTask_same (h : s.From origin) {t : ℕ} {task task' : FetchTask} (htask : s.tasks[t]? = some task)
    (hurl : task'.url = task.url) (hphase : task'.phase = task.phase) (hresult : task'.result = task.result) :
    (s.setTask t task').From origin := by
  have hbefore := h.tasks t task htask
  refine h.setTask t ⟨?_, ?_⟩
  · rw [hurl, hphase]
    exact hbefore.phase
  · rw [hurl, hresult]
    exact hbefore.result

theorem From.removeTask (h : s.From origin) (url : String) (t : ℕ) : (s.removeTask url t).From origin := by
  unfold FetchState.removeTask
  split
  · exact ⟨h.memory, h.calls, h.tasks⟩
  · exact h

/-- **Each image of a service goes on to its own URL**, as long as downloads and the disk answer for it. -/
theorem From.step (h : s.From origin) (hsound : Sound s)
    (hcached : ∀ url (hit : CachedInlineData), origin url (hit.toResult false) → origin url (hit.toResult true))
    (hdownload : ∀ e ∈ s.downloads cfg event, origin e.1 (e.2.toResult false))
    (hdisk : ∀ c call hit, event = .diskAnswer c (.ok (some hit)) → s.calls[c]? = some call →
      origin call.url (hit.toResult true))
    (hnext : s.step cfg event = some s') : s'.From origin := by
  have hcall : ∀ {c : ℕ} {call : Call} {phase : CallPhase}, s.calls[c]? = some call → call.phase = phase →
      FoundFrom (origin call.url) phase.found := by
    intro c call phase hget hphase
    exact hphase ▸ h.calls call (List.mem_of_getElem? hget)
  cases step_moved hnext with
  | fetch url =>
    refine ⟨h.memory, fun call hmem => ?_, h.tasks⟩
    rcases List.mem_append.mp hmem with hmem | hmem
    · exact h.calls call hmem
    · rw [List.mem_singleton.mp hmem]
      exact foundFrom_none _
  | phase hget hstep =>
    exact h.setPhase _ _ (hstep.foundFrom hget hsound h hdownload fun hit heq => hdisk _ _ hit heq hget)
  | @memoryHit c call hit cache hget hphase hlookup =>
    -- what the memory cache has under a URL came from it
    obtain ⟨before, hbefore, hfound⟩ := Option.bind_eq_some_iff.mp hlookup
    obtain ⟨item, hitem, rfl, -, -⟩ := MemoryCache.get_eq_some hfound
    have hmemory : ({ s with memoryCache := some cache } : FetchState).From origin := by
      refine ⟨fun cache' heq e he => ?_, h.calls, h.tasks⟩
      obtain rfl := Option.some.inj heq
      exact h.memory before hbefore e (MemoryCache.mem_get hfound he)
    exact hmemory.setPhase c call (foundFrom_some.mpr (h.memory before hbefore _ (Assoc.mem_of_lookup hitem)))
  | keepDiskHit hget hphase =>
    have hhit := hcall hget hphase
    exact (h.setMemory (foundFrom_some.mp hhit)).setPhase _ _ hhit
  | storeMemory hget hphase =>
    have hhit := hcall hget hphase
    exact (h.setMemory (hcached _ _ (foundFrom_some.mp hhit))).setPhase _ _ hhit
  | join hget hphase hfound => exact h.setPhase _ _ (foundFrom_none _)
  | @insert c call hget hphase habsent hroom =>
    have hinserted : ({ s with
        tasks := s.tasks ++ [FetchTask.new call.url]
        inflight := (call.url, s.tasks.length) :: s.inflight } : FetchState).From origin := by
      refine ⟨h.memory, h.calls, fun t task htask => ?_⟩
      rcases tasks_append htask with htask | ⟨-, rfl⟩
      · exact h.tasks t task htask
      · exact ⟨foundFrom_none _, foundFrom_none _⟩
    exact hinserted.setPhase _ _ (foundFrom_none _)
  | @storeHandle c call t task hget hphase htask | @register c call t task hget hphase htask =>
    refine FetchState.From.setPhase (h.setTask_same htask ?_ ?_ ?_) c call (foundFrom_none _)
    · rfl
    · rfl
    · rfl
  | @leave c call t task outcome hget hphase htask _
  | @leaveLast c call t task outcome hget hphase htask _ _
  | @abort c call t task outcome hget hphase htask =>
    have hfound : FoundFrom (origin call.url) outcome.found := hcall hget hphase
    refine FetchState.From.setPhase (h.setTask_same htask ?_ ?_ ?_) c call hfound
    · rfl
    · rfl
    · rfl
  | @locked c call t outcome hget hphase =>
    have hfound : FoundFrom (origin call.url) outcome.found := hcall hget hphase
    exact (h.removeTask call.url t).setPhase c call hfound
  | @contended c call t outcome hget hphase =>
    have hfound : FoundFrom (origin call.url) outcome.found := hcall hget hphase
    have hcontended : ({ s with helpers := s.helpers ++ [(call.url, t)] } : FetchState).From origin :=
      ⟨h.memory, h.calls, h.tasks⟩
    exact hcontended.setPhase c call hfound
  | @helper index url t hhelper =>
    have hremoved := h.removeTask url t
    exact ⟨hremoved.memory, hremoved.calls, hremoved.tasks⟩
  | task htask hstep => exact h.setTask _ (hstep.from htask (h.tasks _ _ htask) hdownload)
  | @remove t task result htask _ hphase =>
    have hbefore := h.tasks t task htask
    have hresult := hbefore.phase
    rw [hphase] at hresult
    have hremoved : ({ s with inflight := Assoc.others task.url s.inflight } : FetchState).From origin :=
      ⟨h.memory, h.calls, h.tasks⟩
    refine hremoved.setTask t ⟨?_, hbefore.result⟩
    -- only a download that has succeeded has an image
    rcases result with text | hit
    · exact foundFrom_none _
    · exact hresult
  | @storeTaskMemory t task hit htask _ hphase =>
    have hbefore := h.tasks t task htask
    have hhit := hbefore.phase
    rw [hphase] at hhit
    exact (h.setMemory (hcached _ _ (foundFrom_some.mp hhit))).setTask t ⟨hhit, hbefore.result⟩

end FetchState

end

/-! ## Both services and their disk cache -/

section

variable (config : InlineDataUrlConfig) (codec : DiskCodec) (encodeWebp : List UInt8 → Option (List UInt8))

/-- What the services have downloaded in a step. -/
def FetchServices.downloads (s : FetchServices) : ServicesEvent → List (Side × String × CachedInlineData)
  | .fetch side event =>
    match config.service side with
    | some service => ((s.fetches side).downloads (service.fetchConfig encodeWebp) event).map (side, ·)
    | none => []
  | .disk _ => []

/-- Neither service breaks into what the other does on disk with the same URL. -/
def FetchServices.Exclusive (urls : List String) (s : FetchServices) : ServicesEvent → Prop
  | .fetch _ _ => True
  | .disk event => s.disk.Exclusive (config.diskCacheConfig codec) urls event

instance instDecidableServicesExclusive (urls : List String) (s : FetchServices) (event : ServicesEvent) :
    Decidable (s.Exclusive config codec urls event) :=
  match event with
  | .fetch _ _ => inferInstanceAs (Decidable True)
  | .disk event => inferInstanceAs (Decidable (s.disk.Exclusive (config.diskCacheConfig codec) urls event))

end

section

variable (downloaded : List (Side × String × CachedInlineData)) (stored : List (String × CachedInlineData))

/-- A service has downloaded the image for this URL, or it was there at the start. -/
def Known (url : String) (hit : CachedInlineData) : Prop :=
  (∃ side, (side, url, hit) ∈ downloaded) ∨ (url, hit) ∈ stored

/-- What is not taken from a cache was downloaded by the service itself. -/
def Traced (side : Side) (url : String) (result : FetchResult) : Prop :=
  (result.fromCache = false → (side, url, result.image) ∈ downloaded) ∧ Known downloaded stored url result.image

/-- All images of both services have their origin, also those on disk. -/
structure FetchServices.From (config : InlineDataUrlConfig) (codec : DiskCodec) (urls : List String)
    (s : FetchServices) : Prop where
  fetches : ∀ side, (s.fetches side).From (Traced downloaded stored side)
  sound : ∀ side, Sound (s.fetches side)
  pairs : s.disk.PairsIntact (config.diskCacheConfig codec) urls
  setting : ∀ side url value phase, s.disk.holder side = some (.set url value phase) →
    Known downloaded stored url value
  stored : ∀ e ∈ s.disk.stored, Known downloaded stored e.1 e.2

end

section

variable {config : InlineDataUrlConfig} {codec : DiskCodec} {encodeWebp : List UInt8 → Option (List UInt8)}
  {downloaded downloaded' : List (Side × String × CachedInlineData)} {stored : List (String × CachedInlineData)}
  {urls : List String} {s s' : FetchServices} {side : Side}

theorem Known.mono {url : String} {hit : CachedInlineData} (h : Known downloaded stored url hit)
    (hle : downloaded ⊆ downloaded') : Known downloaded' stored url hit :=
  h.imp (fun ⟨side, hmem⟩ => ⟨side, hle hmem⟩) id

theorem traced_downloaded {url : String} {hit : CachedInlineData} (h : (side, url, hit) ∈ downloaded) :
    Traced downloaded stored side url (hit.toResult false) :=
  ⟨fun _ => h, .inl ⟨side, h⟩⟩

theorem traced_cached {url : String} {hit : CachedInlineData} (h : Known downloaded stored url hit) :
    Traced downloaded stored side url (hit.toResult true) := by
  refine ⟨fun hfresh => ?_, h⟩
  cases hfresh

namespace FetchServices

theorem From.mono (h : s.From downloaded stored config codec urls) (hle : downloaded ⊆ downloaded') :
    s.From downloaded' stored config codec urls where
  fetches side := (h.fetches side).mono fun _ _ htraced => ⟨fun hfresh => hle (htraced.1 hfresh), htraced.2.mono hle⟩
  sound := h.sound
  pairs := h.pairs
  setting side url value phase hholder := (h.setting side url value phase hholder).mono hle
  stored e he := (h.stored e he).mono hle

/-- A service takes nothing from the disk cache, or a call of the cache that has returned. -/
theorem fetch_disk {event : FetchEvent ImageExchange} (h : s.step config codec encodeWebp (.fetch side event) = some s') :
    s'.disk = s.disk ∨ s'.disk = s.disk.setHolder side none ∧
      ∃ call use, s.disk.holder side = some call ∧ call.use = some use := by
  obtain ⟨service, -, hstep⟩ := Option.bind_eq_some_iff.mp h
  dsimp only at hstep
  split at hstep
  · obtain ⟨fetch, -, rfl⟩ := Option.map_eq_some_iff.mp hstep
    exact .inl rfl
  · rename_i use _
    split at hstep
    · split at hstep
      · rename_i hholder
        obtain ⟨before, hmap, rfl⟩ := Option.map_eq_some_iff.mp hstep
        obtain ⟨fetch, -, rfl⟩ := Option.map_eq_some_iff.mp hmap
        obtain ⟨call, hcall, huse⟩ := Option.bind_eq_some_iff.mp hholder
        exact .inr ⟨rfl, call, use, hcall, huse⟩
      · cases hstep
    · obtain ⟨fetch, -, rfl⟩ := Option.map_eq_some_iff.mp hstep
      exact .inl rfl

theorem isWriting_of_use {call : DiskCall} {use : DiskUse} (h : call.use = some use) : call.isWriting = false := by
  unfold DiskCall.use at h
  split at h
  · rfl
  · rfl
  · cases h

/-- What the disk cache answers is known. -/
theorem From.answer (h : s.From downloaded stored config codec urls) {url : String} {hit : CachedInlineData}
    (hholder : (s.disk.holder side).bind DiskCall.use = some (.got url (.ok (some hit)))) :
    Known downloaded stored url hit := by
  obtain ⟨call, hcall, huse⟩ := Option.bind_eq_some_iff.mp hholder
  obtain rfl := get_of_use huse
  have hstored : (url, hit) ∈ s.disk.stored := h.pairs.calls side _ hcall
  exact h.stored _ hstored

/-- The disk cache after a service has taken what a call returned. -/
theorem From.release (h : s.From downloaded stored config codec urls) {disk : DiskState}
    (hdisk : disk = s.disk ∨ disk = s.disk.setHolder side none ∧
      ∃ call use, s.disk.holder side = some call ∧ call.use = some use) :
    ({ s with disk } : FetchServices).From downloaded stored config codec urls := by
  rcases hdisk with rfl | ⟨rfl, call, use, hcall, huse⟩
  · exact h
  · refine ⟨h.fetches, h.sound, ?_, fun side' url value phase hholder => ?_, h.stored⟩
    · refine h.pairs.of_idle s.disk.begun none (fun call' hcall' => ?_) nofun
      obtain rfl := Option.some.inj (hcall.symm.trans hcall')
      exact isWriting_of_use huse
    · rcases side.eq_or_other side' with rfl | rfl
      · rw [DiskState.holder_setHolder_self] at hholder
        cases hholder
      · rw [DiskState.holder_setHolder_of_ne side.other_ne] at hholder
        exact h.setting _ url value phase hholder

theorem From.fetch (h : s.From downloaded stored config codec urls) {event : FetchEvent ImageExchange}
    (hbrings : s.downloads config encodeWebp (.fetch side event) ⊆ downloaded)
    (hnext : s.step config codec encodeWebp (.fetch side event) = some s') :
    s'.From downloaded stored config codec urls := by
  have hdisk := fetch_disk hnext
  obtain ⟨service, fetch, hservice, hfetch, huse, disk, -, rfl⟩ := services_fetch_step hnext
  have hdownload : ∀ e ∈ (s.fetches side).downloads (service.fetchConfig encodeWebp) event,
      Traced downloaded stored side e.1 (e.2.toResult false) := by
    intro e he
    refine traced_downloaded (hbrings ?_)
    rw [downloads, hservice]
    exact List.mem_map_of_mem he
  have hanswer : ∀ c call hit, event = .diskAnswer c (.ok (some hit)) → (s.fetches side).calls[c]? = some call →
      Traced downloaded stored side call.url (hit.toResult true) := by
    rintro c call hit rfl hcall
    obtain ⟨hhas, -⟩ := step_diskAnswer hfetch
    refine traced_cached (h.answer (huse _ ?_ hhas))
    rw [FetchState.diskUse, hcall, Option.map_some]
  have hfrom := (h.fetches side).step (h.sound side) (fun _ _ htraced => traced_cached htraced.2) hdownload hanswer hfetch
  have hsound := (step_moved hfetch).sound (h.sound side)
  have hreleased := h.release hdisk
  refine ⟨fun side' => ?_, fun side' => ?_, hreleased.pairs, hreleased.setting, hreleased.stored⟩
  · rcases side.eq_or_other side' with rfl | rfl
    · simpa only [Function.update_self] using hfrom
    · simpa only [Function.update_of_ne side.other_ne] using h.fetches side.other
  · rcases side.eq_or_other side' with rfl | rfl
    · simpa only [Function.update_self] using hsound
    · simpa only [Function.update_of_ne side.other_ne] using h.sound side.other

/-- What is set comes from the service. -/
theorem From.mayStart (h : s.From downloaded stored config codec urls) {url : String} {value : CachedInlineData}
    (hmay : (s.fetches side).mayStart (.set side url value) = true) : Known downloaded stored url value := by
  rw [FetchState.mayStart, Bool.or_eq_true] at hmay
  rcases hmay with hmay | hmay
  · obtain ⟨call, hcall, hphase⟩ := List.any_eq_true.mp hmay
    simp only [Bool.and_eq_true, decide_eq_true_eq] at hphase
    obtain ⟨rfl, hphase⟩ := hphase
    have hfound := (h.fetches side).calls call hcall
    rw [hphase] at hfound
    exact (foundFrom_some.mp hfound).2
  · obtain ⟨task, htask, hphase⟩ := List.any_eq_true.mp hmay
    simp only [Bool.and_eq_true, decide_eq_true_eq] at hphase
    obtain ⟨⟨rfl, -⟩, hphase⟩ := hphase
    obtain ⟨t, hget⟩ := List.mem_iff_getElem?.mp htask
    have hfound := ((h.fetches side).tasks t task hget).phase
    rw [hphase] at hfound
    exact (foundFrom_some.mp hfound).2

end FetchServices

end

section

variable {config : InlineDataUrlConfig} {codec : DiskCodec} {encodeWebp : List UInt8 → Option (List UInt8)}
  {downloaded : List (Side × String × CachedInlineData)} {stored stored' : List (String × CachedInlineData)}
  {urls : List String} {s s' : FetchServices} {side : Side}

/-- A call of `set` goes on with the image that it has, and stores no other. -/
theorem CallStep.set {cfg : DiskCacheConfig} {disk : DiskState} {event : DiskEvent} {call call' : DiskCall} {dir : Disk}
    (h : CallStep cfg disk side event call dir stored' call') :
    (∀ url value phase, call' = .set url value phase → ∃ phase, call = .set url value phase) ∧
      ∀ e ∈ stored', e ∈ disk.stored ∨ ∃ phase, call = .set e.1 e.2 phase := by
  cases h with
  | quiet _ _ _ hset | unlink _ _ _ _ hset => exact ⟨hset, fun _ he => .inl he⟩
  | readMeta | readBody | noBody => exact ⟨nofun, fun _ he => .inl he⟩
  | createBody | writeBody | wroteBody | createMeta | writeMeta | failed =>
    refine ⟨?_, fun _ he => .inl he⟩
    rintro _ _ _ ⟨⟩
    exact ⟨_, rfl⟩
  | wroteMeta =>
    refine ⟨?_, fun e he => ?_⟩
    · rintro _ _ _ ⟨⟩
      exact ⟨_, rfl⟩
    · rcases List.mem_cons.mp he with rfl | he
      · exact .inr ⟨_, rfl⟩
      · exact .inl he

namespace FetchServices

theorem From.disk (h : s.From downloaded stored config codec urls) (hcollision : codec.CollisionFree urls)
    {event : DiskEvent} (hexclusive : s.disk.Exclusive (config.diskCacheConfig codec) urls event)
    (hnext : s.step config codec encodeWebp (.disk event) = some s') : s'.From downloaded stored config codec urls := by
  obtain ⟨hmay, disk, hdisk, rfl⟩ := services_disk_step hnext
  have hpairs := h.pairs.step hcollision hexclusive hdisk
  -- the call that takes the step, and what is stored afterwards
  have hholder : ∀ (disk : DiskState) (side : Side) (next : Option DiskCall),
      (∀ side' call, disk.holder side' = some call → s.disk.holder side' = some call) →
      (∀ url value phase, next = some (.set url value phase) → Known downloaded stored url value) →
      ∀ side' url value phase, (disk.setHolder side next).holder side' = some (.set url value phase) →
        Known downloaded stored url value := by
    intro disk side next hsame hknown side' url value phase hcall
    rcases side.eq_or_other side' with rfl | rfl
    · exact hknown url value phase ((DiskState.holder_setHolder_self _ _ _).symm.trans hcall)
    · rw [DiskState.holder_setHolder_of_ne side.other_ne] at hcall
      exact h.setting _ url value phase (hsame _ _ hcall)
  refine ⟨h.fetches, h.sound, hpairs, ?_, ?_⟩
  · cases disk_moved hdisk with
    | get => exact hholder _ _ _ (fun _ _ h => h) nofun
    | @set side url value =>
      refine hholder { s.disk with begun := _ } _ _ (fun _ _ h => h) fun url' value' phase heq => ?_
      obtain ⟨rfl, rfl, -⟩ := DiskCall.set.inj (Option.some.inj heq)
      exact h.mayStart hmay
    | @call side event call call' dir stored' hcall hstep =>
      refine hholder { s.disk with dir := _, stored := _ } _ _ (fun _ _ h => h) fun url value phase heq => ?_
      obtain ⟨phase', rfl⟩ := hstep.set.1 url value phase (Option.some.inj heq)
      exact h.setting side url value phase' hcall
    | release => exact hholder _ _ _ (fun _ _ h => h) nofun
  · cases disk_moved hdisk with
    | get | set | release => exact h.stored
    | @call side event call call' dir stored' hcall hstep =>
      intro e he
      rcases hstep.set.2 e he with he | ⟨phase, rfl⟩
      · exact h.stored e he
      · exact h.setting side e.1 e.2 phase hcall

theorem From.start {dir : Disk} (hdir : ∀ url ∈ urls, (DiskState.start dir stored).Paired (config.diskCacheConfig codec) url) :
    (FetchServices.start config dir stored).From [] stored config codec urls where
  fetches side := by
    refine ⟨fun cache hcache e he => ?_, fun call hcall => ?_, fun t task htask => ?_⟩
    · rw [start_memory hcache] at he
      cases he
    · cases hcall
    · cases htask
  sound side := sound_init _
  pairs := ⟨nofun, nofun, nofun, fun url hmem _ => hdir url hmem⟩
  setting := nofun
  stored e he := .inr he

end FetchServices

/-- **What `fetch` returns for a URL is an image that was downloaded for this URL**, by the service itself where
it comes from no cache, or one that was on disk at the start. No image of another URL is mixed in, whatever the
calls and the tasks of both services do in between, as long as the services do not break into what the other
does on disk with the same URL. -/
theorem images_traced {dir : Disk} (hcollision : codec.CollisionFree urls)
    (hdir : ∀ url ∈ urls, (DiskState.start dir stored).Paired (config.diskCacheConfig codec) url)
    (hreach : Reach (recording (FetchServices.step config codec encodeWebp) (FetchServices.downloads config encodeWebp))
      (OnState (FetchServices.Exclusive config codec urls)) (FetchServices.start config dir stored, []) (s, downloaded))
    {call : Call} (hcall : call ∈ (s.fetches side).calls) {task : Option ℕ} {result : FetchResult}
    (hphase : call.phase = .ended task (.returned (.ok result))) :
    (result.fromCache = false → (side, call.url, result.image) ∈ downloaded) ∧
      ((∃ side', (side', call.url, result.image) ∈ downloaded) ∨ (call.url, result.image) ∈ stored) := by
  have hfrom : s.From downloaded stored config codec urls := by
    let inv (downloaded : List (Side × String × CachedInlineData)) (s : FetchServices) : Prop :=
      s.From downloaded stored config codec urls
    have hstart : inv [] (FetchServices.start config dir stored) := FetchServices.From.start hdir
    refine hreach.recorded hstart (fun _ _ _ hle h => h.mono hle) ?_
    intro downloaded s event s' h hbrings hexclusive hnext
    cases event with
    | fetch side event => exact h.fetch hbrings hnext
    | disk event => exact h.disk hcollision hexclusive hnext
  have hfound := (hfrom.fetches side).calls call hcall
  rw [hphase] at hfound
  exact foundFrom_some.mp hfound

end

/-- The request side finds on disk what the response side has downloaded. -/
theorem images_traced_example : ∃ (s : FetchServices) (downloaded : List (Side × String × CachedInlineData)),
    ∃ call ∈ (s.fetches .request).calls, call.phase = .ended none (.returned (.ok ⟨"image/png", [0x89, 0x50], true⟩)) ∧
      downloaded = [(.response, cachedUrl, ⟨"image/png", [0x89, 0x50]⟩)] ∧
      ∃ side, (side, call.url, (⟨"image/png", [0x89, 0x50]⟩ : CachedInlineData)) ∈ downloaded := by
  have hrun : (runMeeting (recording (FetchServices.step sharedConfig cachedUrlCodec fun _ => none)
      (FetchServices.downloads sharedConfig fun _ => none)) (OnState (FetchServices.Exclusive sharedConfig cachedUrlCodec [cachedUrl]))
      (FetchServices.start sharedConfig .empty [], []) (sharedEvents [0x89, 0x50])).map
        (fun r => ((r.1.fetches .request).calls, r.2)) =
        some ([⟨cachedUrl, .ended none (.returned (.ok ⟨"image/png", [0x89, 0x50], true⟩))⟩],
          [(.response, cachedUrl, ⟨"image/png", [0x89, 0x50]⟩)]) := by decide +kernel
  obtain ⟨⟨s, downloaded⟩, hs, hend⟩ := Option.map_eq_some_iff.mp hrun
  obtain ⟨hcalls, hdownloaded⟩ := Prod.mk.inj hend
  have hcall : (⟨cachedUrl, .ended none (.returned (.ok ⟨"image/png", [0x89, 0x50], true⟩))⟩ : Call) ∈
      (s.fetches .request).calls := hcalls ▸ List.mem_singleton_self _
  have hcollision : cachedUrlCodec.CollisionFree [cachedUrl] := by
    intro url hurl url' hurl' _
    rw [List.mem_singleton.mp hurl, List.mem_singleton.mp hurl']
  obtain ⟨-, hknown⟩ := images_traced hcollision (fun _ _ _ hmeta => by cases hmeta) (runMeeting_reach hs) hcall rfl
  exact ⟨s, downloaded, _, hcall, rfl, hdownloaded, hknown.resolve_right (List.not_mem_nil)⟩

end GeminiWorker
