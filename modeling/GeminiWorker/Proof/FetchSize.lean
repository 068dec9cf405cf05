import GeminiWorker.Proof.DiskCache
import GeminiWorker.Proof.FetchService
import GeminiWorker.Proof.MemoryCache
import GeminiWorker.Proof.ServicesStep
import GeminiWorker.Spec.FetchServices

/-!
# How large the images are that `fetch` returns

Each service checks the size while it downloads, but both store their images in one directory.

* `directFetch_length_le`: what is downloaded keeps to the limit.
* `FetchState.Bounded`: all images of a service keep to it, as long as those that it finds on disk do.
* `DiskState.Sized`: a body on disk is no longer than an image that was set under its key.
* `fetch_bounded`: no image is too large for the service that returns it, unless the request side finds
  one on disk where a larger one was set.
-/

namespace GeminiWorker

/-! ## Downloads -/

section

variable {encodeWebp : List UInt8 → Option (List UInt8)} {maxImageBytes : ℕ}

theorem readChunks_length_le {chunks : List (Except ImageFetchError (List UInt8))} {totalBytes : ℕ}
    {bytes image : List UInt8} (htotal : totalBytes = bytes.length) (hle : totalBytes ≤ maxImageBytes)
    (h : readChunks maxImageBytes totalBytes bytes chunks = .ok image) : image.length ≤ maxImageBytes := by
  induction chunks generalizing totalBytes bytes with
  | nil =>
    obtain rfl := Except.ok.inj h
    rwa [← htotal]
  | cons chunk chunks ih =>
    rcases chunk with err | chunk
    · cases h
    · rw [readChunks] at h
      split at h
      · cases h
      · rename_i hfits
        exact ih (by rw [List.length_append, htotal]) (Nat.le_of_not_lt hfits) h

theorem ImageResponse.fetch_length_le {response : ImageResponse} {rawUrl : String} {fetched : CachedInlineData}
    (h : response.fetch rawUrl maxImageBytes = .ok fetched) : fetched.bytes.length ≤ maxImageBytes := by
  rw [ImageResponse.fetch] at h
  split at h
  · cases h
  · split at h
    · cases h
    · rcases hread : readChunks maxImageBytes 0 [] response.chunks with err | bytes
      · rw [hread] at h
        cases h
      · rw [hread] at h
        obtain rfl := Except.ok.inj h
        have hempty : 0 = ([] : List UInt8).length := rfl
        exact readChunks_length_le hempty (Nat.zero_le _) hread

/-- The re-encoded image is kept where it is shorter. -/
theorem convertPngToLosslessWebp_length_le {fetched converted : CachedInlineData} {thresholdBytes : ℕ}
    (h : convertPngToLosslessWebp encodeWebp fetched thresholdBytes = some converted) :
    converted.bytes.length ≤ fetched.bytes.length := by
  rw [convertPngToLosslessWebp] at h
  split at h
  · obtain rfl := Option.some.inj h
    exact le_rfl
  · obtain ⟨encoded, -, rfl⟩ := Option.map_eq_some_iff.mp h
    split
    · exact le_rfl
    · rename_i hshorter
      exact (Nat.lt_of_not_le hshorter).le

theorem maybeConvert_length_le {fetched converted : CachedInlineData} {optimizing : OptimizeOutcome}
    (h : maybeConvertLargePngToLosslessWebp encodeWebp fetched optimizing = .ok converted) :
    converted.bytes.length ≤ fetched.bytes.length := by
  cases optimizing with
  | finished =>
    obtain rfl := Except.ok.inj h
    rcases hconvert : convertPngToLosslessWebp encodeWebp fetched requestPngWebpThresholdBytes with _ | converted
    · exact le_rfl
    · exact convertPngToLosslessWebp_length_le hconvert
  | timedOut =>
    obtain rfl := Except.ok.inj h
    exact le_rfl
  | taskFailed text => cases h

theorem fetchOnce_length_le {optimize : Bool} {fetchUrl : String} {attempt : ImageAttempt} {fetched : CachedInlineData}
    (h : fetchOnce encodeWebp maxImageBytes optimize fetchUrl attempt = .ok fetched) :
    fetched.bytes.length ≤ maxImageBytes := by
  cases attempt with
  | failed err => cases h
  | totalTimeout => cases h
  | received response optimizing =>
    obtain ⟨downloaded, hdownload, hnext⟩ := Except.bind_eq_ok.mp h
    have hle := ImageResponse.fetch_length_le hdownload
    split at hnext
    · exact (maybeConvert_length_le hnext).trans hle
    · rwa [← Except.ok.inj hnext]

/-- **What is downloaded keeps to the limit of the service.** -/
theorem directFetch_length_le {optimize : Bool} {exchange : ImageExchange} {fetched : CachedInlineData}
    (h : directFetch encodeWebp maxImageBytes optimize exchange = .ok fetched) :
    fetched.bytes.length ≤ maxImageBytes := by
  obtain ⟨fetchUrl, -, hnext⟩ := Except.bind_eq_ok.mp h
  split at hnext
  · rename_i first hfirst
    obtain rfl := Except.ok.inj hnext
    exact fetchOnce_length_le hfirst
  · split at hnext
    · rcases hsecond : fetchOnce encodeWebp maxImageBytes optimize fetchUrl exchange.second with err | second
      · rw [hsecond] at hnext
        cases hnext
      · rw [hsecond] at hnext
        obtain rfl := Except.ok.inj hnext
        exact fetchOnce_length_le hsecond
    · cases hnext

end

/-! ## The images of a service -/

/-- The image that an outcome returns. -/
def FetchOutcome.image : FetchOutcome → Option (List UInt8)
  | .returned (.ok result) => some result.bytes
  | _ => none

def CallPhase.image : CallPhase → Option (List UInt8)
  | .diskHit hit | .storingMemory hit | .storingDisk hit => some hit.bytes
  | .leaving _ outcome | .aborting _ outcome | .removing _ outcome | .ended _ outcome => outcome.image
  | _ => none

def publishedImage : Published → Option (List UInt8)
  | .ok hit => some hit.bytes
  | .error _ => none

def TaskPhase.image : TaskPhase → Option (List UInt8)
  | .publishing result | .notifying result | .removing result => publishedImage result
  | .storingMemory hit | .storingDisk hit => some hit.bytes
  | .downloading | .finished => none

/-- An image, where there is one, keeps to the limit. -/
def ImageFits (limit : ℕ) (image : Option (List UInt8)) : Prop := ∀ bytes, image = some bytes → bytes.length ≤ limit

structure FetchTask.Bounded (limit : ℕ) (task : FetchTask) : Prop where
  phase : ImageFits limit task.phase.image
  result : ImageFits limit (task.result.bind publishedImage)

structure FetchState.Bounded (limit : ℕ) (s : FetchState) : Prop where
  memory : ∀ cache, s.memoryCache = some cache → ∀ e ∈ cache.items, e.2.bytes.length ≤ limit
  calls : ∀ call ∈ s.calls, ImageFits limit call.phase.image
  tasks : ∀ (t : ℕ) (task : FetchTask), s.tasks[t]? = some task → task.Bounded limit

theorem fits_none (limit : ℕ) : ImageFits limit none := nofun

theorem fits_some {limit : ℕ} {bytes : List UInt8} : ImageFits limit (some bytes) ↔ bytes.length ≤ limit :=
  ⟨fun h => h bytes rfl, fun h _ heq => Option.some.inj heq ▸ h⟩

section

open FetchState (setPhase setTask setMemory removeTask)

variable {Response : Type} {cfg : FetchConfig Response} {s s' : FetchState} {event : FetchEvent Response} {limit : ℕ}

theorem publishedResult_image (published : Published) :
    (FetchOutcome.returned (publishedResult published)).image = publishedImage published := by
  rcases published with text | hit <;> rfl

theorem PhaseStep.fits {c : ℕ} {url : String} {phase next : CallPhase} (h : PhaseStep cfg s c url event phase next)
    (hbounded : s.Bounded limit) (hphase : ImageFits limit phase.image)
    (hdownload : ∀ response hit, cfg.download response = .ok hit → hit.bytes.length ≤ limit)
    (hdisk : ∀ hit, event = .diskAnswer c (.ok (some hit)) → hit.bytes.length ≤ limit) : ImageFits limit next.image := by
  cases h with
  | diskFound hit => exact fits_some.mpr (hdisk hit rfl)
  | fetched h => exact fits_some.mpr (hdownload _ _ h)
  | stored cached => exact hphase
  | @published t task _ published h hresult _ =>
    have htask := (hbounded.tasks t task h).result
    rw [hresult, Option.bind_some] at htask
    have himage := publishedResult_image published
    rw [CallPhase.image, himage]
    exact htask
  | @cancel phase next h =>
    have hcancelled : next.image = none := by
      cases phase <;> first | (obtain rfl := Option.some.inj h; rfl) | cases h
    rw [hcancelled]
    exact fits_none limit
  | memoryMiss | noDisk | diskFailed | diskMiss | absent | full | failed | notified | unpublished | gaveUp
    | withoutResult | wake | waitTimeout => exact fits_none limit

theorem SpawnedStep.bounded {t : ℕ} {task next : FetchTask} (h : SpawnedStep cfg t task event next)
    (htask : task.Bounded limit)
    (hdownload : ∀ response hit, cfg.download response = .ok hit → hit.bytes.length ≤ limit) : next.Bounded limit := by
  cases h with
  | poll | suspend => exact ⟨htask.phase, htask.result⟩
  | response response _ _ =>
    refine ⟨?_, htask.result⟩
    rcases hresponse : cfg.download response with text | hit
    · exact fits_none limit
    · exact fits_some.mpr (hdownload response hit hresponse)
  | publish _ hphase =>
    have hresult := htask.phase
    rw [hphase] at hresult
    exact ⟨hresult, hresult⟩
  | notify _ hphase =>
    have hresult := htask.phase
    rw [hphase] at hresult
    exact ⟨hresult, htask.result⟩
  | stored => exact ⟨fits_none limit, htask.result⟩

namespace FetchState

theorem Bounded.setMemory (h : s.Bounded limit) (url : String) {hit : CachedInlineData} (hhit : hit.bytes.length ≤ limit) :
    (s.setMemory url hit).Bounded limit := by
  refine ⟨fun cache hcache e he => ?_, h.calls, h.tasks⟩
  obtain ⟨before, hbefore, rfl⟩ := Option.map_eq_some_iff.mp hcache
  rcases MemoryCache.mem_set he with he | rfl
  · exact h.memory before hbefore e he
  · exact hhit

theorem Bounded.setPhase (h : s.Bounded limit) (c : ℕ) (call : Call) {phase : CallPhase} (hphase : ImageFits limit phase.image) :
    (s.setPhase c call phase).Bounded limit := by
  refine ⟨h.memory, fun call' hcall' => ?_, h.tasks⟩
  rcases List.mem_or_eq_of_mem_set hcall' with hcall' | rfl
  · exact h.calls call' hcall'
  · exact hphase

theorem Bounded.setTask (h : s.Bounded limit) (t : ℕ) {task : FetchTask} (htask : task.Bounded limit) :
    (s.setTask t task).Bounded limit := by
  refine ⟨h.memory, h.calls, fun t' task' hget => ?_⟩
  rcases List.mem_or_eq_of_mem_set (List.mem_of_getElem? hget) with hmem | rfl
  · obtain ⟨t'', hget'⟩ := List.mem_iff_getElem?.mp hmem
    exact h.tasks t'' task' hget'
  · exact htask

/-- A task whose images stay as they are. -/
theorem Bounded.setTask_same (h : s.Bounded limit) {t : ℕ} {task task' : FetchTask} (htask : s.tasks[t]? = some task)
    (hphase : task'.phase = task.phase) (hresult : task'.result = task.result) :
    (s.setTask t task').Bounded limit := by
  have hbefore := h.tasks t task htask
  refine h.setTask t ⟨?_, ?_⟩
  · rw [hphase]
    exact hbefore.phase
  · rw [hresult]
    exact hbefore.result

theorem Bounded.removeTask (h : s.Bounded limit) (url : String) (t : ℕ) : (s.removeTask url t).Bounded limit := by
  unfold FetchState.removeTask
  split
  · exact ⟨h.memory, h.calls, h.tasks⟩
  · exact h

/-- **All images of a service keep to a limit that its downloads keep to, as long as what it finds on disk does.** -/
theorem Bounded.step (h : s.Bounded limit)
    (hdownload : ∀ response hit, cfg.download response = .ok hit → hit.bytes.length ≤ limit)
    (hdisk : ∀ c hit, event = .diskAnswer c (.ok (some hit)) → hit.bytes.length ≤ limit)
    (hnext : s.step cfg event = some s') : s'.Bounded limit := by
  have hcall : ∀ {c : ℕ} {call : Call} {phase : CallPhase}, s.calls[c]? = some call → call.phase = phase →
      ImageFits limit phase.image := by
    intro c call phase hget hphase
    exact hphase ▸ h.calls call (List.mem_of_getElem? hget)
  cases step_moved hnext with
  | fetch url =>
    refine ⟨h.memory, fun call hmem => ?_, h.tasks⟩
    rcases List.mem_append.mp hmem with hmem | hmem
    · exact h.calls call hmem
    · rw [List.mem_singleton.mp hmem]
      exact fits_none limit
  | phase hget hstep => exact h.setPhase _ _ (hstep.fits h (hcall hget rfl) hdownload fun hit heq => hdisk _ hit heq)
  | @memoryHit c call hit cache hget hphase hlookup =>
    obtain ⟨before, hbefore, hfound⟩ := Option.bind_eq_some_iff.mp hlookup
    obtain ⟨item, hitem, rfl, -, -⟩ := MemoryCache.get_eq_some hfound
    have hmemory : ({ s with memoryCache := some cache } : FetchState).Bounded limit := by
      refine ⟨fun cache' heq e he => ?_, h.calls, h.tasks⟩
      obtain rfl := Option.some.inj heq
      exact h.memory before hbefore e (MemoryCache.mem_get hfound he)
    exact hmemory.setPhase c call (fits_some.mpr (h.memory before hbefore _ (Assoc.mem_of_lookup hitem)))
  | keepDiskHit hget hphase | storeMemory hget hphase =>
    have hhit := hcall hget hphase
    exact (h.setMemory _ (fits_some.mp hhit)).setPhase _ _ hhit
  | join hget hphase hfound => exact h.setPhase _ _ (fits_none limit)
  | @insert c call hget hphase habsent hroom =>
    have hinserted : ({ s with
        tasks := s.tasks ++ [FetchTask.new call.url]
        inflight := (call.url, s.tasks.length) :: s.inflight } : FetchState).Bounded limit := by
      refine ⟨h.memory, h.calls, fun t task htask => ?_⟩
      rcases List.mem_append.mp (List.mem_of_getElem? htask) with hmem | hmem
      · obtain ⟨t', hget'⟩ := List.mem_iff_getElem?.mp hmem
        exact h.tasks t' task hget'
      · rw [List.mem_singleton.mp hmem]
        exact ⟨fits_none limit, fits_none limit⟩
    exact hinserted.setPhase _ _ (fits_none limit)
  | @storeHandle c call t task hget hphase htask | @register c call t task hget hphase htask =>
    refine FetchState.Bounded.setPhase (h.setTask_same htask ?_ ?_) c call (fits_none limit)
    · rfl
    · rfl
  | @leave c call t task outcome hget hphase htask _
  | @leaveLast c call t task outcome hget hphase htask _ _
  | @abort c call t task outcome hget hphase htask =>
    have himage : ImageFits limit outcome.image := hcall hget hphase
    refine FetchState.Bounded.setPhase (h.setTask_same htask ?_ ?_) c call himage
    · rfl
    · rfl
  | @locked c call t outcome hget hphase =>
    have himage : ImageFits limit outcome.image := hcall hget hphase
    exact (h.removeTask call.url t).setPhase c call himage
  | @contended c call t outcome hget hphase =>
    have himage : ImageFits limit outcome.image := hcall hget hphase
    have hcontended : ({ s with helpers := s.helpers ++ [(call.url, t)] } : FetchState).Bounded limit :=
      ⟨h.memory, h.calls, h.tasks⟩
    exact hcontended.setPhase c call himage
  | @helper index url t hhelper =>
    have hremoved := h.removeTask url t
    exact ⟨hremoved.memory, hremoved.calls, hremoved.tasks⟩
  | task htask hstep => exact h.setTask _ (hstep.bounded (h.tasks _ _ htask) hdownload)
  | @remove t task result htask _ hphase =>
    have hbefore := h.tasks t task htask
    have hresult := hbefore.phase
    rw [hphase] at hresult
    have hremoved : ({ s with inflight := Assoc.others task.url s.inflight } : FetchState).Bounded limit :=
      ⟨h.memory, h.calls, h.tasks⟩
    refine hremoved.setTask t ⟨?_, hbefore.result⟩
    rcases result with text | hit
    · exact fits_none limit
    · exact hresult
  | @storeTaskMemory t task hit htask _ hphase =>
    have hbefore := h.tasks t task htask
    have hhit := hbefore.phase
    rw [hphase] at hhit
    exact (h.setMemory _ (fits_some.mp hhit)).setTask t ⟨hhit, hbefore.result⟩

end FetchState

end

/-! ## The bodies on disk -/

namespace DiskState

section

variable (cfg : DiskCacheConfig)

/-- No longer than an image that `set` was called with, for the key of the URL. -/
def NoLonger (s : DiskState) (url : String) (bytes : List UInt8) : Prop :=
  ∃ e ∈ s.begun, cfg.cacheKey e.1 = cfg.cacheKey url ∧ bytes.length ≤ e.2.bytes.length

def CallSized (s : DiskState) : DiskCall → Prop
  | .get url (.returned (.ok (some hit))) => s.NoLonger cfg url hit.bytes
  | .get _ _ => True
  | .set url value (.writeBody file _) => (url, value) ∈ s.begun ∧ s.dir.Held (cfg.bodyPath url) file
  | .set url value (.writeMeta file _ _) => (url, value) ∈ s.begun ∧ s.dir.Held (cfg.metaPath url) file
  | .set url value _ => (url, value) ∈ s.begun

structure Sized (s : DiskState) : Prop where
  body : ∀ url bytes, s.dir.read (cfg.bodyPath url) = some bytes → s.NoLonger cfg url bytes
  calls : ∀ side call, s.holder side = some call → s.CallSized cfg call

end

variable {cfg : DiskCacheConfig} {s s' : DiskState} {side : Side} {event : DiskEvent} {call call' : DiskCall} {dir : Disk}
  {stored begun : List (String × CachedInlineData)} {url : String} {value : CachedInlineData}

theorem NoLonger.mono {bytes : List UInt8} (h : s.NoLonger cfg url bytes) (hbegun : s.begun ⊆ s'.begun) :
    s'.NoLonger cfg url bytes := by
  obtain ⟨e, he, hkey, hle⟩ := h
  exact ⟨e, hbegun he, hkey, hle⟩

theorem CallSized.mem_begun {phase : SetPhase} (h : s.CallSized cfg (.set url value phase)) : (url, value) ∈ s.begun := by
  cases phase with
  | writeBody | writeMeta => exact h.1
  | createDir | createBody | createMeta | readDir | readEntries | removeMeta | removeBody | returned => exact h

theorem CallSized.mono (h : s.CallSized cfg call) (hbegun : s.begun ⊆ s'.begun)
    (hheld : ∀ path file, s.dir.Held path file → s'.dir.Held path file) : s'.CallSized cfg call := by
  rcases call with ⟨url, phase⟩ | ⟨url, value, phase⟩
  · cases phase with
    | returned answer =>
      rcases answer with text | _ | hit
      · trivial
      · trivial
      · exact NoLonger.mono h hbegun
    | metaExists | bodyExists | readMeta | removeMeta | removeBody | readBody => trivial
  · cases phase with
    | writeBody | writeMeta => exact ⟨hbegun h.1, hheld _ _ h.2⟩
    | createDir | createBody | createMeta | readDir | readEntries | removeMeta | removeBody | returned => exact hbegun h

/-- The side that takes a step, and the files that it writes, are looked at one by one. -/
theorem Sized.setHolder (h : s.Sized cfg) (side : Side) (next : Option DiskCall) (hbegun : s.begun ⊆ begun)
    (hheld : ∀ path file, s.dir.Held path file → dir.Held path file)
    (hbody : ∀ url bytes, dir.read (cfg.bodyPath url) = some bytes →
      s.dir.read (cfg.bodyPath url) = some bytes ∨ ({ s with dir, begun, stored } : DiskState).NoLonger cfg url bytes)
    (hnext : ∀ call, next = some call → ({ s with dir, begun, stored } : DiskState).CallSized cfg call) :
    ({ s with dir, begun, stored }.setHolder side next : DiskState).Sized cfg := by
  refine ⟨fun url bytes hread => ?_, fun side' call hcall => ?_⟩
  · rcases hbody url bytes hread with hbefore | hnew
    · exact (h.body url bytes hbefore).mono hbegun
    · exact hnew
  · by_cases hside : side' = side
    · subst hside
      have hself : next = some call := (DiskState.holder_setHolder_self _ _ _).symm.trans hcall
      exact hnext call hself
    · have hother : s.holder side' = some call := (DiskState.holder_setHolder_of_ne hside _ _).symm.trans hcall
      exact (h.calls side' call hother).mono hbegun hheld

theorem Sized.callStep (h : s.Sized cfg) (hcall : s.holder side = some call)
    (hstep : CallStep cfg s side event call dir stored call') :
    ({ s with dir, stored }.setHolder side (some call') : DiskState).Sized cfg := by
  have hsized := h.calls side call hcall
  -- between phases that nothing depends on, an image that is set stays the same
  have hquiet : ∀ {dir : Disk}, call'.isQuiet = true → (∀ url value phase, call' = .set url value phase →
      ∃ phase, call = .set url value phase) → ({ s with dir, stored } : DiskState).CallSized cfg call' := by
    intro dir hquiet' hset
    rcases call' with ⟨url, phase⟩ | ⟨url, value, phase⟩
    · cases phase with
      | returned answer =>
        rcases answer with text | _ | hit
        · trivial
        · trivial
        · cases hquiet'
      | metaExists | bodyExists | readMeta | removeMeta | removeBody | readBody => trivial
    · obtain ⟨before, rfl⟩ := hset url value phase rfl
      have hmem := hsized.mem_begun
      cases phase with
      | writeBody | writeMeta => cases hquiet'
      | createDir | createBody | createMeta | readDir | readEntries | removeMeta | removeBody | returned => exact hmem
  cases hstep with
  | quiet _ h' _ hset =>
    exact h.setHolder side _ (fun _ h => h) (fun _ _ h => h) (fun _ _ hread => .inl hread)
      fun _ heq => Option.some.inj heq ▸ hquiet h' hset
  | unlink path _ h' _ hset =>
    exact h.setHolder side _ (fun _ h => h) (fun _ _ h => h.unlink path)
      (fun _ _ hread => .inl ((Disk.Kept.unlink _ _ _).read hread))
      fun _ heq => Option.some.inj heq ▸ hquiet h' hset
  | readMeta | noBody =>
    exact h.setHolder side _ (fun _ h => h) (fun _ _ h => h) (fun _ _ hread => .inl hread)
      fun _ heq => Option.some.inj heq ▸ trivial
  | @readBody url now bytes info hread =>
    have hbody := h.body url bytes hread
    exact h.setHolder side _ (fun _ h => h) (fun _ _ h => h) (fun _ _ hread => .inl hread)
      fun _ heq => Option.some.inj heq ▸ hbody
  | @createBody url value now =>
    have hmem := hsized.mem_begun
    refine h.setHolder side _ (fun _ h => h) (fun _ _ h => h.create _) (fun url' bytes hread => ?_)
      fun _ heq => Option.some.inj heq ▸ ⟨hmem, .created⟩
    by_cases hpath : cfg.bodyPath url' = cfg.bodyPath url
    · rw [hpath] at hread
      have hempty := Disk.Writes.created.onlyReads bytes hread
      exact .inr ⟨(url, value), hmem, (bodyPath_inj hpath).symm, by rw [hempty]; exact Nat.zero_le _⟩
    · exact .inl ((Disk.Kept.create hpath).read hread)
  | @writeBody url value file written count hcount =>
    obtain ⟨hmem, hheld⟩ := hsized
    refine h.setHolder side _ (fun _ h => h) (fun _ _ h => h.writeAt _ _) (fun url' bytes hread => ?_)
      fun _ heq => Option.some.inj heq ▸ ⟨hmem, hheld.writeAt _ _⟩
    obtain ⟨file', hname, hcontents⟩ := Option.map_eq_some_iff.mp hread
    rw [Disk.names_writeAt] at hname
    rw [Disk.contents_writeAt] at hcontents
    by_cases hfile : file' = file
    · subst hfile
      rw [if_pos rfl] at hcontents
      have hkey := bodyPath_inj (hheld.only _ hname)
      have hold : s.dir.read (cfg.bodyPath url') = some (s.dir.contents file') := by
        rw [Disk.read, hname, Option.map_some]
      have hlength := Disk.length_patch (s.dir.contents file') written ((value.bytes.drop written).take count)
      rw [hcontents, List.length_take, List.length_drop] at hlength
      -- as long as before, or up to where it is written
      by_cases hlonger : bytes.length ≤ (s.dir.contents file').length
      · obtain ⟨e, he, hekey, hle⟩ := h.body url' _ hold
        exact .inr ⟨e, he, hekey, hlonger.trans hle⟩
      · exact .inr ⟨(url, value), hmem, hkey.symm, by dsimp only; omega⟩
    · rw [if_neg hfile] at hcontents
      exact .inl (by rw [Disk.read, hname, Option.map_some, hcontents])
  | wroteBody | wroteMeta | failed =>
    have hmem := hsized.mem_begun
    exact h.setHolder side _ (fun _ h => h) (fun _ _ h => h) (fun _ _ hread => .inl hread)
      fun _ heq => Option.some.inj heq ▸ hmem
  | createMeta =>
    have hmem := hsized.mem_begun
    exact h.setHolder side _ (fun _ h => h) (fun _ _ h => h.create _)
      (fun _ _ hread => .inl ((Disk.Kept.create fun heq => metaPath_ne_bodyPath heq.symm).read hread))
      fun _ heq => Option.some.inj heq ▸ ⟨hmem, .created⟩
  | writeMeta =>
    obtain ⟨hmem, hheld⟩ := hsized
    exact h.setHolder side _ (fun _ h => h) (fun _ _ h => h.writeAt _ _)
      (fun _ _ hread => .inl ((Disk.Kept.writeAt hheld (fun heq => metaPath_ne_bodyPath heq.symm) _ _).read hread))
      fun _ heq => Option.some.inj heq ▸ ⟨hmem, hheld.writeAt _ _⟩

theorem Sized.step (h : s.Sized cfg) (hnext : s.step cfg event = some s') : s'.Sized cfg := by
  cases disk_moved hnext with
  | get =>
    exact h.setHolder _ _ (fun _ h => h) (fun _ _ h => h) (fun _ _ hread => .inl hread)
      fun _ heq => Option.some.inj heq ▸ trivial
  | @set side url value =>
    exact h.setHolder _ _ (List.subset_cons_self _ _) (fun _ _ h => h) (fun _ _ hread => .inl hread)
      fun _ heq => Option.some.inj heq ▸ List.mem_cons_self
  | call hcall hstep => exact h.callStep hcall hstep
  | release => exact h.setHolder _ none (fun _ h => h) (fun _ _ h => h) (fun _ _ hread => .inl hread) nofun

end DiskState

/-! ## Both services -/

section

open Transition (Reach)

variable {config : InlineDataUrlConfig} {codec : DiskCodec} {encodeWebp : List UInt8 → Option (List UInt8)}

theorem service_maxImageBytes {side : Side} {service : InlineDataUrlFetchService} (h : config.service side = some service) :
    service.maxImageBytes = side.maxImageBytes := by
  cases side <;>
    · simp only [InlineDataUrlConfig.service, InlineDataUrlConfig.fromConfig, InlineDataUrlConfig.fromResponseConfig,
        InlineDataUrlConfig.fromConfigWithPngOptimization] at h
      split at h
      · cases h
      · obtain rfl := Option.some.inj h
        rfl

theorem maxImageBytes_le (side : Side) : side.maxImageBytes ≤ defaultMaxImageBytes := by
  cases side <;> decide

/-- Before the request side takes an image from disk, no larger one than it allows was set under its key. -/
def FetchServices.isSmall (config : InlineDataUrlConfig) (codec : DiskCodec) (s : FetchServices) : ServicesEvent → Bool
  | .fetch .request (.diskAnswer c (.ok (some _))) =>
    match (s.fetches .request).calls[c]? with
    | some call => s.disk.begun.all fun e =>
        decide ((config.diskCacheConfig codec).cacheKey e.1 = (config.diskCacheConfig codec).cacheKey call.url →
          e.2.bytes.length ≤ requestMaxImageBytes)
    | none => true
  | _ => true

def FetchServices.Small (config : InlineDataUrlConfig) (codec : DiskCodec) (s : FetchServices) (event : ServicesEvent) :
    Prop := s.isSmall config codec event = true

instance (s : FetchServices) (event : ServicesEvent) : Decidable (s.Small config codec event) :=
  inferInstanceAs (Decidable (_ = true))

/-- What holds of both services and of their directory. -/
structure FetchServices.Bounded (config : InlineDataUrlConfig) (codec : DiskCodec) (s : FetchServices) : Prop where
  fetches : ∀ side, (s.fetches side).Bounded side.maxImageBytes
  disk : s.disk.Sized (config.diskCacheConfig codec)
  begun : ∀ e ∈ s.disk.begun, e.2.bytes.length ≤ defaultMaxImageBytes

variable {s s' : FetchServices} {event : ServicesEvent} {side : Side}

/-- An answer of the disk cache that a service takes. -/
theorem answer_length_le (h : s.Bounded config codec) {c : ℕ} {hit : CachedInlineData} {call : Call}
    (hsmall : s.Small config codec (.fetch side (.diskAnswer c (.ok (some hit)))))
    (hcall : (s.fetches side).calls[c]? = some call)
    (huse : (s.disk.holder side).bind DiskCall.use = some (.got call.url (.ok (some hit)))) :
    hit.bytes.length ≤ side.maxImageBytes := by
  obtain ⟨diskCall, hholder, hreturned⟩ := Option.bind_eq_some_iff.mp huse
  have hsized := h.disk.calls side diskCall hholder
  have hnoLonger : s.disk.NoLonger (config.diskCacheConfig codec) call.url hit.bytes := by
    obtain rfl := get_of_use hreturned
    exact hsized
  obtain ⟨e, he, hkey, hle⟩ := hnoLonger
  cases side with
  | request =>
    -- only here a larger image may be in the way
    rw [FetchServices.Small, FetchServices.isSmall, hcall, List.all_eq_true] at hsmall
    exact hle.trans (of_decide_eq_true (hsmall e he) hkey)
  | response => exact hle.trans (h.begun e he)

theorem FetchServices.Bounded.fetch (h : s.Bounded config codec) {service : InlineDataUrlFetchService}
    (hservice : config.service side = some service) {event : FetchEvent ImageExchange} {next : FetchState}
    (hsmall : s.Small config codec (.fetch side event))
    (huse : ∀ use, (s.fetches side).diskUse event = some use → service.hasDiskCache = true →
      (s.disk.holder side).bind DiskCall.use = some use)
    (hnext : (s.fetches side).step (service.fetchConfig encodeWebp) event = some next) :
    ({ s with fetches := Function.update s.fetches side next } : FetchServices).Bounded config codec := by
  have hlimit := service_maxImageBytes hservice
  have hdownload : ∀ exchange hit, (service.fetchConfig encodeWebp).download exchange = .ok hit →
      hit.bytes.length ≤ side.maxImageBytes := by
    intro exchange hit hok
    rw [← hlimit]
    exact directFetch_length_le hok
  have hdisk : ∀ c hit, event = .diskAnswer c (.ok (some hit)) → hit.bytes.length ≤ side.maxImageBytes := by
    rintro c hit rfl
    obtain ⟨hhas, call, hcall, -⟩ := step_diskAnswer hnext
    refine answer_length_le h hsmall hcall (huse _ ?_ hhas)
    rw [FetchState.diskUse, hcall, Option.map_some]
  refine ⟨fun side' => ?_, h.disk, h.begun⟩
  by_cases hside : side' = side
  · subst hside
    change (Function.update s.fetches side' next side').Bounded side'.maxImageBytes
    rw [Function.update_self]
    exact (h.fetches side').step hdownload hdisk hnext
  · change (Function.update s.fetches side next side').Bounded side'.maxImageBytes
    rw [Function.update_of_ne hside]
    exact h.fetches side'

/-- What is set comes from the service. -/
theorem mayStart_length_le (h : s.Bounded config codec) {url : String} {value : CachedInlineData}
    (hmay : (s.fetches side).mayStart (.set side url value) = true) :
    value.bytes.length ≤ side.maxImageBytes := by
  rw [FetchState.mayStart, Bool.or_eq_true] at hmay
  rcases hmay with hmay | hmay
  · obtain ⟨call, hcall, hphase⟩ := List.any_eq_true.mp hmay
    simp only [Bool.and_eq_true, decide_eq_true_eq] at hphase
    have hfits := (h.fetches side).calls call hcall
    rw [hphase.2] at hfits
    exact fits_some.mp hfits
  · obtain ⟨task, htask, hphase⟩ := List.any_eq_true.mp hmay
    simp only [Bool.and_eq_true, decide_eq_true_eq] at hphase
    obtain ⟨t, hget⟩ := List.mem_iff_getElem?.mp htask
    have hfits := ((h.fetches side).tasks t task hget).phase
    rw [hphase.2] at hfits
    exact fits_some.mp hfits

theorem FetchServices.Bounded.disk_step (h : s.Bounded config codec) {event : DiskEvent} {disk : DiskState}
    (hmay : (s.fetches event.side).mayStart event = true)
    (hnext : s.disk.step (config.diskCacheConfig codec) event = some disk) :
    ({ s with disk } : FetchServices).Bounded config codec := by
  refine ⟨h.fetches, h.disk.step hnext, ?_⟩
  cases disk_moved hnext with
  | @set side url value =>
    intro e he
    rcases List.mem_cons.mp he with rfl | he
    · exact (mayStart_length_le h hmay).trans (maxImageBytes_le side)
    · exact h.begun e he
  | get | call | release => exact h.begun

theorem FetchServices.Bounded.step (h : s.Bounded config codec) (hsmall : s.Small config codec event)
    (hnext : s.step config codec encodeWebp event = some s') : s'.Bounded config codec := by
  cases event with
  | fetch side event =>
    obtain ⟨service, fetch, hservice, hfetch, huse, disk, hdisk, rfl⟩ := services_fetch_step hnext
    have hbounded := h.fetch hservice hsmall huse hfetch
    rcases hdisk with rfl | rfl
    · exact hbounded
    · refine ⟨hbounded.fetches, ?_, hbounded.begun⟩
      exact h.disk.setHolder side none (fun _ h => h) (fun _ _ h => h) (fun _ _ hread => .inl hread) nofun
  | disk event =>
    obtain ⟨hmay, disk, hdisk, rfl⟩ := services_disk_step hnext
    exact h.disk_step hmay hdisk

/-- A memory cache is empty at first. -/
theorem start_memory {dir : Disk} {stored : List (String × CachedInlineData)} {cache : MemoryCache}
    (hcache : ((FetchServices.start config dir stored).fetches side).memoryCache = some cache) :
    cache.items = [] := by
  obtain ⟨service, hservice, hmemory⟩ := Option.bind_eq_some_iff.mp hcache
  cases side <;>
    · simp only [InlineDataUrlConfig.service, InlineDataUrlConfig.fromConfig,
        InlineDataUrlConfig.fromResponseConfig, InlineDataUrlConfig.fromConfigWithPngOptimization] at hservice
      split at hservice
      · cases hservice
      · obtain rfl := Option.some.inj hservice
        dsimp only at hmemory
        split at hmemory
        · obtain rfl := Option.some.inj hmemory
          rfl
        · cases hmemory

/-- At first there are the images of the directory and no others. -/
theorem start_bounded {dir : Disk} {stored : List (String × CachedInlineData)}
    (hstored : ∀ e ∈ stored, e.2.bytes.length ≤ defaultMaxImageBytes)
    (hdir : ∀ url bytes, dir.read ((config.diskCacheConfig codec).bodyPath url) = some bytes →
      ∃ e ∈ stored, (config.diskCacheConfig codec).cacheKey e.1 = (config.diskCacheConfig codec).cacheKey url ∧
        bytes.length ≤ e.2.bytes.length) :
    (FetchServices.start config dir stored).Bounded config codec := by
  refine ⟨fun side => ⟨fun cache hcache e he => ?_, ?_, ?_⟩, ⟨hdir, ?_⟩, hstored⟩
  · rw [start_memory hcache] at he
    cases he
  · intro call hcall
    cases hcall
  · intro t task htask
    cases htask
  · intro side call hcall
    cases hcall

/-- **No service returns an image that is larger than its limit, as long as the request side takes nothing from disk
where a larger image than its own limit was set.** -/
theorem fetch_bounded {dir : Disk} {stored : List (String × CachedInlineData)}
    (hstored : ∀ e ∈ stored, e.2.bytes.length ≤ defaultMaxImageBytes)
    (hdir : ∀ url bytes, dir.read ((config.diskCacheConfig codec).bodyPath url) = some bytes →
      ∃ e ∈ stored, (config.diskCacheConfig codec).cacheKey e.1 = (config.diskCacheConfig codec).cacheKey url ∧
        bytes.length ≤ e.2.bytes.length)
    (hreach : Reach (FetchServices.step config codec encodeWebp) (FetchServices.Small config codec)
      (FetchServices.start config dir stored) s)
    {call : Call} (hcall : call ∈ (s.fetches side).calls) {task : Option ℕ} {result : FetchResult}
    (hphase : call.phase = .ended task (.returned (.ok result))) :
    result.bytes.length ≤ side.maxImageBytes := by
  have hinit : (FetchServices.start config dir stored).Bounded config codec := start_bounded hstored hdir
  have hbounded : s.Bounded config codec :=
    hreach.invariant hinit fun _ _ _ h hsmall hnext => h.step hsmall hnext
  have hfits := (hbounded.fetches side).calls call hcall
  rw [hphase] at hfits
  exact fits_some.mp hfits

end

end GeminiWorker
