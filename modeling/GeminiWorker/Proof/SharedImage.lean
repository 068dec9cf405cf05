import GeminiWorker.Proof.DiskMeta
import GeminiWorker.Proof.DiskRun
import GeminiWorker.Proof.FetchSize

/-!
# An image that both services use

* `reach_fetches`, `reach_disk`, `reach_answer`: runs of a service and of the disk cache are runs of both
  services together.
* `sharedImage_reach`: the response side downloads an image and stores it on disk, where the request side
  finds it.
* `largeImage_returned`: so the request side returns an image that is larger than its limit.
-/

namespace GeminiWorker

open Transition (Reach Any run runMeeting runMeeting_reach)

section

variable {config : InlineDataUrlConfig} (codec : DiskCodec) (encodeWebp : List UInt8 → Option (List UInt8))
  {s : FetchServices} {side : Side} {service : InlineDataUrlFetchService}

/-- Steps of a service without the disk. -/
theorem reach_fetches (hservice : config.service side = some service) {fetch fetch' : FetchState}
    {events : List (FetchEvent ImageExchange)} (hfetch : s.fetches side = fetch)
    (hrun : runMeeting (FetchState.step (service.fetchConfig encodeWebp)) (fun fetch event => fetch.diskUse event = none)
      fetch events = some fetch') :
    ∃ t, Reach (FetchServices.step config codec encodeWebp) Any s t ∧ t.fetches side = fetch' ∧
      t.fetches side.other = s.fetches side.other ∧ t.disk = s.disk := by
  induction events generalizing s fetch with
  | nil =>
    obtain rfl := Option.some.inj hrun
    exact ⟨s, .refl, hfetch, rfl, rfl⟩
  | cons event events ih =>
    rw [runMeeting] at hrun
    split at hrun
    · rename_i huse
      obtain ⟨next, hnext, hrest⟩ := Option.bind_eq_some_iff.mp hrun
      have hstep : s.step config codec encodeWebp (.fetch side event) =
          some ⟨Function.update s.fetches side next, s.disk⟩ := by
        rw [FetchServices.step, hservice, Option.bind_some, hfetch, huse]
        dsimp only
        rw [hnext, Option.map_some]
      have hself : Function.update s.fetches side next side = next := Function.update_self side next s.fetches
      obtain ⟨t, hreach, ht, hother, hdisk⟩ := @ih ⟨Function.update s.fetches side next, s.disk⟩ next hself hrest
      refine ⟨t, (Reach.single trivial hstep).trans hreach, ht, hother.trans ?_, hdisk⟩
      change Function.update s.fetches side next side.other = s.fetches side.other
      rw [Function.update_of_ne (by cases side <;> decide)]
    · cases hrun

/-- Steps of the disk cache, for a side that is where it calls it. -/
theorem reach_disk (hservice : config.service side = some service) (hdisk : service.hasDiskCache = true)
    {fetch : FetchState} (hfetch : s.fetches side = fetch) {disk disk' : DiskState} {events : List DiskEvent}
    (hbefore : s.disk = disk) (hmay : ∀ event ∈ events, event.side = side ∧ fetch.mayStart event = true)
    (hrun : run (DiskState.step (config.diskCacheConfig codec)) disk events = some disk') :
    ∃ t, Reach (FetchServices.step config codec encodeWebp) Any s t ∧ t.fetches = s.fetches ∧ t.disk = disk' := by
  induction events generalizing s disk with
  | nil =>
    obtain rfl := Option.some.inj hrun
    exact ⟨s, .refl, rfl, hbefore⟩
  | cons event events ih =>
    obtain ⟨next, hnext, hrest⟩ := Option.bind_eq_some_iff.mp hrun
    obtain ⟨hside, hstart⟩ := hmay event List.mem_cons_self
    have hstep : s.step config codec encodeWebp (.disk event) = some ⟨s.fetches, next⟩ := by
      rw [FetchServices.step, hside, hservice, Option.bind_some, hdisk, hfetch, hstart, Bool.true_and, if_pos rfl,
        hbefore, hnext, Option.map_some]
    obtain ⟨t, hreach, hfetches, ht⟩ := @ih ⟨s.fetches, next⟩ hfetch next rfl
      (fun event hmem => hmay event (List.mem_cons_of_mem _ hmem)) hrest
    exact ⟨t, (Reach.single trivial hstep).trans hreach, hfetches, ht⟩

/-- A service takes an answer of the disk cache. -/
theorem reach_answer (hservice : config.service side = some service) (hdisk : service.hasDiskCache = true)
    {fetch fetch' : FetchState} (hfetch : s.fetches side = fetch) {c : ℕ} {call : Call}
    {answer : Except String (Option CachedInlineData)} (hcall : fetch.calls[c]? = some call)
    (hholder : s.disk.holder side = some (.get call.url (.returned answer)))
    (hnext : fetch.step (service.fetchConfig encodeWebp) (.diskAnswer c answer) = some fetch') :
    ∃ t, Reach (FetchServices.step config codec encodeWebp) Any s t ∧ t.fetches side = fetch' ∧
      t.fetches side.other = s.fetches side.other ∧ t.disk = s.disk.setHolder side none := by
  have huse : fetch.diskUse (.diskAnswer c answer) = some (.got call.url answer) := by
    rw [FetchState.diskUse, hcall, Option.map_some]
  have hstep : s.step config codec encodeWebp (.fetch side (.diskAnswer c answer)) =
      some ⟨Function.update s.fetches side fetch', s.disk.setHolder side none⟩ := by
    rw [FetchServices.step, hservice, Option.bind_some, hfetch, huse]
    dsimp only
    rw [hdisk, if_pos rfl, hholder, Option.bind_some, DiskCall.use, if_pos rfl, hnext, Option.map_some, Option.map_some]
  have hself : Function.update s.fetches side fetch' side = fetch' := Function.update_self side fetch' s.fetches
  refine ⟨_, .single trivial hstep, hself, ?_, rfl⟩
  change Function.update s.fetches side fetch' side.other = s.fetches side.other
  rw [Function.update_of_ne (by cases side <;> decide)]

end

/-! ## The run -/

def sharedConfig : InlineDataUrlConfig where
  cacheDir := "/cache"
  cacheTtl := 3600000
  cacheMaxBytes := 1073741824
  memoryCacheMaxBytes := 0
  backgroundFetchTotalTimeout := 120000
  backgroundFetchMaxInflight := 4
  enableRequestImageWebpOptimization := false

/-- The services that are made of it. -/
def sharedService : Side → InlineDataUrlFetchService
  | .request => ⟨requestMaxImageBytes, false, none, true, 4, true⟩
  | .response => ⟨defaultMaxImageBytes, false, none, true, 4, false⟩

theorem sharedService_eq (side : Side) : sharedConfig.service side = some (sharedService side) := by
  cases side <;> rfl

/-- A response with the image in one chunk. -/
def imageExchange (bytes : List UInt8) : ImageExchange :=
  ⟨.ok cachedUrl, .received ⟨200, "200 OK", none, some "image/png", [.ok bytes]⟩ .finished, .totalTimeout⟩

theorem directFetch_imageExchange {maxImageBytes : ℕ} {bytes : List UInt8} (h : bytes.length ≤ maxImageBytes)
    (encodeWebp : List UInt8 → Option (List UInt8)) :
    directFetch encodeWebp maxImageBytes false (imageExchange bytes) = .ok ⟨"image/png", bytes⟩ := by
  have hread : readChunks maxImageBytes 0 [] [.ok bytes] = .ok bytes := by
    rw [readChunks, Nat.zero_add, if_neg (Nat.not_lt.mpr h)]
    rfl
  have hmime : normalizeImageMimeType (some "image/png") cachedUrl = "image/png" := by decide +kernel
  have hfetch : ImageResponse.fetch ⟨200, "200 OK", none, some "image/png", [.ok bytes]⟩ cachedUrl maxImageBytes =
      .ok ⟨"image/png", bytes⟩ := by
    have hsuccess : ¬ ¬ (200 ≤ 200 ∧ 200 < 300) := by decide
    have hlength : ¬ maxImageBytes < (none : Option ℕ).getD 0 := Nat.not_lt.mpr (Nat.zero_le _)
    rw [ImageResponse.fetch]
    dsimp only
    rw [if_neg hsuccess, if_neg hlength, hread]
    exact congrArg Except.ok (congrArg₂ CachedInlineData.mk hmime rfl)
  have honce : fetchOnce encodeWebp maxImageBytes false cachedUrl
      (.received ⟨200, "200 OK", none, some "image/png", [.ok bytes]⟩ .finished) = .ok ⟨"image/png", bytes⟩ := by
    rw [fetchOnce, hfetch]
    rfl
  have hsingle : ∀ {exchange : ImageExchange} {fetched : CachedInlineData},
      exchange.fetchUrl = .ok cachedUrl →
      fetchOnce encodeWebp maxImageBytes false cachedUrl exchange.first = .ok fetched →
      directFetch encodeWebp maxImageBytes false exchange = .ok fetched := by
    intro exchange fetched hurl hfirst
    unfold directFetch
    rw [hurl]
    simp only [bind, Except.bind, hfirst]
  exact hsingle rfl honce

/-- A call that looks at the disk. -/
theorem asking_run (cfg : FetchConfig ImageExchange) :
    runMeeting (FetchState.step cfg) (fun fetch event => fetch.diskUse event = none) (.init none)
      [.fetch cachedUrl, .advance 0] = some ⟨[⟨cachedUrl, .disk⟩], [], [], [], none⟩ := rfl

/-- A call that spawns a task, which downloads an image and is to store it on disk. -/
theorem downloading_run {cfg : FetchConfig ImageExchange} {exchange : ImageExchange} {hit : CachedInlineData}
    (hmax : 0 < cfg.maxInflight) (hdownload : cfg.download exchange = .ok hit) :
    runMeeting (FetchState.step cfg) (fun fetch event => fetch.diskUse event = none)
      ⟨[⟨cachedUrl, .lookup⟩], [], [], [], none⟩
      [.advance 0, .advance 0, .poll 0, .response 0 exchange, .run 0, .run 0, .run 0, .run 0] =
        some ⟨[⟨cachedUrl, .spawned 0⟩], [⟨cachedUrl, 1, some (.ok hit), 0, false, false, true, .storingDisk hit⟩],
          [], [], none⟩ := by
  have hroom : ¬ cfg.maxInflight ≤ 0 := Nat.not_le.mpr hmax
  simp [runMeeting, FetchState.step, FetchState.diskUse, advanceCall, runTask, FetchState.setPhase,
    FetchState.setTask, FetchState.setMemory, FetchTask.new, Assoc.others, hroom, hdownload]

/-- **An image that the response side has downloaded is returned by the request side.** -/
theorem sharedImage_reach (codec : DiskCodec) (encodeWebp : List UInt8 → Option (List UInt8)) {bytes : List UInt8}
    (hpos : 0 < bytes.length) (hle : bytes.length ≤ defaultMaxImageBytes)
    (hmeta : ∀ info, 0 < (codec.toVec info).length) :
    ∃ s, Reach (FetchServices.step sharedConfig codec encodeWebp) Any (FetchServices.start sharedConfig .empty []) s ∧
      ∃ call ∈ (s.fetches .request).calls,
        call.phase = .ended none (.returned (.ok ⟨"image/png", bytes, true⟩)) := by
  let image : CachedInlineData := ⟨"image/png", bytes⟩
  let cfg := sharedConfig.diskCacheConfig codec
  let asking : FetchState := ⟨[⟨cachedUrl, .disk⟩], [], [], [], none⟩
  have hdisk : ∀ side, (sharedService side).hasDiskCache = true := fun side => by cases side <;> rfl
  have hasking : ∀ side, ∀ event ∈ [DiskEvent.get side cachedUrl, .advance side 0],
      event.side = side ∧ asking.mayStart event = true := by
    simp [DiskEvent.side, FetchState.mayStart, asking]
  -- the response side finds nothing on disk,
  obtain ⟨s₁, h₁, hfetch₁, hother₁, hdisk₁⟩ := reach_fetches codec encodeWebp
    (s := FetchServices.start sharedConfig .empty []) (sharedService_eq .response) rfl (asking_run _)
  obtain ⟨s₂, h₂, hfetches₂, hdisk₂⟩ := reach_disk codec encodeWebp (sharedService_eq .response) (hdisk .response)
    hfetch₁ hdisk₁ (hasking .response) (DiskState.miss_run rfl rfl)
  have hholder₂ : s₂.disk.holder .response = some (.get cachedUrl (.returned (.ok none))) := by
    rw [hdisk₂, DiskState.holder_atCall]
  obtain ⟨s₃, h₃, hfetch₃, hother₃, hdisk₃⟩ := reach_answer codec encodeWebp (c := 0) (sharedService_eq .response)
    (hdisk .response) ((congrFun hfetches₂ _).trans hfetch₁) rfl hholder₂ rfl
  -- downloads the image,
  have hdownload : ((sharedService .response).fetchConfig encodeWebp).download (imageExchange bytes) = .ok image :=
    directFetch_imageExchange hle encodeWebp
  have hroom : 0 < ((sharedService .response).fetchConfig encodeWebp).maxInflight := Nat.succ_pos 3
  obtain ⟨s₄, h₄, hfetch₄, hother₄, hdisk₄⟩ := reach_fetches codec encodeWebp (sharedService_eq .response) hfetch₃
    (downloading_run hroom hdownload)
  -- and stores it on disk,
  have hfree₄ : s₄.disk.holder .response = none := by
    rw [hdisk₄, hdisk₃, DiskState.holder_setHolder_self]
  have hset : run (DiskState.step cfg) s₄.disk
      (DiskState.setEvents .response cachedUrl image 0 (codec.toVec (DiskState.metaOf cfg image 0)).length) = some _ :=
    DiskState.set_run hfree₄ hpos (hmeta _)
  obtain ⟨s₅, h₅, hfetches₅, hdisk₅⟩ := reach_disk codec encodeWebp (sharedService_eq .response) (hdisk .response)
    hfetch₄ rfl (by simp [DiskState.setEvents, DiskEvent.side, FetchState.mayStart]) hset
  -- where the request side finds it
  have hrequest₅ : s₅.fetches .request = .init none := by
    have hother : s₄.fetches .request = (FetchServices.start sharedConfig .empty []).fetches .request :=
      hother₄.trans (hother₃.trans ((congrFun hfetches₂ _).trans hother₁))
    rw [hfetches₅, hother]
    rfl
  have hfree₅ : s₅.disk.holder .request = none := by
    rw [hdisk₅, DiskState.holder_atCall_of_ne (by decide), hdisk₄, hdisk₃,
      DiskState.holder_setHolder_of_ne (by decide), hdisk₂, DiskState.holder_atCall_of_ne (by decide)]
    rfl
  obtain ⟨s₆, h₆, hfetch₆, -, hdisk₆⟩ := reach_fetches codec encodeWebp (sharedService_eq .request) hrequest₅
    (asking_run _)
  have hread : s₆.disk.dir = DiskState.afterSet cfg s₄.disk.dir cachedUrl image 0 := by
    rw [hdisk₆, hdisk₅]
    rfl
  have hmetaRead : s₆.disk.dir.read (cfg.metaPath cachedUrl) = some (codec.toVec (DiskState.metaOf cfg image 0)) := by
    rw [hread]
    exact DiskState.read_written _ _
  have hbodyRead : s₆.disk.dir.read (cfg.bodyPath cachedUrl) = some bytes := by
    rw [hread, DiskState.afterSet, DiskState.read_written_of_ne fun h => metaPath_ne_bodyPath h.symm]
    exact DiskState.read_written _ _
  have hfresh : ¬ (0 : UInt64) > (DiskState.metaOf cfg image 0).expiresAtUnixMs := UInt64.not_lt_zero
  have hget : run (DiskState.step cfg) s₆.disk (DiskState.getEvents .request cachedUrl 0) = some _ :=
    DiskState.get_run (hdisk₆ ▸ hfree₅) hmetaRead (codec.fromSlice_toVec _) hbodyRead hfresh
  obtain ⟨s₇, h₇, hfetches₇, hdisk₇⟩ := reach_disk codec encodeWebp (sharedService_eq .request) (hdisk .request)
    hfetch₆ rfl (by simp [DiskState.getEvents, DiskEvent.side, FetchState.mayStart]) hget
  have hholder₇ : s₇.disk.holder .request = some (.get cachedUrl (.returned (.ok (some image)))) := by
    rw [hdisk₇, DiskState.holder_atCall]
    rfl
  obtain ⟨s₈, h₈, hfetch₈, -, -⟩ := reach_answer codec encodeWebp (c := 0) (sharedService_eq .request)
    (hdisk .request) ((congrFun hfetches₇ _).trans hfetch₆) rfl hholder₇ rfl
  have hend : runMeeting (FetchState.step ((sharedService .request).fetchConfig encodeWebp))
      (fun fetch event => fetch.diskUse event = none) ⟨[⟨cachedUrl, .diskHit image⟩], [], [], [], none⟩
      [.advance 0] = some ⟨[⟨cachedUrl, .ended none (.returned (.ok (image.toResult true)))⟩], [], [], [], none⟩ := rfl
  obtain ⟨s₉, h₉, hfetch₉, -, -⟩ := reach_fetches codec encodeWebp (sharedService_eq .request) hfetch₈ hend
  refine ⟨s₉, ?_, ⟨cachedUrl, .ended none (.returned (.ok (image.toResult true)))⟩, ?_, rfl⟩
  · exact h₁.trans (h₂.trans (h₃.trans (h₄.trans (h₅.trans (h₆.trans (h₇.trans (h₈.trans h₉)))))))
  · rw [hfetch₉]
    exact List.mem_singleton_self _

/-- The same run, event by event. -/
def sharedEvents (bytes : List UInt8) : List ServicesEvent :=
  [.fetch .response (.fetch cachedUrl), .fetch .response (.advance 0), .disk (.get .response cachedUrl),
    .disk (.advance .response 0), .fetch .response (.diskAnswer 0 (.ok none)), .fetch .response (.advance 0),
    .fetch .response (.advance 0), .fetch .response (.poll 0), .fetch .response (.response 0 (imageExchange bytes)),
    .fetch .response (.run 0), .fetch .response (.run 0), .fetch .response (.run 0), .fetch .response (.run 0)] ++
  (DiskState.setEvents .response cachedUrl ⟨"image/png", bytes⟩ 0 69).map .disk ++
  [.fetch .request (.fetch cachedUrl), .fetch .request (.advance 0)] ++
  (DiskState.getEvents .request cachedUrl 0).map .disk ++
  [.fetch .request (.diskAnswer 0 (.ok (some ⟨"image/png", bytes⟩))), .fetch .request (.advance 0)]

theorem fetch_bounded_example : ∃ s : FetchServices, ∃ call ∈ (s.fetches .request).calls,
    call.phase = .ended none (.returned (.ok ⟨"image/png", [0x89, 0x50], true⟩)) ∧
      [(0x89 : UInt8), 0x50].length ≤ Side.request.maxImageBytes := by
  have hrun : (runMeeting (FetchServices.step sharedConfig cachedUrlCodec fun _ => none)
      (FetchServices.Small sharedConfig cachedUrlCodec) (FetchServices.start sharedConfig .empty [])
      (sharedEvents [0x89, 0x50])).map (fun s => (s.fetches .request).calls) =
        some [⟨cachedUrl, .ended none (.returned (.ok ⟨"image/png", [0x89, 0x50], true⟩))⟩] := by decide +kernel
  obtain ⟨s, hs, hcalls⟩ := Option.map_eq_some_iff.mp hrun
  have hcall : (⟨cachedUrl, .ended none (.returned (.ok ⟨"image/png", [0x89, 0x50], true⟩))⟩ : Call) ∈
      (s.fetches .request).calls := hcalls ▸ List.mem_singleton_self _
  exact ⟨s, _, hcall, rfl, fetch_bounded (List.forall_mem_nil _) (fun _ _ hread => by cases hread) (runMeeting_reach hs) hcall rfl⟩

/-- An image of one byte more than the request side allows. -/
def largeImage : List UInt8 := List.replicate (requestMaxImageBytes + 1) 0

/-- The request side returns an image that is larger than its limit. -/
theorem largeImage_returned : ¬ ∀ s, Reach (FetchServices.step sharedConfig cachedUrlCodec fun _ => none) Any
    (FetchServices.start sharedConfig .empty []) s → ∀ side, ∀ call ∈ (s.fetches side).calls, ∀ task result,
      call.phase = .ended task (.returned (.ok result)) → result.bytes.length ≤ side.maxImageBytes := by
  intro h
  have hlength : largeImage.length = requestMaxImageBytes + 1 := List.length_replicate
  have hmeta : ∀ info, 0 < (cachedUrlCodec.toVec info).length := fun info => Nat.succ_pos _
  obtain ⟨s, hreach, call, hcall, hphase⟩ := sharedImage_reach cachedUrlCodec (fun _ => none)
    (by rw [hlength]; exact Nat.succ_pos _) (by rw [hlength]; decide) hmeta
  have hle := h s hreach .request call hcall none _ hphase
  rw [hlength] at hle
  exact Nat.not_succ_le_self _ hle

end GeminiWorker
