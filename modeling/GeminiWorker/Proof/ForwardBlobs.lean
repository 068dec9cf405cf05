import GeminiWorker.Proof.BlobAccount
import GeminiWorker.Proof.RequestPipeline
import GeminiWorker.Spec.ForwardBlobs

/-!
# What a Gemini request leaves behind

* `runTasks_account`: the blobs the fetch tasks have stored, however they end.
* `removeReplacements_account`: which removals of the images reach the end.
* `forwardGeminiRequest_released_iff`: the runs that leave no hot bytes and no file.
-/

namespace GeminiWorker

open Json (Value)
open BlobRuntime (Reservable Account Released HoldsNothing inlineSize storedHandle)

/-! ## Conditions on a run -/

/-- A store that holds nothing: of an empty inline blob, or one that failed before it made
a file. -/
def StoreHoldsNothing (cfg : BlobRuntimeConfig) (hot size : ℕ) (io : WriteOutcome) : Prop :=
  if Reservable cfg hot size then size = 0 else io = .failed none

/-- The task returns a blob, when the call has reserved `own` bytes before. -/
def TaskRun.Succeeds (cfg : BlobRuntimeConfig) (own : ℕ) (task : TaskRun) : Prop :=
  ∃ image, task.fetched = some image ∧
    (image.fromCache = true ∨ Reservable cfg (own + task.others) image.bytes.length ∨
      task.io = .completed)

/-- The task has stored its image in a file. -/
def TaskRun.Spills (cfg : BlobRuntimeConfig) (own : ℕ) (task : TaskRun) : Prop :=
  ∃ image, task.fetched = some image ∧ image.fromCache = false ∧
    ¬ Reservable cfg (own + task.others) image.bytes.length

/-- The hot bytes the task reserves. -/
def TaskRun.reserves (cfg : BlobRuntimeConfig) (own : ℕ) (task : TaskRun) : ℕ :=
  match task.fetched with
  | some image =>
    if image.fromCache = false ∧ Reservable cfg (own + task.others) image.bytes.length then
      image.bytes.length
    else 0
  | none => 0

/-- The first store of the call, if it is this task's, holds nothing. -/
def TaskRun.StoresNothing (cfg : BlobRuntimeConfig) (task : TaskRun) : Prop :=
  ∀ image, task.fetched = some image → image.fromCache = true ∨
    StoreHoldsNothing cfg task.others image.bytes.length task.io

def StoreEnd.StoresNothing (cfg : BlobRuntimeConfig) : StoreEnd → Prop
  | .finished reads others io => reads.flatten.length ≤ BlobRuntime.inlineLimit cfg ∧
      StoreHoldsNothing cfg others reads.flatten.length io
  | .aborted reads => reads.flatten.length ≤ BlobRuntime.inlineLimit cfg

namespace ForwardRun

variable (run : ForwardRun)

def fetch (url : String) : Option FetchedImage := (run.tasks url).fetched

/-- Every task returns a blob. -/
def FetchesAll (cfg : BlobRuntimeConfig) : List String → ℕ → Prop
  | [], _ => True
  | url :: urls, own => (run.tasks url).Succeeds cfg own ∧
      FetchesAll cfg urls (own + (run.tasks url).reserves cfg own)

/-- The hot bytes reserved once the tasks have run. -/
def reserved (cfg : BlobRuntimeConfig) : List String → ℕ → ℕ
  | [], own => own
  | url :: urls, own => reserved cfg urls (own + (run.tasks url).reserves cfg own)

/-- The files of the images are deleted; the ids of the images follow each other. -/
def SpillsDeleted (cfg : BlobRuntimeConfig) : List String → ℕ → ℕ → Prop
  | [], _, _ => True
  | url :: urls, own, id => ((run.tasks url).Spills cfg own → run.deletes id = .deleted) ∧
      SpillsDeleted cfg urls (own + (run.tasks url).reserves cfg own) (id + 1)

/-- The call reaches the removal of the body. -/
def Sends : Prop :=
  ¬ (run.adminEnabled = true ∧ run.readBytesEnds = true) ∧ run.upstreamUrlFails = false ∧
    run.openReaderEnds = false ∧ run.send ≠ .cancelled

/-- The body sent. -/
def bodyBytes (request : Value) : List UInt8 :=
  Json.print (replaceImages (fetchedNode run.fetch) (stripOutputFromValue request))

/-- The runs that leave nothing behind: one that ends before it removes the images has
stored nothing; any other reaches the removal of the body, and its files are deleted. -/
def Releases (cfg : BlobRuntimeConfig) (nextId : ℕ) (request : Value) : Prop :=
  match scanRequestImageUrls request with
  | .error _ => True
  | .ok refs =>
    let urls := run.order.arrange (uniqueUrls refs [])
    let fetched := run.FetchesAll cfg urls 0 ∧ run.materializeCancelled = false
    (¬ fetched → ∀ url ∈ urls, (run.tasks url).StoresNothing cfg) ∧
    (fetched → match run.encode with
      | .ended store => (∀ url ∈ urls, (run.tasks url).StoresNothing cfg) ∧ store.StoresNothing cfg
      | .returned _ _ others => run.SpillsDeleted cfg urls 0 nextId ∧ run.Sends ∧
          (Reservable cfg (run.reserved cfg urls 0 + others) (run.bodyBytes request).length ∨
            run.deletes (nextId + urls.length) = .deleted ∨
            run.deletes (nextId + urls.length) = .cancelled true))

end ForwardRun

/-! ## The fetch tasks -/

/-- What the task of a URL leaves: the handle of its blob, or one for the rest of a failed
write. -/
def TaskRun.handle (cfg : BlobRuntimeConfig) (own id : ℕ) (task : TaskRun) : Option BlobHandle :=
  task.fetched.map fun image =>
    if image.fromCache then ⟨id, ⟨image.mimeType, image.bytes.length⟩, .shared image.bytes⟩
    else storedHandle cfg (own + task.others) id task.io image.bytes image.mimeType

/-- One task: the handle it leaves is added, and it is returned on success. -/
structure TaskStep (task : TaskRun) (fetch : String → Option FetchedImage) (url : String)
    (runtime : BlobRuntime) (result : Except MaterializeError FetchedBlob)
    (runtime' : BlobRuntime) : Prop where
  cfg_eq : runtime'.cfg = runtime.cfg
  hot_eq : runtime'.globalHotBytes = runtime.globalHotBytes + task.reserves runtime.cfg runtime.globalHotBytes
  nextId_eq : runtime'.nextId = runtime.nextId +
    (task.handle runtime.cfg runtime.globalHotBytes runtime.nextId).toList.length
  account : ∀ live, runtime.Account live →
    runtime'.Account ((task.handle runtime.cfg runtime.globalHotBytes runtime.nextId).toList ++ live)
  ok : task.Succeeds runtime.cfg runtime.globalHotBytes → ∃ fetched, result = .ok fetched ∧
    task.handle runtime.cfg runtime.globalHotBytes runtime.nextId = some fetched.blob ∧
    BlobOf fetch runtime' url fetched ∧ runtime.Extends runtime'
  error : ¬ task.Succeeds runtime.cfg runtime.globalHotBytes → ∃ e, result = .error e

namespace BlobRuntime

/-- What other requests hold is no matter to what is stored. -/
theorem amid_stored {others : ℕ} {op : BlobRuntime → Option BlobHandle × BlobRuntime}
    {runtime runtime' : BlobRuntime} {handle : BlobHandle} {bytes : List UInt8}
    (hop : op { runtime with globalHotBytes := runtime.globalHotBytes + others } =
      (some handle, runtime'))
    (hstored : runtime'.StoredAs handle bytes)
    (hextends : Extends { runtime with globalHotBytes := runtime.globalHotBytes + others } runtime') :
    (runtime.amid others op).2.StoredAs handle bytes ∧ runtime.Extends (runtime.amid others op).2 := by
  unfold amid
  rw [hop]
  exact ⟨⟨hstored.bytes_eq, hstored.size_eq, hstored.id_lt, hstored.path_eq⟩,
    ⟨hextends.cfg_eq, hextends.nextId_le, hextends.files_eq⟩⟩

/-- A store that reserves makes no write. -/
theorem storeBytes_of_reservable {io : WriteOutcome} {bytes : List UInt8} {mimeType : String}
    {runtime : BlobRuntime}
    (h : Reservable runtime.cfg runtime.globalHotBytes bytes.length ∨ io = .completed) :
    runtime.storeBytes io bytes mimeType = runtime.storeBytes .completed bytes mimeType := by
  rcases h with hfits | rfl
  · unfold storeBytes storeBuffer takeId
    dsimp only
    rw [tryInlineReserve_eq, if_pos hfits]
  · rfl

theorem amid_storeBytes_stored {others : ℕ} {io : WriteOutcome} {bytes : List UInt8}
    {mimeType : String} {runtime : BlobRuntime}
    (h : Reservable runtime.cfg (runtime.globalHotBytes + others) bytes.length ∨ io = .completed) :
    ∃ handle runtime', runtime.amid others (storeBytes io bytes mimeType) = (some handle, runtime') ∧
      runtime'.StoredAs handle bytes ∧ runtime.Extends runtime' := by
  obtain ⟨handle, runtime', hstore, hstored, hextends⟩ := storeBytes_completed bytes mimeType
    { runtime with globalHotBytes := runtime.globalHotBytes + others }
  rw [← @storeBytes_of_reservable io bytes mimeType
    { runtime with globalHotBytes := runtime.globalHotBytes + others } h] at hstore
  obtain ⟨hstored', hextends'⟩ := amid_stored hstore hstored hextends
  refine ⟨handle, _, Prod.ext ?_ rfl, hstored', hextends'⟩
  unfold amid
  rw [hstore]

end BlobRuntime

theorem taskStep_fromCache {task : TaskRun} {fetch : String → Option FetchedImage}
    {io : String → WriteOutcome} {url : String} {image : FetchedImage}
    (hfetch : fetch url = some image) (htask : task.fetched = some image)
    (hcache : image.fromCache = true) {runtime : BlobRuntime} (hlt : runtime.globalHotBytes < 2 ^ 64) :
    ∃ result runtime', runtime.amid task.others (fetchRequestImage fetch io url) = (result, runtime') ∧
      TaskStep task fetch url runtime result runtime' := by
  have hhandle : task.handle runtime.cfg runtime.globalHotBytes runtime.nextId =
      some ⟨runtime.nextId, ⟨image.mimeType, image.bytes.length⟩, .shared image.bytes⟩ := by
    unfold TaskRun.handle
    rw [htask, Option.map_some, if_pos hcache]
  have hreserves : task.reserves runtime.cfg runtime.globalHotBytes = 0 := by
    unfold TaskRun.reserves
    rw [htask]
    exact if_neg fun h => by simp [hcache] at h
  have hsucceeds : task.Succeeds runtime.cfg runtime.globalHotBytes :=
    ⟨image, htask, Or.inl hcache⟩
  have hback := Nat.add_sub_cancel runtime.globalHotBytes task.others
  refine ⟨.ok ⟨image.mimeType, ⟨runtime.nextId, ⟨image.mimeType, image.bytes.length⟩,
    .shared image.bytes⟩⟩, { runtime with nextId := runtime.nextId + 1 }, ?_, rfl, ?_, ?_,
    fun live h => ?_, fun _ => ⟨_, rfl, hhandle, ⟨⟨Nat.lt_succ_self _, ?_, rfl⟩, image, hfetch,
    rfl, rfl⟩, rfl, Nat.le_succ _, fun _ _ => rfl⟩, fun hfails => absurd hsucceeds hfails⟩
  · unfold BlobRuntime.amid fetchRequestImage
    rw [hfetch]
    dsimp only
    rw [if_pos hcache]
    unfold BlobRuntime.storeExternalSharedBytes BlobRuntime.takeId
    dsimp only
    rw [hback]
  · rw [hreserves]
    rfl
  · rw [hhandle]
    rfl
  · rw [hhandle]
    have hadds : runtime.Adds ⟨runtime.nextId, ⟨image.mimeType, image.bytes.length⟩,
        .shared image.bytes⟩ { runtime with nextId := runtime.nextId + 1 } :=
      BlobRuntime.adds_shared rfl rfl hlt rfl rfl rfl rfl rfl
    exact hadds.account h
  · intro path hpath
    cases hpath

theorem taskStep_stored {task : TaskRun} {fetch : String → Option FetchedImage}
    {io : String → WriteOutcome} {url : String} {image : FetchedImage}
    (hfetch : fetch url = some image) (htask : task.fetched = some image) (hio : io url = task.io)
    (hcache : image.fromCache = false) {runtime : BlobRuntime} (hlt : runtime.globalHotBytes < 2 ^ 64) :
    ∃ result runtime', runtime.amid task.others (fetchRequestImage fetch io url) = (result, runtime') ∧
      TaskStep task fetch url runtime result runtime' := by
  have hne : ¬ image.fromCache = true := by simp [hcache]
  have hhandle : task.handle runtime.cfg runtime.globalHotBytes runtime.nextId =
      some (storedHandle runtime.cfg (runtime.globalHotBytes + task.others) runtime.nextId task.io
        image.bytes image.mimeType) := by
    unfold TaskRun.handle
    rw [htask, Option.map_some, if_neg hne]
  have hreserves : task.reserves runtime.cfg runtime.globalHotBytes =
      inlineSize (storedHandle runtime.cfg (runtime.globalHotBytes + task.others) runtime.nextId
        task.io image.bytes image.mimeType) := by
    unfold TaskRun.reserves inlineSize storedHandle
    rw [htask]
    dsimp only
    by_cases hfits : Reservable runtime.cfg (runtime.globalHotBytes + task.others) image.bytes.length
    · rw [if_pos ⟨hcache, hfits⟩, if_pos hfits]
    · rw [if_neg fun h => hfits h.2, if_neg hfits]
      rcases task.io with _ | _ | _ <;> rfl
  have hsucceeds : task.Succeeds runtime.cfg runtime.globalHotBytes ↔
      (Reservable runtime.cfg (runtime.globalHotBytes + task.others) image.bytes.length ∨
        task.io = .completed) := by
    constructor
    · rintro ⟨image', himage', h⟩
      obtain rfl := Option.some.inj (htask.symm.trans himage')
      exact h.resolve_left hne
    · intro h
      exact ⟨image, htask, Or.inr h⟩
  obtain ⟨runtime', hstore, hadds⟩ :=
    BlobRuntime.amid_storeBytes task.others task.io image.bytes image.mimeType hlt
  -- the task returns what the store does
  have hamid : ∀ {handle : Option BlobHandle} {after : BlobRuntime},
      runtime.amid task.others (BlobRuntime.storeBytes task.io image.bytes image.mimeType) = (handle, after) →
      runtime.amid task.others (fetchRequestImage fetch io url) =
        ((handle.map fun blob => ⟨image.mimeType, blob⟩).elim (.error (.store url)) .ok, after) := by
    intro handle after hrun
    have hstep : runtime.amid task.others (fetchRequestImage fetch io url) =
        (((runtime.amid task.others (BlobRuntime.storeBytes task.io image.bytes image.mimeType)).1.map fun blob =>
          ⟨image.mimeType, blob⟩).elim (.error (.store url)) .ok,
        (runtime.amid task.others (BlobRuntime.storeBytes task.io image.bytes image.mimeType)).2) := by
      unfold BlobRuntime.amid fetchRequestImage
      rw [hfetch, hio]
      dsimp only
      rw [if_neg hne]
      unfold BlobRuntime.storeSharedBytes
      rcases BlobRuntime.storeBytes task.io image.bytes image.mimeType _ with ⟨_ | blob, after⟩ <;> rfl
    rw [hstep, hrun]
  rw [hamid hstore]
  by_cases hok : Reservable runtime.cfg (runtime.globalHotBytes + task.others) image.bytes.length ∨
      task.io = .completed
  · obtain ⟨handle, runtime'', hstore', hstored, hextends⟩ :=
      BlobRuntime.amid_storeBytes_stored hok
    rw [hstore, if_pos hok] at hstore'
    obtain ⟨heq, rfl⟩ := Prod.mk.inj hstore'
    obtain rfl := Option.some.inj heq
    rw [if_pos hok]
    refine ⟨_, _, rfl, hadds.cfg_eq, by rw [hadds.hot_eq, hreserves],
      by rw [hadds.nextId_eq, hhandle]; rfl, fun live h => ?_,
      fun _ => ⟨_, rfl, hhandle, ⟨hstored.stored, image, hfetch, rfl,
      hstored.bytes_eq⟩, hextends⟩, fun hfails => absurd (hsucceeds.2 hok) hfails⟩
    rw [hhandle]
    exact hadds.account h
  · rw [if_neg hok]
    refine ⟨_, _, rfl, hadds.cfg_eq, by rw [hadds.hot_eq, hreserves],
      by rw [hadds.nextId_eq, hhandle]; rfl, fun live h => ?_, fun h => absurd (hsucceeds.1 h) hok, fun _ => ⟨_, rfl⟩⟩
    rw [hhandle]
    exact hadds.account h

/-- **What one task does**, whichever way it ends. -/
theorem taskStep (task : TaskRun) {fetch : String → Option FetchedImage} {io : String → WriteOutcome}
    {url : String} (hfetch : fetch url = task.fetched) (hio : io url = task.io)
    {runtime : BlobRuntime} (hlt : runtime.globalHotBytes < 2 ^ 64) :
    ∃ result runtime', runtime.amid task.others (fetchRequestImage fetch io url) = (result, runtime') ∧
      TaskStep task fetch url runtime result runtime' := by
  cases himage : task.fetched with
  | none =>
    refine ⟨.error (.fetch url), runtime, ?_, rfl, ?_, ?_, fun live h => ?_, ?_, fun _ => ⟨_, rfl⟩⟩
    · unfold BlobRuntime.amid fetchRequestImage
      rw [hfetch, himage]
      dsimp only
      rw [Nat.add_sub_cancel]
    · unfold TaskRun.reserves
      rw [himage]
      rfl
    · unfold TaskRun.handle
      rw [himage]
      rfl
    · unfold TaskRun.handle
      rw [himage]
      exact h
    · rintro ⟨image, hsome, -⟩
      rw [himage] at hsome
      cases hsome
  | some image =>
    have hsome : fetch url = some image := hfetch.trans himage
    cases hcache : image.fromCache with
    | true => exact taskStep_fromCache hsome himage hcache hlt
    | false => exact taskStep_stored hsome himage hio hcache hlt

namespace ForwardRun

variable {run : ForwardRun}

/-- The handles the tasks leave. -/
def handles (run : ForwardRun) (cfg : BlobRuntimeConfig) : List String → ℕ → ℕ → List BlobHandle
  | [], _, _ => []
  | url :: urls, own, id =>
    let handle := ((run.tasks url).handle cfg own id).toList
    handle ++ handles run cfg urls (own + (run.tasks url).reserves cfg own) (id + handle.length)

/-- **The account of the fetch tasks**, however they end. -/
theorem runTasks_account (urls : List String) :
    ∀ {fetchedByUrl : List (String × FetchedBlob)} {runtime : BlobRuntime} {live : List BlobHandle},
      runtime.Account live → ∃ live',
        (run.runTasks urls fetchedByUrl runtime).2.Account live' ∧
        (run.runTasks urls fetchedByUrl runtime).2.cfg = runtime.cfg ∧
        ∀ g, g ∈ live' ↔
          g ∈ run.handles runtime.cfg urls runtime.globalHotBytes runtime.nextId ∨ g ∈ live := by
  induction urls with
  | nil =>
    intro fetchedByUrl runtime live h
    refine ⟨live, h, rfl, fun g => ?_⟩
    unfold handles
    simp
  | cons url urls ih =>
    intro fetchedByUrl runtime live h
    obtain ⟨result, runtime₁, htask, hstep⟩ := @taskStep (run.tasks url) run.fetch
      (fun url => (run.tasks url).io) url rfl rfl runtime h.hot_lt
    obtain ⟨live', haccount, hcfg, hmem⟩ := @ih (match result with
      | .ok fetched => (url, fetched) :: fetchedByUrl
      | .error _ => fetchedByUrl) _ _ (hstep.account live h)
    rw [hstep.cfg_eq, hstep.hot_eq, hstep.nextId_eq] at hmem
    refine ⟨live', ?_, ?_, fun g => ?_⟩
    · unfold runTasks
      unfold fetch at htask
      rw [htask]
      cases result <;> exact haccount
    · unfold runTasks
      unfold fetch at htask
      rw [htask, ← hstep.cfg_eq]
      cases result <;> exact hcfg
    · rw [hmem, List.mem_append, handles, List.mem_append]
      tauto

/-- A task that fails ends the call. -/
theorem runTasks_none (urls : List String) :
    ∀ {fetchedByUrl : List (String × FetchedBlob)} {runtime : BlobRuntime} {live : List BlobHandle},
      runtime.Account live → ¬ run.FetchesAll runtime.cfg urls runtime.globalHotBytes →
        (run.runTasks urls fetchedByUrl runtime).1 = none := by
  induction urls with
  | nil =>
    intro fetchedByUrl runtime live h hfails
    exact absurd trivial hfails
  | cons url urls ih =>
    intro fetchedByUrl runtime live h hfails
    obtain ⟨result, runtime₁, htask, hstep⟩ := @taskStep (run.tasks url) run.fetch
      (fun url => (run.tasks url).io) url rfl rfl runtime h.hot_lt
    unfold runTasks
    unfold fetch at htask
    rw [htask]
    by_cases hok : (run.tasks url).Succeeds runtime.cfg runtime.globalHotBytes
    · obtain ⟨fetched, rfl, -⟩ := hstep.ok hok
      refine ih (hstep.account live h) fun hrest => hfails ⟨hok, ?_⟩
      rw [hstep.cfg_eq, hstep.hot_eq] at hrest
      exact hrest
    · obtain ⟨e, rfl⟩ := hstep.error hok
      rfl

/-- The call once every URL is fetched. -/
structure FetchedAll (run : ForwardRun) (urls : List String)
    (fetchedByUrl : List (String × FetchedBlob)) (runtime : BlobRuntime)
    (fetchedByUrl' : List (String × FetchedBlob)) (runtime' : BlobRuntime) : Prop where
  hot_eq : runtime'.globalHotBytes = run.reserved runtime.cfg urls runtime.globalHotBytes
  nextId_eq : runtime'.nextId = runtime.nextId + urls.length
  mem_blobs : ∀ g, g ∈ fetchedByUrl'.map (fun entry => entry.2.blob) ↔
    g ∈ run.handles runtime.cfg urls runtime.globalHotBytes runtime.nextId ∨
      g ∈ fetchedByUrl.map (fun entry => entry.2.blob)
  keys_eq : fetchedByUrl'.map Prod.fst = urls.reverse ++ fetchedByUrl.map Prod.fst
  blobOf : ∀ entry ∈ fetchedByUrl', BlobOf run.fetch runtime' entry.1 entry.2

/-- **The fetch tasks succeed**: every URL has its blob. -/
theorem runTasks_some (urls : List String) :
    ∀ {fetchedByUrl : List (String × FetchedBlob)} {runtime : BlobRuntime} {live : List BlobHandle},
      runtime.Account live → run.FetchesAll runtime.cfg urls runtime.globalHotBytes →
      (∀ entry ∈ fetchedByUrl, BlobOf run.fetch runtime entry.1 entry.2) →
      ∃ fetchedByUrl' runtime', run.runTasks urls fetchedByUrl runtime = (some fetchedByUrl', runtime') ∧
        run.FetchedAll urls fetchedByUrl runtime fetchedByUrl' runtime' := by
  induction urls with
  | nil =>
    intro fetchedByUrl runtime live h _ hheld
    refine ⟨fetchedByUrl, runtime, rfl, rfl, rfl, fun g => ?_, rfl, hheld⟩
    unfold handles
    simp
  | cons url urls ih =>
    intro fetchedByUrl runtime live h hall hheld
    obtain ⟨result, runtime₁, htask, hstep⟩ := @taskStep (run.tasks url) run.fetch
      (fun url => (run.tasks url).io) url rfl rfl runtime h.hot_lt
    obtain ⟨fetched, rfl, hhandle, hblob, hextends⟩ := hstep.ok hall.1
    have hrest : run.FetchesAll runtime₁.cfg urls runtime₁.globalHotBytes := by
      rw [hstep.cfg_eq, hstep.hot_eq]
      exact hall.2
    have hheld₁ : ∀ entry ∈ (url, fetched) :: fetchedByUrl,
        BlobOf run.fetch runtime₁ entry.1 entry.2 := by
      intro entry hentry
      rcases List.mem_cons.1 hentry with rfl | hentry
      · exact hblob
      · exact (hheld entry hentry).extends hextends
    obtain ⟨fetchedByUrl', runtime', hrun, hfetched⟩ := ih (hstep.account live h) hrest hheld₁
    have hnext := hstep.nextId_eq
    have hblobs := hfetched.mem_blobs
    rw [hhandle] at hnext
    rw [hstep.cfg_eq, hstep.hot_eq, hnext] at hblobs
    refine ⟨fetchedByUrl', runtime', ?_, ?_, ?_, fun g => ?_, ?_, hfetched.blobOf⟩
    · unfold runTasks
      unfold fetch at htask
      rw [htask]
      exact hrun
    · rw [hfetched.hot_eq, hstep.cfg_eq, hstep.hot_eq]
      rfl
    · rw [hfetched.nextId_eq, hnext, List.length_cons]
      dsimp only [Option.toList, List.length_singleton]
      omega
    · rw [hblobs, handles, hhandle]
      simp only [Option.toList, List.length_singleton, List.map_cons, List.mem_cons, List.mem_append,
        List.not_mem_nil, or_false]
      tauto
    · rw [hfetched.keys_eq, List.map_cons, List.reverse_cons, List.append_assoc]
      rfl

end ForwardRun

/-! ## What the handles hold -/

theorem holdsNothing_storedHandle {cfg : BlobRuntimeConfig} {hot id : ℕ} {io : WriteOutcome}
    {bytes : List UInt8} {mimeType : String} :
    HoldsNothing (storedHandle cfg hot id io bytes mimeType) ↔
      StoreHoldsNothing cfg hot bytes.length io := by
  unfold HoldsNothing inlineSize storedHandle StoreHoldsNothing
  dsimp only
  by_cases hfits : Reservable cfg hot bytes.length
  · rw [if_pos hfits, if_pos hfits]
    simp
  · rw [if_neg hfits, if_neg hfits]
    rcases io with _ | _ | _ <;> simp

theorem spilled_storedHandle {cfg : BlobRuntimeConfig} {hot id : ℕ} {bytes : List UInt8}
    {mimeType : String} :
    (∃ path, (storedHandle cfg hot id .completed bytes mimeType).storage = .spilled path) ↔
      ¬ Reservable cfg hot bytes.length := by
  unfold storedHandle
  by_cases hfits : Reservable cfg hot bytes.length
  · rw [if_pos hfits]
    simp [hfits]
  · rw [if_neg hfits]
    simp [hfits]

theorem TaskRun.storesNothing_iff {task : TaskRun} {cfg : BlobRuntimeConfig} {id : ℕ} :
    task.StoresNothing cfg ↔ ∀ g ∈ (task.handle cfg 0 id).toList, HoldsNothing g := by
  unfold StoresNothing handle
  cases himage : task.fetched with
  | none => simp
  | some image =>
    cases hcache : image.fromCache with
    | true => simp [hcache, HoldsNothing, inlineSize]
    | false => simp [hcache, holdsNothing_storedHandle]

/-- What a task reserves is what its handle holds. -/
theorem TaskRun.reserves_eq {task : TaskRun} {cfg : BlobRuntimeConfig} {own id : ℕ} :
    task.reserves cfg own = ((task.handle cfg own id).toList.map inlineSize).sum := by
  unfold reserves handle
  cases himage : task.fetched with
  | none => simp
  | some image =>
    cases hcache : image.fromCache with
    | true => simp [hcache, inlineSize]
    | false =>
      simp only [true_and, Bool.false_eq_true, if_false, Option.map_some, hcache, Option.toList,
        List.map_cons, List.map_nil, List.sum_cons, List.sum_nil, Nat.add_zero]
      unfold inlineSize storedHandle
      by_cases hfits : Reservable cfg (own + task.others) image.bytes.length
      · rw [if_pos hfits, if_pos hfits]
      · rw [if_neg hfits, if_neg hfits]
        rcases task.io with _ | _ | _ <;> rfl

theorem TaskRun.reserves_of_storesNothing {task : TaskRun} {cfg : BlobRuntimeConfig}
    (h : task.StoresNothing cfg) : task.reserves cfg 0 = 0 := by
  rw [@reserves_eq task cfg 0 0, List.sum_eq_zero_iff_forall_eq_nat]
  intro size hsize
  obtain ⟨g, hg, rfl⟩ := List.mem_map.1 hsize
  exact ((@storesNothing_iff task cfg 0).1 h g hg).1

/-- A task that succeeds spills if and only if its blob has a file. -/
theorem TaskRun.spills_iff {task : TaskRun} {cfg : BlobRuntimeConfig} {own id : ℕ}
    (hok : task.Succeeds cfg own) :
    task.Spills cfg own ↔ ∃ g ∈ (task.handle cfg own id).toList, ∃ path, g.storage = .spilled path := by
  obtain ⟨image, himage, hstores⟩ := hok
  have hspills : task.Spills cfg own ↔
      image.fromCache = false ∧ ¬ Reservable cfg (own + task.others) image.bytes.length := by
    unfold Spills
    simp [himage]
  rw [hspills]
  unfold handle
  rw [himage]
  cases hcache : image.fromCache with
  | true => simp [hcache]
  | false =>
    simp only [hcache, Bool.false_eq_true, if_false, Option.map_some, Option.toList,
      List.mem_singleton, exists_eq_left, true_and]
    by_cases hfits : Reservable cfg (own + task.others) image.bytes.length
    · simp [hfits, storedHandle]
    · have hio : task.io = .completed := by simpa [hcache, hfits] using hstores
      rw [hio, spilled_storedHandle]

namespace ForwardRun

variable {run : ForwardRun}

/-- **The tasks leave nothing if and only if each stores nothing**: the first that does
finds that the call has reserved nothing. -/
theorem handles_holdNothing_iff {cfg : BlobRuntimeConfig} (urls : List String) :
    ∀ {id : ℕ}, (∀ g ∈ run.handles cfg urls 0 id, HoldsNothing g) ↔
      ∀ url ∈ urls, (run.tasks url).StoresNothing cfg := by
  induction urls with
  | nil =>
    intro id
    unfold handles
    simp
  | cons url urls ih =>
    intro id
    rw [handles, List.forall_mem_append, List.forall_mem_cons, ← TaskRun.storesNothing_iff]
    refine and_congr_right fun hfirst => ?_
    rw [TaskRun.reserves_of_storesNothing hfirst]
    exact ih

theorem id_of_mem_handle {task : TaskRun} {cfg : BlobRuntimeConfig} {own id : ℕ} {g : BlobHandle}
    (h : task.handle cfg own id = some g) : g.id = id := by
  unfold TaskRun.handle at h
  obtain ⟨image, -, rfl⟩ := Option.map_eq_some_iff.1 h
  split <;> rfl

theorem handle_isSome {task : TaskRun} {cfg : BlobRuntimeConfig} {own id : ℕ}
    (hok : task.Succeeds cfg own) : ∃ g, task.handle cfg own id = some g := by
  obtain ⟨image, himage, -⟩ := hok
  unfold TaskRun.handle
  rw [himage]
  exact ⟨_, rfl⟩

/-- The deletions of a call that has fetched all its images. -/
theorem spillsDeleted_iff {cfg : BlobRuntimeConfig} (urls : List String) :
    ∀ {own id : ℕ}, run.FetchesAll cfg urls own →
      (run.SpillsDeleted cfg urls own id ↔ ∀ g ∈ run.handles cfg urls own id,
        (∃ path, g.storage = .spilled path) → run.deletes g.id = .deleted) := by
  induction urls with
  | nil =>
    intro own id _
    unfold handles SpillsDeleted
    simp
  | cons url urls ih =>
    intro own id hall
    obtain ⟨g, hg⟩ := @handle_isSome (run.tasks url) cfg own id hall.1
    have hid := id_of_mem_handle hg
    rw [handles, List.forall_mem_append, SpillsDeleted, TaskRun.spills_iff hall.1, hg, ih hall.2]
    refine and_congr ?_ Iff.rfl
    simp [hid]

/-! ## Removing the images -/

/-- The deletion of the file of a handle, if it has one, succeeds. -/
def Deletes (run : ForwardRun) (handle : BlobHandle) : Prop :=
  (∃ path, handle.storage = .spilled path) → run.deletes handle.id = .deleted

theorem removeBlob_deleted {runtime : BlobRuntime} {handle : BlobHandle} {rest : List BlobHandle}
    (h : runtime.Account (handle :: rest)) (hdeletes : run.Deletes handle) :
    ∃ runtime', run.removeBlob handle runtime = (true, runtime') ∧ runtime'.Account rest ∧
      runtime'.removed = handle.id :: runtime.removed := by
  obtain ⟨runtime', hremove, haccount, hremoved⟩ := h.remove
  refine ⟨runtime', ?_, haccount, hremoved⟩
  by_cases hspilled : ∃ path, handle.storage = .spilled path
  · obtain ⟨path, hs⟩ := hspilled
    unfold removeBlob
    rw [hdeletes ⟨path, hs⟩]
    exact hremove
  · have hnot : ∀ path, handle.storage ≠ .spilled path := fun path hs => hspilled ⟨path, hs⟩
    unfold removeBlob
    split
    · rw [BlobRuntime.remove_of_not_spilled true runtime hnot, hremove]
    · rename_i hs
      exact absurd hs (hnot _)
    · exact hremove

/-- A clone of a handle that is removed already. -/
theorem removeBlob_removed {runtime : BlobRuntime} {handle : BlobHandle}
    (h : handle.id ∈ runtime.removed) : run.removeBlob handle runtime = (true, runtime) := by
  unfold removeBlob BlobRuntime.remove
  simp only [if_pos h]
  split
  · rfl
  · rfl
  · rfl

/-- A removal whose deletion fails or is cancelled ends the call; it deletes at most the file
of its handle. -/
theorem removeBlob_not_deleted {runtime : BlobRuntime} {handle : BlobHandle}
    {rest : List BlobHandle} (h : runtime.Account (handle :: rest)) {path : String}
    (hs : handle.storage = .spilled path) (hdeletes : run.deletes handle.id ≠ .deleted) :
    ∃ runtime', run.removeBlob handle runtime = (false, runtime') ∧
      runtime'.globalHotBytes = runtime.globalHotBytes ∧
      runtime'.files = if run.deletes handle.id = .cancelled true then
        Function.update runtime.files path none else runtime.files := by
  have hnotin := h.not_removed handle (List.mem_cons_self ..)
  have hfails := h.remove_fails hs
  cases hd : run.deletes handle.id with
  | deleted => exact absurd hd hdeletes
  | failed =>
    refine ⟨{ runtime with removed := handle.id :: runtime.removed }, ?_, rfl, rfl⟩
    unfold removeBlob
    rw [hd, hs]
    exact hfails
  | cancelled deleted =>
    have hremove : run.removeBlob handle runtime = (false, (runtime.remove (!deleted) handle).2) := by
      unfold removeBlob
      rw [hd, hs]
      exact if_neg hnotin
    rw [hremove]
    refine ⟨_, rfl, ?_⟩
    cases deleted with
    | false =>
      rw [Bool.not_false, hfails]
      exact ⟨rfl, rfl⟩
    | true =>
      unfold BlobRuntime.remove
      rw [if_neg hnotin, hs]
      dsimp only
      rw [Bool.not_true, Bool.and_false]
      exact ⟨rfl, rfl⟩

/-- What another live handle holds is still there. -/
theorem not_released_of_removeBlob {runtime runtime' : BlobRuntime} {handle other : BlobHandle}
    {rest : List BlobHandle} (h : runtime.Account (handle :: rest)) {path : String}
    (hs : handle.storage = .spilled path) (hother : other ∈ rest) (hholds : ¬ HoldsNothing other)
    (hhot : runtime'.globalHotBytes = runtime.globalHotBytes)
    (hfiles : ∀ path', path' ≠ path → runtime'.files path' = runtime.files path') :
    ¬ runtime'.Released := by
  rintro ⟨hzero, hnone⟩
  rw [hhot, h.hot_eq, List.sum_eq_zero_iff_forall_eq_nat] at hzero
  refine hholds ⟨hzero _ (List.mem_map_of_mem (List.mem_cons_of_mem _ hother)), fun path' hpath' => ?_⟩
  have hfile := (h.files_iff path').2 ⟨other, List.mem_cons_of_mem _ hother, hpath'⟩
  rw [← hfiles path' (h.path_ne hother hs hpath'), hnone path'] at hfile
  cases hfile

/-- Every image is live or a clone of one that is removed already. -/
def LiveOrRemoved (runtime : BlobRuntime) (live : List BlobHandle)
    (replacements : List RequestReplacement) : Prop :=
  ∀ replacement ∈ replacements, replacement.blob ∈ live ∨ replacement.blob.id ∈ runtime.removed

theorem liveOrRemoved_erase {runtime runtime' : BlobRuntime} {live : List BlobHandle}
    {replacement : RequestReplacement} {replacements : List RequestReplacement}
    (h : LiveOrRemoved runtime live (replacement :: replacements))
    (hremoved : runtime'.removed = replacement.blob.id :: runtime.removed) :
    LiveOrRemoved runtime' (live.erase replacement.blob) replacements := by
  intro r hr
  rw [hremoved, List.mem_cons]
  rcases h r (List.mem_cons_of_mem _ hr) with hlive | hgone
  · by_cases heq : r.blob = replacement.blob
    · exact Or.inr (Or.inl (congrArg BlobHandle.id heq))
    · exact Or.inl ((List.mem_erase_of_ne heq).2 hlive)
  · exact Or.inr (Or.inr hgone)

/-- **The removal of the images** reaches the end if every file of theirs is deleted. -/
theorem removeReplacements_deleted {replacements : List RequestReplacement} :
    ∀ {runtime : BlobRuntime} {live : List BlobHandle}, runtime.Account live →
      LiveOrRemoved runtime live replacements →
      (∀ replacement ∈ replacements, run.Deletes replacement.blob) →
      ∃ runtime' live', run.removeReplacements replacements runtime = (true, runtime') ∧
        runtime'.Account live' ∧
        ∀ g, g ∈ live' ↔ g ∈ live ∧ ∀ replacement ∈ replacements, g ≠ replacement.blob := by
  induction replacements with
  | nil =>
    intro runtime live h _ _
    exact ⟨runtime, live, rfl, h, by simp⟩
  | cons replacement replacements ih =>
    intro runtime live h hmem hdeletes
    have hrest := fun r hr => hdeletes r (List.mem_cons_of_mem _ hr)
    by_cases hlive : replacement.blob ∈ live
    · have hperm := List.perm_cons_erase hlive
      have hcons := h.perm hperm
      obtain ⟨runtime₁, hremove, haccount, hremoved⟩ :=
        removeBlob_deleted hcons (hdeletes _ (List.mem_cons_self ..))
      obtain ⟨runtime', live', hrun, haccount', hlive'⟩ :=
        ih haccount (liveOrRemoved_erase hmem hremoved) hrest
      have hnodup : (replacement.blob :: live.erase replacement.blob).Nodup :=
        List.Nodup.of_map BlobHandle.id hcons.ids_nodup
      refine ⟨runtime', live', ?_, haccount', fun g => ?_⟩
      · unfold removeReplacements
        rw [hremove]
        exact hrun
      · rw [hlive', hperm.mem_iff, List.mem_cons, List.forall_mem_cons]
        constructor
        · rintro ⟨hg, hne⟩
          refine ⟨Or.inr hg, fun heq => ?_, hne⟩
          subst heq
          exact (List.nodup_cons.1 hnodup).1 hg
        · rintro ⟨hg, hfirst, hne⟩
          exact ⟨hg.resolve_left hfirst, hne⟩
    · have hgone := (hmem replacement (List.mem_cons_self ..)).resolve_left hlive
      obtain ⟨runtime', live', hrun, haccount', hlive'⟩ :=
        ih h (fun r hr => hmem r (List.mem_cons_of_mem _ hr)) hrest
      refine ⟨runtime', live', ?_, haccount', fun g => ?_⟩
      · unfold removeReplacements
        rw [removeBlob_removed hgone]
        exact hrun
      · rw [hlive', List.forall_mem_cons]
        refine and_congr_right fun hg => ⟨fun hne => ⟨fun heq => ?_, hne⟩, fun hne => hne.2⟩
        subst heq
        exact hlive hg

/-- If a file of theirs is not, the call ends with the body still there. -/
theorem removeReplacements_ended {replacements : List RequestReplacement} {body : BlobHandle}
    (hbody : ∀ replacement ∈ replacements, body ≠ replacement.blob) (hholds : ¬ HoldsNothing body) :
    ∀ {runtime : BlobRuntime} {live : List BlobHandle}, runtime.Account live → body ∈ live →
      LiveOrRemoved runtime live replacements →
      (∃ replacement ∈ replacements, replacement.blob ∈ live ∧ ¬ run.Deletes replacement.blob) →
      ∃ runtime', run.removeReplacements replacements runtime = (false, runtime') ∧
        ¬ runtime'.Released := by
  induction replacements with
  | nil =>
    rintro runtime live h _ _ ⟨r, hr, -⟩
    cases hr
  | cons replacement replacements ih =>
    intro runtime live h hlive hmem hfails
    have hne := hbody replacement (List.mem_cons_self ..)
    have hrest := fun r hr => hbody r (List.mem_cons_of_mem _ hr)
    obtain ⟨failing, hfailing, hfailing_live, hfailing_deletes⟩ := hfails
    by_cases hfirst : replacement.blob ∈ live
    · have hcons := h.perm (List.perm_cons_erase hfirst)
      have hbody_rest := (List.mem_erase_of_ne hne).2 hlive
      by_cases hdeletes : run.Deletes replacement.blob
      · obtain ⟨runtime₁, hremove, haccount, hremoved⟩ := removeBlob_deleted hcons hdeletes
        have hother : failing.blob ≠ replacement.blob := fun heq => hfailing_deletes (heq ▸ hdeletes)
        have hin : failing ∈ replacements := by
          rcases List.mem_cons.1 hfailing with rfl | hin
          · exact absurd rfl hother
          · exact hin
        obtain ⟨runtime', hrun, hleft⟩ := ih hrest haccount hbody_rest
          (liveOrRemoved_erase hmem hremoved)
          ⟨failing, hin, (List.mem_erase_of_ne hother).2 hfailing_live, hfailing_deletes⟩
        refine ⟨runtime', ?_, hleft⟩
        unfold removeReplacements
        rw [hremove]
        exact hrun
      · -- the call ends here
        unfold Deletes at hdeletes
        obtain ⟨⟨path, hs⟩, hnot⟩ := Classical.not_imp.1 hdeletes
        obtain ⟨runtime', hremove, hhot, hfiles⟩ := removeBlob_not_deleted hcons hs hnot
        refine ⟨runtime', ?_, not_released_of_removeBlob hcons hs hbody_rest hholds hhot ?_⟩
        · unfold removeReplacements
          rw [hremove]
        · intro path' hpath'
          rw [hfiles]
          split
          · exact Function.update_of_ne hpath' _ _
          · rfl
    · have hgone := (hmem replacement (List.mem_cons_self ..)).resolve_left hfirst
      have hin : failing ∈ replacements := by
        rcases List.mem_cons.1 hfailing with rfl | hin
        · exact absurd hfailing_live hfirst
        · exact hin
      obtain ⟨runtime', hrun, hleft⟩ := ih hrest h hlive
        (fun r hr => hmem r (List.mem_cons_of_mem _ hr)) ⟨failing, hin, hfailing_live, hfailing_deletes⟩
      refine ⟨runtime', ?_, hleft⟩
      unfold removeReplacements
      rw [removeBlob_removed hgone]
      exact hrun

/-! ## The encoder and what follows -/

/-- **The body is one handle more.** -/
theorem encodeStage_returned {readers : String → Reader chunkBytes} {pipe : Reader streamChunkBytes}
    {others : ℕ} (hencode : run.encode = .returned readers pipe others) (request : Value)
    {replacements : List RequestReplacement} {runtime : BlobRuntime}
    (hlt : runtime.globalHotBytes < 2 ^ 64)
    (hheld : ∀ replacement ∈ replacements, (runtime.readBytes replacement.blob).isSome) :
    ∃ encoded runtime', run.encodeStage ⟨request, replacements⟩ runtime = (some encoded, runtime') ∧
      runtime.Adds encoded.bodyBlob runtime' ∧
      encoded.bodyBlob = storedHandle runtime.cfg (runtime.globalHotBytes + others) runtime.nextId
        .completed (encodedBytes request replacements runtime) "application/json" := by
  generalize hbytes : encodedBytes request replacements runtime = bytes
  obtain ⟨runtime', hstore, hadds⟩ :=
    BlobRuntime.amid_storeBytes others .completed bytes "application/json" hlt
  rw [if_pos (Or.inr rfl)] at hstore
  refine ⟨⟨_, bytes.length⟩, runtime', ?_, hadds, rfl⟩
  unfold encodeStage
  rw [hencode]
  dsimp only
  unfold BlobRuntime.amid at hstore ⊢
  dsimp only
  rw [@encodeRequestBody_eq_store .completed readers pipe request replacements
    { runtime with globalHotBytes := runtime.globalHotBytes + others } hheld]
  have hbytes' : encodedBytes request replacements
      { runtime with globalHotBytes := runtime.globalHotBytes + others } = bytes := hbytes
  rw [hbytes', BlobRuntime.storeStream_eq, ite_self, pipe.flatten_split]
  rcases hresult : BlobRuntime.storeBytes .completed bytes "application/json"
    { runtime with globalHotBytes := runtime.globalHotBytes + others } with ⟨_ | blob, after⟩
  · rw [hresult] at hstore
    cases (Prod.mk.inj hstore).1
  · rw [hresult] at hstore
    obtain ⟨hblob, hafter⟩ := Prod.mk.inj hstore
    obtain rfl := Option.some.inj hblob
    exact Prod.ext rfl hafter

/-- What the store task leaves when its handle is dropped, or it is aborted. -/
theorem leaves_account (store : StoreEnd) {runtime : BlobRuntime} {live : List BlobHandle}
    (h : runtime.Account live) :
    ∃ handle, (store.leaves runtime).Account (handle :: live) ∧
      (runtime.globalHotBytes = 0 → (HoldsNothing handle ↔ store.StoresNothing runtime.cfg)) := by
  cases store with
  | finished reads others io =>
    obtain ⟨runtime', hstore, hadds⟩ := BlobRuntime.amid_storeBytes others
      (if reads.flatten.length ≤ BlobRuntime.inlineLimit runtime.cfg then io else .completed)
      reads.flatten "application/json" h.hot_lt
    have hleaves : StoreEnd.leaves (.finished reads others io) runtime = runtime' := by
      have hstream := congrArg Prod.snd hstore
      unfold BlobRuntime.amid at hstream
      unfold StoreEnd.leaves BlobRuntime.amid
      dsimp only at hstream ⊢
      rw [BlobRuntime.storeStream_eq]
      exact hstream
    rw [hleaves]
    refine ⟨_, hadds.account h, fun hzero => ?_⟩
    rw [holdsNothing_storedHandle, hzero, Nat.zero_add]
    unfold StoreEnd.StoresNothing
    by_cases hfits : reads.flatten.length ≤ BlobRuntime.inlineLimit runtime.cfg
    · simp only [hfits, if_true, true_and]
    · have hnot : ¬ Reservable runtime.cfg others reads.flatten.length := fun hr => hfits hr.1
      unfold StoreHoldsNothing
      dsimp only
      rw [if_neg hnot, if_neg hfits]
      exact iff_of_false (fun h => by cases h) fun h => hfits h.1
  | aborted reads =>
    have hloop := BlobRuntime.StreamState.foldl_read (BlobRuntime.inlineLimit runtime.cfg) reads []
      (Nat.zero_le _)
    have hlt := h.hot_lt
    rw [List.nil_append] at hloop
    unfold StoreEnd.leaves BlobRuntime.abortStream BlobRuntime.takeId
    unfold BlobRuntime.inlineLimit at hloop
    dsimp only
    rw [hloop]
    by_cases hfits : reads.flatten.length ≤ BlobRuntime.inlineLimit runtime.cfg
    · have hfits' : reads.flatten.length ≤ min runtime.cfg.inlineMaxBytes
          runtime.cfg.requestHotBudgetBytes := hfits
      have hadds : runtime.Adds ⟨runtime.nextId, ⟨"application/json", 0⟩, .shared []⟩
          { runtime with nextId := runtime.nextId + 1 } :=
        BlobRuntime.adds_shared rfl rfl hlt rfl rfl rfl rfl rfl
      rw [if_pos hfits']
      refine ⟨_, hadds.account h, fun _ => iff_of_true ?_ hfits⟩
      simp [HoldsNothing, inlineSize]
    · have hfits' : ¬ reads.flatten.length ≤ min runtime.cfg.inlineMaxBytes
          runtime.cfg.requestHotBudgetBytes := hfits
      have hadds : runtime.Adds ⟨runtime.nextId, ⟨"application/json", 0⟩,
            .spilled (runtime.cfg.spillPath runtime.nextId)⟩
          (BlobRuntime.writeFile { runtime with nextId := runtime.nextId + 1 }
            (runtime.cfg.spillPath runtime.nextId) reads.flatten) :=
        BlobRuntime.adds_spilled rfl rfl hlt rfl rfl rfl rfl rfl
      rw [if_neg hfits']
      refine ⟨_, hadds.account h, fun _ => iff_of_false ?_ hfits⟩
      simp [HoldsNothing]

theorem holdsNothing_body {cfg : BlobRuntimeConfig} {hot id : ℕ} {bytes : List UInt8}
    {mimeType : String} (hbytes : bytes ≠ []) :
    ¬ HoldsNothing (storedHandle cfg hot id .completed bytes mimeType) := by
  rw [holdsNothing_storedHandle]
  unfold StoreHoldsNothing
  split
  · simpa using hbytes
  · intro h
    cases h

/-- **From the encoded body on** the body is released if the call reaches its removal and
its file, if it has one, goes. -/
theorem sendStage_released_iff {encoded : EncodedRequestBody} {runtime : BlobRuntime}
    (h : runtime.Account [encoded.bodyBlob]) (hholds : ¬ HoldsNothing encoded.bodyBlob) :
    (run.sendStage encoded runtime).Released ↔ run.Sends ∧
      ((∃ path, encoded.bodyBlob.storage = .spilled path) →
        run.deletes encoded.bodyBlob.id = .deleted ∨
          run.deletes encoded.bodyBlob.id = .cancelled true) := by
  have hkept : ¬ runtime.Released := by
    rw [h.released_iff]
    simpa using hholds
  -- the removal of the body
  have hremoval : (run.removeBlob encoded.bodyBlob runtime).2.Released ↔
      ((∃ path, encoded.bodyBlob.storage = .spilled path) →
        run.deletes encoded.bodyBlob.id = .deleted ∨
          run.deletes encoded.bodyBlob.id = .cancelled true) := by
    by_cases hdeletes : run.Deletes encoded.bodyBlob
    · obtain ⟨runtime', hremove, haccount, -⟩ := removeBlob_deleted h hdeletes
      rw [hremove]
      refine iff_of_true (haccount.released_iff.2 (by simp)) fun hs => Or.inl (hdeletes hs)
    · obtain ⟨⟨path, hs⟩, hnot⟩ := Classical.not_imp.1 hdeletes
      obtain ⟨runtime', hremove, hhot, hfiles⟩ := removeBlob_not_deleted h hs hnot
      have hsize : inlineSize encoded.bodyBlob = 0 := by
        unfold inlineSize
        rw [hs]
      have hzero : runtime.globalHotBytes = 0 := by
        rw [h.hot_eq]
        simp [hsize]
      rw [hremove]
      unfold Released
      rw [hhot, hfiles]
      by_cases hgone : run.deletes encoded.bodyBlob.id = .cancelled true
      · refine iff_of_true ⟨hzero, fun path' => ?_⟩ fun _ => Or.inr hgone
        rw [if_pos hgone]
        by_cases hpath : path' = path
        · subst hpath
          exact Function.update_self _ _ _
        · rw [Function.update_of_ne hpath]
          by_contra hsome
          obtain ⟨g, hg, hgpath⟩ := (h.files_iff path').1 (Option.isSome_iff_ne_none.2 hsome)
          obtain rfl := List.mem_singleton.1 hg
          rw [hs] at hgpath
          exact hpath (BlobStorage.spilled.inj hgpath).symm
      · refine iff_of_false (fun hreleased => ?_) fun hall => (hall ⟨path, hs⟩).elim hnot hgone
        have hfile := (h.files_iff path).2 ⟨_, List.mem_singleton_self _, hs⟩
        rw [if_neg hgone] at hreleased
        rw [hreleased.2 path] at hfile
        cases hfile
  unfold sendStage Sends
  rw [← hremoval]
  cases hadmin : run.adminEnabled && run.readBytesEnds with
  | true =>
    rw [if_pos rfl]
    refine iff_of_false hkept fun hsends => hsends.1.1 ?_
    simpa using hadmin
  | false =>
    have hread : ¬ (run.adminEnabled = true ∧ run.readBytesEnds = true) := by
      simpa using hadmin
    rw [if_neg Bool.false_ne_true]
    cases hurl : run.upstreamUrlFails with
    | true => simp [hkept]
    | false =>
      cases hopen : run.openReaderEnds with
      | true => simp [hkept]
      | false =>
        cases hsend : run.send with
        | ok => simp [hread]
        | failed => simp [hread]
        | cancelled => simp [hkept]

/-! ## The whole call -/

/-- The blobs of the replacements are those fetched for the URLs of the request. -/
theorem mem_blobs_buildReplacements {fetchedByUrl : List (String × FetchedBlob)} {blob : BlobHandle}
    {refs : List RequestImageRef} :
    ∀ {replacements : List RequestReplacement},
      buildReplacements fetchedByUrl refs = .ok replacements →
      (blob ∈ replacements.map (·.blob) ↔
        ∃ imageRef ∈ refs, ∃ fetched, fetchedByUrl.lookup imageRef.url = some fetched ∧
          fetched.blob = blob) := by
  unfold buildReplacements
  induction refs with
  | nil =>
    intro replacements h
    obtain rfl := Except.ok.inj h
    simp
  | cons r refs ih =>
    intro replacements h
    rw [List.mapM_cons] at h
    cases hlookup : fetchedByUrl.lookup r.url with
    | none =>
      rw [hlookup] at h
      cases h
    | some fetched =>
      rw [hlookup] at h
      obtain ⟨replacement, hfirst, h⟩ := Except.bind_eq_ok.1 h
      obtain ⟨rest, hrest, h⟩ := Except.bind_eq_ok.1 h
      obtain rfl := Except.ok.inj hfirst
      obtain rfl := Except.ok.inj h
      rw [List.map_cons, List.mem_cons, ih hrest, List.exists_mem_cons_iff]
      refine or_congr ?_ Iff.rfl
      rw [hlookup]
      simp [eq_comm]

theorem account_unused (cfg : BlobRuntimeConfig) (nextId : ℕ) :
    (BlobRuntime.unused cfg nextId).Account [] := by
  refine ⟨rfl, Nat.two_pow_pos 64, fun path => ?_, ?_, ?_, List.nodup_nil, ?_, ?_⟩
  · simp [BlobRuntime.unused, BlobRuntime.new]
  · simp
  · simp
  · simp [BlobRuntime.unused, BlobRuntime.new]
  · simp

/-- The fetches of a call that stores its images, and that of its body. -/
structure Materialized (run : ForwardRun) (cfg : BlobRuntimeConfig) (nextId : ℕ)
    (request : Value) (urls : List String) (replacements : List RequestReplacement)
    (runtime : BlobRuntime) (live : List BlobHandle) : Prop where
  account : runtime.Account live
  cfg_eq : runtime.cfg = cfg
  hot_eq : runtime.globalHotBytes = run.reserved cfg urls 0
  nextId_eq : runtime.nextId = nextId + urls.length
  mem_live : ∀ g, g ∈ live ↔ g ∈ run.handles cfg urls 0 nextId
  mem_blobs : ∀ g, g ∈ replacements.map (·.blob) ↔ g ∈ live
  readable : ∀ replacement ∈ replacements, (runtime.readBytes replacement.blob).isSome
  encodedBytes_eq : encodedBytes request replacements runtime = run.bodyBytes request

/-- The materialize stage, when the call ends in it. -/
theorem materializeStage_none {cfg : BlobRuntimeConfig} {nextId : ℕ} {request : Value}
    {refs : List RequestImageRef} (hscan : scanRequestImageUrls request = .ok refs)
    (hends : ¬ (run.FetchesAll cfg (run.order.arrange (uniqueUrls refs [])) 0 ∧
      run.materializeCancelled = false)) :
    ∃ runtime live, run.materializeStage request (BlobRuntime.unused cfg nextId) = (none, runtime) ∧
      runtime.Account live ∧
      ∀ g, g ∈ live ↔ g ∈ run.handles cfg (run.order.arrange (uniqueUrls refs [])) 0 nextId := by
  have hstart := account_unused cfg nextId
  obtain ⟨live, haccount, -, hmem⟩ := @runTasks_account run
    (run.order.arrange (uniqueUrls refs [])) [] _ _ hstart
  refine ⟨_, live, ?_, haccount, fun g => by simpa [BlobRuntime.unused, BlobRuntime.new] using hmem g⟩
  unfold materializeStage
  rw [hscan]
  dsimp only
  by_cases hall : run.FetchesAll cfg (run.order.arrange (uniqueUrls refs [])) 0
  · have hcancelled : run.materializeCancelled = true := by simpa [hall] using hends
    obtain ⟨fetchedByUrl, runtime, hrun, -⟩ := @runTasks_some run
      (run.order.arrange (uniqueUrls refs [])) [] _ _ hstart hall (by simp)
    rw [hrun]
    dsimp only
    rw [if_pos hcancelled]
  · have hnone := @runTasks_none run (run.order.arrange (uniqueUrls refs [])) [] _ _ hstart hall
    rcases hrun : run.runTasks (run.order.arrange (uniqueUrls refs [])) [] (.unused cfg nextId) with
      ⟨_ | fetchedByUrl, runtime⟩
    · rfl
    · rw [hrun] at hnone
      cases hnone

/-- **The materialize stage, when the call goes on**: the blobs of the call are those of its
replacements. -/
theorem materializeStage_some {cfg : BlobRuntimeConfig} {nextId : ℕ} {request : Value}
    (hdistinct : request.Distinct) {refs : List RequestImageRef}
    (hscan : scanRequestImageUrls request = .ok refs)
    (hall : run.FetchesAll cfg (run.order.arrange (uniqueUrls refs [])) 0)
    (hgoes : run.materializeCancelled = false) :
    ∃ replacements runtime live,
      run.materializeStage request (BlobRuntime.unused cfg nextId) =
        (some ⟨request, replacements⟩, runtime) ∧
      run.Materialized cfg nextId request (run.order.arrange (uniqueUrls refs [])) replacements
        runtime live := by
  have hstart := account_unused cfg nextId
  have hperm := run.order.perm (uniqueUrls refs [])
  generalize hurls : run.order.arrange (uniqueUrls refs []) = urls at hall hperm ⊢
  have hmem_urls : ∀ url, url ∈ urls ↔ url ∈ refs.map (·.url) := by
    intro url
    rw [hperm.mem_iff, mem_uniqueUrls]
    simp
  obtain ⟨live, haccount, hcfg, hlive⟩ := @runTasks_account run urls [] _ _ hstart
  obtain ⟨fetchedByUrl, runtime, hrun, hfetched⟩ := @runTasks_some run urls [] _ _ hstart hall
    (by simp)
  rw [hrun] at haccount hcfg
  have hkeys := hfetched.keys_eq
  rw [List.map_nil, List.append_nil] at hkeys
  have hnodup : (fetchedByUrl.map Prod.fst).Nodup := by
    rw [hkeys, List.nodup_reverse, hperm.nodup_iff]
    exact nodup_uniqueUrls refs []
  obtain ⟨replacements, hbuild, hof⟩ := buildReplacements_ok hfetched.blobOf (by
    intro imageRef href
    rw [hkeys, List.mem_reverse, hmem_urls]
    exact List.mem_map_of_mem href)
  -- the references are those of the request, so the images are replaced
  have hrefs : refs = (scanOrder request).map (refAt []) := by
    rw [scanRequestImageUrls_eq] at hscan
    split at hscan
    · exact (Except.ok.inj hscan).symm
    · cases hscan
  have hfinds : FindsImages (fetchedNode run.fetch) request
      (nodeAt (replacementMap replacements) runtime) := by
    rw [hrefs] at hof
    exact findsImages_nodeAt hdistinct hof
  refine ⟨replacements, runtime, live, ?_, haccount, hcfg, hfetched.hot_eq, hfetched.nextId_eq,
    fun g => ?_, fun g => ?_, ?_, ?_⟩
  · unfold materializeStage
    rw [hscan]
    dsimp only
    rw [hurls, hrun]
    dsimp only
    rw [hgoes, hbuild]
    rfl
  · simpa [BlobRuntime.unused, BlobRuntime.new] using hlive g
  · have hblobs := hfetched.mem_blobs g
    rw [List.map_nil] at hblobs
    rw [mem_blobs_buildReplacements hbuild, hlive, ← hblobs, List.mem_map]
    constructor
    · rintro ⟨imageRef, -, fetched, hlookup, rfl⟩
      exact ⟨_, (Assoc.lookup_eq_some_iff_mem hnodup).1 hlookup, rfl⟩
    · rintro ⟨entry, hentry, rfl⟩
      have hkey : entry.1 ∈ fetchedByUrl.map Prod.fst := List.mem_map_of_mem hentry
      rw [hkeys, List.mem_reverse, hmem_urls] at hkey
      obtain ⟨imageRef, href, hurl⟩ := List.mem_map.1 hkey
      exact ⟨imageRef, href, entry.2, (Assoc.lookup_eq_some_iff_mem hnodup).2 (hurl ▸ hentry), rfl⟩
  · intro replacement hreplacement
    obtain ⟨imageRef, -, fetched, hblob, rfl⟩ := hof.ref_of_mem _ hreplacement
    exact hblob.stored.readable
  · unfold encodedBytes bodyBytes
    rw [graft_eq_replaceImages (distinct_stripOutputFromValue hdistinct) hdistinct
      (pruned_stripOutputFromValue hdistinct) hfinds]

theorem bodyBytes_ne_nil {request : Value} (hdistinct : request.Distinct)
    (hnumeric : request.Numeric) : run.bodyBytes request ≠ [] := by
  have hparse : Json.parse (run.bodyBytes request) =
      some (replaceImages (fetchedNode run.fetch) (stripOutputFromValue request)) :=
    Json.parse_print
      (distinct_replaceImages (@distinct_fetchedNode run.fetch) (distinct_stripOutputFromValue hdistinct))
      (numeric_replaceImages numeric_fetchedNode (numeric_stripOutputFromValue hnumeric))
  intro hnil
  have hempty : Json.parse [] = none := by rfl
  rw [hnil, hempty] at hparse
  cases hparse

/-- **A call that has encoded its body** releases its images and its body if every file of
theirs is deleted and the call reaches the removal of the body. -/
theorem removeAndSend_released_iff {cfg : BlobRuntimeConfig} {nextId : ℕ} {request : Value}
    (hdistinct : request.Distinct) (hnumeric : request.Numeric) {urls : List String} {replacements : List RequestReplacement} {runtime : BlobRuntime}
    {live : List BlobHandle} (hall : run.FetchesAll cfg urls 0)
    (h : run.Materialized cfg nextId request urls replacements runtime live)
    {readers : String → Reader chunkBytes} {pipe : Reader streamChunkBytes} {others : ℕ}
    (hencode : run.encode = .returned readers pipe others) :
    ∃ encoded runtime', run.encodeStage ⟨request, replacements⟩ runtime = (some encoded, runtime') ∧
      ((run.removeAndSend encoded replacements runtime').Released ↔
          run.SpillsDeleted cfg urls 0 nextId ∧ run.Sends ∧
          (Reservable cfg (run.reserved cfg urls 0 + others) (run.bodyBytes request).length ∨
            run.deletes (nextId + urls.length) = .deleted ∨
            run.deletes (nextId + urls.length) = .cancelled true)) := by
  obtain ⟨encoded, runtime', hstage, hadds, hbody⟩ :=
    encodeStage_returned hencode request h.account.hot_lt h.readable
  rw [h.encodedBytes_eq, h.cfg_eq, h.hot_eq, h.nextId_eq] at hbody
  have haccount := hadds.account h.account
  have hholds : ¬ HoldsNothing encoded.bodyBlob := by
    rw [hbody]
    exact holdsNothing_body (bodyBytes_ne_nil hdistinct hnumeric)
  have hid : encoded.bodyBlob.id = nextId + urls.length := by
    rw [hbody]
    rfl
  have hspilled : (∃ path, encoded.bodyBlob.storage = .spilled path) ↔
      ¬ Reservable cfg (run.reserved cfg urls 0 + others) (run.bodyBytes request).length := by
    rw [hbody]
    exact spilled_storedHandle
  have hlive : ∀ replacement ∈ replacements, replacement.blob ∈ live :=
    fun r hr => (h.mem_blobs _).1 (List.mem_map_of_mem hr)
  have hcons : LiveOrRemoved runtime' (encoded.bodyBlob :: live) replacements :=
    fun r hr => Or.inl (List.mem_cons_of_mem _ (hlive r hr))
  -- the body is a blob of its own
  have hne : ∀ replacement ∈ replacements, encoded.bodyBlob ≠ replacement.blob := by
    intro r hr heq
    have hnotin := (List.nodup_cons.1 haccount.ids_nodup).1
    rw [heq] at hnotin
    exact hnotin (List.mem_map_of_mem (hlive r hr))
  have hdeletes : run.SpillsDeleted cfg urls 0 nextId ↔
      ∀ replacement ∈ replacements, run.Deletes replacement.blob := by
    rw [spillsDeleted_iff urls hall]
    constructor
    · intro hspills r hr
      exact hspills _ ((h.mem_live _).1 (hlive r hr))
    · intro hspills g hg
      obtain ⟨r, hr, rfl⟩ := List.mem_map.1 ((h.mem_blobs g).2 ((h.mem_live g).2 hg))
      exact hspills r hr
  refine ⟨encoded, runtime', hstage, ?_⟩
  rw [hdeletes]
  unfold removeAndSend
  by_cases hgone : ∀ replacement ∈ replacements, run.Deletes replacement.blob
  · obtain ⟨runtime₂, live₂, hrun, haccount₂, hmem₂⟩ :=
      removeReplacements_deleted haccount hcons hgone
    have hsingle : live₂.Perm [encoded.bodyBlob] := by
      refine (List.perm_ext_iff_of_nodup (List.Nodup.of_map _ haccount₂.ids_nodup)
        (List.nodup_singleton _)).2 fun g => ?_
      rw [hmem₂, List.mem_cons, List.mem_singleton]
      constructor
      · rintro ⟨heq | hg, hother⟩
        · exact heq
        · obtain ⟨r, hr, rfl⟩ := List.mem_map.1 ((h.mem_blobs g).2 hg)
          exact absurd rfl (hother r hr)
      · rintro rfl
        exact ⟨Or.inl rfl, hne⟩
    rw [hrun]
    dsimp only
    rw [sendStage_released_iff (haccount₂.perm hsingle) hholds, hid, hspilled]
    have hor : ∀ p q : Prop, (¬ p → q) ↔ (p ∨ q) := by tauto
    rw [hor]
    exact ⟨fun h => ⟨hgone, h⟩, fun h => h.2⟩
  · have hfails : ∃ replacement ∈ replacements,
        replacement.blob ∈ encoded.bodyBlob :: live ∧ ¬ run.Deletes replacement.blob := by
      obtain ⟨r, hnot⟩ := Classical.not_forall.1 hgone
      obtain ⟨hr, hnot⟩ := Classical.not_imp.1 hnot
      exact ⟨r, hr, List.mem_cons_of_mem _ (hlive r hr), hnot⟩
    obtain ⟨runtime₂, hrun, hleft⟩ := removeReplacements_ended hne hholds haccount
      (List.mem_cons_self ..) hcons hfails
    rw [hrun]
    exact iff_of_false hleft fun h => hgone h.1

/-- A call that ends in the encoder leaves what its tasks and its store have stored. -/
theorem ended_released_iff {cfg : BlobRuntimeConfig} {nextId : ℕ} {request : Value}
    {urls : List String} {replacements : List RequestReplacement} {runtime : BlobRuntime}
    {live : List BlobHandle}
    (h : run.Materialized cfg nextId request urls replacements runtime live) (store : StoreEnd) :
    (store.leaves runtime).Released ↔
      (∀ url ∈ urls, (run.tasks url).StoresNothing cfg) ∧ store.StoresNothing cfg := by
  obtain ⟨handle, haccount, hhandle⟩ := leaves_account store h.account
  have htasks : (∀ g ∈ live, HoldsNothing g) ↔ ∀ url ∈ urls, (run.tasks url).StoresNothing cfg := by
    rw [← @handles_holdNothing_iff run cfg urls nextId]
    exact forall_congr' fun g => by rw [h.mem_live]
  rw [haccount.released_iff, List.forall_mem_cons, and_comm, htasks]
  refine and_congr_right fun hnothing => ?_
  have hzero : runtime.globalHotBytes = 0 := (h.account.released_iff.2 (htasks.2 hnothing)).1
  rw [hhandle hzero, h.cfg_eq]

end ForwardRun

open ForwardRun in
/-- **When a Gemini request leaves nothing behind.** -/
theorem forwardGeminiRequest_released_iff (run : ForwardRun) (cfg : BlobRuntimeConfig)
    (nextId : ℕ) (request : Json.Document) :
    (run.forwardGeminiRequest request (BlobRuntime.unused cfg nextId)).Released ↔
      run.Releases cfg nextId request := by
  obtain ⟨request, hdistinct, hnumeric⟩ := request
  dsimp only
  unfold Releases
  cases hscan : scanRequestImageUrls request with
  | error e =>
    have hstart : (BlobRuntime.unused cfg nextId).Released :=
      (account_unused cfg nextId).released_iff.2 (by simp)
    unfold forwardGeminiRequest materializeStage
    rw [hscan]
    exact iff_of_true hstart trivial
  | ok refs =>
    dsimp only
    by_cases hfetched : run.FetchesAll cfg (run.order.arrange (uniqueUrls refs [])) 0 ∧
        run.materializeCancelled = false
    · rw [forall_prop_of_true hfetched]
      obtain ⟨replacements, runtime, live, hstage, hmaterialized⟩ :=
        @materializeStage_some run cfg nextId request hdistinct refs hscan hfetched.1 hfetched.2
      unfold forwardGeminiRequest
      rw [hstage]
      dsimp only
      cases hencode : run.encode with
      | ended store =>
        unfold encodeStage
        rw [hencode]
        dsimp only
        rw [ended_released_iff hmaterialized store]
        exact ⟨fun h => ⟨fun hnot => absurd hfetched hnot, h⟩, fun h => h.2⟩
      | returned readers pipe others =>
        obtain ⟨encoded, runtime', hencoded, hiff⟩ :=
          removeAndSend_released_iff hdistinct hnumeric hfetched.1 hmaterialized hencode
        rw [hencoded]
        dsimp only
        rw [hiff]
        exact ⟨fun h => ⟨fun hnot => absurd hfetched hnot, h⟩, fun h => h.2⟩
    · obtain ⟨runtime, live, hstage, haccount, hmem⟩ :=
        @materializeStage_none run cfg nextId request refs hscan hfetched
      unfold forwardGeminiRequest
      rw [hstage]
      dsimp only
      rw [haccount.released_iff, forall_prop_of_true hfetched, ← @handles_holdNothing_iff run cfg _ nextId]
      constructor
      · intro h
        exact ⟨fun g hg => h g ((hmem g).2 hg), fun hall => absurd hall hfetched⟩
      · intro h g hg
        exact h.1 g ((hmem g).1 hg)

/-- The fetch of one image succeeds, that of the other fails. -/
def secondFetchFails : ForwardRun where
  order := ⟨id, fun urls => List.Perm.refl urls⟩
  tasks url :=
    if url = "https://e.com/a.png" then ⟨some ⟨"image/png", [1, 2, 3], false⟩, 0, .completed⟩
    else ⟨none, 0, .completed⟩
  materializeCancelled := false
  encode := .returned (fun _ => Reader.bytewise (by decide)) (Reader.bytewise (by decide)) 0
  deletes _ := .deleted
  adminEnabled := false
  readBytesEnds := false
  upstreamUrlFails := false
  openReaderEnds := false
  send := .ok

def twoUrlsExample : Json.Document :=
  ⟨.object [("parts", .array
      [.object [("inlineData", .object [("data", .string "https://e.com/a.png")])],
        .object [("inlineData", .object [("data", .string "https://e.com/b.png")])]])], by
    simp [Json.Map.keys]⟩

/-- The image that was fetched keeps its hot bytes for good. -/
theorem failed_fetch_keeps_hot_bytes :
    let cfg : BlobRuntimeConfig := ⟨8 * 1024 * 1024, 64 * 1024 * 1024, 512 * 1024 * 1024, "/tmp"⟩
    let runtime := secondFetchFails.forwardGeminiRequest twoUrlsExample (BlobRuntime.unused cfg 1)
    runtime.globalHotBytes = 3 ∧ ¬ runtime.Released := by
  intro cfg runtime
  have hhot : runtime.globalHotBytes = 3 := by decide +kernel
  refine ⟨hhot, fun hreleased => ?_⟩
  rw [hreleased.1] at hhot
  cases hhot

end GeminiWorker
