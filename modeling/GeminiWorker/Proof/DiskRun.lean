import GeminiWorker.Proof.DiskCache

/-!
# Calls of the disk cache from end to end

* `store_run`: a call of `set` that no other call comes between leaves both files of the image.
* `miss_run`: one that finds no metadata returns nothing.
* `broken_run`: one that finds metadata that are none returns an error.
* `get_run`: a call of `get` that finds both files, and has not to throw them away, returns the image.
-/

namespace GeminiWorker

open Transition (run)

theorem run_cons_of_step {σ ε : Type} {step : σ → ε → Option σ} {s t : σ} {event : ε} (h : step s event = some t)
    (events : List ε) : run step s (event :: events) = run step t events := by
  rw [run, h, Option.bind_some]

namespace DiskState

variable {cfg : DiskCacheConfig} {side : Side} {url : String} {value : CachedInlineData} {now : UInt64} {count : ℕ}
  {holder : Side → Option DiskCall} {dir : Disk} {begun stored : List (String × CachedInlineData)}

/-- The state in which one side is at a call. -/
def atCall (holder : Side → Option DiskCall) (begun stored : List (String × CachedInlineData)) (side : Side)
    (dir : Disk) (call : DiskCall) : DiskState :=
  ⟨dir, Function.update holder side (some call), begun, stored⟩

theorem holder_atCall (call : DiskCall) : (atCall holder begun stored side dir call).holder side = some call := by
  change Function.update holder side (some call) side = some call
  rw [Function.update_self]

theorem holder_atCall_of_ne {side' : Side} (h : side' ≠ side) (call : DiskCall) :
    (atCall holder begun stored side dir call).holder side' = holder side' := by
  change Function.update holder side (some call) side' = holder side'
  rw [Function.update_of_ne h]

theorem setHolder_atCall (call call' : DiskCall) :
    (atCall holder begun stored side dir call).setHolder side (some call') =
      atCall holder begun stored side dir call' := by
  change (⟨dir, Function.update (Function.update holder side (some call)) side (some call'), begun, stored⟩ : DiskState) = _
  rw [Function.update_idem]
  rfl

theorem step_advance_get {phase phase' : GetPhase} {dir' : Disk}
    (h : advanceGet cfg dir url now phase = some (dir', phase')) :
    (atCall holder begun stored side dir (.get url phase)).step cfg (.advance side now) =
      some (atCall holder begun stored side dir' (.get url phase')) := by
  rw [step, holder_atCall, Option.bind_some, advance]
  change (advanceGet cfg dir url now phase).map _ = _
  rw [h, Option.map_some]
  exact congrArg some (setHolder_atCall _ _)

theorem step_advance_set {phase phase' : SetPhase} {dir' : Disk}
    (h : advanceSet cfg dir url value now phase = some (dir', phase')) :
    (atCall holder begun stored side dir (.set url value phase)).step cfg (.advance side now) =
      some (atCall holder begun ((atCall holder begun stored side dir (.set url value phase)).storedBy url value phase)
        side dir' (.set url value phase')) := by
  rw [step, holder_atCall, Option.bind_some, advance]
  change (advanceSet cfg dir url value now phase).map _ = _
  rw [h, Option.map_some]
  exact congrArg some (setHolder_atCall _ _)

theorem step_write {phase phase' : SetPhase} {dir' : Disk} (h : writeSet dir value count phase = some (dir', phase')) :
    (atCall holder begun stored side dir (.set url value phase)).step cfg (.write side count) =
      some (atCall holder begun stored side dir' (.set url value phase')) := by
  rw [step, holder_atCall]
  change (writeSet dir value count phase).map _ = _
  rw [h, Option.map_some]
  exact congrArg some (setHolder_atCall _ _)

/-! ## `set` -/

/-- Each file is written in one go. -/
def setEvents (side : Side) (url : String) (value : CachedInlineData) (now : UInt64) (metaLength : ℕ) : List DiskEvent :=
  [.set side url value, .advance side now, .advance side now, .write side value.bytes.length, .advance side now,
    .advance side now, .write side metaLength, .advance side now]

/-- A file created under the name, and written in one go. -/
def written (dir : Disk) (path : String) (bytes : List UInt8) : Disk :=
  (dir.create path).writeAt (dir.createdFile path) 0 bytes

theorem read_written (path : String) (bytes : List UInt8) : (written dir path bytes).read path = some bytes := by
  have hwrites := (@Disk.Writes.created dir path).writeAt bytes
  have hname : (written dir path bytes).names path = some (dir.createdFile path) := by
    rw [written, Disk.names_writeAt, Disk.names_create, if_pos rfl]
  rw [Disk.read, hname, Option.map_some]
  exact congrArg some (hwrites.contents _ hname).2

theorem read_written_of_ne {path path' : String} (hne : path' ≠ path) (bytes : List UInt8) :
    (written dir path bytes).read path' = dir.read path' := by
  rcases hname : dir.names path' with _ | file
  · rw [Disk.read, Disk.read, written, Disk.names_writeAt, Disk.names_create, if_neg hne, hname]
    rfl
  · have hfile := Disk.createdFile_ne hne hname
    rw [Disk.read, Disk.read, written, Disk.names_writeAt, Disk.names_create, if_neg hne, hname, Option.map_some,
      Option.map_some, Disk.contents_writeAt, if_neg hfile, Disk.contents_create, if_neg hfile]

/-- The metadata that `set` writes. -/
def metaOf (cfg : DiskCacheConfig) (value : CachedInlineData) (now : UInt64) : DiskMeta :=
  ⟨value.mimeType, now + cfg.ttl, UInt64.ofNat value.bytes.length⟩

/-- The directory once both files are written. -/
def afterSet (cfg : DiskCacheConfig) (dir : Disk) (url : String) (value : CachedInlineData) (now : UInt64) : Disk :=
  written (written dir (cfg.bodyPath url) value.bytes) (cfg.metaPath url) (cfg.codec.toVec (metaOf cfg value now))

/-- Nothing is written where there are no bytes. -/
def writeEvents (side : Side) (count : ℕ) : List DiskEvent := if count = 0 then [] else [.write side count]

def storeEvents (side : Side) (url : String) (value : CachedInlineData) (now : UInt64) (metaLength : ℕ) : List DiskEvent :=
  .set side url value :: .advance side now :: .advance side now :: (writeEvents side value.bytes.length ++
    .advance side now :: .advance side now :: (writeEvents side metaLength ++ [.advance side now]))

theorem written_nil (dir : Disk) (path : String) : written dir path [] = dir.create path := by
  have hcontents : (written dir path []).contents = (dir.create path).contents := by
    funext file
    rw [written, Disk.contents_writeAt, Disk.contents_create, Disk.contents_create]
    split
    · rw [if_pos rfl]
      rfl
    · rfl
  exact congrArg (fun contents => { dir.create path with contents }) hcontents

/-- One write, or none. -/
theorem run_writeEvents {phase : ℕ → SetPhase} {path : String} {bytes : List UInt8} (events : List DiskEvent)
    (h : 0 < bytes.length → writeSet (dir.create path) value bytes.length (phase 0) =
      some (written dir path bytes, phase bytes.length)) :
    run (DiskState.step cfg) (atCall holder begun stored side (dir.create path) (.set url value (phase 0)))
        (writeEvents side bytes.length ++ events) =
      run (DiskState.step cfg) (atCall holder begun stored side (written dir path bytes)
        (.set url value (phase bytes.length))) events := by
  unfold writeEvents
  by_cases hempty : bytes.length = 0
  · obtain rfl := List.length_eq_zero_iff.mp hempty
    rw [if_pos hempty, List.nil_append, written_nil]
    rfl
  · rw [if_neg hempty, List.singleton_append, run_cons_of_step (step_write (h (Nat.pos_of_ne_zero hempty)))]

/-- **`set`, with nothing in between, until it prunes the directory.** -/
theorem store_run {s : DiskState} (hfree : s.holder side = none) :
    run (DiskState.step cfg) s (storeEvents side url value now (cfg.codec.toVec (metaOf cfg value now)).length) =
      some (atCall s.holder ((url, value) :: s.begun) ((url, value) :: s.stored) side (afterSet cfg s.dir url value now)
        (.set url value .readDir)) := by
  have hstart : s.step cfg (.set side url value) =
      some (atCall s.holder ((url, value) :: s.begun) s.stored side s.dir (.set url value .createDir)) := by
    rw [step, if_pos hfree]
    rfl
  have hbody (hbytes : 0 < value.bytes.length) : writeSet (s.dir.create (cfg.bodyPath url)) value value.bytes.length
      (.writeBody (s.dir.createdFile (cfg.bodyPath url)) 0) =
        some (written s.dir (cfg.bodyPath url) value.bytes,
          .writeBody (s.dir.createdFile (cfg.bodyPath url)) value.bytes.length) := by
    rw [writeSet, Nat.zero_add, if_pos ⟨hbytes, le_rfl⟩, List.drop_zero, List.take_length]
    rfl
  have hend : ∀ dir' file, advanceSet cfg dir' url value now (.writeBody file value.bytes.length) =
      some (dir', .createMeta) := fun dir' file => if_pos rfl
  have hmetaCreated : ∀ dir' : Disk, advanceSet cfg dir' url value now .createMeta =
      some (dir'.create (cfg.metaPath url), .writeMeta (dir'.createdFile (cfg.metaPath url))
        (cfg.codec.toVec (metaOf cfg value now)) 0) := fun dir' => rfl
  have hmetaWritten (dir' : Disk) (hmeta : 0 < (cfg.codec.toVec (metaOf cfg value now)).length) :
      writeSet (dir'.create (cfg.metaPath url)) value (cfg.codec.toVec (metaOf cfg value now)).length
        (.writeMeta (dir'.createdFile (cfg.metaPath url)) (cfg.codec.toVec (metaOf cfg value now)) 0) =
        some (written dir' (cfg.metaPath url) (cfg.codec.toVec (metaOf cfg value now)),
          .writeMeta (dir'.createdFile (cfg.metaPath url)) (cfg.codec.toVec (metaOf cfg value now))
            (cfg.codec.toVec (metaOf cfg value now)).length) := by
    rw [writeSet, Nat.zero_add, if_pos ⟨hmeta, le_rfl⟩, List.drop_zero, List.take_length]
    rfl
  have hmetaEnd : ∀ dir' file bytes, advanceSet cfg dir' url value now (.writeMeta file bytes bytes.length) =
      some (dir', .readDir) := fun dir' file bytes => if_pos rfl
  rw [storeEvents, run_cons_of_step hstart, run_cons_of_step (step_advance_set rfl),
    run_cons_of_step (step_advance_set rfl),
    @run_writeEvents cfg side url value _ s.dir _ _
      (fun count => .writeBody (s.dir.createdFile (cfg.bodyPath url)) count) (cfg.bodyPath url) value.bytes _ hbody,
    run_cons_of_step (step_advance_set (hend _ _)), run_cons_of_step (step_advance_set (hmetaCreated _)),
    @run_writeEvents cfg side url value _ _ _ _ (fun count => .writeMeta _ (cfg.codec.toVec (metaOf cfg value now)) count)
      (cfg.metaPath url) (cfg.codec.toVec (metaOf cfg value now)) _ (hmetaWritten _),
    run_cons_of_step (step_advance_set (hmetaEnd _ _ _))]
  rfl

theorem set_run {s : DiskState} (hfree : s.holder side = none) (hbytes : 0 < value.bytes.length)
    (hmeta : 0 < (cfg.codec.toVec (metaOf cfg value now)).length) :
    run (DiskState.step cfg) s (setEvents side url value now (cfg.codec.toVec (metaOf cfg value now)).length) =
      some (atCall s.holder ((url, value) :: s.begun) ((url, value) :: s.stored) side (afterSet cfg s.dir url value now)
        (.set url value .readDir)) := by
  have hstore := @store_run cfg side url value now s hfree
  rw [storeEvents, writeEvents, if_neg hbytes.ne', writeEvents, if_neg hmeta.ne'] at hstore
  exact hstore

/-! ## `get` -/

/-- What can be read has a name. -/
theorem names_of_read {path : String} {bytes : List UInt8} (h : dir.read path = some bytes) :
    (dir.names path).isSome := by
  obtain ⟨file, hname, -⟩ := Option.map_eq_some_iff.mp h
  rw [hname]
  rfl

def getEvents (side : Side) (url : String) (now : UInt64) : List DiskEvent :=
  [.get side url, .advance side now, .advance side now, .advance side now, .advance side now]

theorem step_get {s : DiskState} (hfree : s.holder side = none) : s.step cfg (.get side url) =
    some (atCall s.holder s.begun s.stored side s.dir (.get url .metaExists)) := by
  rw [step, if_pos hfree]
  rfl

/-- `get` goes on to the metadata where both files are there. -/
theorem exists_run {s : DiskState} (hfree : s.holder side = none) (hmeta : (s.dir.names (cfg.metaPath url)).isSome)
    (hbody : (s.dir.names (cfg.bodyPath url)).isSome) (events : List DiskEvent) :
    run (DiskState.step cfg) s (.get side url :: .advance side now :: .advance side now :: events) =
      run (DiskState.step cfg) (atCall s.holder s.begun s.stored side s.dir (.get url .readMeta)) events := by
  have hmetaExists : advanceGet cfg s.dir url now .metaExists = some (s.dir, .bodyExists) := by
    rw [advanceGet, if_pos hmeta]
  have hbodyExists : advanceGet cfg s.dir url now .bodyExists = some (s.dir, .readMeta) := by
    rw [advanceGet, if_pos hbody]
  rw [run_cons_of_step (step_get hfree), run_cons_of_step (step_advance_get hmetaExists),
    run_cons_of_step (step_advance_get hbodyExists)]

/-- **`get`, with nothing in between, where both files are there and have not expired.** -/
theorem get_run {s : DiskState} {metaBytes bytes : List UInt8} {info : DiskMeta} (hfree : s.holder side = none)
    (hmeta : s.dir.read (cfg.metaPath url) = some metaBytes) (hinfo : cfg.codec.fromSlice metaBytes = .ok info)
    (hbody : s.dir.read (cfg.bodyPath url) = some bytes) (hfresh : ¬ now > info.expiresAtUnixMs) :
    run (DiskState.step cfg) s (getEvents side url now) =
      some (atCall s.holder s.begun s.stored side s.dir (.get url (.returned (.ok (some ⟨info.mimeType, bytes⟩))))) := by
  have hreadMeta : advanceGet cfg s.dir url now .readMeta = some (s.dir, .readBody info) := by
    rw [advanceGet, hmeta, Option.map_some, hinfo]
    dsimp only
    rw [if_neg hfresh]
  have hreadBody : advanceGet cfg s.dir url now (.readBody info) =
      some (s.dir, .returned (.ok (some ⟨info.mimeType, bytes⟩))) := by
    rw [advanceGet, hbody, Option.map_some]
  rw [getEvents, exists_run hfree (names_of_read hmeta) (names_of_read hbody),
    run_cons_of_step (step_advance_get hreadMeta), run_cons_of_step (step_advance_get hreadBody)]
  rfl

/-- **`get`, where there are no metadata.** -/
theorem miss_run {s : DiskState} (hfree : s.holder side = none) (hmeta : s.dir.names (cfg.metaPath url) = none) :
    run (DiskState.step cfg) s [.get side url, .advance side now] =
      some (atCall s.holder s.begun s.stored side s.dir (.get url (.returned (.ok none)))) := by
  have hmetaExists : advanceGet cfg s.dir url now .metaExists = some (s.dir, .returned (.ok none)) := by
    rw [advanceGet, hmeta]
    rfl
  rw [run_cons_of_step (step_get hfree), run_cons_of_step (step_advance_get hmetaExists)]
  rfl

/-- **`get`, where the metadata are none.** -/
theorem broken_run {s : DiskState} {bytes : List UInt8} {text : String} (hfree : s.holder side = none)
    (hmeta : s.dir.read (cfg.metaPath url) = some bytes) (hbody : (s.dir.names (cfg.bodyPath url)).isSome)
    (hinfo : cfg.codec.fromSlice bytes = .error text) :
    run (DiskState.step cfg) s [.get side url, .advance side now, .advance side now, .advance side now] =
      some (atCall s.holder s.begun s.stored side s.dir (.get url (.returned (.error text)))) := by
  have hreadMeta : advanceGet cfg s.dir url now .readMeta = some (s.dir, .returned (.error text)) := by
    rw [advanceGet, hmeta, Option.map_some, hinfo]
  rw [exists_run hfree (names_of_read hmeta) hbody, run_cons_of_step (step_advance_get hreadMeta)]
  rfl

end DiskState

end GeminiWorker
