import GeminiWorker.Spec.BlobSteps

/-!
# What a step of a blob runtime does

* `BlobProcess.Takes`: the steps by what they change, with what they need.
* `BlobProcess.step_takes`: every step is one of them.
* `BlobWorld.step_processes`: a step of the world is a step of one process.
-/

namespace GeminiWorker

/-- An operation goes from one place to the next and changes nothing else. -/
inductive BlobCall.Moves (process : BlobProcess) (disk : Disk) : BlobCall → BlobCall → Prop
  | buffers (args : StoreArgs) (buffer buffer' : List UInt8) :
      Moves process disk (.streaming args buffer) (.streaming args buffer')
  | overflows (args : StoreArgs) (buffer pending : List UInt8) :
      Moves process disk (.streaming args buffer) (.creating args pending true)
  | readsOn (args : StoreArgs) (file : ℕ) (written chunk : List UInt8) :
      Moves process disk (.writing args file written [] true) (.writing args file written chunk true)
  | endsStream (args : StoreArgs) (buffer : List UInt8) :
      Moves process disk (.streaming args buffer) (.reserving args buffer)
  | losesSpill (args : StoreArgs) (file : ℕ) (written : List UInt8) (stream : Bool) :
      Moves process disk (.writing args file written [] stream) .ended
  | refused (args : StoreArgs) (bytes : List UInt8) :
      Moves process disk (.reserving args bytes) (.creating args bytes false)
  | loads (args : StoreArgs) (bytes : List UInt8)
      (inline_le : bytes.length ≤ process.cfg.inlineMaxBytes)
      (request_le : bytes.length ≤ process.cfg.requestHotBudgetBytes)
      (lt_word : process.globalHotBytes + bytes.length < 2 ^ 64)
      (global_le : process.globalHotBytes + bytes.length ≤ process.cfg.globalHotBudgetBytes) :
      Moves process disk (.reserving args bytes) (.exchanging args bytes process.globalHotBytes)
  | retries (args : StoreArgs) (bytes : List UInt8) (current : ℕ) :
      Moves process disk (.exchanging args bytes current) (.reserving args bytes)
  | readsFile (blob file : ℕ) (bytes : List UInt8) (count : ℕ) :
      Moves process disk (.reading blob file bytes)
        (.reading blob file (bytes ++ ((disk.contents file).drop bytes.length).take count))
  | returns (blob file : ℕ) (bytes : List UInt8) (atEnd : (disk.contents file).drop bytes.length = []) :
      Moves process disk (.reading blob file bytes) (.returned blob bytes)
  | abortsStream (args : StoreArgs) (buffer : List UInt8) :
      Moves process disk (.streaming args buffer) .ended
  | abortsCreate (args : StoreArgs) (pending : List UInt8) (stream : Bool) :
      Moves process disk (.creating args pending stream) .ended
  | abortsWrite (args : StoreArgs) (file : ℕ) (written pending : List UInt8) (stream : Bool) :
      Moves process disk (.writing args file written pending stream) .ended
  | abortsDelete (path : String) : Moves process disk (.deleting path) .ended
  | abortsRead (blob file : ℕ) (bytes : List UInt8) : Moves process disk (.reading blob file bytes) .ended

/-- An operation that begins. -/
inductive BlobCall.Begins (process : BlobProcess) (disk : Disk) : BlobCall → Prop
  | reserving (args : StoreArgs) (bytes : List UInt8) : Begins process disk (.reserving args bytes)
  | streaming (args : StoreArgs) : Begins process disk (.streaming args [])
  | reading (blob : ℕ) (stored : StoredBlob) (path : String) (file : ℕ)
      (at_blob : process.blobs[blob]? = some stored) (storage : stored.handle.storage = .spilled path)
      (name : disk.names path = some file) : Begins process disk (.reading blob file [])
  | returned (blob : ℕ) (stored : StoredBlob) (bytes : List UInt8)
      (at_blob : process.blobs[blob]? = some stored)
      (storage : stored.handle.storage = .inline bytes ∨ stored.handle.storage = .shared bytes) :
      Begins process disk (.returned blob bytes)
  | ended : Begins process disk .ended

namespace BlobProcess

/-- The steps of a runtime by what they change. -/
inductive Takes (disk : Disk) (process : BlobProcess) : BlobEvent → Disk → BlobProcess → Prop
  | begins {event : BlobEvent} {call : BlobCall} (nextId : ℕ) (begins : call.Begins process disk) :
      Takes disk process event disk ({ process with nextId }.begin call)
  | moves {event : BlobEvent} {call : ℕ} {old new : BlobCall} (at_call : process.calls[call]? = some old)
      (moves : old.Moves process disk new) : Takes disk process event disk (process.goOn call new)
  | storesShared {event : BlobEvent} (args : StoreArgs) (bytes : List UInt8) :
      Takes disk process event disk
        (process.takeId.buildHandle args bytes.length (.shared bytes) bytes)
  | reserves {call : ℕ} {args : StoreArgs} {bytes : List UInt8}
      (at_call : process.calls[call]? = some (.exchanging args bytes process.globalHotBytes)) :
      Takes disk process (.compareExchange call) disk
        ({ process with globalHotBytes := process.globalHotBytes + bytes.length }.goOn call
          (.reserved args bytes))
  | builds {call : ℕ} {args : StoreArgs} {bytes : List UInt8}
      (at_call : process.calls[call]? = some (.reserved args bytes)) :
      Takes disk process (.build call) disk
        ((process.buildHandle args bytes.length (.inline bytes) bytes).goOn call .ended)
  | creates {call : ℕ} {args : StoreArgs} {pending : List UInt8} {stream : Bool}
      (at_call : process.calls[call]? = some (.creating args pending stream)) :
      Takes disk process (.create call) (disk.create (process.cfg.spillPath args.id))
        (process.goOn call
          (.writing args (disk.createdFile (process.cfg.spillPath args.id)) [] pending stream))
  | writes {call count : ℕ} {args : StoreArgs} {file : ℕ} {written pending : List UInt8} {stream : Bool}
      (at_call : process.calls[call]? = some (.writing args file written pending stream)) :
      Takes disk process (.write call count) (disk.writeAt file written.length (pending.take count))
        (process.goOn call
          (.writing args file (written ++ pending.take count) (pending.drop count) stream))
  | finishes {event : BlobEvent} {call : ℕ} {args : StoreArgs} {file : ℕ} {written : List UInt8}
      {stream : Bool} (sizeBytes : ℕ)
      (at_call : process.calls[call]? = some (.writing args file written [] stream)) :
      Takes disk process event disk
        (((process.recordSpill sizeBytes).buildHandle args sizeBytes
          (.spilled (process.cfg.spillPath args.id)) written).goOn call .ended)
  | removesAgain {blob : ℕ} : Takes disk process (.remove blob) disk process
  | removesInline {blob : ℕ} {stored : StoredBlob} {bytes : List UInt8}
      (at_blob : process.blobs[blob]? = some stored) (live : stored.removed = false)
      (storage : stored.handle.storage = .inline bytes) :
      Takes disk process (.remove blob) disk
        ((process.setRemoved blob stored).begin (.releasing bytes.length))
  | removesShared {blob : ℕ} {stored : StoredBlob} {bytes : List UInt8}
      (at_blob : process.blobs[blob]? = some stored) (live : stored.removed = false)
      (storage : stored.handle.storage = .shared bytes) :
      Takes disk process (.remove blob) disk (process.setRemoved blob stored)
  | removesSpilled {blob : ℕ} {stored : StoredBlob} {path : String}
      (at_blob : process.blobs[blob]? = some stored) (live : stored.removed = false)
      (storage : stored.handle.storage = .spilled path) :
      Takes disk process (.remove blob) disk ((process.setRemoved blob stored).begin (.deleting path))
  | releases {call sizeBytes : ℕ} (at_call : process.calls[call]? = some (.releasing sizeBytes)) :
      Takes disk process (.release call) disk ((process.releaseInlineBytes sizeBytes).goOn call .ended)
  | deletes {call : ℕ} {path : String} (at_call : process.calls[call]? = some (.deleting path)) :
      Takes disk process (.deleteFile call) (disk.unlink path) (process.goOn call .ended)

variable {disk disk' : Disk} {process process' : BlobProcess} {event : BlobEvent}

theorem loadHotBytes_takes {call : ℕ} {args : StoreArgs} {bytes : List UInt8}
    (hcall : process.calls[call]? = some (.reserving args bytes)) :
    Takes disk process event disk (process.loadHotBytes call args bytes) := by
  unfold loadHotBytes
  dsimp only
  split
  · exact .moves hcall (.refused args bytes)
  · rename_i hlimits
    simp only [Bool.or_eq_true, decide_eq_true_eq, not_or, gt_iff_lt, Nat.not_lt] at hlimits
    split
    · exact .moves hcall (.refused args bytes)
    · split
      · exact .moves hcall (.refused args bytes)
      · exact .moves hcall (.loads args bytes hlimits.1 hlimits.2 (by omega) (by omega))

theorem remove_takes {blob : ℕ} {stored : StoredBlob} (hblob : process.blobs[blob]? = some stored) :
    Takes disk process (.remove blob) disk (process.remove blob stored) := by
  unfold remove
  split
  · exact .removesAgain
  · rename_i hlive
    rw [Bool.not_eq_true] at hlive
    split
    · rename_i hstorage
      exact .removesInline hblob hlive hstorage
    · rename_i hstorage
      exact .removesShared hblob hlive hstorage
    · rename_i hstorage
      exact .removesSpilled hblob hlive hstorage

/-- Every step is one of those that `Takes` names. -/
theorem step_takes (h : process.step disk event = some (disk', process')) :
    Takes disk process event disk' process' := by
  cases event with
  | storeBytes request bytes mimeType | storeSharedBytes request bytes mimeType =>
    obtain ⟨rfl, rfl⟩ := Prod.mk.inj (Option.some.inj h)
    exact .begins _ (.reserving _ bytes)
  | storeExternalSharedBytes request bytes mimeType =>
    obtain ⟨rfl, rfl⟩ := Prod.mk.inj (Option.some.inj h)
    exact .storesShared _ bytes
  | storeStream request mimeType =>
    obtain ⟨rfl, rfl⟩ := Prod.mk.inj (Option.some.inj h)
    exact .begins _ (.streaming _)
  | read call chunk =>
    simp only [step] at h
    split at h
    · cases h
    · split at h
      · rename_i args buffer hcall
        split at h <;> obtain ⟨rfl, rfl⟩ := Prod.mk.inj (Option.some.inj h)
        · exact .moves hcall (.buffers ..)
        · exact .moves hcall (.overflows ..)
      · rename_i args file written hcall
        obtain ⟨rfl, rfl⟩ := Prod.mk.inj (Option.some.inj h)
        exact .moves hcall (.readsOn ..)
      · cases h
  | endOfStream call =>
    simp only [step] at h
    split at h
    · rename_i args buffer hcall
      obtain ⟨rfl, rfl⟩ := Prod.mk.inj (Option.some.inj h)
      exact .moves hcall (.endsStream ..)
    · rename_i args file written hcall
      split at h <;> obtain ⟨rfl, rfl⟩ := Prod.mk.inj (Option.some.inj h)
      · exact .finishes _ hcall
      · exact .moves hcall (.losesSpill ..)
    · cases h
  | load call =>
    simp only [step] at h
    split at h
    · rename_i args bytes hcall
      obtain ⟨rfl, rfl⟩ := Prod.mk.inj (Option.some.inj h)
      exact loadHotBytes_takes hcall
    · cases h
  | compareExchange call =>
    simp only [step] at h
    split at h
    · rename_i args bytes current hcall
      obtain ⟨rfl, rfl⟩ := Prod.mk.inj (Option.some.inj h)
      unfold compareExchange
      split
      · rename_i hcurrent
        subst hcurrent
        exact .reserves hcall
      · exact .moves hcall (.retries ..)
    · cases h
  | build call =>
    simp only [step] at h
    split at h
    · rename_i args bytes hcall
      obtain ⟨rfl, rfl⟩ := Prod.mk.inj (Option.some.inj h)
      exact .builds hcall
    · cases h
  | create call =>
    simp only [step] at h
    split at h
    · rename_i args pending stream hcall
      obtain ⟨rfl, rfl⟩ := Prod.mk.inj (Option.some.inj h)
      exact .creates hcall
    · cases h
  | write call count =>
    simp only [step] at h
    split at h
    · rename_i args file written pending stream hcall
      obtain ⟨rfl, rfl⟩ := Prod.mk.inj (Option.some.inj h)
      exact .writes hcall
    · cases h
  | finishSpill call =>
    simp only [step] at h
    split at h
    · rename_i args file written hcall
      obtain ⟨rfl, rfl⟩ := Prod.mk.inj (Option.some.inj h)
      exact .finishes _ hcall
    · cases h
  | remove blob =>
    obtain ⟨stored, hblob, hremove⟩ := Option.map_eq_some_iff.mp h
    obtain ⟨rfl, rfl⟩ := Prod.mk.inj hremove
    exact remove_takes hblob
  | release call =>
    simp only [step] at h
    split at h
    · rename_i sizeBytes hcall
      obtain ⟨rfl, rfl⟩ := Prod.mk.inj (Option.some.inj h)
      exact .releases hcall
    · cases h
  | deleteFile call =>
    simp only [step] at h
    split at h
    · rename_i path hcall
      obtain ⟨rfl, rfl⟩ := Prod.mk.inj (Option.some.inj h)
      exact .deletes hcall
    · cases h
  | readBytes blob =>
    simp only [step] at h
    split at h
    · rename_i stored hblob
      split at h
      · rename_i bytes hstorage
        obtain ⟨rfl, rfl⟩ := Prod.mk.inj (Option.some.inj h)
        exact .begins process.nextId (.returned blob stored bytes hblob (Or.inl hstorage))
      · rename_i bytes hstorage
        obtain ⟨rfl, rfl⟩ := Prod.mk.inj (Option.some.inj h)
        exact .begins process.nextId (.returned blob stored bytes hblob (Or.inr hstorage))
      · rename_i path hstorage
        split at h <;> obtain ⟨rfl, rfl⟩ := Prod.mk.inj (Option.some.inj h)
        · rename_i file hname
          exact .begins process.nextId (.reading blob stored path file hblob hstorage hname)
        · exact .begins process.nextId .ended
    · cases h
  | readFile call count =>
    simp only [step] at h
    split at h
    · rename_i blob file bytes hcall
      split at h <;> obtain ⟨rfl, rfl⟩ := Prod.mk.inj (Option.some.inj h)
      · rename_i hend
        exact .moves hcall (.returns blob file bytes hend)
      · exact .moves hcall (.readsFile blob file bytes count)
    · cases h
  | abort call =>
    simp only [step] at h
    split at h
    · rename_i hcall
      obtain ⟨rfl, rfl⟩ := Prod.mk.inj (Option.some.inj h)
      exact .moves hcall (.abortsStream ..)
    · rename_i hcall
      obtain ⟨rfl, rfl⟩ := Prod.mk.inj (Option.some.inj h)
      exact .moves hcall (.abortsCreate ..)
    · rename_i hcall
      obtain ⟨rfl, rfl⟩ := Prod.mk.inj (Option.some.inj h)
      exact .moves hcall (.abortsWrite ..)
    · rename_i hcall
      obtain ⟨rfl, rfl⟩ := Prod.mk.inj (Option.some.inj h)
      exact .moves hcall (.abortsDelete ..)
    · rename_i hcall
      obtain ⟨rfl, rfl⟩ := Prod.mk.inj (Option.some.inj h)
      exact .moves hcall (.abortsRead ..)
    · cases h

/-- No step changes the configuration. -/
theorem Takes.cfg_eq (h : Takes disk process event disk' process') : process'.cfg = process.cfg := by
  cases h <;> rfl

end BlobProcess

/-- A step of the world is a step of one process. -/
theorem BlobWorld.step_takes {world world' : BlobWorld} {event : ℕ × BlobEvent}
    (h : world.step event = some world') : ∃ process process',
      world.processes[event.1]? = some process ∧
      process.Takes world.disk event.2 world'.disk process' ∧
      world'.processes = world.processes.set event.1 process' := by
  obtain ⟨process, hprocess, hstep⟩ := Option.bind_eq_some_iff.mp h
  obtain ⟨⟨disk', process'⟩, htakes, rfl⟩ := Option.map_eq_some_iff.mp hstep
  exact ⟨process, process', hprocess, BlobProcess.step_takes htakes, rfl⟩

end GeminiWorker
