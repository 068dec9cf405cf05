import GeminiWorker.Proof.BlobSteps

/-!
# Spill files of several runtimes

The name of a spill file is made of a directory and a number that each runtime counts for
itself, so two runtimes over one directory may choose the same file.

* `BlobWorld.files`: the spill files in use, with what they are to hold.
* `BlobWorld.SparesFiles`: a step does not open or delete a file that a blob is using.
* `BlobWorld.Intact`: every file in use has a user of its own and holds its bytes.
* `readsBack_of_sparesFiles`: in a run of such steps every blob reads back.
-/

namespace GeminiWorker

open Transition (Reach Any filterMap_set_perm perm_cons_eraseIdx set_perm_cons)

/-- The spill file of a blob that is not removed, and the bytes stored for it. -/
def StoredBlob.spillFile (stored : StoredBlob) : Option (String × List UInt8) :=
  if stored.removed then none
  else match stored.handle.storage with
    | .spilled path => some (path, stored.content)
    | _ => none

/-- The spill file that a store is writing, and the bytes that it has written. -/
def BlobCall.spillFile (cfg : BlobRuntimeConfig) : BlobCall → Option (String × List UInt8)
  | .writing args _ written _ _ => some (cfg.spillPath args.id, written)
  | _ => none

def BlobProcess.files (process : BlobProcess) : List (String × List UInt8) :=
  process.blobs.filterMap StoredBlob.spillFile ++ process.calls.filterMap (BlobCall.spillFile process.cfg)

/-- The file that a step opens for a new blob, or deletes. -/
def BlobProcess.touchedPath (process : BlobProcess) : BlobEvent → Option String
  | .create call =>
    match process.calls[call]? with
    | some (.creating args _ _) => some (process.cfg.spillPath args.id)
    | _ => none
  | .deleteFile call =>
    match process.calls[call]? with
    | some (.deleting path) => some path
    | _ => none
  | _ => none

namespace BlobWorld

/-- The spill files in use. -/
def files (world : BlobWorld) : List (String × List UInt8) := world.processes.flatMap BlobProcess.files

/-- The step does not open or delete a file that a blob is using: one that is being written,
or is stored and not removed. -/
def SparesFiles (world : BlobWorld) (event : ℕ × BlobEvent) : Prop :=
  ∀ process path, world.processes[event.1]? = some process → process.touchedPath event.2 = some path →
    path ∉ world.files.map Prod.fst

instance (world : BlobWorld) (event : ℕ × BlobEvent) : Decidable (world.SparesFiles event) :=
  decidable_of_iff (∀ process ∈ world.processes[event.1]?.toList,
      ∀ path ∈ (process.touchedPath event.2).toList, path ∉ world.files.map Prod.fst)
    ⟨fun h process path hprocess hpath => h process (by rw [hprocess]; exact List.mem_singleton_self _) path
        (by rw [hpath]; exact List.mem_singleton_self _),
      fun h process hprocess path hpath =>
        h process path (Option.mem_toList.mp hprocess) (Option.mem_toList.mp hpath)⟩

/-- Every blob that is not removed reads back, at once and by every read that has returned. -/
def ReadsBack (world : BlobWorld) : Prop :=
  ∀ process ∈ world.processes, ∀ blob stored, process.blobs[blob]? = some stored →
    stored.removed = false →
      BlobProcess.readBytes world.disk stored.handle = some stored.content ∧
        ∀ bytes, .returned blob bytes ∈ process.calls → bytes = stored.content

end BlobWorld

namespace BlobProcess

/-- What the operations of a process know of the files that they have opened. -/
structure Opened (disk : Disk) (process : BlobProcess) : Prop where
  writing : ∀ args file written pending stream,
    .writing args file written pending stream ∈ process.calls →
      disk.names (process.cfg.spillPath args.id) = some file
  reading : ∀ blob file bytes, .reading blob file bytes ∈ process.calls →
    ∃ stored, process.blobs[blob]? = some stored ∧ (stored.removed = false →
      ∃ path, stored.handle.storage = .spilled path ∧ disk.names path = some file ∧
        bytes <+: stored.content)
  returned : ∀ blob bytes, .returned blob bytes ∈ process.calls →
    ∃ stored, process.blobs[blob]? = some stored ∧ (stored.removed = false → bytes = stored.content)
  held : ∀ stored ∈ process.blobs, ∀ bytes,
    stored.handle.storage = .inline bytes ∨ stored.handle.storage = .shared bytes → stored.content = bytes

variable {disk disk' : Disk} {process process' : BlobProcess} {event : BlobEvent}

theorem opened_new (disk : Disk) (cfg : BlobRuntimeConfig) : (new cfg).Opened disk where
  writing _ _ _ _ _ h := by cases h
  reading _ _ _ h := by cases h
  returned _ _ h := by cases h
  held _ h := by cases h

theorem mem_files_of_stored {stored : StoredBlob} {path : String} (hmem : stored ∈ process.blobs)
    (hlive : stored.removed = false) (hstorage : stored.handle.storage = .spilled path) :
    (path, stored.content) ∈ process.files := by
  refine List.mem_append_left _ (List.mem_filterMap.mpr ⟨stored, hmem, ?_⟩)
  simp only [StoredBlob.spillFile, hlive, Bool.false_eq_true, if_false, hstorage]

theorem mem_files_of_writing {args : StoreArgs} {file : ℕ} {written pending : List UInt8} {stream : Bool}
    (hmem : .writing args file written pending stream ∈ process.calls) :
    (process.cfg.spillPath args.id, written) ∈ process.files :=
  List.mem_append_right _ (List.mem_filterMap.mpr ⟨_, hmem, rfl⟩)

/-- The operations stay as they are where the names of the files in use do. -/
theorem Opened.frame (hopened : process.Opened disk)
    (hnames : ∀ path ∈ process.files.map Prod.fst, disk'.names path = disk.names path) :
    process.Opened disk' where
  writing args file written pending stream h := by
    rw [hnames _ (List.mem_map_of_mem (mem_files_of_writing h))]
    exact hopened.writing _ _ _ _ _ h
  reading blob file bytes h := by
    obtain ⟨stored, hstored, hlive⟩ := hopened.reading blob file bytes h
    refine ⟨stored, hstored, fun hremoved => ?_⟩
    obtain ⟨path, hstorage, hname, hprefix⟩ := hlive hremoved
    refine ⟨path, hstorage, ?_, hprefix⟩
    rw [hnames _ (List.mem_map_of_mem (mem_files_of_stored (List.mem_of_getElem? hstored) hremoved hstorage))]
    exact hname
  returned := hopened.returned
  held := hopened.held

/-- An operation goes on as one that knows of its file. -/
theorem Opened.goOn (hopened : process.Opened disk) (call : ℕ) {next : BlobCall}
    (hnext : ({ process with calls := [next] } : BlobProcess).Opened disk) :
    (process.goOn call next).Opened disk where
  writing args file written pending stream h := by
    rcases List.mem_or_eq_of_mem_set h with h | rfl
    · exact hopened.writing _ _ _ _ _ h
    · exact hnext.writing _ _ _ _ _ List.mem_cons_self
  reading blob file bytes h := by
    rcases List.mem_or_eq_of_mem_set h with h | rfl
    · exact hopened.reading _ _ _ h
    · exact hnext.reading _ _ _ List.mem_cons_self
  returned blob bytes h := by
    rcases List.mem_or_eq_of_mem_set h with h | rfl
    · exact hopened.returned _ _ h
    · exact hnext.returned _ _ List.mem_cons_self
  held := hopened.held

theorem Opened.begin (hopened : process.Opened disk) {call : BlobCall}
    (hcall : ({ process with calls := [call] } : BlobProcess).Opened disk) :
    (process.begin call).Opened disk where
  writing args file written pending stream h := by
    rcases List.mem_append.mp h with h | h
    · exact hopened.writing _ _ _ _ _ h
    · exact hcall.writing _ _ _ _ _ h
  reading blob file bytes h := by
    rcases List.mem_append.mp h with h | h
    · exact hopened.reading _ _ _ h
    · exact hcall.reading _ _ _ h
  returned blob bytes h := by
    rcases List.mem_append.mp h with h | h
    · exact hopened.returned _ _ h
    · exact hcall.returned _ _ h
  held := hopened.held

/-- An operation that has opened no file. -/
theorem opened_single {call : BlobCall} (hopened : process.Opened disk)
    (hwriting : ∀ args file written pending stream, call ≠ .writing args file written pending stream)
    (hreading : ∀ blob file bytes, call ≠ .reading blob file bytes)
    (hreturned : ∀ blob bytes, call ≠ .returned blob bytes) :
    ({ process with calls := [call] } : BlobProcess).Opened disk where
  writing args file written pending stream h :=
    absurd (List.mem_singleton.mp h).symm (hwriting args file written pending stream)
  reading blob file bytes h := absurd (List.mem_singleton.mp h).symm (hreading blob file bytes)
  returned blob bytes h := absurd (List.mem_singleton.mp h).symm (hreturned blob bytes)
  held := hopened.held

theorem opened_ended (hopened : process.Opened disk) :
    ({ process with calls := [.ended] } : BlobProcess).Opened disk :=
  opened_single hopened (fun _ _ _ _ _ h => by cases h) (fun _ _ _ h => by cases h) fun _ _ h => by cases h

theorem getElem?_append_of_some {α : Type} {l : List α} {i : ℕ} {x : α} (h : l[i]? = some x) (l' : List α) :
    (l ++ l')[i]? = some x := by
  rw [List.getElem?_append_left (List.getElem?_eq_some_iff.mp h).1, h]

theorem Opened.buildHandle (hopened : process.Opened disk) {args : StoreArgs} {sizeBytes : ℕ}
    {storage : BlobStorage} {content : List UInt8}
    (hstorage : ∀ bytes, storage = .inline bytes ∨ storage = .shared bytes → content = bytes) :
    (process.buildHandle args sizeBytes storage content).Opened disk where
  writing := hopened.writing
  reading blob file bytes h := by
    obtain ⟨stored, hstored, hlive⟩ := hopened.reading blob file bytes h
    exact ⟨stored, getElem?_append_of_some hstored _, hlive⟩
  returned blob bytes h := by
    obtain ⟨stored, hstored, hlive⟩ := hopened.returned blob bytes h
    exact ⟨stored, getElem?_append_of_some hstored _, hlive⟩
  held stored h bytes hbytes := by
    rcases List.mem_append.mp h with h | h
    · exact hopened.held stored h bytes hbytes
    · rw [List.mem_singleton.mp h] at hbytes ⊢
      exact hstorage bytes hbytes

/-- A blob after the flag of another one, or its own, is set. -/
theorem setRemoved_getElem {blob : ℕ} {stored : StoredBlob} (hblob : process.blobs[blob]? = some stored)
    {other : ℕ} {old : StoredBlob} (hold : process.blobs[other]? = some old) :
    ∃ new, (process.setRemoved blob stored).blobs[other]? = some new ∧
      (new.removed = false → new = old) := by
  by_cases hother : blob = other
  · subst hother
    have hlt := (List.getElem?_eq_some_iff.mp hblob).1
    refine ⟨{ stored with removed := true }, ?_, fun h => by cases h⟩
    rw [setRemoved, List.getElem?_set_self hlt]
  · refine ⟨old, ?_, fun _ => rfl⟩
    rw [setRemoved, List.getElem?_set_ne hother, hold]

theorem Opened.setRemoved (hopened : process.Opened disk) {blob : ℕ} {stored : StoredBlob}
    (hblob : process.blobs[blob]? = some stored) : (process.setRemoved blob stored).Opened disk where
  writing := hopened.writing
  reading other file bytes h := by
    obtain ⟨old, hold, hlive⟩ := hopened.reading other file bytes h
    obtain ⟨new, hnew, hsame⟩ := setRemoved_getElem hblob hold
    refine ⟨new, hnew, fun hremoved => ?_⟩
    obtain rfl := hsame hremoved
    exact hlive hremoved
  returned other bytes h := by
    obtain ⟨old, hold, hlive⟩ := hopened.returned other bytes h
    obtain ⟨new, hnew, hsame⟩ := setRemoved_getElem hblob hold
    refine ⟨new, hnew, fun hremoved => ?_⟩
    obtain rfl := hsame hremoved
    exact hlive hremoved
  held other h bytes hbytes := by
    rcases List.mem_or_eq_of_mem_set h with h | rfl
    · exact hopened.held other h bytes hbytes
    · exact hopened.held stored (List.mem_of_getElem? hblob) bytes hbytes

/-! ### The files of a process -/

theorem files_begin {call : BlobCall} (hcall : call.spillFile process.cfg = none) :
    (process.begin call).files = process.files := by
  simp only [files, begin, List.filterMap_append, List.filterMap_cons, hcall, List.filterMap_nil,
    List.append_nil]

theorem files_goOn {call : ℕ} {old : BlobCall} (hcall : process.calls[call]? = some old) :
    ∃ rest, process.files.Perm ((old.spillFile process.cfg).toList ++ rest) ∧
      ∀ next, (process.goOn call next).files.Perm ((next.spillFile process.cfg).toList ++ rest) := by
  obtain ⟨rest, hold, hnext⟩ := filterMap_set_perm (BlobCall.spillFile process.cfg) hcall
  have hswap : ∀ (f : List (String × List UInt8)),
      (process.blobs.filterMap StoredBlob.spillFile ++ (f ++ rest)).Perm
        (f ++ (process.blobs.filterMap StoredBlob.spillFile ++ rest)) := by
    intro f
    rw [← List.append_assoc, ← List.append_assoc]
    exact List.perm_append_comm.append_right rest
  refine ⟨process.blobs.filterMap StoredBlob.spillFile ++ rest, ?_, fun next => ?_⟩
  · exact (hold.append_left _).trans (hswap _)
  · exact ((hnext next).append_left _).trans (hswap _)

theorem files_buildHandle (args : StoreArgs) (sizeBytes : ℕ) (storage : BlobStorage)
    (content : List UInt8) : (process.buildHandle args sizeBytes storage content).files.Perm
      ((match storage with
        | .spilled path => [(path, content)]
        | _ => []) ++ process.files) := by
  have hnew : [(⟨⟨args.id, ⟨args.mimeType, sizeBytes⟩, storage⟩, content, args.request, false⟩ :
      StoredBlob)].filterMap StoredBlob.spillFile =
        match storage with
        | .spilled path => [(path, content)]
        | _ => [] := by
    rcases storage with _ | _ | _ <;> rfl
  rw [files, buildHandle, List.filterMap_append, hnew]
  exact (List.perm_append_comm.append_right _).trans (List.Perm.of_eq (List.append_assoc ..))

theorem files_setRemoved {blob : ℕ} {stored : StoredBlob} (hblob : process.blobs[blob]? = some stored) :
    (process.setRemoved blob stored).files.Subperm process.files := by
  obtain ⟨rest, hold, hnext⟩ := filterMap_set_perm StoredBlob.spillFile hblob
  have hflag : ({ stored with removed := true } : StoredBlob).spillFile = none := rfl
  have hnew := hnext { stored with removed := true }
  rw [hflag] at hnew
  have hsub : ((process.blobs.set blob { stored with removed := true }).filterMap
      StoredBlob.spillFile).Subperm (process.blobs.filterMap StoredBlob.spillFile) :=
    (hnew.subperm.trans (List.sublist_append_right _ rest).subperm).trans hold.symm.subperm
  exact (List.subperm_append_right _).mpr hsub

/-- What a step does to the files in use and the disk. -/
inductive FileStep (touched : Option String) (disk disk' : Disk)
    (files files' : List (String × List UInt8)) : Prop
  | keeps (same : disk' = disk) (sub : files'.Subperm files)
  | creates (path : String) (touches : touched = some path) (new : disk' = disk.create path)
      (perm : files'.Perm ((path, []) :: files))
  | writes (path : String) (file : ℕ) (written chunk : List UInt8) (rest : List (String × List UInt8))
      (name : disk.names path = some file) (new : disk' = disk.writeAt file written.length chunk)
      (perm : files.Perm ((path, written) :: rest)) (perm' : files'.Perm ((path, written ++ chunk) :: rest))
  | deletes (path : String) (touches : touched = some path) (new : disk' = disk.unlink path)
      (sub : files'.Subperm files)

theorem files_moves {call : ℕ} {old new : BlobCall} (hcall : process.calls[call]? = some old)
    (hmoves : old.Moves process disk new) : (process.goOn call new).files.Subperm process.files := by
  obtain ⟨rest, hold, hnext⟩ := files_goOn hcall
  have hfile : new.spillFile process.cfg = none ∨ new.spillFile process.cfg = old.spillFile process.cfg := by
    cases hmoves with
    | readsOn => exact Or.inr rfl
    | _ => exact Or.inl rfl
  rcases hfile with hfile | hfile
  · have hnew := hnext new
    rw [hfile] at hnew
    exact (hnew.subperm.trans (List.sublist_append_right _ rest).subperm).trans hold.symm.subperm
  · have hnew := hnext new
    rw [hfile] at hnew
    exact (hnew.trans hold.symm).subperm

/-- A call that gives up its file, or had none. -/
theorem files_ended {call : ℕ} {old : BlobCall} (hcall : process.calls[call]? = some old) :
    (process.goOn call .ended).files.Subperm process.files := by
  obtain ⟨rest, hold, hnext⟩ := files_goOn hcall
  have hnew : (process.goOn call .ended).files.Perm rest := hnext .ended
  exact (hnew.subperm.trans (List.sublist_append_right _ rest).subperm).trans hold.symm.subperm

theorem Takes.fileStep (h : Takes disk process event disk' process') (hopened : process.Opened disk) :
    FileStep (process.touchedPath event) disk disk' process.files process'.files := by
  cases h with
  | @begins _ call nextId hbegins =>
    have hcall : call.spillFile process.cfg = none := by cases hbegins <;> rfl
    refine .keeps rfl ?_
    rw [@files_begin { process with nextId } call hcall]
    exact (List.Perm.refl _).subperm
  | moves hcall hmoves => exact .keeps rfl (files_moves hcall hmoves)
  | storesShared args bytes =>
    exact .keeps rfl (@files_buildHandle process.takeId args bytes.length (.shared bytes) bytes).subperm
  | @reserves call args bytes hcall =>
    obtain ⟨rest, hold, hnext⟩ := @files_goOn { process with
      globalHotBytes := process.globalHotBytes + bytes.length } call _ hcall
    exact .keeps rfl ((hnext (.reserved args bytes)).trans hold.symm).subperm
  | @builds call args bytes hcall =>
    have hbuilt := @files_buildHandle process args bytes.length (.inline bytes) bytes
    have hended := @files_ended (process.buildHandle args bytes.length (.inline bytes) bytes) call _ hcall
    exact .keeps rfl (hended.trans hbuilt.subperm)
  | @creates call args pending stream hcall =>
    obtain ⟨rest, hold, hnext⟩ := files_goOn hcall
    have hfiles : process.files.Perm rest := hold
    have htouched : process.touchedPath (.create call) = some (process.cfg.spillPath args.id) := by
      simp only [touchedPath, hcall]
    exact .creates _ htouched rfl ((hnext _).trans (hfiles.symm.cons _))
  | @writes call count args file written pending stream hcall =>
    obtain ⟨rest, hold, hnext⟩ := files_goOn hcall
    exact .writes _ file written (pending.take count) rest
      (hopened.writing _ _ _ _ _ (List.mem_of_getElem? hcall)) rfl hold (hnext _)
  | @finishes _ call args file written stream sizeBytes hcall =>
    -- the file goes over from the store to the blob
    obtain ⟨rest, hold, hnext⟩ := @files_goOn ((process.recordSpill sizeBytes).buildHandle args sizeBytes
      (.spilled (process.cfg.spillPath args.id)) written) call _ hcall
    have hbuilt := @files_buildHandle (process.recordSpill sizeBytes) args sizeBytes
      (.spilled (process.cfg.spillPath args.id)) written
    have hrest : process.files.Perm rest := (hbuilt.symm.trans hold).cons_inv
    exact .keeps rfl ((hnext .ended).trans hrest.symm).subperm
  | removesAgain => exact .keeps rfl (List.Perm.refl _).subperm
  | @removesInline blob stored bytes hblob =>
    refine .keeps rfl ?_
    rw [@files_begin (process.setRemoved blob stored) (.releasing bytes.length) rfl]
    exact files_setRemoved hblob
  | removesShared hblob => exact .keeps rfl (files_setRemoved hblob)
  | @removesSpilled blob stored path hblob =>
    refine .keeps rfl ?_
    rw [@files_begin (process.setRemoved blob stored) (.deleting path) rfl]
    exact files_setRemoved hblob
  | @releases call sizeBytes hcall =>
    exact .keeps rfl (@files_ended (process.releaseInlineBytes sizeBytes) call _ hcall)
  | @deletes call path hcall =>
    have htouched : process.touchedPath (.deleteFile call) = some path := by
      simp only [touchedPath, hcall]
    exact .deletes path htouched rfl (files_ended hcall)

/-- A name that a step does not touch stays. -/
theorem FileStep.names_eq {touched : Option String} {files files' : List (String × List UInt8)}
    (h : FileStep touched disk disk' files files') {path : String} (hpath : touched ≠ some path) :
    disk'.names path = disk.names path := by
  cases h with
  | keeps same => rw [same]
  | creates path' touches new =>
    have hne : path ≠ path' := fun heq => hpath (heq ▸ touches)
    rw [new, Disk.names_create, if_neg hne]
  | writes path' file written chunk rest name new =>
    rw [new]
    rfl
  | deletes path' touches new =>
    have hne : path ≠ path' := fun heq => hpath (heq ▸ touches)
    rw [new, Disk.names_unlink, if_neg hne]

/-- The disk holds the files in use after a step, and those of the others. -/
theorem FileStep.holds {touched : Option String} {files files' others : List (String × List UInt8)}
    (h : FileStep touched disk disk' files files') (hheld : disk.Holds (files ++ others))
    (htouched : ∀ path, touched = some path → path ∉ (files ++ others).map Prod.fst) :
    disk'.Holds (files' ++ others) := by
  cases h with
  | keeps same sub =>
    rw [same]
    exact hheld.subperm ((List.subperm_append_right others).mpr sub)
  | creates path touches new perm =>
    rw [new]
    exact (hheld.create (htouched path touches)).perm (perm.append_right others)
  | writes path file written chunk rest name new perm perm' =>
    rw [new]
    have hfile : disk.Holds ((path, written) :: (rest ++ others)) :=
      hheld.perm (perm.append_right others).symm
    exact (hfile.write name chunk).perm (perm'.append_right others)
  | deletes path touches new sub =>
    rw [new]
    exact (hheld.unlink (htouched path touches)).subperm ((List.subperm_append_right others).mpr sub)

/-! ### The operations of a process -/

theorem contents_of_live {stored : StoredBlob} {path : String} {file : ℕ}
    (hheld : disk.Holds process.files) (hmem : stored ∈ process.blobs) (hlive : stored.removed = false)
    (hstorage : stored.handle.storage = .spilled path) (hname : disk.names path = some file) :
    disk.contents file = stored.content := by
  have hread := hheld.read _ (mem_files_of_stored hmem hlive hstorage)
  rw [Disk.read, hname, Option.map_some] at hread
  exact Option.some.inj hread

/-- More of what a prefix is a prefix of. -/
theorem prefix_append_take {bytes content : List UInt8} (h : bytes <+: content) (count : ℕ) :
    bytes ++ (content.drop bytes.length).take count <+: content := by
  obtain ⟨rest, rfl⟩ := h
  rw [List.drop_left]
  exact (List.prefix_append_right_inj bytes).mpr (List.take_prefix count rest)

theorem eq_of_prefix_of_drop {bytes content : List UInt8} (h : bytes <+: content)
    (hdrop : content.drop bytes.length = []) : bytes = content := by
  obtain ⟨rest, rfl⟩ := h
  rw [List.drop_left] at hdrop
  rw [hdrop, List.append_nil]

theorem opened_moves {old new : BlobCall} (hopened : process.Opened disk)
    (hheld : disk.Holds process.files) (hold : old ∈ process.calls) (hmoves : old.Moves process disk new) :
    ({ process with calls := [new] } : BlobProcess).Opened disk := by
  cases hmoves with
  | readsOn args file written chunk =>
    refine ⟨fun args' file' written' pending' stream' h => ?_, fun _ _ _ h => ?_, fun _ _ h => ?_, hopened.held⟩
    · obtain ⟨rfl, rfl, rfl, rfl, rfl⟩ := BlobCall.writing.inj (List.mem_singleton.mp h)
      exact hopened.writing _ _ _ _ _ hold
    · cases List.mem_singleton.mp h
    · cases List.mem_singleton.mp h
  | readsFile blob file bytes count =>
    refine ⟨fun _ _ _ _ _ h => ?_, fun blob' file' bytes' h => ?_, fun _ _ h => ?_, hopened.held⟩
    · cases List.mem_singleton.mp h
    · obtain ⟨rfl, rfl, rfl⟩ := BlobCall.reading.inj (List.mem_singleton.mp h)
      obtain ⟨stored, hstored, hlive⟩ := hopened.reading _ _ _ hold
      refine ⟨stored, hstored, fun hremoved => ?_⟩
      obtain ⟨path, hstorage, hname, hprefix⟩ := hlive hremoved
      refine ⟨path, hstorage, hname, ?_⟩
      rw [contents_of_live hheld (List.mem_of_getElem? hstored) hremoved hstorage hname]
      exact prefix_append_take hprefix count
    · cases List.mem_singleton.mp h
  | returns blob file bytes atEnd =>
    refine ⟨fun _ _ _ _ _ h => ?_, fun _ _ _ h => ?_, fun blob' bytes' h => ?_, hopened.held⟩
    · cases List.mem_singleton.mp h
    · cases List.mem_singleton.mp h
    · obtain ⟨rfl, rfl⟩ := BlobCall.returned.inj (List.mem_singleton.mp h)
      obtain ⟨stored, hstored, hlive⟩ := hopened.reading _ _ _ hold
      refine ⟨stored, hstored, fun hremoved => ?_⟩
      obtain ⟨path, hstorage, hname, hprefix⟩ := hlive hremoved
      rw [contents_of_live hheld (List.mem_of_getElem? hstored) hremoved hstorage hname] at atEnd
      exact eq_of_prefix_of_drop hprefix atEnd
  | _ =>
    exact opened_single hopened (fun _ _ _ _ _ h => by cases h) (fun _ _ _ h => by cases h)
      (fun _ _ h => by cases h)

theorem opened_begins {call : BlobCall} (hopened : process.Opened disk)
    (hbegins : call.Begins process disk) : ({ process with calls := [call] } : BlobProcess).Opened disk := by
  cases hbegins with
  | reading blob stored path file hblob hstorage hname =>
    refine ⟨fun _ _ _ _ _ h => ?_, fun blob' file' bytes' h => ?_, fun _ _ h => ?_, hopened.held⟩
    · cases List.mem_singleton.mp h
    · obtain ⟨rfl, rfl, rfl⟩ := BlobCall.reading.inj (List.mem_singleton.mp h)
      exact ⟨stored, hblob, fun _ => ⟨path, hstorage, hname, List.nil_prefix⟩⟩
    · cases List.mem_singleton.mp h
  | returned blob stored bytes hblob hstorage =>
    refine ⟨fun _ _ _ _ _ h => ?_, fun _ _ _ h => ?_, fun blob' bytes' h => ?_, hopened.held⟩
    · cases List.mem_singleton.mp h
    · cases List.mem_singleton.mp h
    · obtain ⟨rfl, rfl⟩ := BlobCall.returned.inj (List.mem_singleton.mp h)
      exact ⟨stored, hblob, fun _ => (hopened.held stored (List.mem_of_getElem? hblob) _ hstorage).symm⟩
  | _ =>
    exact opened_single hopened (fun _ _ _ _ _ h => by cases h) (fun _ _ _ h => by cases h)
      (fun _ _ h => by cases h)

/-- A step keeps what the operations of its process know. -/
theorem Takes.opened (h : Takes disk process event disk' process') (hopened : process.Opened disk)
    (hheld : disk.Holds process.files)
    (hnames : ∀ path ∈ process.files.map Prod.fst, disk'.names path = disk.names path) :
    process'.Opened disk' := by
  have hframe := hopened.frame hnames
  cases h with
  | @begins _ call nextId hbegins =>
    have hopened' : ({ process with nextId } : BlobProcess).Opened disk :=
      ⟨hopened.writing, hopened.reading, hopened.returned, hopened.held⟩
    have hsingle := opened_begins hopened hbegins
    exact hopened'.begin ⟨hsingle.writing, hsingle.reading, hsingle.returned, hsingle.held⟩
  | moves hcall hmoves =>
    exact hopened.goOn _ (opened_moves hopened hheld (List.mem_of_getElem? hcall) hmoves)
  | storesShared args bytes =>
    have hopened' : process.takeId.Opened disk :=
      ⟨hopened.writing, hopened.reading, hopened.returned, hopened.held⟩
    refine hopened'.buildHandle fun bytes' h => ?_
    rcases h with h | h
    · cases h
    · exact BlobStorage.shared.inj h
  | @reserves call args bytes hcall =>
    have hopened' : ({ process with globalHotBytes := process.globalHotBytes + bytes.length } :
        BlobProcess).Opened disk := ⟨hopened.writing, hopened.reading, hopened.returned, hopened.held⟩
    exact hopened'.goOn _ (opened_single hopened' (fun _ _ _ _ _ h => by cases h)
      (fun _ _ _ h => by cases h) fun _ _ h => by cases h)
  | @builds call args bytes hcall =>
    have hbuilt : (process.buildHandle args bytes.length (.inline bytes) bytes).Opened disk := by
      refine hopened.buildHandle fun bytes' h => ?_
      rcases h with h | h
      · exact BlobStorage.inline.inj h
      · cases h
    exact hbuilt.goOn _ (opened_ended hbuilt)
  | @creates call args pending stream hcall =>
    refine hframe.goOn _ ⟨fun args' file' written' pending' stream' h => ?_, fun _ _ _ h => ?_, fun _ _ h => ?_,
      hframe.held⟩
    · obtain ⟨rfl, rfl, rfl, rfl, rfl⟩ := BlobCall.writing.inj (List.mem_singleton.mp h)
      exact if_pos rfl
    · cases List.mem_singleton.mp h
    · cases List.mem_singleton.mp h
  | @writes call count args file written pending stream hcall =>
    refine hframe.goOn _ ⟨fun args' file' written' pending' stream' h => ?_, fun _ _ _ h => ?_, fun _ _ h => ?_,
      hframe.held⟩
    · obtain ⟨rfl, rfl, rfl, rfl, rfl⟩ := BlobCall.writing.inj (List.mem_singleton.mp h)
      exact hframe.writing _ _ _ _ _ (List.mem_of_getElem? hcall)
    · cases List.mem_singleton.mp h
    · cases List.mem_singleton.mp h
  | @finishes _ call args file written stream sizeBytes hcall =>
    have hopened' : (process.recordSpill sizeBytes).Opened disk :=
      ⟨hopened.writing, hopened.reading, hopened.returned, hopened.held⟩
    have hbuilt : ((process.recordSpill sizeBytes).buildHandle args sizeBytes
        (.spilled (process.cfg.spillPath args.id)) written).Opened disk := by
      refine hopened'.buildHandle fun bytes h => ?_
      rcases h with h | h <;> cases h
    exact hbuilt.goOn _ (opened_ended hbuilt)
  | removesAgain => exact hopened
  | removesInline hblob | removesSpilled hblob =>
    have hflag := hopened.setRemoved hblob
    exact hflag.begin (opened_single hflag (fun _ _ _ _ _ h => by cases h)
      (fun _ _ _ h => by cases h) fun _ _ h => by cases h)
  | removesShared hblob => exact hopened.setRemoved hblob
  | @releases call sizeBytes hcall =>
    have hopened' : (process.releaseInlineBytes sizeBytes).Opened disk :=
      ⟨hopened.writing, hopened.reading, hopened.returned, hopened.held⟩
    exact hopened'.goOn _ (opened_ended hopened')
  | deletes => exact hframe.goOn _ (opened_ended hframe)

end BlobProcess

namespace BlobWorld

/-- Every spill file in use is on the disk under a name of its own, and every operation knows
its file. -/
structure Intact (world : BlobWorld) : Prop where
  holds : world.disk.Holds world.files
  opened : ∀ process ∈ world.processes, process.Opened world.disk

theorem intact_new (disk : Disk) (cfgs : List BlobRuntimeConfig) : (new disk cfgs).Intact where
  holds := by
    have hfiles : (new disk cfgs).files = [] := by
      rw [files, List.flatMap_eq_nil_iff]
      intro process hprocess
      obtain ⟨cfg, -, rfl⟩ := List.mem_map.mp hprocess
      rfl
    rw [hfiles]
    exact ⟨List.nodup_nil, fun _ h => by cases h⟩
  opened process hprocess := by
    obtain ⟨cfg, -, rfl⟩ := List.mem_map.mp hprocess
    exact BlobProcess.opened_new disk cfg

/-- The files of one process beside those of the others. -/
theorem files_perm {world : BlobWorld} {i : ℕ} {process : BlobProcess}
    (hprocess : world.processes[i]? = some process) : ∃ others, world.files.Perm (process.files ++ others) ∧
      ∀ process', ((world.processes.set i process').flatMap BlobProcess.files).Perm
        (process'.files ++ others) := by
  refine ⟨(world.processes.eraseIdx i).flatMap BlobProcess.files, ?_, fun process' => ?_⟩
  · exact (perm_cons_eraseIdx hprocess).flatMap_right BlobProcess.files
  · exact (set_perm_cons hprocess process').flatMap_right BlobProcess.files

/-- **A step that spares the files in use keeps them intact.** -/
theorem Intact.step {world world' : BlobWorld} {event : ℕ × BlobEvent} (hintact : world.Intact)
    (hspares : world.SparesFiles event) (hstep : world.step event = some world') : world'.Intact := by
  obtain ⟨process, process', hprocess, htakes, hprocesses⟩ := step_takes hstep
  have hmem := List.mem_of_getElem? hprocess
  have hopened := hintact.opened process hmem
  have hfileStep := htakes.fileStep hopened
  obtain ⟨others, hfiles, hfiles'⟩ := files_perm hprocess
  have htouched : ∀ path, process.touchedPath event.2 = some path → path ∉ world.files.map Prod.fst :=
    fun path hpath => hspares process path hprocess hpath
  -- the names of all files in use stay
  have hnames : ∀ other ∈ world.processes, ∀ path ∈ other.files.map Prod.fst,
      world'.disk.names path = world.disk.names path := by
    intro other hother path hpath
    apply hfileStep.names_eq
    intro htouch
    apply htouched path htouch
    obtain ⟨e, he, rfl⟩ := List.mem_map.mp hpath
    exact List.mem_map_of_mem (List.mem_flatMap.mpr ⟨other, hother, he⟩)
  have hheld : world.disk.Holds (process.files ++ others) := hintact.holds.perm hfiles.symm
  constructor
  · have hholds := hfileStep.holds hheld fun path hpath hin =>
      htouched path hpath (((hfiles.map Prod.fst).mem_iff).mpr hin)
    rw [files, hprocesses]
    exact hholds.perm (hfiles' process')
  · intro other hother
    rw [hprocesses] at hother
    rcases List.mem_or_eq_of_mem_set hother with hold | rfl
    · exact (hintact.opened other hold).frame (hnames other hold)
    · exact htakes.opened hopened (hheld.subperm (List.sublist_append_left _ _).subperm) (hnames process hmem)

theorem Intact.readsBack {world : BlobWorld} (hintact : world.Intact) : world.ReadsBack := by
  intro process hprocess blob stored hstored hlive
  have hopened := hintact.opened process hprocess
  have hmem := List.mem_of_getElem? hstored
  constructor
  · unfold BlobProcess.readBytes
    rcases hstorage : stored.handle.storage with bytes | bytes | path
    · exact congrArg some (hopened.held stored hmem bytes (Or.inl hstorage)).symm
    · exact congrArg some (hopened.held stored hmem bytes (Or.inr hstorage)).symm
    · exact hintact.holds.read _ (List.mem_flatMap.mpr
        ⟨process, hprocess, BlobProcess.mem_files_of_stored hmem hlive hstorage⟩)
  · intro bytes hbytes
    obtain ⟨stored', hstored', hcontent⟩ := hopened.returned blob bytes hbytes
    obtain rfl := Option.some.inj (hstored.symm.trans hstored')
    exact hcontent hlive

end BlobWorld

/-- **Where no step opens or deletes a spill file that a blob is using, every blob reads back**
until it is removed, however many runtimes share the disk. -/
theorem readsBack_of_sparesFiles {disk : Disk} {cfgs : List BlobRuntimeConfig} {world : BlobWorld}
    (h : Reach BlobWorld.step BlobWorld.SparesFiles (BlobWorld.new disk cfgs) world) : world.ReadsBack := by
  have hintact : world.Intact := h.invariant (BlobWorld.intact_new disk cfgs)
    fun _ _ _ hinv hspares hstep => hinv.step hspares hstep
  exact hintact.readsBack

/-- The steps of a store that spills what it is given. -/
def spillEvents (process call : ℕ) (bytes : List UInt8) : List (ℕ × BlobEvent) :=
  [(process, .storeBytes 0 bytes "image/png"), (process, .load call), (process, .create call),
    (process, .write call bytes.length), (process, .finishSpill call)]

/-- A runtime that keeps nothing inline. -/
def spillingConfig : BlobRuntimeConfig := ⟨0, 0, 0, "/tmp/blobs"⟩

/-- Two processes whose blobs have different numbers. -/
theorem readsBack_example : ∃ world : BlobWorld, world.ReadsBack ∧
    (world.processes.map fun process => process.blobs.map fun stored => stored.handle.id) = [[1, 2], [1]] := by
  let start := BlobWorld.new Disk.empty [spillingConfig, spillingConfig]
  let events := (0, BlobEvent.storeExternalSharedBytes 0 [7] "image/png") ::
    (spillEvents 0 0 [1, 2] ++ spillEvents 1 0 [3, 4])
  have hrun : (Transition.runMeeting BlobWorld.step BlobWorld.SparesFiles start events).isSome := by
    decide +kernel
  obtain ⟨world, hworld⟩ := Option.isSome_iff_exists.mp hrun
  refine ⟨world, readsBack_of_sparesFiles (Transition.runMeeting_reach hworld), ?_⟩
  have hids : (Transition.runMeeting BlobWorld.step BlobWorld.SparesFiles start events).map (fun world =>
      world.processes.map fun process => process.blobs.map fun stored => stored.handle.id) =
        some [[1, 2], [1]] := by
    decide +kernel
  rw [hworld] at hids
  exact Option.some.inj hids

/-- Two processes that store their first blobs: the first one reads what the second one stored. -/
theorem firstBlobs_share_a_file : ¬ ∀ disk (cfg cfg' : BlobRuntimeConfig) world,
    cfg.spillDir = cfg'.spillDir → Reach BlobWorld.step Any (BlobWorld.new disk [cfg, cfg']) world →
      world.ReadsBack := by
  intro h
  let start := BlobWorld.new Disk.empty [spillingConfig, spillingConfig]
  let events := spillEvents 0 0 [1, 2] ++ spillEvents 1 0 [3, 4]
  have hfirst : (Transition.run BlobWorld.step start events).map (fun world =>
      (world.processes[0]?.bind (·.blobs[0]?)).map fun stored =>
        (stored.removed, stored.content, BlobProcess.readBytes world.disk stored.handle)) =
          some (some (false, [1, 2], some [3, 4])) := by
    decide +kernel
  obtain ⟨world, hworld, hstored⟩ := Option.map_eq_some_iff.mp hfirst
  obtain ⟨stored, hblob, hvalues⟩ := Option.map_eq_some_iff.mp hstored
  obtain ⟨process, hprocess, hat⟩ := Option.bind_eq_some_iff.mp hblob
  obtain ⟨hlive, hrest⟩ := Prod.mk.inj hvalues
  obtain ⟨hcontent, hread⟩ := Prod.mk.inj hrest
  have hback := (h Disk.empty _ _ world rfl (Transition.run_reach hworld) process (List.mem_of_getElem? hprocess) 0
    stored hat hlive).1
  rw [hread, hcontent] at hback
  exact absurd hback (by decide)

end GeminiWorker
