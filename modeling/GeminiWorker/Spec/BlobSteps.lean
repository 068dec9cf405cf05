import GeminiWorker.Lib.Disk
import GeminiWorker.Lib.Transition
import GeminiWorker.Spec.BlobRuntime

/-!
# The blob runtime, step by step

The operations of `blob_runtime.rs` as the steps between which other operations may run:
each access to an atomic and each file operation is a step. Several runtimes, one for each
process, share a disk.

The bytes that a blob was stored with, and the request it was stored for, are ghost fields.
-/

namespace GeminiWorker

/-- What a store knows of its blob before it holds it. -/
structure StoreArgs where
  id : ℕ
  request : ℕ
  mimeType : String
deriving DecidableEq

/-- A blob with a handle, and the `removed` flag that the clones of the handle share. -/
structure StoredBlob where
  handle : BlobHandle
  content : List UInt8
  request : ℕ
  removed : Bool
deriving DecidableEq

/-- Where an operation stands. -/
inductive BlobCall where
  /-- The reading loop of `store_stream`, before there is a spill file. -/
  | streaming (args : StoreArgs) (buffer : List UInt8)
  /-- `try_inline_reserve` before the load. -/
  | reserving (args : StoreArgs) (bytes : List UInt8)
  /-- `try_inline_reserve` before the `compare_exchange`. -/
  | exchanging (args : StoreArgs) (bytes : List UInt8) (current : ℕ)
  | reserved (args : StoreArgs) (bytes : List UInt8)
  /-- Before the spill file is opened; a stream may bring more bytes. -/
  | creating (args : StoreArgs) (pending : List UInt8) (stream : Bool)
  | writing (args : StoreArgs) (file : ℕ) (written pending : List UInt8) (stream : Bool)
  /-- `remove` before the subtraction of `release_inline_bytes`. -/
  | releasing (sizeBytes : ℕ)
  /-- `remove` before the deletion of the spill file. -/
  | deleting (path : String)
  /-- `read_bytes` of a spill file, opened. -/
  | reading (blob file : ℕ) (bytes : List UInt8)
  | returned (blob : ℕ) (bytes : List UInt8)
  | ended
deriving DecidableEq

/-- A runtime with the blobs that it has stored and the operations that it runs. -/
structure BlobProcess where
  cfg : BlobRuntimeConfig
  nextId : ℕ
  globalHotBytes : ℕ
  spillCount : ℕ
  spillBytesTotal : ℕ
  blobs : List StoredBlob
  calls : List BlobCall

/-- A step of an operation; one that has begun is named by its place among the calls. -/
inductive BlobEvent where
  | storeBytes (request : ℕ) (bytes : List UInt8) (mimeType : String)
  | storeSharedBytes (request : ℕ) (bytes : List UInt8) (mimeType : String)
  | storeExternalSharedBytes (request : ℕ) (bytes : List UInt8) (mimeType : String)
  | storeStream (request : ℕ) (mimeType : String)
  | read (call : ℕ) (chunk : List UInt8)
  | endOfStream (call : ℕ)
  | load (call : ℕ)
  | compareExchange (call : ℕ)
  | build (call : ℕ)
  | create (call : ℕ)
  | write (call count : ℕ)
  | finishSpill (call : ℕ)
  | remove (blob : ℕ)
  | release (call : ℕ)
  | deleteFile (call : ℕ)
  | readBytes (blob : ℕ)
  | readFile (call count : ℕ)
  /-- An operation fails or is cancelled where it waits. -/
  | abort (call : ℕ)
deriving DecidableEq

namespace BlobProcess

def new (cfg : BlobRuntimeConfig) : BlobProcess :=
  { cfg, nextId := 1, globalHotBytes := 0, spillCount := 0, spillBytesTotal := 0, blobs := [], calls := [] }

/-- `next_id`; the counter is a `u64`. -/
def takeId (process : BlobProcess) : BlobProcess :=
  { process with nextId := (process.nextId + 1) % 2 ^ 64 }

def begin (process : BlobProcess) (call : BlobCall) : BlobProcess :=
  { process with calls := process.calls ++ [call] }

def goOn (process : BlobProcess) (call : ℕ) (next : BlobCall) : BlobProcess :=
  { process with calls := process.calls.set call next }

/-- `build_handle`. -/
def buildHandle (process : BlobProcess) (args : StoreArgs) (sizeBytes : ℕ) (storage : BlobStorage)
    (content : List UInt8) : BlobProcess :=
  { process with
    blobs := process.blobs ++ [⟨⟨args.id, ⟨args.mimeType, sizeBytes⟩, storage⟩, content, args.request, false⟩] }

def recordSpill (process : BlobProcess) (sizeBytes : ℕ) : BlobProcess :=
  { process with
    spillCount := (process.spillCount + 1) % 2 ^ 64
    spillBytesTotal := (process.spillBytesTotal + sizeBytes) % 2 ^ 64 }

/-- `release_inline_bytes`: `fetch_sub` on a `u64` wraps around. -/
def releaseInlineBytes (process : BlobProcess) (sizeBytes : ℕ) : BlobProcess :=
  { process with
    globalHotBytes := (process.globalHotBytes + (2 ^ 64 - sizeBytes % 2 ^ 64)) % 2 ^ 64 }

/-- `try_inline_reserve` up to the `compare_exchange`. -/
def loadHotBytes (process : BlobProcess) (call : ℕ) (args : StoreArgs) (bytes : List UInt8) : BlobProcess :=
  let current := process.globalHotBytes
  let next := current + bytes.length
  if bytes.length > process.cfg.inlineMaxBytes || bytes.length > process.cfg.requestHotBudgetBytes then
    process.goOn call (.creating args bytes false)
  else if next ≥ 2 ^ 64 then process.goOn call (.creating args bytes false)
  else if next > process.cfg.globalHotBudgetBytes then process.goOn call (.creating args bytes false)
  else process.goOn call (.exchanging args bytes current)

/-- The `compare_exchange`; the loop starts again where the counter has changed. -/
def compareExchange (process : BlobProcess) (call : ℕ) (args : StoreArgs) (bytes : List UInt8)
    (current : ℕ) : BlobProcess :=
  if process.globalHotBytes = current then
    { process with globalHotBytes := current + bytes.length }.goOn call (.reserved args bytes)
  else process.goOn call (.reserving args bytes)

/-- `remove` up to the flag. -/
def setRemoved (process : BlobProcess) (blob : ℕ) (stored : StoredBlob) : BlobProcess :=
  { process with blobs := process.blobs.set blob { stored with removed := true } }

def remove (process : BlobProcess) (blob : ℕ) (stored : StoredBlob) : BlobProcess :=
  if stored.removed then process
  else match stored.handle.storage with
    | .inline bytes => (process.setRemoved blob stored).begin (.releasing bytes.length)
    | .shared _ => process.setRemoved blob stored
    | .spilled path => (process.setRemoved blob stored).begin (.deleting path)

/-- `read_bytes` as one step, where no other step interrupts it. -/
def readBytes (disk : Disk) (handle : BlobHandle) : Option (List UInt8) :=
  match handle.storage with
  | .inline bytes | .shared bytes => some bytes
  | .spilled path => disk.read path

def step (disk : Disk) (process : BlobProcess) : BlobEvent → Option (Disk × BlobProcess)
  | .storeBytes request bytes mimeType | .storeSharedBytes request bytes mimeType =>
    some (disk, process.takeId.begin (.reserving ⟨process.nextId, request, mimeType⟩ bytes))
  | .storeExternalSharedBytes request bytes mimeType =>
    some (disk, process.takeId.buildHandle ⟨process.nextId, request, mimeType⟩ bytes.length (.shared bytes) bytes)
  | .storeStream request mimeType =>
    some (disk, process.takeId.begin (.streaming ⟨process.nextId, request, mimeType⟩ []))
  | .read call chunk =>
    if chunk = [] then none
    else match process.calls[call]? with
      | some (.streaming args buffer) =>
        if buffer.length + chunk.length ≤ min process.cfg.inlineMaxBytes process.cfg.requestHotBudgetBytes then
          some (disk, process.goOn call (.streaming args (buffer ++ chunk)))
        else some (disk, process.goOn call (.creating args (buffer ++ chunk) true))
      | some (.writing args file written [] true) =>
        some (disk, process.goOn call (.writing args file written chunk true))
      | _ => none
  | .endOfStream call =>
    match process.calls[call]? with
    | some (.streaming args buffer) => some (disk, process.goOn call (.reserving args buffer))
    | some (.writing args _ written [] true) =>
      -- the size of the blob is what the metadata of the path says
      match disk.read (process.cfg.spillPath args.id) with
      | some found => some (disk, ((process.recordSpill found.length).buildHandle args found.length
          (.spilled (process.cfg.spillPath args.id)) written).goOn call .ended)
      | none => some (disk, process.goOn call .ended)
    | _ => none
  | .load call =>
    match process.calls[call]? with
    | some (.reserving args bytes) => some (disk, process.loadHotBytes call args bytes)
    | _ => none
  | .compareExchange call =>
    match process.calls[call]? with
    | some (.exchanging args bytes current) => some (disk, process.compareExchange call args bytes current)
    | _ => none
  | .build call =>
    match process.calls[call]? with
    | some (.reserved args bytes) =>
      some (disk, (process.buildHandle args bytes.length (.inline bytes) bytes).goOn call .ended)
    | _ => none
  | .create call =>
    match process.calls[call]? with
    | some (.creating args pending stream) =>
      let path := process.cfg.spillPath args.id
      some (disk.create path, process.goOn call (.writing args (disk.createdFile path) [] pending stream))
    | _ => none
  | .write call count =>
    match process.calls[call]? with
    | some (.writing args file written pending stream) =>
      let chunk := pending.take count
      some (disk.writeAt file written.length chunk,
        process.goOn call (.writing args file (written ++ chunk) (pending.drop count) stream))
    | _ => none
  | .finishSpill call =>
    match process.calls[call]? with
    | some (.writing args _ written [] false) =>
      some (disk, ((process.recordSpill written.length).buildHandle args written.length
        (.spilled (process.cfg.spillPath args.id)) written).goOn call .ended)
    | _ => none
  | .remove blob => process.blobs[blob]?.map fun stored => (disk, process.remove blob stored)
  | .release call =>
    match process.calls[call]? with
    | some (.releasing sizeBytes) => some (disk, (process.releaseInlineBytes sizeBytes).goOn call .ended)
    | _ => none
  | .deleteFile call =>
    match process.calls[call]? with
    | some (.deleting path) => some (disk.unlink path, process.goOn call .ended)
    | _ => none
  | .readBytes blob =>
    match process.blobs[blob]? with
    | some stored =>
      match stored.handle.storage with
      | .inline bytes | .shared bytes => some (disk, process.begin (.returned blob bytes))
      | .spilled path =>
        match disk.names path with
        | some file => some (disk, process.begin (.reading blob file []))
        | none => some (disk, process.begin .ended)
    | none => none
  | .readFile call count =>
    match process.calls[call]? with
    | some (.reading blob file bytes) =>
      let rest := (disk.contents file).drop bytes.length
      if rest = [] then some (disk, process.goOn call (.returned blob bytes))
      else some (disk, process.goOn call (.reading blob file (bytes ++ rest.take count)))
    | _ => none
  | .abort call =>
    match process.calls[call]? with
    | some (.streaming ..) | some (.creating ..) | some (.writing ..) | some (.deleting ..)
    | some (.reading ..) => some (disk, process.goOn call .ended)
    | _ => none

end BlobProcess

/-- The runtimes of several processes over one disk. -/
structure BlobWorld where
  disk : Disk
  processes : List BlobProcess

namespace BlobWorld

def new (disk : Disk) (cfgs : List BlobRuntimeConfig) : BlobWorld := ⟨disk, cfgs.map BlobProcess.new⟩

/-- A step of the process at a place. -/
def step (world : BlobWorld) (event : ℕ × BlobEvent) : Option BlobWorld :=
  world.processes[event.1]?.bind fun process =>
    (process.step world.disk event.2).map fun (disk, process) =>
      ⟨disk, world.processes.set event.1 process⟩

end BlobWorld

end GeminiWorker
