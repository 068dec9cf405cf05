import Mathlib.Algebra.GroupWithZero.Nat
import Mathlib.Logic.Function.Basic
import Mathlib.Data.Nat.Notation

/-!
# The blob runtime

`blob_runtime.rs`: blobs are held inline within a hot-memory budget, shared with a
cache, or spilled to a file of their own. Its state is explicit; how the disk behaves
is a parameter of the operation that writes.
-/

namespace GeminiWorker

structure BlobRuntimeConfig where
  inlineMaxBytes : ℕ
  requestHotBudgetBytes : ℕ
  globalHotBudgetBytes : ℕ
  spillDir : String

structure BlobMeta where
  mimeType : String
  sizeBytes : ℕ
deriving DecidableEq

inductive BlobStorage where
  | inline (bytes : List UInt8)
  | shared (bytes : List UInt8)
  | spilled (path : String)
deriving DecidableEq

/-- A handle; its clones share one `removed` flag, kept in the runtime under the id. -/
structure BlobHandle where
  id : ℕ
  blobMeta : BlobMeta
  storage : BlobStorage
deriving DecidableEq

structure BlobRuntime where
  cfg : BlobRuntimeConfig
  nextId : ℕ
  globalHotBytes : ℕ
  spillCount : ℕ
  spillBytesTotal : ℕ
  /-- The ids whose handles are removed. -/
  removed : List ℕ
  /-- The files on disk. -/
  files : String → Option (List UInt8)

/-- How a file write ends: completed, or failed with what it leaves at the path. -/
inductive WriteOutcome where
  | completed
  | failed (left : Option (List UInt8))
deriving DecidableEq

def BlobRuntimeConfig.spillPath (cfg : BlobRuntimeConfig) (id : ℕ) : String :=
  cfg.spillDir ++ "/blob-" ++ toString id ++ ".bin"

namespace BlobRuntime

def new (cfg : BlobRuntimeConfig) (files : String → Option (List UInt8)) : BlobRuntime :=
  { cfg, nextId := 1, globalHotBytes := 0, spillCount := 0, spillBytesTotal := 0, removed := [], files }

/-- `try_inline_reserve`; the counter is a `u64` and the addition is checked. -/
def tryInlineReserve (runtime : BlobRuntime) (sizeBytes : ℕ) : Option BlobRuntime :=
  if sizeBytes > runtime.cfg.inlineMaxBytes || sizeBytes > runtime.cfg.requestHotBudgetBytes then none
  else
    let next := runtime.globalHotBytes + sizeBytes
    if next ≥ 2 ^ 64 then none
    else if next > runtime.cfg.globalHotBudgetBytes then none
    else some { runtime with globalHotBytes := next }

/-- `release_inline_bytes`: `fetch_sub` on a `u64` wraps around. -/
def releaseInlineBytes (runtime : BlobRuntime) (sizeBytes : ℕ) : BlobRuntime :=
  { runtime with globalHotBytes := (runtime.globalHotBytes + (2 ^ 64 - sizeBytes % 2 ^ 64)) % 2 ^ 64 }

def recordSpill (runtime : BlobRuntime) (sizeBytes : ℕ) : BlobRuntime :=
  { runtime with
    spillCount := runtime.spillCount + 1
    spillBytesTotal := runtime.spillBytesTotal + sizeBytes }

def writeFile (runtime : BlobRuntime) (path : String) (bytes : List UInt8) : BlobRuntime :=
  { runtime with files := Function.update runtime.files path (some bytes) }

/-- What a failed write leaves behind. -/
def leaveFile (runtime : BlobRuntime) (path : String) : Option (List UInt8) → BlobRuntime
  | some left => runtime.writeFile path left
  | none => runtime

def takeId (runtime : BlobRuntime) : ℕ × BlobRuntime :=
  (runtime.nextId, { runtime with nextId := runtime.nextId + 1 })

/-- The common tail of the stores: inline if the reservation succeeds, else a spill file. -/
def storeBuffer (io : WriteOutcome) (id : ℕ) (bytes : List UInt8) (mimeType : String)
    (runtime : BlobRuntime) : Option BlobHandle × BlobRuntime :=
  match runtime.tryInlineReserve bytes.length with
  | some runtime => (some ⟨id, ⟨mimeType, bytes.length⟩, .inline bytes⟩, runtime)
  | none =>
    let path := runtime.cfg.spillPath id
    match io with
    | .completed => (some ⟨id, ⟨mimeType, bytes.length⟩, .spilled path⟩,
        (runtime.writeFile path bytes).recordSpill bytes.length)
    | .failed left => (none, runtime.leaveFile path left)

def storeBytes (io : WriteOutcome) (bytes : List UInt8) (mimeType : String)
    (runtime : BlobRuntime) : Option BlobHandle × BlobRuntime :=
  let (id, runtime) := runtime.takeId
  runtime.storeBuffer io id bytes mimeType

/-- The same steps as `storeBytes`, on a shared buffer. -/
def storeSharedBytes (io : WriteOutcome) (bytes : List UInt8) (mimeType : String)
    (runtime : BlobRuntime) : Option BlobHandle × BlobRuntime :=
  runtime.storeBytes io bytes mimeType

def storeExternalSharedBytes (bytes : List UInt8) (mimeType : String) (runtime : BlobRuntime) :
    BlobHandle × BlobRuntime :=
  let (id, runtime) := runtime.takeId
  (⟨id, ⟨mimeType, bytes.length⟩, .shared bytes⟩, runtime)

/-- The locals of the reading loop of `store_stream`: the buffer, or what the spill file
holds once there is one. -/
structure StreamState where
  buffer : List UInt8
  spillFile : Option (List UInt8)

def StreamState.read (inlineLimit : ℕ) (s : StreamState) (chunk : List UInt8) : StreamState :=
  match s.spillFile with
  | some file => { s with spillFile := some (file ++ chunk) }
  | none =>
    if s.buffer.length + chunk.length ≤ inlineLimit then { s with buffer := s.buffer ++ chunk }
    else { buffer := [], spillFile := some (s.buffer ++ chunk) }

def storeStream (io : WriteOutcome) (reads : List (List UInt8)) (mimeType : String)
    (runtime : BlobRuntime) : Option BlobHandle × BlobRuntime :=
  let inlineLimit := min runtime.cfg.inlineMaxBytes runtime.cfg.requestHotBudgetBytes
  let (id, runtime) := runtime.takeId
  let s := reads.foldl (StreamState.read inlineLimit) ⟨[], none⟩
  match s.spillFile with
  | some file =>
    let path := runtime.cfg.spillPath id
    (some ⟨id, ⟨mimeType, file.length⟩, .spilled path⟩,
      (runtime.writeFile path file).recordSpill file.length)
  | none => runtime.storeBuffer io id s.buffer mimeType

/-- What a `store_stream` leaves that is aborted after some reads: the spill file, if the
loop had begun one. -/
def abortStream (reads : List (List UInt8)) (runtime : BlobRuntime) : BlobRuntime :=
  let inlineLimit := min runtime.cfg.inlineMaxBytes runtime.cfg.requestHotBudgetBytes
  let (id, runtime) := runtime.takeId
  let s := reads.foldl (StreamState.read inlineLimit) ⟨[], none⟩
  runtime.leaveFile (runtime.cfg.spillPath id) s.spillFile

/-- What `open_reader` delivers to the end; nothing if the file cannot be opened. -/
def openReader (runtime : BlobRuntime) (handle : BlobHandle) : Option (List UInt8) :=
  match handle.storage with
  | .inline bytes | .shared bytes => some bytes
  | .spilled path => runtime.files path

def readBytes (runtime : BlobRuntime) (handle : BlobHandle) : Option (List UInt8) :=
  match handle.storage with
  | .inline bytes | .shared bytes => some bytes
  | .spilled path => runtime.files path

/-- Whether `remove` reports success, and the runtime after it. The flag is set before
the file is deleted, and a missing file counts as deleted. -/
def remove (removeFails : Bool) (runtime : BlobRuntime) (handle : BlobHandle) : Bool × BlobRuntime :=
  if handle.id ∈ runtime.removed then (true, runtime)
  else
    let runtime := { runtime with removed := handle.id :: runtime.removed }
    match handle.storage with
    | .inline bytes => (true, runtime.releaseInlineBytes bytes.length)
    | .shared _ => (true, runtime)
    | .spilled path =>
      if (runtime.files path).isSome && removeFails then (false, runtime)
      else (true, { runtime with files := Function.update runtime.files path none })

end BlobRuntime

end GeminiWorker
