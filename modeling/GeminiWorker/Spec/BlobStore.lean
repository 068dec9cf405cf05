import GeminiWorker.Lib.Await
import GeminiWorker.Spec.BlobRuntime

/-!
# Storing a blob, operation by operation

`store_bytes`, `store_shared_bytes` and `store_stream` of `blob_runtime.rs` with the file operations and reads that they
wait for, each of which may fail, or be the one at which the storing task is aborted. All files that a call touches are
at the spill path of its id.
-/

namespace GeminiWorker

/-- What a store waits for. -/
inductive StoreOp where
  /-- `read` of the reader. -/
  | read
  /-- `create_dir_all` of `ensure_parent_dir`. -/
  | createDirAll
  /-- `File::create`. -/
  | createFile
  | writeAll (bytes : List UInt8)
  | flush
  | metadata
  /-- `fs::write`. -/
  | write (bytes : List UInt8)
deriving DecidableEq

namespace StoreOp

def fileAt (path : String) (runtime : BlobRuntime) : List UInt8 := (runtime.files path).getD []

def complete (path : String) : StoreOp → BlobRuntime → BlobRuntime
  | .read, runtime | .createDirAll, runtime | .flush, runtime | .metadata, runtime => runtime
  | .createFile, runtime => runtime.writeFile path []
  | .writeAll bytes, runtime => runtime.writeFile path (fileAt path runtime ++ bytes)
  | .write bytes, runtime => runtime.writeFile path bytes

/-- An operation that fails, or during which the task is aborted: what it has begun on the file goes on, as far as
`effect` says. A file that is created is there from an effect of 1 on. -/
def stop (path : String) : StoreOp → ℕ → BlobRuntime → BlobRuntime
  | .read, _, runtime | .createDirAll, _, runtime | .metadata, _, runtime => runtime
  | .createFile, effect, runtime => if effect = 0 then runtime else runtime.writeFile path []
  | .writeAll bytes, effect, runtime => runtime.writeFile path (fileAt path runtime ++ bytes.take effect)
  -- bytes of an earlier write that the file has not taken are lost
  | .flush, effect, runtime => runtime.writeFile path ((fileAt path runtime).take effect)
  | .write bytes, effect, runtime => if effect = 0 then runtime else runtime.writeFile path (bytes.take (effect - 1))

def awaits (path : String) (op : StoreOp) : AwaitOp BlobRuntime := ⟨op.complete path, op.stop path⟩

end StoreOp

namespace BlobStore

open Awaits (await get set)

abbrev Store (α : Type) := Awaits BlobRuntime α

def nextId : Store ℕ := do
  let (id, runtime) := (← get).takeId
  set runtime
  return id

/-- `try_inline_reserve`, and whether it reserves. -/
def tryInlineReserve (sizeBytes : ℕ) : Store Bool := do
  match (← get).tryInlineReserve sizeBytes with
  | some runtime =>
    set runtime
    return true
  | none => return false

def recordSpill (sizeBytes : ℕ) : Store Unit := do
  set ((← get).recordSpill sizeBytes)

def spillPath (id : ℕ) : Store String := do
  return (← get).cfg.spillPath id

def ensureParentDir (path : String) : Store Unit := await (StoreOp.awaits path .createDirAll)

def writeSpilledBytes (id : ℕ) (bytes : List UInt8) : Store String := do
  let path ← spillPath id
  ensureParentDir path
  await (StoreOp.awaits path (.write bytes))
  return path

/-- `build_handle`. -/
def buildHandle (id : ℕ) (mimeType : String) (sizeBytes : ℕ) (storage : BlobStorage) : BlobHandle :=
  ⟨id, ⟨mimeType, sizeBytes⟩, storage⟩

/-- The end of the stores, once all bytes are in memory. -/
def storeBuffer (id : ℕ) (bytes : List UInt8) (mimeType : String) : Store BlobHandle := do
  let sizeBytes := bytes.length
  if ← tryInlineReserve sizeBytes then
    return buildHandle id mimeType sizeBytes (.inline bytes)
  else
    let spilledPath ← writeSpilledBytes id bytes
    recordSpill sizeBytes
    return buildHandle id mimeType sizeBytes (.spilled spilledPath)

def storeBytes (bytes : List UInt8) (mimeType : String) : Store BlobHandle := do
  let id ← nextId
  storeBuffer id bytes mimeType

/-- The same steps as `storeBytes`, on a shared buffer. -/
def storeSharedBytes (bytes : List UInt8) (mimeType : String) : Store BlobHandle := storeBytes bytes mimeType

/-- The locals of the loop of `store_stream`; there is a spill file where there is a spill path. -/
structure StreamLocals where
  buffer : List UInt8
  spillPath : Option String

/-- The loop of `store_stream` over what the reader delivers; a read of no bytes is the end. -/
def streamLoop (inlineLimit id : ℕ) : StreamLocals → List (List UInt8) → Store StreamLocals
  | locals, [] => do
    await (StoreOp.awaits ((← get).cfg.spillPath id) .read)
    return locals
  | locals, chunk :: reads => do
    await (StoreOp.awaits ((← get).cfg.spillPath id) .read)
    if chunk = [] then return locals
    else match locals.spillPath with
      | some path =>
        await (StoreOp.awaits path (.writeAll chunk))
        streamLoop inlineLimit id locals reads
      | none =>
        if locals.buffer.length + chunk.length ≤ inlineLimit then
          streamLoop inlineLimit id { locals with buffer := locals.buffer ++ chunk } reads
        else
          let path ← spillPath id
          ensureParentDir path
          await (StoreOp.awaits path .createFile)
          if locals.buffer ≠ [] then await (StoreOp.awaits path (.writeAll locals.buffer))
          await (StoreOp.awaits path (.writeAll chunk))
          streamLoop inlineLimit id ⟨[], some path⟩ reads

/-- `fs::metadata`, the length. -/
def metadataLen (path : String) : Store ℕ := do
  await (StoreOp.awaits path .metadata)
  match (← get).files path with
  | some file => return file.length
  | none => Awaits.fail

def storeStream (reads : List (List UInt8)) (mimeType : String) : Store BlobHandle := do
  let cfg := (← get).cfg
  let inlineLimit := min cfg.inlineMaxBytes cfg.requestHotBudgetBytes
  let id ← nextId
  let locals ← streamLoop inlineLimit id ⟨[], none⟩ reads
  match locals.spillPath with
  | some path =>
    await (StoreOp.awaits path .flush)
    let size ← metadataLen path
    recordSpill size
    return buildHandle id mimeType size (.spilled path)
  | none => storeBuffer id locals.buffer mimeType

end BlobStore

end GeminiWorker
