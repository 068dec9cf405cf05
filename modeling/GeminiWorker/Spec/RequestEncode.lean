import GeminiWorker.Lib.Base64
import GeminiWorker.Lib.Except
import GeminiWorker.Lib.Reader
import GeminiWorker.Spec.BlobRuntime

/-!
# The request encoder

`request_encode.rs`: the upstream body is written piece by piece, each replaced node
from its blob, and counted while it is written.
-/

namespace GeminiWorker

open Json (Value Map)

structure RequestReplacement where
  jsonPointer : String
  mimeType : String
  blob : BlobHandle

structure EncodedRequestBody where
  bodyBlob : BlobHandle
  contentLength : ℕ

inductive EncodeError where
  | openReader
  | outputSliceTooSmall
  /-- A slice index out of bounds, which panics. -/
  | indexOutOfBounds
  | store
deriving DecidableEq

/-- `token.replace('~', "~0").replace('/', "~1")`. -/
def escapeJsonPointerToken (token : String) : String :=
  String.ofList ((token.toList.flatMap fun c => if c = '~' then ['~', '0'] else [c]).flatMap
    fun c => if c = '/' then ['~', '1'] else [c])

def stripOutputFromValue (body : Value) : Value :=
  let body := body.removeKey "output"
  let body := body.modifyPointer "/generationConfig/imageConfig" (Value.removeKey "output")
  body.modifyPointer "/generation_config/image_config" (Value.removeKey "output")

/-- What has been written, and `content_length`, counted next to it. -/
structure Output where
  bytes : List UInt8
  contentLength : ℕ

def Output.writeCounted (out : Output) (bytes : List UInt8) : Output :=
  ⟨out.bytes ++ bytes, out.contentLength + bytes.length⟩

def writeBase64Bytes (bytes : List UInt8) (out : Output) : Except EncodeError Output :=
  if bytes.isEmpty then .ok out
  else match Base64.encodeSlice bytes ((bytes.length + 2) / 3 * 4) with
    | some written => .ok (out.writeCounted written)
    | none => .error .outputSliceTooSmall

def chunkBytes : ℕ := 48 * 1024

/-- The length of the output buffer of `write_blob_as_base64`. -/
def outputCapacity : ℕ := (chunkBytes + 2 + 2) / 3 * 4

/-- The loop of `write_blob_as_base64`: `carry` is what `input[..carry_len]` holds. -/
def writeReads : List (List UInt8) → List UInt8 → Output → Except EncodeError Output
  | [], carry, out =>
    if carry.length > 0 then
      match Base64.encodeSlice carry outputCapacity with
      | some written => .ok (out.writeCounted written)
      | none => .error .outputSliceTooSmall
    else .ok out
  | read :: reads, carry, out =>
    -- `input[carry_len..carry_len + CHUNK_BYTES]` of a buffer of `CHUNK_BYTES + 2`
    if carry.length + chunkBytes > chunkBytes + 2 then .error .indexOutOfBounds
    else
      let input := carry ++ read
      let completeLen := input.length / 3 * 3
      if completeLen = 0 then writeReads reads input out
      else match Base64.encodeSlice (input.take completeLen) outputCapacity with
        | some written => writeReads reads (input.drop completeLen) (out.writeCounted written)
        | none => .error .outputSliceTooSmall

def writeBlobAsBase64 (reader : Reader chunkBytes) (runtime : BlobRuntime) (blob : BlobHandle)
    (out : Output) : Except EncodeError Output :=
  match blob.storage with
  | .inline bytes => writeBase64Bytes bytes out
  | .shared _ | .spilled _ =>
    match runtime.openReader blob with
    | none => .error .openReader
    | some contents => writeReads (reader.split contents) [] out

def writeReplacement (reader : Reader chunkBytes) (runtime : BlobRuntime)
    (replacement : RequestReplacement) (out : Output) : Except EncodeError Output := do
  let out := out.writeCounted (Text.bytes "\x7b")
  let out := out.writeCounted (Json.printString "mimeType")
  let out := out.writeCounted (Text.bytes ":")
  let out := out.writeCounted (Json.printString replacement.mimeType)
  let out := out.writeCounted (Text.bytes ",")
  let out := out.writeCounted (Json.printString "data")
  let out := out.writeCounted (Text.bytes ":\"")
  let out ← writeBlobAsBase64 reader runtime replacement.blob out
  return out.writeCounted (Text.bytes "\"\x7d")

section

/- How the blob read at each pointer is delivered, what is replaced, and the runtime. -/
variable (readers : String → Reader chunkBytes) (replacements : String → Option RequestReplacement)
  (runtime : BlobRuntime)

mutual
def writeJsonValue (path : String) (value : Value) (out : Output) : Except EncodeError Output :=
  match replacements path with
  | some replacement => writeReplacement (readers path) runtime replacement out
  | none => match value with
    | .object map => do
      let out ← writeMembers path true map (out.writeCounted (Text.bytes "\x7b"))
      return out.writeCounted (Text.bytes "\x7d")
    | .array items => do
      let out ← writeItems path 0 items (out.writeCounted (Text.bytes "["))
      return out.writeCounted (Text.bytes "]")
    | value => .ok (out.writeCounted (Json.print value))
/-- The loop over the entries of an object. -/
def writeMembers (path : String) (first : Bool) : List (String × Value) → Output →
    Except EncodeError Output
  | [], out => .ok out
  | (key, child) :: map, out => do
    let out := if !first then out.writeCounted (Text.bytes ",") else out
    let out := out.writeCounted (Json.printString key)
    let out := out.writeCounted (Text.bytes ":")
    let out ← writeJsonValue (path ++ "/" ++ escapeJsonPointerToken key) child out
    writeMembers path false map out
/-- The loop over the items of an array. -/
def writeItems (path : String) (index : ℕ) : List Value → Output → Except EncodeError Output
  | [], out => .ok out
  | child :: items, out => do
    let out := if index > 0 then out.writeCounted (Text.bytes ",") else out
    let out ← writeJsonValue (path ++ "/" ++ toString index) child out
    writeItems path (index + 1) items out
end

end

/-- The replacements by pointer; of two with one pointer the later stays. -/
def replacementMap (replacements : List RequestReplacement) (path : String) :
    Option RequestReplacement :=
  replacements.reverse.find? fun replacement => replacement.jsonPointer == path

/-- The largest read of `store_stream`. -/
def streamChunkBytes : ℕ := 16 * 1024

/-- `encode_request_body`. The store reads the other end of the pipe while the body is
written; it shares no blob with the writer, so it is run after it here. -/
def encodeRequestBody (io : WriteOutcome) (readers : String → Reader chunkBytes)
    (pipe : Reader streamChunkBytes) (request : Value) (replacements : List RequestReplacement)
    (runtime : BlobRuntime) : Except EncodeError (EncodedRequestBody × BlobRuntime) := do
  let request := stripOutputFromValue request
  let out ← writeJsonValue readers (replacementMap replacements) runtime "" request ⟨[], 0⟩
  match runtime.storeStream io (pipe.split out.bytes) "application/json" with
  | (some bodyBlob, runtime) => return (⟨bodyBlob, out.contentLength⟩, runtime)
  | (none, _) => .error .store

end GeminiWorker
